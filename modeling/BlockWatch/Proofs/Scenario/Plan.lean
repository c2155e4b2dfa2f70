import BlockWatch.Proofs.Scenario.Acts

/-!
# The plan of a scenario

All of a run but its shutdown follows one plan. The homes that are laid out, the parts they play,
and the handles of the leader and of the late node are known only while the run goes on, so the plan
is a function of them.
-/

namespace BlockWatch

/-! ## Casts -/

namespace Cast

/-- The homes in the order in which they are launched. -/
def inOrder (cast : Cast) : List NodeHome :=
  cast.leader :: (cast.validators ++ cast.early) ++ [cast.late]

/-- Only observers join. -/
structure JoinsObservers (cast : Cast) : Prop where
  early : ∀ home ∈ cast.early, home.role = .observer
  late : cast.late.role = .observer

theorem ofHomes?_eq_some {homes : List NodeHome} {cast : Cast}
    (h : ofHomes? homes = some cast) :
    homes.filter (·.role = .validator) = cast.leader :: cast.validators ∧
      homes.filter (·.role = .observer) = cast.early ++ [cast.late] := by
  unfold ofHomes? at h
  cases hvalidators : homes.filter (·.role = .validator) with
  | nil => simp [hvalidators] at h
  | cons leader validators =>
    rcases (homes.filter (·.role = .observer)).eq_nil_or_concat' with hnone | ⟨early, late, hsome⟩
    · simp [hvalidators, hnone] at h
    · rw [hsome]
      cases early with
      | nil => simp [hvalidators, hsome] at h
      | cons first rest =>
        simp only [hvalidators, hsome, List.getLast?_concat, List.dropLast_concat] at h
        cases h
        exact ⟨rfl, rfl⟩

theorem joinsObservers_of_ofHomes? {homes : List NodeHome} {cast : Cast}
    (h : ofHomes? homes = some cast) : cast.JoinsObservers := by
  have hobservers : ∀ home ∈ cast.early ++ [cast.late], home.role = .observer := by
    intro home hhome
    rw [← (ofHomes?_eq_some h).2] at hhome
    exact of_decide_eq_true (List.mem_filter.mp hhome).2
  exact ⟨fun home hhome ↦ hobservers home (List.mem_append_left _ hhome),
    hobservers _ (List.mem_append_right _ (List.mem_singleton_self _))⟩

/-- Every home has exactly one part. -/
theorem inOrder_perm {homes : List NodeHome} {cast : Cast} (h : ofHomes? homes = some cast) :
    cast.inOrder.Perm homes := by
  obtain ⟨hvalidators, hobservers⟩ := ofHomes?_eq_some h
  have hothers : homes.filter (fun home ↦ !decide (home.role = .validator)) =
      homes.filter (·.role = .observer) := by
    refine List.filter_congr fun home _ ↦ ?_
    cases home.role <;> rfl
  have hsplit : (homes.filter (·.role = .validator) ++ homes.filter (·.role = .observer)).Perm
      homes := by
    rw [← hothers]
    exact List.filter_append_perm _ homes
  rw [hvalidators, hobservers] at hsplit
  simpa [inOrder] using hsplit

theorem exists_joinsObservers : ∃ cast : Cast, cast.JoinsObservers := by
  let home : NodeHome :=
    ⟨0, .observer, ⟨""⟩, .v4 ⟨0, 0, 0, 0⟩ 0, .v4 ⟨0, 0, 0, 0⟩ 0, ""⟩
  exact ⟨⟨home, [], [], home⟩, ⟨fun _ hmem ↦ absurd hmem List.not_mem_nil, rfl⟩⟩

end Cast

namespace Scenario

variable {τ : Type} (scenario : Scenario τ) (layout : Layout)

/-- What a run does before its shutdown, if nothing stops it. -/
def plan (homes : List NodeHome) (cast : Cast) (leader late : Node) : List Action :=
  [.enter .provisioning, .validate scenario.config, .init layout homes, .assign homes cast,
    .seed scenario.dataset (homes.map (·.directory)), .launch cast.leader none (some leader)] ++
  (cast.validators ++ cast.early).map (fun home ↦ .launch home (some leader) none) ++
  [.enter .baselineWait, .watch leader,
    .enter .joinLateNode, .launch cast.late (some leader) (some late),
    .enter .degradationWatch, .watch leader,
    .enter .lateNodeCatchup, .watch late]

variable {scenario layout}

/-! ## Provisioning -/

variable (scenario) in
def checkConfig : Act τ Unit :=
  match scenario.config.validate with
  | .ok () => pure ()
  | .error cause => abort (.config cause)

def assign (homes : List NodeHome) : Act τ Cast :=
  match Cast.ofHomes? homes with
  | none => abort (.bringup (.ofFlaw (.incompleteCast homes.length)))
  | some cast => pure cast

variable (scenario) in
/-- Provisioning as a sequence of acts. -/
theorem provision_eq :
    scenario.provision = scenario.checkConfig >>= fun _ ↦
      orFault (scenarioLayout scenario.config) >>= fun layout ↦
      bringup (.init layout) (scenario.site.init layout) >>= fun homes ↦
      assign homes >>= fun cast ↦
      scenario.seed (homes.map (·.directory)) >>= fun _ ↦ pure cast := by
  have hassign (homes : List NodeHome) :
      (match Cast.ofHomes? homes with
        | none => abort (.bringup (.ofFlaw (.incompleteCast homes.length)))
        | some cast => scenario.seed (homes.map (·.directory)) >>= fun _ ↦ pure cast) =
      assign homes >>= fun cast ↦
      scenario.seed (homes.map (·.directory)) >>= fun _ ↦ pure cast := by
    unfold assign
    cases Cast.ofHomes? homes <;> rfl
  rw [← funext hassign]
  unfold provision checkConfig
  cases scenario.config.validate <;> rfl

theorem follows_checkConfig :
    scenario.Follows scenario.checkConfig fun _ plan ↦ plan = [.validate scenario.config] := by
  apply follows_of_ends
  intro s
  unfold checkConfig
  cases hvalidate : scenario.config.validate with
  | ok _ => exact ⟨(), [], none, s, .valid hvalidate, .nil s, rfl⟩
  | error cause => exact ⟨(), [], _, s, .invalid hvalidate, .nil s, rfl⟩

theorem follows_assign (homes : List NodeHome) :
    scenario.Follows (assign homes)
      fun cast plan ↦ cast.JoinsObservers ∧ plan = [.assign homes cast] := by
  intro s
  unfold assign
  cases hcast : Cast.ofHomes? homes with
  | none =>
    obtain ⟨cast, hjoins⟩ := Cast.exists_joinsObservers
    exact ⟨cast, _, [], _, s, ⟨hjoins, rfl⟩, .single (.incomplete hcast), .nil s, rfl⟩
  | some cast =>
    have hjoins := Cast.joinsObservers_of_ofHomes? hcast
    exact ⟨cast, _, [], none, s, ⟨hjoins, rfl⟩, .single (.assigned hcast), .nil s, rfl⟩

/-- Provisioning lays the cluster out, gives each home its part and seeds the homes. -/
theorem follows_provision (hlayout : scenarioLayout scenario.config = .ok layout) :
    scenario.Follows scenario.provision fun cast plan ↦ cast.JoinsObservers ∧ ∃ homes,
      plan = [.validate scenario.config, .init layout homes, .assign homes cast,
        .seed scenario.dataset (homes.map (·.directory))] := by
  rw [provision_eq, hlayout]
  apply follows_checkConfig.bind
  rintro _ _ rfl
  apply (follows_pure layout).bind
  rintro layout _ ⟨rfl, rfl⟩
  apply (scenario.follows_init layout).bind
  rintro homes _ rfl
  apply (follows_assign homes).bind
  rintro cast _ ⟨hjoins, rfl⟩
  apply (scenario.follows_seed _).bind
  rintro _ _ rfl
  apply (follows_pure cast).mono
  rintro _ _ ⟨rfl, rfl⟩
  exact ⟨hjoins, homes, rfl⟩

/-! ## The whole run -/

/-- All of a run but its shutdown follows the plan of the scenario. -/
theorem follows_execute (hlayout : scenarioLayout scenario.config = .ok layout) :
    scenario.Follows scenario.execute fun report plan ↦ ∃ homes cast,
      plan = scenario.plan layout homes cast report.leader report.lateNode := by
  unfold execute
  apply (follows_enter _).bind
  rintro _ _ rfl
  apply (follows_provision hlayout).bind
  rintro cast _ ⟨hjoins, homes, rfl⟩
  apply follows_get.bind
  rintro _ _ rfl
  apply (scenario.follows_launch _ _).bind
  rintro leader _ rfl
  apply (scenario.follows_launchAll _ _).bind
  rintro _ _ rfl
  apply (scenario.follows_joinAll _ hjoins.early).bind
  rintro _ _ rfl
  apply (follows_enter _).bind
  rintro _ _ rfl
  apply (follows_await _ _ rfl).bind
  rintro _ _ rfl
  apply (follows_enter _).bind
  rintro _ _ rfl
  apply (scenario.follows_join _ hjoins.late).bind
  rintro late _ rfl
  apply (follows_enter _).bind
  rintro _ _ rfl
  apply (follows_await _ _ rfl).bind
  rintro _ _ rfl
  apply (follows_enter _).bind
  rintro _ _ rfl
  apply (follows_await _ _ rfl).bind
  rintro _ _ rfl
  apply follows_get.bind
  rintro _ _ rfl
  apply (follows_pure _).mono
  rintro _ _ ⟨rfl, rfl⟩
  exact ⟨homes, cast, by simp [plan]⟩

end Scenario

end BlockWatch
