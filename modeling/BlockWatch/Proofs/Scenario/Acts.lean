import BlockWatch.Proofs.Scenario.Itinerary

/-!
# Acts that follow plans

An act follows a family of plans if, from every state, it performs one of them and the log of that
plan leads to the state in which the act ends. One rule for each part of a run says which plans it
follows.
-/

namespace BlockWatch

namespace Scenario

variable {τ α β : Type} {scenario : Scenario τ}

/-- The outcome of an act that gives a value unless it is stopped. -/
def settled (value : α) (tracker : PhaseTracker) :
    Option (Stop AbortReason) → Except (Stop ScenarioError) α
  | none => .ok value
  | some stop => .error (stop.map tracker.abort)

/-- From every state, the act performs one of its plans. Which ones these are may depend on the
value that the act gives. -/
def Follows (scenario : Scenario τ) (act : Act τ α) (plans : α → List Action → Prop) : Prop :=
  ∀ s, ∃ value plan log stop s', plans value plan ∧ Performed plan log stop ∧
    scenario.Logged s log s' ∧ act.run.run s = (settled value s'.tracker stop, s')

/-! ## Rules for all acts -/

theorem run_bind (act : Act τ α) (f : α → Act τ β) (s : RunState τ) :
    (act >>= f).run.run s =
      match act.run.run s with
      | (.ok value, s) => (f value).run.run s
      | (.error stop, s) => (.error stop, s) := by
  have hbind : (act >>= f).run.run s =
      (ExceptT.bindCont f (act.run.run s).1) (act.run.run s).2 := rfl
  rw [hbind]
  rcases act.run.run s with ⟨_ | _, s'⟩ <;> rfl

theorem run_get (s : RunState τ) : (get : Act τ (RunState τ)).run.run s = (.ok s, s) := rfl

theorem Follows.mono {act : Act τ α} {plans more : α → List Action → Prop}
    (h : scenario.Follows act plans) (hmore : ∀ value plan, plans value plan → more value plan) :
    scenario.Follows act more := by
  intro s
  obtain ⟨value, plan, log, stop, s', hplan, hrest⟩ := h s
  exact ⟨value, plan, log, stop, s', hmore value plan hplan, hrest⟩

theorem follows_pure (value : α) :
    scenario.Follows (pure value : Act τ α) fun given plan ↦ given = value ∧ plan = [] :=
  fun s ↦ ⟨value, [], [], none, s, ⟨rfl, rfl⟩, .nil, .nil s, rfl⟩

theorem follows_get : scenario.Follows (get : Act τ (RunState τ)) fun _ plan ↦ plan = [] :=
  fun s ↦ ⟨s, [], [], none, s, rfl, .nil, .nil s, rfl⟩

/-- Two acts in a row follow what a plan of the first becomes by a plan of the second. -/
theorem Follows.bind {act : Act τ α} {f : α → Act τ β} {first : α → List Action → Prop}
    {plans : β → List Action → Prop} (h : scenario.Follows act first)
    (hf : ∀ value plan, first value plan →
      scenario.Follows (f value) fun last rest ↦ plans last (plan ++ rest)) :
    scenario.Follows (act >>= f) plans := by
  intro s
  obtain ⟨value, plan, log, stop, s', hplan, hperformed, hlogged, hrun⟩ := h s
  obtain ⟨last, rest, log', stop', s'', hrest, hperformed', hlogged', hrun'⟩ :=
    hf value plan hplan s'
  cases stop with
  | none =>
    refine ⟨last, plan ++ rest, log ++ log', stop', s'', hrest,
      hperformed.append hperformed', hlogged.append hlogged', ?_⟩
    rw [run_bind, hrun]
    exact hrun'
  | some stop =>
    -- The second act is not carried out; a plan that it would have followed completes the first.
    refine ⟨last, plan ++ rest, log, some stop, s', hrest, hperformed.append_cut, hlogged, ?_⟩
    rw [run_bind, hrun]
    rfl

/-- A rule for acts that carry out one action. -/
theorem follows_of_ends {act : Act τ α} {action : α → Action}
    (h : ∀ s, ∃ value log stop s', (action value).Ends log stop ∧ scenario.Logged s log s' ∧
      act.run.run s = (settled value s'.tracker stop, s')) :
    scenario.Follows act fun value plan ↦ plan = [action value] := by
  intro s
  obtain ⟨value, log, stop, s', hends, hlogged, hrun⟩ := h s
  exact ⟨value, [action value], log, stop, s', rfl, .single hends, hlogged, hrun⟩

theorem follows_enter (phase : Phase) :
    scenario.Follows (enter phase) fun _ plan ↦ plan = [.enter phase] := by
  apply follows_of_ends
  intro s
  exact ⟨(), [.enter phase], none, s.entering phase, .enter phase, .single rfl, rfl⟩

/-! ## Calls of bringup -/

theorem run_bringup (entry : Call) (answer : τ → Answer τ (Except (Stop BringupError) α))
    (s : RunState τ) :
    (bringup entry answer).run.run s =
      match s.stage.call entry (answer s.stage.field) with
      | (.error f, stage) => (.error (.fault f), { s with stage })
      | (.ok (.ok value), stage) => (.ok value, { s with stage })
      | (.ok (.error (.error cause)), stage) =>
        (.error (.error (s.tracker.abort (.bringup cause))), { s with stage })
      | (.ok (.error (.fault f)), stage) => (.error (.fault f), { s with stage }) := by
  unfold bringup
  rw [run_bind, run_get]
  dsimp only
  generalize s.stage.call entry (answer s.stage.field) = called
  rcases called with ⟨f | (_ | _) | value, stage⟩ <;> rfl

/-- A call of bringup follows the action that ends as its outcome says. -/
theorem follows_bringup [Nonempty α] {entry : Call}
    {answer : τ → Answer τ (Except (Stop BringupError) α)} {action : α → Action}
    {said : Except Fault (Except (Stop BringupError) α) → Event}
    (hends : ∀ {value outcome stop}, Action.Returns value outcome stop →
      (action value).Ends [said outcome] stop)
    (hstep : ∀ s : RunState τ, let called := s.stage.call entry (answer s.stage.field)
      scenario.Step s (said called.1) { s with stage := called.2 }) :
    scenario.Follows (bringup entry answer) fun value plan ↦ plan = [action value] := by
  apply follows_of_ends
  intro s
  have hrun := run_bringup entry answer s
  have hstep := hstep s
  generalize s.stage.call entry (answer s.stage.field) = called at hrun hstep
  let fallback : α := Classical.arbitrary α
  rcases called with ⟨f | (cause | f) | value, stage⟩
  · exact ⟨fallback, _, _, _, hends (.unanswered f), .single hstep, hrun⟩
  · exact ⟨fallback, _, _, _, hends (.failure cause), .single hstep, hrun⟩
  · exact ⟨fallback, _, _, _, hends (.fault f), .single hstep, hrun⟩
  · exact ⟨value, _, _, _, hends .value, .single hstep, hrun⟩

instance : Nonempty Node :=
  ⟨NodeHome.toNode ⟨0, .observer, ⟨""⟩, .v4 ⟨0, 0, 0, 0⟩ 0, .v4 ⟨0, 0, 0, 0⟩ 0, ""⟩⟩

variable (scenario)

theorem follows_init (layout : Layout) :
    scenario.Follows (bringup (.init layout) (scenario.site.init layout))
      fun homes plan ↦ plan = [.init layout homes] :=
  follows_bringup .init fun _ ↦ ⟨rfl, rfl⟩

theorem follows_seed (homes : List Path) :
    scenario.Follows (scenario.seed homes)
      fun _ plan ↦ plan = [.seed scenario.dataset homes] := by
  unfold seed
  cases scenario.dataset with
  | generate accounts =>
    exact follows_bringup .generated fun _ ↦ ⟨rfl, rfl⟩
  | snapshot source =>
    exact follows_bringup .copied fun _ ↦ ⟨rfl, rfl⟩
  | skip =>
    apply follows_of_ends
    intro s
    exact ⟨(), [], none, s, .unseeded, .nil s, rfl⟩

/-- A launch whose handle is used later. -/
theorem follows_launch (home : NodeHome) (boot : Option Node) :
    scenario.Follows (scenario.launch home boot)
      fun handle plan ↦ plan = [.launch home boot (some handle)] :=
  follows_bringup (fun h ↦ .launch h fun _ hhandle ↦ (Option.mem_some.mp hhandle).symm)
    fun _ ↦ ⟨rfl, rfl⟩

/-- A launch whose handle is dropped. -/
theorem follows_launch_dropped (home : NodeHome) (boot : Option Node) :
    scenario.Follows (scenario.launch home boot)
      fun _ plan ↦ plan = [.launch home boot none] :=
  follows_bringup (fun h ↦ .launch h fun _ hhandle ↦ by cases hhandle) fun _ ↦ ⟨rfl, rfl⟩

theorem follows_launchAll (leader : Node) (homes : List NodeHome) :
    scenario.Follows (scenario.launchAll leader homes)
      fun _ plan ↦ plan = homes.map fun home ↦ .launch home (some leader) none := by
  induction homes with
  | nil => exact (follows_pure ()).mono fun _ _ h ↦ h.2
  | cons home rest ih =>
    apply (scenario.follows_launch_dropped home (some leader)).bind
    rintro _ _ rfl
    exact ih.mono fun _ _ hrest ↦ congrArg _ hrest

/-- Joining is launching for observers. -/
theorem follows_join (leader : Node) {home : NodeHome} (h : home.role = .observer) :
    scenario.Follows (scenario.join leader home)
      fun handle plan ↦ plan = [.launch home (some leader) (some handle)] := by
  rw [join, if_pos h]
  exact scenario.follows_launch home (some leader)

theorem joinAll_eq_launchAll (leader : Node) {homes : List NodeHome}
    (h : ∀ home ∈ homes, home.role = .observer) :
    scenario.joinAll leader homes = scenario.launchAll leader homes := by
  induction homes with
  | nil => rfl
  | cons home rest ih =>
    have hrest := ih fun other hmem ↦ h other (List.mem_cons_of_mem _ hmem)
    rw [joinAll, launchAll, join, if_pos (h home List.mem_cons_self), hrest]

theorem follows_joinAll (leader : Node) {homes : List NodeHome}
    (h : ∀ home ∈ homes, home.role = .observer) :
    scenario.Follows (scenario.joinAll leader homes)
      fun _ plan ↦ plan = homes.map fun home ↦ .launch home (some leader) none := by
  rw [scenario.joinAll_eq_launchAll leader h]
  exact scenario.follows_launchAll leader homes

/-! ## Waits -/

/-- The wait that a run begins in a state. -/
def watching (deadline : Deadline) (node : Node) (target : WaitTarget) (s : RunState τ) :
    Wait τ Call where
  poller := scenario.site.poll
  entry := .poll
  deadline := deadline
  width := scenario.config.window
  node := node
  target := target
  started := s.stage.clock.now

theorem run_await (deadline : Deadline) (node : Node) (target : WaitTarget) (s : RunState τ) :
    (scenario.await deadline node target).run.run s =
      match (scenario.watching deadline node target s).run s.stage with
      | (.ok found, stage) => (.ok found, { s with stage })
      | (.error (.error cause), stage) =>
        (.error (.error (s.tracker.abort (.wait cause))), { s with stage })
      | (.error (.fault f), stage) => (.error (.fault f), { s with stage }) := by
  have hwait : waitForHeight scenario.site.poll Call.poll deadline scenario.config.window node
      target s.stage = (scenario.watching deadline node target s).run s.stage := rfl
  unfold await
  rw [run_bind, run_get]
  dsimp only
  rw [hwait]
  generalize (scenario.watching deadline node target s).run s.stage = waited
  rcases waited with ⟨(_ | _) | found, stage⟩ <;> rfl

/-- How a wait stops a run. -/
def stopOfWait : Wait.Outcome → Option (Stop AbortReason)
  | .ok _ => none
  | .error stop => some (stop.map .wait)

variable {scenario}

/-- The ticks of a wait leave the log of that wait. -/
theorem watches_ticks {wait : Wait τ Call} (hpoller : wait.poller = scenario.site.poll)
    (hentry : wait.entry = .poll)
    (hinterval : wait.target.pollInterval = scenario.config.pollInterval) (room : ℕ)
    (p : Progress) (s : RunState τ) :
    ∃ log, Action.Watches wait.node room log (stopOfWait (wait.ticks room p s.stage).1) ∧
      scenario.Logged s log { s with stage := (wait.ticks room p s.stage).2 } := by
  induction room generalizing p s with
  | zero =>
    rw [Wait.ticks]
    split_ifs
    · exact ⟨[], .late _, .nil s⟩
    · exact ⟨[], .exhausted, .nil s⟩
  | succ room ih =>
    rw [Wait.ticks]
    split_ifs
    · exact ⟨[], .late _, .nil s⟩
    have hpoll : scenario.Step s
        (.call (.poll wait.node)
          (s.stage.call (wait.entry wait.node) (wait.poller wait.node s.stage.field)).1)
        { s with
          stage := (s.stage.call (wait.entry wait.node) (wait.poller wait.node s.stage.field)).2 } := by
      rw [hentry, hpoller]
      exact ⟨rfl, rfl⟩
    generalize s.stage.call (wait.entry wait.node) (wait.poller wait.node s.stage.field) = called
      at hpoll
    rcases called with ⟨f | report, stage⟩
    · exact ⟨_, .unanswered f, .single hpoll⟩
    dsimp only
    cases (p.observe stage.clock.now report).verdict? wait.node.name wait.target wait.started
      stage.clock.now with
    | some verdict =>
      cases verdict with
      | ok found => exact ⟨_, .reached report, .single hpoll⟩
      | error cause => exact ⟨_, .slow report cause, .single hpoll⟩
    | none =>
      cases hslept : stage.clock.sleep wait.target.pollInterval with
      | error f =>
        have hsleep : stage.sleep scenario.config.pollInterval = (.error f, stage) := by
          rw [← hinterval, Stage.sleep, hslept]
        exact ⟨_, .sleepless report f, .cons hpoll (.single ⟨hsleep, rfl⟩)⟩
      | ok clock =>
        have hsleep : stage.sleep scenario.config.pollInterval =
            (.ok (), { stage with clock }) := by
          rw [← hinterval, Stage.sleep, hslept]
        let after : RunState τ := { s with stage := { stage with clock } }
        have hsleep : scenario.Step { s with stage } (.sleep (.ok ())) after := ⟨hsleep, rfl⟩
        obtain ⟨log, hwatches, hlogged⟩ := ih (p.observe stage.clock.now report) after
        exact ⟨_, .tick report hwatches, .cons hpoll (.cons hsleep hlogged)⟩

theorem watches_run (deadline : Deadline) (node : Node) {target : WaitTarget}
    (htarget : target.pollInterval = scenario.config.pollInterval) (s : RunState τ) :
    let ended := (scenario.watching deadline node target s).run s.stage
    ∃ log, Action.Watches node Wait.maxPolls log (stopOfWait ended.1) ∧
      scenario.Logged s log { s with stage := ended.2 } := by
  let wait := scenario.watching deadline node target s
  have hticks := @watches_ticks τ scenario wait rfl rfl htarget Wait.maxPolls
  exact hticks _ s

theorem follows_await (deadline : Deadline) (node : Node) {target : WaitTarget}
    (htarget : target.pollInterval = scenario.config.pollInterval) :
    scenario.Follows (scenario.await deadline node target) fun _ plan ↦ plan = [.watch node] := by
  apply follows_of_ends
  intro s
  obtain ⟨log, hwatches, hlogged⟩ := watches_run deadline node htarget s
  have hrun := scenario.run_await deadline node target s
  generalize (scenario.watching deadline node target s).run s.stage = ended
    at hwatches hlogged hrun
  let fallback : WaitOutcome := ⟨node.name, 0, 0, 0, .zero, .zero⟩
  rcases ended with ⟨(cause | f) | found, stage⟩
  · exact ⟨fallback, log, _, _, .watch hwatches, hlogged, hrun⟩
  · exact ⟨fallback, log, _, _, .watch hwatches, hlogged, hrun⟩
  · exact ⟨found, log, _, _, .watch hwatches, hlogged, hrun⟩

end Scenario

end BlockWatch
