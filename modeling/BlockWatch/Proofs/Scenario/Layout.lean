import BlockWatch.Proofs.Cluster.Overrides
import BlockWatch.Scenario.Cast

/-!
# The layout of a scenario

The layout of a scenario in a closed form: its own topology, the chain overrides, and one setting for
each observer. An accepted configuration whose nodes can be counted has a layout that is accepted as
well, and homes with the roles of that layout can be given their parts. An accepted configuration
can also have more nodes than a word counts; then it has no layout.
-/

namespace BlockWatch

/-! ## Overrides in ascending order -/

namespace Layout

theorem modifyAt_of_lt {ordinal : ℕ} {entries : List (ℕ × Json.Members)}
    (h : ∀ entry ∈ entries, entry.1 < ordinal) (f : Json.Members → Json.Members) :
    modifyAt ordinal f entries = entries ++ [(ordinal, f [])] := by
  induction entries with
  | nil => rfl
  | cons first rest ih =>
    obtain ⟨hfirst, hrest⟩ := List.forall_mem_cons.mp h
    rw [modifyAt, if_neg hfirst.ne, if_neg hfirst.not_gt, ih hrest, List.cons_append]

/-- Overrides of nodes that come later are put behind those that are there. -/
theorem foldl_withNodeOverride (key : String) (value : Json.Value) (count first : ℕ)
    (layout : Layout) (h : ∀ entry ∈ layout.nodeOverrides, entry.1 < first) :
    (List.range' first count).foldl
        (fun layout ordinal ↦ layout.withNodeOverride ordinal key value) layout =
      { layout with
        nodeOverrides := layout.nodeOverrides ++
          (List.range' first count).map fun ordinal ↦ (ordinal, [(key, value)]) } := by
  induction count generalizing first layout with
  | zero => simp
  | succ count ih =>
    have hone : layout.withNodeOverride first key value =
        { layout with nodeOverrides := layout.nodeOverrides ++ [(first, [(key, value)])] } := by
      rw [withNodeOverride, modifyAt_of_lt h]
      rfl
    have hlater : ∀ entry ∈ layout.nodeOverrides ++ [(first, [(key, value)])],
        entry.1 < first + 1 := by
      simp only [List.forall_mem_append, List.forall_mem_singleton]
      exact ⟨fun entry hentry ↦ (h entry hentry).trans (Nat.lt_succ_self first),
        Nat.lt_succ_self first⟩
    rw [List.range'_succ, List.foldl_cons, hone, ih _ _ hlater]
    simp

end Layout

/-! ## Casts of homes -/

theorem count_role (homes : List NodeHome) (role : Role) :
    (homes.map (·.role)).count role = homes.countP (·.role = role) := by
  rw [List.count_eq_countP, List.countP_map]
  apply List.countP_congr
  simp

theorem Cast.isSome_ofHomes?_iff {homes : List NodeHome} :
    (ofHomes? homes).isSome = true ↔
      1 ≤ (homes.map (·.role)).count .validator ∧ 2 ≤ (homes.map (·.role)).count .observer := by
  rw [count_role, count_role, List.countP_eq_length_filter, List.countP_eq_length_filter, ofHomes?]
  cases homes.filter (·.role = .validator) with
  | nil => simp
  | cons leader validators =>
    rcases (homes.filter (·.role = .observer)).eq_nil_or_concat' with hnone | ⟨early, late, hsome⟩
    · simp [hnone]
    · rw [hsome]
      cases early with
      | nil => simp
      | cons first rest =>
        simp only [List.getLast?_concat, List.dropLast_concat]
        simp

/-! ## Layouts of configurations -/

/-- What every observer is set to. -/
def observerSettings : Json.Members := [("tracked_shards", .array [.ofWord 0])]

theorem scenarioLayout_eq (config : ScenarioConfig) : scenarioLayout config =
    config.topology.nodeCount.map fun _ ↦
      { topology := config.topology
        chainOverrides := scenarioChainOverrides
        nodeOverrides := (List.range' config.topology.validators.toNat
          config.topology.observers.toNat).map fun ordinal ↦ (ordinal, observerSettings) } := by
  have hchain : scenarioChainOverrides.foldl
      (fun layout change ↦ layout.withChainOverride change.1 change.2)
        ({ topology := config.topology } : Layout) =
      { topology := config.topology, chainOverrides := scenarioChainOverrides } := rfl
  have hfold := Layout.foldl_withNodeOverride "tracked_shards" (.array [.ofWord 0])
    config.topology.observers.toNat config.topology.validators.toNat
    { topology := config.topology, chainOverrides := scenarioChainOverrides } (by simp)
  cases hnodes : config.topology.nodeCount with
  | error f =>
    rw [scenarioLayout, hnodes]
    rfl
  | ok nodes =>
    rw [scenarioLayout, hnodes, hchain]
    exact congrArg Except.ok hfold

theorem scenarioLayout_eq_ok {config : ScenarioConfig} {layout : Layout}
    (h : scenarioLayout config = .ok layout) :
    layout.topology = config.topology ∧ layout.chainOverrides = scenarioChainOverrides ∧
      layout.nodeOverrides = (List.range' config.topology.validators.toNat
        config.topology.observers.toNat).map (fun ordinal ↦ (ordinal, observerSettings)) ∧
      layout.nodeCount =
        .ok (config.topology.validators.toNat + config.topology.observers.toNat) := by
  rw [scenarioLayout_eq] at h
  cases hnodes : config.topology.nodeCount with
  | error f =>
    rw [hnodes] at h
    cases h
  | ok nodes =>
    rw [hnodes] at h
    obtain rfl := Except.ok.inj h
    obtain ⟨rfl, -⟩ := Topology.nodeCount_eq_ok_iff.mp hnodes
    exact ⟨rfl, rfl, rfl, hnodes⟩

/-- A layout on which a scenario can run: the nodes can be counted, the validators come first, every
observer and no other node has the settings of observers, and homes with the roles of the nodes can
be given their parts. -/
structure Layout.Realizes (layout : Layout) (topology : Topology) : Prop where
  accepted : layout.validate = .ok ()
  nodeCount : layout.nodeCount = .ok (topology.validators.toNat + topology.observers.toNat)
  roles : (List.range (topology.validators.toNat + topology.observers.toNat)).map layout.roleOf =
    List.replicate topology.validators.toNat .validator ++
      List.replicate topology.observers.toNat .observer
  settings : layout.nodeOverrides = (List.range' topology.validators.toNat
    topology.observers.toNat).map fun ordinal ↦ (ordinal, observerSettings)
  cast : ∀ homes : List NodeHome, (homes.map (·.role)).Perm
    ((List.range (topology.validators.toNat + topology.observers.toNat)).map layout.roleOf) →
      (Cast.ofHomes? homes).isSome = true

theorem ScenarioConfig.flaw?_of_validate {config : ScenarioConfig} (h : config.validate = .ok ()) :
    config.flaw? = none := by
  rw [validate] at h
  cases hflaw : config.flaw? with
  | none => rfl
  | some flaw =>
    rw [hflaw] at h
    cases h

/-- What an accepted configuration says of its topology. -/
theorem ScenarioConfig.topology_of_validate {config : ScenarioConfig}
    (h : config.validate = .ok ()) : config.topology.validators ≠ 0 ∧
      ¬config.topology.observers < 2 ∧ config.topology.shards ≠ 0 := by
  have hflaw := flaw?_of_validate h
  rw [flaw?] at hflaw
  split_ifs at hflaw with hvalidators hobservers hshards
  exact ⟨hvalidators, hobservers, hshards⟩

theorem realizes_scenarioLayout {config : ScenarioConfig} {layout : Layout}
    (h : config.validate = .ok ()) (hlayout : scenarioLayout config = .ok layout) :
    layout.Realizes config.topology := by
  obtain ⟨hvalidators, hobservers, hshards⟩ := ScenarioConfig.topology_of_validate h
  obtain ⟨htopology, -, hsettings, hnodes⟩ := scenarioLayout_eq_ok hlayout
  have hroles := layout.map_roleOf_range
  rw [htopology] at hroles
  refine ⟨?_, hnodes, hroles, hsettings, fun homes hhomes ↦ ?_⟩
  · apply (Layout.validate_eq_ok_iff hnodes).mpr
    refine ⟨htopology ▸ hvalidators, htopology ▸ hshards, ?_⟩
    rw [hsettings]
    simp only [List.forall_mem_map, List.mem_range'_1]
    exact fun ordinal hordinal ↦ hordinal.2
  · have hone : 1 ≤ config.topology.validators.toNat :=
      Nat.one_le_iff_ne_zero.mpr fun hzero ↦ hvalidators (UInt64.toNat_inj.mp hzero)
    have htwo : 2 ≤ config.topology.observers.toNat :=
      Nat.le_of_not_lt fun hfew ↦ hobservers (UInt64.lt_iff_toNat_lt.mpr hfew)
    rw [Cast.isSome_ofHomes?_iff, hhomes.count_eq, hhomes.count_eq, hroles]
    simpa [List.count_replicate] using ⟨hone, htwo⟩

/-- An accepted configuration has a layout on which its scenario can run, as long as its nodes can be
counted; otherwise counting them is a fault. -/
theorem scenarioLayout_of_validate {config : ScenarioConfig} (h : config.validate = .ok ()) :
    let nodes := config.topology.validators.toNat + config.topology.observers.toNat
    (nodes < UInt64.size →
      ∃ layout, scenarioLayout config = .ok layout ∧ layout.Realizes config.topology) ∧
    (UInt64.size ≤ nodes → scenarioLayout config = .error .sum) := by
  intro nodes
  constructor
  · intro hfits
    have hnodes : config.topology.nodeCount = .ok nodes := if_pos hfits
    have hlayout := scenarioLayout_eq config
    rw [hnodes] at hlayout
    exact ⟨_, hlayout, realizes_scenarioLayout h hlayout⟩
  · intro hlarge
    have hnodes : config.topology.nodeCount = .error .sum := if_neg (Nat.not_lt.mpr hlarge)
    rw [scenarioLayout_eq, hnodes]
    rfl

/-- Five validators and three observers have a layout. -/
theorem scenarioLayout_of_eight_nodes :
    let config : ScenarioConfig := { topology := { validators := 5, observers := 3, shards := 2 } }
    config.validate = .ok () ∧ ∃ layout, scenarioLayout config = .ok layout ∧
      layout.nodeOverrides = [(5, observerSettings), (6, observerSettings), (7, observerSettings)] ∧
      layout.Realizes config.topology := by
  intro config
  have haccepted : config.validate = .ok () := by decide +kernel
  obtain ⟨layout, hlayout, hrealizes⟩ :=
    (scenarioLayout_of_validate haccepted).1 (by decide)
  exact ⟨haccepted, layout, hlayout, hrealizes.settings, hrealizes⟩

/-- An accepted configuration whose nodes cannot be counted. -/
theorem scenarioLayout_eq_error_of_uncountable :
    let config : ScenarioConfig := { topology := { validators := 18446744073709551614 } }
    config.validate = .ok () ∧ scenarioLayout config = .error .sum := by
  intro config
  exact ⟨by decide +kernel, rfl⟩

end BlockWatch
