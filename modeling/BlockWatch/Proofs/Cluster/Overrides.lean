import BlockWatch.Proofs.Cluster.LayingOut
import Mathlib.Data.List.Sort
import Mathlib.Order.Bounds.Basic

/-!
# Overrides of a layout

A layout is made by overriding one setting after the other. Those of the chain are all kept, in the
order in which they were given. Of those of single nodes the last one for a node and a key counts,
so settings at different places can be given in any order. The nodes that have settings are then
compared with the number of nodes: the layout is accepted if none is beyond it, and otherwise the
least one is named.
-/

namespace BlockWatch

/-! ## Lists -/

/-- Neighbours of which one is dropped can change places. -/
theorem filterMap_swap {α β : Type} {f : α → Option β} {first second : α}
    (h : f first = none ∨ f second = none) (before after : List α) :
    (before ++ first :: second :: after).filterMap f =
      (before ++ second :: first :: after).filterMap f := by
  rcases h with h | h <;> simp [List.filterMap_cons, h]

/-- A list whose keys ascend is told by its members. -/
theorem eq_of_ascending {α β : Type} [LinearOrder α] {entries others : List (α × β)}
    (h : entries.Pairwise (·.1 < ·.1)) (hothers : others.Pairwise (·.1 < ·.1))
    (hmem : ∀ entry, entry ∈ entries ↔ entry ∈ others) : entries = others := by
  have hantisymm : Std.Antisymm fun a b : α × β ↦ a.1 < b.1 :=
    ⟨fun _ _ hlt hgt ↦ absurd hlt hgt.not_gt⟩
  have hirrefl : Std.Irrefl fun a b : α × β ↦ a.1 < b.1 := ⟨fun a ↦ lt_irrefl a.1⟩
  exact h.eq_of_mem_iff hothers hmem

/-- If the keys ascend, the first entry with a property has the least key of all that have it. -/
theorem le_of_find?_ascending {α β : Type} [LinearOrder α] {entries : List (α × β)}
    (h : entries.Pairwise (·.1 < ·.1)) {p : α × β → Bool} {found : α × β}
    (hfound : entries.find? p = some found) {entry : α × β} (hentry : entry ∈ entries)
    (hp : p entry = true) : found.1 ≤ entry.1 := by
  obtain ⟨-, before, after, rfl, hbefore⟩ := List.find?_eq_some_iff_append.mp hfound
  obtain ⟨-, hlater, -⟩ := List.pairwise_append.mp h
  rcases List.mem_append.mp hentry with hentry | hentry
  · have hnot := hbefore entry hentry
    rw [hp] at hnot
    cases hnot
  · rcases List.mem_cons.mp hentry with rfl | hentry
    · exact le_rfl
    · exact ((List.pairwise_cons.mp hlater).1 entry hentry).le

namespace Json.Members

variable {members others : Members}

theorem find?_eq_some_iff (h : members.Pairwise (·.1 < ·.1)) {key : String} {value : Value} :
    members.find? key = some value ↔ (key, value) ∈ members := by
  refine ⟨mem_of_find?_eq_some, fun hmem ↦ ?_⟩
  induction members with
  | nil => exact absurd hmem List.not_mem_nil
  | cons first rest ih =>
    obtain ⟨hfirst, hrest⟩ := List.pairwise_cons.mp h
    rcases List.mem_cons.mp hmem with rfl | hmem
    · rw [find?, if_pos rfl]
    · rw [find?, if_neg (hfirst _ hmem).ne, ih hrest hmem]

/-- Members in the order of their keys are told by what is found at each key. -/
theorem eq_of_find?_eq (h : members.Pairwise (·.1 < ·.1)) (hothers : others.Pairwise (·.1 < ·.1))
    (hfind : ∀ key, members.find? key = others.find? key) : members = others := by
  apply eq_of_ascending h hothers
  rintro ⟨key, value⟩
  rw [← find?_eq_some_iff h, ← find?_eq_some_iff hothers, hfind key]

theorem insert_ne_nil (key : String) (value : Value) : members.insert key value ≠ [] := by
  intro h
  have hfind := find?_insert_self key value members
  rw [h] at hfind
  cases hfind

end Json.Members

/-! ## Settings of single nodes -/

attribute [ext] Layout

namespace Layout

/-- The value of a setting of a node. -/
def setting? (layout : Layout) (ordinal : ℕ) (key : String) : Option Json.Value :=
  (layout.overridesOf ordinal).find? key

/-- The settings of single nodes are in order: the ordinals ascend, the keys of each ascend, and no
node is listed without a setting. -/
structure Tabular (layout : Layout) : Prop where
  nodes : layout.nodeOverrides.Pairwise (·.1 < ·.1)
  keys : ∀ entry ∈ layout.nodeOverrides, entry.2.Pairwise (·.1 < ·.1)
  nonempty : ∀ entry ∈ layout.nodeOverrides, entry.2 ≠ []

section

variable {layout : Layout}

theorem find?_modifyAt {entries : List (ℕ × Json.Members)} (h : entries.Pairwise (·.1 < ·.1))
    (ordinal : ℕ) (f : Json.Members → Json.Members) :
    (modifyAt ordinal f entries).find? (·.1 == ordinal) =
      some (ordinal, f (((entries.find? (·.1 == ordinal)).map (·.2)).getD [])) := by
  induction entries with
  | nil => simp [modifyAt]
  | cons first rest ih =>
    obtain ⟨hfirst, hrest⟩ := List.pairwise_cons.mp h
    rw [modifyAt]
    split_ifs with hsame hbefore
    · simp [hsame]
    · -- No later entry is for the ordinal, as the ordinals ascend.
      have hnone : rest.find? (·.1 == ordinal) = none := by
        simpa using fun o members hmem ↦ (hbefore.trans (hfirst (o, members) hmem)).ne'
      simp [hsame, hnone]
    · simp only [List.find?_cons, beq_false_of_ne hsame, ih hrest]

theorem find?_modifyAt_of_ne {ordinal other : ℕ} (h : other ≠ ordinal)
    (f : Json.Members → Json.Members) (entries : List (ℕ × Json.Members)) :
    (modifyAt ordinal f entries).find? (·.1 == other) = entries.find? (·.1 == other) := by
  induction entries with
  | nil => simp [modifyAt, h.symm]
  | cons first rest ih =>
    rw [modifyAt]
    split_ifs with hsame hbefore
    · simp [hsame, h.symm]
    · simp [h.symm]
    · simp only [List.find?_cons, ih]

theorem overridesOf_withNodeOverride (h : layout.nodeOverrides.Pairwise (·.1 < ·.1))
    (ordinal : ℕ) (key : String) (value : Json.Value) :
    (layout.withNodeOverride ordinal key value).overridesOf ordinal =
      (layout.overridesOf ordinal).insert key value := by
  rw [overridesOf, withNodeOverride, find?_modifyAt h]
  rfl

theorem overridesOf_withNodeOverride_of_ne {ordinal other : ℕ} (h : other ≠ ordinal)
    (key : String) (value : Json.Value) :
    (layout.withNodeOverride ordinal key value).overridesOf other = layout.overridesOf other := by
  rw [overridesOf, withNodeOverride, find?_modifyAt_of_ne h]
  rfl

theorem Tabular.overridesOf_eq (h : layout.Tabular) {entry : ℕ × Json.Members}
    (hentry : entry ∈ layout.nodeOverrides) : layout.overridesOf entry.1 = entry.2 := by
  have hnodup : (layout.nodeOverrides.map (·.1)).Nodup :=
    List.pairwise_map.mpr (h.nodes.imp ne_of_lt)
  rw [overridesOf]
  cases hfind : layout.nodeOverrides.find? (·.1 == entry.1) with
  | none => simpa using List.find?_eq_none.mp hfind entry hentry
  | some found =>
    have hsame : found.1 = entry.1 := by simpa using List.find?_some hfind
    have hfound := List.inj_on_of_nodup_map hnodup (List.mem_of_find?_eq_some hfind) hentry hsame
    rw [hfound]
    rfl

/-- A node for which there are settings is listed with them. -/
theorem mem_of_overridesOf_ne_nil {ordinal : ℕ} (h : layout.overridesOf ordinal ≠ []) :
    (ordinal, layout.overridesOf ordinal) ∈ layout.nodeOverrides := by
  rw [overridesOf] at h ⊢
  cases hfind : layout.nodeOverrides.find? (·.1 == ordinal) with
  | none => simp [hfind] at h
  | some entry =>
    have hsame : entry.1 = ordinal := by simpa using List.find?_some hfind
    subst hsame
    exact List.mem_of_find?_eq_some hfind

theorem Tabular.setting?_eq_some_iff (h : layout.Tabular) {ordinal : ℕ} {key : String}
    {value : Json.Value} : layout.setting? ordinal key = some value ↔
      ∃ members, (ordinal, members) ∈ layout.nodeOverrides ∧ (key, value) ∈ members := by
  constructor
  · intro hsetting
    have hmem := Json.Members.mem_of_find?_eq_some hsetting
    exact ⟨_, mem_of_overridesOf_ne_nil (List.ne_nil_of_mem hmem), hmem⟩
  · rintro ⟨members, hmembers, hmem⟩
    rw [setting?, h.overridesOf_eq hmembers]
    exact (Json.Members.find?_eq_some_iff (h.keys _ hmembers)).mpr hmem

/-- The nodes that are listed are those that have a setting. -/
theorem Tabular.exists_setting?_iff (h : layout.Tabular) {ordinal : ℕ} :
    (∃ key value, layout.setting? ordinal key = some value) ↔
      ∃ members, (ordinal, members) ∈ layout.nodeOverrides := by
  simp only [h.setting?_eq_some_iff]
  constructor
  · rintro ⟨-, -, members, hmembers, -⟩
    exact ⟨members, hmembers⟩
  · rintro ⟨members, hmembers⟩
    obtain ⟨⟨key, value⟩, hmem⟩ := List.exists_mem_of_ne_nil members (h.nonempty _ hmembers)
    exact ⟨key, value, members, hmembers, hmem⟩

theorem Tabular.pairwise_overridesOf (h : layout.Tabular) (ordinal : ℕ) :
    (layout.overridesOf ordinal).Pairwise (·.1 < ·.1) := by
  by_cases hnil : layout.overridesOf ordinal = []
  · rw [hnil]
    exact .nil
  · exact h.keys _ (mem_of_overridesOf_ne_nil hnil)

theorem Tabular.mem_iff (h : layout.Tabular) {entry : ℕ × Json.Members} :
    entry ∈ layout.nodeOverrides ↔ layout.overridesOf entry.1 = entry.2 ∧ entry.2 ≠ [] := by
  refine ⟨fun hentry ↦ ⟨h.overridesOf_eq hentry, h.nonempty entry hentry⟩, fun ⟨heq, hne⟩ ↦ ?_⟩
  rw [← heq] at hne
  have hmem := mem_of_overridesOf_ne_nil hne
  rwa [heq] at hmem

/-- Settings in order are told by the value at each place. -/
theorem Tabular.nodeOverrides_eq (h : layout.Tabular) {other : Layout} (hother : other.Tabular)
    (hsettings : ∀ ordinal key, layout.setting? ordinal key = other.setting? ordinal key) :
    layout.nodeOverrides = other.nodeOverrides := by
  have hoverrides (ordinal : ℕ) : layout.overridesOf ordinal = other.overridesOf ordinal :=
    Json.Members.eq_of_find?_eq (h.pairwise_overridesOf ordinal)
      (hother.pairwise_overridesOf ordinal) (hsettings ordinal)
  apply eq_of_ascending h.nodes hother.nodes
  intro entry
  rw [h.mem_iff, hother.mem_iff, hoverrides]

theorem tabular_ofTopology (topology : Topology) : Tabular { topology } :=
  ⟨.nil, fun _ h ↦ absurd h List.not_mem_nil, fun _ h ↦ absurd h List.not_mem_nil⟩

theorem Tabular.withChainOverride (h : layout.Tabular) (path : String) (value : Json.Value) :
    (layout.withChainOverride path value).Tabular :=
  ⟨h.nodes, h.keys, h.nonempty⟩

theorem Tabular.withNodeOverride (h : layout.Tabular) (ordinal : ℕ) (key : String)
    (value : Json.Value) : (layout.withNodeOverride ordinal key value).Tabular where
  nodes := pairwise_modifyAt h.nodes
  keys := by
    intro entry hentry
    rcases mem_modifyAt hentry with hentry | rfl | ⟨members, hmembers, rfl⟩
    · exact h.keys entry hentry
    · exact Json.Members.pairwise_insert .nil
    · exact Json.Members.pairwise_insert (h.keys _ hmembers)
  nonempty := by
    intro entry hentry
    rcases mem_modifyAt hentry with hentry | rfl | ⟨members, -, rfl⟩
    · exact h.nonempty entry hentry
    · exact Json.Members.insert_ne_nil key value
    · exact Json.Members.insert_ne_nil key value

end

end Layout

/-! ## Overrides in a row -/

/-- A setting of the chain or of a single node. -/
inductive Override
  | chain (path : String) (value : Json.Value)
  | node (ordinal : ℕ) (key : String) (value : Json.Value)

namespace Override

/-- The node and the key of a setting. Those of the chain have none. -/
def place? : Override → Option (ℕ × String)
  | chain .. => none
  | node ordinal key _ => some (ordinal, key)

/-- The change of the chain that a setting asks for. -/
def chain? : Override → Option (String × Json.Value)
  | chain path value => some (path, value)
  | node .. => none

/-- The value, if it is for a node and a key. -/
def valueAt? (ordinal : ℕ) (key : String) : Override → Option Json.Value
  | chain .. => none
  | node o k value => if (o, k) = (ordinal, key) then some value else none

/-- The last value for a node and a key. -/
def last? (overrides : List Override) (ordinal : ℕ) (key : String) : Option Json.Value :=
  (overrides.filterMap (valueAt? ordinal key)).getLast?

variable {ordinal : ℕ} {key : String}

theorem valueAt?_eq_some_iff {override : Override} {value : Json.Value} :
    override.valueAt? ordinal key = some value ↔ override = .node ordinal key value := by
  cases override with
  | chain path given => simp [valueAt?]
  | node o k given =>
    simp only [valueAt?, Option.ite_none_right_eq_some, Prod.mk.injEq, node.injEq,
      Option.some.injEq]
    tauto

theorem last?_cons (first : Override) (rest : List Override) :
    last? (first :: rest) ordinal key =
      (last? rest ordinal key).or (first.valueAt? ordinal key) := by
  cases hfirst : first.valueAt? ordinal key with
  | none => simp [last?, hfirst]
  | some value =>
    rw [last?, last?, List.filterMap_cons_some hfirst, List.getLast?_cons]
    cases (rest.filterMap (valueAt? ordinal key)).getLast? <;> rfl

/-- Some setting of a node has a last value as soon as the node was given any. -/
theorem exists_last?_iff {overrides : List Override} :
    (∃ key value, last? overrides ordinal key = some value) ↔
      ∃ key value, .node ordinal key value ∈ overrides := by
  constructor
  · rintro ⟨key, value, hlast⟩
    obtain ⟨override, hmem, hvalue⟩ := List.mem_filterMap.mp (List.mem_of_getLast? hlast)
    exact ⟨key, value, valueAt?_eq_some_iff.mp hvalue ▸ hmem⟩
  · rintro ⟨key, value, hmem⟩
    have hvalue : value ∈ overrides.filterMap (valueAt? ordinal key) :=
      List.mem_filterMap.mpr ⟨_, hmem, valueAt?_eq_some_iff.mpr rfl⟩
    exact ⟨key, _, List.getLast?_eq_some_getLast (List.ne_nil_of_mem hvalue)⟩

/-! ### Settings at different places -/

variable {first second : Override} (h : first.place? ≠ second.place?)
include h

theorem chain?_eq_none_or : first.chain? = none ∨ second.chain? = none := by
  cases first with
  | node => exact .inl rfl
  | chain =>
    cases second with
    | node => exact .inr rfl
    | chain => exact absurd rfl h

theorem valueAt?_eq_none_or (ordinal : ℕ) (key : String) :
    first.valueAt? ordinal key = none ∨ second.valueAt? ordinal key = none := by
  cases hfirst : first.valueAt? ordinal key with
  | none => exact .inl rfl
  | some value =>
    cases hsecond : second.valueAt? ordinal key with
    | none => exact .inr rfl
    | some other =>
      rw [valueAt?_eq_some_iff.mp hfirst, valueAt?_eq_some_iff.mp hsecond] at h
      exact absurd rfl h

end Override

namespace Layout

/-- A layout with one more setting. -/
def override (layout : Layout) : Override → Layout
  | .chain path value => layout.withChainOverride path value
  | .node ordinal key value => layout.withNodeOverride ordinal key value

/-- A layout with more settings, given one after the other. -/
def overrideAll (layout : Layout) (overrides : List Override) : Layout :=
  overrides.foldl override layout

variable {layout : Layout}

theorem topology_overrideAll (layout : Layout) (overrides : List Override) :
    (layout.overrideAll overrides).topology = layout.topology := by
  induction overrides generalizing layout with
  | nil => rfl
  | cons first rest ih =>
    rw [overrideAll, List.foldl_cons]
    exact (ih _).trans (by cases first <;> rfl)

theorem chainOverrides_overrideAll (layout : Layout) (overrides : List Override) :
    (layout.overrideAll overrides).chainOverrides =
      layout.chainOverrides ++ overrides.filterMap Override.chain? := by
  induction overrides generalizing layout with
  | nil => exact (List.append_nil _).symm
  | cons first rest ih =>
    rw [overrideAll, List.foldl_cons]
    apply (ih _).trans
    cases first with
    | node => rfl
    | chain path value => exact List.append_assoc ..

theorem Tabular.override (h : layout.Tabular) (override : Override) :
    (layout.override override).Tabular := by
  cases override with
  | chain path value => exact h.withChainOverride path value
  | node ordinal key value => exact h.withNodeOverride ordinal key value

theorem Tabular.overrideAll (h : layout.Tabular) (overrides : List Override) :
    (layout.overrideAll overrides).Tabular := by
  induction overrides generalizing layout with
  | nil => exact h
  | cons first rest ih => exact ih (h.override first)

/-- A setting is replaced by one for the same node and key, and by no other. -/
theorem Tabular.setting?_override (h : layout.Tabular) (override : Override) (ordinal : ℕ)
    (key : String) : (layout.override override).setting? ordinal key =
      (override.valueAt? ordinal key).or (layout.setting? ordinal key) := by
  cases override with
  | chain path value => rfl
  | node o k value =>
    by_cases hordinal : o = ordinal
    · subst hordinal
      rw [setting?, Layout.override, overridesOf_withNodeOverride h.nodes]
      by_cases hkey : k = key
      · simp [hkey, Override.valueAt?]
      · rw [Json.Members.find?_insert_of_ne (Ne.symm hkey)]
        simp [hkey, Override.valueAt?, setting?]
    · rw [setting?, Layout.override, overridesOf_withNodeOverride_of_ne (Ne.symm hordinal)]
      simp [hordinal, Override.valueAt?, setting?]

theorem Tabular.setting?_overrideAll (h : layout.Tabular) (overrides : List Override)
    (ordinal : ℕ) (key : String) : (layout.overrideAll overrides).setting? ordinal key =
      (Override.last? overrides ordinal key).or (layout.setting? ordinal key) := by
  induction overrides generalizing layout with
  | nil => rfl
  | cons first rest ih =>
    rw [Override.last?_cons, Option.or_assoc, ← h.setting?_override]
    exact ih (h.override first)

/-- The settings of single nodes are those of a table, in order, and there are no others. -/
structure Tabulates (layout : Layout) (table : ℕ → String → Option Json.Value) : Prop
    extends layout.Tabular where
  setting?_eq : ∀ ordinal key, layout.setting? ordinal key = table ordinal key
  mem_iff_eq_some : ∀ ordinal key value,
    (∃ members, (ordinal, members) ∈ layout.nodeOverrides ∧ (key, value) ∈ members) ↔
      table ordinal key = some value

theorem tabulates_overrideAll (topology : Topology) (overrides : List Override) :
    (overrideAll { topology } overrides).Tabulates (Override.last? overrides) := by
  have hfresh := tabular_ofTopology topology
  have htabular := hfresh.overrideAll overrides
  have hsetting (ordinal : ℕ) (key : String) :
      (overrideAll { topology } overrides).setting? ordinal key =
        Override.last? overrides ordinal key := by
    rw [hfresh.setting?_overrideAll]
    exact Option.or_none
  refine ⟨htabular, hsetting, fun ordinal key value ↦ ?_⟩
  rw [← hsetting, htabular.setting?_eq_some_iff]

/-- From a topology on, settings that leave the same in every place give the same layout. -/
theorem overrideAll_eq {topology : Topology} {overrides others : List Override}
    (hchain : overrides.filterMap Override.chain? = others.filterMap Override.chain?)
    (hlast : ∀ ordinal key,
      Override.last? overrides ordinal key = Override.last? others ordinal key) :
    overrideAll { topology } overrides = overrideAll { topology } others := by
  have htable := tabulates_overrideAll topology overrides
  have hother := tabulates_overrideAll topology others
  have hnodes := htable.nodeOverrides_eq hother.toTabular fun ordinal key ↦ by
    rw [htable.setting?_eq, hother.setting?_eq, hlast]
  have hchains : (overrideAll { topology } overrides).chainOverrides =
      (overrideAll { topology } others).chainOverrides := by
    rw [chainOverrides_overrideAll, chainOverrides_overrideAll, hchain]
  have htopology : (overrideAll { topology } overrides).topology =
      (overrideAll { topology } others).topology := by
    rw [topology_overrideAll, topology_overrideAll]
  exact Layout.ext htopology hchains hnodes

/-- Settings at different places can change places. -/
theorem overrideAll_swap {topology : Topology} {first second : Override}
    (h : first.place? ≠ second.place?) (before after : List Override) :
    overrideAll { topology } (before ++ first :: second :: after) =
      overrideAll { topology } (before ++ second :: first :: after) := by
  apply overrideAll_eq
  · exact filterMap_swap (Override.chain?_eq_none_or h) before after
  · intro ordinal key
    rw [Override.last?, filterMap_swap (Override.valueAt?_eq_none_or h ordinal key)]
    rfl

/-! ## Accepted layouts -/

section

variable {nodes : ℕ} (hnodes : layout.nodeCount = .ok nodes)
include hnodes

theorem flaw?_eq : layout.flaw? = .ok (
    if layout.topology.validators = 0 then some .noValidator
    else if layout.topology.shards = 0 then some .noShard
    else (layout.nodeOverrides.find? (nodes ≤ ·.1)).map fun entry ↦
      .strayOverride entry.1 nodes) := by
  rw [flaw?, hnodes]
  split_ifs with hvalidators hshards hempty
  · rfl
  · rfl
  · rw [List.isEmpty_iff.mp hempty]
    rfl
  · simp only [bind, Except.bind, pure, Except.pure]
    cases layout.nodeOverrides.find? (nodes ≤ ·.1) <;> rfl

theorem validate_eq_ok_iff : layout.validate = .ok () ↔
    layout.topology.validators ≠ 0 ∧ layout.topology.shards ≠ 0 ∧
      ∀ entry ∈ layout.nodeOverrides, entry.1 < nodes := by
  have hflaw : layout.validate = .ok () ↔ layout.flaw? = .ok none := by
    rw [validate]
    rcases layout.flaw? with f | _ | flaw <;> simp
  rw [hflaw, flaw?_eq hnodes, Except.ok.injEq]
  split_ifs with hvalidators hshards
  · simp [hvalidators]
  · simp [hshards]
  · simp [hvalidators, hshards]

/-- Of the nodes beyond the number of nodes the least one is named. -/
theorem validate_of_isLeast (hvalidators : layout.topology.validators ≠ 0)
    (hshards : layout.topology.shards ≠ 0) (hascend : layout.nodeOverrides.Pairwise (·.1 < ·.1))
    {ordinal : ℕ} (hleast : IsLeast
      {o | nodes ≤ o ∧ ∃ members, (o, members) ∈ layout.nodeOverrides} ordinal) :
    layout.validate = .error (.error (.ofFlaw (.strayOverride ordinal nodes))) := by
  obtain ⟨⟨hbeyond, members, hmembers⟩, hbelow⟩ := hleast
  rw [validate, flaw?_eq hnodes, if_neg hvalidators, if_neg hshards]
  cases hfind : layout.nodeOverrides.find? (nodes ≤ ·.1) with
  | none => simpa [hbeyond] using List.find?_eq_none.mp hfind _ hmembers
  | some entry =>
    have hentry : nodes ≤ entry.1 := by simpa using List.find?_some hfind
    have hle : entry.1 ≤ ordinal :=
      le_of_find?_ascending hascend hfind hmembers (decide_eq_true hbeyond)
    have hge : ordinal ≤ entry.1 := hbelow ⟨hentry, entry.2, List.mem_of_find?_eq_some hfind⟩
    rw [le_antisymm hge hle]
    rfl

end

/-- The verdict on a layout in which some nodes were given settings. It is accepted if it has a
validator and a shard and those nodes are among its nodes. Otherwise the first condition that fails
is blamed; where it is the last one, the least node that is beyond them is named. -/
structure Judged (layout : Layout) (nodes : ℕ) (given : ℕ → Prop) : Prop where
  accepted : layout.validate = .ok () ↔ 1 ≤ layout.topology.validators.toNat ∧
    1 ≤ layout.topology.shards.toNat ∧ ∀ ordinal, given ordinal → ordinal < nodes
  noValidator : layout.topology.validators.toNat = 0 →
    layout.validate = .error (.error (.ofFlaw .noValidator))
  noShard : 1 ≤ layout.topology.validators.toNat → layout.topology.shards.toNat = 0 →
    layout.validate = .error (.error (.ofFlaw .noShard))
  stray : 1 ≤ layout.topology.validators.toNat → 1 ≤ layout.topology.shards.toNat →
    ∀ ordinal, IsLeast {o | nodes ≤ o ∧ given o} ordinal →
      layout.validate = .error (.error (.ofFlaw (.strayOverride ordinal nodes)))

theorem Tabular.judged (h : layout.Tabular) {nodes : ℕ} (hnodes : layout.nodeCount = .ok nodes)
    {given : ℕ → Prop}
    (hgiven : ∀ ordinal, given ordinal ↔ ∃ members, (ordinal, members) ∈ layout.nodeOverrides) :
    layout.Judged nodes given := by
  have hzero (n : UInt64) : n.toNat = 0 ↔ n = 0 := UInt64.toNat_inj (b := 0)
  have hone (n : UInt64) : 1 ≤ n.toNat ↔ n ≠ 0 := Nat.one_le_iff_ne_zero.trans (hzero n).not
  constructor
  · rw [validate_eq_ok_iff hnodes]
    simp [hone, hgiven]
  · intro hvalidators
    rw [validate, flaw?_eq hnodes, if_pos ((hzero _).mp hvalidators)]
  · intro hvalidators hshards
    rw [validate, flaw?_eq hnodes, if_neg ((hone _).mp hvalidators), if_pos ((hzero _).mp hshards)]
  · intro hvalidators hshards ordinal hleast
    simp only [hgiven] at hleast
    exact validate_of_isLeast hnodes ((hone _).mp hvalidators) ((hone _).mp hshards) h.nodes hleast

/-! ## Layouts of overrides -/

/-- What overrides make of a topology whose nodes can be counted, whatever they are and in whatever
order they are given. All that are for the chain are kept. Of those for single nodes the last values
are kept and nothing else, so that two for different places can be given in either order. The
verdict follows from the topology and from the nodes that were given settings. -/
theorem overrideAll_ofTopology {topology : Topology}
    (hcount : topology.validators.toNat + topology.observers.toNat < UInt64.size)
    (overrides : List Override) :
    let nodes := topology.validators.toNat + topology.observers.toNat
    let layout := overrideAll { topology } overrides
    layout.topology = topology ∧
      layout.chainOverrides = overrides.filterMap Override.chain? ∧
      layout.Tabulates (Override.last? overrides) ∧
      (∀ before after first second, first.place? ≠ second.place? →
        overrides = before ++ first :: second :: after →
          overrideAll { topology } (before ++ second :: first :: after) = layout) ∧
      layout.Judged nodes fun ordinal ↦ ∃ key value, .node ordinal key value ∈ overrides := by
  intro nodes layout
  have htopology : layout.topology = topology := topology_overrideAll _ overrides
  have hnodes : layout.nodeCount = .ok nodes := by
    rw [nodeCount, htopology]
    exact if_pos hcount
  have htable : layout.Tabulates (Override.last? overrides) :=
    tabulates_overrideAll topology overrides
  refine ⟨htopology, chainOverrides_overrideAll _ overrides, htable, ?_, ?_⟩
  · rintro before after first second hplaces rfl
    exact (overrideAll_swap hplaces before after).symm
  · apply htable.judged hnodes
    intro ordinal
    rw [← Override.exists_last?_iff, ← htable.exists_setting?_iff]
    simp only [htable.setting?_eq]

/-- Of two nodes beyond three the lesser one is named, although its setting was given later. -/
theorem overrideAll_ofTopology_two_strays :
    let topology : Topology := {}
    let overrides : List Override := [
      .chain "epoch_length" (.ofWord 20), .node 2 "archive" (.boolean false),
      .node 7 "archive" (.boolean true), .chain "epoch_length" (.ofWord 30),
      .node 2 "archive" (.boolean true), .node 4 "archive" (.boolean true)]
    let layout := overrideAll { topology } overrides
    topology.validators.toNat + topology.observers.toNat < UInt64.size ∧
      layout.chainOverrides = [("epoch_length", .ofWord 20), ("epoch_length", .ofWord 30)] ∧
      layout.setting? 2 "archive" = some (.boolean true) ∧
      layout.validate = .error (.error (.ofFlaw (.strayOverride 4 3))) := by
  intro topology overrides layout
  have hcount : topology.validators.toNat + topology.observers.toNat < UInt64.size := by decide
  obtain ⟨-, hchain, htable, -, hjudged⟩ := overrideAll_ofTopology hcount overrides
  refine ⟨hcount, hchain, htable.setting?_eq 2 "archive", ?_⟩
  apply hjudged.stray (by decide) (by decide)
  refine ⟨⟨by decide, "archive", .boolean true, by simp [overrides]⟩, ?_⟩
  rintro ordinal ⟨hbeyond, key, value, hmem⟩
  change 3 ≤ ordinal at hbeyond
  simp only [overrides, List.mem_cons, List.not_mem_nil, reduceCtorEq, Override.node.injEq,
    false_or, or_false] at hmem
  rcases hmem with ⟨rfl, -⟩ | ⟨rfl, -⟩ | ⟨rfl, -⟩ | ⟨rfl, -⟩ <;> omega

end Layout

end BlockWatch
