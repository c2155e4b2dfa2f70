import BlockWatch.Proofs.Cluster.Homes
import BlockWatch.Proofs.Json.ReadShape
import BlockWatch.Proofs.Json.Reread

/-!
# Laying out a cluster

A command of the node program makes the homes; every one of them is then prepared. In the end each
home has a directory and addresses of its own, its genesis file says what the chain overrides ask
for, and its configuration says where it listens and what its own overrides ask for.
-/

namespace BlockWatch

open Json.DottedPath (setAll lookup Apart)

/-! ## Layouts -/

theorem Topology.nodeCount_eq_ok_iff {topology : Topology} {nodes : ℕ} :
    topology.nodeCount = .ok nodes ↔
      topology.validators.toNat + topology.observers.toNat = nodes ∧ nodes < UInt64.size := by
  rw [nodeCount]
  split_ifs with hfits
  · constructor
    · rintro ⟨⟩
      exact ⟨rfl, hfits⟩
    · rintro ⟨rfl, -⟩
      rfl
  · simp only [false_iff]
    rintro ⟨rfl, hlt⟩
    exact hfits hlt

namespace Layout

/-- The values are in order, and so are the nodes that have settings and the keys of each. -/
structure WellFormed (layout : Layout) : Prop where
  chain : ∀ change ∈ layout.chainOverrides, change.2.Ordered
  nodes : layout.nodeOverrides.Pairwise (·.1 < ·.1)
  settings : ∀ entry ∈ layout.nodeOverrides, (Json.Value.object entry.2).Ordered

/-- No value is or holds a floating point number. -/
structure Exact (layout : Layout) : Prop where
  chain : ∀ change ∈ layout.chainOverrides, change.2.Exact
  settings : ∀ entry ∈ layout.nodeOverrides, (Json.Value.object entry.2).Exact

variable {layout : Layout}

/-- What holds of the settings of every node, and of no settings, holds of those of one. -/
theorem all_overridesOf {p : Json.Value → Prop} (hempty : p (.object []))
    (h : ∀ entry ∈ layout.nodeOverrides, (Json.Value.object entry.2).All p) (ordinal : ℕ) :
    (Json.Value.object (layout.overridesOf ordinal)).All p := by
  rw [overridesOf]
  cases hfind : layout.nodeOverrides.find? (·.1 == ordinal) with
  | none => exact Json.Value.all_object_iff.mpr ⟨hempty, fun _ h ↦ absurd h List.not_mem_nil⟩
  | some entry => exact h entry (List.mem_of_find?_eq_some hfind)

theorem ordered_overridesOf (h : layout.WellFormed) (ordinal : ℕ) :
    (Json.Value.object (layout.overridesOf ordinal)).Ordered :=
  all_overridesOf List.Pairwise.nil h.settings ordinal

theorem exact_overridesOf (h : layout.Exact) (ordinal : ℕ) :
    (Json.Value.object (layout.overridesOf ordinal)).Exact :=
  all_overridesOf trivial h.settings ordinal

theorem wellFormed_ofTopology (topology : Topology) : WellFormed { topology } :=
  ⟨fun _ h ↦ absurd h List.not_mem_nil, .nil, fun _ h ↦ absurd h List.not_mem_nil⟩

theorem WellFormed.withChainOverride (h : layout.WellFormed) (path : String) {value : Json.Value}
    (hvalue : value.Ordered) : (layout.withChainOverride path value).WellFormed where
  chain := by
    intro change hchange
    rcases List.mem_append.mp hchange with hchange | hchange
    · exact h.chain change hchange
    · rw [List.mem_singleton.mp hchange]
      exact hvalue
  nodes := h.nodes
  settings := h.settings

theorem mem_modifyAt {ordinal : ℕ} {f : Json.Members → Json.Members}
    {entries : List (ℕ × Json.Members)} {entry : ℕ × Json.Members}
    (h : entry ∈ modifyAt ordinal f entries) :
    entry ∈ entries ∨ entry = (ordinal, f []) ∨
      ∃ members, (ordinal, members) ∈ entries ∧ entry = (ordinal, f members) := by
  induction entries with
  | nil => exact .inr (.inl (List.mem_singleton.mp h))
  | cons first rest ih =>
    rw [modifyAt] at h
    split_ifs at h with hsame hbefore
    · rcases List.mem_cons.mp h with rfl | h
      · exact .inr (.inr ⟨first.2, hsame ▸ List.mem_cons_self, by rw [hsame]⟩)
      · exact .inl (List.mem_cons_of_mem _ h)
    · rcases List.mem_cons.mp h with rfl | h
      · exact .inr (.inl rfl)
      · exact .inl h
    · rcases List.mem_cons.mp h with rfl | h
      · exact .inl List.mem_cons_self
      · rcases ih h with h | h | ⟨members, hmembers, h⟩
        · exact .inl (List.mem_cons_of_mem _ h)
        · exact .inr (.inl h)
        · exact .inr (.inr ⟨members, List.mem_cons_of_mem _ hmembers, h⟩)

theorem pairwise_modifyAt {ordinal : ℕ} {f : Json.Members → Json.Members}
    {entries : List (ℕ × Json.Members)} (h : entries.Pairwise (·.1 < ·.1)) :
    (modifyAt ordinal f entries).Pairwise (·.1 < ·.1) := by
  induction entries with
  | nil => exact List.pairwise_singleton _ _
  | cons first rest ih =>
    obtain ⟨hfirst, hrest⟩ := List.pairwise_cons.mp h
    rw [modifyAt]
    split_ifs with hsame hbefore
    · exact List.pairwise_cons.mpr ⟨hfirst, hrest⟩
    · apply List.pairwise_cons.mpr ⟨_, h⟩
      intro entry hentry
      rcases List.mem_cons.mp hentry with rfl | hentry
      · exact hbefore
      · exact hbefore.trans (hfirst entry hentry)
    · apply List.pairwise_cons.mpr ⟨_, ih hrest⟩
      intro entry hentry
      have hlater : first.1 < ordinal :=
        lt_of_le_of_ne (Nat.le_of_not_lt hbefore) hsame
      rcases mem_modifyAt hentry with hentry | rfl | ⟨members, hmembers, rfl⟩
      · exact hfirst entry hentry
      · exact hlater
      · exact hlater

theorem WellFormed.withNodeOverride (h : layout.WellFormed) (ordinal : ℕ) (key : String)
    {value : Json.Value} (hvalue : value.Ordered) :
    (layout.withNodeOverride ordinal key value).WellFormed where
  chain := h.chain
  nodes := pairwise_modifyAt h.nodes
  settings := by
    have hinsert (members : Json.Members) (hmembers : (Json.Value.object members).Ordered) :
        (Json.Value.object (members.insert key value)).Ordered :=
      Json.Members.all_insert
        (Json.Members.pairwise_insert (Json.Value.ordered_object_iff.mp hmembers).1)
        hmembers hvalue
    intro entry hentry
    rcases mem_modifyAt hentry with hentry | rfl | ⟨members, hmembers, rfl⟩
    · exact h.settings entry hentry
    · exact hinsert [] (Json.Value.ordered_object_iff.mpr
        ⟨.nil, fun _ h ↦ absurd h List.not_mem_nil⟩)
    · exact hinsert members (h.settings _ hmembers)

/-- The validators come first. -/
theorem map_roleOf_range (layout : Layout) :
    (List.range (layout.topology.validators.toNat + layout.topology.observers.toNat)).map
        layout.roleOf =
      List.replicate layout.topology.validators.toNat .validator ++
        List.replicate layout.topology.observers.toNat .observer := by
  have hvalidator : ∀ ordinal ∈ List.range layout.topology.validators.toNat,
      layout.roleOf ordinal = .validator := fun ordinal h ↦ if_pos (List.mem_range.mp h)
  have hobserver : ∀ place ∈ List.range layout.topology.observers.toNat,
      (layout.roleOf ∘ (layout.topology.validators.toNat + ·)) place = .observer :=
    fun place _ ↦ if_neg (Nat.not_lt.mpr (Nat.le_add_right _ _))
  rw [List.range_add, List.map_append, List.map_map, List.map_congr_left hvalidator,
    List.map_congr_left hobserver, List.map_const', List.map_const', List.length_range,
    List.length_range]

end Layout

/-! ## Patched documents -/

namespace Store

/-- A file holds an object without floating point numbers that can be read again once it is
changed. -/
def Patchable (s : Store) (path : Path) (changes : List (String × Json.Value)) : Prop :=
  ∃ members, s.document? path = some (.object members) ∧ (Json.Value.object members).Exact ∧
    (Json.Value.object (setAll members changes)).Nests Json.depthLimit

/-- A file holds the object that it held before, with some changes. -/
def Changed (path : Path) (changes : List (String × Json.Value)) (s next : Store) : Prop :=
  ∃ members, s.document? path = some (.object members) ∧
    next.document? path = some (.object (setAll members changes))

variable {s next : Store} {path : Path} {base names : List String}
  {changes : List (String × Json.Value)}

theorem shaped_of_valueOf? {contents : ByteArray} {value : Json.Value}
    (h : valueOf? contents = some value) : value.Shaped Json.depthLimit := by
  obtain ⟨text, -, htext⟩ := Option.bind_eq_some_iff.mp h
  cases hread : Json.Value.ofText text with
  | error stop =>
    rw [hread] at htext
    cases htext
  | ok found =>
    rw [hread] at htext
    obtain rfl := Option.some.inj htext
    exact Json.Value.shaped_of_ofText hread

/-- What a written object is read as. -/
theorem valueOf?_pretty {value : Json.Value} (hordered : value.Ordered)
    (hnests : value.Nests Json.depthLimit) :
    valueOf? value.pretty.toUTF8 = some value.reread := by
  rw [valueOf?_toUTF8, Json.Value.ofText_pretty hordered hnests]
  rfl

/-- What was written in the pretty form can be patched. -/
theorem patchable_of_file (hreaches : s.Reaches path base)
    (hnames : ∀ name ∈ names, ProperName name) (hne : names ≠ []) {members : Json.Members}
    {executable : Bool} (hfile : s.root.get? (base ++ names) =
      some (.file (Json.Value.object members).pretty.toUTF8 executable))
    (hordered : (Json.Value.object members).Ordered) (hexact : (Json.Value.object members).Exact)
    (hnests : (Json.Value.object members).Nests Json.depthLimit)
    (hchanges : ∀ change ∈ changes, ∃ inner, change.2.Nests inner ∧
      (Json.DottedPath.keys change.1).length + inner ≤ Json.depthLimit) :
    s.Patchable (path.below names) changes := by
  have hvalue := valueOf?_pretty hordered hnests
  rw [Json.Value.reread_of_exact hexact] at hvalue
  exact ⟨members, document?_of_holds hreaches hnames hne ⟨_, executable, hfile, hvalue⟩, hexact,
    Json.DottedPath.nests_setAll hchanges hnests⟩

theorem changed_of_patched (hreaches : s.Reaches path base) (hnext : next.Reaches path base)
    (hnames : ∀ name ∈ names, ProperName name) (hne : names ≠ [])
    (hordered : ∀ change ∈ changes, change.2.Ordered)
    (hexact : ∀ change ∈ changes, change.2.Exact)
    (hpatchable : s.Patchable (path.below names) changes)
    (h : Patched (base ++ names) changes s next) : Changed (path.below names) changes s next := by
  obtain ⟨members, executable, hholds, hfile⟩ := h
  have hbefore := document?_of_holds hreaches hnames hne hholds
  obtain ⟨found, hfound, hplain, hnests⟩ := hpatchable
  rw [hbefore] at hfound
  obtain rfl := Json.Value.object.inj (Option.some.inj hfound)
  obtain ⟨old, -, -, hvalue⟩ := hholds
  have hvalueOrdered := Json.DottedPath.ordered_setAll hordered (shaped_of_valueOf? hvalue).ordered
  have hvalueExact := Json.DottedPath.exact_setAll hexact hplain
  have hafter := valueOf?_pretty hvalueOrdered hnests
  rw [Json.Value.reread_of_exact hvalueExact] at hafter
  exact ⟨members, hbefore, document?_of_holds hnext hnames hne ⟨_, executable, hfile, hafter⟩⟩

end Store

/-! ## Clusters -/

namespace LocalCluster

open Op (Gives gives_bind gives_adapt)

variable {σ : Type} {cluster : LocalCluster σ} {store : σ → Store} {layout : Layout}

/-- What the node program makes: a home for every ordinal, with a genesis file and a configuration
that can be patched. -/
structure Makes (cluster : LocalCluster σ) (layout : Layout) (nodes : ℕ) (made : Store) :
    Prop where
  homes : ∃ base, made.Reaches cluster.config.workDir base ∧
    ∀ ordinal < nodes, made.HasHome (base ++ [homeName ordinal])
  genesis : ∀ ordinal < nodes,
    made.Patchable ((cluster.homeDirectory ordinal).child genesisFile) layout.chainOverrides
  config : ∀ ordinal < nodes, ∀ address rpcAddress,
    cluster.addresses ordinal = .ok (address, rpcAddress) →
      made.Patchable ((cluster.homeDirectory ordinal).child configFile)
        (clientChanges layout ordinal address rpcAddress)

/-- Where a node listens. -/
structure Listens (config : HarnessConfig) (home : NodeHome) (port rpcPort : UInt16) : Prop where
  address : home.address = .ofHost config.host port
  rpcAddress : home.rpcAddress = .ofHost config.host rpcPort
  port : port.toNat = config.basePort.toNat + home.ordinal
  rpcPort : rpcPort.toNat = config.rpcBasePort.toNat + home.ordinal

/-- The homes of a cluster that was laid out. -/
structure LaysOut (cluster : LocalCluster σ) (layout : Layout) (nodes : ℕ) (made final : Store)
    (homes : List NodeHome) : Prop where
  ordinals : homes.map (·.ordinal) = List.range nodes
  roles : homes.map (·.role) =
    List.replicate layout.topology.validators.toNat .validator ++
      List.replicate layout.topology.observers.toNat .observer
  directories : (homes.map (·.directory)).Nodup
  addresses : (homes.map (·.address)).Nodup
  rpcAddresses : (homes.map (·.rpcAddress)).Nodup
  listens : ∀ home ∈ homes, ∃ port rpcPort, Listens cluster.config home port rpcPort
  genesis : ∀ home ∈ homes,
    Store.Changed (home.directory.child genesisFile) layout.chainOverrides made final
  config : ∀ home ∈ homes, Store.Changed (home.directory.child configFile)
    (("network.addr", .string home.address.text) :: ("rpc.addr", .string home.rpcAddress.text) ::
      layout.overridesOf home.ordinal) made final
  keyOrder : ∀ home ∈ homes, (layout.overridesOf home.ordinal).Pairwise (·.1 < ·.1)
  /-- Where no override interferes, the addresses are found. -/
  found : ∀ home ∈ homes, ∃ members,
    final.document? (home.directory.child configFile) = some (.object members) ∧
      ((∀ change ∈ layout.overridesOf home.ordinal, Apart change.1 "network.addr") →
        lookup members "network.addr" = some (.string home.address.text)) ∧
      ((∀ change ∈ layout.overridesOf home.ordinal, Apart change.1 "rpc.addr") →
        lookup members "rpc.addr" = some (.string home.rpcAddress.text))

/-! ### Parts of it -/

theorem listens_of_settles {home : NodeHome} (h : cluster.Settles layout home) :
    ∃ port rpcPort, Listens cluster.config home port rpcPort := by
  have haddresses := h.addresses
  rw [LocalCluster.addresses] at haddresses
  split at haddresses
  next port rpcPort hports =>
    obtain ⟨haddress, hrpcAddress⟩ := Prod.mk.inj (Except.ok.inj haddresses)
    obtain ⟨hport, hrpcPort⟩ := toNat_portsFor hports
    exact ⟨port, rpcPort, haddress.symm, hrpcAddress.symm, hport, hrpcPort⟩
  next => cases haddresses

theorem ofHost_inj {host : Net.Host} {port other : UInt16}
    (h : Net.Endpoint.ofHost host port = .ofHost host other) : port = other := by
  cases host with
  | v4 address => exact (Net.Endpoint.v4.inj h).2
  | v6 address => exact (Net.Endpoint.v6.inj h).2.2

/-- What tells the ordinals of homes apart tells the homes apart. -/
theorem nodup_map_of_ordinals {α : Type} {homes : List NodeHome} {f : NodeHome → α}
    (hordinals : (homes.map (·.ordinal)).Nodup)
    (h : ∀ a ∈ homes, ∀ b ∈ homes, f a = f b → a.ordinal = b.ordinal) : (homes.map f).Nodup := by
  apply List.Nodup.map_on _ hordinals.of_map
  intro a ha b hb hab
  exact List.inj_on_of_nodup_map hordinals ha hb (h a ha b hb hab)

section Settled

variable {homes : List NodeHome} (hsettles : ∀ home ∈ homes, cluster.Settles layout home)
  (hordinals : (homes.map (·.ordinal)).Nodup)

include hsettles hordinals

theorem nodup_directories : (homes.map (·.directory)).Nodup := by
  apply nodup_map_of_ordinals hordinals
  intro a ha b hb hab
  rw [(hsettles a ha).directory, (hsettles b hb).directory] at hab
  exact homeName_injective
    (Path.child_inj (properName_homeName _) (properName_homeName _) hab)

theorem nodup_addresses : (homes.map (·.address)).Nodup := by
  apply nodup_map_of_ordinals hordinals
  intro a ha b hb hab
  obtain ⟨port, _, hport⟩ := listens_of_settles (hsettles a ha)
  obtain ⟨other, _, hother⟩ := listens_of_settles (hsettles b hb)
  rw [hport.address, hother.address] at hab
  have hsame := congrArg UInt16.toNat (ofHost_inj hab)
  rw [hport.port, hother.port] at hsame
  exact Nat.add_left_cancel hsame

theorem nodup_rpcAddresses : (homes.map (·.rpcAddress)).Nodup := by
  apply nodup_map_of_ordinals hordinals
  intro a ha b hb hab
  obtain ⟨_, port, hport⟩ := listens_of_settles (hsettles a ha)
  obtain ⟨_, other, hother⟩ := listens_of_settles (hsettles b hb)
  rw [hport.rpcAddress, hother.rpcAddress] at hab
  have hsame := congrArg UInt16.toNat (ofHost_inj hab)
  rw [hport.rpcPort, hother.rpcPort] at hsame
  exact Nat.add_left_cancel hsame

end Settled

theorem roles_of_settles {homes : List NodeHome}
    (hsettles : ∀ home ∈ homes, cluster.Settles layout home)
    (hordinals : homes.map (·.ordinal) =
      List.range (layout.topology.validators.toNat + layout.topology.observers.toNat)) :
    homes.map (·.role) =
      List.replicate layout.topology.validators.toNat .validator ++
        List.replicate layout.topology.observers.toNat .observer := by
  have hroles : homes.map (·.role) = (homes.map (·.ordinal)).map layout.roleOf := by
    rw [List.map_map]
    exact List.map_congr_left fun home hhome ↦ (hsettles home hhome).role
  rw [hroles, hordinals, Layout.map_roleOf_range]

theorem forall_clientChanges {p : Json.Value → Prop} {ordinal : ℕ}
    {address rpcAddress : Net.Endpoint} (hstring : ∀ text, p (.string text))
    (hown : ∀ change ∈ layout.overridesOf ordinal, p change.2) :
    ∀ change ∈ clientChanges layout ordinal address rpcAddress, p change.2 :=
  List.forall_mem_cons.mpr ⟨hstring _, List.forall_mem_cons.mpr ⟨hstring _, hown⟩⟩

theorem nodeCount_of_check {nodes : ℕ} (h : cluster.check layout = .ok nodes) :
    layout.nodeCount = .ok nodes := by
  obtain ⟨_, -, hcounted⟩ := bind_eq_ok h
  cases hcount : layout.nodeCount with
  | error f =>
    rw [hcount] at hcounted
    cases hcounted
  | ok counted =>
    rw [hcount] at hcounted
    change (if 0 < counted then do
      let _ ← cluster.addresses (counted - 1)
      pure counted
    else pure counted) = Except.ok nodes at hcounted
    split at hcounted
    · obtain ⟨_, -, hend⟩ := bind_eq_ok hcounted
      exact congrArg _ (Except.ok.inj hend)
    · exact congrArg _ (Except.ok.inj hcounted)

/-- What the node program is run on: the directory of the homes was made, and the homes that an
earlier run left were removed. -/
def Cleared (cluster : LocalCluster σ) (nodes : ℕ) (s cleared : σ) : Prop :=
  ∃ based, Gives (cluster.machine.makeDirectories cluster.config.workDir) s () based ∧
    Gives (cluster.removeStaleAll (List.range nodes)) based () cleared

/-- What a cluster that was laid out went through. -/
theorem gives_layOut {s s' : σ} {homes : List NodeHome}
    (h : Gives (cluster.layOut layout) s homes s') : ∃ nodes cleared finished made,
      layout.nodeCount = .ok nodes ∧ cluster.Cleared nodes s cleared ∧
      Gives (cluster.machine.run (cluster.layOutCommand layout.topology)) cleared finished made ∧
      finished.status.isSuccess = true ∧
      Gives (cluster.prepareHomes layout (List.range nodes)) made homes s' := by
  obtain ⟨nodes, s₁, hcheck, h₁⟩ := gives_bind h
  obtain ⟨_, based, hbased, h₂⟩ := gives_bind h₁
  obtain ⟨_, cleared, hcleared, h₃⟩ := gives_bind h₂
  obtain ⟨_, made, hrun, hprepare⟩ := gives_bind h₃
  obtain ⟨finished, hfinished, hsuccess⟩ := gives_runToEnd hrun
  obtain ⟨hchecked, rfl⟩ := Bringup.gives_ofExcept hcheck
  exact ⟨nodes, cleared, finished, made, nodeCount_of_check hchecked,
    ⟨based, gives_adapt hbased, hcleared⟩, hfinished, hsuccess, hprepare⟩

theorem nodeCount_eq {nodes : ℕ} (h : layout.nodeCount = .ok nodes) :
    nodes = layout.topology.validators.toNat + layout.topology.observers.toNat :=
  (Topology.nodeCount_eq_ok_iff.mp h).1.symm

theorem gives_init {state state' : ClusterState σ} {homes : List NodeHome}
    (h : Gives (cluster.init layout) state homes state') :
    Gives (cluster.layOut layout) state.machine homes state'.machine := by
  obtain ⟨houtcome, hstate⟩ := Prod.mk.inj h
  exact Prod.ext houtcome (congrArg ClusterState.machine hstate)

theorem child_homeDirectory (cluster : LocalCluster σ) (ordinal : ℕ) (file : String) :
    (cluster.homeDirectory ordinal).child file =
      cluster.config.workDir.below [homeName ordinal, file] := rfl

theorem properName_homeFile {ordinal : ℕ} {file : String} (h : ProperName file) :
    ∀ name ∈ [homeName ordinal, file], ProperName name :=
  List.forall_mem_cons.mpr ⟨properName_homeName ordinal, List.forall_mem_singleton.mpr h⟩

/-- The files of a prepared home hold what the node program wrote, with the changes for its node. -/
theorem changed_of_prepares {nodes : ℕ} {made final : Store} {base : List String} {home : NodeHome}
    (hlayout : layout.WellFormed) (hexact : layout.Exact) (hmade : cluster.Makes layout nodes made)
    (hbase : made.Reaches cluster.config.workDir base)
    (hfinal : final.Reaches cluster.config.workDir base) (hbelow : home.ordinal < nodes)
    (hsettles : cluster.Settles layout home) (h : Prepares layout base home made final) :
    Store.Changed (home.directory.child genesisFile) layout.chainOverrides made final ∧
      Store.Changed (home.directory.child configFile)
        (clientChanges layout home.ordinal home.address home.rpcAddress) made final := by
  have hgenesis := hmade.genesis home.ordinal hbelow
  have hconfig := hmade.config home.ordinal hbelow _ _ hsettles.addresses
  rw [child_homeDirectory] at hgenesis hconfig
  rw [hsettles.directory, child_homeDirectory, child_homeDirectory]
  constructor
  · exact Store.changed_of_patched hbase hfinal (properName_homeFile properName_genesisFile)
      (List.cons_ne_nil _ _) hlayout.chain hexact.chain hgenesis h.genesis
  · have hordered := Layout.ordered_overridesOf hlayout home.ordinal
    have hplain := Layout.exact_overridesOf hexact home.ordinal
    apply Store.changed_of_patched hbase hfinal (properName_homeFile properName_configFile)
      (List.cons_ne_nil _ _)
    · exact forall_clientChanges (fun _ ↦ Json.Value.all_of_not_isContainer rfl trivial)
        (Json.Value.ordered_object_iff.mp hordered).2
    · exact forall_clientChanges (fun _ ↦ Json.Value.all_of_not_isContainer rfl trivial)
        (Json.Value.all_object_iff.mp hplain).2
    · exact hconfig
    · exact h.config

theorem apart_addresses : Apart "rpc.addr" "network.addr" := by
  constructor <;> decide

/-- Where a configuration was changed and no override interferes, the addresses are found. -/
theorem exists_found {path : Path} {made final : Store} {home : NodeHome}
    (h : Store.Changed path
      (clientChanges layout home.ordinal home.address home.rpcAddress) made final) :
    ∃ members, final.document? path = some (.object members) ∧
      ((∀ change ∈ layout.overridesOf home.ordinal, Apart change.1 "network.addr") →
        lookup members "network.addr" = some (.string home.address.text)) ∧
      ((∀ change ∈ layout.overridesOf home.ordinal, Apart change.1 "rpc.addr") →
        lookup members "rpc.addr" = some (.string home.rpcAddress.text)) := by
  obtain ⟨members, -, hafter⟩ := h
  refine ⟨_, hafter, fun hapart ↦ ?_, fun hapart ↦ ?_⟩
  · have hrest : ∀ change ∈ ("rpc.addr", .string home.rpcAddress.text) ::
        layout.overridesOf home.ordinal, Apart change.1 "network.addr" :=
      List.forall_mem_cons.mpr ⟨apart_addresses, hapart⟩
    exact Json.DottedPath.lookup_setAll_append_cons hrest [] _ members
  · exact Json.DottedPath.lookup_setAll_append_cons hapart
      [("network.addr", .string home.address.text)] _ members

section Acting

variable (hacts : cluster.machine.ActsOn store)

include hacts

/-- A cluster is laid out if that succeeds: there are as many homes as nodes, in order and with
their roles, each with a directory and addresses of its own; every genesis file holds what the node
program wrote with the chain overrides, and every configuration what the node program wrote with the
addresses and the node's own overrides. -/
theorem laysOut_of_init (hlayout : layout.WellFormed) (hexact : layout.Exact)
    {state state' : ClusterState σ} {homes : List NodeHome}
    (hmakes : ∀ nodes cleared finished made, layout.nodeCount = .ok nodes →
      cluster.Cleared nodes state.machine cleared →
        Gives (cluster.machine.run (cluster.layOutCommand layout.topology)) cleared finished made →
          finished.status.isSuccess = true → cluster.Makes layout nodes (store made))
    (h : Gives (cluster.init layout) state homes state') : ∃ nodes cleared finished made,
      layout.nodeCount = .ok nodes ∧ cluster.Cleared nodes state.machine cleared ∧
      Gives (cluster.machine.run (cluster.layOutCommand layout.topology)) cleared finished made ∧
      finished.status.isSuccess = true ∧
      Gives (cluster.prepareHomes layout (List.range nodes)) made homes state'.machine ∧
      cluster.LaysOut layout nodes (store made) (store state'.machine) homes := by
  obtain ⟨nodes, cleared, finished, made, hcount, hcleared, hrun, hsuccess, hprepare⟩ :=
    gives_layOut (gives_init h)
  refine ⟨nodes, cleared, finished, made, hcount, hcleared, hrun, hsuccess, hprepare, ?_⟩
  have hmade := hmakes nodes cleared finished made hcount hcleared hrun hsuccess
  obtain ⟨base, hbase, hhomes⟩ := hmade.homes
  obtain ⟨hordinals, hall, hrewritten⟩ := gives_prepareHomes hacts List.nodup_range hbase
    (fun ordinal hordinal ↦ hhomes ordinal (List.mem_range.mp hordinal)) hprepare
  have hsettles : ∀ home ∈ homes, cluster.Settles layout home := fun home hhome ↦
    (hall home hhome).1
  have hdistinct : (homes.map (·.ordinal)).Nodup := hordinals ▸ List.nodup_range
  have hroles := hordinals
  rw [nodeCount_eq hcount] at hroles
  have hbelow : ∀ home ∈ homes, home.ordinal < nodes := by
    intro home hhome
    apply List.mem_range.mp
    rw [← hordinals]
    exact List.mem_map_of_mem hhome
  have hchanged (home : NodeHome) (hhome : home ∈ homes) :=
    changed_of_prepares hlayout hexact hmade hbase (hrewritten.reaches hbase) (hbelow home hhome)
      (hsettles home hhome) (hall home hhome).2
  exact {
    ordinals := hordinals
    roles := roles_of_settles hsettles hroles
    directories := nodup_directories hsettles hdistinct
    addresses := nodup_addresses hsettles hdistinct
    rpcAddresses := nodup_rpcAddresses hsettles hdistinct
    listens := fun home hhome ↦ listens_of_settles (hsettles home hhome)
    genesis := fun home hhome ↦ (hchanged home hhome).1
    config := fun home hhome ↦ (hchanged home hhome).2
    keyOrder := fun home _ ↦
      (Json.Value.ordered_object_iff.mp (Layout.ordered_overridesOf hlayout home.ordinal)).1
    found := fun home hhome ↦ exists_found (hchanged home hhome).2 }

end Acting

/-! ### Two nodes -/

/-- A home whose files hold small objects. -/
def sampleHome : Entry := .directory [
  (configFile, .file (Json.Value.object [("tracked_shards", .array [])]).pretty.toUTF8 false),
  (genesisFile, .file (Json.Value.object [("epoch_length", .ofWord 500)]).pretty.toUTF8 false),
  (nodeKeyFile, .file (Json.Value.object [("public_key", .string "key")]).pretty.toUTF8 false)]

/-- A working directory with the homes of two nodes. -/
def sampleStore : Store where
  root := .directory [("work", .directory [("test0", sampleHome), ("test1", sampleHome)])]
  here := []

/-- A cluster whose node program makes the homes of two nodes. -/
def sampleCluster : LocalCluster Bench where
  config := { workDir := ⟨"work"⟩ }
  machine := Bench.running (fun _ _ ↦ sampleStore) fun _ store ↦ store

/-- A validator and an observer with short epochs, of which the observer tracks a shard. -/
def sampleLayout : Layout :=
  Layout.withNodeOverride
    (Layout.withChainOverride { topology := { observers := 1 } } "epoch_length" (.ofWord 20))
    1 "tracked_shards" (.array [.ofWord 0])

theorem reaches_sampleStore : sampleStore.Reaches ⟨"work"⟩ ["work"] := by
  have hwalk : walk sampleStore.root true maxLinks [] ["work"] = .ok (.occupied ["work"]) := rfl
  have hnames : (Route.ofText "work").names = ["work"] := by decide +kernel
  have hroot : (Route.ofText "work").fromRoot = false := by decide +kernel
  rw [Store.Reaches, hnames, hroot]
  exact hwalk

theorem get?_sampleHome {ordinal : ℕ} (h : ordinal < 2) (rest : List String) :
    sampleStore.root.get? (["work"] ++ homeName ordinal :: rest) = sampleHome.get? rest := by
  have hzero : homeName 0 = "test0" := by decide +kernel
  have hone : homeName 1 = "test1" := by decide +kernel
  have hcases : ordinal = 0 ∨ ordinal = 1 := by omega
  rcases hcases with rfl | rfl
  · rw [hzero]
    rfl
  · rw [hone]
    rfl

theorem patchable_sampleHome {ordinal : ℕ} (h : ordinal < 2) {file key : String}
    (hfile : ProperName file) {value : Json.Value}
    (hcontents : sampleHome.get? [file] =
      some (.file (Json.Value.object [(key, value)]).pretty.toUTF8 false))
    (hscalar : value.children = []) (hascend : value.KeysAscend) (hexact : value.IsExact)
    {changes : List (String × Json.Value)}
    (hchanges : ∀ change ∈ changes, ∃ inner, change.2.Nests inner ∧
      (Json.DottedPath.keys change.1).length + inner ≤ Json.depthLimit) :
    sampleStore.Patchable ((sampleCluster.homeDirectory ordinal).child file) changes := by
  have hnone {p : Json.Value → Prop} : ∀ inner ∈ value.children, p inner := by
    rw [hscalar]
    exact fun _ h ↦ absurd h List.not_mem_nil
  rw [child_homeDirectory]
  apply Store.patchable_of_file reaches_sampleStore (properName_homeFile hfile)
    (List.cons_ne_nil _ _) ((get?_sampleHome h [file]).trans hcontents)
  · exact Json.Value.all_object_iff.mpr
      ⟨List.pairwise_singleton _ _, List.forall_mem_singleton.mpr ⟨hascend, hnone⟩⟩
  · exact Json.Value.all_object_iff.mpr
      ⟨trivial, List.forall_mem_singleton.mpr ⟨hexact, hnone⟩⟩
  · exact Json.Value.nests_object_iff.mpr (List.forall_mem_singleton.mpr (.container hnone))
  · exact hchanges

theorem makes_sampleStore : sampleCluster.Makes sampleLayout 2 sampleStore where
  homes := by
    refine ⟨["work"], reaches_sampleStore, fun ordinal h ↦ ⟨⟨_, get?_sampleHome h []⟩, ?_, ?_⟩⟩
    · intro target heq
      cases (get?_sampleHome h [genesisFile]).symm.trans heq
    · intro target heq
      cases (get?_sampleHome h [configFile]).symm.trans heq
  genesis ordinal h :=
    patchable_sampleHome h properName_genesisFile rfl rfl trivial trivial
      (List.forall_mem_singleton.mpr ⟨0, .scalar rfl, by decide⟩)
  config ordinal h address rpcAddress _ := by
    apply patchable_sampleHome h properName_configFile rfl rfl trivial trivial
    have hcases : ordinal = 0 ∨ ordinal = 1 := by omega
    have hown : ∀ change ∈ sampleLayout.overridesOf ordinal, ∃ inner, change.2.Nests inner ∧
        (Json.DottedPath.keys change.1).length + inner ≤ Json.depthLimit := by
      rcases hcases with rfl | rfl
      · exact fun _ h ↦ absurd h List.not_mem_nil
      · refine List.forall_mem_singleton.mpr ⟨1, .container ?_, by decide⟩
        exact List.forall_mem_singleton.mpr (.scalar rfl)
    have hnetwork : (Json.DottedPath.keys "network.addr").length + 0 ≤ Json.depthLimit := by decide
    have hrpc : (Json.DottedPath.keys "rpc.addr").length + 0 ≤ Json.depthLimit := by decide
    exact List.forall_mem_cons.mpr ⟨⟨0, .scalar rfl, hnetwork⟩,
      List.forall_mem_cons.mpr ⟨⟨0, .scalar rfl, hrpc⟩, hown⟩⟩

theorem wellFormed_sampleLayout : sampleLayout.WellFormed := by
  have hword (n : UInt64) : (Json.Value.ofWord n).Ordered :=
    Json.Value.all_of_not_isContainer rfl trivial
  have hshards : (Json.Value.array [.ofWord 0]).Ordered :=
    Json.Value.all_array_iff.mpr ⟨trivial, List.forall_mem_singleton.mpr (hword 0)⟩
  exact ((Layout.wellFormed_ofTopology _).withChainOverride "epoch_length" (hword 20))
    |>.withNodeOverride 1 "tracked_shards" hshards

theorem exact_sampleLayout : sampleLayout.Exact where
  chain := List.forall_mem_singleton.mpr (Json.Value.all_of_not_isContainer rfl trivial)
  settings := List.forall_mem_singleton.mpr <| Json.Value.all_object_iff.mpr
    ⟨trivial, List.forall_mem_singleton.mpr <| Json.Value.all_array_iff.mpr
      ⟨trivial, List.forall_mem_singleton.mpr (Json.Value.all_of_not_isContainer rfl trivial)⟩⟩

/-- An empty bench. -/
def emptyBench : ClusterState Bench where
  machine := { store := { root := .directory [], here := [] } }

/-- The two nodes are laid out. -/
theorem laysOut_of_init_sampleCluster : ∃ homes state' nodes cleared finished made,
    Gives (sampleCluster.init sampleLayout) emptyBench homes state' ∧
      sampleLayout.nodeCount = .ok nodes ∧
      sampleCluster.Cleared nodes emptyBench.machine cleared ∧
      Gives (sampleCluster.machine.run (sampleCluster.layOutCommand sampleLayout.topology))
        cleared finished made ∧
      finished.status.isSuccess = true ∧
      Gives (sampleCluster.prepareHomes sampleLayout (List.range nodes)) made homes
        state'.machine ∧
      sampleCluster.LaysOut sampleLayout nodes made.store state'.machine.store homes := by
  have hok : ((sampleCluster.init sampleLayout).run.run emptyBench).1.isOk = true := by
    decide +kernel
  obtain ⟨homes, state', hgives⟩ : ∃ homes state',
      Gives (sampleCluster.init sampleLayout) emptyBench homes state' := by
    cases hrun : (sampleCluster.init sampleLayout).run.run emptyBench with
    | mk outcome state' =>
      rw [hrun] at hok
      cases outcome with
      | ok homes => exact ⟨homes, state', hrun⟩
      | error cause => cases hok
  have hmakes (nodes : ℕ) (cleared : Bench) (finished : Finished) (made : Bench)
      (hcount : sampleLayout.nodeCount = .ok nodes)
      (_ : sampleCluster.Cleared nodes emptyBench.machine cleared)
      (hrun : Gives (sampleCluster.machine.run
        (sampleCluster.layOutCommand sampleLayout.topology)) cleared finished made)
      (_ : finished.status.isSuccess = true) :
      sampleCluster.Makes sampleLayout nodes made.store := by
    obtain ⟨-, rfl⟩ := Prod.mk.inj hrun
    obtain rfl := nodeCount_eq hcount
    exact makes_sampleStore
  have hacts : sampleCluster.machine.ActsOn Bench.store :=
    Bench.actsOn_running (fun _ _ ↦ sampleStore) fun _ store ↦ store
  obtain ⟨nodes, cleared, finished, made, hlaid⟩ :=
    laysOut_of_init hacts wellFormed_sampleLayout exact_sampleLayout hmakes hgives
  exact ⟨homes, state', nodes, cleared, finished, made, hgives, hlaid⟩

end LocalCluster

end BlockWatch
