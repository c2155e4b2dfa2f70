import BlockWatch.Proofs.Scenario.Aftermath
import BlockWatch.Proofs.Scenario.Layout
import BlockWatch.Proofs.Scenario.Mirrored

/-!
# Runs that start equipped nodes

Before any node is started, the genesis files say what the chain overrides of the scenario ask for,
and nothing that happens later takes that back: generated accounts are added to what is there, a
snapshot is copied over it, and nodes and polls leave it alone. So every node that a run starts finds
the overrides in its genesis file, as long as a snapshot brings them along.
-/

namespace BlockWatch

open Op (Gives Ensures ensures_beside)

/-! ## The overrides of a scenario -/

theorem all_scenarioChainOverrides {p : Json.Value → Prop} (hword : ∀ n : UInt64, p (.ofWord n))
    (harray : ∀ items, p (.array items)) : ∀ change ∈ scenarioChainOverrides, change.2.All p := by
  have hnumber (n : UInt64) : (Json.Value.ofWord n).All p :=
    Json.Value.all_of_not_isContainer rfl (hword n)
  have hpair : (Json.Value.array [.ofWord 0, .ofWord 1]).All p :=
    Json.Value.all_array_iff.mpr ⟨harray _,
      List.forall_mem_cons.mpr ⟨hnumber 0, List.forall_mem_singleton.mpr (hnumber 1)⟩⟩
  exact List.forall_mem_cons.mpr ⟨hnumber 0, List.forall_mem_cons.mpr ⟨hpair,
    List.forall_mem_cons.mpr ⟨hnumber 20, List.forall_mem_singleton.mpr (hnumber 80)⟩⟩⟩

theorem independent_scenarioChainOverrides : Independent scenarioChainOverrides where
  apart := by
    have hkeys : (scenarioChainOverrides.map fun change ↦ Json.DottedPath.keys change.1).Pairwise
        fun a b ↦ ¬a <+: b ∧ ¬b <+: a := by
      decide +kernel
    exact (List.pairwise_map.mp hkeys).imp fun h ↦ ⟨h.1, h.2⟩
  ordered := all_scenarioChainOverrides (fun _ ↦ trivial) fun _ ↦ trivial
  exact := all_scenarioChainOverrides (fun _ ↦ trivial) fun _ ↦ trivial
  nests := by
    have hnumber (n : UInt64) : (Json.Value.ofWord n).Nests 0 := .scalar rfl
    have hpair : (Json.Value.array [.ofWord 0, .ofWord 1]).Nests 1 := .container
      (List.forall_mem_cons.mpr ⟨hnumber 0, List.forall_mem_singleton.mpr (hnumber 1)⟩)
    exact List.forall_mem_cons.mpr ⟨⟨0, hnumber 0, by decide⟩,
      List.forall_mem_cons.mpr ⟨⟨1, hpair, by decide⟩,
        List.forall_mem_cons.mpr ⟨⟨0, hnumber 20, by decide⟩,
          List.forall_mem_singleton.mpr ⟨0, hnumber 80, by decide⟩⟩⟩⟩

/-! ## Well-behaved programs -/

variable {σ : Type}

/-- On what a run makes of its start, the node program lays out homes without links and leaves the
ground alone; the other program keeps what genesis files hold, and so do running nodes and polls. -/
structure Behaves (cluster : LocalCluster σ) (seeder : Seeder) (poller : Poller (ClusterState σ))
    (topology : Topology) (store : σ → Store) (footing : Footing) (start : σ) : Prop where
  furnishes : ∀ cleared finished made, cluster.Cleared footing.nodes start cleared →
    footing.Bears (store cleared) →
      Gives (cluster.machine.run (cluster.layOutCommand topology)) cleared finished made →
        finished.status.isSuccess = true → footing.Furnished (store made)
  populates : ∀ accounts, ∀ ordinal < footing.nodes, ∀ s finished s',
    Gives (cluster.machine.run
      (seeder.populateCommand accounts (cluster.homeDirectory ordinal))) s finished s' →
        finished.status.isSuccess = true → footing.Keeps (store s) (store s')
  tame : cluster.Tame store footing
  polls : ∀ node state, footing.Keeps (store state.machine) (store (poller node state).next.machine)

/-- A snapshot brings a genesis file from outside of the homes that says at the start what the
scenario asks for, and that the node program leaves alone when it lays out the homes. -/
def Dataset.Suits (cluster : LocalCluster σ) (topology : Topology) (store : σ → Store)
    (footing : Footing) (start : σ) : Dataset → Prop
  | .snapshot source => ∃ q, footing.ground.Reaches (source.child genesisFile) q ∧
      footing.Outside q ∧ (store start).Says q scenarioChainOverrides ∧
      ∀ cleared finished made, cluster.Cleared footing.nodes start cleared →
        Gives (cluster.machine.run (cluster.layOutCommand topology)) cleared finished made →
          finished.status.isSuccess = true → Store.Spares q (store cleared) (store made)
  | _ => True

/-- A process that was started is a node that finds the chain overrides in its genesis file. -/
def Started.FindsOverrides (config : ScenarioConfig) (cluster : LocalCluster σ)
    (store : σ → Store) (started : Started σ) : Prop :=
  ∃ layout, scenarioLayout config = .ok layout ∧
    cluster.Equips store layout.chainOverrides started

namespace Scenario

open LocalCluster (Steady ensures_onMachine)

variable {config : ScenarioConfig} {dataset : Dataset} {cluster : LocalCluster σ} {seeder : Seeder}
  {poller : Poller (ClusterState σ)} {store : σ → Store} {footing : Footing}
  {sources : List (List String)} {layout : Layout} {start : σ}
  {s : RunState (ClusterState (σ × List (Started σ)))}

/-- Nothing has happened to the machine yet. -/
def Untouched (start : σ) (state : ClusterState (σ × List (Started σ))) : Prop :=
  state.machine = (start, [])

/-- What is known of the log, whatever happened. -/
def Equipped (config : ScenarioConfig) (cluster : LocalCluster σ) (store : σ → Store)
    (state : ClusterState (σ × List (Started σ))) : Prop :=
  ∀ started ∈ state.machine.2, started.FindsOverrides config cluster store

theorem Untouched.equipped {state : ClusterState (σ × List (Started σ))}
    (h : Untouched start state) : Equipped config cluster store state := by
  intro started hstarted
  rw [show state.machine = (start, []) from h] at hstarted
  exact absurd hstarted List.not_mem_nil

/-- What is known while nodes are started. -/
structure Ready (config : ScenarioConfig) (cluster : LocalCluster σ) (store : σ → Store)
    (footing : Footing) (state : ClusterState (σ × List (Started σ))) : Prop where
  layout : ∃ layout, scenarioLayout config = .ok layout
  steady : Steady store footing scenarioChainOverrides
    (Started.FindsOverrides config cluster store) state.machine

theorem Ready.equipped {state : ClusterState (σ × List (Started σ))}
    (h : Ready config cluster store footing state) : Equipped config cluster store state :=
  h.steady.log

/-- What is known once the cluster is laid out. -/
structure LaidOut (config : ScenarioConfig) (cluster : LocalCluster σ) (store : σ → Store)
    (footing : Footing) (sources : List (List String)) (homes : List NodeHome)
    (state : ClusterState (σ × List (Started σ))) : Prop where
  layout : ∃ layout, scenarioLayout config = .ok layout
  sound : footing.Sound scenarioChainOverrides sources (store state.machine.1)
  houses : ∀ home ∈ homes, cluster.Houses footing home
  equipped : Equipped config cluster store state

/-- What happens to the machine alone makes a cluster that is laid out ready, if the homes are still
sound. -/
theorem LaidOut.ensures_ready {homes : List NodeHome}
    {state : ClusterState (σ × List (Started σ))}
    (h : LaidOut config cluster store footing sources homes state) {act : Bringup σ Unit}
    (hsound : ∀ next, Gives act state.machine.1 () next →
      footing.Sound scenarioChainOverrides [] (store next)) :
    (LocalCluster.onMachine (Op.beside act)).Ensures state
      (fun _ ↦ Ready config cluster store footing) (Equipped config cluster store) := by
  refine ensures_onMachine (ensures_beside ?_ fun _ ↦ h.equipped)
  intro _ next hgives
  exact ⟨h.layout, hsound next hgives, h.equipped⟩

/-- Genesis files outside of the homes that say what the scenario asks for once the homes are made,
the one of the snapshot among them. -/
structure Supplies (dataset : Dataset) (cluster : LocalCluster σ) (topology : Topology)
    (store : σ → Store) (footing : Footing) (start : σ) (sources : List (List String)) :
    Prop where
  laidOut : ∀ cleared finished made, cluster.Cleared footing.nodes start cleared →
    Gives (cluster.machine.run (cluster.layOutCommand topology)) cleared finished made →
      finished.status.isSuccess = true → ∀ q ∈ sources, footing.Outside q ∧
        (store made).Says q scenarioChainOverrides
  snapshot : ∀ source, dataset = .snapshot source →
    ∃ q ∈ sources, footing.ground.Reaches (source.child genesisFile) q

theorem exists_supplies_of_suits (hacts : cluster.machine.ActsOn store)
    (hfirm : footing.Firm cluster.config.workDir)
    (hawaits : footing.Awaits cluster.config.workDir (store start)) {topology : Topology}
    (h : dataset.Suits cluster topology store footing start) :
    ∃ sources, Supplies dataset cluster topology store footing start sources := by
  cases dataset with
  | snapshot source =>
    obtain ⟨q, hreaches, houtside, hsays, hspares⟩ := h
    refine ⟨[q], fun cleared finished made hcleared hrun hsuccess ↦
      List.forall_mem_singleton.mpr ⟨houtside, ?_⟩, fun other hother ↦ ?_⟩
    · have hkept := (bears_of_cleared hacts hfirm hawaits hcleared).2 q houtside
      exact (hkept.trans (hspares cleared finished made hcleared hrun hsuccess)).says_kept hsays
    · obtain rfl := Dataset.snapshot.inj hother
      exact ⟨q, List.mem_singleton_self q, hreaches⟩
  | generate accounts =>
    exact ⟨[], fun _ _ _ _ _ _ _ hq ↦ absurd hq List.not_mem_nil, fun _ hother ↦ by cases hother⟩
  | skip =>
    exact ⟨[], fun _ _ _ _ _ _ _ hq ↦ absurd hq List.not_mem_nil, fun _ hother ↦ by cases hother⟩

/-! ## Provisioning -/

section Run

variable (hacts : cluster.machine.ActsOn store) (hfirm : footing.Firm cluster.config.workDir)
  (hbehaves : Behaves cluster seeder poller config.topology store footing start)

include hacts hfirm hbehaves

theorem brings_init
    (hnodes : footing.nodes = config.topology.validators.toNat + config.topology.observers.toNat)
    (hawaits : footing.Awaits cluster.config.workDir (store start))
    (hsupplies : Supplies dataset cluster config.topology store footing start sources)
    (hlayout : scenarioLayout config = .ok layout) (h : Untouched start s.stage.field) :
    Brings (bringup (.init layout)
        ((Scenario.logged config dataset cluster seeder poller).site.init layout)) s
      (LaidOut config cluster store footing sources) (Equipped config cluster store) := by
  obtain ⟨htopology, hchanges, -, hcount⟩ := scenarioLayout_eq_ok hlayout
  have hsources := hsupplies.laidOut
  rw [← hnodes] at hcount
  rw [← htopology] at hbehaves hsources
  rw [← hchanges] at hsources
  have hmachine : s.stage.field.machine = (start, []) := h
  have hens : (cluster.logged.init layout).Ensures s.stage.field
      (LaidOut config cluster store footing sources) (Equipped config cluster store) := by
    rw [LocalCluster.init, LocalCluster.layOut_logged]
    refine ensures_onMachine (ensures_beside ?_ fun _ ↦ h.equipped)
    intro homes next hlaid
    rw [hmachine] at hlaid
    obtain ⟨hsound, hhouses⟩ := sound_of_layOut hacts hfirm hcount
      (hchanges ▸ independent_scenarioChainOverrides)
      (fun cleared finished made hcleared hrun hsuccess ↦
        ⟨hbehaves.furnishes cleared finished made hcleared
          (bears_of_cleared hacts hfirm hawaits hcleared).1 hrun hsuccess,
        hsources cleared finished made hcleared hrun hsuccess⟩) hlaid
    exact ⟨⟨layout, hlayout⟩, hchanges ▸ hsound, hhouses, h.equipped⟩
  exact brings_bringup (fun _ ↦ rfl) hens fun _ _ hlaid ↦ hlaid.equipped

theorem brings_seed {homes : List NodeHome}
    (hsupplies : Supplies dataset cluster config.topology store footing start sources)
    (h : LaidOut config cluster store footing sources homes s.stage.field) :
    Brings ((Scenario.logged config dataset cluster seeder poller).seed (homes.map (·.directory))) s
      (fun _ ↦ Ready config cluster store footing) (Equipped config cluster store) := by
  have hhomes : AreHomes footing cluster.config.workDir (homes.map (·.directory)) := by
    intro path hpath
    obtain ⟨home, hhome, rfl⟩ := List.mem_map.mp hpath
    exact ⟨home.ordinal, (h.houses home hhome).ordinal, (h.houses home hhome).directory⟩
  have hless (value : Unit) (field : ClusterState (σ × List (Started σ)))
      (hfield : Ready config cluster store footing field) :
      Equipped config cluster store field := hfield.equipped
  unfold seed
  cases dataset with
  | generate accounts =>
    have hens : (LocalCluster.onMachine (seeder.populate cluster.logged.machine accounts
        (homes.map (·.directory)))).Ensures s.stage.field
        (fun _ ↦ Ready config cluster store footing) (Equipped config cluster store) := by
      rw [LocalCluster.logged, cluster.machine.adorns_logged.populate_eq]
      apply h.ensures_ready
      intro next hpopulated
      refine sound_of_populate (fun path hpath ↦ ?_) hpopulated h.sound.forget
      obtain ⟨ordinal, hordinal, rfl⟩ := hhomes path hpath
      exact hbehaves.populates accounts ordinal hordinal
    exact brings_bringup (fun _ ↦ rfl) hens hless
  | snapshot source =>
    obtain ⟨q, hq, hsource⟩ := hsupplies.snapshot source rfl
    have hens : (LocalCluster.onMachine (Seeder.copySnapshot cluster.logged.machine source
        (homes.map (·.directory)))).Ensures s.stage.field
        (fun _ ↦ Ready config cluster store footing) (Equipped config cluster store) := by
      rw [LocalCluster.logged, cluster.machine.adorns_logged.copySnapshot_eq]
      apply h.ensures_ready
      intro next hcopied
      exact (sound_of_copySnapshot hacts hfirm hhomes hq hsource hcopied h.sound).forget
    exact brings_bringup (fun _ ↦ rfl) hens hless
  | skip => exact brings_pure ⟨h.layout, h.sound.forget, h.equipped⟩

/-- A provisioned cluster has genesis files that say what the scenario asks for. -/
theorem brings_provision
    (hnodes : footing.nodes = config.topology.validators.toNat + config.topology.observers.toNat)
    (hawaits : footing.Awaits cluster.config.workDir (store start))
    (hsupplies : Supplies dataset cluster config.topology store footing start sources)
    (h : Untouched start s.stage.field) :
    Brings (Scenario.logged config dataset cluster seeder poller).provision s
      (fun cast field ↦ (∀ home ∈ cast.inOrder, cluster.Houses footing home) ∧
        Ready config cluster store footing field) (Equipped config cluster store) := by
  have hcheck : Brings (Scenario.logged config dataset cluster seeder poller).checkConfig s
      (fun _ ↦ Untouched start) (Equipped config cluster store) := by
    unfold checkConfig
    split
    · exact brings_pure h
    · exact brings_abort h.equipped
  rw [provision_eq]
  apply hcheck.bind
  intro _ s₁ h₁
  apply ((brings_orFault h₁).mono (fun _ _ hafter ↦ hafter) fun _ ↦ Untouched.equipped).bind
  rintro layout s₂ ⟨hlayout, h₂⟩
  apply (brings_init hacts hfirm hbehaves hnodes hawaits hsupplies hlayout h₂).bind
  intro homes s₃ h₃
  have hassign : Brings (assign homes) s₃ (fun cast field ↦ Cast.ofHomes? homes = some cast ∧
      LaidOut config cluster store footing sources homes field)
      (Equipped config cluster store) := by
    unfold assign
    cases hcast : Cast.ofHomes? homes with
    | none => exact brings_abort h₃.equipped
    | some cast => exact brings_pure ⟨rfl, h₃⟩
  apply hassign.bind
  rintro cast s₄ ⟨hcast, h₄⟩
  apply (brings_seed hacts hfirm hbehaves hsupplies h₄).bind
  intro _ s₅ h₅
  refine brings_pure ⟨fun home hhome ↦ h₄.houses home ?_, h₅⟩
  exact (Cast.inOrder_perm hcast).mem_iff.mp hhome

/-! ## Launches and waits -/

theorem brings_launch {home : NodeHome} (hhome : cluster.Houses footing home) (boot : Option Node)
    (h : Ready config cluster store footing s.stage.field) :
    Brings ((Scenario.logged config dataset cluster seeder poller).launch home boot) s
      (fun _ ↦ Ready config cluster store footing) (Equipped config cluster store) := by
  obtain ⟨layout, hlayout⟩ := h.layout
  have hfinds (started : Started σ) (hstarted : cluster.Equips store scenarioChainOverrides started) :
      started.FindsOverrides config cluster store := by
    refine ⟨layout, hlayout, ?_⟩
    rw [(scenarioLayout_eq_ok hlayout).2.1]
    exact hstarted
  have hens : (cluster.logged.launch home boot).Ensures s.stage.field
      (fun _ ↦ Ready config cluster store footing) (Equipped config cluster store) := by
    have hlaunch := LocalCluster.ensures_launch hacts hfirm hbehaves.tame hhome boot hfinds h.steady
    exact ⟨fun node state' hgives ↦ ⟨h.layout, hlaunch.gives node state' hgives⟩, hlaunch.fails⟩
  exact brings_bringup (fun _ ↦ rfl) hens fun _ _ hready ↦ hready.equipped

theorem brings_launchAll {homes : List NodeHome}
    (hhomes : ∀ home ∈ homes, cluster.Houses footing home) (leader : Node)
    (h : Ready config cluster store footing s.stage.field) :
    Brings ((Scenario.logged config dataset cluster seeder poller).launchAll leader homes) s
      (fun _ ↦ Ready config cluster store footing) (Equipped config cluster store) := by
  induction homes generalizing s with
  | nil => exact brings_pure h
  | cons home rest ih =>
    obtain ⟨hhome, hrest⟩ := List.forall_mem_cons.mp hhomes
    apply (brings_launch hacts hfirm hbehaves hhome (some leader) h).bind
    intro _ s' h'
    exact ih hrest h'

theorem brings_join {home : NodeHome} (hhome : cluster.Houses footing home) (leader : Node)
    (h : Ready config cluster store footing s.stage.field) :
    Brings ((Scenario.logged config dataset cluster seeder poller).join leader home) s
      (fun _ ↦ Ready config cluster store footing) (Equipped config cluster store) := by
  unfold join
  split_ifs
  · exact brings_launch hacts hfirm hbehaves hhome (some leader) h
  · exact brings_abort h.equipped

theorem brings_joinAll {homes : List NodeHome}
    (hhomes : ∀ home ∈ homes, cluster.Houses footing home) (leader : Node)
    (h : Ready config cluster store footing s.stage.field) :
    Brings ((Scenario.logged config dataset cluster seeder poller).joinAll leader homes) s
      (fun _ ↦ Ready config cluster store footing) (Equipped config cluster store) := by
  induction homes generalizing s with
  | nil => exact brings_pure h
  | cons home rest ih =>
    obtain ⟨hhome, hrest⟩ := List.forall_mem_cons.mp hhomes
    apply (brings_join hacts hfirm hbehaves hhome leader h).bind
    intro _ s' h'
    exact ih hrest h'

omit hacts hfirm in
theorem brings_await_logged (deadline : Deadline) (node : Node) (target : WaitTarget)
    (h : Ready config cluster store footing s.stage.field) :
    Brings ((Scenario.logged config dataset cluster seeder poller).await deadline node target) s
      (fun _ ↦ Ready config cluster store footing) (Equipped config cluster store) := by
  refine brings_await ?_ deadline node target h fun _ ↦ Ready.equipped
  intro node state hready
  exact ⟨hready.layout, hready.steady.sound.of_keeps (hbehaves.polls node state.forget),
    hready.equipped⟩

/-! ## The whole run -/

theorem brings_execute
    (hnodes : footing.nodes = config.topology.validators.toNat + config.topology.observers.toNat)
    (hawaits : footing.Awaits cluster.config.workDir (store start))
    (hsupplies : Supplies dataset cluster config.topology store footing start sources)
    (h : Untouched start s.stage.field) :
    Brings (Scenario.logged config dataset cluster seeder poller).execute s
      (fun _ ↦ Equipped config cluster store) (Equipped config cluster store) := by
  unfold execute
  apply (brings_enter .provisioning h).bind
  intro _ s₁ h₁
  apply (brings_provision hacts hfirm hbehaves hnodes hawaits hsupplies h₁).bind
  rintro cast s₂ ⟨hhouses, h₂⟩
  have hvalidators : ∀ home ∈ cast.validators, cluster.Houses footing home := fun home hhome ↦
    hhouses home (by simp [Cast.inOrder, hhome])
  have hearly : ∀ home ∈ cast.early, cluster.Houses footing home := fun home hhome ↦
    hhouses home (by simp [Cast.inOrder, hhome])
  apply (brings_get h₂).bind
  intro _ s₃ h₃
  apply (brings_launch hacts hfirm hbehaves (hhouses _ (by simp [Cast.inOrder])) none h₃).bind
  intro leader s₄ h₄
  apply (brings_launchAll hacts hfirm hbehaves hvalidators leader h₄).bind
  intro _ s₅ h₅
  apply (brings_joinAll hacts hfirm hbehaves hearly leader h₅).bind
  intro _ s₆ h₆
  apply (brings_enter .baselineWait h₆).bind
  intro _ s₇ h₇
  apply (brings_await_logged hbehaves _ leader _ h₇).bind
  intro baseline s₈ h₈
  apply (brings_enter .joinLateNode h₈).bind
  intro _ s₉ h₉
  apply (brings_join hacts hfirm hbehaves (hhouses _ (by simp [Cast.inOrder])) leader h₉).bind
  intro late s₁₀ h₁₀
  apply (brings_enter .degradationWatch h₁₀).bind
  intro _ s₁₁ h₁₁
  apply (brings_await_logged hbehaves _ leader _ h₁₁).bind
  intro degradation s₁₂ h₁₂
  apply (brings_enter .lateNodeCatchup h₁₂).bind
  intro _ s₁₃ h₁₃
  apply (brings_await_logged hbehaves _ late _ h₁₃).bind
  intro catchup s₁₄ h₁₄
  apply (brings_get h₁₄).bind
  intro _ s₁₅ h₁₅
  exact brings_pure h₁₅.equipped

end Run

/-- Whatever a run starts finds the chain overrides in its genesis file. The log of what it starts is
kept by a run that is the same but for this log. -/
theorem findsOverrides_of_run (hacts : cluster.machine.ActsOn store)
    (hfirm : footing.Firm cluster.config.workDir)
    (hnodes : footing.nodes = config.topology.validators.toNat + config.topology.observers.toNat)
    (s : RunState (ClusterState σ))
    (hawaits : footing.Awaits cluster.config.workDir (store s.stage.field.machine))
    (hbehaves : Behaves cluster seeder poller config.topology store footing s.stage.field.machine)
    (hdataset : dataset.Suits cluster config.topology store footing s.stage.field.machine) :
    (Scenario.mk config dataset (Site.ofCluster cluster seeder poller)).run s =
        (((Scenario.logged config dataset cluster seeder poller).run s.unlogged).1,
          ((Scenario.logged config dataset cluster seeder poller).run s.unlogged).2.along
            ClusterState.forget) ∧
      ∀ started ∈ Scenario.started config dataset cluster seeder poller s,
        started.FindsOverrides config cluster store := by
  refine ⟨run_logged config dataset cluster seeder poller s, ?_⟩
  have hstart : Untouched s.stage.field.machine s.unlogged.stage.field := rfl
  have hclose (state : ClusterState (σ × List (Started σ)))
      (hstate : Equipped config cluster store state) : Equipped config cluster store
        ((Scenario.logged config dataset cluster seeder poller).site.shutdown state).next := by
    have hlog : ((Scenario.logged config dataset cluster seeder poller).site.shutdown
        state).next.machine.2 = state.machine.2 := cluster.log_shutdown state
    intro started hstarted
    rw [hlog] at hstarted
    exact hstate started hstarted
  obtain ⟨sources, hsupplies⟩ := exists_supplies_of_suits hacts hfirm hawaits hdataset
  exact field_run (brings_execute hacts hfirm hbehaves hnodes hawaits hsupplies hstart) hclose

/-! ### A cluster of three nodes -/

/-- A store with a snapshot, whose genesis file holds an object, and with an empty directory. -/
def snapshotStore (genesis : Json.Members) : Store where
  root := .directory [
    ("snap", .directory [(genesisFile, .file (Json.Value.object genesis).pretty.toUTF8 false)]),
    ("work", .directory [])]
  here := []

/-- The homes of some nodes in a directory. -/
def placeHomes (base : List String) : List ℕ → Store → Store
  | [], store => store
  | ordinal :: rest, store =>
    placeHomes base rest (store.place (base ++ [homeName ordinal]) LocalCluster.sampleHome)

/-- Three homes in the directory that a path leads to. -/
def makeHomes (workDir : Path) (store : Store) : Store :=
  match store.find true workDir with
  | .ok (base, .directory _) => placeHomes base (List.range 3) store
  | _ => store

/-- A seeder whose program adds nothing to what it finds. -/
def idleSeeder : Seeder := ⟨({} : HarnessConfig).populateBinaryPath⟩

/-- What the two programs make of a store: one adds nothing, and the other makes three homes. -/
def runPrograms (command : Command) (store : Store) : Store :=
  if command.program = idleSeeder.binary then store else makeHomes ⟨"work"⟩ store

def snapshotCluster : LocalCluster Bench where
  config := { workDir := ⟨"work"⟩ }
  machine := Bench.running runPrograms fun _ store ↦ store

/-- Every node is at a great height at once. -/
def promptPoller : Poller (ClusterState Bench) := fun _ state ↦
  { outcome := .ok 100, next := state }

/-- A bench with a snapshot and without homes. -/
def snapshotBench (genesis : Json.Members) : RunState (ClusterState Bench) where
  stage := { field := { machine := { store := snapshotStore genesis } } }

def snapshotFooting (genesis : Json.Members) : Footing where
  ground := snapshotStore genesis
  base := ["work"]
  nodes := 3

variable {genesis : Json.Members}

theorem actsOn_snapshotCluster : snapshotCluster.machine.ActsOn Bench.store :=
  Bench.actsOn_running runPrograms fun _ store ↦ store

theorem firm_snapshotFooting : (snapshotFooting genesis).Firm snapshotCluster.config.workDir where
  reaches := by
    have hwalk : walk (snapshotStore genesis).root true maxLinks [] ["work"] =
        .ok (.occupied ["work"]) := rfl
    have hnames : (Route.ofText "work").names = ["work"] := by decide +kernel
    have hroot : (Route.ofText "work").fromRoot = false := by decide +kernel
    change walk _ true maxLinks (if (Route.ofText "work").fromRoot then [] else [])
      (Route.ofText "work").names = _
    rw [hnames, hroot]
    exact hwalk
  vacant _ _ := rfl

theorem awaits_snapshotBench : (snapshotFooting genesis).Awaits snapshotCluster.config.workDir
    (snapshotBench genesis).stage.field.machine.store := fun _ hmade ↦
  (snapshotFooting genesis).bears_ground.of_grows (Store.grows_makeDirectories hmade)

theorem sampleHome_plain (rest : List String) (target : String) :
    LocalCluster.sampleHome.get? rest ≠ some (.link target) := by
  cases rest with
  | nil => exact nofun
  | cons name more =>
    have hfile (contents : ByteArray) (executable : Bool) :
        (Entry.file contents executable).get? more ≠ some (.link target) := by
      cases more <;> exact nofun
    simp only [LocalCluster.sampleHome, Entry.get?, Entry.find?]
    split_ifs
    · exact hfile _ _
    · exact hfile _ _
    · exact hfile _ _
    · intro heq
      cases heq

/-- Homes that are placed are there in the end, next to those that were there. -/
theorem get?_placeHomes {base : List String} {ordinals : List ℕ} {ordinal : ℕ} {store : Store}
    {entries : List (String × Entry)} (hbase : store.root.get? base = some (.directory entries))
    (h : ordinal ∈ ordinals ∨ ∀ rest, store.root.get? (base ++ homeName ordinal :: rest) =
      LocalCluster.sampleHome.get? rest) (rest : List String) :
    (placeHomes base ordinals store).root.get? (base ++ homeName ordinal :: rest) =
      LocalCluster.sampleHome.get? rest := by
  induction ordinals generalizing store entries with
  | nil => exact h.resolve_left List.not_mem_nil rest
  | cons first others ih =>
    apply ih (Store.get?_place_parent hbase (homeName first) LocalCluster.sampleHome)
    by_cases hfirst : ordinal = first
    · subst hfirst
      exact .inr (Store.get?_place hbase _ _)
    · refine h.imp (fun hmem ↦ (List.mem_cons.mp hmem).resolve_left hfirst) fun hthere more ↦ ?_
      have hname : homeName first ≠ homeName ordinal := fun heq ↦
        hfirst (homeName_injective heq).symm
      rw [(Store.changedAt_place store base (homeName first) _).branch, hthere]
      · exact fun hleads ↦ hname (prefix_home_iff.mp hleads)
      · rw [List.prefix_append_right_inj, List.cons_prefix_cons]
        exact fun hleads ↦ hname hleads.1.symm

/-- The ground and the documents outside of homes stay when homes are placed. -/
theorem bears_placeHomes {footing : Footing} {workDir : Path} (hfirm : footing.Firm workDir)
    {ordinals : List ℕ} (hordinals : ∀ ordinal ∈ ordinals, ordinal < footing.nodes) {store : Store}
    {entries : List (String × Entry)} (hbears : footing.Bears store)
    (hbase : store.root.get? footing.base = some (.directory entries)) :
    footing.Bears (placeHomes footing.base ordinals store) ∧ ∀ q, footing.Outside q →
      Store.Spares q store (placeHomes footing.base ordinals store) := by
  induction ordinals generalizing store entries with
  | nil => exact ⟨hbears, fun _ _ _ _ hfile ↦ hfile⟩
  | cons first others ih =>
    obtain ⟨hfirst, hothers⟩ := List.forall_mem_cons.mp hordinals
    have hchanged := Store.changedAt_place store footing.base (homeName first)
      LocalCluster.sampleHome
    obtain ⟨hlast, hspares⟩ := ih hothers (hbears.of_changedAt hfirm hfirst hbase hchanged)
      (Store.get?_place_parent hbase _ _)
    exact ⟨hlast, fun q hq ↦ (hchanged.spares hbase (hq first hfirst)).trans (hspares q hq)⟩

/-- On the ground, the node program makes the homes. -/
theorem exists_base_of_layOut {topology : Topology} {cleared made : Bench} {finished : Finished}
    (hbears : (snapshotFooting genesis).Bears cleared.store)
    (h : Gives (snapshotCluster.machine.run (snapshotCluster.layOutCommand topology)) cleared
      finished made) : ∃ entries, cleared.store.root.get? ["work"] = some (.directory entries) ∧
        made.store = placeHomes ["work"] (List.range 3) cleared.store := by
  obtain ⟨-, rfl⟩ := Prod.mk.inj h
  have hground : (snapshotFooting genesis).ground.root.get? ["work"] = some (.directory []) := rfl
  obtain ⟨entries, hentries⟩ := hbears.ground.exists_directory hground
  have hopen : Store.mustBeDirectory ⟨"work"⟩ = false := by decide +kernel
  have hnonempty : (Path.mk "work").text.isEmpty = false := by decide +kernel
  have hfind : cleared.store.find true ⟨"work"⟩ = .ok (["work"], .directory entries) :=
    Store.find_of_reaches (hbears.reaches firm_snapshotFooting) hnonempty hopen hentries
  have hother : snapshotCluster.config.nodeBinaryPath ≠ idleSeeder.binary := by decide +kernel
  refine ⟨entries, hentries, ?_⟩
  calc
    runPrograms (snapshotCluster.layOutCommand topology) cleared.store =
        makeHomes ⟨"work"⟩ cleared.store := if_neg hother
    _ = placeHomes ["work"] (List.range 3) cleared.store := by rw [makeHomes, hfind]

theorem furnished_of_layOut {topology : Topology} {cleared made : Bench} {finished : Finished}
    (hbears : (snapshotFooting genesis).Bears cleared.store)
    (h : Gives (snapshotCluster.machine.run (snapshotCluster.layOutCommand topology)) cleared
      finished made) : (snapshotFooting genesis).Furnished made.store ∧
        ∀ q, (snapshotFooting genesis).Outside q → Store.Spares q cleared.store made.store := by
  obtain ⟨entries, hbase, hmade⟩ := exists_base_of_layOut hbears h
  obtain ⟨hlast, hspares⟩ := bears_placeHomes firm_snapshotFooting
    (fun _ hordinal ↦ List.mem_range.mp hordinal) hbears hbase
  have hhome (ordinal : ℕ) (hordinal : ordinal < 3) (rest : List String) :
      made.store.root.get? (["work"] ++ homeName ordinal :: rest) =
        LocalCluster.sampleHome.get? rest := by
    rw [hmade]
    exact get?_placeHomes hbase (.inl (List.mem_range.mpr hordinal)) rest
  refine ⟨⟨hmade ▸ hlast, fun ordinal hordinal ↦ ⟨_, hhome ordinal hordinal []⟩, ?_⟩,
    fun q hq ↦ hmade ▸ hspares q hq⟩
  intro ordinal hordinal rest target hlink
  rw [Footing.homeAt, List.append_assoc] at hlink
  exact sampleHome_plain rest target ((hhome ordinal hordinal rest).symm.trans hlink)

theorem behaves_snapshotCluster (topology : Topology) (start : Bench) :
    Behaves snapshotCluster idleSeeder promptPoller topology Bench.store
      (snapshotFooting genesis) start where
  furnishes cleared finished made _ hbears hrun _ := (furnished_of_layOut hbears hrun).1
  populates accounts ordinal _ s finished s' hrun _ := by
    obtain ⟨-, rfl⟩ := Prod.mk.inj hrun
    have hsame : runPrograms (idleSeeder.populateCommand accounts
        (snapshotCluster.homeDirectory ordinal)) s.store = s.store := if_pos rfl
    change (snapshotFooting genesis).Keeps s.store (runPrograms _ s.store)
    rw [hsame]
    exact .refl s.store
  tame := {
    start := fun home boot _ s process s' hstart ↦ by
      obtain ⟨-, rfl⟩ := Prod.mk.inj hstart
      exact .refl _
    ended? := fun process s status s' hended ↦ by
      obtain ⟨-, rfl⟩ := Prod.mk.inj hended
      exact .refl _ }
  polls _ _ := .refl _

/-- A snapshot with the chain overrides. -/
theorem suits_snapshot (topology : Topology) :
    let genesis := Json.DottedPath.setAll [] scenarioChainOverrides
    (Dataset.snapshot ⟨"snap"⟩).Suits snapshotCluster topology Bench.store
      (snapshotFooting genesis) (snapshotBench genesis).stage.field.machine := by
  intro genesis
  have houtside : (snapshotFooting genesis).Outside ["snap", genesisFile] := by
    rintro ordinal _ ⟨rest, hrest⟩
    exact absurd (List.cons.inj hrest).1 (by decide)
  refine ⟨["snap", genesisFile], ?_, houtside, ?_, fun cleared finished made hcleared hrun _ ↦ ?_⟩
  · have hwalk : walk (snapshotStore genesis).root true maxLinks [] ["snap", genesisFile] =
        .ok (.occupied ["snap", genesisFile]) := rfl
    have hroute : (Route.ofText (Path.child ⟨"snap"⟩ genesisFile).text).fromRoot = false ∧
        (Route.ofText (Path.child ⟨"snap"⟩ genesisFile).text).names = ["snap", genesisFile] := by
      decide +kernel
    rw [Store.Reaches, hroute.1, hroute.2]
    exact hwalk
  · exact Store.says_of_written independent_scenarioChainOverrides
      (Json.Value.ordered_object_iff.mpr ⟨.nil, fun _ h ↦ absurd h List.not_mem_nil⟩)
      (Json.Value.nests_object_iff.mpr fun _ h ↦ absurd h List.not_mem_nil) rfl
  · have hbears := (bears_of_cleared actsOn_snapshotCluster firm_snapshotFooting
      awaits_snapshotBench hcleared).1
    exact (furnished_of_layOut hbears hrun).2 _ houtside

/-- The home of a process that was started has a genesis file without a value at a path. -/
def lacks (path : String) (started : Started Bench) : Bool :=
  match started.command.arguments with
  | _ :: home :: _ =>
    match started.state.store.document? ((⟨home⟩ : Path).child genesisFile) with
    | some (.object members) => (Json.DottedPath.lookup members path).isNone
    | _ => true
  | _ => false

theorem not_equips_of_lacks {path : String} {changes : List (String × Json.Value)}
    {started : Started Bench} (hpath : path ∈ changes.map (·.1)) (h : lacks path started = true) :
    ¬snapshotCluster.Equips Bench.store changes started := by
  rintro ⟨home, boot, members, hcommand, hdocument, hfound⟩
  obtain ⟨change, hchange, rfl⟩ := List.mem_map.mp hpath
  have hlooked : lacks change.1 started =
      (Json.DottedPath.lookup members change.1).isNone := by
    unfold lacks
    rw [hcommand]
    simp only [LocalCluster.nodeCommand, List.cons_append]
    rw [hdocument]
  rw [hlooked, hfound change hchange] at h
  cases h

/-- With a snapshot that brings the chain overrides along, three nodes are started and find them. -/
theorem findsOverrides_of_run_snapshot :
    let start := snapshotBench (Json.DottedPath.setAll [] scenarioChainOverrides)
    let started := Scenario.started {} (.snapshot ⟨"snap"⟩) snapshotCluster idleSeeder
      promptPoller start
    started.length = 3 ∧ ∀ process ∈ started,
      process.FindsOverrides {} snapshotCluster Bench.store := by
  intro start started
  refine ⟨by decide +kernel, ?_⟩
  exact (findsOverrides_of_run actsOn_snapshotCluster firm_snapshotFooting rfl start
    awaits_snapshotBench (behaves_snapshotCluster _ _) (suits_snapshot _)).2

/-- With a snapshot that does not, nodes are started that do not find them. -/
theorem exists_lacks_of_run_snapshot :
    let genesis : Json.Members := [("epoch_length", .ofWord 500)]
    let config : ScenarioConfig := {}
    let start := snapshotBench genesis
    config.validate = .ok () ∧ snapshotCluster.machine.ActsOn Bench.store ∧
      (snapshotFooting genesis).Firm snapshotCluster.config.workDir ∧
      (snapshotFooting genesis).Awaits snapshotCluster.config.workDir
        start.stage.field.machine.store ∧
      Behaves snapshotCluster idleSeeder promptPoller config.topology Bench.store
        (snapshotFooting genesis) start.stage.field.machine ∧
      ∃ process ∈ Scenario.started config (.snapshot ⟨"snap"⟩) snapshotCluster idleSeeder
        promptPoller start, ¬process.FindsOverrides config snapshotCluster Bench.store := by
  intro genesis config start
  refine ⟨by decide +kernel, actsOn_snapshotCluster, firm_snapshotFooting, awaits_snapshotBench,
    behaves_snapshotCluster _ _, ?_⟩
  have hlacks : (Scenario.started config (.snapshot ⟨"snap"⟩) snapshotCluster idleSeeder
      promptPoller start).any (lacks "min_gas_price") = true := by
    decide +kernel
  obtain ⟨process, hprocess, hpath⟩ := List.any_eq_true.mp hlacks
  refine ⟨process, hprocess, ?_⟩
  rintro ⟨layout, hlayout, hequips⟩
  rw [(scenarioLayout_eq_ok hlayout).2.1] at hequips
  exact not_equips_of_lacks List.mem_cons_self hpath hequips

end Scenario

end BlockWatch
