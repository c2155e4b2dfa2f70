import BlockWatch.Cluster.Local
import BlockWatch.Cluster.Seeding
import BlockWatch.Proofs.Cluster.Operations

/-!
# Machines with something next to them

A machine can have something next to its state that its file operations and its commands neither see
nor change, and that only the handling of processes adds to. Laying out and seeding then leave it
alone, and every call of a cluster does what it would do without it.
-/

namespace BlockWatch

variable {σ τ ε φ α β κ : Type}

/-! ## Operations next to something -/

namespace Op

theorem ext {op other : Op σ ε α} (h : ∀ s, op.run.run s = other.run.run s) : op = other :=
  funext h

/-- An operation next to something that it does not see. -/
def beside (op : Op σ ε α) : Op (σ × κ) ε α := fun s ↦
  let (outcome, next) := op.run.run s.1
  (outcome, (next, s.2))

@[simp]
theorem beside_pure (value : α) :
    (beside (pure value : Op σ ε α) : Op (σ × κ) ε α) = pure value := rfl

@[simp]
theorem beside_bind (op : Op σ ε α) (f : α → Op σ ε β) :
    (beside (op >>= f) : Op (σ × κ) ε β) = beside op >>= fun value ↦ beside (f value) := by
  apply ext
  intro s
  have hleft : (beside (op >>= f) : Op (σ × κ) ε β).run.run s =
      (((op >>= f).run.run s.1).1, (((op >>= f).run.run s.1).2, s.2)) := rfl
  have hfirst : (beside op : Op (σ × κ) ε α).run.run s =
      ((op.run.run s.1).1, ((op.run.run s.1).2, s.2)) := rfl
  rw [hleft, run_bind, run_bind, hfirst]
  rcases op.run.run s.1 with ⟨cause | value, next⟩ <;> rfl

@[simp]
theorem beside_ite {condition : Prop} [Decidable condition] (op other : Op σ ε α) :
    (beside (if condition then op else other) : Op (σ × κ) ε α) =
      if condition then beside op else beside other := by
  split_ifs <;> rfl

/-- Seen through a map of states, an operation does what another does. -/
def Mirrors (f : σ → τ) (op : Op σ ε α) (base : Op τ ε α) : Prop :=
  ∀ s, base.run.run (f s) = ((op.run.run s).1, f (op.run.run s).2)

variable {f : σ → τ} {op : Op σ ε α} {base : Op τ ε α}

theorem mirrors_pure (f : σ → τ) (value : α) :
    Mirrors f (pure value : Op σ ε α) (pure value : Op τ ε α) := fun _ ↦ rfl

theorem mirrors_throw (f : σ → τ) (cause : ε) :
    Mirrors f (throw cause : Op σ ε α) (throw cause : Op τ ε α) := fun _ ↦ rfl

theorem Mirrors.bind {next : α → Op σ ε β} {following : α → Op τ ε β} (h : Mirrors f op base)
    (hnext : ∀ value, Mirrors f (next value) (following value)) :
    Mirrors f (op >>= next) (base >>= following) := by
  intro s
  rw [run_bind, run_bind, h s]
  rcases op.run.run s with ⟨cause | value, s'⟩
  · rfl
  · exact hnext value s'

theorem Mirrors.adapt (h : Mirrors f op base) (wrap : ε → φ) :
    Mirrors f (op.adapt wrap) (base.adapt wrap) := by
  intro s
  have hrun : (base.adapt wrap).run.run (f s) =
      ((base.run.run (f s)).1.mapError wrap, (base.run.run (f s)).2) := rfl
  rw [hrun, h s]
  rfl

theorem mirrors_beside (op : Op σ ε α) :
    Mirrors Prod.fst (beside op : Op (σ × κ) ε α) op := fun _ ↦ rfl

theorem mirrors_of_eq_beside {op : Op (σ × κ) ε α} {base : Op σ ε α} (h : op = beside base) :
    Mirrors Prod.fst op base :=
  h ▸ mirrors_beside base

end Op

/-- A machine with something next to its state, of which operations on files and commands that run to
their end know nothing. The others may change it, but do what they do without it. -/
structure Machine.Adorns (adorned : Machine (σ × κ)) (machine : Machine σ) : Prop where
  exists_ : ∀ path, adorned.exists_ path = .beside (machine.exists_ path)
  readText : ∀ path, adorned.readText path = .beside (machine.readText path)
  writeText : ∀ path text, adorned.writeText path text = .beside (machine.writeText path text)
  makeDirectories : ∀ path, adorned.makeDirectories path = .beside (machine.makeDirectories path)
  removeTree : ∀ path, adorned.removeTree path = .beside (machine.removeTree path)
  copyFile : ∀ source target,
    adorned.copyFile source target = .beside (machine.copyFile source target)
  list : ∀ path, adorned.list path = .beside (machine.list path)
  run : ∀ command, adorned.run command = .beside (machine.run command)
  createFile : ∀ path, Op.Mirrors Prod.fst (adorned.createFile path) (machine.createFile path)
  start : ∀ command output complaints, Op.Mirrors Prod.fst
    (adorned.start command output complaints) (machine.start command output complaints)
  ended? : ∀ process, Op.Mirrors Prod.fst (adorned.ended? process) (machine.ended? process)
  kill : ∀ process, Op.Mirrors Prod.fst (adorned.kill process) (machine.kill process)
  await : ∀ process, Op.Mirrors Prod.fst (adorned.await process) (machine.await process)

/-- The state of a cluster without what its machine has next to it. -/
def ClusterState.forget (state : ClusterState (σ × κ)) : ClusterState σ :=
  ⟨state.machine.1, state.tracked⟩

/-- A cluster of the same configuration on another machine. -/
def LocalCluster.on (cluster : LocalCluster σ) (machine : Machine τ) : LocalCluster τ :=
  ⟨cluster.config, machine⟩

theorem LocalCluster.stop_eq (machine : Machine σ) (s : σ) (tracked : Tracked) :
    stop machine s tracked = ((machine.await tracked.process).run.run
      ((machine.kill tracked.process).run.run s).2).2 :=
  rfl

namespace Machine.Adorns

open Op (beside beside_bind beside_ite beside_pure)

/-! ## Files and commands -/

section Machine

variable {adorned : Machine (σ × κ)} {machine : Machine σ} (h : adorned.Adorns machine)

include h

theorem isThere_eq (path : Path) :
    (liftM (adorned.isThere path) : Bringup (σ × κ) Bool) =
      beside (liftM (machine.isThere path) : Bringup σ Bool) := by
  apply Op.ext
  intro s
  have hadorned : (liftM (adorned.isThere path) : Bringup _ Bool).run.run s =
      (.ok ((adorned.isThere path).run s).1, ((adorned.isThere path).run s).2) := rfl
  have hplain : (beside (liftM (machine.isThere path) : Bringup σ Bool)).run.run s =
      (.ok ((machine.isThere path).run s.1).1, (((machine.isThere path).run s.1).2, s.2)) := rfl
  rw [hadorned, hplain, run_isThere, run_isThere, h.exists_]
  rfl

theorem readObject_eq (path : Path) :
    readObject adorned path = beside (readObject machine path) := by
  simp only [readObject, beside_bind, h.readText]
  rfl

theorem patchFile_eq (path : Path) (changes : List (String × Json.Value)) :
    patchFile adorned path changes = beside (patchFile machine path changes) := by
  simp only [patchFile, beside_bind, h.readObject_eq, h.writeText]
  rfl

theorem runToEnd_eq (command : Command) :
    runToEnd adorned command = beside (runToEnd machine command) := by
  simp only [runToEnd, beside_bind, beside_ite, h.run]
  rfl

/-! ## Seeding -/

open Seeder (copyEntries copyTree copyInto copyIntoAll copySnapshot)

theorem populate_eq (seeder : Seeder) (accounts : UInt64) (homes : List Path) :
    seeder.populate adorned accounts homes = beside (seeder.populate machine accounts homes) := by
  induction homes with
  | nil => rfl
  | cons home rest ih => simp only [Seeder.populate, beside_bind, h.runToEnd_eq, ih]

theorem copyEntries_eq {copyDirectory : Path → Path → Bringup σ Unit}
    {copyAdorned : Path → Path → Bringup (σ × κ) Unit}
    (hcopy : ∀ source target, copyAdorned source target = beside (copyDirectory source target))
    (source target : Path) (entries : List Listed) :
    copyEntries adorned copyAdorned source target entries =
      beside (copyEntries machine copyDirectory source target entries) := by
  induction entries with
  | nil => rfl
  | cons entry rest ih =>
    simp only [copyEntries]
    split_ifs
    · rw [beside_bind, hcopy, ih]
    · rw [beside_bind, ih, h.copyFile]
      rfl

theorem copyTree_eq (depth : ℕ) (source target : Path) :
    copyTree adorned depth source target = beside (copyTree machine depth source target) := by
  induction depth generalizing source target with
  | zero => rfl
  | succ depth ih =>
    have hentries := h.copyEntries_eq ih source target
    simp only [copyTree, beside_bind, hentries, h.makeDirectories, h.list]
    rfl

theorem copyInto_eq (source home : Path) :
    copyInto adorned source home = beside (copyInto machine source home) := by
  simp only [copyInto, beside_bind, beside_ite, h.isThere_eq, h.copyTree_eq, h.copyFile,
    h.removeTree]
  rfl

theorem copyIntoAll_eq (source : Path) (homes : List Path) :
    copyIntoAll adorned source homes = beside (copyIntoAll machine source homes) := by
  induction homes with
  | nil => rfl
  | cons home rest ih => simp only [copyIntoAll, beside_bind, h.copyInto_eq, ih]

theorem copySnapshot_eq (source : Path) (homes : List Path) :
    copySnapshot adorned source homes = beside (copySnapshot machine source homes) := by
  simp only [copySnapshot, beside_bind, beside_ite, h.isThere_eq, h.copyIntoAll_eq]
  rfl

theorem mirrors_lookAfter (process : ℕ) :
    Op.Mirrors Prod.fst (adorned.lookAfter process) (machine.lookAfter process) := by
  intro s
  have hended := h.ended? process s
  change machine.lookAfter process s.1 =
    ((adorned.lookAfter process s).1, (adorned.lookAfter process s).2.1)
  rw [Machine.lookAfter, Machine.lookAfter, hended]
  rcases (adorned.ended? process).run.run s with ⟨cause | status, next⟩
  · dsimp only
    rw [h.kill process next]
  · rfl

end Machine

/-! ## Clusters -/

section Cluster

open LocalCluster (onMachine readPublicKey)
open Op (Mirrors mirrors_beside mirrors_of_eq_beside mirrors_pure mirrors_throw)

variable {cluster : LocalCluster σ} {adorned : Machine (σ × κ)}
  (h : adorned.Adorns cluster.machine)

include h

theorem removeStale_eq (ordinal : ℕ) :
    (cluster.on adorned).removeStale ordinal = beside (cluster.removeStale ordinal) := by
  simp only [LocalCluster.removeStale, beside_bind, beside_ite, ← h.isThere_eq]
  simp only [LocalCluster.on, h.removeTree]
  rfl

theorem removeStaleAll_eq (ordinals : List ℕ) :
    (cluster.on adorned).removeStaleAll ordinals = beside (cluster.removeStaleAll ordinals) := by
  induction ordinals with
  | nil => rfl
  | cons ordinal rest ih =>
    simp only [LocalCluster.removeStaleAll, beside_bind, h.removeStale_eq, ih]

theorem readPublicKey_eq (path : Path) :
    readPublicKey adorned path = beside (readPublicKey cluster.machine path) := by
  simp only [readPublicKey, beside_bind]
  rw [← h.readObject_eq]
  refine congrArg (readObject adorned path >>= ·) (funext fun members ↦ ?_)
  split <;> rfl

theorem prepareHome_eq (layout : Layout) (ordinal : ℕ) :
    (cluster.on adorned).prepareHome layout ordinal =
      beside (cluster.prepareHome layout ordinal) := by
  simp only [LocalCluster.prepareHome, beside_bind, ← h.patchFile_eq, ← h.readPublicKey_eq]
  rfl

theorem prepareHomes_eq (layout : Layout) (ordinals : List ℕ) :
    (cluster.on adorned).prepareHomes layout ordinals =
      beside (cluster.prepareHomes layout ordinals) := by
  induction ordinals with
  | nil => rfl
  | cons ordinal rest ih =>
    simp only [LocalCluster.prepareHomes, beside_bind, beside_pure, h.prepareHome_eq, ih]

theorem layOut_eq (layout : Layout) :
    (cluster.on adorned).layOut layout = beside (cluster.layOut layout) := by
  simp only [LocalCluster.layOut, beside_bind, ← h.removeStaleAll_eq, ← h.prepareHomes_eq,
    ← h.runToEnd_eq]
  simp only [LocalCluster.on, h.makeDirectories]
  rfl

/-! ## Forgetting what is next to the machine -/

theorem mirrors_startProcess (home : NodeHome) (boot : Option Node) :
    Mirrors Prod.fst ((cluster.on adorned).startProcess home boot)
      (cluster.startProcess home boot) := by
  apply ((h.createFile _).adapt _).bind
  intro _
  apply ((h.createFile _).adapt _).bind
  intro _
  apply ((h.start _ _ _).adapt _).bind
  intro process
  apply ((h.mirrors_lookAfter process).adapt _).bind
  intro status
  cases status with
  | none => exact mirrors_pure _ process
  | some status => exact mirrors_throw _ _

omit h in
theorem mirrors_onMachine {op : Bringup (σ × κ) α} {base : Bringup σ α}
    (h : Mirrors Prod.fst op base) : Mirrors ClusterState.forget (onMachine op) (onMachine base) := by
  intro state
  have hrun : (onMachine base).run.run state.forget =
      ((base.run.run state.machine.1).1,
        ⟨(base.run.run state.machine.1).2, state.tracked⟩) := rfl
  rw [hrun, h state.machine]
  rfl

theorem mirrors_init (layout : Layout) :
    Mirrors ClusterState.forget ((cluster.on adorned).init layout) (cluster.init layout) :=
  mirrors_onMachine (mirrors_of_eq_beside (h.layOut_eq layout))

theorem mirrors_populate (seeder : Seeder) (accounts : UInt64) (homes : List Path) :
    Mirrors ClusterState.forget (onMachine (seeder.populate adorned accounts homes))
      (onMachine (seeder.populate cluster.machine accounts homes)) :=
  mirrors_onMachine (mirrors_of_eq_beside (h.populate_eq seeder accounts homes))

theorem mirrors_copySnapshot (source : Path) (homes : List Path) :
    Mirrors ClusterState.forget (onMachine (Seeder.copySnapshot adorned source homes))
      (onMachine (Seeder.copySnapshot cluster.machine source homes)) :=
  mirrors_onMachine (mirrors_of_eq_beside (h.copySnapshot_eq source homes))

theorem mirrors_launch (home : NodeHome) (boot : Option Node) :
    Mirrors ClusterState.forget ((cluster.on adorned).launch home boot)
      (cluster.launch home boot) := by
  apply (mirrors_onMachine (h.mirrors_startProcess home boot)).bind
  intro process state
  rfl

theorem stop_fst (s : σ × κ) (tracked : Tracked) :
    (LocalCluster.stop adorned s tracked).1 = LocalCluster.stop cluster.machine s.1 tracked := by
  rw [LocalCluster.stop_eq, LocalCluster.stop_eq, h.kill, h.await]

theorem foldl_stop_fst (tracked : List Tracked) (s : σ × κ) :
    (tracked.foldl (LocalCluster.stop adorned) s).1 =
      tracked.foldl (LocalCluster.stop cluster.machine) s.1 := by
  induction tracked generalizing s with
  | nil => rfl
  | cons first rest ih => rw [List.foldl_cons, List.foldl_cons, ih, h.stop_fst]

theorem mirrors_shutdown :
    Mirrors ClusterState.forget (cluster.on adorned).shutdown cluster.shutdown := by
  intro state
  have hstate := congrArg (fun s : σ ↦ (⟨s, []⟩ : ClusterState σ))
    (h.foldl_stop_fst state.tracked state.machine)
  exact Prod.ext rfl hstate.symm

end Cluster

end Machine.Adorns

end BlockWatch
