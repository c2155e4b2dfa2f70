import BlockWatch.Proofs.Cluster.Logged
import BlockWatch.Proofs.Cluster.Provisioning

/-!
# Nodes that are started

On homes that say what they should, a node is started only where its genesis file says it: whatever
the outcome of a launch, all processes that the machine has logged then were started so.
-/

namespace BlockWatch

variable {σ ε φ α β κ : Type}

/-! ## Outcomes -/

namespace Op

/-- What holds after a success, and what holds after a failure. -/
structure Ensures (op : Op σ ε α) (s : σ) (after : α → σ → Prop) (failed : σ → Prop) : Prop where
  gives : ∀ value s', Gives op s value s' → after value s'
  fails : ∀ cause s', op.run.run s = (.error cause, s') → failed s'

variable {op : Op σ ε α} {s : σ} {after : α → σ → Prop} {failed : σ → Prop}

/-- The outcome decides what has to be shown. -/
theorem ensures_of_run {outcome : Except ε α} {next : σ} (hrun : op.run.run s = (outcome, next))
    (hafter : ∀ value, outcome = .ok value → after value next)
    (hfailed : ∀ cause, outcome = .error cause → failed next) : op.Ensures s after failed where
  gives value s' h := by
    obtain ⟨houtcome, rfl⟩ := Prod.mk.inj (hrun.symm.trans h)
    exact hafter value houtcome
  fails cause s' h := by
    obtain ⟨houtcome, rfl⟩ := Prod.mk.inj (hrun.symm.trans h)
    exact hfailed cause houtcome

theorem ensures_of_ok {value : α} {next : σ} (hrun : op.run.run s = (.ok value, next))
    (h : after value next) : op.Ensures s after failed :=
  ensures_of_run hrun (fun _ heq ↦ Except.ok.inj heq ▸ h) fun _ heq ↦ nomatch heq

theorem ensures_of_error {cause : ε} {next : σ} (hrun : op.run.run s = (.error cause, next))
    (h : failed next) : op.Ensures s after failed :=
  ensures_of_run hrun (fun _ heq ↦ nomatch heq) fun _ _ ↦ h

theorem ensures_pure {value : α} (h : after value s) :
    Ensures (pure value : Op σ ε α) s after failed :=
  ensures_of_ok rfl h

theorem ensures_throw {cause : ε} (h : failed s) :
    Ensures (throw cause : Op σ ε α) s after failed :=
  ensures_of_error rfl h

theorem Ensures.bind {f : α → Op σ ε β} {last : β → σ → Prop} (h : op.Ensures s after failed)
    (hf : ∀ value s', after value s' → (f value).Ensures s' last failed) :
    (op >>= f).Ensures s last failed where
  gives value s' hgives := by
    obtain ⟨first, s₁, hop, hrest⟩ := gives_bind hgives
    exact (hf first s₁ (h.gives first s₁ hop)).gives value s' hrest
  fails cause s' hfails := by
    have hgives := h.gives
    have hstops := h.fails
    rw [run_bind] at hfails
    unfold Gives at hgives
    generalize op.run.run s = done at hfails hgives hstops
    obtain ⟨outcome, next⟩ := done
    cases outcome with
    | ok value => exact (hf value next (hgives value next rfl)).fails cause s' hfails
    | error reason =>
      obtain ⟨-, rfl⟩ := Prod.mk.inj hfails
      exact hstops reason next rfl

theorem Ensures.adapt (h : op.Ensures s after failed) (wrap : ε → φ) :
    Ensures (op.adapt wrap) s after failed := by
  have hrun : (op.adapt wrap).run.run s =
      ((op.run.run s).1.mapError wrap, (op.run.run s).2) := rfl
  have hgives := h.gives
  have hstops := h.fails
  unfold Gives at hgives
  apply ensures_of_run hrun
  · intro value hvalue
    generalize op.run.run s = done at hvalue hgives
    obtain ⟨outcome, next⟩ := done
    cases outcome with
    | ok found => exact Except.ok.inj hvalue ▸ hgives found next rfl
    | error cause => cases hvalue
  · intro cause hcause
    generalize op.run.run s = done at hcause hstops
    obtain ⟨outcome, next⟩ := done
    cases outcome with
    | ok found => cases hcause
    | error reason => exact hstops reason next rfl

/-- An operation next to something says nothing about what is there. -/
theorem ensures_beside {op : Op σ ε α} {s : σ × κ} {after : α → σ × κ → Prop}
    {failed : σ × κ → Prop} (hafter : ∀ value next, Gives op s.1 value next →
      after value (next, s.2)) (hfailed : ∀ next, failed (next, s.2)) :
    (beside op).Ensures s after failed :=
  ensures_of_run rfl (fun value houtcome ↦ hafter value _ (Prod.ext houtcome rfl))
    fun _ _ ↦ hfailed _

end Op

namespace LocalCluster

open Op (Gives Ensures ensures_pure ensures_beside)

/-- A node was started in a home whose genesis file holds an object with some changes in it. -/
def Equips (cluster : LocalCluster σ) (store : σ → Store) (changes : List (String × Json.Value))
    (started : Started σ) : Prop :=
  ∃ home boot members, started.command = cluster.nodeCommand home boot ∧
    (store started.state).document? (home.directory.child genesisFile) = some (.object members) ∧
    ∀ change ∈ changes, Json.DottedPath.lookup members change.1 = some change.2

/-- The processes of nodes furnish no links and keep the members of genesis files. -/
structure Tame (cluster : LocalCluster σ) (store : σ → Store) (footing : Footing) : Prop where
  start : ∀ home boot, cluster.Houses footing home → ∀ s process s',
    Gives (cluster.machine.start (cluster.nodeCommand home boot) (home.directory.child "stdout")
      (home.directory.child "stderr")) s process s' → footing.Keeps (store s) (store s')
  ended? : ∀ process s status s', Gives (cluster.machine.ended? process) s status s' →
    footing.Keeps (store s) (store s')

variable {cluster : LocalCluster σ} {store : σ → Store} {footing : Footing}
  {changes : List (String × Json.Value)} {p : Started σ → Prop}

theorem equips_of_sound {home : NodeHome} {s : σ}
    (hfirm : footing.Firm cluster.config.workDir)
    (hhome : cluster.Houses footing home) (hsound : footing.Sound changes [] (store s))
    (boot : Option Node) : cluster.Equips store changes ⟨cluster.nodeCommand home boot, s⟩ := by
  obtain ⟨members, hholds, hfound⟩ := hsound.genesis home.ordinal hhome.ordinal
  refine ⟨home, boot, members, rfl, ?_, hfound⟩
  rw [hhome.directory, child_homeDirectory]
  exact Store.document?_of_holds (hsound.furnished.reaches hfirm)
    (properName_homeFile properName_genesisFile) (List.cons_ne_nil _ _) hholds

/-- What is known of a logged machine while nodes are started. -/
structure Steady (store : σ → Store) (footing : Footing) (changes : List (String × Json.Value))
    (p : Started σ → Prop) (s : σ × List (Started σ)) : Prop where
  sound : footing.Sound changes [] (store s.1)
  log : ∀ started ∈ s.2, p started

theorem ensures_start (htame : cluster.Tame store footing) {s : σ × List (Started σ)}
    (h : Steady store footing changes p s) {home : NodeHome} (hhome : cluster.Houses footing home)
    (boot : Option Node) (hstarted : p ⟨cluster.nodeCommand home boot, s.1⟩) :
    (cluster.machine.logged.start (cluster.nodeCommand home boot) (home.directory.child "stdout")
        (home.directory.child "stderr")).Ensures s
      (fun _ s' ↦ Steady store footing changes p s') fun s' ↦ ∀ started ∈ s'.2, p started := by
  have hlog : ∀ started ∈ s.2 ++ [⟨cluster.nodeCommand home boot, s.1⟩], p started := by
    intro started hmem
    rcases List.mem_append.mp hmem with hmem | hmem
    · exact h.log started hmem
    · exact List.mem_singleton.mp hmem ▸ hstarted
  refine Op.ensures_of_run rfl (fun process hprocess ↦ ?_) fun _ _ ↦ hlog
  exact ⟨h.sound.of_keeps (htame.start home boot hhome s.1 process _ (Prod.ext hprocess rfl)),
    hlog⟩

theorem ensures_startProcess (hacts : cluster.machine.ActsOn store)
    (hfirm : footing.Firm cluster.config.workDir) (htame : cluster.Tame store footing)
    {home : NodeHome} (hhome : cluster.Houses footing home) (boot : Option Node)
    (hp : ∀ started, cluster.Equips store changes started → p started)
    {s : σ × List (Started σ)} (h : Steady store footing changes p s) :
    (cluster.logged.startProcess home boot).Ensures s
      (fun _ s' ↦ Steady store footing changes p s') fun s' ↦ ∀ started ∈ s'.2, p started := by
  have hcreate {name : String} (hname : ProperName name) (hother : name ≠ genesisFile)
      {s : σ × List (Started σ)} (h : Steady store footing changes p s) :
      (Bringup.atPath (home.directory.child name)
        (cluster.machine.logged.createFile (home.directory.child name))).Ensures s
          (fun _ s' ↦ Steady store footing changes p s') fun s' ↦ ∀ started ∈ s'.2, p started := by
    refine Ensures.adapt (ensures_beside ?_ fun _ ↦ h.log) _
    intro _ next hcreated
    rw [hhome.directory, child_homeDirectory] at hcreated
    exact ⟨sound_of_createFile hacts hfirm hhome.ordinal hname hother hcreated h.sound, h.log⟩
  apply (hcreate (by decide) (by decide) h).bind
  intro _ s₁ h₁
  apply (hcreate (by decide) (by decide) h₁).bind
  intro _ s₂ h₂
  have hequips := equips_of_sound hfirm hhome h₂.sound boot
  apply ((ensures_start htame h₂ hhome boot (hp _ hequips)).adapt _).bind
  intro process s₃ h₃
  have hended : (cluster.machine.logged.lookAfter process).Ensures s₃
      (fun _ s' ↦ Steady store footing changes p s') fun s' ↦ ∀ started ∈ s'.2, p started := by
    rw [cluster.machine.lookAfter_logged]
    refine ensures_beside ?_ fun _ ↦ h₃.log
    intro status next hended
    have hkeeps := htame.ended? _ _ _ _ (Machine.gives_lookAfter hended)
    exact ⟨h₃.sound.of_keeps hkeeps, h₃.log⟩
  apply (hended.adapt _).bind
  intro status s₄ h₄
  cases status with
  | none => exact ensures_pure h₄
  | some status => exact Op.ensures_throw h₄.log

/-! ## Calls of the cluster -/

theorem ensures_onMachine {op : Bringup σ α} {state : ClusterState σ}
    {after : α → ClusterState σ → Prop} {failed : ClusterState σ → Prop}
    (h : op.Ensures state.machine (fun value next ↦ after value { state with machine := next })
      fun next ↦ failed { state with machine := next }) :
    (onMachine op).Ensures state after failed :=
  Op.ensures_of_run rfl (fun value hvalue ↦ h.gives value _ (Prod.ext hvalue rfl))
    fun cause hcause ↦ h.fails cause _ (Prod.ext hcause rfl)

theorem ensures_launch (hacts : cluster.machine.ActsOn store)
    (hfirm : footing.Firm cluster.config.workDir) (htame : cluster.Tame store footing)
    {home : NodeHome} (hhome : cluster.Houses footing home) (boot : Option Node)
    (hp : ∀ started, cluster.Equips store changes started → p started)
    {state : ClusterState (σ × List (Started σ))}
    (h : Steady store footing changes p state.machine) :
    (cluster.logged.launch home boot).Ensures state
      (fun _ state' ↦ Steady store footing changes p state'.machine)
      fun state' ↦ ∀ started ∈ state'.machine.2, p started := by
  have hstarted : (onMachine (cluster.logged.startProcess home boot)).Ensures state
      (fun _ state' ↦ Steady store footing changes p state'.machine)
      fun state' ↦ ∀ started ∈ state'.machine.2, p started :=
    ensures_onMachine (ensures_startProcess hacts hfirm htame hhome boot hp h)
  apply hstarted.bind
  intro process state' h'
  exact Op.ensures_of_ok rfl h'

/-- A shutdown starts nothing. -/
theorem log_shutdown (cluster : LocalCluster σ) (state : ClusterState (σ × List (Started σ))) :
    (cluster.logged.shutdown.run.run state).2.machine.2 = state.machine.2 := by
  have hlog := congrArg Prod.snd (cluster.foldl_stop_logged state.tracked state.machine)
  exact hlog

end LocalCluster

end BlockWatch
