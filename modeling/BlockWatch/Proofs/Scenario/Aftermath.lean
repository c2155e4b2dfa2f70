import BlockWatch.Proofs.Cluster.Starts
import BlockWatch.Proofs.Progress.Ending
import BlockWatch.Proofs.Scenario.Acts

/-!
# What acts leave behind the calls

An act leaves the site alone but for its calls and polls. So what is known of the state of the site
is carried from one part of a run to the next by what the operations behind the calls ensure,
and by what a poll keeps. A call may fail although what is behind it succeeds.
-/

namespace BlockWatch

open Op (Gives Ensures)

namespace Scenario

variable {τ α β : Type} {s : RunState τ} {after : α → τ → Prop} {failed : τ → Prop}

/-- What an act leaves behind the calls, if it goes on and if it stops the run. -/
def Brings (act : Act τ α) (s : RunState τ) (after : α → τ → Prop) (failed : τ → Prop) : Prop :=
  Ensures act s (fun value s' ↦ after value s'.stage.field) fun s' ↦ failed s'.stage.field

theorem brings_pure {value : α} (h : after value s.stage.field) :
    Brings (pure value : Act τ α) s after failed :=
  Op.ensures_pure h

theorem Brings.bind {act : Act τ α} {f : α → Act τ β} {last : β → τ → Prop}
    (h : Brings act s after failed)
    (hf : ∀ value s', after value s'.stage.field → Brings (f value) s' last failed) :
    Brings (act >>= f) s last failed :=
  Ensures.bind h hf

theorem brings_get {inv : τ → Prop} (h : inv s.stage.field) :
    Brings (get : Act τ (RunState τ)) s (fun _ ↦ inv) failed :=
  Op.ensures_of_ok rfl h

theorem brings_enter {inv : τ → Prop} (phase : Phase) (h : inv s.stage.field) :
    Brings (enter phase) s (fun _ ↦ inv) failed :=
  Op.ensures_of_ok rfl h

theorem brings_abort {reason : AbortReason} (h : failed s.stage.field) :
    Brings (abort reason : Act τ α) s after failed :=
  Op.ensures_of_error rfl h

theorem brings_orFault {outcome : Except Fault α} (h : failed s.stage.field) :
    Brings (orFault outcome : Act τ α) s (fun value field ↦ outcome = .ok value ∧ failed field)
      failed := by
  cases outcome with
  | ok value => exact Op.ensures_pure ⟨rfl, h⟩
  | error f => exact Op.ensures_throw h

/-- A call of bringup leaves what the operation behind it leaves. It may fail after a success, if the
clock cannot hold the moment of the answer. -/
theorem brings_bringup {entry : Call} {answer : τ → Answer τ (Except (Stop BringupError) α)}
    {op : Bringup τ α} (hanswer : ∀ field, ((answer field).outcome, (answer field).next) =
      op.run.run field) (h : op.Ensures s.stage.field after failed)
    (hless : ∀ value field, after value field → failed field) :
    Brings (bringup entry answer) s after failed := by
  obtain ⟨-, hfield, houtcome⟩ := s.stage.call_spec entry (answer s.stage.field)
  have hrun := run_bringup entry answer s
  have hgives (value : α) (hvalue : (answer s.stage.field).outcome = .ok value) :
      after value (answer s.stage.field).next := by
    apply h.gives
    rw [Gives, ← hanswer, hvalue]
  have hfails (stop : Stop BringupError) (hstop : (answer s.stage.field).outcome = .error stop) :
      failed (answer s.stage.field).next := by
    apply h.fails stop
    rw [← hanswer, hstop]
  have hfailed : failed (answer s.stage.field).next := by
    cases hreply : (answer s.stage.field).outcome with
    | ok value => exact hless value _ (hgives value hreply)
    | error stop => exact hfails stop hreply
  generalize s.stage.call entry (answer s.stage.field) = called at hfield houtcome hrun
  obtain ⟨outcome, stage⟩ := called
  replace hfield : stage.field = (answer s.stage.field).next := hfield
  rw [← hfield] at hgives hfailed
  rcases houtcome with rfl | rfl
  · cases hreply : (answer s.stage.field).outcome with
    | ok value =>
      rw [hreply] at hrun
      exact Op.ensures_of_ok hrun (hgives value hreply)
    | error stop =>
      rw [hreply] at hrun
      cases stop <;> exact Op.ensures_of_error hrun hfailed
  · exact Op.ensures_of_error hrun hfailed

variable {scenario : Scenario τ}

/-- A wait leaves what its polls leave. -/
theorem brings_await {inv : τ → Prop}
    (hpoll : ∀ node field, inv field → inv (scenario.site.poll node field).next)
    (deadline : Deadline) (node : Node) (target : WaitTarget) (h : inv s.stage.field)
    (hless : ∀ field, inv field → failed field) :
    Brings (scenario.await deadline node target) s (fun _ ↦ inv) failed := by
  let wait := scenario.watching deadline node target s
  obtain ⟨nanos, polls, sleeps, hstage⟩ := wait.run_stageWith s.stage
  have hafter (n : ℕ) : inv (scenario.site.poll.fieldAfter node s.stage.field n) := by
    induction n with
    | zero => exact h
    | succ n ih => exact hpoll node _ ih
  have hfield : inv (wait.run s.stage).2.field := by
    rw [hstage]
    exact hafter polls
  have hrun := scenario.run_await deadline node target s
  have hwait : scenario.watching deadline node target s = wait := rfl
  rw [hwait] at hrun
  generalize wait.run s.stage = waited at hfield hrun
  rcases waited with ⟨(cause | f) | found, stage⟩
  · exact Op.ensures_of_error hrun (hless _ hfield)
  · exact Op.ensures_of_error hrun (hless _ hfield)
  · exact Op.ensures_of_ok hrun hfield

theorem Brings.mono {last : α → τ → Prop} {lost : τ → Prop} {act : Act τ α}
    (h : Brings act s after failed) (hlast : ∀ value field, after value field → last value field)
    (hlost : ∀ field, failed field → lost field) : Brings act s last lost :=
  ⟨fun value s' hgives ↦ hlast value _ (h.gives value s' hgives),
    fun cause s' hfails ↦ hlost _ (h.fails cause s' hfails)⟩

/-- What a run leaves and its shutdown keeps. -/
theorem field_run {inv : τ → Prop} (h : Brings scenario.execute s (fun _ ↦ inv) inv)
    (hclose : ∀ field, inv field → inv (scenario.site.shutdown field).next) :
    inv (scenario.run s).2.stage.field := by
  have hshutdown (s : RunState τ) (hs : inv s.stage.field) :
      inv (scenario.shutdown s).2.stage.field := by
    obtain ⟨-, hfield, -⟩ :=
      s.stage.call_spec Call.shutdown (scenario.site.shutdown s.stage.field)
    have hnext := hclose _ hs
    rw [← hfield] at hnext
    unfold shutdown
    generalize s.stage.call Call.shutdown (scenario.site.shutdown s.stage.field) = called at hnext
    rcases called with ⟨f | (_ | _) | value, stage⟩ <;> exact hnext
  have hgives := h.gives
  have hfails := h.fails
  unfold Gives at hgives
  unfold run
  generalize scenario.execute.run.run s = executed at hgives hfails
  obtain ⟨outcome, next⟩ := executed
  cases outcome with
  | ok report =>
    have hclosed := hshutdown next (hgives report next rfl)
    dsimp only
    generalize scenario.shutdown next = closed at hclosed
    rcases closed with ⟨f | _, last⟩ <;> exact hclosed
  | error stop =>
    have hnext := hfails stop next rfl
    cases stop with
    | fault f => exact hnext
    | error cause =>
      have hclosed := hshutdown next hnext
      dsimp only
      generalize scenario.shutdown next = closed at hclosed
      rcases closed with ⟨f | _, last⟩ <;> exact hclosed

end Scenario

end BlockWatch
