import BlockWatch.Proofs.Progress.Reports
import BlockWatch.Progress.Wait

/-!
# The course of a wait

The answers of a node to the polls of a wait do not depend on when the wait ends, and neither do
the moments at which its ticks would begin. So what the loop holds at the start of tick `k` is a
function of the answers before it, and one equation says all that a tick can do. A wait whose ticks
before `k` go on is at tick `k` in exactly that state.
-/

namespace BlockWatch

/-- The moment that many nanoseconds from the base, or the clock's last one if that is earlier. -/
def Moment.ofNanos (nanos : ℕ) : Moment :=
  ⟨min nanos (Moment.limit - 1), by
    have : 0 < Moment.limit := by decide
    omega⟩

theorem Moment.nanos_ofNanos {nanos : ℕ} (h : nanos < Moment.limit) :
    (Moment.ofNanos nanos).nanos = nanos := by
  simp only [Moment.ofNanos]
  omega

theorem Moment.ofNanos_nanos (m : Moment) : Moment.ofNanos m.nanos = m :=
  Moment.ext (Moment.nanos_ofNanos m.bounded)

theorem Moment.ofNanos_mono {m n : ℕ} (h : m ≤ n) :
    (Moment.ofNanos m).nanos ≤ (Moment.ofNanos n).nanos := by
  simp only [Moment.ofNanos]
  omega

theorem Moment.later?_ofNanos {nanos : ℕ} {d : Span} (h : nanos + d.nanos < Moment.limit) :
    (Moment.ofNanos nanos).later? d = some (Moment.ofNanos (nanos + d.nanos)) := by
  rw [Moment.later?_eq_some, Moment.nanos_ofNanos h, Moment.nanos_ofNanos (by omega)]

theorem Moment.later?_ofNanos_eq_none {nanos : ℕ} {d : Span} (hnanos : nanos < Moment.limit)
    (h : ¬nanos + d.nanos < Moment.limit) : (Moment.ofNanos nanos).later? d = none := by
  simp only [Moment.later?, Moment.nanos_ofNanos hnanos, dif_neg h]

/-- A report raises the known height or leaves it, and is recorded at what is then known. -/
theorem Progress.observe_ok (p : Progress) (now : Moment) (reported : UInt64) :
    p.observe now (.ok reported) =
      { p with
        latest := max p.latest reported
        window := p.window.record ⟨now, max p.latest reported⟩
        polls := p.polls + 1 } := by
  simp only [Progress.observe, Reports.max_eq_ite]

namespace Stage

variable {τ κ α : Type} (stage : Stage τ κ) (entry : κ) (answer : Answer τ α)

/-- A call is recorded and answered, whether or not the clock can hold the moment of the answer. -/
theorem call_spec :
    (stage.call entry answer).2.calls = stage.calls ++ [entry] ∧
      (stage.call entry answer).2.field = answer.next ∧
      ((stage.call entry answer).1 = .ok answer.outcome ∨
        (stage.call entry answer).1 = .error .moment) := by
  simp only [call, Clock.advance]
  cases stage.clock.now.later? answer.took with
  | none => exact ⟨rfl, rfl, .inr rfl⟩
  | some now => exact ⟨rfl, rfl, .inl rfl⟩

/-- A call does not sleep, and a call that is answered takes the time of its answer. -/
theorem call_clock :
    (stage.call entry answer).2.clock.sleeps = stage.clock.sleeps ∧
      stage.clock.now.nanos ≤ (stage.call entry answer).2.clock.now.nanos ∧
      ∀ reply, (stage.call entry answer).1 = .ok reply →
        (stage.call entry answer).2.clock.now.nanos =
          stage.clock.now.nanos + answer.took.nanos := by
  simp only [call, Clock.advance]
  cases hlater : stage.clock.now.later? answer.took with
  | none => exact ⟨rfl, le_rfl, nofun⟩
  | some now =>
    have hnow := Moment.later?_eq_some.mp hlater
    exact ⟨rfl, hnow ▸ Nat.le_add_right _ _, fun _ _ ↦ hnow⟩

/-- A call runs into a fault only if the clock cannot hold the moment of its answer. -/
theorem call_fault {f : Fault} (h : (stage.call entry answer).1 = .error f) :
    f = .moment ∧ Moment.limit ≤ stage.clock.now.nanos + answer.took.nanos := by
  simp only [call, Clock.advance] at h
  cases hlater : stage.clock.now.later? answer.took with
  | none =>
    rw [hlater] at h
    cases h
    refine ⟨rfl, Nat.le_of_not_lt fun hroom ↦ ?_⟩
    rw [Moment.later?, dif_pos hroom] at hlater
    cases hlater
  | some now =>
    rw [hlater] at h
    cases h

end Stage

namespace Poller

variable {τ : Type} (poller : Poller τ) (node : Node) (field : τ)

/-- The state behind the calls once a node has been polled `k` times. -/
def fieldAfter : ℕ → τ
  | 0 => field
  | k + 1 => (poller node (fieldAfter k)).next

/-- The answer to poll `k` of a node, counted from zero. -/
def answer (k : ℕ) : Answer τ Report := poller node (poller.fieldAfter node field k)

def reports : Reports := fun k ↦ (poller.answer node field k).outcome

end Poller

namespace Wait

variable {τ κ : Type} (wait : Wait τ κ) (stage : Stage τ κ)

/-- The reports of the node from a stage on. -/
def reports : Reports := wait.poller.reports wait.node stage.field

/-- How long poll `k` takes. -/
def took (k : ℕ) : Span := (wait.poller.answer wait.node stage.field k).took

/-- When tick `k` begins, in nanoseconds, if the clock gets there. -/
def opening : ℕ → ℕ
  | 0 => stage.clock.now.nanos
  | k + 1 => opening k + (wait.took stage k).nanos + wait.target.pollInterval.nanos

/-- When poll `k` is answered, in nanoseconds, if the clock gets there. -/
def arrival (k : ℕ) : ℕ := wait.opening stage k + (wait.took stage k).nanos

/-- The samples that the first `n` polls leave. -/
def samples (n : ℕ) : List Sample :=
  (wait.reports stage).samples (fun i ↦ .ofNanos (wait.arrival stage i)) n

/-- What the loop knows at the start of tick `k`. -/
def progressAt (k : ℕ) : Progress where
  latest := (wait.reports stage).peak k
  window := ⟨wait.width, Window.retained wait.width (wait.samples stage k)⟩
  polls := k
  failedPolls := (wait.reports stage).failures k

/-- The stage after some polls and sleeps, at a time. -/
def stageWith (nanos polls sleeps : ℕ) : Stage τ κ where
  clock := {
    now := .ofNanos nanos
    sleeps := stage.clock.sleeps ++ List.replicate sleeps wait.target.pollInterval }
  calls := stage.calls ++ List.replicate polls (wait.entry wait.node)
  field := wait.poller.fieldAfter wait.node stage.field polls

/-- The stage at the start of tick `k`. -/
def stageAt (k : ℕ) : Stage τ κ := wait.stageWith stage (wait.opening stage k) k k

/-- How the wait ends after poll `k`, if it does. -/
def verdictAt (k : ℕ) : Option (Except WaitError WaitOutcome) :=
  (wait.progressAt stage (k + 1)).verdict? wait.node.name wait.target wait.started
    (.ofNanos (wait.arrival stage k))

/-- The deadline has passed at the start of tick `k`. -/
def ExpiredAt (k : ℕ) : Prop :=
  wait.deadline.expired (.ofNanos (wait.opening stage k)) = true

/-- Tick `k` ends in sleep, and the wait goes on. -/
structure GoesOn (k : ℕ) : Prop where
  notExpired : ¬wait.ExpiredAt stage k
  answered : wait.arrival stage k < Moment.limit
  undecided : wait.verdictAt stage k = none
  slept : wait.opening stage (k + 1) < Moment.limit

variable {wait stage}

/-! ## When ticks begin -/

section

variable {σ ξ : Type} {other : Wait σ ξ} {echo : Stage σ ξ}
  (hnow : echo.clock.now = stage.clock.now)
  (htook : ∀ k, other.took echo k = wait.took stage k)
  (hinterval : other.target.pollInterval = wait.target.pollInterval)
include hnow htook hinterval

/-- Ticks begin as the start, the interval and the time of polls say, whatever else a wait is for. -/
theorem opening_congr (k : ℕ) : other.opening echo k = wait.opening stage k := by
  induction k with
  | zero => exact congrArg Moment.nanos hnow
  | succ k ih => rw [opening, opening, ih, htook, hinterval]

theorem arrival_congr (k : ℕ) : other.arrival echo k = wait.arrival stage k := by
  rw [arrival, arrival, opening_congr hnow htook hinterval, htook]

end

/-! ## One tick -/

theorem arrival_mono : Monotone fun i ↦ (Moment.ofNanos (wait.arrival stage i)).nanos := by
  refine monotone_nat_of_le_succ fun i ↦ Moment.ofNanos_mono ?_
  simp only [arrival, opening]
  omega

theorem inTimeOrder_samples (n : ℕ) : InTimeOrder (wait.samples stage n) :=
  Reports.inTimeOrder_samples arrival_mono n

theorem progressAt_zero : wait.progressAt stage 0 = { window := { width := wait.width } } := rfl

theorem stageAt_zero : wait.stageAt stage 0 = stage := by
  simp [stageAt, stageWith, opening, Poller.fieldAfter, Moment.ofNanos_nanos]

/-- Taking in the answer to poll `k` gives what is known at the start of the next tick. -/
theorem observe_progressAt (k : ℕ) :
    (wait.progressAt stage k).observe (.ofNanos (wait.arrival stage k)) (wait.reports stage k) =
      wait.progressAt stage (k + 1) := by
  cases h : wait.reports stage k with
  | error cause =>
    simp only [Progress.observe, progressAt, samples, Reports.peak_succ_of_error h,
      Reports.failures_succ_of_error h, Reports.samples_succ_of_error h]
  | ok height =>
    have hsamples : wait.samples stage (k + 1) = wait.samples stage k ++
        [⟨.ofNanos (wait.arrival stage k), (wait.reports stage).peak (k + 1)⟩] :=
      Reports.samples_succ_of_ok h
    have hsorted : InTimeOrder (wait.samples stage (k + 1)) := inTimeOrder_samples (k + 1)
    rw [hsamples] at hsorted
    rw [Progress.observe_ok]
    simp only [progressAt, ← Reports.peak_succ_of_ok h, Reports.failures_succ_of_ok h,
      Window.record_retained hsorted, hsamples]

/-- A poll that the clock can time is recorded, and the stage moves to the moment of its answer. -/
theorem call_stageAt {k : ℕ} (hopen : wait.opening stage k < Moment.limit) :
    (wait.stageAt stage k).call (wait.entry wait.node)
        (wait.poller wait.node (wait.stageAt stage k).field) =
      if wait.arrival stage k < Moment.limit then
        (.ok (wait.reports stage k), wait.stageWith stage (wait.arrival stage k) (k + 1) k)
      else (.error .moment, wait.stageWith stage (wait.opening stage k) (k + 1) k) := by
  have hcalls : stage.calls ++ List.replicate k (wait.entry wait.node) ++ [wait.entry wait.node] =
      stage.calls ++ List.replicate (k + 1) (wait.entry wait.node) := by
    rw [List.append_assoc, ← List.replicate_succ']
  split_ifs with harrival
  · have hlater := Moment.later?_ofNanos harrival
    simp only [Stage.call, stageAt, stageWith, Clock.advance, hcalls]
    rw [show (wait.poller wait.node (wait.poller.fieldAfter wait.node stage.field k)).took =
      wait.took stage k from rfl, hlater]
    rfl
  · have hlater := Moment.later?_ofNanos_eq_none hopen harrival
    simp only [Stage.call, stageAt, stageWith, Clock.advance, hcalls]
    rw [show (wait.poller wait.node (wait.poller.fieldAfter wait.node stage.field k)).took =
      wait.took stage k from rfl, hlater]
    rfl

theorem sleep_stageWith {k : ℕ} (harrival : wait.arrival stage k < Moment.limit) :
    (wait.stageWith stage (wait.arrival stage k) (k + 1) k).clock.sleep wait.target.pollInterval =
      if wait.opening stage (k + 1) < Moment.limit then .ok (wait.stageAt stage (k + 1)).clock
      else .error .moment := by
  split_ifs with hnext
  · have hlater := Moment.later?_ofNanos hnext
    simp only [Clock.sleep, stageAt, stageWith]
    rw [show wait.arrival stage k = wait.opening stage k + (wait.took stage k).nanos from rfl,
      hlater, List.append_assoc, ← List.replicate_succ']
    rfl
  · have hlater := Moment.later?_ofNanos_eq_none harrival hnext
    simp only [Clock.sleep, stageWith, hlater]

theorem ticks_of_expired {k room : ℕ} (h : wait.ExpiredAt stage k) :
    wait.ticks room (wait.progressAt stage k) (wait.stageAt stage k) =
      (.error (.error (.deadlineExceeded wait.node.name wait.target.height
        ((wait.reports stage).peak k) (wait.deadline.elapsed (.ofNanos (wait.opening stage k)))
        wait.deadline.limit)), wait.stageAt stage k) := by
  have hnow : wait.deadline.expired (wait.stageAt stage k).clock.now = true := h
  cases room with
  | zero =>
    rw [ticks, if_pos hnow]
    rfl
  | succ room =>
    rw [ticks, if_pos hnow]
    rfl

/-- The counter of polls has no room left. -/
theorem ticks_zero {k : ℕ} (h : ¬wait.ExpiredAt stage k) :
    wait.ticks 0 (wait.progressAt stage k) (wait.stageAt stage k) =
      (.error (.fault .sum), wait.stageAt stage k) := by
  have hnow : ¬wait.deadline.expired (wait.stageAt stage k).clock.now = true := h
  rw [ticks, if_neg hnow]

/-- All that a tick with room for a poll can do before the deadline. -/
theorem ticks_succ {k room : ℕ} (hopen : wait.opening stage k < Moment.limit)
    (h : ¬wait.ExpiredAt stage k) :
    wait.ticks (room + 1) (wait.progressAt stage k) (wait.stageAt stage k) =
      if wait.arrival stage k < Moment.limit then
        match wait.verdictAt stage k with
        | some verdict =>
          (verdict.mapError .error, wait.stageWith stage (wait.arrival stage k) (k + 1) k)
        | none =>
          if wait.opening stage (k + 1) < Moment.limit then
            wait.ticks room (wait.progressAt stage (k + 1)) (wait.stageAt stage (k + 1))
          else
            (.error (.fault .moment), wait.stageWith stage (wait.arrival stage k) (k + 1) k)
      else (.error (.fault .moment), wait.stageWith stage (wait.opening stage k) (k + 1) k) := by
  have hnow : ¬wait.deadline.expired (wait.stageAt stage k).clock.now = true := h
  rw [ticks, if_neg hnow, call_stageAt hopen]
  by_cases harrival : wait.arrival stage k < Moment.limit
  · rw [if_pos harrival, if_pos harrival]
    have htime : (wait.stageWith stage (wait.arrival stage k) (k + 1) k).clock.now =
        .ofNanos (wait.arrival stage k) := rfl
    have hverdict : (wait.progressAt stage (k + 1)).verdict? wait.node.name wait.target
        wait.started (.ofNanos (wait.arrival stage k)) = wait.verdictAt stage k := rfl
    simp only [htime, observe_progressAt, hverdict, sleep_stageWith harrival]
    cases wait.verdictAt stage k with
    | some verdict => rfl
    | none =>
      by_cases hnext : wait.opening stage (k + 1) < Moment.limit
      · simp only [if_pos hnext]
        rfl
      · simp only [if_neg hnext]
  · rw [if_neg harrival, if_neg harrival]

/-! ## Ticks in a row -/

theorem opening_lt_of_goesOn {k : ℕ} (h : ∀ i < k, wait.GoesOn stage i) :
    wait.opening stage k < Moment.limit := by
  cases k with
  | zero => exact stage.clock.now.bounded
  | succ k => exact (h k (Nat.lt_succ_self k)).slept

theorem run_eq_ticks {k : ℕ} (hroom : k ≤ maxPolls) (h : ∀ i < k, wait.GoesOn stage i) :
    wait.run stage =
      wait.ticks (maxPolls - k) (wait.progressAt stage k) (wait.stageAt stage k) := by
  induction k with
  | zero => rw [Nat.sub_zero, progressAt_zero, stageAt_zero, run]
  | succ k ih =>
    have hbefore : ∀ i < k, wait.GoesOn stage i := fun i hi ↦ h i (hi.trans (Nat.lt_succ_self k))
    have htick := h k (Nat.lt_succ_self k)
    have hspare : maxPolls - k = maxPolls - (k + 1) + 1 := by omega
    rw [ih (by omega) hbefore, hspare, ticks_succ (opening_lt_of_goesOn hbefore) htick.notExpired,
      if_pos htick.answered, htick.undecided]
    exact if_pos htick.slept

/-! ## Polls -/

variable (wait stage) in
/-- The wait makes poll `k`. -/
def Issues (k : ℕ) : Prop := stage.calls.length + k < (wait.run stage).2.calls.length

theorem length_calls_stageWith (nanos polls sleeps : ℕ) :
    (wait.stageWith stage nanos polls sleeps).calls.length = stage.calls.length + polls := by
  simp [stageWith]

end Wait

end BlockWatch
