import BlockWatch.Time.Clock
import Mathlib.Algebra.Order.Ring.Nat

/-!
# Clocks and deadlines

A clock has moved by exactly the spans of the calls that it accepted, and it refuses a call only if
the moment after it is out of range. So a deadline that was started on a clock tells two ways, and
always alike, whether its time has passed: by what is left of it, and by what has elapsed. Once its
time has passed no call brings it back.
-/

namespace BlockWatch

/-- A call that moves a clock. The clones of a clock share its time and its sleeps, so it makes no
difference on which of them a call is made. -/
inductive ClockCall
  | advance (d : Span)
  | sleep (d : Span)

namespace ClockCall

def span : ClockCall → Span
  | advance d => d
  | sleep d => d

def sleep? : ClockCall → Option Span
  | advance _ => none
  | sleep d => some d

def perform (clock : Clock) : ClockCall → Except Fault Clock
  | advance d => clock.advance d
  | sleep d => clock.sleep d

end ClockCall

namespace Clock

/-- The clock after a call. A call that is refused leaves it as it was. -/
def after (clock : Clock) (call : ClockCall) : Clock :=
  match call.perform clock with
  | .ok next => next
  | .error _ => clock

def afterAll (clock : Clock) (calls : List ClockCall) : Clock := calls.foldl after clock

/-- The calls that are not refused, in order. -/
def accepted (clock : Clock) : List ClockCall → List ClockCall
  | [] => []
  | call :: rest =>
    match call.perform clock with
    | .ok next => call :: next.accepted rest
    | .error _ => clock.accepted rest

/-- The later clock is what the calls make of the clock when it accepts all of them: it has moved
by the sum of their spans, the nanoseconds carried into the seconds, and its sleeps were extended
by theirs. -/
structure IsMovedBy (clock later : Clock) (calls : List ClockCall) : Prop where
  now : later.now.nanos = clock.now.nanos + (calls.map (·.span.nanos)).sum
  seconds : (later.now.since clock.now).seconds =
    (calls.map (·.span.seconds)).sum + (calls.map (·.span.subsecond)).sum / nanosPerSecond
  subsecond : (later.now.since clock.now).subsecond =
    (calls.map (·.span.subsecond)).sum % nanosPerSecond
  sleeps : later.sleeps = clock.sleeps ++ calls.filterMap (·.sleep?)

/-- The clock does as it is told by a call if it reaches the moment after the call. Otherwise the
call is a fault, and changes neither the time nor the sleeps. -/
structure Admits (clock : Clock) (call : ClockCall) : Prop where
  accepts : clock.now.nanos + call.span.nanos < Moment.limit →
    call.perform clock = .ok (clock.after call) ∧ clock.IsMovedBy (clock.after call) [call]
  refuses : Moment.limit ≤ clock.now.nanos + call.span.nanos →
    call.perform clock = .error .moment ∧ clock.after call = clock

variable (clock : Clock) (call : ClockCall) (calls before rest : List ClockCall)

/-! ## One call -/

/-- All that a call can do. -/
theorem perform_cases :
    (∃ next, call.perform clock = .ok next ∧
      next.now.nanos = clock.now.nanos + call.span.nanos ∧
      next.sleeps = clock.sleeps ++ call.sleep?.toList) ∨
    call.perform clock = .error .moment ∧
      Moment.limit ≤ clock.now.nanos + call.span.nanos := by
  cases hlater : clock.now.later? call.span with
  | none =>
    right
    constructor
    · cases call with
      | advance d => rw [ClockCall.perform, advance, show clock.now.later? d = none from hlater]
      | sleep d => rw [ClockCall.perform, sleep, show clock.now.later? d = none from hlater]
    · refine Nat.le_of_not_lt fun hroom ↦ ?_
      rw [Moment.later?, dif_pos hroom] at hlater
      cases hlater
  | some now =>
    left
    have hnow := Moment.later?_eq_some.mp hlater
    cases call with
    | advance d =>
      refine ⟨{ clock with now }, ?_, hnow, (List.append_nil _).symm⟩
      rw [ClockCall.perform, advance, show clock.now.later? d = some now from hlater]
    | sleep d =>
      refine ⟨{ now, sleeps := clock.sleeps ++ [d] }, ?_, hnow, rfl⟩
      rw [ClockCall.perform, sleep, show clock.now.later? d = some now from hlater]

theorem le_after : clock.now.nanos ≤ (clock.after call).now.nanos := by
  rcases perform_cases clock call with ⟨next, hnext, hnow, -⟩ | ⟨hrefused, -⟩
  · simp only [after, hnext, hnow]
    exact Nat.le_add_right _ _
  · simp only [after, hrefused, Nat.le_refl]

/-! ## All calls -/

theorem le_afterAll : clock.now.nanos ≤ (clock.afterAll calls).now.nanos := by
  induction calls generalizing clock with
  | nil => exact Nat.le_refl _
  | cons call rest ih => exact Nat.le_trans (clock.le_after call) (ih (clock.after call))

variable {clock} {call} in
theorem accepted_cons_of_ok {next : Clock} (hnext : call.perform clock = .ok next) :
    clock.accepted (call :: rest) = call :: next.accepted rest ∧
      clock.afterAll (call :: rest) = next.afterAll rest := by
  simp only [accepted, afterAll, List.foldl_cons, after, hnext, and_self]

variable {clock} {call} in
theorem accepted_cons_of_error {fault : Fault} (hrefused : call.perform clock = .error fault) :
    clock.accepted (call :: rest) = clock.accepted rest ∧
      clock.afterAll (call :: rest) = clock.afterAll rest := by
  simp only [accepted, afterAll, List.foldl_cons, after, hrefused, and_self]

theorem nanos_afterAll :
    (clock.afterAll calls).now.nanos =
      clock.now.nanos + ((clock.accepted calls).map (·.span.nanos)).sum := by
  induction calls generalizing clock with
  | nil => rfl
  | cons call rest ih =>
    rcases perform_cases clock call with ⟨next, hnext, hnow, -⟩ | ⟨hrefused, -⟩
    · obtain ⟨haccepted, hafter⟩ := accepted_cons_of_ok rest hnext
      rw [haccepted, hafter, ih, hnow, List.map_cons, List.sum_cons, Nat.add_assoc]
    · obtain ⟨haccepted, hafter⟩ := accepted_cons_of_error rest hrefused
      rw [haccepted, hafter, ih]

theorem sleeps_afterAll :
    (clock.afterAll calls).sleeps =
      clock.sleeps ++ (clock.accepted calls).filterMap (·.sleep?) := by
  induction calls generalizing clock with
  | nil => exact (List.append_nil _).symm
  | cons call rest ih =>
    rcases perform_cases clock call with ⟨next, hnext, -, hsleeps⟩ | ⟨hrefused, -⟩
    · obtain ⟨haccepted, hafter⟩ := accepted_cons_of_ok rest hnext
      rw [haccepted, hafter, ih, hsleeps, List.append_assoc, List.filterMap_cons]
      cases call <;> rfl
    · obtain ⟨haccepted, hafter⟩ := accepted_cons_of_error rest hrefused
      rw [haccepted, hafter, ih]

/-- Adding up spans is adding up their seconds and their nanoseconds apart. -/
theorem sum_nanos :
    (calls.map (·.span.nanos)).sum =
      (calls.map (·.span.seconds)).sum * nanosPerSecond + (calls.map (·.span.subsecond)).sum := by
  induction calls with
  | nil => rfl
  | cons call rest ih =>
    simp only [List.map_cons, List.sum_cons, ih, ← call.span.seconds_subsecond, Nat.add_mul]
    omega

variable {clock calls} in
/-- Time that is exact in nanoseconds is carried right. -/
theorem IsMovedBy.of_nanos {later : Clock}
    (hnow : later.now.nanos = clock.now.nanos + (calls.map (·.span.nanos)).sum)
    (hsleeps : later.sleeps = clock.sleeps ++ calls.filterMap (·.sleep?)) :
    clock.IsMovedBy later calls := by
  have hsince : (later.now.since clock.now).nanos =
      (calls.map (·.span.subsecond)).sum +
        (calls.map (·.span.seconds)).sum * nanosPerSecond := by
    rw [Moment.nanos_since, hnow, Nat.add_sub_cancel_left, sum_nanos, Nat.add_comm]
  have hunit : 0 < nanosPerSecond := by decide
  refine ⟨hnow, ?_, ?_, hsleeps⟩
  · rw [Span.seconds, hsince, Nat.add_mul_div_right _ _ hunit, Nat.add_comm]
  · rw [Span.subsecond, hsince, Nat.add_mul_mod_self_right]

theorem isMovedBy_afterAll : clock.IsMovedBy (clock.afterAll calls) (clock.accepted calls) :=
  .of_nanos (nanos_afterAll clock calls) (sleeps_afterAll clock calls)

theorem admits : clock.Admits call := by
  rcases perform_cases clock call with ⟨next, hnext, -⟩ | ⟨hrefused, hfar⟩
  · have hafter : clock.after call = next := by simp only [after, hnext]
    have hmoved := isMovedBy_afterAll clock [call]
    obtain ⟨haccepted, hafterAll⟩ := accepted_cons_of_ok [] hnext
    rw [haccepted, hafterAll] at hmoved
    have hbound := next.now.bounded
    have hnow := hmoved.now
    refine ⟨fun _ ↦ ⟨hafter ▸ hnext, hafter ▸ hmoved⟩, fun hfar ↦ ?_⟩
    simp only [accepted, List.map_cons, List.map_nil, List.sum_cons, List.sum_nil, afterAll,
      List.foldl_nil] at hnow
    omega
  · exact ⟨fun hroom ↦ absurd hroom (Nat.not_lt.mpr hfar),
      fun _ ↦ ⟨hrefused, by simp only [after, hrefused]⟩⟩

end Clock

namespace Deadline

/-! ## A deadline -/

/-- What a deadline tells of the time on a clock: it has expired just when nothing is left of it.
What is left makes up the limit with what has elapsed, and is the shortest sleep after which the
deadline has expired. An expired one remains so. -/
structure Tells (deadline : Deadline) (clock : Clock) : Prop where
  expired_iff : deadline.expired clock.now = true ↔ deadline.remaining clock.now = none
  left_pos : ∀ left, deadline.remaining clock.now = some left → Span.zero < left
  left_add_elapsed : ∀ left, deadline.remaining clock.now = some left →
    left.add? (deadline.elapsed clock.now) = some deadline.limit
  expired_sleep_iff : ∀ left, deadline.remaining clock.now = some left →
    ∀ d next, clock.sleep d = .ok next → (deadline.expired next.now = true ↔ left ≤ d)
  stays_expired : deadline.expired clock.now = true →
    ∀ calls, deadline.expired (clock.afterAll calls).now = true

variable {deadline : Deadline} {now : Moment}

theorem expired_iff_le :
    deadline.expired now = true ↔ deadline.limit.nanos ≤ now.nanos - deadline.startedAt.nanos :=
  decide_eq_true_iff

theorem remaining_eq_some_iff {left : Span} :
    deadline.remaining now = some left ↔
      left.nanos + (now.nanos - deadline.startedAt.nanos) = deadline.limit.nanos ∧
        0 < left.nanos := by
  rw [remaining, Option.filter_eq_some_iff, Span.sub?_eq_some]
  refine and_congr_right fun _ ↦ ?_
  simp only [Span.isZero, Bool.not_eq_true', beq_eq_false_iff_ne, ne_eq, Nat.pos_iff_ne_zero]

theorem remaining_eq_none_iff :
    deadline.remaining now = none ↔
      deadline.limit.nanos ≤ now.nanos - deadline.startedAt.nanos := by
  constructor
  · intro hnone
    refine Nat.le_of_not_lt fun hleft ↦ ?_
    have hbound := deadline.limit.bounded
    let left : Span := ⟨deadline.limit.nanos - (now.nanos - deadline.startedAt.nanos), by omega⟩
    have hsome : deadline.remaining now = some left := remaining_eq_some_iff.mpr
      ⟨Nat.sub_add_cancel (Nat.le_of_lt hleft), Nat.sub_pos_of_lt hleft⟩
    rw [hnone] at hsome
    cases hsome
  · intro hle
    refine Option.eq_none_iff_forall_ne_some.mpr fun left hleft ↦ ?_
    obtain ⟨hsum, hpos⟩ := remaining_eq_some_iff.mp hleft
    omega

theorem tells {clock : Clock} (hstart : deadline.startedAt.nanos ≤ clock.now.nanos) :
    deadline.Tells clock where
  expired_iff := expired_iff_le.trans remaining_eq_none_iff.symm
  left_pos left hleft := (remaining_eq_some_iff.mp hleft).2
  left_add_elapsed left hleft :=
    Span.ofNanos?_eq_some.mpr (remaining_eq_some_iff.mp hleft).1.symm
  expired_sleep_iff left hleft d next hnext := by
    obtain ⟨hsum, -⟩ := remaining_eq_some_iff.mp hleft
    have hmoved := (clock.isMovedBy_afterAll [.sleep d]).now
    have hperform : ClockCall.perform clock (.sleep d) = .ok next := hnext
    obtain ⟨haccepted, hafter⟩ := Clock.accepted_cons_of_ok [] hperform
    rw [haccepted, hafter] at hmoved
    have hnow : next.now.nanos = clock.now.nanos + d.nanos := hmoved
    rw [expired_iff_le, hnow, Span.le_def]
    omega
  stays_expired hexpired calls := by
    have hlater := clock.le_afterAll calls
    rw [expired_iff_le] at hexpired ⊢
    omega

end Deadline

/-! ## Clocks and deadlines together -/

/-- After any calls a clock has moved by those that it accepted, and it refuses a further one just
if the moment after it is out of range. A deadline that was started on it at any time before tells
the time. -/
theorem Clock.isMovedBy_admits_tells (clock : Clock) (before rest : List ClockCall) :
    clock.IsMovedBy (clock.afterAll (before ++ rest)) (clock.accepted (before ++ rest)) ∧
    (∀ call, (clock.afterAll (before ++ rest)).Admits call) ∧
    ∀ limit, (Deadline.start (clock.afterAll before) limit).Tells
      (clock.afterAll (before ++ rest)) := by
  refine ⟨clock.isMovedBy_afterAll _, fun call ↦ Clock.admits _ call, fun limit ↦ ?_⟩
  have hsplit : clock.afterAll (before ++ rest) = (clock.afterAll before).afterAll rest :=
    List.foldl_append
  rw [hsplit]
  exact Deadline.tells ((clock.afterAll before).le_afterAll rest)

-- 0.6 s and 0.7 s of sleep carry one second over.
example :
    let later := Clock.afterAll {} [.sleep ⟨600000000, by decide⟩, .sleep ⟨700000000, by decide⟩]
    (later.now.since .base).seconds = 1 ∧ (later.now.since .base).subsecond = 300000000 := by
  decide

end BlockWatch
