import BlockWatch.Proofs.Progress.Course

/-!
# How a wait ends

Every wait has a last tick. All ticks before it end in sleep, and what happens at it decides what the
wait returns and which stage it leaves. So whatever is true of the last tick of every wait is true of
every wait, however its node answers and however long the answers take.
-/

namespace BlockWatch

namespace Wait

variable {τ κ : Type} (wait : Wait τ κ) (stage : Stage τ κ)

/-- The wait polls at tick `k` if it comes to it. -/
structure PollsAt (k : ℕ) : Prop where
  notExpired : ¬wait.ExpiredAt stage k
  hasRoom : k < maxPolls

/-- What can happen at the last tick of a wait, with what the wait returns and the stage it leaves. -/
inductive EndsAt (k : ℕ) : Outcome → Stage τ κ → Prop
  | late (hexpired : wait.ExpiredAt stage k) :
      EndsAt k
        (.error (.error (.deadlineExceeded wait.node.name wait.target.height
          ((wait.reports stage).peak k) (wait.deadline.elapsed (.ofNanos (wait.opening stage k)))
          wait.deadline.limit)))
        (wait.stageAt stage k)
  | decided {verdict : Except WaitError WaitOutcome} (hpolls : wait.PollsAt stage k)
      (hanswered : wait.arrival stage k < Moment.limit)
      (hverdict : wait.verdictAt stage k = some verdict) :
      EndsAt k (verdict.mapError .error)
        (wait.stageWith stage (wait.arrival stage k) (k + 1) k)
  /-- The counter has no room for the next poll. -/
  | exhausted (hnot : ¬wait.ExpiredAt stage k) (hroom : k = maxPolls) :
      EndsAt k (.error (.fault .sum)) (wait.stageAt stage k)
  /-- The clock has no room for the moment of the answer. -/
  | unanswered (hpolls : wait.PollsAt stage k) (hlong : Moment.limit ≤ wait.arrival stage k) :
      EndsAt k (.error (.fault .moment)) (wait.stageWith stage (wait.opening stage k) (k + 1) k)
  /-- The clock has no room for the moment after the sleep. -/
  | sleepless (hpolls : wait.PollsAt stage k) (hanswered : wait.arrival stage k < Moment.limit)
      (hlong : Moment.limit ≤ wait.opening stage (k + 1)) :
      EndsAt k (.error (.fault .moment)) (wait.stageWith stage (wait.arrival stage k) (k + 1) k)

variable {wait stage}

/-- From a tick on that the wait comes to, the loop ends at some tick. -/
theorem exists_endsAt_ticks {k room : ℕ} (hbefore : ∀ i < k, wait.GoesOn stage i)
    (hroom : k + room = maxPolls) :
    ∃ last ≤ maxPolls, (∀ i < last, wait.GoesOn stage i) ∧
      wait.EndsAt stage last
        (wait.ticks room (wait.progressAt stage k) (wait.stageAt stage k)).1
        (wait.ticks room (wait.progressAt stage k) (wait.stageAt stage k)).2 := by
  have hcount : k ≤ maxPolls := by omega
  induction room generalizing k with
  | zero =>
    refine ⟨k, hcount, hbefore, ?_⟩
    by_cases hexpired : wait.ExpiredAt stage k
    · rw [ticks_of_expired hexpired]
      exact .late hexpired
    · rw [ticks_zero hexpired]
      exact .exhausted hexpired hroom
  | succ room ih =>
    by_cases hexpired : wait.ExpiredAt stage k
    · rw [ticks_of_expired hexpired]
      exact ⟨k, hcount, hbefore, .late hexpired⟩
    have hpolls : wait.PollsAt stage k := ⟨hexpired, by omega⟩
    rw [ticks_succ (opening_lt_of_goesOn hbefore) hexpired]
    by_cases hanswered : wait.arrival stage k < Moment.limit
    · rw [if_pos hanswered]
      cases hverdict : wait.verdictAt stage k with
      | some verdict => exact ⟨k, hcount, hbefore, .decided hpolls hanswered hverdict⟩
      | none =>
        by_cases hslept : wait.opening stage (k + 1) < Moment.limit
        · have htick : wait.GoesOn stage k := ⟨hexpired, hanswered, hverdict, hslept⟩
          have hall : ∀ i < k + 1, wait.GoesOn stage i := fun i hi ↦
            (Nat.lt_succ_iff_lt_or_eq.mp hi).elim (hbefore i) fun heq ↦ heq ▸ htick
          simp only [if_pos hslept]
          exact ih hall (by omega) (by omega)
        · simp only [if_neg hslept]
          exact ⟨k, hcount, hbefore, .sleepless hpolls hanswered (Nat.le_of_not_lt hslept)⟩
    · rw [if_neg hanswered]
      exact ⟨k, hcount, hbefore, .unanswered hpolls (Nat.le_of_not_lt hanswered)⟩

variable (wait stage) in
/-- Every wait ends at some tick, whatever its node answers. -/
theorem exists_endsAt :
    ∃ last ≤ maxPolls, (∀ i < last, wait.GoesOn stage i) ∧
      wait.EndsAt stage last (wait.run stage).1 (wait.run stage).2 := by
  have hstart : ∀ i < 0, wait.GoesOn stage i := fun i hi ↦ absurd hi (Nat.not_lt_zero i)
  have hticks := exists_endsAt_ticks hstart (Nat.zero_add maxPolls)
  rwa [progressAt_zero, stageAt_zero] at hticks

/-! ## Waits that come to a tick -/

section

variable {k : ℕ} (hbefore : ∀ i < k, wait.GoesOn stage i)
include hbefore

/-- A wait that comes to a tick at the deadline ends there, without a poll. -/
theorem run_of_expiredAt (hroom : k ≤ maxPolls) (hexpired : wait.ExpiredAt stage k) :
    wait.run stage =
      (.error (.error (.deadlineExceeded wait.node.name wait.target.height
        ((wait.reports stage).peak k) (wait.deadline.elapsed (.ofNanos (wait.opening stage k)))
        wait.deadline.limit)), wait.stageAt stage k) := by
  rw [run_eq_ticks hroom hbefore, ticks_of_expired hexpired]

/-- A wait that comes to a tick and judges after its poll ends with that verdict. -/
theorem run_of_verdictAt {verdict : Except WaitError WaitOutcome} (hpolls : wait.PollsAt stage k)
    (hanswered : wait.arrival stage k < Moment.limit)
    (hverdict : wait.verdictAt stage k = some verdict) :
    wait.run stage =
      (verdict.mapError .error, wait.stageWith stage (wait.arrival stage k) (k + 1) k) := by
  have hroom := hpolls.hasRoom
  have hspare : maxPolls - k = maxPolls - (k + 1) + 1 := by omega
  rw [run_eq_ticks hroom.le hbefore, hspare,
    ticks_succ (opening_lt_of_goesOn hbefore) hpolls.notExpired, if_pos hanswered, hverdict]

end

/-! ## Ticks and the deadline -/

theorem expiredAt_iff {k : ℕ} :
    wait.ExpiredAt stage k ↔
      wait.deadline.limit ≤ wait.deadline.elapsed (.ofNanos (wait.opening stage k)) :=
  decide_eq_true_iff

theorem not_expiredAt_iff {k : ℕ} :
    ¬wait.ExpiredAt stage k ↔
      wait.deadline.elapsed (.ofNanos (wait.opening stage k)) < wait.deadline.limit := by
  rw [expiredAt_iff, Span.le_def, Span.lt_def, Nat.not_le]

variable (wait stage) in
/-- The sleeps before a tick have passed when it begins. -/
theorem le_opening (k : ℕ) :
    stage.clock.now.nanos + k * wait.target.pollInterval.nanos ≤ wait.opening stage k := by
  induction k with
  | zero =>
    rw [Nat.zero_mul, Nat.add_zero]
    exact Nat.le_refl _
  | succ k ih =>
    rw [opening, Nat.succ_mul]
    omega

/-! ## The stage that a wait leaves -/

/-- A wait sleeps at each tick but the last, polls at each tick but maybe the last, and the clock
then shows a moment of the last tick. -/
theorem EndsAt.exists_stageWith {k : ℕ} {outcome : Outcome} {last : Stage τ κ}
    (hbefore : ∀ i < k, wait.GoesOn stage i) (h : wait.EndsAt stage k outcome last) :
    ∃ nanos polls, last = wait.stageWith stage nanos polls k ∧
      wait.opening stage k ≤ nanos ∧ nanos < Moment.limit ∧
      (polls = k ∨ polls = k + 1 ∧ wait.PollsAt stage k) := by
  have hopen := opening_lt_of_goesOn hbefore
  have harrival : wait.opening stage k ≤ wait.arrival stage k := Nat.le_add_right _ _
  cases h with
  | late | exhausted => exact ⟨_, _, rfl, le_rfl, hopen, .inl rfl⟩
  | unanswered hpolls => exact ⟨_, _, rfl, le_rfl, hopen, .inr ⟨rfl, hpolls⟩⟩
  | decided hpolls hanswered | sleepless hpolls hanswered =>
    exact ⟨_, _, rfl, harrival, hanswered, .inr ⟨rfl, hpolls⟩⟩

variable (wait stage) in
/-- The clock has no room at tick `k`, for the moment of the answer or for the one after the sleep,
and stays where it was. -/
inductive OverrunsAt (k : ℕ) : Stage τ κ → Prop
  | unanswered (hopen : wait.opening stage k < Moment.limit)
      (hlong : Moment.limit ≤ wait.arrival stage k) :
      OverrunsAt k (wait.stageWith stage (wait.opening stage k) (k + 1) k)
  | sleepless (hanswered : wait.arrival stage k < Moment.limit)
      (hlong : Moment.limit ≤ wait.opening stage (k + 1)) :
      OverrunsAt k (wait.stageWith stage (wait.arrival stage k) (k + 1) k)

/-- A wait runs into a fault only if the clock or the counter of polls has no room left. -/
theorem EndsAt.fault_cases {k : ℕ} {f : Fault} {last : Stage τ κ}
    (hbefore : ∀ i < k, wait.GoesOn stage i)
    (h : wait.EndsAt stage k (.error (.fault f)) last) :
    f = .moment ∧ wait.OverrunsAt stage k last ∨
      f = .sum ∧ k = maxPolls ∧ last = wait.stageAt stage k ∧ ¬wait.ExpiredAt stage k := by
  generalize houtcome : (.error (.fault f) : Outcome) = outcome at h
  cases h with
  | late => cases houtcome
  | @decided verdict => cases verdict <;> cases houtcome
  | exhausted hnot hroom =>
    cases houtcome
    exact .inr ⟨rfl, hroom, rfl, hnot⟩
  | unanswered _ hlong =>
    cases houtcome
    exact .inl ⟨rfl, .unanswered (opening_lt_of_goesOn hbefore) hlong⟩
  | sleepless _ hanswered hlong =>
    cases houtcome
    exact .inl ⟨rfl, .sleepless hanswered hlong⟩

/-- A wait that gives an outcome judged so at its last tick. -/
theorem EndsAt.of_ok {k : ℕ} {found : WaitOutcome} {last : Stage τ κ}
    (h : wait.EndsAt stage k (.ok found) last) :
    wait.PollsAt stage k ∧ wait.arrival stage k < Moment.limit ∧
      wait.verdictAt stage k = some (.ok found) ∧
      last = wait.stageWith stage (wait.arrival stage k) (k + 1) k := by
  generalize houtcome : (.ok found : Outcome) = outcome at h
  cases h with
  | @decided verdict hpolls hanswered hverdict =>
    cases verdict with
    | ok _ =>
      cases houtcome
      exact ⟨hpolls, hanswered, hverdict, rfl⟩
    | error _ => cases houtcome
  | late | exhausted | unanswered | sleepless => cases houtcome

/-- A wait that fails came too late to its last tick or judged so there. -/
theorem EndsAt.error_cases {k : ℕ} {cause : WaitError} {last : Stage τ κ}
    (h : wait.EndsAt stage k (.error (.error cause)) last) :
    wait.ExpiredAt stage k ∧ last = wait.stageAt stage k ∧
        cause = .deadlineExceeded wait.node.name wait.target.height ((wait.reports stage).peak k)
          (wait.deadline.elapsed (.ofNanos (wait.opening stage k))) wait.deadline.limit ∨
      wait.verdictAt stage k = some (.error cause) ∧
        last = wait.stageWith stage (wait.arrival stage k) (k + 1) k := by
  generalize houtcome : (.error (.error cause) : Outcome) = outcome at h
  cases h with
  | late hexpired =>
    cases houtcome
    exact .inl ⟨hexpired, rfl, rfl⟩
  | @decided verdict _ _ hverdict =>
    cases verdict with
    | ok _ => cases houtcome
    | error _ =>
      cases houtcome
      exact .inr ⟨hverdict, rfl⟩
  | exhausted | unanswered | sleepless => cases houtcome

variable (wait stage) in
/-- Whatever a wait does, it polls its node some number of times and sleeps some number of
intervals. -/
theorem run_stageWith :
    ∃ nanos polls sleeps, (wait.run stage).2 = wait.stageWith stage nanos polls sleeps := by
  obtain ⟨last, -, hbefore, hends⟩ := wait.exists_endsAt stage
  obtain ⟨nanos, polls, hlast, -⟩ := hends.exists_stageWith hbefore
  exact ⟨nanos, polls, last, hlast⟩

/-- A wait that makes a poll has come to its tick. -/
theorem goesOn_of_issues {k : ℕ} (hissues : wait.Issues stage k) :
    (∀ i < k, wait.GoesOn stage i) ∧ wait.PollsAt stage k := by
  obtain ⟨last, hroom, hbefore, hends⟩ := wait.exists_endsAt stage
  obtain ⟨nanos, polls, hlast, -, -, hpolls⟩ := hends.exists_stageWith hbefore
  rw [Issues, hlast, length_calls_stageWith] at hissues
  have hmade : k < polls := by omega
  by_cases hk : k < last
  · exact ⟨fun i hi ↦ hbefore i (hi.trans hk), (hbefore k hk).notExpired, by omega⟩
  · rcases hpolls with rfl | ⟨rfl, hpolls⟩
    · exact absurd hmade hk
    · obtain rfl : k = last := by omega
      exact ⟨hbefore, hpolls⟩

end Wait

end BlockWatch
