import BlockWatch.Proofs.Progress.Missed
import BlockWatch.Proofs.Progress.Rate

/-!
# Silent nodes

The rate is judged after every poll, a failed one included. A failed poll leaves no sample, so what
is judged then is the window of the tick before, and that one has met the floor already or is empty.
However long a node stays silent, it never falls below the floor: after a failed poll a wait sleeps,
and only the deadline or a later report ends it.
-/

namespace BlockWatch

theorem Reports.exists_report_of_samples {reports : Reports} {time : ℕ → Moment} {n : ℕ}
    (h : 0 < (reports.samples time n).length) : ∃ j < n, ∃ height, reports j = .ok height := by
  obtain ⟨s, hs⟩ := List.exists_mem_of_length_pos h
  obtain ⟨j, hj, hsome⟩ := List.mem_filterMap.mp hs
  refine ⟨j, List.mem_range.mp hj, ?_⟩
  cases hreport : reports j with
  | ok height => exact ⟨height, rfl⟩
  | error cause => simp [Reports.sample?, hreport, Except.toOption] at hsome

theorem Progress.meetsFloor_of_not_hasRate {p : Progress} {rateFloor : Option Binary64}
    (h : p.window.hasRate = false) : p.MeetsFloor rateFloor := by
  intro floor _
  rw [isBelow, h]
  rfl

namespace Wait

variable {τ κ : Type} {wait : Wait τ κ} {stage : Stage τ κ}

/-! ## Ticks with a failed poll -/

section

variable {k : ℕ} (hbefore : ∀ i < k, wait.GoesOn stage i)
include hbefore

/-- A wait that comes to a tick has met the floor, or has no rate yet. -/
theorem meetsFloor_progressAt : (wait.progressAt stage k).MeetsFloor wait.target.rateFloor := by
  cases k with
  | zero => exact Progress.meetsFloor_of_not_hasRate rfl
  | succ k =>
    have htick := hbefore k (Nat.lt_succ_self k)
    exact (Progress.verdict?_eq_none_iff.mp htick.undecided).1

/-- A failed poll leaves the window as it was judged before. -/
theorem meetsFloor_of_error {cause : PollError} (hfailed : wait.reports stage k = .error cause) :
    (wait.progressAt stage (k + 1)).MeetsFloor wait.target.rateFloor := by
  have hwindow : (wait.progressAt stage (k + 1)).window = (wait.progressAt stage k).window := by
    simp only [progressAt, samples, Reports.samples_succ_of_error hfailed]
  intro floor hfloor
  have hbelow := meetsFloor_progressAt hbefore floor hfloor
  rwa [Progress.isBelow, ← hwindow] at hbelow

/-- A failed poll decides nothing, unless there is nothing to wait for. -/
theorem verdictAt_eq_none_of_error {cause : PollError}
    (hfailed : wait.reports stage k = .error cause) (hfirst : k = 0 → wait.target.height ≠ 0) :
    wait.verdictAt stage k = none := by
  refine Progress.verdict?_eq_none_iff.mpr ⟨meetsFloor_of_error hbefore hfailed, ?_⟩
  change (wait.reports stage).peak (k + 1) < wait.target.height
  rw [Reports.peak_succ_of_error hfailed]
  rcases peak_lt_or_eq_zero hbefore with hlow | rfl
  · exact hlow
  · exact UInt64.pos_iff_ne_zero.mpr (hfirst rfl)

/-- A rate below the floor takes a report at this tick and one before. -/
theorem exists_reports_of_isBelow {floor : Binary64} (hfloor : wait.target.rateFloor = some floor)
    (hbelow : (wait.progressAt stage (k + 1)).isBelow floor = true) :
    (∃ j < k, ∃ height, wait.reports stage j = .ok height) ∧
      ∃ height, wait.reports stage k = .ok height := by
  cases hreport : wait.reports stage k with
  | error cause =>
    rw [meetsFloor_of_error hbefore hreport floor hfloor] at hbelow
    cases hbelow
  | ok height =>
    have hrate : (wait.progressAt stage (k + 1)).window.hasRate = true :=
      (Bool.and_eq_true_iff.mp hbelow).1
    have hlength : Window.minRetained ≤ (wait.samples stage (k + 1)).length := by
      simpa only [progressAt, Window.hasRate_retained, decide_eq_true_eq] using hrate
    rw [samples, Reports.samples_succ_of_ok hreport, List.length_append, List.length_singleton,
      Window.minRetained] at hlength
    exact ⟨Reports.exists_report_of_samples (Nat.le_of_succ_le_succ hlength), height, rfl⟩

end

/-! ## Waits after a failed poll -/

variable (wait stage) in
/-- How a wait can end and leave its stage when poll `k` has failed. -/
inductive Outlasts (k : ℕ) : Outcome × Stage τ κ → Prop
  /-- The deadline has passed at a later tick. -/
  | late {n nanos : ℕ} {latest : UInt64} (hslept : k < n)
      (hexpired : wait.deadline.limit ≤ wait.deadline.elapsed (.ofNanos nanos)) :
      Outlasts k (.error (.error (.deadlineExceeded wait.node.name wait.target.height latest
        (wait.deadline.elapsed (.ofNanos nanos)) wait.deadline.limit)),
        wait.stageWith stage nanos n n)
  /-- A later poll gets a report, and the wait ends as it is judged then. -/
  | reported {n nanos : ℕ} {height : UInt64} {verdict : Except WaitError WaitOutcome}
      (hslept : k < n) (hreport : wait.reports stage n = .ok height) :
      Outlasts k (verdict.mapError .error, wait.stageWith stage nanos (n + 1) n)
  /-- The counter has no room for another poll. -/
  | exhausted {nanos : ℕ} (hslept : k < maxPolls) :
      Outlasts k (.error (.fault .sum), wait.stageWith stage nanos maxPolls maxPolls)
  /-- The clock has no room for the time that the poll or the sleep of a tick takes. -/
  | overrun {n : ℕ} {left : Stage τ κ} (hcame : k ≤ n) (hlong : wait.OverrunsAt stage n left) :
      Outlasts k (.error (.fault .moment), left)

/-- Whatever ends a wait after a failed poll, the failed poll does not. -/
theorem EndsAt.outlasts {last : ℕ} (hbefore : ∀ i < last, wait.GoesOn stage i) {outcome : Outcome}
    {left : Stage τ κ} (h : wait.EndsAt stage last outcome left) {k : ℕ} {cause : PollError}
    (hmade : stage.calls.length + k < left.calls.length)
    (hfailed : wait.reports stage k = .error cause) (hfirst : k = 0 → wait.target.height ≠ 0) :
    wait.Outlasts stage k (outcome, left) := by
  cases h with
  | late hexpired =>
    rw [stageAt, length_calls_stageWith] at hmade
    exact .late (Nat.lt_of_add_lt_add_left hmade) (expiredAt_iff.mp hexpired)
  | exhausted hnot hroom =>
    rw [stageAt, length_calls_stageWith] at hmade
    subst hroom
    exact .exhausted (Nat.lt_of_add_lt_add_left hmade)
  | unanswered hpolls hlong =>
    rw [length_calls_stageWith] at hmade
    exact .overrun (by omega) (.unanswered (opening_lt_of_goesOn hbefore) hlong)
  | sleepless hpolls hanswered hlong =>
    rw [length_calls_stageWith] at hmade
    exact .overrun (by omega) (.sleepless hanswered hlong)
  | decided hpolls hanswered hverdict =>
    rw [length_calls_stageWith] at hmade
    have hk : k ≤ last := by omega
    cases hreport : wait.reports stage last with
    | error failure =>
      have hundecided := verdictAt_eq_none_of_error hbefore hreport fun hlast ↦ hfirst (by omega)
      rw [hundecided] at hverdict
      cases hverdict
    | ok height =>
      refine .reported (hk.lt_of_ne ?_) hreport
      rintro rfl
      rw [hfailed] at hreport
      cases hreport

/-- A wait below the floor has got a report from its last poll and from one before. A wait that
makes a poll which fails sleeps after it, and it ends at the deadline or after a later report. Only
a first poll that fails can end a wait by itself, one for height zero. -/
theorem run_of_failed_poll (wait : Wait τ κ) (stage : Stage τ κ) :
    (∀ name goal latest rate floor,
      (wait.run stage).1 = .error (.error (.throughputBelowFloor name goal latest rate floor)) →
        ∃ j k nanos, j < k ∧ (∃ height, wait.reports stage j = .ok height) ∧
          (∃ height, wait.reports stage k = .ok height) ∧
          (wait.run stage).2 = wait.stageWith stage nanos (k + 1) k) ∧
      ∀ k cause, wait.Issues stage k → wait.reports stage k = .error cause →
        (k = 0 → wait.target.height ≠ 0) → wait.Outlasts stage k (wait.run stage) := by
  obtain ⟨last, -, hbefore, hends⟩ := wait.exists_endsAt stage
  constructor
  · intro name goal latest rate floor hslow
    rw [hslow] at hends
    rcases hends.error_cases with ⟨-, -, hcause⟩ | ⟨hverdict, hlast⟩
    · cases hcause
    · obtain ⟨floor, hfloor, hbelow, -⟩ := Progress.verdict?_eq_error_iff.mp hverdict
      obtain ⟨⟨j, hj, hearlier⟩, hreport⟩ := exists_reports_of_isBelow hbefore hfloor hbelow
      exact ⟨j, last, wait.arrival stage last, hj, hearlier, hreport, hlast⟩
  · intro k cause hissues hfailed hfirst
    exact hends.outlasts hbefore hissues hfailed hfirst

/-- A node at height 5 times out, is found at height 5 again, and is given up then. -/
theorem run_of_failed_poll_at_standstill :
    let poller : Poller ℕ := fun node polls ↦
      { outcome := if polls = 1 then .error (.timeout node.name 500) else .ok 5
        next := polls + 1 }
    let address : Net.Endpoint := .v4 ⟨10, 0, 0, 4⟩ 26657
    let node : Node := ⟨4, .observer, address, address, "", ⟨"/node4"⟩⟩
    let wait : Wait ℕ Node := {
      poller, node, entry := id, started := .base, deadline := ⟨.base, .ofSeconds 60⟩
      width := .ofSeconds 7, target := ⟨100, .ofSeconds 2, some (.ofNat 1)⟩ }
    let stage : Stage ℕ Node := { field := 0 }
    (wait.run stage).1 =
        .error (.error (.throughputBelowFloor "node4" 100 5 .zero (.ofNat 1))) ∧
      (∃ j k nanos, j < k ∧ (∃ height, wait.reports stage j = .ok height) ∧
        (∃ height, wait.reports stage k = .ok height) ∧
        (wait.run stage).2 = wait.stageWith stage nanos (k + 1) k) ∧
      wait.Issues stage 1 ∧ wait.reports stage 1 = .error (.timeout "node4" 500) ∧
      wait.Outlasts stage 1 (wait.run stage) := by
  intro poller address node wait stage
  have hslow : (wait.run stage).1 =
      .error (.error (.throughputBelowFloor "node4" 100 5 .zero (.ofNat 1))) := by
    decide +kernel +zetaReduce
  have hissues : wait.Issues stage 1 := by
    unfold Issues
    decide +kernel +zetaReduce
  have hfailed : wait.reports stage 1 = .error (.timeout "node4" 500) := by
    decide +kernel +zetaReduce
  obtain ⟨hfloor, hsilence⟩ := run_of_failed_poll wait stage
  exact ⟨hslow, hfloor _ _ _ _ _ hslow, hissues, hfailed, hsilence 1 _ hissues hfailed nofun⟩

end Wait

end BlockWatch
