import BlockWatch.Proofs.Progress.Silence
import BlockWatch.Proofs.Scenario.Budget
import BlockWatch.Proofs.Scenario.Layout

/-!
# The counters of a wait

A wait counts its polls and those of them that failed, each in a 32-bit word. The second count is
never above the first, so it has room whenever the first has. The first runs out of room only if the
node keeps silent, or low, for as many intervals as the word can count, and the deadline and the
clock last as long. Whether some wait of a scenario can come to that is a matter of its configuration
alone.
-/

namespace BlockWatch

open Scenario (smallTarget largeTarget)

theorem Reports.failures_le (reports : Reports) (n : ℕ) : reports.failures n ≤ n :=
  List.countP_le_length.trans_eq List.length_range

/-- No wait under a deadline of that configuration, for one of its heights, runs out of room for the
count of its polls. -/
def ScenarioConfig.CountsPolls (config : ScenarioConfig) : Prop :=
  ∀ (τ κ : Type) (poller : Poller τ) (entry : Node → κ) (deadline : Deadline) (node : Node)
    (target : WaitTarget) (stage : Stage τ κ),
    deadline.limit = config.deadline → deadline.startedAt.nanos ≤ stage.clock.now.nanos →
    target = smallTarget config ∨ target = largeTarget config →
      (waitForHeight poller entry deadline config.window node target stage).1 ≠
        .error (.fault .sum)

/-- The height of an accepted configuration's small target is at most that of the large one. -/
theorem ScenarioConfig.smallHeight_le_of_validate {config : ScenarioConfig}
    (h : config.validate = .ok ()) : config.smallHeight ≤ config.largeHeight := by
  have hflaw := flaw?_of_validate h
  rw [flaw?] at hflaw
  split_ifs at hflaw with _ _ _ hheights
  exact UInt64.not_lt.mp hheights

namespace Wait

variable {τ κ : Type} {wait : Wait τ κ} {stage : Stage τ κ}

/-- Both counters have room for what a poll adds to them. -/
theorem counters_of_issues {k : ℕ} (hissues : wait.Issues stage k) :
    (wait.progressAt stage (k + 1)).failedPolls ≤ (wait.progressAt stage (k + 1)).polls ∧
      (wait.progressAt stage (k + 1)).polls < UInt32.size := by
  have hroom : k < UInt32.size - 1 := (goesOn_of_issues hissues).2.hasRoom
  refine ⟨Reports.failures_le _ _, ?_⟩
  change k + 1 < UInt32.size
  omega

/-! ## Waits that run out of room -/

/-- A wait runs out of room only if it slept as often as it can count, before the deadline. -/
theorem exhausted_of_fault (h : (wait.run stage).1 = .error (.fault .sum)) :
    (∀ i < maxPolls, wait.GoesOn stage i) ∧ ¬wait.ExpiredAt stage maxPolls := by
  obtain ⟨last, -, hbefore, hends⟩ := wait.exists_endsAt stage
  rw [h] at hends
  rcases hends.fault_cases hbefore with ⟨hmoment, -⟩ | ⟨-, rfl, -, hexpired⟩
  · cases hmoment
  · exact ⟨hbefore, hexpired⟩

theorem run_of_exhausted (hbefore : ∀ i < maxPolls, wait.GoesOn stage i)
    (hexpired : ¬wait.ExpiredAt stage maxPolls) : (wait.run stage).1 = .error (.fault .sum) := by
  rw [run_eq_ticks le_rfl hbefore, Nat.sub_self, ticks_zero hexpired]

section

variable (htook : ∀ k, wait.took stage k = .zero)
  (hsilent : ∀ k, ∃ cause, wait.reports stage k = .error cause)
  (hstart : stage.clock.now = .base) (hdeadline : wait.deadline.startedAt = .base)

include htook hstart in
theorem opening_of_prompt (k : ℕ) :
    wait.opening stage k = k * wait.target.pollInterval.nanos := by
  induction k with
  | zero =>
    rw [opening, hstart, Nat.zero_mul]
    rfl
  | succ k ih =>
    rw [opening, ih, htook, Nat.succ_mul]
    rfl

include htook hsilent hstart hdeadline

/-- A node that is silent from the start is polled as long as the clock and the deadline last. -/
theorem goesOn_of_silent (htarget : wait.target.height ≠ 0) {n : ℕ}
    (hclock : n * wait.target.pollInterval.nanos < Moment.limit)
    (hinTime : ∀ k < n, k * wait.target.pollInterval.nanos < wait.deadline.limit.nanos) :
    ∀ k < n, wait.GoesOn stage k := by
  intro k hk
  induction k using Nat.strong_induction_on with
  | _ k ih =>
    have hbefore : ∀ i < k, wait.GoesOn stage i := fun i hi ↦ ih i hi (hi.trans hk)
    have hopen := opening_of_prompt htook hstart
    have hroom {j : ℕ} (hj : j ≤ n) : wait.opening stage j < Moment.limit := by
      rw [hopen]
      exact (Nat.mul_le_mul_right _ hj).trans_lt hclock
    obtain ⟨cause, hfailed⟩ := hsilent k
    constructor
    · rw [not_expiredAt_iff, Span.lt_def, Deadline.elapsed, Moment.nanos_since, hdeadline,
        Moment.nanos_ofNanos (hroom hk.le), hopen]
      exact (Nat.sub_le _ _).trans_lt (hinTime k hk)
    · rw [arrival, htook]
      exact hroom hk.le
    · exact verdictAt_eq_none_of_error hbefore hfailed fun _ ↦ htarget
    · exact hroom hk

theorem run_of_silent (htarget : wait.target.height ≠ 0)
    (hclock : maxPolls * wait.target.pollInterval.nanos < Moment.limit)
    (hinTime : maxPolls * wait.target.pollInterval.nanos < wait.deadline.limit.nanos) :
    (wait.run stage).1 = .error (.fault .sum) := by
  refine run_of_exhausted (goesOn_of_silent htook hsilent hstart hdeadline htarget hclock
    fun k hk ↦ (Nat.mul_le_mul_right _ hk.le).trans_lt hinTime) ?_
  rw [not_expiredAt_iff, Span.lt_def, Deadline.elapsed, Moment.nanos_since, hdeadline,
    opening_of_prompt htook hstart, Moment.nanos_ofNanos hclock]
  exact (Nat.sub_le _ _).trans_lt hinTime

end

end Wait

namespace ScenarioConfig

variable {config : ScenarioConfig}

/-! ## Configurations -/

/-- The height of a target is zero only if there is nothing to wait for at all. -/
theorem height_eq_zero_of_target (h : config.validate = .ok ()) (hzero : config.largeHeight = 0)
    {target : WaitTarget} (htarget : target = smallTarget config ∨ target = largeTarget config) :
    target.height = 0 := by
  rcases htarget with rfl | rfl
  · exact UInt64.le_zero_iff.mp (hzero ▸ smallHeight_le_of_validate h)
  · exact hzero

theorem countsPolls_of_small (h : config.validate = .ok ())
    (hsmall : config.budget ≤ Wait.maxPolls ∨ config.largeHeight = 0 ∨
      Moment.limit ≤ Wait.maxPolls * config.pollInterval.nanos) : config.CountsPolls := by
  intro τ κ poller entry deadline node target stage hlimit hstart htarget hfault
  let wait : Wait τ κ :=
    { poller, entry, deadline, width := config.window, node, target, started := stage.clock.now }
  have hspan : target.pollInterval = config.pollInterval := by
    rcases htarget with rfl | rfl <;> rfl
  have hrun : (wait.run stage).1 = .error (.fault .sum) := hfault
  obtain ⟨hbefore, hexpired⟩ := Wait.exhausted_of_fault hrun
  have hopen := Wait.opening_lt_of_goesOn hbefore
  have hslept : stage.clock.now.nanos + Wait.maxPolls * config.pollInterval.nanos ≤
      wait.opening stage Wait.maxPolls := hspan ▸ wait.le_opening stage Wait.maxPolls
  rcases hsmall with hbudget | hzero | hclock
  · have helapsed : wait.opening stage Wait.maxPolls - deadline.startedAt.nanos <
        config.deadline.nanos := by
      rw [← hlimit, ← Moment.nanos_ofNanos hopen]
      exact Wait.not_expiredAt_iff.mp hexpired
    refine absurd hbudget (Nat.not_le.mpr ((lt_budget_iff (Scenario.pollInterval_pos h)).mpr ?_))
    omega
  · have hfirst := Wait.peak_lt_of_goesOn (hbefore 0 (by decide))
    have hheight : wait.target.height = 0 := height_eq_zero_of_target h hzero htarget
    rw [hheight] at hfirst
    exact UInt64.not_lt_zero hfirst
  · omega

/-- A node that cannot be reached. -/
def unreachable : Poller Unit := fun node _ ↦
  { outcome := .error (.transport node.name "connection refused"), next := () }

/-- A wait for a node that cannot be reached, which begins with the deadline of its configuration. -/
def waitInVain (config : ScenarioConfig) (node : Node) (target : WaitTarget) : Wait.Outcome :=
  (waitForHeight unreachable id ⟨.base, config.deadline⟩ config.window node target
    { field := () : Stage Unit Node }).1

/-- Waiting in vain runs out of room, if neither the deadline nor the clock forbids so many sleeps. -/
theorem waitInVain_eq_error {node : Node} {target : WaitTarget}
    (hspan : target.pollInterval = config.pollInterval) (htarget : target.height ≠ 0)
    (hclock : Wait.maxPolls * config.pollInterval.nanos < Moment.limit)
    (hinTime : Wait.maxPolls * config.pollInterval.nanos < config.deadline.nanos) :
    config.waitInVain node target = .error (.fault .sum) := by
  let wait : Wait Unit Node :=
    { poller := unreachable, entry := id, deadline := ⟨.base, config.deadline⟩,
      width := config.window, node, target, started := .base }
  have htook : ∀ k, wait.took { field := () } k = .zero := fun _ ↦ rfl
  have hsilent : ∀ k, ∃ cause, wait.reports { field := () } k = .error cause := fun _ ↦ ⟨_, rfl⟩
  rw [← hspan] at hclock hinTime
  exact Wait.run_of_silent htook hsilent rfl rfl htarget hclock hinTime

/-- The counters of all waits of an accepted configuration have room for their polls just if the
deadline does not last for more intervals than a word can count, or there is nothing to wait for, or
the clock itself does not last that long. Whatever the configuration, the failed polls are counted
as long as all polls are. -/
theorem countsPolls_iff_of_validate (h : config.validate = .ok ()) :
    (config.CountsPolls ↔
      config.budget ≤ Wait.maxPolls ∨ config.largeHeight = 0 ∨
        Moment.limit ≤ Wait.maxPolls * config.pollInterval.nanos) ∧
    ∀ (τ κ : Type) (wait : Wait τ κ) (stage : Stage τ κ) (k : ℕ), wait.Issues stage k →
      (wait.progressAt stage (k + 1)).failedPolls ≤ (wait.progressAt stage (k + 1)).polls ∧
        (wait.progressAt stage (k + 1)).polls < UInt32.size := by
  refine ⟨⟨fun hcounts ↦ ?_, countsPolls_of_small h⟩, fun _ _ _ _ _ ↦ Wait.counters_of_issues⟩
  by_contra hlarge
  simp only [not_or, Nat.not_le] at hlarge
  obtain ⟨hbudget, hheight, hclock⟩ := hlarge
  have hinTime := (lt_budget_iff (Scenario.pollInterval_pos h)).mp hbudget
  let address : Net.Endpoint := .v4 ⟨127, 0, 0, 1⟩ 3030
  let node : Node := ⟨0, .validator, address, address, "", ⟨"test0"⟩⟩
  exact hcounts Unit Node unreachable id ⟨.base, config.deadline⟩ node (largeTarget config)
    { field := () } rfl (Nat.zero_le _) (.inr rfl)
    (waitInVain_eq_error rfl hheight hclock hinTime)

/-- No wait with the default configuration runs out of room. -/
theorem countsPolls_of_default :
    let config : ScenarioConfig := {}
    config.validate = .ok () ∧ config.budget ≤ Wait.maxPolls ∧ config.CountsPolls := by
  intro config
  have haccepted : config.validate = .ok () := by decide +kernel
  have hbudget : config.budget ≤ Wait.maxPolls := by decide +kernel
  exact ⟨haccepted, hbudget, (countsPolls_iff_of_validate haccepted).1.mpr (.inl hbudget)⟩

/-- An accepted configuration with a wait that runs out of room. -/
theorem waitInVain_of_nanosecond_interval :
    let config : ScenarioConfig :=
      { pollInterval := ⟨1, by decide⟩, deadline := ⟨UInt32.size, by decide⟩ }
    let address : Net.Endpoint := .v4 ⟨127, 0, 0, 1⟩ 3030
    config.validate = .ok () ∧
      config.waitInVain ⟨0, .validator, address, address, "", ⟨"test0"⟩⟩ (smallTarget config) =
        .error (.fault .sum) := by
  intro config address
  exact ⟨by decide +kernel, waitInVain_eq_error rfl (by decide) (by decide) (by decide)⟩

end ScenarioConfig

end BlockWatch
