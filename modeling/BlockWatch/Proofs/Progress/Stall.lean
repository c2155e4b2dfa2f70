import BlockWatch.Proofs.Progress.Ending
import BlockWatch.Proofs.Progress.Rate

/-!
# Stalls are detected

A node stalls between two successful polls if no report in between, and none before, exceeds what
was known at the first. Once the window's width lies between the two, every sample that still counts
has the same height, so the rate is zero and lies below every positive floor. Failed polls and
regressed reports change nothing about this, since they never raise the known height.
-/

namespace BlockWatch

namespace Reports

variable {reports : Reports}

theorem peak_eq_of_stall {i j n : ℕ} (hj : j < n) (hn : n ≤ i + 1)
    (hbounded : ∀ k ≤ i, ∀ height, reports k = .ok height → height ≤ reports.peak (j + 1)) :
    reports.peak n = reports.peak (j + 1) :=
  peak_eq_of_bounded hj fun k _ hk ↦ hbounded k (by omega)

/-- Over a stall that fills the width there are two samples, and the rate is zero. -/
theorem rateOver_of_stall {time : ℕ → Moment} (hmono : Monotone fun k ↦ (time k).nanos)
    {width : Span} {i j : ℕ} (hji : j < i) {first last : UInt64} (hfirst : reports j = .ok first)
    (hlast : reports i = .ok last) (hwidth : (time j).nanos + width.nanos ≤ (time i).nanos)
    (hbounded : ∀ k ≤ i, ∀ height, reports k = .ok height → height ≤ reports.peak (j + 1)) :
    Window.minRetained ≤ (reports.samples time (i + 1)).length ∧
      Window.rateOver width (reports.samples time (i + 1)) = .zero := by
  obtain ⟨later, hsamples, hlater⟩ := @exists_samples_after reports time j i first hfirst hji
  let stalled : List Sample := ⟨time j, reports.peak (j + 1)⟩ :: later
  let newest : Sample := ⟨time i, reports.peak (i + 1)⟩
  have hall : reports.samples time (i + 1) = reports.samples time j ++ (stalled ++ [newest]) := by
    rw [samples_succ_of_ok hlast, hsamples, List.append_assoc]
  have hheights : ∀ s ∈ stalled ++ [newest], s.height = reports.peak (j + 1) := by
    intro s hs
    rcases List.mem_append.mp hs with hstalled | hnewest
    · rcases List.mem_cons.mp hstalled with rfl | hs
      · rfl
      · obtain ⟨k, hjk, hki, rfl⟩ := hlater s hs
        exact peak_eq_of_stall (hjk.trans (Nat.lt_succ_self k)) (by omega) hbounded
    · rw [List.mem_singleton.mp hnewest]
      exact peak_eq_of_stall (hji.trans (Nat.lt_succ_self i)) le_rfl hbounded
  -- What was sampled before the stall lies at least the width before its end.
  have hstale : ∀ s ∈ reports.samples time j, Window.isRecent width newest.time s = false := by
    intro s hs
    obtain ⟨k, hkj, rfl⟩ := mem_samples hs
    have hearlier : (time k).nanos ≤ (time j).nanos := hmono hkj.le
    rw [Window.not_isRecent_iff, Span.le_def, Moment.nanos_since]
    change width.nanos ≤ (time i).nanos - (time k).nanos
    omega
  obtain ⟨older, s, hpair⟩ : ∃ older s, stalled = older ++ [s] := by
    exact ⟨stalled.dropLast, stalled.getLast (List.cons_ne_nil _ _),
      (List.dropLast_append_getLast _).symm⟩
  have hend : stalled ++ [newest] = older ++ [s, newest] := by
    rw [hpair, List.append_assoc, List.cons_append, List.nil_append]
  constructor
  · rw [hall, hend]
    simp only [Window.minRetained, List.length_append, List.length_cons]
    omega
  · rw [hall, hend, Window.rateOver_append_of_stale hstale, ← hend]
    exact Window.rateOver_eq_zero hheights

end Reports

namespace Wait

variable {τ κ : Type} {wait : Wait τ κ} {stage : Stage τ κ}

/-- A stall between two polls that lie at least the window's width apart ends the wait at the second
one, whatever the polls in between answered. -/
theorem run_of_stall {floor : Binary64} (hfloor : wait.target.rateFloor = some floor)
    (hpositive : Binary64.zero.lt floor = true) {i j : ℕ} (hji : j < i)
    (hissues : wait.Issues stage i) {first last : UInt64}
    (hfirst : wait.reports stage j = .ok first) (hlast : wait.reports stage i = .ok last)
    (hclock : wait.arrival stage i < Moment.limit)
    (hwidth : wait.arrival stage j + wait.width.nanos ≤ wait.arrival stage i)
    (hbounded : ∀ k ≤ i, ∀ height, wait.reports stage k = .ok height →
      height ≤ (wait.reports stage).peak (j + 1)) :
    wait.run stage =
      (.error (.error (.throughputBelowFloor wait.node.name wait.target.height
        ((wait.reports stage).peak (j + 1)) .zero floor)),
        wait.stageWith stage (wait.arrival stage i) (i + 1) i) := by
  obtain ⟨hbefore, hnot, hroom⟩ := goesOn_of_issues hissues
  have hearlier : wait.arrival stage j < Moment.limit := by omega
  have hapart : (Moment.ofNanos (wait.arrival stage j)).nanos + wait.width.nanos ≤
      (Moment.ofNanos (wait.arrival stage i)).nanos := by
    rwa [Moment.nanos_ofNanos hearlier, Moment.nanos_ofNanos hclock]
  obtain ⟨hlength, hrate⟩ :=
    Reports.rateOver_of_stall arrival_mono hji hfirst hlast hapart hbounded
  have hpeak : (wait.reports stage).peak (i + 1) = (wait.reports stage).peak (j + 1) :=
    Reports.peak_eq_of_stall (hji.trans (Nat.lt_succ_self i)) le_rfl hbounded
  have hzero : (wait.progressAt stage (i + 1)).window.rate = .zero :=
    (Window.rate_retained _ _).trans hrate
  have hbelow : (wait.progressAt stage (i + 1)).isBelow floor = true := by
    have hhas : (wait.progressAt stage (i + 1)).window.hasRate = true :=
      (Window.hasRate_retained _ _).trans (decide_eq_true hlength)
    rw [Progress.isBelow, hhas, hzero, hpositive]
    rfl
  have hverdict : wait.verdictAt stage i =
      some (.error (.throughputBelowFloor wait.node.name wait.target.height
        ((wait.reports stage).peak (j + 1)) .zero floor)) := by
    simp only [verdictAt, Progress.verdict?, hfloor, hbelow, if_true, hzero]
    rw [← hpeak]
    rfl
  have hspare : maxPolls - i = maxPolls - (i + 1) + 1 := by omega
  rw [run_eq_ticks hroom.le hbefore, hspare, ticks_succ (opening_lt_of_goesOn hbefore) hnot,
    if_pos hclock, hverdict]
  rfl

/-- A node at height 5 times out and then reports 3, all within a width of four seconds. -/
theorem run_of_stall_with_regress :
    let poller : Poller ℕ := fun node polls ↦
      { outcome := if polls = 0 then .ok 5
          else if polls = 1 then .error (.timeout node.name 500) else .ok 3
        next := polls + 1 }
    let address : Net.Endpoint := .v4 ⟨10, 0, 0, 4⟩ 26657
    let node : Node := ⟨4, .observer, address, address, "", ⟨"/node4"⟩⟩
    let wait : Wait ℕ Node := {
      poller, node, entry := id, started := .base, deadline := ⟨.base, .ofSeconds 60⟩
      width := .ofSeconds 4, target := ⟨100, .ofSeconds 2, some (.ofNat 1)⟩ }
    let stage : Stage ℕ Node := { field := 0 }
    (wait.run stage).1 =
      .error (.error (.throughputBelowFloor "node4" 100 5 .zero (.ofNat 1))) := by
  intro poller address node wait stage
  have hpositive : Binary64.zero.lt (.ofNat 1) = true := Binary64.zero_lt_ofNat one_pos
  have hissues : wait.Issues stage 2 := by
    unfold Issues
    decide +kernel +zetaReduce
  have hclock : wait.arrival stage 2 < Moment.limit := by decide +zetaReduce
  have hwidth : wait.arrival stage 0 + wait.width.nanos ≤ wait.arrival stage 2 := by
    decide +zetaReduce
  have hbounded : ∀ k ≤ 2, ∀ height, wait.reports stage k = .ok height →
      height ≤ (wait.reports stage).peak 1 := by
    intro k hk height hheight
    obtain rfl | rfl | rfl : k = 0 ∨ k = 1 ∨ k = 2 := by omega
    · rw [← Except.ok.inj hheight]
      decide +zetaReduce
    · have hfailed : wait.reports stage 1 = .error (.timeout node.name 500) := rfl
      rw [hfailed] at hheight
      cases hheight
    · rw [← Except.ok.inj hheight]
      decide +zetaReduce
  have hname : wait.node.name = "node4" := by decide +zetaReduce
  have hpeak : (wait.reports stage).peak (0 + 1) = 5 := by decide +zetaReduce
  rw [run_of_stall rfl hpositive zero_lt_two hissues rfl rfl hclock hwidth hbounded, hname, hpeak]

end Wait

end BlockWatch
