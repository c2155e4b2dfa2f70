import BlockWatch.Proofs.Progress.Reached

/-!
# Heights that were missed

A wait that fails says why. Either the deadline had passed before its last tick, and no height up to
then was the target, or the rate was below the floor after its last poll.
-/

namespace BlockWatch

namespace Wait

variable {τ κ : Type} {wait : Wait τ κ} {stage last : Stage τ κ} {cause : WaitError}

variable (wait stage) in
/-- What the error of a wait says about the wait and the stage that it leaves. -/
inductive Misses (last : Stage τ κ) : WaitError → Prop
  /-- The deadline passed, and no poll before reported the target. -/
  | late {latest : UInt64}
      (hexpired : wait.deadline.limit ≤ wait.deadline.elapsed last.clock.now)
      (hlatest : latest < wait.target.height ∨ last = stage) :
      Misses last (.deadlineExceeded wait.node.name wait.target.height latest
        (wait.deadline.elapsed last.clock.now) wait.deadline.limit)
  /-- The rate over the window fell below the floor. -/
  | slow {latest : UInt64} {rate floor : Binary64} (hfloor : wait.target.rateFloor = some floor)
      (hbelow : rate.lt floor = true) :
      Misses last (.throughputBelowFloor wait.node.name wait.target.height latest rate floor)

theorem misses_of_run (h : wait.run stage = (.error (.error cause), last)) :
    wait.Misses stage last cause := by
  obtain ⟨k, -, hbefore, hends⟩ := wait.exists_endsAt stage
  rw [h] at hends
  rcases hends.error_cases with ⟨hexpired, hlast, rfl⟩ | ⟨hverdict, -⟩
  · replace hlast : last = wait.stageAt stage k := hlast
    have hlatest : (wait.reports stage).peak k < wait.target.height ∨ last = stage := by
      rcases peak_lt_or_eq_zero hbefore with hlow | rfl
      · exact .inl hlow
      · exact .inr (hlast.trans stageAt_zero)
    rw [expiredAt_iff] at hexpired
    have hnow : last.clock.now = .ofNanos (wait.opening stage k) := congrArg (·.clock.now) hlast
    rw [← hnow] at hexpired ⊢
    exact .late hexpired hlatest
  · obtain ⟨floor, hfloor, hbelow, rfl⟩ := Progress.verdict?_eq_error_iff.mp hverdict
    exact .slow hfloor (Bool.and_eq_true_iff.mp hbelow).2

end Wait

end BlockWatch
