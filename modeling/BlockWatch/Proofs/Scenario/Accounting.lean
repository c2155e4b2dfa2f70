import BlockWatch.Proofs.Progress.Reached
import BlockWatch.Proofs.Progress.Stopping
import BlockWatch.Proofs.Scenario.Journey

/-!
# Where the time of a run goes

The elapsed time of a report counts from the moment just before the first launch. When polls take no
time it is the time of the launches and of the sleeps between polls and nothing else, and no poll is
made once it has reached the deadline that all waits share.
-/

namespace BlockWatch

namespace Wait

variable {τ κ : Type} {wait : Wait τ κ} {stage : Stage τ κ}

/-- The loop comes to tick `k` in the state that the answers before it leave. -/
def Visits (wait : Wait τ κ) (stage : Stage τ κ) (k : ℕ) : Prop :=
  wait.run stage = wait.ticks (maxPolls - k) (wait.progressAt stage k) (wait.stageAt stage k)

/-- What a wait has found when its polls take no time: it slept between polls and did nothing else,
and no poll came too late. -/
structure Finds (wait : Wait τ κ) (stage : Stage τ κ) (found : WaitOutcome) (last : Stage τ κ) :
    Prop where
  polled : 0 < found.polls
  reached : wait.target.height ≤ found.height
  named : found.node = wait.node.name
  slept : last.clock.now.nanos =
    stage.clock.now.nanos + wait.target.pollInterval.nanos * (found.polls - 1)
  inTime : ∀ i < found.polls, wait.Visits stage i ∧
    wait.deadline.elapsed (wait.stageAt stage i).clock.now < wait.deadline.limit
  notLate : wait.deadline.elapsed last.clock.now < wait.deadline.limit

theorem finds_of_run {found : WaitOutcome} {last : Stage τ κ}
    (htook : ∀ i, wait.took stage i = .zero) (h : wait.run stage = (.ok found, last)) :
    wait.Finds stage found last := by
  have hrun : (wait.run stage).1 = .ok found := by rw [h]
  obtain ⟨k, hbefore, hpolls, hanswered, hreached, rfl, hlast⟩ := exists_outcomeAt hrun
  rw [h] at hlast
  have harrival : wait.arrival stage k = wait.opening stage k := by
    rw [arrival_eq_nanosAt htook, opening_eq_nanosAt htook]
  have hclock : last.clock.now = .ofNanos (wait.arrival stage k) := congrArg (·.clock.now) hlast
  constructor
  · exact Nat.succ_pos k
  · exact hreached
  · rfl
  · calc
      last.clock.now.nanos = wait.arrival stage k := by
        rw [hclock, Moment.nanos_ofNanos hanswered]
      _ = stage.clock.now.nanos + k * wait.target.pollInterval.nanos :=
        arrival_eq_nanosAt htook k
      _ = stage.clock.now.nanos + wait.target.pollInterval.nanos * (k + 1 - 1) := by
        rw [Nat.mul_comm, Nat.add_sub_cancel]
  · intro i hi
    have hroom : i ≤ maxPolls := (Nat.le_of_lt_succ hi).trans hpolls.hasRoom.le
    have hvisits : wait.Visits stage i :=
      run_eq_ticks hroom fun j hj ↦ hbefore j (hj.trans_le (Nat.le_of_lt_succ hi))
    refine ⟨hvisits, not_expiredAt_iff.mp ?_⟩
    rcases Nat.lt_succ_iff_lt_or_eq.mp hi with hearlier | rfl
    · exact (hbefore i hearlier).notExpired
    · exact hpolls.notExpired
  · rw [hclock, harrival]
    exact not_expiredAt_iff.mp hpolls.notExpired

end Wait

/-! ## The time of launches -/

namespace Site

variable {τ : Type} (site : Site τ)

/-- The state behind the calls once homes have been launched in a row. -/
def fieldAfterLaunches : τ → List (NodeHome × Option Node) → τ
  | field, [] => field
  | field, (home, boot) :: rest => fieldAfterLaunches (site.launch home boot field).next rest

/-- How long it takes to launch homes in a row, in nanoseconds. -/
def launchNanos : τ → List (NodeHome × Option Node) → ℕ
  | _, [] => 0
  | field, (home, boot) :: rest =>
    (site.launch home boot field).took.nanos + launchNanos (site.launch home boot field).next rest

variable {site}

theorem fieldAfterLaunches_append (field : τ) (homes later : List (NodeHome × Option Node)) :
    site.fieldAfterLaunches field (homes ++ later) =
      site.fieldAfterLaunches (site.fieldAfterLaunches field homes) later := by
  induction homes generalizing field with
  | nil => rfl
  | cons pair rest ih => exact ih _

theorem launchNanos_append (field : τ) (homes later : List (NodeHome × Option Node)) :
    site.launchNanos field (homes ++ later) =
      site.launchNanos field homes +
        site.launchNanos (site.fieldAfterLaunches field homes) later := by
  induction homes generalizing field with
  | nil => exact (Nat.zero_add _).symm
  | cons pair rest ih =>
    rw [List.cons_append, launchNanos, launchNanos, ih, Nat.add_assoc]
    rfl

end Site

namespace Scenario

variable {τ α : Type} {scenario : Scenario τ} {s s' s'' : RunState τ}

/-- Between two states homes are launched in a row and nothing else happens to the clock. -/
structure Launches (site : Site τ) (s : RunState τ) (homes : List (NodeHome × Option Node))
    (s' : RunState τ) : Prop where
  field : s'.stage.field = site.fieldAfterLaunches s.stage.field homes
  clock : s'.stage.clock.now.nanos =
    s.stage.clock.now.nanos + site.launchNanos s.stage.field homes

theorem Launches.append {site : Site τ} {homes later : List (NodeHome × Option Node)}
    (h : Launches site s homes s') (hlater : Launches site s' later s'') :
    Launches site s (homes ++ later) s'' where
  field := by rw [hlater.field, h.field, Site.fieldAfterLaunches_append]
  clock := by rw [hlater.clock, h.clock, h.field, Site.launchNanos_append, Nat.add_assoc]

theorem launches_launch {home : NodeHome} {boot : Option Node} {node : Node}
    (h : Gives (scenario.launch home boot) s node s') :
    Launches scenario.site s [(home, boot)] s' := by
  let answer := scenario.site.launch home boot s.stage.field
  obtain ⟨hcall, -⟩ := gives_bringup h
  obtain ⟨-, hfield, -⟩ := s.stage.call_spec (.launch home boot) answer
  obtain ⟨-, -, hclock⟩ := s.stage.call_clock (.launch home boot) answer
  rw [hcall] at hfield hclock
  exact ⟨hfield, hclock _ rfl⟩

theorem launches_launchAll {leader : Node} {homes : List NodeHome}
    (h : Gives (scenario.launchAll leader homes) s () s') :
    Launches scenario.site s (homes.map (·, some leader)) s' := by
  induction homes generalizing s with
  | nil =>
    obtain ⟨-, rfl⟩ := gives_pure h
    exact ⟨rfl, rfl⟩
  | cons home rest ih =>
    obtain ⟨node, mid, hlaunch, hrest⟩ := gives_bind h
    exact (launches_launch hlaunch).append (ih hrest)

theorem launches_joinAll {leader : Node} {homes : List NodeHome}
    (h : Gives (scenario.joinAll leader homes) s () s') :
    Launches scenario.site s (homes.map (·, some leader)) s' := by
  induction homes generalizing s with
  | nil =>
    obtain ⟨-, rfl⟩ := gives_pure h
    exact ⟨rfl, rfl⟩
  | cons home rest ih =>
    obtain ⟨node, mid, hjoin, hrest⟩ := gives_bind h
    exact (launches_launch (gives_join hjoin)).append (ih hrest)

/-- The homes that are launched before the first wait, each with the node it boots from. -/
def Launched.homes (done : Launched scenario s) : List (NodeHome × Option Node) :=
  (done.cast.leader, none) ::
    (done.cast.validators ++ done.cast.early).map (·, some done.leader)

theorem Launched.launches (done : Launched scenario s) :
    Launches scenario.site done.ready done.homes done.running := by
  obtain ⟨leader, s₁, hleader, hothers⟩ := gives_bind done.launched
  obtain ⟨_, s₂, hvalidators, hothers⟩ := gives_bind hothers
  obtain ⟨_, s₃, hearly, hlast⟩ := gives_bind hothers
  obtain ⟨hsame, rfl⟩ := gives_pure hlast
  have hlaunches := (launches_launch hleader).append
    ((launches_launchAll hvalidators).append (launches_joinAll hearly))
  rw [homes, hsame, List.map_append]
  exact hlaunches

/-! ## The report -/

/-- One of the waits of a run: what is watched, from which state on, and what is found. -/
structure Leg (τ : Type) where
  node : Node
  target : WaitTarget
  start : RunState τ
  found : WaitOutcome

namespace CaughtUp

variable (done : CaughtUp scenario s)

/-- The waits of a run in order. -/
def legs : List (Leg τ) := [
  ⟨done.leader, smallTarget scenario.config, done.running.entering .baselineWait, done.baseline⟩,
  ⟨done.leader, largeTarget scenario.config, done.complete.entering .degradationWatch,
    done.degradation⟩,
  ⟨done.late, smallTarget scenario.config, done.steady.entering .lateNodeCatchup, done.catchup⟩]

/-- The wait of a leg. -/
def watching (leg : Leg τ) : Wait τ Call :=
  scenario.watching done.deadline leg.node leg.target leg.start

/-- When tick `i` of a leg begins. -/
def tickMoment (leg : Leg τ) (i : ℕ) : Moment :=
  ((done.watching leg).stageAt leg.start.stage i).clock.now

/-- How long all launches of a run take, in nanoseconds. -/
def launchNanos : ℕ :=
  scenario.site.launchNanos done.ready.stage.field done.homes +
    scenario.site.launchNanos done.grown.stage.field [(done.cast.late, some done.leader)]

/-- What a report says about the run it is about. -/
structure Accounts (report : ScenarioReport) : Prop where
  agrees : report = { done.report with phases := report.phases }
  baseline : scenario.config.smallHeight ≤ report.baseline.height ∧
    report.baseline.node = report.leader.name
  degradation : scenario.config.largeHeight ≤ report.degradation.height ∧
    report.degradation.node = report.leader.name
  catchup : scenario.config.smallHeight ≤ report.catchup.height ∧
    report.catchup.node = report.lateNode.name
  inTime : ∀ leg ∈ done.legs, 0 < leg.found.polls ∧
    ∀ i < leg.found.polls, (done.watching leg).Visits leg.start.stage i ∧
      done.deadline.elapsed (done.tickMoment leg i) < scenario.config.deadline
  elapsed_lt : report.elapsed < scenario.config.deadline
  elapsed_eq : report.elapsed.nanos = done.launchNanos +
    scenario.config.pollInterval.nanos * ((report.baseline.polls - 1) +
      (report.degradation.polls - 1) + (report.catchup.polls - 1))

/-- The launches and the sleeps fill the time from the first launch to the end. -/
theorem nanos_elapsed {interval sleeps sleeps' sleeps'' : ℕ}
    (hbaseline : done.grown.stage.clock.now.nanos =
      done.running.stage.clock.now.nanos + interval * sleeps)
    (hdegradation : done.steady.stage.clock.now.nanos =
      done.complete.stage.clock.now.nanos + interval * sleeps')
    (hcatchup : done.ended.stage.clock.now.nanos =
      done.steady.stage.clock.now.nanos + interval * sleeps'') :
    done.report.elapsed.nanos = done.launchNanos + interval * (sleeps + sleeps' + sleeps'') := by
  -- Entering a phase leaves the clock alone, so the parts follow each other without a gap.
  have hearly := done.launches.clock
  have hlate : done.complete.stage.clock.now.nanos = done.grown.stage.clock.now.nanos +
      scenario.site.launchNanos done.grown.stage.field [(done.cast.late, some done.leader)] :=
    (launches_launch (gives_join done.joined)).clock
  have hstart : done.report.elapsed.nanos =
      done.ended.stage.clock.now.nanos - done.ready.stage.clock.now.nanos := rfl
  rw [hstart, launchNanos, Nat.mul_add, Nat.mul_add]
  omega

end CaughtUp

section Instantaneous

variable (htook : ∀ node field, (scenario.site.poll node field).took = .zero)
include htook

theorem finds_of_gives {deadline : Deadline} {node : Node} {target : WaitTarget}
    {found : WaitOutcome} (h : Gives (scenario.await deadline node target) s found s') :
    (scenario.watching deadline node target s).Finds s.stage found s'.stage :=
  Wait.finds_of_run (fun _ ↦ htook _ _) (gives_await h).1

/-- A report gives the heights that were waited for, and its elapsed time is the time of the
launches and of the sleeps between polls. It is below the deadline, as it was at every poll. -/
theorem exists_accounts_of_run {report : ScenarioReport}
    (h : (scenario.run s).1 = .ok report) :
    ∃ done : CaughtUp scenario s, done.Accounts report := by
  obtain ⟨done, rfl⟩ := exists_caughtUp_of_run h
  have hbaseline := finds_of_gives htook done.waited
  have hdegradation := finds_of_gives htook done.watched
  have hcatchup := finds_of_gives htook done.caughtUp
  refine ⟨done, ?_⟩
  constructor
  · rfl
  · exact ⟨hbaseline.reached, hbaseline.named⟩
  · exact ⟨hdegradation.reached, hdegradation.named⟩
  · exact ⟨hcatchup.reached, hcatchup.named⟩
  · intro leg hleg
    simp only [CaughtUp.legs, List.mem_cons, List.not_mem_nil, or_false] at hleg
    rcases hleg with rfl | rfl | rfl
    · exact ⟨hbaseline.polled, hbaseline.inTime⟩
    · exact ⟨hdegradation.polled, hdegradation.inTime⟩
    · exact ⟨hcatchup.polled, hcatchup.inTime⟩
  · exact hcatchup.notLate
  · exact done.nanos_elapsed hbaseline.slept hdegradation.slept hcatchup.slept

end Instantaneous

/-- Seeding takes five seconds and each launch one. The leader grows by thirty blocks from poll to
poll and is polled twice by each of its waits, so the run takes seven seconds. -/
theorem exists_accounts_of_run_with_slow_seeding :
    let poll : Poller ℕ := fun _ polls ↦
      { outcome := .ok (.ofNat (30 * (polls + 1))), next := polls + 1 }
    let site : Site ℕ := .unfailing (.ofSeconds 5) (.ofSeconds 1) poll
    let scenario : Scenario ℕ := ⟨{ deadline := .ofSeconds 10 }, .generate 3, site⟩
    let s : RunState ℕ := { stage := { field := 0 } }
    ∃ report, (scenario.run s).1 = .ok report ∧ report.elapsed = .ofSeconds 7 ∧
      ∃ done : CaughtUp scenario s, done.Accounts report := by
  intro poll site scenario s
  have helapsed : (scenario.run s).1.toOption.map (·.elapsed) = some (.ofSeconds 7) := by
    decide +kernel +zetaReduce
  cases hrun : (scenario.run s).1 with
  | error stop =>
    rw [hrun] at helapsed
    cases helapsed
  | ok report =>
    rw [hrun] at helapsed
    exact ⟨report, rfl, Option.some.inj helapsed,
      @exists_accounts_of_run ℕ scenario s (fun _ _ ↦ rfl) report hrun⟩

end Scenario

end BlockWatch
