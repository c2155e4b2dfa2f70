import BlockWatch.Proofs.Progress.Ending
import BlockWatch.Proofs.Progress.Rate

/-!
# The tick at which a wait stops

When polls take no time, a wait ticks at its start and then once an interval. What ends it at a tick
is a property of the answers up to that tick alone: the deadline, then the rate over the samples,
then the greatest height. A schedule says this without any state, and the wait ends exactly as its
schedule does at the first tick that ends it.
-/

namespace BlockWatch

/-- What decides when a wait stops. -/
structure Schedule where
  name : String
  target : WaitTarget
  deadline : Deadline
  width : Span
  started : Moment
  reports : Reports

namespace Schedule

/-- How a wait ends and how many polls it makes until then. -/
structure Ending where
  result : Except WaitError WaitOutcome
  polls : ℕ
deriving DecidableEq

variable (schedule : Schedule)

/-- When tick `k` begins, in nanoseconds: `k` intervals after the start. -/
def nanosAt (k : ℕ) : ℕ := schedule.started.nanos + k * schedule.target.pollInterval.nanos

def tick (k : ℕ) : Moment := .ofNanos (schedule.nanosAt k)

/-- The samples of the polls up to poll `k`. -/
def samplesAt (k : ℕ) : List Sample := schedule.reports.samples schedule.tick (k + 1)

/-- The rate over the samples up to poll `k`. -/
def rateAt (k : ℕ) : Binary64 := Window.rateOver schedule.width (schedule.samplesAt k)

/-- Tick `k` comes at the deadline or after it. -/
def IsLate (k : ℕ) : Prop :=
  schedule.deadline.limit.nanos ≤ schedule.nanosAt k - schedule.deadline.startedAt.nanos

instance (k : ℕ) : Decidable (schedule.IsLate k) :=
  inferInstanceAs (Decidable (_ ≤ schedule.nanosAt k - _))

/-- The floor, if there is one and the rate over at least two samples lies below it. -/
def brokenFloor? (k : ℕ) : Option Binary64 :=
  schedule.target.rateFloor.filter fun floor ↦
    decide (2 ≤ (schedule.samplesAt k).length) && (schedule.rateAt k).lt floor

/-- The result after poll `k`, if that poll ends the wait. -/
def result? (k : ℕ) : Option (Except WaitError WaitOutcome) :=
  match schedule.brokenFloor? k with
  | some floor => some (.error (.throughputBelowFloor schedule.name schedule.target.height
      (schedule.reports.peak (k + 1)) (schedule.rateAt k) floor))
  | none =>
    if schedule.target.height ≤ schedule.reports.peak (k + 1) then
      some (.ok {
        node := schedule.name
        height := schedule.reports.peak (k + 1)
        polls := k + 1
        failedPolls := schedule.reports.failures (k + 1)
        rate := schedule.rateAt k
        elapsed := (schedule.tick k).since schedule.started })
    else none

/-- How tick `k` ends the wait, if it does. At the deadline the node is not polled again. -/
def ending? (k : ℕ) : Option Ending :=
  if schedule.IsLate k then
    some ⟨.error (.deadlineExceeded schedule.name schedule.target.height (schedule.reports.peak k)
      (schedule.deadline.elapsed (schedule.tick k)) schedule.deadline.limit), k⟩
  else (schedule.result? k).map fun result ↦ ⟨result, k + 1⟩

/-- Tick `k` is the first one that ends the wait. -/
structure StopsAt (k : ℕ) (ending : Ending) : Prop where
  ends : schedule.ending? k = some ending
  goesOn : ∀ i < k, schedule.ending? i = none

variable {schedule}

/-- Every schedule reaches its deadline. -/
theorem exists_stopsAt (hinterval : 0 < schedule.target.pollInterval.nanos) :
    ∃ k ending, schedule.StopsAt k ending := by
  let last := schedule.deadline.startedAt.nanos + schedule.deadline.limit.nanos
  have hlate : schedule.IsLate last := by
    have hticks : last ≤ last * schedule.target.pollInterval.nanos :=
      Nat.le_mul_of_pos_right last hinterval
    simp only [IsLate, nanosAt]
    omega
  have hexists : ∃ k, schedule.ending? k ≠ none := by
    refine ⟨last, ?_⟩
    rw [ending?, if_pos hlate]
    exact Option.some_ne_none _
  obtain ⟨ending, hending⟩ := Option.ne_none_iff_exists'.mp (Nat.find_spec hexists)
  exact ⟨Nat.find hexists, ending, hending, fun i hi ↦ not_not.mp (Nat.find_min hexists hi)⟩

theorem nanosAt_mono {i k : ℕ} (h : i ≤ k) : schedule.nanosAt i ≤ schedule.nanosAt k :=
  Nat.add_le_add_left (Nat.mul_le_mul_right _ h) _

end Schedule

namespace Wait

variable {τ κ : Type} (wait : Wait τ κ) (stage : Stage τ κ)

/-- The schedule of a wait that starts at a stage. -/
def schedule : Schedule where
  name := wait.node.name
  target := wait.target
  deadline := wait.deadline
  width := wait.width
  started := stage.clock.now
  reports := wait.reports stage

variable {wait stage}

/-! ## The course of a wait whose polls take no time -/

section Instantaneous

variable (htook : ∀ k, wait.took stage k = .zero)
include htook

theorem opening_eq_nanosAt (k : ℕ) : wait.opening stage k = (wait.schedule stage).nanosAt k := by
  induction k with
  | zero => simp [opening, Schedule.nanosAt, schedule]
  | succ k ih =>
    simp only [opening, ih, htook k, Schedule.nanosAt, schedule, Span.zero, Nat.succ_mul]
    omega

theorem arrival_eq_nanosAt (k : ℕ) : wait.arrival stage k = (wait.schedule stage).nanosAt k := by
  rw [arrival, htook k, opening_eq_nanosAt htook k]
  rfl

theorem samples_eq_samplesAt (k : ℕ) :
    wait.samples stage (k + 1) = (wait.schedule stage).samplesAt k := by
  simp only [samples, arrival_eq_nanosAt htook]
  rfl

theorem expiredAt_iff_isLate {k : ℕ} (hclock : (wait.schedule stage).nanosAt k < Moment.limit) :
    wait.ExpiredAt stage k ↔ (wait.schedule stage).IsLate k := by
  simp only [ExpiredAt, Deadline.expired, Deadline.elapsed, decide_eq_true_eq, Span.le_def,
    Moment.nanos_since, opening_eq_nanosAt htook, Moment.nanos_ofNanos hclock]
  rfl

/-- The loop judges a tick as the schedule does. -/
theorem verdictAt_eq_result? (hstarted : wait.started = stage.clock.now) (k : ℕ) :
    wait.verdictAt stage k = (wait.schedule stage).result? k := by
  have hwindow : (wait.progressAt stage (k + 1)).window =
      ⟨wait.width, Window.retained wait.width ((wait.schedule stage).samplesAt k)⟩ := by
    simp only [progressAt, samples_eq_samplesAt htook]
  have hrate : (wait.progressAt stage (k + 1)).window.rate = (wait.schedule stage).rateAt k := by
    rw [hwindow, Window.rate_retained]
    rfl
  have hbelow (floor : Binary64) : (wait.progressAt stage (k + 1)).isBelow floor =
      (decide (2 ≤ ((wait.schedule stage).samplesAt k).length) &&
        ((wait.schedule stage).rateAt k).lt floor) := by
    rw [Progress.isBelow, hrate, hwindow, Window.hasRate_retained]
    rfl
  have htime : (Moment.ofNanos (wait.arrival stage k)) = (wait.schedule stage).tick k := by
    rw [arrival_eq_nanosAt htook]
    rfl
  rw [verdictAt, Progress.verdict?, Schedule.result?, Schedule.brokenFloor?, hrate, htime, hstarted]
  change (match wait.target.rateFloor with | some floor => _ | none => _) =
    match wait.target.rateFloor.filter _ with | some floor => _ | none => _
  cases wait.target.rateFloor with
  | none => rfl
  | some floor =>
    simp only [hbelow, Option.filter_some]
    split <;> rfl

theorem goesOn_of_ending?_eq_none (hstarted : wait.started = stage.clock.now) {i k : ℕ}
    (hik : i < k) (hclock : (wait.schedule stage).nanosAt k < Moment.limit)
    (h : (wait.schedule stage).ending? i = none) : wait.GoesOn stage i := by
  have hnow : (wait.schedule stage).nanosAt i < Moment.limit :=
    (Schedule.nanosAt_mono hik.le).trans_lt hclock
  have hnext : (wait.schedule stage).nanosAt (i + 1) < Moment.limit :=
    (Schedule.nanosAt_mono hik).trans_lt hclock
  rw [Schedule.ending?] at h
  split_ifs at h with hlate
  constructor
  · rwa [expiredAt_iff_isLate htook hnow]
  · rwa [arrival_eq_nanosAt htook]
  · rw [verdictAt_eq_result? htook hstarted]
    exact Option.map_eq_none_iff.mp h
  · rwa [opening_eq_nanosAt htook]

/-- The wait ends as its schedule does. -/
theorem run_of_stopsAt (hstarted : wait.started = stage.clock.now) {k : ℕ}
    {ending : Schedule.Ending} (hstops : (wait.schedule stage).StopsAt k ending)
    (hclock : (wait.schedule stage).nanosAt k < Moment.limit)
    (hpolls : ending.polls ≤ maxPolls) :
    wait.run stage = (ending.result.mapError .error,
      wait.stageWith stage ((wait.schedule stage).nanosAt k) ending.polls k) := by
  have hgoes : ∀ i < k, wait.GoesOn stage i := fun i hi ↦
    goesOn_of_ending?_eq_none htook hstarted hi hclock (hstops.goesOn i hi)
  have hends := hstops.ends
  rw [Schedule.ending?] at hends
  split_ifs at hends with hlate
  · obtain rfl := Option.some.inj hends
    rw [run_of_expiredAt hgoes hpolls ((expiredAt_iff_isLate htook hclock).mpr hlate), stageAt,
      opening_eq_nanosAt htook]
    rfl
  · obtain ⟨result, hresult, rfl⟩ := Option.map_eq_some_iff.mp hends
    have htick : wait.PollsAt stage k :=
      ⟨by rwa [expiredAt_iff_isLate htook hclock], Nat.lt_of_succ_le hpolls⟩
    have hanswered : wait.arrival stage k < Moment.limit := by rwa [arrival_eq_nanosAt htook]
    have hverdict : wait.verdictAt stage k = some result :=
      (verdictAt_eq_result? htook hstarted k).trans hresult
    rw [run_of_verdictAt hgoes htick hanswered hverdict, arrival_eq_nanosAt htook]

end Instantaneous

end Wait

/-! ## The first tick that ends a wait -/

section

variable {τ κ : Type} {poller : Poller τ} {entry : Node → κ} {deadline : Deadline} {width : Span}
  {node : Node} {target : WaitTarget} {stage : Stage τ κ}

/-- A wait whose polls take no time ends at the first tick that ends its schedule, after the polls
and with the result that the schedule says. There is such a tick, and until then the wait sleeps
one interval a tick and makes no other call. -/
theorem waitForHeight_eq_schedule (hinterval : 0 < target.pollInterval.nanos)
    (htook : ∀ k, (poller.answer node stage.field k).took = .zero) :
    let schedule : Schedule :=
      ⟨node.name, target, deadline, width, stage.clock.now, poller.reports node stage.field⟩
    (∃ k ending, schedule.StopsAt k ending) ∧
      ∀ k ending, schedule.StopsAt k ending →
        schedule.nanosAt k < Moment.limit → ending.polls < UInt32.size →
          waitForHeight poller entry deadline width node target stage =
            (ending.result.mapError .error,
              { clock := {
                  now := schedule.tick k
                  sleeps := stage.clock.sleeps ++ List.replicate k target.pollInterval }
                calls := stage.calls ++ List.replicate ending.polls (entry node)
                field := poller.fieldAfter node stage.field ending.polls }) := by
  intro schedule
  let wait : Wait τ κ :=
    { poller, entry, deadline, width, node, target, started := stage.clock.now }
  refine ⟨Schedule.exists_stopsAt hinterval, fun k ending hstops hclock hpolls ↦ ?_⟩
  have hroom : ending.polls ≤ Wait.maxPolls := Nat.le_pred_of_lt hpolls
  have hinstant : ∀ i, wait.took stage i = .zero := htook
  exact Wait.run_of_stopsAt hinstant rfl hstops hclock hroom

/-- A node that stands at height 5 is given up at the second poll. -/
theorem waitForHeight_eq_schedule_of_standstill :
    let poller : Poller Unit := fun _ _ ↦ { outcome := .ok 5, next := () }
    let address : Net.Endpoint := .v4 ⟨10, 0, 0, 4⟩ 26657
    let node : Node := ⟨4, .observer, address, address, "", ⟨"/node4"⟩⟩
    let target : WaitTarget := ⟨100, .ofSeconds 2, some (.ofNat 1)⟩
    let stage : Stage Unit Node := { field := () }
    let run := waitForHeight poller id ⟨.base, .ofSeconds 60⟩ (.ofSeconds 10) node target stage
    run.1 = .error (.error (.throughputBelowFloor "node4" 100 5 .zero (.ofNat 1))) ∧
      run.2.calls = [node, node] ∧ run.2.clock.sleeps = [.ofSeconds 2] := by
  intro poller address node target stage run
  let schedule : Schedule :=
    ⟨node.name, target, ⟨.base, .ofSeconds 60⟩, .ofSeconds 10, .base, poller.reports node ()⟩
  have hinterval : 0 < target.pollInterval.nanos := by decide +zetaReduce
  have hstops : schedule.StopsAt 1
      ⟨.error (.throughputBelowFloor "node4" 100 5 .zero (.ofNat 1)), 2⟩ :=
    ⟨by decide +kernel +zetaReduce, by decide +kernel +zetaReduce⟩
  have hclock : schedule.nanosAt 1 < Moment.limit := by decide +zetaReduce
  have htook : ∀ k, (poller.answer node stage.field k).took = .zero := fun _ ↦ rfl
  have hpolls : 2 < UInt32.size := by decide
  have hresult := (@waitForHeight_eq_schedule Unit Node poller id ⟨.base, .ofSeconds 60⟩
    (.ofSeconds 10) node target stage hinterval htook).2 1 _ hstops hclock hpolls
  have hrun : run = _ := hresult
  rw [hrun]
  exact ⟨rfl, rfl, rfl⟩

end

end BlockWatch
