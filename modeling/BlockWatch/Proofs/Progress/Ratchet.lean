import BlockWatch.Proofs.Poll.Replay
import BlockWatch.Proofs.Progress.Course

/-!
# What a wait does not tell apart

A report below the greatest height so far counts as that height, and a failed poll counts as failed,
whatever the cause. So a wait goes the same way if every report is raised to the greatest height so
far and every failure has another cause: the greatest heights, the samples and the count of failures
are the same after every poll, and nothing else of the answers is looked at. Of a script only the
written answers need to be raised, as the height that it repeats at its end is then raised as well.
-/

namespace BlockWatch

namespace Reports

/-- Answers that fail where others do, for whatever cause, and otherwise give the greatest height
that the others have given so far. -/
def Raises (raised reports : Reports) : Prop :=
  ∀ k, (raised k).toOption = (reports k).toOption.map fun _ ↦ reports.peak (k + 1)

theorem peak_succ {reports : Reports} (n : ℕ) :
    reports.peak (n + 1) =
      ((reports n).toOption.map (max (reports.peak n))).getD (reports.peak n) := by
  cases h : reports n with
  | ok height => exact peak_succ_of_ok h
  | error cause => exact peak_succ_of_error h

namespace Raises

variable {raised reports : Reports} (h : raised.Raises reports)
include h

theorem of_ok {k : ℕ} {height : UInt64} (hreport : reports k = .ok height) :
    raised k = .ok (reports.peak (k + 1)) := by
  have hk := h k
  rw [hreport] at hk
  cases hraised : raised k with
  | ok known =>
    rw [hraised] at hk
    exact congrArg Except.ok (Option.some.inj hk)
  | error cause =>
    rw [hraised] at hk
    cases hk

theorem of_error {k : ℕ} {cause : PollError} (hreport : reports k = .error cause) :
    ∃ other, raised k = .error other := by
  have hk := h k
  rw [hreport] at hk
  cases hraised : raised k with
  | ok known =>
    rw [hraised] at hk
    cases hk
  | error other => exact ⟨other, rfl⟩

theorem peak_eq (n : ℕ) : raised.peak n = reports.peak n := by
  induction n with
  | zero => rfl
  | succ n ih =>
    cases hreport : reports n with
    | ok height =>
      rw [peak_succ_of_ok (h.of_ok hreport), ih]
      exact max_eq_reported (peak_mono (Nat.le_succ n))
    | error cause =>
      obtain ⟨other, hother⟩ := h.of_error hreport
      rw [peak_succ_of_error hother, peak_succ_of_error hreport, ih]

theorem failures_eq (n : ℕ) : raised.failures n = reports.failures n := by
  refine List.countP_congr fun i _ ↦ ?_
  rw [h i, Option.isNone_map]

theorem samples_eq (time : ℕ → Moment) (n : ℕ) :
    raised.samples time n = reports.samples time n := by
  refine List.filterMap_congr fun i _ ↦ ?_
  rw [sample?, sample?, h i, h.peak_eq, Option.map_map]
  rfl

end Raises

end Reports

/-! ## Raised scripts -/

namespace Script

/-- Answers with every height raised to the greatest so far, from a known height on. -/
def raise : UInt64 → List Report → List Report
  | _, [] => []
  | known, .ok height :: rest => .ok (max known height) :: raise (max known height) rest
  | known, .error cause :: rest => .error cause :: raise known rest

/-- A script that has come as far as another one, up to a known height, and has the same answers to
come, raised and with any causes of failure. -/
structure Raises (known : UInt64) (raised script : Script) : Prop where
  pending : raised.pending.map Except.toOption = (raise known script.pending).map Except.toOption
  lastHeight : raised.lastHeight = script.lastHeight.map fun _ ↦ known
  bounded : ∀ height, script.lastHeight = some height → height ≤ known

/-- A poll raises its height, the repeated last one included, and then the scripts go on alike. -/
theorem Raises.poll {known : UInt64} {raised script : Script} (h : raised.Raises known script)
    (name : String) :
    (raised.poll name).1.toOption = (script.poll name).1.toOption.map (max known) ∧
      Raises (((script.poll name).1.toOption.map (max known)).getD known)
        (raised.poll name).2 (script.poll name).2 := by
  obtain ⟨pending, last, polls⟩ := script
  obtain ⟨pending', last', polls'⟩ := raised
  obtain ⟨hpending, rfl, hbounded⟩ := h
  cases pending with
  | nil =>
    -- Both scripts are used up, and the known height is what the raised one repeats.
    obtain rfl : pending' = [] := List.map_eq_nil_iff.mp hpending
    cases last with
    | none => exact ⟨rfl, rfl, rfl, nofun⟩
    | some height =>
      have hknown : max known height = known := Reports.max_eq_known (hbounded height rfl)
      refine ⟨congrArg some hknown.symm, ?_⟩
      change Raises (max known height) _ _
      rw [hknown]
      exact ⟨rfl, rfl, hbounded⟩
  | cons answer rest =>
    cases answer with
    | ok height =>
      obtain ⟨answer', rest', rfl, hanswer, hrest⟩ := List.map_eq_cons_iff.mp hpending
      cases answer' with
      | error cause => cases hanswer
      | ok height' =>
        obtain rfl : height' = max known height := Option.some.inj hanswer
        refine ⟨rfl, hrest, rfl, ?_⟩
        rintro _ ⟨⟩
        exact Reports.le_max_reported known height
    | error cause =>
      obtain ⟨answer', rest', rfl, hanswer, hrest⟩ := List.map_eq_cons_iff.mp hpending
      cases answer' with
      | ok height => cases hanswer
      | error other => exact ⟨rfl, hrest, rfl, hbounded⟩

end Script

namespace Scripts

/-- Answers polls by script and without delay. -/
def poller : Poller Scripts := fun node scripts ↦
  { outcome := (scripts.poll node).1, next := (scripts.poll node).2 }

section

variable {node : Node} {raised scripts : Scripts}
  (h : Script.Raises 0 (raised.find node.ordinal) (scripts.find node.ordinal))
include h

/-- After every poll of a node its two scripts have come as far. -/
theorem raises_fieldAfter (k : ℕ) :
    Script.Raises ((poller.reports node scripts).peak k)
      ((poller.fieldAfter node raised k).find node.ordinal)
      ((poller.fieldAfter node scripts k).find node.ordinal) := by
  induction k with
  | zero => exact h
  | succ k ih =>
    rw [Reports.peak_succ]
    simp only [Poller.fieldAfter, poller, poll, find_put]
    exact (ih.poll node.name).2

/-- Scripts with the same answers, raised and with any causes of failure, are replayed so. -/
theorem raises_reports : (poller.reports node raised).Raises (poller.reports node scripts) := by
  intro k
  calc
    (poller.reports node raised k).toOption = (poller.reports node scripts k).toOption.map
        (max ((poller.reports node scripts).peak k)) :=
      ((raises_fieldAfter h k).poll node.name).1
    _ = (poller.reports node scripts k).toOption.map fun _ ↦
        (poller.reports node scripts).peak (k + 1) := by
      cases hreport : poller.reports node scripts k with
      | ok height =>
        rw [Reports.peak_succ_of_ok hreport]
        rfl
      | error cause => rfl

end

end Scripts

/-! ## Two waits in step -/

namespace Wait

variable {τ σ κ : Type}

/-- The same wait with another poller behind it. -/
def asking (wait : Wait τ κ) (other : Poller σ) : Wait σ κ := { wait with poller := other }

/-- Two waits end in the same way, at the same time, after as many polls and the same sleeps. -/
structure InStep (wait : Wait τ κ) (stage : Stage τ κ) (other : Stage σ κ)
    (ending : Outcome × Stage τ κ) (echo : Outcome × Stage σ κ) : Prop where
  outcome : echo.1 = ending.1
  clock : echo.2.clock = ending.2.clock
  polls : ∃ polls, ending.2.calls = stage.calls ++ List.replicate polls (wait.entry wait.node) ∧
    echo.2.calls = other.calls ++ List.replicate polls (wait.entry wait.node)

section

variable {wait : Wait τ κ} {raised : Poller σ} {stage : Stage τ κ} {other : Stage σ κ}
  (hclock : other.clock = stage.clock)
  (htook : ∀ k, (wait.asking raised).took other k = wait.took stage k)

theorem inStep_stageWith (hclock : other.clock = stage.clock) (outcome : Outcome)
    (nanos polls sleeps : ℕ) :
    wait.InStep stage other (outcome, wait.stageWith stage nanos polls sleeps)
      (outcome, (wait.asking raised).stageWith other nanos polls sleeps) := by
  refine ⟨rfl, ?_, polls, rfl, rfl⟩
  simp only [stageWith, hclock]
  rfl

include hclock htook

theorem opening_asking (k : ℕ) :
    (wait.asking raised).opening other k = wait.opening stage k :=
  opening_congr (congrArg Clock.now hclock) htook rfl k

theorem arrival_asking (k : ℕ) :
    (wait.asking raised).arrival other k = wait.arrival stage k :=
  arrival_congr (congrArg Clock.now hclock) htook rfl k

theorem expiredAt_asking (k : ℕ) :
    (wait.asking raised).ExpiredAt other k ↔ wait.ExpiredAt stage k := by
  rw [ExpiredAt, ExpiredAt, opening_asking hclock htook]
  rfl

variable (hraises : ((wait.asking raised).reports other).Raises (wait.reports stage))
include hraises

/-- The loop knows the same at the start of every tick. -/
theorem progressAt_asking (k : ℕ) :
    (wait.asking raised).progressAt other k = wait.progressAt stage k := by
  simp only [progressAt, samples, arrival_asking hclock htook, hraises.peak_eq,
    hraises.failures_eq, hraises.samples_eq]
  rfl

theorem verdictAt_asking (k : ℕ) :
    (wait.asking raised).verdictAt other k = wait.verdictAt stage k := by
  rw [verdictAt, verdictAt, progressAt_asking hclock htook hraises, arrival_asking hclock htook]
  rfl

theorem inStep_ticks_of_expiredAt {k room : ℕ} (hexpired : wait.ExpiredAt stage k) :
    wait.InStep stage other
      (wait.ticks room (wait.progressAt stage k) (wait.stageAt stage k))
      ((wait.asking raised).ticks room ((wait.asking raised).progressAt other k)
        ((wait.asking raised).stageAt other k)) := by
  rw [ticks_of_expired hexpired,
    ticks_of_expired ((expiredAt_asking hclock htook k).mpr hexpired), hraises.peak_eq,
    stageAt, stageAt, opening_asking hclock htook]
  exact inStep_stageWith hclock _ _ _ _

/-- From any tick on, the two waits end in step. -/
theorem inStep_ticks {k room : ℕ} (hopen : wait.opening stage k < Moment.limit) :
    wait.InStep stage other
      (wait.ticks room (wait.progressAt stage k) (wait.stageAt stage k))
      ((wait.asking raised).ticks room ((wait.asking raised).progressAt other k)
        ((wait.asking raised).stageAt other k)) := by
  induction room generalizing k with
  | zero =>
    by_cases hexpired : wait.ExpiredAt stage k
    · exact inStep_ticks_of_expiredAt hclock htook hraises hexpired
    · rw [ticks_zero hexpired, ticks_zero (mt (expiredAt_asking hclock htook k).mp hexpired),
        stageAt, stageAt, opening_asking hclock htook]
      exact inStep_stageWith hclock _ _ _ _
  | succ room ih =>
    by_cases hexpired : wait.ExpiredAt stage k
    · exact inStep_ticks_of_expiredAt hclock htook hraises hexpired
    · have hopens : (wait.asking raised).opening other k < Moment.limit := by
        rwa [opening_asking hclock htook]
      rw [ticks_succ hopen hexpired,
        ticks_succ hopens (mt (expiredAt_asking hclock htook k).mp hexpired),
        verdictAt_asking hclock htook hraises, arrival_asking hclock htook,
        opening_asking hclock htook, opening_asking hclock htook]
      by_cases hanswered : wait.arrival stage k < Moment.limit
      · rw [if_pos hanswered, if_pos hanswered]
        cases wait.verdictAt stage k with
        | some verdict => exact inStep_stageWith hclock _ _ _ _
        | none =>
          by_cases hslept : wait.opening stage (k + 1) < Moment.limit
          · simp only [if_pos hslept]
            exact ih hslept
          · simp only [if_neg hslept]
            exact inStep_stageWith hclock _ _ _ _
      · rw [if_neg hanswered, if_neg hanswered]
        exact inStep_stageWith hclock _ _ _ _

theorem inStep_run : wait.InStep stage other (wait.run stage) ((wait.asking raised).run other) := by
  have hstart : wait.opening stage 0 < Moment.limit := stage.clock.now.bounded
  have hticks := @inStep_ticks _ _ _ wait raised stage other hclock htook hraises 0 maxPolls hstart
  rwa [progressAt_zero, stageAt_zero, progressAt_zero, stageAt_zero] at hticks

end

end Wait

/-! ## Raised answers go unnoticed -/

section

variable {τ σ κ : Type} {poller : Poller τ} {raised : Poller σ} {entry : Node → κ}
  {deadline : Deadline} {width : Span} {node : Node} {target : WaitTarget} {stage : Stage τ κ}
  {other : Stage σ κ}

/-- Two waits that begin at the same time end in the same way, at the same time and after as many
polls and the same sleeps, if the reports of one are those of the other, each raised to the greatest
height so far and with any causes of failure, and come as fast. -/
theorem waitForHeight_of_raises (hclock : other.clock = stage.clock)
    (htook : ∀ k,
      (raised.answer node other.field k).took = (poller.answer node stage.field k).took)
    (hraises : (raised.reports node other.field).Raises (poller.reports node stage.field)) :
    let run := waitForHeight poller entry deadline width node target stage
    let echo := waitForHeight raised entry deadline width node target other
    echo.1 = run.1 ∧ echo.2.clock = run.2.clock ∧
      ∃ polls, run.2.calls = stage.calls ++ List.replicate polls (entry node) ∧
        echo.2.calls = other.calls ++ List.replicate polls (entry node) := by
  intro run echo
  let wait : Wait τ κ :=
    { poller, entry, deadline, width, node, target, started := stage.clock.now }
  have hecho : echo = (wait.asking raised).run other := by
    simp only [echo, waitForHeight, hclock]
    rfl
  have hstep : wait.InStep stage other run echo := by
    rw [hecho]
    exact Wait.inStep_run hclock htook hraises
  exact ⟨hstep.outcome, hstep.clock, hstep.polls⟩

/-- Two scripts, one with a regress and a timeout, the other with neither. -/
theorem waitForHeight_of_raises_scripts :
    let address : Net.Endpoint := .v4 ⟨10, 0, 0, 4⟩ 26657
    let node : Node := ⟨4, .observer, address, address, "", ⟨"/node4"⟩⟩
    let answers : List Report := [.ok 30, .error (.timeout "node4" 500), .ok 12, .ok 40]
    let raised : List Report :=
      [.ok 30, .error (.transport "node4" "connection refused"), .ok 30, .ok 40]
    let wait (script : List Report) := waitForHeight Scripts.poller id ⟨.base, .ofSeconds 60⟩
      (.ofSeconds 7) node ⟨40, .ofSeconds 2, none⟩ { field := ({} : Scripts).withScript 4 script }
    (Scripts.poller.reports node (({} : Scripts).withScript 4 raised)).Raises
        (Scripts.poller.reports node (({} : Scripts).withScript 4 answers)) ∧
      (wait answers).1 = .ok ⟨"node4", 40, 4, 1, .ofRatio false 5 3, .ofSeconds 6⟩ ∧
      (wait raised).1 = (wait answers).1 ∧ (wait raised).2.clock = (wait answers).2.clock := by
  intro address node answers raised wait
  have hscripts : Script.Raises 0 ((({} : Scripts).withScript 4 raised).find 4)
      ((({} : Scripts).withScript 4 answers).find 4) := by
    exact ⟨by decide +zetaReduce, rfl, nofun⟩
  have hraises := @Scripts.raises_reports node _ _ hscripts
  have hrun : (wait answers).1 = .ok ⟨"node4", 40, 4, 1, .ofRatio false 5 3, .ofSeconds 6⟩ := by
    decide +kernel +zetaReduce
  obtain ⟨houtcome, hclock, -⟩ := @waitForHeight_of_raises Scripts Scripts Node Scripts.poller
    Scripts.poller id ⟨.base, .ofSeconds 60⟩ (.ofSeconds 7) node ⟨40, .ofSeconds 2, none⟩
    { field := ({} : Scripts).withScript 4 answers }
    { field := ({} : Scripts).withScript 4 raised } rfl (fun _ ↦ rfl) hraises
  refine ⟨hraises, hrun, houtcome, ?_⟩
  dsimp only [wait]
  exact hclock

end

end BlockWatch
