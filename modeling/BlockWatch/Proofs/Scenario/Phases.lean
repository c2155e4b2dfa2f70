import BlockWatch.Proofs.Scenario.Budget

/-!
# The phases of runs

A run enters the phases of its course in order until it stops, and then one terminal phase that says
how it ended. The error of a stopped run names the phase that was entered last. Over runs in a row
the history only grows.
-/

namespace BlockWatch

/-- The phases of a run that nothing stops, up to the terminal one. -/
def Phase.course : List Phase :=
  [.provisioning, .baselineWait, .joinLateNode, .degradationWatch, .lateNodeCatchup]

namespace Scenario

variable {τ : Type} {scenario : Scenario τ} {s : RunState τ}

theorem phases_plan (layout : Layout) (homes : List NodeHome) (cast : Cast) (leader late : Node) :
    (scenario.plan layout homes cast leader late).filterMap Action.phase? = Phase.course := by
  have hlaunches : ((cast.validators ++ cast.early).map fun home ↦
      Action.launch home (some leader) none).filterMap Action.phase? = [] := by
    simp [Action.phase?]
  rw [plan, List.filterMap_append, List.filterMap_append, hlaunches]
  rfl

namespace Passage

variable (passage : Passage scenario s)

/-- The phases that a passage enters. -/
def phases : List Phase := passage.log.filterMap Event.phase?

theorem phases_prefix : passage.phases <+: Phase.course := by
  rw [← phases_plan passage.layout passage.homes passage.cast passage.leader passage.late]
  exact passage.performed.phases_prefix.1

theorem phases_eq_course (h : passage.stop = none) : passage.phases = Phase.course := by
  rw [← phases_plan passage.layout passage.homes passage.cast passage.leader passage.late]
  exact passage.performed.phases_prefix.2 h

/-- Every run enters its first phase. -/
theorem phases_ne_nil : passage.phases ≠ [] := by
  have hperformed := passage.performed
  unfold phases
  generalize passage.log = log, passage.stop = stop at hperformed
  cases hperformed with
  | step hends _ =>
    cases hends
    simp [Event.phase?]
  | cut hends => cases hends

theorem history_last : passage.last.tracker.history = s.tracker.history ++ passage.phases := by
  rw [passage.logged.tracker, PhaseTracker.history_enterAll]
  rfl

/-- The current phase of a passage is the last one that it entered. -/
theorem getLast?_phases : passage.phases.getLast? = some passage.last.tracker.current := by
  rw [passage.logged.tracker]
  exact PhaseTracker.getLast?_enterAll _ passage.phases_ne_nil

end Passage

/-! ## One run -/

/-- What a run adds to the history, by how it ends. -/
structure Advances (scenario : Scenario τ) (s : RunState τ) (passed : List Phase) : Prop where
  started : passed ≠ []
  inOrder : passed <+: Phase.course
  current : (scenario.run s).2.tracker.history.getLast? =
    some (scenario.run s).2.tracker.current
  ends : match (scenario.run s).1 with
    | .ok report =>
      passed = Phase.course ∧
        (scenario.run s).2.tracker.history = s.tracker.history ++ passed ++ [.done] ∧
        report.phases = (scenario.run s).2.tracker.history
    | .error (.error e) =>
      passed.getLast? = some e.phase ∧
        (scenario.run s).2.tracker.history = s.tracker.history ++ passed ++ [.aborted]
    | .error (.fault f) =>
      (scenario.run s).2.tracker.history = s.tracker.history ++ passed ∧
        scenario.FaultReason s (scenario.run s).2 f

theorem exists_advances (scenario : Scenario τ) (s : RunState τ)
    (hfits : scenario.config.topology.validators.toNat +
      scenario.config.topology.observers.toNat < UInt64.size) :
    ∃ passed, scenario.Advances s passed := by
  obtain ⟨passage, report, -, -, hexecute⟩ := exists_passage scenario s hfits
  have hend := (run_of_execute hexecute).2
  refine ⟨passage.phases, passage.phases_ne_nil, passage.phases_prefix, ?_, ?_⟩
  · rcases hend with ⟨-, htracker⟩ | ⟨-, -, -, -, htracker⟩
    · rw [htracker, passage.logged.tracker, ← PhaseTracker.enterAll_append]
      exact PhaseTracker.getLast?_history_enterAll _
        (List.append_ne_nil_of_left_ne_nil passage.phases_ne_nil _)
    · rw [htracker, passage.logged.tracker]
      exact PhaseTracker.getLast?_history_enterAll _ passage.phases_ne_nil
  · rcases hend with ⟨houtcome, htracker⟩ | ⟨-, f, -, houtcome, htracker⟩
    · have hhistory : (scenario.run s).2.tracker.history =
          s.tracker.history ++ passage.phases ++ concluding passage.stop := by
        rw [htracker, PhaseTracker.history_enterAll, passage.history_last]
      cases hstop : passage.stop with
      | none =>
        rw [hstop] at houtcome hhistory
        rw [houtcome]
        refine ⟨passage.phases_eq_course hstop, hhistory, ?_⟩
        rw [hhistory, ← passage.history_last]
        rfl
      | some stop =>
        rw [hstop] at houtcome hhistory
        cases stop with
        | error reason =>
          rw [houtcome]
          exact ⟨passage.getLast?_phases, hhistory⟩
        | fault f =>
          have hreason := faultReason_of_run houtcome
          rw [houtcome]
          exact ⟨hhistory.trans (List.append_nil _), hreason⟩
    · have hreason := faultReason_of_run houtcome
      rw [houtcome, htracker]
      exact ⟨passage.history_last, hreason⟩

/-! ## Runs in a row -/

/-- The tracker before each of some runs in a row, whatever the stages on which they take place. -/
def trackerBefore (scenario : Scenario τ) (stages : ℕ → Stage τ Call) : ℕ → PhaseTracker
  | 0 => {}
  | n + 1 => (scenario.run ⟨stages n, trackerBefore scenario stages n⟩).2.tracker

/-- A run never changes or removes what it finds in the history. -/
theorem Advances.history_prefix {passed : List Phase} (h : scenario.Advances s passed) :
    s.tracker.history <+: (scenario.run s).2.tracker.history := by
  have hends := h.ends
  cases houtcome : (scenario.run s).1 with
  | ok report =>
    rw [houtcome] at hends
    rw [hends.2.1, List.append_assoc]
    exact List.prefix_append _ _
  | error stop =>
    rw [houtcome] at hends
    cases stop with
    | error e =>
      rw [hends.2, List.append_assoc]
      exact List.prefix_append _ _
    | fault f =>
      rw [hends.1]
      exact List.prefix_append _ _

section Runs

variable (hfits : scenario.config.topology.validators.toNat +
  scenario.config.topology.observers.toNat < UInt64.size) (stages : ℕ → Stage τ Call)
include hfits

theorem trackerBefore_prefix {m n : ℕ} (hmn : m ≤ n) :
    (scenario.trackerBefore stages m).history <+: (scenario.trackerBefore stages n).history := by
  induction n, hmn using Nat.le_induction with
  | base => exact List.prefix_refl _
  | succ n _ ih =>
    obtain ⟨passed, hadvances⟩ :=
      exists_advances scenario ⟨stages n, scenario.trackerBefore stages n⟩ hfits
    exact ih.trans hadvances.history_prefix

/-- Each of some runs in a row adds the phases it passed and a terminal phase that fits its outcome,
and leaves alone all that was in the history before any of them. -/
theorem phases_of_runs (n : ℕ) :
    let before : RunState τ := ⟨stages n, scenario.trackerBefore stages n⟩
    (∃ passed, scenario.Advances before passed) ∧
      ∀ m ≤ n, (scenario.trackerBefore stages m).history <+:
        (scenario.run before).2.tracker.history := by
  intro before
  refine ⟨exists_advances scenario before hfits, fun m hmn ↦ ?_⟩
  have hlater : m ≤ n + 1 := hmn.trans (Nat.le_succ n)
  exact trackerBefore_prefix hfits stages hlater

end Runs

/-- Without a cluster every run is aborted while it is provisioned. -/
theorem phases_of_runs_without_cluster :
    let nothing {α : Type} (_ : Unit) : Answer Unit (Except (Stop BringupError) α) :=
      { outcome := .error (.error (.ofFlaw (.incompleteCast 0))), next := () }
    let site : Site Unit := {
      init := fun _ ↦ nothing
      populate := fun _ _ ↦ nothing
      copySnapshot := fun _ _ ↦ nothing
      launch := fun _ _ ↦ nothing
      shutdown := nothing
      poll := fun node _ ↦ { outcome := .error (.timeout node.name 0), next := () } }
    let scenario : Scenario Unit := ⟨{}, .skip, site⟩
    let stages : ℕ → Stage Unit Call := fun _ ↦ { field := () }
    (∃ passed, scenario.Advances ⟨stages 2, scenario.trackerBefore stages 2⟩ passed) ∧
      (scenario.trackerBefore stages 2).history =
        [.provisioning, .aborted, .provisioning, .aborted] := by
  intro nothing site scenario stages
  have hfits : scenario.config.topology.validators.toNat +
      scenario.config.topology.observers.toNat < UInt64.size := by decide +zetaReduce
  exact ⟨(phases_of_runs hfits stages 2).1, by decide +kernel +zetaReduce⟩

end Scenario

end BlockWatch
