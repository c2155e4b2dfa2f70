import BlockWatch.Proofs.Scenario.Plan

/-!
# Runs from start to shutdown

A run passes along its plan, is stopped or not, and then shuts the cluster down. Only a fault keeps
it from the shutdown. What comes back from the shutdown is not looked at, so a run whose cluster is
shut down in another way passes along its plan just the same.
-/

namespace BlockWatch

namespace Scenario

variable {τ : Type}

/-- What a run did until its shutdown. -/
structure Passage (scenario : Scenario τ) (s : RunState τ) where
  layout : Layout
  homes : List NodeHome
  cast : Cast
  leader : Node
  late : Node
  log : List Event
  stop : Option (Stop AbortReason)
  last : RunState τ
  laidOut : scenarioLayout scenario.config = .ok layout
  performed : Performed (scenario.plan layout homes cast leader late) log stop
  logged : scenario.Logged s log last

variable {scenario : Scenario τ} {s : RunState τ}

theorem exists_scenarioLayout {config : ScenarioConfig}
    (h : config.topology.validators.toNat + config.topology.observers.toNat < UInt64.size) :
    ∃ layout, scenarioLayout config = .ok layout := by
  have hcount : config.topology.nodeCount =
      .ok (config.topology.validators.toNat + config.topology.observers.toNat) := if_pos h
  simp only [scenarioLayout, hcount]
  exact ⟨_, rfl⟩

/-- A run before its shutdown is a passage along its plan. -/
theorem exists_passage (scenario : Scenario τ) (s : RunState τ)
    (hfits : scenario.config.topology.validators.toNat +
      scenario.config.topology.observers.toNat < UInt64.size) :
    ∃ (passage : Passage scenario s) (report : ScenarioReport),
      report.leader = passage.leader ∧ report.lateNode = passage.late ∧
      scenario.execute.run.run s =
        (settled report passage.last.tracker passage.stop, passage.last) := by
  obtain ⟨layout, hlayout⟩ := exists_scenarioLayout hfits
  obtain ⟨report, _, log, stop, last, ⟨homes, cast, rfl⟩, hperformed, hlogged, hrun⟩ :=
    follows_execute hlayout s
  exact ⟨⟨layout, homes, cast, report.leader, report.lateNode, log, stop, last, hlayout,
    hperformed, hlogged⟩, report, rfl, rfl, hrun⟩

/-! ## Shutdown -/

/-- The scenario whose cluster is shut down in another way. -/
def closedBy (scenario : Scenario τ) (close : τ → Answer τ (Except (Stop BringupError) Unit)) :
    Scenario τ :=
  { scenario with site := { scenario.site with shutdown := close } }

theorem closedBy_self (scenario : Scenario τ) :
    scenario.closedBy scenario.site.shutdown = scenario := rfl

section Closed

variable (close : τ → Answer τ (Except (Stop BringupError) Unit))

theorem launch_closedBy : (scenario.closedBy close).launch = scenario.launch := rfl

theorem launchAll_closedBy (leader : Node) (homes : List NodeHome) :
    (scenario.closedBy close).launchAll leader homes = scenario.launchAll leader homes := by
  induction homes with
  | nil => rfl
  | cons home rest ih => rw [launchAll, launchAll, launch_closedBy, ih]

theorem join_closedBy : (scenario.closedBy close).join = scenario.join := rfl

theorem joinAll_closedBy (leader : Node) (homes : List NodeHome) :
    (scenario.closedBy close).joinAll leader homes = scenario.joinAll leader homes := by
  induction homes with
  | nil => rfl
  | cons home rest ih => rw [joinAll, joinAll, join_closedBy, ih]

theorem await_closedBy : (scenario.closedBy close).await = scenario.await := by
  have hpoll : (scenario.closedBy close).site.poll = scenario.site.poll := rfl
  have hconfig : (scenario.closedBy close).config = scenario.config := rfl
  funext deadline node target
  simp only [await, hpoll, hconfig]

/-- How the cluster will be shut down makes no difference before. -/
theorem execute_closedBy : (scenario.closedBy close).execute = scenario.execute := by
  simp only [execute, launch_closedBy, launchAll_closedBy, join_closedBy, joinAll_closedBy,
    await_closedBy]
  rfl

end Closed

/-- A shutdown that begins in a state runs into a fault. -/
def ShutdownFault (scenario : Scenario τ) (s : RunState τ) (f : Fault) : Prop :=
  ∃ outcome closed, scenario.Step s (.call .shutdown outcome) closed ∧
    scenario.Breaks s (.call .shutdown outcome) f

/-- A shutdown is one call. It fails only with a fault of that call. -/
theorem shutdown_step (scenario : Scenario τ) (s : RunState τ) :
    ∃ outcome, scenario.Step s (.call .shutdown outcome) (scenario.shutdown s).2 ∧
      ∀ f, (scenario.shutdown s).1 = .error f →
        scenario.Breaks s (.call .shutdown outcome) f := by
  have hstep : scenario.Step s
      (.call .shutdown (s.stage.call .shutdown (scenario.site.shutdown s.stage.field)).1)
      { s with stage := (s.stage.call .shutdown (scenario.site.shutdown s.stage.field)).2 } :=
    ⟨rfl, rfl⟩
  unfold shutdown
  generalize s.stage.call Call.shutdown (scenario.site.shutdown s.stage.field) = called at hstep ⊢
  rcases called with ⟨f | (cause | f) | value, stage⟩
  · refine ⟨_, hstep, fun g hg ↦ hstep.breaks ?_⟩
    exact Except.error.inj hg
  · exact ⟨_, hstep, nofun⟩
  · refine ⟨_, hstep, fun g hg ↦ hstep.breaks ?_⟩
    exact Except.error.inj hg ▸ rfl
  · exact ⟨_, hstep, nofun⟩

/-- A shutdown is recorded as a call, whether or not it succeeds. -/
theorem shutdown_spec (scenario : Scenario τ) (s : RunState τ) :
    (scenario.shutdown s).2.stage.calls = s.stage.calls ++ [.shutdown] ∧
      (scenario.shutdown s).2.tracker = s.tracker ∧
      ∀ f, (scenario.shutdown s).1 = .error f → scenario.ShutdownFault s f := by
  obtain ⟨outcome, hstep, hfault⟩ := scenario.shutdown_step s
  have hlogged : scenario.Logged s [.call .shutdown outcome] (scenario.shutdown s).2 :=
    .single hstep
  exact ⟨hlogged.calls, hlogged.tracker, fun f hf ↦ ⟨outcome, _, hstep, hfault f hf⟩⟩

/-- The calls after a passage: only a fault keeps a run from the shutdown. -/
def closing : Option (Stop AbortReason) → List Call
  | some (.fault _) => []
  | _ => [.shutdown]

theorem closing_eq_shutdown {stop : Option (Stop AbortReason)}
    (h : ∀ f, stop ≠ some (.fault f)) : closing stop = [.shutdown] := by
  match stop with
  | none => rfl
  | some (.error _) => rfl
  | some (.fault f) => exact absurd rfl (h f)

/-- The phase after a passage and its shutdown. -/
def concluding : Option (Stop AbortReason) → List Phase
  | none => [.done]
  | some (.error _) => [.aborted]
  | some (.fault _) => []

/-- A run ends as its passage does and enters its last phase, unless the shutdown runs into a
fault. -/
theorem run_of_execute {report : ScenarioReport} {stop : Option (Stop AbortReason)}
    {last : RunState τ}
    (h : scenario.execute.run.run s = (settled report last.tracker stop, last)) :
    (scenario.run s).2.stage.calls = last.stage.calls ++ closing stop ∧
      ((scenario.run s).1 =
          settled { report with phases := last.tracker.history ++ [.done] } last.tracker stop ∧
        (scenario.run s).2.tracker = last.tracker.enterAll (concluding stop) ∨
      closing stop = [.shutdown] ∧ ∃ f, scenario.ShutdownFault last f ∧
        (scenario.run s).1 = .error (.fault f) ∧ (scenario.run s).2.tracker = last.tracker) := by
  obtain ⟨hcalls, htracker, hfault⟩ := scenario.shutdown_spec last
  generalize hclosed : scenario.shutdown last = closed at hcalls htracker hfault
  obtain ⟨outcome, closed⟩ := closed
  replace htracker : closed.tracker = last.tracker := htracker
  unfold run
  rw [h]
  cases stop with
  | none =>
    simp only [settled, hclosed]
    cases outcome with
    | ok _ =>
      refine ⟨hcalls, .inl ⟨?_, ?_⟩⟩
      · simp only [PhaseTracker.enter, htracker]
      · exact congrArg (PhaseTracker.enter · .done) htracker
    | error f => exact ⟨hcalls, .inr ⟨rfl, f, hfault f rfl, rfl, htracker⟩⟩
  | some stop =>
    cases stop with
    | fault f => exact ⟨(List.append_nil _).symm, .inl ⟨rfl, rfl⟩⟩
    | error reason =>
      simp only [settled, Stop.map, hclosed]
      cases outcome with
      | ok _ => exact ⟨hcalls, .inl ⟨rfl, congrArg (PhaseTracker.enter · .aborted) htracker⟩⟩
      | error f => exact ⟨hcalls, .inr ⟨rfl, f, hfault f rfl, rfl, htracker⟩⟩

end Scenario

end BlockWatch
