import BlockWatch.Proofs.Progress.Missed
import BlockWatch.Proofs.Scenario.Journey

/-!
# What the error of a run says

A run that is stopped names the phase in which that happened and the reason. What the reason can be
depends on the phase: only provisioning finds fault with the configuration, only provisioning and the
joining of the late node make calls of bringup, and each of the three waits names its own node, its
own target and the deadline that all share.
-/

namespace BlockWatch

/-! ## Failing calls -/

/-- The call was answered by an error of bringup. -/
def Event.IsFailure (cause : BringupError) : Event → Prop
  | call (.init _) outcome => outcome = .ok (.error (.error cause))
  | call (.populate _ _) outcome => outcome = .ok (.error (.error cause))
  | call (.copySnapshot _ _) outcome => outcome = .ok (.error (.error cause))
  | call (.launch _ _) outcome => outcome = .ok (.error (.error cause))
  | _ => False

/-- The action makes calls of bringup, if any. -/
def Action.CallsBringup : Action → Prop
  | init .. | seed .. | launch .. => True
  | _ => False

namespace Performed

variable {plan : List Action} {log : List Event} {stop : Option (Stop AbortReason)}

/-- Calls of bringup that are stopped without a fault are stopped by the failure of the last one. -/
theorem exists_failure {reason : AbortReason} (h : Performed plan log (some (.error reason)))
    (hcalls : ∀ action ∈ plan, action.CallsBringup) :
    ∃ cause front event, reason = .bringup cause ∧ log = front ++ [event] ∧
      event.IsFailure cause := by
  generalize hstop : some (Stop.error reason) = stop at h
  induction h with
  | nil => cases hstop
  | @step action plan log rest stop _ _ ih =>
    obtain ⟨cause, front, event, hreason, rfl, hfailure⟩ :=
      ih (fun action hmem ↦ hcalls action (List.mem_cons_of_mem _ hmem)) hstop
    exact ⟨cause, log ++ front, event, hreason, (List.append_assoc _ _ _).symm, hfailure⟩
  | cut haction =>
    obtain rfl := Option.some.inj hstop
    have hcall := hcalls _ List.mem_cons_self
    cases haction with
    | init h | generated h | copied h | launch h _ =>
      cases h with
      | failure cause => exact ⟨cause, [], _, rfl, rfl, rfl⟩
    | invalid | incomplete | watch => exact hcall.elim

theorem tracker_eq {τ : Type} {scenario : Scenario τ} {s s' : RunState τ}
    (h : Performed plan log stop) (hlogged : scenario.Logged s log s')
    (hphases : plan.filterMap Action.phase? = []) :
    s'.tracker = s.tracker := by
  have hprefix := h.phases_prefix.1
  rw [hphases, List.prefix_nil] at hprefix
  rw [hlogged.tracker, hprefix]
  rfl

theorem phases_eq_nil (hcalls : ∀ action ∈ plan, action.CallsBringup) :
    plan.filterMap Action.phase? = [] := by
  refine List.filterMap_eq_nil_iff.mpr fun action hmem ↦ ?_
  have hcall := hcalls action hmem
  cases action with
  | enter phase => exact hcall.elim
  | _ => rfl

end Performed

namespace Scenario

variable {τ α : Type} {scenario : Scenario τ} {s start last : RunState τ} {e : ScenarioError}

/-- Of all that was done between two states, the last was a call that failed with this error. -/
def Fails (scenario : Scenario τ) (s last : RunState τ) (cause : BringupError) : Prop :=
  ∃ log event, scenario.Logged s (log ++ [event]) last ∧ event.IsFailure cause

theorem Follows.fails {act : Act τ α} {plans : α → List Action → Prop} {log : List Event}
    (h : scenario.Follows act plans)
    (hcalls : ∀ value plan, plans value plan → ∀ action ∈ plan, action.CallsBringup)
    (hbefore : scenario.Logged s log start) (hact : Stops act start (.error e) last) :
    ∃ cause, e = ⟨start.tracker.current, .bringup cause⟩ ∧ scenario.Fails s last cause := by
  obtain ⟨value, plan, rest, reason, hplan, hperformed, hlogged, hreason⟩ := h.of_stops hact
  cases reason with
  | fault f => cases hreason
  | error reason =>
    cases hreason
    have hcalls := hcalls value plan hplan
    obtain ⟨cause, front, event, rfl, rfl, hfailure⟩ := hperformed.exists_failure hcalls
    have htracker := hperformed.tracker_eq hlogged (Performed.phases_eq_nil hcalls)
    refine ⟨cause, by rw [htracker]; rfl, log ++ front, event, ?_, hfailure⟩
    rw [List.append_assoc]
    exact hbefore.append hlogged

/-! ## The way to each part -/

theorem callsBringup_launchEarly {cast : Cast} {leader : Node} :
    ∀ action ∈ Action.launch cast.leader none (some leader) ::
      (cast.validators ++ cast.early).map (fun home ↦ .launch home (some leader) none),
      action.CallsBringup := by
  intro action hmem
  rcases List.mem_cons.mp hmem with rfl | hrest
  · trivial
  · obtain ⟨home, -, rfl⟩ := List.mem_map.mp hrest
    trivial

theorem Provisioned.exists_logged (done : Provisioned scenario s) :
    done.ready.tracker.current = .provisioning ∧ ∃ log, scenario.Logged s log done.ready := by
  obtain ⟨-, layout, homes, log, hperformed, hlogged⟩ := done.exists_performed
  have hentered : scenario.Logged s [.enter .provisioning] (s.entering .provisioning) :=
    .single rfl
  have htracker := hperformed.tracker_eq hlogged rfl
  exact ⟨by rw [htracker]; rfl, _, hentered.append hlogged⟩

theorem Grown.exists_logged (done : Grown scenario s) :
    ∃ log, scenario.Logged s log done.grown := by
  obtain ⟨-, log, hlogged⟩ := done.toProvisioned.exists_logged
  obtain ⟨_, early, -, -, hearly⟩ :=
    (scenario.follows_launchEarly done.exists_performed.1).of_gives done.launched
  obtain ⟨_, rest, -, -, hrest⟩ := (follows_await _ _ rfl).of_gives done.waited
  exact ⟨_, ((hlogged.append hearly).enter .baselineWait).append hrest⟩

/-! ## Reasons -/

variable (scenario s) in
/-- The waits of a run: the phase, the deadline, which node is to reach which height, and the state
in which the wait begins. -/
inductive Awaits : Phase → Deadline → Node → UInt64 → RunState τ → Prop
  | baselineWait (done : Launched scenario s) :
      Awaits .baselineWait done.deadline done.leader scenario.config.smallHeight done.running
  | degradationWatch (done : Joined scenario s) :
      Awaits .degradationWatch done.deadline done.leader scenario.config.largeHeight done.complete
  | lateNodeCatchup (done : Watched scenario s) :
      Awaits .lateNodeCatchup done.deadline done.late scenario.config.smallHeight done.steady

variable (scenario s) in
/-- What the error of a run from `s` says about the state in which the run was stopped. -/
inductive Blamed (last : RunState τ) : ScenarioError → Prop
  | config {cause : ConfigError} (hinvalid : scenario.config.validate = .error cause)
      (hlast : last = s.entering .provisioning) : Blamed last ⟨.provisioning, .config cause⟩
  | bringup {phase : Phase} {cause : BringupError}
      (hphase : phase = .provisioning ∨ phase = .joinLateNode)
      (hfails : scenario.Fails s last cause) : Blamed last ⟨phase, .bringup cause⟩
  | homes {layout : Layout} {homes : List NodeHome}
      (hlayout : scenarioLayout scenario.config = .ok layout)
      (hinit : (scenario.site.init layout s.stage.field).outcome = .ok homes)
      (hunusable : Cast.ofHomes? homes = none) :
      Blamed last ⟨.provisioning, .bringup (.ofFlaw (.incompleteCast homes.length))⟩
  | late {phase : Phase} {deadline : Deadline} {node : Node} {height latest : UInt64}
      {start : RunState τ} (hwait : Awaits scenario s phase deadline node height start)
      (hexpired : scenario.config.deadline ≤ deadline.elapsed last.stage.clock.now)
      (hlatest : latest < height ∨ last.stage = start.stage) :
      Blamed last ⟨phase, .wait (.deadlineExceeded node.name height latest
        (deadline.elapsed last.stage.clock.now) scenario.config.deadline)⟩
  | slow {latest : UInt64} {rate : Binary64} (done : Joined scenario s)
      (hbelow : rate.lt scenario.config.rateFloor = true) :
      Blamed last ⟨.degradationWatch, .wait (.throughputBelowFloor done.leader.name
        scenario.config.largeHeight latest rate scenario.config.rateFloor)⟩

theorem Blamed.phase_of_isThroughputViolation (h : Blamed scenario s last e)
    (hthroughput : e.isThroughputViolation = true) : e.phase = .degradationWatch := by
  cases h with
  | slow => rfl
  | config | bringup | homes | late => cases hthroughput

theorem Blamed.isSome_node?_iff (h : Blamed scenario s last e) :
    e.node?.isSome = true ↔ e.phase ∈ [.baselineWait, .degradationWatch, .lateNodeCatchup] := by
  cases h with
  | config | homes | slow => simp [ScenarioError.node?]
  | bringup hphase => rcases hphase with rfl | rfl <;> simp [ScenarioError.node?]
  | late hwait => cases hwait <;> simp [ScenarioError.node?]

/-! ## Provisioning -/

theorem blamed_of_stops_provision
    (h : Stops scenario.provision (s.entering .provisioning) (.error e) last) :
    Blamed scenario s last e := by
  have hentered : scenario.Logged s [.enter .provisioning] (s.entering .provisioning) :=
    .single rfl
  -- One case for each act of provisioning. The checks between the calls leave the state alone.
  rw [provision_eq] at h
  rcases stops_bind h with hcheck | ⟨_, s₁, hcheck, hlaying⟩
  · obtain ⟨cause, hinvalid, rfl, hcause⟩ := stops_checkConfig hcheck
    cases hcause
    exact .config hinvalid rfl
  obtain ⟨-, rfl⟩ := gives_checkConfig hcheck
  rcases stops_bind hlaying with hlayout | ⟨layout, s₂, hlayout, hcalling⟩
  · obtain ⟨f, hf⟩ := stops_orFault hlayout
    cases hf
  obtain ⟨hlaidOut, rfl⟩ := gives_orFault hlayout
  rcases stops_bind hcalling with hinit | ⟨homes, s₃, hinit, hassigning⟩
  · obtain ⟨cause, rfl, hfails⟩ := (scenario.follows_init layout).fails
      (fun _ _ hplan ↦ by simp [hplan, Action.CallsBringup]) hentered hinit
    exact .bringup (.inl rfl) hfails
  have hcurrent : s₃.tracker.current = .provisioning := by rw [(gives_bringup hinit).2]; rfl
  rcases stops_bind hassigning with hassign | ⟨cast, s₄, hassign, hseeding⟩
  · obtain ⟨hunusable, rfl, hcause⟩ := stops_assign hassign
    obtain rfl : e = ⟨.provisioning, .bringup (.ofFlaw (.incompleteCast homes.length))⟩ := by
      cases hcause
      exact congrArg (ScenarioError.mk · _) hcurrent
    have houtcome := outcome_of_gives_bringup hinit
    exact .homes hlaidOut houtcome hunusable
  obtain ⟨-, rfl⟩ := gives_assign hassign
  rcases stops_bind hseeding with hseed | ⟨_, s₅, _, hend⟩
  · obtain ⟨_, log, -, -, hlogged⟩ := (scenario.follows_init layout).of_gives hinit
    have hseeds := scenario.follows_seed (homes.map fun home ↦ home.directory)
    have hstart := hentered.append hlogged
    obtain ⟨cause, rfl, hfails⟩ := hseeds.fails
      (fun _ _ hplan ↦ by simp [hplan, Action.CallsBringup]) hstart hseed
    rw [hcurrent]
    exact .bringup (.inl rfl) hfails
  · exact absurd hend not_stops_pure

/-! ## Waits -/

theorem stops_await_error {deadline : Deadline} {node : Node} {target : WaitTarget} {phase : Phase}
    (h : Stops (scenario.await deadline node target) (start.entering phase) (.error e) last) :
    ∃ cause, e = ⟨phase, .wait cause⟩ ∧
      (scenario.watching deadline node target (start.entering phase)).Misses start.stage last.stage
        cause := by
  obtain ⟨cause, hrun, hcause, -⟩ := stops_await h
  cases cause with
  | fault f => cases hcause
  | error cause =>
    cases hcause
    exact ⟨cause, rfl, Wait.misses_of_run hrun⟩

theorem Halts.blamed (h : Halts scenario s (.error e) last) : Blamed scenario s last e := by
  cases h with
  | provisioning h => exact blamed_of_stops_provision h
  | launching done h =>
    obtain ⟨hjoins, -⟩ := done.exists_performed
    obtain ⟨hcurrent, log, hlogged⟩ := done.exists_logged
    obtain ⟨cause, rfl, hfails⟩ := (scenario.follows_launchEarly hjoins).fails
      (fun _ _ hplan ↦ hplan ▸ callsBringup_launchEarly) hlogged h
    rw [hcurrent]
    exact .bringup (.inl rfl) hfails
  | baselineWait done h =>
    obtain ⟨cause, rfl, hmisses⟩ := stops_await_error h
    cases hmisses with
    | late hexpired hlatest => exact .late (.baselineWait done) hexpired hlatest
    | slow hfloor => cases hfloor
  | joining done h =>
    obtain ⟨hjoins, -⟩ := done.exists_performed
    obtain ⟨log, hlogged⟩ := done.exists_logged
    obtain ⟨cause, rfl, hfails⟩ := (scenario.follows_join done.leader hjoins.late).fails
      (fun _ _ hplan ↦ by simp [hplan, Action.CallsBringup]) (hlogged.enter .joinLateNode) h
    exact .bringup (.inr rfl) hfails
  | degradationWatch done h =>
    obtain ⟨cause, rfl, hmisses⟩ := stops_await_error h
    cases hmisses with
    | late hexpired hlatest => exact .late (.degradationWatch done) hexpired hlatest
    | slow hfloor hbelow =>
      obtain rfl := Option.some.inj hfloor
      exact .slow done hbelow
  | lateNodeCatchup done h =>
    obtain ⟨cause, rfl, hmisses⟩ := stops_await_error h
    cases hmisses with
    | late hexpired hlatest => exact .late (.lateNodeCatchup done) hexpired hlatest
    | slow hfloor => cases hfloor

/-- A run that is stopped without a fault blames what has stopped it, and then shuts down. -/
theorem blamed_of_run (h : (scenario.run s).1 = .error (.error e)) :
    ∃ last, (scenario.run s).2.stage.calls = last.stage.calls ++ [.shutdown] ∧
      Blamed scenario s last e ∧
      (e.isThroughputViolation = true → e.phase = .degradationWatch) ∧
      (e.node?.isSome = true ↔
        e.phase ∈ [.baselineWait, .degradationWatch, .lateNodeCatchup]) := by
  obtain ⟨last, hhalts, hcalls⟩ := halts_of_run h
  have hblamed := hhalts.blamed
  exact ⟨last, hcalls, hblamed, hblamed.phase_of_isThroughputViolation, hblamed.isSome_node?_iff⟩

/-- A late node that never answers is blamed once the deadline of one second has passed. -/
theorem blamed_of_run_with_silent_node :
    let poll : Poller Unit := fun node _ ↦
      { outcome := if node.ordinal = 0 then .ok 100 else .error (.timeout node.name 500)
        next := () }
    let site : Site Unit := .unfailing .zero .zero poll
    let scenario : Scenario Unit := ⟨{ deadline := .ofSeconds 1 }, .skip, site⟩
    let s : RunState Unit := { stage := { field := () } }
    let cause : WaitError := .deadlineExceeded "node2" 40 0 (.ofSeconds 2) (.ofSeconds 1)
    (scenario.run s).1 = .error (.error ⟨.lateNodeCatchup, .wait cause⟩) ∧
      ∃ last, Blamed scenario s last ⟨.lateNodeCatchup, .wait cause⟩ := by
  intro poll site scenario s cause
  have hrun : (scenario.run s).1 = .error (.error ⟨.lateNodeCatchup, .wait cause⟩) := by
    decide +kernel +zetaReduce
  obtain ⟨last, -, hblamed, -⟩ := @blamed_of_run Unit scenario s _ hrun
  exact ⟨hrun, last, hblamed⟩

end Scenario

end BlockWatch
