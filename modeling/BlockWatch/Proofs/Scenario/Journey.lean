import BlockWatch.Proofs.Scenario.Passage

/-!
# How far a run gets

Before its shutdown a run goes through six parts: it provisions the cluster, launches all nodes but
the late one, waits, lets the late node join, and waits twice more. Each part that is done leaves
what the later parts need and the state in which they start. A run either does all parts or is
stopped in one of them, after it has done those before.
-/

namespace BlockWatch

namespace Scenario

variable {τ α β : Type} {scenario : Scenario τ} {s s' s'' : RunState τ}

/-! ## Acts that give a value and acts that are stopped -/

/-- From a state on, the act gives a value and leaves another state. -/
def Gives (act : Act τ α) (s : RunState τ) (value : α) (s' : RunState τ) : Prop :=
  act.run.run s = (.ok value, s')

/-- From a state on, the act is stopped and leaves another state. -/
def Stops (act : Act τ α) (s : RunState τ) (stop : Stop ScenarioError) (s' : RunState τ) : Prop :=
  act.run.run s = (.error stop, s')

theorem gives_bind {act : Act τ α} {f : α → Act τ β} {last : β}
    (h : Gives (act >>= f) s last s'') :
    ∃ value s', Gives act s value s' ∧ Gives (f value) s' last s'' := by
  unfold Gives at h
  rw [run_bind] at h
  generalize hact : act.run.run s = done at h
  obtain ⟨outcome, s'⟩ := done
  cases outcome with
  | ok value => exact ⟨value, s', hact, h⟩
  | error stop => cases h

theorem stops_bind {act : Act τ α} {f : α → Act τ β} {stop : Stop ScenarioError}
    (h : Stops (act >>= f) s stop s'') :
    Stops act s stop s'' ∨ ∃ value s', Gives act s value s' ∧ Stops (f value) s' stop s'' := by
  unfold Stops at h
  rw [run_bind] at h
  generalize hact : act.run.run s = done at h
  obtain ⟨outcome, s'⟩ := done
  cases outcome with
  | ok value => exact .inr ⟨value, s', hact, h⟩
  | error stop =>
    cases h
    exact .inl hact

theorem gives_pure {value last : α} (h : Gives (pure value : Act τ α) s last s') :
    last = value ∧ s' = s := by
  cases h
  exact ⟨rfl, rfl⟩

theorem not_stops_pure {value : α} {stop : Stop ScenarioError} :
    ¬Stops (pure value : Act τ α) s stop s' := nofun

theorem gives_enter {f : Unit → Act τ β} {phase : Phase} {last : β}
    (h : Gives (enter phase >>= f) s last s') : Gives (f ()) (s.entering phase) last s' := h

theorem stops_enter {f : Unit → Act τ β} {phase : Phase} {stop : Stop ScenarioError}
    (h : Stops (enter phase >>= f) s stop s') : Stops (f ()) (s.entering phase) stop s' := h

theorem gives_get {f : RunState τ → Act τ β} {last : β} (h : Gives (get >>= f) s last s') :
    Gives (f s) s last s' := h

theorem stops_get {f : RunState τ → Act τ β} {stop : Stop ScenarioError}
    (h : Stops (get >>= f) s stop s') : Stops (f s) s stop s' := h

theorem gives_orFault {outcome : Except Fault α} {value : α}
    (h : Gives (orFault outcome) s value s') : outcome = .ok value ∧ s' = s := by
  cases outcome with
  | ok _ =>
    cases h
    exact ⟨rfl, rfl⟩
  | error f => cases h

theorem stops_orFault {outcome : Except Fault α} {stop : Stop ScenarioError}
    (h : Stops (orFault outcome) s stop s') : ∃ f, stop = .fault f := by
  cases outcome with
  | ok _ => cases h
  | error f =>
    cases h
    exact ⟨f, rfl⟩

/-- An act that follows plans and gives a value has performed one of them. -/
theorem Follows.of_gives {act : Act τ α} {plans : α → List Action → Prop} {value : α}
    (h : scenario.Follows act plans) (hact : Gives act s value s') :
    ∃ plan log, plans value plan ∧ Performed plan log none ∧ scenario.Logged s log s' := by
  obtain ⟨given, plan, log, stop, last, hplan, hperformed, hlogged, hrun⟩ := h s
  rw [show act.run.run s = (.ok value, s') from hact] at hrun
  cases stop with
  | some stop => cases hrun
  | none =>
    cases hrun
    exact ⟨plan, log, hplan, hperformed, hlogged⟩

theorem Follows.of_stops {act : Act τ α} {plans : α → List Action → Prop}
    {stop : Stop ScenarioError} (h : scenario.Follows act plans) (hact : Stops act s stop s') :
    ∃ value plan log reason, plans value plan ∧ Performed plan log (some reason) ∧
      scenario.Logged s log s' ∧ stop = reason.map s'.tracker.abort := by
  obtain ⟨given, plan, log, reason, last, hplan, hperformed, hlogged, hrun⟩ := h s
  rw [show act.run.run s = (.error stop, s') from hact] at hrun
  cases reason with
  | none => cases hrun
  | some reason =>
    cases hrun
    exact ⟨given, plan, log, reason, hplan, hperformed, hlogged, rfl⟩

/-! ## Checks of what a run is given -/

section Checks

variable {homes : List NodeHome} {cast : Cast} {stop : Stop ScenarioError}

theorem gives_checkConfig (h : Gives scenario.checkConfig s () s') :
    scenario.config.validate = .ok () ∧ s' = s := by
  unfold checkConfig at h
  cases hvalidate : scenario.config.validate with
  | ok _ =>
    rw [hvalidate] at h
    cases h
    exact ⟨rfl, rfl⟩
  | error cause =>
    rw [hvalidate] at h
    cases h

theorem stops_checkConfig (h : Stops scenario.checkConfig s stop s') :
    ∃ cause, scenario.config.validate = .error cause ∧ s' = s ∧
      stop = .error (s.tracker.abort (.config cause)) := by
  unfold checkConfig at h
  cases hvalidate : scenario.config.validate with
  | ok _ =>
    rw [hvalidate] at h
    cases h
  | error cause =>
    rw [hvalidate] at h
    cases h
    exact ⟨cause, rfl, rfl, rfl⟩

theorem gives_assign (h : Gives (assign homes) s cast s') :
    Cast.ofHomes? homes = some cast ∧ s' = s := by
  unfold assign at h
  cases hcast : Cast.ofHomes? homes with
  | none =>
    rw [hcast] at h
    cases h
  | some cast =>
    rw [hcast] at h
    cases h
    exact ⟨rfl, rfl⟩

theorem stops_assign (h : Stops (assign homes) s stop s') :
    Cast.ofHomes? homes = none ∧ s' = s ∧
      stop = .error (s.tracker.abort (.bringup (.ofFlaw (.incompleteCast homes.length)))) := by
  unfold assign at h
  cases hcast : Cast.ofHomes? homes with
  | none =>
    rw [hcast] at h
    cases h
    exact ⟨rfl, rfl, rfl⟩
  | some cast =>
    rw [hcast] at h
    cases h

end Checks

/-! ## Calls of bringup -/

section Bringup

variable {entry : Call} {answer : τ → Answer τ (Except (Stop BringupError) α)}

theorem gives_bringup {value : α} (h : Gives (bringup entry answer) s value s') :
    s.stage.call entry (answer s.stage.field) = (.ok (.ok value), s'.stage) ∧
      s'.tracker = s.tracker := by
  unfold Gives at h
  rw [run_bringup] at h
  generalize s.stage.call entry (answer s.stage.field) = called at h
  rcases called with ⟨f | (_ | _) | given, stage⟩ <;> cases h
  exact ⟨rfl, rfl⟩

/-- What a call of bringup gives is what the site replied. -/
theorem outcome_of_gives_bringup {value : α} (h : Gives (bringup entry answer) s value s') :
    (answer s.stage.field).outcome = .ok value := by
  obtain ⟨-, -, hsaid⟩ := s.stage.call_spec entry (answer s.stage.field)
  rw [(gives_bringup h).1] at hsaid
  simpa [eq_comm] using hsaid

/-- Only observers join, and joining is launching. -/
theorem gives_join {leader node : Node} {home : NodeHome}
    (h : Gives (scenario.join leader home) s node s') :
    Gives (scenario.launch home (some leader)) s node s' := by
  unfold join at h
  split_ifs at h
  · exact h
  · cases h

end Bringup

/-! ## Waits -/

section Await

variable {deadline : Deadline} {node : Node} {target : WaitTarget}

theorem gives_await {found : WaitOutcome}
    (h : Gives (scenario.await deadline node target) s found s') :
    (scenario.watching deadline node target s).run s.stage = (.ok found, s'.stage) ∧
      s'.tracker = s.tracker := by
  unfold Gives at h
  rw [run_await] at h
  generalize (scenario.watching deadline node target s).run s.stage = waited at h
  rcases waited with ⟨(_ | _) | found, stage⟩ <;> cases h
  exact ⟨rfl, rfl⟩

theorem stops_await {stop : Stop ScenarioError}
    (h : Stops (scenario.await deadline node target) s stop s') :
    ∃ cause, (scenario.watching deadline node target s).run s.stage = (.error cause, s'.stage) ∧
      stop = cause.map (fun cause ↦ s.tracker.abort (.wait cause)) ∧ s'.tracker = s.tracker := by
  unfold Stops at h
  rw [run_await] at h
  generalize (scenario.watching deadline node target s).run s.stage = waited at h
  rcases waited with ⟨(_ | _) | found, stage⟩ <;> cases h <;> exact ⟨_, rfl, rfl, rfl⟩

end Await

/-! ## The parts of a run -/

variable (scenario)

/-- Launches all nodes but the late one, the leader first. -/
def launchEarly (cast : Cast) : Act τ Node := do
  let leader ← scenario.launch cast.leader none
  scenario.launchAll leader cast.validators
  scenario.joinAll leader cast.early
  pure leader

theorem follows_launchEarly {cast : Cast} (hjoins : cast.JoinsObservers) :
    scenario.Follows (scenario.launchEarly cast) fun leader plan ↦
      plan = .launch cast.leader none (some leader) ::
        (cast.validators ++ cast.early).map fun home ↦ .launch home (some leader) none := by
  unfold launchEarly
  apply (scenario.follows_launch _ _).bind
  rintro leader _ rfl
  apply (scenario.follows_launchAll _ _).bind
  rintro _ _ rfl
  apply (scenario.follows_joinAll _ hjoins.early).bind
  rintro _ _ rfl
  apply (follows_pure leader).mono
  rintro _ _ ⟨rfl, rfl⟩
  simp

/-- The cluster is laid out and seeded. -/
structure Provisioned (s : RunState τ) where
  cast : Cast
  ready : RunState τ
  provisioned : Gives scenario.provision (s.entering .provisioning) cast ready

variable {scenario} in
/-- The deadline counts from the moment at which all is ready for the first launch. -/
def Provisioned.deadline (done : Provisioned scenario s) : Deadline :=
  .start done.ready.stage.clock scenario.config.deadline

variable {scenario} in
theorem Provisioned.exists_scenarioLayout (done : Provisioned scenario s) :
    ∃ layout, scenarioLayout scenario.config = .ok layout := by
  have hprovisioned := done.provisioned
  rw [provision_eq] at hprovisioned
  obtain ⟨_, _, -, hrest⟩ := gives_bind hprovisioned
  obtain ⟨layout, _, hlayout, -⟩ := gives_bind hrest
  exact ⟨layout, (gives_orFault hlayout).1⟩

variable {scenario} in
/-- Provisioning has performed its plan, and only observers join the cluster that it gives. -/
theorem Provisioned.exists_performed (done : Provisioned scenario s) :
    done.cast.JoinsObservers ∧ ∃ layout homes log,
      Performed [.validate scenario.config, .init layout homes, .assign homes done.cast,
        .seed scenario.dataset (homes.map (·.directory))] log none ∧
      scenario.Logged (s.entering .provisioning) log done.ready := by
  obtain ⟨layout, hlayout⟩ := done.exists_scenarioLayout
  obtain ⟨_, log, ⟨hjoins, homes, rfl⟩, hperformed, hlogged⟩ :=
    (follows_provision hlayout).of_gives done.provisioned
  exact ⟨hjoins, layout, homes, log, hperformed, hlogged⟩

/-- All nodes but the late one are launched. -/
structure Launched (s : RunState τ) extends Provisioned scenario s where
  leader : Node
  running : RunState τ
  launched : Gives (scenario.launchEarly cast) ready leader running

/-- The leader has reached the small height. -/
structure Grown (s : RunState τ) extends Launched scenario s where
  baseline : WaitOutcome
  grown : RunState τ
  waited : Gives (scenario.await toProvisioned.deadline leader (smallTarget scenario.config))
    (running.entering .baselineWait) baseline grown

/-- The late node is launched. -/
structure Joined (s : RunState τ) extends Grown scenario s where
  late : Node
  complete : RunState τ
  joined : Gives (scenario.join leader cast.late) (grown.entering .joinLateNode) late complete

/-- The leader has reached the large height. -/
structure Watched (s : RunState τ) extends Joined scenario s where
  degradation : WaitOutcome
  steady : RunState τ
  watched : Gives (scenario.await toProvisioned.deadline leader (largeTarget scenario.config))
    (complete.entering .degradationWatch) degradation steady

/-- The late node has reached the small height. -/
structure CaughtUp (s : RunState τ) extends Watched scenario s where
  catchup : WaitOutcome
  ended : RunState τ
  caughtUp : Gives (scenario.await toProvisioned.deadline late (smallTarget scenario.config))
    (steady.entering .lateNodeCatchup) catchup ended

variable {scenario}

/-- The report of a run that has done all its parts. -/
def CaughtUp.report (done : CaughtUp scenario s) : ScenarioReport where
  leader := done.leader
  lateNode := done.late
  baseline := done.baseline
  degradation := done.degradation
  catchup := done.catchup
  phases := []
  elapsed := done.deadline.elapsed done.ended.stage.clock.now

variable (scenario) in
/-- A run as the sequence of its parts. -/
theorem execute_eq :
    scenario.execute =
      enter .provisioning >>= fun _ ↦ scenario.provision >>= fun cast ↦
      get >>= fun ready ↦ scenario.launchEarly cast >>= fun leader ↦
      enter .baselineWait >>= fun _ ↦
      scenario.await (.start ready.stage.clock scenario.config.deadline) leader
        (smallTarget scenario.config) >>= fun baseline ↦
      enter .joinLateNode >>= fun _ ↦ scenario.join leader cast.late >>= fun lateNode ↦
      enter .degradationWatch >>= fun _ ↦
      scenario.await (.start ready.stage.clock scenario.config.deadline) leader
        (largeTarget scenario.config) >>= fun degradation ↦
      enter .lateNodeCatchup >>= fun _ ↦
      scenario.await (.start ready.stage.clock scenario.config.deadline) lateNode
        (smallTarget scenario.config) >>= fun catchup ↦
      get >>= fun ended ↦
      pure { leader, lateNode, baseline, degradation, catchup, phases := []
             elapsed := Deadline.elapsed (.start ready.stage.clock scenario.config.deadline)
               ended.stage.clock.now } := by
  simp only [execute, launchEarly, bind_assoc, pure_bind]

/-- A run that gives a report has done all its parts. -/
theorem exists_caughtUp {report : ScenarioReport} (h : Gives scenario.execute s report s') :
    ∃ done : CaughtUp scenario s, done.ended = s' ∧ done.report = report := by
  rw [execute_eq] at h
  obtain ⟨cast, ready, hprovisioned, h⟩ := gives_bind (gives_enter h)
  obtain ⟨leader, running, hlaunched, h⟩ := gives_bind (gives_get h)
  obtain ⟨baseline, grown, hwaited, h⟩ := gives_bind (gives_enter h)
  obtain ⟨late, complete, hjoined, h⟩ := gives_bind (gives_enter h)
  obtain ⟨degradation, steady, hwatched, h⟩ := gives_bind (gives_enter h)
  obtain ⟨catchup, ended, hcaughtUp, h⟩ := gives_bind (gives_enter h)
  have hreport := gives_get h
  obtain ⟨rfl, rfl⟩ := gives_pure hreport
  exact ⟨{ cast, ready, leader, running, baseline, grown, late, complete, degradation, steady,
           catchup, ended := _
           provisioned := hprovisioned, launched := hlaunched, waited := hwaited
           joined := hjoined, watched := hwatched, caughtUp := hcaughtUp }, rfl, rfl⟩

variable (scenario s) in
/-- In which part a run is stopped, and what it has done before. -/
inductive Halts : Stop ScenarioError → RunState τ → Prop
  | provisioning {stop : Stop ScenarioError} {s' : RunState τ}
      (h : Stops scenario.provision (s.entering .provisioning) stop s') : Halts stop s'
  | launching {stop : Stop ScenarioError} {s' : RunState τ} (done : Provisioned scenario s)
      (h : Stops (scenario.launchEarly done.cast) done.ready stop s') : Halts stop s'
  | baselineWait {stop : Stop ScenarioError} {s' : RunState τ} (done : Launched scenario s)
      (h : Stops (scenario.await done.deadline done.leader (smallTarget scenario.config))
        (done.running.entering .baselineWait) stop s') : Halts stop s'
  | joining {stop : Stop ScenarioError} {s' : RunState τ} (done : Grown scenario s)
      (h : Stops (scenario.join done.leader done.cast.late) (done.grown.entering .joinLateNode)
        stop s') : Halts stop s'
  | degradationWatch {stop : Stop ScenarioError} {s' : RunState τ} (done : Joined scenario s)
      (h : Stops (scenario.await done.deadline done.leader (largeTarget scenario.config))
        (done.complete.entering .degradationWatch) stop s') : Halts stop s'
  | lateNodeCatchup {stop : Stop ScenarioError} {s' : RunState τ} (done : Watched scenario s)
      (h : Stops (scenario.await done.deadline done.late (smallTarget scenario.config))
        (done.steady.entering .lateNodeCatchup) stop s') : Halts stop s'

/-- A run that gives no report is stopped in one of its parts. -/
theorem halts_of_stops {stop : Stop ScenarioError} (h : Stops scenario.execute s stop s') :
    Halts scenario s stop s' := by
  rw [execute_eq] at h
  rcases stops_bind (stops_enter h) with h | ⟨cast, ready, hprovisioned, h⟩
  · exact .provisioning h
  let provisioned : Provisioned scenario s := ⟨cast, ready, hprovisioned⟩
  rcases stops_bind (stops_get h) with h | ⟨leader, running, hlaunched, h⟩
  · exact .launching provisioned h
  let launched : Launched scenario s := ⟨provisioned, leader, running, hlaunched⟩
  rcases stops_bind (stops_enter h) with h | ⟨baseline, grown, hwaited, h⟩
  · exact .baselineWait launched h
  let grown : Grown scenario s := ⟨launched, baseline, grown, hwaited⟩
  rcases stops_bind (stops_enter h) with h | ⟨late, complete, hjoined, h⟩
  · exact .joining grown h
  let joined : Joined scenario s := ⟨grown, late, complete, hjoined⟩
  rcases stops_bind (stops_enter h) with h | ⟨degradation, steady, hwatched, h⟩
  · exact .degradationWatch joined h
  let watched : Watched scenario s := ⟨joined, degradation, steady, hwatched⟩
  rcases stops_bind (stops_enter h) with h | ⟨catchup, ended, hcaughtUp, h⟩
  · exact .lateNodeCatchup watched h
  · have hreport := stops_get h
    exact absurd hreport not_stops_pure

/-! ## Runs -/

variable (scenario s) in
/-- How a run ends: by how far it gets, and by what its shutdown does unless a fault stopped it. -/
inductive Concludes : Except (Stop ScenarioError) ScenarioReport → RunState τ → Prop
  | faulted {f : Fault} {last : RunState τ} (h : Halts scenario s (.fault f) last) :
      Concludes (.error (.fault f)) last
  | aborted {e : ScenarioError} {last closed : RunState τ} (h : Halts scenario s (.error e) last)
      (hclosed : scenario.shutdown last = (.ok (), closed)) :
      Concludes (.error (.error e)) { closed with tracker := closed.tracker.enter .aborted }
  | reported {closed : RunState τ} (done : CaughtUp scenario s)
      (hclosed : scenario.shutdown done.ended = (.ok (), closed)) :
      Concludes (.ok { done.report with phases := (closed.tracker.enter .done).history })
        { closed with tracker := closed.tracker.enter .done }
  | unclosed {f : Fault} {last closed : RunState τ}
      (h : (∃ e, Halts scenario s (.error e) last) ∨
        ∃ done : CaughtUp scenario s, done.ended = last)
      (hclosed : scenario.shutdown last = (.error f, closed)) :
      Concludes (.error (.fault f)) closed

variable (scenario s) in
theorem concludes_run : Concludes scenario s (scenario.run s).1 (scenario.run s).2 := by
  unfold run
  cases hexecute : scenario.execute.run.run s with
  | mk outcome last =>
    dsimp only
    match outcome, hexecute with
    | .error (.fault f), hexecute => exact .faulted (halts_of_stops hexecute)
    | .error (.error e), hexecute =>
      have hhalts : Halts scenario s (.error e) last := halts_of_stops hexecute
      match hclosed : scenario.shutdown last with
      | (.error f, closed) => exact .unclosed (.inl ⟨e, hhalts⟩) hclosed
      | (.ok (), closed) => exact .aborted hhalts hclosed
    | .ok report, hexecute =>
      obtain ⟨done, rfl, rfl⟩ := exists_caughtUp hexecute
      match hclosed : scenario.shutdown done.ended with
      | (.error f, closed) => exact .unclosed (.inr ⟨done, rfl⟩) hclosed
      | (.ok (), closed) => exact .reported done hclosed

/-- A run that gives a report gives that of its parts, with the phases filled in. -/
theorem exists_caughtUp_of_run {report : ScenarioReport} (h : (scenario.run s).1 = .ok report) :
    ∃ done : CaughtUp scenario s,
      report = { done.report with phases := done.ended.tracker.history ++ [.done] } := by
  have hconcludes := concludes_run scenario s
  rw [h] at hconcludes
  generalize houtcome : (.ok report : Except (Stop ScenarioError) ScenarioReport) = outcome,
    (scenario.run s).2 = final at hconcludes
  cases hconcludes with
  | reported done hclosed =>
    have htracker := (scenario.shutdown_spec done.ended).2.1
    rw [hclosed] at htracker
    refine ⟨done, (Except.ok.inj houtcome).trans ?_⟩
    rw [← htracker]
    rfl
  | faulted | aborted | unclosed => cases houtcome

/-- A run that is stopped without a fault is stopped in one of its parts, and then shuts down. -/
theorem halts_of_run {e : ScenarioError} (h : (scenario.run s).1 = .error (.error e)) :
    ∃ last, Halts scenario s (.error e) last ∧
      (scenario.run s).2.stage.calls = last.stage.calls ++ [.shutdown] := by
  have hconcludes := concludes_run scenario s
  rw [h] at hconcludes
  generalize houtcome : (.error (.error e) : Except (Stop ScenarioError) ScenarioReport) = outcome,
    (scenario.run s).2 = final at hconcludes ⊢
  cases hconcludes with
  | @aborted _ last _ hhalts hclosed =>
    cases houtcome
    have hcalls := (scenario.shutdown_spec last).1
    rw [hclosed] at hcalls
    exact ⟨_, hhalts, hcalls⟩
  | faulted | reported | unclosed => cases houtcome

end Scenario

/-! ## A small cluster -/

/-- One validator and two observers. -/
def smallHomes : List NodeHome :=
  let address : Net.Endpoint := .v4 ⟨10, 0, 0, 1⟩ 26656
  let home (ordinal : ℕ) (role : Role) : NodeHome :=
    ⟨ordinal, role, ⟨"/node"⟩, address, address, ""⟩
  [home 0 .validator, home 1 .observer, home 2 .observer]

/-- A site on which all calls of bringup succeed, and take as long as given. -/
def Site.unfailing {τ : Type} (seeding launching : Span) (poll : Poller τ) : Site τ where
  init _ field := { outcome := .ok smallHomes, next := field }
  populate _ _ field := { took := seeding, outcome := .ok (), next := field }
  copySnapshot _ _ field := { took := seeding, outcome := .ok (), next := field }
  launch home _ field := { took := launching, outcome := .ok home.toNode, next := field }
  shutdown field := { outcome := .ok (), next := field }
  poll := poll

end BlockWatch
