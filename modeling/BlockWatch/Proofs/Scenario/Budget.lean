import BlockWatch.Proofs.Progress.Ending
import BlockWatch.Proofs.Scenario.Journey
import Mathlib.Algebra.Order.Floor.Div

/-!
# The budget of a run

The waits of a run share one deadline, so they share the sleeps that fit into it. A wait polls once
more than it sleeps, at most, and nothing but a wait polls or sleeps. So a run is over after a number
of sleeps and polls that its configuration gives, whatever answers its calls.
-/

namespace BlockWatch

namespace ScenarioConfig

/-- How many sleeps between polls fit into the deadline. -/
def budget (config : ScenarioConfig) : ℕ := config.deadline.nanos ⌈/⌉ config.pollInterval.nanos

theorem lt_budget_iff {config : ScenarioConfig} {n : ℕ} (hinterval : 0 < config.pollInterval.nanos) :
    n < config.budget ↔ n * config.pollInterval.nanos < config.deadline.nanos := by
  rw [budget, ← not_le, ceilDiv_le_iff_le_mul hinterval, Nat.mul_comm, Nat.not_le]

end ScenarioConfig

namespace Scenario

variable {τ α β : Type} {scenario : Scenario τ} {s s' s'' : RunState τ}

/-! ## What lies between two states -/

/-- Between two states there are so many sleeps and so many polls. -/
def Spends (scenario : Scenario τ) (slept polled : ℕ) (s s' : RunState τ) : Prop :=
  ∃ log, scenario.Logged s log s' ∧ log.countP Event.isSleep = slept ∧
    log.countP Event.isPoll = polled

namespace Spends

variable {slept polled : ℕ}

theorem trans {slept' polled' : ℕ} (h : scenario.Spends slept polled s s')
    (hrest : scenario.Spends slept' polled' s' s'') :
    scenario.Spends (slept + slept') (polled + polled') s s'' := by
  obtain ⟨log, hlog, rfl, rfl⟩ := h
  obtain ⟨rest, hlogRest, rfl, rfl⟩ := hrest
  exact ⟨log ++ rest, hlog.append hlogRest, List.countP_append, List.countP_append⟩

theorem calls (h : scenario.Spends slept polled s s') :
    ∃ made, s'.stage.calls = s.stage.calls ++ made ∧ made.countP Call.isPoll = polled := by
  obtain ⟨log, hlog, -, rfl⟩ := h
  refine ⟨log.filterMap Event.call?, hlog.calls, ?_⟩
  rw [List.countP_filterMap]
  refine List.countP_congr fun event _ ↦ ?_
  cases event <;> rfl

theorem sleeps (h : scenario.Spends slept polled s s') :
    s'.stage.clock.sleeps =
      s.stage.clock.sleeps ++ List.replicate slept scenario.config.pollInterval := by
  obtain ⟨log, hlog, rfl, -⟩ := h
  exact hlog.sleeps

theorem clock (h : scenario.Spends slept polled s s') :
    s.stage.clock.now.nanos + slept * scenario.config.pollInterval.nanos ≤
      s'.stage.clock.now.nanos := by
  obtain ⟨log, hlog, rfl, -⟩ := h
  exact hlog.clock

theorem length_calls_le (h : scenario.Spends slept polled s s') :
    s.stage.calls.length ≤ s'.stage.calls.length := by
  obtain ⟨made, hmade, -⟩ := h.calls
  rw [hmade, List.length_append]
  exact Nat.le_add_right _ _

end Spends

theorem spends_entering (s : RunState τ) (phase : Phase) :
    scenario.Spends 0 0 s (s.entering phase) :=
  ⟨[.enter phase], .single rfl, rfl, rfl⟩

/-! ## Faults -/

variable (scenario s s') in
/-- Why a run that begins in one state is stopped by a fault in another. -/
inductive FaultReason : Fault → Prop
  /-- The last event is stopped by it. -/
  | event {f : Fault} (h : scenario.Faults s s' f) : FaultReason f
  /-- The nodes are too many to be counted. -/
  | nodes (h : UInt64.size ≤ scenario.config.topology.validators.toNat +
        scenario.config.topology.observers.toNat) : FaultReason .sum
  /-- The polls of a wait are too many to be counted. -/
  | polls (hbudget : Wait.maxPolls < scenario.config.budget)
      (hcalls : s.stage.calls.length + Wait.maxPolls ≤ s'.stage.calls.length) : FaultReason .sum

theorem FaultReason.prepend {f : Fault} {slept polled : ℕ}
    (hspends : scenario.Spends slept polled s s') (h : scenario.FaultReason s' s'' f) :
    scenario.FaultReason s s'' f := by
  cases h with
  | event hfaults =>
    obtain ⟨log, hlog, -⟩ := hspends
    exact .event (hfaults.prepend hlog)
  | nodes hsize => exact .nodes hsize
  | polls hbudget hcalls =>
    have hlength := hspends.length_calls_le
    exact .polls hbudget (by omega)

/-! ## Parts of a run that do not wait -/

theorem spends_of_performed {plan : List Action} {log : List Event}
    {stop : Option (Stop AbortReason)} (hquiet : ∀ node, .watch node ∉ plan)
    (h : Performed plan log stop) (hlog : scenario.Logged s log s') :
    scenario.Spends 0 0 s s' := by
  obtain ⟨hpolls, hsleeps⟩ := h.countP_eq_zero hquiet
  exact ⟨log, hlog, hsleeps, hpolls⟩

section Quiet

variable {act : Act τ α} {plans : α → List Action → Prop} (h : scenario.Follows act plans)
  (hquiet : ∀ value plan, plans value plan → ∀ node, .watch node ∉ plan)
include h hquiet

theorem Follows.spends_of_gives {value : α} (hact : Gives act s value s') :
    scenario.Spends 0 0 s s' := by
  obtain ⟨plan, log, hplan, hperformed, hlog⟩ := h.of_gives hact
  exact spends_of_performed (hquiet value plan hplan) hperformed hlog

/-- An act without waits that is stopped by a fault has it from its last event. -/
theorem Follows.spends_of_stops {stop : Stop ScenarioError} (hact : Stops act s stop s') :
    scenario.Spends 0 0 s s' ∧ ∀ f, stop = .fault f → scenario.FaultReason s s' f := by
  obtain ⟨value, plan, log, reason, hplan, hperformed, hlog, hreason⟩ := h.of_stops hact
  have hplan := hquiet value plan hplan
  refine ⟨spends_of_performed hplan hperformed hlog, fun f hf ↦ ?_⟩
  cases reason with
  | error reason =>
    rw [hf] at hreason
    cases hreason
  | fault g =>
    rw [hf] at hreason
    cases hreason
    obtain ⟨front, event, rfl, hfault⟩ := hperformed.exists_isFault hplan
    exact .event (hlog.faults hfault)

end Quiet

variable (scenario) in
/-- The layout of a scenario is missing only if there are too many nodes. -/
theorem size_le_of_scenarioLayout {f : Fault} (h : scenarioLayout scenario.config = .error f) :
    f = .sum ∧ UInt64.size ≤ scenario.config.topology.validators.toNat +
      scenario.config.topology.observers.toNat := by
  simp only [scenarioLayout, Topology.nodeCount] at h
  split_ifs at h with hfits
  · cases h
  · cases h
    exact ⟨rfl, Nat.le_of_not_lt hfits⟩

/-- Without a layout nothing is called. -/
theorem stops_provision_of_scenarioLayout {f : Fault} {stop : Stop ScenarioError}
    (h : scenarioLayout scenario.config = .error f)
    (hact : Stops scenario.provision s stop s') :
    s' = s ∧ ∀ g, stop = .fault g → g = f := by
  rw [provision_eq, h] at hact
  rcases stops_bind hact with hcheck | ⟨_, mid, hcheck, hrest⟩
  · obtain ⟨cause, -, rfl, rfl⟩ := stops_checkConfig hcheck
    exact ⟨rfl, nofun⟩
  · obtain ⟨-, rfl⟩ := gives_checkConfig hcheck
    cases hrest
    exact ⟨rfl, fun g hg ↦ (Stop.fault.inj hg).symm⟩

theorem spends_of_stops_provision {stop : Stop ScenarioError}
    (h : Stops scenario.provision s stop s') :
    scenario.Spends 0 0 s s' ∧ ∀ f, stop = .fault f → scenario.FaultReason s s' f := by
  cases hlayout : scenarioLayout scenario.config with
  | ok layout =>
    refine (follows_provision hlayout).spends_of_stops ?_ h
    rintro _ _ ⟨-, homes, rfl⟩ node hmem
    simp at hmem
  | error f =>
    obtain ⟨rfl, hfault⟩ := stops_provision_of_scenarioLayout hlayout h
    obtain ⟨rfl, hsize⟩ := scenario.size_le_of_scenarioLayout hlayout
    refine ⟨⟨[], .nil _, rfl, rfl⟩, fun g hg ↦ ?_⟩
    rw [hfault g hg]
    exact .nodes hsize

theorem watch_not_mem_launchEarly {cast : Cast} {leader node : Node} :
    .watch node ∉ Action.launch cast.leader none (some leader) ::
      (cast.validators ++ cast.early).map fun home ↦ .launch home (some leader) none := by
  simp

/-! ## Waits -/

/-- So many waits spent what lies between two states, and they kept to the budget. -/
def Keeps (scenario : Scenario τ) (waits : ℕ) (s s' : RunState τ) : Prop :=
  ∃ slept polled, scenario.Spends slept polled s s' ∧ polled ≤ slept + waits ∧
    slept ≤ scenario.config.budget

theorem Keeps.mono {waits more : ℕ} (h : scenario.Keeps waits s s') (hle : waits ≤ more) :
    scenario.Keeps more s s' := by
  obtain ⟨slept, polled, hspends, hpolled, hslept⟩ := h
  exact ⟨slept, polled, hspends, by omega, hslept⟩

theorem keeps_of_spends (h : scenario.Spends 0 0 s s') : scenario.Keeps 0 s s' :=
  ⟨0, 0, h, Nat.le_refl _, Nat.zero_le _⟩

theorem Keeps.append {waits : ℕ} (h : scenario.Keeps waits s s')
    (hrest : scenario.Spends 0 0 s' s'') : scenario.Keeps waits s s'' := by
  obtain ⟨slept, polled, hspends, hbounds⟩ := h
  exact ⟨slept, polled, hspends.trans hrest, hbounds⟩

theorem Keeps.prepend {waits : ℕ} (hfirst : scenario.Spends 0 0 s s')
    (h : scenario.Keeps waits s' s'') : scenario.Keeps waits s s'' := by
  obtain ⟨slept, polled, hspends, hbounds⟩ := h
  have hboth := hfirst.trans hspends
  rw [Nat.zero_add, Nat.zero_add] at hboth
  exact ⟨slept, polled, hboth, hbounds⟩

section Await

variable {ready : RunState τ} {node : Node} {target : WaitTarget} {waits : ℕ}

/-- A tick that begins before the deadline leaves room for one more sleep. -/
theorem lt_budget_of_not_expiredAt {slept k : ℕ}
    (hinterval : 0 < scenario.config.pollInterval.nanos)
    (htarget : target.pollInterval = scenario.config.pollInterval)
    (hclock : ready.stage.clock.now.nanos + slept * scenario.config.pollInterval.nanos ≤
      s.stage.clock.now.nanos) :
    let wait := scenario.watching (.start ready.stage.clock scenario.config.deadline) node target s
    wait.opening s.stage k < Moment.limit → ¬wait.ExpiredAt s.stage k →
      slept + k < scenario.config.budget := by
  intro wait hopen hexpired
  apply (ScenarioConfig.lt_budget_iff hinterval).mpr
  have hopening : s.stage.clock.now.nanos + k * scenario.config.pollInterval.nanos ≤
      wait.opening s.stage k := htarget ▸ wait.le_opening s.stage k
  have helapsed : wait.opening s.stage k - ready.stage.clock.now.nanos <
      scenario.config.deadline.nanos := by
    rw [← Moment.nanos_ofNanos hopen]
    exact Wait.not_expiredAt_iff.mp hexpired
  rw [Nat.add_mul]
  omega

/-- What a wait spends that leaves a stage of its last tick. -/
theorem spends_of_stageWith {deadline : Deadline} {log : List Event} {nanos polls sleeps : ℕ}
    (hlog : scenario.Logged s log s') :
    let wait := scenario.watching deadline node target s
    s'.stage = wait.stageWith s.stage nanos polls sleeps → scenario.Spends sleeps polls s s' := by
  intro wait hlast
  have hspends : scenario.Spends (log.countP Event.isSleep) (log.countP Event.isPoll) s s' :=
    ⟨log, hlog, rfl, rfl⟩
  obtain ⟨made, hmade, hpolls⟩ := hspends.calls
  have hsleeps := hspends.sleeps
  rw [hlast] at hmade hsleeps
  have hmade : List.replicate polls (.poll node) = made := List.append_cancel_left hmade
  have hsleeps : List.replicate sleeps target.pollInterval =
      List.replicate (log.countP Event.isSleep) scenario.config.pollInterval :=
    List.append_cancel_left hsleeps
  have hslept : sleeps = log.countP Event.isSleep := by
    simpa using congrArg List.length hsleeps
  have hpolled : polls = log.countP Event.isPoll := by
    rw [← hpolls, ← hmade, List.countP_replicate]
    rfl
  rwa [hslept, hpolled]

/-- A wait under the deadline of the run keeps to what the waits before it left of the budget. -/
theorem Keeps.await {outcome : Wait.Outcome}
    (hinterval : 0 < scenario.config.pollInterval.nanos)
    (htarget : target.pollInterval = scenario.config.pollInterval)
    (h : scenario.Keeps waits ready s)
    (hwait : (scenario.watching (.start ready.stage.clock scenario.config.deadline) node target
      s).run s.stage = (outcome, s'.stage)) (htracker : s'.tracker = s.tracker) :
    scenario.Keeps (waits + 1) ready s' ∧
      ∀ f, outcome = .error (.fault f) → scenario.FaultReason ready s' f := by
  obtain ⟨slept, polled, hspends, hpolled, hslept⟩ := h
  let deadline : Deadline := .start ready.stage.clock scenario.config.deadline
  let wait := scenario.watching deadline node target s
  obtain ⟨log, hwatches, hlog⟩ := watches_run deadline node htarget s
  obtain ⟨last, -, hbefore, hends⟩ := wait.exists_endsAt s.stage
  rw [hwait] at hwatches hlog hends
  have hsame : { s with stage := s'.stage } = s' := by rw [← htracker]
  dsimp only at hlog
  rw [hsame] at hlog
  obtain ⟨nanos, polls, hlast, -, -, hpolls⟩ := hends.exists_stageWith hbefore
  have hwaits : scenario.Spends last polls s s' := spends_of_stageWith hlog hlast
  have hinTime {k : ℕ} (hopen : wait.opening s.stage k < Moment.limit)
      (hexpired : ¬wait.ExpiredAt s.stage k) : slept + k < scenario.config.budget :=
    lt_budget_of_not_expiredAt hinterval htarget hspends.clock hopen hexpired
  refine ⟨⟨slept + last, polled + polls, hspends.trans hwaits, ?_, ?_⟩, fun f hf ↦ ?_⟩
  · rcases hpolls with rfl | ⟨rfl, -⟩ <;> omega
  · cases last with
    | zero => exact hslept
    | succ k =>
      -- The last sleep belongs to a tick that began before the deadline.
      have hbefore' : ∀ i < k, wait.GoesOn s.stage i := fun i hi ↦
        hbefore i (hi.trans (Nat.lt_succ_self k))
      exact hinTime (Wait.opening_lt_of_goesOn hbefore')
        (hbefore k (Nat.lt_succ_self k)).notExpired
  · rw [hf] at hwatches hends
    rcases hwatches.fault_cases with ⟨front, event, rfl, hfault⟩ | rfl
    · exact .prepend hspends (.event (hlog.faults hfault))
    · rcases hends.fault_cases hbefore with ⟨hmoment, -⟩ | ⟨-, rfl, hstage, hexpired⟩
      · cases hmoment
      replace hstage : s'.stage = wait.stageAt s.stage Wait.maxPolls := hstage
      have hlength : s'.stage.calls.length = s.stage.calls.length + Wait.maxPolls := by
        rw [hstage, Wait.stageAt, Wait.length_calls_stageWith]
      have hroom := hinTime (Wait.opening_lt_of_goesOn hbefore) hexpired
      have hearlier := hspends.length_calls_le
      exact .polls (by omega) (by omega)

end Await

/-! ## Runs -/

/-- A poll interval of an accepted configuration is not zero. -/
theorem pollInterval_pos {config : ScenarioConfig} (h : config.validate = .ok ()) :
    0 < config.pollInterval.nanos := by
  refine Nat.pos_of_ne_zero fun hzero ↦ ?_
  have hflaw : config.flaw? ≠ none := by
    have hinterval : config.pollInterval.isZero = true := beq_iff_eq.mpr hzero
    unfold ScenarioConfig.flaw?
    simp only [hinterval, Bool.or_true, Bool.true_or, ↓reduceIte]
    split_ifs <;> exact Option.some_ne_none _
  unfold ScenarioConfig.validate at h
  cases hnone : config.flaw? with
  | none => exact hflaw hnone
  | some flaw =>
    rw [hnone] at h
    cases h

/-- Only an accepted configuration is provisioned. -/
theorem Provisioned.validated (done : Provisioned scenario s) :
    scenario.config.validate = .ok () := by
  have hprovisioned := done.provisioned
  rw [provision_eq] at hprovisioned
  obtain ⟨_, _, hcheck, -⟩ := gives_bind hprovisioned
  exact (gives_checkConfig hcheck).1

theorem Provisioned.spends (done : Provisioned scenario s) :
    scenario.Spends 0 0 s done.ready := by
  obtain ⟨-, layout, homes, log, hperformed, hlog⟩ := done.exists_performed
  exact (spends_entering s .provisioning).trans (spends_of_performed (by simp) hperformed hlog)

theorem Launched.keeps (done : Launched scenario s) :
    scenario.Keeps 0 done.ready done.running := by
  obtain ⟨hjoins, -⟩ := done.toProvisioned.exists_performed
  refine keeps_of_spends ((scenario.follows_launchEarly hjoins).spends_of_gives ?_ done.launched)
  rintro _ _ rfl node
  exact watch_not_mem_launchEarly

/-- One more wait of a run. -/
theorem Keeps.gives_await {done : Provisioned scenario s} {node : Node} {target : WaitTarget}
    {phase : Phase} {found : WaitOutcome} {waits : ℕ}
    (htarget : target.pollInterval = scenario.config.pollInterval)
    (h : scenario.Keeps waits done.ready s')
    (hwaited : Gives (scenario.await done.deadline node target) (s'.entering phase) found s'') :
    scenario.Keeps (waits + 1) done.ready s'' := by
  obtain ⟨hrun, htracker⟩ := Scenario.gives_await hwaited
  exact ((h.append (spends_entering s' phase)).await (pollInterval_pos done.validated) htarget
    hrun htracker).1

theorem Keeps.stops_await {done : Provisioned scenario s} {node : Node} {target : WaitTarget}
    {phase : Phase} {stop : Stop ScenarioError} {waits : ℕ}
    (htarget : target.pollInterval = scenario.config.pollInterval)
    (h : scenario.Keeps waits done.ready s')
    (hwaited : Stops (scenario.await done.deadline node target) (s'.entering phase) stop s'') :
    scenario.Keeps (waits + 1) s s'' ∧ ∀ f, stop = .fault f → scenario.FaultReason s s'' f := by
  obtain ⟨cause, hrun, rfl, htracker⟩ := Scenario.stops_await hwaited
  obtain ⟨hkeeps, hfault⟩ := (h.append (spends_entering s' phase)).await
    (pollInterval_pos done.validated) htarget hrun htracker
  refine ⟨hkeeps.prepend done.spends, fun f hf ↦ .prepend done.spends (hfault f ?_)⟩
  cases cause with
  | error cause => cases hf
  | fault g =>
    cases hf
    rfl

theorem Grown.keeps (done : Grown scenario s) : scenario.Keeps 1 done.ready done.grown :=
  done.toLaunched.keeps.gives_await rfl done.waited

theorem Grown.follows_join (done : Grown scenario s) :
    scenario.Follows (scenario.join done.leader done.cast.late) fun late plan ↦
      plan = [.launch done.cast.late (some done.leader) (some late)] :=
  scenario.follows_join done.leader done.toProvisioned.exists_performed.1.late

theorem Joined.keeps (done : Joined scenario s) : scenario.Keeps 1 done.ready done.complete := by
  have hentered := done.toGrown.keeps.append (spends_entering done.grown .joinLateNode)
  refine hentered.append (done.toGrown.follows_join.spends_of_gives ?_ done.joined)
  rintro _ _ rfl node
  simp

theorem Watched.keeps (done : Watched scenario s) : scenario.Keeps 2 done.ready done.steady :=
  done.toJoined.keeps.gives_await rfl done.watched

theorem CaughtUp.keeps (done : CaughtUp scenario s) : scenario.Keeps 3 s done.ended :=
  (done.toWatched.keeps.gives_await rfl done.caughtUp).prepend done.spends

/-- Wherever a run is stopped, it has kept to its budget. -/
theorem Halts.keeps {stop : Stop ScenarioError} (h : Halts scenario s stop s') :
    scenario.Keeps 3 s s' ∧ ∀ f, stop = .fault f → scenario.FaultReason s s' f := by
  cases h with
  | provisioning h =>
    have hentered : scenario.Spends 0 0 s (s.entering .provisioning) := spends_entering s _
    obtain ⟨hspends, hfault⟩ := spends_of_stops_provision h
    refine ⟨?_, fun f hf ↦ .prepend hentered (hfault f hf)⟩
    exact (keeps_of_spends (hentered.trans hspends)).mono (by decide)
  | launching done h =>
    obtain ⟨hjoins, -⟩ := done.exists_performed
    obtain ⟨hspends, hfault⟩ := (scenario.follows_launchEarly hjoins).spends_of_stops
      (fun _ _ hplan _ ↦ hplan ▸ watch_not_mem_launchEarly) h
    refine ⟨?_, fun f hf ↦ .prepend done.spends (hfault f hf)⟩
    exact (keeps_of_spends (done.spends.trans hspends)).mono (by decide)
  | baselineWait done h =>
    obtain ⟨hkeeps, hfault⟩ := done.keeps.stops_await rfl h
    exact ⟨hkeeps.mono (by decide), hfault⟩
  | joining done h =>
    have hentered : scenario.Spends 0 0 done.grown (done.grown.entering .joinLateNode) :=
      spends_entering done.grown _
    obtain ⟨hspends, hfault⟩ := done.follows_join.spends_of_stops
      (fun _ _ hplan _ ↦ by simp [hplan]) h
    have hbefore := (done.keeps.append hentered).prepend done.spends
    refine ⟨(hbefore.append hspends).mono (by decide), fun f hf ↦ ?_⟩
    obtain ⟨_, _, hway, -⟩ := hbefore
    exact .prepend hway (hfault f hf)
  | degradationWatch done h =>
    obtain ⟨hkeeps, hfault⟩ := done.keeps.stops_await rfl h
    exact ⟨hkeeps.mono (by decide), hfault⟩
  | lateNodeCatchup done h => exact done.keeps.stops_await rfl h

/-- A shutdown is neither a poll nor a sleep. -/
theorem spends_shutdown (s : RunState τ) :
    scenario.Spends 0 0 s (scenario.shutdown s).2 ∧
      ∀ f, (scenario.shutdown s).1 = .error f →
        scenario.FaultReason s (scenario.shutdown s).2 f := by
  obtain ⟨outcome, hstep, hfault⟩ := scenario.shutdown_step s
  refine ⟨⟨[.call .shutdown outcome], .single hstep, rfl, rfl⟩, fun f hf ↦ ?_⟩
  exact .event ⟨[], s, _, .nil s, hstep, hfault f hf⟩

/-- A run ends in a state up to which it has kept to its budget. -/
theorem Concludes.keeps {outcome : Except (Stop ScenarioError) ScenarioReport}
    (h : Concludes scenario s outcome s') :
    scenario.Keeps 3 s s' ∧ ∀ f, outcome = .error (.fault f) → scenario.FaultReason s s' f := by
  cases h with
  | @faulted f last h =>
    obtain ⟨hkeeps, hfault⟩ := h.keeps
    refine ⟨hkeeps, fun g hg ↦ ?_⟩
    cases hg
    exact hfault f rfl
  | @aborted e last closed h hclosed =>
    have hspends := (scenario.spends_shutdown last).1
    rw [hclosed] at hspends
    have hkeeps := h.keeps.1.append hspends
    exact ⟨hkeeps.append (spends_entering closed .aborted), nofun⟩
  | @reported closed done hclosed =>
    have hspends := (scenario.spends_shutdown done.ended).1
    rw [hclosed] at hspends
    have hkeeps := done.keeps.append hspends
    exact ⟨hkeeps.append (spends_entering closed .done), nofun⟩
  | @unclosed f last closed h hclosed =>
    obtain ⟨hspends, hfault⟩ := scenario.spends_shutdown last
    rw [hclosed] at hspends hfault
    have hlast : scenario.Keeps 3 s last := by
      rcases h with ⟨e, hhalts⟩ | ⟨done, rfl⟩
      · exact hhalts.keeps.1
      · exact done.keeps
    refine ⟨hlast.append hspends, fun g hg ↦ ?_⟩
    cases hg
    obtain ⟨_, _, hway, -⟩ := hlast
    exact .prepend hway (hfault f rfl)

/-- A run that ends with a fault has a reason to. -/
theorem faultReason_of_run {f : Fault} (h : (scenario.run s).1 = .error (.fault f)) :
    scenario.FaultReason s (scenario.run s).2 f :=
  (concludes_run scenario s).keeps.2 f h

/-- Every run is over after a number of sleeps that fit into the deadline and at most three polls
more, whatever the site answers and whether or not any height is ever reached. It runs into a fault
only if the site does, or if the clock or a counter has no room left. -/
theorem run_within_budget (scenario : Scenario τ) (s : RunState τ) :
    ∃ (made : List Call) (slept : ℕ),
      (scenario.run s).2.stage.calls = s.stage.calls ++ made ∧
      (scenario.run s).2.stage.clock.sleeps =
        s.stage.clock.sleeps ++ List.replicate slept scenario.config.pollInterval ∧
      slept ≤ scenario.config.budget ∧ made.countP Call.isPoll ≤ slept + 3 ∧
      ∀ f, (scenario.run s).1 = .error (.fault f) →
        scenario.FaultReason s (scenario.run s).2 f := by
  obtain ⟨⟨slept, polled, hspends, hpolled, hslept⟩, hfault⟩ := (concludes_run scenario s).keeps
  obtain ⟨made, hmade, hpolls⟩ := hspends.calls
  exact ⟨made, slept, hmade, hspends.sleeps, hslept, hpolls ▸ hpolled, hfault⟩

/-- With the default configuration a run sleeps at most 1800 times. -/
example : ({} : ScenarioConfig).budget = 1800 := by decide +kernel

end Scenario

end BlockWatch
