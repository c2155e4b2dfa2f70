import BlockWatch.Proofs.Cluster.Logged
import BlockWatch.Proofs.Scenario.Plan

/-!
# Runs on sites that mirror others

If a site does, seen through a map of its states, what another site does, then so does a run on it:
the outcome, the clock, the calls and the phases are the same. So a run on a cluster that logs the
processes it starts is the run on the cluster itself.
-/

namespace BlockWatch

open Op (Mirrors mirrors_pure)

variable {τ υ κ α β : Type}

/-! ## Answers and stages -/

/-- An answer with the state that it leaves seen through a map. -/
def Answer.along (f : τ → υ) (answer : Answer τ α) : Answer υ α where
  took := answer.took
  outcome := answer.outcome
  next := f answer.next

/-- One site does what another does on the states that a map gives. -/
structure Site.Mirrors (f : τ → υ) (site : Site τ) (base : Site υ) : Prop where
  init : ∀ layout field, base.init layout (f field) = (site.init layout field).along f
  populate : ∀ accounts homes field,
    base.populate accounts homes (f field) = (site.populate accounts homes field).along f
  copySnapshot : ∀ source homes field,
    base.copySnapshot source homes (f field) = (site.copySnapshot source homes field).along f
  launch : ∀ home boot field,
    base.launch home boot (f field) = (site.launch home boot field).along f
  shutdown : ∀ field, base.shutdown (f field) = (site.shutdown field).along f
  poll : ∀ node field, base.poll node (f field) = (site.poll node field).along f

/-- A stage with its state seen through a map. -/
def Stage.along (f : τ → υ) (stage : Stage τ κ) : Stage υ κ where
  clock := stage.clock
  calls := stage.calls
  field := f stage.field

theorem Stage.call_along (f : τ → υ) (stage : Stage τ κ) (entry : κ) (answer : Answer τ α) :
    (stage.along f).call entry (answer.along f) =
      ((stage.call entry answer).1, (stage.call entry answer).2.along f) := by
  have hclock : (stage.along f).clock.advance (answer.along f).took =
      stage.clock.advance answer.took := rfl
  simp only [call, hclock]
  cases stage.clock.advance answer.took <;> rfl

/-! ## Waits -/

namespace Wait

/-- A wait that asks another poller. -/
def along (wait : Wait τ κ) (poller : Poller υ) : Wait υ κ where
  poller := poller
  entry := wait.entry
  deadline := wait.deadline
  width := wait.width
  node := wait.node
  target := wait.target
  started := wait.started

/-- A wait whose polls are mirrored goes through the same ticks. -/
theorem ticks_along {f : τ → υ} (wait : Wait τ κ) {poller : Poller υ}
    (hpoll : ∀ node field, poller node (f field) = (wait.poller node field).along f) (room : ℕ)
    (p : Progress) (stage : Stage τ κ) :
    (wait.along poller).ticks room p (stage.along f) =
      ((wait.ticks room p stage).1, (wait.ticks room p stage).2.along f) := by
  let other := wait.along poller
  have hcall (stage : Stage τ κ) :
      (stage.along f).call (other.entry other.node) (other.poller other.node (stage.along f).field) =
        ((stage.call (wait.entry wait.node) (wait.poller wait.node stage.field)).1,
          (stage.call (wait.entry wait.node) (wait.poller wait.node stage.field)).2.along f) := by
    have hanswer : other.poller other.node (stage.along f).field =
        (wait.poller wait.node stage.field).along f := hpoll wait.node stage.field
    rw [hanswer]
    exact stage.call_along f _ _
  have hexpired (stage : Stage τ κ) :
      other.deadline.expired (stage.along f).clock.now =
        wait.deadline.expired stage.clock.now := rfl
  induction room generalizing p stage with
  | zero =>
    rw [ticks, ticks, hexpired]
    split_ifs <;> rfl
  | succ room ih =>
    rw [ticks, ticks, hexpired]
    split_ifs
    · rfl
    rw [hcall]
    generalize stage.call (wait.entry wait.node) (wait.poller wait.node stage.field) = called
    obtain ⟨outcome, next⟩ := called
    cases outcome with
    | error cause => rfl
    | ok report =>
      have hverdict : (p.observe (next.along f).clock.now report).verdict? other.node.name
          other.target other.started (next.along f).clock.now =
          (p.observe next.clock.now report).verdict? wait.node.name wait.target wait.started
            next.clock.now := rfl
      have hsleep : (next.along f).clock.sleep other.target.pollInterval =
          next.clock.sleep wait.target.pollInterval := rfl
      dsimp only
      rw [hverdict, hsleep]
      cases (p.observe next.clock.now report).verdict? wait.node.name wait.target wait.started
        next.clock.now with
      | some verdict => rfl
      | none =>
        cases next.clock.sleep wait.target.pollInterval with
        | error cause => rfl
        | ok clock => exact ih _ { next with clock }

end Wait

/-! ## Runs -/

/-- A state of a run with what is behind its calls seen through a map. -/
def RunState.along (f : τ → υ) (s : RunState τ) : RunState υ where
  stage := s.stage.along f
  tracker := s.tracker

namespace Scenario

variable {f : τ → υ}

theorem mirrors_enter (f : τ → υ) (phase : Phase) :
    Mirrors (RunState.along f) (enter phase) (enter phase) := fun _ ↦ rfl

theorem mirrors_abort (f : τ → υ) (reason : AbortReason) :
    Mirrors (RunState.along f) (abort reason : Act τ α) (abort reason) := fun _ ↦ rfl

theorem mirrors_orFault (f : τ → υ) (outcome : Except Fault α) :
    Mirrors (RunState.along f) (orFault outcome : Act τ α) (orFault outcome) := by
  cases outcome <;> exact fun _ ↦ rfl

/-- What goes on with the state of the run. -/
theorem mirrors_get_bind {act : RunState τ → Act τ α} {base : RunState υ → Act υ α}
    (h : ∀ s, Mirrors (RunState.along f) (act s) (base (s.along f))) :
    Mirrors (RunState.along f) (get >>= act) (get >>= base) := by
  intro s
  rw [run_bind, run_bind, run_get, run_get]
  exact h s s

theorem mirrors_bringup {entry : Call} {answer : τ → Answer τ (Except (Stop BringupError) α)}
    {other : υ → Answer υ (Except (Stop BringupError) α)}
    (h : ∀ field, other (f field) = (answer field).along f) :
    Mirrors (RunState.along f) (bringup entry answer) (bringup entry other) := by
  intro s
  have hcalled : (s.along f).stage.call entry (other (s.along f).stage.field) =
      ((s.stage.call entry (answer s.stage.field)).1,
        (s.stage.call entry (answer s.stage.field)).2.along f) := by
    have hanswer : other (s.along f).stage.field = (answer s.stage.field).along f :=
      h s.stage.field
    rw [hanswer]
    exact s.stage.call_along f entry _
  rw [run_bringup, run_bringup, hcalled]
  generalize s.stage.call entry (answer s.stage.field) = called
  rcases called with ⟨f | (_ | _) | value, stage⟩ <;> rfl

variable {scenario : Scenario τ} {site : Site υ}

/-- The scenario on another site. -/
def on (scenario : Scenario τ) (site : Site υ) : Scenario υ :=
  ⟨scenario.config, scenario.dataset, site⟩

section Site

variable (h : scenario.site.Mirrors f site)

include h

theorem mirrors_seed (homes : List Path) :
    Mirrors (RunState.along f) (scenario.seed homes) ((scenario.on site).seed homes) := by
  unfold seed
  simp only [on]
  cases scenario.dataset with
  | generate accounts => exact mirrors_bringup (h.populate accounts homes)
  | snapshot source => exact mirrors_bringup (h.copySnapshot source homes)
  | skip => exact mirrors_pure _ ()

theorem mirrors_launch (home : NodeHome) (boot : Option Node) :
    Mirrors (RunState.along f) (scenario.launch home boot) ((scenario.on site).launch home boot) :=
  mirrors_bringup (h.launch home boot)

theorem mirrors_join (leader : Node) (home : NodeHome) :
    Mirrors (RunState.along f) (scenario.join leader home)
      ((scenario.on site).join leader home) := by
  unfold join
  split_ifs
  · exact mirrors_launch h home (some leader)
  · exact mirrors_abort f _

theorem mirrors_launchAll (leader : Node) (homes : List NodeHome) :
    Mirrors (RunState.along f) (scenario.launchAll leader homes)
      ((scenario.on site).launchAll leader homes) := by
  induction homes with
  | nil => exact mirrors_pure _ ()
  | cons home rest ih => exact (mirrors_launch h home (some leader)).bind fun _ ↦ ih

theorem mirrors_joinAll (leader : Node) (homes : List NodeHome) :
    Mirrors (RunState.along f) (scenario.joinAll leader homes)
      ((scenario.on site).joinAll leader homes) := by
  induction homes with
  | nil => exact mirrors_pure _ ()
  | cons home rest ih => exact (mirrors_join h leader home).bind fun _ ↦ ih

theorem mirrors_await (deadline : Deadline) (node : Node) (target : WaitTarget) :
    Mirrors (RunState.along f) (scenario.await deadline node target)
      ((scenario.on site).await deadline node target) := by
  intro s
  let wait := scenario.watching deadline node target s
  have hwaited : ((scenario.on site).watching deadline node target (s.along f)).run
      (s.along f).stage = ((wait.run s.stage).1, (wait.run s.stage).2.along f) :=
    wait.ticks_along h.poll Wait.maxPolls _ s.stage
  have hwait : scenario.watching deadline node target s = wait := rfl
  rw [run_await, run_await, hwaited, hwait]
  generalize wait.run s.stage = waited
  rcases waited with ⟨(_ | _) | found, stage⟩ <;> rfl

theorem mirrors_provision :
    Mirrors (RunState.along f) scenario.provision (scenario.on site).provision := by
  have hcheck : Mirrors (RunState.along f) scenario.checkConfig (scenario.on site).checkConfig := by
    unfold checkConfig
    simp only [on]
    cases scenario.config.validate with
    | ok _ => exact mirrors_pure _ ()
    | error cause => exact mirrors_abort f _
  have hassign (homes : List NodeHome) :
      Mirrors (RunState.along f) (assign homes : Act τ Cast) (assign homes) := by
    unfold assign
    cases Cast.ofHomes? homes with
    | none => exact mirrors_abort f _
    | some cast => exact mirrors_pure _ cast
  rw [provision_eq, provision_eq]
  apply hcheck.bind
  intro _
  apply (mirrors_orFault f _).bind
  intro layout
  apply (mirrors_bringup (h.init layout)).bind
  intro homes
  apply (hassign homes).bind
  intro cast
  exact (mirrors_seed h _).bind fun _ ↦ mirrors_pure _ cast

theorem mirrors_execute :
    Mirrors (RunState.along f) scenario.execute (scenario.on site).execute := by
  unfold execute
  apply (mirrors_enter f _).bind
  intro _
  apply (mirrors_provision h).bind
  intro cast
  apply mirrors_get_bind
  intro s
  apply (mirrors_launch h _ _).bind
  intro leader
  apply (mirrors_launchAll h _ _).bind
  intro _
  apply (mirrors_joinAll h _ _).bind
  intro _
  apply (mirrors_enter f _).bind
  intro _
  apply (mirrors_await h _ _ _).bind
  intro baseline
  apply (mirrors_enter f _).bind
  intro _
  apply (mirrors_join h _ _).bind
  intro late
  apply (mirrors_enter f _).bind
  intro _
  apply (mirrors_await h _ _ _).bind
  intro degradation
  apply (mirrors_enter f _).bind
  intro _
  apply (mirrors_await h _ _ _).bind
  intro catchup
  apply mirrors_get_bind
  intro s
  exact mirrors_pure _ _

theorem shutdown_along (s : RunState τ) :
    (scenario.on site).shutdown (s.along f) =
      ((scenario.shutdown s).1, (scenario.shutdown s).2.along f) := by
  have hcalled : (s.along f).stage.call Call.shutdown (site.shutdown (s.along f).stage.field) =
      ((s.stage.call Call.shutdown (scenario.site.shutdown s.stage.field)).1,
        (s.stage.call Call.shutdown (scenario.site.shutdown s.stage.field)).2.along f) := by
    have hanswer : site.shutdown (s.along f).stage.field =
        (scenario.site.shutdown s.stage.field).along f := h.shutdown s.stage.field
    rw [hanswer]
    exact s.stage.call_along f _ _
  unfold shutdown
  simp only [on, hcalled]
  generalize s.stage.call Call.shutdown (scenario.site.shutdown s.stage.field) = called
  rcases called with ⟨f | (_ | _) | value, stage⟩ <;> rfl

/-- A run on a site that mirrors another is the run on that one. -/
theorem run_along (s : RunState τ) :
    (scenario.on site).run (s.along f) = ((scenario.run s).1, (scenario.run s).2.along f) := by
  unfold run
  rw [mirrors_execute h s]
  generalize scenario.execute.run.run s = executed
  obtain ⟨outcome, next⟩ := executed
  have hclosed := shutdown_along h next
  cases outcome with
  | error stop =>
    cases stop with
    | fault f => rfl
    | error cause =>
      dsimp only
      rw [hclosed]
      rcases scenario.shutdown next with ⟨cause | _, closed⟩ <;> rfl
  | ok report =>
    dsimp only
    rw [hclosed]
    rcases scenario.shutdown next with ⟨cause | _, closed⟩ <;> rfl

end Site

end Scenario

/-! ## Clusters with logs -/

variable {σ : Type}

/-- Polls of a machine with a log. -/
def Poller.logged (poller : Poller (ClusterState σ)) :
    Poller (ClusterState (σ × List (Started σ))) := fun node state ↦
  let answer := poller node state.forget
  { took := answer.took
    outcome := answer.outcome
    next := ⟨(answer.next.machine, state.machine.2), answer.next.tracked⟩ }

theorem answer_along {f : τ → υ} {op : Bringup τ α} {base : Bringup υ α} (h : Mirrors f op base)
    (took : Span) (field : τ) :
    Answer.mk took (base.run.run (f field)).1 (base.run.run (f field)).2 =
      (Answer.mk took (op.run.run field).1 (op.run.run field).2).along f := by
  rw [h field]
  rfl

theorem mirrors_ofCluster (cluster : LocalCluster σ) (seeder : Seeder)
    (poller : Poller (ClusterState σ)) :
    (Site.ofCluster cluster.logged seeder poller.logged).Mirrors ClusterState.forget
      (Site.ofCluster cluster seeder poller) where
  init layout := answer_along (cluster.machine.adorns_logged.mirrors_init layout) _
  populate accounts homes :=
    answer_along (cluster.machine.adorns_logged.mirrors_populate seeder accounts homes) _
  copySnapshot source homes :=
    answer_along (cluster.machine.adorns_logged.mirrors_copySnapshot source homes) _
  launch home boot := answer_along (cluster.machine.adorns_logged.mirrors_launch home boot) _
  shutdown := answer_along cluster.machine.adorns_logged.mirrors_shutdown _
  poll _ _ := rfl

/-- A state of a run with an empty log. -/
def RunState.unlogged (s : RunState (ClusterState σ)) :
    RunState (ClusterState (σ × List (Started σ))) where
  stage := {
    clock := s.stage.clock
    calls := s.stage.calls
    field := ⟨(s.stage.field.machine, []), s.stage.field.tracked⟩ }
  tracker := s.tracker

/-- A scenario on a cluster that logs the processes it starts. -/
def Scenario.logged (config : ScenarioConfig) (dataset : Dataset) (cluster : LocalCluster σ)
    (seeder : Seeder) (poller : Poller (ClusterState σ)) :
    Scenario (ClusterState (σ × List (Started σ))) :=
  ⟨config, dataset, Site.ofCluster cluster.logged seeder poller.logged⟩

/-- The processes that a run starts, in order. -/
def Scenario.started (config : ScenarioConfig) (dataset : Dataset) (cluster : LocalCluster σ)
    (seeder : Seeder) (poller : Poller (ClusterState σ)) (s : RunState (ClusterState σ)) :
    List (Started σ) :=
  ((Scenario.logged config dataset cluster seeder poller).run s.unlogged).2.stage.field.machine.2

/-- A run that logs what it starts is the run without a log. -/
theorem run_logged (config : ScenarioConfig) (dataset : Dataset) (cluster : LocalCluster σ)
    (seeder : Seeder) (poller : Poller (ClusterState σ)) (s : RunState (ClusterState σ)) :
    (Scenario.mk config dataset (Site.ofCluster cluster seeder poller)).run s =
      (((Scenario.logged config dataset cluster seeder poller).run s.unlogged).1,
        ((Scenario.logged config dataset cluster seeder poller).run s.unlogged).2.along
          ClusterState.forget) := by
  let scenario := Scenario.logged config dataset cluster seeder poller
  have hsite : scenario.site.Mirrors ClusterState.forget (Site.ofCluster cluster seeder poller) :=
    mirrors_ofCluster cluster seeder poller
  exact Scenario.run_along hsite s.unlogged

end BlockWatch
