import BlockWatch.Cluster.Local
import BlockWatch.Cluster.Seeding
import BlockWatch.Scenario.Cast
import BlockWatch.Scenario.Phase

/-!
# A run of the scenario

A run lays out the cluster, seeds it, launches all nodes but the late one, and waits for the leader to
produce blocks. Then the late node joins, the leader has to keep up its rate while the late node
catches up, and the late node has to reach the small height. One deadline, counted from the first
launch, holds for all waits. Whatever the outcome, the cluster is shut down once at the end.
-/

namespace BlockWatch

/-- The calls that a run makes. -/
inductive Call
  | init (layout : Layout)
  | populate (accounts : UInt64) (homes : List Path)
  | copySnapshot (source : Path) (homes : List Path)
  | launch (home : NodeHome) (boot : Option Node)
  | poll (node : Node)
  | shutdown

/-- What answers the calls of a run, over some state. -/
structure Site (τ : Type) where
  init : Layout → τ → Answer τ (Except (Stop BringupError) (List NodeHome))
  populate : UInt64 → List Path → τ → Answer τ (Except (Stop BringupError) Unit)
  copySnapshot : Path → List Path → τ → Answer τ (Except (Stop BringupError) Unit)
  launch : NodeHome → Option Node → τ → Answer τ (Except (Stop BringupError) Node)
  shutdown : τ → Answer τ (Except (Stop BringupError) Unit)
  poll : Poller τ

/-- What a run found that went through all phases. -/
structure ScenarioReport where
  leader : Node
  lateNode : Node
  /-- The leader at the small height. -/
  baseline : WaitOutcome
  /-- The leader at the large height, under the floor. -/
  degradation : WaitOutcome
  /-- The late node at the small height. -/
  catchup : WaitOutcome
  phases : List Phase
  /-- The time since the first launch. -/
  elapsed : Span
deriving DecidableEq

/-- The stage of a run, and the phases of this and earlier runs. -/
structure RunState (τ : Type) where
  stage : Stage τ Call
  tracker : PhaseTracker := {}

/-- A scenario: its constants, its dataset and what answers its calls. -/
structure Scenario (τ : Type) where
  config : ScenarioConfig
  dataset : Dataset
  site : Site τ

namespace Scenario

variable {τ α : Type}

/-- A part of a run. -/
abbrev Act (τ α : Type) : Type := ExceptT (Stop ScenarioError) (StateM (RunState τ)) α

def enter (phase : Phase) : Act τ Unit :=
  modify fun s => { s with tracker := s.tracker.enter phase }

/-- Stops the run in the current phase. -/
def abort (reason : AbortReason) : Act τ α := do
  let s ← get
  throw (.error (s.tracker.abort reason))

def orFault : Except Fault α → Act τ α
  | .ok value => pure value
  | .error f => throw (.fault f)

/-- Makes a call of bringup and stops the run if it fails. -/
def bringup (entry : Call) (answer : τ → Answer τ (Except (Stop BringupError) α)) : Act τ α := do
  let s ← get
  let (outcome, stage) := s.stage.call entry (answer s.stage.field)
  set { s with stage }
  match ← orFault outcome with
  | .ok value => pure value
  | .error (.error cause) => abort (.bringup cause)
  | .error (.fault f) => throw (.fault f)

/-- Seeds the homes; no call is made without a dataset. -/
def seed (scenario : Scenario τ) (homes : List Path) : Act τ Unit :=
  match scenario.dataset with
  | .generate accounts =>
    bringup (.populate accounts homes) (scenario.site.populate accounts homes)
  | .snapshot source =>
    bringup (.copySnapshot source homes) (scenario.site.copySnapshot source homes)
  | .skip => pure ()

def launch (scenario : Scenario τ) (home : NodeHome) (boot : Option Node) : Act τ Node :=
  bringup (.launch home boot) (scenario.site.launch home boot)

/-- Launches an observer that joins through the leader. -/
def join (scenario : Scenario τ) (leader : Node) (home : NodeHome) : Act τ Node :=
  if home.role = .observer then scenario.launch home (some leader)
  else abort (.bringup (.unexpectedRole home.ordinal .observer home.role))

/-- Launches validators that join through the leader. -/
def launchAll (scenario : Scenario τ) (leader : Node) : List NodeHome → Act τ Unit
  | [] => pure ()
  | home :: rest => do
    let _ ← scenario.launch home (some leader)
    scenario.launchAll leader rest

def joinAll (scenario : Scenario τ) (leader : Node) : List NodeHome → Act τ Unit
  | [] => pure ()
  | home :: rest => do
    let _ ← scenario.join leader home
    scenario.joinAll leader rest

/-- Waits for a node and stops the run if that fails. -/
def await (scenario : Scenario τ) (deadline : Deadline) (node : Node) (target : WaitTarget) :
    Act τ WaitOutcome := do
  let s ← get
  let (outcome, stage) :=
    waitForHeight scenario.site.poll .poll deadline scenario.config.window node target s.stage
  set { s with stage }
  match outcome with
  | .ok found => pure found
  | .error (.error cause) => abort (.wait cause)
  | .error (.fault f) => throw (.fault f)

/-- The small height without a floor. -/
def smallTarget (config : ScenarioConfig) : WaitTarget :=
  { height := config.smallHeight, pollInterval := config.pollInterval }

/-- The large height with the floor on the rate. -/
def largeTarget (config : ScenarioConfig) : WaitTarget :=
  { height := config.largeHeight, pollInterval := config.pollInterval,
    rateFloor := some config.rateFloor }

/-- Lays out and seeds the cluster. -/
def provision (scenario : Scenario τ) : Act τ Cast := do
  match scenario.config.validate with
  | .ok () => pure ()
  | .error cause => abort (.config cause)
  let layout ← orFault (scenarioLayout scenario.config)
  let homes ← bringup (.init layout) (scenario.site.init layout)
  match Cast.ofHomes? homes with
  | none => abort (.bringup (.ofFlaw (.incompleteCast homes.length)))
  | some cast =>
    scenario.seed (homes.map (·.directory))
    pure cast

/-- All phases in order. -/
def execute (scenario : Scenario τ) : Act τ ScenarioReport := do
  let config := scenario.config
  enter .provisioning
  let cast ← scenario.provision
  let deadline := Deadline.start (← get).stage.clock config.deadline
  let leader ← scenario.launch cast.leader none
  scenario.launchAll leader cast.validators
  scenario.joinAll leader cast.early
  enter .baselineWait
  let baseline ← scenario.await deadline leader (smallTarget config)
  enter .joinLateNode
  let lateNode ← scenario.join leader cast.late
  enter .degradationWatch
  let degradation ← scenario.await deadline leader (largeTarget config)
  enter .lateNodeCatchup
  let catchup ← scenario.await deadline lateNode (smallTarget config)
  let elapsed := deadline.elapsed (← get).stage.clock.now
  pure { leader, lateNode, baseline, degradation, catchup, phases := [], elapsed }

/-- Shuts the cluster down. Its failure is not reported, only a fault is. -/
def shutdown (scenario : Scenario τ) (s : RunState τ) : Except Fault Unit × RunState τ :=
  let (outcome, stage) := s.stage.call .shutdown (scenario.site.shutdown s.stage.field)
  let s := { s with stage }
  match outcome with
  | .error f => (.error f, s)
  | .ok (.error (.fault f)) => (.error f, s)
  | .ok _ => (.ok (), s)

/-- A run: all phases, and a shutdown unless a fault stopped it. -/
def run (scenario : Scenario τ) (s : RunState τ) :
    Except (Stop ScenarioError) ScenarioReport × RunState τ :=
  let (outcome, s) := scenario.execute.run.run s
  match outcome with
  | .error (.fault f) => (.error (.fault f), s)
  | .error (.error cause) =>
    match scenario.shutdown s with
    | (.error f, s) => (.error (.fault f), s)
    | (.ok (), s) =>
      (.error (.error cause), { s with tracker := s.tracker.enter .aborted })
  | .ok report =>
    match scenario.shutdown s with
    | (.error f, s) => (.error (.fault f), s)
    | (.ok (), s) =>
      let tracker := s.tracker.enter .done
      (.ok { report with phases := tracker.history }, { s with tracker })

end Scenario

/-- How long a process is watched after its start. -/
def launchGrace : Span := ⟨200000000, by decide⟩

/-- A site made of a cluster on a machine, a seeder on the same machine, and a poller. -/
def Site.ofCluster {σ : Type} (cluster : LocalCluster σ) (seeder : Seeder)
    (poller : Poller (ClusterState σ)) : Site (ClusterState σ) :=
  let answer {α : Type} (took : Span) (op : Bringup (ClusterState σ) α)
      (state : ClusterState σ) : Answer (ClusterState σ) (Except (Stop BringupError) α) :=
    let (outcome, next) := op.run.run state
    { took, outcome, next }
  { init := fun layout => answer .zero (cluster.init layout)
    populate := fun accounts homes =>
      answer .zero (LocalCluster.onMachine (seeder.populate cluster.machine accounts homes))
    copySnapshot := fun source homes =>
      answer .zero (LocalCluster.onMachine (Seeder.copySnapshot cluster.machine source homes))
    launch := fun home boot => answer launchGrace (cluster.launch home boot)
    shutdown := answer .zero cluster.shutdown
    poll := poller }

end BlockWatch
