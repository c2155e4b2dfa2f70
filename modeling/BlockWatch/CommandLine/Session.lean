import BlockWatch.CommandLine.Arguments
import BlockWatch.CommandLine.LogFilter
import BlockWatch.CommandLine.Setup
import BlockWatch.Config.Load
import BlockWatch.Scenario.Run

/-!
# A session

What the program does from its arguments to its exit code: it loads the harness configuration, says
what it will do, runs the scenario on a machine, and says how that went. The lines it prints and the
complaint it ends with are values, so that whatever prints them decides nothing.
-/

namespace BlockWatch.CommandLine

/-- What the program says while it runs. -/
inductive Notice
  | starting
  | nodeBinary (path : Path)
  | workDir (path : Path)
  | dataset (source : Dataset)
  | heights (small large : UInt64) (floor : Binary64)
  | reached (report : ScenarioReport)

/-- The target of the program's own log lines. -/
def logTarget : String := "state_sync_massive"

/-- A line of the log; `duration` shows how long the run took. -/
def Notice.line (duration : Span → String) (notice : Notice) : String :=
  "INFO " ++ logTarget ++ ": " ++ match notice with
    | starting => "Starting state sync scenario"
    | nodeBinary path => "Node binary: " ++ path.text
    | workDir path => "Work dir: " ++ path.text
    | dataset source => "Dataset: " ++ source.describe
    | heights small large floor =>
      "Heights: baseline " ++ toString small ++ ", degradation " ++ toString large ++
        "; rate floor " ++ Binary64.scientific.write floor ++ " blocks/s"
    | reached report =>
      "Leader " ++ report.leader.name ++ " reached " ++ toString report.degradation.height ++
        " and late node " ++ report.lateNode.name ++ " reached " ++
        toString report.catchup.height ++ " in " ++ duration report.elapsed

/-- Why a session fails. -/
inductive Failure
  | usage (flaw : UsageFlaw)
  | config (cause : ConfigError)
  | scenario (cause : ScenarioError)
  | fault (fault : Fault)

namespace Failure

/-- The text on the stream of complaints. An error is followed by the error behind it. -/
def text : Failure → String
  | usage flaw => flaw.message
  | config cause =>
    "Error: " ++ cause.message ++
      (match cause.source? with
        | some source => "\n\nCaused by:\n    " ++ source
        | none => "") ++ "\n"
  | scenario cause => "Error: " ++ cause.message ++ "\n"
  | fault f => f.message ++ "\n"

def exitCode : Failure → Nat
  | usage _ => 2
  | config _ | scenario _ => 1
  | fault _ => 101

end Failure

/-- What comes of a session: help or log lines, and a failure or none. -/
structure Outcome where
  help : List String := []
  notices : List Notice := []
  failure : Option Failure := none

namespace Outcome

def exitCode (o : Outcome) : Nat := (o.failure.map Failure.exitCode).getD 0

/-- The lines on the stream of output. -/
def lines (duration : Span → String) (o : Outcome) : List String :=
  o.help ++ o.notices.map (·.line duration)

/-- The text on the stream of complaints. -/
def complaint (o : Outcome) : String := (o.failure.map Failure.text).getD ""

end Outcome

/-- The values of environment variables. -/
abbrev Environment : Type := String → Option String

def logVariable : String := "RUST_LOG"

/-- The filter that the environment asks for. -/
def logFilter (environment : Environment) : LogFilter :=
  LogFilter.ofSetting (environment logVariable)
    (if (environment verboseVariable).isSome then .debug else .info)

/-- What is said before the run. -/
def announcements (harness : HarnessConfig) (config : ScenarioConfig) (dataset : Dataset) :
    List Notice := [
  .starting, .nodeBinary harness.nodeBinaryPath, .workDir harness.workDir, .dataset dataset,
  .heights config.smallHeight config.largeHeight config.rateFloor]

variable {σ : Type}

/-- The harness configuration that a run can use. -/
def harnessFor (machine : Machine σ) (environment : Environment) (config : ScenarioConfig) :
    Op σ Failure HarnessConfig := do
  let stopped : Stop ConfigError → Failure
    | .error cause => .config cause
    | .fault f => .fault f
  let harness ← (HarnessConfig.load machine (environment configVariable)).adapt stopped
  match config.topology.nodeCount with
  | .error f => throw (.fault f)
  | .ok nodes =>
    match harness.validate nodes with
    | .ok () => pure harness
    | .error cause => throw (.config cause)

/-- Runs the scenario that the program is for. -/
def runScenario (machine : Machine σ) (poller : Poller (ClusterState σ))
    (environment : Environment) (snapshot : Option String) (state : σ) : Outcome :=
  let config : ScenarioConfig := {}
  match (harnessFor machine environment config).run.run state with
  | (.error failure, _) => { failure := some failure }
  | (.ok harness, state) =>
    let dataset := Dataset.ofSnapshotOr (snapshot.map Path.mk) config.generatedAccounts
    let cluster : LocalCluster σ := { config := harness, machine }
    let scenario : Scenario (ClusterState σ) := {
      config, dataset
      site := Site.ofCluster cluster ⟨harness.populateBinaryPath⟩ poller }
    let before := announcements harness config dataset
    let shown (notices : List Notice) : List Notice :=
      if (logFilter environment).shows logTarget .info then notices else []
    match (scenario.run { stage := { field := { machine := state } } }).1 with
    | .ok report => { notices := shown (before ++ [.reached report]) }
    | .error (.error cause) =>
      { notices := shown before, failure := some (.scenario cause) }
    | .error (.fault f) => { notices := shown before, failure := some (.fault f) }

/-- Does what the arguments ask for. -/
def session (machine : Machine σ) (poller : Poller (ClusterState σ)) (environment : Environment)
    (arguments : List String) (state : σ) : Outcome :=
  match Request.ofArguments arguments with
  | .help => { help }
  | .refuse flaw => { failure := some (.usage flaw) }
  | .run snapshot => runScenario machine poller environment snapshot state

end BlockWatch.CommandLine
