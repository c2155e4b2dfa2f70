import BlockWatch.Cluster.Error
import BlockWatch.Config.Error
import BlockWatch.Progress.Wait

/-!
# Phases

The phases a run goes through, the record of those it entered, and the error of a run that stopped in
one of them.
-/

namespace BlockWatch

/-- Where a run is. -/
inductive Phase
  | provisioning
  | baselineWait
  | joinLateNode
  | degradationWatch
  | lateNodeCatchup
  | done
  | aborted
deriving DecidableEq, Repr

namespace Phase

def isTerminal : Phase → Bool
  | done | aborted => true
  | _ => false

/-- The phase in messages. -/
def describe : Phase → String
  | provisioning => "provisioning"
  | baselineWait => "baseline wait"
  | joinLateNode => "late node join"
  | degradationWatch => "degradation watch"
  | lateNodeCatchup => "late node catchup"
  | done => "done"
  | aborted => "aborted"

end Phase

/-- What made a run stop. -/
inductive AbortReason
  | config (cause : ConfigError)
  | bringup (cause : BringupError)
  | wait (cause : WaitError)
deriving DecidableEq

namespace AbortReason

def message : AbortReason → String
  | config cause => cause.message
  | bringup cause => cause.message
  | wait cause => cause.message

def code : AbortReason → String
  | config cause => cause.code
  | bringup cause => cause.code
  | wait cause => cause.code

end AbortReason

/-- A run stopped in a phase. -/
structure ScenarioError where
  phase : Phase
  reason : AbortReason
deriving DecidableEq

namespace ScenarioError

def message (e : ScenarioError) : String :=
  "Scenario aborted during " ++ e.phase.describe ++ ": " ++ e.reason.message

def code (e : ScenarioError) : String := e.reason.code

/-- The node that a failed wait was watching. -/
def node? (e : ScenarioError) : Option String :=
  match e.reason with
  | .wait cause => some cause.node
  | _ => none

def isThroughputViolation (e : ScenarioError) : Bool :=
  match e.reason with
  | .wait cause => cause.isThroughputViolation
  | _ => false

end ScenarioError

/-- The current phase and all phases entered so far, in order. -/
structure PhaseTracker where
  current : Phase := .provisioning
  history : List Phase := []
deriving DecidableEq, Repr

namespace PhaseTracker

def enter (tracker : PhaseTracker) (phase : Phase) : PhaseTracker where
  current := phase
  history := tracker.history ++ [phase]

/-- The error of a failure in the current phase. -/
def abort (tracker : PhaseTracker) (reason : AbortReason) : ScenarioError :=
  ⟨tracker.current, reason⟩

end PhaseTracker

end BlockWatch
