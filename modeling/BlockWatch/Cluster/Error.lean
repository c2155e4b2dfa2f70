import BlockWatch.IoError
import BlockWatch.Json.Reader
import BlockWatch.Node

/-!
# Bringup errors

Why a cluster could not be laid out, seeded or launched.
-/

namespace BlockWatch

/-- Why a layout cannot be used. -/
inductive LayoutFlaw
  | noValidator
  | noShard
  | strayOverride (ordinal nodes : Nat)
  | noPort (ordinal basePort rpcBasePort : Nat)
  /-- The homes do not hold a validator and two observers. -/
  | incompleteCast (homes : Nat)
deriving DecidableEq, Repr

def LayoutFlaw.message : LayoutFlaw → String
  | noValidator => "at least one validator is required"
  | noShard => "shard count must be positive"
  | strayOverride ordinal nodes =>
    "override for node " ++ toString ordinal ++ " but the cluster has " ++ toString nodes ++
      " nodes"
  | noPort ordinal basePort rpcBasePort =>
    "node " ++ toString ordinal ++ " has no port above base_port " ++ toString basePort ++
      " / rpc_base_port " ++ toString rpcBasePort
  | incompleteCast homes =>
    "bringup returned " ++ toString homes ++ " homes without a validator and two observers"

inductive BringupError
  | io (path : Path) (cause : IoError)
  | spawn (command : String) (cause : IoError)
  | commandFailed (command status complaint : String)
  | malformed (path : Path) (cause : Json.ReadError)
  | notAnObject (path : Path)
  | missingNodeKey (path : Path)
  | earlyExit (ordinal : Nat) (status : String)
  | unexpectedRole (ordinal : Nat) (expected actual : Role)
  | invalidSnapshot (path : Path)
  | invalidLayout (detail : String)
deriving DecidableEq

namespace BringupError

def ofFlaw (flaw : LayoutFlaw) : BringupError := invalidLayout flaw.message

def message : BringupError → String
  | io path cause => "I/O error at " ++ path.text ++ ": " ++ cause.message
  | spawn command cause => "Failed to start " ++ command ++ ": " ++ cause.message
  | commandFailed command status complaint =>
    command ++ " exited with " ++ status ++ ": " ++ complaint
  | malformed path cause => "Invalid JSON in " ++ path.text ++ ": " ++ cause.detail
  | notAnObject path => "Expected a JSON object in " ++ path.text
  | missingNodeKey path => "No public key in " ++ path.text
  | earlyExit ordinal status =>
    "Node " ++ toString ordinal ++ " exited right after launch with " ++ status
  | unexpectedRole ordinal expected actual =>
    "Node " ++ toString ordinal ++ " has role " ++ actual.text ++ ", expected " ++ expected.text
  | invalidSnapshot path => "Snapshot " ++ path.text ++ " has no genesis.json"
  | invalidLayout detail => "Invalid cluster layout: " ++ detail

def code : BringupError → String
  | io .. => "IO_ERROR"
  | spawn .. => "SPAWN_FAILED"
  | commandFailed .. => "COMMAND_FAILED"
  | malformed .. => "INVALID_JSON"
  | notAnObject _ => "NOT_AN_OBJECT"
  | missingNodeKey _ => "MISSING_NODE_KEY"
  | earlyExit .. => "EARLY_EXIT"
  | unexpectedRole .. => "UNEXPECTED_ROLE"
  | invalidSnapshot _ => "INVALID_SNAPSHOT"
  | invalidLayout _ => "INVALID_LAYOUT"

end BringupError

end BlockWatch
