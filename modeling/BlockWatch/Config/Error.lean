import BlockWatch.IoError
import BlockWatch.Json.Reader
import BlockWatch.Path

/-!
# Configuration errors

A configuration cannot be used because its file is missing, cannot be read or does not decode, or
because its values rule out a run.
-/

namespace BlockWatch

/-- Values that rule out a run. -/
inductive ConfigFlaw
  | noValidator
  | tooFewObservers (observers : Nat)
  | noShard
  | heightsReversed (small large : Nat)
  | zeroSpan
  | rateFloor (floor : Binary64)
  | noRoomForPorts (basePort rpcBasePort nodes : Nat)
deriving DecidableEq

def ConfigFlaw.message : ConfigFlaw → String
  | noValidator => "at least one validator is required"
  | tooFewObservers observers =>
    "an early and a late observer are required, got " ++ toString observers ++ " observers"
  | noShard => "shard count must be positive"
  | heightsReversed small large =>
    "small_height " ++ toString small ++ " exceeds large_height " ++ toString large
  | zeroSpan => "window, poll_interval and status_timeout must be non-zero"
  | rateFloor floor =>
    "rate_floor must be strictly positive, got " ++ Binary64.plain.write floor
  | noRoomForPorts basePort rpcBasePort nodes =>
    "base_port " ++ toString basePort ++ " / rpc_base_port " ++ toString rpcBasePort ++
      " leave no room for " ++ toString nodes ++ " nodes"

/-- Why a configuration cannot be used. -/
inductive ConfigError
  | notFound (path : Path)
  | unreadable (path : Path) (cause : IoError)
  | malformed (path : Path) (cause : Json.ReadError)
  | invalid (detail : String)
deriving DecidableEq

namespace ConfigError

def ofFlaw (flaw : ConfigFlaw) : ConfigError := invalid flaw.message

def message : ConfigError → String
  | notFound path => "Configuration file not found: " ++ path.text
  | unreadable path cause =>
    "Failed to read configuration " ++ path.text ++ ": " ++ cause.message
  | malformed path cause =>
    "Failed to parse configuration " ++ path.text ++ ": " ++ cause.detail
  | invalid detail => "Invalid configuration: " ++ detail

def code : ConfigError → String
  | notFound _ => "CONFIG_NOT_FOUND"
  | unreadable .. => "CONFIG_READ"
  | malformed .. => "CONFIG_PARSE"
  | invalid _ => "INVALID_CONFIG"

/-- The text of the error behind the error. -/
def source? : ConfigError → Option String
  | unreadable _ cause => some cause.message
  | malformed _ cause => some cause.detail
  | _ => none

end ConfigError

end BlockWatch
