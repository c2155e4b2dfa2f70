import BlockWatch.Node

/-!
# Failed polls

A poll of a node's status fails because no answer came in time or because no usable answer came.
The node is asked again at the next tick in both cases.
-/

namespace BlockWatch

inductive PollError
  | timeout (node : String) (milliseconds : Nat)
  | transport (node reason : String)
deriving DecidableEq, Repr

namespace PollError

def isTimeout : PollError → Bool
  | timeout .. => true
  | transport .. => false

def isRetriable : PollError → Bool := fun _ => true

def message : PollError → String
  | timeout node milliseconds =>
    "Status request to " ++ node ++ " timed out after " ++ toString milliseconds ++ "ms"
  | transport node reason => "Status request to " ++ node ++ " failed: " ++ reason

def code : PollError → String
  | timeout .. => "POLL_TIMEOUT"
  | transport .. => "POLL_TRANSPORT"

end PollError

/-- What a poll answers: the height that the node reports. -/
abbrev Report : Type := Except PollError UInt64

end BlockWatch
