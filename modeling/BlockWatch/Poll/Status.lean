import BlockWatch.Config.Scenario
import BlockWatch.Poll.Error

/-!
# Status answers

The status of a node is asked for over HTTP. Of the answer only the height, a hash and whether the
node is still syncing are used; all other members of it are skipped. An exchange that does not give a
status is a failed poll: a timeout if no complete answer came in time, and otherwise a transport
failure with a reason.
-/

namespace BlockWatch

/-- What a node says about its progress. -/
structure Status where
  height : UInt64
  hash : Option String := none
  syncing : Bool := false
deriving DecidableEq, Repr

namespace Status

structure PartialSync where
  height : Option UInt64 := none
  hash : Option (Option String) := none
  syncing : Option Bool := none

open Json.Decoder in
/-- Only the height is required. -/
def syncRecord : Record PartialSync Status where
  name := "SyncInfo"
  fields := [
    field "latest_block_height" (·.height) (fun p x => { p with height := some x }) word,
    field "latest_block_hash" (·.hash) (fun p x => { p with hash := some x })
      (optional (string "a string")) true,
    field "syncing" (·.syncing) (fun p x => { p with syncing := some x }) boolean true]
  blank := {}
  build p := do
    let height ← required "latest_block_height" p.height
    pure { height, hash := p.hash.getD none, syncing := p.syncing.getD false }

open Json.Decoder in
def record : Record (Option Status) Status where
  name := "StatusResponse"
  fields := [field "sync_info" id (fun _ x => some x) syncRecord.decoder]
  blank := none
  build p := required "sync_info" p

def ofText (text : String) : Json.Result Status := Json.Decoder.ofText record.decoder text

def toJson (s : Status) : Json.Value := .object [
  ("sync_info", .object [
    ("latest_block_height", .ofWord s.height),
    ("latest_block_hash", match s.hash with
      | some hash => .string hash
      | none => .null),
    ("syncing", .boolean s.syncing)])]

end Status

/-- What comes of a request for a status. -/
inductive Exchange
  /-- The request could not be sent, or the connection closed without an answer. -/
  | unreachable
  /-- No complete answer came in time. -/
  | late
  /-- An answer with this code; its body is missing if it is cut off. Only bodies that are text are
  told apart: one that is not counts as missing, although a reader of bytes accepts it if what is no
  text lies within the strings that it skips. -/
  | answered (code : Nat) (body : Option String)
deriving DecidableEq, Repr

namespace Exchange

/-- The standard reasons of status codes. -/
def reasons : List (Nat × String) := [
  (100, "Continue"), (101, "Switching Protocols"), (102, "Processing"), (103, "Early Hints"),
  (200, "OK"), (201, "Created"), (202, "Accepted"), (203, "Non Authoritative Information"),
  (204, "No Content"), (205, "Reset Content"), (206, "Partial Content"),
  (207, "Multi-Status"), (208, "Already Reported"), (226, "IM Used"),
  (300, "Multiple Choices"), (301, "Moved Permanently"), (302, "Found"), (303, "See Other"),
  (304, "Not Modified"), (305, "Use Proxy"), (307, "Temporary Redirect"),
  (308, "Permanent Redirect"),
  (400, "Bad Request"), (401, "Unauthorized"), (402, "Payment Required"), (403, "Forbidden"),
  (404, "Not Found"), (405, "Method Not Allowed"), (406, "Not Acceptable"),
  (407, "Proxy Authentication Required"), (408, "Request Timeout"), (409, "Conflict"),
  (410, "Gone"), (411, "Length Required"), (412, "Precondition Failed"),
  (413, "Payload Too Large"), (414, "URI Too Long"), (415, "Unsupported Media Type"),
  (416, "Range Not Satisfiable"), (417, "Expectation Failed"), (418, "I'm a teapot"),
  (421, "Misdirected Request"), (422, "Unprocessable Entity"), (423, "Locked"),
  (424, "Failed Dependency"), (425, "Too Early"), (426, "Upgrade Required"),
  (428, "Precondition Required"), (429, "Too Many Requests"),
  (431, "Request Header Fields Too Large"), (451, "Unavailable For Legal Reasons"),
  (500, "Internal Server Error"), (501, "Not Implemented"), (502, "Bad Gateway"),
  (503, "Service Unavailable"), (504, "Gateway Timeout"), (505, "HTTP Version Not Supported"),
  (506, "Variant Also Negotiates"), (507, "Insufficient Storage"), (508, "Loop Detected"),
  (510, "Not Extended"), (511, "Network Authentication Required")]

def reasonOf (code : Nat) : String :=
  match reasons.find? (·.1 == code) with
  | some (_, reason) => reason
  | none => "<unknown status code>"

def isSuccess (code : Nat) : Bool := decide (200 ≤ code ∧ code ≤ 299)

/-- The status that an exchange gives, for a node of that name at that address. -/
def status (exchange : Exchange) (name url : String) (milliseconds : Nat) :
    Except PollError Status :=
  match exchange with
  | unreachable =>
    .error (.transport name ("error sending request for url (" ++ url ++ "/status)"))
  | late => .error (.timeout name milliseconds)
  | answered code body =>
    if isSuccess code then
      match body.map Status.ofText with
      | some (.ok status) => .ok status
      | _ => .error (.transport name "error decoding response body")
    else .error (.transport name ("HTTP " ++ toString code ++ " " ++ reasonOf code))

/-- The height that an exchange reports. -/
def report (exchange : Exchange) (name url : String) (milliseconds : Nat) : Report :=
  (exchange.status name url milliseconds).map (·.height)

end Exchange

end BlockWatch
