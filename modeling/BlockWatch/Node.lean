import BlockWatch.Json.Decode
import BlockWatch.Net.AddressReader
import BlockWatch.Path
import BlockWatch.Time.Timestamp

/-!
# Nodes

A node of the cluster as others see it: its place in the layout, its role, where it listens, its
public key and its home directory.
-/

namespace BlockWatch

/-- What a node does: validators produce blocks, observers follow the chain. -/
inductive Role
  | validator
  | observer
deriving DecidableEq, Repr

namespace Role

def isValidator : Role → Bool
  | validator => true
  | observer => false

def text : Role → String
  | validator => "validator"
  | observer => "observer"

def decoder : Json.Decoder Role :=
  Json.Decoder.variant [("validator", validator), ("observer", observer)]

end Role

/-- A running node. -/
structure Node where
  ordinal : Nat
  role : Role
  address : Net.Endpoint
  rpcAddress : Net.Endpoint
  publicKey : String
  home : Path
deriving DecidableEq

namespace Node

/-- The name of the node in messages. -/
def name (node : Node) : String := "node" ++ toString node.ordinal

/-- What other nodes need to join the network through this one. -/
def bootNode (node : Node) : String := node.publicKey ++ "@" ++ node.address.text

def rpcUrl (node : Node) : String := "http://" ++ node.rpcAddress.text

def describe (node : Node) : String :=
  node.name ++ " (" ++ node.role.text ++ ", rpc " ++ node.rpcAddress.text ++ ")"

end Node

/-- A node and when it was launched, as kept in files. -/
structure NodeRecord where
  node : Node
  launchedAt : Timestamp
deriving DecidableEq

/-! ## Files -/

namespace Json.Decoder

/-- The bound of node counts, ordinals and other sizes. -/
def size : Decoder Nat := natural UInt64.size "usize"

def path : Decoder Path := refine (string "path string") fun s => pure ⟨s⟩

def endpoint : Decoder Net.Endpoint :=
  refine (string "socket address") fun s =>
    match Net.Endpoint.ofText? s with
    | some e => pure e
    | none => mismatch (.unreadable "invalid socket address syntax")

def host : Decoder Net.Host :=
  refine (string "IP address") fun s =>
    match Net.Host.ofText? s with
    | some h => pure h
    | none => mismatch (.unreadable "invalid IP address syntax")

def timestamp : Decoder Timestamp :=
  refine (string "an RFC 3339 formatted date and time string") fun s =>
    match Timestamp.ofText s with
    | .ok t => pure t
    | .error cause => mismatch (.unreadable cause.message)

/-- The value of a field that has to be there. -/
def required {α : Type} (name : String) : Option α → Except Mismatch α
  | some value => .ok value
  | none => .error (.missingField name)

end Json.Decoder

namespace NodeRecord

/-- The fields read so far. -/
structure Partial where
  ordinal : Option Nat := none
  role : Option Role := none
  address : Option Net.Endpoint := none
  rpcAddress : Option Net.Endpoint := none
  publicKey : Option String := none
  home : Option Path := none
  launchedAt : Option Timestamp := none

open Json.Decoder in
def record : Record Partial NodeRecord where
  name := "NodeHandle"
  fields := [
    field "ordinal" (·.ordinal) (fun p x => { p with ordinal := some x }) size,
    field "role" (·.role) (fun p x => { p with role := some x }) Role.decoder,
    field "addr" (·.address) (fun p x => { p with address := some x }) endpoint,
    field "rpc_addr" (·.rpcAddress) (fun p x => { p with rpcAddress := some x }) endpoint,
    field "public_key" (·.publicKey) (fun p x => { p with publicKey := some x })
      (string "a string"),
    field "home" (·.home) (fun p x => { p with home := some x }) path,
    field "launched_at" (·.launchedAt) (fun p x => { p with launchedAt := some x }) timestamp]
  blank := {}
  build p := do
    let ordinal ← required "ordinal" p.ordinal
    let role ← required "role" p.role
    let address ← required "addr" p.address
    let rpcAddress ← required "rpc_addr" p.rpcAddress
    let publicKey ← required "public_key" p.publicKey
    let home ← required "home" p.home
    let launchedAt ← required "launched_at" p.launchedAt
    pure ⟨⟨ordinal, role, address, rpcAddress, publicKey, home⟩, launchedAt⟩

def ofText (text : String) : Json.Result NodeRecord := Json.Decoder.ofText record.decoder text

end NodeRecord

/-- A number of nodes or an ordinal as a value; sizes are below `2 ^ 64`. -/
def Json.Value.ofSize (n : Nat) : Json.Value := .ofWord (UInt64.ofNat n)

/-- The members of a node's file, in the order of its fields. -/
def Node.members (node : Node) : Json.Members := [
  ("ordinal", .ofSize node.ordinal),
  ("role", .string node.role.text),
  ("addr", .string node.address.text),
  ("rpc_addr", .string node.rpcAddress.text),
  ("public_key", .string node.publicKey),
  ("home", .string node.home.text)]

def NodeRecord.toJson (r : NodeRecord) : Json.Value :=
  .object (r.node.members ++ [("launched_at", .string r.launchedAt.text)])

end BlockWatch
