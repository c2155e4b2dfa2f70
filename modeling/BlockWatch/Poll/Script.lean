import BlockWatch.Config.Harness
import BlockWatch.Poll.Error

/-!
# Scripted polls

A script fixes what the polls of one node answer. When it is used up, the last height it reported
is repeated, as if the node had stopped; without any height the node cannot be reached.
-/

namespace BlockWatch

/-- The answers to come, the last height reported, and how many polls there were. -/
structure Script where
  pending : List Report := []
  lastHeight : Option UInt64 := none
  polls : Nat := 0

namespace Script

/-- The answer to the next poll of a node. -/
def poll (script : Script) (node : String) : Report × Script :=
  let polls := script.polls + 1
  match script.pending with
  | .ok height :: pending => (.ok height, ⟨pending, some height, polls⟩)
  | .error cause :: pending => (.error cause, ⟨pending, script.lastHeight, polls⟩)
  | [] =>
    let answer : Report := match script.lastHeight with
      | some height => .ok height
      | none => .error (.transport node "connection refused")
    (answer, { script with polls })

end Script

/-- One script for each ordinal that has one or was polled. -/
structure Scripts where
  entries : List (Nat × Script) := []

namespace Scripts

def find (scripts : Scripts) (ordinal : Nat) : Script :=
  ((scripts.entries.find? (·.1 == ordinal)).map (·.2)).getD {}

/-- Replaces the script of an ordinal. -/
def put (scripts : Scripts) (ordinal : Nat) (script : Script) : Scripts :=
  ⟨(ordinal, script) :: scripts.entries.filter (·.1 != ordinal)⟩

/-- Gives an ordinal new answers, from the start. -/
def withScript (scripts : Scripts) (ordinal : Nat) (answers : List Report) : Scripts :=
  scripts.put ordinal { pending := answers }

def pollCount (scripts : Scripts) (ordinal : Nat) : Nat := (scripts.find ordinal).polls

/-- Polls a node. -/
def poll (scripts : Scripts) (node : Node) : Report × Scripts :=
  let (answer, script) := (scripts.find node.ordinal).poll node.name
  (answer, scripts.put node.ordinal script)

end Scripts

/-- A node to poll by script. Its ports follow from the last 16 bits of its ordinal. -/
def Node.scripted (ordinal : Nat) (role : Role) : Except Fault Node := do
  let offset := UInt16.ofNat ordinal
  let port ← orSumFault (checkedSum 24567 offset)
  let rpcPort ← orSumFault (checkedSum 3030 offset)
  pure {
    ordinal, role
    address := .ofHost (.v4 .loopback) port
    rpcAddress := .ofHost (.v4 .loopback) rpcPort
    publicKey := "ed25519:test" ++ toString ordinal
    home := ⟨"/tmp/syncwatch/test" ++ toString ordinal⟩ }
where
  orSumFault : Option UInt16 → Except Fault UInt16
    | some sum => .ok sum
    | none => .error .sum

end BlockWatch
