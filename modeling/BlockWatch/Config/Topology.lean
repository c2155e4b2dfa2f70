import BlockWatch.Fault
import BlockWatch.Node

/-!
# Topology

How many nodes of each role and how many shards a cluster has. The validators come first.
-/

namespace BlockWatch

structure Topology where
  validators : UInt64 := 1
  observers : UInt64 := 2
  shards : UInt64 := 1
deriving DecidableEq, Repr

namespace Topology

/-- The number of nodes, unless it does not fit a word. -/
def nodeCount (t : Topology) : Except Fault Nat :=
  let count := t.validators.toNat + t.observers.toNat
  if count < UInt64.size then .ok count else .error .sum

/-- The role of the node at a place. -/
def roleOf (t : Topology) (ordinal : Nat) : Role :=
  if ordinal < t.validators.toNat then .validator else .observer

/-! ## Text -/

structure Partial where
  validators : Option UInt64 := none
  observers : Option UInt64 := none
  shards : Option UInt64 := none

open Json.Decoder in
/-- A size as a word. -/
def sizeWord : Json.Decoder UInt64 := refine size fun n => pure (UInt64.ofNat n)

open Json.Decoder in
def record : Record Partial Topology where
  name := "TopologyConfig"
  fields := [
    field "validators" (·.validators) (fun p x => { p with validators := some x }) sizeWord,
    field "observers" (·.observers) (fun p x => { p with observers := some x }) sizeWord,
    field "shards" (·.shards) (fun p x => { p with shards := some x }) sizeWord]
  blank := {}
  build p := do
    let validators ← required "validators" p.validators
    let observers ← required "observers" p.observers
    let shards ← required "shards" p.shards
    pure { validators, observers, shards }

def ofText (text : String) : Json.Result Topology := Json.Decoder.ofText record.decoder text

def toJson (t : Topology) : Json.Value := .object [
  ("validators", .ofWord t.validators),
  ("observers", .ofWord t.observers),
  ("shards", .ofWord t.shards)]

end Topology

end BlockWatch
