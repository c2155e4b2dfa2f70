import BlockWatch.Cluster.Layout
import BlockWatch.Config.Scenario

/-!
# Layout and cast of a scenario

`scenarioLayout` is the layout that a scenario runs on, and `Cast.ofHomes?` gives each home its part:
the first validator leads, and the last observer joins late.
-/

namespace BlockWatch

private def number (n : UInt64) : Json.Value := .ofWord n

/-- What every genesis file says: transactions are free, nothing is minted, epochs are short, and
few validators are kicked out. -/
def scenarioChainOverrides : List (String × Json.Value) := [
  ("min_gas_price", number 0),
  ("max_inflation_rate", .array [number 0, number 1]),
  ("epoch_length", number 20),
  ("block_producer_kickout_threshold", number 80)]

/-- The layout of a scenario. Every observer tracks the first shard. -/
def scenarioLayout (config : ScenarioConfig) : Except Fault Layout := do
  let topology := config.topology
  let _ ← topology.nodeCount
  let base : Layout := scenarioChainOverrides.foldl
    (fun layout change => layout.withChainOverride change.1 change.2) { topology }
  let observers := List.range' topology.validators.toNat topology.observers.toNat
  pure (observers.foldl
    (fun layout ordinal => layout.withNodeOverride ordinal "tracked_shards" (.array [number 0]))
    base)

/-- The homes by the part they play. -/
structure Cast where
  leader : NodeHome
  /-- The other validators. -/
  validators : List NodeHome
  /-- The observers that are there from the start. -/
  early : List NodeHome
  late : NodeHome

namespace Cast

def ofHomes? (homes : List NodeHome) : Option Cast :=
  match homes.filter (·.role = .validator) with
  | [] => none
  | leader :: validators =>
    let observers := homes.filter (·.role = .observer)
    match observers.getLast?, observers.dropLast with
    | some late, first :: rest => some { leader, validators, early := first :: rest, late }
    | _, _ => none

end Cast

end BlockWatch
