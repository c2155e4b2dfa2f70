import BlockWatch.Config.Error
import BlockWatch.Config.Topology
import BlockWatch.Time.Itemized

/-!
# Scenario configuration

The constants of one run: the topology, the heights to wait for, the spans of polling and of the
whole run, the rate that must not be undercut, and how many accounts a generated dataset has.
-/

namespace BlockWatch

def defaultWindow : Span := .ofSeconds 7

def defaultPollInterval : Span := .ofSeconds 2

def defaultStatusTimeout : Span := .ofSeconds 2

structure ScenarioConfig where
  topology : Topology := {}
  /-- The height after which the late node joins, and which it has to reach. -/
  smallHeight : UInt64 := 40
  /-- The height the leader reaches while the late node catches up. -/
  largeHeight : UInt64 := 100
  pollInterval : Span := defaultPollInterval
  window : Span := defaultWindow
  statusTimeout : Span := defaultStatusTimeout
  /-- The time for everything from the first launch on. -/
  deadline : Span := .ofSeconds 3600
  /-- The least rate in blocks per second. -/
  rateFloor : Binary64 := .ofRatio false 1 1000000000000
  generatedAccounts : UInt64 := 200000
deriving DecidableEq

namespace ScenarioConfig

/-- The first flaw of a configuration, in the order of the checks. -/
def flaw? (c : ScenarioConfig) : Option ConfigFlaw :=
  if c.topology.validators = 0 then some .noValidator
  else if c.topology.observers < 2 then
    some (.tooFewObservers c.topology.observers.toNat)
  else if c.topology.shards = 0 then some .noShard
  else if c.largeHeight < c.smallHeight then
    some (.heightsReversed c.smallHeight.toNat c.largeHeight.toNat)
  else if c.window.isZero || c.pollInterval.isZero || c.statusTimeout.isZero then
    some .zeroSpan
  else if !c.rateFloor.isFinite || c.rateFloor.le .zero then some (.rateFloor c.rateFloor)
  else none

/-- Accepts a configuration that a run can use. -/
def validate (c : ScenarioConfig) : Except ConfigError Unit :=
  match c.flaw? with
  | some flaw => .error (.ofFlaw flaw)
  | none => .ok ()

/-! ## Text -/

structure Partial where
  topology : Option Topology := none
  smallHeight : Option UInt64 := none
  largeHeight : Option UInt64 := none
  pollInterval : Option Span := none
  window : Option Span := none
  statusTimeout : Option Span := none
  deadline : Option Span := none
  rateFloor : Option Binary64 := none
  generatedAccounts : Option UInt64 := none

end ScenarioConfig

namespace Json.Decoder

def word : Decoder UInt64 := refine (natural UInt64.size "u64") fun n => pure (UInt64.ofNat n)

/-- A span as a sum of units. -/
def span : Decoder Span :=
  refine (string "a string") fun s =>
    match Span.read s with
    | .ok d => pure d
    | .error (.error cause) => mismatch (.unreadable cause.message)
    | .error (.fault f) => .error (.fault f)

end Json.Decoder

namespace ScenarioConfig

open Json.Decoder in
def record : Record Partial ScenarioConfig where
  name := "ScenarioConfig"
  fields := [
    field "topology" (·.topology) (fun p x => { p with topology := some x })
      Topology.record.decoder,
    field "small_height" (·.smallHeight) (fun p x => { p with smallHeight := some x }) word,
    field "large_height" (·.largeHeight) (fun p x => { p with largeHeight := some x }) word,
    field "poll_interval" (·.pollInterval) (fun p x => { p with pollInterval := some x }) span,
    field "window" (·.window) (fun p x => { p with window := some x }) span,
    field "status_timeout" (·.statusTimeout) (fun p x => { p with statusTimeout := some x }) span,
    field "deadline" (·.deadline) (fun p x => { p with deadline := some x }) span,
    field "rate_floor" (·.rateFloor) (fun p x => { p with rateFloor := some x }) float,
    field "generated_accounts" (·.generatedAccounts)
      (fun p x => { p with generatedAccounts := some x }) word]
  blank := {}
  build p := do
    let topology ← required "topology" p.topology
    let smallHeight ← required "small_height" p.smallHeight
    let largeHeight ← required "large_height" p.largeHeight
    let pollInterval ← required "poll_interval" p.pollInterval
    let window ← required "window" p.window
    let statusTimeout ← required "status_timeout" p.statusTimeout
    let deadline ← required "deadline" p.deadline
    let rateFloor ← required "rate_floor" p.rateFloor
    let generatedAccounts ← required "generated_accounts" p.generatedAccounts
    pure { topology, smallHeight, largeHeight, pollInterval, window, statusTimeout, deadline,
           rateFloor, generatedAccounts }

def ofText (text : String) : Json.Result ScenarioConfig :=
  Json.Decoder.ofText record.decoder text

def toJson (c : ScenarioConfig) : Json.Value := .object [
  ("topology", c.topology.toJson),
  ("small_height", .ofWord c.smallHeight),
  ("large_height", .ofWord c.largeHeight),
  ("poll_interval", .string c.pollInterval.itemized),
  ("window", .string c.window.itemized),
  ("status_timeout", .string c.statusTimeout.itemized),
  ("deadline", .string c.deadline.itemized),
  ("rate_floor", .float c.rateFloor),
  ("generated_accounts", .ofWord c.generatedAccounts)]

end ScenarioConfig

end BlockWatch
