import BlockWatch.Number.Decimal
import BlockWatch.Progress.Site
import BlockWatch.Progress.Window
import BlockWatch.Time.Brief

/-!
# Waiting for a height

A wait polls one node until it has the target height. Each tick checks the deadline, polls, judges
the rate over the window if a floor is set, and compares the height; then the wait sleeps. Failed
polls leave no sample, and a report below the last known height counts as that height. The counter
of polls is a 32-bit word, so a wait has at most `maxPolls` ticks.
-/

namespace BlockWatch

/-- What to wait for. -/
structure WaitTarget where
  height : UInt64
  pollInterval : Span
  /-- The least rate in blocks per second, or none. -/
  rateFloor : Option Binary64 := none
deriving DecidableEq

/-- What a wait found that reached its target. -/
structure WaitOutcome where
  node : String
  height : UInt64
  polls : Nat
  failedPolls : Nat
  /-- The rate over the window at the last tick. -/
  rate : Binary64
  elapsed : Span
deriving DecidableEq

inductive WaitError
  | deadlineExceeded (node : String) (target latest : UInt64) (elapsed deadline : Span)
  | throughputBelowFloor (node : String) (target latest : UInt64) (rate floor : Binary64)
deriving DecidableEq

namespace WaitError

def node : WaitError → String
  | deadlineExceeded node .. => node
  | throughputBelowFloor node .. => node

def target : WaitError → UInt64
  | deadlineExceeded _ target .. => target
  | throughputBelowFloor _ target .. => target

def latest : WaitError → UInt64
  | deadlineExceeded _ _ latest .. => latest
  | throughputBelowFloor _ _ latest .. => latest

def isThroughputViolation : WaitError → Bool
  | deadlineExceeded .. => false
  | throughputBelowFloor .. => true

def message : WaitError → String
  | deadlineExceeded node target latest elapsed deadline =>
    "Deadline of " ++ deadline.brief ++ " exceeded after " ++ elapsed.brief ++ " waiting for " ++
      node ++ " to reach height " ++ toString target ++ " (latest height " ++ toString latest ++
      ")"
  | throughputBelowFloor node target latest rate floor =>
    "Throughput of " ++ node ++ " fell to " ++ rate.fixed 6 ++ " blocks/s, below floor " ++
      Binary64.scientific.write floor ++ " blocks/s, while waiting for height " ++
      toString target ++ " (latest height " ++ toString latest ++ ")"

def code : WaitError → String
  | deadlineExceeded .. => "DEADLINE_EXCEEDED"
  | throughputBelowFloor .. => "THROUGHPUT_BELOW_FLOOR"

end WaitError

/-- What a wait knows: the greatest height so far, the window, and how many polls were made and
how many of them failed. -/
structure Progress where
  latest : UInt64 := 0
  window : Window
  polls : Nat := 0
  failedPolls : Nat := 0
deriving DecidableEq

namespace Progress

/-- Takes in the answer to a poll. -/
def observe (p : Progress) (now : Moment) : Report → Progress
  | .ok reported =>
    let latest := if reported < p.latest then p.latest else reported
    { p with latest, window := p.window.record ⟨now, latest⟩, polls := p.polls + 1 }
  | .error _ => { p with polls := p.polls + 1, failedPolls := p.failedPolls + 1 }

/-- Whether the rate is known and below the floor. -/
def isBelow (p : Progress) (floor : Binary64) : Bool := p.window.hasRate && p.window.rate.lt floor

/-- How a wait that began at `started` ends after a poll, if it does. -/
def verdict? (p : Progress) (name : String) (target : WaitTarget) (started now : Moment) :
    Option (Except WaitError WaitOutcome) :=
  let reached : Option (Except WaitError WaitOutcome) :=
    if target.height ≤ p.latest then
      some (.ok {
        node := name
        height := p.latest
        polls := p.polls
        failedPolls := p.failedPolls
        rate := p.window.rate
        elapsed := now.since started })
    else none
  match target.rateFloor with
  | some floor =>
    if p.isBelow floor then
      some (.error (.throughputBelowFloor name target.height p.latest p.window.rate floor))
    else reached
  | none => reached

end Progress

/-- A wait for one node. -/
structure Wait (τ κ : Type) where
  poller : Poller τ
  /-- How a poll is recorded. -/
  entry : Node → κ
  deadline : Deadline
  width : Span
  node : Node
  target : WaitTarget
  started : Moment

namespace Wait

variable {τ κ : Type}

abbrev Outcome : Type := Except (Stop WaitError) WaitOutcome

/-- The most polls that the counter can count. -/
def maxPolls : Nat := UInt32.size - 1

/-- The ticks of a wait, as long as the counter has room. -/
def ticks (wait : Wait τ κ) : Nat → Progress → Stage τ κ → Outcome × Stage τ κ
  | room, p, stage =>
    if wait.deadline.expired stage.clock.now then
      (.error (.error (.deadlineExceeded wait.node.name wait.target.height p.latest
        (wait.deadline.elapsed stage.clock.now) wait.deadline.limit)), stage)
    else match room with
      | 0 => (.error (.fault .sum), stage)
      | room + 1 =>
        match stage.call (wait.entry wait.node) (wait.poller wait.node stage.field) with
        | (.error f, stage) => (.error (.fault f), stage)
        | (.ok report, stage) =>
          let p := p.observe stage.clock.now report
          match p.verdict? wait.node.name wait.target wait.started stage.clock.now with
          | some verdict => (verdict.mapError .error, stage)
          | none =>
            match stage.clock.sleep wait.target.pollInterval with
            | .error f => (.error (.fault f), stage)
            | .ok clock => ticks wait room p { stage with clock }

/-- Waits from now on. -/
def run (wait : Wait τ κ) (stage : Stage τ κ) : Outcome × Stage τ κ :=
  wait.ticks maxPolls { window := { width := wait.width } } stage

end Wait

/-- Waits for a node to reach a target, under a deadline and with a window of the given width. -/
def waitForHeight {τ κ : Type} (poller : Poller τ) (entry : Node → κ) (deadline : Deadline)
    (width : Span) (node : Node) (target : WaitTarget) (stage : Stage τ κ) :
    Wait.Outcome × Stage τ κ :=
  let wait : Wait τ κ :=
    { poller, entry, deadline, width, node, target, started := stage.clock.now }
  wait.run stage

end BlockWatch
