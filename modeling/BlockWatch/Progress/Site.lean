import BlockWatch.Poll.Error
import BlockWatch.Time.Clock

/-!
# What a run talks to

A run acts on a stage: the clock, the calls made so far, and the state of whatever answers the calls.
What answers is given by functions on that state. An answer also says how long it took, and the
clock moves by that span before the answer is used.
-/

namespace BlockWatch

/-- An answer to a call: how long it took, what it is, and the state it leaves. -/
structure Answer (τ α : Type) where
  took : Span := .zero
  outcome : α
  next : τ

/-- Answers polls. -/
abbrev Poller (τ : Type) : Type := Node → τ → Answer τ Report

/-- The clock, the calls so far in order, and the state behind the calls. -/
structure Stage (τ κ : Type) where
  clock : Clock := {}
  calls : List κ := []
  field : τ

namespace Stage

variable {τ κ α : Type}

/-- Makes a call: it is recorded, the answer takes its time, and the state is replaced. -/
def call (stage : Stage τ κ) (entry : κ) (answer : Answer τ α) :
    Except Fault α × Stage τ κ :=
  let stage := { stage with calls := stage.calls ++ [entry], field := answer.next }
  match stage.clock.advance answer.took with
  | .ok clock => (.ok answer.outcome, { stage with clock })
  | .error f => (.error f, stage)

end Stage

end BlockWatch
