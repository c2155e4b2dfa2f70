/-!
# Faults

Checked arithmetic stops a run when a result does not fit its word. Such a fault is no error of
the run: nothing catches it, and whatever should follow the failing operation does not happen.
-/

namespace BlockWatch

/-- The checked operations that can stop a run. -/
inductive Fault
  /-- A sum of two words does not fit the word. -/
  | sum
  /-- A moment would move past the last one the clock can hold. -/
  | moment
  /-- A span would need more whole seconds than a 64-bit word counts. -/
  | span
deriving DecidableEq, Repr

def Fault.message : Fault → String
  | .sum => "attempt to add with overflow"
  | .moment => "overflow when adding duration to instant"
  | .span => "overflow in Duration::new"

/-- How an operation ends when it does not return: with an error of its own, or by a fault. -/
inductive Stop (ε : Type) where
  | error (cause : ε)
  | fault (fault : Fault)
deriving DecidableEq, Repr

/-- Wraps the error and keeps a fault. -/
def Stop.map {ε φ : Type} (wrap : ε → φ) : Stop ε → Stop φ
  | .error cause => .error (wrap cause)
  | .fault f => .fault f

end BlockWatch
