import BlockWatch.Time.Span
import BlockWatch.Fault

/-!
# The clock and its deadline

A clock stands still until it is told to move. Sleeping moves it and is recorded; advancing moves
it only. A deadline fixes a starting moment and a limit on the time since then, and has expired
once that much time has passed.
-/

namespace BlockWatch

/-- A clock that moves only when told to, with the sleeps asked of it in order. -/
structure Clock where
  now : Moment := .base
  sleeps : List Span := []
deriving DecidableEq

namespace Clock

/-- Moves the clock. A move past the last moment is a fault and leaves the clock alone. -/
def advance (clock : Clock) (d : Span) : Except Fault Clock :=
  match clock.now.later? d with
  | some now => .ok { clock with now }
  | none => .error .moment

/-- Moves the clock and records the sleep; a sleep past the last moment is not recorded. -/
def sleep (clock : Clock) (d : Span) : Except Fault Clock :=
  match clock.now.later? d with
  | some now => .ok { now, sleeps := clock.sleeps ++ [d] }
  | none => .error .moment

end Clock

/-- A limit on the time since a starting moment. -/
structure Deadline where
  startedAt : Moment
  limit : Span
deriving DecidableEq

namespace Deadline

/-- Starts counting at the clock's present moment. -/
def start (clock : Clock) (limit : Span) : Deadline := ⟨clock.now, limit⟩

def elapsed (deadline : Deadline) (now : Moment) : Span := now.since deadline.startedAt

/-- The time left, or nothing once the deadline is reached. -/
def remaining (deadline : Deadline) (now : Moment) : Option Span :=
  (deadline.limit.sub? (deadline.elapsed now)).filter fun left => !left.isZero

def expired (deadline : Deadline) (now : Moment) : Bool :=
  decide (deadline.limit ≤ deadline.elapsed now)

end Deadline

end BlockWatch
