import BlockWatch.Number.Binary64
import BlockWatch.Time.Span

/-!
# The sliding window

A window keeps the recent heights of a node: every sample that is less than the window's width
older than the newest, and in any case the two newest. The rate of progress is taken between the
oldest and the newest sample that are kept.
-/

namespace BlockWatch

/-- A height, and when it was observed. -/
structure Sample where
  time : Moment
  height : UInt64
deriving DecidableEq

/-- The samples kept, oldest first. -/
structure Window where
  width : Span
  samples : List Sample := []
deriving DecidableEq

namespace Window

/-- A window is never trimmed below this many samples. -/
def minRetained : Nat := 2

/-- Drops samples from the front that are too old, as long as more than two are left. -/
def expire (width : Span) (now : Moment) : List Sample → List Sample
  | [] => []
  | s :: rest =>
    if minRetained ≤ rest.length ∧ width ≤ now.since s.time then expire width now rest
    else s :: rest

/-- Adds a sample and drops what is too old beside it. -/
def record (w : Window) (s : Sample) : Window :=
  { w with samples := expire w.width s.time (w.samples ++ [s]) }

def hasRate (w : Window) : Bool := decide (minRetained ≤ w.samples.length)

def latest (w : Window) : Option Sample := w.samples.getLast?

end Window

/-- A span in seconds: the whole seconds plus the rest. -/
def Span.toSeconds (d : Span) : Binary64 :=
  (Binary64.ofNat d.seconds).add
    ((Binary64.ofNat d.subsecond).div (Binary64.ofNat nanosPerSecond))

/-- The rate from one sample to another in blocks per second, zero at the same moment. Both
heights are rounded before they are subtracted. -/
def Sample.rateTo (oldest newest : Sample) : Binary64 :=
  let elapsed := newest.time.since oldest.time
  if elapsed.isZero then .zero
  else
    ((Binary64.ofNat newest.height.toNat).sub (Binary64.ofNat oldest.height.toNat)).div
      elapsed.toSeconds

/-- The rate over the window, zero with fewer than two samples. -/
def Window.rate (w : Window) : Binary64 :=
  if w.samples.length ≤ 1 then .zero
  else match w.samples.head?, w.samples.getLast? with
    | some oldest, some newest => oldest.rateTo newest
    | _, _ => .zero

end BlockWatch
