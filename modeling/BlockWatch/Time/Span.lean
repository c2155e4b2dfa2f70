/-!
# Spans and moments

A span is an exact number of nanoseconds whose whole seconds fit a 64-bit word, so a sum of spans
may not exist while a difference always does. A moment is a point of one monotonic clock, counted
from the clock's base; moments end where the clock's signed 64-bit seconds end.
-/

namespace BlockWatch

def nanosPerSecond : Nat := 1000000000

/-- The number of nanoseconds of the first span that is too long to exist. -/
def Span.limit : Nat := UInt64.size * 1000000000

/-- A length of time in nanoseconds. -/
structure Span where
  nanos : Nat
  bounded : nanos < Span.limit
deriving DecidableEq

namespace Span

@[ext]
theorem ext {a b : Span} (h : a.nanos = b.nanos) : a = b := by
  cases a; cases b; cases h; rfl

def zero : Span := ⟨0, by decide⟩

instance : Inhabited Span := ⟨zero⟩

instance : LE Span := ⟨fun a b => a.nanos ≤ b.nanos⟩

instance : LT Span := ⟨fun a b => a.nanos < b.nanos⟩

instance (a b : Span) : Decidable (a ≤ b) := inferInstanceAs (Decidable (a.nanos ≤ b.nanos))

instance (a b : Span) : Decidable (a < b) := inferInstanceAs (Decidable (a.nanos < b.nanos))

theorem le_def {a b : Span} : a ≤ b ↔ a.nanos ≤ b.nanos := Iff.rfl

theorem lt_def {a b : Span} : a < b ↔ a.nanos < b.nanos := Iff.rfl

/-- The span of that many nanoseconds, if one is that long. -/
def ofNanos? (nanos : Nat) : Option Span :=
  if h : nanos < limit then some ⟨nanos, h⟩ else none

def ofSeconds (seconds : UInt64) : Span :=
  ⟨seconds.toNat * 1000000000, by
    have := seconds.toNat_lt
    simp only [limit, UInt64.size]
    omega⟩

/-- The whole seconds of a span. -/
def seconds (d : Span) : Nat := d.nanos / nanosPerSecond

/-- What a span has beyond its whole seconds, in nanoseconds. -/
def subsecond (d : Span) : Nat := d.nanos % nanosPerSecond

theorem seconds_lt (d : Span) : d.seconds < UInt64.size := by
  have := d.bounded
  simp only [seconds, nanosPerSecond, limit, UInt64.size] at *
  omega

theorem seconds_subsecond (d : Span) : d.seconds * nanosPerSecond + d.subsecond = d.nanos := by
  simp only [seconds, subsecond, nanosPerSecond]
  omega

def isZero (d : Span) : Bool := d.nanos == 0

def add? (a b : Span) : Option Span := ofNanos? (a.nanos + b.nanos)

def sub? (a b : Span) : Option Span :=
  if b.nanos ≤ a.nanos then some ⟨a.nanos - b.nanos, by have := a.bounded; omega⟩ else none

theorem ofNanos?_eq_some {n : Nat} {d : Span} : ofNanos? n = some d ↔ d.nanos = n := by
  unfold ofNanos?
  constructor
  · intro h
    split at h
    · cases h; rfl
    · cases h
  · rintro rfl
    rw [dif_pos d.bounded]

theorem sub?_eq_some {a b d : Span} : sub? a b = some d ↔ d.nanos + b.nanos = a.nanos := by
  unfold sub?
  constructor
  · intro h
    split at h
    · cases h; simp only; omega
    · cases h
  · intro h
    rw [if_pos (by omega)]
    congr 1
    ext
    simp only
    omega

end Span

/-- The first number of nanoseconds past what a clock can hold. -/
def Moment.limit : Nat := UInt64.size / 2 * 1000000000

/-- A point of a monotonic clock, in nanoseconds from the clock's base. -/
structure Moment where
  nanos : Nat
  bounded : nanos < Moment.limit
deriving DecidableEq

namespace Moment

@[ext]
theorem ext {a b : Moment} (h : a.nanos = b.nanos) : a = b := by
  cases a; cases b; cases h; rfl

/-- The base of the clock. -/
def base : Moment := ⟨0, by decide⟩

instance : Inhabited Moment := ⟨base⟩

/-- The moment that lies `d` later, if the clock reaches it. -/
def later? (m : Moment) (d : Span) : Option Moment :=
  if h : m.nanos + d.nanos < limit then some ⟨m.nanos + d.nanos, h⟩ else none

/-- How long `m` lies after `start`; nothing if it does not. -/
def since (m start : Moment) : Span :=
  ⟨m.nanos - start.nanos, by
    have := m.bounded
    simp only [limit, Span.limit, UInt64.size] at *
    omega⟩

@[simp]
theorem nanos_since (m start : Moment) : (m.since start).nanos = m.nanos - start.nanos := rfl

theorem later?_eq_some {m n : Moment} {d : Span} :
    m.later? d = some n ↔ n.nanos = m.nanos + d.nanos := by
  unfold later?
  constructor
  · intro h
    split at h
    · cases h; rfl
    · cases h
  · intro h
    have := n.bounded
    rw [dif_pos (by omega)]
    congr 1
    ext
    exact h.symm

end Moment

end BlockWatch
