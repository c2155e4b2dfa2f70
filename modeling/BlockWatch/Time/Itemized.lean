import BlockWatch.Time.Span
import BlockWatch.Text.Blank
import BlockWatch.Text.Quoted
import BlockWatch.Fault

/-!
# Spans as sums of units

Configuration files write a span as a sum of units, such as `1h 30m` or `2.5s`. `Span.itemized`
writes the exact sum from years down to nanoseconds, and `Span.read` reads any such sum from left
to right, refusing what 64-bit words cannot hold and fractions that do not come out even.
-/

namespace BlockWatch

/-- The units a span is counted in. -/
inductive SpanUnit
  | nano
  | micro
  | milli
  | second
  | minute
  | hour
  | day
  | week
  | month
  | year
deriving DecidableEq, Repr

namespace SpanUnit

/-- The names of the units, in reading. -/
def names : List (SpanUnit × List String) := [
  (nano, ["nanos", "nsec", "ns"]),
  (micro, ["usec", "us", "µs"]),
  (milli, ["millis", "msec", "ms"]),
  (second, ["seconds", "second", "secs", "sec", "s"]),
  (minute, ["minutes", "minute", "min", "mins", "m"]),
  (hour, ["hours", "hour", "hr", "hrs", "h"]),
  (day, ["days", "day", "d"]),
  (week, ["weeks", "week", "wk", "wks", "w"]),
  (month, ["months", "month", "M"]),
  (year, ["years", "year", "yr", "yrs", "y"])]

def ofName? (name : String) : Option SpanUnit :=
  (names.find? fun entry => entry.2.contains name).map (·.1)

/-- The length of a unit in nanoseconds. A month is a twelfth of a year of 365.25 days. -/
def nanos : SpanUnit → Nat
  | nano => 1
  | micro => 1000
  | milli => 1000000
  | second => nanosPerSecond
  | minute => 60 * nanosPerSecond
  | hour => 3600 * nanosPerSecond
  | day => 86400 * nanosPerSecond
  | week => 604800 * nanosPerSecond
  | month => 2630016 * nanosPerSecond
  | year => 31557600 * nanosPerSecond

/-- Whether whole amounts of the unit are whole seconds. -/
def countsSeconds : SpanUnit → Bool
  | nano | micro | milli => false
  | _ => true

/-- Whether fractions of the unit have to be whole seconds. -/
def fractionCountsSeconds : SpanUnit → Bool
  | nano | micro | milli | second | minute => false
  | _ => true

end SpanUnit

/-! ## Writing -/

namespace Span

private def counted (amount : Nat) (unit : String) : List String :=
  if amount = 0 then [] else [toString amount ++ unit]

private def countedWord (amount : Nat) (unit : String) : List String :=
  counted amount (if 1 < amount then unit ++ "s" else unit)

/-- The units of a span from the largest down, those that are not zero. -/
def items (d : Span) : List String :=
  let inYear := d.seconds % 31557600
  let inMonth := inYear % 2630016
  let inDay := inMonth % 86400
  countedWord (d.seconds / 31557600) "year" ++
  countedWord (inYear / 2630016) "month" ++
  countedWord (inMonth / 86400) "day" ++
  counted (inDay / 3600) "h" ++
  counted (inDay % 3600 / 60) "m" ++
  counted (inDay % 60) "s" ++
  counted (d.subsecond / 1000000) "ms" ++
  counted (d.subsecond / 1000 % 1000) "us" ++
  counted (d.subsecond % 1000) "ns"

/-- The sum of units as text. -/
def itemized (d : Span) : String :=
  if d.isZero then "0s" else " ".intercalate d.items

end Span

/-! ## Reading -/

/-- Why a text is no sum of units. Offsets count bytes. -/
inductive SpanTextError
  | empty
  | numberExpected (offset : Nat)
  | invalidCharacter (offset : Nat)
  | unknownUnit (unit : String) (amount : Nat)
  | tooLarge
deriving DecidableEq, Repr

def SpanTextError.message : SpanTextError → String
  | empty => "value was empty"
  | numberExpected offset => "expected number at " ++ toString offset
  | invalidCharacter offset => "invalid character at " ++ toString offset
  | unknownUnit unit amount =>
    if unit.isEmpty then
      "time unit needed, for example " ++ toString amount ++ "sec or " ++ toString amount ++ "ms"
    else
      "unknown time unit " ++ Text.quote unit ++ ", supported units: ns, us/µs, ms, sec, min, " ++
        "hours, days, weeks, months, years (and few variations)"
  | tooLarge =>
    "number is too large or cannot be represented without a lack of precision " ++
      "(values below 1ns are not supported)"

namespace Span

/-- A number being read: its whole part and, after a point, a fraction over a power of ten. -/
structure Amount where
  whole : Nat
  fraction : Option (Nat × Nat) := none
deriving DecidableEq

/-- Where a reading stands. -/
inductive Expecting
  /-- A number, or the end unless nothing was read yet; white space is skipped since `start`. -/
  | number (start : Nat) (first : Bool)
  /-- More of a whole part. -/
  | whole (amount : Nat)
  /-- More of a fraction; what was read of it ends at `stand`. -/
  | fraction (whole numerator denominator stand : Nat)
  /-- More letters of a unit. -/
  | unit (amount : Amount) (letters : List Char)
deriving DecidableEq

/-- The sum so far, and what may follow. -/
structure Reading where
  total : Span
  expecting : Expecting

abbrev ReadResult (α : Type) : Type := Except (Stop SpanTextError) α

private def fail {α : Type} (cause : SpanTextError) : ReadResult α := .error (.error cause)

/-- A number that has to fit a 64-bit word. -/
def word (n : Nat) : ReadResult Nat := if n < UInt64.size then pure n else fail .tooLarge

/-- Adds seconds and nanoseconds. A carry of exactly one second that has no room is a fault. -/
def addParts (total : Span) (seconds nanos : Nat) : ReadResult Span := do
  let subsecond ← word (total.subsecond + nanos)
  let whole ← word (total.seconds + seconds)
  match ofNanos? (whole * nanosPerSecond + subsecond) with
  | some sum => pure sum
  | none =>
    if subsecond = nanosPerSecond then .error (.fault .span) else fail .tooLarge

/-- Adds a whole amount of a unit. -/
def addWhole (total : Span) (unit : SpanUnit) (amount : Nat) : ReadResult Span := do
  if unit.countsSeconds then
    addParts total (← word (amount * (unit.nanos / nanosPerSecond))) 0
  else addParts total 0 (← word (amount * unit.nanos))

/-- Adds a fraction of a unit, which has to come out even. -/
def addFraction (total : Span) (unit : SpanUnit) (numerator denominator : Nat) :
    ReadResult Span := do
  if unit = .nano then fail .tooLarge
  else
    let size := if unit.fractionCountsSeconds then unit.nanos / nanosPerSecond else unit.nanos
    let scaled ← word (numerator * size)
    if scaled % denominator ≠ 0 then fail .tooLarge
    else if unit.fractionCountsSeconds then addParts total (scaled / denominator) 0
    else addParts total 0 (scaled / denominator)

/-- Adds an amount of the unit of that name. -/
def addAmount (total : Span) (amount : Amount) (letters : List Char) : ReadResult Span := do
  let name := String.ofList letters
  match SpanUnit.ofName? name with
  | none => fail (.unknownUnit name amount.whole)
  | some unit =>
    let sum ← addWhole total unit amount.whole
    match amount.fraction with
    | none => pure sum
    | some (numerator, denominator) => addFraction sum unit numerator denominator

private def isUnitLetter (c : Char) : Bool := c.isAlpha || c == 'µ'

private def digitValue (c : Char) : Nat := c.toNat - '0'.toNat

/-- Reads one character, which starts at the byte `offset`. -/
def step (reading : Reading) (offset : Nat) (c : Char) : ReadResult Reading := do
  let total := reading.total
  match reading.expecting with
  | .number start _ =>
    if c.isDigit then pure ⟨total, .whole (digitValue c)⟩
    else if Text.isBlank c then pure reading
    else fail (.numberExpected start)
  | .whole amount =>
    if c.isDigit then pure ⟨total, .whole (← word (amount * 10 + digitValue c))⟩
    else if Text.isBlank c then pure reading
    else if isUnitLetter c then pure ⟨total, .unit ⟨amount, none⟩ [c]⟩
    else if c = '.' then pure ⟨total, .fraction amount 0 1 offset⟩
    else fail (.invalidCharacter offset)
  | .fraction whole numerator denominator stand =>
    if c.isDigit then
      let numerator ← word (numerator * 10 + digitValue c)
      let denominator ← word (denominator * 10)
      pure ⟨total, .fraction whole numerator denominator (offset + 1)⟩
    else if Text.isBlank c then
      pure ⟨total, .fraction whole numerator denominator (offset + c.utf8Size)⟩
    else if isUnitLetter c && denominator ≠ 1 then
      pure ⟨total, .unit ⟨whole, some (numerator, denominator)⟩ [c]⟩
    else fail (.invalidCharacter stand)
  | .unit amount letters =>
    if c.isDigit then
      pure ⟨← addAmount total amount letters, .whole (digitValue c)⟩
    else if Text.isBlank c then
      pure ⟨← addAmount total amount letters, .number (offset + c.utf8Size) false⟩
    else if isUnitLetter c then pure ⟨total, .unit amount (letters ++ [c])⟩
    else fail (.invalidCharacter offset)

/-- Reads characters that start at the byte `offset`. -/
def steps (reading : Reading) (offset : Nat) : List Char → ReadResult Reading
  | [] => pure reading
  | c :: rest => do steps (← step reading offset c) (offset + c.utf8Size) rest

/-- The sum at the end of the text. -/
def finish (reading : Reading) : ReadResult Span :=
  match reading.expecting with
  | .number _ first => if first then fail .empty else pure reading.total
  | .whole amount => addAmount reading.total ⟨amount, none⟩ []
  | .fraction whole numerator denominator stand =>
    if denominator = 1 then fail (.invalidCharacter stand)
    else addAmount reading.total ⟨whole, some (numerator, denominator)⟩ []
  | .unit amount letters => addAmount reading.total amount letters

/-- Reads a sum of units; a lone zero needs no unit. -/
def read (text : String) : ReadResult Span :=
  if text = "0" then pure zero
  else do finish (← steps ⟨zero, .number 0 true⟩ 0 text.toList)

end Span

end BlockWatch
