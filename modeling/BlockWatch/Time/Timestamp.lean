import BlockWatch.Text.Blank

/-!
# Points of civil time

A timestamp is a date and a time of day in UTC with nanoseconds; its second is sixty in a leap
second. Reading accepts the Internet date format with any offset from UTC, blanks before each
number and sign, and a blank in place of the `T`. Writing uses no fraction, or three, six or nine
digits of one.
-/

namespace BlockWatch

/-- A point of civil time in UTC. -/
structure Timestamp where
  year : Int
  month : Nat
  day : Nat
  hour : Nat
  minute : Nat
  second : Nat
  nanos : Nat
deriving DecidableEq, Repr

/-- Why a text is no timestamp. -/
inductive TimestampError
  | outOfRange
  | invalid
  | tooShort
  | tooLong
deriving DecidableEq, Repr

def TimestampError.message : TimestampError → String
  | outOfRange => "input is out of range"
  | invalid => "input contains invalid characters"
  | tooShort => "premature end of input"
  | tooLong => "trailing input"

namespace Timestamp

/-! ## Calendar -/

def isLeapYear (year : Int) : Bool :=
  year % 4 == 0 && (year % 100 != 0 || year % 400 == 0)

def daysInMonth (year : Int) (month : Nat) : Nat :=
  if month = 2 then (if isLeapYear year then 29 else 28)
  else if month = 4 ∨ month = 6 ∨ month = 9 ∨ month = 11 then 30
  else 31

/-- The day before a date. -/
def dayBefore (year : Int) (month day : Nat) : Int × Nat × Nat :=
  if 1 < day then (year, month, day - 1)
  else if 1 < month then (year, month - 1, daysInMonth year (month - 1))
  else (year - 1, 12, 31)

/-- The day after a date. -/
def dayAfter (year : Int) (month day : Nat) : Int × Nat × Nat :=
  if day < daysInMonth year month then (year, month, day + 1)
  else if month < 12 then (year, month + 1, 1)
  else (year + 1, 1, 1)

/-- The years a date may lie in. -/
def yearInRange (year : Int) : Bool := -262143 ≤ year && year ≤ 262142

/-! ## Reading -/

abbrev Scan (α : Type) : Type := Except TimestampError α

private def skipBlanks (s : List Char) : List Char := s.dropWhile Text.isBlank

/-- A number of one digit up to `most`. -/
def number (most : Option Nat) (s : List Char) : Scan (Nat × List Char) :=
  let run := s.takeWhile Char.isDigit
  let digits := match most with
    | some n => run.take n
    | none => run
  match s with
  | [] => .error .tooShort
  | _ =>
    if digits.isEmpty then .error .invalid
    else
      let value := digits.foldl (fun n c => n * 10 + (c.toNat - '0'.toNat)) 0
      if UInt64.size / 2 ≤ value then .error .outOfRange else .ok (value, s.drop digits.length)

/-- A number of at most two digits that lies between two bounds, after blanks. -/
def bounded (low high : Nat) (s : List Char) : Scan (Nat × List Char) := do
  let (n, rest) ← number (some 2) (skipBlanks s)
  if low ≤ n ∧ n ≤ high then pure (n, rest) else throw .outOfRange

/-- A year of up to four digits, or of any length behind a sign. -/
def signedYear (s : List Char) : Scan (Int × List Char) := do
  let checked (n : Int) (rest : List Char) : Scan (Int × List Char) :=
    if -2147483648 ≤ n ∧ n < 2147483648 then pure (n, rest) else throw .outOfRange
  match skipBlanks s with
  | '-' :: s => let (n, rest) ← number none s; checked (-n) rest
  | '+' :: s => let (n, rest) ← number none s; checked n rest
  | s => let (n, rest) ← number (some 4) s; checked n rest

/-- A given character, after blanks. -/
def mark (c : Char) (s : List Char) : Scan (List Char) :=
  match skipBlanks s with
  | [] => .error .tooShort
  | d :: rest => if c = d then .ok rest else .error .invalid

/-- A fraction of a second, if there is one; digits past the ninth are dropped. -/
def fraction : List Char → Scan (Nat × List Char)
  | '.' :: s => do
    let (n, rest) ← number (some 9) s
    let width := s.length - rest.length
    pure (n * Nat.pow 10 (9 - width), rest.dropWhile Char.isDigit)
  | s => pure (0, s)

/-- Two digits of an offset. -/
def twoDigits : List Char → Scan ((Nat × Nat) × List Char)
  | a :: b :: rest =>
    if a.isDigit && b.isDigit then .ok ((a.toNat - '0'.toNat, b.toNat - '0'.toNat), rest)
    else .error .invalid
  | _ => .error .tooShort

/-- The offset from UTC in seconds. -/
def offset (s : List Char) : Scan (Int × List Char) := do
  match s with
  | 'Z' :: rest | 'z' :: rest => pure (0, rest)
  | [] => throw .tooShort
  | c :: rest =>
    let negative ← match c with
      | '+' => pure false
      | '-' | '−' => pure true
      | _ => throw .invalid
    let ((a, b), rest) ← twoDigits rest
    let rest := rest.dropWhile fun c => c == ':' || Text.isBlank c
    let ((d, e), rest) ← twoDigits rest
    if 6 ≤ d then throw .outOfRange
    let seconds : Nat := (a * 10 + b) * 3600 + (d * 10 + e) * 60
    pure (if negative then -(seconds : Int) else seconds, rest)

/-- The offset from UTC, which may also be named. -/
def zone (s : List Char) : Scan (Int × List Char) :=
  match s with
  | a :: b :: c :: rest =>
    if a.toUpper = 'U' ∧ b.toUpper = 'T' ∧ c.toUpper = 'C' then .ok (0, rest) else offset s
  | _ => offset s

/-- Moves a local time to UTC. -/
def toUtc (local_ : Timestamp) (offset : Int) : Timestamp :=
  let leap := local_.second - min local_.second 59
  let seconds : Int :=
    local_.hour * 3600 + local_.minute * 60 + min local_.second 59 - offset
  let (year, month, day) :=
    if seconds < 0 then dayBefore local_.year local_.month local_.day
    else if 86400 ≤ seconds then dayAfter local_.year local_.month local_.day
    else (local_.year, local_.month, local_.day)
  let inDay := (seconds % 86400).toNat
  ⟨year, month, day, inDay / 3600, inDay % 3600 / 60, inDay % 60 + leap, local_.nanos⟩

/-- Reads a timestamp. -/
def ofText (text : String) : Scan Timestamp := do
  let (year, s) ← signedYear text.toList
  let s ← mark '-' s
  let (month, s) ← bounded 1 12 s
  let s ← mark '-' s
  let (day, s) ← bounded 1 31 s
  let s ← match s with
    | [] => throw .tooShort
    | c :: rest => if c = 'T' ∨ c = 't' ∨ c = ' ' then pure rest else throw .invalid
  let (hour, s) ← bounded 0 23 s
  let s ← mark ':' s
  let (minute, s) ← bounded 0 59 s
  let s ← mark ':' s
  let (second, s) ← bounded 0 60 s
  let (nanos, s) ← fraction s
  let (offset, s) ← zone (skipBlanks s)
  if !(skipBlanks s).isEmpty then throw .tooLong
  if 86400 ≤ offset.natAbs then throw .outOfRange
  if !yearInRange year || daysInMonth year month < day then throw .outOfRange
  pure (toUtc ⟨year, month, day, hour, minute, second, nanos⟩ offset)

/-! ## Writing -/

private def padded (width n : Nat) : String :=
  let digits := toString n
  String.ofList (List.replicate (width - digits.length) '0') ++ digits

def yearText (year : Int) : String :=
  if 0 ≤ year ∧ year ≤ 9999 then padded 4 year.natAbs
  else (if year < 0 then "-" else "+") ++ padded 4 year.natAbs

def fractionText (nanos : Nat) : String :=
  if nanos = 0 then ""
  else if nanos % 1000000 = 0 then "." ++ padded 3 (nanos / 1000000)
  else if nanos % 1000 = 0 then "." ++ padded 6 (nanos / 1000)
  else "." ++ padded 9 nanos

/-- The text of a timestamp. -/
def text (t : Timestamp) : String :=
  yearText t.year ++ "-" ++ padded 2 t.month ++ "-" ++ padded 2 t.day ++ "T" ++
    padded 2 t.hour ++ ":" ++ padded 2 t.minute ++ ":" ++ padded 2 t.second ++
    fractionText t.nanos ++ "Z"

end Timestamp

end BlockWatch
