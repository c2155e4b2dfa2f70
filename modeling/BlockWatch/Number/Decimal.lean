import BlockWatch.Number.Binary64

/-!
# Decimal text of floating point numbers

`Decimal.shortest` finds the fewest digits that read back as a number and, of those, the digits
closest to it: it asks of each decimal grid in turn whether one of the number's two neighbours
there rounds to the number. `Notation` says how digits are laid out, and `Binary64.fixed` rounds
the exact value to a number of places instead.
-/

namespace BlockWatch

/-- What to do when two decimals are equally close. -/
inductive Tie
  | up
  | even
deriving DecidableEq

/-- The number `digits * 10 ^ exponent`. -/
structure Decimal where
  digits : Nat
  exponent : Int
deriving DecidableEq

namespace Decimal

/-- Moves trailing zeros of the digits into the exponent. -/
def trim (d : Decimal) : Nat → Decimal
  | 0 => d
  | fuel + 1 =>
    if d.digits ≠ 0 ∧ d.digits % 10 = 0 then trim ⟨d.digits / 10, d.exponent + 1⟩ fuel else d

/-- How many decimal digits a number has; zero has none. -/
def digitCount (n : Nat) : Nat := if n = 0 then 0 else (Nat.toDigits 10 n).length

/-- The exponent of ten of the leading digit of `units` units, which are not zero. -/
def leadingExponent (units : Nat) : Int :=
  let whole := units / Binary64.unitsPerOne
  if whole = 0 then -(digitCount ((Binary64.unitsPerOne - 1) / units) : Int)
  else digitCount whole - 1

/-- The ratio of `10 ^ exponent` to one, as numerator and denominator. -/
def scale (exponent : Int) : Nat × Nat := (Nat.pow 10 exponent.toNat, Nat.pow 10 (-exponent).toNat)

/-- Whether the decimal rounds to `units` units. -/
def readsAs (d : Decimal) (units : Nat) : Bool :=
  let (num, den) := scale d.exponent
  Binary64.nearest (d.digits * num * Binary64.unitsPerOne) den == units

/-- Of two neighbours on a grid the one that reads back or, if both do, the closer one: `rest` is
twice the way from the lower one to the number, in parts of `divisor` to a step. -/
def choose (tie : Tie) (low high : Decimal) (rest divisor : Nat) (lowReads highReads : Bool) :
    Option Decimal :=
  match lowReads, highReads with
  | true, true =>
    if rest < divisor then some low
    else if divisor < rest then some high
    else match tie with
      | .up => some high
      | .even => if low.digits % 2 = 0 then some low else some high
  | true, false => some low
  | false, true => some high
  | false, false => none

/-- The decimal of the grid `10 ^ exponent` that reads back as `units` and is closest to it. -/
def onGrid (tie : Tie) (units : Nat) (exponent : Int) : Option Decimal :=
  let dividend := units * (scale exponent).2
  let divisor := Binary64.unitsPerOne * (scale exponent).1
  let low : Decimal := ⟨dividend / divisor, exponent⟩
  let high : Decimal := ⟨dividend / divisor + 1, exponent⟩
  choose tie low high (2 * (dividend % divisor)) divisor (readsAs low units) (readsAs high units)

/-- The shortest decimal that reads back as `units` units, which are not zero. -/
def shortest (tie : Tie) (units : Nat) : Decimal :=
  let leading := leadingExponent units
  let found := (List.range 17).findSome? fun more : Nat => onGrid tie units (leading - more)
  (found.map fun d => d.trim 20).getD ⟨0, 0⟩

end Decimal

/-- How the shortest digits of a number are laid out. -/
structure FloatNotation where
  /-- The leading digit's exponents of ten that are written out without an exponent mark. -/
  positional : Int → Bool
  /-- Whether a whole number that is written out ends in `.0`. -/
  pointZero : Bool
  /-- Whether an exponent that is not negative has a sign. -/
  plusSign : Bool
  tie : Tie
  nanText : String
  infinityText : String

namespace FloatNotation

def zeros (n : Nat) : String := String.ofList (List.replicate n '0')

/-- Writes digits whose first one stands for `10 ^ leading`. -/
def layOut (style : FloatNotation) (digits : String) (leading : Int) : String :=
  let chars := digits.toList
  if style.positional leading then
    if leading < 0 then "0." ++ zeros ((-leading).toNat - 1) ++ digits
    else
      let width := leading.toNat + 1
      let whole := String.ofList (chars.take width) ++ zeros (width - chars.length)
      let rest := String.ofList (chars.drop width)
      if rest.isEmpty then (if style.pointZero then whole ++ ".0" else whole)
      else whole ++ "." ++ rest
  else
    let first := String.ofList (chars.take 1)
    let rest := String.ofList (chars.drop 1)
    let body := if rest.isEmpty then first else first ++ "." ++ rest
    let mark := if leading < 0 then "e-" else if style.plusSign then "e+" else "e"
    body ++ mark ++ toString leading.natAbs

/-- Writes a number. Zero is written as the one digit `0`. -/
def write (style : FloatNotation) : Binary64 → String
  | .nan .. => style.nanText
  | .infinite negative => if negative then "-" ++ style.infinityText else style.infinityText
  | .finite negative units _ =>
    let body :=
      if units = 0 then style.layOut "0" 0
      else
        let d := Decimal.shortest style.tie units
        let digits := toString d.digits
        style.layOut digits (d.exponent + digits.length - 1)
    if negative then "-" ++ body else body

end FloatNotation

namespace Binary64

/-- One digit before the point and always an exponent. -/
def scientific : FloatNotation :=
  ⟨fun _ => false, false, false, .up, "NaN", "inf"⟩

/-- Written out in full, however long. -/
def plain : FloatNotation :=
  ⟨fun _ => true, false, false, .up, "NaN", "inf"⟩

/-- The exact value rounded to that many places, a half to the even neighbour. -/
def fixed (places : Nat) : Binary64 → String
  | nan .. => "NaN"
  | infinite negative => if negative then "-inf" else "inf"
  | finite negative units _ =>
    let scaled := roundHalfEven (units * Nat.pow 10 places) unitsPerOne
    let digits := toString scaled
    let padded := String.ofList (List.replicate (places + 1 - digits.length) '0') ++ digits
    let whole := padded.length - places
    let body := String.ofList (padded.toList.take whole) ++ "." ++
      String.ofList (padded.toList.drop whole)
    if negative then "-" ++ body else body

end Binary64

end BlockWatch
