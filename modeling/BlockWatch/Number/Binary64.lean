/-!
# Binary floating point with 53 significant bits

Every finite number of the format is a whole multiple of its least positive number, so a
magnitude is a count of such units and arithmetic is exact integer arithmetic followed by one
rounding. `nearest` is that rounding: the multiple with at most 53 significant bits that lies
closest to a quotient, the one with an even last bit when two are equally close.
-/

namespace BlockWatch

/-- The whole number closest to `num / den`, the even one of two. -/
def roundHalfEven (num den : Nat) : Nat :=
  let quotient := num / den
  let twice := 2 * (num % den)
  if twice < den then quotient
  else if den < twice then quotient + 1
  else quotient + quotient % 2

namespace Binary64

/-- How many fractions the 52 bits of a fraction tell apart. -/
def fractions : Nat := 4503599627370496

/-- How many of the least positive number make one. -/
def unitsPerOne : Nat := Nat.pow 2 1074

/-- The first magnitude, in units, that is too large to be finite. -/
def overflow : Nat := Nat.pow 2 2098

/-- The distance between neighbouring numbers of the format around `units`. -/
def spacing (units : Nat) : Nat := Nat.pow 2 (units.log2 - 52)

/-- The magnitude of the format, in units, that is closest to `num / den` units. -/
def nearest (num den : Nat) : Nat :=
  let step := spacing (num / den)
  roundHalfEven num (den * step) * step

/-- A magnitude of the format: it is not too large, and rounding leaves it alone. -/
def Fits (units : Nat) : Prop := units < overflow ∧ nearest units 1 = units

instance (units : Nat) : Decidable (Fits units) :=
  inferInstanceAs (Decidable (_ ∧ _))

end Binary64

/-- A binary floating point number. A zero has a sign, and a number that is none has a sign and
a payload. -/
inductive Binary64
  | nan (negative : Bool) (payload : Nat)
  | infinite (negative : Bool)
  | finite (negative : Bool) (units : Nat) (fits : Binary64.Fits units)
deriving DecidableEq

namespace Binary64

/-- The number of that sign and that many units, infinite if it is too large. -/
def ofUnits (negative : Bool) (units : Nat) : Binary64 :=
  if h : Fits units then .finite negative units h else .infinite negative

/-- The number closest to `num / den`. -/
def ofRatio (negative : Bool) (num den : Nat) : Binary64 :=
  ofUnits negative (nearest (num * unitsPerOne) den)

def ofNat (n : Nat) : Binary64 := ofRatio false n 1

def zero : Binary64 := ofUnits false 0

instance : Inhabited Binary64 := ⟨zero⟩

/-- The number that an invalid operation gives. -/
def invalid : Binary64 := .nan false (fractions / 2)

def isFinite : Binary64 → Bool
  | finite .. => true
  | _ => false

def isNegative : Binary64 → Bool
  | nan negative _ => negative
  | infinite negative => negative
  | finite negative _ _ => negative

/-- The signed number of units. -/
def signed (negative : Bool) (units : Nat) : Int := if negative then -units else units

/-! ## Order -/

/-- A number that is none is neither below nor above anything, and both zeros are equal. -/
def lt : Binary64 → Binary64 → Bool
  | nan .., _ => false
  | _, nan .. => false
  | infinite n, infinite m => n && !m
  | infinite n, finite .. => n
  | finite .., infinite m => !m
  | finite n u _, finite m v _ => decide (signed n u < signed m v)

def le : Binary64 → Binary64 → Bool
  | nan .., _ => false
  | _, nan .. => false
  | a, b => !lt b a

/-! ## Arithmetic -/

def neg : Binary64 → Binary64
  | nan negative payload => nan (!negative) payload
  | infinite negative => infinite (!negative)
  | finite negative units fits => finite (!negative) units fits

/-- An exact sum of zero is negative only if both operands are. -/
def add : Binary64 → Binary64 → Binary64
  | nan negative payload, _ => nan negative payload
  | _, nan negative payload => nan negative payload
  | infinite n, infinite m => if n = m then infinite n else invalid
  | infinite n, finite .. => infinite n
  | finite .., infinite m => infinite m
  | finite n u _, finite m v _ =>
    let sum := signed n u + signed m v
    if sum = 0 then ofUnits (n && m) 0
    else ofUnits (decide (sum < 0)) (nearest sum.natAbs 1)

def sub (a b : Binary64) : Binary64 := add a (neg b)

def mul : Binary64 → Binary64 → Binary64
  | nan negative payload, _ => nan negative payload
  | _, nan negative payload => nan negative payload
  | infinite n, infinite m => infinite (n != m)
  | infinite n, finite m v _ => if v = 0 then invalid else infinite (n != m)
  | finite n u _, infinite m => if u = 0 then invalid else infinite (n != m)
  | finite n u _, finite m v _ => ofUnits (n != m) (nearest (u * v) unitsPerOne)

def div : Binary64 → Binary64 → Binary64
  | nan negative payload, _ => nan negative payload
  | _, nan negative payload => nan negative payload
  | infinite _, infinite _ => invalid
  | infinite n, finite m _ _ => infinite (n != m)
  | finite n _ _, infinite m => ofUnits (n != m) 0
  | finite n u _, finite m v _ =>
    if v = 0 then (if u = 0 then invalid else infinite (n != m))
    else ofUnits (n != m) (nearest (u * unitsPerOne) v)

/-! ## The word of a number -/

/-- Reads the 64-bit word: a sign bit, eleven bits of exponent and 52 bits of fraction. -/
def ofBits (bits : UInt64) : Binary64 :=
  let word := bits.toNat
  let negative := decide (UInt64.size / 2 ≤ word)
  let exponent := word / fractions % 2048
  let fraction := word % fractions
  if exponent = 2047 then
    if fraction = 0 then infinite negative else nan negative fraction
  else if exponent = 0 then ofUnits negative fraction
  else ofUnits negative ((fractions + fraction) * Nat.pow 2 (exponent - 1))

def toBits (x : Binary64) : UInt64 :=
  let word := match x with
    | nan _ payload => 2047 * fractions + payload % fractions
    | infinite _ => 2047 * fractions
    | finite _ units _ =>
      if units < fractions then units
      else (units.log2 - 52) * fractions + units / spacing units
  UInt64.ofNat (word + if x.isNegative then UInt64.size / 2 else 0)

end Binary64

end BlockWatch
