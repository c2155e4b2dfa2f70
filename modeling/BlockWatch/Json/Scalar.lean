import BlockWatch.Json.Token

/-!
# Numbers and strings of a text

`NumberText.value?` says which number the digits stand for. The digits are gathered into one
64-bit word for as long as they fit, and the word is then scaled by powers of ten of the floating
point format, one rounding at a time; a number too large for the format has no value.
`Piece.decode` joins the halves of characters that were written as two units.
-/

namespace BlockWatch.Json

/-- A number as it was read. -/
inductive Number
  | integer (n : Integer)
  | float (x : Binary64)
deriving DecidableEq

namespace NumberText

/-- Digits gathered into a word, and whether all of them did fit. -/
structure Gathered where
  word : Nat
  taken : Nat
  complete : Bool

/-- Adds digits to the word up to the first that does not fit. -/
def gather (word : Nat) : List Nat → Gathered
  | [] => ⟨word, 0, true⟩
  | d :: rest =>
    if UInt64.size ≤ word * 10 + d then ⟨word, 0, false⟩
    else
      let more := gather (word * 10 + d) rest
      { more with taken := more.taken + 1 }

/-- The power of ten as a number of the format. -/
def power (exponent : Nat) : Binary64 := .ofNat (Nat.pow 10 exponent)

/-- Divides by a power of ten, in steps of the largest one of the format. -/
def scaleDown (x : Binary64) (exponent : Nat) : Binary64 :=
  if exponent ≤ 308 then x.div (power exponent)
  else if x == .zero then x
  else scaleDown (x.div (power 308)) (exponent - 308)
termination_by exponent

/-- The word times a power of ten, unless it is too large. -/
def scaled? (negative : Bool) (word : Nat) (exponent : Int) : Option Binary64 :=
  let x := Binary64.ofNat word
  let signed (y : Binary64) : Binary64 := if negative then y.neg else y
  match exponent with
  | .ofNat up =>
    if up ≤ 308 then
      let y := x.mul (power up)
      if y.isFinite then some (signed y) else none
    else if word = 0 then some (signed x)
    else none
  | .negSucc down => some (signed (scaleDown x (down + 1)))

/-- Applies the exponent that was written, which has to stay below `2 ^ 31`. -/
def withExponent? (text : NumberText) (word : Nat) (exponent : Int) : Option Binary64 :=
  match text.exponent with
  | none => scaled? text.negative word exponent
  | some (down, digits) =>
    let written : Nat := digits.foldl (fun n d => n * 10 + d) 0
    if UInt32.size / 2 ≤ written then
      if word ≠ 0 ∧ down = false then none
      else some (.ofUnits text.negative 0)
    else scaled? text.negative word (if down then exponent - (written : Int) else exponent + (written : Int))

/-- The number of the digits. -/
def value? (text : NumberText) : Option Number :=
  let whole := gather 0 text.whole
  let missing : Int := text.whole.length - whole.taken
  match text.fraction with
  | some digits =>
    let all := gather whole.word digits
    (text.withExponent? all.word (missing - all.taken)).map .float
  | none =>
    if text.exponent.isSome || !whole.complete then
      (text.withExponent? whole.word missing).map .float
    else
      let n : Int := if text.negative then -whole.word else whole.word
      if text.negative && whole.word = 0 then some (.float (.ofUnits true 0))
      else match Integer.ofInt? n with
        | some n => some (.integer n)
        | none => some (.float (Binary64.ofNat whole.word).neg)

end NumberText

namespace Piece

/-- The characters of pieces. A unit of the upper range of halves has to be followed by one of the
lower range. With `openEnd` the pieces break off, and a first half at their end may still find its
second. -/
def decode (openEnd : Bool) : List Piece → Option (List Char)
  | [] => some []
  | .char c :: rest => (decode openEnd rest).map (c :: ·)
  | .unit n :: rest =>
    if 0xDC00 ≤ n ∧ n ≤ 0xDFFF then none
    else if 0xD800 ≤ n ∧ n ≤ 0xDBFF then
      match rest with
      | .unit m :: rest =>
        if 0xDC00 ≤ m ∧ m ≤ 0xDFFF then
          (decode openEnd rest).map
            (Char.ofNat (0x10000 + (n - 0xD800) * 0x400 + (m - 0xDC00)) :: ·)
        else none
      | [] => if openEnd then some [] else none
      | _ => none
    else (decode openEnd rest).map (Char.ofNat n :: ·)

end Piece

end BlockWatch.Json
