import BlockWatch.Json.Lexer
import Mathlib.Data.List.Basic

/-!
# Numerals

The characters of a number that is written: a sign, the digits of its whole part, and a fraction and
an exponent if it has them. A numeral without leading zeros is one token, and the token holds the
values of its digits.
-/

namespace BlockWatch.Json

/-- A number as it is written. -/
structure Numeral where
  negative : Bool
  whole : List Char
  fraction : Option (List Char) := none
  exponent : Option (Bool × List Char) := none

/-- At least one character, and digits only. -/
def DigitRun (cs : List Char) : Prop := cs ≠ [] ∧ ∀ c ∈ cs, c.isDigit = true

/-- The text does not go on with a character that could belong to a number. -/
def Bounded : List Char → Prop
  | [] => True
  | c :: _ => c.isDigit = false ∧ c ≠ '.' ∧ c ≠ 'e' ∧ c ≠ 'E'

namespace Numeral

/-- The characters of an exponent, with its sign. -/
def exponentChars : Option (Bool × List Char) → List Char
  | none => []
  | some (down, cs) => 'e' :: (if down then '-' else '+') :: cs

def fractionChars : Option (List Char) → List Char
  | none => []
  | some cs => '.' :: cs

def chars (n : Numeral) : List Char :=
  (if n.negative then ['-'] else []) ++
    (n.whole ++ (fractionChars n.fraction ++ exponentChars n.exponent))

/-- The digits by their values. -/
def digits (n : Numeral) : NumberText where
  negative := n.negative
  whole := n.whole.map Lexer.digit
  fraction := n.fraction.map (List.map Lexer.digit)
  exponent := n.exponent.map fun (down, cs) ↦ (down, cs.map Lexer.digit)

/-- All parts have digits, and a leading zero stands alone. -/
structure WellFormed (n : Numeral) : Prop where
  whole : DigitRun n.whole
  leading : n.whole.head? = some '0' → n.whole = ['0']
  fraction : ∀ cs, n.fraction = some cs → DigitRun cs
  exponent : ∀ down cs, n.exponent = some (down, cs) → DigitRun cs

end Numeral

namespace Lexer

theorem tokensOf_cons {c : Char} {s rest : List Char} {token : Token} (hspace : isSpace c = false)
    (hnext : next c s = (token, rest)) : tokensOf (c :: s) = token :: tokensOf rest := by
  rw [tokensOf, if_neg (by simp [hspace]), hnext]

theorem tokensOf_space {c : Char} (h : isSpace c = true) (s : List Char) :
    tokensOf (c :: s) = tokensOf s := by
  rw [tokensOf, if_pos h]

theorem ne_of_isDigit {c d : Char} (h : c.isDigit = true) (hd : d.isDigit = false) : c ≠ d := by
  rintro rfl
  simp [h] at hd

/-! ## Digits -/

theorem digits_append {cs : List Char} (h : ∀ c ∈ cs, c.isDigit = true) {rest : List Char}
    (hrest : ∀ c, rest.head? = some c → c.isDigit = false) :
    digits (cs ++ rest) = cs.map digit ∧ afterDigits (cs ++ rest) = rest := by
  have htake : rest.takeWhile Char.isDigit = [] := by
    cases rest with
    | nil => rfl
    | cons c rest => simp [hrest c rfl]
  have hdrop : rest.dropWhile Char.isDigit = rest := by
    cases rest with
    | nil => rfl
    | cons c rest => simp [hrest c rfl]
  constructor
  · rw [digits, List.takeWhile_append_of_pos h, htake, List.append_nil]
  · rw [afterDigits, List.dropWhile_append_of_pos h, hdrop]

theorem map_digit_ne_nil {cs : List Char} (h : cs ≠ []) : cs.map digit ≠ [] := by
  simpa using h

/-- Only the character zero is the digit zero. -/
theorem eq_zero_of_digit {c : Char} (h : c.isDigit = true) (hdigit : digit c = 0) : c = '0' := by
  have hle : '0'.toNat ≤ c.toNat := (Char.isDigit_iff_toNat.mp h).1
  apply Char.toNat_inj.mp
  rw [digit] at hdigit
  omega

/-! ## Parts of a number -/

theorem exponent_found (negative : Bool) (text : NumberText) {s : List Char} (h : digits s ≠ []) :
    (match digits s with
      | [] => (Token.broken (breakAt s), [])
      | found => (.number { text with exponent := some (negative, found) }, afterDigits s)) =
      (.number { text with exponent := some (negative, digits s) }, afterDigits s) := by
  obtain ⟨d, ds, hdigits⟩ := List.exists_cons_of_ne_nil h
  rw [hdigits]

theorem numberExponent_signed (down : Bool) (text : NumberText) {s : List Char}
    (h : digits s ≠ []) :
    numberExponent text ('e' :: (if down then '-' else '+') :: s) =
      (.number { text with exponent := some (down, digits s) }, afterDigits s) := by
  cases down with
  | false => exact exponent_found false text h
  | true => exact exponent_found true text h

theorem numberExponent_chars {exponent : Option (Bool × List Char)}
    (h : ∀ down cs, exponent = some (down, cs) → DigitRun cs) (text : NumberText)
    (htext : text.exponent = none) {rest : List Char} (hrest : Bounded rest) :
    numberExponent text (Numeral.exponentChars exponent ++ rest) =
      (.number { text with
        exponent := exponent.map fun (down, cs) ↦ (down, cs.map digit) }, rest) := by
  have hdigit : ∀ c, rest.head? = some c → c.isDigit = false := by
    intro c hc
    cases rest with
    | nil => cases hc
    | cons d rest =>
      obtain rfl := Option.some.inj hc
      exact hrest.1
  rcases exponent with - | ⟨down, cs⟩
  · have hsame : { text with exponent := none } = text := by rw [← htext]
    rw [Numeral.exponentChars, List.nil_append, Option.map_none, hsame]
    cases rest with
    | nil => rfl
    | cons c rest => simp [numberExponent, hrest.2.2.1, hrest.2.2.2]
  · obtain ⟨hne, hcs⟩ := h down cs rfl
    obtain ⟨hfound, hafter⟩ := digits_append hcs hdigit
    have hnil := map_digit_ne_nil hne
    rw [Numeral.exponentChars, List.cons_append, List.cons_append,
      numberExponent_signed _ _ (by rwa [hfound]), hfound, hafter]
    rfl

theorem numberFraction_chars {fraction : Option (List Char)}
    {exponent : Option (Bool × List Char)} (hfraction : ∀ cs, fraction = some cs → DigitRun cs)
    (hexponent : ∀ down cs, exponent = some (down, cs) → DigitRun cs) (text : NumberText)
    (htext : text.fraction = none ∧ text.exponent = none) {rest : List Char}
    (hrest : Bounded rest) :
    numberFraction text
        (Numeral.fractionChars fraction ++ (Numeral.exponentChars exponent ++ rest)) =
      (.number { text with
        fraction := fraction.map (List.map digit)
        exponent := exponent.map fun (down, cs) ↦ (down, cs.map digit) }, rest) := by
  have hhead : ∀ c, (Numeral.exponentChars exponent ++ rest).head? = some c →
      c.isDigit = false ∧ c ≠ '.' := by
    intro c hc
    rcases exponent with - | ⟨down, cs⟩
    · cases rest with
      | nil => cases hc
      | cons d rest =>
        obtain rfl := Option.some.inj hc
        exact ⟨hrest.1, hrest.2.1⟩
    · obtain rfl := Option.some.inj hc
      exact ⟨rfl, by decide⟩
  rcases fraction with - | cs
  · rw [Numeral.fractionChars, List.nil_append, Option.map_none, ← htext.1,
      ← numberExponent_chars hexponent text htext.2 hrest, numberFraction]
    intro s hs
    exact (hhead '.' (by rw [hs]; rfl)).2 rfl
  · obtain ⟨hne, hcs⟩ := hfraction cs rfl
    obtain ⟨hfound, hafter⟩ := digits_append hcs fun c hc ↦ (hhead c hc).1
    have hexpected := numberExponent_chars hexponent
      { text with fraction := some (cs.map digit) } htext.2 hrest
    obtain ⟨d, ds, hmap⟩ := List.exists_cons_of_ne_nil (map_digit_ne_nil hne)
    rw [Numeral.fractionChars, List.cons_append, numberFraction, hfound, hafter, Option.map_some]
    rw [hmap] at hexpected ⊢
    exact hexpected

/-- A numeral is one number. -/
theorem number_chars {n : Numeral} (h : n.WellFormed) {rest : List Char} (hrest : Bounded rest) :
    number n.negative (n.whole ++ (Numeral.fractionChars n.fraction ++
      (Numeral.exponentChars n.exponent ++ rest))) = (.number n.digits, rest) := by
  have hhead : ∀ c, (Numeral.fractionChars n.fraction ++
      (Numeral.exponentChars n.exponent ++ rest)).head? = some c → c.isDigit = false := by
    intro c hc
    rcases hf : n.fraction with - | cs
    · rcases he : n.exponent with - | ⟨down, cs⟩
      · rw [hf, he] at hc
        cases rest with
        | nil => cases hc
        | cons d rest =>
          obtain rfl := Option.some.inj hc
          exact hrest.1
      · rw [hf, he] at hc
        obtain rfl := Option.some.inj hc
        rfl
    · rw [hf] at hc
      obtain rfl := Option.some.inj hc
      rfl
  obtain ⟨hne, hcs⟩ := h.whole
  obtain ⟨hfound, hafter⟩ := digits_append hcs hhead
  have hfraction := numberFraction_chars h.fraction h.exponent
    ⟨n.negative, n.whole.map digit, none, none⟩ ⟨rfl, rfl⟩ hrest
  rw [number, hfound, hafter]
  obtain ⟨c, cs, hwhole⟩ := List.exists_cons_of_ne_nil hne
  rw [hwhole, List.map_cons] at hfraction ⊢
  rcases hdigit : digit c with - | k
  · have hc : c = '0' := eq_zero_of_digit (hcs c (by simp [hwhole])) hdigit
    have hsingle := h.leading (by rw [hwhole, hc]; rfl)
    obtain rfl : cs = [] := by simpa [hwhole] using congrArg List.tail hsingle
    rw [hdigit] at hfraction
    simpa [Numeral.digits, hwhole, hdigit] using hfraction
  · rw [hdigit] at hfraction
    simpa [Numeral.digits, hwhole, hdigit] using hfraction

theorem next_of_isDigit {c : Char} (h : c.isDigit = true) (s : List Char) :
    next c s = number false (c :: s) := by
  have hne {d : Char} (hd : d.isDigit = false) : ¬c = d := ne_of_isDigit h hd
  have hopen : ¬c.toNat = 0x7b := fun hc ↦ hne (d := '\x7b') rfl (Char.toNat_inj.mp hc)
  have hclose : ¬c.toNat = 0x7d := fun hc ↦ hne (d := '\x7d') rfl (Char.toNat_inj.mp hc)
  rw [next, if_neg (hne rfl), if_neg (hne rfl), if_neg hopen, if_neg hclose, if_neg (hne rfl),
    if_neg (hne rfl), if_neg (hne rfl), if_neg (hne rfl), if_neg (hne rfl), if_neg (hne rfl),
    if_neg (hne rfl), if_pos h]

/-- A numeral is one token. -/
theorem tokensOf_numeral {n : Numeral} (h : n.WellFormed) {rest : List Char}
    (hrest : Bounded rest) :
    tokensOf (n.chars ++ rest) = .number n.digits :: tokensOf rest := by
  have hnumber := number_chars h hrest
  obtain ⟨hne, hcs⟩ := h.whole
  obtain ⟨c, cs, hwhole⟩ := List.exists_cons_of_ne_nil hne
  have hc : c.isDigit = true := hcs c (by simp [hwhole])
  rw [Numeral.chars, List.append_assoc, List.append_assoc, List.append_assoc]
  cases hnegative : n.negative with
  | true =>
    rw [hnegative] at hnumber
    exact tokensOf_cons rfl hnumber
  | false =>
    rw [hnegative, hwhole] at hnumber
    rw [hwhole]
    apply tokensOf_cons
    · have hspace {d : Char} (hd : d.isDigit = false) : (c == d) = false :=
        beq_false_of_ne (ne_of_isDigit hc hd)
      rw [isSpace, hspace rfl, hspace rfl, hspace rfl, hspace rfl]
      rfl
    · rw [← hnumber]
      exact next_of_isDigit hc _

end Lexer

end BlockWatch.Json
