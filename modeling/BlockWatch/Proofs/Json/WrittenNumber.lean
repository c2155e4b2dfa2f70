import BlockWatch.Json.Writer
import BlockWatch.Proofs.Json.Numeral
import BlockWatch.Proofs.Number.Shortest

/-!
# Written numbers

Whole numbers and finite floating point numbers are written as numerals.
-/

namespace BlockWatch.Json

/-! ## Digits of whole numbers -/

theorem digitRun_toDigits (n : ℕ) : DigitRun (Nat.toDigits 10 n) :=
  ⟨Nat.toDigits_ne_nil, fun _ hc ↦ Nat.isDigit_of_mem_toDigits (by decide) (by decide) hc⟩

/-- Only zero starts with a zero. -/
theorem toDigits_of_leading_zero {n : ℕ} (h : (Nat.toDigits 10 n).head? = some '0') : n = 0 := by
  induction n using Nat.strongRecOn with
  | ind n ih =>
    rw [Nat.toDigits_eq_if (by decide)] at h
    split_ifs at h with hsmall
    · have hdigit : n.digitChar = '0' := Option.some.inj h
      have htoNat := Nat.toNat_digitChar_of_lt_ten hsmall
      rw [hdigit] at htoNat
      simpa using htoNat.symm
    · obtain ⟨c, cs, hcs⟩ := List.exists_cons_of_ne_nil
        (Nat.toDigits_ne_nil (n := n / 10) (b := 10))
      rw [hcs, List.cons_append] at h
      have hzero := ih (n / 10) (by omega) (by rw [hcs]; exact h)
      omega

/-! ## Whole numbers -/

namespace Numeral

def ofInt (n : ℤ) : Numeral where
  negative := decide (n < 0)
  whole := Nat.toDigits 10 n.natAbs

theorem toList_toString_int (n : ℤ) : (toString n).toList = (ofInt n).chars := by
  cases n with
  | ofNat n =>
    have hdigits : (toString (Int.ofNat n)).toList = Nat.toDigits 10 n := Nat.toList_repr
    have hsign : decide (Int.ofNat n < 0) = false := rfl
    rw [hdigits, chars, ofInt, hsign]
    simp [fractionChars, exponentChars]
  | negSucc n =>
    have htext : toString (Int.negSucc n) = "-" ++ Nat.repr (n + 1) := rfl
    rw [htext, String.toList_append, Nat.toList_repr]
    simp [chars, ofInt, fractionChars, exponentChars]

theorem ofInt_wellFormed (n : ℤ) : (ofInt n).WellFormed where
  whole := digitRun_toDigits _
  leading h := by
    rw [ofInt, toDigits_of_leading_zero h]
    rfl
  fraction _ h := nomatch h
  exponent _ _ h := nomatch h

/-! ## Floating point numbers -/

/-- Digits whose first one stands for `10 ^ leading`, without a sign. -/
def laidOut (cs : List Char) (leading : ℤ) : Numeral where
  negative := false
  whole :=
    if -5 ≤ leading ∧ leading ≤ 15 then
      if leading < 0 then ['0']
      else cs.take (leading.toNat + 1) ++ List.replicate (leading.toNat + 1 - cs.length) '0'
    else cs.take 1
  fraction :=
    if -5 ≤ leading ∧ leading ≤ 15 then
      if leading < 0 then some (List.replicate ((-leading).toNat - 1) '0' ++ cs)
      else some (if cs.drop (leading.toNat + 1) = [] then ['0'] else cs.drop (leading.toNat + 1))
    else if cs.tail = [] then none else some cs.tail
  exponent :=
    if -5 ≤ leading ∧ leading ≤ 15 then none
    else some (decide (leading < 0), Nat.toDigits 10 leading.natAbs)

/-- The digits of a decimal and the exponent of ten of the first one. -/
def digitsOf (d : Decimal) : List Char × ℤ :=
  (Nat.toDigits 10 d.digits, d.exponent + (Nat.toDigits 10 d.digits).length - 1)

/-- The digits that are written for a finite number, and the exponent of ten of the first one. -/
def shortDigits (units : ℕ) : List Char × ℤ :=
  if units = 0 then (['0'], 0) else digitsOf (Decimal.shortest .even units)

/-- A finite number as it is written. -/
def ofUnits (negative : Bool) (units : ℕ) : Numeral :=
  { laidOut (shortDigits units).1 (shortDigits units).2 with negative }

theorem toList_layOut (digits : String) (leading : ℤ) :
    (floatNotation.layOut digits leading).toList = (laidOut digits.toList leading).chars := by
  have hpositional : floatNotation.positional leading = true ↔ -5 ≤ leading ∧ leading ≤ 15 := by
    simp [floatNotation]
  have hmark : floatNotation.plusSign = true := rfl
  have hpoint : floatNotation.pointZero = true := rfl
  have hexponent : leading.natAbs.repr.toList = Nat.toDigits 10 leading.natAbs := Nat.toList_repr
  rw [FloatNotation.layOut]
  dsimp only
  by_cases hplain : -5 ≤ leading ∧ leading ≤ 15
  · rw [if_pos (hpositional.mpr hplain)]
    by_cases hneg : leading < 0
    · simp [chars, laidOut, hplain, hneg, fractionChars, exponentChars, FloatNotation.zeros]
    · by_cases hrest : digits.toList.drop (leading.toNat + 1) = [] <;>
        simp [chars, laidOut, hplain, hneg, fractionChars, exponentChars, FloatNotation.zeros,
          hrest, hpoint]
  · rw [if_neg (fun h ↦ hplain (hpositional.mp h)), hmark]
    by_cases hrest : digits.toList.tail = [] <;> by_cases hneg : leading < 0 <;>
      simp [chars, laidOut, hplain, hneg, fractionChars, exponentChars, hrest, hexponent]

theorem chars_signed (n : Numeral) (h : n.negative = false) (negative : Bool) :
    Numeral.chars { n with negative } = (if negative then ['-'] else []) ++ n.chars := by
  simp [chars, h]

/-- The text of a decimal. -/
def decimalText (d : Decimal) : String :=
  floatNotation.layOut (toString d.digits) (d.exponent + (toString d.digits).length - 1)

theorem toList_decimalText (d : Decimal) :
    (decimalText d).toList = (laidOut (digitsOf d).1 (digitsOf d).2).chars := by
  have hdigits : (toString d.digits).toList = Nat.toDigits 10 d.digits := Nat.toList_repr
  have hlength : (toString d.digits).length = (Nat.toDigits 10 d.digits).length := by
    rw [← hdigits, String.length_toList]
  rw [decimalText, toList_layOut, hdigits, hlength, digitsOf]

/-- The text of a finite number without its sign. -/
def bodyText (units : ℕ) : String :=
  if units = 0 then floatNotation.layOut "0" 0 else decimalText (Decimal.shortest .even units)

theorem toList_bodyText (units : ℕ) :
    (bodyText units).toList = (laidOut (shortDigits units).1 (shortDigits units).2).chars := by
  by_cases hzero : units = 0
  · rw [bodyText, if_pos hzero, shortDigits, if_pos hzero]
    exact toList_layOut "0" 0
  · rw [bodyText, if_neg hzero, shortDigits, if_neg hzero, toList_decimalText]

theorem floatText_finite (negative : Bool) (units : ℕ) (fits : Binary64.Fits units) :
    floatText (.finite negative units fits) =
      if negative then "-" ++ bodyText units else bodyText units := rfl

theorem toList_floatText (negative : Bool) (units : ℕ) (fits : Binary64.Fits units) :
    (floatText (.finite negative units fits)).toList = (ofUnits negative units).chars := by
  rw [floatText_finite, ofUnits, chars_signed _ rfl, ← toList_bodyText]
  cases negative with
  | false => rw [if_neg Bool.false_ne_true, if_neg Bool.false_ne_true, List.nil_append]
  | true =>
    rw [if_pos rfl, if_pos rfl, String.toList_append]
    rfl

/-! ### Well-formedness -/

theorem digitRun_replicate (n : ℕ) : ∀ c ∈ List.replicate n '0', c.isDigit = true := by
  intro c hc
  rw [List.eq_of_mem_replicate hc]
  rfl

section LaidOut

variable {cs : List Char} {leading : ℤ} (h : DigitRun cs)
include h

theorem digitRun_whole_laidOut : DigitRun (laidOut cs leading).whole := by
  obtain ⟨hne, hcs⟩ := h
  obtain ⟨c, rest, rfl⟩ := List.exists_cons_of_ne_nil hne
  rw [laidOut]
  dsimp only
  split_ifs with hplain hneg
  · exact ⟨List.cons_ne_nil _ _, by simp⟩
  · rw [List.take_succ_cons, List.cons_append]
    refine ⟨List.cons_ne_nil _ _, fun d hd ↦ ?_⟩
    rw [List.mem_cons, List.mem_append] at hd
    rcases hd with rfl | hd | hd
    · exact hcs d List.mem_cons_self
    · exact hcs d (List.mem_cons_of_mem c (List.mem_of_mem_take hd))
    · exact digitRun_replicate _ d hd
  · exact ⟨List.cons_ne_nil _ _, fun d hd ↦ hcs d (List.mem_of_mem_take hd)⟩

theorem digitRun_fraction_laidOut {ds : List Char}
    (hsome : (laidOut cs leading).fraction = some ds) : DigitRun ds := by
  obtain ⟨hne, hcs⟩ := h
  simp only [laidOut] at hsome
  split_ifs at hsome with hplain hneg hend hend <;>
    obtain rfl := Option.some.inj hsome
  · refine ⟨by simp [hne], fun d hd ↦ ?_⟩
    rcases List.mem_append.mp hd with hd | hd
    · exact digitRun_replicate _ d hd
    · exact hcs d hd
  · exact ⟨List.cons_ne_nil _ _, by simp⟩
  · exact ⟨hend, fun d hd ↦ hcs d (List.mem_of_mem_drop hd)⟩
  · exact ⟨hend, fun d hd ↦ hcs d (List.mem_of_mem_tail hd)⟩

theorem laidOut_wellFormed (hzero : cs.head? = some '0' → cs = ['0'] ∧ leading = 0) :
    (laidOut cs leading).WellFormed where
  whole := digitRun_whole_laidOut h
  leading := by
    obtain ⟨c, rest, rfl⟩ := List.exists_cons_of_ne_nil h.1
    rw [laidOut]
    dsimp only
    split_ifs with hplain hneg
    · exact fun _ ↦ rfl
    · intro hhead
      obtain ⟨hsingle, rfl⟩ := hzero hhead
      rw [hsingle]
      rfl
    · intro hhead
      exact congrArg (fun d ↦ [d]) (Option.some.inj hhead)
  fraction _ hsome := digitRun_fraction_laidOut h hsome
  exponent _ _ hsome := by
    simp only [laidOut] at hsome
    split_ifs at hsome
    cases hsome
    exact digitRun_toDigits _

end LaidOut

theorem shortDigits_spec {units : ℕ} (hfits : Binary64.Fits units) :
    shortDigits units = (['0'], 0) ∨ ∃ d : Decimal, Decimal.IsShort units d ∧
      Decimal.shortest .even units = d ∧
      shortDigits units = digitsOf d := by
  rw [shortDigits]
  split_ifs with hzero
  · exact .inl rfl
  · rcases Decimal.shortest_isShort .even hzero hfits.1 with hnone | hshort
    · rw [hnone]
      exact .inl rfl
    · exact .inr ⟨_, hshort, rfl, rfl⟩

theorem ofUnits_wellFormed (negative : Bool) {units : ℕ} (hfits : Binary64.Fits units) :
    (ofUnits negative units).WellFormed := by
  have hlaidOut : (laidOut (shortDigits units).1 (shortDigits units).2).WellFormed := by
    rcases shortDigits_spec hfits with hzero | ⟨d, hshort, -, hdigits⟩
    · rw [hzero]
      exact laidOut_wellFormed ⟨List.cons_ne_nil _ _, by simp⟩ fun _ ↦ ⟨rfl, rfl⟩
    · rw [hdigits]
      apply laidOut_wellFormed (digitRun_toDigits _)
      intro hhead
      exact absurd (toDigits_of_leading_zero hhead) hshort.positive.ne'
  exact ⟨hlaidOut.whole, hlaidOut.leading, hlaidOut.fraction, hlaidOut.exponent⟩

end Numeral

end BlockWatch.Json
