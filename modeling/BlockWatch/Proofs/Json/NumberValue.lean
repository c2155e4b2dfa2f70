import BlockWatch.Proofs.Json.Scaling
import BlockWatch.Proofs.Json.WrittenNumber

/-!
# What written numbers are read as

The digits of a whole number are gathered into the word that was written. The digits of a finite
floating point number may be rounded in other places when they are scaled, but they always give a
number again.
-/

namespace BlockWatch.Json

/-- The digits of a number stand for the number. -/
theorem foldl_digit_toDigits (n : ℕ) :
    ((Nat.toDigits 10 n).map Lexer.digit).foldl (fun n d ↦ n * 10 + d) 0 = n := by
  rw [List.foldl_map]
  simpa [Nat.ofDigitChars, Lexer.digit, mul_comm] using Nat.ofDigitChars_ten_toDigits (n := n)

theorem digit_lt {c : Char} (h : c.isDigit = true) : Lexer.digit c < 10 := by
  have hle := (Char.isDigit_iff_toNat.mp h).2
  have hnine : '9'.toNat = 57 := rfl
  have hzero : '0'.toNat = 48 := rfl
  rw [Lexer.digit]
  omega

namespace NumberText

/-! ## Gathering -/

theorem le_foldl (word : ℕ) (ds : List ℕ) : word ≤ ds.foldl (fun n d ↦ n * 10 + d) word := by
  induction ds generalizing word with
  | nil => exact le_rfl
  | cons d ds ih => exact (by omega : word ≤ word * 10 + d).trans (ih _)

/-- Digits that fit a word are all gathered. -/
theorem gather_eq {word : ℕ} {ds : List ℕ}
    (h : ds.foldl (fun n d ↦ n * 10 + d) word < UInt64.size) :
    gather word ds = ⟨ds.foldl (fun n d ↦ n * 10 + d) word, ds.length, true⟩ := by
  induction ds generalizing word with
  | nil => rfl
  | cons d ds ih =>
    have hnext : ¬UInt64.size ≤ word * 10 + d := not_le.mpr ((le_foldl _ ds).trans_lt h)
    rw [gather, if_neg hnext, ih h]
    rfl

/-- A digit is gathered if there is room for it. -/
theorem gather_taken_pos {word d : ℕ} (h : word * 10 + d < UInt64.size) (ds : List ℕ) :
    0 < (gather word (d :: ds)).taken := by
  rw [gather, if_neg (not_le.mpr h)]
  exact Nat.succ_pos _

theorem foldl_lt_pow {ds : List ℕ} (h : ∀ d ∈ ds, d < 10) (word k : ℕ) (hword : word < 10 ^ k) :
    ds.foldl (fun n d ↦ n * 10 + d) word < 10 ^ (k + ds.length) := by
  induction ds generalizing word k with
  | nil => exact hword
  | cons d ds ih =>
    have hd : d < 10 := h d List.mem_cons_self
    have hnext := ih (fun e he ↦ h e (List.mem_cons_of_mem d he)) (word * 10 + d) (k + 1)
      (by rw [pow_succ]; omega)
    rwa [List.length_cons, Nat.add_comm ds.length, ← Nat.add_assoc]

/-- A few digits fit a word. -/
theorem gather_of_length_le {ds : List ℕ} (h : ∀ d ∈ ds, d < 10) (hlength : ds.length ≤ 16) :
    ∃ word < 10 ^ 16, gather 0 ds = ⟨word, ds.length, true⟩ := by
  have hbound := foldl_lt_pow h 0 0 (by decide)
  have hpow : 10 ^ (0 + ds.length) ≤ 10 ^ 16 := Nat.pow_le_pow_right (by decide) (by omega)
  have hword := hbound.trans_le hpow
  exact ⟨_, hword, gather_eq (hword.trans (by decide))⟩

theorem isSome_scaled?_of_neg (negative : Bool) (word : ℕ) {exponent : ℤ} (h : exponent < 0) :
    (scaled? negative word exponent).isSome = true := by
  cases exponent with
  | ofNat up => exact absurd h (by simp)
  | negSucc down => rfl

/-! ## Numbers with a fraction or an exponent -/

/-- A number with a fraction and few digits before it has a value. -/
theorem isSome_value?_of_fraction {text : NumberText} {d : ℕ} {ds : List ℕ}
    (hexponent : text.exponent = none) (hwhole : ∀ e ∈ text.whole, e < 10)
    (hlength : text.whole.length ≤ 16) (hfraction : text.fraction = some (d :: ds)) (hd : d < 10) :
    text.value?.isSome = true := by
  obtain ⟨word, hword, hgather⟩ := gather_of_length_le hwhole hlength
  have hroom : word * 10 + d < UInt64.size := by
    have hsize : UInt64.size = 18446744073709551616 := rfl
    omega
  have htaken := gather_taken_pos hroom ds
  have hneg : (text.whole.length : ℤ) - text.whole.length - (gather word (d :: ds)).taken < 0 := by
    omega
  have hscaled := isSome_scaled?_of_neg text.negative (gather word (d :: ds)).word hneg
  simpa [value?, withExponent?, hexponent, hfraction, hgather] using hscaled

/-- With one digit in front and an exponent, the digits are scaled by the exponent less the length of
the fraction. -/
theorem value?_of_exponent {text : NumberText} {d : ℕ} {down : Bool} {written : List ℕ}
    (hwhole : text.whole = [d]) (hd : d < 10) (hexponent : text.exponent = some (down, written))
    {size : ℕ} (hsize : written.foldl (fun n d ↦ n * 10 + d) 0 = size)
    (hsmall : size < UInt32.size / 2) :
    text.value? =
      (scaled? text.negative (gather d (text.fraction.getD [])).word
        (if down then -((gather d (text.fraction.getD [])).taken : ℤ) - size
          else -((gather d (text.fraction.getD [])).taken : ℤ) + size)).map .float := by
  have hgather : gather 0 text.whole = ⟨d, 1, true⟩ := by
    rw [hwhole]
    have hroom : [d].foldl (fun n d ↦ n * 10 + d) 0 < UInt64.size := by
      rw [List.foldl_cons, List.foldl_nil, zero_mul, zero_add]
      exact hd.trans (by decide)
    simpa using gather_eq hroom
  have hlength : text.whole.length = 1 := by rw [hwhole, List.length_singleton]
  have hwritten : ¬UInt32.size / 2 ≤ size := not_le.mpr hsmall
  cases hfraction : text.fraction with
  | none =>
    simp [value?, withExponent?, hfraction, hexponent, hgather, hlength, hsize, hwritten, gather]
  | some ds =>
    simp [value?, withExponent?, hfraction, hexponent, hgather, hlength, hsize, hwritten]

end NumberText

namespace Numeral

/-- A whole number that a word holds is read back. -/
theorem value?_ofInt (n : Integer) : (ofInt n.value).digits.value? = some (.integer n) := by
  obtain ⟨n, hrange⟩ := n
  have hfold := foldl_digit_toDigits n.natAbs
  have hsize : UInt64.size = 18446744073709551616 := rfl
  have hgather : NumberText.gather 0 ((Nat.toDigits 10 n.natAbs).map Lexer.digit) =
      ⟨n.natAbs, ((Nat.toDigits 10 n.natAbs).map Lexer.digit).length, true⟩ := by
    rw [NumberText.gather_eq (by rw [hfold]; omega), hfold]
  have hzero : (decide (n < 0) && decide (n.natAbs = 0)) = false := by
    by_cases hneg : n < 0
    · simp [hneg, hneg.ne]
    · simp [hneg]
  have hsigned : (if decide (n < 0) = true then -(n.natAbs : ℤ) else n.natAbs) = n := by
    split_ifs with hneg
    · have := of_decide_eq_true hneg
      omega
    · have : ¬n < 0 := fun h ↦ hneg (decide_eq_true h)
      omega
  simp only [NumberText.value?, digits, ofInt, Option.map_none, hgather]
  rw [if_neg (by decide), hzero, if_neg Bool.false_ne_true, hsigned, Integer.ofInt?,
    dif_pos hrange]

theorem digits_lt {cs : List Char} (h : ∀ c ∈ cs, c.isDigit = true) :
    ∀ d ∈ cs.map Lexer.digit, d < 10 := by
  intro d hd
  obtain ⟨c, hc, rfl⟩ := List.mem_map.mp hd
  exact digit_lt (h c hc)

/-- After the first digit, the others are gathered to the number that all of them make. -/
theorem gather_digit {c : Char} {rest : List Char}
    (hword : ((c :: rest).map Lexer.digit).foldl (fun n d ↦ n * 10 + d) 0 < UInt64.size) :
    NumberText.gather (Lexer.digit c) (rest.map Lexer.digit) =
      ⟨((c :: rest).map Lexer.digit).foldl (fun n d ↦ n * 10 + d) 0, rest.length, true⟩ := by
  have hfold : ((c :: rest).map Lexer.digit).foldl (fun n d ↦ n * 10 + d) 0 =
      (rest.map Lexer.digit).foldl (fun n d ↦ n * 10 + d) (Lexer.digit c) := by
    rw [List.map_cons, List.foldl_cons, zero_mul, zero_add]
  rw [hfold] at hword ⊢
  simpa using NumberText.gather_eq hword

/-- Digits around a point have a value. -/
theorem isSome_value?_of_positional (negative : Bool) {cs : List Char} {leading : ℤ}
    (hplain : -5 ≤ leading ∧ leading ≤ 15) (h : (laidOut cs leading).WellFormed) :
    (Numeral.digits { laidOut cs leading with negative }).value?.isSome = true := by
  have hexponent : (laidOut cs leading).exponent = none := if_pos hplain
  obtain ⟨ds, hfraction⟩ : ∃ ds, (laidOut cs leading).fraction = some ds := by
    simp only [laidOut, if_pos hplain]
    split_ifs <;> exact ⟨_, rfl⟩
  obtain ⟨hds, hdigits⟩ := h.fraction ds hfraction
  obtain ⟨c, rest, rfl⟩ := List.exists_cons_of_ne_nil hds
  have hlength : (laidOut cs leading).whole.length ≤ 16 := by
    simp only [laidOut, if_pos hplain]
    split_ifs
    · exact Nat.le_of_ble_eq_true rfl
    · rw [List.length_append, List.length_take, List.length_replicate]
      omega
  have hparts : (Numeral.digits { laidOut cs leading with negative }).fraction =
      some (Lexer.digit c :: rest.map Lexer.digit) := by
    simp [Numeral.digits, hfraction]
  apply NumberText.isSome_value?_of_fraction _ _ _ hparts (digit_lt (hdigits c List.mem_cons_self))
  · simp [Numeral.digits, hexponent]
  · exact digits_lt h.whole.2
  · simpa [Numeral.digits] using hlength

/-- Digits before an exponent have a value if the number they make can be scaled by it. A negative
exponent never fails. -/
theorem isSome_value?_of_scientific (negative : Bool) {c : Char} {rest : List Char} {leading : ℤ}
    (hplain : ¬(-5 ≤ leading ∧ leading ≤ 15)) (hc : c.isDigit = true)
    (hsmall : leading.natAbs < UInt32.size / 2)
    (hword : ((c :: rest).map Lexer.digit).foldl (fun n d ↦ n * 10 + d) 0 < UInt64.size)
    (hscaled : 15 < leading → (NumberText.scaled? negative
      (((c :: rest).map Lexer.digit).foldl (fun n d ↦ n * 10 + d) 0)
      (leading - (c :: rest).length + 1)).isSome = true) :
    (Numeral.digits { laidOut (c :: rest) leading with negative }).value?.isSome = true := by
  have hwhole : (laidOut (c :: rest) leading).whole = [c] := if_neg hplain
  have hexponent : (laidOut (c :: rest) leading).exponent =
      some (decide (leading < 0), Nat.toDigits 10 leading.natAbs) := if_neg hplain
  have hfraction : ((Numeral.digits { laidOut (c :: rest) leading with negative }).fraction.getD
      []) = rest.map Lexer.digit := by
    by_cases hrest : rest = [] <;> simp [Numeral.digits, laidOut, hplain, hrest]
  have hparts : (Numeral.digits { laidOut (c :: rest) leading with negative }).exponent =
      some (decide (leading < 0), (Nat.toDigits 10 leading.natAbs).map Lexer.digit) := by
    simp [Numeral.digits, hexponent]
  have hvalue := NumberText.value?_of_exponent (by simp [Numeral.digits, hwhole]) (digit_lt hc)
    hparts (foldl_digit_toDigits leading.natAbs) hsmall
  rw [hvalue, Option.isSome_map, hfraction, gather_digit hword]
  by_cases hdown : leading < 0
  · rw [decide_eq_true hdown, if_pos rfl]
    apply NumberText.isSome_scaled?_of_neg
    omega
  · rw [decide_eq_false hdown, if_neg Bool.false_ne_true]
    have hexact : -(rest.length : ℤ) + leading.natAbs = leading - (c :: rest).length + 1 := by
      rw [List.length_cons]
      omega
    rw [hexact]
    exact hscaled (by omega)

/-- Laid out digits have a value if the digits can be scaled, where that is needed. -/
theorem isSome_value?_laidOut (negative : Bool) {cs : List Char} {leading : ℤ}
    (h : (laidOut cs leading).WellFormed) (hne : cs ≠ [])
    (hcs : ∀ c ∈ cs, c.isDigit = true) (hsmall : leading.natAbs < UInt32.size / 2)
    (hword : (cs.map Lexer.digit).foldl (fun n d ↦ n * 10 + d) 0 < UInt64.size)
    (hscaled : 15 < leading → (NumberText.scaled? negative
      ((cs.map Lexer.digit).foldl (fun n d ↦ n * 10 + d) 0)
      (leading - cs.length + 1)).isSome = true) :
    (Numeral.digits { laidOut cs leading with negative }).value?.isSome = true := by
  by_cases hplain : -5 ≤ leading ∧ leading ≤ 15
  · exact isSome_value?_of_positional negative hplain h
  · obtain ⟨c, rest, rfl⟩ := List.exists_cons_of_ne_nil hne
    exact isSome_value?_of_scientific negative hplain (hcs c List.mem_cons_self) hsmall hword
      hscaled

/-- Of every finite number some number is read back. -/
theorem isSome_value?_ofUnits (negative : Bool) {units : ℕ} (hfits : Binary64.Fits units) :
    (ofUnits negative units).digits.value?.isSome = true := by
  have hwellFormed := ofUnits_wellFormed false hfits
  rw [ofUnits] at hwellFormed ⊢
  rcases shortDigits_spec hfits with hzero | ⟨d, hshort, hshortest, hdigits⟩
  · rw [hzero] at hwellFormed ⊢
    exact isSome_value?_laidOut negative hwellFormed (List.cons_ne_nil _ _) (by simp) (by decide)
      (by decide) fun h ↦ absurd h (by decide)
  · obtain ⟨hne, hrun⟩ := digitRun_toDigits d.digits
    have hfold := foldl_digit_toDigits d.digits
    have hlength : (Nat.toDigits 10 d.digits).length ≤ 18 :=
      (Nat.length_toDigits_le_iff (by decide) (by decide)).mpr
        (hshort.few.trans_lt (by decide))
    have hlow := hshort.low
    have hhigh := hshort.high
    have hsize : UInt32.size / 2 = 2147483648 := rfl
    rw [hdigits] at hwellFormed ⊢
    apply isSome_value?_laidOut negative hwellFormed hne hrun
    · rw [hsize, digitsOf]
      omega
    · rw [digitsOf, hfold]
      exact hshort.few.trans_lt (by decide)
    · intro _
      have hexponent : d.exponent + (Nat.toDigits 10 d.digits).length - 1 -
          (Nat.toDigits 10 d.digits).length + 1 = d.exponent := by omega
      rw [digitsOf, hfold, hexponent]
      exact NumberText.isSome_scaled? negative hfits hshort hshortest

end Numeral

end BlockWatch.Json
