import BlockWatch.Number.Binary64
import Mathlib.Algebra.Order.Ring.Nat
import Mathlib.Tactic.Positivity

/-!
# Rounding to 53 significant bits

Rounding a whole number of units keeps it between the powers of two around it, and what it gives is
left alone by rounding again. So every 64-bit word becomes a finite number. The sign of a sum of
numbers that are not negative, and of a quotient by a positive one, follows without any bound on
the error.
-/

namespace BlockWatch

theorem le_roundHalfEven (num den : ℕ) : num / den ≤ roundHalfEven num den := by
  dsimp only [roundHalfEven]
  split_ifs
  · exact le_rfl
  · exact Nat.le_succ _
  · exact Nat.le_add_right _ _

theorem roundHalfEven_le (num den : ℕ) : roundHalfEven num den ≤ num / den + 1 := by
  have hparity := Nat.mod_lt (num / den) two_pos
  dsimp only [roundHalfEven]
  split_ifs <;> omega

/-- A whole quotient is not changed. -/
theorem roundHalfEven_mul_self (quotient : ℕ) {den : ℕ} (hden : 0 < den) :
    roundHalfEven (quotient * den) den = quotient := by
  have hquotient : quotient * den / den = quotient := Nat.mul_div_cancel _ hden
  have hrest : quotient * den % den = 0 := Nat.mul_mod_left _ _
  unfold roundHalfEven
  rw [hquotient, hrest, if_pos (by simpa using hden)]

namespace Binary64

theorem spacing_eq (units : ℕ) : spacing units = 2 ^ (units.log2 - 52) := rfl

theorem spacing_pos (units : ℕ) : 0 < spacing units := by
  rw [spacing_eq]
  positivity

theorem spacing_dvd_two_pow_log2 (units : ℕ) : spacing units ∣ 2 ^ units.log2 :=
  pow_dvd_pow 2 (Nat.sub_le _ _)

theorem nearest_one (units : ℕ) :
    nearest units 1 = roundHalfEven units (spacing units) * spacing units := by
  simp only [nearest, Nat.div_one, one_mul]

theorem nearest_eq_self {units : ℕ} (h : spacing units ∣ units) : nearest units 1 = units := by
  obtain ⟨quotient, hquotient⟩ := h
  have hround : roundHalfEven (quotient * spacing units) (spacing units) = quotient :=
    roundHalfEven_mul_self quotient (spacing_pos units)
  rw [mul_comm, ← hquotient] at hround
  rw [nearest_one, hround, mul_comm]
  exact hquotient.symm

/-- Rounding does not cross the power of two below. -/
theorem two_pow_log2_le_nearest {units : ℕ} (h : units ≠ 0) :
    2 ^ units.log2 ≤ nearest units 1 := by
  rw [nearest_one]
  calc
    2 ^ units.log2 = 2 ^ units.log2 / spacing units * spacing units :=
      (Nat.div_mul_cancel (spacing_dvd_two_pow_log2 units)).symm
    _ ≤ units / spacing units * spacing units :=
      Nat.mul_le_mul_right _ (Nat.div_le_div_right (Nat.log2_self_le h))
    _ ≤ roundHalfEven units (spacing units) * spacing units :=
      Nat.mul_le_mul_right _ (le_roundHalfEven _ _)

/-- Rounding may reach the power of two above but does not cross it. -/
theorem nearest_le_two_pow (units : ℕ) : nearest units 1 ≤ 2 ^ (units.log2 + 1) := by
  have hdvd : spacing units ∣ 2 ^ (units.log2 + 1) :=
    (spacing_dvd_two_pow_log2 units).trans (pow_dvd_pow 2 (Nat.le_succ _))
  obtain ⟨quotient, hquotient⟩ := hdvd
  have hbelow : units / spacing units < quotient := by
    rw [Nat.div_lt_iff_lt_mul (spacing_pos units), mul_comm, ← hquotient]
    exact Nat.lt_log2_self
  rw [nearest_one, hquotient, mul_comm]
  exact Nat.mul_le_mul_left _ ((roundHalfEven_le _ _).trans hbelow)

theorem spacing_dvd_nearest (units : ℕ) : spacing units ∣ nearest units 1 := by
  rw [nearest_one]
  exact Dvd.intro_left _ rfl

/-- A rounded number is a multiple of the spacing around itself. -/
theorem spacing_nearest_dvd (units : ℕ) : spacing (nearest units 1) ∣ nearest units 1 := by
  by_cases hzero : units = 0
  · subst hzero
    rw [nearest_eq_self (dvd_zero _)]
    exact dvd_zero _
  have hlower := two_pow_log2_le_nearest hzero
  have hpos : nearest units 1 ≠ 0 := by
    have := Nat.two_pow_pos units.log2
    omega
  rcases (nearest_le_two_pow units).lt_or_eq with hbelow | hpower
  · have hlog : (nearest units 1).log2 = units.log2 :=
      (Nat.log2_eq_iff hpos).mpr ⟨hlower, hbelow⟩
    rw [spacing_eq, hlog, ← spacing_eq]
    exact spacing_dvd_nearest units
  · rw [hpower, spacing_eq, Nat.log2_two_pow]
    exact pow_dvd_pow 2 (Nat.sub_le _ _)

theorem nearest_nearest (units : ℕ) : nearest (nearest units 1) 1 = nearest units 1 :=
  nearest_eq_self (spacing_nearest_dvd units)

theorem nearest_pos {num den : ℕ} (hden : 0 < den) (h : den ≤ num) : 0 < nearest num den := by
  let quotient := num / den
  have hquotient : quotient ≠ 0 := (Nat.div_pos h hden).ne'
  have hstep : spacing quotient ≤ quotient :=
    (Nat.le_of_dvd (by positivity) (spacing_dvd_two_pow_log2 quotient)).trans
      (Nat.log2_self_le hquotient)
  have hround : 0 < num / (den * spacing quotient) := by
    rw [← Nat.div_div_eq_div_mul]
    exact Nat.div_pos hstep (spacing_pos quotient)
  exact Nat.mul_pos (hround.trans_le (le_roundHalfEven _ _)) (spacing_pos quotient)

/-! ## Finite numbers -/

/-- One and the first magnitude that is too large are powers of two. -/
theorem scales_eq : unitsPerOne = 2 ^ 1074 ∧ overflow = 2 ^ 2098 := by decide +kernel

theorem pos_of_eq_two_pow {n exponent : ℕ} (h : n = 2 ^ exponent) : 0 < n := by
  rw [h]
  exact Nat.two_pow_pos exponent

theorem log2_of_eq_two_pow {n exponent : ℕ} (h : n = 2 ^ exponent) : n.log2 = exponent := by
  rw [h]
  exact Nat.log2_two_pow

theorem unitsPerOne_pos : 0 < unitsPerOne := pos_of_eq_two_pow scales_eq.1

theorem overflow_pos : 0 < overflow := pos_of_eq_two_pow scales_eq.2

theorem two_pow_log2_unitsPerOne : 2 ^ unitsPerOne.log2 = unitsPerOne := by
  rw [log2_of_eq_two_pow scales_eq.1]
  exact scales_eq.1.symm

/-- The first magnitude that is too large is less than the square of one. -/
theorem overflow_le_sq : overflow ≤ unitsPerOne * unitsPerOne := by
  have hle {m n : ℕ} (h : m ≤ n + n) (hm : overflow = 2 ^ m) (hn : unitsPerOne = 2 ^ n) :
      overflow ≤ unitsPerOne * unitsPerOne := by
    rw [hm, hn, ← pow_add]
    exact Nat.pow_le_pow_right two_pos h
  exact hle (by decide) scales_eq.2 scales_eq.1

theorem log2_mul_le (m n : ℕ) : (m * n).log2 ≤ m.log2 + n.log2 + 1 := by
  by_cases hzero : m * n = 0
  · rw [hzero, Nat.log2_zero]
    exact Nat.zero_le _
  have hproduct : m * n < 2 ^ (m.log2 + 1) * 2 ^ (n.log2 + 1) :=
    Nat.mul_lt_mul'' Nat.lt_log2_self Nat.lt_log2_self
  rw [← pow_add] at hproduct
  have := (Nat.log2_lt hzero).mpr hproduct
  omega

theorem fits_nearest {units : ℕ} (h : units.log2 + 1 < overflow.log2) :
    Fits (nearest units 1) := by
  refine ⟨?_, nearest_nearest units⟩
  calc
    nearest units 1 ≤ 2 ^ (units.log2 + 1) := nearest_le_two_pow units
    _ < 2 ^ overflow.log2 := Nat.pow_lt_pow_right one_lt_two h
    _ ≤ overflow := Nat.log2_self_le overflow_pos.ne'

/-- Every 64-bit word becomes a finite number without a sign. -/
theorem ofNat_eq_finite {n : ℕ} (h : n < 2 ^ 64) :
    ∃ fits, ofNat n = .finite false (nearest (n * unitsPerOne) 1) fits := by
  have hword : n.log2 < 64 := by
    by_cases hzero : n = 0
    · rw [hzero, Nat.log2_zero]
      exact Nat.zero_lt_succ _
    · exact (Nat.log2_lt hzero).mpr h
  have hscale : unitsPerOne.log2 + 66 < overflow.log2 := by
    rw [log2_of_eq_two_pow scales_eq.1, log2_of_eq_two_pow scales_eq.2]
    decide
  have hfits : Fits (nearest (n * unitsPerOne) 1) := by
    apply fits_nearest
    have := log2_mul_le n unitsPerOne
    omega
  exact ⟨hfits, by simp only [ofNat, ofRatio, ofUnits, dif_pos hfits]⟩

theorem fits_zero : Fits 0 := ⟨overflow_pos, nearest_eq_self (dvd_zero _)⟩

theorem ofUnits_zero (negative : Bool) : ofUnits negative 0 = .finite negative 0 fits_zero := by
  simp only [ofUnits, dif_pos fits_zero]

theorem zero_eq : zero = .finite false 0 fits_zero := ofUnits_zero false

/-- A finite number less itself is the zero without a sign. -/
theorem finite_sub_self (negative : Bool) (units : ℕ) (fits : Fits units) :
    (finite negative units fits).sub (.finite negative units fits) = zero := by
  cases negative <;> simp [sub, neg, add, signed, zero]

/-! ## Positive numbers -/

theorem zero_lt_ofUnits {units : ℕ} (h : 0 < units) : zero.lt (ofUnits false units) = true := by
  rw [zero_eq]
  unfold ofUnits
  split
  · simpa [lt, signed] using h
  · rfl

/-- A number that has no sign and is not none. -/
def Unsigned (x : Binary64) : Prop :=
  x = .infinite false ∨ ∃ units fits, x = .finite false units fits

theorem unsigned_ofUnits (units : ℕ) : (ofUnits false units).Unsigned := by
  unfold ofUnits
  split
  · exact .inr ⟨units, _, rfl⟩
  · exact .inl rfl

theorem unsigned_ofNat (n : ℕ) : (ofNat n).Unsigned := by
  rw [ofNat, ofRatio]
  exact unsigned_ofUnits _

theorem zero_lt_infinite : zero.lt (.infinite false) = true := by rw [zero_eq, lt]; rfl

theorem zero_lt_finite_iff {units : ℕ} {fits : Fits units} :
    zero.lt (.finite false units fits) = true ↔ 0 < units := by
  rw [zero_eq]
  simp [lt, signed]

/-- A positive number is infinite or has units, and in both cases no sign. -/
theorem zero_lt_iff {x : Binary64} :
    zero.lt x = true ↔
      x = .infinite false ∨ ∃ units fits, 0 < units ∧ x = .finite false units fits := by
  rw [zero_eq]
  constructor
  · intro h
    match x with
    | .nan _ _ => exact absurd h (by simp [lt])
    | .infinite true => exact absurd h (by simp [lt])
    | .infinite false => exact .inl rfl
    | .finite true units fits => exact absurd h (by simp [lt, signed])
    | .finite false units fits => exact .inr ⟨units, fits, by simpa [lt, signed] using h, rfl⟩
  · rintro (rfl | ⟨units, fits, hpos, rfl⟩)
    · rfl
    · simpa [lt, signed] using hpos

/-- Zero divided by a positive number is zero. -/
theorem zero_div {x : Binary64} (h : zero.lt x = true) : zero.div x = zero := by
  obtain rfl | ⟨units, fits, hpos, rfl⟩ := zero_lt_iff.mp h
  · rw [zero_eq]
    simp only [div, bne_self_eq_false, ofUnits_zero]
  · have hnearest : nearest (0 * unitsPerOne) units = 0 := by
      rw [zero_mul]
      simp [nearest, roundHalfEven, hpos, spacing_pos]
    rw [zero_eq]
    simp only [div, hpos.ne', if_false, hnearest, bne_self_eq_false, ofUnits_zero]

theorem zero_lt_ofNat {n : ℕ} (h : 0 < n) : zero.lt (ofNat n) = true := by
  rw [ofNat, ofRatio]
  exact zero_lt_ofUnits (nearest_pos one_pos (Nat.mul_pos h unitsPerOne_pos))

theorem zero_lt_finite_add {u v : ℕ} {hu : Fits u} {hv : Fits v} (h : 0 < u + v) :
    zero.lt ((finite false u hu).add (.finite false v hv)) = true := by
  have hsum : signed false u + signed false v = ((u + v : ℕ) : ℤ) := by simp [signed]
  have hne : ((u + v : ℕ) : ℤ) ≠ 0 := by exact_mod_cast h.ne'
  have hsign : decide (((u + v : ℕ) : ℤ) < 0) = false := by
    simp only [decide_eq_false_iff_not, not_lt]
    exact Int.natCast_nonneg _
  simp only [add, hsum, if_neg hne, hsign, Int.natAbs_natCast]
  exact zero_lt_ofUnits (nearest_pos one_pos h)

/-- A sum of numbers without a sign is positive if one of them is. -/
theorem zero_lt_add {x y : Binary64} (hx : x.Unsigned) (hy : y.Unsigned)
    (h : zero.lt x = true ∨ zero.lt y = true) : zero.lt (x.add y) = true := by
  obtain rfl | ⟨u, hu, rfl⟩ := hx
  · obtain rfl | ⟨v, hv, rfl⟩ := hy <;> exact zero_lt_infinite
  obtain rfl | ⟨v, hv, rfl⟩ := hy
  · exact zero_lt_infinite
  · rw [zero_lt_finite_iff, zero_lt_finite_iff] at h
    exact zero_lt_finite_add (by omega)

/-- The quotient of a number that is at least one by a finite positive number is positive. -/
theorem zero_lt_finite_div {u v : ℕ} {hu : Fits u} {hv : Fits v} (hone : unitsPerOne ≤ u)
    (hpos : 0 < v) : zero.lt ((finite false u hu).div (.finite false v hv)) = true := by
  have hbound : v ≤ u * unitsPerOne :=
    hv.1.le.trans (overflow_le_sq.trans (Nat.mul_le_mul_right _ hone))
  simp only [div, hpos.ne', if_false, bne_self_eq_false]
  exact zero_lt_ofUnits (nearest_pos hpos hbound)

/-- A positive multiple of a power of two is not rounded below that power. -/
theorem le_nearest_mul {n scale : ℕ} (h : 0 < n) (hpower : 2 ^ scale.log2 = scale)
    (hscale : 0 < scale) : scale ≤ nearest (n * scale) 1 := by
  have hpos : n * scale ≠ 0 := (Nat.mul_pos h hscale).ne'
  have hlog : scale.log2 ≤ (n * scale).log2 := by
    rw [Nat.le_log2 hpos, hpower]
    exact Nat.le_mul_of_pos_left _ h
  calc
    scale = 2 ^ scale.log2 := hpower.symm
    _ ≤ 2 ^ (n * scale).log2 := Nat.pow_le_pow_right two_pos hlog
    _ ≤ nearest (n * scale) 1 := two_pow_log2_le_nearest hpos

/-- The quotient of words has no sign. -/
theorem unsigned_ofNat_div {m n : ℕ} (hm64 : m < 2 ^ 64) (hn : 0 < n) (hn64 : n < 2 ^ 64) :
    ((ofNat m).div (ofNat n)).Unsigned := by
  obtain ⟨hfm, hofm⟩ := ofNat_eq_finite hm64
  obtain ⟨hfn, hofn⟩ := ofNat_eq_finite hn64
  have hpos := unitsPerOne_pos.trans_le (le_nearest_mul hn two_pow_log2_unitsPerOne unitsPerOne_pos)
  rw [hofm, hofn]
  simp only [div, hpos.ne', if_false, bne_self_eq_false]
  exact unsigned_ofUnits _

/-- The quotient of a positive word by a positive word is positive. -/
theorem zero_lt_ofNat_div {m n : ℕ} (hm : 0 < m) (hm64 : m < 2 ^ 64) (hn : 0 < n)
    (hn64 : n < 2 ^ 64) : zero.lt ((ofNat m).div (ofNat n)) = true := by
  obtain ⟨hfm, hofm⟩ := ofNat_eq_finite hm64
  obtain ⟨hfn, hofn⟩ := ofNat_eq_finite hn64
  have hone := le_nearest_mul hm two_pow_log2_unitsPerOne unitsPerOne_pos
  have hpos := le_nearest_mul hn two_pow_log2_unitsPerOne unitsPerOne_pos
  rw [hofm, hofn]
  exact zero_lt_finite_div hone (unitsPerOne_pos.trans_le hpos)

end Binary64

end BlockWatch
