import BlockWatch.Proofs.Number.Rounding
import Mathlib.Tactic.Linarith

/-!
# What rounds to a finite number

A quotient rounds to a finite number exactly if it lies below `threshold`, which is halfway between
the largest finite number and the first power of two that is too large. Rounding keeps the order and
at most doubles a number.
-/

namespace BlockWatch

theorem roundHalfEven_mono {a b den : ℕ} (h : a ≤ b) :
    roundHalfEven a den ≤ roundHalfEven b den := by
  rcases (Nat.div_le_div_right (c := den) h).lt_or_eq with hlt | heq
  · calc
      roundHalfEven a den ≤ a / den + 1 := roundHalfEven_le a den
      _ ≤ b / den := hlt
      _ ≤ roundHalfEven b den := le_roundHalfEven b den
  · have hrest : a % den ≤ b % den := by
      have ha := Nat.div_add_mod a den
      have hb := Nat.div_add_mod b den
      rw [heq] at ha
      omega
    have hparity := Nat.mod_lt (b / den) two_pos
    dsimp only [roundHalfEven]
    rw [heq]
    split_ifs <;> omega

/-- A common factor does not matter. -/
theorem roundHalfEven_mul_right (num den : ℕ) {k : ℕ} (hk : 0 < k) :
    roundHalfEven (num * k) (den * k) = roundHalfEven num den := by
  have hquotient : num * k / (den * k) = num / den := Nat.mul_div_mul_right num den hk
  have hrest : 2 * (num * k % (den * k)) = 2 * (num % den) * k := by
    rw [Nat.mul_mod_mul_right, mul_assoc]
  dsimp only [roundHalfEven]
  rw [hquotient, hrest]
  simp only [Nat.mul_lt_mul_right hk]

/-- Below the middle between a whole number and the next one nothing rounds to the next one. -/
theorem roundHalfEven_le_of_lt {num den k : ℕ} (h : 2 * num < (2 * k + 1) * den) :
    roundHalfEven num den ≤ k := by
  have hsplit := Nat.div_add_mod num den
  have hden : 0 < den := Nat.pos_of_ne_zero fun hzero ↦ by simp [hzero] at h
  have hquotient : num / den ≤ k := by
    rw [← Nat.lt_succ_iff, Nat.div_lt_iff_lt_mul hden, Nat.succ_eq_add_one]
    nlinarith
  rcases hquotient.lt_or_eq with hlt | heq
  · exact (roundHalfEven_le num den).trans hlt
  · have hrest : 2 * (num % den) < den := by
      rw [heq] at hsplit
      nlinarith
    dsimp only [roundHalfEven]
    rw [if_pos hrest]
    exact hquotient

/-- From the middle between an odd number and the next one on everything rounds to the next one. -/
theorem lt_roundHalfEven {num den k : ℕ} (hden : 0 < den) (hodd : k % 2 = 1)
    (h : (2 * k + 1) * den ≤ 2 * num) : k < roundHalfEven num den := by
  have hsplit := Nat.div_add_mod num den
  have hrest := Nat.mod_lt num hden
  have hquotient : k ≤ num / den := by
    rw [Nat.le_div_iff_mul_le hden]
    nlinarith
  rcases hquotient.lt_or_eq with hlt | heq
  · exact hlt.trans_le (le_roundHalfEven num den)
  · have hmiddle : den ≤ 2 * (num % den) := by
      rw [← heq] at hsplit
      nlinarith
    dsimp only [roundHalfEven]
    rw [← heq]
    split_ifs <;> omega

namespace Binary64

/-! ## Rounding quotients -/

theorem nearest_eq (num den : ℕ) : nearest num den =
    roundHalfEven num (den * spacing (num / den)) * spacing (num / den) := rfl

theorem nearest_mul_right (num den : ℕ) {k : ℕ} (hk : 0 < k) :
    nearest (num * k) (den * k) = nearest num den := by
  rw [nearest_eq, nearest_eq, Nat.mul_div_mul_right num den hk, mul_right_comm den k,
    roundHalfEven_mul_right _ _ hk]

theorem log2_mono {a b : ℕ} (h : a ≤ b) : a.log2 ≤ b.log2 := by
  by_cases hzero : a = 0
  · rw [hzero, Nat.log2_zero]
    exact Nat.zero_le _
  · have hb : b ≠ 0 := ((Nat.pos_of_ne_zero hzero).trans_le h).ne'
    exact (Nat.le_log2 hb).mpr ((Nat.log2_self_le hzero).trans h)

theorem spacing_mono {a b : ℕ} (h : a ≤ b) : spacing a ≤ spacing b := by
  rw [spacing_eq, spacing_eq]
  exact Nat.pow_le_pow_right two_pos (Nat.sub_le_sub_right (log2_mono h) 52)

theorem nearest_mono {a b : ℕ} (h : a ≤ b) : nearest a 1 ≤ nearest b 1 := by
  by_cases hzero : a = 0
  · rw [hzero, nearest_eq_self (dvd_zero _)]
    exact Nat.zero_le _
  have hb : b ≠ 0 := ((Nat.pos_of_ne_zero hzero).trans_le h).ne'
  rcases (log2_mono h).lt_or_eq with hlt | heq
  · calc
      nearest a 1 ≤ 2 ^ (a.log2 + 1) := nearest_le_two_pow a
      _ ≤ 2 ^ b.log2 := Nat.pow_le_pow_right two_pos hlt
      _ ≤ nearest b 1 := two_pow_log2_le_nearest hb
  · rw [nearest_one, nearest_one, spacing_eq, spacing_eq, heq]
    exact Nat.mul_le_mul_right _ (roundHalfEven_mono h)

theorem nearest_le_two_mul (units : ℕ) : nearest units 1 ≤ 2 * units := by
  by_cases hzero : units = 0
  · rw [hzero, nearest_eq_self (dvd_zero _)]
    exact Nat.zero_le _
  calc
    nearest units 1 ≤ 2 ^ (units.log2 + 1) := nearest_le_two_pow units
    _ = 2 * 2 ^ units.log2 := Nat.pow_succ'
    _ ≤ 2 * units := Nat.mul_le_mul_left 2 (Nat.log2_self_le hzero)

/-- A rounded quotient lies between the powers of two around the quotient. -/
theorem nearest_quotient_bounds {num den : ℕ} (h : num / den ≠ 0) :
    2 ^ (num / den).log2 ≤ nearest num den ∧ nearest num den ≤ 2 ^ ((num / den).log2 + 1) := by
  have hstep := spacing_pos (num / den)
  have hdvd := spacing_dvd_two_pow_log2 (num / den)
  have hquotient : num / (den * spacing (num / den)) = num / den / spacing (num / den) :=
    (Nat.div_div_eq_div_mul _ _ _).symm
  constructor
  · calc
      2 ^ (num / den).log2 =
          2 ^ (num / den).log2 / spacing (num / den) * spacing (num / den) :=
        (Nat.div_mul_cancel hdvd).symm
      _ ≤ num / den / spacing (num / den) * spacing (num / den) :=
        Nat.mul_le_mul_right _ (Nat.div_le_div_right (Nat.log2_self_le h))
      _ ≤ nearest num den := by
        rw [nearest_eq, ← hquotient]
        exact Nat.mul_le_mul_right _ (le_roundHalfEven _ _)
  · obtain ⟨quotient, heq⟩ := hdvd.trans (pow_dvd_pow 2 (Nat.le_succ _))
    have hbelow : num / den / spacing (num / den) < quotient := by
      rw [Nat.div_lt_iff_lt_mul hstep, mul_comm, ← heq]
      exact Nat.lt_log2_self
    rw [nearest_eq, heq, mul_comm]
    exact Nat.mul_le_mul_left _ ((roundHalfEven_le _ _).trans (by rwa [hquotient]))

/-- Rounding leaves a rounded quotient alone. -/
theorem nearest_nearest_quotient (num den : ℕ) :
    nearest (nearest num den) 1 = nearest num den := by
  apply nearest_eq_self
  by_cases hzero : num / den = 0
  · have hone : spacing (num / den) = 1 := by rw [hzero]; rfl
    have hle : nearest num den ≤ 1 := by
      rw [nearest_eq, hone, mul_one, mul_one]
      exact (roundHalfEven_le num den).trans (by rw [hzero])
    have hspacing : spacing (nearest num den) = 1 := by
      rcases Nat.le_one_iff_eq_zero_or_eq_one.mp hle with h | h <;> rw [h] <;> rfl
    rw [hspacing]
    exact one_dvd _
  obtain ⟨hlower, hupper⟩ := nearest_quotient_bounds hzero
  have hpos : nearest num den ≠ 0 := ((Nat.two_pow_pos _).trans_le hlower).ne'
  rcases hupper.lt_or_eq with hlt | heq
  · have hlog : (nearest num den).log2 = (num / den).log2 :=
      (Nat.log2_eq_iff hpos).mpr ⟨hlower, hlt⟩
    rw [spacing_eq, hlog, ← spacing_eq, nearest_eq]
    exact Dvd.intro_left _ rfl
  · rw [heq, spacing_eq, Nat.log2_two_pow]
    exact pow_dvd_pow 2 (Nat.sub_le _ _)

/-! ## The threshold -/

/-- Halfway between the largest finite number and the power of two above it, in units. -/
def threshold : ℕ := Nat.pow 2 2044 * (Nat.pow 2 54 - 1)

/-- The distance between the largest finite numbers. -/
def lastSpacing : ℕ := spacing (overflow - 1)

theorem threshold_eq : 2 * threshold = (2 * (2 ^ 53 - 1) + 1) * lastSpacing := by decide +kernel

theorem log2_overflow : overflow.log2 = 2097 + 1 := by
  rw [log2_of_eq_two_pow scales_eq.2]

theorem two_pow_log2_overflow : 2 ^ overflow.log2 = overflow := by
  rw [log2_of_eq_two_pow scales_eq.2]
  exact scales_eq.2.symm

theorem log2_sub_one_of_eq_two_pow {n exponent k : ℕ} (h : n = 2 ^ exponent)
    (hexponent : exponent = k + 1) : (n - 1).log2 = k := by
  rw [hexponent, Nat.pow_succ'] at h
  have hpos := Nat.two_pow_pos k
  exact (Nat.log2_eq_iff (by omega)).mpr ⟨by omega, by rw [Nat.pow_succ']; omega⟩

theorem log2_overflow_sub_one : (overflow - 1).log2 = 2097 :=
  log2_sub_one_of_eq_two_pow scales_eq.2 rfl

theorem lastSpacing_pos : 0 < lastSpacing := spacing_pos _

theorem overflow_eq : overflow = 2 ^ 53 * lastSpacing := by
  have hsum : 53 + (2097 - 52) = 2098 := rfl
  rw [lastSpacing, spacing_eq, log2_overflow_sub_one, ← pow_add, hsum]
  exact scales_eq.2

theorem overflow_le_two_mul_threshold : overflow ≤ 2 * threshold := by
  rw [overflow_eq, threshold_eq]
  exact Nat.mul_le_mul_right _ (by decide)

theorem threshold_lt_overflow : threshold < overflow := by
  have hdouble : 2 * threshold < 2 * overflow := by
    rw [threshold_eq, overflow_eq, ← mul_assoc]
    exact Nat.mul_lt_mul_of_pos_right (by decide) lastSpacing_pos
  exact Nat.lt_of_mul_lt_mul_left hdouble

theorem spacing_of_log2 {units : ℕ} (h : units.log2 = 2097) : spacing units = lastSpacing := by
  rw [lastSpacing, spacing_eq, spacing_eq, h, log2_overflow_sub_one]

theorem nearest_lt_of_log2_lt {num den : ℕ} (hzero : num / den ≠ 0)
    (h : (num / den).log2 + 1 < overflow.log2) : nearest num den < overflow :=
  calc
    nearest num den ≤ 2 ^ ((num / den).log2 + 1) := (nearest_quotient_bounds hzero).2
    _ < 2 ^ overflow.log2 := Nat.pow_lt_pow_right one_lt_two h
    _ ≤ overflow := Nat.log2_self_le overflow_pos.ne'

theorem log2_lt_of_lt_overflow {units : ℕ} (hzero : units ≠ 0) (h : units < overflow) :
    units.log2 < overflow.log2 := by
  rwa [Nat.log2_lt hzero, two_pow_log2_overflow]

/-- A number that is at least half of a power of two. -/
theorem le_log2_of_le_two_mul {n units k : ℕ} (hn : n.log2 = k + 1) (h : n ≤ 2 * units)
    (hzero : units ≠ 0) : k ≤ units.log2 := by
  have hpos : n ≠ 0 := by
    rintro rfl
    cases hn
  have hdouble : 2 ^ (k + 1) ≤ 2 * units := hn ▸ (Nat.log2_self_le hpos).trans h
  rw [Nat.pow_succ'] at hdouble
  exact (Nat.le_log2 hzero).mpr (Nat.le_of_mul_le_mul_left hdouble two_pos)

theorem nearest_lt_overflow {num den : ℕ} (hden : 0 < den) (h : num < threshold * den) :
    nearest num den < overflow := by
  by_cases hzero : num / den = 0
  · have hone : spacing (num / den) = 1 := by rw [hzero]; rfl
    have hlarge : 1 < overflow := by
      rw [overflow_eq]
      exact Nat.lt_of_lt_of_le (by decide) (Nat.le_mul_of_pos_right _ lastSpacing_pos)
    rw [nearest_eq, hone, mul_one, mul_one]
    exact (roundHalfEven_le num den).trans_lt (by rwa [hzero])
  have hquotient : num / den < threshold := (Nat.div_lt_iff_lt_mul hden).mpr h
  have hlog := log2_lt_of_lt_overflow hzero (hquotient.trans threshold_lt_overflow)
  rcases (Nat.succ_le_of_lt hlog).lt_or_eq with hlt | heq
  · exact nearest_lt_of_log2_lt hzero hlt
  · have hspacing : spacing (num / den) = lastSpacing := by
      apply spacing_of_log2
      rw [log2_overflow] at heq
      omega
    have hround : roundHalfEven num (den * lastSpacing) ≤ 2 ^ 53 - 1 := by
      apply roundHalfEven_le_of_lt
      calc
        2 * num < 2 * (threshold * den) := Nat.mul_lt_mul_of_pos_left h two_pos
        _ = 2 * threshold * den := (mul_assoc _ _ _).symm
        _ = (2 * (2 ^ 53 - 1) + 1) * (den * lastSpacing) := by
          rw [threshold_eq, mul_assoc, mul_comm lastSpacing]
    rw [nearest_eq, hspacing, overflow_eq]
    exact Nat.mul_lt_mul_of_pos_right (hround.trans_lt (by decide)) lastSpacing_pos

theorem lt_threshold_of_nearest_lt {units : ℕ} (h : nearest units 1 < overflow) :
    units < threshold := by
  by_contra hge
  rw [not_lt] at hge
  have hzero : units ≠ 0 := by
    rintro rfl
    have := overflow_le_two_mul_threshold
    have := overflow_pos
    omega
  have hlog : units.log2 = 2097 := by
    have hlow : 2097 ≤ units.log2 :=
      le_log2_of_le_two_mul log2_overflow
        (overflow_le_two_mul_threshold.trans (Nat.mul_le_mul_left 2 hge)) hzero
    have hhigh : units.log2 < overflow.log2 := by
      have hunits : nearest units 1 ≠ 0 :=
        ((Nat.two_pow_pos _).trans_le (two_pow_log2_le_nearest hzero)).ne'
      calc
        units.log2 ≤ (nearest units 1).log2 :=
          (Nat.le_log2 hunits).mpr (two_pow_log2_le_nearest hzero)
        _ < overflow.log2 := log2_lt_of_lt_overflow hunits h
    rw [log2_overflow] at hhigh
    omega
  have hround : 2 ^ 53 - 1 < roundHalfEven units lastSpacing := by
    apply lt_roundHalfEven lastSpacing_pos (by decide)
    rw [← threshold_eq]
    exact Nat.mul_le_mul_left 2 hge
  rw [nearest_one, spacing_of_log2 hlog, overflow_eq] at h
  have := Nat.lt_of_mul_lt_mul_right h
  omega

/-- Below the threshold a quotient rounds to a number of the format. -/
theorem fits_nearest_of_lt {num den : ℕ} (hden : 0 < den) (h : num < threshold * den) :
    Fits (nearest num den) :=
  ⟨nearest_lt_overflow hden h, nearest_nearest_quotient num den⟩

/-- The quotient of a number of the format by a finite one that is at least one. -/
theorem fits_nearest_div {u v : ℕ} (hu : Fits u) (hone : unitsPerOne ≤ v) :
    Fits (nearest (u * unitsPerOne) v) := by
  have hpos : 0 < v := unitsPerOne_pos.trans_le hone
  have hbelow : u < threshold := lt_threshold_of_nearest_lt (hu.2.trans_lt hu.1)
  exact fits_nearest_of_lt hpos (Nat.mul_lt_mul_of_lt_of_le hbelow hone hpos)

end Binary64

end BlockWatch
