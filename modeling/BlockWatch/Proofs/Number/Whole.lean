import BlockWatch.Proofs.Number.Threshold

/-!
# Whole numbers in floating point

A whole number is rounded to 53 significant bits, which moves it by at most half of the distance
between its neighbours. So two whole numbers become the same floating point number only past
`2 ^ 53`, and only if they lie no further apart than that distance. If they become different
numbers, their difference is finite and at least one.
-/

namespace BlockWatch

/-! ## The error of rounding -/

/-- Rounding moves a quotient by at most one half. -/
theorem roundHalfEven_bounds (num : ℕ) {den : ℕ} (hden : 0 < den) :
    2 * (roundHalfEven num den * den) ≤ 2 * num + den ∧
      2 * num ≤ 2 * (roundHalfEven num den * den) + den := by
  have hsplit := Nat.div_add_mod' num den
  have hrest := Nat.mod_lt num hden
  dsimp only [roundHalfEven]
  split_ifs with hlow hhigh
  · omega
  · rw [Nat.add_mul, Nat.one_mul]
    omega
  · rw [Nat.add_mul]
    rcases Nat.mod_two_eq_zero_or_one (num / den) with hparity | hparity
    all_goals
      rw [hparity]
      omega

namespace Binary64

/-- Numbers that are rounded to the same one lie no further apart than the neighbours of the
greater one. -/
theorem le_add_spacing_of_nearest_eq {a b : ℕ} (hab : a ≤ b) (h : nearest a 1 = nearest b 1) :
    b ≤ a + spacing b := by
  have ha := (roundHalfEven_bounds a (spacing_pos a)).1
  have hb := (roundHalfEven_bounds b (spacing_pos b)).2
  have hspacing := spacing_mono hab
  rw [nearest_one, nearest_one] at h
  omega

/-- Numbers of at most 53 bits are not changed. -/
theorem nearest_of_le {n : ℕ} (h : n ≤ 2 ^ 53) : nearest n 1 = n := by
  apply nearest_eq_self
  rcases h.lt_or_eq with hlt | rfl
  · have hlog : n.log2 - 52 = 0 := by
      by_cases hzero : n = 0
      · rw [hzero, Nat.log2_zero]
      · have := (Nat.log2_lt hzero).mpr hlt
        omega
    rw [spacing_eq, hlog]
    exact one_dvd n
  · decide

/-- Different numbers that are rounded to the same one need more than 53 bits. -/
theorem two_pow_lt_of_nearest_eq {a b : ℕ} (hab : a < b) (h : nearest a 1 = nearest b 1) :
    2 ^ 53 < b := by
  by_contra hsmall
  rw [not_lt] at hsmall
  rw [nearest_of_le hsmall, nearest_of_le (hab.le.trans hsmall)] at h
  exact hab.ne h

/-! ## Words as numbers of units -/

/-- A large power of two in front changes nothing about the rounding. -/
theorem nearest_mul_of_eq_two_pow {scale exponent : ℕ} (hscale : scale = 2 ^ exponent)
    (hlarge : 52 ≤ exponent) (n : ℕ) : nearest (n * scale) 1 = nearest n 1 * scale := by
  have hpos := pos_of_eq_two_pow hscale
  by_cases hzero : n = 0
  · rw [hzero, zero_mul, nearest_eq_self (dvd_zero _), zero_mul]
  have hlog : (n * scale).log2 = n.log2 + exponent := by
    apply (Nat.log2_eq_iff (Nat.mul_ne_zero hzero hpos.ne')).mpr
    constructor
    · rw [pow_add, ← hscale]
      exact Nat.mul_le_mul_right _ (Nat.log2_self_le hzero)
    · rw [Nat.add_right_comm, pow_add, ← hscale]
      exact Nat.mul_lt_mul_of_pos_right Nat.lt_log2_self hpos
  by_cases hbits : n.log2 < 52
  · have hsmall : n ≤ 2 ^ 53 :=
      (Nat.lt_log2_self (n := n)).le.trans (Nat.pow_le_pow_right two_pos (by omega))
    have hspacing : spacing (n * scale) ∣ scale := by
      rw [spacing_eq, hlog, hscale]
      exact pow_dvd_pow 2 (by omega)
    rw [nearest_of_le hsmall, nearest_eq_self (hspacing.mul_left n)]
  · have hspacing : spacing (n * scale) = spacing n * scale := by
      rw [spacing_eq, spacing_eq, hlog, hscale, ← pow_add]
      congr 1
      omega
    rw [nearest_one, nearest_one, hspacing, roundHalfEven_mul_right n (spacing n) hpos, mul_assoc]

theorem nearest_mul_unitsPerOne (n : ℕ) :
    nearest (n * unitsPerOne) 1 = nearest n 1 * unitsPerOne :=
  nearest_mul_of_eq_two_pow scales_eq.1 (by decide) n

/-- A word becomes what it is rounded to. -/
theorem exists_ofNat {n : ℕ} (h : n < 2 ^ 64) :
    ∃ fits, ofNat n = .finite false (nearest n 1 * unitsPerOne) fits := by
  rw [← nearest_mul_unitsPerOne]
  exact ofNat_eq_finite h

theorem nearest_word_le {n : ℕ} (h : n < 2 ^ 64) : nearest n 1 ≤ 2 ^ 65 := by
  have := nearest_le_two_mul n
  omega

/-- There is room for sums and quotients of a few words. -/
theorem lt_threshold_of_le {units : ℕ} (h : units ≤ 2 ^ 70 * unitsPerOne) : units < threshold :=
  h.trans_lt (by decide +kernel)

/-- Words that are rounded to the same number have no difference. -/
theorem ofNat_sub_of_nearest_eq {a b : ℕ} (ha : a < 2 ^ 64) (hb : b < 2 ^ 64)
    (h : nearest a 1 = nearest b 1) : (ofNat b).sub (ofNat a) = zero := by
  obtain ⟨hfa, hofa⟩ := exists_ofNat ha
  obtain ⟨hfb, hofb⟩ := exists_ofNat hb
  simp only [hofa, hofb, h]
  exact finite_sub_self _ _ _

theorem finite_sub_of_lt {u v : ℕ} {hu : Fits u} {hv : Fits v} (h : u < v) :
    (finite false v hv).sub (.finite false u hu) = ofUnits false (nearest (v - u) 1) := by
  have hsum : signed false v + signed (!false) u = ((v - u : ℕ) : ℤ) := by
    simp only [signed, Bool.not_false, Bool.false_eq_true, if_false, if_true]
    omega
  have hne : ((v - u : ℕ) : ℤ) ≠ 0 := by omega
  have hsign : decide (((v - u : ℕ) : ℤ) < 0) = false := by simp
  simp only [sub, neg, add, hsum, if_neg hne, hsign, Int.natAbs_natCast]

/-- Words that are rounded to different numbers differ by at least one. -/
theorem exists_ofNat_sub {a b : ℕ} (ha : a < 2 ^ 64) (hb : b < 2 ^ 64)
    (h : nearest a 1 < nearest b 1) : ∃ units fits, unitsPerOne ≤ units ∧
      (ofNat b).sub (ofNat a) = .finite false units fits := by
  obtain ⟨hfa, hofa⟩ := exists_ofNat ha
  obtain ⟨hfb, hofb⟩ := exists_ofNat hb
  have hpos : 0 < nearest b 1 - nearest a 1 := Nat.sub_pos_of_lt h
  have hword : nearest b 1 - nearest a 1 ≤ 2 ^ 70 :=
    (Nat.sub_le _ _).trans ((nearest_word_le hb).trans (by decide))
  have fits : Fits (nearest ((nearest b 1 - nearest a 1) * unitsPerOne) 1) := by
    apply fits_nearest_of_lt one_pos
    rw [mul_one]
    exact lt_threshold_of_le (Nat.mul_le_mul_right _ hword)
  refine ⟨_, fits, le_nearest_mul hpos two_pow_log2_unitsPerOne unitsPerOne_pos, ?_⟩
  rw [hofa, hofb, finite_sub_of_lt (Nat.mul_lt_mul_of_pos_right h unitsPerOne_pos),
    ← Nat.sub_mul, ofUnits, dif_pos fits]

/-! ## Sums and quotients that stay finite -/

theorem exists_add {u v : ℕ} (hu : Fits u) (hv : Fits v) (h : u + v < threshold) :
    ∃ units fits, (finite false u hu).add (.finite false v hv) = .finite false units fits := by
  have hsum : signed false u + signed false v = ((u + v : ℕ) : ℤ) := by simp [signed]
  have hsign : decide (((u + v : ℕ) : ℤ) < 0) = false := by
    rw [decide_eq_false_iff_not, not_lt]
    exact Int.natCast_nonneg _
  have fits : Fits (nearest (u + v) 1) :=
    fits_nearest_of_lt one_pos (by rwa [mul_one])
  simp only [add, hsum]
  split_ifs
  · exact ⟨0, fits_zero, ofUnits_zero _⟩
  · rw [hsign, Int.natAbs_natCast, ofUnits, dif_pos fits]
    exact ⟨_, fits, rfl⟩

theorem nearest_le_two_mul_add_one (num den : ℕ) : nearest num den ≤ 2 * (num / den) + 1 := by
  by_cases hzero : num / den = 0
  · have hspacing : spacing (num / den) = 1 := by rw [hzero]; rfl
    rw [nearest_eq, hspacing, mul_one, mul_one]
    have := roundHalfEven_le num den
    omega
  · have hupper := (nearest_quotient_bounds hzero).2
    have hlower := Nat.log2_self_le hzero
    rw [pow_succ] at hupper
    omega

/-- The quotient by a number that is at least one. -/
theorem exists_div {u v : ℕ} (hu : Fits u) (hv : Fits v) (hone : unitsPerOne ≤ v) :
    ∃ units fits, units ≤ 2 * u + 1 ∧
      (finite false u hu).div (.finite false v hv) = .finite false units fits := by
  have hpos : 0 < v := unitsPerOne_pos.trans_le hone
  have hquotient : u * unitsPerOne / v ≤ u := by
    apply Nat.div_le_of_le_mul
    rw [mul_comm v u]
    exact Nat.mul_le_mul_left u hone
  have hbound := nearest_le_two_mul_add_one (u * unitsPerOne) v
  refine ⟨_, fits_nearest_div hu hone, by omega, ?_⟩
  simp only [div, hpos.ne', if_false, bne_self_eq_false, ofUnits,
    dif_pos (fits_nearest_div hu hone)]

end Binary64

end BlockWatch
