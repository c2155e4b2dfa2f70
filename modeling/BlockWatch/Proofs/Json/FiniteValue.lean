import BlockWatch.Proofs.Json.Scaling

/-!
# Read numbers are finite

Whatever digits a number has, what is read of it is no infinite number: scaling up is refused where
the product is too large, and scaling down divides by numbers that are at least one.
-/

namespace BlockWatch

namespace Binary64

theorem isFinite_neg (x : Binary64) : x.neg.isFinite = x.isFinite := by cases x <;> rfl

theorem isFinite_zero (negative : Bool) : (ofUnits negative 0).isFinite = true := by
  rw [ofUnits_zero]
  rfl

theorem isFinite_ofNat {n : ℕ} (h : n < 2 ^ 64) : (ofNat n).isFinite = true := by
  obtain ⟨fits, hfinite⟩ := ofNat_eq_finite h
  rw [hfinite]
  rfl

/-- The quotient by a number that is at least one. -/
theorem isFinite_div {x : Binary64} (hx : x.isFinite = true) {v : ℕ} (fits : Fits v)
    (hone : unitsPerOne ≤ v) : (x.div (.finite false v fits)).isFinite = true := by
  cases x with
  | nan | infinite => cases hx
  | finite negative u fitsu =>
    have hpos : 0 < v := unitsPerOne_pos.trans_le hone
    rw [div, if_neg hpos.ne', ofUnits, dif_pos (fits_nearest_div fitsu hone)]
    rfl

end Binary64

namespace Json.NumberText

open Binary64 (unitsPerOne nearest threshold)

theorem power_eq_finite {exponent : ℕ} (h : exponent ≤ 308) :
    ∃ v fits, power exponent = .finite false v fits ∧ unitsPerOne ≤ v := by
  obtain ⟨fits, hpower⟩ := power_eq_nearest h
  exact ⟨_, fits, hpower, Binary64.le_nearest_mul (tens_pos exponent)
    Binary64.two_pow_log2_unitsPerOne Binary64.unitsPerOne_pos⟩

theorem isFinite_scaleDown {x : Binary64} (hx : x.isFinite = true) (exponent : ℕ) :
    (scaleDown x exponent).isFinite = true := by
  induction x, exponent using scaleDown.induct with
  | case1 x exponent hlast =>
    obtain ⟨v, fits, hpower, hone⟩ := power_eq_finite hlast
    rw [scaleDown, if_pos hlast, hpower]
    exact Binary64.isFinite_div hx fits hone
  | case2 x exponent hmore hzero =>
    rw [scaleDown, if_neg hmore, if_pos hzero]
    exact hx
  | case3 x exponent hmore hzero ih =>
    obtain ⟨v, fits, hpower, hone⟩ := power_eq_finite (le_refl 308)
    rw [scaleDown, if_neg hmore, if_neg hzero]
    apply ih
    rw [hpower]
    exact Binary64.isFinite_div hx fits hone

theorem isFinite_signed {x : Binary64} (h : x.isFinite = true) (negative : Bool) :
    (if negative then x.neg else x).isFinite = true := by
  cases negative with
  | false => exact h
  | true => exact (Binary64.isFinite_neg x).trans h

theorem isFinite_of_scaled? {negative : Bool} {word : ℕ} (hword : word < 2 ^ 64) {exponent : ℤ}
    {x : Binary64} (h : scaled? negative word exponent = some x) : x.isFinite = true := by
  have hfinite := Binary64.isFinite_ofNat hword
  unfold scaled? at h
  cases exponent with
  | ofNat up =>
    simp only at h
    by_cases hsmall : up ≤ 308
    · rw [if_pos hsmall] at h
      obtain ⟨hproduct, hx⟩ := Option.ite_none_right_eq_some.mp h
      rw [← Option.some.inj hx]
      exact isFinite_signed hproduct negative
    · rw [if_neg hsmall] at h
      obtain ⟨-, hx⟩ := Option.ite_none_right_eq_some.mp h
      rw [← Option.some.inj hx]
      exact isFinite_signed hfinite negative
  | negSucc down =>
    rw [← Option.some.inj h]
    exact isFinite_signed (isFinite_scaleDown hfinite _) negative

theorem isFinite_of_withExponent? {text : NumberText} {word : ℕ} (hword : word < 2 ^ 64)
    {exponent : ℤ} {x : Binary64} (h : text.withExponent? word exponent = some x) :
    x.isFinite = true := by
  rw [withExponent?] at h
  cases hexponent : text.exponent with
  | none =>
    simp only [hexponent] at h
    exact isFinite_of_scaled? hword h
  | some written =>
    obtain ⟨down, digits⟩ := written
    simp only [hexponent] at h
    by_cases hlarge : UInt32.size / 2 ≤ digits.foldl (fun n d ↦ n * 10 + d) 0
    · rw [if_pos hlarge] at h
      obtain ⟨-, hx⟩ := Option.ite_none_left_eq_some.mp h
      rw [← Option.some.inj hx]
      exact Binary64.isFinite_zero _
    · rw [if_neg hlarge] at h
      exact isFinite_of_scaled? hword h

theorem gather_word_lt {word : ℕ} (h : word < 2 ^ 64) (ds : List ℕ) :
    (gather word ds).word < 2 ^ 64 := by
  induction ds generalizing word with
  | nil => exact h
  | cons d ds ih =>
    rw [gather]
    split_ifs with hlarge
    · exact h
    · exact ih (not_le.mp hlarge)

/-- A number that is read as floating point is finite. -/
theorem isFinite_of_value? {text : NumberText} {x : Binary64}
    (h : text.value? = some (.float x)) : x.isFinite = true := by
  have hwhole := gather_word_lt (Nat.two_pow_pos 64) text.whole
  have hscaled {word : ℕ} (hword : word < 2 ^ 64) {exponent : ℤ}
      (hx : (text.withExponent? word exponent).map Number.float = some (.float x)) :
      x.isFinite = true := by
    obtain ⟨y, hy, hsame⟩ := Option.map_eq_some_iff.mp hx
    rw [← Number.float.inj hsame]
    exact isFinite_of_withExponent? hword hy
  rw [value?] at h
  cases hfraction : text.fraction with
  | some digits =>
    simp only [hfraction] at h
    exact hscaled (gather_word_lt hwhole digits) h
  | none =>
    simp only [hfraction] at h
    by_cases hlong : (text.exponent.isSome || !(gather 0 text.whole).complete) = true
    · rw [if_pos hlong] at h
      exact hscaled hwhole h
    · rw [if_neg hlong] at h
      by_cases hzero : (text.negative && decide ((gather 0 text.whole).word = 0)) = true
      · rw [if_pos hzero] at h
        rw [← Number.float.inj (Option.some.inj h)]
        exact Binary64.isFinite_zero true
      · rw [if_neg hzero] at h
        split at h
        · exact Number.noConfusion (Option.some.inj h)
        · rw [← Number.float.inj (Option.some.inj h), Binary64.isFinite_neg]
          exact Binary64.isFinite_ofNat hwhole

end Json.NumberText

end BlockWatch
