import BlockWatch.Number.Decimal
import BlockWatch.Proofs.Number.Threshold
import Mathlib.Tactic.Ring

/-!
# Shortest decimals

The shortest decimal of a finite number has at most eighteen digits, its exponent is small, and as a
whole number of ones it rounds to the number.
-/

namespace BlockWatch

namespace Decimal

open Binary64 (unitsPerOne nearest)

/-! ## Powers of ten -/

theorem scale_fst (exponent : ℤ) : (scale exponent).1 = 10 ^ exponent.toNat := rfl

theorem scale_snd (exponent : ℤ) : (scale exponent).2 = 10 ^ (-exponent).toNat := rfl

/-- Powers of ten add their exponents. -/
theorem scale_add (exponent : ℤ) (more : ℕ) :
    (scale (exponent + more)).1 * (scale exponent).2 =
      10 ^ more * ((scale exponent).1 * (scale (exponent + more)).2) := by
  simp only [scale_fst, scale_snd, ← pow_add]
  congr 1
  omega

/-! ## Digits -/

theorem lt_pow_digitCount (n : ℕ) : n < 10 ^ digitCount n := by
  rw [digitCount]
  split_ifs with hzero
  · rw [hzero]
    exact Nat.one_pos
  · exact (Nat.length_toDigits_le_iff (by decide) Nat.length_toDigits_pos).mp le_rfl

theorem pow_digitCount_le {n : ℕ} (h : n ≠ 0) : 10 ^ (digitCount n - 1) ≤ n := by
  rw [digitCount, if_neg h]
  by_contra hlt
  rw [not_le] at hlt
  rcases Nat.eq_zero_or_pos ((Nat.toDigits 10 n).length - 1) with hone | hpos
  · rw [hone] at hlt
    omega
  · have := (Nat.length_toDigits_le_iff (by decide) hpos).mpr hlt
    have := Nat.length_toDigits_pos (b := 10) (n := n)
    omega

theorem digitCount_pos {n : ℕ} (h : n ≠ 0) : 0 < digitCount n := by
  rw [digitCount, if_neg h]
  exact Nat.length_toDigits_pos

theorem digitCount_le {n k : ℕ} (hk : 0 < k) (h : n < 10 ^ k) : digitCount n ≤ k := by
  rw [digitCount]
  split_ifs with hzero
  · exact Nat.zero_le _
  · exact (Nat.length_toDigits_le_iff (by decide) hk).mpr h

/-! ## The leading digit -/

/-- A number is below the power of ten after its leading digit. -/
theorem lt_scale_leadingExponent {units : ℕ} (h : units ≠ 0) :
    units * (scale (leadingExponent units + 1)).2 <
      unitsPerOne * (scale (leadingExponent units + 1)).1 := by
  have hone := Binary64.unitsPerOne_pos
  dsimp only [leadingExponent]
  split_ifs with hwhole
  · have hbelow : units < unitsPerOne := by
      rcases Nat.div_eq_zero_iff.mp hwhole with h | h
      · exact absurd h hone.ne'
      · exact h
    have hquotient : (unitsPerOne - 1) / units ≠ 0 := by
      rw [Ne, Nat.div_eq_zero_iff]
      omega
    have hcount := digitCount_pos hquotient
    have hpower := pow_digitCount_le hquotient
    have hnum : (-(digitCount ((unitsPerOne - 1) / units) : ℤ) + 1).toNat = 0 := by omega
    have hden : (-(-(digitCount ((unitsPerOne - 1) / units) : ℤ) + 1)).toNat =
        digitCount ((unitsPerOne - 1) / units) - 1 := by omega
    rw [scale_fst, scale_snd, hnum, hden, pow_zero, mul_one]
    calc
      units * 10 ^ (digitCount ((unitsPerOne - 1) / units) - 1)
          ≤ units * ((unitsPerOne - 1) / units) := Nat.mul_le_mul_left _ hpower
      _ ≤ unitsPerOne - 1 := Nat.mul_div_le _ _
      _ < unitsPerOne := Nat.sub_lt hone one_pos
  · have hpower := lt_pow_digitCount (units / unitsPerOne)
    have hnum : ((digitCount (units / unitsPerOne) : ℤ) - 1 + 1).toNat =
        digitCount (units / unitsPerOne) := by omega
    have hden : (-((digitCount (units / unitsPerOne) : ℤ) - 1 + 1)).toNat = 0 := by omega
    rw [scale_fst, scale_snd, hnum, hden, pow_zero, mul_one, mul_comm unitsPerOne]
    exact (Nat.div_lt_iff_lt_mul hone).mp hpower

theorem leadingExponent_bounds {units : ℕ} (h : units < Binary64.overflow) :
    -324 ≤ leadingExponent units ∧ leadingExponent units ≤ 309 := by
  dsimp only [leadingExponent]
  split_ifs with hwhole
  · have hone : unitsPerOne < 10 ^ 324 := by decide +kernel
    have hle : digitCount ((unitsPerOne - 1) / units) ≤ 324 :=
      digitCount_le (by decide) ((Nat.div_le_self _ _).trans_lt (by omega))
    omega
  · have hoverflow : Binary64.overflow < 10 ^ 309 * unitsPerOne := by decide +kernel
    have hle : digitCount (units / unitsPerOne) ≤ 309 :=
      digitCount_le (by decide)
        ((Nat.div_lt_iff_lt_mul Binary64.unitsPerOne_pos).mpr (h.trans hoverflow))
    omega

/-! ## The grid -/

/-- The whole number of steps of a grid below a number. -/
def stepsBelow (units : ℕ) (exponent : ℤ) : ℕ :=
  units * (scale exponent).2 / (unitsPerOne * (scale exponent).1)

/-- What is chosen reads back and is one of the two. -/
theorem choose_eq_some {tie : Tie} {low high d : Decimal} {rest divisor : ℕ}
    {lowReads highReads : Bool}
    (h : choose tie low high rest divisor lowReads highReads = some d) :
    (d = low ∧ lowReads = true) ∨ (d = high ∧ highReads = true) := by
  have hlow (hreads : lowReads = true) (hsome : some low = some d) :
      (d = low ∧ lowReads = true) ∨ (d = high ∧ highReads = true) :=
    .inl ⟨(Option.some.inj hsome).symm, hreads⟩
  have hhigh (hreads : highReads = true) (hsome : some high = some d) :
      (d = low ∧ lowReads = true) ∨ (d = high ∧ highReads = true) :=
    .inr ⟨(Option.some.inj hsome).symm, hreads⟩
  unfold choose at h
  split at h
  · split_ifs at h
    · exact hlow rfl h
    · exact hhigh rfl h
    · cases tie with
      | up => exact hhigh rfl h
      | even => exact hlow rfl h
    · cases tie <;> exact hhigh rfl h
  · exact hlow rfl h
  · exact hhigh rfl h
  · cases h

theorem onGrid_eq (tie : Tie) (units : ℕ) (exponent : ℤ) : ∃ rest divisor,
    onGrid tie units exponent =
      choose tie ⟨stepsBelow units exponent, exponent⟩ ⟨stepsBelow units exponent + 1, exponent⟩
        rest divisor (readsAs ⟨stepsBelow units exponent, exponent⟩ units)
        (readsAs ⟨stepsBelow units exponent + 1, exponent⟩ units) :=
  ⟨_, _, rfl⟩

/-- What is found on a grid reads back and is one of the two neighbours there. -/
theorem onGrid_eq_some {tie : Tie} {units : ℕ} {exponent : ℤ} {d : Decimal}
    (h : onGrid tie units exponent = some d) :
    readsAs d units = true ∧
      (d = ⟨stepsBelow units exponent, exponent⟩ ∨
        d = ⟨stepsBelow units exponent + 1, exponent⟩) := by
  obtain ⟨rest, divisor, heq⟩ := onGrid_eq tie units exponent
  rw [heq] at h
  rcases choose_eq_some h with ⟨hd, hreads⟩ | ⟨hd, hreads⟩
  · rw [← hd] at hreads
    exact ⟨hreads, .inl hd⟩
  · rw [← hd] at hreads
    exact ⟨hreads, .inr hd⟩

theorem stepsBelow_lt {units : ℕ} (h : units ≠ 0) (more : ℕ) :
    stepsBelow units (leadingExponent units - more) < 10 ^ (more + 1) := by
  have hlead := lt_scale_leadingExponent h
  have hadd := scale_add (leadingExponent units - more) (more + 1)
  have hsum : leadingExponent units - more + ((more + 1 : ℕ) : ℤ) = leadingExponent units + 1 := by
    push_cast
    ring
  rw [hsum] at hadd
  have hnum : 0 < (scale (leadingExponent units - more)).1 := Nat.pow_pos (by decide)
  have hden : 0 < (scale (leadingExponent units - more)).2 := Nat.pow_pos (by decide)
  rw [stepsBelow, Nat.div_lt_iff_lt_mul (Nat.mul_pos Binary64.unitsPerOne_pos hnum)]
  generalize leadingExponent units = leading at *
  apply Nat.lt_of_mul_lt_mul_right (a := (scale (leading + 1)).2)
  calc
    units * (scale (leading - more)).2 * (scale (leading + 1)).2 =
        units * (scale (leading + 1)).2 * (scale (leading - more)).2 := mul_right_comm _ _ _
    _ < unitsPerOne * (scale (leading + 1)).1 * (scale (leading - more)).2 :=
      Nat.mul_lt_mul_of_pos_right hlead hden
    _ = unitsPerOne * ((scale (leading + 1)).1 * (scale (leading - more)).2) := mul_assoc _ _ _
    _ = 10 ^ (more + 1) * (unitsPerOne * (scale (leading - more)).1) * (scale (leading + 1)).2 := by
      rw [hadd]
      ring

theorem not_readsAs_zero {units : ℕ} (h : units ≠ 0) (exponent : ℤ) :
    readsAs ⟨0, exponent⟩ units = false := by
  have hden : 0 < 10 ^ (-exponent).toNat := Nat.pow_pos (by decide)
  have hzero : nearest 0 (10 ^ (-exponent).toNat) = 0 := by
    rw [Binary64.nearest_eq, Nat.zero_div]
    simp [roundHalfEven, hden, Binary64.spacing_pos]
  have hreads : nearest (0 * 10 ^ exponent.toNat * unitsPerOne) (10 ^ (-exponent).toNat) ≠
      units := by
    rw [zero_mul, zero_mul, hzero]
    exact h.symm
  exact beq_false_of_ne hreads

/-! ## Trailing zeros -/

/-- Only zeros move into the exponent. -/
theorem exists_trim (d : Decimal) (fuel : ℕ) : ∃ zeros ≤ fuel,
    d.digits = (d.trim fuel).digits * 10 ^ zeros ∧
      (d.trim fuel).exponent = d.exponent + zeros := by
  induction fuel generalizing d with
  | zero => exact ⟨0, le_rfl, by simp [trim], by simp [trim]⟩
  | succ fuel ih =>
    rw [trim]
    split_ifs with h
    · obtain ⟨zeros, hle, hdigits, hexponent⟩ := ih ⟨d.digits / 10, d.exponent + 1⟩
      refine ⟨zeros + 1, Nat.succ_le_succ hle, ?_, ?_⟩
      · rw [pow_succ, ← mul_assoc, ← hdigits]
        exact (Nat.div_mul_cancel (Nat.dvd_of_mod_eq_zero h.2)).symm
      · rw [hexponent]
        push_cast
        ring
    · exact ⟨0, Nat.zero_le _, (mul_one _).symm, (add_zero _).symm⟩

/-- Moving zeros into the exponent does not change a whole number. -/
theorem readsAs_trim {d : Decimal} {units zeros fuel : ℕ} (h : readsAs d units = true)
    (hdigits : d.digits = (d.trim fuel).digits * 10 ^ zeros)
    (hexponent : (d.trim fuel).exponent = d.exponent + zeros)
    (hwhole : 0 ≤ (d.trim fuel).exponent) :
    nearest ((d.trim fuel).digits * 10 ^ (d.trim fuel).exponent.toNat * unitsPerOne) 1 =
      units := by
  have hreads : nearest (d.digits * 10 ^ d.exponent.toNat * unitsPerOne)
      (10 ^ (-d.exponent).toNat) = units := eq_of_beq h
  have hpowers : 10 ^ zeros * 10 ^ d.exponent.toNat =
      10 ^ (d.trim fuel).exponent.toNat * 10 ^ (-d.exponent).toNat := by
    rw [← pow_add, ← pow_add]
    congr 1
    omega
  have hsame : d.digits * 10 ^ d.exponent.toNat * unitsPerOne =
      (d.trim fuel).digits * 10 ^ (d.trim fuel).exponent.toNat * unitsPerOne *
        10 ^ (-d.exponent).toNat := by
    rw [hdigits, mul_assoc _ (10 ^ zeros), hpowers]
    ring
  rw [hsame, ← one_mul (10 ^ (-d.exponent).toNat), ← mul_assoc, mul_one,
    Binary64.nearest_mul_right _ _ (Nat.pow_pos (by decide))] at hreads
  exact hreads

/-! ## The shortest decimal -/

/-- What is known of the decimal that is written for a number. -/
structure IsShort (units : ℕ) (d : Decimal) : Prop where
  positive : 0 < d.digits
  few : d.digits ≤ 10 ^ 17
  low : -340 ≤ d.exponent
  high : d.exponent ≤ 329
  reads : 0 ≤ d.exponent → nearest (d.digits * 10 ^ d.exponent.toNat * unitsPerOne) 1 = units

/-- What is found on one of the grids is short once its zeros are gone. -/
theorem isShort_trim {tie : Tie} {units more fuel : ℕ} {d : Decimal} (hzero : units ≠ 0)
    (hfinite : units < Binary64.overflow) (hmore : more ≤ 16) (hfuel : fuel ≤ 20)
    (h : onGrid tie units (leadingExponent units - more) = some d) :
    IsShort units (d.trim fuel) := by
  obtain ⟨hreads, hneighbour⟩ := onGrid_eq_some h
  obtain ⟨zeros, hzeros, hsame, hmoved⟩ := exists_trim d fuel
  obtain ⟨hlow, hhigh⟩ := leadingExponent_bounds hfinite
  have hexponent : d.exponent = leadingExponent units - more := by
    rcases hneighbour with hd | hd <;> rw [hd]
  have hpositive : 0 < d.digits := by
    apply Nat.pos_of_ne_zero
    intro hnone
    have hd : d = ⟨0, d.exponent⟩ := by rw [← hnone]
    rw [hd, not_readsAs_zero hzero] at hreads
    cases hreads
  have hfew : d.digits ≤ 10 ^ 17 := by
    have hsteps := stepsBelow_lt hzero more
    have hten : (10 : ℕ) ^ (more + 1) ≤ 10 ^ 17 := Nat.pow_le_pow_right (by decide) (by omega)
    have hnext : d.digits ≤ stepsBelow units (leadingExponent units - more) + 1 := by
      rcases hneighbour with hd | hd <;> rw [hd]
      exact Nat.le_succ _
    omega
  have hpow : 0 < 10 ^ zeros := Nat.pow_pos (by decide)
  exact {
    positive := Nat.pos_of_mul_pos_right (hsame ▸ hpositive)
    few := (Nat.le_mul_of_pos_right _ hpow).trans (hsame ▸ hfew)
    low := by omega
    high := by omega
    reads := readsAs_trim hreads hsame hmoved }

/-- The decimal of a finite number is short, unless no grid has one. -/
theorem shortest_isShort (tie : Tie) {units : ℕ} (hzero : units ≠ 0)
    (hfinite : units < Binary64.overflow) :
    shortest tie units = ⟨0, 0⟩ ∨ IsShort units (shortest tie units) := by
  rw [shortest]
  cases hfound : (List.range 17).findSome? fun more : ℕ ↦
      onGrid tie units (leadingExponent units - more) with
  | none => exact .inl rfl
  | some d =>
    obtain ⟨more, hmore, hgrid⟩ := List.exists_of_findSome?_eq_some hfound
    exact .inr (isShort_trim hzero hfinite (Nat.lt_succ_iff.mp (List.mem_range.mp hmore)) le_rfl
      hgrid)

end Decimal

end BlockWatch
