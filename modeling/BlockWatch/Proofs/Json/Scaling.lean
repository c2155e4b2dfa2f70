import BlockWatch.Json.Scalar
import BlockWatch.Proofs.Number.Shortest

/-!
# Scaling the digits of a written number

A reader multiplies the digits of a number by a power of ten and rounds three times on the way, so
a decimal of a finite number could still come out infinite. This happens to one decimal only, which
is never written because a closer one has as many digits.
-/

namespace BlockWatch.Json.NumberText

open Binary64 (unitsPerOne nearest threshold)

def tens (exponent : ℕ) : ℕ := Nat.pow 10 exponent

theorem tens_pos (exponent : ℕ) : 0 < tens exponent := Nat.pow_pos (by decide)

theorem tens_mono {m n : ℕ} (h : m ≤ n) : tens m ≤ tens n :=
  Nat.pow_le_pow_right (by decide) h

/-- The most digits of a decimal on the grid `10 ^ exponent` that rounds to a finite number. -/
def mostDigits (exponent : ℕ) : ℕ :=
  min (10 ^ 17) ((threshold - 1) / (tens exponent * unitsPerOne))

/-- The decimal that rounds to the largest finite number but is scaled to an infinite one. -/
def misscaled : ℕ := 17976931348623158

/-- Whether the product stays finite that the digits give when they are scaled. -/
def staysFinite (digits exponent : ℕ) : Bool :=
  decide (nearest (digits * unitsPerOne) 1 * nearest (tens exponent * unitsPerOne) 1 <
    threshold * unitsPerOne)

theorem staysFinite_mostDigits : ∀ more < 18,
    staysFinite (if more = 1 then misscaled - 1 else mostDigits (291 + more)) (291 + more) = true := by
  decide +kernel

theorem mostDigits_of_misscaled : mostDigits 292 = misscaled := by decide +kernel

/-- The largest finite number is written by other digits. -/
theorem shortest_of_misscaled {exponent : ℕ} (h : exponent = 292) :
    Decimal.shortest .even (nearest (misscaled * tens exponent * unitsPerOne) 1) =
      ⟨misscaled - 1, 292⟩ := by
  subst h
  decide +kernel

theorem staysFinite_mono {m n exponent : ℕ} (h : m ≤ n) (hn : staysFinite n exponent = true) :
    staysFinite m exponent = true := by
  have hproduct := of_decide_eq_true hn
  apply decide_eq_true
  calc
    nearest (m * unitsPerOne) 1 * nearest (tens exponent * unitsPerOne) 1
        ≤ nearest (n * unitsPerOne) 1 * nearest (tens exponent * unitsPerOne) 1 :=
      Nat.mul_le_mul_right _ (Binary64.nearest_mono (Nat.mul_le_mul_right _ h))
    _ < threshold * unitsPerOne := hproduct

/-- Small powers of ten leave room for all roundings. -/
theorem staysFinite_of_le {digits exponent : ℕ} (hfew : digits ≤ 10 ^ 17) (h : exponent ≤ 290) :
    staysFinite digits exponent = true := by
  have hroom : 2 * (10 ^ 17 * unitsPerOne) * (2 * (tens 290 * unitsPerOne)) <
      threshold * unitsPerOne := by decide +kernel
  have hpower : tens exponent ≤ tens 290 := tens_mono h
  apply decide_eq_true
  refine (Nat.mul_le_mul ?_ ?_).trans_lt hroom
  · exact (Binary64.nearest_le_two_mul _).trans
      (Nat.mul_le_mul_left 2 (Nat.mul_le_mul_right _ hfew))
  · exact (Binary64.nearest_le_two_mul _).trans
      (Nat.mul_le_mul_left 2 (Nat.mul_le_mul_right _ hpower))

/-- The powers of ten that a number is multiplied by at once are finite. -/
theorem power_eq_nearest {exponent : ℕ} (h : exponent ≤ 308) :
    ∃ fits, power exponent = .finite false (nearest (tens exponent * unitsPerOne) 1) fits := by
  have hlast : tens 308 * unitsPerOne < threshold * 1 := by decide +kernel
  have hsmall := (Nat.mul_le_mul_right unitsPerOne (tens_mono h)).trans_lt hlast
  have fits := Binary64.fits_nearest_of_lt Nat.one_pos hsmall
  refine ⟨fits, ?_⟩
  change Binary64.ofNat (tens exponent) = _
  rw [Binary64.ofNat, Binary64.ofRatio, Binary64.ofUnits, dif_pos fits]

section Short

variable {units : ℕ} {d : Decimal} {exponent : ℕ}

/-- A short decimal of a finite number lies below the threshold. -/
theorem lt_threshold_of_isShort (hfits : Binary64.Fits units) (h : d.IsShort units)
    (hexponent : d.exponent = exponent) :
    d.digits * tens exponent * unitsPerOne < threshold := by
  have hreads := h.reads (by omega)
  rw [hexponent, Int.toNat_natCast] at hreads
  apply Binary64.lt_threshold_of_nearest_lt
  exact hreads.symm ▸ hfits.1

theorem exponent_le_of_isShort (hfits : Binary64.Fits units) (h : d.IsShort units)
    (hexponent : d.exponent = exponent) : exponent ≤ 308 := by
  by_contra hgt
  have hlarge : threshold ≤ tens 309 * unitsPerOne := by decide +kernel
  have hpower : tens 309 ≤ tens exponent :=
    tens_mono (by omega)
  have hbelow := lt_threshold_of_isShort hfits h hexponent
  have hle : tens 309 * unitsPerOne ≤ d.digits * tens exponent * unitsPerOne :=
    Nat.mul_le_mul_right _ (hpower.trans (Nat.le_mul_of_pos_left _ h.positive))
  exact absurd (hlarge.trans hle) (not_le.mpr hbelow)

theorem digits_le_mostDigits (hfits : Binary64.Fits units) (h : d.IsShort units)
    (hexponent : d.exponent = exponent) : d.digits ≤ mostDigits exponent := by
  have hpower : 0 < tens exponent * unitsPerOne :=
    Nat.mul_pos (tens_pos _) Binary64.unitsPerOne_pos
  have hbelow := lt_threshold_of_isShort hfits h hexponent
  refine le_min h.few ?_
  rw [Nat.le_div_iff_mul_le hpower, ← mul_assoc]
  exact Nat.le_sub_one_of_lt hbelow

/-- The digits that are written for a finite number stay finite. -/
theorem staysFinite_of_isShort (hfits : Binary64.Fits units) (h : d.IsShort units)
    (hshortest : Decimal.shortest .even units = d) (hexponent : d.exponent = exponent) :
    staysFinite d.digits exponent = true := by
  have hmost := digits_le_mostDigits hfits h hexponent
  have hrange := exponent_le_of_isShort hfits h hexponent
  by_cases hsmall : exponent ≤ 290
  · exact staysFinite_of_le h.few hsmall
  obtain ⟨more, rfl⟩ : ∃ more, exponent = 291 + more := ⟨exponent - 291, by omega⟩
  have hchecked := staysFinite_mostDigits more (by omega)
  by_cases hone : more = 1
  · rw [if_pos hone] at hchecked
    have hsame : 291 + more = 292 := by omega
    rw [hsame, mostDigits_of_misscaled] at hmost
    rcases hmost.lt_or_eq with hlt | heq
    · exact staysFinite_mono (Nat.le_sub_one_of_lt hlt) hchecked
    · have hreads : nearest (d.digits * tens (291 + more) * unitsPerOne) 1 = units := by
        have hreads := h.reads (by omega)
        rwa [hexponent, Int.toNat_natCast] at hreads
      have hother := shortest_of_misscaled hsame
      rw [← heq, hreads, hshortest] at hother
      have hdigits := congrArg Decimal.digits hother
      rw [heq] at hdigits
      cases hdigits
  · rw [if_neg hone] at hchecked
    exact staysFinite_mono hmost hchecked

/-- Scaling the digits that are written for a finite number gives a number. -/
theorem isSome_scaled? (negative : Bool) (hfits : Binary64.Fits units) (h : d.IsShort units)
    (hshortest : Decimal.shortest .even units = d) :
    (scaled? negative d.digits d.exponent).isSome = true := by
  cases hexponent : d.exponent with
  | negSucc down => rfl
  | ofNat up =>
    have hrange := exponent_le_of_isShort hfits h hexponent
    have hstays : nearest (d.digits * unitsPerOne) 1 * nearest (tens up * unitsPerOne) 1 <
        threshold * unitsPerOne :=
      of_decide_eq_true (staysFinite_of_isShort hfits h hshortest hexponent)
    have hword : d.digits < 2 ^ 64 := h.few.trans_lt (by decide)
    obtain ⟨fitsDigits, hdigits⟩ := Binary64.ofNat_eq_finite hword
    obtain ⟨fitsPower, hten⟩ := power_eq_nearest hrange
    have fitsProduct := Binary64.fits_nearest_of_lt Binary64.unitsPerOne_pos hstays
    have hfinite : ((Binary64.ofNat d.digits).mul (power up)).isFinite = true := by
      rw [hdigits, hten, Binary64.mul, Binary64.ofUnits, dif_pos fitsProduct]
      rfl
    simp only [scaled?, if_pos hrange, hfinite, if_true, Option.isSome_some]

end Short

end BlockWatch.Json.NumberText
