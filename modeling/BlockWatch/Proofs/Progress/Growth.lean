import BlockWatch.Config.Scenario
import BlockWatch.Proofs.Number.Whole
import BlockWatch.Proofs.Progress.Rate
import BlockWatch.Proofs.Progress.Trimming

/-!
# The rate of a node that grows

As long as heights do not fall, the rate over a window is positive if the newest sample is higher
and later than the oldest one, and zero otherwise, with one exception: the two heights are rounded
before they are subtracted, so growth past `2 ^ 53` that is too small to be seen there gives the
rate zero.
-/

namespace BlockWatch

open Binary64 (nearest spacing unitsPerOne)

/-! ## Two samples -/

/-- A span that is not empty is a finite positive number of seconds. -/
theorem Span.exists_toSeconds {d : Span} (h : d.isZero = false) :
    ∃ units fits, 0 < units ∧ d.toSeconds = .finite false units fits := by
  have hsecond : nanosPerSecond < 2 ^ 64 := by decide
  have hrest : d.subsecond < 2 ^ 64 :=
    (Nat.mod_lt _ (by decide : 0 < nanosPerSecond)).trans hsecond
  obtain ⟨hwhole, hseconds⟩ := Binary64.exists_ofNat d.seconds_lt
  obtain ⟨hpart, hsubsecond⟩ := Binary64.exists_ofNat hrest
  obtain ⟨hunit, hnanos⟩ := Binary64.exists_ofNat hsecond
  have hone : unitsPerOne ≤ nearest nanosPerSecond 1 * unitsPerOne :=
    Nat.le_mul_of_pos_left _ (Binary64.nearest_pos one_pos (by decide))
  obtain ⟨quotient, hquotient, hle, hdiv⟩ := Binary64.exists_div hpart hunit hone
  have hsum : nearest d.seconds 1 * unitsPerOne + quotient < Binary64.threshold := by
    have hlarge := Nat.mul_le_mul_right unitsPerOne (Binary64.nearest_word_le d.seconds_lt)
    have hsmall := Nat.mul_le_mul_right unitsPerOne (Binary64.nearest_word_le hrest)
    have hpos := Binary64.unitsPerOne_pos
    exact Binary64.lt_threshold_of_le (by omega)
  obtain ⟨units, hunits, hadd⟩ := Binary64.exists_add hwhole hquotient hsum
  have htotal : d.toSeconds = .finite false units hunits := by
    rw [toSeconds, hseconds, hsubsecond, hnanos, hdiv, hadd]
  have hpositive := Span.zero_lt_toSeconds h
  rw [htotal, Binary64.zero_lt_finite_iff] at hpositive
  exact ⟨units, hunits, hpositive, htotal⟩

namespace Sample

variable {oldest newest : Sample}

/-- Growth that is still seen after rounding has a positive rate. -/
theorem zero_lt_rateTo (htime : oldest.time.nanos < newest.time.nanos)
    (hheight : nearest oldest.height.toNat 1 < nearest newest.height.toNat 1) :
    Binary64.zero.lt (oldest.rateTo newest) = true := by
  have hzero : (newest.time.since oldest.time).isZero = false := by
    rw [Span.isZero, Moment.nanos_since, beq_eq_false_iff_ne]
    omega
  obtain ⟨seconds, hseconds, hpos, hspan⟩ := Span.exists_toSeconds hzero
  obtain ⟨units, hunits, hone, hgrowth⟩ :=
    Binary64.exists_ofNat_sub oldest.height.toNat_lt newest.height.toNat_lt hheight
  simp only [rateTo, hzero, Bool.false_eq_true, if_false, hspan, hgrowth]
  exact Binary64.zero_lt_finite_div hone hpos

theorem rateTo_of_not_later (h : newest.time.nanos ≤ oldest.time.nanos) :
    oldest.rateTo newest = .zero := by
  have hzero : (newest.time.since oldest.time).isZero = true := by
    rw [Span.isZero, Moment.nanos_since, beq_iff_eq]
    omega
  simp only [rateTo, hzero, if_true]

end Sample

/-! ## Windows -/

namespace Window

/-- The rate over a window is the one from its oldest sample to its newest. -/
theorem rate_eq_rateTo {window : Window} {oldest newest : Sample}
    (holdest : window.samples.head? = some oldest)
    (hnewest : window.samples.getLast? = some newest) :
    window.rate = oldest.rateTo newest := by
  rw [rate]
  split_ifs with hfew
  · obtain ⟨rest, hsamples⟩ := List.head?_eq_some_iff.mp holdest
    have hrest : rest = [] := by
      apply List.length_eq_zero_iff.mp
      rw [hsamples, List.length_cons] at hfew
      omega
    rw [hsamples, hrest] at hnewest
    obtain rfl : oldest = newest := Option.some.inj hnewest
    exact (Sample.rateTo_self oldest).symm
  · simp only [holdest, hnewest]

/-- Heights that do not fall in a history do not fall from the oldest sample of a window to the
newest. -/
theorem height_le_of_rising {width : Span} {history : List Sample}
    (rising : history.Pairwise (·.height ≤ ·.height)) {oldest newest : Sample}
    (holdest : (recordAll width history).samples.head? = some oldest)
    (hnewest : (recordAll width history).samples.getLast? = some newest) :
    oldest.height ≤ newest.height := by
  have hsuffix := (isSuffix_recordAll width history).2.1
  have hkept := rising.sublist hsuffix.sublist
  obtain ⟨rest, hsamples⟩ := List.head?_eq_some_iff.mp holdest
  have hmem := List.mem_of_getLast? hnewest
  rw [hsamples] at hkept hmem
  rcases List.mem_cons.mp hmem with rfl | hlater
  · exact UInt64.le_refl _
  · exact (List.pairwise_cons.mp hkept).1 newest hlater

/-- Over heights that do not fall the rate is positive if the newest sample in the window is higher
and later than the oldest one and its height is still greater after rounding, and otherwise zero.
Rounding hides only growth past `2 ^ 53` that does not exceed the distance between neighbouring
numbers. -/
theorem rate_recordAll_of_rising (width : Span) {history : List Sample}
    (rising : history.Pairwise (·.height ≤ ·.height)) :
    let window := recordAll width history
    (window.samples = [] → window.rate = .zero) ∧
    ∀ oldest newest, window.samples.head? = some oldest →
      window.samples.getLast? = some newest →
        let advances := oldest.height < newest.height ∧ oldest.time.nanos < newest.time.nanos
        let blurs := nearest oldest.height.toNat 1 = nearest newest.height.toNat 1
        (advances ∧ ¬blurs → Binary64.zero.lt window.rate = true) ∧
        (¬(advances ∧ ¬blurs) → window.rate = .zero) ∧
        (advances ∧ blurs → 2 ^ 53 < newest.height.toNat ∧
          newest.height.toNat ≤ oldest.height.toNat + spacing newest.height.toNat) := by
  intro window
  refine ⟨fun hempty ↦ by simp [rate, hempty], fun oldest newest holdest hnewest ↦ ?_⟩
  intro advances blurs
  have hle : oldest.height.toNat ≤ newest.height.toNat :=
    UInt64.le_iff_toNat_le.mp (height_le_of_rising rising holdest hnewest)
  rw [rate_eq_rateTo holdest hnewest]
  refine ⟨?_, ?_, ?_⟩
  · rintro ⟨⟨-, htime⟩, hseen⟩
    exact Sample.zero_lt_rateTo htime ((Binary64.nearest_mono hle).lt_of_ne hseen)
  · intro hno
    by_cases hblurs : blurs
    · exact Sample.rateTo_of_nearest_eq hblurs
    by_cases htime : oldest.time.nanos < newest.time.nanos
    · have hheight : ¬oldest.height < newest.height := fun h ↦ hno ⟨⟨h, htime⟩, hblurs⟩
      rw [UInt64.lt_iff_toNat_lt, not_lt] at hheight
      exact Sample.rateTo_of_height_eq (UInt64.toNat_inj.mp (hle.antisymm hheight))
    · exact Sample.rateTo_of_not_later (not_lt.mp htime)
  · rintro ⟨⟨hheight, -⟩, hblurs⟩
    exact ⟨Binary64.two_pow_lt_of_nearest_eq (UInt64.lt_iff_toNat_lt.mp hheight) hblurs,
      Binary64.le_add_spacing_of_nearest_eq hle hblurs⟩

/-- Heights past `2 ^ 53` of which rounding changes the older one. -/
theorem rate_recordAll_of_rising_past_exact_heights :
    let at_ (seconds height : UInt64) : Sample :=
      ⟨(Moment.base.later? (.ofSeconds seconds)).getD .base, height⟩
    let oldest := at_ 4 9007199254740993
    let newest := at_ 9 9007199254740994
    let history := [at_ 0 9007199254740992, oldest, newest]
    history.Pairwise (·.height ≤ ·.height) ∧
      (recordAll (.ofSeconds 7) history).samples = [oldest, newest] ∧
      Binary64.zero.lt (recordAll (.ofSeconds 7) history).rate = true := by
  intro at_ oldest newest history
  have rising : history.Pairwise (·.height ≤ ·.height) := by decide +kernel
  have hsamples : (recordAll (.ofSeconds 7) history).samples = [oldest, newest] := by
    decide +kernel +zetaReduce
  have hseen : nearest oldest.height.toNat 1 ≠ nearest newest.height.toNat 1 := by decide +kernel
  have hadvances : oldest.height < newest.height ∧ oldest.time.nanos < newest.time.nanos := by
    decide +kernel
  obtain ⟨-, hends⟩ := rate_recordAll_of_rising (.ofSeconds 7) rising
  obtain ⟨hpositive, -⟩ := hends oldest newest (by rw [hsamples]; rfl) (by rw [hsamples]; rfl)
  exact ⟨rising, hsamples, hpositive ⟨hadvances, hseen⟩⟩

/-- A node that grows by one block in a second has the rate zero, which is below the floor that
stands for any progress at all. -/
theorem rate_recordAll_eq_zero_of_growth :
    let oldest : Sample := ⟨.base, 9007199254740992⟩
    let newest : Sample :=
      ⟨(Moment.base.later? (.ofSeconds 1)).getD .base, 9007199254740993⟩
    let window := recordAll defaultWindow [oldest, newest]
    window.samples = [oldest, newest] ∧ oldest.height < newest.height ∧
      oldest.time.nanos < newest.time.nanos ∧ window.rate = .zero ∧
      window.rate.lt ({} : ScenarioConfig).rateFloor = true := by
  decide +kernel

end Window

end BlockWatch
