import BlockWatch.Proofs.Number.Whole
import BlockWatch.Proofs.Progress.Retained

/-!
# The rate over a history

`rateOver` is the rate of progress over a whole history: from the oldest sample that it retains to
its newest. A window that holds what the history retains has this rate. Between equal heights the
rate is exactly zero, whatever the time between them.
-/

namespace BlockWatch

namespace Window

/-- The rate from the oldest sample that a history retains to its newest. -/
def rateOver (width : Span) (history : List Sample) : Binary64 :=
  match (retained width history).head?, history.getLast? with
  | some oldest, some newest => oldest.rateTo newest
  | _, _ => .zero

theorem getLast?_retained (width : Span) (history : List Sample) :
    (retained width history).getLast? = history.getLast? := by
  obtain rfl | ⟨s, rfl⟩ | ⟨older, s, newest, rfl⟩ := history_cases history
  · rfl
  · rfl
  rw [retained_append_pair]
  simp

/-- A window is short exactly if the history is. -/
theorem minRetained_le_length_retained (width : Span) (history : List Sample) :
    minRetained ≤ (retained width history).length ↔ minRetained ≤ history.length := by
  obtain rfl | ⟨s, rfl⟩ | ⟨older, s, newest, rfl⟩ := history_cases history
  · rfl
  · rfl
  rw [retained_append_pair]
  simp [minRetained]

theorem hasRate_retained (width : Span) (history : List Sample) :
    hasRate ⟨width, retained width history⟩ = decide (minRetained ≤ history.length) := by
  simp only [hasRate, minRetained_le_length_retained]

end Window

/-! ## Rates between two samples -/

/-- A span that is not empty is a positive number of seconds. -/
theorem Span.zero_lt_toSeconds {d : Span} (h : d.isZero = false) :
    Binary64.zero.lt d.toSeconds = true := by
  have hnanos : d.nanos ≠ 0 := by simpa [Span.isZero] using h
  have hsum := d.seconds_subsecond
  have hsecond : nanosPerSecond < 2 ^ 64 := by decide
  have hrest : d.subsecond < 2 ^ 64 :=
    (Nat.mod_lt _ (by decide : 0 < nanosPerSecond)).trans hsecond
  refine Binary64.zero_lt_add (Binary64.unsigned_ofNat _)
    (Binary64.unsigned_ofNat_div hrest (by decide) hsecond) ?_
  by_cases hseconds : d.seconds = 0
  · have hsubsecond : 0 < d.subsecond := by
      rw [hseconds, Nat.zero_mul, Nat.zero_add] at hsum
      omega
    exact .inr (Binary64.zero_lt_ofNat_div hsubsecond hrest (by decide) hsecond)
  · exact .inl (Binary64.zero_lt_ofNat (Nat.pos_of_ne_zero hseconds))

theorem Sample.rateTo_self (s : Sample) : s.rateTo s = .zero := by
  have hzero : (s.time.since s.time).isZero = true := by simp [Span.isZero]
  simp only [rateTo, hzero, if_true]

/-- Growth that rounding hides has the rate zero. -/
theorem Sample.rateTo_of_nearest_eq {oldest newest : Sample}
    (h : Binary64.nearest oldest.height.toNat 1 = Binary64.nearest newest.height.toNat 1) :
    oldest.rateTo newest = .zero := by
  cases hzero : (newest.time.since oldest.time).isZero with
  | true => simp only [rateTo, hzero, if_true]
  | false =>
    have hgrowth :=
      Binary64.ofNat_sub_of_nearest_eq oldest.height.toNat_lt newest.height.toNat_lt h
    simp only [rateTo, hzero, Bool.false_eq_true, if_false, hgrowth]
    exact Binary64.zero_div (Span.zero_lt_toSeconds hzero)

/-- Between equal heights the rate is zero. -/
theorem Sample.rateTo_of_height_eq {oldest newest : Sample}
    (h : oldest.height = newest.height) : oldest.rateTo newest = .zero :=
  rateTo_of_nearest_eq (by rw [h])

namespace Window

/-- A window that holds what a history retains has the rate over the history. -/
theorem rate_retained (width : Span) (history : List Sample) :
    rate ⟨width, retained width history⟩ = rateOver width history := by
  obtain rfl | ⟨s, rfl⟩ | ⟨older, s, newest, rfl⟩ := history_cases history
  · simp [rate, rateOver]
  · simp [rate, rateOver, Sample.rateTo_self]
  · have hlength : ¬(retained width (older ++ [s, newest])).length ≤ 1 := by
      rw [retained_append_pair]
      simp
    have hsome : retained width (older ++ [s, newest]) ≠ [] := by
      intro hnil
      simp [hnil] at hlength
    have holdest := List.head?_eq_some_head hsome
    have hnewest : (older ++ [s, newest]).getLast? = some newest := by simp
    have hlast : (retained width (older ++ [s, newest])).getLast? = some newest :=
      (getLast?_retained width _).trans hnewest
    simp only [rate, if_neg hlength, rateOver, holdest, hnewest, hlast]

theorem rateOver_eq_zero {width : Span} {history : List Sample} {height : UInt64}
    (h : ∀ s ∈ history, s.height = height) : rateOver width history = .zero := by
  unfold rateOver
  split
  · next oldest newest holdest hnewest =>
    have hold : oldest.height = height :=
      h oldest ((retained_sublist width history).subset (List.mem_of_head? holdest))
    have hnew : newest.height = height := h newest (List.mem_of_getLast? hnewest)
    exact Sample.rateTo_of_height_eq (hold.trans hnew.symm)
  · rfl

/-- What lies at least the width before the newest of two samples has no part in the rate. -/
theorem rateOver_append_of_stale {width : Span} {front older : List Sample} {s newest : Sample}
    (hstale : ∀ x ∈ front, isRecent width newest.time x = false) :
    rateOver width (front ++ (older ++ [s, newest])) = rateOver width (older ++ [s, newest]) := by
  simp only [rateOver, retained_append_of_stale hstale]
  simp

end Window

end BlockWatch
