import BlockWatch.Proofs.Progress.Recording

/-!
# Trimming in any order

The samples of a history need not come in time order. A sample that is too old may then stand behind
one that is not, where trimming does not look, so a window need not hold the samples that count. It
still holds the end of the history, at least two samples of it if there were two, and of more than
two the oldest is recent. Each record drops only as many samples as this takes.
-/

namespace BlockWatch.Window

/-- What a window keeps of a history that ends in `newest`. -/
structure Trimmed (width : Span) (history : List Sample) (newest : Sample)
    (kept : List Sample) : Prop where
  isSuffix : kept <:+ history
  endsInNewest : kept.getLast? = some newest
  enough : min minRetained history.length ≤ kept.length
  recent : minRetained < kept.length →
    ∀ oldest, kept.head? = some oldest → newest.time.since oldest.time < width

/-- More than two samples are left, and the first one is too old. -/
def Overdue (width : Span) (now : Moment) (samples : List Sample) : Prop :=
  minRetained < samples.length ∧
    ∃ oldest, samples.head? = some oldest ∧ width ≤ now.since oldest.time

theorem overdue_cons {width : Span} {now : Moment} {s : Sample} {rest : List Sample} :
    Overdue width now (s :: rest) ↔ minRetained ≤ rest.length ∧ width ≤ now.since s.time := by
  simp only [Overdue, List.length_cons, Nat.lt_succ_iff, List.head?_cons, Option.some.injEq,
    exists_eq_left']

theorem Trimmed.not_overdue {width : Span} {history kept : List Sample} {newest : Sample}
    (h : Trimmed width history newest kept) : ¬Overdue width newest.time kept := by
  rintro ⟨hlength, oldest, holdest, hold⟩
  have hrecent := h.recent hlength oldest holdest
  rw [Span.lt_def] at hrecent
  exact Nat.not_le.mpr hrecent hold

/-- Trimming drops samples until for the first time none is overdue. -/
theorem exists_expire_eq_drop (width : Span) (now : Moment) (samples : List Sample) :
    ∃ n, expire width now samples = samples.drop n ∧
      (∀ i < n, Overdue width now (samples.drop i)) ∧ ¬Overdue width now (samples.drop n) := by
  induction samples with
  | nil => exact ⟨0, rfl, nofun, by simp [Overdue]⟩
  | cons s rest ih =>
    by_cases hoverdue : minRetained ≤ rest.length ∧ width ≤ now.since s.time
    · obtain ⟨n, hdrop, hbefore, hstop⟩ := ih
      refine ⟨n + 1, ?_, ?_, hstop⟩
      · rw [expire, if_pos hoverdue, hdrop, List.drop_succ_cons]
      · intro i hi
        cases i with
        | zero => exact overdue_cons.mpr hoverdue
        | succ i => exact hbefore i (Nat.lt_of_succ_lt_succ hi)
    · refine ⟨0, ?_, nofun, ?_⟩
      · rw [expire, if_neg hoverdue, List.drop_zero]
      · rwa [List.drop_zero, overdue_cons]

/-- Dropping what is overdue never leaves fewer than two samples. -/
theorem minRetained_le_length_drop {width : Span} {now : Moment} {samples : List Sample} {n : ℕ}
    (hbefore : ∀ i < n, Overdue width now (samples.drop i)) :
    min minRetained samples.length ≤ (samples.drop n).length := by
  cases n with
  | zero => exact Nat.min_le_right _ _
  | succ n =>
    have hlength := (hbefore n (Nat.lt_succ_self n)).1
    rw [List.length_drop] at hlength ⊢
    omega

/-! ## Recording -/

section

variable {width : Span} {past : List Sample} {newest : Sample}

/-- A record keeps the end of the history, if the window held the end of it before. -/
theorem trimmed_drop {kept : List Sample} (hsuffix : kept <:+ past)
    (henough : min minRetained past.length ≤ kept.length) {n : ℕ}
    (hbefore : ∀ i < n, Overdue width newest.time ((kept ++ [newest]).drop i))
    (hstop : ¬Overdue width newest.time ((kept ++ [newest]).drop n)) :
    Trimmed width (past ++ [newest]) newest ((kept ++ [newest]).drop n) := by
  have hlength := minRetained_le_length_drop hbefore
  have hsome : 0 < ((kept ++ [newest]).drop n).length := by
    simp only [minRetained, List.length_append, List.length_singleton] at hlength
    omega
  constructor
  · obtain ⟨front, rfl⟩ := hsuffix
    rw [List.append_assoc]
    exact (List.drop_suffix n _).trans (List.suffix_append front _)
  · rw [List.length_drop] at hsome
    rw [List.getLast?_drop, if_neg (by omega), List.getLast?_concat]
  · simp only [List.length_append, List.length_singleton] at hlength ⊢
    omega
  · intro hmore oldest holdest
    rw [Span.lt_def]
    exact Nat.lt_of_not_le fun hold ↦ hstop ⟨hmore, oldest, holdest, hold⟩

/-- A fresh window with a history holds the end of it, and two samples if there were two. -/
theorem isSuffix_recordAll (width : Span) (history : List Sample) :
    (recordAll width history).width = width ∧ (recordAll width history).samples <:+ history ∧
      min minRetained history.length ≤ (recordAll width history).samples.length := by
  induction history using List.reverseRecOn with
  | nil => exact ⟨rfl, List.suffix_rfl, Nat.min_le_right _ _⟩
  | append_singleton past newest ih =>
    obtain ⟨hwidth, hsuffix, henough⟩ := ih
    obtain ⟨n, hdrop, hbefore, hstop⟩ := exists_expire_eq_drop width newest.time
      ((recordAll width past).samples ++ [newest])
    have htrimmed := trimmed_drop hsuffix henough hbefore hstop
    rw [recordAll_concat, record, hwidth, hdrop]
    exact ⟨rfl, htrimmed.isSuffix, htrimmed.enough⟩

/-- After each record, in whatever order samples come, a fresh window holds what `Trimmed` says. The
record dropped the fewest samples that lead there, each too old and from among more than two. -/
theorem exists_samples_recordAll_eq_drop (width : Span) (past : List Sample) (newest : Sample) :
    let held := (recordAll width past).samples ++ [newest]
    let history := past ++ [newest]
    ∃ n, (recordAll width history).samples = held.drop n ∧
      Trimmed width history newest (held.drop n) ∧
      ∀ i < n, ¬Trimmed width history newest (held.drop i) ∧
        minRetained < (held.drop i).length ∧
        ∃ dropped, held[i]? = some dropped ∧ width ≤ newest.time.since dropped.time := by
  intro held history
  obtain ⟨hwidth, hsuffix, henough⟩ := isSuffix_recordAll width past
  obtain ⟨n, hdrop, hbefore, hstop⟩ := exists_expire_eq_drop width newest.time held
  refine ⟨n, ?_, trimmed_drop hsuffix henough hbefore hstop, fun i hi ↦ ?_⟩
  · rw [← hdrop, recordAll_concat, record, hwidth]
  · obtain ⟨hmore, dropped, hdropped, hold⟩ := hbefore i hi
    rw [List.head?_drop] at hdropped
    exact ⟨fun h ↦ h.not_overdue (hbefore i hi), hmore, dropped, hdropped, hold⟩

/-- The second sample is too old at the fourth, but stands behind the first one, which is not. -/
example :
    let at_ (seconds : UInt64) : Sample :=
      ⟨(Moment.base.later? (.ofSeconds seconds)).getD .base, seconds⟩
    let history := [at_ 9, at_ 2, at_ 10, at_ 11]
    (recordAll (.ofSeconds 7) history).samples = history ∧
      counting (.ofSeconds 7) history = [at_ 9, at_ 10, at_ 11] := by
  decide +kernel

end

end BlockWatch.Window
