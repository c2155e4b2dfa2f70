import BlockWatch.Proofs.Progress.Retained
import BlockWatch.Poll.Error
import Mathlib.Data.List.Range
import Mathlib.Order.Monotone.Basic

/-!
# What the reports of a node amount to

A node answers poll after poll, and what it has reported up to some poll is a function of these
answers alone: the greatest height, how many polls failed, and the samples that the successful ones
leave. The sample of a poll holds the greatest height up to that poll, not the reported one, so
heights never fall along the samples.
-/

namespace BlockWatch

/-- The answers of a node to the polls of a wait, counted from zero. -/
abbrev Reports : Type := ℕ → Report

namespace Reports

variable (reports : Reports)

/-- The heights among the first `n` answers. -/
def heights (n : ℕ) : List UInt64 := (List.range n).filterMap fun i ↦ (reports i).toOption

/-- The greatest height among the first `n` answers, zero if there is none. -/
def peak (n : ℕ) : UInt64 := (reports.heights n).foldl max 0

/-- How many of the first `n` polls failed. -/
def failures (n : ℕ) : ℕ := (List.range n).countP fun i ↦ (reports i).toOption.isNone

/-- The sample of poll `i`, answered at a given time, if it did not fail. -/
def sample? (time : ℕ → Moment) (i : ℕ) : Option Sample :=
  (reports i).toOption.map fun _ ↦ ⟨time i, reports.peak (i + 1)⟩

/-- The samples of the first `n` polls. -/
def samples (time : ℕ → Moment) (n : ℕ) : List Sample :=
  (List.range n).filterMap (reports.sample? time)

/-! ## One more poll -/

theorem filterMap_range_succ {α : Type} (f : ℕ → Option α) (n : ℕ) :
    (List.range (n + 1)).filterMap f = (List.range n).filterMap f ++ (f n).toList := by
  rw [List.range_succ, List.filterMap_append]
  cases h : f n <;> simp [h]

variable {reports}

theorem heights_succ (n : ℕ) :
    reports.heights (n + 1) = reports.heights n ++ (reports n).toOption.toList :=
  filterMap_range_succ _ n

theorem samples_succ (time : ℕ → Moment) (n : ℕ) :
    reports.samples time (n + 1) =
      reports.samples time n ++ (reports.sample? time n).toList :=
  filterMap_range_succ _ n

theorem peak_succ_of_ok {n : ℕ} {height : UInt64} (h : reports n = .ok height) :
    reports.peak (n + 1) = max (reports.peak n) height := by
  simp [peak, heights_succ, h, Except.toOption]

theorem peak_succ_of_error {n : ℕ} {cause : PollError} (h : reports n = .error cause) :
    reports.peak (n + 1) = reports.peak n := by
  simp [peak, heights_succ, h, Except.toOption]

theorem failures_succ_of_ok {n : ℕ} {height : UInt64} (h : reports n = .ok height) :
    reports.failures (n + 1) = reports.failures n := by
  simp [failures, List.range_succ, h, Except.toOption]

theorem failures_succ_of_error {n : ℕ} {cause : PollError} (h : reports n = .error cause) :
    reports.failures (n + 1) = reports.failures n + 1 := by
  simp [failures, List.range_succ, h, Except.toOption]

theorem samples_succ_of_ok {time : ℕ → Moment} {n : ℕ} {height : UInt64}
    (h : reports n = .ok height) :
    reports.samples time (n + 1) = reports.samples time n ++ [⟨time n, reports.peak (n + 1)⟩] := by
  simp [samples_succ, sample?, h, Except.toOption]

theorem samples_succ_of_error {time : ℕ → Moment} {n : ℕ} {cause : PollError}
    (h : reports n = .error cause) :
    reports.samples time (n + 1) = reports.samples time n := by
  simp [samples_succ, sample?, h, Except.toOption]

/-- A report only counts as far as it exceeds what was known. -/
theorem max_eq_ite (known reported : UInt64) :
    max known reported = if reported < known then known else reported := by
  change (if known ≤ reported then reported else known) = _
  by_cases h : reported < known
  · have hle : ¬known ≤ reported := UInt64.not_le.mpr h
    rw [if_pos h, if_neg hle]
  · rw [if_neg h, if_pos (UInt64.not_lt.mp h)]

theorem max_eq_known {a b : UInt64} (h : b ≤ a) : max a b = a := by
  rw [max_eq_ite]
  split
  · rfl
  · exact UInt64.le_antisymm h (UInt64.not_lt.mp ‹_›)

theorem max_eq_reported {a b : UInt64} (h : a ≤ b) : max a b = b := if_pos h

theorem le_max_known (known reported : UInt64) : known ≤ max known reported := by
  rw [max_eq_ite]
  split
  · exact UInt64.le_refl _
  · exact UInt64.not_lt.mp ‹_›

theorem le_max_reported (known reported : UInt64) : reported ≤ max known reported := by
  rw [max_eq_ite]
  split
  · exact UInt64.le_of_lt ‹_›
  · exact UInt64.le_refl _

theorem peak_mono {m n : ℕ} (hmn : m ≤ n) : reports.peak m ≤ reports.peak n := by
  induction n, hmn using Nat.le_induction with
  | base => exact UInt64.le_refl _
  | succ n _ ih =>
    refine UInt64.le_trans ih ?_
    cases h : reports n with
    | ok height =>
      rw [peak_succ_of_ok h]
      exact le_max_known _ _
    | error cause =>
      rw [peak_succ_of_error h]
      exact UInt64.le_refl _

/-- The greatest height stays as long as no report exceeds it. -/
theorem peak_eq_of_bounded {m n : ℕ} (hmn : m ≤ n)
    (hbound : ∀ k, m ≤ k → k < n → ∀ height, reports k = .ok height → height ≤ reports.peak m) :
    reports.peak n = reports.peak m := by
  induction n, hmn using Nat.le_induction with
  | base => rfl
  | succ n hmn ih =>
    have hprev := ih fun k hmk hkn ↦ hbound k hmk (hkn.trans (Nat.lt_succ_self n))
    cases h : reports n with
    | ok height =>
      rw [peak_succ_of_ok h, hprev]
      exact max_eq_known (hbound n hmn (Nat.lt_succ_self n) height h)
    | error cause => rw [peak_succ_of_error h, hprev]

/-! ## Samples in time order -/

theorem sample?_eq_some {time : ℕ → Moment} {i : ℕ} {s : Sample}
    (h : reports.sample? time i = some s) : s = ⟨time i, reports.peak (i + 1)⟩ := by
  obtain ⟨_, _, hs⟩ := Option.map_eq_some_iff.mp h
  exact hs.symm

theorem inTimeOrder_samples {time : ℕ → Moment} (hmono : Monotone fun i ↦ (time i).nanos)
    (n : ℕ) : InTimeOrder (reports.samples time n) := by
  refine List.pairwise_filterMap.mpr (List.pairwise_lt_range.imp ?_)
  intro i j hij s hs t ht
  rw [sample?_eq_some hs, sample?_eq_some ht]
  exact hmono hij.le

/-- From a successful poll on, each sample is that of a poll. -/
theorem exists_samples_after {time : ℕ → Moment} {j n : ℕ} {height : UInt64}
    (hj : reports j = .ok height) (hjn : j < n) :
    ∃ later, reports.samples time n =
        reports.samples time j ++ ⟨time j, reports.peak (j + 1)⟩ :: later ∧
      ∀ s ∈ later, ∃ k, j < k ∧ k < n ∧ s = ⟨time k, reports.peak (k + 1)⟩ := by
  induction n, hjn using Nat.le_induction with
  | base => exact ⟨[], samples_succ_of_ok hj, by simp⟩
  | succ n hjn ih =>
    obtain ⟨later, hsamples, hlater⟩ := ih
    refine ⟨later ++ (reports.sample? time n).toList, ?_, ?_⟩
    · rw [samples_succ, hsamples, List.append_assoc, List.cons_append]
    · intro s hs
      rcases List.mem_append.mp hs with hold | hnew
      · obtain ⟨k, hjk, hkn, rfl⟩ := hlater s hold
        exact ⟨k, hjk, hkn.trans (Nat.lt_succ_self n), rfl⟩
      · exact ⟨n, hjn, Nat.lt_succ_self n, sample?_eq_some (Option.mem_toList.mp hnew)⟩

theorem mem_samples {time : ℕ → Moment} {n : ℕ} {s : Sample} (hs : s ∈ reports.samples time n) :
    ∃ i < n, s = ⟨time i, reports.peak (i + 1)⟩ := by
  obtain ⟨i, hi, hsome⟩ := List.mem_filterMap.mp hs
  exact ⟨i, List.mem_range.mp hi, sample?_eq_some hsome⟩

end Reports

end BlockWatch
