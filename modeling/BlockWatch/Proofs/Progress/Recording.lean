import BlockWatch.Proofs.Progress.Retained
import Mathlib.Data.List.Induction

/-!
# Recording a history

A fresh window takes the samples of a history one by one and trims after each of them. `counting`
recomputes the window from the whole history instead: a sample counts if it is one of the two newest
or lies less than the width before the newest. In time order both hold the same samples after every
record.
-/

namespace BlockWatch.Window

/-- A fresh window that has recorded a history. -/
def recordAll (width : Span) (history : List Sample) : Window := history.foldl record { width }

theorem recordAll_concat (width : Span) (past : List Sample) (newest : Sample) :
    recordAll width (past ++ [newest]) = (recordAll width past).record newest :=
  List.foldl_concat record _ newest past

/-- The samples of a history that are among its two newest or recent at its newest, in order. -/
def counting (width : Span) (history : List Sample) : List Sample :=
  match history.getLast? with
  | none => []
  | some newest =>
    (history.zipIdx.filter fun entry ↦
      decide (history.length ≤ entry.2 + minRetained) || isRecent width newest.time entry.1).map
        (·.1)

/-- Positions play no part in a filter that does not look at them. -/
theorem map_filter_zipIdx {α : Type} (p : α → Bool) (xs : List α) (first : ℕ) :
    ((xs.zipIdx first).filter fun entry ↦ p entry.1).map (·.1) = xs.filter p := by
  induction xs generalizing first with
  | nil => rfl
  | cons x rest ih =>
    rw [List.zipIdx_cons, List.filter_cons, List.filter_cons]
    cases p x with
    | true => simp only [if_true, List.map_cons, ih]
    | false => exact ih (first + 1)

/-- Beside the two newest samples only recent ones count. -/
theorem counting_append_pair (width : Span) (older : List Sample) (s newest : Sample) :
    counting width (older ++ [s, newest]) =
      older.filter (isRecent width newest.time) ++ [s, newest] := by
  have hlast : (older ++ [s, newest]).getLast? = some newest := by simp
  have hlength : (older ++ [s, newest]).length = older.length + minRetained := by
    simp [minRetained]
  have holder : older.zipIdx.filter (fun entry ↦
        decide (older.length + minRetained ≤ entry.2 + minRetained) ||
          isRecent width newest.time entry.1) =
      older.zipIdx.filter fun entry ↦ isRecent width newest.time entry.1 := by
    apply List.filter_congr
    intro entry hentry
    have hposition : entry.2 < older.length := (List.mem_zipIdx' hentry).1
    have hearly : ¬older.length + minRetained ≤ entry.2 + minRetained := by omega
    simp only [hearly, decide_false, Bool.false_or]
  have hnewest : ([s, newest].zipIdx older.length).filter (fun entry ↦
        decide (older.length + minRetained ≤ entry.2 + minRetained) ||
          isRecent width newest.time entry.1) = [s, newest].zipIdx older.length := by
    apply List.filter_eq_self.mpr
    intro entry hentry
    have hlate := List.le_snd_of_mem_zipIdx hentry
    simp only [Nat.add_le_add_iff_right, hlate, decide_true, Bool.true_or]
  simp only [counting, hlast, hlength]
  rw [List.zipIdx_append, List.filter_append, List.map_append, Nat.zero_add, holder,
    map_filter_zipIdx, hnewest]
  rfl

theorem retained_eq_counting (width : Span) (history : List Sample) :
    retained width history = counting width history := by
  obtain rfl | ⟨s, rfl⟩ | ⟨older, s, newest, rfl⟩ := history_cases history
  · rfl
  · rfl
  · rw [retained_append_pair, counting_append_pair]

/-- A window that has recorded a history in time order holds what the history retains. -/
theorem recordAll_eq {width : Span} {history : List Sample} (sorted : InTimeOrder history) :
    recordAll width history = ⟨width, retained width history⟩ := by
  induction history using List.reverseRecOn with
  | nil => rfl
  | append_singleton past newest ih =>
    have hpast : InTimeOrder past := (List.pairwise_append.mp sorted).1
    calc
      recordAll width (past ++ [newest]) = record (recordAll width past) newest :=
        recordAll_concat width past newest
      _ = record ⟨width, retained width past⟩ newest := by rw [ih hpast]
      _ = ⟨width, retained width (past ++ [newest])⟩ := record_retained sorted

/-- After each record of a history in time order, trimming has left exactly the samples that count
in the history so far. -/
theorem samples_recordAll_take (width : Span) {history : List Sample}
    (sorted : InTimeOrder history) (n : ℕ) :
    (recordAll width (history.take n)).samples = counting width (history.take n) := by
  have hpast : InTimeOrder (history.take n) := sorted.sublist (List.take_sublist n history)
  rw [recordAll_eq hpast, retained_eq_counting]

/-- A sample as old as the width no longer counts, and one that is older counts for as long as it
is among the two newest. -/
theorem samples_recordAll_take_of_gap :
    let at_ (seconds : UInt64) : Sample :=
      ⟨(Moment.base.later? (.ofSeconds seconds)).getD .base, seconds⟩
    let history := [at_ 0, at_ 3, at_ 7, at_ 20, at_ 21]
    InTimeOrder history ∧
      (recordAll (.ofSeconds 7) (history.take 3)).samples = [at_ 3, at_ 7] ∧
      (recordAll (.ofSeconds 7) (history.take 4)).samples = [at_ 7, at_ 20] ∧
      (recordAll (.ofSeconds 7) (history.take 5)).samples = [at_ 20, at_ 21] := by
  intro at_ history
  have sorted : InTimeOrder history := by
    unfold InTimeOrder
    decide +kernel +zetaReduce
  refine ⟨sorted, ?_, ?_, ?_⟩
  · rw [samples_recordAll_take _ sorted]
    decide +kernel +zetaReduce
  · rw [samples_recordAll_take _ sorted]
    decide +kernel +zetaReduce
  · rw [samples_recordAll_take _ sorted]
    decide +kernel +zetaReduce

end BlockWatch.Window
