import BlockWatch.Progress.Window
import Mathlib.Data.List.Basic
import Mathlib.Order.Basic

/-!
# The window as a function of the whole history

A window is trimmed sample by sample. `retained` says without any trimming what it holds after a
history of samples: the two newest, and before them those that lie less than the width before the
newest. In time order both agree, so a sample that was dropped never belongs to a later window.
-/

namespace BlockWatch

/-- Samples as a clock gives them: none is earlier than one before it. -/
def InTimeOrder (history : List Sample) : Prop :=
  history.Pairwise fun s t ↦ s.time.nanos ≤ t.time.nanos

/-- A history is empty, or a single sample, or ends in two samples. -/
theorem history_cases (history : List Sample) :
    history = [] ∨ (∃ s, history = [s]) ∨ ∃ older s newest, history = older ++ [s, newest] := by
  rcases history.eq_nil_or_concat' with rfl | ⟨front, newest, rfl⟩
  · exact .inl rfl
  rcases front.eq_nil_or_concat' with rfl | ⟨older, s, rfl⟩
  · exact .inr (.inl ⟨newest, rfl⟩)
  · exact .inr (.inr ⟨older, s, newest, List.append_assoc older [s] [newest]⟩)

namespace Window

/-- Whether a sample lies less than the width before a moment. -/
def isRecent (width : Span) (now : Moment) (s : Sample) : Bool := decide (now.since s.time < width)

/-- The samples of a history that count at its newest one. -/
def retained (width : Span) (history : List Sample) : List Sample :=
  match history.getLast? with
  | none => []
  | some newest =>
    let older := history.length - minRetained
    (history.take older).filter (isRecent width newest.time) ++ history.drop older

@[simp]
theorem retained_nil (width : Span) : retained width [] = [] := rfl

@[simp]
theorem retained_singleton (width : Span) (s : Sample) : retained width [s] = [s] := rfl

theorem retained_append_pair (width : Span) (history : List Sample) (s newest : Sample) :
    retained width (history ++ [s, newest]) =
      history.filter (isRecent width newest.time) ++ [s, newest] := by
  have hlast : (history ++ [s, newest]).getLast? = some newest := by simp
  have holder : (history ++ [s, newest]).length - minRetained = history.length := by
    simp [minRetained]
  simp only [retained, hlast, holder, List.take_left, List.drop_left]

theorem retained_sublist (width : Span) (history : List Sample) :
    (retained width history).Sublist history := by
  obtain rfl | ⟨s, rfl⟩ | ⟨older, s, newest, rfl⟩ := history_cases history
  · exact List.Sublist.refl _
  · exact List.Sublist.refl _
  · rw [retained_append_pair]
    exact List.filter_sublist.append_right _

/-! ## Trimming -/

theorem not_isRecent_iff {width : Span} {now : Moment} {s : Sample} :
    isRecent width now s = false ↔ width ≤ now.since s.time := by
  simp only [isRecent, decide_eq_false_iff_not, Span.lt_def, Span.le_def, Nat.not_lt]

/-- What is recent at a later moment was recent before. -/
theorem isRecent_of_le {width : Span} {now later : Moment} {s : Sample}
    (hle : now.nanos ≤ later.nanos) (h : isRecent width later s = true) :
    isRecent width now s = true := by
  simp only [isRecent, decide_eq_true_eq, Span.lt_def, Moment.nanos_since] at h ⊢
  omega

/-- A later sample is recent if an earlier one is. -/
theorem isRecent_of_later {width : Span} {now : Moment} {s t : Sample}
    (hle : s.time.nanos ≤ t.time.nanos) (h : isRecent width now s = true) :
    isRecent width now t = true := by
  simp only [isRecent, decide_eq_true_eq, Span.lt_def, Moment.nanos_since] at h ⊢
  omega

/-- Trimming never reaches the two newest samples, and before them drops from the front. -/
theorem expire_append_pair (width : Span) (now : Moment) (older : List Sample) (s t : Sample) :
    expire width now (older ++ [s, t]) =
      older.dropWhile (fun x ↦ !isRecent width now x) ++ [s, t] := by
  induction older with
  | nil => simp [expire, minRetained]
  | cons x rest ih =>
    have hlength : minRetained ≤ (rest ++ [s, t]).length := by simp [minRetained]
    rw [List.cons_append, expire, List.dropWhile_cons]
    cases hx : isRecent width now x with
    | false =>
      rw [if_pos ⟨hlength, not_isRecent_iff.mp hx⟩, ih]
      rfl
    | true =>
      have hyoung : ¬width ≤ now.since x.time := by
        rw [← not_isRecent_iff, hx]
        exact Bool.noConfusion
      rw [if_neg fun h ↦ hyoung h.2]
      rfl

/-- In time order nothing recent stands before anything that is not. -/
theorem dropWhile_eq_filter_isRecent {width : Span} {now : Moment} {history : List Sample}
    (sorted : InTimeOrder history) :
    history.dropWhile (fun x ↦ !isRecent width now x) = history.filter (isRecent width now) := by
  induction history with
  | nil => rfl
  | cons x rest ih =>
    have hrest := List.pairwise_cons.mp sorted
    rw [List.dropWhile_cons, List.filter_cons]
    cases hx : isRecent width now x with
    | false => simpa using ih hrest.2
    | true =>
      have hall : rest.filter (isRecent width now) = rest :=
        List.filter_eq_self.mpr fun y hy ↦ isRecent_of_later (hrest.1 y hy) hx
      simp [hall]

/-- Trimming at the next sample what was kept so far gives what the longer history keeps. -/
theorem expire_retained_append {width : Span} {history : List Sample} {newest : Sample}
    (sorted : InTimeOrder (history ++ [newest])) :
    expire width newest.time (retained width history ++ [newest]) =
      retained width (history ++ [newest]) := by
  obtain rfl | ⟨s, rfl⟩ | ⟨older, s, t, rfl⟩ := history_cases history
  · rfl
  · rfl
  have horder : InTimeOrder (older ++ [s] ++ [t, newest]) := by simpa using sorted
  have hfront : InTimeOrder (older ++ [s]) := (List.pairwise_append.mp horder).1
  have hnewest : t.time.nanos ≤ newest.time.nanos :=
    List.rel_of_pairwise_cons (List.pairwise_append.mp horder).2.1 (by simp)
  -- What was dropped at `t` is not recent at `newest` either.
  have hkept : (older.filter (isRecent width t.time) ++ [s]).filter
      (isRecent width newest.time) = (older ++ [s]).filter (isRecent width newest.time) := by
    simp only [List.filter_append, List.filter_filter]
    congr 1
    refine List.filter_congr fun x _ ↦ ?_
    cases hx : isRecent width newest.time x with
    | false => rfl
    | true => simpa using isRecent_of_le hnewest hx
  have hsorted : InTimeOrder (older.filter (isRecent width t.time) ++ [s]) :=
    hfront.sublist (List.filter_sublist.append_right _)
  calc
    expire width newest.time (retained width (older ++ [s, t]) ++ [newest]) =
        expire width newest.time
          ((older.filter (isRecent width t.time) ++ [s]) ++ [t, newest]) := by
      rw [retained_append_pair]
      simp only [List.append_assoc, List.cons_append, List.nil_append]
    _ = (older ++ [s]).filter (isRecent width newest.time) ++ [t, newest] := by
      rw [expire_append_pair, dropWhile_eq_filter_isRecent hsorted, hkept]
    _ = retained width (older ++ [s, t] ++ [newest]) := by
      rw [← retained_append_pair]
      simp only [List.append_assoc, List.cons_append, List.nil_append]

/-- Samples that lie at least the width before the newest do not count, if two others do. -/
theorem retained_append_of_stale {width : Span} {front older : List Sample} {s newest : Sample}
    (hstale : ∀ x ∈ front, isRecent width newest.time x = false) :
    retained width (front ++ (older ++ [s, newest])) = retained width (older ++ [s, newest]) := by
  have hfront : front.filter (isRecent width newest.time) = [] :=
    List.filter_eq_nil_iff.mpr fun x hx ↦ by simp [hstale x hx]
  rw [← List.append_assoc, retained_append_pair, retained_append_pair, List.filter_append, hfront,
    List.nil_append]

/-- Recording keeps the window at what the whole history retains. -/
theorem record_retained {width : Span} {history : List Sample} {newest : Sample}
    (sorted : InTimeOrder (history ++ [newest])) :
    record ⟨width, retained width history⟩ newest =
      ⟨width, retained width (history ++ [newest])⟩ := by
  simp only [record, expire_retained_append sorted]

end Window

end BlockWatch
