import BlockWatch.Proofs.Scenario.Layout
import BlockWatch.Proofs.Scenario.Plan

/-!
# Who plays which part

Homes can be given their parts exactly if there are a validator and two observers among them, however
they are mixed. There is then one way to do it: the first validator leads, the last observer joins
late, and all others keep the order in which they stand. No home is left out or given two parts.
-/

namespace BlockWatch

namespace Cast

variable {homes : List NodeHome} {cast : Cast}

/-- The parts are played by these homes: each role in the order of the homes, with the first validator
in the lead, the last observer late, and some observer early. -/
structure IsPlayedBy (cast : Cast) (homes : List NodeHome) : Prop where
  leader : homes.find? (·.role = .validator) = some cast.leader
  late : homes.reverse.find? (·.role = .observer) = some cast.late
  validators : homes.filter (·.role = .validator) = cast.leader :: cast.validators
  observers : homes.filter (·.role = .observer) = cast.early ++ [cast.late]
  early : cast.early ≠ []
  everyone : cast.inOrder.Perm homes

/-- Somebody joins early in every cast. -/
theorem early_ne_nil_of_ofHomes? (h : ofHomes? homes = some cast) : cast.early ≠ [] := by
  have henough := (isSome_ofHomes?_iff.mp (Option.isSome_of_eq_some h)).2
  rw [count_role, List.countP_eq_length_filter, (ofHomes?_eq_some h).2, List.length_append]
    at henough
  exact List.ne_nil_of_length_pos (Nat.le_of_succ_le_succ henough)

/-- The parts follow from the homes of each role. -/
theorem ofHomes?_of_filter
    (hvalidators : homes.filter (·.role = .validator) = cast.leader :: cast.validators)
    (hobservers : homes.filter (·.role = .observer) = cast.early ++ [cast.late])
    (hearly : cast.early ≠ []) : ofHomes? homes = some cast := by
  obtain ⟨first, rest, hsplit⟩ := List.exists_cons_of_ne_nil hearly
  rw [ofHomes?, hvalidators]
  dsimp only
  rw [hobservers, List.getLast?_concat, List.dropLast_concat, hsplit]
  dsimp only
  rw [← hsplit]

theorem isPlayedBy_of_ofHomes? (h : ofHomes? homes = some cast) : cast.IsPlayedBy homes := by
  obtain ⟨hvalidators, hobservers⟩ := ofHomes?_eq_some h
  refine ⟨?_, ?_, hvalidators, hobservers, early_ne_nil_of_ofHomes? h, inOrder_perm h⟩
  · rw [← List.head?_filter, hvalidators]
    rfl
  · rw [← List.head?_filter, List.filter_reverse, hobservers, List.head?_reverse,
      List.getLast?_concat]

/-- Homes can be given their parts if and only if there are a validator and two observers among them,
and the parts they are given are the ones they play. -/
theorem ofHomes?_eq_some_iff_isPlayedBy (homes : List NodeHome) :
    ((ofHomes? homes).isSome = true ↔
      1 ≤ homes.countP (·.role = .validator) ∧ 2 ≤ homes.countP (·.role = .observer)) ∧
    ∀ cast, ofHomes? homes = some cast ↔ cast.IsPlayedBy homes := by
  refine ⟨?_, fun cast ↦ ⟨isPlayedBy_of_ofHomes?, fun hplayed ↦ ?_⟩⟩
  · rw [isSome_ofHomes?_iff, count_role, count_role]
  · exact ofHomes?_of_filter hplayed.validators hplayed.observers hplayed.early

end Cast

end BlockWatch
