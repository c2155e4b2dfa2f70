import BlockWatch.Json.Value
import Mathlib.Data.List.Basic

/-!
# The members of an object

Inserting a member changes what is found at its key and nothing else. This holds of any list of
members, in whatever order they are.
-/

namespace BlockWatch.Json.Members

/-- The members at other keys. -/
def without (key : String) (members : Members) : Members := members.filter (·.1 ≠ key)

@[simp]
theorem find?_insert_self (key : String) (value : Value) (members : Members) :
    (members.insert key value).find? key = some value := by
  induction members with
  | nil => simp [insert, find?]
  | cons member rest ih =>
    rw [insert]
    split_ifs with hname hbefore
    · simp [find?]
    · simp [find?]
    · rw [find?, if_neg hname]
      exact ih

theorem find?_insert_of_ne {key other : String} (h : other ≠ key) (value : Value)
    (members : Members) : (members.insert key value).find? other = members.find? other := by
  induction members with
  | nil => simp [insert, find?, h.symm]
  | cons member rest ih =>
    rw [insert]
    split_ifs with hname hbefore
    · have hother : member.1 ≠ other := fun hmember ↦ h (hmember.symm.trans hname)
      rw [find?, if_neg h.symm, find?, if_neg hother]
    · rw [find?, if_neg h.symm]
    · rw [find?, find?, ih]

@[simp]
theorem insert_insert (key : String) (value later : Value) (members : Members) :
    (members.insert key value).insert key later = members.insert key later := by
  induction members with
  | nil => simp [insert]
  | cons member rest ih =>
    rw [insert, insert]
    split_ifs with hname hbefore
    · simp [insert]
    · simp [insert]
    · rw [insert, if_neg hname, if_neg hbefore, ih]

@[simp]
theorem without_insert (key : String) (value : Value) (members : Members) :
    (members.insert key value).without key = members.without key := by
  induction members with
  | nil => simp [insert, without]
  | cons member rest ih =>
    rw [insert]
    split_ifs with hname hbefore
    · simp [without, hname]
    · simp [without]
    · simp only [without, List.filter_cons] at ih ⊢
      rw [ih]

end BlockWatch.Json.Members
