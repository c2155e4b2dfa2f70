import BlockWatch.Proofs.Json.Lookup
import Mathlib.Data.String.Basic

/-!
# Shapes of values

Properties of a whole value: that the members of its objects are in the order of their keys, that it
holds no floating point numbers, and how many arrays and objects lie in each other. Writing at a
dotted path keeps the first two.
-/

namespace BlockWatch.Json

namespace Value

/-- The values directly inside a value. -/
def children : Value → List Value
  | array items => items
  | object members => members.map (·.2)
  | _ => []

def isContainer : Value → Bool
  | array _ | object _ => true
  | _ => false

/-- Induction over the values inside a value. -/
@[elab_as_elim]
theorem inductionOn {motive : Value → Prop} (null : motive .null)
    (boolean : ∀ flag, motive (.boolean flag)) (integer : ∀ n, motive (.integer n))
    (float : ∀ x, motive (.float x)) (string : ∀ text, motive (.string text))
    (array : ∀ items, (∀ item ∈ items, motive item) → motive (.array items))
    (object : ∀ members, (∀ member ∈ members, motive member.2) → motive (.object members))
    (value : Value) : motive value := by
  refine @Value.rec motive (fun items ↦ ∀ item ∈ items, motive item)
    (fun members ↦ ∀ member ∈ members, motive member.2) (fun member ↦ motive member.2)
    null boolean integer float string array object ?_ ?_ ?_ ?_ ?_ value
  · exact fun item hmem ↦ absurd hmem List.not_mem_nil
  · exact fun head tail hhead htail ↦ List.forall_mem_cons.mpr ⟨hhead, htail⟩
  · exact fun member hmem ↦ absurd hmem List.not_mem_nil
  · exact fun head tail hhead htail ↦ List.forall_mem_cons.mpr ⟨hhead, htail⟩
  · exact fun _ _ h ↦ h

/-- A property of a value and of all values inside it. -/
inductive All (p : Value → Prop) : Value → Prop
  | intro {value : Value} (here : p value) (inside : ∀ inner ∈ value.children, All p inner) :
    All p value

/-- At most so many arrays and objects lie in each other. -/
inductive Nests : ℕ → Value → Prop
  | scalar {levels : ℕ} {value : Value} (h : value.isContainer = false) : Nests levels value
  | container {levels : ℕ} {value : Value} (inside : ∀ inner ∈ value.children, Nests levels inner) :
    Nests (levels + 1) value

/-- The keys of an object ascend. -/
def KeysAscend : Value → Prop
  | object members => members.Pairwise (·.1 < ·.1)
  | _ => True

def IsExact : Value → Prop
  | float _ => False
  | _ => True

/-- The members of all objects are in the order of their keys. -/
def Ordered : Value → Prop := All KeysAscend

/-- There are no floating point numbers. -/
def Exact : Value → Prop := All IsExact

variable {p : Value → Prop} {value : Value} {items : List Value} {members : Members}

theorem all_iff : All p value ↔ p value ∧ ∀ inner ∈ value.children, All p inner :=
  ⟨fun ⟨here, inside⟩ ↦ ⟨here, inside⟩, fun h ↦ ⟨h.1, h.2⟩⟩

theorem all_array_iff : All p (.array items) ↔ p (.array items) ∧ ∀ item ∈ items, All p item :=
  all_iff

theorem all_object_iff :
    All p (.object members) ↔ p (.object members) ∧ ∀ member ∈ members, All p member.2 := by
  rw [all_iff, children, List.forall_mem_map]

theorem all_of_not_isContainer (h : value.isContainer = false) (here : p value) : All p value := by
  refine ⟨here, fun inner hinner ↦ ?_⟩
  cases value with
  | array items => exact absurd h (by simp [isContainer])
  | object members => exact absurd h (by simp [isContainer])
  | _ => exact absurd hinner List.not_mem_nil

theorem ordered_object_iff : Ordered (.object members) ↔
    members.Pairwise (·.1 < ·.1) ∧ ∀ member ∈ members, Ordered member.2 :=
  all_object_iff

theorem Nests.mono {m n : ℕ} (h : Nests m value) (hmn : m ≤ n) : Nests n value := by
  induction h generalizing n with
  | scalar h => exact .scalar h
  | container _ ih =>
    obtain ⟨k, rfl⟩ := Nat.exists_eq_add_of_lt hmn
    exact .container fun inner hinner ↦ ih inner hinner (Nat.le_add_right _ _)

theorem nests_succ_iff {levels : ℕ} :
    Nests (levels + 1) value ↔ ∀ inner ∈ value.children, Nests levels inner := by
  refine ⟨fun h ↦ ?_, .container⟩
  cases h with
  | container inside => exact inside
  | scalar h =>
    intro inner hinner
    cases value with
    | array items => exact absurd h (by simp [isContainer])
    | object members => exact absurd h (by simp [isContainer])
    | _ => exact absurd hinner List.not_mem_nil

theorem nests_array_iff {levels : ℕ} :
    Nests (levels + 1) (.array items) ↔ ∀ item ∈ items, Nests levels item :=
  nests_succ_iff

theorem nests_object_iff {levels : ℕ} :
    Nests (levels + 1) (.object members) ↔ ∀ member ∈ members, Nests levels member.2 := by
  rw [nests_succ_iff, children, List.forall_mem_map]

/-- A value that nests no level is no container. -/
theorem Nests.pos {levels : ℕ} (h : Nests levels value) (hcontainer : value.isContainer = true) :
    ∃ inner, levels = inner + 1 := by
  cases h with
  | scalar h => simp [h] at hcontainer
  | container => exact ⟨_, rfl⟩

end Value

/-! ## Inserting members -/

namespace Members

variable {key : String} {value : Value} {members : Members}

/-- A member of an object after an insertion was there before or is the new one. -/
theorem mem_insert {member : String × Value} (h : member ∈ members.insert key value) :
    member = (key, value) ∨ member ∈ members := by
  induction members with
  | nil => exact .inl (List.mem_singleton.mp h)
  | cons first rest ih =>
    rw [insert] at h
    split_ifs at h with hname hbefore
    · rcases List.mem_cons.mp h with rfl | hrest
      · exact .inl rfl
      · exact .inr (List.mem_cons_of_mem _ hrest)
    · exact List.mem_cons.mp h
    · rcases List.mem_cons.mp h with rfl | hrest
      · exact .inr List.mem_cons_self
      · exact (ih hrest).imp_right (List.mem_cons_of_mem _)

theorem pairwise_insert (h : members.Pairwise (·.1 < ·.1)) :
    (members.insert key value).Pairwise (·.1 < ·.1) := by
  induction members with
  | nil => exact List.pairwise_singleton _ _
  | cons first rest ih =>
    obtain ⟨hfirst, hrest⟩ := List.pairwise_cons.mp h
    rw [insert]
    split_ifs with hname hbefore
    · exact List.pairwise_cons.mpr ⟨hname ▸ hfirst, hrest⟩
    · refine List.pairwise_cons.mpr ⟨List.forall_mem_cons.mpr ⟨hbefore, ?_⟩, h⟩
      exact fun member hmem ↦ hbefore.trans (hfirst member hmem)
    · refine List.pairwise_cons.mpr ⟨fun member hmem ↦ ?_, ih hrest⟩
      rcases mem_insert hmem with rfl | hmem
      · exact lt_of_le_of_ne (not_lt.mp hbefore) hname
      · exact hfirst member hmem

/-- A member whose key is greater than all others comes last. -/
theorem insert_of_lt (h : ∀ member ∈ members, member.1 < key) :
    members.insert key value = members ++ [(key, value)] := by
  induction members with
  | nil => rfl
  | cons first rest ih =>
    obtain ⟨hfirst, hrest⟩ := List.forall_mem_cons.mp h
    rw [insert, if_neg hfirst.ne, if_neg hfirst.not_gt, ih hrest]
    rfl

theorem mem_of_find?_eq_some (h : members.find? key = some value) : (key, value) ∈ members := by
  induction members with
  | nil => cases h
  | cons first rest ih =>
    rw [find?] at h
    split_ifs at h with hname
    · obtain rfl := Option.some.inj h
      rw [← hname]
      exact List.mem_cons_self
    · exact List.mem_cons_of_mem _ (ih h)

theorem all_insert {p : Value → Prop} (hobject : p (.object (members.insert key value)))
    (hmembers : Value.All p (.object members)) (hvalue : Value.All p value) :
    Value.All p (.object (members.insert key value)) := by
  refine Value.all_object_iff.mpr ⟨hobject, fun member hmem ↦ ?_⟩
  rcases mem_insert hmem with rfl | hmem
  · exact hvalue
  · exact (Value.all_object_iff.mp hmembers).2 member hmem

end Members

/-! ## Writing at paths -/

namespace DottedPath

/-- What an insertion cannot break and all values have is kept by a write. -/
theorem all_setKeys {p : Value → Prop}
    (hinsert : ∀ members key value, p (.object members) →
      p (.object (Members.insert key value members)))
    (hempty : p (.object [])) {value : Value} (hvalue : value.All p) (keys : List String)
    {members : Members} (hmembers : Value.All p (.object members)) :
    Value.All p (.object (setKeys value keys members)) := by
  induction keys generalizing members with
  | nil => exact hmembers
  | cons key rest ih =>
    have hhere := (Value.all_object_iff.mp hmembers).1
    by_cases hrest : rest = []
    · rw [hrest, setKeys_singleton]
      exact Members.all_insert (hinsert _ _ _ hhere) hmembers hvalue
    · rw [setKeys_cons hrest]
      apply Members.all_insert (hinsert _ _ _ hhere) hmembers
      apply ih
      cases hfound : members.find? key with
      | none => exact Value.all_object_iff.mpr ⟨hempty, fun _ h ↦ absurd h List.not_mem_nil⟩
      | some found =>
        have hinner := (Value.all_object_iff.mp hmembers).2 _ (Members.mem_of_find?_eq_some hfound)
        cases found with
        | object inner => exact hinner
        | _ => exact Value.all_object_iff.mpr ⟨hempty, fun _ h ↦ absurd h List.not_mem_nil⟩

theorem all_setAll {p : Value → Prop}
    (hinsert : ∀ members key value, p (.object members) →
      p (.object (Members.insert key value members)))
    (hempty : p (.object [])) {changes : List (String × Value)}
    (hchanges : ∀ change ∈ changes, change.2.All p) {members : Members}
    (hmembers : Value.All p (.object members)) :
    Value.All p (.object (setAll members changes)) := by
  induction changes generalizing members with
  | nil => exact hmembers
  | cons change rest ih =>
    obtain ⟨hchange, hrest⟩ := List.forall_mem_cons.mp hchanges
    exact ih hrest (all_setKeys hinsert hempty hchange (keys change.1) hmembers)

theorem ordered_setAll {changes : List (String × Value)}
    (hchanges : ∀ change ∈ changes, change.2.Ordered) {members : Members}
    (hmembers : Value.Ordered (.object members)) :
    Value.Ordered (.object (setAll members changes)) :=
  all_setAll (fun _ _ _ h ↦ Members.pairwise_insert h) List.Pairwise.nil hchanges hmembers

theorem exact_setAll {changes : List (String × Value)}
    (hchanges : ∀ change ∈ changes, change.2.Exact) {members : Members}
    (hmembers : Value.Exact (.object members)) :
    Value.Exact (.object (setAll members changes)) :=
  all_setAll (fun _ _ _ _ ↦ trivial) trivial hchanges hmembers

/-- A write nests no deeper than what was there and what it puts below its keys. -/
theorem nests_setKeys {value : Value} {inner : ℕ} (hvalue : value.Nests inner) (keys : List String)
    {members : Members} {levels : ℕ} (hroom : keys.length + inner ≤ levels)
    (hmembers : Value.Nests levels (.object members)) :
    Value.Nests levels (.object (setKeys value keys members)) := by
  induction keys generalizing members levels with
  | nil => exact hmembers
  | cons key rest ih =>
    obtain ⟨below, rfl⟩ := hmembers.pos rfl
    have hbelow : rest.length + inner ≤ below := by
      rw [List.length_cons] at hroom
      omega
    have hinside := Value.nests_object_iff.mp hmembers
    by_cases hrest : rest = []
    · rw [hrest, setKeys_singleton]
      apply Value.nests_object_iff.mpr
      intro member hmember
      rcases Members.mem_insert hmember with rfl | hmember
      · exact hvalue.mono ((Nat.le_add_left _ _).trans hbelow)
      · exact hinside member hmember
    · rw [setKeys_cons hrest]
      apply Value.nests_object_iff.mpr
      intro member hmember
      rcases Members.mem_insert hmember with rfl | hmember
      · have hpos : 0 < rest.length := List.length_pos_iff.mpr hrest
        have hempty : Value.Nests below (.object []) := by
          obtain ⟨further, rfl⟩ := Nat.exists_eq_add_of_lt (show 0 < below by omega)
          exact Value.nests_object_iff.mpr fun _ h ↦ absurd h List.not_mem_nil
        apply ih hbelow
        cases hfound : members.find? key with
        | none => exact hempty
        | some found =>
          cases found with
          | object more => exact hinside _ (Members.mem_of_find?_eq_some hfound)
          | _ => exact hempty
      · exact hinside member hmember

theorem nests_setAll {changes : List (String × Value)} {levels : ℕ}
    (hchanges : ∀ change ∈ changes,
      ∃ inner, change.2.Nests inner ∧ (keys change.1).length + inner ≤ levels)
    {members : Members} (hmembers : Value.Nests levels (.object members)) :
    Value.Nests levels (.object (setAll members changes)) := by
  induction changes generalizing members with
  | nil => exact hmembers
  | cons change rest ih =>
    obtain ⟨⟨inner, hvalue, hroom⟩, hrest⟩ := List.forall_mem_cons.mp hchanges
    exact ih hrest (nests_setKeys hvalue (keys change.1) hroom hmembers)

end DottedPath

end BlockWatch.Json
