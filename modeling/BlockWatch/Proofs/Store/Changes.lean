import BlockWatch.Store.Basic
import Mathlib.Data.List.Basic

/-!
# What a change of one name changes

Entries are given by the names that lead to them from the root. A change of one name of a directory
is seen at and below that name only; the directories on the way to it stay directories, and all else
stays as it is.
-/

namespace BlockWatch

namespace Entry

variable {name other : String} {entries : List (String × Entry)}

/-! ## Names of a directory -/

@[simp]
theorem find?_insert_self (name : String) (entry : Entry) (entries : List (String × Entry)) :
    find? name (insert name entry entries) = some entry := by
  induction entries with
  | nil => simp [insert, find?]
  | cons first rest ih =>
    rw [insert]
    split_ifs with hname hbefore
    · simp [find?]
    · simp [find?]
    · rw [find?, if_neg hname]
      exact ih

theorem find?_insert_of_ne (h : other ≠ name) (entry : Entry)
    (entries : List (String × Entry)) :
    find? other (insert name entry entries) = find? other entries := by
  induction entries with
  | nil => simp [insert, find?, h.symm]
  | cons first rest ih =>
    rw [insert]
    split_ifs with hname hbefore
    · have hother : first.1 ≠ other := fun hfirst ↦ h (hfirst.symm.trans hname)
      rw [find?, if_neg h.symm, find?, if_neg hother]
    · rw [find?, if_neg h.symm]
    · rw [find?, find?, ih]

@[simp]
theorem find?_erase_self (name : String) (entries : List (String × Entry)) :
    find? name (erase name entries) = none := by
  induction entries with
  | nil => rfl
  | cons first rest ih =>
    by_cases hname : first.1 = name
    · rw [erase, List.filter_cons_of_neg (by simp [hname])]
      exact ih
    · rw [erase, List.filter_cons_of_pos (by simp [hname]), find?, if_neg hname]
      exact ih

theorem find?_erase_of_ne (h : other ≠ name) (entries : List (String × Entry)) :
    find? other (erase name entries) = find? other entries := by
  induction entries with
  | nil => rfl
  | cons first rest ih =>
    by_cases hname : first.1 = name
    · have hother : first.1 ≠ other := fun hfirst ↦ h (hfirst.symm.trans hname)
      rw [erase, List.filter_cons_of_neg (by simp [hname]), find?, if_neg hother]
      exact ih
    · rw [erase, List.filter_cons_of_pos (by simp [hname]), find?, find?]
      split_ifs
      · rfl
      · exact ih

/-! ## Locations -/

theorem get?_append (location rest : List String) (root : Entry) :
    get? (location ++ rest) root = (get? location root).bind (get? rest) := by
  induction location generalizing root with
  | nil => rfl
  | cons name location ih =>
    cases root with
    | directory entries =>
      rw [List.cons_append, get?, get?]
      cases find? name entries with
      | none => rfl
      | some inner => exact ih inner
    | _ => rfl

theorem get?_append_singleton {location : List String} {root : Entry}
    (h : get? location root = some (.directory entries)) (name : String) :
    get? (location ++ [name]) root = find? name entries := by
  rw [get?_append, h, Option.bind_some, get?]
  cases find? name entries <;> rfl

/-- Something lies in directories only. -/
theorem exists_directory_of_get?_append {location rest : List String} {root entry : Entry}
    (h : get? (location ++ rest) root = some entry) (hrest : rest ≠ []) :
    ∃ entries, get? location root = some (.directory entries) := by
  rw [get?_append] at h
  obtain ⟨name, more, rfl⟩ := List.exists_cons_of_ne_nil hrest
  cases hlocation : get? location root with
  | none =>
    rw [hlocation] at h
    cases h
  | some found =>
    rw [hlocation, Option.bind_some] at h
    cases found with
    | directory entries => exact ⟨entries, rfl⟩
    | _ => cases h

/-- What an entry is, without what it holds. -/
def kind : Entry → Entry
  | file .. => .file .empty false
  | directory _ => .directory []
  | entry => entry

theorem eq_directory_of_kind {entry : Entry} (h : entry.kind = (directory entries).kind) :
    ∃ found, entry = .directory found := by
  cases entry with
  | directory found => exact ⟨found, rfl⟩
  | _ => cases h

theorem eq_link_of_kind {entry : Entry} {target : String} (h : entry.kind = (link target).kind) :
    entry = .link target := by
  cases entry with
  | link other => exact h
  | _ => cases h

section Kinds

variable {location : List String} {root next : Entry}
  (h : (get? location next).map kind = (get? location root).map kind)

include h

theorem exists_of_kind {entry : Entry} (hentry : get? location root = some entry) :
    ∃ found, get? location next = some found ∧ found.kind = entry.kind := by
  rw [hentry, Option.map_some] at h
  exact Option.map_eq_some_iff.mp h

theorem exists_directory_of_kind (hdirectory : get? location root = some (.directory entries)) :
    ∃ found, get? location next = some (.directory found) := by
  obtain ⟨found, hfound, hkind⟩ := exists_of_kind h hdirectory
  obtain ⟨inner, rfl⟩ := eq_directory_of_kind hkind
  exact ⟨inner, hfound⟩

theorem get?_link_of_kind {target : String} (hlink : get? location root = some (.link target)) :
    get? location next = some (.link target) := by
  obtain ⟨found, hfound, hkind⟩ := exists_of_kind h hlink
  rw [hfound, eq_link_of_kind hkind]

end Kinds

/-! ## Changes of one name -/

/-- A change of the entries of a directory that leaves all other names alone. -/
def Touches (name : String) (f : List (String × Entry) → List (String × Entry)) : Prop :=
  ∀ other entries, other ≠ name → find? other (f entries) = find? other entries

theorem touches_insert (name : String) (entry : Entry) : Touches name (insert name entry) :=
  fun _ entries h ↦ find?_insert_of_ne h entry entries

theorem touches_erase (name : String) : Touches name (erase name) :=
  fun _ entries h ↦ find?_erase_of_ne h entries

variable {f : List (String × Entry) → List (String × Entry)} {location : List String} {root : Entry}

theorem get?_modify_self (h : get? location root = some (.directory entries)) :
    get? location (modify f location root) = some (.directory (f entries)) := by
  induction location generalizing root with
  | nil =>
    obtain rfl := Option.some.inj h
    rfl
  | cons next location ih =>
    cases root with
    | directory outer =>
      rw [get?] at h
      rw [modify]
      cases hnext : find? next outer with
      | none =>
        rw [hnext] at h
        cases h
      | some inner =>
        rw [hnext] at h
        rw [get?, find?_insert_self]
        exact ih h
    | _ => cases h

/-- Besides and above the changed name everything looks as it did to a view that does not look into
directories. -/
theorem map_get?_modify {α : Type} {view : Entry → α}
    (hview : ∀ inner outer, view (.directory inner) = view (.directory outer))
    (hf : Touches name f) {q : List String} (hq : ¬location ++ [name] <+: q) (root : Entry) :
    (get? q (modify f location root)).map view = (get? q root).map view := by
  induction location generalizing q root with
  | nil =>
    cases root with
    | directory entries =>
      cases q with
      | nil => exact congrArg some (hview _ _)
      | cons first rest =>
        have hfirst : first ≠ name := by
          rintro rfl
          exact hq (by simp)
        rw [modify, get?, get?, hf first entries hfirst]
    | _ => rfl
  | cons next location ih =>
    cases root with
    | directory entries =>
      rw [modify]
      cases hnext : find? next entries with
      | none => rfl
      | some inner =>
        cases q with
        | nil => exact congrArg some (hview _ _)
        | cons first rest =>
          by_cases hfirst : first = next
          · subst hfirst
            rw [List.cons_append, List.prefix_cons_inj] at hq
            rw [get?, find?_insert_self, get?, hnext]
            exact ih hq inner
          · rw [get?, find?_insert_of_ne hfirst, get?]
    | _ => rfl

/-- Besides the changed name nothing changes. -/
theorem get?_modify_of_branch (hf : Touches name f) {q : List String}
    (hq : ¬location ++ [name] <+: q) (hlocation : ¬q <+: location) (root : Entry) :
    get? q (modify f location root) = get? q root := by
  induction location generalizing q root with
  | nil =>
    cases root with
    | directory entries =>
      cases q with
      | nil => exact absurd List.nil_prefix hlocation
      | cons first rest =>
        have hfirst : first ≠ name := by
          rintro rfl
          exact hq (by simp)
        rw [modify, get?, get?, hf first entries hfirst]
    | _ => rfl
  | cons next location ih =>
    cases root with
    | directory entries =>
      rw [modify]
      cases hnext : find? next entries with
      | none => rfl
      | some inner =>
        cases q with
        | nil => exact absurd List.nil_prefix hlocation
        | cons first rest =>
          by_cases hfirst : first = next
          · subst hfirst
            rw [List.cons_append, List.prefix_cons_inj] at hq
            rw [List.prefix_cons_inj] at hlocation
            rw [get?, find?_insert_self, get?, hnext]
            exact ih hq hlocation inner
          · rw [get?, find?_insert_of_ne hfirst, get?]
    | _ => rfl

end Entry

namespace Store

variable {s : Store} {location : List String} {name : String}

theorem place_append (s : Store) (location : List String) (name : String) (entry : Entry) :
    s.place (location ++ [name]) entry =
      { s with root := s.root.modify (Entry.insert name entry) location } := by
  simp [place]

theorem clear_append (s : Store) (location : List String) (name : String) :
    s.clear (location ++ [name]) =
      { s with root := s.root.modify (Entry.erase name) location } := by
  simp [clear]

theorem get?_place_parent {entries : List (String × Entry)}
    (h : s.root.get? location = some (.directory entries)) (name : String) (entry : Entry) :
    (s.place (location ++ [name]) entry).root.get? location =
      some (.directory (Entry.insert name entry entries)) := by
  rw [place_append]
  exact Entry.get?_modify_self h

theorem get?_place {entries : List (String × Entry)}
    (h : s.root.get? location = some (.directory entries)) (name : String) (entry : Entry)
    (rest : List String) :
    (s.place (location ++ [name]) entry).root.get? (location ++ name :: rest) =
      entry.get? rest := by
  rw [Entry.get?_append, get?_place_parent h, Option.bind_some, Entry.get?, Entry.find?_insert_self]

theorem get?_clear {entries : List (String × Entry)}
    (h : s.root.get? location = some (.directory entries)) (name : String) (rest : List String) :
    (s.clear (location ++ [name])).root.get? (location ++ name :: rest) = none := by
  have hself : (s.clear (location ++ [name])).root.get? location =
      some (.directory (Entry.erase name entries)) := by
    rw [clear_append]
    exact Entry.get?_modify_self h
  rw [Entry.get?_append, hself, Option.bind_some, Entry.get?, Entry.find?_erase_self]

/-- A store in which at most the entry at a location, and what lies below it, is another one. -/
structure ChangedAt (location : List String) (s next : Store) : Prop where
  here : next.here = s.here
  kind : ∀ q, ¬location <+: q → (next.root.get? q).map Entry.kind = (s.root.get? q).map Entry.kind
  branch : ∀ q, ¬location <+: q → ¬q <+: location → next.root.get? q = s.root.get? q

theorem changedAt_of_modify {f : List (String × Entry) → List (String × Entry)}
    (hf : Entry.Touches name f) (s : Store) (location : List String) :
    ChangedAt (location ++ [name]) s { s with root := s.root.modify f location } where
  here := rfl
  kind q hq := Entry.map_get?_modify (fun _ _ ↦ rfl) hf hq s.root
  branch q hq hlocation := by
    apply Entry.get?_modify_of_branch hf hq
    exact fun h ↦ hlocation (h.trans (List.prefix_append _ _))

theorem changedAt_place (s : Store) (location : List String) (name : String) (entry : Entry) :
    ChangedAt (location ++ [name]) s (s.place (location ++ [name]) entry) := by
  rw [place_append]
  exact changedAt_of_modify (Entry.touches_insert name entry) s location

theorem changedAt_clear (s : Store) (location : List String) (name : String) :
    ChangedAt (location ++ [name]) s (s.clear (location ++ [name])) := by
  rw [clear_append]
  exact changedAt_of_modify (Entry.touches_erase name) s location

theorem changedAt_refl (location : List String) (s : Store) : ChangedAt location s s :=
  ⟨rfl, fun _ _ ↦ rfl, fun _ _ _ ↦ rfl⟩

theorem ChangedAt.trans {t u : Store} (h : ChangedAt location s t) (h' : ChangedAt location t u) :
    ChangedAt location s u where
  here := h'.here.trans h.here
  kind q hq := (h'.kind q hq).trans (h.kind q hq)
  branch q hq hlocation := (h'.branch q hq hlocation).trans (h.branch q hq hlocation)

end Store

end BlockWatch
