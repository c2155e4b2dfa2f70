import BlockWatch.Proofs.Json.Lookup
import Mathlib.Data.List.Pairwise
import Mathlib.Data.String.Basic

/-!
# Writes that follow each other

Writes at paths of which neither leads to or through the other can change places. A write leaves no
trace of an earlier one at its path or below it, even if others came between the two. Therefore
changes that do not interfere give the same object in any order, and changes of any kind that are
made again change nothing.
-/

namespace BlockWatch.Json

/-! ## Members -/

namespace Members

theorem insert_comm_of_lt {key later : String} (h : key < later) (value second : Value)
    (members : Members) :
    (members.insert key value).insert later second =
      (members.insert later second).insert key value := by
  induction members with
  | nil => simp [insert, h, h.ne, h.ne', h.not_gt]
  | cons member rest ih =>
    obtain ⟨name, old⟩ := member
    -- both insertions stop at the first name that is not below their key
    rcases lt_trichotomy name key with hname | rfl | hname
    · have hafter := hname.trans h
      simp [insert, hname.ne, hname.not_gt, hafter.ne, hafter.not_gt, ih]
    · simp [insert, h.ne, h.not_gt]
    · rcases lt_trichotomy name later with hbetween | rfl | hbeyond
      · simp [insert, hname, hname.ne', hbetween.ne, hbetween.not_gt, h.ne, h.not_gt]
      · simp [insert, hname, hname.ne', hname.ne, hname.not_gt]
      · simp [insert, hname, hname.ne', hbeyond, hbeyond.ne', h, h.ne, h.ne', h.not_gt]

/-- Insertions at different keys can change places, in whatever order the members are. -/
theorem insert_comm {key other : String} (h : key ≠ other) (value second : Value)
    (members : Members) :
    (members.insert key value).insert other second =
      (members.insert other second).insert key value := by
  rcases lt_or_gt_of_ne h with hlt | hgt
  · exact insert_comm_of_lt hlt value second members
  · exact (insert_comm_of_lt hgt second value members).symm

end Members

namespace DottedPath

/-! ## Two writes -/

/-- Writes along keys that branch off from each other can change places. -/
theorem setKeys_comm {keys other : List String} (hkeys : ¬keys <+: other)
    (hother : ¬other <+: keys) (value second : Value) (members : Members) :
    setKeys second other (setKeys value keys members) =
      setKeys value keys (setKeys second other members) := by
  induction keys generalizing other members with
  | nil => exact absurd List.nil_prefix hkeys
  | cons key rest ih =>
    cases other with
    | nil => exact absurd List.nil_prefix hother
    | cons first further =>
      by_cases hfirst : first = key
      · subst hfirst
        rw [List.prefix_cons_inj] at hkeys hother
        have hrest : rest ≠ [] := fun h ↦ hkeys (h ▸ List.nil_prefix)
        have hfurther : further ≠ [] := fun h ↦ hother (h ▸ List.nil_prefix)
        simp only [setKeys_eq_insert, Members.find?_insert_self, Members.insert_insert]
        simp only [placed_of_ne_nil hrest, placed_of_ne_nil hfurther, membersOf,
          ih hkeys hother]
      · simp only [setKeys_eq_insert, Members.find?_insert_of_ne hfirst,
          Members.find?_insert_of_ne (Ne.symm hfirst)]
        exact Members.insert_comm (Ne.symm hfirst) _ _ members

/-- A write at `path` replaces all that lies at `other`. -/
def Covers (path other : String) : Prop := keys path <+: keys other

theorem set_set_of_covers {path other : String} (h : Covers path other) (value later : Value)
    (members : Members) :
    set (set members other value) path later = set members path later :=
  setKeys_setKeys_of_prefix (keys_ne_nil path) h value later members

theorem set_comm {path other : String} (h : Apart path other) (value second : Value)
    (members : Members) :
    set (set members path value) other second = set (set members other second) path value :=
  setKeys_comm h.1 h.2 value second members

/-! ## Many writes -/

/-- Objects that a write at the path makes equal. -/
def AlikeOutside (path : String) (a b : Members) : Prop :=
  ∀ value, set a path value = set b path value

theorem alikeOutside_set {path other : String} (h : Covers path other) (value : Value)
    (members : Members) : AlikeOutside path (set members other value) members :=
  fun later ↦ set_set_of_covers h value later members

theorem AlikeOutside.set_eq {path other : String} {a b : Members} (h : AlikeOutside path a b)
    (hcovers : Covers other path) (value : Value) : set a other value = set b other value := by
  calc
    set a other value = set (set a path value) other value :=
      (set_set_of_covers hcovers value value a).symm
    _ = set (set b path value) other value := by rw [h value]
    _ = set b other value := set_set_of_covers hcovers value value b

/-- Whatever is written, objects stay alike outside a path. -/
theorem AlikeOutside.set {path : String} {a b : Members} (h : AlikeOutside path a b)
    (other : String) (value : Value) :
    AlikeOutside path (DottedPath.set a other value) (DottedPath.set b other value) := by
  intro later
  by_cases hbelow : Covers path other
  · rw [set_set_of_covers hbelow, set_set_of_covers hbelow]
    exact h later
  by_cases habove : Covers other path
  · rw [h.set_eq habove]
  have hapart : Apart other path := ⟨habove, hbelow⟩
  rw [set_comm hapart, set_comm hapart, h later]

/-- Changes of which one replaces all that lies at a path make no difference between objects that
are alike outside that path. -/
theorem AlikeOutside.setAll_eq {path : String} {changes : List (String × Value)}
    (hcovers : ∃ change ∈ changes, Covers change.1 path) {a b : Members}
    (h : AlikeOutside path a b) : setAll a changes = setAll b changes := by
  induction changes generalizing a b with
  | nil => simp at hcovers
  | cons change rest ih =>
    change setAll (DottedPath.set a change.1 change.2) rest =
      setAll (DottedPath.set b change.1 change.2) rest
    by_cases hchange : Covers change.1 path
    · rw [h.set_eq hchange]
    · apply ih _ (h.set change.1 change.2)
      simpa [hchange] using hcovers

/-- Changes leave no trace of earlier ones if each of these lies at or below one of their paths. -/
theorem setAll_setAll_of_covers {earlier later : List (String × Value)}
    (h : ∀ change ∈ earlier, ∃ last ∈ later, Covers last.1 change.1) (members : Members) :
    setAll (setAll members earlier) later = setAll members later := by
  induction earlier generalizing members with
  | nil => rfl
  | cons change rest ih =>
    obtain ⟨hchange, hrest⟩ := List.forall_mem_cons.mp h
    calc
      setAll (setAll members (change :: rest)) later =
          setAll (set members change.1 change.2) later := ih hrest _
      _ = setAll members later :=
        AlikeOutside.setAll_eq hchange (alikeOutside_set List.prefix_rfl change.2 members)

theorem setAll_setAll (changes : List (String × Value)) (members : Members) :
    setAll (setAll members changes) changes = setAll members changes :=
  setAll_setAll_of_covers (fun change h ↦ ⟨change, h, List.prefix_rfl⟩) members

theorem Apart.symm {path other : String} (h : Apart path other) : Apart other path :=
  ⟨h.2, h.1⟩

/-- Changes that do not interfere can be made in any order. -/
theorem setAll_of_perm {changes others : List (String × Value)} (h : changes.Perm others)
    (hapart : changes.Pairwise fun a b ↦ Apart a.1 b.1) (members : Members) :
    setAll members changes = setAll members others := by
  have hsymm : Std.Symm fun a b : String × Value ↦ Apart a.1 b.1 := ⟨fun _ _ ↦ Apart.symm⟩
  apply h.foldl_eq'
  intro a ha b hb members
  by_cases hab : a = b
  · rw [hab]
  · exact set_comm (hapart.forall ha hb hab) a.2 b.2 members

end DottedPath

end BlockWatch.Json
