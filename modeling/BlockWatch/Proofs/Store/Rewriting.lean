import BlockWatch.Proofs.Json.ReadShape
import BlockWatch.Proofs.Store.Files

/-!
# Rewritten files

A file that is written over another one stays where the other one was, so every path leads where it
led before and every other file keeps its contents.
-/

namespace BlockWatch.Store

open Entry (get? find? kind)

/-- A store in which at most the contents of some files are other ones. -/
structure Rewritten (changed : List String → Prop) (s next : Store) : Prop where
  here : next.here = s.here
  kind : ∀ q, (next.root.get? q).map kind = (s.root.get? q).map kind
  file : ∀ q, ¬changed q → ∀ contents executable,
    s.root.get? q = some (.file contents executable) →
      next.root.get? q = some (.file contents executable)

namespace Rewritten

variable {changed more : List String → Prop} {s t u : Store} {q : List String}

theorem refl (changed : List String → Prop) (s : Store) : Rewritten changed s s :=
  ⟨rfl, fun _ ↦ rfl, fun _ _ _ _ h ↦ h⟩

theorem trans (h : Rewritten changed s t) (h' : Rewritten changed t u) :
    Rewritten changed s u where
  here := h'.here.trans h.here
  kind q := (h'.kind q).trans (h.kind q)
  file q hq contents executable hfile :=
    h'.file q hq contents executable (h.file q hq contents executable hfile)

theorem mono (h : Rewritten changed s t) (hmore : ∀ q, changed q → more q) :
    Rewritten more s t where
  here := h.here
  kind := h.kind
  file q hq := h.file q fun hchanged ↦ hq (hmore q hchanged)

theorem extends_root (h : Rewritten changed s t) : s.root.Extends t.root :=
  fun q _ hentry ↦ Entry.exists_of_kind (h.kind q) hentry

theorem reaches (h : Rewritten changed s t) {path : Path} {location : List String}
    (hpath : s.Reaches path location) : t.Reaches path location :=
  reaches_of_extends hpath h.extends_root h.here

theorem exists_directory (h : Rewritten changed s t) {entries : List (String × Entry)}
    (hdirectory : s.root.get? q = some (.directory entries)) :
    ∃ found, t.root.get? q = some (.directory found) :=
  h.extends_root.exists_directory hdirectory

theorem not_link (h : Rewritten changed s t) (hlink : ∀ target, s.root.get? q ≠ some (.link target))
    (target : String) : t.root.get? q ≠ some (.link target) := fun hfound ↦
  hlink target (Entry.get?_link_of_kind (h.kind q).symm hfound)

end Rewritten

variable {s next : Store} {location : List String} {name : String} {contents : ByteArray}
  {executable : Bool}

/-- Nothing lies below a file. -/
theorem get?_below_file {root : Entry}
    (h : root.get? location = some (.file contents executable)) {rest : List String}
    (hrest : rest ≠ []) : root.get? (location ++ rest) = none := by
  obtain ⟨first, more, rfl⟩ := List.exists_cons_of_ne_nil hrest
  rw [Entry.get?_append, h]
  rfl

/-- A file leads to nothing that is there but itself. -/
theorem eq_of_file_leads {root : Entry} {q : List String}
    (hfile : root.get? q = some (.file contents executable)) {entry : Entry}
    (hthere : root.get? location = some entry) (hleads : q <+: location) : q = location := by
  obtain ⟨rest, rfl⟩ := hleads
  by_cases hrest : rest = []
  · rw [hrest, List.append_nil]
  · rw [get?_below_file hfile hrest] at hthere
    cases hthere

theorem rewritten_place (h : s.root.get? (location ++ [name]) = some (.file contents executable))
    (written : ByteArray) (runs : Bool) : Rewritten (· = location ++ [name]) s
      (s.place (location ++ [name]) (.file written runs)) := by
  have hchanged := changedAt_place s location name (.file written runs)
  obtain ⟨entries, hlocation⟩ :=
    Entry.exists_directory_of_get?_append h (List.cons_ne_nil name [])
  have hbelow (rest : List String) (hrest : rest ≠ []) :
      (s.place (location ++ [name]) (.file written runs)).root.get?
        (location ++ [name] ++ rest) = none := by
    obtain ⟨first, more, rfl⟩ := List.exists_cons_of_ne_nil hrest
    rw [List.append_assoc, List.singleton_append, get?_place hlocation]
    rfl
  refine ⟨hchanged.here, fun q ↦ ?_, fun q hq old runs' hfile ↦ ?_⟩
  · by_cases hq : location ++ [name] <+: q
    · obtain ⟨rest, rfl⟩ := hq
      by_cases hrest : rest = []
      · rw [hrest, List.append_nil, h, get?_place hlocation]
        rfl
      · rw [hbelow rest hrest, get?_below_file h hrest]
    · exact hchanged.kind q hq
  · rw [hchanged.branch q]
    · exact hfile
    · exact fun hleads ↦ hq (eq_of_file_leads h hfile hleads).symm
    · exact fun hleads ↦ hq (eq_of_file_leads hfile h hleads)

/-- A file that is copied over another one replaces its contents. -/
theorem exists_rewritten_of_copyFile {source path : Path} {base names old : List String}
    (hsource : s.find true source = .ok (old, .file contents executable))
    (h : s.Reaches path base) (hnames : ∀ name ∈ names, ProperName name) (hne : names ≠ [])
    {replaced : ByteArray} {runs : Bool}
    (hfile : s.root.get? (base ++ names) = some (.file replaced runs))
    (hother : base ++ names ≠ old) (hcopy : s.copyFile source (path.below names) = .ok next) :
    Rewritten (· = base ++ names) s next ∧
      next.root.get? (base ++ names) = some (.file contents executable) := by
  obtain ⟨jump, hlocate⟩ := exists_locate_below h hnames hne true
  rw [walkIn_of_get? hfile (fun _ heq ↦ nomatch heq) hnames] at hlocate
  obtain ⟨⟨_, _⟩, hfind, hmatch⟩ := bind_eq_ok hcopy
  rw [hsource] at hfind
  obtain ⟨rfl, rfl⟩ := Prod.mk.inj (Except.ok.inj hfind)
  obtain ⟨⟨copy, emptied⟩, halter, hnext⟩ := bind_eq_ok hmatch
  rw [alter_file hlocate hfile (below_closed hnames hne path)] at halter
  obtain ⟨rfl, rfl⟩ := Prod.mk.inj (Except.ok.inj halter)
  dsimp only at hnext
  rw [if_neg hother] at hnext
  obtain rfl := Except.ok.inj hnext
  obtain ⟨front, last, rfl⟩ := List.eq_nil_or_concat' names |>.resolve_left hne
  rw [← List.append_assoc] at hfile ⊢
  obtain ⟨entries, hfront⟩ := Entry.exists_directory_of_get?_append hfile (List.cons_ne_nil last [])
  have hmiddle := get?_place hfront last (.file .empty runs) []
  have hparent := get?_place_parent hfront last (.file .empty runs)
  refine ⟨(rewritten_place hfile .empty runs).trans
    (rewritten_place hmiddle contents executable), ?_⟩
  exact get?_place hparent last (.file contents executable) []

/-- What other files hold stays the same. -/
theorem Rewritten.holds_iff {changed : List String → Prop} {q : List String}
    (h : Rewritten changed s next) (hq : ¬changed q) {value : Json.Value} :
    next.Holds q value ↔ s.Holds q value := by
  constructor
  · rintro ⟨contents, executable, hfile, hvalue⟩
    obtain ⟨entry, hentry, hsame⟩ := Entry.exists_of_kind (h.kind q).symm hfile
    cases entry with
    | file old runs =>
      have hkept := h.file q hq old runs hentry
      rw [hfile] at hkept
      obtain ⟨rfl, rfl⟩ := Entry.file.inj (Option.some.inj hkept)
      exact ⟨contents, executable, hentry, hvalue⟩
    | _ => cases hsame
  · rintro ⟨contents, executable, hfile, hvalue⟩
    exact ⟨contents, executable, h.file q hq contents executable hfile, hvalue⟩

/-! ## Patched objects -/

/-- The object at a location was patched, and what came of it is there in the pretty form. -/
def Patched (location : List String) (changes : List (String × Json.Value))
    (s next : Store) : Prop :=
  ∃ members executable, s.Holds location (.object members) ∧
    next.root.get? location = some (.file
      (Json.Value.object (Json.DottedPath.setAll members changes)).pretty.toUTF8 executable)

theorem Patched.after_rewritten {changed : List String → Prop} {t : Store} {q : List String}
    {changes : List (String × Json.Value)} (h : Patched q changes s t)
    (hrewritten : Rewritten changed t next) (hq : ¬changed q) : Patched q changes s next := by
  obtain ⟨members, executable, hholds, hfile⟩ := h
  exact ⟨members, executable, hholds, hrewritten.file q hq _ executable hfile⟩

theorem Patched.before_rewritten {changed : List String → Prop} {t : Store} {q : List String}
    {changes : List (String × Json.Value)} (h : Patched q changes t next)
    (hrewritten : Rewritten changed s t) (hq : ¬changed q) : Patched q changes s next := by
  obtain ⟨members, executable, hholds, hfile⟩ := h
  exact ⟨members, executable, (hrewritten.holds_iff hq).mp hholds, hfile⟩

/-- An object that is patched changes no other file. -/
theorem patched_of_writeBytes {path : Path} {base front : List String} {last : String}
    {entries : List (String × Entry)} (h : s.Reaches path base)
    (hnames : ∀ name ∈ front ++ [last], ProperName name)
    (hfront : s.root.get? (base ++ front) = some (.directory entries))
    (hlink : ∀ target, s.root.get? (base ++ (front ++ [last])) ≠ some (.link target))
    {members : Json.Members} {changes : List (String × Json.Value)}
    (hdocument : s.document? (path.below (front ++ [last])) = some (.object members))
    (hwrite : s.writeBytes (path.below (front ++ [last]))
      (Json.Value.object (Json.DottedPath.setAll members changes)).pretty.toUTF8 = .ok next) :
    Rewritten (· = base ++ (front ++ [last])) s next ∧
      Patched (base ++ (front ++ [last])) changes s next := by
  obtain ⟨old, executable, hfile, hvalue⟩ :=
    holds_of_document? h hnames hfront hlink hdocument
  rw [writeBytes_below h hnames (by simp) hfile] at hwrite
  obtain rfl := Except.ok.inj hwrite
  refine ⟨?_, members, executable, ⟨old, executable, hfile, hvalue⟩, ?_⟩
  · rw [← List.append_assoc] at hfile ⊢
    exact rewritten_place hfile _ executable
  · rw [← List.append_assoc]
    exact get?_place hfront last (.file _ executable) []

end BlockWatch.Store
