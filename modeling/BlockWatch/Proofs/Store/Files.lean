import BlockWatch.Json.Reader
import BlockWatch.Proofs.Store.Walks

/-!
# Files below a directory

Operations on files that names lead to below a place which a path reaches. What is written to such a
file is what is read from it, and no other file is changed.
-/

namespace BlockWatch

theorem fromUTF8?_toUTF8 (text : String) : String.fromUTF8? text.toUTF8 = some text := by
  rw [String.toUTF8_eq_toByteArray, String.fromUTF8?, dif_pos text.isValidUTF8]
  rfl

/-- The path of names below a path. -/
def Path.below (path : Path) (names : List String) : Path := names.foldl Path.child path

namespace Store

open Entry (get? find?)

/-- A path leads to a location, links followed. -/
def Reaches (s : Store) (path : Path) (location : List String) : Prop :=
  walk s.root true maxLinks (if (Route.ofText path.text).fromRoot then [] else s.here)
    (Route.ofText path.text).names = .ok (.occupied location)

variable {s next : Store} {path : Path} {location names : List String}

theorem below_route (hnames : ∀ name ∈ names, ProperName name) (path : Path) :
    (Route.ofText (path.below names).text).names = (Route.ofText path.text).names ++ names ∧
      (Route.ofText (path.below names).text).fromRoot = (Route.ofText path.text).fromRoot := by
  induction names generalizing path with
  | nil => exact ⟨(List.append_nil _).symm, rfl⟩
  | cons name rest ih =>
    obtain ⟨hname, hrest⟩ := List.forall_mem_cons.mp hnames
    obtain ⟨hchildNames, hchildRoot⟩ := Route.names_child hname path
    obtain ⟨hbelowNames, hbelowRoot⟩ := ih hrest (path.child name)
    rw [hchildNames, List.append_assoc] at hbelowNames
    exact ⟨hbelowNames, hbelowRoot.trans hchildRoot⟩

theorem below_append (path : Path) (front rest : List String) :
    path.below (front ++ rest) = (path.below front).below rest :=
  List.foldl_append

theorem below_concat (path : Path) (names : List String) (name : String) :
    path.below (names ++ [name]) = (path.below names).child name :=
  below_append path names [name]

theorem below_closed (hnames : ∀ name ∈ names, ProperName name) (hne : names ≠ []) (path : Path) :
    (Route.ofText (path.below names).text).closed = false := by
  obtain ⟨front, last, rfl⟩ := List.eq_nil_or_concat' names |>.resolve_left hne
  have hlast : ProperName last := hnames last (by simp)
  rw [below_append]
  exact Route.closed_child hlast _

theorem below_nonempty (hnames : ∀ name ∈ names, ProperName name) (hne : names ≠ [])
    (path : Path) : (path.below names).text.isEmpty = false := by
  have hroute := (below_route hnames path).1
  rw [Bool.eq_false_iff, Ne, String.isEmpty_iff]
  intro hempty
  rw [hempty] at hroute
  have hnil : ([] : List String) = (Route.ofText path.text).names ++ names := hroute
  exact hne (List.append_eq_nil_iff.mp hnil.symm).2

/-- Below a place that is reached, the walk goes on from there. -/
theorem exists_locate_below (h : s.Reaches path location)
    (hnames : ∀ name ∈ names, ProperName name) (hne : names ≠ []) (follow : Bool) :
    ∃ jump, s.locate follow (path.below names) = walkIn s.root follow jump location names := by
  obtain ⟨hroute, hfromRoot⟩ := below_route hnames path
  obtain ⟨jump, hjump⟩ := exists_walk_append h hne follow
  refine ⟨jump, ?_⟩
  rw [locate, below_nonempty hnames hne, if_neg Bool.false_ne_true]
  dsimp only
  rw [below_closed hnames hne, Bool.or_false, hroute, hfromRoot]
  exact hjump

theorem reaches_of_extends (h : s.Reaches path location) (hroot : s.root.Extends next.root)
    (hhere : next.here = s.here) : next.Reaches path location := by
  rw [Reaches, hhere]
  exact walk_of_extends hroot h

theorem find_of_occupied {follow : Bool} (h : s.locate follow path = .ok (.occupied location)) :
    s.find follow path =
      match s.root.get? location with
      | some entry =>
        if mustBeDirectory path && !entry.isDirectory then .error .notDirectory
        else .ok (location, entry)
      | none => .error .notFound := by
  rw [find, h]
  rfl

theorem find_of_reaches (h : s.Reaches path location) (hne : path.text.isEmpty = false)
    (hopen : mustBeDirectory path = false) {entry : Entry}
    (hentry : s.root.get? location = some entry) : s.find true path = .ok (location, entry) := by
  have hlocate : s.locate true path = .ok (.occupied location) := by
    rw [locate, hne, if_neg Bool.false_ne_true]
    dsimp only
    rw [Bool.true_or]
    exact h
  rw [find_of_occupied hlocate, hentry]
  dsimp only
  rw [hopen, Bool.false_and, if_neg Bool.false_ne_true]

/-! ## Altered files -/

section Alter

variable {f : ByteArray → ByteArray} {name : String}

theorem alter_occupied (h : s.locate true path = .ok (.occupied location)) :
    s.alter path f =
      match s.root.get? location with
      | some (.file contents executable) =>
        if mustBeDirectory path then .error .notDirectory
        else .ok (some location, s.place location (.file (f contents) executable))
      | some (.directory _) => .error .isDirectory
      | _ => .ok (none, s) := by
  rw [alter, h]
  rfl

theorem alter_file {contents : ByteArray} {executable : Bool}
    (hlocate : s.locate true path = .ok (.occupied location))
    (hfile : s.root.get? location = some (.file contents executable))
    (hclosed : mustBeDirectory path = false) :
    s.alter path f = .ok (some location, s.place location (.file (f contents) executable)) := by
  rw [alter_occupied hlocate, hfile]
  dsimp only
  rw [hclosed, if_neg Bool.false_ne_true]

/-- Where there is no file, none is altered. -/
theorem eq_none_of_alter {entry : Entry} {copy : Option (List String)}
    (hlocate : s.locate true path = .ok (.occupied location))
    (hentry : s.root.get? location = some entry)
    (hfile : ∀ contents executable, entry ≠ .file contents executable)
    (halter : s.alter path f = .ok (copy, next)) : copy = none ∧ next = s := by
  rw [alter_occupied hlocate, hentry] at halter
  cases entry with
  | file contents executable => exact absurd rfl (hfile contents executable)
  | directory entries => cases halter
  | link _ | device | tool _ =>
    cases halter
    exact ⟨rfl, rfl⟩

theorem alter_vacant (hlocate : s.locate true path = .ok (.vacant location name))
    (hclosed : mustBeDirectory path = false) : s.alter path f =
      .ok (some (location ++ [name]), s.place (location ++ [name]) (.file (f .empty) false)) := by
  rw [alter, hlocate]
  change (if mustBeDirectory path then .error .isDirectory
    else .ok (some (location ++ [name]), s.place (location ++ [name]) (.file (f .empty) false)) :
      Result (Option (List String) × Store)) = _
  rw [hclosed, if_neg Bool.false_ne_true]

end Alter

/-! ## One file -/

section File

variable {entry : Entry} {contents : ByteArray} {executable : Bool}

theorem find_below (h : s.Reaches path location) (hnames : ∀ name ∈ names, ProperName name)
    (hne : names ≠ []) (hentry : s.root.get? (location ++ names) = some entry)
    (hlink : ∀ target, entry ≠ .link target) (follow : Bool) :
    s.find follow (path.below names) = .ok (location ++ names, entry) := by
  obtain ⟨jump, hlocate⟩ := exists_locate_below h hnames hne follow
  have hclosed : mustBeDirectory (path.below names) = false := below_closed hnames hne path
  rw [walkIn_of_get? hentry hlink hnames] at hlocate
  rw [find_of_occupied hlocate, hentry]
  dsimp only
  rw [hclosed, Bool.false_and, if_neg Bool.false_ne_true]

theorem readBytes_below (h : s.Reaches path location) (hnames : ∀ name ∈ names, ProperName name)
    (hne : names ≠ [])
    (hfile : s.root.get? (location ++ names) = some (.file contents executable)) :
    s.readBytes (path.below names) = .ok contents := by
  rw [readBytes, find_below h hnames hne hfile (fun _ heq ↦ nomatch heq)]
  rfl

theorem writeBytes_below (h : s.Reaches path location) (hnames : ∀ name ∈ names, ProperName name)
    (hne : names ≠ [])
    (hfile : s.root.get? (location ++ names) = some (.file contents executable))
    (written : ByteArray) : s.writeBytes (path.below names) written =
      .ok (s.place (location ++ names) (.file written executable)) := by
  obtain ⟨jump, hlocate⟩ := exists_locate_below h hnames hne true
  rw [walkIn_of_get? hfile (fun _ heq ↦ nomatch heq) hnames] at hlocate
  rw [writeBytes, alter_file hlocate hfile (below_closed hnames hne path)]
  rfl

end File

/-! ## Documents -/

/-- The value that a text file holds. -/
def document? (s : Store) (path : Path) : Option Json.Value :=
  match s.readText path with
  | .ok text => (Json.Value.ofText text).toOption
  | .error _ => none

/-- The value that the contents of a file say. -/
def valueOf? (contents : ByteArray) : Option Json.Value :=
  (String.fromUTF8? contents).bind fun text ↦ (Json.Value.ofText text).toOption

theorem valueOf?_toUTF8 (text : String) :
    valueOf? text.toUTF8 = (Json.Value.ofText text).toOption := by
  rw [valueOf?, fromUTF8?_toUTF8]
  rfl

/-- Nothing is said by no contents. -/
theorem valueOf?_empty : valueOf? .empty = none := by
  have hnone : (valueOf? .empty).isNone = true := by decide +kernel
  exact Option.isNone_iff_eq_none.mp hnone

theorem readText_of_readBytes {contents : ByteArray} (h : s.readBytes path = .ok contents) :
    s.readText path =
      match String.fromUTF8? contents with
      | some text => .ok text
      | none => .error .notText := by
  rw [readText, h]
  rfl

theorem document?_of_readBytes {contents : ByteArray} (h : s.readBytes path = .ok contents) :
    s.document? path = valueOf? contents := by
  rw [document?, readText_of_readBytes h, valueOf?]
  cases String.fromUTF8? contents <;> rfl

/-- The file at a location holds a value. -/
def Holds (s : Store) (location : List String) (value : Json.Value) : Prop :=
  ∃ contents executable,
    s.root.get? location = some (.file contents executable) ∧ valueOf? contents = some value

theorem document?_of_holds (h : s.Reaches path location)
    (hnames : ∀ name ∈ names, ProperName name) (hne : names ≠ []) {value : Json.Value}
    (hholds : s.Holds (location ++ names) value) : s.document? (path.below names) = some value := by
  obtain ⟨contents, executable, hfile, hvalue⟩ := hholds
  rw [document?_of_readBytes (readBytes_below h hnames hne hfile), hvalue]

section Last

variable {front : List String} {last : String} {entries : List (String × Entry)}
  (h : s.Reaches path location) (hnames : ∀ name ∈ front ++ [last], ProperName name)
  (hfront : s.root.get? (location ++ front) = some (.directory entries))
  (hlink : ∀ target, s.root.get? (location ++ (front ++ [last])) ≠ some (.link target))

include h hnames hfront hlink

/-- What is found at a name of a directory is its entry, unless it is a link. -/
theorem find_last {follow : Bool} {found : List String × Entry}
    (hfind : s.find follow (path.below (front ++ [last])) = .ok found) :
    s.root.get? (location ++ (front ++ [last])) = some found.2 ∧
      found.1 = location ++ (front ++ [last]) := by
  have hne : front ++ [last] ≠ [] := by simp
  cases hentry : s.root.get? (location ++ (front ++ [last])) with
  | none =>
    obtain ⟨jump, hlocate⟩ := exists_locate_below h hnames hne follow
    have hproper : ProperName last := hnames last (by simp)
    have hlast : find? last entries = none := by
      rw [← Entry.get?_append_singleton hfront, List.append_assoc, hentry]
    rw [walkIn_straight hfront fun name hname ↦ hnames name (List.mem_append_left _ hname),
      walkIn_vacant hfront hproper.notHere hproper.notUp hlast] at hlocate
    rw [find, hlocate] at hfind
    cases hfind
  | some entry =>
    rw [find_below h hnames hne hentry fun target heq ↦ hlink target (heq ▸ hentry)] at hfind
    obtain rfl := Except.ok.inj hfind
    exact ⟨rfl, rfl⟩

/-- A document is held by a file. -/
theorem holds_of_document? {value : Json.Value}
    (hdocument : s.document? (path.below (front ++ [last])) = some value) :
    s.Holds (location ++ (front ++ [last])) value := by
  cases hfind : s.find true (path.below (front ++ [last])) with
  | error cause =>
    rw [document?, readText, readBytes, hfind] at hdocument
    cases hdocument
  | ok found =>
    have hentry := (find_last h hnames hfront hlink hfind).1
    obtain ⟨place, entry⟩ := found
    cases entry with
    | file contents executable =>
      have hread : s.readBytes (path.below (front ++ [last])) = .ok contents := by
        rw [readBytes, hfind]
        rfl
      rw [document?_of_readBytes hread] at hdocument
      exact ⟨contents, executable, hentry, hdocument⟩
    | directory inner =>
      rw [document?, readText, readBytes, hfind] at hdocument
      cases hdocument
    | link _ | device | tool _ =>
      rw [document?_of_readBytes (by rw [readBytes, hfind]; rfl), valueOf?_empty] at hdocument
      cases hdocument

end Last

end Store

end BlockWatch
