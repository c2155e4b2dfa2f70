import BlockWatch.Proofs.Json.Lookup
import BlockWatch.Proofs.Store.Changes

/-!
# Where walks lead

A walk goes on from where a part of its names leads. It ends at the same place as long as what it
passed keeps its kind, whatever else is added. Where there are no links it goes straight down.
-/

namespace BlockWatch

/-! ## Paths of names -/

namespace Route

open Json.DottedPath (splitAt)

theorem splitAt_append (separator : Char) (front rest : List Char) :
    splitAt separator (front ++ separator :: rest) =
      splitAt separator front ++ splitAt separator rest := by
  induction front with
  | nil =>
    have hnil : splitAt separator [] = [[]] := rfl
    rw [List.nil_append, hnil, splitAt, if_pos rfl, List.singleton_append]
  | cons c front ih =>
    by_cases hc : c = separator
    · rw [List.cons_append, splitAt, if_pos hc, ih, splitAt, if_pos hc, List.cons_append]
    · obtain ⟨part, parts, hfront, hsplit⟩ := Json.DottedPath.splitAt_cons_of_ne hc front
      rw [List.cons_append, hsplit, splitAt, if_neg hc, ih, hfront]
      rfl

/-- The names between slashes. -/
def namesOf (cs : List Char) : List String :=
  ((splitAt '/' cs).filter (!·.isEmpty)).map String.ofList

theorem names_ofText (text : String) : (ofText text).names = namesOf text.toList := rfl

theorem namesOf_append_slash (front rest : List Char) :
    namesOf (front ++ '/' :: rest) = namesOf front ++ namesOf rest := by
  rw [namesOf, splitAt_append, List.filter_append, List.map_append]
  rfl

theorem namesOf_nil : namesOf [] = [] := rfl

theorem namesOf_name {name : String} (h : ProperName name) : namesOf name.toList = [name] := by
  rw [namesOf, Json.DottedPath.splitAt_of_not_mem h.unbroken,
    List.filter_cons_of_pos (by simpa using h.nonempty)]
  simp

theorem endsWith_iff (s pattern : String) :
    s.endsWith pattern = true ↔ pattern.toList <:+ s.toList := by
  simp [← String.endsWith_toSlice]

theorem not_endsWith_slash {name : String} (h : ProperName name) (front : String) :
    (front ++ name).endsWith "/" = false := by
  rw [Bool.eq_false_iff, Ne, endsWith_iff, String.toList_append]
  intro hsuffix
  obtain ⟨init, last, hlast⟩ := List.eq_nil_or_concat' name.toList |>.resolve_left h.nonempty
  obtain ⟨before, hbefore⟩ := hsuffix
  rw [hlast, ← List.append_assoc] at hbefore
  have hslash : '/' = last := by simpa using (List.append_inj' hbefore rfl).2
  exact h.unbroken (by rw [hlast, hslash]; simp)

theorem not_startsWith_slash {name : String} (h : ProperName name) :
    name.startsWith "/" = false := by
  rw [String.startsWith_string_eq_false_iff]
  exact fun hleads ↦ h.unbroken (hleads.subset (by simp))

theorem fromRoot_iff (text : String) :
    (ofText text).fromRoot = true ↔ text.toList.head? = some '/' := by
  have hleads : (ofText text).fromRoot = true ↔ ['/'] <+: text.toList :=
    String.startsWith_string_iff
  rw [hleads]
  cases text.toList with
  | nil => simp
  | cons c rest => simp [eq_comm]

/-- Between a path and a name under it stands one slash. -/
theorem exists_child_text {name : String} (h : ProperName name) {path : Path}
    (hne : path.text ≠ "") : ∃ front : List Char,
    (path.child name).text.toList = front ++ '/' :: name.toList ∧
      namesOf front = namesOf path.text.toList ∧
      (front ++ ['/']).head? = path.text.toList.head? := by
  have hrelative : Path.isAbsolute ⟨name⟩ = false := not_startsWith_slash h
  have hnonempty : path.text.isEmpty = false := by simpa using hne
  rw [Path.child, Path.join, hrelative, if_neg Bool.false_ne_true, hnonempty, Bool.false_or]
  by_cases hslash : path.text.endsWith "/" = true
  · obtain ⟨front, hfront⟩ := (endsWith_iff _ _).mp hslash
    have htext : path.text.toList = front ++ '/' :: [] := hfront.symm
    refine ⟨front, ?_, ?_, ?_⟩
    · rw [if_pos hslash, String.toList_append, htext, List.append_assoc]
      rfl
    · rw [htext, namesOf_append_slash, namesOf_nil, List.append_nil]
    · rw [htext]
  · have hfirst : path.text.toList ≠ [] := by simpa using hne
    refine ⟨path.text.toList, ?_, rfl, ?_⟩
    · rw [if_neg hslash, String.toList_append, String.toList_append, List.append_assoc]
      rfl
    · obtain ⟨c, rest, hc⟩ := List.exists_cons_of_ne_nil hfirst
      rw [hc]
      rfl

theorem closed_child {name : String} (h : ProperName name) (path : Path) :
    (ofText (path.child name).text).closed = false := by
  have hrelative : Path.isAbsolute ⟨name⟩ = false := not_startsWith_slash h
  change (path.child name).text.endsWith "/" = false
  rw [Path.child, Path.join, hrelative, if_neg Bool.false_ne_true]
  split_ifs
  · exact not_endsWith_slash h path.text
  · exact not_endsWith_slash h (path.text ++ "/")

/-- The route to a name under a path. -/
theorem names_child {name : String} (h : ProperName name) (path : Path) :
    (ofText (path.child name).text).names = (ofText path.text).names ++ [name] ∧
      (ofText (path.child name).text).fromRoot = (ofText path.text).fromRoot := by
  have hname : namesOf name.toList = [name] := namesOf_name h
  by_cases hempty : path.text = ""
  · have htext : (path.child name).text = name := by
      have hrelative : Path.isAbsolute ⟨name⟩ = false := not_startsWith_slash h
      have hfirst : ("".isEmpty || "".endsWith "/") = true := by simp
      rw [Path.child, Path.join, hrelative, if_neg Bool.false_ne_true, hempty, if_pos hfirst,
        String.empty_append]
    have hfromRoot : (ofText name).fromRoot = false := not_startsWith_slash h
    rw [htext, hempty, names_ofText, hname, hfromRoot]
    exact ⟨rfl, by decide⟩
  · obtain ⟨front, htext, hnames, hhead⟩ := exists_child_text h hempty
    constructor
    · rw [names_ofText, names_ofText, htext, namesOf_append_slash, hname, hnames]
    · have hfirst : (front ++ '/' :: name.toList).head? = (front ++ ['/']).head? := by
        cases front <;> rfl
      rw [Bool.eq_iff_iff, fromRoot_iff, fromRoot_iff, htext, hfirst, hhead]

end Route

/-! ## Walks -/

namespace Entry

/-- `root` has all that `ground` has, each of the same kind. -/
def Extends (ground root : Entry) : Prop :=
  ∀ location entry, ground.get? location = some entry →
    ∃ found, root.get? location = some found ∧ found.kind = entry.kind

theorem extends_refl (root : Entry) : Extends root root := fun _ entry h ↦ ⟨entry, h, rfl⟩

theorem Extends.trans {ground middle root : Entry} (h : Extends ground middle)
    (h' : Extends middle root) : Extends ground root := by
  intro location entry hentry
  obtain ⟨found, hfound, hsame⟩ := h location entry hentry
  obtain ⟨last, hlast, hkind⟩ := h' location found hfound
  exact ⟨last, hlast, hkind.trans hsame⟩

theorem Extends.exists_directory {ground root : Entry} (h : Extends ground root)
    {location : List String} {entries : List (String × Entry)}
    (hdirectory : ground.get? location = some (.directory entries)) :
    ∃ found, root.get? location = some (.directory found) := by
  obtain ⟨found, hfound, hkind⟩ := h location _ hdirectory
  obtain ⟨inner, rfl⟩ := eq_directory_of_kind hkind
  exact ⟨inner, hfound⟩

end Entry

open Entry (get? find?)

variable {ground root : Entry} {follow : Bool}
  {jump jump' : List String → String → List String → Except IoError Place}
  {here rest location : List String} {name : String} {entries : List (String × Entry)}

/-! ### One name -/

theorem walkIn_of_not_directory (h : ∀ entries, get? here root ≠ some (.directory entries)) :
    walkIn root follow jump here (name :: rest) = .error .notDirectory := by
  rw [walkIn]
  cases hhere : get? here root with
  | none => rfl
  | some entry =>
    cases entry with
    | directory entries => exact absurd hhere (h entries)
    | _ => rfl

theorem walkIn_dot (h : get? here root = some (.directory entries)) :
    walkIn root follow jump here ("." :: rest) = walkIn root follow jump here rest := by
  rw [walkIn, h]
  rfl

theorem walkIn_up (h : get? here root = some (.directory entries)) :
    walkIn root follow jump here (".." :: rest) = walkIn root follow jump here.dropLast rest := by
  rw [walkIn, h]
  rfl

/-- The name is neither of those that stay or go up. -/
theorem walkIn_name (h : get? here root = some (.directory entries)) (hdot : name ≠ ".")
    (hup : name ≠ "..") : walkIn root follow jump here (name :: rest) =
      match find? name entries with
      | none => if rest.isEmpty then .ok (.vacant here name) else .error .notFound
      | some (.link target) =>
        if rest.isEmpty && !follow then .ok (.occupied (here ++ [name]))
        else jump here target rest
      | some _ => walkIn root follow jump (here ++ [name]) rest := by
  rw [walkIn, h]
  refine (if_neg hdot).trans ((if_neg hup).trans ?_)
  rcases find? name entries with - | entry
  · rfl
  · cases entry <;> rfl

theorem walkIn_vacant (h : get? here root = some (.directory entries)) (hdot : name ≠ ".")
    (hup : name ≠ "..") (hname : find? name entries = none) :
    walkIn root follow jump here (name :: rest) =
      if rest.isEmpty then .ok (.vacant here name) else .error .notFound := by
  rw [walkIn_name h hdot hup, hname]

theorem walkIn_link (h : get? here root = some (.directory entries)) (hdot : name ≠ ".")
    (hup : name ≠ "..") {target : String} (hname : find? name entries = some (.link target)) :
    walkIn root follow jump here (name :: rest) =
      if rest.isEmpty && !follow then .ok (.occupied (here ++ [name]))
      else jump here target rest := by
  rw [walkIn_name h hdot hup, hname]

theorem walkIn_entry (h : get? here root = some (.directory entries)) (hdot : name ≠ ".")
    (hup : name ≠ "..") {entry : Entry} (hname : find? name entries = some entry)
    (hlink : ∀ target, entry ≠ .link target) :
    walkIn root follow jump here (name :: rest) =
      walkIn root follow jump (here ++ [name]) rest := by
  rw [walkIn_name h hdot hup, hname]
  cases entry with
  | link target => exact absurd rfl (hlink target)
  | _ => rfl

/-- How a walk that ends at a place takes its first name, in a directory with the entries. -/
inductive Strides (root : Entry) (follow : Bool)
    (jump : List String → String → List String → Except IoError Place)
    (here : List String) (entries : List (String × Entry)) (name : String) (rest : List String)
    (place : Place) : Prop
  | stays (hname : name = ".") (hgoes : walkIn root follow jump here rest = .ok place)
  | climbs (hname : name = "..") (hgoes : walkIn root follow jump here.dropLast rest = .ok place)
  | vacant (hname : find? name entries = none) (hrest : rest = [])
    (hplace : place = .vacant here name)
  | stops {target : String} (hdot : name ≠ ".") (hup : name ≠ "..")
    (hname : find? name entries = some (.link target)) (hrest : rest = [])
    (hfollow : follow = false) (hplace : place = .occupied (here ++ [name]))
  | jumps {target : String} (hdot : name ≠ ".") (hup : name ≠ "..")
    (hname : find? name entries = some (.link target)) (hfollow : (rest.isEmpty && !follow) = false)
    (hgoes : jump here target rest = .ok place)
  | enters {inner : Entry} (hdot : name ≠ ".") (hup : name ≠ "..")
    (hname : find? name entries = some inner) (hlink : ∀ target, inner ≠ .link target)
    (hgoes : walkIn root follow jump (here ++ [name]) rest = .ok place)

theorem exists_strides_of_walkIn {place : Place}
    (h : walkIn root follow jump here (name :: rest) = .ok place) :
    ∃ entries, get? here root = some (.directory entries) ∧
      Strides root follow jump here entries name rest place := by
  by_cases hdirectory : ∃ entries, get? here root = some (.directory entries)
  · obtain ⟨entries, hhere⟩ := hdirectory
    refine ⟨entries, hhere, ?_⟩
    by_cases hdot : name = "."
    · subst hdot
      exact .stays rfl (walkIn_dot hhere ▸ h)
    by_cases hup : name = ".."
    · subst hup
      exact .climbs rfl (walkIn_up hhere ▸ h)
    cases hname : find? name entries with
    | none =>
      rw [walkIn_vacant hhere hdot hup hname] at h
      split_ifs at h with hlast
      exact .vacant hname (List.isEmpty_iff.mp hlast) (Except.ok.inj h).symm
    | some inner =>
      by_cases hlink : ∃ target, inner = .link target
      · obtain ⟨target, rfl⟩ := hlink
        rw [walkIn_link hhere hdot hup hname] at h
        split_ifs at h with hlast
        · obtain ⟨hrest, hfollow⟩ : rest = [] ∧ follow = false := by simpa using hlast
          exact .stops hdot hup hname hrest hfollow (Except.ok.inj h).symm
        · exact .jumps hdot hup hname (Bool.eq_false_iff.mpr hlast) h
      · have hplain : ∀ target, inner ≠ .link target := fun target heq ↦ hlink ⟨target, heq⟩
        exact .enters hdot hup hname hplain (walkIn_entry hhere hdot hup hname hplain ▸ h)
  · rw [walkIn_of_not_directory fun entries heq ↦ hdirectory ⟨entries, heq⟩] at h
    cases h

/-! ### Many names -/

/-- Where a walk leads it still leads when more is there. -/
theorem walkIn_of_extends (h : ground.Extends root) {names : List String}
    (hjump : ∀ here target rest, jump here target rest = .ok (.occupied location) →
      jump' here target rest = .ok (.occupied location))
    (hwalk : walkIn ground follow jump here names = .ok (.occupied location)) :
    walkIn root follow jump' here names = .ok (.occupied location) := by
  induction names generalizing here with
  | nil => exact hwalk
  | cons name rest ih =>
    obtain ⟨entries, hhere, hstrides⟩ := exists_strides_of_walkIn hwalk
    obtain ⟨more, hfound⟩ := h.exists_directory hhere
    have hinner {inner : Entry} (hname : find? name entries = some inner) :
        ∃ next, find? name more = some next ∧ next.kind = inner.kind := by
      rw [← Entry.get?_append_singleton hhere] at hname
      rw [← Entry.get?_append_singleton hfound]
      exact h _ inner hname
    cases hstrides with
    | stays hname hgoes =>
      rw [hname, walkIn_dot hfound]
      exact ih hgoes
    | climbs hname hgoes =>
      rw [hname, walkIn_up hfound]
      exact ih hgoes
    | vacant hname hrest hplace => cases hplace
    | stops hdot hup hname hrest hfollow hplace =>
      obtain ⟨next, hnext, hsame⟩ := hinner hname
      obtain rfl := Entry.eq_link_of_kind hsame
      rw [walkIn_link hfound hdot hup hnext, hrest, hfollow, hplace]
      rfl
    | jumps hdot hup hname hfollow hgoes =>
      obtain ⟨next, hnext, hsame⟩ := hinner hname
      obtain rfl := Entry.eq_link_of_kind hsame
      rw [walkIn_link hfound hdot hup hnext, if_neg (Bool.eq_false_iff.mp hfollow)]
      exact hjump _ _ _ hgoes
    | enters hdot hup hname hlink hgoes =>
      obtain ⟨next, hnext, hsame⟩ := hinner hname
      have hplain : ∀ target, next ≠ .link target := by
        rintro target rfl
        exact hlink target (Entry.eq_link_of_kind hsame.symm)
      rw [walkIn_entry hfound hdot hup hnext hplain]
      exact ih hgoes

theorem walk_of_extends (h : ground.Extends root) {links : ℕ} {names : List String}
    (hwalk : walk ground follow links here names = .ok (.occupied location)) :
    walk root follow links here names = .ok (.occupied location) := by
  induction links generalizing here names with
  | zero =>
    rw [walk] at hwalk ⊢
    apply walkIn_of_extends h _ hwalk
    intro here target rest hjump
    cases hjump
  | succ links ih =>
    rw [walk] at hwalk ⊢
    apply walkIn_of_extends h _ hwalk
    intro here target rest hjump
    exact ih hjump

theorem exists_walkIn_append {names : List String} (hrest : rest ≠ [])
    (hjump : ∀ here target names, jump here target names = .ok (.occupied location) →
      ∃ further, jump' here target (names ++ rest) = walkIn root follow further location rest)
    (hwalk : walkIn root true jump here names = .ok (.occupied location)) :
    ∃ further, walkIn root follow jump' here (names ++ rest) =
      walkIn root follow further location rest := by
  induction names generalizing here with
  | nil =>
    obtain rfl : here = location := by
      rw [walkIn] at hwalk
      exact Place.occupied.inj (Except.ok.inj hwalk)
    exact ⟨jump', rfl⟩
  | cons name more ih =>
    obtain ⟨entries, hhere, hstrides⟩ := exists_strides_of_walkIn hwalk
    rw [List.cons_append]
    cases hstrides with
    | stays hname hgoes =>
      rw [hname, walkIn_dot hhere]
      exact ih hgoes
    | climbs hname hgoes =>
      rw [hname, walkIn_up hhere]
      exact ih hgoes
    | vacant hname hlast hplace => cases hplace
    | stops hdot hup hname hlast hfollow hplace => cases hfollow
    | jumps hdot hup hname hfollow hgoes =>
      have hmore : ((more ++ rest).isEmpty && !follow) = false := by simp [hrest]
      rw [walkIn_link hhere hdot hup hname, hmore, if_neg Bool.false_ne_true]
      exact hjump _ _ _ hgoes
    | enters hdot hup hname hlink hgoes =>
      rw [walkIn_entry hhere hdot hup hname hlink]
      exact ih hgoes

/-- A walk along more names goes on from where the first of them lead. -/
theorem exists_walk_append {links : ℕ} {names : List String}
    (hwalk : walk root true links here names = .ok (.occupied location)) (hrest : rest ≠ [])
    (follow : Bool) : ∃ further,
    walk root follow links here (names ++ rest) = walkIn root follow further location rest := by
  induction links generalizing here names with
  | zero =>
    rw [walk] at hwalk ⊢
    apply exists_walkIn_append hrest _ hwalk
    intro here target names hjump
    cases hjump
  | succ links ih =>
    rw [walk] at hwalk ⊢
    apply exists_walkIn_append hrest _ hwalk
    intro here target names hjump
    obtain ⟨further, hfurther⟩ := ih hjump
    refine ⟨further, ?_⟩
    dsimp only
    rw [← List.append_assoc]
    exact hfurther

/-! ### Straight down -/

/-- Directories are walked through straight down. -/
theorem walkIn_straight {front : List String}
    (h : get? (location ++ front) root = some (.directory entries))
    (hnames : ∀ name ∈ front, ProperName name) (rest : List String) :
    walkIn root follow jump location (front ++ rest) =
      walkIn root follow jump (location ++ front) rest := by
  induction front generalizing location with
  | nil => rw [List.nil_append, List.append_nil]
  | cons name front ih =>
    obtain ⟨hname, hfront⟩ := List.forall_mem_cons.mp hnames
    obtain ⟨outer, hhere⟩ := Entry.exists_directory_of_get?_append h (List.cons_ne_nil name front)
    have hsplit : location ++ name :: front = location ++ [name] ++ front := by simp
    rw [hsplit] at h ⊢
    obtain ⟨inner, hinner⟩ : ∃ inner, get? (location ++ [name]) root = some (.directory inner) := by
      by_cases hend : front = []
      · rw [hend, List.append_nil] at h
        exact ⟨entries, h⟩
      · exact Entry.exists_directory_of_get?_append h hend
    have hfind := Entry.get?_append_singleton hhere name
    rw [hinner] at hfind
    rw [List.cons_append, walkIn_entry hhere hname.notHere hname.notUp hfind.symm
      fun _ heq ↦ nomatch heq]
    exact ih h hfront

/-- An entry that is no link is reached straight down. -/
theorem walkIn_of_get? {names : List String} {entry : Entry}
    (h : get? (location ++ names) root = some entry) (hentry : ∀ target, entry ≠ .link target)
    (hnames : ∀ name ∈ names, ProperName name) :
    walkIn root follow jump location names = .ok (.occupied (location ++ names)) := by
  rcases List.eq_nil_or_concat' names with rfl | ⟨front, last, rfl⟩
  · rw [walkIn, List.append_nil]
  · have hlast : ProperName last := hnames last (by simp)
    rw [← List.append_assoc] at h ⊢
    obtain ⟨entries, hfront⟩ := Entry.exists_directory_of_get?_append h (List.cons_ne_nil last [])
    have hfind := Entry.get?_append_singleton hfront last
    rw [h] at hfind
    rw [walkIn_straight hfront fun name hname ↦ hnames name (List.mem_append_left _ hname),
      walkIn_entry hfront hlast.notHere hlast.notUp hfind.symm hentry, walkIn]

/-- A walk does not go on where no directory is. -/
theorem exists_error_of_walkIn {names : List String} (hnames : ∀ name ∈ names, ProperName name)
    (hlink : ∀ front, front <+: names → ∀ target, get? (location ++ front) root ≠ some (.link target))
    (hnone : ∀ entries, get? (location ++ names) root ≠ some (.directory entries)) (last : String) :
    ∃ cause, walkIn root follow jump location (names ++ [last]) = .error cause := by
  induction names generalizing location with
  | nil =>
    rw [List.append_nil] at hnone
    exact ⟨_, walkIn_of_not_directory hnone⟩
  | cons name rest ih =>
    obtain ⟨hname, hrest⟩ := List.forall_mem_cons.mp hnames
    by_cases hdirectory : ∃ entries, get? location root = some (.directory entries)
    · obtain ⟨entries, hhere⟩ := hdirectory
      rw [List.cons_append]
      cases hfind : find? name entries with
      | none =>
        rw [walkIn_vacant hhere hname.notHere hname.notUp hfind, if_neg (by simp)]
        exact ⟨_, rfl⟩
      | some inner =>
        have hinner := Entry.get?_append_singleton hhere name
        rw [hfind] at hinner
        have hplain : ∀ target, inner ≠ .link target := by
          rintro target rfl
          exact hlink [name] (List.prefix_append [name] rest) target hinner
        rw [walkIn_entry hhere hname.notHere hname.notUp hfind hplain]
        apply ih hrest
        · intro front hfront
          rw [List.append_assoc]
          exact hlink (name :: front) (List.prefix_append_right_inj [name] |>.mpr hfront)
        · rw [List.append_assoc]
          exact hnone
    · rw [List.cons_append,
        walkIn_of_not_directory fun entries heq ↦ hdirectory ⟨entries, heq⟩]
      exact ⟨_, rfl⟩

namespace Entry

/-- There are no links at a location and below it. -/
def Plain (root : Entry) (location : List String) : Prop :=
  ∀ rest target, get? (location ++ rest) root ≠ some (.link target)

theorem Plain.append (h : Plain root location) (rest : List String) :
    Plain root (location ++ rest) := by
  intro more target
  rw [List.append_assoc]
  exact h (rest ++ more) target

end Entry

/-- The place that names lead to straight down from a location: an entry, or a vacant name. -/
inductive StraightTo (root : Entry) (location names : List String) (place : Place) : Prop
  | occupied {entry : Entry} (hplace : place = .occupied (location ++ names))
    (hentry : get? (location ++ names) root = some entry)
  | vacant {front : List String} {last : String} {entries : List (String × Entry)}
    (hplace : place = .vacant (location ++ front) last) (hnames : names = front ++ [last])
    (hfront : get? (location ++ front) root = some (.directory entries))
    (hlast : find? last entries = none)

theorem StraightTo.cons {names : List String} {place : Place}
    (h : StraightTo root (location ++ [name]) names place) :
    StraightTo root location (name :: names) place := by
  cases h with
  | occupied hplace hentry =>
    rw [List.append_assoc, List.singleton_append] at hplace hentry
    exact .occupied hplace hentry
  | vacant hplace hnames hfront hlast =>
    rw [List.append_assoc, List.singleton_append] at hplace hfront
    exact .vacant hplace (by rw [hnames, List.cons_append]) hfront hlast

theorem straightTo_of_walkIn {names : List String} (hplain : root.Plain location) {entry : Entry}
    (hentry : get? location root = some entry) (hnames : ∀ name ∈ names, ProperName name)
    {place : Place} (hwalk : walkIn root follow jump location names = .ok place) :
    StraightTo root location names place := by
  induction names generalizing location entry with
  | nil =>
    rw [walkIn] at hwalk
    apply StraightTo.occupied
    · rw [List.append_nil]
      exact (Except.ok.inj hwalk).symm
    · rwa [List.append_nil]
  | cons name rest ih =>
    obtain ⟨hname, hrest⟩ := List.forall_mem_cons.mp hnames
    obtain ⟨entries, hhere, hstrides⟩ := exists_strides_of_walkIn hwalk
    have hinner := Entry.get?_append_singleton hhere name
    cases hstrides with
    | stays hdot hgoes => exact absurd hdot hname.notHere
    | climbs hup hgoes => exact absurd hup hname.notUp
    | vacant hfind hlast hplace =>
      subst hlast
      refine .vacant ?_ (List.nil_append [name]).symm ?_ hfind
      · rw [List.append_nil, hplace]
      · rwa [List.append_nil]
    | stops hdot hup hfind hlast hfollow hplace =>
      exact absurd (hinner.trans hfind) (hplain [name] _)
    | jumps hdot hup hfind hfollow hgoes => exact absurd (hinner.trans hfind) (hplain [name] _)
    | enters hdot hup hfind hlink hgoes =>
      exact (ih (hplain.append [name]) (hinner.trans hfind) hrest hgoes).cons

/-- A walk ends at a vacant name of a directory that is there. -/
theorem directory_of_walkIn_vacant {names : List String}
    (hjump : ∀ here target names, jump here target names = .ok (.vacant location name) →
      ∃ entries, get? location root = some (.directory entries) ∧ find? name entries = none)
    (hwalk : walkIn root follow jump here names = .ok (.vacant location name)) :
    ∃ entries, get? location root = some (.directory entries) ∧ find? name entries = none := by
  induction names generalizing here with
  | nil => cases hwalk
  | cons first rest ih =>
    obtain ⟨entries, hhere, hstrides⟩ := exists_strides_of_walkIn hwalk
    cases hstrides with
    | stays hname hgoes => exact ih hgoes
    | climbs hname hgoes => exact ih hgoes
    | vacant hname hrest hplace =>
      obtain ⟨rfl, rfl⟩ := Place.vacant.inj hplace
      exact ⟨entries, hhere, hname⟩
    | stops hdot hup hname hrest hfollow hplace => cases hplace
    | jumps hdot hup hname hfollow hgoes => exact hjump _ _ _ hgoes
    | enters hdot hup hname hlink hgoes => exact ih hgoes

theorem directory_of_walk_vacant {links : ℕ} {names : List String}
    (hwalk : walk root follow links here names = .ok (.vacant location name)) :
    ∃ entries, get? location root = some (.directory entries) ∧ find? name entries = none := by
  induction links generalizing here names with
  | zero =>
    rw [walk] at hwalk
    apply directory_of_walkIn_vacant _ hwalk
    intro here target names hjump
    cases hjump
  | succ links ih =>
    rw [walk] at hwalk
    apply directory_of_walkIn_vacant _ hwalk
    intro here target names hjump
    exact ih hjump

end BlockWatch
