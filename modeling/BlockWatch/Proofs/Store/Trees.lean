import BlockWatch.Proofs.Store.Confined

/-!
# Trees

What is seen at a location is its entry, of a directory only that it is one. Two trees are the same
if the same is seen at every location in them. The operations of a store are told by what is seen
afterwards: inside of what they name, and outside of it, where nothing changes.
-/

namespace BlockWatch

theorem not_prefix_self (location : List String) (name : String) :
    ¬location ++ [name] <+: location := by
  intro h
  have hlength := h.length_le
  simp at hlength

namespace Entry

/-- An entry, of a directory only that it is one. -/
def bare : Entry → Entry
  | directory _ => directory []
  | entry => entry

theorem kind_bare (entry : Entry) : entry.bare.kind = entry.kind := by cases entry <;> rfl

theorem get?_append_eq_none {location : List String} {root : Entry} (h : root.get? location = none)
    (rest : List String) : root.get? (location ++ rest) = none := by
  rw [get?_append, h]
  rfl

theorem mem_of_find? {name : String} {entries : List (String × Entry)} {entry : Entry}
    (h : find? name entries = some entry) : (name, entry) ∈ entries := by
  induction entries with
  | nil => cases h
  | cons first rest ih =>
    rw [find?] at h
    split_ifs at h with hfirst
    · obtain rfl := Option.some.inj h
      rw [← hfirst]
      exact List.mem_cons_self
    · exact List.mem_cons_of_mem _ (ih h)

theorem find?_eq_some_iff {name : String} {entries : List (String × Entry)} {entry : Entry}
    (hnodup : (entries.map (·.1)).Nodup) :
    find? name entries = some entry ↔ (name, entry) ∈ entries := by
  refine ⟨mem_of_find?, fun h ↦ ?_⟩
  induction entries with
  | nil => cases h
  | cons first rest ih =>
    obtain ⟨hfirst, hrest⟩ := List.nodup_cons.mp hnodup
    rcases List.mem_cons.mp h with rfl | hmem
    · rw [find?, if_pos rfl]
    · have hother : first.1 ≠ name := fun heq ↦ hfirst (List.mem_map.mpr ⟨_, hmem, heq.symm⟩)
      rw [find?, if_neg hother]
      exact ih hrest hmem

/-- A directory or a file. -/
def IsSimple : Entry → Prop
  | directory _ => True
  | file .. => True
  | _ => False

theorem isSimple_bare {entry : Entry} : entry.bare.IsSimple ↔ entry.IsSimple := by
  cases entry <;> rfl

/-- Directories and files, however deep. -/
def AllSimple (root : Entry) : Prop := ∀ rest entry, root.get? rest = some entry → entry.IsSimple

theorem allSimple_file (contents : ByteArray) (executable : Bool) :
    (file contents executable).AllSimple := by
  intro rest entry hentry
  cases rest with
  | nil => exact Option.some.inj hentry ▸ trivial
  | cons name more => cases hentry

theorem allSimple_directory {entries : List (String × Entry)}
    (h : ∀ entry ∈ entries, entry.2.AllSimple) : (directory entries).AllSimple := by
  intro rest entry hentry
  cases rest with
  | nil => exact Option.some.inj hentry ▸ trivial
  | cons name more =>
    rw [get?] at hentry
    cases hname : find? name entries with
    | none =>
      rw [hname] at hentry
      cases hentry
    | some inner =>
      rw [hname] at hentry
      exact h _ (mem_of_find? hname) more entry hentry

end Entry

namespace Store

open Entry (get? find?)

/-- What is seen at a location. -/
def seenAt (s : Store) (location : List String) : Option Entry :=
  (s.root.get? location).map Entry.bare

variable {s t next : Store} {location q rest : List String} {name : String}
  {entries : List (String × Entry)} {contents : ByteArray} {executable : Bool}

/-! ## What is seen -/

theorem seenAt_eq_none_iff : s.seenAt q = none ↔ s.root.get? q = none := Option.map_eq_none_iff

theorem seenAt_eq_directory_iff :
    s.seenAt q = some (.directory []) ↔ ∃ entries, s.root.get? q = some (.directory entries) := by
  rw [seenAt, Option.map_eq_some_iff]
  constructor
  · rintro ⟨entry, hentry, hbare⟩
    cases entry with
    | directory entries => exact ⟨entries, hentry⟩
    | _ => cases hbare
  · rintro ⟨entries, hentries⟩
    exact ⟨_, hentries, rfl⟩

theorem seenAt_eq_file_iff : s.seenAt q = some (.file contents executable) ↔
    s.root.get? q = some (.file contents executable) := by
  rw [seenAt, Option.map_eq_some_iff]
  constructor
  · rintro ⟨entry, hentry, hbare⟩
    cases entry with
    | directory entries => cases hbare
    | _ => exact hbare ▸ hentry
  · intro hfile
    exact ⟨_, hfile, rfl⟩

/-- Where nothing is seen, nothing is seen below. -/
theorem seenAt_append_eq_none (h : s.seenAt q = none) (rest : List String) :
    s.seenAt (q ++ rest) = none := by
  rw [seenAt_eq_none_iff] at h ⊢
  exact Entry.get?_append_eq_none h rest

theorem exists_vacant (h : s.seenAt location = some (.directory []))
    (hname : s.seenAt (location ++ [name]) = none) :
    ∃ entries, s.root.get? location = some (.directory entries) ∧ find? name entries = none := by
  obtain ⟨entries, hentries⟩ := seenAt_eq_directory_iff.mp h
  rw [seenAt_eq_none_iff, Entry.get?_append_singleton hentries] at hname
  exact ⟨entries, hentries, hname⟩

/-! ## What is the same -/

/-- Outside of some locations the same is seen. -/
structure AgreeOutside (changed : List String → Prop) (s next : Store) : Prop where
  here : next.here = s.here
  seenAt : ∀ q, ¬changed q → next.seenAt q = s.seenAt q

namespace AgreeOutside

variable {changed more : List String → Prop}

theorem refl (changed : List String → Prop) (s : Store) : AgreeOutside changed s s :=
  ⟨rfl, fun _ _ ↦ rfl⟩

theorem trans (h : AgreeOutside changed s t) (h' : AgreeOutside changed t next) :
    AgreeOutside changed s next where
  here := h'.here.trans h.here
  seenAt q hq := (h'.seenAt q hq).trans (h.seenAt q hq)

theorem mono (h : AgreeOutside changed s t) (hmore : ∀ q, changed q → more q) :
    AgreeOutside more s t where
  here := h.here
  seenAt q hq := h.seenAt q fun hchanged ↦ hq (hmore q hchanged)

theorem symm (h : AgreeOutside changed s t) : AgreeOutside changed t s :=
  ⟨h.here.symm, fun q hq ↦ (h.seenAt q hq).symm⟩

/-- What a store has outside stays of its kind. -/
theorem extends_root (h : AgreeOutside changed s t) {ground : Entry} (hground : ground.Extends s.root)
    (hvacant : ∀ q, changed q → ground.get? q = none) : ground.Extends t.root := by
  intro q entry hentry
  have hq : ¬changed q := by
    intro hchanged
    rw [hvacant q hchanged] at hentry
    cases hentry
  obtain ⟨found, hfound, hkind⟩ := hground q entry hentry
  have hseen : t.seenAt q = some found.bare := by
    rw [h.seenAt q hq, Store.seenAt, hfound]
    rfl
  obtain ⟨last, hlast, hbare⟩ := Option.map_eq_some_iff.mp hseen
  refine ⟨last, hlast, ?_⟩
  rw [← hkind, ← last.kind_bare, hbare, found.kind_bare]

end AgreeOutside

/-- The same is seen at and below one location as at and below another one. -/
def Twin (s : Store) (origin : List String) (t : Store) (location : List String) : Prop :=
  ∀ rest, t.seenAt (location ++ rest) = s.seenAt (origin ++ rest)

/-- Trees are the same if they are the same below every name. -/
theorem twin_of_children {origin : List String} (htop : t.seenAt location = s.seenAt origin)
    (hchildren : ∀ name, Twin s (origin ++ [name]) t (location ++ [name])) :
    Twin s origin t location := by
  intro rest
  cases rest with
  | nil => rwa [List.append_nil, List.append_nil]
  | cons name more => simpa using hchildren name more

theorem twin_of_none {origin : List String} (horigin : s.seenAt origin = none)
    (hlocation : t.seenAt location = none) : Twin s origin t location := by
  intro rest
  rw [seenAt_append_eq_none horigin, seenAt_append_eq_none hlocation]

/-- At and below a location there are only directories and files. -/
def Simple (s : Store) (location : List String) : Prop :=
  ∀ rest entry, s.seenAt (location ++ rest) = some entry → entry.IsSimple

theorem Simple.get? (h : s.Simple location) (rest : List String) {entry : Entry}
    (hentry : s.root.get? (location ++ rest) = some entry) : entry.IsSimple := by
  rw [← Entry.isSimple_bare]
  apply h rest
  rw [seenAt, hentry]
  rfl

theorem Simple.plain (h : s.Simple location) : s.root.Plain location :=
  fun rest _ hlink ↦ h.get? rest hlink

theorem Simple.append (h : s.Simple location) (rest : List String) :
    s.Simple (location ++ rest) := by
  intro more entry hentry
  rw [List.append_assoc] at hentry
  exact h (rest ++ more) entry hentry

/-- A twin of directories and files in place of what was there keeps it so. -/
theorem Simple.of_twin {origin inner : List String} (h : s.Simple location)
    (horigin : s.Simple origin) (hagree : AgreeOutside (inner <+: ·) s t)
    (htwin : Twin s origin t inner) : t.Simple location := by
  intro rest entry hentry
  by_cases hinner : inner <+: location ++ rest
  · obtain ⟨more, hmore⟩ := hinner
    rw [← hmore, htwin] at hentry
    exact horigin more entry hentry
  · rw [hagree.seenAt _ hinner] at hentry
    exact h rest entry hentry

/-- A directory that holds, however deep, directories and files. -/
structure IsTree (s : Store) (location : List String) : Prop where
  directory : s.seenAt location = some (.directory [])
  simple : s.Simple location

theorem IsTree.of_agreeOutside {changed : List String → Prop} (h : s.IsTree location)
    (hagree : AgreeOutside changed s t) (hkept : ∀ q, location <+: q → ¬changed q) :
    t.IsTree location where
  directory := (hagree.seenAt _ (hkept _ List.prefix_rfl)).trans h.directory
  simple rest entry hentry := by
    rw [hagree.seenAt _ (hkept _ (List.prefix_append _ _))] at hentry
    exact h.simple rest entry hentry

theorem IsTree.exists_directory (h : s.IsTree location) :
    ∃ entries, s.root.get? location = some (.directory entries) :=
  seenAt_eq_directory_iff.mp h.directory

theorem isTree_of_allSimple (h : s.root.get? location = some (.directory entries))
    (hsimple : (Entry.directory entries).AllSimple) : s.IsTree location where
  directory := seenAt_eq_directory_iff.mpr ⟨entries, h⟩
  simple rest entry hentry := by
    obtain ⟨found, hfound, rfl⟩ := Option.map_eq_some_iff.mp hentry
    rw [Entry.get?_append, h] at hfound
    exact Entry.isSimple_bare.mpr (hsimple rest found hfound)

/-! ## One name -/

theorem agreeOutside_of_modify {f : List (String × Entry) → List (String × Entry)}
    (hf : Entry.Touches name f) (s : Store) (location : List String) :
    AgreeOutside (location ++ [name] <+: ·) s { s with root := s.root.modify f location } :=
  ⟨rfl, fun _ hq ↦ Entry.map_get?_modify (fun _ _ ↦ rfl) hf hq s.root⟩

theorem agreeOutside_place (s : Store) (location : List String) (name : String) (entry : Entry) :
    AgreeOutside (location ++ [name] <+: ·) s (s.place (location ++ [name]) entry) := by
  rw [place_append]
  exact agreeOutside_of_modify (Entry.touches_insert name entry) s location

theorem agreeOutside_clear (s : Store) (location : List String) (name : String) :
    AgreeOutside (location ++ [name] <+: ·) s (s.clear (location ++ [name])) := by
  rw [clear_append]
  exact agreeOutside_of_modify (Entry.touches_erase name) s location

/-- Where something was cleared away nothing is seen, whether or not there was a directory. -/
theorem seenAt_clear (s : Store) (location : List String) (name : String) (rest : List String) :
    (s.clear (location ++ [name])).seenAt (location ++ name :: rest) = none := by
  rw [seenAt_eq_none_iff]
  by_contra hthere
  obtain ⟨entry, hentry⟩ := Option.ne_none_iff_exists'.mp hthere
  obtain ⟨entries, hdirectory⟩ :=
    Entry.exists_directory_of_get?_append hentry (List.cons_ne_nil name rest)
  have hkept := (agreeOutside_clear s location name).seenAt location (not_prefix_self location name)
  rw [seenAt_eq_directory_iff.mpr ⟨entries, hdirectory⟩] at hkept
  obtain ⟨found, hfound⟩ := seenAt_eq_directory_iff.mp hkept.symm
  exact hthere (get?_clear hfound name rest)

theorem eq_of_find_below {path : Path} {base names : List String} {follow : Bool}
    {found : List String × Entry} (h : s.Reaches path base)
    (hnames : ∀ name ∈ names, ProperName name) (hne : names ≠ [])
    (hbase : s.root.get? base = some (.directory entries)) (hplain : s.root.Plain base)
    (hfind : s.find follow (path.below names) = .ok found) :
    found.1 = base ++ names ∧ s.root.get? (base ++ names) = some found.2 := by
  rw [← List.append_nil base] at hbase hplain
  exact eq_of_find h hnames hne hbase hplain hfind

theorem directory_of_list {path : Path} {base names : List String}
    {outer : List (String × Entry)} (h : s.Reaches path base)
    (hnames : ∀ name ∈ names, ProperName name) (hne : names ≠ [])
    (hbase : s.root.get? base = some (.directory outer)) (hplain : s.root.Plain base)
    (hlist : s.list (path.below names) = .ok entries) :
    s.root.get? (base ++ names) = some (.directory entries) := by
  obtain ⟨⟨location, entry⟩, hfind, hmatch⟩ := bind_eq_ok hlist
  obtain ⟨-, hentry⟩ := eq_of_find_below h hnames hne hbase hplain hfind
  cases entry with
  | directory found =>
    obtain rfl := Except.ok.inj hmatch
    exact hentry
  | _ => cases hmatch

/-! ## Operations on a name of a directory -/

section Last

variable {path : Path} {base front : List String} {last : String}
  (h : s.Reaches path base) (hnames : ∀ name ∈ front ++ [last], ProperName name)
  (hfront : s.root.get? (base ++ front) = some (.directory entries))

include h hnames hfront

theorem locate_vacant (hlast : find? last entries = none) (follow : Bool) :
    s.locate follow (path.below (front ++ [last])) = .ok (.vacant (base ++ front) last) := by
  have hproper : ProperName last := hnames last (by simp)
  obtain ⟨jump, hlocate⟩ := exists_locate_below h hnames (by simp) follow
  rw [hlocate, walkIn_straight hfront fun name hname ↦ hnames name (List.mem_append_left _ hname),
    walkIn_vacant hfront hproper.notHere hproper.notUp hlast]
  rfl

/-- A directory that is not there is made where its parent is. -/
theorem makeDirectories_vacant (hlast : find? last entries = none) :
    s.makeDirectories (path.below (front ++ [last])) =
      .ok (s.place (base ++ front ++ [last]) (.directory [])) := by
  have hmake : s.makeDirectory (path.below (front ++ [last])) =
      .ok (s.place (base ++ front ++ [last]) (.directory [])) := by
    rw [makeDirectory, locate_vacant h hnames hfront hlast]
    rfl
  rw [makeDirectories, below_nonempty hnames (by simp), if_neg Bool.false_ne_true]
  cases ancestors (path.below (front ++ [last])) with
  | nil => rw [makeAlong, ensureDirectory, hmake]
  | cons parent further => rw [makeAlong, hmake]

theorem fresh_of_makeDirectories (hlast : find? last entries = none)
    (hmake : s.makeDirectories (path.below (front ++ [last])) = .ok next) :
    AgreeOutside (base ++ (front ++ [last]) <+: ·) s next ∧
      next.seenAt (base ++ (front ++ [last])) = some (.directory []) ∧
      ∀ name, next.seenAt (base ++ (front ++ [last]) ++ [name]) = none := by
  rw [makeDirectories_vacant h hnames hfront hlast] at hmake
  obtain rfl := Except.ok.inj hmake
  have hplaced (rest : List String) :
      (s.place (base ++ front ++ [last]) (.directory [])).seenAt (base ++ front ++ last :: rest) =
        (get? rest (.directory [])).map Entry.bare := by
    rw [seenAt, get?_place hfront]
  rw [← List.append_assoc]
  refine ⟨agreeOutside_place s (base ++ front) last _, hplaced [], fun name ↦ ?_⟩
  rw [List.append_assoc (base ++ front)]
  exact hplaced [name]

/-- It is known what is there, unless it is a link. -/
theorem isThere_last (hplain : s.root.Plain base) :
    s.isThere (path.below (front ++ [last])) =
      .ok (s.seenAt (base ++ (front ++ [last]))).isSome := by
  cases hentry : s.root.get? (base ++ (front ++ [last])) with
  | none =>
    have hlast : find? last entries = none := by
      rw [← Entry.get?_append_singleton hfront, List.append_assoc, hentry]
    have hfind : s.find true (path.below (front ++ [last])) = .error .notFound := by
      rw [find, locate_vacant h hnames hfront hlast]
      rfl
    rw [isThere, hfind, seenAt_eq_none_iff.mpr hentry]
    rfl
  | some entry =>
    have hlink : ∀ target, entry ≠ .link target := by
      rintro target rfl
      exact hplain (front ++ [last]) target hentry
    rw [isThere, find_below h hnames (by simp) hentry hlink, seenAt, hentry]
    rfl

/-- What is altered is a file, another one or a new one. -/
theorem exists_place_of_alter
    (hsimple : ∀ entry, s.root.get? (base ++ (front ++ [last])) = some entry → entry.IsSimple)
    {f : ByteArray → ByteArray} {copy : Option (List String)}
    (halter : s.alter (path.below (front ++ [last])) f = .ok (copy, next)) :
    copy = some (base ++ front ++ [last]) ∧ ∃ written runs,
      next = s.place (base ++ front ++ [last]) (.file written runs) := by
  have hclosed : mustBeDirectory (path.below (front ++ [last])) = false :=
    below_closed hnames (by simp) path
  cases hentry : s.root.get? (base ++ (front ++ [last])) with
  | none =>
    have hlast : find? last entries = none := by
      rw [← Entry.get?_append_singleton hfront, List.append_assoc, hentry]
    rw [alter_vacant (locate_vacant h hnames hfront hlast true) hclosed] at halter
    obtain ⟨rfl, rfl⟩ := Prod.mk.inj (Except.ok.inj halter)
    exact ⟨rfl, f .empty, false, rfl⟩
  | some entry =>
    obtain ⟨jump, hlocate⟩ := exists_locate_below h hnames (by simp) true
    have hkind := hsimple entry hentry
    have hlink : ∀ target, entry ≠ .link target := by
      rintro target rfl
      exact hkind
    rw [walkIn_of_get? hentry hlink hnames] at hlocate
    cases entry with
    | directory inner =>
      rw [alter_occupied hlocate, hentry] at halter
      cases halter
    | file replaced runs =>
      rw [alter_file hlocate hentry hclosed, ← List.append_assoc] at halter
      obtain ⟨rfl, rfl⟩ := Prod.mk.inj (Except.ok.inj halter)
      exact ⟨rfl, f replaced, runs, rfl⟩
    | _ => exact hkind.elim

theorem agreeOutside_of_writeBytes
    (hsimple : ∀ entry, s.root.get? (base ++ (front ++ [last])) = some entry → entry.IsSimple)
    {contents : ByteArray} (hwrite : s.writeBytes (path.below (front ++ [last])) contents = .ok next) :
    AgreeOutside (base ++ (front ++ [last]) <+: ·) s next := by
  obtain ⟨⟨copy, altered⟩, halter, hnext⟩ := bind_eq_ok hwrite
  obtain rfl : altered = next := Except.ok.inj hnext
  obtain ⟨-, written, runs, rfl⟩ := exists_place_of_alter h hnames hfront hsimple halter
  rw [← List.append_assoc]
  exact agreeOutside_place s (base ++ front) last _

/-- A file is copied over another one, or to a vacant name. -/
theorem twin_of_copyFile
    (hsimple : ∀ entry, s.root.get? (base ++ (front ++ [last])) = some entry → entry.IsSimple)
    {source : Path} {origin names : List String} {found : List (String × Entry)}
    (hsource : s.Reaches source origin) (hproper : ∀ name ∈ names, ProperName name)
    (hne : names ≠ []) (horigin : s.root.get? origin = some (.directory found))
    (hplain : s.root.Plain origin) (hother : base ++ (front ++ [last]) ≠ origin ++ names)
    (hcopy : s.copyFile (source.below names) (path.below (front ++ [last])) = .ok next) :
    (∃ contents executable, s.root.get? (origin ++ names) = some (.file contents executable)) ∧
      AgreeOutside (base ++ (front ++ [last]) <+: ·) s next ∧
      Twin s (origin ++ names) next (base ++ (front ++ [last])) := by
  obtain ⟨⟨old, entry⟩, hfind, hmatch⟩ := bind_eq_ok hcopy
  obtain ⟨hold, hentry⟩ := eq_of_find_below hsource hproper hne horigin hplain hfind
  obtain rfl : old = origin ++ names := hold
  cases entry with
  | file contents executable =>
    obtain ⟨⟨copy, emptied⟩, halter, hnext⟩ := bind_eq_ok hmatch
    obtain ⟨rfl, written, runs, rfl⟩ := exists_place_of_alter h hnames hfront hsimple halter
    rw [← List.append_assoc] at hother ⊢
    dsimp only at hnext
    rw [if_neg hother] at hnext
    obtain rfl := Except.ok.inj hnext
    have hparent := get?_place_parent hfront last (.file written runs)
    refine ⟨⟨contents, executable, hentry⟩,
      (agreeOutside_place s _ last _).trans (agreeOutside_place _ _ last _), fun rest ↦ ?_⟩
    rw [seenAt, seenAt, List.append_assoc (base ++ front), List.singleton_append,
      get?_place hparent, Entry.get?_append, hentry]
    rfl
  | _ => cases hmatch

theorem gone_of_removeTree (hplain : s.root.Plain base)
    (hremove : s.removeTree (path.below (front ++ [last])) = .ok next) :
    AgreeOutside (base ++ (front ++ [last]) <+: ·) s next ∧
      next.seenAt (base ++ (front ++ [last])) = none := by
  obtain ⟨rfl, -⟩ := eq_clear_of_removeTree h hnames (List.cons_ne_nil last []) hfront
    (hplain.append front) hremove
  rw [← List.append_assoc]
  exact ⟨agreeOutside_clear s (base ++ front) last,
    seenAt_eq_none_iff.mpr (get?_clear hfront last [])⟩

end Last

end Store

end BlockWatch
