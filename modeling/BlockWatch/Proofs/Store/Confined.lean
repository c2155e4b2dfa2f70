import BlockWatch.Proofs.Store.Rewriting

/-!
# Operations below a directory without links

Where there are no links, an operation reaches what its path names and nothing else: what it makes,
changes or removes lies at that place, and still there are no links.
-/

namespace BlockWatch.Store

open Entry (get? find? Plain)

/-! ## Confined changes -/

/-- A store in which at most a location and what lies below it is another one, and free of links. -/
structure Reworked (location : List String) (s next : Store) : Prop where
  changed : ChangedAt location s next
  plain : next.root.Plain location

variable {s t next : Store} {location : List String} {name : String}
  {entries : List (String × Entry)}

theorem Reworked.trans (h : Reworked location s t) (h' : Reworked location t next) :
    Reworked location s next :=
  ⟨h.changed.trans h'.changed, h'.plain⟩

theorem reworked_refl (h : s.root.Plain location) : Reworked location s s :=
  ⟨changedAt_refl location s, h⟩

theorem reworked_place (h : s.root.get? location = some (.directory entries)) (name : String)
    (contents : ByteArray) (executable : Bool) : Reworked (location ++ [name]) s
      (s.place (location ++ [name]) (.file contents executable)) where
  changed := changedAt_place s location name _
  plain := by
    intro rest target
    rw [List.append_assoc, List.singleton_append, get?_place h]
    cases rest with
    | nil => exact fun heq ↦ nomatch heq
    | cons first more => exact fun heq ↦ nomatch heq

theorem reworked_clear (h : s.root.get? location = some (.directory entries)) (name : String) :
    Reworked (location ++ [name]) s (s.clear (location ++ [name])) where
  changed := changedAt_clear s location name
  plain := by
    intro rest target
    rw [List.append_assoc, List.singleton_append, get?_clear h]
    exact fun heq ↦ nomatch heq

/-! ## Paths below a directory -/

section Below

variable {path : Path} {base front rest : List String} {f : ByteArray → ByteArray}
  (h : s.Reaches path base) (hnames : ∀ name ∈ front ++ rest, ProperName name) (hrest : rest ≠ [])
  (hfront : s.root.get? (base ++ front) = some (.directory entries))
  (hplain : s.root.Plain (base ++ front))

include h hnames hrest hfront hplain

theorem straightTo_of_locate {follow : Bool} {place : Place}
    (hlocate : s.locate follow (path.below (front ++ rest)) = .ok place) :
    StraightTo s.root (base ++ front) rest place := by
  have hne : front ++ rest ≠ [] := by simp [hrest]
  obtain ⟨jump, hjump⟩ := exists_locate_below h hnames hne follow
  rw [walkIn_straight hfront fun name hname ↦ hnames name (List.mem_append_left _ hname)] at hjump
  rw [hjump] at hlocate
  exact straightTo_of_walkIn hplain hfront
    (fun name hname ↦ hnames name (List.mem_append_right _ hname)) hlocate

/-- What is altered is a file that the path names in a directory that is there. -/
theorem exists_of_alter {copy : Option (List String)}
    (halter : s.alter (path.below (front ++ rest)) f = .ok (copy, next)) :
    copy = none ∧ next = s ∨ ∃ parent name inner contents executable,
      base ++ (front ++ rest) = parent ++ [name] ∧
      s.root.get? parent = some (.directory inner) ∧ copy = some (parent ++ [name]) ∧
      next = s.place (parent ++ [name]) (.file contents executable) := by
  have hclosed : mustBeDirectory (path.below (front ++ rest)) = false :=
    below_closed hnames (by simp [hrest]) path
  cases hlocate : s.locate true (path.below (front ++ rest)) with
  | error cause =>
    rw [alter, hlocate] at halter
    cases halter
  | ok place =>
    cases straightTo_of_locate h hnames hrest hfront hplain hlocate with
    | @occupied entry hplace hentry =>
      rw [hplace] at hlocate
      by_cases hfile : ∃ contents executable, entry = .file contents executable
      · obtain ⟨contents, executable, rfl⟩ := hfile
        rw [alter_file hlocate hentry hclosed] at halter
        obtain ⟨rfl, rfl⟩ := Prod.mk.inj (Except.ok.inj halter)
        obtain ⟨inside, last, rfl⟩ := List.eq_nil_or_concat' rest |>.resolve_left hrest
        rw [← List.append_assoc] at hentry
        obtain ⟨inner, hinner⟩ :=
          Entry.exists_directory_of_get?_append hentry (List.cons_ne_nil last [])
        refine .inr ⟨_, last, inner, f contents, executable, ?_, hinner, ?_, ?_⟩
        · simp
        · rw [← List.append_assoc]
        · rw [← List.append_assoc]
      · exact .inl (eq_none_of_alter hlocate hentry
          (fun contents executable heq ↦ hfile ⟨contents, executable, heq⟩) halter)
    | @vacant inside last inner hplace hsplit hinner hlast =>
      rw [hplace] at hlocate
      rw [alter_vacant hlocate hclosed] at halter
      obtain ⟨rfl, rfl⟩ := Prod.mk.inj (Except.ok.inj halter)
      refine .inr ⟨_, last, inner, f .empty, false, ?_, hinner, rfl, rfl⟩
      rw [hsplit]
      simp

theorem reworked_of_writeBytes {contents : ByteArray}
    (hwrite : s.writeBytes (path.below (front ++ rest)) contents = .ok next) :
    Reworked (base ++ (front ++ rest)) s next := by
  obtain ⟨⟨copy, altered⟩, halter, hnext⟩ := bind_eq_ok hwrite
  obtain rfl : altered = next := Except.ok.inj hnext
  rcases exists_of_alter h hnames hrest hfront hplain halter with
    ⟨-, rfl⟩ | ⟨parent, name, inner, written, executable, heq, hparent, -, rfl⟩
  · rw [← List.append_assoc]
    exact reworked_refl (hplain.append rest)
  · rw [heq]
    exact reworked_place hparent name written executable

/-- A copied file keeps its contents, unless it is copied onto itself. -/
theorem reworked_of_copyFile {source : Path}
    (hcopy : s.copyFile source (path.below (front ++ rest)) = .ok next) :
    Reworked (base ++ (front ++ rest)) s next := by
  obtain ⟨⟨location, entry⟩, -, hmatch⟩ := bind_eq_ok hcopy
  cases entry with
  | file contents executable =>
    obtain ⟨⟨copy, emptied⟩, halter, hnext⟩ := bind_eq_ok hmatch
    rcases exists_of_alter h hnames hrest hfront hplain halter with
      ⟨rfl, rfl⟩ | ⟨parent, name, inner, written, runs, heq, hparent, rfl, rfl⟩
    · obtain rfl := Except.ok.inj hnext
      rw [← List.append_assoc]
      exact reworked_refl (hplain.append rest)
    · obtain rfl := Except.ok.inj hnext
      rw [heq]
      exact (reworked_place hparent name written runs).trans
        (reworked_place (get?_place_parent hparent name _) name _ executable)
  | _ => cases hmatch

theorem eq_of_find {follow : Bool} {found : List String × Entry}
    (hfind : s.find follow (path.below (front ++ rest)) = .ok found) :
    found.1 = base ++ (front ++ rest) ∧ s.root.get? (base ++ (front ++ rest)) = some found.2 := by
  have hne : front ++ rest ≠ [] := by simp [hrest]
  cases hlocate : s.locate follow (path.below (front ++ rest)) with
  | error cause =>
    rw [find, hlocate] at hfind
    cases hfind
  | ok place =>
    cases straightTo_of_locate h hnames hrest hfront hplain hlocate with
    | @occupied entry hplace hentry =>
      rw [List.append_assoc] at hentry
      have hlink : ∀ target, entry ≠ .link target := by
        rintro target rfl
        rw [← List.append_assoc] at hentry
        exact hplain rest target hentry
      rw [find_below h hnames hne hentry hlink] at hfind
      obtain rfl := Except.ok.inj hfind
      exact ⟨rfl, hentry⟩
    | vacant hplace =>
      rw [hplace] at hlocate
      rw [find, hlocate] at hfind
      cases hfind

theorem eq_clear_of_removeTree (hremove : s.removeTree (path.below (front ++ rest)) = .ok next) :
    next = s.clear (base ++ (front ++ rest)) ∧
      ∃ entry, s.root.get? (base ++ (front ++ rest)) = some entry := by
  obtain ⟨⟨location, entry⟩, hfind, hmatch⟩ := bind_eq_ok hremove
  obtain ⟨hlocation, hentry⟩ := eq_of_find h hnames hrest hfront hplain hfind
  obtain rfl : location = base ++ (front ++ rest) := hlocation
  refine ⟨?_, entry, hentry⟩
  cases entry with
  | directory _ | link _ => exact (Except.ok.inj hmatch).symm
  | _ => cases hmatch

theorem reworked_of_removeTree (hremove : s.removeTree (path.below (front ++ rest)) = .ok next) :
    Reworked (base ++ (front ++ rest)) s next := by
  obtain ⟨hnext, entry, hentry⟩ := eq_clear_of_removeTree h hnames hrest hfront hplain hremove
  obtain ⟨inside, last, rfl⟩ := List.eq_nil_or_concat' rest |>.resolve_left hrest
  have hsplit : base ++ (front ++ (inside ++ [last])) = base ++ front ++ inside ++ [last] := by simp
  rw [hsplit] at hentry hnext ⊢
  obtain ⟨inner, hinner⟩ :=
    Entry.exists_directory_of_get?_append hentry (List.cons_ne_nil last [])
  rw [hnext]
  exact reworked_clear hinner last

end Below

/-! ## Names of a directory -/

section Child

variable {path : Path} {base : List String} (h : s.Reaches path base) (hname : ProperName name)

include h hname

/-- A name of a directory leads to its entry if the last link is not followed. -/
theorem eq_of_find_child {found : List String × Entry}
    (hfind : s.find false (path.child name) = .ok found) :
    found.1 = base ++ [name] ∧ s.root.get? (base ++ [name]) = some found.2 := by
  have hnames : ∀ other ∈ [name], ProperName other := List.forall_mem_singleton.mpr hname
  have hclosed : mustBeDirectory (path.child name) = false := Route.closed_child hname path
  obtain ⟨jump, hlocate⟩ := exists_locate_below h hnames (List.cons_ne_nil _ _) false
  replace hlocate : s.locate false (path.child name) = _ := hlocate
  have hoccupied (hplace : s.locate false (path.child name) = .ok (.occupied (base ++ [name]))) :
      found.1 = base ++ [name] ∧ s.root.get? (base ++ [name]) = some found.2 := by
    rw [find_of_occupied hplace] at hfind
    cases hentry : s.root.get? (base ++ [name]) with
    | none =>
      rw [hentry] at hfind
      cases hfind
    | some entry =>
      rw [hentry] at hfind
      dsimp only at hfind
      rw [hclosed, Bool.false_and, if_neg Bool.false_ne_true] at hfind
      obtain rfl := Except.ok.inj hfind
      exact ⟨rfl, rfl⟩
  cases hplace : walkIn s.root false jump base [name] with
  | error cause =>
    rw [find, hlocate, hplace] at hfind
    cases hfind
  | ok place =>
    obtain ⟨entries, -, hstrides⟩ := exists_strides_of_walkIn hplace
    rw [hplace] at hlocate
    cases hstrides with
    | stays hdot => exact absurd hdot hname.notHere
    | climbs hup => exact absurd hup hname.notUp
    | vacant _ _ hvacant =>
      rw [find, hlocate, hvacant] at hfind
      cases hfind
    | stops _ _ _ _ _ hstop => exact hoccupied (hstop ▸ hlocate)
    | jumps _ _ _ hfollow => cases hfollow
    | enters _ _ _ _ hgoes => exact hoccupied (Except.ok.inj hgoes ▸ hlocate)

/-- Whatever is removed from a directory by its name is gone, and nothing else. -/
theorem eq_clear_of_removeTree_child (hremove : s.removeTree (path.child name) = .ok next) :
    next = s.clear (base ++ [name]) ∧ ∃ inner, s.root.get? base = some (.directory inner) := by
  obtain ⟨⟨location, entry⟩, hfind, hmatch⟩ := bind_eq_ok hremove
  obtain ⟨hlocation, hentry⟩ := eq_of_find_child h hname hfind
  obtain rfl : location = base ++ [name] := hlocation
  refine ⟨?_, Entry.exists_directory_of_get?_append hentry (List.cons_ne_nil name [])⟩
  cases entry with
  | directory _ | link _ => exact (Except.ok.inj hmatch).symm
  | _ => cases hmatch

end Child

/-! ## Directories that are made -/

/-- A store with new directories, in which everything else is as it was. -/
structure Grows (s next : Store) : Prop where
  here : next.here = s.here
  kind : s.root.Extends next.root
  file : ∀ q contents executable, s.root.get? q = some (.file contents executable) →
    next.root.get? q = some (.file contents executable)
  made : ∀ q entry, s.root.get? q = none → next.root.get? q = some entry →
    ∃ entries, entry = .directory entries

theorem Grows.refl (s : Store) : Grows s s :=
  ⟨rfl, Entry.extends_refl s.root, fun _ _ _ h ↦ h, fun _ _ hnone hsome ↦ by
    rw [hnone] at hsome
    cases hsome⟩

theorem Grows.trans (h : Grows s t) (h' : Grows t next) : Grows s next where
  here := h'.here.trans h.here
  kind := h.kind.trans h'.kind
  file q contents executable hfile := h'.file q contents executable (h.file _ _ _ hfile)
  made q entry hnone hentry := by
    cases hmiddle : t.root.get? q with
    | none => exact h'.made q entry hmiddle hentry
    | some middle =>
      obtain ⟨inner, rfl⟩ := h.made q middle hnone hmiddle
      obtain ⟨found, hfound⟩ := h'.kind.exists_directory hmiddle
      rw [hentry] at hfound
      exact ⟨found, Option.some.inj hfound⟩

/-- Where there were no links there are none afterwards. -/
theorem Grows.plain (h : Grows s next) (hplain : s.root.Plain location) :
    next.root.Plain location := by
  intro rest target hlink
  cases hentry : s.root.get? (location ++ rest) with
  | none =>
    obtain ⟨inner, heq⟩ := h.made _ _ hentry hlink
    cases heq
  | some entry =>
    obtain ⟨found, hfound, hkind⟩ := h.kind _ _ hentry
    rw [hlink] at hfound
    obtain rfl := Option.some.inj hfound
    obtain rfl := Entry.eq_link_of_kind hkind.symm
    exact hplain rest target hentry

theorem grows_place (h : s.root.get? location = some (.directory entries))
    (hname : find? name entries = none) :
    Grows s (s.place (location ++ [name]) (.directory [])) := by
  have hchanged := changedAt_place s location name (.directory [])
  have hvacant : s.root.get? (location ++ [name]) = none := by
    rw [Entry.get?_append_singleton h, hname]
  have hbelow {q : List String} (hq : location ++ [name] <+: q) : s.root.get? q = none := by
    obtain ⟨rest, rfl⟩ := hq
    rw [Entry.get?_append, hvacant]
    rfl
  refine ⟨hchanged.here, ?_, ?_, ?_⟩
  · intro q entry hentry
    have hq : ¬location ++ [name] <+: q := by
      intro hq
      rw [hbelow hq] at hentry
      cases hentry
    exact Entry.exists_of_kind (hchanged.kind q hq) hentry
  · intro q contents executable hfile
    rw [hchanged.branch q]
    · exact hfile
    · intro hq
      rw [hbelow hq] at hfile
      cases hfile
    · intro hleads
      rcases List.prefix_concat_iff.mp hleads with rfl | hleads
      · rw [hvacant] at hfile
        cases hfile
      · rw [eq_of_file_leads hfile h hleads, h] at hfile
        cases hfile
  · intro q entry hnone hentry
    by_cases hq : location ++ [name] <+: q
    · obtain ⟨rest, rfl⟩ := hq
      rw [List.append_assoc, List.singleton_append, get?_place h] at hentry
      cases rest with
      | nil => exact ⟨[], (Option.some.inj hentry).symm⟩
      | cons first more => cases hentry
    · have hkind := hchanged.kind q hq
      rw [hnone, hentry] at hkind
      cases hkind

theorem grows_makeDirectory {path : Path} (h : s.makeDirectory path = .ok next) :
    Grows s next := by
  obtain ⟨place, hlocate, hmatch⟩ := bind_eq_ok h
  cases place with
  | occupied location => cases hmatch
  | vacant parent name =>
    obtain rfl := Except.ok.inj hmatch
    rw [locate] at hlocate
    split_ifs at hlocate
    obtain ⟨entries, hparent, hname⟩ := directory_of_walk_vacant hlocate
    exact grows_place hparent hname

theorem grows_ensureDirectory {path : Path} (h : s.ensureDirectory path = .ok next) :
    Grows s next := by
  rw [ensureDirectory] at h
  split at h
  next made hmade =>
    obtain rfl := Except.ok.inj h
    exact grows_makeDirectory hmade
  next =>
    split_ifs at h
    obtain rfl := Except.ok.inj h
    exact .refl s

theorem grows_makeAlong {path : Path} {further : List Path}
    (h : s.makeAlong path further = .ok next) : Grows s next := by
  induction further generalizing path next with
  | nil => exact grows_ensureDirectory h
  | cons parent further ih =>
    rw [makeAlong] at h
    split at h
    next made hmade =>
      obtain rfl := Except.ok.inj h
      exact grows_makeDirectory hmade
    next =>
      split_ifs at h
      · exact grows_ensureDirectory h
      · obtain ⟨middle, hmiddle, hlast⟩ := bind_eq_ok h
        exact (ih hmiddle).trans (grows_ensureDirectory hlast)
      · obtain rfl := Except.ok.inj h
        exact .refl s

/-- Making directories changes nothing that is there. -/
theorem grows_makeDirectories {path : Path} (h : s.makeDirectories path = .ok next) :
    Grows s next := by
  rw [makeDirectories] at h
  split_ifs at h
  · obtain rfl := Except.ok.inj h
    exact .refl s
  · exact grows_makeAlong h

end BlockWatch.Store
