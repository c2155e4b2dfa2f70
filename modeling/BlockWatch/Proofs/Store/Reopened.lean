import BlockWatch.Proofs.Store.Rewriting

/-!
# Files that are opened again

A path that leads to a file leads to the same file after it was written, so what is read from the
path is what was written. Only a path that must lead to a directory could end at the root itself.
-/

namespace BlockWatch

open Entry (get?)

theorem toUTF8_of_fromUTF8? {contents : ByteArray} {text : String}
    (h : String.fromUTF8? contents = some text) : contents = text.toUTF8 := by
  unfold String.fromUTF8? at h
  split at h
  · obtain rfl := Option.some.inj h
    rfl
  · cases h

namespace Route

open Json.DottedPath (splitAt)

theorem eq_slash_of_namesOf {cs : List Char} (h : namesOf cs = []) : ∀ c ∈ cs, c = '/' := by
  induction cs with
  | nil => exact fun c hc ↦ absurd hc List.not_mem_nil
  | cons first rest ih =>
    by_cases hslash : first = '/'
    · rw [hslash, ← List.nil_append ('/' :: rest), namesOf_append_slash, namesOf_nil,
        List.nil_append] at h
      exact List.forall_mem_cons.mpr ⟨hslash, ih h⟩
    · obtain ⟨part, parts, -, hsplit⟩ := Json.DottedPath.splitAt_cons_of_ne hslash rest
      rw [namesOf, hsplit, List.filter_cons_of_pos rfl] at h
      cases h

/-- A path without names is made of slashes. -/
theorem closed_of_names_eq_nil {text : String} (hnames : (ofText text).names = [])
    (hne : text.isEmpty = false) : (ofText text).closed = true := by
  have hchars : text.toList ≠ [] := by simpa using hne
  obtain ⟨front, last, hlast⟩ := List.eq_nil_or_concat' text.toList |>.resolve_left hchars
  have hslash : last = '/' := eq_slash_of_namesOf hnames last (by rw [hlast]; simp)
  refine (endsWith_iff text "/").mpr ⟨front, ?_⟩
  rw [hlast, hslash]
  rfl

end Route

namespace Store

variable {s next : Store} {path : Path} {location : List String} {contents : ByteArray}
  {executable : Bool} {text : String}

theorem find_eq_ok {follow : Bool} {entry : Entry}
    (h : s.find follow path = .ok (location, entry)) :
    s.locate follow path = .ok (.occupied location) ∧ s.root.get? location = some entry ∧
      (mustBeDirectory path = true → entry.isDirectory = true) := by
  obtain ⟨place, hlocate, hmatch⟩ := bind_eq_ok h
  cases place with
  | vacant => cases hmatch
  | occupied there =>
    simp only at hmatch
    cases hentry : s.root.get? there with
    | none =>
      rw [hentry] at hmatch
      cases hmatch
    | some found =>
      simp only [hentry] at hmatch
      split_ifs at hmatch with hdirectory
      cases hmatch
      refine ⟨hlocate, hentry, fun hclosed ↦ ?_⟩
      rw [hclosed] at hdirectory
      simpa using hdirectory

theorem reaches_of_locate (h : s.locate true path = .ok (.occupied location)) :
    path.text.isEmpty = false ∧ s.Reaches path location := by
  rw [locate] at h
  split_ifs at h with hempty
  exact ⟨Bool.eq_false_iff.mpr hempty, h⟩

/-- The root is no file that a path can lead to. -/
theorem ne_nil_of_find (h : s.find true path = .ok (location, .file contents executable)) :
    location ≠ [] := by
  rintro rfl
  obtain ⟨hlocate, hentry, hdirectory⟩ := find_eq_ok h
  obtain ⟨hne, hreaches⟩ := reaches_of_locate hlocate
  have hroot : s.root = .file contents executable := Option.some.inj hentry
  cases hnames : (Route.ofText path.text).names with
  | nil => cases hdirectory (Route.closed_of_names_eq_nil hnames hne)
  | cons name rest =>
    have hnone (here : List String) (entries : List (String × Entry)) :
        s.root.get? here ≠ some (.directory entries) := by
      rw [hroot]
      cases here <;> exact fun heq ↦ nomatch heq
    rw [Reaches, hnames, maxLinks, walk, walkIn_of_not_directory (hnone _)] at hreaches
    cases hreaches

theorem readText_of_find (h : s.find true path = .ok (location, .file text.toUTF8 executable)) :
    s.readText path = .ok text := by
  have hbytes : s.readBytes path = .ok text.toUTF8 := by
    rw [readBytes, h]
    rfl
  rw [readText_of_readBytes hbytes, fromUTF8?_toUTF8]

/-- Some text is held by a file alone. -/
theorem exists_find_of_readText (h : s.readText path = .ok text) (hne : text ≠ "") :
    ∃ location executable, s.find true path = .ok (location, .file text.toUTF8 executable) := by
  obtain ⟨contents, hread, hmatch⟩ := bind_eq_ok h
  have htext : String.fromUTF8? contents = some text := by
    cases hdecode : String.fromUTF8? contents with
    | none =>
      rw [hdecode] at hmatch
      cases hmatch
    | some found =>
      rw [hdecode] at hmatch
      rw [Except.ok.inj hmatch]
  obtain ⟨⟨location, entry⟩, hfind, hentry⟩ := bind_eq_ok hread
  cases entry with
  | file held executable =>
    obtain rfl : held = contents := Except.ok.inj hentry
    exact ⟨location, executable, hfind.trans (by rw [toUTF8_of_fromUTF8? htext])⟩
  | directory => cases hentry
  | link _ | device | tool _ =>
    obtain rfl : ByteArray.empty = contents := Except.ok.inj hentry
    have hempty : text.toUTF8 = "".toUTF8 := (toUTF8_of_fromUTF8? htext).symm
    have hsame := fromUTF8?_toUTF8 text
    rw [hempty, fromUTF8?_toUTF8] at hsame
    exact absurd (Option.some.inj hsame).symm hne

/-- A file can be written, and the path leads to what was written. -/
theorem exists_find_of_writeBytes
    (h : s.find true path = .ok (location, .file contents executable)) (written : ByteArray) :
    ∃ next, s.writeBytes path written = .ok next ∧
      next.find true path = .ok (location, .file written executable) := by
  obtain ⟨hlocate, hentry, hdirectory⟩ := find_eq_ok h
  obtain ⟨hne, hreaches⟩ := reaches_of_locate hlocate
  have hopen : mustBeDirectory path = false :=
    Bool.eq_false_iff.mpr fun hclosed ↦ nomatch hdirectory hclosed
  obtain ⟨front, last, rfl⟩ := List.eq_nil_or_concat' location |>.resolve_left (ne_nil_of_find h)
  obtain ⟨entries, hfront⟩ :=
    Entry.exists_directory_of_get?_append hentry (List.cons_ne_nil last [])
  refine ⟨s.place (front ++ [last]) (.file written executable), ?_, ?_⟩
  · rw [writeBytes, alter_file hlocate hentry hopen]
    rfl
  · exact find_of_reaches ((rewritten_place hentry written executable).reaches hreaches) hne hopen
      (get?_place hfront last (.file written executable) [])

end Store

end BlockWatch
