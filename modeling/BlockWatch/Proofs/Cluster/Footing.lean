import BlockWatch.Proofs.Cluster.Homes
import BlockWatch.Proofs.Store.Confined

/-!
# Homes on firm ground

The ground is what stays in place: the way to the directory of the homes, but no home. On it stand
homes without links. What happens inside of a home, or makes directories, keeps the ground and the
other homes, and leaves every document alone that it does not name.
-/

namespace BlockWatch

open Store (ChangedAt Reworked Rewritten Grows)

/-! ## Files that are left alone -/

namespace Store

/-- If there is a file at a location, it keeps its contents. -/
def Spares (q : List String) (s next : Store) : Prop :=
  ∀ contents executable, s.root.get? q = some (.file contents executable) →
    next.root.get? q = some (.file contents executable)

variable {q location : List String} {s t next : Store}

theorem Spares.trans (h : Spares q s t) (h' : Spares q t next) : Spares q s next :=
  fun contents executable hfile ↦ h' contents executable (h contents executable hfile)

theorem Spares.holds (h : Spares q s next) {value : Json.Value} (hholds : s.Holds q value) :
    next.Holds q value := by
  obtain ⟨contents, executable, hfile, hvalue⟩ := hholds
  exact ⟨contents, executable, h contents executable hfile, hvalue⟩

theorem Grows.spares (h : Grows s next) (q : List String) : Spares q s next := h.file q

/-- What happens to a name of a directory spares the files that are not at or below it. -/
theorem ChangedAt.spares {name : String} {rest : List String}
    (h : ChangedAt (location ++ name :: rest) s next) {entries : List (String × Entry)}
    (hdirectory : s.root.get? location = some (.directory entries))
    (hq : ¬location ++ [name] <+: q) : Spares q s next := by
  intro contents executable hfile
  have hname : location ++ name :: rest = location ++ [name] ++ rest := by simp
  rw [hname] at h
  rw [h.branch q]
  · exact hfile
  · exact fun hleads ↦ hq ((List.prefix_append _ _).trans hleads)
  · intro hleads
    rcases List.prefix_or_prefix_of_prefix hleads (List.prefix_append _ _) with hle | hle
    · rcases List.prefix_concat_iff.mp hle with rfl | habove
      · exact hq (List.prefix_refl _)
      · rw [← eq_of_file_leads hfile hdirectory habove, hfile] at hdirectory
        cases hdirectory
    · exact hq hle

end Store

/-! ## The ground -/

/-- A part of a store that stays, and the homes that stand on it. -/
structure Footing where
  ground : Store
  /-- Where the homes are. -/
  base : List String
  nodes : ℕ
  /-- Where files of the ground are that nobody changes, such as programs. -/
  fixed : List (List String) := []

namespace Footing

/-- Where the home of a node is. -/
def homeAt (footing : Footing) (ordinal : ℕ) : List String := footing.base ++ [homeName ordinal]

/-- Where the genesis file of a node is. -/
def genesisAt (footing : Footing) (ordinal : ℕ) : List String :=
  footing.base ++ [homeName ordinal, genesisFile]

/-- The ground leads to the homes and holds none of them. -/
structure Firm (footing : Footing) (workDir : Path) : Prop where
  reaches : footing.ground.Reaches workDir footing.base
  vacant : ∀ ordinal < footing.nodes, footing.ground.root.get? (footing.homeAt ordinal) = none

/-- A store with the ground. -/
structure Bears (footing : Footing) (s : Store) : Prop where
  here : s.here = footing.ground.here
  ground : footing.ground.root.Extends s.root
  fixed : ∀ q ∈ footing.fixed, Store.Spares q footing.ground s

/-- Once the directory of the homes is made, the ground is there. -/
def Awaits (footing : Footing) (workDir : Path) (start : Store) : Prop :=
  ∀ based, start.makeDirectories workDir = .ok based → footing.Bears based

/-- A store with the ground and all homes. -/
structure Furnished (footing : Footing) (s : Store) : Prop extends footing.Bears s where
  directory : ∀ ordinal < footing.nodes, ∃ entries,
    s.root.get? (footing.homeAt ordinal) = some (.directory entries)
  plain : ∀ ordinal < footing.nodes, s.root.Plain (footing.homeAt ordinal)

/-- Nothing in the homes. -/
def Outside (footing : Footing) (q : List String) : Prop :=
  ∀ ordinal < footing.nodes, ¬footing.homeAt ordinal <+: q

variable {footing : Footing} {workDir : Path} {s next : Store} {ordinal : ℕ} {q : List String}

theorem bears_ground (footing : Footing) : footing.Bears footing.ground :=
  ⟨rfl, Entry.extends_refl _, fun _ _ _ _ hfile ↦ hfile⟩

theorem Bears.reaches (h : footing.Bears s) (hfirm : footing.Firm workDir) :
    s.Reaches workDir footing.base :=
  Store.reaches_of_extends hfirm.reaches h.ground h.here

theorem Furnished.hasHome (h : footing.Furnished s) (hordinal : ordinal < footing.nodes) :
    s.HasHome (footing.homeAt ordinal) where
  directory := h.directory ordinal hordinal
  genesis := h.plain ordinal hordinal [genesisFile]
  config := h.plain ordinal hordinal [configFile]

/-- What lies in a home is no part of the ground. -/
theorem Firm.outside (hfirm : footing.Firm workDir) {entry : Entry}
    (hentry : footing.ground.root.get? q = some entry) : footing.Outside q := by
  rintro ordinal hordinal ⟨rest, rfl⟩
  rw [Entry.get?_append, hfirm.vacant ordinal hordinal] at hentry
  cases hentry

/-! ## What keeps the ground -/

theorem Bears.of_grows (h : footing.Bears s) (hgrows : Grows s next) : footing.Bears next where
  here := hgrows.here.trans h.here
  ground := h.ground.trans hgrows.kind
  fixed q hq := (h.fixed q hq).trans (hgrows.spares q)

theorem Bears.of_rewritten {changed : List String → Prop} (h : footing.Bears s)
    (hfirm : footing.Firm workDir) (hchanged : ∀ q, changed q → ¬footing.Outside q)
    (hrewritten : Rewritten changed s next) : footing.Bears next where
  here := hrewritten.here.trans h.here
  ground := h.ground.trans hrewritten.extends_root
  fixed q hq contents executable hfile :=
    hrewritten.file q (fun hin ↦ hchanged q hin (hfirm.outside hfile)) contents executable
      (h.fixed q hq contents executable hfile)

/-- Homes may come and go, and anything may happen in them. -/
theorem Bears.of_changedAt (h : footing.Bears s) (hfirm : footing.Firm workDir)
    (hordinal : ordinal < footing.nodes) {entries : List (String × Entry)}
    (hbase : s.root.get? footing.base = some (.directory entries)) {rest : List String}
    (hchanged : ChangedAt (footing.base ++ homeName ordinal :: rest) s next) :
    footing.Bears next where
  here := hchanged.here.trans h.here
  ground q entry hentry := by
    obtain ⟨found, hfound, hkind⟩ := h.ground q entry hentry
    have hq : ¬footing.base ++ homeName ordinal :: rest <+: q := by
      intro hleads
      have hhome : footing.homeAt ordinal <+: footing.base ++ homeName ordinal :: rest :=
        prefix_home_iff.mpr rfl
      exact hfirm.outside hentry ordinal hordinal (hhome.trans hleads)
    obtain ⟨last, hlast, hsame⟩ := Entry.exists_of_kind (hchanged.kind q hq) hfound
    exact ⟨last, hlast, hsame.trans hkind⟩
  fixed q hq contents executable hfile := by
    have houtside : ¬footing.base ++ [homeName ordinal] <+: q :=
      hfirm.outside hfile ordinal hordinal
    exact hchanged.spares hbase houtside _ _ (h.fixed q hq contents executable hfile)

/-- A home that an earlier run left may be removed. -/
theorem Bears.of_removeTree (h : footing.Bears s) (hfirm : footing.Firm workDir)
    (hordinal : ordinal < footing.nodes)
    (hremove : s.removeTree (workDir.child (homeName ordinal)) = .ok next) :
    footing.Bears next ∧ ∀ q, footing.Outside q → Store.Spares q s next := by
  obtain ⟨rfl, entries, hbase⟩ :=
    Store.eq_clear_of_removeTree_child (h.reaches hfirm) (properName_homeName ordinal) hremove
  have hchanged := Store.changedAt_clear s footing.base (homeName ordinal)
  exact ⟨h.of_changedAt hfirm hordinal hbase hchanged,
    fun q hq ↦ hchanged.spares hbase (hq ordinal hordinal)⟩

/-! ## What keeps the homes -/

theorem Furnished.exists_base (h : footing.Furnished s) (hordinal : ordinal < footing.nodes) :
    ∃ entries, s.root.get? footing.base = some (.directory entries) := by
  obtain ⟨entries, hentries⟩ := h.directory ordinal hordinal
  exact Entry.exists_directory_of_get?_append hentries (List.cons_ne_nil _ _)

theorem Furnished.of_rewritten {changed : List String → Prop} (h : footing.Furnished s)
    (hfirm : footing.Firm workDir) (hchanged : ∀ q, changed q → ¬footing.Outside q)
    (hrewritten : Rewritten changed s next) : footing.Furnished next where
  toBears := h.toBears.of_rewritten hfirm hchanged hrewritten
  directory ordinal hordinal := by
    obtain ⟨entries, hentries⟩ := h.directory ordinal hordinal
    exact hrewritten.exists_directory hentries
  plain ordinal hordinal rest := hrewritten.not_link (h.plain ordinal hordinal rest)

theorem Furnished.of_grows (h : footing.Furnished s) (hgrows : Grows s next) :
    footing.Furnished next where
  toBears := h.toBears.of_grows hgrows
  directory ordinal hordinal := by
    obtain ⟨entries, hentries⟩ := h.directory ordinal hordinal
    exact hgrows.kind.exists_directory hentries
  plain ordinal hordinal := hgrows.plain (h.plain ordinal hordinal)

theorem Furnished.of_reworked (h : footing.Furnished s) (hfirm : footing.Firm workDir)
    (hordinal : ordinal < footing.nodes) {first : String} {rest : List String}
    (hreworked : Reworked (footing.homeAt ordinal ++ first :: rest) s next) :
    footing.Furnished next where
  toBears := by
    obtain ⟨entries, hbase⟩ := h.exists_base hordinal
    have hchanged := hreworked.changed
    rw [homeAt, List.append_assoc] at hchanged
    exact h.toBears.of_changedAt hfirm hordinal hbase hchanged
  directory other hother := by
    obtain ⟨entries, hentries⟩ := h.directory other hother
    have hlonger : ¬footing.homeAt ordinal ++ first :: rest <+: footing.homeAt other := by
      intro hleads
      have hlength := hleads.length_le
      simp [homeAt] at hlength
    exact Entry.exists_directory_of_kind (hreworked.changed.kind _ hlonger) hentries
  plain other hother := by
    intro more target hlink
    by_cases hbelow : footing.homeAt ordinal ++ first :: rest <+: footing.homeAt other ++ more
    · obtain ⟨further, hfurther⟩ := hbelow
      rw [← hfurther] at hlink
      exact hreworked.plain further target hlink
    · have hkind := hreworked.changed.kind _ hbelow
      exact h.plain other hother more target (Entry.get?_link_of_kind hkind.symm hlink)

/-! ## What keeps the documents -/

/-- A change in a home that is not of its genesis file changes no genesis file. -/
theorem spares_genesisAt_of_reworked (h : footing.Furnished s) (hordinal : ordinal < footing.nodes)
    {other : ℕ} {first : String} {rest : List String}
    (hreworked : Reworked (footing.homeAt ordinal ++ first :: rest) s next)
    (hfirst : first ≠ genesisFile) : Store.Spares (footing.genesisAt other) s next := by
  obtain ⟨entries, hhome⟩ := h.directory ordinal hordinal
  apply hreworked.changed.spares hhome
  rw [homeAt, genesisAt, List.append_assoc, List.singleton_append, List.prefix_append_right_inj,
    List.cons_prefix_cons, List.cons_prefix_cons]
  exact fun hleads ↦ hfirst hleads.2.1

/-- A change in a home changes no document outside. -/
theorem spares_outside_of_reworked (h : footing.Furnished s) (hordinal : ordinal < footing.nodes)
    {first : String} {rest : List String}
    (hreworked : Reworked (footing.homeAt ordinal ++ first :: rest) s next)
    (hq : footing.Outside q) : Store.Spares q s next := by
  obtain ⟨entries, hbase⟩ := h.exists_base hordinal
  have hchanged := hreworked.changed
  rw [homeAt, List.append_assoc] at hchanged
  exact hchanged.spares hbase (hq ordinal hordinal)

/-! ## Genesis files that say what they should -/

end Footing

/-- The file at a location holds an object with some changes in it. -/
def Store.Says (s : Store) (q : List String) (changes : List (String × Json.Value)) : Prop :=
  ∃ members, s.Holds q (.object members) ∧
    ∀ change ∈ changes, Json.DottedPath.lookup members change.1 = some change.2

theorem Store.Spares.says_kept {q : List String} {s next : Store}
    {changes : List (String × Json.Value)} (h : Store.Spares q s next) (hsaid : s.Says q changes) :
    next.Says q changes := by
  obtain ⟨members, hholds, hfound⟩ := hsaid
  exact ⟨members, h.holds hholds, hfound⟩

namespace Footing

/-- A store in which all genesis files say the same, and some documents outside the homes too. -/
structure Sound (footing : Footing) (changes : List (String × Json.Value))
    (sources : List (List String)) (s : Store) : Prop where
  furnished : footing.Furnished s
  genesis : ∀ ordinal < footing.nodes, s.Says (footing.genesisAt ordinal) changes
  sources : ∀ q ∈ sources, footing.Outside q ∧ s.Says q changes

variable {footing : Footing} {workDir : Path} {s next : Store} {ordinal : ℕ}
  {changes : List (String × Json.Value)} {sources : List (List String)}

theorem Sound.of_grows (h : footing.Sound changes sources s) (hgrows : Grows s next) :
    footing.Sound changes sources next where
  furnished := h.furnished.of_grows hgrows
  genesis ordinal hordinal := (hgrows.spares _).says_kept (h.genesis ordinal hordinal)
  sources q hq := ⟨(h.sources q hq).1, (hgrows.spares q).says_kept (h.sources q hq).2⟩

/-- Everything in a home but its genesis file may change. -/
theorem Sound.of_reworked (h : footing.Sound changes sources s) (hfirm : footing.Firm workDir)
    (hordinal : ordinal < footing.nodes) {first : String} {rest : List String}
    (hreworked : Reworked (footing.homeAt ordinal ++ first :: rest) s next)
    (hfirst : first ≠ genesisFile) : footing.Sound changes sources next where
  furnished := h.furnished.of_reworked hfirm hordinal hreworked
  genesis other hother :=
    (spares_genesisAt_of_reworked h.furnished hordinal hreworked hfirst).says_kept
      (h.genesis other hother)
  sources q hq := by
    obtain ⟨houtside, hsaid⟩ := h.sources q hq
    have hspares := spares_outside_of_reworked h.furnished hordinal hreworked houtside
    exact ⟨houtside, hspares.says_kept hsaid⟩

/-- An operation on a path in a home that is confined to it may do what it wants there. -/
theorem Sound.of_confined (h : footing.Sound changes sources s) (hfirm : footing.Firm workDir)
    (hordinal : ordinal < footing.nodes) {first : String} {rest : List String}
    (hnames : ∀ name ∈ first :: rest, ProperName name) (hfirst : first ≠ genesisFile)
    (hconfined : ∀ entries, s.Reaches workDir footing.base →
      (∀ name ∈ [homeName ordinal] ++ first :: rest, ProperName name) → first :: rest ≠ [] →
        s.root.get? (footing.base ++ [homeName ordinal]) = some (.directory entries) →
          s.root.Plain (footing.base ++ [homeName ordinal]) →
            Reworked (footing.base ++ ([homeName ordinal] ++ first :: rest)) s next) :
    footing.Sound changes sources next := by
  obtain ⟨entries, hentries⟩ := h.furnished.directory ordinal hordinal
  have hreworked := hconfined entries (h.furnished.reaches hfirm)
    (List.forall_mem_cons.mpr ⟨properName_homeName ordinal, hnames⟩) (List.cons_ne_nil _ _)
    hentries (h.furnished.plain ordinal hordinal)
  rw [← List.append_assoc] at hreworked
  exact h.of_reworked hfirm hordinal hreworked hfirst

/-- A genesis file may be replaced by a document outside. -/
theorem Sound.of_copyFile (h : footing.Sound changes sources s) (hfirm : footing.Firm workDir)
    (hordinal : ordinal < footing.nodes) {source : Path} {q : List String} (hq : q ∈ sources)
    (hsource : footing.ground.Reaches (source.child genesisFile) q)
    (hcopy : s.copyFile (source.child genesisFile)
      (workDir.below [homeName ordinal, genesisFile]) = .ok next) :
    footing.Sound changes sources next := by
  have hname : ∀ name ∈ [genesisFile], ProperName name :=
    List.forall_mem_singleton.mpr properName_genesisFile
  have hnames : ∀ name ∈ [homeName ordinal, genesisFile], ProperName name :=
    List.forall_mem_cons.mpr ⟨properName_homeName ordinal, hname⟩
  obtain ⟨houtside, members, ⟨contents, executable, hfile, hvalue⟩, hfound⟩ := h.sources q hq
  obtain ⟨-, ⟨replaced, runs, hreplaced, -⟩, -⟩ := h.genesis ordinal hordinal
  have hfind : s.find true (source.child genesisFile) = .ok (q, .file contents executable) :=
    Store.find_of_reaches (Store.reaches_of_extends hsource h.furnished.ground h.furnished.here)
      (Store.below_nonempty hname (List.cons_ne_nil _ _) source)
      (Store.below_closed hname (List.cons_ne_nil _ _) source) hfile
  have hapart (other : ℕ) (hother : other < footing.nodes) : footing.genesisAt other ≠ q := by
    rintro rfl
    exact houtside other hother (prefix_home_iff.mpr rfl)
  obtain ⟨hrewritten, hcopied⟩ := Store.exists_rewritten_of_copyFile hfind
    (h.furnished.reaches hfirm) hnames (List.cons_ne_nil _ _) hreplaced (hapart ordinal hordinal)
    hcopy
  have hspares (p : List String) (hp : p ≠ footing.genesisAt ordinal) : Store.Spares p s next :=
    hrewritten.file p hp
  have hinside (p : List String) (hp : p = footing.genesisAt ordinal) : ¬footing.Outside p := by
    rintro hout
    exact hout ordinal hordinal (hp ▸ prefix_home_iff.mpr rfl)
  refine ⟨h.furnished.of_rewritten hfirm hinside hrewritten, fun other hother ↦ ?_, fun p hp ↦ ?_⟩
  · by_cases hsame : other = ordinal
    · rw [hsame]
      exact ⟨members, ⟨contents, executable, hcopied, hvalue⟩, hfound⟩
    · apply (hspares _ _).says_kept (h.genesis other hother)
      intro heq
      have hnamesEq := List.append_cancel_left heq
      exact hsame (homeName_injective (List.cons.inj hnamesEq).1)
  · obtain ⟨hout, hsaid⟩ := h.sources p hp
    exact ⟨hout, (hspares p fun heq ↦ hinside p heq hout).says_kept hsaid⟩

end Footing

end BlockWatch
