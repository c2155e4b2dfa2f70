import BlockWatch.Proofs.Cluster.Homes
import BlockWatch.Proofs.Cluster.Steps
import BlockWatch.Proofs.Store.Trees

/-!
# Copies of trees

A file or a directory of a snapshot that was copied into a home lies there as it lies in the snapshot,
and nothing else is another one. This holds for directories of any shape, in whatever order their
entries are listed. The ground is what stays in place: it leads to the snapshot and to the home.
-/

namespace BlockWatch

open Op (Gives gives_bind gives_adapt gives_pure)
open Store (AgreeOutside Twin)

variable {σ : Type} {machine : Machine σ} {store : σ → Store} {s s' : σ}

/-! ## Machines that look -/

/-- A machine that knows what is there in its store, and lists what a directory holds, each name once
and in any order. -/
structure Machine.Surveys (machine : Machine σ) (store : σ → Store) : Prop where
  exists_ : ∀ path s there, (store s).isThere path = .ok there →
    ((machine.exists_ path).run.run s).1 = .ok there
  list : ∀ path s entries s', Gives (machine.list path) s entries s' →
    (entries.map (·.name)).Nodup ∧ ∃ found, (store s).list path = .ok found ∧
      ∀ listed, listed ∈ entries ↔ ∃ entry, Entry.find? listed.name found = some entry ∧
        entry.isDirectory = listed.isDirectory

theorem Machine.Surveys.isThere (hsurveys : machine.Surveys store) {path : Path}
    {there found : Bool} (h : Gives (liftM (machine.isThere path) : Bringup σ Bool) s there s')
    (hfound : (store s).isThere path = .ok found) : there = found := by
  have hanswer := congrArg Prod.fst (machine.run_isThere path s)
  rw [Bringup.gives_lift h, hsurveys.exists_ path s found hfound] at hanswer
  exact hanswer

/-! ## Separate places -/

/-- Neither of two locations lies in the other one. -/
def Separate (p q : List String) : Prop := ¬p <+: q ∧ ¬q <+: p

instance (p q : List String) : Decidable (Separate p q) := inferInstanceAs (Decidable (_ ∧ _))

/-- What lies in one of two separate places does not lie in the other one. -/
theorem Separate.not_both {p q : List String} (h : Separate p q) {inner : List String}
    (hp : p <+: inner) (hq : q <+: inner) : False :=
  (List.prefix_or_prefix_of_prefix hp hq).elim h.1 h.2

theorem Separate.not_prefix {p q : List String} (h : Separate p q) {inner rest : List String}
    (hq : q <+: inner) : ¬p ++ rest <+: inner :=
  fun hp ↦ h.not_both ((List.prefix_append p rest).trans hp) hq

theorem not_prefix_parent (location names : List String) (name : String) :
    ¬location ++ (names ++ [name]) <+: location ++ names := by
  rw [← List.append_assoc]
  exact not_prefix_self _ name

theorem not_prefix_sibling {name other : String} (h : name ≠ other)
    (location names rest : List String) :
    ¬location ++ (names ++ [name]) <+: location ++ (names ++ [other]) ++ rest := by
  rw [List.append_assoc location, List.prefix_append_right_inj, List.append_assoc,
    List.prefix_append_right_inj, List.singleton_append, List.cons_prefix_cons]
  exact fun hname ↦ h hname.1

theorem Separate.symm {p q : List String} (h : Separate p q) : Separate q p := ⟨h.2, h.1⟩

theorem ne_of_nodup_names {entry : Listed} {rest : List Listed}
    (h : ((entry :: rest).map (·.name)).Nodup) :
    (∀ later ∈ rest, entry.name ≠ later.name) ∧ (rest.map (·.name)).Nodup := by
  obtain ⟨hunique, hdistinct⟩ := List.nodup_cons.mp h
  exact ⟨fun later hmem heq ↦ hunique (List.mem_map.mpr ⟨later, hmem, heq.symm⟩), hdistinct⟩

/-- A store on some ground in which a snapshot lies. -/
structure Bears (ground : Store) (origin : List String) (t : Store) : Prop where
  here : t.here = ground.here
  ground : ground.root.Extends t.root
  tree : t.IsTree origin

section Home

variable {ground t u : Store} {source home : Path} {origin location front names : List String}
  {last : String}

/-- What is neither part of the ground nor of the snapshot may change. -/
theorem Bears.of_agreeOutside {changed : List String → Prop} (h : Bears ground origin t)
    (hagree : AgreeOutside changed t u) (hground : ∀ q, changed q → ground.root.get? q = none)
    (horigin : ∀ q, changed q → ¬origin <+: q) : Bears ground origin u where
  here := hagree.here.trans h.here
  ground := hagree.extends_root h.ground hground
  tree := h.tree.of_agreeOutside hagree fun q hq hchanged ↦ horigin q hchanged hq

theorem Bears.of_below (h : Bears ground origin t) (hapart : Separate location origin)
    (hvacant : ground.root.get? (location ++ names) = none)
    (hagree : AgreeOutside (location ++ names <+: ·) t u) : Bears ground origin u := by
  apply h.of_agreeOutside hagree
  · rintro q ⟨rest, rfl⟩
    exact Entry.get?_append_eq_none hvacant rest
  · exact fun q hq horigin ↦ hapart.not_prefix horigin hq

/-- What lies at some names in a snapshot lies at the same names in a home, and nothing else is
another one. -/
structure Copied (origin location names : List String) (t u : Store) : Prop where
  agree : AgreeOutside (location ++ names <+: ·) t u
  twin : Twin t (origin ++ names) u (location ++ names)

/-- A store that is ready for a copy to a name of a directory in a home: the directory is there, and
the name is vacant, in the ground as well. -/
structure Awaits (ground : Store) (origin location front : List String) (last : String)
    (t : Store) : Prop where
  bears : Bears ground origin t
  vacant : ground.root.get? (location ++ (front ++ [last])) = none
  parent : t.seenAt (location ++ front) = some (.directory [])
  fresh : t.seenAt (location ++ (front ++ [last])) = none

theorem Awaits.isSimple (h : Awaits ground origin location front last t) (entry : Entry)
    (hentry : t.root.get? (location ++ (front ++ [last])) = some entry) : entry.IsSimple := by
  rw [Store.seenAt_eq_none_iff.mp h.fresh] at hentry
  cases hentry

/-- A copy to another name of the directory leaves it ready. -/
theorem Awaits.after {other : String} (h : Awaits ground origin location front last t)
    (hapart : Separate location origin)
    (hvacant : ground.root.get? (location ++ (front ++ [other])) = none)
    (hagree : AgreeOutside (location ++ (front ++ [other]) <+: ·) t u) (hother : other ≠ last) :
    Awaits ground origin location front last u where
  bears := h.bears.of_below hapart hvacant hagree
  vacant := h.vacant
  parent := (hagree.seenAt _ (not_prefix_parent location front other)).trans h.parent
  fresh := by
    have hkept := hagree.seenAt _ (not_prefix_sibling hother location front [])
    rw [List.append_nil] at hkept
    exact hkept.trans h.fresh

/-- Two directories are the same if what is listed is the same in both and they have no other names. -/
theorem twin_of_listed {entries : List Listed} {p q : List String}
    (htop : u.seenAt q = t.seenAt p)
    (hlisted : ∀ entry ∈ entries, Twin t (p ++ [entry.name]) u (q ++ [entry.name]))
    (hleft : ∀ name, (∀ entry ∈ entries, entry.name ≠ name) → t.seenAt (p ++ [name]) = none)
    (hright : ∀ name, (∀ entry ∈ entries, entry.name ≠ name) → u.seenAt (q ++ [name]) = none) :
    Twin t p u q := by
  apply Store.twin_of_children htop
  intro name
  by_cases hname : ∃ entry ∈ entries, entry.name = name
  · obtain ⟨entry, hentry, rfl⟩ := hname
    exact hlisted entry hentry
  · push Not at hname
    exact Store.twin_of_none (hleft name hname) (hright name hname)

variable (hacts : machine.ActsOn store) (hsurveys : machine.Surveys store)
  (hsource : ground.Reaches source origin) (hhome : ground.Reaches home location)
  (hapart : Separate location origin)

theorem Copied.seenAt_origin (h : Copied origin location names t u)
    (hapart : Separate location origin) (rest : List String) :
    u.seenAt (origin ++ rest) = t.seenAt (origin ++ rest) :=
  h.agree.seenAt _ (hapart.not_prefix (List.prefix_append _ _))

include hacts hsource hhome hapart

/-- A file of the snapshot is copied. -/
theorem copied_of_copyFile (hnames : ∀ name ∈ front ++ [last], ProperName name)
    (hbears : Bears ground origin (store s))
    (hfront : (store s).seenAt (location ++ front) = some (.directory []))
    (hsimple : ∀ entry, (store s).root.get? (location ++ (front ++ [last])) = some entry →
      entry.IsSimple)
    (h : Gives (machine.copyFile (source.below (front ++ [last])) (home.below (front ++ [last])))
      s () s') :
    (∃ contents executable,
      (store s).root.get? (origin ++ (front ++ [last])) = some (.file contents executable)) ∧
        Copied origin location (front ++ [last]) (store s) (store s') := by
  obtain ⟨entries, hentries⟩ := Store.seenAt_eq_directory_iff.mp hfront
  obtain ⟨found, hfound⟩ := hbears.tree.exists_directory
  have hother : location ++ (front ++ [last]) ≠ origin ++ (front ++ [last]) := by
    intro heq
    have hle : location ++ (front ++ [last]) <+: origin ++ (front ++ [last]) := heq ▸ List.prefix_rfl
    exact hapart.not_prefix (List.prefix_append origin _) hle
  obtain ⟨hfile, hagree, htwin⟩ := Store.twin_of_copyFile
    (Store.reaches_of_extends hhome hbears.ground hbears.here) hnames hentries hsimple
    (Store.reaches_of_extends hsource hbears.ground hbears.here) hnames (by simp) hfound
    hbears.tree.simple.plain hother (hacts.copyFile _ _ _ _ h)
  exact ⟨hfile, hagree, htwin⟩

/-- An entry of a directory is copied, a file by the machine and a directory as given. -/
theorem copied_of_copyEntry {copyDirectory : Path → Path → Bringup σ Unit} {entry : Listed}
    (hnames : ∀ name ∈ names ++ [entry.name], ProperName name)
    (hawaits : Awaits ground origin location names entry.name (store s))
    (hdirectory : ∀ s s', Awaits ground origin location names entry.name (store s) →
      Gives (copyDirectory (source.below (names ++ [entry.name]))
        (home.below (names ++ [entry.name]))) s () s' →
          Copied origin location (names ++ [entry.name]) (store s) (store s'))
    (h : Gives (Seeder.copyEntry machine copyDirectory (source.below names) (home.below names)
      entry) s () s') : Copied origin location (names ++ [entry.name]) (store s) (store s') := by
  rw [Seeder.copyEntry, ← Store.below_concat, ← Store.below_concat] at h
  split_ifs at h
  · exact hdirectory s s' hawaits h
  · exact (copied_of_copyFile hacts hsource hhome hapart hnames hawaits.bears hawaits.parent
      hawaits.isSimple (gives_adapt h)).2

/-- The entries of a directory are copied one by one. -/
theorem copied_of_copyEntries {copyDirectory : Path → Path → Bringup σ Unit}
    {entries : List Listed} (hnames : ∀ name ∈ names, ProperName name)
    (hproper : ∀ entry ∈ entries, ProperName entry.name)
    (hnodup : (entries.map (·.name)).Nodup)
    (hawaits : ∀ entry ∈ entries, Awaits ground origin location names entry.name (store s))
    (hdirectory : ∀ name s s', ProperName name → Awaits ground origin location names name (store s) →
      Gives (copyDirectory (source.below (names ++ [name])) (home.below (names ++ [name]))) s () s' →
        Copied origin location (names ++ [name]) (store s) (store s'))
    (h : Gives (Seeder.copyEntries machine copyDirectory (source.below names) (home.below names)
      entries) s () s') :
    AgreeOutside (fun q ↦ ∃ entry ∈ entries, location ++ (names ++ [entry.name]) <+: q)
        (store s) (store s') ∧
      ∀ entry ∈ entries, Twin (store s) (origin ++ (names ++ [entry.name])) (store s')
        (location ++ (names ++ [entry.name])) := by
  induction entries generalizing s with
  | nil =>
    obtain ⟨-, rfl⟩ := gives_pure h
    exact ⟨.refl _ _, fun _ hentry ↦ absurd hentry List.not_mem_nil⟩
  | cons entry rest ih =>
    obtain ⟨hentry, hlater⟩ := List.forall_mem_cons.mp hproper
    obtain ⟨hready, hreadyLater⟩ := List.forall_mem_cons.mp hawaits
    obtain ⟨hother, hdistinct⟩ := ne_of_nodup_names hnodup
    rw [Seeder.copyEntries_cons] at h
    obtain ⟨_, s₁, hcopy, hrest⟩ := gives_bind h
    have hfirst := copied_of_copyEntry hacts hsource hhome hapart
      (List.forall_mem_append.mpr ⟨hnames, List.forall_mem_singleton.mpr hentry⟩) hready
      (fun t t' ↦ hdirectory _ t t' hentry) hcopy
    have hready₁ : ∀ later ∈ rest, Awaits ground origin location names later.name (store s₁) :=
      fun later hmem ↦ (hreadyLater later hmem).after hapart hready.vacant hfirst.agree
        (hother later hmem)
    obtain ⟨hagree, htwins⟩ := ih hlater hdistinct hready₁ hrest
    refine ⟨?_, List.forall_mem_cons.mpr ⟨fun more ↦ ?_, fun later hmem more ↦ ?_⟩⟩
    · exact (hfirst.agree.mono fun q hq ↦ ⟨entry, List.mem_cons_self, hq⟩).trans
        (hagree.mono fun q ⟨later, hmem, hq⟩ ↦ ⟨later, List.mem_cons_of_mem _ hmem, hq⟩)
    · rw [hagree.seenAt _ fun ⟨later, hmem, hq⟩ ↦
        not_prefix_sibling (hother later hmem).symm location names more hq]
      exact hfirst.twin more
    · rw [htwins later hmem more, List.append_assoc]
      exact hfirst.seenAt_origin hapart _

omit hsource in
/-- A directory that was made is ready for copies to all names. -/
theorem awaits_of_makeDirectories (hnames : ∀ name ∈ front ++ [last], ProperName name)
    (hawaits : Awaits ground origin location front last (store s))
    (h : Gives (machine.makeDirectories (home.below (front ++ [last]))) s () s') :
    AgreeOutside (location ++ (front ++ [last]) <+: ·) (store s) (store s') ∧
      Bears ground origin (store s') ∧
      ∀ name, Awaits ground origin location (front ++ [last]) name (store s') := by
  have hfresh := hawaits.fresh
  rw [← List.append_assoc] at hfresh
  obtain ⟨inner, hinner, hlast⟩ := Store.exists_vacant hawaits.parent hfresh
  obtain ⟨hmade, htarget, hempty⟩ := Store.fresh_of_makeDirectories
    (Store.reaches_of_extends hhome hawaits.bears.ground hawaits.bears.here) hnames hinner hlast
    (hacts.makeDirectories _ _ _ h)
  have hbears := hawaits.bears.of_below hapart hawaits.vacant hmade
  refine ⟨hmade, hbears, fun name ↦ ⟨hbears, ?_, htarget, ?_⟩⟩
  · rw [← List.append_assoc]
    exact Entry.get?_append_eq_none hawaits.vacant [name]
  · rw [← List.append_assoc]
    exact hempty name

include hsurveys

omit hhome hapart in
/-- What is listed are the names that a directory of the snapshot has. -/
theorem seenAt_of_list {entries : List Listed} (hnames : ∀ name ∈ names, ProperName name)
    (hne : names ≠ []) (hbears : Bears ground origin (store s))
    (h : Gives (machine.list (source.below names)) s entries s') :
    store s' = store s ∧ (∀ entry ∈ entries, ProperName entry.name) ∧
      (entries.map (·.name)).Nodup ∧
      (store s).seenAt (origin ++ names) = some (.directory []) ∧
      ∀ name, (∀ entry ∈ entries, entry.name ≠ name) →
        (store s).seenAt (origin ++ names ++ [name]) = none := by
  obtain ⟨hstore, hproper⟩ := hacts.list _ _ _ _ h
  obtain ⟨hnodup, found, hfound, hlisted⟩ := hsurveys.list _ _ _ _ h
  obtain ⟨outer, houter⟩ := hbears.tree.exists_directory
  have hdirectory := Store.directory_of_list
    (Store.reaches_of_extends hsource hbears.ground hbears.here) hnames hne houter
    hbears.tree.simple.plain hfound
  refine ⟨hstore, hproper, hnodup, Store.seenAt_eq_directory_iff.mpr ⟨found, hdirectory⟩,
    fun name hname ↦ ?_⟩
  rw [Store.seenAt_eq_none_iff, Entry.get?_append_singleton hdirectory]
  by_contra hfind
  obtain ⟨entry, hentry⟩ := Option.ne_none_iff_exists'.mp hfind
  exact hname ⟨name, entry.isDirectory⟩ ((hlisted _).mpr ⟨entry, hentry, rfl⟩) rfl

/-- A directory is copied with all that is in it to where nothing is yet. -/
theorem copied_of_copyTree {depth : ℕ} (hnames : ∀ name ∈ front ++ [last], ProperName name)
    (hawaits : Awaits ground origin location front last (store s))
    (h : Gives (Seeder.copyTree machine depth (source.below (front ++ [last]))
      (home.below (front ++ [last]))) s () s') :
    Copied origin location (front ++ [last]) (store s) (store s') := by
  induction depth generalizing front last s s' with
  | zero => exact absurd h Bringup.not_gives_fail
  | succ depth ih =>
    obtain ⟨_, s₁, hmake, htail⟩ := gives_bind h
    obtain ⟨entries, s₂, hlist, hcopy⟩ := gives_bind htail
    -- the new directory is empty
    obtain ⟨hmade, hbears₁, hready⟩ := awaits_of_makeDirectories hacts hhome hapart hnames hawaits
      (gives_adapt hmake)
    obtain ⟨hstore, hproper, hnodup, hdirectory, hunlisted⟩ :=
      seenAt_of_list hacts hsurveys hsource hnames (by simp) hbears₁ (gives_adapt hlist)
    rw [← hstore] at hmade hready hdirectory hunlisted
    have hkept (rest : List String) :
        (store s₂).seenAt (origin ++ rest) = (store s).seenAt (origin ++ rest) :=
      hmade.seenAt _ (hapart.not_prefix (List.prefix_append _ _))
    -- what is listed is copied into it
    obtain ⟨hagree, htwins⟩ := copied_of_copyEntries hacts hsource hhome hapart hnames hproper
      hnodup (fun entry _ ↦ hready entry.name) (fun name t t' hname hreadyT hgives ↦
        ih (List.forall_mem_append.mpr ⟨hnames, List.forall_mem_singleton.mpr hname⟩) hreadyT
          hgives) hcopy
    constructor
    · apply hmade.trans (hagree.mono _)
      rintro q ⟨entry, -, hq⟩
      rw [← List.append_assoc] at hq
      exact (List.prefix_append _ _).trans hq
    · have hcopied : Twin (store s₂) (origin ++ (front ++ [last])) (store s')
          (location ++ (front ++ [last])) := by
        refine twin_of_listed ?_ (fun entry hentry ↦ ?_) hunlisted fun name hname ↦ ?_
        · rw [hagree.seenAt, (hready last).parent, hdirectory]
          rintro ⟨entry, -, hq⟩
          exact not_prefix_parent location (front ++ [last]) entry.name hq
        · rw [List.append_assoc origin, List.append_assoc location]
          exact htwins entry hentry
        · rw [List.append_assoc, hagree.seenAt, (hready name).fresh]
          rintro ⟨entry, hentry, hq⟩
          exact not_prefix_sibling (hname entry hentry) location (front ++ [last]) []
            (by simpa using hq)
      intro rest
      rw [hcopied rest, List.append_assoc origin, hkept]

omit hsource hhome hapart in
/-- What was in the way of a copy is removed. -/
theorem gone_of_clearData (hreaches : (store s).Reaches home location)
    (hhome : (store s).IsTree location) (h : Gives (Seeder.clearData machine home) s () s') :
    AgreeOutside (location ++ [dataDirectory] <+: ·) (store s) (store s') ∧
      (store s').seenAt (location ++ [dataDirectory]) = none := by
  have hnames : ∀ name ∈ [] ++ [dataDirectory], ProperName name :=
    List.forall_mem_singleton.mpr properName_dataDirectory
  obtain ⟨entries, hentries⟩ := hhome.exists_directory
  rw [← List.append_nil location] at hentries
  have hthere := Store.isThere_last hreaches hnames hentries hhome.simple.plain
  obtain ⟨stale, s₁, hlook, hrest⟩ := gives_bind h
  have hstore := gives_isThere hacts hlook
  have hstale := hsurveys.isThere hlook hthere
  split_ifs at hrest with hif
  · have hremoved := hacts.removeTree _ _ _ (gives_adapt hrest)
    rw [hstore] at hremoved
    exact Store.gone_of_removeTree hreaches hnames hentries hhome.simple.plain hremoved
  · obtain ⟨-, rfl⟩ := gives_pure hrest
    rw [hstale, Option.not_isSome_iff_eq_none] at hif
    rw [hstore]
    exact ⟨.refl _ _, hif⟩

/-- The data of a snapshot is copied if there is any. -/
theorem copied_of_copyData (hawaits : Awaits ground origin location [] dataDirectory (store s))
    (h : Gives (Seeder.copyData machine source home) s () s') :
    Copied origin location [dataDirectory] (store s) (store s') := by
  have hnames : ∀ name ∈ [] ++ [dataDirectory], ProperName name :=
    List.forall_mem_singleton.mpr properName_dataDirectory
  obtain ⟨entries, hentries⟩ := hawaits.bears.tree.exists_directory
  rw [← List.append_nil origin] at hentries
  have hthere := Store.isThere_last
    (Store.reaches_of_extends hsource hawaits.bears.ground hawaits.bears.here) hnames hentries
    hawaits.bears.tree.simple.plain
  obtain ⟨there, s₁, hlook, hcopy⟩ := gives_bind h
  have hstore := gives_isThere hacts hlook
  have hanswer := hsurveys.isThere hlook hthere
  split_ifs at hcopy with hif
  · rw [← hstore] at hawaits ⊢
    exact copied_of_copyTree hacts hsurveys hsource hhome hapart hnames hawaits hcopy
  · obtain ⟨-, rfl⟩ := gives_pure hcopy
    rw [hstore]
    rw [hanswer, Option.not_isSome_iff_eq_none] at hif
    exact ⟨.refl _ _, Store.twin_of_none hif hawaits.fresh⟩

end Home

end BlockWatch
