import BlockWatch.Proofs.Cluster.Snapshots

/-!
# Copies that are halted

An operation that fails may have done a part of its work. As long as it keeps to the place that its
path leads to, a copy into a home that fails on the way has changed nothing but what it would have
replaced there. A home where there is no directory is not even begun.
-/

namespace BlockWatch

open Op (Gives Fails gives_bind gives_adapt fails_bind fails_adapt fails_throw not_fails_pure
  not_fails_lift)
open Store (AgreeOutside)

variable {σ : Type} {machine : Machine σ} {store : σ → Store} {s s' : σ}

/-! ## Operations that fail in place -/

def Place.location : Place → List String
  | occupied location => location
  | vacant parent name => parent ++ [name]

/-- What lies at and below the place that a path leads to. -/
def Store.Aims (t : Store) (follow : Bool) (path : Path) (q : List String) : Prop :=
  ∃ place, t.locate follow path = .ok place ∧ place.location <+: q

/-- A machine on which an operation that fails has changed nothing but what its path leads to, and
which sees nothing that is not there. If directories on the way are missing, no such thing is said of
making them. -/
structure Machine.FailsInPlace (machine : Machine σ) (store : σ → Store) : Prop where
  exists_ : ∀ path s, ((machine.exists_ path).run.run s).1 = .ok true →
    (store s).isThere path = .ok true
  makeDirectories : ∀ path s cause s', Fails (machine.makeDirectories path) s cause s' →
    ∀ place, (store s).locate false path = .ok place →
      AgreeOutside (place.location <+: ·) (store s) (store s')
  removeTree : ∀ path s cause s', Fails (machine.removeTree path) s cause s' →
    AgreeOutside ((store s).Aims false path) (store s) (store s')
  copyFile : ∀ source target s cause s', Fails (machine.copyFile source target) s cause s' →
    AgreeOutside ((store s).Aims true target) (store s) (store s')
  list : ∀ path s cause s', Fails (machine.list path) s cause s' → store s' = store s

namespace Store

variable {t u : Store} {path : Path} {base front names : List String} {last : String}
  {entries : List (String × Entry)}

theorem AgreeOutside.of_aims {follow : Bool} {place : Place}
    (h : AgreeOutside (t.Aims follow path) t u) (hlocate : t.locate follow path = .ok place) :
    AgreeOutside (place.location <+: ·) t u := by
  apply h.mono
  rintro q ⟨found, hfound, hq⟩
  rw [hlocate] at hfound
  rwa [Except.ok.inj hfound]

/-- A path below a directory leads to the name there, unless that is a link. -/
theorem exists_locate_last (h : t.Reaches path base)
    (hnames : ∀ name ∈ front ++ [last], ProperName name)
    (hfront : t.root.get? (base ++ front) = some (.directory entries))
    (hlink : ∀ target, t.root.get? (base ++ (front ++ [last])) ≠ some (.link target))
    (follow : Bool) : ∃ place, t.locate follow (path.below (front ++ [last])) = .ok place ∧
      place.location = base ++ (front ++ [last]) := by
  cases hentry : t.root.get? (base ++ (front ++ [last])) with
  | none =>
    have hlast : Entry.find? last entries = none := by
      rw [← Entry.get?_append_singleton hfront, List.append_assoc, hentry]
    exact ⟨_, locate_vacant h hnames hfront hlast follow, List.append_assoc _ _ _⟩
  | some entry =>
    obtain ⟨jump, hlocate⟩ := exists_locate_below h hnames (by simp) follow
    have hplain : ∀ target, entry ≠ .link target := fun target heq ↦
      hlink target (hentry.trans (congrArg some heq))
    exact ⟨_, hlocate.trans (walkIn_of_get? hentry hplain hnames), rfl⟩

end Store

/-! ## Copies that fail -/

section Home

variable {ground : Store} {source home : Path} {origin location front names : List String}
  {last : String}

variable (hacts : machine.ActsOn store) (hsurveys : machine.Surveys store)
  (hinPlace : machine.FailsInPlace store)
  (hsource : ground.Reaches source origin) (hhome : ground.Reaches home location)
  (hapart : Separate location origin)

include hinPlace hhome

theorem agree_of_copyFile_fails {inner : Path} {cause : IoError}
    (hnames : ∀ name ∈ front ++ [last], ProperName name)
    (hbears : Bears ground origin (store s))
    (hfront : (store s).seenAt (location ++ front) = some (.directory []))
    (hsimple : ∀ entry, (store s).root.get? (location ++ (front ++ [last])) = some entry →
      entry.IsSimple)
    (h : Fails (machine.copyFile inner (home.below (front ++ [last]))) s cause s') :
    AgreeOutside (location ++ (front ++ [last]) <+: ·) (store s) (store s') := by
  obtain ⟨entries, hentries⟩ := Store.seenAt_eq_directory_iff.mp hfront
  obtain ⟨place, hlocate, hplace⟩ := Store.exists_locate_last
    (Store.reaches_of_extends hhome hbears.ground hbears.here) hnames hentries
    (fun target hlink ↦ hsimple _ hlink) true
  exact hplace ▸ (hinPlace.copyFile _ _ _ _ _ h).of_aims hlocate

theorem agree_of_copyEntry_fails {copyDirectory : Path → Path → Bringup σ Unit} {entry : Listed}
    {stop : Stop BringupError} (hnames : ∀ name ∈ names ++ [entry.name], ProperName name)
    (hawaits : Awaits ground origin location names entry.name (store s))
    (hdirectory : Fails (copyDirectory (source.below (names ++ [entry.name]))
      (home.below (names ++ [entry.name]))) s stop s' →
        AgreeOutside (location ++ (names ++ [entry.name]) <+: ·) (store s) (store s'))
    (h : Fails (Seeder.copyEntry machine copyDirectory (source.below names) (home.below names)
      entry) s stop s') :
    AgreeOutside (location ++ (names ++ [entry.name]) <+: ·) (store s) (store s') := by
  rw [Seeder.copyEntry, ← Store.below_concat, ← Store.below_concat] at h
  split_ifs at h
  · exact hdirectory h
  · obtain ⟨cause, hcopy, -⟩ := fails_adapt h
    exact agree_of_copyFile_fails hinPlace hhome hnames hawaits.bears hawaits.parent
      hawaits.isSimple hcopy

include hacts hsource hapart

theorem agree_of_copyEntries_fails {copyDirectory : Path → Path → Bringup σ Unit}
    {entries : List Listed} {stop : Stop BringupError}
    (hnames : ∀ name ∈ names, ProperName name)
    (hproper : ∀ entry ∈ entries, ProperName entry.name)
    (hnodup : (entries.map (·.name)).Nodup)
    (hawaits : ∀ entry ∈ entries, Awaits ground origin location names entry.name (store s))
    (hdirectory : ∀ name s s', ProperName name → Awaits ground origin location names name (store s) →
      Gives (copyDirectory (source.below (names ++ [name])) (home.below (names ++ [name]))) s () s' →
        Copied origin location (names ++ [name]) (store s) (store s'))
    (hfails : ∀ name s s', ProperName name → Awaits ground origin location names name (store s) →
      Fails (copyDirectory (source.below (names ++ [name])) (home.below (names ++ [name]))) s stop s' →
        AgreeOutside (location ++ (names ++ [name]) <+: ·) (store s) (store s'))
    (h : Fails (Seeder.copyEntries machine copyDirectory (source.below names) (home.below names)
      entries) s stop s') :
    AgreeOutside (fun q ↦ ∃ entry ∈ entries, location ++ (names ++ [entry.name]) <+: q)
      (store s) (store s') := by
  induction entries generalizing s with
  | nil => exact absurd h not_fails_pure
  | cons entry rest ih =>
    obtain ⟨hentry, hlater⟩ := List.forall_mem_cons.mp hproper
    obtain ⟨hready, hreadyLater⟩ := List.forall_mem_cons.mp hawaits
    obtain ⟨hother, hdistinct⟩ := ne_of_nodup_names hnodup
    have hmore : ∀ name ∈ names ++ [entry.name], ProperName name :=
      List.forall_mem_append.mpr ⟨hnames, List.forall_mem_singleton.mpr hentry⟩
    rw [Seeder.copyEntries_cons] at h
    rcases fails_bind h with hfirst | ⟨_, s₁, hfirst, hrest⟩
    · exact (agree_of_copyEntry_fails hinPlace hhome hmore hready (hfails _ s s' hentry hready)
        hfirst).mono fun q hq ↦ ⟨entry, List.mem_cons_self, hq⟩
    · have hcopied := copied_of_copyEntry hacts hsource hhome hapart hmore hready
        (fun t t' ↦ hdirectory _ t t' hentry) hfirst
      have hready₁ : ∀ later ∈ rest, Awaits ground origin location names later.name (store s₁) :=
        fun later hmem ↦ (hreadyLater later hmem).after hapart hready.vacant hcopied.agree
          (hother later hmem)
      exact (hcopied.agree.mono fun q hq ↦ ⟨entry, List.mem_cons_self, hq⟩).trans
        ((ih hlater hdistinct hready₁ hrest).mono
          fun q ⟨later, hmem, hq⟩ ↦ ⟨later, List.mem_cons_of_mem _ hmem, hq⟩)

include hsurveys

/-- A copy of a directory that fails has changed nothing outside of the new directory. -/
theorem agree_of_copyTree_fails {depth : ℕ} {stop : Stop BringupError}
    (hnames : ∀ name ∈ front ++ [last], ProperName name)
    (hawaits : Awaits ground origin location front last (store s))
    (h : Fails (Seeder.copyTree machine depth (source.below (front ++ [last]))
      (home.below (front ++ [last]))) s stop s') :
    AgreeOutside (location ++ (front ++ [last]) <+: ·) (store s) (store s') := by
  induction depth generalizing front last s s' with
  | zero =>
    obtain ⟨-, rfl⟩ := fails_throw h
    exact .refl _ _
  | succ depth ih =>
    rcases fails_bind h with hmake | ⟨_, s₁, hmake, htail⟩
    · obtain ⟨cause, hmakeFails, -⟩ := fails_adapt hmake
      obtain ⟨entries, hentries⟩ := Store.seenAt_eq_directory_iff.mp hawaits.parent
      obtain ⟨place, hlocate, hplace⟩ := Store.exists_locate_last
        (Store.reaches_of_extends hhome hawaits.bears.ground hawaits.bears.here) hnames hentries
        (fun target hlink ↦ hawaits.isSimple _ hlink) false
      exact hplace ▸ hinPlace.makeDirectories _ _ _ _ hmakeFails place hlocate
    · obtain ⟨hmade, hbears₁, hready⟩ := awaits_of_makeDirectories hacts hhome hapart hnames hawaits
        (gives_adapt hmake)
      rcases fails_bind htail with hlist | ⟨entries, s₂, hlist, hcopy⟩
      · obtain ⟨cause, hlistFails, -⟩ := fails_adapt hlist
        rwa [hinPlace.list _ _ _ _ hlistFails]
      · obtain ⟨hstore, hproper, hnodup, -⟩ := seenAt_of_list hacts hsurveys hsource hnames (by simp)
          hbears₁ (gives_adapt hlist)
        rw [← hstore] at hmade hready
        have hinner (name : String) (hname : ProperName name) :
            ∀ other ∈ front ++ [last] ++ [name], ProperName other :=
          List.forall_mem_append.mpr ⟨hnames, List.forall_mem_singleton.mpr hname⟩
        apply hmade.trans
        refine (agree_of_copyEntries_fails hacts hinPlace hsource hhome hapart hnames hproper hnodup
          (fun entry _ ↦ hready entry.name) (fun name t t' hname hreadyT hgives ↦
            copied_of_copyTree hacts hsurveys hsource hhome hapart (hinner name hname) hreadyT hgives)
          (fun name t t' hname hreadyT hfails ↦ ih (hinner name hname) hreadyT hfails) hcopy).mono ?_
        rintro q ⟨entry, -, hq⟩
        rw [← List.append_assoc] at hq
        exact (List.prefix_append _ _).trans hq

end Home

section Halted

variable {ground : Store} {source : Path} {origin : List String} {home : Spot}

variable (hacts : machine.ActsOn store) (hsurveys : machine.Surveys store)
  (hinPlace : machine.FailsInPlace store) (hsource : ground.Reaches source origin)

include hacts hinPlace in
theorem agree_of_clearData_fails {stop : Stop BringupError} (hstands : Stands ground origin home)
    (hbears : Bears ground origin (store s)) (hhome : (store s).IsTree home.location)
    (h : Fails (Seeder.clearData machine home.path) s stop s') :
    AgreeOutside (home.location ++ [dataDirectory] <+: ·) (store s) (store s') := by
  have hnames : ∀ name ∈ [] ++ [dataDirectory], ProperName name :=
    List.forall_mem_singleton.mpr properName_dataDirectory
  obtain ⟨entries, hentries⟩ := hhome.exists_directory
  rw [← List.append_nil home.location] at hentries
  obtain ⟨place, hlocate, hplace⟩ := Store.exists_locate_last
    (Store.reaches_of_extends hstands.reaches hbears.ground hbears.here) hnames hentries
    (hhome.simple.plain [dataDirectory]) false
  rcases fails_bind h with hlook | ⟨there, s₁, hlook, hremove⟩
  · exact absurd hlook not_fails_lift
  · have hstore := gives_isThere hacts hlook
    split_ifs at hremove
    · obtain ⟨cause, hremoveFails, -⟩ := fails_adapt hremove
      have hagree := hinPlace.removeTree _ _ _ _ hremoveFails
      rw [hstore] at hagree
      exact hplace ▸ hagree.of_aims hlocate
    · exact absurd hremove not_fails_pure

include hacts hsurveys hinPlace hsource

theorem agree_of_copyData_fails {stop : Stop BringupError} (hstands : Stands ground origin home)
    (hawaits : Awaits ground origin home.location [] dataDirectory (store s))
    (h : Fails (Seeder.copyData machine source home.path) s stop s') :
    AgreeOutside (home.location ++ [dataDirectory] <+: ·) (store s) (store s') := by
  rcases fails_bind h with hlook | ⟨there, s₁, hlook, htree⟩
  · exact absurd hlook not_fails_lift
  · have hstore := gives_isThere hacts hlook
    split_ifs at htree
    · rw [← hstore] at hawaits ⊢
      have hnames : ∀ name ∈ [] ++ [dataDirectory], ProperName name :=
        List.forall_mem_singleton.mpr properName_dataDirectory
      exact agree_of_copyTree_fails hacts hsurveys hinPlace hsource hstands.reaches hstands.apart
        hnames hawaits htree
    · exact absurd htree not_fails_pure

/-- A copy into a home that fails has changed nothing but what it would have replaced. -/
theorem agree_of_copyInto_fails {stop : Stop BringupError} (hstands : Stands ground origin home)
    (hbears : Bears ground origin (store s)) (hhome : (store s).IsTree home.location)
    (h : Fails (Seeder.copyInto machine source home.path) s stop s') :
    AgreeOutside (Replaced home.location) (store s) (store s') := by
  rw [Seeder.copyInto_eq] at h
  rcases fails_bind h with hcopy | ⟨_, s₁, hcopy, htail⟩
  · obtain ⟨cause, hcopyFails, -⟩ := fails_adapt hcopy
    have hdirectory := hhome.directory
    rw [← List.append_nil home.location] at hdirectory
    have hname : ∀ name ∈ [] ++ [genesisFile], ProperName name :=
      List.forall_mem_singleton.mpr properName_genesisFile
    have hagree := agree_of_copyFile_fails hinPlace hstands.reaches hname hbears hdirectory
      (fun _ hentry ↦ hhome.simple.get? _ hentry) hcopyFails
    exact hagree.mono fun _ ↦ .inl
  · obtain ⟨-, hcopied, hbears₁, hhome₁⟩ :=
      copied_genesis hacts hsource hstands hbears hhome (gives_adapt hcopy)
    apply (hcopied.agree.mono fun _ ↦ .inl).trans
    rcases fails_bind htail with hclear | ⟨_, s₂, hclear, hdata⟩
    · exact (agree_of_clearData_fails hacts hinPlace hstands hbears₁ hhome₁ hclear).mono
        fun _ ↦ .inr
    · obtain ⟨hcleared, hawaits⟩ :=
        awaits_of_clearData hacts hsurveys hstands hbears₁ hhome₁ hclear
      have hhalted := agree_of_copyData_fails hacts hsurveys hinPlace hsource hstands hawaits hdata
      exact (hcleared.trans hhalted).mono fun _ ↦ .inr

end Halted

/-! ## Homes that are not there -/

/-- Where there is no directory nothing is changed. -/
theorem agree_of_absent {ground : Store} {source : Path} {origin : List String} {home : Spot}
    {stop : Stop BringupError} (hacts : machine.ActsOn store)
    (hinPlace : machine.FailsInPlace store) (hbears : Bears ground origin (store s))
    (hleads : ground.LeadsTo (store s) home.path home.location)
    (hnone : (store s).seenAt home.location ≠ some (.directory []))
    (h : Fails (Seeder.copyInto machine source home.path) s stop s') :
    AgreeOutside (fun _ ↦ False) (store s) (store s') := by
  obtain ⟨cause, hlocate⟩ := Store.exists_locate_error hleads hnone hbears.ground hbears.here
    properName_genesisFile true
  rw [Seeder.copyInto_eq] at h
  rcases fails_bind h with hcopy | ⟨_, t, hcopy, -⟩
  · obtain ⟨_, hcopyFails, -⟩ := fails_adapt hcopy
    apply (hinPlace.copyFile _ _ _ _ _ hcopyFails).mono
    rintro q ⟨place, hplace, -⟩
    rw [hlocate] at hplace
    cases hplace
  · exact absurd (hacts.copyFile _ _ _ _ (gives_adapt hcopy)) (Store.copyFile_ne_ok hlocate)

end BlockWatch
