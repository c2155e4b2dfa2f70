import BlockWatch.Proofs.Cluster.Halted
import BlockWatch.Proofs.Cluster.Populating

/-!
# Seedings that fail

Seeding stops at the first home in which a step fails. The homes before it are seeded, those after it
are as they were, and nothing has been asked for them. A snapshot without a genesis file is refused
before anything else is done. Copies of a snapshot need paths that do not lead through what is replaced:
a snapshot that is reached through the data of a home is lost from sight when the next home is begun,
and by then the first one has lost its data and received none.
-/

namespace BlockWatch

open Op (Gives Fails gives_bind fails_bind not_fails_lift run_bind)
open SeedStep (perform performAll Serves)
open Bringup (Takes takes_perform)
open Store (AgreeOutside Twin)

namespace Seeder

/-- How a seeding stopped at a home. It depends on the dataset which steps serve a home, what it is for
one to be seeded and what may be changed in one. -/
structure StoppedAt {σ : Type} (machine : Machine σ) (store : σ → Store)
    (serves : Spot → SeedStep → Prop) (seeded : Spot → Prop) (changes : Spot → List String → Prop)
    (before : List Spot) (home : Spot) (after : List Spot) (s : σ) (stop : Stop BringupError)
    (s' : σ) : Prop where
  seeded : ∀ other ∈ before, seeded other
  untouched : ∀ other ∈ after, Twin (store s) other.location (store s') other.location
  agree : AgreeOutside (fun q ↦ ∃ other ∈ before ++ [home], changes other q) (store s) (store s')
  /-- No step is for a home after the one at which seeding stopped, and all succeed but the last one,
  whose error is that of the seeding. -/
  steps : ∃ steps last s₁,
    (∀ step ∈ steps, ∃ other ∈ before ++ [home], serves other step) ∧ serves home last ∧
      Gives (performAll machine steps) s () s₁ ∧ Fails (last.perform machine) s₁ stop s'

variable {σ : Type} {machine : Machine σ} {store : σ → Store} {before after homes : List Spot}
  {home : Spot} {s s₁ s' : σ} {stop : Stop BringupError}

theorem agree_concat {changes : Spot → List String → Prop} {t u v : Store}
    (hbefore : AgreeOutside (fun q ↦ ∃ other ∈ before, changes other q) t u)
    (hhome : AgreeOutside (changes home) u v) :
    AgreeOutside (fun q ↦ ∃ other ∈ before ++ [home], changes other q) t v :=
  (hbefore.mono fun _ ⟨other, hother, hq⟩ ↦ ⟨other, List.mem_append_left _ hother, hq⟩).trans
    (hhome.mono fun _ hq ↦ ⟨home, List.mem_concat_self, hq⟩)

/-- Homes that lie apart from all in which something may be changed are untouched. -/
theorem twin_of_agree {changes : Spot → List String → Prop} {t u : Store}
    (hapart : (before ++ home :: after).Pairwise fun home other ↦
      Separate home.location other.location)
    (hchanges : ∀ {spot other : Spot} {q}, Separate spot.location other.location →
      other.location <+: q → ¬changes spot q)
    (hagree : AgreeOutside (fun q ↦ ∃ other ∈ before ++ [home], changes other q) t u) :
    ∀ other ∈ after, Twin t other.location u other.location := by
  intro later hlater rest
  rw [List.append_cons] at hapart
  obtain ⟨-, -, hseparate⟩ := List.pairwise_append.mp hapart
  apply hagree.seenAt
  rintro ⟨other, hother, hchanged⟩
  exact hchanges (hseparate other hother later hlater) (List.prefix_append _ _) hchanged

/-- The steps for the homes that were seeded, and then those for the one in which the last failed. -/
theorem exists_steps {act : Path → Bringup σ Unit} {serves : Spot → SeedStep → Prop}
    (hact : ∀ spot : Spot, Takes machine (serves spot) (act spot.path))
    (hbefore : Gives ((before.map (·.path)).forM act) s () s₁)
    (hhome : Fails (act home.path) s₁ stop s') :
    ∃ steps last s₂, (∀ step ∈ steps, ∃ other ∈ before ++ [home], serves other step) ∧
      serves home last ∧ Gives (performAll machine steps) s () s₂ ∧
        Fails (last.perform machine) s₂ stop s' := by
  obtain ⟨done, hdone, hfirst⟩ := (takes_forM hact before).gives hbefore
  obtain ⟨steps, last, s₂, hsteps, hlast, hgives, hfails⟩ := (hact home).fails hhome
  refine ⟨done ++ steps, last, s₂, List.forall_mem_append.mpr ⟨fun step hstep ↦ ?_,
    fun step hstep ↦ ?_⟩, hlast, SeedStep.performAll_append hfirst hgives, hfails⟩
  · obtain ⟨other, hother, hserves⟩ := hdone step hstep
    exact ⟨other, List.mem_append_left _ hother, hserves⟩
  · exact ⟨home, List.mem_concat_self, hsteps step hstep⟩

theorem StoppedAt.after_look {serves : Spot → SeedStep → Prop} {seeded : Spot → Prop}
    {changes : Spot → List String → Prop} {path : Path} {there : Bool}
    (h : StoppedAt machine store serves seeded changes before home after s₁ stop s')
    (hlook : Gives (liftM (machine.isThere path) : Bringup σ Bool) s there s₁)
    (hstore : store s₁ = store s) (hserves : serves home (.look path)) :
    StoppedAt machine store serves seeded changes before home after s stop s' where
  seeded := h.seeded
  untouched := hstore ▸ h.untouched
  agree := hstore ▸ h.agree
  steps := by
    obtain ⟨steps, last, s₂, hsteps, hlast, hdone, hfails⟩ := h.steps
    have hperform : Gives (perform machine (.look path)) s () s₁ := hlook.bind rfl
    refine ⟨.look path :: steps, last, s₂, List.forall_mem_cons.mpr ⟨⟨home, ?_, hserves⟩, hsteps⟩,
      hlast, hperform.bind hdone, hfails⟩
    exact List.mem_concat_self

/-! ## Generated accounts -/

/-- Accounts were generated in some homes, up to one in which that failed. -/
def PopulatesUpTo (seeder : Seeder) (machine : Machine σ) (store : σ → Store) (accounts : UInt64)
    (homes : List Spot) (s : σ) (stop : Stop BringupError) (s' : σ) : Prop :=
  ∃ before home after, homes = before ++ home :: after ∧
    StoppedAt machine store
      (fun home step ↦ step = .run (seeder.populateCommand accounts home.path))
      (fun home ↦ seeder.Populated machine store accounts home s s')
      (fun home q ↦ home.location <+: q) before home after s stop s'

theorem stoppedAt_of_populate {seeder : Seeder} {accounts : UInt64}
    (hconfines : seeder.Confines machine store accounts homes s)
    (hapart : homes.Pairwise fun home other ↦ Separate home.location other.location)
    (h : Fails (seeder.populate machine accounts (homes.map (·.path))) s stop s') :
    seeder.PopulatesUpTo machine store accounts homes s stop s' := by
  rw [populate_eq_forM] at h
  obtain ⟨before, home, after, s₁, rfl, hbefore, hhome⟩ := exists_home_of_fails h
  have hact (spot : Spot) :
      Takes machine (fun step ↦ step = .run (seeder.populateCommand accounts spot.path))
        (runToEnd machine (seeder.populateCommand accounts spot.path)) :=
    takes_perform (.run _) rfl
  have hsteps := exists_steps hact hbefore hhome
  rw [← populate_eq_forM] at hbefore
  obtain ⟨hpairs, -, hseparate⟩ := List.pairwise_append.mp hapart
  obtain ⟨hagrees, hpopulated⟩ := populated_of_populate
    (hconfines.mono fun other hother ↦ List.mem_append_left _ hother) hpairs hbefore
  have hothers : AgreeOutside (InOthers (before ++ home :: after) home) (store s) (store s₁) := by
    refine hagrees.mono fun q ⟨other, hother, hq⟩ ↦
      ⟨other, List.mem_append_left _ hother, ?_, hq⟩
    rintro rfl
    exact (hseparate other hother other List.mem_cons_self).1 List.prefix_rfl
  have hagree := agree_of_runToEnd hconfines (List.mem_append_right _ List.mem_cons_self) hothers
    hhome
  have hall := agree_concat hagrees hagree
  refine ⟨before, home, after, rfl, fun other hother ↦ ?_, ?_, hall, hsteps⟩
  · exact (hpopulated other hother).between (.refl (fun _ ↦ False) _) (fun _ _ ↦ id) hagree
      fun q hq hinner ↦ (hseparate other hother home List.mem_cons_self).not_both hq hinner
  · exact twin_of_agree hapart (fun hapart hother hspot ↦ hapart.not_both hspot hother) hall

/-! ## Copies of a snapshot -/

/-- A snapshot was copied into some homes, up to one in which that failed. -/
def CopiesUpTo (machine : Machine σ) (store : σ → Store) (source : Spot) (homes : List Spot) (s : σ)
    (stop : Stop BringupError) (s' : σ) : Prop :=
  ∃ before home after, homes = before ++ home :: after ∧
    StoppedAt machine store (fun home ↦ Serves source.path home.path)
      (fun home ↦ Received source.location home.location (store s) (store s'))
      (fun home ↦ Replaced home.location) before home after s stop s'

section Copies

variable {ground : Store} {source : Path} {origin : List String}

variable (hacts : machine.ActsOn store) (hsurveys : machine.Surveys store)
  (hinPlace : machine.FailsInPlace store) (hsource : ground.Reaches source origin)

include hacts hsurveys hinPlace hsource

theorem agree_of_copyInto_stops (hoffers : Offers ground origin home (store s))
    (hbears : Bears ground origin (store s))
    (h : Fails (copyInto machine source home.path) s stop s') :
    AgreeOutside (Replaced home.location) (store s) (store s') := by
  cases hoffers.lodged with
  | housed hreaches htree =>
    exact agree_of_copyInto_fails hacts hsurveys hinPlace hsource (hoffers.stands hreaches) hbears
      htree h
  | absent hleads hnone =>
    exact (agree_of_absent hacts hinPlace hbears hleads hnone h).mono fun _ ↦ False.elim

theorem stoppedAt_of_copyIntoAll (hprovides : Provides ground origin homes (store s))
    (h : Fails (copyIntoAll machine source (homes.map (·.path))) s stop s') :
    CopiesUpTo machine store ⟨source, origin⟩ homes s stop s' := by
  rw [copyIntoAll_eq_forM] at h
  obtain ⟨before, home, after, s₁, rfl, hbefore, hhome⟩ := exists_home_of_fails h
  have hsteps := exists_steps (fun spot ↦ takes_copyInto source spot.path) hbefore hhome
  rw [← copyIntoAll_eq_forM] at hbefore
  obtain ⟨hagrees, hreceived⟩ :=
    received_of_copyIntoAll hacts hsurveys hsource hprovides.front hbefore
  have hprovides₁ := hprovides.after hagrees
  have hagree := agree_of_copyInto_stops hacts hsurveys hinPlace hsource
    (hprovides₁.offers home List.mem_cons_self) hprovides₁.bears hhome
  have hall := agree_concat hagrees hagree
  obtain ⟨-, -, hseparate⟩ := List.pairwise_append.mp hprovides.apart
  refine ⟨before, home, after, rfl, fun other hother ↦ ?_, ?_, hall, hsteps⟩
  · exact (hreceived other hother).after hagree fun q hq ↦
      (hseparate other hother home List.mem_cons_self).symm.not_replaced hq
  · exact twin_of_agree hprovides.apart (fun hapart hq ↦ hapart.not_replaced hq) hall

theorem stoppedAt_of_copySnapshot (hprovides : Provides ground origin homes (store s))
    (hthere : (store s).isThere (source.child genesisFile) = .ok true)
    (h : Fails (copySnapshot machine source (homes.map (·.path))) s stop s') :
    CopiesUpTo machine store ⟨source, origin⟩ homes s stop s' := by
  rcases fails_bind h with hlook | ⟨there, s₀, hlook, hcopy⟩
  · exact absurd hlook not_fails_lift
  · have hstore := gives_isThere hacts hlook
    have hanswer := hsurveys.exists_ _ s true hthere
    obtain rfl : there = true := by
      have hvalue := congrArg Prod.fst (machine.run_isThere (source.child genesisFile) s)
      rwa [Bringup.gives_lift hlook, hanswer] at hvalue
    rw [if_pos rfl] at hcopy
    rw [← hstore] at hprovides
    obtain ⟨before, home, after, rfl, hstopped⟩ :=
      stoppedAt_of_copyIntoAll hacts hsurveys hinPlace hsource hprovides hcopy
    rw [hstore] at hstopped
    exact ⟨before, home, after, rfl,
      hstopped.after_look hlook hstore ⟨[genesisFile], .inl rfl⟩⟩

end Copies

/-- A snapshot without a genesis file is refused after one look at it, whatever the homes. -/
theorem refused_of_not_there (hacts : machine.ActsOn store) (hinPlace : machine.FailsInPlace store)
    {source : Path} (hthere : (store s).isThere (source.child genesisFile) ≠ .ok true) :
    ∃ s', Gives (perform machine (.look (source.child genesisFile))) s () s' ∧ store s' = store s ∧
      ∀ homes, Fails (copySnapshot machine source homes) s (.error (.invalidSnapshot source)) s' := by
  have hanswer : ((machine.exists_ (source.child genesisFile)).run.run s).1.toOption.getD false
      = false := by
    have hsound := hinPlace.exists_ (source.child genesisFile) s
    cases hfound : ((machine.exists_ (source.child genesisFile)).run.run s).1 with
    | error cause => rfl
    | ok there => cases there with
      | false => rfl
      | true => exact absurd (hsound hfound) hthere
  have hlook : Gives (liftM (machine.isThere (source.child genesisFile)) : Bringup σ Bool) s _ _ :=
    machine.gives_answer _ s
  refine ⟨_, hlook.bind rfl, hacts.exists_ _ s, fun homes ↦ ?_⟩
  rw [hanswer] at hlook
  rw [Fails, copySnapshot, run_bind, hlook]
  rfl

/-! ## Seedings -/

/-- A snapshot, and homes that are apart from it and from each other. Their paths do not lead through
what a copy of the snapshot replaces, and those of homes may lead to where there is no directory. -/
structure Allotted (source : Spot) (homes : List Spot) (t : Store) : Prop where
  tree : t.IsTree source.location
  reaches : (t.stripAll homes).Reaches source.path source.location
  apart : (source :: homes).Pairwise fun spot other ↦ Separate spot.location other.location
  lodged : ∀ home ∈ homes, Lodged (t.stripAll homes) home t

/-- A seeding that fails stops at a home, those before it seeded and those after it untouched. A
snapshot without a genesis file is refused before that, and nothing is changed. -/
theorem stopped_of_seed (seeder : Seeder) (machine : Machine σ) (store : σ → Store)
    (homes : List Spot) (s : σ) :
    (∀ accounts stop s', seeder.Confines machine store accounts homes s →
      (homes.Pairwise fun home other ↦ Separate home.location other.location) →
      Fails (seeder.seed machine (.generate accounts) (homes.map (·.path))) s stop s' →
        seeder.PopulatesUpTo machine store accounts homes s stop s') ∧
    (machine.ActsOn store → machine.Surveys store → machine.FailsInPlace store →
      (∀ source stop s', Allotted source homes (store s) →
        (store s).isThere (source.path.child genesisFile) = .ok true →
        Fails (seeder.seed machine (.snapshot source.path) (homes.map (·.path))) s stop s' →
          CopiesUpTo machine store source homes s stop s') ∧
      ∀ source, (store s).isThere (source.child genesisFile) ≠ .ok true →
        ∃ s', Gives (perform machine (.look (source.child genesisFile))) s () s' ∧
          store s' = store s ∧ ∀ paths, Fails (seeder.seed machine (.snapshot source) paths) s
            (.error (.invalidSnapshot source)) s') := by
  refine ⟨fun accounts stop s' hconfines hapart h ↦ stoppedAt_of_populate hconfines hapart h,
    fun hacts hsurveys hinPlace ↦ ⟨fun source stop s' hallotted hthere h ↦ ?_,
      fun source hthere ↦ refused_of_not_there hacts hinPlace hthere⟩⟩
  exact stoppedAt_of_copySnapshot hacts hsurveys hinPlace hallotted.reaches
    (provides_stripAll hallotted.tree hallotted.apart hallotted.lodged) hthere h

end Seeder

/-! ## Benches that falter -/

namespace Bench

/-- The bench as a machine whose commands write a genesis file into the home they are run for; in one
home they complain all the same. -/
def faltering (refused : String) : Machine Bench :=
  { surveying with
    run := fun command ↦ do
      let home := command.arguments.getD 1 ""
      let written := (← get).store.writeBytes ((⟨home⟩ : Path).child genesisFile) "\x7b\x7d".toUTF8
      modify fun bench ↦ { bench with store := written.toOption.getD bench.store }
      pure {
        status := .exited (if home = refused ∨ written.isOk = false then 1 else 0)
        complaint := "disk full" } }

theorem eq_of_look_fails {α : Type} {f : Store → Store.Result α} {s s' : Bench} {cause : IoError}
    (h : Fails (look f) s cause s') : s' = s := by
  rw [Fails, run_look] at h
  exact (Prod.mk.inj h).2.symm

theorem eq_of_change_fails {f : Store → Store.Result Store} {s s' : Bench} {cause : IoError}
    (h : Fails (change f) s cause s') : s' = s := by
  rcases fails_bind h with hlook | ⟨_, _, -, hmodify⟩
  · exact eq_of_look_fails hlook
  · exact absurd hmodify (nomatch ·)

theorem failsInPlace_faltering (refused : String) :
    (faltering refused).FailsInPlace Bench.store where
  exists_ path s h := by
    change ((look (·.isThere path)).run.run s).1 = .ok true at h
    rwa [run_look] at h
  makeDirectories path s cause s' h place _ := by
    rw [eq_of_change_fails h]
    exact .refl _ _
  removeTree path s cause s' h := by
    rw [eq_of_change_fails h]
    exact .refl _ _
  copyFile source target s cause s' h := by
    rw [eq_of_change_fails h]
    exact .refl _ _
  list path s cause s' h :=
    congrArg Bench.store (eq_of_look_fails (f := fun store ↦ store.list path >>= surveyed) h)

theorem actsOn_faltering (refused : String) : (faltering refused).ActsOn Bench.store :=
  { actsOn_surveying with }

theorem surveys_faltering (refused : String) : (faltering refused).Surveys Bench.store :=
  { surveys_surveying with }

end Bench

/-- A home whose data is a file. -/
def spoiledHome : Entry := .directory [
  (dataDirectory, textFile "no directory"), (genesisFile, textFile "\x7b\x7d")]

/-- A bench with a snapshot and two homes, of which one cannot be seeded, and with no third one. -/
def spoiledHomes : Bench where
  store := {
    root := .directory [("snap", filledSnapshot), ("test0", staleHome), ("test1", spoiledHome)]
    here := [] }

def threeSpots : List Spot :=
  [⟨⟨"test0"⟩, ["test0"]⟩, ⟨⟨"test1"⟩, ["test1"]⟩, ⟨⟨"test2"⟩, ["test2"]⟩]

theorem allSimple_spoiledHome : spoiledHome.AllSimple :=
  Entry.allSimple_directory (List.forall_mem_cons.mpr ⟨allSimple_textFile _,
    List.forall_mem_singleton.mpr (allSimple_textFile _)⟩)

theorem reaches_here (t : Store) : t.Reaches ⟨""⟩ t.here := by
  have hroute : (Route.ofText "").fromRoot = false ∧ (Route.ofText "").names = [] := by
    decide +kernel
  rw [Store.Reaches, hroute.1, hroute.2]
  rfl

/-- A file is written into a home in the working directory, and nothing where there is none. -/
theorem agreeOutside_of_run_faltering {refused name : String} {t : Bench} (hhere : t.store.here = [])
    (hroot : t.store.seenAt [] = some (.directory [])) (hname : ProperName name)
    (hpath : (⟨""⟩ : Path).child name = ⟨name⟩)
    (hhome : t.store.IsTree [name] ∨ t.store.seenAt [name] = none) (seeder : Seeder)
    (accounts : UInt64) : AgreeOutside ([name] <+: ·) t.store
      (((Bench.faltering refused).run (seeder.populateCommand accounts ⟨name⟩)).run.run t).2.store := by
  have hreaches := reaches_here t.store
  rw [hhere] at hreaches
  have hbelow : (⟨name⟩ : Path).child genesisFile = (⟨""⟩ : Path).below ([name] ++ [genesisFile]) :=
    congrArg (·.child genesisFile) hpath.symm
  have hnames : ∀ other ∈ [name] ++ [genesisFile], ProperName other :=
    List.forall_mem_cons.mpr ⟨hname, List.forall_mem_singleton.mpr properName_genesisFile⟩
  change AgreeOutside _ _ ((t.store.writeBytes ((⟨name⟩ : Path).child genesisFile)
    "\x7b\x7d".toUTF8).toOption.getD t.store)
  rw [hbelow]
  cases hwrite : t.store.writeBytes ((⟨""⟩ : Path).below ([name] ++ [genesisFile]))
    "\x7b\x7d".toUTF8 with
  | error cause => exact .refl _ _
  | ok next =>
    rcases hhome with htree | hnone
    · obtain ⟨entries, hentries⟩ := htree.exists_directory
      have hagree := Store.agreeOutside_of_writeBytes hreaches hnames hentries
        (fun _ hentry ↦ htree.simple.get? [genesisFile] hentry) hwrite
      exact hagree.mono fun _ ↦ (List.prefix_append [name] [genesisFile]).trans
    · -- no walk goes on where the home is not
      obtain ⟨jump, hlocate⟩ := Store.exists_locate_below hreaches hnames (by simp) true
      obtain ⟨entries, hentries⟩ := Store.seenAt_eq_directory_iff.mp hroot
      have hvacant := Store.seenAt_eq_none_iff.mp hnone
      have hfind : Entry.find? name entries = none := by
        rw [← Entry.get?_append_singleton hentries]
        exact hvacant
      rw [List.singleton_append, walkIn_vacant hentries hname.notHere hname.notUp hfind] at hlocate
      rw [Store.writeBytes, Store.alter, List.singleton_append, hlocate] at hwrite
      cases hwrite

theorem confines_threeSpots (seeder : Seeder) (accounts : UInt64) :
    seeder.Confines (Bench.faltering "test1") Bench.store accounts threeSpots spoiledHomes := by
  intro home hhome t hagree
  have hroot : ¬Seeder.InOthers threeSpots home [] := by
    rintro ⟨other, hother, -, hleads⟩
    have hfilled : ∀ spot ∈ threeSpots, spot.location ≠ [] := by decide
    exact hfilled other hother (List.prefix_nil.mp hleads)
  have hkept {name : String} (hname : home.location = [name]) (q : List String) (hq : [name] <+: q) :
      ¬Seeder.InOthers threeSpots home q :=
    Seeder.not_inOthers (by decide) hhome (hname ▸ hq)
  have hrun {name : String} (hhome : home = ⟨⟨name⟩, [name]⟩) (hname : ProperName name)
      (hpath : (⟨""⟩ : Path).child name = ⟨name⟩)
      (hthere : spoiledHomes.store.IsTree [name] ∨ spoiledHomes.store.seenAt [name] = none) :
      AgreeOutside (home.location <+: ·) t.store (((Bench.faltering "test1").run
        (seeder.populateCommand accounts home.path)).run.run t).2.store := by
    have hlocation : home.location = [name] := congrArg Spot.location hhome
    have hsame : home.path = ⟨name⟩ := congrArg Spot.path hhome
    rw [hlocation, hsame]
    apply agreeOutside_of_run_faltering hagree.here ((hagree.seenAt [] hroot).trans rfl) hname hpath
    refine hthere.imp (fun htree ↦ htree.of_agreeOutside hagree (hkept hlocation)) fun hnone ↦ ?_
    exact (hagree.seenAt [name] (hkept hlocation _ List.prefix_rfl)).trans hnone
  have hcases : home = ⟨⟨"test0"⟩, ["test0"]⟩ ∨ home = ⟨⟨"test1"⟩, ["test1"]⟩ ∨
      home = ⟨⟨"test2"⟩, ["test2"]⟩ := by simpa [threeSpots] using hhome
  rcases hcases with hfirst | hsecond | hthird
  · exact hrun hfirst (by decide) (by decide +kernel) (.inl (isTree_home rfl))
  · exact hrun hsecond (by decide) (by decide +kernel)
      (.inl (Store.isTree_of_allSimple rfl allSimple_spoiledHome))
  · exact hrun hthird (by decide) (by decide +kernel) (.inr rfl)

theorem allotted_threeSpots :
    Seeder.Allotted ⟨⟨"snap"⟩, ["snap"]⟩ threeSpots spoiledHomes.store where
  tree := isTree_snap rfl
  reaches := by
    unfold Store.Reaches
    decide +kernel
  apart := by decide
  lodged := by
    have hreaches : (spoiledHomes.store.stripAll threeSpots).Reaches ⟨"test0"⟩ ["test0"] ∧
        (spoiledHomes.store.stripAll threeSpots).Reaches ⟨"test1"⟩ ["test1"] ∧
        (spoiledHomes.store.stripAll threeSpots).Reaches ⟨""⟩ [] := by
      unfold Store.Reaches
      decide +kernel
    obtain ⟨hfirst, hsecond, hground⟩ := hreaches
    have hvacant : spoiledHomes.store.root.get? ["test2"] = none := rfl
    have hleads : (spoiledHomes.store.stripAll threeSpots).LeadsTo spoiledHomes.store ⟨"test2"⟩
        ["test2"] := by
      refine ⟨⟨""⟩, [], ["test2"], by decide +kernel, rfl, by decide, hground, ?_⟩
      intro front hfront target hlink
      cases front with
      | nil => cases hlink
      | cons name rest =>
        obtain ⟨rfl, hrest⟩ := List.cons_prefix_cons.mp hfront
        obtain rfl := List.prefix_nil.mp hrest
        exact absurd (hvacant.symm.trans hlink) nofun
    refine List.forall_mem_cons.mpr ⟨.housed hfirst (isTree_home rfl), List.forall_mem_cons.mpr
      ⟨.housed hsecond (Store.isTree_of_allSimple rfl allSimple_spoiledHome),
        List.forall_mem_singleton.mpr (.absent hleads fun hthere ↦ ?_)⟩⟩
    rw [Store.seenAt_eq_none_iff.mpr hvacant] at hthere
    cases hthere

theorem fails_of_error {op : Bringup σ Unit} {stop : Stop BringupError}
    (h : (op.run.run s).1 = .error stop) : Fails op s stop (op.run.run s).2 :=
  Prod.ext h rfl

/-- Neither accounts nor a snapshot come into the second of three homes, and a directory without a
genesis file is no snapshot. -/
theorem stopped_of_seed_threeSpots :
    let seeder : Seeder := ⟨⟨"populate"⟩⟩
    let machine := Bench.faltering "test1"
    let seed (dataset : Dataset) := seeder.seed machine dataset (threeSpots.map (·.path))
    let populated := ((seed (.generate 7)).run.run spoiledHomes).2
    let copied := ((seed (.snapshot ⟨"snap"⟩)).run.run spoiledHomes).2
    let spoiled : BringupError := .commandFailed (seeder.populateCommand 7 ⟨"test1"⟩).describe
      "exit status: 1" "disk full"
    (seeder.Confines machine Bench.store 7 threeSpots spoiledHomes ∧
      Fails (seed (.generate 7)) spoiledHomes (.error spoiled) populated ∧
      seeder.PopulatesUpTo machine Bench.store 7 threeSpots spoiledHomes (.error spoiled)
        populated) ∧
    (Seeder.Allotted ⟨⟨"snap"⟩, ["snap"]⟩ threeSpots spoiledHomes.store ∧
      Fails (seed (.snapshot ⟨"snap"⟩)) spoiledHomes
        (.error (.io ⟨"test1/data"⟩ .notDirectory)) copied ∧
      Seeder.CopiesUpTo machine Bench.store ⟨⟨"snap"⟩, ["snap"]⟩ threeSpots spoiledHomes
        (.error (.io ⟨"test1/data"⟩ .notDirectory)) copied) ∧
    ∃ next : Bench, next.store = spoiledHomes.store ∧ ∀ paths,
      Fails (seeder.seed machine (.snapshot ⟨"test0/data"⟩) paths) spoiledHomes
        (.error (.invalidSnapshot ⟨"test0/data"⟩)) next := by
  intro seeder machine seed populated copied spoiled
  have hpopulate : Fails (seed (.generate 7)) spoiledHomes (.error spoiled) populated :=
    fails_of_error (by decide +kernel)
  have hcopy : Fails (seed (.snapshot ⟨"snap"⟩)) spoiledHomes
      (.error (.io ⟨"test1/data"⟩ .notDirectory)) copied :=
    fails_of_error (by decide +kernel)
  have hthere : spoiledHomes.store.isThere ((⟨"snap"⟩ : Path).child genesisFile) = .ok true := by
    decide +kernel
  have hnone :
      spoiledHomes.store.isThere ((⟨"test0/data"⟩ : Path).child genesisFile) ≠ .ok true := by
    decide +kernel
  obtain ⟨hpopulates, hcopies⟩ :=
    Seeder.stopped_of_seed seeder machine Bench.store threeSpots spoiledHomes
  obtain ⟨hcopies, hrefuses⟩ := hcopies (Bench.actsOn_faltering _) (Bench.surveys_faltering _)
    (Bench.failsInPlace_faltering _)
  have hconfines := confines_threeSpots seeder 7
  obtain ⟨next, -, hstore, hrefused⟩ := hrefuses ⟨"test0/data"⟩ hnone
  exact ⟨⟨hconfines, hpopulate, hpopulates 7 _ _ hconfines (by decide) hpopulate⟩,
    ⟨allotted_threeSpots, hcopy, hcopies ⟨⟨"snap"⟩, ["snap"]⟩ _ _ allotted_threeSpots hthere hcopy⟩,
    next, hstore, hrefused⟩

/-- A snapshot that is reached through the data of the first of two homes is not found any more when
the second one is begun, and the first one is left without data. -/
theorem not_received_of_seed_through_data :
    let bench : Bench := { store := { twoHomes.store with here := [] } }
    let source : Path := ⟨"test0/data/../../snap"⟩
    let seed := Seeder.seed ⟨⟨"populate"⟩⟩ Bench.surveying (.snapshot source) [⟨"test0"⟩, ⟨"test1"⟩]
    let next := (seed.run.run bench).2
    bench.store.IsTree ["snap"] ∧ bench.store.IsTree ["test0"] ∧ bench.store.IsTree ["test1"] ∧
      ([["snap"], ["test0"], ["test1"]] : List (List String)).Pairwise Separate ∧
      bench.store.Reaches source ["snap"] ∧ bench.store.Reaches ⟨"test0"⟩ ["test0"] ∧
      bench.store.Reaches ⟨"test1"⟩ ["test1"] ∧
      Fails seed bench (.error (.io ⟨"test1/genesis.json"⟩ .notFound)) next ∧
      ¬Received ["snap"] ["test0"] bench.store next.store := by
  intro bench source seed next
  have hreaches : bench.store.Reaches source ["snap"] ∧ bench.store.Reaches ⟨"test0"⟩ ["test0"] ∧
      bench.store.Reaches ⟨"test1"⟩ ["test1"] := by
    unfold Store.Reaches
    decide +kernel
  obtain ⟨hsource, hfirst, hsecond⟩ := hreaches
  refine ⟨isTree_snap rfl, isTree_home rfl, isTree_home rfl, by decide, hsource, hfirst, hsecond,
    fails_of_error (by decide +kernel), fun hreceived ↦ ?_⟩
  have htwin := congrArg Option.isSome (hreceived.data [])
  have hdata : (bench.store.seenAt ["snap", dataDirectory]).isSome = true := by decide +kernel
  have hgone : (next.store.seenAt ["test0", dataDirectory]).isSome = false := by decide +kernel
  exact Bool.false_ne_true (hgone.symm.trans (htwin.trans hdata))

end BlockWatch
