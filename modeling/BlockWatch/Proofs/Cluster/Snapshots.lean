import BlockWatch.Proofs.Cluster.Lodging

/-!
# Copies of a snapshot

A snapshot that was copied into some homes lies in each of them as it lies in its own place: the same
genesis file, and the same tree of data, of which nothing old is left. Whatever else there is stays as
it was. The paths must not lead through what is replaced: a snapshot that is reached through the data
of a home is lost from sight as soon as that is removed, and the copy succeeds without any data.
-/

namespace BlockWatch

open Op (Gives gives_bind gives_adapt gives_pure)
open Store (AgreeOutside Twin)

variable {σ : Type} {machine : Machine σ} {store : σ → Store} {s s' : σ}

/-- A home has what the snapshot had: its genesis file, and its data or none. -/
structure Received (origin location : List String) (t u : Store) : Prop where
  genesis : ∃ contents executable,
    t.root.get? (origin ++ [genesisFile]) = some (.file contents executable) ∧
      u.root.get? (location ++ [genesisFile]) = some (.file contents executable)
  data : Twin t (origin ++ [dataDirectory]) u (location ++ [dataDirectory])

/-- The ground leads to a home, which is apart from the snapshot, and has nothing that is replaced. -/
structure Stands (ground : Store) (origin : List String) (home : Spot) : Prop where
  reaches : ground.Reaches home.path home.location
  apart : Separate home.location origin
  vacant : ∀ q, Replaced home.location q → ground.root.get? q = none

/-- The ground leads to a home or to where it would be, and has nothing that is replaced. -/
structure Offers (ground : Store) (origin : List String) (home : Spot) (t : Store) : Prop where
  lodged : Lodged ground home t
  apart : Separate home.location origin
  vacant : ∀ q, Replaced home.location q → ground.root.get? q = none

/-- A store on some ground in which a snapshot lies, and in which homes are found apart. -/
structure Provides (ground : Store) (origin : List String) (homes : List Spot) (t : Store) :
    Prop where
  bears : Bears ground origin t
  offers : ∀ home ∈ homes, Offers ground origin home t
  apart : homes.Pairwise fun home other ↦ Separate home.location other.location

variable {ground t u v : Store} {source : Path} {origin location : List String} {home : Spot}

theorem Offers.stands (h : Offers ground origin home t)
    (hreaches : ground.Reaches home.path home.location) : Stands ground origin home :=
  ⟨hreaches, h.apart, h.vacant⟩

theorem Provides.front {before rest : List Spot} (h : Provides ground origin (before ++ rest) t) :
    Provides ground origin before t :=
  ⟨h.bears, fun home hhome ↦ h.offers home (List.mem_append_left _ hhome),
    (List.pairwise_append.mp h.apart).1⟩

/-- What is replaced in some homes matters neither to the snapshot nor to the others. -/
theorem Provides.after {before rest : List Spot} (h : Provides ground origin (before ++ rest) t)
    (hagree : AgreeOutside (fun q ↦ ∃ home ∈ before, Replaced home.location q) t u) :
    Provides ground origin rest u := by
  obtain ⟨hfirst, hlater⟩ := List.forall_mem_append.mp h.offers
  obtain ⟨-, hpairs, hseparate⟩ := List.pairwise_append.mp h.apart
  refine ⟨?_, fun other hother ↦ ?_, hpairs⟩
  · apply h.bears.of_agreeOutside hagree
    · rintro q ⟨home, hhome, hq⟩
      exact (hfirst home hhome).vacant q hq
    · rintro q ⟨home, hhome, hq⟩ horigin
      exact (hfirst home hhome).apart.not_replaced horigin hq
  · have hoffers := hlater other hother
    refine ⟨hoffers.lodged.of_agreeOutside hagree ?_ ?_, hoffers.apart, hoffers.vacant⟩
    · rintro q hq ⟨home, hhome, hreplaced⟩
      exact (hseparate home hhome other hother).not_replaced hq hreplaced
    · rintro q hq ⟨home, hhome, hreplaced⟩
      exact (hseparate home hhome other hother).not_replaced_above hq hreplaced

/-- What happens elsewhere takes nothing away. -/
theorem Received.after {changed : List String → Prop} (h : Received origin location t u)
    (hagree : AgreeOutside changed u v) (hkept : ∀ q, location <+: q → ¬changed q) :
    Received origin location t v where
  genesis := by
    obtain ⟨contents, executable, hfile, hcopy⟩ := h.genesis
    refine ⟨contents, executable, hfile, ?_⟩
    rw [← Store.seenAt_eq_file_iff] at hcopy ⊢
    exact (hagree.seenAt _ (hkept _ (List.prefix_append _ _))).trans hcopy
  data rest := by
    rw [← h.data rest, List.append_assoc]
    exact hagree.seenAt _ (hkept _ (List.prefix_append _ _))

theorem Received.before {changed : List String → Prop} (h : Received origin location u v)
    (hagree : AgreeOutside changed t u) (hkept : ∀ q, origin <+: q → ¬changed q) :
    Received origin location t v where
  genesis := by
    obtain ⟨contents, executable, hfile, hcopy⟩ := h.genesis
    refine ⟨contents, executable, ?_, hcopy⟩
    rw [← Store.seenAt_eq_file_iff] at hfile ⊢
    exact (hagree.seenAt _ (hkept _ (List.prefix_append _ _))).symm.trans hfile
  data rest := by
    rw [h.data rest, List.append_assoc]
    exact hagree.seenAt _ (hkept _ (List.prefix_append _ _))

section Homes

variable (hacts : machine.ActsOn store) (hsurveys : machine.Surveys store)
  (hsource : ground.Reaches source origin)

include hacts hsurveys hsource

omit hsurveys in
/-- The genesis file is copied, and the snapshot and the home are still there. -/
theorem copied_genesis (hstands : Stands ground origin home)
    (hbears : Bears ground origin (store s)) (hhome : (store s).IsTree home.location)
    (h : Gives (machine.copyFile (source.child genesisFile) (home.path.child genesisFile)) s () s') :
    (∃ contents executable,
      (store s).root.get? (origin ++ [genesisFile]) = some (.file contents executable)) ∧
        Copied origin home.location [genesisFile] (store s) (store s') ∧
        Bears ground origin (store s') ∧ (store s').IsTree home.location := by
  have hname : ∀ name ∈ [] ++ [genesisFile], ProperName name :=
    List.forall_mem_singleton.mpr properName_genesisFile
  have hdirectory := hhome.directory
  rw [← List.append_nil home.location] at hdirectory
  obtain ⟨hfile, hcopied⟩ := copied_of_copyFile hacts hsource hstands.reaches hstands.apart hname
    hbears hdirectory (fun _ hentry ↦ hhome.simple.get? _ hentry) h
  replace hcopied : Copied origin home.location [genesisFile] (store s) (store s') := hcopied
  refine ⟨hfile, hcopied,
    hbears.of_below hstands.apart (hstands.vacant _ (.inl List.prefix_rfl)) hcopied.agree, ?_, ?_⟩
  · exact (hcopied.agree.seenAt _ (not_prefix_self home.location genesisFile)).trans
      hhome.directory
  · exact hhome.simple.of_twin (hbears.tree.simple.append [genesisFile]) hcopied.agree hcopied.twin

omit hsource in
/-- A home whose data was removed is ready for a copy. -/
theorem awaits_of_clearData (hstands : Stands ground origin home)
    (hbears : Bears ground origin (store s)) (hhome : (store s).IsTree home.location)
    (h : Gives (Seeder.clearData machine home.path) s () s') :
    AgreeOutside (home.location ++ [dataDirectory] <+: ·) (store s) (store s') ∧
      Awaits ground origin home.location [] dataDirectory (store s') := by
  have hvacant := hstands.vacant (home.location ++ [dataDirectory]) (.inr List.prefix_rfl)
  obtain ⟨hcleared, hgone⟩ := gone_of_clearData hacts hsurveys
    (Store.reaches_of_extends hstands.reaches hbears.ground hbears.here) hhome h
  refine ⟨hcleared, hbears.of_below hstands.apart hvacant hcleared, hvacant, ?_, hgone⟩
  rw [List.append_nil]
  exact (hcleared.seenAt _ (not_prefix_self home.location dataDirectory)).trans hhome.directory

theorem received_of_copyInto (hstands : Stands ground origin home)
    (hbears : Bears ground origin (store s)) (hhome : (store s).IsTree home.location)
    (h : Gives (Seeder.copyInto machine source home.path) s () s') :
    AgreeOutside (Replaced home.location) (store s) (store s') ∧
      Received origin home.location (store s) (store s') := by
  rw [Seeder.copyInto_eq] at h
  obtain ⟨_, s₁, hcopy, htail⟩ := gives_bind h
  obtain ⟨_, s₂, hclear, hend⟩ := gives_bind htail
  obtain ⟨⟨contents, executable, hfile⟩, hcopied, hbears₁, hhome₁⟩ :=
    copied_genesis hacts hsource hstands hbears hhome (gives_adapt hcopy)
  obtain ⟨hcleared, hawaits⟩ := awaits_of_clearData hacts hsurveys hstands hbears₁ hhome₁ hclear
  have hdata := copied_of_copyData hacts hsurveys hsource hstands.reaches hstands.apart hawaits hend
  have hagree₁ : AgreeOutside (Replaced home.location) (store s) (store s₁) :=
    hcopied.agree.mono fun _ ↦ .inl
  have hagree₂ : AgreeOutside (home.location ++ [dataDirectory] <+: ·) (store s₁) (store s') :=
    hcleared.trans hdata.agree
  refine ⟨hagree₁.trans (hagree₂.mono fun _ ↦ .inr), ⟨contents, executable, hfile, ?_⟩, ?_⟩
  · have hother := not_prefix_sibling (by decide : dataDirectory ≠ genesisFile) home.location [] []
    rw [List.append_nil] at hother
    rw [← Store.seenAt_eq_file_iff] at hfile ⊢
    have hkept := hcopied.twin []
    rw [List.append_nil, List.append_nil] at hkept
    exact (hagree₂.seenAt _ hother).trans (hkept.trans hfile)
  · intro rest
    have hkept := (hagree₁.trans (hcleared.mono fun _ ↦ .inr)).seenAt _
      (hstands.apart.not_replaced (List.prefix_append origin ([dataDirectory] ++ rest)))
    rw [hdata.twin rest, List.append_assoc]
    exact hkept

theorem received_of_copyIntoAll {homes : List Spot}
    (hprovides : Provides ground origin homes (store s))
    (h : Gives (Seeder.copyIntoAll machine source (homes.map (·.path))) s () s') :
    AgreeOutside (fun q ↦ ∃ home ∈ homes, Replaced home.location q) (store s) (store s') ∧
      ∀ home ∈ homes, Received origin home.location (store s) (store s') := by
  induction homes generalizing s with
  | nil =>
    obtain ⟨-, rfl⟩ := gives_pure h
    exact ⟨.refl _ _, fun _ hhome ↦ absurd hhome List.not_mem_nil⟩
  | cons home rest ih =>
    obtain ⟨hfirst, -⟩ := List.forall_mem_cons.mp hprovides.offers
    obtain ⟨hseparate, -⟩ := List.pairwise_cons.mp hprovides.apart
    obtain ⟨_, s₁, hcopy, hrest⟩ := gives_bind h
    obtain ⟨hreaches, htree⟩ := hfirst.lodged.housed_of_copyInto hacts hprovides.bears hcopy
    obtain ⟨hagree, hreceived⟩ := received_of_copyInto hacts hsurveys hsource (hfirst.stands hreaches)
      hprovides.bears htree hcopy
    have hagreeFirst : AgreeOutside (fun q ↦ ∃ other ∈ [home], Replaced other.location q) (store s)
        (store s₁) := hagree.mono fun q hq ↦ ⟨home, List.mem_singleton_self home, hq⟩
    have hprovides₁ : Provides ground origin ([home] ++ rest) (store s) := hprovides
    obtain ⟨hagrees, hreceives⟩ := ih (hprovides₁.after hagreeFirst) hrest
    refine ⟨?_, List.forall_mem_cons.mpr ⟨?_, fun other hother ↦ ?_⟩⟩
    · exact (hagree.mono fun q hq ↦ ⟨home, List.mem_cons_self, hq⟩).trans
        (hagrees.mono fun q ⟨other, hother, hq⟩ ↦ ⟨other, List.mem_cons_of_mem _ hother, hq⟩)
    · apply hreceived.after hagrees
      rintro q hq ⟨other, hother, hreplaced⟩
      exact (hseparate other hother).symm.not_replaced hq hreplaced
    · exact (hreceives other hother).before hagree fun q hq ↦ hfirst.apart.not_replaced hq

end Homes

/-! ## Paths that do not lead through what is replaced -/

/-- A store without what a copy replaces in a home. -/
def Store.strip (t : Store) (location : List String) : Store :=
  (t.clear (location ++ [genesisFile])).clear (location ++ [dataDirectory])

def Store.stripAll (t : Store) (homes : List Spot) : Store :=
  homes.foldl (fun t home ↦ t.strip home.location) t

theorem agreeOutside_strip (t : Store) (location : List String) :
    AgreeOutside (Replaced location) t (t.strip location) :=
  ((Store.agreeOutside_clear t location genesisFile).mono fun _ ↦ .inl).trans
    ((Store.agreeOutside_clear _ location dataDirectory).mono fun _ ↦ .inr)

theorem seenAt_strip (t : Store) {q : List String} (hq : Replaced location q) :
    (t.strip location).seenAt q = none := by
  rcases hq with ⟨rest, rfl⟩ | ⟨rest, rfl⟩
  · have hother : ¬location ++ [dataDirectory] <+: location ++ [genesisFile] ++ rest :=
      not_prefix_sibling (by decide) location [] rest
    rw [Store.strip, (Store.agreeOutside_clear _ location dataDirectory).seenAt _ hother,
      List.append_assoc]
    exact Store.seenAt_clear t location genesisFile rest
  · rw [Store.strip, List.append_assoc]
    exact Store.seenAt_clear _ location dataDirectory rest

theorem stripAll_spec (t : Store) (homes : List Spot) :
    AgreeOutside (fun q ↦ ∃ home ∈ homes, Replaced home.location q) t (t.stripAll homes) ∧
      ∀ q, (∃ home ∈ homes, Replaced home.location q) → (t.stripAll homes).seenAt q = none := by
  induction homes generalizing t with
  | nil => exact ⟨.refl _ _, fun q ⟨_, hhome, _⟩ ↦ absurd hhome List.not_mem_nil⟩
  | cons home rest ih =>
    obtain ⟨hagrees, hnone⟩ := ih (t.strip home.location)
    refine ⟨?_, fun q hq ↦ ?_⟩
    · exact ((agreeOutside_strip t home.location).mono
        fun q hq ↦ ⟨home, List.mem_cons_self, hq⟩).trans
          (hagrees.mono fun q ⟨other, hother, hq⟩ ↦ ⟨other, List.mem_cons_of_mem _ hother, hq⟩)
    · by_cases hrest : ∃ other ∈ rest, Replaced other.location q
      · exact hnone q hrest
      · obtain ⟨other, hother, hreplaced⟩ := hq
        rcases List.mem_cons.mp hother with rfl | hother
        · exact (hagrees.seenAt q hrest).trans (seenAt_strip t hreplaced)
        · exact absurd ⟨other, hother, hreplaced⟩ hrest

/-- The ground that is left without what is replaced bears the snapshot and offers the homes. -/
theorem provides_stripAll {source : Spot} {homes : List Spot} (htree : t.IsTree source.location)
    (hapart : (source :: homes).Pairwise fun spot other ↦ Separate spot.location other.location)
    (hlodged : ∀ home ∈ homes, Lodged (t.stripAll homes) home t) :
    Provides (t.stripAll homes) source.location homes t := by
  obtain ⟨hagree, hnone⟩ := stripAll_spec t homes
  obtain ⟨hseparate, hpairs⟩ := List.pairwise_cons.mp hapart
  refine ⟨⟨hagree.here.symm, ?_, htree⟩, fun home hhome ↦ ?_, hpairs⟩
  · exact hagree.symm.extends_root (Entry.extends_refl _) fun q hq ↦
      Store.seenAt_eq_none_iff.mp (hnone q hq)
  · exact ⟨hlodged home hhome, (hseparate home hhome).symm, fun q hq ↦
      Store.seenAt_eq_none_iff.mp (hnone q ⟨home, hhome, hq⟩)⟩

/-- A snapshot and homes that lie apart, to which paths lead that do not go through what a copy of the
snapshot replaces in the homes. -/
structure Arranged (source : Spot) (homes : List Spot) (t : Store) : Prop where
  trees : ∀ spot ∈ source :: homes, t.IsTree spot.location
  apart : (source :: homes).Pairwise fun spot other ↦ Separate spot.location other.location
  reaches : ∀ spot ∈ source :: homes, (t.stripAll homes).Reaches spot.path spot.location

/-- After a snapshot was copied, every home has its genesis file and its data, or no data if it has
none, and nothing else is another one, the snapshot included. -/
theorem received_of_copySnapshot (hacts : machine.ActsOn store)
    (hsurveys : machine.Surveys store) {source : Spot} {homes : List Spot}
    (harranged : Arranged source homes (store s))
    (h : Gives (Seeder.copySnapshot machine source.path (homes.map (·.path))) s () s') :
    (∀ home ∈ homes, Received source.location home.location (store s) (store s')) ∧
      AgreeOutside (fun q ↦ ∃ home ∈ homes, Replaced home.location q) (store s) (store s') ∧
      Twin (store s) source.location (store s') source.location := by
  obtain ⟨htree, htrees⟩ := List.forall_mem_cons.mp harranged.trees
  obtain ⟨hseparate, -⟩ := List.pairwise_cons.mp harranged.apart
  obtain ⟨hsource, hreaches⟩ := List.forall_mem_cons.mp harranged.reaches
  have hprovides := provides_stripAll htree harranged.apart fun home hhome ↦
    .housed (hreaches home hhome) (htrees home hhome)
  obtain ⟨there, s₁, hlook, hcopy⟩ := gives_bind h
  have hstore := gives_isThere hacts hlook
  split_ifs at hcopy
  · rw [← hstore] at hprovides ⊢
    rw [← hstore] at hsource
    obtain ⟨hagrees, hreceives⟩ := received_of_copyIntoAll hacts hsurveys hsource hprovides hcopy
    refine ⟨hreceives, hagrees, fun rest ↦ hagrees.seenAt _ ?_⟩
    rintro ⟨home, hhome, hreplaced⟩
    exact (hseparate home hhome).symm.not_replaced (List.prefix_append _ _) hreplaced
  · exact absurd hcopy Bringup.not_gives_fail

/-! ## Benches that list backwards -/

namespace Bench

/-- What is listed of a directory whose entries have names of their own, the last one first. -/
def surveyed (entries : List (String × Entry)) : Store.Result (List Listed) :=
  if (∀ entry ∈ entries, ProperName entry.1) ∧ (entries.map (·.1)).Nodup then
    .ok (entries.reverse.map fun entry ↦ ⟨entry.1, entry.2.isDirectory⟩)
  else .error .notText

/-- The bench as a machine that lists directories from their last entry to the first. -/
def surveying : Machine Bench :=
  { running (fun _ store ↦ store) fun _ store ↦ store with
    list := fun path ↦ look fun store ↦ store.list path >>= surveyed }

theorem mem_surveyed {entries : List (String × Entry)} {found : List Listed}
    (h : surveyed entries = .ok found) : (∀ listed ∈ found, ProperName listed.name) ∧
      (found.map (·.name)).Nodup ∧ ∀ listed, listed ∈ found ↔
        ∃ entry, Entry.find? listed.name entries = some entry ∧
          entry.isDirectory = listed.isDirectory := by
  rw [surveyed] at h
  split_ifs at h with hentries
  obtain rfl := Except.ok.inj h
  obtain ⟨hproper, hnodup⟩ := hentries
  refine ⟨?_, ?_, fun listed ↦ ?_⟩
  · intro listed hlisted
    obtain ⟨entry, hentry, rfl⟩ := List.mem_map.mp hlisted
    exact hproper entry (List.mem_reverse.mp hentry)
  · rw [List.map_map, List.map_reverse]
    exact (List.reverse_perm _).nodup_iff.mpr hnodup
  · simp only [Entry.find?_eq_some_iff hnodup, List.mem_map, List.mem_reverse]
    constructor
    · rintro ⟨entry, hentry, rfl⟩
      exact ⟨entry.2, hentry, rfl⟩
    · rintro ⟨entry, hentry, hdirectory⟩
      exact ⟨_, hentry, by rw [hdirectory]⟩

theorem gives_list_surveying {path : Path} {s s' : Bench} {found : List Listed}
    (h : Gives (surveying.list path) s found s') : s'.store = s.store ∧ ∃ entries,
      s.store.list path = .ok entries ∧ surveyed entries = .ok found := by
  obtain ⟨hstore, hlist⟩ := gives_look (f := fun store ↦ store.list path >>= surveyed) h
  obtain ⟨entries, hentries, hfound⟩ := bind_eq_ok hlist
  exact ⟨hstore, entries, hentries, hfound⟩

theorem actsOn_surveying : surveying.ActsOn Bench.store :=
  { actsOn_running (fun _ store ↦ store) fun _ store ↦ store with
    list := fun path s found s' h ↦ by
      obtain ⟨hstore, entries, -, hfound⟩ := gives_list_surveying h
      exact ⟨hstore, (mem_surveyed hfound).1⟩ }

theorem surveys_surveying : surveying.Surveys Bench.store where
  exists_ path s there h := congrArg Prod.fst (look_gives h)
  list path s found s' h := by
    obtain ⟨-, entries, hentries, hfound⟩ := gives_list_surveying h
    obtain ⟨-, hnodup, hlisted⟩ := mem_surveyed hfound
    exact ⟨hnodup, entries, hentries, hlisted⟩

end Bench

/-! ### Two homes -/

def textFile (text : String) : Entry := .file text.toUTF8 false

def filledSnapshot : Entry := .directory [
  (dataDirectory, .directory [
    ("col", .directory [("000001.sst", textFile "rows"), ("old", .directory [])]),
    ("log", textFile "")]),
  (genesisFile, textFile "\x7b\"records\": [1]\x7d")]

def staleHome : Entry := .directory [
  (dataDirectory, .directory [("col", textFile "no directory"), ("stale", textFile "old")]),
  (genesisFile, textFile "\x7b\x7d"), (configFile, textFile "\x7b\x7d")]

/-- A bench with a snapshot and two homes of an earlier run. -/
def twoHomes : Bench where
  store := {
    root := .directory [("snap", filledSnapshot), ("test0", staleHome), ("test1", staleHome)]
    here := ["test0"] }

theorem allSimple_textFile (text : String) : (textFile text).AllSimple :=
  Entry.allSimple_file _ _

theorem allSimple_filledSnapshot : filledSnapshot.AllSimple := by
  have hcol : (Entry.directory [("000001.sst", textFile "rows"), ("old", .directory [])]).AllSimple :=
    Entry.allSimple_directory (List.forall_mem_cons.mpr ⟨allSimple_textFile _,
      List.forall_mem_singleton.mpr (Entry.allSimple_directory fun _ h ↦ nomatch h)⟩)
  have hdata : (Entry.directory [("col", .directory [("000001.sst", textFile "rows"),
      ("old", .directory [])]), ("log", textFile "")]).AllSimple :=
    Entry.allSimple_directory (List.forall_mem_cons.mpr ⟨hcol,
      List.forall_mem_singleton.mpr (allSimple_textFile _)⟩)
  exact Entry.allSimple_directory (List.forall_mem_cons.mpr ⟨hdata,
    List.forall_mem_singleton.mpr (allSimple_textFile _)⟩)

theorem allSimple_staleHome : staleHome.AllSimple := by
  have hdata : (Entry.directory [("col", textFile "no directory"),
      ("stale", textFile "old")]).AllSimple :=
    Entry.allSimple_directory (List.forall_mem_cons.mpr ⟨allSimple_textFile _,
      List.forall_mem_singleton.mpr (allSimple_textFile _)⟩)
  exact Entry.allSimple_directory (List.forall_mem_cons.mpr ⟨hdata,
    List.forall_mem_cons.mpr ⟨allSimple_textFile _,
      List.forall_mem_singleton.mpr (allSimple_textFile _)⟩⟩)

def twoSpots : List Spot :=
  [⟨⟨"/test0"⟩, ["test0"]⟩, ⟨⟨"../snap/../test1"⟩, ["test1"]⟩]

theorem isTree_snap {s : Store} (h : s.root.get? ["snap"] = some filledSnapshot) :
    s.IsTree ["snap"] :=
  Store.isTree_of_allSimple h allSimple_filledSnapshot

theorem isTree_home {s : Store} {location : List String}
    (h : s.root.get? location = some staleHome) : s.IsTree location :=
  Store.isTree_of_allSimple h allSimple_staleHome

theorem arranged_twoHomes : Arranged ⟨⟨"../snap/"⟩, ["snap"]⟩ twoSpots twoHomes.store where
  trees := List.forall_mem_cons.mpr ⟨isTree_snap rfl,
    List.forall_mem_cons.mpr ⟨isTree_home rfl, List.forall_mem_singleton.mpr (isTree_home rfl)⟩⟩
  apart := by decide
  reaches := by
    unfold Store.Reaches
    decide +kernel

theorem gives_of_isOk {op : Bringup σ Unit} (h : (op.run.run s).1.isOk = true) :
    Gives op s () (op.run.run s).2 := by
  rw [Gives]
  generalize op.run.run s = done at h
  obtain ⟨outcome, next⟩ := done
  cases outcome with
  | ok value => rfl
  | error cause => cases h

/-- A snapshot with nested and empty directories is copied into two homes with data of their own. -/
theorem received_of_copySnapshot_twoHomes :
    let copy := Seeder.copySnapshot Bench.surveying ⟨"../snap/"⟩ (twoSpots.map (·.path))
    let next := (copy.run.run twoHomes).2
    Arranged ⟨⟨"../snap/"⟩, ["snap"]⟩ twoSpots twoHomes.store ∧ Gives copy twoHomes () next ∧
      (∀ home ∈ twoSpots, Received ["snap"] home.location twoHomes.store next.store) ∧
      AgreeOutside (fun q ↦ ∃ home ∈ twoSpots, Replaced home.location q) twoHomes.store
        next.store ∧
      Twin twoHomes.store ["snap"] next.store ["snap"] := by
  intro copy next
  have hgives : Gives copy twoHomes () next := gives_of_isOk (by decide +kernel)
  exact ⟨arranged_twoHomes, hgives, received_of_copySnapshot Bench.actsOn_surveying
    Bench.surveys_surveying arranged_twoHomes hgives⟩

/-- A bench with a snapshot and one home of an earlier run. -/
def oneHome : Bench where
  store := { root := .directory [("snap", filledSnapshot), ("test0", staleHome)], here := [] }

/-- A snapshot that is reached through the data of a home is copied without its data. -/
theorem not_received_of_copySnapshot_through_data :
    let source : Path := ⟨"test0/data/../../snap"⟩
    let copy := Seeder.copySnapshot Bench.surveying source [⟨"test0"⟩]
    let next := (copy.run.run oneHome).2
    oneHome.store.IsTree ["snap"] ∧ oneHome.store.IsTree ["test0"] ∧
      Separate ["snap"] ["test0"] ∧ oneHome.store.Reaches source ["snap"] ∧
      oneHome.store.Reaches ⟨"test0"⟩ ["test0"] ∧ Gives copy oneHome () next ∧
      ¬Received ["snap"] ["test0"] oneHome.store next.store := by
  intro source copy next
  refine ⟨isTree_snap rfl, isTree_home rfl, by decide, ?_, ?_, gives_of_isOk (by decide +kernel), ?_⟩
  · unfold Store.Reaches
    decide +kernel
  · unfold Store.Reaches
    decide +kernel
  · intro hreceived
    have htwin := congrArg Option.isSome (hreceived.data [])
    have hdata : (oneHome.store.seenAt ["snap", dataDirectory]).isSome = true := by decide +kernel
    have hgone : (next.store.seenAt ["test0", dataDirectory]).isSome = false := by decide +kernel
    exact Bool.false_ne_true (hgone.symm.trans (htwin.trans hdata))

end BlockWatch
