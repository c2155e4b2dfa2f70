import BlockWatch.Proofs.Cluster.Copying

/-!
# Where homes are found

The path of a home leads to a directory, or to where there is none yet. In a home that is none nothing
can be made, and what happens elsewhere leaves it so.
-/

namespace BlockWatch

open Op (Gives gives_bind gives_adapt)
open Store (AgreeOutside)

/-- A path and the location to which it leads. -/
structure Spot where
  path : Path
  location : List String

/-- What a copy replaces in a home. -/
def Replaced (location q : List String) : Prop :=
  location ++ [genesisFile] <+: q ∨ location ++ [dataDirectory] <+: q

theorem Separate.not_replaced {p q : List String} (h : Separate p q) {inner : List String}
    (hq : q <+: inner) : ¬Replaced p inner := by
  rintro (hp | hp)
  · exact h.not_prefix hq hp
  · exact h.not_prefix hq hp

/-- What is on the way to one of two separate places is not replaced in the other one. -/
theorem Separate.not_replaced_above {p q : List String} (h : Separate p q) {outer : List String}
    (hq : outer <+: q) : ¬Replaced p outer := by
  rintro (hp | hp)
  · exact h.1 ((List.prefix_append _ _).trans (hp.trans hq))
  · exact h.1 ((List.prefix_append _ _).trans (hp.trans hq))

/-- A path leads to a location by its last names, whether or not they are there, and by no link. -/
def Store.LeadsTo (ground t : Store) (path : Path) (location : List String) : Prop :=
  ∃ (anchor : Path) (base names : List String), path = anchor.below names ∧
    location = base ++ names ∧ (∀ name ∈ names, ProperName name) ∧ ground.Reaches anchor base ∧
    ∀ front, front <+: names → ∀ target, t.root.get? (base ++ front) ≠ some (.link target)

/-- How a home is found: its path leads to a directory, in which there are only directories and
files, or to where there is no directory. -/
inductive Lodged (ground : Store) (home : Spot) (t : Store) : Prop
  | housed (hreaches : ground.Reaches home.path home.location) (htree : t.IsTree home.location)
  | absent (hleads : ground.LeadsTo t home.path home.location)
    (hnone : t.seenAt home.location ≠ some (.directory []))

section Lodged

variable {ground t u : Store} {origin : List String} {home : Spot}

theorem Store.exists_locate_error (hleads : ground.LeadsTo t home.path home.location)
    (hnone : t.seenAt home.location ≠ some (.directory [])) (hroot : ground.root.Extends t.root)
    (hhere : t.here = ground.here) {last : String} (hlast : ProperName last) (follow : Bool) :
    ∃ cause, t.locate follow (home.path.child last) = .error cause := by
  obtain ⟨anchor, base, names, hpath, hlocation, hnames, hreaches, hlink⟩ := hleads
  rw [hlocation] at hnone
  have hmore : ∀ name ∈ names ++ [last], ProperName name :=
    List.forall_mem_append.mpr ⟨hnames, List.forall_mem_singleton.mpr hlast⟩
  obtain ⟨jump, hlocate⟩ := exists_locate_below (reaches_of_extends hreaches hroot hhere) hmore
    (by simp) follow
  rw [hpath, ← below_concat, hlocate]
  exact exists_error_of_walkIn hnames hlink
    (fun entries hentries ↦ hnone (seenAt_eq_directory_iff.mpr ⟨entries, hentries⟩)) last

/-- No file is copied to where no path leads. -/
theorem Store.copyFile_ne_ok {inner path : Path} {cause : IoError}
    (h : t.locate true path = .error cause) : t.copyFile inner path ≠ .ok u := by
  intro hcopy
  obtain ⟨⟨location, entry⟩, -, hmatch⟩ := bind_eq_ok hcopy
  cases entry with
  | file contents executable =>
    obtain ⟨altered, halter, -⟩ := bind_eq_ok hmatch
    rw [alter, h] at halter
    cases halter
  | _ => cases hmatch

theorem Lodged.of_agreeOutside {changed : List String → Prop} (h : Lodged ground home t)
    (hagree : AgreeOutside changed t u) (hbelow : ∀ q, home.location <+: q → ¬changed q)
    (habove : ∀ q, q <+: home.location → ¬changed q) : Lodged ground home u := by
  cases h with
  | housed hreaches htree => exact .housed hreaches (htree.of_agreeOutside hagree hbelow)
  | absent hleads hnone =>
    obtain ⟨anchor, base, names, hpath, hlocation, hnames, hreaches, hlink⟩ := hleads
    refine .absent ⟨anchor, base, names, hpath, hlocation, hnames, hreaches, ?_⟩ ?_
    · intro front hfront target htarget
      have hon : base ++ front <+: home.location := by
        rw [hlocation]
        exact (List.prefix_append_right_inj base).mpr hfront
      have hkept := hagree.seenAt _ (habove _ hon)
      rw [Store.seenAt, htarget] at hkept
      obtain ⟨found, hfound, hbare⟩ := Option.map_eq_some_iff.mp hkept.symm
      obtain rfl : found = .link target := by
        cases found with
        | link other => exact hbare
        | _ => cases hbare
      exact hlink front hfront target hfound
    · rwa [hagree.seenAt _ (hbelow _ List.prefix_rfl)]

/-- A home into which a snapshot was copied is a directory. -/
theorem Lodged.housed_of_copyInto {σ : Type} {machine : Machine σ} {store : σ → Store} {s s' : σ}
    {source : Path} (hacts : machine.ActsOn store) (h : Lodged ground home (store s))
    (hbears : Bears ground origin (store s))
    (hcopy : Gives (Seeder.copyInto machine source home.path) s () s') :
    ground.Reaches home.path home.location ∧ (store s).IsTree home.location := by
  cases h with
  | housed hreaches htree => exact ⟨hreaches, htree⟩
  | absent hleads hnone =>
    obtain ⟨cause, hlocate⟩ := Store.exists_locate_error hleads hnone hbears.ground hbears.here
      properName_genesisFile true
    obtain ⟨_, t, hgenesis, -⟩ := gives_bind hcopy
    exact absurd (hacts.copyFile _ _ _ _ (gives_adapt hgenesis)) (Store.copyFile_ne_ok hlocate)

end Lodged

end BlockWatch
