import BlockWatch.Proofs.Cluster.Lodging
import Mathlib.Data.List.Pairwise

/-!
# Generated accounts

The program that generates accounts is run for one home after the other. As long as it changes nothing
but the home it is run for, each run finds its home as it was at first, and nothing happens afterwards
to what it has left there, whatever becomes of the runs for other homes. That much is asked of the
program only where nothing but other homes has changed, so that a path leads where it led at first.
-/

namespace BlockWatch

open Op (Gives gives_bind gives_pure run_bind run_adapt)
open Store (AgreeOutside Twin)

namespace Seeder

variable {σ : Type} {seeder : Seeder} {machine : Machine σ} {store : σ → Store} {accounts : UInt64}
  {home : Spot} {homes : List Spot} {s t s' t' : σ}

/-- What lies in another home than one. -/
def InOthers (homes : List Spot) (home : Spot) (q : List String) : Prop :=
  ∃ other ∈ homes, other ≠ home ∧ other.location <+: q

theorem not_inOthers
    (hapart : homes.Pairwise fun home other ↦ Separate home.location other.location)
    (hhome : home ∈ homes) {q : List String} (hq : home.location <+: q) :
    ¬InOthers homes home q := by
  rintro ⟨other, hother, hne, hinner⟩
  have hsymm : Std.Symm fun home other : Spot ↦ Separate home.location other.location :=
    ⟨fun _ _ h ↦ h.symm⟩
  exact (hapart.forall hother hhome hne).not_both hinner hq

/-- Whether or not it succeeds, the program changes nothing but the home it is run for, at least where
everything but other homes is as it was at first. -/
def Confines (seeder : Seeder) (machine : Machine σ) (store : σ → Store) (accounts : UInt64)
    (homes : List Spot) (s : σ) : Prop :=
  ∀ home ∈ homes, ∀ t, AgreeOutside (InOthers homes home) (store s) (store t) →
    AgreeOutside (home.location <+: ·) (store t)
      (store ((machine.run (seeder.populateCommand accounts home.path)).run.run t).2)

theorem Confines.mono {more : List Spot} (h : seeder.Confines machine store accounts more s)
    (hmore : ∀ home ∈ homes, home ∈ more) : seeder.Confines machine store accounts homes s :=
  fun home hhome t hagree ↦ h home (hmore home hhome) t <|
    hagree.mono fun _ ⟨other, hother, hne, hq⟩ ↦ ⟨other, hmore other hother, hne, hq⟩

/-- Once it was run for a home, the program is as confined to the later ones. -/
theorem Confines.after (h : seeder.Confines machine store accounts (home :: homes) s)
    (hapart : ∀ other ∈ homes, Separate home.location other.location)
    (hagree : AgreeOutside (home.location <+: ·) (store s) (store t)) :
    seeder.Confines machine store accounts homes t := by
  intro other hother u hlater
  have hne : home ≠ other := by
    rintro rfl
    exact (hapart home hother).1 List.prefix_rfl
  apply h other (List.mem_cons_of_mem _ hother) u
  refine (hagree.mono fun q hq ↦ ⟨home, List.mem_cons_self, hne, hq⟩).trans
    (hlater.mono fun q ⟨third, hthird, hdiffers, hq⟩ ↦ ?_)
  exact ⟨third, List.mem_cons_of_mem _ hthird, hdiffers, hq⟩

/-- The program was run for a home as it was at first, it succeeded, and what it left is there still. -/
def Populated (seeder : Seeder) (machine : Machine σ) (store : σ → Store) (accounts : UInt64)
    (home : Spot) (s s' : σ) : Prop :=
  ∃ t t', Twin (store s) home.location (store t) home.location ∧
    Gives (runToEnd machine (seeder.populateCommand accounts home.path)) t () t' ∧
      Twin (store t') home.location (store s') home.location

/-- What a command leaves does not depend on how it is judged. -/
theorem state_runToEnd (machine : Machine σ) (command : Command) (s : σ) :
    ((runToEnd machine command).run.run s).2 = ((machine.run command).run.run s).2 := by
  rw [runToEnd, run_bind, run_adapt]
  rcases (machine.run command).run.run s with ⟨cause | finished, next⟩
  · rfl
  · dsimp only [Except.mapError]
    split_ifs <;> rfl

theorem agree_of_runToEnd (hconfines : seeder.Confines machine store accounts homes s)
    (hhome : home ∈ homes) (hfound : AgreeOutside (InOthers homes home) (store s) (store t))
    {outcome : Except (Stop BringupError) Unit}
    (h : (runToEnd machine (seeder.populateCommand accounts home.path)).run.run t = (outcome, t')) :
    AgreeOutside (home.location <+: ·) (store t) (store t') := by
  have hagree := hconfines home hhome t hfound
  rwa [← state_runToEnd, h] at hagree

/-- What happens in other homes neither matters to a run nor undoes it. -/
theorem Populated.between {before after : List String → Prop}
    (h : seeder.Populated machine store accounts home t t')
    (hagree : AgreeOutside before (store s) (store t))
    (hbefore : ∀ q, home.location <+: q → ¬before q)
    (hagree' : AgreeOutside after (store t') (store s'))
    (hafter : ∀ q, home.location <+: q → ¬after q) :
    seeder.Populated machine store accounts home s s' := by
  obtain ⟨u, u', hfound, hrun, hleft⟩ := h
  refine ⟨u, u', fun rest ↦ ?_, hrun, fun rest ↦ ?_⟩
  · exact (hfound rest).trans (hagree.seenAt _ (hbefore _ (List.prefix_append _ _)))
  · exact (hagree'.seenAt _ (hafter _ (List.prefix_append _ _))).trans (hleft rest)

theorem populated_of_populate (hconfines : seeder.Confines machine store accounts homes s)
    (hapart : homes.Pairwise fun home other ↦ Separate home.location other.location)
    (h : Gives (seeder.populate machine accounts (homes.map (·.path))) s () s') :
    AgreeOutside (fun q ↦ ∃ home ∈ homes, home.location <+: q) (store s) (store s') ∧
      ∀ home ∈ homes, seeder.Populated machine store accounts home s s' := by
  induction homes generalizing s with
  | nil =>
    obtain ⟨-, rfl⟩ := gives_pure h
    exact ⟨.refl _ _, fun _ hhome ↦ absurd hhome List.not_mem_nil⟩
  | cons home rest ih =>
    obtain ⟨hseparate, hpairs⟩ := List.pairwise_cons.mp hapart
    obtain ⟨_, s₁, hrun, hrest⟩ := gives_bind h
    have hagree := agree_of_runToEnd hconfines List.mem_cons_self (.refl _ _) hrun
    obtain ⟨hagrees, hpopulated⟩ := ih (hconfines.after hseparate hagree) hpairs hrest
    have hfirst : seeder.Populated machine store accounts home s s₁ :=
      ⟨s, s₁, fun _ ↦ rfl, hrun, fun _ ↦ rfl⟩
    refine ⟨?_, List.forall_mem_cons.mpr ⟨?_, fun other hother ↦ ?_⟩⟩
    · exact (hagree.mono fun q hq ↦ ⟨home, List.mem_cons_self, hq⟩).trans
        (hagrees.mono fun q ⟨other, hother, hq⟩ ↦ ⟨other, List.mem_cons_of_mem _ hother, hq⟩)
    · refine hfirst.between (.refl (fun _ ↦ False) _) (fun _ _ ↦ id) hagrees ?_
      rintro q hq ⟨other, hother, hinner⟩
      exact (hseparate other hother).not_both hq hinner
    · exact (hpopulated other hother).between hagree
        (fun q hq hinner ↦ (hseparate other hother).not_both hinner hq)
        (.refl (fun _ ↦ False) _) fun _ _ ↦ id

end Seeder

end BlockWatch
