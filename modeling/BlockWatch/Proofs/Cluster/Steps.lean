import BlockWatch.Cluster.Seeding
import BlockWatch.Proofs.Cluster.Operations

/-!
# Steps of a seeding

Seeding asks its machine for one thing after the other, and it stops at the first one that fails. So
what it does from a state on is what its steps do in a row, and if it fails, the last of them failed
with its error. The steps for a home ask for nothing in another one.
-/

namespace BlockWatch

variable {σ ε φ α β : Type}

namespace Op

variable {s s' s'' : σ}

/-- From a state on, the operation fails and leaves another state. -/
def Fails (op : Op σ ε α) (s : σ) (cause : ε) (s' : σ) : Prop :=
  op.run.run s = (.error cause, s')

theorem fails_bind {op : Op σ ε α} {f : α → Op σ ε β} {cause : ε}
    (h : Fails (op >>= f) s cause s'') :
    Fails op s cause s'' ∨ ∃ value s', Gives op s value s' ∧ Fails (f value) s' cause s'' := by
  unfold Fails at h
  rw [run_bind] at h
  generalize hop : op.run.run s = done at h
  obtain ⟨outcome, s'⟩ := done
  cases outcome with
  | ok value => exact .inr ⟨value, s', hop, h⟩
  | error found =>
    cases h
    exact .inl hop

theorem Fails.bind {op : Op σ ε α} {cause : ε} (h : Fails op s cause s') (f : α → Op σ ε β) :
    Fails (op >>= f) s cause s' := by
  unfold Fails at h ⊢
  rw [run_bind, h]

theorem not_fails_pure {value : α} {cause : ε} :
    ¬Fails (pure value : Op σ ε α) s cause s' := fun h ↦ nomatch h

theorem fails_throw {cause stop : ε} (h : Fails (throw cause : Op σ ε α) s stop s') :
    stop = cause ∧ s' = s := by
  obtain ⟨hcause, hstate⟩ := Prod.mk.inj h
  exact ⟨(Except.error.inj hcause).symm, hstate.symm⟩

theorem fails_adapt {op : Op σ ε α} {wrap : ε → φ} {stop : φ}
    (h : Fails (op.adapt wrap) s stop s') : ∃ cause, Fails op s cause s' ∧ stop = wrap cause := by
  unfold Fails at h ⊢
  rw [run_adapt] at h
  generalize op.run.run s = done at h
  obtain ⟨outcome, next⟩ := done
  cases outcome with
  | ok found => cases h
  | error cause =>
    cases h
    exact ⟨cause, rfl, rfl⟩

theorem not_fails_lift {look : StateM σ α} {cause : ε} :
    ¬Fails (liftM look : Op σ ε α) s cause s' := fun h ↦ nomatch (Prod.mk.inj h).1

end Op

open Op (Gives Fails gives_bind gives_pure fails_bind not_fails_pure fails_throw)

/-! ## One home after the other -/

namespace Seeder

variable {machine : Machine σ} {act : Path → Bringup σ Unit} {s s' : σ}

theorem populate_eq_forM (seeder : Seeder) (machine : Machine σ) (accounts : UInt64)
    (homes : List Path) : seeder.populate machine accounts homes =
      homes.forM fun home ↦ runToEnd machine (seeder.populateCommand accounts home) := by
  induction homes with
  | nil => rfl
  | cons home rest ih =>
    rw [populate, ih]
    rfl

theorem copyIntoAll_eq_forM (machine : Machine σ) (source : Path) (homes : List Path) :
    copyIntoAll machine source homes = homes.forM (copyInto machine source) := by
  induction homes with
  | nil => rfl
  | cons home rest ih =>
    rw [copyIntoAll, ih]
    rfl

/-- What fails in one home after the other has succeeded in those before one, fails there, and is not
begun in those after it. -/
theorem exists_home_of_fails {κ : Type} {path : κ → Path} {homes : List κ}
    {stop : Stop BringupError} (h : Fails ((homes.map path).forM act) s stop s') :
    ∃ before home after s₁, homes = before ++ home :: after ∧
      Gives ((before.map path).forM act) s () s₁ ∧ Fails (act (path home)) s₁ stop s' := by
  induction homes generalizing s with
  | nil => exact absurd h not_fails_pure
  | cons first rest ih =>
    have hrun : Fails (act (path first) >>= fun _ ↦ (rest.map path).forM act) s stop s' := h
    rcases fails_bind hrun with hfirst | ⟨_, t, hfirst, hrest⟩
    · exact ⟨[], first, rest, s, rfl, rfl, hfirst⟩
    · obtain ⟨before, home, after, s₁, rfl, hbefore, hhome⟩ := ih hrest
      exact ⟨first :: before, home, after, s₁, rfl, hfirst.bind hbefore, hhome⟩

end Seeder

/-! ## Steps -/

/-- One thing that seeding asks of a machine. -/
inductive SeedStep
  | look (path : Path)
  | copyFile (source target reported : Path)
  | removeTree (path : Path)
  | makeDirectories (path : Path)
  | list (path : Path)
  /-- A directory that lies too deep is not entered. -/
  | turnBack (source : Path)
  | run (command : Command)

namespace SeedStep

/-- Takes a step, whatever it finds. -/
def perform (machine : Machine σ) : SeedStep → Bringup σ Unit
  | look path => do
    let _ ← machine.isThere path
  | copyFile source target reported => Bringup.atPath reported (machine.copyFile source target)
  | removeTree path => Bringup.atPath path (machine.removeTree path)
  | makeDirectories path => Bringup.atPath path (machine.makeDirectories path)
  | list path => do
    let _ ← Bringup.atPath path (machine.list path)
  | turnBack source => Bringup.fail (.io source (.system 36))
  | run command => runToEnd machine command

def performAll (machine : Machine σ) (steps : List SeedStep) : Bringup σ Unit :=
  steps.forM (perform machine)

theorem performAll_append {machine : Machine σ} {steps more : List SeedStep} {s s' s'' : σ}
    (h : Gives (performAll machine steps) s () s')
    (hmore : Gives (performAll machine more) s' () s'') :
    Gives (performAll machine (steps ++ more)) s () s'' := by
  induction steps generalizing s with
  | nil =>
    obtain ⟨-, rfl⟩ := gives_pure h
    exact hmore
  | cons step rest ih =>
    obtain ⟨_, t, hstep, hrest⟩ := gives_bind h
    exact hstep.bind (ih hrest)

/-- The step is one for a snapshot and a home: it asks for nothing else, and it runs no command. -/
def Serves (source home : Path) : SeedStep → Prop
  | look path => ∃ names, path = source.below names ∨ path = home.below names
  | copyFile inner copy reported =>
    ∃ names, inner = source.below names ∧ copy = home.below names ∧
      (reported = inner ∨ reported = copy)
  | removeTree path => ∃ names, path = home.below names
  | makeDirectories path => ∃ names, path = home.below names
  | list path => ∃ names, path = source.below names
  | turnBack path => ∃ names, path = source.below names
  | run _ => False

end SeedStep

open SeedStep (perform performAll Serves)

/-- Whatever an operation does is done by allowed steps in a row, and its error is that of the last
one. -/
structure Bringup.Takes (machine : Machine σ) (allowed : SeedStep → Prop) (op : Bringup σ α) :
    Prop where
  gives : ∀ {s value s'}, Gives op s value s' → ∃ steps,
    (∀ step ∈ steps, allowed step) ∧ Gives (performAll machine steps) s () s'
  fails : ∀ {s stop s'}, Fails op s stop s' → ∃ steps step s₁,
    (∀ step ∈ steps, allowed step) ∧ allowed step ∧
      Gives (performAll machine steps) s () s₁ ∧ Fails (step.perform machine) s₁ stop s'

namespace Bringup

variable {machine : Machine σ} {allowed more : SeedStep → Prop} {op : Bringup σ α}

theorem takes_pure (value : α) : Takes machine allowed (pure value : Bringup σ α) where
  gives {s _ _} h := by
    obtain ⟨-, rfl⟩ := gives_pure h
    exact ⟨[], nofun, rfl⟩
  fails h := absurd h not_fails_pure

theorem Takes.bind {f : α → Bringup σ β} (h : Takes machine allowed op)
    (hf : ∀ value, Takes machine allowed (f value)) : Takes machine allowed (op >>= f) where
  gives hgives := by
    obtain ⟨value, s₁, hop, hrest⟩ := gives_bind hgives
    obtain ⟨steps, hsteps, hdone⟩ := h.gives hop
    obtain ⟨others, hothers, hlater⟩ := (hf value).gives hrest
    exact ⟨steps ++ others, List.forall_mem_append.mpr ⟨hsteps, hothers⟩,
      SeedStep.performAll_append hdone hlater⟩
  fails hfails := by
    rcases fails_bind hfails with hop | ⟨value, s₁, hop, hrest⟩
    · exact h.fails hop
    · obtain ⟨steps, hsteps, hdone⟩ := h.gives hop
      obtain ⟨others, step, s₂, hothers, hstep, hlater, hlast⟩ := (hf value).fails hrest
      exact ⟨steps ++ others, step, s₂, List.forall_mem_append.mpr ⟨hsteps, hothers⟩, hstep,
        SeedStep.performAll_append hdone hlater, hlast⟩

theorem Takes.mono (h : Takes machine allowed op) (hmore : ∀ step, allowed step → more step) :
    Takes machine more op where
  gives hgives := by
    obtain ⟨steps, hsteps, hdone⟩ := h.gives hgives
    exact ⟨steps, fun step hmem ↦ hmore step (hsteps step hmem), hdone⟩
  fails hfails := by
    obtain ⟨steps, step, s₁, hsteps, hstep, hrest⟩ := h.fails hfails
    exact ⟨steps, step, s₁, fun done hmem ↦ hmore done (hsteps done hmem), hmore step hstep, hrest⟩

/-- An operation that is one step, up to what it finds. -/
theorem takes_of_perform (step : SeedStep) (hallowed : allowed step)
    (h : step.perform machine = op >>= fun _ ↦ pure ()) : Takes machine allowed op where
  gives {s _ s'} hgives := by
    have hstep : Gives (step.perform machine) s () s' := h ▸ hgives.bind rfl
    exact ⟨[step], List.forall_mem_singleton.mpr hallowed, hstep.bind rfl⟩
  fails {s stop s'} hfails := by
    have hstep : Fails (step.perform machine) s stop s' := h ▸ hfails.bind _
    exact ⟨[], step, s, nofun, hallowed, rfl, hstep⟩

theorem takes_perform (step : SeedStep) (hallowed : allowed step) :
    Takes machine allowed (step.perform machine) :=
  takes_of_perform step hallowed (bind_pure _).symm

end Bringup

/-! ## The steps of copies -/

namespace Seeder

open Bringup (Takes takes_pure takes_of_perform takes_perform)

/-- Copies one entry of a directory. -/
def copyEntry (machine : Machine σ) (copyDirectory : Path → Path → Bringup σ Unit)
    (source target : Path) (entry : Listed) : Bringup σ Unit :=
  if entry.isDirectory then copyDirectory (source.child entry.name) (target.child entry.name)
  else Bringup.atPath (source.child entry.name)
    (machine.copyFile (source.child entry.name) (target.child entry.name))

theorem copyEntries_cons (machine : Machine σ)
    (copyDirectory : Path → Path → Bringup σ Unit) (source target : Path) (entry : Listed)
    (rest : List Listed) :
    copyEntries machine copyDirectory source target (entry :: rest) = (do
      copyEntry machine copyDirectory source target entry
      copyEntries machine copyDirectory source target rest) := by
  rw [copyEntries, copyEntry]
  dsimp only
  split_ifs <;> rfl

/-- Removes what is in the way of a copy of the data. -/
def clearData (machine : Machine σ) (home : Path) : Bringup σ Unit := do
  if ← machine.isThere (home.child dataDirectory) then
    Bringup.atPath (home.child dataDirectory) (machine.removeTree (home.child dataDirectory))

/-- Copies the data if there is any. -/
def copyData (machine : Machine σ) (source home : Path) : Bringup σ Unit := do
  if ← machine.isThere (source.child dataDirectory) then
    copyTree machine maxDepth (source.child dataDirectory) (home.child dataDirectory)

theorem copyInto_eq (machine : Machine σ) (source home : Path) :
    copyInto machine source home = (do
      Bringup.atPath (home.child genesisFile)
        (machine.copyFile (source.child genesisFile) (home.child genesisFile))
      clearData machine home
      copyData machine source home) := by
  simp only [copyInto, clearData, bind_assoc]
  congr
  funext _
  congr
  funext there
  split_ifs <;> rfl

variable {machine : Machine σ} {source home : Path}

theorem takes_look {path : Path}
    (hpath : ∃ names, path = source.below names ∨ path = home.below names) :
    Takes machine (Serves source home) (liftM (machine.isThere path) : Bringup σ Bool) :=
  takes_of_perform (.look path) hpath rfl

theorem takes_copyEntries {copyDirectory : Path → Path → Bringup σ Unit} {names : List String}
    (hcopy : ∀ name, Takes machine (Serves source home)
      (copyDirectory (source.below (names ++ [name])) (home.below (names ++ [name]))))
    (entries : List Listed) : Takes machine (Serves source home)
      (copyEntries machine copyDirectory (source.below names) (home.below names) entries) := by
  induction entries with
  | nil => exact takes_pure ()
  | cons entry rest ih =>
    rw [copyEntries_cons]
    refine Takes.bind ?_ fun _ ↦ ih
    rw [copyEntry, ← Store.below_concat, ← Store.below_concat]
    split_ifs
    · exact hcopy entry.name
    · exact takes_perform (.copyFile _ _ _) ⟨_, rfl, rfl, .inl rfl⟩

theorem takes_copyTree (depth : ℕ) (names : List String) : Takes machine (Serves source home)
    (copyTree machine depth (source.below names) (home.below names)) := by
  induction depth generalizing names with
  | zero => exact takes_perform (.turnBack _) ⟨names, rfl⟩
  | succ depth ih =>
    refine (takes_perform (.makeDirectories _) ⟨names, rfl⟩).bind fun _ ↦ ?_
    refine (takes_of_perform (.list (source.below names)) ⟨names, rfl⟩ rfl).bind fun entries ↦ ?_
    exact takes_copyEntries (fun name ↦ ih (names ++ [name])) entries

theorem takes_copyInto (source home : Path) :
    Takes machine (Serves source home) (copyInto machine source home) := by
  rw [copyInto_eq]
  refine (takes_perform (.copyFile _ _ _) ⟨[genesisFile], rfl, rfl, .inr rfl⟩).bind fun _ ↦ ?_
  refine Takes.bind ?_ fun _ ↦ ?_
  · refine (takes_look ⟨[dataDirectory], .inr rfl⟩).bind fun there ↦ ?_
    split_ifs
    · exact takes_perform (.removeTree _) ⟨[dataDirectory], rfl⟩
    · exact takes_pure ()
  · refine (takes_look ⟨[dataDirectory], .inl rfl⟩).bind fun there ↦ ?_
    split_ifs
    · exact takes_copyTree maxDepth [dataDirectory]
    · exact takes_pure ()

theorem takes_forM {κ : Type} {act : Path → Bringup σ Unit} {path : κ → Path}
    {serves : κ → SeedStep → Prop} (hact : ∀ home, Takes machine (serves home) (act (path home)))
    (homes : List κ) : Takes machine (fun step ↦ ∃ home ∈ homes, serves home step)
      ((homes.map path).forM act) := by
  induction homes with
  | nil => exact takes_pure ()
  | cons home rest ih =>
    have hhome : Takes machine (fun step ↦ ∃ other ∈ home :: rest, serves other step)
        (act (path home)) :=
      (hact home).mono fun step hstep ↦ ⟨home, List.mem_cons_self, hstep⟩
    refine hhome.bind fun _ ↦ ?_
    exact ih.mono fun step ⟨other, hother, hstep⟩ ↦ ⟨other, List.mem_cons_of_mem _ hother, hstep⟩

end Seeder

end BlockWatch
