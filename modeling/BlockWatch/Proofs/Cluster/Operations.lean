import BlockWatch.Bench
import BlockWatch.Proofs.Store.Files

/-!
# Operations that succeed

A machine acts on a store if what its file operations report and leave, once they succeed, is what
the operations of the store report and leave; any of them may fail at will. What bringup does on
such a machine is then told by its store.
-/

namespace BlockWatch

variable {σ ε φ α β : Type}

namespace Op

variable {s s' s'' : σ}

/-- From a state on, the operation gives a value and leaves another state. -/
def Gives (op : Op σ ε α) (s : σ) (value : α) (s' : σ) : Prop :=
  op.run.run s = (.ok value, s')

theorem run_bind (op : Op σ ε α) (f : α → Op σ ε β) (s : σ) :
    (op >>= f).run.run s =
      match op.run.run s with
      | (.ok value, s') => (f value).run.run s'
      | (.error cause, s') => (.error cause, s') := by
  change (match op.run.run s with
    | (outcome, s') => (match outcome with
      | .ok value => f value
      | .error cause => pure (.error cause) : StateM σ (Except ε β)).run s') = _
  rcases op.run.run s with ⟨cause | value, s'⟩ <;> rfl

theorem gives_bind {op : Op σ ε α} {f : α → Op σ ε β} {last : β}
    (h : Gives (op >>= f) s last s'') :
    ∃ value s', Gives op s value s' ∧ Gives (f value) s' last s'' := by
  unfold Gives at h
  rw [run_bind] at h
  generalize hop : op.run.run s = done at h
  obtain ⟨outcome, s'⟩ := done
  cases outcome with
  | ok value => exact ⟨value, s', hop, h⟩
  | error cause => cases h

theorem Gives.bind {op : Op σ ε α} {f : α → Op σ ε β} {value : α} {last : β}
    (h : Gives op s value s') (hmore : Gives (f value) s' last s'') :
    Gives (op >>= f) s last s'' := by
  unfold Gives at h ⊢
  rw [run_bind, h]
  exact hmore

theorem gives_pure {value last : α} (h : Gives (pure value : Op σ ε α) s last s') :
    last = value ∧ s' = s := by
  cases h
  exact ⟨rfl, rfl⟩

theorem run_adapt (op : Op σ ε α) (wrap : ε → φ) (s : σ) :
    (op.adapt wrap).run.run s = ((op.run.run s).1.mapError wrap, (op.run.run s).2) :=
  rfl

theorem Gives.adapt {op : Op σ ε α} {value : α} (h : Gives op s value s') (wrap : ε → φ) :
    Gives (op.adapt wrap) s value s' := by
  unfold Gives at h ⊢
  rw [run_adapt, h]
  rfl

theorem gives_adapt {op : Op σ ε α} {wrap : ε → φ} {value : α}
    (h : Gives (op.adapt wrap) s value s') : Gives op s value s' := by
  unfold Gives at h ⊢
  rw [run_adapt] at h
  generalize op.run.run s = done at h
  obtain ⟨outcome, next⟩ := done
  cases outcome with
  | ok found =>
    cases h
    rfl
  | error cause => cases h

end Op

namespace Bringup

open Op (Gives)

variable {s s' : σ} {value : α}

theorem gives_ofExcept {outcome : Except (Stop BringupError) α}
    (h : Gives (ofExcept outcome) s value s') : outcome = .ok value ∧ s' = s := by
  obtain ⟨houtcome, hstate⟩ := Prod.mk.inj h
  exact ⟨houtcome, hstate.symm⟩

theorem not_gives_fail {cause : BringupError} : ¬Gives (fail cause : Bringup σ α) s value s' :=
  fun h ↦ nomatch h

/-- What is asked without a chance to fail is answered. -/
theorem gives_lift {look : StateM σ α} (h : Gives (liftM look : Bringup σ α) s value s') :
    look.run s = (value, s') := by
  change (Except.ok (look.run s).1, (look.run s).2) = (Except.ok value, s') at h
  obtain ⟨hvalue, hs'⟩ := Prod.mk.inj h
  exact Prod.ext (Except.ok.inj hvalue) hs'

end Bringup

/-! ## Machines and stores -/

/-- Whatever succeeds on the machine does to its store what the store's operation does. -/
structure Machine.ActsOn (machine : Machine σ) (store : σ → Store) : Prop where
  exists_ : ∀ path s, store ((machine.exists_ path).run.run s).2 = store s
  readText : ∀ path s text s', Op.Gives (machine.readText path) s text s' →
    store s' = store s ∧ (store s).readText path = .ok text
  writeText : ∀ path text s s', Op.Gives (machine.writeText path text) s () s' →
    (store s).writeBytes path text.toUTF8 = .ok (store s')
  makeDirectories : ∀ path s s', Op.Gives (machine.makeDirectories path) s () s' →
    (store s).makeDirectories path = .ok (store s')
  removeTree : ∀ path s s', Op.Gives (machine.removeTree path) s () s' →
    (store s).removeTree path = .ok (store s')
  copyFile : ∀ source target s s', Op.Gives (machine.copyFile source target) s () s' →
    (store s).copyFile source target = .ok (store s')
  /-- The entries of a directory have names of their own. -/
  list : ∀ path s entries s', Op.Gives (machine.list path) s entries s' →
    store s' = store s ∧ ∀ entry ∈ entries, ProperName entry.name
  createFile : ∀ path s s', Op.Gives (machine.createFile path) s () s' →
    (store s).writeBytes path .empty = .ok (store s')

/-- What is known to be there was answered so. -/
theorem Machine.run_isThere (machine : Machine σ) (path : Path) (s : σ) :
    (machine.isThere path).run s =
      (((machine.exists_ path).run.run s).1.toOption.getD false,
        ((machine.exists_ path).run.run s).2) := by
  rw [isThere, StateT.run_bind]
  rcases (machine.exists_ path).run.run s with ⟨cause | there, next⟩ <;> rfl

theorem Machine.gives_answer (machine : Machine σ) (path : Path) (s : σ) :
    Op.Gives (liftM (machine.isThere path) : Op σ ε Bool) s
      (((machine.exists_ path).run.run s).1.toOption.getD false)
      ((machine.exists_ path).run.run s).2 := by
  change (Except.ok ((machine.isThere path).run s).1, ((machine.isThere path).run s).2) = _
  rw [machine.run_isThere path s]

theorem Machine.isThere_gives {machine : Machine σ} {path : Path} {there : Bool} {s s' : σ}
    (h : Op.Gives (machine.exists_ path) s there s') :
    Op.Gives (liftM (machine.isThere path) : Op σ ε Bool) s there s' := by
  have hanswer := machine.gives_answer (ε := ε) path s
  rwa [h] at hanswer

/-- What is known of a process is what was asked for. -/
theorem Machine.gives_lookAfter {machine : Machine σ} {process : ℕ} {status : Option ExitStatus}
    {s s' : σ} (h : Op.Gives (machine.lookAfter process) s status s') :
    Op.Gives (machine.ended? process) s status s' := by
  change machine.lookAfter process s = (.ok status, s') at h
  rw [lookAfter] at h
  unfold Op.Gives
  generalize (machine.ended? process).run.run s = done at h
  obtain ⟨outcome, next⟩ := done
  cases outcome with
  | ok found => exact h
  | error cause => cases h

section Machine

open Op (Gives gives_bind gives_adapt)

variable {machine : Machine σ} {store : σ → Store} {s s' : σ} {path : Path}

theorem gives_isThere (hacts : machine.ActsOn store) {there : Bool}
    (h : Gives (liftM (machine.isThere path) : Bringup σ Bool) s there s') :
    store s' = store s := by
  have hstate := congrArg Prod.snd (machine.run_isThere path s)
  rw [Bringup.gives_lift h] at hstate
  calc
    store s' = store ((machine.exists_ path).run.run s).2 := congrArg store hstate
    _ = store s := hacts.exists_ path s

theorem gives_readObject (hacts : machine.ActsOn store) {members : Json.Members}
    (h : Gives (readObject machine path) s members s') :
    store s' = store s ∧ (store s).document? path = some (.object members) := by
  obtain ⟨text, next, hread, hparse⟩ := gives_bind h
  obtain ⟨hstore, htext⟩ := hacts.readText path s text next (gives_adapt hread)
  obtain ⟨hobject, rfl⟩ := Bringup.gives_ofExcept hparse
  refine ⟨hstore, ?_⟩
  rw [Store.document?, htext]
  rw [objectOf] at hobject
  split at hobject
  next found hfound =>
    obtain rfl := Except.ok.inj hobject
    change (Json.Value.ofText text).toOption = _
    rw [hfound]
    rfl
  all_goals cases hobject

/-- A patched file held an object and was written anew. -/
theorem gives_patchFile (hacts : machine.ActsOn store) {changes : List (String × Json.Value)}
    (h : Gives (patchFile machine path changes) s () s') : ∃ members,
      (store s).document? path = some (.object members) ∧
      (store s).writeBytes path
        (Json.Value.object (Json.DottedPath.setAll members changes)).pretty.toUTF8 =
          .ok (store s') := by
  obtain ⟨members, next, hread, hwrite⟩ := gives_bind h
  obtain ⟨hstore, hdocument⟩ := gives_readObject hacts hread
  have hwritten := hacts.writeText path _ next s' (gives_adapt hwrite)
  rw [hstore] at hwritten
  exact ⟨members, hdocument, hwritten⟩

/-- A command that was run to its end succeeded. -/
theorem gives_runToEnd {command : Command} (h : Gives (runToEnd machine command) s () s') :
    ∃ finished, Gives (machine.run command) s finished s' ∧
      finished.status.isSuccess = true := by
  obtain ⟨finished, next, hrun, hcheck⟩ := gives_bind h
  by_cases hsuccess : finished.status.isSuccess = true
  · rw [if_pos hsuccess] at hcheck
    obtain ⟨-, rfl⟩ := Op.gives_pure hcheck
    exact ⟨finished, gives_adapt hrun, hsuccess⟩
  · rw [if_neg hsuccess] at hcheck
    exact absurd hcheck Bringup.not_gives_fail

end Machine

/-! ## Benches -/

namespace Bench

open Op (Gives)

/-- The bench as a machine on which all programs succeed at once and change the store as they are
given to do. -/
def running (run start : Command → Store → Store) : Machine Bench :=
  { machine with
    run := fun command ↦ do
      modify fun bench ↦ { bench with store := run command bench.store }
      pure { status := .exited 0, complaint := "" }
    start := fun command _ _ ↦ do
      modify fun bench ↦ { bench with store := start command bench.store }
      pure 0 }

variable {s s' : Bench} {α : Type}

theorem run_look_eq (f : Store → Store.Result α) (s : Bench) :
    (look f).run.run s = (match f s.store with
      | .ok value => pure value
      | .error cause => throw cause : Op Bench IoError α).run.run s :=
  rfl

theorem run_look (f : Store → Store.Result α) (s : Bench) :
    (look f).run.run s = (f s.store, s) := by
  rw [run_look_eq]
  cases f s.store <;> rfl

theorem gives_look {f : Store → Store.Result α} {value : α} (h : Gives (look f) s value s') :
    s'.store = s.store ∧ f s.store = .ok value := by
  rw [Gives, run_look] at h
  obtain ⟨hvalue, rfl⟩ := Prod.mk.inj h
  exact ⟨rfl, hvalue⟩

theorem look_gives {f : Store → Store.Result α} {value : α} (h : f s.store = .ok value) :
    Gives (look f) s value s := by
  rw [Gives, run_look, h]

theorem gives_change {f : Store → Store.Result Store} (h : Gives (change f) s () s') :
    f s.store = .ok s'.store := by
  obtain ⟨store, next, hlook, hmodify⟩ := Op.gives_bind h
  rw [Gives, run_look] at hlook
  obtain ⟨hstore, rfl⟩ := Prod.mk.inj hlook
  obtain ⟨-, rfl⟩ := Prod.mk.inj hmodify
  exact hstore

/-- Whatever its scripts do, the bench acts on its store. -/
theorem actsOn_machine : machine.ActsOn Bench.store where
  exists_ path s := by
    change ((look (·.isThere path)).run.run s).2.store = s.store
    rw [run_look]
  readText path _ _ _ h := gives_look (f := (·.readText path)) h
  writeText _ _ _ _ h := gives_change h
  makeDirectories _ _ _ h := gives_change h
  removeTree _ _ _ h := gives_change h
  copyFile _ _ _ _ h := gives_change h
  list path s entries s' h := by
    obtain ⟨hstore, hlist⟩ := gives_look (f := fun store ↦ (store.list path).map listed) h
    refine ⟨hstore, ?_⟩
    cases hfound : s.store.list path with
    | error cause =>
      rw [hfound] at hlist
      cases hlist
    | ok found =>
      rw [hfound] at hlist
      obtain rfl := Except.ok.inj hlist
      intro name hname
      obtain ⟨entry, hentry, rfl⟩ := List.mem_map.mp hname
      exact of_decide_eq_true (List.mem_filter.mp hentry).2
  createFile _ _ _ h := gives_change h

/-- So does the bench with other programs. -/
theorem actsOn_running (run start : Command → Store → Store) :
    (running run start).ActsOn Bench.store where
  exists_ := actsOn_machine.exists_
  readText := actsOn_machine.readText
  writeText := actsOn_machine.writeText
  makeDirectories := actsOn_machine.makeDirectories
  removeTree := actsOn_machine.removeTree
  copyFile := actsOn_machine.copyFile
  list := actsOn_machine.list
  createFile := actsOn_machine.createFile

end Bench

end BlockWatch
