import BlockWatch.Proofs.Cluster.Ports

/-!
# Layouts that are refused

A layout is refused before anything is touched: the refusal is then all that laying it out does, on
any machine and in any state. A layout that has passed the check has ports for all of its nodes, and
whatever goes wrong on the machine from then on, the layout is not blamed.
-/

namespace BlockWatch

variable {σ ε φ α β : Type}

/-! ## Causes that never arise -/

namespace Op

/-- In no state does the operation fail for one of the causes. -/
def Avoids (op : Op σ ε α) (causes : ε → Prop) : Prop :=
  ∀ s cause s', op.run.run s = (.error cause, s') → ¬causes cause

variable {causes : ε → Prop}

theorem avoids_pure (value : α) : Avoids (pure value : Op σ ε α) causes :=
  fun _ _ _ h ↦ nomatch h

theorem avoids_throw {cause : ε} (h : ¬causes cause) :
    Avoids (throw cause : Op σ ε α) causes := by
  intro s reason s' hrun
  cases hrun
  exact h

theorem avoids_lift (look : StateM σ α) : Avoids (liftM look : Op σ ε α) causes := by
  intro s cause s' hrun
  change (Except.ok (look.run s).1, (look.run s).2) = (Except.error cause, s') at hrun
  cases (Prod.mk.inj hrun).1

theorem Avoids.bind {op : Op σ ε α} {f : α → Op σ ε β} (h : op.Avoids causes)
    (hf : ∀ value, (f value).Avoids causes) : (op >>= f).Avoids causes := by
  intro s cause s' hrun
  rw [run_bind] at hrun
  generalize hop : op.run.run s = done at hrun
  obtain ⟨outcome, next⟩ := done
  cases outcome with
  | ok value => exact hf value next cause s' hrun
  | error reason =>
    cases hrun
    exact h s cause s' hop

/-- A wrapped cause is what the wrapping makes of it. -/
theorem avoids_adapt (op : Op σ ε α) {wrap : ε → φ} {causes : φ → Prop}
    (h : ∀ cause, ¬causes (wrap cause)) : Avoids (op.adapt wrap) causes := by
  intro s cause s' hrun
  rw [run_adapt] at hrun
  generalize op.run.run s = done at hrun
  obtain ⟨outcome, next⟩ := done
  cases outcome with
  | ok value => cases (Prod.mk.inj hrun).1
  | error reason =>
    cases hrun
    exact h reason

end Op

open Op (Avoids avoids_pure avoids_throw avoids_lift avoids_adapt)

/-- The layout is blamed. -/
def Stop.BlamesLayout : Stop BringupError → Prop
  | .error (.invalidLayout _) => True
  | _ => False

/-! ## Work on files -/

namespace Bringup

theorem avoids_atPath (path : Path) (op : Op σ IoError α) :
    (atPath path op).Avoids Stop.BlamesLayout :=
  avoids_adapt op fun _ ↦ id

theorem ofExcept_ok_bind (value : α) (f : α → Bringup σ β) :
    ofExcept (.ok value) >>= f = f value := rfl

theorem avoids_ofExcept {outcome : Except (Stop BringupError) α} {causes : Stop BringupError → Prop}
    (h : ∀ cause, outcome = .error cause → ¬causes cause) :
    (ofExcept outcome : Bringup σ α).Avoids causes := by
  intro s cause s' hrun
  exact h cause (Prod.mk.inj hrun).1

end Bringup

section Machine

variable (machine : Machine σ)

theorem avoids_readObject (path : Path) : (readObject machine path).Avoids Stop.BlamesLayout := by
  apply (Bringup.avoids_atPath path _).bind
  intro text
  apply Bringup.avoids_ofExcept
  intro cause hcause
  rw [objectOf] at hcause
  split at hcause
  next => cases hcause
  next =>
    obtain rfl := Except.error.inj hcause
    exact id
  next stop _ =>
    obtain rfl := Except.error.inj hcause
    cases stop <;> exact id

theorem avoids_patchFile (path : Path) (changes : List (String × Json.Value)) :
    (patchFile machine path changes).Avoids Stop.BlamesLayout := by
  apply (avoids_readObject machine path).bind
  intro members
  exact Bringup.avoids_atPath path _

theorem avoids_runToEnd (command : Command) :
    (runToEnd machine command).Avoids Stop.BlamesLayout := by
  apply (avoids_adapt (machine.run command) fun _ ↦ id).bind
  intro finished
  split_ifs
  · exact avoids_pure ()
  · exact avoids_throw id

end Machine

/-! ## Laying out -/

namespace LocalCluster

variable {cluster : LocalCluster σ} {layout : Layout} {nodes : ℕ}

theorem avoids_removeStaleAll (cluster : LocalCluster σ) (ordinals : List ℕ) :
    (cluster.removeStaleAll ordinals).Avoids Stop.BlamesLayout := by
  induction ordinals with
  | nil => exact avoids_pure ()
  | cons ordinal rest ih =>
    refine Avoids.bind ?_ fun _ ↦ ih
    apply (avoids_lift _).bind
    intro there
    split_ifs
    · exact Bringup.avoids_atPath _ _
    · exact avoids_pure _

theorem avoids_readPublicKey (machine : Machine σ) (path : Path) :
    (readPublicKey machine path).Avoids Stop.BlamesLayout := by
  apply (avoids_readObject machine path).bind
  intro members
  split
  · exact avoids_pure _
  · exact avoids_throw id

/-- Only a node without addresses could still be held against the layout. -/
theorem avoids_prepareHome {ordinal : ℕ} (h : ∃ ends, cluster.addresses ordinal = .ok ends) :
    (cluster.prepareHome layout ordinal).Avoids Stop.BlamesLayout := by
  obtain ⟨ends, haddresses⟩ := h
  apply (avoids_patchFile cluster.machine _ _).bind
  intro _
  rw [haddresses]
  apply (Bringup.avoids_ofExcept fun _ ↦ nofun).bind
  intro addresses
  apply (avoids_patchFile cluster.machine _ _).bind
  intro _
  apply (avoids_readPublicKey cluster.machine _).bind
  intro key
  exact avoids_pure _

theorem avoids_prepareHomes {ordinals : List ℕ}
    (h : ∀ ordinal ∈ ordinals, ∃ ends, cluster.addresses ordinal = .ok ends) :
    (cluster.prepareHomes layout ordinals).Avoids Stop.BlamesLayout := by
  induction ordinals with
  | nil => exact avoids_pure _
  | cons ordinal rest ih =>
    obtain ⟨hordinal, hrest⟩ := List.forall_mem_cons.mp h
    apply (avoids_prepareHome hordinal).bind
    intro home
    apply (ih hrest).bind
    intro homes
    exact avoids_pure _

/-- The check asks for the addresses of the last node. -/
theorem exists_addresses_of_check (h : cluster.check layout = .ok nodes) (hpos : 0 < nodes) :
    ∃ ends, cluster.addresses (nodes - 1) = .ok ends := by
  have hcount := nodeCount_of_check h
  obtain ⟨_, -, hcounted⟩ := bind_eq_ok h
  rw [hcount] at hcounted
  change (if 0 < nodes then do
    let _ ← cluster.addresses (nodes - 1)
    pure nodes
  else pure nodes) = Except.ok nodes at hcounted
  rw [if_pos hpos] at hcounted
  obtain ⟨ends, hends, -⟩ := bind_eq_ok hcounted
  exact ⟨ends, hends⟩

/-- A layout that has passed the check has addresses for every node. -/
theorem forall_addresses_of_check (h : cluster.check layout = .ok nodes) :
    ∀ ordinal < nodes, ∃ ends, cluster.addresses ordinal = .ok ends := by
  intro ordinal hordinal
  have hlast := exists_addresses_of_check h (Nat.zero_lt_of_lt hordinal)
  have haccepted : cluster.config.validate nodes = .ok () :=
    HarnessConfig.validate_eq_ok_iff.mpr ((exists_addresses_iff cluster _).mp hlast)
  exact (exists_addresses_iff cluster ordinal).mpr
    (HarnessConfig.validate_eq_ok_iff_forall.mp haccepted ordinal hordinal)

/-- After the check the layout is not blamed any more. -/
theorem avoids_layOut (h : cluster.check layout = .ok nodes) :
    (cluster.layOut layout).Avoids Stop.BlamesLayout := by
  rw [layOut, h, Bringup.ofExcept_ok_bind]
  apply (Bringup.avoids_atPath _ _).bind
  intro _
  apply (cluster.avoids_removeStaleAll _).bind
  intro _
  apply (avoids_runToEnd cluster.machine _).bind
  intro _
  apply avoids_prepareHomes
  intro ordinal hordinal
  exact forall_addresses_of_check h ordinal (List.mem_range.mp hordinal)

/-- What fails the check is not laid out. -/
theorem init_of_check_eq_error {cause : Stop BringupError}
    (h : cluster.check layout = .error cause) : cluster.init layout = throw cause := by
  rw [init, layOut, h]
  rfl

theorem avoids_onMachine {op : Bringup σ α} {causes : Stop BringupError → Prop}
    (h : op.Avoids causes) : (onMachine op).Avoids causes := by
  intro state cause state' hrun
  exact h state.machine cause _ (Prod.ext (Prod.mk.inj hrun).1 rfl)

/-- If laying out a cluster fails because of the layout, the check has failed, and on every machine
the failure is all that happens, so nothing was touched. If a layout has passed the check then every
node has addresses, and whatever the machine answers, laying out does not fail because of the
layout. -/
theorem init_of_invalidLayout (cluster : LocalCluster σ) (layout : Layout) :
    (∀ state detail state', (cluster.init layout).run.run state =
        (.error (.error (.invalidLayout detail)), state') →
      state' = state ∧ cluster.check layout = .error (.error (.invalidLayout detail)) ∧
      ∀ {τ : Type} (machine : Machine τ), LocalCluster.init ⟨cluster.config, machine⟩ layout =
        throw (.error (.invalidLayout detail))) ∧
    ∀ nodes, cluster.check layout = .ok nodes →
      layout.nodeCount = .ok nodes ∧
      (∀ ordinal < nodes, ∃ ends, cluster.addresses ordinal = .ok ends) ∧
      ∀ state detail state', (cluster.init layout).run.run state ≠
        (.error (.error (.invalidLayout detail)), state') := by
  have hpassed {nodes : ℕ} (h : cluster.check layout = .ok nodes) :
      (cluster.init layout).Avoids Stop.BlamesLayout := avoids_onMachine (avoids_layOut h)
  constructor
  · intro state detail state' hrun
    cases hcheck : cluster.check layout with
    | ok nodes => exact absurd trivial (hpassed hcheck state _ state' hrun)
    | error cause =>
      rw [init_of_check_eq_error hcheck] at hrun
      obtain ⟨hcause, hstate⟩ := Prod.mk.inj hrun
      obtain rfl := Except.error.inj hcause
      exact ⟨hstate.symm, rfl, fun machine ↦ init_of_check_eq_error hcheck⟩
  · intro nodes hcheck
    refine ⟨nodeCount_of_check hcheck, forall_addresses_of_check hcheck, ?_⟩
    intro state detail state' hrun
    exact hpassed hcheck state _ state' hrun trivial

/-- Three nodes with room for the ports of two are refused on any machine. Two nodes with room for
both are not refused, whatever state the machine is in. -/
theorem init_of_invalidLayout_without_ports :
    let cluster : LocalCluster Bench :=
      { config := { rpcBasePort := 65534 }, machine := Bench.machine }
    let layout : Layout := { topology := {} }
    let flaw : LayoutFlaw := .noPort 2 24577 65534
    (cluster.init layout).run.run emptyBench =
        (.error (.error (.invalidLayout flaw.message)), emptyBench) ∧
      cluster.check layout = .error (.error (.invalidLayout flaw.message)) ∧
      LocalCluster.init ⟨cluster.config, sampleCluster.machine⟩ layout =
        throw (.error (.invalidLayout flaw.message)) ∧
      sampleCluster.check sampleLayout = .ok 2 ∧
      (∃ ends, sampleCluster.addresses 1 = .ok ends) ∧
      ∀ state', (sampleCluster.init sampleLayout).run.run emptyBench ≠
        (.error (.error (.invalidLayout flaw.message)), state') := by
  intro cluster layout flaw
  have hrefused : (cluster.init layout).run.run emptyBench =
      (.error (.error (.invalidLayout flaw.message)), emptyBench) := by
    have hcheck : cluster.check layout = .error (.error (.invalidLayout flaw.message)) := by
      decide +kernel
    rw [init_of_check_eq_error hcheck]
    rfl
  have hpassed : sampleCluster.check sampleLayout = .ok 2 := rfl
  obtain ⟨hfails, -⟩ := init_of_invalidLayout cluster layout
  obtain ⟨-, hcheck, hanywhere⟩ := hfails _ _ _ hrefused
  obtain ⟨-, hpasses⟩ := init_of_invalidLayout sampleCluster sampleLayout
  obtain ⟨-, haddresses, hnever⟩ := hpasses 2 hpassed
  exact ⟨hrefused, hcheck, hanywhere sampleCluster.machine, hpassed,
    haddresses 1 Nat.one_lt_two, hnever emptyBench _⟩

end LocalCluster

end BlockWatch
