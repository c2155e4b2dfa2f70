import BlockWatch.Proofs.Scenario.Budget
import Mathlib.Data.List.Perm.Subperm

/-!
# The calls of a run

The calls that a run makes are those of its plan up to the first action that stops it, and then one
shutdown. So no home is launched twice, no node but the leader and the late one is polled, and
nothing that the shutdown answers can change what the run made of the calls before.
-/

namespace BlockWatch

namespace Performed

variable {plan later : List Action} {log : List Event} {stop : Option (Stop AbortReason)}

/-- An action of a plan that nothing stopped has its events in the log. -/
theorem exists_ends {action : Action} (h : Performed plan log stop) (hnone : stop = none)
    (hmem : action ∈ plan) : ∃ events, action.Ends events none ∧ events ⊆ log := by
  induction h with
  | nil => cases hmem
  | step hends _ ih =>
    rcases List.mem_cons.mp hmem with rfl | hrest
    · exact ⟨_, hends, List.subset_append_left _ _⟩
    · obtain ⟨events, hevents, hsubset⟩ := ih hnone hrest
      exact ⟨events, hevents, List.Subset.trans hsubset (List.subset_append_right _ _)⟩
  | cut _ => cases hnone

/-- A node that only the second part of a plan watches is polled after the first part. -/
theorem first_of_poll_mem {node : Node} {outcome : Except Fault Report}
    (h : Performed (plan ++ later) log stop) (hpoll : .call (.poll node) outcome ∈ log)
    (hwatch : .watch node ∉ plan) :
    ∃ first, Performed plan first none ∧ first ⊆ log := by
  rcases h.of_append with hstopped | ⟨first, rest, rfl, hfirst, -⟩
  · exact absurd (hstopped.watch_mem_of_poll_mem hpoll) hwatch
  · exact ⟨first, hfirst, List.subset_append_left _ _⟩

/-- A launch whose handle is used gives this handle. -/
theorem launch_mem {home : NodeHome} {boot : Option Node} {handle : Node}
    (h : Performed plan log none) (hmem : .launch home boot (some handle) ∈ plan) :
    .call (.launch home boot) (.ok (.ok handle)) ∈ log := by
  obtain ⟨events, hends, hsubset⟩ := h.exists_ends rfl hmem
  cases hends with
  | launch hreturns hhandle =>
    cases hreturns
    obtain rfl := hhandle handle rfl
    exact hsubset (List.mem_singleton_self _)

/-- A plan does not shut down. -/
theorem shutdown_not_mem (h : Performed plan log stop) :
    .shutdown ∉ log.filterMap Event.call? := by
  have hends {action : Action} {log : List Event} {stop : Option (Stop AbortReason)}
      (haction : action.Ends log stop) : .shutdown ∉ log.filterMap Event.call? := by
    cases haction with
    | watch h =>
      intro hmem
      obtain ⟨event, hevent, hcall⟩ := List.mem_filterMap.mp hmem
      rcases h.mem_cases hevent with ⟨_, rfl⟩ | ⟨_, rfl⟩ <;> cases hcall
    | _ => simp [Event.call?]
  induction h with
  | nil => exact List.not_mem_nil
  | step haction _ ih =>
    rw [List.filterMap_append, List.mem_append]
    exact not_or.mpr ⟨hends haction, ih⟩
  | cut haction => exact hends haction

end Performed

namespace Scenario

variable {τ : Type} {scenario : Scenario τ} {s : RunState τ}

theorem launched_plan (layout : Layout) (homes : List NodeHome) (cast : Cast)
    (leader late : Node) :
    (scenario.plan layout homes cast leader late).filterMap Action.launched? = cast.inOrder := by
  have hlaunches : ((cast.validators ++ cast.early).map fun home ↦
      Action.launch home (some leader) none).filterMap Action.launched? =
      cast.validators ++ cast.early := by
    simp [Action.launched?, Function.comp_def]
  rw [plan, List.filterMap_append, List.filterMap_append, hlaunches]
  rfl

namespace Passage

variable (passage : Passage scenario s)

/-- The calls of a passage. -/
def calls : List Call := passage.log.filterMap Event.call?

/-- The homes that a passage launches, in order. -/
def launched : List NodeHome := passage.log.filterMap Event.launched?

/-- Homes are launched in the order of the cast. -/
theorem launched_prefix : passage.launched <+: passage.cast.inOrder := by
  have hprefix := passage.performed.launched_prefix.1
  rwa [launched_plan] at hprefix

theorem launched_eq_inOrder (h : passage.stop = none) :
    passage.launched = passage.cast.inOrder := by
  have hlaunched := passage.performed.launched_prefix.2 h
  rwa [launched_plan] at hlaunched

/-- No home is launched before each has its part. -/
theorem ofHomes?_of_launched (h : passage.launched ≠ []) :
    Cast.ofHomes? passage.homes = some passage.cast := by
  let front : List Action := [.enter .provisioning, .validate scenario.config,
    .init passage.layout passage.homes, .assign passage.homes passage.cast]
  have hassign : .assign passage.homes passage.cast ∈ front := by simp [front]
  obtain ⟨later, hperformed⟩ :
      ∃ later, Performed (front ++ later) passage.log passage.stop := ⟨_, passage.performed⟩
  rcases hperformed.of_append with hstopped | ⟨first, -, -, hfirst, -⟩
  · have hnone : passage.launched <+: [] := hstopped.launched_prefix.1
    exact absurd (List.prefix_nil.mp hnone) h
  · obtain ⟨events, hends, -⟩ := hfirst.exists_ends rfl hassign
    cases hends with
    | assigned hcast => exact hcast

/-- No home is launched twice. -/
theorem launched_subperm : passage.launched.Subperm passage.homes := by
  by_cases hnone : passage.launched = []
  · rw [hnone]
    exact List.nil_subperm
  · have hperm := Cast.inOrder_perm (passage.ofHomes?_of_launched hnone)
    exact passage.launched_prefix.sublist.subperm.trans hperm.subperm

/-- A run that nothing stops launches every home. -/
theorem launched_perm (h : passage.stop = none) : passage.launched.Perm passage.homes := by
  have hlaunched := passage.launched_eq_inOrder h
  have hsome : passage.launched ≠ [] := by
    rw [hlaunched]
    exact List.cons_ne_nil _ _
  rw [hlaunched]
  exact Cast.inOrder_perm (passage.ofHomes?_of_launched hsome)

/-- No node is polled before the leader is launched. -/
theorem leader_launched {node : Node} {outcome : Except Fault Report}
    (hpoll : .call (.poll node) outcome ∈ passage.log) :
    .call (.launch passage.cast.leader none) (.ok (.ok passage.leader)) ∈ passage.log := by
  let front : List Action := [.enter .provisioning, .validate scenario.config,
    .init passage.layout passage.homes, .assign passage.homes passage.cast,
    .seed scenario.dataset (passage.homes.map (·.directory)),
    .launch passage.cast.leader none (some passage.leader)]
  have hlaunch : .launch passage.cast.leader none (some passage.leader) ∈ front := by
    simp [front]
  have hwatch : .watch node ∉ front := by simp [front]
  obtain ⟨later, hperformed⟩ :
      ∃ later, Performed (front ++ later) passage.log passage.stop := ⟨_, passage.performed⟩
  obtain ⟨first, hfirst, hsubset⟩ := hperformed.first_of_poll_mem hpoll hwatch
  exact hsubset (hfirst.launch_mem hlaunch)

/-- No node but the leader is polled before the late node is launched. -/
theorem late_launched {node : Node} {outcome : Except Fault Report}
    (hpoll : .call (.poll node) outcome ∈ passage.log) (hother : node ≠ passage.leader) :
    node = passage.late ∧
      .call (.launch passage.cast.late (some passage.leader)) (.ok (.ok passage.late)) ∈
        passage.log := by
  let between : List Action := [.enter .baselineWait, .watch passage.leader,
    .enter .joinLateNode, .launch passage.cast.late (some passage.leader) (some passage.late),
    .enter .degradationWatch, .watch passage.leader, .enter .lateNodeCatchup]
  obtain ⟨front, hplan, hlaunch, hwatch⟩ : ∃ front,
      scenario.plan passage.layout passage.homes passage.cast passage.leader passage.late =
        front ++ [.watch passage.late] ∧
      .launch passage.cast.late (some passage.leader) (some passage.late) ∈ front ∧
      .watch node ∉ front := by
    refine ⟨_, (List.append_assoc _ between _).symm, ?_, ?_⟩
    · simp [between]
    · simpa [between] using hother
  have hperformed := passage.performed
  rw [hplan] at hperformed
  have hlate : node = passage.late := by
    rcases List.mem_append.mp (hperformed.watch_mem_of_poll_mem hpoll) with hfront | hlast
    · exact absurd hfront hwatch
    · exact Action.watch.inj (List.mem_singleton.mp hlast)
  obtain ⟨first, hfirst, hsubset⟩ := hperformed.first_of_poll_mem hpoll hwatch
  exact ⟨hlate, hsubset (hfirst.launch_mem hlaunch)⟩

/-- Only the handles that the launches of the leader and of the late node gave are polled. -/
theorem polled {node : Node} {outcome : Except Fault Report}
    (hpoll : .call (.poll node) outcome ∈ passage.log) :
    node = passage.leader ∧
        .call (.launch passage.cast.leader none) (.ok (.ok passage.leader)) ∈ passage.log ∨
      node = passage.late ∧
        .call (.launch passage.cast.late (some passage.leader)) (.ok (.ok passage.late)) ∈
          passage.log := by
  by_cases hleader : node = passage.leader
  · exact .inl ⟨hleader, passage.leader_launched hpoll⟩
  · exact .inr (passage.late_launched hpoll hleader)

/-- A configuration that is rejected leads to no call. -/
theorem calls_of_rejected {cause : ConfigError}
    (h : scenario.config.validate = .error cause) : passage.calls = [] := by
  have hperformed := passage.performed
  unfold calls
  generalize passage.log = log, passage.stop = stop at hperformed
  cases hperformed with
  | step hfirst hrest =>
    cases hfirst
    cases hrest with
    | step hvalid _ =>
      cases hvalid with
      | valid hvalid => rw [h] at hvalid; cases hvalid
    | cut hinvalid =>
      cases hinvalid
      rfl
  | cut hfirst => cases hfirst

/-- What the calls of a passage are like, whatever the site answers. -/
structure Orderly : Prop where
  launchedOnce : passage.launched.Subperm passage.homes
  polled : ∀ node outcome, .call (.poll node) outcome ∈ passage.log →
    node = passage.leader ∧
        .call (.launch passage.cast.leader none) (.ok (.ok passage.leader)) ∈ passage.log ∨
      node = passage.late ∧
        .call (.launch passage.cast.late (some passage.leader)) (.ok (.ok passage.late)) ∈ passage.log
  rejected : ∀ cause, scenario.config.validate = .error cause → passage.calls = []
  noShutdown : .shutdown ∉ passage.calls
  fault : ∀ f, passage.stop = some (.fault f) → scenario.FaultReason s passage.last f

/-- The passage of a run is orderly. -/
theorem orderly {report : ScenarioReport} (h : scenario.execute.run.run s =
      (settled report passage.last.tracker passage.stop, passage.last)) : passage.Orderly where
  launchedOnce := passage.launched_subperm
  polled _ _ hpoll := passage.polled hpoll
  rejected _ hrejected := passage.calls_of_rejected hrejected
  noShutdown := passage.performed.shutdown_not_mem
  fault f hstop := by
    rw [hstop] at h
    exact (halts_of_stops h).keeps.2 f rfl

end Passage

/-- Only what nothing stops gives a value. -/
theorem eq_none_of_settled {α : Type} {value found : α} {tracker : PhaseTracker}
    {stop : Option (Stop AbortReason)} (h : settled value tracker stop = .ok found) :
    stop = none := by
  cases stop with
  | none => rfl
  | some stop => cases h

/-- A run makes the calls of a passage along its plan and then, unless a fault stopped it before, one
shutdown as its last call. How the cluster is shut down changes neither the calls nor the outcome,
except that a fault of the shutdown stops the run. -/
theorem calls_of_run (hfits : scenario.config.topology.validators.toNat +
      scenario.config.topology.observers.toNat < UInt64.size) :
    ∃ (passage : Passage scenario s) (report : ScenarioReport), passage.Orderly ∧
      ∀ close, let run := (scenario.closedBy close).run s
        run.2.stage.calls = s.stage.calls ++ passage.calls ++ closing passage.stop ∧
        ((∀ f, run.1 ≠ .error (.fault f)) →
          run.2.stage.calls = s.stage.calls ++ passage.calls ++ [.shutdown]) ∧
        (∀ report, run.1 = .ok report → passage.launched.Perm passage.homes) ∧
        (run.1 = settled report passage.last.tracker passage.stop ∨
          closing passage.stop = [.shutdown] ∧
            ∃ f, (scenario.closedBy close).ShutdownFault passage.last f ∧
              run.1 = .error (.fault f)) := by
  obtain ⟨passage, report, -, -, hexecute⟩ := exists_passage scenario s hfits
  have hclose (close : τ → Answer τ (Except (Stop BringupError) Unit)) :
      (scenario.closedBy close).execute.run.run s =
        (settled report passage.last.tracker passage.stop, passage.last) := by
    rw [execute_closedBy, hexecute]
  have hcalls : passage.last.stage.calls = s.stage.calls ++ passage.calls := passage.logged.calls
  refine ⟨passage, { report with phases := passage.last.tracker.history ++ [.done] },
    passage.orderly hexecute, fun close ↦ ?_⟩
  intro run
  obtain ⟨hrun, hend⟩ := run_of_execute (hclose close)
  rw [hcalls] at hrun
  have houtcome : run.1 = settled { report with phases := passage.last.tracker.history ++ [.done] }
        passage.last.tracker passage.stop ∨
      closing passage.stop = [.shutdown] ∧
        ∃ f, (scenario.closedBy close).ShutdownFault passage.last f ∧ run.1 = .error (.fault f) := by
    rcases hend with ⟨hsettled, -⟩ | ⟨hclosing, f, hfault, hstopped, -⟩
    · exact .inl hsettled
    · exact .inr ⟨hclosing, f, hfault, hstopped⟩
  refine ⟨hrun, fun hnofault ↦ ?_, fun found hfound ↦ ?_, houtcome⟩
  · have hunstopped (f : Fault) (hstop : passage.stop = some (.fault f)) : False := by
      rcases houtcome with hsettled | ⟨hclosing, -⟩
      · rw [hstop] at hsettled
        exact hnofault f hsettled
      · rw [hstop] at hclosing
        cases hclosing
    rw [← closing_eq_shutdown hunstopped]
    exact hrun
  · rcases houtcome with hsettled | ⟨-, f, -, hstopped⟩
    · exact passage.launched_perm (eq_none_of_settled (hsettled.symm.trans hfound))
    · cases hstopped.symm.trans hfound

/-- A cluster of three nodes whose late node never answers is shut down after all have been launched
and the deadline of one second has passed. -/
theorem calls_of_run_with_silent_node :
    let address : Net.Endpoint := .v4 ⟨10, 0, 0, 1⟩ 26656
    let home (ordinal : ℕ) (role : Role) : NodeHome :=
      ⟨ordinal, role, ⟨"/node"⟩, address, address, ""⟩
    let homes : List NodeHome := [home 0 .validator, home 1 .observer, home 2 .observer]
    let site : Site Unit := {
      init := fun _ _ ↦ { outcome := .ok homes, next := () }
      populate := fun _ _ _ ↦ { outcome := .ok (), next := () }
      copySnapshot := fun _ _ _ ↦ { outcome := .ok (), next := () }
      launch := fun home _ _ ↦ { outcome := .ok home.toNode, next := () }
      shutdown := fun _ ↦ { outcome := .ok (), next := () }
      poll := fun node _ ↦
        { outcome := if node.ordinal = 0 then .ok 100 else .error (.timeout node.name 500)
          next := () } }
    let scenario : Scenario Unit := ⟨{ deadline := .ofSeconds 1 }, .skip, site⟩
    let stage : Stage Unit Call := { field := () }
    (∃ passage : Passage scenario ⟨stage, {}⟩, passage.Orderly) ∧
      (scenario.run ⟨stage, {}⟩).2.stage.calls.length = 8 := by
  intro address home homes site scenario stage
  have hfits : scenario.config.topology.validators.toNat +
      scenario.config.topology.observers.toNat < UInt64.size := by decide +zetaReduce
  obtain ⟨passage, -, horderly, -⟩ := @calls_of_run Unit scenario ⟨stage, {}⟩ hfits
  exact ⟨⟨passage, horderly⟩, by decide +kernel +zetaReduce⟩

end Scenario

end BlockWatch
