import BlockWatch.Proofs.Scenario.Trace
import Mathlib.Data.List.Basic

/-!
# Plans and their logs

A run carries out a plan until something stops it. Each action of the plan leaves events in the log:
the phases that are entered, the calls and the sleeps, with what came of them. A plan is performed if
the log holds the events of its actions in order, up to the first action that stops the run.
-/

namespace BlockWatch

/-! ## Plans -/

/-- One step of a plan. What a call should give is part of the action if later actions use it. -/
inductive Action
  | enter (phase : Phase)
  | validate (config : ScenarioConfig)
  | init (layout : Layout) (homes : List NodeHome)
  | assign (homes : List NodeHome) (cast : Cast)
  | seed (dataset : Dataset) (homes : List Path)
  | launch (home : NodeHome) (boot handle? : Option Node)
  | watch (node : Node)

namespace Action

def phase? : Action → Option Phase
  | enter phase => some phase
  | _ => none

def launched? : Action → Option NodeHome
  | launch home _ _ => some home
  | _ => none

/-- How what comes of a call that should give `value` ends the action. -/
inductive Returns {α : Type} (value : α) :
    Except Fault (Except (Stop BringupError) α) → Option (Stop AbortReason) → Prop
  | value : Returns value (.ok (.ok value)) none
  | failure (cause : BringupError) :
      Returns value (.ok (.error (.error cause))) (some (.error (.bringup cause)))
  | fault (f : Fault) : Returns value (.ok (.error (.fault f))) (some (.fault f))
  | unanswered (f : Fault) : Returns value (.error f) (some (.fault f))

/-- How a wait with room for so many polls ends, tick by tick. -/
inductive Watches (node : Node) : ℕ → List Event → Option (Stop AbortReason) → Prop
  | late {room : ℕ} (cause : WaitError) : Watches node room [] (some (.error (.wait cause)))
  | exhausted : Watches node 0 [] (some (.fault .sum))
  | unanswered {room : ℕ} (f : Fault) :
      Watches node (room + 1) [.call (.poll node) (.error f)] (some (.fault f))
  | reached {room : ℕ} (report : Report) :
      Watches node (room + 1) [.call (.poll node) (.ok report)] none
  | slow {room : ℕ} (report : Report) (cause : WaitError) :
      Watches node (room + 1) [.call (.poll node) (.ok report)] (some (.error (.wait cause)))
  | sleepless {room : ℕ} (report : Report) (f : Fault) :
      Watches node (room + 1) [.call (.poll node) (.ok report), .sleep (.error f)]
        (some (.fault f))
  | tick {room : ℕ} {log : List Event} {stop : Option (Stop AbortReason)} (report : Report)
      (h : Watches node room log stop) :
      Watches node (room + 1) (.call (.poll node) (.ok report) :: .sleep (.ok ()) :: log) stop

/-- How an action ends: with which events, and whether it stops the run. -/
inductive Ends : Action → List Event → Option (Stop AbortReason) → Prop
  | enter (phase : Phase) : Ends (.enter phase) [.enter phase] none
  | valid {config : ScenarioConfig} (h : config.validate = .ok ()) : Ends (.validate config) [] none
  | invalid {config : ScenarioConfig} {cause : ConfigError} (h : config.validate = .error cause) :
      Ends (.validate config) [] (some (.error (.config cause)))
  | init {layout : Layout} {homes : List NodeHome}
      {outcome : Except Fault (Call.init layout).Reply} {stop : Option (Stop AbortReason)}
      (h : Returns homes outcome stop) : Ends (.init layout homes) [.call (.init layout) outcome] stop
  | assigned {homes : List NodeHome} {cast : Cast} (h : Cast.ofHomes? homes = some cast) :
      Ends (.assign homes cast) [] none
  | incomplete {homes : List NodeHome} {cast : Cast} (h : Cast.ofHomes? homes = none) :
      Ends (.assign homes cast) []
        (some (.error (.bringup (.ofFlaw (.incompleteCast homes.length)))))
  | unseeded {homes : List Path} : Ends (.seed .skip homes) [] none
  | generated {accounts : UInt64} {homes : List Path}
      {outcome : Except Fault (Call.populate accounts homes).Reply}
      {stop : Option (Stop AbortReason)} (h : Returns () outcome stop) :
      Ends (.seed (.generate accounts) homes) [.call (.populate accounts homes) outcome] stop
  | copied {source : Path} {homes : List Path}
      {outcome : Except Fault (Call.copySnapshot source homes).Reply}
      {stop : Option (Stop AbortReason)} (h : Returns () outcome stop) :
      Ends (.seed (.snapshot source) homes) [.call (.copySnapshot source homes) outcome] stop
  | launch {home : NodeHome} {boot handle? : Option Node} {node : Node}
      {outcome : Except Fault (Call.launch home boot).Reply} {stop : Option (Stop AbortReason)}
      (h : Returns node outcome stop) (hhandle : ∀ handle ∈ handle?, handle = node) :
      Ends (.launch home boot handle?) [.call (.launch home boot) outcome] stop
  | watch {node : Node} {log : List Event} {stop : Option (Stop AbortReason)}
      (h : Watches node Wait.maxPolls log stop) : Ends (.watch node) log stop

namespace Watches

variable {node : Node} {room : ℕ} {log : List Event} {stop : Option (Stop AbortReason)}

/-- A wait polls its node and sleeps, and does nothing else. -/
theorem mem_cases {event : Event} (h : Watches node room log stop) (hmem : event ∈ log) :
    (∃ outcome, event = .call (.poll node) outcome) ∨ ∃ outcome, event = .sleep outcome := by
  induction h with
  | late | exhausted => cases hmem
  | unanswered | reached | slow => exact .inl ⟨_, List.mem_singleton.mp hmem⟩
  | sleepless =>
    rcases List.mem_cons.mp hmem with rfl | hrest
    · exact .inl ⟨_, rfl⟩
    · exact .inr ⟨_, List.mem_singleton.mp hrest⟩
  | tick report _ ih =>
    rcases List.mem_cons.mp hmem with rfl | hrest
    · exact .inl ⟨_, rfl⟩
    · rcases List.mem_cons.mp hrest with rfl | hlater
      · exact .inr ⟨_, rfl⟩
      · exact ih hlater

theorem filterMap_eq_nil {β : Type} {seen : Event → Option β} (h : Watches node room log stop)
    (hpoll : ∀ outcome, seen (.call (.poll node) outcome) = none)
    (hsleep : ∀ outcome, seen (.sleep outcome) = none) : log.filterMap seen = [] := by
  refine List.filterMap_eq_nil_iff.mpr fun event hmem ↦ ?_
  rcases h.mem_cases hmem with ⟨outcome, rfl⟩ | ⟨outcome, rfl⟩
  · exact hpoll outcome
  · exact hsleep outcome

/-- A wait that runs into a fault does so at its last event, or has no room for a poll. -/
theorem fault_cases {f : Fault} (h : Watches node room log (some (.fault f))) :
    (∃ front event, log = front ++ [event] ∧ event.IsFault f) ∨ f = .sum := by
  generalize hstop : some (Stop.fault f) = stop at h
  induction h with
  | late | reached | slow => cases hstop
  | exhausted =>
    cases hstop
    exact .inr rfl
  | unanswered =>
    cases hstop
    exact .inl ⟨[], _, rfl, rfl⟩
  | sleepless report =>
    cases hstop
    exact .inl ⟨[.call (.poll node) (.ok report)], _, rfl, rfl⟩
  | tick report _ ih =>
    refine (ih hstop).imp_left ?_
    rintro ⟨front, event, rfl, hfault⟩
    exact ⟨.call (.poll node) (.ok report) :: .sleep (.ok ()) :: front, event, rfl, hfault⟩

end Watches

end Action

/-- The log of a plan: that of its actions in order, up to the first one that stops the run. -/
inductive Performed : List Action → List Event → Option (Stop AbortReason) → Prop
  | nil : Performed [] [] none
  | step {action : Action} {plan : List Action} {log rest : List Event}
      {stop : Option (Stop AbortReason)} (h : action.Ends log none)
      (hrest : Performed plan rest stop) : Performed (action :: plan) (log ++ rest) stop
  | cut {action : Action} {plan : List Action} {log : List Event} {stop : Stop AbortReason}
      (h : action.Ends log (some stop)) : Performed (action :: plan) log (some stop)

namespace Performed

variable {plan later : List Action} {log rest : List Event} {stop : Option (Stop AbortReason)}

theorem single {action : Action} (h : action.Ends log stop) : Performed [action] log stop := by
  cases stop with
  | none => simpa using step h nil
  | some stop => exact cut h

theorem append (h : Performed plan log none) (hlater : Performed later rest stop) :
    Performed (plan ++ later) (log ++ rest) stop := by
  generalize hnone : (none : Option (Stop AbortReason)) = ended at h
  induction h with
  | nil => exact hlater
  | step hends _ ih =>
    rw [List.append_assoc]
    exact step hends (ih hnone)
  | cut _ => cases hnone

/-- A plan that was stopped stays so, whatever comes later in it. -/
theorem append_cut {stop : Stop AbortReason} (h : Performed plan log (some stop)) :
    Performed (plan ++ later) log (some stop) := by
  generalize hsome : some stop = ended at h
  induction h with
  | nil => cases hsome
  | step hends _ ih => exact step hends (ih hsome)
  | cut hends => exact cut hends

/-- Either the first part of a plan was stopped, or it was performed and the rest after it. -/
theorem of_append (h : Performed (plan ++ later) log stop) :
    Performed plan log stop ∨
      ∃ first rest,
        log = first ++ rest ∧ Performed plan first none ∧ Performed later rest stop := by
  induction plan generalizing log with
  | nil => exact .inr ⟨[], log, rfl, nil, h⟩
  | cons action plan ih =>
    cases h with
    | step hends hrest =>
      rcases ih hrest with hstopped | ⟨first, rest, rfl, hfirst, hlater⟩
      · exact .inl (step hends hstopped)
      · exact .inr ⟨_, rest, (List.append_assoc _ _ _).symm, step hends hfirst, hlater⟩
    | cut hends => exact .inl (cut hends)

/-- What a log shows of a plan is a prefix of what the plan says, and all of it if nothing stops. -/
theorem filterMap_prefix {β : Type} {seen : Event → Option β} {said : Action → Option β}
    (hends : ∀ {action log stop}, Action.Ends action log stop →
      log.filterMap seen <+: (said action).toList ∧
        (stop = none → log.filterMap seen = (said action).toList))
    (h : Performed plan log stop) :
    log.filterMap seen <+: plan.filterMap said ∧
      (stop = none → log.filterMap seen = plan.filterMap said) := by
  have hcons (action : Action) (plan : List Action) :
      (action :: plan).filterMap said = (said action).toList ++ plan.filterMap said := by
    cases hsaid : said action <;> simp [hsaid]
  induction h with
  | nil => exact ⟨List.prefix_refl _, fun _ ↦ rfl⟩
  | step haction _ ih =>
    rw [List.filterMap_append, hcons, (hends haction).2 rfl]
    exact ⟨(List.prefix_append_right_inj _).mpr ih.1, fun hnone ↦ by rw [ih.2 hnone]⟩
  | cut haction =>
    rw [hcons]
    exact ⟨(hends haction).1.trans (List.prefix_append _ _), fun hnone ↦ by cases hnone⟩

/-- The phases of a log are the first ones of its plan. -/
theorem phases_prefix (h : Performed plan log stop) :
    log.filterMap Event.phase? <+: plan.filterMap Action.phase? ∧
      (stop = none → log.filterMap Event.phase? = plan.filterMap Action.phase?) := by
  refine filterMap_prefix (fun {action log stop} hends ↦ ?_) h
  cases hends with
  | watch h =>
    rw [h.filterMap_eq_nil (fun _ ↦ rfl) fun _ ↦ rfl]
    exact ⟨List.nil_prefix, fun _ ↦ rfl⟩
  | _ => simp [Event.phase?, Action.phase?]

/-- The homes that are launched are the first ones that the plan launches. -/
theorem launched_prefix (h : Performed plan log stop) :
    log.filterMap Event.launched? <+: plan.filterMap Action.launched? ∧
      (stop = none → log.filterMap Event.launched? = plan.filterMap Action.launched?) := by
  refine filterMap_prefix (fun {action log stop} hends ↦ ?_) h
  cases hends with
  | watch h =>
    rw [h.filterMap_eq_nil (fun _ ↦ rfl) fun _ ↦ rfl]
    exact ⟨List.nil_prefix, fun _ ↦ rfl⟩
  | _ => simp [Event.launched?, Action.launched?]

/-- Only a node that the plan watches is polled. -/
theorem watch_mem_of_poll_mem {node : Node} {outcome : Except Fault Report}
    (h : Performed plan log stop) (hpoll : .call (.poll node) outcome ∈ log) :
    .watch node ∈ plan := by
  have hends {action : Action} {log : List Event} {stop : Option (Stop AbortReason)}
      (haction : action.Ends log stop) (hmem : .call (.poll node) outcome ∈ log) :
      action = .watch node := by
    cases haction with
    | watch h =>
      rcases h.mem_cases hmem with ⟨_, hcall⟩ | ⟨_, hsleep⟩
      · cases hcall
        rfl
      · cases hsleep
    | _ => simp at hmem
  induction h with
  | nil => cases hpoll
  | step haction _ ih =>
    rcases List.mem_append.mp hpoll with hfirst | hrest
    · rw [hends haction hfirst]
      exact List.mem_cons_self
    · exact List.mem_cons_of_mem _ (ih hrest)
  | cut haction =>
    rw [hends haction hpoll]
    exact List.mem_cons_self

/-! ## Plans without waits -/

section Quiet

variable (hquiet : ∀ node, .watch node ∉ plan)
include hquiet

/-- A plan without waits neither polls nor sleeps. -/
theorem countP_eq_zero (h : Performed plan log stop) :
    log.countP Event.isPoll = 0 ∧ log.countP Event.isSleep = 0 := by
  have hends {action : Action} {log : List Event} {stop : Option (Stop AbortReason)}
      (haction : action.Ends log stop) (hnot : ∀ node, action ≠ .watch node) :
      log.countP Event.isPoll = 0 ∧ log.countP Event.isSleep = 0 := by
    cases haction with
    | watch _ => exact absurd rfl (hnot _)
    | _ => exact ⟨rfl, rfl⟩
  induction h with
  | nil => exact ⟨rfl, rfl⟩
  | step haction _ ih =>
    obtain ⟨hpolls, hsleeps⟩ := hends haction fun node heq ↦ hquiet node (heq ▸ List.mem_cons_self)
    obtain ⟨hpolls', hsleeps'⟩ := ih fun node hmem ↦ hquiet node (List.mem_cons_of_mem _ hmem)
    rw [List.countP_append, List.countP_append, hpolls, hsleeps, hpolls', hsleeps']
    exact ⟨rfl, rfl⟩
  | cut haction => exact hends haction fun node heq ↦ hquiet node (heq ▸ List.mem_cons_self)

/-- A plan without waits that runs into a fault does so at its last event. -/
theorem exists_isFault {f : Fault} (h : Performed plan log (some (.fault f))) :
    ∃ front event, log = front ++ [event] ∧ event.IsFault f := by
  generalize hstop : some (Stop.fault f) = stop at h
  induction h with
  | nil => cases hstop
  | @step action plan log rest stop _ _ ih =>
    obtain ⟨front, event, rfl, hfault⟩ :=
      ih (fun node hmem ↦ hquiet node (List.mem_cons_of_mem _ hmem)) hstop
    exact ⟨log ++ front, event, (List.append_assoc _ _ _).symm, hfault⟩
  | cut haction =>
    obtain rfl := Option.some.inj hstop
    cases haction with
    | init h | generated h | copied h | launch h _ =>
      cases h <;> exact ⟨[], _, rfl, rfl⟩
    | watch _ => exact absurd List.mem_cons_self (hquiet _)

end Quiet

end Performed

end BlockWatch
