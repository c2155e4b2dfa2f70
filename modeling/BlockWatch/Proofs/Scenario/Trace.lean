import BlockWatch.Proofs.Progress.Course
import BlockWatch.Scenario.Run

/-!
# The trace of a run

A run enters phases, makes calls and sleeps. Each of these events begins in the state that the events
before it leave, and that state says what comes of it: what the site replies, and whether the clock
can hold the moment at which the event ends. So the log of a run shows what was really answered, and
a fault in it has its reason in the state at hand.
-/

namespace BlockWatch

/-! ## Calls and their replies -/

/-- What comes back from a call. -/
@[reducible]
def Call.Reply : Call → Type
  | .init _ => Except (Stop BringupError) (List NodeHome)
  | .populate _ _ => Except (Stop BringupError) Unit
  | .copySnapshot _ _ => Except (Stop BringupError) Unit
  | .launch _ _ => Except (Stop BringupError) Node
  | .poll _ => Report
  | .shutdown => Except (Stop BringupError) Unit

/-- What is called was stopped by a fault. -/
def Call.IsFault (f : Fault) : (call : Call) → call.Reply → Prop
  | .init _, reply => reply = .error (.fault f)
  | .populate _ _, reply => reply = .error (.fault f)
  | .copySnapshot _ _, reply => reply = .error (.fault f)
  | .launch _ _, reply => reply = .error (.fault f)
  | .poll _, _ => False
  | .shutdown, reply => reply = .error (.fault f)

def Call.isPoll : Call → Bool
  | poll _ => true
  | _ => false

def Site.answer {τ : Type} (site : Site τ) : (call : Call) → τ → Answer τ call.Reply
  | .init layout => site.init layout
  | .populate accounts homes => site.populate accounts homes
  | .copySnapshot source homes => site.copySnapshot source homes
  | .launch home boot => site.launch home boot
  | .poll node => site.poll node
  | .shutdown => site.shutdown

/-! ## Phases -/

namespace PhaseTracker

/-- Enters phases in order. -/
def enterAll (tracker : PhaseTracker) (phases : List Phase) : PhaseTracker :=
  phases.foldl enter tracker

theorem enterAll_append (tracker : PhaseTracker) (phases later : List Phase) :
    tracker.enterAll (phases ++ later) = (tracker.enterAll phases).enterAll later :=
  List.foldl_append

theorem history_enterAll (tracker : PhaseTracker) (phases : List Phase) :
    (tracker.enterAll phases).history = tracker.history ++ phases := by
  induction phases generalizing tracker with
  | nil => exact (List.append_nil _).symm
  | cons phase rest ih =>
    calc
      (tracker.enterAll (phase :: rest)).history = (tracker.enter phase).history ++ rest :=
        ih (tracker.enter phase)
      _ = tracker.history ++ phase :: rest := List.append_assoc tracker.history [phase] rest

/-- Once a phase was entered, the current one is the last. -/
theorem getLast?_enterAll (tracker : PhaseTracker) {phases : List Phase} (h : phases ≠ []) :
    phases.getLast? = some (tracker.enterAll phases).current := by
  obtain ⟨front, phase, rfl⟩ := List.eq_nil_or_concat' phases |>.resolve_left h
  rw [enterAll_append, List.getLast?_concat]
  rfl

theorem getLast?_history_enterAll (tracker : PhaseTracker) {phases : List Phase}
    (h : phases ≠ []) :
    (tracker.enterAll phases).history.getLast? = some (tracker.enterAll phases).current := by
  rw [history_enterAll, List.getLast?_append_of_ne_nil _ h]
  exact getLast?_enterAll tracker h

end PhaseTracker

/-- The state in which a phase begins. -/
def RunState.entering {τ : Type} (s : RunState τ) (phase : Phase) : RunState τ :=
  { s with tracker := s.tracker.enter phase }

/-- Sleeps on a stage. It stays as it is if the clock cannot hold the moment after the sleep. -/
def Stage.sleep {τ κ : Type} (stage : Stage τ κ) (d : Span) : Except Fault Unit × Stage τ κ :=
  match stage.clock.sleep d with
  | .ok clock => (.ok (), { stage with clock })
  | .error f => (.error f, stage)

theorem Stage.sleep_of_ok {τ κ : Type} {stage next : Stage τ κ} {d : Span}
    (h : stage.sleep d = (.ok (), next)) :
    next.calls = stage.calls ∧ next.clock.sleeps = stage.clock.sleeps ++ [d] ∧
      next.clock.now.nanos = stage.clock.now.nanos + d.nanos := by
  unfold sleep Clock.sleep at h
  cases hlater : stage.clock.now.later? d with
  | none =>
    rw [hlater] at h
    cases h
  | some now =>
    rw [hlater] at h
    cases h
    exact ⟨rfl, rfl, Moment.later?_eq_some.mp hlater⟩

theorem Stage.sleep_of_error {τ κ : Type} {stage next : Stage τ κ} {d : Span} {f : Fault}
    (h : stage.sleep d = (.error f, next)) :
    next = stage ∧ f = .moment ∧ Moment.limit ≤ stage.clock.now.nanos + d.nanos := by
  unfold sleep Clock.sleep at h
  cases hlater : stage.clock.now.later? d with
  | none =>
    rw [hlater] at h
    cases h
    refine ⟨rfl, rfl, Nat.le_of_not_lt fun hroom ↦ ?_⟩
    rw [Moment.later?, dif_pos hroom] at hlater
    cases hlater
  | some now =>
    rw [hlater] at h
    cases h

/-! ## Events -/

/-- What a run does that can be seen from outside. A call gets its reply and a sleep ends, unless the
clock cannot hold the moment at which that happens. -/
inductive Event
  | enter (phase : Phase)
  | call (call : Call) (outcome : Except Fault call.Reply)
  | sleep (outcome : Except Fault Unit)

namespace Event

def phase? : Event → Option Phase
  | enter phase => some phase
  | _ => none

def call? : Event → Option Call
  | call made _ => some made
  | _ => none

/-- The home that is launched, whether or not the launch succeeds. -/
def launched? : Event → Option NodeHome
  | call (.launch home _) _ => some home
  | _ => none

def isPoll : Event → Bool
  | call made _ => made.isPoll
  | _ => false

/-- A sleep that ends. -/
def isSleep : Event → Bool
  | sleep (.ok _) => true
  | _ => false

/-- The event was stopped by a fault. -/
def IsFault (f : Fault) : Event → Prop
  | call made (.ok reply) => made.IsFault f reply
  | call _ (.error g) => g = f
  | sleep (.error g) => g = f
  | _ => False

end Event

namespace Scenario

variable {τ : Type}

/-- What an event that begins in a state leaves. -/
def Step (scenario : Scenario τ) (s : RunState τ) : Event → RunState τ → Prop
  | .enter phase, next => next = s.entering phase
  | .call call outcome, next =>
    s.stage.call call (scenario.site.answer call s.stage.field) = (outcome, next.stage) ∧
      next.tracker = s.tracker
  | .sleep outcome, next =>
    s.stage.sleep scenario.config.pollInterval = (outcome, next.stage) ∧ next.tracker = s.tracker

/-- Why an event that begins in a state is stopped by a fault: a call is answered with it, or the
clock cannot hold the moment after that call or that sleep. -/
inductive Breaks (scenario : Scenario τ) (s : RunState τ) : Event → Fault → Prop
  | answered {call : Call} {reply : call.Reply} {f : Fault} (h : call.IsFault f reply) :
      Breaks scenario s (.call call (.ok reply)) f
  | unanswered {call : Call}
      (hlong : Moment.limit ≤ s.stage.clock.now.nanos +
        (scenario.site.answer call s.stage.field).took.nanos) :
      Breaks scenario s (.call call (.error .moment)) .moment
  | sleepless
      (hlong : Moment.limit ≤ s.stage.clock.now.nanos + scenario.config.pollInterval.nanos) :
      Breaks scenario s (.sleep (.error .moment)) .moment

variable {scenario : Scenario τ} {s next : RunState τ} {event : Event}

theorem Step.breaks {f : Fault} (h : scenario.Step s event next) (hfault : event.IsFault f) :
    scenario.Breaks s event f := by
  match event with
  | .call call (.ok reply) => exact .answered hfault
  | .call call (.error g) =>
    obtain rfl : g = f := hfault
    obtain ⟨rfl, hlong⟩ := s.stage.call_fault call _ (congrArg Prod.fst h.1)
    exact .unanswered hlong
  | .sleep (.error g) =>
    obtain rfl : g = f := hfault
    obtain ⟨-, rfl, hlong⟩ := Stage.sleep_of_error h.1
    exact .sleepless hlong

/-- A sleep that ends is recorded and moves the clock by the interval between polls. Nothing else is
recorded as a sleep, and nothing moves the clock back. -/
theorem Step.clock_cases (h : scenario.Step s event next) :
    event.isSleep = true ∧
        next.stage.clock.sleeps = s.stage.clock.sleeps ++ [scenario.config.pollInterval] ∧
        next.stage.clock.now.nanos =
          s.stage.clock.now.nanos + scenario.config.pollInterval.nanos ∨
      event.isSleep = false ∧ next.stage.clock.sleeps = s.stage.clock.sleeps ∧
        s.stage.clock.now.nanos ≤ next.stage.clock.now.nanos := by
  match event with
  | .enter phase =>
    obtain rfl : next = s.entering phase := h
    exact .inr ⟨rfl, rfl, Nat.le_refl _⟩
  | .call call _ =>
    obtain ⟨hsleeps, hnow, -⟩ :=
      s.stage.call_clock call (scenario.site.answer call s.stage.field)
    rw [h.1] at hsleeps hnow
    exact .inr ⟨rfl, hsleeps, hnow⟩
  | .sleep (.ok _) =>
    obtain ⟨-, hsleeps, hnow⟩ := Stage.sleep_of_ok h.1
    exact .inl ⟨rfl, hsleeps, hnow⟩
  | .sleep (.error _) =>
    obtain ⟨hstage, -⟩ := Stage.sleep_of_error h.1
    rw [hstage]
    exact .inr ⟨rfl, rfl, Nat.le_refl _⟩

/-! ## Logs -/

/-- The events of a log happen one after another. -/
inductive Logged (scenario : Scenario τ) : RunState τ → List Event → RunState τ → Prop
  | nil (s : RunState τ) : Logged scenario s [] s
  | cons {s next last : RunState τ} {event : Event} {log : List Event}
      (h : scenario.Step s event next) (hrest : Logged scenario next log last) :
      Logged scenario s (event :: log) last

namespace Logged

variable {last : RunState τ} {log rest : List Event}

theorem single (h : scenario.Step s event next) : scenario.Logged s [event] next :=
  .cons h (.nil next)

theorem append (h : scenario.Logged s log next) (hrest : scenario.Logged next rest last) :
    scenario.Logged s (log ++ rest) last := by
  induction h with
  | nil => exact hrest
  | cons hstep _ ih => exact .cons hstep (ih hrest)

theorem enter (h : scenario.Logged s log last) (phase : Phase) :
    scenario.Logged s (log ++ [.enter phase]) (last.entering phase) :=
  h.append (.single rfl)

/-- The last event of a log begins in the state that the ones before it leave. -/
theorem of_concat (h : scenario.Logged s (log ++ [event]) last) :
    ∃ before, scenario.Logged s log before ∧ scenario.Step before event last := by
  induction log generalizing s with
  | nil =>
    cases h with
    | cons hstep hrest =>
      cases hrest
      exact ⟨s, .nil s, hstep⟩
  | cons first log ih =>
    cases h with
    | cons hstep hrest =>
      obtain ⟨before, hlog, hlast⟩ := ih hrest
      exact ⟨before, .cons hstep hlog, hlast⟩

theorem tracker (h : scenario.Logged s log last) :
    last.tracker = s.tracker.enterAll (log.filterMap Event.phase?) := by
  induction h with
  | nil => rfl
  | @cons s next last event log hstep _ ih =>
    rw [ih]
    match event with
    | .enter phase => exact hstep ▸ rfl
    | .call .. => exact hstep.2 ▸ rfl
    | .sleep _ => exact hstep.2 ▸ rfl

theorem calls (h : scenario.Logged s log last) :
    last.stage.calls = s.stage.calls ++ log.filterMap Event.call? := by
  induction h with
  | nil => exact (List.append_nil _).symm
  | @cons s next last event log hstep _ ih =>
    rw [ih]
    match event with
    | .enter phase => exact hstep ▸ rfl
    | .call call _ =>
      have hcalls := (s.stage.call_spec call (scenario.site.answer call s.stage.field)).1
      rw [hstep.1] at hcalls
      rw [hcalls, List.append_assoc]
      rfl
    | .sleep (.ok _) =>
      rw [(Stage.sleep_of_ok hstep.1).1]
      rfl
    | .sleep (.error _) =>
      rw [(Stage.sleep_of_error hstep.1).1]
      rfl

theorem sleeps (h : scenario.Logged s log last) :
    last.stage.clock.sleeps = s.stage.clock.sleeps ++
      List.replicate (log.countP Event.isSleep) scenario.config.pollInterval := by
  induction h with
  | nil => exact (List.append_nil _).symm
  | cons hstep _ ih =>
    rcases hstep.clock_cases with ⟨hsleep, hslept, -⟩ | ⟨hsleep, hslept, -⟩
    · rw [ih, hslept, List.countP_cons_of_pos hsleep, List.append_assoc, List.replicate_succ]
      rfl
    · rw [ih, hslept, List.countP_cons_of_neg (Bool.not_eq_true _ ▸ hsleep)]

/-- The clock moves by the sleeps at least. -/
theorem clock (h : scenario.Logged s log last) :
    s.stage.clock.now.nanos + log.countP Event.isSleep * scenario.config.pollInterval.nanos ≤
      last.stage.clock.now.nanos := by
  induction h with
  | nil =>
    rw [List.countP_nil, Nat.zero_mul]
    exact Nat.le_refl _
  | cons hstep _ ih =>
    rcases hstep.clock_cases with ⟨hsleep, -, hnow⟩ | ⟨hsleep, -, hnow⟩
    · rw [List.countP_cons_of_pos hsleep, Nat.succ_mul]
      omega
    · rw [List.countP_cons_of_neg (Bool.not_eq_true _ ▸ hsleep)]
      omega

end Logged

/-! ## Faults -/

/-- From one state to another events happen, and the last of them is stopped by a fault. -/
def Faults (scenario : Scenario τ) (s last : RunState τ) (f : Fault) : Prop :=
  ∃ log before event, scenario.Logged s log before ∧ scenario.Step before event last ∧
    scenario.Breaks before event f

theorem Logged.faults {last : RunState τ} {log : List Event} {f : Fault}
    (h : scenario.Logged s (log ++ [event]) last) (hfault : event.IsFault f) :
    scenario.Faults s last f := by
  obtain ⟨before, hlog, hstep⟩ := h.of_concat
  exact ⟨log, before, event, hlog, hstep, hstep.breaks hfault⟩

theorem Faults.prepend {last : RunState τ} {log : List Event} {f : Fault}
    (hlog : scenario.Logged s log next) (h : scenario.Faults next last f) :
    scenario.Faults s last f := by
  obtain ⟨rest, before, event, hrest, hlast⟩ := h
  exact ⟨log ++ rest, before, event, hlog.append hrest, hlast⟩

end Scenario

end BlockWatch
