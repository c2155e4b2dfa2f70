import BlockWatch.Proofs.Cluster.Beside
import Mathlib.Data.List.DropRight

/-!
# Tracked processes

A cluster may get any calls in any order, and all that its machine does may fail. What it tracks are
the processes of the nodes that were launched since the last shutdown. A call that fails tracks
nothing, and a shutdown stops and reaps whatever is tracked, in the order of launch.
-/

namespace BlockWatch

variable {σ τ ε α β : Type}

/-! ## Deeds -/

/-- What a machine does for the processes of nodes. -/
inductive Deed
  | createFile (path : Path)
  | start (command : Command) (process : Option ℕ)
  | look (process : ℕ)
  | kill (process : ℕ)
  | await (process : ℕ)
deriving DecidableEq

/-- The process that was started. -/
def Deed.started? : Deed → Option ℕ
  | start _ process => process
  | _ => none

namespace Op

theorem run_map (f : α → β) (op : Op σ ε α) (s : σ) :
    (f <$> op).run.run s = ((op.run.run s).1.map f, (op.run.run s).2) := by
  rw [map_eq_pure_bind, run_bind]
  rcases op.run.run s with ⟨cause | value, next⟩ <;> rfl

theorem Mirrors.map {f : σ → τ} {op : Op σ ε α} {base : Op τ ε α} (h : Mirrors f op base)
    (g : α → β) : Mirrors f (g <$> op) (g <$> base) := by
  intro s
  rw [run_map, run_map, h s]

/-- An operation that is put down in a record. -/
def noted (op : Op σ ε α) (deed : Except ε α → Deed) : Op (σ × List Deed) ε α := fun s ↦
  let (outcome, next) := op.run.run s.1
  (outcome, (next, s.2 ++ [deed outcome]))

theorem mirrors_noted (op : Op σ ε α) (deed : Except ε α → Deed) :
    Mirrors Prod.fst (op.noted deed) op := fun _ ↦ rfl

theorem gives_noted (op : Op σ ε α) (deed : Except ε α → Deed) {s s' : σ × List Deed} {value : α}
    (h : Gives (op.noted deed) s value s') : s'.2 = s.2 ++ [deed (.ok value)] := by
  obtain ⟨hvalue, rfl⟩ := Prod.mk.inj h
  rw [← hvalue]

end Op

open Op (beside mirrors_beside mirrors_noted)

/-- The machine with a record of what it does for the processes of nodes. -/
def Machine.recorded (machine : Machine σ) : Machine (σ × List Deed) where
  exists_ path := beside (machine.exists_ path)
  readText path := beside (machine.readText path)
  writeText path text := beside (machine.writeText path text)
  makeDirectories path := beside (machine.makeDirectories path)
  removeTree path := beside (machine.removeTree path)
  copyFile source target := beside (machine.copyFile source target)
  list path := beside (machine.list path)
  run command := beside (machine.run command)
  createFile path := (machine.createFile path).noted fun _ ↦ .createFile path
  start command output complaints :=
    (machine.start command output complaints).noted fun outcome ↦ .start command outcome.toOption
  ended? process := (machine.ended? process).noted fun _ ↦ .look process
  kill process := (machine.kill process).noted fun _ ↦ .kill process
  await process := (machine.await process).noted fun _ ↦ .await process

section Recorded

variable {machine : Machine σ} {s s' : σ × List Deed}

theorem gives_createFile_recorded {path : Path}
    (h : Op.Gives (machine.recorded.createFile path) s () s') :
    s'.2 = s.2 ++ [.createFile path] :=
  Op.gives_noted (machine.createFile path) (fun _ ↦ .createFile path) h

theorem gives_start_recorded {command : Command} {output complaints : Path} {process : ℕ}
    (h : Op.Gives (machine.recorded.start command output complaints) s process s') :
    s'.2 = s.2 ++ [.start command (some process)] :=
  Op.gives_noted (machine.start command output complaints)
    (fun outcome ↦ .start command outcome.toOption) h

theorem gives_ended?_recorded {process : ℕ} {status : Option ExitStatus}
    (h : Op.Gives (machine.recorded.ended? process) s status s') :
    s'.2 = s.2 ++ [.look process] :=
  Op.gives_noted (machine.ended? process) (fun _ ↦ .look process) h

end Recorded

theorem Machine.adorns_recorded (machine : Machine σ) : machine.recorded.Adorns machine where
  exists_ _ := rfl
  readText _ := rfl
  writeText _ _ := rfl
  makeDirectories _ := rfl
  removeTree _ := rfl
  copyFile _ _ := rfl
  list _ := rfl
  run _ := rfl
  createFile _ := mirrors_noted _ _
  start _ _ _ := mirrors_noted _ _
  ended? _ := mirrors_noted _ _
  kill _ := mirrors_noted _ _
  await _ := mirrors_noted _ _

namespace LocalCluster

/-! ## Calls -/

/-- A call on a cluster. -/
inductive Request
  | init (layout : Layout)
  | launch (home : NodeHome) (boot : Option Node)
  | addObserver (home : NodeHome) (leader : Node)
  | shutdown

namespace Request

/-- The home whose node a call launches. -/
def home? : Request → Option NodeHome
  | launch home _ => some home
  | addObserver home _ => some home
  | _ => none

def isShutdown : Request → Bool
  | shutdown => true
  | _ => false

end Request

/-- What a call that succeeds answers. -/
inductive Reply
  | homes (homes : List NodeHome)
  | node (node : Node)
  | closed

/-- A call, its outcome, and what the machine did meanwhile for the processes of nodes. -/
structure Event where
  request : Request
  outcome : Except (Stop BringupError) Reply
  deeds : List Deed

namespace Event

/-- Whether a node was launched. -/
def launched (event : Event) : Bool := event.request.home?.isSome && event.outcome.isOk

/-- The processes that were started for a node that was launched. -/
def kept (event : Event) : List Tracked :=
  match event.request.home?, event.outcome with
  | some home, .ok _ =>
    (event.deeds.filterMap Deed.started?).map fun process ↦ ⟨home.ordinal, process⟩
  | _, _ => []

theorem launched_of_error {event : Event} {stop : Stop BringupError}
    (h : event.outcome = .error stop) : event.launched = false := by
  rw [launched, h]
  exact Bool.and_false _

theorem kept_of_not_launched {event : Event} (h : event.launched = false) : event.kept = [] := by
  rw [launched] at h
  rw [kept]
  cases hhome : event.request.home? with
  | none => rfl
  | some home =>
    cases houtcome : event.outcome with
    | error stop => rfl
    | ok reply =>
      rw [hhome, houtcome] at h
      cases h

/-- What happened after the last shutdown. -/
def sinceShutdown (events : List Event) : List Event :=
  events.rtakeWhile fun event ↦ !event.request.isShutdown

theorem sinceShutdown_concat (events : List Event) (event : Event) :
    sinceShutdown (events ++ [event]) =
      if event.request.isShutdown then [] else sinceShutdown events ++ [event] := by
  rw [sinceShutdown, List.rtakeWhile_concat]
  cases event.request.isShutdown <;> rfl

end Event

def perform (cluster : LocalCluster σ) : Request → Bringup (ClusterState σ) Reply
  | .init layout => .homes <$> cluster.init layout
  | .launch home boot => .node <$> cluster.launch home boot
  | .addObserver home leader => .node <$> addObserver cluster.launch home leader
  | .shutdown => (fun _ ↦ .closed) <$> cluster.shutdown

/-- The cluster on the machine with a record. -/
def recorded (cluster : LocalCluster σ) : LocalCluster (σ × List Deed) :=
  cluster.on cluster.machine.recorded

/-- A call as it happens, and the state that it leaves. -/
def record (cluster : LocalCluster σ) (state : ClusterState σ) (request : Request) :
    Event × ClusterState σ :=
  let (outcome, next) :=
    (cluster.recorded.perform request).run.run ⟨(state.machine, []), state.tracked⟩
  (⟨request, outcome, next.machine.2⟩, next.forget)

/-- What happened to a cluster so far, and its state. -/
structure Session (σ : Type) where
  events : List Event
  state : ClusterState σ

/-- Any calls one after the other, from a state in which nothing is tracked. -/
def session (cluster : LocalCluster σ) (machine : σ) (requests : List Request) : Session σ :=
  requests.foldl (fun session request ↦
    let (event, next) := cluster.record session.state request
    ⟨session.events ++ [event], next⟩) ⟨[], ⟨machine, []⟩⟩

/-! ## One call -/

variable (cluster : LocalCluster σ) {home : NodeHome} {boot : Option Node} {request : Request}

theorem mirrors_addObserver (home : NodeHome) (leader : Node) :
    Op.Mirrors ClusterState.forget (addObserver cluster.recorded.launch home leader)
      (addObserver cluster.launch home leader) := by
  by_cases hrole : home.role = .observer
  · simp only [addObserver, if_pos hrole]
    exact cluster.machine.adorns_recorded.mirrors_launch home (some leader)
  · simp only [addObserver, if_neg hrole]
    exact Op.mirrors_throw _ _

theorem mirrors_perform (request : Request) :
    Op.Mirrors ClusterState.forget (cluster.recorded.perform request)
      (cluster.perform request) := by
  have hadorns := cluster.machine.adorns_recorded
  cases request with
  | init layout => exact (hadorns.mirrors_init layout).map _
  | launch home boot => exact (hadorns.mirrors_launch home boot).map _
  | addObserver home leader => exact (cluster.mirrors_addObserver home leader).map _
  | shutdown => exact hadorns.mirrors_shutdown.map _

/-- What is put down is what the call does. -/
theorem outcome_record (state : ClusterState σ) (request : Request) :
    ((cluster.record state request).1.outcome, (cluster.record state request).2) =
      (cluster.perform request).run.run state :=
  (cluster.mirrors_perform request ⟨(state.machine, []), state.tracked⟩).symm

theorem run_launch (home : NodeHome) (boot : Option Node) (state : ClusterState σ) :
    (cluster.launch home boot).run.run state =
      match (cluster.startProcess home boot).run.run state.machine with
      | (.ok process, machine) =>
        (.ok home.toNode, ⟨machine, state.tracked ++ [⟨home.ordinal, process⟩]⟩)
      | (.error stop, machine) => (.error stop, ⟨machine, state.tracked⟩) := by
  have hmachine : (onMachine (cluster.startProcess home boot)).run.run state =
      (((cluster.startProcess home boot).run.run state.machine).1,
        ⟨((cluster.startProcess home boot).run.run state.machine).2, state.tracked⟩) := rfl
  rw [launch, Op.run_bind, hmachine]
  rcases (cluster.startProcess home boot).run.run state.machine with ⟨stop | process, next⟩ <;> rfl

/-- What a start that succeeds puts down: one process, looked after once. -/
def startDeeds (cluster : LocalCluster σ) (home : NodeHome) (boot : Option Node) (process : ℕ) :
    List Deed :=
  [.createFile (home.directory.child "stdout"), .createFile (home.directory.child "stderr"),
    .start (cluster.nodeCommand home boot) (some process), .look process]

theorem deeds_startProcess {s s' : σ × List Deed} {process : ℕ}
    (h : Op.Gives (cluster.recorded.startProcess home boot) s process s') :
    s'.2 = s.2 ++ cluster.startDeeds home boot process := by
  obtain ⟨_, s₁, hstdout, h⟩ := Op.gives_bind h
  obtain ⟨_, s₂, hstderr, h⟩ := Op.gives_bind h
  obtain ⟨started, s₃, hstart, h⟩ := Op.gives_bind h
  obtain ⟨status, s₄, hlook, h⟩ := Op.gives_bind h
  have h₁ := gives_createFile_recorded (Op.gives_adapt hstdout)
  have h₂ := gives_createFile_recorded (Op.gives_adapt hstderr)
  have h₃ := gives_start_recorded (Op.gives_adapt hstart)
  have h₄ := gives_ended?_recorded (Machine.gives_lookAfter (Op.gives_adapt hlook))
  cases status with
  | some status => exact absurd h Bringup.not_gives_fail
  | none =>
    obtain ⟨rfl, rfl⟩ := Op.gives_pure h
    rw [h₄, h₃, h₂, h₁, List.append_assoc, List.append_assoc, List.append_assoc]
    rfl

/-- A call keeps the process of the node that it launches, if any, unless it is a shutdown. -/
structure Follows (event : Event) (tracked next : List Tracked) : Prop where
  length_kept : event.kept.length = event.launched.toNat
  tracked : next = if event.request.isShutdown then [] else tracked ++ event.kept

theorem follows_of_not_launched {event : Event} {tracked : List Tracked}
    (h : event.launched = false) (hopen : event.request.isShutdown = false) :
    Follows event tracked tracked := by
  have hkept := Event.kept_of_not_launched h
  constructor
  · rw [hkept, h]
    rfl
  · rw [hkept, hopen, List.append_nil]
    rfl

theorem follows_record_of_launch {state : ClusterState σ} (hhome : request.home? = some home)
    (hopen : request.isShutdown = false)
    (hperform : cluster.recorded.perform request = .node <$> cluster.recorded.launch home boot) :
    Follows (cluster.record state request).1 state.tracked
      (cluster.record state request).2.tracked := by
  rw [record, hperform, Op.run_map, run_launch]
  generalize hstart : (cluster.recorded.startProcess home boot).run.run (state.machine, []) = done
  obtain ⟨outcome, next⟩ := done
  cases outcome with
  | error stop => exact follows_of_not_launched (Event.launched_of_error rfl) hopen
  | ok process =>
    have hdeeds : next.2 = cluster.startDeeds home boot process :=
      cluster.deeds_startProcess hstart
    have hkept : Event.kept ⟨request, .ok (.node home.toNode), next.2⟩ =
        [⟨home.ordinal, process⟩] := by
      rw [hdeeds, Event.kept, hhome]
      rfl
    constructor
    · change (Event.kept ⟨request, .ok (.node home.toNode), next.2⟩).length =
        (request.home?.isSome && true).toNat
      rw [hkept, hhome]
      rfl
    · change state.tracked ++ [⟨home.ordinal, process⟩] = if request.isShutdown then [] else
        state.tracked ++ Event.kept ⟨request, .ok (.node home.toNode), next.2⟩
      rw [hkept, hopen]
      rfl

theorem record_addObserver {state : ClusterState σ} (hrole : home.role ≠ .observer)
    (leader : Node) : cluster.record state (.addObserver home leader) =
      (⟨.addObserver home leader,
        .error (.error (.unexpectedRole home.ordinal .observer home.role)), []⟩, state) := by
  have hperform : cluster.recorded.perform (.addObserver home leader) =
      .node <$> Bringup.fail (.unexpectedRole home.ordinal .observer home.role) := by
    rw [perform, addObserver, if_neg hrole]
  rw [record, hperform]
  rfl

/-- Stopping processes puts down that each of them is killed and then awaited, in order. -/
theorem foldl_stop_recorded (tracked : List Tracked) (s : σ × List Deed) :
    (tracked.foldl (stop cluster.machine.recorded) s).2 = s.2 ++
      tracked.flatMap fun node ↦ [.kill node.process, .await node.process] := by
  induction tracked generalizing s with
  | nil => simp
  | cons first rest ih =>
    have hfirst : (stop cluster.machine.recorded s first).2 =
        s.2 ++ [.kill first.process] ++ [.await first.process] := rfl
    rw [List.foldl_cons, ih, hfirst]
    simp

theorem record_shutdown (state : ClusterState σ) :
    (cluster.record state .shutdown).1 = ⟨.shutdown, .ok .closed,
        state.tracked.flatMap fun node ↦ [.kill node.process, .await node.process]⟩ ∧
      (cluster.record state .shutdown).2.tracked = [] := by
  have hdeeds := cluster.foldl_stop_recorded state.tracked (state.machine, [])
  refine ⟨?_, rfl⟩
  exact congrArg (Event.mk .shutdown (.ok .closed)) hdeeds

/-- What one call does to the tracked processes. -/
theorem follows_record (state : ClusterState σ) (request : Request) :
    Follows (cluster.record state request).1 state.tracked
      (cluster.record state request).2.tracked := by
  cases request with
  | init layout =>
    have hnext : (cluster.record state (.init layout)).2.tracked = state.tracked := by
      rw [record, perform, Op.run_map]
      rfl
    rw [hnext]
    exact follows_of_not_launched rfl rfl
  | launch home boot => exact cluster.follows_record_of_launch rfl rfl rfl
  | addObserver home leader =>
    by_cases hrole : home.role = .observer
    · have hperform : cluster.recorded.perform (.addObserver home leader) =
          .node <$> cluster.recorded.launch home (some leader) := by
        rw [perform, addObserver, if_pos hrole]
      exact cluster.follows_record_of_launch rfl rfl hperform
    · rw [record_addObserver cluster hrole]
      exact follows_of_not_launched rfl rfl
  | shutdown =>
    obtain ⟨hevent, hnext⟩ := cluster.record_shutdown state
    rw [hevent, hnext]
    exact ⟨rfl, rfl⟩

/-- How a call goes: it is the call of the cluster without a record, one that lays out or fails tracks
nothing new, an observer's call for a validator is refused before anything is done, and a shutdown
stops and reaps what is tracked, whatever fails on the way. -/
structure Answers (state : ClusterState σ) (event : Event) (next : ClusterState σ) : Prop where
  performed : (event.outcome, next) = (cluster.perform event.request).run.run state
  laidOut : ∀ layout, event.request = .init layout → next.tracked = state.tracked
  failed : ∀ stop, event.outcome = .error stop → next.tracked = state.tracked
  refused : ∀ home leader, event.request = .addObserver home leader → home.role = .validator →
    (∃ cause, event.outcome = .error (.error cause) ∧ cause.code = "UNEXPECTED_ROLE") ∧
      event.deeds = [] ∧ next = state
  closed : event.request = .shutdown → event.outcome = .ok .closed ∧
    event.deeds = (state.tracked.flatMap fun node ↦ [.kill node.process, .await node.process]) ∧
    next.tracked = []

theorem tracked_record_of_not_launched {state : ClusterState σ}
    (h : (cluster.record state request).1.launched = false)
    (hopen : request.isShutdown = false) :
    (cluster.record state request).2.tracked = state.tracked := by
  have hrequest : (cluster.record state request).1.request = request := rfl
  rw [(cluster.follows_record state request).tracked, hrequest, hopen,
    Event.kept_of_not_launched h]
  exact List.append_nil _

theorem answers_record (state : ClusterState σ) (request : Request) :
    cluster.Answers state (cluster.record state request).1 (cluster.record state request).2 where
  performed := cluster.outcome_record state request
  laidOut := by
    rintro layout rfl
    exact cluster.tracked_record_of_not_launched rfl rfl
  failed := by
    intro stop hstop
    apply cluster.tracked_record_of_not_launched (Event.launched_of_error hstop)
    cases request with
    | shutdown => rw [(cluster.record_shutdown state).1] at hstop; cases hstop
    | _ => rfl
  refused := by
    rintro home leader rfl hrole
    have hother : home.role ≠ .observer := by
      rw [hrole]
      decide
    rw [record_addObserver cluster hother]
    exact ⟨⟨_, rfl, rfl⟩, rfl, rfl⟩
  closed := by
    rintro rfl
    obtain ⟨hevent, hnext⟩ := cluster.record_shutdown state
    rw [hevent]
    exact ⟨rfl, rfl, hnext⟩

/-! ## Any calls -/

/-- What is tracked are the processes of the nodes launched since the last shutdown. -/
structure Tracks (session : Session σ) : Prop where
  tracked : session.state.tracked = (Event.sinceShutdown session.events).flatMap Event.kept
  running : running session.state = (Event.sinceShutdown session.events).countP Event.launched

theorem session_concat (machine : σ) (requests : List Request) (request : Request) :
    cluster.session machine (requests ++ [request]) =
      ⟨(cluster.session machine requests).events ++
          [(cluster.record (cluster.session machine requests).state request).1],
        (cluster.record (cluster.session machine requests).state request).2⟩ := by
  rw [session, List.foldl_append]
  rfl

theorem Tracks.snoc {session : Session σ} (h : Tracks session) {event : Event}
    {next : ClusterState σ} (hfollows : Follows event session.state.tracked next.tracked) :
    Tracks ⟨session.events ++ [event], next⟩ := by
  have htracked := hfollows.tracked
  cases hshutdown : event.request.isShutdown with
  | true =>
    rw [hshutdown] at htracked
    constructor <;> simp [Event.sinceShutdown_concat, hshutdown, htracked, LocalCluster.running]
  | false =>
    have hkept : next.tracked = session.state.tracked ++ event.kept := by
      rw [htracked, hshutdown]
      rfl
    have hsince : Event.sinceShutdown (session.events ++ [event]) =
        Event.sinceShutdown session.events ++ [event] := by
      rw [Event.sinceShutdown_concat, hshutdown]
      rfl
    constructor
    · rw [hkept, hsince, h.tracked, List.flatMap_append, List.flatMap_singleton]
    · calc
        next.tracked.length = LocalCluster.running session.state + event.launched.toNat := by
          rw [hkept, List.length_append, hfollows.length_kept]
          rfl
        _ = (Event.sinceShutdown (session.events ++ [event])).countP Event.launched := by
          rw [h.running, hsince, List.countP_append, List.countP_singleton]
          cases event.launched <;> rfl

theorem tracks_session (machine : σ) (requests : List Request) :
    Tracks (cluster.session machine requests) := by
  induction requests using List.reverseRecOn with
  | nil => exact ⟨rfl, rfl⟩
  | append_singleton requests request ih =>
    rw [session_concat]
    exact ih.snoc (cluster.follows_record _ request)

theorem map_request_session (machine : σ) (requests : List Request) :
    (cluster.session machine requests).events.map Event.request = requests := by
  induction requests using List.reverseRecOn with
  | nil => rfl
  | append_singleton requests request ih =>
    rw [session_concat, List.map_append, ih]
    rfl

/-- Whatever calls came before, as many processes run as nodes were launched since the last shutdown,
and the next call goes as it should. -/
theorem running_session (machine : σ) (requests : List Request) :
    let session := cluster.session machine requests
    session.events.map Event.request = requests ∧
      running session.state = (Event.sinceShutdown session.events).countP Event.launched ∧
      session.state.tracked = (Event.sinceShutdown session.events).flatMap Event.kept ∧
      ∀ request, cluster.Answers session.state (cluster.record session.state request).1
        (cluster.record session.state request).2 := by
  intro session
  have hrequests := cluster.map_request_session machine requests
  have htracks := cluster.tracks_session machine requests
  exact ⟨hrequests, htracks.running, htracks.tracked, cluster.answers_record session.state⟩

end LocalCluster

end BlockWatch
