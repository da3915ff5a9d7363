import HrcRuntime.Keyed
import HrcRuntime.Records

namespace HrcRuntime.LivenessVerdict

open Records (RunStatus InvocationState Transport)

inductive Status where
  | starting | ready | busy | terminated | dead | stale | crashed | detached
  | other (text : String)
  deriving DecidableEq

def Status.unavailable : Status → Bool
  | .terminated | .dead | .stale | .crashed | .detached => true
  | _ => false

inductive Detail where
  | none
  | pane (sessionName socketPath paneId : String) (dead : Option Bool) (command : Option String)
  | session (sessionName socketPath : String)
  | hrcpty (socketPath : String) (supervisorPid : Option Int) (supervisorLive : Bool) (childExited : Option Bool)
  | lifecycleTerminal (invocationId : Option String)
  deriving DecidableEq

structure Payload where
  runtimeId : String
  reason : String
  detail : Detail
  userExitReason : Option String := none
  deriving DecidableEq

/-- `broker.substrate` of a runtime's state; `tui` is whether it is presented as `tmux-tui`. -/
inductive Substrate where
  | leasedTmux (tmuxSocketPath : Option String) (sessionName : String) (paneId : Option String) (tui : Bool)
  | hrcpty (socketPath : String) (pid : Option Int)
  deriving DecidableEq

/-- `tmuxJson`. -/
structure Tmux where
  socketPath : Option String
  sessionName : Option String
  paneId : Option String
  deriving DecidableEq

/-- The keys of `runtimeStateJson` a pass reads or writes. -/
structure StateObject where
  status : Option Status := none
  updatedAt : Option String := none
  staleReason : Option String := none
  stalePayload : Option Payload := none
  terminationReason : Option String := none
  userExitReason : Option String := none
  terminationPayload : Option Payload := none
  terminalInvocation : Option (String × String) := none
  externalOwner : Bool := false
  claudeHrcpty : Bool := false
  substrate : Option Substrate := none
  tmuxSocketPath : Option String := none

/-- A row of `runtimes`. -/
structure Runtime where
  runtimeId : String
  hostSessionId : String
  scopeRef : String
  laneRef : String
  generation : Int
  transport : Transport
  status : Status
  statusChangedAt : Option String
  updatedAt : String
  activeRunId : Option String
  controllerKind : Option String
  activeInvocationId : Option String
  lifecycleTerminalReason : Option String
  state : StateObject
  tmux : Option Tmux

structure Invocation where
  invocationId : String
  invocationState : InvocationState
  updatedAt : String
  lifecycleTerminalReason : Option String

structure Run where
  runId : String
  status : RunStatus
  startedAt : Option String
  completedAt : Option String
  updatedAt : String
  errorCode : Option String
  errorMessage : Option String
  coalescedIntoRunId : Option String
  brokerSubmissionId : Option String

inductive BrokerFact where
  | absorbed (submissionId : Option String)
  | admitted (submissionId : String) (steer : Bool)
  | continuationCleared (reason : Option String)
  | other
  deriving DecidableEq

structure BrokerEvent where
  runtimeId : String
  invocationId : String
  fact : BrokerFact

inductive NoticeKind where
  | stale | terminated
  deriving DecidableEq

/-- A `runtime.stale` or `runtime.terminated` event. -/
structure Notice where
  kind : NoticeKind
  ts : String
  hostSessionId : String
  scopeRef : String
  laneRef : String
  generation : Int
  runtimeId : String
  payload : Payload
  deriving DecidableEq

/-- The tables; `brokerEvents` are listed by invocation and `seq`, and `sessions` gives a session's generation. -/
structure Database where
  runtimes : Keyed.Store Runtime (·.runtimeId)
  invocations : Keyed.Store Invocation (·.invocationId)
  runs : Keyed.Store Run (·.runId)
  brokerEvents : List BrokerEvent
  sessions : List (String × Int)
  notices : List Notice

namespace Runtime

variable (rt : Runtime)

def nonempty (s : Option String) : Option String := s.filter (· ≠ "")

def socketPath : Option String :=
  match nonempty (rt.tmux.bind (·.socketPath)), rt.state.substrate with
  | some s, _ => some s
  | none, some (.leasedTmux socket _ _ _) => socket
  | none, _ => nonempty rt.state.tmuxSocketPath

def sessionName : String :=
  match nonempty (rt.tmux.bind (·.sessionName)), rt.state.substrate with
  | some s, _ => s
  | none, some (.leasedTmux _ session _ true) => session
  | none, _ => "hrc-" ++ String.ofList (rt.hostSessionId.toList.take 12)

def leasedPane : Option String :=
  match nonempty (rt.tmux.bind (·.paneId)), rt.state.substrate with
  | some p, _ => some p
  | none, some (.leasedTmux _ _ pane _) => pane
  | none, _ => none

def leasedSubstrate : Bool :=
  match rt.state.substrate with
  | some (.leasedTmux _ _ _ _) => true
  | _ => false

/-- `hrcpty::substrate`. -/
def supervisor : Option (String × Option Int) :=
  match rt.state.substrate with
  | some (.hrcpty socket pid) => some (socket, pid)
  | _ => none

def leaseSocket : Option String := (rt.supervisor.map (·.1)).or rt.socketPath

def harnessBroker : Bool := rt.controllerKind = some "harness-broker"

/-- Whether `reconcile_liveness` looks at the runtime at all. -/
def reconciled : Bool :=
  !rt.state.externalOwner && rt.harnessBroker &&
    (rt.transport = .tmux || rt.leasedSubstrate || rt.supervisor.isSome) && !rt.status.unavailable

end Runtime

def terminalInvocationState : InvocationState → Bool
  | .exited | .failed | .disposed => true
  | _ => false

namespace Database

variable (db : Database)

def absorbed (runtime : String) : List (String × Run) :=
  db.brokerEvents.filterMap fun e => match e.fact with
    | .absorbed (some submission) =>
      if e.runtimeId = runtime &&
          db.brokerEvents.any fun a => a.invocationId = e.invocationId && a.fact = .admitted submission true then
        (db.runs.rows.find? (·.brokerSubmissionId = some submission)).map (e.invocationId, ·)
      else none
    | _ => none

end Database

def unresolvedMarker : String := "absorbed_submission_owner_unresolved"

def unresolved (run : Run) : Bool :=
  run.startedAt.isNone && run.coalescedIntoRunId.isNone &&
    !run.errorMessage.any fun s => decide (1 < (s.splitOn unresolvedMarker).length)

def absorbedDetail (invocation : String) : String :=
  unresolvedMarker ++ ": invocation " ++ invocation ++ " ended before exact turn ownership was established"

/-- One absorbed run: `run` is the row as it was read, `r` the row that is written. -/
def failAbsorbed (invocation now : String) (run r : Run) : Run :=
  if run.status = .accepted || run.status = .completed then
    { r with status := .failed, completedAt := r.completedAt.or (some now), updatedAt := now
             errorCode := some "runtime_unavailable", errorMessage := some (absorbedDetail invocation) }
  else
    { r with updatedAt := now, errorMessage := some (match Runtime.nonempty run.errorMessage with
        | some s => s ++ "; " ++ absorbedDetail invocation
        | none => absorbedDetail invocation) }

theorem failAbsorbed_runId (invocation now : String) (run r : Run) : (failAbsorbed invocation now run r).runId = r.runId := by
  unfold failAbsorbed
  split <;> rfl

def settleEntry (now : String) (db : Database) (entry : String × Run) : Database :=
  { db with
    runs := db.runs.amend entry.2.runId (fun _ => true) (failAbsorbed entry.1 now entry.2)
      (failAbsorbed_runId entry.1 now entry.2) }

def failUnresolvedAbsorbed (db : Database) (runtime : String) (invocation : Option String) (now : String) : Database :=
  ((db.absorbed runtime).filter fun e => unresolved e.2 && invocation.all (e.1 = ·)).foldl (settleEntry now) db

def settleInvocation (db : Database) (id : String) (state : InvocationState) (now : String) : Database :=
  { db with
    invocations := db.invocations.amend id (fun i => !terminalInvocationState i.invocationState)
      (fun i => { i with invocationState := state, updatedAt := now }) fun _ => rfl }

/-- `mark_run_completed` with a failure. -/
def failRun (db : Database) (run now message : String) : Database :=
  { db with
    runs := db.runs.amend run (fun _ => true) (fun r => { r with
      status := .failed, completedAt := some now, updatedAt := now, errorCode := some "runtime_unavailable"
      errorMessage := some message }) fun _ => rfl }

def updateRuntime (db : Database) (id : String) (f : Runtime → Runtime) (hf : ∀ r, (f r).runtimeId = r.runtimeId) : Database :=
  { db with runtimes := db.runtimes.amend id (fun _ => true) f hf }

/-- The broker's part of `settle`. -/
def settleBroker (db : Database) (rt : Runtime) (now : String) (state : InvocationState) : Database :=
  if rt.harnessBroker then
    match rt.activeInvocationId with
    | none => failUnresolvedAbsorbed db rt.runtimeId none now
    | some id => settleInvocation
        (failUnresolvedAbsorbed (failUnresolvedAbsorbed db rt.runtimeId none now) rt.runtimeId (some id) now) id state now
  else db

/-- `settle`; `rt` is the row as the caller read it. -/
def settle (db : Database) (rt : Runtime) (now : String) (state : InvocationState) (message : String) : Database :=
  match rt.activeRunId with
  | none => settleBroker db rt now state
  | some run => failRun (updateRuntime (settleBroker db rt now state) rt.runtimeId
      (fun r => { r with activeRunId := none, updatedAt := now }) fun _ => rfl) run now message

def sessionGeneration (db : Database) (host : String) (fallback : Int) : Int :=
  ((db.sessions.find? (·.1 = host)).map (·.2)).getD fallback

/-- `update_runtime` with a status: the time it changed moves only with it. -/
def withStatus (status : Status) (now : String) (state : StateObject) (r : Runtime) : Runtime :=
  { r with status, statusChangedAt := if r.status = status then r.statusChangedAt else some now, updatedAt := now, state }

def notice (db : Database) (rt : Runtime) (now : String) (kind : NoticeKind) (payload : Payload) : Notice :=
  { kind, ts := now, hostSessionId := rt.hostSessionId, scopeRef := rt.scopeRef, laneRef := rt.laneRef
    generation := sessionGeneration db rt.hostSessionId rt.generation, runtimeId := rt.runtimeId, payload }

def conclude (db : Database) (rt : Runtime) (now : String) (status : Status) (state : StateObject) (kind : NoticeKind)
    (payload : Payload) : Database :=
  let marked := updateRuntime db rt.runtimeId (withStatus status now state) fun _ => rfl
  { marked with notices := marked.notices ++ [notice marked rt now kind payload] }

def staleState (rt : Runtime) (now : String) (payload : Payload) : StateObject :=
  { rt.state with
    status := some .stale, updatedAt := some now, staleReason := some payload.reason, stalePayload := some payload
    terminalInvocation := (rt.activeInvocationId.map (·, "hrc.runtime.stale")).or rt.state.terminalInvocation }

/-- `mark_stale`; `rt` is the row as the caller read it. -/
def markStale (db : Database) (rt : Runtime) (payload : Payload) (now : String) : Database :=
  conclude (settle db rt now .disposed ("runtime " ++ rt.runtimeId ++ " is stale after startup reconciliation")) rt now .stale
    (staleState rt now payload) .stale payload

def terminatedState (rt : Runtime) (now : String) (payload : Payload) : StateObject :=
  { rt.state with
    status := some .terminated, updatedAt := some now, terminationReason := some "user_initiated_session_end"
    userExitReason := payload.userExitReason, terminationPayload := some payload
    terminalInvocation := (rt.activeInvocationId.map (·, "hrc.runtime.terminated")).or rt.state.terminalInvocation }

def markTerminatedAfterUserExit (db : Database) (rt : Runtime) (payload : Payload) (now : String) : Database :=
  conclude (settle db rt now .exited ("runtime " ++ rt.runtimeId ++ " was terminated by user exit")) rt now .terminated
    (terminatedState rt now payload) .terminated { payload with reason := "user_initiated_session_end" }

def BrokerFact.cleared : BrokerFact → Option (Option String)
  | .continuationCleared reason => some reason
  | _ => none

def userExit (db : Database) (rt : Runtime) : Option String :=
  rt.activeInvocationId.bind fun id =>
    (((db.brokerEvents.filter (·.invocationId = id)).filterMap (·.fact.cleared)).getLast?.bind fun reason => reason).filter
      fun r => r = "prompt_input_exit" || r = "logout" || r = "clear"

/-- The write of `not_live`, of the row as it is now. -/
def notLive (db : Database) (rt : Runtime) (payload : Payload) (now : String) : Database :=
  match userExit db rt with
  | some reason => markTerminatedAfterUserExit db rt { payload with userExitReason := some reason } now
  | none => markStale db rt payload now

def markLifecycleTerminal (db : Database) (rt : Runtime) (reason now : String) : Database :=
  updateRuntime (markStale db rt ⟨rt.runtimeId, reason, .lifecycleTerminal rt.activeInvocationId, none⟩ now) rt.runtimeId
    (fun r => { r with lifecycleTerminalReason := some reason, updatedAt := now }) fun _ => rfl

section Probe

/-- `pane_liveness` of a pane that is there. -/
structure Liveness where
  alive : Bool
  dead : Bool
  command : String

/-- A supervisor's `status`. -/
structure SupervisorStatus where
  brokerRunning : Bool
  childExited : Bool

structure Probe where
  inspected : Option Liveness
  looks : Nat → Option Liveness
  supervisor : Option SupervisorStatus

def hrcptyDeadReason (rt : Runtime) : Option SupervisorStatus → Option String
  | none => some "broker_hrcpty_supervisor_missing"
  | some status =>
    if !status.brokerRunning then some "broker_hrcpty_broker_exited"
    else if status.childExited && rt.state.claudeHrcpty then some "broker_hrcpty_child_exited"
    else none

def Probe.seenAlive (p : Probe) : Bool := (List.range 6).any fun i => (p.looks i).any (·.alive)

def verdict (rt : Runtime) (p : Probe) : Option (Payload × String) :=
  match rt.supervisor, rt.socketPath with
  | some (socket, pid), _ => (hrcptyDeadReason rt p.supervisor).map fun reason =>
    (⟨rt.runtimeId, reason, .hrcpty socket pid p.supervisor.isSome (p.supervisor.map (·.childExited)), none⟩, socket)
  | none, none => none
  | none, some socket => match rt.leasedPane, p.inspected with
    | some pane, some _ =>
      if p.seenAlive then none
      else some (⟨rt.runtimeId, "broker_tmux_harness_not_live", .pane rt.sessionName socket pane
        ((p.looks 5).map (·.dead)) ((p.looks 5).map (·.command)), none⟩, socket)
    | _, _ => some (⟨rt.runtimeId, "broker_tmux_session_missing", .session rt.sessionName socket, none⟩, socket)

end Probe

inductive Phase where
  | reading
  | lifecycle (reason : String)
  | probing
  | condemned (payload : Payload) (socket : Option String)
  | killing (socket : String)

/-- A running `reconcile_liveness`, with the row it read. -/
structure Pass where
  id : Nat
  rt : Runtime
  phase : Phase

/-- The store, the servers that listen at each socket, and the passes. `life` counts the lives of a runtime, and
`deaths` lists, with its life, the runtime of each notice; the code keeps neither. -/
structure State where
  db : Database
  servers : String → Option Nat
  passes : Keyed.Store Pass (·.id)
  life : String → Nat
  deaths : List (String × Nat)

namespace Database

def available (db : Database) (id : String) : Bool := (db.runtimes.find id).any fun r => !r.status.unavailable

end Database

namespace State

def start (db : Database) (servers : String → Option Nat) : State := ⟨db, servers, .empty, fun _ => 0, []⟩

variable (s : State)

def commit (db : Database) : State :=
  { s with
    db
    life := fun id => if db.available id && !s.db.available id then s.life id + 1 else s.life id
    deaths := s.deaths ++ (db.notices.drop s.db.notices.length).map fun n => (n.runtimeId, s.life n.runtimeId) }

def leave (pass : Nat) : State := { s with passes := s.passes.erase fun p => p.id = pass }

def move (pass : Nat) (phase : Phase) : State :=
  { s with passes := s.passes.amend pass (fun _ => true) (fun p => { p with phase }) fun _ => rfl }

def begin (pass : Nat) (runtime : String) : State :=
  match s.db.runtimes.find runtime with
  | some rt => if rt.reconciled then { s with passes := s.passes.add ⟨pass, rt, .reading⟩ } else s
  | none => s

def choose (p : Pass) : State :=
  match (p.rt.activeInvocationId.bind s.db.invocations.find).bind (·.lifecycleTerminalReason) with
  | some reason => s.move p.id (.lifecycle reason)
  | none =>
    if p.rt.supervisor.isNone && p.rt.socketPath.isNone then
      s.move p.id (.condemned ⟨p.rt.runtimeId, "broker_tmux_socket_missing", .none, none⟩ none)
    else s.move p.id .probing

/-- What follows `not_live`: nothing, or the end of the lease. -/
def after (pass : Nat) (socket : Option String) : State :=
  match socket with
  | none => s.leave pass
  | some socket => s.move pass (.killing socket)

/-- `kill_lease`, `end_lease`: whatever server listens at the socket is ended. -/
def kill (socket : String) : State := { s with servers := fun k => if k = socket then none else s.servers k }

/-- The next call of a pass; a `fault` fails its transaction, or the call that ends the lease. -/
def advance (p : Pass) (probe : Probe) (now : String) (fault : Bool) : State :=
  match p.phase with
  | .reading => if fault then s.leave p.id else s.choose p
  | .lifecycle reason =>
    if fault then s.leave p.id else (s.commit (markLifecycleTerminal s.db p.rt reason now)).leave p.id
  | .probing => match verdict p.rt probe with
    | none => s.leave p.id
    | some (payload, socket) => s.move p.id (.condemned payload (some socket))
  | .condemned payload socket =>
    if fault then s.leave p.id
    else match s.db.runtimes.find p.rt.runtimeId with
      | none => s.after p.id socket
      | some rt => (s.commit (notLive s.db rt payload now)).after p.id socket
  | .killing socket => (if fault then s else s.kill socket).leave p.id

def lawful (db : Database) : Bool :=
  db.notices = s.db.notices || db.notices.getLast?.any fun n =>
    db.notices = s.db.notices ++ [n] && s.db.available n.runtimeId && !db.available n.runtimeId

end State

def State.onPass (s : State) (pass : Nat) (f : Pass → State) : State :=
  match s.passes.find pass with
  | none => s
  | some p => f p

inductive Action where
  | begin (pass : Nat) (runtime : String)
  | advance (pass : Nat) (probe : Probe) (now : String) (fault : Bool)
  | write (db : Database)
  | serve (socket : String) (server : Option Nat)

def step (a : Action) (s : State) : State :=
  match a with
  | .begin pass runtime => s.begin pass runtime
  | .advance pass probe now fault => s.onPass pass fun p => s.advance p probe now fault
  | .write db => if s.lawful db then s.commit db else s
  | .serve socket server => { s with servers := fun k => if k = socket then server else s.servers k }

end HrcRuntime.LivenessVerdict
