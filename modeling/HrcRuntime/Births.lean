import HrcRuntime.Keyed
import HrcRuntime.Schedule

namespace HrcRuntime.Births

open HrcRuntime.Keyed

structure Session where
  host : Nat
  key : String
  active : Bool

structure Continuity where
  key : String
  host : Nat

/-- A row of `runtime_operations`; `startOutcome` stands in its preparation. -/
structure Operation where
  operationId : Nat
  status : String
  startOutcome : Option String

structure Runtime where
  runtimeId : Nat
  host : Nat
  status : String
  activeRun : Option Nat
  activeInvocation : Option Nat
  deriving DecidableEq

structure Invocation where
  invocationId : Nat
  state : String

structure Run where
  runId : Nat
  status : String

structure Database where
  sessions : Store Session Session.host
  continuities : Store Continuity Continuity.key
  operations : Store Operation Operation.operationId
  runtimes : Store Runtime Runtime.runtimeId
  invocations : Store Invocation Invocation.invocationId
  runs : Store Run Run.runId

/-- `lease::unavailable`. -/
def unavailable (status : String) : Bool := ["terminated", "dead", "stale", "crashed", "detached"].contains status

def terminalInvocationState (state : String) : Bool := ["exited", "failed", "disposed"].contains state

def terminalRunStatus (status : String) : Bool :=
  ["completed", "failed", "cancelled", "interrupted", "degraded", "zombie", "reaped", "coalesced", "exited"].contains status

namespace Database

variable (db : Database)

def updateRuntime (id : Nat) (f : Runtime → Runtime) (hf : ∀ rt, (f rt).runtimeId = rt.runtimeId) : Database :=
  { db with runtimes := db.runtimes.amend id (fun _ => true) f hf }

def setRuntimeStatus (id : Nat) (status : String) : Database :=
  db.updateRuntime id (fun rt => { rt with status := status }) fun _ => rfl

def setInvocationState (id : Nat) (state : String) : Database :=
  { db with
    invocations := db.invocations.amend id (fun _ => true) (fun i => { i with state := state }) fun _ => rfl }

def endInvocation (id : Nat) (state : String) : Database :=
  { db with
    invocations := db.invocations.amend id (fun i => !terminalInvocationState i.state) (fun i => { i with state := state })
      fun _ => rfl }

/-- `mark_run_completed` with status `failed`. -/
def failRun (id : Nat) : Database :=
  { db with
    runs := db.runs.amend id (fun _ => true) (fun r => { r with status := "failed" }) fun _ => rfl }

def setOperation (id : Nat) (f : Operation → Operation) (hf : ∀ o, (f o).operationId = o.operationId) : Database :=
  { db with operations := db.operations.amend id (fun _ => true) f hf }

def liveHost (host : Nat) : Bool :=
  (db.sessions.find host).any fun session =>
    session.active && (db.continuities.find session.key).map Continuity.host == some host

def failActiveRun (rt : Runtime) : Database :=
  match rt.activeRun with
  | none => db
  | some run => (db.updateRuntime rt.runtimeId (fun rt => { rt with activeRun := none }) fun _ => rfl).failRun run

/-- `control::finalize`. -/
def finalize (rt : Runtime) : Database := (db.failActiveRun rt).setRuntimeStatus rt.runtimeId "terminated"

def settleDisposed (rt : Runtime) : Database :=
  match rt.activeInvocation with
  | none => db
  | some invocation =>
    (db.endInvocation invocation "disposed").updateRuntime rt.runtimeId (fun rt => { rt with activeInvocation := none })
      fun _ => rfl

/-- `lease::settle`. -/
def settle (rt : Runtime) (state : String) : Database :=
  match rt.activeInvocation with
  | none => db.failActiveRun rt
  | some invocation => (db.endInvocation invocation state).failActiveRun rt

/-- A runtime found ended: `mark_stale` (`stale`, `disposed`), `mark_terminated_after_user_exit` (`terminated`, `exited`)
and the other verdicts of the sweeps. -/
def condemn (rt : Runtime) (status state : String) : Database := (db.settle rt state).setRuntimeStatus rt.runtimeId status

def close (rt : Runtime) : Database :=
  match rt.activeInvocation with
  | none => db.setRuntimeStatus rt.runtimeId "stopping"
  | some invocation => (db.setInvocationState invocation "stopping").setRuntimeStatus rt.runtimeId "stopping"

def prepareBroker (id : Nat) : Database := { db with operations := db.operations.add ⟨id, "prepared", none⟩ }

/-- `start_broker_graph`, refused unless the operation is prepared and the host live. -/
def startBrokerGraph (id host : Nat) (run : Bool) : Option Database :=
  if (db.operations.find id).map Operation.status == some "prepared" && db.liveHost host then
    some
      { (db.setOperation id (fun o => { o with status := "starting" }) fun _ => rfl) with
        runtimes := db.runtimes.add ⟨id, host, "starting", if run then some id else none, some id⟩
        invocations := db.invocations.add ⟨id, "starting"⟩
        runs := if run then db.runs.add ⟨id, "accepted"⟩ else db.runs }
  else none

def markStartOutcome (id : Nat) (outcome : String) : Database :=
  db.setOperation id (fun o => { o with startOutcome := some outcome }) fun _ => rfl

/-- `finish_broker_start`, from the birth's own snapshot of the invocation. -/
def finishBrokerStart (id : Nat) (snapshot : String) : Database :=
  ((db.setRuntimeStatus id (if snapshot = "running" then "busy" else "ready")).setInvocationState id snapshot).setOperation id
    (fun o => { o with status := "completed" }) fun _ => rfl

def rotate (host next : Nat) (key : String) : Database :=
  { db with
    sessions := (db.sessions.amend host (fun _ => true) (fun s => { s with active := false }) fun _ => rfl).add ⟨next, key, true⟩
    continuities := db.continuities.upsert ⟨key, next⟩ (fun c => { c with host := next }) fun _ => rfl }

end Database

/-- How `invocation.start` came back. -/
inductive Reply where
  | started | rejected | unanswered
  deriving DecidableEq

/-- Where a task stands. From `queued` to `finished` it keeps a handle of its seat gate, from `seated` on locked; a birth
is between its reuse check and its end from `seated` to `finished`. -/
inductive Phase where
  | arriving
  | queued (gate : Nat)
  | seated (gate : Nat)
  | preparing (gate : Nat)
  | prepared (gate birth : Nat)
  | launched (gate birth : Nat)
  | committed (gate birth : Nat)
  | answered (gate birth : Nat)
  | snapped (gate birth : Nat) (state : String)
  | finished (gate birth : Nat)
  | ended (birth : Option Nat) (answered : Bool)
  deriving DecidableEq

def Phase.handle : Phase → Option Nat
  | .queued gate | .seated gate | .preparing gate | .prepared gate _ | .launched gate _ | .committed gate _
  | .answered gate _ | .snapped gate _ _ | .finished gate _ => some gate
  | .arriving | .ended _ _ => none

def Phase.lock : Phase → Option Nat
  | .seated gate | .preparing gate | .prepared gate _ | .launched gate _ | .committed gate _ | .answered gate _
  | .snapped gate _ _ | .finished gate _ => some gate
  | .arriving | .queued _ | .ended _ _ => none

inductive Kind where
  | birth (run : Bool)
  | rotation
  deriving DecidableEq

structure Task where
  id : Nat
  kind : Kind
  host : Nat
  key : String
  phase : Phase

structure Gate where
  key : String
  gate : Nat

structure State where
  db : Database
  /-- `seat_gates`. -/
  gates : Store Gate Gate.key
  tasks : Store Task Task.id
  /-- The next uuid, and the next gate allocated. -/
  next : Nat

namespace State

def start (db : Database) (next : Nat) : State := ⟨db, .empty, .empty, next⟩

variable (s : State)

def set (id : Nat) (phase : Phase) : State :=
  { s with tasks := s.tasks.amend id (fun _ => true) (fun t => { t with phase := phase }) fun _ => rfl }

def handled (gate : Nat) : Bool := s.tasks.rows.any fun t => t.phase.handle == some gate

def locked (gate : Nat) : Bool := s.tasks.rows.any fun t => t.phase.lock == some gate

/-- `seat_gate` up to its await: gates nobody holds or awaits are forgotten. -/
def enter (t : Task) : State :=
  let kept := s.gates.erase fun g => !s.handled g.gate
  match kept.find t.key with
  | some g => { s with gates := kept }.set t.id (.queued g.gate)
  | none => { s with gates := kept.add ⟨t.key, s.next⟩, next := s.next + 1 }.set t.id (.queued s.next)

/-- What the failed start leaves: its outcome, once `invocation.start` was sent. -/
def send (t : Task) (gate birth : Nat) (reply : Reply) (recorded : Bool) : State :=
  match reply with
  | .started => s.set t.id (.answered gate birth)
  | .rejected =>
    { s with db := if recorded then s.db.markStartOutcome birth "rejected" else s.db }.set t.id (.ended (some birth) true)
  | .unanswered =>
    { s with db := if recorded then s.db.markStartOutcome birth "uncertain" else s.db }.set t.id (.ended (some birth) false)

end State

inductive Action where
  | arrive (t : Task)
  | enter (id : Nat)
  | acquire (id : Nat)
  /-- The reuse check and the admission of a birth. -/
  | decide (id : Nat) (reuse : Bool)
  | prepare (id : Nat) (ok : Bool)
  | launch (id : Nat) (ok : Bool)
  | graph (id : Nat)
  /-- The attach of the operator's client failed before the start was sent. -/
  | detach (id : Nat)
  | send (id : Nat) (reply : Reply) (recorded : Bool)
  | snapshot (id : Nat) (answer : Option String)
  | finish (id : Nat) (ok : Bool)
  | settle (id : Nat)
  /-- A rotation tears down one runtime of its host. -/
  | tear (id : Nat) (runtimeId : Nat)
  | rotate (id : Nat) (ok : Bool)
  /-- The task's future is dropped. -/
  | drop (id : Nat)
  | close (runtimeId : Nat)
  | terminate (runtimeId : Nat) (tmux : Bool)
  | sweep (runtimeId : Nat) (status state : String)

def State.advance (s : State) (t : Task) : Action → State
  | .enter _ => if t.phase = .arriving then s.enter t else s
  | .acquire _ =>
    match t.phase with
    | .queued gate => if s.locked gate then s else s.set t.id (.seated gate)
    | _ => s
  | .decide _ reuse =>
    match t.phase, t.kind with
    | .seated gate, .birth _ =>
      if !s.db.liveHost t.host || reuse then s.set t.id (.ended none false) else s.set t.id (.preparing gate)
    | _, _ => s
  | .prepare _ ok =>
    match t.phase with
    | .preparing gate =>
      if ok then
        { s with db := s.db.prepareBroker s.next, next := s.next + 1 }.set t.id (.prepared gate s.next)
      else s.set t.id (.ended none false)
    | _ => s
  | .launch _ ok =>
    match t.phase with
    | .prepared gate birth => s.set t.id (if ok then .launched gate birth else .ended (some birth) false)
    | _ => s
  | .graph _ =>
    match t.phase with
    | .launched gate birth =>
      match s.db.startBrokerGraph birth t.host (t.kind = .birth true) with
      | some db => { s with db := db }.set t.id (.committed gate birth)
      | none => s.set t.id (.ended (some birth) false)
    | _ => s
  | .detach _ =>
    match t.phase with
    | .committed _ birth => s.set t.id (.ended (some birth) false)
    | _ => s
  | .send _ reply recorded =>
    match t.phase with
    | .committed gate birth => s.send t gate birth reply recorded
    | _ => s
  | .snapshot _ answer =>
    match t.phase with
    | .answered gate birth =>
      match answer with
      | some state => s.set t.id (.snapped gate birth state)
      | none => s.set t.id (.ended (some birth) true)
    | _ => s
  | .finish _ ok =>
    match t.phase with
    | .snapped gate birth state =>
      if ok then { s with db := s.db.finishBrokerStart birth state }.set t.id (.finished gate birth)
      else s.set t.id (.ended (some birth) true)
    | _ => s
  | .settle _ =>
    match t.phase with
    | .finished _ birth => s.set t.id (.ended (some birth) true)
    | _ => s
  | .tear _ runtimeId =>
    match t.phase, t.kind with
    | .seated _, .rotation =>
      match s.db.runtimes.find runtimeId with
      | some rt => if rt.host = t.host && !unavailable rt.status then { s with db := s.db.finalize rt } else s
      | none => s
    | _, _ => s
  | .rotate _ ok =>
    match t.phase, t.kind with
    | .seated _, .rotation =>
      if ok && (s.db.continuities.find t.key).map Continuity.host == some t.host then
        { s with db := s.db.rotate t.host s.next t.key, next := s.next + 1 }.set t.id (.ended none false)
      else s.set t.id (.ended none false)
    | _, _ => s
  | .drop _ =>
    match t.phase with
    | .answered _ birth | .snapped _ birth _ | .finished _ birth => s.set t.id (.ended (some birth) true)
    | .prepared _ birth | .launched _ birth | .committed _ birth => s.set t.id (.ended (some birth) false)
    | .arriving | .queued _ | .seated _ | .preparing _ => s.set t.id (.ended none false)
    | .ended _ _ => s
  | .arrive _ | .close _ | .terminate _ _ | .sweep _ _ _ => s

def State.act (s : State) (id : Nat) (a : Action) : State :=
  match s.tasks.find id with
  | none => s
  | some t => s.advance t a

def State.write (s : State) (runtimeId : Nat) (f : Database → Runtime → Database) : State :=
  match s.db.runtimes.find runtimeId with
  | none => s
  | some rt => { s with db := f s.db rt }

def step (a : Action) (s : State) : State :=
  match a with
  | .arrive t => { s with tasks := s.tasks.add { t with phase := .arriving } }
  | .close runtimeId => s.write runtimeId fun db rt => if unavailable rt.status then db else db.close rt
  | .terminate runtimeId tmux =>
    s.write runtimeId fun db rt => if tmux then db.finalize rt else (db.finalize rt).settleDisposed rt
  | .sweep runtimeId status state =>
    if unavailable status && terminalInvocationState state then s.write runtimeId fun db rt => db.condemn rt status state else s
  | .enter id | .acquire id | .decide id _ | .prepare id _ | .launch id _ | .graph id | .detach id | .send id _ _
  | .snapshot id _ | .finish id _ | .settle id | .tear id _ | .rotate id _ | .drop id => s.act id a

end HrcRuntime.Births
