import HrcRuntime.HandoffRecords
import HrcRuntime.KeysetPaging
import HrcRuntime.OrderedMap

namespace HrcRuntime.HandoffFinalizer

open HandoffRecords

/-- A parsed handoff request; `root` is the parent's root message. -/
structure Request where
  «from» : Address
  «to» : Address
  body : String
  mode : Option String
  respondTo : Option Address
  fresh : Bool
  replyTo : Option String
  root : Option String

structure Session where
  sessionRef : String
  hostSessionId : Option String
  generation : Option Int

/-- What a route answers of a started turn. The run is the one it was asked for, and as a handoff does not wait, the
turn is never reported `completed`. -/
structure Receipt where
  hostSessionId : Option String
  generation : Option Int
  runtimeId : Option String
  transport : Option String

structure Failure where
  code : String
  message : String
  deriving DecidableEq

inductive Phase where
  | stored | addressed | routing | recorded
  | refused (error : Failure)
  | failing (error : Failure)
  deriving DecidableEq

/-- A running `deliver`. -/
structure Task where
  request : String
  runId : String
  session : Session
  phase : Phase

/-- `State.active`: the request of a run and whether its delivery is recorded. -/
abbrev Active := List (String × (String × Bool))

/-- The store and the daemon over it. `pass` is the copy of `active` a pass took before it waits for the store;
`answers` is the history of committed responses, each with its request, which the code does not keep. -/
structure State where
  db : Database
  cursor : Option Nat
  active : Active
  tasks : Keyed.Store Task (·.request)
  pass : Option Active
  answers : List (String × String)

def boot (db : Database) : State := ⟨db, none, [], .empty, none, []⟩

section Deliver

/-- The row `deliver` inserts. -/
def Request.message (r : Request) (messageId createdAt : String) : Message :=
  { messageSeq := 0, messageId, createdAt, kind := .dm, phase := .request, «from» := r.from, «to» := r.to
    replyToMessageId := r.replyTo, rootMessageId := r.root.getD messageId, body := r.body
    execution := { state := .notApplicable, mode := r.mode.filter (· ≠ "auto") }
    metadata := { semanticTurnHandoff := some ⟨some (r.respondTo.getD r.from), r.fresh⟩ } }

def addressed (session : Session) (x : Execution) : Execution :=
  { x with sessionRef := some session.sessionRef, hostSessionId := session.hostSessionId, generation := session.generation }

def modeOf : Option String → String
  | some "tmux" => "interactive"
  | some "sdk" => "nonInteractive"
  | _ => "headless"

def started (t : Task) (receipt : Receipt) (x : Execution) : Execution :=
  { x with state := .started, mode := some (modeOf receipt.transport), sessionRef := some t.session.sessionRef
           hostSessionId := receipt.hostSessionId, generation := receipt.generation, runtimeId := receipt.runtimeId
           runId := some t.runId, transport := receipt.transport }

def failed (error : Failure) (x : Execution) : Execution :=
  { x with state := .failed, errorCode := some error.code, errorMessage := some error.message }

namespace State

variable (s : State)

/-- Whether no delivery and no handoff request has a run: `plan.run_id` is a new uuid. -/
def fresh (run : String) : Bool :=
  s.tasks.rows.all (·.runId ≠ run) &&
    s.db.messages.rows.all fun m => m.execution.runId ≠ some run || m.metadata.semanticTurnHandoff.isNone

def submit (r : Request) (messageId createdAt run : String) (session : Session) : State :=
  if s.fresh run then
    match s.db.insert (r.message messageId createdAt) with
    | none => s
    | some db => { s with db, tasks := s.tasks.add ⟨messageId, run, session, .stored⟩ }
  else s

def move (t : Task) (phase : Phase) : State :=
  { s with tasks := s.tasks.amend t.request (fun _ => true) (fun t => { t with phase }) fun _ => rfl }

def leave (t : Task) : State := { s with tasks := s.tasks.erase fun u => u.request = t.request }

def update (t : Task) (patch : Execution → Execution) : State := { s with db := s.db.updateExecution t.request patch }

def remove (run : String) : State := { s with active := s.active.filter (·.1 ≠ run) }

def mark (t : Task) (ready : Bool) : State := { s with active := OrderedMap.set t.runId (t.request, ready) s.active }

def noIdentity : Failure := ⟨"internal_error", "dispatch response has no run/runtime identity"⟩

/-- The answer of `turns::route::execute`, and the write that records it. -/
def receive (t : Task) (result : Except Failure Receipt) (fault : Option Failure) : State :=
  match result with
  | .error error => s.move t (.refused error)
  | .ok receipt =>
    if receipt.runtimeId.isNone then s.move t (.refused noIdentity)
    else match fault with
      | some error => s.move t (.refused error)
      | none => (s.update t (started t receipt)).move t .recorded

/-- The next write of a delivery; `result` is the route's answer, and a `fault` fails the store's. -/
def advance (t : Task) (result : Except Failure Receipt) (fault : Option Failure) : State :=
  match t.phase with
  | .stored => if fault.isSome then s.leave t else (s.update t (addressed t.session)).move t .addressed
  | .addressed => (s.mark t false).move t .routing
  | .routing => s.receive t result fault
  | .recorded => (s.mark t true).leave t
  | .refused error => (s.remove t.runId).move t (.failing error)
  | .failing error => if fault.isSome then s.leave t else (s.update t (failed error)).leave t

def abandon (t : Task) : State := if t.phase = .routing then s.leave t else s

end State

end Deliver

section Pump

abbrev Requests := List (String × Message)

def add (requests : Requests) (request : Message) : Requests :=
  match request.execution.runId with
  | some run => OrderedMap.set run request requests
  | none => requests

def scan (db : Database) : Nat → Nat → List Message
  | 0, _ => []
  | fuel + 1, after => match (db.pendingHandoffs after 100).getLast? with
    | none => []
    | some last => db.pendingHandoffs after 100 ++ scan db fuel last.messageSeq

def terminalAfter (db : Database) (cursor : Nat) : List Event :=
  db.events.filter fun e => e.terminal && decide (cursor < e.hrcSeq) && e.runId.isSome

def collect (db : Database) : Option Nat → Nat × List Message
  | none => (db.head, scan db (db.messages.rows.length + 1) 0)
  | some cursor =>
    (((terminalAfter db cursor).getLast?.map (·.hrcSeq)).getD cursor,
      (terminalAfter db cursor).filterMap fun e => e.runId.bind db.pendingHandoffForRun)

def readyRequests (db : Database) (active : Active) : List (String × Message) :=
  active.filterMap fun a => if a.2.2 then (db.messages.find a.2.1).map (a.1, ·) else none

def requests (db : Database) (cursor : Option Nat) (active : Active) : Requests :=
  OrderedMap.setAll (readyRequests db active) ((collect db cursor).2.foldl add [])

structure Candidate where
  run : String
  request : Message
  event : Event

def bySeq (a b : Candidate) : Ordering := compare a.event.hrcSeq b.event.hrcSeq

def candidates (db : Database) (requests : Requests) : List Candidate :=
  KeysetPaging.sortBy bySeq (requests.filterMap fun r => (db.terminalOf r.1).map (⟨r.1, r.2, ·⟩))

def nonempty (s : Option String) : Option String := s.filter (· ≠ "")

def outcome (db : Database) (c : Candidate) : ExecutionState :=
  if (nonempty c.event.errorCode).isSome || (db.runs.find c.run).any (·.failed) then .failed else .completed

def knownMode (mode : Option String) : String :=
  (mode.filter fun m => m = "headless" || m = "interactive" || m = "nonInteractive").getD "interactive"

def runtimeOf (db : Database) (c : Candidate) : Option String :=
  (c.event.runtimeId.or ((db.runs.find c.run).bind (·.runtimeId))).or c.request.execution.runtimeId

def transportOf (db : Database) (c : Candidate) : Option String :=
  ((c.event.transport.or ((db.runs.find c.run).map (·.transport))).or c.request.execution.transport).filter fun t =>
    t = "sdk" || t = "tmux" || t = "headless"

def errorOf (db : Database) (c : Candidate) : Option String := nonempty ((db.runs.find c.run).bind (·.errorMessage))

def settled (db : Database) (c : Candidate) (x : Execution) : Execution :=
  { x with
    state := outcome db c
    errorCode := (nonempty c.event.errorCode).or x.errorCode
    errorMessage := (errorOf db c).or x.errorMessage }

def signal (db : Database) (c : Candidate) : Option Signal :=
  if c.request.metadata.ingressHandoff then
    (runtimeOf db c).bind fun runtimeId => (transportOf db c).map fun transport =>
      { sourceHrcSeq := c.event.hrcSeq, sessionRef := c.request.execution.sessionRef.getD "", scopeRef := c.event.scopeRef
        laneRef := c.event.laneRef, hostSessionId := c.event.hostSessionId, runtimeId, runId := c.run
        generation := c.event.generation, mode := knownMode c.request.execution.mode, transport, outcome := outcome db c
        errorCode := nonempty c.event.errorCode, errorMessage := errorOf db c }
  else none

def response (db : Database) (c : Candidate) (messageId createdAt : String) : Message :=
  { messageSeq := 0, messageId, createdAt, kind := .dm, phase := .response, «from» := c.request.to
    «to» := (c.request.metadata.semanticTurnHandoff.bind (·.respondTo)).getD c.request.from
    replyToMessageId := some c.request.messageId, rootMessageId := c.request.rootMessageId, body := finalMessage db c.run
    execution :=
      { state := outcome db c, mode := some (knownMode c.request.execution.mode)
        sessionRef := some (c.request.execution.sessionRef.getD ""), hostSessionId := c.event.hostSessionId
        generation := c.event.generation, runtimeId := nonempty (runtimeOf db c), runId := some c.run
        transport := transportOf db c, errorCode := nonempty c.event.errorCode, errorMessage := errorOf db c }
    metadata := { federationSemanticTurnSignal := signal db c } }

structure Draws where
  readsFail : Bool
  fails : String → Bool
  messageId : String → String
  createdAt : String

variable (d : Draws)

def finalize (s : State) (c : Candidate) : Option State :=
  if d.fails c.run then none
  else (finalizeHandoff s.db c.request.messageId (response s.db c (d.messageId c.run) d.createdAt) (settled s.db c)).map
    fun r => ({ s with
      db := r.1
      answers := if r.2 then s.answers ++ [(c.request.messageId, d.messageId c.run)] else s.answers } : State).remove c.run

def finalizeAll : List Candidate → State → State × Bool
  | [], s => (s, true)
  | c :: rest, s => match finalize d s c with
    | none => (s, false)
    | some s => finalizeAll rest s

/-- `pump` with the store held, and whether it succeeded. -/
def pump (s : State) (active : Active) : State × Bool :=
  if d.readsFail then (s, false)
  else
    let r := finalizeAll d (candidates s.db (requests s.db s.cursor active)) s
    if r.2 then ({ r.1 with cursor := some (collect s.db s.cursor).1 }, true) else r

end Pump

/-- The steps; only `deliver` writes the handoff marker, so other writers' messages are without it. -/
inductive Action where
  | submit (r : Request) (messageId createdAt run : String) (session : Session)
  | deliver (request : String) (result : Except Failure Receipt) (fault : Option Failure)
  | abandon (request : String)
  | event (e : Event)
  | run (r : Run)
  | buffer (run text : String)
  | message (input : Message)
  | begin
  | pump (d : Draws)
  | crash

def writeRun (db : Database) (r : Run) : Database :=
  { db with runs := db.runs.upsert r (fun old => { r with runId := old.runId }) fun _ => rfl }

def otherMessage (db : Database) (input : Message) : Database :=
  if input.metadata.semanticTurnHandoff.isNone then (db.insert input).getD db else db

/-- A pass takes its copy of `active`. -/
def State.begin (s : State) : State := if s.pass.isNone then { s with pass := some s.active } else s

def State.finish (s : State) (d : Draws) : State :=
  match s.pass with
  | none => s
  | some active => { (HandoffFinalizer.pump d s active).1 with pass := none }

def State.crash (s : State) : State := { boot s.db with answers := s.answers }

def State.onTask (s : State) (request : String) (f : Task → State) : State :=
  match s.tasks.find request with
  | none => s
  | some t => f t

def step (a : Action) (s : State) : State :=
  match a with
  | .submit r messageId createdAt run session => s.submit r messageId createdAt run session
  | .deliver request result fault => s.onTask request fun t => s.advance t result fault
  | .abandon request => s.onTask request s.abandon
  | .event e => { s with db := s.db.append e }
  | .run r => { s with db := writeRun s.db r }
  | .buffer run text => { s with db := { s.db with buffers := s.db.buffers ++ [(run, text)] } }
  | .message input => { s with db := otherMessage s.db input }
  | .begin => s.begin
  | .pump d => s.finish d
  | .crash => s.crash

end HrcRuntime.HandoffFinalizer
