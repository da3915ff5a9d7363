import HrcRuntime.Context
import HrcRuntime.Keyed
import HrcRuntime.KeysetPaging

namespace HrcRuntime.StateRetention

open Json Keyed KeysetPaging
open Records (RunStatus InvocationState)
open Context (jsonExtract)

inductive RuntimeStatus where
  | terminated | dead | stale | crashed
  | other (text : String)
  deriving DecidableEq

inductive EventKind where
  | continuationDropped | contextCleared | runtimeTerminated | brokerContinuationCleared
  | other (text : String)

inductive BrokerEventType where
  | continuationCleared
  | other (text : String)
  deriving DecidableEq

structure Run where
  runId : String
  status : RunStatus

structure Runtime where
  runtimeId : String
  hostSessionId : String
  status : RuntimeStatus
  activeRunId : Option String
  deriving DecidableEq

structure Invocation where
  invocationId : String
  runtimeId : String
  invocationState : InvocationState
  updatedAt : String
  lastProjectedSeq : Option Nat

/-- A row of `hrc_events`. -/
structure HrcEvent where
  hrcSeq : Nat
  ts : String
  eventKind : EventKind
  hostSessionId : String
  runId : Option String
  runtimeId : Option String
  sourceRef : Option String
  payload : Json

/-- A row of `broker_invocation_events`. -/
structure BrokerEvent where
  id : Nat
  time : String
  type : BrokerEventType
  invocationId : String
  runId : Option String
  runtimeId : Option String
  sourceRef : Option String
  deriving DecidableEq

structure Buffer where
  rowid : Nat
  createdAt : String
  runId : String
  runtimeId : String

structure Disposition where
  rowid : Nat
  invocationId : String
  seq : Nat

structure StopRefusal where
  rowid : Nat
  updatedAt : String
  runtimeId : String

structure Database where
  runs : Store Run (·.runId)
  runtimes : Store Runtime (·.runtimeId)
  invocations : Store Invocation (·.invocationId)
  hrcEvents : Store HrcEvent (·.hrcSeq)
  brokerEvents : Store BrokerEvent (·.id)
  buffers : Store Buffer (·.rowid)
  dispositions : Store Disposition (·.rowid)
  stopRefusals : Store StopRefusal (·.rowid)

inductive Table where
  | hrcEvents | brokerInvocationEvents | runtimeBuffers | brokerProjectionDispositions | hrcmailStopRefusals
  deriving DecidableEq

structure Cutoffs where
  event : String
  runtimeBuffer : String
  disposition : String
  stopRefusal : String
  deriving DecidableEq

/-- SQLite's `julianday`; a text that is no date has none. -/
class Dates where
  julianday : String → Option Int

def earlier [Dates] (a b : String) : Bool :=
  (Dates.julianday a).any fun x => (Dates.julianday b).any fun y => decide (x < y)

/-- `TERMINAL_RUN_STATUSES_SQL`. -/
def terminalRun : RunStatus → Bool
  | .completed | .failed | .cancelled | .zombie => true
  | _ => false

/-- `TERMINAL_RUNTIME_STATUSES_SQL`. -/
def terminalRuntime : RuntimeStatus → Bool
  | .other _ => false
  | _ => true

/-- `TERMINAL_INVOCATION_STATES_SQL`. -/
def terminalInvocation : InvocationState → Bool
  | .exited | .failed | .disposed => true
  | _ => false

/-- `RESUME_BARRIER_EVENT_KINDS_SQL`. -/
def EventKind.resumeBarrier : EventKind → Bool
  | .other _ => false
  | _ => true

namespace Database

variable (db : Database)

def runEnded (run : String) : Bool := (db.runs.find run).any fun r => terminalRun r.status

def holdsRun (runtime run : String) : Bool := (db.runtimes.find runtime).any fun r => r.activeRunId == some run

def runtimeEnded (runtime : String) : Bool :=
  (db.runtimes.find runtime).any fun r => terminalRuntime r.status && r.activeRunId.isNone

def invocationEnded (invocation : String) : Bool :=
  (db.invocations.find invocation).any fun i => terminalInvocation i.invocationState

def disowned (runId runtimeId : Option String) : Bool :=
  (match runId with
    | none => true
    | some run => db.runEnded run)
    && match runtimeId with
      | none => true
      | some runtime => (match runId with
          | none => false
          | some run => !db.holdsRun runtime run) || db.runtimeEnded runtime

/-- `HRC_EVENTS_ELIGIBLE_SQL`. -/
def hrcEventEligible (c : Cutoffs) (e : HrcEvent) : Bool :=
  e.ts < c.event && !e.eventKind.resumeBarrier && (e.sourceRef.isSome || db.disowned e.runId e.runtimeId)

/-- `BROKER_INVOCATION_EVENTS_ELIGIBLE_SQL`. -/
def brokerEventEligible (c : Cutoffs) (e : BrokerEvent) : Bool :=
  e.time < c.event && (e.sourceRef.isSome || (db.invocationEnded e.invocationId && db.disowned e.runId e.runtimeId))

/-- `RUNTIME_BUFFERS_ELIGIBLE_SQL`. -/
def bufferEligible (c : Cutoffs) (b : Buffer) : Bool :=
  b.createdAt < c.runtimeBuffer && db.runEnded b.runId && db.runtimeEnded b.runtimeId

variable [Dates]

/-- `BROKER_PROJECTION_DISPOSITIONS_ELIGIBLE_SQL`. -/
def dispositionEligible (c : Cutoffs) (d : Disposition) : Bool :=
  (db.invocations.find d.invocationId).isNone || (db.invocations.find d.invocationId).any fun i =>
    terminalInvocation i.invocationState && earlier i.updatedAt c.disposition
      && i.lastProjectedSeq.any fun projected => decide (d.seq ≤ projected)

/-- `STOP_REFUSALS_ELIGIBLE_SQL`. -/
def stopRefusalEligible (c : Cutoffs) (r : StopRefusal) : Bool :=
  earlier r.updatedAt c.stopRefusal && (db.runtimes.find r.runtimeId).any fun runtime => runtime.status = .terminated

def eligibleKeys (c : Cutoffs) : Table → List Nat
  | .hrcEvents => (sortBy (fun a b : HrcEvent => (compare a.ts b.ts).then (compare a.hrcSeq b.hrcSeq))
      (db.hrcEvents.rows.filter (db.hrcEventEligible c))).map (·.hrcSeq)
  | .brokerInvocationEvents => (sortBy (fun a b : BrokerEvent => (compare a.time b.time).then (compare a.id b.id))
      (db.brokerEvents.rows.filter (db.brokerEventEligible c))).map (·.id)
  | .runtimeBuffers => (sortBy (fun a b : Buffer => (compare a.createdAt b.createdAt).then (compare a.rowid b.rowid))
      (db.buffers.rows.filter (db.bufferEligible c))).map (·.rowid)
  | .brokerProjectionDispositions => (sortBy (fun a b : Disposition => compare a.rowid b.rowid)
      (db.dispositions.rows.filter (db.dispositionEligible c))).map (·.rowid)
  | .hrcmailStopRefusals => (sortBy (fun a b : StopRefusal => compare a.rowid b.rowid)
      (db.stopRefusals.rows.filter (db.stopRefusalEligible c))).map (·.rowid)

def selectEligibleBatch (c : Cutoffs) (table : Table) (batchSize : Nat) : List Nat :=
  (db.eligibleKeys c table).take batchSize

/-- `deleteSelectedBatch`: the predicate is asked again of each selected row. -/
def deleteSelectedBatch (c : Cutoffs) (table : Table) (keys : List Nat) : Database :=
  match table with
  | .hrcEvents =>
    { db with hrcEvents := db.hrcEvents.erase fun e => keys.contains e.hrcSeq && db.hrcEventEligible c e }
  | .brokerInvocationEvents =>
    { db with brokerEvents := db.brokerEvents.erase fun e => keys.contains e.id && db.brokerEventEligible c e }
  | .runtimeBuffers => { db with buffers := db.buffers.erase fun b => keys.contains b.rowid && db.bufferEligible c b }
  | .brokerProjectionDispositions =>
    { db with dispositions := db.dispositions.erase fun d => keys.contains d.rowid && db.dispositionEligible c d }
  | .hrcmailStopRefusals =>
    { db with stopRefusals := db.stopRefusals.erase fun r => keys.contains r.rowid && db.stopRefusalEligible c r }

def size : Table → Nat
  | .hrcEvents => db.hrcEvents.rows.length
  | .brokerInvocationEvents => db.brokerEvents.rows.length
  | .runtimeBuffers => db.buffers.rows.length
  | .brokerProjectionDispositions => db.dispositions.rows.length
  | .hrcmailStopRefusals => db.stopRefusals.rows.length

end Database

section Barrier

variable (db : Database) (host : String)

def HrcEvent.invalidates (e : HrcEvent) : Bool :=
  match e.eventKind with
  | .continuationDropped => true
  | .contextCleared => jsonExtract e.payload "dropContinuation" == some (.num 1)
      && jsonExtract e.payload "reason" != some (.str "stale-generation-auto-rotate")
  | .runtimeTerminated => jsonExtract e.payload "droppedContinuation" == some (.num 1)
  | _ => false

def hosts (e : BrokerEvent) : Bool :=
  (db.invocations.find e.invocationId).any fun i => (db.runtimes.find i.runtimeId).any fun r => r.hostSessionId == host

/-- The barrier query of `select`. -/
def continuationInvalidated : Bool :=
  db.hrcEvents.rows.any (fun e => e.hostSessionId == host && e.invalidates)
    || db.brokerEvents.rows.any fun e => e.type = .continuationCleared && hosts db host e

end Barrier

structure WriteBudget where
  deadlineAtMillis : Option Nat
  maxWriteHoldMillis : Nat
  busyMaxRetries : Nat
  deriving DecidableEq

def initialDeleteBatchSize : Nat := 250

def minDeleteBatchSize : Nat := 25

/-- `adaptStepSize`, in half milliseconds; a hold of no millisecond counts as half of one. -/
def adaptStepSize (requested holdMil targetMillis minimum maximum : Nat) : Nat :=
  let observed := max (2 * holdMil) 1
  let target := 2 * targetMillis
  let clamp (value : Nat) : Nat := min maximum (max minimum value)
  if target < observed then clamp ((2 * requested * target + observed) / (2 * observed))
  else if observed * 2 < target then clamp ((3 * requested + 1) / 2)
  else clamp requested

inductive PhaseStop where
  | complete | deadline | busy
  deriving DecidableEq

/-- Where `deleteInBatches` stands: before its read, with the keys it read, at a try of its write, or returned. -/
inductive Phase where
  | reading
  | selected (keys : List Nat)
  | writing (keys : List Nat) (attempt : Nat)
  | stopped (reason : PhaseStop)
  deriving DecidableEq

/-- A call of `deleteInBatches`. -/
structure Call where
  table : Table
  cutoffs : Cutoffs
  maxBatchSize : Nat
  budget : WriteBudget
  deleted : Nat
  batchSize : Nat
  phase : Phase
  deriving DecidableEq

structure State where
  db : Database
  clock : Nat
  call : Option Call

def start (db : Database) (clock : Nat) : State := { db, clock, call := none }

def Call.open (table : Table) (cutoffs : Cutoffs) (maxBatchSize : Nat) (budget : WriteBudget) : Call :=
  { table, cutoffs, maxBatchSize, budget, deleted := 0, batchSize := min initialDeleteBatchSize maxBatchSize, phase := .reading }

def Call.running (c : Call) : Bool :=
  match c.phase with
  | .stopped _ => false
  | _ => true

def deadlineReached (budget : WriteBudget) (clock : Nat) : Bool := budget.deadlineAtMillis.any (· ≤ clock)

variable [Dates]

namespace State

variable (s : State)

def put (c : Call) : State := { s with call := some c }

/-- The next call of the pruner to the store; `busy` is a `SQLITE_BUSY`. -/
def advance (c : Call) (busy : Bool) (holdMil : Nat) : State :=
  match c.phase with
  | .reading =>
    if deadlineReached c.budget s.clock then s.put { c with phase := .stopped .deadline }
    else if busy then s.put { c with phase := .stopped .busy }
    else
      let keys := s.db.selectEligibleBatch c.cutoffs c.table c.batchSize
      s.put { c with phase := if keys.isEmpty then .stopped .complete else .selected keys }
  | .selected keys =>
    s.put { c with phase := if deadlineReached c.budget s.clock then .stopped .deadline else .writing keys 0 }
  | .writing keys attempt =>
    if busy then
      s.put { c with phase := if c.budget.busyMaxRetries ≤ attempt then .stopped .busy else .writing keys (attempt + 1) }
    else
      let db := s.db.deleteSelectedBatch c.cutoffs c.table keys
      let deleted := c.deleted + (s.db.size c.table - db.size c.table)
      if keys.length < c.batchSize then { s with db, call := some { c with deleted, phase := .stopped .complete } }
      else { s with db, call := some { c with
        deleted, phase := .reading
        batchSize := adaptStepSize keys.length holdMil c.budget.maxWriteHoldMillis minDeleteBatchSize c.maxBatchSize } }
  | .stopped _ => s

def onCall (f : Call → State) : State :=
  match s.call with
  | none => s
  | some c => f c

def begin (c : Call) : State := if s.call.any (·.running) then s else s.put c

end State

inductive Action where
  | begin (table : Table) (cutoffs : Cutoffs) (maxBatchSize : Nat) (budget : WriteBudget)
  | prune (busy : Bool) (holdMillis : Nat)
  | daemon (db : Database)
  | clock (now : Nat)

def step (a : Action) (s : State) : State :=
  match a with
  | .begin table cutoffs maxBatchSize budget => s.begin (.open table cutoffs maxBatchSize budget)
  | .prune busy holdMil => s.onCall fun c => s.advance c busy holdMil
  | .daemon db => { s with db }
  | .clock now => { s with clock := now }

end HrcRuntime.StateRetention
