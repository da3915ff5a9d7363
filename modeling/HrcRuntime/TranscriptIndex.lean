import HrcRuntime.Keyed
import HrcRuntime.Schedule
import HrcRuntime.TranscriptDocument

namespace HrcRuntime.TranscriptIndex

open KeysetPaging Keyed TranscriptDocument

structure RuntimeFacets where
  scopeRef : Option String := none
  agent : Option String := none
  project : Option String := none
  task : Option String := none
  generation : Option Nat := none
  deriving DecidableEq

structure RuntimeIdentity where
  agentId : String
  projectId : Option String
  taskId : Option String

structure Runtime where
  runtimeId : String
  scopeRef : String
  identity : Option RuntimeIdentity
  generation : Nat

def runtimeFacets : Option Runtime → RuntimeFacets
  | none => {}
  | some runtime =>
    { scopeRef := if runtime.scopeRef = "" then none else some runtime.scopeRef
      agent := runtime.identity.map (·.agentId)
      project := runtime.identity.bind (·.projectId)
      task := runtime.identity.bind (·.taskId)
      generation := some runtime.generation }

/-- A row of `transcript_turns`, without its row id. -/
structure TranscriptTurn extends TurnDocument, RuntimeFacets where

/-- A row of `transcript_index_invocations`. -/
structure TranscriptInvocationMark where
  invocationId : String
  runtimeId : String
  lastTerminalSeq : Nat

abbrev Ledger := Store LedgerRow fun row => (row.invocationId, row.seq)

abbrev Turns := Store TranscriptTurn fun turn => (turn.invocationId, turn.seqFrom)

abbrev Marks := Store TranscriptInvocationMark fun mark => mark.invocationId

structure Database where
  ledger : Ledger := .empty
  nextEventId : Nat := 1
  runtimes : Store Runtime fun runtime => runtime.runtimeId := .empty
  turns : Turns := .empty
  marks : Marks := .empty
  lastEventId : Nat := 0

section Repositories

variable (db : Database) (invocationId : String)

def maxEventId : Nat := (db.ledger.rows.map (·.id)).foldl max 0

def byId (a b : LedgerRow) : Ordering := compare a.id b.id

/-- `id > afterId AND id <= throughId AND type IN (alphabet) ORDER BY id LIMIT max(1, limit)`. -/
def listTranscriptTail (afterId throughId limit : Nat) : List LedgerRow :=
  (sortBy byId (db.ledger.rows.filter fun row =>
    decide (afterId < row.id) && decide (row.id ≤ throughId) && decide (row.type ∈ transcriptAlphabet))).take (max 1 limit)

def listTranscriptRange (afterSeq throughSeq : Nat) : List LedgerRow :=
  sortBy bySeq (db.ledger.rows.filter fun row =>
    decide (row.invocationId = invocationId) && decide (afterSeq < row.seq) && decide (row.seq ≤ throughSeq) &&
      decide (row.type ∈ transcriptAlphabet))

def listTranscriptTerminals : List LedgerRow :=
  sortBy bySeq (db.ledger.rows.filter fun row => decide (row.invocationId = invocationId) && isTerminal row.type)

/-- `ON CONFLICT(invocation_id, seq_from) DO UPDATE`: every other column is replaced. -/
def upsertTurn (turn : TranscriptTurn) : Database :=
  { db with
    turns := db.turns.upsert turn
      (fun stored => { turn with invocationId := stored.invocationId, seqFrom := stored.seqFrom }) fun _ => rfl }

def deleteTurnsForInvocation : Database :=
  { db with turns := db.turns.erase fun turn => decide (turn.invocationId = invocationId) }

/-- `getInvocationMark(invocationId)?.lastTerminalSeq ?? 0`. -/
def lastTerminalSeq : Nat := ((db.marks.find invocationId).map (·.lastTerminalSeq)).getD 0

def setInvocationMark (mark : TranscriptInvocationMark) : Database :=
  { db with
    marks := db.marks.upsert mark (fun stored => { mark with invocationId := stored.invocationId }) fun _ => rfl }

def turnsOf : List TranscriptTurn := db.turns.rows.filter fun turn => decide (turn.invocationId = invocationId)

end Repositories

section Tail

variable (columns : Columns)

/-- The turn of the rows above `lo` up to `hi`. -/
def segmentTurn (db : Database) (invocationId runtimeId : String) (lo hi : Nat) : Option TranscriptTurn :=
  (extractTurnDocument columns (listTranscriptRange db invocationId lo hi)).map fun document =>
    { document, runtimeFacets (db.runtimes.find runtimeId) with }

def emitSegment (invocationId runtimeId : String) (lo hi : Nat) (db : Database) : Database :=
  match segmentTurn columns db invocationId runtimeId lo hi with
  | none => db
  | some turn => upsertTurn db turn

def emitUpTo (invocationId runtimeId : String) (state : Database × Nat) (terminal : LedgerRow) : Database × Nat :=
  (emitSegment columns invocationId runtimeId state.2 terminal.seq state.1, terminal.seq)

def reindexInvocation (invocationId runtimeId : String) (db : Database) : Database × Nat :=
  let emitted := (listTranscriptTerminals db invocationId).foldl (emitUpTo columns invocationId runtimeId)
    (deleteTurnsForInvocation db invocationId, 0)
  (setInvocationMark emitted.1 { invocationId, runtimeId, lastTerminalSeq := emitted.2 }, emitted.2)

/-- One row of a batch, with the variable `lastTerminalSeq`. -/
def processEvent (invocationId runtimeId : String) (state : Database × Nat) (event : LedgerRow) : Database × Nat :=
  let (db, last) := state
  if isTerminal event.type then
    if event.seq ≤ last then reindexInvocation columns invocationId runtimeId db
    else
      let db := emitSegment columns invocationId runtimeId last event.seq db
      (setInvocationMark db { invocationId, runtimeId, lastTerminalSeq := event.seq }, event.seq)
  else if isProse event.type && decide (event.seq ≤ last) then reindexInvocation columns invocationId runtimeId db
  else (db, last)

def bySeqThenId (a b : LedgerRow) : Ordering := (compare a.seq b.seq).then (compare a.id b.id)

def processInvocationEvents (invocationId : String) (events : List LedgerRow) (db : Database) : Database :=
  match sortBy bySeqThenId events with
  | [] => db
  | first :: rest =>
    if first.runtimeId = "" then db
    else
      ((first :: rest).foldl (processEvent columns invocationId first.runtimeId)
        (db, lastTerminalSeq db invocationId)).1

structure TailRun where
  ceiling : Nat
  cursor : Nat

def nextCursor (run : TailRun) (batchSize : Nat) (events : List LedgerRow) : Nat :=
  if events.length = batchSize then (events.getLast?.map (·.id)).getD run.cursor else run.ceiling

def applyBatch (run : TailRun) (batchSize : Nat) (db : Database) : Database :=
  let events := listTranscriptTail db run.cursor run.ceiling batchSize
  let db := ((events.map (·.invocationId)).eraseDups).foldl
    (fun db invocationId =>
      processInvocationEvents columns invocationId (events.filter (·.invocationId = invocationId)) db) db
  { db with lastEventId := nextCursor run batchSize events }

end Tail

structure State where
  db : Database := {}
  tail : Option TailRun := none
  stopping : Bool := false
  batchSize : Nat

/-- What `appendEvent` is given. -/
structure EventInput where
  invocationId : String
  seq : Nat
  type : String
  time : String
  brokerEventJson : String

inductive Action where
  | append (event : EventInput)
  | putRuntime (runtime : Runtime)
  | tick
  | batch
  | stop
  /-- The process ended, stopped or not, and another opened the database. -/
  | restart (batchSize : Nat)

section Step

variable (columns : Columns) (runtimeOf : String → String)

def appendEvent (event : EventInput) (db : Database) : Database :=
  if (db.ledger.find (event.invocationId, event.seq)).isSome then db
  else
    { db with
      ledger := db.ledger.add
        { id := db.nextEventId, invocationId := event.invocationId, seq := event.seq, type := event.type
          runtimeId := runtimeOf event.invocationId, time := event.time, brokerEventJson := event.brokerEventJson }
      nextEventId := db.nextEventId + 1 }

def putRuntime (runtime : Runtime) (db : Database) : Database :=
  { db with
    runtimes := db.runtimes.upsert runtime (fun stored => { runtime with runtimeId := stored.runtimeId }) fun _ => rfl }

def tailStep (s : State) : State :=
  match s.tail with
  | none => s
  | some run =>
    if s.stopping || decide (run.ceiling ≤ run.cursor) then { s with tail := none }
    else
      let db := applyBatch columns run s.batchSize s.db
      { s with db, tail := some { run with cursor := db.lastEventId } }

def step : Action → State → State
  | .append event, s => { s with db := appendEvent runtimeOf event s.db }
  | .putRuntime runtime, s => { s with db := putRuntime runtime s.db }
  | .tick, s =>
    if s.tail.isSome then s
    else { s with tail := some { ceiling := maxEventId s.db, cursor := s.db.lastEventId } }
  | .batch, s => tailStep columns s
  | .stop, s => { s with stopping := true }
  | .restart batchSize, s => { db := s.db, batchSize }

end Step

end HrcRuntime.TranscriptIndex
