import HrcRuntime.Json
import HrcRuntime.Keyed
import HrcRuntime.LifecyclePayload

namespace HrcRuntime.HandoffRecords

open LifecyclePayload (utf16Length turnTextLimit)

inductive Address where
  | entity (entity : String)
  | session (sessionRef : String)

inductive MessageKind where
  | dm | literal | system

inductive MessagePhase where
  | request | response | oneway
  deriving DecidableEq

inductive ExecutionState where
  | notApplicable | accepted | started | completed | coalesced | failed
  deriving DecidableEq

def ExecutionState.terminal (s : ExecutionState) : Bool := s = .completed || s = .failed

def ExecutionState.text : ExecutionState → String
  | .notApplicable => "not_applicable"
  | .accepted => "accepted"
  | .started => "started"
  | .completed => "completed"
  | .coalesced => "coalesced"
  | .failed => "failed"

structure Execution where
  state : ExecutionState
  mode : Option String := none
  sessionRef : Option String := none
  hostSessionId : Option String := none
  generation : Option Int := none
  runtimeId : Option String := none
  runId : Option String := none
  transport : Option String := none
  errorCode : Option String := none
  errorMessage : Option String := none

/-- `metadataJson.semanticTurnHandoff`. -/
structure Marker where
  respondTo : Option Address
  freshContext : Bool

/-- `metadataJson.federationSemanticTurnSignal`. -/
structure Signal where
  sourceHrcSeq : Nat
  sessionRef : String
  scopeRef : Option String
  laneRef : Option String
  hostSessionId : Option String
  runtimeId : String
  runId : String
  generation : Option Int
  mode : String
  transport : String
  outcome : ExecutionState
  errorCode : Option String
  errorMessage : Option String

/-- The keys of `metadataJson` the finalizer reads or writes; `ingressHandoff` is whether
`federationIngress.delivery.semanticTurnHandoff` is an object. -/
structure Metadata where
  semanticTurnHandoff : Option Marker := none
  federationSemanticTurnOrigin : Bool := false
  ingressHandoff : Bool := false
  federationSemanticTurnSignal : Option Signal := none

/-- A row of `messages`. -/
structure Message where
  messageSeq : Nat
  messageId : String
  createdAt : String
  kind : MessageKind
  phase : MessagePhase
  «from» : Address
  «to» : Address
  replyToMessageId : Option String
  rootMessageId : String
  body : String
  execution : Execution
  metadata : Metadata

inductive EventKind where
  | turnMessage | turnCompleted | turnZombied | turnReaped | messageResponse
  | other (name : String)
  deriving DecidableEq

inductive Payload where
  | json (value : Json.Json)
  | message (row : Message)

/-- A row of `hrc_events`. -/
structure Event where
  hrcSeq : Nat
  ts : String
  eventKind : EventKind
  hostSessionId : Option String
  scopeRef : Option String
  laneRef : Option String
  generation : Option Int
  runtimeId : Option String
  runId : Option String
  transport : Option String
  errorCode : Option String
  payload : Payload

def Event.terminal (e : Event) : Bool :=
  e.eventKind = .turnCompleted || e.eventKind = .turnZombied || e.eventKind = .turnReaped

/-- The columns of `runs` the finalizer reads. -/
structure Run where
  runId : String
  failed : Bool
  runtimeId : Option String
  transport : String
  errorMessage : Option String

/-- The tables the handoff uses. Messages are listed in the order of `message_seq`; `buffers` are the chunks of
`runtime_buffers`, each with its run. -/
structure Database where
  messages : Keyed.Store Message (·.messageId)
  ascending : messages.rows.Pairwise fun a b => a.messageSeq < b.messageSeq
  events : List Event
  runs : Keyed.Store Run (·.runId)
  buffers : List (String × String)

namespace Database

def empty : Database := ⟨.empty, List.Pairwise.nil, [], .empty, []⟩

variable (db : Database)

/-- `COALESCE(MAX(hrc_seq),0)`. -/
def head : Nat := db.events.foldr (fun e n => max e.hrcSeq n) 0

def lastMessage : Nat := db.messages.rows.foldr (fun m n => max m.messageSeq n) 0

theorem le_foldr_max {α : Type} {f : α → Nat} {l : List α} {a : α} (h : a ∈ l) : f a ≤ l.foldr (fun x n => max (f x) n) 0 := by
  induction l with
  | nil => cases h
  | cons b l ih =>
    rcases List.mem_cons.mp h with rfl | h
    · exact Nat.le_max_left _ _
    · exact Nat.le_trans (ih h) (Nat.le_max_right _ _)

theorem messageSeq_le {m : Message} (h : m ∈ db.messages.rows) : m.messageSeq ≤ db.lastMessage := le_foldr_max h

theorem hrcSeq_le {e : Event} (h : e ∈ db.events) : e.hrcSeq ≤ db.head := le_foldr_max h

/-- The row under the next `message_seq`. -/
def numbered (input : Message) : Message := { input with messageSeq := db.lastMessage + 1 }

/-- `insert` of `messages`; `message_id` is unique. -/
def insert (input : Message) : Option Database :=
  if h : db.messages.find input.messageId = none then
    some { db with
      messages := db.messages.add (db.numbered input)
      ascending := by
        rw [Keyed.rows_add (r := db.numbered input) h, List.pairwise_append]
        refine ⟨db.ascending, List.pairwise_singleton _ _, fun a ha b hb => ?_⟩
        rw [List.mem_singleton.mp hb]
        exact Nat.lt_succ_of_le (db.messageSeq_le ha) }
  else none

def patched (patch : Execution → Execution) (m : Message) : Message := { m with execution := patch m.execution }

def updateExecution (id : String) (patch : Execution → Execution) : Database :=
  { db with
    messages := db.messages.amend id (fun _ => true) (patched patch) fun _ => rfl
    ascending := by
      refine List.pairwise_map.mpr (db.ascending.imp fun {a b} h => ?_)
      split <;> split <;> exact h }

/-- `append_event`. -/
def append (e : Event) : Database := { db with events := db.events ++ [{ e with hrcSeq := db.head + 1 }] }

def answered (id : String) : Bool :=
  db.messages.rows.any fun r => r.phase = .response && r.replyToMessageId = some id

def pendingHandoff (m : Message) : Bool :=
  m.phase = .request && !m.execution.state.terminal && m.execution.runId.isSome && m.metadata.semanticTurnHandoff.isSome &&
    !m.metadata.federationSemanticTurnOrigin && !db.answered m.messageId

/-- `pending_handoffs`: a page of pending requests after a sequence. -/
def pendingHandoffs (after limit : Nat) : List Message :=
  (db.messages.rows.filter fun m => after < m.messageSeq && db.pendingHandoff m).take limit

/-- `pending_handoff_for_run`: the latest pending request of a run. -/
def pendingHandoffForRun (run : String) : Option Message :=
  (db.messages.rows.filter fun m => m.execution.runId = some run && db.pendingHandoff m).getLast?

def terminalOf (run : String) : Option Event := db.events.find? fun e => e.runId = some run && e.terminal

end Database

/-- `String::from_utf16_lossy` of the first `limit` code units: a pair cut in two leaves a replacement character. -/
def lossyPrefix : Nat → List Char → List Char
  | _, [] => []
  | limit, c :: rest =>
    if utf16Length c ≤ limit then c :: lossyPrefix (limit - utf16Length c) rest
    else if limit = 0 then [] else ['\uFFFD']

def partText (part : Json.Json) : String := ((part.asString).or (part.stringField "text")).getD ""

/-- The text of a `turn.message` payload and whether it is the final one. -/
def segment : Payload → String × Bool
  | .message _ => ("", false)
  | .json value =>
    (match (value.member "message").bind (·.member "content") with
      | some (.str s) => s
      | some (.arr parts) => String.join (parts.toList.map partText)
      | _ => "",
      value.member "final" = some (.bool true))

/-- `final_message`: the last final segment of the run, else its last segment, else its buffered output, else the
error of its row. -/
def finalMessage (db : Database) (run : String) : String :=
  let segments := ((db.events.filter fun e => e.runId = some run && e.eventKind = .turnMessage).map
    (segment ·.payload)).filter fun s => s.1 ≠ ""
  let buffered := String.join ((db.buffers.filter fun b => b.1 = run).map (·.2))
  let text := match (segments.reverse.find? (·.2)).or segments.getLast? with
    | some s => s.1
    | none => if buffered = "" then ((db.runs.find run).bind (·.errorMessage)).getD "" else buffered
  String.ofList (lossyPrefix turnTextLimit text.toList)

/-- `session.split_once("/lane:")`, the lane `main` where there is none. -/
def splitLane (sessionRef : String) : String × String :=
  match sessionRef.splitOn "/lane:" with
  | scope :: rest@(_ :: _) => (scope, String.intercalate "/lane:" rest)
  | _ => (sessionRef, "main")

/-- The `message.response` event of a response row. -/
def responseEvent (row : Message) : Event :=
  let (scope, lane) := splitLane (row.execution.sessionRef.getD "")
  { hrcSeq := 0, ts := row.createdAt, eventKind := .messageResponse, hostSessionId := row.execution.hostSessionId
    scopeRef := if scope = "" then none else some scope
    laneRef := some lane, generation := row.execution.generation, runtimeId := row.execution.runtimeId
    runId := row.execution.runId, transport := row.execution.transport, errorCode := row.execution.errorCode
    payload := .message row }

/-- `finalize_handoff`: one transaction, refused where a response is there; nothing where the insert fails. -/
def finalizeHandoff (db : Database) (request : String) (response : Message) (patch : Execution → Execution) :
    Option (Database × Bool) :=
  if db.answered request then some (db, false)
  else (db.insert response).map fun inserted =>
    ((inserted.updateExecution request patch).append (responseEvent (db.numbered response)), true)

end HrcRuntime.HandoffRecords
