import HrcRuntime.Json
import HrcRuntime.Keyed

namespace HrcRuntime.CollectiveHistory

open Json Keyed

inductive HrcEntity where
  | human
  | system
  deriving DecidableEq

inductive HrcMessageAddress where
  | session (sessionRef : String)
  | entity (entity : HrcEntity)
  deriving DecidableEq

inductive HrcMessageKind where
  | dm
  | literal
  | system
  deriving DecidableEq

inductive HrcMessagePhase where
  | request
  | response
  | oneway
  deriving DecidableEq

inductive HrcMessageExecutionState where
  | notApplicable
  | accepted
  | started
  | completed
  | coalesced
  | failed
  deriving DecidableEq

structure HrcMessageExecution where
  state : HrcMessageExecutionState
  mode : Option String := none
  sessionRef : Option String := none
  scopeRef : Option String := none
  laneRef : Option String := none
  hostSessionId : Option String := none
  generation : Option Nat := none
  runtimeId : Option String := none
  runId : Option String := none
  coalescedIntoRunId : Option String := none
  coalescedPosition : Option Nat := none
  transport : Option String := none
  errorCode : Option String := none
  errorMessage : Option String := none
  deriving DecidableEq

/-- `Number.isSafeInteger(seq) && seq >= 1`. -/
structure MessageSeq where
  value : Nat
  positive : 1 ≤ value
  deriving DecidableEq

structure HrcMessageRecord where
  messageSeq : MessageSeq
  messageId : String
  createdAt : String
  kind : HrcMessageKind
  phase : HrcMessagePhase
  source : HrcMessageAddress
  target : HrcMessageAddress
  replyToMessageId : Option String := none
  rootMessageId : String
  body : String
  execution : HrcMessageExecution
  metadataJson : Option Json := none
  deriving DecidableEq

inductive CollectiveHistorySourceRole where
  | origin
  | destination
  deriving DecidableEq

/-- `Omit<RecordCollectiveHistoryObservationInput, 'observedAt'>`. -/
structure Observation where
  sourceNodeId : String
  sourceRole : CollectiveHistorySourceRole
  originNodeId : String
  acceptedDestinationNodeId : Option String := none
  record : HrcMessageRecord

def collectiveHistoryAddressRef : HrcMessageAddress → String
  | .entity .human => "entity:human"
  | .entity .system => "entity:system"
  | .session sessionRef => "session:" ++ sessionRef

structure CollectiveHistoryFilterColumns where
  sourceRef : String
  targetRef : String
  rootMessageId : String
  replyToMessageId : Option String
  kind : HrcMessageKind
  phase : HrcMessagePhase
  hostSessionId : Option String
  runId : Option String
  generation : Option Nat

def collectiveHistoryFilterColumns (record : HrcMessageRecord) : CollectiveHistoryFilterColumns :=
  { sourceRef := collectiveHistoryAddressRef record.source, targetRef := collectiveHistoryAddressRef record.target
    rootMessageId := record.rootMessageId, replyToMessageId := record.replyToMessageId, kind := record.kind
    phase := record.phase, hostSessionId := record.execution.hostSessionId, runId := record.execution.runId
    generation := record.execution.generation }

/-- A row of `collective_history_messages`; its record is kept as the value its JSON is the text of. -/
structure CollectiveMessageRow where
  collectiveSeq : Nat
  messageId : String
  canonicalRecord : HrcMessageRecord
  canonicalSourceNodeId : String
  canonicalSourceRole : CollectiveHistorySourceRole
  canonicalCreatedAt : String
  createdAt : String
  updatedAt : String
  columns : CollectiveHistoryFilterColumns

/-- A row of `collective_history_observations`. -/
structure CollectiveObservationRow where
  messageId : String
  sourceNodeId : String
  sourceMessageSeq : MessageSeq
  sourceRole : CollectiveHistorySourceRole
  originNodeId : String
  acceptedDestinationNodeId : Option String
  record : HrcMessageRecord
  observedAt : String
  updatedAt : String

structure Database where
  messages : Store CollectiveMessageRow fun row => row.messageId := .empty
  nextCollectiveSeq : Nat := 1
  observations : Store CollectiveObservationRow fun row => (row.messageId, row.sourceNodeId) := .empty

/-- `String.prototype.localeCompare`: an order, in which two texts may be equal. -/
structure Collator where
  localeCompare : String → String → Ordering
  lawful : Std.TransCmp localeCompare

theorem transCmp_codePoints : Std.TransCmp (compare : String → String → Ordering) := inferInstance

section Repository

variable (collator : Collator)

def canonicalOf (db : Database) (messageId : String) : Option HrcMessageRecord :=
  (db.messages.find messageId).map (·.canonicalRecord)

def takeCanonical (input : Observation) (observedAt : String) (row : CollectiveMessageRow) : CollectiveMessageRow :=
  { row with
    canonicalRecord := input.record, canonicalSourceNodeId := input.sourceNodeId
    canonicalSourceRole := input.sourceRole, canonicalCreatedAt := input.record.createdAt, updatedAt := observedAt
    columns := collectiveHistoryFilterColumns input.record }

theorem takeCanonical_messageId (input : Observation) (observedAt : String) (row : CollectiveMessageRow) :
    (takeCanonical input observedAt row).messageId = row.messageId := rfl

def canonicalRow (collectiveSeq : Nat) (input : Observation) (observedAt : String) : CollectiveMessageRow :=
  { collectiveSeq, messageId := input.record.messageId, canonicalRecord := input.record
    canonicalSourceNodeId := input.sourceNodeId, canonicalSourceRole := input.sourceRole
    canonicalCreatedAt := input.record.createdAt, createdAt := observedAt, updatedAt := observedAt
    columns := collectiveHistoryFilterColumns input.record }

def observationRow (input : Observation) (observedAt : String) : CollectiveObservationRow :=
  { messageId := input.record.messageId, sourceNodeId := input.sourceNodeId
    sourceMessageSeq := input.record.messageSeq, sourceRole := input.sourceRole, originNodeId := input.originNodeId
    acceptedDestinationNodeId := input.acceptedDestinationNodeId, record := input.record, observedAt
    updatedAt := observedAt }

/-- `ON CONFLICT(message_id, source_node_id) DO UPDATE`: all but the time it was first observed. -/
def takeObservation (input : Observation) (observedAt : String) (stored : CollectiveObservationRow) : CollectiveObservationRow :=
  { observationRow input observedAt with
    messageId := stored.messageId, sourceNodeId := stored.sourceNodeId, observedAt := stored.observedAt }

theorem takeObservation_key (input : Observation) (observedAt : String) (stored : CollectiveObservationRow) :
    ((takeObservation input observedAt stored).messageId, (takeObservation input observedAt stored).sourceNodeId) =
      (stored.messageId, stored.sourceNodeId) := rfl

def upsertObservation (input : Observation) (observedAt : String) (db : Database) : Database :=
  { db with
    observations := db.observations.upsert (observationRow input observedAt) (takeObservation input observedAt)
      (takeObservation_key input observedAt) }

def conflictsWith (input : Observation) (existing : CollectiveMessageRow) : Bool :=
  existing.canonicalSourceRole = .origin && input.sourceRole = .origin &&
    decide (existing.canonicalSourceNodeId ≠ input.sourceNodeId)

def shouldReplaceCanonical (input : Observation) (existing : CollectiveMessageRow) : Bool :=
  input.sourceRole = .origin || existing.canonicalSourceRole = .destination &&
    (collator.localeCompare input.sourceNodeId existing.canonicalSourceNodeId).isLT

def recordObservation (input : Observation) (observedAt : String) (db : Database) : Except String Unit × Database :=
  match db.messages.find input.record.messageId with
  | none =>
    (.ok (), upsertObservation input observedAt
      { db with
        messages := db.messages.add (canonicalRow db.nextCollectiveSeq input observedAt)
        nextCollectiveSeq := db.nextCollectiveSeq + 1 })
  | some existing =>
    if conflictsWith input existing then
      (.error ("conflicting collective-hist origins for " ++ input.record.messageId), db)
    else if shouldReplaceCanonical collator input existing then
      (.ok (), upsertObservation input observedAt
        { db with
          messages := db.messages.amend input.record.messageId (fun _ => true) (takeCanonical input observedAt)
            (takeCanonical_messageId input observedAt) })
    else (.ok (), upsertObservation input observedAt db)

end Repository

section Ingest

def ingressOriginNodeId (record : HrcMessageRecord) : Option String :=
  ((record.metadataJson.bind (·.member "federationIngress")).bind (·.stringField "authenticatedNodeId")).filter (· ≠ "")

def observationFor (sourceNodeId : String) (record : HrcMessageRecord) : Observation :=
  match ingressOriginNodeId record with
  | some ingressOrigin =>
    { sourceNodeId, sourceRole := .destination, originNodeId := ingressOrigin
      acceptedDestinationNodeId := some sourceNodeId, record }
  | none => { sourceNodeId, sourceRole := .origin, originNodeId := sourceNodeId, record }

def addressNamed : HrcMessageAddress → Bool
  | .entity _ => true
  | .session sessionRef => decide (sessionRef ≠ "")

def parseCollectiveHistoryMessage (record : HrcMessageRecord) : Except String HrcMessageRecord :=
  if record.messageId = "" ∨ record.createdAt = "" ∨ record.rootMessageId = "" then
    .error "collective hist message record is invalid"
  else if record.metadataJson.any (!·.isRecord) then .error "collective hist metadataJson is invalid"
  else if !(addressNamed record.source && addressNamed record.target) then .error "collective hist address is invalid"
  else .ok record

def acceptReplication (collator : Collator) (authenticatedNodeId : String) (body : HrcMessageRecord) (now : String)
    (db : Database) : Except String String × Database :=
  match parseCollectiveHistoryMessage body with
  | .error message => (.error message, db)
  | .ok record =>
    match recordObservation collator (observationFor authenticatedNodeId record) now db with
    | (.ok _, db) => (.ok record.messageId, db)
    | (.error message, db) => (.error message, db)

end Ingest

end HrcRuntime.CollectiveHistory
