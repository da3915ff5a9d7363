import HrcRuntime.CollectiveHistory
import HrcRuntime.KeysetPaging
import HrcRuntime.OrderedMap
import HrcRuntime.Schedule

namespace HrcRuntime.CollectiveHistory

open Keyed KeysetPaging

inductive ReplicationState where
  | pending
  | delivered
  deriving DecidableEq

/-- A row of `collective_history_replications`; times are milliseconds. -/
structure Replication where
  messageId : String
  sourceNodeId : String
  sourceMessageSeq : MessageSeq
  sourceRole : CollectiveHistorySourceRole
  originNodeId : String
  acceptedDestinationNodeId : Option String
  record : HrcMessageRecord
  recordFingerprint : String
  state : ReplicationState
  totalAttempts : Nat
  nextAttemptAt : Nat
  lastAttemptAt : Option Nat
  deliveredAt : Option Nat
  lastErrorCode : Option String
  lastErrorMessage : Option String
  createdAt : Nat
  updatedAt : Nat

abbrev Outbox := Store Replication fun row => row.messageId

section Repository

-- The hex SHA-256 of a record's JSON.
variable (fingerprint : HrcMessageRecord → String)

def replicationRow (input : Observation) (now : Nat) : Replication :=
  { messageId := input.record.messageId, sourceNodeId := input.sourceNodeId
    sourceMessageSeq := input.record.messageSeq, sourceRole := input.sourceRole, originNodeId := input.originNodeId
    acceptedDestinationNodeId := input.acceptedDestinationNodeId, record := input.record
    recordFingerprint := fingerprint input.record, state := .pending, totalAttempts := 0, nextAttemptAt := now
    lastAttemptAt := none, deliveredAt := none, lastErrorCode := none, lastErrorMessage := none, createdAt := now
    updatedAt := now }

/-- `ON CONFLICT(message_id) DO UPDATE`: all but the time the row was made. -/
def reopen (input : Observation) (now : Nat) (stored : Replication) : Replication :=
  { replicationRow fingerprint input now with messageId := stored.messageId, createdAt := stored.createdAt }

theorem reopen_messageId (input : Observation) (now : Nat) (stored : Replication) :
    (reopen fingerprint input now stored).messageId = stored.messageId := rfl

def enqueue (input : Observation) (now : Nat) (outbox : Outbox) : Outbox :=
  if (outbox.find input.record.messageId).map (·.recordFingerprint) = some (fingerprint input.record) then outbox
  else
    outbox.upsert (replicationRow fingerprint input now) (reopen fingerprint input now)
      (reopen_messageId fingerprint input now)

def byMessageSeq (a b : Replication) : Ordering :=
  (compare a.sourceMessageSeq.value b.sourceMessageSeq.value).then (compare a.messageId b.messageId)

def listDue (now : Nat) (limit : Nat) (outbox : Outbox) : List Replication :=
  (sortBy byMessageSeq (outbox.rows.filter fun row =>
    decide (row.state = .pending) && decide (row.nextAttemptAt ≤ now))).take limit

def deliver (now : Nat) (row : Replication) : Replication :=
  { row with
    state := .delivered, totalAttempts := row.totalAttempts + 1, lastAttemptAt := some now, deliveredAt := some now
    lastErrorCode := none, lastErrorMessage := none, updatedAt := now }

theorem deliver_messageId (now : Nat) (row : Replication) : (deliver now row).messageId = row.messageId := rfl

/-- `WHERE message_id = ? AND record_fingerprint = ?`. -/
def markDelivered (messageId recordFingerprint : String) (now : Nat) (outbox : Outbox) : Outbox :=
  outbox.amend messageId (fun row => decide (row.recordFingerprint = recordFingerprint)) (deliver now)
    (deliver_messageId now)

structure RetryInput where
  messageId : String
  fingerprint : String
  now : Nat
  nextAttemptAt : Nat
  errorCode : String
  errorMessage : String

def postpone (input : RetryInput) (row : Replication) : Replication :=
  { row with
    state := .pending, totalAttempts := row.totalAttempts + 1, lastAttemptAt := some input.now
    nextAttemptAt := input.nextAttemptAt, lastErrorCode := some input.errorCode
    lastErrorMessage := some input.errorMessage, updatedAt := input.now }

theorem postpone_messageId (input : RetryInput) (row : Replication) : (postpone input row).messageId = row.messageId := rfl

def scheduleRetry (input : RetryInput) (outbox : Outbox) : Outbox :=
  outbox.amend input.messageId (fun row => decide (row.recordFingerprint = input.fingerprint)) (postpone input)
    (postpone_messageId input)

/-- `Math.min(60_000, 250 * 2 ** Math.min(totalAttempts, 8))`. -/
def retryDelayMs (totalAttempts : Nat) : Nat := min 60000 (250 * Nat.pow 2 (min totalAttempts 8))

/-- What `drainDueInner` asks for when the attempt of a listed row fails. -/
def retryOf (replication : Replication) (attemptedAt : Nat) (message : String) : RetryInput :=
  { messageId := replication.messageId, fingerprint := replication.recordFingerprint, now := attemptedAt
    nextAttemptAt := attemptedAt + retryDelayMs replication.totalAttempts, errorCode := "collective_unreachable"
    errorMessage := message }

end Repository

section Network

structure Acknowledgement where
  messageId : String
  recordFingerprint : String
  record : HrcMessageRecord

/-- A node's outbox, the rows it has listed for sending, the authority and the acceptances it has issued. What is listed
may reach the authority at any time, repeatedly or never, and so may an acceptance reach the node. -/
structure State where
  outbox : Outbox := .empty
  requests : List Replication := []
  authority : Database := {}
  acknowledgements : List Acknowledgement := []
  /-- The contents the node's messages have had. -/
  contents : List HrcMessageRecord := []
  /-- How many acceptances had been issued when a message's row was last written. -/
  writtenAt : List (String × Nat) := []

inductive Action where
  | change (record : HrcMessageRecord) (now : Nat)
  | drain (now : Nat)
  | arrive (request : Nat) (now : String)
  | acknowledge (acknowledgement : Nat) (now : Nat)
  | fail (request : Nat) (now : Nat) (message : String)
  /-- Another node's observation is recorded at the authority. -/
  | foreign (nodeId : String) (record : HrcMessageRecord) (now : String)

variable (fingerprint : HrcMessageRecord → String) (collator : Collator) (localNodeId : String)

def change (record : HrcMessageRecord) (now : Nat) (s : State) : State :=
  let contents := s.contents ++ [record]
  if (s.outbox.find record.messageId).map (·.recordFingerprint) = some (fingerprint record) then { s with contents }
  else
    { s with
      outbox := enqueue fingerprint (observationFor localNodeId record) now s.outbox
      contents, writtenAt := OrderedMap.set record.messageId s.acknowledgements.length s.writtenAt }

def arrive (request : Replication) (now : String) (s : State) : State :=
  match acceptReplication collator localNodeId request.record now s.authority with
  | (.ok messageId, authority) =>
    { s with
      authority
      acknowledgements := s.acknowledgements ++
        [{ messageId, recordFingerprint := request.recordFingerprint, record := request.record }] }
  | (.error _, authority) => { s with authority }

def step : Action → State → State
  | .change record now, s => change fingerprint localNodeId record now s
  | .drain now, s => { s with requests := s.requests ++ listDue now 100 s.outbox }
  | .arrive request now, s =>
    match s.requests[request]? with
    | none => s
    | some request => arrive collator localNodeId request now s
  | .acknowledge acknowledgement now, s =>
    match s.acknowledgements[acknowledgement]? with
    | none => s
    | some ack => { s with outbox := markDelivered ack.messageId ack.recordFingerprint now s.outbox }
  | .fail request now message, s =>
    match s.requests[request]? with
    | none => s
    | some request => { s with outbox := scheduleRetry (retryOf request now message) s.outbox }
  | .foreign nodeId record now, s =>
    if nodeId = localNodeId then s
    else { s with authority := (acceptReplication collator nodeId record now s.authority).2 }

end Network

end HrcRuntime.CollectiveHistory
