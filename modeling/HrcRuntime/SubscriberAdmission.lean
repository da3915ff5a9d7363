import HrcRuntime.Schedule
import HrcRuntime.Wire
import Mathlib.Logic.Function.Basic

namespace HrcRuntime.SubscriberAdmission

open Wire (Number maxSafeInteger)

/-- The instants `now()` gives. -/
abbrev Instant := Int

inductive Route where
  | events | brokerEvents
  deriving DecidableEq

inductive ReceiptMode where
  | none | consumerAckV1
  deriving DecidableEq

inductive ReceiptState where
  | notRequested | awaitingFirstAck | behind | caughtUp

/-- `HrcSubscriberAdmissionEntry`; the n-th admission has the random id `n`. -/
structure Entry where
  subscriberId : Nat
  name : Option String
  route : Route
  selector : Wire.Value
  remoteInfo : Option String
  openedAt : Instant
  lastEnqueuedSeq : Option Int := none
  lastStreamAcceptedSeq : Option Int := none
  enqueuedCount : Nat := 0
  streamAcceptedCount : Nat := 0
  pendingCount : Int := 0
  desiredSize : Option Int := none
  pendingSince : Option Instant := none
  lastStreamAcceptedAt : Option Instant := none
  keepaliveOnlySince : Option Instant := none
  receiptMode : ReceiptMode
  receiptState : ReceiptState
  lastConsumerAcknowledgedSeq : Option Int := none
  lastConsumerAcknowledgedAt : Option Instant := none
  consumerReceiptBehindSince : Option Instant := none
  consumerReceiptAckCount : Nat := 0
  closedAt : Option Instant := none

inductive Disposition where
  | duplicate | stale | advanced
  deriving DecidableEq

namespace Entry

variable (e : Entry)

def enqueue (seq : Int) (now : Instant) : Entry :=
  let pendingCount : Int := e.enqueuedCount + 1 - e.streamAcceptedCount
  { e with
    lastEnqueuedSeq := some (max (e.lastEnqueuedSeq.getD seq) seq)
    enqueuedCount := e.enqueuedCount + 1
    pendingCount
    pendingSince := if pendingCount = 1 then some now else e.pendingSince }

/-- `updateReceiptStateAfterStreamAcceptance`, for an entry whose receipts are asked for. -/
def updateReceiptStateAfterStreamAcceptance (acceptedAt : Instant) : Entry :=
  match e.lastConsumerAcknowledgedSeq with
  | none =>
    { e with
      receiptState := .awaitingFirstAck
      consumerReceiptBehindSince := some (e.consumerReceiptBehindSince.getD acceptedAt) }
  | some acknowledgedSeq =>
    if e.lastStreamAcceptedSeq.any fun acceptedSeq => acknowledgedSeq < acceptedSeq then
      { e with
        receiptState := .behind
        consumerReceiptBehindSince := some (e.consumerReceiptBehindSince.getD acceptedAt) }
    else { e with receiptState := .caughtUp, consumerReceiptBehindSince := none }

def admitted (seq : Int) (desiredSize : Option Int) (now : Instant) : Entry :=
  let pendingCount : Int := e.enqueuedCount - (e.streamAcceptedCount + 1)
  { e with
    lastStreamAcceptedSeq := some (max (e.lastStreamAcceptedSeq.getD seq) seq)
    streamAcceptedCount := e.streamAcceptedCount + 1
    pendingCount
    desiredSize
    lastStreamAcceptedAt := some now
    keepaliveOnlySince := none
    pendingSince := if pendingCount = 0 then none else e.pendingSince }

/-- An accepted record, with `requested` whether the receipts are asked for. -/
def streamAccepted (requested : Bool) (seq : Int) (desiredSize : Option Int) (now : Instant) : Entry :=
  let accepted := e.admitted seq desiredSize now
  if requested then accepted.updateReceiptStateAfterStreamAcceptance now else accepted

def keepalive (desiredSize : Option Int) (now : Instant) : Entry :=
  { e with desiredSize, keepaliveOnlySince := some (e.keepaliveOnlySince.getD now) }

def disposition (seq : Int) : Disposition :=
  if e.lastConsumerAcknowledgedSeq = some seq then .duplicate
  else if e.lastConsumerAcknowledgedSeq.any fun previousSeq => seq < previousSeq then .stale
  else .advanced

def advance (seq acceptedSeq : Int) (now : Instant) : Entry :=
  { e with
    lastConsumerAcknowledgedSeq := some seq
    lastConsumerAcknowledgedAt := some now
    consumerReceiptAckCount := e.consumerReceiptAckCount + 1
    receiptState := if seq = acceptedSeq then .caughtUp else .behind
    consumerReceiptBehindSince := if seq = acceptedSeq then none else some (e.consumerReceiptBehindSince.getD now) }

end Entry

/-- `Number.isSafeInteger`: the integer it is, if it is one. -/
def safeInteger : Number → Option Int
  | .int n => if -maxSafeInteger ≤ n ∧ n ≤ maxSafeInteger then some n else none
  | _ => none

structure OpenInput where
  route : Route
  selector : Wire.Value
  remoteInfo : Option String := none
  openedAt : Option Instant := none
  receiptMode : Option ReceiptMode := none
  name : Option String := none

/-- `InternalSubscriberAdmission`; the n-th receipt token is `n`. -/
structure Admission where
  entry : Entry
  receiptToken : Option Nat
  closed : Bool := false

structure AckRequest where
  subscriberId : Nat
  receiptToken : Nat
  seq : Number

structure AckResponse where
  subscriberId : Nat
  seq : Int
  disposition : Disposition
  lastConsumerAcknowledgedSeq : Int
  lastStreamAcceptedSeq : Int

inductive ErrorCode where
  | invalidSelector | invalidFence | malformedRequest

/-- `HrcBadRequestError`, with the fields of its detail. -/
structure BadRequest where
  code : ErrorCode
  message : String
  subscriberId : Nat
  seq : Option Number := none
  lastStreamAcceptedSeq : Option (Option Int) := none

namespace BadRequest

def unknown (subscriberId : Nat) : BadRequest :=
  ⟨.invalidSelector, "subscriberId is unknown or expired", subscriberId, none, none⟩

def token (subscriberId : Nat) : BadRequest :=
  ⟨.invalidFence, "receipt token does not match the subscriber", subscriberId, none, none⟩

def malformed (subscriberId : Nat) (seq : Number) : BadRequest :=
  ⟨.malformedRequest, "receipt seq must be a positive safe integer", subscriberId, some seq, none⟩

def ahead (subscriberId : Nat) (seq : Int) (lastStreamAcceptedSeq : Option Int) : BadRequest :=
  ⟨.invalidFence, "receipt seq is ahead of the stream-admission head", subscriberId, some (.int seq),
    some lastStreamAcceptedSeq⟩

end BadRequest

/-- The part of an acknowledgement past the token check; `seq` is the positive safe integer of the input, if it
is one. -/
def Entry.receive (e : Entry) (input : AckRequest) (seq : Option Int) (now : Instant) :
    Except BadRequest (AckResponse × Entry) :=
  match seq with
  | none => .error (.malformed input.subscriberId input.seq)
  | some seq => match e.lastStreamAcceptedSeq with
    | none => .error (.ahead input.subscriberId seq none)
    | some acceptedSeq =>
      if acceptedSeq < seq then .error (.ahead input.subscriberId seq (some acceptedSeq))
      else
        let disposition := e.disposition seq
        let e' := if disposition = .advanced then e.advance seq acceptedSeq now else e
        .ok (⟨input.subscriberId, seq, disposition, e'.lastConsumerAcknowledgedSeq.getD seq, acceptedSeq⟩, e')

/-- `Number.isSafeInteger(input.seq) && input.seq >= 1`. -/
def positiveSeq (seq : Number) : Option Int :=
  (safeInteger seq).filter fun n => 1 ≤ n

/-- `createSubscriberAdmissionRegistry`: every admission a handle exists for, and the three lookup maps with the
list of closed ones. -/
structure Registry where
  admissions : List Admission
  active : List Nat
  recentlyClosed : List Nat
  bySubscriberId : List Nat
  byName : String → Option Nat

namespace Registry

def empty : Registry := ⟨[], [], [], [], fun _ => none⟩

variable (recentlyClosedLimit : Nat) (s : Registry)

def openEntry (input : OpenInput) (now : Instant) : Entry :=
  let receiptMode := input.receiptMode.getD .none
  { subscriberId := s.admissions.length
    name := input.name
    route := input.route
    selector := input.selector
    remoteInfo := input.remoteInfo
    openedAt := input.openedAt.getD now
    receiptMode
    receiptState := if receiptMode = .consumerAckV1 then .awaitingFirstAck else .notRequested }

def openAdmission (input : OpenInput) (now : Instant) : Admission :=
  let entry := s.openEntry input now
  { entry, receiptToken := if entry.receiptMode = .consumerAckV1 then some s.admissions.length else none }

def «open» (input : OpenInput) (now : Instant) : Registry :=
  let subscriberId := s.admissions.length
  { admissions := s.admissions ++ [s.openAdmission input now]
    active := s.active ++ [subscriberId]
    recentlyClosed := s.recentlyClosed
    bySubscriberId := s.bySubscriberId ++ [subscriberId]
    byName := match input.name with
      | some name => Function.update s.byName name (some subscriberId)
      | none => s.byName }

def amend (subscriberId : Nat) (f : Entry → Entry) : Registry :=
  { s with admissions := s.admissions.modify subscriberId fun a => if a.closed then a else { a with entry := f a.entry } }

def recordEnqueued (subscriberId : Nat) (seq : Number) (desiredSize : Option Int) (now : Instant) : Registry :=
  match safeInteger seq with
  | none => s
  | some seq => s.amend subscriberId fun e => { e.enqueue seq now with desiredSize }

def recordStreamAccepted (subscriberId : Nat) (seq : Number) (desiredSize : Option Int) (now : Instant) : Registry :=
  match safeInteger seq with
  | none => s
  | some seq => s.amend subscriberId fun e =>
    if e.enqueuedCount ≤ e.streamAcceptedCount then e
    else e.streamAccepted (e.receiptMode = .consumerAckV1) seq desiredSize now

def recordKeepalive (subscriberId : Nat) (desiredSize : Option Int) (now : Instant) : Registry :=
  s.amend subscriberId fun e => e.keepalive desiredSize now

def dropName (subscriberId : Nat) (name : Option String) : String → Option Nat :=
  match name with
  | some name => if s.byName name = some subscriberId then Function.update s.byName name none else s.byName
  | none => s.byName

def closedAfter (subscriberId : Nat) : List Nat :=
  let recentlyClosed := s.recentlyClosed ++ [subscriberId]
  if 0 < recentlyClosedLimit then recentlyClosed.drop (recentlyClosed.length - recentlyClosedLimit)
  else s.recentlyClosed

def evictedBy (subscriberId : Nat) : List Nat :=
  let recentlyClosed := s.recentlyClosed ++ [subscriberId]
  if 0 < recentlyClosedLimit then recentlyClosed.take (recentlyClosed.length - recentlyClosedLimit)
  else [subscriberId]

def closeAdmission (now : Instant) (a : Admission) : Admission :=
  { a with closed := true, entry := { a.entry with closedAt := some now } }

def close (subscriberId : Nat) (now : Instant) : Registry :=
  match s.admissions[subscriberId]? with
  | none => s
  | some a =>
    if a.closed then s
    else
      { admissions := s.admissions.modify subscriberId (closeAdmission now)
        active := s.active.filter (· ≠ subscriberId)
        recentlyClosed := s.closedAfter recentlyClosedLimit subscriberId
        bySubscriberId := s.bySubscriberId.filter (· ∉ s.evictedBy recentlyClosedLimit subscriberId)
        byName := s.dropName subscriberId a.entry.name }

def findByName (name : String) : Option Nat := s.byName name

/-- `bySubscriberId.get`. -/
def known (id : Nat) : Option Admission := (s.bySubscriberId.find? (· = id)).bind fun id => s.admissions[id]?

def acknowledge (input : AckRequest) (now : Instant) : Except BadRequest (AckResponse × Registry) :=
  match s.known input.subscriberId with
  | none => .error (.unknown input.subscriberId)
  | some a =>
    if a.entry.receiptMode ≠ .consumerAckV1 ∨ a.receiptToken ≠ some input.receiptToken then
      .error (.token input.subscriberId)
    else (a.entry.receive input (positiveSeq input.seq) now).map fun (response, entry) =>
      (response, { s with admissions := s.admissions.set input.subscriberId { a with entry } })

end Registry

inductive Call where
  | «open» (input : OpenInput)
  | recordEnqueued (subscriberId : Nat) (seq : Number) (desiredSize : Option Int)
  | recordStreamAccepted (subscriberId : Nat) (seq : Number) (desiredSize : Option Int)
  | recordKeepalive (subscriberId : Nat) (desiredSize : Option Int)
  | close (subscriberId : Nat)
  | acknowledge (input : AckRequest)

def step (recentlyClosedLimit : Nat) (call : Call × Instant) (s : Registry) : Registry :=
  match call with
  | (.open input, now) => s.open input now
  | (.recordEnqueued id seq desiredSize, now) => s.recordEnqueued id seq desiredSize now
  | (.recordStreamAccepted id seq desiredSize, now) => s.recordStreamAccepted id seq desiredSize now
  | (.recordKeepalive id desiredSize, now) => s.recordKeepalive id desiredSize now
  | (.close id, now) => s.close recentlyClosedLimit id now
  | (.acknowledge input, now) => ((s.acknowledge input now).map (·.2)).toOption.getD s

end HrcRuntime.SubscriberAdmission
