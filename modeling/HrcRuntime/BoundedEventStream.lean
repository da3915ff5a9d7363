import HrcRuntime.Json
import HrcRuntime.Schedule
import HrcRuntime.Spans

namespace HrcRuntime.BoundedEventStream

open Json

structure LifecycleEvent where
  hrcSeq : Nat
  fields : Fields
  deriving DecidableEq

inductive GapReason where
  | replayWindow
  | liveQueue
  | eventOversize
  deriving DecidableEq

inductive Record where
  | ready (ledgerIncarnationId : String) (acceptedAfterHrcSeq replayHeadHrcSeq : Nat)
  | event (ledgerIncarnationId : String) (event : LifecycleEvent)
  | gap (ledgerIncarnationId : String) (reason : GapReason) (afterHrcSeq beforeHrcSeq : Nat) (dropped : Option Nat)
  | ledgerReplaced (expectedLedgerIncarnationId currentLedgerIncarnationId : String)
  | homeUnreachable (homeNodeId reason : String)
  deriving DecidableEq

def GapReason.text : GapReason → String
  | .replayWindow => "replay_window"
  | .liveQueue => "live_queue"
  | .eventOversize => "event_oversize"

def Record.json : Record → Json
  | .ready ledgerIncarnationId acceptedAfterHrcSeq replayHeadHrcSeq =>
    .object [("type", some (.str "ready")), ("ledgerIncarnationId", some (.str ledgerIncarnationId)),
      ("acceptedAfterHrcSeq", some (.ofNat acceptedAfterHrcSeq)), ("replayHeadHrcSeq", some (.ofNat replayHeadHrcSeq))]
  | .event ledgerIncarnationId e =>
    .object [("type", some (.str "event")), ("ledgerIncarnationId", some (.str ledgerIncarnationId)),
      ("event", some (.obj (.cons "hrcSeq" (.ofNat e.hrcSeq) e.fields)))]
  | .gap ledgerIncarnationId reason afterHrcSeq beforeHrcSeq dropped =>
    .object [("type", some (.str "gap")), ("ledgerIncarnationId", some (.str ledgerIncarnationId)),
      ("reason", some (.str reason.text)), ("afterHrcSeq", some (.ofNat afterHrcSeq)),
      ("beforeHrcSeq", some (.ofNat beforeHrcSeq)), ("dropped", some ((dropped.map Json.ofNat).getD .null))]
  | .ledgerReplaced expectedLedgerIncarnationId currentLedgerIncarnationId =>
    .object [("type", some (.str "ledger_replaced")),
      ("expectedLedgerIncarnationId", some (.str expectedLedgerIncarnationId)),
      ("currentLedgerIncarnationId", some (.str currentLedgerIncarnationId))]
  | .homeUnreachable homeNodeId reason =>
    .object [("type", some (.str "home_unreachable")), ("homeNodeId", some (.str homeNodeId)),
      ("retryable", some (.bool true)), ("reason", some (.str reason))]

/-- The bytes of `encodeNdjson`: the record's JSON text and a newline. -/
def ndjsonBytes (record : Record) : Nat := record.json.byteLength + 1

def positionOf : Record → Option Nat
  | .event _ event => some event.hrcSeq
  | .gap _ _ _ beforeHrcSeq _ => some beforeHrcSeq
  | _ => none

def droppedBy : Record → Option Nat
  | .event _ _ => some 1
  | .gap _ _ _ _ dropped => dropped
  | _ => some 0

def addDropped : Option Nat → Option Nat → Option Nat
  | some current, some next => some (current + next)
  | _, _ => none

structure EncodedRecord (encode : Record → Nat) where
  record : Record
  byteLength : Nat
  encoded : byteLength = encode record

variable {encode : Record → Nat}

def encodeBoundedEventRecord (record : Record) : EncodedRecord encode := ⟨record, encode record, rfl⟩

def eventOrOversizeGap (ledgerIncarnationId : String) (event : LifecycleEvent) (maxBytes : Nat) :
    EncodedRecord encode :=
  let encoded := encodeBoundedEventRecord (.event ledgerIncarnationId event)
  if encoded.byteLength ≤ maxBytes then encoded
  else encodeBoundedEventRecord (.gap ledgerIncarnationId .eventOversize (event.hrcSeq - 1) event.hrcSeq (some 1))

structure Limits where
  maxRecords : Nat
  maxBytes : Nat

structure Queue (encode : Record → Nat) where
  ledgerIncarnationId : String
  limits : Limits
  entries : List (EncodedRecord encode)
  byteSize : Nat
  deliveredHrcSeq : Nat

namespace Queue

def empty (ledgerIncarnationId : String) (afterHrcSeq : Nat) (limits : Limits) : Queue encode :=
  ⟨ledgerIncarnationId, limits, [], 0, afterHrcSeq⟩

def liveQueueGap (q : Queue encode) (beforeHrcSeq : Nat) (dropped : Option Nat) : EncodedRecord encode :=
  encodeBoundedEventRecord (.gap q.ledgerIncarnationId .liveQueue q.deliveredHrcSeq beforeHrcSeq dropped)

def fits (q : Queue encode) (entry : EncodedRecord encode) (additionalRecords : Nat) : Bool :=
  q.entries.length + additionalRecords ≤ q.limits.maxRecords && q.byteSize + entry.byteLength ≤ q.limits.maxBytes

def fitsPair (q : Queue encode) (first second : EncodedRecord encode) : Bool :=
  q.entries.length + 2 ≤ q.limits.maxRecords &&
    q.byteSize + first.byteLength + second.byteLength ≤ q.limits.maxBytes

def push (q : Queue encode) (entry : EncodedRecord encode) : Queue encode :=
  { q with entries := q.entries ++ [entry], byteSize := q.byteSize + entry.byteLength }

def prepend (q : Queue encode) (entry : EncodedRecord encode) : Queue encode :=
  { q with entries := entry :: q.entries, byteSize := q.byteSize + entry.byteLength }

def shiftRaw (q : Queue encode) : Option (EncodedRecord encode × Queue encode) :=
  match q.entries with
  | [] => none
  | entry :: entries => some (entry, { q with entries, byteSize := q.byteSize - entry.byteLength })

/-- The loop of `appendEncoded` over the entries still queued: the oldest ones are shifted into one gap
until that gap and the incoming record fit; after the last of them the gap takes the incoming record too. -/
def makeRoom (q : Queue encode) (incoming : EncodedRecord encode) :
    List (EncodedRecord encode) → Nat → Option Nat → Nat → Queue encode
  | [], _, dropped, beforeHrcSeq =>
    let gap := q.liveQueueGap (max beforeHrcSeq ((positionOf incoming.record).getD beforeHrcSeq))
      (addDropped dropped (droppedBy incoming.record))
    { q with entries := [gap], byteSize := gap.byteLength }
  | removed :: entries, byteSize, dropped, beforeHrcSeq =>
    let rest := { q with entries, byteSize := byteSize - removed.byteLength }
    let dropped := addDropped dropped (droppedBy removed.record)
    let beforeHrcSeq := max beforeHrcSeq ((positionOf removed.record).getD beforeHrcSeq)
    let gap := q.liveQueueGap beforeHrcSeq dropped
    if rest.fitsPair gap incoming then (rest.prepend gap).push incoming
    else makeRoom q incoming entries rest.byteSize dropped beforeHrcSeq

def appendEncoded (q : Queue encode) (incoming : EncodedRecord encode) : Except String (Queue encode) :=
  if q.limits.maxBytes < incoming.byteLength then
    .error "bounded event control record exceeds the stream byte ceiling"
  else if q.fits incoming 1 then .ok (q.push incoming)
  else .ok (q.makeRoom incoming q.entries q.byteSize (some 0) q.deliveredHrcSeq)

def appendEvent (q : Queue encode) (event : LifecycleEvent) : Except String (Queue encode) :=
  q.appendEncoded (eventOrOversizeGap q.ledgerIncarnationId event q.limits.maxBytes)

def take (q : Queue encode) : Option (EncodedRecord encode × Queue encode) :=
  q.shiftRaw.map fun (entry, q) =>
    (entry, { q with deliveredHrcSeq := match positionOf entry.record with
      | some position => max q.deliveredHrcSeq position
      | none => q.deliveredHrcSeq })

end Queue

/-- What `discardThrough` keeps of an entry. -/
def retainPast (hrcSeq : Nat) (entry : EncodedRecord encode) : Option (EncodedRecord encode) :=
  match positionOf entry.record with
  | none => none
  | some position =>
    if position ≤ hrcSeq then none
    else match entry.record with
      | .gap ledgerIncarnationId reason afterHrcSeq beforeHrcSeq _ =>
        if afterHrcSeq < hrcSeq then
          some (encodeBoundedEventRecord (.gap ledgerIncarnationId reason hrcSeq beforeHrcSeq none))
        else some entry
      | _ => some entry

def totalBytes : List (EncodedRecord encode) → Nat
  | [] => 0
  | entry :: entries => entry.byteLength + totalBytes entries

def Queue.discardThrough (q : Queue encode) (hrcSeq : Nat) : Queue encode :=
  let retained := q.entries.filterMap (retainPast hrcSeq)
  { q with
    entries := retained
    byteSize := totalBytes retained
    deliveredHrcSeq := max q.deliveredHrcSeq hrcSeq }

/-- A queue with what its callers did: the events they appended, the records they took and the highest
point they discarded through, which is the starting position before the first discard. -/
structure Stream (encode : Record → Nat) where
  queue : Queue encode
  appended : List LifecycleEvent
  taken : List Record
  discardedThrough : Nat

inductive Action where
  | appendEvent (event : LifecycleEvent)
  | take
  | discardThrough (hrcSeq : Nat)

namespace Stream

def start (ledgerIncarnationId : String) (afterHrcSeq : Nat) (limits : Limits) : Stream encode :=
  ⟨.empty ledgerIncarnationId afterHrcSeq limits, [], [], afterHrcSeq⟩

def step : Action → Stream encode → Stream encode
  | .appendEvent event, s =>
    { s with
      queue := (s.queue.appendEvent event).toOption.getD s.queue
      appended := s.appended ++ [event] }
  | .take, s =>
    match s.queue.take with
    | some (entry, queue) => { s with queue, taken := s.taken ++ [entry.record] }
    | none => s
  | .discardThrough hrcSeq, s =>
    { s with queue := s.queue.discardThrough hrcSeq, discardedThrough := max s.discardedThrough hrcSeq }

def records (s : Stream encode) : List Record := s.taken ++ s.queue.entries.map (·.record)

end Stream

def lowerOf : Record → Nat
  | .event _ event => event.hrcSeq - 1
  | .gap _ _ afterHrcSeq _ _ => afterHrcSeq
  | _ => 0

def upperOf (record : Record) : Nat := (positionOf record).getD 0

def isGap : Record → Bool
  | .gap _ _ _ _ _ => true
  | _ => false

def speaksFor (event : LifecycleEvent) : Record → Bool
  | .event _ event' => event' = event
  | .gap _ _ afterHrcSeq beforeHrcSeq _ => afterHrcSeq < event.hrcSeq && event.hrcSeq ≤ beforeHrcSeq
  | _ => false

structure Accounted (s : Stream encode) : Prop where
  bounded : s.queue.entries.length ≤ s.queue.limits.maxRecords ∧
    totalBytes s.queue.entries ≤ s.queue.limits.maxBytes ∧ s.queue.byteSize = totalBytes s.queue.entries
  ordered : s.records.Pairwise fun r r' => ∃ position position', positionOf r = some position ∧
    positionOf r' = some position' ∧ position < position' ∧ position ≤ lowerOf r'
  accounted : ∀ event ∈ s.appended, s.discardedThrough < event.hrcSeq →
    (s.records.countP (speaksFor event)) = 1
  apart : ∀ ledgerIncarnationId event gap, Record.event ledgerIncarnationId event ∈ s.records → gap ∈ s.records →
    isGap gap → speaksFor event gap = false
  exact : ∀ ledgerIncarnationId reason afterHrcSeq beforeHrcSeq dropped,
    Record.gap ledgerIncarnationId reason afterHrcSeq beforeHrcSeq (some dropped) ∈ s.records →
      dropped = s.appended.countP fun event => afterHrcSeq < event.hrcSeq ∧ event.hrcSeq ≤ beforeHrcSeq

end HrcRuntime.BoundedEventStream
