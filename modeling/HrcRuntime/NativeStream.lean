import HrcRuntime.BoundedReplay

namespace HrcRuntime.NativeStream

open BoundedEventStream (GapReason LifecycleEvent Limits)

abbrev Value := BoundedEventStream.Record

variable {encode : Value → Nat}

structure Record (encode : Value → Nat) where
  value : Value
  bytes : Nat
  seq : Option Nat
  dropped : Option Nat

def Record.new (value : Value) : Record encode :=
  { value, bytes := encode value
    seq := match value with
      | .event _ event => some event.hrcSeq
      | .gap _ _ _ beforeHrcSeq _ => some beforeHrcSeq
      | _ => none
    dropped := match value with
      | .event _ _ => some 1
      | .gap _ _ _ _ dropped => dropped
      | _ => some 0 }

/-- A bounded follow queue; `limits` are `MAX_RECORDS` and `MAX_BYTES`. -/
structure Queue (encode : Value → Nat) where
  records : List (Record encode)
  bytes : Nat
  delivered : Nat
  incarnation : String
  ready : Option (Record encode)
  terminal : Option (Record encode)
  keepalive : Bool
  closed : Bool
  limits : Limits

namespace Queue

def held (records : List (Record encode)) : Nat := (records.map (·.bytes)).foldl (· + ·) 0

variable (q : Queue encode)

def gap (reason : GapReason) (before : Nat) (dropped : Option Nat) : Record encode :=
  .new (.gap q.incarnation reason q.delivered before dropped)

def event (event : LifecycleEvent) : Record encode :=
  let record : Record encode := .new (.event q.incarnation event)
  if record.bytes ≤ q.limits.maxBytes then record
  else .new (.gap q.incarnation .eventOversize (event.hrcSeq - 1) event.hrcSeq (some 1))

def push (record : Record encode) : Queue encode :=
  { q with bytes := q.bytes + record.bytes, records := q.records ++ [record] }

def pop : Option (Record encode × Queue encode) :=
  match q.records with
  | [] => none
  | r :: records => some (r, { q with records, bytes := q.bytes - r.bytes })

/-- `dropped.zip(removed.dropped).map(|(a, b)| a + b)`. -/
def addDropped (dropped other : Option Nat) : Option Nat :=
  match dropped, other with
  | some a, some b => some (a + b)
  | _, _ => none

/-- The loop of `append` over the records still queued, with the bytes they hold. -/
def evict (record : Record encode) : List (Record encode) → Nat → Option Nat → Nat → Queue encode
  | [], bytes, dropped, before =>
    let gap := q.gap .liveQueue (max before (record.seq.getD before)) (addDropped dropped record.dropped)
    { q with records := [gap], bytes := bytes + gap.bytes }
  | removed :: records, bytes, dropped, before =>
    let bytes := bytes - removed.bytes
    let dropped := addDropped dropped removed.dropped
    let before := max before (removed.seq.getD before)
    let gap := q.gap .liveQueue before dropped
    if records.length + 2 ≤ q.limits.maxRecords ∧ bytes + gap.bytes + record.bytes ≤ q.limits.maxBytes then
      { q with records := gap :: records ++ [record], bytes := bytes + gap.bytes + record.bytes }
    else evict record records bytes dropped before

def append (record : Record encode) : Queue encode :=
  if q.closed || q.terminal.isSome then q
  else if q.records.length < q.limits.maxRecords ∧ q.bytes + record.bytes ≤ q.limits.maxBytes then q.push record
  else q.evict record q.records q.bytes (some 0) q.delivered

/-- The loop of `replay`; the vector is listed oldest first, so `pop` takes its head. -/
def replayGap : List (Record encode) → Nat → Nat → Record encode × List (Record encode)
  | [], _, before => (q.gap .replayWindow before none, [])
  | removed :: records, bytes, before =>
    let gap := q.gap .replayWindow before none
    if (removed :: records).length < q.limits.maxRecords ∧ bytes + gap.bytes ≤ q.limits.maxBytes then
      (gap, removed :: records)
    else replayGap records (bytes - removed.bytes) (max before (removed.seq.getD before))

def replay (records : List (Record encode)) (complete : Bool) (stopped : Option Nat) : Queue encode :=
  let bytes := held records
  if !complete || stopped.isSome then
    let before := ((records.head?.bind (·.seq)).map (· - 1)).getD (stopped.getD q.delivered)
    let (gap, records) := q.replayGap records bytes before
    records.foldl push (q.push gap)
  else records.foldl push q

/-- `poll_frame`; a keepalive newline is no record. -/
def poll : Option (Record encode) × Queue encode :=
  if q.closed then (none, q)
  else
    let (r, q') : Option (Record encode) × Queue encode :=
      match q.ready with
      | some r => (some r, { q with ready := none })
      | none => match q.pop with
        | some (r, q') => (some r, q')
        | none => (q.terminal, { q with terminal := none })
    match r with
    | some r =>
      let q' : Queue encode := match r.seq with
        | some seq => { q' with delivered := max q'.delivered seq }
        | none => q'
      (some r, match r.value with
        | .ledgerReplaced _ _ => { q' with closed := true }
        | _ => q')
    | none => (none, { q' with keepalive := false })

end Queue

/-- The scan of `replay_snapshot`, newest first: the records with their bytes, and where it stopped. -/
structure Snapshot (encode : Value → Nat) where
  records : List (Record encode) := []
  bytes : Nat := 0
  stopped : Option Nat := none

def scan (q : Queue encode) (s : Snapshot encode) : List LifecycleEvent → Snapshot encode × Bool
  | [] => (s, true)
  | event :: events =>
    let record := q.event event
    if q.limits.maxRecords < s.records.length + 1 ∨ q.limits.maxBytes < s.bytes + record.bytes then
      ({ s with stopped := some event.hrcSeq }, false)
    else scan q { s with records := record :: s.records, bytes := s.bytes + record.bytes } events

/-- The rows of `event_scan` past the cursor, up to the head. -/
def unread (cursor head : Nat) (ledger : List LifecycleEvent) : List LifecycleEvent :=
  ledger.filter fun event => cursor < event.hrcSeq && event.hrcSeq ≤ head

/-- `replay_snapshot` of a bounded stream. -/
def replaySnapshot (incarnation : String) (after : Nat) (limits : Limits) (head : Nat) (ledger : List LifecycleEvent) :
    Queue encode :=
  let q : Queue encode := ⟨[], 0, after, incarnation, none, none, false, false, limits⟩
  let scanned := scan q {} (unread after head ledger).reverse
  { q.replay scanned.1.records scanned.2 scanned.1.stopped with ready := some (.new (.ready incarnation after head)) }

/-- A follow stream; `appended` are the events it has read and `handed` the records its reader has. -/
structure Follow (encode : Value → Nat) where
  queue : Queue encode
  cursor : Nat
  appended : List LifecycleEvent
  handed : List Value

inductive Action where
  | wake (head : Nat) (ledger : List LifecycleEvent)
  | poll

/-- `bounded_append` on a wake, `poll_frame` on a poll. -/
def step (a : Action) (s : Follow encode) : Follow encode :=
  match a with
  | .wake head ledger =>
    let events := unread s.cursor head ledger
    { s with
      queue := events.foldl (fun q event => q.append (q.event event)) s.queue
      cursor := max head s.cursor
      appended := s.appended ++ events }
  | .poll =>
    { s with queue := s.queue.poll.2, handed := s.handed ++ (s.queue.poll.1.map (·.value)).toList }

def start (incarnation : String) (after : Nat) (limits : Limits) (head : Nat) (ledger : List LifecycleEvent) :
    Follow encode :=
  { queue := replaySnapshot incarnation after limits head ledger, cursor := max head after
    appended := unread after head ledger, handed := [] }

end HrcRuntime.NativeStream
