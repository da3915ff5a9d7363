import HrcRuntime.Keyed
import HrcRuntime.KeysetPaging
import HrcRuntime.LifecyclePayload

namespace HrcRuntime.ToolResultRewrites

open Json Keyed KeysetPaging Records Mapper EventRepository LifecyclePayload
open Repositories.HrcEvents (lifecycleToolResultBlobId)

def objectKeys : Fields → List String
  | .nil => []
  | .cons key _ rest => key :: objectKeys rest

mutual

/-- `deepEqual`; the keys of an object are distinct. -/
def deepEqual : Json → Json → Bool
  | .arr left, .arr right => deepEqualItems left right
  | .obj left, .obj right =>
    sortBy compare (objectKeys left) == sortBy compare (objectKeys right) && deepEqualFields left right
  | left, right => left == right

def deepEqualItems : Items → Items → Bool
  | .nil, .nil => true
  | .cons left restLeft, .cons right restRight => deepEqual left right && deepEqualItems restLeft restRight
  | _, _ => false

/-- `leftKeys.every(key => deepEqual(left[key], right[key]))`. -/
def deepEqualFields : Fields → Fields → Bool
  | .nil, _ => true
  | .cons key left rest, right => (right.lookup key).any (deepEqual left ·) && deepEqualFields rest right

end

structure JsonText where
  text : String
  value : Json
  deriving DecidableEq

/-- `JSON.stringify(value)`. -/
def JsonText.of (value : Json) : JsonText := ⟨value.stringify, value⟩

def JsonText.byteLength (t : JsonText) : Nat := t.text.utf8ByteSize

/-- `$.result.details.spill`. -/
def JsonText.spill (t : JsonText) : Option Json :=
  ((t.value.member "result").bind (·.member "details")).bind (·.member "spill")

/-- The key of a row of `broker_invocation_events` or of `hrc_events`. -/
inductive Key where
  | broker (invocationId : String) (seq : Nat)
  | lifecycle (hrcSeq : Nat)
  deriving DecidableEq

inductive Ledger where
  | broker | lifecycle
  deriving DecidableEq

namespace Key

def ledger : Key → Ledger
  | broker _ _ => .broker
  | lifecycle _ => .lifecycle

def rank : Key → Nat
  | broker _ _ => 0
  | lifecycle _ => 1

def invocation : Key → String
  | broker invocationId _ => invocationId
  | lifecycle _ => ""

def number : Key → Nat
  | broker _ seq => seq
  | lifecycle hrcSeq => hrcSeq

def order : Key → Key → Ordering :=
  compareLex (fun a b => compare a.rank b.rank)
    (compareLex (fun a b => compare a.invocation b.invocation) fun a b => compare a.number b.number)

instance : Std.TransCmp order :=
  have : Std.TransCmp fun a b : Key => compare a.rank b.rank := transCmp_on compare rank
  have : Std.TransCmp fun a b : Key => compare a.invocation b.invocation := transCmp_on compare invocation
  have : Std.TransCmp fun a b : Key => compare a.number b.number := transCmp_on compare number
  inferInstanceAs (Std.TransCmp (compareLex (fun a b : Key => compare a.rank b.rank)
    (compareLex (fun a b : Key => compare a.invocation b.invocation) fun a b : Key => compare a.number b.number)))

theorem eq_of_order {a b : Key} (h : a.order b = .eq) : a = b := by
  obtain ⟨hr, h⟩ := Ordering.then_eq_eq.mp h
  obtain ⟨hi, hn⟩ := Ordering.then_eq_eq.mp h
  have hr := Std.LawfulEqOrd.eq_of_compare hr
  have hi := Std.LawfulEqOrd.eq_of_compare hi
  have hn := Std.LawfulEqOrd.eq_of_compare hn
  cases a <;> cases b <;> simp_all [rank, invocation, number]

/-- A number `AUTOINCREMENT` gives. -/
def numbered : Key → Bool
  | broker _ _ => true
  | lifecycle hrcSeq => decide (0 < hrcSeq)

end Key

inductive Row where
  | broker (invocationId : String) (seq : Nat) (type : EventType) (runtimeId : String) (brokerEventJson : JsonText)
  | lifecycle (hrcSeq : Nat) (eventKind : HrcEventKind) (runtimeId : Option String) (payloadJson : JsonText)

namespace Row

def key : Row → Key
  | broker invocationId seq _ _ _ => .broker invocationId seq
  | lifecycle hrcSeq _ _ _ => .lifecycle hrcSeq

def json : Row → JsonText
  | broker _ _ _ _ brokerEventJson => brokerEventJson
  | lifecycle _ _ _ payloadJson => payloadJson

def setJson (json : JsonText) : Row → Row
  | broker invocationId seq type runtimeId _ => broker invocationId seq type runtimeId json
  | lifecycle hrcSeq eventKind runtimeId _ => lifecycle hrcSeq eventKind runtimeId json

def isToolResult : Row → Bool
  | broker _ _ type _ _ => type == .toolCallCompleted
  | lifecycle _ eventKind _ _ => eventKind == .turnToolResult

@[simp] theorem key_setJson (r : Row) (json : JsonText) : (r.setJson json).key = r.key := by cases r <;> rfl

@[simp] theorem setJson_json (r : Row) : r.setJson r.json = r := by cases r <;> rfl

@[simp] theorem json_setJson (r : Row) (json : JsonText) : (r.setJson json).json = json := by cases r <;> rfl

end Row

structure Database where
  events : Store Row (·.key)
  blobs : Store ToolResultBlobRecord (·.blobId)

section Reading

variable (blobs : Store ToolResultBlobRecord (·.blobId)) (content : ToolResultBlobRecord → Json)

/-- The part common to both hydrations; `content` is what a blob gives back. -/
def hydrated (payload : Json) : Json :=
  match payload with
  | .obj fields =>
    match (readToolResultSpillDescriptor (fields.lookup "result")).bind fun spill =>
        (blobs.find spill.blobId).filter (·.complete) with
    | some blob => .obj (fields.set "result" (content blob))
    | none => payload
  | _ => payload

def Row.view : Row → ToolResultBlobRecord → Json
  | .broker _ _ _ _ _, blob => blob.resultJson
  | .lifecycle _ _ _ _, blob =>
    if blob.kind = .brokerRaw then toolResultFromBrokerResult (some blob.resultJson) else blob.resultJson

omit blobs content in
@[simp] theorem Row.view_setJson (r : Row) (json : JsonText) : (r.setJson json).view = r.view := by cases r <;> rfl

/-- `hydrateBrokerEventJson` and `hydrateLifecyclePayload`, of a row. -/
def Row.reading (row : Row) : Json := hydrated blobs row.view row.json.value

end Reading

inductive Operation where
  | spillToolResults | restubToolResults

def Operation.isCandidate (operation : Operation) (row : Row) : Bool :=
  row.isToolResult && decide (toolResultSpillThresholdBytes < row.json.byteLength) &&
    match operation with
    | .spillToolResults => row.json.spill.isNone
    | .restubToolResults => row.json.spill.isSome

/-- Beyond `last_invocation_id`, `last_broker_seq` or `last_hrc_seq`, where there is one. -/
def after (last : Option Key) (key : Key) : Bool := key.numbered && last.all fun l => l.order key == .lt

namespace Database

variable (db : Database)

def candidates (operation : Operation) (ledger : Ledger) (last : Option Key) : List Row :=
  sortBy (fun a b => a.key.order b.key)
    (db.events.rows.filter fun r => r.key.ledger = ledger && operation.isCandidate r && after last r.key)

def insertBlob (blob : ToolResultBlobRecord) : Database := { db with blobs := db.blobs.add blob }

/-- `UPDATE ... SET json WHERE key AND guard`. -/
def rewrite (key : Key) (guard : JsonText → Bool) (json : JsonText) : Database :=
  { db with events := db.events.amend key (fun r => guard r.json) (·.setJson json) (·.key_setJson json) }

end Database

section Visits

variable [Host]

/-- `createToolResultSpillStub(result, spill, { preserveExistingExcerpt: true })`. -/
def restub (result : Json) (spill : ToolResultSpillDescriptor) : Json :=
  match result.member "content" with
  | some (.arr content) => Json.object [("content", some (.arr content)), ("details", some (spillDetails result spill))]
  | _ => createToolResultSpillStub result spill

/-- `JSON.stringify({ ...payload, result })`. -/
def withResult (fields : Fields) (result : Json) : JsonText := .of (.obj (fields.set "result" result))

inductive Write where
  | spillBroker (key : Key) (runtimeId : String) (payload : Fields) (result : Json)
  | spillLifecycle (key : Key) (runtimeId : String) (payload : Fields) (result : Json) (spill : ToolResultSpillDescriptor)
  | restub (key : Key) (before afterJson : JsonText)

inductive Visit where
  | skip | fail
  | write (w : Write)

def sharedBlob (db : Database) (runtimeId : String) (payload : Fields) (result : Json) : Option ToolResultBlobRecord :=
  ((((Json.obj payload).stringField "toolUseId").filter fun id => !id.isEmpty).bind fun toolUseId =>
    (db.blobs.find (brokerToolResultBlobId runtimeId toolUseId)).filter fun blob =>
      blob.complete && blob.kind = .brokerRaw).filter fun blob =>
        deepEqual (toolResultFromBrokerResult (some blob.resultJson)) result

def lifecycleSpill (db : Database) (hrcSeq : Nat) (runtimeId : String) (payload : Fields) (result : Json) :
    ToolResultSpillDescriptor :=
  match sharedBlob db runtimeId payload result with
  | some blob => { blobId := blob.blobId, bytes := blob.bytes, kind := .brokerRaw }
  | none => { blobId := lifecycleToolResultBlobId hrcSeq, bytes := result.byteLength, kind := .lifecycleCanonical }

/-- What `spillToolResults` does with a row. -/
def spillRow (db : Database) (row : Row) : Visit :=
  match row.json.value with
  | .obj payload =>
    match (payload.lookup "result").filter fun result => toolResultExceedsSpillThreshold (some result) with
    | none => .skip
    | some result =>
      match row with
      | .broker invocationId seq _ runtimeId _ => .write (.spillBroker (.broker invocationId seq) runtimeId payload result)
      | .lifecycle hrcSeq _ runtimeId _ =>
        match runtimeId.filter fun id => !id.isEmpty with
        | none => .fail
        | some runtimeId => .write (.spillLifecycle (.lifecycle hrcSeq) runtimeId payload result
            (lifecycleSpill db hrcSeq runtimeId payload result))
  | _ => .skip

def validateAndRestub (db : Database) (result : Json) : Option Json := do
  let descriptor ← readToolResultSpillDescriptor (some result)
  let blob ← db.blobs.find descriptor.blobId
  if blob.complete && blob.kind = descriptor.kind then some (restub result descriptor) else none

/-- What `restubToolResults` does with a row. -/
def restubRow (db : Database) (row : Row) : Visit :=
  match row.json.value with
  | .obj payload =>
    match (payload.lookup "result").bind (validateAndRestub db) with
    | none => .skip
    | some stub => .write (.restub row.key row.json (withResult payload stub))
  | _ => .skip

def Operation.visit (operation : Operation) (db : Database) (row : Row) : Visit :=
  match operation with
  | .spillToolResults => spillRow db row
  | .restubToolResults => restubRow db row

def toolCallOf (payload : Fields) : Option String := ((Json.obj payload).stringField "toolCallId").filter fun id => !id.isEmpty

def Write.blob : Write → Option ToolResultBlobRecord
  | .spillBroker _ runtimeId payload result => (toolCallOf payload).map fun toolCallId =>
    { blobId := brokerToolResultBlobId runtimeId toolCallId, runtimeId, kind := .brokerRaw, bytes := result.byteLength
      resultJson := result }
  | .spillLifecycle _ runtimeId _ result spill =>
    if spill.kind = .lifecycleCanonical then
      some { blobId := spill.blobId, runtimeId, kind := spill.kind, bytes := spill.bytes, resultJson := result }
    else none
  | .restub _ _ _ => none

/-- `updateBroker.immediate` and `updateLifecycle.immediate`; `none` is a throw. -/
def commit (db : Database) (w : Write) : Option Database :=
  match w with
  | .spillBroker key _ payload result => w.blob.map fun blob =>
    (db.insertBlob blob).rewrite key (·.spill.isNone) (withResult payload
      (createToolResultSpillStub result { blobId := blob.blobId, bytes := blob.bytes, kind := blob.kind }))
  | .spillLifecycle key _ payload result spill =>
    some ((w.blob.elim db db.insertBlob).rewrite key (·.spill.isNone)
      (withResult payload (createToolResultSpillStub result spill)))
  | .restub key before afterJson => some (db.rewrite key
      (fun json => json == before && decide (toolResultSpillThresholdBytes < json.byteLength) && json.spill.isSome) afterJson)

end Visits

structure WriteBudget where
  deadlineAtMillis : Option Nat
  busyMaxRetries : Nat

def deadlineReached (budget : WriteBudget) (clock : Nat) : Bool := budget.deadlineAtMillis.any (· ≤ clock)

inductive Stop where
  | complete | deadline | busy | failed
  deriving DecidableEq

/-- Where a call stands: before a selection, before its next row, at a try of a write, or returned. `full` tells whether
the batch in hand has the size asked for. -/
inductive Phase where
  | selecting (ledger : Ledger)
  | visiting (row : Row) (rest : List Row) (full : Bool)
  | writing (w : Write) (attempt : Nat) (ledger : Ledger) (rest : List Row) (full : Bool)
  | stopped (reason : Stop)

/-- A call of `spillToolResults` or `restubToolResults`; `visited` are the candidates it counts. -/
structure Call where
  operation : Operation
  apply : Bool
  batchSize : {n : Nat // 0 < n}
  budget : WriteBudget
  last : Option Key
  visited : List Key
  phase : Phase

def Call.open (operation : Operation) (apply : Bool) (batchSize : {n : Nat // 0 < n}) (budget : WriteBudget) : Call :=
  { operation, apply, batchSize, budget, last := none, visited := [], phase := .selecting .broker }

def Phase.ledgerDone : Ledger → Phase
  | .broker => .selecting .lifecycle
  | .lifecycle => .stopped .complete

def Phase.next (ledger : Ledger) (rest : List Row) (full : Bool) : Phase :=
  match rest with
  | row :: rest => .visiting row rest full
  | [] => if full then .selecting ledger else .ledgerDone ledger

structure State where
  db : Database
  clock : Nat
  calls : Nat → Option Call

def start (db : Database) (clock : Nat) : State := { db, clock, calls := fun _ => none }

variable [Host]

namespace State

variable (s : State) (c : Call)

def put (id : Nat) (m : Database × Call) : State :=
  { s with
    db := m.1
    calls := fun i => if i = id then some m.2 else s.calls i }

def select (ledger : Ledger) : Phase :=
  if deadlineReached c.budget s.clock then .stopped .deadline
  else
    match (s.db.candidates c.operation ledger c.last).take c.batchSize.val with
    | [] => .ledgerDone ledger
    | row :: rest => .visiting row rest (decide ((row :: rest).length = c.batchSize.val))

def visit (row : Row) (rest : List Row) (full : Bool) : Phase :=
  match c.operation.visit s.db row with
  | .skip => .next row.key.ledger rest full
  | .fail => .stopped .failed
  | .write w =>
    if !c.apply then .next row.key.ledger rest full
    else if deadlineReached c.budget s.clock then .stopped .deadline
    else .writing w 0 row.key.ledger rest full

/-- The next step of a call; `busy` is a `SQLITE_BUSY` of its write. -/
def advance (busy : Bool) : Database × Call :=
  match c.phase with
  | .selecting ledger => (s.db, { c with phase := s.select c ledger })
  | .visiting row rest full =>
    (s.db, { c with last := some row.key, visited := c.visited ++ [row.key], phase := s.visit c row rest full })
  | .writing w attempt ledger rest full =>
    if busy then (s.db, { c with phase :=
      if c.budget.busyMaxRetries ≤ attempt then .stopped .busy else .writing w (attempt + 1) ledger rest full })
    else
      match commit s.db w with
      | none => (s.db, { c with phase := .stopped .failed })
      | some db => (db, { c with phase := .next ledger rest full })
  | .stopped _ => (s.db, c)

end State

inductive Action where
  | begin (id : Nat) (operation : Operation) (apply : Bool) (batchSize : {n : Nat // 0 < n}) (budget : WriteBudget)
  | advance (id : Nat) (busy : Bool)
  | daemon (rows : List Row) (blobs : List ToolResultBlobRecord)
  | clock (now : Nat)

omit [Host] in
def State.append (s : State) (rows : List Row) (blobs : List ToolResultBlobRecord) : State :=
  { s with db := { events := rows.foldl (·.add ·) s.db.events, blobs := blobs.foldl (·.add ·) s.db.blobs } }

def step (a : Action) (s : State) : State :=
  match a with
  | .begin id operation apply batchSize budget =>
    if (s.calls id).isSome then s else s.put id (s.db, .open operation apply batchSize budget)
  | .advance id busy => (s.calls id).elim s fun c => s.put id (s.advance c busy)
  | .daemon rows blobs => s.append rows blobs
  | .clock now => { s with clock := now }

end HrcRuntime.ToolResultRewrites
