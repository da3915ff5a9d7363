import HrcRuntime.Frontier
import HrcRuntime.RunRepository

namespace HrcRuntime.EventRepository

open Json Records Relational Database Program Mapper

def toolResultSpillThresholdBytes : Nat := 32768

structure ToolResultSpillDescriptor where
  blobId : String
  bytes : Nat
  kind : ToolResultBlobKind

def toolResultExceedsSpillThreshold (result : Option Json) : Bool :=
  match result with
  | some result => decide (toolResultSpillThresholdBytes < result.byteLength)
  | none => false

def readToolResultSpillDescriptor (result : Option Json) : Option ToolResultSpillDescriptor := do
  let spill ← ((← result).member "details").bind (·.member "spill")
  let blobId ← spill.stringField "blobId"
  let bytes ← (spill.member "bytes").bind Json.asNum
  let kind ← match spill.stringField "kind" with
    | some "broker_raw" => some ToolResultBlobKind.brokerRaw
    | some "lifecycle_canonical" => some ToolResultBlobKind.lifecycleCanonical
    | _ => none
  if bytes < 0 then none else some { blobId, bytes := bytes.toNat, kind }

def brokerToolResultBlobId (runtimeId toolCallId : String) : String := s!"tc:{runtimeId}:{toolCallId}"

def safeStringify (v : Json) : String := v.stringify

def resultBody (result : Json) : String :=
  match result with
  | .str text => text
  | result =>
    match result.stringField "output" with
    | some output => output
    | none =>
      match result.member "content" with
      | some (.arr items) =>
        String.join ((items.toList.filter Json.isRecord).map fun block => (block.stringField "text").getD "")
      | _ => safeStringify result

def truncateUtf8 (maxBytes : Nat) : List Char → List Char
  | [] => []
  | c :: rest => if c.utf8Size ≤ maxBytes then c :: truncateUtf8 (maxBytes - c.utf8Size) rest else []

def spillDiagnosticKeys : List String := ["exitCode", "status", "interrupted", "duration", "durationMs"]

def spillDetails (result : Json) (spill : ToolResultSpillDescriptor) : Json :=
  let details := (result.member "details").getD .null
  let diagnostic (key : String) : Option Json :=
    match (result.member key).or (details.member key) with
    | some (.str text) => some (.str (String.ofList (truncateUtf8 256 text.toList)))
    | some (.arr _) => none
    | some (.obj _) => none
    | v => v
  let bounded := if result.isRecord then spillDiagnosticKeys.map fun key => (key, diagnostic key) else []
  let descriptor := Json.object [("blobId", some (.str spill.blobId)), ("bytes", some (.ofNat spill.bytes)),
    ("kind", some (.str spill.kind.text))]
  Json.object (bounded ++ [("spill", some descriptor)])

def toolResultBlob (db : Db) (blobId : String) : Option ToolResultBlobRecord :=
  db.toolResultBlobs.find? fun r => r.blobId == blobId

/-- `hydrateBrokerEventJson`: put a spilled result back. -/
def hydrateBrokerEventJson (db : Db) (payload : Json) : Json :=
  match payload, readToolResultSpillDescriptor (payload.member "result") with
  | .obj fields, some spill =>
    match toolResultBlob db spill.blobId with
    | some blob => if blob.complete then .obj (fields.set "result" blob.resultJson) else payload
    | none => payload
  | _, _ => payload

def effectiveTurnId (row : HrcBrokerInvocationEventRecord) : Option String :=
  (row.brokerEnvelopeJson.bind (·.turnId)).or (row.brokerEventJson.stringField "turnId")

def listByInvocationId (db : Db) (invocationId : String) : List HrcBrokerInvocationEventRecord :=
  orderBy (·.seq) (db.brokerInvocationEvents.rows.filter fun r => r.invocationId == invocationId)

structure EventQuery where
  types : List EventType
  throughSeq : Option Nat := none
  runtimeId : Option String := none
  turnId : Option String := none
  hasTurnId : Bool := false

def EventQuery.selects (q : EventQuery) (r : HrcBrokerInvocationEventRecord) : Bool :=
  q.types.contains r.type
    && (match q.throughSeq with
      | some seq => decide (r.seq ≤ seq)
      | none => true)
    && (match q.runtimeId with
      | some runtimeId => r.runtimeId == runtimeId
      | none => true)
    && (match q.turnId with
      | some turnId => effectiveTurnId r == some turnId
      | none => !q.hasTurnId || (effectiveTurnId r).isSome)

/-- `listByInvocationIdAndTypes`; a `limit` is taken by the caller. -/
def listByInvocationIdAndTypes (db : Db) (invocationId : String) (q : EventQuery) :
    List HrcBrokerInvocationEventRecord :=
  (listByInvocationId db invocationId).filter q.selects

def getByInvocationAndSeq (db : Db) (invocationId : String) (seq : Nat) :
    Option HrcBrokerInvocationEventRecord :=
  db.brokerInvocationEvents.find? fun r => r.invocationId == invocationId && r.seq == seq

/-- The newest usage row before `beforeSeq` whose payload has a context object. -/
def findLatestUsageWithContextBefore (db : Db) (invocationId : String) (beforeSeq : Nat) :
    Option HrcBrokerInvocationEventRecord :=
  ((listByInvocationId db invocationId).filter fun r => r.type == .usageUpdated && decide (r.seq < beforeSeq)
    && ((r.brokerEventJson.member "context").any Json.isRecord)).getLast?

def getProjectionDisposition (db : Db) (invocationId : String) (seq : Nat) :
    Option BrokerProjectionDisposition :=
  db.dispositions.find? fun r => r.invocationId == invocationId && r.seq == seq

def getByInvocationId (db : Db) (invocationId : String) : Option HrcBrokerInvocationRecord :=
  db.brokerInvocations.find? fun r => r.invocationId == invocationId

/-- Where `advanceContiguousProjectionCursor` moves a cursor to. -/
def contiguousThrough (db : Db) (invocationId : String) (cursor : Nat) : Nat :=
  Frontier.through cursor
    ((orderBy (·.seq) (db.dispositions.rows.filter fun r =>
      r.invocationId == invocationId && decide (cursor < r.seq))).map (·.seq))

def enrichEnvelopeJsonWithRepairCorrelation (db : Db) (envelope : EnvelopeHead) (runId : Option String) :
    EnvelopeHead :=
  match runId with
  | none => envelope
  | some runId =>
    match RunRepository.getByRunId db runId with
    | none => envelope
    | some run =>
      match run.correlationJson with
      | none => envelope
      | some correlation =>
        if run.status.isRunTerminal || envelope.correlation.isSome then envelope
        else if correlation.stringField "kind" == some "json_repair"
            && correlation.stringField "repairRunId" == some runId then
          { envelope with correlation := some correlation }
        else envelope

structure BrokerInvocationEventAppendInput where
  invocationId : String
  seq : Nat
  time : Option String
  type : EventType
  runtimeId : String
  runId : Option String
  harnessGeneration : Option Nat
  turnAttempt : Option Nat
  payload : Json
  evidenceOrigin : Option EvidenceOrigin
  envelopeJson : EnvelopeHead

structure BrokerInvocationEventAppendResult where
  record : HrcBrokerInvocationEventRecord
  idempotent : Bool

/-- The stored payload and identity a replay of `input` must repeat. -/
def sameIdentity (db : Db) (existing : HrcBrokerInvocationEventRecord)
    (input : BrokerInvocationEventAppendInput) : Bool :=
  hydrateBrokerEventJson db existing.brokerEventJson == input.payload && existing.runId == input.runId
    && existing.harnessGeneration == input.harnessGeneration && existing.turnAttempt == input.turnAttempt

structure StoredFrom (input : BrokerInvocationEventAppendInput) (row : HrcBrokerInvocationEventRecord) : Prop where
  invocationId : row.invocationId = input.invocationId
  seq : row.seq = input.seq
  time : row.time = input.time
  type : row.type = input.type
  runtimeId : row.runtimeId = input.runtimeId
  runId : row.runId = input.runId
  harnessGeneration : row.harnessGeneration = input.harnessGeneration
  turnAttempt : row.turnAttempt = input.turnAttempt
  evidenceOrigin : row.evidenceOrigin = input.evidenceOrigin
  projectionStatus : row.projectionStatus = .pending
  payload : ∀ key, key ≠ "result" → row.brokerEventJson.member key = input.payload.member key
  envelope : ∃ correlation, row.brokerEnvelopeJson = some { input.envelopeJson with correlation }

variable [Host]

def createToolResultSpillStub (result : Json) (spill : ToolResultSpillDescriptor) : Json :=
  let body := resultBody result
  let bytes := spill.bytes
  let blobId := spill.blobId
  let text := Host.spillHead body ++ s!"\n…[{bytes} bytes spilled → {blobId}]…\n" ++ Host.spillTail body
  Json.object [("content", some (Json.array [Json.object [("type", some (.str "text")), ("text", some (.str text))]])),
    ("details", some (spillDetails result spill))]

def spillBrokerResult (runtimeId : String) (fields : Fields) (result : Json) : M Json := do
  let toolCallId := ((Json.obj fields).stringField "toolCallId").filter fun id => !id.isEmpty
  let toolCallId ← requireRecord toolCallId "large tool.call.completed result requires toolCallId"
  let blobId := brokerToolResultBlobId runtimeId toolCallId
  let bytes := result.byteLength
  statement (.insertBlob { blobId, runtimeId, kind := .brokerRaw, bytes, resultJson := result })
  pure (.obj (fields.set "result" (createToolResultSpillStub result { blobId, bytes, kind := .brokerRaw })))

def spillsResult (type : EventType) (result : Json) : Bool :=
  type == .toolCallCompleted && (readToolResultSpillDescriptor (some result)).isNone
    && toolResultExceedsSpillThreshold (some result)

/-- What `persistedBrokerEventJson` stores: a large tool result is spilled to a blob. -/
def persistedBrokerEventJson (type : EventType) (runtimeId : String) (payload : Json) : M Json :=
  match payload with
  | .obj fields =>
    match (fields.lookup "result").filter (spillsResult type) with
    | none => pure payload
    | some result => spillBrokerResult runtimeId fields result
  | _ => pure payload

/-- Append keyed by `(invocationId, seq)`: a replay of the same row is idempotent, a different one
conflicts. The nested transaction is left out: a throw rolls back the caller's. -/
def appendEvent (input : BrokerInvocationEventAppendInput) : M BrokerInvocationEventAppendResult := do
  let brokerEventJson ← persistedBrokerEventJson input.type input.runtimeId input.payload
  let brokerEnvelopeJson ← query (enrichEnvelopeJsonWithRepairCorrelation · input.envelopeJson input.runId)
  let existing ← query (getByInvocationAndSeq · input.invocationId input.seq)
  match existing with
  | some existing =>
    let same ← query (sameIdentity · existing input)
    if same then pure { record := existing, idempotent := true }
    else Prog.throw (.brokerInvocationEventConflict input.invocationId input.seq)
  | none =>
    statement (.insertEvent
      { invocationId := input.invocationId, seq := input.seq, time := input.time, type := input.type
        runId := input.runId, runtimeId := input.runtimeId, harnessGeneration := input.harnessGeneration
        turnAttempt := input.turnAttempt, brokerEventJson, brokerEnvelopeJson := some brokerEnvelopeJson
        evidenceOrigin := input.evidenceOrigin })
    let stored ← query (getByInvocationAndSeq · input.invocationId input.seq)
    let stored ← requireRecord stored s!"failed to reload broker invocation event {input.invocationId}/{input.seq}"
    pure { record := stored, idempotent := false }

def recordProjectionDisposition (input : BrokerProjectionDisposition) : M Unit := do
  let existing ← query (getProjectionDisposition · input.invocationId input.seq)
  match existing with
  | some existing =>
    if existing.envelopeHash != input.envelopeHash || existing.disposition != input.disposition then
      Prog.throw (.brokerInvocationEventConflict input.invocationId input.seq)
    else pure ()
  | none => statement (.insertDisposition input)

def advanceContiguousProjectionCursor (invocationId updatedAt : String) : M Nat := do
  let invocation ← query (getByInvocationId · invocationId)
  let invocation ← requireRecord invocation s!"broker invocation not found: {invocationId}"
  let throughSeq ← query (contiguousThrough · invocationId invocation.lastProjectedSeq)
  Prog.when (throughSeq != invocation.lastProjectedSeq)
    (statement (.setProjectedSeq invocationId throughSeq updatedAt))
  pure throughSeq

def updateProjection (invocationId : String) (seq : Nat) (status : ProjectionStatus)
    (error : Option String := none) : M Unit :=
  statement (.projectEvent invocationId seq status error)

section Rules

variable {P : Db → Write → Prop}

theorem persistedBrokerEventJson_writes (hP : ∀ db blob, P db (.insertBlob blob)) (type : EventType)
    (runtimeId : String) (payload : Json) : Writes P (persistedBrokerEventJson type runtimeId payload) := by
  unfold persistedBrokerEventJson
  split
  · split
    · exact Emits.pure _
    · refine Emits.bind (Emits.of_readOnly (requireRecord_readOnly _ _)) fun toolCallId => ?_
      exact Emits.bind (statement_writes fun db => hP db _) fun _ => Emits.pure _
  · exact Emits.pure _

theorem persistedBrokerEventJson_member {type : EventType} {runtimeId : String} {payload json : Json}
    {s t : BrokerEventMapper} (h : persistedBrokerEventJson type runtimeId payload s = (.ok json, t)) {key : String}
    (hk : key ≠ "result") : json.member key = payload.member key := by
  cases payload with
  | obj fields =>
    unfold persistedBrokerEventJson at h
    cases hr : (fields.lookup "result").filter (spillsResult type) with
    | none =>
      simp only [hr] at h
      cases h
      rfl
    | some result =>
      simp only [hr] at h
      obtain ⟨toolCallId, _, _, hsp⟩ := bind_eq_ok.mp h
      obtain ⟨_, _, _, hp⟩ := bind_eq_ok.mp hsp
      cases hp
      exact Fields.lookup_set_of_ne hk.symm _ _
  | _ =>
    cases h
    rfl

omit [Host] in
theorem enrichEnvelopeJson_head (db : Db) (envelope : EnvelopeHead) (runId : Option String) :
    ∃ correlation, enrichEnvelopeJsonWithRepairCorrelation db envelope runId = { envelope with correlation } := by
  unfold enrichEnvelopeJsonWithRepairCorrelation
  repeat' split
  all_goals exact ⟨_, rfl⟩

theorem appendEvent_writes (hbl : ∀ db blob, P db (.insertBlob blob))
    {input : BrokerInvocationEventAppendInput}
    (hr : ∀ db row, StoredFrom input row → getByInvocationAndSeq db input.invocationId input.seq = none →
      P db (.insertEvent row)) : Writes P (appendEvent input) := by
  intro s
  refine EmitsFrom.bind (persistedBrokerEventJson_writes hbl _ _ _ s) fun json t hj _ => ?_
  refine WritesFrom.query_bind ?_
  refine WritesFrom.query_bind ?_
  split
  · refine EmitsFrom.bind_readOnly (query_readOnly _) fun same _ => ?_
    split
    · exact EmitsFrom.pure _
    · exact EmitsFrom.throw _
  · rename_i hn
    obtain ⟨correlation, hh⟩ := enrichEnvelopeJson_head t.db input.envelopeJson input.runId
    refine EmitsFrom.bind (statement_writesFrom (hr _ _ ?_ hn)) fun _ s' _ _ => ?_
    · exact ⟨rfl, rfl, rfl, rfl, rfl, rfl, rfl, rfl, rfl, rfl,
        fun _ hk => persistedBrokerEventJson_member hj hk, correlation, congrArg some hh⟩
    · refine Emits.of_readOnly (ReadOnly.bind (query_readOnly _) fun stored => ?_) s'
      exact ReadOnly.bind (requireRecord_readOnly _ _) fun _ => ReadOnly.pure _

theorem recordProjectionDisposition_writes {input : BrokerProjectionDisposition}
    (h : ∀ db, getProjectionDisposition db input.invocationId input.seq = none →
      P db (.insertDisposition input)) : Writes P (recordProjectionDisposition input) := by
  intro s
  refine WritesFrom.query_bind ?_
  split
  · split
    · exact EmitsFrom.throw _
    · exact EmitsFrom.pure _
  · exact statement_writesFrom (h _ ‹_›)

theorem advanceContiguousProjectionCursor_writes {invocationId updatedAt : String}
    (h : ∀ db row, getByInvocationId db invocationId = some row →
      P db (.setProjectedSeq invocationId (contiguousThrough db invocationId row.lastProjectedSeq) updatedAt)) :
    Writes P (advanceContiguousProjectionCursor invocationId updatedAt) := by
  intro s
  refine WritesFrom.query_bind ?_
  rcases hr : getByInvocationId s.db invocationId with _ | row
  · exact EmitsFrom.throw _
  · refine EmitsFrom.bind_readOnly (requireRecord_readOnly _ _) fun row' hrow' => ?_
    cases hrow'
    refine WritesFrom.query_bind ?_
    refine EmitsFrom.bind (EmitsFrom.when fun _ => statement_writesFrom (h _ _ hr)) fun _ _ _ _ => ?_
    exact EmitsFrom.pure _

end Rules

end HrcRuntime.EventRepository
