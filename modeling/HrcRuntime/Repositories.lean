import HrcRuntime.EventRepository

namespace HrcRuntime.Repositories

open Json Records Relational Database Program Mapper

section Queries

def getByRuntimeId (db : Db) (runtimeId : String) : Option HrcRuntimeSnapshot :=
  db.runtimes.find? fun r => r.runtimeId == runtimeId

def getByOperationId (db : Db) (operationId : String) : Option HrcRuntimeOperationRecord :=
  db.runtimeOperations.find? fun r => r.operationId == operationId

def getAttemptByInvocationId (db : Db) (invocationId : String) : Option ParticipantAttempt :=
  db.participantAttempts.find? fun r => r.invocationId == invocationId

def getAttemptByRegistrationId (db : Db) (registrationId : String) : Option ParticipantAttempt :=
  (orderBy (·.attachEpoch) (db.participantAttempts.rows.filter fun r =>
    r.registrationId == registrationId)).getLast?

def getFirstTurnWatch (db : Db) (runtimeId : String) (generation : Nat) : Option HrcFirstTurnWatchRecord :=
  db.firstTurnWatch.find? fun r => r.runtimeId == runtimeId && r.generation == generation

def bufferChunks (db : Db) (runId : String) : List HrcRuntimeBufferRecord :=
  orderBy (·.chunkSeq) (db.runtimeBuffers.rows.filter fun r => r.runId == runId)

/-- `listTailByRunId`: the last `limit` chunks, in order. -/
def listTailByRunId (db : Db) (runId : String) (limit : Nat) : List HrcRuntimeBufferRecord :=
  (bufferChunks db runId).drop ((bufferChunks db runId).length - limit)

def nextChunkSeqByRunId (db : Db) (runId : String) : Nat :=
  match (bufferChunks db runId).getLast? with
  | some chunk => chunk.chunkSeq + 1
  | none => 0

def getByArtifactId (db : Db) (artifactId : String) : Option HrcRuntimeArtifactRecord :=
  db.runtimeArtifacts.find? fun r => r.artifactId == artifactId

end Queries

/-- `{ ...json, [key]: value }` on an optional object. -/
def assignField (json : Option Json) (key : String) (value : Json) : Json :=
  .obj ((json.getD .null).recordFields.set key value)

variable [Host]

namespace Invocations

def update (invocationId : String) (patch : InvocationPatch) : M Unit :=
  statement (.updateInvocation invocationId patch)

end Invocations

namespace Runtimes

/-- A status that does not change keeps its `statusChangedAt`. -/
def guardedPatch (current : Option HrcRuntimeSnapshot) (patch : RuntimePatch) : RuntimePatch :=
  if patch.status.isSome && (current.map (·.status)) != patch.status then patch
  else { patch with statusChangedAt := none }

omit [Host] in
theorem guardedPatch_activeRunId (current : Option HrcRuntimeSnapshot) (patch : RuntimePatch) :
    (guardedPatch current patch).activeRunId = patch.activeRunId := by
  unfold guardedPatch
  split <;> rfl

def assertActiveRun (current : Option HrcRuntimeSnapshot) (patch : RuntimePatch) : M Unit :=
  match current, patch.activeRunId with
  | some row, some activeRunId =>
    RunRepository.assertCanNameActiveRun activeRunId
      { runtimeId := some row.runtimeId
        operationId := patch.activeOperationId.or row.activeOperationId
        hostSessionId := row.hostSessionId
        generation := row.generation }
  | _, _ => pure ()

def update (runtimeId : String) (patch : RuntimePatch) : M Unit := do
  let current ← query (getByRuntimeId · runtimeId)
  assertActiveRun current patch
  statement (.updateRuntime runtimeId (guardedPatch current patch))

/-- `updateRunId(runtimeId, undefined, updatedAt)`. -/
def clearRunId (runtimeId updatedAt : String) : M Unit := statement (.setActiveRun runtimeId none updatedAt)

/-- `previous !== undefined && Date.parse(previous) > Date.parse(occurredAt)`. -/
def isLater (previous : Option String) (occurredAt : String) : Bool :=
  match previous.bind Host.parseDate, Host.parseDate occurredAt with
  | some p, some o => decide (o < p)
  | _, _ => false

/-- `runtimeActivityPatch` for a broker event: activity never moves back. -/
def runtimeActivityPatch (db : Db) (runtimeId occurredAt updatedAt : String) : RuntimePatch :=
  let previous := (getByRuntimeId db runtimeId).bind (·.lastActivityAt)
  { updatedAt := some updatedAt
    lastActivityAt := if isLater previous occurredAt then previous else some occurredAt }

end Runtimes

namespace HrcEvents

def lifecycleToolResultBlobId (hrcSeq : Nat) : String := s!"lc:{Host.ledgerIncarnationId}:{hrcSeq}"

def spillPersistedResult (hrcSeq : Nat) (kind : HrcEventKind) (runtimeId : Option String) (payload : Json) :
    M Unit :=
  match payload, payload.member "result" with
  | .obj fields, some result =>
    if kind != .turnToolResult || (EventRepository.readToolResultSpillDescriptor (some result)).isSome
        || !EventRepository.toolResultExceedsSpillThreshold (some result) then
      pure ()
    else do
      let runtimeId ← requireRecord (runtimeId.filter fun id => !id.isEmpty) "large turn.tool_result requires runtimeId"
      let brokerBlob ← query fun db =>
        ((payload.stringField "toolUseId").filter fun id => !id.isEmpty).bind fun id =>
          EventRepository.toolResultBlob db (EventRepository.brokerToolResultBlobId runtimeId id)
      match brokerBlob with
      | some blob =>
        statement (.replaceHrcPayload hrcSeq (.obj (fields.set "result"
          (EventRepository.createToolResultSpillStub result
            { blobId := blob.blobId, bytes := blob.bytes, kind := .brokerRaw }))))
      | none =>
        let blobId := lifecycleToolResultBlobId hrcSeq
        let bytes := result.byteLength
        statement (.insertBlob { blobId, runtimeId, kind := .lifecycleCanonical, bytes, resultJson := result })
        statement (.replaceHrcPayload hrcSeq (.obj (fields.set "result"
          (EventRepository.createToolResultSpillStub result { blobId, bytes, kind := .lifecycleCanonical }))))
  | _, _ => pure ()

/-- `appendHrcEvent`: an unregistered kind throws. -/
def append (kind : HrcEventKind) (input : HrcLifecycleEventInput) : M HrcLifecycleEvent := do
  let category ← requireRecord kind.category "unknown hrc event kind"
  let hrcSeq ← query (·.nextHrcSeq)
  statement (.appendHrcEvent kind category input)
  spillPersistedResult hrcSeq kind input.runtimeId input.payload
  let stored ← query fun db => db.hrcEvents.find? fun e => e.hrcSeq == hrcSeq
  requireRecord stored s!"failed to reload hrc event {hrcSeq}"

end HrcEvents

namespace Admissions

def upsertAdmission (record : SubmissionAdmissionRecord) : M Unit := statement (.upsertAdmission record)

def recordDisposition (submissionId : String) (disposition : SubmissionDisposition) (disposedAt : String)
    (onlyIfAbsent : Bool := false) : M Unit :=
  statement (.disposeAdmission submissionId disposition disposedAt onlyIfAbsent)

end Admissions

namespace Artifacts

def insertIdempotent (record : HrcRuntimeArtifactRecord) : M Unit := do
  let existing ← query (getByArtifactId · record.artifactId)
  match existing with
  | some existing =>
    if existing = record then pure ()
    else fail s!"runtime_artifacts conflict: artifact_id={record.artifactId} already exists with different content"
  | none => statement (.insertArtifact record)

end Artifacts

namespace Participants

def transitionAttempt (attemptId : String) (start : List ParticipantAttemptState)
    (finish : ParticipantAttemptState) (updatedAt : String) (reason : Option String) : M Unit :=
  if start.isEmpty || !start.all fun state => allowsParticipantAttemptTransition state finish reason then pure ()
  else statement (.transitionAttempt attemptId start finish updatedAt reason)

end Participants

namespace FirstTurn

/-- `noteFirstTurnStarted`: a failed write is logged, never thrown. -/
def noteFirstTurnStarted (runtimeId : String) (generation : Nat) (occurredAt : String) : M Unit :=
  Prog.catchWith (statement (.markFirstTurn runtimeId generation occurredAt)) fun _ =>
    serverLog "runtime.first_turn_watch_clear_failed"

/-- The rows `disarm` still finds armed. -/
def isArmed (w : HrcFirstTurnWatchRecord) : Bool :=
  w.firstTurnAt.isNone && w.firstTurnMissingTrippedAt.isNone && w.disarmedAt.isNone

def disarmFirstTurnWatch (runtimeId : String) (generation : Nat) (reason occurredAt : String) : M Unit :=
  Prog.catchWith
    (do
      let armed ← query fun db => (getFirstTurnWatch db runtimeId generation).any isArmed
      statement (.disarmFirstTurn runtimeId generation reason occurredAt)
      Prog.when armed (serverLog "runtime.first_turn_watch_disarmed"))
    fun _ => serverLog "runtime.first_turn_watch_disarm_failed"

end FirstTurn

section Rules

variable {P : Db → Write → Prop}

variable {runtimeId occurredAt : String}

theorem Runtimes.update_writesFrom {s : BrokerEventMapper} {patch : RuntimePatch}
    (h : P s.db (.updateRuntime runtimeId (Runtimes.guardedPatch (getByRuntimeId s.db runtimeId) patch))) :
    WritesFrom P s (Runtimes.update runtimeId patch) := by
  refine WritesFrom.query_bind ?_
  refine EmitsFrom.bind_readOnly ?_ fun _ _ => statement_writesFrom h
  unfold Runtimes.assertActiveRun
  split
  · exact RunRepository.assertCanNameActiveRun_readOnly _ _
  · exact ReadOnly.pure _

theorem HrcEvents.append_writes (hbl : ∀ db blob, P db (.insertBlob blob))
    (hp : ∀ db seq payload, P db (.replaceHrcPayload seq payload)) {kind : HrcEventKind}
    {input : HrcLifecycleEventInput} (h : ∀ db category, P db (.appendHrcEvent kind category input)) :
    Writes P (HrcEvents.append kind input) := by
  refine Emits.bind (Emits.of_readOnly (requireRecord_readOnly _ _)) fun category => ?_
  refine Emits.bind (Emits.of_readOnly (query_readOnly _)) fun hrcSeq => ?_
  refine Emits.bind (statement_writes fun db => h db category) fun _ => Emits.bind ?_ fun _ => ?_
  · unfold HrcEvents.spillPersistedResult
    split
    · split
      · exact Emits.pure _
      · refine Emits.bind (Emits.of_readOnly (requireRecord_readOnly _ _)) fun runtimeId => ?_
        refine Emits.bind (Emits.of_readOnly (query_readOnly _)) fun blob => ?_
        split
        · exact statement_writes fun db => hp db _ _
        · exact Emits.bind (statement_writes fun db => hbl db _) fun _ => statement_writes fun db => hp db _ _
    · exact Emits.pure _
  · exact Emits.of_readOnly ((query_readOnly _).bind fun _ => requireRecord_readOnly _ _)

theorem Artifacts.insertIdempotent_writes {record : HrcRuntimeArtifactRecord}
    (h : ∀ db, P db (.insertArtifact record)) : Writes P (Artifacts.insertIdempotent record) := by
  refine Emits.bind (Emits.of_readOnly (query_readOnly _)) fun existing => ?_
  split
  · split
    · exact Emits.pure _
    · exact Emits.of_readOnly (fail_readOnly _)
  · exact statement_writes h

theorem Participants.transitionAttempt_writes {attemptId : String} {start : List ParticipantAttemptState}
    {finish : ParticipantAttemptState} {updatedAt : String} {reason : Option String}
    (h : ∀ db, P db (.transitionAttempt attemptId start finish updatedAt reason)) :
    Writes P (Participants.transitionAttempt attemptId start finish updatedAt reason) := by
  unfold Participants.transitionAttempt
  split
  · exact Emits.pure _
  · exact statement_writes h

theorem FirstTurn.noteFirstTurnStarted_writes {generation : Nat}
    (h : ∀ db, P db (.markFirstTurn runtimeId generation occurredAt)) :
    Writes P (FirstTurn.noteFirstTurnStarted runtimeId generation occurredAt) :=
  Emits.catchWith (statement_writes h) fun _ => serverLog_writes _

theorem FirstTurn.disarmFirstTurnWatch_writes {generation : Nat} {reason : String}
    (h : ∀ db, P db (.disarmFirstTurn runtimeId generation reason occurredAt)) :
    Writes P (FirstTurn.disarmFirstTurnWatch runtimeId generation reason occurredAt) := by
  refine Emits.catchWith ?_ fun _ => serverLog_writes _
  refine Emits.bind (Emits.of_readOnly (query_readOnly _)) fun armed => ?_
  exact Emits.bind (statement_writes h) fun _ => Emits.when (serverLog_writes _)

end Rules

end HrcRuntime.Repositories
