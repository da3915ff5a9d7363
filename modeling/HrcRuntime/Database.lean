import HrcRuntime.Records
import HrcRuntime.Relational

namespace HrcRuntime.Database

open Json Records Relational

abbrev EventTable := Table HrcBrokerInvocationEventRecord [fun r => some (r.invocationId, r.seq)]

abbrev DispositionTable := Table BrokerProjectionDisposition [fun r => some (r.invocationId, r.seq)]

abbrev RunTable :=
  Table HrcRunRecord [fun r => some ("run_id", r.runId), fun r => r.turnKey.map ("turn_key", ·),
    fun r => r.brokerSubmissionId.map ("broker_submission_id", ·)]

abbrev InputTable :=
  Table HrcInputRecord [fun r => some ("input_id", r.inputId, ""),
    fun r => some ("admission", r.admissionHostSessionId, r.idempotencyKey),
    fun r => r.brokerSubmissionId.map ("broker_submission_id", ·, "")]

structure Db where
  brokerInvocations : Table HrcBrokerInvocationRecord [fun r => some r.invocationId] := .empty
  runtimes : Table HrcRuntimeSnapshot [fun r => some r.runtimeId] := .empty
  runtimeOperations : Table HrcRuntimeOperationRecord [fun r => some r.operationId] := .empty
  runs : RunTable := .empty
  brokerInvocationEvents : EventTable := .empty
  dispositions : DispositionTable := .empty
  inputs : InputTable := .empty
  submissionAdmissions : Table SubmissionAdmissionRecord [fun r => some r.submissionId] := .empty
  hrcEvents : Table HrcLifecycleEvent [fun r => some r.hrcSeq] := .empty
  nextHrcSeq : Nat := 1
  nextStreamSeq : Nat := 1
  runtimeBuffers : Table HrcRuntimeBufferRecord [fun r => some (r.runId, r.chunkSeq)] := .empty
  runtimeArtifacts : Table HrcRuntimeArtifactRecord [fun r => some r.artifactId] := .empty
  toolResultBlobs : Table ToolResultBlobRecord [fun r => some r.blobId] := .empty
  sessions : Table HrcSessionRecord [fun r => some r.hostSessionId] := .empty
  surfaceBindings : Table HrcSurfaceBindingRecord [fun r => some (r.surfaceKind, r.surfaceId)] := .empty
  firstTurnWatch : Table HrcFirstTurnWatchRecord [fun r => some (r.runtimeId, r.generation)] := .empty
  participantAttempts :
    Table ParticipantAttempt [fun r => some r.attemptId, fun r => some r.invocationId] := .empty

/-- `BrokerInvocationUpdatePatch`: an absent field keeps its column. The two projection cursors
have statements of their own. -/
structure InvocationPatch where
  runId : Option String := none
  invocationState : Option InvocationState := none
  lifecyclePolicyHash : Option String := none
  currentHarnessGeneration : Option Nat := none
  currentTurnAttempt : Option Nat := none
  lifecycleTerminalReason : Option String := none
  lastLifecycleEscalationJson : Option Json := none
  updatedAt : Option String := none

def InvocationPatch.apply (p : InvocationPatch) (r : HrcBrokerInvocationRecord) : HrcBrokerInvocationRecord :=
  { r with
    runId := p.runId.or r.runId
    invocationState := p.invocationState.getD r.invocationState
    lifecyclePolicyHash := p.lifecyclePolicyHash.or r.lifecyclePolicyHash
    currentHarnessGeneration := p.currentHarnessGeneration.or r.currentHarnessGeneration
    currentTurnAttempt := p.currentTurnAttempt.or r.currentTurnAttempt
    lifecycleTerminalReason := p.lifecycleTerminalReason.or r.lifecycleTerminalReason
    lastLifecycleEscalationJson := p.lastLifecycleEscalationJson.or r.lastLifecycleEscalationJson
    updatedAt := p.updatedAt.getD r.updatedAt }

/-- `RuntimeUpdatePatch`. -/
structure RuntimePatch where
  status : Option RuntimeStatus := none
  statusChangedAt : Option String := none
  activeRunId : Option String := none
  activeOperationId : Option String := none
  activeInvocationId : Option String := none
  lastActivityAt : Option String := none
  runtimeStateJson : Option Json := none
  updatedAt : Option String := none

def RuntimePatch.apply (p : RuntimePatch) (r : HrcRuntimeSnapshot) : HrcRuntimeSnapshot :=
  { r with
    status := p.status.getD r.status
    statusChangedAt := p.statusChangedAt.or r.statusChangedAt
    activeRunId := p.activeRunId.or r.activeRunId
    activeOperationId := p.activeOperationId.or r.activeOperationId
    activeInvocationId := p.activeInvocationId.or r.activeInvocationId
    lastActivityAt := p.lastActivityAt.or r.lastActivityAt
    runtimeStateJson := p.runtimeStateJson.or r.runtimeStateJson
    updatedAt := p.updatedAt.getD r.updatedAt }

/-- `RunUpdatePatch`; the three columns a patch may clear hold `some none` for `null`. -/
structure RunPatch where
  status : Option RunStatus := none
  startedAt : Option String := none
  completedAt : Option (Option String) := none
  updatedAt : Option String := none
  errorCode : Option (Option HrcErrorCode) := none
  errorMessage : Option (Option String) := none
  initiatingInputId : Option String := none
  observationState : Option String := none
  observedStartHrcSeq : Option Nat := none
  dispatchedInputId : Option String := none
  brokerSubmissionId : Option String := none
  brokerInputFencedAt : Option String := none
  brokerInputFenceReason : Option String := none
  coalescedIntoRunId : Option String := none

def RunPatch.apply (p : RunPatch) (r : HrcRunRecord) : HrcRunRecord :=
  { r with
    status := p.status.getD r.status
    startedAt := p.startedAt.or r.startedAt
    completedAt := p.completedAt.getD r.completedAt
    updatedAt := p.updatedAt.getD r.updatedAt
    errorCode := p.errorCode.getD r.errorCode
    errorMessage := p.errorMessage.getD r.errorMessage
    initiatingInputId := p.initiatingInputId.or r.initiatingInputId
    observationState := p.observationState.or r.observationState
    observedStartHrcSeq := p.observedStartHrcSeq.or r.observedStartHrcSeq
    dispatchedInputId := p.dispatchedInputId.or r.dispatchedInputId
    brokerSubmissionId := p.brokerSubmissionId.or r.brokerSubmissionId
    brokerInputFencedAt := p.brokerInputFencedAt.or r.brokerInputFencedAt
    brokerInputFenceReason := p.brokerInputFenceReason.or r.brokerInputFenceReason
    coalescedIntoRunId := p.coalescedIntoRunId.or r.coalescedIntoRunId }

/-- What `markCompleted` writes. -/
structure RunCompletion where
  status : RunStatus
  completedAt : String
  updatedAt : String
  errorCode : Option HrcErrorCode := none
  errorMessage : Option String := none

def RunCompletion.apply (c : RunCompletion) (r : HrcRunRecord) : HrcRunRecord :=
  { r with
    status := c.status, completedAt := some c.completedAt, updatedAt := c.updatedAt
    errorCode := c.errorCode, errorMessage := c.errorMessage }

structure InputLandingRecord where
  inputId : String
  kind : LandingKind
  carrierRunId : String
  turnId : String
  runStartedHrcSeq : Nat
  landedAt : String

structure InputTerminalRecord where
  inputId : String
  terminal : InputTerminal
  terminalAt : String
  errorCode : Option String := none
  errorMessage : Option String := none

structure InputCorrelationRecord where
  inputId : String
  fact : CorrelationFact
  observedAt : String

inductive Write where
  | updateInvocation (invocationId : String) (patch : InvocationPatch)
  | setProjectedSeq (invocationId : String) (seq : Nat) (updatedAt : String)
  | setRetainedSeq (invocationId : String) (seq : Nat) (updatedAt : Option String)
  | updateRuntime (runtimeId : String) (patch : RuntimePatch)
  | setActiveRun (runtimeId : String) (activeRunId : Option String) (updatedAt : String)
  | clearActiveRun (runtimeId runId updatedAt : String)
  | insertRun (record : HrcRunRecord)
  | updateRun (runId : String) (patch : RunPatch)
  | completeRun (runId : String) (updates : RunCompletion)
  | failWithdrawnRun (runId runtimeId invocationId submissionId now : String)
  | setCorrelation (runId : String) (json : Option Json)
  | insertEvent (row : HrcBrokerInvocationEventRecord)
  | projectEvent (invocationId : String) (seq : Nat) (status : ProjectionStatus) (error : Option String)
  | insertDisposition (row : BrokerProjectionDisposition)
  | insertInput (record : HrcInputRecord)
  | bindInput (inputId brokerSubmissionId updatedAt : String)
  | landInput (landing : InputLandingRecord)
  | terminateInput (terminal : InputTerminalRecord)
  | correlateInput (correlation : InputCorrelationRecord)
  | upsertAdmission (record : SubmissionAdmissionRecord)
  | disposeAdmission (submissionId : String) (disposition : SubmissionDisposition) (disposedAt : String)
      (onlyIfAbsent : Bool)
  | appendHrcEvent (kind : HrcEventKind) (category : HrcEventCategory) (event : HrcLifecycleEventInput)
  | replaceHrcPayload (hrcSeq : Nat) (payload : Json)
  | insertBlob (blob : ToolResultBlobRecord)
  | insertBuffer (row : HrcRuntimeBufferRecord)
  | insertArtifact (row : HrcRuntimeArtifactRecord)
  | markFirstTurn (runtimeId : String) (generation : Nat) (firstTurnAt : String)
  | disarmFirstTurn (runtimeId : String) (generation : Nat) (reason disarmedAt : String)
  | setContinuation (hostSessionId : String) (continuation : Json) (updatedAt : String)
  | setReuseDisabled (hostSessionId : String) (disabled : Bool) (updatedAt : String)
  | bindSurface (record : HrcSurfaceBindingRecord)
  | transitionAttempt (attemptId : String) (start : List ParticipantAttemptState)
      (finish : ParticipantAttemptState) (updatedAt : String) (dispositionReason : Option String)

inductive TableName where
  | brokerInvocations | runtimes | runs | brokerInvocationEvents | dispositions | inputs
  | submissionAdmissions | hrcEvents | toolResultBlobs | runtimeBuffers | runtimeArtifacts
  | firstTurnWatch | sessions | surfaceBindings | participantAttempts
  deriving DecidableEq

namespace Write

def table : Write → TableName
  | updateInvocation .. | setProjectedSeq .. | setRetainedSeq .. => .brokerInvocations
  | updateRuntime .. | setActiveRun .. | clearActiveRun .. => .runtimes
  | insertRun .. | updateRun .. | completeRun .. | failWithdrawnRun .. | setCorrelation .. => .runs
  | insertEvent .. | projectEvent .. => .brokerInvocationEvents
  | insertDisposition .. => .dispositions
  | insertInput .. | bindInput .. | landInput .. | terminateInput .. | correlateInput .. => .inputs
  | upsertAdmission .. | disposeAdmission .. => .submissionAdmissions
  | appendHrcEvent .. | replaceHrcPayload .. => .hrcEvents
  | insertBlob .. => .toolResultBlobs
  | insertBuffer .. => .runtimeBuffers
  | insertArtifact .. => .runtimeArtifacts
  | markFirstTurn .. | disarmFirstTurn .. => .firstTurnWatch
  | setContinuation .. | setReuseDisabled .. => .sessions
  | bindSurface .. => .surfaceBindings
  | transitionAttempt .. => .participantAttempts

def store {τ : Type} (table : String) (t : Option τ) (put : τ → Db) : Except HrcError Db :=
  match t with
  | some t => .ok (put t)
  | none => .error (.constraint table)

def runInvocations (w : Write) (t : Table HrcBrokerInvocationRecord [fun r => some r.invocationId]) :
    Option (Table HrcBrokerInvocationRecord [fun r => some r.invocationId]) :=
  match w with
  | updateInvocation id patch => t.update (fun r => r.invocationId == id) patch.apply
  | setProjectedSeq id seq updatedAt =>
    t.update (fun r => r.invocationId == id) fun r => { r with lastProjectedSeq := seq, updatedAt }
  | setRetainedSeq id seq updatedAt =>
    t.update (fun r => r.invocationId == id) fun r =>
      { r with retainedProjectedThroughSeq := some seq, updatedAt := updatedAt.getD r.updatedAt }
  | _ => some t

def runRuntimes (w : Write) (t : Table HrcRuntimeSnapshot [fun r => some r.runtimeId]) :
    Option (Table HrcRuntimeSnapshot [fun r => some r.runtimeId]) :=
  match w with
  | updateRuntime id patch => t.update (fun r => r.runtimeId == id) patch.apply
  | setActiveRun id activeRunId updatedAt =>
    t.update (fun r => r.runtimeId == id) fun r => { r with activeRunId, updatedAt }
  | clearActiveRun id runId updatedAt =>
    t.update (fun r => r.runtimeId == id && r.activeRunId == some runId) fun r =>
      { r with activeRunId := none, updatedAt }
  | _ => some t

/-- The rows `terminalizeWithdrawnAcceptedRun` still finds accepted. -/
def isWithdrawnAccepted (runId runtimeId invocationId submissionId : String) (r : HrcRunRecord) : Bool :=
  r.runId == runId && r.runtimeId == some runtimeId && r.invocationId == some invocationId
    && r.status == .accepted && r.startedAt == none && r.completedAt == none
    && r.dispatchedInputId == some submissionId && r.brokerSubmissionId == some submissionId

def withdrawnCompletion (now : String) : RunCompletion :=
  { status := .failed, completedAt := now, updatedAt := now
    errorCode := some .runAcceptedNeverStarted
    errorMessage := some "accepted broker submission was withdrawn before a turn started" }

def runRuns (w : Write) (t : RunTable) : Option RunTable :=
  match w with
  | insertRun record => t.insert record
  | updateRun id patch => t.update (fun r => r.runId == id) patch.apply
  | completeRun id updates => t.update (fun r => r.runId == id) updates.apply
  | failWithdrawnRun runId runtimeId invocationId submissionId now =>
    t.update (isWithdrawnAccepted runId runtimeId invocationId submissionId) (withdrawnCompletion now).apply
  | setCorrelation id json => t.update (fun r => r.runId == id) fun r => { r with correlationJson := json }
  | _ => some t

def runEvents (w : Write) (t : EventTable) : Option EventTable :=
  match w with
  | insertEvent row => t.insert row
  | projectEvent id seq status error =>
    t.update (fun r => r.invocationId == id && r.seq == seq) fun r =>
      { r with projectionStatus := status, projectionError := error.or r.projectionError }
  | _ => some t

def runInputs (w : Write) (t : InputTable) : Option InputTable :=
  match w with
  | insertInput record => t.insert record
  | bindInput id submissionId updatedAt =>
    t.update (fun r => r.inputId == id && r.brokerSubmissionId == none) fun r =>
      { r with brokerSubmissionId := some submissionId, updatedAt }
  | landInput landing =>
    t.update (fun r => r.inputId == landing.inputId && r.landingKind == none) fun r =>
      { r with
        status := match landing.kind with
          | .initiating => .initiating
          | .joined => .joined
        cleanupProtection := .carrierRun, landingKind := some landing.kind
        carrierRunId := some landing.carrierRunId, turnId := some landing.turnId
        runStartedHrcSeq := some landing.runStartedHrcSeq
        landedAt := some landing.landedAt, updatedAt := landing.landedAt }
  | terminateInput terminal =>
    t.update (fun r => r.inputId == terminal.inputId && r.landingKind == none && r.terminal == none) fun r =>
      { r with
        status := match terminal.terminal with
          | .rejected => .rejected
          | .withdrawn => .withdrawn
        cleanupProtection := .released, terminal := some terminal.terminal
        terminalAt := some terminal.terminalAt, errorCode := terminal.errorCode
        errorMessage := terminal.errorMessage, updatedAt := terminal.terminalAt }
  | correlateInput correlation =>
    t.update (fun r => r.inputId == correlation.inputId) fun r =>
      { r with uncertainty := some correlation.fact, updatedAt := correlation.observedAt }
  | _ => some t

def runAdmissions (w : Write) (t : Table SubmissionAdmissionRecord [fun r => some r.submissionId]) :
    Option (Table SubmissionAdmissionRecord [fun r => some r.submissionId]) :=
  match w with
  | upsertAdmission record =>
    upsert t (fun r => r.submissionId == record.submissionId) record fun r =>
      { r with
        runId := record.runId, runtimeId := record.runtimeId
        invocationId := record.invocationId, door := record.door.or r.door
        envelopeId := record.envelopeId.or r.envelopeId, admittedAt := record.admittedAt }
  | disposeAdmission id disposition disposedAt onlyIfAbsent =>
    upsert t (fun r => r.submissionId == id)
      { submissionId := id, disposition := some disposition, disposedAt := some disposedAt } fun r =>
      if onlyIfAbsent && r.disposition.isSome then r
      else { r with disposition := some disposition, disposedAt := some disposedAt }
  | _ => some t

def runHrcEvents (w : Write) (db : Db) : Option (Table HrcLifecycleEvent [fun r => some r.hrcSeq]) :=
  match w with
  | appendHrcEvent kind category event =>
    db.hrcEvents.insert
      { event with hrcSeq := db.nextHrcSeq, streamSeq := db.nextStreamSeq, category, eventKind := kind }
  | replaceHrcPayload hrcSeq payload =>
    db.hrcEvents.update (fun r => r.hrcSeq == hrcSeq) fun r => { r with payload }
  | _ => some db.hrcEvents

def runFirstTurnWatch (w : Write)
    (t : Table HrcFirstTurnWatchRecord [fun r => some (r.runtimeId, r.generation)]) :
    Option (Table HrcFirstTurnWatchRecord [fun r => some (r.runtimeId, r.generation)]) :=
  match w with
  | markFirstTurn runtimeId generation firstTurnAt =>
    t.update (fun r => r.runtimeId == runtimeId && r.generation == generation && r.firstTurnAt == none) fun r =>
      { r with firstTurnAt := some firstTurnAt, updatedAt := firstTurnAt }
  | disarmFirstTurn runtimeId generation reason disarmedAt =>
    t.update (fun r => r.runtimeId == runtimeId && r.generation == generation && r.firstTurnAt == none
        && r.firstTurnMissingTrippedAt == none && r.disarmedAt == none) fun r =>
      { r with disarmedAt := some disarmedAt, disarmReason := some reason, updatedAt := disarmedAt }
  | _ => some t

def runSessions (w : Write) (t : Table HrcSessionRecord [fun r => some r.hostSessionId]) :
    Option (Table HrcSessionRecord [fun r => some r.hostSessionId]) :=
  match w with
  | setContinuation id continuation updatedAt =>
    t.update (fun r => r.hostSessionId == id) fun r =>
      { r with continuationJson := some continuation, continuationReuseDisabled := false, updatedAt }
  | setReuseDisabled id disabled updatedAt =>
    t.update (fun r => r.hostSessionId == id) fun r =>
      { r with continuationReuseDisabled := disabled, updatedAt }
  | _ => some t

def runDispositions (w : Write) (t : DispositionTable) : Option DispositionTable :=
  match w with
  | insertDisposition row => t.insert row
  | _ => some t

/-- `INSERT OR IGNORE`. -/
def runBlobs (w : Write) (t : Table ToolResultBlobRecord [fun r => some r.blobId]) :
    Option (Table ToolResultBlobRecord [fun r => some r.blobId]) :=
  match w with
  | insertBlob blob => if (t.get? (fun r => some r.blobId) blob.blobId).isSome then some t else t.insert blob
  | _ => some t

def runBuffers (w : Write) (t : Table HrcRuntimeBufferRecord [fun r => some (r.runId, r.chunkSeq)]) :
    Option (Table HrcRuntimeBufferRecord [fun r => some (r.runId, r.chunkSeq)]) :=
  match w with
  | insertBuffer row => t.insert row
  | _ => some t

def runArtifacts (w : Write) (t : Table HrcRuntimeArtifactRecord [fun r => some r.artifactId]) :
    Option (Table HrcRuntimeArtifactRecord [fun r => some r.artifactId]) :=
  match w with
  | insertArtifact row => t.insert row
  | _ => some t

def runSurfaces (w : Write) (t : Table HrcSurfaceBindingRecord [fun r => some (r.surfaceKind, r.surfaceId)]) :
    Option (Table HrcSurfaceBindingRecord [fun r => some (r.surfaceKind, r.surfaceId)]) :=
  match w with
  | bindSurface record =>
    upsert t (fun r => r.surfaceKind == record.surfaceKind && r.surfaceId == record.surfaceId)
      record fun _ => record
  | _ => some t

def runAttempts (w : Write)
    (t : Table ParticipantAttempt [fun r => some r.attemptId, fun r => some r.invocationId]) :
    Option (Table ParticipantAttempt [fun r => some r.attemptId, fun r => some r.invocationId]) :=
  match w with
  | transitionAttempt id start finish updatedAt reason =>
    t.update (fun r => r.attemptId == id && start.contains r.state) fun r =>
      { r with state := finish, dispositionReason := reason, updatedAt }
  | _ => some t

def run (w : Write) (db : Db) : Except HrcError Db :=
  match w.table with
  | .brokerInvocations => store "broker_invocations" (w.runInvocations db.brokerInvocations) fun t =>
    { db with brokerInvocations := t }
  | .runtimes => store "runtimes" (w.runRuntimes db.runtimes) fun t => { db with runtimes := t }
  | .runs => store "runs" (w.runRuns db.runs) fun t => { db with runs := t }
  | .brokerInvocationEvents => store "broker_invocation_events" (w.runEvents db.brokerInvocationEvents) fun t =>
    { db with brokerInvocationEvents := t }
  | .dispositions => store "broker_projection_dispositions" (w.runDispositions db.dispositions) fun t =>
    { db with dispositions := t }
  | .inputs => store "inputs" (w.runInputs db.inputs) fun t => { db with inputs := t }
  | .submissionAdmissions => store "submission_admissions" (w.runAdmissions db.submissionAdmissions) fun t =>
    { db with submissionAdmissions := t }
  | .hrcEvents => store "hrc_events" (w.runHrcEvents db) fun t =>
    match w with
    | appendHrcEvent .. =>
      { db with hrcEvents := t, nextHrcSeq := db.nextHrcSeq + 1, nextStreamSeq := db.nextStreamSeq + 1 }
    | _ => { db with hrcEvents := t }
  | .toolResultBlobs => store "tool_result_blobs" (w.runBlobs db.toolResultBlobs) fun t =>
    { db with toolResultBlobs := t }
  | .runtimeBuffers => store "runtime_buffers" (w.runBuffers db.runtimeBuffers) fun t =>
    { db with runtimeBuffers := t }
  | .runtimeArtifacts => store "runtime_artifacts" (w.runArtifacts db.runtimeArtifacts) fun t =>
    { db with runtimeArtifacts := t }
  | .firstTurnWatch => store "runtime_first_turn_watch" (w.runFirstTurnWatch db.firstTurnWatch) fun t =>
    { db with firstTurnWatch := t }
  | .sessions => store "sessions" (w.runSessions db.sessions) fun t => { db with sessions := t }
  | .surfaceBindings => store "surface_bindings" (w.runSurfaces db.surfaceBindings) fun t =>
    { db with surfaceBindings := t }
  | .participantAttempts => store "participant_registration_attempts" (w.runAttempts db.participantAttempts)
      fun t => { db with participantAttempts := t }

theorem store_eq_ok {τ : Type} {table : String} {t : Option τ} {put : τ → Db} {db' : Db} :
    store table t put = .ok db' ↔ ∃ t', t = some t' ∧ put t' = db' := by
  cases t <;> simp [store]

section Frames

variable {w : Write} {db db' : Db}

structure Ran (w : Write) (db db' : Db) : Prop where
  brokerInvocations : w.runInvocations db.brokerInvocations = some db'.brokerInvocations
  runtimes : w.runRuntimes db.runtimes = some db'.runtimes
  runtimeOperations : db'.runtimeOperations = db.runtimeOperations
  runs : w.runRuns db.runs = some db'.runs
  brokerInvocationEvents : w.runEvents db.brokerInvocationEvents = some db'.brokerInvocationEvents
  dispositions : w.runDispositions db.dispositions = some db'.dispositions
  inputs : w.runInputs db.inputs = some db'.inputs
  hrcEvents : w.runHrcEvents db = some db'.hrcEvents
  participantAttempts : w.runAttempts db.participantAttempts = some db'.participantAttempts

theorem run_ran (h : w.run db = .ok db') : Ran w db db' := by
  cases w <;> obtain ⟨t, ht, rfl⟩ := store_eq_ok.mp h <;> constructor <;> first | exact ht | rfl

theorem run_brokerInvocations (h : w.run db = .ok db') :
    w.runInvocations db.brokerInvocations = some db'.brokerInvocations := (run_ran h).brokerInvocations

theorem run_invocations_only (h : w.run db = .ok db') (ht : w.table = .brokerInvocations) :
    db' = { db with brokerInvocations := db'.brokerInvocations } := by
  unfold run at h
  rw [ht] at h
  dsimp only at h
  unfold store at h
  split at h <;> cases h
  rfl

theorem run_runtimes (h : w.run db = .ok db') : w.runRuntimes db.runtimes = some db'.runtimes := (run_ran h).runtimes

theorem run_runtimeOperations (h : w.run db = .ok db') : db'.runtimeOperations = db.runtimeOperations :=
  (run_ran h).runtimeOperations

theorem run_runs (h : w.run db = .ok db') : w.runRuns db.runs = some db'.runs := (run_ran h).runs

theorem run_brokerInvocationEvents (h : w.run db = .ok db') :
    w.runEvents db.brokerInvocationEvents = some db'.brokerInvocationEvents := (run_ran h).brokerInvocationEvents

theorem run_dispositions (h : w.run db = .ok db') : w.runDispositions db.dispositions = some db'.dispositions :=
  (run_ran h).dispositions

theorem run_inputs (h : w.run db = .ok db') : w.runInputs db.inputs = some db'.inputs := (run_ran h).inputs

theorem run_hrcEvents (h : w.run db = .ok db') : w.runHrcEvents db = some db'.hrcEvents := (run_ran h).hrcEvents

theorem run_participantAttempts (h : w.run db = .ok db') :
    w.runAttempts db.participantAttempts = some db'.participantAttempts := (run_ran h).participantAttempts

theorem run_brokerInvocations_of_ne (h : w.run db = .ok db') (hw : w.table ≠ .brokerInvocations) :
    db'.brokerInvocations = db.brokerInvocations := by
  have hr := run_brokerInvocations h
  cases w <;> first | exact (Option.some.inj hr).symm | exact absurd rfl hw

theorem run_runtimes_of_ne (h : w.run db = .ok db') (hw : w.table ≠ .runtimes) : db'.runtimes = db.runtimes := by
  have hr := run_runtimes h
  cases w <;> first | exact (Option.some.inj hr).symm | exact absurd rfl hw

theorem run_runs_of_ne (h : w.run db = .ok db') (hw : w.table ≠ .runs) : db'.runs = db.runs := by
  have hr := run_runs h
  cases w <;> first | exact (Option.some.inj hr).symm | exact absurd rfl hw

theorem run_brokerInvocationEvents_of_ne (h : w.run db = .ok db') (hw : w.table ≠ .brokerInvocationEvents) :
    db'.brokerInvocationEvents = db.brokerInvocationEvents := by
  have hr := run_brokerInvocationEvents h
  cases w <;> first | exact (Option.some.inj hr).symm | exact absurd rfl hw

theorem run_dispositions_of_ne (h : w.run db = .ok db') (hw : w.table ≠ .dispositions) :
    db'.dispositions = db.dispositions := by
  have hr := run_dispositions h
  cases w <;> first | exact (Option.some.inj hr).symm | exact absurd rfl hw

theorem run_inputs_of_ne (h : w.run db = .ok db') (hw : w.table ≠ .inputs) : db'.inputs = db.inputs := by
  have hr := run_inputs h
  cases w <;> first | exact (Option.some.inj hr).symm | exact absurd rfl hw

theorem run_sessions_of_ne (h : w.run db = .ok db') (hw : w.table ≠ .sessions) : db'.sessions = db.sessions := by
  cases w <;> obtain ⟨t, ht, rfl⟩ := store_eq_ok.mp h <;> first | rfl | exact absurd rfl hw

end Frames

end Write

end HrcRuntime.Database
