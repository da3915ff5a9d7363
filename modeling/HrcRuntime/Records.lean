import HrcRuntime.Json

namespace HrcRuntime.Records

open Json

/-- Broker event types the projection distinguishes; the protocol is open, so every other type
is kept by its text. -/
inductive EventType where
  | invocationStarted | invocationReady | invocationStopping
  | invocationExited | invocationFailed | invocationDisposed
  | lifecyclePolicyAccepted | lifecycleEscalation
  | harnessStarted | harnessExited
  | harnessRecoveryStarted | harnessRecoveryCompleted | harnessRecoveryFailed
  | admissionRequested | admissionAdmitted
  | inputAccepted | inputRejected | inputQueued | queueWithdrawn
  | submissionExecuted | submissionAbsorbed | submissionRejected | submissionExpired
  | submissionWithdrawn | submissionCancelled | submissionLost
  | turnStarted | turnAttributed | turnCompleted | turnFailed | turnInterrupted
  | turnStalled | turnRetry
  | userMessage
  | assistantMessageStarted | assistantMessageDelta | assistantMessageCompleted
  | toolCallStarted | toolCallDelta | toolCallCompleted | toolCallFailed
  | continuationUpdated | continuationCleared
  | terminalSurfaceReported
  | permissionRequested | permissionResolved | permissionCancelled
  | usageUpdated | diagnostic | captureWarning | captureReleased
  | providerTranscriptReported | artifactReported
  | other (text : String)
  deriving DecidableEq

namespace EventType

def text : EventType → String
  | invocationStarted => "invocation.started"
  | invocationReady => "invocation.ready"
  | invocationStopping => "invocation.stopping"
  | invocationExited => "invocation.exited"
  | invocationFailed => "invocation.failed"
  | invocationDisposed => "invocation.disposed"
  | lifecyclePolicyAccepted => "lifecycle.policy.accepted"
  | lifecycleEscalation => "lifecycle.escalation"
  | harnessStarted => "harness.started"
  | harnessExited => "harness.exited"
  | harnessRecoveryStarted => "harness.recovery.started"
  | harnessRecoveryCompleted => "harness.recovery.completed"
  | harnessRecoveryFailed => "harness.recovery.failed"
  | admissionRequested => "admission.requested"
  | admissionAdmitted => "admission.admitted"
  | inputAccepted => "input.accepted"
  | inputRejected => "input.rejected"
  | inputQueued => "input.queued"
  | queueWithdrawn => "queue.withdrawn"
  | submissionExecuted => "submission.executed"
  | submissionAbsorbed => "submission.absorbed"
  | submissionRejected => "submission.rejected"
  | submissionExpired => "submission.expired"
  | submissionWithdrawn => "submission.withdrawn"
  | submissionCancelled => "submission.cancelled"
  | submissionLost => "submission.lost"
  | turnStarted => "turn.started"
  | turnAttributed => "turn.attributed"
  | turnCompleted => "turn.completed"
  | turnFailed => "turn.failed"
  | turnInterrupted => "turn.interrupted"
  | turnStalled => "turn.stalled"
  | turnRetry => "turn.retry"
  | userMessage => "user.message"
  | assistantMessageStarted => "assistant.message.started"
  | assistantMessageDelta => "assistant.message.delta"
  | assistantMessageCompleted => "assistant.message.completed"
  | toolCallStarted => "tool.call.started"
  | toolCallDelta => "tool.call.delta"
  | toolCallCompleted => "tool.call.completed"
  | toolCallFailed => "tool.call.failed"
  | continuationUpdated => "continuation.updated"
  | continuationCleared => "continuation.cleared"
  | terminalSurfaceReported => "terminal.surface.reported"
  | permissionRequested => "permission.requested"
  | permissionResolved => "permission.resolved"
  | permissionCancelled => "permission.cancelled"
  | usageUpdated => "usage.updated"
  | diagnostic => "diagnostic"
  | captureWarning => "capture.warning"
  | captureReleased => "capture.released"
  | providerTranscriptReported => "provider.transcript.reported"
  | artifactReported => "artifact.reported"
  | other text => text

def hasPrefix (p : String) (text : String) : Bool := p.toList.isPrefixOf text.toList

/-- `type.endsWith('.delta')`. -/
def isDelta : EventType → Bool
  | assistantMessageDelta | toolCallDelta => true
  | other text => ".delta".toList.isSuffixOf text.toList
  | _ => false

/-- `type` starts with `submission.`, `admission.`, `input.` or `queue.`. -/
def isSubmissionRecord : EventType → Bool
  | admissionRequested | admissionAdmitted | inputAccepted | inputRejected | inputQueued | queueWithdrawn => true
  | submissionExecuted | submissionAbsorbed | submissionRejected | submissionExpired => true
  | submissionWithdrawn | submissionCancelled | submissionLost => true
  | other text => hasPrefix "submission." text || hasPrefix "admission." text
      || hasPrefix "input." text || hasPrefix "queue." text
  | _ => false

/-- `type.startsWith('turn.')`. -/
def isTurn : EventType → Bool
  | turnStarted | turnAttributed | turnCompleted | turnFailed | turnInterrupted | turnStalled | turnRetry => true
  | other text => hasPrefix "turn." text
  | _ => false

/-- `TERMINAL_TURN_EVENT_TYPES`. -/
def isTurnTerminal : EventType → Bool
  | turnCompleted | turnFailed | turnInterrupted => true
  | _ => false

end EventType

/-- The envelope without its payload: what `broker_envelope_json` stores. -/
structure EnvelopeHead where
  invocationId : String
  seq : Nat
  time : Option String := none
  type : EventType
  turnId : Option String := none
  inputId : Option String := none
  itemId : Option String := none
  harnessGeneration : Option Nat := none
  turnAttempt : Option Nat := none
  correlation : Option Json := none
  driver : Option Json := none
  provenance : Option Json := none

/-- `InvocationEventEnvelope`; an absent payload is `null`. -/
structure InvocationEventEnvelope extends EnvelopeHead where
  payload : Json := .null

inductive RunStatus where
  | accepted | started | running | completed | failed | cancelled | interrupted | degraded | zombie
  | queued | awaitingPermission | coalesced | reaped | exited
  deriving DecidableEq

namespace RunStatus

def text : RunStatus → String
  | accepted => "accepted"
  | started => "started"
  | running => "running"
  | completed => "completed"
  | failed => "failed"
  | cancelled => "cancelled"
  | interrupted => "interrupted"
  | degraded => "degraded"
  | zombie => "zombie"
  | queued => "queued"
  | awaitingPermission => "awaiting_permission"
  | coalesced => "coalesced"
  | reaped => "reaped"
  | exited => "exited"

def isRunTerminal : RunStatus → Bool
  | completed | failed | cancelled | interrupted | degraded | zombie | reaped | coalesced | exited => true
  | _ => false

/-- `NONTERMINAL_RUN_STATUSES`. -/
def isActive : RunStatus → Bool
  | accepted | started | running => true
  | _ => false

end RunStatus

inductive RuntimeStatus where
  | ready | busy | awaitingInput
  | other (text : String)
  deriving DecidableEq

def RuntimeStatus.text : RuntimeStatus → String
  | ready => "ready"
  | busy => "busy"
  | awaitingInput => "awaiting_input"
  | other text => text

inductive InvocationState where
  | starting | ready | turnActive | awaitingInput | stopping | exited | failed | disposed
  | other (text : String)
  deriving DecidableEq

def InvocationState.text : InvocationState → String
  | starting => "starting"
  | ready => "ready"
  | turnActive => "turn_active"
  | awaitingInput => "awaiting_input"
  | stopping => "stopping"
  | exited => "exited"
  | failed => "failed"
  | disposed => "disposed"
  | other text => text

inductive Transport where
  | sdk | tmux | headless
  | other (text : String)
  deriving DecidableEq

def Transport.text : Transport → String
  | sdk => "sdk"
  | tmux => "tmux"
  | headless => "headless"
  | other text => text

inductive ExecutionFormat where
  | format1 | format2
  deriving DecidableEq

inductive HrcErrorCode where
  | runMismatch | runtimeUnavailable | runAcceptedNeverStarted | firstTurnMissing
  | other (text : String)
  deriving DecidableEq

def HrcErrorCode.text : HrcErrorCode → String
  | runMismatch => "run_mismatch"
  | runtimeUnavailable => "runtime_unavailable"
  | runAcceptedNeverStarted => "accepted_run_never_started"
  | firstTurnMissing => "first_turn_missing"
  | other text => text

inductive HrcError where
  | error (message : String)
  | typeError (message : String)
  | brokerInvocationEventConflict (invocationId : String) (seq : Nat)
  | runIdOwnership (runId refusal : String)
  | runIdReserved (runId : String)
  | constraint (table : String)
  | fault (message : String)

/-- A `broker_invocations` row. -/
structure HrcBrokerInvocationRecord where
  invocationId : String
  operationId : String
  runtimeId : String
  runId : Option String := none
  executionFormat : ExecutionFormat := .format1
  brokerDriver : String := ""
  invocationState : InvocationState := .ready
  capabilitiesJson : Json := .null
  lastProjectedSeq : Nat := 0
  retainedProjectedThroughSeq : Option Nat := none
  lifecyclePolicyHash : Option String := none
  currentHarnessGeneration : Option Nat := none
  currentTurnAttempt : Option Nat := none
  lifecycleTerminalReason : Option String := none
  lastLifecycleEscalationJson : Option Json := none
  updatedAt : String := ""

/-- A `runtimes` row. -/
structure HrcRuntimeSnapshot where
  runtimeId : String
  hostSessionId : String
  scopeRef : String := ""
  laneRef : String := ""
  generation : Nat := 0
  transport : Transport := .headless
  harness : String := ""
  status : RuntimeStatus := .ready
  statusChangedAt : Option String := none
  activeRunId : Option String := none
  activeOperationId : Option String := none
  activeInvocationId : Option String := none
  lastActivityAt : Option String := none
  runtimeStateJson : Option Json := none
  updatedAt : String := ""
  deriving DecidableEq

/-- A `runtime_operations` row. -/
structure HrcRuntimeOperationRecord where
  operationId : String
  runtimeId : String
  generation : Nat := 0

/-- A `runs` row; `correlationJson` is the operator annotation kept off the public record. -/
structure HrcRunRecord where
  runId : String
  hostSessionId : String := ""
  runtimeId : Option String := none
  scopeRef : String := ""
  laneRef : String := ""
  generation : Nat := 0
  transport : Transport := .headless
  status : RunStatus := .accepted
  acceptedAt : Option String := none
  startedAt : Option String := none
  completedAt : Option String := none
  updatedAt : String := ""
  errorCode : Option HrcErrorCode := none
  errorMessage : Option String := none
  executionFormat : ExecutionFormat := .format1
  turnKey : Option String := none
  nativeTurnId : Option String := none
  nativeHarnessGeneration : Option Nat := none
  nativeTurnAttempt : Option Nat := none
  initiatingInputId : Option String := none
  observationState : Option String := none
  observedStartHrcSeq : Option Nat := none
  operationId : Option String := none
  invocationId : Option String := none
  dispatchedInputId : Option String := none
  brokerSubmissionId : Option String := none
  brokerInputFencedAt : Option String := none
  brokerInputFenceReason : Option String := none
  queueSnapshotId : Option String := none
  queuedInputSeq : Option Nat := none
  queueSnapshotPosition : Option Nat := none
  coalescedIntoRunId : Option String := none
  coalescedPosition : Option Nat := none
  correlationJson : Option Json := none
  deriving DecidableEq

inductive ProjectionStatus where
  | pending | applied | skippedFenced | imported
  deriving DecidableEq

inductive EvidenceOrigin where
  | retained

/-- A `broker_invocation_events` row. JSON columns hold the value their text parses to. -/
structure HrcBrokerInvocationEventRecord where
  invocationId : String
  seq : Nat
  time : Option String := none
  type : EventType
  runId : Option String := none
  runtimeId : String
  harnessGeneration : Option Nat := none
  turnAttempt : Option Nat := none
  brokerEventJson : Json := .null
  brokerEnvelopeJson : Option EnvelopeHead := none
  projectionStatus : ProjectionStatus := .pending
  projectionError : Option String := none
  evidenceOrigin : Option EvidenceOrigin := none

inductive Disposition where
  | applied | skippedFenced | skippedDuplicate
  deriving DecidableEq

/-- A `broker_projection_dispositions` row. -/
structure BrokerProjectionDisposition where
  invocationId : String
  seq : Nat
  envelopeHash : String
  disposition : Disposition
  createdAt : String

inductive InputStatus where
  | accepted | initiating | joined | rejected | withdrawn
  | other (text : String)
  deriving DecidableEq

def InputStatus.text : InputStatus → String
  | accepted => "accepted"
  | initiating => "initiating"
  | joined => "joined"
  | rejected => "rejected"
  | withdrawn => "withdrawn"
  | other text => text

inductive LandingKind where
  | initiating | joined
  deriving DecidableEq

def LandingKind.text : LandingKind → String
  | initiating => "initiating"
  | joined => "joined"

inductive InputTerminal where
  | rejected | withdrawn
  deriving DecidableEq

def InputTerminal.text : InputTerminal → String
  | rejected => "rejected"
  | withdrawn => "withdrawn"

inductive CorrelationFact where
  | lost | expired | cancelled | invocationFailed | invocationExited
  deriving DecidableEq

def CorrelationFact.text : CorrelationFact → String
  | lost => "lost"
  | expired => "expired"
  | cancelled => "cancelled"
  | invocationFailed => "invocation_failed"
  | invocationExited => "invocation_exited"

inductive CleanupProtection where
  | «protected» | carrierRun | released
  deriving DecidableEq

/-- An `inputs` row. -/
structure HrcInputRecord where
  inputId : String
  admissionHostSessionId : String := ""
  idempotencyKey : String := ""
  requestHash : String := ""
  hostSessionId : Option String := none
  runtimeId : Option String := none
  operationId : Option String := none
  invocationId : Option String := none
  brokerSubmissionId : Option String := none
  status : InputStatus := .accepted
  uncertainty : Option CorrelationFact := none
  cleanupProtection : CleanupProtection := .«protected»
  landingKind : Option LandingKind := none
  carrierRunId : Option String := none
  turnId : Option String := none
  runStartedHrcSeq : Option Nat := none
  landedAt : Option String := none
  terminalAt : Option String := none
  terminal : Option InputTerminal := none
  errorCode : Option String := none
  errorMessage : Option String := none
  createdAt : String := ""
  updatedAt : String := ""
  deriving DecidableEq

inductive SubmissionDisposition where
  | executed | absorbed | rejected | expired | cancelled | lost | withdrawn

/-- A `submission_admissions` row. -/
structure SubmissionAdmissionRecord where
  submissionId : String
  runId : Option String := none
  runtimeId : Option String := none
  invocationId : Option String := none
  door : Option String := none
  envelopeId : Option String := none
  admittedAt : Option String := none
  disposition : Option SubmissionDisposition := none
  disposedAt : Option String := none

inductive HrcEventKind where
  | turnAccepted | turnStarted | turnUserPrompt | turnMessage | turnToolCall | turnToolResult
  | turnCompleted | turnReaped | turnAwaitingInput | turnInputResumed
  | brokerDiagnostic | providerTranscriptWarning
  | runtimeContextUpdated | runtimeCaptureStateChanged | runtimeCaptureReleased
  | inputLanded | inputTerminal | inputCorrelation
  | firstTurnMissingLateStart
  | other (text : String)
  deriving DecidableEq

inductive HrcEventCategory where
  | runtime | turn | input

/-- `KIND_CATEGORIES`, at the kinds the projection appends. -/
def HrcEventKind.category : HrcEventKind → Option HrcEventCategory
  | turnAccepted | turnStarted | turnUserPrompt | turnMessage | turnToolCall | turnToolResult => some .turn
  | turnCompleted | turnReaped | turnAwaitingInput | turnInputResumed => some .turn
  | brokerDiagnostic | providerTranscriptWarning | runtimeContextUpdated => some .runtime
  | runtimeCaptureStateChanged | runtimeCaptureReleased | firstTurnMissingLateStart => some .runtime
  | inputLanded | inputTerminal | inputCorrelation => some .input
  | other _ => none

structure HrcLifecycleEventInput where
  ts : String
  hostSessionId : String
  scopeRef : String
  laneRef : String
  generation : Nat
  runtimeId : Option String := none
  runId : Option String := none
  transport : Option Transport := none
  errorCode : Option HrcErrorCode := none
  evidenceOrigin : Option EvidenceOrigin := none
  payload : Json := .obj .nil

/-- An `hrc_events` row. -/
structure HrcLifecycleEvent extends HrcLifecycleEventInput where
  hrcSeq : Nat
  streamSeq : Nat
  category : HrcEventCategory
  eventKind : HrcEventKind

structure HrcRuntimeBufferRecord where
  runtimeId : String
  runId : String
  chunkSeq : Nat
  text : String
  createdAt : String

structure HrcRuntimeArtifactRecord where
  artifactId : String
  operationId : String
  artifactKind : String
  mediaType : String
  storageKind : String
  contentHash : String
  artifactPath : String
  artifactJson : Json
  createdAt : String
  deriving DecidableEq

inductive ToolResultBlobKind where
  | brokerRaw | lifecycleCanonical
  deriving DecidableEq

def ToolResultBlobKind.text : ToolResultBlobKind → String
  | brokerRaw => "broker_raw"
  | lifecycleCanonical => "lifecycle_canonical"

structure ToolResultBlobRecord where
  blobId : String
  runtimeId : String
  kind : ToolResultBlobKind
  bytes : Nat
  complete : Bool := true
  resultJson : Json

/-- A `sessions` row, as far as projection writes it. -/
structure HrcSessionRecord where
  hostSessionId : String
  scopeRef : String := ""
  laneRef : String := ""
  generation : Nat := 0
  continuationJson : Option Json := none
  continuationReuseDisabled : Bool := false
  updatedAt : String := ""

structure HrcSurfaceBindingRecord where
  surfaceKind : String
  surfaceId : String
  hostSessionId : String
  runtimeId : String
  generation : Nat
  paneId : Option String := none
  boundAt : String

/-- A `runtime_first_turn_watch` row. -/
structure HrcFirstTurnWatchRecord where
  runtimeId : String
  generation : Nat
  firstTurnAt : Option String := none
  firstTurnMissingTrippedAt : Option String := none
  disarmedAt : Option String := none
  disarmReason : Option String := none
  tripEventSeq : Option Nat := none
  updatedAt : String := ""

inductive ParticipantAttemptState where
  | registered | identityMinted | prepared | hostingIntentPersisted | realized | dispatchFrozen
  | installConfirmed | invocationReady | attachConfirmed | active | detached
  | superseded | abandoned | terminal
  deriving DecidableEq

namespace ParticipantAttemptState

/-- `participantAttemptTransitions`. -/
def transitions : ParticipantAttemptState → List ParticipantAttemptState
  | registered => [identityMinted]
  | identityMinted => [prepared, abandoned]
  | prepared => [hostingIntentPersisted, abandoned]
  | hostingIntentPersisted => [realized, abandoned]
  | realized => [dispatchFrozen, abandoned]
  | dispatchFrozen => [installConfirmed, abandoned]
  | installConfirmed => [invocationReady, abandoned]
  | invocationReady => [attachConfirmed, abandoned, terminal]
  | attachConfirmed => [abandoned, terminal]
  | active => [detached, abandoned, terminal]
  | detached => [attachConfirmed, abandoned, terminal]
  | superseded | abandoned | terminal => []

/-- `['SUPERSEDED', 'ABANDONED', 'TERMINAL'].includes(state)`. -/
def isSettled : ParticipantAttemptState → Bool
  | superseded | abandoned | terminal => true
  | _ => false

end ParticipantAttemptState

def allowsParticipantAttemptTransition (start finish : ParticipantAttemptState)
    (dispositionReason : Option String) : Bool :=
  start.transitions.contains finish &&
    match finish with
    | .abandoned | .terminal => dispositionReason.isSome
    | _ => true

structure ParticipantAttempt where
  attemptId : String
  registrationId : String
  attachEpoch : Nat := 1
  invocationId : String
  state : ParticipantAttemptState
  dispositionReason : Option String := none
  updatedAt : String := ""

end HrcRuntime.Records
