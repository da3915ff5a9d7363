import HrcRuntime.StateProjection

namespace HrcRuntime.ProjectEnvelope

open Json Records Database Program Mapper EventRepository Repositories Context RunResolution
open RuntimeState LifecyclePayload ContextReading Format2Input MessageProjection StateProjection

structure BrokerProjectionResult where
  ignoredDelta : Bool := false
  idempotent : Bool
  brokerEvent : HrcBrokerInvocationEventRecord
  lifecycleEvents : List HrcLifecycleEvent := []
  captureStateRefresh : Bool := false

def isIgnoredBrokerDelta (envelope : InvocationEventEnvelope) : Bool := envelope.type.isDelta

def shouldPersistBrokerEvent (envelope : InvocationEventEnvelope) : Bool := !isIgnoredBrokerDelta envelope

def requestsCaptureStateRefresh (envelope : InvocationEventEnvelope) : Bool :=
  match envelope.type with
  | .captureReleased => true
  | .captureWarning => envelope.payload.member "kind" == some (.str "blocked_unknown")
  | _ => false

def providerTranscriptArtifactKind : String := "provider-transcript-jsonl"

def providerTranscriptPayload (envelope : InvocationEventEnvelope) : Option Json :=
  if !envelope.payload.isRecord then none
  else match envelope.type with
    | .providerTranscriptReported => some envelope.payload
    | .artifactReported =>
      if templateText (envelope.payload.member "kind") == providerTranscriptArtifactKind then some envelope.payload
      else none
    | _ => none

def isAbsolute (path : String) : Bool := path.toList.head? == some '/'

def envelopeWithWriteTimeRepairCorrelation (db : Db) (envelope : InvocationEventEnvelope)
    (runId : Option String) : InvocationEventEnvelope :=
  match envelope.correlation, runId with
  | none, some runId =>
    match RunRepository.getCorrelationJson db runId with
    | some correlation =>
      if correlation.stringField "kind" == some "json_repair"
          && correlation.stringField "repairRunId" == some runId then
        { envelope with correlation := some correlation }
      else envelope
    | none => envelope
  | _, _ => envelope

structure Resolution where
  now : String
  invocation : HrcBrokerInvocationRecord
  runtime : HrcRuntimeSnapshot
  format2TurnStart : Option Format2TurnStart
  ctx : ProjectionContext
  persistedEnvelope : InvocationEventEnvelope

structure Projection extends Resolution where
  projectionEnvelopeHash : String
  appended : Option BrokerInvocationEventAppendResult

def Projection.brokerEvent (p : Projection) : HrcBrokerInvocationEventRecord :=
  match p.appended with
  | some appended => appended.record
  | none =>
    let envelope := p.persistedEnvelope
    { invocationId := envelope.invocationId, seq := envelope.seq, time := envelope.time, type := envelope.type
      runtimeId := p.ctx.runtimeId, runId := p.ctx.runId, harnessGeneration := envelope.harnessGeneration
      turnAttempt := envelope.turnAttempt, brokerEventJson := envelope.payload
      brokerEnvelopeJson := some envelope.toEnvelopeHead }

def Projection.dispositionRow (p : Projection) (disposition : Disposition) : BrokerProjectionDisposition :=
  { invocationId := p.persistedEnvelope.invocationId, seq := p.persistedEnvelope.seq
    envelopeHash := p.projectionEnvelopeHash, disposition, createdAt := p.now }

def settledDisposition (appended : BrokerInvocationEventAppendResult) : Option Disposition :=
  if !appended.idempotent then none
  else match appended.record.projectionStatus with
    | .applied => some .applied
    | .skippedFenced => some .skippedFenced
    | _ => none

def fenceError (run : HrcRunRecord) : Option String :=
  run.brokerInputFencedAt.map fun fencedAt => run.brokerInputFenceReason.getD s!"broker input fenced at {fencedAt}"

inductive Verdict where
  | conflict | replayed
  | settled (disposition : Disposition)
  | fenced (error : String)
  | fresh

def verdict (db : Db) (p : Projection) : Verdict :=
  match getProjectionDisposition db p.persistedEnvelope.invocationId p.persistedEnvelope.seq with
  | some prior => if prior.envelopeHash != p.projectionEnvelopeHash then .conflict else .replayed
  | none =>
    if p.persistedEnvelope.seq ≤ p.invocation.lastProjectedSeq then .replayed
    else match p.appended.bind settledDisposition with
      | some disposition => .settled disposition
      | none =>
        match p.ctx.runId.bind fun runId => (RunRepository.getByRunId db runId).bind fenceError with
        | some error => .fenced error
        | none => .fresh

def isParticipantFenced (db : Db) (invocationId : String) : Bool :=
  match getAttemptByInvocationId db invocationId with
  | none => false
  | some attempt =>
    (getAttemptByRegistrationId db attempt.registrationId).map (·.attemptId) != some attempt.attemptId
      || attempt.state.isSettled

def acceptedRunNeverStartedReason : String := "accepted_run_never_started"

def withdrawnAcceptedRun (db : Db) (envelope : InvocationEventEnvelope) (ctx : ProjectionContext) :
    Option (HrcRunRecord × String) := do
  let submissionId ← extractSubmissionIdFromPayload envelope
  if envelope.payload.stringField "reason" != some acceptedRunNeverStartedReason || submissionId.isEmpty then none
  else
    let run ← (ctx.runId.bind (RunRepository.getByRunId db)).or (RunRepository.getByBrokerSubmissionId db submissionId)
    if Write.isWithdrawnAccepted run.runId ctx.runtimeId envelope.invocationId submissionId run then
      some (run, submissionId)
    else none

def historicalGeneration (db : Db) (invocation : HrcBrokerInvocationRecord) (runtime : HrcRuntimeSnapshot) : Nat :=
  match getByOperationId db invocation.operationId with
  | some operation => if operation.runtimeId == invocation.runtimeId then operation.generation else runtime.generation
  | none => runtime.generation

def contextOf (invocation : HrcBrokerInvocationRecord) (runtime : HrcRuntimeSnapshot) (generation : Nat)
    (runId : Option String) (retained : Bool) : ProjectionContext :=
  { runtimeId := runtime.runtimeId, hostSessionId := runtime.hostSessionId, scopeRef := runtime.scopeRef
    laneRef := runtime.laneRef, generation, transport := lifecycleTransportFromRuntime runtime.transport
    operationId := invocation.operationId, runId, evidenceOrigin := if retained then some .retained else none }

def appendInput (r : Resolution) : BrokerInvocationEventAppendInput :=
  let envelope := r.persistedEnvelope
  { invocationId := envelope.invocationId, seq := envelope.seq, time := envelope.time, type := envelope.type
    runtimeId := r.ctx.runtimeId, runId := r.ctx.runId, harnessGeneration := envelope.harnessGeneration
    turnAttempt := envelope.turnAttempt, payload := envelope.payload, evidenceOrigin := r.ctx.evidenceOrigin
    envelopeJson := envelope.toEnvelopeHead }

variable [Host]

def resolve (envelope : InvocationEventEnvelope) : M Resolution := do
  let now ← Mapper.now
  let invocation ← query (getByInvocationId · envelope.invocationId)
  let invocation ← requireRecord invocation s!"broker invocation not found for event: {envelope.invocationId}"
  let runtime ← query (getByRuntimeId · invocation.runtimeId)
  let runtime ← requireRecord runtime s!"runtime not found for broker invocation: {invocation.runtimeId}"
  let generation ← query (historicalGeneration · invocation runtime)
  let format2TurnStart ← prepareFormat2TurnStart envelope invocation runtime generation now
  let retained ← Prog.read fun s : BrokerEventMapper => s.retainedProjection
  let runId ← query fun db =>
    (format2TurnStart.map (·.runId)).or (resolveRunIdForEvent db retained envelope invocation runtime)
  let persistedEnvelope ← query (envelopeWithWriteTimeRepairCorrelation · envelope runId)
  pure { now, invocation, runtime, format2TurnStart, persistedEnvelope
         ctx := contextOf invocation runtime generation runId retained }

def appendBrokerEvent (r : Resolution) : M (Option BrokerInvocationEventAppendResult) :=
  if shouldPersistBrokerEvent r.persistedEnvelope then do
    let appended ← appendEvent (appendInput r)
    pure (some appended)
  else pure none

def prepare (envelope : InvocationEventEnvelope) : M Projection := do
  let r ← resolve envelope
  let appended ← appendBrokerEvent r
  pure { r with projectionEnvelopeHash := Host.envelopeHash r.persistedEnvelope, appended }

def commitDisposition (p : Projection) (disposition : Disposition) : M Unit := do
  recordProjectionDisposition (p.dispositionRow disposition)
  let _ ← advanceContiguousProjectionCursor p.persistedEnvelope.invocationId p.now
  pure ()

def recordProviderTranscriptArtifactWarning (envelope : InvocationEventEnvelope) (ctx : ProjectionContext)
    (now reason : String) (artifactPath : Option String) : M Unit := do
  let _ ← HrcEvents.append .providerTranscriptWarning
    { eventInput ctx now (Json.object [("invocationId", some (.str envelope.invocationId)),
        ("seq", some (.ofNat envelope.seq)), ("type", some (.str envelope.type.text)), ("reason", some (.str reason)),
        ("artifactPath", artifactPath.map Json.str)]) with
      transport := none }
  pure ()

def providerTranscriptMetadata (p : Projection) (payload : Json) : Json :=
  let envelope := p.persistedEnvelope
  let reported := (payload.member "harnessGeneration").filter fun v => v.asNum.isSome
  Json.object [("schema", some (.str "hrc.provider-transcript-artifact/v1")),
    ("sourceSchema", some (.str Host.providerTranscriptSchema)),
    ("invocationId", some (.str envelope.invocationId)), ("runtimeId", some (.str p.runtime.runtimeId)),
    ("runId", p.ctx.runId.map Json.str), ("provider", (payload.stringField "provider").map Json.str),
    ("brokerDriver", some (.str p.invocation.brokerDriver)),
    ("harnessGeneration", some (reported.getD (.ofNat (envelope.harnessGeneration.getD p.runtime.generation)))),
    ("brokerSeq", some (.ofNat envelope.seq)), ("hashAlg", some (.str "sha256")),
    ("hashObs", some (.str (envelope.time.getD p.now)))]

def providerTranscriptArtifact (p : Projection) (payload : Json) (artifactPath bytes : String) :
    HrcRuntimeArtifactRecord :=
  let invocationId := p.persistedEnvelope.invocationId
  let seq := p.persistedEnvelope.seq
  { artifactId := s!"provider-transcript:{invocationId}:{seq}", operationId := p.invocation.operationId
    artifactKind := providerTranscriptArtifactKind, mediaType := "application/x-ndjson", storageKind := "file-path"
    contentHash := "sha256:" ++ Host.sha256 bytes, artifactPath, artifactJson := providerTranscriptMetadata p payload
    createdAt := p.persistedEnvelope.time.getD p.now }

def persistProviderTranscriptArtifact (p : Projection) : M Unit :=
  match providerTranscriptPayload p.persistedEnvelope with
  | none => pure ()
  | some payload =>
    let warn (reason : String) (artifactPath : Option String) : M Unit :=
      recordProviderTranscriptArtifactWarning p.persistedEnvelope p.ctx p.now reason artifactPath
    match (payload.stringField "artifactPath").or (payload.stringField "path") with
    | none => warn "invalid_path" none
    | some artifactPath =>
      if isAbsolute artifactPath then do
        let bytes ← readFileSync artifactPath
        match bytes with
        | none => warn "unreadable_path" (some artifactPath)
        | some bytes => Artifacts.insertIdempotent (providerTranscriptArtifact p payload artifactPath bytes)
      else warn "invalid_path" (some artifactPath)

/-- `terminalizeWithdrawnAcceptedRun`: an exact withdrawal fails its accepted run and clears the
runtime only where that run still owns it. -/
def terminalizeWithdrawnAcceptedRun (envelope : InvocationEventEnvelope) (ctx : ProjectionContext) (now : String) :
    M (Option HrcLifecycleEvent) := do
  let withdrawn ← query (withdrawnAcceptedRun · envelope ctx)
  match withdrawn with
  | none => pure none
  | some (run, submissionId) => do
      statement (.failWithdrawnRun run.runId ctx.runtimeId envelope.invocationId submissionId now)
      statement (.clearActiveRun ctx.runtimeId run.runId now)
      let transport := match run.transport with
        | .other _ => none
        | transport => some transport
      let e ← HrcEvents.append .turnReaped
        { ts := now, hostSessionId := run.hostSessionId, scopeRef := run.scopeRef, laneRef := run.laneRef
          generation := run.generation, runId := some run.runId, runtimeId := some ctx.runtimeId, transport
          errorCode := some .runAcceptedNeverStarted
          payload := Json.object [("runId", some (.str run.runId)), ("runtimeId", some (.str ctx.runtimeId)),
            ("invocationId", some (.str envelope.invocationId)), ("submissionId", some (.str submissionId)),
            ("reason", some (.str acceptedRunNeverStartedReason)), ("finalizedRunStatus", some (.str "failed")),
            ("source", some (.str "accepted-run-recovery"))] }
      pure (some e)

def projectByMode (p : Projection) (stale participantFenced : Bool) : M (List DerivedTurnDescriptor) :=
  match p.ctx.evidenceOrigin with
  | some .retained => do
      projectRetainedState p.persistedEnvelope p.ctx p.now stale
      pure []
  | none => projectState p.persistedEnvelope p.ctx p.now stale participantFenced

def emitCanonical (p : Projection) (stale : Bool) : M (Option HrcLifecycleEvent) :=
  if stale then pure none
  else do
    let retryable ← isRetryableInvocationFailure p.persistedEnvelope
    if retryable then pure none else emitLifecycleEvent p.persistedEnvelope p.ctx p.now

def emitContextReading (p : Projection) (stale : Bool) : M (Option HrcLifecycleEvent) :=
  if stale || p.ctx.evidenceOrigin.isSome then pure none
  else projectContextReading p.persistedEnvelope p.ctx p.now

def finalizeMinted (p : Projection) (stale : Bool) (lifecycleEvent : Option HrcLifecycleEvent) : M Unit :=
  match p.format2TurnStart.filter fun start => !stale && start.minted with
  | none => pure ()
  | some start => finalizeFormat2TurnStart start p.ctx lifecycleEvent p.now

def emitWithdrawn (p : Projection) (stale : Bool) : M (Option HrcLifecycleEvent) :=
  if !stale && p.persistedEnvelope.type == .submissionWithdrawn then
    terminalizeWithdrawnAcceptedRun p.persistedEnvelope p.ctx p.now
  else pure none

def projectFresh (p : Projection) : M BrokerProjectionResult := do
  Prog.modify fun s => { s with pendingLateStartEvents := [], pendingInputEvents := [] }
  let participantFenced ← query (isParticipantFenced · p.persistedEnvelope.invocationId)
  let stale := participantFenced || isStaleLifecycleEnvelope p.persistedEnvelope.toEnvelopeHead p.invocation
  persistProviderTranscriptArtifact p
  let descriptors ← projectByMode p stale participantFenced
  let lifecycleEvent ← emitCanonical p stale
  let contextReadingEvent ← emitContextReading p stale
  finalizeMinted p stale lifecycleEvent
  let withdrawnRecoveryEvent ← emitWithdrawn p stale
  let derived ← Prog.mapEach descriptors (emitDerivedTurnEvent p.persistedEnvelope p.ctx p.now)
  Prog.when p.appended.isSome
    (updateProjection p.persistedEnvelope.invocationId p.persistedEnvelope.seq .applied)
  commitDisposition p .applied
  let lifecycleEvents ← Prog.read fun s : BrokerEventMapper =>
    lifecycleEvent.toList ++ contextReadingEvent.toList ++ withdrawnRecoveryEvent.toList ++ s.pendingInputEvents
      ++ derived ++ s.pendingLateStartEvents
  pure { idempotent := false, brokerEvent := p.brokerEvent, lifecycleEvents
         captureStateRefresh := requestsCaptureStateRefresh p.persistedEnvelope }

def projectVerdict (p : Projection) : Verdict → M BrokerProjectionResult
  | .conflict =>
    Prog.throw (.brokerInvocationEventConflict p.persistedEnvelope.invocationId p.persistedEnvelope.seq)
  | .replayed => pure { idempotent := true, brokerEvent := p.brokerEvent }
  | .settled disposition => do
      commitDisposition p disposition
      pure { idempotent := true, brokerEvent := p.brokerEvent }
  | .fenced error => do
      Prog.when p.appended.isSome
        (updateProjection p.persistedEnvelope.invocationId p.persistedEnvelope.seq .skippedFenced (some error))
      commitDisposition p .skippedFenced
      pure { idempotent := false, brokerEvent := p.brokerEvent }
  | .fresh => projectFresh p

def project (envelope : InvocationEventEnvelope) : M BrokerProjectionResult := do
  let p ← prepare envelope
  let v ← query (verdict · p)
  projectVerdict p v

end HrcRuntime.ProjectEnvelope
