import HrcRuntime.ProjectEnvelope

namespace HrcRuntime.EventMapper

open Records Database Program Mapper EventRepository Repositories ProjectEnvelope

def captureWarningLogIntervalMs : Int := 60000

def cursors (retained : Bool) (s : BrokerEventMapper) : String → Option PendingDelta :=
  if retained then s.retainedIgnoredDeltaCursors else s.ignoredDeltaCursors

def setCursor (retained : Bool) (invocationId : String) (pending : Option PendingDelta) (s : BrokerEventMapper) :
    BrokerEventMapper :=
  if retained then
    { s with retainedIgnoredDeltaCursors := Function.update s.retainedIgnoredDeltaCursors invocationId pending }
  else { s with ignoredDeltaCursors := Function.update s.ignoredDeltaCursors invocationId pending }

def cursorOf (retained : Bool) (invocation : HrcBrokerInvocationRecord) : Nat :=
  if retained then invocation.retainedProjectedThroughSeq.getD invocation.lastProjectedSeq
  else invocation.lastProjectedSeq

def deltaBase (invocationId : String) (retained : Bool) : M (String × Nat) := do
  let pending ← Prog.read fun s => cursors retained s invocationId
  match pending with
  | some pending => pure (pending.runtimeId, pending.throughSeq)
  | none => do
      let invocation ← query (getByInvocationId · invocationId)
      let invocation ← requireRecord invocation s!"broker invocation not found for event: {invocationId}"
      let runtime ← query (getByRuntimeId · invocation.runtimeId)
      let _ ← requireRecord runtime s!"runtime not found for broker invocation: {invocation.runtimeId}"
      pure (invocation.runtimeId, cursorOf retained invocation)

def rawDeltaGap (envelope : InvocationEventEnvelope) (cursor : Nat) : String :=
  let invocationId := envelope.invocationId
  let expected := cursor + 1
  let received := envelope.seq
  s!"raw delta gap for {invocationId}: expected {expected}, received {received}"

def extendRange (envelope : InvocationEventEnvelope) (retained : Bool) (runtimeId : String) (cursor : Nat) : M Unit :=
  if cursor + 1 < envelope.seq then fail (rawDeltaGap envelope cursor)
  else Prog.when (envelope.seq == cursor + 1)
    (Prog.modify (setCursor retained envelope.invocationId (some { throughSeq := envelope.seq, runtimeId })))

def ignoreRawDelta (envelope : InvocationEventEnvelope) (retained : Bool) : M BrokerProjectionResult := do
  let base ← deltaBase envelope.invocationId retained
  extendRange envelope retained base.1 base.2
  pure { ignoredDelta := true, idempotent := true
         brokerEvent :=
           { invocationId := envelope.invocationId, seq := envelope.seq, time := envelope.time
             type := envelope.type, runtimeId := base.1, brokerEventJson := envelope.payload
             brokerEnvelopeJson := some envelope.toEnvelopeHead } }

variable [Host]

def foldWrite (retained : Bool) (invocationId : String) (throughSeq : Nat) (updatedAt : String) : Write :=
  if retained then .setRetainedSeq invocationId throughSeq (some updatedAt)
  else .setProjectedSeq invocationId throughSeq updatedAt

def flushIgnoredDeltasInTransaction (invocationId : String) (retained : Bool) : M Nat := do
  let pending ← Prog.read fun s => cursors retained s invocationId
  let invocation ← query (getByInvocationId · invocationId)
  let invocation ← requireRecord invocation s!"broker invocation not found for event: {invocationId}"
  let cursor := cursorOf retained invocation
  match pending.filter fun pending => decide (cursor < pending.throughSeq) with
  | none => pure cursor
  | some pending => do
      let updatedAt ← now
      statement (foldWrite retained invocationId pending.throughSeq updatedAt)
      pure pending.throughSeq

def flushIgnoredDeltas (invocationId : String) (retained : Bool) : M Nat := do
  let pending ← Prog.read fun s => cursors retained s invocationId
  match pending with
  | none => query fun db => ((getByInvocationId db invocationId).map (cursorOf retained)).getD 0
  | some _ => do
      let throughSeq ← transaction (flushIgnoredDeltasInTransaction invocationId retained)
      Prog.modify (setCursor retained invocationId none)
      pure throughSeq

def logWhenDue (key : List String) (invocationId : String) (loggedAt : Int) : M Unit := do
  let previous ← Prog.read fun s : BrokerEventMapper => s.captureWarningLogState key
  let same := previous.filter fun previous => previous.invocationId == invocationId
  let count := (same.map (·.count)).getD 0 + 1
  let recent := same.filter fun previous => decide (loggedAt - previous.lastLoggedAt < captureWarningLogIntervalMs)
  let lastLoggedAt := (recent.map (·.lastLoggedAt)).getD loggedAt
  Prog.modify fun s =>
    { s with captureWarningLogState :=
        Function.update s.captureWarningLogState key (some { invocationId, lastLoggedAt, count }) }
  Prog.when recent.isNone (serverLog "broker.capture_blocked_unknown")

def logBlockedUnknownCaptureWarning (envelope : InvocationEventEnvelope) : M Unit :=
  match envelope.type with
  | .captureWarning => do
      let kind ← property envelope.payload "kind"
      let raw := (envelope.payload.member "raw").filter fun raw =>
        kind == some (.str "blocked_unknown") && raw.isRecord
      let invocation ← query fun db => raw.bind fun _ => getByInvocationId db envelope.invocationId
      let runtime ← query fun db => invocation.bind fun invocation => getByRuntimeId db invocation.runtimeId
      match raw, runtime with
      | some raw, some runtime => do
          let native := (envelope.provenance.bind (·.stringField "nativeType")).getD "unknown"
          let loggedAt ← rateLimitNow
          logWhenDue [runtime.runtimeId, (raw.stringField "nativeType").getD native,
            (raw.stringField "family").getD "unknown"] envelope.invocationId loggedAt
      | _, _ => pure ()
  | _ => pure ()

def rethrowRestoring {α : Type} (chunkSeqSnapshot : String → Option Nat) (m : M α) : M α :=
  Prog.catchWith m fun error => do
    Prog.modify fun s => { s with nextBufferChunkSeqByRunId := chunkSeqSnapshot }
    Prog.throw error

def projectLive (envelope : InvocationEventEnvelope) : M BrokerProjectionResult := do
  let _ ← flushIgnoredDeltasInTransaction envelope.invocationId false
  project envelope

def finishLive (envelope : InvocationEventEnvelope) (result : BrokerProjectionResult) : M BrokerProjectionResult := do
  Prog.modify (setCursor false envelope.invocationId none)
  Prog.when (!result.idempotent) (logBlockedUnknownCaptureWarning envelope)
  pure result

def apply (envelope : InvocationEventEnvelope) : M BrokerProjectionResult :=
  if isIgnoredBrokerDelta envelope then ignoreRawDelta envelope false
  else do
    let chunkSeqSnapshot ← Prog.read fun s : BrokerEventMapper => s.nextBufferChunkSeqByRunId
    rethrowRestoring chunkSeqSnapshot (transaction (projectLive envelope) >>= finishLive envelope)

def recordRetainedHighWater (envelope : InvocationEventEnvelope) : M Unit := do
  let projected ← query fun db =>
    ((getByInvocationId db envelope.invocationId).bind (·.retainedProjectedThroughSeq)).getD 0
  statement (.setRetainedSeq envelope.invocationId (max projected envelope.seq) none)

def projectWithHighWater (envelope : InvocationEventEnvelope) : M BrokerProjectionResult := do
  let result ← project envelope
  Prog.when (!result.idempotent) (recordRetainedHighWater envelope)
  pure result

def projectRetained (envelope : InvocationEventEnvelope) : M BrokerProjectionResult := do
  let _ ← flushIgnoredDeltasInTransaction envelope.invocationId true
  Prog.modify fun s => { s with retainedProjection := true }
  Prog.ensuring (projectWithHighWater envelope) fun s => { s with retainedProjection := false }

def finishRetained (envelope : InvocationEventEnvelope) (result : BrokerProjectionResult) :
    M BrokerProjectionResult := do
  Prog.modify (setCursor true envelope.invocationId none)
  pure result

def applyRetained (envelope : InvocationEventEnvelope) : M BrokerProjectionResult :=
  if isIgnoredBrokerDelta envelope then ignoreRawDelta envelope true
  else do
    let chunkSeqSnapshot ← Prog.read fun s : BrokerEventMapper => s.nextBufferChunkSeqByRunId
    rethrowRestoring chunkSeqSnapshot (transaction (projectRetained envelope) >>= finishRetained envelope)

end HrcRuntime.EventMapper
