import HrcRuntime.TurnProjection

namespace HrcRuntime.StateProjection

open Json Records Database Program Mapper EventRepository Repositories Ownership Context
open RuntimeState Format2Input MessageProjection TurnProjection

def invocationTerminalState : EventType → Option InvocationState
  | .invocationExited => some .exited
  | .invocationFailed => some .failed
  | .invocationDisposed => some .disposed
  | _ => none

def isRetryableInvocationFailure (envelope : InvocationEventEnvelope) : M Bool :=
  match envelope.type with
  | .invocationFailed => do
      let retryable ← property envelope.payload "retryable"
      pure (retryable == some (.bool true))
  | _ => pure false

def retriesFailure (envelope : InvocationEventEnvelope) : Bool :=
  envelope.type == .invocationFailed && envelope.payload.member "retryable" == some (.bool true)

def lifecycleTerminalReason (envelope : InvocationEventEnvelope) : M (Option String) :=
  match envelope.type with
  | .invocationExited => do
      let reason ← property envelope.payload "reason"
      bindText (nullish reason (some (.str "process-exit")))
  | .invocationFailed => do
      let reason ← property envelope.payload "reason"
      bindText (nullish (nullish reason (envelope.payload.member "code")) (some (.str "failed")))
  | _ => do
      let invocation ← query (getByInvocationId · envelope.invocationId)
      pure (if (invocation.bind (·.lifecycleTerminalReason)).isNone then some "disposed" else none)

variable [Host]

def recordInvocationTerminal (envelope : InvocationEventEnvelope) (now : String) : M Unit :=
  match invocationTerminalState envelope.type with
  | none => pure ()
  | some state => do
      let reason ← lifecycleTerminalReason envelope
      Invocations.update envelope.invocationId
        { invocationState := some state, lifecycleTerminalReason := reason, updatedAt := some now }

def endInvocation (envelope : InvocationEventEnvelope) (ctx : ProjectionContext) (now : String) : M Unit := do
  failUnresolvedAbsorbedAuxiliaries ctx.runtimeId envelope.invocationId now
  recordInvocationTerminal envelope now

def settleParticipant (envelope : InvocationEventEnvelope) (now : String) : M Unit := do
  let attempt ← query (getAttemptByInvocationId · envelope.invocationId)
  match attempt.filter fun attempt => !attempt.state.isSettled with
  | none => pure ()
  | some attempt =>
    Participants.transitionAttempt attempt.attemptId [attempt.state] .terminal now
      (some ("producer-terminal:"
        ++ templateText (nullish (envelope.payload.member "reason") (some (.str "process-exit")))))

def recordInvocationCorrelation (envelope : InvocationEventEnvelope) (ctx : ProjectionContext)
    (fact : CorrelationFact) (now : String) : M Unit := do
  let format2 ← query (isFormat2 · envelope.invocationId)
  Prog.when format2 (recordFormat2InvocationCorrelation envelope ctx fact now)

def projectExited (envelope : InvocationEventEnvelope) (ctx : ProjectionContext) (now : String) : M Unit := do
  endInvocation envelope ctx now
  settleParticipant envelope now
  FirstTurn.disarmFirstTurnWatch ctx.runtimeId ctx.generation
    ("invocation_exited:" ++ templateText (nullish (envelope.payload.member "reason") (some (.str "process-exit"))))
    (envelope.time.getD now)
  recordInvocationCorrelation envelope ctx .invocationExited now

def projectFailed (envelope : InvocationEventEnvelope) (ctx : ProjectionContext) (now : String) : M Unit := do
  let retryable ← isRetryableInvocationFailure envelope
  Prog.when (!retryable) do
    endInvocation envelope ctx now
    recordInvocationCorrelation envelope ctx .invocationFailed now

def setInvocationState (envelope : InvocationEventEnvelope) (state : InvocationState) (now : String) : M Unit :=
  Invocations.update envelope.invocationId { invocationState := some state, updatedAt := some now }

def projectInvocationLifecycle (envelope : InvocationEventEnvelope) (ctx : ProjectionContext) (now : String) :
    M Unit :=
  match envelope.type with
  | .invocationStarted => do
      let activity ← query (Runtimes.runtimeActivityPatch · ctx.runtimeId (envelope.time.getD now) now)
      Runtimes.update ctx.runtimeId
        { activity with
          activeInvocationId := some envelope.invocationId, activeOperationId := some ctx.operationId }
      setInvocationState envelope .starting now
  | .invocationReady => setInvocationState envelope .ready now
  | .invocationStopping => setInvocationState envelope .stopping now
  | .invocationExited => projectExited envelope ctx now
  | .invocationFailed => projectFailed envelope ctx now
  | .invocationDisposed => endInvocation envelope ctx now
  | _ => pure ()

/-- `lastLifecycleEscalationJson` of an escalation. -/
def escalationJson (payload : Json) : Json :=
  Json.object (["reason", "requestedAction", "harnessGeneration", "inputId", "turnId", "turnAttempt",
    "policyHash"].map fun key => (key, payload.member key))

def recoveryFailureJson (payload : Json) : Json :=
  Json.object (["reason", "requestedAction", "fromGeneration"].map fun key => (key, payload.member key))

def assertPolicyHash (invocation : Option HrcBrokerInvocationRecord) (invocationId : String)
    (policyHash : Option Json) : M Unit :=
  match invocation.bind (·.lifecyclePolicyHash) with
  | none => pure ()
  | some expected =>
    if policyHash == some (.str expected) then pure ()
    else fail s!"accepted lifecycle policy hash mismatch for {invocationId}: expected {expected}, got {templateText policyHash}"

def recordEscalation (envelope : InvocationEventEnvelope) (json : Json) (now : String) : M Unit :=
  Invocations.update envelope.invocationId { lastLifecycleEscalationJson := some json, updatedAt := some now }

def projectLifecyclePolicy (envelope : InvocationEventEnvelope) (ctx : ProjectionContext) (now : String) :
    M Unit :=
  let invocationId := envelope.invocationId
  let occurredAt := envelope.time.getD now
  match envelope.type with
  | .lifecyclePolicyAccepted => do
      let invocation ← query (getByInvocationId · invocationId)
      let policyHash ← property envelope.payload "policyHash"
      assertPolicyHash invocation invocationId policyHash
      touchRuntime ctx.runtimeId occurredAt now
      let lifecyclePolicyHash ← bindText policyHash
      Invocations.update invocationId { lifecyclePolicyHash, updatedAt := some now }
  | .lifecycleEscalation => do
      let _ ← property envelope.payload "reason"
      recordEscalation envelope (escalationJson envelope.payload) now
  | .harnessStarted => do
      let generation ← property envelope.payload "generation"
      updateLifecyclePosition invocationId ctx.runtimeId occurredAt now generation none
  | .harnessExited => do
      let reason ← property envelope.payload "reason"
      let lifecycleTerminalReason ← bindText reason
      Invocations.update invocationId { lifecycleTerminalReason, updatedAt := some now }
  | .harnessRecoveryCompleted => do
      let toGeneration ← property envelope.payload "toGeneration"
      updateLifecyclePosition invocationId ctx.runtimeId occurredAt now toGeneration none
  | .harnessRecoveryFailed => do
      let _ ← property envelope.payload "reason"
      recordEscalation envelope (recoveryFailureJson envelope.payload) now
  | _ => pure ()

def projectLiveState (envelope : InvocationEventEnvelope) (ctx : ProjectionContext) (now : String) :
    M (List DerivedTurnDescriptor) :=
  let quietly (m : M Unit) : M (List DerivedTurnDescriptor) := m >>= fun _ => pure []
  match envelope.type with
  | .invocationStarted | .invocationReady | .invocationStopping | .invocationExited | .invocationFailed
  | .invocationDisposed => quietly (projectInvocationLifecycle envelope ctx now)
  | .lifecyclePolicyAccepted | .lifecycleEscalation | .harnessStarted | .harnessExited | .harnessRecoveryStarted
  | .harnessRecoveryCompleted | .harnessRecoveryFailed => quietly (projectLifecyclePolicy envelope ctx now)
  | .inputAccepted | .inputRejected | .inputQueued | .queueWithdrawn | .submissionExecuted | .submissionAbsorbed
  | .submissionRejected | .submissionExpired | .submissionWithdrawn | .submissionCancelled | .submissionLost
  | .turnStarted | .turnAttributed | .turnCompleted | .turnFailed | .turnInterrupted | .turnStalled
  | .turnRetry => quietly (projectTurn envelope ctx now)
  | .assistantMessageCompleted | .assistantMessageDelta | .assistantMessageStarted =>
    quietly (projectMessage envelope ctx now)
  | .toolCallStarted | .toolCallCompleted | .toolCallFailed | .toolCallDelta => projectToolCall envelope ctx now
  | .continuationUpdated | .continuationCleared => quietly (projectContinuation envelope ctx now)
  | .terminalSurfaceReported => quietly (projectTerminalSurface envelope ctx now)
  | .usageUpdated => quietly (projectUsageReportedModel envelope ctx now)
  | _ => pure []

def projectState (envelope : InvocationEventEnvelope) (ctx : ProjectionContext) (now : String)
    (stale participantFenced : Bool) : M (List DerivedTurnDescriptor) :=
  if participantFenced then do
    recordInvocationTerminal envelope now
    pure []
  else if stale then pure []
  else projectLiveState envelope ctx now

def retainedTerminal (envelope : InvocationEventEnvelope) (occurredAt now : String) : M RunCompletion :=
  let completion (status : RunStatus) : RunCompletion := { status, completedAt := occurredAt, updatedAt := now }
  match envelope.type with
  | .turnCompleted => pure (completion .completed)
  | .turnFailed => do
      let message ← payloadText envelope "message"
      pure { completion .failed with errorMessage := message }
  | .turnInterrupted | .submissionCancelled => pure (completion .cancelled)
  | .submissionLost => do
      let reason ← payloadText envelope "reason"
      pure { completion .failed with
        errorCode := some .runtimeUnavailable, errorMessage := some (reason.getD "turn-correlation-lost") }
  | _ => do
      let reason ← payloadText envelope "reason"
      pure { completion .failed with errorMessage := reason }

def projectRetainedRunTerminal (envelope : InvocationEventEnvelope) (ctx : ProjectionContext) (now : String) :
    M Unit :=
  match ctx.runId with
  | none => pure ()
  | some runId => do
      let unsettled ← query fun db => (RunRepository.getByRunId db runId).any fun run => run.completedAt.isNone
      Prog.when unsettled do
        let completion ← retainedTerminal envelope (envelope.time.getD now) now
        RunRepository.markCompleted runId completion
      Prog.when envelope.type.isTurn (forgetBufferChunkSeq runId)

def projectRetainedTurn (envelope : InvocationEventEnvelope) (ctx : ProjectionContext) (now : String) : M Unit :=
  match envelope.type with
  | .submissionExecuted => do
      recordDisposition envelope now true
      settleOwnedTurn envelope now
  | .turnAttributed => settleOwnedTurn envelope now
  | .submissionAbsorbed => do
      recordDisposition envelope now true
      settleAbsorbed envelope now
  | .submissionRejected | .submissionExpired | .submissionCancelled | .submissionLost => do
      recordDisposition envelope now true
      projectRetainedRunTerminal envelope ctx now
  | .turnCompleted | .turnFailed | .turnInterrupted => projectRetainedRunTerminal envelope ctx now
  | .assistantMessageCompleted | .assistantMessageDelta | .assistantMessageStarted =>
    projectMessage envelope ctx now
  | _ => pure ()

def projectRetainedState (envelope : InvocationEventEnvelope) (ctx : ProjectionContext) (now : String)
    (stale : Bool) : M Unit :=
  match envelope.type with
  | .invocationExited | .invocationDisposed => endInvocation envelope ctx now
  | .invocationFailed => do
      let retryable ← isRetryableInvocationFailure envelope
      Prog.when (!retryable) (endInvocation envelope ctx now)
  | _ => if stale then pure () else projectRetainedTurn envelope ctx now

inductive InvocationEnd (envelope : InvocationEventEnvelope) : Write → Prop where
  | ended {state : InvocationState} (reason : Option String) (now : String)
      (h : invocationTerminalState envelope.type = some state) :
      InvocationEnd envelope (.updateInvocation envelope.invocationId
        { invocationState := some state, lifecycleTerminalReason := reason, updatedAt := some now })

inductive LiveWrite (base : Db) (envelope : InvocationEventEnvelope) (ctx : ProjectionContext) (db : Db) :
    Write → Prop where
  | invocation {patch : InvocationPatch} (h : PositionPatch envelope patch) :
      LiveWrite base envelope ctx db (.updateInvocation envelope.invocationId patch)
  | touch {w : Write} (h : RuntimeTouch ctx.runtimeId w) : LiveWrite base envelope ctx db w
  | settled {w : Write} (hend : (invocationTerminalState envelope.type).isSome = true) (h : Settlement db w) :
      LiveWrite base envelope ctx db w
  | fact {w : Write} (hend : (invocationTerminalState envelope.type).isSome = true) (h : InputFact db w) :
      LiveWrite base envelope ctx db w
  | aside {w : Write} (h : w.table = .participantAttempts ∨ w.table = .firstTurnWatch ∨ w.table = .sessions ∨
      w.table = .surfaceBindings ∨ w.table = .runtimeBuffers) : LiveWrite base envelope ctx db w
  | format1 {w : Write} (hformat : isFormat2 base envelope.invocationId = false)
      (h : Format1Write base envelope ctx db w) : LiveWrite base envelope ctx db w
  | format2 {w : Write} (hformat : isFormat2 base envelope.invocationId = true)
      (h : Format2Write base envelope ctx db w) : LiveWrite base envelope ctx db w

inductive RetainedWrite (base : Db) (envelope : InvocationEventEnvelope) (ctx : ProjectionContext) (stale : Bool)
    (db : Db) : Write → Prop where
  | invocation {w : Write} (h : InvocationEnd envelope w) : RetainedWrite base envelope ctx stale db w
  | unresolved {w : Write} (hend : (invocationTerminalState envelope.type).isSome = true)
      (hretry : retriesFailure envelope = false) (hs : Settlement db w)
      (h : UnresolvedEnd base ctx.runtimeId envelope.invocationId w) : RetainedWrite base envelope ctx stale db w
  | settled {w : Write} (hstale : stale = false) (h : Settlement db w) : RetainedWrite base envelope ctx stale db w
  | ended {runId : String} (updates : RunCompletion) (hstale : stale = false)
      (hkind : envelope.type.isTurnTerminal = true ∨ endsSubmission envelope.type = true)
      (hrun : ctx.runId = some runId)
      (hopen : (RunRepository.getByRunId db runId).any (fun run => run.completedAt.isNone) = true)
      (hterminal : updates.status.isRunTerminal = true) : RetainedWrite base envelope ctx stale db (.completeRun runId updates)
  | admission {w : Write} (h : w.table = .submissionAdmissions) : RetainedWrite base envelope ctx stale db w
  | buffer {w : Write} (h : w.table = .runtimeBuffers) : RetainedWrite base envelope ctx stale db w

section Rules

variable {P : Db → Write → Prop} {envelope : InvocationEventEnvelope} {ctx : ProjectionContext} {now : String}

omit [Host] in
theorem isRetryableInvocationFailure_readOnly : ReadOnly (isRetryableInvocationFailure envelope) := by
  unfold isRetryableInvocationFailure
  split
  · exact ReadOnly.bind (property_readOnly _ _) fun _ => ReadOnly.pure _
  · exact ReadOnly.pure _

omit [Host] in
theorem lifecycleTerminalReason_readOnly : ReadOnly (lifecycleTerminalReason envelope) := by
  unfold lifecycleTerminalReason
  split
  · exact ReadOnly.bind (property_readOnly _ _) fun _ => bindText_readOnly _
  · exact ReadOnly.bind (property_readOnly _ _) fun _ => bindText_readOnly _
  · exact ReadOnly.bind (query_readOnly _) fun _ => ReadOnly.pure _

theorem recordInvocationTerminal_writes (hP : ∀ db w, InvocationEnd envelope w → P db w) :
    Writes P (recordInvocationTerminal envelope now) := by
  unfold recordInvocationTerminal
  split
  · exact Emits.pure _
  · refine Emits.bind (Emits.of_readOnly lifecycleTerminalReason_readOnly) fun reason => ?_
    exact statement_writes fun db => hP _ _ (.ended _ _ ‹_›)

variable {s : BrokerEventMapper}

omit [Host] in
theorem isRetryableInvocationFailure_eq_ok {t : BrokerEventMapper} {retryable : Bool}
    (h : isRetryableInvocationFailure envelope s = (.ok retryable, t)) : retryable = retriesFailure envelope := by
  unfold isRetryableInvocationFailure at h
  unfold retriesFailure
  cases ht : envelope.type
  case invocationFailed =>
    rw [ht] at h
    obtain ⟨retryable, _, hr, hp⟩ := bind_eq_ok.mp h
    cases hp
    rw [property_eq_ok hr]
    rfl
  all_goals
    rw [ht] at h
    cases h
    rfl

theorem endInvocation_writesFrom (hs : ∀ db w, Settlement db w →
      UnresolvedEnd s.db ctx.runtimeId envelope.invocationId w → P db w)
    (he : ∀ db w, InvocationEnd envelope w → P db w) : WritesFrom P s (endInvocation envelope ctx now) :=
  EmitsFrom.bind (failUnresolvedAbsorbedAuxiliaries_writesFrom fun db w h _ => hs db w h)
    fun _ t _ _ => recordInvocationTerminal_writes he t

section Live

variable {s : BrokerEventMapper} (hP : ∀ db w, LiveWrite s.db envelope ctx db w → P db w)
include hP

theorem endInvocation_live (he : (invocationTerminalState envelope.type).isSome = true) :
    Writes P (endInvocation envelope ctx now) := by
  refine fun _ => endInvocation_writesFrom (fun db w h _ => hP db w (.settled he h)) fun db w h => ?_
  cases h
  exact hP _ _ (.invocation (.inl ⟨rfl, rfl⟩))

theorem recordInvocationCorrelation_writes {fact : CorrelationFact}
    (he : (invocationTerminalState envelope.type).isSome = true) :
    Writes P (recordInvocationCorrelation envelope ctx fact now) :=
  Emits.bind (Emits.of_readOnly (query_readOnly _)) fun _ =>
    Emits.when (recordFormat2InvocationCorrelation_writes fun db w h => hP db w (.fact he h))

theorem projectExited_writes (he : (invocationTerminalState envelope.type).isSome = true) :
    Writes P (projectExited envelope ctx now) := by
  refine Emits.bind (endInvocation_live hP he) fun _ => Emits.bind ?_ fun _ => Emits.bind ?_ fun _ => ?_
  · refine Emits.bind (Emits.of_readOnly (query_readOnly _)) fun attempt => ?_
    split
    · exact Emits.pure _
    · exact Participants.transitionAttempt_writes fun _ => hP _ _ (.aside (.inl rfl))
  · exact FirstTurn.disarmFirstTurnWatch_writes fun _ => hP _ _ (.aside (.inr (.inl rfl)))
  · exact recordInvocationCorrelation_writes hP he

theorem projectFailed_writes (he : (invocationTerminalState envelope.type).isSome = true) :
    Writes P (projectFailed envelope ctx now) := by
  refine Emits.bind (Emits.of_readOnly isRetryableInvocationFailure_readOnly) fun retryable => Emits.when ?_
  exact Emits.bind (endInvocation_live hP he) fun _ => recordInvocationCorrelation_writes hP he

theorem projectInvocationLifecycle_writes : Writes P (projectInvocationLifecycle envelope ctx now) := by
  have hst (state : InvocationState) : Writes P (setInvocationState envelope state now) :=
    statement_writes fun db => hP _ _ (.invocation (.inl ⟨rfl, rfl⟩))
  unfold projectInvocationLifecycle
  split
  · intro s'
    refine WritesFrom.query_bind ?_
    exact EmitsFrom.bind (Runtimes.update_writesFrom (hP _ _ (.touch (.touched (Runtimes.guardedPatch_activeRunId _ _)))))
      fun _ t _ _ => hst _ t
  · exact hst _
  · exact hst _
  · exact projectExited_writes hP (by rw [‹envelope.type = _›]; rfl)
  · exact projectFailed_writes hP (by rw [‹envelope.type = _›]; rfl)
  · exact endInvocation_live hP (by rw [‹envelope.type = _›]; rfl)
  · exact Emits.pure _

theorem projectLifecyclePolicy_writes : Writes P (projectLifecyclePolicy envelope ctx now) := by
  have ht : ∀ db w, RuntimeTouch ctx.runtimeId w → P db w := fun db w h => hP db w (.touch h)
  have hi : ∀ db patch, PositionPatch envelope patch → P db (.updateInvocation envelope.invocationId patch) :=
    fun db patch h => hP db _ (.invocation h)
  have hp (invocation : Option HrcBrokerInvocationRecord) (hash : Option Json) :
      ReadOnly (assertPolicyHash invocation envelope.invocationId hash) := by
    unfold assertPolicyHash
    split
    · exact ReadOnly.pure _
    · split
      · exact ReadOnly.pure _
      · exact fail_readOnly _
  have hpos {harnessGeneration : Option Json} {occurredAt : String}
      (h : (natOf harnessGeneration, none) = reportedPosition envelope) :
      Writes P (updateLifecyclePosition envelope.invocationId ctx.runtimeId occurredAt now harnessGeneration none) :=
    updateLifecyclePosition_writes ht fun db patch hg hatt => hi db patch (.inr (by
      rw [hg, hatt]
      exact h))
  unfold projectLifecyclePolicy
  dsimp only
  split
  · refine Emits.bind (Emits.of_readOnly (query_readOnly _)) fun invocation => ?_
    refine Emits.bind (Emits.of_readOnly (property_readOnly _ _)) fun hash => ?_
    refine Emits.bind (Emits.of_readOnly (hp _ _)) fun _ => Emits.bind (touchRuntime_writes ht) fun _ => ?_
    exact Emits.bind (Emits.of_readOnly (bindText_readOnly _)) fun _ => statement_writes fun db => hi db _ (.inl ⟨rfl, rfl⟩)
  · exact Emits.bind (Emits.of_readOnly (property_readOnly _ _)) fun _ => statement_writes fun db => hi db _ (.inl ⟨rfl, rfl⟩)
  · refine fun s => EmitsFrom.bind_readOnly (property_readOnly _ _) fun generation hg => hpos ?_ s
    rw [property_eq_ok hg]
    simp only [reportedPosition, ‹envelope.type = _›]
  · refine Emits.bind (Emits.of_readOnly (property_readOnly _ _)) fun reason => ?_
    exact Emits.bind (Emits.of_readOnly (bindText_readOnly _)) fun _ => statement_writes fun db => hi db _ (.inl ⟨rfl, rfl⟩)
  · refine fun s => EmitsFrom.bind_readOnly (property_readOnly _ _) fun generation hg => hpos ?_ s
    rw [property_eq_ok hg]
    simp only [reportedPosition, ‹envelope.type = _›]
  · exact Emits.bind (Emits.of_readOnly (property_readOnly _ _)) fun _ => statement_writes fun db => hi db _ (.inl ⟨rfl, rfl⟩)
  · exact Emits.pure _

theorem projectTurn_writesFrom : WritesFrom P s (projectTurn envelope ctx now) := by
  refine WritesFrom.query_bind ?_
  split
  · exact projectFormat2Turn_writesFrom fun db w h => hP db w (.format2 ‹_› h)
  · rename_i hformat
    exact projectFormat1Turn_writesFrom fun db w h => hP db w (.format1 (Bool.eq_false_iff.mpr hformat) h)

theorem projectLiveState_writesFrom : WritesFrom P s (projectLiveState envelope ctx now) := by
  have quietly {m : M Unit} (hm : WritesFrom P s m) :
      WritesFrom P s (m >>= fun _ => pure ([] : List DerivedTurnDescriptor)) :=
    EmitsFrom.bind hm fun _ _ _ _ => EmitsFrom.pure _
  have ht : ∀ db w, RuntimeTouch ctx.runtimeId w → P db w := fun db w h => hP db w (.touch h)
  have hi : ∀ db patch, PositionPatch envelope patch → P db (.updateInvocation envelope.invocationId patch) :=
    fun db patch h => hP db _ (.invocation h)
  unfold projectLiveState
  dsimp only
  split
  all_goals first
    | exact quietly (projectInvocationLifecycle_writes hP s)
    | exact quietly (projectLifecyclePolicy_writes hP s)
    | exact quietly (projectTurn_writesFrom hP)
    | exact quietly (projectMessage_writes (fun _ _ => hP _ _ (.aside (.inr (.inr (.inr (.inr rfl)))))) s)
    | exact projectToolCall_writes ht hi s
    | exact quietly (projectContinuation_writes ht (fun _ _ h => hP _ _ (.aside (.inr (.inr (.inl h)))))
        (fun _ _ h => hP _ _ (.aside (.inr (.inl h)))) s)
    | exact quietly (projectTerminalSurface_writes (fun _ _ h => hP _ _ (.aside (.inr (.inr (.inr (.inl h)))))) s)
    | exact quietly (projectUsageReportedModel_writes ht s)
    | exact EmitsFrom.pure _

end Live

theorem projectState_writesFrom {stale participantFenced : Bool}
    (he : ∀ db w, InvocationEnd envelope w → P db w)
    (hP : stale = false → ∀ db w, LiveWrite s.db envelope ctx db w → P db w) :
    WritesFrom P s (projectState envelope ctx now stale participantFenced) := by
  unfold projectState
  split
  · exact EmitsFrom.bind (recordInvocationTerminal_writes he s) fun _ _ _ _ => EmitsFrom.pure _
  · split
    · exact EmitsFrom.pure _
    · rename_i hstale
      exact projectLiveState_writesFrom (hP (Bool.eq_false_iff.mpr hstale))

variable {occurredAt : String}

omit [Host] in
theorem retainedTerminal_readOnly : ReadOnly (retainedTerminal envelope occurredAt now) := by
  unfold retainedTerminal
  dsimp only
  split
  all_goals first
    | exact ReadOnly.pure _
    | exact ReadOnly.bind (payloadText_readOnly _) fun _ => ReadOnly.pure _

omit [Host] in
theorem retainedTerminal_terminal :
    Returns (fun completion => completion.status.isRunTerminal = true) (retainedTerminal envelope occurredAt now) := by
  unfold retainedTerminal
  dsimp only
  split
  all_goals first
    | exact .pure rfl
    | exact .bind fun _ => .pure rfl

section Retained

variable {base : Db} {stale : Bool} (hP : ∀ db w, RetainedWrite base envelope ctx stale db w → P db w)
include hP

theorem projectRetainedRunTerminal_writes (hstale : stale = false)
    (hk : envelope.type.isTurnTerminal = true ∨ endsSubmission envelope.type = true) :
    Writes P (projectRetainedRunTerminal envelope ctx now) := by
  unfold projectRetainedRunTerminal
  split
  · exact Emits.pure _
  · rename_i hr
    intro s
    refine WritesFrom.query_bind ?_
    refine EmitsFrom.bind (EmitsFrom.when fun hop => ?_) fun _ t _ _ =>
      Emits.when forgetBufferChunkSeq_writes t
    refine EmitsFrom.bind_readOnly retainedTerminal_readOnly fun completion hc => ?_
    exact RunRepository.markCompleted_writesFrom (hP _ _ (.ended _ hstale hk hr hop (retainedTerminal_terminal _ _ _ hc)))

theorem recordDisposition_retained : Writes P (recordDisposition envelope now true) := by
  unfold recordDisposition
  split
  · exact statement_writes fun db => hP _ _ (.admission rfl)
  · exact Emits.pure _

theorem projectRetainedTurn_writes (hstale : stale = false) : Writes P (projectRetainedTurn envelope ctx now) := by
  have hs : ∀ db w, Settlement db w → P db w := fun db w h => hP db w (.settled hstale h)
  have how : Writes P (settleOwnedTurn envelope now) := by
    refine Emits.bind (Emits.of_readOnly (query_readOnly _)) fun owner => ?_
    split
    · exact Emits.pure _
    · exact settlePriorAbsorbedAuxiliaries_writes fun db w h _ => hs db w h
  have ht (h : envelope.type.isTurnTerminal = true ∨ endsSubmission envelope.type = true) :
      Writes P (projectRetainedRunTerminal envelope ctx now) := projectRetainedRunTerminal_writes hP hstale h
  unfold projectRetainedTurn
  split
  · exact Emits.bind (recordDisposition_retained hP) fun _ => how
  · exact how
  · refine Emits.bind (recordDisposition_retained hP) fun _ => ?_
    refine Emits.bind (Emits.of_readOnly (query_readOnly _)) fun owner => ?_
    split
    · exact Emits.pure _
    · exact settleAbsorbedAuxiliary_writes fun db w h _ => hs db w h
  · exact Emits.bind (recordDisposition_retained hP) fun _ => ht (.inr (by rw [‹envelope.type = _›]; rfl))
  · exact Emits.bind (recordDisposition_retained hP) fun _ => ht (.inr (by rw [‹envelope.type = _›]; rfl))
  · exact Emits.bind (recordDisposition_retained hP) fun _ => ht (.inr (by rw [‹envelope.type = _›]; rfl))
  · exact Emits.bind (recordDisposition_retained hP) fun _ => ht (.inr (by rw [‹envelope.type = _›]; rfl))
  · exact ht (.inl (by rw [‹envelope.type = _›]; rfl))
  · exact ht (.inl (by rw [‹envelope.type = _›]; rfl))
  · exact ht (.inl (by rw [‹envelope.type = _›]; rfl))
  · exact projectMessage_writes fun _ _ => hP _ _ (.buffer rfl)
  · exact projectMessage_writes fun _ _ => hP _ _ (.buffer rfl)
  · exact projectMessage_writes fun _ _ => hP _ _ (.buffer rfl)
  · exact Emits.pure _

end Retained

theorem projectRetainedState_writesFrom {stale : Bool}
    (hP : ∀ db w, RetainedWrite s.db envelope ctx stale db w → P db w) :
    WritesFrom P s (projectRetainedState envelope ctx now stale) := by
  have he (h : (invocationTerminalState envelope.type).isSome = true) (hrt : retriesFailure envelope = false) :
      WritesFrom P s (endInvocation envelope ctx now) :=
    endInvocation_writesFrom (fun db w hs hw => hP db w (.unresolved h hrt hs hw)) fun db w h => hP db w (.invocation h)
  unfold projectRetainedState
  split
  · exact he (by rw [‹envelope.type = _›]; rfl) (by unfold retriesFailure; rw [‹envelope.type = _›]; rfl)
  · exact he (by rw [‹envelope.type = _›]; rfl) (by unfold retriesFailure; rw [‹envelope.type = _›]; rfl)
  · refine EmitsFrom.bind_readOnly isRetryableInvocationFailure_readOnly fun retryable hr => ?_
    refine EmitsFrom.when fun hn => he (by rw [‹envelope.type = _›]; rfl) ?_
    rw [← isRetryableInvocationFailure_eq_ok hr]
    simpa using hn
  · split
    · exact EmitsFrom.pure _
    · rename_i hstale
      exact projectRetainedTurn_writes hP (Bool.eq_false_iff.mpr hstale) s

end Rules

end HrcRuntime.StateProjection
