import HrcRuntime.Format2Input

namespace HrcRuntime.MessageProjection

open Json Records Database Program Mapper EventRepository Repositories Context RuntimeState
open LifecyclePayload ContextReading

/-- `${value}` in a template. -/
def templateText : Option Json → String
  | none => "undefined"
  | some v => v.toText

/-- `a ?? b`. -/
def nullish (a b : Option Json) : Option Json :=
  match a with
  | some .null => b
  | none => b
  | a => a

def isStaleLifecycleEnvelope (envelope : EnvelopeHead) (invocation : HrcBrokerInvocationRecord) : Bool :=
  let behind (current named : Option Nat) : Bool := match current, named with
    | some current, some named => decide (named < current)
    | _, _ => false
  behind invocation.currentHarnessGeneration envelope.harnessGeneration
    || behind invocation.currentTurnAttempt envelope.turnAttempt

def isLiveInvocationState : InvocationState → Bool
  | .starting | .ready | .turnActive | .awaitingInput | .stopping => true
  | _ => false

def bufferEndsWith (db : Db) (runId text : String) : Bool :=
  let limit := text.toList.foldl (fun length c => length + utf16Length c) 0
  text.toList.isSuffixOf (String.join ((listTailByRunId db runId limit).map (·.text))).toList

variable [Host]

def appendBuffer (ctx : ProjectionContext) (text now : String) : M Unit :=
  match ctx.runId with
  | none => pure ()
  | some runId =>
    if text.isEmpty then pure ()
    else do
      let chunkSeq ← Prog.read fun s : BrokerEventMapper =>
        (s.nextBufferChunkSeqByRunId runId).getD (nextChunkSeqByRunId s.db runId)
      statement (.insertBuffer { runtimeId := ctx.runtimeId, runId, chunkSeq, text, createdAt := now })
      Prog.modify fun s =>
        { s with nextBufferChunkSeqByRunId :=
            Function.update s.nextBufferChunkSeqByRunId runId (some (chunkSeq + 1)) }

def appendMessageBoundaryBuffer (ctx : ProjectionContext) (now : String) : M Unit :=
  match ctx.runId with
  | none => pure ()
  | some runId => do
      let tail ← query fun db => (listTailByRunId db runId 1).getLast?.map (·.text)
      if tail.isNone || tail == some "\n\n" then pure () else appendBuffer ctx "\n\n" now

def appendCompletedMessageBuffer (ctx : ProjectionContext) (text now : String) : M Unit :=
  match ctx.runId with
  | none => pure ()
  | some runId =>
    if text.isEmpty then pure ()
    else do
      let present ← query (bufferEndsWith · runId text)
      if present then pure () else appendBuffer ctx text now

/-- `nextBufferChunkSeqByRunId.delete(runId)`. -/
def forgetBufferChunkSeq (runId : String) : M Unit :=
  Prog.modify fun s =>
    { s with nextBufferChunkSeqByRunId := Function.update s.nextBufferChunkSeqByRunId runId none }

def projectMessage (envelope : InvocationEventEnvelope) (ctx : ProjectionContext) (now : String) : M Unit :=
  match envelope.type with
  | .assistantMessageCompleted => do
      let text ← assistantText envelope.payload
      appendCompletedMessageBuffer ctx text now
  | .assistantMessageDelta => do
      let text ← property envelope.payload "text"
      match text with
      | some (.str text) => appendBuffer ctx text now
      | _ => Prog.throw (.typeError "undefined is not an object (evaluating text.length)")
  | .assistantMessageStarted => appendMessageBoundaryBuffer ctx now
  | _ => pure ()

def projectUsageReportedModel (envelope : InvocationEventEnvelope) (ctx : ProjectionContext) (now : String) :
    M Unit := do
  let runtime ← query (getByRuntimeId · ctx.runtimeId)
  match (envelope.payload.member "model").filter isReportedModelIdentity,
      runtime.filter fun runtime => runtime.generation == ctx.generation with
  | some model, some runtime =>
    let identity := (model.stringField "id", model.stringField "source")
    if readReportedModelIdentity runtime.runtimeStateJson == some identity then pure ()
    else
      Runtimes.update ctx.runtimeId
        { runtimeStateJson := some (assignField runtime.runtimeStateJson reportedModelStateKey (Json.object
            [("id", identity.1.map Json.str), ("source", identity.2.map Json.str), ("updatedAt", some (.str now))]))
          updatedAt := some now }
  | _, _ => pure ()

/-- Tool calls only move state at an ask bracket: the opening parks the runtime, the last close
resumes it. -/
def projectToolCall (envelope : InvocationEventEnvelope) (ctx : ProjectionContext) (now : String) :
    M (List DerivedTurnDescriptor) :=
  let payload := envelope.payload
  let occurredAt := envelope.time.getD now
  let descriptor (eventKind : HrcEventKind) : DerivedTurnDescriptor :=
    { eventKind, toolUseId := payload.member "toolCallId", toolName := payload.member "name" }
  match envelope.type, ctx.runId with
  | .toolCallStarted, some _ => do
      let name ← property payload "name"
      if isAskUserTool (name.bind Json.asString) then do
        markRuntimeAwaitingInput ctx envelope.invocationId occurredAt now
        pure [descriptor .turnAwaitingInput]
      else pure []
  | .toolCallCompleted, some runId | .toolCallFailed, some runId => do
      let name ← property payload "name"
      let resumes ← query fun db => isAskUserTool (name.bind Json.asString)
        && isRuntimeAwaitingInput db ctx.runtimeId && !hasOpenAskBracket db envelope.invocationId runId
      if resumes then do
        markRuntimeInputResumed ctx envelope.invocationId occurredAt now
        pure [descriptor .turnInputResumed]
      else pure []
  | _, _ => pure []

def disarmFirstTurnWatchOnContinuationCleared (ctx : ProjectionContext) (invocationId occurredAt : String) :
    M Unit := do
  let invocation ← query (getByInvocationId · invocationId)
  match invocation.filter fun invocation => !isLiveInvocationState invocation.invocationState with
  | none => pure ()
  | some invocation =>
    FirstTurn.disarmFirstTurnWatch ctx.runtimeId ctx.generation
      s!"continuation_cleared:{invocation.invocationState.text}" occurredAt

/-- `runtimes.update(runtimeId, runtimeActivityPatch(..))`. -/
def touchRuntime (runtimeId occurredAt updatedAt : String) : M Unit := do
  let activity ← query (Runtimes.runtimeActivityPatch · runtimeId occurredAt updatedAt)
  Runtimes.update runtimeId activity

def projectContinuation (envelope : InvocationEventEnvelope) (ctx : ProjectionContext) (now : String) : M Unit :=
  match envelope.type with
  | .continuationUpdated => do
      let provider ← property envelope.payload "provider"
      touchRuntime ctx.runtimeId (envelope.time.getD now) now
      statement (.setContinuation ctx.hostSessionId (Json.object [("provider", provider),
        ("kind", envelope.payload.member "kind"), ("key", envelope.payload.member "key")]) now)
  | .continuationCleared => do
      statement (.setReuseDisabled ctx.hostSessionId true now)
      disarmFirstTurnWatchOnContinuationCleared ctx envelope.invocationId (envelope.time.getD now)
  | _ => pure ()

def projectTerminalSurface (envelope : InvocationEventEnvelope) (ctx : ProjectionContext) (now : String) :
    M Unit := do
  let payload := envelope.payload
  let kind ← property payload "kind"
  if kind == some (.str "hrcpty-socket") then pure ()
  else do
    let surfaceKind ← bindText kind
    let paneId ← bindText (payload.member "paneId")
    let composite := templateText (payload.member "socketPath") ++ "#" ++ templateText (payload.member "sessionName")
    let surfaceId := if kind == some (.str "tmux-pane") then paneId else some composite
    match surfaceKind, surfaceId with
    | some surfaceKind, some surfaceId =>
      statement (.bindSurface { surfaceKind, surfaceId, hostSessionId := ctx.hostSessionId
                                runtimeId := ctx.runtimeId, generation := ctx.generation, paneId, boundAt := now })
    | _, _ => Prog.throw (.constraint "surface_bindings")

def updateLifecyclePosition (invocationId runtimeId occurredAt updatedAt : String)
    (harnessGeneration turnAttempt : Option Json) : M Unit := do
  touchRuntime runtimeId occurredAt updatedAt
  let currentHarnessGeneration ← bindNat harnessGeneration
  let currentTurnAttempt ← bindNat turnAttempt
  Invocations.update invocationId { currentHarnessGeneration, currentTurnAttempt, updatedAt := some updatedAt }

def natOf : Option Json → Option Nat
  | some (.num n) => some n.toNat
  | _ => none

def reportedPosition (envelope : InvocationEventEnvelope) : Option Nat × Option Nat :=
  let reported (key : String) : Option Nat := natOf (envelope.payload.member key)
  match envelope.type with
  | .harnessStarted => (reported "generation", none)
  | .harnessRecoveryCompleted => (reported "toGeneration", none)
  | .turnRetry => (reported "toHarnessGeneration", reported "toAttempt")
  | _ => (none, none)

def PositionPatch (envelope : InvocationEventEnvelope) (patch : InvocationPatch) : Prop :=
  (patch.currentHarnessGeneration = none ∧ patch.currentTurnAttempt = none) ∨
    (patch.currentHarnessGeneration, patch.currentTurnAttempt) = reportedPosition envelope

section Rules

variable {P : Db → Write → Prop} {envelope : InvocationEventEnvelope} {ctx : ProjectionContext} {now : String}

theorem appendBuffer_writes (hP : ∀ db row, P db (.insertBuffer row)) {text : String} :
    Writes P (appendBuffer ctx text now) := by
  unfold appendBuffer
  split
  · exact Emits.pure _
  · split
    · exact Emits.pure _
    · refine Emits.bind (Emits.read _) fun chunkSeq => ?_
      refine Emits.bind (statement_writes fun db => hP db _) fun _ => ?_
      exact Emits.modify fun _ => .quiet ⟨rfl, rfl, rfl, rfl, rfl, rfl⟩

omit [Host] in
theorem forgetBufferChunkSeq_writes {runId : String} : Writes P (forgetBufferChunkSeq runId) :=
  Emits.modify fun _ => .quiet ⟨rfl, rfl, rfl, rfl, rfl, rfl⟩

theorem projectMessage_writes (hP : ∀ db row, P db (.insertBuffer row)) :
    Writes P (projectMessage envelope ctx now) := by
  unfold projectMessage
  split
  · refine Emits.bind (Emits.of_readOnly (assistantText_readOnly _)) fun text => ?_
    unfold appendCompletedMessageBuffer
    split
    · exact Emits.pure _
    · split
      · exact Emits.pure _
      · refine Emits.bind (Emits.of_readOnly (query_readOnly _)) fun present => ?_
        split
        · exact Emits.pure _
        · exact appendBuffer_writes hP
  · refine Emits.bind (Emits.of_readOnly (property_readOnly _ _)) fun text => ?_
    split
    · exact appendBuffer_writes hP
    · exact Emits.throw _
  · unfold appendMessageBoundaryBuffer
    split
    · exact Emits.pure _
    · refine Emits.bind (Emits.of_readOnly (query_readOnly _)) fun tail => ?_
      split
      · exact Emits.pure _
      · exact appendBuffer_writes hP
  · exact Emits.pure _

theorem projectUsageReportedModel_writes (hP : ∀ db w, RuntimeTouch ctx.runtimeId w → P db w) :
    Writes P (projectUsageReportedModel envelope ctx now) := by
  refine Emits.bind (Emits.of_readOnly (query_readOnly _)) fun runtime => ?_
  split
  · dsimp only
    split
    · exact Emits.pure _
    · exact touch_writes rfl hP
  · exact Emits.pure _

theorem projectToolCall_writes (ht : ∀ db w, RuntimeTouch ctx.runtimeId w → P db w)
    (hi : ∀ db patch, PositionPatch envelope patch → P db (.updateInvocation envelope.invocationId patch)) :
    Writes P (projectToolCall envelope ctx now) := by
  have hm (state : InvocationState) (status : RuntimeStatus) (occurredAt : String) :
      Writes P (do
        Invocations.update envelope.invocationId { invocationState := some state, updatedAt := some now }
        setRuntimeStatus ctx.runtimeId status occurredAt now) :=
    Emits.bind (statement_writes fun db => hi db _ (.inl ⟨rfl, rfl⟩)) fun _ => setRuntimeStatus_writes ht
  unfold projectToolCall
  dsimp only
  split
  · refine Emits.bind (Emits.of_readOnly (property_readOnly _ _)) fun name => ?_
    split
    · exact Emits.bind (hm _ _ _) fun _ => Emits.pure _
    · exact Emits.pure _
  all_goals first
    | exact Emits.pure _
    | refine Emits.bind (Emits.of_readOnly (property_readOnly _ _)) fun name => ?_
      refine Emits.bind (Emits.of_readOnly (query_readOnly _)) fun resumes => ?_
      split
      · exact Emits.bind (hm _ _ _) fun _ => Emits.pure _
      · exact Emits.pure _

variable {s t : BrokerEventMapper} {occurredAt updatedAt : String}

theorem touchRuntime_writes {runtimeId : String}
    (hP : ∀ db w, RuntimeTouch runtimeId w → P db w) : Writes P (touchRuntime runtimeId occurredAt updatedAt) :=
  fun s => WritesFrom.query_bind (touch_writes rfl hP s)

theorem disarm_writes (hP : ∀ db w, w.table = .firstTurnWatch → P db w) {reason : String} :
    Writes P (FirstTurn.disarmFirstTurnWatch ctx.runtimeId ctx.generation reason occurredAt) :=
  FirstTurn.disarmFirstTurnWatch_writes fun _ => hP _ _ rfl

theorem projectContinuation_writes (ht : ∀ db w, RuntimeTouch ctx.runtimeId w → P db w)
    (hsession : ∀ db w, w.table = .sessions → P db w) (hw : ∀ db w, w.table = .firstTurnWatch → P db w) :
    Writes P (projectContinuation envelope ctx now) := by
  unfold projectContinuation
  split
  · refine Emits.bind (Emits.of_readOnly (property_readOnly _ _)) fun provider => ?_
    exact Emits.bind (touchRuntime_writes ht) fun _ => statement_writes fun db => hsession _ _ rfl
  · refine Emits.bind (statement_writes fun db => hsession _ _ rfl) fun _ => ?_
    refine Emits.bind (Emits.of_readOnly (query_readOnly _)) fun invocation => ?_
    split
    · exact Emits.pure _
    · exact disarm_writes hw
  · exact Emits.pure _

theorem projectTerminalSurface_writes (hP : ∀ db w, w.table = .surfaceBindings → P db w) :
    Writes P (projectTerminalSurface envelope ctx now) := by
  refine Emits.bind (Emits.of_readOnly (property_readOnly _ _)) fun kind => ?_
  split
  · exact Emits.pure _
  · refine Emits.bind (Emits.of_readOnly (bindText_readOnly _)) fun surfaceKind => ?_
    refine Emits.bind (Emits.of_readOnly (bindText_readOnly _)) fun paneId => ?_
    dsimp only
    split
    · exact statement_writes fun db => hP _ _ rfl
    · exact Emits.throw _

omit [Host] in
theorem bindNat_eq_ok {v : Option Json} {n : Option Nat} (h : bindNat v s = (.ok n, t)) :
    n = natOf v := by
  unfold bindNat at h
  split at h <;> cases h <;> rfl

omit [Host] in
theorem property_eq_ok {payload : Json} {key : String} {v : Option Json}
    (h : property payload key s = (.ok v, t)) : v = payload.member key := by
  unfold property at h
  split at h <;> cases h
  rfl

theorem updateLifecyclePosition_writes {invocationId : String}
    {harnessGeneration turnAttempt : Option Json} (ht : ∀ db w, RuntimeTouch ctx.runtimeId w → P db w)
    (hi : ∀ db patch, patch.currentHarnessGeneration = natOf harnessGeneration →
      patch.currentTurnAttempt = natOf turnAttempt → P db (.updateInvocation invocationId patch)) :
    Writes P (updateLifecyclePosition invocationId ctx.runtimeId occurredAt updatedAt harnessGeneration
      turnAttempt) := by
  refine Emits.bind (touchRuntime_writes ht) fun _ s => ?_
  refine EmitsFrom.bind_readOnly (bindNat_readOnly _) fun generation hg => ?_
  refine EmitsFrom.bind_readOnly (bindNat_readOnly _) fun attempt hatt => ?_
  exact statement_writes (fun db => hi db _ (bindNat_eq_ok hg) (bindNat_eq_ok hatt)) s

end Rules

end HrcRuntime.MessageProjection
