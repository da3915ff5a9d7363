import HrcRuntime.ContextReading

namespace HrcRuntime.Format2Input

open Json Records Database Program Mapper EventRepository Repositories Context RunResolution
open RuntimeState LifecyclePayload

def carries (run : HrcRunRecord) (input : HrcInputRecord) (turnId : String) (runStartedHrcSeq : Nat) : Bool :=
  InputRepository.hasCoordinate input && run.executionFormat == .format2
    && input.hostSessionId == some run.hostSessionId && run.runtimeId == input.runtimeId
    && run.operationId == input.operationId && run.invocationId == input.invocationId
    && run.nativeTurnId == some turnId && run.observedStartHrcSeq == some runStartedHrcSeq

def detailOf (payload : Json) (fallback : String) : Option String :=
  (payload.stringField "reason").or (payload.stringField fallback)

structure Landing where
  inputId : String
  kind : LandingKind
  runId : String
  turnId : String
  runStartedHrcSeq : Nat

def landingForEnvelope (db : Db) (envelope : InvocationEventEnvelope) (ctx : ProjectionContext)
    (kind : LandingKind) : Option Landing := do
  let runId ← ctx.runId
  let invocation ← getByInvocationId db envelope.invocationId
  let runtime ← getByRuntimeId db ctx.runtimeId
  let turnId ← extractTurnId envelope
  let run ← RunRepository.getByRunId db runId
  let runStartedHrcSeq ← run.observedStartHrcSeq
  let input ← format2InputForEnvelope db envelope invocation runtime
  some { inputId := input.inputId, kind, runId, turnId, runStartedHrcSeq }

def inputForEnvelope (db : Db) (envelope : InvocationEventEnvelope) : Option HrcInputRecord := do
  let invocation ← getByInvocationId db envelope.invocationId
  let runtime ← getByRuntimeId db invocation.runtimeId
  format2InputForEnvelope db envelope invocation runtime

def openInputForEnvelope (db : Db) (envelope : InvocationEventEnvelope) : Option HrcInputRecord :=
  (inputForEnvelope db envelope).filter fun input => input.status == .accepted && input.landingKind.isNone

variable [Host]

def pushInputEvent (e : HrcLifecycleEvent) : M Unit :=
  Prog.modify fun s => { s with pendingInputEvents := s.pendingInputEvents ++ [e] }

def nameInitiatingInput (landing : Landing) (run : HrcRunRecord) (now : String) : M Unit :=
  match landing.kind, run.initiatingInputId with
  | .joined, _ => pure ()
  | .initiating, some other =>
    if other == landing.inputId then pure () else fail s!"format-2 initiating input conflict for {landing.runId}"
  | .initiating, none =>
    RunRepository.update landing.runId { initiatingInputId := some landing.inputId, updatedAt := some now }

def appendLanded (landing : Landing) (landed : HrcInputRecord) (ctx : ProjectionContext) (now : String) :
    M Unit := do
  let submissionId ← requireRecord landed.brokerSubmissionId
    s!"format-2 landed input has no broker submission: {landed.inputId}"
  let e ← HrcEvents.append .inputLanded
    { eventInput ctx now (Json.object [("inputId", some (.str landed.inputId)),
        ("kind", some (.str landing.kind.text)), ("carrierRunId", some (.str landing.runId)),
        ("turnId", some (.str landing.turnId)), ("brokerSubmissionId", some (.str submissionId)),
        ("runStartedHrcSeq", some (.ofNat landing.runStartedHrcSeq))]) with
      runId := some landing.runId }
  pushInputEvent e

def landFormat2Input (landing : Landing) (ctx : ProjectionContext) (now : String) : M Unit := do
  let durableInput ← query fun db => (InputRepository.getByInputId db landing.inputId).filter fun input =>
    input.landingKind.isNone && input.status == .accepted
  match durableInput with
  | none => pure ()
  | some durableInput => do
      let run ← query (RunRepository.getByRunId · landing.runId)
      let run ← requireRecord run s!"format-2 carrier run missing: {landing.runId}"
      if carries run durableInput landing.turnId landing.runStartedHrcSeq then do
        nameInitiatingInput landing run now
        let landed ← InputRepository.recordLanding
          { inputId := landing.inputId, kind := landing.kind, carrierRunId := landing.runId
            turnId := landing.turnId, runStartedHrcSeq := landing.runStartedHrcSeq, landedAt := now }
        appendLanded landing landed ctx now
      else fail s!"format-2 input landing carrier coordinate mismatch: {landing.inputId}"

def landFormat2InputFromEnvelope (envelope : InvocationEventEnvelope) (ctx : ProjectionContext)
    (kind : LandingKind) (now : String) : M Unit := do
  let landing ← query (landingForEnvelope · envelope ctx kind)
  match landing with
  | none => pure ()
  | some landing => landFormat2Input landing ctx now

def recordFormat2InputTerminal (envelope : InvocationEventEnvelope) (ctx : ProjectionContext)
    (terminal : InputTerminal) (now : String) : M Unit := do
  let input ← query (openInputForEnvelope · envelope)
  match input with
  | none => pure ()
  | some input => do
      let reason := detailOf envelope.payload "message"
      let terminalAt := envelope.time.getD now
      let terminalized ← InputRepository.recordTerminal
        { inputId := input.inputId, terminal, terminalAt, errorMessage := reason }
      let e ← HrcEvents.append .inputTerminal
        { eventInput ctx terminalAt (Json.object [("inputId", some (.str terminalized.inputId)),
            ("terminal", some (.str terminal.text)),
            ("error", reason.map fun message => Json.object [("message", some (.str message))])]) with
          runId := none }
      pushInputEvent e

def recordFormat2InputCorrelation (input : HrcInputRecord) (ctx : ProjectionContext) (fact : CorrelationFact)
    (now : String) (detail : Option String) : M Unit := do
  let correlated ← InputRepository.recordCorrelation { inputId := input.inputId, fact, observedAt := now }
  let e ← HrcEvents.append .inputCorrelation
    { eventInput ctx now (Json.object [("inputId", some (.str correlated.inputId)), ("fact", some (.str fact.text)),
        ("detail", detail.map Json.str)]) with
      runId := correlated.carrierRunId }
  pushInputEvent e

def recordFormat2CorrelationForEnvelope (envelope : InvocationEventEnvelope) (ctx : ProjectionContext)
    (fact : CorrelationFact) (now : String) : M Unit := do
  let input ← query (inputForEnvelope · envelope)
  match input with
  | none => pure ()
  | some input =>
    recordFormat2InputCorrelation input ctx fact (envelope.time.getD now) (detailOf envelope.payload "message")

def recordFormat2InvocationCorrelation (envelope : InvocationEventEnvelope) (ctx : ProjectionContext)
    (fact : CorrelationFact) (now : String) : M Unit := do
  let inputs ← query (InputRepository.listProtectedByInvocationId · envelope.invocationId)
  Prog.forEach inputs fun input =>
    recordFormat2InputCorrelation input ctx fact (envelope.time.getD now) (detailOf envelope.payload "code")

def finalizeFormat2TurnStart (start : Format2TurnStart) (ctx : ProjectionContext)
    (lifecycleEvent : Option HrcLifecycleEvent) (now : String) : M Unit :=
  match lifecycleEvent.filter fun e => e.eventKind == .turnStarted with
  | none => pure ()
  | some e => do
      RunRepository.update start.runId
        { observedStartHrcSeq := some e.hrcSeq, observationState := some "observed", updatedAt := some now }
      let landing (kind : LandingKind) (inputId : String) : Landing :=
        { inputId, kind, runId := start.runId, turnId := start.turnId, runStartedHrcSeq := e.hrcSeq }
      Prog.forEach start.initiatingInputId.toList fun inputId =>
        landFormat2Input (landing .initiating inputId) ctx now
      Prog.forEach start.joinedInputIds fun inputId => landFormat2Input (landing .joined inputId) ctx now

structure KeepsIdentity (patch : RunPatch) : Prop where
  completedAt : patch.completedAt = none
  dispatchedInputId : patch.dispatchedInputId = none
  brokerSubmissionId : patch.brokerSubmissionId = none
  coalescedIntoRunId : patch.coalescedIntoRunId = none
  status : patch.status ≠ some .queued

inductive RunTouch (db : Db) : Write → Prop where
  | touched {runId : String} {patch : RunPatch} (h : KeepsIdentity patch) :
      RunTouch db (.updateRun runId (RunRepository.effectivePatch (RunRepository.getByRunId db runId) patch))

inductive InputFact (db : Db) : Write → Prop where
  | ledger {w : Write} (h : w.table = .inputs) : InputFact db w
  | event {w : Write} (h : Append none w) : InputFact db w
  | run {w : Write} (h : RunTouch db w) : InputFact db w

section Rules

variable {P : Db → Write → Prop}

omit [Host] in
theorem effectivePatch_keepsIdentity {current : Option HrcRunRecord} {patch : RunPatch} (h : KeepsIdentity patch) :
    KeepsIdentity (RunRepository.effectivePatch current patch) := by
  obtain ⟨h₁, h₂, h₃, h₄, h₅⟩ := h
  unfold RunRepository.effectivePatch
  split
  · exact ⟨h₁, h₂, h₃, h₄, h₅⟩
  · split
    · exact ⟨h₁, h₂, h₃, h₄, nofun⟩
    · exact ⟨h₁, h₂, h₃, h₄, h₅⟩

theorem runTouch_writes (hP : ∀ db w, RunTouch db w → P db w) {runId : String} {patch : RunPatch}
    (h : KeepsIdentity patch) : Writes P (RunRepository.update runId patch) :=
  fun _ => RunRepository.update_writesFrom (hP _ _ (.touched h))

omit [Host] in
theorem pushInputEvent_writes (e : HrcLifecycleEvent) : Writes P (pushInputEvent e) :=
  Emits.modify fun _ => .quiet ⟨rfl, rfl, rfl, rfl, rfl, rfl⟩

variable (hP : ∀ db w, InputFact db w → P db w)
include hP

variable {ctx : ProjectionContext} {envelope : InvocationEventEnvelope} {now : String} {fact : CorrelationFact}

theorem nameInitiatingInput_writes {landing : Landing} {run : HrcRunRecord} :
    Writes P (nameInitiatingInput landing run now) := by
  unfold nameInitiatingInput
  split
  · exact Emits.pure _
  · split
    · exact Emits.pure _
    · exact Emits.of_readOnly (fail_readOnly _)
  · exact runTouch_writes (fun _ _ h => hP _ _ (.run h)) ⟨rfl, rfl, rfl, rfl, nofun⟩

theorem landFormat2Input_writes {landing : Landing} :
    Writes P (landFormat2Input landing ctx now) := by
  refine Emits.bind (Emits.of_readOnly (query_readOnly _)) fun durableInput => ?_
  split
  · exact Emits.pure _
  · refine Emits.bind (Emits.of_readOnly (query_readOnly _)) fun run => ?_
    refine Emits.bind (Emits.of_readOnly (requireRecord_readOnly _ _)) fun run => ?_
    split
    · refine Emits.bind (nameInitiatingInput_writes hP) fun _ => ?_
      refine Emits.bind (fun s => InputRepository.recordLanding_writesFrom fun _ _ _ _ _ =>
        hP _ _ (.ledger rfl)) fun landed => ?_
      refine Emits.bind (Emits.of_readOnly (requireRecord_readOnly _ _)) fun submissionId => ?_
      exact Emits.bind (append_writes fun _ _ h => hP _ _ (.event h)) pushInputEvent_writes
    · exact Emits.of_readOnly (fail_readOnly _)

theorem landFormat2InputFromEnvelope_writes
    {kind : LandingKind} : Writes P (landFormat2InputFromEnvelope envelope ctx kind now) := by
  refine Emits.bind (Emits.of_readOnly (query_readOnly _)) fun landing => ?_
  split
  · exact Emits.pure _
  · exact landFormat2Input_writes hP

theorem recordFormat2InputTerminal_writes
    {terminal : InputTerminal} : Writes P (recordFormat2InputTerminal envelope ctx terminal now) := by
  refine Emits.bind (Emits.of_readOnly (query_readOnly _)) fun input => ?_
  split
  · exact Emits.pure _
  · refine Emits.bind (fun s => InputRepository.recordTerminal_writesFrom fun _ _ _ _ _ =>
      hP _ _ (.ledger rfl)) fun terminalized => ?_
    exact Emits.bind (append_writes fun _ _ h => hP _ _ (.event h)) pushInputEvent_writes

theorem recordFormat2InputCorrelation_writes {input : HrcInputRecord}
    {detail : Option String} :
    Writes P (recordFormat2InputCorrelation input ctx fact now detail) := by
  refine Emits.bind (fun s => InputRepository.recordCorrelation_writesFrom (hP _ _ (.ledger rfl)))
    fun correlated => ?_
  exact Emits.bind (append_writes fun _ _ h => hP _ _ (.event h)) pushInputEvent_writes

theorem recordFormat2CorrelationForEnvelope_writes :
    Writes P (recordFormat2CorrelationForEnvelope envelope ctx fact now) := by
  refine Emits.bind (Emits.of_readOnly (query_readOnly _)) fun input => ?_
  split
  · exact Emits.pure _
  · exact recordFormat2InputCorrelation_writes hP

theorem recordFormat2InvocationCorrelation_writes :
    Writes P (recordFormat2InvocationCorrelation envelope ctx fact now) :=
  Emits.bind (Emits.of_readOnly (query_readOnly _)) fun _ => Emits.forEach fun _ =>
    recordFormat2InputCorrelation_writes hP

theorem finalizeFormat2TurnStart_writes {start : Format2TurnStart}
    {lifecycleEvent : Option HrcLifecycleEvent} :
    Writes P (finalizeFormat2TurnStart start ctx lifecycleEvent now) := by
  unfold finalizeFormat2TurnStart
  split
  · exact Emits.pure _
  · refine Emits.bind (runTouch_writes (fun _ _ h => hP _ _ (.run h)) ⟨rfl, rfl, rfl, rfl, nofun⟩) fun _ => ?_
    refine Emits.bind (Emits.forEach fun _ => landFormat2Input_writes hP) fun _ => ?_
    exact Emits.forEach fun _ => landFormat2Input_writes hP

end Rules

end HrcRuntime.Format2Input
