import HrcRuntime.Context

namespace HrcRuntime.RunResolution

open Json Records Database Program Mapper EventRepository Ownership Context

def brokerNativeInputOrigin : String := "legacy:invocation.input"

def runForInputIdentity (db : Db) (inputId : String) : Option HrcRunRecord := runForInput db inputId

/-- `run?.runId`, when it is not empty. -/
def runIdOf (run : Option HrcRunRecord) : Option String := (run.map (·.runId)).filter fun id => !id.isEmpty

def originPrincipal (payload : Json) : Option Json :=
  (payload.member "origin").bind fun origin => jsonExtract origin "principalRef"

def isBrokerNativeInput (db : Db) (invocationId inputId : String) : Bool :=
  (listByInvocationId db invocationId).any fun row =>
    row.type == .admissionRequested && jsonExtract row.brokerEventJson "submissionId" == some (.str inputId)
      && originPrincipal row.brokerEventJson == some (.str brokerNativeInputOrigin)

def launchRunOwningNativeInput (db : Db) (fallbackRunId : Option String) : Option String := do
  let fallback ← fallbackRunId
  let run ← RunRepository.getByRunId db fallback
  if run.completedAt.isSome || run.dispatchedInputId.isSome then none
  else if isLaunchCarriedInvokeCorrelationJson (RunRepository.getCorrelationJson db fallback) then some fallback
  else none

def hasOtherActiveNonterminalRun (db : Db) (runtimeId candidateRunId : String) : Bool :=
  (RunRepository.listByRuntimeId db runtimeId).any fun run => run.runId != candidateRunId && run.status.isActive

def findPriorTerminalTurnSeq (db : Db) (invocationId : String) (beforeSeq : Nat) : Option Nat :=
  (((listByInvocationId db invocationId).filter fun row =>
    row.type.isTurnTerminal && decide (row.seq < beforeSeq)).getLast?).map (·.seq)

def bracketMintingMode (invocation : HrcBrokerInvocationRecord) : Option String :=
  invocation.capabilitiesJson.stringField "bracketMintingMode"

/-- The fenced run an `input.accepted` row was dispatched by. -/
def fencedRun (db : Db) (row : HrcBrokerInvocationEventRecord) : Option HrcRunRecord :=
  (row.brokerEventJson.stringField "inputId").bind fun inputId =>
    db.runs.rows.find? fun run => run.dispatchedInputId == some inputId && run.brokerInputFencedAt.isSome

structure PriorInput where
  inputId : String
  seq : Nat

def acceptedInputs (db : Db) (invocationId : String) (seq : Nat) : List HrcBrokerInvocationEventRecord :=
  (listByInvocationId db invocationId).filter fun row => row.type == .inputAccepted && decide (row.seq ≤ seq)

def findPriorInputAccepted (db : Db) (invocationId : String) (seq : Nat) : Option PriorInput := do
  let row ← ((acceptedInputs db invocationId seq).filter fun row => (fencedRun db row).isNone).getLast?
  let inputId ← (row.brokerEventJson.stringField "inputId").filter fun id => !id.isEmpty
  some { inputId, seq := row.seq }

/-- The run of the latest fenced `input.accepted`. -/
def findPriorFencedInputAccepted (db : Db) (invocationId : String) (seq : Nat) : Option String := do
  let row ← ((acceptedInputs db invocationId seq).filter fun row => (fencedRun db row).isSome).getLast?
  let _ ← (row.brokerEventJson.stringField "inputId").filter fun id => !id.isEmpty
  runIdOf (fencedRun db row)

def findOpenTurnStartedSeqForAttribution (db : Db) (envelope : InvocationEventEnvelope) : Option Nat :=
  if envelope.type == .turnStarted then some envelope.seq
  else
    let rows := listByInvocationId db envelope.invocationId
    ((rows.filter fun started =>
      started.type == .turnStarted && decide (started.seq ≤ envelope.seq)
        && !rows.any fun terminal => terminal.type.isTurnTerminal && decide (started.seq < terminal.seq)
          && decide (terminal.seq < envelope.seq)).getLast?).map (·.seq)

def turnStartedInputId (db : Db) (envelope : InvocationEventEnvelope) (turnStartedSeq : Nat) : Option String :=
  if envelope.type == .turnStarted && envelope.seq == turnStartedSeq then
    envelope.inputId.or (extractInputIdFromPayload envelope)
  else
    (getByInvocationAndSeq db envelope.invocationId turnStartedSeq).bind fun started =>
      (started.brokerEventJson.stringField "inputId").or (started.brokerEnvelopeJson.bind (·.inputId))

/-- No open bracket: the prior accepted input owns the event only while it provably is already the
runtime owner. -/
def resolveNoBracketOwner (db : Db) (envelope : InvocationEventEnvelope) (priorInput : PriorInput)
    (invocation : HrcBrokerInvocationRecord) (runtime : HrcRuntimeSnapshot) : Option String := do
  let candidate ← runForInputIdentity db priorInput.inputId
  let candidateRunId ← runIdOf (some candidate)
  if candidate.runtimeId != some runtime.runtimeId then none
  else if runtime.activeRunId.or invocation.runId != some candidateRunId then none
  else if (findPriorTerminalTurnSeq db envelope.invocationId envelope.seq).any
      fun terminalSeq => decide (priorInput.seq ≤ terminalSeq) then none
  else if runtimeHasAnyOpenAskBracket db runtime then none
  else if hasOtherActiveNonterminalRun db runtime.runtimeId candidateRunId then none
  else some candidateRunId

/-- An `admission.requested` is resolved before it is stored, so it answers for its own origin. -/
def hasNativeOrigin (envelope : InvocationEventEnvelope) : Bool :=
  envelope.type == .admissionRequested
    && ((envelope.payload.member "origin").bind (·.member "principalRef")) == some (.str brokerNativeInputOrigin)

def resolveSubmission (db : Db) (envelope : InvocationEventEnvelope) (fallbackRunId : Option String) :
    Option (Option String) :=
  if !envelope.type.isSubmissionRecord then none
  else match extractSubmissionIdFromPayload envelope with
    | none => none
    | some submissionId =>
      match RunRepository.getByBrokerSubmissionId db submissionId with
      | some run => some (some run.runId)
      | none =>
        if hasNativeOrigin envelope || isBrokerNativeInput db envelope.invocationId submissionId then
          some (launchRunOwningNativeInput db fallbackRunId)
        else none

def resolveInput (db : Db) (envelope : InvocationEventEnvelope) (inputId : String)
    (fallbackRunId : Option String) : Option String :=
  match runIdOf (runForInputIdentity db inputId) with
  | some runId => some runId
  | none =>
    if isBrokerNativeInput db envelope.invocationId inputId then launchRunOwningNativeInput db fallbackRunId
    else fallbackRunId

def resolveForeignBracket (db : Db) (fallbackRunId : Option String) : Option String := do
  let fallback ← fallbackRunId
  if ((RunRepository.getByRunId db fallback).bind (·.dispatchedInputId)).isNone
      && isLaunchCarriedInvokeCorrelationJson (RunRepository.getCorrelationJson db fallback) then some fallback
  else none

def resolveBracketInput (db : Db) (envelope : InvocationEventEnvelope) (startedSeq : Nat)
    (fallbackRunId : Option String) : Option (Option String) := do
  let bracketInput ← findPriorInputAccepted db envelope.invocationId startedSeq
  match runIdOf (runForInputIdentity db bracketInput.inputId) with
  | some runId => some (some runId)
  | none =>
    if isBrokerNativeInput db envelope.invocationId bracketInput.inputId then
      some (launchRunOwningNativeInput db fallbackRunId)
    else none

def resolveOpenBracket (db : Db) (envelope : InvocationEventEnvelope) (invocation : HrcBrokerInvocationRecord)
    (startedSeq : Nat) : Option String :=
  if bracketMintingMode invocation == some "harness-evidence"
      && (turnStartedInputId db envelope startedSeq).isNone then
    resolveForeignBracket db invocation.runId
  else match resolveBracketInput db envelope startedSeq invocation.runId with
    | some answer => answer
    | none => (findPriorFencedInputAccepted db envelope.invocationId startedSeq).or invocation.runId

def resolveUnbracketed (db : Db) (retainedProjection : Bool) (envelope : InvocationEventEnvelope)
    (invocation : HrcBrokerInvocationRecord) (runtime : HrcRuntimeSnapshot) : Option String :=
  match findPriorInputAccepted db envelope.invocationId envelope.seq with
  | some priorInput =>
    if retainedProjection then none else resolveNoBracketOwner db envelope priorInput invocation runtime
  | none => (findPriorFencedInputAccepted db envelope.invocationId envelope.seq).or invocation.runId

def resolveUnnamedTurn (db : Db) (retainedProjection : Bool) (envelope : InvocationEventEnvelope)
    (invocation : HrcBrokerInvocationRecord) (runtime : HrcRuntimeSnapshot) : Option String :=
  match envelope.inputId.or (extractInputIdFromPayload envelope) with
  | some inputId => resolveInput db envelope inputId invocation.runId
  | none =>
    match findOpenTurnStartedSeqForAttribution db envelope with
    | some startedSeq => resolveOpenBracket db envelope invocation startedSeq
    | none => resolveUnbracketed db retainedProjection envelope invocation runtime

def format2TurnKey (envelope : EnvelopeHead) (invocation : HrcBrokerInvocationRecord)
    (runtime : HrcRuntimeSnapshot) (turnId : String) : String :=
  let coordinate (n : Option Nat) : String := match n with
    | some n => toString n
    | none => "-"
  "|".intercalate [runtime.runtimeId, invocation.operationId, invocation.invocationId, turnId,
    "g=" ++ coordinate envelope.harnessGeneration, "a=" ++ coordinate envelope.turnAttempt]

def resolveFormat2RunId (db : Db) (envelope : InvocationEventEnvelope) (invocation : HrcBrokerInvocationRecord)
    (runtime : HrcRuntimeSnapshot) : Option String := do
  let turnId ← extractTurnId envelope
  let run ← RunRepository.getByTurnKey db (format2TurnKey envelope.toEnvelopeHead invocation runtime turnId)
  some run.runId

def resolveRunIdForEvent (db : Db) (retainedProjection : Bool) (envelope : InvocationEventEnvelope)
    (invocation : HrcBrokerInvocationRecord) (runtime : HrcRuntimeSnapshot) : Option String :=
  match invocation.executionFormat with
  | .format2 => resolveFormat2RunId db envelope invocation runtime
  | .format1 =>
    match resolveSubmission db envelope invocation.runId with
    | some answer => answer
    | none =>
      if (extractTurnId envelope).isSome && !envelope.type.isSubmissionRecord then
        resolveExactTurnOwner db envelope
      else resolveUnnamedTurn db retainedProjection envelope invocation runtime

def isPlaced (invocation : HrcBrokerInvocationRecord) (runtime : HrcRuntimeSnapshot) (input : HrcInputRecord) :
    Bool :=
  input.invocationId == some invocation.invocationId && input.runtimeId == some runtime.runtimeId
    && input.operationId == some invocation.operationId

def placedInput (db : Db) (invocation : HrcBrokerInvocationRecord) (runtime : HrcRuntimeSnapshot)
    (submissionId : String) : Option HrcInputRecord :=
  (InputRepository.getByBrokerSubmissionId db submissionId).filter (isPlaced invocation runtime)

def format2InputForEnvelope (db : Db) (envelope : InvocationEventEnvelope)
    (invocation : HrcBrokerInvocationRecord) (runtime : HrcRuntimeSnapshot) : Option HrcInputRecord :=
  let nativeIds := [envelope.inputId, extractInputIdFromPayload envelope,
    extractSubmissionIdFromPayload envelope].filterMap id
  match nativeIds.filterMap (placedInput db invocation runtime) with
  | [] => none
  | input :: rest => if rest.all fun other => other.inputId == input.inputId then some input else none

def format2InputsForDisposition (db : Db) (invocation : HrcBrokerInvocationRecord) (runtime : HrcRuntimeSnapshot)
    (turnId : String) (type : EventType) : List HrcInputRecord :=
  ((listByInvocationId db invocation.invocationId).filterMap fun event =>
    if event.type == type && event.brokerEventJson.stringField "turnId" == some turnId then
      (event.brokerEventJson.stringField "submissionId").bind (placedInput db invocation runtime)
    else none).eraseDups

structure Format2TurnStart where
  runId : String
  turnId : String
  initiatingInputId : Option String
  joinedInputIds : List String
  minted : Bool

variable [Host]

def mintedRun (runId turnKey turnId : String) (envelope : InvocationEventEnvelope)
    (invocation : HrcBrokerInvocationRecord) (runtime : HrcRuntimeSnapshot) (generation : Nat)
    (initiatingInputId : Option String) (now : String) : HrcRunRecord :=
  { runId, hostSessionId := runtime.hostSessionId, runtimeId := some runtime.runtimeId
    scopeRef := runtime.scopeRef, laneRef := runtime.laneRef, generation
    transport := lifecycleTransportFromRuntime runtime.transport, status := .running
    startedAt := some (envelope.time.getD now), updatedAt := now, executionFormat := .format2
    turnKey := some turnKey, nativeTurnId := some turnId
    nativeHarnessGeneration := envelope.harnessGeneration, nativeTurnAttempt := envelope.turnAttempt
    initiatingInputId, observationState := some "observed", operationId := some invocation.operationId
    invocationId := some invocation.invocationId }

def mintFormat2Run (envelope : InvocationEventEnvelope) (invocation : HrcBrokerInvocationRecord)
    (runtime : HrcRuntimeSnapshot) (generation : Nat) (turnId now : String) : M Format2TurnStart := do
  let direct ← query (format2InputForEnvelope · envelope invocation runtime)
  let executed ← query (format2InputsForDisposition · invocation runtime turnId .submissionExecuted)
  let absorbed ← query (format2InputsForDisposition · invocation runtime turnId .submissionAbsorbed)
  let initiating := direct.or executed.head?
  let initiatingInputId := initiating.map (·.inputId)
  let joined := (absorbed.map (·.inputId)).filter fun id => some id != initiatingInputId
  let uuid ← randomUUID
  let runId := "run-" ++ uuid
  let turnKey := format2TurnKey envelope.toEnvelopeHead invocation runtime turnId
  let _ ← RunRepository.insert
    (mintedRun runId turnKey turnId envelope invocation runtime generation initiatingInputId now)
  pure { runId, turnId, initiatingInputId, joinedInputIds := joined.eraseDups, minted := true }

/-- A format-2 execution is minted only from a live native `turn.started`. -/
def prepareFormat2TurnStart (envelope : InvocationEventEnvelope) (invocation : HrcBrokerInvocationRecord)
    (runtime : HrcRuntimeSnapshot) (generation : Nat) (now : String) : M (Option Format2TurnStart) := do
  let retained ← Prog.read fun s : BrokerEventMapper => s.retainedProjection
  match retained, invocation.executionFormat, envelope.type, extractTurnId envelope with
  | false, .format2, .turnStarted, some turnId => do
      let existing ← query
        (RunRepository.getByTurnKey · (format2TurnKey envelope.toEnvelopeHead invocation runtime turnId))
      match existing with
      | some run =>
        pure (some { runId := run.runId, turnId, initiatingInputId := run.initiatingInputId
                     joinedInputIds := [], minted := false })
      | none => do
          let start ← mintFormat2Run envelope invocation runtime generation turnId now
          pure (some start)
  | _, _, _, _ => pure none

inductive Mint (envelope : InvocationEventEnvelope) (invocation : HrcBrokerInvocationRecord)
    (runtime : HrcRuntimeSnapshot) : Write → Prop where
  | minted {turnId : String} (runId : String) (generation : Nat) (initiatingInputId : Option String) (now : String)
      (hformat : invocation.executionFormat = .format2) (htype : envelope.type = .turnStarted)
      (hturn : extractTurnId envelope = some turnId) :
      Mint envelope invocation runtime (.insertRun (mintedRun runId
        (format2TurnKey envelope.toEnvelopeHead invocation runtime turnId) turnId envelope invocation runtime
        generation initiatingInputId now))

section Rules

variable {P : Db → Write → Prop} {envelope : InvocationEventEnvelope} {invocation : HrcBrokerInvocationRecord}
  {runtime : HrcRuntimeSnapshot} {generation : Nat} {now : String}

theorem mintFormat2Run_writes {turnId : String} (hP : ∀ db w, Mint envelope invocation runtime w → P db w)
    (hformat : invocation.executionFormat = .format2) (hty : envelope.type = .turnStarted)
    (ht : extractTurnId envelope = some turnId) :
    Writes P (mintFormat2Run envelope invocation runtime generation turnId now) := by
  refine Emits.bind (Emits.of_readOnly (query_readOnly _)) fun direct => ?_
  refine Emits.bind (Emits.of_readOnly (query_readOnly _)) fun executed => ?_
  refine Emits.bind (Emits.of_readOnly (query_readOnly _)) fun absorbed => ?_
  refine Emits.bind randomUUID_writes fun uuid => ?_
  refine Emits.bind (fun s => RunRepository.insert_writesFrom ?_) fun _ => Emits.pure _
  exact hP _ _ (.minted _ _ _ _ hformat hty ht)

theorem prepareFormat2TurnStart_writesFrom {s : BrokerEventMapper}
    (hP : s.retainedProjection = false → ∀ db w, Mint envelope invocation runtime w → P db w) :
    WritesFrom P s (prepareFormat2TurnStart envelope invocation runtime generation now) := by
  refine EmitsFrom.read_bind ?_
  split
  · rename_i hr hformat hty ht
    refine WritesFrom.query_bind ?_
    split
    · exact EmitsFrom.pure _
    · refine EmitsFrom.bind (mintFormat2Run_writes (hP hr) hformat hty ht s) fun _ _ _ _ => ?_
      exact EmitsFrom.pure _
  · exact EmitsFrom.pure _

end Rules

end HrcRuntime.RunResolution
