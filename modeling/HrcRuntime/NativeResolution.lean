import HrcRuntime.NativeAttribution

namespace HrcRuntime.NativeResolution

open Json Records Database EventRepository Context NativeOwners NativeAttribution
open Option (bind_eq_bind bind_some)

section Runs

variable {db : Db} {invocationId : String}

theorem runForInput_mem {input : String} {r : HrcRunRecord} (h : Ownership.runForInput db input = some r) :
    r ∈ db.runs.rows := by
  rw [Ownership.runForInput, Option.or_eq_some_iff] at h
  rcases h with h | ⟨-, h⟩
  · exact List.mem_of_find?_eq_some h
  · exact List.mem_of_find?_eq_some h

theorem runIdOf_some {r : HrcRunRecord} (h : r.runId ≠ "") : RunResolution.runIdOf (some r) = some r.runId :=
  Option.filter_some_pos (by simpa using h)

theorem runIdOf_runForInput (hc : Clean db invocationId) (input : String) :
    RunResolution.runIdOf (RunResolution.runForInputIdentity db input) =
      (runForInput db input).map (·.runId) := by
  rw [runForInput_eq, RunResolution.runForInputIdentity]
  cases h : Ownership.runForInput db input with
  | none => rfl
  | some r => exact runIdOf_some (hc.runIds r (runForInput_mem h))

theorem launchRunOwningNative_eq (fallback : Option String) :
    launchRunOwningNative db fallback = RunResolution.launchRunOwningNativeInput db fallback := by
  cases fallback with
  | none => rfl
  | some id =>
    rw [launchRunOwningNative, RunResolution.launchRunOwningNativeInput]
    simp only [bind_eq_bind, bind_some]
    change (((RunRepository.getByRunId db id).filter _).map _) = _
    cases hr : RunRepository.getByRunId db id with
    | none => rfl
    | some r =>
      have hm := List.mem_of_find?_eq_some hr
      have hid : r.runId = id := by simpa using List.find?_some hr
      rw [bind_some, Option.filter_some, launchCarriedInvoke_eq hm, hid]
      cases r.completedAt <;> cases r.dispatchedInputId <;> simp
      split <;> simp [hid]

theorem foreignBracket_eq (fallback : Option String) :
    foreignBracket db fallback = RunResolution.resolveForeignBracket db fallback := by
  cases fallback with
  | none => rfl
  | some id =>
    rw [foreignBracket, RunResolution.resolveForeignBracket]
    simp only [bind_eq_bind, bind_some]
    rw [run_eq]
    cases hr : RunRepository.getByRunId db id with
    | none => simp [RunRepository.getCorrelationJson, hr, Ownership.isLaunchCarriedInvokeCorrelationJson]
    | some r =>
      have hid : r.runId = id := by simpa using List.find?_some hr
      dsimp only
      rw [launchCarriedInvoke_eq (List.mem_of_find?_eq_some hr), hid, bind_some]

theorem nativeInput_eq (input : String) :
    nativeInput db invocationId input = RunResolution.isBrokerNativeInput db invocationId input := rfl

theorem turnStartedInput_eq (envelope : InvocationEventEnvelope) (startedSeq : Nat) :
    turnStartedInput db envelope startedSeq = RunResolution.turnStartedInputId db envelope startedSeq := by
  rw [turnStartedInput, RunResolution.turnStartedInputId]
  split
  · rfl
  · have hs : (db.brokerInvocationEvents.find? fun r => r.invocationId == envelope.invocationId && r.seq == startedSeq)
        = getByInvocationAndSeq db envelope.invocationId startedSeq := rfl
    rw [hs]
    cases getByInvocationAndSeq db envelope.invocationId startedSeq with
    | none => rfl
    | some row =>
      change _ = (payloadInputId row.brokerEventJson).or _
      dsimp only
      cases payloadInputId row.brokerEventJson <;> rfl

end Runs

section Accepted

variable {db : Db} {invocationId : String}

theorem textColumn_accepted {json : Option Json} {text : Option String} (h : json = text.map .str) :
    textColumn json = .ok text := by
  subst h
  cases text <;> rfl

variable {row : HrcBrokerInvocationEventRecord}

theorem fencedRun_eq
    (h : jsonExtract row.brokerEventJson "inputId" = (row.brokerEventJson.stringField "inputId").map .str) :
    fencedRun db row = RunResolution.fencedRun db row := by
  rw [fencedRun, RunResolution.fencedRun, h]
  cases row.brokerEventJson.stringField "inputId" <;> rfl

theorem accepted_clean (hc : Clean db invocationId) {seq : Nat}
    (hr : row ∈ acceptedRows db invocationId seq) :
    jsonExtract row.brokerEventJson "inputId" = (row.brokerEventJson.stringField "inputId").map .str := by
  obtain ⟨hm, ht⟩ := List.mem_filter.mp hr
  simp only [Bool.and_eq_true, beq_iff_eq] at ht
  exact hc.acceptedInputs row hm ht.1

theorem filter_fencedRun (hc : Clean db invocationId) (seq : Nat) (p : Option HrcRunRecord → Bool) :
    ((acceptedRows db invocationId seq).filter fun row => p (fencedRun db row)) =
      (RunResolution.acceptedInputs db invocationId seq).filter fun row => p (RunResolution.fencedRun db row) := by
  apply List.filter_congr
  intro row hr
  rw [fencedRun_eq (accepted_clean hc hr)]

theorem priorInputAccepted_eq (hc : Clean db invocationId) (seq : Nat) :
    priorInputAccepted db invocationId seq =
      .ok ((RunResolution.findPriorInputAccepted db invocationId seq).map fun p => (p.inputId, p.seq)) := by
  rw [priorInputAccepted, RunResolution.findPriorInputAccepted, filter_fencedRun hc seq Option.isNone]
  simp only [bind_eq_bind]
  cases hl : ((RunResolution.acceptedInputs db invocationId seq).filter fun row =>
      (RunResolution.fencedRun db row).isNone).getLast? with
  | none => rfl
  | some row =>
    have hr := accepted_clean hc (List.mem_filter.mp (List.mem_of_getLast? hl)).1
    dsimp only
    rw [textColumn_accepted hr, bind_some]
    change Except.ok (((row.brokerEventJson.stringField "inputId").filter fun id => !id.isEmpty).map _) = _
    cases (row.brokerEventJson.stringField "inputId").filter fun id => !id.isEmpty <;> rfl

theorem priorFencedInput_eq (hc : Clean db invocationId) (seq : Nat) :
    priorFencedInput db invocationId seq = .ok (RunResolution.findPriorFencedInputAccepted db invocationId seq) := by
  rw [priorFencedInput, RunResolution.findPriorFencedInputAccepted, filter_fencedRun hc seq Option.isSome]
  simp only [bind_eq_bind]
  cases hl : ((RunResolution.acceptedInputs db invocationId seq).filter fun row =>
      (RunResolution.fencedRun db row).isSome).getLast? with
  | none => rfl
  | some row =>
    have hr := accepted_clean hc (List.mem_filter.mp (List.mem_of_getLast? hl)).1
    dsimp only
    rw [textColumn_accepted hr, bind_some, fencedRun_eq hr]
    rfl

end Accepted

section Resolution

variable {db : Db} {envelope : InvocationEventEnvelope} {invocation : HrcBrokerInvocationRecord}

theorem submissionAnswer_eq (hid : invocation.invocationId = envelope.invocationId) :
    submissionAnswer db envelope invocation = RunResolution.resolveSubmission db envelope invocation.runId := by
  rw [submissionAnswer, hid]
  simp only [launchRunOwningNative_eq]
  rfl

theorem inputAnswer_eq (hc : Clean db envelope.invocationId)
    (hid : invocation.invocationId = envelope.invocationId) (input : String) :
    inputAnswer db invocation input =
      match RunResolution.runIdOf (RunResolution.runForInputIdentity db input) with
      | some runId => some (some runId)
      | none => if RunResolution.isBrokerNativeInput db envelope.invocationId input then
          some (RunResolution.launchRunOwningNativeInput db invocation.runId) else none := by
  rw [inputAnswer, runIdOf_runForInput hc, hid, launchRunOwningNative_eq, nativeInput_eq]
  cases runForInput db input <;> rfl

theorem fencedAnswer_eq (hc : Clean db envelope.invocationId)
    (hid : invocation.invocationId = envelope.invocationId) (seq : Nat) :
    fencedAnswer db invocation seq =
      .ok ((RunResolution.findPriorFencedInputAccepted db envelope.invocationId seq).or invocation.runId) := by
  rw [fencedAnswer, hid, priorFencedInput_eq hc]
  cases RunResolution.findPriorFencedInputAccepted db envelope.invocationId seq <;> rfl

theorem bracketAnswer_eq (hc : Clean db envelope.invocationId)
    (hid : invocation.invocationId = envelope.invocationId) (started : Nat) :
    bracketAnswer db envelope invocation started =
      .ok (RunResolution.resolveOpenBracket db envelope invocation started) := by
  rw [bracketAnswer, RunResolution.resolveOpenBracket, turnStartedInput_eq, foreignBracket_eq]
  change (if (RunResolution.bracketMintingMode invocation == _ && _) = true then _ else _) = _
  split
  · rfl
  · rw [hid, priorInputAccepted_eq hc, fencedAnswer_eq hc hid, RunResolution.resolveBracketInput]
    simp only [bind_eq_bind]
    cases RunResolution.findPriorInputAccepted db envelope.invocationId started with
    | none => rfl
    | some prior =>
      dsimp only [Option.map_some, bind_some]
      rw [inputAnswer_eq hc hid]
      cases RunResolution.runIdOf (RunResolution.runForInputIdentity db prior.inputId) with
      | some runId => rfl
      | none =>
        dsimp only
        cases RunResolution.isBrokerNativeInput db envelope.invocationId prior.inputId <;> rfl

theorem noBracketOwner_eq (hc : Clean db envelope.invocationId)
    (hid : invocation.invocationId = envelope.invocationId) (prior : RunResolution.PriorInput)
    (runtime : HrcRuntimeSnapshot) :
    noBracketOwner db envelope (prior.inputId, prior.seq) invocation runtime =
      RunResolution.resolveNoBracketOwner db envelope prior invocation runtime := by
  rw [noBracketOwner, RunResolution.resolveNoBracketOwner, hid, runForInput_eq, RunResolution.runForInputIdentity]
  simp only [bind_eq_bind]
  cases h : Ownership.runForInput db prior.inputId with
  | none => rfl
  | some candidate =>
    rw [bind_some, runIdOf_some (hc.runIds candidate (runForInput_mem h)), bind_some]
    rfl

theorem unbracketedAnswer_eq (hc : Clean db envelope.invocationId)
    (hid : invocation.invocationId = envelope.invocationId) (runtime : HrcRuntimeSnapshot) (retained : Bool) :
    unbracketedAnswer db envelope invocation runtime retained =
      .ok (RunResolution.resolveUnbracketed db retained envelope invocation runtime) := by
  rw [unbracketedAnswer, RunResolution.resolveUnbracketed, hid, priorInputAccepted_eq hc,
    fencedAnswer_eq hc hid]
  cases RunResolution.findPriorInputAccepted db envelope.invocationId envelope.seq with
  | none => rfl
  | some prior =>
    dsimp only [Option.map_some]
    rw [noBracketOwner_eq hc hid]

theorem resolveRunId_eq (hc : Clean db envelope.invocationId)
    (hid : invocation.invocationId = envelope.invocationId) (hformat : invocation.executionFormat = .format1)
    (runtime : HrcRuntimeSnapshot) (retained : Bool) :
    resolveRunId db envelope invocation runtime retained =
      .ok (RunResolution.resolveRunIdForEvent db retained envelope invocation runtime) := by
  rw [resolveRunId, RunResolution.resolveRunIdForEvent, hformat, submissionAnswer_eq hid]
  dsimp only
  cases RunResolution.resolveSubmission db envelope invocation.runId with
  | some answer => rfl
  | none =>
    dsimp only
    rw [exactTurnOwner_eq hc]
    change (if ((extractTurnId envelope).isSome && _) = true then _ else _) = _
    split
    · rfl
    · rw [RunResolution.resolveUnnamedTurn]
      have hi : envelopeInputId envelope = envelope.inputId.or (extractInputIdFromPayload envelope) := rfl
      rw [hi]
      cases envelope.inputId.or (extractInputIdFromPayload envelope) with
      | some input =>
        dsimp only
        rw [inputAnswer_eq hc hid, RunResolution.resolveInput]
        cases RunResolution.runIdOf (RunResolution.runForInputIdentity db input) with
        | some runId => rfl
        | none =>
          dsimp only
          cases RunResolution.isBrokerNativeInput db envelope.invocationId input <;> rfl
      | none =>
        have hop : openTurnStartedSeq db envelope = RunResolution.findOpenTurnStartedSeqForAttribution db envelope := rfl
        dsimp only
        rw [hop]
        cases RunResolution.findOpenTurnStartedSeqForAttribution db envelope with
        | some started => exact bracketAnswer_eq hc hid started
        | none => exact unbracketedAnswer_eq hc hid runtime retained

structure SameAttribution (db : Db) (envelope : InvocationEventEnvelope) : Prop where
  owner : exactTurnOwner db envelope = Ownership.resolveExactTurnOwner db envelope
  openTurn : otherOpenTurn db envelope = Ownership.hasOtherOpenTurn db envelope
  superseded : supersededRuns db envelope = Ownership.runsSupersededByTerminal db envelope
  run : ∀ invocation runtime retained, getByInvocationId db envelope.invocationId = some invocation →
    invocation.executionFormat = .format1 →
      resolveRunId db envelope invocation runtime retained =
        .ok (RunResolution.resolveRunIdForEvent db retained envelope invocation runtime)
  refused : ∀ invocation runtime retained, getByInvocationId db envelope.invocationId = some invocation →
    Repositories.getByRuntimeId db invocation.runtimeId = some runtime → invocation.executionFormat = .format2 →
      projectRunId db envelope retained =
        .error (.bail ("format2 broker invocations are unsupported by rusthrc: " ++ envelope.invocationId))

/-- Over a store its writers keep clean, the native port attributes every format-1 event as the
other daemon does, and refuses every format-2 one. -/
theorem same_attribution (db : Db) (envelope : InvocationEventEnvelope) (hclean : Clean db envelope.invocationId) :
    SameAttribution db envelope where
  owner := exactTurnOwner_eq hclean
  openTurn := otherOpenTurn_eq hclean
  superseded := supersededRuns_eq hclean
  run invocation runtime retained hi hformat := by
    have hid : invocation.invocationId = envelope.invocationId := by simpa using List.find?_some hi
    exact resolveRunId_eq hclean hid hformat runtime retained
  refused invocation runtime retained hi hrt hformat := by
    have hf : (db.brokerInvocations.find? fun r => r.invocationId == envelope.invocationId) = some invocation :=
      hi
    have hown : (db.runtimes.find? fun r => r.runtimeId == invocation.runtimeId) = some runtime := hrt
    unfold projectRunId
    rw [hf]
    dsimp only
    rw [hown]
    exact if_pos (by rw [hformat]; rfl)

end Resolution

namespace Sample

def invocation (format : ExecutionFormat) : HrcBrokerInvocationRecord :=
  { invocationId := "inv-1", operationId := "op-1", runtimeId := "rt-1", runId := some "run-2"
    executionFormat := format }

def runtime : HrcRuntimeSnapshot := { runtimeId := "rt-1", hostSessionId := "hsid-1" }

def turnRun : HrcRunRecord :=
  { runId := "run-1", runtimeId := some "rt-1", operationId := some "op-1", invocationId := some "inv-1" }

def launchRun : HrcRunRecord :=
  { turnRun with correlationJson := some (Json.object [("kind", Json.str "launch_carried_invoke_turn")]) }

def row (seq : Nat) (type : EventType) (payload : Json) : HrcBrokerInvocationEventRecord :=
  { invocationId := "inv-1", runtimeId := "rt-1", seq, type, brokerEventJson := payload }

def store (format : ExecutionFormat) (run : HrcRunRecord) (event : HrcBrokerInvocationEventRecord) : Db :=
  { brokerInvocations := ⟨[invocation format], List.pairwise_singleton _ _⟩
    runtimes := ⟨[runtime], by decide⟩
    runtimeOperations := ⟨[{ operationId := "op-1", runtimeId := "rt-1" }], by decide⟩
    runs := ⟨[run], List.pairwise_singleton _ _⟩
    brokerInvocationEvents := ⟨[event], List.pairwise_singleton _ _⟩ }

def started (inputId : String) : HrcBrokerInvocationEventRecord :=
  row 1 .turnStarted (Json.object [("turnId", Json.str "t-1"), ("inputId", Json.str inputId)])

def terminal : InvocationEventEnvelope :=
  { invocationId := "inv-1", seq := 2, type := .turnCompleted, turnId := some "t-1" }

def usage (inputId : Option String) : InvocationEventEnvelope :=
  { invocationId := "inv-1", seq := 2, type := .usageUpdated, inputId }

def cleanStore : Db := store .format1 { turnRun with dispatchedInputId := some "in-1" } (started "in-1")

theorem cleanStore_clean : Clean cleanStore "inv-1" where
  startInputs := by decide +kernel
  acceptedInputs := by decide +kernel
  runIds := by decide +kernel

def format2Store : Db :=
  store .format2 { turnRun with turnKey := some "rt-1|op-1|inv-1|t-1|g=-|a=-" } (started "in-1")

def emptyInputStore : Db := store .format1 launchRun (started "")

def emptyRunStore : Db := store .format1 { turnRun with runId := "", dispatchedInputId := some "in-1" } (started "in-1")

def numberStore : Db := store .format1 turnRun (row 1 .inputAccepted (Json.object [("inputId", Json.num 5)]))

end Sample

theorem same_attribution_sample : exactTurnOwner Sample.cleanStore Sample.terminal = some "run-1" ∧
    SameAttribution Sample.cleanStore Sample.terminal :=
  ⟨by decide +kernel, same_attribution _ _ Sample.cleanStore_clean⟩

/-- The two daemons differ over a format-2 run, over a start that names the empty input, over a run
without an id and over an accepted input that is a number. -/
theorem attribution_differs :
    (RunResolution.resolveRunIdForEvent Sample.format2Store false Sample.terminal (Sample.invocation .format2)
        Sample.runtime = some "run-1" ∧
      resolveRunId Sample.format2Store Sample.terminal (Sample.invocation .format2) Sample.runtime false = .ok none) ∧
    (Ownership.resolveExactTurnOwner Sample.emptyInputStore Sample.terminal = some "run-1" ∧
      exactTurnOwner Sample.emptyInputStore Sample.terminal = none) ∧
    (RunResolution.resolveRunIdForEvent Sample.emptyRunStore false (Sample.usage (some "in-1"))
        (Sample.invocation .format1) Sample.runtime = some "run-2" ∧
      resolveRunId Sample.emptyRunStore (Sample.usage (some "in-1")) (Sample.invocation .format1) Sample.runtime
        false = .ok (some "")) ∧
    RunResolution.resolveRunIdForEvent Sample.numberStore false (Sample.usage none) (Sample.invocation .format1)
        Sample.runtime = some "run-2" ∧
      resolveRunId Sample.numberStore (Sample.usage none) (Sample.invocation .format1) Sample.runtime false =
        .error .invalidColumnType := by
  decide +kernel

end HrcRuntime.NativeResolution
