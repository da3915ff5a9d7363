import HrcRuntime.RunResolution
import HrcRuntime.Stability

namespace HrcRuntime.Attribution

open Records Relational Database EventRepository Repositories Ownership Context RunResolution Stability
open RunRepository
open List (filter_congr mem_filter mem_of_find?_eq_some mem_singleton)
open Option (or_eq_some_iff map_none map_eq_none_iff bind_eq_bind bind_some map_eq_some_iff toList_some
  map_some)

def ledgerThrough (db : Db) (invocationId : String) (seq : Nat) : List HrcBrokerInvocationEventRecord :=
  (listByInvocationId db invocationId).filter fun r => decide (r.seq ≤ seq)

def rowNames (row : HrcBrokerInvocationEventRecord) : List String :=
  (row.brokerEnvelopeJson.bind (·.inputId)).toList ++ (row.brokerEventJson.stringField "inputId").toList
    ++ (row.brokerEventJson.stringField "submissionId").toList

def names (db : Db) (envelope : InvocationEventEnvelope) : List String :=
  envelope.inputId.toList ++ (extractInputIdFromPayload envelope).toList
    ++ (extractSubmissionIdFromPayload envelope).toList
    ++ (ledgerThrough db envelope.invocationId envelope.seq).flatMap rowNames

structure SameBindings (envelope : InvocationEventEnvelope) (a b : Db) : Prop where
  dispatched : ∀ inputId ∈ names a envelope,
    (getByDispatchedInputId b inputId).map identity = (getByDispatchedInputId a inputId).map identity
  submitted : ∀ submissionId ∈ names a envelope,
    (getByBrokerSubmissionId b submissionId).map identity = (getByBrokerSubmissionId a submissionId).map identity
  fenced : ∀ row ∈ ledgerThrough a envelope.invocationId envelope.seq,
    (fencedRun b row).map identity = (fencedRun a row).map identity
  correlated : (listCorrelatedByInvocationId b envelope.invocationId).map identity
    = (listCorrelatedByInvocationId a envelope.invocationId).map identity
  carrier : (getByInvocationId b envelope.invocationId).bind (·.runId)
    = (getByInvocationId a envelope.invocationId).bind (·.runId)
  carried : ∀ runId ∈ (getByInvocationId a envelope.invocationId).bind (·.runId),
    (getByRunId b runId).map identity = (getByRunId a runId).map identity

variable {envelope : InvocationEventEnvelope}

theorem sameBindings_of_runs {a b : Db} (hr : b.runs = a.runs)
    (hc : (getByInvocationId b envelope.invocationId).bind (·.runId)
      = (getByInvocationId a envelope.invocationId).bind (·.runId)) : SameBindings envelope a b := by
  refine ⟨fun _ _ => ?_, fun _ _ => ?_, fun _ _ => ?_, ?_, hc, fun _ _ => ?_⟩
  · rw [getByDispatchedInputId, getByDispatchedInputId, hr]
  · rw [getByBrokerSubmissionId, getByBrokerSubmissionId, hr]
  · rw [fencedRun, fencedRun, hr]
  · rw [listCorrelatedByInvocationId, listCorrelatedByInvocationId, hr]
  · rw [getByRunId, getByRunId, hr]

/-- What immutable evidence a resolution reads: where the invocation runs, its stored rows up to the event
and the run bindings. -/
structure SameEvidence (envelope : InvocationEventEnvelope) (a b : Db) : Prop where
  placement : SamePlacement a b
  ledger : ledgerThrough b envelope.invocationId envelope.seq = ledgerThrough a envelope.invocationId envelope.seq
  bindings : SameBindings envelope a b

section Ledger

variable {a b : Db} {invocationId : String} {seq : Nat}

variable {p : HrcBrokerInvocationEventRecord → Bool}

theorem filter_through {db : Db} (hp : ∀ r, p r = true → r.seq ≤ seq) :
    (listByInvocationId db invocationId).filter p = (ledgerThrough db invocationId seq).filter p := by
  unfold ledgerThrough
  rw [List.filter_filter]
  refine filter_congr fun r _ => ?_
  cases h : p r with
  | false => rfl
  | true => simp [hp r h]

theorem any_through {db : Db} (hp : ∀ r, p r = true → r.seq ≤ seq) :
    (listByInvocationId db invocationId).any p = (ledgerThrough db invocationId seq).any p := by
  unfold ledgerThrough
  rw [List.any_filter]
  congr 1
  funext r
  cases h : p r with
  | false => simp
  | true => simp [hp r h]

variable {n : Nat}

theorem getByInvocationAndSeq_through {db : Db} (hn : n ≤ seq) :
    getByInvocationAndSeq db invocationId n = (ledgerThrough db invocationId seq).find? fun r => r.seq == n := by
  have hm {r : HrcBrokerInvocationEventRecord} : r ∈ ledgerThrough db invocationId seq ↔
      (r ∈ db.brokerInvocationEvents.rows ∧ r.invocationId = invocationId) ∧ r.seq ≤ seq := by
    simp only [ledgerThrough, listByInvocationId, mem_filter, mem_orderBy, beq_iff_eq, decide_eq_true_eq]
  cases h : (ledgerThrough db invocationId seq).find? fun r => r.seq == n with
  | none =>
    refine List.find?_eq_none.mpr fun r hr hk => ?_
    simp only [Bool.and_eq_true, beq_iff_eq] at hk
    exact List.find?_eq_none.mp h r (hm.mpr ⟨⟨hr, hk.1⟩, by omega⟩) (by simp [hk.2])
  | some row =>
    obtain ⟨⟨hrow, hid⟩, -⟩ := hm.mp (mem_of_find?_eq_some h)
    have hseq : row.seq = n := by simpa using List.find?_some h
    have hf : (getByInvocationAndSeq db invocationId n).isSome = true :=
      List.find?_isSome.mpr ⟨row, hrow, by simp [hid, hseq]⟩
    obtain ⟨row', hrow'⟩ := Option.isSome_iff_exists.mp hf
    have hk : row'.invocationId = invocationId ∧ row'.seq = n := by simpa using List.find?_some hrow'
    rw [hrow', row_unique db.brokerInvocationEvents (fun r => some (r.invocationId, r.seq)) (by simp)
      (mem_of_find?_eq_some hrow') hrow (k := (invocationId, n)) (by rw [hk.1, hk.2]) (by rw [hid, hseq])]

variable (h : ledgerThrough b invocationId seq = ledgerThrough a invocationId seq)
include h

theorem filter_agrees (hp : ∀ r, p r = true → r.seq ≤ seq) :
    (listByInvocationId b invocationId).filter p = (listByInvocationId a invocationId).filter p := by
  rw [filter_through hp, filter_through hp, h]

theorem any_agrees (hp : ∀ r, p r = true → r.seq ≤ seq) :
    (listByInvocationId b invocationId).any p = (listByInvocationId a invocationId).any p := by
  rw [any_through hp, any_through hp, h]

theorem getByInvocationAndSeq_agrees (hn : n ≤ seq) :
    getByInvocationAndSeq b invocationId n = getByInvocationAndSeq a invocationId n := by
  rw [getByInvocationAndSeq_through hn, getByInvocationAndSeq_through hn, h]

theorem listByTypes_agrees {q : EventQuery} (hq : q.throughSeq = some n) (hn : n ≤ seq) :
    listByInvocationIdAndTypes b invocationId q = listByInvocationIdAndTypes a invocationId q := by
  refine filter_agrees h fun r hr => ?_
  simp only [EventQuery.selects, hq, Bool.and_eq_true, decide_eq_true_eq] at hr
  exact Nat.le_trans hr.1.1.2 hn

theorem findOpenTurnStartedSeq_agrees {envelope : InvocationEventEnvelope} (hid : envelope.invocationId = invocationId)
    (hseq : envelope.seq = seq) :
    findOpenTurnStartedSeqForAttribution b envelope = findOpenTurnStartedSeqForAttribution a envelope := by
  subst hid hseq
  unfold findOpenTurnStartedSeqForAttribution
  split
  · rfl
  · have hcl (started : HrcBrokerInvocationEventRecord) :
        (listByInvocationId b envelope.invocationId).any (fun terminal => terminal.type.isTurnTerminal
            && decide (started.seq < terminal.seq) && decide (terminal.seq < envelope.seq))
          = (listByInvocationId a envelope.invocationId).any (fun terminal => terminal.type.isTurnTerminal
            && decide (started.seq < terminal.seq) && decide (terminal.seq < envelope.seq)) := by
      refine any_agrees h fun r hr => ?_
      simp only [Bool.and_eq_true, decide_eq_true_eq] at hr
      omega
    dsimp only
    simp only [hcl]
    rw [filter_agrees h fun r hr => by
      simp only [Bool.and_eq_true, decide_eq_true_eq] at hr
      exact hr.1.2]

theorem findPriorTerminalTurnSeq_agrees (hn : n ≤ seq) :
    findPriorTerminalTurnSeq b invocationId n = findPriorTerminalTurnSeq a invocationId n := by
  unfold findPriorTerminalTurnSeq
  rw [filter_agrees h fun r hr => by
    simp only [Bool.and_eq_true, decide_eq_true_eq] at hr
    omega]

end Ledger

section Bindings

variable {a b : Db} {envelope : InvocationEventEnvelope} (h : SameEvidence envelope a b)
include h

variable {x y : Option HrcRunRecord} {invocationId : String}

omit h in
theorem map_of_identity {τ : Type} {f : HrcRunRecord → τ} (hf : ∀ r, f (identity r) = f r)
    (hxy : y.map identity = x.map identity) : y.map f = x.map f := by
  have hc (o : Option HrcRunRecord) : o.map f = (o.map identity).map f := by
    rw [Option.map_map]
    congr 1
    exact funext fun r => (hf r).symm
  rw [hc y, hc x, hxy]

omit h in
theorem bind_of_identity {τ : Type} {f : HrcRunRecord → Option τ} (hf : ∀ r, f (identity r) = f r)
    (hxy : y.map identity = x.map identity) : y.bind f = x.bind f := by
  have hm := map_of_identity hf hxy
  cases x <;> cases y <;> simp_all

variable {run : HrcRunRecord} {id : String} {db : Db}

omit h in
theorem names_of_row {row : HrcBrokerInvocationEventRecord}
    (hr : row ∈ ledgerThrough db envelope.invocationId envelope.seq) (hid : id ∈ rowNames row) : id ∈ names db envelope :=
  List.mem_append_right _ (List.mem_flatMap.mpr ⟨row, hr, hid⟩)

omit h in
theorem names_of_input (hid : id ∈ envelope.inputId.or (extractInputIdFromPayload envelope)) :
    id ∈ names db envelope := by
  unfold names
  rcases or_eq_some_iff.mp hid with hinput | ⟨-, hinput⟩ <;> simp [hinput]

omit h in
theorem names_of_submission (hid : extractSubmissionIdFromPayload envelope = some id) :
    id ∈ names db envelope := by
  unfold names
  simp [hid]

variable {inputId : String} (hinput : inputId ∈ names a envelope)

include hinput in
theorem runForInput_agrees : (runForInput b inputId).map identity = (runForInput a inputId).map identity := by
  unfold runForInput
  rw [Option.map_or, Option.map_or, h.bindings.dispatched inputId hinput, h.bindings.submitted inputId hinput]

include hinput in
theorem runIdOf_agrees : runIdOf (runForInputIdentity b inputId) = runIdOf (runForInputIdentity a inputId) := by
  unfold runIdOf runForInputIdentity
  rw [map_of_identity (fun _ => rfl) (runForInput_agrees h hinput)]

def epochKey (db : Db) (invocationId : String) : Option (String × String × Nat) :=
  (historicalEpoch db invocationId).map fun epoch =>
    (epoch.invocation.runtimeId, epoch.invocation.operationId, epoch.operation.generation)

omit h in
theorem epochKey_stable (hp : SamePlacement a b) (invocationId : String) :
    epochKey b invocationId = epochKey a invocationId := by
  have hid := getByInvocationId_identity hp invocationId
  unfold epochKey historicalEpoch getByOperationId
  rw [hp.operations]
  cases ha : getByInvocationId a invocationId with
  | none =>
    rw [ha, map_none, map_eq_none_iff] at hid
    rw [hid]
  | some row =>
    obtain ⟨row', hb, hsm⟩ := getByInvocationId_stable hp ha
    have hrt : row'.runtimeId = row.runtimeId := congrArg (·.runtimeId) hsm
    have hop : row'.operationId = row.operationId := congrArg (·.operationId) hsm
    rw [hb]
    simp only [bind_eq_bind, bind_some, hop, hrt]
    cases a.runtimeOperations.find? fun r => r.operationId == row.operationId with
    | none => rfl
    | some operation =>
      simp only [bind_some]
      split <;> simp [hrt, hop]

def owned (epoch : Option (String × String × Nat)) (invocationId : String) (run : HrcRunRecord) : Option String :=
  epoch.bind fun epoch =>
    if run.runtimeId == some epoch.1 && run.invocationId == some invocationId && run.operationId == some epoch.2.1
        && run.generation == epoch.2.2 then some run.runId
    else none

omit h in
theorem validCandidate_of_mem (hr : run ∈ db.runs.rows) :
    validCandidate db invocationId run.runId = owned (epochKey db invocationId) invocationId run := by
  unfold validCandidate owned epochKey
  rw [getByRunId_of_mem hr]
  cases historicalEpoch db invocationId with
  | none => rfl
  | some epoch => rfl

theorem candidate_agrees (hx : ∀ run ∈ x, run ∈ a.runs.rows)
    (hy : ∀ run ∈ y, run ∈ b.runs.rows) (hxy : y.map identity = x.map identity) :
    (y.bind fun run => validCandidate b invocationId run.runId)
      = x.bind fun run => validCandidate a invocationId run.runId := by
  have hof {db : Db} {o : Option HrcRunRecord} (ho : ∀ run ∈ o, run ∈ db.runs.rows) :
      (o.bind fun run => validCandidate db invocationId run.runId)
        = o.bind (owned (epochKey db invocationId) invocationId) := by
    cases o with
    | none => rfl
    | some run => exact validCandidate_of_mem (ho run rfl)
  rw [hof hx, hof hy, epochKey_stable h.placement]
  exact bind_of_identity (fun _ => rfl) hxy

omit h in
theorem runForInput_mem {inputId : String} (hr : run ∈ runForInput db inputId) :
    run ∈ db.runs.rows := by
  rcases or_eq_some_iff.mp hr with hf | ⟨-, hf⟩ <;> exact mem_of_find?_eq_some hf

theorem inputCandidate_agrees {inputId : Option String}
    (hn : ∀ id ∈ inputId, id ∈ names a envelope) :
    inputCandidate b invocationId inputId = inputCandidate a invocationId inputId := by
  cases inputId with
  | none => rfl
  | some inputId =>
    exact candidate_agrees h (fun _ => runForInput_mem) (fun _ => runForInput_mem)
      (runForInput_agrees h (hn inputId rfl))

theorem submissionCandidate_agrees {submissionId : Option String}
    (hn : ∀ id ∈ submissionId, id ∈ names a envelope) :
    submissionCandidate b invocationId submissionId = submissionCandidate a invocationId submissionId := by
  cases submissionId with
  | none => rfl
  | some submissionId =>
    exact candidate_agrees h (fun _ => mem_of_find?_eq_some) (fun _ => mem_of_find?_eq_some)
      (h.bindings.submitted submissionId (hn submissionId rfl))

theorem evidenceCandidate_agrees {event : ParsedEvent}
    (hinput : ∀ id ∈ event.inputId, id ∈ names a envelope)
    (hsb : ∀ id ∈ event.submissionId, id ∈ names a envelope) :
    evidenceCandidate b invocationId event = evidenceCandidate a invocationId event := by
  unfold evidenceCandidate
  rw [inputCandidate_agrees h hinput, submissionCandidate_agrees h hsb]

end Bindings

section Owner

variable {a b : Db} {envelope : InvocationEventEnvelope} (h : SameEvidence envelope a b)
include h

theorem envelopeCandidate_agrees : envelopeCandidate b envelope = envelopeCandidate a envelope := by
  have hinput : ∀ id ∈ inputIdForEnvelope envelope, id ∈ names a envelope := fun id hid => names_of_input hid
  unfold envelopeCandidate
  rw [inputCandidate_agrees h hinput]

theorem turnEvidence_agrees (runtimeId : String) (target : TurnCoordinates) :
    turnEvidence b envelope.invocationId runtimeId target envelope.seq
      = turnEvidence a envelope.invocationId runtimeId target envelope.seq := by
  unfold turnEvidence
  rw [listByTypes_agrees h.ledger rfl (Nat.le_refl _)]

theorem storedFirstStart_agrees (runtimeId : String) :
    storedFirstStart b envelope.invocationId runtimeId envelope.seq
      = storedFirstStart a envelope.invocationId runtimeId envelope.seq := by
  unfold storedFirstStart
  rw [listByTypes_agrees h.ledger rfl (Nat.le_refl _)]

variable {target : TurnCoordinates} {epoch : HistoricalEpoch}

omit h in
theorem turnEvidence_names {db : Db} {runtimeId : String} {event : ParsedEvent}
    (hev : event ∈ turnEvidence db envelope.invocationId runtimeId target envelope.seq) :
    (∀ id ∈ event.inputId, id ∈ names db envelope) ∧ ∀ id ∈ event.submissionId, id ∈ names db envelope := by
  obtain ⟨row, hr, hpr⟩ := List.mem_filterMap.mp (mem_filter.mp hev).1
  obtain ⟨hl, hsel⟩ := mem_filter.mp hr
  have ht : row ∈ ledgerThrough db envelope.invocationId envelope.seq := by
    simp only [EventQuery.selects, Bool.and_eq_true] at hsel
    exact mem_filter.mpr ⟨hl, hsel.1.1.2⟩
  obtain ⟨turnId, -, rfl⟩ := map_eq_some_iff.mp hpr
  refine ⟨fun id hid => names_of_row ht ?_, fun id hid => names_of_row ht ?_⟩
  · rcases or_eq_some_iff.mp (Option.filter_eq_some_iff.mp hid).1 with hinput | ⟨-, hinput⟩
    · simp only [rowNames, hinput, toList_some, List.mem_append, mem_singleton, true_or]
    · simp only [rowNames, hinput, toList_some, List.mem_append, mem_singleton, true_or, or_true]
  · have hid : row.brokerEventJson.stringField "submissionId" = some id := hid
    simp only [rowNames, hid, toList_some, List.mem_append, mem_singleton, or_true]

omit h in
theorem launchCandidates_eq {db : Db} {invocationId : String}
    (he : historicalEpoch db invocationId = some epoch) :
    launchCandidates db invocationId epoch = (listCorrelatedByInvocationId db invocationId).filterMap fun run =>
      if isLaunchCarriedInvokeCorrelationJson run.correlationJson then owned (epochKey db invocationId) invocationId run
      else none := by
  unfold launchCandidates
  refine List.filterMap_congr fun run hr => ?_
  have hm : run ∈ db.runs.rows := (mem_filter.mp hr).1
  have howns : epoch.owns invocationId run = (owned (epochKey db invocationId) invocationId run).isSome := by
    simp only [owned, epochKey, he, map_some, bind_some, HistoricalEpoch.owns]
    split <;> simp_all
  rw [getCorrelationJson, getByRunId_of_mem hm, bind_some, validCandidate_of_mem hm, howns]
  cases how : owned (epochKey db invocationId) invocationId run <;> simp

omit h in
theorem filterMap_of_identity {τ : Type} {f : HrcRunRecord → Option τ} (hf : ∀ r, f (identity r) = f r)
    {l l' : List HrcRunRecord} (hl : l'.map identity = l.map identity) : l'.filterMap f = l.filterMap f := by
  have hc (l : List HrcRunRecord) : l.filterMap f = (l.map identity).filterMap f := by
    rw [List.filterMap_map]
    exact List.filterMap_congr fun r _ => (hf r).symm
  rw [hc l', hc l, hl]

theorem ownerCandidates_agrees {epoch' : HistoricalEpoch}
    (ha : historicalEpoch a envelope.invocationId = some epoch)
    (hb : historicalEpoch b envelope.invocationId = some epoch')
    (hrt : epoch'.invocation.runtimeId = epoch.invocation.runtimeId) :
    ownerCandidates b envelope target epoch' = ownerCandidates a envelope target epoch := by
  have hl : launchCandidates b envelope.invocationId epoch' = launchCandidates a envelope.invocationId epoch := by
    rw [launchCandidates_eq ha, launchCandidates_eq hb, epochKey_stable h.placement]
    exact filterMap_of_identity (fun _ => rfl) h.bindings.correlated
  have he : (turnEvidence a envelope.invocationId epoch.invocation.runtimeId target envelope.seq).filterMap
        (evidenceCandidate b envelope.invocationId)
      = (turnEvidence a envelope.invocationId epoch.invocation.runtimeId target envelope.seq).filterMap
        (evidenceCandidate a envelope.invocationId) :=
    List.filterMap_congr fun event hev =>
      evidenceCandidate_agrees h (turnEvidence_names hev).1 (turnEvidence_names hev).2
  unfold ownerCandidates
  dsimp only
  rw [hrt, turnEvidence_agrees h, storedFirstStart_agrees h, envelopeCandidate_agrees h, hl, he]

theorem resolveExactTurnOwner_agrees : resolveExactTurnOwner b envelope = resolveExactTurnOwner a envelope := by
  have hk := epochKey_stable h.placement envelope.invocationId
  unfold resolveExactTurnOwner
  cases ht : coordinatesForEnvelope envelope with
  | none => rfl
  | some target =>
    unfold epochKey at hk
    cases ha : historicalEpoch a envelope.invocationId with
    | none =>
      rw [ha, map_none, map_eq_none_iff] at hk
      simp only [hk, bind_eq_bind, bind_some, Option.bind_none]
    | some epoch =>
      rw [ha, map_some, map_eq_some_iff] at hk
      obtain ⟨epoch', hb, hk⟩ := hk
      have hrt : epoch'.invocation.runtimeId = epoch.invocation.runtimeId := congrArg (·.1) hk
      have hf : turnIsForeign b envelope target epoch' = turnIsForeign a envelope target epoch := by
        unfold turnIsForeign
        rw [hrt, turnEvidence_agrees h]
      rw [hb]
      simp only [bind_eq_bind, bind_some, hf, ownerCandidates_agrees h ha hb hrt]

end Owner

def isNamedTurn (envelope : InvocationEventEnvelope) : Bool :=
  (extractTurnId envelope).isSome && !envelope.type.isSubmissionRecord

def AsksCarrier (envelope : InvocationEventEnvelope) (invocation : HrcBrokerInvocationRecord) : Prop :=
  invocation.executionFormat = .format1 ∧ isNamedTurn envelope = false

def AsksOwner (db : Db) (retained : Bool) (envelope : InvocationEventEnvelope) (invocation : HrcBrokerInvocationRecord) :
    Prop :=
  AsksCarrier envelope invocation ∧ retained = false ∧
    envelope.inputId.or (extractInputIdFromPayload envelope) = none ∧
    findOpenTurnStartedSeqForAttribution db envelope = none

instance (envelope : InvocationEventEnvelope) (invocation : HrcBrokerInvocationRecord) :
    Decidable (AsksCarrier envelope invocation) := by unfold AsksCarrier; infer_instance

instance (db : Db) (retained : Bool) (envelope : InvocationEventEnvelope) (invocation : HrcBrokerInvocationRecord) :
    Decidable (AsksOwner db retained envelope invocation) := by unfold AsksOwner; infer_instance

structure SamePresent (retained : Bool) (envelope : InvocationEventEnvelope) (a b : Db)
    (invocation : HrcBrokerInvocationRecord) (runtime runtime' : HrcRuntimeSnapshot) : Prop where
  turn : invocation.executionFormat = .format2 → ∀ key,
    (getByTurnKey b key).map (·.runId) = (getByTurnKey a key).map (·.runId)
  native : AsksCarrier envelope invocation → ∀ inputId,
    isBrokerNativeInput b envelope.invocationId inputId = isBrokerNativeInput a envelope.invocationId inputId
  completed : AsksCarrier envelope invocation → ∀ runId ∈ invocation.runId,
    (getByRunId b runId).map (·.completedAt.isSome) = (getByRunId a runId).map (·.completedAt.isSome)
  activeRunId : AsksOwner a retained envelope invocation → runtime'.activeRunId = runtime.activeRunId
  asking : AsksOwner a retained envelope invocation →
    runtimeHasAnyOpenAskBracket b runtime' = runtimeHasAnyOpenAskBracket a runtime
  busy : AsksOwner a retained envelope invocation → ∀ runId,
    hasOtherActiveNonterminalRun b runtime.runtimeId runId = hasOtherActiveNonterminalRun a runtime.runtimeId runId

theorem samePresent_of_runs {retained : Bool} {a b : Db}
    {invocation : HrcBrokerInvocationRecord} {runtime : HrcRuntimeSnapshot} (hr : b.runs = a.runs)
    (hn : ∀ inputId,
      isBrokerNativeInput b envelope.invocationId inputId = isBrokerNativeInput a envelope.invocationId inputId)
    (hask : runtimeHasAnyOpenAskBracket b runtime = runtimeHasAnyOpenAskBracket a runtime) :
    SamePresent retained envelope a b invocation runtime runtime := by
  refine ⟨fun _ _ => ?_, fun _ => hn, fun _ _ _ => ?_, fun _ => rfl, fun _ => hask, fun _ _ => ?_⟩
  · rw [getByTurnKey, getByTurnKey, hr]
  · rw [getByRunId, getByRunId, hr]
  · rw [hasOtherActiveNonterminalRun, hasOtherActiveNonterminalRun, listByRuntimeId, listByRuntimeId, hr]

structure SamePlace (a b : Db) (invocation invocation' : HrcBrokerInvocationRecord)
    (runtime runtime' : HrcRuntimeSnapshot) : Prop where
  placed : invocationIdentity invocation' = invocationIdentity invocation
  placedRuntime : runtimeIdentity runtime' = runtimeIdentity runtime
  runId : invocation'.runId = invocation.runId
  carried : ∀ runId ∈ invocation.runId, (getByRunId b runId).map identity = (getByRunId a runId).map identity

section Resolution

variable {a b : Db} {envelope : InvocationEventEnvelope} {invocation invocation' : HrcBrokerInvocationRecord}
  {runtime runtime' : HrcRuntimeSnapshot} {retained : Bool}
  (h : SameEvidence envelope a b)
include h

theorem samePlace (hi : getByInvocationId a envelope.invocationId = some invocation)
    (hi' : getByInvocationId b envelope.invocationId = some invocation')
    (hrt : getByRuntimeId a invocation.runtimeId = some runtime)
    (hrt' : getByRuntimeId b invocation'.runtimeId = some runtime') :
    SamePlace a b invocation invocation' runtime runtime' := by
  have hplc := getByInvocationId_identity h.placement envelope.invocationId
  rw [hi, hi', map_some, map_some, Option.some.injEq] at hplc
  have hri : invocation'.runtimeId = invocation.runtimeId := congrArg (·.runtimeId) hplc
  have hpr := getByRuntimeId_identity h.placement invocation.runtimeId
  rw [hri] at hrt'
  rw [hrt, hrt', map_some, map_some, Option.some.injEq] at hpr
  have hc := h.bindings.carrier
  have hcr := h.bindings.carried
  rw [hi, bind_some] at hc hcr
  rw [hi', bind_some] at hc
  exact ⟨hplc, hpr, hc, hcr⟩

variable {n : Nat}

variable {row : HrcBrokerInvocationEventRecord}

omit h in
theorem acceptedInputs_through {db : Db} (hn : n ≤ envelope.seq)
    (hr : row ∈ acceptedInputs db envelope.invocationId n) :
    row ∈ ledgerThrough db envelope.invocationId envelope.seq := by
  obtain ⟨hl, hk⟩ := mem_filter.mp hr
  simp only [Bool.and_eq_true, decide_eq_true_eq] at hk
  exact mem_filter.mpr ⟨hl, decide_eq_true (Nat.le_trans hk.2 hn)⟩

theorem fencedRun_isSome_agrees (hn : n ≤ envelope.seq)
    (hr : row ∈ acceptedInputs a envelope.invocationId n) : (fencedRun b row).isSome = (fencedRun a row).isSome := by
  have hf := congrArg Option.isSome (h.bindings.fenced row (acceptedInputs_through hn hr))
  simpa using hf

theorem acceptedInputs_agrees (hn : n ≤ envelope.seq) :
    acceptedInputs b envelope.invocationId n = acceptedInputs a envelope.invocationId n := by
  refine filter_agrees h.ledger fun r hr => ?_
  simp only [Bool.and_eq_true, decide_eq_true_eq] at hr
  exact Nat.le_trans hr.2 hn

theorem findPriorInputAccepted_agrees (hn : n ≤ envelope.seq) :
    findPriorInputAccepted b envelope.invocationId n = findPriorInputAccepted a envelope.invocationId n := by
  have hu : (acceptedInputs a envelope.invocationId n).filter (fun row => (fencedRun b row).isNone)
      = (acceptedInputs a envelope.invocationId n).filter fun row => (fencedRun a row).isNone :=
    filter_congr fun row hr => by
      rw [← Option.not_isSome, ← Option.not_isSome, fencedRun_isSome_agrees h hn hr]
  unfold findPriorInputAccepted
  rw [acceptedInputs_agrees h hn, hu]

omit h in
theorem findPriorInputAccepted_names {db : Db} (hn : n ≤ envelope.seq) {input : PriorInput}
    (hinput : findPriorInputAccepted db envelope.invocationId n = some input) : input.inputId ∈ names db envelope := by
  unfold findPriorInputAccepted at hinput
  simp only [bind_eq_bind, Option.bind_eq_some_iff] at hinput
  obtain ⟨row, hr, inputId, hid, hsm⟩ := hinput
  cases hsm
  have hm := (mem_filter.mp (List.mem_of_getLast? hr)).1
  refine names_of_row (acceptedInputs_through hn hm) ?_
  simp only [rowNames, (Option.filter_eq_some_iff.mp hid).1, toList_some, List.mem_append, mem_singleton,
    true_or, or_true]

theorem findPriorFencedInputAccepted_agrees (hn : n ≤ envelope.seq) :
    findPriorFencedInputAccepted b envelope.invocationId n = findPriorFencedInputAccepted a envelope.invocationId n := by
  have hf : (acceptedInputs a envelope.invocationId n).filter (fun row => (fencedRun b row).isSome)
      = (acceptedInputs a envelope.invocationId n).filter fun row => (fencedRun a row).isSome :=
    filter_congr fun row hr => fencedRun_isSome_agrees h hn hr
  unfold findPriorFencedInputAccepted
  rw [acceptedInputs_agrees h hn, hf]
  cases hl : ((acceptedInputs a envelope.invocationId n).filter fun row => (fencedRun a row).isSome).getLast? with
  | none => rfl
  | some row =>
    have hm := (mem_filter.mp (List.mem_of_getLast? hl)).1
    have hrun : runIdOf (fencedRun b row) = runIdOf (fencedRun a row) := by
      unfold runIdOf
      rw [map_of_identity (fun _ => rfl) (h.bindings.fenced row (acceptedInputs_through hn hm))]
    simp only [bind_eq_bind, bind_some, hrun]

omit h in
theorem findOpenTurnStartedSeq_le {db : Db} {startedSeq : Nat}
    (hsta : findOpenTurnStartedSeqForAttribution db envelope = some startedSeq) : startedSeq ≤ envelope.seq := by
  unfold findOpenTurnStartedSeqForAttribution at hsta
  split at hsta
  · cases hsta
    exact Nat.le_refl _
  · obtain ⟨row, hr, rfl⟩ := map_eq_some_iff.mp hsta
    have := (mem_filter.mp (List.mem_of_getLast? hr)).2
    simp only [Bool.and_eq_true, decide_eq_true_eq] at this
    exact this.1.2

variable (hs : SamePlace a b invocation invocation' runtime runtime')
include hs

omit h in
theorem resolveForeignBracket_agrees :
    resolveForeignBracket b invocation.runId = resolveForeignBracket a invocation.runId := by
  unfold resolveForeignBracket getCorrelationJson
  cases hr : invocation.runId with
  | none => rfl
  | some runId =>
    have hc := hs.carried runId (by rw [hr]; rfl)
    simp only [bind_eq_bind, bind_some]
    rw [bind_of_identity (fun _ => rfl) hc, bind_of_identity (f := (·.correlationJson)) (fun _ => rfl) hc]

variable (hp : SamePresent retained envelope a b invocation runtime runtime')
include hp

omit h in
theorem launchRunOwningNativeInput_agrees (has : AsksCarrier envelope invocation) :
    launchRunOwningNativeInput b invocation.runId = launchRunOwningNativeInput a invocation.runId := by
  unfold launchRunOwningNativeInput getCorrelationJson
  cases hr : invocation.runId with
  | none => rfl
  | some runId =>
    have hm : runId ∈ invocation.runId := by rw [hr]; rfl
    have hc := hs.carried runId hm
    have hdn := hp.completed has runId hm
    simp only [bind_eq_bind, bind_some]
    rw [bind_of_identity (f := (·.correlationJson)) (fun _ => rfl) hc]
    cases ha : getByRunId a runId with
    | none =>
      rw [ha, map_none, map_eq_none_iff] at hc
      rw [hc]
    | some run =>
      rw [ha, map_some, map_eq_some_iff] at hc
      obtain ⟨run', hb, hid⟩ := hc
      rw [ha, hb, map_some, map_some, Option.some.injEq] at hdn
      have hd : run'.dispatchedInputId = run.dispatchedInputId := congrArg (·.dispatchedInputId) hid
      simp only [hb, bind_some, hdn, hd]

theorem resolveSubmission_agrees (has : AsksCarrier envelope invocation) :
    resolveSubmission b envelope invocation'.runId = resolveSubmission a envelope invocation.runId := by
  unfold resolveSubmission
  split
  · rfl
  · split
    · rfl
    · rename_i submissionId _
      have hr := map_of_identity (f := (·.runId)) (fun _ => rfl)
        (h.bindings.submitted submissionId (names_of_submission ‹_›))
      rw [hs.runId, hp.native has, launchRunOwningNativeInput_agrees hs hp has]
      cases ha : getByBrokerSubmissionId a submissionId <;> cases hb : getByBrokerSubmissionId b submissionId <;>
        simp_all

theorem resolveInput_agrees (has : AsksCarrier envelope invocation) {inputId : String}
    (hinput : inputId ∈ names a envelope) :
    resolveInput b envelope inputId invocation'.runId = resolveInput a envelope inputId invocation.runId := by
  unfold resolveInput
  rw [runIdOf_agrees h hinput, hs.runId, hp.native has, launchRunOwningNativeInput_agrees hs hp has]

theorem resolveOpenBracket_agrees (has : AsksCarrier envelope invocation) {startedSeq : Nat}
    (hle : startedSeq ≤ envelope.seq) :
    resolveOpenBracket b envelope invocation' startedSeq = resolveOpenBracket a envelope invocation startedSeq := by
  have hc : invocation'.capabilitiesJson = invocation.capabilitiesJson :=
    congrArg (·.capabilitiesJson) hs.placed
  have hm : bracketMintingMode invocation' = bracketMintingMode invocation := by
    unfold bracketMintingMode
    rw [hc]
  have hinput : turnStartedInputId b envelope startedSeq = turnStartedInputId a envelope startedSeq := by
    unfold turnStartedInputId
    rw [getByInvocationAndSeq_agrees h.ledger hle]
  have hbr : resolveBracketInput b envelope startedSeq invocation.runId
      = resolveBracketInput a envelope startedSeq invocation.runId := by
    unfold resolveBracketInput
    rw [findPriorInputAccepted_agrees h hle]
    cases hpri : findPriorInputAccepted a envelope.invocationId startedSeq with
    | none => rfl
    | some input =>
      simp only [bind_eq_bind, bind_some, runIdOf_agrees h (findPriorInputAccepted_names hle hpri),
        hp.native has, launchRunOwningNativeInput_agrees hs hp has]
  unfold resolveOpenBracket
  rw [hm, hinput, hs.runId, resolveForeignBracket_agrees hs, hbr, findPriorFencedInputAccepted_agrees h hle]

theorem resolveNoBracketOwner_agrees (has : AsksOwner a retained envelope invocation) {priorInput : PriorInput}
    (hpri : priorInput.inputId ∈ names a envelope) :
    resolveNoBracketOwner b envelope priorInput invocation' runtime'
      = resolveNoBracketOwner a envelope priorInput invocation runtime := by
  have hrt : runtime'.runtimeId = runtime.runtimeId := congrArg (·.runtimeId) hs.placedRuntime
  unfold resolveNoBracketOwner
  simp only [bind_eq_bind, hrt, hp.activeRunId has, hs.runId, hp.asking has, hp.busy has,
    findPriorTerminalTurnSeq_agrees h.ledger (Nat.le_refl _)]
  exact bind_of_identity (fun _ => rfl) (runForInput_agrees h hpri)

theorem resolveUnnamedTurn_agrees (has : AsksCarrier envelope invocation) :
    resolveUnnamedTurn b retained envelope invocation' runtime'
      = resolveUnnamedTurn a retained envelope invocation runtime := by
  unfold resolveUnnamedTurn
  split
  · exact resolveInput_agrees h hs hp has (names_of_input ‹_›)
  · rename_i hinput
    rw [findOpenTurnStartedSeq_agrees h.ledger rfl rfl]
    split
    · exact resolveOpenBracket_agrees h hs hp has (findOpenTurnStartedSeq_le ‹_›)
    · rename_i hbr
      unfold resolveUnbracketed
      rw [findPriorInputAccepted_agrees h (Nat.le_refl _), findPriorFencedInputAccepted_agrees h (Nat.le_refl _),
        hs.runId]
      split
      · split
        · rfl
        · exact resolveNoBracketOwner_agrees h hs hp ⟨has, Bool.eq_false_iff.mpr ‹_›, hinput, hbr⟩
            (findPriorInputAccepted_names (Nat.le_refl _) ‹_›)
      · rfl

/-- The run of an envelope is decided by its evidence and the current facts its fallback asks for. -/
theorem resolveRunIdForEvent_agrees :
    resolveRunIdForEvent b retained envelope invocation' runtime'
      = resolveRunIdForEvent a retained envelope invocation runtime := by
  have hformat : invocation'.executionFormat = invocation.executionFormat := congrArg (·.executionFormat) hs.placed
  have hk (turnId : String) : format2TurnKey envelope.toEnvelopeHead invocation' runtime' turnId
      = format2TurnKey envelope.toEnvelopeHead invocation runtime turnId := by
    unfold format2TurnKey
    rw [show runtime'.runtimeId = runtime.runtimeId from congrArg (·.runtimeId) hs.placedRuntime,
      show invocation'.operationId = invocation.operationId from congrArg (·.operationId) hs.placed,
      show invocation'.invocationId = invocation.invocationId from congrArg (·.invocationId) hs.placed]
  unfold resolveRunIdForEvent
  rw [hformat]
  split
  · rename_i hformat
    unfold resolveFormat2RunId
    cases extractTurnId envelope with
    | none => rfl
    | some turnId =>
      have ht := hp.turn hformat (format2TurnKey envelope.toEnvelopeHead invocation runtime turnId)
      simp only [bind_eq_bind, bind_some, hk]
      simpa only [Option.map_eq_bind, Function.comp_def] using ht
  · rename_i hformat
    cases hn : isNamedTurn envelope with
    | true =>
      have hr : envelope.type.isSubmissionRecord = false := by
        simpa using (Bool.and_eq_true_iff.mp hn).2
      have hnn (db : Db) (runId : Option String) : resolveSubmission db envelope runId = none := by
        unfold resolveSubmission
        rw [hr]
        rfl
      unfold isNamedTurn at hn
      rw [hnn, hnn, if_pos hn, if_pos hn]
      exact resolveExactTurnOwner_agrees h
    | false =>
      have has : AsksCarrier envelope invocation := ⟨hformat, hn⟩
      unfold isNamedTurn at hn
      rw [resolveSubmission_agrees h hs hp has, resolveUnnamedTurn_agrees h hs hp has, hn]
      rfl

end Resolution

end HrcRuntime.Attribution
