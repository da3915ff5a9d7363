import HrcRuntime.Attribution
import HrcRuntime.UnstartedSettlement
import HrcRuntime.WaitingPass

namespace HrcRuntime.SettlementSteps

open Records Relational Database Program Mapper EventRepository Repositories Ownership RunRepository
open RunResolution Attribution UnstartedSettlement WaitingPass
open Option (map_some map_eq_some_iff bind_eq_bind bind_some filter_some bind_eq_some_iff)

section Evidence

variable {a : Db} {t : RunTable} (h : SameRuns a.runs t)
include h

theorem find?_same {p : HrcRunRecord → Bool} (hp : ∀ r, p (identity r) = p r) :
    (t.find? p).map identity = (a.runs.find? p).map identity := by
  unfold Table.find?
  rw [← Stability.find?_map_identity identity hp, ← Stability.find?_map_identity identity hp, h]

theorem sameEvidence (envelope : InvocationEventEnvelope) : SameEvidence envelope a { a with runs := t } where
  placement := ⟨rfl, rfl, rfl⟩
  ledger := rfl
  bindings := by
    refine ⟨fun inputId _ => ?_, fun submissionId _ => ?_, fun row _ => ?_, ?_, rfl, fun runId _ => ?_⟩
    · exact find?_same h fun _ => rfl
    · exact find?_same h fun _ => rfl
    · unfold fencedRun
      cases row.brokerEventJson.stringField "inputId" with
      | none => rfl
      | some inputId => exact find?_same h fun _ => rfl
    · have hf (l : List HrcRunRecord) :
          (l.filter fun r => r.invocationId == some envelope.invocationId && r.correlationJson.isSome).map identity
            = (l.map identity).filter fun r => r.invocationId == some envelope.invocationId && r.correlationJson.isSome := by
        rw [List.filter_map]
        rfl
      unfold listCorrelatedByInvocationId
      rw [hf, hf, h]
    · exact find?_same h fun _ => rfl

theorem planUnstartedSubmission_same (row : UnstartedRun) (runtimeSettled : Bool) :
    planUnstartedSubmission { a with runs := t } row runtimeSettled = planUnstartedSubmission a row runtimeSettled := by
  have hown (envelope : InvocationEventEnvelope) :
      resolveExactTurnOwner { a with runs := t } envelope = resolveExactTurnOwner a envelope :=
    resolveExactTurnOwner_agrees (sameEvidence h envelope)
  unfold planUnstartedSubmission
  simp only [hown]
  rfl

theorem inEpoch_same (row : UnstartedRun) : inEpoch { a with runs := t } row = inEpoch a row := by
  have hrun := find?_same (p := fun r => r.runId == row.runId) h fun _ => rfl
  change (getByRunId { a with runs := t } row.runId).map identity = (getByRunId a row.runId).map identity at hrun
  have he : historicalEpoch { a with runs := t } row.invocationId = historicalEpoch a row.invocationId := rfl
  unfold inEpoch
  rw [he]
  cases historicalEpoch a row.invocationId with
  | none => rfl
  | some epoch =>
    cases ha : getByRunId a row.runId with
    | none =>
      rw [ha, Option.map_none, Option.map_eq_none_iff] at hrun
      rw [hrun]
    | some run =>
      rw [ha, map_some, map_eq_some_iff] at hrun
      obtain ⟨run', hb, hid⟩ := hrun
      have hrt : run'.runtimeId = run.runtimeId := congrArg (·.runtimeId) hid
      have hop : run'.operationId = run.operationId := congrArg (·.operationId) hid
      have hg : run'.generation = run.generation := congrArg (·.generation) hid
      rw [hb]
      dsimp only
      rw [hrt, hop, hg]

end Evidence

def waitsOn (db : Db) (row : UnstartedRun) : Option String := do
  let runtime ← getByRuntimeId db row.runtimeId
  if !isSettled runtime && claimedByOther db runtime row.runId then runtime.activeRunId else none

def hasEnded (db : Db) (runId : String) : Bool := ((getByRunId db runId).bind (·.completedAt)).isSome

theorem claimedByOther_eq (db : Db) (runtime : HrcRuntimeSnapshot) (runId : String) :
    claimedByOther db runtime runId = runtime.activeRunId.any fun active => active != runId && !hasEnded db active := by
  unfold claimedByOther hasEnded
  cases runtime.activeRunId with
  | none => rfl
  | some active => simp

variable {row : UnstartedRun}

variable {f : HrcRunRecord → HrcRunRecord} {runtime : HrcRuntimeSnapshot} {db : Db}

theorem waitsOn_eq
    (hrt : getByRuntimeId db row.runtimeId = some runtime) :
    waitsOn db row = if isSettled runtime then none
      else runtime.activeRunId.filter fun active => active != row.runId && !hasEnded db active := by
  unfold waitsOn
  rw [hrt, bind_eq_bind, bind_some, claimedByOther_eq]
  cases isSettled runtime <;> cases runtime.activeRunId <;> simp [Option.filter]

theorem waitsOn_isNone
    (hrt : getByRuntimeId db row.runtimeId = some runtime) :
    (waitsOn db row).isNone = (isSettled runtime || !claimedByOther db runtime row.runId) := by
  rw [waitsOn_eq hrt, claimedByOther_eq]
  cases isSettled runtime with
  | true => rfl
  | false =>
    cases runtime.activeRunId with
    | none => rfl
    | some active =>
      rw [filter_some, Option.any_some]
      cases active != row.runId && !hasEnded db active <;> rfl

section Gates

variable [Host] (db : Db) (input : SettleInput) (row : UnstartedRun)

/-- The plan of a row that nothing keeps waiting: it and its runtime have been quiet for long and the run
stands in the epoch of its invocation. -/
def duePlan : Option SettlementPlan := do
  let runtime ← getByRuntimeId db row.runtimeId
  if isBefore input row.updatedAt && (isSettled runtime || isQuiet input runtime) && inEpoch db row then
    planUnstartedSubmission db row (isSettled runtime)
  else none

def outcome : Option UnstartedSubmissionSettlement := (duePlan db input row).map (settlementOf · input.now)

theorem settlementFor_eq :
    settlementFor db input row = if (waitsOn db row).isNone then outcome db input row else none := by
  cases hrt : getByRuntimeId db row.runtimeId with
  | none =>
    unfold settlementFor outcome duePlan
    rw [hrt]
    cases isBefore input row.updatedAt <;> simp
  | some runtime =>
    rw [waitsOn_isNone hrt]
    unfold settlementFor outcome duePlan
    rw [hrt]
    dsimp only [bind_eq_bind, bind_some]
    generalize planUnstartedSubmission db row (isSettled runtime) = plan
    generalize isBefore input row.updatedAt = before
    generalize isSettled runtime = settled
    generalize claimedByOther db runtime row.runId = claimed
    generalize isQuiet input runtime = quiet
    generalize inEpoch db row = epoch
    cases before <;> cases settled <;> cases claimed <;> cases quiet <;> cases epoch <;> rfl

end Gates

structure Progress (a : Db) (t : RunTable) (done : List String) : Prop where
  runs : SameRuns a.runs t
  ended : ∀ runId, hasEnded { a with runs := t } runId = (hasEnded a runId || done.contains runId)

section Waiting

variable {a : Db} {t : RunTable} {done : List String} (h : Progress a t done)
include h

theorem waitsOn_progress (row : UnstartedRun) :
    (waitsOn { a with runs := t } row).isNone = (waitsOn a row).all (done.contains ·) := by
  have hf : getByRuntimeId { a with runs := t } row.runtimeId = getByRuntimeId a row.runtimeId := rfl
  cases hrt : getByRuntimeId a row.runtimeId with
  | none =>
    unfold waitsOn
    rw [hf, hrt]
    rfl
  | some runtime =>
    rw [waitsOn_eq hrt, waitsOn_eq (hf.trans hrt)]
    cases isSettled runtime with
    | true => rfl
    | false =>
      cases runtime.activeRunId with
      | none => rfl
      | some active =>
        simp only [Bool.false_eq_true, if_false, filter_some, h.ended]
        cases active != row.runId <;> cases hasEnded a active <;> by_cases hd : active ∈ done <;> simp [hd]

theorem outcome_progress [Host] (input : SettleInput) (row : UnstartedRun) :
    outcome { a with runs := t } input row = outcome a input row := by
  have hf : getByRuntimeId { a with runs := t } row.runtimeId = getByRuntimeId a row.runtimeId := rfl
  unfold outcome duePlan
  simp only [hf, inEpoch_same h.runs, planUnstartedSubmission_same h.runs]

end Waiting

section Owner

variable {db : Db} {invocationId owner : String}

theorem validCandidate_self {runId : String} (h : validCandidate db invocationId runId = some owner) :
    validCandidate db invocationId owner = some owner := by
  have hs : owner = runId := by
    simp only [validCandidate, bind_eq_bind, bind_eq_some_iff] at h
    obtain ⟨epoch, -, run, hrun, h⟩ := h
    split at h
    · cases h
      simpa using List.find?_some hrun
    · cases h
  rwa [hs] at h ⊢

theorem inputCandidate_valid {inputId : Option String} (h : inputCandidate db invocationId inputId = some owner) :
    validCandidate db invocationId owner = some owner := by
  simp only [inputCandidate, bind_eq_bind, bind_eq_some_iff] at h
  obtain ⟨id, -, run, -, h⟩ := h
  exact validCandidate_self h

theorem evidenceCandidate_valid {event : ParsedEvent} (h : evidenceCandidate db invocationId event = some owner) :
    validCandidate db invocationId owner = some owner := by
  unfold evidenceCandidate at h
  split at h
  · exact inputCandidate_valid h
  · split at h
    · exact inputCandidate_valid h
    · cases h
  · simp only [submissionCandidate, bind_eq_bind, bind_eq_some_iff] at h
    obtain ⟨id, -, run, -, h⟩ := h
    exact validCandidate_self h
  · cases h

variable {envelope : InvocationEventEnvelope} {epoch : HistoricalEpoch}

theorem launchCandidates_valid (h : owner ∈ launchCandidates db invocationId epoch) :
    validCandidate db invocationId owner = some owner := by
  obtain ⟨run, -, h⟩ := List.mem_filterMap.mp h
  split at h
  · exact validCandidate_self h
  · cases h

theorem ownerCandidates_valid {target : TurnCoordinates}
    (h : owner ∈ ownerCandidates db envelope target epoch) :
    validCandidate db envelope.invocationId owner = some owner := by
  simp only [ownerCandidates, List.mem_append] at h
  rcases h with (h | h) | h
  · obtain ⟨event, -, h⟩ := List.mem_filterMap.mp h
    exact evidenceCandidate_valid h
  · unfold envelopeCandidate at h
    split at h
    · exact inputCandidate_valid (Option.mem_toList.mp h)
    · cases h
  · split at h
    · exact launchCandidates_valid h
    · cases h

theorem onlyOne_mem {l : List String} (h : onlyOne l = some owner) : owner ∈ l := by
  unfold onlyOne at h
  split at h
  · cases h
  · split at h
    · cases h
      exact List.mem_cons_self
    · cases h

theorem resolveExactTurnOwner_valid
    (h : resolveExactTurnOwner db envelope = some owner) :
    validCandidate db envelope.invocationId owner = some owner := by
  simp only [resolveExactTurnOwner, bind_eq_bind, bind_eq_some_iff] at h
  obtain ⟨target, -, epoch, -, h⟩ := h
  split at h
  · cases h
  · exact ownerCandidates_valid (onlyOne_mem h)

end Owner

structure Coalesces (db : Db) (row : UnstartedRun) (owner : String) : Prop where
  steer : isSteerSubmission db row.invocationId row.submissionId = true
  other : owner ≠ row.runId
  valid : validCandidate db row.invocationId owner = some owner

section Plans

variable {db : Db} {row : UnstartedRun} {runtimeSettled : Bool} {plan : SettlementPlan}

variable {terminal : HrcBrokerInvocationEventRecord} {turn : TurnCoordinates}

theorem planEnded_coalesced {owner : Option String}
    (h : (planEnded row turn terminal owner).action = .coalesced) :
    ∃ o, owner = some o ∧ o ≠ row.runId ∧ (planEnded row turn terminal owner).ownerRunId = some o := by
  unfold planEnded at h ⊢
  cases hf : owner.filter (· != row.runId) with
  | some o =>
    obtain ⟨hown, hne⟩ := Option.filter_eq_some_iff.mp hf
    exact ⟨o, hown, bne_iff_ne.mp hne, rfl⟩
  | none =>
    rw [hf] at h
    dsimp only [planOf] at h
    cases ht : terminal.type <;> rw [ht] at h <;> cases h

theorem turnTerminal_invocationId
    (h : turnTerminal db row.invocationId turn = some terminal) : terminal.invocationId = row.invocationId := by
  have hl := (List.mem_filter.mp (List.mem_of_find?_eq_some h)).1
  simp only [listByInvocationId, List.mem_filter, mem_orderBy, beq_iff_eq] at hl
  exact hl.2

theorem planUnstartedSubmission_spec (h : planUnstartedSubmission db row runtimeSettled = some plan) :
    (plan.runId = row.runId ∧ plan.invocationId = row.invocationId ∧ plan.submissionId = row.submissionId) ∧
      (plan.action = .coalesced → ∃ owner, plan.ownerRunId = some owner ∧ Coalesces db row owner) := by
  unfold planUnstartedSubmission at h
  dsimp only at h
  split at h
  · cases h
    refine ⟨⟨rfl, rfl, rfl⟩, fun hact => ?_⟩
    unfold planFate at hact
    dsimp only at hact
    split at hact <;> cases hact
  · split at h
    · rename_i turn terminal he
      cases h
      obtain ⟨landed, -, he⟩ := bind_eq_some_iff.mp he
      obtain ⟨found, ht, hp⟩ := map_eq_some_iff.mp he
      cases hp
      refine ⟨?_, fun hact => ?_⟩
      · unfold planEnded
        split <;> exact ⟨rfl, rfl, rfl⟩
      · obtain ⟨owner, hown, hoth, hpl⟩ := planEnded_coalesced hact
        refine ⟨owner, hpl, ?_⟩
        split at hown
        · rename_i hs
          have hv := resolveExactTurnOwner_valid hown
          have hid : (envelopeForRow terminal).invocationId = row.invocationId := turnTerminal_invocationId ht
          rw [hid] at hv
          exact ⟨(Bool.and_eq_true_iff.mp hs).1, hoth, hv⟩
        · cases hown
    · split at h
      · cases h
      · cases h
        exact ⟨⟨rfl, rfl, rfl⟩, fun hact => by cases hact⟩

end Plans

structure Ends (db : Db) (runId : String) (t : RunTable) : Prop where
  runs : SameRuns db.runs t
  ended : hasEnded { db with runs := t } runId = true
  others : ∀ other, other ≠ runId → getByRunId { db with runs := t } other = getByRunId db other

theorem ends_update {runId : String} {r : HrcRunRecord} {t : RunTable}
    (hr : getByRunId db runId = some r) (hf : ∀ r, identity (f r) = identity r)
    (he : ∀ r, (f r).completedAt.isSome = true) (h : db.runs.update (fun r => r.runId == runId) f = some t) :
    Ends db runId t := by
  have hfd (other : String) :
      getByRunId { db with runs := t } other = (getByRunId db other).map fun r => if r.runId == runId then f r else r :=
    find?_update h fun r => by
      have hid : (f r).runId = r.runId := congrArg (·.runId) (hf r)
      rw [hid]
  constructor
  · exact SameRuns.update h hf
  · have hid : (r.runId == runId) = true := by simpa using List.find?_some hr
    unfold hasEnded
    rw [hfd, hr, map_some, if_pos hid]
    exact he r
  · intro other hoth
    rw [hfd]
    cases ho' : getByRunId db other with
    | none => rfl
    | some r =>
      have hid : r.runId = other := by simpa using List.find?_some ho'
      have hne : ¬ (r.runId == runId) = true := by simpa [hid] using hoth
      rw [map_some, if_neg hne]

theorem exists_rewrite (db : Db) (runId : String)
    (hf : ∀ r, identity (f r) = identity r) : ∃ t, db.runs.update (fun r => r.runId == runId) f = some t := by
  refine exists_update fun ix hix r => ?_
  have hid : (f r).runId = r.runId := congrArg (·.runId) (hf r)
  have ht : (f r).turnKey = r.turnKey := congrArg (·.turnKey) (hf r)
  have hs : (f r).brokerSubmissionId = r.brokerSubmissionId := congrArg (·.brokerSubmissionId) (hf r)
  simp only [List.mem_cons, List.not_mem_nil, or_false] at hix
  rcases hix with rfl | rfl | rfl
  · exact congrArg (fun id => some ("run_id", id)) hid
  · exact congrArg (Option.map ("turn_key", ·)) ht
  · exact congrArg (Option.map ("broker_submission_id", ·)) hs

structure Selected (row : UnstartedRun) (r : HrcRunRecord) : Prop where
  runId : r.runId = row.runId
  runtimeId : r.runtimeId = some row.runtimeId
  invocationId : r.invocationId = some row.invocationId
  submissionId : r.brokerSubmissionId = some row.submissionId
  status : r.status = .accepted
  startedAt : r.startedAt = none
  completedAt : r.completedAt = none

theorem selected_of_unstarted {r : HrcRunRecord} (h : unstartedRun r = some row) : Selected row r := by
  simp only [unstartedRun, bind_eq_bind, bind_eq_some_iff] at h
  obtain ⟨_, hrt, _, hi, _, hs, h⟩ := h
  split at h
  · rename_i hc
    simp only [Bool.and_eq_true, beq_iff_eq, Option.isNone_iff_eq_none] at hc
    cases h
    exact ⟨rfl, hrt, hi, hs, hc.1.1, hc.1.2, hc.2⟩
  · cases h

theorem mem_unstartedRuns (h : row ∈ unstartedRuns db) :
    ∃ r, getByRunId db row.runId = some r ∧ unstartedRun r = some row := by
  obtain ⟨r, hr, hrow⟩ := List.mem_filterMap.mp ((List.mem_insertionSort sweptBefore).mp h)
  exact ⟨r, (selected_of_unstarted hrow).runId ▸ getByRunId_of_mem hr, hrow⟩

def effectOf (db : Db) (settlement : UnstartedSubmissionSettlement) : Effect :=
  match settlement.action, settlement.ownerRunId with
  | .coalesced, some ownerRunId =>
    match (getByRunId db settlement.runId).bind (·.coalescedIntoRunId) with
    | none => .finishes
    | some other => if other = ownerRunId then .repeats else .fails
  | _, _ => .finishes

section Statements

variable [Host] (hsteady : ∀ n, Host.fault n = none) {s u : BrokerEventMapper} {α : Type} {m : M α} {a : α}
include hsteady

theorem statement_done {w : Write} {db : Db} (h : w.run s.db = .ok db) :
    statement w s = (.ok (), { s with tick := s.tick + 1, db }) := by
  unfold statement
  rw [bind_ok (effect_done (hsteady _))]
  unfold runStatement
  have hrun : w.run { s with tick := s.tick + 1 }.db = .ok db := h
  rw [hrun]

theorem transaction_done (h : m { s with tick := s.tick + 1 } = (.ok a, u)) :
    transaction m s = (.ok a, { u with tick := u.tick + 1 }) := by
  unfold transaction Prog.transaction
  rw [bind_ok (effect_done (hsteady _)), bind_ok h, bind_ok (effect_done (hsteady _))]
  rfl

theorem transaction_thrown {e : HrcError} (h : m { s with tick := s.tick + 1 } = (.error e, u)) :
    transaction m s = (.error e, { u with db := s.db }) := by
  unfold transaction Prog.transaction
  rw [bind_ok (effect_done (hsteady _)), bind_error h]

theorem markCompleted_ends {runId : String} {r : HrcRunRecord} (hr : getByRunId s.db runId = some r)
    (updates : RunCompletion) :
    ∃ t, RunRepository.markCompleted runId updates s = (.ok (), { s with tick := s.tick + 1, db := { s.db with runs := t } }) ∧
      Ends s.db runId t := by
  obtain ⟨t, ht⟩ := exists_rewrite (f := updates.apply) s.db runId fun _ => rfl
  have hrun : (Write.completeRun runId updates).run s.db = .ok { s.db with runs := t } :=
    Write.store_eq_ok.mpr ⟨t, ht, rfl⟩
  exact ⟨t, statement_done hsteady hrun, ends_update (f := updates.apply) hr (fun _ => rfl) (fun _ => rfl) ht⟩

theorem coalesce_ends {row : UnstartedRun} {r : HrcRunRecord} (owner completedAt : String)
    (hr : getByRunId s.db row.runId = some r) (hselected : Selected row r) (hfr : r.coalescedIntoRunId = none) :
    ∃ t, coalesce r owner completedAt s = (.ok (), { s with tick := s.tick + 1, db := { s.db with runs := t } }) ∧
      Ends s.db row.runId t ∧
      (getByRunId { s.db with runs := t } row.runId).bind (·.coalescedIntoRunId) = some owner := by
  let patch : RunPatch :=
    { status := some .coalesced, completedAt := some (some (r.completedAt.getD completedAt))
      updatedAt := some completedAt, coalescedIntoRunId := some owner }
  obtain ⟨t, ht⟩ := exists_rewrite (f := patch.apply) s.db row.runId fun _ => rfl
  have hp : effectivePatch (getByRunId s.db r.runId) patch = patch := by
    rw [hselected.runId, hr]
    exact effectivePatch_open hselected.completedAt patch
  have hrun : (Write.updateRun row.runId patch).run s.db = .ok { s.db with runs := t } :=
    Write.store_eq_ok.mpr ⟨t, ht, rfl⟩
  refine ⟨t, ?_, ends_update (f := patch.apply) hr (fun _ => rfl) (fun _ => rfl) ht, ?_⟩
  · unfold coalesce
    rw [hfr, hselected.status]
    change RunRepository.update r.runId patch s = _
    rw [RunRepository.update, query_bind, hp, hselected.runId]
    exact statement_done hsteady hrun
  · have hf : getByRunId { s.db with runs := t } row.runId
        = (getByRunId s.db row.runId).map fun r => if r.runId == row.runId then patch.apply r else r :=
      find?_update ht fun _ => rfl
    rw [hf, hr, map_some, if_pos (beq_iff_eq.mpr hselected.runId)]
    rfl

end Statements

section Settlements

variable [Host] {s : BrokerEventMapper} {input : SettleInput} {row : UnstartedRun} {r : HrcRunRecord}
  {settlement : UnstartedSubmissionSettlement}

structure Settles (db : Db) (row : UnstartedRun) (settlement : UnstartedSubmissionSettlement) : Prop where
  runId : settlement.runId = row.runId
  invocationId : settlement.invocationId = row.invocationId
  submissionId : settlement.submissionId = row.submissionId
  applied : settlement.applied = false
  inEpoch : inEpoch db row = true
  coalesces : settlement.action = .coalesced → ∃ owner, settlement.ownerRunId = some owner ∧ Coalesces db row owner

theorem outcome_settles {db : Db} (h : outcome db input row = some settlement) : Settles db row settlement := by
  obtain ⟨plan, hp, rfl⟩ := map_eq_some_iff.mp h
  simp only [duePlan, bind_eq_bind, bind_eq_some_iff] at hp
  obtain ⟨runtime, -, hp⟩ := hp
  split at hp
  · rename_i hd
    obtain ⟨⟨hrun, hi, hs⟩, hc⟩ := planUnstartedSubmission_spec hp
    exact ⟨hrun, hi, hs, rfl, (Bool.and_eq_true_iff.mp hd).2, hc⟩
  · cases hp

omit [Host] in
theorem inEpoch_run {db : Db} (hr : getByRunId db row.runId = some r) (hselected : Selected row r)
    (h : inEpoch db row = true) :
    ∃ epoch, historicalEpoch db row.invocationId = some epoch ∧ epoch.owns row.invocationId r = true := by
  unfold UnstartedSettlement.inEpoch at h
  cases he : historicalEpoch db row.invocationId with
  | none =>
    rw [he] at h
    cases h
  | some epoch =>
    rw [he, hr] at h
    refine ⟨epoch, rfl, ?_⟩
    simp only [Bool.and_eq_true, beq_iff_eq] at h
    simp only [HistoricalEpoch.owns, hselected.invocationId, h, BEq.rfl, Bool.and_self]

theorem settleAuxiliary_eq {owner : String} (hr : getByRunId s.db row.runId = some r) (hselected : Selected row r)
    (he : inEpoch s.db row = true) (hcl : Coalesces s.db row owner) (completedAt : String) :
    settleAuxiliary row.invocationId row.submissionId owner completedAt s = coalesce r owner completedAt s := by
  obtain ⟨epoch, hf, how⟩ := inEpoch_run hr hselected he
  have haux : getByBrokerSubmissionId s.db row.submissionId = some r :=
    getByBrokerSubmissionId_of_mem (List.mem_of_find?_eq_some hr) hselected.submissionId
  have hex : (getByRunId s.db owner).isSome = true := by
    have hv := hcl.valid
    simp only [validCandidate, bind_eq_bind, bind_eq_some_iff] at hv
    obtain ⟨_, -, run, hrun, -⟩ := hv
    rw [hrun]
    rfl
  have hc : isAuxiliary s.db epoch row.invocationId row.submissionId owner r = true := by
    simp only [isAuxiliary, hex, hselected.runId, bne_iff_ne.mpr hcl.other.symm, hcl.steer,
      hselected.startedAt, how, hcl.valid, Option.isNone_none, Option.isSome_some, Bool.and_self]
  rw [settleAuxiliary, query_bind, hf, haux]
  dsimp only
  rw [if_pos hc]

omit [Host] in
theorem unstarted_bind {β : Type} {runId : String} {g h : M β} (hr : getByRunId s.db runId = some r)
    (hselected : Selected row r) :
    (query (getByRunId · runId) >>= fun current => if (current.filter isUnstarted).isNone then g else h) s = h s := by
  have hu : isUnstarted r = true := by
    rw [isUnstarted, hselected.status, hselected.startedAt, hselected.completedAt]
    rfl
  rw [query_bind, hr, filter_some, if_pos hu]
  rfl

variable (hsteady : ∀ n, Host.fault n = none) (hr : getByRunId s.db row.runId = some r) (hselected : Selected row r)
  (hsettles : Settles s.db row settlement)
include hsteady hr hselected hsettles

theorem settleUnstarted_coalesced {owner now : String} {u : BrokerEventMapper} (hact : settlement.action = .coalesced)
    (hown : settlement.ownerRunId = some owner) (hc : Coalesces s.db row owner)
    (hj : coalesce r owner settlement.completedAt { s with tick := s.tick + 1 } = (.ok (), u))
    (hl : (getByRunId u.db row.runId).bind (·.coalescedIntoRunId) = some owner) :
    settleUnstarted settlement now s = (.ok true, { u with tick := u.tick + 1 }) := by
  refine transaction_done hsteady ((unstarted_bind (hsettles.runId ▸ hr) hselected).trans ?_)
  rw [hact, hown, hsettles.invocationId, hsettles.submissionId, hsettles.runId]
  have hf := settleAuxiliary_eq (s := { s with tick := s.tick + 1 }) hr hselected hsettles.inEpoch hc
    settlement.completedAt
  dsimp only
  rw [bind_ok (hf.trans hj)]
  change (Except.ok ((getByRunId u.db row.runId).bind (·.coalescedIntoRunId) == some owner), u) = _
  rw [hl, BEq.rfl]

theorem settleUnstarted_finishes (he : effectOf s.db settlement = .finishes) (now : String) :
    ∃ t n, settleUnstarted settlement now s = (.ok true, { s with tick := n, db := { s.db with runs := t } }) ∧
      Ends s.db row.runId t := by
  by_cases hact : settlement.action = .coalesced
  · obtain ⟨owner, hown, hc⟩ := hsettles.coalesces hact
    have hf : r.coalescedIntoRunId = none := by
      simp only [effectOf, hact, hown, hsettles.runId, hr, bind_some] at he
      cases hl : r.coalescedIntoRunId with
      | none => rfl
      | some other =>
        rw [hl] at he
        dsimp only at he
        split at he <;> cases he
    obtain ⟨t, hj, hen, hl⟩ := coalesce_ends hsteady (s := { s with tick := s.tick + 1 }) owner
      settlement.completedAt hr hselected hf
    exact ⟨t, _, settleUnstarted_coalesced hsteady hr hselected hsettles hact hown hc hj hl, hen⟩
  · obtain ⟨t, hd, hen⟩ := markCompleted_ends hsteady (s := { s with tick := s.tick + 1 }) hr
      (completionOf settlement now)
    refine ⟨t, _, transaction_done (u := { s with tick := s.tick + 1 + 1, db := { s.db with runs := t } }) hsteady
      ((unstarted_bind (hsettles.runId ▸ hr) hselected).trans ?_), hen⟩
    rw [hsettles.runId]
    cases h : settlement.action with
    | coalesced => exact absurd h hact
    | completed | failed | cancelled =>
      dsimp only
      rw [bind_ok hd]
      rfl

theorem settleUnstarted_repeats (he : effectOf s.db settlement = .repeats) (now : String) :
    ∃ n, settleUnstarted settlement now s = (.ok true, { s with tick := n }) := by
  obtain ⟨owner, hact, hown, hc, hl⟩ : ∃ owner, settlement.action = .coalesced ∧
      settlement.ownerRunId = some owner ∧ Coalesces s.db row owner ∧ r.coalescedIntoRunId = some owner := by
    unfold effectOf at he
    split at he
    · rename_i owner hact hown
      obtain ⟨owner', ho', hc⟩ := hsettles.coalesces hact
      obtain rfl := Option.some.inj (hown.symm.trans ho')
      rw [hsettles.runId, hr, bind_some] at he
      split at he
      · cases he
      · rename_i other hl
        split at he
        · rename_i hs
          exact ⟨owner, hact, hown, hc, hs ▸ hl⟩
        · cases he
    · cases he
  have hj : coalesce r owner settlement.completedAt { s with tick := s.tick + 1 } = (.ok (), { s with tick := s.tick + 1 }) := by
    unfold coalesce
    rw [hl]
    dsimp only
    rw [if_pos BEq.rfl]
    rfl
  refine ⟨_, settleUnstarted_coalesced (u := { s with tick := s.tick + 1 }) hsteady hr hselected hsettles hact hown
    hc hj ?_⟩
  change (getByRunId s.db row.runId).bind (·.coalescedIntoRunId) = some owner
  rw [hr]
  exact hl

theorem settleUnstarted_fails (he : effectOf s.db settlement = .fails) (now : String) :
    ∃ e u, settleUnstarted settlement now s = (.error e, u) := by
  unfold effectOf at he
  split at he
  · rename_i owner hact hown
    obtain ⟨owner', ho', hc⟩ := hsettles.coalesces hact
    obtain rfl := Option.some.inj (hown.symm.trans ho')
    rw [hsettles.runId, hr, bind_some] at he
    split at he
    · cases he
    · rename_i other hl
      split at he
      · cases he
      · rename_i hoth
        have hj : ∃ e, coalesce r owner settlement.completedAt { s with tick := s.tick + 1 }
            = (.error e, { s with tick := s.tick + 1 }) := by
          unfold coalesce
          rw [hl]
          dsimp only
          rw [if_neg (by simpa using hoth)]
          exact ⟨_, rfl⟩
        obtain ⟨e, hj⟩ := hj
        have hf := settleAuxiliary_eq (s := { s with tick := s.tick + 1 }) hr hselected hsettles.inEpoch hc
          settlement.completedAt
        refine ⟨e, _, transaction_thrown (u := { s with tick := s.tick + 1 }) hsteady
          ((unstarted_bind (hsettles.runId ▸ hr) hselected).trans ?_)⟩
        rw [hact, hown, hsettles.invocationId, hsettles.submissionId]
        exact bind_error (hf.trans hj)
  · cases he

end Settlements

end HrcRuntime.SettlementSteps
