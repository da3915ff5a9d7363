import HrcRuntime.Preparation

namespace HrcRuntime.TurnRelease

open Records Relational Database Program Mapper EventRepository Repositories Ownership Context RunResolution
open RuntimeState LifecyclePayload ContextReading MessageProjection TurnProjection StateProjection
open ProjectEnvelope ProjectionWrites EventMapper Calls CursorCompleteness Preparation

def ownership (db : Db) (runtimeId : String) : Option (RuntimeStatus × Option String) :=
  (getByRuntimeId db runtimeId).map fun runtime => (runtime.status, runtime.activeRunId)

def IsIdle (db : Db) (runtimeId : String) : Prop := ownership db runtimeId = some (.ready, none)

/-- Every start up to the terminal has the terminal's own coordinates, or comes before the start that
has, or is followed by a terminal with exactly the coordinates of the start. -/
def Paired (db : Db) (envelope : InvocationEventEnvelope) : Prop :=
  ∀ target, coordinatesForEnvelope envelope = some target →
    ∀ started ∈ turnBrackets db envelope, started.type = .turnStarted →
      started.toTurnCoordinates = target ∨
      (∃ seq, startedSeq (turnBrackets db envelope) target = some seq ∧ started.seq < seq) ∨
      isClosedIn (turnBrackets db envelope) started = true

variable {envelope : InvocationEventEnvelope}

theorem hasOtherOpenTurn_eq_false {db : Db} :
    hasOtherOpenTurn db envelope = false ↔ Paired db envelope := by
  unfold hasOtherOpenTurn Paired
  cases coordinatesForEnvelope envelope with
  | none => exact ⟨(fun _ _ h => by cases h), fun _ => rfl⟩
  | some target =>
    dsimp only
    rw [List.any_eq_false]
    constructor
    · intro h other hoth started hm ht
      cases hoth
      have hop := h started hm
      simp only [ht, beq_self_eq_true, Bool.true_and, Bool.and_eq_true, bne_iff_ne, Bool.not_eq_true',
        not_and, Bool.not_eq_false] at hop
      by_cases hc : started.toTurnCoordinates = target
      · exact .inl hc
      · cases hs : startedSeq (turnBrackets db envelope) target with
        | none =>
          rw [hs] at hop
          exact .inr (.inr (hop ⟨hc, rfl⟩))
        | some seq =>
          rw [hs] at hop
          by_cases hlt : started.seq < seq
          · exact .inr (.inl ⟨seq, rfl, hlt⟩)
          · exact .inr (.inr (hop ⟨hc, decide_eq_true (by omega)⟩))
    · intro h started hm
      simp only [Bool.and_eq_true, beq_iff_eq, bne_iff_ne, Bool.not_eq_true', not_and, Bool.not_eq_false]
      rintro ⟨⟨ht, hc⟩, hl⟩
      rcases h target rfl started hm ht with heq | ⟨seq, hs, hlt⟩ | hcl
      · exact absurd heq hc
      · rw [hs] at hl
        have hle : seq ≤ started.seq := of_decide_eq_true hl
        omega
      · exact hcl

inductive KeepsOwner : Write → Prop where
  | other {w : Write} (h : w.table ≠ .runtimes) : KeepsOwner w
  | patched {runtimeId : String} {patch : RuntimePatch} (hstatus : patch.status = none)
      (howner : patch.activeRunId = none) : KeepsOwner (.updateRuntime runtimeId patch)

section Statements

variable {db db' : Db} {runtimeId : String}

theorem getByRuntimeId_update {patch : RuntimePatch} (h : (Write.updateRuntime runtimeId patch).run db = .ok db')
    (id : String) : getByRuntimeId db' id =
      (getByRuntimeId db id).map fun r => if r.runtimeId == runtimeId then patch.apply r else r :=
  find?_update (Write.run_runtimes h) fun _ => rfl

theorem getByRuntimeId_setActiveRun {activeRunId : Option String} {updatedAt : String}
    (h : (Write.setActiveRun runtimeId activeRunId updatedAt).run db = .ok db') (id : String) :
    getByRuntimeId db' id =
      (getByRuntimeId db id).map fun r => if r.runtimeId == runtimeId then { r with activeRunId, updatedAt } else r :=
  find?_update (Write.run_runtimes h) fun _ => rfl

theorem KeepsOwner.ownership {w : Write} (hw : KeepsOwner w) (h : w.run db = .ok db') (id : String) :
    ownership db' id = TurnRelease.ownership db id := by
  cases hw with
  | other hne =>
    unfold TurnRelease.ownership getByRuntimeId
    rw [Write.run_runtimes_of_ne h hne]
  | patched hstatus hown =>
    unfold TurnRelease.ownership
    rw [getByRuntimeId_update h, Option.map_map]
    congr 1
    funext r
    simp only [Function.comp_apply]
    split
    · simp [RuntimePatch.apply, hstatus, hown]
    · rfl

end Statements

section Programs

variable {α : Type} {m : M α} {s t : BrokerEventMapper} {r : Except HrcError α}

theorem ownership_kept (hm : WritesFrom (fun _ w => KeepsOwner w) s m) (h : m s = (r, t)) (id : String) :
    ownership t.db id = ownership s.db id := by
  have hk := KeepsFrom.of_writes (I := fun db => ownership db id = ownership s.db id) hm
    (fun db w db' hw hr hdb => (hw.ownership hr id).trans hdb) rfl
  rwa [h] at hk

structure SameTurns (a b : Db) : Prop where
  runtimes : b.runtimes = a.runtimes
  events : b.brokerInvocationEvents = a.brokerInvocationEvents

variable {a b : Db}

theorem SameTurns.trans {c : Db} (h : SameTurns a b) (h' : SameTurns b c) : SameTurns a c :=
  ⟨h'.runtimes.trans h.runtimes, h'.events.trans h.events⟩

theorem sameTurns_of_writes (hm : WritesFrom (fun _ w => w.table ≠ .runtimes ∧ w.table ≠ .brokerInvocationEvents) s m)
    (h : m s = (r, t)) : SameTurns s.db t.db := by
  have hk := KeepsFrom.of_writes (I := fun db => SameTurns s.db db) hm
    (fun db w db' hw hr hdb => hdb.trans
      ⟨Write.run_runtimes_of_ne hr hw.1, Write.run_brokerInvocationEvents_of_ne hr hw.2⟩) ⟨rfl, rfl⟩
  rwa [h] at hk

theorem SameTurns.getByRuntimeId (h : SameTurns a b) (id : String) :
    Repositories.getByRuntimeId b id = Repositories.getByRuntimeId a id := by
  unfold Repositories.getByRuntimeId
  rw [h.runtimes]

theorem SameTurns.asking (h : SameTurns a b) (runtime : HrcRuntimeSnapshot) :
    runtimeHasAnyOpenAskBracket b runtime = runtimeHasAnyOpenAskBracket a runtime := by
  unfold runtimeHasAnyOpenAskBracket openAskBrackets listByInvocationId
  rw [h.events]

theorem SameTurns.hasOtherOpenTurn (h : SameTurns a b) (envelope : InvocationEventEnvelope) :
    Ownership.hasOtherOpenTurn b envelope = Ownership.hasOtherOpenTurn a envelope := by
  unfold Ownership.hasOtherOpenTurn turnBrackets listByInvocationIdAndTypes listByInvocationId
  rw [h.events]

variable [Host] in
theorem update_eq_ok {runtimeId : String} {patch : RuntimePatch} {a : Unit} (hpatch : patch.activeRunId = none)
    (h : Runtimes.update runtimeId patch s = (.ok a, t)) :
    ∃ db, (Write.updateRuntime runtimeId (Runtimes.guardedPatch (getByRuntimeId s.db runtimeId) patch)).run s.db
      = .ok db ∧ t.db = db := by
  rw [Runtimes.update, query_bind] at h
  obtain ⟨_, u, hassert, h⟩ := bind_eq_ok.mp h
  have hpure : Runtimes.assertActiveRun (getByRuntimeId s.db runtimeId) patch s = (.ok (), s) := by
    unfold Runtimes.assertActiveRun
    rw [hpatch]
    cases getByRuntimeId s.db runtimeId <;> rfl
  rw [hpure] at hassert
  cases hassert
  obtain ⟨db, hrun, rfl⟩ := statement_eq_ok h
  exact ⟨db, hrun, rfl⟩

theorem guardedPatch_status (current : Option HrcRuntimeSnapshot) (patch : RuntimePatch) :
    (Runtimes.guardedPatch current patch).status = patch.status := by
  unfold Runtimes.guardedPatch
  split <;> rfl

end Programs

variable [Host]

section Terminal

variable {s t : BrokerEventMapper} {envelope : InvocationEventEnvelope} {ctx : ProjectionContext}
  {runtime : HrcRuntimeSnapshot} {occurredAt updatedAt now runId : String} {a : Unit}

theorem clear_idle (hrt : (getByRuntimeId s.db runtime.runtimeId).isSome = true)
    (h : clearRuntimeTurnOwnership runtime occurredAt updatedAt s = (.ok a, t)) :
    IsIdle t.db runtime.runtimeId := by
  obtain ⟨row, hr⟩ := Option.isSome_iff_exists.mp hrt
  have hid : (row.runtimeId == runtime.runtimeId) = true := by simpa using List.find?_some hr
  obtain ⟨_, u, hc, h⟩ := bind_eq_ok.mp h
  obtain ⟨db, hrun, rfl⟩ := statement_eq_ok hc
  rw [query_bind] at h
  obtain ⟨db', hrun', ht⟩ := update_eq_ok rfl h
  unfold IsIdle ownership
  rw [ht, getByRuntimeId_update hrun', getByRuntimeId_setActiveRun hrun, hr]
  simp only [Option.map_some, if_pos hid, RuntimePatch.apply, guardedPatch_status,
    Runtimes.guardedPatch_activeRunId]
  rfl

theorem endSuperseded_eq_ok {ended : List String} {owner : Option String}
    (h : endSupersededTurnRuns envelope owner occurredAt updatedAt s = (.ok ended, t)) :
    ended = supersededRuns s.db envelope owner ∧ SameTurns s.db t.db := by
  rw [endSupersededTurnRuns, query_bind] at h
  obtain ⟨_, u, hl, hp⟩ := bind_eq_ok.mp h
  cases hp
  refine ⟨rfl, sameTurns_of_writes ?_ hl⟩
  refine Emits.forEach (fun ended => Emits.bind (fun u => ?_) fun _ => serverLog_writes _) s
  exact RunRepository.markCompleted_writesFrom ⟨(by intro h; cases h), by intro h; cases h⟩

variable {exactOwner : Bool}

/-- A terminal of the run that owns the runtime clears the owner, or leaves the runtime alone while a
newer turn is open. -/
theorem markRuntimeTurnTerminal_ownership {newerTurnActive : Bool}
    (hrt : getByRuntimeId s.db ctx.runtimeId = some runtime) (hown : runtime.activeRunId = some runId)
    (hg : runtime.generation = ctx.generation)
    (hask : runtimeHasAnyOpenAskBracket s.db runtime = false)
    (h : markRuntimeTurnTerminal ctx envelope (some runId) occurredAt updatedAt exactOwner newerTurnActive s
      = (.ok a, t)) : IsIdle t.db ctx.runtimeId ↔ newerTurnActive = false := by
  have hid : runtime.runtimeId = ctx.runtimeId := by simpa using List.find?_some hrt
  rw [markRuntimeTurnTerminal, query_bind, hrt] at h
  dsimp only at h
  rw [if_neg (by simp [hg])] at h
  obtain ⟨ended, u, he, h⟩ := bind_eq_ok.mp h
  obtain ⟨rfl, hs⟩ := endSuperseded_eq_ok he
  cases newerTurnActive with
  | true =>
    cases h
    refine ⟨fun hi => ?_, fun hf => by cases hf⟩
    unfold IsIdle ownership at hi
    rw [hs.getByRuntimeId, hrt, Option.map_some, hown] at hi
    exact absurd (congrArg (·.map Prod.snd) hi) (by simp)
  | false =>
    refine ⟨fun _ => rfl, fun _ => ?_⟩
    change releaseRuntime ctx envelope runtime (supersededRuns s.db envelope (some runId)) (some runId)
      occurredAt updatedAt exactOwner u = (.ok a, t) at h
    have hm : runtime.activeRunId.any (supersededRuns s.db envelope (some runId)).contains = false := by
      rw [hown]
      simp [supersededRuns]
    unfold releaseRuntime at h
    rw [hm, hown] at h
    simp only [Bool.false_eq_true, if_false, beq_self_eq_true, if_true] at h
    rw [clearUnlessAwaiting, query_bind, hs.asking, hask] at h
    rw [← hid]
    refine clear_idle ?_ h
    rw [hid, hs.getByRuntimeId, hrt]
    rfl

theorem endOwnerRun_sameTurns (h : endOwnerRun envelope runId now s = (.ok a, t)) : SameTurns s.db t.db := by
  refine sameTurns_of_writes ?_ h
  refine Emits.bind (fun u => ?_) (fun _ => forgetBufferChunkSeq_writes) s
  refine WritesFrom.query_bind (EmitsFrom.when fun _ => ?_)
  refine Emits.bind (Emits.of_readOnly turnMessage_readOnly) (fun message v => ?_) u
  exact RunRepository.markCompleted_writesFrom ⟨(by intro h; cases h), by intro h; cases h⟩

theorem markTerminal_ownership (hrun : ctx.runId = some runId)
    (hrt : getByRuntimeId s.db ctx.runtimeId = some runtime) (hown : runtime.activeRunId = some runId)
    (hg : runtime.generation = ctx.generation)
    (hask : runtimeHasAnyOpenAskBracket s.db runtime = false)
    (h : markTerminal envelope ctx exactOwner now s = (.ok a, t)) :
    IsIdle t.db ctx.runtimeId ↔ Paired s.db envelope := by
  rw [markTerminal, query_bind, hrun] at h
  obtain ⟨_, u, hm, h⟩ := bind_eq_ok.mp h
  have hr : ownership t.db ctx.runtimeId = ownership u.db ctx.runtimeId := by
    refine ownership_kept ?_ h _
    refine WritesFrom.query_bind (EmitsFrom.when fun _ => ?_)
    exact statement_writesFrom (.other (by intro h; cases h))
  unfold IsIdle
  rw [hr, ← hasOtherOpenTurn_eq_false]
  exact markRuntimeTurnTerminal_ownership hrt hown hg hask hm

theorem ownTurn_ownership (hr : ctx.runId = some runId)
    (hrt : getByRuntimeId s.db ctx.runtimeId = some runtime) (hown : runtime.activeRunId = some runId)
    (hg : runtime.generation = ctx.generation)
    (hask : runtimeHasAnyOpenAskBracket s.db runtime = false)
    (h : (endOwnerRun envelope runId now >>= fun _ => markTerminal envelope ctx exactOwner now) s = (.ok a, t)) :
    IsIdle t.db ctx.runtimeId ↔ Paired s.db envelope := by
  obtain ⟨_, u, he, h⟩ := bind_eq_ok.mp h
  have hs := endOwnerRun_sameTurns he
  have hp : Paired s.db envelope ↔ Paired u.db envelope := by
    rw [← hasOtherOpenTurn_eq_false, ← hasOtherOpenTurn_eq_false, hs.hasOtherOpenTurn]
  rw [hp]
  refine markTerminal_ownership hr ?_ hown hg ?_ h
  · rw [hs.getByRuntimeId, hrt]
  · rw [hs.asking, hask]

theorem projectTurn_eq (now : String) (ht : envelope.type.isTurnTerminal = true) (hr : ctx.runId = some runId)
    (hn : isFormat2 s.db envelope.invocationId = true → (extractTurnId envelope).isSome = true) :
    ∃ exactOwner, projectTurn envelope ctx now s =
      (endOwnerRun envelope runId now >>= fun _ => markTerminal envelope ctx exactOwner now) s := by
  rw [projectTurn, query_bind]
  cases hformat : isFormat2 s.db envelope.invocationId with
  | true =>
    obtain ⟨turnId, htr⟩ := Option.isSome_iff_exists.mp (hn hformat)
    refine ⟨true, ?_⟩
    rw [if_pos rfl]
    unfold projectFormat2Turn
    rw [hr, htr]
    cases hty : envelope.type <;> rw [hty] at ht <;> first | rfl | cases ht
  | false =>
    refine ⟨(extractTurnId envelope).isSome, ?_⟩
    rw [if_neg Bool.false_ne_true]
    unfold projectFormat1Turn projectTerminal endTurnRuns
    rw [hr]
    cases hty : envelope.type <;> rw [hty] at ht <;> first | rfl | cases ht

end Terminal

section Projection

variable {s t u : BrokerEventMapper} {envelope : InvocationEventEnvelope} {p : Projection} {runId : String}
  {runtime : HrcRuntimeSnapshot} {result : BrokerProjectionResult}

omit [Host] in
theorem append_keepsOwner {origin : Option EvidenceOrigin} {w : Write} (h : Append origin w) : KeepsOwner w := by
  cases h <;> exact .other (by intro h; cases h)

theorem persistContextReading_keepsOwner {reading : RuntimeContextReading} {ctx : ProjectionContext} {now : String} :
    Writes (fun _ w => KeepsOwner w) (persistContextReading reading ctx now) := by
  refine Emits.bind (Emits.of_readOnly (query_readOnly _)) fun runtime => ?_
  refine Emits.bind (Emits.of_readOnly (requireRecord_readOnly _ _)) fun runtime => ?_
  refine Emits.bind (fun v => Runtimes.update_writesFrom ?_) fun _ => append_writes fun _ _ => append_keepsOwner
  exact .patched (guardedPatch_status _ _) (Runtimes.guardedPatch_activeRunId _ _)

theorem emitContextReading_keepsOwner {stale : Bool} :
    Writes (fun _ w => KeepsOwner w) (emitContextReading p stale) := by
  unfold emitContextReading
  split
  · exact Emits.pure _
  · refine Emits.bind (Emits.of_readOnly (query_readOnly _)) fun reading => ?_
    cases reading with
    | none => exact Emits.pure _
    | some reading => exact Emits.bind persistContextReading_keepsOwner fun _ => Emits.pure _

theorem emitCanonical_keepsOwner {stale : Bool} : Writes (fun _ w => KeepsOwner w) (emitCanonical p stale) := by
  unfold emitCanonical
  split
  · exact Emits.pure _
  · refine Emits.bind (Emits.of_readOnly isRetryableInvocationFailure_readOnly) fun retryable => ?_
    split
    · exact Emits.pure _
    · exact emitLifecycleEvent_writes fun _ _ => append_keepsOwner

theorem commitDisposition_keepsOwner {disposition : Disposition} :
    Writes (fun _ w => KeepsOwner w) (commitDisposition p disposition) := by
  refine Emits.bind (recordProjectionDisposition_writes fun _ _ => .other (by intro h; cases h)) fun _ => ?_
  exact Emits.bind (advanceContiguousProjectionCursor_writes fun _ _ _ => .other (by intro h; cases h))
    fun _ => Emits.pure _

theorem updateProjection_keepsOwner {invocationId : String} {seq : Nat} {status : ProjectionStatus}
    {error : Option String} : Writes (fun _ w => KeepsOwner w) (updateProjection invocationId seq status error) :=
  statement_writes fun _ => .other (by intro h; cases h)

omit [Host] in
theorem providerTranscriptPayload_terminal (h : envelope.type.isTurnTerminal = true) :
    providerTranscriptPayload envelope = none := by
  unfold providerTranscriptPayload
  split
  · rfl
  · cases ht : envelope.type <;> rw [ht] at h <;> first | rfl | cases h

/-- Past its state mutation a turn terminal leaves every owner alone. -/
theorem projectFresh_mutation (ht : p.persistedEnvelope.type.isTurnTerminal = true)
    (hs : p.format2TurnStart = none) (h : projectFresh p s = (.ok result, t)) :
    ∃ descriptors v, projectByMode p (isStale s.db p) (isParticipantFenced s.db p.persistedEnvelope.invocationId)
        { s with pendingLateStartEvents := [], pendingInputEvents := [] } = (.ok descriptors, v) ∧
      ∀ id, ownership t.db id = ownership v.db id := by
  obtain ⟨_, _, hm, h⟩ := bind_eq_ok.mp h
  cases hm
  rw [query_bind] at h
  obtain ⟨_, _, hp, h⟩ := bind_eq_ok.mp h
  rw [persistProviderTranscriptArtifact, providerTranscriptPayload_terminal ht] at hp
  cases hp
  obtain ⟨descriptors, v, hmd, h⟩ := bind_eq_ok.mp h
  refine ⟨descriptors, v, hmd, fun id => ?_⟩
  obtain ⟨_, v₁, hc, h⟩ := bind_eq_ok.mp h
  obtain ⟨_, v₂, hr, h⟩ := bind_eq_ok.mp h
  obtain ⟨_, v₃, hf, h⟩ := bind_eq_ok.mp h
  obtain ⟨_, v₄, hw, h⟩ := bind_eq_ok.mp h
  obtain ⟨_, v₅, hd, h⟩ := bind_eq_ok.mp h
  obtain ⟨_, v₆, happ, h⟩ := bind_eq_ok.mp h
  obtain ⟨_, v₇, hcm, h⟩ := bind_eq_ok.mp h
  cases h
  have hfn : v₃ = v₂ := by
    rw [finalizeMinted, hs] at hf
    cases hf
    rfl
  have hqt : v₄ = v₃ := by
    have hty : (p.persistedEnvelope.type == .submissionWithdrawn) = false := by
      cases hty : p.persistedEnvelope.type <;> rw [hty] at ht <;> first | rfl | cases ht
    rw [emitWithdrawn, hty, Bool.and_false, if_neg Bool.false_ne_true] at hw
    cases hw
    rfl
  calc ownership t.db id = ownership v₆.db id := ownership_kept (commitDisposition_keepsOwner _) hcm id
    _ = ownership v₅.db id := ownership_kept (Emits.when updateProjection_keepsOwner _) happ id
    _ = ownership v₄.db id :=
      ownership_kept (Emits.mapEach (fun _ => append_writes fun _ _ => append_keepsOwner) _) hd id
    _ = ownership v₂.db id := by rw [hqt, hfn]
    _ = ownership v₁.db id := ownership_kept (emitContextReading_keepsOwner _) hr id
    _ = ownership v.db id := ownership_kept (emitCanonical_keepsOwner _) hc id

theorem prepared_named (hp : prepare envelope s = (.ok p, t)) (hty : envelope.type ≠ .turnStarted)
    (hrun : p.ctx.runId.isSome = true) (hformat : isFormat2 t.db envelope.invocationId = true) :
    (extractTurnId envelope).isSome = true := by
  obtain ⟨u, hr, -, -⟩ := prepare_eq_ok hp
  have hres := resolved hr
  have hi := hres.invocation
  unfold isFormat2 at hformat
  have hfr : getByInvocationId t.db envelope.invocationId = some p.invocation := by
    rw [← hi]
    unfold getByInvocationId
    rw [(prepare_frame hp).brokerInvocations]
  rw [hfr, Option.any_some, beq_iff_eq] at hformat
  have hid := hres.runId
  rw [(resolved_start hr hty).1, Option.map_none, Option.none_or] at hid
  unfold resolveRunIdForEvent at hid
  rw [hformat] at hid
  rw [hid] at hrun
  unfold resolveFormat2RunId at hrun
  cases ht : extractTurnId envelope with
  | none =>
    rw [ht] at hrun
    cases hrun
  | some turnId => rfl

end Projection

def prepareLive (envelope : InvocationEventEnvelope) : M Projection := do
  let _ ← flushIgnoredDeltasInTransaction envelope.invocationId false
  prepare envelope

def settles (db : Db) (p : Projection) : Bool :=
  match verdict db p with
  | .fresh => !isStale db p
  | _ => false

structure OwnsRuntime (db : Db) (ctx : ProjectionContext) : Prop where
  owner : ∃ runId runtime, ctx.runId = some runId ∧ getByRuntimeId db ctx.runtimeId = some runtime ∧
    runtime.activeRunId = some runId ∧ runtime.generation = ctx.generation ∧
    runtimeHasAnyOpenAskBracket db runtime = false

structure EndsOwnTurn (envelope : InvocationEventEnvelope) (s : BrokerEventMapper) (p : Projection)
    (u : BrokerEventMapper) : Prop where
  live : s.retainedProjection = false
  terminal : envelope.type.isTurnTerminal = true
  prepared : prepareLive envelope { s with tick := s.tick + 1 } = (.ok p, u)
  owner : OwnsRuntime u.db p.ctx

section Release

variable {s t u : BrokerEventMapper} {envelope : InvocationEventEnvelope} {p : Projection}
  {result : BrokerProjectionResult}

theorem apply_eq_ok (hdelta : isIgnoredBrokerDelta envelope = false) (h : apply envelope s = (.ok result, t)) :
    ∃ p u v, prepareLive envelope { s with tick := s.tick + 1 } = (.ok p, u) ∧
      projectVerdict p (verdict u.db p) u = (.ok result, v) ∧ t.db = v.db := by
  rw [apply_semantic hdelta] at h
  rcases hbd : (transaction (projectLive envelope) >>= finishLive envelope) s with ⟨e | a, v⟩
  · rw [rethrowRestoring_error hbd] at h
    cases h
  · rw [rethrowRestoring_ok hbd] at h
    cases h
    obtain ⟨a, w, ht, hf⟩ := bind_eq_ok.mp hbd
    obtain ⟨w', hl, rfl⟩ := transaction_eq_ok ht
    obtain ⟨n, v', hfl, hpr⟩ := bind_eq_ok.mp hl
    obtain ⟨p, u, hp, hv⟩ := project_eq_ok hpr
    obtain ⟨_, x, hs, hf⟩ := bind_eq_ok.mp hf
    cases hs
    obtain ⟨_, y, hlog, hpu⟩ := bind_eq_ok.mp hf
    cases hpu
    refine ⟨p, u, w', bind_eq_ok.mpr ⟨n, v', hfl, hp⟩, hv, ?_⟩
    unfold Prog.when at hlog
    split at hlog
    · have hlg := logged (s := setCursor false envelope.invocationId none { w' with tick := w'.tick + 1 }) envelope
      rw [hlog] at hlg
      exact hlg.db
    · cases hlog
      rfl

variable {descriptors : List DerivedTurnDescriptor} {ctx : ProjectionContext}

omit [Host] in
theorem OwnsRuntime.busy {db db' : Db} (h : OwnsRuntime db ctx)
    (hk : ownership db' ctx.runtimeId = ownership db ctx.runtimeId) : ¬ IsIdle db' ctx.runtimeId := by
  obtain ⟨runId, runtime, -, hrt, hown, -, -⟩ := h.owner
  unfold IsIdle
  rw [hk, ownership, hrt, Option.map_some, hown]
  intro hi
  exact absurd (congrArg (·.map Prod.snd) hi) (by simp)

theorem turnedAway_kept (hver : verdict u.db p ≠ .fresh)
    (h : projectVerdict p (verdict u.db p) u = (.ok result, t)) (id : String) :
    ownership t.db id = ownership u.db id := by
  cases hv : verdict u.db p with
  | conflict =>
    rw [hv] at h
    cases h
  | replayed =>
    rw [hv] at h
    cases h
    rfl
  | settled disposition =>
    rw [hv] at h
    obtain ⟨_, _, hc, hp⟩ := bind_eq_ok.mp h
    cases hp
    exact ownership_kept (commitDisposition_keepsOwner _) hc id
  | fenced error =>
    rw [hv] at h
    obtain ⟨_, v, hf, h⟩ := bind_eq_ok.mp h
    obtain ⟨_, _, hc, hp⟩ := bind_eq_ok.mp h
    cases hp
    exact (ownership_kept (commitDisposition_keepsOwner _) hc id).trans
      (ownership_kept (Emits.when updateProjection_keepsOwner _) hf id)
  | fresh => exact absurd hv hver

theorem stale_kept {participantFenced : Bool}
    (ht : p.persistedEnvelope.type.isTurnTerminal = true) (hor : p.ctx.evidenceOrigin = none)
    (h : projectByMode p true participantFenced s = (.ok descriptors, t)) : t = s := by
  unfold projectByMode at h
  rw [hor] at h
  dsimp only at h
  unfold projectState at h
  cases participantFenced with
  | false =>
    cases h
    rfl
  | true =>
    rw [if_pos rfl, recordInvocationTerminal] at h
    have hst : invocationTerminalState p.persistedEnvelope.type = none := by
      cases hty : p.persistedEnvelope.type <;> rw [hty] at ht <;> first | rfl | cases ht
    rw [hst] at h
    cases h
    rfl

theorem projectLiveState_terminal {now : String}
    (ht : envelope.type.isTurnTerminal = true) :
    projectLiveState envelope ctx now = (projectTurn envelope ctx now >>= fun _ => pure []) := by
  unfold projectLiveState
  cases hty : envelope.type <;> rw [hty] at ht <;> first | rfl | cases ht

theorem persisted_named {correlation : Option Json.Json} (hp : prepare envelope s = (.ok p, u))
    (hty : envelope.type ≠ .turnStarted) (hown : OwnsRuntime u.db p.ctx)
    (he : p.persistedEnvelope = { envelope with correlation }) :
    isFormat2 u.db p.persistedEnvelope.invocationId = true → (extractTurnId p.persistedEnvelope).isSome = true := by
  obtain ⟨runId, _, hr, -⟩ := hown.owner
  have hn := prepared_named hp hty (by rw [hr]; rfl)
  have ht : extractTurnId p.persistedEnvelope = extractTurnId envelope := by
    rw [he]
    rfl
  have hid : p.persistedEnvelope.invocationId = envelope.invocationId := by rw [he]
  rw [ht, hid]
  exact hn

theorem settled_released (hown : OwnsRuntime s.db p.ctx)
    (ht : p.persistedEnvelope.type.isTurnTerminal = true) (hor : p.ctx.evidenceOrigin = none)
    (hn : isFormat2 s.db p.persistedEnvelope.invocationId = true →
      (extractTurnId p.persistedEnvelope).isSome = true)
    (h : projectByMode p false false { s with pendingLateStartEvents := [], pendingInputEvents := [] }
      = (.ok descriptors, t)) : IsIdle t.db p.ctx.runtimeId ↔ Paired s.db p.persistedEnvelope := by
  unfold projectByMode at h
  rw [hor] at h
  dsimp only at h
  rw [projectState, if_neg Bool.false_ne_true, if_neg Bool.false_ne_true,
    projectLiveState_terminal ht] at h
  obtain ⟨_, v, htr, hp⟩ := bind_eq_ok.mp h
  cases hp
  obtain ⟨runId, runtime, hr, hrt, hown, hg, hask⟩ := hown.owner
  obtain ⟨exactOwner, heq⟩ := projectTurn_eq p.now
    (s := { s with pendingLateStartEvents := [], pendingInputEvents := [] }) ht hr hn
  rw [heq] at htr
  exact ownTurn_ownership (s := { s with pendingLateStartEvents := [], pendingInputEvents := [] })
    hr hrt hown hg hask htr

/-- The terminal of the runtime's own run releases the runtime exactly when the terminal is projected
and every start it can see is paired. -/
theorem terminal_releases (h : EndsOwnTurn envelope s p u) (happly : apply envelope s = (.ok result, t)) :
    IsIdle t.db p.ctx.runtimeId ↔ settles u.db p = true ∧ Paired u.db envelope := by
  have hdelta : isIgnoredBrokerDelta envelope = false := by
    have ht := h.terminal
    unfold isIgnoredBrokerDelta
    cases hty : envelope.type <;> rw [hty] at ht <;> first | rfl | cases ht
  obtain ⟨p', u', v, hprep, hproj, hdb⟩ := apply_eq_ok hdelta happly
  cases hprep.symm.trans h.prepared
  rw [hdb]
  obtain ⟨n, s₀, hfl, hp⟩ := bind_eq_ok.mp h.prepared
  have hl : s₀.retainedProjection = false := (flush_eq_ok hfl).1.retainedProjection.trans h.live
  obtain ⟨correlation, he⟩ := prepared_persisted hp
  have ht : p.persistedEnvelope.type.isTurnTerminal = true := by
    rw [he]
    exact h.terminal
  have hty : envelope.type ≠ .turnStarted := by
    intro hty
    have hf := h.terminal
    rw [hty] at hf
    cases hf
  have hor : p.ctx.evidenceOrigin = none := by
    rw [prepared_origin hp, hl]
    rfl
  by_cases hver : verdict u.db p = .fresh
  · rw [hver] at hproj
    obtain ⟨w, hr, -, -⟩ := prepare_eq_ok hp
    obtain ⟨descriptors, v', hm, hk⟩ :=
      projectFresh_mutation ht (resolved_start hr hty).1 hproj
    have hst : settles u.db p = !isStale u.db p := by
      unfold settles
      rw [hver]
    rw [hst]
    cases hstale : isStale u.db p with
    | true =>
      rw [hstale] at hm
      obtain rfl := stale_kept ht hor hm
      exact ⟨fun hi => absurd hi (h.owner.busy (hk _)), fun hs => by cases hs.1⟩
    | false =>
      have hfn : isParticipantFenced u.db p.persistedEnvelope.invocationId = false :=
        (Bool.or_eq_false_iff.mp hstale).1
      rw [hstale, hfn] at hm
      have hi := settled_released h.owner ht hor
        (persisted_named hp hty h.owner he) hm
      have hpr : Paired u.db p.persistedEnvelope ↔ Paired u.db envelope := by
        rw [he]
        exact Iff.rfl
      unfold IsIdle at hi ⊢
      rw [hk, hi, hpr]
      exact ⟨fun hpa => ⟨rfl, hpa⟩, And.right⟩
  · have hk := turnedAway_kept hver hproj
    refine ⟨fun hi => absurd hi (h.owner.busy (hk _)), fun hs => ?_⟩
    have hf := hs.1
    unfold settles at hf
    cases hv : verdict u.db p with
    | fresh => exact absurd hv hver
    | conflict | replayed | settled _ | fenced _ =>
      rw [hv] at hf
      cases hf

end Release

def acceptedMapper : BrokerEventMapper :=
  { sampleMapper with
    db := { sampleMapper.db with
      runs := ⟨[{ runId := "run", hostSessionId := "host", runtimeId := some "rt", invocationId := some "inv"
                  operationId := some "op", dispatchedInputId := some "input" }], by decide⟩ } }

def started : InvocationEventEnvelope :=
  { sampleEvent 1 .turnStarted with
    turnId := some "turn"
    inputId := some "input"
    harnessGeneration := some 1 }

def completed (harnessGeneration : Option Nat) : InvocationEventEnvelope :=
  { sampleEvent 2 .turnCompleted with
    turnId := some "turn"
    harnessGeneration }

def ownsRuntime (db : Db) (ctx : ProjectionContext) : Bool :=
  match getByRuntimeId db ctx.runtimeId with
  | some runtime => ctx.runId.isSome && runtime.activeRunId == ctx.runId && runtime.generation == ctx.generation
      && !runtimeHasAnyOpenAskBracket db runtime
  | none => false

/-- The row is stored and `q` holds of its projection. -/
def preparesWith (envelope : InvocationEventEnvelope) (s : BrokerEventMapper) (q : Db → Projection → Bool) : Bool :=
  match prepareLive envelope { s with tick := s.tick + 1 } with
  | (.ok p, u) => ownsRuntime u.db p.ctx && q u.db p
  | (.error _, _) => false

omit [Host] in
theorem ownsRuntime_sound {db : Db} {ctx : ProjectionContext} (h : ownsRuntime db ctx = true) : OwnsRuntime db ctx := by
  unfold ownsRuntime at h
  cases hrt : getByRuntimeId db ctx.runtimeId with
  | none =>
    rw [hrt] at h
    cases h
  | some runtime =>
    rw [hrt] at h
    simp only [Bool.and_eq_true, beq_iff_eq, Bool.not_eq_true'] at h
    obtain ⟨⟨⟨hr, hown⟩, hg⟩, hask⟩ := h
    obtain ⟨runId, hr⟩ := Option.isSome_iff_exists.mp hr
    exact ⟨runId, runtime, hr, hrt, hown.trans hr, hg, hask⟩

variable {s : BrokerEventMapper}

theorem endsOwnTurn_of_prepares
    {q : Db → Projection → Bool} (hl : s.retainedProjection = false) (ht : envelope.type.isTurnTerminal = true)
    (h : preparesWith envelope s q = true) : ∃ p u, EndsOwnTurn envelope s p u ∧ q u.db p = true := by
  unfold preparesWith at h
  rcases hp : prepareLive envelope { s with tick := s.tick + 1 } with ⟨e | p, u⟩
  · rw [hp] at h
    cases h
  · rw [hp] at h
    have h := Bool.and_eq_true_iff.mp h
    exact ⟨p, u, ⟨hl, ht, hp, ownsRuntime_sound h.1⟩, h.2⟩

theorem apply_of_isOk
    (h : (apply envelope s).1.isOk = true) : ∃ result t, apply envelope s = (.ok result, t) := by
  rcases happ : apply envelope s with ⟨e | result, t⟩
  · rw [happ] at h
    cases h
  · exact ⟨result, t, rfl⟩

def turnActive : BrokerEventMapper := @runCalls steadyHost [.project false started] acceptedMapper

omit [Host] in
theorem terminal_releases_shared :
    let _ := steadyHost
    ∃ p u result t, EndsOwnTurn (completed (some 1)) turnActive p u ∧
      apply (completed (some 1)) turnActive = (.ok result, t) ∧
      (IsIdle t.db p.ctx.runtimeId ↔ settles u.db p = true ∧ Paired u.db (completed (some 1))) :=
  let _ := steadyHost
  have hp : preparesWith (completed (some 1)) turnActive (fun _ _ => true) = true := by decide +kernel
  have hok : (apply (completed (some 1)) turnActive).1.isOk = true := by decide +kernel
  have hl : turnActive.retainedProjection = false := by decide +kernel
  have ⟨p, u, h, _⟩ := endsOwnTurn_of_prepares hl rfl hp
  have ⟨result, t, happ⟩ := apply_of_isOk hok
  ⟨p, u, result, t, h, happ, terminal_releases h happ⟩

instance (db : Db) (runtimeId : String) : Decidable (IsIdle db runtimeId) := by unfold IsIdle; infer_instance

omit [Host] in
/-- The start names its generation and the terminal does not: the terminal is the run's own, no other
turn ever started, and the runtime stays busy with the run it just ended. -/
theorem unnamed_generation_wedges :
    let _ := steadyHost
    (∃ p u, EndsOwnTurn (completed none) turnActive p u ∧ settles u.db p = true ∧ p.ctx.runtimeId = "rt" ∧
      ∀ event ∈ turnBrackets u.db (completed none), event.turnId = "turn") ∧
    (apply (completed none) turnActive).1.isOk = true ∧
    ¬ IsIdle (apply (completed none) turnActive).2.db "rt" := by
  let _ := steadyHost
  have hp : preparesWith (completed none) turnActive (fun db p => settles db p && p.ctx.runtimeId == "rt"
      && (turnBrackets db (completed none)).all fun event => event.turnId == "turn") = true := by decide +kernel
  have hl : turnActive.retainedProjection = false := by decide +kernel
  obtain ⟨p, u, h, hq⟩ := endsOwnTurn_of_prepares hl rfl hp
  simp only [Bool.and_eq_true, beq_iff_eq, List.all_eq_true] at hq
  exact ⟨⟨p, u, h, hq.1.1, hq.1.2, hq.2⟩, by decide +kernel, by decide +kernel⟩

end HrcRuntime.TurnRelease
