import HrcRuntime.ProjectEnvelope

namespace HrcRuntime.ProjectionWrites

open Records Database Program Mapper EventRepository Repositories RunResolution
open RuntimeState LifecyclePayload ContextReading Format2Input MessageProjection StateProjection ProjectEnvelope

variable [Host]

structure Resolved (envelope : InvocationEventEnvelope) (s : BrokerEventMapper) (r : Resolution)
    (t : BrokerEventMapper) : Prop where
  invocation : getByInvocationId s.db envelope.invocationId = some r.invocation
  runtime : getByRuntimeId s.db r.invocation.runtimeId = some r.runtime
  start : prepareFormat2TurnStart envelope r.invocation r.runtime
    (historicalGeneration s.db r.invocation r.runtime) r.now { s with tick := s.tick + 1 } = (.ok r.format2TurnStart, t)
  runId : r.ctx.runId = (r.format2TurnStart.map (·.runId)).or
    (resolveRunIdForEvent t.db t.retainedProjection envelope r.invocation r.runtime)
  ctx : r.ctx = contextOf r.invocation r.runtime (historicalGeneration s.db r.invocation r.runtime) r.ctx.runId
    t.retainedProjection
  persisted : r.persistedEnvelope = envelopeWithWriteTimeRepairCorrelation t.db envelope r.ctx.runId

structure SameBase (a b : Db) : Prop where
  brokerInvocations : b.brokerInvocations = a.brokerInvocations
  runtimes : b.runtimes = a.runtimes
  runs : b.runs = a.runs
  brokerInvocationEvents : b.brokerInvocationEvents = a.brokerInvocationEvents

inductive WithdrawnWrite (p : Projection) (db : Db) : Write → Prop where
  | failed {run : HrcRunRecord} {submissionId : String} {base : Db}
      (h : withdrawnAcceptedRun base p.persistedEnvelope p.ctx = some (run, submissionId)) :
      WithdrawnWrite p db
        (.failWithdrawnRun run.runId p.ctx.runtimeId p.persistedEnvelope.invocationId submissionId p.now)
  | cleared (runId : String) : WithdrawnWrite p db (.clearActiveRun p.ctx.runtimeId runId p.now)
  | event {w : Write} (h : Append none w) : WithdrawnWrite p db w

def isStale (db : Db) (p : Projection) : Bool :=
  isParticipantFenced db p.persistedEnvelope.invocationId
    || isStaleLifecycleEnvelope p.persistedEnvelope.toEnvelopeHead p.invocation

inductive ProjectWrite (s : BrokerEventMapper) (envelope : InvocationEventEnvelope) (db : Db) : Write → Prop where
  | minted {invocation : HrcBrokerInvocationRecord} {runtime : HrcRuntimeSnapshot} {w : Write}
      (hlive : s.retainedProjection = false)
      (hinvocation : getByInvocationId s.db envelope.invocationId = some invocation)
      (hruntime : getByRuntimeId s.db invocation.runtimeId = some runtime)
      (h : Mint envelope invocation runtime w) : ProjectWrite s envelope db w
  | blob (blob : ToolResultBlobRecord) : ProjectWrite s envelope db (.insertBlob blob)
  | stored {r : Resolution} {t : BrokerEventMapper} {row : HrcBrokerInvocationEventRecord}
      (hr : resolve envelope s = (.ok r, t)) (hrow : StoredFrom (appendInput r) row)
      (hfresh : getByInvocationAndSeq db r.persistedEnvelope.invocationId r.persistedEnvelope.seq = none) :
      ProjectWrite s envelope db (.insertEvent row)
  | projected (status : ProjectionStatus) (error : Option String) :
      ProjectWrite s envelope db (.projectEvent envelope.invocationId envelope.seq status error)
  | disposed {p : Projection} {t : BrokerEventMapper} (disposition : Disposition)
      (hp : prepare envelope s = (.ok p, t))
      (hfresh : getProjectionDisposition db p.persistedEnvelope.invocationId p.persistedEnvelope.seq = none) :
      ProjectWrite s envelope db (.insertDisposition (p.dispositionRow disposition))
  | advanced {row : HrcBrokerInvocationRecord} (updatedAt : String)
      (hrow : getByInvocationId db envelope.invocationId = some row) :
      ProjectWrite s envelope db
        (.setProjectedSeq envelope.invocationId (contiguousThrough db envelope.invocationId row.lastProjectedSeq)
          updatedAt)
  | live {p : Projection} {t : BrokerEventMapper} {base : Db} {w : Write} (hlive : s.retainedProjection = false)
      (hp : prepare envelope s = (.ok p, t)) (hfresh : verdict t.db p = .fresh) (hstale : isStale t.db p = false)
      (hbase : SameBase t.db base) (h : LiveWrite base p.persistedEnvelope p.ctx db w) : ProjectWrite s envelope db w
  | ended {p : Projection} {t : BrokerEventMapper} {w : Write} (hlive : s.retainedProjection = false)
      (hp : prepare envelope s = (.ok p, t)) (h : InvocationEnd p.persistedEnvelope w) : ProjectWrite s envelope db w
  | retained {p : Projection} {t : BrokerEventMapper} {base : Db} {w : Write}
      (hretained : s.retainedProjection = true) (hp : prepare envelope s = (.ok p, t))
      (hfresh : verdict t.db p = .fresh) (hbase : SameBase t.db base)
      (h : RetainedWrite base p.persistedEnvelope p.ctx (isStale t.db p) db w) :
      ProjectWrite s envelope db w
  | canonical {p : Projection} {t : BrokerEventMapper} {w : Write} (hp : prepare envelope s = (.ok p, t))
      (h : Append p.ctx.evidenceOrigin w) : ProjectWrite s envelope db w
  | warned {w : Write} (htranscript : (providerTranscriptPayload envelope).isSome = true) (h : Append none w) :
      ProjectWrite s envelope db w
  | artifact (record : HrcRuntimeArtifactRecord) : ProjectWrite s envelope db (.insertArtifact record)
  | reading {p : Projection} {t : BrokerEventMapper} {w : Write} (hlive : s.retainedProjection = false)
      (hp : prepare envelope s = (.ok p, t)) (hstale : isStale t.db p = false) (h : RuntimeTouch p.ctx.runtimeId w) :
      ProjectWrite s envelope db w
  | event {w : Write} (hlive : s.retainedProjection = false) (h : Append none w) : ProjectWrite s envelope db w
  | fact {p : Projection} {t : BrokerEventMapper} {w : Write} (hlive : s.retainedProjection = false)
      (hp : prepare envelope s = (.ok p, t)) (hstale : isStale t.db p = false) (h : InputFact db w) :
      ProjectWrite s envelope db w
  | withdrawn {p : Projection} {t : BrokerEventMapper} {w : Write} (hp : prepare envelope s = (.ok p, t))
      (hstale : isStale t.db p = false) (htype : envelope.type = .submissionWithdrawn) (h : WithdrawnWrite p db w) :
      ProjectWrite s envelope db w

section Resolve

variable {envelope : InvocationEventEnvelope} {s t : BrokerEventMapper} {r : Resolution} {p : Projection}

omit [Host] in
theorem persisted_eq (db : Db) (envelope : InvocationEventEnvelope) (runId : Option String) :
    ∃ correlation, envelopeWithWriteTimeRepairCorrelation db envelope runId = { envelope with correlation } := by
  unfold envelopeWithWriteTimeRepairCorrelation
  repeat' split
  all_goals exact ⟨_, rfl⟩

omit [Host] in
theorem requireRecord_eq_ok {α : Type} {o : Option α} {a : α} {message : String}
    (h : requireRecord o message s = (.ok a, t)) : o = some a := by
  cases o with
  | none => cases h
  | some b =>
    cases h
    rfl

theorem resolved (h : resolve envelope s = (.ok r, t)) : Resolved envelope s r t := by
  have h := now_bind_eq_ok h
  rw [query_bind] at h
  obtain ⟨invocation, hi, h⟩ := requireRecord_bind_eq_ok.mp h
  rw [query_bind] at h
  obtain ⟨runtime, hrt, h⟩ := requireRecord_bind_eq_ok.mp h
  rw [query_bind] at h
  obtain ⟨start, u, hs, h⟩ := bind_eq_ok.mp h
  cases h
  exact ⟨hi, hrt, hs, rfl, rfl, rfl⟩

variable {P : Db → Write → Prop}

theorem resolve_writesFrom (hm : s.retainedProjection = false → ∀ invocation runtime,
      getByInvocationId s.db envelope.invocationId = some invocation →
      getByRuntimeId s.db invocation.runtimeId = some runtime →
      ∀ db w, Mint envelope invocation runtime w → P db w) : WritesFrom P s (resolve envelope) := by
  refine EmitsFrom.bind (now_writes s) fun now s₁ hn _ => ?_
  have hr := effect_bind_eq_ok hn
  cases hr
  refine WritesFrom.query_bind (EmitsFrom.bind_readOnly (requireRecord_readOnly _ _) fun invocation hi => ?_)
  refine WritesFrom.query_bind (EmitsFrom.bind_readOnly (requireRecord_readOnly _ _) fun runtime hrt => ?_)
  refine WritesFrom.query_bind (EmitsFrom.bind ?_ fun start t _ _ => ?_)
  · exact prepareFormat2TurnStart_writesFrom fun hl => hm hl _ _
      (requireRecord_eq_ok hi) (requireRecord_eq_ok hrt)
  · exact Emits.of_readOnly (ReadOnly.bind (ReadOnly.read _) fun _ => ReadOnly.bind (query_readOnly _) fun _ =>
      ReadOnly.bind (query_readOnly _) fun _ => ReadOnly.pure _) t

theorem appendBrokerEvent_writes (hbl : ∀ db blob, P db (.insertBlob blob))
    (hs : ∀ db row, StoredFrom (appendInput r) row →
      getByInvocationAndSeq db r.persistedEnvelope.invocationId r.persistedEnvelope.seq = none →
      P db (.insertEvent row)) : Writes P (appendBrokerEvent r) := by
  unfold appendBrokerEvent
  split
  · exact Emits.bind (appendEvent_writes hbl hs) fun _ => Emits.pure _
  · exact Emits.pure _

theorem prepare_writesFrom (hm : s.retainedProjection = false → ∀ invocation runtime,
      getByInvocationId s.db envelope.invocationId = some invocation →
      getByRuntimeId s.db invocation.runtimeId = some runtime →
      ∀ db w, Mint envelope invocation runtime w → P db w)
    (hbl : ∀ db blob, P db (.insertBlob blob))
    (hs : ∀ r t, resolve envelope s = (.ok r, t) → ∀ db row, StoredFrom (appendInput r) row →
      getByInvocationAndSeq db r.persistedEnvelope.invocationId r.persistedEnvelope.seq = none →
      P db (.insertEvent row)) : WritesFrom P s (prepare envelope) :=
  EmitsFrom.bind (resolve_writesFrom hm) fun r t hr _ =>
    Emits.bind (appendBrokerEvent_writes hbl (hs r t hr)) (fun _ => Emits.pure _) t

theorem prepare_eq_ok (h : prepare envelope s = (.ok p, t)) :
    ∃ u, resolve envelope s = (.ok p.toResolution, u) ∧ appendBrokerEvent p.toResolution u = (.ok p.appended, t)
      ∧ p.projectionEnvelopeHash = Host.envelopeHash p.persistedEnvelope := by
  obtain ⟨r, u, hr, h⟩ := bind_eq_ok.mp h
  obtain ⟨appended, _, happ, h⟩ := bind_eq_ok.mp h
  cases h
  exact ⟨u, hr, happ, rfl⟩

end Resolve

section Fresh

variable {envelope : InvocationEventEnvelope} {s t : BrokerEventMapper} {p : Projection}

omit [Host] in
theorem SameBase.step {P : Db → Write → Prop} {base : Db} {a b : BrokerEventMapper} (h : Step P a b)
    (hP : ∀ db w, P db w → w.table ≠ .brokerInvocations ∧ w.table ≠ .runtimes ∧ w.table ≠ .runs
      ∧ w.table ≠ .brokerInvocationEvents) (ha : SameBase base a.db) : SameBase base b.db := by
  cases h with
  | quiet h => rwa [h.db]
  | write w hw h =>
    obtain ⟨h₁, h₂, h₃, h₄⟩ := hP _ _ hw
    exact ⟨(Write.run_brokerInvocations_of_ne h h₁).trans ha.brokerInvocations,
      (Write.run_runtimes_of_ne h h₂).trans ha.runtimes, (Write.run_runs_of_ne h h₃).trans ha.runs,
      (Write.run_brokerInvocationEvents_of_ne h h₄).trans ha.brokerInvocationEvents⟩

theorem persistProviderTranscriptArtifact_writes {P : Db → Write → Prop}
    (hart : ∀ db record, P db (.insertArtifact record))
    (hwr : (providerTranscriptPayload p.persistedEnvelope).isSome = true → ∀ db w, Append none w → P db w) :
    Writes P (persistProviderTranscriptArtifact p) := by
  unfold persistProviderTranscriptArtifact
  split
  · exact Emits.pure _
  · rename_i payload hp
    have hw (reason : String) (path : Option String) :
        Writes P (recordProviderTranscriptArtifactWarning p.persistedEnvelope p.ctx p.now reason path) :=
      Emits.bind (append_writes (hwr (by rw [hp]; rfl))) fun _ => Emits.pure _
    dsimp only
    split
    · exact hw _ _
    · split
      · refine Emits.bind (Emits.read _) fun bytes => ?_
        split
        · exact hw _ _
        · exact Artifacts.insertIdempotent_writes fun db => hart db _
      · exact hw _ _

theorem prepared_persisted (hp : prepare envelope s = (.ok p, t)) :
    ∃ correlation, p.persistedEnvelope = { envelope with correlation } := by
  obtain ⟨u, hr, _, _⟩ := prepare_eq_ok hp
  rw [(resolved hr).persisted]
  exact persisted_eq _ _ _

theorem prepared_origin (hp : prepare envelope s = (.ok p, t)) :
    p.ctx.evidenceOrigin = if s.retainedProjection then some .retained else none := by
  obtain ⟨u, hr, _, _⟩ := prepare_eq_ok hp
  have hw : WritesFrom (fun _ _ => True) s (resolve envelope) :=
    resolve_writesFrom fun _ _ _ _ _ _ _ _ => trivial
  have hqt := steps_quiet hw
  rw [hr] at hqt
  rw [(resolved hr).ctx, ← hqt.retainedProjection]
  rfl

theorem live_of_origin (hp : prepare envelope s = (.ok p, t)) (h : p.ctx.evidenceOrigin = none) :
    s.retainedProjection = false := by
  have hor := prepared_origin hp
  rw [h] at hor
  by_contra hr
  rw [Bool.not_eq_false] at hr
  rw [if_pos hr] at hor
  cases hor

theorem commitDisposition_writes (hp : prepare envelope s = (.ok p, t)) (disposition : Disposition) :
    Writes (ProjectWrite s envelope) (commitDisposition p disposition) := by
  obtain ⟨correlation, he⟩ := prepared_persisted hp
  refine Emits.bind (recordProjectionDisposition_writes fun db hfr => .disposed disposition hp hfr) fun _ => ?_
  refine Emits.bind (advanceContiguousProjectionCursor_writes fun db row hr => ?_) fun _ => Emits.pure _
  rw [he] at hr ⊢
  exact .advanced _ hr

theorem updateProjection_writes (hp : prepare envelope s = (.ok p, t)) (status : ProjectionStatus)
    (error : Option String) : Writes (ProjectWrite s envelope)
      (updateProjection p.persistedEnvelope.invocationId p.persistedEnvelope.seq status error) := by
  obtain ⟨correlation, he⟩ := prepared_persisted hp
  rw [he]
  exact statement_writes fun db => .projected status error

theorem persistProviderTranscriptArtifact_base {u : BrokerEventMapper} (hu : SameBase t.db u.db) :
    SameBase t.db (persistProviderTranscriptArtifact p u).2.db := by
  refine EmitsFrom.preserves (I := fun v => SameBase t.db v.db)
    (persistProviderTranscriptArtifact_writes (P := fun _ w => w.table = .runtimeArtifacts ∨ Append none w)
      (fun _ _ => .inl rfl) (fun _ _ _ h => .inr h) u) (fun a b hs ha => ?_) hu
  refine SameBase.step hs (fun db w hw => ?_) ha
  rcases hw with hw | hw
  · rw [hw]
    exact ⟨nofun, nofun, nofun, nofun⟩
  · cases hw <;> exact ⟨nofun, nofun, nofun, nofun⟩

theorem projectByMode_writesFrom (hp : prepare envelope s = (.ok p, t)) (hfr : verdict t.db p = .fresh)
    {u : BrokerEventMapper} (hu : SameBase t.db u.db) {participantFenced : Bool} :
    WritesFrom (ProjectWrite s envelope) u (projectByMode p (isStale t.db p) participantFenced) := by
  have hor := prepared_origin hp
  unfold projectByMode
  split
  · rename_i hr
    rw [hr] at hor
    have hs : s.retainedProjection = true := by
      by_contra hl
      rw [if_neg hl] at hor
      cases hor
    exact EmitsFrom.bind (projectRetainedState_writesFrom fun db w h => .retained hs hp hfr hu h)
      fun _ _ _ _ => EmitsFrom.pure _
  · rename_i hl
    have hs := live_of_origin hp hl
    exact projectState_writesFrom (fun db w h => .ended hs hp h) fun hstale db w h => .live hs hp hfr hstale hu h

theorem emitCanonical_writes (hp : prepare envelope s = (.ok p, t)) {stale : Bool} :
    Writes (ProjectWrite s envelope) (emitCanonical p stale) := by
  unfold emitCanonical
  split
  · exact Emits.pure _
  · refine Emits.bind (Emits.of_readOnly isRetryableInvocationFailure_readOnly) fun retryable => ?_
    split
    · exact Emits.pure _
    · exact emitLifecycleEvent_writes fun db w h => .canonical hp h

theorem emitContextReading_writes (hp : prepare envelope s = (.ok p, t)) :
    Writes (ProjectWrite s envelope) (emitContextReading p (isStale t.db p)) := by
  unfold emitContextReading
  split
  · exact Emits.pure _
  · rename_i h
    have hl : p.ctx.evidenceOrigin = none := by
      simp only [Bool.or_eq_true, not_or, Option.not_isSome_iff_eq_none] at h
      exact h.2
    have hstale : isStale t.db p = false := by
      simp only [Bool.or_eq_true, not_or, Bool.not_eq_true] at h
      exact h.1
    exact projectContextReading_writes (fun db w h => .reading (live_of_origin hp hl) hp hstale h)
      fun db w h => .event (live_of_origin hp hl) h

theorem live_of_start {start : Format2TurnStart} (hp : prepare envelope s = (.ok p, t))
    (h : p.format2TurnStart = some start) : s.retainedProjection = false := by
  obtain ⟨u, hr, _, _⟩ := prepare_eq_ok hp
  have hs := (resolved hr).start
  rw [h] at hs
  by_contra hret
  rw [Bool.not_eq_false] at hret
  obtain ⟨retained, _, hrd, hs⟩ := bind_eq_ok.mp hs
  cases hrd
  simp only [hret] at hs
  cases hs

theorem finalizeMinted_writes (hp : prepare envelope s = (.ok p, t)) {lifecycleEvent : Option HrcLifecycleEvent} :
    Writes (ProjectWrite s envelope) (finalizeMinted p (isStale t.db p) lifecycleEvent) := by
  unfold finalizeMinted
  split
  · exact Emits.pure _
  · rename_i start hs
    obtain ⟨hs, hm⟩ := Option.filter_eq_some_iff.mp hs
    simp only [Bool.and_eq_true, Bool.not_eq_true'] at hm
    exact finalizeFormat2TurnStart_writes fun db w h => .fact (live_of_start hp hs) hp hm.1 h

theorem emitWithdrawn_writes (hp : prepare envelope s = (.ok p, t)) :
    Writes (ProjectWrite s envelope) (emitWithdrawn p (isStale t.db p)) := by
  unfold emitWithdrawn
  split
  · rename_i h
    have hstale : isStale t.db p = false := by simpa using (Bool.and_eq_true_iff.mp h).1
    have ht : envelope.type = .submissionWithdrawn := by
      obtain ⟨correlation, he⟩ := prepared_persisted hp
      rw [he] at h
      simpa using (Bool.and_eq_true_iff.mp h).2
    intro u
    refine WritesFrom.query_bind ?_
    split
    · exact EmitsFrom.pure _
    · rename_i run submissionId hr
      refine Emits.bind (statement_writes fun db => .withdrawn hp hstale ht (.failed hr)) (fun _ => ?_) u
      refine Emits.bind (statement_writes fun db => .withdrawn hp hstale ht (.cleared _)) fun _ => ?_
      exact Emits.bind (append_writes fun db w h => .withdrawn hp hstale ht (.event h)) fun _ => Emits.pure _
  · exact Emits.pure _

theorem derived_writes (hp : prepare envelope s = (.ok p, t)) {u v : BrokerEventMapper}
    {stale participantFenced : Bool} {descriptors : List DerivedTurnDescriptor}
    (h : projectByMode p stale participantFenced u = (.ok descriptors, v)) :
    Writes (ProjectWrite s envelope)
      (Prog.mapEach descriptors (emitDerivedTurnEvent p.persistedEnvelope p.ctx p.now)) := by
  unfold projectByMode at h
  cases hor : p.ctx.evidenceOrigin with
  | none =>
    exact Emits.mapEach fun descriptor => append_writes fun db w h => .event (live_of_origin hp hor) h
  | some origin =>
    cases origin
    simp only [hor] at h
    obtain ⟨_, _, _, hpr⟩ := bind_eq_ok.mp h
    cases hpr
    exact Emits.pure _

theorem projectFresh_writesFrom (hp : prepare envelope s = (.ok p, t)) (hfr : verdict t.db p = .fresh) :
    WritesFrom (ProjectWrite s envelope) t (projectFresh p) := by
  refine EmitsFrom.bind (EmitsFrom.modify (.quiet ⟨rfl, rfl, rfl, rfl, rfl, rfl⟩)) fun _ t₁ ht₁ _ => ?_
  cases ht₁
  refine WritesFrom.query_bind ?_
  refine EmitsFrom.bind (persistProviderTranscriptArtifact_writes (fun _ _ => .artifact _) ?_ _)
    fun _ t₂ ht₂ _ => ?_
  · intro ht db w h
    obtain ⟨correlation, he⟩ := prepared_persisted hp
    rw [he] at ht
    exact .warned ht h
  · have hbs := persistProviderTranscriptArtifact_base (p := p) (t := t)
      (u := { t with pendingLateStartEvents := [], pendingInputEvents := [] }) ⟨rfl, rfl, rfl, rfl⟩
    rw [ht₂] at hbs
    refine EmitsFrom.bind (projectByMode_writesFrom hp hfr hbs) fun descriptors t₃ hd _ => ?_
    refine Emits.bind (emitCanonical_writes hp) (fun lifecycleEvent => ?_) t₃
    refine Emits.bind (emitContextReading_writes (t := t) hp) fun contextReadingEvent => ?_
    refine Emits.bind (finalizeMinted_writes (t := t) hp) fun _ => ?_
    refine Emits.bind (emitWithdrawn_writes (t := t) hp) fun withdrawnRecoveryEvent => ?_
    refine Emits.bind (derived_writes hp hd) fun derived => ?_
    refine Emits.bind (Emits.when (updateProjection_writes hp _ _)) fun _ => ?_
    refine Emits.bind (commitDisposition_writes hp _) fun _ => ?_
    exact Emits.bind (Emits.read _) fun _ => Emits.pure _

theorem project_writesFrom (envelope : InvocationEventEnvelope) (s : BrokerEventMapper) :
    WritesFrom (ProjectWrite s envelope) s (project envelope) := by
  have hpr : WritesFrom (ProjectWrite s envelope) s (prepare envelope) :=
    prepare_writesFrom (fun hl _ _ hi hrt _ _ h => .minted hl hi hrt h)
      (fun _ _ => .blob _) fun _ _ hr _ _ hrow hfr => .stored hr hrow hfr
  refine EmitsFrom.bind hpr fun p t hp _ => WritesFrom.query_bind ?_
  unfold projectVerdict
  split
  · exact EmitsFrom.throw _
  · exact EmitsFrom.pure _
  · exact Emits.bind (commitDisposition_writes hp _) (fun _ => Emits.pure _) t
  · refine Emits.bind (Emits.when (updateProjection_writes hp _ _)) (fun _ => ?_) t
    exact Emits.bind (commitDisposition_writes hp _) fun _ => Emits.pure _
  · exact projectFresh_writesFrom hp ‹_›

end Fresh

end HrcRuntime.ProjectionWrites
