import HrcRuntime.EventMapper
import HrcRuntime.ProjectionWrites

namespace HrcRuntime.Calls

open Records Database Program Mapper EventRepository ProjectEnvelope
open ProjectionWrites EventMapper

variable [Host]

inductive Call where
  | project (retained : Bool) (envelope : InvocationEventEnvelope)
  | flush (retained : Bool) (invocationId : String)

def Call.run : Call → M (Option BrokerProjectionResult)
  | .project false envelope => apply envelope >>= fun result => pure (some result)
  | .project true envelope => applyRetained envelope >>= fun result => pure (some result)
  | .flush retained invocationId => flushIgnoredDeltas invocationId retained >>= fun _ => pure none

def Call.step (c : Call) (s : BrokerEventMapper) : BrokerEventMapper := (c.run s).2

def runCalls : List Call → BrokerEventMapper → BrokerEventMapper
  | [], s => s
  | c :: cs, s => runCalls cs (c.run s).2

structure Fresh (s : BrokerEventMapper) : Prop where
  retainedProjection : s.retainedProjection = false
  ignoredDeltaCursors : ∀ invocationId, s.ignoredDeltaCursors invocationId = none
  retainedIgnoredDeltaCursors : ∀ invocationId, s.retainedIgnoredDeltaCursors invocationId = none

def sampleMapper : BrokerEventMapper where
  db :=
    { brokerInvocations := ⟨[{ invocationId := "inv", operationId := "op", runtimeId := "rt" }], by decide⟩
      runtimes := ⟨[{ runtimeId := "rt", hostSessionId := "host" }], by decide⟩
      runtimeOperations := ⟨[{ operationId := "op", runtimeId := "rt" }], by decide⟩ }

def sampleEvent (seq : Nat) (type : EventType) : InvocationEventEnvelope :=
  { invocationId := "inv", seq, type, payload := .obj .nil }

omit [Host] in
theorem sampleMapper_fresh : Fresh sampleMapper := ⟨rfl, fun _ => rfl, fun _ => rfl⟩

inductive Folded (retained : Bool) (invocationId : String) (db : Db) (pending : Option PendingDelta) : Db → Prop where
  | kept {row : HrcBrokerInvocationRecord} (hrow : getByInvocationId db invocationId = some row)
      (h : ∀ delta, pending = some delta → delta.throughSeq ≤ cursorOf retained row) :
      Folded retained invocationId db pending db
  | folded {row : HrcBrokerInvocationRecord} {delta : PendingDelta} {db' : Db} (updatedAt : String)
      (hrow : getByInvocationId db invocationId = some row) (hdelta : pending = some delta)
      (habove : cursorOf retained row < delta.throughSeq)
      (h : (foldWrite retained invocationId delta.throughSeq updatedAt).run db = .ok db') :
      Folded retained invocationId db pending db'

structure Committed (retained : Bool) (envelope : InvocationEventEnvelope) (s : BrokerEventMapper)
    (result : BrokerProjectionResult) (t : BrokerEventMapper) : Prop where
  projected : ∃ u v, Quiet { s with db := u.db, retainedProjection := retained } u ∧
    Folded retained envelope.invocationId s.db (cursors retained s envelope.invocationId) u.db ∧
    project envelope u = (.ok result, v) ∧
    if retained && !result.idempotent then
      ∃ seq, (Write.setRetainedSeq envelope.invocationId seq none).run v.db = .ok t.db
    else t.db = v.db
  retainedProjection : t.retainedProjection = false
  ignoredDeltaCursors : t.ignoredDeltaCursors = (setCursor retained envelope.invocationId none s).ignoredDeltaCursors
  retainedIgnoredDeltaCursors : t.retainedIgnoredDeltaCursors =
    (setCursor retained envelope.invocationId none s).retainedIgnoredDeltaCursors

def DeltaBase (retained : Bool) (invocationId : String) (s : BrokerEventMapper) (cursor : Nat) : Prop :=
  match cursors retained s invocationId with
  | some pending => cursor = pending.throughSeq
  | none => ∃ row, getByInvocationId s.db invocationId = some row ∧ cursor = cursorOf retained row

inductive Outcome (s : BrokerEventMapper) : Call → Except HrcError (Option BrokerProjectionResult) →
    BrokerEventMapper → Prop where
  | thrown {c : Call} {e : HrcError} {t : BrokerEventMapper} (h : Quiet s t) : Outcome s c (.error e) t
  | repeated {retained : Bool} {envelope : InvocationEventEnvelope} {result : BrokerProjectionResult} {cursor : Nat}
      (hdelta : isIgnoredBrokerDelta envelope = true) (hbase : DeltaBase retained envelope.invocationId s cursor)
      (hseq : envelope.seq ≤ cursor) : Outcome s (.project retained envelope) (.ok (some result)) s
  | extended {retained : Bool} {envelope : InvocationEventEnvelope} {result : BrokerProjectionResult} {cursor : Nat}
      {pending : PendingDelta} (hdelta : isIgnoredBrokerDelta envelope = true)
      (hbase : DeltaBase retained envelope.invocationId s cursor) (hseq : envelope.seq = cursor + 1)
      (hpending : pending.throughSeq = envelope.seq) :
      Outcome s (.project retained envelope) (.ok (some result))
        (setCursor retained envelope.invocationId (some pending) s)
  | idle {retained : Bool} {invocationId : String} (h : cursors retained s invocationId = none) :
      Outcome s (.flush retained invocationId) (.ok none) s
  | flushed {retained : Bool} {invocationId : String} {u : BrokerEventMapper}
      (hu : Quiet { s with db := u.db } u) (hpending : (cursors retained s invocationId).isSome = true)
      (h : Folded retained invocationId s.db (cursors retained s invocationId) u.db) :
      Outcome s (.flush retained invocationId) (.ok none) (setCursor retained invocationId none u)
  | projected {retained : Bool} {envelope : InvocationEventEnvelope} {result : BrokerProjectionResult}
      {t : BrokerEventMapper} (hdelta : isIgnoredBrokerDelta envelope = false)
      (h : Committed retained envelope s result t) : Outcome s (.project retained envelope) (.ok (some result)) t
  | unlogged {envelope : InvocationEventEnvelope} {result : BrokerProjectionResult} {e : HrcError}
      {t : BrokerEventMapper} (hdelta : isIgnoredBrokerDelta envelope = false)
      (hfresh : result.idempotent = false) (htype : envelope.type = .captureWarning)
      (h : Committed false envelope s result t) : Outcome s (.project false envelope) (.error e) t

section Transaction

variable {α : Type} {m : M α} {s t : BrokerEventMapper} {a : α} {e : HrcError}

theorem transaction_eq_ok (h : transaction m s = (.ok a, t)) :
    ∃ u, m { s with tick := s.tick + 1 } = (.ok a, u) ∧ t = { u with tick := u.tick + 1 } := by
  have hbd : (effect >>= fun _ => m >>= fun a => effect >>= fun _ => pure a) s = (.ok a, t) := by
    unfold transaction Prog.transaction at h
    split at h
    · rename_i hbd
      rw [← h]
      exact hbd
    · cases h
  obtain ⟨a, u, hm, hbd⟩ := bind_eq_ok.mp (effect_bind_eq_ok hbd)
  have hp := effect_bind_eq_ok hbd
  cases hp
  exact ⟨u, hm, rfl⟩

theorem transaction_eq_error (h : transaction m s = (.error e, t)) : t.db = s.db := by
  unfold transaction Prog.transaction at h
  split at h
  · cases h
  · cases h
    rfl

end Transaction

section Flush

variable {retained : Bool} {invocationId : String} {s t : BrokerEventMapper} {n : Nat}

theorem flush_writes (invocationId : String) (retained : Bool) :
    Writes (fun _ w => w.table = .brokerInvocations) (flushIgnoredDeltasInTransaction invocationId retained) := by
  refine Emits.bind (Emits.read _) fun pending => ?_
  refine Emits.bind (Emits.of_readOnly (query_readOnly _)) fun invocation => ?_
  refine Emits.bind (Emits.of_readOnly (requireRecord_readOnly _ _)) fun invocation => ?_
  dsimp only
  split
  · exact Emits.pure _
  · refine Emits.bind now_writes fun _ => Emits.bind (statement_writes fun _ => ?_) fun _ => Emits.pure _
    unfold foldWrite
    split <;> rfl

theorem flush_eq_ok (h : flushIgnoredDeltasInTransaction invocationId retained s = (.ok n, t)) :
    Quiet { s with db := t.db } t ∧ Folded retained invocationId s.db (cursors retained s invocationId) t.db := by
  rw [flushIgnoredDeltasInTransaction, read_bind, query_bind] at h
  obtain ⟨row, hr, h⟩ := requireRecord_bind_eq_ok.mp h
  cases hf : (cursors retained s invocationId).filter fun pending =>
      decide (cursorOf retained row < pending.throughSeq) with
  | none =>
    rw [hf] at h
    cases h
    refine ⟨⟨rfl, rfl, rfl, rfl, rfl, rfl⟩, .kept hr fun delta hdelta => ?_⟩
    rw [hdelta] at hf
    simpa using hf
  | some delta =>
    rw [hf] at h
    obtain ⟨hdelta, habv⟩ := Option.filter_eq_some_iff.mp hf
    have h := now_bind_eq_ok h
    obtain ⟨_, _, hs, hp⟩ := bind_eq_ok.mp h
    obtain ⟨db, hrun, rfl⟩ := statement_eq_ok hs
    cases hp
    exact ⟨⟨rfl, rfl, rfl, rfl, rfl, rfl⟩, .folded _ hr hdelta (of_decide_eq_true habv) hrun⟩

end Flush

section Outcomes

variable {s : BrokerEventMapper}

theorem project_writes (envelope : InvocationEventEnvelope) : Writes (fun _ _ => True) (project envelope) :=
  fun _ => EmitsFrom.mono (project_writesFrom _ _) fun _ _ => Step.mono fun _ _ _ => trivial

variable {envelope : InvocationEventEnvelope} {t : BrokerEventMapper} {result : BrokerProjectionResult}
  {retained : Bool} {invocationId : String}

omit [Host] in
theorem deltaBase_readOnly : ReadOnly (deltaBase invocationId retained) := by
  refine ReadOnly.bind (ReadOnly.read _) fun pending => ?_
  split
  · exact ReadOnly.pure _
  · refine ReadOnly.bind (query_readOnly _) fun _ => ReadOnly.bind (requireRecord_readOnly _ _) fun _ => ?_
    refine ReadOnly.bind (query_readOnly _) fun _ => ReadOnly.bind (requireRecord_readOnly _ _) fun _ => ?_
    exact ReadOnly.pure _

omit [Host] in
theorem deltaBase_eq_ok {runtimeId : String} {cursor : Nat}
    (h : deltaBase invocationId retained s = (.ok (runtimeId, cursor), t)) : DeltaBase retained invocationId s cursor := by
  rw [deltaBase, read_bind] at h
  unfold DeltaBase
  cases hp : cursors retained s invocationId with
  | some pending =>
    rw [hp] at h
    cases h
    rfl
  | none =>
    rw [hp] at h
    simp only [query_bind] at h
    obtain ⟨row, hr, h⟩ := requireRecord_bind_eq_ok.mp h
    rw [query_bind] at h
    obtain ⟨_, _, h⟩ := requireRecord_bind_eq_ok.mp h
    cases h
    exact ⟨row, hr, rfl⟩

theorem ignoreRawDelta_outcome (hdelta : isIgnoredBrokerDelta envelope = true) :
    Outcome s (.project retained envelope) ((ignoreRawDelta envelope retained >>= fun r => pure (some r)) s).1
      ((ignoreRawDelta envelope retained >>= fun r => pure (some r)) s).2 := by
  unfold ignoreRawDelta
  rcases hbs : deltaBase envelope.invocationId retained s with ⟨e | ⟨runtimeId, cursor⟩, t⟩
  · obtain rfl := deltaBase_readOnly.state hbs
    rw [bind_error (bind_error hbs)]
    exact .thrown ⟨rfl, rfl, rfl, rfl, rfl, rfl⟩
  · obtain rfl := deltaBase_readOnly.state hbs
    have hc := deltaBase_eq_ok hbs
    by_cases hg : cursor + 1 < envelope.seq
    · have hr : extendRange envelope retained runtimeId cursor t
          = (.error (.error (rawDeltaGap envelope cursor)), t) := by
        unfold extendRange
        rw [if_pos hg]
        rfl
      rw [bind_error ((bind_ok hbs).trans (bind_error hr))]
      exact .thrown ⟨rfl, rfl, rfl, rfl, rfl, rfl⟩
    · by_cases hs : envelope.seq = cursor + 1
      · have hr : extendRange envelope retained runtimeId cursor t = (.ok (), setCursor retained
            envelope.invocationId (some { throughSeq := envelope.seq, runtimeId }) t) := by
          unfold extendRange Prog.when
          rw [if_neg hg, if_pos (beq_iff_eq.mpr hs)]
          rfl
        rw [bind_ok ((bind_ok hbs).trans (bind_ok hr))]
        exact .extended hdelta hc hs rfl
      · have hr : extendRange envelope retained runtimeId cursor t = (.ok (), t) := by
          unfold extendRange Prog.when
          rw [if_neg hg, if_neg (mt beq_iff_eq.mp hs)]
          rfl
        rw [bind_ok ((bind_ok hbs).trans (bind_ok hr))]
        exact .repeated hdelta hc (by omega)

theorem flush_outcome :
    Outcome s (.flush retained invocationId) ((Call.flush retained invocationId).run s).1
      ((Call.flush retained invocationId).run s).2 := by
  have hr : (Call.flush retained invocationId).run s = (flushIgnoredDeltas invocationId retained >>= fun _ =>
      (pure none : M (Option BrokerProjectionResult))) s := rfl
  rw [hr]
  cases hp : cursors retained s invocationId with
  | none =>
    have hfl : flushIgnoredDeltas invocationId retained s
        = (.ok (((getByInvocationId s.db invocationId).map (cursorOf retained)).getD 0), s) := by
      rw [flushIgnoredDeltas, read_bind, hp]
      rfl
    rw [bind_ok hfl]
    exact .idle hp
  | some pending =>
    have hfl : flushIgnoredDeltas invocationId retained s
        = (transaction (flushIgnoredDeltasInTransaction invocationId retained) >>= fun throughSeq =>
            Prog.modify (setCursor retained invocationId none) >>= fun _ => pure throughSeq) s := by
      rw [flushIgnoredDeltas, read_bind, hp]
    have hqt := steps_quiet (WritesFrom.transaction (s := s)
      (flush_writes invocationId retained))
    rcases htx : transaction (flushIgnoredDeltasInTransaction invocationId retained) s with ⟨e | n, u⟩
    · rw [htx] at hqt
      rw [bind_error (hfl.trans (bind_error htx))]
      rw [← transaction_eq_error htx] at hqt
      exact .thrown hqt
    · rw [bind_ok (hfl.trans (bind_ok htx))]
      obtain ⟨v, hv, rfl⟩ := transaction_eq_ok htx
      obtain ⟨hq, hf⟩ := flush_eq_ok hv
      refine .flushed ⟨rfl, hq.2, hq.3, hq.4, hq.5, hq.6⟩ (by rw [hp]; rfl) hf

structure Logged (s t : BrokerEventMapper) : Prop where
  db : t.db = s.db
  nextBufferChunkSeqByRunId : t.nextBufferChunkSeqByRunId = s.nextBufferChunkSeqByRunId
  retainedProjection : t.retainedProjection = s.retainedProjection
  ignoredDeltaCursors : t.ignoredDeltaCursors = s.ignoredDeltaCursors
  retainedIgnoredDeltaCursors : t.retainedIgnoredDeltaCursors = s.retainedIgnoredDeltaCursors

theorem effect_logged : Emits Logged effect := by
  intro s
  unfold EmitsFrom effect
  split <;> exact .single ⟨rfl, rfl, rfl, rfl, rfl⟩

theorem log_emits :
    Emits Logged (logBlockedUnknownCaptureWarning envelope) := by
  have hm {f : BrokerEventMapper → BrokerEventMapper} (hf : ∀ s, Logged s (f s)) :
      Emits Logged (Prog.modify f : M Unit) := Emits.modify hf
  unfold logBlockedUnknownCaptureWarning
  split
  · refine Emits.bind (Emits.of_readOnly (property_readOnly _ _)) fun kind => ?_
    refine Emits.bind (Emits.of_readOnly (query_readOnly _)) fun invocation => ?_
    refine Emits.bind (Emits.of_readOnly (query_readOnly _)) fun runtime => ?_
    split
    · refine Emits.bind (Emits.bind effect_logged fun _ => Emits.read _) fun loggedAt => ?_
      refine Emits.bind (Emits.read _) fun previous => ?_
      refine Emits.bind (hm fun _ => ⟨rfl, rfl, rfl, rfl, rfl⟩) fun _ => Emits.when ?_
      exact Emits.bind effect_logged fun _ => hm fun _ => ⟨rfl, rfl, rfl, rfl, rfl⟩
    · exact Emits.pure _
  · exact Emits.pure _

theorem logged (envelope : InvocationEventEnvelope) :
    Logged s (logBlockedUnknownCaptureWarning envelope s).2 := by
  refine EmitsFrom.preserves (I := fun t => Logged s t) (log_emits s) (fun a b h ha => ?_) ⟨rfl, rfl, rfl, rfl, rfl⟩
  exact ⟨h.db.trans ha.db, h.nextBufferChunkSeqByRunId.trans ha.nextBufferChunkSeqByRunId,
    h.retainedProjection.trans ha.retainedProjection, h.ignoredDeltaCursors.trans ha.ignoredDeltaCursors,
    h.retainedIgnoredDeltaCursors.trans ha.retainedIgnoredDeltaCursors⟩

variable {snapshot : String → Option Nat} {u : BrokerEventMapper} {e : HrcError}

omit [Host] in
theorem rethrowRestoring_ok {α : Type} {m : M α} {a : α}
    (h : m s = (.ok a, t)) : rethrowRestoring snapshot m s = (.ok a, t) := by
  unfold rethrowRestoring Prog.catchWith
  rw [h]

omit [Host] in
theorem rethrowRestoring_error {α : Type} {m : M α}
    (h : m s = (.error e, t)) :
    rethrowRestoring snapshot m s = (.error e, { t with nextBufferChunkSeqByRunId := snapshot }) := by
  unfold rethrowRestoring Prog.catchWith
  rw [h]
  rfl

theorem projectLive_committed (hs : s.retainedProjection = false)
    (h : transaction (projectLive envelope) s = (.ok result, t)) :
    Committed false envelope s result (setCursor false envelope.invocationId none t) := by
  obtain ⟨v, hv, rfl⟩ := transaction_eq_ok h
  obtain ⟨_, u, hfl, hp⟩ := bind_eq_ok.mp hv
  obtain ⟨hq, hf⟩ := flush_eq_ok hfl
  have hqt := steps_quiet (project_writes envelope u)
  rw [hp] at hqt
  refine ⟨⟨u, v, ⟨rfl, hq.2.trans hs, hq.3, hq.4, hq.5, hq.6⟩, hf, hp, ?_⟩, ?_, ?_, ?_⟩
  · rfl
  · exact (hqt.retainedProjection.trans hq.retainedProjection).trans hs
  · have hc : v.ignoredDeltaCursors = s.ignoredDeltaCursors :=
      hqt.ignoredDeltaCursors.trans hq.ignoredDeltaCursors
    simp only [setCursor, hc, Bool.false_eq_true, if_false]
  · exact hqt.retainedIgnoredDeltaCursors.trans hq.retainedIgnoredDeltaCursors

theorem Committed.logged (h : Committed retained envelope s result t) (hdb : u.db = t.db)
    (hr : u.retainedProjection = t.retainedProjection)
    (hc : u.ignoredDeltaCursors = t.ignoredDeltaCursors)
    (hreC : u.retainedIgnoredDeltaCursors = t.retainedIgnoredDeltaCursors) :
    Committed retained envelope s result u := by
  obtain ⟨hp, h₁, h₂, h₃⟩ := h
  rw [← hdb] at hp
  exact ⟨hp, hr.trans h₁, hc.trans h₂, hreC.trans h₃⟩

theorem apply_semantic (hdelta : isIgnoredBrokerDelta envelope = false) :
    apply envelope s = rethrowRestoring s.nextBufferChunkSeqByRunId
      (transaction (projectLive envelope) >>= finishLive envelope) s := by
  unfold apply
  rw [hdelta]
  rfl

theorem applyRetained_semantic (hdelta : isIgnoredBrokerDelta envelope = false) :
    applyRetained envelope s = rethrowRestoring s.nextBufferChunkSeqByRunId
      (transaction (projectRetained envelope) >>= finishRetained envelope) s := by
  unfold applyRetained
  rw [hdelta]
  rfl

theorem projectLive_quiet {r : Except HrcError BrokerProjectionResult}
    (h : transaction (projectLive envelope) s = (r, t)) :
    Quiet s { t with db := s.db } := by
  have hbd : Writes (fun _ _ => True) (projectLive envelope) :=
    Emits.bind (Writes.mono (flush_writes _ _) fun _ _ _ => trivial) fun _ => project_writes _
  have hqt := steps_quiet (WritesFrom.transaction (s := s) hbd)
  rwa [h] at hqt

theorem log_eq_error
    (h : logBlockedUnknownCaptureWarning envelope s = (.error e, t)) : envelope.type = .captureWarning := by
  unfold logBlockedUnknownCaptureWarning at h
  cases ht : envelope.type
  case captureWarning => rfl
  all_goals
    rw [ht] at h
    cases h

theorem finishLive_committed (h : Committed false envelope s result (setCursor false envelope.invocationId none t)) :
    Committed false envelope s result (finishLive envelope result t).2 ∧
      ((finishLive envelope result t).1 = .ok result ∨
        (result.idempotent = false ∧ envelope.type = .captureWarning ∧ ∃ e, (finishLive envelope result t).1 = .error e)) := by
  cases hi : result.idempotent with
  | true =>
    have hf : finishLive envelope result t = (.ok result, setCursor false envelope.invocationId none t) := by
      unfold finishLive
      rw [hi]
      rfl
    rw [hf]
    exact ⟨h, .inl rfl⟩
  | false =>
    have hlg := logged (s := setCursor false envelope.invocationId none t) envelope
    have hf : finishLive envelope result t = (logBlockedUnknownCaptureWarning envelope >>= fun _ => pure result)
        (setCursor false envelope.invocationId none t) := by
      unfold finishLive
      rw [hi]
      rfl
    rcases hl : logBlockedUnknownCaptureWarning envelope (setCursor false envelope.invocationId none t)
      with ⟨e | a, u⟩
    · rw [hl] at hlg
      rw [hf, bind_error hl]
      exact ⟨h.logged hlg.db hlg.retainedProjection hlg.ignoredDeltaCursors
        hlg.retainedIgnoredDeltaCursors, .inr ⟨rfl, log_eq_error hl, e, rfl⟩⟩
    · rw [hl] at hlg
      rw [hf, bind_ok hl]
      exact ⟨h.logged hlg.db hlg.retainedProjection hlg.ignoredDeltaCursors
        hlg.retainedIgnoredDeltaCursors, .inl rfl⟩

theorem apply_outcome (hs : s.retainedProjection = false) :
    Outcome s (.project false envelope) ((Call.project false envelope).run s).1
      ((Call.project false envelope).run s).2 := by
  have hrun : (Call.project false envelope).run s
      = (apply envelope >>= fun result => (pure (some result) : M (Option BrokerProjectionResult))) s := rfl
  rw [hrun]
  cases hdelta : isIgnoredBrokerDelta envelope with
  | true =>
    unfold apply
    rw [if_pos hdelta]
    exact ignoreRawDelta_outcome hdelta
  | false =>
    have happ := apply_semantic (s := s) hdelta
    rcases htx : transaction (projectLive envelope) s with ⟨e | result, t⟩
    · have hqt := projectLive_quiet htx
      rw [← transaction_eq_error htx] at hqt
      rw [bind_error (happ.trans (rethrowRestoring_error (bind_error htx)))]
      exact .thrown ⟨hqt.1, hqt.2, hqt.3, hqt.4, hqt.5, hqt.6⟩
    · obtain ⟨hc, hr⟩ := finishLive_committed (projectLive_committed hs htx)
      rcases hf : finishLive envelope result t with ⟨r, u⟩
      rw [hf] at hc hr
      have hbd := (bind_ok htx (f := finishLive envelope)).trans hf
      rcases hr with rfl | ⟨hfr, ht, e, rfl⟩
      · rw [bind_ok (happ.trans (rethrowRestoring_ok hbd))]
        exact .projected hdelta hc
      · rw [bind_error (happ.trans (rethrowRestoring_error hbd))]
        exact .unlogged hdelta hfr ht (hc.logged rfl rfl rfl rfl)

theorem projectRetained_eq {n : Nat}
    (hfl : flushIgnoredDeltasInTransaction envelope.invocationId true s = (.ok n, u)) :
    projectRetained envelope s = ((projectWithHighWater envelope { u with retainedProjection := true }).1,
      { (projectWithHighWater envelope { u with retainedProjection := true }).2 with retainedProjection := false }) := by
  unfold projectRetained
  rw [bind_ok hfl]
  rfl

theorem projectWithHighWater_writes (envelope : InvocationEventEnvelope) :
    Writes (fun _ _ => True) (projectWithHighWater envelope) := by
  refine Emits.bind (project_writes _) fun result => Emits.bind (Emits.when ?_) fun _ => Emits.pure _
  exact Emits.bind (Emits.of_readOnly (query_readOnly _)) fun _ => statement_writes fun _ => trivial

theorem projectRetained_quiet (envelope : InvocationEventEnvelope) (hs : s.retainedProjection = false) :
    Quiet s { (projectRetained envelope s).2 with db := s.db } := by
  have hqt := steps_quiet (flush_writes envelope.invocationId true s)
  rcases hfl : flushIgnoredDeltasInTransaction envelope.invocationId true s with ⟨e | n, u⟩
  · rw [hfl] at hqt
    unfold projectRetained
    rwa [bind_error hfl]
  · rw [hfl] at hqt
    rw [projectRetained_eq hfl]
    have hq' := steps_quiet (projectWithHighWater_writes envelope { u with retainedProjection := true })
    exact ⟨rfl, hs.symm, hq'.3.trans hqt.3, hq'.4.trans hqt.4, hq'.5.trans hqt.5,
      hq'.6.trans hqt.6⟩

theorem projectRetained_error
    (hs : s.retainedProjection = false) (h : transaction (projectRetained envelope) s = (.error e, t)) : Quiet s t := by
  have hdb := transaction_eq_error h
  unfold transaction Prog.transaction at h
  split at h
  · cases h
  · rename_i hbd
    cases h
    rw [bind_apply] at hbd
    rcases he : effect s with ⟨e' | _, u⟩
    · rw [he] at hbd
      cases hbd
      have hqt := steps_quiet (effect_writes (P := fun _ _ => True) s)
      rwa [he] at hqt
    · obtain rfl := effect_eq_ok he
      rw [he] at hbd
      have hqt := projectRetained_quiet (s := { s with tick := s.tick + 1 }) envelope hs
      dsimp only at hbd
      rw [bind_apply] at hbd
      rcases hp : projectRetained envelope { s with tick := s.tick + 1 } with ⟨e' | result, v⟩
      · rw [hp] at hbd hqt
        cases hbd
        exact ⟨rfl, hqt.2, hqt.3, hqt.4, hqt.5, hqt.6⟩
      · rw [hp] at hbd hqt
        have hl := steps_quiet (Emits.bind (effect_writes (P := fun _ _ => True))
          (fun _ => Emits.pure (α := BrokerProjectionResult) result) v)
        dsimp only at hbd
        rw [hbd] at hl
        exact ⟨rfl, hl.2.trans hqt.2, hl.3.trans hqt.3, hl.4.trans hqt.4,
          hl.5.trans hqt.5, hl.6.trans hqt.6⟩

theorem projectRetained_committed (hs : s.retainedProjection = false)
    (h : transaction (projectRetained envelope) s = (.ok result, t)) :
    Committed true envelope s result (setCursor true envelope.invocationId none t) := by
  obtain ⟨v, hv, rfl⟩ := transaction_eq_ok h
  have hqt := projectRetained_quiet (s := { s with tick := s.tick + 1 }) envelope hs
  rw [hv] at hqt
  rcases hfl : flushIgnoredDeltasInTransaction envelope.invocationId true { s with tick := s.tick + 1 }
    with ⟨e | n, u⟩
  · unfold projectRetained at hv
    rw [bind_error hfl] at hv
    cases hv
  · obtain ⟨hq, hf⟩ := flush_eq_ok hfl
    rw [projectRetained_eq hfl] at hv
    rcases hbd : projectWithHighWater envelope { u with retainedProjection := true } with ⟨r, w⟩
    rw [hbd] at hv
    cases hv
    obtain ⟨result', w₁, hp, hh⟩ := bind_eq_ok.mp hbd
    obtain ⟨_, w₂, hw, hpr⟩ := bind_eq_ok.mp hh
    cases hpr
    refine ⟨⟨{ u with retainedProjection := true }, w₁, ⟨rfl, rfl, hq.3, hq.4, hq.5, hq.6⟩, hf, hp, ?_⟩,
      rfl, hqt.3, ?_⟩
    · cases hi : result.idempotent with
      | true =>
        rw [hi] at hw
        cases hw
        rfl
      | false =>
        rw [hi] at hw
        obtain ⟨db, hr, rfl⟩ := statement_eq_ok (show statement (.setRetainedSeq envelope.invocationId _ none) w₁
          = (.ok _, w) from hw)
        exact ⟨_, hr⟩
    · have hc : w.retainedIgnoredDeltaCursors = s.retainedIgnoredDeltaCursors := hqt.4
      simp only [setCursor, hc, if_true]

theorem applyRetained_outcome (hs : s.retainedProjection = false) :
    Outcome s (.project true envelope) ((Call.project true envelope).run s).1
      ((Call.project true envelope).run s).2 := by
  have hr : (Call.project true envelope).run s
      = (applyRetained envelope >>= fun result => (pure (some result) : M (Option BrokerProjectionResult))) s := rfl
  rw [hr]
  cases hdelta : isIgnoredBrokerDelta envelope with
  | true =>
    unfold applyRetained
    rw [if_pos hdelta]
    exact ignoreRawDelta_outcome hdelta
  | false =>
    have happ := applyRetained_semantic (s := s) hdelta
    rcases htx : transaction (projectRetained envelope) s with ⟨e | result, t⟩
    · have hqt := projectRetained_error hs htx
      rw [bind_error (happ.trans (rethrowRestoring_error (bind_error htx)))]
      exact .thrown ⟨hqt.1, hqt.2, hqt.3, hqt.4, hqt.5, hqt.6⟩
    · have hbd : (transaction (projectRetained envelope) >>= finishRetained envelope) s
          = (.ok result, setCursor true envelope.invocationId none t) := bind_ok htx
      rw [bind_ok (happ.trans (rethrowRestoring_ok hbd))]
      exact .projected hdelta (projectRetained_committed hs htx)

theorem call_outcome (hs : s.retainedProjection = false) (c : Call) : Outcome s c (c.run s).1 (c.run s).2 := by
  match c with
  | .project false envelope => exact apply_outcome hs
  | .project true envelope => exact applyRetained_outcome hs
  | .flush retained invocationId => exact flush_outcome

theorem outcome_retainedProjection {c : Call} {r : Except HrcError (Option BrokerProjectionResult)}
    (hs : s.retainedProjection = false) (h : Outcome s c r t) : t.retainedProjection = false := by
  cases h with
  | thrown h => exact h.retainedProjection.trans hs
  | repeated => exact hs
  | extended =>
    unfold setCursor
    split <;> exact hs
  | idle => exact hs
  | flushed hu =>
    unfold setCursor
    split <;> exact hu.retainedProjection.trans hs
  | projected _ h => exact h.retainedProjection
  | unlogged _ _ _ h => exact h.retainedProjection

/-- What the statements of a projection and of the cursors keep, every call keeps. -/
theorem call_keeps {I : Db → Prop}
    (hp : ∀ s envelope db w db', ProjectWrite s envelope db w → w.run db = .ok db' → I db → I db')
    (hc : ∀ (w : Write) db db', w.table = .brokerInvocations → w.run db = .ok db' → I db → I db') (c : Call) :
    Keeps I c.run := by
  have hrow (envelope : InvocationEventEnvelope) : Keeps I (project envelope) := fun s =>
    .of_writes (project_writesFrom envelope s) (hp s envelope)
  have hfl (invocationId : String) (retained : Bool) : Keeps I (flushIgnoredDeltasInTransaction invocationId retained) :=
    fun s => .of_writes (flush_writes invocationId retained s) fun db w db' => hc w db db'
  have hdelta (envelope : InvocationEventEnvelope) (retained : Bool) : Keeps I (ignoreRawDelta envelope retained) := by
    refine .bind (.of_readOnly deltaBase_readOnly) fun base => .bind ?_ fun _ => .pure _
    unfold extendRange
    split
    · exact .of_readOnly (fail_readOnly _)
    · refine .when fun _ => .modify fun s => ?_
      unfold setCursor
      split <;> rfl
  have hset (invocationId : String) (retained : Bool) : Keeps I (Prog.modify (setCursor retained invocationId none)) := by
    refine .modify fun s => ?_
    unfold setCursor
    split <;> rfl
  have hr {m : M BrokerProjectionResult} {snapshot : String → Option Nat} (hm : Keeps I m) :
      Keeps I (rethrowRestoring snapshot m) :=
    .catchWith hm fun e => .bind (.modify fun _ => rfl) fun _ => .of_readOnly (ReadOnly.throw e)
  match c with
  | .project false envelope =>
    refine .bind ?_ fun _ => .pure _
    unfold EventMapper.apply
    split
    · exact hdelta envelope false
    · refine .bind (.of_readOnly (ReadOnly.read _)) fun _ => hr (.bind (.transaction ?_) fun result => ?_)
      · exact .bind (hfl _ _) fun _ => hrow envelope
      · have hl : Keeps I (logBlockedUnknownCaptureWarning envelope) := fun s hs => by
          rwa [(logged envelope).db]
        exact .bind (hset _ _) fun _ => .bind (.when fun _ => hl) fun _ => .pure _
  | .project true envelope =>
    refine .bind ?_ fun _ => .pure _
    unfold applyRetained
    split
    · exact hdelta envelope true
    · refine .bind (.of_readOnly (ReadOnly.read _)) fun _ => hr (.bind (.transaction ?_) fun result => ?_)
      · refine .bind (hfl _ _) fun _ => .bind (.modify fun _ => rfl) fun _ => .ensuring ?_ fun _ => rfl
        refine .bind (hrow envelope) fun result => .bind (.when fun _ => ?_) fun _ => .pure _
        refine .bind (.of_readOnly (query_readOnly _)) fun _ s => ?_
        exact .of_writes (statement_writesFrom (P := fun _ w => w.table = .brokerInvocations) rfl)
          fun db w db' => hc w db db'
      · exact .bind (hset _ _) fun _ => .pure _
  | .flush retained invocationId =>
    refine .bind (.bind (.of_readOnly (ReadOnly.read _)) fun pending => ?_) fun _ => .pure _
    split
    · exact .of_readOnly (query_readOnly _)
    · exact .bind (.transaction (hfl _ _)) fun _ => .bind (hset _ _) fun _ => .pure _

theorem runCalls_preserves {I : BrokerEventMapper → Prop}
    (hI : ∀ s c r t, s.retainedProjection = false → Outcome s c r t → I s → I t) {calls : List Call}
    {s : BrokerEventMapper} (hs : s.retainedProjection = false) (h : I s) : I (runCalls calls s) := by
  induction calls generalizing s with
  | nil => exact h
  | cons c calls ih =>
    have hout := call_outcome hs c
    exact ih (outcome_retainedProjection hs hout) (hI _ _ _ _ hs hout h)

end Outcomes

end HrcRuntime.Calls
