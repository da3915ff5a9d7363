import HrcRuntime.Backfill
import HrcRuntime.CursorCompleteness
import Mathlib.Data.List.Induction

namespace HrcRuntime.CallEffects

open Records Relational Database Program Mapper EventRepository
open RuntimeState LifecyclePayload ProjectEnvelope ProjectionWrites EventMapper Calls
open CursorSoundness CursorCompleteness Backfill

section Rows

variable {ρ κ γ : Type} [DecidableEq κ] {indexes : List (ρ → Option κ)} {t t' : Table ρ indexes} {g : ρ → γ}

/-- Every row of `a` is in `b` as far as `g` reads it. -/
def Survive (g : ρ → γ) (a b : List ρ) : Prop := ∀ r ∈ a, ∃ r' ∈ b, g r' = g r

theorem Survive.trans {a b c : List ρ} (h : Survive g a b) (h' : Survive g b c) : Survive g a c := by
  intro r hr
  obtain ⟨r', hr', hg⟩ := h r hr
  obtain ⟨r'', hr'', hg'⟩ := h' r' hr'
  exact ⟨r'', hr'', hg'.trans hg⟩

omit [DecidableEq κ] in
theorem survive_same (h : some t = some t') : Survive g t.rows t'.rows := by
  cases h
  exact fun r hr => ⟨r, hr, rfl⟩

theorem survive_insert {row : ρ} (h : t.insert row = some t') : Survive g t.rows t'.rows := by
  rw [insert_rows h]
  exact fun r hr => ⟨r, List.mem_append_left _ hr, rfl⟩

theorem survive_update {p : ρ → Bool} {f : ρ → ρ} (h : t.update p f = some t') (hf : ∀ r, g (f r) = g r) :
    Survive g t.rows t'.rows := by
  rw [update_rows h]
  intro r hr
  refine ⟨_, List.mem_map_of_mem hr, ?_⟩
  split
  · exact hf r
  · rfl

end Rows

def eventEvidence (row : HrcBrokerInvocationEventRecord) : HrcBrokerInvocationEventRecord :=
  { row with projectionStatus := .pending, projectionError := none }

def runIdentity (run : HrcRunRecord) : List (Option String) × Nat × ExecutionFormat :=
  ([some run.runId, run.runtimeId, some run.hostSessionId, some run.scopeRef, some run.laneRef, run.turnKey,
    run.operationId, run.invocationId], run.generation, run.executionFormat)

def eventHead (e : HrcLifecycleEvent) : HrcLifecycleEvent := { e with payload := .null }

/-- What is recorded in `a` is recorded in `b`: a broker event keeps all but how its projection ended, a run what it was
made for, a lifecycle event all but its payload, whose result may be spilled, and a disposition everything. -/
structure History (a b : Db) : Prop where
  brokerInvocationEvents : Survive eventEvidence a.brokerInvocationEvents.rows b.brokerInvocationEvents.rows
  dispositions : Survive id a.dispositions.rows b.dispositions.rows
  runs : Survive runIdentity a.runs.rows b.runs.rows
  hrcEvents : Survive eventHead a.hrcEvents.rows b.hrcEvents.rows

theorem write_history {w : Write} {db db' : Db} (h : w.run db = .ok db') : History db db' := by
  have hr := Write.run_ran h
  obtain ⟨-, -, -, hruns, hev, hdisp, -, hhrc, -⟩ := hr
  constructor
  · cases w with
    | insertEvent => exact survive_insert hev
    | projectEvent => exact survive_update hev fun _ => rfl
    | _ => exact survive_same hev
  · cases w with
    | insertDisposition => exact survive_insert hdisp
    | _ => exact survive_same hdisp
  · cases w with
    | insertRun => exact survive_insert hruns
    | updateRun | completeRun | failWithdrawnRun | setCorrelation => exact survive_update hruns fun _ => rfl
    | _ => exact survive_same hruns
  · cases w with
    | appendHrcEvent => exact survive_insert hhrc
    | replaceHrcPayload => exact survive_update hhrc fun _ => rfl
    | _ => exact survive_same hhrc

theorem History.refl (db : Db) : History db db :=
  ⟨fun r hr => ⟨r, hr, rfl⟩, fun r hr => ⟨r, hr, rfl⟩, fun r hr => ⟨r, hr, rfl⟩, fun r hr => ⟨r, hr, rfl⟩⟩

theorem History.trans {a b c : Db} (h : History a b) (h' : History b c) : History a c :=
  ⟨h.1.trans h'.1, h.2.trans h'.2, h.3.trans h'.3, h.4.trans h'.4⟩

section Fence

def inFence (envelope : InvocationEventEnvelope) : Write → Prop
  | .updateInvocation id _ | .setProjectedSeq id _ _ | .setRetainedSeq id _ _ => id = envelope.invocationId
  | .clearActiveRun .. => envelope.type = .submissionWithdrawn
  | .updateRuntime .. | .setActiveRun .. | .insertRun .. => False
  | .markFirstTurn .. | .disarmFirstTurn .. | .setContinuation .. | .setReuseDisabled .. | .bindSurface .. => False
  | .insertInput .. | .bindInput .. | .landInput .. | .terminateInput .. | .correlateInput .. => False
  | .transitionAttempt .. => False
  | _ => True

/-- What a retained projection of `envelope` leaves as it was. -/
structure Fenced (envelope : InvocationEventEnvelope) (a b : Db) : Prop where
  runtimeOperations : b.runtimeOperations = a.runtimeOperations
  sessions : b.sessions = a.sessions
  surfaceBindings : b.surfaceBindings = a.surfaceBindings
  firstTurnWatch : b.firstTurnWatch = a.firstTurnWatch
  participantAttempts : b.participantAttempts = a.participantAttempts
  inputs : b.inputs = a.inputs
  runtimes : envelope.type ≠ .submissionWithdrawn → b.runtimes = a.runtimes
  runs : b.runs.rows.map runIdentity = a.runs.rows.map runIdentity
  brokerInvocations : ∀ id, id ≠ envelope.invocationId → getByInvocationId b id = getByInvocationId a id

variable {envelope : InvocationEventEnvelope} {db db' : Db} {w : Write} {s : BrokerEventMapper}

theorem Fenced.refl (envelope : InvocationEventEnvelope) (db : Db) : Fenced envelope db db :=
  ⟨rfl, rfl, rfl, rfl, rfl, rfl, fun _ => rfl, rfl, fun _ _ => rfl⟩

theorem Fenced.trans {a b c : Db} (h : Fenced envelope a b) (h' : Fenced envelope b c) : Fenced envelope a c :=
  ⟨h'.1.trans h.1, h'.2.trans h.2, h'.3.trans h.3, h'.4.trans h.4, h'.5.trans h.5, h'.6.trans h.6,
    fun ht => (h'.7 ht).trans (h.7 ht), h'.8.trans h.8, fun id hid => (h'.9 id hid).trans (h.9 id hid)⟩

theorem other_invocation {t : Table HrcBrokerInvocationRecord [fun r => some r.invocationId]} {id other : String}
    {f : HrcBrokerInvocationRecord → HrcBrokerInvocationRecord}
    (h : db.brokerInvocations.update (fun r => r.invocationId == id) f = some t)
    (hf : ∀ r, (f r).invocationId = r.invocationId) (hne : other ≠ id) :
    getByInvocationId { db with brokerInvocations := t } other = getByInvocationId db other := by
  refine (find?_update h fun r => by rw [hf]).trans ?_
  cases hr : db.brokerInvocations.find? fun r => r.invocationId == other with
  | none => exact hr.symm
  | some r =>
    have hid : r.invocationId = other := by simpa using List.find?_some hr
    rw [Option.map_some, if_neg (by simpa [hid] using hne)]
    exact hr.symm

theorem write_fenced (h : w.run db = .ok db') (hw : inFence envelope w) : Fenced envelope db db' := by
  cases w <;> obtain ⟨t, ht, rfl⟩ := Write.store_eq_ok.mp h
  case updateInvocation | setProjectedSeq | setRetainedSeq =>
    cases hw
    exact ⟨rfl, rfl, rfl, rfl, rfl, rfl, fun _ => rfl, rfl, fun id hid => other_invocation ht (fun _ => rfl) hid⟩
  case clearActiveRun =>
    exact ⟨rfl, rfl, rfl, rfl, rfl, rfl, fun ht => absurd hw ht, rfl, fun _ _ => rfl⟩
  case updateRun | completeRun | failWithdrawnRun | setCorrelation =>
    exact ⟨rfl, rfl, rfl, rfl, rfl, rfl, fun _ => rfl, Stability.update_map ht fun _ => rfl, fun _ _ => rfl⟩
  all_goals first | cases hw; done | exact ⟨rfl, rfl, rfl, rfl, rfl, rfl, fun _ => rfl, rfl, fun _ _ => rfl⟩

theorem append_inFence {origin : Option EvidenceOrigin} (h : Append origin w) : inFence envelope w := by
  cases h <;> trivial

variable [Host]

/-- What other writers make of the database between two calls is any database. -/
inductive Action where
  | call (c : Call)
  | written (db : Db)

def act (s : BrokerEventMapper) : Action → BrokerEventMapper
  | .call c => c.step s
  | .written db => { s with db }

def reached (db : Db) (actions : List Action) : BrokerEventMapper := actions.foldl act { db }

theorem reached_live (db : Db) (actions : List Action) : (reached db actions).retainedProjection = false := by
  induction actions using List.reverseRecOn with
  | nil => rfl
  | append_singleton actions a ih =>
    rw [reached, List.foldl_append]
    cases a with
    | call c => exact outcome_retainedProjection ih (call_outcome ih c)
    | written => exact ih

theorem retained_inFence {u : BrokerEventMapper} (hu : u.retainedProjection = true)
    (h : ProjectWrite u envelope db w) : inFence envelope w := by
  cases h with
  | minted hl | live hl | ended hl | reading hl | event hl | fact hl =>
    rw [hl] at hu
    cases hu
  | blob | stored | projected | disposed | artifact => trivial
  | advanced => rfl
  | canonical _ h => exact append_inFence h
  | warned _ h => exact append_inFence h
  | withdrawn _ _ ht h =>
    cases h with
    | failed => trivial
    | cleared => exact ht
    | event h => exact append_inFence h
  | retained _ hp _ _ h =>
    cases h with
    | invocation h =>
      cases h
      obtain ⟨correlation, he⟩ := prepared_persisted hp
      rw [he]
      rfl
    | unresolved _ _ hs => cases hs <;> trivial
    | settled _ h => cases h <;> trivial
    | ended => trivial
    | admission h | buffer h => cases w <;> trivial

/-- Whatever the envelope, a retained projection, returned or thrown, leaves alone the operations, sessions, surfaces,
first-turn watches, participant attempts and inputs, every other invocation and what each run was made for; it makes no
run and changes a runtime only by an exact withdrawal. -/
theorem retained_fence (db : Db) (actions : List Action) (envelope : InvocationEventEnvelope) :
    Fenced envelope (reached db actions).db (Call.step (.project true envelope) (reached db actions)).db := by
  generalize hs : reached db actions = s
  have ho := call_outcome (hs ▸ reached_live db actions) (.project true envelope)
  have hset (seq : Nat) (updatedAt : Option String) {db db' : Db}
      (h : (Write.setRetainedSeq envelope.invocationId seq updatedAt).run db = .ok db') : Fenced envelope db db' :=
    write_fenced h rfl
  unfold Call.step
  generalize ((Call.project true envelope).run s).1 = r at ho
  generalize ((Call.project true envelope).run s).2 = t at ho
  cases ho with
  | thrown h =>
    rw [h.db]
    exact .refl envelope s.db
  | repeated => exact .refl envelope s.db
  | extended => exact .refl envelope s.db
  | projected _ h =>
    obtain ⟨⟨u, v, hq, hf, hp, ht⟩, -, -, -⟩ := h
    have hu : u.retainedProjection = true := hq.retainedProjection
    have hfl : ∀ db, Folded true envelope.invocationId s.db (cursors true s envelope.invocationId) db →
        Fenced envelope s.db db := by
      intro db hf
      cases hf with
      | kept => exact .refl envelope s.db
      | folded updatedAt _ _ _ h => exact hset _ _ h
    have hk : KeepsFrom (Fenced envelope s.db) u (project envelope) :=
      .of_writes (project_writesFrom envelope u) fun db w db' hw hr hi => hi.trans (write_fenced hr (retained_inFence hu hw))
    have hv := hk (hfl u.db hf)
    rw [hp] at hv
    split at ht
    · obtain ⟨seq, h⟩ := ht
      exact hv.trans (hset _ _ h)
    · rw [ht]
      exact hv

end Fence

section Isolation

/-- The ledger, the cursor and the pending delta ranges of every invocation but these are as they were. -/
structure Isolated (invocationIds : List String) (s t : BrokerEventMapper) : Prop where
  events : ∀ envelope : InvocationEventEnvelope, envelope.invocationId ∉ invocationIds → Kept envelope s.db t.db
  ledger : ∀ id, id ∉ invocationIds → SameLedger id s.db t.db
  pending : ∀ id, id ∉ invocationIds → ∀ retained, cursors retained t id = cursors retained s id

variable {id invocationId : String} {retained : Bool} {s t : BrokerEventMapper} {db db' : Db}

theorem retainedSeq_ledger {seq : Nat} {updatedAt : Option String}
    (h : (Write.setRetainedSeq invocationId seq updatedAt).run db = .ok db') : SameLedger id db db' := by
  refine ⟨lastProjectedBrokerSeq_setRetainedSeq h id, fun q => ?_⟩
  unfold getProjectionDisposition
  rw [Write.run_dispositions_of_ne h (fun h => by cases h)]

theorem folded_ledger (hne : id ≠ invocationId)
    (h : Folded retained invocationId s.db (cursors retained s invocationId) db) : SameLedger id s.db db := by
  cases retained with
  | false => exact fold_sameLedger hne h
  | true =>
    cases h with
    | kept => exact .refl _ _
    | folded _ _ _ _ hr => exact retainedSeq_ledger hr

theorem pending_setCursor (hne : id ≠ invocationId) (pending : Option PendingDelta) (k : Bool) :
    cursors k (setCursor retained invocationId pending s) id = cursors k s id := by
  cases k <;> cases retained <;> simp [cursors, setCursor, hne]

variable [Host]

theorem committed_apart {envelope : InvocationEventEnvelope} {result : BrokerProjectionResult}
    (hne : id ≠ envelope.invocationId) (h : Committed retained envelope s result t) :
    SameLedger id s.db t.db ∧ ∀ k, cursors k t id = cursors k s id := by
  obtain ⟨⟨u, v, -, hf, hp, hdb⟩, -, hi, hr⟩ := h
  refine ⟨((folded_ledger hne hf).trans (project_sameLedger hp hne)).trans ?_, fun k => ?_⟩
  · split at hdb
    · exact retainedSeq_ledger hdb.choose_spec
    · rw [hdb]
      exact .refl _ _
  · cases k <;> cases retained <;> simp [cursors, setCursor, hne, hi, hr]

theorem outcome_apart {c : Call} {r : Except HrcError (Option BrokerProjectionResult)} (hne : id ≠ Call.invocationId c)
    (h : Outcome s c r t) : SameLedger id s.db t.db ∧ ∀ k, cursors k t id = cursors k s id := by
  cases h with
  | thrown h => exact ⟨by rw [h.db]; exact .refl _ _, fun k => by cases k <;> simp [cursors, h.4, h.3]⟩
  | repeated | idle => exact ⟨.refl _ _, fun _ => rfl⟩
  | @extended retained => exact ⟨by cases retained <;> exact .refl _ _, pending_setCursor hne _⟩
  | @flushed retained _ u hu _ hf =>
    refine ⟨by cases retained <;> exact folded_ledger hne hf, fun k => (pending_setCursor hne none k).trans ?_⟩
    cases k <;> simp [cursors, hu.4, hu.3]
  | projected _ h | unlogged _ _ _ h => exact committed_apart hne h

/-- Calls for some invocations, thrown or returned, leave every other invocation's projection alone. -/
theorem calls_isolated (db : Db) (actions : List Action) (calls : List Call) :
    Isolated (calls.map Call.invocationId) (reached db actions) (Schedule.run Call.step calls (reached db actions)) := by
  have hs := reached_live db actions
  generalize reached db actions = s at hs
  have hrun (id : String) (hid : id ∉ calls.map Call.invocationId) :
      SameLedger id s.db (Schedule.run Call.step calls s).db ∧
        ∀ k, cursors k (Schedule.run Call.step calls s) id = cursors k s id := by
    induction calls generalizing s with
    | nil => exact ⟨.refl _ _, fun _ => rfl⟩
    | cons c calls ih =>
      obtain ⟨hc, hid⟩ := not_or.mp (mt List.mem_cons.mpr hid)
      have ho := call_outcome hs c
      obtain ⟨hl, hp⟩ := outcome_apart hc ho
      obtain ⟨hl', hp'⟩ := ih _ (outcome_retainedProjection hs ho) hid
      exact ⟨hl.trans hl', fun k => (hp' k).trans (hp k)⟩
  refine ⟨fun envelope he => run_kept hs fun c hc => ?_, fun id h => (hrun id h).1, fun id h => (hrun id h).2⟩
  cases c with
  | project _ other => exact fun hi => absurd (List.mem_map.mpr ⟨_, hc, hi⟩) he
  | flush => trivial

end Isolation

variable [Host]

/-- No call of the mapper loses or rewrites what the database has recorded, thrown or returned. -/
theorem calls_keep_history (calls : List Call) (s : BrokerEventMapper) : History s.db (runCalls calls s).db := by
  induction calls generalizing s with
  | nil => exact .refl s.db
  | cons c calls ih =>
    have hc : Keeps (History s.db) c.run :=
      call_keeps (fun _ _ _ _ _ _ hw h => h.trans (write_history hw)) (fun _ _ _ _ hw h => h.trans (write_history hw)) c
    exact (hc s (.refl s.db)).trans (ih _)

section Failure

variable {envelope : InvocationEventEnvelope} {retained : Bool} {e : HrcError} {s t : BrokerEventMapper}

omit [Host] in
theorem rethrown_chunks {α : Type} {m : M α} (h : rethrowRestoring s.nextBufferChunkSeqByRunId m s = (.error e, t)) :
    t.nextBufferChunkSeqByRunId = s.nextBufferChunkSeqByRunId := by
  rcases hm : m s with ⟨e' | a, u⟩
  · cases h.symm.trans (rethrowRestoring_error hm)
    rfl
  · cases h.symm.trans (rethrowRestoring_ok hm)

omit [Host] in
theorem ignored_chunks (h : ignoreRawDelta envelope retained s = (.error e, t)) :
    t.nextBufferChunkSeqByRunId = s.nextBufferChunkSeqByRunId := by
  have hm : Emits (fun s t => t.nextBufferChunkSeqByRunId = s.nextBufferChunkSeqByRunId)
      (ignoreRawDelta envelope retained) := by
    refine Emits.bind (Emits.of_readOnly deltaBase_readOnly) fun _ => Emits.bind ?_ fun _ => Emits.pure _
    unfold extendRange
    split
    · exact Emits.throw _
    · exact Emits.when (Emits.modify fun s => by cases retained <;> rfl)
  have hc := (hm s).preserves (I := fun u => u.nextBufferChunkSeqByRunId = s.nextBufferChunkSeqByRunId)
    (fun _ _ h ha => h.trans ha) rfl
  rwa [h] at hc

theorem thrown_chunks (h : (Call.project retained envelope).run s = (.error e, t)) :
    t.nextBufferChunkSeqByRunId = s.nextBufferChunkSeqByRunId := by
  cases retained
  all_goals
    rcases bind_eq_error.mp h with h | ⟨_, _, _, h⟩
    · first | unfold EventMapper.apply at h | unfold applyRetained at h
      split at h
      · exact ignored_chunks h
      · exact rethrown_chunks h
    · cases h

/-- A call that throws has changed nothing: the database and what the mapper keeps between calls are as they were. Or it
is a live warning whose projection is committed whole, and only its log line is missing. -/
theorem project_all_or_nothing (db : Db) (actions : List Action)
    (h : (Call.project retained envelope).run (reached db actions) = (.error e, t)) :
    Quiet (reached db actions) t ∧ t.nextBufferChunkSeqByRunId = (reached db actions).nextBufferChunkSeqByRunId ∨
      retained = false ∧ envelope.type = .captureWarning ∧
        ∃ result, result.idempotent = false ∧ Committed false envelope (reached db actions) result t := by
  have ho := call_outcome (reached_live db actions) (.project retained envelope)
  rw [h] at ho
  cases ho with
  | thrown hq => exact .inl ⟨hq, thrown_chunks h⟩
  | unlogged _ hfr ht hc => exact .inr ⟨rfl, ht, _, hfr, hc⟩

def nullCall : Call := .project false { sampleEvent 1 .toolCallStarted with payload := .null }

omit [Host] in
theorem project_all_or_nothing_null : ∃ e t, @Call.run steadyHost nullCall (@reached steadyHost sampleMapper.db []) =
    (.error e, t) ∧ t.db = sampleMapper.db := by
  have hr : (@Call.run steadyHost nullCall (@reached steadyHost sampleMapper.db [])).1.toOption.isNone = true := by
    decide +kernel
  rcases h : @Call.run steadyHost nullCall (@reached steadyHost sampleMapper.db []) with ⟨e | a, t⟩
  · rcases @project_all_or_nothing steadyHost _ _ _ _ _ _ h with ⟨hq, -⟩ | ⟨-, ht, -⟩
    · exact ⟨e, t, rfl, hq.db⟩
    · cases ht
  · rw [h] at hr
    cases hr

end Failure

end HrcRuntime.CallEffects
