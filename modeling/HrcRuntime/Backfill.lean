import HrcRuntime.Freshness
import HrcRuntime.Schedule

namespace HrcRuntime.Backfill

open Records Relational Database Mapper EventRepository Repositories RunResolution
open ProjectEnvelope ProjectionWrites EventMapper Calls CursorSoundness Stability Attribution

def resolvedRun (db : Db) (retained : Bool) (envelope : InvocationEventEnvelope) : Option String := do
  let invocation ← getByInvocationId db envelope.invocationId
  let runtime ← getByRuntimeId db invocation.runtimeId
  resolveRunIdForEvent db retained envelope invocation runtime

def IsLater (envelope : InvocationEventEnvelope) : Call → Prop
  | .project _ other => other.invocationId = envelope.invocationId → envelope.seq < other.seq
  | .flush .. => True

section Rows

variable {a b db db' : Db} {envelope other : InvocationEventEnvelope} {w : Write}

def isThrough (envelope : InvocationEventEnvelope) (r : HrcBrokerInvocationEventRecord) : Bool :=
  r.invocationId == envelope.invocationId && decide (r.seq ≤ envelope.seq)

/-- The rows up to an event are listed the same way when the same rows are stored. -/
theorem ledgerThrough_of_rows
    (h : b.brokerInvocationEvents.rows.filter (isThrough envelope) = a.brokerInvocationEvents.rows.filter (isThrough envelope)) :
    ledgerThrough b envelope.invocationId envelope.seq = ledgerThrough a envelope.invocationId envelope.seq := by
  have hp (db : Db) : (ledgerThrough db envelope.invocationId envelope.seq).Perm
      (db.brokerInvocationEvents.rows.filter (isThrough envelope)) := by
    have hs := (List.perm_insertionSort (fun a b : HrcBrokerInvocationEventRecord => a.seq ≤ b.seq)
      (db.brokerInvocationEvents.rows.filter fun r => r.invocationId == envelope.invocationId)).filter
      fun r => decide (r.seq ≤ envelope.seq)
    rw [List.filter_filter] at hs
    refine hs.trans (List.Perm.of_eq (List.filter_congr fun r _ => ?_))
    exact Bool.and_comm _ _
  have hord (db : Db) : (ledgerThrough db envelope.invocationId envelope.seq).Pairwise fun a b => a.seq ≤ b.seq :=
    (pairwise_orderBy _ _).filter _
  refine List.Perm.eq_of_pairwise (fun r r' hr hr' hle hle' => ?_) (hord b) (hord a)
    ((hp b).trans ((List.Perm.of_eq h).trans (hp a).symm))
  have hm {db : Db} {r : HrcBrokerInvocationEventRecord} (hr : r ∈ ledgerThrough db envelope.invocationId envelope.seq) :
      r ∈ db.brokerInvocationEvents.rows ∧ r.invocationId = envelope.invocationId := by
    obtain ⟨hrow, ht⟩ := List.mem_filter.mp ((hp db).mem_iff.mp hr)
    simp only [isThrough, Bool.and_eq_true, beq_iff_eq] at ht
    exact ⟨hrow, ht.1⟩
  have hr'' : r' ∈ ledgerThrough b envelope.invocationId envelope.seq :=
    (hp b).mem_iff.mpr (h ▸ (hp a).mem_iff.mp hr')
  obtain ⟨hrow, hid⟩ := hm hr
  obtain ⟨hrow', hid'⟩ := hm hr''
  exact row_unique b.brokerInvocationEvents (fun r => some (r.invocationId, r.seq)) (by simp) hrow hrow'
    (k := (envelope.invocationId, r.seq)) (by rw [hid]) (by rw [hid', Nat.le_antisymm hle hle'])

structure Kept (envelope : InvocationEventEnvelope) (a b : Db) : Prop where
  placement : SamePlacement a b
  rows : b.brokerInvocationEvents.rows.filter (isThrough envelope) = a.brokerInvocationEvents.rows.filter (isThrough envelope)

theorem Kept.refl (a : Db) : Kept envelope a a := ⟨.refl a, rfl⟩

theorem Kept.trans {c : Db} (h : Kept envelope a b) (h' : Kept envelope b c) : Kept envelope a c :=
  ⟨h.placement.trans h'.placement, h'.rows.trans h.rows⟩

theorem kept_of_table (h : w.run db = .ok db') (ht : w.table ≠ .brokerInvocationEvents) : Kept envelope db db' := by
  refine ⟨write_samePlacement h, ?_⟩
  rw [Write.run_brokerInvocationEvents_of_ne h ht]

theorem kept_insert {row : HrcBrokerInvocationEventRecord} (h : (Write.insertEvent row).run db = .ok db')
    (hr : isThrough envelope row = false) : Kept envelope db db' := by
  refine ⟨write_samePlacement h, ?_⟩
  rw [insert_rows (Write.run_brokerInvocationEvents h), List.filter_append]
  simp only [List.filter_cons, hr, List.filter_nil, Bool.false_eq_true, if_false, List.append_nil]

theorem kept_update {seq : Nat} {status : ProjectionStatus} {error : Option String} {invocationId : String}
    (h : (Write.projectEvent invocationId seq status error).run db = .ok db')
    (hl : invocationId = envelope.invocationId → envelope.seq < seq) : Kept envelope db db' := by
  refine ⟨write_samePlacement h, filter_update (Write.run_brokerInvocationEvents h) (fun _ => rfl) fun r hr => ?_⟩
  simp only [isThrough, Bool.and_eq_true, beq_iff_eq, decide_eq_true_eq] at hr
  by_contra ht
  simp only [Bool.not_eq_false, Bool.and_eq_true, beq_iff_eq] at ht
  have := hl (ht.1.symm.trans hr.1)
  omega

inductive MirrorEffect (other : InvocationEventEnvelope) : Write → Prop where
  | aside {w : Write} (h : w.table ≠ .brokerInvocationEvents) : MirrorEffect other w
  | stored {row : HrcBrokerInvocationEventRecord} (hid : row.invocationId = other.invocationId)
      (hseq : row.seq = other.seq) : MirrorEffect other (.insertEvent row)
  | projected (status : ProjectionStatus) (error : Option String) :
      MirrorEffect other (.projectEvent other.invocationId other.seq status error)

theorem aside_of_ledger (h : isLedgerWrite w = false) : MirrorEffect other w :=
  .aside (by cases w <;> first | (cases h; done) | exact fun ht => by cases ht)

theorem mirrorEffect_kept (hl : other.invocationId = envelope.invocationId → envelope.seq < other.seq)
    (h : MirrorEffect other w) (hr : w.run db = .ok db') : Kept envelope db db' := by
  cases h with
  | aside ht => exact kept_of_table hr ht
  | @stored row hid hseq =>
    refine kept_insert hr ?_
    rw [isThrough, hid, hseq, Bool.and_eq_false_iff]
    by_cases hs : other.invocationId = envelope.invocationId
    · have := hl hs
      exact .inr (decide_eq_false (by omega))
    · exact .inl (beq_eq_false_iff_ne.mpr hs)
  | projected => exact kept_update hr hl

end Rows

section Calls

variable [Host] {envelope other : InvocationEventEnvelope} {s t : BrokerEventMapper} {c : Call} {db : Db} {w : Write}

theorem projectWrite_mirror (h : ProjectWrite s other db w) : MirrorEffect other w := by
  cases h with
  | minted _ _ _ h => exact aside_of_ledger (by cases h; rfl)
  | blob => exact aside_of_ledger rfl
  | @stored r u row hr hrow =>
    obtain ⟨correlation, he⟩ := persisted_eq u.db other r.ctx.runId
    refine .stored ?_ ?_
    · rw [hrow.invocationId, appendInput, (resolved hr).persisted, he]
    · rw [hrow.seq, appendInput, (resolved hr).persisted, he]
  | projected status error => exact .projected status error
  | disposed => exact .aside fun h => by cases h
  | advanced => exact .aside fun h => by cases h
  | live _ _ _ _ _ h => exact aside_of_ledger (liveWrite_ledger h)
  | ended _ _ h => exact aside_of_ledger (by cases h; rfl)
  | retained _ _ _ _ h => exact aside_of_ledger (retainedWrite_ledger h)
  | canonical _ h => exact aside_of_ledger (append_ledger h)
  | warned _ h => exact aside_of_ledger (append_ledger h)
  | artifact => exact aside_of_ledger rfl
  | reading _ _ _ h => exact aside_of_ledger (runtimeTouch_ledger h)
  | event _ h => exact aside_of_ledger (append_ledger h)
  | fact _ _ _ h => exact aside_of_ledger (inputFact_ledger h)
  | withdrawn _ _ _ h =>
    cases h with
    | failed => exact aside_of_ledger rfl
    | cleared => exact aside_of_ledger rfl
    | event h => exact aside_of_ledger (append_ledger h)

omit [Host] in
theorem fold_kept {retained : Bool} {invocationId : String} {pending : Option PendingDelta} {a b : Db}
    (h : Folded retained invocationId a pending b) : Kept envelope a b := by
  cases h with
  | kept => exact .refl _
  | folded _ _ _ _ hr => exact kept_of_table hr (by cases retained <;> exact fun h => by cases h)

theorem outcome_kept {r : Except HrcError (Option BrokerProjectionResult)} (hl : IsLater envelope c)
    (h : Outcome s c r t) : Kept envelope s.db t.db := by
  have hcur {retained : Bool} {id : String} {pending : Option PendingDelta} {u : BrokerEventMapper} :
      (setCursor retained id pending u).db = u.db := by
    unfold setCursor
    split <;> rfl
  have hc {retained : Bool} {other : InvocationEventEnvelope} {result : BrokerProjectionResult}
      (hl : other.invocationId = envelope.invocationId → envelope.seq < other.seq)
      (h : Committed retained other s result t) : Kept envelope s.db t.db := by
    obtain ⟨⟨u, v, hu, hf, hp, hdb⟩, _⟩ := h
    have hpr := (project_writesFrom other u).preserves (I := fun x => Kept envelope u.db x.db)
      (fun a b hs ha => by
        cases hs with
        | quiet hq => rwa [hq.db]
        | write w hw hr => exact ha.trans (mirrorEffect_kept hl (projectWrite_mirror hw) hr)) (.refl _)
    rw [hp] at hpr
    refine ((fold_kept hf).trans hpr).trans ?_
    split at hdb
    · obtain ⟨seq, hr⟩ := hdb
      exact kept_of_table hr fun h => by cases h
    · rw [hdb]
      exact .refl _
  cases h with
  | thrown h =>
    rw [h.db]
    exact .refl _
  | repeated => exact .refl _
  | extended =>
    rw [hcur]
    exact .refl _
  | idle => exact .refl _
  | flushed _ _ hf =>
    rw [hcur]
    exact fold_kept hf
  | projected _ h => exact hc hl h
  | unlogged _ _ _ h => exact hc hl h

theorem run_kept {calls : List Call} (hs : s.retainedProjection = false) (hl : ∀ c ∈ calls, IsLater envelope c) :
    Kept envelope s.db (Schedule.run Call.step calls s).db := by
  induction calls generalizing s with
  | nil => exact .refl _
  | cons c calls ih =>
    have hout := call_outcome hs c
    have hf : Kept envelope s.db (c.step s).db := outcome_kept (hl c (List.mem_cons_self ..)) hout
    exact hf.trans (ih (outcome_retainedProjection hs hout) fun c hc => hl c (List.mem_cons_of_mem _ hc))

end Calls

section Agreement

variable {a b start : Db} {envelope : InvocationEventEnvelope} {retained : Bool}

theorem kept_sameEvidence (ha : Kept envelope start a) (hb : Kept envelope start b)
    (hbn : SameBindings envelope a b) : SameEvidence envelope a b where
  placement := ha.placement.symm.trans hb.placement
  ledger := ledgerThrough_of_rows (hb.rows.trans ha.rows.symm)
  bindings := hbn

theorem resolvedRun_agrees (h : SameEvidence envelope a b)
    (hp : ∀ invocation ∈ getByInvocationId a envelope.invocationId,
      ∀ runtime ∈ getByRuntimeId a invocation.runtimeId, ∀ runtime' ∈ getByRuntimeId b invocation.runtimeId,
      SamePresent retained envelope a b invocation runtime runtime') :
    resolvedRun b retained envelope = resolvedRun a retained envelope := by
  have hid := getByInvocationId_identity h.placement envelope.invocationId
  unfold resolvedRun
  cases hi : getByInvocationId a envelope.invocationId with
  | none =>
    rw [hi, Option.map_none, Option.map_eq_none_iff] at hid
    rw [hid]
    rfl
  | some invocation =>
    obtain ⟨invocation', hi', hs⟩ := getByInvocationId_stable h.placement hi
    have hri : invocation'.runtimeId = invocation.runtimeId := congrArg (·.runtimeId) hs
    have hrt := getByRuntimeId_identity h.placement invocation.runtimeId
    simp only [hi', Option.bind_eq_bind, Option.bind_some, hri]
    cases hr : getByRuntimeId a invocation.runtimeId with
    | none =>
      rw [hr, Option.map_none, Option.map_eq_none_iff] at hrt
      rw [hrt]
      rfl
    | some runtime =>
      obtain ⟨runtime', hrt', _⟩ := getByRuntimeId_stable h.placement hr
      rw [hrt', Option.bind_some, Option.bind_some]
      refine resolveRunIdForEvent_agrees h (samePlace h hi hi' hr ?_)
        (hp invocation hi runtime hr runtime' hrt')
      rw [hri]
      exact hrt'

end Agreement

section Runs

variable [Host] {s : BrokerEventMapper} {envelope : InvocationEventEnvelope} {retained : Bool}

/-- Two histories that part after the rows up to an event attribute it to the same run, where they agree on the
bindings of what those rows name and on the current facts that its fallback asks for. -/
theorem no_future_influence {early late : List Call} (hs : s.retainedProjection = false)
    (hearly : ∀ c ∈ early, IsLater envelope c) (hlate : ∀ c ∈ late, IsLater envelope c)
    (hbindings : SameBindings envelope (Schedule.run Call.step early s).db (Schedule.run Call.step late s).db)
    (hpresent : ∀ invocation ∈ getByInvocationId (Schedule.run Call.step early s).db envelope.invocationId,
      ∀ runtime ∈ getByRuntimeId (Schedule.run Call.step early s).db invocation.runtimeId,
      ∀ runtime' ∈ getByRuntimeId (Schedule.run Call.step late s).db invocation.runtimeId,
      SamePresent retained envelope (Schedule.run Call.step early s).db (Schedule.run Call.step late s).db invocation
        runtime runtime') :
    resolvedRun (Schedule.run Call.step late s).db retained envelope
      = resolvedRun (Schedule.run Call.step early s).db retained envelope :=
  resolvedRun_agrees (kept_sameEvidence (run_kept hs hearly) (run_kept hs hlate) hbindings) hpresent

def acceptedMapper : BrokerEventMapper :=
  { sampleMapper with
    db := { sampleMapper.db with
      runtimes := ⟨[{ runtimeId := "rt", hostSessionId := "host", activeRunId := some "run-1"
                      activeInvocationId := some "inv" }], by decide⟩
      runs := ⟨[{ runId := "run-1", runtimeId := some "rt", invocationId := some "inv", operationId := some "op"
                  dispatchedInputId := some "in-1" }], by decide⟩
      brokerInvocationEvents := ⟨[{ invocationId := "inv", seq := 1, type := .inputAccepted, runtimeId := "rt"
                                    brokerEventJson := .obj (.cons "inputId" (.str "in-1") .nil) }], by decide⟩ } }

def laterAsk : Call :=
  .project false { sampleEvent 3 .toolCallStarted with
    payload := .obj (.cons "name" (.str "AskUserQuestion") (.cons "toolCallId" (.str "call-1") .nil)) }

omit [Host] in
theorem isBrokerNativeInput_eq_false {db : Db} {invocationId inputId : String}
    (h : ∀ row ∈ db.brokerInvocationEvents.rows, row.type ≠ .admissionRequested) :
    isBrokerNativeInput db invocationId inputId = false := by
  refine List.any_eq_false.mpr fun row hr => ?_
  have ht := h row (List.mem_filter.mp (mem_orderBy.mp hr)).1
  simp [ht]

omit [Host] in
theorem runs_eq_of_rows {a b : Db} (h : b.runs.rows = a.runs.rows) : b.runs = a.runs := by
  cases hb : b.runs
  cases ha : a.runs
  simp_all

omit [Host] in
theorem samePresent_of_tables (retained : Bool) (envelope : InvocationEventEnvelope) {a b : Db}
    (hrn : b.runs.rows = a.runs.rows) (hr : b.runtimes.rows = a.runtimes.rows)
    (ha : ∀ row ∈ a.brokerInvocationEvents.rows, row.type ≠ .admissionRequested)
    (hb : ∀ row ∈ b.brokerInvocationEvents.rows, row.type ≠ .admissionRequested)
    (hask : ∀ runtime ∈ a.runtimes.rows,
      Context.runtimeHasAnyOpenAskBracket b runtime = Context.runtimeHasAnyOpenAskBracket a runtime) :
    ∀ invocation ∈ getByInvocationId a envelope.invocationId, ∀ runtime ∈ getByRuntimeId a invocation.runtimeId,
      ∀ runtime' ∈ getByRuntimeId b invocation.runtimeId,
      SamePresent retained envelope a b invocation runtime runtime' := by
  intro invocation _ runtime hrt runtime' hrt'
  have hs : runtime' = runtime := by
    unfold getByRuntimeId Table.find? at hrt hrt'
    rw [hr] at hrt'
    exact Option.some.inj (hrt'.symm.trans hrt)
  subst hs
  refine samePresent_of_runs (runs_eq_of_rows hrn) (fun inputId => ?_) (hask _ (List.mem_of_find?_eq_some hrt))
  rw [isBrokerNativeInput_eq_false ha, isBrokerNativeInput_eq_false hb]

def laterNote : Call := .project false (sampleEvent 3 .diagnostic)

omit [Host] in
theorem laterNote_later : ∀ c ∈ [laterNote], IsLater (sampleEvent 2 .diagnostic) c := by
  intro c hc
  rw [List.mem_singleton.mp hc]
  exact fun _ => by decide

omit [Host] in
theorem laterNote_tables :
    letI := steadyHost
    let a := (Schedule.run Call.step [] acceptedMapper).db
    let b := (Schedule.run Call.step [laterNote] acceptedMapper).db
    b.runs.rows = a.runs.rows ∧ b.runtimes.rows = a.runtimes.rows ∧
      (getByInvocationId b (sampleEvent 2 .diagnostic).invocationId).bind (·.runId)
        = (getByInvocationId a (sampleEvent 2 .diagnostic).invocationId).bind (·.runId) ∧
      (∀ row ∈ a.brokerInvocationEvents.rows, row.type ≠ .admissionRequested) ∧
      (∀ row ∈ b.brokerInvocationEvents.rows, row.type ≠ .admissionRequested) ∧
      ∀ runtime ∈ a.runtimes.rows,
        Context.runtimeHasAnyOpenAskBracket b runtime = Context.runtimeHasAnyOpenAskBracket a runtime := by
  decide +kernel

omit [Host] in
/-- A note that follows an accepted input is its run's, whether or not a later note was projected first. -/
theorem no_future_influence_later :
    letI := steadyHost
    resolvedRun (Schedule.run Call.step [laterNote] acceptedMapper).db false (sampleEvent 2 .diagnostic)
      = resolvedRun (Schedule.run Call.step [] acceptedMapper).db false (sampleEvent 2 .diagnostic) := by
  let _ := steadyHost
  obtain ⟨hrn, hr, hc, hf, hs, hask⟩ := laterNote_tables
  have hbn : SameBindings (sampleEvent 2 .diagnostic) (Schedule.run Call.step [] acceptedMapper).db
      (Schedule.run Call.step [laterNote] acceptedMapper).db := sameBindings_of_runs (runs_eq_of_rows hrn) hc
  have hp := samePresent_of_tables false (sampleEvent 2 .diagnostic) hrn hr hf hs hask
  exact no_future_influence rfl (fun _ h => absurd h List.not_mem_nil) laterNote_later hbn hp

omit [Host] in
/-- The note is the run's in order and no run's when a question to the user was projected first. -/
theorem backfilled_note_unattributed :
    letI := steadyHost
    let envelope := sampleEvent 2 .diagnostic
    let late := (Schedule.run Call.step [laterAsk] acceptedMapper).db
    SameEvidence envelope acceptedMapper.db late ∧
      resolvedRun late false envelope ≠ resolvedRun acceptedMapper.db false envelope := by
  have ht :
      letI := steadyHost
      let late := (Schedule.run Call.step [laterAsk] acceptedMapper).db
      late.runs.rows = acceptedMapper.db.runs.rows ∧
        (getByInvocationId late "inv").bind (·.runId) = (getByInvocationId acceptedMapper.db "inv").bind (·.runId) ∧
        resolvedRun late false (sampleEvent 2 .diagnostic) ≠
          resolvedRun acceptedMapper.db false (sampleEvent 2 .diagnostic) := by
    decide +kernel
  let _ := steadyHost
  obtain ⟨hr, hcr, hd⟩ := ht
  have hl : ∀ c ∈ [laterAsk], IsLater (sampleEvent 2 .diagnostic) c := by
    intro c hc
    rw [List.mem_singleton.mp hc]
    exact fun _ => by decide
  exact ⟨kept_sameEvidence (.refl _) (run_kept rfl hl) (sameBindings_of_runs (runs_eq_of_rows hr) hcr), hd⟩

end Runs

end HrcRuntime.Backfill
