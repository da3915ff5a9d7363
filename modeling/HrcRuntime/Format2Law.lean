import HrcRuntime.Preparation

namespace HrcRuntime.Format2Law

open RunRepository (run_unique)
open Records Relational Database Mapper EventRepository Repositories Ownership Context RunResolution
open RuntimeState Format2Input MessageProjection TurnProjection StateProjection ProjectEnvelope
open ProjectionWrites EventMapper Calls Controller CursorSoundness CursorCompleteness Stability Preparation
open Option (map_none map_eq_none_iff bind_eq_bind bind_some bind_eq_some_iff)

def turnKeyOf (db : Db) (envelope : InvocationEventEnvelope) : Option String := do
  let invocation ← getByInvocationId db envelope.invocationId
  let runtime ← getByRuntimeId db invocation.runtimeId
  let turnId ← extractTurnId envelope
  some (format2TurnKey envelope.toEnvelopeHead invocation runtime turnId)

def coordinates (r : HrcRunRecord) : Option String × Option String × Option Nat × Option Nat :=
  (r.invocationId, r.nativeTurnId, r.nativeHarnessGeneration, r.nativeTurnAttempt)

def origin (r : HrcRunRecord) : String × Option String × ExecutionFormat × Option String × Option String ×
    Option Nat × Option Nat :=
  (r.runId, r.turnKey, r.executionFormat, coordinates r)

def Unbound (r : HrcRunRecord) : Prop := r.dispatchedInputId = none ∧ r.brokerSubmissionId = none

def Ends (db : Db) (envelope : InvocationEventEnvelope) (key : Option String) : Prop :=
  envelope.type.isTurnTerminal = true ∧ turnKeyOf db envelope = key

structure Progress (db : Db) (envelope : InvocationEventEnvelope) (r r' : HrcRunRecord) : Prop where
  origin : origin r' = origin r
  unbound : r.turnKey.isSome = true → Unbound r → Unbound r'
  reopened : r'.completedAt = none → r.completedAt = none
  completed : r.turnKey.isSome = true → r.completedAt = none → r'.completedAt = none ∨ Ends db envelope r.turnKey

structure MintedBy (db : Db) (envelope : InvocationEventEnvelope) (r : HrcRunRecord) : Prop where
  type : envelope.type = .turnStarted
  named : (extractTurnId envelope).isSome = true
  key : r.turnKey = turnKeyOf db envelope
  keyed : r.turnKey.isSome = true
  format : r.executionFormat = .format2
  coordinates : coordinates r = (some envelope.invocationId, extractTurnId envelope, envelope.harnessGeneration,
    envelope.turnAttempt)
  unbound : Unbound r
  uncompleted : r.completedAt = none

def EndsCarrier (db : Db) (envelope : InvocationEventEnvelope) : Prop :=
  endsSubmission envelope.type = true ∧
    getProjectionDisposition db envelope.invocationId envelope.seq = none ∧
    lastProjectedBrokerSeq db envelope.invocationId < envelope.seq ∧
    (∀ row ∈ getByInvocationAndSeq db envelope.invocationId envelope.seq,
      row.projectionStatus ≠ .applied ∧ row.projectionStatus ≠ .skippedFenced) ∧
    isParticipantFenced db envelope.invocationId = false ∧
    (∃ invocation ∈ getByInvocationId db envelope.invocationId,
      isStaleLifecycleEnvelope envelope.toEnvelopeHead invocation = false) ∧
    ∃ run ∈ (turnKeyOf db envelope).bind (RunRepository.getByTurnKey db),
      run.completedAt = none ∧ run.brokerInputFencedAt = none

instance (db : Db) (envelope : InvocationEventEnvelope) : Decidable (EndsCarrier db envelope) := by
  unfold EndsCarrier; infer_instance

def format2Mapper : BrokerEventMapper :=
  { sampleMapper with
    db := { sampleMapper.db with
      brokerInvocations := ⟨[{ invocationId := "inv", operationId := "op", runtimeId := "rt"
                               executionFormat := .format2 }], by decide⟩ } }

def turnEvent (seq : Nat) (type : EventType) : InvocationEventEnvelope :=
  { sampleEvent seq type with turnId := some "turn-1" }

section Keys

variable {a b db : Db} {envelope : InvocationEventEnvelope}

theorem turnKeyOf_stable (h : SamePlacement a b) (envelope : InvocationEventEnvelope) :
    turnKeyOf b envelope = turnKeyOf a envelope := by
  have hid := getByInvocationId_identity h envelope.invocationId
  unfold turnKeyOf
  cases ha : getByInvocationId a envelope.invocationId with
  | none =>
    rw [ha, map_none, map_eq_none_iff] at hid
    rw [hid]
    rfl
  | some invocation =>
    obtain ⟨invocation', hb, hs⟩ := getByInvocationId_stable h ha
    rw [hb]
    have hrun : invocation'.runtimeId = invocation.runtimeId := congrArg (·.runtimeId) hs
    have hop : invocation'.operationId = invocation.operationId := congrArg (·.operationId) hs
    have hi : invocation'.invocationId = invocation.invocationId := congrArg (·.invocationId) hs
    have hrt := getByRuntimeId_identity h invocation.runtimeId
    simp only [bind_eq_bind, bind_some]
    rw [hrun]
    cases hr : getByRuntimeId a invocation.runtimeId with
    | none =>
      rw [hr, map_none, map_eq_none_iff] at hrt
      rw [hrt]
      rfl
    | some runtime =>
      obtain ⟨runtime', hr', hs'⟩ := getByRuntimeId_stable h hr
      have hri : runtime'.runtimeId = runtime.runtimeId := congrArg (·.runtimeId) hs'
      rw [hr']
      simp only [bind_some, format2TurnKey, hri, hop, hi]

theorem isFormat2_stable (h : SamePlacement a b) (invocationId : String) :
    isFormat2 b invocationId = isFormat2 a invocationId := by
  have hid := getByInvocationId_identity h invocationId
  have hformat (o : Option HrcBrokerInvocationRecord) : o.any (fun i => i.executionFormat == .format2)
      = (o.map invocationIdentity).any (fun i => i.executionFormat == .format2) := by
    cases o <;> rfl
  unfold isFormat2
  rw [hformat (getByInvocationId b invocationId), hid, ← hformat]

theorem Progress.refl (r : HrcRunRecord) : Progress db envelope r r := ⟨rfl, fun _ h => h, id, fun _ h => .inl h⟩

variable {r r' : HrcRunRecord}

theorem Progress.turnKey (h : Progress db envelope r r') : r'.turnKey = r.turnKey :=
  congrArg (·.2.1) h.origin

theorem Progress.runId (h : Progress db envelope r r') : r'.runId = r.runId :=
  congrArg (·.1) h.origin

theorem Progress.trans {r'' : HrcRunRecord} (h : Progress db envelope r r') (h' : Progress db envelope r' r'') :
    Progress db envelope r r'' where
  origin := h'.origin.trans h.origin
  unbound hk hr := h'.unbound (by rwa [h.turnKey]) (h.unbound hk hr)
  reopened hr := h.reopened (h'.reopened hr)
  completed hk hr := by
    rcases h.completed hk hr with hr' | he
    · have := h'.completed (by rwa [h.turnKey]) hr'
      rwa [h.turnKey] at this
    · exact .inr he

theorem MintedBy.progress (h : MintedBy db envelope r) (hp : Progress db envelope r r') :
    MintedBy db envelope r' where
  type := h.type
  named := h.named
  key := hp.turnKey.trans h.key
  keyed := by
    rw [hp.turnKey]
    exact h.keyed
  format := (congrArg (·.2.2.1) hp.origin).trans h.format
  coordinates := (congrArg (·.2.2.2) hp.origin).trans h.coordinates
  unbound := hp.unbound h.keyed h.unbound
  uncompleted := (hp.completed h.keyed h.uncompleted).resolve_right fun he => by
    have ht := he.1
    rw [h.type] at ht
    cases ht

end Keys

section Rows

variable {start db db' : Db} {envelope : InvocationEventEnvelope} {w : Write}

def RowsFrom (start : Db) (envelope : InvocationEventEnvelope) (a b : Db) : Prop :=
  ∀ r' ∈ b.runs.rows, (∃ r ∈ a.runs.rows, Progress start envelope r r') ∨ MintedBy start envelope r'

theorem rowsFrom_same (h : db'.runs = db.runs) : RowsFrom start envelope db db' := by
  intro r' hr'
  rw [h] at hr'
  exact .inl ⟨r', hr', .refl r'⟩

theorem RowsFrom.trans {a b c : Db} (h : RowsFrom start envelope a b) (h' : RowsFrom start envelope b c) :
    RowsFrom start envelope a c := by
  intro r'' hr''
  rcases h' r'' hr'' with ⟨r', hr', hp'⟩ | hm
  · rcases h r' hr' with ⟨r, hr, hp⟩ | hm
    · exact .inl ⟨r, hr, hp.trans hp'⟩
    · exact .inr (hm.progress hp')
  · exact .inr hm

variable {f : HrcRunRecord → HrcRunRecord} {run : HrcRunRecord}

theorem rowsFrom_update {p : HrcRunRecord → Bool}
    (h : db.runs.update p f = some db'.runs)
    (hf : ∀ r ∈ db.runs.rows, p r = true → Progress start envelope r (f r)) : RowsFrom start envelope db db' := by
  intro r' hr'
  rw [update_rows h] at hr'
  obtain ⟨r, hr, rfl⟩ := List.mem_map.mp hr'
  refine .inl ⟨r, hr, ?_⟩
  split
  · exact hf r hr ‹_›
  · exact .refl r

theorem bound_progress {r : HrcRunRecord}
    (hu : ∀ r ∈ db.runs.rows, r.turnKey.isSome = true → Unbound r)
    (hrun : run ∈ db.runs.rows) (hbd : ¬ Unbound run) (hr : r ∈ db.runs.rows)
    (hid : (r.runId == run.runId) = true) (hor : origin (f r) = origin r)
    (hrp : (f r).completedAt = none → r.completedAt = none) : Progress start envelope r (f r) := by
  obtain rfl := run_unique hrun hr (beq_iff_eq.mp hid)
  have hky : ¬ r.turnKey.isSome = true := fun hk => hbd (hu r hr hk)
  exact ⟨hor, fun h => absurd h hky, hrp, fun h => absurd h hky⟩

theorem settlement_rows (hu : ∀ r ∈ db.runs.rows, r.turnKey.isSome = true → Unbound r)
    (h : Settlement db w) (hrun : w.run db = .ok db') : RowsFrom start envelope db db' := by
  have hbd {run : HrcRunRecord} (ha : AbsorbedAuxiliary db run) : ¬ Unbound run := fun hb => by
    obtain ⟨_, submissionId, hs, _⟩ := ha.steer
    rw [hb.2] at hs
    cases hs
  have hrn := Write.run_runs hrun
  cases h with
  | coalesced ownerRunId completedAt ha =>
    exact rowsFrom_update hrn fun r hr hid => bound_progress hu ha.mem (hbd ha) hr hid rfl nofun
  | joined ownerRunId completedAt ha =>
    exact rowsFrom_update hrn fun r hr hid => bound_progress hu ha.mem (hbd ha) hr hid rfl id
  | unresolved now detail ha =>
    exact rowsFrom_update hrn fun r hr hid => bound_progress hu ha.mem (hbd ha) hr hid rfl nofun
  | marked now message ha =>
    exact rowsFrom_update hrn fun r hr hid => bound_progress hu ha.mem (hbd ha) hr hid rfl id

theorem touch_rows (h : RunTouch db w) (hrun : w.run db = .ok db') : RowsFrom start envelope db db' := by
  cases h with
  | @touched runId raw hraw =>
    obtain ⟨patch, hpat⟩ : ∃ patch, RunRepository.effectivePatch (RunRepository.getByRunId db runId) raw = patch :=
      ⟨_, rfl⟩
    have hp : KeepsIdentity patch := hpat ▸ effectivePatch_keepsIdentity hraw
    rw [hpat] at hrun
    refine rowsFrom_update (Write.run_runs hrun) fun r hr hid => ?_
    have hd : (patch.apply r).completedAt = r.completedAt := by
      simp only [RunPatch.apply, hp.completedAt, Option.getD_none]
    refine ⟨rfl, fun _ hr => ?_, fun h => hd ▸ h, fun _ h => .inl (hd.trans h)⟩
    simpa only [Unbound, RunPatch.apply, hp.dispatchedInputId, hp.brokerSubmissionId, Option.none_or] using hr

theorem fact_rows (h : InputFact db w) (hr : w.run db = .ok db') : RowsFrom start envelope db db' := by
  cases h with
  | ledger ht => exact rowsFrom_same (Write.run_runs_of_ne hr (by rw [ht]; nofun))
  | event h => exact rowsFrom_same (Write.run_runs_of_ne hr (by cases h <;> nofun))
  | run h => exact touch_rows h hr

theorem keyedUnbound_of_rows (hu : ∀ r ∈ start.runs.rows, r.turnKey.isSome = true → Unbound r)
    (h : RowsFrom start envelope start db) : ∀ r ∈ db.runs.rows, r.turnKey.isSome = true → Unbound r := by
  intro r' hr' hk
  rcases h r' hr' with ⟨r, hr, hp⟩ | hm
  · rw [hp.turnKey] at hk
    exact hp.unbound hk (hu r hr hk)
  · exact hm.unbound

theorem key_of_rows (h : RowsFrom start envelope start db) (ht : envelope.type ≠ .turnStarted) {r : HrcRunRecord}
    (hrun : run ∈ start.runs.rows) (hr : r ∈ db.runs.rows) (hid : r.runId = run.runId) :
    r.turnKey = run.turnKey ∧ Progress start envelope run r := by
  rcases h r hr with ⟨r₀, hr₀, hp⟩ | hm
  · obtain rfl := run_unique hrun hr₀ (hp.runId.symm.trans hid)
    exact ⟨hp.turnKey, hp⟩
  · exact absurd hm.type ht

theorem supersededRuns_bound {runId : Option String} {ended : String}
    (h : ended ∈ supersededRuns start envelope runId) : ∃ run ∈ start.runs.rows, run.runId = ended ∧ ¬ Unbound run := by
  unfold supersededRuns runsSupersededByTerminal at h
  obtain ⟨h, _⟩ := List.mem_filter.mp h
  split at h
  · cases h
  · dsimp only at h
    split at h
    · cases h
    · obtain ⟨started, _, hs⟩ := List.mem_filterMap.mp (List.mem_eraseDups.mp h)
      simp only [supersededRun, bind_eq_bind, bind_eq_some_iff] at hs
      obtain ⟨inputId, _, run, hr, hs⟩ := hs
      split at hs
      · cases hs
      · simp only [validCandidate, bind_eq_bind, bind_eq_some_iff] at hs
        obtain ⟨_, _, run', hrun', hs⟩ := hs
        split at hs
        · have hid : run'.runId = run.runId := by simpa using List.find?_some hrun'
          cases hs
          rcases Option.or_eq_some_iff.mp hr with hf | ⟨_, hf⟩
          · refine ⟨run, List.mem_of_find?_eq_some hf, hid.symm, fun hb => ?_⟩
            have hbd := List.find?_some hf
            rw [hb.1] at hbd
            cases hbd
          · refine ⟨run, List.mem_of_find?_eq_some hf, hid.symm, fun hb => ?_⟩
            have hbd := List.find?_some hf
            rw [hb.2] at hbd
            cases hbd
        · cases hs

end Rows

section Project

variable [Host] {envelope : InvocationEventEnvelope} {s t : BrokerEventMapper} {p : Projection} {db db' : Db} {w : Write}

variable {r : Except HrcError BrokerProjectionResult} {runId : String} {base : Db}

theorem owner_row (hformat : isFormat2 s.db envelope.invocationId = true) (hp : prepare envelope s = (.ok p, t))
    (hty : envelope.type ≠ .turnStarted) (hrun : p.ctx.runId = some runId) :
    ∃ run ∈ (turnKeyOf s.db envelope).bind (RunRepository.getByTurnKey s.db),
      run ∈ s.db.runs.rows ∧ run.runId = runId ∧ turnKeyOf s.db envelope = run.turnKey := by
  obtain ⟨u, hr, _, _⟩ := prepare_eq_ok hp
  obtain ⟨hs, hu⟩ := resolved_start hr hty
  have hi := (resolved hr).invocation
  have hrt := (resolved hr).runtime
  have hres := (resolved hr).runId
  rw [hs, map_none, Option.none_or, hrun, hu] at hres
  have hf : p.invocation.executionFormat = .format2 := by
    unfold isFormat2 at hformat
    rw [hi] at hformat
    simpa using hformat
  unfold resolveRunIdForEvent at hres
  rw [hf] at hres
  dsimp only at hres
  have hfd := hres.symm
  simp only [resolveFormat2RunId, bind_eq_bind, bind_eq_some_iff] at hfd
  obtain ⟨turnId, ht, run, hk, hid⟩ := hfd
  cases hid
  have htk : turnKeyOf s.db envelope = some (format2TurnKey envelope.toEnvelopeHead p.invocation p.runtime turnId) := by
    unfold turnKeyOf
    simp only [hi, hrt, ht, bind_eq_bind, bind_some]
  refine ⟨run, ?_, List.mem_of_find?_eq_some hk, rfl, ?_⟩
  · rw [htk]
    exact hk
  · rw [htk]
    have := List.find?_some hk
    exact (beq_iff_eq.mp this).symm

theorem ended_rows (hformat : isFormat2 s.db envelope.invocationId = true) (hp : prepare envelope s = (.ok p, t))
    (hrw : RowsFrom s.db envelope s.db db) (ht : envelope.type.isTurnTerminal = true)
    {updates : RunCompletion} (hrun : p.ctx.runId = some runId)
    (hw : (Write.completeRun runId updates).run db = .ok db') : RowsFrom s.db envelope db db' := by
  have hty : envelope.type ≠ .turnStarted := fun h => by rw [h] at ht; cases ht
  obtain ⟨run, _, hm, hid, hk⟩ := owner_row hformat hp hty hrun
  refine rowsFrom_update (Write.run_runs hw) fun r hr hr' => ⟨rfl, fun _ h => h, nofun, fun _ _ => .inr ⟨ht, ?_⟩⟩
  rw [hk, (key_of_rows hrw hty hm hr ((beq_iff_eq.mp hr').trans hid.symm)).1]

omit [Host] in
theorem released_rows {ctx : ProjectionContext} {exactOwner : Bool} (hex : exactOwner = true)
    (hbs : base.runs = s.db.runs) (hu : ∀ r ∈ s.db.runs.rows, r.turnKey.isSome = true → Unbound r)
    (hrw : RowsFrom s.db envelope s.db db) {persisted : InvocationEventEnvelope} (ht : envelope.type ≠ .turnStarted)
    (h : Release base persisted ctx exactOwner w) (hw : w.run db = .ok db') : RowsFrom s.db envelope db db' := by
  cases h with
  | @released start _ _ hrn _ h =>
    cases h with
    | @superseded ended occurredAt updatedAt he =>
      obtain ⟨run, hrun, hid, hbd⟩ := supersededRuns_bound he
      obtain ⟨run₀, hrun₀, hi⟩ := RunRepository.SameRuns.mem hrn hrun
      rw [hbs] at hrun₀
      have hid₀ : run₀.runId = ended :=
        (congrArg (fun r : HrcRunRecord => r.runId) hi).trans hid
      have hbound₀ : ¬ Unbound run₀ := fun hb => hbd
        ⟨(congrArg (fun r : HrcRunRecord => r.dispatchedInputId) hi).symm.trans hb.1,
          (congrArg (fun r : HrcRunRecord => r.brokerSubmissionId) hi).symm.trans hb.2⟩
      refine rowsFrom_update (Write.run_runs hw) fun r hr hr' => ?_
      have hk := (key_of_rows hrw ht hrun₀ hr ((beq_iff_eq.mp hr').trans hid₀.symm)).1
      have hky : ¬ r.turnKey.isSome = true := fun h => hbound₀ (hu run₀ hrun₀ (hk ▸ h))
      exact ⟨rfl, fun h => absurd h hky, nofun, fun h => absurd h hky⟩
    | unwedged _ _ _ hn => exact absurd hn (by rw [hex]; nofun)
    | cleared => exact rowsFrom_same (Write.run_runs_of_ne hw nofun)
    | readied _ h => cases h; exact rowsFrom_same (Write.run_runs_of_ne hw nofun)

omit [Host] in
theorem isTurnTerminal_ne_started {type : EventType} (h : type.isTurnTerminal = true) : type ≠ .turnStarted := by
  rintro rfl
  cases h

theorem format2Write_rows (hformat : isFormat2 s.db envelope.invocationId = true)
    (hu : ∀ r ∈ s.db.runs.rows, r.turnKey.isSome = true → Unbound r) (hp : prepare envelope s = (.ok p, t))
    (hbs : SameBase t.db base) (hr : RowsFrom s.db envelope s.db db)
    (h : Format2Write base p.persistedEnvelope p.ctx db w) (hw : w.run db = .ok db') :
    RowsFrom s.db envelope db db' := by
  obtain ⟨correlation, he⟩ := prepared_persisted hp
  have hty : p.persistedEnvelope.type = envelope.type := by rw [he]
  cases h with
  | fact h => exact fact_rows h hw
  | ended ht _ h =>
    rw [hty] at ht
    cases h with
    | ended updates hrun _ => exact ended_rows hformat hp hr ht hrun hw
  | released ht h =>
    rw [hty] at ht
    have hne := isTurnTerminal_ne_started ht
    exact released_rows rfl (hbs.runs.trans (prepare_runs hp hne)) hu hr hne h hw
  | claim _ h => cases h; exact rowsFrom_same (Write.run_runs_of_ne hw nofun)
  | touch h => cases h; exact rowsFrom_same (Write.run_runs_of_ne hw nofun)
  | invocation => exact rowsFrom_same (Write.run_runs_of_ne hw nofun)
  | watch h => exact rowsFrom_same (Write.run_runs_of_ne hw (by rw [h]; nofun))

theorem liveWrite_rows (hformat : isFormat2 s.db envelope.invocationId = true)
    (hu : ∀ r ∈ s.db.runs.rows, r.turnKey.isSome = true → Unbound r) (hp : prepare envelope s = (.ok p, t))
    (hbs : SameBase t.db base) (hr : RowsFrom s.db envelope s.db db)
    (h : LiveWrite base p.persistedEnvelope p.ctx db w) (hw : w.run db = .ok db') : RowsFrom s.db envelope db db' := by
  cases h with
  | invocation => exact rowsFrom_same (Write.run_runs_of_ne hw nofun)
  | touch h => cases h; exact rowsFrom_same (Write.run_runs_of_ne hw nofun)
  | settled _ h => exact settlement_rows (keyedUnbound_of_rows hu hr) h hw
  | fact _ h => exact fact_rows h hw
  | aside h => exact rowsFrom_same (Write.run_runs_of_ne hw (by rcases h with h | h | h | h | h <;> rw [h] <;> nofun))
  | format1 hn _ =>
    obtain ⟨correlation, he⟩ := prepared_persisted hp
    have hs : isFormat2 base p.persistedEnvelope.invocationId = isFormat2 s.db envelope.invocationId := by
      rw [he]
      unfold isFormat2 getByInvocationId
      rw [hbs.brokerInvocations, (prepare_frame hp).brokerInvocations]
    rw [hs, hformat] at hn
    cases hn
  | format2 _ h => exact format2Write_rows hformat hu hp hbs hr h hw

/-- A retained submission end that completes an open run is the one the condition excludes. -/
theorem endsCarrier_of_write (hformat : isFormat2 s.db envelope.invocationId = true)
    (hp : prepare envelope s = (.ok p, t)) (hfre : verdict t.db p = .fresh) (hrw : RowsFrom s.db envelope s.db db)
    (hstale : isStale t.db p = false) (he : endsSubmission envelope.type = true)
    (hrun : p.ctx.runId = some runId)
    (hop : (RunRepository.getByRunId db runId).any (fun run => run.completedAt.isNone) = true) :
    EndsCarrier s.db envelope := by
  obtain ⟨correlation, henv⟩ := prepared_persisted hp
  have ht : envelope.type ≠ .turnStarted := fun h => by rw [h] at he; cases he
  have hdelta : isIgnoredBrokerDelta envelope = false := by
    unfold isIgnoredBrokerDelta
    cases ht : envelope.type <;> rw [ht] at he <;> first | rfl | cases he
  obtain ⟨u, hr, _, _⟩ := prepare_eq_ok hp
  have hf := fresh_of_verdict hfre
  have hfr := prepare_frame hp
  have hid : p.persistedEnvelope.invocationId = envelope.invocationId := by rw [henv]
  have hs : p.persistedEnvelope.seq = envelope.seq := by rw [henv]
  obtain ⟨run, hky, hm, hri, hk⟩ := owner_row hformat hp ht hrun
  obtain ⟨hfn, hbeh⟩ := Bool.or_eq_false_iff.mp hstale
  refine ⟨he, ?_, ?_, fun row hrow => ?_, ?_, ⟨p.invocation, (resolved hr).invocation, ?_⟩, run, hky, ?_, ?_⟩
  · have hu := hf.undisposed
    rw [hid, hs] at hu
    rwa [(prepare_sameLedger hp _).disposition] at hu
  · rw [lastProjectedBrokerSeq_row (resolved hr).invocation, ← hs]
    exact hf.above
  · have happ := prepare_existing hp hdelta hrow
    have hset := hf.unsettled
    rw [happ] at hset
    simp only [bind_some, settledDisposition, Bool.not_true, Bool.false_eq_true, if_false] at hset
    refine ⟨fun h => ?_, fun h => ?_⟩ <;> rw [h] at hset <;> cases hset
  · rw [hid] at hfn
    unfold isParticipantFenced getAttemptByInvocationId getAttemptByRegistrationId at *
    rwa [hfr.participantAttempts] at hfn
  · rw [henv] at hbeh
    exact hbeh
  · cases hg : RunRepository.getByRunId db runId with
    | none =>
      rw [hg] at hop
      cases hop
    | some run' =>
      rw [hg] at hop
      have hid' : run'.runId = runId := by simpa using List.find?_some hg
      obtain ⟨_, hpr⟩ := key_of_rows hrw ht hm (List.mem_of_find?_eq_some hg) (hid'.trans hri.symm)
      exact hpr.reopened (Option.isNone_iff_eq_none.mp hop)
  · have hunf := hf.unfenced
    rw [hrun, bind_some, RunRepository.getByRunId, prepare_runs hp ht] at hunf
    have hg : s.db.runs.find? (fun r => r.runId == runId) = some run := by
      cases hfi : s.db.runs.find? (fun r => r.runId == runId) with
      | none => exact absurd (List.find?_eq_none.mp hfi run hm) (by simp [hri])
      | some run' =>
        have hid' : run'.runId = runId := by simpa using List.find?_some hfi
        rw [run_unique hm (List.mem_of_find?_eq_some hfi) (hid'.trans hri.symm)]
    rw [hg, bind_some, fenceError, map_eq_none_iff] at hunf
    exact hunf

theorem retainedWrite_rows (hformat : isFormat2 s.db envelope.invocationId = true)
    (hu : ∀ r ∈ s.db.runs.rows, r.turnKey.isSome = true → Unbound r) (hp : prepare envelope s = (.ok p, t))
    (hfr : verdict t.db p = .fresh) (hc : ¬ EndsCarrier s.db envelope) (hr : RowsFrom s.db envelope s.db db)
    (h : RetainedWrite base p.persistedEnvelope p.ctx (isStale t.db p) db w) (hw : w.run db = .ok db') :
    RowsFrom s.db envelope db db' := by
  obtain ⟨correlation, henv⟩ := prepared_persisted hp
  have hty : p.persistedEnvelope.type = envelope.type := by rw [henv]
  cases h with
  | invocation h => cases h; exact rowsFrom_same (Write.run_runs_of_ne hw nofun)
  | unresolved _ _ hs _ => exact settlement_rows (keyedUnbound_of_rows hu hr) hs hw
  | settled _ h => exact settlement_rows (keyedUnbound_of_rows hu hr) h hw
  | ended updates hstale hk hrun hop =>
    rw [hty] at hk
    rcases hk with ht | he
    · exact ended_rows hformat hp hr ht hrun hw
    · exact absurd (endsCarrier_of_write hformat hp hfr hr hstale he hrun hop) hc
  | admission h => exact rowsFrom_same (Write.run_runs_of_ne hw (by rw [h]; nofun))
  | buffer h => exact rowsFrom_same (Write.run_runs_of_ne hw (by rw [h]; nofun))

omit [Host] in
theorem mint_minted {invocation : HrcBrokerInvocationRecord} {runtime : HrcRuntimeSnapshot}
    (hi : getByInvocationId s.db envelope.invocationId = some invocation)
    (hrt : getByRuntimeId s.db invocation.runtimeId = some runtime) (h : Mint envelope invocation runtime w)
    (hw : w.run db = .ok db') : RowsFrom s.db envelope db db' := by
  cases h with
  | @minted turnId runId generation initiatingInputId now hformat hty ht =>
    intro r' hr'
    rw [insert_rows (Write.run_runs hw)] at hr'
    rcases List.mem_append.mp hr' with hr | hr
    · exact .inl ⟨r', hr, .refl r'⟩
    · obtain rfl := List.mem_singleton.mp hr
      have hid : invocation.invocationId = envelope.invocationId := by simpa using List.find?_some hi
      refine .inr ⟨hty, by rw [ht]; rfl, ?_, rfl, rfl, ?_, ⟨rfl, rfl⟩, rfl⟩
      · unfold turnKeyOf
        simp only [hi, hrt, ht, bind_eq_bind, bind_some]
        rfl
      · rw [ht]
        exact congrArg (fun id => (some id, _)) hid

/-- Every write of a projection keeps the rows' origin and completes a keyed run only at the terminal
of its own turn. -/
theorem projectWrite_rows (hformat : isFormat2 s.db envelope.invocationId = true)
    (hu : ∀ r ∈ s.db.runs.rows, r.turnKey.isSome = true → Unbound r)
    (hc : s.retainedProjection = true → ¬ EndsCarrier s.db envelope) (hrw : RowsFrom s.db envelope s.db db)
    (h : ProjectWrite s envelope db w) (hw : w.run db = .ok db') : RowsFrom s.db envelope db db' := by
  have hoth (hne : w.table ≠ .runs) : RowsFrom s.db envelope db db' := rowsFrom_same (Write.run_runs_of_ne hw hne)
  cases h with
  | minted _ hi hrt h => exact mint_minted hi hrt h hw
  | blob => exact hoth fun h => by cases h
  | stored => exact hoth fun h => by cases h
  | projected => exact hoth fun h => by cases h
  | disposed => exact hoth fun h => by cases h
  | advanced => exact hoth fun h => by cases h
  | live _ hp _ _ hbs h => exact liveWrite_rows hformat hu hp hbs hrw h hw
  | ended _ _ h => exact hoth (by cases h; exact fun h => by cases h)
  | retained hret hp hfr _ h =>
    exact retainedWrite_rows hformat hu hp hfr (hc hret) hrw h hw
  | canonical _ h => exact hoth (by cases h <;> exact fun h => by cases h)
  | warned _ h => exact hoth (by cases h <;> exact fun h => by cases h)
  | artifact => exact hoth fun h => by cases h
  | reading _ _ _ h => exact hoth (by cases h; exact fun h => by cases h)
  | event _ h => exact hoth (by cases h <;> exact fun h => by cases h)
  | fact _ _ _ h => exact fact_rows h hw
  | withdrawn _ _ _ h =>
    cases h with
    | failed =>
      refine rowsFrom_update (Write.run_runs hw) fun r hr hm => ?_
      simp only [Write.isWithdrawnAccepted, Bool.and_eq_true, beq_iff_eq] at hm
      have hky : ¬ r.turnKey.isSome = true := fun hk => by
        have hbd := (keyedUnbound_of_rows hu hrw r hr hk).2
        rw [hm.2] at hbd
        cases hbd
      exact ⟨rfl, fun h => absurd h hky, (fun h => by cases h), fun h => absurd h hky⟩
    | cleared => exact hoth fun h => by cases h
    | event h => exact hoth (by cases h <;> exact fun h => by cases h)

theorem project_rows (hformat : isFormat2 s.db envelope.invocationId = true)
    (hu : ∀ r ∈ s.db.runs.rows, r.turnKey.isSome = true → Unbound r)
    (hc : s.retainedProjection = true → ¬ EndsCarrier s.db envelope)
    (h : project envelope s = (r, t)) : SamePlacement s.db t.db ∧ RowsFrom s.db envelope s.db t.db := by
  have hall := (project_writesFrom envelope s).preserves
    (I := fun u => SamePlacement s.db u.db ∧ RowsFrom s.db envelope s.db u.db) (fun a b hs ha => by
      cases hs with
      | quiet hq => rwa [hq.db]
      | write w hw hr =>
        exact ⟨ha.1.trans (write_samePlacement hr),
          ha.2.trans (projectWrite_rows hformat hu hc ha.2 hw hr)⟩) ⟨.refl _, rowsFrom_same rfl⟩
  rwa [h] at hall

omit [Host] in
theorem write_runIds (h : w.run db = .ok db') (hne : ∀ record, w ≠ .insertRun record) :
    db'.runs.rows.map (·.runId) = db.runs.rows.map (·.runId) := by
  by_cases ht : w.table = .runs
  · have hr := Write.run_runs h
    cases w with
    | insertRun record => exact absurd rfl (hne record)
    | updateRun => exact update_map hr fun _ => rfl
    | completeRun => exact update_map hr fun _ => rfl
    | failWithdrawnRun => exact update_map hr fun _ => rfl
    | setCorrelation => exact update_map hr fun _ => rfl
    | _ => cases ht
  · rw [Write.run_runs_of_ne h ht]

omit [Host] in
theorem retainedWrite_inserts_no_run {p : Projection} {stale : Bool}
    (h : RetainedWrite base p.persistedEnvelope p.ctx stale db w) (record : HrcRunRecord) : w ≠ .insertRun record := by
  rintro rfl
  cases h with
  | invocation h => cases h
  | unresolved _ _ hs _ => cases hs
  | settled _ h => cases h
  | admission h => cases h
  | buffer h => cases h

theorem projectWrite_inserts_no_run (hr : s.retainedProjection = true) (h : ProjectWrite s envelope db w)
    (record : HrcRunRecord) : w ≠ .insertRun record := by
  rintro rfl
  cases h with
  | minted hl => rw [hl] at hr; cases hr
  | live hl => rw [hl] at hr; cases hr
  | retained _ _ _ _ h => exact retainedWrite_inserts_no_run h record rfl
  | canonical _ h => cases h
  | warned _ h => cases h
  | ended _ _ h => cases h
  | reading _ _ _ h => cases h
  | event _ h => cases h
  | fact _ _ _ h => cases h with
    | ledger ht => cases ht
    | event h => cases h
    | run h => cases h
  | withdrawn _ _ _ h => cases h with
    | event h => cases h

theorem project_runIds (hr : s.retainedProjection = true)
    (h : project envelope s = (r, t)) : t.db.runs.rows.map (·.runId) = s.db.runs.rows.map (·.runId) := by
  have hall := (project_writesFrom envelope s).preserves
    (I := fun u => u.db.runs.rows.map (·.runId) = s.db.runs.rows.map (·.runId)) (fun a b hs ha => by
      cases hs with
      | quiet hq => rwa [hq.db]
      | write w hw hrun => exact (write_runIds hrun (projectWrite_inserts_no_run hr hw)).trans ha) rfl
  rwa [h] at hall

end Project

section Runs

variable [Host] {s t : BrokerEventMapper} {a b : Db} {invocationId : String} {envelope : InvocationEventEnvelope}
  {c : Call} {calls : List Call}

/-- What a run of calls on one format-2 invocation starts from and keeps: a run row with a turn key is
bound to no submission, and the invocation's carry the key of their own native coordinate. -/
structure Kept (invocationId : String) (db : Db) : Prop where
  format : isFormat2 db invocationId = true
  unbound : ∀ r ∈ db.runs.rows, r.turnKey.isSome = true → Unbound r
  keyed : ∀ r ∈ db.runs.rows, r.turnKey.isSome = true → r.invocationId = some invocationId →
    ∃ envelope : InvocationEventEnvelope, coordinates r = (some envelope.invocationId, extractTurnId envelope,
      envelope.harnessGeneration, envelope.turnAttempt) ∧ r.turnKey = turnKeyOf db envelope

/-- What one call does to the runs of a format-2 invocation: a new row is the mint of a live start, the
coordinates of the invocation's minted rows are distinct, and only the terminal of its own turn completes one. -/
structure Law (invocationId : String) (c : Call) (a b : Db) : Prop where
  minted : ∀ r' ∈ b.runs.rows, (∀ r ∈ a.runs.rows, r.runId ≠ r'.runId) →
    ∃ envelope, c = .project false envelope ∧ MintedBy a envelope r'
  unique : ∀ r ∈ b.runs.rows, ∀ r' ∈ b.runs.rows, r.turnKey.isSome = true → r'.turnKey.isSome = true →
    r.invocationId = some invocationId → coordinates r' = coordinates r → r' = r
  completed : ∀ r ∈ a.runs.rows, r.turnKey.isSome = true → r.completedAt = none →
    ∀ r' ∈ b.runs.rows, r'.runId = r.runId → r'.completedAt.isSome = true →
    ∃ retained envelope, c = .project retained envelope ∧ Ends a envelope r.turnKey

def CallEndsCarrier (db : Db) : Call → Prop
  | .project true envelope => EndsCarrier db envelope
  | _ => False

instance (db : Db) : DecidablePred (CallEndsCarrier db)
  | .project true _ => by unfold CallEndsCarrier; infer_instance
  | .project false _ => isFalse id
  | .flush .. => isFalse id

def NeverEndsCarrier : List Call → BrokerEventMapper → Prop
  | [], _ => True
  | c :: calls, s => ¬ CallEndsCarrier s.db c ∧ NeverEndsCarrier calls (c.run s).2

instance decidableNeverEndsCarrier :
    (calls : List Call) → (s : BrokerEventMapper) → Decidable (NeverEndsCarrier calls s)
  | [], _ => isTrue trivial
  | c :: calls, s =>
    have := decidableNeverEndsCarrier calls (c.run s).2
    inferInstanceAs (Decidable (_ ∧ _))

section Invariant

omit [Host]

theorem turnKeyOf_coordinates {e e' : InvocationEventEnvelope} (hid : e'.invocationId = e.invocationId)
    (ht : extractTurnId e' = extractTurnId e) (hg : e'.harnessGeneration = e.harnessGeneration)
    (hatt : e'.turnAttempt = e.turnAttempt) : turnKeyOf a e' = turnKeyOf a e := by
  unfold turnKeyOf format2TurnKey
  rw [hid, ht, hg, hatt]

theorem Kept.unique (h : Kept invocationId a) : ∀ r ∈ a.runs.rows, ∀ r' ∈ a.runs.rows, r.turnKey.isSome = true →
    r'.turnKey.isSome = true → r.invocationId = some invocationId → coordinates r' = coordinates r → r' = r := by
  intro r hr r' hr' hkey hkey' hi hs
  have hi' : r'.invocationId = some invocationId := (congrArg (·.1) hs).trans hi
  obtain ⟨e, he, hk⟩ := h.keyed r hr hkey hi
  obtain ⟨e', he', hk'⟩ := h.keyed r' hr' hkey' hi'
  rw [he, he', Prod.mk.injEq, Prod.mk.injEq, Prod.mk.injEq] at hs
  obtain ⟨hid, ht, hg, hatt⟩ := hs
  have htk : r'.turnKey = r.turnKey := by
    rw [hk, hk', turnKeyOf_coordinates (Option.some.inj hid) ht hg hatt]
  obtain ⟨key, hkey⟩ := Option.isSome_iff_exists.mp hkey
  refine row_unique a.runs (fun r => r.turnKey.map ("turn_key", ·)) (by simp) hr' hr (k := ("turn_key", key)) ?_ ?_
  · rw [htk, hkey, Option.map_some]
  · rw [hkey, Option.map_some]

theorem Progress.rebase {r r' : HrcRunRecord} (hp : SamePlacement a b) (h : Progress b envelope r r') :
    Progress a envelope r r' where
  origin := h.origin
  unbound := h.unbound
  reopened := h.reopened
  completed hk hr := (h.completed hk hr).imp_right fun he =>
    ⟨he.1, (turnKeyOf_stable hp envelope).symm.trans he.2⟩

theorem MintedBy.rebase {r : HrcRunRecord} (hp : SamePlacement a b) (h : MintedBy b envelope r) :
    MintedBy a envelope r :=
  { h with key := h.key.trans (turnKeyOf_stable hp envelope) }

theorem RowsFrom.rebase {x y : Db} (hp : SamePlacement a b) (h : RowsFrom b envelope x y) : RowsFrom a envelope x y := by
  intro r' hr'
  rcases h r' hr' with ⟨r, hr, hpr⟩ | hm
  · exact .inl ⟨r, hr, hpr.rebase hp⟩
  · exact .inr (hm.rebase hp)

theorem Kept.rows (h : Kept invocationId a) (hp : SamePlacement a b) (hrw : RowsFrom a envelope a b) :
    Kept invocationId b := by
  refine ⟨(isFormat2_stable hp _).trans h.format, keyedUnbound_of_rows h.unbound hrw, fun r' hr' hkey hid => ?_⟩
  rcases hrw r' hr' with ⟨r, hr, hpr⟩ | hm
  · have hc : coordinates r' = coordinates r := congrArg (·.2.2.2) hpr.origin
    rw [hpr.turnKey] at hkey
    obtain ⟨e, he, hk⟩ := h.keyed r hr hkey ((congrArg (·.1) hc).symm.trans hid)
    exact ⟨e, hc.trans he, by rw [hpr.turnKey, hk, turnKeyOf_stable hp]⟩
  · exact ⟨envelope, hm.coordinates, hm.key.trans (turnKeyOf_stable hp envelope).symm⟩

theorem Kept.same (h : Kept invocationId a) (hp : SamePlacement a b) (hrn : b.runs = a.runs) : Kept invocationId b :=
  have hr : RowsFrom a { invocationId, seq := 0, type := .diagnostic, payload := .obj .nil } a b := rowsFrom_same hrn
  h.rows hp hr

theorem format2Mapper_kept : Kept "inv" format2Mapper.db where
  format := by decide
  unbound r hr := by cases hr
  keyed r hr := by cases hr

theorem Law.same (h : Kept invocationId b) (hrn : b.runs = a.runs) : Law invocationId c a b := by
  refine ⟨fun r' hr' hn => ?_, h.unique, fun r hr _ hop r' hr' hid hd => ?_⟩
  · rw [hrn] at hr'
    exact absurd rfl (hn r' hr')
  · rw [hrn] at hr'
    rw [run_unique hr hr' hid, hop] at hd
    cases hd

theorem Law.rows {retained : Bool} (h : Kept invocationId b) (hrw : RowsFrom a envelope a b)
    (hi : retained = true → b.runs.rows.map (·.runId) = a.runs.rows.map (·.runId)) :
    Law invocationId (.project retained envelope) a b := by
  refine ⟨fun r' hr' hn => ?_, h.unique, fun r hr hk hop r' hr' hid hd => ?_⟩
  · cases retained with
    | true =>
      have hm := List.mem_map_of_mem (f := (·.runId)) hr'
      rw [hi rfl] at hm
      obtain ⟨r, hr, hid⟩ := List.mem_map.mp hm
      exact absurd hid (hn r hr)
    | false =>
      rcases hrw r' hr' with ⟨r, hr, hp⟩ | hmn
      · exact absurd hp.runId.symm (hn r hr)
      · exact ⟨envelope, rfl, hmn⟩
  · rcases hrw r' hr' with ⟨r₀, hr₀, hp⟩ | hmn
    · obtain rfl := run_unique hr hr₀ (hp.runId.symm.trans hid)
      rcases hp.completed hk hop with hnn | he
      · rw [hnn] at hd
        cases hd
      · exact ⟨retained, envelope, rfl, he⟩
    · rw [hmn.uncompleted] at hd
      cases hd

variable {pending : Option PendingDelta}

theorem fold_runs {retained : Bool} (h : Folded retained invocationId a pending b) :
    SamePlacement a b ∧ b.runs = a.runs := by
  cases h with
  | kept => exact ⟨.refl _, rfl⟩
  | folded updatedAt _ _ _ hr =>
    refine ⟨write_samePlacement hr, Write.run_runs_of_ne hr ?_⟩
    cases retained <;> nofun

theorem endsCarrier_setRetainedSeq {seq : Nat} {updatedAt : Option String}
    (hrun : (Write.setRetainedSeq invocationId seq updatedAt).run a = .ok b) (h : EndsCarrier b envelope) :
    EndsCarrier a envelope := by
  obtain ⟨he, hu, habv, hr, hf, ⟨invocation, hi, hstale⟩, run, hk, hop⟩ := h
  have hevs := Write.run_brokerInvocationEvents_of_ne hrun nofun
  have hatt : b.participantAttempts = a.participantAttempts :=
    (Option.some.inj (Write.run_participantAttempts hrun)).symm
  have hfn := find?_update (Write.run_brokerInvocations hrun)
    (q := fun r => r.invocationId == envelope.invocationId) fun _ => rfl
  unfold getByInvocationId at hi
  rw [hfn, Option.mem_def, Option.map_eq_some_iff] at hi
  obtain ⟨invocation', hi, rfl⟩ := hi
  refine ⟨he, ?_, ?_, ?_, ?_, ⟨invocation', hi, ?_⟩, run, ?_, hop⟩
  · unfold getProjectionDisposition at hu ⊢
    rwa [Write.run_dispositions_of_ne hrun nofun] at hu
  · rwa [lastProjectedBrokerSeq_setRetainedSeq hrun] at habv
  · unfold getByInvocationAndSeq at hr ⊢
    rwa [hevs] at hr
  · unfold isParticipantFenced getAttemptByInvocationId getAttemptByRegistrationId at *
    rwa [hatt] at hf
  · split at hstale <;> exact hstale
  · rw [turnKeyOf_stable (write_samePlacement hrun)] at hk
    unfold RunRepository.getByTurnKey at *
    rwa [Write.run_runs_of_ne hrun nofun] at hk

theorem fold_endsCarrier (h : Folded true invocationId a pending b)
    (he : EndsCarrier b envelope) : EndsCarrier a envelope := by
  cases h with
  | kept => exact he
  | folded updatedAt _ _ _ hr => exact endsCarrier_setRetainedSeq hr he

end Invariant

theorem committed_law {retained : Bool} {result : BrokerProjectionResult} (hk : Kept envelope.invocationId s.db)
    (hc : ¬ CallEndsCarrier s.db (.project retained envelope)) (h : Committed retained envelope s result t) :
    Kept envelope.invocationId t.db ∧ Law envelope.invocationId (.project retained envelope) s.db t.db := by
  obtain ⟨⟨u, v, hu, hf, hpr, hdb⟩, _⟩ := h
  obtain ⟨hp, hrn⟩ := fold_runs hf
  have hku := hk.same hp hrn
  have he : u.retainedProjection = true → ¬ EndsCarrier u.db envelope := fun hr he => by
    obtain rfl : retained = true := hu.retainedProjection.symm.trans hr
    exact hc (fold_endsCarrier hf he)
  obtain ⟨hp', hrw⟩ := project_rows hku.format hku.unbound he hpr
  have hl : SamePlacement v.db t.db ∧ t.db.runs = v.db.runs := by
    split at hdb
    · obtain ⟨seq, hrun⟩ := hdb
      exact ⟨write_samePlacement hrun, Write.run_runs_of_ne hrun nofun⟩
    · rw [hdb]
      exact ⟨.refl _, rfl⟩
  have hall : RowsFrom s.db envelope s.db t.db :=
    ((rowsFrom_same hrn).trans (hrw.rebase hp)).trans (rowsFrom_same hl.2)
  have hkt := hk.rows ((hp.trans hp').trans hl.1) hall
  refine ⟨hkt, Law.rows hkt hall fun hr => ?_⟩
  rw [hl.2, project_runIds (hu.retainedProjection.trans hr) hpr, hrn]

theorem outcome_law {r : Except HrcError (Option BrokerProjectionResult)} (hk : Kept invocationId s.db)
    (hid : CursorCompleteness.Call.invocationId c = invocationId) (hc : ¬ CallEndsCarrier s.db c)
    (h : Outcome s c r t) : Kept invocationId t.db ∧ Law invocationId c s.db t.db := by
  have hs {b : Db} (hp : SamePlacement s.db b) (hr : b.runs = s.db.runs) :
      Kept invocationId b ∧ Law invocationId c s.db b := ⟨hk.same hp hr, .same (hk.same hp hr) hr⟩
  have hcur {retained : Bool} {id : String} {pending : Option PendingDelta} {u : BrokerEventMapper} :
      (setCursor retained id pending u).db = u.db := by
    unfold setCursor
    split <;> rfl
  cases h with
  | thrown h =>
    rw [h.db]
    exact hs (.refl _) rfl
  | repeated => exact hs (.refl _) rfl
  | extended =>
    rw [hcur]
    exact hs (.refl _) rfl
  | idle => exact hs (.refl _) rfl
  | flushed _ _ hf =>
    rw [hcur]
    obtain ⟨hp, hr⟩ := fold_runs hf
    exact hs hp hr
  | projected _ h =>
    subst hid
    exact committed_law hk hc h
  | unlogged _ _ _ h =>
    subst hid
    exact committed_law hk hc h

/-- The execution law of a format-2 invocation, over every run of its live and retained calls in which no
retained submission end names the turn of an open run. -/
theorem format2_law (hs : s.retainedProjection = false) (hk : Kept invocationId s.db)
    (hid : ∀ c ∈ calls, CursorCompleteness.Call.invocationId c = invocationId) (hnever : NeverEndsCarrier calls s) :
    ∀ before c after, calls = before ++ c :: after →
      Law invocationId c (runCalls before s).db (runCalls (before ++ [c]) s).db := by
  induction calls generalizing s with
  | nil =>
    intro before c after h
    simp at h
  | cons c₀ calls ih =>
    have hout := call_outcome hs c₀
    obtain ⟨hk', hl⟩ := outcome_law hk (hid c₀ (List.mem_cons_self ..)) hnever.1 hout
    intro before c after h
    cases before with
    | nil =>
      obtain ⟨rfl, _⟩ := List.cons.inj h
      exact hl
    | cons c' before =>
      obtain ⟨rfl, ht⟩ := List.cons.inj h
      exact ih (outcome_retainedProjection hs hout) hk' (fun c hc => hid c (List.mem_cons_of_mem _ hc)) hnever.2
        before c after ht

omit [Host] in
/-- A start delivered twice and a terminal recovered from the dead worker's ledger. -/
theorem format2_law_sample :
    let calls : List Call := [.project false (turnEvent 1 .turnStarted), .project false (turnEvent 1 .turnStarted),
      .project true (turnEvent 2 .turnCompleted)]
    letI := steadyHost
    Law "inv" (.project true (turnEvent 2 .turnCompleted)) (runCalls (calls.take 2) format2Mapper).db
      (runCalls calls format2Mapper).db := by
  intro calls
  have hn :
      letI := steadyHost
      NeverEndsCarrier calls format2Mapper := by decide +kernel
  let _ := steadyHost
  exact format2_law rfl format2Mapper_kept (by simp [calls, Call.invocationId, turnEvent, sampleEvent])
    hn (calls.take 2) _ [] rfl

omit [Host] in
/-- A lost submission recovered from the dead worker's ledger completes the run of the turn it names. -/
theorem format2_lost_completes :
    letI := steadyHost
    ¬ Law "inv" (.project true (turnEvent 2 .submissionLost))
      (runCalls [.project false (turnEvent 1 .turnStarted)] format2Mapper).db
      (runCalls [.project false (turnEvent 1 .turnStarted), .project true (turnEvent 2 .submissionLost)]
        format2Mapper).db := by
  have hrow :
      letI := steadyHost
      ∃ r ∈ (runCalls [.project false (turnEvent 1 .turnStarted)] format2Mapper).db.runs.rows,
        (r.turnKey.isSome = true ∧ r.completedAt = none) ∧
        ∃ r' ∈ (runCalls [.project false (turnEvent 1 .turnStarted), .project true (turnEvent 2 .submissionLost)]
          format2Mapper).db.runs.rows, r'.runId = r.runId ∧ r'.completedAt.isSome = true := by decide +kernel
  let _ := steadyHost
  intro hl
  obtain ⟨r, hr, ⟨hk, hop⟩, r', hr', hid, hd⟩ := hrow
  obtain ⟨retained, envelope, hc, ht, _⟩ := hl.completed r hr hk hop r' hr' hid hd
  cases hc
  cases ht

end Runs

end HrcRuntime.Format2Law
