import HrcRuntime.Calls
import HrcRuntime.Controller

namespace HrcRuntime.CursorSoundness

open Records Relational Database Mapper EventRepository Ownership Context RuntimeState
open LifecyclePayload Format2Input TurnProjection StateProjection ProjectEnvelope ProjectionWrites EventMapper Calls
open Controller

def isCursorWrite : Write → Bool
  | .setProjectedSeq .. | .setRetainedSeq .. | .insertDisposition .. => true
  | _ => false

def isLedgerWrite : Write → Bool
  | .insertEvent .. | .projectEvent .. => true
  | w => isCursorWrite w

section Frames

variable {db db' : Db} {w : Write}

theorem isLedgerWrite_of_table {t : TableName} (ht : w.table = t) (h₁ : t ≠ .brokerInvocations)
    (h₂ : t ≠ .dispositions) (h₃ : t ≠ .brokerInvocationEvents) : isLedgerWrite w = false := by
  subst ht
  cases w <;> first | rfl | exact absurd rfl h₁ | exact absurd rfl h₂ | exact absurd rfl h₃

theorem isCursorWrite_of_ledger (h : isLedgerWrite w = false) : isCursorWrite w = false := by
  cases w <;> first | rfl | cases h

theorem append_ledger {origin : Option EvidenceOrigin} (h : Append origin w) : isLedgerWrite w = false := by
  cases h <;> rfl

theorem runtimeTouch_ledger {runtimeId : String} (h : RuntimeTouch runtimeId w) : isLedgerWrite w = false := by
  cases h; rfl

theorem inputFact_ledger (h : InputFact db w) : isLedgerWrite w = false := by
  cases h with
  | ledger h => exact isLedgerWrite_of_table h nofun nofun nofun
  | event h => exact append_ledger h
  | run h => cases h; rfl

theorem settlement_ledger (h : Settlement db w) : isLedgerWrite w = false := by
  cases h <;> rfl

variable {envelope : InvocationEventEnvelope} {ctx : ProjectionContext}

variable {base : Db}

theorem release_ledger {exactOwner : Bool}
    (h : Release base envelope ctx exactOwner w) : isLedgerWrite w = false := by
  obtain ⟨_, _, _, h⟩ := h
  cases h with
  | superseded => rfl
  | unwedged => rfl
  | cleared => rfl
  | readied _ hw => exact runtimeTouch_ledger hw

theorem format2Write_ledger
    (h : Format2Write base envelope ctx db w) : isLedgerWrite w = false := by
  cases h with
  | fact h => exact inputFact_ledger h
  | ended _ _ h => cases h; rfl
  | released _ h => exact release_ledger h
  | claim _ h => cases h; rfl
  | touch h => exact runtimeTouch_ledger h
  | invocation => rfl
  | watch h => exact isLedgerWrite_of_table h nofun nofun nofun

theorem format1Write_ledger
    (h : Format1Write base envelope ctx db w) : isLedgerWrite w = false := by
  cases h with
  | run h => cases h; rfl
  | launchBound => rfl
  | submissionEnded _ h => cases h; rfl
  | ended _ h => cases h; rfl
  | steer _ _ h => cases h; rfl
  | settled _ h => exact settlement_ledger h
  | released _ h => exact release_ledger h
  | claim _ h => cases h; rfl
  | touch h => exact runtimeTouch_ledger h
  | invocation => rfl
  | watch h => exact isLedgerWrite_of_table h nofun nofun nofun
  | admission h => exact isLedgerWrite_of_table h nofun nofun nofun
  | event h => exact append_ledger h

theorem liveWrite_ledger
    (h : LiveWrite base envelope ctx db w) : isLedgerWrite w = false := by
  cases h with
  | invocation => rfl
  | touch h => exact runtimeTouch_ledger h
  | settled _ h => exact settlement_ledger h
  | fact _ h => exact inputFact_ledger h
  | aside h => rcases h with h | h | h | h | h <;> exact isLedgerWrite_of_table h nofun nofun nofun
  | format1 _ h => exact format1Write_ledger h
  | format2 _ h => exact format2Write_ledger h

theorem retainedWrite_ledger {stale : Bool}
    (h : RetainedWrite base envelope ctx stale db w) : isLedgerWrite w = false := by
  cases h with
  | invocation h => cases h; rfl
  | unresolved _ _ hs _ => exact settlement_ledger hs
  | settled _ h => exact settlement_ledger h
  | ended => rfl
  | admission h => exact isLedgerWrite_of_table h nofun nofun nofun
  | buffer h => exact isLedgerWrite_of_table h nofun nofun nofun

end Frames

section Steps

variable {db db' : Db} {w : Write}

theorem find?_update_lastProjectedSeq {t t' : Table HrcBrokerInvocationRecord [fun r => some r.invocationId]}
    {p : HrcBrokerInvocationRecord → Bool} {f : HrcBrokerInvocationRecord → HrcBrokerInvocationRecord}
    (h : t.update p f = some t') (hid : ∀ r, (f r).invocationId = r.invocationId) (invocationId : String) :
    t'.find? (fun r => r.invocationId == invocationId) = (t.find? fun r => r.invocationId == invocationId).map
      fun r => if p r then f r else r :=
  find?_update h fun r => by rw [hid]

theorem lastProjectedBrokerSeq_of_other (h : w.run db = .ok db') (hw : isCursorWrite w = false)
    (invocationId : String) : lastProjectedBrokerSeq db' invocationId = lastProjectedBrokerSeq db invocationId := by
  by_cases ht : w.table = .brokerInvocations
  · have hr := Write.run_brokerInvocations h
    cases w with
    | updateInvocation id patch =>
      unfold lastProjectedBrokerSeq getByInvocationId
      rw [find?_update_lastProjectedSeq hr fun _ => rfl]
      cases db.brokerInvocations.find? fun r => r.invocationId == invocationId with
      | none => rfl
      | some r =>
        simp only [Option.map_some]
        split <;> rfl
    | setProjectedSeq => cases hw
    | setRetainedSeq => cases hw
    | _ => cases ht
  · unfold lastProjectedBrokerSeq getByInvocationId
    rw [Write.run_brokerInvocations_of_ne h ht]

theorem dispositions_of_other (h : w.run db = .ok db') (hw : isCursorWrite w = false) :
    db'.dispositions = db.dispositions := by
  refine Write.run_dispositions_of_ne h fun ht => ?_
  cases w with
  | insertDisposition => cases hw
  | _ => exact nomatch ht

variable {invocationId : String}

variable {updatedAt : String} {seq : Nat}

theorem lastProjectedBrokerSeq_setProjectedSeq
    (h : (Write.setProjectedSeq invocationId seq updatedAt).run db = .ok db') (invocationId' : String) :
    lastProjectedBrokerSeq db' invocationId' = if invocationId' = invocationId
        ∧ (getByInvocationId db invocationId).isSome then seq else lastProjectedBrokerSeq db invocationId' := by
  unfold lastProjectedBrokerSeq getByInvocationId
  rw [find?_update_lastProjectedSeq (Write.run_brokerInvocations h) fun _ => rfl]
  by_cases hid : invocationId' = invocationId
  · subst hid
    cases hf : db.brokerInvocations.find? fun r => r.invocationId == invocationId' with
    | none => simp
    | some r =>
      have hr : r.invocationId = invocationId' := by simpa using List.find?_some hf
      simp [hr]
  · cases hf : db.brokerInvocations.find? fun r => r.invocationId == invocationId' with
    | none => simp [hid]
    | some r =>
      have hr : r.invocationId = invocationId' := by simpa using List.find?_some hf
      simp [hid, hr]

theorem lastProjectedBrokerSeq_setRetainedSeq {updatedAt : Option String}
    (h : (Write.setRetainedSeq invocationId seq updatedAt).run db = .ok db') (invocationId' : String) :
    lastProjectedBrokerSeq db' invocationId' = lastProjectedBrokerSeq db invocationId' := by
  unfold lastProjectedBrokerSeq getByInvocationId
  rw [find?_update_lastProjectedSeq (Write.run_brokerInvocations h) fun _ => rfl]
  cases db.brokerInvocations.find? fun r => r.invocationId == invocationId' with
  | none => rfl
  | some r =>
    simp only [Option.map_some]
    split <;> rfl

theorem getProjectionDisposition_insert {row : BrokerProjectionDisposition}
    (h : (Write.insertDisposition row).run db = .ok db') (invocationId : String) (seq : Nat) :
    getProjectionDisposition db' invocationId seq = (getProjectionDisposition db invocationId seq).or
      (if row.invocationId == invocationId && row.seq == seq then some row else none) :=
  find?_insert (Write.run_dispositions h) _

theorem run_dispositions_setProjectedSeq
    (h : (Write.setProjectedSeq invocationId seq updatedAt).run db = .ok db') :
    db'.dispositions = db.dispositions := Write.run_dispositions_of_ne h nofun

theorem disposition_of_le_contiguousThrough {cursor q : Nat} (hlo : cursor < q)
    (hhi : q ≤ contiguousThrough db invocationId cursor) : (getProjectionDisposition db invocationId q).isSome = true := by
  have hm := Frontier.mem_of_le_through hlo hhi
  obtain ⟨row, hr, rfl⟩ := List.mem_map.mp hm
  obtain ⟨hr, hk⟩ := List.mem_filter.mp (mem_orderBy.mp hr)
  unfold getProjectionDisposition Table.find?
  rw [List.find?_isSome]
  refine ⟨row, hr, ?_⟩
  rw [Bool.and_eq_true] at hk
  simp [hk.1]

end Steps

section Projection

variable [Host] {envelope : InvocationEventEnvelope} {s : BrokerEventMapper} {db : Db} {w : Write}

inductive CursorEffect (envelope : InvocationEventEnvelope) (db : Db) : Write → Prop where
  | other {w : Write} (h : isCursorWrite w = false) : CursorEffect envelope db w
  | disposed {row : BrokerProjectionDisposition} (hinvocation : row.invocationId = envelope.invocationId)
      (hseq : row.seq = envelope.seq) (hfresh : getProjectionDisposition db row.invocationId row.seq = none) :
      CursorEffect envelope db (.insertDisposition row)
  | advanced {row : HrcBrokerInvocationRecord} (updatedAt : String)
      (hrow : getByInvocationId db envelope.invocationId = some row) :
      CursorEffect envelope db (.setProjectedSeq envelope.invocationId
        (contiguousThrough db envelope.invocationId row.lastProjectedSeq) updatedAt)

theorem projectWrite_cursor (h : ProjectWrite s envelope db w) : CursorEffect envelope db w := by
  cases h with
  | minted _ _ _ h => cases h; exact .other rfl
  | blob => exact .other rfl
  | stored => exact .other rfl
  | projected => exact .other rfl
  | disposed _ hp hfr =>
    obtain ⟨correlation, he⟩ := prepared_persisted hp
    exact .disposed (by rw [Projection.dispositionRow, he]) (by rw [Projection.dispositionRow, he])
      hfr
  | advanced updatedAt hr => exact .advanced updatedAt hr
  | live _ _ _ _ _ h => exact .other (isCursorWrite_of_ledger (liveWrite_ledger h))
  | ended _ _ h => exact .other (by cases h; rfl)
  | retained _ _ _ _ h => exact .other (isCursorWrite_of_ledger (retainedWrite_ledger h))
  | canonical _ h => exact .other (isCursorWrite_of_ledger (append_ledger h))
  | warned _ h => exact .other (isCursorWrite_of_ledger (append_ledger h))
  | artifact => exact .other rfl
  | reading _ _ _ h => exact .other (isCursorWrite_of_ledger (runtimeTouch_ledger h))
  | event _ h => exact .other (isCursorWrite_of_ledger (append_ledger h))
  | fact _ _ _ h => exact .other (isCursorWrite_of_ledger (inputFact_ledger h))
  | withdrawn _ _ _ h =>
    cases h with
    | failed => exact .other rfl
    | cleared => exact .other rfl
    | event h => exact .other (isCursorWrite_of_ledger (append_ledger h))

structure Grows (a b : Db) : Prop where
  kept : ∀ invocationId q, (getProjectionDisposition a invocationId q).isSome = true →
    (getProjectionDisposition b invocationId q).isSome = true
  monotone : ∀ invocationId, lastProjectedBrokerSeq a invocationId ≤ lastProjectedBrokerSeq b invocationId
  covered : ∀ invocationId q, lastProjectedBrokerSeq a invocationId < q → q ≤ lastProjectedBrokerSeq b invocationId →
    (getProjectionDisposition b invocationId q).isSome = true

omit [Host] in
theorem Grows.refl (a : Db) : Grows a a := ⟨fun _ _ h => h, fun _ => Nat.le_refl _, fun _ _ h h' => by omega⟩

omit [Host] in
theorem Grows.trans {a b c : Db} (h : Grows a b) (h' : Grows b c) : Grows a c where
  kept invocationId q hq := h'.kept _ _ (h.kept _ _ hq)
  monotone invocationId := Nat.le_trans (h.monotone _) (h'.monotone _)
  covered invocationId q hlo hhi := by
    rcases Nat.lt_or_ge (lastProjectedBrokerSeq b invocationId) q with hq | hq
    · exact h'.covered _ _ hq hhi
    · exact h'.kept _ _ (h.covered _ _ hlo hq)

omit [Host] in
theorem Grows.of_same {a b : Db} (hd : b.dispositions = a.dispositions)
    (hc : ∀ invocationId, lastProjectedBrokerSeq b invocationId = lastProjectedBrokerSeq a invocationId) : Grows a b := by
  refine ⟨fun invocationId q hq => ?_, fun invocationId => Nat.le_of_eq (hc _).symm, fun invocationId q hlo hhi => ?_⟩
  · unfold getProjectionDisposition at *
    rwa [hd]
  · have := hc invocationId
    omega

omit [Host] in
theorem cursorEffect_grows {db' : Db} (hw : CursorEffect envelope db w) (h : w.run db = .ok db') : Grows db db' := by
  cases hw with
  | other hw => exact .of_same (dispositions_of_other h hw) (lastProjectedBrokerSeq_of_other h hw)
  | @disposed row =>
    have hc (invocationId : String) :
        lastProjectedBrokerSeq db' invocationId = lastProjectedBrokerSeq db invocationId := by
      unfold lastProjectedBrokerSeq getByInvocationId
      rw [Write.run_brokerInvocations_of_ne h nofun]
    refine ⟨fun invocationId q hq => ?_, fun invocationId => Nat.le_of_eq (hc _).symm, fun invocationId q hlo hhi => ?_⟩
    · rw [getProjectionDisposition_insert h]
      obtain ⟨row, hr⟩ := Option.isSome_iff_exists.mp hq
      rw [hr]
      rfl
    · rw [hc] at hhi
      omega
  | @advanced row updatedAt hr =>
    have hd := run_dispositions_setProjectedSeq h
    have hl : lastProjectedBrokerSeq db envelope.invocationId = row.lastProjectedSeq := by
      unfold lastProjectedBrokerSeq
      rw [hr]
      rfl
    have hle : row.lastProjectedSeq ≤ contiguousThrough db envelope.invocationId row.lastProjectedSeq :=
      Frontier.le_through _ _
    refine ⟨fun invocationId q hq => ?_, fun invocationId => ?_, fun invocationId q hlo hhi => ?_⟩
    · unfold getProjectionDisposition at *
      rwa [hd]
    · rw [lastProjectedBrokerSeq_setProjectedSeq h]
      split
      · rename_i hid
        rw [hid.1, hl]
        exact hle
      · exact Nat.le_refl _
    · rw [lastProjectedBrokerSeq_setProjectedSeq h] at hhi
      split at hhi
      · rename_i hid
        rw [hid.1, hl] at hlo
        have := disposition_of_le_contiguousThrough hlo hhi
        unfold getProjectionDisposition at *
        rwa [hd, hid.1]
      · omega

theorem project_grows {t : BrokerEventMapper} {r : Except HrcError BrokerProjectionResult}
    (h : project envelope s = (r, t)) : Grows s.db t.db := by
  have hch := project_writesFrom envelope s
  have hg := hch.preserves (I := fun u => Grows s.db u.db) (fun a b hs ha => by
    cases hs with
    | quiet hq => rwa [hq.db]
    | write w hw hr => exact ha.trans (cursorEffect_grows (projectWrite_cursor hw) hr)) (.refl _)
  rwa [h] at hg

end Projection

section Runs

variable [Host]

def Received (calls : List Call) (invocationId : String) (q : Nat) : Prop :=
  ∃ envelope, .project false envelope ∈ calls ∧ isIgnoredBrokerDelta envelope = true ∧
    envelope.invocationId = invocationId ∧ envelope.seq = q

def Accounted (calls : List Call) (db : Db) (invocationId : String) (q : Nat) : Prop :=
  (getProjectionDisposition db invocationId q).isSome = true ∨ Received calls invocationId q

structure Sound (start : Db) (calls : List Call) (s : BrokerEventMapper) : Prop where
  monotone : ∀ invocationId, lastProjectedBrokerSeq start invocationId ≤ lastProjectedBrokerSeq s.db invocationId
  cursor : ∀ invocationId q, lastProjectedBrokerSeq start invocationId < q →
    q ≤ lastProjectedBrokerSeq s.db invocationId → Accounted calls s.db invocationId q
  pending : ∀ invocationId delta, s.ignoredDeltaCursors invocationId = some delta → ∀ q,
    lastProjectedBrokerSeq start invocationId < q → q ≤ delta.throughSeq → Accounted calls s.db invocationId q

variable {start : Db} {calls : List Call} {s t : BrokerEventMapper}

variable {invocationId : String} {retained : Bool}

omit [Host] in
theorem Accounted.grow {db db' : Db} {q : Nat} (hg : Grows db db') (calls' : List Call)
    (h : Accounted calls db invocationId q) : Accounted (calls ++ calls') db' invocationId q := by
  rcases h with h | ⟨envelope, hm, hr⟩
  · exact .inl (hg.kept _ _ h)
  · exact .inr ⟨envelope, List.mem_append_left _ hm, hr⟩

omit [Host] in
theorem Sound.grow (hs : Sound start calls s) (calls' : List Call) (hg : Grows s.db t.db)
    (hp : ∀ invocationId delta, t.ignoredDeltaCursors invocationId = some delta →
      s.ignoredDeltaCursors invocationId = some delta) : Sound start (calls ++ calls') t where
  monotone invocationId := Nat.le_trans (hs.monotone _) (hg.monotone _)
  cursor invocationId q hlo hhi := by
    rcases Nat.lt_or_ge (lastProjectedBrokerSeq s.db invocationId) q with hq | hq
    · exact .inl (hg.covered _ _ hq hhi)
    · exact (hs.cursor _ _ hlo hq).grow hg calls'
  pending invocationId delta hdelta q hlo hhi := (hs.pending _ _ (hp _ _ hdelta) _ hlo hhi).grow hg calls'

omit [Host] in
theorem lastProjectedBrokerSeq_row {db : Db} {row : HrcBrokerInvocationRecord}
    (h : getByInvocationId db invocationId = some row) : lastProjectedBrokerSeq db invocationId = row.lastProjectedSeq := by
  unfold lastProjectedBrokerSeq
  rw [h]
  rfl

omit [Host] in
theorem Sound.fold {db : Db} (hs : Sound start calls s)
    (h : Folded retained invocationId s.db (cursors retained s invocationId) db) :
    Sound start calls { s with db } := by
  cases h with
  | kept => exact hs
  | @folded row delta _ updatedAt hr hdelta habv hrun =>
    cases retained with
    | true =>
      have hg : Grows s.db db := .of_same (Write.run_dispositions_of_ne hrun nofun)
        (lastProjectedBrokerSeq_setRetainedSeq hrun)
      have := hs.grow (t := { s with db }) [] hg fun _ _ h => h
      rwa [List.append_nil] at this
    | false =>
      have hl := lastProjectedBrokerSeq_setProjectedSeq hrun
      have hd : db.dispositions = s.db.dispositions := run_dispositions_setProjectedSeq hrun
      have hsm (id : String) (q : Nat) (h : Accounted calls s.db id q) : Accounted calls db id q := by
        unfold Accounted getProjectionDisposition at *
        rwa [hd]
      have hrow' : (getByInvocationId s.db invocationId).isSome = true := by rw [hr]; rfl
      refine ⟨fun id => ?_, fun id q hlo hhi => ?_, fun id delta' hd' q hlo hhi =>
        hsm _ _ (hs.pending _ _ hd' _ hlo hhi)⟩
      · rw [hl]
        split
        · rename_i hid
          have hle := hs.monotone id
          rw [hid.1, lastProjectedBrokerSeq_row hr] at hle
          rw [hid.1]
          exact Nat.le_trans hle (Nat.le_of_lt habv)
        · exact hs.monotone id
      · rw [hl] at hhi
        split at hhi
        · rename_i hid
          rw [hid.1] at hlo ⊢
          exact hsm _ _ (hs.pending _ _ hdelta _ hlo hhi)
        · exact hsm _ _ (hs.cursor _ _ hlo hhi)

omit [Host] in
theorem setCursor_pending {id : String} {delta : PendingDelta}
    (h : (setCursor retained invocationId none s).ignoredDeltaCursors id = some delta) :
    s.ignoredDeltaCursors id = some delta := by
  unfold setCursor at h
  split at h
  · exact h
  · by_cases hid : id = invocationId
    · subst hid
      simp at h
    · simpa [Function.update_of_ne hid] using h

variable {envelope : InvocationEventEnvelope}

theorem committed_sound {result : BrokerProjectionResult}
    (hs : Sound start calls s) (h : Committed retained envelope s result t) (calls' : List Call) :
    Sound start (calls ++ calls') t := by
  obtain ⟨⟨u, v, hu, hf, hp, hh⟩, _, hc, _⟩ := h
  have hg := project_grows hp
  have hdb : Grows v.db t.db := by
    split at hh
    · obtain ⟨seq, hr⟩ := hh
      exact .of_same (Write.run_dispositions_of_ne hr nofun) (lastProjectedBrokerSeq_setRetainedSeq hr)
    · rw [hh]
      exact .refl _
  refine (hs.fold hf).grow calls' (hg.trans hdb) fun id delta hdelta => ?_
  rw [hc] at hdelta
  exact setCursor_pending (s := s) hdelta

omit [Host] in
theorem extended_sound {pending : PendingDelta} {cursor : Nat}
    (hs : Sound start calls s) (hdelta : isIgnoredBrokerDelta envelope = true)
    (hbs : DeltaBase retained envelope.invocationId s cursor) (hseq : envelope.seq = cursor + 1)
    (hp : pending.throughSeq = envelope.seq) :
    Sound start (calls ++ [.project retained envelope])
      (setCursor retained envelope.invocationId (some pending) s) := by
  have hg : Sound start (calls ++ [.project retained envelope]) s :=
    hs.grow _ (.refl _) fun _ _ h => h
  cases retained with
  | true => exact ⟨hg.monotone, hg.cursor, hg.pending⟩
  | false =>
    refine ⟨hg.monotone, hg.cursor, fun id delta h q hlo hhi => ?_⟩
    by_cases hid : id = envelope.invocationId
    · subst hid
      have hd : delta = pending := by simpa [setCursor] using h.symm
      subst hd
      rcases Nat.lt_or_ge cursor q with hq | hq
      · have hq : q = envelope.seq := by omega
        exact .inr ⟨envelope, by simp, hdelta, rfl, hq.symm⟩
      · unfold DeltaBase at hbs
        split at hbs
        · exact hg.pending _ _ ‹_› _ hlo (hbs ▸ hq)
        · obtain ⟨row, hr, rfl⟩ := hbs
          refine hg.cursor _ _ hlo ?_
          rw [lastProjectedBrokerSeq_row hr]
          exact hq
    · refine hg.pending id delta ?_ q hlo hhi
      simpa [setCursor, Function.update_of_ne hid] using h

theorem outcome_sound {c : Call} {r : Except HrcError (Option BrokerProjectionResult)} (hs : Sound start calls s)
    (h : Outcome s c r t) : Sound start (calls ++ [c]) t := by
  have hsm : Sound start (calls ++ [c]) s := hs.grow _ (.refl _) fun _ _ h => h
  cases h with
  | thrown h =>
    refine hs.grow _ ?_ fun _ _ hd => ?_
    · rw [h.db]
      exact .refl _
    · rwa [h.ignoredDeltaCursors] at hd
  | repeated => exact hsm
  | extended hdelta hbs hseq hp => exact extended_sound hs hdelta hbs hseq hp
  | idle => exact hsm
  | @flushed retained invocationId u hu _ hf =>
    refine ((hs.fold hf).grow (t := setCursor retained invocationId none u) _ ?_ fun id delta h => ?_)
    · unfold setCursor
      split <;> exact .refl _
    · have := setCursor_pending h
      rwa [hu.ignoredDeltaCursors] at this
  | projected _ h => exact committed_sound hs h _
  | unlogged _ _ _ h => exact committed_sound hs h _

theorem runCalls_sound {past : List Call} (calls : List Call) (hs : Sound start past s) (hf : s.retainedProjection = false) :
    Sound start (past ++ calls) (runCalls calls s) := by
  induction calls generalizing past s with
  | nil =>
    rw [List.append_nil]
    exact hs
  | cons c calls ih =>
    have hout := call_outcome hf c
    have := ih (outcome_sound hs hout) (outcome_retainedProjection hf hout)
    rwa [List.append_assoc] at this

theorem runCalls_append (calls later : List Call) (s : BrokerEventMapper) :
    runCalls (calls ++ later) s = runCalls later (runCalls calls s) := by
  induction calls generalizing s with
  | nil => rfl
  | cons c calls ih => exact ih _

theorem runCalls_retainedProjection (hs : s.retainedProjection = false) :
    (runCalls calls s).retainedProjection = false :=
  runCalls_preserves (fun _ _ _ _ h hout _ => outcome_retainedProjection h hout) hs hs

/-- After every run of calls on a fresh mapper, thrown calls included: a number above the initial
cursor that the cursor covers has a disposition or came as a raw delta, later calls never move the
cursor back, and an acknowledgement never passes it. -/
theorem cursor_sound (hs : Fresh s) (calls later : List Call) (invocationId : String) :
    (∀ q, lastProjectedBrokerSeq s.db invocationId < q →
      q ≤ lastProjectedBrokerSeq (runCalls calls s).db invocationId →
      Accounted calls (runCalls calls s).db invocationId q) ∧
    lastProjectedBrokerSeq (runCalls calls s).db invocationId
      ≤ lastProjectedBrokerSeq (runCalls (calls ++ later) s).db invocationId ∧
    ∀ active serverInstanceId request,
      (ackCommittedProjection (runCalls calls s).db active serverInstanceId invocationId).1 = some request →
      request.invocationId = invocationId ∧
        request.throughSeq ≤ lastProjectedBrokerSeq (runCalls calls s).db invocationId := by
  have hfr : Sound s.db [] s := by
    refine ⟨fun _ => Nat.le_refl _, fun _ q h h' => by omega, fun id delta h => ?_⟩
    rw [hs.ignoredDeltaCursors] at h
    cases h
  have hr : Sound s.db calls (runCalls calls s) := by
    simpa using runCalls_sound calls hfr hs.retainedProjection
  refine ⟨hr.cursor invocationId, ?_, fun active serverInstanceId request h => ?_⟩
  · have hn : Sound (runCalls calls s).db calls (runCalls calls s) :=
      ⟨fun _ => Nat.le_refl _, fun _ q h h' => by omega, fun id delta h q hlo hhi =>
        hr.pending id delta h q (Nat.lt_of_le_of_lt (hr.monotone id) hlo) hhi⟩
    have hl := runCalls_sound later hn (runCalls_retainedProjection hs.retainedProjection)
    rw [runCalls_append]
    exact hl.monotone invocationId
  · obtain ⟨hid, hseq⟩ := ackCommittedProjection_request h
    exact ⟨hid, Nat.le_of_eq hseq⟩

end Runs

/-- Two events with a raw delta between them move the cursor over all three. -/
theorem cursor_sound_sample :
    let calls : List Call := [.project false (sampleEvent 1 .diagnostic),
      .project false (sampleEvent 2 .assistantMessageDelta), .project false (sampleEvent 3 .diagnostic)]
    letI := steadyHost
    lastProjectedBrokerSeq (runCalls calls sampleMapper).db "inv" = 3 ∧
      ∀ q, 0 < q → q ≤ 3 → Accounted calls (runCalls calls sampleMapper).db "inv" q := by
  intro calls
  let _ := steadyHost
  have hc : lastProjectedBrokerSeq (runCalls calls sampleMapper).db "inv" = 3 := by decide +kernel
  refine ⟨hc, fun q hlo hhi => ?_⟩
  exact (cursor_sound sampleMapper_fresh calls [] "inv").1 q hlo (hc ▸ hhi)

end HrcRuntime.CursorSoundness
