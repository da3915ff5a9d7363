import HrcRuntime.CursorSoundness

namespace HrcRuntime.CursorCompleteness

open Records Relational Database Program Mapper EventRepository ProjectEnvelope
open ProjectionWrites EventMapper Calls Controller CursorSoundness

def Tight (db : Db) (invocationId : String) : Prop :=
  getProjectionDisposition db invocationId (lastProjectedBrokerSeq db invocationId + 1) = none

structure SameLedger (invocationId : String) (a b : Db) : Prop where
  cursor : lastProjectedBrokerSeq b invocationId = lastProjectedBrokerSeq a invocationId
  disposition : ∀ q, getProjectionDisposition b invocationId q = getProjectionDisposition a invocationId q

section Ledger

variable {db db' : Db} {w : Write} {invocationId : String}

theorem SameLedger.refl (invocationId : String) (a : Db) : SameLedger invocationId a a := ⟨rfl, fun _ => rfl⟩

theorem SameLedger.trans {a b c : Db} (h : SameLedger invocationId a b) (h' : SameLedger invocationId b c) :
    SameLedger invocationId a c :=
  ⟨h'.cursor.trans h.cursor, fun q => (h'.disposition q).trans (h.disposition q)⟩

theorem SameLedger.tight {a b : Db} (h : SameLedger invocationId a b) (ha : Tight a invocationId) :
    Tight b invocationId := by
  unfold Tight
  rw [h.cursor, h.disposition]
  exact ha

theorem sameLedger_of_other (h : w.run db = .ok db') (hw : isCursorWrite w = false) (invocationId : String) :
    SameLedger invocationId db db' := by
  refine ⟨lastProjectedBrokerSeq_of_other h hw invocationId, fun q => ?_⟩
  unfold getProjectionDisposition
  rw [dispositions_of_other h hw]

theorem dispositions_ascending (db : Db) (invocationId : String) (cursor : Nat) :
    ((orderBy (·.seq) (db.dispositions.rows.filter fun r =>
      r.invocationId == invocationId && decide (cursor < r.seq))).map (·.seq)).Pairwise (· < ·) := by
  have hd : (db.dispositions.rows.filter fun r =>
      r.invocationId == invocationId && decide (cursor < r.seq)).Pairwise (·.seq ≠ ·.seq) := by
    have hu := List.Pairwise.filter (fun r : BrokerProjectionDisposition =>
      r.invocationId == invocationId && decide (cursor < r.seq)) db.dispositions.unique
    refine List.Pairwise.imp_of_mem (fun {a b} ha hb h hs => ?_) hu
    have hid {r : BrokerProjectionDisposition} (hr : r ∈ db.dispositions.rows.filter fun r =>
        r.invocationId == invocationId && decide (cursor < r.seq)) : r.invocationId = invocationId := by
      have := (List.mem_filter.mp hr).2
      rw [Bool.and_eq_true] at this
      exact beq_iff_eq.mp this.1
    refine h _ List.mem_cons_self ⟨rfl, ?_⟩
    dsimp only
    rw [hid ha, hid hb, hs]
  have hp := List.perm_insertionSort (fun a b : BrokerProjectionDisposition => a.seq ≤ b.seq)
    (db.dispositions.rows.filter fun r => r.invocationId == invocationId && decide (cursor < r.seq))
  rw [List.pairwise_map]
  refine List.Pairwise.imp (fun h => Nat.lt_of_le_of_ne h.1 h.2)
    (List.Pairwise.and (pairwise_orderBy _ _) ((hp.pairwise_iff fun h => h.symm).mpr hd))

theorem disposition_contiguousThrough_succ (db : Db) (invocationId : String) (cursor : Nat) :
    getProjectionDisposition db invocationId (contiguousThrough db invocationId cursor + 1) = none := by
  by_contra hne
  obtain ⟨row, hrow⟩ := Option.ne_none_iff_exists'.mp hne
  have hk := List.find?_some hrow
  rw [Bool.and_eq_true] at hk
  have hs : row.seq = contiguousThrough db invocationId cursor + 1 := by simpa using hk.2
  have hle : cursor ≤ contiguousThrough db invocationId cursor := Frontier.le_through _ _
  refine Frontier.through_succ_not_mem cursor (dispositions_ascending db invocationId cursor)
    (fun n hn => ?_) ?_
  · obtain ⟨r, hr, rfl⟩ := List.mem_map.mp hn
    have := (List.mem_filter.mp (mem_orderBy.mp hr)).2
    rw [Bool.and_eq_true] at this
    exact of_decide_eq_true this.2
  · refine List.mem_map.mpr ⟨row, mem_orderBy.mpr (List.mem_filter.mpr ⟨List.mem_of_find?_eq_some hrow, ?_⟩), hs⟩
    rw [hk.1, Bool.true_and]
    exact decide_eq_true (by omega)

variable {envelope : InvocationEventEnvelope}

theorem cursorEffect_sameLedger (hw : CursorEffect envelope db w)
    (h : w.run db = .ok db') (hne : invocationId ≠ envelope.invocationId) : SameLedger invocationId db db' := by
  cases hw with
  | other hw => exact sameLedger_of_other h hw invocationId
  | @disposed row hi =>
    refine ⟨?_, fun q => ?_⟩
    · unfold lastProjectedBrokerSeq getByInvocationId
      rw [Write.run_brokerInvocations_of_ne h nofun]
    · rw [getProjectionDisposition_insert h, hi, if_neg (by simp [hne.symm]), Option.or_none]
  | advanced =>
    refine ⟨?_, fun q => ?_⟩
    · rw [lastProjectedBrokerSeq_setProjectedSeq h, if_neg fun hid => hne hid.1]
    · unfold getProjectionDisposition
      rw [run_dispositions_setProjectedSeq h]

theorem cursorEffect_disposes (hw : CursorEffect envelope db w)
    (h : w.run db = .ok db') {q : Nat} (hq : (getProjectionDisposition db' invocationId q).isSome = true) :
    (getProjectionDisposition db invocationId q).isSome = true ∨
      (invocationId = envelope.invocationId ∧ q = envelope.seq) := by
  cases hw with
  | other hw =>
    unfold getProjectionDisposition at *
    rw [dispositions_of_other h hw] at hq
    exact .inl hq
  | @disposed row hi hs =>
    rw [getProjectionDisposition_insert h] at hq
    cases hold : getProjectionDisposition db invocationId q with
    | some _ => exact .inl rfl
    | none =>
      rw [hold, Option.none_or] at hq
      split at hq
      · rename_i hk
        rw [Bool.and_eq_true, beq_iff_eq, beq_iff_eq] at hk
        exact .inr ⟨hk.1.symm.trans hi, hk.2.symm.trans hs⟩
      · cases hq
  | advanced =>
    unfold getProjectionDisposition at *
    rw [run_dispositions_setProjectedSeq h] at hq
    exact .inl hq

end Ledger

section Project

variable [Host] {envelope : InvocationEventEnvelope} {s t : BrokerEventMapper} {p : Projection}

variable {result : BrokerProjectionResult} {invocationId : String}

theorem advance_tight {updatedAt : String} {n : Nat}
    (h : advanceContiguousProjectionCursor invocationId updatedAt s = (.ok n, t)) :
    Tight t.db invocationId ∧ t.db.dispositions = s.db.dispositions := by
  rw [advanceContiguousProjectionCursor, query_bind] at h
  obtain ⟨row, hr, h⟩ := requireRecord_bind_eq_ok.mp h
  rw [query_bind] at h
  obtain ⟨_, u, hw, hp⟩ := bind_eq_ok.mp h
  cases hp
  have hs := disposition_contiguousThrough_succ s.db invocationId row.lastProjectedSeq
  by_cases hm : contiguousThrough s.db invocationId row.lastProjectedSeq = row.lastProjectedSeq
  · rw [Prog.when, if_neg (by simp [hm])] at hw
    cases hw
    refine ⟨?_, rfl⟩
    rw [hm] at hs
    unfold Tight
    rwa [lastProjectedBrokerSeq_row hr]
  · rw [Prog.when, if_pos (by simp [hm])] at hw
    obtain ⟨db, hrun, rfl⟩ := statement_eq_ok hw
    have hd := run_dispositions_setProjectedSeq hrun
    refine ⟨?_, hd⟩
    unfold Tight getProjectionDisposition
    rw [lastProjectedBrokerSeq_setProjectedSeq hrun, if_pos ⟨rfl, by rw [hr]; rfl⟩, hd]
    exact hs

theorem commitDisposition_tight {disposition : Disposition} {a : Unit}
    (h : commitDisposition p disposition s = (.ok a, t)) :
    (getProjectionDisposition t.db p.persistedEnvelope.invocationId p.persistedEnvelope.seq).isSome = true ∧
      Tight t.db p.persistedEnvelope.invocationId := by
  obtain ⟨_, u, hr, h⟩ := bind_eq_ok.mp h
  obtain ⟨_, _, hadv, hpr⟩ := bind_eq_ok.mp h
  cases hpr
  obtain ⟨ht, hs⟩ := advance_tight hadv
  refine ⟨?_, ht⟩
  have hre :
      (getProjectionDisposition u.db p.persistedEnvelope.invocationId p.persistedEnvelope.seq).isSome = true := by
    rw [recordProjectionDisposition, query_bind] at hr
    cases hp : getProjectionDisposition s.db (p.dispositionRow disposition).invocationId
        (p.dispositionRow disposition).seq with
    | some prior =>
      rw [hp] at hr
      dsimp only at hr
      split at hr
      · cases hr
      · cases hr
        exact Option.isSome_iff_exists.mpr ⟨prior, hp⟩
    | none =>
      rw [hp] at hr
      obtain ⟨db, hrun, rfl⟩ := statement_eq_ok hr
      dsimp only
      rw [getProjectionDisposition_insert hrun]
      simp [Projection.dispositionRow]
  unfold getProjectionDisposition at *
  rwa [hs]

theorem prepare_sameLedger {r : Except HrcError Projection} (h : prepare envelope s = (r, t)) (invocationId : String) :
    SameLedger invocationId s.db t.db := by
  have hch : WritesFrom (fun _ w => isCursorWrite w = false) s (prepare envelope) :=
    prepare_writesFrom (fun _ _ _ _ _ _ _ hm => by cases hm; rfl) (fun _ _ => rfl) fun _ _ _ _ _ _ _ => rfl
  have hs := hch.preserves (I := fun u => SameLedger invocationId s.db u.db) (fun a b hst ha => by
    cases hst with
    | quiet hq => rwa [hq.db]
    | write w hw hr => exact ha.trans (sameLedger_of_other hr hw invocationId)) (.refl _ _)
  rwa [h] at hs

theorem project_eq_ok (h : project envelope s = (.ok result, t)) :
    ∃ p u, prepare envelope s = (.ok p, u) ∧ projectVerdict p (verdict u.db p) u = (.ok result, t) := by
  obtain ⟨p, u, hp, h⟩ := bind_eq_ok.mp h
  rw [query_bind] at h
  exact ⟨p, u, hp, h⟩

theorem projectFresh_commits (h : projectFresh p s = (.ok result, t)) :
    ∃ u, commitDisposition p .applied u = (.ok (), t) := by
  obtain ⟨_, _, _, h⟩ := bind_eq_ok.mp h
  rw [query_bind] at h
  obtain ⟨_, _, _, h⟩ := bind_eq_ok.mp h
  obtain ⟨_, _, _, h⟩ := bind_eq_ok.mp h
  obtain ⟨_, _, _, h⟩ := bind_eq_ok.mp h
  obtain ⟨_, _, _, h⟩ := bind_eq_ok.mp h
  obtain ⟨_, _, _, h⟩ := bind_eq_ok.mp h
  obtain ⟨_, _, _, h⟩ := bind_eq_ok.mp h
  obtain ⟨_, _, _, h⟩ := bind_eq_ok.mp h
  obtain ⟨_, _, _, h⟩ := bind_eq_ok.mp h
  obtain ⟨_, u, hc, h⟩ := bind_eq_ok.mp h
  cases h
  exact ⟨_, hc⟩

theorem replayed_covered {u : BrokerEventMapper} (hp : prepare envelope s = (.ok p, u))
    (h : verdict u.db p = .replayed) :
    (getProjectionDisposition s.db envelope.invocationId envelope.seq).isSome = true ∨
      envelope.seq ≤ lastProjectedBrokerSeq s.db envelope.invocationId := by
  obtain ⟨correlation, he⟩ := prepared_persisted hp
  obtain ⟨_, hr, _, _⟩ := prepare_eq_ok hp
  have hrow := lastProjectedBrokerSeq_row (resolved hr).invocation
  unfold verdict at h
  rw [he] at h
  split at h
  · rename_i prior hpri
    refine .inl ?_
    rw [← (prepare_sameLedger hp envelope.invocationId).disposition, hpri]
    rfl
  · split at h
    · rename_i hle
      exact .inr (hrow ▸ hle)
    · split at h
      · cases h
      · split at h <;> cases h

/-- A projection that returns disposes its number and moves the cursor as far as it goes, or it is
a replay and leaves the ledger alone. -/
theorem project_tight (h : project envelope s = (.ok result, t)) :
    ((getProjectionDisposition t.db envelope.invocationId envelope.seq).isSome = true ∧
      Tight t.db envelope.invocationId) ∨
    (SameLedger envelope.invocationId s.db t.db ∧
      ((getProjectionDisposition s.db envelope.invocationId envelope.seq).isSome = true ∨
        envelope.seq ≤ lastProjectedBrokerSeq s.db envelope.invocationId)) := by
  obtain ⟨p, u, hp, h⟩ := project_eq_ok h
  obtain ⟨correlation, he⟩ := prepared_persisted hp
  have hc {v : BrokerEventMapper} {disposition : Disposition} {a : Unit}
      (hcm : commitDisposition p disposition v = (.ok a, t)) :
      (getProjectionDisposition t.db envelope.invocationId envelope.seq).isSome = true ∧
        Tight t.db envelope.invocationId := by
    have := commitDisposition_tight hcm
    rwa [he] at this
  cases hv : verdict u.db p with
  | conflict =>
    rw [hv] at h
    cases h
  | replayed =>
    rw [hv] at h
    cases h
    exact .inr ⟨prepare_sameLedger hp _, replayed_covered hp hv⟩
  | settled disposition =>
    rw [hv] at h
    obtain ⟨_, _, hcm, hpr⟩ := bind_eq_ok.mp h
    cases hpr
    exact .inl (hc hcm)
  | fenced error =>
    rw [hv] at h
    obtain ⟨_, _, _, h⟩ := bind_eq_ok.mp h
    obtain ⟨_, _, hcm, hpr⟩ := bind_eq_ok.mp h
    cases hpr
    exact .inl (hc hcm)
  | fresh =>
    rw [hv] at h
    obtain ⟨_, hcm⟩ := projectFresh_commits h
    exact .inl (hc hcm)

variable {r : Except HrcError BrokerProjectionResult}

theorem project_sameLedger
    (h : project envelope s = (r, t)) (hne : invocationId ≠ envelope.invocationId) :
    SameLedger invocationId s.db t.db := by
  have hs := (project_writesFrom envelope s).preserves
    (I := fun u => SameLedger invocationId s.db u.db) (fun a b hst ha => by
      cases hst with
      | quiet hq => rwa [hq.db]
      | write w hw hr => exact ha.trans (cursorEffect_sameLedger (projectWrite_cursor hw) hr hne)) (.refl _ _)
  rwa [h] at hs

theorem project_disposes {q : Nat}
    (h : project envelope s = (r, t)) (hq : (getProjectionDisposition t.db invocationId q).isSome = true) :
    (getProjectionDisposition s.db invocationId q).isSome = true ∨
      (invocationId = envelope.invocationId ∧ q = envelope.seq) := by
  have hall := (project_writesFrom envelope s).preserves
    (I := fun u => (getProjectionDisposition u.db invocationId q).isSome = true →
      (getProjectionDisposition s.db invocationId q).isSome = true ∨
        (invocationId = envelope.invocationId ∧ q = envelope.seq)) (fun a b hs ha => by
      cases hs with
      | quiet hq => rwa [hq.db]
      | write w hw hr => exact fun hb => (cursorEffect_disposes (projectWrite_cursor hw) hr hb).elim ha .inr) .inl
  rw [h] at hall
  exact hall hq

end Project

section Runs

variable [Host]

def Call.isLive : Call → Bool
  | .project retained _ => !retained
  | .flush retained _ => !retained

def Call.invocationId : Call → String
  | .project _ envelope => envelope.invocationId
  | .flush _ invocationId => invocationId

def Call.delivers (invocationId : String) (q : Nat) : Call → Prop
  | .project _ envelope => envelope.invocationId = invocationId ∧ envelope.seq = q
  | .flush _ _ => False

def Call.commits : Call → Bool
  | .project _ envelope => !isIgnoredBrokerDelta envelope
  | .flush _ _ => true

def Delivered (invocationId : String) (q : Nat) : List Call → BrokerEventMapper → Prop
  | [], _ => False
  | c :: calls, s =>
    (Call.delivers invocationId q c ∧ (c.run s).1.isOk = true) ∨ Delivered invocationId q calls (c.run s).2

def EndsBelowDisposed (s : BrokerEventMapper) (invocationId : String) : Prop :=
  ∃ delta ∈ s.ignoredDeltaCursors invocationId, lastProjectedBrokerSeq s.db invocationId < delta.throughSeq ∧
    (getProjectionDisposition s.db invocationId (delta.throughSeq + 1)).isSome = true

/-- The call folds such a range and moves the cursor no further: a flush, or the replay of a number
that is disposed already or that the range covers. -/
def Strands (s : BrokerEventMapper) : Call → Prop
  | .project _ envelope => isIgnoredBrokerDelta envelope = false ∧ EndsBelowDisposed s envelope.invocationId ∧
      ((getProjectionDisposition s.db envelope.invocationId envelope.seq).isSome = true ∨
        ∃ delta ∈ s.ignoredDeltaCursors envelope.invocationId, envelope.seq ≤ delta.throughSeq)
  | .flush _ invocationId => EndsBelowDisposed s invocationId

def NeverStrands (invocationId : String) : List Call → BrokerEventMapper → Prop
  | [], _ => True
  | c :: calls, s => (Call.invocationId c = invocationId → ¬ Strands s c) ∧ NeverStrands invocationId calls (c.run s).2

instance (invocationId : String) (q : Nat) : DecidablePred (Call.delivers invocationId q)
  | .project .. => by unfold Call.delivers; infer_instance
  | .flush .. => by unfold Call.delivers; infer_instance

instance (s : BrokerEventMapper) (invocationId : String) : Decidable (EndsBelowDisposed s invocationId) := by
  unfold EndsBelowDisposed; infer_instance

instance (s : BrokerEventMapper) : DecidablePred (Strands s)
  | .project .. => by unfold Strands; infer_instance
  | .flush .. => by unfold Strands; infer_instance

instance decidableDelivered (invocationId : String) (q : Nat) :
    (calls : List Call) → (s : BrokerEventMapper) → Decidable (Delivered invocationId q calls s)
  | [], _ => isFalse id
  | c :: calls, s =>
    have := decidableDelivered invocationId q calls (c.run s).2
    inferInstanceAs (Decidable (_ ∨ _))

instance decidableNeverStrands (invocationId : String) :
    (calls : List Call) → (s : BrokerEventMapper) → Decidable (NeverStrands invocationId calls s)
  | [], _ => isTrue trivial
  | c :: calls, s =>
    have := decidableNeverStrands invocationId calls (c.run s).2
    inferInstanceAs (Decidable (_ ∧ _))

/-- The numbers in `A` are covered by the cursor, disposed or pending, and none is beyond `n`. -/
structure Complete (invocationId : String) (n : Nat) (A : Nat → Prop) (s : BrokerEventMapper) : Prop where
  retainedProjection : s.retainedProjection = false
  tight : Tight s.db invocationId
  accounted : ∀ q, A q → q ≤ lastProjectedBrokerSeq s.db invocationId ∨
    (getProjectionDisposition s.db invocationId q).isSome = true ∨
    ∃ delta, s.ignoredDeltaCursors invocationId = some delta ∧ q ≤ delta.throughSeq
  cursor_le : lastProjectedBrokerSeq s.db invocationId ≤ n
  disposition_le : ∀ q, (getProjectionDisposition s.db invocationId q).isSome = true → q ≤ n
  pending_le : ∀ delta, s.ignoredDeltaCursors invocationId = some delta → delta.throughSeq ≤ n

variable {invocationId : String} {n : Nat} {A A' : Nat → Prop} {s t : BrokerEventMapper}

omit [Host] in
theorem Complete.of_same (hs : Complete invocationId n A s) (hf : t.retainedProjection = false)
    (hl : SameLedger invocationId s.db t.db)
    (hp : t.ignoredDeltaCursors invocationId = s.ignoredDeltaCursors invocationId) (hA : ∀ q, A' q → A q) :
    Complete invocationId n A' t where
  retainedProjection := hf
  tight := hl.tight hs.tight
  accounted q hq := by
    rw [hl.cursor, hl.disposition, hp]
    exact hs.accounted q (hA q hq)
  cursor_le := by
    rw [hl.cursor]
    exact hs.cursor_le
  disposition_le q hq := hs.disposition_le q (by rwa [hl.disposition] at hq)
  pending_le delta hdelta := hs.pending_le delta (by rwa [hp] at hdelta)

structure FoldComplete (invocationId : String) (n : Nat) (A : Nat → Prop) (s : BrokerEventMapper) (db : Db) : Prop where
  accounted : ∀ q, A q → q ≤ lastProjectedBrokerSeq db invocationId ∨
    (getProjectionDisposition db invocationId q).isSome = true
  disposition : ∀ q, getProjectionDisposition db invocationId q = getProjectionDisposition s.db invocationId q
  cursor_le : lastProjectedBrokerSeq db invocationId ≤ n
  tight : Tight db invocationId ∨ (EndsBelowDisposed s invocationId ∧
    ∃ delta, s.ignoredDeltaCursors invocationId = some delta ∧
      lastProjectedBrokerSeq db invocationId = delta.throughSeq)

omit [Host] in
theorem Complete.fold (hs : Complete invocationId n A s) {db : Db}
    (h : Folded false invocationId s.db (cursors false s invocationId) db) :
    FoldComplete invocationId n A s db := by
  cases h with
  | kept hr hle =>
    have hl := lastProjectedBrokerSeq_row hr
    refine ⟨fun q hq => ?_, fun _ => rfl, hs.cursor_le, .inl hs.tight⟩
    rcases hs.accounted q hq with h | h | ⟨delta, hdelta, h⟩
    · exact .inl h
    · exact .inr h
    · exact .inl (Nat.le_trans h (hl ▸ hle delta hdelta))
  | @folded row delta _ updatedAt hr hdelta habv hrun =>
    have hsm : (getByInvocationId s.db invocationId).isSome = true := by rw [hr]; rfl
    have hl : lastProjectedBrokerSeq db invocationId = delta.throughSeq := by
      rw [lastProjectedBrokerSeq_setProjectedSeq hrun, if_pos ⟨rfl, hsm⟩]
    have hp : lastProjectedBrokerSeq s.db invocationId < delta.throughSeq := by
      rw [lastProjectedBrokerSeq_row hr]
      exact habv
    have hd (q : Nat) :
        getProjectionDisposition db invocationId q = getProjectionDisposition s.db invocationId q := by
      unfold getProjectionDisposition
      rw [run_dispositions_setProjectedSeq hrun]
    refine ⟨fun q hq => ?_, hd, hl ▸ hs.pending_le delta hdelta, ?_⟩
    · rw [hl, hd]
      rcases hs.accounted q hq with h | h | ⟨delta', hd', h⟩
      · exact .inl (Nat.le_trans h (Nat.le_of_lt hp))
      · exact .inr h
      · rw [show s.ignoredDeltaCursors invocationId = some delta from hdelta] at hd'
        cases hd'
        exact .inl h
    · unfold Tight
      rw [hl, hd]
      cases hn : getProjectionDisposition s.db invocationId (delta.throughSeq + 1) with
      | none => exact .inl rfl
      | some _ => exact .inr ⟨⟨delta, hdelta, hp, by rw [hn]; rfl⟩, delta, hdelta, rfl⟩

omit [Host] in
theorem fold_sameLedger {id : String} {db : Db} (hne : invocationId ≠ id)
    (h : Folded false id s.db (cursors false s id) db) : SameLedger invocationId s.db db := by
  cases h with
  | kept => exact .refl _ _
  | folded _ _ _ _ hr =>
    refine ⟨?_, fun q => ?_⟩
    · rw [lastProjectedBrokerSeq_setProjectedSeq hr, if_neg fun hid => hne hid.1]
    · unfold getProjectionDisposition
      rw [run_dispositions_setProjectedSeq hr]

omit [Host] in
theorem setCursor_self : (setCursor false invocationId none s).ignoredDeltaCursors invocationId = none := by
  simp [setCursor]

omit [Host] in
theorem setCursor_ne {id : String} {pending : Option PendingDelta} (hne : invocationId ≠ id) :
    (setCursor false id pending s).ignoredDeltaCursors invocationId = s.ignoredDeltaCursors invocationId := by
  simp [setCursor, hne]

/-- A committed live projection. -/
theorem committed_complete {envelope : InvocationEventEnvelope} {result : BrokerProjectionResult}
    (hs : Complete invocationId n A s) (hdelta : isIgnoredBrokerDelta envelope = false)
    (hbd : envelope.invocationId = invocationId → envelope.seq ≤ n)
    (hstr : envelope.invocationId = invocationId → ¬ Strands s (.project false envelope))
    (h : Committed false envelope s result t) :
    Complete invocationId n (fun q => A q ∨ (envelope.invocationId = invocationId ∧ envelope.seq = q)) t := by
  obtain ⟨⟨u, v, hu, hfo, hpr, hdb⟩, hfl, hcr, _⟩ := h
  replace hdb : t.db = v.db := hdb
  by_cases hid : envelope.invocationId = invocationId
  · subst hid
    have hf := hs.fold hfo
    have hg := project_grows hpr
    have hp : t.ignoredDeltaCursors envelope.invocationId = none := by
      rw [hcr]
      exact setCursor_self
    have hd (q : Nat) (hq : (getProjectionDisposition t.db envelope.invocationId q).isSome = true) : q ≤ n := by
      rw [hdb] at hq
      rcases project_disposes hpr hq with hq | ⟨_, rfl⟩
      · exact hs.disposition_le q (by rwa [hf.disposition] at hq)
      · exact hbd rfl
    have hn : ((getProjectionDisposition t.db envelope.invocationId envelope.seq).isSome = true ∨
        envelope.seq ≤ lastProjectedBrokerSeq t.db envelope.invocationId) ∧ Tight t.db envelope.invocationId := by
      rw [hdb]
      rcases project_tight hpr with ⟨hso, ht⟩ | ⟨hsm, hc⟩
      · exact ⟨.inl hso, ht⟩
      · rw [hsm.disposition, hsm.cursor]
        refine ⟨hc, hsm.tight ?_⟩
        rcases hf.tight with ht | ⟨he, delta, hd', hl⟩
        · exact ht
        · refine absurd ⟨hdelta, he, ?_⟩ (hstr rfl)
          rw [hf.disposition, hl] at hc
          exact hc.imp_right fun hle => ⟨delta, hd', hle⟩
    refine ⟨hfl, hn.2, fun q hq => ?_, ?_, hd, fun delta h => ?_⟩
    · rcases hq with hq | ⟨_, rfl⟩
      · rw [hdb]
        exact (hf.accounted q hq).elim (fun h => .inl (Nat.le_trans h (hg.monotone _))) fun h => .inr (.inl (hg.kept _ _ h))
      · exact hn.1.elim (fun h => .inr (.inl h)) .inl
    · by_contra hlt
      have hc := hg.covered envelope.invocationId (lastProjectedBrokerSeq t.db envelope.invocationId)
        (by have := hf.cursor_le; omega) (by rw [hdb])
      exact hlt (hd _ (by rw [hdb] at hc ⊢; exact hc))
    · rw [hp] at h
      cases h
  · refine hs.of_same hfl ?_ ?_ fun q hq => hq.resolve_right fun h => hid h.1
    · rw [hdb]
      exact (fold_sameLedger (Ne.symm hid) hfo).trans (project_sameLedger hpr (Ne.symm hid))
    · rw [hcr]
      exact setCursor_ne (Ne.symm hid)

variable {r : Except HrcError (Option BrokerProjectionResult)}

theorem outcome_complete {c : Call}
    (hs : Complete invocationId n A s) (hl : Call.isLive c = true)
    (hbd : ∀ q, Call.delivers invocationId q c → q ≤ n)
    (hstr : Call.invocationId c = invocationId → ¬ Strands s c) (h : Outcome s c r t) :
    Complete invocationId n (fun q => A q ∨ (Call.delivers invocationId q c ∧ r.isOk = true)) t := by
  have hn {q : Nat} {P : Prop} (h : A q ∨ (False ∧ P)) : A q := h.resolve_right fun h => h.1
  cases h with
  | @thrown _ e _ h =>
    refine hs.of_same (h.retainedProjection.trans hs.retainedProjection) ?_ (by rw [h.ignoredDeltaCursors]) fun q hq => ?_
    · rw [h.db]
      exact .refl _ _
    · exact hq.resolve_right fun ⟨_, hok⟩ => by cases hok
  | @repeated retained envelope result cursor hdelta hbs hseq =>
    obtain rfl : retained = false := by simpa [Call.isLive] using hl
    refine ⟨hs.retainedProjection, hs.tight, fun q hq => ?_, hs.cursor_le, hs.disposition_le, hs.pending_le⟩
    rcases hq with hq | ⟨⟨rfl, rfl⟩, _⟩
    · exact hs.accounted q hq
    · unfold DeltaBase at hbs
      split at hbs
      · exact .inr (.inr ⟨_, ‹_›, hbs ▸ hseq⟩)
      · obtain ⟨row, hr, rfl⟩ := hbs
        exact .inl (lastProjectedBrokerSeq_row hr ▸ hseq)
  | @extended retained envelope result cursor pending hdelta hbs hseq hp =>
    obtain rfl : retained = false := by simpa [Call.isLive] using hl
    by_cases hid : envelope.invocationId = invocationId
    · subst hid
      have hsl : (setCursor false envelope.invocationId (some pending) s).ignoredDeltaCursors envelope.invocationId
          = some pending := by simp [setCursor]
      refine ⟨hs.retainedProjection, hs.tight, fun q hq => ?_, hs.cursor_le, hs.disposition_le, fun delta hdelta => ?_⟩
      · rcases hq with hq | ⟨⟨_, rfl⟩, _⟩
        · rcases hs.accounted q hq with h | h | ⟨delta, hdelta, h⟩
          · exact .inl h
          · exact .inr (.inl h)
          · unfold DeltaBase at hbs
            rw [show cursors false s envelope.invocationId = some delta from hdelta] at hbs
            dsimp only at hbs
            exact .inr (.inr ⟨pending, hsl, by omega⟩)
        · exact .inr (.inr ⟨pending, hsl, Nat.le_of_eq hp.symm⟩)
      · rw [hsl] at hdelta
        cases hdelta
        rw [hp]
        exact hbd _ ⟨rfl, rfl⟩
    · exact hs.of_same hs.retainedProjection (.refl _ _) (setCursor_ne (Ne.symm hid))
        fun q hq => hq.resolve_right fun h => hid h.1.1
  | idle => exact hs.of_same hs.retainedProjection (.refl _ _) rfl fun _ => hn
  | @flushed retained id u hu hsm hfo =>
    obtain rfl : retained = false := by simpa [Call.isLive] using hl
    have hfl : (setCursor false id none u).retainedProjection = false :=
      hu.retainedProjection.trans hs.retainedProjection
    by_cases hid : id = invocationId
    · subst hid
      have hf := hs.fold hfo
      refine ⟨hfl, ?_, fun q hq => ?_, hf.cursor_le, fun q hq => hs.disposition_le q ?_, fun delta h => ?_⟩
      · exact hf.tight.resolve_right fun h => hstr rfl h.1
      · exact (hf.accounted q (hn hq)).elim .inl fun h => .inr (.inl h)
      · rw [← hf.disposition]
        exact hq
      · rw [setCursor_self] at h
        cases h
    · refine hs.of_same hfl (fold_sameLedger (Ne.symm hid) hfo) ?_ fun _ => hn
      rw [setCursor_ne (Ne.symm hid), hu.ignoredDeltaCursors]
  | @projected retained envelope result _ hdelta h =>
    obtain rfl : retained = false := by simpa [Call.isLive] using hl
    have := committed_complete hs hdelta (fun hid => hbd _ ⟨hid, rfl⟩) hstr h
    exact ⟨this.retainedProjection, this.tight, fun q hq => this.accounted q (hq.imp_right (·.1)), this.cursor_le,
      this.disposition_le, this.pending_le⟩
  | unlogged hdelta _ _ h =>
    have := committed_complete hs hdelta (fun hid => hbd _ ⟨hid, rfl⟩) hstr h
    exact ⟨this.retainedProjection, this.tight, fun q hq => this.accounted q (hq.imp_right (·.1)), this.cursor_le,
      this.disposition_le, this.pending_le⟩

theorem outcome_pending {c : Call}
    (hl : Call.isLive c = true) (hc : Call.commits c = true) (hok : r.isOk = true) (h : Outcome s c r t) :
    t.ignoredDeltaCursors (Call.invocationId c) = none := by
  cases h with
  | thrown => cases hok
  | repeated hdelta => simp [Call.commits, hdelta] at hc
  | extended hdelta => simp [Call.commits, hdelta] at hc
  | @idle retained id h =>
    obtain rfl : retained = false := by simpa [Call.isLive] using hl
    exact h
  | @flushed retained id =>
    obtain rfl : retained = false := by simpa [Call.isLive] using hl
    exact setCursor_self
  | @projected retained envelope _ _ _ h =>
    obtain rfl : retained = false := by simpa [Call.isLive] using hl
    rw [h.ignoredDeltaCursors]
    exact setCursor_self
  | unlogged => cases hok

theorem runCalls_complete {calls : List Call} (hs : Complete invocationId n A s)
    (hl : ∀ c ∈ calls, Call.isLive c = true)
    (hbd : ∀ c ∈ calls, ∀ q, Call.delivers invocationId q c → q ≤ n)
    (hn : NeverStrands invocationId calls s) :
    Complete invocationId n (fun q => A q ∨ Delivered invocationId q calls s) (runCalls calls s) := by
  induction calls generalizing A s with
  | nil => exact hs.of_same hs.retainedProjection (.refl _ _) rfl fun q hq => hq.resolve_right id
  | cons c calls ih =>
    have hm := List.mem_cons_self (a := c) (l := calls)
    have hst := outcome_complete hs (hl c hm) (hbd c hm) hn.1 (call_outcome hs.retainedProjection c)
    have hr := ih hst (fun c' h => hl c' (List.mem_cons_of_mem c h))
      (fun c' h => hbd c' (List.mem_cons_of_mem c h)) hn.2
    exact hr.of_same hr.retainedProjection (.refl _ _) rfl fun q hq => or_assoc.mpr hq

theorem neverStrands_append {before after : List Call} (h : NeverStrands invocationId (before ++ after) s) :
    NeverStrands invocationId before s ∧ NeverStrands invocationId after (runCalls before s) := by
  induction before generalizing s with
  | nil => exact ⟨trivial, h⟩
  | cons c before ih =>
    obtain ⟨hbef, haft⟩ := ih h.2
    exact ⟨⟨h.1, hbef⟩, haft⟩

/-- In every run of live calls that delivers an invocation's envelopes in any order and any number of
times, and in which no call strands the cursor: after each call that commits nothing is disposed or
pending directly above the cursor, and a last flush leaves the cursor at the last number delivered. -/
theorem cursor_complete (hs : Fresh s) (hcursor : lastProjectedBrokerSeq s.db invocationId = 0)
    (hempty : ∀ q, getProjectionDisposition s.db invocationId q = none) (n : Nat) (calls : List Call)
    (hlive : ∀ c ∈ calls, Call.isLive c = true)
    (hbound : ∀ c ∈ calls, ∀ q, Call.delivers invocationId q c → q ≤ n)
    (hnever : NeverStrands invocationId calls s) :
    (∀ before c after, calls = before ++ c :: after → Call.invocationId c = invocationId →
      Call.commits c = true → (c.run (runCalls before s)).1.isOk = true →
      Tight (runCalls (before ++ [c]) s).db invocationId ∧
        (runCalls (before ++ [c]) s).ignoredDeltaCursors invocationId = none) ∧
    (∀ before, calls = before ++ [.flush false invocationId] →
      ((Call.flush false invocationId).run (runCalls before s)).1.isOk = true →
      (∀ q, 0 < q → q ≤ n → Delivered invocationId q calls s) →
      lastProjectedBrokerSeq (runCalls calls s).db invocationId = n) := by
  have hsta : Complete invocationId n (fun _ => False) s := by
    refine ⟨hs.retainedProjection, hempty _, fun _ => False.elim, by omega, fun q hq => ?_, fun delta h => ?_⟩
    · rw [hempty] at hq
      cases hq
    · rw [hs.ignoredDeltaCursors] at h
      cases h
  have hcom : ∀ before c after, calls = before ++ c :: after → Call.invocationId c = invocationId →
      Call.commits c = true → (c.run (runCalls before s)).1.isOk = true →
      Tight (runCalls (before ++ [c]) s).db invocationId ∧
        (runCalls (before ++ [c]) s).ignoredDeltaCursors invocationId = none := by
    rintro before c after rfl hid hcm hok
    obtain ⟨hbef, haft⟩ := neverStrands_append hnever
    have hm : ∀ c' ∈ before, c' ∈ before ++ c :: after := fun _ h => List.mem_append_left _ h
    have hnow := runCalls_complete hsta (fun c' h => hlive c' (hm c' h)) (fun c' h => hbound c' (hm c' h)) hbef
    have hc : c ∈ before ++ c :: after := by simp
    have hout := call_outcome hnow.retainedProjection c
    have hn := outcome_complete hnow (hlive c hc) (hbound c hc) haft.1 hout
    rw [runCalls_append]
    exact ⟨hn.tight, hid ▸ outcome_pending (hlive c hc) hcm hok hout⟩
  refine ⟨hcom, ?_⟩
  rintro before rfl hok hd
  have hl := runCalls_complete hsta hlive hbound hnever
  obtain ⟨ht, hp⟩ := hcom before _ [] rfl rfl rfl hok
  -- the number above the cursor is neither disposed nor pending, so it is beyond the last one delivered
  by_contra hne
  have hlt := Nat.lt_of_le_of_ne hl.cursor_le hne
  rcases hl.accounted _ (.inr (hd _ (Nat.succ_pos _) hlt)) with h | h | ⟨delta, h, _⟩
  · omega
  · rw [ht] at h
    cases h
  · rw [hp] at h
    cases h

omit [Host] in
/-- Events around a raw delta, delivered twice each. -/
theorem cursor_complete_sample :
    let calls : List Call := [.project false (sampleEvent 1 .diagnostic), .project false (sampleEvent 1 .diagnostic),
      .project false (sampleEvent 4 .diagnostic), .project false (sampleEvent 2 .assistantMessageDelta),
      .project false (sampleEvent 2 .assistantMessageDelta), .project false (sampleEvent 3 .diagnostic),
      .flush false "inv"]
    letI := steadyHost
    lastProjectedBrokerSeq (runCalls calls sampleMapper).db "inv" = 4 := by
  intro calls
  have hd :
      letI := steadyHost
      ∀ q, q < 4 + 1 → 0 < q → Delivered "inv" q calls sampleMapper := by decide +kernel
  have hn :
      letI := steadyHost
      NeverStrands "inv" calls sampleMapper := by decide +kernel
  let _ := steadyHost
  refine (cursor_complete sampleMapper_fresh rfl (fun _ => rfl) 4 calls (by decide) ?_ hn).2
    [.project false (sampleEvent 1 .diagnostic), .project false (sampleEvent 1 .diagnostic),
      .project false (sampleEvent 4 .diagnostic), .project false (sampleEvent 2 .assistantMessageDelta),
      .project false (sampleEvent 2 .assistantMessageDelta), .project false (sampleEvent 3 .diagnostic)]
    rfl (by decide +kernel) fun q hlo hhi => hd q (Nat.lt_succ_of_le hhi) hlo
  intro c hc q hq
  simp only [calls, List.mem_cons, List.not_mem_nil, or_false] at hc
  rcases hc with rfl | rfl | rfl | rfl | rfl | rfl | rfl <;> simp [Call.delivers, sampleEvent] at hq <;> omega

omit [Host] in
/-- An event that arrives before the raw delta below it: the flush that folds the delta leaves the
cursor below the event. -/
theorem cursor_stranded :
    let calls : List Call := [.project false (sampleEvent 2 .diagnostic),
      .project false (sampleEvent 1 .assistantMessageDelta), .flush false "inv"]
    letI := steadyHost
    (∀ q, q < 2 + 1 → 0 < q → Delivered "inv" q calls sampleMapper) ∧
      lastProjectedBrokerSeq (runCalls calls sampleMapper).db "inv" = 1 ∧
      (getProjectionDisposition (runCalls calls sampleMapper).db "inv" 2).isSome = true := by
  exact ⟨by decide +kernel, by decide +kernel, by decide +kernel⟩

end Runs

end HrcRuntime.CursorCompleteness
