import HrcRuntime.InputRepository

namespace HrcRuntime.InputLedger

open Records Relational Database Program Mapper InputRepository

structure InputAdmission where
  inputId : String
  admissionHostSessionId : String
  idempotencyKey : String
  requestHash : String
  hostSessionId : Option String
  runtimeId : Option String
  operationId : Option String
  invocationId : Option String
  brokerSubmissionId : Option String
  admittedAt : String

def InputAdmission.record (a : InputAdmission) : HrcInputRecord :=
  { inputId := a.inputId, admissionHostSessionId := a.admissionHostSessionId, idempotencyKey := a.idempotencyKey
    requestHash := a.requestHash, hostSessionId := a.hostSessionId, runtimeId := a.runtimeId
    operationId := a.operationId, invocationId := a.invocationId, brokerSubmissionId := a.brokerSubmissionId
    status := .accepted, cleanupProtection := .«protected», createdAt := a.admittedAt, updatedAt := a.admittedAt }

inductive LedgerOp where
  | insert (admission : InputAdmission)
  | bind (inputId brokerSubmissionId updatedAt : String)
  | landing (landing : InputLandingRecord)
  | terminal (terminal : InputTerminalRecord)
  | correlation (correlation : InputCorrelationRecord)
  | other (w : Write) (h : w.table ≠ .inputs)

def landingOf (r : HrcInputRecord) :
    Option LandingKind × Option String × Option String × Option Nat × Option String :=
  (r.landingKind, r.carrierRunId, r.turnId, r.runStartedHrcSeq, r.landedAt)

def terminalOf (r : HrcInputRecord) : Option InputTerminal × Option String × Option String × Option String :=
  (r.terminal, r.terminalAt, r.errorCode, r.errorMessage)

structure RowSound (r : HrcInputRecord) : Prop where
  exclusive : r.landingKind = none ∨ r.terminal = none
  «protected» : r.cleanupProtection = .«protected» ↔ r.landingKind = none ∧ r.terminal = none
  accepted : r.status = .accepted → r.landingKind = none ∧ r.terminal = none

structure Kept (r r' : HrcInputRecord) : Prop where
  landing : r.landingKind.isSome = true → landingOf r' = landingOf r
  terminal : r.terminal.isSome = true → terminalOf r' = terminalOf r
  brokerSubmissionId : r.brokerSubmissionId.isSome = true → r'.brokerSubmissionId = r.brokerSubmissionId

theorem Kept.refl (r : HrcInputRecord) : Kept r r := ⟨fun _ => rfl, fun _ => rfl, fun _ => rfl⟩

theorem Kept.trans {a b c : HrcInputRecord} (h : Kept a b) (h' : Kept b c) : Kept a c where
  landing ha := by
    have hb := h.landing ha
    have hk : b.landingKind = a.landingKind := congrArg (·.1) hb
    exact (h'.landing (by rwa [hk])).trans hb
  terminal ha := by
    have hb := h.terminal ha
    have hk : b.terminal = a.terminal := congrArg (·.1) hb
    exact (h'.terminal (by rwa [hk])).trans hb
  brokerSubmissionId ha := by
    have hb := h.brokerSubmissionId ha
    exact (h'.brokerSubmissionId (by rwa [hb])).trans hb

inductive LedgerWrite (db : Db) : LedgerOp → Write → Prop where
  | inserted (a : InputAdmission) : LedgerWrite db (.insert a) (.insertInput a.record)
  | bound (inputId submissionId updatedAt : String) :
      LedgerWrite db (.bind inputId submissionId updatedAt) (.bindInput inputId submissionId updatedAt)
  | landed {landing : InputLandingRecord} {prior : HrcInputRecord}
      (hprior : getByInputId db landing.inputId = some prior) (hland : prior.landingKind = none)
      (hstatus : prior.status = .accepted)
      (hcarrier : (db.runs.find? (isExactCarrier prior landing)).isSome = true) :
      LedgerWrite db (.landing landing) (.landInput landing)
  | terminated {terminal : InputTerminalRecord} {prior : HrcInputRecord}
      (hprior : getByInputId db terminal.inputId = some prior) (hland : prior.landingKind = none)
      (hterminal : prior.terminal = none) (hstatus : prior.status = .accepted) :
      LedgerWrite db (.terminal terminal) (.terminateInput terminal)
  | correlated (correlation : InputCorrelationRecord) :
      LedgerWrite db (.correlation correlation) (.correlateInput correlation)
  | other {w : Write} (h : w.table ≠ .inputs) : LedgerWrite db (.other w h) w

section Rows

variable {db db' : Db} {op : LedgerOp} {w : Write}

theorem inputs_update {p : HrcInputRecord → Bool} {f : HrcInputRecord → HrcInputRecord}
    (h : db.inputs.update p f = some db'.inputs) {r' : HrcInputRecord} (hr' : r' ∈ db'.inputs.rows) :
    ∃ r ∈ db.inputs.rows, r' = if p r then f r else r := by
  rw [update_rows h] at hr'
  obtain ⟨r, hr, rfl⟩ := List.mem_map.mp hr'
  exact ⟨r, hr, rfl⟩

theorem eq_of_getByInputId {inputId : String} {prior r : HrcInputRecord}
    (hpri : getByInputId db inputId = some prior) (hr : r ∈ db.inputs.rows) (hid : r.inputId = inputId) : r = prior := by
  have hm : prior ∈ db.inputs.rows := List.mem_of_find?_eq_some hpri
  have hp : prior.inputId = inputId := by simpa using List.find?_some hpri
  refine row_unique db.inputs (fun r => some ("input_id", r.inputId, "")) (by simp) hr hm
    (k := ("input_id", inputId, "")) ?_ ?_
  · rw [hid]
  · rw [hp]

theorem ledgerWrite_sound (hw : LedgerWrite db op w) (h : w.run db = .ok db')
    (hs : ∀ r ∈ db.inputs.rows, RowSound r) : ∀ r ∈ db'.inputs.rows, RowSound r := by
  intro r' hr'
  cases hw with
  | inserted a =>
    rw [insert_rows (Write.run_inputs h)] at hr'
    rcases List.mem_append.mp hr' with hr | hr
    · exact hs _ hr
    · obtain rfl := List.mem_singleton.mp hr
      exact ⟨.inl rfl, ⟨fun _ => ⟨rfl, rfl⟩, fun _ => rfl⟩, fun _ => ⟨rfl, rfl⟩⟩
  | bound inputId submissionId updatedAt =>
    obtain ⟨r, hr, rfl⟩ := inputs_update (Write.run_inputs h) hr'
    obtain ⟨h₁, h₂, h₃⟩ := hs _ hr
    split <;> exact ⟨h₁, h₂, h₃⟩
  | landed hpri hl hstatus =>
    obtain ⟨r, hr, rfl⟩ := inputs_update (Write.run_inputs h) hr'
    split
    · rename_i hp
      obtain rfl := eq_of_getByInputId hpri hr (by simpa using (Bool.and_eq_true_iff.mp hp).1)
      obtain ⟨_, ht⟩ := (hs _ hr).accepted hstatus
      refine ⟨.inr ht, ⟨nofun, nofun⟩, fun hs => ?_⟩
      split at hs <;> cases hs
    · exact hs _ hr
  | terminated hpri hl ht hstatus =>
    obtain ⟨r, hr, rfl⟩ := inputs_update (Write.run_inputs h) hr'
    split
    · rename_i hp
      obtain rfl := eq_of_getByInputId hpri hr (by
        simpa using (Bool.and_eq_true_iff.mp (Bool.and_eq_true_iff.mp hp).1).1)
      refine ⟨.inl hl, ⟨nofun, fun h => nomatch h.2⟩, fun hs => ?_⟩
      split at hs <;> cases hs
    · exact hs _ hr
  | correlated =>
    obtain ⟨r, hr, rfl⟩ := inputs_update (Write.run_inputs h) hr'
    obtain ⟨h₁, h₂, h₃⟩ := hs _ hr
    split <;> exact ⟨h₁, h₂, h₃⟩
  | other hne =>
    rw [Write.run_inputs_of_ne h hne] at hr'
    exact hs _ hr'

theorem ledgerWrite_kept (hw : LedgerWrite db op w) (h : w.run db = .ok db') :
    Evolves (·.inputId) Kept db.inputs db'.inputs := by
  cases hw with
  | inserted a => exact evolves_insert Kept.refl (Write.run_inputs h)
  | bound inputId submissionId updatedAt =>
    refine evolves_update Kept.refl (Write.run_inputs h) (fun _ => rfl) fun r _ hp => ?_
    refine ⟨fun _ => rfl, fun _ => rfl, fun hs => ?_⟩
    rw [beq_iff_eq.mp (Bool.and_eq_true_iff.mp hp).2] at hs
    cases hs
  | landed hpri hl _ =>
    refine evolves_update Kept.refl (Write.run_inputs h) (fun _ => rfl) fun r _ hp => ?_
    refine ⟨fun hs => ?_, fun _ => rfl, fun _ => rfl⟩
    rw [beq_iff_eq.mp (Bool.and_eq_true_iff.mp hp).2] at hs
    cases hs
  | terminated hpri hl ht _ =>
    refine evolves_update Kept.refl (Write.run_inputs h) (fun _ => rfl) fun r _ hp => ?_
    refine ⟨fun _ => rfl, fun hs => ?_, fun _ => rfl⟩
    rw [beq_iff_eq.mp (Bool.and_eq_true_iff.mp hp).2] at hs
    cases hs
  | correlated =>
    exact evolves_update Kept.refl (Write.run_inputs h) (fun _ => rfl) fun r _ _ =>
      ⟨fun _ => rfl, fun _ => rfl, fun _ => rfl⟩
  | other hne =>
    rw [Write.run_inputs_of_ne h hne]
    exact Evolves.refl Kept.refl _

end Rows

section Calls

variable [Host]

def LedgerOp.run : LedgerOp → M Unit
  | .insert admission => InputRepository.insert admission.record >>= fun _ => pure ()
  | .bind inputId submissionId updatedAt => bindBrokerSubmissionId inputId submissionId updatedAt >>= fun _ => pure ()
  | .landing record => recordLanding record >>= fun _ => pure ()
  | .terminal record => recordTerminal record >>= fun _ => pure ()
  | .correlation record => recordCorrelation record >>= fun _ => pure ()
  | .other w _ => statement w

def runOps : List LedgerOp → BrokerEventMapper → BrokerEventMapper
  | [], s => s
  | op :: ops, s => runOps ops (op.run s).2

variable {s t : BrokerEventMapper} {op : LedgerOp}

variable {r : Except HrcError HrcInputRecord} {prior : HrcInputRecord} {inputId : String}

/-- A statement followed by a reload its own row satisfies: it threw and changed nothing, or it
committed the one write and returned. -/
theorem write_reload {w : Write} {message : String}
    (hw : ∀ db, w.run s.db = .ok db → (getByInputId db inputId).isSome = true)
    (h : (statement w >>= fun _ => reload inputId message) s = (r, t)) :
    t.db = s.db ∨ ∃ row, r = .ok row ∧ w.run s.db = .ok t.db ∧ getByInputId t.db inputId = some row := by
  rcases hs : statement w s with ⟨e | _, u⟩
  · rw [bind_error hs] at h
    cases h
    exact .inl (statement_eq_error hs)
  · rw [bind_ok hs] at h
    obtain ⟨db, hrun, rfl⟩ := statement_eq_ok hs
    obtain ⟨row, hr⟩ := Option.isSome_iff_exists.mp (hw db hrun)
    rw [reload_eq_ok.mpr ⟨rfl, hr⟩] at h
    cases h
    exact .inr ⟨row, rfl, hrun, hr⟩

variable {f : HrcInputRecord → HrcInputRecord} {p : HrcInputRecord → Bool} {terminal : InputTerminalRecord}
  {landing : InputLandingRecord} {submissionId updatedAt : String}

omit [Host] in
theorem getByInputId_update {db db' : Db}
    (h : db.inputs.update p f = some db'.inputs) (hf : ∀ r, (f r).inputId = r.inputId) (inputId : String) :
    getByInputId db' inputId = (getByInputId db inputId).map fun r => if p r then f r else r :=
  find?_update h fun r => by rw [hf]

omit [Host] in
theorem isSome_update {db db' : Db}
    (h : db.inputs.update p f = some db'.inputs) (hf : ∀ r, (f r).inputId = r.inputId)
    (hp : getByInputId db inputId = some prior) :
    (getByInputId db' inputId).isSome = true := by
  rw [getByInputId_update h hf, hp]
  rfl

def Effect (op : LedgerOp) (s t : BrokerEventMapper) {α : Type} (r : Except HrcError α) : Prop :=
  t.db = s.db ∨ ((∃ a, r = .ok a) ∧ ∃ w, LedgerWrite s.db op w ∧ w.run s.db = .ok t.db)

theorem insert_effect (admission : InputAdmission)
    (h : InputRepository.insert admission.record s = (r, t)) : Effect (.insert admission) s t r := by
  have hrel (db : Db) (hrun : Write.run (.insertInput admission.record) s.db = .ok db) :
      (getByInputId db admission.record.inputId).isSome = true := by
    have hi := find?_insert (Write.run_inputs hrun) fun r => r.inputId == admission.record.inputId
    unfold getByInputId
    rw [hi]
    simp
  rcases write_reload hrel h with hs | ⟨row, hr, hrun, _⟩
  · exact .inl hs
  · exact .inr ⟨⟨row, hr⟩, _, .inserted admission, hrun⟩

theorem bind_effect
    (h : bindBrokerSubmissionId inputId submissionId updatedAt s = (r, t)) :
    Effect (.bind inputId submissionId updatedAt) s t r := by
  unfold bindBrokerSubmissionId at h
  rcases hr : reload inputId s!"input not found for broker bind {inputId}" s with ⟨e | prior, u⟩
  · obtain rfl := (reload_readOnly _ _).state hr
    rw [bind_error hr] at h
    cases h
    exact .inl rfl
  · obtain ⟨rfl, hpri⟩ := reload_eq_ok.mp hr
    rw [bind_ok hr] at h
    cases hbd : prior.brokerSubmissionId with
    | some bound =>
      rw [hbd] at h
      dsimp only at h
      split at h <;> cases h <;> exact .inl rfl
    | none =>
      rw [hbd] at h
      dsimp only at h
      rcases hs : statement (.bindInput inputId submissionId updatedAt) u with ⟨e | _, v⟩
      · rw [bind_error hs] at h
        cases h
        exact .inl (statement_eq_error hs)
      · rw [bind_ok hs] at h
        obtain ⟨db, hrun, rfl⟩ := statement_eq_ok hs
        have hp : prior.inputId = inputId := by simpa using List.find?_some hpri
        have hrow := getByInputId_update (Write.run_inputs hrun) (fun _ => rfl) inputId
        rw [hpri, Option.map_some, hbd, hp] at hrow
        simp only [beq_self_eq_true, Bool.and_self, if_true] at hrow
        rw [bind_ok (reload_eq_ok.mpr ⟨rfl, hrow⟩)] at h
        simp only [beq_self_eq_true, if_true] at h
        cases h
        exact .inr ⟨⟨_, rfl⟩, _, .bound _ _ _, hrun⟩

theorem landing_effect
    (h : recordLanding landing s = (r, t)) : Effect (.landing landing) s t r := by
  unfold recordLanding at h
  rcases hrel : reload landing.inputId s!"input not found for landing {landing.inputId}" s with ⟨e | prior, u⟩
  · obtain rfl := (reload_readOnly _ _).state hrel
    rw [bind_error hrel] at h
    cases h
    exact .inl rfl
  · obtain ⟨rfl, hp⟩ := reload_eq_ok.mp hrel
    rw [bind_ok hrel] at h
    split at h
    · split at h <;> cases h <;> exact .inl rfl
    · rename_i hl
      split at h
      · cases h
        exact .inl rfl
      · rename_i hstatus
        split at h
        · cases h
          exact .inl rfl
        · rw [query_bind] at h
          split at h
          · cases h
            exact .inl rfl
          · rename_i hc
            have hrow (db : Db) (hrun : Write.run (.landInput landing) u.db = .ok db) :
                (getByInputId db landing.inputId).isSome = true :=
              isSome_update (Write.run_inputs hrun) (fun _ => rfl) hp
            rcases write_reload hrow h with hs | ⟨row, hr, hrun, _⟩
            · exact .inl hs
            · refine .inr ⟨⟨row, hr⟩, _, .landed hp (by simpa using hl) (by simpa using hstatus) ?_, hrun⟩
              simpa [Option.isSome_iff_ne_none] using hc

theorem terminal_effect
    (h : recordTerminal terminal s = (r, t)) : Effect (.terminal terminal) s t r := by
  unfold recordTerminal at h
  rcases hrel : reload terminal.inputId s!"input not found for terminal {terminal.inputId}" s with ⟨e | prior, u⟩
  · obtain rfl := (reload_readOnly _ _).state hrel
    rw [bind_error hrel] at h
    cases h
    exact .inl rfl
  · obtain ⟨rfl, hp⟩ := reload_eq_ok.mp hrel
    rw [bind_ok hrel] at h
    split at h
    · split at h <;> cases h <;> exact .inl rfl
    · rename_i ht
      split at h
      · cases h
        exact .inl rfl
      · rename_i hstatus
        simp only [Bool.or_eq_true, bne_iff_ne, ne_eq, not_or, not_not, Bool.not_eq_true,
          Option.isSome_eq_false_iff, Option.isNone_iff_eq_none] at hstatus ht
        have hrow (db : Db) (hrun : Write.run (.terminateInput terminal) u.db = .ok db) :
            (getByInputId db terminal.inputId).isSome = true :=
          isSome_update (Write.run_inputs hrun) (fun _ => rfl) hp
        rcases write_reload hrow h with hs | ⟨row, hr, hrun, _⟩
        · exact .inl hs
        · exact .inr ⟨⟨row, hr⟩, _, .terminated hp hstatus.2 ht hstatus.1, hrun⟩

theorem correlation_effect {correlation : InputCorrelationRecord}
    (h : recordCorrelation correlation s = (r, t)) : Effect (.correlation correlation) s t r := by
  unfold recordCorrelation at h
  rcases hrel : reload correlation.inputId s!"input not found for correlation {correlation.inputId}" s
    with ⟨e | prior, u⟩
  · obtain rfl := (reload_readOnly _ _).state hrel
    rw [bind_error hrel] at h
    cases h
    exact .inl rfl
  · obtain ⟨rfl, hp⟩ := reload_eq_ok.mp hrel
    rw [bind_ok hrel] at h
    have hrow (db : Db) (hrun : Write.run (.correlateInput correlation) u.db = .ok db) :
        (getByInputId db correlation.inputId).isSome = true :=
      isSome_update (Write.run_inputs hrun) (fun _ => rfl) hp
    rcases write_reload hrow h with hs | ⟨row, hr, hrun, _⟩
    · exact .inl hs
    · exact .inr ⟨⟨row, hr⟩, _, .correlated _, hrun⟩

theorem op_effect (op : LedgerOp) : Effect op s (op.run s).2 (op.run s).1 := by
  have done {m : M HrcInputRecord} (hm : ∀ r t, m s = (r, t) → Effect op s t r) :
      Effect op s ((m >>= fun _ => pure ()) s).2 ((m >>= fun _ => pure ()) s).1 := by
    rcases hs : m s with ⟨e | a, t⟩
    · rw [bind_error hs]
      rcases hm _ _ hs with hsm | ⟨⟨_, hok⟩, _⟩
      · exact .inl hsm
      · cases hok
    · rw [bind_ok hs]
      rcases hm _ _ hs with hsm | ⟨_, hw⟩
      · exact .inl hsm
      · exact .inr ⟨⟨(), rfl⟩, hw⟩
  cases op with
  | insert admission => exact done fun _ _ => insert_effect admission
  | bind inputId submissionId updatedAt => exact done fun _ _ => bind_effect
  | landing landing => exact done fun _ _ => landing_effect
  | terminal terminal => exact done fun _ _ => terminal_effect
  | correlation correlation => exact done fun _ _ => correlation_effect
  | other w h =>
    rcases hs : statement w s with ⟨e | a, t⟩
    · exact .inl (by rw [show (LedgerOp.other w h).run s = _ from hs]; exact statement_eq_error hs)
    · obtain ⟨db, hr, rfl⟩ := statement_eq_ok hs
      rw [show (LedgerOp.other w h).run s = _ from hs]
      exact .inr ⟨⟨(), rfl⟩, w, .other h, hr⟩

theorem op_thrown {e : HrcError} (h : (op.run s).1 = .error e) : (op.run s).2.db = s.db := by
  rcases op_effect op (s := s) with hs | ⟨⟨_, hok⟩, _⟩
  · exact hs
  · rw [h] at hok
    cases hok

theorem op_sound (op : LedgerOp) (hs : ∀ r ∈ s.db.inputs.rows, RowSound r) :
    ∀ r ∈ (op.run s).2.db.inputs.rows, RowSound r := by
  rcases op_effect op (s := s) with hsm | ⟨_, w, hw, hr⟩
  · rwa [hsm]
  · exact ledgerWrite_sound hw hr hs

theorem op_kept (op : LedgerOp) : Evolves (·.inputId) Kept s.db.inputs (op.run s).2.db.inputs := by
  rcases op_effect op (s := s) with hs | ⟨_, w, hw, hr⟩
  · rw [hs]
    exact Evolves.refl Kept.refl _
  · exact ledgerWrite_kept hw hr

theorem runOps_sound (ops : List LedgerOp) (hs : ∀ r ∈ s.db.inputs.rows, RowSound r) :
    ∀ r ∈ (runOps ops s).db.inputs.rows, RowSound r := by
  induction ops generalizing s with
  | nil => exact hs
  | cons op ops ih => exact ih (op_sound op hs)

theorem runOps_kept (ops : List LedgerOp) : Evolves (·.inputId) Kept s.db.inputs (runOps ops s).db.inputs := by
  induction ops generalizing s with
  | nil => exact Evolves.refl Kept.refl _
  | cons op ops ih => exact (op_kept op).trans (fun _ _ _ h h' => h.trans h') ih

omit [Host] in
theorem throws_of {m : M HrcInputRecord} {e : HrcError} (h : m s = (.error e, s)) :
    ∃ e, ((m >>= fun _ => pure ()) s).1 = .error e := ⟨e, by rw [bind_error h]⟩

theorem bind_conflict
    (hp : getByInputId s.db inputId = some prior) (hbd : prior.brokerSubmissionId.isSome = true)
    (hne : prior.brokerSubmissionId ≠ some submissionId) :
    ∃ e, ((LedgerOp.bind inputId submissionId updatedAt).run s).1 = .error e := by
  obtain ⟨bound, hbd⟩ := Option.isSome_iff_exists.mp hbd
  have hb : (bound == submissionId) = false := by
    rw [beq_eq_false_iff_ne]
    rintro rfl
    exact hne hbd
  refine throws_of (m := bindBrokerSubmissionId inputId submissionId updatedAt)
    (e := .error s!"input broker submission conflict for {inputId}") ?_
  unfold bindBrokerSubmissionId
  rw [bind_ok (reload_eq_ok.mpr ⟨rfl, hp⟩), hbd]
  dsimp only
  rw [hb]
  rfl

theorem landing_conflict
    (hsnd : RowSound prior) (hp : getByInputId s.db landing.inputId = some prior)
    (h : prior.landingKind.isSome = true ∧ sameLanding prior landing = false ∨ prior.terminal.isSome = true) :
    ∃ e, ((LedgerOp.landing landing).run s).1 = .error e := by
  rcases h with ⟨hl, hs⟩ | ht
  · refine throws_of (m := recordLanding landing)
      (e := .error s!"input landing conflict for {landing.inputId}") ?_
    unfold recordLanding
    rw [bind_ok (reload_eq_ok.mpr ⟨rfl, hp⟩), if_pos hl, hs]
    rfl
  · have hl : prior.landingKind = none := by
      rcases hsnd.exclusive with h | h
      · exact h
      · rw [h] at ht
        cases ht
    have hstatus : (prior.status != .accepted) = true := by
      rw [bne_iff_ne]
      intro h
      rw [(hsnd.accepted h).2] at ht
      cases ht
    refine throws_of (m := recordLanding landing)
      (e := .error s!"input cannot land from status {prior.status.text}: {landing.inputId}") ?_
    unfold recordLanding
    rw [bind_ok (reload_eq_ok.mpr ⟨rfl, hp⟩), hl, if_neg (by simp), if_pos hstatus]
    rfl

theorem terminal_conflict
    (hs : RowSound prior) (hp : getByInputId s.db terminal.inputId = some prior)
    (h : prior.terminal.isSome = true ∧ prior.terminal ≠ some terminal.terminal ∨ prior.landingKind.isSome = true) :
    ∃ e, ((LedgerOp.terminal terminal).run s).1 = .error e := by
  rcases h with ⟨ht, hne⟩ | hl
  · refine throws_of (m := recordTerminal terminal)
      (e := .error s!"input terminal conflict for {terminal.inputId}") ?_
    unfold recordTerminal
    rw [bind_ok (reload_eq_ok.mpr ⟨rfl, hp⟩), if_pos ht, if_neg (by simpa using hne)]
    rfl
  · have ht : prior.terminal = none := by
      rcases hs.exclusive with h | h
      · rw [h] at hl
        cases hl
      · exact h
    refine throws_of (m := recordTerminal terminal)
      (e := .error s!"input cannot terminalize from status {prior.status.text}: {terminal.inputId}") ?_
    unfold recordTerminal
    rw [bind_ok (reload_eq_ok.mpr ⟨rfl, hp⟩), ht, if_neg (by simp), if_pos (by simp [hl])]
    rfl

def SameButCorrelation (r r' : HrcInputRecord) : Prop :=
  r' = { r with uncertainty := r'.uncertainty, updatedAt := r'.updatedAt }

omit [Host] in
theorem SameButCorrelation.refl (r : HrcInputRecord) : SameButCorrelation r r := rfl

theorem correlation_frame (correlation : InputCorrelationRecord) :
    Evolves (·.inputId) SameButCorrelation s.db.inputs ((LedgerOp.correlation correlation).run s).2.db.inputs := by
  rcases op_effect (.correlation correlation) (s := s) with hs | ⟨_, w, hw, hr⟩
  · rw [hs]
    exact Evolves.refl SameButCorrelation.refl _
  · cases hw with
    | correlated =>
      refine evolves_update SameButCorrelation.refl (Write.run_inputs hr) (fun _ => rfl) fun _ _ _ => ?_
      unfold SameButCorrelation
      rfl

/-- A row a call leaves landed was landed before it, or the call is the landing itself and names an
active run that is the input's exact observed execution. -/
theorem landed_by (op : LedgerOp) {r' : HrcInputRecord} (hr' : r' ∈ (op.run s).2.db.inputs.rows)
    (hl : r'.landingKind.isSome = true) :
    (∃ r ∈ s.db.inputs.rows, r.inputId = r'.inputId ∧ landingOf r = landingOf r') ∨
      ∃ landing prior, ∃ carrier ∈ s.db.runs.rows, op = .landing landing ∧ landing.inputId = r'.inputId ∧
        getByInputId s.db landing.inputId = some prior ∧ isExactCarrier prior landing carrier = true ∧
        landingOf r' = (some landing.kind, some landing.carrierRunId, some landing.turnId,
          some landing.runStartedHrcSeq, some landing.landedAt) := by
  rcases op_effect op (s := s) with hs | ⟨_, w, hw, hrun⟩
  · exact .inl ⟨r', hs ▸ hr', rfl, rfl⟩
  · cases hw with
    | inserted a =>
      rw [insert_rows (Write.run_inputs hrun)] at hr'
      rcases List.mem_append.mp hr' with hr | hr
      · exact .inl ⟨r', hr, rfl, rfl⟩
      · obtain rfl := List.mem_singleton.mp hr
        cases hl
    | bound inputId submissionId updatedAt =>
      obtain ⟨r, hr, rfl⟩ := inputs_update (Write.run_inputs hrun) hr'
      refine .inl ⟨r, hr, ?_, ?_⟩ <;> split <;> rfl
    | @landed landing _ hpri _ _ hc =>
      obtain ⟨r, hr, rfl⟩ := inputs_update (Write.run_inputs hrun) hr'
      split
      · rename_i hp
        have hid : r.inputId = landing.inputId := by simpa using (Bool.and_eq_true_iff.mp hp).1
        obtain ⟨carrier, hf⟩ := Option.isSome_iff_exists.mp hc
        exact .inr ⟨_, _, carrier, List.mem_of_find?_eq_some hf, rfl, hid.symm, hpri,
          List.find?_some hf, rfl⟩
      · exact .inl ⟨r, hr, rfl, rfl⟩
    | terminated =>
      obtain ⟨r, hr, rfl⟩ := inputs_update (Write.run_inputs hrun) hr'
      refine .inl ⟨r, hr, ?_, ?_⟩ <;> split <;> rfl
    | correlated =>
      obtain ⟨r, hr, rfl⟩ := inputs_update (Write.run_inputs hrun) hr'
      refine .inl ⟨r, hr, ?_, ?_⟩ <;> split <;> rfl
    | other hne =>
      rw [Write.run_inputs_of_ne hrun hne] at hr'
      exact .inl ⟨r', hr', rfl, rfl⟩

structure Lawful (op : LedgerOp) (s t : BrokerEventMapper) (r : Except HrcError Unit) : Prop where
  thrown : ∀ e, r = .error e → t.db = s.db
  kept : Evolves (·.inputId) Kept s.db.inputs t.db.inputs
  bindConflict : ∀ inputId submissionId updatedAt prior, op = .bind inputId submissionId updatedAt →
    getByInputId s.db inputId = some prior → prior.brokerSubmissionId.isSome = true →
    prior.brokerSubmissionId ≠ some submissionId → ∃ e, r = .error e
  landingConflict : ∀ landing prior, op = .landing landing → getByInputId s.db landing.inputId = some prior →
    prior.landingKind.isSome = true ∧ sameLanding prior landing = false ∨ prior.terminal.isSome = true →
    ∃ e, r = .error e
  terminalConflict : ∀ terminal prior, op = .terminal terminal → getByInputId s.db terminal.inputId = some prior →
    prior.terminal.isSome = true ∧ prior.terminal ≠ some terminal.terminal ∨ prior.landingKind.isSome = true →
    ∃ e, r = .error e
  correlation : ∀ correlation, op = .correlation correlation →
    Evolves (·.inputId) SameButCorrelation s.db.inputs t.db.inputs
  carrier : ∀ r' ∈ t.db.inputs.rows, r'.landingKind.isSome = true →
    (∃ r ∈ s.db.inputs.rows, r.inputId = r'.inputId ∧ landingOf r = landingOf r') ∨
      ∃ landing prior, ∃ carrier ∈ s.db.runs.rows, op = .landing landing ∧ landing.inputId = r'.inputId ∧
        getByInputId s.db landing.inputId = some prior ∧ isExactCarrier prior landing carrier = true ∧
        landingOf r' = (some landing.kind, some landing.carrierRunId, some landing.turnId,
          some landing.runStartedHrcSeq, some landing.landedAt)

theorem op_lawful (op : LedgerOp) (hs : ∀ r ∈ s.db.inputs.rows, RowSound r) :
    Lawful op s (op.run s).2 (op.run s).1 where
  thrown _ h := op_thrown h
  kept := op_kept op
  bindConflict := by
    rintro _ _ _ prior rfl hp hbd hne
    exact bind_conflict hp hbd hne
  landingConflict := by
    rintro _ prior rfl hp h
    exact landing_conflict (hs prior (List.mem_of_find?_eq_some hp)) hp h
  terminalConflict := by
    rintro _ prior rfl hp h
    exact terminal_conflict (hs prior (List.mem_of_find?_eq_some hp)) hp h
  correlation := by
    rintro _ rfl
    exact correlation_frame _
  carrier _ := landed_by op

/-- However ledger calls are ordered, every row stays sound, later calls keep what a row has
recorded, and the next call is lawful. -/
theorem ledger_lawful (hs : ∀ r ∈ s.db.inputs.rows, RowSound r) (ops later : List LedgerOp) (op : LedgerOp) :
    (∀ r ∈ (runOps ops s).db.inputs.rows, RowSound r) ∧
      Evolves (·.inputId) Kept (runOps ops s).db.inputs (runOps later (runOps ops s)).db.inputs ∧
      Lawful op (runOps ops s) (op.run (runOps ops s)).2 (op.run (runOps ops s)).1 := by
  have hsnd := runOps_sound ops hs
  exact ⟨hsnd, runOps_kept later, op_lawful op hsnd⟩

omit [Host] in
/-- An input admitted, landed on its carrier and then offered a terminal. -/
theorem ledger_lawful_landed :
    let s : BrokerEventMapper :=
      { db.runs := ⟨[{ runId := "run", hostSessionId := "host", runtimeId := some "rt", operationId := some "op"
                       invocationId := some "inv", status := .running, executionFormat := .format2
                       nativeTurnId := some "turn", observedStartHrcSeq := some 1 }], by decide⟩ }
    let admission : InputAdmission :=
      { inputId := "in", admissionHostSessionId := "host", idempotencyKey := "key", requestHash := "hash"
        hostSessionId := some "host", runtimeId := some "rt", operationId := some "op"
        invocationId := some "inv", brokerSubmissionId := none, admittedAt := "t0" }
    let landing : InputLandingRecord :=
      { inputId := "in", kind := .initiating, carrierRunId := "run", turnId := "turn", runStartedHrcSeq := 1
        landedAt := "t1" }
    let terminal : InputTerminalRecord := { inputId := "in", terminal := .rejected, terminalAt := "t2" }
    letI := steadyHost
    let t := runOps [.insert admission, .landing landing] s
    t.db.inputs.rows.map landingOf = [(some .initiating, some "run", some "turn", some 1, some "t1")] ∧
      (∀ r ∈ t.db.inputs.rows, RowSound r) ∧
      ∃ e, ((LedgerOp.terminal terminal).run t).1 = .error e := by
  intro s admission landing terminal
  let _ := steadyHost
  intro t
  obtain ⟨hs, -, hlw⟩ := ledger_lawful (s := s) (fun _ h => nomatch h)
    [.insert admission, .landing landing] [] (.terminal terminal)
  refine ⟨by decide +kernel, hs, ?_⟩
  obtain ⟨prior, hp, hl⟩ : ∃ prior, getByInputId t.db "in" = some prior ∧ prior.landingKind.isSome = true :=
    ⟨_, rfl, by decide +kernel⟩
  exact hlw.terminalConflict terminal prior rfl hp (.inr hl)

end Calls

end HrcRuntime.InputLedger
