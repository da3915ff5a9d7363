import HrcRuntime.Schedule
import HrcRuntime.TurnProjection

namespace HrcRuntime.SubmissionAdmissions

open Database Records Relational Mapper Repositories

structure AdmissionInput where
  submissionId : String
  runId : Option String := none
  runtimeId : Option String := none
  invocationId : Option String := none
  door : Option String := none
  envelopeId : Option String := none
  admittedAt : String

/-- The two edges of the ledger: the dispatch attach admits a submission, a landed or terminal event
disposes of it, under the retained fence only where nothing has yet. -/
inductive Edge where
  | admission (input : AdmissionInput)
  | disposition (submissionId : String) (disposition : SubmissionDisposition) (disposedAt : String)
      (onlyIfAbsent : Bool)

def Edge.submissionId : Edge → String
  | admission input => input.submissionId
  | disposition submissionId .. => submissionId

def AdmissionInput.record (input : AdmissionInput) : SubmissionAdmissionRecord :=
  { submissionId := input.submissionId, runId := input.runId, runtimeId := input.runtimeId
    invocationId := input.invocationId, door := input.door, envelopeId := input.envelopeId
    admittedAt := some input.admittedAt }

def Edge.write : Edge → Write
  | admission input => .upsertAdmission input.record
  | disposition submissionId outcome disposedAt onlyIfAbsent =>
    .disposeAdmission submissionId outcome disposedAt onlyIfAbsent

def Edge.run [Host] : Edge → M Unit
  | admission input => Admissions.upsertAdmission input.record
  | disposition submissionId outcome disposedAt onlyIfAbsent =>
    Admissions.recordDisposition submissionId outcome disposedAt onlyIfAbsent

/-- The edge of a broker event; `recordRetainedSubmissionDisposition` is the one with `onlyIfAbsent`. -/
def eventEdge (envelope : InvocationEventEnvelope) (now : String) (onlyIfAbsent : Bool) : Option Edge :=
  match Context.extractSubmissionIdFromPayload envelope, TurnProjection.submissionDisposition envelope.type with
  | some submissionId, some disposition =>
    some (.disposition submissionId disposition (envelope.time.getD now) onlyIfAbsent)
  | _, _ => none

structure Admission where
  runId : Option String := none
  runtimeId : Option String := none
  invocationId : Option String := none
  door : Option String := none
  envelopeId : Option String := none
  admittedAt : Option String := none

def rowOf (db : Db) (id : String) : Option SubmissionAdmissionRecord :=
  db.submissionAdmissions.find? fun r => r.submissionId == id

def admissionOf (r : SubmissionAdmissionRecord) : Admission :=
  { runId := r.runId, runtimeId := r.runtimeId, invocationId := r.invocationId, door := r.door
    envelopeId := r.envelopeId, admittedAt := r.admittedAt }

def admissionAt (db : Db) (id : String) : Admission := ((rowOf db id).map admissionOf).getD {}

def dispositionAt (db : Db) (id : String) : Option (SubmissionDisposition × Option String) :=
  (rowOf db id).bind fun r => r.disposition.map fun disposition => (disposition, r.disposedAt)

def Edge.fresh : Edge → SubmissionAdmissionRecord
  | admission input => input.record
  | disposition submissionId outcome disposedAt _ =>
    { submissionId, disposition := some outcome, disposedAt := some disposedAt }

def Edge.merge : Edge → SubmissionAdmissionRecord → SubmissionAdmissionRecord
  | admission input, r =>
    { r with
      runId := input.runId, runtimeId := input.runtimeId, invocationId := input.invocationId
      door := input.door.or r.door, envelopeId := input.envelopeId.or r.envelopeId
      admittedAt := some input.admittedAt }
  | disposition _ outcome disposedAt onlyIfAbsent, r =>
    if onlyIfAbsent && r.disposition.isSome then r
    else { r with disposition := some outcome, disposedAt := some disposedAt }

section History

def live? (id : String) : Edge → Option (SubmissionDisposition × Option String)
  | .disposition submissionId disposition disposedAt false =>
    if submissionId = id then some (disposition, some disposedAt) else none
  | _ => none

def retained? (id : String) : Edge → Option (SubmissionDisposition × Option String)
  | .disposition submissionId disposition disposedAt true =>
    if submissionId = id then some (disposition, some disposedAt) else none
  | _ => none

def admission? (id : String) : Edge → Option AdmissionInput
  | .admission input => if input.submissionId = id then some input else none
  | _ => none

def Admission.join (a : Admission) (input : AdmissionInput) : Admission :=
  { runId := input.runId, runtimeId := input.runtimeId, invocationId := input.invocationId
    door := input.door.or a.door, envelopeId := input.envelopeId.or a.envelopeId
    admittedAt := some input.admittedAt }

def settled (id : String) (prior : Option (SubmissionDisposition × Option String)) (edges : List Edge) :
    Option (SubmissionDisposition × Option String) :=
  (edges.filterMap (live? id)).getLast?.or (prior.or (edges.filterMap (retained? id)).head?)

def admitted (id : String) (prior : Admission) (edges : List Edge) : Admission :=
  (edges.filterMap (admission? id)).foldl Admission.join prior

theorem settled_cons (id : String) (prior : Option (SubmissionDisposition × Option String)) (e : Edge)
    (edges : List Edge) :
    settled id prior (e :: edges) = settled id ((live? id e).or (prior.or (retained? id e))) edges := by
  have hl : ((e :: edges).filterMap (live? id)).getLast? =
      (edges.filterMap (live? id)).getLast?.or (live? id e) := by
    cases h : live? id e <;> simp [h, List.getLast?_cons, Option.or_some]
  have hr : ((e :: edges).filterMap (retained? id)).head? =
      (retained? id e).or (edges.filterMap (retained? id)).head? := by
    cases h : retained? id e <;> simp [h]
  rw [settled, settled, hl, hr]
  simp only [Option.or_assoc]

theorem admitted_cons (id : String) (prior : Admission) (e : Edge) (edges : List Edge) :
    admitted id prior (e :: edges) = admitted id (((admission? id e).map prior.join).getD prior) edges := by
  cases h : admission? id e <;> simp [admitted, h]

theorem settled_append (id : String) (prior : Option (SubmissionDisposition × Option String))
    (before after : List Edge) : settled id prior (before ++ after) = settled id (settled id prior before) after := by
  induction before generalizing prior with
  | nil => simp [settled]
  | cons e before ih => rw [List.cons_append, settled_cons, settled_cons, ih]

theorem admitted_append (id : String) (prior : Admission) (before after : List Edge) :
    admitted id prior (before ++ after) = admitted id (admitted id prior before) after := by
  simp [admitted]

theorem admitted_known (id : String) (prior : Admission) (edges : List Edge) :
    (prior.door.isSome → (admitted id prior edges).door.isSome) ∧
      (prior.envelopeId.isSome → (admitted id prior edges).envelopeId.isSome) := by
  induction edges generalizing prior with
  | nil => exact ⟨fun h => h, fun h => h⟩
  | cons e edges ih =>
    rw [admitted_cons]
    have hs := ih (((admission? id e).map prior.join).getD prior)
    cases h : admission? id e with
    | none => simpa [h] using hs
    | some input =>
      simp only [h, Option.map_some, Option.getD_some] at hs ⊢
      refine ⟨fun hdoor => hs.1 ?_, fun he => hs.2 ?_⟩
      · simp [Admission.join, Option.isSome_or, hdoor]
      · simp [Admission.join, Option.isSome_or, he]

end History

section Steps

variable {db : Db} {e : Edge}

theorem write_spec (e : Edge) (db : Db) : ∃ db', e.write.run db = .ok db' ∧ ∀ id, rowOf db' id =
    if id = e.submissionId then some (((rowOf db id).map e.merge).getD e.fresh) else rowOf db id := by
  have hfr : e.fresh.submissionId = e.submissionId := by cases e <;> rfl
  have hm (r : SubmissionAdmissionRecord) : (e.merge r).submissionId = r.submissionId := by
    cases e with
    | admission input => rfl
    | disposition submissionId outcome disposedAt onlyIfAbsent =>
      simp only [Edge.merge]
      split <;> rfl
  obtain ⟨t, ht, hf⟩ := upsert_spec (t := db.submissionAdmissions) hfr hm
  refine ⟨{ db with submissionAdmissions := t }, ?_, fun id => ?_⟩
  · cases e <;> exact Write.store_eq_ok.mpr ⟨t, ht, rfl⟩
  · refine (hf id).trans ?_
    by_cases hid : id = e.submissionId
    · subst hid
      rfl
    · rw [if_neg hid, if_neg hid]
      rfl

variable {db' : Db}

theorem dispositionAt_of_row (h : ∀ id, rowOf db' id =
    if id = e.submissionId then some (((rowOf db id).map e.merge).getD e.fresh) else rowOf db id) (id : String) :
    dispositionAt db' id = (live? id e).or ((dispositionAt db id).or (retained? id e)) := by
  unfold dispositionAt
  rw [h id]
  by_cases hid : id = e.submissionId
  · rw [if_pos hid]
    cases e with
    | admission input => cases rowOf db id <;> simp [Edge.merge, Edge.fresh, live?, retained?, AdmissionInput.record]
    | disposition submissionId outcome disposedAt onlyIfAbsent =>
      have hs : submissionId = id := hid.symm
      rcases rowOf db id with _ | r
      · cases onlyIfAbsent <;> simp [Edge.fresh, live?, retained?, hs]
      · cases onlyIfAbsent <;> cases hr : r.disposition <;> simp [Edge.merge, live?, retained?, hs, hr]
  · rw [if_neg hid]
    cases e with
    | admission input => simp [live?, retained?]
    | disposition submissionId outcome disposedAt onlyIfAbsent =>
      have hoth : submissionId ≠ id := fun h => hid h.symm
      cases onlyIfAbsent <;> simp [live?, retained?, hoth]

theorem admissionAt_of_row (h : ∀ id, rowOf db' id =
    if id = e.submissionId then some (((rowOf db id).map e.merge).getD e.fresh) else rowOf db id) (id : String) :
    admissionAt db' id = ((admission? id e).map (admissionAt db id).join).getD (admissionAt db id) := by
  unfold admissionAt
  rw [h id]
  by_cases hid : id = e.submissionId
  · rw [if_pos hid]
    cases e with
    | admission input =>
      have hs : input.submissionId = id := hid.symm
      cases rowOf db id <;>
        simp [Edge.merge, Edge.fresh, admission?, hs, Admission.join, admissionOf, AdmissionInput.record]
    | disposition submissionId outcome disposedAt onlyIfAbsent =>
      rcases rowOf db id with _ | r
      · rfl
      · simp only [Edge.merge, admission?, Option.map_some, Option.map_none, Option.getD_some, Option.getD_none]
        split <;> rfl
  · rw [if_neg hid]
    cases e with
    | admission input =>
      have hoth : input.submissionId ≠ id := fun h => hid h.symm
      simp [admission?, hoth]
    | disposition submissionId outcome disposedAt onlyIfAbsent => rfl

end Steps

section Runs

variable [Host] {s : BrokerEventMapper}

def step (e : Edge) (s : BrokerEventMapper) : BrokerEventMapper := (e.run s).2

def performed : List Edge → BrokerEventMapper → List Edge
  | [], _ => []
  | e :: edges, s => (if (e.run s).1.isOk then [e] else []) ++ performed edges (step e s)

theorem run_eq_statement (e : Edge) : e.run = statement e.write := by cases e <;> rfl

theorem step_spec (e : Edge) (s : BrokerEventMapper) :
    (step e s).db = s.db ∧ (e.run s).1.isOk = false ∨ (e.run s).1.isOk = true ∧ ∀ id, rowOf (step e s).db id =
      if id = e.submissionId then some (((rowOf s.db id).map e.merge).getD e.fresh) else rowOf s.db id := by
  obtain ⟨db', hrun, hr⟩ := write_spec e s.db
  unfold step
  rw [run_eq_statement]
  rcases h : statement e.write s with ⟨_ | _, t⟩
  · exact .inl ⟨statement_eq_error h, rfl⟩
  · obtain ⟨db, hdb, rfl⟩ := statement_eq_ok h
    rw [hrun] at hdb
    cases hdb
    exact .inr ⟨rfl, hr⟩

theorem dispositionAt_step (e : Edge) (s : BrokerEventMapper) (id : String) :
    dispositionAt (step e s).db id =
      settled id (dispositionAt s.db id) (if (e.run s).1.isOk then [e] else []) := by
  rcases step_spec e s with ⟨hdb, hok⟩ | ⟨hok, hr⟩
  · rw [hdb, hok]
    simp [settled]
  · rw [dispositionAt_of_row hr, hok, if_pos rfl, settled_cons]
    simp [settled]

theorem admissionAt_step (e : Edge) (s : BrokerEventMapper) (id : String) :
    admissionAt (step e s).db id =
      admitted id (admissionAt s.db id) (if (e.run s).1.isOk then [e] else []) := by
  rcases step_spec e s with ⟨hdb, hok⟩ | ⟨hok, hr⟩
  · rw [hdb, hok]
    rfl
  · rw [admissionAt_of_row hr, hok, if_pos rfl, admitted_cons]
    rfl

theorem dispositionAt_run (edges : List Edge) (s : BrokerEventMapper) (id : String) :
    dispositionAt (Schedule.run step edges s).db id =
      settled id (dispositionAt s.db id) (performed edges s) := by
  induction edges generalizing s with
  | nil => simp [Schedule.run, performed, settled]
  | cons e edges ih => rw [Schedule.run, ih, dispositionAt_step, performed, settled_append]

theorem admissionAt_run (edges : List Edge) (s : BrokerEventMapper) (id : String) :
    admissionAt (Schedule.run step edges s).db id = admitted id (admissionAt s.db id) (performed edges s) := by
  induction edges generalizing s with
  | nil => rfl
  | cons e edges ih => rw [Schedule.run, ih, admissionAt_step, performed, admitted_append]

/-- Whatever order the edges of a ledger run in, a submission stands at the last live disposition
written, else at what stood before, else at the first retained one; its admission is what the
admission edges made of it, and neither kind of edge writes the columns of the other. -/
theorem admissions_converge (edges : List Edge) (s : BrokerEventMapper) (id : String) :
    dispositionAt (Schedule.run step edges s).db id = settled id (dispositionAt s.db id) (performed edges s) ∧
    admissionAt (Schedule.run step edges s).db id = admitted id (admissionAt s.db id) (performed edges s) ∧
    (∀ input t, dispositionAt (step (.admission input) t).db id = dispositionAt t.db id) ∧
    (∀ submissionId outcome disposedAt onlyIfAbsent t,
      admissionAt (step (.disposition submissionId outcome disposedAt onlyIfAbsent) t).db id = admissionAt t.db id) ∧
    ((admissionAt s.db id).door.isSome → (admissionAt (Schedule.run step edges s).db id).door.isSome) ∧
    ((admissionAt s.db id).envelopeId.isSome →
      (admissionAt (Schedule.run step edges s).db id).envelopeId.isSome) := by
  have hkn := admitted_known id (admissionAt s.db id) (performed edges s)
  rw [← admissionAt_run] at hkn
  refine ⟨dispositionAt_run edges s id, admissionAt_run edges s id, fun input t => ?_,
    fun submissionId outcome disposedAt onlyIfAbsent t => ?_, hkn.1, hkn.2⟩
  · rw [dispositionAt_step]
    split <;> simp [settled, live?, retained?]
  · rw [admissionAt_step]
    split <;> rfl

end Runs

end HrcRuntime.SubmissionAdmissions
