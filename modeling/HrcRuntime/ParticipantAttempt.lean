import HrcRuntime.Keyed
import HrcRuntime.Records

namespace HrcRuntime.Participant

open Keyed Records

inductive RecoveryDisposition where
  | unresolved | reconciled | abandoned
  deriving DecidableEq

inductive EstablishmentWorkState where
  | pending | retryWait | exhausted | completed
  deriving DecidableEq

inductive ActivationClassification where
  | attached | replacement | resume | attachedUnknown
  deriving DecidableEq

inductive ContinuationReason where
  | carried | noContinuation | continuationInvalidated | reuseDisabled | participantFresh
  deriving DecidableEq

inductive ResumeState where
  | notRequested | requested | unsupported | indeterminate
  deriving DecidableEq

structure ContinuationSelection where
  carried : Bool
  reason : ContinuationReason
  selectedJson : Option String := none
  deriving DecidableEq

def ContinuationSelection.checked (s : ContinuationSelection) : Bool :=
  s.carried == s.selectedJson.isSome && s.carried == (s.reason == .carried)

structure AttemptIdentity where
  attemptId : String
  registrationId : String
  attachEpoch : Nat
  requestId : String
  operationId : String
  invocationId : String
  runtimeId : String
  hostBindingId : Option String := none
  createdAt : String
  deriving DecidableEq

structure ParticipantAttempt extends AttemptIdentity where
  state : ParticipantAttemptState
  preparedDescriptorJson : Option String := none
  adapterDispatchEnvJson : Option String := none
  hostingIntentJson : Option String := none
  realizedHostingJson : Option String := none
  dispatchJson : Option String := none
  brokerIdentityJson : Option String := none
  activationClassification : Option ActivationClassification := none
  writerEvidenceJson : Option String := none
  initialActivationConfirmedAt : Option String := none
  recoveryDisposition : RecoveryDisposition := .unresolved
  recoveryReason : Option String := none
  establishmentWorkState : EstablishmentWorkState
  establishmentAttemptCount : Int := 0
  establishmentNextAttemptAt : Option String := none
  establishmentLastError : Option String := none
  attachSocketPath : Option String := none
  continuation : Option ContinuationSelection := none
  resumeState : Option ResumeState := none
  resumeReason : Option String := none
  replacementIntentJson : Option String := none
  dispositionReason : Option String := none
  updatedAt : String
  deriving DecidableEq

namespace ParticipantAttempt

/-- `length(trim(COALESCE(reason, ''))) > 0`: SQLite trims the space alone. -/
def hasReason (reason : Option String) : Bool := (reason.getD "").toList.any (· != ' ')

def checked (r : ParticipantAttempt) : Bool :=
  decide (1 ≤ r.attachEpoch) && r.preparedDescriptorJson.isSome == r.adapterDispatchEnvJson.isSome &&
    decide (0 ≤ r.establishmentAttemptCount) && r.continuation.all ContinuationSelection.checked &&
    (r.recoveryDisposition == .unresolved || hasReason r.recoveryReason)

def sharesRuntime (r other : ParticipantAttempt) : Bool :=
  other.runtimeId != r.runtimeId || (r.hostBindingId.isSome && other.hostBindingId == r.hostBindingId)

end ParticipantAttempt

inductive RepositoryError where
  | constraint | typeError

/-- `UPDATE participant_registration_attempts SET ... WHERE attempt_id = ? AND ...`. -/
structure Update where
  applies : ParticipantAttempt → Bool
  set : ParticipantAttempt → ParticipantAttempt
  keeps : ∀ r, (set r).toAttemptIdentity = r.toAttemptIdentity

/-- `participant_registration_attempts`, with `UNIQUE(registration_id, attach_epoch)`. -/
structure Attempts where
  store : Store ParticipantAttempt (·.attemptId)
  checked : ∀ r ∈ store.rows, r.checked = true
  epochs : (store.rows.map fun r => (r.registrationId, r.attachEpoch)).Nodup

namespace Attempts

def empty : Attempts := ⟨.empty, fun _ hr => absurd hr List.not_mem_nil, List.nodup_nil⟩

def getAttempt (t : Attempts) (attemptId : String) : Option ParticipantAttempt := t.store.find attemptId

/-- The rows the insert of `r` may be beside. -/
def Admissible (t : Attempts) (r : ParticipantAttempt) : Prop :=
  r.checked = true ∧ ∀ other ∈ t.store.rows,
    other.attemptId ≠ r.attemptId ∧ (other.registrationId, other.attachEpoch) ≠ (r.registrationId, r.attachEpoch) ∧
      other.invocationId ≠ r.invocationId ∧ r.sharesRuntime other = true

instance (t : Attempts) (r : ParticipantAttempt) : Decidable (t.Admissible r) :=
  inferInstanceAs (Decidable (_ ∧ ∀ other ∈ t.store.rows, _))

def insertAttempt (t : Attempts) (r : ParticipantAttempt) : Except RepositoryError Attempts :=
  if h : t.Admissible r then
    .ok
      { store := t.store.add r
        checked := fun a ha => (mem_add.mp ha).elim (t.checked a) fun hr => hr.1 ▸ h.1
        epochs := by
          have hfree : t.store.find r.attemptId = none := find_eq_none.mpr fun hmem => by
            obtain ⟨other, hoth, hid⟩ := List.mem_map.mp hmem
            exact (h.2 other hoth).1 hid
          rw [rows_add hfree, List.map_append, List.map_singleton]
          refine List.nodup_append.mpr ⟨t.epochs, List.nodup_singleton _, fun a ha b hb => ?_⟩
          obtain ⟨other, hoth, rfl⟩ := List.mem_map.mp ha
          rw [List.mem_singleton.mp hb]
          exact (h.2 other hoth).2.1 }
  else .error .constraint

def run (t : Attempts) (attemptId : String) (u : Update) : Except RepositoryError (Bool × Attempts) :=
  if h : (t.getAttempt attemptId).all (fun r => !u.applies r || (u.set r).checked) = true then
    .ok (t.store.hits attemptId u.applies,
      { store := t.store.amend attemptId u.applies u.set fun r => congrArg AttemptIdentity.attemptId (u.keeps r)
        checked := fun a ha => by
          obtain ⟨r, hr, rfl⟩ := (mem_amend _).mp ha
          split
          · rename_i hcond
            simp only [Bool.and_eq_true, beq_iff_eq] at hcond
            have hfind : t.getAttempt attemptId = some r := hcond.1 ▸ find_of_mem hr
            simpa [hfind, hcond.2] using h
          · exact t.checked r hr
        epochs := by
          rw [map_amend _ fun r => congrArg (fun i : AttemptIdentity => (i.registrationId, i.attachEpoch)) (u.keeps r)]
          exact t.epochs })
  else .error .constraint

variable {t t' : Attempts} {attemptId : String}

theorem getAttempt_run {u : Update} {changed : Bool}
    (h : t.run attemptId u = .ok (changed, t')) (id : String) :
    t'.getAttempt id = (t.getAttempt id).map fun r =>
      if r.attemptId = attemptId ∧ u.applies r = true then u.set r else r := by
  unfold run at h
  split at h
  · obtain ⟨-, rfl⟩ := Prod.mk.inj (Except.ok.inj h)
    unfold getAttempt
    by_cases hid : id = attemptId
    · subst hid
      rw [find_amend_self]
      cases hf : t.store.find id with
      | none => rfl
      | some r => simp [(find_mem hf).2]
    · rw [find_amend_of_ne _ hid]
      cases hf : t.store.find id with
      | none => rfl
      | some r => simp [(find_mem hf).2, hid]
  · cases h

theorem run_changed {u : Update} (h : t.run attemptId u = .ok (true, t')) :
    ∃ r, t.getAttempt attemptId = some r ∧ u.applies r = true ∧ t'.getAttempt attemptId = some (u.set r) := by
  have hh : t.store.hits attemptId u.applies = true := by
    unfold run at h
    split at h
    · exact (Prod.mk.inj (Except.ok.inj h)).1
    · cases h
  obtain ⟨r, hr, happ⟩ := (Option.any_eq_true _ _).mp hh
  refine ⟨r, hr, happ, ?_⟩
  rw [getAttempt_run h, show t.getAttempt attemptId = some r from hr, Option.map_some, if_pos ⟨(find_mem hr).2, happ⟩]

theorem getAttempt_insert {r : ParticipantAttempt} (h : t.insertAttempt r = .ok t') {id : String}
    {a : ParticipantAttempt} (ha : t.getAttempt id = some a) : t'.getAttempt id = some a := by
  unfold insertAttempt at h
  split at h
  · rename_i hadm
    rw [← Except.ok.inj h]
    obtain ⟨hm, hid⟩ := find_mem ha
    refine (find_add_of_ne ?_).trans ha
    rw [← hid]
    exact (hadm.2 a hm).1
  · cases h

end Attempts

end HrcRuntime.Participant
