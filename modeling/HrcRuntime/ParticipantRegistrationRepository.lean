import HrcRuntime.Json
import HrcRuntime.ParticipantAttempt
import HrcRuntime.Schedule
import HrcRuntime.Text

namespace HrcRuntime.Participant

open Json Keyed Records Text

inductive SnapshotField where
  | hostingIntentJson | realizedHostingJson | dispatchJson | brokerIdentityJson

namespace SnapshotField

def get (r : ParticipantAttempt) : SnapshotField → Option String
  | hostingIntentJson => r.hostingIntentJson
  | realizedHostingJson => r.realizedHostingJson
  | dispatchJson => r.dispatchJson
  | brokerIdentityJson => r.brokerIdentityJson

def put (r : ParticipantAttempt) (value : String) : SnapshotField → ParticipantAttempt
  | hostingIntentJson => { r with hostingIntentJson := some value }
  | realizedHostingJson => { r with realizedHostingJson := some value }
  | dispatchJson => { r with dispatchJson := some value }
  | brokerIdentityJson => { r with brokerIdentityJson := some value }

theorem put_identity (r : ParticipantAttempt) (value : String) (field : SnapshotField) :
    (field.put r value).toAttemptIdentity = r.toAttemptIdentity := by cases field <;> rfl

end SnapshotField

def recordWriterEvidence (attachEpoch : Nat) (writerEvidenceJson updatedAt : String) : Update where
  applies r := r.attachEpoch == attachEpoch
  set r := { r with writerEvidenceJson := some writerEvidenceJson, updatedAt }
  keeps _ := rfl

def storeReplacementIntent (attachEpoch : Nat) (replacementIntentJson updatedAt : String) : Update where
  applies r := r.attachEpoch == attachEpoch && r.replacementIntentJson.isNone
  set r :=
    { r with
      replacementIntentJson := some replacementIntentJson, establishmentWorkState := .pending
      establishmentNextAttemptAt := none, establishmentLastError := none, updatedAt }
  keeps _ := rfl

def replaceReplacementIntent (attachEpoch : Nat) (expectedJson replacementJson updatedAt : String) : Update where
  applies r := r.attachEpoch == attachEpoch && r.replacementIntentJson == some expectedJson
  set r := { r with replacementIntentJson := some replacementJson, updatedAt }
  keeps _ := rfl

structure EstablishmentWork where
  state : EstablishmentWorkState
  attemptCount : Int
  nextAttemptAt : Option String := none
  lastError : Option String := none

def cancelReplacementIntent (attachEpoch : Nat) (expectedIntentJson : String) (work : EstablishmentWork)
    (updatedAt : String) : Update where
  applies r := r.attachEpoch == attachEpoch && r.replacementIntentJson == some expectedIntentJson
  set r :=
    { r with
      replacementIntentJson := none, establishmentWorkState := work.state
      establishmentAttemptCount := work.attemptCount, establishmentNextAttemptAt := work.nextAttemptAt
      establishmentLastError := work.lastError, updatedAt }
  keeps _ := rfl

def pauseReplacementWork (attachEpoch : Nat) (expectedIntentJson reason updatedAt : String) : Update where
  applies r := r.attachEpoch == attachEpoch && r.replacementIntentJson == some expectedIntentJson
  set r :=
    { r with
      establishmentWorkState := .completed, establishmentNextAttemptAt := none
      establishmentLastError := some reason, updatedAt }
  keeps _ := rfl

def rearmReplacementWork (reason updatedAt : String) : Update where
  applies r := r.replacementIntentJson.isSome && r.establishmentWorkState == .completed
  set r :=
    { r with
      establishmentWorkState := .pending, establishmentNextAttemptAt := none
      establishmentLastError := some reason, updatedAt }
  keeps _ := rfl

def completeReplacementWork (attachEpoch : Nat) (expectedIntentJson completedIntentJson updatedAt : String) :
    Update where
  applies r := r.attachEpoch == attachEpoch && r.replacementIntentJson == some expectedIntentJson
  set r :=
    { r with
      replacementIntentJson := some completedIntentJson, establishmentWorkState := .completed
      establishmentNextAttemptAt := none, establishmentLastError := none, updatedAt }
  keeps _ := rfl

def resetExhausted (intentJson renewedJson updatedAt : String) : Update where
  applies r := r.establishmentWorkState == .exhausted && r.replacementIntentJson == some intentJson
  set r :=
    { r with
      replacementIntentJson := some renewedJson, establishmentWorkState := .pending
      establishmentAttemptCount := 0, establishmentNextAttemptAt := none
      establishmentLastError := none, updatedAt }
  keeps _ := rfl

/-- `intent['renewedRecovery'] = ...; JSON.stringify(intent)`: a property cannot be set on a primitive, and one
set on an array is not written out. -/
def withRenewedRecovery (intent : Json) (reason recordedAt : String) : Except RepositoryError String :=
  match intent with
  | Json.obj fields =>
    .ok (Json.obj (fields.set "renewedRecovery" (Json.object [("reason", some (Json.str reason)),
      ("recordedAt", some (Json.str recordedAt))]))).stringify
  | Json.arr items => .ok (Json.arr items).stringify
  | _ => .error .typeError

abbrev Plan := Except RepositoryError (Option Update)

def renewExhaustedReplacement (parse : String → Option Json) (current : Option ParticipantAttempt)
    (reason updatedAt : String) : Plan :=
  if trim reason = "" then .ok none
  else
    match current with
    | none => .ok none
    | some r =>
      match r.replacementIntentJson with
      | none => .ok none
      | some intentJson =>
        if r.establishmentWorkState ≠ .exhausted then .ok none
        else
          match parse intentJson with
          | none => .ok none
          | some intent =>
            match withRenewedRecovery intent (trim reason) updatedAt with
            | .error e => .error e
            | .ok renewedJson => .ok (some (resetExhausted intentJson renewedJson updatedAt))

structure PreparedDescriptor where
  preparedDescriptorJson : String
  adapterDispatchEnvJson : String
  attachSocketPath : Option String := none
  resumeState : Option ResumeState := none
  resumeReason : Option String := none

def attachPreparedDescriptor (attachEpoch : Nat) (input : PreparedDescriptor) (updatedAt : String) : Update where
  applies r := r.attachEpoch == attachEpoch && r.state == .identityMinted && r.preparedDescriptorJson.isNone &&
    r.adapterDispatchEnvJson.isNone
  set r :=
    { r with
      preparedDescriptorJson := some input.preparedDescriptorJson
      adapterDispatchEnvJson := some input.adapterDispatchEnvJson
      attachSocketPath := input.attachSocketPath <|> r.attachSocketPath
      resumeState := input.resumeState <|> r.resumeState
      resumeReason := input.resumeReason <|> r.resumeReason
      state := .prepared, establishmentWorkState := .pending, establishmentAttemptCount := 0
      establishmentNextAttemptAt := none, establishmentLastError := none, updatedAt }
  keeps _ := rfl

def recordContinuationSelectionIfAbsent (selection : ContinuationSelection) (resumeState : ResumeState)
    (updatedAt : String) : Update where
  applies r := r.continuation.isNone
  set r := { r with continuation := some selection, resumeState := some resumeState, updatedAt }
  keeps _ := rfl

def recordResumeOutcome (attachEpoch : Nat) (resumeState : ResumeState) (reason : Option String)
    (updatedAt : String) : Update where
  applies r := r.attachEpoch == attachEpoch
  set r := { r with resumeState := some resumeState, resumeReason := reason, updatedAt }
  keeps _ := rfl

def armParticipantReconnect (updatedAt : String) : Update where
  applies r := r.state == .active && r.establishmentWorkState == .completed && r.preparedDescriptorJson.isSome
  set r :=
    { r with
      establishmentWorkState := .pending, establishmentAttemptCount := 0
      establishmentNextAttemptAt := none, establishmentLastError := none, updatedAt }
  keeps _ := rfl

/-- `establishment_work_state IN ('pending', 'retry_wait')`. -/
def EstablishmentWorkState.isOutstanding : EstablishmentWorkState → Bool
  | pending | retryWait => true
  | exhausted | completed => false

def recordEstablishmentFailure (attachEpoch : Nat) (failedAt nextAttemptAt error : String) (maxAttempts : Int) :
    Update where
  applies r := r.attachEpoch == attachEpoch && r.establishmentWorkState.isOutstanding
  set r :=
    { r with
      establishmentAttemptCount := r.establishmentAttemptCount + 1
      establishmentWorkState := if maxAttempts ≤ r.establishmentAttemptCount + 1 then .exhausted else .retryWait
      establishmentNextAttemptAt := if maxAttempts ≤ r.establishmentAttemptCount + 1 then none else some nextAttemptAt
      establishmentLastError := some error, updatedAt := failedAt }
  keeps _ := rfl

def recordRecoveryDisposition (disposition : RecoveryDisposition) (reason updatedAt : String) : Plan :=
  if trim reason = "" then .ok none
  else
    .ok (some
      { applies := fun r => r.recoveryDisposition == .unresolved && r.state.isSettled
        set := fun r =>
          { r with recoveryDisposition := disposition, recoveryReason := some (trim reason), updatedAt }
        keeps := fun _ => rfl })

def markEstablishmentCompleted (attachEpoch : Nat) (updatedAt : String) : Update where
  applies r := r.attachEpoch == attachEpoch && r.establishmentWorkState.isOutstanding
  set r := { r with establishmentWorkState := .completed, establishmentNextAttemptAt := none, updatedAt }
  keeps _ := rfl

def setSnapshotIfAbsent (field : SnapshotField) (value updatedAt : String) : Update where
  applies r := (field.get r).isNone
  set r := { field.put r value with updatedAt }
  keeps r := field.put_identity r value

def confirmInitialActivation (confirmedAt : String) : Update where
  applies r := r.state == .attachConfirmed && r.initialActivationConfirmedAt.isNone
  set r := { r with state := .active, initialActivationConfirmedAt := some confirmedAt, updatedAt := confirmedAt }
  keeps _ := rfl

def confirmReattachment (confirmedAt : String) : Update where
  applies r := r.state == .attachConfirmed && r.initialActivationConfirmedAt.isSome
  set r := { r with state := .active, updatedAt := confirmedAt }
  keeps _ := rfl

def transitionAttempt (start : List ParticipantAttemptState) (finish : ParticipantAttemptState) (updatedAt : String)
    (dispositionReason : Option String) : Plan :=
  if start.isEmpty || !start.all fun state => allowsParticipantAttemptTransition state finish dispositionReason then
    .ok none
  else
    .ok (some
      { applies := fun r => start.contains r.state
        set := fun r => { r with state := finish, dispositionReason, updatedAt }
        keeps := fun _ => rfl })

inductive Method where
  | recordWriterEvidence (attachEpoch : Nat) (writerEvidenceJson updatedAt : String)
  | storeReplacementIntent (attachEpoch : Nat) (replacementIntentJson updatedAt : String)
  | replaceReplacementIntent (attachEpoch : Nat) (expectedJson replacementJson updatedAt : String)
  | cancelReplacementIntent (attachEpoch : Nat) (expectedIntentJson : String) (work : EstablishmentWork)
      (updatedAt : String)
  | pauseReplacementWork (attachEpoch : Nat) (expectedIntentJson reason updatedAt : String)
  | rearmReplacementWork (reason updatedAt : String)
  | completeReplacementWork (attachEpoch : Nat) (expectedIntentJson completedIntentJson updatedAt : String)
  | renewExhaustedReplacement (reason updatedAt : String)
  | attachPreparedDescriptor (attachEpoch : Nat) (input : PreparedDescriptor) (updatedAt : String)
  | recordContinuationSelectionIfAbsent (selection : ContinuationSelection) (resumeState : ResumeState)
      (updatedAt : String)
  | recordResumeOutcome (attachEpoch : Nat) (resumeState : ResumeState) (reason : Option String) (updatedAt : String)
  | armParticipantReconnect (updatedAt : String)
  | recordEstablishmentFailure (attachEpoch : Nat) (failedAt nextAttemptAt error : String) (maxAttempts : Int)
  | recordRecoveryDisposition (disposition : RecoveryDisposition) (reason updatedAt : String)
  | markEstablishmentCompleted (attachEpoch : Nat) (updatedAt : String)
  | setSnapshotIfAbsent (field : SnapshotField) (value updatedAt : String)
  | confirmInitialActivation (confirmedAt : String)
  | confirmReattachment (confirmedAt : String)
  | transitionAttempt (start : List ParticipantAttemptState) (finish : ParticipantAttemptState) (updatedAt : String)
      (dispositionReason : Option String)

def Method.namedEpoch : Method → Option Nat
  | .recordWriterEvidence epoch .. | .storeReplacementIntent epoch .. | .replaceReplacementIntent epoch ..
  | .cancelReplacementIntent epoch .. | .pauseReplacementWork epoch .. | .completeReplacementWork epoch ..
  | .attachPreparedDescriptor epoch .. | .recordResumeOutcome epoch .. | .recordEstablishmentFailure epoch ..
  | .markEstablishmentCompleted epoch _ => some epoch
  | _ => none

/-- `JSON.parse` is the parameter `parse`, `none` where it throws. -/
def plan (parse : String → Option Json) (current : Option ParticipantAttempt) : Method → Plan
  | .recordWriterEvidence epoch json now => .ok (some (recordWriterEvidence epoch json now))
  | .storeReplacementIntent epoch json now => .ok (some (storeReplacementIntent epoch json now))
  | .replaceReplacementIntent epoch expected json now => .ok (some (replaceReplacementIntent epoch expected json now))
  | .cancelReplacementIntent epoch expected work now => .ok (some (cancelReplacementIntent epoch expected work now))
  | .pauseReplacementWork epoch expected reason now => .ok (some (pauseReplacementWork epoch expected reason now))
  | .rearmReplacementWork reason now => .ok (some (rearmReplacementWork reason now))
  | .completeReplacementWork epoch expected json now => .ok (some (completeReplacementWork epoch expected json now))
  | .renewExhaustedReplacement reason now => renewExhaustedReplacement parse current reason now
  | .attachPreparedDescriptor epoch input now => .ok (some (attachPreparedDescriptor epoch input now))
  | .recordContinuationSelectionIfAbsent selection state now =>
    .ok (some (recordContinuationSelectionIfAbsent selection state now))
  | .recordResumeOutcome epoch state reason now => .ok (some (recordResumeOutcome epoch state reason now))
  | .armParticipantReconnect now => .ok (some (armParticipantReconnect now))
  | .recordEstablishmentFailure epoch failedAt next error maxAttempts =>
    .ok (some (recordEstablishmentFailure epoch failedAt next error maxAttempts))
  | .recordRecoveryDisposition disposition reason now => recordRecoveryDisposition disposition reason now
  | .markEstablishmentCompleted epoch now => .ok (some (markEstablishmentCompleted epoch now))
  | .setSnapshotIfAbsent field value now => .ok (some (setSnapshotIfAbsent field value now))
  | .confirmInitialActivation now => .ok (some (confirmInitialActivation now))
  | .confirmReattachment now => .ok (some (confirmReattachment now))
  | .transitionAttempt start finish now reason => transitionAttempt start finish now reason

/-- A method of one attempt: `result.changes === 1`, and the table. -/
def Attempts.perform (parse : String → Option Json) (t : Attempts) (attemptId : String) (m : Method) :
    Except RepositoryError (Bool × Attempts) :=
  match plan parse (t.getAttempt attemptId) m with
  | .error e => .error e
  | .ok none => .ok (false, t)
  | .ok (some u) => t.run attemptId u

inductive StoreOutcome where
  | stored | same | conflict

/-- What `storeReplacementIntent` answers for the row it read and whether its statement changed it. -/
def storeOutcome (current : Option ParticipantAttempt) (attachEpoch : Nat) (replacementIntentJson : String)
    (changed : Bool) : StoreOutcome :=
  match current with
  | none => .conflict
  | some r =>
    if r.attachEpoch ≠ attachEpoch then .conflict
    else
      match r.replacementIntentJson with
      | some json => if json = replacementIntentJson then .same else .conflict
      | none => if changed then .stored else .conflict

inductive JoinDirection where
  | hrcHosted | participantServed

inductive AddressPolicy where
  | permanentKeyed | selectedScope

inductive ContinuityPolicy where
  | keyScoped | hostIncarnation

inductive LifecycleOwner where
  | hrcManaged | externallyOwned

inductive ReplaySemantics where
  | none | fullSourceReplay

structure RegistrationPolicy where
  addressPolicy : AddressPolicy
  continuityPolicy : ContinuityPolicy
  lifecycleOwner : LifecycleOwner
  replaySemantics : ReplaySemantics

structure ParticipantRegistration where
  registrationId : String
  classId : Option String := none
  join : JoinDirection
  participantKey : Option String := none
  scopeRef : String
  laneRef : String
  hostSessionId : String
  generation : Nat
  workspaceCwd : Option String := none
  socketPath : Option String := none
  policy : Option RegistrationPolicy := none
  hostIncarnationId : Option String := none
  createdAt : String
  updatedAt : String

abbrev Registrations := Store ParticipantRegistration (·.registrationId)

/-- `UPDATE participant_registrations SET ... WHERE registration_id = ? AND ...`. -/
structure RegistrationUpdate where
  applies : ParticipantRegistration → Bool
  set : ParticipantRegistration → ParticipantRegistration
  keeps : ∀ r, (set r).registrationId = r.registrationId

def Registrations.run (t : Registrations) (registrationId : String) (u : RegistrationUpdate) :
    Except RepositoryError (Bool × Registrations) :=
  if (t.find registrationId).any fun r => u.applies r && decide ((u.set r).generation < 1) then .error .constraint
  else .ok (t.hits registrationId u.applies, t.amend registrationId u.applies u.set u.keeps)

def insertRegistration (t : Registrations) (r : ParticipantRegistration) : Except RepositoryError Registrations :=
  if r.policy.isSome && r.hostIncarnationId.isSome && decide (1 ≤ r.generation) &&
      t.rows.all fun other => other.registrationId != r.registrationId && other.scopeRef != r.scopeRef then
    .ok (t.add r)
  else .error .constraint

def updateDirectRegistrationForHostSuccessor (expectedHostSessionId hostSessionId : String) (generation : Nat)
    (hostIncarnationId : String) (workspaceCwd socketPath : Option String) (updatedAt : String) :
    RegistrationUpdate where
  applies r := r.hostSessionId == expectedHostSessionId
  set r :=
    { r with
      hostSessionId, generation, hostIncarnationId := some hostIncarnationId
      workspaceCwd := workspaceCwd <|> r.workspaceCwd, socketPath := socketPath <|> r.socketPath, updatedAt }
  keeps _ := rfl

def updateDirectRegistrationForBridgeSuccessor (expectedHostSessionId expectedHostIncarnationId : String)
    (workspaceCwd socketPath : Option String) (updatedAt : String) : RegistrationUpdate where
  applies r := r.hostSessionId == expectedHostSessionId && r.hostIncarnationId == some expectedHostIncarnationId
  set r :=
    { r with
      workspaceCwd := workspaceCwd <|> r.workspaceCwd, socketPath := socketPath <|> r.socketPath, updatedAt }
  keeps _ := rfl

def setServingSocketPathIfAbsent (socketPath updatedAt : String) : RegistrationUpdate where
  applies r := r.socketPath.isNone
  set r := { r with socketPath := some socketPath, updatedAt }
  keeps _ := rfl

structure Repository where
  registrations : Registrations
  attempts : Attempts

inductive Call where
  | insertRegistration (r : ParticipantRegistration)
  | updateForHostSuccessor (registrationId expectedHostSessionId hostSessionId : String) (generation : Nat)
      (hostIncarnationId : String) (workspaceCwd socketPath : Option String) (updatedAt : String)
  | updateForBridgeSuccessor (registrationId expectedHostSessionId expectedHostIncarnationId : String)
      (workspaceCwd socketPath : Option String) (updatedAt : String)
  | setServingSocketPathIfAbsent (registrationId socketPath updatedAt : String)
  | insertAttempt (r : ParticipantAttempt)
  | attempt (attemptId : String) (m : Method)

namespace Repository

def insertAttempt (s : Repository) (r : ParticipantAttempt) : Except RepositoryError Attempts :=
  if (s.registrations.find r.registrationId).isSome then s.attempts.insertAttempt r else .error .constraint

variable (parse : String → Option Json)

def step (call : Call) (s : Repository) : Repository :=
  match call with
  | .insertRegistration r =>
    match Participant.insertRegistration s.registrations r with
    | .ok registrations => { s with registrations }
    | .error _ => s
  | .updateForHostSuccessor id expected session generation incarnation cwd socket now =>
    ran s (s.registrations.run id
      (updateDirectRegistrationForHostSuccessor expected session generation incarnation cwd socket now))
  | .updateForBridgeSuccessor id expected incarnation cwd socket now =>
    ran s (s.registrations.run id
      (updateDirectRegistrationForBridgeSuccessor expected incarnation cwd socket now))
  | .setServingSocketPathIfAbsent id socket now =>
    ran s (s.registrations.run id (Participant.setServingSocketPathIfAbsent socket now))
  | .insertAttempt r =>
    match s.insertAttempt r with
    | .ok attempts => { s with attempts }
    | .error _ => s
  | .attempt attemptId m =>
    match s.attempts.perform parse attemptId m with
    | .ok (_, attempts) => { s with attempts }
    | .error _ => s
where
  ran (s : Repository) : Except RepositoryError (Bool × Registrations) → Repository
    | .ok (_, registrations) => { s with registrations }
    | .error _ => s

end Repository

end HrcRuntime.Participant
