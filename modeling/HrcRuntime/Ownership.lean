import Mathlib.Data.List.Infix
import HrcRuntime.InputRepository
import HrcRuntime.Repositories

namespace HrcRuntime.Ownership

open Json Records Relational Database Program Mapper EventRepository

structure TurnCoordinates where
  turnId : String
  harnessGeneration : Option Nat := none
  turnAttempt : Option Nat := none
  deriving DecidableEq

structure ParsedEvent extends TurnCoordinates where
  type : EventType
  seq : Nat
  runtimeId : String
  inputId : Option String := none
  submissionId : Option String := none
  ownership : Option String := none

def parseStoredEvent (row : HrcBrokerInvocationEventRecord) : Option ParsedEvent :=
  (effectiveTurnId row).map fun turnId =>
    { type := row.type, seq := row.seq, runtimeId := row.runtimeId, turnId
      harnessGeneration := row.harnessGeneration, turnAttempt := row.turnAttempt
      inputId := ((row.brokerEnvelopeJson.bind (·.inputId)).or (row.brokerEventJson.stringField "inputId")).filter
        fun id => !id.isEmpty
      submissionId := row.brokerEventJson.stringField "submissionId"
      ownership := row.brokerEventJson.stringField "ownership" }

def coordinatesForEnvelope (envelope : InvocationEventEnvelope) : Option TurnCoordinates :=
  (envelope.turnId.or (envelope.payload.stringField "turnId")).map fun turnId =>
    { turnId, harnessGeneration := envelope.harnessGeneration, turnAttempt := envelope.turnAttempt }

def coordinatesMatch (target evidence : TurnCoordinates) : Bool :=
  target.turnId == evidence.turnId
    && (target.harnessGeneration.isNone || evidence.harnessGeneration == target.harnessGeneration)
    && (target.turnAttempt.isNone || evidence.turnAttempt == target.turnAttempt)

def inputIdForEnvelope (envelope : InvocationEventEnvelope) : Option String :=
  envelope.inputId.or (envelope.payload.stringField "inputId")

def runForInput (db : Db) (inputId : String) : Option HrcRunRecord :=
  (RunRepository.getByDispatchedInputId db inputId).or (RunRepository.getByBrokerSubmissionId db inputId)

structure HistoricalEpoch where
  invocation : HrcBrokerInvocationRecord
  operation : HrcRuntimeOperationRecord

def historicalEpoch (db : Db) (invocationId : String) : Option HistoricalEpoch := do
  let invocation ← getByInvocationId db invocationId
  let operation ← Repositories.getByOperationId db invocation.operationId
  if invocation.runtimeId != operation.runtimeId || invocation.operationId != operation.operationId then none
  else some { invocation, operation }

def HistoricalEpoch.owns (epoch : HistoricalEpoch) (invocationId : String) (run : HrcRunRecord) : Bool :=
  run.runtimeId == some epoch.invocation.runtimeId && run.invocationId == some invocationId
    && run.operationId == some epoch.invocation.operationId && run.generation == epoch.operation.generation

def validCandidate (db : Db) (invocationId runId : String) : Option String := do
  let epoch ← historicalEpoch db invocationId
  let run ← RunRepository.getByRunId db runId
  if epoch.owns invocationId run then some run.runId else none

def turnEvidenceTypes : List EventType := [.turnStarted, .turnAttributed, .submissionExecuted]

def turnTerminalTypes : List EventType := [.turnCompleted, .turnFailed, .turnInterrupted]

def isLaunchCarriedInvokeCorrelationJson (json : Option Json) : Bool :=
  match json with
  | some json => json.stringField "kind" == some "launch_carried_invoke_turn"
  | none => false

def inputCandidate (db : Db) (invocationId : String) (inputId : Option String) : Option String := do
  let run ← runForInput db (← inputId)
  validCandidate db invocationId run.runId

def submissionCandidate (db : Db) (invocationId : String) (submissionId : Option String) : Option String := do
  let run ← RunRepository.getByBrokerSubmissionId db (← submissionId)
  validCandidate db invocationId run.runId

def evidenceCandidate (db : Db) (invocationId : String) (event : ParsedEvent) : Option String :=
  match event.type with
  | .turnStarted => inputCandidate db invocationId event.inputId
  | .turnAttributed => if event.ownership == some "own" then inputCandidate db invocationId event.inputId else none
  | .submissionExecuted => submissionCandidate db invocationId event.submissionId
  | _ => none

def isForeign (type : EventType) (ownership : Option String) : Bool :=
  type == .turnAttributed && ownership == some "foreign"

def turnEvidence (db : Db) (invocationId runtimeId : String) (target : TurnCoordinates) (throughSeq : Nat) :
    List ParsedEvent :=
  ((listByInvocationIdAndTypes db invocationId
    { types := turnEvidenceTypes, throughSeq := some throughSeq, runtimeId := some runtimeId
      turnId := some target.turnId }).filterMap parseStoredEvent).filter fun event =>
    coordinatesMatch target event.toTurnCoordinates

def storedFirstStart (db : Db) (invocationId runtimeId : String) (throughSeq : Nat) : Option ParsedEvent :=
  (listByInvocationIdAndTypes db invocationId
    { types := [.turnStarted], throughSeq := some throughSeq, runtimeId := some runtimeId
      hasTurnId := true }).head?.bind parseStoredEvent

def envelopeCandidate (db : Db) (envelope : InvocationEventEnvelope) : Option String :=
  if envelope.type == .turnStarted
      || (envelope.type == .turnAttributed && envelope.payload.stringField "ownership" == some "own") then
    inputCandidate db envelope.invocationId (inputIdForEnvelope envelope)
  else none

def launchMarkerApplies (envelope : InvocationEventEnvelope) (target : TurnCoordinates)
    (firstStart : Option ParsedEvent) : Bool :=
  match firstStart with
  | none => envelope.type == .turnStarted && (inputIdForEnvelope envelope).isNone
  | some first => first.inputId.isNone && coordinatesMatch target first.toTurnCoordinates

def launchCandidates (db : Db) (invocationId : String) (epoch : HistoricalEpoch) : List String :=
  (RunRepository.listCorrelatedByInvocationId db invocationId).filterMap fun run =>
    if epoch.owns invocationId run
        && isLaunchCarriedInvokeCorrelationJson (RunRepository.getCorrelationJson db run.runId) then
      validCandidate db invocationId run.runId
    else none

def onlyOne (l : List String) : Option String :=
  match l with
  | [] => none
  | r :: rest => if rest.all (· == r) then some r else none

def ownerCandidates (db : Db) (envelope : InvocationEventEnvelope) (target : TurnCoordinates)
    (epoch : HistoricalEpoch) : List String :=
  let invocationId := envelope.invocationId
  let runtimeId := epoch.invocation.runtimeId
  (turnEvidence db invocationId runtimeId target envelope.seq).filterMap (evidenceCandidate db invocationId)
    ++ (envelopeCandidate db envelope).toList
    ++ if launchMarkerApplies envelope target (storedFirstStart db invocationId runtimeId envelope.seq) then
        launchCandidates db invocationId epoch
      else []

def turnIsForeign (db : Db) (envelope : InvocationEventEnvelope) (target : TurnCoordinates)
    (epoch : HistoricalEpoch) : Bool :=
  (turnEvidence db envelope.invocationId epoch.invocation.runtimeId target envelope.seq).any
      (fun event => isForeign event.type event.ownership)
    || isForeign envelope.type (envelope.payload.stringField "ownership")

def resolveExactTurnOwner (db : Db) (envelope : InvocationEventEnvelope) : Option String := do
  let target ← coordinatesForEnvelope envelope
  let epoch ← historicalEpoch db envelope.invocationId
  if turnIsForeign db envelope target epoch then none
  else onlyOne (ownerCandidates db envelope target epoch)

def turnBrackets (db : Db) (envelope : InvocationEventEnvelope) : List ParsedEvent :=
  (listByInvocationIdAndTypes db envelope.invocationId
    { types := .turnStarted :: turnTerminalTypes, throughSeq := some envelope.seq }).filterMap parseStoredEvent

def isClosedIn (events : List ParsedEvent) (started : ParsedEvent) : Bool :=
  events.any fun terminal => decide (started.seq < terminal.seq) && terminal.type.isTurnTerminal
    && terminal.toTurnCoordinates == started.toTurnCoordinates

/-- The `seq` of the first start of a turn. -/
def startedSeq (events : List ParsedEvent) (target : TurnCoordinates) : Option Nat :=
  (events.find? fun event => event.type == .turnStarted && event.toTurnCoordinates == target).map (·.seq)

def hasOtherOpenTurn (db : Db) (envelope : InvocationEventEnvelope) : Bool :=
  match coordinatesForEnvelope envelope with
  | none => false
  | some target =>
    let events := turnBrackets db envelope
    events.any fun started =>
      started.type == .turnStarted && started.toTurnCoordinates != target
        && (match startedSeq events target with
          | some seq => decide (seq ≤ started.seq)
          | none => true)
        && !isClosedIn events started

def supersededRun (db : Db) (invocationId : String) (started : ParsedEvent) : Option String := do
  let run ← runForInput db (← started.inputId)
  if run.completedAt.isSome then none else validCandidate db invocationId run.runId

def runsSupersededByTerminal (db : Db) (envelope : InvocationEventEnvelope) : List String :=
  match coordinatesForEnvelope envelope with
  | none => []
  | some target =>
    let events := turnBrackets db envelope
    match startedSeq events target with
    | none => []
    | some targetSeq =>
      ((events.filter fun started => started.type == .turnStarted && decide (started.seq < targetSeq)
        && !isClosedIn events started).filterMap
          (supersededRun db envelope.invocationId)).eraseDups

def isSteerSubmission (db : Db) (invocationId submissionId : String) : Bool :=
  (listByInvocationIdAndTypes db invocationId { types := [.admissionAdmitted] }).any fun row =>
    row.brokerEventJson.stringField "submissionId" == some submissionId
      && row.brokerEventJson.member "class" == some (.str "steer")

def absorbedBefore (a b : HrcBrokerInvocationEventRecord) : Prop :=
  a.invocationId < b.invocationId ∨ a.invocationId = b.invocationId ∧ a.seq ≤ b.seq

instance (a b : HrcBrokerInvocationEventRecord) : Decidable (absorbedBefore a b) := by
  unfold absorbedBefore; infer_instance

def absorbedRows (db : Db) (runtimeId invocationId : String) : List HrcBrokerInvocationEventRecord :=
  (db.brokerInvocationEvents.rows.filter fun r =>
    r.runtimeId == runtimeId && r.type == .submissionAbsorbed
      && (invocationId.isEmpty || r.invocationId == invocationId)).insertionSort absorbedBefore

def absorbedInTurn (db : Db) (envelope : InvocationEventEnvelope) (target : TurnCoordinates)
    (throughSeq : Option Nat) : List ParsedEvent :=
  ((listByInvocationIdAndTypes db envelope.invocationId
    { types := [.submissionAbsorbed], turnId := some target.turnId, throughSeq }).filterMap
      parseStoredEvent).filter fun event => coordinatesMatch target event.toTurnCoordinates

def unresolvedAbsorbedOwnerMarker : String := "absorbed_submission_owner_unresolved"

def unresolvedMarker (message : Option String) : Bool :=
  match message with
  | some message => message.toList.tails.any unresolvedAbsorbedOwnerMarker.toList.isPrefixOf
  | none => false

def isAuxiliary (db : Db) (epoch : HistoricalEpoch) (invocationId submissionId ownerRunId : String)
    (auxiliary : HrcRunRecord) : Bool :=
  (RunRepository.getByRunId db ownerRunId).isSome && auxiliary.runId != ownerRunId
    && isSteerSubmission db invocationId submissionId && auxiliary.startedAt.isNone
    && epoch.owns invocationId auxiliary && (validCandidate db invocationId ownerRunId).isSome

variable [Host]

def coalesce (auxiliary : HrcRunRecord) (ownerRunId completedAt : String) : M Unit :=
  match auxiliary.coalescedIntoRunId with
  | some other =>
    if other == ownerRunId then pure ()
    else fail s!"absorbed auxiliary {auxiliary.runId} already belongs to {other}"
  | none =>
    match auxiliary.status with
    | .accepted | .completed =>
      RunRepository.update auxiliary.runId
        { status := some .coalesced, completedAt := some (some (auxiliary.completedAt.getD completedAt))
          updatedAt := some completedAt, coalescedIntoRunId := some ownerRunId }
    | .failed | .cancelled | .zombie =>
      RunRepository.update auxiliary.runId
        { coalescedIntoRunId := some ownerRunId, updatedAt := some completedAt }
    | _ => pure ()

def settleAuxiliary (invocationId submissionId ownerRunId completedAt : String) : M Unit := do
  let found ← query fun db =>
    match historicalEpoch db invocationId, RunRepository.getByBrokerSubmissionId db submissionId with
    | some epoch, some auxiliary =>
      if isAuxiliary db epoch invocationId submissionId ownerRunId auxiliary then some auxiliary else none
    | _, _ => none
  match found with
  | none => pure ()
  | some auxiliary => coalesce auxiliary ownerRunId completedAt

def settleAbsorbedAuxiliary (envelope : InvocationEventEnvelope) (ownerRunId now : String) : M Unit :=
  match envelope.type, envelope.payload.stringField "submissionId" with
  | .submissionAbsorbed, some submissionId =>
    settleAuxiliary envelope.invocationId submissionId ownerRunId (envelope.time.getD now)
  | _, _ => pure ()

def settlePriorAbsorbedAuxiliaries (envelope : InvocationEventEnvelope) (ownerRunId now : String) : M Unit :=
  match coordinatesForEnvelope envelope with
  | none => pure ()
  | some target => do
      let absorbed ← query (absorbedInTurn · envelope target none)
      Prog.forEach absorbed fun event =>
        match event.submissionId with
        | none => pure ()
        | some submissionId => settleAuxiliary envelope.invocationId submissionId ownerRunId now

def absorbedSteer (db : Db) (epoch : HistoricalEpoch) (invocationId : String) (event : ParsedEvent) :
    Option HrcRunRecord := do
  let submissionId ← event.submissionId
  let run ← RunRepository.getByBrokerSubmissionId db submissionId
  if isSteerSubmission db invocationId submissionId && run.status == .accepted && run.startedAt.isNone
      && run.coalescedIntoRunId.isNone && epoch.owns invocationId run then some run
  else none

def settleUnownedTurnAbsorbedSteers (envelope : InvocationEventEnvelope) (outcome : RunStatus) (now : String) :
    M Unit := do
  let epoch ← query (historicalEpoch · envelope.invocationId)
  match coordinatesForEnvelope envelope, epoch with
  | some target, some epoch => do
      let absorbed ← query (absorbedInTurn · envelope target (some envelope.seq))
      Prog.forEach absorbed fun event => do
        let run ← query (absorbedSteer · epoch envelope.invocationId event)
        match run with
        | none => pure ()
        | some run =>
          RunRepository.markCompleted run.runId
            { status := outcome, completedAt := envelope.time.getD now, updatedAt := now }
  | _, _ => pure ()

def unresolvedAuxiliary (db : Db) (row : HrcBrokerInvocationEventRecord) : Option HrcRunRecord := do
  let submissionId ← row.brokerEventJson.stringField "submissionId"
  let run ← RunRepository.getByBrokerSubmissionId db submissionId
  if isSteerSubmission db row.invocationId submissionId && run.startedAt.isNone
      && run.coalescedIntoRunId.isNone && !unresolvedMarker run.errorMessage then some run
  else none

def unresolvedDetail (invocationId : String) : String :=
  s!"{unresolvedAbsorbedOwnerMarker}: invocation {invocationId} ended before exact turn ownership was established"

def failUnresolved (invocationId now : String) (run : HrcRunRecord) : M Unit :=
  let detail := unresolvedDetail invocationId
  match run.status with
  | .accepted | .completed =>
    RunRepository.markCompleted run.runId
      { status := .failed, completedAt := run.completedAt.getD now, updatedAt := now
        errorCode := some .runtimeUnavailable, errorMessage := some detail }
  | _ =>
    let errorMessage := match run.errorMessage with
      | some message => if message.isEmpty then detail else s!"{message}; {detail}"
      | none => detail
    RunRepository.update run.runId { updatedAt := some now, errorMessage := some (some errorMessage) }

def failUnresolvedAbsorbedAuxiliaries (runtimeId invocationId now : String) : M Unit := do
  let absorbed ← query (absorbedRows · runtimeId invocationId)
  Prog.forEach absorbed fun row => do
    let run ← query (unresolvedAuxiliary · row)
    match run with
    | none => pure ()
    | some run => failUnresolved row.invocationId now run

structure AbsorbedAuxiliary (db : Db) (run : HrcRunRecord) : Prop where
  mem : run ∈ db.runs.rows
  steer : ∃ invocationId submissionId, run.brokerSubmissionId = some submissionId ∧
    isSteerSubmission db invocationId submissionId = true
  unstarted : run.startedAt = none
  uncoalesced : run.coalescedIntoRunId = none

structure AbsorbedBy (db : Db) (auxiliary : HrcRunRecord) (ownerRunId : String) : Prop where
  found : ∃ invocationId epoch submissionId, historicalEpoch db invocationId = some epoch ∧
    isAuxiliary db epoch invocationId submissionId ownerRunId auxiliary = true

inductive Settlement (db : Db) : Write → Prop where
  | coalesced {run : HrcRunRecord} (ownerRunId completedAt : String) (h : AbsorbedAuxiliary db run)
      (hs : run.status = .accepted ∨ run.status = .completed) (ho : AbsorbedBy db run ownerRunId) :
      Settlement db (.updateRun run.runId
        { status := some .coalesced, completedAt := some (some (run.completedAt.getD completedAt))
          updatedAt := some completedAt, coalescedIntoRunId := some ownerRunId })
  | joined {run : HrcRunRecord} (ownerRunId completedAt : String) (h : AbsorbedAuxiliary db run)
      (hs : run.status = .failed ∨ run.status = .cancelled ∨ run.status = .zombie) (ho : AbsorbedBy db run ownerRunId) :
      Settlement db (.updateRun run.runId
        { coalescedIntoRunId := some ownerRunId, updatedAt := some completedAt })
  | unresolved {run : HrcRunRecord} (now detail : String) (h : AbsorbedAuxiliary db run)
      (hs : run.status = .accepted ∨ run.status = .completed) :
      Settlement db (.completeRun run.runId
        { status := .failed, completedAt := run.completedAt.getD now, updatedAt := now
          errorCode := some .runtimeUnavailable, errorMessage := some detail })
  | marked {run : HrcRunRecord} (now message : String) (h : AbsorbedAuxiliary db run) :
      Settlement db (.updateRun run.runId { updatedAt := some now, errorMessage := some (some message) })

/-- What the end of an invocation writes about the auxiliaries that were unresolved in `base`. -/
inductive UnresolvedEnd (base : Db) (runtimeId invocationId : String) : Write → Prop where
  | failed {row : HrcBrokerInvocationEventRecord} {run : HrcRunRecord} (now : String)
      (hrow : row ∈ absorbedRows base runtimeId invocationId) (hrun : unresolvedAuxiliary base row = some run)
      (hs : run.status = .accepted ∨ run.status = .completed) :
      UnresolvedEnd base runtimeId invocationId (.completeRun run.runId
        { status := .failed, completedAt := run.completedAt.getD now, updatedAt := now
          errorCode := some .runtimeUnavailable, errorMessage := some (unresolvedDetail row.invocationId) })
  | marked (runId now text endedId : String) : UnresolvedEnd base runtimeId invocationId (.updateRun runId
      { updatedAt := some now, errorMessage := some (some (text ++ unresolvedDetail endedId)) })

def LinksTo (q : String → String → Prop) (w : Write) : Prop :=
  ∀ runId patch ownerRunId, w = .updateRun runId patch → patch.coalescedIntoRunId = some ownerRunId → q runId ownerRunId

inductive SteerEnd (db : Db) (envelope : InvocationEventEnvelope) : Write → Prop where
  | ended {run : HrcRunRecord} {target : TurnCoordinates} {event : ParsedEvent} (outcome : RunStatus)
      (now : String) (h : AbsorbedAuxiliary db run) (hs : run.status = .accepted)
      (ht : coordinatesForEnvelope envelope = some target)
      (he : event ∈ absorbedInTurn db envelope target (some envelope.seq))
      (hsub : event.submissionId = run.brokerSubmissionId) (houtcome : outcome.isRunTerminal = true) :
      SteerEnd db envelope (.completeRun run.runId
        { status := outcome, completedAt := envelope.time.getD now, updatedAt := now })

section Rules

variable {P : Db → Write → Prop}

variable {envelope : InvocationEventEnvelope} {run : HrcRunRecord} {ownerRunId invocationId : String}

variable {row : HrcBrokerInvocationEventRecord} {s : BrokerEventMapper} {epoch : HistoricalEpoch}
  {now submissionId completedAt : String} {db : Db}

omit [Host] in
theorem isAuxiliary_absorbed
    (hs : RunRepository.getByBrokerSubmissionId db submissionId = some run)
    (h : isAuxiliary db epoch invocationId submissionId ownerRunId run = true)
    (hc : run.coalescedIntoRunId = none) : AbsorbedAuxiliary db run := by
  simp only [isAuxiliary, Bool.and_eq_true, Option.isNone_iff_eq_none] at h
  have hr := List.find?_some hs
  exact ⟨List.mem_of_find?_eq_some hs, ⟨invocationId, submissionId, by simpa using hr, h.1.1.1.2⟩,
    h.1.1.2, hc⟩

omit [Host] in
theorem linksTo_update {q : String → String → Prop} {runId : String} {patch : RunPatch}
    (h : ∀ ownerRunId ∈ patch.coalescedIntoRunId, q runId ownerRunId) : LinksTo q (.updateRun runId patch) := by
  rintro _ _ ownerRunId ⟨⟩ hown
  exact h ownerRunId hown

theorem coalesce_writesFrom {auxiliary : HrcRunRecord}
    (h : auxiliary.coalescedIntoRunId = none → AbsorbedAuxiliary s.db auxiliary) (ho : AbsorbedBy s.db auxiliary ownerRunId)
    (hP : ∀ w, Settlement s.db w → LinksTo (fun _ owner => owner = ownerRunId) w → P s.db w) :
    WritesFrom P s (coalesce auxiliary ownerRunId completedAt) := by
  have hto (runId : String) (patch : RunPatch) (hp : patch.coalescedIntoRunId = some ownerRunId) :
      LinksTo (fun _ owner => owner = ownerRunId) (.updateRun runId patch) :=
    linksTo_update fun _ hown => Option.some.inj (hown.symm.trans hp)
  unfold coalesce
  split
  · split
    · exact EmitsFrom.pure _
    · exact EmitsFrom.throw _
  · rename_i hn
    split
    · exact RunRepository.update_writesFrom (hP _ (.coalesced _ _ (h hn) (.inl ‹_›) ho) (hto _ _ rfl))
    · exact RunRepository.update_writesFrom (hP _ (.coalesced _ _ (h hn) (.inr ‹_›) ho) (hto _ _ rfl))
    · exact RunRepository.update_writesFrom (hP _ (.joined _ _ (h hn) (.inl ‹_›) ho) (hto _ _ rfl))
    · exact RunRepository.update_writesFrom (hP _ (.joined _ _ (h hn) (.inr (.inl ‹_›)) ho) (hto _ _ rfl))
    · exact RunRepository.update_writesFrom (hP _ (.joined _ _ (h hn) (.inr (.inr ‹_›)) ho) (hto _ _ rfl))
    · exact EmitsFrom.pure _

theorem settleAuxiliary_writes
    (hP : ∀ db w, Settlement db w → LinksTo (fun _ owner => owner = ownerRunId) w → P db w) :
    Writes P (settleAuxiliary invocationId submissionId ownerRunId completedAt) := by
  intro s
  refine WritesFrom.query_bind ?_
  split
  · exact EmitsFrom.pure _
  · rename_i auxiliary hf
    split at hf
    · rename_i epoch run he hs
      split at hf
      · rename_i haux
        cases hf
        exact coalesce_writesFrom (isAuxiliary_absorbed hs haux) ⟨_, _, _, he, haux⟩ (hP s.db)
      · cases hf
    · cases hf

theorem settleAbsorbedAuxiliary_writes
    (hP : ∀ db w, Settlement db w → LinksTo (fun _ owner => owner = ownerRunId) w → P db w) :
    Writes P (settleAbsorbedAuxiliary envelope ownerRunId now) := by
  unfold settleAbsorbedAuxiliary
  split
  · exact settleAuxiliary_writes hP
  · exact Emits.pure _

theorem settlePriorAbsorbedAuxiliaries_writes
    (hP : ∀ db w, Settlement db w → LinksTo (fun _ owner => owner = ownerRunId) w → P db w) :
    Writes P (settlePriorAbsorbedAuxiliaries envelope ownerRunId now) := by
  unfold settlePriorAbsorbedAuxiliaries
  split
  · exact Emits.pure _
  · refine Emits.bind (Emits.of_readOnly (query_readOnly _)) fun absorbed => Emits.forEach fun event => ?_
    split
    · exact Emits.pure _
    · exact settleAuxiliary_writes hP

omit [Host] in
theorem absorbedSteer_absorbed {event : ParsedEvent}
    (h : absorbedSteer db epoch invocationId event = some run) :
    AbsorbedAuxiliary db run ∧ run.status = .accepted ∧ event.submissionId = run.brokerSubmissionId := by
  simp only [absorbedSteer, Option.bind_eq_bind, Option.bind_eq_some_iff] at h
  obtain ⟨submissionId, hs, found, hf, h⟩ := h
  split at h
  · cases h
    rename_i hc
    simp only [Bool.and_eq_true, Option.isNone_iff_eq_none, beq_iff_eq] at hc
    have hr : run.brokerSubmissionId = some submissionId := by simpa using List.find?_some hf
    exact ⟨⟨List.mem_of_find?_eq_some hf, ⟨invocationId, submissionId, hr, hc.1.1.1.1⟩,
      hc.1.1.2, hc.1.2⟩, hc.1.1.1.2, hs.trans hr.symm⟩
  · cases h

theorem settleUnownedTurnAbsorbedSteers_writes {outcome : RunStatus}
    (hout : outcome.isRunTerminal = true) (hP : ∀ db w, SteerEnd db envelope w → P db w) :
    Writes P (settleUnownedTurnAbsorbedSteers envelope outcome now) := by
  refine Writes.mono (P := fun db w => SteerEnd db envelope w) ?_ hP
  intro s
  refine WritesFrom.query_bind ?_
  split
  · rename_i target epoch htr _
    refine WritesFrom.query_bind ?_
    refine EmitsFrom.forEach (fun t => t.db.brokerInvocationEvents = s.db.brokerInvocationEvents)
      (fun a b hab ha => ?_) (fun event he t ht => ?_) rfl
    · cases hab with
      | quiet h => rw [h.db, ha]
      | write w hw h =>
        cases hw
        exact (Option.some.inj (Write.run_brokerInvocationEvents h)).symm.trans ha
    · refine WritesFrom.query_bind ?_
      split
      · exact EmitsFrom.pure _
      · obtain ⟨hr, hs, hsub⟩ := absorbedSteer_absorbed ‹_›
        refine RunRepository.markCompleted_writesFrom (.ended outcome now hr hs htr ?_ hsub hout)
        unfold absorbedInTurn listByInvocationIdAndTypes listByInvocationId at he ⊢
        rwa [ht]
  · exact EmitsFrom.pure _

omit [Host] in
theorem unresolvedAuxiliary_absorbed
    (h : unresolvedAuxiliary db row = some run) : AbsorbedAuxiliary db run := by
  simp only [unresolvedAuxiliary, Option.bind_eq_bind, Option.bind_eq_some_iff] at h
  obtain ⟨submissionId, -, found, hf, h⟩ := h
  split at h
  · cases h
    rename_i hc
    simp only [Bool.and_eq_true, Option.isNone_iff_eq_none] at hc
    have hr := List.find?_some hf
    exact ⟨List.mem_of_find?_eq_some hf, ⟨row.invocationId, submissionId, by simpa using hr, hc.1.1.1⟩,
      hc.1.1.2, hc.1.2⟩
  · cases h

omit [Host] in
theorem unresolvedMarker_of_infix {message : String} (h : unresolvedAbsorbedOwnerMarker.toList <:+: message.toList) :
    unresolvedMarker (some message) = true := by
  obtain ⟨before, after, heq⟩ := h
  refine List.any_eq_true.mpr ⟨unresolvedAbsorbedOwnerMarker.toList ++ after, ?_, ?_⟩
  · rw [List.mem_tails, ← heq, List.append_assoc]
    exact List.suffix_append _ _
  · exact List.isPrefixOf_iff_prefix.mpr (List.prefix_append _ _)

omit [Host] in
theorem unresolvedDetail_infix (invocationId : String) :
    unresolvedAbsorbedOwnerMarker.toList <:+: (unresolvedDetail invocationId).toList := by
  simp only [unresolvedDetail, String.toList_append, List.append_assoc]
  exact (List.prefix_append _ _).isInfix

omit [Host] in
theorem unresolvedMarker_detail (text invocationId : String) :
    unresolvedMarker (some (text ++ unresolvedDetail invocationId)) = true := by
  refine unresolvedMarker_of_infix ?_
  rw [String.toList_append]
  exact ( unresolvedDetail_infix _).trans (List.suffix_append _ _).isInfix

structure MarkedFrom (r r' : HrcRunRecord) : Prop where
  runId : r'.runId = r.runId
  brokerSubmissionId : r'.brokerSubmissionId = r.brokerSubmissionId
  progress : r' = r ∨ unresolvedMarker r'.errorMessage = true

omit [Host] in
theorem marked_update {base t t' : RunTable} {p : HrcRunRecord → Bool} {f : HrcRunRecord → HrcRunRecord}
    (ht : ∀ r' ∈ t.rows, ∃ r ∈ base.rows, MarkedFrom r r') (h : t.update p f = some t')
    (hf : ∀ r, (f r).runId = r.runId ∧ (f r).brokerSubmissionId = r.brokerSubmissionId ∧
      unresolvedMarker (f r).errorMessage = true) : ∀ r' ∈ t'.rows, ∃ r ∈ base.rows, MarkedFrom r r' := by
  intro r' hr'
  rw [update_rows h] at hr'
  obtain ⟨r₁, hr₁, rfl⟩ := List.mem_map.mp hr'
  obtain ⟨r, hr, hm⟩ := ht r₁ hr₁
  split
  · exact ⟨r, hr, (hf r₁).1.trans hm.runId, (hf r₁).2.1.trans hm.brokerSubmissionId, .inr (hf r₁).2.2⟩
  · exact ⟨r, hr, hm⟩

omit [Host] in
theorem unresolvedAuxiliary_base {base : Db}
    (he : db.brokerInvocationEvents = base.brokerInvocationEvents)
    (hrn : ∀ r' ∈ db.runs.rows, ∃ r ∈ base.runs.rows, MarkedFrom r r')
    (h : unresolvedAuxiliary db row = some run) : unresolvedAuxiliary base row = some run := by
  have hmem := (unresolvedAuxiliary_absorbed h).mem
  obtain ⟨r, hr, hm⟩ := hrn run hmem
  simp only [unresolvedAuxiliary, Option.bind_eq_bind, Option.bind_eq_some_iff] at h ⊢
  obtain ⟨submissionId, hs, found, hf, h⟩ := h
  split at h
  · rename_i hc
    cases h
    have hu : ¬ unresolvedMarker run.errorMessage = true := by
      simp only [Bool.and_eq_true, Bool.not_eq_true'] at hc
      rw [hc.2]
      nofun
    obtain rfl : run = r := hm.progress.resolve_right hu
    have hk : run.brokerSubmissionId = some submissionId := by simpa using List.find?_some hf
    refine ⟨submissionId, hs, run, RunRepository.getByBrokerSubmissionId_of_mem hr hk, ?_⟩
    unfold isSteerSubmission listByInvocationIdAndTypes listByInvocationId at hc ⊢
    rw [← he, if_pos hc]
  · cases h

theorem failUnresolvedAbsorbedAuxiliaries_writesFrom {runtimeId : String}
    (hP : ∀ db w, Settlement db w → LinksTo (fun _ _ => False) w → UnresolvedEnd s.db runtimeId invocationId w → P db w) :
    WritesFrom P s (failUnresolvedAbsorbedAuxiliaries runtimeId invocationId now) := by
  refine EmitsFrom.mono (R := Step fun db w => Settlement db w ∧ LinksTo (fun _ _ => False) w ∧
    UnresolvedEnd s.db runtimeId invocationId w) ?_ fun _ _ => Step.mono fun db w h => hP db w h.1 h.2.1 h.2.2
  refine WritesFrom.query_bind ?_
  refine EmitsFrom.forEach (fun t => t.db.brokerInvocationEvents = s.db.brokerInvocationEvents ∧
    ∀ r' ∈ t.db.runs.rows, ∃ r ∈ s.db.runs.rows, MarkedFrom r r') (fun a b hs ha => ?_) (fun row hrow t ht => ?_)
    ⟨rfl, fun r hr => ⟨r, hr, rfl, rfl, .inl rfl⟩⟩
  · cases hs with
    | quiet h => rwa [h.db]
    | write w hw h =>
      obtain ⟨-, -, hw⟩ := hw
      refine ⟨?_, ?_⟩
      · cases hw <;> exact (Option.some.inj (Write.run_brokerInvocationEvents h)).symm.trans ha.1
      · cases hw with
        | failed now _ _ _ =>
          refine marked_update ha.2 (Write.run_runs h) fun r => ⟨rfl, rfl, ?_⟩
          exact unresolvedMarker_of_infix ( unresolvedDetail_infix _)
        | marked _ _ text endedId =>
          exact marked_update ha.2 (Write.run_runs h) fun r => ⟨rfl, rfl, unresolvedMarker_detail text endedId⟩
  · refine WritesFrom.query_bind ?_
    split
    · exact EmitsFrom.pure _
    · rename_i run hf
      have hrun := unresolvedAuxiliary_absorbed hf
      have hbs := unresolvedAuxiliary_base ht.1 ht.2 hf
      have hm (now text : String) : WritesFrom (fun db w => Settlement db w ∧ LinksTo (fun _ _ => False) w ∧
          UnresolvedEnd s.db runtimeId invocationId w) t (RunRepository.update run.runId
            { updatedAt := some now, errorMessage := some (some (text ++ unresolvedDetail row.invocationId)) }) :=
        RunRepository.update_writesFrom ⟨.marked _ _ hrun, linksTo_update nofun, .marked _ _ _ _⟩
      unfold failUnresolved
      dsimp only
      split
      · exact RunRepository.markCompleted_writesFrom
          ⟨.unresolved _ _ hrun (.inl ‹_›), by rintro _ _ _ ⟨⟩, .failed now hrow hbs (.inl ‹_›)⟩
      · exact RunRepository.markCompleted_writesFrom
          ⟨.unresolved _ _ hrun (.inr ‹_›), by rintro _ _ _ ⟨⟩, .failed now hrow hbs (.inr ‹_›)⟩
      · have he : unresolvedDetail row.invocationId = "" ++ unresolvedDetail row.invocationId := by simp
        split
        · split
          · rw [he]
            exact hm now ""
          · exact hm now _
        · rw [he]
          exact hm now ""

end Rules

end HrcRuntime.Ownership
