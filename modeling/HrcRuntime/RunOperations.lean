import HrcRuntime.Ownership

namespace HrcRuntime.RunOperations

open Json Records Relational Database Program Mapper RunRepository

/-- `RunUpdatePatch`: an absent field keeps its column. -/
structure RunUpdatePatch extends RunPatch where
  hostSessionId : Option String := none
  runtimeId : Option String := none
  scopeRef : Option String := none
  laneRef : Option String := none
  generation : Option Nat := none
  transport : Option Transport := none
  acceptedAt : Option String := none
  executionFormat : Option ExecutionFormat := none
  turnKey : Option String := none
  nativeTurnId : Option String := none
  nativeHarnessGeneration : Option Nat := none
  nativeTurnAttempt : Option Nat := none
  operationId : Option String := none
  invocationId : Option String := none
  queueSnapshotId : Option String := none
  queuedInputSeq : Option Nat := none
  queueSnapshotPosition : Option Nat := none
  coalescedPosition : Option Nat := none

def RunUpdatePatch.apply (p : RunUpdatePatch) (r : HrcRunRecord) : HrcRunRecord :=
  { p.toRunPatch.apply r with
    hostSessionId := p.hostSessionId.getD r.hostSessionId
    runtimeId := p.runtimeId.or r.runtimeId
    scopeRef := p.scopeRef.getD r.scopeRef
    laneRef := p.laneRef.getD r.laneRef
    generation := p.generation.getD r.generation
    transport := p.transport.getD r.transport
    acceptedAt := p.acceptedAt.or r.acceptedAt
    executionFormat := p.executionFormat.getD r.executionFormat
    turnKey := p.turnKey.or r.turnKey
    nativeTurnId := p.nativeTurnId.or r.nativeTurnId
    nativeHarnessGeneration := p.nativeHarnessGeneration.or r.nativeHarnessGeneration
    nativeTurnAttempt := p.nativeTurnAttempt.or r.nativeTurnAttempt
    operationId := p.operationId.or r.operationId
    invocationId := p.invocationId.or r.invocationId
    queueSnapshotId := p.queueSnapshotId.or r.queueSnapshotId
    queuedInputSeq := p.queuedInputSeq.or r.queuedInputSeq
    queueSnapshotPosition := p.queueSnapshotPosition.or r.queueSnapshotPosition
    coalescedPosition := p.coalescedPosition.or r.coalescedPosition }

def effective (current : Option HrcRunRecord) (patch : RunUpdatePatch) : RunUpdatePatch :=
  match patch.status with
  | none => patch
  | some status =>
    if !status.isRunTerminal && patch.completedAt != some none && (current.bind (·.completedAt)).isSome
    then { patch with status := none, startedAt := none, acceptedAt := none }
    else patch

theorem effective_toRunPatch (current : Option HrcRunRecord) (patch : RunUpdatePatch) :
    (effective current patch).toRunPatch = effectivePatch current patch.toRunPatch := by
  unfold effective effectivePatch
  cases patch.status with
  | none => rfl
  | some status =>
    dsimp only
    split <;> rfl

structure RunBinding where
  runtimeId : Option String := none
  operationId : Option String := none
  hostSessionId : Option String := none
  generation : Option Nat := none
  deriving DecidableEq

/-- `#tokenRefusal`. -/
def tokenRefusal (reservation : RunIdReservation) (writer : RunHandleWriter) (token : Option String) : Option String :=
  if token != some reservation.token then some "no-token"
  else if writer.hostSessionId != reservation.hostSessionId then some "host-session-mismatch"
  else if writer.generation != reservation.generation then some "generation-mismatch"
  else if reservation.runtimeId.isSome && writer.runtimeId != reservation.runtimeId then some "runtime-mismatch"
  else if reservation.operationId.isSome && writer.operationId.isSome && writer.operationId != reservation.operationId then
    some "operation-mismatch"
  else none

def bindReservation (runId : String) (reservation : RunIdReservation) (writer : RunHandleWriter) : M Unit :=
  Prog.modify fun s =>
    { s with reservations := Function.update s.reservations runId (some { reservation with
        runtimeId := reservation.runtimeId.or writer.runtimeId
        operationId := reservation.operationId.or writer.operationId }) }

def refuse (runId : String) (refusal : Option String) : M Unit :=
  match refusal with
  | none => pure ()
  | some "no-token" => Prog.throw (.runIdReserved runId)
  | some refusal => Prog.throw (.runIdOwnership runId refusal)

/-- `assertCanCreateRun` by a writer that may hold the reservation's token. -/
def assertCanCreateRun (token : Option String) (runId : String) (writer : RunHandleWriter) : M Unit := do
  let reservation ← Prog.read fun s : BrokerEventMapper => s.reservations runId
  match reservation with
  | none => pure ()
  | some reservation => do
      refuse runId (tokenRefusal reservation writer token)
      bindReservation runId reservation writer

def bindingRefusal (row : HrcRunRecord) (binding : RunBinding) : Option String :=
  if binding.hostSessionId.any (· != row.hostSessionId) then some "host-session-immutable"
  else if binding.generation.any (· != row.generation) then some "generation-immutable"
  else if row.operationId.isSome && binding.operationId.any (some · != row.operationId) then some "operation-immutable"
  else if row.runtimeId.isSome && binding.runtimeId.any (some · != row.runtimeId) then some "runtime-immutable"
  else none

def fills (row : HrcRunRecord) (binding : RunBinding) : Bool :=
  binding.runtimeId.isSome && row.runtimeId.isNone || binding.operationId.isSome && row.operationId.isNone

def assertRunBindingUpdate (token : Option String) (runId : String) (binding : RunBinding) : M Unit := do
  let reservation ← Prog.read fun s : BrokerEventMapper => s.reservations runId
  let row ← query (getByRunId · runId)
  match row.filter fun row => binding != {} && (reservation.isSome || EventType.hasPrefix "app:" row.scopeRef) with
  | none => pure ()
  | some row => do
      refuse runId (bindingRefusal row binding)
      Prog.when (fills row binding) do
        match reservation with
        | none => Prog.throw (.runIdOwnership runId "unbound-without-reservation")
        | some reservation => do
            let writer : RunHandleWriter :=
              { runtimeId := binding.runtimeId.or row.runtimeId, operationId := binding.operationId.or row.operationId
                hostSessionId := row.hostSessionId, generation := row.generation }
            refuse runId (tokenRefusal reservation writer token)
            bindReservation runId reservation writer

/-- `UPDATE runs SET f WHERE p`; it answers the number of rows it changed. -/
def runUpdate (p : HrcRunRecord → Bool) (f : HrcRunRecord → HrcRunRecord) : M Nat := fun s =>
  match s.db.runs.update p f with
  | some runs => (.ok (s.db.runs.rows.countP p), { s with db := { s.db with runs } })
  | none => (.error (.constraint "runs"), s)

structure QueuedClaim where
  runtimeId : Option String
  invocationId : Option String
  operationId : Option String
  dispatchedInputId : Option String
  updatedAt : String

structure QueuedCoalesce where
  ownerRunId : String
  position : Nat
  completedAt : String
  updatedAt : String

def QueuedClaim.apply (c : QueuedClaim) (r : HrcRunRecord) : HrcRunRecord :=
  { r with
    status := .accepted, runtimeId := c.runtimeId, invocationId := c.invocationId, operationId := c.operationId
    dispatchedInputId := c.dispatchedInputId, updatedAt := c.updatedAt }

def QueuedCoalesce.apply (c : QueuedCoalesce) (r : HrcRunRecord) : HrcRunRecord :=
  { r with
    status := .coalesced, completedAt := some c.completedAt, updatedAt := c.updatedAt
    coalescedIntoRunId := some c.ownerRunId, coalescedPosition := some c.position }

/-- `run_id = ? AND status = 'queued'`. -/
def isQueued (runId : String) (r : HrcRunRecord) : Bool := r.runId == runId && r.status == .queued

/-- `run_id = ? AND status = 'queued' AND queue_snapshot_id IS NULL`. -/
def isPending (runId : String) (r : HrcRunRecord) : Bool := isQueued runId r && r.queueSnapshotId.isNone

/-- `ORDER BY column ASC`: a null sorts first. -/
def nullsFirst (column : Option Nat) : Nat := (column.map (· + 1)).getD 0

/-- A session's queued rows `ORDER BY queued_input_seq ASC, rowid ASC`. -/
def listQueued (db : Db) (hostSessionId : String) (p : HrcRunRecord → Bool) : List HrcRunRecord :=
  orderBy (nullsFirst ·.queuedInputSeq)
    (db.runs.rows.filter fun r => r.hostSessionId == hostSessionId && r.status == .queued && p r)

/-- A queued run that travels with the owner; `accepted` says whether its message still waits for it. -/
structure CoalescedQueuedMember where
  runId : String
  sourceMessageId : String
  position : Nat
  accepted : Bool

inductive SettlementAction where
  | completed | failed | cancelled
  | coalesced (ownerRunId : String)

/-- What `planUnstartedSubmission` found for an accepted run that never started. -/
structure UnstartedSubmissionSettlement where
  runId : String
  invocationId : String
  submissionId : String
  action : SettlementAction
  completedAt : String
  errorCode : Option HrcErrorCode := none
  errorMessage : Option String := none

variable [Host]

def execute (p : HrcRunRecord → Bool) (f : HrcRunRecord → HrcRunRecord) : M Nat := do
  effect
  runUpdate p f

def insert (token : Option String) (record : HrcRunRecord) : M HrcRunRecord := do
  assertCanCreateRun token record.runId
    { runtimeId := record.runtimeId, operationId := record.operationId, hostSessionId := record.hostSessionId
      generation := record.generation }
  statement (.insertRun record)
  let stored ← query (getByRunId · record.runId)
  requireRecord stored s!"failed to reload run {record.runId}"

def update (token : Option String) (runId : String) (patch : RunUpdatePatch) : M (Option HrcRunRecord) := do
  assertRunBindingUpdate token runId
    { runtimeId := patch.runtimeId, operationId := patch.operationId, hostSessionId := patch.hostSessionId
      generation := patch.generation }
  let current ← query (getByRunId · runId)
  let _ ← execute (fun r => r.runId == runId) (effective current patch).apply
  query (getByRunId · runId)

def updateStatus (runId : String) (status : RunStatus) (updatedAt : String) : M (Option HrcRunRecord) :=
  update none runId { status := some status, updatedAt := some updatedAt }

def fenceBrokerInput (runId fencedAt reason : String) : M (Option HrcRunRecord) :=
  update none runId
    { brokerInputFencedAt := some fencedAt, brokerInputFenceReason := some reason, updatedAt := some fencedAt }

def markQueuedCoalesced (runId : String) (updates : QueuedCoalesce) : M Bool := do
  let changes ← execute (isQueued runId) updates.apply
  pure (changes == 1)

def claimQueued (token : Option String) (runId : String) (claim : QueuedClaim) : M Bool := do
  assertRunBindingUpdate token runId { runtimeId := claim.runtimeId, operationId := claim.operationId }
  let changes ← execute (isQueued runId) claim.apply
  pure (changes == 1)

def assignSnapshot (snapshotId updatedAt runId : String) (position : Nat) : M Unit := do
  let changes ← execute (isPending runId)
    fun r => { r with queueSnapshotId := some snapshotId, queueSnapshotPosition := some position, updatedAt }
  Prog.when (changes != 1) (fail s!"failed to snapshot queued run {runId}")

def snapshotQueuedByHostSessionId (hostSessionId snapshotId updatedAt : String) : M (List HrcRunRecord) :=
  transaction do
    let existing ← query fun db => (listQueued db hostSessionId (·.queueSnapshotId.isSome)).head?
    let selectedSnapshotId := (existing.bind (·.queueSnapshotId)).getD snapshotId
    Prog.when existing.isNone do
      let pending ← query (listQueued · hostSessionId (·.queueSnapshotId.isNone))
      Prog.forEach pending.zipIdx fun row => assignSnapshot selectedSnapshotId updatedAt row.1.runId row.2
    query fun db => orderBy (nullsFirst ·.queueSnapshotPosition)
      (db.runs.rows.filter fun r => r.hostSessionId == hostSessionId && r.status == .queued
        && r.queueSnapshotId == some selectedSnapshotId)

def coalesceMember (ownerRunId claimedAt : String) (member : CoalescedQueuedMember) : M Unit := do
  Prog.when (!member.accepted) (fail s!"queued DM {member.sourceMessageId} is not coalescible")
  let coalesced ← markQueuedCoalesced member.runId
    { ownerRunId, position := member.position, completedAt := claimedAt, updatedAt := claimedAt }
  Prog.when (!coalesced) (fail s!"queued run {member.runId} is not coalescible")

def claimQueuedHeadlessTurnInput (token : Option String) (runId : String) (claim : QueuedClaim)
    (members : List CoalescedQueuedMember) : M Unit :=
  transaction do
    let claimed ← claimQueued token runId claim
    Prog.when (!claimed) (fail "queued turn input was already claimed")
    Prog.forEach members (coalesceMember runId claim.updatedAt)

def endUnstarted (settlement : UnstartedSubmissionSettlement) (status : RunStatus) (now : String) : M Unit :=
  RunRepository.markCompleted settlement.runId
    { status, completedAt := settlement.completedAt, updatedAt := now, errorCode := settlement.errorCode
      errorMessage := settlement.errorMessage }

/-- One settlement of `settleUnstartedSubmissionRuns`. -/
def settleUnstarted (settlement : UnstartedSubmissionSettlement) (now : String) : M Unit :=
  transaction do
    let current ← query fun db => (getByRunId db settlement.runId).filter fun r =>
      r.status == .accepted && r.completedAt.isNone && r.startedAt.isNone
    Prog.when current.isSome
      (match settlement.action with
      | .coalesced ownerRunId =>
        Ownership.settleAuxiliary settlement.invocationId settlement.submissionId ownerRunId settlement.completedAt
      | .completed => endUnstarted settlement .completed now
      | .failed => endUnstarted settlement .failed now
      | .cancelled => endUnstarted settlement .cancelled now)

def settleTerminalInvocationAbsorbedAuxiliaries (runtimeId now : String) : M Unit := do
  let invocationIds ← query fun db => ((Ownership.absorbedRows db runtimeId "").map (·.invocationId)).eraseDups
  Prog.forEach invocationIds fun invocationId => do
    let terminal ← query fun db => (EventRepository.getByInvocationId db invocationId).any fun r =>
      r.invocationState == .exited || r.invocationState == .failed || r.invocationState == .disposed
    Prog.when terminal (Ownership.failUnresolvedAbsorbedAuxiliaries runtimeId invocationId now)

section Rules

omit [Host] in
theorem refuse_readOnly (runId : String) (refusal : Option String) : ReadOnly (refuse runId refusal) := by
  unfold refuse
  split
  · exact ReadOnly.pure _
  · exact ReadOnly.throw _
  · exact ReadOnly.throw _

variable {token : Option String} {runId : String}

variable {writer : RunHandleWriter} {I : Db → Prop} {binding : RunBinding}

omit [Host] in
theorem bindReservation_keeps {reservation : Mapper.RunIdReservation}
    : Keeps I (bindReservation runId reservation writer) := .modify fun _ => rfl

omit [Host] in
theorem assertCanCreateRun_keeps :
    Keeps I (RunOperations.assertCanCreateRun token runId writer) := by
  refine .bind (.of_readOnly (ReadOnly.read _)) fun reservation => ?_
  split
  · exact .pure _
  · exact .bind (.of_readOnly (refuse_readOnly _ _)) fun _ => bindReservation_keeps

omit [Host] in
theorem assertRunBindingUpdate_keeps :
    Keeps I (assertRunBindingUpdate token runId binding) := by
  refine .bind (.of_readOnly (ReadOnly.read _)) fun reservation => .bind (.of_readOnly (query_readOnly _)) fun row => ?_
  split
  · exact .pure _
  · refine .bind (.of_readOnly (refuse_readOnly _ _)) fun _ => .when fun _ => ?_
    split
    · exact .of_readOnly (ReadOnly.throw _)
    · exact .bind (.of_readOnly (refuse_readOnly _ _)) fun _ => bindReservation_keeps

omit [Host] in
theorem assertRunBindingUpdate_db
    {s t : BrokerEventMapper} {a : Unit} (h : assertRunBindingUpdate token runId binding s = (.ok a, t)) :
    t.db = s.db := by
  have hdb : (assertRunBindingUpdate token runId binding s).2.db = s.db :=
    assertRunBindingUpdate_keeps (I := fun db => db = s.db) s rfl
  rwa [h] at hdb

section Keeping

variable {I : Db → Prop} {s : BrokerEventMapper}

variable {f : HrcRunRecord → HrcRunRecord} {p : HrcRunRecord → Bool} {t : BrokerEventMapper}
  {claim : QueuedClaim} {snapshotId updatedAt : String}

theorem execute_keeps
    (hI : ∀ db runs, db.runs.update p f = some runs → I db → I { db with runs }) : Keeps I (execute p f) := by
  refine .bind effect_keeps fun _ t ht => ?_
  unfold runUpdate
  split
  · exact hI _ _ ‹_› ht
  · exact ht

theorem execute_eq_ok {n : Nat}
    (h : execute p f s = (.ok n, t)) :
    ∃ runs, s.db.runs.update p f = some runs ∧ t.db = { s.db with runs } ∧ n = s.db.runs.rows.countP p := by
  have hr := effect_bind_eq_ok h
  unfold runUpdate at hr
  split at hr
  · cases hr
    exact ⟨_, ‹_›, rfl, rfl⟩
  · cases hr

variable {token : Option String} {runId : String}

theorem claimQueued_eq_ok
    (h : claimQueued token runId claim s = (.ok true, t)) :
    ∃ runs, s.db.runs.update (isQueued runId) claim.apply = some runs ∧ t.db = { s.db with runs } ∧
      ∃ r ∈ s.db.runs.rows, isQueued runId r = true := by
  obtain ⟨_, u, hbn, h⟩ := bind_eq_ok.mp h
  have hdb := assertRunBindingUpdate_db hbn
  obtain ⟨changes, v, he, h⟩ := bind_eq_ok.mp h
  obtain ⟨runs, hrn, hv, hcnt⟩ := execute_eq_ok he
  rw [hdb] at hrn hv hcnt
  have hr : (Except.ok (changes == 1), v) = ((.ok true, t) : Except HrcError Bool × BrokerEventMapper) := h
  obtain ⟨hc, rfl⟩ := Prod.mk.inj hr
  have hc := Except.ok.inj hc
  refine ⟨runs, hrn, hv, ?_⟩
  rw [beq_iff_eq] at hc
  exact List.countP_pos_iff.mp (by omega)

theorem update_keepsFrom {patch : RunUpdatePatch}
    (hI : ∀ runs, s.db.runs.update (fun r => r.runId == runId) (effective (getByRunId s.db runId) patch).apply = some runs →
      I s.db → I { s.db with runs }) : KeepsFrom I s (RunOperations.update token runId patch) := by
  refine (assertRunBindingUpdate_keeps s).bind fun _ t ht => ?_
  have hdb := assertRunBindingUpdate_db ht
  refine KeepsFrom.bind (fun h => h) fun current t' hc => ?_
  obtain ⟨rfl, rfl⟩ : getByRunId t.db runId = current ∧ t = t' := by
    cases hc
    exact ⟨rfl, rfl⟩
  refine KeepsFrom.bind ?_ fun _ _ _ => Keeps.of_readOnly (query_readOnly _) _
  refine (effect_keeps t).bind fun _ u hu h => ?_
  have hu : u.db = s.db := by rw [effect_eq_ok hu, ← hdb]
  unfold runUpdate
  rw [hdb, hu]
  rw [hu] at h
  split
  · exact hI _ ‹_› h
  · rwa [hu]

theorem markQueuedCoalesced_keeps {updates : QueuedCoalesce}
    (hI : ∀ db runs, db.runs.update (isQueued runId) updates.apply = some runs → I db → I { db with runs }) :
    Keeps I (markQueuedCoalesced runId updates) :=
  .bind (execute_keeps hI) fun _ => .pure _

theorem claimQueued_keeps
    (hI : ∀ db runs, db.runs.update (isQueued runId) claim.apply = some runs → I db → I { db with runs }) :
    Keeps I (claimQueued token runId claim) :=
  .bind assertRunBindingUpdate_keeps fun _ => .bind (execute_keeps hI) fun _ => .pure _

theorem assignSnapshot_keeps {position : Nat}
    (hI : ∀ db runs p position, db.runs.update p (fun r =>
        { r with queueSnapshotId := some snapshotId, queueSnapshotPosition := some position, updatedAt }) = some runs →
      I db → I { db with runs }) : Keeps I (assignSnapshot snapshotId updatedAt runId position) :=
  .bind (execute_keeps fun db runs => hI db runs _ position) fun _ => .when fun _ => .of_readOnly (fail_readOnly _)

theorem snapshotQueued_keeps {hostSessionId : String}
    (hI : ∀ db runs p snapshotId position, db.runs.update p (fun r =>
        { r with queueSnapshotId := some snapshotId, queueSnapshotPosition := some position, updatedAt }) = some runs →
      I db → I { db with runs }) : Keeps I (snapshotQueuedByHostSessionId hostSessionId snapshotId updatedAt) :=
  .transaction <| .bind (.of_readOnly (query_readOnly _)) fun _ => .bind
    (.when fun _ => .bind (.of_readOnly (query_readOnly _)) fun _ => .forEach fun _ =>
      assignSnapshot_keeps fun db runs p => hI db runs p _)
    fun _ => .of_readOnly (query_readOnly _)

theorem coalesceMember_keeps {ownerRunId claimedAt : String} {member : CoalescedQueuedMember}
    (h : ∀ updates : QueuedCoalesce, updates.ownerRunId = ownerRunId → Keeps I (markQueuedCoalesced member.runId updates)) :
    Keeps I (coalesceMember ownerRunId claimedAt member) :=
  .bind (.when fun _ => .of_readOnly (fail_readOnly _)) fun _ =>
    .bind (h _ rfl) fun _ => .when fun _ => .of_readOnly (fail_readOnly _)

theorem settleUnstarted_keeps {settlement : UnstartedSubmissionSettlement} {now : String}
    (hc : ∀ ownerRunId, settlement.action = .coalesced ownerRunId →
      Keeps I (Ownership.settleAuxiliary settlement.invocationId settlement.submissionId ownerRunId settlement.completedAt))
    (he : ∀ status : RunStatus, status.isRunTerminal = true → Keeps I (endUnstarted settlement status now)) :
    Keeps I (settleUnstarted settlement now) := by
  refine .transaction (.bind (.of_readOnly (query_readOnly _)) fun current => .when fun _ => ?_)
  split
  · exact hc _ ‹_›
  · exact he _ rfl
  · exact he _ rfl
  · exact he _ rfl

theorem settleTerminalInvocation_keeps {runtimeId now : String}
    (h : ∀ invocationId, Keeps I (Ownership.failUnresolvedAbsorbedAuxiliaries runtimeId invocationId now)) :
    Keeps I (settleTerminalInvocationAbsorbedAuxiliaries runtimeId now) :=
  .bind (.of_readOnly (query_readOnly _)) fun _ => .forEach fun invocationId =>
    .bind (.of_readOnly (query_readOnly _)) fun _ => .when fun _ => h invocationId

theorem insert_keeps {record : HrcRunRecord}
    (hI : ∀ db db', (Write.insertRun record).run db = .ok db' → I db → I db') : Keeps I (RunOperations.insert token record) := by
  refine .bind assertCanCreateRun_keeps fun _ => .bind (fun s => ?_) fun _ => ?_
  · refine .of_writes (statement_writesFrom (P := fun _ w => w = .insertRun record) rfl) fun db w db' hw hr h => ?_
    subst hw
    exact hI _ _ hr h
  · exact .bind (.of_readOnly (query_readOnly _)) fun _ => .of_readOnly (requireRecord_readOnly _ _)

end Keeping

end Rules

end HrcRuntime.RunOperations
