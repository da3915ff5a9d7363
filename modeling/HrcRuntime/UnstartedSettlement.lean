import HrcRuntime.RunOperations

namespace HrcRuntime.UnstartedSettlement

open Records Database Program Mapper EventRepository Repositories Ownership RunRepository

def submissionFateMissingMarker : String := "submission_fate_missing"

def submissionFateTypes : List EventType :=
  [.submissionExecuted, .submissionAbsorbed, .submissionRejected, .submissionExpired, .submissionWithdrawn,
    .submissionCancelled, .submissionLost]

def settledRuntimeStatuses : List String := ["terminated", "crashed", "dead", "archived", "disposed"]

inductive Action where
  | completed | failed | cancelled | coalesced
  deriving DecidableEq

structure UnstartedRun where
  runId : String
  runtimeId : String
  invocationId : String
  submissionId : String
  updatedAt : String

/-- A plan without `completedAt` settles at sweep time. -/
structure SettlementPlan where
  runId : String
  runtimeId : String
  invocationId : String
  submissionId : String
  action : Action
  turnId : Option String := none
  ownerRunId : Option String := none
  completedAt : Option String := none
  errorMessage : Option String := none

structure UnstartedSubmissionSettlement where
  runId : String
  runtimeId : String
  invocationId : String
  submissionId : String
  action : Action
  turnId : Option String
  ownerRunId : Option String
  completedAt : String
  errorMessage : Option String
  applied : Bool

structure SettleInput where
  cutoffMs : Int
  dryRun : Bool
  now : String

def submissionRows (db : Db) (invocationId : String) (types : List EventType) : List HrcBrokerInvocationEventRecord :=
  listByInvocationIdAndTypes db invocationId { types }

def payloadSubmissionId (row : HrcBrokerInvocationEventRecord) : Option String :=
  (row.brokerEventJson.stringField "submissionId").or (row.brokerEventJson.stringField "inputId")

/-- The newest start up to `throughSeq` with no terminal of its coordinates after it. -/
def turnOpenAt (db : Db) (invocationId : String) (throughSeq : Option Nat) : Option ParsedEvent := do
  let rows := (listByInvocationIdAndTypes db invocationId
    { types := .turnStarted :: turnTerminalTypes, throughSeq }).filterMap parseStoredEvent
  let started ← (rows.filter fun event => event.type == .turnStarted).getLast?
  let closed := rows.any fun event => event.type != .turnStarted && decide (started.seq < event.seq)
    && event.toTurnCoordinates == started.toTurnCoordinates
  if closed then none else some started

def turnTerminal (db : Db) (invocationId : String) (turn : TurnCoordinates) :
    Option HrcBrokerInvocationEventRecord :=
  (listByInvocationIdAndTypes db invocationId { types := turnTerminalTypes, turnId := some turn.turnId }).find?
    fun row => (parseStoredEvent row).any fun event => coordinatesMatch turn event.toTurnCoordinates

/-- `turnOpenAt(db, invocationId, Number.MAX_SAFE_INTEGER)`: every stored number is below it. -/
def invocationHasOpenTurn (db : Db) (invocationId : String) : Bool := (turnOpenAt db invocationId none).isSome

def envelopeForRow (row : HrcBrokerInvocationEventRecord) : InvocationEventEnvelope :=
  let head := row.brokerEnvelopeJson.getD { invocationId := row.invocationId, seq := row.seq, type := row.type }
  { head with
    invocationId := row.invocationId
    seq := row.seq
    time := row.time
    type := row.type
    payload := if row.brokerEventJson.isRecord then row.brokerEventJson else .obj .nil
    harnessGeneration := row.harnessGeneration.or head.harnessGeneration
    turnAttempt := row.turnAttempt.or head.turnAttempt }

/-- `TERMINAL_OUTCOME[type] ?? 'failed'`. -/
def terminalOutcome : EventType → Action
  | .turnCompleted => .completed
  | .turnInterrupted => .cancelled
  | _ => .failed

def planOf (run : UnstartedRun) (action : Action) : SettlementPlan :=
  { runId := run.runId, runtimeId := run.runtimeId, invocationId := run.invocationId
    submissionId := run.submissionId, action }

/-- `${type}${reason ? `: ${reason}` : ''}`. -/
def fateMessage (type : EventType) (reason : Option String) : String :=
  match reason.filter fun reason => !reason.isEmpty with
  | some reason => s!"{type.text}: {reason}"
  | none => type.text

def planFate (run : UnstartedRun) (fate : HrcBrokerInvocationEventRecord) : SettlementPlan :=
  let cancelled := fate.type == .submissionWithdrawn || fate.type == .submissionCancelled
  { planOf run (if cancelled then .cancelled else .failed) with
    completedAt := fate.time
    errorMessage := if cancelled then none
      else some (fateMessage fate.type (fate.brokerEventJson.stringField "reason")) }

def isLanding (fate : HrcBrokerInvocationEventRecord) : Bool :=
  fate.type == .submissionExecuted || fate.type == .submissionAbsorbed

def admissionTurn (db : Db) (invocationId submissionId : String) : Option TurnCoordinates := do
  let admitted ← (submissionRows db invocationId [.admissionAdmitted]).find? fun row =>
    payloadSubmissionId row == some submissionId
  let written := (submissionRows db invocationId [.inputAccepted]).any fun row =>
    payloadSubmissionId row == some submissionId
      && row.brokerEventJson.stringField "disposition" == some "attempted_steer"
  if written then (turnOpenAt db invocationId (some admitted.seq)).map (·.toTurnCoordinates) else none

def landedTurn (db : Db) (run : UnstartedRun) (fate : Option HrcBrokerInvocationEventRecord) (steer : Bool) :
    Option TurnCoordinates :=
  match fate with
  | some fate => (parseStoredEvent fate).map (·.toTurnCoordinates)
  | none => if steer then admissionTurn db run.invocationId run.submissionId else none

def planEnded (run : UnstartedRun) (turn : TurnCoordinates) (terminal : HrcBrokerInvocationEventRecord)
    (ownerRunId : Option String) : SettlementPlan :=
  match ownerRunId.filter (· != run.runId) with
  | some ownerRunId =>
    { planOf run .coalesced with
      turnId := some turn.turnId
      ownerRunId := some ownerRunId
      completedAt := terminal.time }
  | none =>
    let outcome := terminalOutcome terminal.type
    { planOf run outcome with
      turnId := some turn.turnId
      completedAt := terminal.time
      errorMessage := if outcome = .failed then
        some ((terminal.brokerEventJson.stringField "message").getD terminal.type.text) else none }

def planMissing (run : UnstartedRun) (turn : Option TurnCoordinates) : SettlementPlan :=
  let subject := match turn with
    | none => s!"no turn evidence for submission {run.submissionId}"
    | some turn => s!"submission {run.submissionId} landed in turn {turn.turnId}, which never ended"
  { planOf run .failed with
    turnId := turn.map (·.turnId)
    errorMessage := some (submissionFateMissingMarker ++ s!": invocation {run.invocationId} recorded " ++ subject) }

def planUnstartedSubmission (db : Db) (run : UnstartedRun) (runtimeSettled : Bool) : Option SettlementPlan :=
  let fate := (submissionRows db run.invocationId submissionFateTypes).find? fun row =>
    payloadSubmissionId row == some run.submissionId
  match fate.filter fun fate => !isLanding fate with
  | some fate => some (planFate run fate)
  | none =>
    let steer := isSteerSubmission db run.invocationId run.submissionId
    let turn := landedTurn db run fate steer
    match turn.bind fun turn => (turnTerminal db run.invocationId turn).map (turn, ·) with
    | some (turn, terminal) =>
      let ownerRunId := if steer && (fate.map (·.type)) != some .submissionExecuted then
        resolveExactTurnOwner db (envelopeForRow terminal) else none
      some (planEnded run turn terminal ownerRunId)
    | none =>
      if !runtimeSettled && invocationHasOpenTurn db run.invocationId then none
      else some (planMissing run turn)

/-- `WHERE status = 'accepted' AND started_at IS NULL AND completed_at IS NULL AND runtime_id IS NOT NULL
AND invocation_id IS NOT NULL AND broker_submission_id IS NOT NULL`. -/
def unstartedRun (r : HrcRunRecord) : Option UnstartedRun := do
  let runtimeId ← r.runtimeId
  let invocationId ← r.invocationId
  let submissionId ← r.brokerSubmissionId
  if r.status == .accepted && r.startedAt.isNone && r.completedAt.isNone then
    some { runId := r.runId, runtimeId, invocationId, submissionId, updatedAt := r.updatedAt }
  else none

/-- `ORDER BY updated_at ASC, run_id ASC`. -/
def sweptBefore (a b : UnstartedRun) : Prop := a.updatedAt < b.updatedAt ∨ a.updatedAt = b.updatedAt ∧ a.runId ≤ b.runId

instance (a b : UnstartedRun) : Decidable (sweptBefore a b) := by unfold sweptBefore; infer_instance

def unstartedRuns (db : Db) : List UnstartedRun := (db.runs.rows.filterMap unstartedRun).insertionSort sweptBefore

def isSettled (runtime : HrcRuntimeSnapshot) : Bool := settledRuntimeStatuses.contains runtime.status.text

def claimedByOther (db : Db) (runtime : HrcRuntimeSnapshot) (runId : String) : Bool :=
  match runtime.activeRunId with
  | none => false
  | some activeRunId => activeRunId != runId && ((getByRunId db activeRunId).bind (·.completedAt)).isNone

def inEpoch (db : Db) (row : UnstartedRun) : Bool :=
  match historicalEpoch db row.invocationId, getByRunId db row.runId with
  | some epoch, some run => run.runtimeId == some epoch.invocation.runtimeId
      && run.operationId == some epoch.invocation.operationId && run.generation == epoch.operation.generation
  | _, _ => false

def settlementOf (plan : SettlementPlan) (now : String) : UnstartedSubmissionSettlement :=
  { runId := plan.runId, runtimeId := plan.runtimeId, invocationId := plan.invocationId
    submissionId := plan.submissionId, action := plan.action, turnId := plan.turnId, ownerRunId := plan.ownerRunId
    completedAt := plan.completedAt.getD now, errorMessage := plan.errorMessage, applied := false }

variable [Host]

/-- `Date.parse(text) <= cutoffMs`. -/
def isBefore (input : SettleInput) (text : String) : Bool := (Host.parseDate text).any fun ms => decide (ms ≤ input.cutoffMs)

def isQuiet (input : SettleInput) (runtime : HrcRuntimeSnapshot) : Bool :=
  isBefore input (runtime.lastActivityAt.getD runtime.updatedAt)

/-- What one row of the loop settles with; none is `continue`. -/
def settlementFor (db : Db) (input : SettleInput) (row : UnstartedRun) : Option UnstartedSubmissionSettlement :=
  if !isBefore input row.updatedAt then none
  else match getByRuntimeId db row.runtimeId with
    | none => none
    | some runtime =>
      if !isSettled runtime && claimedByOther db runtime row.runId then none
      else if !isSettled runtime && !isQuiet input runtime then none
      else if !inEpoch db row then none
      else (planUnstartedSubmission db row (isSettled runtime)).map (settlementOf · input.now)

def settledStatus : Action → RunStatus
  | .completed => .completed
  | .cancelled => .cancelled
  | _ => .failed

/-- `errorMessage?.startsWith(SUBMISSION_FATE_MISSING_MARKER)`. -/
def namesMissingFate (message : Option String) : Bool :=
  message.any fun message => submissionFateMissingMarker.toList.isPrefixOf message.toList

def completionOf (settlement : UnstartedSubmissionSettlement) (now : String) : RunCompletion :=
  { status := settledStatus settlement.action, completedAt := settlement.completedAt, updatedAt := now
    errorCode := if namesMissingFate settlement.errorMessage then some (.other "run_abandoned_by_runtime") else none
    errorMessage := settlement.errorMessage }

def isUnstarted (r : HrcRunRecord) : Bool := r.status == .accepted && r.completedAt.isNone && r.startedAt.isNone

def settleUnstarted (settlement : UnstartedSubmissionSettlement) (now : String) : M Bool :=
  transaction do
    let current ← query (getByRunId · settlement.runId)
    if (current.filter isUnstarted).isNone then pure false
    else match settlement.action, settlement.ownerRunId with
      | .coalesced, some ownerRunId => do
          settleAuxiliary settlement.invocationId settlement.submissionId ownerRunId settlement.completedAt
          query fun db => ((getByRunId db settlement.runId).bind (·.coalescedIntoRunId)) == some ownerRunId
      | _, _ => do
          RunRepository.markCompleted settlement.runId (completionOf settlement now)
          pure true

def settleRow (input : SettleInput) (row : UnstartedRun) : M (Option UnstartedSubmissionSettlement) := do
  let settlement ← query (settlementFor · input row)
  match settlement with
  | none => pure none
  | some settlement =>
    if input.dryRun then pure (some settlement)
    else do
      let applied ← settleUnstarted settlement input.now
      pure (some { settlement with applied })

def settleUnstartedSubmissionRuns (input : SettleInput) : M (List UnstartedSubmissionSettlement) := do
  let rows ← query unstartedRuns
  let results ← Prog.mapEach rows (settleRow input)
  pure (results.filterMap id)

end HrcRuntime.UnstartedSettlement
