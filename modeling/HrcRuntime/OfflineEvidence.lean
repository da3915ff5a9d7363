import HrcRuntime.OfflineEvidenceAttempt
import HrcRuntime.RuntimeExclusiveOwner

namespace HrcRuntime.OfflineEvidence

open Records Database Repositories Wire RuntimeExclusiveOwner
open OfflineEvidenceOutcomes OfflineEvidenceValidate OfflineEvidenceAttempt

inductive Trigger where
  | terminal | startup | report | gap | operator
  deriving DecidableEq

def Trigger.text : Trigger → String
  | terminal => "terminal"
  | startup => "startup"
  | report => "report"
  | gap => "gap"
  | operator => "operator"

/-- A `retained_evidence_outcomes` row; the latest row of an invocation is its current outcome. -/
structure RetainedEvidenceOutcomeRecord where
  runtimeId : String
  invocationId : String
  recordedAt : String
  outcome : String
  outcomeClass : OutcomeClass
  trigger : Trigger
  attempts : Nat
  detail : Members

def latest (outcomes : List RetainedEvidenceOutcomeRecord) (runtimeId invocationId : String) :
    Option RetainedEvidenceOutcomeRecord :=
  (outcomes.filter fun r => r.runtimeId == runtimeId && r.invocationId == invocationId).getLast?

inductive AttemptPhase where
  | judging | reading | settled
  deriving DecidableEq

structure RecoveryAttempt where
  runtime : HrcRuntimeSnapshot
  invocationId : String
  trigger : Trigger
  prior : Option RetainedEvidenceOutcomeRecord
  projectedNow : Nat
  flight : Flight
  phase : AttemptPhase

structure Evidence extends Server where
  retainedEvidenceOutcomes : List RetainedEvidenceOutcomeRecord := []
  attempts : List RecoveryAttempt := []
  retryBudget : Nat := offlineEvidenceRetryBudget

def Evidence.latest (s : Evidence) (runtimeId invocationId : String) : Option RetainedEvidenceOutcomeRecord :=
  OfflineEvidence.latest s.retainedEvidenceOutcomes runtimeId invocationId

def listByRuntimeId (db : Db) (runtimeId : String) : List HrcBrokerInvocationRecord :=
  db.brokerInvocations.rows.filter fun r => r.runtimeId == runtimeId

def targetInvocationId (db : Db) (runtime : HrcRuntimeSnapshot) : Option String :=
  let invocations := listByRuntimeId db runtime.runtimeId
  ((runtime.activeInvocationId.bind fun id => invocations.find? (·.invocationId == id)).or invocations.getLast?).map
    (·.invocationId)

def append (r : RetainedEvidenceOutcomeRecord) (s : Evidence) : Evidence :=
  { s with retainedEvidenceOutcomes := s.retainedEvidenceOutcomes ++ [r] }

def storedClass (outcome : String) : OutcomeClass :=
  match classifyRetainedOutcome outcome with
  | .paused => .retryable
  | c => c

def outcomeRecord (runtimeId invocationId : String) (trigger : Trigger) (outcome : String) (attempts : Nat)
    (detail : List (String × Value)) (at' : String) : RetainedEvidenceOutcomeRecord :=
  { runtimeId, invocationId, recordedAt := at', outcome, outcomeClass := storedClass outcome, trigger, attempts
    detail := detail.foldl (fun members entry => members.set entry.1 entry.2) (.ofList
      [("schema", .str retainedEvidenceOutcomeSchema), ("outcome", .str outcome),
        ("class", .str (classifyRetainedOutcome outcome).text), ("trigger", .str trigger.text),
        ("attempts", ofNat attempts), ("readAt", .str at')]) }

def setAttempt (task : Nat) (attempt : RecoveryAttempt) (s : Evidence) : Evidence :=
  { s with attempts := s.attempts.set task attempt }

/-- `finally { ownership.release() }`. -/
def settle (task : Nat) (attempt : RecoveryAttempt) (s : Evidence) : Evidence :=
  setAttempt task { attempt with phase := .settled }
    { s with toServer := RuntimeExclusiveOwner.step (.release attempt.flight) s.toServer }

def attemptsOf (prior : Option RetainedEvidenceOutcomeRecord) : Nat := (prior.map (·.attempts)).getD 0

/-- `recoverRetainedEvidence` up to its first await. -/
def recoverRetainedEvidence (runtimeId : String) (trigger : Trigger) (dryRun : Bool) (at' : String) (s : Evidence) :
    Evidence :=
  match getByRuntimeId s.db runtimeId with
  | none => s
  | some runtime =>
    match targetInvocationId s.db runtime with
    | none => s
    | some invocationId =>
      let prior := s.latest runtime.runtimeId invocationId
      let projectedNow := projectedThrough s.db invocationId 0
      if dryRun then s
      else match (acquireRetainedRecoveryOwnership runtime.runtimeId s.toRegistry).1 with
        | .error .attach => append (outcomeRecord runtime.runtimeId invocationId trigger
            "offline_read_attach_in_flight" (attemptsOf prior)
            [("heldBy", .str "attach"), ("requestedAfterSeq", ofNat projectedNow)] at') s
        | .error .retainedRecovery => s
        | .ok flight =>
          { s with
            toServer := RuntimeExclusiveOwner.step (.recover runtime.runtimeId) s.toServer
            attempts := s.attempts ++
              [{ runtime, invocationId, trigger, prior, projectedNow, flight, phase := .judging }] }

/-- The attempt once `eligibilityRefusal` has answered; a refusal is never recorded. -/
def judge (task : Nat) (attempt : RecoveryAttempt) (refused : Bool) (at' : String) (s : Evidence) : Evidence :=
  if refused then settle task attempt s
  else
    let priorClass := (attempt.prior.filter fun _ => attempt.trigger != .operator).map
      fun prior => classifyRetainedOutcome prior.outcome
    if priorClass == some .complete || priorClass == some .disposed || priorClass == some .paused then
      settle task attempt s
    else if priorClass == some .retryable && s.retryBudget ≤ attemptsOf attempt.prior then
      settle task attempt (append (outcomeRecord attempt.runtime.runtimeId attempt.invocationId attempt.trigger
        "paused_needs_disposition" (attemptsOf attempt.prior)
        [("priorOutcome", .str ((attempt.prior.map (·.outcome)).getD "")),
          ("requestedAfterSeq", ofNat attempt.projectedNow)] at') s)
    else setAttempt task { attempt with phase := .reading } s

/-- The attempt once `readAndProject` has returned. -/
def recordAttempt (task : Nat) (attempt : RecoveryAttempt) (result : AttemptResult) (at' : String) (s : Evidence) :
    Evidence :=
  let prior := attemptsOf attempt.prior
  let attempts := if budgetFreeOutcomes.contains result.outcome then prior else prior + 1
  settle task attempt (append (outcomeRecord attempt.runtime.runtimeId attempt.invocationId attempt.trigger
    result.outcome attempts (result.detail ++ ("projectedThroughSeq", ofNat result.projectedThroughSeq) ::
      result.currentSeq.toList.map fun seq => ("currentSeq", ofNat seq)) at') s)

/-- `operator_disposed` for every held invocation of the runtime. -/
def recordOperatorDisposition (runtimeId by' reason at' : String) (s : Evidence) : Evidence :=
  (listByRuntimeId s.db runtimeId).foldl (fun s invocation =>
    let prior := s.latest runtimeId invocation.invocationId
    if outcomeHoldsEvidence (prior.map (·.outcome)) then
      append
        { runtimeId, invocationId := invocation.invocationId, recordedAt := at', outcome := "operator_disposed"
          outcomeClass := .disposed, trigger := .operator, attempts := attemptsOf prior
          detail := .ofList [("schema", .str retainedEvidenceOutcomeSchema), ("outcome", .str "operator_disposed"),
            ("class", .str "disposed"), ("trigger", .str "operator"),
            ("disposition", .obj (.ofList [("by", .str by'), ("reason", .str reason), ("at", .str at'),
              ("priorOutcome", .str ((prior.map (·.outcome)).getD "not_attempted"))]))] } s
    else s) s

def recordUnboundBeforeSweep (runtimeId at' : String) (s : Evidence) : Evidence :=
  if ((getByRuntimeId s.db runtimeId).bind persistedAspdExecutionRelease).isSome then s
  else
    (listByRuntimeId s.db runtimeId).foldl (fun s invocation =>
      match s.latest runtimeId invocation.invocationId with
      | some _ => s
      | none =>
        append
          { runtimeId, invocationId := invocation.invocationId, recordedAt := at'
            outcome := "offline_reader_unsupported_unbound_release", outcomeClass := .unbound, trigger := .startup
            attempts := 0
            detail := .ofList [("schema", .str retainedEvidenceOutcomeSchema),
              ("outcome", .str "offline_reader_unsupported_unbound_release"), ("class", .str "unbound"),
              ("trigger", .str "startup")] } s) s

inductive Action where
  /-- A step of an attach, or anything else that moves the database. -/
  | attach (a : RuntimeExclusiveOwner.Action)
  | recover (runtimeId : String) (trigger : Trigger) (dryRun : Bool) (at' : String)
  | judged (task : Nat) (refused : Bool) (at' : String)
  | read (task : Nat) (result : AttemptResult) (at' : String)
  /-- The eligibility check or the reader throws. -/
  | threw (task : Nat)
  | dispose (runtimeId by' reason at' : String)
  | sweep (runtimeId at' : String)

def step (a : Action) (s : Evidence) : Evidence :=
  match a with
  | .attach (.recover _) | .attach (.release _) => s
  | .attach a => { s with toServer := RuntimeExclusiveOwner.step a s.toServer }
  | .recover runtimeId trigger dryRun at' => recoverRetainedEvidence runtimeId trigger dryRun at' s
  | .judged task refused at' =>
    match s.attempts[task]? with
    | some attempt => if attempt.phase = .judging then judge task attempt refused at' s else s
    | none => s
  | .read task result at' =>
    match s.attempts[task]? with
    | some attempt =>
      if attempt.phase = .reading ∧ result.outcome ∈ attemptOutcomes attempt.runtime then
        recordAttempt task attempt result at' s
      else s
    | none => s
  | .threw task =>
    match s.attempts[task]? with
    | some attempt => if attempt.phase = .settled then s else settle task attempt s
    | none => s
  | .dispose runtimeId by' reason at' => recordOperatorDisposition runtimeId by' reason at' s
  | .sweep runtimeId at' => recordUnboundBeforeSweep runtimeId at' s

end HrcRuntime.OfflineEvidence
