import HrcRuntime.MessageProjection

namespace HrcRuntime.TurnProjection

open Json Records Database Program Mapper EventRepository Repositories Ownership Context
open RuntimeState LifecyclePayload Format2Input MessageProjection

def submissionDisposition : EventType → Option SubmissionDisposition
  | .submissionExecuted => some .executed
  | .submissionAbsorbed => some .absorbed
  | .submissionRejected => some .rejected
  | .submissionExpired => some .expired
  | .submissionCancelled => some .cancelled
  | .submissionLost => some .lost
  | .submissionWithdrawn | .queueWithdrawn => some .withdrawn
  | _ => none

def endsSubmission : EventType → Bool
  | .submissionRejected | .submissionExpired | .submissionCancelled | .submissionLost => true
  | _ => false

def isFormat2 (db : Db) (invocationId : String) : Bool :=
  (getByInvocationId db invocationId).any fun invocation => invocation.executionFormat == .format2

def runIsOpen (db : Db) (runId : String) : Bool :=
  ((RunRepository.getByRunId db runId).bind (·.completedAt)).isNone

/-- The id `submission.executed` binds to a launch-carried run that has none yet. -/
def launchBinding (db : Db) (envelope : InvocationEventEnvelope) (runId : String) : Option String :=
  if envelope.type == .submissionExecuted
      && isLaunchCarriedInvokeCorrelationJson (RunRepository.getCorrelationJson db runId)
      && ((RunRepository.getByRunId db runId).bind (·.brokerSubmissionId)).isNone then
    extractSubmissionIdFromPayload envelope
  else none

def startMarksBusy (db : Db) (ctx : ProjectionContext) (invocationId : String) : Bool :=
  (getByRuntimeId db ctx.runtimeId).any fun runtime =>
    runtime.generation == ctx.generation && runtime.activeRunId.isNone
      && runtime.activeOperationId.all (· == ctx.operationId) && runtime.activeInvocationId.all (· == invocationId)

def readyAfterTerminal (db : Db) (envelope : InvocationEventEnvelope) (ctx : ProjectionContext) : Bool :=
  (getByRuntimeId db ctx.runtimeId).any fun runtime =>
    runtime.generation == ctx.generation && runtime.activeRunId.isNone && !hasOtherOpenTurn db envelope

variable [Host]

def markInvocationReadyAfterTerminal (envelope : InvocationEventEnvelope) (ctx : ProjectionContext)
    (now : String) : M Unit := do
  let ready ← query (readyAfterTerminal · envelope ctx)
  Prog.when ready
    (Invocations.update envelope.invocationId { invocationState := some .ready, updatedAt := some now })

def noteTurnStartedOnTerminalRun (envelope : InvocationEventEnvelope) (ctx : ProjectionContext)
    (run : HrcRunRecord) (now : String) : M Unit :=
  if run.startedAt.isSome || run.errorCode != some .firstTurnMissing then
    serverLog "runtime.turn_started_after_run_terminal"
  else do
    let watch ← query (getFirstTurnWatch · ctx.runtimeId ctx.generation)
    serverLog "runtime.first_turn_missing_late_start"
    let e ← HrcEvents.append .firstTurnMissingLateStart
      { eventInput ctx now (Json.object [("runId", some (.str run.runId)),
          ("invocationId", some (.str envelope.invocationId)), ("seq", some (.ofNat envelope.seq)),
          ("startedAt", some (.str (envelope.time.getD now))), ("terminalStatus", some (.str run.status.text)),
          ("terminalErrorCode", run.errorCode.map fun code => .str code.text),
          ("terminalCompletedAt", run.completedAt.map Json.str),
          ("tripEventSeq", ofNat? (watch.bind (·.tripEventSeq)))]) with
        runId := some run.runId }
    Prog.modify fun s => { s with pendingLateStartEvents := s.pendingLateStartEvents ++ [e] }

def markRunning (runId occurredAt now : String) : M Unit :=
  RunRepository.update runId { status := some .running, startedAt := some occurredAt, updatedAt := some now }

def markTurnActive (invocationId now : String) : M Unit :=
  Invocations.update invocationId { invocationState := some .turnActive, updatedAt := some now }

def endRun (runId : String) (status : RunStatus) (occurredAt now : String) (errorCode : Option HrcErrorCode)
    (errorMessage : M (Option String)) : M Unit := do
  let isOpen ← query (runIsOpen · runId)
  Prog.when isOpen do
    let errorMessage ← errorMessage
    RunRepository.markCompleted runId { status, completedAt := occurredAt, updatedAt := now, errorCode, errorMessage }

def payloadText (envelope : InvocationEventEnvelope) (key : String) : M (Option String) := do
  let value ← property envelope.payload key
  bindText value

def turnMessage (envelope : InvocationEventEnvelope) : M (Option String) :=
  match envelope.type with
  | .turnFailed => payloadText envelope "message"
  | _ => pure none

def markTerminal (envelope : InvocationEventEnvelope) (ctx : ProjectionContext) (exactOwner : Bool)
    (now : String) : M Unit := do
  let newerTurnActive ← query (hasOtherOpenTurn · envelope)
  markRuntimeTurnTerminal ctx envelope ctx.runId (envelope.time.getD now) now exactOwner newerTurnActive
  markInvocationReadyAfterTerminal envelope ctx now

def endOwnerRun (envelope : InvocationEventEnvelope) (runId now : String) : M Unit := do
  endRun runId (terminalStatus envelope.type) (envelope.time.getD now) now none (turnMessage envelope)
  forgetBufferChunkSeq runId

/-- `turn.retry` moves the invocation's lifecycle position. -/
def projectRetry (envelope : InvocationEventEnvelope) (ctx : ProjectionContext) (now : String) : M Unit := do
  let toHarnessGeneration ← property envelope.payload "toHarnessGeneration"
  updateLifecyclePosition envelope.invocationId ctx.runtimeId (envelope.time.getD now) now toHarnessGeneration
    (envelope.payload.member "toAttempt")

def projectFormat2Start (envelope : InvocationEventEnvelope) (ctx : ProjectionContext) (now : String) :
    M Unit := do
  let occurredAt := envelope.time.getD now
  FirstTurn.noteFirstTurnStarted ctx.runtimeId ctx.generation occurredAt
  match ctx.runId with
  | none => pure ()
  | some runId => do
      let isOpen ← query (runIsOpen · runId)
      Prog.when isOpen (markRunning runId occurredAt now)
      claimRuntimeTurnOwnership ctx runId occurredAt now
      markTurnActive envelope.invocationId now

def projectFormat2Turn (envelope : InvocationEventEnvelope) (ctx : ProjectionContext) (now : String) : M Unit :=
  match envelope.type with
  | .submissionExecuted | .turnAttributed => landFormat2InputFromEnvelope envelope ctx .initiating now
  | .submissionAbsorbed => landFormat2InputFromEnvelope envelope ctx .joined now
  | .submissionRejected => recordFormat2InputTerminal envelope ctx .rejected now
  | .submissionWithdrawn => recordFormat2InputTerminal envelope ctx .withdrawn now
  | .submissionLost => recordFormat2CorrelationForEnvelope envelope ctx .lost now
  | .submissionExpired => recordFormat2CorrelationForEnvelope envelope ctx .expired now
  | .submissionCancelled => recordFormat2CorrelationForEnvelope envelope ctx .cancelled now
  | .turnStarted => projectFormat2Start envelope ctx now
  | .turnCompleted | .turnFailed | .turnInterrupted =>
    match ctx.runId, extractTurnId envelope with
    | some runId, some _ => do
        endOwnerRun envelope runId now
        markTerminal envelope ctx true now
    | _, _ => pure ()
  | .turnRetry => projectRetry envelope ctx now
  | _ => pure ()

def recordDisposition (envelope : InvocationEventEnvelope) (now : String) (onlyIfAbsent : Bool) : M Unit :=
  match extractSubmissionIdFromPayload envelope, submissionDisposition envelope.type with
  | some submissionId, some disposition =>
    Admissions.recordDisposition submissionId disposition (envelope.time.getD now) onlyIfAbsent
  | _, _ => pure ()

def settleOwnedTurn (envelope : InvocationEventEnvelope) (now : String) : M Unit := do
  let owner ← query (resolveExactTurnOwner · envelope)
  match owner with
  | none => pure ()
  | some ownerRunId => settlePriorAbsorbedAuxiliaries envelope ownerRunId now

def settleAbsorbed (envelope : InvocationEventEnvelope) (now : String) : M Unit := do
  let owner ← query (resolveExactTurnOwner · envelope)
  match owner with
  | none => pure ()
  | some ownerRunId => settleAbsorbedAuxiliary envelope ownerRunId now

def projectLandedRun (envelope : InvocationEventEnvelope) (ctx : ProjectionContext) (runId now : String) :
    M Unit := do
  let brokerSubmissionId ← query (launchBinding · envelope runId)
  RunRepository.update runId { updatedAt := some now, brokerSubmissionId }
  Prog.forEach (extractSubmissionIdFromPayload envelope).toList fun submissionId =>
    Admissions.upsertAdmission
      { submissionId, runId := some runId, runtimeId := some ctx.runtimeId
        invocationId := some envelope.invocationId, admittedAt := some now }
  Prog.when (envelope.type == .submissionExecuted) do
    Invocations.update envelope.invocationId { runId := some runId, updatedAt := some now }
    settleOwnedTurn envelope now

/-- `submission.executed` and `submission.absorbed`. -/
def projectLanded (envelope : InvocationEventEnvelope) (ctx : ProjectionContext) (now : String) : M Unit := do
  recordDisposition envelope now false
  Prog.forEach ctx.runId.toList fun runId => projectLandedRun envelope ctx runId now
  Prog.when (envelope.type == .submissionAbsorbed) (settleAbsorbed envelope now)

/-- `submission.lost` fails the run; the other ends keep the broker's reason. -/
def endSubmission (envelope : InvocationEventEnvelope) (runId now : String) : M Unit :=
  let occurredAt := envelope.time.getD now
  match envelope.type with
  | .submissionLost => endRun runId .failed occurredAt now (some .runtimeUnavailable) do
      let reason ← payloadText envelope "reason"
      pure (some (reason.getD "turn-correlation-lost"))
  | .submissionCancelled => endRun runId .cancelled occurredAt now none (payloadText envelope "reason")
  | _ => endRun runId .failed occurredAt now none (payloadText envelope "reason")

def projectSubmissionEnd (envelope : InvocationEventEnvelope) (ctx : ProjectionContext) (now : String) :
    M Unit := do
  recordDisposition envelope now false
  match ctx.runId with
  | none => pure ()
  | some runId => endSubmission envelope runId now

def touchRun (ctx : ProjectionContext) (now : String) : M Unit :=
  match ctx.runId with
  | none => pure ()
  | some runId => RunRepository.update runId { updatedAt := some now }

def startRun (envelope : InvocationEventEnvelope) (ctx : ProjectionContext) (runId now : String) : M Unit := do
  let run ← query (RunRepository.getByRunId · runId)
  match run.filter fun run => run.completedAt.isSome with
  | none => markRunning runId (envelope.time.getD now) now
  | some run => noteTurnStartedOnTerminalRun envelope ctx run now

def startOwned (envelope : InvocationEventEnvelope) (ctx : ProjectionContext) (now : String) : M Unit :=
  let occurredAt := envelope.time.getD now
  match ctx.runId with
  | some runId => do
      startRun envelope ctx runId now
      claimRuntimeTurnOwnership ctx runId occurredAt now
  | none => do
      let busy ← query (startMarksBusy · ctx envelope.invocationId)
      Prog.when busy (setRuntimeStatus ctx.runtimeId .busy occurredAt now)

def projectStart (envelope : InvocationEventEnvelope) (ctx : ProjectionContext) (now : String) : M Unit := do
  FirstTurn.noteFirstTurnStarted ctx.runtimeId ctx.generation (envelope.time.getD now)
  startOwned envelope ctx now
  markTurnActive envelope.invocationId now

def claimAttributed (envelope : InvocationEventEnvelope) (ctx : ProjectionContext) (ownerRunId now : String) :
    M Unit := do
  let run ← query (RunRepository.getByRunId · ownerRunId)
  match run.filter fun run => run.completedAt.isNone && envelope.payload.stringField "ownership" == some "own" with
  | none => pure ()
  | some run => do
      let occurredAt := envelope.time.getD now
      Prog.when (run.status == .accepted || run.status == .started) (markRunning ownerRunId occurredAt now)
      claimRuntimeTurnOwnership ctx ownerRunId occurredAt now
      markTurnActive envelope.invocationId now

def projectAttributed (envelope : InvocationEventEnvelope) (ctx : ProjectionContext) (now : String) : M Unit := do
  let owner ← query (resolveExactTurnOwner · envelope)
  match owner with
  | none => pure ()
  | some ownerRunId => do
      settlePriorAbsorbedAuxiliaries envelope ownerRunId now
      claimAttributed envelope ctx ownerRunId now

/-- `turn.completed`, `turn.failed` and `turn.interrupted`: the owner run ends, or the absorbed steers
of an unowned turn do. -/
def endTurnRuns (envelope : InvocationEventEnvelope) (ctx : ProjectionContext) (now : String) : M Unit :=
  match ctx.runId with
  | some runId => endOwnerRun envelope runId now
  | none => settleUnownedTurnAbsorbedSteers envelope (terminalStatus envelope.type) now

def projectTerminal (envelope : InvocationEventEnvelope) (ctx : ProjectionContext) (now : String) : M Unit := do
  endTurnRuns envelope ctx now
  markTerminal envelope ctx (extractTurnId envelope).isSome now

def projectFormat1Turn (envelope : InvocationEventEnvelope) (ctx : ProjectionContext) (now : String) : M Unit :=
  match envelope.type with
  | .inputAccepted | .inputRejected | .inputQueued => touchRun ctx now
  | .queueWithdrawn | .submissionWithdrawn => do
      touchRun ctx now
      recordDisposition envelope now false
  | .submissionExecuted | .submissionAbsorbed => projectLanded envelope ctx now
  | .submissionRejected | .submissionExpired | .submissionCancelled | .submissionLost =>
    projectSubmissionEnd envelope ctx now
  | .turnStarted => projectStart envelope ctx now
  | .turnAttributed => projectAttributed envelope ctx now
  | .turnCompleted | .turnFailed | .turnInterrupted => projectTerminal envelope ctx now
  | .turnRetry => projectRetry envelope ctx now
  | _ => pure ()

def projectTurn (envelope : InvocationEventEnvelope) (ctx : ProjectionContext) (now : String) : M Unit := do
  let format2 ← query (isFormat2 · envelope.invocationId)
  if format2 then projectFormat2Turn envelope ctx now else projectFormat1Turn envelope ctx now

inductive RunEnd (ctx : ProjectionContext) (db : Db) : Write → Prop where
  | ended {runId : String} (updates : RunCompletion) (hrun : ctx.runId = some runId)
      (hopen : runIsOpen db runId = true) (hterminal : updates.status.isRunTerminal = true) :
      RunEnd ctx db (.completeRun runId updates)

/-- A turn terminal past its own run, read on a database with the runs and events of `base`. -/
inductive Release (base : Db) (envelope : InvocationEventEnvelope) (ctx : ProjectionContext) (exactOwner : Bool) :
    Write → Prop where
  | released {start : Db} {w : Write} (hevents : start.brokerInvocationEvents = base.brokerInvocationEvents)
      (hruns : RunRepository.SameRuns base.runs start.runs) (hruntimes : start.runtimes = base.runtimes)
      (h : TerminalWrite start ctx envelope ctx.runId exactOwner w) : Release base envelope ctx exactOwner w

inductive Format2Write (base : Db) (envelope : InvocationEventEnvelope) (ctx : ProjectionContext) (db : Db) :
    Write → Prop where
  | fact {w : Write} (h : InputFact db w) : Format2Write base envelope ctx db w
  | ended {w : Write} (hturn : envelope.type.isTurnTerminal = true) (hnamed : (extractTurnId envelope).isSome = true)
      (h : RunEnd ctx db w) : Format2Write base envelope ctx db w
  | released {w : Write} (hturn : envelope.type.isTurnTerminal = true) (h : Release base envelope ctx true w) :
      Format2Write base envelope ctx db w
  | claim {w : Write} {runId : String} (htype : envelope.type = .turnStarted) (h : RuntimeClaim ctx.runtimeId runId w) :
      Format2Write base envelope ctx db w
  | touch {w : Write} (h : RuntimeTouch ctx.runtimeId w) : Format2Write base envelope ctx db w
  | invocation {patch : InvocationPatch} (h : PositionPatch envelope patch) :
      Format2Write base envelope ctx db (.updateInvocation envelope.invocationId patch)
  | watch {w : Write} (h : w.table = .firstTurnWatch) : Format2Write base envelope ctx db w

inductive Format1Write (base : Db) (envelope : InvocationEventEnvelope) (ctx : ProjectionContext) (db : Db) :
    Write → Prop where
  | run {w : Write} (h : RunTouch db w) : Format1Write base envelope ctx db w
  | launchBound {runId submissionId : String} (updatedAt : String) (hrun : ctx.runId = some runId)
      (h : launchBinding db envelope runId = some submissionId) :
      Format1Write base envelope ctx db
        (.updateRun runId { updatedAt := some updatedAt, brokerSubmissionId := some submissionId })
  | submissionEnded {w : Write} (hend : endsSubmission envelope.type = true) (h : RunEnd ctx db w) :
      Format1Write base envelope ctx db w
  | ended {w : Write} (hturn : envelope.type.isTurnTerminal = true) (h : RunEnd ctx db w) :
      Format1Write base envelope ctx db w
  | steer {w : Write} (hturn : envelope.type.isTurnTerminal = true) (hnone : ctx.runId = none)
      (h : SteerEnd db envelope w) : Format1Write base envelope ctx db w
  | settled {w : Write} (hturn : envelope.type.isTurnTerminal = false) (h : Settlement db w) :
      Format1Write base envelope ctx db w
  | released {w : Write} (hturn : envelope.type.isTurnTerminal = true)
      (h : Release base envelope ctx (extractTurnId envelope).isSome w) : Format1Write base envelope ctx db w
  | claim {w : Write} {runId : String} (hturn : envelope.type.isTurnTerminal = false)
      (h : RuntimeClaim ctx.runtimeId runId w) : Format1Write base envelope ctx db w
  | touch {w : Write} (h : RuntimeTouch ctx.runtimeId w) : Format1Write base envelope ctx db w
  | invocation {patch : InvocationPatch} (h : PositionPatch envelope patch) :
      Format1Write base envelope ctx db (.updateInvocation envelope.invocationId patch)
  | watch {w : Write} (h : w.table = .firstTurnWatch) : Format1Write base envelope ctx db w
  | admission {w : Write} (h : w.table = .submissionAdmissions) : Format1Write base envelope ctx db w
  | event {w : Write} (h : Append none w) : Format1Write base envelope ctx db w

section Rules

variable {P : Db → Write → Prop} {envelope : InvocationEventEnvelope} {ctx : ProjectionContext} {now : String}

variable {s : BrokerEventMapper} {runId occurredAt : String}

theorem endRun_writes {status : RunStatus} {errorCode : Option HrcErrorCode}
    {errorMessage : M (Option String)} (hm : ReadOnly errorMessage) (hr : ctx.runId = some runId)
    (ht : status.isRunTerminal = true) (hP : ∀ db w, RunEnd ctx db w → P db w) :
    Writes P (endRun runId status occurredAt now errorCode errorMessage) := by
  intro s
  refine WritesFrom.query_bind (EmitsFrom.when fun hop => ?_)
  refine EmitsFrom.bind_readOnly hm fun message _ => ?_
  exact RunRepository.markCompleted_writesFrom (hP _ _ (.ended _ hr hop ht))

omit [Host] in
theorem payloadText_readOnly (key : String) : ReadOnly (payloadText envelope key) :=
  ReadOnly.bind (property_readOnly _ _) fun _ => bindText_readOnly _

omit [Host] in
theorem turnMessage_readOnly : ReadOnly (turnMessage envelope) := by
  unfold turnMessage
  split
  · exact payloadText_readOnly _
  · exact ReadOnly.pure _

theorem endOwnerRun_writes (hr : ctx.runId = some runId)
    (hP : ∀ db w, RunEnd ctx db w → P db w) : Writes P (endOwnerRun envelope runId now) :=
  Emits.bind (endRun_writes turnMessage_readOnly hr (terminalStatus_terminal _) hP) fun _ => forgetBufferChunkSeq_writes

inductive Completes : Db → Write → Prop where
  | completed {db : Db} (runId : String) (updates : RunCompletion) : Completes db (.completeRun runId updates)

omit [Host] in
theorem completes_frame {a b : BrokerEventMapper}
    (h : Step Completes a b)
    (ha : a.db.brokerInvocationEvents = s.db.brokerInvocationEvents ∧ RunRepository.SameRuns s.db.runs a.db.runs ∧
      a.db.runtimes = s.db.runtimes) :
    b.db.brokerInvocationEvents = s.db.brokerInvocationEvents ∧ RunRepository.SameRuns s.db.runs b.db.runs ∧
      b.db.runtimes = s.db.runtimes := by
  obtain ⟨he, hrn, hr⟩ := ha
  cases h with
  | quiet h => rw [h.db]; exact ⟨he, hrn, hr⟩
  | write w hw h =>
    cases hw with
    | completed runId updates =>
      refine ⟨(Option.some.inj (Write.run_brokerInvocationEvents h)).symm.trans he, ?_,
        (Option.some.inj (Write.run_runtimes h)).symm.trans hr⟩
      exact (RunRepository.SameRuns.update (Write.run_runs h) fun _ => rfl).trans hrn

theorem markTerminal_writesFrom {exactOwner : Bool}
    (hr : ∀ db w, TerminalWrite s.db ctx envelope ctx.runId exactOwner w → P db w)
    (hi : ∀ db patch, PositionPatch envelope patch → P db (.updateInvocation envelope.invocationId patch)) :
    WritesFrom P s (markTerminal envelope ctx exactOwner now) := by
  refine WritesFrom.query_bind ?_
  refine EmitsFrom.bind (markRuntimeTurnTerminal_writesFrom hr) fun _ t _ _ => ?_
  exact WritesFrom.query_bind (EmitsFrom.when fun _ => statement_writes (fun db => hi db _ (.inl ⟨rfl, rfl⟩)) t)

theorem markTerminal_after {m : M Unit} {exactOwner : Bool}
    (he : WritesFrom Completes s m) (hm : WritesFrom P s m)
    (hr : ∀ db w, Release s.db envelope ctx exactOwner w → P db w)
    (hi : ∀ db patch, PositionPatch envelope patch → P db (.updateInvocation envelope.invocationId patch)) :
    WritesFrom P s (m >>= fun _ => markTerminal envelope ctx exactOwner now) := by
  refine EmitsFrom.bind hm fun a t ht _ => ?_
  have hfr := he.preserves (fun a b => completes_frame (s := s)) ⟨rfl, rfl, rfl⟩
  rw [ht] at hfr
  exact markTerminal_writesFrom (fun db w hw => hr db w (.released hfr.1 hfr.2.1 hfr.2.2 hw)) hi

theorem projectRetry_writes (ht : ∀ db w, RuntimeTouch ctx.runtimeId w → P db w)
    (hi : ∀ db patch, PositionPatch envelope patch → P db (.updateInvocation envelope.invocationId patch))
    (hty : envelope.type = .turnRetry) : Writes P (projectRetry envelope ctx now) := by
  intro s
  refine EmitsFrom.bind_readOnly (property_readOnly _ _) fun generation hg => ?_
  refine updateLifecyclePosition_writes ht (fun db patch h h' => hi db patch (.inr ?_)) s
  rw [h, h', property_eq_ok hg]
  simp only [reportedPosition, hty]

theorem markRunning_writes (hP : ∀ db w, RunTouch db w → P db w) :
    Writes P (markRunning runId occurredAt now) := runTouch_writes hP ⟨rfl, rfl, rfl, rfl, nofun⟩

omit [Host] in
theorem ends_completes {db : Db} {w : Write} (h : RunEnd ctx db w) : Completes db w := by
  cases h
  exact .completed _ _

omit [Host] in
theorem steerEnd_completes {db : Db} {w : Write} (h : SteerEnd db envelope w) : Completes db w := by
  cases h
  exact .completed _ _

end Rules

section Format2

variable {P : Db → Write → Prop} {envelope : InvocationEventEnvelope} {ctx : ProjectionContext} {now : String}
  {s : BrokerEventMapper} (hP : ∀ db w, Format2Write s.db envelope ctx db w → P db w)
include hP

theorem projectFormat2Start_writes (ht : envelope.type = .turnStarted) :
    Writes P (projectFormat2Start envelope ctx now) := by
  refine Emits.bind (FirstTurn.noteFirstTurnStarted_writes fun _ => hP _ _ (.watch rfl)) fun _ => ?_
  split
  · exact Emits.pure _
  · refine Emits.bind (Emits.of_readOnly (query_readOnly _)) fun isOpen => ?_
    refine Emits.bind (Emits.when (markRunning_writes fun _ _ h => hP _ _ (.fact (.run h)))) fun _ => ?_
    refine Emits.bind (claimRuntimeTurnOwnership_writes fun _ _ h => hP _ _ (.claim ht h)) fun _ => ?_
    exact statement_writes fun db => hP _ _ (.invocation (.inl ⟨rfl, rfl⟩))

theorem projectFormat2Turn_writesFrom : WritesFrom P s (projectFormat2Turn envelope ctx now) := by
  have hf : ∀ db w, InputFact db w → P db w := fun db w h => hP db w (.fact h)
  have ht (htr : envelope.type.isTurnTerminal = true) :
      WritesFrom P s (match ctx.runId, extractTurnId envelope with
        | some runId, some _ => endOwnerRun envelope runId now >>= fun _ => markTerminal envelope ctx true now
        | _, _ => pure ()) := by
    split
    · rename_i runId turnId hr hn
      refine markTerminal_after (endOwnerRun_writes hr (fun _ _ => ends_completes) s)
        (endOwnerRun_writes hr (fun db w h => hP db w (.ended htr ?_ h)) s)
        (fun db w h => hP db w (.released htr h)) fun db patch h => hP db _ (.invocation h)
      rw [hn]
      rfl
    · exact EmitsFrom.pure _
  unfold projectFormat2Turn
  split
  · exact landFormat2InputFromEnvelope_writes hf s
  · exact landFormat2InputFromEnvelope_writes hf s
  · exact landFormat2InputFromEnvelope_writes hf s
  · exact recordFormat2InputTerminal_writes hf s
  · exact recordFormat2InputTerminal_writes hf s
  · exact recordFormat2CorrelationForEnvelope_writes hf s
  · exact recordFormat2CorrelationForEnvelope_writes hf s
  · exact recordFormat2CorrelationForEnvelope_writes hf s
  · exact projectFormat2Start_writes hP ‹_› s
  · exact ht (by rw [‹envelope.type = _›]; rfl)
  · exact ht (by rw [‹envelope.type = _›]; rfl)
  · exact ht (by rw [‹envelope.type = _›]; rfl)
  · exact projectRetry_writes (fun db w h => hP db w (.touch h)) (fun db patch h => hP db _ (.invocation h)) ‹_› s
  · exact EmitsFrom.pure _

end Format2

section Format1

variable {P : Db → Write → Prop} {envelope : InvocationEventEnvelope} {ctx : ProjectionContext} {now : String}
  {s : BrokerEventMapper} (hP : ∀ db w, Format1Write s.db envelope ctx db w → P db w)
include hP

theorem recordDisposition_writes {onlyIfAbsent : Bool} : Writes P (recordDisposition envelope now onlyIfAbsent) := by
  unfold recordDisposition
  split
  · exact statement_writes fun db => hP _ _ (.admission rfl)
  · exact Emits.pure _

theorem touchRun_writes : Writes P (touchRun ctx now) := by
  unfold touchRun
  split
  · exact Emits.pure _
  · exact runTouch_writes (fun _ _ h => hP _ _ (.run h)) ⟨rfl, rfl, rfl, rfl, nofun⟩

theorem projectLandedRun_writes {runId : String} (hr : ctx.runId = some runId)
    (ht : envelope.type.isTurnTerminal = false) : Writes P (projectLandedRun envelope ctx runId now) := by
  have hs : ∀ db w, Settlement db w → P db w := fun db w h => hP db w (.settled ht h)
  intro s'
  refine WritesFrom.query_bind ?_
  have hbd : WritesFrom P s' (RunRepository.update runId
      { updatedAt := some now, brokerSubmissionId := launchBinding s'.db envelope runId }) := by
    refine RunRepository.update_writesFrom ?_
    rcases hb : launchBinding s'.db envelope runId with _ | submissionId
    · exact hP _ _ (.run (.touched ⟨rfl, rfl, rfl, rfl, nofun⟩))
    · exact hP _ _ (.launchBound now hr hb)
  refine EmitsFrom.bind hbd fun _ t _ _ => ?_
  refine Emits.bind (Emits.forEach fun _ => statement_writes fun db => hP _ _ (.admission rfl)) (fun _ => ?_) t
  refine Emits.when (Emits.bind (statement_writes fun db => hP _ _ (.invocation (.inl ⟨rfl, rfl⟩))) fun _ => ?_)
  refine Emits.bind (Emits.of_readOnly (query_readOnly _)) fun owner => ?_
  split
  · exact Emits.pure _
  · exact settlePriorAbsorbedAuxiliaries_writes fun db w h _ => hs db w h

theorem projectLanded_writes (ht : envelope.type.isTurnTerminal = false) :
    Writes P (projectLanded envelope ctx now) := by
  refine Emits.bind (recordDisposition_writes hP) fun _ => Emits.bind ?_ fun _ => Emits.when ?_
  · refine fun t => EmitsFrom.forEach (fun _ => True) (fun _ _ _ _ => trivial) (fun runId hm t _ => ?_) trivial
    exact projectLandedRun_writes hP (Option.mem_toList.mp hm) ht t
  · refine Emits.bind (Emits.of_readOnly (query_readOnly _)) fun owner => ?_
    split
    · exact Emits.pure _
    · exact settleAbsorbedAuxiliary_writes fun db w h _ => hP db w (.settled ht h)

theorem projectSubmissionEnd_writes (he : endsSubmission envelope.type = true) :
    Writes P (projectSubmissionEnd envelope ctx now) := by
  have hen : ∀ db w, RunEnd ctx db w → P db w := fun db w h => hP db w (.submissionEnded he h)
  refine Emits.bind (recordDisposition_writes hP) fun _ => ?_
  split
  · exact Emits.pure _
  · rename_i hr
    unfold endSubmission
    dsimp only
    split
    · exact endRun_writes (ReadOnly.bind (payloadText_readOnly _) fun _ => ReadOnly.pure _) hr rfl hen
    · exact endRun_writes (payloadText_readOnly _) hr rfl hen
    · exact endRun_writes (payloadText_readOnly _) hr rfl hen

theorem startRun_writes {runId : String} : Writes P (startRun envelope ctx runId now) := by
  refine Emits.bind (Emits.of_readOnly (query_readOnly _)) fun run => ?_
  split
  · exact markRunning_writes fun _ _ h => hP _ _ (.run h)
  · unfold noteTurnStartedOnTerminalRun
    split
    · exact serverLog_writes _
    · refine Emits.bind (Emits.of_readOnly (query_readOnly _)) fun watch => ?_
      refine Emits.bind (serverLog_writes _) fun _ => ?_
      refine Emits.bind (append_writes fun _ _ h => hP _ _ (.event h)) fun e => ?_
      exact Emits.modify fun _ => .quiet ⟨rfl, rfl, rfl, rfl, rfl, rfl⟩

theorem projectStart_writes (ht : envelope.type.isTurnTerminal = false) :
    Writes P (projectStart envelope ctx now) := by
  refine Emits.bind (FirstTurn.noteFirstTurnStarted_writes fun _ => hP _ _ (.watch rfl)) fun _ => ?_
  refine Emits.bind ?_ fun _ => statement_writes fun db => hP _ _ (.invocation (.inl ⟨rfl, rfl⟩))
  unfold startOwned
  dsimp only
  split
  · exact Emits.bind (startRun_writes hP) fun _ =>
      claimRuntimeTurnOwnership_writes fun _ _ h => hP _ _ (.claim ht h)
  · exact Emits.bind (Emits.of_readOnly (query_readOnly _)) fun _ =>
      Emits.when (setRuntimeStatus_writes fun _ _ h => hP _ _ (.touch h))

theorem projectAttributed_writes (ht : envelope.type.isTurnTerminal = false) :
    Writes P (projectAttributed envelope ctx now) := by
  refine Emits.bind (Emits.of_readOnly (query_readOnly _)) fun owner => ?_
  split
  · exact Emits.pure _
  · refine Emits.bind (settlePriorAbsorbedAuxiliaries_writes fun db w h _ => hP db w (.settled ht h)) fun _ => ?_
    refine Emits.bind (Emits.of_readOnly (query_readOnly _)) fun run => ?_
    split
    · exact Emits.pure _
    · refine Emits.bind (Emits.when (markRunning_writes fun _ _ h => hP _ _ (.run h))) fun _ => ?_
      refine Emits.bind (claimRuntimeTurnOwnership_writes fun _ _ h => hP _ _ (.claim ht h)) fun _ => ?_
      exact statement_writes fun db => hP _ _ (.invocation (.inl ⟨rfl, rfl⟩))

theorem projectTerminal_writesFrom (ht : envelope.type.isTurnTerminal = true) :
    WritesFrom P s (projectTerminal envelope ctx now) := by
  refine markTerminal_after ?_ ?_ (fun db w h => hP db w (.released ht h)) fun db patch h => hP db _ (.invocation h)
  · unfold endTurnRuns
    split
    · exact endOwnerRun_writes ‹_› (fun _ _ => ends_completes) s
    · exact settleUnownedTurnAbsorbedSteers_writes (terminalStatus_terminal _) (fun _ _ => steerEnd_completes) s
  · unfold endTurnRuns
    split
    · exact endOwnerRun_writes ‹_› (fun db w h => hP db w (.ended ht h)) s
    · exact settleUnownedTurnAbsorbedSteers_writes (terminalStatus_terminal _) (fun db w h => hP db w (.steer ht ‹_› h)) s

theorem projectFormat1Turn_writesFrom : WritesFrom P s (projectFormat1Turn envelope ctx now) := by
  have hn {type : EventType} (h : envelope.type = type) (ht : type.isTurnTerminal = false) :
      envelope.type.isTurnTerminal = false := h ▸ ht
  unfold projectFormat1Turn
  split
  · exact touchRun_writes hP s
  · exact touchRun_writes hP s
  · exact touchRun_writes hP s
  · exact Emits.bind (touchRun_writes hP) (fun _ => recordDisposition_writes hP) s
  · exact Emits.bind (touchRun_writes hP) (fun _ => recordDisposition_writes hP) s
  · exact projectLanded_writes hP (hn ‹_› rfl) s
  · exact projectLanded_writes hP (hn ‹_› rfl) s
  · exact projectSubmissionEnd_writes hP (by rw [‹envelope.type = _›]; rfl) s
  · exact projectSubmissionEnd_writes hP (by rw [‹envelope.type = _›]; rfl) s
  · exact projectSubmissionEnd_writes hP (by rw [‹envelope.type = _›]; rfl) s
  · exact projectSubmissionEnd_writes hP (by rw [‹envelope.type = _›]; rfl) s
  · exact projectStart_writes hP (hn ‹_› rfl) s
  · exact projectAttributed_writes hP (hn ‹_› rfl) s
  · exact projectTerminal_writesFrom hP (by rw [‹envelope.type = _›]; rfl)
  · exact projectTerminal_writesFrom hP (by rw [‹envelope.type = _›]; rfl)
  · exact projectTerminal_writesFrom hP (by rw [‹envelope.type = _›]; rfl)
  · exact projectRetry_writes (fun db w h => hP db w (.touch h)) (fun db patch h => hP db _ (.invocation h)) ‹_› s
  · exact EmitsFrom.pure _

end Format1

end HrcRuntime.TurnProjection
