import HrcRuntime.RunResolution

namespace HrcRuntime.RuntimeState

open Json Records Database Program Mapper EventRepository Repositories Ownership Context

/-- `isRecord(json) ? { ...json, ...entries } : undefined`. -/
def extendRecord (json : Option Json) (entries : List (String × Json)) : Option Json :=
  match json with
  | some (.obj fields) => some (.obj (entries.foldl (fun fields e => fields.set e.1 e.2) fields))
  | _ => none

def omitRuntimeStateActiveRun (json : Json) : Json :=
  match json with
  | .obj fields => .obj (fields.erase "activeRunId")
  | json => json

def isRuntimeAwaitingInput (db : Db) (runtimeId : String) : Bool :=
  (getByRuntimeId db runtimeId).any fun runtime => runtime.status == .awaitingInput

def heldByOther (db : Db) (runtime : HrcRuntimeSnapshot) (runId : String) : Bool :=
  match runtime.activeRunId with
  | none => false
  | some activeRunId => activeRunId != runId
      && (RunRepository.getByRunId db activeRunId).any fun run => run.completedAt.isNone

def terminalBelongsToActiveInvocation (runtime : HrcRuntimeSnapshot) (ctx : ProjectionContext)
    (invocationId : String) : Bool :=
  (runtime.activeInvocationId.all (· == invocationId)) && (runtime.activeOperationId.all (· == ctx.operationId))

def hasOpenTurnBracketAtSeq (db : Db) (invocationId : String) (seq : Nat) : Bool :=
  let rows := listByInvocationId db invocationId
  rows.any fun started => started.type == .turnStarted && decide (started.seq ≤ seq)
    && !rows.any fun terminal => terminal.type.isTurnTerminal && decide (started.seq < terminal.seq)
      && decide (terminal.seq ≤ seq)

def terminalStatus : EventType → RunStatus
  | .turnCompleted => .completed
  | .turnFailed => .failed
  | _ => .cancelled

theorem terminalStatus_terminal (type : EventType) : (terminalStatus type).isRunTerminal = true := by
  unfold terminalStatus
  split <;> rfl

def eventInput (ctx : ProjectionContext) (ts : String) (payload : Json) : HrcLifecycleEventInput :=
  { ts, hostSessionId := ctx.hostSessionId, scopeRef := ctx.scopeRef, laneRef := ctx.laneRef
    generation := ctx.generation, runtimeId := some ctx.runtimeId, runId := ctx.runId
    transport := some ctx.transport, payload }

structure DerivedTurnDescriptor where
  eventKind : HrcEventKind
  toolUseId : Option Json
  toolName : Option Json

def ofNat? (n : Option Nat) : Option Json := n.map Json.ofNat

variable [Host]

def claimRuntimeTurnOwnership (ctx : ProjectionContext) (runId occurredAt updatedAt : String) : M Unit := do
  let runtime ← query (getByRuntimeId · ctx.runtimeId)
  match runtime with
  | none => pure ()
  | some runtime => do
      let held ← query (heldByOther · runtime runId)
      if runtime.generation != ctx.generation || !runtime.activeOperationId.all (· == ctx.operationId) || held then
        pure ()
      else do
        let allowed ← RunRepository.mayNameActiveRun runId
          { runtimeId := some runtime.runtimeId, operationId := runtime.activeOperationId
            hostSessionId := runtime.hostSessionId, generation := runtime.generation }
        if allowed then do
          let activity ← query (Runtimes.runtimeActivityPatch · ctx.runtimeId occurredAt updatedAt)
          Runtimes.update ctx.runtimeId
            { activity with
              status := some .busy, statusChangedAt := some occurredAt, activeRunId := some runId
              runtimeStateJson := extendRecord runtime.runtimeStateJson
                [("status", .str "busy"), ("activeRunId", .str runId), ("updatedAt", .str updatedAt)] }
        else serverLog "broker.run_handle_refused"

/-- Update `status` and the mirrored `runtimeStateJson.status` together. -/
def setRuntimeStatus (runtimeId : String) (status : RuntimeStatus) (occurredAt updatedAt : String) : M Unit := do
  let runtime ← query (getByRuntimeId · runtimeId)
  match runtime with
  | none => pure ()
  | some runtime => do
      let activity ← query (Runtimes.runtimeActivityPatch · runtimeId occurredAt updatedAt)
      Runtimes.update runtimeId
        { activity with
          status := some status, statusChangedAt := some occurredAt
          runtimeStateJson := extendRecord runtime.runtimeStateJson
            [("status", .str status.text), ("updatedAt", .str updatedAt)] }

def markRuntimeAwaitingInput (ctx : ProjectionContext) (invocationId occurredAt updatedAt : String) : M Unit := do
  Invocations.update invocationId { invocationState := some .awaitingInput, updatedAt := some updatedAt }
  setRuntimeStatus ctx.runtimeId .awaitingInput occurredAt updatedAt

def markRuntimeInputResumed (ctx : ProjectionContext) (invocationId occurredAt updatedAt : String) : M Unit := do
  Invocations.update invocationId { invocationState := some .turnActive, updatedAt := some updatedAt }
  setRuntimeStatus ctx.runtimeId .busy occurredAt updatedAt

def emitDerivedTurnEvent (envelope : InvocationEventEnvelope) (ctx : ProjectionContext) (now : String)
    (descriptor : DerivedTurnDescriptor) : M HrcLifecycleEvent :=
  HrcEvents.append descriptor.eventKind (eventInput ctx now (Json.object
    [("toolUseId", descriptor.toolUseId), ("toolName", descriptor.toolName),
      ("invocationId", some (.str envelope.invocationId)), ("seq", some (.ofNat envelope.seq)),
      ("harnessGeneration", ofNat? envelope.harnessGeneration), ("turnAttempt", ofNat? envelope.turnAttempt)]))

def clearRuntimeTurnOwnership (runtime : HrcRuntimeSnapshot) (occurredAt updatedAt : String) : M Unit := do
  Runtimes.clearRunId runtime.runtimeId updatedAt
  let activity ← query (Runtimes.runtimeActivityPatch · runtime.runtimeId occurredAt updatedAt)
  Runtimes.update runtime.runtimeId
    { activity with
      status := some .ready, statusChangedAt := some occurredAt
      runtimeStateJson := extendRecord (runtime.runtimeStateJson.map omitRuntimeStateActiveRun)
        [("status", .str "ready"), ("updatedAt", .str updatedAt)] }

def clearUnlessAwaiting (runtime : HrcRuntimeSnapshot) (belongs : Bool) (occurredAt updatedAt : String) :
    M Unit := do
  let asking ← query (runtimeHasAnyOpenAskBracket · runtime)
  Prog.when (belongs && !asking) (clearRuntimeTurnOwnership runtime occurredAt updatedAt)

/-- The superseded runs a terminal of `terminalRunId` ends. -/
def supersededRuns (db : Db) (envelope : InvocationEventEnvelope) (terminalRunId : Option String) : List String :=
  (runsSupersededByTerminal db envelope).filter fun runId => some runId != terminalRunId

def endSupersededTurnRuns (envelope : InvocationEventEnvelope) (terminalRunId : Option String)
    (occurredAt updatedAt : String) : M (List String) := do
  let superseded ← query (supersededRuns · envelope terminalRunId)
  Prog.forEach superseded fun runId => do
    RunRepository.markCompleted runId
      { status := terminalStatus envelope.type, completedAt := occurredAt, updatedAt }
    serverLog "broker.event_mapper.superseded_turn_run_ended"
  pure superseded

def mismatchMessage (runId runtimeId : String) (seq : Nat) : String :=
  s!"run {runId} reached its turn terminal (seq {seq}) while this run still owned runtime {runtimeId}; this run's own turn terminal was never projected"

/-- Another run's terminal closed every bracket of the invocation: fail the run that still owns the
runtime and clear it. -/
def unwedge (ctx : ProjectionContext) (envelope : InvocationEventEnvelope) (runtime : HrcRuntimeSnapshot)
    (activeRunId runId occurredAt updatedAt : String) : M Unit := do
  let canUnwedge ← query fun db => terminalBelongsToActiveInvocation runtime ctx envelope.invocationId
    && !hasOpenTurnBracketAtSeq db envelope.invocationId envelope.seq && !runtimeHasAnyOpenAskBracket db runtime
  let failedActiveRun ← query fun db =>
    (RunRepository.getByRunId db activeRunId).any fun run => run.completedAt.isNone
  Prog.when canUnwedge do
    Prog.when failedActiveRun (RunRepository.markCompleted activeRunId
      { status := .failed, completedAt := occurredAt, updatedAt, errorCode := some .runMismatch
        errorMessage := some (mismatchMessage runId ctx.runtimeId envelope.seq) })
    serverLog "broker.event_mapper.runtime_unwedged_on_run_mismatch"
    clearRuntimeTurnOwnership runtime occurredAt updatedAt

def releaseRuntime (ctx : ProjectionContext) (envelope : InvocationEventEnvelope) (runtime : HrcRuntimeSnapshot)
    (endedRunIds : List String) (runId : Option String) (occurredAt updatedAt : String) (exactOwner : Bool) :
    M Unit :=
  let belongs := terminalBelongsToActiveInvocation runtime ctx envelope.invocationId
  if runtime.activeRunId.any endedRunIds.contains then clearUnlessAwaiting runtime belongs occurredAt updatedAt
  else match runId, runtime.activeRunId with
    | none, some _ => pure ()
    | none, none => clearUnlessAwaiting runtime belongs occurredAt updatedAt
    | some _, none => clearUnlessAwaiting runtime true occurredAt updatedAt
    | some runId, some activeRunId =>
      if activeRunId == runId then clearUnlessAwaiting runtime true occurredAt updatedAt
      else if exactOwner then pure ()
      else unwedge ctx envelope runtime activeRunId runId occurredAt updatedAt

def markRuntimeTurnTerminal (ctx : ProjectionContext) (envelope : InvocationEventEnvelope) (runId : Option String)
    (occurredAt updatedAt : String) (exactOwner newerTurnActive : Bool) : M Unit := do
  let runtime ← query (getByRuntimeId · ctx.runtimeId)
  match runtime with
  | none => pure ()
  | some runtime =>
    if runtime.generation != ctx.generation then pure ()
    else do
      let endedRunIds ← endSupersededTurnRuns envelope runId occurredAt updatedAt
      Prog.when (!newerTurnActive)
        (releaseRuntime ctx envelope runtime endedRunIds runId occurredAt updatedAt exactOwner)

inductive RuntimeTouch (runtimeId : String) : Write → Prop where
  | touched {patch : RuntimePatch} (h : patch.activeRunId = none) :
      RuntimeTouch runtimeId (.updateRuntime runtimeId patch)

inductive RuntimeClaim (runtimeId runId : String) : Write → Prop where
  | claimed {patch : RuntimePatch} (h : patch.activeRunId = some runId) :
      RuntimeClaim runtimeId runId (.updateRuntime runtimeId patch)

inductive TerminalWrite (start : Db) (ctx : ProjectionContext) (envelope : InvocationEventEnvelope)
    (runId : Option String) (exactOwner : Bool) : Write → Prop where
  | superseded {ended : String} (occurredAt updatedAt : String) (h : ended ∈ supersededRuns start envelope runId) :
      TerminalWrite start ctx envelope runId exactOwner
        (.completeRun ended { status := terminalStatus envelope.type, completedAt := occurredAt, updatedAt })
  | unwedged {runtime : HrcRuntimeSnapshot} {activeRunId : String} (updates : RunCompletion)
      (hruntime : getByRuntimeId start ctx.runtimeId = some runtime)
      (hactive : runtime.activeRunId = some activeRunId) (hexact : exactOwner = false)
      (hterminal : updates.status.isRunTerminal = true) :
      TerminalWrite start ctx envelope runId exactOwner (.completeRun activeRunId updates)
  | cleared {runtime : HrcRuntimeSnapshot} (updatedAt : String)
      (hruntime : getByRuntimeId start ctx.runtimeId = some runtime)
      (hactive : ∀ activeRunId, runtime.activeRunId = some activeRunId →
        activeRunId ∈ supersededRuns start envelope runId ∨ runId = some activeRunId ∨ exactOwner = false) :
      TerminalWrite start ctx envelope runId exactOwner (.setActiveRun runtime.runtimeId none updatedAt)
  | readied {runtime : HrcRuntimeSnapshot} {w : Write}
      (hruntime : getByRuntimeId start ctx.runtimeId = some runtime) (hw : RuntimeTouch runtime.runtimeId w) :
      TerminalWrite start ctx envelope runId exactOwner w

section Rules

variable {P : Db → Write → Prop}

variable {runId : Option String} {runtimeId : String}

theorem touch_writes {patch : RuntimePatch} (h : patch.activeRunId = none)
    (hP : ∀ db w, RuntimeTouch runtimeId w → P db w) : Writes P (Runtimes.update runtimeId patch) :=
  fun _ => Runtimes.update_writesFrom (hP _ _ (.touched ((Runtimes.guardedPatch_activeRunId _ _).trans h)))

theorem claimRuntimeTurnOwnership_writes {ctx : ProjectionContext} {runId occurredAt updatedAt : String}
    (hP : ∀ db w, RuntimeClaim ctx.runtimeId runId w → P db w) :
    Writes P (claimRuntimeTurnOwnership ctx runId occurredAt updatedAt) := by
  refine Emits.bind (Emits.of_readOnly (query_readOnly _)) fun runtime => ?_
  split
  · exact Emits.pure _
  · refine Emits.bind (Emits.of_readOnly (query_readOnly _)) fun held => ?_
    split
    · exact Emits.pure _
    · refine Emits.bind (Emits.of_readOnly (RunRepository.mayNameActiveRun_readOnly _ _)) fun allowed => ?_
      split
      · refine Emits.bind (Emits.of_readOnly (query_readOnly _)) fun activity s => ?_
        exact Runtimes.update_writesFrom (hP _ _ (.claimed (Runtimes.guardedPatch_activeRunId _ _)))
      · exact serverLog_writes _

theorem setRuntimeStatus_writes {status : RuntimeStatus} {occurredAt updatedAt : String}
    (hP : ∀ db w, RuntimeTouch runtimeId w → P db w) :
    Writes P (setRuntimeStatus runtimeId status occurredAt updatedAt) := by
  intro s
  refine WritesFrom.query_bind ?_
  split
  · exact EmitsFrom.pure _
  · refine WritesFrom.query_bind ?_
    exact touch_writes rfl hP s

variable {runtime : HrcRuntimeSnapshot}

theorem clearRuntimeTurnOwnership_writes {occurredAt updatedAt : String}
    (hc : ∀ db, P db (.setActiveRun runtime.runtimeId none updatedAt))
    (hP : ∀ db w, RuntimeTouch runtime.runtimeId w → P db w) :
    Writes P (clearRuntimeTurnOwnership runtime occurredAt updatedAt) := by
  refine Emits.bind (statement_writes hc) fun _ s => ?_
  refine WritesFrom.query_bind ?_
  exact touch_writes rfl hP s

theorem clearUnlessAwaiting_writes {belongs : Bool} {occurredAt updatedAt : String}
    (hc : ∀ db, P db (.setActiveRun runtime.runtimeId none updatedAt))
    (hP : ∀ db w, RuntimeTouch runtime.runtimeId w → P db w) :
    Writes P (clearUnlessAwaiting runtime belongs occurredAt updatedAt) :=
  Emits.bind (Emits.of_readOnly (query_readOnly _)) fun _ =>
    Emits.when (clearRuntimeTurnOwnership_writes hc hP)

variable {ctx : ProjectionContext} {envelope : InvocationEventEnvelope} {occurredAt updatedAt : String}

theorem releaseRuntime_writes {start : Db}
    {exactOwner : Bool} (hrt : getByRuntimeId start ctx.runtimeId = some runtime)
    (hP : ∀ db w, TerminalWrite start ctx envelope runId exactOwner w → P db w) :
    Writes P (releaseRuntime ctx envelope runtime (supersededRuns start envelope runId) runId occurredAt updatedAt
      exactOwner) := by
  have ht : ∀ db w, RuntimeTouch runtime.runtimeId w → P db w := fun db w hw => hP db w (.readied hrt hw)
  have hc : (∀ activeRunId, runtime.activeRunId = some activeRunId →
      activeRunId ∈ supersededRuns start envelope runId ∨ runId = some activeRunId ∨ exactOwner = false) →
      ∀ db, P db (.setActiveRun runtime.runtimeId none updatedAt) :=
    fun h db => hP db _ (.cleared updatedAt hrt h)
  unfold releaseRuntime
  split
  · rename_i he
    refine clearUnlessAwaiting_writes (hc fun active hact => .inl ?_) ht
    rw [hact] at he
    simpa using he
  · have hi : runtime.activeRunId = none →
        ∀ db, P db (.setActiveRun runtime.runtimeId none updatedAt) := fun hn =>
      hc fun active hact => nomatch hn.symm.trans hact
    cases runId with
    | none =>
      cases hact : runtime.activeRunId with
      | none => exact clearUnlessAwaiting_writes (hi hact) ht
      | some active => exact Emits.pure _
    | some run =>
      cases hact : runtime.activeRunId with
      | none => exact clearUnlessAwaiting_writes (hi hact) ht
      | some active =>
        dsimp only
        split
        · rename_i heq
          refine clearUnlessAwaiting_writes (hc fun active' ha' => .inr (.inl ?_)) ht
          rw [hact] at ha'
          cases ha'
          rw [beq_iff_eq.mp heq]
        · split
          · exact Emits.pure _
          · rename_i hex
            have hex : exactOwner = false := by simpa using hex
            refine Emits.bind (Emits.of_readOnly (query_readOnly _)) fun canUnwedge => ?_
            refine Emits.bind (Emits.of_readOnly (query_readOnly _)) fun failedActiveRun => Emits.when ?_
            refine Emits.bind (Emits.when fun s => RunRepository.markCompleted_writesFrom
              (hP _ _ (.unwedged _ hrt hact hex rfl))) fun _ => ?_
            refine Emits.bind (serverLog_writes _) fun _ => ?_
            exact clearRuntimeTurnOwnership_writes (hc fun _ _ => .inr (.inr hex)) ht

theorem markRuntimeTurnTerminal_writesFrom {s : BrokerEventMapper}
    {exactOwner newerTurnActive : Bool}
    (hP : ∀ db w, TerminalWrite s.db ctx envelope runId exactOwner w → P db w) :
    WritesFrom P s (markRuntimeTurnTerminal ctx envelope runId occurredAt updatedAt exactOwner newerTurnActive) := by
  refine WritesFrom.query_bind ?_
  split
  · exact EmitsFrom.pure _
  · rename_i runtime hrt
    split
    · exact EmitsFrom.pure _
    · refine EmitsFrom.bind (m := endSupersededTurnRuns envelope runId occurredAt updatedAt) ?_
        fun ended s' he _ => ?_
      · refine WritesFrom.query_bind ?_
        refine EmitsFrom.bind (EmitsFrom.forEach (fun _ => True) (fun _ _ _ _ => trivial) (fun ended hm t _ => ?_)
          trivial) fun _ _ _ _ => EmitsFrom.pure _
        refine EmitsFrom.bind (RunRepository.markCompleted_writesFrom (hP _ _ (.superseded _ _ hm)))
          fun _ t' _ _ => serverLog_writes _ t'
      · have hl : ended = supersededRuns s.db envelope runId := by
          obtain ⟨superseded, t, hqr, hr⟩ := bind_eq_ok.mp he
          cases hqr
          obtain ⟨_, _, _, hp⟩ := bind_eq_ok.mp hr
          cases hp
          rfl
        subst hl
        exact EmitsFrom.when fun _ => releaseRuntime_writes hrt hP s'

end Rules

end HrcRuntime.RuntimeState
