import HrcRuntime.Keyed
import HrcRuntime.KeysetPaging
import HrcRuntime.RuntimeState
import HrcRuntime.Schedule

namespace HrcRuntime.FirstTurnWatch

open Records Database Context RuntimeState Keyed

abbrev Generation := String × Nat

/-- A row of `runtime_first_turn_watch`. -/
structure Watch where
  runtimeId : String
  generation : Nat
  hostSessionId : String
  scopeRef : String
  laneRef : String
  runId : Option String := none
  invocationId : Option String := none
  transport : Option Transport := none
  primingDispatchedAt : Option String := none
  firstTurnDeadlineAt : Option String := none
  firstTurnAt : Option String := none
  firstTurnMissingTrippedAt : Option String := none
  disarmedAt : Option String := none
  disarmReason : Option String := none
  tripEventSeq : Option Nat := none
  createdAt : String
  updatedAt : String

namespace Watch

def key (w : Watch) : Generation := (w.runtimeId, w.generation)

def isUnsettled (w : Watch) : Bool :=
  w.firstTurnAt.isNone && w.firstTurnMissingTrippedAt.isNone && w.disarmedAt.isNone

def isArmable (w : Watch) : Bool := w.primingDispatchedAt.isNone && w.isUnsettled

def isDue (now : String) (w : Watch) : Bool :=
  w.isUnsettled && w.firstTurnDeadlineAt.any fun deadline => !decide (now < deadline)

def started (firstTurnAt : String) (w : Watch) : Watch :=
  { w with firstTurnAt := some firstTurnAt, updatedAt := firstTurnAt }

def disarmed (reason disarmedAt : String) (w : Watch) : Watch :=
  { w with disarmedAt := some disarmedAt, disarmReason := some reason, updatedAt := disarmedAt }

def tripped (trippedAt : String) (tripEventSeq : Nat) (w : Watch) : Watch :=
  { w with firstTurnMissingTrippedAt := some trippedAt, tripEventSeq := some tripEventSeq, updatedAt := trippedAt }

/-- `ON CONFLICT DO UPDATE ... WHERE`: the row `excluded` meets. -/
def rearmed (excluded w : Watch) : Watch :=
  if w.isArmable then
    { w with
      runId := w.runId.or excluded.runId, invocationId := w.invocationId.or excluded.invocationId
      transport := w.transport.or excluded.transport, primingDispatchedAt := excluded.primingDispatchedAt
      firstTurnDeadlineAt := excluded.firstTurnDeadlineAt, updatedAt := excluded.updatedAt }
  else w

theorem started_key (firstTurnAt : String) (w : Watch) : (started firstTurnAt w).key = w.key := rfl

theorem disarmed_key (reason disarmedAt : String) (w : Watch) : (disarmed reason disarmedAt w).key = w.key := rfl

theorem tripped_key (trippedAt : String) (tripEventSeq : Nat) (w : Watch) : (tripped trippedAt tripEventSeq w).key = w.key :=
  rfl

theorem rearmed_key (excluded w : Watch) : (rearmed excluded w).key = w.key := by
  unfold rearmed
  split <;> rfl

end Watch

theorem patch_runId (p : RunPatch) (r : HrcRunRecord) : (p.apply r).runId = r.runId := rfl

theorem completion_runId (c : RunCompletion) (r : HrcRunRecord) : (c.apply r).runId = r.runId := rfl

abbrev Watches := Store Watch Watch.key

abbrev Runs := Store HrcRunRecord HrcRunRecord.runId

/-- An `hrc_events` row. -/
structure Event where
  hrcSeq : Nat
  eventKind : HrcEventKind
  input : HrcLifecycleEventInput

structure State where
  watches : Watches
  runs : Runs
  hrcEvents : List Event
  /-- What each evaluation pass read as due and has not come to yet. -/
  passes : List (List Watch)

def State.empty : State := ⟨.empty, .empty, [], []⟩

def State.nextSeq (s : State) : Nat := s.hrcEvents.length + 1

/-- What the deadlines come from: the environment's default, and `new Date(Date.parse(at) + ms).toISOString()`, absent
where the text is no date. -/
class Timing where
  defaultTimeoutMs : Nat
  later : String → Nat → Option String

structure ArmInput where
  runtimeId : String
  generation : Nat
  hostSessionId : String
  scopeRef : String
  laneRef : String
  runId : Option String := none
  invocationId : Option String := none
  transport : Option Transport := none
  /-- A whole number of milliseconds. -/
  timeoutMsOverride : Option Nat := none
  primingDispatchedAt : String

def ArmInput.key (input : ArmInput) : Generation := (input.runtimeId, input.generation)

def ArmInput.row (input : ArmInput) (firstTurnDeadlineAt : String) : Watch where
  runtimeId := input.runtimeId
  generation := input.generation
  hostSessionId := input.hostSessionId
  scopeRef := input.scopeRef
  laneRef := input.laneRef
  runId := input.runId
  invocationId := input.invocationId
  transport := input.transport
  primingDispatchedAt := some input.primingDispatchedAt
  firstTurnDeadlineAt := some firstTurnDeadlineAt
  createdAt := input.primingDispatchedAt
  updatedAt := input.primingDispatchedAt

/-- A `turn.started` as its projection reads it: the run it was attributed to is its context's. -/
structure TurnStarted where
  ctx : ProjectionContext
  invocationId : String
  seq : Nat
  occurredAt : String
  now : String
  executionFormat : ExecutionFormat := .format1

def TurnStarted.key (e : TurnStarted) : Generation := (e.ctx.runtimeId, e.ctx.generation)

def isStartedIn (k : Generation) (r : HrcRunRecord) : Bool :=
  r.runtimeId == some k.1 && r.generation == k.2 && r.startedAt.isSome

def generationHasStartedTurn (s : State) (k : Generation) : Bool := s.runs.rows.any (isStartedIn k)

def isOpen (r : HrcRunRecord) : Bool := r.completedAt.isNone

section Timing

variable [Timing]

def resolveFirstTurnTimeoutMs : Option Nat → Nat
  | some override => if 0 < override then override else Timing.defaultTimeoutMs
  | none => Timing.defaultTimeoutMs

def armFirstTurnWatch (s : State) (input : ArmInput) : State :=
  if generationHasStartedTurn s input.key then s
  else match Timing.later input.primingDispatchedAt (resolveFirstTurnTimeoutMs input.timeoutMsOverride) with
  | none => s
  | some deadline =>
    let row := input.row deadline
    { s with watches := s.watches.upsert row (Watch.rearmed row) (Watch.rearmed_key row) }

end Timing

def noteFirstTurnStarted (s : State) (k : Generation) (occurredAt : String) : State :=
  { s with watches := s.watches.amend k (·.firstTurnAt.isNone) (.started occurredAt) (Watch.started_key _) }

def disarmFirstTurnWatch (s : State) (k : Generation) (reason occurredAt : String) : State :=
  { s with watches := s.watches.amend k Watch.isUnsettled (.disarmed reason occurredAt) (Watch.disarmed_key _ _) }

def isFirstTurnMissingTerminalRun (r : HrcRunRecord) : Bool :=
  r.startedAt.isNone && r.errorCode == some .firstTurnMissing

def lateStartInput (e : TurnStarted) (watch : Option Watch) (r : HrcRunRecord) : HrcLifecycleEventInput where
  ts := e.now
  hostSessionId := e.ctx.hostSessionId
  scopeRef := e.ctx.scopeRef
  laneRef := e.ctx.laneRef
  generation := e.ctx.generation
  runtimeId := some e.ctx.runtimeId
  runId := some r.runId
  transport := some e.ctx.transport
  payload := .object [("runId", some (.str r.runId)), ("invocationId", some (.str e.invocationId)),
    ("seq", some (.ofNat e.seq)), ("startedAt", some (.str e.occurredAt)), ("terminalStatus", some (.str r.status.text)),
    ("terminalErrorCode", r.errorCode.map fun code => .str code.text),
    ("terminalCompletedAt", r.completedAt.map .str), ("tripEventSeq", (watch.bind (·.tripEventSeq)).map .ofNat)]

def noteTurnStartedOnTerminalRun (s : State) (e : TurnStarted) (r : HrcRunRecord) : State :=
  if isFirstTurnMissingTerminalRun r then
    { s with hrcEvents := s.hrcEvents ++ [⟨s.nextSeq, .firstTurnMissingLateStart, lateStartInput e (s.watches.find e.key) r⟩] }
  else s

/-- `runs.update` of a start; a terminal run is not asked to run again. -/
def markRunning (s : State) (runId occurredAt now : String) : State :=
  { s with runs := s.runs.amend runId isOpen
             (RunPatch.apply { status := some .running, startedAt := some occurredAt, updatedAt := some now }) (patch_runId _) }

/-- The projection of a `turn.started`. -/
def projectTurnStarted (s : State) (e : TurnStarted) : State :=
  let s := noteFirstTurnStarted s e.key e.occurredAt
  match e.ctx.runId with
  | none => s
  | some runId => match s.runs.find runId with
    | none => s
    | some r =>
      if isOpen r then markRunning s runId e.occurredAt e.now
      else match e.executionFormat with
      | .format1 => noteTurnStartedOnTerminalRun s e r
      | .format2 => s

/-- `turn.attributed` names the owner of a turn that started without one. -/
def projectTurnAttributed (s : State) (ownerRunId occurredAt now : String) : State :=
  { s with runs := s.runs.amend ownerRunId (fun r => isOpen r && (r.status == .accepted || r.status == .started))
             (RunPatch.apply { status := some .running, startedAt := some occurredAt, updatedAt := some now }) (patch_runId _) }

/-- `runs.update` of the runtime a preaccepted run goes to. -/
def bindRun (r row : HrcRunRecord) : HrcRunRecord :=
  { row with
    runtimeId := r.runtimeId, invocationId := r.invocationId, operationId := r.operationId, updatedAt := r.updatedAt }

theorem bindRun_runId (r row : HrcRunRecord) : (bindRun r row).runId = row.runId := rfl

def acceptRun (s : State) (r : HrcRunRecord) : State :=
  match s.runs.find r.runId with
  | none =>
    let accepted := { r with
      status := .accepted, startedAt := none, completedAt := none, errorCode := none, errorMessage := none }
    { s with runs := s.runs.add accepted }
  | some _ => { s with runs := s.runs.amend r.runId (·.status == .accepted) (bindRun r) (bindRun_runId r) }

def projectTurnTerminal (s : State) (runId : String) (type : EventType) (occurredAt now : String)
    (errorMessage : Option String) : State :=
  { s with runs := s.runs.amend runId isOpen
             (RunCompletion.apply { status := terminalStatus type, completedAt := occurredAt, updatedAt := now,
                                    errorMessage }) (completion_runId _) }

inductive SubmissionFailure where
  | rejected (reason : Option String)
  | failed (message : String)

def SubmissionFailure.completion (completedAt : String) : SubmissionFailure → RunCompletion
  | .rejected reason =>
    { status := .failed, completedAt, updatedAt := completedAt
      errorMessage := some (reason.getD "broker rejected submission") }
  | .failed message =>
    { status := .failed, completedAt, updatedAt := completedAt
      errorCode := some .runtimeUnavailable, errorMessage := some message }

def failSubmission (s : State) (runId : String) (failure : SubmissionFailure) (completedAt : String) : State :=
  { s with runs := s.runs.amend runId (fun _ => true) (failure.completion completedAt).apply (completion_runId _) }

def HRC_FIRST_TURN_MISSING_EVENT : HrcEventKind := .other "first_turn_missing"

def firstTurnDiagnosticsHint (tripEventSeq : Nat) : String := s!"hrc runtime diagnostics {tripEventSeq}"

def tripInput (watch : Watch) (trippedAt : String) : HrcLifecycleEventInput where
  ts := trippedAt
  hostSessionId := watch.hostSessionId
  scopeRef := watch.scopeRef
  laneRef := watch.laneRef
  generation := watch.generation
  runtimeId := some watch.runtimeId
  runId := watch.runId
  errorCode := some .firstTurnMissing
  payload := .object [("runtimeId", some (.str watch.runtimeId)), ("generation", some (.ofNat watch.generation)),
    ("scopeRef", some (.str watch.scopeRef)), ("hostSessionId", some (.str watch.hostSessionId)),
    ("runId", watch.runId.map .str), ("invocationId", watch.invocationId.map .str),
    ("primingDispatchedAt", watch.primingDispatchedAt.map .str),
    ("firstTurnDeadlineAt", watch.firstTurnDeadlineAt.map .str), ("trippedAt", some (.str trippedAt))]

def tripCompletion (watch : Watch) (trippedAt : String) (hrcSeq : Nat) : RunCompletion where
  status := .failed
  completedAt := trippedAt
  updatedAt := trippedAt
  errorCode := some .firstTurnMissing
  errorMessage := some s!"no turn.started for runtime {watch.runtimeId} generation {watch.generation} by {watch.firstTurnDeadlineAt.getD trippedAt}; diagnostics: {firstTurnDiagnosticsHint hrcSeq}"

/-- `recordTrip`: one transaction, rolled back where the row is no longer armed. -/
def recordTrip (s : State) (watch : Watch) (trippedAt : String) : State :=
  if s.watches.hits watch.key Watch.isUnsettled then
    { s with
      hrcEvents := s.hrcEvents ++ [⟨s.nextSeq, HRC_FIRST_TURN_MISSING_EVENT, tripInput watch trippedAt⟩]
      watches := s.watches.amend watch.key Watch.isUnsettled (.tripped trippedAt s.nextSeq) (Watch.tripped_key _ _)
      runs := match watch.runId with
        | none => s.runs
        | some runId => s.runs.amend runId isOpen (tripCompletion watch trippedAt s.nextSeq).apply (completion_runId _) }
  else s

def listArmedDue (s : State) (now : String) (limit : Nat) : List Watch :=
  (KeysetPaging.sortBy (fun a b => compare (a.firstTurnDeadlineAt.getD "") (b.firstTurnDeadlineAt.getD ""))
    (s.watches.rows.filter (Watch.isDue now))).take limit

inductive Action where
  | acceptRun (r : HrcRunRecord)
  | arm (input : ArmInput)
  | turnStarted (e : TurnStarted)
  | turnAttributed (ownerRunId occurredAt now : String)
  | turnTerminal (runId : String) (type : EventType) (occurredAt now : String) (errorMessage : Option String)
  | disarm (k : Generation) (reason occurredAt : String)
  | failSubmission (runId : String) (failure : SubmissionFailure) (completedAt : String)
  | evaluate (now : String) (limit : Nat)
  /-- A pass comes to its next row; the transaction may throw. -/
  | trip (pass : Nat) (trippedAt : String) (throws : Bool)
  /-- A daemon restart loses the passes under way. -/
  | restart
  /-- Any other event. -/
  | append (eventKind : HrcEventKind) (input : HrcLifecycleEventInput)

def isFirstTurnKind (k : HrcEventKind) : Bool :=
  k == HRC_FIRST_TURN_MISSING_EVENT || k == .firstTurnMissingLateStart

def takeNext (s : State) (pass : Nat) (trippedAt : String) (throws : Bool) : State :=
  match s.passes[pass]? with
  | some (watch :: due) =>
    let s := { s with passes := s.passes.set pass due }
    if throws then s else recordTrip s watch trippedAt
  | _ => s

variable [Timing]

def step : Action → State → State
  | .acceptRun r, s => acceptRun s r
  | .arm input, s => armFirstTurnWatch s input
  | .turnStarted e, s => projectTurnStarted s e
  | .turnAttributed ownerRunId occurredAt now, s => projectTurnAttributed s ownerRunId occurredAt now
  | .turnTerminal runId type occurredAt now errorMessage, s =>
    projectTurnTerminal s runId type occurredAt now errorMessage
  | .disarm k reason occurredAt, s => disarmFirstTurnWatch s k reason occurredAt
  | .failSubmission runId failure completedAt, s => failSubmission s runId failure completedAt
  | .evaluate now limit, s => { s with passes := s.passes ++ [listArmedDue s now limit] }
  | .trip pass trippedAt throws, s => takeNext s pass trippedAt throws
  | .restart, s => { s with passes := [] }
  | .append eventKind input, s =>
    if isFirstTurnKind eventKind then s
    else { s with hrcEvents := s.hrcEvents ++ [⟨s.nextSeq, eventKind, input⟩] }

end HrcRuntime.FirstTurnWatch
