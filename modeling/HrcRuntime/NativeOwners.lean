import HrcRuntime.RunResolution

namespace HrcRuntime.NativeOwners

open Json Records Database EventRepository Context

/-- The errors of the native daemon: a `bail!`, or a column read as text that holds something else. -/
inductive Failure where
  | bail (message : String)
  | invalidColumnType
  deriving DecidableEq

abbrev Result := Except Failure

def nativeOrigin : String := "legacy:invocation.input"

section Envelope

variable (envelope : InvocationEventEnvelope)

def turnId : Option String := envelope.turnId.or (envelope.payload.stringField "turnId")

def payloadInputId (payload : Json) : Option String := payload.stringField "inputId"

def payloadSubmissionId (payload : Json) : Option String := payload.stringField "submissionId"

def envelopeInputId : Option String := envelope.inputId.or (payloadInputId envelope.payload)

end Envelope

abbrev Coord := Ownership.TurnCoordinates

structure Stored where
  kind : EventType
  seq : Nat
  turnId : String
  harnessGeneration : Option Nat
  turnAttempt : Option Nat
  inputId : Option String
  submissionId : Option String
  ownership : Option String

def coord (envelope : InvocationEventEnvelope) : Option Coord :=
  (turnId envelope).map fun turnId =>
    { turnId, harnessGeneration := envelope.harnessGeneration, turnAttempt := envelope.turnAttempt }

def storedCoord (s : Stored) : Coord :=
  { turnId := s.turnId, harnessGeneration := s.harnessGeneration, turnAttempt := s.turnAttempt }

/-- `matches`. -/
def coordMatches (target evidence : Coord) : Bool :=
  target.turnId == evidence.turnId
    && (target.harnessGeneration.isNone || evidence.harnessGeneration == target.harnessGeneration)
    && (target.turnAttempt.isNone || evidence.turnAttempt == target.turnAttempt)

structure ListFilter where
  throughSeq : Option Nat := none
  runtimeId : Option String := none
  turnId : Option String := none
  hasTurnId : Bool := false
  limit : Option Nat := none

def ListFilter.keeps (f : ListFilter) (types : List EventType) (r : HrcBrokerInvocationEventRecord) : Bool :=
  types.contains r.type
    && (match f.throughSeq with
      | some seq => decide (r.seq ≤ seq)
      | none => true)
    && (match f.runtimeId with
      | some runtimeId => r.runtimeId == runtimeId
      | none => true)
    && (match f.turnId with
      | some turnId => effectiveTurnId r == some turnId
      | none => !f.hasTurnId || (effectiveTurnId r).isSome)

def rawInputId (row : HrcBrokerInvocationEventRecord) : Option String :=
  (row.brokerEnvelopeJson.bind (·.inputId)).or (payloadInputId row.brokerEventJson)

def readStored (row : HrcBrokerInvocationEventRecord) : Option Stored :=
  (effectiveTurnId row).map fun turnId =>
    { kind := row.type, seq := row.seq, turnId, harnessGeneration := row.harnessGeneration
      turnAttempt := row.turnAttempt, inputId := rawInputId row
      submissionId := payloadSubmissionId row.brokerEventJson
      ownership := row.brokerEventJson.stringField "ownership" }

def listStored (db : Db) (invocation : String) (types : List EventType) (f : ListFilter) : List Stored :=
  let rows := (listByInvocationId db invocation).filter (f.keeps types)
  let limited := match f.limit with
    | some limit => rows.take limit
    | none => rows
  limited.filterMap readStored

section Lookups

variable (db : Db)

def run (id : String) : Option HrcRunRecord := db.runs.find? fun r => r.runId == id

def runByDispatchedInput (id : String) : Option HrcRunRecord :=
  db.runs.find? fun r => r.dispatchedInputId == some id

def runBySubmission (id : String) : Option HrcRunRecord :=
  db.runs.find? fun r => r.brokerSubmissionId == some id

def runForInput (id : String) : Option HrcRunRecord :=
  match runByDispatchedInput db id with
  | some r => some r
  | none => runBySubmission db id

def runsForRuntime (runtime : String) : List HrcRunRecord :=
  db.runs.rows.filter fun r => r.runtimeId == some runtime

def correlatedRuns (invocation : String) : List HrcRunRecord :=
  db.runs.rows.filter fun r => r.invocationId == some invocation && r.correlationJson.isSome

end Lookups

def launchCarriedInvoke (r : HrcRunRecord) : Bool :=
  match r.correlationJson with
  | some json => json.member "kind" == some (.str "launch_carried_invoke_turn")
  | none => false

structure Epoch where
  inv : HrcBrokerInvocationRecord
  generation : Option Nat

def epoch (db : Db) (invocation : String) : Option Epoch :=
  match db.brokerInvocations.find? fun r => r.invocationId == invocation with
  | none => none
  | some inv =>
    match db.runtimeOperations.find? fun r => r.operationId == inv.operationId with
    | none => none
    | some op => if op.runtimeId != inv.runtimeId then none else some { inv, generation := some op.generation }

def Epoch.owns (e : Epoch) (r : HrcRunRecord) : Bool :=
  r.runtimeId == some e.inv.runtimeId && r.operationId == some e.inv.operationId && some r.generation == e.generation

def validCandidate (db : Db) (invocation runId : String) : Option String :=
  match epoch db invocation, run db runId with
  | some e, some r => if e.owns r && r.invocationId == some invocation then some r.runId else none
  | _, _ => none

/-- `add`: the candidates are a vector without repetitions. -/
def add (candidates : List String) (id : Option String) : List String :=
  match id with
  | some id => if candidates.contains id then candidates else candidates ++ [id]
  | none => candidates

def inputCandidate (db : Db) (invocation : String) (input : Option String) : Option String :=
  match input with
  | none => none
  | some input =>
    match runForInput db input with
    | some r => validCandidate db invocation r.runId
    | none => none

def submissionCandidate (db : Db) (invocation : String) (submission : Option String) : Option String :=
  match submission with
  | none => none
  | some submission =>
    match runBySubmission db submission with
    | some r => validCandidate db invocation r.runId
    | none => none

/-- What the loops of `exact_turn_owner` collect. -/
structure Gathered where
  candidates : List String := []
  foreign : Bool := false

def readEvidence (db : Db) (invocation : String) (g : Gathered) (ev : Stored) : Gathered :=
  match ev.kind with
  | .turnStarted => { g with candidates := add g.candidates (inputCandidate db invocation ev.inputId) }
  | .turnAttributed =>
    { candidates := if ev.ownership == some "own" then add g.candidates (inputCandidate db invocation ev.inputId)
        else g.candidates
      foreign := g.foreign || ev.ownership == some "foreign" }
  | .submissionExecuted =>
    { g with candidates := add g.candidates (submissionCandidate db invocation ev.submissionId) }
  | _ => g

def readEnvelope (db : Db) (envelope : InvocationEventEnvelope) (g : Gathered) : Gathered :=
  if envelope.type == .turnStarted || envelope.type == .turnAttributed then
    let ownership := envelope.payload.stringField "ownership"
    { candidates := if envelope.type == .turnStarted || ownership == some "own" then
          add g.candidates (inputCandidate db envelope.invocationId (envelopeInputId envelope))
        else g.candidates
      foreign := g.foreign || envelope.type == .turnAttributed && ownership == some "foreign" }
  else g

def readLaunch (db : Db) (invocation : String) (e : Epoch) (candidates : List String) (r : HrcRunRecord) :
    List String :=
  if e.owns r && launchCarriedInvoke r then add candidates (validCandidate db invocation r.runId) else candidates

def firstStored (db : Db) (envelope : InvocationEventEnvelope) (e : Epoch) : Option Stored :=
  (listStored db envelope.invocationId [.turnStarted]
    { throughSeq := some envelope.seq, runtimeId := some e.inv.runtimeId, hasTurnId := true, limit := some 1 }).head?

/-- `current_is_first || target_is_first`. -/
def launchApplies (envelope : InvocationEventEnvelope) (target : Coord) (first : Option Stored) : Bool :=
  (envelope.type == .turnStarted && (envelopeInputId envelope).isNone && first.isNone)
    || first.any fun f => f.inputId.isNone && coordMatches target (storedCoord f)

def turnEvidence (db : Db) (envelope : InvocationEventEnvelope) (target : Coord) (e : Epoch) : List Stored :=
  (listStored db envelope.invocationId [.turnStarted, .turnAttributed, .submissionExecuted]
    { throughSeq := some envelope.seq, runtimeId := some e.inv.runtimeId, turnId := some target.turnId }).filter
      fun ev => coordMatches target (storedCoord ev)

def gather (db : Db) (envelope : InvocationEventEnvelope) (target : Coord) (e : Epoch) : Gathered :=
  readEnvelope db envelope
    ((turnEvidence db envelope target e).foldl (readEvidence db envelope.invocationId) {})

def gatherLaunch (db : Db) (envelope : InvocationEventEnvelope) (target : Coord) (e : Epoch)
    (candidates : List String) : List String :=
  if launchApplies envelope target (firstStored db envelope e) then
    (correlatedRuns db envelope.invocationId).foldl (readLaunch db envelope.invocationId e) candidates
  else candidates

def exactTurnOwner (db : Db) (envelope : InvocationEventEnvelope) : Option String :=
  match coord envelope with
  | none => none
  | some target =>
    match epoch db envelope.invocationId with
    | none => none
    | some e =>
      let g := gather db envelope target e
      let candidates := gatherLaunch db envelope target e g.candidates
      if g.foreign || candidates.length != 1 then none else candidates.getLast?

def turnBrackets (db : Db) (envelope : InvocationEventEnvelope) : List Stored :=
  listStored db envelope.invocationId [.turnStarted, .turnCompleted, .turnFailed, .turnInterrupted]
    { throughSeq := some envelope.seq }

def closed (events : List Stored) (started : Stored) : Bool :=
  events.any fun t => decide (started.seq < t.seq) && t.kind != .turnStarted && storedCoord t == storedCoord started

def targetStarted (events : List Stored) (target : Coord) : Option Nat :=
  (events.find? fun e => e.kind == .turnStarted && storedCoord e == target).map (·.seq)

def otherOpenTurn (db : Db) (envelope : InvocationEventEnvelope) : Bool :=
  match coord envelope with
  | none => false
  | some target =>
    let events := turnBrackets db envelope
    events.any fun s => s.kind == .turnStarted && storedCoord s != target
      && !(targetStarted events target).any (fun t => decide (s.seq < t)) && !closed events s

/-- One turn of the loop of `superseded_runs`. -/
def readSuperseded (db : Db) (invocation : String) (events : List Stored) (targetSeq : Nat) (out : List String)
    (s : Stored) : List String :=
  if s.kind != .turnStarted || decide (targetSeq ≤ s.seq) || closed events s then out
  else match s.inputId with
    | none => out
    | some input =>
      match runForInput db input with
      | none => out
      | some r => if r.completedAt.isSome then out else add out (validCandidate db invocation r.runId)

def supersededRuns (db : Db) (envelope : InvocationEventEnvelope) : List String :=
  match coord envelope with
  | none => []
  | some target =>
    let events := turnBrackets db envelope
    match targetStarted events target with
    | none => []
    | some targetSeq => events.foldl (readSuperseded db envelope.invocationId events targetSeq) []

def nativeInput (db : Db) (invocation input : String) : Bool :=
  (listByInvocationId db invocation).any fun row =>
    row.type == .admissionRequested && jsonExtract row.brokerEventJson "submissionId" == some (.str input)
      && ((row.brokerEventJson.member "origin").bind fun origin => jsonExtract origin "principalRef")
        == some (.str nativeOrigin)

def launchRunOwningNative (db : Db) (fallback : Option String) : Option String :=
  match fallback with
  | none => none
  | some id =>
    ((run db id).filter fun r =>
      r.completedAt.isNone && r.dispatchedInputId.isNone && launchCarriedInvoke r).map (·.runId)

def bracketMintingMode (inv : HrcBrokerInvocationRecord) : Option String :=
  inv.capabilitiesJson.stringField "bracketMintingMode"

def turnStartedInput (db : Db) (envelope : InvocationEventEnvelope) (startedSeq : Nat) : Option String :=
  if envelope.type == .turnStarted && envelope.seq == startedSeq then envelopeInputId envelope
  else match db.brokerInvocationEvents.find? fun r =>
      r.invocationId == envelope.invocationId && r.seq == startedSeq with
    | none => none
    | some row =>
      match payloadInputId row.brokerEventJson with
      | some id => some id
      | none => row.brokerEnvelopeJson.bind (·.inputId)

/-- A column read as `Option<String>`. -/
def textColumn : Option Json → Result (Option String)
  | none => .ok none
  | some (.str s) => .ok (some s)
  | some _ => .error .invalidColumnType

def asColumnText : Json → Option String
  | .str s => some s
  | .num n => some (toString n)
  | _ => none

/-- The fenced run that dispatched the input of an `input.accepted` row. -/
def fencedRun (db : Db) (row : HrcBrokerInvocationEventRecord) : Option HrcRunRecord :=
  match (jsonExtract row.brokerEventJson "inputId").bind asColumnText with
  | none => none
  | some id => db.runs.find? fun r => r.dispatchedInputId == some id && r.brokerInputFencedAt.isSome

def acceptedRows (db : Db) (invocation : String) (seq : Nat) : List HrcBrokerInvocationEventRecord :=
  (listByInvocationId db invocation).filter fun row => row.type == .inputAccepted && decide (row.seq ≤ seq)

def priorInputAccepted (db : Db) (invocation : String) (seq : Nat) : Result (Option (String × Nat)) :=
  match ((acceptedRows db invocation seq).filter fun row => (fencedRun db row).isNone).getLast? with
  | none => .ok none
  | some row =>
    match textColumn (jsonExtract row.brokerEventJson "inputId") with
    | .error failure => .error failure
    | .ok id => .ok ((id.filter fun i => !i.isEmpty).map fun i => (i, row.seq))

def priorFencedInput (db : Db) (invocation : String) (seq : Nat) : Result (Option String) :=
  match ((acceptedRows db invocation seq).filter fun row => (fencedRun db row).isSome).getLast? with
  | none => .ok none
  | some row =>
    match textColumn (jsonExtract row.brokerEventJson "inputId") with
    | .error failure => .error failure
    | .ok id => .ok ((id.filter fun i => !i.isEmpty).bind fun _ =>
      ((fencedRun db row).map (·.runId)).filter fun r => !r.isEmpty)

def openTurnStartedSeq (db : Db) (envelope : InvocationEventEnvelope) : Option Nat :=
  if envelope.type == .turnStarted then some envelope.seq
  else
    let rows := listByInvocationId db envelope.invocationId
    ((rows.filter fun started =>
      started.type == .turnStarted && decide (started.seq ≤ envelope.seq)
        && !rows.any fun terminal => terminal.type.isTurnTerminal && decide (started.seq < terminal.seq)
          && decide (terminal.seq < envelope.seq)).getLast?).map (·.seq)

def priorTerminalSeq (db : Db) (invocation : String) (before : Nat) : Option Nat :=
  (((listByInvocationId db invocation).filter fun row =>
    row.type.isTurnTerminal && decide (row.seq < before)).getLast?).map (·.seq)

def otherActiveRun (db : Db) (runtime candidate : String) : Bool :=
  (runsForRuntime db runtime).any fun r => r.runId != candidate && r.status.isActive

def noBracketOwner (db : Db) (envelope : InvocationEventEnvelope) (prior : String × Nat)
    (inv : HrcBrokerInvocationRecord) (rt : HrcRuntimeSnapshot) : Option String :=
  match runForInput db prior.1 with
  | none => none
  | some candidate =>
    if candidate.runtimeId != some rt.runtimeId then none
    else if rt.activeRunId.or inv.runId != some candidate.runId then none
    else if (priorTerminalSeq db inv.invocationId envelope.seq).any fun t => decide (prior.2 ≤ t) then none
    else if runtimeHasAnyOpenAskBracket db rt then none
    else if otherActiveRun db rt.runtimeId candidate.runId then none
    else some candidate.runId

def ownNative (envelope : InvocationEventEnvelope) : Bool :=
  envelope.type == .admissionRequested
    && ((envelope.payload.member "origin").bind (·.member "principalRef")) == some (.str nativeOrigin)

def submissionAnswer (db : Db) (envelope : InvocationEventEnvelope) (inv : HrcBrokerInvocationRecord) :
    Option (Option String) :=
  if !envelope.type.isSubmissionRecord then none
  else match payloadSubmissionId envelope.payload with
    | none => none
    | some sub =>
      match runBySubmission db sub with
      | some r => some (some r.runId)
      | none =>
        if ownNative envelope || nativeInput db inv.invocationId sub then
          some (launchRunOwningNative db inv.runId)
        else none

def inputAnswer (db : Db) (inv : HrcBrokerInvocationRecord) (input : String) : Option (Option String) :=
  match runForInput db input with
  | some r => some (some r.runId)
  | none => if nativeInput db inv.invocationId input then some (launchRunOwningNative db inv.runId) else none

def foreignBracket (db : Db) (fallback : Option String) : Option String :=
  match fallback with
  | none => none
  | some id =>
    match run db id with
    | none => none
    | some r => if r.dispatchedInputId.isNone && launchCarriedInvoke r then some r.runId else none

def fencedAnswer (db : Db) (inv : HrcBrokerInvocationRecord) (seq : Nat) : Result (Option String) :=
  match priorFencedInput db inv.invocationId seq with
  | .error failure => .error failure
  | .ok (some r) => .ok (some r)
  | .ok none => .ok inv.runId

def bracketAnswer (db : Db) (envelope : InvocationEventEnvelope) (inv : HrcBrokerInvocationRecord) (started : Nat) :
    Result (Option String) :=
  if bracketMintingMode inv == some "harness-evidence" && (turnStartedInput db envelope started).isNone then
    .ok (foreignBracket db inv.runId)
  else match priorInputAccepted db inv.invocationId started with
    | .error failure => .error failure
    | .ok none => fencedAnswer db inv started
    | .ok (some (input, _)) =>
      match inputAnswer db inv input with
      | some answer => .ok answer
      | none => fencedAnswer db inv started

def unbracketedAnswer (db : Db) (envelope : InvocationEventEnvelope) (inv : HrcBrokerInvocationRecord)
    (rt : HrcRuntimeSnapshot) (retained : Bool) : Result (Option String) :=
  match priorInputAccepted db inv.invocationId envelope.seq with
  | .error failure => .error failure
  | .ok (some prior) => .ok (if retained then none else noBracketOwner db envelope prior inv rt)
  | .ok none => fencedAnswer db inv envelope.seq

def resolveRunId (db : Db) (envelope : InvocationEventEnvelope) (inv : HrcBrokerInvocationRecord)
    (rt : HrcRuntimeSnapshot) (retained : Bool) : Result (Option String) :=
  match submissionAnswer db envelope inv with
  | some answer => .ok answer
  | none =>
    if (turnId envelope).isSome && !envelope.type.isSubmissionRecord then .ok (exactTurnOwner db envelope)
    else match envelopeInputId envelope with
      | some input => .ok ((inputAnswer db inv input).getD inv.runId)
      | none =>
        match openTurnStartedSeq db envelope with
        | some started => bracketAnswer db envelope inv started
        | none => unbracketedAnswer db envelope inv rt retained

/-- The part of `project_in` that finds the run of an envelope. -/
def projectRunId (db : Db) (envelope : InvocationEventEnvelope) (retained : Bool) : Result (Option String) :=
  match db.brokerInvocations.find? fun r => r.invocationId == envelope.invocationId with
  | none => .error (.bail ("broker invocation not found for event: " ++ envelope.invocationId))
  | some inv =>
    match db.runtimes.find? fun r => r.runtimeId == inv.runtimeId with
    | none => .error (.bail ("runtime not found for broker invocation: " ++ inv.runtimeId))
    | some rt =>
      if inv.executionFormat == .format2 then
        .error (.bail ("format2 broker invocations are unsupported by rusthrc: " ++ envelope.invocationId))
      else resolveRunId db envelope inv rt retained

end HrcRuntime.NativeOwners
