import Mathlib.Logic.Function.Basic
import HrcRuntime.Keyed
import HrcRuntime.Records
import HrcRuntime.Schedule

namespace HrcRuntime.Format2Admission

open Keyed Records

abbrev DispatchId := Nat

/-- An `inputs` row of one host session; both writers store its whole placement. -/
structure Input where
  inputId : Nat
  idempotencyKey : String
  requestHash : String
  runtimeId : Nat
  operationId : Nat
  invocationId : Nat
  deriving DecidableEq

structure Runtime where
  runtimeId : Nat
  activeInvocationId : Option Nat := none
  activeOperationId : Option Nat := none
  executionFormat : Option ExecutionFormat := none
  unavailable : Bool := false

/-- A frozen preparation. The ids of its operation, runtime, invocation and initial input are drawn
together and share one number. -/
structure Preparation where
  id : Nat
  dispatchIdempotencyKey : String
  format2RequestHash : String
  prepared : Bool := true

/-- An `input.admitted` event. -/
structure InputAdmitted where
  inputId : Nat
  runtimeId : Nat
  invocationId : Nat
  afterSeq : Nat

structure Request where
  dispatchIdempotencyKey : String
  format2RequestHash : String
  establishedBrokerInvocationId : Option Nat := none

inductive Route where
  | warm | initialInput

structure Submission where
  idempotencyKey : String
  inputId : Nat
  route : Route

structure Receipt where
  idempotencyKey : String
  requestHash : String
  inputId : Nat
  runtimeId : Nat
  invocationId : Nat
  afterSeq : Nat
  deriving DecidableEq

inductive Stage where
  | absent
  | booting
  | preparing
  | launching (operationId : Nat)
  | accepted (input : Input)
  | submitting (input : Input)
  | submitted (input : Input)
  | answered
  | refused
  deriving DecidableEq

structure Dispatch where
  request : Request := { dispatchIdempotencyKey := "", format2RequestHash := "" }
  stage : Stage := .absent
  unsent : Option Input := none

/-- `inputs_admission_key`: one row per host session and idempotency key. -/
abbrev Inputs := Store Input (·.idempotencyKey)

structure State where
  inputs : Inputs := .empty
  brokerSubmissionIds : Nat → Option String := fun _ => none
  runtimes : List Runtime := []
  preparations : Store Preparation (·.id) := .empty
  inputAdmitted : List InputAdmitted := []
  maxBrokerSeq : Nat → Nat := fun _ => 0
  nextId : Nat := 0
  dispatches : DispatchId → Dispatch := fun _ => {}
  submissions : List Submission := []
  receipts : List Receipt := []
  refusals : List Nat := []

namespace State

variable (s : State) (d : DispatchId)

def put (x : Dispatch) : State := { s with dispatches := Function.update s.dispatches d x }

def setStage (stage : Stage) : State := s.put d { s.dispatches d with stage }

def findInputAdmissionAfterSeq (input : Input) : Option Nat :=
  match s.inputAdmitted.filter fun e => e.runtimeId == input.runtimeId && e.inputId == input.inputId
      && e.invocationId == input.invocationId with
  | [e] => some e.afterSeq
  | _ => none

def getByRuntimeId (runtimeId : Nat) : Option Runtime := s.runtimes.find? fun r => r.runtimeId == runtimeId

def existingRuntime : Option Runtime :=
  (s.runtimes.filter fun r => r.activeInvocationId.isSome && !r.unavailable).getLast?

def findPreparedAttempt (key : String) : Option Preparation :=
  (s.preparations.rows.filter fun p => p.prepared && p.dispatchIdempotencyKey == key).getLast?

/-- `format2Receipt`: an input without its fence has none. -/
def format2Receipt (input : Input) : State :=
  match s.findInputAdmissionAfterSeq input with
  | none => s.setStage d .refused
  | some afterSeq =>
    let request := (s.dispatches d).request
    { s.setStage d .answered with
      receipts := s.receipts ++ [{ idempotencyKey := request.dispatchIdempotencyKey
                                   requestHash := request.format2RequestHash, inputId := input.inputId
                                   runtimeId := input.runtimeId, invocationId := input.invocationId, afterSeq }] }

def reserve (input : Input) : State :=
  { s with
    inputs := s.inputs.add input
    inputAdmitted := s.inputAdmitted ++ [{ inputId := input.inputId, runtimeId := input.runtimeId
                                           invocationId := input.invocationId
                                           afterSeq := s.maxBrokerSeq input.invocationId }] }

def reserveWarmFormat2Input (runtime : Runtime) : State :=
  let request := (s.dispatches d).request
  match runtime.activeInvocationId, runtime.activeOperationId with
  | some invocationId, some operationId =>
    let input : Input :=
      { inputId := s.nextId, idempotencyKey := request.dispatchIdempotencyKey
        requestHash := request.format2RequestHash, runtimeId := runtime.runtimeId, operationId, invocationId }
    let reserved := s.reserve input
    { reserved.put d { s.dispatches d with stage := .submitting input, unsent := some input } with
      nextId := s.nextId + 1 }
  | _, _ => s.setStage d .refused

def replay (existing : Input) : State :=
  let request := (s.dispatches d).request
  if existing.requestHash ≠ request.format2RequestHash then s.setStage d .refused
  else if (s.getByRuntimeId existing.runtimeId).isNone then s.setStage d .refused
  else if request.establishedBrokerInvocationId.any (· != existing.invocationId) then s.setStage d .refused
  else s.format2Receipt d existing

def joinRuntime (runtime : Runtime) : State :=
  let request := (s.dispatches d).request
  if request.establishedBrokerInvocationId.any (some · != runtime.activeInvocationId) then s.setStage d .refused
  else if runtime.executionFormat ≠ some .format2 then s.setStage d .refused
  else s.reserveWarmFormat2Input d runtime

def startCold : State :=
  if (s.dispatches d).request.establishedBrokerInvocationId.isSome then s.setStage d .refused else s.setStage d .booting

/-- `executeHeadlessBrokerFormat2DispatchTurn`, up to its first await. -/
def executeFormat2DispatchTurn : State :=
  match s.inputs.find (s.dispatches d).request.dispatchIdempotencyKey with
  | some existing => s.replay d existing
  | none =>
    match s.existingRuntime with
    | some runtime => s.joinRuntime d runtime
    | none => s.startCold d

/-- `startAspdHeadlessBrokerRuntime` resumes a never-submitted preparation of the key, or prepares anew. -/
def resume : State :=
  match s.findPreparedAttempt (s.dispatches d).request.dispatchIdempotencyKey with
  | some p => s.setStage d (.launching p.id)
  | none => s.setStage d .preparing

/-- `prepareAspdHeadlessAttempt` freezes a fresh attempt. -/
def prepare : State :=
  let request := (s.dispatches d).request
  { s.setStage d (.launching s.nextId) with
    preparations := s.preparations.add
      { id := s.nextId, dispatchIdempotencyKey := request.dispatchIdempotencyKey
        format2RequestHash := request.format2RequestHash }
    nextId := s.nextId + 1 }

/-- The boot writes the start graph of a preparation, and then accepts. An operation that was
launched already, or a key that has a row, rolls the transaction back. -/
def persistStartGraph (p : Preparation) : State :=
  let key := (s.dispatches d).request.dispatchIdempotencyKey
  let input : Input :=
    { inputId := p.id, idempotencyKey := key, requestHash := p.format2RequestHash, runtimeId := p.id
      operationId := p.id, invocationId := p.id }
  if p.prepared && (s.inputs.find key).isNone then
    let reserved := s.reserve input
    let launched : State := { reserved with
      preparations := s.preparations.amend p.id (fun _ => true) (fun p => { p with prepared := false }) fun _ => rfl
      runtimes := s.runtimes ++ [{ runtimeId := p.id, activeInvocationId := some p.id, activeOperationId := some p.id
                                   executionFormat := some .format2 }] }
    launched.put d { s.dispatches d with stage := .accepted input, unsent := some input }
  else s.setStage d .refused

def submit (input : Input) (route : Route) : State :=
  { s.put d { s.dispatches d with unsent := none } with
    submissions := s.submissions ++ [{ idempotencyKey := input.idempotencyKey, inputId := input.inputId, route }] }

def bindBrokerSubmissionId (input : Input) (submissionId : String) : State :=
  match s.brokerSubmissionIds input.inputId with
  | some _ => s
  | none => { s with brokerSubmissionIds := Function.update s.brokerSubmissionIds input.inputId (some submissionId) }

end State

inductive Reply where
  | ok (submissionId : String)
  | refused
  | doubtful
  | threw
  deriving DecidableEq

inductive Action where
  | arrive (d : DispatchId) (request : Request)
  | resume (d : DispatchId)
  | prepare (d : DispatchId)
  | persistStartGraph (d : DispatchId)
  | bootFails (d : DispatchId)
  | startInvocation (d : DispatchId)
  | accepted (d : DispatchId)
  | submit (d : DispatchId)
  | neverSubmitted (d : DispatchId) (reply : Reply)
  | reply (d : DispatchId) (reply : Reply)
  | runtimeChanged (runtimes : List Runtime)
  | brokerEvent (invocationId : Nat)

def State.answerWarm (s : State) (d : DispatchId) (input : Input) (reply : Reply) : State :=
  match reply with
  | .ok submissionId => (s.bindBrokerSubmissionId input submissionId).format2Receipt d input
  | .refused => { s with refusals := s.refusals ++ [input.inputId] }.format2Receipt d input
  | .doubtful | .threw => s.format2Receipt d input

def step (a : Action) (s : State) : State :=
  match a with
  | .arrive d request =>
    if (s.dispatches d).stage = .absent then (s.put d { request }).executeFormat2DispatchTurn d else s
  | .resume d => if (s.dispatches d).stage = .booting then s.resume d else s
  | .prepare d => if (s.dispatches d).stage = .preparing then s.prepare d else s
  | .persistStartGraph d =>
    match (s.dispatches d).stage with
    | .launching operationId =>
      match s.preparations.find operationId with
      | some p => s.persistStartGraph d p
      | none => s.setStage d .refused
    | _ => s
  | .bootFails d =>
    match (s.dispatches d).stage with
    | .booting | .preparing | .launching _ => s.setStage d .refused
    | .accepted _ | .answered => s.put d { s.dispatches d with unsent := none }
    | _ => s
  | .startInvocation d =>
    match (s.dispatches d).stage, (s.dispatches d).unsent with
    | .accepted _, some input => s.submit d input .initialInput
    | .answered, some input => s.submit d input .initialInput
    | _, _ => s
  | .accepted d =>
    match (s.dispatches d).stage with
    | .accepted input => s.format2Receipt d input
    | _ => s
  | .submit d =>
    match (s.dispatches d).stage, (s.dispatches d).unsent with
    | .submitting input, some unsent => (s.submit d unsent .warm).setStage d (.submitted input)
    | _, _ => s
  | .neverSubmitted d reply =>
    match (s.dispatches d).stage with
    | .submitting input => (s.put d { s.dispatches d with unsent := none }).answerWarm d input reply
    | _ => s
  | .reply d reply =>
    match (s.dispatches d).stage with
    | .submitted input => s.answerWarm d input reply
    | _ => s
  | .runtimeChanged runtimes => { s with runtimes }
  | .brokerEvent invocationId =>
    { s with maxBrokerSeq := Function.update s.maxBrokerSeq invocationId (s.maxBrokerSeq invocationId + 1) }

def initial : State := {}

end HrcRuntime.Format2Admission
