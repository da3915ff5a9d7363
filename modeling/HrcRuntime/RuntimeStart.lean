import Mathlib.Logic.Function.Basic
import HrcRuntime.Records
import HrcRuntime.Schedule

namespace HrcRuntime.RuntimeStart

open Records

abbrev DispatchId := Nat

/-- A promise a dispatch can wait for: the boot a dispatch started, the ownership one took for a
durable reattach, or the first turn a born runtime was launched with. -/
inductive Operation where
  | boot (d : DispatchId)
  | ownership (d : DispatchId)
  | firstTurn (d : DispatchId)
  deriving DecidableEq

inductive Outcome where
  | born (transport : Transport)
  | failed
  deriving DecidableEq

inductive Door where
  | headless | interactive | format2
  deriving DecidableEq

structure Request where
  door : Door
  joinInFlightRuntimeStart : Bool := false
  invokeDoor : Bool := false

inductive Fence where
  | admittedTurn | interactiveDispatch | headlessDispatch
  deriving DecidableEq

inductive Stage where
  | absent
  | admitting
  | preparing
  | joining (fence : Fence) (operation : Operation)
  | reattaching
  | starting
  | delivering
  | answered
  | failed
  deriving DecidableEq

/-- A call of `startHeadlessBrokerRuntime` or `startInteractiveTmuxBrokerRuntime`. -/
structure Birth where
  outcome : Option Outcome := none
  released : Bool := false
  firstTurnEnded : Bool := false

structure Dispatch where
  request : Request
  stage : Stage := .absent
  birth : Option Birth := none
  owner : Bool := false
  ownershipOutcome : Option Outcome := none

def Dispatch.inFlight (x : Dispatch) : Bool := x.birth.any (·.outcome.isNone)

def Dispatch.outcome (x : Dispatch) : Option Outcome := x.birth.bind (·.outcome)

def Dispatch.operation (x : Dispatch) (d : DispatchId) : Operation := if x.owner then .ownership d else .boot d

structure State where
  runtimeStartOperation : Option Operation := none
  invokeFirstTurnRendezvous : Option DispatchId := none
  dispatches : DispatchId → Dispatch := fun _ => { request := { door := .headless } }

inductive Decision where
  | refuse | reuse | start | reattach

namespace State

variable (s : State) (d : DispatchId)

def settled : Operation → Option Outcome
  | .boot d => (s.dispatches d).outcome
  | .ownership d => (s.dispatches d).ownershipOutcome
  | .firstTurn d =>
    match (s.dispatches d).birth with
    | none => none
    | some birth => birth.outcome.filter fun outcome => outcome == .failed || birth.firstTurnEnded

def put (x : Dispatch) : State := { s with dispatches := Function.update s.dispatches d x }

def setStage (stage : Stage) : State := s.put d { s.dispatches d with stage }

/-- `if (map.get(hostSessionId) === operation) map.delete(hostSessionId)`. -/
def forget (operation : Operation) : State :=
  if s.runtimeStartOperation = some operation then { s with runtimeStartOperation := none } else s

def settleOwnership (outcome : Outcome) : State :=
  s.put d { s.dispatches d with ownershipOutcome := (s.dispatches d).ownershipOutcome.or (some outcome) }

def inFlightStart (request : Request) : Option Operation :=
  ((if request.invokeDoor then s.invokeFirstTurnRendezvous else none).map Operation.firstTurn).or
    s.runtimeStartOperation

def startRuntime : State :=
  { s.put d { s.dispatches d with stage := .starting, birth := some {} } with
    runtimeStartOperation := some (.boot d) }

def startOwnedRuntime : State := s.put d { s.dispatches d with stage := .starting, birth := some {} }

/-- `createRuntimeStartOwnership`, published before the first await of the reattach. -/
def claimOwnership : State :=
  { s.put d { s.dispatches d with stage := .reattaching, owner := true } with
    runtimeStartOperation := some (.ownership d) }

/-- The `catch` of the durable branch. -/
def rejectOwnership : State := ((s.settleOwnership d .failed).setStage d .failed).forget (.ownership d)

def handleInteractiveTmuxBrokerDispatchTurn : State :=
  let request := (s.dispatches d).request
  match if request.joinInFlightRuntimeStart then s.inFlightStart request else none with
  | some operation => s.setStage d (.joining .interactiveDispatch operation)
  | none =>
    let started := s.startRuntime d
    if request.invokeDoor then { started with invokeFirstTurnRendezvous := some d } else started

/-- `executeAdmittedTurn` after its join: the admission of an interactive dispatch. -/
def admitInteractive (decision : Decision) : State :=
  match decision with
  | .refuse => s.setStage d .failed
  | .start => s.handleInteractiveTmuxBrokerDispatchTurn d
  | _ => s.setStage d .delivering

/-- `executeHeadlessBrokerFormat2DispatchTurn`: a replay or a live runtime is reused, a cold scope
starts. -/
def executeFormat2 (decision : Decision) : State :=
  match decision with
  | .refuse => s.setStage d .failed
  | .start => s.startRuntime d
  | _ => s.setStage d .delivering

/-- `executeAdmittedTurn`, from its last await before the door. -/
def executeAdmittedTurn (decision : Decision) : State :=
  match (s.dispatches d).request.door with
  | .format2 => s.executeFormat2 d decision
  | .headless => s.setStage d .preparing
  | .interactive =>
    match s.inFlightStart (s.dispatches d).request with
    | some operation => s.setStage d (.joining .admittedTurn operation)
    | none => s.admitInteractive d decision

/-- `handleHeadlessBrokerDispatchTurn` after the actuator preparation. -/
def handleHeadlessBrokerDispatchTurn (decision : Decision) : State :=
  match s.runtimeStartOperation with
  | some operation => s.setStage d (.joining .headlessDispatch operation)
  | none =>
    match decision with
    | .refuse => s.setStage d .failed
    | .reuse => s.setStage d .delivering
    | .start => s.startRuntime d
    | .reattach => s.claimOwnership d

/-- A dispatch resumes after the promise it waited for. Only the join of an admitted turn goes on to
its own admission, and only past a runtime that is no tmux seat. -/
def resume (fence : Fence) (outcome : Outcome) (decision : Decision) : State :=
  match outcome, fence with
  | .failed, _ => s.setStage d .failed
  | .born .tmux, _ => s.setStage d .delivering
  | .born _, .admittedTurn => s.admitInteractive d decision
  | .born _, _ => s.setStage d .delivering

def reattached (recovered : Option Transport) : State :=
  match recovered with
  | some transport =>
    ((s.settleOwnership d (.born transport)).setStage d .delivering).forget (.ownership d)
  | none => s.startOwnedRuntime d

def fail : State :=
  match (s.dispatches d).stage with
  | .absent | .answered | .failed => s
  | .reattaching => s.rejectOwnership d
  | .starting => if (s.dispatches d).owner then s.rejectOwnership d else s.setStage d .failed
  | _ => s.setStage d .failed

def settle (outcome : Outcome) : State :=
  match (s.dispatches d).birth with
  | some birth =>
    if birth.outcome.isNone then
      s.put d { s.dispatches d with birth := some { birth with outcome := some outcome } }
    else s
  | none => s

/-- The `finally` of a boot. -/
def release : State :=
  match (s.dispatches d).birth with
  | some birth =>
    if birth.outcome.isSome then
      (s.put d { s.dispatches d with birth := some { birth with released := true } }).forget
        ((s.dispatches d).operation d)
    else s
  | none => s

def endFirstTurn : State :=
  match (s.dispatches d).birth with
  | some birth => s.put d { s.dispatches d with birth := some { birth with firstTurnEnded := true } }
  | none => s

end State

inductive Action where
  | arrive (d : DispatchId) (request : Request)
  | admitted (d : DispatchId) (decision : Decision)
  | prepared (d : DispatchId) (decision : Decision)
  | resume (d : DispatchId) (decision : Decision)
  | reattached (d : DispatchId) (recovered : Option Transport)
  | fail (d : DispatchId)
  | answer (d : DispatchId)
  | settle (d : DispatchId) (outcome : Outcome)
  | release (d : DispatchId)
  | settleOwnership (d : DispatchId)
  | endFirstTurn (d : DispatchId)
  | dropRendezvous

def step (a : Action) (s : State) : State :=
  match a with
  | .arrive d request =>
    if (s.dispatches d).stage = .absent then s.put d { request, stage := .admitting } else s
  | .admitted d decision =>
    if (s.dispatches d).stage = .admitting then s.executeAdmittedTurn d decision else s
  | .prepared d decision =>
    if (s.dispatches d).stage = .preparing then s.handleHeadlessBrokerDispatchTurn d decision else s
  | .resume d decision =>
    match (s.dispatches d).stage with
    | .joining fence operation =>
      match s.settled operation with
      | some outcome => s.resume d fence outcome decision
      | none => s
    | _ => s
  | .reattached d recovered => if (s.dispatches d).stage = .reattaching then s.reattached d recovered else s
  | .fail d => s.fail d
  | .answer d =>
    if (s.dispatches d).stage = .starting ∨ (s.dispatches d).stage = .delivering then s.setStage d .answered else s
  | .settle d outcome => s.settle d outcome
  | .release d => s.release d
  | .settleOwnership d =>
    match (s.dispatches d).owner, (s.dispatches d).outcome with
    | true, some outcome => s.settleOwnership d outcome
    | _, _ => s
  | .endFirstTurn d => s.endFirstTurn d
  | .dropRendezvous =>
    match s.invokeFirstTurnRendezvous with
    | some d => if (s.settled (.firstTurn d)).isSome then { s with invokeFirstTurnRendezvous := none } else s
    | none => s

def initial : State := {}

end HrcRuntime.RuntimeStart
