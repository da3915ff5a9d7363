import HrcRuntime.Json
import HrcRuntime.Schedule
import HrcRuntime.Text

namespace HrcRuntime.TurnAdmissionGate

open Json Text

structure DurableRecord where
  operationId : String
  requestedBy : Option String := none
  requestedRunId : Option String := none
  reason : Option String := none
  closedAt : String
  deriving DecidableEq

def DurableRecord.json (r : DurableRecord) : Json :=
  .object [("schemaVersion", some (.str "hrc.turn-admission/v1")), ("state", some (.str "closed")),
    ("operationId", some (.str r.operationId)), ("requestedBy", some (.ofOption r.requestedBy)),
    ("requestedRunId", some (.ofOption r.requestedRunId)), ("reason", r.reason.map .str),
    ("closedAt", some (.str r.closedAt))]

/-- `v !== null && typeof v !== 'string'` is refused; the rest is the string or null. -/
def nullableString : Option Json → Option (Option String)
  | some .null => some none
  | some (.str s) => some (some s)
  | _ => none

/-- `reason`: absent or a string. -/
def optionalString : Option Json → Option (Option String)
  | none => some none
  | some (.str s) => some (some s)
  | _ => none

/-- `parseDurableRecord` of a text whose parse is `parsed`. -/
def parseDurableRecord (parsed : Option Json) : Option DurableRecord := do
  let parsed ← parsed
  if !parsed.isRecord || parsed.stringField "schemaVersion" != some "hrc.turn-admission/v1" ||
      parsed.stringField "state" != some "closed" then none
  let operationId ← parsed.stringField "operationId"
  if !isNotBlank operationId then none
  let requestedBy ← nullableString (parsed.member "requestedBy")
  let requestedRunId ← nullableString (parsed.member "requestedRunId")
  let closedAt ← parsed.stringField "closedAt"
  let reason ← optionalString (parsed.member "reason")
  return { operationId, requestedBy, requestedRunId, reason, closedAt }

/-- The file at the marker's path: its parse (`none` where `JSON.parse` throws), or one that cannot be read. -/
inductive MarkerFile where
  | text (parsed : Option Json)
  | unreadable

def loadDurableRecord (marker : Option MarkerFile) (now : String) : Option DurableRecord :=
  marker.map fun
    | .text parsed => (parseDurableRecord parsed).getD
        { operationId := "recovered-corrupt-marker"
          reason := some "turn admission marker was malformed; startup must recover closed"
          closedAt := now }
    | .unreadable =>
      { operationId := "recovered-unreadable-marker"
        reason := some "turn admission marker was unreadable; startup must recover closed"
        closedAt := now }

theorem loadDurableRecord_isSome (marker : Option MarkerFile) (now : String) :
    (loadDurableRecord marker now).isSome = marker.isSome := Option.isSome_map

structure CloseRequest where
  operationId : String
  requestedBy : Option String := none
  requestedRunId : Option String := none
  reason : Option String := none

inductive AdmissionState where
  | opened (activeAdmissions : Nat)
  | closed (activeAdmissions : Nat) (record : DurableRecord) (durable : Bool)

inductive GateError where
  | serverDraining (operationId : String) (requestedBy : Option String) (closedAt : String)
  | malformedRequest
  | closedByAnother (requestedOperationId activeOperationId : String)
  | reopenNotOwner (requestedOperationId activeOperationId : String)
  | io

def GateError.message : GateError → String
  | .serverDraining _ _ _ => "server turn admission is closed for a drained restart"
  | .malformedRequest => "turn admission operationId must be non-empty"
  | .closedByAnother _ _ => "turn admission is already closed by another operation"
  | .reopenNotOwner _ _ => "turn admission reopen does not own the active operation"
  | .io => ""

structure Fence where
  ref : Nat
  record : DurableRecord
  deriving DecidableEq

structure Gate where
  closed : Option Fence
  activeAdmissions : Nat
  idleWaiters : List Nat

namespace Gate

def snapshot (g : Gate) (marker : Option MarkerFile) : AdmissionState :=
  match g.closed with
  | none => .opened g.activeAdmissions
  | some fence => .closed g.activeAdmissions fence.record marker.isSome

def admitTurn (g : Gate) (existingAcceptedRun : Bool) : Except GateError Gate :=
  match g.closed, existingAcceptedRun with
  | some fence, false =>
    .error (.serverDraining fence.record.operationId fence.record.requestedBy fence.record.closedAt)
  | _, _ => .ok { g with activeAdmissions := g.activeAdmissions + 1 }

def release (g : Gate) : Gate :=
  { g with
    activeAdmissions := g.activeAdmissions - 1
    idleWaiters := if g.activeAdmissions - 1 = 0 then [] else g.idleWaiters }

def waitUntilIdle (g : Gate) (call : Nat) : Gate :=
  if g.activeAdmissions = 0 then g else { g with idleWaiters := g.idleWaiters ++ [call] }

end Gate

/-- Where a call of `close` or `reopen` stands: at which of its awaits, or ended. -/
inductive Call where
  | persisting (fence : Fence)
  | persisted (fence : Fence) (ok : Bool)
  | waiting (operationId : String)
  | unlinking (fence : Fence) (operationId : Option String)
  | unlinked (fence : Fence) (operationId : Option String) (ok : Bool)
  | ended (result : Except GateError AdmissionState)

def Call.inFlight : Call → Bool
  | .ended _ => false
  | _ => true

/-- The gate, the marker file, the calls made so far, the release functions handed out (each with whether it
has been called), and two histories: the operations a close has answered closed to with no reopen for them
started since, and for each fence a reopen opened the operation the reopen named and the one it opened. -/
structure State where
  gate : Gate
  marker : Option MarkerFile
  calls : List Call
  released : List Bool
  nextRef : Nat
  answeredClosed : List String
  reopened : List (Option String × String)

def State.start (marker : Option MarkerFile) (now : String) : State where
  gate := ⟨(loadDurableRecord marker now).map (⟨0, ·⟩), 0, []⟩
  marker := marker
  calls := []
  released := []
  nextRef := 1
  answeredClosed := []
  reopened := []

inductive Action where
  | admitTurn (existingAcceptedRun : Bool)
  | release (admission : Nat)
  | close (request : CloseRequest) (now : String)
  | reopen (operationId : Option String)
  | write (call : Nat) (ok : Bool)
  | unlink (call : Nat) (ok : Bool)
  | resume (call : Nat)

namespace State

def begin (s : State) (call : Call) : State := { s with calls := s.calls ++ [call] }

def setCall (s : State) (i : Nat) (call : Call) : State := { s with calls := s.calls.set i call }

/-- `close` up to its first await. -/
def close (s : State) (request : CloseRequest) (now : String) : State :=
  let operationId := trim request.operationId
  if operationId.isEmpty then s.begin (.ended (.error .malformedRequest))
  else match s.gate.closed with
    | some fence =>
      if fence.record.operationId ≠ operationId then
        s.begin (.ended (.error (.closedByAnother operationId fence.record.operationId)))
      else
        { s.begin (.waiting operationId) with gate := s.gate.waitUntilIdle s.calls.length }
    | none =>
      let record := { operationId, requestedBy := request.requestedBy, requestedRunId := request.requestedRunId,
                      reason := request.reason, closedAt := now }
      { s.begin (.persisting ⟨s.nextRef, record⟩) with
        gate := { s.gate with closed := some ⟨s.nextRef, record⟩ }
        nextRef := s.nextRef + 1 }

def forgetAnswered (operationId : Option String) (answered : List String) : List String :=
  match operationId with
  | some operationId => answered.filter (· ≠ operationId)
  | none => []

/-- `reopen` up to its first await. -/
def reopen (s : State) (operationId : Option String) : State :=
  let s := { s with answeredClosed := forgetAnswered operationId s.answeredClosed }
  match s.gate.closed with
  | none => s.begin (.ended (.ok (s.gate.snapshot s.marker)))
  | some fence =>
    match operationId.filter (· ≠ fence.record.operationId) with
    | some other => s.begin (.ended (.error (.reopenNotOwner other fence.record.operationId)))
    | none => s.begin (.unlinking fence operationId)

/-- The rename of `persistDurableRecord` takes effect, or a step before it fails. -/
def write (s : State) (i : Nat) (ok : Bool) : State :=
  match s.calls[i]? with
  | some (.persisting fence) =>
    let s := s.setCall i (.persisted fence ok)
    if ok then { s with marker := some (.text (some fence.record.json)) } else s
  | _ => s

/-- The unlink of `removeDurableRecord` takes effect (a missing file counts), or fails. -/
def unlink (s : State) (i : Nat) (ok : Bool) : State :=
  match s.calls[i]? with
  | some (.unlinking fence operationId) =>
    let s := s.setCall i (.unlinked fence operationId ok)
    if ok then { s with marker := none } else s
  | _ => s

def resume (s : State) (i : Nat) : State :=
  match s.calls[i]? with
  | some (.persisted _ false) =>
    { s.setCall i (.ended (.error .io)) with gate := { s.gate with closed := none } }
  | some (.persisted fence true) =>
    { s.setCall i (.waiting fence.record.operationId) with gate := s.gate.waitUntilIdle i }
  | some (.waiting operationId) =>
    if i ∈ s.gate.idleWaiters then s
    else
      { s.setCall i (.ended (.ok (s.gate.snapshot s.marker))) with
        answeredClosed := if s.gate.closed.isSome then s.answeredClosed ++ [operationId] else s.answeredClosed }
  | some (.unlinked _ _ false) => s.setCall i (.ended (.error .io))
  | some (.unlinked _ operationId true) =>
    let gate := { s.gate with closed := none }
    { s.setCall i (.ended (.ok (gate.snapshot s.marker))) with
      gate := gate
      reopened := match s.gate.closed with
        | some fence => s.reopened ++ [(operationId, fence.record.operationId)]
        | none => s.reopened }
  | _ => s

def step : Action → State → State
  | .admitTurn existingAcceptedRun, s =>
    match s.gate.admitTurn existingAcceptedRun with
    | .ok gate => { s with gate, released := s.released ++ [false] }
    | .error _ => s
  | .release admission, s =>
    match s.released[admission]? with
    | some false => { s with gate := s.gate.release, released := s.released.set admission true }
    | _ => s
  | .close request now, s => s.close request now
  | .reopen operationId, s => s.reopen operationId
  | .write i ok, s => s.write i ok
  | .unlink i ok, s => s.unlink i ok
  | .resume i, s => s.resume i

end State

end HrcRuntime.TurnAdmissionGate
