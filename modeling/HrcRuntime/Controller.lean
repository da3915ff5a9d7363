import HrcRuntime.EventRepository

namespace HrcRuntime.Controller

open Records Database EventRepository

def lastProjectedBrokerSeq (db : Db) (invocationId : String) : Nat :=
  ((getByInvocationId db invocationId).map (·.lastProjectedSeq)).getD 0

structure AckRequest where
  invocationId : String
  throughSeq : Nat
  controllerInstanceId : String

structure ActiveBroker where
  invocationId : String
  isDurable : Bool
  ackEvents : AckRequest → Except HrcError Nat

def ackIncomplete : HrcError :=
  .error "broker acknowledgement did not reach HRC committed projection cursor"

/-- `ackCommittedProjection`: the request it sends, if any, and its outcome. -/
def ackCommittedProjection (db : Db) (active : Option ActiveBroker) (serverInstanceId invocationId : String) :
    Option AckRequest × Except HrcError Unit :=
  match active.filter fun active => active.invocationId == invocationId && active.isDurable with
  | none => (none, .ok ())
  | some active =>
    let committedThroughSeq := lastProjectedBrokerSeq db invocationId
    if committedThroughSeq = 0 then (none, .ok ())
    else
      let request : AckRequest :=
        { invocationId, throughSeq := committedThroughSeq, controllerInstanceId := serverInstanceId }
      (some request, active.ackEvents request >>= fun ackedThroughSeq =>
        if ackedThroughSeq < committedThroughSeq then .error ackIncomplete else .ok ())

theorem ackCommittedProjection_request {db : Db} {active : Option ActiveBroker}
    {serverInstanceId invocationId : String} {request : AckRequest}
    (h : (ackCommittedProjection db active serverInstanceId invocationId).1 = some request) :
    request.invocationId = invocationId ∧ request.throughSeq = lastProjectedBrokerSeq db invocationId := by
  unfold ackCommittedProjection at h
  split at h
  · cases h
  · dsimp only at h
    split at h
    · cases h
    · cases h
      exact ⟨rfl, rfl⟩

end HrcRuntime.Controller
