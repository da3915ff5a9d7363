import HrcRuntime.Calls
import HrcRuntime.Controller
import HrcRuntime.CursorSoundness

namespace HrcRuntime.EventConsumer

open Records Database Program Mapper EventRepository Controller EventMapper ProjectEnvelope Calls
open CursorSoundness

/-- Which of SQLite's error texts mean that the database is busy, and that it is closed. -/
class SqliteErrors where
  busy : String → Bool
  closed : String → Bool

/-- What one attempt at an envelope meets: whether the server stops before it, the broker held, what
`afterMappedEvent` throws, and when an error is caught. -/
structure Attempt where
  shuttingDown : Bool := false
  active : Option ActiveBroker := none
  serverInstanceId : String := ""
  afterMappedEvent : Option HrcError := none
  stopping : Bool := false
  elapsedMs : Nat := 0

structure Teardown where
  shuttingDown : Bool := false
  intentionalCloseReason : Option String := none
  leasedPaneAlive : Bool := false

inductive LoopEnd where
  | returned | retrying
  | threw (error : HrcError)

inductive ConsumerEnd where
  | consuming | retrying | stopped | averted
  | closed (reason : String)
  | crashed (error : HrcError)

variable [Host]

def acknowledge (a : Attempt) (invocationId : String) : M Unit := fun s =>
  ((ackCommittedProjection s.db a.active a.serverInstanceId invocationId).2, s)

variable [SqliteErrors]

omit [Host] in
def isClosedDbError : HrcError → Bool
  | .fault message => SqliteErrors.closed message
  | _ => false

omit [Host] in
/-- The `catch` of `consumeEvents`. -/
def Teardown.handle (x : Teardown) (error : HrcError) : ConsumerEnd :=
  if x.shuttingDown || isClosedDbError error then .stopped
  else match x.intentionalCloseReason with
    | some reason => .closed reason
    | none => if x.leasedPaneAlive then .averted else .crashed error

omit [Host] in
def LoopEnd.ending (x : Teardown) : LoopEnd → ConsumerEnd
  | .returned => .consuming
  | .retrying => .retrying
  | .threw error => x.handle error

section Delta

variable {envelope : InvocationEventEnvelope} {s : BrokerEventMapper} {c : BrokerController} {x : Teardown} {a : Attempt}

variable {invocationId : String}

end Delta

section Semantic

variable {envelope : InvocationEventEnvelope} {s : BrokerEventMapper} {c start : BrokerController} {a : Attempt}
  {runtimeId : String}

variable {invocationId : String} {seq : Nat}

variable {invocation : HrcBrokerInvocationRecord}

end Semantic

section Consumer

variable {windowMs : Nat} {envelope : InvocationEventEnvelope} {runtimeId : String} {x : Teardown}

end Consumer

namespace Sample

@[reducible] def errors : SqliteErrors where
  busy message := message == "database is locked"
  closed message := message == "closed database"

def delta : InvocationEventEnvelope := sampleEvent 2 .assistantMessageDelta

end Sample

end HrcRuntime.EventConsumer
