import HrcRuntime.Relational
import HrcRuntime.Schedule

namespace HrcRuntime.FollowFanOut

open Relational

structure LifecycleRow where
  hrcSeq : Nat
  streamSeq : Nat
  body : String
  deriving DecidableEq

/-- `hrc_events` as the connection sees it, with the sequences it allocates next; a rollback restores all of it. -/
structure Ledger where
  rows : List LifecycleRow
  nextHrcSeq : Nat
  nextStreamSeq : Nat

/-- Where a call in progress stands: a transaction with the ledger it began on, the flush loop with the rows it has
yet to announce, `deliver` called by the hub or by `notifyEvent` and not past its flush, the subscriber loop with
the subscribers it has yet to call, and a subscriber's own code. -/
inductive Frame where
  | tx (saved : Ledger)
  | flush (held : List LifecycleRow)
  | announcing (event : LifecycleRow)
  | notifying (event : LifecycleRow)
  | fanOut (event : LifecycleRow) (remaining : List Nat)
  | call (subscriber : Nat)

/-- The ledger, the hub, the fan-out, the calls in progress (innermost first), and two histories: the rows claimed
for delivery and the deliveries made. -/
structure State where
  ledger : Ledger
  pending : List LifecycleRow
  flushScheduled : Bool
  subscribers : List Nat
  delivered : List Nat
  stack : List Frame
  announced : List LifecycleRow
  received : List (Nat × LifecycleRow)

def deliveredSeqMemory : Nat := 16384

/-- The last `memory` entries. -/
def keepLast (memory : Nat) (order : List Nat) : List Nat := order.drop (order.length - memory)

theorem mem_of_mem_keepLast {memory seq : Nat} {order : List Nat} (h : seq ∈ keepLast memory order) : seq ∈ order :=
  List.mem_of_mem_drop h

namespace Frame

def isTx : Frame → Bool
  | tx _ => true
  | _ => false

def isCode : Frame → Bool
  | tx _ | call _ => true
  | _ => false

/-- A live `Set` iterator meets a subscriber added behind it, and none that was deleted. -/
def mapRemaining (f : List Nat → List Nat) : Frame → Frame
  | fanOut event remaining => fanOut event (f remaining)
  | frame => frame

end Frame

def outermost : Ledger → List Frame → List LifecycleRow
  | ledger, [] => ledger.rows
  | _, .tx saved :: below => outermost saved below
  | ledger, _ :: below => outermost ledger below

namespace State

def inTransaction (s : State) : Bool := s.stack.any Frame.isTx

def committed (s : State) : List LifecycleRow := outermost s.ledger s.stack

/-- The rows `flush` would announce: what it holds, in ascending order, where the ledger has it. -/
def held (s : State) : List LifecycleRow :=
  (orderBy (·.hrcSeq) s.pending).filter fun event =>
    (s.ledger.rows.find? fun row => row.hrcSeq == event.hrcSeq).map (·.streamSeq) == some event.streamSeq

/-- `flush()`: its loop begins where it has a row to announce. -/
def flush (s : State) : State :=
  if s.pending.isEmpty || s.inTransaction then s
  else if s.held.isEmpty then { s with pending := [] }
  else { s with pending := [], stack := .flush s.held :: s.stack }

/-- `record`: the last row of a sequence number wins. -/
def record (s : State) (event : LifecycleRow) : State :=
  { s with pending := s.pending.filter (·.hrcSeq != event.hrcSeq) ++ [event], flushScheduled := true }

def insert (s : State) (body : String) : State :=
  let row := ⟨s.ledger.nextHrcSeq, s.ledger.nextStreamSeq, body⟩
  record { s with ledger := ⟨s.ledger.rows ++ [row], row.hrcSeq + 1, row.streamSeq + 1⟩ } row

/-- `claim`, where the fan-out does not remember the sequence number. -/
def claim (memory : Nat) (s : State) (event : LifecycleRow) (below : List Frame) : State :=
  { s with
    delivered := keepLast memory (s.delivered ++ [event.hrcSeq])
    announced := s.announced ++ [event]
    stack := .fanOut event s.subscribers :: below }

/-- One turn of a loop, or the rest of `deliver` once its flush has returned. -/
def proceed (memory : Nat) (s : State) : State :=
  match s.stack with
  | .flush [] :: below => { s with stack := below }
  | .flush (event :: held) :: below => flush { s with stack := .announcing event :: .flush held :: below }
  | .announcing event :: below | .notifying event :: below =>
    if s.delivered.contains event.hrcSeq then { s with stack := below } else s.claim memory event below
  | .fanOut _ [] :: below => { s with stack := below }
  | .fanOut event (subscriber :: remaining) :: below =>
    { s with
      stack := .call subscriber :: .fanOut event remaining :: below
      received := s.received ++ [(subscriber, event)] }
  | _ => s

/-- A throw rolls back the transactions it leaves and ends the subscriber's call with the loop that made it; the hub
catches it there, or the code that notified goes on. -/
def unwind : Ledger → List Frame → Ledger × List Frame
  | _, .tx saved :: below => unwind saved below
  | ledger, .call _ :: .fanOut _ _ :: below => (ledger, below)
  | ledger, stack => (ledger, stack)

end State

/-- What the running code does next; the loops go on by `proceed`. -/
inductive Action where
  | append (body : String)
  | appendWithinExistingTransaction (body : String)
  | begin | commit | rollback
  | notifyEvent (event : LifecycleRow)
  | scheduledFlush
  | returns | throws
  | subscribe (subscriber : Nat)
  | unsubscribe (subscriber : Nat)
  | proceed
  deriving DecidableEq

def runsCode (s : State) : Bool := s.stack.head?.all Frame.isCode

open State in
def perform (s : State) : Action → State
  | .append body => (s.insert body).flush
  | .appendWithinExistingTransaction body => s.insert body
  | .begin => { s with stack := .tx s.ledger :: s.stack }
  | .commit =>
    match s.stack with
    | .tx _ :: below => { s with stack := below }
    | _ => s
  | .rollback =>
    match s.stack with
    | .tx saved :: below => { s with ledger := saved, stack := below }
    | _ => s
  | .notifyEvent event => flush { s with stack := .notifying event :: s.stack }
  | .scheduledFlush =>
    if s.flushScheduled && s.stack.isEmpty then flush { s with flushScheduled := false } else s
  | .returns =>
    match s.stack with
    | .call _ :: below => { s with stack := below }
    | _ => s
  | .throws =>
    let unwound := unwind s.ledger s.stack
    { s with ledger := unwound.1, stack := unwound.2 }
  | .subscribe subscriber =>
    if s.subscribers.contains subscriber then s
    else
      { s with
        subscribers := s.subscribers ++ [subscriber]
        stack := s.stack.map (Frame.mapRemaining (· ++ [subscriber])) }
  | .unsubscribe subscriber =>
    { s with
      subscribers := s.subscribers.erase subscriber
      stack := s.stack.map (Frame.mapRemaining (·.erase subscriber)) }
  | .proceed => s

/-- The fan-out remembers the last `memory` rows it delivered. -/
def step (memory : Nat) (a : Action) (s : State) : State :=
  if runsCode s then perform s a else if a = .proceed then s.proceed memory else s

def start (ledger : Ledger) (subscribers : List Nat) : State :=
  ⟨ledger, [], false, subscribers, [], [], [], []⟩

end HrcRuntime.FollowFanOut
