import HrcRuntime.Keyed
import HrcRuntime.Schedule

namespace HrcRuntime.SlotClaims

open HrcRuntime.Keyed

/-- A project- and task-qualified agent scope, as `Scope::parse` reads it. -/
structure Scope where
  agent : String
  project : String
  task : String
  role : Option String
  deriving DecidableEq

/-- The key of `NAMESPACE_LOCKS`. -/
def Scope.mutexKey (scope : Scope) : String × String := (scope.agent, scope.project)

def Scope.withTask (scope : Scope) (task : String) : Scope := { scope with task := task }

def rosterSlotTokens : List String :=
  ["nova", "comet", "pulsar", "quasar", "meteor", "aurora", "zenith", "eclipse", "orbit", "cosmos"]

def Scope.roster (scope : Scope) : List String :=
  scope.task :: rosterSlotTokens.map fun token => scope.task ++ "-" ++ token

structure Slot where
  scope : Scope
  lane : String
  deriving DecidableEq

inductive Policy where
  | suffix | reject
  deriving DecidableEq

/-- What `request_hash` is the digest of. -/
structure Body where
  policy : Policy
  scope : Scope
  lane : String
  canonical : String
  deriving DecidableEq

def Body.slots (body : Body) : List String :=
  match body.policy with
  | .suffix => body.scope.roster
  | .reject => [body.scope.task]

def Body.slot (body : Body) (task : String) : Slot := ⟨body.scope.withTask task, body.lane⟩

structure Session where
  host : Nat
  slot : Slot
  active : Bool
  deriving DecidableEq

structure Continuity where
  slot : Slot
  host : Nat

structure Runtime where
  runtimeId : Nat
  host : Nat
  status : String

/-- `lease::unavailable`. -/
def unavailable (status : String) : Bool :=
  ["terminated", "dead", "stale", "crashed", "detached"].contains status

/-- A row of `roster_claims`. -/
structure ClaimRow where
  key : String
  body : Body
  claimed : Scope
  successor : Nat

structure Database where
  sessions : Store Session Session.host
  continuities : Store Continuity Continuity.slot
  runtimes : Store Runtime Runtime.runtimeId
  /-- `scope_ref` of the participant registrations. -/
  registrations : List Scope
  /-- `scope_ref` of the address reservations whose state is `held`. -/
  held : List Scope
  rosterClaims : Store ClaimRow ClaimRow.key
  /-- The next uuid. -/
  next : Nat

namespace Database

variable (db : Database)

/-- `continuity_session`. -/
def current (slot : Slot) : Option Session := (db.continuities.find slot).bind fun c => db.sessions.find c.host

def reserved (scope : Scope) : Bool := db.registrations.contains scope || db.held.contains scope

def available (host : Nat) : Bool := db.runtimes.rows.any fun rt => rt.host == host && !unavailable rt.status

/-- What `replay` finds under a key. -/
inductive Replay where
  | unrecorded | conflict | superseded
  | recorded (host : Nat)

def replay (key : String) (body : Body) : Replay :=
  match db.rosterClaims.find key with
  | none => .unrecorded
  | some row =>
    if row.body ≠ body then .conflict
    else
      match db.sessions.find row.successor with
      | none => .superseded
      | some session =>
        if session.active && ((db.continuities.find session.slot).map Continuity.host == some session.host) then
          .recorded session.host
        else .superseded

def claim (key : String) (body : Body) (slot : Slot) : Database :=
  { db with
    sessions := db.sessions.add ⟨db.next, slot, true⟩
    continuities := db.continuities.upsert ⟨slot, db.next⟩ (fun c => { c with host := db.next }) (fun _ => rfl)
    rosterClaims := db.rosterClaims.add ⟨key, body, slot.scope, db.next⟩
    next := db.next + 1 }

def archive (host : Nat) : Database :=
  { db with sessions := db.sessions.amend host (fun _ => true) (fun s => { s with active := false }) (fun _ => rfl) }

/-- `invalidate`: what still runs on the host is terminated. -/
def invalidate (host : Nat) : Database :=
  { db with
    runtimes :=
      ⟨db.runtimes.rows.map fun rt => if rt.host == host && !unavailable rt.status then { rt with status := "terminated" } else rt,
        by
          have hsame (rows : List Runtime) :
              (rows.map fun rt =>
                if rt.host == host && !unavailable rt.status then { rt with status := "terminated" } else rt).map
                  Runtime.runtimeId = rows.map Runtime.runtimeId := by
            induction rows with
            | nil => rfl
            | cons rt rows ih =>
              rw [List.map_cons, List.map_cons, List.map_cons, ih]
              split <;> rfl
          rw [hsame]
          exact db.runtimes.nodup⟩ }

def setStatus (runtimeId : Nat) (status : String) : Database :=
  { db with
    runtimes := db.runtimes.amend runtimeId (fun _ => true) (fun rt => { rt with status := status }) (fun _ => rfl) }

def startGraph (host : Nat) : Database :=
  { db with
    runtimes := db.runtimes.add ⟨db.next, host, "starting"⟩
    next := db.next + 1 }

def liveHost (host : Nat) : Bool :=
  (db.sessions.find host).any fun session =>
    session.active && ((db.continuities.find session.slot).map Continuity.host == some host)

end Database

inductive Outcome where
  | idempotencyKeyConflict | rosterClaimSuperseded | sessionScopeOccupied | sessionRosterExhausted
  | staleContext | failed | started | abandoned
  deriving DecidableEq

inductive Phase where
  | waiting
  | walking (tasks : List String)
  | minting (task : String)
  | rotating (host : Nat)
  | starting (host : Nat) (runtime : Option Nat)
  | done (outcome : Outcome)
  deriving DecidableEq

def Phase.holdsLock : Phase → Bool
  | .walking _ | .minting _ | .rotating _ => true
  | .waiting | .starting _ _ | .done _ => false

def Phase.host : Phase → Option Nat
  | .starting host _ => some host
  | .waiting | .walking _ | .minting _ | .rotating _ | .done _ => none

structure Request where
  id : Nat
  key : String
  body : Body
  phase : Phase

structure State where
  db : Database
  /-- `STARTING`. -/
  starting : List Nat
  requests : Store Request Request.id

namespace State

def start (db : Database) : State := ⟨db, [], .empty⟩

variable (s : State)

def set (id : Nat) (phase : Phase) : State :=
  { s with requests := s.requests.amend id (fun _ => true) (fun r => { r with phase := phase }) (fun _ => rfl) }

def mark (host : Nat) : State := { s with starting := if host ∈ s.starting then s.starting else host :: s.starting }

def unmark (host : Nat) : State := { s with starting := s.starting.filter (· != host) }

def locked (mutexKey : String × String) : Bool :=
  s.requests.rows.any fun r => r.phase.holdsLock && r.body.scope.mutexKey == mutexKey

def inFlight (host : Nat) : Bool := s.requests.rows.any fun r => r.phase.host == some host

/-- `isClaimScopeFree`. -/
def free (session : Session) : Bool :=
  !s.starting.contains session.host && !s.db.reserved session.slot.scope && !s.db.available session.host

def enter (r : Request) : State :=
  if s.locked r.body.scope.mutexKey then s
  else
    match s.db.replay r.key r.body with
    | .unrecorded => s.set r.id (.walking r.body.slots)
    | .conflict => s.set r.id (.done .idempotencyKeyConflict)
    | .superseded => s.set r.id (.done .rosterClaimSuperseded)
    | .recorded host => (s.mark host).set r.id (.starting host none)

def examine (r : Request) (tasks : List String) : State :=
  match tasks with
  | [] => s.set r.id (.done .sessionRosterExhausted)
  | task :: rest =>
    match s.db.current (r.body.slot task) with
    | none => s.set r.id (.minting task)
    | some session =>
      if s.free session then s.set r.id (.rotating session.host)
      else
        match r.body.policy with
        | .reject => s.set r.id (.done .sessionScopeOccupied)
        | .suffix => s.set r.id (.walking rest)

def commit (r : Request) (slot : Slot) : State :=
  let host := s.db.next
  ({ s with db := s.db.claim r.key r.body slot }.mark host).set r.id (.starting host none)

/-- `mint`, once the summon authority has answered. -/
def mint (r : Request) (task : String) (granted : Bool) : State :=
  if !granted then s.set r.id (.done .failed)
  else
    match s.db.continuities.find (r.body.slot task) with
    | some continuity =>
      match s.db.sessions.find continuity.host with
      | none => s.set r.id (.done .failed)
      | some session => (s.mark session.host).set r.id (.starting session.host none)
    | none =>
      if (s.db.rosterClaims.find r.key).isSome then s.set r.id (.done .failed)
      else s.commit r (r.body.slot task)

/-- `context::rotate`, once its seat gate is held. -/
def rotate (r : Request) (host : Nat) (granted : Bool) : State :=
  if !granted then s.set r.id (.done .failed)
  else
    match s.db.sessions.find host with
    | none => s.set r.id (.done .failed)
    | some session =>
      if (s.db.continuities.find session.slot).map Continuity.host == some host then
        let torn := { s with db := s.db.invalidate host }
        if (s.db.rosterClaims.find r.key).isSome then torn.set r.id (.done .failed)
        else { torn with db := torn.db.archive host }.commit r session.slot
      else s.set r.id (.done .staleContext)

def boot (r : Request) (host : Nat) : State :=
  if s.db.liveHost host then
    { s with db := s.db.startGraph host }.set r.id (.starting host (some s.db.next))
  else s

end State

inductive Action where
  | request (r : Request)
  | enter (id : Nat)
  | examine (id : Nat)
  | mint (id : Nat) (granted : Bool)
  | rotate (id : Nat) (granted : Bool)
  | boot (id : Nat)
  /-- A start writes the status of its runtime. -/
  | report (id : Nat) (status : String)
  | finish (id : Nat) (outcome : Outcome)
  | abandon (id : Nat)
  /-- Some other writer finds a runtime unavailable. -/
  | lapse (runtimeId : Nat) (status : String)

def State.advance (s : State) (r : Request) : Action → State
  | .enter _ => if r.phase = .waiting then s.enter r else s
  | .examine _ =>
    match r.phase with
    | .walking tasks => s.examine r tasks
    | _ => s
  | .mint _ granted =>
    match r.phase with
    | .minting task => s.mint r task granted
    | _ => s
  | .rotate _ granted =>
    match r.phase with
    | .rotating host => s.rotate r host granted
    | _ => s
  | .boot _ =>
    match r.phase with
    | .starting host none => s.boot r host
    | _ => s
  | .report _ status =>
    match r.phase with
    | .starting _ (some runtime) => { s with db := s.db.setStatus runtime status }
    | _ => s
  | .finish _ outcome =>
    match r.phase with
    | .starting host _ => (s.unmark host).set r.id (.done outcome)
    | _ => s
  | .abandon _ => s.set r.id (.done .abandoned)
  | .request _ | .lapse _ _ => s

def State.act (s : State) (id : Nat) (a : Action) : State :=
  match s.requests.find id with
  | none => s
  | some r => s.advance r a

def step (a : Action) (s : State) : State :=
  match a with
  | .request r => { s with requests := s.requests.add { r with phase := .waiting } }
  | .lapse runtimeId status => if unavailable status then { s with db := s.db.setStatus runtimeId status } else s
  | .enter id | .examine id | .mint id _ | .rotate id _ | .boot id | .report id _ | .finish id _ | .abandon id => s.act id a

end HrcRuntime.SlotClaims
