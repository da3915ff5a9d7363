import HrcRuntime.Schedule
import Mathlib.Logic.Function.Basic

namespace HrcRuntime.ServerLock

abbrev Pid := Int

/-- `ServerLockOwner`; `createdAt` is the instant `Date.parse` reads, if it reads one. -/
structure Owner where
  pid : Pid
  createdAt : Option Int
  deriving DecidableEq

/-- The text of a lock file, as `JSON.parse` takes it: not written yet, a number, an object with a `pid` and a
`createdAt` text, or anything else. -/
inductive Raw where
  | empty
  | number (n : Int)
  | object (pid : Int) (createdAt : Option Int)
  | other
  deriving DecidableEq

def serializeServerLockOwner (owner : Owner) : Raw := .object owner.pid owner.createdAt

def parseServerLockOwner : Raw → Option Owner
  | .number n => if 0 < n then some ⟨n, none⟩ else none
  | .object pid createdAt => if 0 < pid then some ⟨pid, createdAt⟩ else none
  | _ => none

structure File where
  inode : Nat
  raw : Raw
  creator : Pid

/-- `ServerLockState` of a lock that could be parsed. -/
structure LockState where
  owner : Owner
  raw : Raw
  parsed : parseServerLockOwner raw = some owner
  deriving DecidableEq

/-- `readServerLock` of a file that is there; nothing where the lock is malformed. -/
def File.state (f : File) : Option LockState :=
  match h : parseServerLockOwner f.raw with
  | none => none
  | some owner => some ⟨owner, f.raw, h⟩

inductive Failure where
  | malformed
  | alreadyRunning (owner : Owner)
  deriving DecidableEq

inductive Phase where
  | idle | dead
  | failed (failure : Failure)
  | createLock
  | writeLock (owner : Owner) (inode : Nat)
  | readLock
  | checkOwner (existingLock : LockState)
  | probe (existingLock : LockState)
  | createClaim (expectedLock : LockState)
  | writeClaim (expectedLock : LockState) (claim : Owner) (inode : Nat)
  | readClaim (expectedLock : LockState)
  | checkClaim (expectedLock : LockState) (owner : Owner)
  | unlinkClaim (expectedLock : LockState)
  | rereadLock (expectedLock : LockState) (claim : Owner)
  | recheckOwner (currentLock : LockState) (claim : Owner)
  | reprobe (currentLock : LockState) (claim : Owner)
  | unlinkSocket (currentLock : LockState) (claim : Owner)
  | unlinkLock (currentLock : LockState) (claim : Owner)
  | readOwnClaim (claim : Owner) (failure : Option Failure)
  | dropClaim (failure : Option Failure) (claim : Owner)
  | held (owner : Owner) (listening : Bool)
  | cleanupSocket (owner : Owner)
  | readOwnLock (owner : Owner)
  | dropLock (owner : Owner)
  deriving DecidableEq

/-- The processes, the three paths, and the clock; `boot` is `Date.now() - uptime() * 1000`. -/
structure State where
  procs : Pid → Phase
  lock : Option File
  claim : Option File
  socket : Option Pid
  nextInode : Nat
  now : Int
  boot : Int

namespace State

def start (boot : Int) : State := ⟨fun _ => .idle, none, none, none, 0, boot, boot⟩

variable (s : State)

def move (p : Pid) (phase : Phase) : State := { s with procs := Function.update s.procs p phase }

def isLiveProcess (pid : Pid) : Bool := s.procs pid ≠ .dead

def early (owner : Owner) : Bool := owner.createdAt.any fun createdAt => createdAt < s.boot - 60000

def isLockOwnerAlive (owner : Owner) : Bool := if s.early owner then false else s.isLiveProcess owner.pid

/-- `isUnixSocketResponsive`: the process whose socket is at the path still listens. -/
def responsive : Bool :=
  match s.socket with
  | none => false
  | some p => match s.procs p with
    | .held _ listening => listening
    | _ => false

def createServerLockOwner (p : Pid) : Owner := ⟨p, some s.now⟩

def written (file : Option File) (inode : Nat) (raw : Raw) : Option File :=
  file.map fun f => if f.inode = inode then { f with raw } else f

/-- The return of `clearStaleServerState`, or the error its `finally` lets through. -/
def settle (p : Pid) (failure : Option Failure) : State :=
  match failure with
  | none => s.move p .createLock
  | some failure => s.move p (.failed failure)

/-- The next call of a process inside `acquireServerLock`, `cleanupFailedStartup` or `releaseServerLock`. -/
def next (p : Pid) : State :=
  match s.procs p with
  | .idle | .dead | .failed _ | .held _ _ => s
  | .createLock => match s.lock with
    | some _ => s.move p .readLock
    | none =>
      { s.move p (.writeLock (s.createServerLockOwner p) s.nextInode) with
        lock := some ⟨s.nextInode, .empty, p⟩, nextInode := s.nextInode + 1 }
  | .writeLock owner inode =>
    { s.move p (.held owner false) with lock := written s.lock inode (serializeServerLockOwner owner) }
  | .readLock => match s.lock with
    | none => s.move p .createLock
    | some f => match f.state with
      | none => s.move p (.failed .malformed)
      | some existingLock => s.move p (.checkOwner existingLock)
  | .checkOwner existingLock =>
    if s.isLockOwnerAlive existingLock.owner then s.move p (.failed (.alreadyRunning existingLock.owner))
    else s.move p (.probe existingLock)
  | .probe existingLock =>
    if s.responsive then s.move p (.failed (.alreadyRunning existingLock.owner))
    else s.move p (.createClaim existingLock)
  | .createClaim expectedLock => match s.claim with
    | some _ => s.move p (.readClaim expectedLock)
    | none =>
      { s.move p (.writeClaim expectedLock (s.createServerLockOwner p) s.nextInode) with
        claim := some ⟨s.nextInode, .empty, p⟩, nextInode := s.nextInode + 1 }
  | .writeClaim expectedLock claim inode =>
    { s.move p (.rereadLock expectedLock claim) with
      claim := written s.claim inode (serializeServerLockOwner claim) }
  | .readClaim expectedLock => match s.claim.bind File.state with
    | some existingClaim => s.move p (.checkClaim expectedLock existingClaim.owner)
    | none => s.move p (.unlinkClaim expectedLock)
  | .checkClaim expectedLock owner =>
    if s.isLiveProcess owner.pid then s.move p (.createClaim expectedLock)
    else s.move p (.unlinkClaim expectedLock)
  | .unlinkClaim expectedLock => { s.move p (.createClaim expectedLock) with claim := none }
  | .rereadLock expectedLock claim => match s.lock with
    | none => s.move p (.readOwnClaim claim none)
    | some f =>
      if f.raw ≠ expectedLock.raw then s.move p (.readOwnClaim claim none)
      else match f.state with
        | none => s.move p (.readOwnClaim claim (some .malformed))
        | some currentLock => s.move p (.recheckOwner currentLock claim)
  | .recheckOwner currentLock claim =>
    if s.isLockOwnerAlive currentLock.owner then
      s.move p (.readOwnClaim claim (some (.alreadyRunning currentLock.owner)))
    else s.move p (.reprobe currentLock claim)
  | .reprobe currentLock claim =>
    if s.responsive then s.move p (.readOwnClaim claim (some (.alreadyRunning currentLock.owner)))
    else s.move p (.unlinkSocket currentLock claim)
  | .unlinkSocket currentLock claim => { s.move p (.unlinkLock currentLock claim) with socket := none }
  | .unlinkLock _ claim => { s.move p (.readOwnClaim claim none) with lock := none }
  | .readOwnClaim claim failure =>
    if (s.claim.bind File.state).any fun currentLock => currentLock.owner = claim then s.move p (.dropClaim failure claim)
    else s.settle p failure
  | .dropClaim failure _ => { s.settle p failure with claim := none }
  | .cleanupSocket owner => { s.move p (.readOwnLock owner) with socket := none }
  | .readOwnLock owner =>
    if (s.lock.bind File.state).any fun currentLock => currentLock.owner = owner then s.move p (.dropLock owner)
    else s.move p .idle
  | .dropLock _ => { s.move p .idle with lock := none }

end State

inductive Action where
  | acquire (p : Pid)
  | next (p : Pid)
  | listen (p : Pid)
  | cleanupFailedStartup (p : Pid) (shouldCleanupSocket : Bool)
  | releaseServerLock (p : Pid)
  | crash (p : Pid)
  | tick (ms : Nat)

def step (a : Action) (s : State) : State :=
  match a with
  | .acquire p => match s.procs p with
    | .idle | .failed _ => if 0 < p then s.move p .createLock else s
    | _ => s
  | .next p => s.next p
  | .listen p => match s.procs p with
    | .held owner false => if s.responsive then s else { s.move p (.held owner true) with socket := some p }
    | _ => s
  | .cleanupFailedStartup p shouldCleanupSocket => match s.procs p with
    | .held owner _ => s.move p (if shouldCleanupSocket then .cleanupSocket owner else .readOwnLock owner)
    | _ => s
  | .releaseServerLock p => match s.procs p with
    | .held owner _ => s.move p (.readOwnLock owner)
    | _ => s
  | .crash p => s.move p .dead
  | .tick ms => { s with now := s.now + ms }

def Phase.holds : Phase → Option Owner
  | .held owner _ | .cleanupSocket owner | .readOwnLock owner | .dropLock owner => some owner
  | _ => none

def State.Holder (s : State) (p : Pid) : Prop := (s.procs p).holds.isSome

instance (s : State) (p : Pid) : Decidable (s.Holder p) := inferInstanceAs (Decidable (_ = true))

def Phase.atRest : Phase → Bool
  | .idle | .dead | .failed _ | .held _ _ => true
  | _ => false

def alone (p : Pid) (n : Nat) (s : State) : State := Schedule.run step (List.replicate n (.next p)) (step (.acquire p) s)

def Action.actor : Action → Option Pid
  | .acquire p | .next p | .listen p | .cleanupFailedStartup p _ | .releaseServerLock p | .crash p => some p
  | .tick _ => none

structure Sole (s : State) : Prop where
  one : ∀ p q, s.Holder p → s.Holder q → p = q
  kept : ∀ p, s.Holder p → s.lock.isSome ∧ ∀ a : Action, a.actor ≠ some p → (step a s).lock = s.lock
  started : ∀ p, 0 < p → (∀ q, (s.procs q).atRest) → (s.procs p) ≠ .dead → ¬ s.Holder p → ∃ n,
    (alone p n s).Holder p ∨ ∃ owner, (alone p n s).procs p = .failed (.alreadyRunning owner) ∧
      (alone p n s).Holder owner.pid

/-- No claim of a live process is unlinked by another, and no process dies between the creation of the lock file
and its write. -/
def allowed (s : State) : Action → Bool
  | .next p => match s.procs p with
    | .unlinkClaim _ => s.claim.all fun f => s.procs f.creator = .dead
    | _ => true
  | .crash p => match s.procs p with
    | .writeLock _ _ => false
    | _ => true
  | _ => true

end HrcRuntime.ServerLock
