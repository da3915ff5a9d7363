import HrcRuntime.Calls
import HrcRuntime.OfflineEvidenceValidate

namespace HrcRuntime.OfflineEvidenceAttempt

open Records Database Program Mapper EventRepository Repositories EventMapper Wire
open OfflineEvidenceOutcomes OfflineEvidenceValidate

def isArray : Json.Json → Bool
  | .arr _ => true
  | _ => false

inductive ReaderFailure where
  | readerTimeout | readerContractViolation | readerFailed

def ReaderFailure.text : ReaderFailure → String
  | readerTimeout => "reader_timeout"
  | readerContractViolation => "reader_contract_violation"
  | readerFailed => "reader_failed"

inductive ReaderAnswer where
  | ok (response : Members)
  | typed (response : Members)
  | failed (outcome : ReaderFailure) (detail : List (String × Value))

structure ReaderCall where
  answer : ReaderAnswer
  stdoutBytes : Nat

structure OfflineEvidenceOptions where
  sliceMaxPages : Nat := offlineEvidenceSliceMaxPages
  sliceMaxBytes : Nat := offlineEvidenceSliceMaxBytes
  sliceMaxMs : Int := offlineEvidenceSliceMaxMs

structure PriorOutcome where
  outcome : String
  detail : Members

/-- The snapshot and `currentSeq` every page of an attempt must repeat. -/
structure Fence where
  snapshot : Option Value
  currentSeq : Number

def resumeFence (prior : Option PriorOutcome) : Option Fence :=
  (prior.filter (·.outcome == "in_progress")).map fun prior =>
    { snapshot := prior.detail.lookup "snapshot"
      currentSeq := match prior.detail.lookup "currentSeq" with
        | some (.num n) => n
        | _ => .int (-1) }

structure AttemptResult where
  outcome : String
  detail : List (String × Value)
  projectedThroughSeq : Nat
  currentSeq : Option Nat := none
  spawned : Bool

/-- The `executionRelease` a runtime is bound to, when its record is whole. -/
def persistedAspdExecutionRelease (runtime : HrcRuntimeSnapshot) : Option ReleaseIdentity := do
  let value ← runtime.runtimeStateJson.bind (·.member "executionRelease")
  let releaseId ← value.stringField "releaseId"
  let sourceCommit ← value.stringField "sourceCommit"
  let builtAt ← value.stringField "builtAt"
  let _ ← value.stringField "releaseRoot"
  let worker ← value.member "worker"
  let _ ← worker.stringField "protocol"
  let _ ← worker.stringField "executable"
  let argvPrefix ← worker.member "argvPrefix"
  if value.stringField "source" == some "aspd" && isArray argvPrefix then
    some { releaseId, sourceCommit, builtAt }
  else none

structure Reader where
  /-- `validateFrozenExecutionRelease`: the executable, or the detail of its refusal. -/
  executable : Except (List (String × Value)) Unit
  /-- `releaseCapabilityDeclared`. -/
  declared : Option Bool
  /-- `persistedEventLedgerPath`. -/
  ledgerPath : Option String

structure Target where
  runtimeId : String
  invocationId : String
  release : ReleaseIdentity
  options : OfflineEvidenceOptions := {}

structure Loop where
  startCursor : Nat
  afterSeq : Nat
  pages : Nat := 0
  bytes : Nat := 0
  firstPage : Option Fence

def detailWith (target : Target) (loop : Loop) (extra : List (String × Value)) : List (String × Value) :=
  ("releaseId", .str target.release.releaseId) :: ("requestedAfterSeq", ofNat loop.startCursor) :: extra

/-- `db.brokerInvocations.getByInvocationId(invocationId)?.lastProjectedSeq ?? afterSeq`. -/
def projectedThrough (db : Db) (invocationId : String) (afterSeq : Nat) : Nat :=
  ((getByInvocationId db invocationId).map (·.lastProjectedSeq)).getD afterSeq

def errorMessage : HrcError → String
  | .error message | .typeError message | .fault message => message
  | .brokerInvocationEventConflict invocationId seq =>
    s!"broker_invocation_events conflict: (invocation_id={invocationId}, seq={seq}) already exists with a different payload; refusing to overwrite"
  | .runIdOwnership runId _ => s!"run id \"{runId}\" is not owned by this writer"
  | .runIdReserved runId => s!"run id \"{runId}\" is reserved by another app session birth"
  | .constraint table => s!"UNIQUE constraint failed: {table}"

section Process

-- the answers of the reader processes in turn, the milliseconds since the attempt started, and the
-- protocol package's envelope check
variable (reply : Nat → ReaderCall) (elapsed : Nat → Int)
  (validateEventEnvelope : Value → Except String InvocationEventEnvelope)

def sameSnapshot (fence : Option Fence) (page : ValidPage) : Bool :=
  fence.all fun fence => fence.currentSeq == .int page.currentSeq
    && fence.snapshot.map Value.stringify == some page.snapshot.stringify

def unstable (fence : Option Fence) (page : ValidPage) : List (String × Value) :=
  [("currentSeq", ofNat page.currentSeq),
    ("expectedCurrentSeq", ((fence.map fun fence => Value.num fence.currentSeq)).getD .null),
    ("snapshot", page.snapshot), ("expectedSnapshot", (fence.bind (·.snapshot)).getD .null)]

def readPage (target : Target) (loop : Loop) (db : Db) : Except AttemptResult ValidPage :=
  let projectedThroughSeq := projectedThrough db target.invocationId loop.afterSeq
  let refuse (outcome : String) (detail : List (String × Value)) : AttemptResult :=
    { outcome, detail := detailWith target loop detail, projectedThroughSeq, spawned := true }
  match (reply loop.pages).answer with
  | .failed outcome detail => .error (refuse outcome.text detail)
  | .typed response =>
    match validateOfflineEvidenceTypedError response target.release with
    | .error refused => .error (refuse refused.outcome refused.detail)
    | .ok (code, error) => .error (refuse code [("errorCode", .str code), ("errorData", error)])
  | .ok response =>
    match validateOfflineEvidencePage validateEventEnvelope response target.release target.invocationId
      loop.afterSeq with
    | .error refused => .error (refuse refused.outcome refused.detail)
    | .ok page =>
      if sameSnapshot loop.firstPage page then .ok page
      else .error
        { refuse "ledger_snapshot_unstable" (unstable loop.firstPage page) with currentSeq := some page.currentSeq }

variable [Host]

def recordInvocationHistory (runtimeId : String) (envelope : InvocationEventEnvelope) (at' : String) : M Unit := do
  statement (.updateInvocation envelope.invocationId { updatedAt := some at' })
  Prog.when (envelope.type.text == "invocation.summary") do
    let runtime ← query (getByRuntimeId · runtimeId)
    Prog.forEach runtime.toList fun runtime =>
      statement (.updateRuntime runtimeId
        { runtimeStateJson := some (.obj (((runtime.runtimeStateJson.map Json.Json.recordFields).getD .nil).set
            "finalSummary" envelope.payload))
          updatedAt := some runtime.updatedAt })

def projectEvent (target : Target) (envelope : InvocationEventEnvelope) : M Unit := do
  let result ← applyRetained envelope
  Prog.when (!result.ignoredDelta) do
    Prog.when (!result.idempotent) (now >>= recordInvocationHistory target.runtimeId envelope)
    Prog.forEach result.lifecycleEvents fun _ => effect

def projectPage (target : Target) (loop : Loop) (currentSeq : Nat) :
    List InvocationEventEnvelope → M (Option AttemptResult)
  | [] => pure none
  | envelope :: envelopes => do
      let halted ← Prog.catchWith (projectEvent target envelope >>= fun _ => pure none) fun error =>
        query fun db => some
          { outcome := "projection_halted"
            detail := detailWith target loop [("seq", ofNat envelope.seq), ("type", .str envelope.type.text),
              ("error", .str (errorMessage error))]
            projectedThroughSeq := projectedThrough db target.invocationId loop.afterSeq
            currentSeq := some currentSeq, spawned := true }
      match halted with
      | some result => pure (some result)
      | none => projectPage target loop currentSeq envelopes

def isTorn (integrity : Value) : Bool := (integrity.member "status").any (·.isString "torn_tail")

def finish (target : Target) (loop : Loop) (page : ValidPage) (cursor : Nat) : AttemptResult :=
  let common : List (String × Value) :=
    [("currentSeq", ofNat page.currentSeq), ("retentionFloorSeq", ofNat page.retentionFloorSeq),
      ("integrity", page.integrity), ("snapshot", page.snapshot), ("pages", ofNat loop.pages)]
  let through : List (String × Value) := [("projectedThroughSeq", ofNat cursor)]
  if cursor != page.currentSeq then
    { outcome := "reader_contract_violation"
      detail := detailWith target loop (("violation", .str "incomplete_final_page") :: through ++ common)
      projectedThroughSeq := cursor, currentSeq := some page.currentSeq, spawned := true }
  else
    { outcome := if isTorn page.integrity then "recovered_torn_tail" else "recovered"
      detail := detailWith target loop (through ++ common)
      projectedThroughSeq := cursor, currentSeq := some page.currentSeq, spawned := true }

def pauseSlice (target : Target) (loop : Loop) (page : ValidPage) (cursor : Nat) : AttemptResult :=
  { outcome := "in_progress"
    detail := detailWith target loop [("projectedThroughSeq", ofNat cursor), ("currentSeq", ofNat page.currentSeq),
      ("snapshot", page.snapshot), ("pages", ofNat loop.pages), ("stdoutBytes", ofNat loop.bytes)]
    projectedThroughSeq := cursor, currentSeq := some page.currentSeq, spawned := true }

def sliceSpent (options : OfflineEvidenceOptions) (loop : Loop) : Bool :=
  options.sliceMaxPages ≤ loop.pages || options.sliceMaxBytes ≤ loop.bytes
    || decide (options.sliceMaxMs ≤ elapsed loop.pages)

def Loop.next (loop : Loop) (page : ValidPage) : Loop :=
  { loop with
    afterSeq := page.nextAfterSeq, pages := loop.pages + 1, bytes := loop.bytes + (reply loop.pages).stdoutBytes
    firstPage := loop.firstPage.or (some { snapshot := some page.snapshot, currentSeq := .int page.currentSeq }) }

/-- Project an accepted page; `none` goes round the loop again. -/
def takePage (target : Target) (loop : Loop) (page : ValidPage) : M (Option AttemptResult) := do
  let halted ← projectPage target loop page.currentSeq page.events
  match halted with
  | some result => pure (some result)
  | none => do
      let _ ← flushIgnoredDeltas target.invocationId true
      let cursor ← query fun db => projectedThrough db target.invocationId page.nextAfterSeq
      let loop := loop.next reply page
      if !page.hasMore then pure (some (finish target loop page cursor))
      else if sliceSpent elapsed target.options loop then pure (some (pauseSlice target loop page cursor))
      else pure none

structure Attempt where
  accepted : List ValidPage
  result : Except HrcError AttemptResult
  state : BrokerEventMapper

/-- The paging loop; `none` is a run out of `fuel`. -/
def readPages (target : Target) : Nat → Loop → BrokerEventMapper → Option Attempt
  | 0, _, _ => none
  | fuel + 1, loop, s =>
    match readPage reply validateEventEnvelope target loop s.db with
    | .error result => some { accepted := [], result := .ok result, state := s }
    | .ok page =>
      match takePage reply elapsed target loop page s with
      | (.error e, s') => some { accepted := [page], result := .error e, state := s' }
      | (.ok (some result), s') => some { accepted := [page], result := .ok result, state := s' }
      | (.ok none, s') =>
        (readPages target fuel (loop.next reply page) s').map fun attempt =>
          { attempt with accepted := page :: attempt.accepted }

/-- `new BrokerEventMapper({ db, now })`. -/
def newMapper (s : BrokerEventMapper) : BrokerEventMapper :=
  { db := s.db, reservations := s.reservations, serverLog := s.serverLog, tick := s.tick }

def startLoop (db : Db) (invocationId : String) (prior : Option PriorOutcome) : Loop :=
  let startCursor := projectedThrough db invocationId 0
  { startCursor, afterSeq := startCursor, firstPage := resumeFence prior }

def unread (s : BrokerEventMapper) (invocationId outcome : String) (detail : List (String × Value)) : Attempt :=
  { accepted := [], state := s
    result := .ok { outcome, detail, projectedThroughSeq := projectedThrough s.db invocationId 0, spawned := false } }

def unrecoveredOutcomes : List String :=
  eventsSinceErrorCodes ++ ["reader_timeout", "reader_contract_violation", "reader_failed", "reader_release_mismatch",
    "projection_halted", "recovered_torn_tail", "in_progress", "release_unavailable", "offline_reader_unsupported",
    "ledger_path_unknown"]

def attemptOutcomes (runtime : HrcRuntimeSnapshot) : List String :=
  match persistedAspdExecutionRelease runtime with
  | some _ => "recovered" :: unrecoveredOutcomes
  | none => ["offline_reader_unsupported_unbound_release"]

def readAndProject (reader : Reader) (options : OfflineEvidenceOptions) (runtime : HrcRuntimeSnapshot)
    (invocationId : String) (prior : Option PriorOutcome) (fuel : Nat) (s : BrokerEventMapper) : Option Attempt :=
  match persistedAspdExecutionRelease runtime with
  | none => some (unread s invocationId "offline_reader_unsupported_unbound_release" [])
  | some release =>
    let releaseId : String × Value := ("releaseId", .str release.releaseId)
    match reader.executable, reader.declared, reader.ledgerPath with
    | .error detail, _, _ => some (unread s invocationId "release_unavailable" (releaseId :: detail))
    | .ok (), none, _ => some (unread s invocationId "release_unavailable" [releaseId])
    | .ok (), some false, _ =>
      some (unread s invocationId "offline_reader_unsupported"
        [releaseId, ("capability", .str offlineEvidenceCapability)])
    | .ok (), some true, none => some (unread s invocationId "ledger_path_unknown" [releaseId])
    | .ok (), some true, some _ =>
      readPages reply elapsed validateEventEnvelope { runtimeId := runtime.runtimeId, invocationId, release, options }
        fuel (startLoop s.db invocationId prior) (newMapper s)

end Process

end HrcRuntime.OfflineEvidenceAttempt
