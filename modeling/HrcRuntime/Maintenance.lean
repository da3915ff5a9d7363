import HrcRuntime.Json
import HrcRuntime.Keyed
import HrcRuntime.LivenessVerdict
import HrcRuntime.Text

namespace HrcRuntime.Maintenance

open Json Keyed
open Records (RunStatus InvocationState Transport)
open LivenessVerdict (unresolved failAbsorbed terminalInvocationState)

/-- `serde_json` and `parse_date`, with the configured age of a hold. -/
class Native where
  parse : String → Option Json
  print : Json → String
  parseDate : String → Option Int
  holdMaxAgeMs : Int

inductive Status where
  | starting | ready | busy | terminated | dead | stale | crashed | detached
  | disposed | exited | failed | stopped
  | other (text : String)
  deriving DecidableEq

namespace Status

def text : Status → String
  | starting => "starting"
  | ready => "ready"
  | busy => "busy"
  | terminated => "terminated"
  | dead => "dead"
  | stale => "stale"
  | crashed => "crashed"
  | detached => "detached"
  | disposed => "disposed"
  | exited => "exited"
  | failed => "failed"
  | stopped => "stopped"
  | other text => text

def unavailable : Status → Bool
  | terminated | dead | stale | crashed | detached => true
  | _ => false

/-- The statuses `dispose` deletes. -/
def disposable : Status → Bool
  | crashed | dead | disposed | exited | failed | stale | stopped | terminated | detached => true
  | _ => false

def holding : Status → Bool
  | crashed | dead | stale | detached => true
  | _ => false

end Status

/-- A row of `runtimes`; the state column is its text. -/
structure Runtime where
  runtimeId : String
  hostSessionId : String
  scopeRef : String
  transport : Transport
  status : Status
  statusChangedAt : Option String
  tmuxJson : Option Json
  activeRunId : Option String
  lastActivityAt : Option String
  controllerKind : Option String
  activeOperationId : Option String
  activeInvocationId : Option String
  runtimeStateJson : Option String
  createdAt : String
  updatedAt : String
  deriving DecidableEq

structure Run extends LivenessVerdict.Run where
  runtimeId : Option String

structure Invocation where
  invocationId : String
  runtimeId : String
  invocationState : InvocationState
  brokerPid : Option Int
  childPid : Option Int
  updatedAt : String
  deriving DecidableEq

inductive BrokerFact where
  | absorbed (submissionId turnId : Option String)
  | admitted (submissionId : Option String) (steer : Bool)
  | turnEnded (turnId : Option String)
  | other
  deriving DecidableEq

structure BrokerEvent where
  runtimeId : String
  invocationId : String
  runId : Option String
  fact : BrokerFact

/-- A row of `retained_evidence_outcomes`. -/
structure Outcome where
  runtimeId : String
  invocationId : String
  outcome : String
  attempts : Int

structure Session where
  hostSessionId : String
  scopeRef : String
  laneRef : String
  generation : Int
  continuationReuseDisabled : Bool
  updatedAt : String

structure Event where
  ts : String
  hostSessionId : String
  scopeRef : String
  laneRef : String
  generation : Int
  runtimeId : Option String
  eventKind : String
  payload : Json

/-- The tables the passes read and write; `brokerEvents` are listed by invocation and `seq`, `outcomes` by their id. -/
structure Database where
  runtimes : Store Runtime (·.runtimeId)
  invocations : Store Invocation (·.invocationId)
  runs : Store Run (·.runId)
  brokerEvents : List BrokerEvent
  outcomes : List Outcome
  sessions : Store Session (·.hostSessionId)
  buffers : List (Option String × Option String)
  bindings : List String
  events : List Event
  hosted : ∀ r ∈ runtimes.rows, (sessions.find r.hostSessionId).isSome

structure View where
  row : Runtime
  state : Option Json
  deriving DecidableEq

def nonterminal : RunStatus → Bool
  | .completed | .failed | .cancelled | .zombie | .coalesced => false
  | _ => true

structure Entry where
  invocationId : String
  terminal : Bool
  unownedTerminal : Bool
  run : Run

/-- What `maintenance_facts` reads. -/
structure Facts where
  nonterminalRun : Bool
  retained : List (Option String)
  invocation : Option Invocation
  unsettledAbsorbed : Bool
  deriving DecidableEq

namespace Database

variable (db : Database)

def endsUnowned (invocation turn : String) : Bool :=
  db.brokerEvents.any fun e => e.invocationId == invocation && e.fact == .turnEnded (some turn) && e.runId.isNone

def terminal (invocation : String) : Bool :=
  (db.invocations.find invocation).any fun i => terminalInvocationState i.invocationState

def absorbed (runtime : String) : List Entry :=
  db.brokerEvents.filterMap fun e => match e.fact with
    | .absorbed (some submission) turn =>
      if e.runtimeId == runtime && db.brokerEvents.any fun a =>
          a.invocationId == e.invocationId && a.fact == .admitted (some submission) true then
        (db.runs.rows.find? fun r => r.brokerSubmissionId == some submission).map fun run =>
          { invocationId := e.invocationId, terminal := db.terminal e.invocationId
            unownedTerminal := turn.any (db.endsUnowned e.invocationId), run }
      else none
    | _ => none

def busyRun (runtime : String) : Bool :=
  db.runs.rows.any fun r => r.runtimeId == some runtime && nonterminal r.status

def lastOutcome (runtime invocation : String) : Option Outcome :=
  db.outcomes.reverse.find? fun o => o.runtimeId == runtime && o.invocationId == invocation

def maintenanceFacts (v : View) : Facts :=
  let id := v.row.runtimeId
  { nonterminalRun := db.busyRun id
    retained := (db.invocations.rows.filter fun i => i.runtimeId == id).map fun i =>
      (db.lastOutcome id i.invocationId).map (·.outcome)
    invocation := v.row.activeInvocationId.bind db.invocations.find
    unsettledAbsorbed := (db.absorbed id).any fun e => unresolved e.run.toRun && !e.terminal
      && !(e.run.completedAt.isSome && e.unownedTerminal) }

end Database

section Judgement

/-- `v[key]` of an absent value or of no object is absent. -/
def field (v : Option Json) (key : String) : Option Json := v.bind (·.member key)

def textField (v : Option Json) (key : String) : Option String := (field v key).bind Json.asString

def nonempty (v : Option Json) : Option String := (v.bind Json.asString).filter (· ≠ "")

def hasTexts (v : Option Json) (keys : List String) : Bool := keys.all fun key => (textField v key).isSome

inductive Substrate where
  | daemonChild | external
  | leasedHrcpty (pid : Int)
  | leasedTmux (tmuxSocketPath paneId : String)

def identified (window : Option Json) : Bool := hasTexts window ["sessionId", "windowId", "paneId"]

/-- `presentation` of a normalized broker state parses. -/
def presented (p : Option Json) : Bool :=
  match textField p "kind" with
  | some "none" => true
  | some "hrcpty" => hasTexts p ["kind", "socketPath"]
  | some "tmux-tui" => identified (field p "tuiWindow")
  | some "observer" => identified (field p "observerWindow")
  | _ => false

def presentedFlat (b : Option Json) : Bool :=
  if (field b "observerWindow").isSome then identified (field b "observerWindow")
  else (field b "tuiWindow").isNone || identified (field b "tuiWindow")

def normalizedSubstrate (s : Option Json) : Option Substrate :=
  match textField s "kind" with
  | some "daemon-child" => some .daemonChild
  | some "external" => some .external
  | some "leased-hrcpty" =>
    if hasTexts s ["kind", "socketPath"] && ((field s "generation").bind Json.asNum).isSome then
      ((field s "pid").bind Json.asNum).map .leasedHrcpty
    else none
  | some "leased-tmux" =>
    if hasTexts s ["kind", "tmuxSocketPath", "sessionName"] && identified (field s "brokerWindow")
        && ((field s "generation").bind Json.asNum).isSome then
      (textField s "tmuxSocketPath").bind fun socket => (textField (field s "brokerWindow") "paneId").map (.leasedTmux socket)
    else none
  | _ => none

def endpointParses (endpoint : Option Json) : Bool :=
  match textField endpoint "kind" with
  | some "unix-jsonrpc-ndjson" =>
    hasTexts endpoint ["socketPath"] && (textField (field endpoint "attachTokenRef") "path").isSome
      && textField (field endpoint "attachTokenRef") "kind" == some "file"
  | some "stdio-jsonrpc-ndjson" => true
  | _ => false

/-- The substrate `hosting` reads of a runtime's state. -/
def hosting (state : Option Json) : Option Substrate :=
  let b := field state "broker"
  if !endpointParses (field b "endpoint") then none
  else if (field b "substrate").isSome || (field b "presentation").isSome then
    if presented (field b "presentation") then normalizedSubstrate (field b "substrate") else none
  else if !presentedFlat b then none
  else match field b "brokerWindow" with
    | some w =>
      if hasTexts (some w) ["socketPath", "sessionName"] && identified (some w) then
        (textField (some w) "socketPath").bind fun socket => (textField (some w) "paneId").map (.leasedTmux socket)
      else none
    | none => some .daemonChild

def leased : Option Substrate → Bool
  | some (.leasedTmux _ _) | some (.leasedHrcpty _) => true
  | _ => false

namespace View

variable (v : View)

def externalOwner : Bool := textField v.state "lifecycleOwner" == some "external"

def harnessBroker : Bool := v.row.controllerKind == some "harness-broker"

/-- The execution release was bound by `aspd`. -/
def boundRelease : Bool :=
  let release := field v.state "executionRelease"
  let worker := field release "worker"
  textField release "source" == some "aspd" && hasTexts release ["releaseId", "sourceCommit", "builtAt", "releaseRoot"]
    && hasTexts worker ["protocol", "executable"] && match field worker "argvPrefix" with
      | some (.arr _) => true
      | _ => false

def isBlank (c : Char) : Bool := c.isWhitespace

def unquoted (word : List Char) : List Char :=
  let strip (w : List Char) : List Char := match w with
    | '\'' :: rest => rest
    | '"' :: rest => rest
    | w => w
  (strip (strip word).reverse).reverse

def commandLedger (command : String) : Bool :=
  let words := (command.toList.splitOnP isBlank).filter (· ≠ [])
  words.dropLast.any fun w => unquoted w == "--event-ledger".toList

def ledger : Bool :=
  let b := field v.state "broker"
  (leased (hosting v.state) && (nonempty (field (field b "substrate") "eventLedgerPath")).isSome)
    || (nonempty (field b "eventLedgerPath")).isSome || commandLedger ((textField b "brokerCommand").getD "")

variable [Native]

def young (clock : Int) : Bool :=
  v.row.status.holding && !((v.row.statusChangedAt.bind Native.parseDate).any fun changed =>
    decide (Native.holdMaxAgeMs < clock - changed))

def released (outcome : Option String) : Bool :=
  outcome == some "recovered" || outcome == some "operator_disposed"
    || outcome == some "offline_reader_unsupported_unbound_release"

def held (facts : Facts) (clock : Int) : Bool :=
  v.harnessBroker && v.boundRelease && v.ledger
    && (v.young clock || facts.retained.any fun outcome => !released outcome)

end View

end Judgement

section Probes

/-- `kill(pid, 0)`. -/
inductive Signal where
  | delivered | noProcess | notPermitted | failed
  deriving DecidableEq

/-- What one command prints; `none` where no server, session or pane is there. -/
inductive TmuxAnswer where
  | printed (raw : String)
  | absent
  | failed
  deriving DecidableEq

structure World where
  clock : Int
  signal : Int → Signal
  tmux : String → List String → TmuxAnswer

inductive Judgement where
  | refused (reason : String)
  | clear
  | failed
  deriving DecidableEq

def Judgement.orElse (j next : Judgement) : Judgement :=
  match j with
  | .clear => next
  | j => j

def refuse (c : Bool) (reason : String) : Judgement := if c then .refused reason else .clear

def processLive (w : World) (pid : Option Int) (reason : String) : Judgement :=
  match pid with
  | none => .clear
  | some pid =>
    if pid < -2147483648 || 2147483647 < pid then .failed
    else match w.signal pid with
      | .delivered | .notPermitted => .refused reason
      | .noProcess => .clear
      | .failed => .failed

/-- `hrcpty::alive`, of the pid as an `i32`. -/
def alive (w : World) (pid : Int) : Bool := decide (0 < pid) && w.signal (Int.bmod pid 4294967296) == .delivered

/-- The one question `liveness` asks of the world. -/
inductive Question where
  | none
  | supervisor (pid : Int)
  | pane (socket paneId : String)
  | window (session : String)

inductive Answer where
  | none
  | alive (b : Bool)
  | tmux (answer : TmuxAnswer)
  deriving DecidableEq

def paneFormat (pane : String) : List String :=
  ["display-message", "-p", "-t", pane, "-F", "#\x7bpane_dead\x7d\t#\x7bpane_current_command\x7d"]

def windowFormat (target : String) : List String :=
  ["list-panes", "-t", target, "-F", "#\x7bsession_id\x7d\t#\x7bwindow_id\x7d\t#\x7bpane_id\x7d\t#\x7bsession_name\x7d"]

variable (serverSocket : String)

def World.answer (w : World) : Question → Answer
  | .none => .none
  | .supervisor pid => .alive (alive w pid)
  | .pane socket pane => .tmux (w.tmux socket (paneFormat pane))
  | .window session => .tmux (w.tmux serverSocket (windowFormat ("=" ++ session ++ ":main")))

def lines (raw : String) : List (List Char) := (Text.trim raw).toList.splitOn '\n'

/-- `#{pane_dead}` of the first line that is not blank. -/
def paneDead (raw : String) : Bool :=
  let line := ((lines raw).find? fun l => !l.all View.isBlank).getD []
  Text.trim (String.ofList (line.takeWhile fun c => c != '\t' && c != '_')) == "1"

namespace View

variable (v : View)

def socketPath : Option String :=
  ((nonempty (field v.row.tmuxJson "socketPath")).or (match hosting v.state with
    | some (.leasedTmux socket _) => if socket = "" then none else some socket
    | _ => none)).or (nonempty (field (field v.state "tmux") "socketPath"))

def paneId : Option String :=
  (nonempty (field v.row.tmuxJson "paneId")).or (match hosting v.state with
    | some (.leasedTmux _ pane) => if pane = "" then none else some pane
    | _ => none)

/-- What `liveness` asks, once the row and the facts say nothing. -/
def asks : Question :=
  match v.harnessBroker, hosting v.state, v.socketPath, v.paneId with
  | true, some (.leasedHrcpty pid), _, _ => .supervisor pid
  | true, _, some socket, some pane => .pane socket pane
  | _, _, _, _ =>
    if v.row.transport = .tmux then
      match (nonempty (field v.row.tmuxJson "sessionId")).or (nonempty (field v.row.tmuxJson "sessionName")) with
      | some name => .window name
      | none => .none
    else .none

def answered : Question → Answer → Judgement
  | .supervisor _, .alive b => refuse b "live_broker_lease"
  | .pane _ _, .tmux (.printed raw) => refuse (!paneDead raw) "live_broker_lease"
  | .window _, .tmux (.printed _) => .refused "live_tmux"
  | _, .tmux .failed => .failed
  | _, _ => .clear

/-- `liveness`, with the answer it was given. -/
def liveness (facts : Facts) (answer : Answer) : Judgement :=
  (refuse v.externalOwner "external_lifecycle_owner").orElse
    ((refuse v.row.activeRunId.isSome "active_run").orElse
      ((refuse facts.unsettledAbsorbed "unsettled_absorbed_auxiliary").orElse (answered v.asks answer)))

variable [Native]

def pruneGuard (facts : Facts) (clock : Int) (answer : Answer) : Judgement :=
  (refuse v.externalOwner "external_lifecycle_owner").orElse
    ((refuse (v.held facts clock) "offline_evidence_held").orElse
      ((refuse (!v.row.status.unavailable) ("status_not_prunable:" ++ v.row.status.text)).orElse
        (v.liveness facts answer)))

/-- `dispose`, from its hold on. -/
def disposeGuard (facts : Facts) (clock : Int) (answer : Answer) : Judgement :=
  (refuse (!v.held facts clock) "retained_evidence_not_held").orElse
    ((refuse (!v.row.status.disposable) ("status_not_disposable:" ++ v.row.status.text)).orElse (v.liveness facts answer))

omit [Native] in
def inFlight (facts : Facts) : Judgement :=
  (refuse v.externalOwner "external_lifecycle_owner").orElse
    ((refuse (v.row.status = .busy) "busy").orElse
      ((refuse v.row.activeRunId.isSome "active_run").orElse (refuse facts.nonterminalRun "nonterminal_run")))

omit [Native] in
/-- The tmux part of `aging`. -/
def tmuxIdentity (w : World) : Judgement :=
  let expected := v.row.tmuxJson
  let text (key : String) : String := (nonempty (field expected key)).getD ""
  if v.row.transport ≠ .tmux then .clear
  else if ["socketPath", "sessionName", "windowName", "sessionId", "windowId", "paneId"].any fun key =>
      (nonempty (field expected key)).isNone then .refused "missing_tmux_identity"
  else match w.tmux (text "socketPath") (windowFormat ("=" ++ text "sessionName" ++ ":" ++ text "windowName")) with
    | .failed => .refused "tmux_probe_error"
    | .absent => .clear
    | .printed raw =>
      let parts := ((lines raw).headD []).splitOn '\t'
      if parts.length < 4 then .refused "tmux_probe_error"
      else if ["sessionId", "windowId", "paneId", "sessionName"].map (fun key => (text key).toList) = parts.take 4 then
        .refused "live_tmux"
      else .refused "tmux_identity_mismatch"

omit [Native] in
def aging (facts : Facts) (w : World) : Judgement :=
  (v.inFlight facts).orElse
    ((processLive w ((field (field v.state "broker") "brokerPid").bind Json.asNum) "live_broker_pid").orElse
      ((refuse (v.row.activeInvocationId.isSome && facts.invocation.isNone) "missing_invocation").orElse
        ((processLive w (facts.invocation.bind (·.brokerPid)) "live_invocation_broker_pid").orElse
          ((processLive w (facts.invocation.bind (·.childPid)) "live_invocation_child_pid").orElse (v.tmuxIdentity w)))))

end View

end Probes

section Writes

variable [Native] (db : Database)

def settleEntry (now : String) (db : Database) (e : Entry) : Database :=
  { db with
    runs := db.runs.amend e.run.runId (fun _ => true)
      (fun r => { r with toRun := failAbsorbed e.invocationId now e.run.toRun r.toRun })
      fun r => LivenessVerdict.failAbsorbed_runId e.invocationId now e.run.toRun r.toRun }

def settleAbsorbed (runtime : String) (onlyTerminal : Bool) (now : String) : Database :=
  ((db.absorbed runtime).filter fun e => unresolved e.run.toRun && (!onlyTerminal || e.terminal)).foldl (settleEntry now) db

def owned (runtime : String) (buffer : Option String × Option String) : Bool :=
  buffer.1 == some runtime || buffer.2.any fun run => (db.runs.find run).any fun r => r.runtimeId == some runtime

def deleteRuntime (id : String) : Database :=
  { db with
    buffers := db.buffers.filter fun b => !owned db id b
    bindings := db.bindings.filter (· ≠ id)
    runs := db.runs.erase fun r => r.runtimeId == some id
    runtimes := db.runtimes.erase fun r => r.runtimeId == id
    hosted := fun r hr => db.hosted r (mem_erase.mp hr).1 }

def prune (id now : String) : Database := deleteRuntime (settleAbsorbed db id true now) id

def outcomeOf (id : String) (i : Invocation) : List Outcome :=
  let last := db.lastOutcome id i.invocationId
  if View.released (last.map (·.outcome)) then []
  else [{ runtimeId := id, invocationId := i.invocationId, outcome := "operator_disposed"
          attempts := (last.map (·.attempts)).getD 0 }]

def disposeRetainedRuntime (id now : String) : Database :=
  prune { db with outcomes := db.outcomes ++
    (db.invocations.rows.filter fun i => i.runtimeId == id).flatMap (outcomeOf db id) } id now

/-- What `age_runtime` compares, and the runs it asks for. -/
def fence (v : View) (evidence : Option Invocation) : Bool :=
  (db.runtimes.find v.row.runtimeId).any fun r =>
    r.status = v.row.status && r.activeRunId = v.row.activeRunId && r.activeOperationId = v.row.activeOperationId
      && r.activeInvocationId = v.row.activeInvocationId && r.lastActivityAt = v.row.lastActivityAt
      && r.runtimeStateJson = v.state.map Native.print
      && (v.row.activeInvocationId.all fun id => (db.invocations.find id).any fun i =>
        i.brokerPid = evidence.bind (·.brokerPid) && i.childPid = evidence.bind (·.childPid))
      && !db.busyRun v.row.runtimeId

def updateRuntime (id : String) (f : Runtime → Runtime) (hid : ∀ r, (f r).runtimeId = r.runtimeId)
    (hhost : ∀ r, (f r).hostSessionId = r.hostSessionId) : Database :=
  { db with
    runtimes := db.runtimes.amend id (fun _ => true) f hid
    hosted := by
      intro r hr
      obtain ⟨r', hr', rfl⟩ := (mem_amend hid).mp hr
      split
      · rw [hhost]
        exact db.hosted r' hr'
      · exact db.hosted r' hr' }

def dropContinuation (host now : String) : Database :=
  { db with
    sessions := db.sessions.amend host (fun _ => true)
      (fun s => { s with continuationReuseDisabled := true, updatedAt := now }) fun _ => rfl
    hosted := fun r hr => by
      by_cases h : r.hostSessionId = host
      · have hsome := db.hosted r hr
        rw [h] at hsome ⊢
        rw [find_amend_self, Option.isSome_map]
        exact hsome
      · rw [find_amend_of_ne _ h]
        exact db.hosted r hr }

def settleInvocation (id now : String) : Database :=
  { db with
    invocations := db.invocations.amend id (fun i => !terminalInvocationState i.invocationState)
      (fun i => { i with invocationState := .disposed, updatedAt := now }) fun _ => rfl }

/-- The broker's part of `age_runtime`. -/
def settleBroker (v : View) (now : String) : Database :=
  if v.harnessBroker then
    let settled := settleAbsorbed db v.row.runtimeId false now
    v.row.activeInvocationId.elim settled fun id => settleInvocation settled id now
  else db

def stalePayload (v : View) (reason : String) (dropped : Bool) : Json :=
  Json.object [("runtimeId", some (.str v.row.runtimeId)), ("reason", some (.str reason)),
    ("priorStatus", some (.str v.row.status.text)), ("transport", some (.str v.row.transport.text)),
    ("droppedContinuation", some (.bool dropped))]

def staleState (v : View) (reason now : String) (payload : Json) : Json :=
  let state := ((((v.state.getD .null).recordFields.set "status" (.str "stale")).set "updatedAt" (.str now)).set
    "staleReason" (.str reason)).set "stalePayload" payload
  .obj (v.row.activeInvocationId.elim state fun id => state.set "terminalInvocation"
    (Json.object [("invocationId", some (.str id)), ("eventType", some (.str "hrc.runtime.stale"))]))

def storageLane (lane : String) : String :=
  if "lane:".toList.isPrefixOf lane.toList then String.ofList (lane.toList.drop 5) else lane

def staleEvent (session : Session) (v : View) (now : String) (payload : Json) : Event :=
  { ts := now, hostSessionId := session.hostSessionId, scopeRef := session.scopeRef
    laneRef := storageLane session.laneRef, generation := session.generation, runtimeId := some v.row.runtimeId
    eventKind := "runtime.stale", payload }

inductive Result where
  | done | refused | failed
  deriving DecidableEq

/-- The rows `age_runtime` writes once its comparison has held; it reads its clock twice. -/
def age (v : View) (session : Session) (drop : Bool) (reason now later : String) : Database :=
  let id := v.row.runtimeId
  let marked := updateRuntime db id (fun r => { r with status := .stale, statusChangedAt := some now, updatedAt := now })
    (fun _ => rfl) fun _ => rfl
  let dropped := if drop then dropContinuation marked v.row.hostSessionId now else marked
  let payload := stalePayload v reason drop
  let aged := updateRuntime (settleBroker dropped v later) id (fun r => { r with
    status := .stale, updatedAt := later, runtimeStateJson := some (Native.print (staleState v reason later payload)) })
    (fun _ => rfl) fun _ => rfl
  { aged with events := aged.events ++ [staleEvent session v later payload] }

def ageRuntime (v : View) (evidence : Option Invocation) (drop : Bool) (reason now later : String) : Result × Database :=
  if v.externalOwner then (.refused, db)
  else if !fence db v evidence then (.refused, db)
  else match db.sessions.find v.row.hostSessionId with
    | none => (.failed, db)
    | some session => (.done, age db v session drop reason now later)

/-- `Ok(true)` where a row was deleted. -/
def removed (id : String) : Result := if (db.runtimes.find id).isSome then .done else .refused

end Writes

inductive Kind where
  | aging (drop : Option Bool) (reason : String)
  | prune
  | dispose
  deriving DecidableEq

structure Request where
  kind : Kind
  dry : Bool
  yes : Bool
  deriving DecidableEq

def Request.writes (q : Request) : Bool :=
  match q.kind with
  | .aging _ _ => !q.dry
  | .prune | .dispose => !q.dry && q.yes

structure Selection where
  statuses : List Status
  transport : Option Transport
  scope : Option String
  cutoff : Int

inductive Phase where
  | idle
  | judging (v : View) (facts : Facts)
  | cleared (v : View) (facts : Facts) (clock : Int) (answer : Answer)
  deriving DecidableEq

structure Pass where
  id : Nat
  request : Request
  rest : List View
  phase : Phase
  deriving DecidableEq

structure State where
  db : Database
  world : World
  passes : Store Pass (·.id)

def start (db : Database) (world : World) : State := { db, world, passes := .empty }

variable [Native] (serverSocket : String)

/-- `runtime_row`: a state whose text does not parse is an error. -/
def read (r : Runtime) : Option View :=
  match r.runtimeStateJson with
  | none => some ⟨r, none⟩
  | some text => (Native.parse text).map fun v => ⟨r, some v⟩

def selected (q : Selection) (v : View) : Bool :=
  (match v.row.transport with
    | .other _ => false
    | _ => true)
    && q.transport.all (v.row.transport == ·) && q.statuses.contains v.row.status
    && q.scope.all (fun s => s.toList.isPrefixOf v.row.scopeRef.toList)
    && (Native.parseDate (v.row.lastActivityAt.getD v.row.createdAt)).any fun n => decide (n ≤ q.cutoff)

def judge (q : Request) (v : View) (facts : Facts) (w : World) : Judgement :=
  match q.kind with
  | .aging _ _ => v.aging facts w
  | .prune => v.pruneGuard facts w.clock (w.answer serverSocket v.asks)
  | .dispose => v.disposeGuard facts w.clock (w.answer serverSocket v.asks)

/-- The write of a pass; a `fault` is a storage error, which rolls its transaction back. -/
def attempt (db : Database) (q : Request) (v : View) (facts : Facts) (now later : String) (fault : Bool) : Result × Database :=
  if fault then (.failed, db)
  else match q.kind with
    | .aging drop reason =>
      ageRuntime db v facts.invocation (drop.getD (v.row.transport != .tmux && v.row.activeRunId.isSome)) reason now later
    | .prune => (removed db v.row.runtimeId, prune db v.row.runtimeId now)
    | .dispose => (removed db v.row.runtimeId, disposeRetainedRuntime db v.row.runtimeId now)

namespace State

variable (s : State)

def begin (pass : Nat) (request : Request) (selection : Selection) : State :=
  if request.kind = .dispose then s
  else match (s.db.runtimes.rows.filter fun r => selection.statuses.contains r.status).mapM read with
  | none => s
  | some views => { s with passes := s.passes.add ⟨pass, request, views.filter (selected selection), .idle⟩ }

def beginDispose (pass : Nat) (dry yes : Bool) (runtime : String) : State :=
  match (s.db.runtimes.find runtime).bind read with
  | none => s
  | some v => { s with passes := s.passes.add ⟨pass, ⟨.dispose, dry, yes⟩, [v], .idle⟩ }

def move (p : Pass) : State := { s with passes := s.passes.amend p.id (fun _ => true) (fun q => { p with id := q.id }) fun _ => rfl }

def advance (p : Pass) (now later : String) (fault : Bool) : State :=
  match p.phase, p.rest with
  | .idle, [] => { s with passes := s.passes.erase fun q => q.id == p.id }
  | .idle, v :: rest =>
    if fault then s.move { p with rest } else s.move { p with rest, phase := .judging v (s.db.maintenanceFacts v) }
  | .judging v facts, _ =>
    if p.request.writes && judge serverSocket p.request v facts s.world = .clear then
      s.move { p with phase := .cleared v facts s.world.clock (s.world.answer serverSocket v.asks) }
    else s.move { p with phase := .idle }
  | .cleared v facts _ _, _ =>
    { s.move { p with phase := .idle } with db := (attempt s.db p.request v facts now later fault).2 }

def onPass (pass : Nat) (f : Pass → State) : State :=
  match s.passes.find pass with
  | none => s
  | some p => f p

end State

inductive Action where
  | begin (pass : Nat) (request : Request) (selection : Selection)
  | beginDispose (pass : Nat) (dry yes : Bool) (runtime : String)
  | advance (pass : Nat) (now later : String) (fault : Bool)
  | write (db : Database)
  | world (w : World)

def step (a : Action) (s : State) : State :=
  match a with
  | .begin pass request selection => s.begin pass request selection
  | .beginDispose pass dry yes runtime => s.beginDispose pass dry yes runtime
  | .advance pass now later fault => s.onPass pass fun p => s.advance serverSocket p now later fault
  | .write db => { s with db }
  | .world w => { s with world := w }

end HrcRuntime.Maintenance
