import HrcRuntime.Json
import HrcRuntime.Keyed
import HrcRuntime.SessionIndex
import Mathlib.Order.Defs.LinearOrder

namespace HrcRuntime.SessionIndexTriggers

open Keyed Json KeysetPaging SessionIndex

structure Lineage where
  scopeRef : String
  laneRef : String
  deriving DecidableEq

structure Session (τ : Type) where
  hostSessionId : String
  lineage : Lineage
  generation : Nat
  status : String
  lastAppliedIntent : Option Json := none
  continuation : Option Json := none
  createdAt : τ
  updatedAt : τ

structure Continuity where
  lineage : Lineage
  activeHostSessionId : String
  agentId : String
  projectId : Option String := none
  taskId : Option String := none

structure Runtime (τ : Type) where
  runtimeId : String
  hostSessionId : String
  generation : Nat
  status : String
  transport : String
  supportsInflightInput : Bool
  lastActivityAt : Option τ := none
  updatedAt : τ

inductive MetadataSource where
  | api | launch | hrc
  deriving DecidableEq

structure Metadata where
  lineage : Lineage
  key : String
  source : MetadataSource
  value : Json

structure LifecycleEvent (τ : Type) where
  hostSessionId : String
  generation : Nat
  ts : τ

/-- The columns of `session_index` that the view computes. -/
structure Projection (τ : Type) where
  lineage : Lineage
  hostSessionId : String
  generation : Nat
  agentId : String
  projectId : Option String
  taskId : Option String
  createdAt : τ
  effectiveStatus : SessionIndexEffectiveStatus
  executionMode : SessionIndexExecutionMode
  title : Option String

/-- A row of `session_index`, and of the view, which calls its last column `backfill_last_activity_at`. -/
structure IndexRow (τ : Type) extends Projection τ where
  lastActivityAt : τ

def Metadata.id (m : Metadata) : Lineage × String × MetadataSource := (m.lineage, m.key, m.source)

def IndexRow.key {τ : Type} (r : IndexRow τ) : Lineage := r.lineage

structure Database (τ : Type) where
  sessions : Store (Session τ) Session.hostSessionId
  continuities : Store Continuity Continuity.lineage
  runtimes : Store (Runtime τ) Runtime.runtimeId
  metadata : Store Metadata Metadata.id
  events : List (LifecycleEvent τ)
  index : Store (IndexRow τ) IndexRow.key

def Database.empty {τ : Type} : Database τ := ⟨.empty, .empty, .empty, .empty, [], .empty⟩

/-- Why a statement is rolled back: a constraint of the table it writes, or one of `session_index` in a trigger. -/
inductive Failure where
  | source | index

def isLike (pattern status : String) : Bool := like none pattern.toList status.toLower.toList

/-- `effective_status` of a session and the status of its latest runtime. -/
def effectiveStatus (session : String) (runtime : Option String) : SessionIndexEffectiveStatus :=
  if isLike "%stale%" session then .stale
  else if isLike "%inactive%" session || isLike "%archived%" session || isLike "%closed%" session ||
    isLike "%terminated%" session then .inactive
  else if runtime.any (·.toLower == "detached") then .detached
  else if runtime.any (isLike "%stale%") then .stale
  else if runtime.all (["dead", "stopped", "crashed", "exited", "terminated"].contains ·.toLower) then .inactive
  else .active

/-- `json_extract(last_applied_intent_json, '$.execution.preferredMode')`, where it is one of the three modes. -/
def preferredMode (intent : Option Json) : Option SessionIndexExecutionMode :=
  match (intent.bind fun json => json.member "execution").bind fun execution => execution.stringField "preferredMode" with
  | some "headless" => some .headless
  | some "interactive" => some .interactive
  | some "nonInteractive" => some .nonInteractive
  | _ => none

variable {τ : Type}

def executionMode (intent : Option Json) (runtime : Option (Runtime τ)) : SessionIndexExecutionMode :=
  match preferredMode intent with
  | some mode => mode
  | none =>
    if runtime.any (·.transport == "headless") then .headless
    else if runtime.any (·.supportsInflightInput) then .interactive
    else .nonInteractive

/-- `ORDER BY CASE source WHEN 'api' THEN 3 WHEN 'launch' THEN 2 ELSE 1 END DESC`. -/
def MetadataSource.precedence : MetadataSource → Nat
  | .api => 3
  | .launch => 2
  | .hrc => 1

def byPrecedence (a b : Metadata) : Ordering := compare b.source.precedence a.source.precedence

def Runtime.isOf (host : String) (generation : Nat) (r : Runtime τ) : Bool :=
  r.hostSessionId == host && r.generation == generation

def LifecycleEvent.isOf (host : String) (generation : Nat) (e : LifecycleEvent τ) : Bool :=
  e.hostSessionId == host && e.generation == generation

def IndexRow.isOf (host : String) (generation : Nat) (r : IndexRow τ) : Bool :=
  r.hostSessionId == host && r.generation == generation

def Metadata.isTitleOf (lineage : Lineage) (m : Metadata) : Bool := m.lineage == lineage && m.key == "title"

variable [LinearOrder τ]

/-- `ORDER BY updated_at DESC, runtime_id DESC`. -/
def byRecency (a b : Runtime τ) : Ordering :=
  (compare b.updatedAt a.updatedAt).then (compare b.runtimeId a.runtimeId)

namespace Database

def latestRuntime (db : Database τ) (host : String) (generation : Nat) : Option (Runtime τ) :=
  (sortBy byRecency (db.runtimes.rows.filter (Runtime.isOf host generation))).head?

omit [LinearOrder τ] in
def title (db : Database τ) (lineage : Lineage) : Option String :=
  (sortBy byPrecedence (db.metadata.rows.filter (Metadata.isTitleOf lineage))).head?.bind fun m => m.value.asString

/-- `COALESCE((SELECT MAX(e.ts) ...), r.last_activity_at, s.updated_at)`. -/
def backfill (db : Database τ) (s : Session τ) : τ :=
  match ((db.events.filter (LifecycleEvent.isOf s.hostSessionId s.generation)).map (·.ts)).max? with
  | some ts => ts
  | none => ((db.latestRuntime s.hostSessionId s.generation).bind (·.lastActivityAt)).getD s.updatedAt

def joined (db : Database τ) (s : Session τ) (c : Continuity) : IndexRow τ :=
  { lineage := s.lineage
    hostSessionId := s.hostSessionId
    generation := s.generation
    agentId := c.agentId
    projectId := c.projectId
    taskId := c.taskId
    createdAt := s.createdAt
    effectiveStatus := effectiveStatus s.status ((db.latestRuntime s.hostSessionId s.generation).map (·.status))
    executionMode := executionMode s.lastAppliedIntent (db.latestRuntime s.hostSessionId s.generation)
    title := db.title s.lineage
    lastActivityAt := db.backfill s }

def sourceRow (db : Database τ) (s : Session τ) : Option (IndexRow τ) :=
  (db.continuities.find s.lineage).bind fun c =>
    if c.activeHostSessionId = s.hostSessionId then some (db.joined s c) else none

/-- `session_index_projection_source`. -/
def view (db : Database τ) : List (IndexRow τ) := db.sessions.rows.filterMap db.sourceRow

/-- `SELECT ... FROM session_index_projection_source WHERE host_session_id = host`. -/
def atHost (db : Database τ) (host : String) : Option (IndexRow τ) := db.view.find? (·.hostSessionId == host)

/-- An `UPDATE session_index` whose columns come from the view's row of `host`. A column it has no row for becomes
`NULL`, which the table refuses. -/
def refresh (db : Database τ) (host : String) (p : IndexRow τ → Bool) (set : IndexRow τ → IndexRow τ → IndexRow τ)
    (hset : ∀ v r, (set v r).key = r.key) : Except Failure (Database τ) :=
  match db.atHost host with
  | some v => .ok { db with index := db.index.alter p (set v) (hset v) }
  | none => if db.index.rows.any p then .error .index else .ok db

/-- The same with `COALESCE(..., column)`. -/
def refreshKept (db : Database τ) (host : String) (p : IndexRow τ → Bool) (set : IndexRow τ → IndexRow τ → IndexRow τ)
    (hset : ∀ v r, (set v r).key = r.key) : Database τ :=
  match db.atHost host with
  | some v => { db with index := db.index.alter p (set v) (hset v) }
  | none => db

/-- `INSERT INTO session_index ... ON CONFLICT(scope_ref, lane_ref) DO UPDATE`; `host_session_id` is `UNIQUE`. -/
def enter (db : Database τ) (v : IndexRow τ) : Except Failure (Database τ) :=
  if db.index.rows.any fun r => r.hostSessionId == v.hostSessionId && r.lineage != v.lineage then .error .index
  else .ok { db with index := db.index.upsert v (fun r => { v with lineage := r.lineage }) fun _ => rfl }

/-- `session_index_continuity_insert` and `session_index_continuity_update`. -/
def project (db : Database τ) (lineage : Lineage) : Except Failure (Database τ) :=
  (db.view.filter (·.lineage == lineage)).foldlM enter db

/-- `session_index_metadata_insert`, `_update` and `_delete`. -/
def retitle (db : Database τ) (lineage : Lineage) (key : String) : Database τ :=
  if key = "title" then
    { db with index := db.index.alter (·.lineage == lineage) (fun r => { r with title := db.title lineage }) fun _ => rfl }
  else db

end Database

/-- The columns `session_index_session_derived_update` sets. -/
def sessionColumns (v r : IndexRow τ) : IndexRow τ :=
  { r with
    agentId := v.agentId
    projectId := v.projectId
    effectiveStatus := v.effectiveStatus
    executionMode := v.executionMode }

def runtimeColumns (activity : Option τ) (v r : IndexRow τ) : IndexRow τ :=
  { r with
    effectiveStatus := v.effectiveStatus
    executionMode := v.executionMode
    lastActivityAt := max r.lastActivityAt (activity.getD r.lastActivityAt) }

inductive Statement (τ : Type) where
  | insertSession (s : Session τ)
  | updateStatus (host status : String) (updatedAt : τ)
  | updateIntent (host : String) (intent : Option Json) (updatedAt : τ)
  | updateContinuation (host : String) (continuation : Option Json) (updatedAt : τ)
  | upsertContinuity (c : Continuity)
  | insertRuntime (r : Runtime τ)
  | updateRuntime (r : Runtime τ)
  | deleteRuntime (runtimeId : String)
  | setMetadata (m : Metadata)
  | clearMetadata (id : Lineage × String × MetadataSource)
  | appendEvent (e : LifecycleEvent τ)

namespace Database

/-- An update of a session's status, intent or continuation, then `session_index_session_derived_update`. -/
def updateSession (db : Database τ) (host : String) (f : Session τ → Session τ)
    (hf : ∀ s, (f s).hostSessionId = s.hostSessionId) : Except Failure (Database τ) :=
  if (db.sessions.find host).isSome then
    { db with sessions := db.sessions.amend host (fun _ => true) f hf }.refresh host (·.hostSessionId == host)
      sessionColumns fun _ _ => rfl
  else .ok db

def execute (db : Database τ) : Statement τ → Except Failure (Database τ)
  | .insertSession s =>
    if (db.sessions.find s.hostSessionId).isSome then .error .source
    else .ok { db with sessions := db.sessions.add s }
  | .updateStatus host status updatedAt =>
    db.updateSession host (fun s => { s with status, updatedAt }) fun _ => rfl
  | .updateIntent host intent updatedAt =>
    db.updateSession host (fun s => { s with lastAppliedIntent := intent, updatedAt }) fun _ => rfl
  | .updateContinuation host continuation updatedAt =>
    db.updateSession host (fun s => { s with continuation, updatedAt }) fun _ => rfl
  | .upsertContinuity c =>
    { db with
      continuities := db.continuities.upsert c (fun old => { old with activeHostSessionId := c.activeHostSessionId })
        fun _ => rfl }.project c.lineage
  | .insertRuntime r =>
    if (db.runtimes.find r.runtimeId).isSome then .error .source
    else { db with runtimes := db.runtimes.add r }.refresh r.hostSessionId (IndexRow.isOf r.hostSessionId r.generation)
      (runtimeColumns r.lastActivityAt) fun _ _ => rfl
  | .updateRuntime r =>
    match db.runtimes.find r.runtimeId with
    | none => .ok db
    | some old =>
      ({ db with
        runtimes := db.runtimes.amend r.runtimeId (fun _ => true) (fun a => { r with runtimeId := a.runtimeId })
          fun _ => rfl }.refreshKept old.hostSessionId (IndexRow.isOf old.hostSessionId old.generation)
        (runtimeColumns none) fun _ _ => rfl).refresh r.hostSessionId (IndexRow.isOf r.hostSessionId r.generation)
        (runtimeColumns r.lastActivityAt) fun _ _ => rfl
  | .deleteRuntime runtimeId =>
    match db.runtimes.find runtimeId with
    | none => .ok db
    | some old =>
      { db with runtimes := db.runtimes.erase (·.runtimeId == runtimeId) }.refresh old.hostSessionId
        (IndexRow.isOf old.hostSessionId old.generation) (runtimeColumns none) fun _ _ => rfl
  | .setMetadata m =>
    .ok ({ db with
      metadata := db.metadata.upsert m (fun old => { old with value := m.value }) fun _ => rfl }.retitle m.lineage m.key)
  | .clearMetadata id =>
    match db.metadata.find id with
    | none => .ok db
    | some old => .ok ({ db with metadata := db.metadata.erase (·.id == id) }.retitle old.lineage old.key)
  | .appendEvent e =>
    .ok { db with
      events := db.events ++ [e]
      index := db.index.alter (IndexRow.isOf e.hostSessionId e.generation)
        (fun r => { r with lastActivityAt := max r.lastActivityAt e.ts }) fun _ => rfl }

/-- The write that created or moves a continuity comes after the insert of the session it points to, in its scope and
lane. Every caller has just inserted that session, so a move is to another session. -/
def allows (db : Database τ) : Statement τ → Bool
  | .upsertContinuity c =>
    (db.sessions.find c.activeHostSessionId).any (·.lineage == c.lineage) &&
      (db.continuities.find c.lineage).all (·.activeHostSessionId != c.activeHostSessionId)
  | _ => true

def written (db : Database τ) : Statement τ → Option (Runtime τ)
  | .insertRuntime r => if (db.runtimes.find r.runtimeId).isSome then none else some r
  | .updateRuntime r => (db.runtimes.find r.runtimeId).map fun _ => r
  | _ => none

/-- The host session `session_index` shows for a scope and lane. -/
def hostOf (db : Database τ) (lineage : Lineage) : Option String := (db.index.find lineage).map (·.hostSessionId)

end Database

def step (a : Statement τ) (db : Database τ) : Database τ :=
  match db.execute a with
  | .ok db' => db'
  | .error _ => db

end HrcRuntime.SessionIndexTriggers
