import HrcRuntime.Keyed
import HrcRuntime.MetadataKeys
import HrcRuntime.Relational
import HrcRuntime.Schedule

namespace HrcRuntime.SessionMetadata

open Keyed OrderedMap

inductive Source where
  | launch
  | hrc
  | api
  deriving DecidableEq

def precedence : Source → Nat
  | .api => 3
  | .launch => 2
  | .hrc => 1

/-- A `session_metadata` row; `value_json` is kept as the value it is the text of. -/
structure Row where
  scopeRef : String
  laneRef : String
  key : String
  source : Source
  valueJson : Value
  updatedAt : String
  updatedBy : String

/-- The primary key of `session_metadata`. -/
structure RowKey where
  scopeRef : String
  laneRef : String
  key : String
  source : Source
  deriving DecidableEq

def Row.rowKey (r : Row) : RowKey := ⟨r.scopeRef, r.laneRef, r.key, r.source⟩

inductive ChangeOp where
  | set
  | clear
  deriving DecidableEq

inductive Payload where
  | changed (scopeRef laneRef key : String) (op : ChangeOp) (source : Source) (resolved : Option (Value × Source))
  | rejected (rejection : Rejection)

/-- A lifecycle event of the session category, as `append` writes it. -/
structure Event where
  ts : String
  hostSessionId : String
  scopeRef : String
  laneRef : String
  generation : Nat
  payload : Payload

/-- The tables a write reads: the active session of each continuity, the generation of each session, the metadata
rows and the event log. -/
structure Db where
  continuities : String → String → Option String
  sessions : String → Option Nat
  metadata : Store Row Row.rowKey
  events : List Event

def Db.rows (db : Db) (scopeRef laneRef : String) : List Row :=
  Relational.orderBy (fun r => 3 - precedence r.source)
    (db.metadata.rows.filter fun r => r.scopeRef = scopeRef ∧ r.laneRef = laneRef)

structure Shadowed where
  source : Source
  value : Value
  updatedBy : String
  updatedAt : String

structure SourceRecord where
  source : Source
  updatedBy : String
  updatedAt : String
  registered : Option Bool
  shadowed : List Shadowed

structure Response where
  metadata : List (String × Tree)
  metadataSources : List (String × SourceRecord)

def shadowedBy (row : Row) : Shadowed := ⟨row.source, row.valueJson, row.updatedBy, row.updatedAt⟩

def sourceRecord (row : Row) : SourceRecord :=
  ⟨row.source, row.updatedBy, row.updatedAt,
    if row.key ∈ keys registeredSessionMetadata then none else some false, []⟩

/-- One turn of the loop of `get`. -/
def resolveRow (acc : List (String × Value) × List (String × SourceRecord)) (row : Row) :
    List (String × Value) × List (String × SourceRecord) :=
  if row.key ∈ keys acc.1 then
    match OrderedMap.get row.key acc.2 with
    | some winner => (acc.1, set row.key { winner with shadowed := winner.shadowed ++ [shadowedBy row] } acc.2)
    | none => acc
  else (set row.key row.valueJson acc.1, set row.key (sourceRecord row) acc.2)

/-- `get`; no result where nesting throws. -/
def Db.get (db : Db) (scopeRef laneRef : String) : Option Response :=
  let resolved := (db.rows scopeRef laneRef).foldl resolveRow ([], [])
  (nestSessionMetadata resolved.1).map fun metadata => ⟨metadata, resolved.2⟩

structure WriteInput where
  scopeRef : String
  laneRef : String
  source : Source
  set : Option Input
  clear : List String
  replace : Bool
  updatedBy : String
  updatedAt : Option String

inductive WriteError where
  | unknownContinuity (scopeRef laneRef : String)
  | invalid (rejected : List Rejection)
  | fault

def WriteInput.keeps (input : WriteInput) (key : String) : Bool := !input.replace && !input.clear.contains key

def validation (db : Db) (input : WriteInput) : Validation :=
  let before := db.rows input.scopeRef input.laneRef
  let remaining := before.filter fun row => row.source ≠ input.source || input.keeps row.key
  let validation := validateSessionMetadata (input.set.getD (.obj [])) (remaining.map (·.key)) true
  (input.clear.foldl addKey []).foldl (fun validation key =>
    match validateSessionMetadataEntry key (some (.scalar .null)) false with
    | .error reason => validation.reject key reason
    | .ok _ => validation) validation

def desired (db : Db) (input : WriteInput) : List (String × Value) :=
  let kept := (db.rows input.scopeRef input.laneRef).filter fun row => row.source = input.source && input.keeps row.key
  setAll (validation db input).values (setAll (kept.map fun row => (row.key, row.valueJson)) [])

abbrev Change := String × ChangeOp

def clearRow (input : WriteInput) (desired : List (String × Value))
    (acc : Store Row Row.rowKey × List Change) (row : Row) : Store Row Row.rowKey × List Change :=
  if row.key ∈ keys desired then acc
  else (acc.1.erase fun r => r.rowKey = ⟨input.scopeRef, input.laneRef, row.key, input.source⟩,
    acc.2 ++ [(row.key, .clear)])

def WriteInput.row (input : WriteInput) (key : String) (value : Value) (now : String) : Row :=
  ⟨input.scopeRef, input.laneRef, key, input.source, value, now, truncateMetadataUpdatedBy input.updatedBy⟩

/-- `DO UPDATE SET` with the excluded row. -/
def Row.update (row old : Row) : Row :=
  { old with valueJson := row.valueJson, updatedAt := row.updatedAt, updatedBy := row.updatedBy }

theorem Row.rowKey_update (row old : Row) : (row.update old).rowKey = old.rowKey := rfl

def storeRow (metadata : Store Row Row.rowKey) (row : Row) : Store Row Row.rowKey :=
  metadata.upsert row row.update row.rowKey_update

def setRow (input : WriteInput) (before : List Row) (now : String)
    (acc : Store Row Row.rowKey × List Change) (entry : String × Value) : Store Row Row.rowKey × List Change :=
  if (before.find? fun row => row.key = entry.1 && row.source = input.source).map (·.valueJson) = some entry.2 then acc
  else (storeRow acc.1 (input.row entry.1 entry.2 now), acc.2 ++ [(entry.1, .set)])

def ownRows (db : Db) (input : WriteInput) : List Row :=
  (db.rows input.scopeRef input.laneRef).filter fun row => row.source = input.source

def applyDesired (db : Db) (input : WriteInput) (now : String) : Store Row Row.rowKey × List Change :=
  let cleared := (ownRows db input).foldl (clearRow input (desired db input)) (db.metadata, [])
  (desired db input).foldl (setRow input (db.rows input.scopeRef input.laneRef) now) cleared

variable (canonicalLaneRef : String → String)

def payloads (input : WriteInput) (after : List Row) (changed : List Change) (rejected : List Rejection) :
    List Payload :=
  changed.map (fun (key, op) => .changed input.scopeRef (canonicalLaneRef input.laneRef) key op input.source
    ((after.find? fun row => row.key = key).map fun row => (row.valueJson, row.source))) ++
  rejected.map .rejected

/-- `write`, in one transaction that a throw rolls back. `clock` is the time `updatedAt` defaults to. -/
def Db.write (db : Db) (input : WriteInput) (clock : String) :
    Except WriteError (Response × List Rejection) × Db :=
  match db.continuities input.scopeRef input.laneRef with
  | none => (.error (.unknownContinuity input.scopeRef input.laneRef), db)
  | some hostSessionId =>
    let rejected := (validation db input).rejected
    if input.source = .api ∧ rejected ≠ [] then (.error (.invalid rejected), db)
    else
      let now := input.updatedAt.getD clock
      let applied := applyDesired db input now
      let written := { db with metadata := applied.1 }
      match written.get input.scopeRef input.laneRef with
      | none => (.error .fault, db)
      | some response =>
        let payloads := payloads canonicalLaneRef input (written.rows input.scopeRef input.laneRef) applied.2 rejected
        match payloads, db.sessions hostSessionId with
        | [], _ => (.ok (response, rejected), written)
        | _ :: _, none => (.error .fault, db)
        | payloads, some generation =>
          let events := payloads.map fun payload =>
            ⟨now, hostSessionId, input.scopeRef, input.laneRef, generation, payload⟩
          (.ok (response, rejected), { written with events := db.events ++ events })

end HrcRuntime.SessionMetadata
