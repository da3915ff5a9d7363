import HrcRuntime.Keyed
import HrcRuntime.Schedule
import HrcRuntime.SessionMetadata

namespace HrcRuntime.SeatAnnotations

open Keyed Json

def ANNOTATION_BODY_MAX : Nat := 65536
def ANNOTATION_QUOTA : Nat := 256
def ID_MAX : Nat := 200

abbrev Millis := Int

/-- The instant a text is the `to_rfc3339_opts(Millis, true)` rendering of. -/
class Clock where
  instant : String → Option Millis

inductive AnnotationRefusal where
  | invalid (reason : String)
  | unknownGeneration
  | unknownHostSession
  | quota
  | staleGeneration
  | staleAttention
  | staleAnnotation
  | unknownAnnotation

namespace AnnotationRefusal

def code : AnnotationRefusal → String
  | invalid _ => "annotation_invalid"
  | unknownGeneration => "unknown_generation"
  | unknownHostSession => "unknown_host_session"
  | quota => "annotation_quota"
  | staleGeneration => "stale_generation"
  | staleAttention => "stale_attention"
  | staleAnnotation => "stale_annotation"
  | unknownAnnotation => "unknown_annotation"

end AnnotationRefusal

abbrev Admission (α : Type) := Except AnnotationRefusal α

structure AnnotationKey where
  scope : String
  lane : String
  subject : String
  generation : Option Int := none
  ns : String
  kind : String
  id : String

structure AnnotationPut where
  key : AnnotationKey
  body : Json
  expect : Option Json := none
  updatedBy : String

/-- What `expect.updatedAt` asks of the row; a text that renders no instant is no row's. -/
inductive ExpectedStamp where
  | absent
  | at (stamp : Option Millis)

structure Expect where
  generation : Option Int := none
  attentionAt : Option String := none
  updatedAt : Option ExpectedStamp := none

section Validation

def label_reason (field value : String) : Admission Unit :=
  if !SessionMetadata.keyPattern value || 128 < value.utf8ByteSize then
    .error (.invalid (field ++
      ": key must have 1–4 valid segments (at most 64 characters each) and at most 128 bytes"))
  else .ok ()

def isControl (c : Char) : Bool := c.toNat < 32 || (127 ≤ c.toNat && c.toNat ≤ 159)

def text_reason (field value : String) : Admission Unit :=
  if value.isEmpty || ID_MAX < value.utf8ByteSize then
    .error (.invalid (field ++ " must be 1–" ++ toString ID_MAX ++ " bytes"))
  else if value.toList.any isControl then .error (.invalid (field ++ " must not contain control characters"))
  else .ok ()

def validate_subject (key : AnnotationKey) : Admission Unit :=
  if key.subject = "seat" then
    if key.generation.isSome then .error (.invalid "generation is only valid for subject generation") else .ok ()
  else if key.subject = "generation" then
    if key.generation.any (1 ≤ ·) then .ok ()
    else .error (.invalid "subject generation requires a positive generation")
  else .error (.invalid "subject must be seat or generation")

def validate_key (key : AnnotationKey) : Admission Unit := do
  validate_subject key
  label_reason "ns" key.ns
  label_reason "kind" key.kind
  text_reason "id" key.id

def validate_object (field : String) (value : Json) : Admission Unit :=
  if !value.isRecord then .error (.invalid (field ++ " must be a JSON object"))
  else
    let size := value.stringify.utf8ByteSize
    if ANNOTATION_BODY_MAX < size then
      .error (.invalid ("serialized " ++ field ++ " is " ++ toString size ++ " bytes; at most "
        ++ toString ANNOTATION_BODY_MAX))
    else .ok ()

variable [Clock]

def parse_field (out : Expect) (key : String) (value : Json) : Admission Expect :=
  if key = "generation" then
    match value with
    | .num n => .ok { out with generation := some n }
    | _ => .error (.invalid "expect.generation must be an integer")
  else if key = "attentionAt" then
    match value with
    | .str s => .ok { out with attentionAt := some s }
    | _ => .error (.invalid "expect.attentionAt must be a string")
  else if key = "updatedAt" then
    match value with
    | .null => .ok { out with updatedAt := some .absent }
    | .str s => .ok { out with updatedAt := some (.at (Clock.instant s)) }
    | _ => .error (.invalid "expect.updatedAt must be a string or null")
  else .error (.invalid ("unknown expect field " ++ key))

def parse_fields (out : Expect) : Fields → Admission Expect
  | .nil => .ok out
  | .cons key value rest => do parse_fields (← parse_field out key value) rest

def parse_expect : Option Json → Admission Expect
  | none => .ok {}
  | some (.obj fields) => parse_fields {} fields
  | some _ => .error (.invalid "expect must be a JSON object")

end Validation

/-- `bounded_principal`: at most 256 bytes, with an ellipsis where the text was cut. -/
def bounded_principal (updatedBy : String) : String :=
  if updatedBy.utf8ByteSize ≤ 256 then updatedBy
  else
    let kept := updatedBy.toList.foldl (fun (s, open_) c =>
      if open_ && s.utf8ByteSize + c.utf8Size + 3 ≤ 256 then (s.push c, true) else (s, false)) ("", true)
    kept.1.push '…'

def storage_lane (lane : String) : String :=
  if "lane:".toList.isPrefixOf lane.toList then String.ofList (lane.toList.drop 5) else lane

def canonical_lane (lane : String) : String :=
  if lane = "main" || lane = "lane:main" then "main"
  else if "lane:".toList.isPrefixOf lane.toList then lane
  else "lane:" ++ lane

structure Session where
  hostSessionId : String
  scopeRef : String
  laneRef : String
  generation : Int

/-- What the other tables answer: the active session of a continuity, a generation's session and the
`at` of a session's live attention. -/
structure Sessions where
  continuity_session : String → String → Option Session := fun _ _ => none
  generation_session : String → String → Int → Option Session := fun _ _ _ => none
  live_attention : String → Int → Option String := fun _ _ => none

structure RowKey where
  scopeRef : String
  laneRef : String
  hostSessionId : String
  ns : String
  kind : String
  id : String
  deriving DecidableEq

/-- A row of `seat_annotations`. -/
structure Annotation where
  key : RowKey
  subject : String
  generation : Option Int
  body : Json
  fence : Option Json
  createdAt : Millis
  updatedAt : Millis
  updatedBy : String

structure Event where
  ts : Millis
  hostSessionId : String
  scopeRef : String
  laneRef : String
  generation : Int
  eventKind : String
  payload : Json

structure Written where
  key : RowKey
  stamp : Option Millis

structure State where
  rows : Store Annotation Annotation.key := .empty
  events : List Event := []
  sessions : Sessions := {}
  log : List Written := []

structure Subject where
  active : Session
  session : Session
  host : String

/-- `advance`: strictly after the row's own stamp. -/
def advance (previous : Option Millis) (now : Millis) : Millis :=
  match previous with
  | some prev => if now ≤ prev then prev + 1 else now
  | none => now

namespace State

variable (s : State) (key : AnnotationKey)

def annotation_subject : Admission Subject :=
  let lane := storage_lane key.lane
  match s.sessions.continuity_session key.scope lane with
  | none => .error .unknownHostSession
  | some active =>
    match key.generation with
    | none => .ok { active, session := active, host := "" }
    | some generation =>
      match s.sessions.generation_session key.scope lane generation with
      | none => .error .unknownGeneration
      | some session => .ok { active, session, host := session.hostSessionId }

def row_key (host : String) : RowKey :=
  { scopeRef := key.scope, laneRef := storage_lane key.lane, hostSessionId := host, ns := key.ns, kind := key.kind
    id := key.id }

def annotation_row (host : String) : Option Annotation := s.rows.find (row_key key host)

def check_fences (expect : Expect) (subject : Subject) (row : Option Annotation) : Admission Unit :=
  if expect.generation.any (· != subject.active.generation) then .error .staleGeneration
  else if expect.attentionAt.any fun at_ =>
      s.sessions.live_attention subject.active.hostSessionId subject.active.generation != some at_ then
    .error .staleAttention
  else match expect.updatedAt with
    | none => .ok ()
    | some .absent => if row.isNone then .ok () else .error AnnotationRefusal.staleAnnotation
    | some (.at stamp) => if row.any fun r => some r.updatedAt == stamp then .ok () else .error AnnotationRefusal.staleAnnotation

def annotation_event (subject : Subject) (eventKind : String) (extra : Fields) (ts : Millis) : Event :=
  { ts, hostSessionId := subject.session.hostSessionId, scopeRef := subject.session.scopeRef
    laneRef := subject.session.laneRef, generation := subject.session.generation, eventKind
    payload := .obj (((Json.object
      [("scopeRef", Json.str key.scope), ("laneRef", Json.str (canonical_lane (storage_lane key.lane))),
        ("subject", Json.str key.subject), ("generation", (key.generation.map Json.num).getD Json.null),
        ("ns", Json.str key.ns), ("kind", Json.str key.kind), ("id", Json.str key.id)]).recordFields).assign extra) }

def held (scope lane host : String) : List Annotation :=
  s.rows.rows.filter fun r => r.key.scopeRef == scope && r.key.laneRef == lane && r.key.hostSessionId == host

def merge (excluded : Annotation) (row : Annotation) : Annotation :=
  { row with body := excluded.body, fence := excluded.fence, updatedAt := excluded.updatedAt
             updatedBy := excluded.updatedBy }

theorem merge_key (excluded row : Annotation) : (merge excluded row).key = row.key := rfl

variable [Clock]

/-- Every check of `put_annotation`, inside and before its transaction. -/
def admit_put (put : AnnotationPut) : Admission (Subject × Option Annotation) := do
  validate_key put.key
  validate_object "body" put.body
  let expect ← parse_expect put.expect
  let subject ← s.annotation_subject put.key
  let row := s.annotation_row put.key subject.host
  s.check_fences expect subject row
  if row.isNone && ANNOTATION_QUOTA ≤ (s.held put.key.scope (storage_lane put.key.lane) subject.host).length then
    .error .quota
  else .ok (subject, row)

def changed (op updatedBy : String) : Fields := (Json.object [("op", Json.str op), ("updatedBy", Json.str updatedBy)]).recordFields

def excluded (put : AnnotationPut) (subject : Subject) (row : Option Annotation) (now : Millis) : Annotation :=
  let stamp := advance (row.map (·.updatedAt)) now
  { key := row_key put.key subject.host, subject := put.key.subject, generation := put.key.generation, body := put.body
    fence := put.expect, createdAt := stamp, updatedAt := stamp, updatedBy := bounded_principal put.updatedBy }

def put_annotation (put : AnnotationPut) (now ts : Millis) : Admission (Option Annotation × Bool) × State :=
  match s.admit_put put with
  | .error refusal => (.error refusal, s)
  | .ok (subject, row) =>
    let row' := excluded put subject row now
    let rows := s.rows.upsert row' (merge row') (merge_key row')
    (.ok (rows.find row'.key, row.isNone),
      { s with
        rows
        events := s.events ++ [annotation_event put.key subject "session.annotation.changed"
          (changed "put" (bounded_principal put.updatedBy)) ts]
        log := s.log ++ [{ key := row'.key, stamp := some row'.updatedAt }] })

def admit_delete (expect : Option Json) : Admission (Subject × Option Annotation) := do
  validate_key key
  let expect ← parse_expect expect
  let subject ← s.annotation_subject key
  let row := s.annotation_row key subject.host
  s.check_fences expect subject row
  .ok (subject, row)

def delete_annotation (expect : Option Json) (updatedBy : String) (ts : Millis) : Admission Bool × State :=
  match s.admit_delete key expect with
  | .error refusal => (.error refusal, s)
  | .ok (_, none) => (.ok false, s)
  | .ok (subject, some _) =>
    (.ok true,
      { s with
        rows := s.rows.erase fun r => r.key == row_key key subject.host
        events := s.events ++ [annotation_event key subject "session.annotation.changed"
          (changed "delete" (bounded_principal updatedBy)) ts]
        log := s.log ++ [{ key := row_key key subject.host, stamp := none }] })

def admit_act (action : String) (attributes : Option Json) : Admission Subject := do
  validate_key key
  text_reason "action" action
  attributes.elim (.ok ()) (validate_object "attributes")
  let subject ← s.annotation_subject key
  if (s.annotation_row key subject.host).isNone then .error AnnotationRefusal.unknownAnnotation else .ok subject

/-- The answer's `hrcSeq` counts the events of this model. -/
def act_annotation (action : String) (attributes : Option Json) (ts : Millis) : Admission Nat × State :=
  match s.admit_act key action attributes with
  | .error refusal => (.error refusal, s)
  | .ok subject =>
    let extra := Json.object [("action", Json.str action), ("attributes", attributes.getD (.obj .nil))]
    (.ok (s.events.length + 1),
      { s with events := s.events ++ [annotation_event key subject "session.annotation.action" extra.recordFields ts] })

end State

inductive Action where
  | put (put : AnnotationPut) (now ts : Millis)
  | delete (key : AnnotationKey) (expect : Option Json) (updatedBy : String) (ts : Millis)
  | act (key : AnnotationKey) (action : String) (attributes : Option Json) (ts : Millis)
  | sessionsChanged (sessions : Sessions)

variable [Clock]

def step (a : Action) (s : State) : State :=
  match a with
  | .put put now ts => ( s.put_annotation put now ts).2
  | .delete key expect updatedBy ts => (s.delete_annotation key expect updatedBy ts).2
  | .act key action attributes ts => (s.act_annotation key action attributes ts).2
  | .sessionsChanged sessions => { s with sessions }

def initial : State := {}

end HrcRuntime.SeatAnnotations
