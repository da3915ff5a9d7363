import HrcRuntime.Json
import HrcRuntime.Relational

namespace HrcRuntime.EventFilters

open Json Relational

structure HrcEventRow where
  hrcSeq : Nat
  streamSeq : Nat
  sourceRef : Option String := none
  originSeq : Option Nat := none
  ts : String
  hostSessionId : String
  scopeRef : String
  laneRef : String
  generation : Nat
  runtimeId : Option String := none
  runId : Option String := none
  launchId : Option String := none
  appId : Option String := none
  appSessionKey : Option String := none
  category : String
  eventKind : String
  transport : Option String := none
  errorCode : Option String := none
  replayed : Nat := 0
  evidenceOrigin : Option String := none
  payloadJson : String := "\x7b\x7d"
  deriving DecidableEq

structure HrcLifecycleEvent where
  hrcSeq : Nat
  streamSeq : Nat
  sourceRef : Option String
  originSeq : Option Nat
  ts : String
  hostSessionId : String
  scopeRef : String
  laneRef : String
  generation : Nat
  runtimeId : Option String
  runId : Option String
  launchId : Option String
  appId : Option String
  appSessionKey : Option String
  category : String
  eventKind : String
  transport : Option String
  errorCode : Option String
  replayed : Bool
  evidenceOrigin : Option String
  payload : Json
  identity : Option Json

/-- `null` asks for the events of this node's own ledger. -/
inductive SourceFilter where
  | null
  | ref (sourceRef : String)

structure HrcEventsRouteFilters where
  sourceRef : Option SourceFilter := none
  hostSessionId : Option String := none
  generation : Option Nat := none
  scopeRef : Option String := none
  laneRef : Option String := none
  runtimeId : Option String := none
  runId : Option String := none
  eventKind : Option String := none
  category : Option String := none

/-- What `mapRow` takes from elsewhere: the spelling of lanes, the stored payloads and the identities of sessions. -/
structure RowReader where
  canonicalLaneRef : String → String
  payload : String → Json
  identity : String → String → Option Json

variable (reader : RowReader)

def mapRow (row : HrcEventRow) : HrcLifecycleEvent where
  hrcSeq := row.hrcSeq
  streamSeq := row.streamSeq
  sourceRef := row.sourceRef
  originSeq := row.originSeq
  ts := row.ts
  hostSessionId := row.hostSessionId
  scopeRef := row.scopeRef
  laneRef := reader.canonicalLaneRef row.laneRef
  generation := row.generation
  runtimeId := row.runtimeId
  runId := row.runId
  launchId := row.launchId
  appId := row.appId
  appSessionKey := row.appSessionKey
  category := row.category
  eventKind := row.eventKind
  transport := row.transport
  errorCode := row.errorCode
  replayed := row.replayed != 0
  evidenceOrigin := row.evidenceOrigin.filter (· == "retained")
  payload := reader.payload row.payloadJson
  identity := reader.identity row.scopeRef row.laneRef

@[simp] theorem mapRow_hrcSeq (row : HrcEventRow) : (mapRow reader row).hrcSeq = row.hrcSeq := rfl

/-- `column = ?`: a null column equals nothing. -/
def columnEquals {α : Type} [DecidableEq α] (column : Option α) (value : α) : Bool := column == some value

def SourceFilter.accepts (sourceRef : Option String) : SourceFilter → Bool
  | .null => sourceRef.isNone
  | .ref value => columnEquals sourceRef value

/-- The predicates of `buildLifecycleWhere` on a row. -/
def buildLifecycleWhere (filters : HrcEventsRouteFilters) (row : HrcEventRow) : Bool :=
  filters.hostSessionId.all (row.hostSessionId == ·) &&
  filters.sourceRef.all (SourceFilter.accepts row.sourceRef) &&
  filters.generation.all (row.generation == ·) &&
  filters.scopeRef.all (row.scopeRef == ·) &&
  filters.laneRef.all (row.laneRef == ·) &&
  filters.runtimeId.all (columnEquals row.runtimeId) &&
  filters.runId.all (columnEquals row.runId) &&
  filters.eventKind.all (row.eventKind == ·) &&
  filters.category.all (row.category == ·)

/-- `event.sourceRef === filters.sourceRef`: what is absent is not `null`. -/
def SourceFilter.isSame (sourceRef : Option String) : SourceFilter → Bool
  | .null => false
  | .ref value => sourceRef == some value

def matchesHrcLifecycleEventFilter (event : HrcLifecycleEvent) (filters : HrcEventsRouteFilters) : Bool :=
  filters.sourceRef.all (SourceFilter.isSame event.sourceRef) &&
  filters.hostSessionId.all (event.hostSessionId == ·) &&
  filters.generation.all (event.generation == ·) &&
  filters.scopeRef.all (event.scopeRef == ·) &&
  filters.laneRef.all (event.laneRef == ·) &&
  filters.runtimeId.all (event.runtimeId == some ·) &&
  filters.runId.all (event.runId == some ·) &&
  filters.category.all (event.category == ·) &&
  filters.eventKind.all (event.eventKind == ·)

def listFromHrcSeq (rows : List HrcEventRow) (fromHrcSeq : Nat) (filters : HrcEventsRouteFilters) : List HrcLifecycleEvent :=
  (orderBy (·.hrcSeq) (rows.filter fun row => decide (fromHrcSeq ≤ row.hrcSeq) && buildLifecycleWhere filters row)).map
    (mapRow reader)

def acceptsElsewhere (filters : HrcEventsRouteFilters) (row : HrcEventRow) : Bool :=
  filters.hostSessionId.all (row.hostSessionId == ·) &&
  filters.generation.all (row.generation == ·) &&
  filters.scopeRef.all (row.scopeRef == ·) &&
  filters.runtimeId.all (columnEquals row.runtimeId) &&
  filters.runId.all (columnEquals row.runId) &&
  filters.eventKind.all (row.eventKind == ·) &&
  filters.category.all (row.category == ·)

/-- A row the other fields let pass: the stored and the canonical spelling of its lane are both the one asked for or
both not, and it has a source, or a lane not asked for, where the filter asks for none. -/
def Coincides (filters : HrcEventsRouteFilters) (row : HrcEventRow) : Prop :=
  acceptsElsewhere filters row = true →
    match filters.sourceRef with
    | some .null => row.sourceRef = none → ∃ lane, filters.laneRef = some lane ∧ row.laneRef ≠ lane
    | some (.ref value) => row.sourceRef = some value →
        ∀ lane, filters.laneRef = some lane → (row.laneRef = lane ↔ reader.canonicalLaneRef row.laneRef = lane)
    | none => ∀ lane, filters.laneRef = some lane → (row.laneRef = lane ↔ reader.canonicalLaneRef row.laneRef = lane)

variable {filters : HrcEventsRouteFilters} {row : HrcEventRow}

theorem buildLifecycleWhere_eq : buildLifecycleWhere filters row =
    (acceptsElsewhere filters row && (filters.sourceRef.all (SourceFilter.accepts row.sourceRef) &&
      filters.laneRef.all (row.laneRef == ·))) := by
  simp only [buildLifecycleWhere, acceptsElsewhere]
  ac_rfl

theorem matches_mapRow_eq : matchesHrcLifecycleEventFilter (mapRow reader row) filters =
    (acceptsElsewhere filters row && (filters.sourceRef.all (SourceFilter.isSame row.sourceRef) &&
      filters.laneRef.all (reader.canonicalLaneRef row.laneRef == ·))) := by
  have hrt : (fun id => row.runtimeId == some id) = columnEquals row.runtimeId := rfl
  have hr : (fun id => row.runId == some id) = columnEquals row.runId := rfl
  simp only [matchesHrcLifecycleEventFilter, mapRow, acceptsElsewhere, hrt, hr]
  ac_rfl

theorem agree_iff : buildLifecycleWhere filters row = matchesHrcLifecycleEventFilter (mapRow reader row) filters ↔
    Coincides reader filters row := by
  have hl : filters.laneRef.all (row.laneRef == ·) = filters.laneRef.all (reader.canonicalLaneRef row.laneRef == ·) ↔
      ∀ lane, filters.laneRef = some lane → (row.laneRef = lane ↔ reader.canonicalLaneRef row.laneRef = lane) := by
    cases filters.laneRef with
    | none => simp
    | some lane =>
      simp only [Option.all_some, Option.some.injEq, forall_eq']
      rw [Bool.eq_iff_iff, beq_iff_eq, beq_iff_eq]
  rw [buildLifecycleWhere_eq, matches_mapRow_eq]
  unfold Coincides
  cases acceptsElsewhere filters row with
  | false => simp
  | true =>
    simp only [Bool.true_and, forall_const]
    cases filters.sourceRef with
    | none => simpa using hl
    | some source =>
      cases source with
      | ref value =>
        simp only [Option.all_some, SourceFilter.accepts, SourceFilter.isSame, columnEquals]
        by_cases hs : row.sourceRef = some value
        · simpa [hs] using hl
        · simp [beq_eq_false_iff_ne.mpr hs, hs]
      | null =>
        simp only [Option.all_some, SourceFilter.accepts, SourceFilter.isSame, Bool.false_and, Bool.and_eq_false_iff]
        cases row.sourceRef with
        | some _ => simp
        | none =>
          cases filters.laneRef with
          | none => simp
          | some lane => simp

end HrcRuntime.EventFilters
