import HrcRuntime.LifecyclePayload
import HrcRuntime.Text

namespace HrcRuntime.ContextReading

open Json Records Database Program Mapper EventRepository Repositories Context RuntimeState
open LifecyclePayload Text

def contextReadingStateKey : String := "contextReading"

def reportedModelStateKey : String := "reportedModel"

def inTurnReadingIntervalMs : Int := 30000

structure RuntimeContextReading where
  turnId : String
  usedTokens : Int
  windowTokens : Option Int
  model : Option Json
  observedAt : String

def maxSafeInteger : Int := 9007199254740991

/-- A safe integer of at least `least`. -/
def safeInteger (least : Int) (value : Option Json) : Option Int :=
  match value with
  | some (.num n) => if least ≤ n ∧ n ≤ maxSafeInteger then some n else none
  | _ => none

def isReportedModelIdentity (value : Json) : Bool :=
  (value.stringField "id").any isNotBlank
    && (value.stringField "source").any ["provider-response", "harness-config"].contains

def readReportedModelIdentity (json : Option Json) : Option (Option String × Option String) := do
  let model ← (← json).member reportedModelStateKey
  if isReportedModelIdentity model then some (model.stringField "id", model.stringField "source") else none

def windowTokens (json : Json) : Option (Option Int) :=
  match json.member "windowTokens" with
  | none => some none
  | value => (safeInteger 1 value).map some

def parseReading (payload : Json) (turnId observedAt : String) : Option RuntimeContextReading := do
  let context ← (payload.member "context").filter Json.isRecord
  let usedTokens ← safeInteger 0 (context.member "usedTokens")
  let windowTokens ← windowTokens context
  some { turnId, usedTokens, windowTokens, model := (payload.member "model").filter isReportedModelIdentity
         observedAt }

def readRuntimeContextReading (json : Option Json) : Option RuntimeContextReading := do
  let value ← (← json).member contextReadingStateKey
  let turnId ← (value.stringField "turnId").filter isNotBlank
  let usedTokens ← safeInteger 0 (value.member "usedTokens")
  let observedAt ← (value.stringField "observedAt").filter isNotBlank
  let windowTokens ← windowTokens value
  let model := value.member "model"
  if model.all isReportedModelIdentity then some { turnId, usedTokens, windowTokens, model, observedAt } else none

def RuntimeContextReading.toJson (reading : RuntimeContextReading) : Json :=
  Json.object [("turnId", some (.str reading.turnId)), ("usedTokens", some (.num reading.usedTokens)),
    ("windowTokens", reading.windowTokens.map Json.num), ("model", reading.model),
    ("observedAt", some (.str reading.observedAt))]

def repeatsReading (previous : Option RuntimeContextReading) (reading : RuntimeContextReading) : Bool :=
  previous.any fun p => p.usedTokens == reading.usedTokens && p.windowTokens == reading.windowTokens

def invocationHasActiveTurn : InvocationState → Bool
  | .turnActive | .awaitingInput => true
  | _ => false

def lastCompletedTurnId (db : Db) (invocationId : String) (beforeSeq : Nat) : Option String := do
  let completed ← (listByInvocationIdAndTypes db invocationId
    { types := [.turnCompleted], throughSeq := some (beforeSeq - 1) }).getLast?
  effectiveTurnId completed

variable [Host]

def inTurnReadingDue (previous : Option RuntimeContextReading) (reading : RuntimeContextReading) : Bool :=
  match previous with
  | none => true
  | some previous =>
    match Host.parseDate reading.observedAt, Host.parseDate previous.observedAt with
    | some observed, some before => decide (inTurnReadingIntervalMs ≤ observed - before)
    | _, _ => false

def persistContextReading (reading : RuntimeContextReading) (ctx : ProjectionContext) (now : String) :
    M HrcLifecycleEvent := do
  let runtime ← query (getByRuntimeId · ctx.runtimeId)
  let runtime ← requireRecord runtime s!"runtime disappeared while persisting context reading: {ctx.runtimeId}"
  Runtimes.update ctx.runtimeId
    { runtimeStateJson := some (assignField runtime.runtimeStateJson contextReadingStateKey reading.toJson)
      updatedAt := some now }
  HrcEvents.append .runtimeContextUpdated (eventInput ctx now (Json.object
    [("turnId", some (.str reading.turnId)), ("usedTokens", some (.num reading.usedTokens)),
      ("windowTokens", reading.windowTokens.map Json.num), ("model", reading.model)]))

def completedTurnReading (db : Db) (envelope : InvocationEventEnvelope) (ctx : ProjectionContext) (now : String) :
    Option RuntimeContextReading := do
  if envelope.type != .turnCompleted then none
  else
    let turnId ← extractTurnId envelope
    let sample ← findLatestUsageWithContextBefore db envelope.invocationId envelope.seq
    let reading ← parseReading sample.brokerEventJson turnId (sample.time.getD now)
    let runtime ← getByRuntimeId db ctx.runtimeId
    if runtime.generation != ctx.generation then none else some reading

def usageReading (db : Db) (envelope : InvocationEventEnvelope) (ctx : ProjectionContext) (now : String) :
    Option RuntimeContextReading := do
  if envelope.type != .usageUpdated then none
  else
    let invocation ← getByInvocationId db envelope.invocationId
    let inTurn := invocationHasActiveTurn invocation.invocationState
    let turnId ← envelope.turnId.or
      (if inTurn then none else lastCompletedTurnId db envelope.invocationId envelope.seq)
    let reading ← parseReading envelope.payload turnId (envelope.time.getD now)
    let runtime ← getByRuntimeId db ctx.runtimeId
    let previous := readRuntimeContextReading runtime.runtimeStateJson
    if runtime.generation != ctx.generation then none
    else if if inTurn then !inTurnReadingDue previous reading else repeatsReading previous reading then none
    else some reading

/-- `projectCompletedTurnContextReading(..) ?? projectUsageContextReading(..)`. -/
def projectContextReading (envelope : InvocationEventEnvelope) (ctx : ProjectionContext) (now : String) :
    M (Option HrcLifecycleEvent) := do
  let reading ← query fun db => (completedTurnReading db envelope ctx now).or (usageReading db envelope ctx now)
  match reading with
  | none => pure none
  | some reading => do
      let e ← persistContextReading reading ctx now
      pure (some e)

section Rules

variable {P : Db → Write → Prop}

theorem projectContextReading_writes {envelope : InvocationEventEnvelope} {ctx : ProjectionContext} {now : String}
    (ht : ∀ db w, RuntimeTouch ctx.runtimeId w → P db w) (happ : ∀ db w, Append none w → P db w) :
    Writes P (projectContextReading envelope ctx now) := by
  refine Emits.bind (Emits.of_readOnly (query_readOnly _)) fun reading => ?_
  split
  · exact Emits.pure _
  · refine Emits.bind ?_ fun _ => Emits.pure _
    refine Emits.bind (Emits.of_readOnly (query_readOnly _)) fun runtime => ?_
    refine Emits.bind (Emits.of_readOnly (requireRecord_readOnly _ _)) fun runtime => ?_
    exact Emits.bind (touch_writes rfl ht) fun _ => append_writes happ

end Rules

end HrcRuntime.ContextReading
