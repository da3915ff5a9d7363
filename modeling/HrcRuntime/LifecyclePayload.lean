import HrcRuntime.RuntimeState

namespace HrcRuntime.LifecyclePayload

open Json Records Relational Database Program Mapper EventRepository Repositories Context RuntimeState

/-- `BROKER_TO_HRC_LIFECYCLE_KIND`. -/
def brokerToHrcKind : EventType → Option HrcEventKind
  | .inputAccepted => some .turnAccepted
  | .turnStarted => some .turnStarted
  | .userMessage => some .turnUserPrompt
  | .assistantMessageCompleted => some .turnMessage
  | .toolCallStarted => some .turnToolCall
  | .toolCallCompleted | .toolCallFailed => some .turnToolResult
  | .turnCompleted | .turnFailed | .turnInterrupted => some .turnCompleted
  | _ => none

def turnTextLimit : Nat := 16 * 1024

def utf16Length (c : Char) : Nat := if c.toNat < 0x10000 then 1 else 2

def truncateUtf16 (limit : Nat) : List Char → List Char
  | [] => []
  | c :: rest => if utf16Length c ≤ limit then c :: truncateUtf16 (limit - utf16Length c) rest else []

def createUserPromptPayload (text : String) : Json :=
  let content := String.ofList (truncateUtf16 turnTextLimit text.toList)
  Json.object [("type", some (.str "message_end")),
    ("message", some (Json.object [("role", some (.str "user")), ("content", some (.str content))])),
    ("truncated", if content == text then none else some (.bool true))]

/-- What `Array.prototype.join` writes for an element. -/
def joinText : Option Json → String
  | none | some .null => ""
  | some v => v.toText

def assistantText (payload : Json) : M String := do
  let content ← property payload "content"
  match content with
  | some (.arr items) =>
    if items.toList.contains .null then Prog.throw (.typeError "null is not an object (evaluating part.type)")
    else pure (String.join ((items.toList.filter fun part =>
      part.member "type" == some (.str "text")).map fun part => joinText (part.member "text")))
  | _ => Prog.throw (.typeError "payload.content.filter is not a function")

def toolResultFromBrokerResult (result : Option Json) : Json :=
  let textBlock (text : String) : Json :=
    Json.array [Json.object [("type", some (.str "text")), ("text", some (.str text))]]
  let blocks := match result.bind (·.member "content") with
    | some (.arr items) => items.toList.all fun item => item.isRecord && (item.stringField "type").isSome
    | _ => false
  match result with
  | none | some .null => Json.object [("content", some (textBlock ""))]
  | some (.str text) => Json.object [("content", some (textBlock text))]
  | some result =>
    if blocks then result
    else
      let text := (result.stringField "output").getD (safeStringify result)
      Json.object [("content", some (textBlock text)), ("details", if result.isRecord then some result else none)]

def terminalTurnIdentity (envelope : InvocationEventEnvelope) : List (String × Option Json) :=
  [("invocationId", some (.str envelope.invocationId)), ("turnId", (extractTurnId envelope).map Json.str)]

def lifecyclePayload (envelope : InvocationEventEnvelope) (transport : Transport) : M Json :=
  let payload := envelope.payload
  let transport := Json.str transport.text
  match envelope.type with
  | .userMessage => do
      let content ← property payload "content"
      match content with
      | some (.str text) => pure (createUserPromptPayload text)
      | _ => Prog.throw (.typeError "text.slice is not a function")
  | .assistantMessageCompleted => do
      let content ← assistantText payload
      pure (Json.object [("type", some (.str "message_end")),
        ("message", some (Json.object [("role", some (.str "assistant")), ("content", some (.str content))])),
        ("final", payload.member "final")])
  | .toolCallStarted => do
      let toolCallId ← property payload "toolCallId"
      pure (Json.object [("type", some (.str "tool_execution_start")), ("toolUseId", toolCallId),
        ("toolName", payload.member "name"),
        ("input", some (.obj ((payload.member "input").getD .null).recordFields)),
        ("summary", payload.member "summary")])
  | .toolCallCompleted => do
      let toolCallId ← property payload "toolCallId"
      pure (Json.object [("type", some (.str "tool_execution_end")), ("toolUseId", toolCallId),
        ("toolName", payload.member "name"), ("result", some (toolResultFromBrokerResult (payload.member "result"))),
        ("isError", payload.member "isError")])
  | .toolCallFailed => do
      let toolCallId ← property payload "toolCallId"
      pure (Json.object [("type", some (.str "tool_execution_end")), ("toolUseId", toolCallId),
        ("toolName", payload.member "name"),
        ("result", some (Json.object [("content", some (Json.array [Json.object
          [("type", some (.str "text")), ("text", payload.member "message")]]))])),
        ("isError", some (.bool true))])
  | .turnCompleted =>
    pure (Json.object ([("success", some (.bool true)), ("transport", some transport),
      ("source", some (.str "broker"))] ++ terminalTurnIdentity envelope))
  | .turnFailed => do
      let message ← property payload "message"
      pure (Json.object ([("success", some (.bool false)), ("transport", some transport),
        ("source", some (.str "broker"))] ++ terminalTurnIdentity envelope
        ++ [("message", message), ("code", payload.member "code"), ("data", payload.member "data"),
          ("reason", payload.member "reason"), ("retryable", payload.member "retryable")]))
  | .turnInterrupted =>
    pure (Json.object ([("success", some (.bool false)), ("interrupted", some (.bool true)),
      ("transport", some transport), ("source", some (.str "broker"))] ++ terminalTurnIdentity envelope))
  | _ => pure (Json.object [("transport", some transport)])

def projectedEventTime (envelope : InvocationEventEnvelope) (ctx : ProjectionContext) (now : String) : String :=
  if ctx.evidenceOrigin.isSome then envelope.time.getD now else now

def hasDurableTurnAcceptance (db : Db) (ctx : ProjectionContext) : Bool :=
  ctx.runId.any fun runId =>
    db.hrcEvents.rows.any fun e => e.runId == some runId && e.eventKind == .turnAccepted

def isScopedTo (ctx : ProjectionContext) (e : HrcLifecycleEvent) : Bool :=
  e.hostSessionId == ctx.hostSessionId && e.generation == ctx.generation && e.runtimeId == some ctx.runtimeId

def currentTurnPromptWindowStart (db : Db) (ctx : ProjectionContext) : Nat :=
  match (orderBy (·.hrcSeq) (db.hrcEvents.rows.filter fun e =>
      e.eventKind == .turnCompleted && isScopedTo ctx e)).getLast? with
  | some lastTerminal => lastTerminal.hrcSeq + 1
  | none => 1

def userPromptPayloadContent (payload : Json) : Option String :=
  (payload.member "message").bind fun message =>
    if message.member "role" == some (.str "user") then message.stringField "content" else none

def isEchoedUserPrompt (db : Db) (envelope : InvocationEventEnvelope) (ctx : ProjectionContext) : Bool :=
  match envelope.type, envelope.payload.stringField "content" with
  | .userMessage, some content =>
    let canonicalContent := userPromptPayloadContent (createUserPromptPayload content)
    db.hrcEvents.rows.any fun e => e.eventKind == .turnUserPrompt && isScopedTo ctx e
      && decide (currentTurnPromptWindowStart db ctx ≤ e.hrcSeq)
      && userPromptPayloadContent e.payload == canonicalContent
  | _, _ => false

def shouldSurfaceDiagnostic (envelope : InvocationEventEnvelope) : Bool :=
  envelope.type == .diagnostic && (envelope.payload.member "level" == some (.str "error")
    || ((envelope.payload.member "data").bind (·.member "code")) == some (.str "api_error"))

def diagnosticLifecyclePayload (envelope : InvocationEventEnvelope) (ctx : ProjectionContext) : Json :=
  let entries : List (String × Option Json) :=
    [("invocationId", some (.str envelope.invocationId)), ("seq", some (.ofNat envelope.seq)),
      ("time", envelope.time.map Json.str), ("turnId", envelope.turnId.map Json.str),
      ("inputId", envelope.inputId.map Json.str), ("itemId", envelope.itemId.map Json.str),
      ("correlation", envelope.correlation), ("driver", envelope.driver), ("runId", ctx.runId.map Json.str)]
  .obj (envelope.payload.recordFields.assign (Json.object entries).recordFields)

def isSuppressed (db : Db) (envelope : InvocationEventEnvelope) (ctx : ProjectionContext) : HrcEventKind → Bool
  | .turnUserPrompt => isEchoedUserPrompt db envelope ctx
  | .turnAccepted => hasDurableTurnAcceptance db ctx
  | _ => false

variable [Host]

def appendProjectedEvent (ctx : ProjectionContext) (kind : HrcEventKind) (input : HrcLifecycleEventInput) :
    M HrcLifecycleEvent :=
  HrcEvents.append kind { input with evidenceOrigin := ctx.evidenceOrigin }

def emitLifecycleEvent (envelope : InvocationEventEnvelope) (ctx : ProjectionContext) (now : String) :
    M (Option HrcLifecycleEvent) :=
  let ts := projectedEventTime envelope ctx now
  if shouldSurfaceDiagnostic envelope then do
    let e ← appendProjectedEvent ctx .brokerDiagnostic (eventInput ctx ts (diagnosticLifecyclePayload envelope ctx))
    pure (some e)
  else match brokerToHrcKind envelope.type with
    | none => pure none
    | some kind => do
        let suppressed ← query (isSuppressed · envelope ctx kind)
        if suppressed then pure none
        else do
          let payload ← lifecyclePayload envelope ctx.transport
          let e ← appendProjectedEvent ctx kind (eventInput ctx ts payload)
          pure (some e)

inductive Append (origin : Option EvidenceOrigin) : Write → Prop where
  | event (kind : HrcEventKind) (category : HrcEventCategory) {input : HrcLifecycleEventInput}
      (h : input.evidenceOrigin = origin) : Append origin (.appendHrcEvent kind category input)
  | payload (hrcSeq : Nat) (payload : Json) : Append origin (.replaceHrcPayload hrcSeq payload)
  | blob (blob : ToolResultBlobRecord) : Append origin (.insertBlob blob)

section Rules

variable {P : Db → Write → Prop}

theorem append_writes {kind : HrcEventKind} {input : HrcLifecycleEventInput}
    (hP : ∀ db w, Append input.evidenceOrigin w → P db w) : Writes P (HrcEvents.append kind input) :=
  HrcEvents.append_writes (fun _ _ => hP _ _ (.blob _)) (fun _ _ _ => hP _ _ (.payload _ _))
    fun _ _ => hP _ _ (.event _ _ rfl)

omit [Host] in
theorem assistantText_readOnly (payload : Json) : ReadOnly (assistantText payload) := by
  refine ReadOnly.bind (property_readOnly _ _) fun content => ?_
  split
  · split
    · exact ReadOnly.throw _
    · exact ReadOnly.pure _
  · exact ReadOnly.throw _

omit [Host] in
theorem lifecyclePayload_readOnly (envelope : InvocationEventEnvelope) (transport : Transport) :
    ReadOnly (lifecyclePayload envelope transport) := by
  unfold lifecyclePayload
  split
  · refine ReadOnly.bind (property_readOnly _ _) fun content => ?_
    split
    · exact ReadOnly.pure _
    · exact ReadOnly.throw _
  · exact ReadOnly.bind (assistantText_readOnly _) fun _ => ReadOnly.pure _
  · exact ReadOnly.bind (property_readOnly _ _) fun _ => ReadOnly.pure _
  · exact ReadOnly.bind (property_readOnly _ _) fun _ => ReadOnly.pure _
  · exact ReadOnly.bind (property_readOnly _ _) fun _ => ReadOnly.pure _
  · exact ReadOnly.pure _
  · exact ReadOnly.bind (property_readOnly _ _) fun _ => ReadOnly.pure _
  · exact ReadOnly.pure _
  · exact ReadOnly.pure _

theorem emitLifecycleEvent_writes {envelope : InvocationEventEnvelope} {ctx : ProjectionContext} {now : String}
    (hP : ∀ db w, Append ctx.evidenceOrigin w → P db w) : Writes P (emitLifecycleEvent envelope ctx now) := by
  have happ (kind : HrcEventKind) (input : HrcLifecycleEventInput) :
      Writes P (appendProjectedEvent ctx kind input) := append_writes hP
  unfold emitLifecycleEvent
  split
  · exact Emits.bind (happ _ _) fun _ => Emits.pure _
  · split
    · exact Emits.pure _
    · refine Emits.bind (Emits.of_readOnly (query_readOnly _)) fun suppressed => ?_
      split
      · exact Emits.pure _
      · refine Emits.bind (Emits.of_readOnly (lifecyclePayload_readOnly _ _)) fun payload => ?_
        exact Emits.bind (happ _ _) fun _ => Emits.pure _

end Rules

end HrcRuntime.LifecyclePayload
