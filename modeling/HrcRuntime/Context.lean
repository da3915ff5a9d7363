import HrcRuntime.Ownership

namespace HrcRuntime.Context

open Json Records Database EventRepository

structure ProjectionContext where
  runtimeId : String
  hostSessionId : String
  scopeRef : String
  laneRef : String
  generation : Nat
  transport : Transport
  operationId : String
  runId : Option String
  evidenceOrigin : Option EvidenceOrigin := none

def lifecycleTransportFromRuntime : Transport → Transport
  | .other _ => .headless
  | value => value

section Envelope

variable (envelope : InvocationEventEnvelope)

def extractTurnId : Option String := envelope.turnId.or (envelope.payload.stringField "turnId")

def extractSubmissionIdFromPayload : Option String := envelope.payload.stringField "submissionId"

def extractInputIdFromPayload : Option String := envelope.payload.stringField "inputId"

end Envelope

/-- `json_extract(json, '$.key')`. -/
def jsonExtract (json : Json) (key : String) : Option Json :=
  match json.member key with
  | none => none
  | some .null => none
  | some (.bool b) => some (.num (if b then 1 else 0))
  | some (.arr items) => some (.str (Json.arr items).stringify)
  | some (.obj fields) => some (.str (Json.obj fields).stringify)
  | some v => some v

def askUserToolNames : List String := ["AskUserQuestion", "request_user_input"]

def isAskUserTool (toolName : Option String) : Bool := toolName.any askUserToolNames.contains

def isAskStart (row : HrcBrokerInvocationEventRecord) : Bool :=
  row.type == .toolCallStarted && askUserToolNames.any fun name =>
    jsonExtract row.brokerEventJson "name" == some (.str name)

def closesAsk (st cl : HrcBrokerInvocationEventRecord) : Bool :=
  decide (st.seq < cl.seq) && (cl.type == .toolCallCompleted || cl.type == .toolCallFailed)
    && cl.runId == st.runId && cl.harnessGeneration == st.harnessGeneration && cl.turnAttempt == st.turnAttempt
    && jsonExtract cl.brokerEventJson "toolCallId" == jsonExtract st.brokerEventJson "toolCallId"

def endsAsk (st tm : HrcBrokerInvocationEventRecord) : Bool :=
  decide (st.seq < tm.seq) && tm.type.isTurnTerminal && tm.runId == st.runId

def openAskBrackets (db : Db) (invocationId : String) : List HrcBrokerInvocationEventRecord :=
  let rows := listByInvocationId db invocationId
  rows.filter fun st => isAskStart st && !rows.any (closesAsk st) && !rows.any (endsAsk st)

def hasOpenAskBracket (db : Db) (invocationId runId : String) : Bool :=
  (openAskBrackets db invocationId).any fun st => st.runId == some runId

def runtimeHasAnyOpenAskBracket (db : Db) (runtime : HrcRuntimeSnapshot) : Bool :=
  match runtime.activeInvocationId with
  | none => false
  | some invocationId => !(openAskBrackets db invocationId).isEmpty

end HrcRuntime.Context
