import Mathlib.Data.List.Basic
import HrcRuntime.Json
import HrcRuntime.KeysetPaging

namespace HrcRuntime.TranscriptDocument

open Json KeysetPaging

/-- A row of `broker_invocation_events`, of what the transcript index reads. -/
structure LedgerRow where
  id : Nat
  invocationId : String
  seq : Nat
  type : String
  runtimeId : String
  time : String
  brokerEventJson : String
  deriving DecidableEq

def transcriptTerminals : List String := ["turn.completed", "turn.failed", "turn.interrupted"]

def transcriptProse : List String := ["user.message", "assistant.message.completed"]

def transcriptAlphabet : List String := transcriptTerminals ++ ["turn.started", "input.accepted"] ++ transcriptProse

def isTerminal (type : String) : Bool := decide (type ∈ transcriptTerminals)

def isProse (type : String) : Bool := decide (type ∈ transcriptProse)

inductive TranscriptTerminalStatus where
  | completed
  | failed
  | interrupted

def terminalStatus (type : String) : Option TranscriptTerminalStatus :=
  if type = "turn.completed" then some .completed
  else if type = "turn.failed" then some .failed
  else if type = "turn.interrupted" then some .interrupted
  else none

/-- What the index reads a payload with: `JSON.parse`, and `TRANSCRIPT_COLUMN_MAX_BYTES`. -/
structure Columns where
  parse : String → Option Json
  maxBytes : Nat

section Text

variable (columns : Columns)

def record (value : Option Json) : Option Json := value.filter Json.isRecord

def payload (event : LedgerRow) : Option Json :=
  (columns.parse event.brokerEventJson).bind fun decoded =>
    if decoded.isRecord then (decoded.member "payload").or (some decoded) else some decoded

def textBlock (block : Json) : Option String :=
  if block.member "type" = some (.str "text") then some ((block.stringField "text").getD "") else none

def textBlocks : Option Json → String
  | some (.str text) => text
  | some (.arr items) => String.intercalate "\n" ((items.toList.filterMap textBlock).filter (· ≠ ""))
  | _ => ""

/-- `record(decoded)?.['content'] ?? decoded`. -/
def eventText (event : LedgerRow) : String :=
  let decoded := payload columns event
  textBlocks ((((record decoded).bind (·.member "content")).filter (· ≠ .null)).or decoded)

/-- `Buffer.from(text).subarray(0, max).toString()`: a character cut short decodes as U+FFFD. -/
def subarrayText : Nat → List Char → List Char
  | _, [] => []
  | 0, _ => []
  | room + 1, c :: text =>
    if c.utf8Size ≤ room + 1 then c :: subarrayText (room + 1 - c.utf8Size) text else ['\uFFFD']

def byteLength (text : List Char) : Nat := text.foldl (fun n c => n + c.utf8Size) 0

/-- `while (byteLength(clipped) > max) clipped = clipped.slice(0, -1)`, the text given last character first. -/
def shorten (maxBytes : Nat) : List Char → List Char
  | [] => []
  | c :: text => if byteLength (c :: text) ≤ maxBytes then c :: text else shorten maxBytes text

structure Capped where
  text : String
  truncated : Bool

def cap (text : String) : Capped :=
  if text.utf8ByteSize ≤ columns.maxBytes then { text, truncated := false }
  else
    { text := String.ofList (shorten columns.maxBytes (subarrayText columns.maxBytes text.toList).reverse).reverse
      truncated := true }

structure AssistantMessage where
  event : LedgerRow
  text : String
  final : Bool
  deriving DecidableEq

def selectFinalTurnMessage (candidates : List AssistantMessage) : Option AssistantMessage :=
  let nonEmpty := candidates.filter (·.text ≠ "")
  (nonEmpty.reverse.find? (·.final)).or nonEmpty.getLast?

end Text

structure TurnDocument where
  invocationId : String
  runtimeId : String
  seqFrom : Nat
  seqTo : Nat
  startedAt : String
  completedAt : String
  terminalStatus : TranscriptTerminalStatus
  userText : String
  finalText : String
  midText : String
  messageCount : Nat
  truncated : Bool

def bySeq (a b : LedgerRow) : Ordering := compare a.seq b.seq

def assistantMessages (columns : Columns) (events : List LedgerRow) : List AssistantMessage :=
  ((events.filter (·.type = "assistant.message.completed")).map fun event =>
    { event, text := eventText columns event
      final := ((record (payload columns event)).bind (·.member "final")) == some (.bool true) }).filter (·.text ≠ "")

def turnDocument (columns : Columns) (first terminal : LedgerRow) (status : TranscriptTerminalStatus)
    (events : List LedgerRow) : TurnDocument :=
  let users := ((events.filter (·.type = "user.message")).map (eventText columns)).filter (· ≠ "")
  let assistants := assistantMessages columns events
  let final := selectFinalTurnMessage assistants
  let mid := (assistants.filter (some · ≠ final)).map (·.text)
  let userText := cap columns (String.intercalate "\n\n" users)
  let finalText := cap columns ((final.map (·.text)).getD "")
  let midText := cap columns (String.intercalate "\n\n" mid)
  { invocationId := terminal.invocationId, runtimeId := terminal.runtimeId, seqFrom := first.seq, seqTo := terminal.seq
    startedAt := first.time, completedAt := terminal.time, terminalStatus := status
    userText := userText.text, finalText := finalText.text, midText := midText.text
    messageCount := assistants.length
    truncated := userText.truncated || finalText.truncated || midText.truncated }

def extractTurnDocument (columns : Columns) (inputEvents : List LedgerRow) : Option TurnDocument :=
  let events := sortBy bySeq inputEvents
  match events.head?, events.getLast? with
  | some first, some terminal =>
    (terminalStatus terminal.type).map fun status => turnDocument columns first terminal status events
  | _, _ => none

end HrcRuntime.TranscriptDocument
