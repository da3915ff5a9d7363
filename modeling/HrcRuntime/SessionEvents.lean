import HrcRuntime.KeysetPaging
import HrcRuntime.Schedule
import HrcRuntime.Text

namespace HrcRuntime.SessionEvents

open Text
open List (mem_eraseDups map_append map_cons map_nil append_nil mem_map mem_singleton mem_singleton_self
  cons_ne_nil)

structure Block where
  type : String
  text : Option String
  deriving DecidableEq

inductive Content where
  | text (text : String)
  | blocks (blocks : List Block)
  deriving DecidableEq

structure Message where
  role : String
  content : Content
  deriving DecidableEq

/-- What `extractTurnEndAssistantMessage` reads of a payload; a content that is neither text nor a list is absent. -/
structure TurnPayload where
  finalOutput : Option String := none
  content : Option String := none
  messageRole : Option String := none
  messageContent : Option Content := none
  deriving DecidableEq

inductive Event where
  | messageStart (messageId : Option String) (message : Option Message)
  | messageEnd (messageId : Option String) (message : Option Message)
  | messageUpdate (messageId : Option String) (textDelta : Option String) (contentBlocks : Option (List Block))
  | turnEnd (payload : TurnPayload)
  | toolExecutionStart
  | toolExecutionEnd
  | notice
  deriving DecidableEq

structure Segment where
  id : String
  seq : Nat
  text : String
  deriving DecidableEq

structure RunState where
  lastSeq : Nat := 0
  userMessage : Option String := none
  assistantSegments : List Segment := []
  activeAssistantSegmentId : Option String := none
  currentAssistantMessageRef : Option String := none
  deriving DecidableEq

inductive Mode where
  | append | replace | set
  deriving DecidableEq

def segId (seq : Nat) : String := "seg-" ++ toString seq

def written (mode : Mode) (text before : String) : String := if mode = .append then before ++ text else text

def amendFirst (ref : String) (mode : Mode) (text : String) : List Segment → Option (List Segment)
  | [] => none
  | g :: rest =>
    if g.id = ref then some ({ g with text := written mode text g.text } :: rest)
    else (amendFirst ref mode text rest).map (g :: ·)

namespace RunState

def upsert (run : RunState) (id : Option String) (seq : Nat) (text : String) (mode : Mode) (close : Bool) : RunState :=
  match id.bind (amendFirst · mode text run.assistantSegments) with
  | some segments =>
    { run with
      assistantSegments := segments
      activeAssistantSegmentId := if close then none else id }
  | none =>
    match (if id = none ∧ mode ≠ .set then run.activeAssistantSegmentId else none).bind
        (amendFirst · mode text run.assistantSegments) with
    | some segments =>
      { run with
        assistantSegments := segments
        activeAssistantSegmentId := if close then none else run.activeAssistantSegmentId }
    | none =>
      let newId := id.getD (segId seq)
      { run with
        assistantSegments := run.assistantSegments ++ [⟨newId, seq, text⟩]
        activeAssistantSegmentId := if close then none else some newId }

def closeActive (run : RunState) : RunState := { run with activeAssistantSegmentId := none }

def clearCurrentMessageRefIf (run : RunState) (ref : Option String) : RunState :=
  if ref ≠ none ∧ ref = run.currentAssistantMessageRef then { run with currentAssistantMessageRef := none } else run

def startMessage (run : RunState) (ref : String) (seq : Nat) (text : String) : RunState :=
  { run.closeActive with currentAssistantMessageRef := some ref }.upsert (some ref) seq text .set false

def captureActiveRefWhenAnonymous (run : RunState) (ref : Option String) : RunState :=
  if ref = none ∧ run.activeAssistantSegmentId ≠ none then
    { run with currentAssistantMessageRef := run.activeAssistantSegmentId }
  else run

/-- `appendDelta` and `replaceBody`. -/
def touch (run : RunState) (ref : Option String) (seq : Nat) (text : String) (mode : Mode) : RunState :=
  (run.upsert ref seq text mode false).captureActiveRefWhenAnonymous ref

def setFinal (run : RunState) (seq : Nat) (text : String) : RunState := run.upsert none seq text .set true

def endMessage (run : RunState) (ref : Option String) (seq : Nat) (text : String) : RunState :=
  if ref = none ∧ run.assistantSegments ≠ [] then run.closeActive else run.upsert ref seq text .replace true

def closeExisting (run : RunState) (ref : String) : RunState :=
  if run.assistantSegments.any (·.id == ref) then run.closeActive else run

end RunState

def blocksText (blocks : List Block) : String :=
  String.join (blocks.map fun b => if b.type == "text" then b.text.getD "" else "")

def flattenMessageContent : Content → String
  | .text text => text
  | .blocks blocks => blocksText blocks

def extractTurnEndAssistantMessage (payload : TurnPayload) : Option String :=
  (payload.finalOutput.filter isNotBlank).or <| (payload.content.filter isNotBlank).or <|
    if payload.messageRole = some "assistant" then
      ((payload.messageContent.map flattenMessageContent).getD "" |> some).filter isNotBlank
    else none

def applyMessageStart (run : RunState) (seq : Nat) (messageId : Option String) (message : Option Message) : RunState :=
  match message with
  | some message =>
    if message.role = "user" then { run with userMessage := some (flattenMessageContent message.content) }
    else if message.role = "assistant" then
      run.startMessage (messageId.getD (segId seq)) seq (flattenMessageContent message.content)
    else run
  | none =>
    match messageId with
    | some ref => run.startMessage ref seq ""
    | none => run

def applyMessageEnd (run : RunState) (seq : Nat) (messageId : Option String) (message : Option Message) : RunState :=
  let target := messageId.or run.currentAssistantMessageRef
  let ended := match message with
    | some message =>
      if message.role = "user" then { run with userMessage := some (flattenMessageContent message.content) }
      else if message.role = "assistant" then run.endMessage target seq (flattenMessageContent message.content)
      else run
    | none =>
      match target with
      | some ref => run.closeExisting ref
      | none => run
  ended.clearCurrentMessageRefIf target

def given (text : Option String) : Option String := text.filter (· ≠ "")

def applyMessageUpdate (run : RunState) (seq : Nat) (messageId textDelta : Option String)
    (contentBlocks : Option (List Block)) : RunState :=
  let target := messageId.or run.currentAssistantMessageRef
  let run := match given textDelta with
    | some text => run.touch target seq text .append
    | none => run
  match given (contentBlocks.map blocksText) with
  | some text => run.touch target seq text .replace
  | none => run

def applyTurnEnd (run : RunState) (seq : Nat) (payload : TurnPayload) : RunState :=
  let ended := match extractTurnEndAssistantMessage payload with
    | some text => if run.assistantSegments = [] then run.setFinal seq text else run.closeActive
    | none => run.closeActive
  { ended with currentAssistantMessageRef := none }

def processEvent (run : RunState) (seq : Nat) (event : Event) : RunState :=
  let run := { run with lastSeq := seq }
  match event with
  | .messageStart messageId message => applyMessageStart run seq messageId message
  | .messageEnd messageId message => applyMessageEnd run seq messageId message
  | .messageUpdate messageId textDelta contentBlocks => applyMessageUpdate run seq messageId textDelta contentBlocks
  | .turnEnd payload => applyTurnEnd run seq payload
  | .toolExecutionStart => run.closeActive
  | .toolExecutionEnd | .notice => run

structure Envelope where
  seq : Nat
  event : Event
  deriving DecidableEq

/-- `receive` for the envelopes of one run. -/
def receive (existing : Option RunState) (envelope : Envelope) : RunState :=
  match existing with
  | some run => if envelope.seq ≤ run.lastSeq then run else processEvent run envelope.seq envelope.event
  | none => processEvent {} envelope.seq envelope.event

/-- An assistant message of an HRC event, with the id that the kind `turn.message` falls back to. -/
def adaptAssistantMessage (messageId id fallbackMessageId : Option String) (role : String) (content : Option Content) :
    Option Event :=
  if role = "assistant" then
    content.map fun content => .messageEnd (messageId.or (id.or fallbackMessageId)) (some ⟨role, content⟩)
  else none

inductive Saying where
  | start (text : String)
  | delta (text : String)
  | body (text : String)
  | ended (text : String)
  deriving DecidableEq

structure Entry where
  ref : String
  named : Bool
  saying : Saying
  deriving DecidableEq

namespace Saying

def after : Saying → String → String
  | .start text, _ => text
  | .delta text, before => before ++ text
  | .body text, _ => text
  | .ended text, _ => text

def content : Saying → Option String
  | .ended text => some text
  | _ => none

end Saying

def about (ref : String) (log : List Entry) : List Saying := (log.filter (·.ref == ref)).map (·.saying)

def finalText (log : List Entry) (ref : String) : String :=
  ((about ref log).filterMap Saying.content).getLast?.getD ((about ref log).foldl (fun text s => s.after text) "")

def messages (log : List Entry) : List String := (log.map (·.ref)).eraseDups

def Ended (log : List Entry) (ref : String) : Prop := ∃ e ∈ log, e.ref = ref ∧ e.saying.content.isSome = true

instance (log : List Entry) (ref : String) : Decidable (Ended log ref) :=
  inferInstanceAs (Decidable (∃ e ∈ log, _))

def Event.messageId : Event → Option String
  | .messageStart messageId _ | .messageEnd messageId _ | .messageUpdate messageId _ _ => messageId
  | _ => none

/-- The message an event is about: the one it names, for an end and an update else the current one, for an update else
the active one; `none` is a new message. -/
def target (run : RunState) : Event → Option String
  | .messageStart messageId _ => messageId
  | .messageEnd messageId _ => messageId.or run.currentAssistantMessageRef
  | .messageUpdate messageId _ _ => (messageId.or run.currentAssistantMessageRef).or run.activeAssistantSegmentId
  | _ => none

def sayings (run : RunState) : Event → List Saying
  | .messageStart _ (some message) =>
    if message.role = "assistant" then [.start (flattenMessageContent message.content)] else []
  | .messageStart messageId none => (messageId.map fun _ => Saying.start "").toList
  | .messageEnd _ (some message) =>
    if message.role = "assistant" then [.ended (flattenMessageContent message.content)] else []
  | .messageUpdate _ textDelta contentBlocks => ((given textDelta).map Saying.delta).toList ++
      ((given (contentBlocks.map blocksText)).map Saying.body).toList
  | .turnEnd payload =>
    if run.assistantSegments = [] then ((extractTurnEndAssistantMessage payload).map Saying.ended).toList else []
  | _ => []

def heard (run : RunState) (seq : Nat) (event : Event) : List Entry :=
  (sayings run event).map fun saying => ⟨(target run event).getD (segId seq), event.messageId.isSome, saying⟩

structure State where
  run : Option RunState := none
  received : List Envelope := []
  log : List Entry := []

def Fresh (s : State) (envelope : Envelope) : Prop := ∀ e ∈ s.received, e.seq < envelope.seq

instance (s : State) (envelope : Envelope) : Decidable (Fresh s envelope) :=
  inferInstanceAs (Decidable (∀ e ∈ s.received, _))

def State.current (s : State) : RunState := s.run.getD {}

def State.heard (s : State) (envelope : Envelope) : List Entry :=
  SessionEvents.heard s.current envelope.seq envelope.event

def step (envelope : Envelope) (s : State) : State where
  run := some (receive s.run envelope)
  received := s.received ++ [envelope]
  log := if Fresh s envelope then s.log ++ s.heard envelope else s.log

def Delivered (s : State) (envelope : Envelope) : Prop := Fresh s envelope ∨ envelope ∈ s.received

/-- An event that opens or updates a message is not about an ended one; an assistant message that ends without an id
has a current message or no other beside it; an id that is named was named from the start; and the id made up for a new
message is not in use. -/
def Addresses (s : State) (envelope : Envelope) : Prop := Fresh s envelope →
  (∀ e ∈ s.heard envelope, e.saying.content = none → ¬ Ended s.log e.ref) ∧
  (target s.current envelope.event = none → (∃ e ∈ s.heard envelope, e.saying.content.isSome = true) →
    s.current.assistantSegments = []) ∧
  (∀ e ∈ s.heard envelope, e.named = true → e.ref ∈ messages s.log → ∃ e' ∈ s.log, e'.ref = e.ref ∧ e'.named = true) ∧
  (target s.current envelope.event = none → s.heard envelope ≠ [] → segId envelope.seq ∉ messages s.log)

/-- The segments are the messages in the order of their first appearance with their final texts, and a message that
began without an id is not one that was named. -/
structure Rendered (s : State) : Prop where
  segments : s.current.assistantSegments.map (fun g => (g.id, g.text)) =
    (messages s.log).map fun ref => (ref, finalText s.log ref)
  apart : ∀ e ∈ s.log, e.named = true → (s.log.find? (·.ref == e.ref)).any (·.named) = true

instance (s : State) (envelope : Envelope) : Decidable (Delivered s envelope) := by
  unfold Delivered
  infer_instance

instance (s : State) (envelope : Envelope) : Decidable (Addresses s envelope) := by
  unfold Addresses
  infer_instance

section Log

variable {log : List Entry} {e : Entry} {ref : String}

theorem messages_snoc_of_mem (h : e.ref ∈ messages log) : messages (log ++ [e]) = messages log := by
  have hm : e.ref ∈ log.map (·.ref) := mem_eraseDups.mp h
  rw [messages, map_append, List.eraseDups_append]
  simp only [map_cons, map_nil, List.removeAll, List.elem_eq_mem, List.filter_cons, decide_eq_true hm]
  exact append_nil _

theorem messages_snoc_of_not (h : e.ref ∉ messages log) : messages (log ++ [e]) = messages log ++ [e.ref] := by
  have hmem : e.ref ∉ log.map (·.ref) := fun hm => h (mem_eraseDups.mpr hm)
  rw [messages, map_append, List.eraseDups_append]
  simp only [map_cons, map_nil, List.removeAll, List.elem_eq_mem, List.filter_cons, decide_eq_false hmem]
  rfl

theorem about_snoc_self (saying : Saying) (named : Bool) :
    about ref (log ++ [⟨ref, named, saying⟩]) = about ref log ++ [saying] := by
  simp [about]

theorem about_snoc_of_ne (h : e.ref ≠ ref) : about ref (log ++ [e]) = about ref log := by
  simp [about, h]

theorem finalText_snoc_of_ne (h : e.ref ≠ ref) : finalText (log ++ [e]) ref = finalText log ref := by
  rw [finalText, finalText, about_snoc_of_ne h]

theorem contents_of_open (h : ¬ Ended log ref) : (about ref log).filterMap Saying.content = [] := by
  rw [List.filterMap_eq_nil_iff]
  intro saying hs
  obtain ⟨e, he, rfl⟩ := mem_map.mp hs
  obtain ⟨hl, hr⟩ := List.mem_filter.mp he
  cases hc : e.saying.content with
  | none => rfl
  | some text => exact absurd ⟨e, hl, by simpa using hr, by rw [hc]; rfl⟩ h

theorem finalText_snoc {saying : Saying} (named : Bool) (h : saying.content = none → ¬ Ended log ref) :
    finalText (log ++ [⟨ref, named, saying⟩]) ref = saying.after (finalText log ref) := by
  rw [finalText, about_snoc_self, List.filterMap_append, List.foldl_append]
  cases hc : saying.content with
  | some text =>
    have haft : ∀ before, saying.after before = text := by
      cases saying with
      | ended t => exact fun _ => Option.some.inj hc
      | start t | delta t | body t => cases hc
    rw [haft]
    simp [hc]
  | none =>
    have hop := contents_of_open (h hc)
    rw [finalText, hop]
    simp [hc]

theorem finalText_of_not_mem (h : ref ∉ messages log) : finalText log ref = "" := by
  have hn : about ref log = [] := by
    rw [about, List.map_eq_nil_iff, List.filter_eq_nil_iff]
    intro e he hr
    exact h (mem_eraseDups.mpr (mem_map.mpr ⟨e, he, by simpa using hr⟩))
  rw [finalText, hn]
  rfl

theorem ended_snoc {e : Entry} (h : Ended (log ++ [e]) ref) :
    Ended log ref ∨ (e.ref = ref ∧ e.saying.content.isSome = true) := by
  obtain ⟨e', he', hr, hc⟩ := h
  rcases List.mem_append.mp he' with he' | he'
  · exact Or.inl ⟨e', he', hr, hc⟩
  · rw [mem_singleton.mp he'] at hr hc
    exact Or.inr ⟨hr, hc⟩

end Log

section Segments

variable {segments : List Segment} {log : List Entry} {ref text : String} {mode : Mode}

structure Shows (segments : List Segment) (log : List Entry) : Prop where
  ids : segments.map (·.id) = messages log
  texts : ∀ g ∈ segments, g.text = finalText log g.id

theorem messages_nodup (log : List Entry) : (messages log).Nodup := KeysetPaging.nodup_eraseDups _

theorem amendFirst_none (h : ref ∉ segments.map (·.id)) : amendFirst ref mode text segments = none := by
  induction segments with
  | nil => rfl
  | cons g rest ih =>
    obtain ⟨hne, hr⟩ := not_or.mp (List.mem_cons.not.mp h)
    rw [amendFirst, if_neg (fun hg => hne hg.symm), ih hr]
    rfl

theorem amendFirst_some (h : ref ∈ segments.map (·.id)) (hnd : (segments.map (·.id)).Nodup) :
    amendFirst ref mode text segments = some (segments.map fun g =>
      if g.id = ref then { g with text := written mode text g.text } else g) := by
  induction segments with
  | nil => cases h
  | cons g rest ih =>
    obtain ⟨hg, hr⟩ := List.nodup_cons.mp hnd
    rw [amendFirst]
    by_cases hid : g.id = ref
    · rw [if_pos hid, map_cons, if_pos hid]
      congr 2
      have hk : ∀ g' ∈ rest, g'.id ≠ ref := fun g' hg' he =>
        hg (mem_map.mpr ⟨g', hg', he.trans hid.symm⟩)
      exact (List.map_id _).symm.trans (List.map_congr_left fun g' hg' => (if_neg (hk g' hg')).symm)
    · have hm : ref ∈ rest.map (·.id) := (List.mem_cons.mp h).resolve_left fun he => hid he.symm
      rw [if_neg hid, ih hm hr, map_cons, if_neg hid]
      rfl

theorem Shows.amend (h : Shows segments log) {saying : Saying} (named : Bool) (hm : ref ∈ messages log)
    (hop : saying.content = none → ¬ Ended log ref) (hw : ∀ before, written mode text before = saying.after before) :
    ∃ segments', amendFirst ref mode text segments = some segments' ∧
      Shows segments' (log ++ [⟨ref, named, saying⟩]) := by
  refine ⟨_, amendFirst_some (by rw [h.ids]; exact hm) (by rw [h.ids]; exact messages_nodup log), ?_, ?_⟩
  · have hs : (fun g : Segment => (if g.id = ref then { g with text := written mode text g.text } else g).id) =
        fun g => g.id := by
      funext g
      split <;> rfl
    rw [messages_snoc_of_mem hm, ← h.ids, List.map_map]
    exact congrArg (fun f => segments.map f) hs
  · intro g hg
    obtain ⟨g', hg', rfl⟩ := mem_map.mp hg
    by_cases hid : g'.id = ref
    · rw [if_pos hid]
      change written mode text g'.text = finalText _ g'.id
      rw [hid, finalText_snoc named hop, hw, h.texts g' hg', hid]
    · rw [if_neg hid, finalText_snoc_of_ne (fun he => hid he.symm)]
      exact h.texts g' hg'

theorem Shows.push (h : Shows segments log) {saying : Saying} (named : Bool) (seq : Nat) (hn : ref ∉ messages log)
    (haft : saying.after "" = text) : Shows (segments ++ [⟨ref, seq, text⟩]) (log ++ [⟨ref, named, saying⟩]) := by
  constructor
  · rw [messages_snoc_of_not hn, map_append, h.ids]
    rfl
  · intro g hg
    rcases List.mem_append.mp hg with hg | hg
    · have hid : g.id ∈ messages log := by
        rw [← h.ids]
        exact List.mem_map_of_mem hg
      rw [finalText_snoc_of_ne (fun he => hn (by rw [show ref = g.id from he]; exact hid))]
      exact h.texts g hg
    · rw [mem_singleton.mp hg]
      have hop : ¬ Ended log ref := by
        rintro ⟨e, he, rfl, -⟩
        exact hn (mem_eraseDups.mpr (List.mem_map_of_mem he))
      change text = finalText _ ref
      rw [finalText_snoc named fun _ => hop, finalText_of_not_mem hn, haft]

end Segments

section Handlers

variable {run : RunState} {log : List Entry} {seq : Nat} {text : String} {mode : Mode} {saying : Saying} {named : Bool}

structure Inv (run : RunState) (log : List Entry) : Prop where
  shows : Shows run.assistantSegments log
  active : ∀ ref, run.activeAssistantSegmentId = some ref → ref ∈ messages log ∧ ¬ Ended log ref
  current : ∀ ref, run.currentAssistantMessageRef = some ref → ref ∈ messages log ∧ ¬ Ended log ref

variable {e : Entry}

theorem mem_messages_snoc {ref : String} :
    ref ∈ messages (log ++ [e]) ↔ ref ∈ messages log ∨ ref = e.ref := by
  simp only [messages, mem_eraseDups, map_append, List.mem_append, map_cons, map_nil,
    mem_singleton]

theorem stands_snoc {ref : String} (h : ref ∈ messages log ∧ ¬ Ended log ref)
    (he : e.saying.content = none ∨ e.ref ≠ ref) : ref ∈ messages (log ++ [e]) ∧ ¬ Ended (log ++ [e]) ref := by
  refine ⟨mem_messages_snoc.mpr (Or.inl h.1), fun hend => ?_⟩
  rcases ended_snoc hend with hend | ⟨hr, hc⟩
  · exact h.2 hend
  · rcases he with he | he
    · rw [he] at hc
      cases hc
    · exact he hr

theorem stands_self (he : e.saying.content = none) (hop : ¬ Ended log e.ref) :
    e.ref ∈ messages (log ++ [e]) ∧ ¬ Ended (log ++ [e]) e.ref := by
  refine ⟨mem_messages_snoc.mpr (Or.inr rfl), fun hend => ?_⟩
  rcases ended_snoc hend with hend | ⟨-, hc⟩
  · exact hop hend
  · rw [he] at hc
    cases hc

/-- Which segment an `upsert` without a close of its own writes. -/
def placed (run : RunState) (id : Option String) (seq : Nat) (mode : Mode) : String :=
  (id.or (if mode = .set then none else run.activeAssistantSegmentId)).getD (segId seq)

theorem after_empty (h : ∀ before, written mode text before = saying.after before) : saying.after "" = text := by
  rw [← h, written]
  split
  · exact String.empty_append
  · rfl

variable (run seq text mode saying named) in
theorem upsert_shows (h : Shows run.assistantSegments log)
    (hactive : ∀ ref, run.activeAssistantSegmentId = some ref → ref ∈ messages log) (id : Option String) (close : Bool)
    (hwritten : ∀ before, written mode text before = saying.after before)
    (hopen : saying.content = none → ¬ Ended log (placed run id seq mode))
    (hnew : id.or (if mode = .set then none else run.activeAssistantSegmentId) = none → segId seq ∉ messages log) :
    Shows (run.upsert id seq text mode close).assistantSegments (log ++ [⟨placed run id seq mode, named, saying⟩]) ∧
    (run.upsert id seq text mode close).activeAssistantSegmentId =
      (if close then none else some (placed run id seq mode)) ∧
    (run.upsert id seq text mode close).currentAssistantMessageRef = run.currentAssistantMessageRef := by
  cases id with
  | some ref =>
    by_cases hmem : ref ∈ messages log
    · obtain ⟨segments, hamend, hshows⟩ := h.amend named hmem hopen hwritten
      have hbind : (some ref).bind (amendFirst · mode text run.assistantSegments) = some segments := hamend
      rw [RunState.upsert, hbind]
      exact ⟨hshows, rfl, rfl⟩
    · have hnone : (some ref).bind (amendFirst · mode text run.assistantSegments) = none :=
        amendFirst_none (by rw [h.ids]; exact hmem)
      rw [RunState.upsert, hnone]
      dsimp only
      rw [if_neg (fun hc => by cases hc.1)]
      exact ⟨h.push named seq hmem (after_empty hwritten), rfl, rfl⟩
  | none =>
    have hbind : (none : Option String).bind (amendFirst · mode text run.assistantSegments) = none := rfl
    rw [RunState.upsert, hbind]
    dsimp only
    have hplaced : placed run none seq mode =
        ((if mode = .set then none else run.activeAssistantSegmentId).getD (segId seq)) := by rw [placed, Option.none_or]
    have hif : (if (none : Option String) = none ∧ mode ≠ .set then run.activeAssistantSegmentId else none) =
        (if mode = .set then none else run.activeAssistantSegmentId) := by
      by_cases hmode : mode = .set
      · rw [if_pos hmode, if_neg (fun hc => hc.2 hmode)]
      · rw [if_neg hmode, if_pos ⟨rfl, hmode⟩]
    rw [Option.none_or] at hnew
    rw [hif, hplaced]
    rw [hplaced] at hopen
    cases hmode : (if mode = .set then none else run.activeAssistantSegmentId) with
    | none =>
      rw [hmode] at hnew
      exact ⟨h.push named seq (hnew rfl) (after_empty hwritten), rfl, rfl⟩
    | some ref =>
      have hset : run.activeAssistantSegmentId = some ref := by
        split at hmode
        · cases hmode
        · exact hmode
      rw [hmode] at hopen
      obtain ⟨segments, hamend, hshows⟩ := h.amend named (hactive ref hset) hopen hwritten
      have hbind' : (some ref).bind (amendFirst · mode text run.assistantSegments) = some segments := hamend
      rw [hbind']
      refine ⟨hshows, ?_, rfl⟩
      dsimp only
      rw [hset]
      rfl

theorem Inv.startMessage (h : Inv run log) (ref : String) (hop : ¬ Ended log ref) :
    Inv (run.startMessage ref seq text) (log ++ [⟨ref, named, .start text⟩]) := by
  have hs := stands_self (e := ⟨ref, named, .start text⟩) rfl hop
  obtain ⟨hsh, hact, hcr⟩ := upsert_shows
    { run.closeActive with currentAssistantMessageRef := some ref } seq text .set (.start text) named h.shows
    (fun r hr => by cases hr) (some ref) false (fun _ => rfl) (fun _ => hop) (fun hc => by cases hc)
  refine ⟨hsh, fun r hr => ?_, fun r hr => ?_⟩
  · obtain rfl := Option.some.inj (hact.symm.trans hr)
    exact hs
  · obtain rfl := Option.some.inj (hcr.symm.trans hr)
    exact hs

variable (seq text mode saying named) in
theorem Inv.touch (h : Inv run log) (id : Option String) (hmode : mode ≠ .set) (hsaying : saying.content = none)
    (hwritten : ∀ before, written mode text before = saying.after before)
    (hopen : ¬ Ended log ((id.or run.activeAssistantSegmentId).getD (segId seq)))
    (hnew : id.or run.activeAssistantSegmentId = none → segId seq ∉ messages log) :
    Inv (run.touch id seq text mode)
      (log ++ [⟨(id.or run.activeAssistantSegmentId).getD (segId seq), named, saying⟩]) ∧
    (run.touch id seq text mode).activeAssistantSegmentId =
      some ((id.or run.activeAssistantSegmentId).getD (segId seq)) := by
  have hplaced : placed run id seq mode = (id.or run.activeAssistantSegmentId).getD (segId seq) := by
    rw [placed, if_neg hmode]
  have hif : (if mode = .set then none else run.activeAssistantSegmentId) = run.activeAssistantSegmentId := if_neg hmode
  obtain ⟨hshows, hactive, hcurrent⟩ := upsert_shows run seq text mode saying named h.shows
    (fun r hr => (h.active r hr).1) id false hwritten (fun _ => by rw [hplaced]; exact hopen) (by rw [hif]; exact hnew)
  rw [hplaced] at hshows hactive
  generalize (id.or run.activeAssistantSegmentId).getD (segId seq) = ref at *
  have hself := stands_self (e := ⟨ref, named, saying⟩) hsaying hopen
  unfold RunState.touch RunState.captureActiveRefWhenAnonymous
  split
  · refine ⟨⟨hshows, fun r hr => ?_, fun r hr => ?_⟩, hactive⟩
    · obtain rfl := Option.some.inj (hactive.symm.trans hr)
      exact hself
    · obtain rfl := Option.some.inj (hactive.symm.trans hr)
      exact hself
  · refine ⟨⟨hshows, fun r hr => ?_, fun r hr => ?_⟩, hactive⟩
    · obtain rfl := Option.some.inj (hactive.symm.trans hr)
      exact hself
    · exact stands_snoc (h.current r (hcurrent.symm.trans hr)) (Or.inl hsaying)

theorem Inv.closeActive (h : Inv run log) : Inv run.closeActive log := ⟨h.shows, (fun r hr => by cases hr), h.current⟩

theorem Inv.clearCurrent (h : Inv run log) (ref : Option String) : Inv (run.clearCurrentMessageRefIf ref) log := by
  unfold RunState.clearCurrentMessageRefIf
  split
  · exact ⟨h.shows, h.active, fun r hr => by cases hr⟩
  · exact h

/-- The end of an assistant message, which is no longer the current one. -/
theorem Inv.endMessage (h : Inv run log) (id : Option String)
    (hn : id.or run.currentAssistantMessageRef = none → run.assistantSegments = []) :
    Inv ((run.endMessage (id.or run.currentAssistantMessageRef) seq text).clearCurrentMessageRefIf
        (id.or run.currentAssistantMessageRef))
      (log ++ [⟨(id.or run.currentAssistantMessageRef).getD (segId seq), named, .ended text⟩]) := by
  cases ht : id.or run.currentAssistantMessageRef with
  | none =>
    have he := hn ht
    obtain ⟨-, hcr⟩ := Option.or_eq_none_iff.mp ht
    have hm : messages log = [] := by rw [← h.shows.ids, he]; rfl
    have hi : run.activeAssistantSegmentId = none := by
      cases hact : run.activeAssistantSegmentId with
      | none => rfl
      | some r =>
        have hr := (h.active r hact).1
        rw [hm] at hr
        cases hr
    have hp : placed run none seq .replace = segId seq := by
      rw [placed, hi]
      rfl
    obtain ⟨hs, hact, hk⟩ := upsert_shows run seq text .replace (.ended text) named h.shows
      (fun r hr => (h.active r hr).1) none true (fun _ => rfl) (fun hc => by cases hc)
      (fun _ => by rw [hm]; exact List.not_mem_nil)
    rw [hp] at hs
    rw [RunState.endMessage, if_neg (fun hc => hc.2 he)]
    refine Inv.clearCurrent ⟨hs, fun r hr => ?_, fun r hr => ?_⟩ _
    · cases hact.symm.trans hr
    · cases hcr.symm.trans (hk.symm.trans hr)
  | some ref =>
    obtain ⟨hs, hact, hk⟩ := upsert_shows run seq text .replace (.ended text)
      named h.shows (fun r hr => (h.active r hr).1) (some ref) true (fun _ => rfl)
      (fun hc => by cases hc) (fun hc => by cases hc)
    rw [RunState.endMessage, if_neg (fun hc => by cases hc.1)]
    unfold RunState.clearCurrentMessageRefIf
    split
    · refine ⟨hs, fun r hr => ?_, fun r hr => by cases hr⟩
      cases hact.symm.trans hr
    next hoth =>
      refine ⟨hs, fun r hr => ?_, fun r hr => ?_⟩
      · cases hact.symm.trans hr
      · refine stands_snoc (h.current r (hk.symm.trans hr)) (Or.inr fun href => hoth ⟨(fun hc => by cases hc), ?_⟩)
        rw [hr]
        exact congrArg some href

theorem Inv.turnEnd (h : Inv run log) (payload : TurnPayload) :
    Inv (applyTurnEnd run seq payload) (log ++ heard run seq (.turnEnd payload)) := by
  have hf : ∀ (run : RunState) (log : List Entry), Inv run log →
      Inv { run with currentAssistantMessageRef := none } log :=
    fun _ _ h => ⟨h.shows, h.active, fun r hr => by cases hr⟩
  rw [applyTurnEnd, heard, sayings]
  apply hf
  by_cases he : run.assistantSegments = []
  · rw [if_pos he]
    cases extractTurnEndAssistantMessage payload with
    | none =>
      rw [Option.map_none, Option.toList_none, map_nil, append_nil]
      exact h.closeActive
    | some text =>
      have hm : messages log = [] := by rw [← h.shows.ids, he]; rfl
      obtain ⟨hs, hact, hk⟩ := upsert_shows run seq text .set (.ended text) false h.shows (fun r hr => (h.active r hr).1) none true (fun _ => rfl)
        (fun hc => by cases hc) (fun _ => by rw [hm]; exact List.not_mem_nil)
      dsimp only
      rw [if_pos he]
      refine ⟨?_, ?_, ?_⟩
      · exact hs
      · intro r hr
        cases hact.symm.trans hr
      · intro r hr
        have hr := (h.current r (hk.symm.trans hr)).1
        rw [hm] at hr
        cases hr
  · rw [if_neg he, map_nil, append_nil]
    cases extractTurnEndAssistantMessage payload with
    | none => exact h.closeActive
    | some text =>
      dsimp only
      rw [if_neg he]
      exact h.closeActive

theorem Inv.messageStart (h : Inv run log) (messageId : Option String) (message : Option Message)
    (hop : ∀ e ∈ heard run seq (.messageStart messageId message), e.saying.content = none → ¬ Ended log e.ref) :
    Inv (applyMessageStart run seq messageId message) (log ++ heard run seq (.messageStart messageId message)) := by
  cases message with
  | some message =>
    rw [heard, sayings] at hop ⊢
    rw [applyMessageStart]
    by_cases hr : message.role = "assistant"
    · rw [if_pos hr] at hop ⊢
      rw [if_neg (by rw [hr]; decide), if_pos hr]
      exact h.startMessage _ (hop _ (mem_singleton_self _) rfl)
    · rw [if_neg hr, if_neg hr, map_nil, append_nil]
      split
      · exact ⟨h.shows, h.active, h.current⟩
      · exact h
  | none =>
    cases messageId with
    | none =>
      change Inv run (log ++ [])
      rw [append_nil]
      exact h
    | some ref => exact h.startMessage ref (hop _ (mem_singleton_self _) rfl)

theorem Inv.messageEnd (h : Inv run log) (messageId : Option String) (message : Option Message)
    (he : target run (.messageEnd messageId message) = none →
      (∃ e ∈ heard run seq (.messageEnd messageId message), e.saying.content.isSome = true) →
      run.assistantSegments = []) :
    Inv (applyMessageEnd run seq messageId message) (log ++ heard run seq (.messageEnd messageId message)) := by
  unfold applyMessageEnd
  cases message with
  | some message =>
    dsimp only
    by_cases hr : message.role = "assistant"
    · have hh : heard run seq (.messageEnd messageId (some message)) =
          [⟨(messageId.or run.currentAssistantMessageRef).getD (segId seq), messageId.isSome,
            .ended (flattenMessageContent message.content)⟩] := by
        rw [heard, sayings, if_pos hr]
        rfl
      rw [if_neg (by rw [hr]; decide), if_pos hr, hh]
      exact h.endMessage messageId fun hn => he hn ⟨_, by rw [hh]; exact mem_singleton_self _, rfl⟩
    · rw [heard, sayings, if_neg hr, if_neg hr, map_nil, append_nil]
      apply Inv.clearCurrent
      split
      · exact ⟨h.shows, h.active, h.current⟩
      · exact h
  | none =>
    have hh : heard run seq (.messageEnd messageId none) = [] := rfl
    rw [hh, append_nil]
    dsimp only
    apply Inv.clearCurrent
    split
    · unfold RunState.closeExisting
      split
      · exact h.closeActive
      · exact h
    · exact h

theorem Inv.messageUpdate (h : Inv run log) (messageId textDelta : Option String) (contentBlocks : Option (List Block))
    (hop : ∀ e ∈ heard run seq (.messageUpdate messageId textDelta contentBlocks), e.saying.content = none →
      ¬ Ended log e.ref)
    (hn : target run (.messageUpdate messageId textDelta contentBlocks) = none →
      heard run seq (.messageUpdate messageId textDelta contentBlocks) ≠ [] → segId seq ∉ messages log) :
    Inv (applyMessageUpdate run seq messageId textDelta contentBlocks)
      (log ++ heard run seq (.messageUpdate messageId textDelta contentBlocks)) := by
  unfold heard sayings target at *
  dsimp only at *
  unfold applyMessageUpdate
  dsimp only
  generalize messageId.or run.currentAssistantMessageRef = id at *
  cases hdelta : given textDelta with
  | none =>
    rw [hdelta] at hop hn
    cases hbd : given (contentBlocks.map blocksText) with
    | none =>
      change Inv run (log ++ [])
      rw [append_nil]
      exact h
    | some body =>
      rw [hbd] at hop hn
      exact (h.touch _ _ _ _ _ id (by decide) rfl (fun _ => rfl) (hop _ (mem_singleton_self _) rfl)
        (fun hnn => hn hnn (cons_ne_nil _ _))).1
  | some delta =>
    rw [hdelta] at hop hn
    obtain ⟨hf, hact⟩ := h.touch seq delta .append (.delta delta) messageId.isSome id (by decide) rfl (fun _ => rfl) (hop _ List.mem_cons_self rfl)
      (fun hnn => hn hnn (cons_ne_nil _ _))
    cases hbd : given (contentBlocks.map blocksText) with
    | none => exact hf
    | some body =>
      have hsl := stands_self (e := ⟨(id.or run.activeAssistantSegmentId).getD (segId seq), messageId.isSome,
        .delta delta⟩) rfl (hop _ List.mem_cons_self rfl)
      have hs : (id.or (run.touch id seq delta .append).activeAssistantSegmentId).getD (segId seq) =
          (id.or run.activeAssistantSegmentId).getD (segId seq) := by
        rw [hact]
        cases id <;> rfl
      obtain ⟨hsec, -⟩ := hf.touch seq body .replace (.body body) messageId.isSome id (by decide) rfl (fun _ => rfl) (by rw [hs]; exact hsl.2)
        (fun hnn => by
          rw [hact, Option.or_eq_none_iff] at hnn
          cases hnn.2)
      rw [hs, List.append_assoc] at hsec
      exact hsec

theorem Inv.process (h : Inv run log) (event : Event)
    (hop : ∀ e ∈ heard run seq event, e.saying.content = none → ¬ Ended log e.ref)
    (he : target run event = none → (∃ e ∈ heard run seq event, e.saying.content.isSome = true) →
      run.assistantSegments = [])
    (hn : target run event = none → heard run seq event ≠ [] → segId seq ∉ messages log) :
    Inv (processEvent run seq event) (log ++ heard run seq event) := by
  have hr : Inv { run with lastSeq := seq } log := ⟨h.shows, h.active, h.current⟩
  unfold processEvent
  cases event with
  | messageStart messageId message => cases message <;> exact hr.messageStart messageId _ hop
  | messageEnd messageId message => cases message <;> exact hr.messageEnd messageId _ he
  | messageUpdate messageId textDelta contentBlocks =>
    exact hr.messageUpdate messageId textDelta contentBlocks hop hn
  | turnEnd payload => exact hr.turnEnd payload
  | toolExecutionStart =>
    change Inv _ (log ++ [])
    rw [append_nil]
    exact hr.closeActive
  | toolExecutionEnd | notice =>
    change Inv _ (log ++ [])
    rw [append_nil]
    exact hr

end Handlers

section LastSeq

variable (run : RunState) (seq : Nat)

theorem upsert_lastSeq (id : Option String) (text : String) (mode : Mode) (close : Bool) :
    (run.upsert id seq text mode close).lastSeq = run.lastSeq := by
  unfold RunState.upsert
  split
  · rfl
  · split <;> rfl

theorem touch_lastSeq (id : Option String) (text : String) (mode : Mode) :
    (run.touch id seq text mode).lastSeq = run.lastSeq := by
  unfold RunState.touch RunState.captureActiveRefWhenAnonymous
  split <;> exact upsert_lastSeq ..

theorem clearCurrent_lastSeq (ref : Option String) : (run.clearCurrentMessageRefIf ref).lastSeq = run.lastSeq := by
  unfold RunState.clearCurrentMessageRefIf
  split <;> rfl

theorem processEvent_lastSeq (event : Event) : (processEvent run seq event).lastSeq = seq := by
  unfold processEvent
  cases event with
  | messageStart messageId message =>
    dsimp only [applyMessageStart]
    split
    · split
      · rfl
      · split
        · exact upsert_lastSeq ..
        · rfl
    · split
      · exact upsert_lastSeq ..
      · rfl
  | messageEnd messageId message =>
    dsimp only [applyMessageEnd]
    rw [clearCurrent_lastSeq]
    split
    · split
      · rfl
      · split
        · unfold RunState.endMessage
          split
          · rfl
          · exact upsert_lastSeq ..
        · rfl
    · split
      · unfold RunState.closeExisting
        split <;> rfl
      · rfl
  | messageUpdate messageId textDelta contentBlocks =>
    dsimp only [applyMessageUpdate]
    split
    · rw [touch_lastSeq]
      split
      · exact touch_lastSeq ..
      · rfl
    · split
      · exact touch_lastSeq ..
      · rfl
  | turnEnd payload =>
    dsimp only [applyTurnEnd]
    split
    · split
      · exact upsert_lastSeq ..
      · rfl
    · rfl
  | toolExecutionStart | toolExecutionEnd | notice => rfl

end LastSeq

section Runs

open Schedule

variable {s : State} {envelope : Envelope} {log : List Entry}

def Apart (log : List Entry) : Prop :=
  ∀ e ∈ log, e.named = true → (log.find? (·.ref == e.ref)).any (·.named) = true

theorem Apart.snoc (h : Apart log) {e : Entry}
    (hn : e.named = true → e.ref ∈ messages log → ∃ e' ∈ log, e'.ref = e.ref ∧ e'.named = true) :
    Apart (log ++ [e]) := by
  intro e' he' hn'
  rw [List.find?_append]
  have hold : ∀ e'' ∈ log, e''.named = true → e''.ref = e'.ref →
      ((log.find? (·.ref == e'.ref)).or ([e].find? (·.ref == e'.ref))).any (·.named) = true := by
    intro e'' he'' hnamed'' hr
    have hany := h e'' he'' hnamed''
    rw [hr] at hany
    cases hf : log.find? (·.ref == e'.ref) with
    | none =>
      rw [hf] at hany
      cases hany
    | some found =>
      rw [hf] at hany
      exact hany
  rcases List.mem_append.mp he' with hm | hm
  · exact hold e' hm hn' rfl
  · obtain rfl := mem_singleton.mp hm
    by_cases hkn : e'.ref ∈ messages log
    · obtain ⟨e'', he'', hr, hnamed''⟩ := hn hn' hkn
      exact hold e'' he'' hnamed'' hr
    · have hnn : log.find? (·.ref == e'.ref) = none := by
        rw [List.find?_eq_none]
        intro e'' he'' hr
        exact hkn (mem_eraseDups.mpr (mem_map.mpr ⟨e'', he'', by simpa using hr⟩))
      rw [hnn, Option.none_or, List.find?_singleton, if_pos (by simp)]
      exact hn'

theorem Apart.append (h : Apart log) (ref : String) (named : Bool) (es : List Entry)
    (hs : ∀ e ∈ es, e.ref = ref ∧ e.named = named)
    (hn : es ≠ [] → named = true → ref ∈ messages log → ∃ e' ∈ log, e'.ref = ref ∧ e'.named = true) :
    Apart (log ++ es) := by
  induction es generalizing log with
  | nil =>
    rw [append_nil]
    exact h
  | cons e es ih =>
    obtain ⟨⟨rfl, rfl⟩, hr⟩ := List.forall_mem_cons.mp hs
    have hl := h.snoc (hn (cons_ne_nil _ _))
    rw [show log ++ e :: es = (log ++ [e]) ++ es from by simp]
    exact ih hl hr fun _ ht _ =>
      ⟨e, List.mem_append_right _ (mem_singleton_self e), rfl, ht⟩

structure Stands (s : State) : Prop where
  inv : Inv s.current s.log
  apart : Apart s.log
  none : s.run = none → s.received = []
  last : ∀ run, s.run = some run → (∀ e ∈ s.received, e.seq ≤ run.lastSeq) ∧ ∃ e ∈ s.received, e.seq = run.lastSeq

theorem stands_start : Stands {} where
  inv := ⟨⟨rfl, fun g hg => by cases hg⟩, (fun r hr => by cases hr), fun r hr => by cases hr⟩
  apart := fun e he => by cases he
  none := fun _ => rfl
  last := fun run hrun => by cases hrun

theorem Stands.again (h : Stands s) (hag : envelope ∈ s.received) : (step envelope s).run = s.run := by
  cases hr : s.run with
  | none =>
    rw [h.none hr] at hag
    cases hag
  | some run =>
    have hle := (h.last run hr).1 envelope hag
    change some (receive s.run envelope) = _
    rw [hr, receive, if_pos hle]

theorem receive_fresh (h : Stands s) (hfr : Fresh s envelope) :
    receive s.run envelope = processEvent s.current envelope.seq envelope.event := by
  cases hr : s.run with
  | none =>
    rw [State.current, hr]
    rfl
  | some run =>
    obtain ⟨e, he, heq⟩ := (h.last run hr).2
    have hlt := hfr e he
    rw [receive, if_neg (by omega), State.current, hr]
    rfl

theorem stands_step (h : Stands s) (hd : Delivered s envelope) (had : Addresses s envelope) :
    Stands (step envelope s) := by
  by_cases hfr : Fresh s envelope
  · obtain ⟨hop, hend, hn, hnew⟩ := had hfr
    have hr := receive_fresh h hfr
    have hl : (step envelope s).log = s.log ++ s.heard envelope := if_pos hfr
    have hc : (step envelope s).current = processEvent s.current envelope.seq envelope.event := by
      change (some (receive s.run envelope)).getD {} = _
      rw [hr]
      rfl
    have hs := processEvent_lastSeq s.current envelope.seq envelope.event
    refine ⟨?_, ?_, (fun hnn => by cases hnn), ?_⟩
    · rw [hc, hl]
      exact h.inv.process envelope.event hop hend hnew
    · rw [hl]
      refine h.apart.append ((target s.current envelope.event).getD (segId envelope.seq))
        envelope.event.messageId.isSome (s.heard envelope) (fun e he => ?_) (fun hne hnm hm => ?_)
      · obtain ⟨saying, -, rfl⟩ := mem_map.mp he
        exact ⟨rfl, rfl⟩
      · obtain ⟨e, he⟩ := List.exists_mem_of_ne_nil _ hne
        have hat := hn e he
        obtain ⟨saying, -, rfl⟩ := mem_map.mp he
        exact hat hnm hm
    · intro run hrun
      obtain rfl : processEvent s.current envelope.seq envelope.event = run := by
        rw [← hr]
        exact Option.some.inj hrun
      rw [hs]
      refine ⟨fun e he => ?_, envelope, List.mem_append_right _ (mem_singleton_self _), rfl⟩
      rcases List.mem_append.mp he with he | he
      · exact Nat.le_of_lt (hfr e he)
      · rw [mem_singleton.mp he]
  · have hag := hd.resolve_left hfr
    have hrun := h.again hag
    have hl : (step envelope s).log = s.log := if_neg hfr
    have hc : (step envelope s).current = s.current := by rw [State.current, State.current, hrun]
    refine ⟨by rw [hc, hl]; exact h.inv, by rw [hl]; exact h.apart, (fun hnn => by cases hnn), ?_⟩
    intro run hrun'
    obtain ⟨hle, e, he, heq⟩ := h.last run (hrun.symm.trans hrun')
    refine ⟨fun e' he' => ?_, e, List.mem_append_left _ he, heq⟩
    rcases List.mem_append.mp he' with he' | he'
    · exact hle e' he'
    · rw [mem_singleton.mp he']
      exact hle envelope hag

theorem Stands.rendered (h : Stands s) : Rendered s := by
  refine ⟨?_, h.apart⟩
  rw [← h.inv.shows.ids, List.map_map]
  apply List.map_congr_left
  intro g hg
  rw [h.inv.shows.texts g hg]
  rfl

/-- While every event addresses its message, each state shows every message, the ended ones with the content of their
end, and an envelope that comes again changes nothing. -/
theorem run_rendered (envelopes : List Envelope)
    (h : Meets step (fun s envelope => Delivered s envelope ∧ Addresses s envelope) envelopes {}) :
    Rendered (run step envelopes {}) ∧
      ∀ e ∈ (run step envelopes {}).received, (step e (run step envelopes {})).run = (run step envelopes {}).run := by
  have hstands := run_invariant (fun s envelope hs hok => stands_step hs hok.1 hok.2) stands_start h
  exact ⟨hstands.rendered, fun e he => hstands.again he⟩

end Runs

section Samples

open Schedule

def assistantEnd (messageId : Option String) (text : String) : Event :=
  .messageEnd messageId (some ⟨"assistant", .text text⟩)

theorem run_rendered_streamed :
    let envelopes : List Envelope := [⟨1, .messageStart (some "a") (some ⟨"assistant", .text ""⟩)⟩,
      ⟨2, .messageUpdate none (some "Hel") none⟩, ⟨1, .messageStart (some "a") (some ⟨"assistant", .text ""⟩)⟩,
      ⟨3, .toolExecutionStart⟩, ⟨4, assistantEnd none "Hello"⟩, ⟨5, assistantEnd (some "b") "Done"⟩]
    Rendered (run step envelopes {}) ∧
      ∀ e ∈ (run step envelopes {}).received, (step e (run step envelopes {})).run = (run step envelopes {}).run :=
  run_rendered _ (by decide +kernel)

/-- Two assistant messages of the kind `sdk.message`, which carries no id: the second is not shown. -/
def anonymousPair : List Envelope :=
  [⟨1, assistantEnd none "one"⟩, ⟨2, assistantEnd none "two"⟩]

theorem anonymous_dropped :
    adaptAssistantMessage none none none "assistant" (some (.text "one")) = some (assistantEnd none "one") ∧
    adaptAssistantMessage none none none "assistant" (some (.text "two")) = some (assistantEnd none "two") ∧
    Meets step Delivered anonymousPair {} ∧
    (run step anonymousPair {}).current.assistantSegments.map (·.text) = ["one"] ∧
    ¬ Rendered (run step anonymousPair {}) := by
  have hs : (run step anonymousPair {}).current.assistantSegments.map (fun g => (g.id, g.text)) ≠
      (messages (run step anonymousPair {}).log).map
        fun ref => (ref, finalText (run step anonymousPair {}).log ref) := by decide +kernel
  exact ⟨by decide, by decide, by decide +kernel, by decide +kernel, fun h => hs h.segments⟩

end Samples

end HrcRuntime.SessionEvents
