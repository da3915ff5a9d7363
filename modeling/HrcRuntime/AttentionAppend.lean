import HrcRuntime.EventHistory
import HrcRuntime.Schedule

namespace HrcRuntime.AttentionAppend

open Json EventFilters EventTail Schedule
open List (mem_singleton)

inductive TurnAttention where
  | appended (event : HrcLifecycleEvent)
  | existing (event : HrcLifecycleEvent)
  | unknownTurn
  | invocationMismatch (expected : Option String)
  | staleTurn (completed newer : Nat)

variable (reader : RowReader) (encode : Json → String)

/-- `json_extract` of a row's payload, as far as it is a text. -/
def text (payloadJson : String) (key : String) : Option String := (reader.payload payloadJson).stringField key

/-- A payload as the route builds it: it carries the turn's id and a classifier version. -/
structure Classification where
  runtimeId : String
  turnId : String
  payloadJson : String
  carriesTurn : text reader payloadJson "turnId" = some turnId
  carriesVersion : (text reader payloadJson "classifierVersion").isSome = true

def isCompletion (runtimeId turnId : String) (row : HrcEventRow) : Bool :=
  text reader row.payloadJson "turnId" == some turnId && row.eventKind == "turn.completed" &&
    row.runtimeId == some runtimeId

def isAttention (runtimeId turnId version : String) (row : HrcEventRow) : Bool :=
  row.eventKind == "turn.attention" && row.runtimeId == some runtimeId &&
    text reader row.payloadJson "turnId" == some turnId &&
    text reader row.payloadJson "classifierVersion" == some version

/-- A column read as an optional text: an array or an object is read as its JSON text. -/
def optionalText : Json → Except Unit (Option String)
  | .null => .ok none
  | .str s => .ok (some s)
  | .bool _ => .error ()
  | .num _ => .error ()
  | v => .ok (some (encode v))

variable {reader}

def Classification.version (c : Classification reader) : String :=
  (text reader c.payloadJson "classifierVersion").getD ""

/-- A row of the completion's session after it. -/
def after (completion row : HrcEventRow) : Bool :=
  row.hostSessionId == completion.hostSessionId && row.generation == completion.generation &&
    decide (completion.hrcSeq < row.hrcSeq)

def repeats (completion : HrcEventRow) (c : Classification reader) (row : HrcEventRow) : Bool :=
  after completion row && row.eventKind == "turn.attention" &&
    text reader row.payloadJson "turnId" == some c.turnId &&
    text reader row.payloadJson "classifierVersion" == some c.version

def attentionRow (ts : String) (streamSeq : Nat) (completion : HrcEventRow) (c : Classification reader) : HrcEventRow where
  hrcSeq := 0
  streamSeq
  ts
  hostSessionId := completion.hostSessionId
  scopeRef := completion.scopeRef
  laneRef := completion.laneRef
  generation := completion.generation
  runtimeId := some c.runtimeId
  runId := completion.runId
  category := "turn"
  eventKind := "turn.attention"
  payloadJson := c.payloadJson

def lastCompletion (ledger : Ledger) (c : Classification reader) : Option HrcEventRow :=
  ledger.rows.reverse.find? (isCompletion reader c.runtimeId c.turnId)

/-- What follows once the completion is read: rows are searched in the order of their keys. -/
def attend (ledger : Ledger) (ts : String) (streamSeq : Nat) (c : Classification reader) (completion : HrcEventRow)
    (invocation : Option String) : TurnAttention × Ledger :=
  if invocation ≠ text reader c.payloadJson "invocationId" then (.invocationMismatch invocation, ledger)
  else match ledger.rows.find? (repeats completion c) with
  | some row => (.existing (mapRow reader row), ledger)
  | none => match ledger.rows.find? fun row => after completion row && row.category == "turn" with
    | some newer => (.staleTurn completion.hrcSeq newer.hrcSeq, ledger)
    | none =>
      (.appended (mapRow reader { attentionRow ts streamSeq completion c with hrcSeq := ledger.nextHrcSeq }),
        ledger.append (attentionRow ts streamSeq completion c))

def appendTurnAttention (ledger : Ledger) (ts : String) (streamSeq : Nat) (c : Classification reader) :
    Except Unit (TurnAttention × Ledger) :=
  match lastCompletion ledger c with
  | none => .ok (.unknownTurn, ledger)
  | some completion =>
    (optionalText encode (((reader.payload completion.payloadJson).member "invocationId").getD .null)).map
      (attend ledger ts streamSeq c completion)

/-- A row of another writer: `turn.attention` is written by the route alone. -/
structure OtherRow where
  row : HrcEventRow
  other : row.eventKind ≠ "turn.attention"

variable (reader) in
inductive Action where
  | append (row : OtherRow)
  | classify (ts : String) (streamSeq : Nat) (c : Classification reader)

def step : Action reader → Ledger → Ledger
  | .append other, ledger => ledger.append other.row
  | .classify ts streamSeq c, ledger =>
    match appendTurnAttention encode ledger ts streamSeq c with
    | .ok (_, ledger) => ledger
    | .error _ => ledger

/-- No completion of the turn lies above an event that already records the classification. -/
def unrepeated (ledger : Ledger) : Action reader → Bool
  | .append _ => true
  | .classify _ _ c => ledger.rows.all fun a => !isAttention reader c.runtimeId c.turnId c.version a ||
      ledger.rows.all fun d => !isCompletion reader c.runtimeId c.turnId d || decide (d.hrcSeq < a.hrcSeq)

/-- A completion as an attention event names it: the last one before it, and no later turn event comes before it. -/
structure Names (reader : RowReader) (ledger : Ledger) (runtimeId turnId : String) (a completion : HrcEventRow) : Prop where
  completes : isCompletion reader runtimeId turnId completion = true
  host : completion.hostSessionId = a.hostSessionId
  generation : completion.generation = a.generation
  below : completion.hrcSeq < a.hrcSeq
  last : ∀ d ∈ ledger.rows, isCompletion reader runtimeId turnId d = true → d.hrcSeq < a.hrcSeq →
    d.hrcSeq ≤ completion.hrcSeq
  fresh : ∀ d ∈ ledger.rows, d.hostSessionId = a.hostSessionId → d.generation = a.generation → d.category = "turn" →
    completion.hrcSeq < d.hrcSeq → a.hrcSeq ≤ d.hrcSeq

/-- A classification of a turn is recorded once, above the turn's completion and below no later turn event. -/
structure Recorded (reader : RowReader) (ledger : Ledger) : Prop where
  once : ∀ runtimeId turnId version, ∀ a ∈ ledger.rows, ∀ b ∈ ledger.rows,
    isAttention reader runtimeId turnId version a = true → isAttention reader runtimeId turnId version b = true → a = b
  named : ∀ runtimeId turnId version, ∀ a ∈ ledger.rows, isAttention reader runtimeId turnId version a = true →
    ∃ completion ∈ ledger.rows, Names reader ledger runtimeId turnId a completion

variable {ledger : Ledger} {ts : String} {streamSeq : Nat} {c : Classification reader} {completion : HrcEventRow}
  {runtimeId turnId version : String}

theorem attend_cases (invocation : Option String) :
    (attend ledger ts streamSeq c completion invocation).2 = ledger ∨
      ledger.rows.find? (repeats completion c) = none ∧
      ledger.rows.find? (fun row => after completion row && row.category == "turn") = none ∧
      (attend ledger ts streamSeq c completion invocation).2 = ledger.append (attentionRow ts streamSeq completion c) := by
  unfold attend
  split
  · exact .inl rfl
  · split
    · exact .inl rfl
    · rename_i hr
      split
      · exact .inl rfl
      · rename_i hn
        exact .inr ⟨hr, hn, rfl⟩

theorem step_classify : step encode (.classify ts streamSeq c) ledger = ledger ∨
    ∃ completion, lastCompletion ledger c = some completion ∧ ledger.rows.find? (repeats completion c) = none ∧
      ledger.rows.find? (fun row => after completion row && row.category == "turn") = none ∧
      step encode (.classify ts streamSeq c) ledger = ledger.append (attentionRow ts streamSeq completion c) := by
  simp only [step, appendTurnAttention]
  cases hl : lastCompletion ledger c with
  | none => exact .inl rfl
  | some completion =>
    dsimp only
    cases optionalText encode (((reader.payload completion.payloadJson).member "invocationId").getD .null) with
    | error _ => exact .inl rfl
    | ok invocation =>
      rcases attend_cases invocation with hs | ⟨hr, hn, hap⟩
      · exact .inl hs
      · exact .inr ⟨completion, rfl, hr, hn, hap⟩

theorem lastCompletion_spec (h : lastCompletion ledger c = some completion) :
    completion ∈ ledger.rows ∧ isCompletion reader c.runtimeId c.turnId completion = true ∧
      ∀ d ∈ ledger.rows, isCompletion reader c.runtimeId c.turnId d = true → d.hrcSeq ≤ completion.hrcSeq := by
  obtain ⟨hc, later, earlier, hrw, hl⟩ := List.find?_eq_some_iff_append.mp h
  have hs : (later ++ completion :: earlier).Pairwise fun a b => b.hrcSeq < a.hrcSeq :=
    hrw ▸ List.pairwise_reverse.mpr ledger.ascending
  have hm : ∀ d, d ∈ ledger.rows ↔ d ∈ later ++ completion :: earlier := fun d => by rw [← hrw, List.mem_reverse]
  refine ⟨(hm completion).mpr (List.mem_append_right _ List.mem_cons_self), hc, fun d hd hcm => ?_⟩
  rcases List.mem_append.mp ((hm d).mp hd) with hab | hr
  · have := hl d hab
    rw [hcm] at this
    cases this
  · rcases List.mem_cons.mp hr with rfl | hbl
    · exact Nat.le_refl _
    · exact Nat.le_of_lt ((List.pairwise_cons.mp (List.pairwise_append.mp hs).2.1).1 d hbl)

/-- A row that is appended above the others keeps what is recorded, if it records nothing that is there. -/
theorem Recorded.append (h : Recorded reader ledger) (row : HrcEventRow)
    (hr : ∀ runtimeId turnId version, isAttention reader runtimeId turnId version row = true →
      (∀ a ∈ ledger.rows, isAttention reader runtimeId turnId version a = false) ∧
      ∃ completion ∈ ledger.rows, Names reader (ledger.append row) runtimeId turnId
        { row with hrcSeq := ledger.nextHrcSeq } completion) : Recorded reader (ledger.append row) := by
  have hnew : ∀ runtimeId turnId version, isAttention reader runtimeId turnId version
      { row with hrcSeq := ledger.nextHrcSeq } = isAttention reader runtimeId turnId version row := fun _ _ _ => rfl
  constructor
  · intro runtimeId turnId version a ha b hb hat ha'
    rcases List.mem_append.mp ha with ha | ha <;> rcases List.mem_append.mp hb with hb | hb
    · exact h.once runtimeId turnId version a ha b hb hat ha'
    · rw [mem_singleton.mp hb, hnew] at ha'
      rw [(hr runtimeId turnId version ha').1 a ha] at hat
      cases hat
    · rw [mem_singleton.mp ha, hnew] at hat
      rw [(hr runtimeId turnId version hat).1 b hb] at ha'
      cases ha'
    · rw [mem_singleton.mp ha, mem_singleton.mp hb]
  · intro runtimeId turnId version a ha hat
    rcases List.mem_append.mp ha with ha | ha
    · obtain ⟨completion, hm, hn⟩ := h.named runtimeId turnId version a ha hat
      have hab := ledger.allocated a ha
      refine ⟨completion, List.mem_append_left _ hm, hn.completes, hn.host, hn.generation, hn.below,
        fun d hd hc hlt => ?_, fun d hd hh hg ht hlt => ?_⟩
      · rcases List.mem_append.mp hd with hd | hd
        · exact hn.last d hd hc hlt
        · rw [mem_singleton.mp hd] at hlt
          exact absurd hlt (Nat.lt_asymm hab)
      · rcases List.mem_append.mp hd with hd | hd
        · exact hn.fresh d hd hh hg ht hlt
        · rw [mem_singleton.mp hd]
          exact Nat.le_of_lt hab
    · rw [mem_singleton.mp ha] at hat ⊢
      obtain ⟨completion, hm, hn⟩ := (hr runtimeId turnId version hat).2
      exact ⟨completion, List.mem_append_left _ hm, hn⟩

theorem isAttention_iff {row : HrcEventRow} : isAttention reader runtimeId turnId version row = true ↔
    row.eventKind = "turn.attention" ∧ row.runtimeId = some runtimeId ∧ text reader row.payloadJson "turnId" = some turnId ∧
      text reader row.payloadJson "classifierVersion" = some version := by
  simp only [isAttention, Bool.and_eq_true, beq_iff_eq, and_assoc]

theorem Classification.text_version (c : Classification reader) :
    text reader c.payloadJson "classifierVersion" = some c.version := by
  obtain ⟨found, hf⟩ := Option.isSome_iff_exists.mp c.carriesVersion
  rw [Classification.version, hf]
  rfl

theorem unrecorded (h : Recorded reader ledger) (hok : unrepeated ledger (.classify ts streamSeq c) = true)
    (hl : lastCompletion ledger c = some completion) (hr : ledger.rows.find? (repeats completion c) = none) :
    ∀ a ∈ ledger.rows, isAttention reader c.runtimeId c.turnId c.version a = false := by
  intro a ha
  by_contra hat
  rw [Bool.not_eq_false] at hat
  obtain ⟨hm, hc, hg⟩ := lastCompletion_spec hl
  have hall := List.all_eq_true.mp hok a ha
  rw [hat, Bool.not_true, Bool.false_or] at hall
  have hlt := List.all_eq_true.mp hall completion hm
  rw [hc, Bool.not_true, Bool.false_or, decide_eq_true_eq] at hlt
  obtain ⟨named, hn, hnm⟩ := h.named _ _ _ a ha hat
  have hs : named.hrcSeq = completion.hrcSeq :=
    Nat.le_antisymm (hg named hn hnm.completes) (hnm.last completion hm hc hlt)
  obtain rfl := List.inj_on_of_nodup_map (List.pairwise_map.mpr (ledger.ascending.imp fun h => Nat.ne_of_lt h))
    hn hm hs
  obtain ⟨hk, -, ht, hv⟩ := isAttention_iff.mp hat
  have hf : repeats named c a = true := by
    simp [repeats, after, hk, ht, hv, hnm.host, hnm.generation, hlt]
  exact absurd hf (List.find?_eq_none.mp hr a ha)

theorem names_appended (hl : lastCompletion ledger c = some completion)
    (hn : ledger.rows.find? (fun row => after completion row && row.category == "turn") = none) :
    Names reader (ledger.append (attentionRow ts streamSeq completion c)) c.runtimeId c.turnId
      { attentionRow ts streamSeq completion c with hrcSeq := ledger.nextHrcSeq } completion := by
  obtain ⟨hm, hc, hgr⟩ := lastCompletion_spec hl
  refine ⟨hc, rfl, rfl, ledger.allocated completion hm, fun d hd hcm hlt => ?_,
    fun d hd hh hg ht hlt => ?_⟩
  · rcases List.mem_append.mp hd with hd | hd
    · exact hgr d hd hcm
    · rw [mem_singleton.mp hd] at hlt
      exact absurd hlt (Nat.lt_irrefl _)
  · rcases List.mem_append.mp hd with hd | hd
    · refine absurd ?_ (List.find?_eq_none.mp hn d hd)
      simp [after, ht, hlt, show d.hostSessionId = completion.hostSessionId from hh,
        show d.generation = completion.generation from hg]
    · rw [mem_singleton.mp hd]

theorem recorded_step (h : Recorded reader ledger) (a : Action reader) (hok : unrepeated ledger a = true) :
    Recorded reader (step encode a ledger) := by
  cases a with
  | append other =>
    exact h.append other.row fun runtimeId turnId version hat =>
      absurd (isAttention_iff.mp hat).1 other.other
  | classify ts streamSeq c =>
    rcases step_classify encode with hs | ⟨completion, hl, hr, hn, hap⟩
    · exact hs ▸ h
    · rw [hap]
      refine h.append _ fun runtimeId turnId version hat => ?_
      obtain ⟨-, hrn, ht, hv⟩ := isAttention_iff.mp hat
      obtain rfl : c.runtimeId = runtimeId := Option.some.inj hrn
      obtain rfl : c.turnId = turnId := Option.some.inj (c.carriesTurn.symm.trans ht)
      obtain rfl : c.version = version := Option.some.inj (c.text_version.symm.trans hv)
      exact ⟨unrecorded h hok hl hr, completion, (lastCompletion_spec hl).1, names_appended hl hn⟩

theorem recorded_run {actions : List (Action reader)} (hnone : ∀ row ∈ ledger.rows, row.eventKind ≠ "turn.attention")
    (hmt : Meets (step encode) (fun ledger a => unrepeated ledger a = true) actions ledger) :
    Recorded reader (run (step encode) actions ledger) := by
  refine run_invariant (I := Recorded reader) (fun ledger a h hok => recorded_step encode h a hok) ⟨?_, ?_⟩ hmt
  · exact fun runtimeId turnId version a ha _ _ hat _ => absurd (isAttention_iff.mp hat).1 (hnone a ha)
  · exact fun runtimeId turnId version a ha hat => absurd (isAttention_iff.mp hat).1 (hnone a ha)

namespace Sample

def turnJson : String := "\x7b\"invocationId\":\"inv-a\",\"turnId\":\"turn-1\"\x7d"

def attentionJson : String :=
  "\x7b\"classifierVersion\":\"v3\",\"invocationId\":\"inv-a\",\"turnId\":\"turn-1\"\x7d"

def fields : Fields := .cons "invocationId" (.str "inv-a") (.cons "turnId" (.str "turn-1") .nil)

def rowReader : RowReader where
  canonicalLaneRef := id
  payload text :=
    if text = attentionJson then .obj (.cons "classifierVersion" (.str "v3") fields)
    else if text = turnJson then .obj fields else .obj .nil
  identity _ _ := none

def completed : OtherRow where
  row :=
    { hrcSeq := 0, streamSeq := 0, ts := "t", hostSessionId := "hsid-a", scopeRef := "agent:a", laneRef := "main"
      generation := 3, runtimeId := some "rt-a", category := "turn", eventKind := "turn.completed", payloadJson := turnJson }
  other := by decide

def classification : Classification rowReader := ⟨"rt-a", "turn-1", attentionJson, by decide, by decide⟩

/-- A classification, its retry and a later turn. -/
def retried : List (Action rowReader) :=
  [.append completed, .classify "t" 1 classification, .classify "t" 2 classification,
    .append ⟨{ completed.row with eventKind := "turn.accepted" }, by decide⟩, .classify "t" 3 classification]

/-- The turn is completed again before the retry. -/
def completedTwice : List (Action rowReader) :=
  [.append completed, .classify "t" 1 classification, .append completed, .classify "t" 2 classification]

end Sample

open Sample in
theorem recorded_run_retried : Recorded rowReader (run (step fun _ => "") retried EventHistory.Sample.empty) :=
  recorded_run (fun _ => "") (by decide) (by decide +kernel)

open Sample in
theorem recorded_again :
    ((run (step fun _ => "") completedTwice EventHistory.Sample.empty).rows.filter
      (isAttention rowReader "rt-a" "turn-1" "v3")).map (·.hrcSeq) = [2, 4] := by
  decide +kernel

end HrcRuntime.AttentionAppend
