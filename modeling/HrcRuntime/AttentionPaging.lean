import Mathlib.Data.List.Induction
import HrcRuntime.EventHistory

namespace HrcRuntime.AttentionPaging

open Json EventFilters EventTail EventHistory KeysetPaging
open List (foldl_append mem_of_getLast? filter_congr pairwise_map mem_filter filter_filter filter_map)

def isTurn (e : HrcLifecycleEvent) : Bool := "turn.".toList.isPrefixOf e.eventKind.toList

/-- `max_by_key` of the sequences: the last of the greatest. -/
def maxBySeq (events : List HrcLifecycleEvent) : Option HrcLifecycleEvent :=
  events.foldl (fun best e => if best.all (·.hrcSeq ≤ e.hrcSeq) then some e else best) none

def selectDisplay (candidates : List HrcLifecycleEvent) (hostSessionId : String) (generation : Nat)
    (raw : Option HrcLifecycleEvent) : Option HrcLifecycleEvent :=
  raw.bind fun raw => maxBySeq (candidates.filter fun e =>
    e.hostSessionId == hostSessionId && e.generation == generation && isTurn e && decide (e.hrcSeq ≤ raw.hrcSeq))

structure Attention where
  source : String
  state : Json
  kind : Json
  excerpt : Option Json := none
  at_ : String
  text : Option Json := none

/-- `p[key]`, null where there is none. -/
def field (p : Json) (key : String) : Json := (p.member key).getD .null

def foldAttention (display : HrcLifecycleEvent) (runtimePresent : Bool) : Option Attention :=
  let p := display.payload
  if !runtimePresent then none
  else if display.eventKind = "turn.attention" ∧ field p "lit" = .bool true then
    some { source := "jev", state := field p "state", kind := field p "kind", excerpt := some (field p "excerpt")
           at_ := display.ts, text := (p.member "text").filter (·.asString.isSome) }
  else if display.eventKind = "turn.awaiting_input" then
    some { source := "tool", state := .str "blocking", kind := .str "information", at_ := display.ts }
  else none

/-- The white space `str::trim` removes. -/
def isWhitespace (c : Char) : Bool :=
  [9, 10, 11, 12, 13, 32, 0x85, 0xA0, 0x1680, 0x2028, 0x2029, 0x202F, 0x205F, 0x3000].contains c.toNat
    || (0x2000 ≤ c.toNat && c.toNat ≤ 0x200A)

/-- A value of the query as `field_predicates` takes it: trimmed, and nothing where that leaves nothing. -/
def given (value : String) : Option String :=
  let trimmed := ((value.toList.dropWhile isWhitespace).reverse.dropWhile isWhitespace).reverse
  if trimmed.isEmpty then none else some (String.ofList trimmed)

def pairQuery (hostSessionId : String) (generation : Nat) : Query :=
  { hostSessionId := given hostSessionId, generation := some generation }

def turnQuery (raw : HrcLifecycleEvent) : Query :=
  { pairQuery raw.hostSessionId raw.generation with category := ["turn"] }

def minimum (page : List HrcLifecycleEvent) : Option Nat :=
  page.foldl (fun old e => some (old.elim e.hrcSeq (min · e.hrcSeq))) none

inductive Round where
  | found (turn : HrcLifecycleEvent)
  | failed (message : String)
  | ended
  | back (before : Nat)

def roundOf (turn : Option HrcLifecycleEvent) (truncated : Bool) (minimum : Option Nat) : Round :=
  match turn with
  | some turn => .found turn
  | none => if truncated then minimum.elim (.failed "truncated tail made no progress") .back else .ended

variable (reader : RowReader)

/-- One round of the loop of `display_turn`: eleven rows are asked for and ten are looked at. -/
def readRound (ledger : Ledger) (raw : HrcLifecycleEvent) (before : Option Nat) : Round :=
  let rows := eventHistory reader ledger (turnQuery raw) 0 before (some 11) true
  let page := rows.take 10
  if page.any (·.hrcSeq == 0) then .failed "tail event lacks positive hrcSeq"
  else roundOf (maxBySeq (page.filter fun e => isTurn e && decide (e.hrcSeq ≤ raw.hrcSeq))) (decide (10 < rows.length))
    (minimum page)

/-- The loop of `display_turn`, with fuel; the store may change between two rounds. -/
def displayPages : Nat → (Nat → Ledger) → HrcLifecycleEvent → Option Nat →
    Option (Except String (Option HrcLifecycleEvent))
  | 0, _, _, _ => none
  | rounds + 1, ledgers, raw, before =>
    match readRound reader (ledgers 0) raw before with
    | .found turn => some (.ok (some turn))
    | .failed message => some (.error message)
    | .ended => some (.ok none)
    | .back before => displayPages rounds (fun k => ledgers (k + 1)) raw (some before)

def displayTurn (rounds : Nat) (ledgers : Nat → Ledger) (raw : HrcLifecycleEvent) :
    Option (Except String (Option HrcLifecycleEvent)) :=
  if isTurn raw then some (.ok (some raw)) else displayPages reader rounds ledgers raw none

structure Runtime where
  hostSessionId : String
  generation : Nat
  status : String

def UNAVAILABLE : List String := ["terminated", "dead", "stale", "crashed", "detached"]

def generationRuntimeLive (runtimes : List Runtime) (hostSessionId : String) (generation : Nat) : Bool :=
  runtimes.any fun r => r.hostSessionId == hostSessionId && r.generation == generation && !UNAVAILABLE.contains r.status

def latest (ledger : Ledger) (hostSessionId : String) (generation : Nat) : Option HrcLifecycleEvent :=
  (eventHistory reader ledger (pairQuery hostSessionId generation) 0 none (some 1) true).getLast?

def liveAttention (rounds : Nat) (ledgers : Nat → Ledger) (runtimes : List Runtime) (hostSessionId : String)
    (generation : Nat) : Option (Except String (Option Attention)) :=
  match latest reader (ledgers 0) hostSessionId generation with
  | none => some (.ok none)
  | some raw =>
    (displayTurn reader rounds (fun k => ledgers (k + 1)) raw).map fun read => read.map fun turn =>
      (turn.bind fun turn => selectDisplay [turn] hostSessionId generation (some raw)).bind fun display =>
        foldAttention display (generationRuntimeLive runtimes hostSessionId generation)

structure Reads where
  ledgers : Nat → Ledger
  grows : ∀ k, ∃ rows : List HrcEventRow, ledgers (k + 1) = rows.foldl Ledger.append (ledgers k)
  numbered : ∀ row ∈ (ledgers 0).rows, 0 < row.hrcSeq

/-- What the paged search can see of a pair's history: the rows of category `turn`, and the event it starts from. -/
def visible (ledger : Ledger) (raw : HrcEventRow) : List HrcLifecycleEvent :=
  (ledger.rows.filter fun row => row.category == "turn" || row.hrcSeq == raw.hrcSeq).map (mapRow reader)

/-- What `select_display` picks for an event of its pair, of the rows the search can see. -/
def shown (ledger : Ledger) (raw : HrcEventRow) : Option HrcLifecycleEvent :=
  selectDisplay (visible reader ledger raw) raw.hostSessionId raw.generation (some (mapRow reader raw))

def newestOf (ledger : Ledger) (hostSessionId : String) (generation : Nat) : Option HrcEventRow :=
  (ledger.rows.filter fun row => row.hostSessionId == hostSessionId && row.generation == generation).getLast?

section Maximum

variable {events : List HrcLifecycleEvent} {e : HrcLifecycleEvent}

theorem foldl_max_of_lt (h : ∀ a ∈ events, a.hrcSeq < e.hrcSeq) :
    events.foldl (fun best e => if best.all (·.hrcSeq ≤ e.hrcSeq) then some e else best) (some e) = some e := by
  induction events with
  | nil => rfl
  | cons a events ih =>
    have hlt := h a List.mem_cons_self
    rw [List.foldl_cons, if_neg (by simpa using hlt)]
    exact ih fun b hb => h b (List.mem_cons_of_mem _ hb)

theorem maxBySeq_descending (h : events.Pairwise fun a b => b.hrcSeq < a.hrcSeq) : maxBySeq events = events.head? := by
  cases events with
  | nil => rfl
  | cons a events => exact foldl_max_of_lt (List.pairwise_cons.mp h).1

theorem maxBySeq_ascending (h : events.Pairwise fun a b => a.hrcSeq < b.hrcSeq) : maxBySeq events = events.getLast? := by
  induction events using List.reverseRecOn with
  | nil => rfl
  | append_singleton events a ih =>
    obtain ⟨he, -, hl⟩ := List.pairwise_append.mp h
    rw [List.getLast?_concat, maxBySeq, foldl_append]
    change (if (maxBySeq events).all (·.hrcSeq ≤ a.hrcSeq) then some a else maxBySeq events) = some a
    rw [ih he]
    refine if_pos ?_
    rw [Option.all_eq_true]
    intro b hb
    exact decide_eq_true (Nat.le_of_lt (hl b (mem_of_getLast? hb) a (List.mem_singleton_self a)))

theorem minimum_descending (h : events.Pairwise fun a b => b.hrcSeq < a.hrcSeq) :
    minimum events = events.getLast?.map (·.hrcSeq) := by
  induction events using List.reverseRecOn with
  | nil => rfl
  | append_singleton events a ih =>
    obtain ⟨he, -, hl⟩ := List.pairwise_append.mp h
    rw [List.getLast?_concat, minimum, foldl_append]
    change some ((minimum events).elim a.hrcSeq (min · a.hrcSeq)) = some a.hrcSeq
    rw [ih he]
    cases hm : events.getLast? with
    | none => rfl
    | some b =>
      have hlt := hl b (mem_of_getLast? hm) a (List.mem_singleton_self a)
      exact congrArg some (Nat.min_eq_right (Nat.le_of_lt hlt))

end Maximum

section Pages

variable {reader} {ledger : Ledger} {q : Query} {before : Option Nat} {raw : HrcLifecycleEvent} {rows : List HrcEventRow}

def older (ledger : Ledger) (q : Query) (before : Option Nat) : List HrcEventRow :=
  (ledger.rows.filter fun row => accepts q row && before.all (row.hrcSeq < ·)).reverse

theorem older_descending : (older ledger q before).Pairwise fun a b => b.hrcSeq < a.hrcSeq :=
  List.pairwise_reverse.mpr (ledger.ascending.filter _)

theorem eventHistory_descending (n : Nat) :
    eventHistory reader ledger q 0 before (some n) true = ((older ledger q before).take n).map (mapRow reader) := by
  have hf : (ledger.rows.filter fun row =>
      decide (0 ≤ row.hrcSeq) && accepts q row && before.all (row.hrcSeq < ·)) =
      ledger.rows.filter fun row => accepts q row && before.all (row.hrcSeq < ·) :=
    filter_congr fun row _ => by rw [decide_eq_true (Nat.zero_le _), Bool.true_and]
  have hl : ¬ ((n : Int) < 0) := by omega
  rw [eventHistory, eventRows, hf, if_pos rfl, newestFirst_eq (ledger.ascending.filter _), older, limited,
    if_neg hl, Int.toNat_natCast]

def turns (reader : RowReader) (raw : HrcLifecycleEvent) (rows : List HrcEventRow) : List HrcLifecycleEvent :=
  (rows.map (mapRow reader)).filter fun e => isTurn e && decide (e.hrcSeq ≤ raw.hrcSeq)

theorem turns_append (reader : RowReader) (raw : HrcLifecycleEvent) (rows rows' : List HrcEventRow) :
    turns reader raw (rows ++ rows') = turns reader raw rows ++ turns reader raw rows' := by
  rw [turns, List.map_append, List.filter_append]
  rfl

theorem maxBySeq_turns (h : rows.Pairwise fun a b => b.hrcSeq < a.hrcSeq) :
    maxBySeq (turns reader raw rows) = (turns reader raw rows).head? :=
  maxBySeq_descending ((pairwise_map.mpr h).filter _)

theorem filter_grown (p : HrcEventRow → Bool) (hp : ∀ row, p row = true → row.hrcSeq < ledger.nextHrcSeq)
    (rows : List HrcEventRow) : (rows.foldl Ledger.append ledger).rows.filter p = ledger.rows.filter p := by
  induction rows generalizing ledger with
  | nil => rfl
  | cons row rows ih =>
    have hn : p { row with hrcSeq := ledger.nextHrcSeq } = false := by
      by_contra hk
      exact Nat.lt_irrefl _ (hp _ ((Bool.not_eq_false _).mp hk))
    rw [List.foldl_cons, ih fun r hr => Nat.lt_succ_of_lt (hp r hr), Ledger.append, List.filter_append,
      List.filter_cons_of_neg (by rw [hn]; decide), List.filter_nil, List.append_nil]

theorem numbered_grown (h : ∀ row ∈ ledger.rows, 0 < row.hrcSeq) (later : List HrcEventRow) :
    ∀ row ∈ (later.foldl Ledger.append ledger).rows, 0 < row.hrcSeq := by
  induction later generalizing ledger with
  | nil => exact h
  | cons new later ih =>
    refine ih fun row hr => ?_
    rcases List.mem_append.mp hr with hold | hn
    · exact h row hold
    · rw [List.mem_singleton.mp hn]
      exact ledger.positive

theorem older_next {front rest : List HrcEventRow} {x : HrcEventRow} (h : older ledger q before = front ++ x :: rest)
    (later : List HrcEventRow) : older (later.foldl Ledger.append ledger) q (some x.hrcSeq) = rest := by
  have hx : x ∈ ledger.rows.filter fun row => accepts q row && before.all (row.hrcSeq < ·) := by
    rw [← List.mem_reverse]
    change x ∈ older ledger q before
    rw [h]
    exact List.mem_append_right _ List.mem_cons_self
  obtain ⟨hm, hx⟩ := mem_filter.mp hx
  have hbef := ((Bool.and_eq_true ..).mp hx).2
  have hgr := filter_grown (fun row => accepts q row && (some x.hrcSeq).all (row.hrcSeq < ·)) (fun row hr =>
    Nat.lt_trans (of_decide_eq_true ((Bool.and_eq_true ..).mp hr).2) (ledger.allocated x hm)) later
  have hs : (ledger.rows.filter fun row => accepts q row && (some x.hrcSeq).all (row.hrcSeq < ·)) =
      (ledger.rows.filter fun row => accepts q row && before.all (row.hrcSeq < ·)).filter
        fun row => decide (row.hrcSeq < x.hrcSeq) := by
    rw [filter_filter]
    refine filter_congr fun row _ => ?_
    by_cases hlt : row.hrcSeq < x.hrcSeq
    · have hall : before.all (row.hrcSeq < ·) = true := by
        rw [Option.all_eq_true] at hbef ⊢
        exact fun b hb => decide_eq_true (Nat.lt_trans hlt (of_decide_eq_true (hbef b hb)))
      simp [hlt, hall]
    · simp [hlt]
  rw [older, hgr, hs, ← List.filter_reverse]
  change (older ledger q before).filter _ = rest
  rw [h]
  have hsr : (front ++ x :: rest).Pairwise fun a b => b.hrcSeq < a.hrcSeq := h ▸ older_descending
  exact filter_after (fun a b hab hba => Nat.lt_irrefl _ (Nat.lt_trans hab hba)) hsr

theorem readRound_eq (hn : ∀ row ∈ ledger.rows, 0 < row.hrcSeq) {rows : List HrcEventRow}
    (hrw : older ledger (turnQuery raw) before = rows) :
    readRound reader ledger raw before =
      roundOf (turns reader raw (rows.take 10)).head? (decide (10 < rows.length))
        (((rows.take 10).getLast?).map (·.hrcSeq)) := by
  have hr : eventHistory reader ledger (turnQuery raw) 0 before (some 11) true =
      (rows.take 11).map (mapRow reader) := hrw ▸ eventHistory_descending 11
  have hp : ((rows.take 11).map (mapRow reader)).take 10 = (rows.take 10).map (mapRow reader) := by
    rw [← List.map_take, List.take_take]
    rfl
  have hd : (rows.take 10).Pairwise fun a b => b.hrcSeq < a.hrcSeq := (hrw ▸ older_descending).take
  have hpos : ((rows.take 10).map (mapRow reader)).any (·.hrcSeq == 0) = false := by
    rw [List.any_eq_false]
    intro e he
    obtain ⟨row, hrow, rfl⟩ := List.mem_map.mp he
    have hm : row ∈ older ledger (turnQuery raw) before := hrw ▸ List.mem_of_mem_take hrow
    have := hn row (mem_filter.mp (List.mem_reverse.mp hm)).1
    simp only [mapRow_hrcSeq, beq_iff_eq]
    omega
  have ht : decide (10 < ((rows.take 11).map (mapRow reader)).length) = decide (10 < rows.length) := by
    rw [List.length_map, List.length_take, decide_eq_decide]
    omega
  have hmin : minimum ((rows.take 10).map (mapRow reader)) = ((rows.take 10).getLast?).map (·.hrcSeq) := by
    rw [minimum_descending (pairwise_map.mpr hd), List.getLast?_map, Option.map_map]
    rfl
  rw [← maxBySeq_turns hd, turns]
  simp only [readRound, hr, hp, hpos, hmin, ht]
  rfl

theorem displayPages_eq {rounds : Nat} {ledgers : Nat → Ledger} {rows : List HrcEventRow}
    (hrw : older (ledgers 0) (turnQuery raw) before = rows) (hr : rows.length < rounds)
    (hn : ∀ row ∈ (ledgers 0).rows, 0 < row.hrcSeq)
    (hg : ∀ k, ∃ later : List HrcEventRow, ledgers (k + 1) = later.foldl Ledger.append (ledgers k)) :
    displayPages reader rounds ledgers raw before = some (.ok (turns reader raw rows).head?) := by
  induction rounds generalizing ledgers before rows with
  | zero => exact absurd hr (Nat.not_lt_zero _)
  | succ rounds ih =>
    have hsp := turns_append reader raw (rows.take 10) (rows.drop 10)
    rw [List.take_append_drop] at hsp
    rw [displayPages, readRound_eq hn hrw, hsp, List.head?_append]
    cases (turns reader raw (rows.take 10)).head? with
    | some turn => rfl
    | none =>
      by_cases hm : 10 < rows.length
      · obtain ⟨later, hl⟩ := hg 0
        obtain ⟨x, hx⟩ : ∃ x, (rows.take 10).getLast? = some x := by
          rw [← Option.isSome_iff_exists, List.getLast?_isSome, ← List.length_pos_iff, List.length_take]
          omega
        obtain ⟨front, hf⟩ := List.getLast?_eq_some_iff.mp hx
        have hc : older (ledgers 0) (turnQuery raw) before = front ++ x :: rows.drop 10 := by
          rw [hrw, ← List.singleton_append, ← List.append_assoc, ← hf, List.take_append_drop]
        rw [hx, decide_eq_true hm]
        refine ih (hl ▸ older_next hc later) ?_ ?_ fun k => hg (k + 1)
        · rw [List.length_drop]
          omega
        · rw [hl]
          exact numbered_grown hn later
      · rw [decide_eq_false hm, List.drop_eq_nil_of_le (Nat.not_lt.mp hm)]
        rfl

end Pages

section Display

variable {reader} {candidates : List HrcLifecycleEvent} {hostSessionId : String} {generation : Nat}
  {ledger : Ledger} {raw : HrcEventRow}

def Selectable (hostSessionId : String) (generation : Nat) (raw e : HrcLifecycleEvent) : Prop :=
  e.hostSessionId = hostSessionId ∧ e.generation = generation ∧ isTurn e = true ∧ e.hrcSeq ≤ raw.hrcSeq

def NewestTurn (candidates : List HrcLifecycleEvent) (hostSessionId : String) (generation : Nat)
    (raw : HrcLifecycleEvent) (answer : Option HrcLifecycleEvent) : Prop :=
  (∀ e, answer = some e → e ∈ candidates ∧ Selectable hostSessionId generation raw e ∧
    ∀ a ∈ candidates, Selectable hostSessionId generation raw a → a.hrcSeq ≤ e.hrcSeq) ∧
  (answer = none → ∀ a ∈ candidates, ¬ Selectable hostSessionId generation raw a)

theorem selectDisplay_newest (h : candidates.Pairwise fun a b => a.hrcSeq < b.hrcSeq) (raw : HrcLifecycleEvent) :
    NewestTurn candidates hostSessionId generation raw
      (selectDisplay candidates hostSessionId generation (some raw)) := by
  have hm : ∀ a, a ∈ candidates.filter (fun e => e.hostSessionId == hostSessionId && e.generation == generation &&
      isTurn e && decide (e.hrcSeq ≤ raw.hrcSeq)) ↔ a ∈ candidates ∧ Selectable hostSessionId generation raw a := by
    intro a
    simp only [mem_filter, Bool.and_eq_true, beq_iff_eq, decide_eq_true_eq, and_assoc, Selectable]
  have hsr := h.filter fun e => e.hostSessionId == hostSessionId && e.generation == generation &&
      isTurn e && decide (e.hrcSeq ≤ raw.hrcSeq)
  unfold selectDisplay NewestTurn
  rw [Option.bind_some, maxBySeq_ascending hsr]
  constructor
  · intro e he
    obtain ⟨front, hf⟩ := List.getLast?_eq_some_iff.mp he
    obtain ⟨hc, hsl⟩ := (hm e).mp (mem_of_getLast? he)
    refine ⟨hc, hsl, fun a ha hs => ?_⟩
    have hin := (hm a).mpr ⟨ha, hs⟩
    rw [hf] at hin hsr
    rcases List.mem_append.mp hin with her | hl
    · exact Nat.le_of_lt ((List.pairwise_append.mp hsr).2.2 a her e (List.mem_singleton_self e))
    · rw [List.mem_singleton.mp hl]
  · intro hn a ha hs
    have hin := (hm a).mpr ⟨ha, hs⟩
    rw [List.getLast?_eq_none_iff.mp hn] at hin
    cases hin

theorem visible_ascending : (visible reader ledger raw).Pairwise fun a b => a.hrcSeq < b.hrcSeq :=
  pairwise_map.mpr (ledger.ascending.filter _)

theorem shown_self (hr : raw ∈ ledger.rows) (ht : isTurn (mapRow reader raw) = true) :
    shown reader ledger raw = some (mapRow reader raw) := by
  have hasc : (visible reader ledger raw).Pairwise fun a b => a.hrcSeq < b.hrcSeq := visible_ascending
  have hm : mapRow reader raw ∈ visible reader ledger raw :=
    List.mem_map_of_mem (mem_filter.mpr ⟨hr, by rw [beq_self_eq_true, Bool.or_true]⟩)
  have hsl : Selectable raw.hostSessionId raw.generation (mapRow reader raw) (mapRow reader raw) :=
    ⟨rfl, rfl, ht, Nat.le_refl _⟩
  obtain ⟨hsm, hn⟩ := selectDisplay_newest hasc (mapRow reader raw)
  cases hsh : shown reader ledger raw with
  | none => exact absurd hsl (hn hsh _ hm)
  | some e =>
    obtain ⟨he, hs, hg⟩ := hsm e hsh
    have hseq : e.hrcSeq = raw.hrcSeq := Nat.le_antisymm hs.2.2.2 (hg _ hm hsl)
    exact congrArg some (List.inj_on_of_nodup_map
      (pairwise_map.mpr (hasc.imp fun hlt => Nat.ne_of_lt hlt)) he hm hseq)

theorem accepts_turnQuery (hg : given raw.hostSessionId = some raw.hostSessionId) (row : HrcEventRow) :
    accepts (turnQuery (mapRow reader raw)) row = (row.hostSessionId == raw.hostSessionId && row.category == "turn" &&
      row.generation == raw.generation) := by
  change (fieldPredicates { hostSessionId := given raw.hostSessionId, category := ["turn"]
                            generation := some raw.generation }).all (fun predicate => predicate row) = _
  rw [hg]
  simp [fieldPredicates, columnPredicate, columnEquals, listPredicate, eitherPredicate, Bool.and_assoc, beq_eq_decide]

theorem shown_turns (hr : raw ∈ ledger.rows) (hg : given raw.hostSessionId = some raw.hostSessionId)
    (ht : isTurn (mapRow reader raw) = false) :
    shown reader ledger raw =
      (turns reader (mapRow reader raw) (older ledger (turnQuery (mapRow reader raw)) none)).head? := by
  have hasc : (visible reader ledger raw).Pairwise fun a b => a.hrcSeq < b.hrcSeq := visible_ascending
  have hrw : (visible reader ledger raw).filter (fun e => e.hostSessionId == raw.hostSessionId &&
      e.generation == raw.generation && isTurn e && decide (e.hrcSeq ≤ (mapRow reader raw).hrcSeq)) =
      (turns reader (mapRow reader raw) (older ledger (turnQuery (mapRow reader raw)) none)).reverse := by
    rw [visible, turns, older, filter_map, filter_map, filter_filter, ← List.map_reverse,
      ← List.filter_reverse, List.reverse_reverse, filter_filter]
    refine congrArg (List.map (mapRow reader)) (filter_congr fun row hrow => ?_)
    have hsq := ledger.ascending.imp fun {a b : HrcEventRow} (hlt : a.hrcSeq < b.hrcSeq) => Nat.ne_of_lt hlt
    have hoth : isTurn (mapRow reader row) = true → (row.hrcSeq == raw.hrcSeq) = false := by
      intro hrt
      rw [beq_eq_false_iff_ne]
      intro hs
      rw [List.inj_on_of_nodup_map (pairwise_map.mpr hsq) hrow hr hs, ht] at hrt
      cases hrt
    rw [accepts_turnQuery hg]
    cases hrt : isTurn (mapRow reader row) with
    | false => simp [hrt]
    | true =>
      simp only [Function.comp_apply, hoth hrt, Option.all_none, Bool.and_true, Bool.or_false, mapRow]
      ac_rfl
  change maxBySeq (List.filter _ _) = _
  exact (maxBySeq_ascending (hasc.filter _)).trans (by rw [hrw, List.getLast?_reverse])

theorem mem_grown (hr : raw ∈ ledger.rows) (later : List HrcEventRow) :
    raw ∈ (later.foldl Ledger.append ledger).rows := by
  induction later generalizing ledger with
  | nil => exact hr
  | cons new later ih => exact ih (List.mem_append_left _ hr)

theorem shown_grown (hr : raw ∈ ledger.rows) (later : List HrcEventRow) :
    shown reader (later.foldl Ledger.append ledger) raw = shown reader ledger raw := by
  have hf (ledger : Ledger) : shown reader ledger raw = maxBySeq ((ledger.rows.filter fun row =>
      (row.hostSessionId == raw.hostSessionId && row.generation == raw.generation && isTurn (mapRow reader row) &&
        decide (row.hrcSeq ≤ raw.hrcSeq)) && (row.category == "turn" || row.hrcSeq == raw.hrcSeq)).map (mapRow reader)) := by
    rw [shown, selectDisplay, Option.bind_some, visible, filter_map, filter_filter]
    rfl
  rw [hf, hf, filter_grown _ (fun row hrow => ?_) later]
  have hblw := ((Bool.and_eq_true ..).mp ((Bool.and_eq_true ..).mp hrow).1).2
  exact Nat.lt_of_le_of_lt (of_decide_eq_true hblw) (ledger.allocated raw hr)

end Display

section Attention

variable {reader} (r : Reads) {raw : HrcEventRow} {rounds : Nat} {hostSessionId : String} {generation : Nat}

theorem displayTurn_eq (hr : raw ∈ (r.ledgers 0).rows) (hg : given raw.hostSessionId = some raw.hostSessionId)
    (hrn : (r.ledgers 0).rows.length < rounds) :
    displayTurn reader rounds r.ledgers (mapRow reader raw) = some (.ok (shown reader (r.ledgers 0) raw)) := by
  unfold displayTurn
  cases ht : isTurn (mapRow reader raw) with
  | true => rw [if_pos rfl, shown_self hr ht]
  | false =>
    have hl : (older (r.ledgers 0) (turnQuery (mapRow reader raw)) none).length < rounds := by
      rw [older, List.length_reverse]
      exact Nat.lt_of_le_of_lt (List.length_filter_le _ _) hrn
    rw [if_neg Bool.false_ne_true, displayPages_eq rfl hl r.numbered r.grows, shown_turns hr hg ht]

theorem latest_eq (ledger : Ledger) (hg : given hostSessionId = some hostSessionId) :
    latest reader ledger hostSessionId generation = (newestOf ledger hostSessionId generation).map (mapRow reader) := by
  have hacc : ∀ row, (accepts (pairQuery hostSessionId generation) row && (none : Option Nat).all (row.hrcSeq < ·)) =
      (row.hostSessionId == hostSessionId && row.generation == generation) := by
    intro row
    rw [pairQuery, hg]
    simp [accepts, fieldPredicates, columnPredicate, columnEquals, listPredicate, eitherPredicate]
  have hr : eventHistory reader ledger (pairQuery hostSessionId generation) 0 none (some 1) true =
      ((older ledger (pairQuery hostSessionId generation) none).take 1).map (mapRow reader) := eventHistory_descending 1
  have hn : newestOf ledger hostSessionId generation =
      (older ledger (pairQuery hostSessionId generation) none).head? := by
    rw [older, funext hacc, List.head?_reverse]
    rfl
  rw [latest, hr, hn]
  cases older ledger (pairQuery hostSessionId generation) none <;> rfl

def Reads.next : Reads where
  ledgers k := r.ledgers (k + 1)
  grows k := r.grows (k + 1)
  numbered := by
    obtain ⟨later, hlat⟩ := r.grows 0
    rw [hlat]
    exact numbered_grown r.numbered later

theorem selectDisplay_singleton {e : HrcLifecycleEvent} {ledger : Ledger} (h : shown reader ledger raw = some e) :
    selectDisplay [e] raw.hostSessionId raw.generation (some (mapRow reader raw)) = some e := by
  obtain ⟨-, ⟨hh, hg, ht, hs⟩, -⟩ := (selectDisplay_newest visible_ascending _).1 e h
  rw [selectDisplay, Option.bind_some, List.filter_cons_of_pos (by simp [hh, hg, ht, show e.hrcSeq ≤ raw.hrcSeq from hs]), List.filter_nil]
  rfl

theorem liveAttention_eq (runtimes : List Runtime) (hg : given hostSessionId = some hostSessionId)
    (hrn : (r.ledgers 1).rows.length < rounds) :
    liveAttention reader rounds r.ledgers runtimes hostSessionId generation =
      some (.ok ((newestOf (r.ledgers 0) hostSessionId generation).bind fun raw =>
        if generationRuntimeLive runtimes hostSessionId generation then
          (shown reader (r.ledgers 0) raw).bind (foldAttention · true) else none)) := by
  unfold liveAttention
  rw [latest_eq (r.ledgers 0) hg]
  cases hn : newestOf (r.ledgers 0) hostSessionId generation with
  | none => rfl
  | some raw =>
    obtain ⟨hr, hp⟩ := mem_filter.mp (mem_of_getLast? hn)
    simp only [Bool.and_eq_true, beq_iff_eq] at hp
    obtain ⟨rfl, rfl⟩ := hp
    obtain ⟨later, hl⟩ := r.grows 0
    have hm : raw ∈ (r.next.ledgers 0).rows := by
      change raw ∈ (r.ledgers (0 + 1)).rows
      rw [hl]
      exact mem_grown hr later
    have hs : shown reader (r.next.ledgers 0) raw = shown reader (r.ledgers 0) raw := by
      change shown reader (r.ledgers (0 + 1)) raw = _
      rw [hl, shown_grown hr later]
    have hrd : displayTurn reader rounds (fun k => r.ledgers (k + 1)) (mapRow reader raw) =
        some (.ok (shown reader (r.ledgers 0) raw)) := (displayTurn_eq r.next hm hg hrn).trans (by rw [hs])
    change (displayTurn reader rounds (fun k => r.ledgers (k + 1)) (mapRow reader raw)).map _ = _
    rw [hrd]
    simp only [Option.map_some, Option.bind_some, Except.map]
    cases hsh : shown reader (r.ledgers 0) raw with
    | none => cases generationRuntimeLive runtimes raw.hostSessionId raw.generation <;> rfl
    | some e =>
      rw [Option.bind_some, selectDisplay_singleton hsh]
      cases generationRuntimeLive runtimes raw.hostSessionId raw.generation <;> rfl

theorem length_grown (ledger : Ledger) (later : List HrcEventRow) :
    ledger.rows.length ≤ (later.foldl Ledger.append ledger).rows.length := by
  induction later generalizing ledger with
  | nil => exact Nat.le_refl _
  | cons new later ih =>
    refine Nat.le_trans ?_ (ih (ledger.append new))
    rw [Ledger.append, List.length_append]
    exact Nat.le_add_right _ _

/-- The search ends at the newest event of the turn family among the rows of category `turn` and the event it starts
from, and a pair's attention is the fold of that event where one of its runtimes is live. -/
theorem display_turn (runtimes : List Runtime) (hgiven : given hostSessionId = some hostSessionId)
    (hrounds : (r.ledgers 1).rows.length < rounds) :
    (∀ raw ∈ (r.ledgers 0).rows, raw.hostSessionId = hostSessionId → raw.generation = generation →
      displayTurn reader rounds r.ledgers (mapRow reader raw) = some (.ok (shown reader (r.ledgers 0) raw)) ∧
      NewestTurn (visible reader (r.ledgers 0) raw) hostSessionId generation (mapRow reader raw)
        (shown reader (r.ledgers 0) raw)) ∧
    liveAttention reader rounds r.ledgers runtimes hostSessionId generation =
      some (.ok ((newestOf (r.ledgers 0) hostSessionId generation).bind fun raw =>
        if generationRuntimeLive runtimes hostSessionId generation then
          (shown reader (r.ledgers 0) raw).bind (foldAttention · true) else none)) := by
  refine ⟨?_, liveAttention_eq r runtimes hgiven hrounds⟩
  rintro raw hr rfl rfl
  obtain ⟨later, hl⟩ := r.grows 0
  have hlen := length_grown (r.ledgers 0) later
  rw [← hl] at hlen
  exact ⟨displayTurn_eq r hr hgiven (Nat.lt_of_le_of_lt hlen hrounds), selectDisplay_newest visible_ascending _⟩

end Attention

namespace Sample

open EventHistory.Sample

def created : HrcEventRow := { row "a" 1 with category := "runtime", eventKind := "runtime.created" }

def quiet : Ledger := (empty.append (row "a" 1)).append created

/-- A turn starts under another category than `turn`. -/
def misfiled : Ledger := (empty.append { row "a" 1 with category := "runtime" }).append created

def growing : Reads where
  ledgers k := (List.replicate k (row "a" 1)).foldl Ledger.append quiet
  grows k := ⟨[row "a" 1], by rw [List.replicate_succ', foldl_append]⟩
  numbered := by decide

end Sample

open Sample EventHistory.Sample

theorem display_turn_growing :
    displayTurn rowReader 4 growing.ledgers (mapRow rowReader { created with hrcSeq := 2 }) =
      some (.ok (shown rowReader quiet { created with hrcSeq := 2 })) ∧
    liveAttention rowReader 4 growing.ledgers [⟨"a", 1, "busy"⟩] "a" 1 =
      some (.ok ((newestOf quiet "a" 1).bind fun raw =>
        if generationRuntimeLive [⟨"a", 1, "busy"⟩] "a" 1 then (shown rowReader quiet raw).bind (foldAttention · true)
        else none)) :=
  have h := display_turn growing [⟨"a", 1, "busy"⟩] (by decide +kernel) (by decide +kernel)
  ⟨(h.1 { created with hrcSeq := 2 } (by decide +kernel) rfl rfl).1, h.2⟩

theorem hidden_turn_missed :
    displayTurn rowReader 4 (fun _ => misfiled) (mapRow rowReader { created with hrcSeq := 2 }) = some (.ok none) ∧
    (selectDisplay (misfiled.rows.map (mapRow rowReader)) "a" 1
      (some (mapRow rowReader { created with hrcSeq := 2 }))).map (·.hrcSeq) = some 1 ∧
    (latest rowReader (empty.append (row " a" 1)) " a" 1).isNone = true := by
  refine ⟨rfl, by decide +kernel, by decide +kernel⟩

end HrcRuntime.AttentionPaging
