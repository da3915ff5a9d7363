import HrcRuntime.ChunkedRead
import HrcRuntime.EventHistory

namespace HrcRuntime.LifecycleHistory

open EventFilters EventTail EventHistory
open List (mem_singleton)

def i64Max : Nat := 9223372036854775807

def saturatingAdd (a b : Nat) : Nat := min (a + b) i64Max

/-- `CHUNK_ROWS` and `CHUNK_SPAN`. -/
structure ChunkSize where
  rows : Nat
  span : Nat
  rows_pos : 0 < rows
  span_pos : 0 < span

structure Store where
  ledger : Ledger
  bounded : ∀ row ∈ ledger.rows, row.hrcSeq ≤ i64Max

def Store.head (store : Store) : Nat := maxHrcSeq store.ledger

/-- What others do to the store between two chunks: an event is appended, or the ledger is replaced by one
with an incarnation that was not `held` before. -/
inductive Change (held : String) where
  | append (row : HrcEventRow)
  | replace (store : Store) (other : store.ledger.ledgerIncarnationId ≠ held)

def Change.apply {held : String} : Change held → Store → Store
  | .append row, store =>
    if h : store.ledger.nextHrcSeq ≤ i64Max then
      { ledger := store.ledger.append row
        bounded := by
          intro a ha
          rcases List.mem_append.mp ha with ha | ha
          · exact store.bounded a ha
          · rw [mem_singleton.mp ha]
            exact h }
    else store
  | .replace other _, _ => other

inductive HistoryError where
  | cursorInvalid (expectedLedgerIncarnationId currentLedgerIncarnationId : String)

structure History where
  q : Query
  next : Nat
  head : Nat
  remaining : Option Int
  incarnation : String

variable (size : ChunkSize) (reader : RowReader)

/-- `History::new` on the store of the first hold. -/
def History.new (store : Store) (q : Query) (first : Nat) (remaining : Option Int) : History :=
  ⟨q, first, store.head, remaining, store.ledger.ledgerIncarnationId⟩

def History.stop (h : History) : Nat := min (saturatingAdd h.next size.span) (saturatingAdd h.head 1)

def History.take (h : History) : Int := (h.remaining.map fun r => min r (size.rows : Int)).getD size.rows

/-- Where the chunk after `rows` starts. -/
def History.following (h : History) (rows : List HrcLifecycleEvent) : Nat :=
  match rows.getLast? with
  | some last => if (rows.length : Int) = h.take size then saturatingAdd last.hrcSeq 1 else h.stop size
  | none => h.stop size

def History.rows (store : Store) (h : History) : Except HistoryError (Option (List HrcLifecycleEvent × History)) :=
  if h.head < h.next ∨ h.remaining = some 0 then .ok none
  else if store.ledger.ledgerIncarnationId ≠ h.incarnation then
    .error (.cursorInvalid h.incarnation store.ledger.ledgerIncarnationId)
  else
    let rows := eventHistory reader store.ledger h.q h.next (some (h.stop size)) (some (h.take size)) false
    .ok (some (rows,
      { h with
        next := h.following size rows
        remaining := h.remaining.map (· - rows.length) }))

inductive Ending where
  | running | done
  | failed (error : HistoryError)

structure Walked where
  chunks : List (List HrcLifecycleEvent)
  ending : Ending

/-- At most `rounds` chunks; the `n`-th hold finds the store `stores n`. -/
def walk (stores : Nat → Store) : Nat → Nat → History → Walked
  | 0, _, _ => ⟨[], .running⟩
  | rounds + 1, n, h =>
    match h.rows size reader (stores n) with
    | .error error => ⟨[], .failed error⟩
    | .ok none => ⟨[], .done⟩
    | .ok (some (rows, h')) =>
      let rest := walk stores rounds (n + 1) h'
      ⟨rows :: rest.chunks, rest.ending⟩

def stores (captured : Store) (gaps : Nat → List (Change captured.ledger.ledgerIncarnationId)) : Nat → Store
  | 0 => (gaps 0).foldl (fun store change => change.apply store) captured
  | n + 1 => (gaps (n + 1)).foldl (fun store change => change.apply store) (stores captured gaps n)

end HrcRuntime.LifecycleHistory

namespace HrcRuntime.HistorySnapshot

open EventFilters EventTail EventHistory ChunkedRead LifecycleHistory KeysetPaging
open List (mem_singleton filter_filter filter_congr append_nil filter_eq_nil_iff mem_filter)
open Option (map_some map_none getD_some)

section Limits

variable {α : Type} {limit : Option Int} {a b : List α}

theorem limited_append (h : ∀ r, limit = some r → 0 ≤ r → (a.length : Int) ≤ r) :
    limited limit (a ++ b) = a ++ limited (limit.map (· - (a.length : Int))) b := by
  cases limit with
  | none => rfl
  | some n =>
    rw [map_some, limited, limited]
    by_cases hn : n < 0
    · rw [if_pos hn, if_pos (by omega)]
    · have hle := h n rfl (by omega)
      rw [if_neg hn, if_neg (by omega), List.take_append, List.take_of_length_le (by omega)]
      congr 2
      omega

end Limits

section Rows

variable {ledger : Ledger} {q : Query} {first stop : Nat}

theorem oldestFirst_eq {rows : List HrcEventRow} (h : rows.Pairwise fun a b => a.hrcSeq < b.hrcSeq) :
    oldestFirst rows = rows := by
  have hasc : rows.Pairwise fun a b => compare a.hrcSeq b.hrcSeq = .lt := h.imp Nat.compare_eq_lt.mpr
  have ht : Std.TransCmp fun a b : HrcEventRow => compare a.hrcSeq b.hrcSeq :=
    transCmp_on compare HrcEventRow.hrcSeq
  have hd : rows.Pairwise fun a b => compare a.hrcSeq b.hrcSeq ≠ .eq := hasc.imp fun hlt heq => by
    rw [hlt] at heq
    cases heq
  exact eq_of_strict _ (perm_sortBy _ rows) (strict_sortBy _ hd) hasc

/-- The matching rows below `stop`. -/
def below (ledger : Ledger) (q : Query) (stop : Nat) : List HrcEventRow :=
  ledger.rows.filter fun row => accepts q row && decide (row.hrcSeq < stop)

theorem below_ascending (ledger : Ledger) (q : Query) (stop : Nat) :
    Ascending HrcEventRow.hrcSeq (below ledger q stop) :=
  ledger.ascending.filter _

/-- What is left to read from `first`. -/
def left (ledger : Ledger) (q : Query) (stop first : Nat) : List HrcEventRow :=
  (below ledger q stop).filter fun row => decide (first ≤ row.hrcSeq)

theorem eventRows_eq (limit : Option Int) :
    eventRows ledger q first (some stop) limit false = limited limit (left ledger q stop first) := by
  have hf : (ledger.rows.filter fun row =>
      decide (first ≤ row.hrcSeq) && accepts q row && (some stop).all (row.hrcSeq < ·)) = left ledger q stop first := by
    rw [left, below, filter_filter]
    refine filter_congr fun row _ => ?_
    rw [Option.all_some, Bool.and_assoc]
  have hasc : Ascending HrcEventRow.hrcSeq (left ledger q stop first) := (below_ascending ledger q stop).filter _
  rw [eventRows, hf, if_neg (by decide), oldestFirst_eq hasc]

end Rows

section Growth

variable {captured store : Store} {q : Query} {stop : Nat}

def Grown (captured store : Store) : Prop :=
  store.ledger.ledgerIncarnationId = captured.ledger.ledgerIncarnationId →
    captured.head < store.ledger.nextHrcSeq ∧
      ∃ later, store.ledger.rows = captured.ledger.rows ++ later ∧ ∀ row ∈ later, captured.head < row.hrcSeq

theorem grown_refl (captured : Store) : Grown captured captured := fun _ =>
  ⟨maxHrcSeq_lt captured.ledger, [], (append_nil _).symm, fun _ h => absurd h List.not_mem_nil⟩

theorem Grown.change (h : Grown captured store) (change : Change captured.ledger.ledgerIncarnationId) :
    Grown captured (change.apply store) := by
  cases change with
  | replace other hoth => exact fun hs => absurd hs hoth
  | append row =>
    by_cases hf : store.ledger.nextHrcSeq ≤ i64Max
    · rw [Change.apply, dif_pos hf]
      intro hs
      obtain ⟨hn, later, hr, hl⟩ := h hs
      refine ⟨Nat.lt_succ_of_lt hn, later ++ [{ row with hrcSeq := store.ledger.nextHrcSeq }], ?_, fun a ha => ?_⟩
      · rw [← List.append_assoc, ← hr]
        rfl
      · rcases List.mem_append.mp ha with ha | ha
        · exact hl a ha
        · rw [mem_singleton.mp ha]
          exact hn
    · rw [Change.apply, dif_neg hf]
      exact h

theorem Grown.changes (h : Grown captured store) (changes : List (Change captured.ledger.ledgerIncarnationId)) :
    Grown captured (changes.foldl (fun store change => change.apply store) store) := by
  induction changes generalizing store with
  | nil => exact h
  | cons change changes ih => exact ih (h.change change)

theorem grown_stores (gaps : Nat → List (Change captured.ledger.ledgerIncarnationId)) (n : Nat) :
    Grown captured (stores captured gaps n) := by
  induction n with
  | zero => exact (grown_refl captured).changes (gaps 0)
  | succ n ih => exact ih.changes (gaps (n + 1))

theorem Grown.below_eq (h : Grown captured store)
    (hs : store.ledger.ledgerIncarnationId = captured.ledger.ledgerIncarnationId)
    (hst : stop ≤ captured.head + 1) :
    below store.ledger q stop = below captured.ledger q stop := by
  obtain ⟨-, later, hrw, hl⟩ := h hs
  have hn : (later.filter fun row => accepts q row && decide (row.hrcSeq < stop)) = [] := by
    refine filter_eq_nil_iff.mpr fun row hr => ?_
    have hlt := hl row hr
    rw [Bool.and_eq_true, decide_eq_true_eq]
    omega
  rw [below, hrw, List.filter_append, hn, append_nil]
  rfl

end Growth

section Chunk

variable {captured store : Store} {size : ChunkSize} {reader : RowReader} {h : History}

structure Reads (captured : Store) (q : Query) (h : History) : Prop where
  query : h.q = q
  head : h.head = captured.head
  incarnation : h.incarnation = captured.ledger.ledgerIncarnationId

def bound (captured : Store) : Nat := saturatingAdd captured.head 1

theorem bound_le (captured : Store) : bound captured ≤ captured.head + 1 ∧ bound captured ≤ i64Max :=
  ⟨Nat.min_le_left _ _, Nat.min_le_right _ _⟩

theorem take_ne_zero (size : ChunkSize) (hrem : h.remaining ≠ some 0) : h.take size ≠ 0 := by
  have hp := size.rows_pos
  unfold History.take
  cases hr : h.remaining with
  | none =>
    rw [map_none, Option.getD_none]
    omega
  | some r =>
    have hne : r ≠ 0 := fun heq => hrem (by rw [hr, heq])
    rw [map_some, getD_some]
    omega

theorem take_le (size : ChunkSize) {r : Int} (hr : h.remaining = some r) : h.take size ≤ r := by
  rw [History.take, hr, map_some, getD_some]
  exact Int.min_le_left _ _

theorem length_chunk {α : Type} {l : List α} (ht : 0 ≤ h.take size) :
    ((limited (some (h.take size)) l).length : Int) ≤ h.take size := by
  rw [limited, if_neg (by omega), List.length_take]
  omega

theorem stop_eq (hq : Reads captured q h) : h.stop size = min (saturatingAdd h.next size.span) (bound captured) := by
  rw [History.stop, hq.head]
  rfl

structure Chunk (captured : Store) (q : Query) (h : History) (rows : List HrcEventRow) (next : Nat) :
    Prop where
  parts : left captured.ledger q (bound captured) h.next = rows ++ left captured.ledger q (bound captured) next
  counted : ∀ r, h.remaining = some r → 0 ≤ r → (rows.length : Int) ≤ r
  bounded : next ≤ bound captured
  forward : h.next < bound captured → h.next < next

def chunkOf (captured : Store) (q : Query) (size : ChunkSize) (h : History) : List HrcEventRow :=
  limited (some (h.take size)) ((left captured.ledger q (bound captured) h.next).filter fun row =>
    decide (row.hrcSeq < h.stop size))

def isFull (captured : Store) (q : Query) (size : ChunkSize) (h : History) : Bool :=
  decide (((chunkOf captured q size h).length : Int) = h.take size)

variable {q : Query}

theorem left_stop (hs : h.stop size ≤ bound captured) : left captured.ledger q (h.stop size) h.next =
    (left captured.ledger q (bound captured) h.next).filter fun row => decide (row.hrcSeq < h.stop size) := by
  unfold left below
  rw [filter_filter, filter_filter, filter_filter]
  refine filter_congr fun row _ => ?_
  by_cases hlt : row.hrcSeq < h.stop size
  · have hbd : row.hrcSeq < bound captured := by omega
    simp [hlt, hbd]
  · simp [hlt]

theorem mem_chunkOf {row : HrcEventRow} (hr : row ∈ chunkOf captured q size h) :
    h.next ≤ row.hrcSeq ∧ row.hrcSeq < h.stop size := by
  have hm : row ∈ (left captured.ledger q (bound captured) h.next).filter fun row =>
      decide (row.hrcSeq < h.stop size) := by
    rw [chunkOf, limited] at hr
    split at hr
    · exact hr
    · exact List.mem_of_mem_take hr
  obtain ⟨hl, hlt⟩ := mem_filter.mp hm
  exact ⟨of_decide_eq_true (mem_filter.mp hl).2, of_decide_eq_true hlt⟩

theorem stop_bounds (size : ChunkSize) (hq : Reads captured q h) (hn : h.next ≤ bound captured) :
    h.next ≤ h.stop size ∧ h.stop size ≤ bound captured ∧ (h.next < bound captured → h.next < h.stop size) := by
  have hs := size.span_pos
  have hm := (bound_le captured).2
  rw [stop_eq hq, saturatingAdd]
  omega

/-- The chunk in the model's words is the one the walk reads. -/
theorem rows_eq (hq : Reads captured q h) (hgr : Grown captured store)
    (hs : store.ledger.ledgerIncarnationId = captured.ledger.ledgerIncarnationId)
    (hn : h.next ≤ bound captured) (hlf : h.next ≤ captured.head) (hr : h.remaining ≠ some 0) :
    h.rows size reader store = .ok (some ((chunkOf captured q size h).map (mapRow reader),
      { h with
        next := following HrcEventRow.hrcSeq (isFull captured q size h) (h.stop size) (chunkOf captured q size h)
        remaining := h.remaining.map (· - ((chunkOf captured q size h).length : Int)) })) := by
  obtain ⟨-, hst, -⟩ := stop_bounds size hq hn
  have hrw : eventHistory reader store.ledger h.q h.next (some (h.stop size)) (some (h.take size)) false =
      (chunkOf captured q size h).map (mapRow reader) := by
    have hblw : below store.ledger q (h.stop size) = below captured.ledger q (h.stop size) :=
      hgr.below_eq hs (Nat.le_trans hst (bound_le captured).1)
    rw [eventHistory, eventRows_eq, hq.query, left, hblw]
    exact congrArg _ (congrArg _ (left_stop hst))
  have hf : h.following size ((chunkOf captured q size h).map (mapRow reader)) =
      following HrcEventRow.hrcSeq (isFull captured q size h) (h.stop size) (chunkOf captured q size h) := by
    rw [History.following, List.getLast?_map, List.length_map, following, isFull]
    cases hl : (chunkOf captured q size h).getLast? with
    | none =>
      rw [map_none, map_none, Option.getD_none]
      exact (ite_self _).symm
    | some last =>
      have hlt := (mem_chunkOf (List.mem_of_getLast? hl)).2
      have hadd : saturatingAdd last.hrcSeq 1 = last.hrcSeq + 1 := by
        have hm := (bound_le captured).2
        rw [saturatingAdd]
        omega
      simp only [map_some, getD_some, mapRow_hrcSeq, hadd, decide_eq_true_eq]
  have hgo : ¬(h.head < h.next ∨ h.remaining = some 0) := by
    rintro (hlt | hz)
    · rw [hq.head] at hlt
      omega
    · exact hr hz
  rw [History.rows, if_neg hgo, if_neg (by rw [hs, hq.incarnation]; exact not_not_intro rfl), hrw]
  simp only [hf, List.length_map]

theorem chunk_of (size : ChunkSize) (hq : Reads captured q h) (hn : h.next ≤ bound captured) (hrem : h.remaining ≠ some 0) :
    Chunk captured q h (chunkOf captured q size h)
      (following HrcEventRow.hrcSeq (isFull captured q size h) (h.stop size) (chunkOf captured q size h)) := by
  obtain ⟨hle, hs, hlt⟩ := stop_bounds size hq hn
  have hm : ∀ row ∈ chunkOf captured q size h, h.next ≤ row.hrcSeq ∧ row.hrcSeq < h.stop size :=
    fun row hrow => mem_chunkOf hrow
  obtain ⟨hf, hc⟩ := following_mem (isFull captured q size h) fun row hrow => (hm row hrow).2
  have hfwd : h.next ≤ following HrcEventRow.hrcSeq (isFull captured q size h) (h.stop size)
      (chunkOf captured q size h) := by
    rcases hc with heq | ⟨last, hl, heq⟩
    · rw [heq]
      exact hle
    · have := (hm last hl).1
      omega
  have ht := take_ne_zero size hrem
  have hasc : Ascending HrcEventRow.hrcSeq (left captured.ledger q (bound captured) h.next) :=
    (below_ascending captured.ledger q (bound captured)).filter _
  have hfl : isFull captured q size h = true → chunkOf captured q size h ≠ [] ∧ chunkOf captured q size h =
      ((left captured.ledger q (bound captured) h.next).filter fun row => decide (row.hrcSeq < h.stop size)).take
        (h.take size).toNat := by
    intro hfl
    have hlen := of_decide_eq_true hfl
    have hpos : ¬ h.take size < 0 := by omega
    refine ⟨fun hnil => ?_, if_neg hpos⟩
    rw [hnil, List.length_nil] at hlen
    omega
  have hp : isFull captured q size h = false → chunkOf captured q size h =
      (left captured.ledger q (bound captured) h.next).filter fun row => decide (row.hrcSeq < h.stop size) := by
    intro hp
    have hlen := of_decide_eq_false hp
    rw [chunkOf, limited] at hlen ⊢
    split
    · rfl
    next hpos =>
      rw [if_neg hpos, List.length_take] at hlen
      exact List.take_of_length_le (by omega)
  have happ := chunk_append hasc (h.stop size) _ (isFull captured q size h) hfl hp
  refine ⟨?_, fun r hr hr0 => ?_, Nat.le_trans hf hs, fun hbd => ?_⟩
  · conv => lhs; rw [← happ]
    refine congrArg _ ?_
    unfold left
    rw [filter_filter]
    refine filter_congr fun row _ => ?_
    by_cases hlow : following HrcEventRow.hrcSeq (isFull captured q size h) (h.stop size) (chunkOf captured q size h) ≤
        row.hrcSeq
    · have hl' : h.next ≤ row.hrcSeq := Nat.le_trans hfwd hlow
      simp [hlow, hl']
    · simp [hlow]
  · have hle := take_le size hr
    by_cases hpos : 0 ≤ h.take size
    · exact Int.le_trans (length_chunk hpos) hle
    · have hrw := size.rows_pos
      rw [History.take, hr, map_some, getD_some] at hpos
      omega
  · rcases hc with heq | ⟨last, hl, heq⟩
    · rw [heq]
      exact hlt hbd
    · have := (hm last hl).1
      omega

end Chunk

section Walk

variable {captured : Store} {q : Query} {size : ChunkSize} {reader : RowReader} {h : History} {stores : Nat → Store}

def Exhausted (captured : Store) (q : Query) (h : History) : Prop :=
  ∃ n : Nat, h.remaining = some (n : Int) ∧ n ≤ (left captured.ledger q (bound captured) h.next).length

def Unused (captured : Store) (q : Query) (h : History) : Prop :=
  ∀ r, h.remaining = some r → r < 0 ∨ ((left captured.ledger q (bound captured) h.next).length : Int) < r

def Ends (captured : Store) (stores : Nat → Store) (n : Nat) (rows : List HrcLifecycleEvent) (w : Walked) : Prop :=
  (w.ending = .done ∧ w.chunks.flatten = rows ∧ ∀ m, m < w.chunks.length →
    (stores (n + m)).ledger.ledgerIncarnationId = captured.ledger.ledgerIncarnationId) ∨
  (w.ending = .failed (.cursorInvalid captured.ledger.ledgerIncarnationId
      (stores (n + w.chunks.length)).ledger.ledgerIncarnationId) ∧
    (stores (n + w.chunks.length)).ledger.ledgerIncarnationId ≠ captured.ledger.ledgerIncarnationId)

variable {n rounds : Nat}

theorem Ends.cons {rows rest : List HrcLifecycleEvent} {w : Walked} (h : Ends captured stores (n + 1) rest w)
    (hs : (stores n).ledger.ledgerIncarnationId = captured.ledger.ledgerIncarnationId) :
    Ends captured stores n (rows ++ rest) ⟨rows :: w.chunks, w.ending⟩ := by
  rcases h with ⟨hd, hr, hh⟩ | ⟨hf, hoth⟩
  · refine Or.inl ⟨hd, ?_, fun m hm => ?_⟩
    · rw [List.flatten_cons, hr]
    · cases m with
      | zero => exact hs
      | succ m =>
        rw [show n + (m + 1) = n + 1 + m by omega]
        exact hh m (Nat.lt_of_succ_lt_succ hm)
  · refine Or.inr ?_
    rw [List.length_cons, show n + (w.chunks.length + 1) = n + 1 + w.chunks.length by omega]
    exact ⟨hf, hoth⟩

theorem left_empty (hn : bound captured ≤ h.next) : left captured.ledger q (bound captured) h.next = [] := by
  refine filter_eq_nil_iff.mpr fun row hr => ?_
  have hlt := (Bool.and_eq_true _ _).mp (mem_filter.mp hr).2
  have hlt := of_decide_eq_true hlt.2
  rw [decide_eq_true_eq]
  omega

def advanced (captured : Store) (q : Query) (size : ChunkSize) (h : History) : History :=
  { h with
    next := following HrcEventRow.hrcSeq (isFull captured q size h) (h.stop size) (chunkOf captured q size h)
    remaining := h.remaining.map (· - ((chunkOf captured q size h).length : Int)) }

theorem walk_chunk (hq : Reads captured q h) (hgr : Grown captured (stores n))
    (hs : (stores n).ledger.ledgerIncarnationId = captured.ledger.ledgerIncarnationId)
    (hn : h.next ≤ bound captured) (hl : h.next ≤ captured.head) (hr : h.remaining ≠ some 0) :
    walk size reader stores (rounds + 1) n h =
      ⟨(chunkOf captured q size h).map (mapRow reader) ::
          (walk size reader stores rounds (n + 1) (advanced captured q size h)).chunks,
        (walk size reader stores rounds (n + 1) (advanced captured q size h)).ending⟩ := by
  rw [walk, rows_eq hq hgr hs hn hl hr]
  rfl

theorem advanced_reads (hq : Reads captured q h) : Reads captured q (advanced captured q size h) :=
  ⟨hq.query, hq.head, hq.incarnation⟩

/-- The walk yields what is left, in at most one round for each number below the end. -/
theorem walk_ends (hgr : ∀ n, Grown captured (stores n)) (hq : Reads captured q h)
    (hrn : bound captured - h.next < rounds) (hn : h.next ≤ bound captured ∨ captured.head < h.next)
    (hl : bound captured = captured.head + 1 ∨ captured.head < h.next ∨ Exhausted captured q h) :
    Ends captured stores n ((limited h.remaining (left captured.ledger q (bound captured) h.next)).map (mapRow reader))
      (walk size reader stores rounds n h) := by
  induction rounds generalizing n h with
  | zero => exact absurd hrn (Nat.not_lt_zero _)
  | succ rounds ih =>
    by_cases hd : h.head < h.next ∨ h.remaining = some 0
    · have hw : walk size reader stores (rounds + 1) n h = ⟨[], .done⟩ := by
        rw [walk, History.rows, if_pos hd]
      have hnn : limited h.remaining (left captured.ledger q (bound captured) h.next) = [] := by
        rcases hd with hlt | hz
        · rw [hq.head] at hlt
          have hbd := (bound_le captured).1
          rw [left_empty (by omega)]
          unfold limited
          split
          · rfl
          · split
            · rfl
            · exact List.take_nil
        · rw [hz]
          rfl
      rw [hw, hnn]
      exact Or.inl ⟨rfl, rfl, fun m hm => absurd hm (Nat.not_lt_zero _)⟩
    · obtain ⟨hle, hr⟩ := not_or.mp hd
      rw [hq.head, Nat.not_lt] at hle
      have hbd : h.next ≤ bound captured := hn.resolve_right (Nat.not_lt.mpr hle)
      by_cases hs : (stores n).ledger.ledgerIncarnationId = captured.ledger.ledgerIncarnationId
      · have hc := chunk_of size hq hbd hr
        have hlt : h.next < bound captured := by
          rcases hl with heq | hlt | ⟨k, hk, hcnt⟩
          · omega
          · omega
          · refine Nat.lt_of_le_of_ne hbd fun heq => hr ?_
            rw [left_empty (Nat.le_of_eq heq.symm), List.length_nil, Nat.le_zero] at hcnt
            rw [hk, hcnt]
            rfl
        have hf := hc.forward hlt
        have hbnd := hc.bounded
        rw [walk_chunk hq (hgr n) hs hbd hle hr, hc.parts, limited_append hc.counted,
          List.map_append]
        refine Ends.cons (ih (advanced_reads hq) ?_ (Or.inl hbnd) ?_) hs
        · change bound captured - (following _ _ _ _) < rounds
          omega
        · rcases hl with heq | hlt | ⟨k, hk, hcnt⟩
          · exact Or.inl heq
          · omega
          have hu := hc.counted k hk (Int.natCast_nonneg _)
          refine Or.inr (Or.inr ⟨k - (chunkOf captured q size h).length, ?_, ?_⟩)
          · rw [advanced, hk, map_some]
            exact congrArg some (by omega)
          · rw [hc.parts, List.length_append] at hcnt
            change k - (chunkOf captured q size h).length ≤ (left _ _ _ (following _ _ _ _)).length
            omega
      · refine Or.inr ?_
        have hw : walk size reader stores (rounds + 1) n h = ⟨[], .failed (.cursorInvalid
            captured.ledger.ledgerIncarnationId (stores n).ledger.ledgerIncarnationId)⟩ := by
          rw [walk, History.rows, if_neg hd, if_pos (by rw [hq.incarnation]; exact hs), hq.incarnation]
        rw [hw]
        exact ⟨rfl, hs⟩

theorem walk_runs (hgr : ∀ n, Grown captured (stores n))
    (hs : ∀ n, (stores n).ledger.ledgerIncarnationId = captured.ledger.ledgerIncarnationId)
    (hh : captured.head = bound captured) (hq : Reads captured q h)
    (hnx : h.next ≤ bound captured) (hu : Unused captured q h) : (walk size reader stores rounds n h).ending = .running := by
  induction rounds generalizing n h with
  | zero => rfl
  | succ rounds ih =>
    have hrem : h.remaining ≠ some 0 := by
      intro hz
      rcases hu 0 hz with hn | hcnt
      · omega
      · omega
    have hc := chunk_of size hq hnx hrem
    rw [walk_chunk hq (hgr n) (hs n) hnx (by omega) hrem]
    refine ih (advanced_reads hq) hc.bounded fun r hr => ?_
    obtain ⟨k, hk, rfl⟩ := Option.map_eq_some_iff.mp hr
    change _ ∨ ((left _ _ _ (following _ _ _ _)).length : Int) < _
    rcases hu k hk with hn | hcnt
    · exact Or.inl (by omega)
    · rw [hc.parts, List.length_append] at hcnt
      exact Or.inr (by omega)

end Walk

section Snapshot

variable {captured : Store} {q : Query} {first : Nat} {limit : Option Int} {size : ChunkSize} {reader : RowReader}

/-- The walk over the captured store ends with what one read of it gives, whatever others do between two
chunks, or it ends with an error after a chunk that found another incarnation. -/
def Faithful (size : ChunkSize) (reader : RowReader) (captured : Store) (q : Query) (first : Nat) (limit : Option Int)
    (gaps : Nat → List (Change captured.ledger.ledgerIncarnationId)) : Prop :=
  ∃ rounds, Ends captured (stores captured gaps) 0 (eventHistory reader captured.ledger q first none limit false)
    (walk size reader (stores captured gaps) rounds 0 (.new captured q first limit))

def Reaches (captured : Store) (q : Query) (first : Nat) (limit : Option Int) : Prop :=
  captured.head < i64Max ∨ i64Max < first ∨
    ∃ n : Nat, limit = some (n : Int) ∧ n ≤ (left captured.ledger q i64Max first).length

theorem head_le (captured : Store) : captured.head ≤ i64Max := by
  have hbnd := captured.bounded
  unfold Store.head maxHrcSeq
  generalize captured.ledger.rows = rows at hbnd
  induction rows with
  | nil => exact Nat.zero_le _
  | cons row rows ih =>
    rw [List.map_cons, List.foldr_cons]
    exact Nat.max_le.mpr ⟨hbnd row List.mem_cons_self, ih fun r hr => hbnd r (List.mem_cons_of_mem _ hr)⟩

theorem bound_cases (captured : Store) : (captured.head < i64Max ∧ bound captured = captured.head + 1) ∨
    (captured.head = i64Max ∧ bound captured = i64Max) := by
  have hle := head_le captured
  rw [bound, saturatingAdd]
  omega

theorem snapshot_eq (captured : Store) (q : Query) (first : Nat) (limit : Option Int) :
    eventRows captured.ledger q first none limit false =
      limited limit ((captured.ledger.rows.filter (accepts q)).filter fun row => decide (first ≤ row.hrcSeq)) := by
  have hf : (captured.ledger.rows.filter fun row =>
      decide (first ≤ row.hrcSeq) && accepts q row && (none : Option Nat).all (row.hrcSeq < ·)) =
        (captured.ledger.rows.filter (accepts q)).filter fun row => decide (first ≤ row.hrcSeq) := by
    rw [filter_filter]
    exact filter_congr fun row _ => Bool.and_true _
  rw [eventRows, hf, if_neg (by decide), oldestFirst_eq ((captured.ledger.ascending.filter _).filter _)]

theorem snapshot_split (captured : Store) (q : Query) (first stop : Nat) :
    (captured.ledger.rows.filter (accepts q)).filter (fun row => decide (first ≤ row.hrcSeq)) =
      left captured.ledger q stop first ++ ((captured.ledger.rows.filter (accepts q)).filter fun row =>
        decide (first ≤ row.hrcSeq)).filter fun row => decide (stop ≤ row.hrcSeq) := by
  have hasc : Ascending HrcEventRow.hrcSeq ((captured.ledger.rows.filter (accepts q)).filter fun row =>
      decide (first ≤ row.hrcSeq)) := (captured.ledger.ascending.filter _).filter _
  have hl : left captured.ledger q stop first = ((captured.ledger.rows.filter (accepts q)).filter fun row =>
      decide (first ≤ row.hrcSeq)).filter fun row => decide (row.hrcSeq < stop) := by
    unfold left below
    rw [filter_filter, filter_filter, filter_filter]
    refine filter_congr fun row _ => ?_
    cases accepts q row <;> cases decide (row.hrcSeq < stop) <;> cases decide (first ≤ row.hrcSeq) <;> rfl
  rw [hl, filter_append_filter hasc stop]

theorem Reaches.snapshot (h : Reaches captured q first limit) : eventRows captured.ledger q first none limit false =
    limited limit (left captured.ledger q (bound captured) first) := by
  rw [snapshot_eq, snapshot_split captured q first (bound captured)]
  rcases bound_cases captured with ⟨-, hbd⟩ | ⟨hh, hbd⟩
  · have hn : ((captured.ledger.rows.filter (accepts q)).filter fun row =>
        decide (first ≤ row.hrcSeq)).filter (fun row => decide (bound captured ≤ row.hrcSeq)) = [] := by
      refine filter_eq_nil_iff.mpr fun row hr => ?_
      have hle := le_maxHrcSeq (List.mem_of_mem_filter (List.mem_of_mem_filter hr))
      rw [decide_eq_true_eq, hbd, Store.head]
      omega
    rw [hn, append_nil]
  · rw [hbd]
    rcases h with hlt | hlt | ⟨n, rfl, hc⟩
    · omega
    · have hn : (captured.ledger.rows.filter (accepts q)).filter (fun row => decide (first ≤ row.hrcSeq)) = [] := by
        refine filter_eq_nil_iff.mpr fun row hr => ?_
        have hle := captured.bounded row (List.mem_of_mem_filter hr)
        rw [decide_eq_true_eq]
        omega
      rw [hn, List.filter_nil, append_nil]
    · rw [limited, limited, if_neg (by omega), if_neg (by omega), Int.toNat_natCast,
        List.take_append_of_le_length hc]

theorem new_reads (captured : Store) (q : Query) (first : Nat) (limit : Option Int) :
    Reads captured q (.new captured q first limit) := ⟨rfl, rfl, rfl⟩

theorem Reaches.faithful (h : Reaches captured q first limit)
    (gaps : Nat → List (Change captured.ledger.ledgerIncarnationId)) :
    Faithful size reader captured q first limit gaps := by
  refine ⟨bound captured - first + 1, ?_⟩
  rw [eventHistory, h.snapshot]
  refine walk_ends (grown_stores gaps) (new_reads captured q first limit) (Nat.lt_succ_self _) ?_ ?_
  · change first ≤ bound captured ∨ captured.head < first
    have hbd := bound_cases captured
    omega
  · rcases bound_cases captured with ⟨-, hbd⟩ | ⟨hh, hbd⟩
    · exact Or.inl hbd
    · rcases h with hlt | hlt | ⟨n, rfl, hc⟩
      · omega
      · exact Or.inr (Or.inl (by rw [hh]; exact hlt))
      · refine Or.inr (Or.inr ⟨n, rfl, ?_⟩)
        rw [hbd]
        exact hc

theorem stores_quiet (captured : Store) (n : Nat) : stores captured (fun _ => []) n = captured := by
  induction n with
  | zero => rfl
  | succ n ih => exact ih

theorem reaches_of_faithful (h : Faithful size reader captured q first limit fun _ => []) :
    Reaches captured q first limit := by
  rcases Nat.lt_or_ge captured.head i64Max with hlt | hge
  · exact Or.inl hlt
  rcases Nat.lt_or_ge i64Max first with hlt | hfst
  · exact Or.inr (Or.inl hlt)
  refine Or.inr (Or.inr ?_)
  have hh : captured.head = i64Max := Nat.le_antisymm (head_le captured) hge
  have hbd : bound captured = i64Max := by
    rcases bound_cases captured with ⟨hlt, -⟩ | ⟨-, hbd⟩
    · omega
    · exact hbd
  by_contra hnn
  obtain ⟨rounds, h⟩ := h
  have hrn : (walk size reader (stores captured fun _ => []) rounds 0 (.new captured q first limit)).ending =
      .running := by
    refine walk_runs (fun n => ?_) (fun n => ?_) (hh.trans hbd.symm) (new_reads captured q first limit) ?_ ?_
    · rw [stores_quiet]
      exact grown_refl captured
    · rw [stores_quiet]
    · rw [hbd]
      exact hfst
    · intro r hr
      rcases Int.lt_or_le r 0 with hn | hp
      · exact Or.inl hn
      · refine Or.inr (Int.not_le.mp fun hle => hnn ⟨r.toNat, ?_, ?_⟩)
        · rw [Int.toNat_of_nonneg hp]
          exact hr
        · rw [hbd] at hle
          exact Int.toNat_le.mpr hle
  rcases h with ⟨hd, -⟩ | ⟨hf, -⟩
  · cases hd.symm.trans hrn
  · cases hf.symm.trans hrn

theorem faithful_iff (size : ChunkSize) (reader : RowReader) (captured : Store) (q : Query) (first : Nat)
    (limit : Option Int) :
    (∀ gaps, Faithful size reader captured q first limit gaps) ↔ Reaches captured q first limit :=
  ⟨fun h => reaches_of_faithful (h fun _ => []), fun h gaps => h.faithful gaps⟩

end Snapshot

/-- Whatever is appended, and whenever the ledger is replaced, between two chunks: the walk ends with what one
read of the captured ledger gives or with the error of the new incarnation, exactly when the greatest sequence
number there is has not been given out, or the limit is used up below it. -/
theorem history_is_snapshot (size : ChunkSize) (reader : RowReader) (captured : Store) (q : Query) (first : Nat)
    (limit : Option Int) :
    (∀ gaps, Faithful size reader captured q first limit gaps) ↔ Reaches captured q first limit :=
  faithful_iff size reader captured q first limit

def chunkSize : ChunkSize := ⟨2000, 20000, by decide, by decide⟩

def spent : Store where
  ledger :=
    { ledgerIncarnationId := "l"
      rows := [{ Sample.row "a" 1 with hrcSeq := i64Max }]
      nextHrcSeq := i64Max + 1
      positive := Nat.succ_pos _
      ascending := List.pairwise_singleton _ _
      allocated := fun row hrow => by
        rw [mem_singleton.mp hrow]
        exact Nat.lt_succ_self _ }
  bounded row hrow := by
    rw [mem_singleton.mp hrow]

/-- From the last sequence number the walk never ends. -/
theorem spent_ledger_runs : ¬ ∀ gaps, Faithful chunkSize Sample.rowReader spent {} i64Max none gaps := by
  intro h
  have hh : spent.head = i64Max := Nat.max_eq_left (Nat.zero_le _)
  rcases (faithful_iff _ _ _ _ _ _).mp h with hlt | hlt | ⟨n, hn, -⟩
  · rw [hh] at hlt
    exact Nat.lt_irrefl _ hlt
  · exact Nat.lt_irrefl _ hlt
  · cases hn

end HrcRuntime.HistorySnapshot
