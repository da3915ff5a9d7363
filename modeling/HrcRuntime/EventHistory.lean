import HrcRuntime.EventTail
import HrcRuntime.SkipScan

namespace HrcRuntime.EventHistory

open EventFilters EventTail KeysetPaging SkipScan
open List (not_mem_nil)

/-- A query after `filters`: the values that are given, and the names of its two lists. -/
structure Query where
  sourceRef : Option String := none
  hostSessionId : Option String := none
  scopeRef : Option String := none
  laneRef : Option String := none
  runtimeId : Option String := none
  runId : Option String := none
  category : List String := []
  eventKind : List String := []
  generation : Option Nat := none

/-- `column = ?` for a value that is given. -/
def columnPredicate (value : Option String) (column : HrcEventRow → Option String) : List (HrcEventRow → Bool) :=
  value.toList.map fun value row => columnEquals (column row) value

/-- `column IN (?, …)` for a list that names something. -/
def listPredicate (items : List String) (column : HrcEventRow → String) : List (HrcEventRow → Bool) :=
  if items.isEmpty then [] else [fun row => items.contains (column row)]

def eitherPredicate : List (HrcEventRow → Bool) → List (HrcEventRow → Bool)
  | [] => []
  | [kind] => [kind]
  | kinds => [fun row => kinds.any fun kind => kind row]

def fieldPredicates (q : Query) : List (HrcEventRow → Bool) :=
  columnPredicate q.sourceRef (·.sourceRef) ++ columnPredicate q.hostSessionId (fun row => some row.hostSessionId) ++
  columnPredicate q.scopeRef (fun row => some row.scopeRef) ++
  columnPredicate q.laneRef (fun row => some row.laneRef) ++
  columnPredicate q.runtimeId (·.runtimeId) ++ columnPredicate q.runId (·.runId) ++
  eitherPredicate (listPredicate q.category (·.category) ++ listPredicate q.eventKind (·.eventKind)) ++
  q.generation.toList.map fun generation row => row.generation == generation

def accepts (q : Query) (row : HrcEventRow) : Bool := (fieldPredicates q).all fun predicate => predicate row

/-- `LIMIT ?`: a negative one is no limit. -/
def limited {α : Type} (limit : Option Int) (rows : List α) : List α :=
  match limit with
  | none => rows
  | some n => if n < 0 then rows else rows.take n.toNat

/-- `ORDER BY hrc_seq ASC`. -/
def oldestFirst (rows : List HrcEventRow) : List HrcEventRow := sortBy (fun a b => compare a.hrcSeq b.hrcSeq) rows

def eventRows (ledger : Ledger) (q : Query) (first : Nat) (before : Option Nat) (limit : Option Int)
    (descending : Bool) : List HrcEventRow :=
  let rows := ledger.rows.filter fun row => decide (first ≤ row.hrcSeq) && accepts q row && before.all (row.hrcSeq < ·)
  limited limit (if descending then newestFirst rows else oldestFirst rows)

variable (reader : RowReader)

def eventHistory (ledger : Ledger) (q : Query) (first : Nat) (before : Option Nat) (limit : Option Int)
    (descending : Bool) : List HrcLifecycleEvent :=
  (eventRows ledger q first before limit descending).map (mapRow reader)

/-- The columns of the recursive table `latest`. -/
structure Pair where
  hrcSeq : Nat
  hostSessionId : String
  generation : Nat

def pairOf (row : HrcEventRow) : Pair := ⟨row.hrcSeq, row.hostSessionId, row.generation⟩

/-- `ORDER BY generation DESC, hrc_seq DESC`. -/
def byGeneration (a b : HrcEventRow) : Ordering :=
  (compare b.generation a.generation).then (compare b.hrcSeq a.hrcSeq)

/-- `ORDER BY host_session_id DESC, generation DESC, hrc_seq DESC`. -/
def byHost (a b : HrcEventRow) : Ordering := (compare b.hostSessionId a.hostSessionId).then (byGeneration a b)

/-- `SELECT hrc_seq … LIMIT 1`. -/
def firstSeq (order : HrcEventRow → HrcEventRow → Ordering) (rows : List HrcEventRow) : Option Nat :=
  (sortBy order rows).head?.map (·.hrcSeq)

def seek (rows : List HrcEventRow) (l : Pair) : Option Nat :=
  (firstSeq byGeneration (rows.filter fun row =>
    row.hostSessionId == l.hostSessionId && decide (row.generation < l.generation))).or
  (firstSeq byHost (rows.filter fun row => compare row.hostSessionId l.hostSessionId == .lt))

def initialPairs (rows : List HrcEventRow) : List Pair := ((sortBy byHost rows).take 1).map pairOf

def nextPairs (rows : List HrcEventRow) (l : Pair) : List Pair :=
  (rows.filter fun row => seek rows l == some row.hrcSeq).map pairOf

def joinLatest (rows : List HrcEventRow) (seqs : List Nat) : List HrcEventRow :=
  newestFirst (seqs.flatMap fun seq => rows.filter fun row => row.hrcSeq == seq)

/-- `LATEST_PAIRS`, with at most `rounds` rounds of the recursion. -/
def latestPairs (rounds : Nat) (rows : List HrcEventRow) : Option (List HrcEventRow) :=
  (recursive (nextPairs rows) rounds (initialPairs rows)).map fun latest => joinLatest rows (latest.map (·.hrcSeq))

structure Group where
  hostSessionId : String
  generation : Nat
  deriving DecidableEq

def groupOf (row : HrcEventRow) : Group := ⟨row.hostSessionId, row.generation⟩

/-- `GROUP BY host_session_id, generation`. -/
def groups (rows : List HrcEventRow) : List Group := (rows.map groupOf).eraseDups

/-- `MAX(hrc_seq)` of a group. -/
def groupMax (rows : List HrcEventRow) (group : Group) : Nat :=
  ((rows.filter fun row => groupOf row == group).map (·.hrcSeq)).foldr max 0

def groupedLatest (rows : List HrcEventRow) (accepted : HrcEventRow → Bool) : List HrcEventRow :=
  joinLatest rows ((groups (rows.filter accepted)).map (groupMax (rows.filter accepted)))

def latestRows (rounds : Nat) (ledger : Ledger) (q : Query) : Option (List HrcEventRow) :=
  if (fieldPredicates q).isEmpty then latestPairs rounds ledger.rows else some (groupedLatest ledger.rows (accepts q))

def latestPerSession (rounds : Nat) (ledger : Ledger) (q : Query) : Option (List HrcLifecycleEvent) :=
  (latestRows rounds ledger q).map (·.map (mapRow reader))

namespace Sample

def rowReader : RowReader := ⟨id, fun _ => .obj .nil, fun _ _ => none⟩

def row (hostSessionId : String) (generation : Nat) : HrcEventRow where
  hrcSeq := 0
  streamSeq := 0
  ts := "t"
  hostSessionId := hostSessionId
  scopeRef := "agent:a"
  laneRef := "main"
  generation := generation
  category := "turn"
  eventKind := "turn.started"

def empty : Ledger where
  ledgerIncarnationId := "l"
  rows := []
  nextHrcSeq := 1
  positive := Nat.one_pos
  ascending := List.Pairwise.nil
  allocated _ h := absurd h not_mem_nil

def ledger : Ledger :=
  (((empty.append (row "a" 1)).append (row "a" 2)).append (row "b" 1)).append (row "a" 1)

end Sample

end HrcRuntime.EventHistory

namespace HrcRuntime.LatestPairs

open EventFilters EventTail KeysetPaging SkipScan EventHistory
open List (not_mem_nil pairwise_map mem_cons_self mem_filter filter_congr mem_map_of_mem mem_map
  mem_eraseDups)

def byPair (a b : Pair) : Ordering := (compare a.hostSessionId b.hostSessionId).then (compare a.generation b.generation)

section Orders

variable {a b : Pair} {r s : HrcEventRow}

theorem byPair_trans : Std.TransCmp byPair := by
  have hh : Std.TransCmp fun a b : Pair => compare a.hostSessionId b.hostSessionId :=
    transCmp_on compare Pair.hostSessionId
  have hg : Std.TransCmp fun a b : Pair => compare a.generation b.generation :=
    transCmp_on compare Pair.generation
  exact inferInstanceAs (Std.TransCmp (compareLex _ _))

theorem flip_trans {α : Type} (cmp : α → α → Ordering) [Std.TransCmp cmp] : Std.TransCmp fun a b => cmp b a where
  eq_swap := Std.OrientedCmp.eq_swap
  isLE_trans hab hbc := Std.TransCmp.isLE_trans hbc hab

theorem bySeq_trans : Std.TransCmp fun a b : HrcEventRow => compare b.hrcSeq a.hrcSeq := by
  have hf := flip_trans (compare : Nat → Nat → Ordering)
  exact transCmp_on (fun a b : Nat => compare b a) HrcEventRow.hrcSeq

theorem byGeneration_trans : Std.TransCmp byGeneration := by
  have hf := flip_trans (compare : Nat → Nat → Ordering)
  have hg : Std.TransCmp fun a b : HrcEventRow => compare b.generation a.generation :=
    transCmp_on (fun a b : Nat => compare b a) HrcEventRow.generation
  have hs := bySeq_trans
  exact inferInstanceAs (Std.TransCmp (compareLex _ _))

theorem byHost_trans : Std.TransCmp byHost := by
  have hf := flip_trans (compare : String → String → Ordering)
  have hh : Std.TransCmp fun a b : HrcEventRow => compare b.hostSessionId a.hostSessionId :=
    transCmp_on (fun a b : String => compare b a) HrcEventRow.hostSessionId
  have hg := byGeneration_trans
  exact inferInstanceAs (Std.TransCmp (compareLex _ byGeneration))

theorem byPair_eq_lt : byPair a b = .lt ↔ compare a.hostSessionId b.hostSessionId = .lt ∨
    a.hostSessionId = b.hostSessionId ∧ a.generation < b.generation := by
  rw [byPair, Ordering.then_eq_lt, Std.compare_eq_iff_eq, Nat.compare_eq_lt]

theorem byPair_eq_eq : byPair a b = .eq ↔ a.hostSessionId = b.hostSessionId ∧ a.generation = b.generation := by
  rw [byPair, Ordering.then_eq_eq, Std.compare_eq_iff_eq, Nat.compare_eq_eq]

theorem byPair_isLE : (byPair a b).isLE = true ↔ compare a.hostSessionId b.hostSessionId = .lt ∨
    a.hostSessionId = b.hostSessionId ∧ a.generation ≤ b.generation := by
  rw [byPair, Ordering.isLE_then_iff_or, Std.compare_eq_iff_eq, Nat.isLE_compare]

theorem byGeneration_isLE (h : (byGeneration r s).isLE = true) :
    s.generation < r.generation ∨ s.generation = r.generation ∧ s.hrcSeq ≤ r.hrcSeq := by
  rw [byGeneration, Ordering.isLE_then_iff_or, Nat.compare_eq_lt, Nat.compare_eq_eq, Nat.isLE_compare] at h
  exact h

theorem byHost_isLE (h : (byHost r s).isLE = true) : compare s.hostSessionId r.hostSessionId = .lt ∨
    s.hostSessionId = r.hostSessionId ∧ (byGeneration r s).isLE = true := by
  rw [byHost, Ordering.isLE_then_iff_or, Std.compare_eq_iff_eq] at h
  exact h

end Orders

section Seek

variable {rows : List HrcEventRow} {order : HrcEventRow → HrcEventRow → Ordering} [Std.TransCmp order]

theorem firstSeq_some {n : Nat} (h : firstSeq order rows = some n) :
    ∃ r ∈ rows, r.hrcSeq = n ∧ ∀ s ∈ rows, (order r s).isLE = true := by
  obtain ⟨r, hr, rfl⟩ := Option.map_eq_some_iff.mp h
  obtain ⟨hm, hf⟩ := head_sortBy hr
  exact ⟨r, hm, rfl, hf⟩

omit [Std.TransCmp order] in
theorem firstSeq_none (h : firstSeq order rows = none) : rows = [] :=
  head_sortBy_eq_none.mp (Option.map_eq_none_iff.mp h)

end Seek

section Rows

variable {rows : List HrcEventRow}

def Ascending (rows : List HrcEventRow) : Prop := rows.Pairwise fun a b => a.hrcSeq < b.hrcSeq

theorem Ascending.inj (h : Ascending rows) {a b : HrcEventRow} (ha : a ∈ rows) (hb : b ∈ rows)
    (hs : a.hrcSeq = b.hrcSeq) : a = b := by
  have hm : (rows.map (·.hrcSeq)).Pairwise fun m n => m ≠ n := pairwise_map.mpr (h.imp Nat.ne_of_lt)
  exact List.inj_on_of_nodup_map hm ha hb hs

theorem eq_singleton {α : Type} {l : List α} {r : α} (hm : r ∈ l) (hall : ∀ s ∈ l, s = r) (hnd : l.Nodup) :
    l = [r] := by
  cases l with
  | nil => cases hm
  | cons s l =>
    obtain rfl := hall s mem_cons_self
    cases l with
    | nil => rfl
    | cons t l =>
      obtain rfl := hall t (List.mem_cons_of_mem _ mem_cons_self)
      exact absurd mem_cons_self (List.nodup_cons.mp hnd).1

theorem Ascending.nodup (h : Ascending rows) : rows.Nodup := h.imp fun hlt heq => by
  rw [heq] at hlt
  exact Nat.lt_irrefl _ hlt

variable {r : HrcEventRow}

theorem Ascending.filter_seq (h : Ascending rows) (hr : r ∈ rows) :
    (rows.filter fun row => row.hrcSeq == r.hrcSeq) = [r] := by
  refine eq_singleton (mem_filter.mpr ⟨hr, beq_self_eq_true _⟩) (fun s hs => ?_) (h.nodup.filter _)
  obtain ⟨hs, heq⟩ := mem_filter.mp hs
  exact h.inj hs hr (eq_of_beq heq)

theorem Ascending.nextPairs_some (h : Ascending rows) {l : Pair} (hr : r ∈ rows)
    (hs : seek rows l = some r.hrcSeq) : nextPairs rows l = [pairOf r] := by
  have hf : (rows.filter fun row => seek rows l == some row.hrcSeq) =
      rows.filter fun row => row.hrcSeq == r.hrcSeq := by
    refine filter_congr fun s _ => ?_
    rw [hs, Bool.eq_iff_iff, beq_iff_eq, beq_iff_eq, Option.some.injEq]
    exact eq_comm
  rw [nextPairs, hf, h.filter_seq hr]
  rfl

theorem nextPairs_none {l : Pair} (hs : seek rows l = none) : nextPairs rows l = [] := by
  rw [nextPairs, hs]
  refine List.map_eq_nil_iff.mpr (List.filter_eq_nil_iff.mpr fun s _ => ?_)
  simp

def IsNewest (rows : List HrcEventRow) (r : HrcEventRow) : Prop :=
  r ∈ rows ∧ ∀ s ∈ rows, s.hostSessionId = r.hostSessionId → s.generation = r.generation → s.hrcSeq ≤ r.hrcSeq

theorem IsNewest.newest (h : IsNewest rows r) :
    Newest byPair Pair.hrcSeq (rows.map pairOf) (pairOf r) where
  mem := mem_map_of_mem h.1
  greatest := by
    rintro p hp heq
    obtain ⟨s, hs, rfl⟩ := mem_map.mp hp
    obtain ⟨hh, hg⟩ := byPair_eq_eq.mp heq
    exact h.2 s hs hh hg

theorem isNewest_of_newest (hr : r ∈ rows)
    (hn : Newest byPair Pair.hrcSeq (rows.map pairOf) (pairOf r)) : IsNewest rows r :=
  ⟨hr, fun s hs hh hg =>
    hn.greatest (pairOf s) (mem_map_of_mem hs) (byPair_eq_eq.mpr ⟨hh, hg⟩)⟩

section Steps

variable {r : HrcEventRow}

def Finds (rows : List HrcEventRow) (r : HrcEventRow) : Prop :=
  ∃ t, nextPairs rows (pairOf r) = [t] ∧ Newest byPair Pair.hrcSeq (rows.map pairOf) t ∧ byPair t (pairOf r) = .lt ∧
    ∀ s ∈ rows.map pairOf, byPair s (pairOf r) = .lt → (byPair s t).isLE = true

def earlier (rows : List HrcEventRow) (r : HrcEventRow) : List HrcEventRow :=
  rows.filter fun row =>
    row.hostSessionId == (pairOf r).hostSessionId && decide (row.generation < (pairOf r).generation)

def hostsBefore (rows : List HrcEventRow) (r : HrcEventRow) : List HrcEventRow :=
  rows.filter fun row => compare row.hostSessionId (pairOf r).hostSessionId == .lt

theorem seek_eq : seek rows (pairOf r) =
    (firstSeq byGeneration (earlier rows r)).or (firstSeq byHost (hostsBefore rows r)) := rfl

theorem mem_earlier {s : HrcEventRow} : s ∈ earlier rows r ↔
    s ∈ rows ∧ s.hostSessionId = r.hostSessionId ∧ s.generation < r.generation := by
  rw [earlier, mem_filter, Bool.and_eq_true, beq_iff_eq, decide_eq_true_eq]
  exact Iff.rfl

theorem mem_hostsBefore {s : HrcEventRow} : s ∈ hostsBefore rows r ↔
    s ∈ rows ∧ compare s.hostSessionId r.hostSessionId = .lt := by
  rw [hostsBefore, mem_filter, beq_iff_eq]
  exact Iff.rfl

theorem Ascending.finds_earlier (h : Ascending rows) {n : Nat}
    (hsm : firstSeq byGeneration (earlier rows r) = some n) : Finds rows r := by
  have hgn := byGeneration_trans
  obtain ⟨t, ht, rfl, hf⟩ := firstSeq_some hsm
  obtain ⟨hm, hh, hg⟩ := mem_earlier.mp ht
  have haft : ∀ s ∈ rows, s.hostSessionId = r.hostSessionId → s.generation < r.generation →
      s.generation < t.generation ∨ s.generation = t.generation ∧ s.hrcSeq ≤ t.hrcSeq :=
    fun s hs hsh hsg => byGeneration_isLE (hf s (mem_earlier.mpr ⟨hs, hsh, hsg⟩))
  refine ⟨pairOf t, h.nextPairs_some hm ?_, IsNewest.newest ⟨hm, ?_⟩, ?_, ?_⟩
  · rw [seek_eq, hsm]
    rfl
  · intro s hs hsh hsg
    rcases haft s hs (hsh.trans hh) (by rw [hsg]; exact hg) with hlt | ⟨-, hle⟩
    · omega
    · exact hle
  · exact byPair_eq_lt.mpr (Or.inr ⟨hh, hg⟩)
  · intro q hq hlt
    obtain ⟨s, hs, rfl⟩ := mem_map.mp hq
    rcases byPair_eq_lt.mp hlt with hlt | ⟨hsh, hsg⟩
    · refine byPair_isLE.mpr (Or.inl ?_)
      rw [show (pairOf t).hostSessionId = (pairOf r).hostSessionId from hh]
      exact hlt
    · refine byPair_isLE.mpr (Or.inr ⟨hsh.trans hh.symm, ?_⟩)
      rcases haft s hs hsh hsg with hlt | ⟨heq, -⟩
      · exact Nat.le_of_lt hlt
      · exact Nat.le_of_eq heq

theorem Ascending.finds_before (h : Ascending rows) (hsm : earlier rows r = []) {n : Nat}
    (hoth : firstSeq byHost (hostsBefore rows r) = some n) : Finds rows r := by
  have hhs := byHost_trans
  obtain ⟨t, ht, rfl, hf⟩ := firstSeq_some hoth
  obtain ⟨hm, hlt⟩ := mem_hostsBefore.mp ht
  have haft : ∀ s ∈ rows, compare s.hostSessionId r.hostSessionId = .lt →
      compare s.hostSessionId t.hostSessionId = .lt ∨ s.hostSessionId = t.hostSessionId ∧
        (s.generation < t.generation ∨ s.generation = t.generation ∧ s.hrcSeq ≤ t.hrcSeq) := by
    intro s hs hblw
    rcases byHost_isLE (hf s (mem_hostsBefore.mpr ⟨hs, hblw⟩)) with hlt | ⟨hh, hle⟩
    · exact Or.inl hlt
    · exact Or.inr ⟨hh, byGeneration_isLE hle⟩
  refine ⟨pairOf t, h.nextPairs_some hm ?_, IsNewest.newest ⟨hm, ?_⟩, byPair_eq_lt.mpr (Or.inl hlt), ?_⟩
  · rw [seek_eq, hsm, hoth]
    rfl
  · intro s hs hsh hsg
    rcases haft s hs (by rw [hsh]; exact hlt) with hblw | ⟨-, hblw | ⟨-, hle⟩⟩
    · cases (Std.compare_eq_iff_eq.mpr hsh).symm.trans hblw
    · omega
    · exact hle
  · intro q hq hblw
    obtain ⟨s, hs, rfl⟩ := mem_map.mp hq
    rcases byPair_eq_lt.mp hblw with hblw | ⟨hsh, hsg⟩
    · refine byPair_isLE.mpr ?_
      rcases haft s hs hblw with hlt | ⟨heq, hlt | ⟨hg, -⟩⟩
      · exact Or.inl hlt
      · exact Or.inr ⟨heq, Nat.le_of_lt hlt⟩
      · exact Or.inr ⟨heq, Nat.le_of_eq hg⟩
    · have hm := mem_earlier.mpr ⟨hs, hsh, hsg⟩
      rw [hsm] at hm
      cases hm

end Steps

theorem Ascending.seeks (h : Ascending rows) : Seeks byPair Pair.hrcSeq (rows.map pairOf) (nextPairs rows) where
  step := by
    intro p hp
    obtain ⟨r, hr, rfl⟩ := mem_map.mp hp
    cases hsm : firstSeq byGeneration (earlier rows r) with
    | some n => exact Or.inr (h.finds_earlier hsm)
    | none =>
      have he := firstSeq_none hsm
      cases hoth : firstSeq byHost (hostsBefore rows r) with
      | some n => exact Or.inr (h.finds_before he hoth)
      | none =>
        refine Or.inl ⟨nextPairs_none ?_, fun q hq hlt => ?_⟩
        · rw [seek_eq, hsm, hoth]
          rfl
        · obtain ⟨s, hs, rfl⟩ := mem_map.mp hq
          rcases byPair_eq_lt.mp hlt with hlt | ⟨hsh, hsg⟩
          · have hm := mem_hostsBefore.mpr ⟨hs, hlt⟩
            rw [firstSeq_none hoth] at hm
            cases hm
          · have hm := mem_earlier.mpr ⟨hs, hsh, hsg⟩
            rw [he] at hm
            cases hm

theorem initialPairs_cases (rows : List HrcEventRow) : (rows = [] ∧ initialPairs rows = []) ∨
    ∃ t, initialPairs rows = [t] ∧ Newest byPair Pair.hrcSeq (rows.map pairOf) t ∧
      ∀ s ∈ rows.map pairOf, (byPair s t).isLE = true := by
  have hho := byHost_trans
  cases hh : (sortBy byHost rows).head? with
  | none =>
    refine Or.inl ⟨head_sortBy_eq_none.mp hh, ?_⟩
    rw [initialPairs, List.head?_eq_none_iff.mp hh]
    rfl
  | some t =>
    obtain ⟨hm, hf⟩ := head_sortBy hh
    have haft : ∀ s ∈ rows, compare s.hostSessionId t.hostSessionId = .lt ∨ s.hostSessionId = t.hostSessionId ∧
        (s.generation < t.generation ∨ s.generation = t.generation ∧ s.hrcSeq ≤ t.hrcSeq) := by
      intro s hs
      rcases byHost_isLE (hf s hs) with hlt | ⟨hhs, hle⟩
      · exact Or.inl hlt
      · exact Or.inr ⟨hhs, byGeneration_isLE hle⟩
    refine Or.inr ⟨pairOf t, ?_, IsNewest.newest ⟨hm, fun s hs hsh hsg => ?_⟩, fun q hq => ?_⟩
    · obtain ⟨rest, hr⟩ := List.head?_eq_some_iff.mp hh
      rw [initialPairs, hr]
      rfl
    · rcases haft s hs with hblw | ⟨-, hblw | ⟨-, hle⟩⟩
      · cases (Std.compare_eq_iff_eq.mpr hsh).symm.trans hblw
      · omega
      · exact hle
    · obtain ⟨s, hs, rfl⟩ := mem_map.mp hq
      refine byPair_isLE.mpr ?_
      rcases haft s hs with hlt | ⟨heq, hlt | ⟨hg, -⟩⟩
      · exact Or.inl hlt
      · exact Or.inr ⟨heq, Nat.le_of_lt hlt⟩
      · exact Or.inr ⟨heq, Nat.le_of_eq hg⟩

theorem Ascending.recursive_eq (h : Ascending rows) {rounds : Nat} (hrn : rows.length ≤ rounds) :
    ∃ l, recursive (nextPairs rows) rounds (initialPairs rows) = some l ∧
      (∀ p, p ∈ l ↔ Newest byPair Pair.hrcSeq (rows.map pairOf) p) ∧ l.Pairwise fun a b => byPair b a = .lt := by
  have htr := byPair_trans
  rcases initialPairs_cases rows with ⟨rfl, hi⟩ | ⟨t, hi, ht, hg⟩
  · rw [hi]
    refine ⟨[], ?_, fun p => ⟨fun hp => absurd hp not_mem_nil, fun hp => absurd hp.mem not_mem_nil⟩,
      List.Pairwise.nil⟩
    unfold recursive
    rfl
  · have hseq : ∀ a ∈ rows.map pairOf, ∀ b ∈ rows.map pairOf, a.hrcSeq = b.hrcSeq → a = b := by
      intro a ha b hb heq
      obtain ⟨r, hr, rfl⟩ := mem_map.mp ha
      obtain ⟨s, hs, rfl⟩ := mem_map.mp hb
      rw [h.inj hr hs heq]
    have hc : ((rows.map pairOf).filter fun s => (byPair s t).isLE).length ≤ rounds := by
      have hle := List.length_filter_le (fun s => (byPair s t).isLE) (rows.map pairOf)
      rw [List.length_map] at hle
      omega
    obtain ⟨l, hl, hm, hpr⟩ := h.seeks.recursive_eq hseq hc ht
    rw [hi]
    exact ⟨l, hl, fun p => (hm p).trans ⟨fun hp => hp.1, fun hp => ⟨hp, hg p hp.mem⟩⟩, hpr⟩

theorem Ascending.joinLatest_eq (h : Ascending rows) {seqs : List Nat} (hsq : seqs.Nodup) :
    joinLatest rows seqs = (rows.filter fun row => decide (row.hrcSeq ∈ seqs)).reverse := by
  have hasc : (rows.filter fun row => decide (row.hrcSeq ∈ seqs)).Pairwise fun a b => a.hrcSeq < b.hrcSeq :=
    h.filter _
  have hp : (rows.filter fun row => decide (row.hrcSeq ∈ seqs)).Perm
      (seqs.flatMap fun seq => rows.filter fun row => row.hrcSeq == seq) := by
    refine (@perm_flatMap_filter _ _ _ HrcEventRow.hrcSeq _ hsq _ fun a ha => ?_).trans (List.Perm.of_eq ?_)
    · exact of_decide_eq_true (mem_filter.mp ha).2
    · refine List.flatMap_congr fun seq hs => ?_
      rw [List.filter_filter]
      refine filter_congr fun row _ => ?_
      by_cases heq : row.hrcSeq = seq
      · simp [heq, hs]
      · simp [heq]
  rw [joinLatest, ← newestFirst_eq hasc]
  have hf := bySeq_trans
  have hd : (rows.filter fun row => decide (row.hrcSeq ∈ seqs)).Pairwise fun a b =>
      compare b.hrcSeq a.hrcSeq ≠ .eq := hasc.imp fun hlt heq => by
    have := Nat.compare_eq_eq.mp heq
    omega
  have hd' : (seqs.flatMap fun seq => rows.filter fun row => row.hrcSeq == seq).Pairwise fun a b =>
      compare b.hrcSeq a.hrcSeq ≠ .eq :=
    hp.pairwise hd fun hab hba => hab (Nat.compare_eq_eq.mpr (Nat.compare_eq_eq.mp hba).symm)
  exact eq_of_strict _ ((perm_sortBy _ _).trans (hp.symm.trans (perm_sortBy _ _).symm)) (strict_sortBy _ hd')
    (strict_sortBy _ hd)

theorem mem_recursive {l : List Pair}
    (hl : ∀ p, p ∈ l ↔ Newest byPair Pair.hrcSeq (rows.map pairOf) p) {n : Nat} :
    n ∈ l.map (·.hrcSeq) ↔ ∃ r, IsNewest rows r ∧ r.hrcSeq = n := by
  rw [mem_map]
  constructor
  · rintro ⟨p, hp, rfl⟩
    obtain ⟨r, hr, rfl⟩ := mem_map.mp ((hl p).mp hp).mem
    exact ⟨r, isNewest_of_newest hr ((hl _).mp hp), rfl⟩
  · rintro ⟨r, hr, rfl⟩
    exact ⟨pairOf r, (hl _).mpr hr.newest, rfl⟩

theorem Ascending.nodup_recursive (h : Ascending rows) {l : List Pair}
    (hl : ∀ p, p ∈ l ↔ Newest byPair Pair.hrcSeq (rows.map pairOf) p)
    (hp : l.Pairwise fun a b => byPair b a = .lt) : (l.map (·.hrcSeq)).Nodup := by
  refine pairwise_map.mpr (hp.imp_of_mem fun {a b} ha hb hlt heq => ?_)
  obtain ⟨r, hr, rfl⟩ := mem_map.mp ((hl a).mp ha).mem
  obtain ⟨s, hs, rfl⟩ := mem_map.mp ((hl b).mp hb).mem
  rw [h.inj hr hs heq, byPair_eq_eq.mpr ⟨rfl, rfl⟩] at hlt
  cases hlt

theorem foldr_max_mem {l : List Nat} (h : l ≠ []) : l.foldr max 0 ∈ l := by
  induction l with
  | nil => exact absurd rfl h
  | cons n l ih =>
    rw [List.foldr_cons]
    cases l with
    | nil => exact List.mem_cons.mpr (Or.inl (Nat.max_eq_left (Nat.zero_le _)))
    | cons m l =>
      rcases Nat.le_total n ((m :: l).foldr max 0) with hle | hle
      · rw [Nat.max_eq_right hle]
        exact List.mem_cons_of_mem _ (ih (List.cons_ne_nil _ _))
      · rw [Nat.max_eq_left hle]
        exact mem_cons_self

theorem le_foldr_max {l : List Nat} {n : Nat} (h : n ∈ l) : n ≤ l.foldr max 0 := by
  induction l with
  | nil => cases h
  | cons m l ih =>
    rw [List.foldr_cons]
    rcases List.mem_cons.mp h with rfl | h
    · exact Nat.le_max_left _ _
    · exact Nat.le_trans (ih h) (Nat.le_max_right _ _)

theorem groupMax_eq {group : Group} (h : group ∈ groups rows) :
    ∃ r, IsNewest rows r ∧ groupOf r = group ∧ r.hrcSeq = groupMax rows group := by
  obtain ⟨first, hf, hgr⟩ := mem_map.mp (mem_eraseDups.mp h)
  have hm : ∀ s, s ∈ (rows.filter fun row => groupOf row == group) ↔
      s ∈ rows ∧ groupOf s = group := by
    intro s
    rw [mem_filter, beq_iff_eq]
  have hne : ((rows.filter fun row => groupOf row == group).map (·.hrcSeq)) ≠ [] := by
    intro hn
    have hin := (hm first).mpr ⟨hf, hgr⟩
    rw [List.map_eq_nil_iff.mp hn] at hin
    cases hin
  obtain ⟨r, hr, hseq⟩ := mem_map.mp (foldr_max_mem hne)
  obtain ⟨hrw, hrgr⟩ := (hm r).mp hr
  refine ⟨r, ⟨hrw, fun s hs hh hg => ?_⟩, hrgr, hseq⟩
  rw [hseq]
  refine le_foldr_max (mem_map_of_mem ((hm s).mpr ⟨hs, ?_⟩))
  rw [groupOf, hh, hg]
  exact hrgr

theorem Ascending.nodup_groupMax (h : Ascending rows) : ((groups rows).map (groupMax rows)).Nodup := by
  have hg : (groups rows).Nodup := nodup_eraseDups _
  refine pairwise_map.mpr (hg.imp_of_mem fun {a b} ha hb hne heq => hne ?_)
  obtain ⟨r, hr, rfl, hrm⟩ := groupMax_eq ha
  obtain ⟨s, hs, rfl, hsm⟩ := groupMax_eq hb
  rw [h.inj hr.1 hs.1 (hrm.trans (heq.trans hsm.symm))]

theorem mem_groupMax {n : Nat} :
    n ∈ (groups rows).map (groupMax rows) ↔ ∃ r, IsNewest rows r ∧ r.hrcSeq = n := by
  rw [mem_map]
  constructor
  · rintro ⟨group, hgr, rfl⟩
    obtain ⟨r, hr, -, hm⟩ := groupMax_eq hgr
    exact ⟨r, hr, hm⟩
  · rintro ⟨r, hr, rfl⟩
    have hgr : groupOf r ∈ groups rows := mem_eraseDups.mpr (mem_map_of_mem hr.1)
    obtain ⟨s, hs, hp, hm⟩ := groupMax_eq hgr
    obtain ⟨hh, hg⟩ := Group.mk.inj hp
    refine ⟨_, hgr, ?_⟩
    rw [← hm]
    exact Nat.le_antisymm (hr.2 s hs.1 hh hg) (hs.2 r hr.1 hh.symm hg.symm)

structure Latest (rows latest : List HrcEventRow) : Prop where
  mem : ∀ r, r ∈ latest ↔ IsNewest rows r
  descending : latest.Pairwise fun a b => b.hrcSeq < a.hrcSeq
  once : ∀ r ∈ rows, ∃ t ∈ latest, (t.hostSessionId = r.hostSessionId ∧ t.generation = r.generation) ∧
    ∀ u ∈ latest, u.hostSessionId = r.hostSessionId → u.generation = r.generation → u = t

theorem Ascending.latest_join (h : Ascending rows) {seqs : List Nat} (hsq : seqs.Nodup)
    (hm : ∀ n, n ∈ seqs ↔ ∃ r, IsNewest rows r ∧ r.hrcSeq = n) : Latest rows (joinLatest rows seqs) := by
  have hl : ∀ r, r ∈ joinLatest rows seqs ↔ IsNewest rows r := by
    intro r
    rw [h.joinLatest_eq hsq, List.mem_reverse, mem_filter, decide_eq_true_eq, hm]
    constructor
    · rintro ⟨hr, s, hs, heq⟩
      rwa [h.inj hr hs.1 heq.symm]
    · intro hr
      exact ⟨hr.1, r, hr, rfl⟩
  refine ⟨hl, ?_, fun r hr => ?_⟩
  · rw [h.joinLatest_eq hsq, List.pairwise_reverse]
    exact List.Pairwise.filter _ h
  · have hgr : groupOf r ∈ groups rows := mem_eraseDups.mpr (mem_map_of_mem hr)
    obtain ⟨t, ht, hp, -⟩ := groupMax_eq hgr
    obtain ⟨hh, hg⟩ := Group.mk.inj hp
    refine ⟨t, (hl t).mpr ht, ⟨hh, hg⟩, fun u hu huh hug => ?_⟩
    have hn := (hl u).mp hu
    refine h.inj hn.1 ht.1 (Nat.le_antisymm ?_ ?_)
    · exact ht.2 u hn.1 (huh.trans hh.symm) (hug.trans hg.symm)
    · exact hn.2 t ht.1 (hh.trans huh.symm) (hg.trans hug.symm)

end Rows

/-- The unfiltered read ends within one round of the recursion for each row. It gives the newest row of every
pair of host session and generation, each once and newest first, which are the rows of the grouping. -/
theorem latestPerSession_exact (reader : RowReader) (ledger : Ledger) (rounds : Nat)
    (hrounds : ledger.rows.length ≤ rounds) :
    ∃ latest, latestPerSession reader rounds ledger {} = some (latest.map (mapRow reader)) ∧ Latest ledger.rows latest ∧
      latest = groupedLatest ledger.rows (fun _ => true) := by
  have h : Ascending ledger.rows := ledger.ascending
  obtain ⟨l, hl, hm, hp⟩ := h.recursive_eq hrounds
  have hnd := h.nodup_recursive hm hp
  have hs := fun n => mem_recursive (n := n) hm
  refine ⟨joinLatest ledger.rows (l.map (·.hrcSeq)), ?_, h.latest_join hnd hs, ?_⟩
  · have hpr : latestRows rounds ledger {} = latestPairs rounds ledger.rows := if_pos rfl
    rw [latestPerSession, hpr, latestPairs, hl]
    rfl
  · rw [groupedLatest, List.filter_true, h.joinLatest_eq hnd, h.joinLatest_eq h.nodup_groupMax]
    refine congrArg List.reverse (filter_congr fun r _ => decide_eq_decide.mpr ?_)
    rw [hs, mem_groupMax]

example : (latestPairs 4 Sample.ledger.rows).map (·.map (·.hrcSeq)) = some [4, 3, 2] := by decide +kernel

theorem latestPerSession_interleaved :
    ∃ latest, latestPerSession Sample.rowReader 4 Sample.ledger {} = some (latest.map (mapRow Sample.rowReader)) ∧
      Latest Sample.ledger.rows latest ∧ latest = groupedLatest Sample.ledger.rows (fun _ => true) :=
  latestPerSession_exact Sample.rowReader Sample.ledger 4 (by decide)

end HrcRuntime.LatestPairs
