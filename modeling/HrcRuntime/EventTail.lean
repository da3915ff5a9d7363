import HrcRuntime.EventFilters
import HrcRuntime.KeysetPaging
import HrcRuntime.Schedule

namespace HrcRuntime.EventTail

open EventFilters KeysetPaging Schedule

/-- The `hrc_events` table of one ledger; its key is allocated in ascending order. -/
structure Ledger where
  ledgerIncarnationId : String
  rows : List HrcEventRow
  nextHrcSeq : Nat
  positive : 0 < nextHrcSeq
  ascending : rows.Pairwise fun a b => a.hrcSeq < b.hrcSeq
  allocated : ∀ row ∈ rows, row.hrcSeq < nextHrcSeq

def Ledger.append (ledger : Ledger) (row : HrcEventRow) : Ledger where
  ledgerIncarnationId := ledger.ledgerIncarnationId
  rows := ledger.rows ++ [{ row with hrcSeq := ledger.nextHrcSeq }]
  nextHrcSeq := ledger.nextHrcSeq + 1
  positive := Nat.succ_pos _
  ascending := by
    refine List.pairwise_append.mpr ⟨ledger.ascending, List.pairwise_singleton _ _, fun a ha b hb => ?_⟩
    rw [List.mem_singleton.mp hb]
    exact ledger.allocated a ha
  allocated := by
    intro a ha
    rcases List.mem_append.mp ha with ha | ha
    · exact Nat.lt_succ_of_lt (ledger.allocated a ha)
    · rw [List.mem_singleton.mp ha]
      exact Nat.lt_succ_self _

structure HrcLifecycleQueryFilters extends HrcEventsRouteFilters where
  launchId : Option String := none

/-- What `buildLifecycleWhere` asks of a row, without the predicates on sequences. -/
def HrcLifecycleQueryFilters.accepts (filters : HrcLifecycleQueryFilters) (row : HrcEventRow) : Bool :=
  buildLifecycleWhere filters.toHrcEventsRouteFilters row && filters.launchId.all (columnEquals row.launchId)

structure HrcEventTailCursor where
  beforeHrcSeq : Option Nat := none
  expectedLedgerIncarnationId : Option String := none

structure HrcEventTail where
  events : List HrcLifecycleEvent
  ledgerIncarnationId : String
  headHrcSeq : Nat
  truncated : Bool

/-- `HrcEventLedgerIncarnationMismatchError`. -/
structure LedgerIncarnationMismatch where
  expectedLedgerIncarnationId : String
  currentLedgerIncarnationId : String

def maxHrcSeq (ledger : Ledger) : Nat := (ledger.rows.map (·.hrcSeq)).foldr max 0

/-- `ORDER BY hrc_seq DESC`. -/
def newestFirst (rows : List HrcEventRow) : List HrcEventRow := sortBy (fun a b => compare b.hrcSeq a.hrcSeq) rows

variable (reader : RowReader) (filters : HrcLifecycleQueryFilters)

def tail (ledger : Ledger) (limit : Nat) (cursor : HrcEventTailCursor) : Except LedgerIncarnationMismatch HrcEventTail :=
  if cursor.expectedLedgerIncarnationId.any (· != ledger.ledgerIncarnationId) then
    .error ⟨cursor.expectedLedgerIncarnationId.getD "", ledger.ledgerIncarnationId⟩
  else
    let rows := (newestFirst (ledger.rows.filter fun row =>
      filters.accepts row && cursor.beforeHrcSeq.all (row.hrcSeq < ·))).take (limit + 1)
    let truncated := decide (limit < rows.length)
    let rows := if truncated then rows.dropLast else rows
    .ok { events := rows.reverse.map (mapRow reader), ledgerIncarnationId := ledger.ledgerIncarnationId
          headHrcSeq := maxHrcSeq ledger, truncated }

structure Walk where
  ledger : Ledger
  pages : List HrcEventTail := []

namespace Walk

def events (s : Walk) : List HrcLifecycleEvent := s.pages.flatMap (·.events)

/-- `beforeHrcSeq` is the oldest event loaded, under the incarnation of the page it came with. -/
def cursor (s : Walk) : HrcEventTailCursor where
  beforeHrcSeq := s.events.head?.map (·.hrcSeq)
  expectedLedgerIncarnationId := s.pages.head?.map (·.ledgerIncarnationId)

def head (s : Walk) : Nat := (s.pages.getLast?.map (·.headHrcSeq)).getD 0

def ended (s : Walk) : Bool := s.pages.head?.any (!·.truncated)

def matching (s : Walk) : List HrcEventRow :=
  s.ledger.rows.filter fun row => filters.accepts row && decide (row.hrcSeq ≤ s.head)

end Walk

inductive Action where
  | append (row : HrcEventRow)
  | page (limit : Nat) (positive : 0 < limit)

def Action.isPage : Action → Bool
  | .append _ => false
  | .page _ _ => true

def step : Action → Walk → Walk
  | .append row, s => { s with ledger := s.ledger.append row }
  | .page limit _, s =>
    if s.ended then s
    else match tail reader filters s.ledger limit s.cursor with
      | .ok page => { s with pages := page :: s.pages }
      | .error _ => s

section Tail

variable {reader filters} {ledger : Ledger} {limit : Nat} {cursor : HrcEventTailCursor}

theorem le_maxHrcSeq {row : HrcEventRow} (h : row ∈ ledger.rows) : row.hrcSeq ≤ maxHrcSeq ledger := by
  unfold maxHrcSeq
  generalize ledger.rows = rows at h
  induction rows with
  | nil => cases h
  | cons first rows ih =>
    rw [List.map_cons, List.foldr_cons]
    rcases List.mem_cons.mp h with rfl | h
    · exact Nat.le_max_left _ _
    · exact Nat.le_trans (ih h) (Nat.le_max_right _ _)

theorem maxHrcSeq_lt (ledger : Ledger) : maxHrcSeq ledger < ledger.nextHrcSeq := by
  have hall := ledger.allocated
  unfold maxHrcSeq
  generalize ledger.rows = rows at hall
  induction rows with
  | nil => exact ledger.positive
  | cons first rows ih =>
    rw [List.map_cons, List.foldr_cons]
    exact Nat.max_lt.mpr ⟨hall first List.mem_cons_self, ih fun row hr => hall row (List.mem_cons_of_mem _ hr)⟩

theorem newestFirst_eq {rows : List HrcEventRow} (h : rows.Pairwise fun a b => a.hrcSeq < b.hrcSeq) :
    newestFirst rows = rows.reverse := by
  have hf : Std.TransCmp fun a b : HrcEventRow => compare b.hrcSeq a.hrcSeq :=
    { eq_swap := Std.OrientedCmp.eq_swap
      isLE_trans := fun hab hbc => Std.TransCmp.isLE_trans hbc hab }
  have hd : rows.Pairwise fun a b => compare b.hrcSeq a.hrcSeq ≠ .eq := h.imp fun {a b} hlt heq => by
    have := Nat.compare_eq_eq.mp heq
    omega
  refine eq_of_strict _ ((perm_sortBy _ rows).trans (List.reverse_perm rows).symm) (strict_sortBy _ hd) ?_
  rw [List.pairwise_reverse]
  exact h.imp fun {a b} hlt => Nat.compare_eq_lt.mpr hlt

def newestPage (reader : RowReader) (ledger : Ledger) (limit : Nat) (older : List HrcEventRow) : HrcEventTail where
  events := (older.drop (older.length - limit)).map (mapRow reader)
  ledgerIncarnationId := ledger.ledgerIncarnationId
  headHrcSeq := maxHrcSeq ledger
  truncated := decide (limit < older.length)

theorem tail_eq (hl : ∀ id ∈ cursor.expectedLedgerIncarnationId, id = ledger.ledgerIncarnationId)
    {older : List HrcEventRow}
    (hol : (ledger.rows.filter fun row => filters.accepts row && cursor.beforeHrcSeq.all (row.hrcSeq < ·)) = older) :
    tail reader filters ledger limit cursor = .ok (newestPage reader ledger limit older) := by
  have hf : ¬ cursor.expectedLedgerIncarnationId.any (· != ledger.ledgerIncarnationId) = true := by
    intro hany
    obtain ⟨id, hid, hne⟩ := (Option.any_eq_true _ _).mp hany
    rw [hl id hid] at hne
    simp at hne
  have hs : newestFirst older = older.reverse := by
    rw [← hol]
    exact newestFirst_eq (ledger.ascending.filter _)
  have hlen : (limit < (older.reverse.take (limit + 1)).length) ↔ limit < older.length := by
    rw [List.length_take, List.length_reverse]
    omega
  unfold tail newestPage
  rw [if_neg hf, hol, hs]
  dsimp only
  by_cases hm : limit < older.length
  · have ht : (older.reverse.take (limit + 1)).dropLast = older.reverse.take limit := by
      rw [List.dropLast_eq_take, List.take_take, List.length_take, List.length_reverse]
      congr 1
      omega
    have htr : decide (limit < (older.reverse.take (limit + 1)).length) = true := decide_eq_true (hlen.mpr hm)
    rw [htr, if_pos rfl, ht, decide_eq_true hm, ← List.reverse_reverse (older.drop _), List.reverse_drop]
    congr 5
    omega
  · have ht : older.reverse.take (limit + 1) = older.reverse :=
      List.take_of_length_le (by rw [List.length_reverse]; omega)
    have hd : older.length - limit = 0 := by omega
    have htr : decide (limit < older.reverse.length) = false :=
      decide_eq_false (by rw [List.length_reverse]; exact hm)
    rw [ht, htr, if_neg (by simp), List.reverse_reverse, hd, List.drop_zero, decide_eq_false hm]

end Tail

section Walks

variable {reader filters} {s : Walk} {left : Nat}

/-- How far a walk is: all but the oldest `left` of the matching rows have been read. -/
structure Reads (reader : RowReader) (filters : HrcLifecycleQueryFilters) (s : Walk) (page : HrcEventTail) (left : Nat) :
    Prop where
  latest : s.pages.head? = some page
  events : s.events = ((s.matching filters).drop left).map (mapRow reader)
  truncated : page.truncated = decide (0 < left)
  started : 0 < left → left < (s.matching filters).length
  incarnation : page.ledgerIncarnationId = s.ledger.ledgerIncarnationId
  below : s.head < s.ledger.nextHrcSeq

variable {page : HrcEventTail} {older : List HrcEventRow} {limit : Nat}

theorem Reads.ended_eq (h : Reads reader filters s page left) : s.ended = decide (left = 0) := by
  unfold Walk.ended
  rw [h.latest, Option.any_some, h.truncated]
  by_cases hl : left = 0
  · simp [hl]
  · simp [hl, Nat.pos_of_ne_zero hl]

theorem matching_sorted (s : Walk) : (s.matching filters).Pairwise fun a b => a.hrcSeq < b.hrcSeq :=
  s.ledger.ascending.filter _

theorem matching_pages {pages : List HrcEventTail} (h : (Walk.mk s.ledger pages).head = s.head) :
    (Walk.mk s.ledger pages).matching filters = s.matching filters := by
  unfold Walk.matching
  rw [h]

theorem matching_append {row : HrcEventRow} (h : s.head < s.ledger.nextHrcSeq) :
    (step reader filters (.append row) s).matching filters = s.matching filters := by
  have hh : (step reader filters (.append row) s).head = s.head := rfl
  unfold Walk.matching
  rw [hh]
  have hn : [{ row with hrcSeq := s.ledger.nextHrcSeq }].filter
      (fun row => filters.accepts row && decide (row.hrcSeq ≤ s.head)) = [] := by
    refine List.filter_eq_nil_iff.mpr fun a ha hw => ?_
    rw [List.mem_singleton.mp ha] at hw
    have hle := of_decide_eq_true (Bool.and_eq_true_iff.mp hw).2
    dsimp only at hle
    omega
  simp only [step, Ledger.append, List.filter_append]
  rw [hn, List.append_nil]

theorem reads_append {row : HrcEventRow} (h : Reads reader filters s page left) :
    Reads reader filters (step reader filters (.append row) s) page left := by
  have hm : (step reader filters (.append row) s).matching filters = s.matching filters := matching_append h.below
  exact ⟨h.latest, by rw [hm]; exact h.events, h.truncated, by rw [hm]; exact h.started, h.incarnation,
    Nat.lt_succ_of_lt h.below⟩

variable {positive : 0 < limit}

theorem step_page (he : s.ended = false)
    (hi : ∀ id ∈ s.cursor.expectedLedgerIncarnationId, id = s.ledger.ledgerIncarnationId)
    (hol : (s.ledger.rows.filter fun row => filters.accepts row && s.cursor.beforeHrcSeq.all (row.hrcSeq < ·)) = older) :
    step reader filters (.page limit positive) s = { s with pages := newestPage reader s.ledger limit older :: s.pages } := by
  simp only [step, he, Bool.false_eq_true, if_false, tail_eq hi hol]

theorem reads_page (older read : List HrcEventRow) (he : s.ended = false)
    (hi : ∀ id ∈ s.cursor.expectedLedgerIncarnationId, id = s.ledger.ledgerIncarnationId)
    (hol : (s.ledger.rows.filter fun row => filters.accepts row && s.cursor.beforeHrcSeq.all (row.hrcSeq < ·)) = older)
    (hevs : s.events = read.map (mapRow reader))
    (hm : ({ s with pages := newestPage reader s.ledger limit older :: s.pages } : Walk).matching filters = older ++ read)
    (hblw : s.pages ≠ [] → s.head < s.ledger.nextHrcSeq) :
    Reads reader filters (step reader filters (.page limit positive) s) (newestPage reader s.ledger limit older)
      (older.length - limit) := by
  rw [step_page he hi hol]
  constructor
  · rfl
  · have hle : older.length - limit ≤ older.length := Nat.sub_le _ _
    rw [hm, List.drop_append_of_le_length hle, List.map_append, ← hevs]
    rfl
  · unfold newestPage
    dsimp only
    congr 1
    exact propext (by omega)
  · intro hl
    rw [hm, List.length_append]
    omega
  · rfl
  · cases hp : s.pages with
    | nil => exact maxHrcSeq_lt s.ledger
    | cons page pages =>
      have hh : ({ s with pages := newestPage reader s.ledger limit older :: page :: pages } : Walk).head = s.head := by
        unfold Walk.head
        rw [hp, List.getLast?_cons_cons]
      rw [hh]
      exact hblw (by rw [hp]; exact List.cons_ne_nil _ _)

theorem reads_first (hp : s.pages = []) :
    ∃ page left, Reads reader filters (step reader filters (.page limit positive) s) page left := by
  have he : s.events = [] := by unfold Walk.events; rw [hp]; rfl
  have hc : s.cursor = ⟨none, none⟩ := by unfold Walk.cursor; rw [he, hp]; rfl
  refine ⟨_, _, reads_page _ [] (by unfold Walk.ended; rw [hp]; rfl)
    (by rw [hc]; exact fun id hid => by cases hid) rfl (by rw [he]; rfl) ?_ (fun h => absurd hp h)⟩
  rw [List.append_nil]
  refine List.filter_congr fun row hr => ?_
  have hh : ({ s with pages := [newestPage reader s.ledger limit (s.ledger.rows.filter fun row =>
      filters.accepts row && s.cursor.beforeHrcSeq.all (row.hrcSeq < ·))] } : Walk).head = maxHrcSeq s.ledger := rfl
  rw [hp, hh, hc, Option.all_none, decide_eq_true (le_maxHrcSeq hr)]

theorem filter_below {later : List HrcEventRow} {oldest : HrcEventRow}
    (h : (older ++ oldest :: later).Pairwise fun a b => a.hrcSeq < b.hrcSeq) :
    (older ++ oldest :: later).filter (fun row => decide (row.hrcSeq < oldest.hrcSeq)) = older := by
  obtain ⟨-, hl, hc⟩ := List.pairwise_append.mp h
  rw [List.filter_append, List.filter_eq_self.mpr fun a ha => ?_, List.filter_eq_nil_iff.mpr fun a ha => ?_, List.append_nil]
  · simp only [decide_eq_true_eq, Nat.not_lt]
    rcases List.mem_cons.mp ha with rfl | ha
    · exact Nat.le_refl _
    · exact Nat.le_of_lt (List.rel_of_pairwise_cons hl ha)
  · exact decide_eq_true (hc a ha oldest List.mem_cons_self)

/-- The page after the last one starts where that one ended. -/
theorem reads_next (h : Reads reader filters s page left)
    (hl : 0 < left) :
    Reads reader filters (step reader filters (.page limit positive) s)
      (newestPage reader s.ledger limit ((s.matching filters).take left)) (left - limit) := by
  have hlt := h.started hl
  obtain ⟨oldest, later, hd⟩ : ∃ oldest later, (s.matching filters).drop left = oldest :: later :=
    ⟨_, _, List.drop_eq_getElem_cons hlt⟩
  have hsp : (s.matching filters).take left ++ oldest :: later = s.matching filters := by
    rw [← hd, List.take_append_drop]
  have hc : s.cursor = ⟨some oldest.hrcSeq, some s.ledger.ledgerIncarnationId⟩ := by
    rw [← h.incarnation]
    unfold Walk.cursor
    rw [h.events, hd, h.latest]
    rfl
  have hlen : ((s.matching filters).take left).length = left := by
    rw [List.length_take]
    omega
  have he : s.ended = false := by
    rw [h.ended_eq]
    exact decide_eq_false (Nat.ne_of_gt hl)
  have hi : ∀ id ∈ s.cursor.expectedLedgerIncarnationId, id = s.ledger.ledgerIncarnationId := by
    rw [hc]
    exact fun id hid => (Option.some.inj hid).symm
  have hr : Reads reader filters (step reader filters (.page limit positive) s)
      (newestPage reader s.ledger limit ((s.matching filters).take left)) (((s.matching filters).take left).length - limit) :=
    reads_page _ ((s.matching filters).drop left) he hi ?_ h.events ?_ fun _ => h.below
  · rw [hlen] at hr
    exact hr
  · have hold : oldest ∈ s.matching filters := by
      rw [← hsp]
      exact List.mem_append_right _ List.mem_cons_self
    have hle : oldest.hrcSeq ≤ s.head := of_decide_eq_true (Bool.and_eq_true_iff.mp (List.mem_filter.mp hold).2).2
    have hs : (s.matching filters).Pairwise fun a b => a.hrcSeq < b.hrcSeq := matching_sorted s
    rw [← hsp] at hs
    have hblw := filter_below hs
    rw [hsp] at hblw
    rw [← hblw, hc]
    unfold Walk.matching
    rw [List.filter_filter]
    refine List.filter_congr fun row _ => ?_
    rw [Option.all_some]
    by_cases hrow : row.hrcSeq < oldest.hrcSeq
    · rw [decide_eq_true hrow, decide_eq_true (Nat.le_of_lt (Nat.lt_of_lt_of_le hrow hle)), Bool.and_true, Bool.true_and]
    · rw [decide_eq_false hrow, Bool.and_false, Bool.false_and]
  · rw [List.take_append_drop]
    obtain ⟨pages, hp⟩ : ∃ pages, s.pages = page :: pages := List.head?_eq_some_iff.mp h.latest
    refine matching_pages ?_
    unfold Walk.head
    rw [hp, List.getLast?_cons_cons]

def Walking (reader : RowReader) (filters : HrcLifecycleQueryFilters) (s : Walk) : Prop :=
  s.pages = [] ∨ ∃ page left, Reads reader filters s page left

theorem step_walking (a : Action) (h : Walking reader filters s) : Walking reader filters (step reader filters a s) := by
  cases a with
  | append row =>
    rcases h with hp | ⟨page, left, h⟩
    · exact .inl hp
    · exact .inr ⟨page, left, reads_append h⟩
  | page limit positive =>
    rcases h with hp | ⟨page, left, h⟩
    · exact .inr (reads_first hp)
    · rcases Nat.eq_zero_or_pos left with hl | hl
      · have hs : step reader filters (.page limit positive) s = s := by
          simp only [step, h.ended_eq, decide_eq_true hl, if_true]
        rw [hs]
        exact .inr ⟨page, left, h⟩
      · exact .inr ⟨_, _, reads_next h hl⟩

theorem cursor_incarnation (h : Walking reader filters s) :
    ∀ id ∈ s.cursor.expectedLedgerIncarnationId, id = s.ledger.ledgerIncarnationId := by
  intro id hid
  obtain ⟨first, hf, rfl⟩ := Option.map_eq_some_iff.mp hid
  rcases h with hp | ⟨page, left, h⟩
  · rw [hp] at hf
    cases hf
  · rw [h.latest] at hf
    obtain rfl := Option.some.inj hf
    exact h.incarnation

theorem length_newestPage {ledger : Ledger}
    (h : (newestPage reader ledger limit older).truncated = true) : (newestPage reader ledger limit older).events.length = limit := by
  have hlt : limit < older.length := of_decide_eq_true h
  simp only [newestPage, List.length_map, List.length_drop]
  omega

theorem step_grows (h : Walking reader filters s) :
    (step reader filters (.page limit positive) s).ended = true ∨
      s.events.length < (step reader filters (.page limit positive) s).events.length := by
  cases he : s.ended with
  | true =>
    refine .inl ?_
    simp only [step, he, if_true]
  | false =>
    rw [step_page he (cursor_incarnation h) rfl]
    generalize (s.ledger.rows.filter _) = older
    cases ht : (newestPage reader s.ledger limit older).truncated with
    | false =>
      refine .inl ?_
      simp [Walk.ended, ht]
    | true =>
      refine .inr ?_
      have hl := length_newestPage ht
      simp only [Walk.events, List.flatMap_cons, List.length_append, hl]
      omega

theorem ended_step (a : Action) (h : s.ended = true) :
    (step reader filters a s).ended = true ∧ (step reader filters a s).events = s.events := by
  cases a with
  | append row => exact ⟨h, rfl⟩
  | page limit positive => simp only [step, h, if_true, and_self]

theorem Reads.older_iff (h : Reads reader filters s page left) :
    0 < left ↔ ∃ row ∈ s.ledger.rows, filters.accepts row = true ∧ row.hrcSeq ≤ s.head ∧
      ∀ event ∈ s.events, row.hrcSeq < event.hrcSeq := by
  have hm (row : HrcEventRow) : row ∈ s.matching filters ↔
      row ∈ s.ledger.rows ∧ filters.accepts row = true ∧ row.hrcSeq ≤ s.head := by
    simp [Walk.matching]
  rw [h.events]
  constructor
  · intro hl
    have hlt := h.started hl
    obtain ⟨row, hr⟩ : ∃ row, row ∈ (s.matching filters).take left :=
      List.exists_mem_of_length_pos (by rw [List.length_take]; omega)
    obtain ⟨hrw, hacc, hh⟩ := (hm row).mp (List.mem_of_mem_take hr)
    refine ⟨row, hrw, hacc, hh, fun event hev => ?_⟩
    obtain ⟨newer, hn, rfl⟩ := List.mem_map.mp hev
    have hsr : (s.matching filters).Pairwise fun a b => a.hrcSeq < b.hrcSeq := matching_sorted s
    rw [← List.take_append_drop left (s.matching filters)] at hsr
    exact (List.pairwise_append.mp hsr).2.2 row hr newer hn
  · rintro ⟨row, hrw, hacc, hh, hold⟩
    refine Nat.pos_of_ne_zero fun hl => ?_
    subst hl
    have hs := hold (mapRow reader row) (List.mem_map_of_mem ((hm row).mpr ⟨hrw, hacc, hh⟩))
    exact Nat.lt_irrefl _ hs

theorem run_walking (actions : List Action) (h : Walking reader filters s) :
    Walking reader filters (run (step reader filters) actions s) :=
  run_invariant (fun _ a h _ => step_walking a h) h meets_true

theorem run_grows (actions : List Action) (h : Walking reader filters s) :
    (run (step reader filters) actions s).ended = true ∨
      s.events.length + actions.countP Action.isPage ≤ (run (step reader filters) actions s).events.length := by
  induction actions generalizing s with
  | nil => exact .inr (Nat.le_refl _)
  | cons a actions ih =>
    rw [run]
    have hn := ih (step_walking a h)
    cases a with
    | append row =>
      rw [List.countP_cons_of_neg (by simp [Action.isPage])]
      exact hn
    | page limit positive =>
      rw [List.countP_cons_of_pos rfl]
      have hp : (step reader filters (.page limit positive) s).ended = true ∨
          s.events.length < (step reader filters (.page limit positive) s).events.length := step_grows h
      rcases hp with he | hg
      · exact .inl (run_invariant (I := fun s : Walk => s.ended = true) (fun _ a h _ => (ended_step a h).1) he meets_true)
      · refine hn.imp_right fun hle => ?_
        omega

end Walks

/-- Following `beforeHrcSeq` while others append reads the newest part of the rows that matched when the
first page was read, each once and in order; a page is truncated exactly when there is an older one, and
the walk ends with all of them. -/
theorem tail_walk_exact (reader : RowReader) (filters : HrcLifecycleQueryFilters) (ledger : Ledger) (actions : List Action) :
    let s : Walk := run (step reader filters) actions ⟨ledger, []⟩
    (∃ older, (s.matching filters).map (mapRow reader) = older ++ s.events) ∧
    (∀ page ∈ s.pages.head?, page.truncated = true ↔ ∃ row ∈ s.ledger.rows,
      filters.accepts row = true ∧ row.hrcSeq ≤ s.head ∧ ∀ event ∈ s.events, row.hrcSeq < event.hrcSeq) ∧
    (s.ended = true → s.events = (s.matching filters).map (mapRow reader)) ∧
    (s.ended = true ∨ actions.countP Action.isPage ≤ s.events.length) := by
  intro s
  have hg : s.ended = true ∨ 0 + actions.countP Action.isPage ≤ s.events.length :=
    run_grows actions (.inl rfl : Walking reader filters ⟨ledger, []⟩)
  rw [Nat.zero_add] at hg
  rcases (run_walking actions (.inl rfl) : Walking reader filters s) with hpg | ⟨page, left, h⟩
  · have hevs : s.events = [] := by unfold Walk.events; rw [hpg]; rfl
    have he : s.ended = false := by unfold Walk.ended; rw [hpg]; rfl
    refine ⟨⟨_, by rw [hevs, List.append_nil]⟩, fun page hp => ?_, fun h => ?_, hg⟩
    · rw [hpg] at hp
      cases hp
    · rw [he] at h
      cases h
  · refine ⟨⟨((s.matching filters).take left).map (mapRow reader), ?_⟩, fun latest hl => ?_, fun he => ?_, hg⟩
    · rw [h.events, ← List.map_append, List.take_append_drop]
    · rw [h.latest] at hl
      obtain rfl := Option.some.inj hl
      rw [h.truncated, decide_eq_true_eq]
      exact h.older_iff
    · rw [h.ended_eq, decide_eq_true_eq] at he
      subst he
      exact h.events

end HrcRuntime.EventTail
