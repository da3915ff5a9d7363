import HrcRuntime.ContextReading
import HrcRuntime.Scan
import HrcRuntime.Schedule

namespace HrcRuntime.EventPage

open Records Relational Database Mapper ContextReading Scan Schedule

structure HrcEventPage where
  ledgerIncarnationId : String
  head : Nat
  rows : List HrcLifecycleEvent
  scannedThrough : Nat

/-- What `GET /v1/events/page` answers instead of a page. -/
inductive PageError where
  | malformedRequest (message field : String)
  | cursorInvalid (expectedLedgerIncarnationId currentLedgerIncarnationId : String)

/-- A query parameter as `Number` reads it: absent, not an integer, or an integer. -/
inductive QueryNumber where
  | absent | notInteger
  | integer (n : Int)

def parseRequiredSafeInteger (field : String) (raw : QueryNumber) (minimum : Nat) : Except PageError Nat :=
  match raw with
  | .absent => .error (.malformedRequest s!"{field} is required" field)
  | .integer n =>
    if minimum ≤ n ∧ n ≤ maxSafeInteger then .ok n.toNat
    else .error (.malformedRequest s!"{field} must be a safe integer greater than or equal to {minimum}" field)
  | .notInteger =>
    .error (.malformedRequest s!"{field} must be a safe integer greater than or equal to {minimum}" field)

def hrcEventsPageMaxLimit : Nat := 1000

/-- The highest `hrc_seq` ever allocated. -/
def allocatedHrcSeq (db : Db) : Nat := db.nextHrcSeq - 1

/-- `WHERE hrc_seq > ? AND hrc_seq <= ? ORDER BY hrc_seq ASC`. -/
def range (db : Db) (afterSeq head : Nat) : List HrcLifecycleEvent :=
  orderBy (·.hrcSeq) (db.hrcEvents.rows.filter fun r => afterSeq < r.hrcSeq && r.hrcSeq ≤ head)

variable [Host]

def page (db : Db) (afterSeq limit : Nat) (expectedLedgerIncarnationId : Option String) : Except PageError HrcEventPage :=
  if expectedLedgerIncarnationId.any (· != Host.ledgerIncarnationId) then
    .error (.cursorInvalid (expectedLedgerIncarnationId.getD "") Host.ledgerIncarnationId)
  else
    let head := allocatedHrcSeq db
    let rows := (range db afterSeq head).take limit
    .ok { ledgerIncarnationId := Host.ledgerIncarnationId, head, rows
          scannedThrough := scannedThrough (·.hrcSeq) head limit rows }

def handleEventsPage (db : Db) (afterSeq limit : QueryNumber) (expectedLedgerIncarnationId : Option String) :
    Except PageError HrcEventPage := do
  let afterSeq ← parseRequiredSafeInteger "afterSeq" afterSeq 0
  let limit ← parseRequiredSafeInteger "limit" limit 1
  if limit > hrcEventsPageMaxLimit then
    throw (.malformedRequest s!"limit must be between 1 and {hrcEventsPageMaxLimit}" "limit")
  page db afterSeq limit expectedLedgerIncarnationId

/-- A reader that follows `scannedThrough` over a ledger others write, and the rows its filter has kept. -/
structure Walk where
  db : Db
  cursor : Nat
  seen : List HrcLifecycleEvent := []

inductive Action where
  | write (w : Write)
  | delete (p : HrcLifecycleEvent → Bool)
  | page (limit : QueryNumber) (expectedLedgerIncarnationId : Option String)

def step (filter : HrcLifecycleEvent → Bool) : Action → Walk → Walk
  | .write w, s => { s with db := (w.run s.db).toOption.getD s.db }
  | .delete p, s => { s with db := { s.db with hrcEvents := s.db.hrcEvents.delete p } }
  | .page limit expected, s =>
    match handleEventsPage s.db (.integer s.cursor) limit expected with
    | .ok page => { s with cursor := page.scannedThrough, seen := s.seen ++ page.rows.filter filter }
    | .error _ => s

section Page

variable {db db' : Db}

omit [Host]

def Allocated (db : Db) : Prop := ∀ r ∈ db.hrcEvents.rows, r.hrcSeq < db.nextHrcSeq

instance : Decidable (Allocated db) := by unfold Allocated; infer_instance

variable {w : Write}

theorem nextHrcSeq_run (h : w.run db = .ok db') :
    db'.nextHrcSeq = db.nextHrcSeq + 1 ∨
      db'.nextHrcSeq = db.nextHrcSeq ∧ ∀ kind category event, w ≠ .appendHrcEvent kind category event := by
  cases w <;> obtain ⟨t, ht, rfl⟩ := Write.store_eq_ok.mp h <;>
    first | exact .inl rfl | exact .inr ⟨rfl, fun _ _ _ h => by cases h⟩

theorem nextHrcSeq_le (h : w.run db = .ok db') : db.nextHrcSeq ≤ db'.nextHrcSeq := by
  have := nextHrcSeq_run h
  omega

theorem allocated_run (h : w.run db = .ok db') (hdb : Allocated db) : Allocated db' := by
  intro r hr
  have hrw := Write.run_hrcEvents h
  have hn := nextHrcSeq_run h
  unfold Write.runHrcEvents at hrw
  split at hrw
  · rw [insert_rows hrw] at hr
    have hn : db'.nextHrcSeq = db.nextHrcSeq + 1 := by
      rcases hn with hn | ⟨-, hne⟩
      · exact hn
      · exact absurd rfl (hne _ _ _)
    rcases List.mem_append.mp hr with hr | hr
    · have := hdb r hr
      omega
    · rw [List.mem_singleton.mp hr, hn]
      exact Nat.lt_succ_self _
  · rw [update_rows hrw] at hr
    obtain ⟨a, ha, rfl⟩ := List.mem_map.mp hr
    have := hdb a ha
    split
    · dsimp only
      omega
    · omega
  · rw [← Option.some.inj hrw] at hr
    have := hdb r hr
    omega

theorem mem_range {afterSeq head : Nat} {r : HrcLifecycleEvent} :
    r ∈ range db afterSeq head ↔ r ∈ db.hrcEvents.rows ∧ afterSeq < r.hrcSeq ∧ r.hrcSeq ≤ head := by
  simp [range, mem_orderBy]

theorem range_sorted (db : Db) (afterSeq head : Nat) :
    (range db afterSeq head).Pairwise fun a b => a.hrcSeq < b.hrcSeq := by
  have hd : db.hrcEvents.rows.Pairwise fun a b => a.hrcSeq ≠ b.hrcSeq := by
    refine db.hrcEvents.unique.imp fun {a b} h hab => h _ (List.mem_singleton_self _) ⟨rfl, ?_⟩
    dsimp only
    rw [hab]
  have hp : (db.hrcEvents.rows.filter fun r => afterSeq < r.hrcSeq && r.hrcSeq ≤ head).Perm (range db afterSeq head) :=
    (List.perm_insertionSort _ _).symm
  have hne : (range db afterSeq head).Pairwise fun a b => a.hrcSeq ≠ b.hrcSeq :=
    (hp.pairwise_iff fun h => h.symm).mp (hd.filter _)
  refine ((pairwise_orderBy (fun r : HrcLifecycleEvent => r.hrcSeq) _).and hne).imp fun {a b} h => ?_
  exact Nat.lt_of_le_of_ne h.1 h.2

end Page

section Reading

variable {db : Db}

/-- What an accepted request answers: every stored row after the cursor up to `scannedThrough`, in order. -/
structure Covers (db : Db) (afterSeq : Nat) (page : HrcEventPage) : Prop where
  mem : ∀ r, r ∈ page.rows ↔ r ∈ db.hrcEvents.rows ∧ afterSeq < r.hrcSeq ∧ r.hrcSeq ≤ page.scannedThrough
  sorted : page.rows.Pairwise fun a b => a.hrcSeq < b.hrcSeq
  le_head : page.scannedThrough ≤ page.head
  head : page.head = allocatedHrcSeq db
  forward : afterSeq ≤ page.head →
    afterSeq ≤ page.scannedThrough ∧ (afterSeq < page.head → afterSeq < page.scannedThrough)

variable {expected : Option String} {answer : HrcEventPage}

theorem page_covers {afterSeq limit : Nat} (hl : 0 < limit)
    (h : page db afterSeq limit expected = .ok answer) : Covers db afterSeq answer := by
  unfold page at h
  split at h
  · cases h
  · cases h
    have hh : ∀ r ∈ range db afterSeq (allocatedHrcSeq db), r.hrcSeq ≤ allocatedHrcSeq db :=
      fun r hr => (mem_range.mp hr).2.2
    have ht : ∀ r ∈ (range db afterSeq (allocatedHrcSeq db)).take limit, r ∈ range db afterSeq (allocatedHrcSeq db) :=
      fun r hr => List.mem_of_mem_take hr
    refine ⟨fun r => ?_, (range_sorted db _ _).sublist (List.take_sublist _ _),
      scannedThrough_le fun r hr => hh r (ht r hr), rfl,
      le_scannedThrough fun r hr => (mem_range.mp (ht r hr)).2.1⟩
    refine (mem_take_iff (range_sorted db _ _) hh hl).trans ?_
    rw [mem_range]
    have hle : scannedThrough (·.hrcSeq) (allocatedHrcSeq db) limit ((range db afterSeq (allocatedHrcSeq db)).take limit) ≤
        allocatedHrcSeq db := scannedThrough_le fun r hr => hh r (ht r hr)
    constructor
    · rintro ⟨⟨hr, haft, -⟩, hthr⟩
      exact ⟨hr, haft, hthr⟩
    · rintro ⟨hr, haft, hthr⟩
      exact ⟨⟨hr, haft, Nat.le_trans hthr hle⟩, hthr⟩

omit [Host] in
theorem parse_ok {field : String} {raw : QueryNumber} {minimum n : Nat}
    (h : parseRequiredSafeInteger field raw minimum = .ok n) : minimum ≤ n ∧ ∀ k, raw = .integer k → n = k.toNat := by
  unfold parseRequiredSafeInteger at h
  split at h
  · cases h
  · split at h
    · cases h
      exact ⟨by omega, fun k hk => by cases hk; rfl⟩
    · cases h
  · cases h

theorem handleEventsPage_covers {afterSeq : Nat} {limit : QueryNumber}
    (h : handleEventsPage db (.integer afterSeq) limit expected = .ok answer) : Covers db afterSeq answer := by
  unfold handleEventsPage at h
  cases haft : parseRequiredSafeInteger "afterSeq" (.integer afterSeq) 0 with
  | error e =>
    rw [haft] at h
    cases h
  | ok after =>
    obtain rfl : after = afterSeq := (parse_ok haft).2 _ rfl
    cases hl : parseRequiredSafeInteger "limit" limit 1 with
    | error e =>
      rw [haft, hl] at h
      cases h
    | ok n =>
      rw [haft, hl] at h
      have h : (if n > hrcEventsPageMaxLimit then _ else _) = Except.ok answer := h
      split at h
      · cases h
      · exact page_covers (parse_ok hl).1 h

end Reading

section Walks

variable {p : HrcLifecycleEvent → Bool} {s : Walk}

/-- What holds of every reached walk: it has kept nothing above its cursor, in order, and once it has kept
something its cursor is below the head. -/
structure Reached (s : Walk) : Prop where
  allocated : Allocated s.db
  seen_le : ∀ r ∈ s.seen, r.hrcSeq ≤ s.cursor
  sorted : s.seen.Pairwise fun a b => a.hrcSeq < b.hrcSeq
  behind : s.seen = [] ∨ s.cursor ≤ allocatedHrcSeq s.db

inductive Moves (p : HrcLifecycleEvent → Bool) (s : Walk) : Action → Walk → Prop where
  | wrote {a : Action} {db : Db} (hallocated : Allocated s.db → Allocated db) (hnext : s.db.nextHrcSeq ≤ db.nextHrcSeq) :
      Moves p s a { s with db }
  | read {limit : QueryNumber} {expected : Option String} {answer : HrcEventPage}
      (h : handleEventsPage s.db (.integer s.cursor) limit expected = .ok answer) (hcovers : Covers s.db s.cursor answer) :
      Moves p s (.page limit expected)
        { s with cursor := answer.scannedThrough, seen := s.seen ++ answer.rows.filter p }

theorem step_moves (a : Action) (s : Walk) : Moves p s a (step p a s) := by
  cases a with
  | write w =>
    cases h : w.run s.db with
    | error e =>
      simp only [step, h]
      exact .wrote id (Nat.le_refl _)
    | ok db =>
      simp only [step, h]
      exact .wrote (allocated_run h) (nextHrcSeq_le h)
  | delete q => exact .wrote (fun hs r hr => hs r (List.mem_of_mem_filter hr)) (Nat.le_refl _)
  | page limit expected =>
    cases h : handleEventsPage s.db (.integer s.cursor) limit expected with
    | error e =>
      simp only [step, h]
      exact @Moves.wrote _ p s _ s.db id (Nat.le_refl _)
    | ok answer =>
      simp only [step, h]
      exact .read h (handleEventsPage_covers h)

theorem step_reached (a : Action) (hs : Reached s) : Reached (step p a s) := by
  have hm := step_moves (p := p) a s
  generalize step p a s = t at hm
  cases hm with
  | wrote hall hn =>
    exact ⟨hall hs.allocated, hs.seen_le, hs.sorted, hs.behind.imp_right fun h => by
      unfold allocatedHrcSeq at *
      dsimp only
      omega⟩
  | @read limit expected answer h hc =>
    have hh := hc.head ▸ hc.le_head
    refine ⟨hs.allocated, fun r hr => ?_, ?_, .inr hh⟩
    · rcases List.mem_append.mp hr with hr | hr
      · rcases hs.behind with hnil | hbeh
        · rw [hnil] at hr
          cases hr
        · exact Nat.le_trans (hs.seen_le r hr) (hc.forward (hc.head ▸ hbeh)).1
      · exact ((hc.mem r).mp (List.mem_of_mem_filter hr)).2.2
    · refine List.pairwise_append.mpr ⟨hs.sorted, hc.sorted.filter _, fun a ha b hb => ?_⟩
      have hle := hs.seen_le a ha
      have hlt := ((hc.mem b).mp (List.mem_of_mem_filter hb)).2.1
      omega

theorem run_reached (actions : List Action) (hs : Reached s) : Reached (run (step p) actions s) :=
  run_invariant (fun _ a h _ => step_reached a h) hs meets_true

theorem run_ahead (actions : List Action) (hs : s.cursor ≤ allocatedHrcSeq s.db) :
    s.cursor ≤ (run (step p) actions s).cursor ∧ ∀ r, r.hrcSeq ≤ s.cursor →
      (r ∈ (run (step p) actions s).seen ↔ r ∈ s.seen) := by
  induction actions generalizing s with
  | nil => exact ⟨Nat.le_refl _, fun _ _ => Iff.rfl⟩
  | cons a actions ih =>
    have hm := step_moves (p := p) a s
    rw [run]
    generalize step p a s = t at hm
    cases hm with
    | @wrote _ db hall hn =>
      have hh : s.cursor ≤ allocatedHrcSeq db := by
        unfold allocatedHrcSeq at *
        omega
      exact ih (s := { s with db }) hh
    | @read limit expected answer h hc =>
      have hf := (hc.forward (hc.head ▸ hs)).1
      obtain ⟨hle, hsn⟩ := ih (s := { s with cursor := answer.scannedThrough, seen := s.seen ++ _ })
        (hc.head ▸ hc.le_head)
      refine ⟨Nat.le_trans hf hle, fun r hr => (hsn r (Nat.le_trans hr hf)).trans ?_⟩
      rw [List.mem_append]
      refine ⟨fun h => h.resolve_right fun h => ?_, .inl⟩
      have hlt := ((hc.mem r).mp (List.mem_of_mem_filter h)).2.1
      omega

theorem run_crosses {actions : List Action} {q : Nat} (hlt : s.cursor < q) (hle : q ≤ (run (step p) actions s).cursor) :
    ∃ before limit expected after, actions = before ++ .page limit expected :: after ∧
      (run (step p) before s).cursor < q ∧ q ≤ (run (step p) (before ++ [.page limit expected]) s).cursor := by
  induction actions generalizing s with
  | nil => exact absurd hle (Nat.not_le_of_lt hlt)
  | cons a actions ih =>
    by_cases hc : q ≤ (step p a s).cursor
    · cases a with
      | page limit expected => exact ⟨[], limit, expected, actions, rfl, hlt, hc⟩
      | write w => exact absurd hc (Nat.not_le_of_lt hlt)
      | delete q => exact absurd hc (Nat.not_le_of_lt hlt)
    · obtain ⟨before, limit, expected, after, rfl, hbef, haft⟩ := ih (Nat.lt_of_not_le hc) hle
      exact ⟨a :: before, limit, expected, after, rfl, hbef, haft⟩

theorem seen_crossing {limit : QueryNumber} {expected : Option String} (hs : Reached s) (after : List Action)
    {r : HrcLifecycleEvent} (hlt : s.cursor < r.hrcSeq) (hle : r.hrcSeq ≤ (step p (.page limit expected) s).cursor) :
    r ∈ (run (step p) (.page limit expected :: after) s).seen ↔ r ∈ s.db.hrcEvents.rows ∧ p r = true := by
  have hm := step_moves (p := p) (.page limit expected) s
  rw [run]
  generalize step p (.page limit expected) s = t at hm hle
  cases hm with
  | wrote => exact absurd hle (Nat.not_le_of_lt hlt)
  | @read _ _ answer h hc =>
    have hah := (run_ahead (p := p) after
      (s := { s with cursor := answer.scannedThrough, seen := s.seen ++ answer.rows.filter p })
      (hc.head ▸ hc.le_head)).2 r hle
    refine hah.trans ?_
    rw [List.mem_append, List.mem_filter, hc.mem r]
    constructor
    · rintro (hr | ⟨⟨hr, -⟩, hf⟩)
      · exact absurd (hs.seen_le r hr) (Nat.not_le_of_lt hlt)
      · exact ⟨hr, hf⟩
    · rintro ⟨hr, hf⟩
      exact .inr ⟨⟨hr, hlt, hle⟩, hf⟩

/-- Following `scannedThrough` is lossless: what the walk keeps ascends; every sequence it moves past is covered
by one page, which keeps the matching row that is there when it is read, and nothing else is ever kept there;
and an accepted page below the head moves forward. -/
theorem walk_lossless (filter : HrcLifecycleEvent → Bool) {db : Db} (hdb : Allocated db) (cursor : Nat)
    (actions : List Action) :
    let walk := fun actions => run (step filter) actions { db, cursor }
    (walk actions).seen.Pairwise (fun a b => a.hrcSeq < b.hrcSeq) ∧
    (∀ q, cursor < q → q ≤ (walk actions).cursor → ∃ before limit expected after,
      actions = before ++ .page limit expected :: after ∧
        (walk before).cursor < q ∧ q ≤ (walk (before ++ [.page limit expected])).cursor ∧
        ∀ r, r.hrcSeq = q →
          (r ∈ (walk actions).seen ↔ r ∈ (walk before).db.hrcEvents.rows ∧ filter r = true)) ∧
    ∀ limit expected answer,
      handleEventsPage (walk actions).db (.integer (walk actions).cursor) limit expected = .ok answer →
        (walk actions).cursor < answer.head → (walk actions).cursor < answer.scannedThrough := by
  have hs : Reached { db, cursor } := ⟨hdb, fun r hr => (by cases hr), List.Pairwise.nil, .inl rfl⟩
  refine ⟨(run_reached actions hs).sorted, ?_, fun limit expected answer h hlt => ?_⟩
  · intro q hlt hle
    obtain ⟨before, limit, expected, after, rfl, hbef, haft⟩ := run_crosses hlt hle
    refine ⟨before, limit, expected, after, rfl, hbef, haft, fun r hr => ?_⟩
    subst hr
    have hcrs := seen_crossing (run_reached before hs) after hbef (by rwa [run_append] at haft)
    rwa [← run_append] at hcrs
  · have hc := handleEventsPage_covers h
    exact (hc.forward (Nat.le_of_lt hlt)).2 hlt

end Walks

def sampleEvent : Write :=
  .appendHrcEvent .turnStarted .turn { ts := "", hostSessionId := "host", scopeRef := "scope", laneRef := "main", generation := 0 }

def sampleActions : List Action :=
  [.write sampleEvent, .write sampleEvent, .write sampleEvent, .page (.integer 2) none, .delete fun r => r.hrcSeq == 3,
    .write sampleEvent, .page (.integer 2) none, .page (.integer 2) none]

omit [Host] in
theorem walk_lossless_sample :
    let _ := steadyHost
    let walk := run (step fun _ => true) sampleActions { db := {}, cursor := 0 }
    walk.seen.map (·.hrcSeq) = [1, 2, 4] ∧ walk.cursor = 4 ∧ walk.seen.Pairwise fun a b => a.hrcSeq < b.hrcSeq := by
  let _ := steadyHost
  refine ⟨by decide +kernel, by decide +kernel, ?_⟩
  exact (walk_lossless (fun _ => true) (show Allocated {} by decide) 0 sampleActions).1

end HrcRuntime.EventPage
