import HrcRuntime.ToolResultWalks

namespace HrcRuntime.ToolResultRewrites

open Mapper

def Before (ledger : Ledger) (more : Bool) (passed : List Key) (key : Key) : Prop :=
  ledger.rank < key.rank ∨ key.ledger = ledger ∧ more = true ∧ ∀ k ∈ passed, k.order key = .lt

inductive Pending (visited : List Key) (phase : Phase) (key : Key) : Prop
  | visited (h : key ∈ visited)
  | inHand (h : key ∈ phase.inHand.map (·.key))
  | before {ledger} (hledger : phase.ledger = some ledger)
      (h : Before ledger phase.more (visited ++ phase.inHand.map (·.key)) key)
  | stopped {reason} (h : phase = .stopped reason) (hreason : reason ≠ .complete)

section Orders

variable {a b : Key}

theorem order_of_rank (h : a.rank < b.rank) : a.order b = .lt := by
  have hr : compare a.rank b.rank = .lt := Nat.compare_eq_lt.mpr h
  unfold Key.order compareLex
  dsimp only
  rw [hr]
  rfl

theorem ledger_of_rank {ledger : Ledger} (h : ledger.rank < a.rank) : ledger = .broker ∧ a.ledger = .lifecycle := by
  cases ledger <;> cases a <;> simp_all [Ledger.rank, Key.rank, Key.ledger]

end Orders

variable [Host]

section Pendings

variable {db : Database} {operation : Operation} {visited : List Key} {ledger : Ledger} {rest : List Row} {full : Bool}
  {key : Key} {s : State} {c : Call} {row : Row} {busy : Bool}

theorem pending_next (hh : Hand db operation visited ledger rest)
    (h : key ∈ visited ∨ key ∈ rest.map (·.key) ∨ Before ledger full (visited ++ rest.map (·.key)) key) :
    Pending visited (.next ledger rest full) key := by
  rcases h with h | h | h
  · exact .visited h
  · cases rest with
    | nil => cases h
    | cons row rest => exact .inHand h
  · cases rest with
    | cons row rest => exact .before (congrArg some (hh.ledgers row List.mem_cons_self)) h
    | nil =>
      cases full with
      | true => exact .before rfl h
      | false =>
        rcases h with h | ⟨-, hm, -⟩
        · obtain ⟨rfl, hkey⟩ := ledger_of_rank h
          have hl : (Phase.next .broker [] false).ledger = some .lifecycle := rfl
          refine .before hl (.inr ⟨hkey, rfl, fun k hk => order_of_rank ?_⟩)
          have hk : k ∈ visited := by simpa [Phase.next, Phase.ledgerDone, Phase.inHand] using hk
          exact Nat.lt_of_le_of_lt (hh.ranks k hk) h
        · cases hm

theorem mem_candidates_of_before (h : Walk s.db c) (hr : row ∈ s.db.events.rows) (hc : c.operation.isCandidate row = true)
    (hn : row.key.numbered = true) (hled : row.key.ledger = ledger) (hp : ∀ k ∈ c.visited, k.order row.key = .lt) :
    row ∈ s.db.candidates c.operation ledger c.last := by
  refine mem_candidates.mpr ⟨hr, hled, hc, ?_⟩
  unfold after
  rw [hn, h.last, Bool.true_and]
  cases hl : c.visited.getLast? with
  | none => rfl
  | some last => simp [hp last (List.mem_of_getLast? hl)]

theorem pending_select (h : Walk s.db c) (hph : c.phase = .selecting ledger) (hrow : row ∈ s.db.events.rows)
    (hc : c.operation.isCandidate row = true) (hnum : row.key.numbered = true)
    (hpn : Pending c.visited c.phase row.key) : Pending c.visited (s.select c ledger) row.key := by
  have hh := h.hand ledger (by rw [hph]; rfl)
  rw [hph] at hh hpn
  unfold State.select
  split
  · exact .stopped rfl (by decide)
  · cases hpn with
    | visited h => exact .visited h
    | inHand h => cases h
    | stopped h => cases h
    | before hl hbef =>
      cases hl
      have hm : row.key.ledger = ledger → (∀ k ∈ c.visited ++ [], k.order row.key = .lt) →
          row ∈ s.db.candidates c.operation ledger c.last := fun hl hp =>
        mem_candidates_of_before h hrow hc hnum hl fun k hk => hp k (List.mem_append_left _ hk)
      cases hrw : (s.db.candidates c.operation ledger c.last).take c.batchSize.val with
      | nil =>
        have hn : Before ledger false (c.visited ++ ([] : List Row).map (·.key)) row.key → Pending c.visited (.next ledger [] false) row.key :=
          fun h => pending_next hh (.inr (.inr h))
        refine hn (hbef.imp id fun hs => ?_)
        obtain ⟨hl, -, hp⟩ := hs
        rcases List.take_eq_nil_iff.mp hrw with hz | hnil
        · exact absurd hz (Nat.pos_iff_ne_zero.mp c.batchSize.property)
        · have hm := hm hl hp
          rw [hnil] at hm
          cases hm
      | cons first others =>
        have hf : first.key.ledger = ledger := by
          have hm : first ∈ s.db.candidates c.operation ledger c.last :=
            List.mem_of_mem_take (by rw [hrw]; exact List.mem_cons_self)
          exact (mem_candidates.mp hm).2.1
        dsimp only
        rcases hbef with hr | ⟨hl, -, hp⟩
        · exact .before (congrArg some hf) (.inl hr)
        · have hm := hm hl hp
          have hsp := List.take_append_drop c.batchSize.val (s.db.candidates c.operation ledger c.last)
          rw [hrw] at hsp
          rw [← hsp] at hm
          rcases List.mem_append.mp hm with htk | hlf
          · exact .inHand (List.mem_map_of_mem htk)
          · have hfl : (first :: others).length = c.batchSize.val := by
              rw [← hrw, List.length_take]
              refine Nat.min_eq_left (Nat.le_of_not_lt fun hsh => ?_)
              rw [List.drop_eq_nil_of_le (Nat.le_of_lt hsh)] at hlf
              cases hlf
            refine .before (congrArg some hf) (.inr ⟨hl, decide_eq_true hfl, fun k hk => ?_⟩)
            rcases List.mem_append.mp hk with hk | hk
            · exact hp k (List.mem_append_left _ hk)
            · have hstr : ((s.db.candidates c.operation ledger c.last).map (·.key)).Pairwise (·.order · = .lt) :=
                strict_candidates
              rw [← hsp, List.map_append] at hstr
              exact (List.pairwise_append.mp hstr).2.2 k hk row.key (List.mem_map_of_mem hlf)

theorem pending_visit {first : Row} (h : Walk s.db c) (hph : c.phase = .visiting first rest full)
    (hp : Pending c.visited c.phase key) : Pending (c.visited ++ [first.key]) (s.visit c first rest full) key := by
  have hh := h.hand first.key.ledger (by rw [hph]; rfl)
  rw [hph] at hh hp
  have hr : key ∈ c.visited ++ [first.key] ∨ key ∈ rest.map (·.key) ∨
      Before first.key.ledger full (c.visited ++ [first.key] ++ rest.map (·.key)) key := by
    cases hp with
    | visited h => exact .inl (List.mem_append_left _ h)
    | stopped h => cases h
    | inHand h =>
      rcases List.mem_cons.mp h with rfl | h
      · exact .inl (List.mem_append_right _ (List.mem_singleton_self _))
      · exact .inr (.inl h)
    | before hl hbef =>
      cases hl
      rw [List.append_assoc]
      exact .inr (.inr hbef)
  unfold State.visit
  cases c.operation.visit s.db first with
  | skip => exact pending_next hh.visit hr
  | fail => exact .stopped rfl (by decide)
  | write w =>
    dsimp only
    split
    · exact pending_next hh.visit hr
    · split
      · exact .stopped rfl (by decide)
      · rcases hr with h | h | h
        · exact .visited h
        · exact .inHand h
        · exact .before rfl h

theorem pending_advance (busy : Bool) (h : Walk s.db c) (hrow : row ∈ s.db.events.rows) (hc : c.operation.isCandidate row = true)
    (hn : row.key.numbered = true) (hp : Pending c.visited c.phase row.key) :
    Pending (s.advance c busy).2.visited (s.advance c busy).2.phase row.key := by
  unfold State.advance
  cases hph : c.phase with
  | selecting ledger => exact pending_select (c := c) h hph hrow hc hn hp
  | visiting first rest full => exact pending_visit (c := c) h hph hp
  | stopped reason => exact hp
  | writing w attempt ledger rest full =>
    have hh := h.hand ledger (by rw [hph]; rfl)
    rw [hph] at hh hp
    have hr : row.key ∈ c.visited ∨ row.key ∈ rest.map (·.key) ∨
        Before ledger full (c.visited ++ rest.map (·.key)) row.key := by
      cases hp with
      | visited h => exact .inl h
      | inHand h => exact .inr (.inl h)
      | stopped h => cases h
      | before hl hbef =>
        cases hl
        exact .inr (.inr hbef)
    dsimp only
    split
    · split
      · exact .stopped rfl (by decide)
      · rcases hr with h | h | h
        · exact .visited h
        · exact .inHand h
        · exact .before rfl h
    · cases commit s.db w with
      | none => exact .stopped rfl (by decide)
      | some db => exact pending_next hh hr

end Pendings

end HrcRuntime.ToolResultRewrites
