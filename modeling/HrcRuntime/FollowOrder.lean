import HrcRuntime.FollowFanOut

namespace HrcRuntime.FollowFanOut

open Relational Schedule
open List (mem_append_right mem_filter isEmpty_iff not_mem_nil nodup_nil append_nil pairwise_append
  mem_singleton map_append map_cons filter_append append_assoc count_pos_iff)

def todo : List Frame → List LifecycleRow
  | [] => []
  | .flush held :: below => held ++ todo below
  | .announcing event :: below => event :: todo below
  | _ :: below => todo below

def waiting (follower : Nat) : List Frame → List LifecycleRow
  | [] => []
  | .fanOut event remaining :: below => if follower ∈ remaining then event :: waiting follower below else waiting follower below
  | _ :: below => waiting follower below

def Clear (follower : Nat) (stack : List Frame) : Prop := todo stack = [] ∧ waiting follower stack = []

def cut : List Frame → List Nat
  | .tx _ :: below => cut below
  | .call _ :: .fanOut _ remaining :: _ => remaining
  | _ => []

def Announces (s : State) : Prop := s.inTransaction = false ∧ s.held ≠ []

/-- What code may do without a follower losing rows or their order: where a delivery has rows left, or the follower, it
appends and notifies nothing the hub would announce; it notifies a row the fan-out remembers, or a committed one that
the hub still holds; it does not throw before the follower's turn; and the follower stays. -/
def OrderlyCode (follower : Nat) (s : State) : Action → Prop
  | .append _ => s.inTransaction = true ∨ Clear follower s.stack
  | .notifyEvent event =>
    (event.hrcSeq ∈ s.delivered ∨ s.inTransaction = false ∧ event ∈ s.held) ∧
      (Announces s → Clear follower s.stack)
  | .throws => follower ∉ cut s.stack
  | .unsubscribe subscriber => subscriber ≠ follower
  | _ => True

/-- Between two rows of a flush no other row has come to be announced, and a row that is notified after it was
announced is still remembered. -/
def OrderlyLoop (s : State) : Action → List Frame → Prop
  | .proceed, .flush (_ :: _) :: _ => ¬ Announces s
  | .proceed, .notifying event :: _ => event.hrcSeq ∈ s.announced.map (·.hrcSeq) → event.hrcSeq ∈ s.delivered
  | _, _ => True

def Orderly (follower : Nat) (s : State) (a : Action) : Prop :=
  if runsCode s = true then OrderlyCode follower s a else OrderlyLoop s a s.stack

def State.receivedBy (s : State) (follower : Nat) : List LifecycleRow :=
  (s.received.filter (·.1 == follower)).map (·.2)

structure Ledger.Sound (ledger : Ledger) : Prop where
  ascending : ledger.rows.Pairwise fun a b => a.hrcSeq < b.hrcSeq
  below : ∀ row ∈ ledger.rows, row.hrcSeq < ledger.nextHrcSeq

def Chain : Ledger → List Frame → Prop
  | ledger, [] => ledger.Sound
  | ledger, .tx saved :: below => ledger.Sound ∧ saved.rows <+: ledger.rows ∧ Chain saved below
  | ledger, _ :: below => Chain ledger below

variable {stack : List Frame} {ledger : Ledger}

theorem Chain.sound (h : Chain ledger stack) : ledger.Sound := by
  induction stack with
  | nil => exact h
  | cons frame below ih =>
    cases frame with
    | tx saved => exact h.1
    | flush _ | announcing _ | notifying _ | fanOut _ _ | call _ => exact ih h

theorem Chain.extend {ledger' : Ledger} (h : Chain ledger stack) (hs : ledger'.Sound)
    (hr : ledger.rows <+: ledger'.rows) : Chain ledger' stack := by
  induction stack with
  | nil => exact hs
  | cons frame below ih =>
    cases frame with
    | tx saved => exact ⟨hs, h.2.1.trans hr, h.2.2⟩
    | flush _ | announcing _ | notifying _ | fanOut _ _ | call _ => exact ih h

theorem Chain.outermost_prefix (h : Chain ledger stack) :
    outermost ledger stack <+: ledger.rows := by
  induction stack generalizing ledger with
  | nil => exact List.prefix_refl _
  | cons frame below ih =>
    cases frame with
    | tx saved => exact (ih h.2.2).trans h.2.1
    | flush _ | announcing _ | notifying _ | fanOut _ _ | call _ => exact ih h

theorem outermost_of_free (h : stack.any Frame.isTx = false) (ledger : Ledger) :
    outermost ledger stack = ledger.rows := by
  induction stack with
  | nil => rfl
  | cons frame below ih =>
    rw [List.any_cons, Bool.or_eq_false_iff] at h
    cases frame with
    | tx saved => cases h.1
    | flush _ | announcing _ | notifying _ | fanOut _ _ | call _ => exact ih h.2

theorem mem_outermost_of_free (h : stack.any Frame.isTx = false) {row : LifecycleRow}
    (hr : row ∈ ledger.rows) : row ∈ outermost ledger stack := by
  rw [outermost_of_free h]
  exact hr

theorem outermost_of_tx (h : stack.any Frame.isTx = true) (ledger ledger' : Ledger) :
    outermost ledger stack = outermost ledger' stack := by
  induction stack with
  | nil => cases h
  | cons frame below ih =>
    cases frame with
    | tx saved => rfl
    | flush _ | announcing _ | notifying _ | fanOut _ _ | call _ => exact ih h

def Nested (follower : Nat) : List Frame → Prop
  | [] => True
  | .flush _ :: below => Clear follower below ∧ Nested follower below
  | .announcing _ :: below => waiting follower below = [] ∧ Nested follower below
  | .fanOut _ remaining :: below => remaining.count follower ≤ 1 ∧ Nested follower below
  | _ :: below => Nested follower below

def Owed (announced : List LifecycleRow) : List LifecycleRow → List Frame → Prop
  | _, [] => True
  | inside, .notifying event :: below =>
    (event.hrcSeq ∈ announced.map (·.hrcSeq) ∨ event ∈ inside) ∧ Owed announced inside below
  | inside, .flush held :: below => Owed announced (inside ++ held) below
  | inside, .announcing event :: below => Owed announced (inside ++ [event]) below
  | inside, _ :: below => Owed announced inside below

theorem Owed.mono {announced announced' inside inside' : List LifecycleRow}
    (h : Owed announced inside stack) (hann : announced ⊆ announced')
    (hi : ∀ row ∈ inside, row.hrcSeq ∈ announced'.map (·.hrcSeq) ∨ row ∈ inside') :
    Owed announced' inside' stack := by
  induction stack generalizing inside inside' with
  | nil => trivial
  | cons frame below ih =>
    cases frame with
    | notifying event =>
      refine ⟨h.1.elim (fun hm => .inl ?_) (hi event), ih h.2 hi⟩
      exact List.map_subset _ hann hm
    | flush held =>
      refine ih h fun row hr => ?_
      rcases List.mem_append.mp hr with hr | hr
      · exact (hi row hr).imp_right (List.mem_append_left _)
      · exact .inr (mem_append_right _ hr)
    | announcing event =>
      refine ih h fun row hr => ?_
      rcases List.mem_append.mp hr with hr | hr
      · exact (hi row hr).imp_right (List.mem_append_left _)
      · exact .inr (mem_append_right _ hr)
    | tx _ | fanOut _ _ | call _ => exact ih h hi

structure Inv (base : List LifecycleRow) (follower : Nat) (s : State) : Prop where
  chain : Chain s.ledger s.stack
  current : ∀ event ∈ s.pending, ∀ row ∈ s.ledger.rows, row.hrcSeq = event.hrcSeq → row = event
  distinct : (s.pending.map (·.hrcSeq)).Nodup
  uncommitted : ∀ row ∈ s.ledger.rows, row ∈ s.committed ∨ row ∈ s.pending
  account : s.committed = base ++ s.announced ++ todo s.stack ++ s.committed.filter (· ∈ s.pending)
  order : s.receivedBy follower ++ waiting follower s.stack = s.announced
  nested : Nested follower s.stack
  member : s.subscribers.count follower = 1
  remembered : ∀ seq ∈ s.delivered, seq ∈ s.announced.map (·.hrcSeq)
  scheduled : s.pending ≠ [] → s.flushScheduled = true

section

variable {base : List LifecycleRow} {follower : Nat} {s : State}

theorem Inv.ascending (h : Inv base follower s) : s.committed.Pairwise fun a b => a.hrcSeq < b.hrcSeq :=
  h.chain.sound.ascending.sublist h.chain.outermost_prefix.sublist

theorem Inv.committed_eq (hfr : s.inTransaction = false) : s.committed = s.ledger.rows :=
  outermost_of_free hfr _

theorem Inv.held_eq (h : Inv base follower s) (hfr : s.inTransaction = false) :
    s.held = s.committed.filter (· ∈ s.pending) := by
  refine eq_of_ascending ((ascending_orderBy h.distinct).filter _) (h.ascending.filter _) fun event => ?_
  simp only [Inv.committed_eq hfr, State.held, mem_filter, mem_orderBy, beq_iff_eq, decide_eq_true_eq]
  constructor
  · rintro ⟨hp, hstr⟩
    obtain ⟨row, hfn, -⟩ := Option.map_eq_some_iff.mp hstr
    have hs : row.hrcSeq = event.hrcSeq := by simpa using List.find?_some hfn
    have hm := List.mem_of_find?_eq_some hfn
    exact ⟨h.current event hp row hm hs ▸ hm, hp⟩
  · rintro ⟨hm, hp⟩
    refine ⟨hp, ?_⟩
    cases hfn : s.ledger.rows.find? fun row => row.hrcSeq == event.hrcSeq with
    | none => exact absurd (beq_self_eq_true _) (List.find?_eq_none.mp hfn event hm)
    | some row =>
      have hs : row.hrcSeq = event.hrcSeq := by simpa using List.find?_some hfn
      rw [h.current event hp row (List.mem_of_find?_eq_some hfn) hs]
      rfl

theorem Inv.flush (h : Inv base follower s) (hc : Announces s → Clear follower s.stack) :
    Inv base follower s.flush := by
  unfold State.flush
  split
  · exact h
  · rename_i hcn
    rw [Bool.or_eq_true, not_or, Bool.not_eq_true] at hcn
    obtain ⟨-, hfr⟩ := hcn
    rw [Bool.not_eq_true] at hfr
    have hnn : s.committed.filter (fun row => decide (row ∈ ([] : List LifecycleRow))) = [] := by simp
    have hh := h.held_eq hfr
    have hacc := h.account
    rw [← hh] at hacc
    split
    · rename_i hemp
      rw [isEmpty_iff.mp hemp] at hacc
      exact
        { h with
          current := fun _ he => absurd he not_mem_nil
          distinct := nodup_nil
          uncommitted := fun row hr => .inl (mem_outermost_of_free hfr hr)
          account := hacc.trans (congrArg _ hnn.symm)
          scheduled := fun hne => absurd rfl hne }
    · rename_i hs
      have hcl' := hc ⟨hfr, fun hn => hs (isEmpty_iff.mpr hn)⟩
      refine
        { h with
          current := fun _ he => absurd he not_mem_nil
          distinct := nodup_nil
          uncommitted := fun row hr => .inl (mem_outermost_of_free hfr hr)
          account := ?_
          nested := ⟨hcl', h.nested⟩
          scheduled := fun hne => absurd rfl hne }
      rw [hcl'.1, append_nil] at hacc
      refine hacc.trans ?_
      simp only [todo, hcl'.1, append_nil]
      exact (append_nil _).symm.trans (congrArg _ hnn.symm)

variable {event : LifecycleRow} {below : List Frame}

theorem mem_record {row : LifecycleRow} (s : State) :
    row ∈ (s.record event).pending ↔ row ∈ s.pending ∧ row.hrcSeq ≠ event.hrcSeq ∨ row = event := by
  simp [State.record, mem_filter]

/-- An appended row is held by the hub; the ones before it are held as they were. -/
theorem Inv.insert (h : Inv base follower s) (body : String) : Inv base follower (s.insert body) := by
  obtain ⟨hasc, hblw⟩ := h.chain.sound
  let row : LifecycleRow := ⟨s.ledger.nextHrcSeq, s.ledger.nextStreamSeq, body⟩
  have hh : ∀ old ∈ s.ledger.rows, old ∈ (s.insert body).pending ↔ old ∈ s.pending := by
    intro old hold
    have hlt := hblw old hold
    rw [State.insert, mem_record]
    constructor
    · rintro (⟨hm, -⟩ | rfl)
      · exact hm
      · exact absurd hlt (Nat.lt_irrefl _)
    · intro hm
      exact .inl ⟨hm, Nat.ne_of_lt hlt⟩
  have hr : row ∈ (s.insert body).pending := (mem_record _).mpr (.inr rfl)
  have hfil : (outermost s.ledger s.stack).filter (· ∈ (s.insert body).pending) =
      s.committed.filter (· ∈ s.pending) :=
    List.filter_congr fun old hold => decide_eq_decide.mpr (hh old (h.chain.outermost_prefix.subset hold))
  have hsnd : (s.insert body).ledger.Sound := by
    refine ⟨pairwise_append.mpr ⟨hasc, List.pairwise_singleton _ _, fun a ha b hb => ?_⟩, fun a ha => ?_⟩
    · rw [mem_singleton.mp hb]
      exact hblw a ha
    · rcases List.mem_append.mp ha with ha | ha
      · exact Nat.lt_succ_of_lt (hblw a ha)
      · rw [mem_singleton.mp ha]
        exact Nat.lt_succ_self _
  have hc : ∀ event ∈ (s.insert body).pending, ∀ old ∈ (s.insert body).ledger.rows,
      old.hrcSeq = event.hrcSeq → old = event := by
    intro event hev old hold hseq
    rcases (mem_record _).mp hev with ⟨hev, hne⟩ | rfl <;> rcases List.mem_append.mp hold with hold | hold
    · exact h.current event hev old hold hseq
    · exact absurd (hseq.symm.trans (congrArg _ (mem_singleton.mp hold))) hne
    · exact absurd (hblw old hold) (hseq ▸ Nat.lt_irrefl _)
    · exact mem_singleton.mp hold
  have hd : ((s.insert body).pending.map (·.hrcSeq)).Nodup := by
    simp only [State.insert, State.record, map_append, map_cons, List.map_nil]
    refine List.nodup_append.mpr ⟨h.distinct.sublist (List.filter_sublist.map _), List.nodup_singleton _, ?_⟩
    intro a ha b hb
    obtain ⟨event, hev, rfl⟩ := List.mem_map.mp ha
    rw [mem_singleton.mp hb]
    simpa using (mem_filter.mp hev).2
  have hch : Chain (s.insert body).ledger (s.insert body).stack := h.chain.extend hsnd (List.prefix_append _ _)
  cases htx : s.inTransaction with
  | true =>
    have hs : (s.insert body).committed = s.committed := outermost_of_tx htx _ _
    refine
      { h with
        chain := hch, current := hc, distinct := hd
        uncommitted := fun old hold => ?_, account := ?_, scheduled := fun _ => rfl }
    · rcases List.mem_append.mp hold with hold | hold
      · exact (h.uncommitted old hold).imp (hs ▸ ·) (hh old hold).mpr
      · exact .inr (mem_singleton.mp hold ▸ hr)
    · rw [hs]
      exact h.account.trans (congrArg _ hfil.symm)
  | false =>
    have hgr : (s.insert body).committed = s.committed ++ [row] :=
      (outermost_of_free htx _).trans (congrArg (· ++ [row]) (outermost_of_free htx _).symm)
    refine
      { h with
        chain := hch, current := hc, distinct := hd
        uncommitted := fun old hold => .inl (mem_outermost_of_free htx hold), account := ?_
        scheduled := fun _ => rfl }
    rw [hgr, filter_append, show s.committed = outermost s.ledger s.stack from rfl, hfil,
      List.filter_cons_of_pos (by simpa using hr), List.filter_nil, ← append_assoc]
    exact congrArg (· ++ [row]) h.account

theorem Inv.begin (h : Inv base follower s) : Inv base follower { s with stack := .tx s.ledger :: s.stack } :=
  { h with chain := ⟨h.chain.sound, List.prefix_refl _, h.chain⟩ }

theorem Inv.rollback {saved : Ledger} (h : Inv base follower s)
    (hstk : s.stack = .tx saved :: below) : Inv base follower { s with ledger := saved, stack := below } := by
  obtain ⟨hch, hc, hd, hu, hacc, hord, hn, hm, hr, hs⟩ := h
  simp only [State.committed, hstk] at hch hu hacc hord hn
  exact ⟨hch.2.2, fun event he row hrow => hc event he row (hch.2.1.subset hrow), hd,
    fun row hrow => hu row (hch.2.1.subset hrow), hacc, hord, hn, hm, hr,
    hs⟩

theorem Inv.commit {saved : Ledger} (h : Inv base follower s)
    (hstk : s.stack = .tx saved :: below) : Inv base follower { s with stack := below } := by
  obtain ⟨hch, hc, hd, hu, hacc, hord, hn, hmm, hr, hsc⟩ := h
  simp only [State.committed, hstk] at hch hu hacc hord hn
  cases htx : below.any Frame.isTx with
  | true =>
    rw [show outermost s.ledger (.tx saved :: below) = outermost s.ledger below from
      outermost_of_tx htx saved s.ledger] at hu hacc
    exact ⟨hch.2.2.extend hch.1 hch.2.1, hc, hd, hu, hacc, hord, hn,
      hmm, hr, hsc⟩
  | false =>
    have hs : outermost s.ledger (.tx saved :: below) = saved.rows := outermost_of_free htx saved
    have hnow : outermost s.ledger below = s.ledger.rows := outermost_of_free htx s.ledger
    rw [hs] at hu hacc
    refine ⟨hch.2.2.extend hch.1 hch.2.1, hc, hd, fun row hrow => .inl (mem_outermost_of_free htx hrow), ?_,
      hord, hn, hmm, hr, hsc⟩
    -- what the transaction added is committed now, and all of it is held
    obtain ⟨added, had⟩ := hch.2.1
    have hh : added.filter (· ∈ s.pending) = added := by
      refine List.filter_eq_self.mpr fun row hrow => decide_eq_true ?_
      refine (hu row (had ▸ mem_append_right _ hrow)).resolve_left fun hm => ?_
      have hlt := (pairwise_append.mp (had ▸ hch.1.ascending)).2.2 row hm row hrow
      exact Nat.lt_irrefl _ hlt
    show outermost s.ledger below = base ++ s.announced ++ todo below ++ (outermost s.ledger below).filter (· ∈ s.pending)
    rw [hnow, ← had, filter_append, hh, ← append_assoc]
    exact congrArg (· ++ added) hacc

theorem Inv.unwind (stack : List Frame) (h : Inv base follower { s with stack }) (hcut : follower ∉ cut stack) :
    Inv base follower { s with ledger := (State.unwind s.ledger stack).1, stack := (State.unwind s.ledger stack).2 } := by
  induction stack generalizing s with
  | nil => exact h
  | cons frame below ih =>
    cases frame with
    | tx saved => exact ih (s := { s with ledger := saved }) (h.rollback rfl) hcut
    | call subscriber =>
      cases below with
      | nil => exact h
      | cons loop below =>
        cases loop with
        | fanOut event remaining =>
          have hw : waiting follower (.call subscriber :: .fanOut event remaining :: below) =
              waiting follower below := if_neg hcut
          obtain ⟨hch, hc, hd, hu, hacc, hord, hn, hm, hr,
            hs⟩ := h
          rw [hw] at hord
          exact ⟨hch, hc, hd, hu, hacc, hord, hn.2, hm, hr,
            hs⟩
        | tx _ | flush _ | announcing _ | notifying _ | call _ => exact h
    | flush _ | announcing _ | notifying _ | fanOut _ _ => exact h

theorem Inv.pop {frame : Frame} (h : Inv base follower s) (hstk : s.stack = frame :: below)
    (hch : Chain s.ledger (frame :: below) = Chain s.ledger below)
    (hout : outermost s.ledger (frame :: below) = outermost s.ledger below)
    (ht : todo (frame :: below) = todo below) (hw : waiting follower (frame :: below) = waiting follower below)
    (hn : Nested follower (frame :: below) → Nested follower below) :
    Inv base follower { s with stack := below } := by
  obtain ⟨hch', hc, hd, hu, hacc, hord, hn', hm, hr, hs⟩ := h
  simp only [State.committed, hstk, hout, ht, hw, hch] at hch' hu hacc hord hn'
  exact ⟨hch', hc, hd, hu, hacc, hord, hn hn', hm, hr, hs⟩

theorem todo_mapRemaining (f : List Nat → List Nat) (stack : List Frame) :
    todo (stack.map (Frame.mapRemaining f)) = todo stack := by
  induction stack with
  | nil => rfl
  | cons frame below ih => cases frame <;> simp only [map_cons, Frame.mapRemaining, todo, ih]

theorem outermost_mapRemaining (f : List Nat → List Nat) (ledger : Ledger) (stack : List Frame) :
    outermost ledger (stack.map (Frame.mapRemaining f)) = outermost ledger stack := by
  induction stack generalizing ledger with
  | nil => rfl
  | cons frame below ih => cases frame <;> simp only [map_cons, Frame.mapRemaining, outermost, ih]

theorem Chain.mapRemaining (f : List Nat → List Nat) {ledger : Ledger} {stack : List Frame} (h : Chain ledger stack) :
    Chain ledger (stack.map (Frame.mapRemaining f)) := by
  induction stack generalizing ledger with
  | nil => exact h
  | cons frame below ih =>
    cases frame with
    | tx saved => exact ⟨h.1, h.2.1, ih h.2.2⟩
    | flush _ | announcing _ | notifying _ | fanOut _ _ | call _ => exact ih h

section

variable {f : List Nat → List Nat} (hf : ∀ remaining, (f remaining).count follower = remaining.count follower)

include hf

theorem waiting_mapRemaining (stack : List Frame) :
    waiting follower (stack.map (Frame.mapRemaining f)) = waiting follower stack := by
  induction stack with
  | nil => rfl
  | cons frame below ih =>
    cases frame with
    | fanOut event remaining =>
      have hm : follower ∈ f remaining ↔ follower ∈ remaining := by
        rw [← count_pos_iff, hf, count_pos_iff]
      simp only [map_cons, Frame.mapRemaining, waiting, ih, hm]
    | tx _ | flush _ | announcing _ | notifying _ | call _ => exact ih

theorem Nested.mapRemaining {stack : List Frame} (h : Nested follower stack) :
    Nested follower (stack.map (Frame.mapRemaining f)) := by
  induction stack with
  | nil => trivial
  | cons frame below ih =>
    cases frame with
    | fanOut event remaining => exact ⟨(hf remaining).symm ▸ h.1, ih h.2⟩
    | flush held =>
      exact ⟨⟨(todo_mapRemaining f below).trans h.1.1, (waiting_mapRemaining hf below).trans h.1.2⟩, ih h.2⟩
    | announcing event => exact ⟨(waiting_mapRemaining hf below).trans h.1, ih h.2⟩
    | tx _ | notifying _ | call _ => exact ih h

theorem Inv.mapRemaining (h : Inv base follower s) {subscribers : List Nat} (hm : subscribers.count follower = 1) :
    Inv base follower { s with subscribers, stack := s.stack.map (Frame.mapRemaining f) } := by
  obtain ⟨hch, hcr, hd, hu, hacc, hord, hn, -, hr, hs⟩ := h
  have hc : outermost s.ledger (s.stack.map (Frame.mapRemaining f)) = s.committed := outermost_mapRemaining f _ _
  refine ⟨hch.mapRemaining f, hcr, hd, fun row hrow => ?_, ?_, ?_, hn.mapRemaining hf, hm,
    hr, hs⟩
  · rw [show State.committed { s with subscribers, stack := s.stack.map (Frame.mapRemaining f) } = s.committed
      from hc]
    exact hu row hrow
  · rw [show State.committed { s with subscribers, stack := s.stack.map (Frame.mapRemaining f) } = s.committed
      from hc, todo_mapRemaining]
    exact hacc
  · rw [waiting_mapRemaining hf]
    exact hord

end

theorem Inv.unremembered (h : Inv base follower s)
    (hstk : s.stack = .announcing event :: below) : event.hrcSeq ∉ s.delivered := by
  intro hm
  obtain ⟨row, hr, hs⟩ := List.mem_map.mp (h.remembered _ hm)
  have hasc := h.ascending
  have hacc := h.account
  rw [hstk, show todo (.announcing event :: below) = event :: todo below from rfl] at hacc
  rw [hacc] at hasc
  have hbef := (pairwise_append.mp (pairwise_append.mp hasc).1).2.2
  have hlt := hbef row (mem_append_right _ hr) event List.mem_cons_self
  rw [hs] at hlt
  exact Nat.lt_irrefl _ hlt

variable {announced : List LifecycleRow} {memory : Nat}

theorem Inv.claim (h : Inv base follower s)
    (hstk : s.stack = .announcing event :: below) : Inv base follower (s.claim memory event below) := by
  obtain ⟨hch, hc, hd, hu, hacc, hord, hn, hm, hr, hs⟩ := h
  simp only [State.committed, hstk] at hch hu hacc hord hn
  obtain ⟨hw, hn⟩ := hn
  have hfl : follower ∈ s.subscribers := count_pos_iff.mp (hm ▸ Nat.one_pos)
  refine ⟨hch, hc, hd, hu, ?_, ?_, ⟨Nat.le_of_eq hm, hn⟩, hm, ?_, hs⟩
  · simp only [todo] at hacc
    simp only [State.claim, State.committed, todo, append_assoc, List.singleton_append] at hacc ⊢
    exact hacc
  · simp only [waiting, hw, append_nil] at hord
    simp only [State.claim, waiting, if_pos hfl, hw]
    exact congrArg (· ++ [event]) hord
  · intro seq hseq
    simp only [State.claim, map_append] at hseq ⊢
    rcases List.mem_append.mp (mem_of_mem_keepLast hseq) with hseq | hseq
    · exact List.mem_append_left _ (hr seq hseq)
    · exact mem_append_right _ hseq

theorem receivedBy_append (follower : Nat) {s t : State} {subscriber : Nat}
    (h : t.received = s.received ++ [(subscriber, event)]) :
    t.receivedBy follower = s.receivedBy follower ++ if subscriber = follower then [event] else [] := by
  simp only [State.receivedBy, h, filter_append, map_append, List.filter_cons, List.filter_nil, beq_iff_eq]
  split <;> rfl

theorem Inv.call {subscriber : Nat} {remaining : List Nat}
    (h : Inv base follower s) (hstk : s.stack = .fanOut event (subscriber :: remaining) :: below) :
    Inv base follower
      { s with
        stack := .call subscriber :: .fanOut event remaining :: below
        received := s.received ++ [(subscriber, event)] } := by
  obtain ⟨hch, hcr, hd, hu, hacc, hord, hn, hmm, hr, hs⟩ := h
  simp only [State.committed, hstk] at hch hu hacc hord hn
  obtain ⟨hc, hn⟩ := hn
  refine ⟨hch, hcr, hd, hu, hacc, ?_,
    ⟨Nat.le_trans (List.count_le_count_cons) hc, hn⟩, hmm, hr, hs⟩
  refine Eq.trans ?_ hord
  have happ := receivedBy_append follower (s := s) (t := { s with
    stack := .call subscriber :: .fanOut event remaining :: below
    received := s.received ++ [(subscriber, event)] }) rfl
  rw [happ, append_assoc]
  refine congrArg _ ?_
  by_cases heq : subscriber = follower
  · subst heq
    have hout : subscriber ∉ remaining := fun hm => by
      have := count_pos_iff.mpr hm
      rw [List.count_cons_self] at hc
      omega
    simp [waiting, hout]
  · have hm : follower ∈ subscriber :: remaining ↔ follower ∈ remaining := by
      simp [Ne.symm heq]
    simp only [waiting, hm, if_neg heq, List.nil_append]

theorem State.flush_cases (s : State) :
    (s.flush.stack = s.stack ∧ ¬ Announces s ∨ s.flush.stack = .flush s.held :: s.stack ∧ Announces s) ∧
      s.flush.announced = s.announced := by
  unfold State.flush Announces
  split
  · rename_i hc
    refine ⟨.inl ⟨rfl, fun ⟨hfr, hh⟩ => ?_⟩, rfl⟩
    rcases Bool.or_eq_true_iff.mp hc with he | htx
    · refine hh ?_
      rw [State.held, isEmpty_iff.mp he]
      rfl
    · rw [hfr] at htx
      cases htx
  · rename_i hc
    rw [Bool.or_eq_true, not_or, Bool.not_eq_true, Bool.not_eq_true] at hc
    split
    · rename_i he
      exact ⟨.inl ⟨rfl, fun ⟨_, hh⟩ => hh (isEmpty_iff.mp he)⟩, rfl⟩
    · rename_i hs
      exact ⟨.inr ⟨rfl, hc.2, fun hn => hs (isEmpty_iff.mpr hn)⟩, rfl⟩

theorem flush_unscheduled (s : State) :
    State.flush { s with flushScheduled := false } = { s.flush with flushScheduled := false } := by
  show (if (s.pending.isEmpty || s.inTransaction) = true then _ else if s.held.isEmpty = true then _ else _) = _
  unfold State.flush
  split
  · rfl
  · split <;> rfl

theorem flush_idle (h : s.stack = []) : s.flush.pending = [] := by
  have hfr : s.inTransaction = false := by
    rw [State.inTransaction, h]
    rfl
  unfold State.flush
  rw [hfr, Bool.or_false]
  split
  · rename_i he
    exact isEmpty_iff.mp he
  · split <;> rfl

theorem Owed.flush (h : Owed s.announced [] s.stack) : Owed s.flush.announced [] s.flush.stack := by
  obtain ⟨hs, hann⟩ := s.flush_cases
  rw [hann]
  rcases hs with ⟨hs, -⟩ | ⟨hs, -⟩
  · rw [hs]
    exact h
  · rw [hs]
    exact h.mono (List.Subset.refl _) fun _ hr => absurd hr not_mem_nil

theorem Owed.unwind {stack : List Frame} (h : Owed announced [] stack) (ledger : Ledger) :
    Owed announced [] (State.unwind ledger stack).2 := by
  induction stack generalizing ledger with
  | nil => trivial
  | cons frame below ih =>
    cases frame with
    | tx saved => exact ih h saved
    | call subscriber =>
      cases below with
      | nil => trivial
      | cons loop below => cases loop <;> exact h
    | flush _ | announcing _ | notifying _ | fanOut _ _ => exact h

theorem Owed.mapRemaining (f : List Nat → List Nat) {inside : List LifecycleRow} {stack : List Frame}
    (h : Owed announced inside stack) : Owed announced inside (stack.map (Frame.mapRemaining f)) := by
  induction stack generalizing inside with
  | nil => trivial
  | cons frame below ih =>
    cases frame with
    | notifying event => exact ⟨h.1, ih h.2⟩
    | tx _ | flush _ | announcing _ | fanOut _ _ | call _ => exact ih h

structure Follows (base : List LifecycleRow) (follower : Nat) (s : State) : Prop where
  inv : Inv base follower s
  owed : Owed s.announced [] s.stack

theorem Follows.append (h : Follows base follower s) (body : String)
    (hc : s.inTransaction = true ∨ Clear follower s.stack) : Follows base follower (s.insert body).flush := by
  refine ⟨(h.inv.insert body).flush fun hann => ?_, Owed.flush (s := s.insert body) h.owed⟩
  refine hc.resolve_left fun htx => ?_
  rw [show s.inTransaction = false from hann.1] at htx
  cases htx

theorem Follows.notify (h : Follows base follower s)
    (hkn : event.hrcSeq ∈ s.delivered ∨ s.inTransaction = false ∧ event ∈ s.held)
    (hc : Announces s → Clear follower s.stack) :
    Follows base follower (State.flush { s with stack := .notifying event :: s.stack }) := by
  let t : State := { s with stack := .notifying event :: s.stack }
  have hi : Inv base follower t := { h.inv with }
  refine ⟨hi.flush hc, ?_⟩
  obtain ⟨hs, hann⟩ := t.flush_cases
  rw [hann]
  rcases hkn with hd | ⟨hfr, hh⟩
  · have how : Owed t.announced [] t.stack := ⟨.inl (h.inv.remembered _ hd), h.owed⟩
    have := how.flush
    rwa [hann] at this
  · rcases hs with ⟨-, hqt⟩ | ⟨hs, -⟩
    · exact absurd ⟨hfr, List.ne_nil_of_mem hh⟩ hqt
    · rw [hs]
      exact ⟨.inr hh, h.owed.mono (List.Subset.refl _) fun _ hr => absurd hr not_mem_nil⟩

theorem Follows.perform (h : Follows base follower s) {a : Action} (hc : runsCode s = true)
    (hord : Orderly follower s a) : Follows base follower (perform s a) := by
  unfold Orderly at hord
  rw [if_pos hc] at hord
  obtain ⟨hinv, how⟩ := h
  cases a with
  | append body => exact Follows.append ⟨hinv, how⟩ body hord
  | appendWithinExistingTransaction body => exact ⟨hinv.insert body, how⟩
  | begin => exact ⟨hinv.begin, how⟩
  | commit =>
    simp only [FollowFanOut.perform]
    split
    · rename_i saved below hs
      rw [hs] at how
      exact ⟨hinv.commit hs, how⟩
    · exact ⟨hinv, how⟩
  | rollback =>
    simp only [FollowFanOut.perform]
    split
    · rename_i saved below hs
      rw [hs] at how
      exact ⟨hinv.rollback hs, how⟩
    · exact ⟨hinv, how⟩
  | notifyEvent event => exact Follows.notify ⟨hinv, how⟩ hord.1 hord.2
  | scheduledFlush =>
    simp only [FollowFanOut.perform]
    split
    · rename_i hi
      rw [Bool.and_eq_true, List.isEmpty_iff] at hi
      rw [flush_unscheduled]
      have hfl := hinv.flush fun _ => by
        rw [hi.2]
        exact ⟨rfl, rfl⟩
      exact ⟨{ hfl with scheduled := fun hne => absurd (flush_idle hi.2) hne }, how.flush⟩
    · exact ⟨hinv, how⟩
  | returns =>
    simp only [FollowFanOut.perform]
    split
    · rename_i subscriber below hs
      rw [hs] at how
      exact ⟨hinv.pop hs rfl rfl rfl rfl id, how⟩
    · exact ⟨hinv, how⟩
  | throws => exact ⟨hinv.unwind s.stack hord, how.unwind s.ledger⟩
  | subscribe subscriber =>
    simp only [FollowFanOut.perform]
    split
    · exact ⟨hinv, how⟩
    · rename_i hn
      have hne : subscriber ≠ follower := fun heq => hn (by
        rw [heq, List.contains_iff_mem]
        exact count_pos_iff.mp (hinv.member ▸ Nat.one_pos))
      have hf : ∀ remaining : List Nat, (remaining ++ [subscriber]).count follower = remaining.count follower :=
        fun remaining => by simp [List.count_append, hne]
      exact ⟨hinv.mapRemaining hf ((hf _).trans hinv.member), how.mapRemaining _⟩
  | unsubscribe subscriber =>
    have hf : ∀ remaining : List Nat, (remaining.erase subscriber).count follower = remaining.count follower :=
      fun remaining => List.count_erase_of_ne (Ne.symm hord)
    exact ⟨hinv.mapRemaining hf ((hf _).trans hinv.member), how.mapRemaining _⟩
  | proceed => exact ⟨hinv, how⟩

theorem Inv.announcing {held : List LifecycleRow} (h : Inv base follower s)
    (hstk : s.stack = .flush (event :: held) :: below) :
    Inv base follower { s with stack := .announcing event :: .flush held :: below } := by
  obtain ⟨hch, hcr, hd, hu, hacc, hord, hn, hm, hr, hs⟩ := h
  simp only [State.committed, hstk] at hch hu hacc hord hn
  obtain ⟨hc, hn⟩ := hn
  exact ⟨hch, hcr, hd, hu, hacc, hord, ⟨hc.2, hc, hn⟩, hm, hr,
    hs⟩

theorem Follows.proceed (h : Follows base follower s) (hcd : runsCode s = false)
    (hord : Orderly follower s .proceed) : Follows base follower (s.proceed memory) := by
  unfold Orderly at hord
  rw [if_neg (by rw [hcd]; exact Bool.false_ne_true)] at hord
  obtain ⟨hi, how⟩ := h
  obtain ⟨ledger, pending, flushScheduled, subscribers, delivered, stack, announced, received⟩ := s
  cases stack with
  | nil => cases hcd
  | cons frame below =>
    cases frame with
    | tx _ => cases hcd
    | call _ => cases hcd
    | flush held =>
      cases held with
      | nil =>
        have hn : Nested follower (.flush [] :: below) → Nested follower below := And.right
        exact ⟨hi.pop rfl rfl rfl rfl rfl hn, how⟩
      | cons event held =>
        have hannou := hi.announcing rfl
        exact ⟨hannou.flush fun han => absurd han hord,
          Owed.flush (s := ⟨ledger, pending, flushScheduled, subscribers, delivered,
            .announcing event :: .flush held :: below, announced, received⟩) how⟩
    | announcing event =>
      have hnew : delivered.contains event.hrcSeq = false := by
        have := hi.unremembered rfl
        simpa using this
      simp only [State.proceed, hnew, Bool.false_eq_true, if_false]
      have hc : Owed announced [event] below := how
      refine ⟨hi.claim rfl, hc.mono (List.subset_append_left _ _) fun row hr => .inl ?_⟩
      rw [mem_singleton.mp hr]
      exact List.mem_map_of_mem (mem_append_right _ (mem_singleton.mpr rfl))
    | notifying event =>
      have hann : event.hrcSeq ∈ announced.map (·.hrcSeq) := how.1.resolve_right not_mem_nil
      have hkn : delivered.contains event.hrcSeq = true := List.contains_iff_mem.mpr (hord hann)
      simp only [State.proceed, hkn, if_true]
      have hn : Nested follower (.notifying event :: below) → Nested follower below := id
      exact ⟨hi.pop rfl rfl rfl rfl rfl hn, how.2⟩
    | fanOut event remaining =>
      cases remaining with
      | nil =>
        have hn : Nested follower (.fanOut event [] :: below) → Nested follower below := And.right
        have hw : waiting follower (.fanOut event [] :: below) = waiting follower below :=
          if_neg not_mem_nil
        exact ⟨hi.pop rfl rfl rfl rfl hw hn, how⟩
      | cons subscriber remaining => exact ⟨hi.call rfl, how⟩

theorem Follows.step (h : Follows base follower s) {a : Action} (hord : Orderly follower s a) :
    Follows base follower (step memory a s) := by
  unfold FollowFanOut.step
  cases hc : runsCode s with
  | true => exact h.perform hc hord
  | false =>
    simp only [Bool.false_eq_true, if_false]
    split
    · rename_i hp
      subst hp
      exact h.proceed hc hord
    · exact h

theorem follows_start {ledger : Ledger} (hl : ledger.Sound) {subscribers : List Nat}
    (hfl : subscribers.count follower = 1) : Follows ledger.rows follower (start ledger subscribers) where
  inv :=
    { chain := hl
      current := fun _ h => absurd h not_mem_nil
      distinct := nodup_nil
      uncommitted := fun _ h => .inl h
      account := by simp [start, State.committed, outermost, todo]
      order := rfl
      nested := trivial
      member := hfl
      remembered := fun _ h => absurd h not_mem_nil
      scheduled := fun h => absurd rfl h }
  owed := trivial

/-- What a follower has been given: committed rows, ascending, and with no call in progress and no flush scheduled
every row committed since it follows. -/
structure Followed (base : List LifecycleRow) (follower : Nat) (s : State) : Prop where
  committed : ∀ row ∈ s.receivedBy follower, row ∈ s.committed
  ascending : (s.receivedBy follower).Pairwise fun a b => a.hrcSeq < b.hrcSeq
  complete : s.stack = [] → s.flushScheduled = false → s.committed = base ++ s.receivedBy follower

theorem Follows.followed (h : Follows base follower s) : Followed base follower s := by
  obtain ⟨hinv, -⟩ := h
  have hpr : s.receivedBy follower <+: s.announced := ⟨_, hinv.order⟩
  have hann : s.announced.Sublist s.committed := by
    rw [hinv.account, append_assoc, append_assoc]
    exact (List.sublist_append_left _ _).trans (List.sublist_append_right _ _)
  have hr := hpr.sublist.trans hann
  refine ⟨fun row hrow => hr.subset hrow, hinv.ascending.sublist hr, fun hs hi => ?_⟩
  have hp : s.pending = [] := by
    by_contra hne
    rw [hinv.scheduled hne] at hi
    cases hi
  have hacc := hinv.account
  have hord := hinv.order
  rw [hs] at hacc hord
  simp only [waiting, append_nil] at hord
  simp only [hp, todo, append_nil, not_mem_nil, decide_false, List.filter_false, ← hord] at hacc
  exact hacc

end

end HrcRuntime.FollowFanOut

namespace HrcRuntime.FollowFanOut

open Schedule

/-- A subscriber registered throughout a run whose code is orderly towards it has at every moment been given committed
rows alone, each once and in ascending order, and is given every one. -/
theorem follow_exactly_once {memory : Nat} {ledger : Ledger} (hledger : ledger.Sound) {subscribers : List Nat}
    (hnodup : subscribers.Nodup) {follower : Nat} (hfollower : follower ∈ subscribers) {actions : List Action}
    (hmeets : Meets (step memory) (Orderly follower) actions (start ledger subscribers)) {before after : List Action}
    (hsplit : actions = before ++ after) :
    Followed ledger.rows follower (run (step memory) before (start ledger subscribers)) := by
  subst hsplit
  have hs := follows_start hledger (List.count_eq_one_of_mem hnodup hfollower)
  have hr : Follows ledger.rows follower (run (step memory) before (start ledger subscribers)) :=
    run_invariant (fun _ _ h hord => h.step hord) hs (meets_append.mp hmeets).1
  exact hr.followed

instance (follower : Nat) (stack : List Frame) : Decidable (Clear follower stack) := inferInstanceAs (Decidable (_ ∧ _))

instance (s : State) : Decidable (Announces s) := inferInstanceAs (Decidable (_ ∧ _))

instance (follower : Nat) (s : State) : (a : Action) → Decidable (OrderlyCode follower s a)
  | .append _ => inferInstanceAs (Decidable (_ ∨ _))
  | .notifyEvent _ => inferInstanceAs (Decidable ((_ ∨ _ ∧ _) ∧ (_ → _)))
  | .throws => inferInstanceAs (Decidable (_ ∉ _))
  | .unsubscribe _ => inferInstanceAs (Decidable (_ ≠ _))
  | .appendWithinExistingTransaction _ | .begin | .commit | .rollback | .scheduledFlush | .returns | .subscribe _
  | .proceed => isTrue trivial

instance (s : State) : (a : Action) → (stack : List Frame) → Decidable (OrderlyLoop s a stack)
  | .proceed, .flush (_ :: _) :: _ => inferInstanceAs (Decidable (¬ _))
  | .proceed, .notifying _ :: _ => inferInstanceAs (Decidable (_ → _))
  | .proceed, [] | .proceed, .flush [] :: _ | .proceed, .tx _ :: _ | .proceed, .announcing _ :: _
  | .proceed, .fanOut _ _ :: _ | .proceed, .call _ :: _ => isTrue trivial
  | .append _, _ | .notifyEvent _, _ | .throws, _ | .unsubscribe _, _ | .appendWithinExistingTransaction _, _
  | .begin, _ | .commit, _ | .rollback, _ | .scheduledFlush, _ | .returns, _ | .subscribe _, _ => isTrue trivial

instance (follower : Nat) (s : State) (a : Action) : Decidable (Orderly follower s a) :=
  inferInstanceAs (Decidable (if runsCode s = true then OrderlyCode follower s a else OrderlyLoop s a s.stack))

namespace Sample

def ledger : Ledger := ⟨[], 1, 1⟩

def after (actions : List Action) : State := run (step deliveredSeqMemory) actions (start ledger [1, 2])

def row (body : String) : LifecycleRow := ⟨1, 1, body⟩

def delivery : List Action := [.proceed, .proceed, .proceed, .returns, .proceed, .returns, .proceed, .proceed]

def thrown : List Action := [.append "a", .proceed, .proceed, .proceed, .throws, .proceed, .scheduledFlush]

def reentered : List Action :=
  [.append "a", .proceed, .proceed, .proceed, .append "b"] ++ delivery ++ [.returns, .proceed, .returns]

def rolledBack : List Action :=
  [.begin, .appendWithinExistingTransaction "a", .notifyEvent (row "a"), .proceed, .proceed, .returns, .proceed, .returns,
    .proceed, .rollback, .append "b", .proceed, .proceed, .proceed, .scheduledFlush]

end Sample

open Sample in
theorem follow_departures :
    ¬ Followed [] 2 (after thrown) ∧ ¬ Followed [] 2 (after reentered) ∧ ¬ Followed [] 1 (after rolledBack) := by
  refine ⟨fun h => ?_, fun h => ?_, fun h => ?_⟩
  · have hcommitted : (after thrown).committed = [] ++ (after thrown).receivedBy 2 :=
      h.complete (by decide +kernel) (by decide +kernel)
    exact absurd hcommitted (by decide +kernel)
  · exact absurd h.ascending (by decide +kernel)
  · exact absurd (h.committed (row "a") (by decide +kernel)) (by decide +kernel)

open Sample in
/-- The second subscriber through a committed and a rolled-back transaction, a notification and a throw of its own. -/
theorem follow_exactly_once_sample :
    Followed ledger.rows 2 (run (step deliveredSeqMemory)
      ([.begin, .appendWithinExistingTransaction "a", .rollback, .begin, .appendWithinExistingTransaction "b", .commit,
        .append "c"] ++ [.proceed, .proceed, .proceed, .returns, .proceed, .throws] ++ delivery ++
        [.notifyEvent ⟨2, 2, "c"⟩, .proceed, .scheduledFlush]) (start ledger [1, 2])) := by
  have hledger : ledger.Sound := ⟨List.Pairwise.nil, fun _ h => absurd h List.not_mem_nil⟩
  have hmeets : Meets (step deliveredSeqMemory) (Orderly 2)
      ([.begin, .appendWithinExistingTransaction "a", .rollback, .begin, .appendWithinExistingTransaction "b", .commit,
        .append "c"] ++ [.proceed, .proceed, .proceed, .returns, .proceed, .throws] ++ delivery ++
        [.notifyEvent ⟨2, 2, "c"⟩, .proceed, .scheduledFlush]) (start ledger [1, 2]) := by decide +kernel
  exact follow_exactly_once hledger (by decide) (by decide) hmeets (List.append_nil _).symm

end HrcRuntime.FollowFanOut
