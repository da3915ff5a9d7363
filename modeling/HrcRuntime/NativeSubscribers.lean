import HrcRuntime.SubscriberRegistry
import Mathlib.Order.Nat

namespace HrcRuntime.NativeSubscribers

open SubscriberAdmission
open Wire (Number)
open Schedule
open List (mem_map mem_append_left mem_append_right map_append nodup_append mem_map_of_mem find?_some
  mem_singleton map_cons append_assoc map_id)

structure Admission where
  entry : Entry
  token : Option Nat

/-- The native registry; `opened` is the number of ids given out. -/
structure Registry where
  active : List Admission
  closed : List Admission
  opened : Nat

def amend (id : Nat) (f : Entry → Entry) (admissions : List Admission) : List Admission :=
  admissions.map fun a => if a.entry.subscriberId = id then { a with entry := f a.entry } else a

namespace Registry

def empty : Registry := ⟨[], [], 0⟩

variable (s : Registry)

/-- `active.iter().chain(closed.iter())`. -/
def all : List Admission := s.active ++ s.closed

def openEntry (route : Route) (selector : Wire.Value) (name : Option String) (receipt : ReceiptMode) (now : Instant) :
    Entry :=
  { subscriberId := s.opened, name, route, selector, remoteInfo := none, openedAt := now, receiptMode := receipt
    receiptState := if receipt = .consumerAckV1 then .awaitingFirstAck else .notRequested }

def «open» (route : Route) (selector : Wire.Value) (name : Option String) (receipt : ReceiptMode) (now : Instant) :
    Registry :=
  let token := if receipt = .consumerAckV1 then some s.opened else none
  { s with active := s.active ++ [⟨s.openEntry route selector name receipt now, token⟩], opened := s.opened + 1 }

/-- The search of `declare` and `named_broker`: the last active admission of a name. -/
def named (name : String) : Option Admission := s.active.reverse.find? fun a => a.entry.name = some name

def namedBroker (name : String) : Option Nat :=
  ((s.named name).filter fun a => a.entry.route = .brokerEvents).map (·.entry.subscriberId)

def enqueued (id : Nat) (seq : Int) (now : Instant) : Registry :=
  { s with active := amend id (fun e => e.enqueue seq now) s.active }

def accepted (id : Nat) (seq : Int) (desired : Option Int) (now : Instant) : Registry :=
  { s with active := s.active.map fun a =>
      if a.entry.subscriberId = id ∧ a.entry.streamAcceptedCount < a.entry.enqueuedCount then
        { a with entry := a.entry.streamAccepted a.token.isSome seq desired now }
      else a }

def keepalive (id : Nat) (desired : Option Int) (now : Instant) : Registry :=
  { s with active := amend id (fun e => e.keepalive desired now) s.active }

/-- `closed.remove(0)` past 32 of them. -/
def close (id : Nat) (now : Instant) : Registry :=
  match s.active.find? fun a => a.entry.subscriberId = id with
  | none => s
  | some a =>
    let closed := s.closed ++ [{ a with entry := { a.entry with closedAt := some now } }]
    { s with
      active := s.active.filter fun a => a.entry.subscriberId ≠ id
      closed := if 32 < closed.length then closed.tail else closed }

def acknowledge (input : AckRequest) (now : Instant) : Except BadRequest (AckResponse × Registry) :=
  match s.all.find? fun a => a.entry.subscriberId = input.subscriberId with
  | none => .error (.unknown input.subscriberId)
  | some a =>
    if a.token ≠ some input.receiptToken then .error (.token input.subscriberId)
    else (a.entry.receive input (positiveSeq input.seq) now).map fun (response, entry) =>
      (response, { s with
        active := amend input.subscriberId (fun _ => entry) s.active
        closed := amend input.subscriberId (fun _ => entry) s.closed })

end Registry

inductive Call where
  | «open» (route : Route) (selector : Wire.Value) (name : Option String) (receipt : ReceiptMode)
  | enqueued (id : Nat) (seq : Int)
  | accepted (id : Nat) (seq : Int) (desired : Option Int)
  | keepalive (id : Nat) (desired : Option Int)
  | close (id : Nat)
  | acknowledge (input : AckRequest)

def step (call : Call × Instant) (s : Registry) : Registry :=
  match call with
  | (.open route selector name receipt, now) => s.open route selector name receipt now
  | (.enqueued id seq, now) => s.enqueued id seq now
  | (.accepted id seq desired, now) => s.accepted id seq desired now
  | (.keepalive id desired, now) => s.keepalive id desired now
  | (.close id, now) => s.close id now
  | (.acknowledge input, now) => ((s.acknowledge input now).map (·.2)).toOption.getD s

structure Inv (s : Registry) : Prop where
  entries : ∀ a ∈ s.all, a.entry.Kept ∧ (a.token.isSome = true ↔ a.entry.receiptMode = .consumerAckV1)
  distinct : (s.all.map (·.entry.subscriberId)).Nodup
  given : ∀ a ∈ s.all, a.entry.subscriberId < s.opened
  ascending : (s.active.map (·.entry.subscriberId)).Pairwise (· < ·)
  limit : s.closed.length ≤ 32

structure Kin (a a' : Admission) : Prop where
  id : a'.entry.subscriberId = a.entry.subscriberId
  token : a'.token = a.token
  mode : a'.entry.receiptMode = a.entry.receiptMode
  kept : a.entry.Kept → a'.entry.Kept
  later : a.entry.Later a'.entry

theorem Kin.refl (a : Admission) : Kin a a := ⟨rfl, rfl, rfl, fun h => h, .refl _⟩

section Steps

variable {s : Registry} {now : Instant}

variable {g : Admission → Admission} {s' : Registry} {a : Admission}

theorem map_ids (l : List Admission) (hg : ∀ a ∈ l, Kin a (g a)) :
    (l.map g).map (·.entry.subscriberId) = l.map (·.entry.subscriberId) := by
  rw [List.map_map]
  exact List.map_congr_left fun a ha => (hg a ha).id

variable {h : Admission → Admission} {b : Admission} {response : AckResponse} {input : AckRequest}

theorem inv_map (hinv : Inv s) (hg : ∀ a ∈ s.active, Kin a (g a))
    (hh : ∀ a ∈ s.closed, Kin a (h a)) : Inv { s with active := s.active.map g, closed := s.closed.map h } := by
  have hall : ∀ a' ∈ s.active.map g ++ s.closed.map h, ∃ a ∈ s.all, Kin a a' := by
    intro a' ha'
    rcases List.mem_append.mp ha' with h' | h'
    · obtain ⟨a, ha, rfl⟩ := mem_map.mp h'
      exact ⟨a, mem_append_left _ ha, hg a ha⟩
    · obtain ⟨a, ha, rfl⟩ := mem_map.mp h'
      exact ⟨a, mem_append_right _ ha, hh a ha⟩
  constructor
  · intro a' ha'
    obtain ⟨a, ha, hkin⟩ := hall a' ha'
    obtain ⟨hk, ht⟩ := hinv.entries a ha
    exact ⟨hkin.kept hk, by rw [hkin.token, hkin.mode]; exact ht⟩
  · have hi := hinv.distinct
    simp only [Registry.all, map_append] at hi ⊢
    rw [map_ids _ hg, map_ids _ hh]
    exact hi
  · intro a' ha'
    obtain ⟨a, ha, hkin⟩ := hall a' ha'
    rw [hkin.id]
    exact hinv.given a ha
  · simp only
    rw [map_ids _ hg]
    exact hinv.ascending
  · simp only [List.length_map]
    exact hinv.limit

theorem Inv.eq_of_id (hi : Inv s) (ha : a ∈ s.all) (hb : b ∈ s.all)
    (hid : b.entry.subscriberId = a.entry.subscriberId) : b = a :=
  List.inj_on_of_nodup_map hi.distinct hb ha hid

theorem Inv.apart (hinv : Inv s) (ha : a ∈ s.active) (hb : b ∈ s.closed) :
    a.entry.subscriberId ≠ b.entry.subscriberId := by
  have hi := hinv.distinct
  rw [Registry.all, map_append] at hi
  exact (nodup_append.mp hi).2.2 _ (mem_map_of_mem ha) _ (mem_map_of_mem hb)

structure Grown (s s' : Registry) : Prop where
  opened : s.opened ≤ s'.opened
  entries : ∀ b ∈ s'.all, b.entry.subscriberId < s.opened → ∃ a ∈ s.all, a.entry.subscriberId = b.entry.subscriberId ∧
    a.entry.Later b.entry ∧ (a ∈ s.closed → b ∈ s'.closed)

theorem Grown.refl (s : Registry) : Grown s s := ⟨le_rfl, fun b hb _ => ⟨b, hb, rfl, .refl _, fun h => h⟩⟩

theorem Grown.trans {s s'' : Registry} (h : Grown s s') (h' : Grown s' s'') : Grown s s'' := by
  refine ⟨h.opened.trans h'.opened, fun c hc hlt => ?_⟩
  obtain ⟨b, hb, hid, hl, hcl⟩ := h'.entries c hc (hlt.trans_le h.opened)
  obtain ⟨a, ha, hid', hl', hcl'⟩ := h.entries b hb (hid ▸ hlt)
  exact ⟨a, ha, hid'.trans hid, hl'.trans hl, fun hm => hcl (hcl' hm)⟩

theorem grown_map (hi : Inv s) (hg : ∀ a ∈ s.active, Kin a (g a))
    (hh : ∀ a ∈ s.closed, Kin a (h a)) : Grown s { s with active := s.active.map g, closed := s.closed.map h } := by
  refine ⟨le_rfl, fun b hb _ => ?_⟩
  rcases List.mem_append.mp hb with hb | hb
  · obtain ⟨a, ha, rfl⟩ := mem_map.mp hb
    refine ⟨a, mem_append_left _ ha, (hg a ha).id.symm, (hg a ha).later, fun hm => ?_⟩
    exact absurd rfl (hi.apart ha hm)
  · obtain ⟨a, ha, rfl⟩ := mem_map.mp hb
    exact ⟨a, mem_append_right _ ha, (hh a ha).id.symm, (hh a ha).later, fun _ => mem_map_of_mem ha⟩

def Plain (s s' : Registry) : Prop :=
  (∃ a, s' = { s with active := s.active ++ [a], opened := s.opened + 1 } ∧ a.entry.subscriberId = s.opened ∧
    a.entry.Kept ∧ (a.token.isSome = true ↔ a.entry.receiptMode = .consumerAckV1)) ∨
  (∃ a now closed, a ∈ s.active ∧ (closed.Sublist (s.closed ++ [{ a with entry := { a.entry with closedAt := some now } }])) ∧
    closed.length ≤ 32 ∧ s' = { s with
      active := s.active.filter fun b => b.entry.subscriberId ≠ a.entry.subscriberId, closed }) ∨
  ∃ g, s' = { s with active := s.active.map g } ∧ ∀ a ∈ s.active, Kin a (g a)

theorem amend_kin {id : Nat} (f : Entry → Entry) (hid : ∀ e, (f e).subscriberId = e.subscriberId)
    (hm : ∀ e, (f e).receiptMode = e.receiptMode) (hk : ∀ e : Entry, e.Kept → (f e).Kept)
    (hl : ∀ e : Entry, e.Later (f e)) (a : Admission) :
    Kin a (if a.entry.subscriberId = id then { a with entry := f a.entry } else a) := by
  split
  · exact ⟨hid _, rfl, hm _, hk _, hl _⟩
  · exact .refl a

theorem step_plain (now : Instant) (hi : Inv s) {call : Call} (hc : ∀ input, call ≠ .acknowledge input) :
    Plain s (step (call, now) s) ∨ step (call, now) s = s := by
  cases call with
  | «open» route selector name receipt =>
    refine Or.inl (Or.inl ⟨_, rfl, rfl, ?_, ?_⟩)
    · refine ⟨⟨⟨rfl, Int.le_refl 0⟩, by simp [Registry.openEntry], (fun k hk => by cases hk), ?_, ?_⟩,
        fun hm => ⟨rfl, if_neg hm⟩⟩
      · simp only [Registry.openEntry]
        split <;> simp
      · simp only [Registry.openEntry]
        split <;> simp
    · simp only [Registry.openEntry]
      split <;> simp [*]
  | enqueued id seq =>
    refine Or.inl (Or.inr (Or.inr ⟨_, rfl, fun a _ => ?_⟩))
    exact amend_kin (fun e => e.enqueue seq now) (fun _ => rfl) (fun _ => rfl) (fun _ => enqueue_kept)
      (fun _ => ⟨past_max _ _, .refl _, .refl _⟩) a
  | accepted id seq desired =>
    refine Or.inl (Or.inr (Or.inr ⟨_, rfl, fun a ha => ?_⟩))
    split
    · rename_i hp
      obtain ⟨-, hid, hmd⟩ := streamAccepted_name (e := a.entry)
      exact ⟨hid, rfl, hmd, fun hkp => streamAccepted_kept hkp (hi.entries a (mem_append_left _ ha)).2
        hp.2, streamAccepted_later⟩
    · exact .refl a
  | keepalive id desired =>
    refine Or.inl (Or.inr (Or.inr ⟨_, rfl, fun a _ => ?_⟩))
    exact amend_kin (fun e => e.keepalive desired now) (fun _ => rfl) (fun _ => rfl) (fun _ => keepalive_kept)
      (fun _ => ⟨.refl _, .refl _, .refl _⟩) a
  | close id =>
    cases hf : s.active.find? fun a => a.entry.subscriberId = id with
    | none =>
      refine Or.inr ?_
      simp only [step, Registry.close, hf]
    | some a =>
      have ha := List.mem_of_find?_eq_some hf
      have hid : a.entry.subscriberId = id := by simpa using find?_some hf
      subst hid
      refine Or.inl (Or.inr (Or.inl ⟨a, now, _, ha, ?_, ?_, by simp only [step, Registry.close, hf]; rfl⟩))
      · split
        · exact List.tail_sublist _
        · exact List.Sublist.refl _
      · have := hi.limit
        split
        · simp only [List.length_tail, List.length_append, List.length_singleton]
          omega
        · omega
  | acknowledge input => exact absurd rfl (hc input)

theorem plain_inv (hinv : Inv s) (h : Plain s s') : Inv s' := by
  rcases h with ⟨a, rfl, hid, hk, ht⟩ | ⟨a, now, closed, ha, hs, hl, rfl⟩ | ⟨g, rfl, hg⟩
  · have hn : ∀ b ∈ s.all, b.entry.subscriberId < a.entry.subscriberId := fun b hb => hid ▸ hinv.given b hb
    have hmem (b : Admission) : b ∈ (s.active ++ [a]) ++ s.closed ↔ b ∈ s.all ∨ b = a := by
      simp only [Registry.all, List.mem_append, mem_singleton]
      exact or_right_comm
    constructor
    · intro b hb
      rcases (hmem b).mp hb with hb | rfl
      · exact hinv.entries b hb
      · exact ⟨hk, ht⟩
    · have hi := hinv.distinct
      simp only [Registry.all, map_append, map_cons, List.map_nil] at hi ⊢
      rw [append_assoc]
      refine (List.perm_append_comm.append_left _).nodup_iff.mpr ?_
      rw [← append_assoc]
      refine nodup_append.mpr ⟨hi, by simp, fun x hx y hy => ?_⟩
      rw [mem_singleton.mp hy]
      rw [← map_append] at hx
      obtain ⟨b, hb, rfl⟩ := mem_map.mp hx
      exact Nat.ne_of_lt (hn b hb)
    · intro b hb
      rcases (hmem b).mp hb with hb | rfl
      · exact Nat.lt_succ_of_lt (hinv.given b hb)
      · exact hid ▸ Nat.lt_succ_self _
    · simp only [map_append, map_cons, List.map_nil]
      refine List.pairwise_append.mpr ⟨hinv.ascending, List.pairwise_singleton _ _, fun x hx y hy => ?_⟩
      rw [mem_singleton.mp hy]
      obtain ⟨b, hb, rfl⟩ := mem_map.mp hx
      exact hn b (mem_append_left _ hb)
    · exact hinv.limit
  · have hf : ∀ b ∈ closed, b ∈ s.closed ∨ b = { a with entry := { a.entry with closedAt := some now } } := fun b hb => by
      simpa using hs.subset hb
    have hall : ∀ b ∈ s.active.filter (fun b => b.entry.subscriberId ≠ a.entry.subscriberId) ++ closed,
        b ∈ s.all ∨ b = { a with entry := { a.entry with closedAt := some now } } := fun b hb => by
      rcases List.mem_append.mp hb with hb | hb
      · exact Or.inl (mem_append_left _ (List.mem_of_mem_filter hb))
      · exact (hf b hb).imp_left (mem_append_right _)
    have ha' : a ∈ s.all := mem_append_left _ ha
    constructor
    · intro b hb
      rcases hall b hb with hb | rfl
      · exact hinv.entries b hb
      · exact ⟨closedAt_kept (hinv.entries a ha').1, (hinv.entries a ha').2⟩
    · have hi := hinv.distinct
      simp only [Registry.all, map_append] at hi ⊢
      obtain ⟨hact, hcl, -⟩ := nodup_append.mp hi
      refine nodup_append.mpr ⟨hact.sublist (List.filter_sublist.map _), ?_, ?_⟩
      · refine List.Nodup.sublist (hs.map _) ?_
        rw [map_append]
        refine nodup_append.mpr ⟨hcl, by simp, fun x hx y hy => ?_⟩
        rw [mem_singleton.mp hy]
        obtain ⟨b, hb, rfl⟩ := mem_map.mp hx
        exact (hinv.apart ha hb).symm
      · intro x hx y hy
        obtain ⟨b, hb, rfl⟩ := mem_map.mp hx
        obtain ⟨c, hc, rfl⟩ := mem_map.mp hy
        obtain ⟨hb, hne⟩ := List.mem_filter.mp hb
        rcases hf c hc with hc | rfl
        · exact hinv.apart hb hc
        · simpa using hne
    · intro b hb
      rcases hall b hb with hb | rfl
      · exact hinv.given b hb
      · exact hinv.given a ha'
    · exact hinv.ascending.sublist (List.filter_sublist.map _)
    · exact hl
  · have hcl : s.closed.map (fun a => a) = s.closed := map_id _
    have hm := inv_map hinv hg fun a _ => Kin.refl a
    rw [hcl] at hm
    exact hm

theorem plain_grown (hi : Inv s) (h : Plain s s') : Grown s s' := by
  rcases h with ⟨a, rfl, hid, -, -⟩ | ⟨a, now, closed, ha, hs, -, rfl⟩ | ⟨g, rfl, hg⟩
  · refine ⟨Nat.le_succ _, fun b hb hlt => ?_⟩
    have hb' : b ∈ s.all := by
      simp only [Registry.all, List.mem_append, mem_singleton] at hb ⊢
      rcases hb with (hb | rfl) | hb
      · exact Or.inl hb
      · omega
      · exact Or.inr hb
    exact ⟨b, hb', rfl, .refl _, fun hc => hc⟩
  · refine ⟨le_rfl, fun b hb _ => ?_⟩
    rcases List.mem_append.mp hb with hb | hb
    · have hb' := List.mem_of_mem_filter hb
      exact ⟨b, mem_append_left _ hb', rfl, .refl _, fun hc => absurd rfl (hi.apart hb' hc)⟩
    · have hf : b ∈ s.closed ∨ b = { a with entry := { a.entry with closedAt := some now } } := by
        simpa using hs.subset hb
      rcases hf with hc | rfl
      · exact ⟨b, mem_append_right _ hc, rfl, .refl _, fun _ => hb⟩
      · exact ⟨a, mem_append_left _ ha, rfl, ⟨.refl _, .refl _, .refl _⟩, fun _ => hb⟩
  · have hcl : s.closed.map (fun a => a) = s.closed := map_id _
    have hm := grown_map hi hg fun a _ => Kin.refl a
    rw [hcl] at hm
    exact hm

theorem plain_closed (hi : Inv s) (h : Plain s s') (ha : a ∈ s.closed) (hb : b ∈ s'.all)
    (heq : b.entry.subscriberId = a.entry.subscriberId) : b = a := by
  have ha' : a ∈ s.all := mem_append_right _ ha
  rcases h with ⟨c, rfl, hid, -, -⟩ | ⟨c, now, closed, hc, hs, -, rfl⟩ | ⟨g, rfl, hg⟩
  · have hb' : b ∈ s.all ∨ b = c := by
      simp only [Registry.all, List.mem_append, mem_singleton] at hb ⊢
      tauto
    rcases hb' with hb' | rfl
    · exact hi.eq_of_id ha' hb' heq
    · have := hi.given a ha'
      omega
  · rcases List.mem_append.mp hb with hb | hb
    · exact absurd heq (hi.apart (List.mem_of_mem_filter hb) ha)
    · have hf : b ∈ s.closed ∨ b = { c with entry := { c.entry with closedAt := some now } } := by
        simpa using hs.subset hb
      rcases hf with hb | rfl
      · exact hi.eq_of_id ha' (mem_append_right _ hb) heq
      · exact absurd (show c.entry.subscriberId = a.entry.subscriberId from heq) (hi.apart hc ha)
  · rcases List.mem_append.mp hb with hb | hb
    · obtain ⟨c, hc, rfl⟩ := mem_map.mp hb
      exact absurd ((hg c hc).id.symm.trans heq) (hi.apart hc ha)
    · exact hi.eq_of_id ha' (mem_append_right _ hb) heq

theorem acknowledge_ok :
    s.acknowledge input now = .ok (response, s') ↔
      ∃ a entry, (s.all.find? fun a => a.entry.subscriberId = input.subscriberId) = some a ∧
        a.token = some input.receiptToken ∧
        a.entry.receive input (positiveSeq input.seq) now = .ok (response, entry) ∧
        s' = { s with
          active := amend input.subscriberId (fun _ => entry) s.active
          closed := amend input.subscriberId (fun _ => entry) s.closed } := by
  unfold Registry.acknowledge
  cases hf : s.all.find? fun a => a.entry.subscriberId = input.subscriberId with
  | none => simp
  | some a =>
    by_cases ht : a.token = some input.receiptToken
    · simp only [ht, ne_eq, not_true_eq_false, if_false]
      cases hr : a.entry.receive input (positiveSeq input.seq) now with
      | error e =>
        constructor
        · intro h
          cases h
        · rintro ⟨b, entry, hb, -, hok, -⟩
          cases hb
          rw [hr] at hok
          cases hok
      | ok pair =>
        obtain ⟨r, entry⟩ := pair
        constructor
        · intro h
          obtain ⟨rfl, rfl⟩ := Prod.mk.inj (Except.ok.inj h)
          exact ⟨a, entry, rfl, ht, hr, rfl⟩
        · rintro ⟨b, entry', hb, -, hok, rfl⟩
          cases hb
          cases hr.symm.trans hok
          rfl
    · simp only [ne_eq, ht, not_false_eq_true, if_true]
      constructor
      · intro h
        cases h
      · rintro ⟨b, entry, hb, ht', -⟩
        cases hb
        exact absurd ht' ht

theorem acknowledge_sound (hi : Inv s)
    (h : s.acknowledge input now = .ok (response, s')) :
    Inv s' ∧ Grown s s' ∧ (response.disposition ≠ .advanced → s' = s) := by
  obtain ⟨a, entry, hf, ht, hr, rfl⟩ := acknowledge_ok.mp h
  have ha := List.mem_of_find?_eq_some hf
  have hid : a.entry.subscriberId = input.subscriberId := by simpa using find?_some hf
  obtain ⟨hk, has⟩ := hi.entries a ha
  obtain ⟨hk', hlat, ⟨-, hs, hm⟩, hu⟩ :=
    receive_ok hk (has.mp (by rw [ht]; rfl)) hr
  have hone (b : Admission) (hb : b ∈ s.all) (heq : b.entry.subscriberId = input.subscriberId) : b = a :=
    hi.eq_of_id ha hb (heq.trans hid.symm)
  have hkin (b : Admission) (hb : b ∈ s.all) :
      Kin b (if b.entry.subscriberId = input.subscriberId then { b with entry } else b) := by
    split
    · rename_i heq
      cases hone b hb heq
      exact ⟨hs, rfl, hm, fun _ => hk', hlat⟩
    · exact .refl b
  have hact (b : Admission) (hb : b ∈ s.active) := hkin b (mem_append_left _ hb)
  have hcl (b : Admission) (hb : b ∈ s.closed) := hkin b (mem_append_right _ hb)
  refine ⟨inv_map hi hact hcl, grown_map hi hact hcl, fun hne => ?_⟩
  have he : entry = a.entry := hu hne
  have hfx (l : List Admission) (hl : ∀ b ∈ l, b ∈ s.all) : amend input.subscriberId (fun _ => entry) l = l := by
    refine (List.map_congr_left fun b hb => ?_).trans (map_id _)
    split
    · rename_i heq
      cases hone b (hl b hb) heq
      rw [he]
      rfl
    · rfl
  rw [hfx _ fun b hb => mem_append_left _ hb, hfx _ fun b hb => mem_append_right _ hb]

theorem step_sound (hi : Inv s) (call : Call × Instant) : Inv (step call s) ∧ Grown s (step call s) := by
  obtain ⟨call, now⟩ := call
  by_cases hc : ∃ input, call = .acknowledge input
  · obtain ⟨input, rfl⟩ := hc
    simp only [step]
    cases hack : s.acknowledge input now with
    | error e => exact ⟨hi, .refl s⟩
    | ok pair =>
      obtain ⟨hi', hgr, -⟩ := acknowledge_sound hi hack
      exact ⟨hi', hgr⟩
  · rcases step_plain now hi (fun input h => hc ⟨input, h⟩) with h | h
    · exact ⟨plain_inv hi h, plain_grown hi h⟩
    · rw [h]
      exact ⟨hi, .refl s⟩

theorem Inv.named (hinv : Inv s) {name : String} :
    s.named name = some a ↔ a ∈ s.active ∧ a.entry.name = some name ∧
      ∀ b ∈ s.active, b.entry.name = some name → b.entry.subscriberId ≤ a.entry.subscriberId := by
  have hf {c : Admission} (h : s.named name = some c) : c ∈ s.active ∧ c.entry.name = some name ∧
      ∀ b ∈ s.active, b.entry.name = some name → b.entry.subscriberId ≤ c.entry.subscriberId := by
    obtain ⟨hnm, later, earlier, hsp, hoth⟩ := List.find?_eq_some_iff_append.mp h
    have hact : s.active = earlier.reverse ++ c :: later.reverse := by
      rw [← List.reverse_reverse s.active, hsp, List.reverse_append, List.reverse_cons, append_assoc]
      rfl
    have hi := hinv.ascending
    rw [hact, map_append, map_cons] at hi
    refine ⟨by simp [hact], by simpa using hnm, fun b hb hn => ?_⟩
    rw [hact] at hb
    rcases List.mem_append.mp hb with hb | hb
    · exact Nat.le_of_lt ((List.pairwise_append.mp hi).2.2 _ (mem_map_of_mem hb) _ List.mem_cons_self)
    · rcases List.mem_cons.mp hb with rfl | hb
      · exact le_rfl
      · have := hoth b (List.mem_reverse.mp hb)
        simp [hn] at this
  refine ⟨hf, fun ⟨ha, hnm, hl⟩ => ?_⟩
  cases hc : s.named name with
  | none =>
    have := List.find?_eq_none.mp hc a (List.mem_reverse.mpr ha)
    simp [hnm] at this
  | some c =>
    obtain ⟨hm, hn', hl'⟩ := hf hc
    have hid := Nat.le_antisymm (hl c hm hn') (hl' a ha hnm)
    rw [hinv.eq_of_id (mem_append_left _ ha) (mem_append_left _ hm) hid]

def Takes (s : Registry) (input : AckRequest) : Prop :=
  ∃ a seq acceptedSeq, a ∈ s.all ∧ a.entry.subscriberId = input.subscriberId ∧ a.token = some input.receiptToken ∧
    positiveSeq input.seq = some seq ∧ a.entry.lastStreamAcceptedSeq = some acceptedSeq ∧ seq ≤ acceptedSeq

structure Accounted (s : Registry) : Prop where
  entries : ∀ a ∈ s.all, a.entry.Accounted
  taken : ∀ input now, (∃ response s', s.acknowledge input now = .ok (response, s')) ↔ Takes s input
  refused : ∀ input now error, s.acknowledge input now = .error error → step (.acknowledge input, now) s = s
  unchanged : ∀ input now response s', s.acknowledge input now = .ok (response, s') →
    response.disposition ≠ .advanced → s' = s
  frozen : ∀ call now, (∀ input, call ≠ .acknowledge input) → ∀ a ∈ s.closed, ∀ b ∈ (step (call, now) s).all,
    b.entry.subscriberId = a.entry.subscriberId → b = a
  kept : s.closed.length ≤ 32
  named : ∀ name a, s.named name = some a ↔ a ∈ s.active ∧ a.entry.name = some name ∧
    ∀ b ∈ s.active, b.entry.name = some name → b.entry.subscriberId ≤ a.entry.subscriberId

theorem Inv.accounted (hi : Inv s) : Accounted s where
  entries := fun a ha => (hi.entries a ha).1.toAccounted
  taken := by
    intro input now
    constructor
    · rintro ⟨response, s', h⟩
      obtain ⟨a, entry, hf, ht, hr, -⟩ := acknowledge_ok.mp h
      obtain ⟨n, acceptedSeq, hs, hacc, hle⟩ := Registry.receive_isOk.mp ⟨response, entry, hr⟩
      exact ⟨a, n, acceptedSeq, List.mem_of_find?_eq_some hf, by simpa using find?_some hf, ht, hs,
        hacc, hle⟩
    · rintro ⟨a, n, acceptedSeq, ha, hid, ht, hs, hacc, hle⟩
      obtain ⟨response, entry, hr⟩ : ∃ response entry,
          a.entry.receive input (positiveSeq input.seq) now = .ok (response, entry) :=
        Registry.receive_isOk.mpr ⟨n, acceptedSeq, hs, hacc, hle⟩
      have hf : (s.all.find? fun a => a.entry.subscriberId = input.subscriberId) = some a := by
        cases hb : s.all.find? fun a => a.entry.subscriberId = input.subscriberId with
        | none => exact absurd hid (by simpa using List.find?_eq_none.mp hb a ha)
        | some b =>
          have hid' : b.entry.subscriberId = input.subscriberId := by simpa using find?_some hb
          rw [hi.eq_of_id ha (List.mem_of_find?_eq_some hb) (hid'.trans hid.symm)]
      exact ⟨response, _, acknowledge_ok.mpr ⟨a, entry, hf, ht, hr, rfl⟩⟩
  refused := by
    intro input now error h
    simp only [step, h]
    rfl
  unchanged := fun input now response s' h => (acknowledge_sound hi h).2.2
  frozen := by
    intro call now hc a ha b hb heq
    rcases step_plain now hi hc with h | h
    · exact plain_closed hi h ha hb heq
    · rw [h] at hb
      exact hi.eq_of_id (mem_append_right _ ha) hb heq
  kept := hi.limit
  named := fun _ _ => hi.named

theorem native_accounted (before after : List (Call × Instant)) :
    Accounted (run step before .empty) ∧ Grown (run step before .empty) (run step (before ++ after) .empty) := by
  have he : Inv .empty :=
    ⟨fun a ha => absurd ha List.not_mem_nil, List.nodup_nil, fun a ha => absurd ha List.not_mem_nil, List.Pairwise.nil,
      Nat.zero_le _⟩
  have hi : Inv (run step before .empty) :=
    run_invariant (I := Inv) (fun _ call h _ => (step_sound h call).1) he meets_true
  refine ⟨hi.accounted, ?_⟩
  rw [run_append]
  exact run_related Grown.refl (fun _ _ _ => Grown.trans) (fun _ call h _ => (step_sound h call).1)
    (fun _ call h _ => (step_sound h call).2) hi meets_true

end Steps

/-- Both registries account for their subscribers after every sequence of calls. -/
theorem receipts_accounted (recentlyClosedLimit : Nat) (before after : List (SubscriberAdmission.Call × Instant))
    (nativeBefore nativeAfter : List (Call × Instant)) :
    (SubscriberAdmission.Registry.Accounted recentlyClosedLimit
        (run (SubscriberAdmission.step recentlyClosedLimit) before .empty) ∧
      SubscriberAdmission.Registry.Grown (run (SubscriberAdmission.step recentlyClosedLimit) before .empty)
        (run (SubscriberAdmission.step recentlyClosedLimit) (before ++ after) .empty)) ∧
    Accounted (run step nativeBefore .empty) ∧
      Grown (run step nativeBefore .empty) (run step (nativeBefore ++ nativeAfter) .empty) :=
  ⟨SubscriberAdmission.Registry.registry_accounted recentlyClosedLimit before after,
    native_accounted nativeBefore nativeAfter⟩

end HrcRuntime.NativeSubscribers
