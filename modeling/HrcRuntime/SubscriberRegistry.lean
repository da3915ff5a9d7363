import HrcRuntime.SubscriberReceipts
import Mathlib.Data.List.Nodup

namespace HrcRuntime.SubscriberAdmission

open Wire (Number)
open Schedule

variable {recentlyClosedLimit : Nat}

namespace Registry

def Newest (s : Registry) (name : String) (id : Nat) : Prop :=
  (∃ a, s.admissions[id]? = some a ∧ a.closed = false ∧ a.entry.name = some name) ∧
    ∀ id' a, id < id' → s.admissions[id']? = some a → a.entry.name ≠ some name

structure Inv (recentlyClosedLimit : Nat) (s : Registry) : Prop where
  entries : ∀ (id : Nat) a, s.admissions[id]? = some a → a.entry.Kept
  active : ∀ id, id ∈ s.active ↔ ∃ a, s.admissions[id]? = some a ∧ a.closed = false
  closed : ∀ id ∈ s.recentlyClosed, ∃ a, s.admissions[id]? = some a ∧ a.closed = true
  distinct : s.recentlyClosed.Nodup
  limit : s.recentlyClosed.length ≤ recentlyClosedLimit
  known : ∀ id, id ∈ s.bySubscriberId ↔ id ∈ s.active ∨ id ∈ s.recentlyClosed
  named : ∀ name id, s.byName name = some id ↔ s.Newest name id

structure Kin (a a' : Admission) : Prop where
  closed : a'.closed = a.closed
  name : a'.entry.name = a.entry.name
  kept : a.entry.Kept → a'.entry.Kept
  later : a.entry.Later a'.entry

theorem Kin.refl (a : Admission) : Kin a a := ⟨rfl, rfl, id, .refl _⟩

structure Amended (s s' : Registry) : Prop where
  rest : s'.active = s.active ∧ s'.recentlyClosed = s.recentlyClosed ∧ s'.bySubscriberId = s.bySubscriberId ∧
    s'.byName = s.byName
  entries : ∀ id : Nat, Option.Rel Kin s.admissions[id]? s'.admissions[id]?

theorem Amended.refl (s : Registry) : Amended s s := by
  refine ⟨⟨rfl, rfl, rfl, rfl⟩, fun id => ?_⟩
  cases s.admissions[id]? with
  | none => exact .none
  | some a => exact .some (.refl a)

section Steps

variable {s s' : Registry} {id : Nat} {now : Instant}

variable {a : Admission} {input : OpenInput} {desiredSize : Option Int}

theorem Amended.after (h : Amended s s') (ha : s.admissions[id]? = some a) :
    ∃ a', s'.admissions[id]? = some a' ∧ Kin a a' := by
  have hr := h.entries id
  rw [ha] at hr
  cases h' : s'.admissions[id]? with
  | none =>
    rw [h'] at hr
    cases hr
  | some a' =>
    rw [h'] at hr
    cases hr with
    | some hk => exact ⟨a', rfl, hk⟩

theorem Amended.before (h : Amended s s') {a' : Admission} (ha : s'.admissions[id]? = some a') :
    ∃ a, s.admissions[id]? = some a ∧ Kin a a' := by
  have hr := h.entries id
  rw [ha] at hr
  cases h' : s.admissions[id]? with
  | none =>
    rw [h'] at hr
    cases hr
  | some a =>
    rw [h'] at hr
    cases hr with
    | some hk => exact ⟨a, rfl, hk⟩

theorem Amended.newest (h : Amended s s') (name : String) : s'.Newest name id ↔ s.Newest name id := by
  constructor
  · rintro ⟨⟨a', ha', hop, hn⟩, hl⟩
    obtain ⟨a, ha, hk⟩ := h.before ha'
    refine ⟨⟨a, ha, hk.closed.symm.trans hop, hk.name.symm.trans hn⟩, fun id' b hlt hb => ?_⟩
    obtain ⟨b', hb', hk'⟩ := h.after hb
    exact hk'.name ▸ hl id' b' hlt hb'
  · rintro ⟨⟨a, ha, hop, hn⟩, hl⟩
    obtain ⟨a', ha', hk⟩ := h.after ha
    refine ⟨⟨a', ha', hk.closed.trans hop, hk.name.trans hn⟩, fun id' b' hlt hb' => ?_⟩
    obtain ⟨b, hb, hk'⟩ := h.before hb'
    exact hk'.name.symm ▸ hl id' b hlt hb

theorem inv_amended (hi : Inv recentlyClosedLimit s) (h : Amended s s') : Inv recentlyClosedLimit s' := by
  obtain ⟨hact, hr, hkn, hn⟩ := h.rest
  constructor
  · intro id a' ha'
    obtain ⟨a, ha, hk⟩ := h.before ha'
    exact hk.kept (hi.entries id a ha)
  · intro id
    rw [hact, hi.active]
    constructor
    · rintro ⟨a, ha, hop⟩
      obtain ⟨a', ha', hk⟩ := h.after ha
      exact ⟨a', ha', hk.closed.trans hop⟩
    · rintro ⟨a', ha', hop⟩
      obtain ⟨a, ha, hk⟩ := h.before ha'
      exact ⟨a, ha, hk.closed.symm.trans hop⟩
  · intro id hid
    rw [hr] at hid
    obtain ⟨a, ha, hcl⟩ := hi.closed id hid
    obtain ⟨a', ha', hk⟩ := h.after ha
    exact ⟨a', ha', hk.closed.trans hcl⟩
  · rw [hr]
    exact hi.distinct
  · rw [hr]
    exact hi.limit
  · intro id
    rw [hkn, hact, hr]
    exact hi.known id
  · intro name id
    rw [hn, h.newest]
    exact hi.named name id

variable {f : Entry → Entry} {response : AckResponse}

theorem amended_amend (hn : ∀ e, (f e).name = e.name) (hk : ∀ e : Entry, e.Kept → (f e).Kept)
    (hl : ∀ e : Entry, e.Later (f e)) : Amended s (s.amend id f) := by
  refine ⟨⟨rfl, rfl, rfl, rfl⟩, fun id' => ?_⟩
  simp only [amend, List.getElem?_modify]
  cases s.admissions[id']? with
  | none => exact .none
  | some a =>
    refine .some ?_
    dsimp only
    split
    · split
      · exact .refl a
      · exact ⟨rfl, hn _, hk _, hl _⟩
    · exact .refl a

theorem amend_closed {id' : Nat} (ha : s.admissions[id']? = some a)
    (hcl : a.closed = true) : (s.amend id f).admissions[id']? = some a := by
  simp only [amend, List.getElem?_modify, ha, Option.map_eq_map, Option.map_some, hcl, if_true]
  split <;> rfl

theorem amended_recordEnqueued {seq : Number} :
    Amended s (s.recordEnqueued id seq desiredSize now) := by
  unfold recordEnqueued
  split
  · exact .refl s
  · refine amended_amend (fun _ => rfl) (fun e he => ?_) (fun e => ?_)
    · exact desiredSize_kept (enqueue_kept he)
    · exact ⟨past_max _ _, .refl _, .refl _⟩

theorem amended_recordStreamAccepted {seq : Number} :
    Amended s (s.recordStreamAccepted id seq desiredSize now) := by
  unfold recordStreamAccepted
  split
  · exact .refl s
  · rename_i n hn
    refine amended_amend (fun e => ?_) (fun e he => ?_) (fun e => ?_)
    · split
      · rfl
      · exact streamAccepted_name.1
    · split
      · exact he
      · exact streamAccepted_kept he decide_eq_true_iff (by omega)
    · split
      · exact .refl _
      · exact streamAccepted_later

theorem amended_recordKeepalive : Amended s (s.recordKeepalive id desiredSize now) :=
  amended_amend (fun _ => rfl) (fun _ => keepalive_kept) fun _ => ⟨.refl _, .refl _, .refl _⟩

theorem known_eq_some : s.known id = some a ↔ id ∈ s.bySubscriberId ∧ s.admissions[id]? = some a := by
  cases hf : s.bySubscriberId.find? (· = id) with
  | none =>
    have habs : id ∉ s.bySubscriberId := fun hm => by
      have := List.find?_eq_none.mp hf id hm
      simp at this
    simp [known, hf, habs]
  | some id' =>
    have heq : id' = id := by simpa using List.find?_some hf
    subst heq
    simp [known, hf, List.mem_of_find?_eq_some hf]

theorem acknowledge_ok {input : AckRequest} :
    s.acknowledge input now = .ok (response, s') ↔
      ∃ a entry, s.known input.subscriberId = some a ∧ a.entry.receiptMode = .consumerAckV1 ∧
        a.receiptToken = some input.receiptToken ∧
        a.entry.receive input (positiveSeq input.seq) now = .ok (response, entry) ∧
        s' = { s with admissions := s.admissions.set input.subscriberId { a with entry } } := by
  unfold acknowledge
  cases hkn : s.known input.subscriberId with
  | none => simp
  | some a =>
    by_cases hf : a.entry.receiptMode ≠ .consumerAckV1 ∨ a.receiptToken ≠ some input.receiptToken
    · simp only [if_pos hf]
      refine ⟨(fun h => by cases h), fun h => ?_⟩
      obtain ⟨a', entry, ha, hm, ht, -, -⟩ := h
      cases ha
      rcases hf with hne | hne
      · exact absurd hm hne
      · exact absurd ht hne
    · simp only [if_neg hf]
      obtain ⟨hm, ht⟩ := not_or.mp hf
      cases hr : a.entry.receive input (positiveSeq input.seq) now with
      | error e =>
        refine ⟨(fun h => by cases h), fun h => ?_⟩
        obtain ⟨a', entry, ha, -, -, hok, -⟩ := h
        cases ha
        rw [hr] at hok
        cases hok
      | ok pair =>
        obtain ⟨r, entry⟩ := pair
        constructor
        · intro h
          obtain ⟨rfl, rfl⟩ := Prod.mk.inj (Except.ok.inj h)
          exact ⟨a, entry, rfl, not_not.mp hm, not_not.mp ht, hr, rfl⟩
        · rintro ⟨a', entry', ha, -, -, hok, rfl⟩
          cases ha
          cases hr.symm.trans hok
          rfl

theorem amended_acknowledge (hi : Inv recentlyClosedLimit s) {input : AckRequest}
    (h : s.acknowledge input now = .ok (response, s')) :
    Amended s s' ∧ (response.disposition ≠ .advanced → s' = s) := by
  obtain ⟨a, entry, hkn, hm, -, hr, rfl⟩ := acknowledge_ok.mp h
  have ha := (known_eq_some.mp hkn).2
  obtain ⟨hk, hl, hn, hs⟩ := receive_ok (hi.entries _ a ha) hm hr
  refine ⟨⟨⟨rfl, rfl, rfl, rfl⟩, fun id => ?_⟩, fun hne => ?_⟩
  · by_cases hid : input.subscriberId = id
    · subst hid
      have hlt := (List.getElem?_eq_some_iff.mp ha).1
      simp only [List.getElem?_set_self hlt, ha]
      exact .some ⟨rfl, hn.1, fun _ => hk, hl⟩
    · simp only [List.getElem?_set_ne hid]
      cases s.admissions[id]? with
      | none => exact .none
      | some b => exact .some (.refl b)
  · rw [hs hne]
    obtain ⟨hlt, heq⟩ := List.getElem?_eq_some_iff.mp ha
    rw [← heq, List.set_getElem_self hlt]

theorem inv_empty : Inv recentlyClosedLimit empty where
  entries := fun id a ha => by simp [empty] at ha
  active := fun id => by simp [empty]
  closed := fun id hid => by simp [empty] at hid
  distinct := List.nodup_nil
  limit := Nat.zero_le _
  known := fun id => by simp [empty]
  named := fun name id => by simp [empty, Newest]

theorem openEntry_kept : (s.openEntry input now).Kept := by
  refine ⟨⟨⟨rfl, Int.le_refl 0⟩, ?_, (fun k hk => by cases hk), ?_, ?_⟩, fun hm => ⟨rfl, if_neg hm⟩⟩
  · simp [openEntry]
  · simp only [openEntry]
    split <;> simp
  · simp only [openEntry]
    split <;> simp

theorem getElem?_open (id : Nat) : (s.open input now).admissions[id]? =
    if id = s.admissions.length then some (s.openAdmission input now) else s.admissions[id]? := by
  simp only [«open»]
  split
  · rename_i hid
    rw [hid, List.getElem?_concat_length]
  · rename_i hid
    rw [List.getElem?_append]
    split
    · rfl
    · rw [List.getElem?_eq_none (by simp only [List.length_singleton]; omega), List.getElem?_eq_none (by omega)]

theorem open_of_some (ha : s.admissions[id]? = some a) :
    (s.open input now).admissions[id]? = some a := by
  have hlt := (List.getElem?_eq_some_iff.mp ha).1
  rw [getElem?_open, if_neg (by omega)]
  exact ha

theorem newest_open {name : String} : (s.open input now).Newest name id ↔
    if input.name = some name then id = s.admissions.length else s.Newest name id := by
  have hnew : (s.open input now).admissions[s.admissions.length]? = some (s.openAdmission input now) := by
    rw [getElem?_open, if_pos rfl]
  have hnm : (s.openAdmission input now).entry.name = input.name := rfl
  split
  · rename_i heq
    constructor
    · rintro ⟨⟨a, ha, -, -⟩, hl⟩
      by_cases hid : id = s.admissions.length
      · exact hid
      · rw [getElem?_open, if_neg hid] at ha
        have hlt := (List.getElem?_eq_some_iff.mp ha).1
        exact absurd (hnm.trans heq) (hl _ _ hlt hnew)
    · intro hid
      subst hid
      refine ⟨⟨_, hnew, rfl, heq⟩, fun id' a hlt ha => ?_⟩
      rw [getElem?_open, if_neg (by omega)] at ha
      have := (List.getElem?_eq_some_iff.mp ha).1
      omega
  · rename_i hne
    constructor
    · rintro ⟨⟨a, ha, hop, hn⟩, hl⟩
      rw [getElem?_open] at ha
      split at ha
      · cases ha
        exact absurd hn hne
      · exact ⟨⟨a, ha, hop, hn⟩, fun id' b hlt hb => hl id' b hlt (open_of_some hb)⟩
    · rintro ⟨⟨a, ha, hop, hn⟩, hl⟩
      refine ⟨⟨a, open_of_some ha, hop, hn⟩, fun id' b hlt hb => ?_⟩
      rw [getElem?_open] at hb
      split at hb
      · cases hb
        exact hne
      · exact hl id' b hlt hb

theorem inv_open (hinv : Inv recentlyClosedLimit s) : Inv recentlyClosedLimit (s.open input now) := by
  constructor
  · intro id a ha
    rw [getElem?_open] at ha
    split at ha
    · cases ha
      exact openEntry_kept
    · exact hinv.entries id a ha
  · intro id
    have hact : id ∈ (s.open input now).active ↔ id ∈ s.active ∨ id = s.admissions.length := by
      simp [«open»]
    rw [hact, hinv.active, getElem?_open]
    split
    · rename_i hid
      simp [hid, openAdmission]
    · rename_i hid
      simp [hid]
  · intro id hid
    obtain ⟨a, ha, hcl⟩ := hinv.closed id hid
    exact ⟨a, open_of_some ha, hcl⟩
  · exact hinv.distinct
  · exact hinv.limit
  · intro id
    have hkn : id ∈ (s.open input now).bySubscriberId ↔ id ∈ s.bySubscriberId ∨ id = s.admissions.length := by
      simp [«open»]
    have hact : id ∈ (s.open input now).active ↔ id ∈ s.active ∨ id = s.admissions.length := by
      simp [«open»]
    rw [hkn, hact, hinv.known]
    exact or_right_comm
  · intro name id
    rw [newest_open, ← hinv.named]
    cases hi : input.name with
    | none => simp [«open», hi]
    | some n =>
      by_cases heq : name = n
      · subst heq
        simp [«open», hi, eq_comm]
      · simp [«open», hi, Function.update_of_ne heq, Ne.symm heq]

def closed (recentlyClosedLimit : Nat) (s : Registry) (id : Nat) (a : Admission) (now : Instant) : Registry where
  admissions := s.admissions.modify id (closeAdmission now)
  active := s.active.filter (· ≠ id)
  recentlyClosed := s.closedAfter recentlyClosedLimit id
  bySubscriberId := s.bySubscriberId.filter (· ∉ s.evictedBy recentlyClosedLimit id)
  byName := s.dropName id a.entry.name

theorem close_cases (recentlyClosedLimit : Nat) (s : Registry) (id : Nat) (now : Instant) :
    s.close recentlyClosedLimit id now = s ∨ ∃ a, s.admissions[id]? = some a ∧ a.closed = false ∧
      s.close recentlyClosedLimit id now = closed recentlyClosedLimit s id a now := by
  unfold close
  cases h : s.admissions[id]? with
  | none => exact Or.inl rfl
  | some a =>
    cases hcl : a.closed with
    | true => exact Or.inl (if_pos hcl)
    | false => exact Or.inr ⟨a, rfl, hcl, if_neg (by simp [hcl])⟩

theorem getElem?_closed (ha : s.admissions[id]? = some a) (id' : Nat) :
    (closed recentlyClosedLimit s id a now).admissions[id']? =
      if id' = id then some (closeAdmission now a) else s.admissions[id']? := by
  simp only [closed, List.getElem?_modify]
  by_cases hid : id' = id
  · subst hid
    simp [ha]
  · simp [hid, Ne.symm hid]

theorem newest_closed (ha : s.admissions[id]? = some a) {name : String} {id' : Nat} :
    (closed recentlyClosedLimit s id a now).Newest name id' ↔ s.Newest name id' ∧ id' ≠ id := by
  have hnm : (closeAdmission now a).entry.name = a.entry.name := rfl
  constructor
  · rintro ⟨⟨b, hb, hop, hn⟩, hlat⟩
    rw [getElem?_closed ha] at hb
    split at hb
    · cases hb
      cases hop
    · rename_i hne
      refine ⟨⟨⟨b, hb, hop, hn⟩, fun id'' c hlt hc => ?_⟩, hne⟩
      by_cases hid : id'' = id
      · subst hid
        cases ha.symm.trans hc
        have hl := hlat id'' (closeAdmission now a) hlt
        rw [getElem?_closed ha, if_pos rfl] at hl
        exact hl rfl
      · exact hlat id'' c hlt (by rw [getElem?_closed ha, if_neg hid]; exact hc)
  · rintro ⟨⟨⟨b, hb, hop, hn⟩, hlat⟩, hne⟩
    refine ⟨⟨b, by rw [getElem?_closed ha, if_neg hne]; exact hb, hop, hn⟩, fun id'' c hlt hc => ?_⟩
    rw [getElem?_closed ha] at hc
    split at hc
    · rename_i hid
      subst hid
      cases hc
      exact hlat id'' a hlt ha
    · exact hlat id'' c hlt hc

/-- The list of closed admissions: an open one is added, and the oldest make room. -/
theorem closedAfter_spec (hi : Inv recentlyClosedLimit s) (ha : s.admissions[id]? = some a)
    (hop : a.closed = false) :
    (s.closedAfter recentlyClosedLimit id).Nodup ∧
      (s.closedAfter recentlyClosedLimit id).length ≤ recentlyClosedLimit ∧
      ∀ x, (x ∈ s.closedAfter recentlyClosedLimit id → x ∈ s.recentlyClosed ∨ x = id) ∧
        (x ∈ s.recentlyClosed ∨ x = id → (x ∈ s.closedAfter recentlyClosedLimit id ↔
          x ∉ s.evictedBy recentlyClosedLimit id)) ∧
        (x ∈ s.evictedBy recentlyClosedLimit id → x ∈ s.recentlyClosed ∨ x = id) := by
  have habs : id ∉ s.recentlyClosed := fun hm => by
    obtain ⟨b, hb, hcl⟩ := hi.closed id hm
    cases ha.symm.trans hb
    rw [hop] at hcl
    cases hcl
  have hall : (s.recentlyClosed ++ [id]).Nodup :=
    List.nodup_append.mpr ⟨hi.distinct, List.nodup_singleton _, fun x hx y hy => by
      rw [List.mem_singleton.mp hy]
      rintro rfl
      exact habs hx⟩
  have hm (x : Nat) : x ∈ s.recentlyClosed ++ [id] ↔ x ∈ s.recentlyClosed ∨ x = id := by simp
  by_cases hlim : 0 < recentlyClosedLimit
  · have haft : s.closedAfter recentlyClosedLimit id =
        (s.recentlyClosed ++ [id]).drop ((s.recentlyClosed ++ [id]).length - recentlyClosedLimit) := if_pos hlim
    have he : s.evictedBy recentlyClosedLimit id =
        (s.recentlyClosed ++ [id]).take ((s.recentlyClosed ++ [id]).length - recentlyClosedLimit) := if_pos hlim
    rw [haft, he]
    have hl : ((s.recentlyClosed ++ [id]).drop ((s.recentlyClosed ++ [id]).length - recentlyClosedLimit)).length ≤
        recentlyClosedLimit := by
      rw [List.length_drop]
      omega
    generalize (s.recentlyClosed ++ [id]).length - recentlyClosedLimit = k at hl ⊢
    generalize s.recentlyClosed ++ [id] = l at hall hm hl ⊢
    rw [← List.take_append_drop k l] at hall
    obtain ⟨-, hd, hap⟩ := List.nodup_append.mp hall
    refine ⟨hd, hl, fun x => ⟨fun hx => (hm x).mp (List.mem_of_mem_drop hx), fun hx => ?_,
      fun hx => (hm x).mp (List.mem_of_mem_take hx)⟩⟩
    constructor
    · exact fun hx hx' => hap x hx' x hx rfl
    · intro hx'
      have hsp := (hm x).mpr hx
      rw [← List.take_append_drop k l] at hsp
      exact (List.mem_append.mp hsp).resolve_left hx'
  · have hn : s.recentlyClosed = [] := List.eq_nil_of_length_eq_zero (by have := hi.limit; omega)
    have haft : s.closedAfter recentlyClosedLimit id = [] := (if_neg hlim).trans hn
    have he : s.evictedBy recentlyClosedLimit id = [id] := if_neg hlim
    rw [haft, he, hn]
    simp

theorem inv_close (hinv : Inv recentlyClosedLimit s) : Inv recentlyClosedLimit (s.close recentlyClosedLimit id now) := by
  rcases close_cases recentlyClosedLimit s id now with h | ⟨a, ha, hop, h⟩
  · rw [h]
    exact hinv
  · obtain ⟨hnd, hl, hsp⟩ := closedAfter_spec hinv ha hop
    rw [h]
    constructor
    · intro id' b hb
      rw [getElem?_closed ha] at hb
      split at hb
      · cases hb
        exact closedAt_kept (hinv.entries id a ha)
      · exact hinv.entries id' b hb
    · intro id'
      have hact : id' ∈ (closed recentlyClosedLimit s id a now).active ↔ id' ∈ s.active ∧ id' ≠ id := by
        simp [closed]
      rw [hact, hinv.active, getElem?_closed ha]
      split
      · rename_i hid
        simp [hid, closeAdmission]
      · rename_i hid
        simp [hid]
    · intro id' hid'
      rw [getElem?_closed ha]
      split
      · exact ⟨_, rfl, rfl⟩
      · rename_i hne
        exact hinv.closed id' (((hsp id').1 hid').resolve_right hne)
    · exact hnd
    · exact hl
    · intro id'
      have hact : id' ∈ (closed recentlyClosedLimit s id a now).active ↔ id' ∈ s.active ∧ id' ≠ id := by
        simp [closed]
      have hkn : id' ∈ (closed recentlyClosedLimit s id a now).bySubscriberId ↔
          id' ∈ s.bySubscriberId ∧ id' ∉ s.evictedBy recentlyClosedLimit id := by
        simp [closed]
      have hid : id ∈ s.active := (hinv.active id).mpr ⟨a, ha, hop⟩
      obtain ⟨hf, hi, he⟩ := hsp id'
      have hoo : id' ∈ s.active → id' ∉ s.recentlyClosed := fun hact hm => by
        obtain ⟨b, hb, hb'⟩ := (hinv.active id').mp hact
        obtain ⟨c, hc, hc'⟩ := hinv.closed id' hm
        cases hb.symm.trans hc
        rw [hb'] at hc'
        cases hc'
      rw [hkn, hact, hinv.known]
      have hls : id' ∈ (closed recentlyClosedLimit s id a now).recentlyClosed ↔
          id' ∈ s.closedAfter recentlyClosedLimit id := Iff.rfl
      rw [hls]
      by_cases heq : id' = id
      · subst heq
        simp [hid, hi (Or.inr rfl)]
      · by_cases hrc : id' ∈ s.recentlyClosed
        · have hna : id' ∉ s.active := fun h => hoo h hrc
          simp [hrc, hna, hi (Or.inl hrc)]
        · have hnoE : id' ∉ s.evictedBy recentlyClosedLimit id := fun h => by
            rcases he h with h | h
            · exact hrc h
            · exact heq h
          have hnoA : id' ∉ s.closedAfter recentlyClosedLimit id := fun h => by
            rcases hf h with h | h
            · exact hrc h
            · exact heq h
          simp [hrc, heq, hnoE, hnoA]
    · intro name id'
      rw [newest_closed ha, ← hinv.named]
      have hoth : ∀ x, s.byName name = some x → a.entry.name ≠ some name → x ≠ id := by
        rintro x hx hne rfl
        obtain ⟨⟨b, hb, -, hn⟩, -⟩ := (hinv.named name x).mp hx
        cases ha.symm.trans hb
        exact hne hn
      have hbn : (closed recentlyClosedLimit s id a now).byName = s.dropName id a.entry.name := rfl
      rw [hbn]
      cases hnm : a.entry.name with
      | none =>
        rw [dropName]
        exact ⟨fun h => ⟨h, hoth id' h (by rw [hnm]; simp)⟩, fun h => h.1⟩
      | some n =>
        rw [dropName]
        split
        · rename_i hcr
          by_cases heq : name = n
          · subst heq
            rw [Function.update_self]
            constructor
            · intro hn
              cases hn
            · intro hn
              exact absurd (Option.some.inj (hn.1.symm.trans hcr)) hn.2
          · rw [Function.update_of_ne heq]
            exact ⟨fun h => ⟨h, hoth id' h (by rw [hnm]; simpa using Ne.symm heq)⟩, fun h => h.1⟩
        · rename_i hcr
          constructor
          · intro hn
            refine ⟨hn, ?_⟩
            by_cases heq : name = n
            · subst heq
              rintro rfl
              exact hcr hn
            · exact hoth id' hn (by rw [hnm]; simpa using Ne.symm heq)
          · exact fun hn => hn.1

theorem inv_step (hi : Inv recentlyClosedLimit s) (call : Call × Instant) :
    Inv recentlyClosedLimit (step recentlyClosedLimit call s) := by
  obtain ⟨call, now⟩ := call
  cases call with
  | «open» input => exact inv_open hi
  | recordEnqueued id seq desiredSize => exact inv_amended hi amended_recordEnqueued
  | recordStreamAccepted id seq desiredSize => exact inv_amended hi amended_recordStreamAccepted
  | recordKeepalive id desiredSize => exact inv_amended hi amended_recordKeepalive
  | close id => exact inv_close hi
  | acknowledge input =>
    simp only [step]
    cases hack : s.acknowledge input now with
    | error e => exact hi
    | ok pair => exact inv_amended hi (amended_acknowledge hi hack).1

def Grown (s s' : Registry) : Prop :=
  ∀ (id : Nat) a, s.admissions[id]? = some a → ∃ a', s'.admissions[id]? = some a' ∧ a.entry.Later a'.entry ∧
    (a.closed = true → a'.closed = true ∧ (id ∉ s.recentlyClosed → id ∉ s'.recentlyClosed))

theorem Grown.refl (s : Registry) : Grown s s := fun _ a ha => ⟨a, ha, .refl _, fun h => ⟨h, id⟩⟩

theorem Grown.trans {a b c : Registry} (h : Grown a b) (h' : Grown b c) : Grown a c := by
  intro id x hx
  obtain ⟨y, hy, hl, hcl⟩ := h id x hx
  obtain ⟨z, hz, hl', hcl'⟩ := h' id y hy
  refine ⟨z, hz, hl.trans hl', fun hc => ?_⟩
  obtain ⟨hc', he⟩ := hcl hc
  obtain ⟨hc'', he'⟩ := hcl' hc'
  exact ⟨hc'', fun hx => he' (he hx)⟩

theorem Amended.grown (h : Amended s s') : Grown s s' := by
  intro id a ha
  obtain ⟨a', ha', hk⟩ := h.after ha
  exact ⟨a', ha', hk.later, fun hc => ⟨hk.closed.trans hc, by rw [h.rest.2.1]; exact fun hid => hid⟩⟩

theorem grown_step (hi : Inv recentlyClosedLimit s) (call : Call × Instant) :
    Grown s (step recentlyClosedLimit call s) := by
  obtain ⟨call, now⟩ := call
  cases call with
  | «open» input => exact fun id a ha => ⟨a, open_of_some ha, .refl _, fun hc => ⟨hc, fun hid => hid⟩⟩
  | recordEnqueued id seq desiredSize => exact amended_recordEnqueued.grown
  | recordStreamAccepted id seq desiredSize => exact amended_recordStreamAccepted.grown
  | recordKeepalive id desiredSize => exact amended_recordKeepalive.grown
  | close id =>
    simp only [step]
    rcases close_cases recentlyClosedLimit s id now with h | ⟨a, ha, hop, h⟩
    · rw [h]
      exact .refl s
    · rw [h]
      obtain ⟨-, -, hsp⟩ := closedAfter_spec hi ha hop
      intro id' b hb
      by_cases hid : id' = id
      · subst hid
        cases ha.symm.trans hb
        refine ⟨closeAdmission now a, by rw [getElem?_closed ha, if_pos rfl], ⟨.refl _, .refl _, .refl _⟩, fun hc => ?_⟩
        rw [hop] at hc
        cases hc
      · refine ⟨b, by rw [getElem?_closed ha, if_neg hid]; exact hb, .refl _, fun hc => ⟨hc, fun hn hm => ?_⟩⟩
        exact hn (((hsp id').1 hm).resolve_right hid)
  | acknowledge input =>
    simp only [step]
    cases hack : s.acknowledge input now with
    | error e => exact .refl s
    | ok pair => exact (amended_acknowledge hi hack).1.grown

theorem step_closed {call : Call} (hc : ∀ input, call ≠ .acknowledge input)
    (ha : s.admissions[id]? = some a) (hcl : a.closed = true) :
    (step recentlyClosedLimit (call, now) s).admissions[id]? = some a := by
  cases call with
  | «open» input => exact open_of_some ha
  | recordEnqueued id' seq desiredSize =>
    simp only [step, recordEnqueued]
    split
    · exact ha
    · exact amend_closed ha hcl
  | recordStreamAccepted id' seq desiredSize =>
    simp only [step, recordStreamAccepted]
    split
    · exact ha
    · exact amend_closed ha hcl
  | recordKeepalive id' desiredSize => exact amend_closed ha hcl
  | close id' =>
    simp only [step]
    rcases close_cases recentlyClosedLimit s id' now with h | ⟨b, hb, hop, h⟩
    · rw [h]
      exact ha
    · rw [h, getElem?_closed hb, if_neg]
      · exact ha
      · rintro rfl
        cases ha.symm.trans hb
        rw [hop] at hcl
        cases hcl
  | acknowledge input => exact absurd rfl (hc input)

end Steps

def Takes (s : Registry) (input : AckRequest) : Prop :=
  ∃ a seq acceptedSeq, s.admissions[input.subscriberId]? = some a ∧
    (a.closed = false ∨ input.subscriberId ∈ s.recentlyClosed) ∧ a.entry.receiptMode = .consumerAckV1 ∧
    a.receiptToken = some input.receiptToken ∧ positiveSeq input.seq = some seq ∧
    a.entry.lastStreamAcceptedSeq = some acceptedSeq ∧ seq ≤ acceptedSeq

structure Accounted (recentlyClosedLimit : Nat) (s : Registry) : Prop where
  entries : ∀ (id : Nat) a, s.admissions[id]? = some a → a.entry.Accounted
  taken : ∀ input now, (∃ response s', s.acknowledge input now = .ok (response, s')) ↔ s.Takes input
  refused : ∀ input now error, s.acknowledge input now = .error error →
    step recentlyClosedLimit (.acknowledge input, now) s = s
  unchanged : ∀ input now response s', s.acknowledge input now = .ok (response, s') →
    response.disposition ≠ .advanced → s' = s
  frozen : ∀ call now, (∀ input, call ≠ .acknowledge input) → ∀ (id : Nat) a, s.admissions[id]? = some a →
    a.closed = true → (step recentlyClosedLimit (call, now) s).admissions[id]? = some a
  kept : s.recentlyClosed.length ≤ recentlyClosedLimit ∧ s.recentlyClosed.Nodup ∧
    ∀ id ∈ s.recentlyClosed, ∃ a, s.admissions[id]? = some a ∧ a.closed = true
  named : ∀ name id, s.findByName name = some id ↔ s.Newest name id

theorem receive_isOk {e : Entry} {input : AckRequest} {seq : Option Int} {now : Instant} :
    (∃ response e', e.receive input seq now = .ok (response, e')) ↔
      ∃ n acceptedSeq, seq = some n ∧ e.lastStreamAcceptedSeq = some acceptedSeq ∧ n ≤ acceptedSeq := by
  cases seq with
  | none => simp [Entry.receive]
  | some n =>
    cases hacc : e.lastStreamAcceptedSeq with
    | none => simp [Entry.receive, hacc]
    | some acceptedSeq =>
      simp only [Entry.receive, hacc]
      by_cases hle : acceptedSeq < n
      · simp [hle]
      · rw [if_neg hle]
        exact ⟨fun _ => ⟨n, acceptedSeq, rfl, rfl, Int.not_lt.mp hle⟩, fun _ => ⟨_, _, rfl⟩⟩

theorem Inv.accounted {s : Registry} (hi : Inv recentlyClosedLimit s) : Accounted recentlyClosedLimit s where
  entries := fun id a ha => (hi.entries id a ha).toAccounted
  taken := by
    intro input now
    have hkn (a : Admission) : s.known input.subscriberId = some a ↔ s.admissions[input.subscriberId]? = some a ∧
        (a.closed = false ∨ input.subscriberId ∈ s.recentlyClosed) := by
      rw [known_eq_some, hi.known, hi.active]
      constructor
      · rintro ⟨⟨b, hb, hop⟩ | hk, ha⟩
        · cases ha.symm.trans hb
          exact ⟨ha, Or.inl hop⟩
        · exact ⟨ha, Or.inr hk⟩
      · rintro ⟨ha, hop | hk⟩
        · exact ⟨Or.inl ⟨a, ha, hop⟩, ha⟩
        · exact ⟨Or.inr hk, ha⟩
    constructor
    · rintro ⟨response, s', h⟩
      obtain ⟨a, entry, ha, hm, ht, hr, -⟩ := acknowledge_ok.mp h
      obtain ⟨n, acceptedSeq, hs, hacc, hle⟩ := receive_isOk.mp ⟨response, entry, hr⟩
      exact ⟨a, n, acceptedSeq, ((hkn a).mp ha).1, ((hkn a).mp ha).2, hm, ht, hs, hacc, hle⟩
    · rintro ⟨a, n, acceptedSeq, ha, hk, hm, ht, hs, hacc, hle⟩
      obtain ⟨response, entry, hr⟩ : ∃ response entry,
          a.entry.receive input (positiveSeq input.seq) now = .ok (response, entry) :=
        receive_isOk.mpr ⟨n, acceptedSeq, hs, hacc, hle⟩
      exact ⟨response, _, acknowledge_ok.mpr ⟨a, entry, (hkn a).mpr ⟨ha, hk⟩, hm, ht, hr, rfl⟩⟩
  refused := by
    intro input now error h
    simp only [step, h]
    rfl
  unchanged := fun input now response s' h => (amended_acknowledge hi h).2
  frozen := fun call now hc id a ha hcl => step_closed hc ha hcl
  kept := ⟨hi.limit, hi.distinct, hi.closed⟩
  named := hi.named

theorem registry_accounted (recentlyClosedLimit : Nat) (before after : List (Call × Instant)) :
    Accounted recentlyClosedLimit (run (step recentlyClosedLimit) before empty) ∧
      Grown (run (step recentlyClosedLimit) before empty) (run (step recentlyClosedLimit) (before ++ after) empty) := by
  have hi : Inv recentlyClosedLimit (run (step recentlyClosedLimit) before empty) :=
    run_invariant (I := Inv recentlyClosedLimit) (fun _ _ h _ => inv_step h _) inv_empty meets_true
  refine ⟨hi.accounted, ?_⟩
  rw [run_append]
  exact run_related (I := Inv recentlyClosedLimit) Grown.refl (fun _ _ _ => Grown.trans) (fun _ _ h _ => inv_step h _)
    (fun _ _ h _ => grown_step h _) hi meets_true

end Registry

end HrcRuntime.SubscriberAdmission
