import HrcRuntime.BoundedEventStream

namespace HrcRuntime.BoundedEventStream

open Spans Schedule Json
open List (mem_map_of_mem mem_append_left mem_cons_self mem_singleton mem_cons_of_mem cons_append length_cons
  pairwise_append filterMap_cons_some not_mem_nil mem_map)
open Option (getD_some)

variable {encode : Record → Nat}

def seqs (events : List LifecycleEvent) : List Nat := events.map (·.hrcSeq)

def lowerAt (entry : EncodedRecord encode) : Nat := lowerOf entry.record

def upperAt (entry : EncodedRecord encode) : Nat := upperOf entry.record

def Proper (appended : List LifecycleEvent) : Record → Prop
  | .event _ event => event ∈ appended ∧ 0 < event.hrcSeq
  | .gap _ _ afterHrcSeq beforeHrcSeq dropped =>
    (∃ x ∈ seqs appended, beforeHrcSeq ≤ x) ∧ ∀ n, dropped = some n → n = within (seqs appended) afterHrcSeq beforeHrcSeq
  | _ => False

variable {appended : List LifecycleEvent} {event : LifecycleEvent}

variable {q : Queue encode} {r : Record} {top : Nat}

theorem Proper.positionOf (h : Proper appended r) :
    positionOf r = some (upperOf r) := by
  cases r with
  | event l e => rfl
  | gap l reason a b d => rfl
  | ready l a b => cases h
  | ledgerReplaced a b => cases h
  | homeUnreachable a b => cases h

theorem Proper.upper_le (h : Proper appended r) :
    ∃ x ∈ seqs appended, upperOf r ≤ x := by
  cases r with
  | event l e => exact ⟨e.hrcSeq, mem_map_of_mem h.1, le_rfl⟩
  | gap l reason a b d => exact h.1
  | ready l a b => cases h
  | ledgerReplaced a b => cases h
  | homeUnreachable a b => cases h

theorem Proper.droppedBy (h : Proper appended r)
    (hasc : (seqs appended).Pairwise (· < ·)) {n : Nat} (hn : droppedBy r = some n) :
    n = within (seqs appended) (lowerOf r) (upperOf r) := by
  cases r with
  | event l e =>
    cases hn
    exact (within_of_mem hasc (mem_map_of_mem h.1) h.2).symm
  | gap l reason a b d => exact h.2 n hn
  | ready l a b => cases h
  | ledgerReplaced a b => cases h
  | homeUnreachable a b => cases h

theorem Proper.append (h : Proper appended r)
    (hl : ∀ x ∈ seqs appended, x < event.hrcSeq) : Proper (appended ++ [event]) r := by
  cases r with
  | event l e => exact ⟨mem_append_left _ h.1, h.2⟩
  | gap l reason a b d =>
    obtain ⟨⟨x, hx, hle⟩, hc⟩ := h
    have hb := hl x hx
    simp only [Proper, seqs, List.map_append, List.map_cons, List.map_nil] at hx hc ⊢
    refine ⟨⟨x, mem_append_left _ hx, hle⟩, fun n hn => ?_⟩
    rw [within_congr fun y _ hy => by omega]
    exact hc n hn
  | ready l a b => cases h
  | ledgerReplaced a b => cases h
  | homeUnreachable a b => cases h

@[simp] theorem totalBytes_append (l l' : List (EncodedRecord encode)) :
    totalBytes (l ++ l') = totalBytes l + totalBytes l' := by
  induction l with
  | nil => simp [totalBytes]
  | cons e l ih => simp [totalBytes, ih, Nat.add_assoc]

/-- The byte limit has room for any one gap record whose numbers are at most `top`. -/
def HoldsGap (encode : Record → Nat) (ledgerIncarnationId : String) (limits : Limits) (top : Nat) : Prop :=
  0 < limits.maxRecords ∧ ∀ reason afterHrcSeq beforeHrcSeq dropped, afterHrcSeq ≤ top → beforeHrcSeq ≤ top →
    (∀ n ∈ dropped, n ≤ top) →
      encode (.gap ledgerIncarnationId reason afterHrcSeq beforeHrcSeq dropped) ≤ limits.maxBytes

structure Sound (appended : List LifecycleEvent) (q : Queue encode) : Prop where
  size : q.byteSize = totalBytes q.entries
  records : q.entries.length ≤ q.limits.maxRecords
  bytes : totalBytes q.entries ≤ q.limits.maxBytes
  proper : ∀ entry ∈ q.entries, Proper appended entry.record
  tiles : Tiles lowerAt upperAt (seqs appended) q.deliveredHrcSeq q.entries

/-- The fields no operation but `take` and `discardThrough` changes. -/
def SameBase (q q' : Queue encode) : Prop :=
  q'.ledgerIncarnationId = q.ledgerIncarnationId ∧ q'.limits = q.limits ∧ q'.deliveredHrcSeq = q.deliveredHrcSeq

section MakeRoom

variable {top : Nat} {appended : List LifecycleEvent} {q : Queue encode} {incoming : EncodedRecord encode}

variable {rest : List (EncodedRecord encode)} {r : EncodedRecord encode} {dropped : Option Nat} {before : Nat}

theorem liveQueueGap_fits (hg : HoldsGap encode q.ledgerIncarnationId q.limits top)
    (hasc : (seqs appended).Pairwise (· < ·)) (hbef : before ≤ top)
    (hd : q.deliveredHrcSeq ≤ before)
    (hdr : ∀ n, dropped = some n → n = within (seqs appended) q.deliveredHrcSeq before) :
    (q.liveQueueGap before dropped).byteLength ≤ q.limits.maxBytes := by
  apply hg.2
  · omega
  · exact hbef
  · intro n hn
    rw [hdr n hn]
    have := within_le hasc q.deliveredHrcSeq before
    omega

theorem shift_dropped (hasc : (seqs appended).Pairwise (· < ·))
    (ht : Tiles lowerAt upperAt (seqs appended) before (r :: rest))
    (hr : Proper appended r.record) (hd : q.deliveredHrcSeq ≤ before)
    (hdr : ∀ n, dropped = some n → n = within (seqs appended) q.deliveredHrcSeq before) :
    ∀ n, addDropped dropped (droppedBy r.record) = some n →
      n = within (seqs appended) q.deliveredHrcSeq (upperAt r) := by
  obtain ⟨hp, hlt, hs, -⟩ := ht
  intro n hn
  cases dropped with
  | none => cases hn
  | some m =>
    cases hk : droppedBy r.record with
    | none => rw [hk] at hn; cases hn
    | some k =>
      rw [hk] at hn
      cases hn
      have hm := hdr m rfl
      have hrs := hr.droppedBy hasc hk
      have hg : within (seqs appended) before (lowerAt r) = 0 := within_eq_zero hs
      have hsp := within_add (seqs appended) hp hlt.le
      have hwh := within_add (seqs appended) hd (hp.trans hlt.le)
      simp only [lowerAt, upperAt] at hg hsp hwh ⊢
      omega

theorem upper_shift
    (ht : Tiles lowerAt upperAt (seqs appended) before (r :: rest)) (hr : Proper appended r.record) :
    max before ((positionOf r.record).getD before) = upperAt r := by
  obtain ⟨hp, hlt, -, -⟩ := ht
  rw [hr.positionOf]
  simp only [lowerAt, upperAt, getD_some] at hp hlt ⊢
  omega

/-- The loop ends with a gap for the records it shifted and the others behind it, within the limits. -/
theorem makeRoom_sound (hg : HoldsGap encode q.ledgerIncarnationId q.limits top)
    (hasc : (seqs appended).Pairwise (· < ·)) (htop : ∀ x ∈ seqs appended, x ≤ top)
    {entries : List (EncodedRecord encode)}
    (hpr : ∀ entry ∈ entries ++ [incoming], Proper appended entry.record)
    (ht : Tiles lowerAt upperAt (seqs appended) before (entries ++ [incoming]))
    (hd : q.deliveredHrcSeq ≤ before)
    (hdr : ∀ n, dropped = some n → n = within (seqs appended) q.deliveredHrcSeq before) :
    Sound appended (q.makeRoom incoming entries (totalBytes entries) dropped before) ∧
      SameBase q (q.makeRoom incoming entries (totalBytes entries) dropped before) := by
  induction entries generalizing before dropped with
  | nil =>
    have hin := hpr incoming mem_cons_self
    have hn := shift_dropped hasc ht hin hd hdr
    have hup := upper_shift ht hin
    obtain ⟨hp, hlt, -, hl⟩ := ht
    refine ⟨⟨?_, hg.1, ?_, ?_, ?_⟩, rfl, rfl, rfl⟩
    · simp only [Queue.makeRoom, totalBytes, Nat.add_zero]
    · simp only [Queue.makeRoom, totalBytes, Nat.add_zero, hup]
      obtain ⟨x, hx, hle⟩ := hin.upper_le
      refine liveQueueGap_fits hg hasc ?_ ?_ hn
      · exact hle.trans (htop x hx)
      · omega
    · intro entry he
      rw [mem_singleton.mp he, hup]
      exact ⟨hin.upper_le, hn⟩
    · simp only [Queue.makeRoom, hup]
      exact ⟨le_rfl, show q.deliveredHrcSeq < upperAt incoming by omega, fun x _ hx => hx, hl⟩
  | cons removed entries ih =>
    have hr := hpr removed mem_cons_self
    have hn := shift_dropped hasc ht hr hd hdr
    have hup := upper_shift ht hr
    obtain ⟨hp, hlt, -, hrs⟩ := ht
    have hbyt : totalBytes (removed :: entries) - removed.byteLength = totalBytes entries := by
      simp only [totalBytes, Nat.add_sub_cancel_left]
    have hp' : ∀ entry ∈ entries ++ [incoming], Proper appended entry.record :=
      fun entry he => hpr entry (mem_cons_of_mem _ he)
    have hd' : q.deliveredHrcSeq ≤ upperAt removed := by omega
    simp only [Queue.makeRoom, hup, hbyt]
    split
    · rename_i hf
      simp only [Queue.fitsPair, Bool.and_eq_true, decide_eq_true_eq] at hf
      refine ⟨⟨?_, ?_, ?_, ?_, ?_⟩, rfl, rfl, rfl⟩
      · simp only [Queue.push, Queue.prepend, totalBytes_append, totalBytes, cons_append]
        omega
      · simp only [Queue.push, Queue.prepend, List.length_append, length_cons, List.length_nil]
        omega
      · simp only [Queue.push, Queue.prepend, totalBytes_append, totalBytes, cons_append]
        omega
      · intro entry he
        rcases List.mem_cons.mp he with rfl | he
        · exact ⟨hr.upper_le, hn⟩
        · exact hp' entry he
      · exact ⟨le_rfl, show q.deliveredHrcSeq < upperAt removed by omega, fun x _ hx => hx, hrs⟩
    · exact ih hp' hrs hd' hn

end MakeRoom

theorem appendEncoded_sound
    {incoming : EncodedRecord encode} (hg : HoldsGap encode q.ledgerIncarnationId q.limits top)
    (hasc : (seqs appended).Pairwise (· < ·)) (htop : ∀ x ∈ seqs appended, x ≤ top)
    (hs : q.byteSize = totalBytes q.entries) (hin : incoming.byteLength ≤ q.limits.maxBytes)
    (hp : ∀ entry ∈ q.entries ++ [incoming], Proper appended entry.record)
    (ht : Tiles lowerAt upperAt (seqs appended) q.deliveredHrcSeq (q.entries ++ [incoming])) :
    ∃ q', q.appendEncoded incoming = .ok q' ∧ Sound appended q' ∧ SameBase q q' := by
  simp only [Queue.appendEncoded, if_neg (Nat.not_lt.mpr hin)]
  split
  · rename_i hf
    simp only [Queue.fits, Bool.and_eq_true, decide_eq_true_eq] at hf
    refine ⟨_, rfl, ⟨?_, ?_, ?_, hp, ht⟩, rfl, rfl, rfl⟩
    · simp only [Queue.push, totalBytes_append, totalBytes, hs, Nat.add_zero]
    · simp only [Queue.push, List.length_append, length_cons, List.length_nil]
      omega
    · simp only [Queue.push, totalBytes_append, totalBytes]
      omega
  · refine ⟨_, rfl, ?_⟩
    rw [hs]
    refine makeRoom_sound hg hasc htop hp ht le_rfl fun n hn => ?_
    cases hn
    exact (within_eq_zero fun x _ hx => hx).symm

theorem incoming_sound {ledgerIncarnationId : String} {limits : Limits}
    (hg : HoldsGap encode ledgerIncarnationId limits top)
    (hasc : (seqs appended).Pairwise (· < ·)) (hev : event ∈ appended) (hp : 0 < event.hrcSeq)
    (ht : event.hrcSeq ≤ top) :
    let incoming : EncodedRecord encode := eventOrOversizeGap ledgerIncarnationId event limits.maxBytes
    incoming.byteLength ≤ limits.maxBytes ∧ Proper appended incoming.record ∧
      lowerAt incoming = event.hrcSeq - 1 ∧ upperAt incoming = event.hrcSeq := by
  intro incoming
  have hm : event.hrcSeq ∈ seqs appended := mem_map_of_mem hev
  by_cases hf : encode (.event ledgerIncarnationId event) ≤ limits.maxBytes
  · have h : incoming = encodeBoundedEventRecord (.event ledgerIncarnationId event) := if_pos hf
    rw [h]
    exact ⟨hf, ⟨hev, hp⟩, rfl, rfl⟩
  · have h : incoming = encodeBoundedEventRecord
        (.gap ledgerIncarnationId .eventOversize (event.hrcSeq - 1) event.hrcSeq (some 1)) := if_neg hf
    rw [h]
    refine ⟨hg.2 _ _ _ _ (by omega) ht ?_, ⟨⟨event.hrcSeq, hm, le_rfl⟩, ?_⟩, rfl, rfl⟩
    · intro n hn
      cases hn
      omega
    · intro n hn
      cases hn
      exact (within_of_mem hasc hm hp).symm

theorem appendEvent_sound
    (hg : HoldsGap encode q.ledgerIncarnationId q.limits top) (hsnd : Sound appended q)
    (hasc : (seqs (appended ++ [event])).Pairwise (· < ·)) (ht : ∀ x ∈ seqs (appended ++ [event]), x ≤ top)
    (hd : q.deliveredHrcSeq < event.hrcSeq) :
    ∃ q', q.appendEvent event = .ok q' ∧ Sound (appended ++ [event]) q' ∧ SameBase q q' := by
  have hs : seqs (appended ++ [event]) = seqs appended ++ [event.hrcSeq] := by simp [seqs]
  have hm : event.hrcSeq ∈ seqs (appended ++ [event]) := by simp [hs]
  have hl : ∀ x ∈ seqs appended, x < event.hrcSeq := by
    rw [hs] at hasc
    exact fun x hx => (pairwise_append.mp hasc).2.2 x hx _ mem_cons_self
  obtain ⟨hin, hp, hlo, hhi⟩ := incoming_sound hg hasc (List.mem_append_right _ mem_cons_self)
    (by omega : 0 < event.hrcSeq) (ht _ hm)
  refine appendEncoded_sound hg hasc ht hsnd.size hin ?_ ?_
  · intro entry he
    rcases List.mem_append.mp he with he | he
    · exact (hsnd.proper entry he).append hl
    · rw [mem_singleton.mp he]
      exact hp
  · rw [hs]
    refine hsnd.tiles.snoc hl hd (fun entry he => ?_) hlo hhi
    obtain ⟨x, hx, hle⟩ := (hsnd.proper entry he).upper_le
    exact Nat.lt_of_le_of_lt hle (hl x hx)

theorem take_sound {q' : Queue encode} {entry : EncodedRecord encode}
    (hsnd : Sound appended q) (ht : q.take = some (entry, q')) :
    q.entries = entry :: q'.entries ∧ q'.ledgerIncarnationId = q.ledgerIncarnationId ∧ q'.limits = q.limits ∧
      q'.deliveredHrcSeq = upperAt entry ∧ Sound appended q' := by
  obtain ⟨hs, hr, hbyt, hpr, htl⟩ := hsnd
  cases hen : q.entries with
  | nil =>
    simp only [Queue.take, Queue.shiftRaw, hen] at ht
    cases ht
  | cons first rest =>
    rw [hen] at hs hr hbyt hpr htl
    simp only [Queue.take, Queue.shiftRaw, hen, Option.map_some, Option.some.injEq, Prod.mk.injEq] at ht
    obtain ⟨rfl, rfl⟩ := ht
    have hf := hpr first mem_cons_self
    obtain ⟨hp, hlt, -, hrs⟩ := htl
    have hm : max q.deliveredHrcSeq (upperOf first.record) = upperAt first := by
      simp only [upperAt] at hlt ⊢
      omega
    simp only [totalBytes, length_cons] at hs hr hbyt
    refine ⟨rfl, rfl, rfl, ?_, ⟨?_, ?_, ?_, ?_, ?_⟩⟩
    · simp only [hf.positionOf, hm]
    · simp only
      omega
    · simp only
      omega
    · simp only
      omega
    · exact fun entry he => hpr entry (mem_cons_of_mem _ he)
    · simp only [hf.positionOf, hm]
      exact hrs

section Discard

variable {appended : List LifecycleEvent} {hrcSeq : Nat} {entry : EncodedRecord encode}

theorem retainPast_below (hp : Proper appended entry.record) (h : upperAt entry ≤ hrcSeq) :
    retainPast hrcSeq entry = none := by
  simp only [retainPast, hp.positionOf]
  exact if_pos h

theorem retainPast_above (hp : Proper appended entry.record) (hlt : lowerAt entry < upperAt entry)
    (h : hrcSeq ≤ lowerAt entry) : retainPast hrcSeq entry = some entry := by
  have hup : ¬ upperOf entry.record ≤ hrcSeq := Nat.not_le.mpr (Nat.lt_of_le_of_lt h hlt)
  simp only [retainPast, hp.positionOf, if_neg hup]
  split
  · rename_i hr
    rw [lowerAt, hr] at h
    exact if_neg (Nat.not_lt.mpr h)
  · rfl

theorem retainPast_across (hp : Proper appended entry.record) (hlo : lowerAt entry < hrcSeq)
    (hhi : hrcSeq < upperAt entry) : ∃ trimmed, retainPast hrcSeq entry = some trimmed ∧
      Proper appended trimmed.record ∧ lowerAt trimmed = hrcSeq ∧ upperAt trimmed = upperAt entry := by
  have hup : ¬ upperOf entry.record ≤ hrcSeq := Nat.not_le.mpr hhi
  simp only [retainPast, hp.positionOf, if_neg hup]
  obtain ⟨record, byteLength, he⟩ := entry
  cases record with
  | event l e =>
    simp only [lowerAt, upperAt, lowerOf, upperOf, positionOf, getD_some] at hlo hhi
    omega
  | gap l reason a b d =>
    refine ⟨_, if_pos hlo, ⟨hp.1, fun n hn => ?_⟩, rfl, rfl⟩
    cases hn
  | ready l a b => cases hp
  | ledgerReplaced a b => cases hp
  | homeUnreachable a b => cases hp

variable {entries : List (EncodedRecord encode)}

variable {p : Nat}

theorem retainPast_rest
    (hpr : ∀ entry ∈ entries, Proper appended entry.record)
    (ht : Tiles lowerAt upperAt (seqs appended) p entries) (h : hrcSeq ≤ p) :
    entries.filterMap (retainPast hrcSeq) = entries := by
  induction entries generalizing p with
  | nil => rfl
  | cons r rest ih =>
    obtain ⟨hp, hlt, -, hr⟩ := ht
    rw [filterMap_cons_some (retainPast_above (hpr r mem_cons_self) hlt (h.trans hp)),
      ih (fun entry he => hpr entry (mem_cons_of_mem _ he)) hr (by omega)]

/-- The gap that reaches across the discard point, once cut, fits the room the queue has left and the room the
discarded records free. -/
def Queue.TrimFits (q : Queue encode) (hrcSeq : Nat) : Prop :=
  ∀ entry ∈ q.entries, lowerAt entry < hrcSeq → hrcSeq < upperAt entry → ∀ trimmed ∈ retainPast hrcSeq entry,
    q.byteSize + trimmed.byteLength ≤ q.limits.maxBytes + entry.byteLength +
      totalBytes (q.entries.filter fun entry => upperAt entry ≤ hrcSeq)

instance decidableTrimFits (q : Queue encode) (hrcSeq : Nat) : Decidable (q.TrimFits hrcSeq) :=
  inferInstanceAs (Decidable (∀ entry ∈ q.entries, _ → _ → ∀ trimmed ∈ retainPast hrcSeq entry, _))

theorem filterMap_retainPast (hrcSeq : Nat)
    (hpr : ∀ entry ∈ entries, Proper appended entry.record)
    (htl : Tiles lowerAt upperAt (seqs appended) p entries) :
    (∀ entry ∈ entries.filterMap (retainPast hrcSeq), Proper appended entry.record) ∧
      Tiles lowerAt upperAt (seqs appended) (max p hrcSeq) (entries.filterMap (retainPast hrcSeq)) ∧
      (entries.filterMap (retainPast hrcSeq)).length ≤ entries.length := by
  induction entries generalizing p with
  | nil => exact ⟨hpr, fun x hx => (htl x hx).trans (Nat.le_max_left _ _), le_rfl⟩
  | cons r rest ih =>
    have hr := hpr r mem_cons_self
    have hp' : ∀ entry ∈ rest, Proper appended entry.record := fun e he => hpr e (mem_cons_of_mem _ he)
    obtain ⟨hp, hlt, hsk, hrs⟩ := htl
    by_cases hblw : upperAt r ≤ hrcSeq
    · obtain ⟨hk, ht, hl⟩ := ih hp' hrs
      rw [List.filterMap_cons_none (retainPast_below hr hblw)]
      refine ⟨hk, ?_, hl.trans (Nat.le_succ _)⟩
      have hs : max p hrcSeq = max (upperAt r) hrcSeq := by omega
      rw [hs]
      exact ht
    · have hs := retainPast_rest hp' hrs (by omega : hrcSeq ≤ upperAt r)
      by_cases habv : hrcSeq ≤ lowerAt r
      · rw [filterMap_cons_some (retainPast_above hr hlt habv), hs]
        exact ⟨hpr, ⟨by omega, hlt, fun x hx hlt => hsk x hx (by omega), hrs⟩, le_rfl⟩
      · obtain ⟨trimmed, htr, hk, hlo, hhi⟩ := retainPast_across hr (by omega) (by omega : hrcSeq < upperAt r)
        rw [filterMap_cons_some htr, hs]
        refine ⟨?_, ⟨by omega, by omega, fun x _ hlt => by omega, hhi ▸ hrs⟩, le_rfl⟩
        intro entry hent
        rcases List.mem_cons.mp hent with rfl | hent
        · exact hk
        · exact hp' entry hent

theorem freed_rest
    (ht : Tiles lowerAt upperAt (seqs appended) p entries) (h : hrcSeq ≤ p) :
    entries.filter (fun entry => upperAt entry ≤ hrcSeq) = [] := by
  refine List.filter_eq_nil_iff.mpr fun entry he => ?_
  obtain ⟨hlo, hlt⟩ := ht.bounds entry he
  simp only [decide_eq_true_eq]
  omega

/-- What is left fits exactly when the one record that is cut does. -/
theorem totalBytes_retained {room : Nat}
    (hpr : ∀ entry ∈ entries, Proper appended entry.record)
    (ht : Tiles lowerAt upperAt (seqs appended) p entries) (hrm : totalBytes entries ≤ room) :
    totalBytes (entries.filterMap (retainPast hrcSeq)) ≤ room ↔
      ∀ entry ∈ entries, lowerAt entry < hrcSeq → hrcSeq < upperAt entry → ∀ trimmed ∈ retainPast hrcSeq entry,
        totalBytes entries + trimmed.byteLength ≤
          room + entry.byteLength + totalBytes (entries.filter fun entry => upperAt entry ≤ hrcSeq) := by
  induction entries generalizing p with
  | nil => exact ⟨fun _ _ h => absurd h not_mem_nil, fun _ => hrm⟩
  | cons r rest ih =>
    have hr := hpr r mem_cons_self
    have hp' : ∀ entry ∈ rest, Proper appended entry.record := fun e he => hpr e (mem_cons_of_mem _ he)
    obtain ⟨hp, hlt, hs, hrs⟩ := ht
    simp only [totalBytes] at hrm ⊢
    by_cases hblw : upperAt r ≤ hrcSeq
    · have hfr : (r :: rest).filter (fun entry => upperAt entry ≤ hrcSeq) =
          r :: rest.filter fun entry => upperAt entry ≤ hrcSeq := List.filter_cons_of_pos (decide_eq_true hblw)
      rw [List.filterMap_cons_none (retainPast_below hr hblw), ih hp' hrs (by omega), hfr]
      simp only [totalBytes, List.forall_mem_cons]
      constructor
      · intro h
        refine ⟨fun _ hhi => absurd hhi (by omega), fun entry hent hlo hhi trimmed htr => ?_⟩
        have := h entry hent hlo hhi trimmed htr
        omega
      · intro h entry hent hlo hhi trimmed htr
        have := h.2 entry hent hlo hhi trimmed htr
        omega
    · have hps : hrcSeq ≤ upperAt r := by omega
      have hfr : (r :: rest).filter (fun entry => upperAt entry ≤ hrcSeq) = [] :=
        (List.filter_cons_of_neg (by simpa using hblw)).trans (freed_rest hrs hps)
      rw [hfr]
      have hf : ∀ entry ∈ rest, ¬ lowerAt entry < hrcSeq := fun entry hent => by
        have := (hrs.bounds entry hent).1
        omega
      by_cases habv : hrcSeq ≤ lowerAt r
      · rw [filterMap_cons_some (retainPast_above hr hlt habv), retainPast_rest hp' hrs hps]
        simp only [totalBytes, List.forall_mem_cons]
        exact ⟨fun _ => ⟨fun hlo => absurd hlo (by omega), fun e he hlo => absurd hlo (hf e he)⟩, fun _ => hrm⟩
      · obtain ⟨cut, hc, -, -, -⟩ := retainPast_across hr (by omega) (by omega : hrcSeq < upperAt r)
        rw [filterMap_cons_some hc, retainPast_rest hp' hrs hps]
        simp only [totalBytes, List.forall_mem_cons]
        constructor
        · intro h
          refine ⟨fun _ _ trimmed htr => ?_, fun e he hlo => absurd hlo (hf e he)⟩
          rw [hc] at htr
          cases htr
          omega
        · intro h
          have := h.1 (by omega) (by omega) cut hc
          omega

theorem discardThrough_bytes {q : Queue encode} (hs : Sound appended q) :
    totalBytes (q.discardThrough hrcSeq).entries ≤ q.limits.maxBytes ↔ q.TrimFits hrcSeq := by
  simp only [Queue.TrimFits, hs.size]
  exact totalBytes_retained hs.proper hs.tiles hs.bytes

theorem discardThrough_sound {q : Queue encode} (hs : Sound appended q) (hf : q.TrimFits hrcSeq) :
    Sound appended (q.discardThrough hrcSeq) := by
  obtain ⟨hk, ht, hl⟩ := filterMap_retainPast hrcSeq hs.proper hs.tiles
  exact ⟨rfl, hl.trans hs.records, (discardThrough_bytes hs).mpr hf, hk, ht⟩

end Discard

namespace Stream

variable {top : Nat}

def Admits (top : Nat) (s : Stream encode) : Action → Prop
  | .appendEvent event =>
    (∀ earlier ∈ s.appended, earlier.hrcSeq < event.hrcSeq) ∧ s.discardedThrough < event.hrcSeq ∧ event.hrcSeq ≤ top
  | _ => True

def Fits (s : Stream encode) : Action → Prop
  | .discardThrough hrcSeq => s.queue.TrimFits hrcSeq
  | _ => True

instance decidableAdmits (top : Nat) (s : Stream encode) : (action : Action) → Decidable (Admits top s action)
  | .appendEvent _ => inferInstanceAs (Decidable (_ ∧ _ ∧ _))
  | .take => isTrue trivial
  | .discardThrough _ => isTrue trivial

instance decidableFits (s : Stream encode) : (action : Action) → Decidable (Fits s action)
  | .appendEvent _ => isTrue trivial
  | .take => isTrue trivial
  | .discardThrough _ => inferInstanceAs (Decidable (Queue.TrimFits _ _))

structure Inv (top : Nat) (s : Stream encode) : Prop where
  sound : Sound s.appended s.queue
  holds : HoldsGap encode s.queue.ledgerIncarnationId s.queue.limits top
  ascending : (seqs s.appended).Pairwise (· < ·)
  below : ∀ x ∈ seqs s.appended, x ≤ top
  proper : ∀ r ∈ s.taken, Proper s.appended r ∧ lowerOf r < upperOf r ∧ upperOf r ≤ s.queue.deliveredHrcSeq
  apart : s.taken.Pairwise fun r r' => upperOf r ≤ lowerOf r'
  discarded : s.discardedThrough ≤ s.queue.deliveredHrcSeq
  delivered : s.queue.deliveredHrcSeq = s.discardedThrough ∨ ∃ x ∈ seqs s.appended, s.queue.deliveredHrcSeq ≤ x
  covered : ∀ x ∈ seqs s.appended, s.discardedThrough < x → x ≤ s.queue.deliveredHrcSeq →
    ∃ r ∈ s.taken, lowerOf r < x ∧ x ≤ upperOf r

theorem inv_start {ledgerIncarnationId : String} {afterHrcSeq : Nat} {limits : Limits}
    (hg : HoldsGap encode ledgerIncarnationId limits top) :
    Inv top (start ledgerIncarnationId afterHrcSeq limits : Stream encode) where
  sound := ⟨rfl, Nat.zero_le _, Nat.zero_le _, fun _ h => absurd h not_mem_nil,
    fun _ h => absurd h not_mem_nil⟩
  holds := hg
  ascending := List.Pairwise.nil
  below := fun _ h => absurd h not_mem_nil
  proper := fun _ h => absurd h not_mem_nil
  apart := List.Pairwise.nil
  discarded := le_rfl
  delivered := Or.inl rfl
  covered := fun _ h => absurd h not_mem_nil

variable {s : Stream encode}

theorem inv_appendEvent {event : LifecycleEvent} (hi : Inv top s)
    (hadm : Admits top s (.appendEvent event)) : Inv top (step (.appendEvent event) s) := by
  obtain ⟨hl, hp, ht⟩ := hadm
  have hsq : seqs (s.appended ++ [event]) = seqs s.appended ++ [event.hrcSeq] := by simp [seqs]
  have hl' : ∀ x ∈ seqs s.appended, x < event.hrcSeq := by
    intro x hx
    obtain ⟨earlier, he, rfl⟩ := mem_map.mp hx
    exact hl earlier he
  have hasc : (seqs (s.appended ++ [event])).Pairwise (· < ·) := by
    rw [hsq]
    exact pairwise_append.mpr ⟨hi.ascending, List.pairwise_singleton _ _,
      fun x hx y hy => mem_singleton.mp hy ▸ hl' x hx⟩
  have hblw : ∀ x ∈ seqs (s.appended ++ [event]), x ≤ top := by
    intro x hx
    rw [hsq] at hx
    rcases List.mem_append.mp hx with hx | hx
    · exact hi.below x hx
    · rw [mem_singleton.mp hx]
      exact ht
  have hd : s.queue.deliveredHrcSeq < event.hrcSeq := by
    rcases hi.delivered with h | h
    · rw [h]
      exact hp
    · obtain ⟨x, hx, hle⟩ := h
      exact Nat.lt_of_le_of_lt hle (hl' x hx)
  obtain ⟨q, hq, hsnd, hled, hlim, hs⟩ := appendEvent_sound hi.holds hi.sound hasc hblw hd
  have hst : step (.appendEvent event) s = { s with queue := q, appended := s.appended ++ [event] } := by
    simp only [step, hq, Except.toOption, getD_some]
  rw [hst]
  refine ⟨hsnd, ?_, hasc, hblw, ?_, hi.apart, ?_, ?_, ?_⟩
  · rw [hled, hlim]
    exact hi.holds
  · intro r hr
    obtain ⟨hpr, hlt, hle⟩ := hi.proper r hr
    exact ⟨hpr.append hl', hlt, hle.trans hs.ge⟩
  · exact hi.discarded.trans hs.ge
  · rw [hs, hsq]
    refine hi.delivered.imp_right fun h => ?_
    obtain ⟨x, hx, hle⟩ := h
    exact ⟨x, mem_append_left _ hx, hle⟩
  · intro x hx hf hle
    rw [hs] at hle
    rw [hsq] at hx
    rcases List.mem_append.mp hx with hx | hx
    · exact hi.covered x hx hf hle
    · rw [mem_singleton.mp hx] at hle
      exact absurd hle (Nat.not_le.mpr hd)

theorem inv_take (hi : Inv top s) : Inv top (step .take s) := by
  cases ht : s.queue.take with
  | none =>
    simp only [step, ht]
    exact hi
  | some pair =>
    obtain ⟨entry, q⟩ := pair
    obtain ⟨hen, hl, hlim, hd, hs⟩ := take_sound hi.sound ht
    have hm : entry ∈ s.queue.entries := by simp [hen]
    have he := hi.sound.proper entry hm
    obtain ⟨hlo, hlt⟩ := hi.sound.tiles.bounds entry hm
    have hsp := hi.sound.tiles
    rw [hen] at hsp
    simp only [step, ht]
    refine ⟨hs, ?_, hi.ascending, hi.below, ?_, ?_, ?_, ?_, ?_⟩
    · rw [hl, hlim]
      exact hi.holds
    · intro r hr
      rw [hd]
      rcases List.mem_append.mp hr with hr | hr
      · obtain ⟨hp, hr, hle⟩ := hi.proper r hr
        exact ⟨hp, hr, by omega⟩
      · rw [mem_singleton.mp hr]
        exact ⟨he, hlt, le_rfl⟩
    · refine pairwise_append.mpr ⟨hi.apart, List.pairwise_singleton _ _, fun r hr r' hr' => ?_⟩
      rw [mem_singleton.mp hr']
      exact (hi.proper r hr).2.2.trans hlo
    · have := hi.discarded
      simp only
      omega
    · rw [hd]
      exact Or.inr he.upper_le
    · intro x hx hf hle
      rw [hd] at hle
      by_cases hold : x ≤ s.queue.deliveredHrcSeq
      · obtain ⟨r, hr, hin⟩ := hi.covered x hx hf hold
        exact ⟨r, mem_append_left _ hr, hin⟩
      · exact ⟨entry.record, List.mem_append_right _ mem_cons_self,
          hsp.2.2.1 x hx (Nat.lt_of_not_le hold), hle⟩

theorem inv_discardThrough {hrcSeq : Nat} (hi : Inv top s) (hf : s.queue.TrimFits hrcSeq) :
    Inv top (step (.discardThrough hrcSeq) s) := by
  have hd : (s.queue.discardThrough hrcSeq).deliveredHrcSeq = max s.queue.deliveredHrcSeq hrcSeq := rfl
  have hre := hi.discarded
  refine ⟨discardThrough_sound hi.sound hf, hi.holds, hi.ascending, hi.below, ?_, hi.apart, ?_, ?_, ?_⟩
  · intro r hr
    obtain ⟨hp, hlt, hle⟩ := hi.proper r hr
    exact ⟨hp, hlt, hle.trans (Nat.le_max_left _ _)⟩
  · simp only [step, hd]
    omega
  · simp only [step, hd]
    by_cases hle : hrcSeq ≤ s.queue.deliveredHrcSeq
    · rw [max_eq_left hle]
      exact hi.delivered.imp_left fun h => by omega
    · exact Or.inl (by omega)
  · intro x hx hfl hle
    simp only [step, hd] at hfl hle
    exact hi.covered x hx (by omega) (by omega)

theorem inv_step {action : Action} (hi : Inv top s)
    (hok : Admits top s action ∧ Fits s action) : Inv top (step action s) := by
  cases action with
  | appendEvent event => exact inv_appendEvent hi hok.1
  | take => exact inv_take hi
  | discardThrough hrcSeq => exact inv_discardThrough hi hok.2

theorem fits_of_bounded {action : Action} (hi : Inv top s)
    (h : totalBytes (step action s).queue.entries ≤ (step action s).queue.limits.maxBytes) : Fits s action := by
  cases action with
  | appendEvent event => trivial
  | take => trivial
  | discardThrough hrcSeq => exact (discardThrough_bytes hi.sound).mp h

section Accounts

variable {s : Stream encode}

theorem Inv.records_proper (hi : Inv top s) :
    ∀ r ∈ s.records, Proper s.appended r ∧ lowerOf r < upperOf r := by
  intro r hr
  rcases List.mem_append.mp hr with hr | hr
  · exact ⟨(hi.proper r hr).1, (hi.proper r hr).2.1⟩
  · obtain ⟨entry, he, rfl⟩ := mem_map.mp hr
    exact ⟨hi.sound.proper entry he, (hi.sound.tiles.bounds entry he).2⟩

theorem Inv.records_apart (hi : Inv top s) : s.records.Pairwise fun r r' => upperOf r ≤ lowerOf r' := by
  refine pairwise_append.mpr ⟨hi.apart, List.pairwise_map.mpr hi.sound.tiles.pairwise, fun r hr r' hr' => ?_⟩
  obtain ⟨entry, he, rfl⟩ := mem_map.mp hr'
  exact (hi.proper r hr).2.2.trans (hi.sound.tiles.bounds entry he).1

theorem Inv.records_cover (hi : Inv top s) {x : Nat} (hx : x ∈ seqs s.appended) (hf : s.discardedThrough < x) :
    ∃ r ∈ s.records, lowerOf r < x ∧ x ≤ upperOf r := by
  by_cases hle : x ≤ s.queue.deliveredHrcSeq
  · obtain ⟨r, hr, hin⟩ := hi.covered x hx hf hle
    exact ⟨r, mem_append_left _ hr, hin⟩
  · obtain ⟨entry, he, hin⟩ := hi.sound.tiles.covered hx (Nat.lt_of_not_le hle)
    exact ⟨entry.record, List.mem_append_right _ (mem_map_of_mem he), hin⟩

theorem Inv.event_eq (hi : Inv top s) {event event' : LifecycleEvent} (h : event ∈ s.appended)
    (h' : event' ∈ s.appended) (heq : event.hrcSeq = event'.hrcSeq) : event = event' :=
  List.inj_on_of_nodup_map (hi.ascending.imp fun h => Nat.ne_of_lt h) h h' heq

theorem Inv.speaksFor_iff (hi : Inv top s) {event : LifecycleEvent} (hev : event ∈ s.appended) {r : Record}
    (hr : r ∈ s.records) : speaksFor event r = decide (lowerOf r < event.hrcSeq ∧ event.hrcSeq ≤ upperOf r) := by
  have hpr := (hi.records_proper r hr).1
  cases r with
  | event l event' =>
    refine decide_eq_decide.mpr ⟨fun h => ?_, fun h => ?_⟩
    · have hp := hpr.2
      subst h
      simp only [lowerOf, upperOf, positionOf, getD_some]
      omega
    · simp only [lowerOf, upperOf, positionOf, getD_some] at h
      exact hi.event_eq hpr.1 hev (by omega)
  | gap l reason a b d => exact (Bool.decide_and _ _).symm
  | ready l a b => cases hpr
  | ledgerReplaced a b => cases hpr
  | homeUnreachable a b => cases hpr

theorem Inv.accounted (hi : Inv top s) : Accounted s where
  bounded := ⟨hi.sound.records, hi.sound.bytes, hi.sound.size⟩
  ordered := hi.records_apart.imp_of_mem fun {r r'} hr hr' hle => by
    obtain ⟨hpr, -⟩ := hi.records_proper r hr
    obtain ⟨hp', hlt'⟩ := hi.records_proper r' hr'
    exact ⟨upperOf r, upperOf r', hpr.positionOf, hp'.positionOf, by omega, hle⟩
  accounted := by
    intro event hev hf
    have hsp : s.records.countP (speaksFor event) =
        s.records.countP fun r => lowerOf r < event.hrcSeq ∧ event.hrcSeq ≤ upperOf r :=
      List.countP_congr fun r hr => by rw [hi.speaksFor_iff hev hr]
    obtain ⟨r, hr, hin⟩ := hi.records_cover (mem_map_of_mem hev) hf
    have hs : 0 < s.records.countP fun r => lowerOf r < event.hrcSeq ∧ event.hrcSeq ≤ upperOf r :=
      List.countP_pos_iff.mpr ⟨r, hr, decide_eq_true hin⟩
    have hone := countP_le_one (x := event.hrcSeq) hi.records_apart
    rw [hsp]
    omega
  apart := by
    intro l event gap hev hg hk
    have hpr := (hi.records_proper _ hev).1
    have hne : Record.event l event ≠ gap := by
      intro h
      subst h
      cases hk
    have hap := apart_of_ne hi.records_apart hev hg hne
    have hp := hpr.2
    have hl : lowerOf (.event l event) = event.hrcSeq - 1 := rfl
    have hup : upperOf (.event l event) = event.hrcSeq := rfl
    rw [hl, hup] at hap
    rw [hi.speaksFor_iff hpr.1 hg]
    refine decide_eq_false ?_
    omega
  exact := by
    intro l reason a b n hg
    have hpr := (hi.records_proper _ hg).1
    rw [hpr.2 n rfl, within, seqs, List.countP_map]
    rfl

end Accounts

/-- Over every interleaving of appends, takes and discards, each state accounts for every event exactly when no
discard cut a gap into one the queue has no room for. -/
theorem accounted_iff_fits {ledgerIncarnationId : String} {afterHrcSeq : Nat} {limits : Limits} {actions : List Action}
    (hgap : HoldsGap encode ledgerIncarnationId limits top)
    (hadmits : Meets step (Admits top) actions (start ledgerIncarnationId afterHrcSeq limits : Stream encode)) :
    (∀ before after, actions = before ++ after →
      Accounted (run step before (start ledgerIncarnationId afterHrcSeq limits : Stream encode))) ↔
    Meets step Fits actions (start ledgerIncarnationId afterHrcSeq limits : Stream encode) := by
  have hi : Inv top (start ledgerIncarnationId afterHrcSeq limits : Stream encode) := inv_start hgap
  constructor
  · intro h
    generalize start ledgerIncarnationId afterHrcSeq limits = s at hi hadmits h
    induction actions generalizing s with
    | nil => trivial
    | cons action actions ih =>
      have hf : Fits s action := fits_of_bounded hi (h [action] actions rfl).bounded.2.1
      refine ⟨hf, ih _ (inv_step hi ⟨hadmits.1, hf⟩) hadmits.2 fun before after hsp => ?_⟩
      exact h (action :: before) after (by rw [hsp, cons_append])
  · intro h before after hsp
    subst hsp
    exact (run_invariant (fun _ _ => inv_step) hi (meets_and (meets_append.mp hadmits).1
      (meets_append.mp h).1)).accounted

theorem ndjsonBytes_gap (ledgerIncarnationId : String) (reason : GapReason) (afterHrcSeq beforeHrcSeq : Nat)
    (dropped : Option Nat) :
    ndjsonBytes (.gap ledgerIncarnationId reason afterHrcSeq beforeHrcSeq dropped) =
      90 + (quote ledgerIncarnationId).utf8ByteSize + (quote reason.text).utf8ByteSize +
        (toString (afterHrcSeq : Int)).utf8ByteSize + (toString (beforeHrcSeq : Int)).utf8ByteSize +
        ((dropped.map Json.ofNat).getD Json.null).stringify.utf8ByteSize := by
  have hk : (quote "type").utf8ByteSize + (quote "gap").utf8ByteSize + (quote "ledgerIncarnationId").utf8ByteSize +
      (quote "reason").utf8ByteSize + (quote "afterHrcSeq").utf8ByteSize + (quote "beforeHrcSeq").utf8ByteSize +
      (quote "dropped").utf8ByteSize = 76 := by decide +kernel
  have hm : ",".utf8ByteSize = 1 ∧ ":".utf8ByteSize = 1 ∧ "\x7b".utf8ByteSize = 1 ∧ "\x7d".utf8ByteSize = 1 := by
    decide +kernel
  simp only [ndjsonBytes, Record.json, Json.object, Json.byteLength, List.foldr, Json.stringify, Fields.texts,
    String.intercalate_cons_cons, String.intercalate_singleton, String.utf8ByteSize_append, Json.ofNat, hm]
  omega

theorem holdsGap_ledger {limits : Limits} (hrec : 0 < limits.maxRecords) (hbyt : 122 ≤ limits.maxBytes) :
    HoldsGap ndjsonBytes "ledger-a" limits 3 := by
  have hd : ∀ n < 4, (toString ((n : Nat) : Int)).utf8ByteSize = 1 := by decide +kernel
  have hl : (quote "ledger-a").utf8ByteSize = 10 := by decide +kernel
  have hnl : Json.null.stringify.utf8ByteSize = 4 := by decide +kernel
  refine ⟨hrec, fun reason afterHrcSeq beforeHrcSeq dropped haft hbef hdr => ?_⟩
  have hr : (quote reason.text).utf8ByteSize ≤ 16 := by
    cases reason <;> decide +kernel
  rw [ndjsonBytes_gap, hl, hd afterHrcSeq (by omega), hd beforeHrcSeq (by omega)]
  cases dropped with
  | none =>
    simp only [Option.map_none, Option.getD_none, hnl]
    omega
  | some n =>
    have hn : (Json.ofNat n).stringify.utf8ByteSize = 1 := hd n (by have := hdr n rfl; omega)
    simp only [Option.map_some, getD_some, hn]
    omega

def overflowing : List Action := [.appendEvent ⟨1, .nil⟩, .appendEvent ⟨2, .nil⟩, .appendEvent ⟨3, .nil⟩]

/-- Trimmed at 1 the gap has 118 bytes in place of 115, and the queue 189 where 186 are allowed. -/
theorem discardThrough_exceeds_maxBytes :
    HoldsGap ndjsonBytes "ledger-a" ⟨2, 186⟩ 3 ∧
    Meets step (Admits 3) (overflowing ++ [.discardThrough 1]) (start "ledger-a" 0 ⟨2, 186⟩ : Stream ndjsonBytes) ∧
    ¬ Accounted (run step (overflowing ++ [.discardThrough 1])
      (start "ledger-a" 0 ⟨2, 186⟩ : Stream ndjsonBytes)) := by
  have hbyt : totalBytes (run step (overflowing ++ [.discardThrough 1])
      (start "ledger-a" 0 ⟨2, 186⟩ : Stream ndjsonBytes)).queue.entries = 189 := by decide +kernel
  have hl : (run step (overflowing ++ [.discardThrough 1])
      (start "ledger-a" 0 ⟨2, 186⟩ : Stream ndjsonBytes)).queue.limits.maxBytes = 186 := by decide +kernel
  refine ⟨holdsGap_ledger (by decide) (by decide), by decide +kernel, fun h => ?_⟩
  have hle := h.bounded.2.1
  rw [hbyt, hl] at hle
  exact absurd hle (by decide)

theorem accounted_iff_fits_overflowing :
    Meets step Fits (overflowing ++ [.take, .discardThrough 2])
        (start "ledger-a" 0 ⟨2, 186⟩ : Stream ndjsonBytes) ∧
      ∀ before after, overflowing ++ [.take, .discardThrough 2] = before ++ after →
        Accounted (run step before (start "ledger-a" 0 ⟨2, 186⟩ : Stream ndjsonBytes)) := by
  have hadm : Meets step (Admits 3) (overflowing ++ [.take, .discardThrough 2])
      (start "ledger-a" 0 ⟨2, 186⟩ : Stream ndjsonBytes) := by decide +kernel
  have hf : Meets step Fits (overflowing ++ [.take, .discardThrough 2])
      (start "ledger-a" 0 ⟨2, 186⟩ : Stream ndjsonBytes) := by decide +kernel
  exact ⟨hf, (accounted_iff_fits (holdsGap_ledger (by decide) (by decide)) hadm).mpr hf⟩

end Stream

end HrcRuntime.BoundedEventStream
