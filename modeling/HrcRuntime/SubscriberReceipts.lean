import HrcRuntime.SubscriberAdmission

namespace HrcRuntime.SubscriberAdmission

open Wire (Number)
structure Entry.Accounted (e : Entry) : Prop where
  pending : e.pendingCount = e.enqueuedCount - e.streamAcceptedCount ∧ 0 ≤ e.pendingCount
  since : e.pendingSince.isSome = true ↔ 0 < e.pendingCount
  within : ∀ k, e.lastConsumerAcknowledgedSeq = some k → ∃ n, e.lastStreamAcceptedSeq = some n ∧ k ≤ n
  caughtUp : e.receiptState = .caughtUp ↔
    ∃ n, e.lastConsumerAcknowledgedSeq = some n ∧ e.lastStreamAcceptedSeq = some n
  behind : e.receiptState = .behind ↔
    ∃ k n, e.lastConsumerAcknowledgedSeq = some k ∧ e.lastStreamAcceptedSeq = some n ∧ k < n

structure Entry.Kept (e : Entry) : Prop extends Entry.Accounted e where
  unrequested : e.receiptMode ≠ .consumerAckV1 → e.lastConsumerAcknowledgedSeq = none ∧ e.receiptState = .notRequested

def Past (head head' : Option Int) : Prop := ∀ n, head = some n → ∃ n', head' = some n' ∧ n ≤ n'

theorem Past.refl (head : Option Int) : Past head head := fun n h => ⟨n, h, Int.le_refl n⟩

theorem Past.trans {a b c : Option Int} (h : Past a b) (h' : Past b c) : Past a c := by
  intro n hn
  obtain ⟨m, hm, hle⟩ := h n hn
  obtain ⟨k, hk, hle'⟩ := h' m hm
  exact ⟨k, hk, Int.le_trans hle hle'⟩

theorem past_max (head : Option Int) (seq : Int) : Past head (some (max (head.getD seq) seq)) := by
  intro n hn
  subst hn
  exact ⟨_, rfl, Int.le_max_left _ _⟩

structure Entry.Later (e e' : Entry) : Prop where
  enqueued : Past e.lastEnqueuedSeq e'.lastEnqueuedSeq
  accepted : Past e.lastStreamAcceptedSeq e'.lastStreamAcceptedSeq
  acknowledged : Past e.lastConsumerAcknowledgedSeq e'.lastConsumerAcknowledgedSeq

theorem Entry.Later.refl (e : Entry) : e.Later e := ⟨.refl _, .refl _, .refl _⟩

theorem Entry.Later.trans {a b c : Entry} (h : a.Later b) (h' : b.Later c) : a.Later c :=
  ⟨h.enqueued.trans h'.enqueued, h.accepted.trans h'.accepted, h.acknowledged.trans h'.acknowledged⟩

section Entries

variable {e e' : Entry} {seq : Int} {desiredSize : Option Int} {now : Instant}

theorem enqueue_kept (h : e.Kept) : (e.enqueue seq now).Kept := by
  obtain ⟨⟨⟨hcnt, hnn⟩, hs, hin, hc, hbeh⟩, hn⟩ := h
  refine ⟨⟨⟨?_, ?_⟩, ?_, hin, hc, hbeh⟩, hn⟩
  · simp only [Entry.enqueue]
    omega
  · simp only [Entry.enqueue]
    omega
  · simp only [Entry.enqueue]
    split
    · rename_i hone
      simp [hone]
    · rename_i hone
      rw [hs]
      omega

theorem desiredSize_kept (h : e.Kept) : Entry.Kept { e with desiredSize } :=
  ⟨⟨h.pending, h.since, h.within, h.caughtUp, h.behind⟩, h.unrequested⟩

theorem keepalive_kept (h : e.Kept) : (e.keepalive desiredSize now).Kept :=
  ⟨⟨h.pending, h.since, h.within, h.caughtUp, h.behind⟩, h.unrequested⟩

theorem closedAt_kept (h : e.Kept) : Entry.Kept { e with closedAt := some now } :=
  ⟨⟨h.pending, h.since, h.within, h.caughtUp, h.behind⟩, h.unrequested⟩

variable {requested : Bool}

theorem streamAccepted_later : e.Later (e.streamAccepted requested seq desiredSize now) := by
  cases requested with
  | false => exact ⟨.refl _, past_max _ _, .refl _⟩
  | true =>
    simp only [Entry.streamAccepted, if_true, Entry.updateReceiptStateAfterStreamAcceptance]
    split
    · exact ⟨.refl _, past_max _ _, .refl _⟩
    · split <;> exact ⟨.refl _, past_max _ _, .refl _⟩

theorem streamAccepted_name : (e.streamAccepted requested seq desiredSize now).name = e.name ∧
    (e.streamAccepted requested seq desiredSize now).subscriberId = e.subscriberId ∧
    (e.streamAccepted requested seq desiredSize now).receiptMode = e.receiptMode := by
  cases requested with
  | false => exact ⟨rfl, rfl, rfl⟩
  | true =>
    simp only [Entry.streamAccepted, if_true, Entry.updateReceiptStateAfterStreamAcceptance]
    split
    · exact ⟨rfl, rfl, rfl⟩
    · split <;> exact ⟨rfl, rfl, rfl⟩

theorem admitted_pending (seq : Int) (desiredSize : Option Int) (now : Instant) (h : e.Kept) (hp : e.streamAcceptedCount < e.enqueuedCount) :
    let e' := e.admitted seq desiredSize now
    (e'.pendingCount = e'.enqueuedCount - e'.streamAcceptedCount ∧ 0 ≤ e'.pendingCount) ∧
      (e'.pendingSince.isSome = true ↔ 0 < e'.pendingCount) := by
  obtain ⟨⟨hc, hn⟩, hs⟩ := And.intro h.pending h.since
  refine ⟨⟨?_, ?_⟩, ?_⟩
  · simp only [Entry.admitted]
    omega
  · simp only [Entry.admitted]
    omega
  · simp only [Entry.admitted]
    split
    · rename_i hz
      simp [hz]
    · rename_i hz
      rw [hs]
      omega

theorem streamAccepted_kept (h : e.Kept) (hr : requested = true ↔ e.receiptMode = .consumerAckV1)
    (hp : e.streamAcceptedCount < e.enqueuedCount) : (e.streamAccepted requested seq desiredSize now).Kept := by
  obtain ⟨hc, hs⟩ := admitted_pending seq desiredSize now h hp
  cases requested with
  | false =>
    have hmd : e.receiptMode ≠ .consumerAckV1 := fun hm => Bool.false_ne_true (hr.mpr hm)
    obtain ⟨hack, hst⟩ := h.unrequested hmd
    refine ⟨⟨hc, hs, ?_, ?_, ?_⟩, h.unrequested⟩
    · intro k hk
      exact absurd (hack.symm.trans hk) (by simp)
    · simp [Entry.streamAccepted, Entry.admitted, hack, hst]
    · simp [Entry.streamAccepted, Entry.admitted, hack, hst]
  | true =>
    have hmd : e.receiptMode = .consumerAckV1 := hr.mp rfl
    cases hack : e.lastConsumerAcknowledgedSeq with
    | none =>
      have heq : e.streamAccepted true seq desiredSize now =
          { e.admitted seq desiredSize now with
            receiptState := .awaitingFirstAck
            consumerReceiptBehindSince := some (e.consumerReceiptBehindSince.getD now) } := by
        simp only [Entry.streamAccepted, if_true, Entry.updateReceiptStateAfterStreamAcceptance, Entry.admitted, hack]
      rw [heq]
      refine ⟨⟨hc, hs, ?_, ?_, ?_⟩, fun hm => absurd hmd hm⟩
      · intro k hk
        exact absurd (hack.symm.trans hk) (by simp)
      · simp [Entry.admitted, hack]
      · simp [Entry.admitted, hack]
    | some k =>
      obtain ⟨n, hn, hle⟩ := h.within k hack
      have hacc : (e.admitted seq desiredSize now).lastStreamAcceptedSeq = some (max n seq) := by
        simp only [Entry.admitted, hn, Option.getD_some]
      have hle' : k ≤ max n seq := Int.le_trans hle (Int.le_max_left _ _)
      have hac : (e.admitted seq desiredSize now).lastConsumerAcknowledgedSeq = some k := hack
      by_cases hlt : k < max n seq
      · have heq : e.streamAccepted true seq desiredSize now =
            { e.admitted seq desiredSize now with
              receiptState := .behind
              consumerReceiptBehindSince := some (e.consumerReceiptBehindSince.getD now) } := by
          simp only [Entry.streamAccepted, if_true, Entry.updateReceiptStateAfterStreamAcceptance, hac, hacc,
            Option.any_some, decide_eq_true hlt]
          rfl
        rw [heq]
        refine ⟨⟨hc, hs, ?_, ?_, ?_⟩, fun hm => absurd hmd hm⟩
        · intro k' hk'
          cases hac.symm.trans hk'
          exact ⟨_, hacc, hle'⟩
        · simp only [hac, hacc, Option.some.injEq, reduceCtorEq, false_iff, not_exists, not_and]
          omega
        · simp only [hac, hacc, Option.some.injEq, true_iff]
          exact ⟨k, _, rfl, rfl, hlt⟩
      · have heq : e.streamAccepted true seq desiredSize now =
            { e.admitted seq desiredSize now with
              receiptState := .caughtUp, consumerReceiptBehindSince := none } := by
          simp only [Entry.streamAccepted, if_true, Entry.updateReceiptStateAfterStreamAcceptance, hac, hacc,
            Option.any_some, decide_eq_false hlt, Bool.false_eq_true, if_false]
        rw [heq]
        refine ⟨⟨hc, hs, ?_, ?_, ?_⟩, fun hm => absurd hmd hm⟩
        · intro k' hk'
          cases hac.symm.trans hk'
          exact ⟨_, hacc, hle'⟩
        · simp only [hac, hacc, Option.some.injEq, true_iff]
          exact ⟨k, rfl, by omega⟩
        · simp only [hac, hacc, Option.some.injEq, reduceCtorEq, false_iff, not_exists, not_and]
          omega

/-- A receipt that is taken advances the acknowledged head under the accepted one, or changes nothing. -/
theorem receive_ok {input : AckRequest} {seq : Option Int} {response : AckResponse} (h : e.Kept)
    (hmd : e.receiptMode = .consumerAckV1) (hok : e.receive input seq now = .ok (response, e')) :
    e'.Kept ∧ e.Later e' ∧ (e'.name = e.name ∧ e'.subscriberId = e.subscriberId ∧ e'.receiptMode = e.receiptMode) ∧
      (response.disposition ≠ .advanced → e' = e) := by
  cases seq with
  | none => cases hok
  | some seq =>
    cases hacc : e.lastStreamAcceptedSeq with
    | none =>
      simp only [Entry.receive, hacc] at hok
      cases hok
    | some acceptedSeq =>
      simp only [Entry.receive, hacc] at hok
      split at hok
      · cases hok
      · rename_i hle
        cases hd : e.disposition seq with
        | advanced =>
          rw [if_pos hd] at hok
          obtain ⟨rfl, rfl⟩ := Prod.mk.inj (Except.ok.inj hok)
          have hp : Past e.lastConsumerAcknowledgedSeq (some seq) := by
            intro n hn
            refine ⟨seq, rfl, ?_⟩
            simp only [Entry.disposition, hn, Option.any_some, Option.some.injEq, decide_eq_true_eq] at hd
            split at hd
            · cases hd
            · split at hd
              · cases hd
              · omega
          refine ⟨⟨⟨h.pending, h.since, ?_, ?_, ?_⟩, fun hm => absurd hmd hm⟩, ⟨.refl _, .refl _, hp⟩,
            ⟨rfl, rfl, rfl⟩, fun hne => absurd hd hne⟩
          · intro k hk
            cases hk
            exact ⟨acceptedSeq, hacc, by omega⟩
          · simp only [Entry.advance, hacc, Option.some.injEq, exists_eq_left']
            split
            · rename_i heq
              simp [heq]
            · rename_i hne
              simpa [eq_comm] using hne
          · simp only [Entry.advance, hacc, Option.some.injEq, exists_eq_left', exists_and_left]
            split
            · rename_i heq
              simp [heq]
            · simp only [true_iff]
              omega
        | duplicate =>
          rw [hd, if_neg (by decide)] at hok
          obtain ⟨rfl, rfl⟩ := Prod.mk.inj (Except.ok.inj hok)
          exact ⟨h, .refl _, ⟨rfl, rfl, rfl⟩, fun _ => rfl⟩
        | stale =>
          rw [hd, if_neg (by decide)] at hok
          obtain ⟨rfl, rfl⟩ := Prod.mk.inj (Except.ok.inj hok)
          exact ⟨h, .refl _, ⟨rfl, rfl, rfl⟩, fun _ => rfl⟩

end Entries

end HrcRuntime.SubscriberAdmission
