import HrcRuntime.BoundedReplay

namespace HrcRuntime.BoundedEventStream

variable {encode : Record → Nat} {c : Collector encode} {events kept : List LifecycleEvent}

def Collector.AdmitsGap (c : Collector encode) (events : List LifecycleEvent) : Prop :=
  1 ≤ c.limits.maxRecords ∧ ∀ before, c.afterHrcSeq < before → (∃ e ∈ events, before ≤ e.hrcSeq) →
    (c.replayGap before).byteLength ≤ c.limits.maxBytes

structure ReplaySuffix (c : Collector encode) (events : List LifecycleEvent) (records : List (EncodedRecord encode)) :
    Prop where
  maxRecords : records.length ≤ c.limits.maxRecords
  maxBytes : totalBytes records ≤ c.limits.maxBytes
  ascending : records.Pairwise fun a b => upperOf a.record < upperOf b.record
  parts : ∃ missing kept, events = missing ++ kept ∧ (missing = [] → records = kept.map c.incoming) ∧
    (missing ≠ [] → ∃ before, records = c.replayGap before :: kept.map c.incoming ∧ c.afterHrcSeq < before ∧
      (∀ e ∈ missing, c.afterHrcSeq < e.hrcSeq ∧ e.hrcSeq ≤ before) ∧ ∀ e ∈ kept, before < e.hrcSeq)

theorem positionOf_incoming (c : Collector encode) (e : LifecycleEvent) : positionOf (c.incoming e).record = some e.hrcSeq := by
  unfold Collector.incoming eventOrOversizeGap
  dsimp only
  split <;> rfl

theorem upperOf_incoming (c : Collector encode) (e : LifecycleEvent) : upperOf (c.incoming e).record = e.hrcSeq := by
  unfold upperOf
  rw [positionOf_incoming]
  rfl

structure Trimmed (c : Collector encode) (kept : List LifecycleEvent) (before : Nat) (records : List (EncodedRecord encode)) :
    Prop where
  maxRecords : records.length ≤ c.limits.maxRecords
  maxBytes : totalBytes records ≤ c.limits.maxBytes
  parts : ∃ removed rest after, kept = removed ++ rest ∧ records = c.replayGap after :: rest.map c.incoming ∧
    before ≤ after ∧ (∀ e ∈ removed, e.hrcSeq ≤ after) ∧ ∀ e ∈ rest, after < e.hrcSeq

theorem trim_trimmed {before : Nat} (hone : 1 ≤ c.limits.maxRecords) (hasc : (seqs kept).Pairwise (· < ·))
    (hbef : ∀ e ∈ kept, before < e.hrcSeq)
    (hg : ∀ after, before ≤ after → (after = before ∨ ∃ e ∈ kept, after = e.hrcSeq) →
      (c.replayGap after).byteLength ≤ c.limits.maxBytes) :
    Trimmed c kept before (c.trim (kept.map c.incoming) (totalBytes (kept.map c.incoming)) before) := by
  induction kept generalizing before with
  | nil =>
    refine ⟨hone, ?_, [], [], before, rfl, rfl, Nat.le_refl _, by simp, by simp⟩
    have hf := hg before (Nat.le_refl _) (.inl rfl)
    simpa [Collector.trim, totalBytes] using hf
  | cons e kept ih =>
    obtain ⟨hfst, hrs⟩ := List.pairwise_cons.mp hasc
    have hp : before < e.hrcSeq := hbef e List.mem_cons_self
    have hl : ∀ k ∈ kept, e.hrcSeq < k.hrcSeq := fun k hk => hfst _ (List.mem_map_of_mem hk)
    simp only [List.map_cons, Collector.trim]
    split
    · have hpos : max before ((positionOf (c.incoming e).record).getD before) = e.hrcSeq := by
        rw [positionOf_incoming, Option.getD_some]
        omega
      have hbyt : totalBytes (c.incoming e :: kept.map c.incoming) - (c.incoming e).byteLength =
          totalBytes (kept.map c.incoming) := by
        simp only [totalBytes, Nat.add_sub_cancel_left]
      rw [hpos, hbyt]
      obtain ⟨hr, hs, removed, rest, after, hkp, hres, hle, hrem, hrs⟩ :=
        ih hrs hl fun after haft he => hg after (by omega) (.inr (by
          rcases he with rfl | ⟨k, hk, rfl⟩
          · exact ⟨e, List.mem_cons_self, rfl⟩
          · exact ⟨k, List.mem_cons_of_mem _ hk, rfl⟩))
      refine ⟨hr, hs, e :: removed, rest, after, by rw [hkp]; rfl, hres, by omega, fun k hk => ?_, hrs⟩
      rcases List.mem_cons.mp hk with rfl | hk
      · exact hle
      · exact hrem k hk
    · rename_i hrm
      obtain ⟨hr, hs⟩ := not_or.mp hrm
      refine ⟨Nat.not_lt.mp hr, ?_, [], e :: kept, before, rfl, rfl, Nat.le_refl _, by simp, hbef⟩
      simp only [totalBytes] at hs ⊢
      omega

theorem trim_congr {c' : Collector encode} (hl : c'.ledgerIncarnationId = c.ledgerIncarnationId)
    (haft : c'.afterHrcSeq = c.afterHrcSeq) (hlim : c'.limits = c.limits) (entries : List (EncodedRecord encode))
    (bytes before : Nat) : c'.trim entries bytes before = c.trim entries bytes before := by
  have hg : c'.replayGap = c.replayGap := by
    funext before
    unfold Collector.replayGap
    rw [hl, haft]
  induction entries generalizing bytes before with
  | nil => simp only [Collector.trim, hg]
  | cons removed rest ih => simp only [Collector.trim, hg, hlim, ih]

theorem ascending_incoming (hasc : (seqs kept).Pairwise (· < ·)) :
    (kept.map c.incoming).Pairwise fun a b => upperOf a.record < upperOf b.record := by
  rw [List.pairwise_map]
  refine (List.pairwise_map.mp hasc).imp fun {a b} h => ?_
  rw [upperOf_incoming, upperOf_incoming]
  exact h

/-- A replay returns within the limits the newest suffix of the events past the starting position, in order,
behind one gap from there to the last missing event when some are missing. -/
theorem replay_suffix_exact (ledgerIncarnationId : String) (afterHrcSeq : Nat) (limits : Limits)
    (hgap : Collector.AdmitsGap ({ ledgerIncarnationId, afterHrcSeq, limits } : Collector encode) events)
    (hasc : (seqs events).Pairwise (· < ·)) (hpast : ∀ e ∈ events, afterHrcSeq < e.hrcSeq) :
    let c : Collector encode := { ledgerIncarnationId, afterHrcSeq, limits }
    ReplaySuffix c events ((c.scan events.reverse).1.finish (c.scan events.reverse).2) := by
  intro c
  obtain ⟨⟨hled, haft, hlim⟩, ⟨newest, missed, hsp, hret, hc, hsto⟩, hs, hre, hbyt⟩ :=
    scanned (c := c) events.reverse rfl (Nat.zero_le _) (Nat.zero_le _)
  generalize (c.scan events.reverse).1 = c', (c.scan events.reverse).2 = complete at *
  have hret : c'.retained = newest.reverse.map c.incoming := by
    rw [hret, List.append_nil, List.map_reverse]
  have hevs : events = missed.reverse ++ newest.reverse := by
    rw [← List.reverse_append, ← hsp, List.reverse_reverse]
  have hsr : (seqs missed.reverse ++ seqs newest.reverse).Pairwise (· < ·) := by
    unfold seqs
    rw [← List.map_append, ← hevs]
    exact hasc
  obtain ⟨hms, hn, hcrs⟩ := List.pairwise_append.mp hsr
  rw [hs] at hbyt
  rw [hret] at hre hbyt hs
  cases complete with
  | true =>
    obtain rfl : missed = [] := hc.mp rfl
    rw [Collector.finish, if_pos rfl, hret]
    exact ⟨hre, hbyt, ascending_incoming hn, [], newest.reverse, hevs, fun _ => rfl, fun h => absurd rfl h⟩
  | false =>
    have hsm : missed ≠ [] := fun h => Bool.false_ne_true (hc.mpr h)
    obtain ⟨stop, rest, rfl⟩ := List.exists_cons_of_ne_nil hsm
    have hst : stop.hrcSeq ∈ seqs (stop :: rest).reverse := List.mem_map_of_mem (by simp)
    have hl : ∀ e ∈ (stop :: rest).reverse, e.hrcSeq ≤ stop.hrcSeq := by
      rw [List.reverse_cons] at hms ⊢
      intro e he
      rcases List.mem_append.mp he with he | he
      · simp only [seqs, List.map_append] at hms
        exact Nat.le_of_lt ((List.pairwise_append.mp hms).2.2 _ (List.mem_map_of_mem he) _ List.mem_cons_self)
      · rw [List.mem_singleton.mp he]
    have hm : stop ∈ events := by
      rw [hevs]
      exact List.mem_append_left _ (by simp)
    have hbn : ∃ before, (c'.oldestRetainedPosition.map (· - 1)).getD (c'.stoppedAtHrcSeq.getD c'.afterHrcSeq) = before ∧
        stop.hrcSeq ≤ before ∧ (∀ e ∈ newest.reverse, before < e.hrcSeq) ∧ ∃ e ∈ events, before ≤ e.hrcSeq := by
      unfold Collector.oldestRetainedPosition
      rw [hret, hsto stop rfl]
      cases hkp : newest.reverse with
      | nil => exact ⟨stop.hrcSeq, rfl, Nat.le_refl _, by simp, stop, hm, Nat.le_refl _⟩
      | cons oldest later =>
        rw [hkp] at hn hcrs hevs
        have hlt : stop.hrcSeq < oldest.hrcSeq := hcrs _ hst _ List.mem_cons_self
        refine ⟨oldest.hrcSeq - 1, ?_, by omega, fun e he => ?_, oldest, ?_, Nat.sub_le _ _⟩
        · rw [List.map_cons, List.head?_cons, Option.bind_some, positionOf_incoming]
          rfl
        · rcases List.mem_cons.mp he with rfl | he
          · omega
          · have haft : oldest.hrcSeq < e.hrcSeq := (List.pairwise_cons.mp hn).1 _ (List.mem_map_of_mem he)
            omega
        · rw [hevs]
          exact List.mem_append_right _ List.mem_cons_self
    obtain ⟨before, hv, hle, hblw, hu⟩ := hbn
    have hsta : c.afterHrcSeq < before := Nat.lt_of_lt_of_le (hpast stop hm) hle
    obtain ⟨hre, hs', removed, kept, after, hkp, hres, hbef, hrem, hk⟩ :=
      trim_trimmed hgap.1 hn hblw fun after haft hen => hgap.2 after (Nat.lt_of_lt_of_le hsta haft) (by
        rcases hen with rfl | ⟨e, he, rfl⟩
        · exact hu
        · exact ⟨e, by rw [hevs]; exact List.mem_append_right _ he, Nat.le_refl _⟩)
    have hf : c'.finish false =
        c.trim (newest.reverse.map c.incoming) (totalBytes (newest.reverse.map c.incoming)) before := by
      rw [Collector.finish, if_neg (by simp), hv, hs, hret, trim_congr hled haft hlim]
    rw [hf, hres]
    rw [hres] at hre hs'
    rw [hkp, ← List.append_assoc] at hevs
    rw [hkp, seqs, List.map_append] at hn
    have hmis : ∀ e ∈ (stop :: rest).reverse ++ removed, c.afterHrcSeq < e.hrcSeq ∧ e.hrcSeq ≤ after := by
      intro e he
      refine ⟨hpast e (by rw [hevs]; exact List.mem_append_left _ he), ?_⟩
      rcases List.mem_append.mp he with he | he
      · exact Nat.le_trans (hl e he) (Nat.le_trans hle hbef)
      · exact hrem e he
    refine ⟨hre, hs', List.pairwise_cons.mpr ⟨fun record hr => ?_, ascending_incoming (List.pairwise_append.mp hn).2.1⟩,
      _, kept, hevs, fun h => by simp at h, fun _ => ⟨after, rfl, Nat.lt_of_lt_of_le hsta hbef, hmis, hk⟩⟩
    obtain ⟨e, he, rfl⟩ := List.mem_map.mp hr
    rw [upperOf_incoming]
    exact hk e he

theorem admitsGap_of_holdsGap {top : Nat} (hg : HoldsGap encode c.ledgerIncarnationId c.limits top)
    (ht : ∀ e ∈ events, e.hrcSeq ≤ top) : c.AdmitsGap events := by
  refine ⟨hg.1, fun before haft ⟨e, he, hle⟩ => ?_⟩
  have hbef := Nat.le_trans hle (ht e he)
  exact hg.2 _ _ _ _ (by omega) hbef (by simp)

/-- Three events where two records fit: the gap for the first costs the second its place. -/
theorem replay_suffix_exact_trimmed :
    let events : List LifecycleEvent := [⟨1, .nil⟩, ⟨2, .nil⟩, ⟨3, .nil⟩]
    let c : Collector ndjsonBytes := { ledgerIncarnationId := "ledger-a", afterHrcSeq := 0, limits := ⟨2, 200⟩ }
    let records := (c.scan events.reverse).1.finish (c.scan events.reverse).2
    records.map (·.record) = [.gap "ledger-a" .replayWindow 0 2 none, .event "ledger-a" ⟨3, .nil⟩] ∧
      ReplaySuffix c events records :=
  ⟨by decide +kernel, replay_suffix_exact "ledger-a" 0 ⟨2, 200⟩
    (admitsGap_of_holdsGap (Stream.holdsGap_ledger (by decide) (by decide)) (by decide)) (by decide) (by decide)⟩

end HrcRuntime.BoundedEventStream
