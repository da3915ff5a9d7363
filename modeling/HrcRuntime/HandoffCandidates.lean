import HrcRuntime.HandoffIdentity

namespace HrcRuntime.HandoffFinalizer

open HandoffRecords
open List (mem_filter mem_filterMap not_mem_nil)

variable {db : Database} {cursor : Option Nat} {active : Active} {m : Message} {run id : String}

variable {found : List Message} {acc : Requests} {after : Nat}

theorem mem_pendingHandoffs {limit : Nat} (h : m ∈ db.pendingHandoffs after limit) :
    m ∈ db.messages.rows ∧ after < m.messageSeq ∧ db.pendingHandoff m = true := by
  obtain ⟨hm, hp⟩ := mem_filter.mp (List.mem_of_mem_take h)
  simp only [Bool.and_eq_true, decide_eq_true_eq] at hp
  exact ⟨hm, hp⟩

theorem mem_of_pendingHandoffForRun (h : db.pendingHandoffForRun run = some m) :
    m ∈ db.messages.rows ∧ m.execution.runId = some run ∧ db.pendingHandoff m = true := by
  obtain ⟨hm, hp⟩ := mem_filter.mp (List.mem_of_getLast? h)
  simp only [Bool.and_eq_true, decide_eq_true_eq] at hp
  exact ⟨hm, hp⟩

theorem scan_sound {fuel : Nat} (h : m ∈ scan db fuel after) : m ∈ db.messages.rows ∧ db.pendingHandoff m = true := by
  induction fuel generalizing after with
  | zero => cases h
  | succ fuel ih =>
    unfold scan at h
    split at h
    · cases h
    · rcases List.mem_append.mp h with h | h
      · exact ⟨(mem_pendingHandoffs h).1, (mem_pendingHandoffs h).2.2⟩
      · exact ih h

theorem length_past_lt {last : Message} (hmem : last ∈ db.messages.rows) (h : after < last.messageSeq) :
    (db.messages.rows.filter fun m => decide (last.messageSeq < m.messageSeq)).length <
      (db.messages.rows.filter fun m => decide (after < m.messageSeq)).length := by
  have hs : (db.messages.rows.filter fun m => decide (last.messageSeq < m.messageSeq)).Sublist
      (db.messages.rows.filter fun m => decide (after < m.messageSeq)) :=
    List.monotone_filter_right _ fun m hm => decide_eq_true (Nat.lt_trans h (of_decide_eq_true hm))
  refine Nat.lt_of_le_of_ne hs.length_le fun heq => ?_
  have hl : last ∈ db.messages.rows.filter fun m => decide (after < m.messageSeq) :=
    mem_filter.mpr ⟨hmem, decide_eq_true h⟩
  rw [← hs.eq_of_length heq] at hl
  exact Nat.lt_irrefl _ (of_decide_eq_true (mem_filter.mp hl).2)

theorem mem_scan {fuel : Nat} (hm : m ∈ db.messages.rows) (haft : after < m.messageSeq)
    (hp : db.pendingHandoff m = true)
    (hf : (db.messages.rows.filter fun m => decide (after < m.messageSeq)).length < fuel) : m ∈ scan db fuel after := by
  induction fuel generalizing after with
  | zero => exact absurd hf (Nat.not_lt_zero _)
  | succ fuel ih =>
    let rest := db.messages.rows.filter fun m => decide (after < m.messageSeq) && db.pendingHandoff m
    have hpg : db.pendingHandoffs after 100 = rest.take 100 := rfl
    have hr : m ∈ rest := mem_filter.mpr ⟨hm, by rw [hp, decide_eq_true haft]; rfl⟩
    have hsp : m ∈ rest.take 100 ++ rest.drop 100 := by rwa [List.take_append_drop]
    unfold scan
    split
    · rename_i hn
      rw [List.getLast?_eq_none_iff, hpg, List.take_eq_nil_iff] at hn
      rw [hn.resolve_left (Nat.succ_ne_zero _)] at hr
      cases hr
    · rename_i last hls
      have hin : last ∈ db.pendingHandoffs after 100 := List.mem_of_getLast? hls
      rcases List.mem_append.mp hsp with h | h
      · exact List.mem_append_left _ h
      · obtain ⟨hl, hlt, -⟩ := mem_pendingHandoffs hin
        have hord : (rest.take 100 ++ rest.drop 100).Pairwise fun a b => a.messageSeq < b.messageSeq := by
          rw [List.take_append_drop]
          exact db.ascending.sublist List.filter_sublist
        have hps : last.messageSeq < m.messageSeq := (List.pairwise_append.mp hord).2.2 last hin m h
        refine List.mem_append_right _ (ih hps ?_)
        exact Nat.lt_of_lt_of_le (length_past_lt hl hlt) (Nat.le_of_lt_succ hf)

theorem collect_sound (h : m ∈ (collect db cursor).2) : m ∈ db.messages.rows ∧ db.pendingHandoff m = true := by
  cases cursor with
  | none => exact scan_sound h
  | some cursor =>
    obtain ⟨e, -, he⟩ := mem_filterMap.mp h
    obtain ⟨run, -, hr⟩ := Option.bind_eq_some_iff.mp he
    obtain ⟨hm, -, hp⟩ := mem_of_pendingHandoffForRun hr
    exact ⟨hm, hp⟩

theorem mem_foldl_add (h : (run, m) ∈ found.foldl add acc) :
    (run, m) ∈ acc ∨ m ∈ found ∧ m.execution.runId = some run := by
  induction found generalizing acc with
  | nil => exact .inl h
  | cons x found ih =>
    rcases ih h with h | h
    · unfold add at h
      split at h
      · rename_i r hr
        rcases OrderedMap.mem_set h with heq | h
        · cases heq
          exact .inr ⟨List.mem_cons_self, hr⟩
        · exact .inl h
      · exact .inl h
    · exact .inr ⟨List.mem_cons_of_mem _ h.1, h.2⟩

theorem key_foldl_add
    (h : run ∈ OrderedMap.keys acc ∨ ∃ m ∈ found, m.execution.runId = some run) :
    run ∈ OrderedMap.keys (found.foldl add acc) := by
  induction found generalizing acc with
  | nil => exact h.resolve_right fun ⟨m, hm, _⟩ => not_mem_nil hm
  | cons x found ih =>
    refine ih ?_
    unfold add
    rcases h with h | ⟨m, hm, hr⟩
    · left
      split
      · exact OrderedMap.mem_keys_set.mpr (.inr h)
      · exact h
    · rcases List.mem_cons.mp hm with rfl | hm
      · left
        rw [hr]
        exact OrderedMap.mem_keys_set.mpr (.inl rfl)
      · exact .inr ⟨m, hm, hr⟩

theorem key_setAll {es : Requests} (h : run ∈ OrderedMap.keys acc ∨ run ∈ OrderedMap.keys es) :
    run ∈ OrderedMap.keys (OrderedMap.setAll es acc) := by
  induction es generalizing acc with
  | nil => exact h.resolve_right not_mem_nil
  | cons e es ih =>
    refine ih ?_
    rcases h with h | h
    · exact .inl (OrderedMap.mem_keys_set.mpr (.inr h))
    · rcases List.mem_cons.mp h with rfl | h
      · exact .inl (OrderedMap.mem_keys_set.mpr (.inl rfl))
      · exact .inr h

theorem requests_sound (hr : Ready db active) (h : (run, m) ∈ requests db cursor active) :
    db.messages.find m.messageId = some m ∧ db.runOf m.messageId = some (some run) := by
  rcases OrderedMap.mem_setAll h with h | h
  · obtain ⟨⟨r, id, ready⟩, ha, hs⟩ := mem_filterMap.mp h
    dsimp only at hs
    split at hs
    · rename_i ht
      obtain ⟨m', hfn, heq⟩ := Option.map_eq_some_iff.mp hs
      cases heq
      cases ht
      have hid := Database.find_id hfn
      rw [hid]
      exact ⟨hfn, hr run id ha⟩
    · cases hs
  · obtain ⟨hf, hrun⟩ := (mem_foldl_add h).resolve_left not_mem_nil
    obtain ⟨hm, hp⟩ := collect_sound hf
    have hfn : db.messages.find m.messageId = some m := Keyed.find_of_mem hm
    exact ⟨hfn, Database.runOf_eq_some.mpr ⟨m, hfn, (Database.pendingHandoff_iff.mp hp).2.2.2.1, hrun⟩⟩

theorem requests_key (hseq : db.Numbered)
    (hr : db.runOf id = some (some run)) (hp : db.Pending id)
    (hs : cursor = none ∨ (∃ c, cursor = some c ∧ ∃ e ∈ db.events, e.runId = some run ∧ e.terminal = true ∧ c < e.hrcSeq) ∨
      (run, (id, true)) ∈ active) : run ∈ OrderedMap.keys (requests db cursor active) := by
  obtain ⟨m, hf, hpn⟩ := hp
  have hmr : m.execution.runId = some run := by
    obtain ⟨m', hf', -, hrun'⟩ := Database.runOf_eq_some.mp hr
    rw [hf] at hf'
    rw [Option.some.inj hf']
    exact hrun'
  have hm := (Keyed.find_mem hf).1
  refine key_setAll ?_
  rcases hs with rfl | ⟨c, rfl, e, he, her, ht, hlt⟩ | hact
  · refine .inl (key_foldl_add (.inr ⟨m, mem_scan hm (hseq m hm) hpn ?_, hmr⟩))
    exact Nat.lt_succ_of_le (List.length_filter_le _ _)
  · left
    have hin : m ∈ db.messages.rows.filter fun m => decide (m.execution.runId = some run) && db.pendingHandoff m :=
      mem_filter.mpr ⟨hm, by rw [hpn, decide_eq_true hmr]; rfl⟩
    obtain ⟨m', hm'⟩ : ∃ m', db.pendingHandoffForRun run = some m' := by
      refine Option.isSome_iff_exists.mp ?_
      rw [Option.isSome_iff_ne_none]
      intro hn
      rw [List.getLast?_eq_none_iff.mp hn] at hin
      cases hin
    refine key_foldl_add (.inr ⟨m', mem_filterMap.mpr ⟨e, mem_filter.mpr ⟨he, ?_⟩, ?_⟩,
      (mem_of_pendingHandoffForRun hm').2.1⟩)
    · rw [ht, her, decide_eq_true hlt]
      rfl
    · rw [her]
      exact hm'
  · right
    refine List.mem_map.mpr ⟨(run, m), mem_filterMap.mpr ⟨_, hact, ?_⟩, rfl⟩
    rw [if_pos rfl, hf]
    rfl

theorem mem_candidates {reqs : Requests} {c : Candidate} : c ∈ candidates db reqs ↔
    (c.run, c.request) ∈ reqs ∧ db.terminalOf c.run = some c.event := by
  unfold candidates
  rw [(KeysetPaging.perm_sortBy bySeq _).mem_iff, mem_filterMap]
  constructor
  · rintro ⟨⟨r, m⟩, hm, hc⟩
    obtain ⟨e, he, rfl⟩ := Option.map_eq_some_iff.mp hc
    exact ⟨hm, he⟩
  · rintro ⟨hm, he⟩
    exact ⟨_, hm, Option.map_eq_some_iff.mpr ⟨_, he, rfl⟩⟩

theorem terminalOf_isSome {e : Event} (he : e ∈ db.events) (hr : e.runId = some run) (ht : e.terminal = true) :
    ∃ first, db.terminalOf run = some first := by
  refine Option.isSome_iff_exists.mp (List.find?_isSome.mpr ⟨e, he, ?_⟩)
  rw [hr, ht, decide_eq_true rfl]
  rfl

theorem exists_candidate {s : State} (hid : Identified s) (hseq : s.db.Numbered)
    (hr : Ready s.db active) (hrun : s.db.runOf id = some (some run)) (hp : s.db.Pending id) {e : Event}
    (he : e ∈ s.db.events) (her : e.runId = some run) (ht : e.terminal = true)
    (hs : s.cursor = none ∨ (∃ c, s.cursor = some c ∧ c < e.hrcSeq) ∨ (run, (id, true)) ∈ active) :
    ∃ c ∈ candidates s.db (requests s.db s.cursor active), c.request.messageId = id := by
  have hk := requests_key hseq hrun hp
    (hs.imp_right fun h => h.imp_left fun ⟨c, hc, hlt⟩ => ⟨c, hc, e, he, her, ht, hlt⟩)
  obtain ⟨⟨r, m⟩, hm, rfl⟩ := List.mem_map.mp hk
  obtain ⟨first, hf⟩ := terminalOf_isSome he her ht
  exact ⟨⟨r, m, first⟩, mem_candidates.mpr ⟨hm, hf⟩, hid.unique _ _ r (requests_sound hr hm).2 hrun⟩

end HrcRuntime.HandoffFinalizer
