import HrcRuntime.TranscriptTail

namespace HrcRuntime.TranscriptIndex

open KeysetPaging TranscriptDocument Schedule

variable {columns : Columns} {runtimeOf : String → String}

section Batch

variable {db : Database} {covered : LedgerRow → Prop} {invocationId : String} {events : List LedgerRow}

theorem foldl_processEvent (events : List LedgerRow)
    (hevs : ∀ event ∈ events, event ∈ db.ledger.rows ∧ event.invocationId = invocationId)
    (h : Standing columns runtimeOf db covered invocationId) :
    ∃ db', events.foldl (processEvent columns invocationId (runtimeOf invocationId)) (db, lastTerminalSeq db invocationId) =
        (db', lastTerminalSeq db' invocationId) ∧
      Touches invocationId db db' ∧
      Standing columns runtimeOf db' (fun row => covered row ∨ row ∈ events) invocationId := by
  induction events generalizing db covered with
  | nil =>
    exact ⟨db, rfl, .refl _ _, h.mono fun _ _ _ _ hc => hc.resolve_right List.not_mem_nil⟩
  | cons event events ih =>
    obtain ⟨hev, rfl⟩ := hevs event List.mem_cons_self
    obtain ⟨next, hn, ht, hs⟩ := processEvent_standing h hev
    obtain ⟨last, hl, hr, hf⟩ := ih (fun e he => by
      rw [ht.ledger]
      exact hevs e (List.mem_cons_of_mem _ he)) hs
    refine ⟨last, by rw [List.foldl_cons, hn, hl], ht.trans hr, hf.mono fun row _ _ _ hc => ?_⟩
    rcases hc with hc | hm
    · exact .inl (.inl hc)
    · rcases List.mem_cons.mp hm with rfl | hm
      · exact .inl (.inr rfl)
      · exact .inr hm

theorem processInvocationEvents_standing (events : List LedgerRow)
    (he : ∀ event ∈ events, event ∈ db.ledger.rows ∧ event.invocationId = invocationId ∧
      event.runtimeId = runtimeOf invocationId ∧ runtimeOf invocationId ≠ "")
    (h : Standing columns runtimeOf db covered invocationId) :
    Touches invocationId db (processInvocationEvents columns invocationId events db) ∧
      Standing columns runtimeOf (processInvocationEvents columns invocationId events db)
        (fun row => covered row ∨ row ∈ events) invocationId := by
  have hp : (sortBy bySeqThenId events).Perm events := perm_sortBy _ _
  unfold processInvocationEvents
  split
  · rename_i hn
    rw [hn] at hp
    rw [← hp.nil_eq]
    exact ⟨.refl _ _, h.mono fun _ _ _ _ hc => hc.resolve_right List.not_mem_nil⟩
  · rename_i first rest hs
    rw [hs] at hp
    obtain ⟨-, -, hrt, hnon⟩ := he first (hp.mem_iff.mp List.mem_cons_self)
    obtain ⟨last, hl, ht, hstd⟩ := foldl_processEvent (first :: rest) (fun event hev =>
      have hm := he event (hp.mem_iff.mp hev)
      ⟨hm.1, hm.2.1⟩) h
    rw [if_neg (by rw [hrt]; exact hnon), hrt, hl]
    exact ⟨ht, hstd.mono fun row _ _ _ hc => hc.imp_right hp.mem_iff.mpr⟩

structure Sound (runtimeOf : String → String) (db : Database) : Prop where
  ascending : db.ledger.rows.Pairwise (·.id < ·.id)
  ids : ∀ row ∈ db.ledger.rows, 1 ≤ row.id ∧ row.id < db.nextEventId
  runtimes : ∀ row ∈ db.ledger.rows, row.runtimeId = runtimeOf row.invocationId ∧ runtimeOf row.invocationId ≠ ""
  cursor : db.lastEventId < db.nextEventId

theorem foldl_groups (covered : LedgerRow → Prop) (hrts : ∀ row ∈ db.ledger.rows, row.runtimeId = runtimeOf row.invocationId ∧
      runtimeOf row.invocationId ≠ "")
    (he : ∀ event ∈ events, event ∈ db.ledger.rows)
    (h : ∀ invocationId, Standing columns runtimeOf db covered invocationId) (ids : List String) :
    ∀ db', db' = ids.foldl (fun db invocationId =>
        processInvocationEvents columns invocationId (events.filter (·.invocationId = invocationId)) db) db →
      (db'.ledger = db.ledger ∧ db'.runtimes = db.runtimes ∧ db'.nextEventId = db.nextEventId) ∧
      ∀ invocationId, Standing columns runtimeOf db' (fun row => covered row ∨ row ∈ events ∧ row.invocationId ∈ ids)
        invocationId := by
  induction ids generalizing db covered with
  | nil =>
    rintro db' rfl
    exact ⟨⟨rfl, rfl, rfl⟩, fun invocationId => (h invocationId).mono fun row _ _ _ hc =>
      hc.resolve_right fun hm => List.not_mem_nil hm.2⟩
  | cons id ids ih =>
    rintro db' hdb'
    obtain ⟨ht, hs⟩ := processInvocationEvents_standing
      (events.filter (·.invocationId = id)) (fun event hev => by
        obtain ⟨hm, hid⟩ := List.mem_filter.mp hev
        obtain rfl := of_decide_eq_true hid
        exact ⟨he event hm, rfl, hrts event (he event hm)⟩) (h id)
    rw [List.foldl_cons] at hdb'
    generalize processInvocationEvents columns id (events.filter (·.invocationId = id)) db = next at ht hs hdb'
    obtain ⟨⟨hl, hk, hni⟩, hall⟩ := ih
      (fun row => covered row ∨ row ∈ events ∧ row.invocationId = id) (by rw [ht.ledger]; exact hrts)
      (by rw [ht.ledger]; exact he) (fun invocationId => by
        by_cases hid : invocationId = id
        · subst hid
          refine hs.mono fun row _ _ _ hc => hc.imp_right fun ⟨hm, hr⟩ => ?_
          exact List.mem_filter.mpr ⟨hm, decide_eq_true hr⟩
        · refine ((h invocationId).other ht hid).mono fun row _ hr _ hc => ?_
          exact hc.resolve_right fun hm => hid (hr.symm.trans hm.2)) db' hdb'
    refine ⟨⟨hl.trans ht.ledger, hk.trans ht.runtimes, hni.trans ht.nextEventId⟩,
      fun invocationId => (hall invocationId).mono fun row _ _ _ hc => ?_⟩
    rcases hc with hc | ⟨hm, hid⟩
    · exact .inl (.inl hc)
    · rcases List.mem_cons.mp hid with hid | hid
      · exact .inl (.inr ⟨hm, hid⟩)
      · exact .inr ⟨hm, hid⟩

theorem strict_listTranscriptTail (hasc : db.ledger.rows.Pairwise (·.id < ·.id)) (p : LedgerRow → Bool) :
    (sortBy byId (db.ledger.rows.filter p)).Pairwise fun a b => byId a b = .lt :=
  strict_sortBy byId ((hasc.filter p).imp fun {a b} hlt heq => Nat.ne_of_lt hlt (Nat.compare_eq_eq.mp heq))

theorem mem_listTranscriptTail {row : LedgerRow} {afterId throughId limit : Nat}
    (h : row ∈ listTranscriptTail db afterId throughId limit) : row ∈ db.ledger.rows ∧ row.id ≤ throughId := by
  obtain ⟨hm, hr⟩ := List.mem_filter.mp ((perm_sortBy byId _).mem_iff.mp (List.mem_of_mem_take h))
  simp only [Bool.and_eq_true, decide_eq_true_eq] at hr
  exact ⟨hm, hr.1.2⟩

variable {run : TailRun} {batchSize : Nat}

/-- The cursor moves past no transcript row that its batch did not read. -/
theorem nextCursor_covers (hasc : db.ledger.rows.Pairwise (·.id < ·.id))
    (hbt : 1 ≤ batchSize) {row : LedgerRow} (hr : row ∈ db.ledger.rows) (hal : row.type ∈ transcriptAlphabet)
    (h : row.id ≤ nextCursor run batchSize (listTranscriptTail db run.cursor run.ceiling batchSize)) :
    row.id ≤ run.cursor ∨ row ∈ listTranscriptTail db run.cursor run.ceiling batchSize := by
  refine or_iff_not_imp_left.mpr fun hp => ?_
  have hlim : max 1 batchSize = batchSize := Nat.max_eq_right hbt
  have ht : ∀ e ∈ listTranscriptTail db run.cursor run.ceiling batchSize, e.id ≤ run.ceiling := fun e he =>
    (mem_listTranscriptTail he).2
  have hin (hc : row.id ≤ run.ceiling) : row ∈ sortBy byId (db.ledger.rows.filter fun row =>
      decide (run.cursor < row.id) && decide (row.id ≤ run.ceiling) && decide (row.type ∈ transcriptAlphabet)) :=
    (perm_sortBy byId _).mem_iff.mpr (List.mem_filter.mpr ⟨hr, by simp [hc, hal, Nat.lt_of_not_le hp]⟩)
  have hstr := strict_listTranscriptTail hasc fun row =>
    decide (run.cursor < row.id) && decide (row.id ≤ run.ceiling) && decide (row.type ∈ transcriptAlphabet)
  unfold listTranscriptTail at h ht ⊢
  rw [hlim] at h ht ⊢
  generalize sortBy byId (db.ledger.rows.filter fun row =>
    decide (run.cursor < row.id) && decide (row.id ≤ run.ceiling) && decide (row.type ∈ transcriptAlphabet)) = rows
    at h ht hin hstr ⊢
  unfold nextCursor at h
  split at h
  · rename_i hf
    rcases List.eq_nil_or_concat (rows.take batchSize) with hn | ⟨before, last, hl⟩
    · rw [hn] at hf
      simp only [List.length_nil] at hf
      omega
    · rw [List.concat_eq_append] at hl
      rw [hl, List.getLast?_concat, Option.map_some, Option.getD_some] at h
      have hc : last.id ≤ run.ceiling :=
        ht last (by rw [hl]; exact List.mem_append_right _ (List.mem_singleton_self _))
      have hm := hin (Nat.le_trans h hc)
      rw [← List.take_append_drop batchSize rows] at hm hstr
      refine (List.mem_append.mp hm).resolve_right fun hd => ?_
      have hlt := (List.pairwise_append.mp hstr).2.2 last
        (by rw [hl]; exact List.mem_append_right _ (List.mem_singleton_self _)) row hd
      have := Nat.compare_eq_lt.mp hlt
      omega
  · rename_i hs
    rw [List.length_take] at hs
    rw [List.take_of_length_le (by omega)]
    exact hin h

theorem nextCursor_lt (hi : ∀ row ∈ db.ledger.rows, 1 ≤ row.id ∧ row.id < db.nextEventId)
    (hcur : run.cursor < db.nextEventId) (hc : run.ceiling < db.nextEventId) :
    nextCursor run batchSize (listTranscriptTail db run.cursor run.ceiling batchSize) < db.nextEventId := by
  unfold nextCursor
  split
  · cases hl : (listTranscriptTail db run.cursor run.ceiling batchSize).getLast? with
    | none => exact hcur
    | some last => exact (hi last (mem_listTranscriptTail (List.mem_of_getLast? hl)).1).2
  · exact hc

theorem applyBatch_standing (hs : Sound runtimeOf db) (hbt : 1 ≤ batchSize)
    (hcur : run.cursor = db.lastEventId)
    (h : ∀ invocationId, Standing columns runtimeOf db (·.id ≤ db.lastEventId) invocationId) :
    ((applyBatch columns run batchSize db).ledger = db.ledger ∧
      (applyBatch columns run batchSize db).nextEventId = db.nextEventId) ∧
    ∀ invocationId, Standing columns runtimeOf (applyBatch columns run batchSize db)
      (·.id ≤ (applyBatch columns run batchSize db).lastEventId) invocationId := by
  have hevs : ∀ event ∈ listTranscriptTail db run.cursor run.ceiling batchSize, event ∈ db.ledger.rows := fun e he =>
    (mem_listTranscriptTail he).1
  obtain ⟨⟨hl, -, hni⟩, hall⟩ := foldl_groups _ hs.runtimes hevs h _ _ rfl
  refine ⟨⟨hl, hni⟩, fun invocationId => ?_⟩
  have hf : Standing columns runtimeOf _ (fun row =>
      row.id ≤ nextCursor run batchSize (listTranscriptTail db run.cursor run.ceiling batchSize)) invocationId :=
    (hall invocationId).mono fun row hrow _ hr hc => by
      rw [hl] at hrow
      have hal : row.type ∈ transcriptAlphabet :=
        ((Bool.or_eq_true _ _).mp hr).elim alphabet_of_terminal alphabet_of_prose
      rcases nextCursor_covers hs.ascending hbt hrow hal hc with hold | hm
      · exact .inl (by rw [← hcur]; exact hold)
      · exact .inr ⟨hm, List.mem_eraseDups.mpr (List.mem_map_of_mem hm)⟩
  exact ⟨hf.reached, hf.anchored, hf.settled⟩

end Batch

end HrcRuntime.TranscriptIndex
