import HrcRuntime.TranscriptRebuild

namespace HrcRuntime.TranscriptIndex

open TranscriptDocument BoundaryChain

variable {columns : Columns} {runtimeOf : String → String}

section Standing

variable {db db' : Database} {covered covered' : LedgerRow → Prop} {invocationId runtimeId : String} {event : LedgerRow}

def repairs (type : String) : Bool := isTerminal type || isProse type

def Pending (db : Database) (covered : LedgerRow → Prop) (invocationId : String) : Prop :=
  ∃ row ∈ db.ledger.rows, row.invocationId = invocationId ∧ repairs row.type = true ∧ ¬covered row ∧
    row.seq ≤ lastTerminalSeq db invocationId

def builtTurns (columns : Columns) (db : Database) (invocationId runtimeId : String) (mark : Nat) : List TranscriptTurn :=
  chain (segmentTurn columns db invocationId runtimeId) 0 ((terminalSeqs db invocationId).filter (· ≤ mark))

structure Standing (columns : Columns) (runtimeOf : String → String) (db : Database) (covered : LedgerRow → Prop)
    (invocationId : String) : Prop where
  reached : ∀ row ∈ db.ledger.rows, row.invocationId = invocationId → isTerminal row.type = true → covered row →
    row.seq ≤ lastTerminalSeq db invocationId
  anchored : lastTerminalSeq db invocationId = 0 ∨ lastTerminalSeq db invocationId ∈ terminalSeqs db invocationId
  settled : ¬Pending db covered invocationId →
    turnsOf db invocationId = builtTurns columns db invocationId (runtimeOf invocationId) (lastTerminalSeq db invocationId)

theorem Standing.mono (h : Standing columns runtimeOf db covered invocationId)
    (hc : ∀ row ∈ db.ledger.rows, row.invocationId = invocationId → repairs row.type = true → covered' row →
      covered row) : Standing columns runtimeOf db covered' invocationId where
  reached row hrow hid ht hrowCovered :=
    h.reached row hrow hid ht (hc row hrow hid (by simp [repairs, ht]) hrowCovered)
  anchored := h.anchored
  settled hp := h.settled fun ⟨row, hrow, hid, hr, hu, hle⟩ =>
    hp ⟨row, hrow, hid, hr, fun h => hu (hc row hrow hid hr h), hle⟩

theorem Standing.other {worked : String} (h : Standing columns runtimeOf db covered invocationId)
    (ht : Touches worked db db') (hne : invocationId ≠ worked) : Standing columns runtimeOf db' covered invocationId where
  reached := by
    rw [ht.ledger, ht.marks _ hne]
    exact h.reached
  anchored := by
    rw [ht.marks _ hne, ht.terminalSeqs_eq]
    exact h.anchored
  settled := by
    unfold Pending builtTurns
    rw [ht.ledger, ht.marks _ hne, ht.turns _ hne, ht.terminalSeqs_eq, ht.segmentTurn_eq]
    exact h.settled

theorem le_getLast {bounds : List Nat} (hasc : bounds.Pairwise (· < ·)) {b : Nat} (h : b ∈ bounds) :
    b ≤ bounds.getLast?.getD 0 := by
  rcases List.eq_nil_or_concat bounds with rfl | ⟨before, last, rfl⟩
  · cases h
  · rw [List.concat_eq_append] at h hasc ⊢
    rw [List.getLast?_concat]
    rcases List.mem_append.mp h with hbef | hl
    · exact Nat.le_of_lt ((List.pairwise_append.mp hasc).2.2 b hbef last (List.mem_singleton_self _))
    · exact Nat.le_of_eq (List.mem_singleton.mp hl)

theorem standing_reindex (db : Database) (covered : LedgerRow → Prop) (invocationId : String) :
    Standing columns runtimeOf (reindexInvocation columns invocationId (runtimeOf invocationId) db).1 covered invocationId := by
  obtain ⟨ht, htu, hl, hm⟩ := reindexInvocation_eq columns db invocationId (runtimeOf invocationId)
  rw [hl] at hm
  refine ⟨fun row hr hid htr _ => ?_, ?_, fun _ => ?_⟩
  · rw [hm]
    rw [ht.ledger] at hr
    exact le_getLast ascending_terminalSeqs (mem_terminalSeqs.mpr ⟨row, hr, hid, htr, rfl⟩)
  · rw [hm, ht.terminalSeqs_eq]
    cases h : (terminalSeqs db invocationId).getLast? with
    | none => exact .inl rfl
    | some last => exact .inr (List.mem_of_getLast? h)
  · rw [builtTurns, hm, ht.terminalSeqs_eq, ht.segmentTurn_eq, htu,
      List.filter_eq_self.mpr fun b hb => decide_eq_true (le_getLast ascending_terminalSeqs hb)]

/-- The terminals up to the one that comes next are those up to the mark and that one. -/
theorem filter_terminalSeqs_next (h : Standing columns runtimeOf db covered event.invocationId)
    (hev : event ∈ db.ledger.rows) (ht : isTerminal event.type = true)
    (haft : lastTerminalSeq db event.invocationId < event.seq)
    (hn : ∀ row ∈ db.ledger.rows, row.invocationId = event.invocationId → isTerminal row.type = true →
      ¬covered row → row = event ∨ event.seq < row.seq) :
    (terminalSeqs db event.invocationId).filter (· ≤ event.seq) =
      (terminalSeqs db event.invocationId).filter (· ≤ lastTerminalSeq db event.invocationId) ++ [event.seq] := by
  refine List.Perm.eq_of_pairwise
    (fun a b _ _ (hab : a < b) (hba : b < a) => absurd (Nat.lt_trans hab hba) (Nat.lt_irrefl a))
    (ascending_terminalSeqs.filter _) ?_ ?_
  · refine List.pairwise_append.mpr ⟨ascending_terminalSeqs.filter _, List.pairwise_singleton _ _, fun a ha b hb => ?_⟩
    have hle := of_decide_eq_true (List.mem_filter.mp ha).2
    rw [List.mem_singleton.mp hb]
    omega
  · refine (List.perm_ext_iff_of_nodup ((ascending_terminalSeqs.filter _).imp Nat.ne_of_lt) ?_).mpr fun seq => ?_
    · refine List.nodup_append.mpr ⟨(ascending_terminalSeqs.filter _).imp Nat.ne_of_lt, List.nodup_singleton _, ?_⟩
      intro a ha b hb
      have hle := of_decide_eq_true (List.mem_filter.mp ha).2
      rw [List.mem_singleton.mp hb]
      omega
    · simp only [List.mem_filter, List.mem_append, List.mem_singleton, decide_eq_true_eq]
      constructor
      · rintro ⟨hs, hle⟩
        obtain ⟨row, hr, hid, hk, rfl⟩ := mem_terminalSeqs.mp hs
        by_cases hc : covered row
        · exact .inl ⟨hs, h.reached row hr hid hk hc⟩
        · rcases hn row hr hid hk hc with rfl | hlt
          · exact .inr rfl
          · omega
      · rintro (⟨hs, hle⟩ | rfl)
        · exact ⟨hs, by omega⟩
        · exact ⟨mem_terminalSeqs.mpr ⟨event, hev, rfl, ht, rfl⟩, Nat.le_refl _⟩

theorem builtTurns_seqFrom {mark : Nat} {turn : TranscriptTurn}
    (h : turn ∈ builtTurns columns db invocationId runtimeId mark) : turn.seqFrom ≤ mark := by
  obtain ⟨lo, hi, hm, ht⟩ := mem_chain h
  have hle := of_decide_eq_true (List.mem_filter.mp hm).2
  exact Nat.le_trans (segmentTurn_bounds ht).2.2 hle

/-- A terminal above the mark adds its segment, and the mark moves to it. -/
theorem standing_terminal (h : Standing columns runtimeOf db covered event.invocationId) (hev : event ∈ db.ledger.rows)
    (htr : isTerminal event.type = true) (haft : lastTerminalSeq db event.invocationId < event.seq) :
    Standing columns runtimeOf
      (setInvocationMark
        (emitSegment columns event.invocationId (runtimeOf event.invocationId) (lastTerminalSeq db event.invocationId)
          event.seq db)
        { invocationId := event.invocationId, runtimeId := runtimeOf event.invocationId, lastTerminalSeq := event.seq })
      (fun row => covered row ∨ row = event) event.invocationId := by
  have he : Touches event.invocationId db (emitSegment columns event.invocationId (runtimeOf event.invocationId)
      (lastTerminalSeq db event.invocationId) event.seq db) := emitSegment_touches
  generalize hsto : emitSegment columns event.invocationId (runtimeOf event.invocationId)
    (lastTerminalSeq db event.invocationId) event.seq db = stored at he ⊢
  have hm := lastTerminalSeq_setInvocationMark stored
    { invocationId := event.invocationId, runtimeId := runtimeOf event.invocationId, lastTerminalSeq := event.seq }
  have ht : Touches event.invocationId db (setInvocationMark stored
      { invocationId := event.invocationId, runtimeId := runtimeOf event.invocationId, lastTerminalSeq := event.seq }) :=
    he.trans (setInvocationMark_touches stored rfl)
  refine ⟨fun row hrow hid hk hc => ?_, .inr ?_, fun hp => ?_⟩
  · rw [hm]
    rw [ht.ledger] at hrow
    rcases hc with hc | rfl
    · exact Nat.le_of_lt (Nat.lt_of_le_of_lt (h.reached row hrow hid hk hc) haft)
    · exact Nat.le_refl _
  · rw [hm, ht.terminalSeqs_eq]
    exact mem_terminalSeqs.mpr ⟨event, hev, rfl, htr, rfl⟩
  · have hah : ∀ row ∈ db.ledger.rows, row.invocationId = event.invocationId → repairs row.type = true →
        ¬covered row → row = event ∨ event.seq < row.seq := fun row hrow hid hr hu => by
      by_contra hnot
      obtain ⟨hne, hle⟩ := not_or.mp hnot
      refine hp ⟨row, by rw [ht.ledger]; exact hrow, hid, hr, not_or.mpr ⟨hu, hne⟩, ?_⟩
      rw [hm]
      exact Nat.le_of_not_lt hle
    have hbef : ¬Pending db covered event.invocationId := fun ⟨row, hrow, hid, hr, hu, hle⟩ => by
      rcases hah row hrow hid hr hu with rfl | hlt <;> omega
    have hs := h.settled hbef
    have htur := emitSegment_turnsOf columns (runtimeOf event.invocationId) event.seq
      (show ∀ turn ∈ turnsOf db event.invocationId, turn.seqFrom ≤ lastTerminalSeq db event.invocationId from
        fun turn htu => builtTurns_seqFrom (by rw [← hs]; exact htu))
    have hn := filter_terminalSeqs_next h hev htr haft fun row hrow hid hk =>
      hah row hrow hid (by simp [repairs, hk])
    rw [hsto, hs] at htur
    rw [builtTurns, hm, ht.terminalSeqs_eq, ht.segmentTurn_eq, hn, chain_concat,
      getLast?_filter_le ascending_terminalSeqs h.anchored]
    exact htur

/-- One row processed: its invocation stands with that row covered. -/
theorem processEvent_standing (h : Standing columns runtimeOf db covered event.invocationId)
    (hev : event ∈ db.ledger.rows) :
    ∃ db', processEvent columns event.invocationId (runtimeOf event.invocationId)
        (db, lastTerminalSeq db event.invocationId) event = (db', lastTerminalSeq db' event.invocationId) ∧
      Touches event.invocationId db db' ∧
      Standing columns runtimeOf db' (fun row => covered row ∨ row = event) event.invocationId := by
  have hr := reindexInvocation_eq columns db event.invocationId (runtimeOf event.invocationId)
  unfold processEvent
  dsimp only
  split
  · rename_i ht
    split
    · exact ⟨_, Prod.ext rfl hr.2.2.2.symm, hr.1, standing_reindex db _ _⟩
    · rename_i haft
      have hm := lastTerminalSeq_setInvocationMark
        (emitSegment columns event.invocationId (runtimeOf event.invocationId) (lastTerminalSeq db event.invocationId)
          event.seq db)
        { invocationId := event.invocationId, runtimeId := runtimeOf event.invocationId, lastTerminalSeq := event.seq }
      refine ⟨_, Prod.ext rfl hm.symm, emitSegment_touches.trans (setInvocationMark_touches _ rfl),
        standing_terminal h hev ht (Nat.lt_of_not_le haft)⟩
  · rename_i ht
    split
    · exact ⟨_, Prod.ext rfl hr.2.2.2.symm, hr.1, standing_reindex db _ _⟩
    · rename_i hpr
      refine ⟨db, rfl, .refl _ _, ?_⟩
      refine ⟨fun row hrow hid hk hc => ?_, h.anchored, fun hp => h.settled fun hold => ?_⟩
      · rcases hc with hc | rfl
        · exact h.reached row hrow hid hk hc
        · exact absurd hk ht
      · obtain ⟨row, hrow, hid, hrep, hu, hle⟩ := hold
        refine hp ⟨row, hrow, hid, hrep, not_or.mpr ⟨hu, ?_⟩, hle⟩
        rintro rfl
        simp only [repairs, ht, Bool.false_or] at hrep
        simp [hrep, hle] at hpr

end Standing

end HrcRuntime.TranscriptIndex
