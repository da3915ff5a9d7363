import HrcRuntime.TranscriptSegments

namespace HrcRuntime.TranscriptIndex

open Keyed TranscriptDocument BoundaryChain

variable {columns : Columns} {db db' : Database} {invocationId other runtimeId : String} {lo hi : Nat}

def withFacets (facets : RuntimeFacets) (document : TurnDocument) : TranscriptTurn := { document, facets with }

theorem segmentTurn_eq (db : Database) (invocationId runtimeId : String) (lo hi : Nat) :
    segmentTurn columns db invocationId runtimeId lo hi =
      (segmentDocument columns db invocationId lo hi).map (withFacets (runtimeFacets (db.runtimes.find runtimeId))) := rfl

structure Touches (invocationId : String) (db db' : Database) : Prop where
  ledger : db'.ledger = db.ledger
  runtimes : db'.runtimes = db.runtimes
  nextEventId : db'.nextEventId = db.nextEventId
  lastEventId : db'.lastEventId = db.lastEventId
  turns : ∀ other ≠ invocationId, turnsOf db' other = turnsOf db other
  marks : ∀ other ≠ invocationId, lastTerminalSeq db' other = lastTerminalSeq db other

theorem Touches.refl (invocationId : String) (db : Database) : Touches invocationId db db :=
  ⟨rfl, rfl, rfl, rfl, fun _ _ => rfl, fun _ _ => rfl⟩

theorem Touches.trans {db'' : Database} (h : Touches invocationId db db') (h' : Touches invocationId db' db'') :
    Touches invocationId db db'' where
  ledger := h'.ledger.trans h.ledger
  runtimes := h'.runtimes.trans h.runtimes
  nextEventId := h'.nextEventId.trans h.nextEventId
  lastEventId := h'.lastEventId.trans h.lastEventId
  turns other hne := (h'.turns other hne).trans (h.turns other hne)
  marks other hne := (h'.marks other hne).trans (h.marks other hne)

theorem Touches.segmentTurn_eq (h : Touches invocationId db db') :
    segmentTurn columns db' other runtimeId = segmentTurn columns db other runtimeId := by
  funext lo hi
  simp only [segmentTurn, listTranscriptRange, h.ledger, h.runtimes]

theorem Touches.terminalSeqs_eq (h : Touches invocationId db db') : terminalSeqs db' other = terminalSeqs db other := by
  simp only [terminalSeqs, listTranscriptTerminals, h.ledger]

variable {turn : TranscriptTurn}

theorem upsertTurn_touches (h : turn.invocationId = invocationId) :
    Touches invocationId db (upsertTurn db turn) := by
  refine ⟨rfl, rfl, rfl, rfl, fun other hne => filter_upsert _ fun a ha => ?_, fun _ _ => rfl⟩
  have hid : a.invocationId = invocationId := (congrArg Prod.fst ha).trans h
  simpa [hid] using Ne.symm hne

theorem setInvocationMark_touches (db : Database) {mark : TranscriptInvocationMark} (h : mark.invocationId = invocationId) :
    Touches invocationId db (setInvocationMark db mark) := by
  refine ⟨rfl, rfl, rfl, rfl, fun _ _ => rfl, fun other hne => ?_⟩
  unfold lastTerminalSeq setInvocationMark
  rw [find_upsert_of_ne _ (by rw [h]; exact hne)]

theorem lastTerminalSeq_setInvocationMark (db : Database) (mark : TranscriptInvocationMark) :
    lastTerminalSeq (setInvocationMark db mark) mark.invocationId = mark.lastTerminalSeq := by
  unfold lastTerminalSeq setInvocationMark
  rw [find_upsert_self]
  cases db.marks.find mark.invocationId <;> rfl

theorem segmentTurn_bounds (h : segmentTurn columns db invocationId runtimeId lo hi = some turn) :
    turn.invocationId = invocationId ∧ lo < turn.seqFrom ∧ turn.seqFrom ≤ hi := by
  obtain ⟨document, hd, rfl⟩ := Option.map_eq_some_iff.mp h
  exact segmentDocument_bounds hd

theorem emitSegment_touches : Touches invocationId db (emitSegment columns invocationId runtimeId lo hi db) := by
  unfold emitSegment
  split
  · exact .refl _ _
  · rename_i turn ht
    exact upsertTurn_touches (segmentTurn_bounds ht).1

theorem emitSegment_turnsOf (columns : Columns) (runtimeId : String) (hi : Nat) (h : ∀ turn ∈ turnsOf db invocationId, turn.seqFrom ≤ lo) :
    turnsOf (emitSegment columns invocationId runtimeId lo hi db) invocationId =
      turnsOf db invocationId ++ (segmentTurn columns db invocationId runtimeId lo hi).toList := by
  unfold emitSegment
  split
  · rename_i hnn
    rw [hnn, Option.toList_none, List.append_nil]
  · rename_i turn ht
    obtain ⟨hid, hlo, -⟩ := segmentTurn_bounds ht
    have hn : db.turns.find (turn.invocationId, turn.seqFrom) = none := by
      refine find_eq_none.mpr fun hm => ?_
      obtain ⟨stored, hs, hk⟩ := List.mem_map.mp hm
      have hf : stored.seqFrom = turn.seqFrom := congrArg Prod.snd hk
      have hinv : stored.invocationId = invocationId := (congrArg Prod.fst hk).trans hid
      have := h stored (List.mem_filter.mpr ⟨hs, by simpa using hinv⟩)
      omega
    unfold turnsOf upsertTurn
    rw [rows_upsert _ hn, List.filter_append, List.filter_cons_of_pos (by simpa using hid), ht]
    rfl

/-- Segment after segment, the turns of a chain of terminals are added. -/
theorem emitUpTo_turnsOf (columns : Columns) (db : Database) (runtimeId : String) {terminals : List LedgerRow} {previous : Nat}
    (hasc : (terminals.map (·.seq)).Pairwise (· < ·)) (hp : ∀ t ∈ terminals, previous ≤ t.seq)
    (h : ∀ turn ∈ turnsOf db invocationId, turn.seqFrom ≤ previous) :
    Touches invocationId db (terminals.foldl (emitUpTo columns invocationId runtimeId) (db, previous)).1 ∧
      turnsOf (terminals.foldl (emitUpTo columns invocationId runtimeId) (db, previous)).1 invocationId =
        turnsOf db invocationId ++
          chain (segmentTurn columns db invocationId runtimeId) previous (terminals.map (·.seq)) ∧
      (terminals.foldl (emitUpTo columns invocationId runtimeId) (db, previous)).2 =
        (terminals.map (·.seq)).getLast?.getD previous := by
  induction terminals generalizing db previous with
  | nil => exact ⟨.refl _ _, (List.append_nil _).symm, rfl⟩
  | cons terminal terminals ih =>
    have hnx := emitSegment_turnsOf columns runtimeId terminal.seq h
    have htc : Touches invocationId db (emitSegment columns invocationId runtimeId previous terminal.seq db) :=
      emitSegment_touches
    obtain ⟨htr, hr⟩ := List.pairwise_cons.mp hasc
    obtain ⟨htch, htur, hl⟩ := ih (emitSegment columns invocationId runtimeId previous terminal.seq db)
      hr (fun t ht => Nat.le_of_lt (htr t.seq (List.mem_map_of_mem ht))) fun turn htu => by
        rw [hnx] at htu
        rcases List.mem_append.mp htu with hold | hn
        · exact Nat.le_trans (h turn hold) (hp terminal List.mem_cons_self)
        · exact (segmentTurn_bounds (Option.mem_toList.mp hn)).2.2
    refine ⟨htc.trans htch, ?_, ?_⟩
    · rw [List.foldl_cons, List.map_cons, chain, ← List.append_assoc, ← hnx, ← htc.segmentTurn_eq]
      exact htur
    · rw [List.foldl_cons, List.map_cons, getLast?_getD_cons]
      exact hl

theorem deleteTurnsForInvocation_touches : Touches invocationId db (deleteTurnsForInvocation db invocationId) := by
  refine ⟨rfl, rfl, rfl, rfl, fun other hne => ?_, fun _ _ => rfl⟩
  unfold turnsOf deleteTurnsForInvocation Store.erase
  rw [List.filter_filter]
  refine List.filter_congr fun turn _ => ?_
  by_cases h : turn.invocationId = other
  · simp [h, hne]
  · simp [h]

theorem turnsOf_deleteTurnsForInvocation : turnsOf (deleteTurnsForInvocation db invocationId) invocationId = [] := by
  unfold turnsOf deleteTurnsForInvocation Store.erase
  rw [List.filter_filter, List.filter_eq_nil_iff]
  intro turn _
  simp

theorem reindexInvocation_eq (columns : Columns) (db : Database) (invocationId runtimeId : String) :
    Touches invocationId db (reindexInvocation columns invocationId runtimeId db).1 ∧
      turnsOf (reindexInvocation columns invocationId runtimeId db).1 invocationId =
        chain (segmentTurn columns db invocationId runtimeId) 0 (terminalSeqs db invocationId) ∧
      (reindexInvocation columns invocationId runtimeId db).2 = (terminalSeqs db invocationId).getLast?.getD 0 ∧
      lastTerminalSeq (reindexInvocation columns invocationId runtimeId db).1 invocationId =
        (reindexInvocation columns invocationId runtimeId db).2 := by
  have hd : Touches invocationId db (deleteTurnsForInvocation db invocationId) := deleteTurnsForInvocation_touches
  obtain ⟨ht, htr, hl⟩ := emitUpTo_turnsOf columns (deleteTurnsForInvocation db invocationId) runtimeId
    (show ((listTranscriptTerminals db invocationId).map (·.seq)).Pairwise (· < ·) from ascending_terminalSeqs) (fun _ _ => Nat.zero_le 0 |>.trans (Nat.zero_le _)) fun turn h => by
      rw [turnsOf_deleteTurnsForInvocation] at h
      cases h
  rw [turnsOf_deleteTurnsForInvocation, List.nil_append, hd.segmentTurn_eq] at htr
  exact ⟨(hd.trans ht).trans (setInvocationMark_touches _ rfl), htr, hl,
    lastTerminalSeq_setInvocationMark _ _⟩

end HrcRuntime.TranscriptIndex
