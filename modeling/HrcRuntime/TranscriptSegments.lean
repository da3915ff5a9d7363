import HrcRuntime.BoundaryChain
import HrcRuntime.TranscriptIndex

namespace HrcRuntime.TranscriptIndex

open KeysetPaging TranscriptDocument

variable {columns : Columns} {db : Database} {invocationId runtimeId : String} {row : LedgerRow}

instance : Std.TransCmp bySeq := transCmp_on compare LedgerRow.seq

instance : Std.TransCmp byId := transCmp_on compare LedgerRow.id

theorem bySeq_lt {a b : LedgerRow} : bySeq a b = .lt ↔ a.seq < b.seq := Nat.compare_eq_lt

theorem extractTurnDocument_congr {l l' : List LedgerRow} (hh : (sortBy bySeq l).head? = (sortBy bySeq l').head?)
    (hl : (sortBy bySeq l).getLast? = (sortBy bySeq l').getLast?)
    (hp : (sortBy bySeq l).filter (isProse ·.type) = (sortBy bySeq l').filter (isProse ·.type)) :
    extractTurnDocument columns l = extractTurnDocument columns l' := by
  have hof (type : String) (ht : isProse type = true) :
      (sortBy bySeq l).filter (·.type = type) = (sortBy bySeq l').filter (·.type = type) := by
    have hf (rows : List LedgerRow) :
        rows.filter (·.type = type) = (rows.filter (isProse ·.type)).filter (·.type = type) := by
      rw [List.filter_filter]
      refine List.filter_congr fun event _ => ?_
      by_cases h : event.type = type
      · simp [h, ht]
      · simp [h]
    rw [hf, hp, ← hf]
  have hass : assistantMessages columns (sortBy bySeq l) = assistantMessages columns (sortBy bySeq l') := by
    unfold assistantMessages
    rw [hof "assistant.message.completed" (by decide)]
  have hd (first terminal : LedgerRow) (status : TranscriptTerminalStatus) :
      turnDocument columns first terminal status (sortBy bySeq l) =
        turnDocument columns first terminal status (sortBy bySeq l') := by
    unfold turnDocument
    rw [hof "user.message" (by decide), hass]
  simp only [extractTurnDocument, hh, hl, hd]

section Ranges

def inRange (invocationId : String) (lo hi : Nat) (row : LedgerRow) : Bool :=
  decide (row.invocationId = invocationId) && decide (lo < row.seq) && decide (row.seq ≤ hi) &&
    decide (row.type ∈ transcriptAlphabet)

variable {lo hi : Nat}

theorem inRange_iff :
    inRange invocationId lo hi row = true ↔
      row.invocationId = invocationId ∧ lo < row.seq ∧ row.seq ≤ hi ∧ row.type ∈ transcriptAlphabet := by
  simp [inRange, and_assoc]

theorem listTranscriptRange_eq (db : Database) (invocationId : String) (lo hi : Nat) :
    listTranscriptRange db invocationId lo hi = sortBy bySeq (db.ledger.rows.filter (inRange invocationId lo hi)) := rfl

theorem mem_listTranscriptRange :
    row ∈ listTranscriptRange db invocationId lo hi ↔
      row ∈ db.ledger.rows ∧ row.invocationId = invocationId ∧ lo < row.seq ∧ row.seq ≤ hi ∧
        row.type ∈ transcriptAlphabet := by
  rw [listTranscriptRange_eq, (perm_sortBy bySeq _).mem_iff, List.mem_filter, inRange_iff]

theorem pairwise_bySeq {rows : List LedgerRow} (hnd : (rows.map fun row => (row.invocationId, row.seq)).Nodup)
    {p : LedgerRow → Bool} (hp : ∀ row, p row = true → row.invocationId = invocationId) :
    (rows.filter p).Pairwise fun a b => bySeq a b ≠ .eq := by
  refine ((List.pairwise_map.mp hnd).filter p).imp_of_mem fun {a b} ha hb hne heq => hne ?_
  rw [hp a (List.mem_filter.mp ha).2, hp b (List.mem_filter.mp hb).2, Nat.compare_eq_eq.mp heq]

theorem strict_listTranscriptRange (lo hi : Nat) :
    (listTranscriptRange db invocationId lo hi).Pairwise fun a b => bySeq a b = .lt :=
  strict_sortBy bySeq (pairwise_bySeq db.ledger.nodup fun _ h => (inRange_iff.mp h).1)

theorem sortBy_listTranscriptRange (lo hi : Nat) :
    sortBy bySeq (listTranscriptRange db invocationId lo hi) = listTranscriptRange db invocationId lo hi :=
  List.Pairwise.insertionSort_eq ((strict_listTranscriptRange lo hi).imp fun h => by rw [h]; rfl)

def segmentDocument (columns : Columns) (db : Database) (invocationId : String) (lo hi : Nat) : Option TurnDocument :=
  extractTurnDocument columns (listTranscriptRange db invocationId lo hi)

variable {document : TurnDocument}

theorem segmentDocument_eq_some
    (h : segmentDocument columns db invocationId lo hi = some document) :
    ∃ first ∈ listTranscriptRange db invocationId lo hi, ∃ terminal,
      (listTranscriptRange db invocationId lo hi).getLast? = some terminal ∧
        document.invocationId = terminal.invocationId ∧ document.seqFrom = first.seq ∧ document.seqTo = terminal.seq := by
  unfold segmentDocument extractTurnDocument at h
  rw [sortBy_listTranscriptRange] at h
  dsimp only at h
  split at h
  · rename_i first terminal hf hl
    obtain ⟨status, -, rfl⟩ := Option.map_eq_some_iff.mp h
    exact ⟨first, List.mem_of_mem_head? hf, terminal, hl, rfl, rfl, rfl⟩
  · cases h

theorem segmentDocument_bounds
    (h : segmentDocument columns db invocationId lo hi = some document) :
    document.invocationId = invocationId ∧ lo < document.seqFrom ∧ document.seqFrom ≤ hi := by
  obtain ⟨first, hfst, terminal, hl, hid, hf, -⟩ := segmentDocument_eq_some h
  obtain ⟨-, -, hlo, hhi, -⟩ := mem_listTranscriptRange.mp hfst
  obtain ⟨-, hinv, -⟩ := mem_listTranscriptRange.mp (List.mem_of_getLast? hl)
  exact ⟨hid.trans hinv, by omega, by omega⟩

theorem segmentDocument_seqTo {terminal : LedgerRow} (hm : terminal ∈ db.ledger.rows)
    (hi : terminal.invocationId = invocationId) (ht : terminal.type ∈ transcriptAlphabet)
    (h : segmentDocument columns db invocationId lo terminal.seq = some document) : document.seqTo = terminal.seq := by
  obtain ⟨hid, hf, hto⟩ := segmentDocument_bounds h
  obtain ⟨first, hfst, last, hl, -, -, hst⟩ := segmentDocument_eq_some h
  have hr : terminal ∈ listTranscriptRange db invocationId lo terminal.seq :=
    mem_listTranscriptRange.mpr ⟨hm, hi, by omega, Nat.le_refl _, ht⟩
  obtain ⟨-, -, -, hle, -⟩ := mem_listTranscriptRange.mp (List.mem_of_getLast? hl)
  obtain ⟨before, hsp⟩ := List.getLast?_eq_some_iff.mp hl
  have hstr : (listTranscriptRange db invocationId lo terminal.seq).Pairwise _ := strict_listTranscriptRange lo terminal.seq
  rw [hsp] at hr hstr
  rw [hst]
  rcases List.mem_append.mp hr with hbef | hs
  · have := bySeq_lt.mp ((List.pairwise_append.mp hstr).2.2 terminal hbef last (List.mem_singleton_self _))
    omega
  · rw [List.mem_singleton.mp hs]

end Ranges

def terminalSeqs (db : Database) (invocationId : String) : List Nat :=
  (listTranscriptTerminals db invocationId).map (·.seq)

def isTerminalOf (invocationId : String) (row : LedgerRow) : Bool :=
  decide (row.invocationId = invocationId) && isTerminal row.type

theorem isTerminalOf_iff : isTerminalOf invocationId row = true ↔ row.invocationId = invocationId ∧ isTerminal row.type = true := by
  simp [isTerminalOf]

theorem listTranscriptTerminals_eq (db : Database) (invocationId : String) :
    listTranscriptTerminals db invocationId = sortBy bySeq (db.ledger.rows.filter (isTerminalOf invocationId)) := rfl

theorem pairwise_terminals :
    (db.ledger.rows.filter (isTerminalOf invocationId)).Pairwise fun a b => bySeq a b ≠ .eq :=
  pairwise_bySeq db.ledger.nodup fun _ h => (isTerminalOf_iff.mp h).1

theorem ascending_terminalSeqs : (terminalSeqs db invocationId).Pairwise (· < ·) :=
  List.pairwise_map.mpr ((strict_sortBy bySeq pairwise_terminals).imp bySeq_lt.mp)

theorem mem_terminalSeqs {seq : Nat} :
    seq ∈ terminalSeqs db invocationId ↔
      ∃ row ∈ db.ledger.rows, row.invocationId = invocationId ∧ isTerminal row.type = true ∧ row.seq = seq := by
  unfold terminalSeqs
  simp only [List.mem_map, listTranscriptTerminals_eq, (perm_sortBy bySeq _).mem_iff, List.mem_filter, isTerminalOf_iff,
    and_assoc]

theorem filter_terminalSeqs (mark : Nat) :
    (terminalSeqs db invocationId).filter (· ≤ mark) =
      (sortBy bySeq ((db.ledger.rows.filter (isTerminalOf invocationId)).filter (·.seq ≤ mark))).map (·.seq) := by
  rw [terminalSeqs, listTranscriptTerminals_eq, List.filter_map, ← filter_sortBy bySeq _ pairwise_terminals]
  rfl

theorem alphabet_of_terminal (h : isTerminal row.type = true) : row.type ∈ transcriptAlphabet :=
  List.mem_append_left _ (List.mem_append_left _ (of_decide_eq_true h))

theorem alphabet_of_prose (h : isProse row.type = true) : row.type ∈ transcriptAlphabet :=
  List.mem_append_right _ (of_decide_eq_true h)

section Growth

variable {db' : Database} (hrows : db'.ledger.rows = db.ledger.rows ++ [row])
include hrows

variable {lo hi : Nat}

theorem listTranscriptRange_append_out (hout : ¬inRange invocationId lo hi row = true) :
    listTranscriptRange db' invocationId lo hi = listTranscriptRange db invocationId lo hi := by
  rw [listTranscriptRange_eq, listTranscriptRange_eq, hrows, List.filter_append, List.filter_singleton]
  simp [hout]

theorem segmentDocument_append_out (hout : ¬inRange invocationId lo hi row = true) :
    segmentDocument columns db' invocationId lo hi = segmentDocument columns db invocationId lo hi := by
  rw [segmentDocument, segmentDocument, listTranscriptRange_append_out hrows hout]

/-- A row that is no prose, between the first row of a segment and its last, shows in no column. -/
theorem segmentDocument_append_in {first last : LedgerRow} (hin : inRange invocationId lo hi row = true)
    (hp : isProse row.type = false) (hfst : first ∈ listTranscriptRange db invocationId lo hi)
    (hbef : first.seq < row.seq) (hl : last ∈ listTranscriptRange db invocationId lo hi)
    (haft : row.seq < last.seq) :
    segmentDocument columns db' invocationId lo hi = segmentDocument columns db invocationId lo hi := by
  have hf : db'.ledger.rows.filter (inRange invocationId lo hi) =
      db.ledger.rows.filter (inRange invocationId lo hi) ++ [row] := by
    rw [hrows, List.filter_append, List.filter_singleton, hin, cond_true]
  have hne : (db.ledger.rows.filter (inRange invocationId lo hi) ++ [row]).Pairwise fun a b => bySeq a b ≠ .eq := by
    rw [← hf]
    exact pairwise_bySeq db'.ledger.nodup fun _ h => (inRange_iff.mp h).1
  have hs : (listTranscriptRange db' invocationId lo hi).Pairwise _ := strict_listTranscriptRange lo hi
  obtain ⟨before, after, hs', hsp⟩ := sortBy_concat bySeq hne
  rw [← hf, ← listTranscriptRange_eq] at hs'
  rw [← listTranscriptRange_eq] at hsp
  rw [hs'] at hs
  obtain ⟨-, hr, hc⟩ := List.pairwise_append.mp hs
  have he : first ∈ before := by
    rw [hsp] at hfst
    refine (List.mem_append.mp hfst).resolve_right fun h => ?_
    have := bySeq_lt.mp (List.rel_of_pairwise_cons hr h)
    omega
  have hlat : last ∈ after := by
    rw [hsp] at hl
    refine (List.mem_append.mp hl).resolve_left fun h => ?_
    have := bySeq_lt.mp (hc last h row List.mem_cons_self)
    omega
  refine extractTurnDocument_congr ?_ ?_ ?_
  · rw [sortBy_listTranscriptRange, sortBy_listTranscriptRange, hsp, hs']
    cases before with
    | nil => cases he
    | cons _ _ => rfl
  · rw [sortBy_listTranscriptRange, sortBy_listTranscriptRange, hsp, hs']
    cases after with
    | nil => cases hlat
    | cons a after =>
      rw [List.getLast?_append_of_ne_nil _ (List.cons_ne_nil _ _), List.getLast?_cons_cons,
        List.getLast?_append_of_ne_nil _ (List.cons_ne_nil _ _)]
  · rw [sortBy_listTranscriptRange, sortBy_listTranscriptRange, hsp, hs', List.filter_append, List.filter_append,
      List.filter_cons_of_neg (by simp [hp])]

theorem filter_terminalSeqs_append {mark : Nat} (hout : isTerminalOf invocationId row = true → mark < row.seq) :
    (terminalSeqs db' invocationId).filter (· ≤ mark) = (terminalSeqs db invocationId).filter (· ≤ mark) := by
  rw [filter_terminalSeqs, filter_terminalSeqs, hrows, List.filter_append, List.filter_append, List.filter_singleton]
  cases ht : isTerminalOf invocationId row with
  | false => rw [cond_false, List.filter_nil, List.append_nil]
  | true =>
    rw [cond_true, List.filter_cons_of_neg (by simpa using hout ht), List.filter_nil, List.append_nil]

end Growth

end HrcRuntime.TranscriptIndex
