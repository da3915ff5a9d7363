import HrcRuntime.TranscriptCatchUp

namespace HrcRuntime.TranscriptIndex

open Keyed TranscriptDocument BoundaryChain Schedule

variable {columns : Columns} {runtimeOf : String → String}

section Growth

variable {db db' : Database} {row : LedgerRow} {invocationId runtimeId : String} {mark : Nat}

/-- A new row leaves the segments up to a mark as they are, unless it opens one of them or repairs it. -/
theorem builtTurns_append (hrw : db'.ledger.rows = db.ledger.rows ++ [row]) (hrts : db'.runtimes = db.runtimes)
    (hn : db.ledger.find (row.invocationId, row.seq) = none)
    (hlate : row.invocationId = invocationId → row.type ∈ transcriptAlphabet → row.seq ≤ mark →
      repairs row.type = false ∧ (0 < row.seq →
        listTranscriptRange db invocationId (below 0 row.seq (terminalSeqs db invocationId)) row.seq ≠ [])) :
    builtTurns columns db' invocationId runtimeId mark = builtTurns columns db invocationId runtimeId mark := by
  have hd : ∀ other ∈ db.ledger.rows, other.invocationId = row.invocationId → other.seq ≠ row.seq :=
    fun other hmem hid hs => find_eq_none.mp hn (List.mem_map.mpr ⟨other, hmem, by rw [hid, hs]⟩)
  have ht : (terminalSeqs db' invocationId).filter (· ≤ mark) = (terminalSeqs db invocationId).filter (· ≤ mark) :=
    filter_terminalSeqs_append hrw fun htr => by
      by_contra hle
      obtain ⟨hid, hk⟩ := isTerminalOf_iff.mp htr
      have := (hlate hid (alphabet_of_terminal hk) (Nat.le_of_not_lt hle)).1
      simp [repairs, hk] at this
  have htu {lo hi : Nat} (h : segmentDocument columns db' invocationId lo hi = segmentDocument columns db invocationId lo hi) :
      segmentTurn columns db' invocationId runtimeId lo hi = segmentTurn columns db invocationId runtimeId lo hi := by
    rw [segmentTurn_eq, segmentTurn_eq, h, hrts]
  rw [builtTurns, builtTurns, ht]
  refine chain_congr (ascending_terminalSeqs.filter _) (fun _ _ => Nat.zero_le _) (x := row.seq) (fun lo hi hout => ?_)
    fun hi hmem hs => ?_
  · exact htu (segmentDocument_append_out hrw fun hin => hout ⟨(inRange_iff.mp hin).2.1, (inRange_iff.mp hin).2.2.1⟩)
  · obtain ⟨htr, hm⟩ := List.mem_filter.mp hmem
    have hm := of_decide_eq_true hm
    have hblw : below 0 row.seq ((terminalSeqs db invocationId).filter (· ≤ mark)) =
        below 0 row.seq (terminalSeqs db invocationId) := by
      unfold below
      rw [List.filter_filter]
      refine congrArg (fun bounds => (List.getLast? bounds).getD 0) (List.filter_congr fun b _ => ?_)
      by_cases hb : b < row.seq
      · simp [hb, Nat.le_trans (Nat.le_of_lt hb) (Nat.le_trans hs hm)]
      · simp [hb]
    rw [hblw]
    by_cases hin : inRange invocationId (below 0 row.seq (terminalSeqs db invocationId)) hi row = true
    · obtain ⟨hid, hlo, -, hal⟩ := inRange_iff.mp hin
      obtain ⟨hr, hf⟩ := hlate hid hal (Nat.le_trans hs hm)
      obtain ⟨first, hf⟩ := List.exists_mem_of_ne_nil _ (hf (Nat.lt_of_le_of_lt (Nat.zero_le _) hlo))
      obtain ⟨hfm, hfi, hfl, hfs, hft⟩ := mem_listTranscriptRange.mp hf
      obtain ⟨last, hlm, hli, hlk, rfl⟩ := mem_terminalSeqs.mp htr
      have hfn := hd first hfm (hfi.trans hid.symm)
      have hln := hd last hlm (hli.trans hid.symm)
      have hp : isProse row.type = false := (Bool.or_eq_false_iff.mp hr).2
      refine htu (segmentDocument_append_in hrw hin hp
        (mem_listTranscriptRange.mpr ⟨hfm, hfi, hfl, by omega, hft⟩) (by omega)
        (mem_listTranscriptRange.mpr ⟨hlm, hli, by omega, Nat.le_refl _, alphabet_of_terminal hlk⟩) (by omega))
    · exact htu (segmentDocument_append_out hrw hin)

theorem builtTurns_eq_map (db : Database) (invocationId runtimeId : String) (mark : Nat) :
    builtTurns columns db invocationId runtimeId mark =
      (chain (segmentDocument columns db invocationId) 0 ((terminalSeqs db invocationId).filter (· ≤ mark))).map
        (withFacets (runtimeFacets (db.runtimes.find runtimeId))) :=
  chain_map _

end Growth

section Conditions

def repairPending (db : Database) (invocationId : String) : Bool :=
  db.ledger.rows.any fun row =>
    decide (row.invocationId = invocationId) && repairs row.type && decide (db.lastEventId < row.id) &&
      decide (row.seq ≤ lastTerminalSeq db invocationId)

theorem repairPending_iff {db : Database} {invocationId : String} :
    repairPending db invocationId = true ↔ Pending db (·.id ≤ db.lastEventId) invocationId := by
  simp [repairPending, Pending, and_assoc]

/-- The row of a `turn.started` or an `input.accepted` comes late, and as the first of a segment already emitted. -/
def LateOpening (db : Database) (event : EventInput) : Prop :=
  db.ledger.find (event.invocationId, event.seq) = none ∧ event.type ∈ transcriptAlphabet ∧ repairs event.type = false ∧
    0 < event.seq ∧ event.seq ≤ lastTerminalSeq db event.invocationId ∧
    listTranscriptRange db event.invocationId (below 0 event.seq (terminalSeqs db event.invocationId)) event.seq = [] ∧
    repairPending db event.invocationId = false

instance (db : Database) (event : EventInput) : Decidable (LateOpening db event) := by
  unfold LateOpening
  infer_instance

/-- A row names its invocation's runtime and opens no emitted segment late, a runtime with stored turns keeps its
facets, and batches are not empty. -/
def Allowed (runtimeOf : String → String) (s : State) : Action → Prop
  | .append event => runtimeOf event.invocationId ≠ "" ∧ ¬LateOpening s.db event
  | .putRuntime runtime =>
    ∀ turn ∈ s.db.turns.rows, runtimeOf turn.invocationId = runtime.runtimeId →
      runtimeFacets (some runtime) = runtimeFacets (s.db.runtimes.find runtime.runtimeId) ∨
        repairPending s.db turn.invocationId = true
  | .restart batchSize => 1 ≤ batchSize
  | .tick | .batch | .stop => True

instance (s : State) : (action : Action) → Decidable (Allowed runtimeOf s action)
  | .append _ => inferInstanceAs (Decidable (_ ∧ _))
  | .putRuntime _ => inferInstanceAs (Decidable (∀ _ ∈ _, _))
  | .restart _ => inferInstanceAs (Decidable (_ ≤ _))
  | .tick | .batch | .stop => isTrue trivial

end Conditions

section Steps

variable {db : Database} {invocationId : String}

theorem append_standing (hsnd : Sound runtimeOf db) {event : EventInput} (hlate : ¬LateOpening db event)
    (h : Standing columns runtimeOf db (·.id ≤ db.lastEventId) invocationId) :
    Standing columns runtimeOf (appendEvent runtimeOf event db) (·.id ≤ (appendEvent runtimeOf event db).lastEventId)
      invocationId := by
  unfold appendEvent
  split
  · exact h
  · rename_i hn
    have hn : db.ledger.find (event.invocationId, event.seq) = none := by simpa using hn
    generalize hrow : ({ id := db.nextEventId, invocationId := event.invocationId, seq := event.seq, type := event.type
                         runtimeId := runtimeOf event.invocationId, time := event.time
                         brokerEventJson := event.brokerEventJson } : LedgerRow) = row
    have hk : db.ledger.find (row.invocationId, row.seq) = none := by rw [← hrow]; exact hn
    have hrw : (db.ledger.add row).rows = db.ledger.rows ++ [row] := rows_add hk
    have hid : db.lastEventId < row.id := by rw [← hrow]; exact hsnd.cursor
    refine ⟨fun other hm hi ht hc => ?_, ?_, fun hp => ?_⟩
    · dsimp only at hm hc
      rw [hrw] at hm
      rcases List.mem_append.mp hm with hm | hm
      · exact h.reached other hm hi ht hc
      · rw [List.mem_singleton.mp hm] at hc
        omega
    · refine h.anchored.imp_right fun hm => ?_
      obtain ⟨other, hoth, hi, ht, hs⟩ := mem_terminalSeqs.mp hm
      refine mem_terminalSeqs.mpr ⟨other, ?_, hi, ht, hs⟩
      dsimp only
      rw [hrw]
      exact List.mem_append_left _ hoth
    · have hqt : ¬Pending db (·.id ≤ db.lastEventId) invocationId := by
        rintro ⟨other, hm, hi, hrs⟩
        refine hp ⟨other, ?_, hi, hrs⟩
        dsimp only
        rw [hrw]
        exact List.mem_append_left _ hm
      have hlr : row.invocationId = invocationId → row.type ∈ transcriptAlphabet →
          row.seq ≤ lastTerminalSeq db invocationId → repairs row.type = false ∧ (0 < row.seq →
            listTranscriptRange db invocationId (below 0 row.seq (terminalSeqs db invocationId)) row.seq ≠ []) := by
        intro hi hal hs
        have hr : repairs row.type = false := by
          by_contra hr
          refine hp ⟨row, ?_, hi, by simpa using hr, by simpa using hid, hs⟩
          dsimp only
          rw [hrw]
          exact List.mem_append_right _ (List.mem_singleton_self _)
        refine ⟨hr, fun hpos hnil => hlate ?_⟩
        subst hrow
        obtain rfl : event.invocationId = invocationId := hi
        exact ⟨hn, hal, hr, hpos, hs, hnil, by rw [← Bool.not_eq_true, repairPending_iff]; exact hqt⟩
      have hbl : builtTurns columns { db with ledger := db.ledger.add row, nextEventId := db.nextEventId + 1 } invocationId
          (runtimeOf invocationId) (lastTerminalSeq db invocationId) = _ :=
        builtTurns_append hrw rfl hk hlr
      exact (h.settled hqt).trans hbl.symm

theorem runtimeFacets_upsert (runtime : Runtime) :
    runtimeFacets ((putRuntime runtime db).runtimes.find runtime.runtimeId) = runtimeFacets (some runtime) := by
  unfold putRuntime
  dsimp only
  rw [find_upsert_self]
  cases db.runtimes.find runtime.runtimeId <;> rfl

theorem putRuntime_standing {runtime : Runtime} {s : State} (hok : Allowed runtimeOf s (.putRuntime runtime))
    (h : Standing columns runtimeOf s.db (·.id ≤ s.db.lastEventId) invocationId) :
    Standing columns runtimeOf (putRuntime runtime s.db) (·.id ≤ s.db.lastEventId) invocationId := by
  refine ⟨h.reached, h.anchored, fun hp => ?_⟩
  have hbl := h.settled hp
  rw [builtTurns_eq_map] at hbl ⊢
  change turnsOf s.db invocationId =
    (chain (segmentDocument columns s.db invocationId) 0 _).map (withFacets (runtimeFacets ((putRuntime runtime s.db).runtimes.find _)))
  by_cases hid : runtimeOf invocationId = runtime.runtimeId
  · cases ht : turnsOf s.db invocationId with
    | nil =>
      rw [ht] at hbl
      have hn := List.map_eq_nil_iff.mp hbl.symm
      change [] = List.map _ (chain (segmentDocument columns s.db invocationId) 0
        ((terminalSeqs s.db invocationId).filter (· ≤ lastTerminalSeq s.db invocationId)))
      rw [hn, List.map_nil]
    | cons turn turns =>
      have hm : turn ∈ turnsOf s.db invocationId := by rw [ht]; exact List.mem_cons_self
      obtain ⟨hs, hi⟩ := List.mem_filter.mp hm
      have hi := of_decide_eq_true hi
      have hf := (hok turn hs (by rw [hi]; exact hid)).resolve_right fun hr =>
        hp (repairPending_iff.mp (by rw [← hi]; exact hr))
      rw [hid, runtimeFacets_upsert, hf, ← hid, ← ht]
      exact hbl
  · rw [show (putRuntime runtime s.db).runtimes.find (runtimeOf invocationId) = s.db.runtimes.find (runtimeOf invocationId) from
      find_upsert_of_ne _ hid]
    exact hbl

theorem foldl_max_le {l : List Nat} {a b : Nat} : l.foldl max a ≤ b ↔ a ≤ b ∧ ∀ x ∈ l, x ≤ b := by
  induction l generalizing a with
  | nil => simp
  | cons x l ih =>
    rw [List.foldl_cons, ih, Nat.max_le, List.forall_mem_cons, and_assoc]

theorem le_maxEventId {row : LedgerRow} (h : row ∈ db.ledger.rows) : row.id ≤ maxEventId db :=
  (foldl_max_le.mp (Nat.le_refl (maxEventId db))).2 row.id (List.mem_map_of_mem h)

theorem maxEventId_lt (hs : Sound runtimeOf db) : maxEventId db < db.nextEventId := by
  have hp := hs.cursor
  have hle : maxEventId db ≤ db.nextEventId - 1 := by
    refine foldl_max_le.mpr ⟨Nat.zero_le _, fun id hid => ?_⟩
    obtain ⟨row, hr, rfl⟩ := List.mem_map.mp hid
    have := (hs.ids row hr).2
    omega
  omega

theorem appendEvent_sound (hs : Sound runtimeOf db) {event : EventInput} (hrt : runtimeOf event.invocationId ≠ "") :
    Sound runtimeOf (appendEvent runtimeOf event db) ∧ db.nextEventId ≤ (appendEvent runtimeOf event db).nextEventId ∧
      (appendEvent runtimeOf event db).lastEventId = db.lastEventId := by
  unfold appendEvent
  split
  · exact ⟨hs, Nat.le_refl _, rfl⟩
  · rename_i hn
    have hn : db.ledger.find (event.invocationId, event.seq) = none := by simpa using hn
    have hp := hs.cursor
    have hold (row : LedgerRow) (hr : row ∈ db.ledger.rows) := hs.ids row hr
    refine ⟨⟨?_, ?_, ?_, Nat.lt_succ_of_lt hp⟩, Nat.le_succ _, rfl⟩
    · dsimp only
      rw [rows_add hn]
      refine List.pairwise_append.mpr ⟨hs.ascending, List.pairwise_singleton _ _, fun a ha b hb => ?_⟩
      rw [List.mem_singleton.mp hb]
      exact (hold a ha).2
    · dsimp only
      rw [rows_add hn]
      intro row hr
      rcases List.mem_append.mp hr with hr | hr
      · exact ⟨(hold row hr).1, Nat.lt_succ_of_lt (hold row hr).2⟩
      · rw [List.mem_singleton.mp hr]
        exact ⟨by dsimp only; omega, Nat.lt_succ_self _⟩
    · dsimp only
      rw [rows_add hn]
      intro row hr
      rcases List.mem_append.mp hr with hr | hr
      · exact hs.runtimes row hr
      · rw [List.mem_singleton.mp hr]
        exact ⟨rfl, hrt⟩

end Steps

structure Inv (columns : Columns) (runtimeOf : String → String) (s : State) : Prop where
  sound : Sound runtimeOf s.db
  tail : ∀ run, s.tail = some run → run.cursor = s.db.lastEventId ∧ run.ceiling < s.db.nextEventId
  batchSize : 1 ≤ s.batchSize
  standing : ∀ invocationId, Standing columns runtimeOf s.db (·.id ≤ s.db.lastEventId) invocationId

theorem inv_initial {batchSize : Nat} (hbt : 1 ≤ batchSize) : Inv columns runtimeOf { batchSize } where
  sound := ⟨List.Pairwise.nil, (fun _ hr => by cases hr), (fun _ hr => by cases hr), Nat.zero_lt_one⟩
  tail _ hrun := by cases hrun
  batchSize := hbt
  standing _ := ⟨(fun _ hr => by cases hr), .inl rfl, fun _ => rfl⟩

theorem inv_tailStep {s : State} (h : Inv columns runtimeOf s) : Inv columns runtimeOf (tailStep columns s) := by
  unfold tailStep
  split
  · exact h
  · rename_i run hr
    obtain ⟨hcur, hc⟩ := h.tail run hr
    split
    · exact ⟨h.sound, (fun _ hr => by cases hr), h.batchSize, h.standing⟩
    · obtain ⟨⟨hl, hni⟩, hs⟩ := applyBatch_standing h.sound h.batchSize hcur h.standing
      refine ⟨⟨?_, ?_, ?_, ?_⟩, ?_, h.batchSize, hs⟩
      · dsimp only
        rw [hl]
        exact h.sound.ascending
      · dsimp only
        rw [hl, hni]
        exact h.sound.ids
      · dsimp only
        rw [hl]
        exact h.sound.runtimes
      · dsimp only
        rw [hni]
        exact nextCursor_lt h.sound.ids (by rw [hcur]; exact h.sound.cursor) hc
      · rintro _ ⟨⟩
        exact ⟨rfl, by dsimp only; rw [hni]; exact hc⟩

theorem inv_step (s : State) (action : Action) (h : Inv columns runtimeOf s) (hok : Allowed runtimeOf s action) :
    Inv columns runtimeOf (step columns runtimeOf action s) := by
  cases action with
  | append event =>
    obtain ⟨hs, hni, hl⟩ := appendEvent_sound h.sound hok.1
    refine ⟨hs, fun run hr => ?_, h.batchSize, fun invocationId => ?_⟩
    · obtain ⟨hcur, hc⟩ := h.tail run hr
      exact ⟨hcur.trans hl.symm, Nat.lt_of_lt_of_le hc hni⟩
    · exact append_standing h.sound hok.2 (h.standing invocationId)
  | putRuntime runtime =>
    refine ⟨⟨h.sound.ascending, h.sound.ids, h.sound.runtimes, h.sound.cursor⟩, h.tail, h.batchSize, fun invocationId => ?_⟩
    exact putRuntime_standing hok (h.standing invocationId)
  | tick =>
    unfold step
    dsimp only
    split
    · exact h
    · exact ⟨h.sound, fun run hr => by cases hr; exact ⟨rfl, maxEventId_lt h.sound⟩, h.batchSize, h.standing⟩
  | batch => exact inv_tailStep h
  | stop => exact ⟨h.sound, h.tail, h.batchSize, h.standing⟩
  | restart batchSize => exact ⟨h.sound, (fun _ hr => by cases hr), hok, h.standing⟩

theorem turnsOf_reindexInvocation (db : Database) (invocationId runtimeId : String) :
    turnsOf (reindexInvocation columns invocationId runtimeId db).1 invocationId =
      chain (segmentTurn columns db invocationId runtimeId) 0 (terminalSeqs db invocationId) :=
  (reindexInvocation_eq columns db invocationId runtimeId).2.1

theorem builtTurns_eq_filter (db : Database) (invocationId runtimeId : String) (mark : Nat) :
    builtTurns columns db invocationId runtimeId mark =
      (turnsOf (reindexInvocation columns invocationId runtimeId db).1 invocationId).filter (·.seqTo ≤ mark) := by
  rw [turnsOf_reindexInvocation, filter_chain ascending_terminalSeqs fun _ _ => Nat.zero_le _]
  · rfl
  · intro lo hi turn hm htr
    obtain ⟨terminal, ht, hid, hk, rfl⟩ := mem_terminalSeqs.mp hm
    obtain ⟨document, hd, rfl⟩ := Option.map_eq_some_iff.mp htr
    exact segmentDocument_seqTo ht hid (alphabet_of_terminal hk) hd

/-- Through appends, tail runs, stops, crashes and restarts: the terminals under the cursor are at or below their
invocation's mark, the turns stored are a rebuild's up to the mark unless a row the cursor has yet to pass will have the
invocation rebuilt, and under a cursor that has reached the ledger's end they are a rebuild's. -/
theorem turns_are_rebuilt (columns : Columns) (runtimeOf : String → String) {batchSize : Nat} (hbatch : 1 ≤ batchSize)
    {actions : List Action} (hmeets : Meets (step columns runtimeOf) (Allowed runtimeOf) actions { batchSize }) :
    let db := (run (step columns runtimeOf) actions { batchSize }).db
    (maxEventId db ≤ db.lastEventId → ∀ invocationId,
      turnsOf db invocationId =
        turnsOf (reindexInvocation columns invocationId (runtimeOf invocationId) db).1 invocationId) ∧
    ∀ invocationId,
      (∀ row ∈ db.ledger.rows, row.invocationId = invocationId → isTerminal row.type = true →
        row.id ≤ db.lastEventId → row.seq ≤ lastTerminalSeq db invocationId) ∧
      (repairPending db invocationId = false →
        turnsOf db invocationId =
          (turnsOf (reindexInvocation columns invocationId (runtimeOf invocationId) db).1 invocationId).filter
            (·.seqTo ≤ lastTerminalSeq db invocationId)) := by
  have hi := run_invariant inv_step (show Inv columns runtimeOf { batchSize } from inv_initial hbatch) hmeets
  intro db
  refine ⟨fun hc invocationId => ?_, fun invocationId => ⟨(hi.standing invocationId).reached, fun hqt => ?_⟩⟩
  · have hstd := hi.standing invocationId
    have hcov : ∀ row ∈ db.ledger.rows, row.id ≤ db.lastEventId := fun row hr =>
      Nat.le_trans (le_maxEventId hr) hc
    rw [show turnsOf db invocationId = _ from hstd.settled fun ⟨row, hr, _, _, hu, _⟩ =>
      hu (hcov row hr), turnsOf_reindexInvocation, builtTurns, List.filter_eq_self.mpr fun seq hs => ?_]
    obtain ⟨row, hr, hid, hk, rfl⟩ := mem_terminalSeqs.mp hs
    exact decide_eq_true (hstd.reached row hr hid hk (hcov row hr))
  · rw [← builtTurns_eq_filter]
    exact (hi.standing invocationId).settled fun hp => by
      rw [show repairPending db invocationId = true from repairPending_iff.mpr hp] at hqt
      cases hqt

namespace Sample

def textless : Columns := { parse := fun _ => none, maxBytes := 16 }

def oneRuntime (_ : String) : String := "rt-a"

def event (seq : Nat) (type : String) : Action :=
  .append { invocationId := "inv-late", seq, type, time := toString seq, brokerEventJson := "" }

def late (type : String) : List Action :=
  [event 2 "assistant.message.completed", event 4 "turn.completed", .tick, .batch, .batch, event 1 type, .tick, .batch]

end Sample

/-- A message that comes late has its turn rebuilt. -/
theorem late_prose_is_rebuilt :
    let db := (run (step Sample.textless Sample.oneRuntime) (Sample.late "user.message") { batchSize := 10 }).db
    maxEventId db ≤ db.lastEventId ∧
      turnsOf db "inv-late" = turnsOf (reindexInvocation Sample.textless "inv-late" "rt-a" db).1 "inv-late" :=
  ⟨by decide +kernel,
    (turns_are_rebuilt Sample.textless Sample.oneRuntime (by decide) (by decide +kernel)).1 (by decide +kernel) "inv-late"⟩

/-- A start that comes late has not: its turn keeps the first row it had. -/
theorem late_start_is_not_rebuilt :
    let db := (run (step Sample.textless Sample.oneRuntime) (Sample.late "turn.started") { batchSize := 10 }).db
    maxEventId db ≤ db.lastEventId ∧ (turnsOf db "inv-late").map (·.seqFrom) = [2] ∧
      (turnsOf (reindexInvocation Sample.textless "inv-late" "rt-a" db).1 "inv-late").map (·.seqFrom) = [1] := by
  decide +kernel

end HrcRuntime.TranscriptIndex
