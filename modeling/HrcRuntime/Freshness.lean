import HrcRuntime.Attribution
import HrcRuntime.Preparation

namespace HrcRuntime.Freshness

open Records Relational Database Program Mapper RunRepository EventRepository Repositories Context
open RunResolution
open ProjectEnvelope ProjectionWrites EventMapper Calls Controller CursorSoundness CursorCompleteness Preparation
open Stability Attribution

def isSettled (row : HrcBrokerInvocationEventRecord) : Bool :=
  row.projectionStatus == .applied || row.projectionStatus == .skippedFenced

/-- The envelope is one the projection has not committed yet, its cursor being at `cursor`, and its run takes
broker events. -/
def isFreshAt (db : Db) (retained : Bool) (cursor : Nat) (envelope : InvocationEventEnvelope) : Bool :=
  match getByInvocationId db envelope.invocationId with
  | none => false
  | some invocation =>
    match getByRuntimeId db invocation.runtimeId with
    | none => false
    | some runtime =>
      (getProjectionDisposition db envelope.invocationId envelope.seq).isNone && decide (cursor < envelope.seq)
        && !(getByInvocationAndSeq db envelope.invocationId envelope.seq).any isSettled
        && ((resolveRunIdForEvent db retained envelope invocation runtime).bind fun runId =>
          (getByRunId db runId).bind fenceError).isNone

def foldedCursor (retained : Bool) (s : BrokerEventMapper) (invocationId : String) : Nat :=
  let cursor := lastProjectedBrokerSeq s.db invocationId
  if retained then cursor
  else max cursor (((s.ignoredDeltaCursors invocationId).map (·.throughSeq)).getD 0)

def isFresh (retained : Bool) (s : BrokerEventMapper) (envelope : InvocationEventEnvelope) : Bool :=
  isFreshAt s.db retained (foldedCursor retained s envelope.invocationId) envelope

section Prepared

variable [Host] {envelope : InvocationEventEnvelope} {s t : BrokerEventMapper} {p : Projection}

theorem prepareFormat2TurnStart_none {invocation : HrcBrokerInvocationRecord} {runtime : HrcRuntimeSnapshot}
    {generation : Nat} {now : String} (h : prepareFormat2TurnStart envelope invocation runtime generation now s = (.ok none, t)) :
    t = s := by
  by_cases hty : envelope.type = .turnStarted
  · cases hr : s.retainedProjection <;> cases hformat : invocation.executionFormat <;>
      cases ht : extractTurnId envelope <;>
      simp only [prepareFormat2TurnStart, read_bind, hr, hformat, hty, ht] at h <;>
      try exact (Prod.mk.inj h).2.symm
    rw [query_bind] at h
    cases hk : getByTurnKey s.db (format2TurnKey envelope.toEnvelopeHead invocation runtime ‹String›) with
    | some run =>
      rw [hk] at h
      cases h
    | none =>
      rw [hk] at h
      obtain ⟨_, _, _, hp⟩ := bind_eq_ok.mp h
      cases hp
  · rw [prepareFormat2TurnStart_of_ne hty] at h
    exact (Prod.mk.inj h).2.symm

theorem resolve_unstarted {r : Resolution} (hr : resolve envelope s = (.ok r, t)) (hs : r.format2TurnStart = none) :
    t.db = s.db := by
  have h := (resolved hr).start
  rw [hs] at h
  rw [prepareFormat2TurnStart_none h]

theorem appendBrokerEvent_runs {r : Resolution} {a : Except HrcError (Option BrokerInvocationEventAppendResult)}
    (h : appendBrokerEvent r s = (a, t)) : t.db.runs = s.db.runs := by
  have hch : WritesFrom (fun _ w => w.table ≠ .runs) s (appendBrokerEvent r) :=
    appendBrokerEvent_writes (fun _ _ => nofun) (fun _ _ _ _ => nofun) s
  have hrn := hch.preserves (I := fun u => u.db.runs = s.db.runs) (fun a b hs ha => by
    cases hs with
    | quiet hq => rwa [hq.db]
    | write w hw hr => exact (Write.run_runs_of_ne hr hw).trans ha) rfl
  rwa [h] at hrn

theorem prepare_runs_unstarted (hp : prepare envelope s = (.ok p, t)) (hs : p.format2TurnStart = none) :
    t.db.runs = s.db.runs := by
  obtain ⟨u, hr, happ, _⟩ := prepare_eq_ok hp
  rw [appendBrokerEvent_runs happ, resolve_unstarted hr hs]

theorem appendEvent_new {input : BrokerInvocationEventAppendInput} {result : BrokerInvocationEventAppendResult}
    (hn : getByInvocationAndSeq s.db input.invocationId input.seq = none)
    (h : appendEvent input s = (.ok result, t)) : result.idempotent = false := by
  obtain ⟨json, u, hj, h⟩ := bind_eq_ok.mp h
  have hu : getByInvocationAndSeq u.db input.invocationId input.seq = none := by
    unfold getByInvocationAndSeq at *
    rwa [persistedBrokerEventJson_events hj]
  rw [query_bind, query_bind, hu] at h
  obtain ⟨_, _, _, h⟩ := bind_eq_ok.mp h
  rw [query_bind] at h
  obtain ⟨stored, _, h⟩ := requireRecord_bind_eq_ok.mp h
  cases h
  rfl

theorem prepare_settled (hp : prepare envelope s = (.ok p, t)) (hdelta : isIgnoredBrokerDelta envelope = false) :
    (p.appended.bind settledDisposition).isNone
      = !(getByInvocationAndSeq s.db envelope.invocationId envelope.seq).any isSettled := by
  cases hrow : getByInvocationAndSeq s.db envelope.invocationId envelope.seq with
  | some row =>
    rw [prepare_existing hp hdelta hrow]
    simp only [Option.bind_some, settledDisposition, Option.any_some, isSettled]
    cases row.projectionStatus <;> rfl
  | none =>
    obtain ⟨correlation, he⟩ := prepared_persisted hp
    obtain ⟨u, hr, happ, _⟩ := prepare_eq_ok hp
    unfold appendBrokerEvent at happ
    split at happ
    · obtain ⟨appended, _, happ, hpr⟩ := bind_eq_ok.mp happ
      have hn : getByInvocationAndSeq u.db (appendInput p.toResolution).invocationId
          (appendInput p.toResolution).seq = none := by
        rw [appendInput, he]
        unfold getByInvocationAndSeq at *
        rwa [resolve_events hr]
      have hi := appendEvent_new hn happ
      injection hpr with hap
      injection hap with hap
      rw [← hap, Option.bind_some, settledDisposition, hi]
      rfl
    · injection happ with hap
      injection hap with hap
      rw [← hap]
      rfl

/-- A preparation without a start finds its envelope fresh when it is. -/
theorem fresh_iff (hp : prepare envelope s = (.ok p, t)) (hdelta : isIgnoredBrokerDelta envelope = false)
    (hsta : p.format2TurnStart = none) :
    verdict t.db p = .fresh ↔ isFreshAt s.db s.retainedProjection
      (lastProjectedBrokerSeq s.db envelope.invocationId) envelope = true := by
  obtain ⟨correlation, he⟩ := prepared_persisted hp
  obtain ⟨u, hr, happ, _⟩ := prepare_eq_ok hp
  have hrd := resolved hr
  have hu := resolve_unstarted hr hsta
  have hret : u.retainedProjection = s.retainedProjection := by
    have hres : WritesFrom (fun _ _ => True) s (resolve envelope) :=
      resolve_writesFrom fun _ _ _ _ _ _ _ _ => trivial
    have hqt := steps_quiet hres
    rw [hr] at hqt
    exact hqt.retainedProjection
  have hri : p.ctx.runId = resolveRunIdForEvent s.db s.retainedProjection envelope p.invocation p.runtime := by
    rw [hrd.runId, hsta, hu, hret]
    rfl
  have hd := (prepare_sameLedger hp envelope.invocationId).disposition envelope.seq
  have hset := prepare_settled hp hdelta
  have hl := lastProjectedBrokerSeq_row hrd.invocation
  have hid : p.persistedEnvelope.invocationId = envelope.invocationId := by rw [he]
  have hs : p.persistedEnvelope.seq = envelope.seq := by rw [he]
  have hrn : ∀ runId, getByRunId t.db runId = getByRunId s.db runId := fun runId => by
    unfold getByRunId
    rw [prepare_runs_unstarted hp hsta]
  unfold isFreshAt verdict
  simp only [hrd.invocation, hrd.runtime, hid, hs, hd, hl, ← hri, ← hset, hrn]
  cases getProjectionDisposition s.db envelope.invocationId envelope.seq with
  | some prior =>
    simp only [Option.isNone_some, Bool.false_and, Bool.false_eq_true, iff_false]
    split <;> nofun
  | none =>
    by_cases habv : p.invocation.lastProjectedSeq < envelope.seq
    · rw [if_neg (by omega)]
      cases p.appended.bind settledDisposition with
      | some disposition => simp
      | none =>
        cases p.ctx.runId.bind fun runId => (getByRunId s.db runId).bind fenceError <;> simp [habv]
    · rw [if_pos (by omega)]
      simp [habv]

end Prepared

def uncursored (r : HrcBrokerInvocationRecord) : HrcBrokerInvocationRecord :=
  { r with lastProjectedSeq := 0, retainedProjectedThroughSeq := none, updatedAt := "" }

structure CursorFrame (a b : Db) : Prop where
  tables : b = { a with brokerInvocations := b.brokerInvocations }
  rows : b.brokerInvocations.rows.map uncursored = a.brokerInvocations.rows.map uncursored

section Fold

variable {a b : Db} {retained : Bool} {invocationId : String} {pending : Option PendingDelta}

theorem CursorFrame.refl (a : Db) : CursorFrame a a := ⟨rfl, rfl⟩

theorem fold_frame [Host] (h : Folded retained invocationId a pending b) : CursorFrame a b := by
  cases h with
  | kept => exact .refl _
  | folded updatedAt _ _ _ hr =>
    cases retained with
    | true => exact ⟨Write.run_invocations_only hr rfl, update_map (Write.run_brokerInvocations hr) fun _ => rfl⟩
    | false => exact ⟨Write.run_invocations_only hr rfl, update_map (Write.run_brokerInvocations hr) fun _ => rfl⟩

theorem retainedSeq_frame {seq : Nat} {updatedAt : Option String}
    (hr : (Write.setRetainedSeq invocationId seq updatedAt).run a = .ok b) : CursorFrame a b :=
  ⟨Write.run_invocations_only hr rfl, update_map (Write.run_brokerInvocations hr) fun _ => rfl⟩

variable (h : CursorFrame a b)
include h

theorem CursorFrame.placement : SamePlacement a b := by
  have hid (t : Table HrcBrokerInvocationRecord [fun r => some r.invocationId]) :
      t.rows.map invocationIdentity = (t.rows.map uncursored).map invocationIdentity := by
    rw [List.map_map]
    rfl
  refine ⟨?_, ?_, ?_⟩
  · rw [hid, hid, h.rows]
  · rw [h.tables]
  · rw [h.tables]

theorem CursorFrame.invocation (invocationId : String) :
    (getByInvocationId b invocationId).map uncursored = (getByInvocationId a invocationId).map uncursored := by
  unfold getByInvocationId Table.find?
  rw [← find?_map_identity uncursored fun _ => rfl, ← find?_map_identity uncursored fun _ => rfl, h.rows]

theorem CursorFrame.symm : CursorFrame b a := by
  refine ⟨?_, h.rows.symm⟩
  rw [h.tables]

theorem CursorFrame.find {invocationId : String} {row : HrcBrokerInvocationRecord}
    (hr : getByInvocationId a invocationId = some row) :
    ∃ row', getByInvocationId b invocationId = some row' ∧ uncursored row' = uncursored row := by
  have hi := h.invocation invocationId
  rw [hr, Option.map_some] at hi
  exact Option.map_eq_some_iff.mp hi

theorem CursorFrame.isFreshAt {cursor : Nat} {envelope : InvocationEventEnvelope} :
    isFreshAt b retained cursor envelope = isFreshAt a retained cursor envelope := by
  have hi := h.invocation envelope.invocationId
  have hp := h.placement
  have hfr := h.tables
  unfold Freshness.isFreshAt
  cases ha : getByInvocationId a envelope.invocationId with
  | none =>
    rw [ha, Option.map_none, Option.map_eq_none_iff] at hi
    rw [hi]
  | some row =>
    obtain ⟨row', hb, hr⟩ := h.find ha
    have hri : row'.runtimeId = row.runtimeId := congrArg (·.runtimeId) hr
    have hrt : getByRuntimeId b row.runtimeId = getByRuntimeId a row.runtimeId := by
      rw [hfr]
      rfl
    rw [hb]
    dsimp only
    rw [hri, hrt]
    cases getByRuntimeId a row.runtimeId with
    | none => rfl
    | some runtime =>
      have he : SameEvidence envelope a b := by
        refine ⟨hp, ?_, sameBindings_of_runs ?_ ?_⟩
        · rw [hfr]
          rfl
        · rw [hfr]
        · rw [ha, hb]
          exact congrArg (·.runId) hr
      have hplc : invocationIdentity (uncursored row') = invocationIdentity (uncursored row) :=
        congrArg invocationIdentity hr
      have hpl : SamePlace a b row row' runtime runtime := by
        refine ⟨hplc, rfl, congrArg (·.runId) hr, ?_⟩
        rw [hfr]
        exact fun _ _ => rfl
      have hpr : SamePresent retained envelope a b row runtime runtime := by
        refine samePresent_of_runs ?_ ?_ ?_
        · rw [hfr]
        · rw [hfr]
          exact fun _ => rfl
        · rw [hfr]
          rfl
      dsimp only
      rw [resolveRunIdForEvent_agrees he hpl hpr, hfr]
      rfl

end Fold

section Call

variable [Host] {s : BrokerEventMapper} {db : Db} {retained : Bool} {invocationId : String}

theorem fold_cursor (h : Folded retained invocationId s.db (cursors retained s invocationId) db) :
    lastProjectedBrokerSeq db invocationId = foldedCursor retained s invocationId := by
  unfold foldedCursor
  cases retained with
  | true =>
    cases h with
    | kept => rfl
    | folded updatedAt hr hdelta habv hrun => exact lastProjectedBrokerSeq_setRetainedSeq hrun _
  | false =>
    cases h with
    | @kept row hr hle =>
      have hl := lastProjectedBrokerSeq_row hr
      have hbd : ((s.ignoredDeltaCursors invocationId).map (·.throughSeq)).getD 0
          ≤ lastProjectedBrokerSeq s.db invocationId := by
        cases hp : s.ignoredDeltaCursors invocationId with
        | none => exact Nat.zero_le _
        | some delta =>
          rw [hl]
          exact hle delta hp
      exact (Nat.max_eq_left hbd).symm
    | @folded row delta _ updatedAt hr hdelta habv hrun =>
      have hl := lastProjectedBrokerSeq_row hr
      have hdelta : s.ignoredDeltaCursors invocationId = some delta := hdelta
      have habv : row.lastProjectedSeq < delta.throughSeq := habv
      rw [lastProjectedBrokerSeq_setProjectedSeq hrun, if_pos ⟨rfl, by rw [hr]; rfl⟩, hdelta, hl]
      exact (Nat.max_eq_right (Nat.le_of_lt habv)).symm

theorem fold_isFresh {envelope : InvocationEventEnvelope}
    (h : Folded retained envelope.invocationId s.db (cursors retained s envelope.invocationId) db) :
    isFreshAt db retained (lastProjectedBrokerSeq db envelope.invocationId) envelope = isFresh retained s envelope := by
  rw [fold_cursor h, (fold_frame h).isFreshAt]
  rfl

end Call

end HrcRuntime.Freshness
