import HrcRuntime.CursorCompleteness
import HrcRuntime.Stability

namespace HrcRuntime.Preparation

open Json Records Database Program Mapper EventRepository RunResolution
open ProjectEnvelope ProjectionWrites

structure PrepareFrame (a b : Db) : Prop where
  brokerInvocations : b.brokerInvocations = a.brokerInvocations
  runtimes : b.runtimes = a.runtimes
  runtimeOperations : b.runtimeOperations = a.runtimeOperations
  dispositions : b.dispositions = a.dispositions
  participantAttempts : b.participantAttempts = a.participantAttempts

def isPrepareTable : TableName → Bool
  | .runs | .toolResultBlobs | .brokerInvocationEvents => true
  | _ => false

theorem PrepareFrame.step {start db db' : Db} {w : Write} (h : PrepareFrame start db) (hw : isPrepareTable w.table = true)
    (hr : w.run db = .ok db') : PrepareFrame start db' := by
  have hne {t : TableName} (ht : isPrepareTable t = false) : w.table ≠ t := fun h => by
    rw [h, ht] at hw
    cases hw
  refine ⟨(Write.run_brokerInvocations_of_ne hr (hne rfl)).trans h.brokerInvocations,
    (Write.run_runtimes_of_ne hr (hne rfl)).trans h.runtimes, (Write.run_runtimeOperations hr).trans h.runtimeOperations,
    (Write.run_dispositions_of_ne hr (hne rfl)).trans h.dispositions, Eq.trans ?_ h.participantAttempts⟩
  have hatt := Write.run_participantAttempts hr
  cases w with
  | transitionAttempt => cases hw
  | _ => exact (Option.some.inj hatt).symm

section Prepare

variable [Host] {envelope : InvocationEventEnvelope} {s t : BrokerEventMapper} {p : Projection}

variable {existing : HrcBrokerInvocationEventRecord} {r : Except HrcError Projection}

theorem prepare_frame (hp : prepare envelope s = (r, t)) : PrepareFrame s.db t.db := by
  have hch : WritesFrom (fun _ w => isPrepareTable w.table = true) s (prepare envelope) :=
    prepare_writesFrom (fun _ _ _ _ _ _ _ hm => by cases hm; rfl) (fun _ _ => rfl) fun _ _ _ _ _ _ _ => rfl
  have hfr := hch.preserves (I := fun u => PrepareFrame s.db u.db) (fun a b hs ha => by
    cases hs with
    | quiet hq => rwa [hq.db]
    | write w hw hr => exact ha.step hw hr) ⟨rfl, rfl, rfl, rfl, rfl⟩
  rwa [hp] at hfr

theorem prepare_runs (hp : prepare envelope s = (r, t))
    (ht : envelope.type ≠ .turnStarted) : t.db.runs = s.db.runs := by
  have hch : WritesFrom (fun _ w => w.table ≠ .runs) s (prepare envelope) :=
    prepare_writesFrom (fun _ _ _ _ _ _ _ hm => by cases hm; exact absurd ‹_› ht)
      (fun _ _ => nofun) fun _ _ _ _ _ _ _ => nofun
  have hrn := hch.preserves (I := fun u => u.db.runs = s.db.runs) (fun a b hs ha => by
    cases hs with
    | quiet hq => rwa [hq.db]
    | write w hw hr => exact (Write.run_runs_of_ne hr hw).trans ha) rfl
  rwa [hp] at hrn

theorem resolve_events {r : Except HrcError Resolution} (hr : resolve envelope s = (r, t)) :
    t.db.brokerInvocationEvents = s.db.brokerInvocationEvents := by
  have hch : WritesFrom (fun _ w => w.table ≠ .brokerInvocationEvents) s (resolve envelope) :=
    resolve_writesFrom fun _ _ _ _ _ _ _ hm => by cases hm; exact nofun
  have he := hch.preserves (I := fun u => u.db.brokerInvocationEvents = s.db.brokerInvocationEvents)
    (fun a b hs ha => by
      cases hs with
      | quiet hq => rwa [hq.db]
      | write w hw hrun => exact (Write.run_brokerInvocationEvents_of_ne hrun hw).trans ha) rfl
  rwa [hr] at he

theorem prepareFormat2TurnStart_of_ne {invocation : HrcBrokerInvocationRecord} {runtime : HrcRuntimeSnapshot}
    {generation : Nat} {now : String} (ht : envelope.type ≠ .turnStarted) :
    prepareFormat2TurnStart envelope invocation runtime generation now s = (.ok none, s) := by
  unfold prepareFormat2TurnStart
  rw [read_bind]
  refine congrFun (?_ : _ = (pure none : M (Option Format2TurnStart))) s
  split
  · exact absurd ‹_› ht
  · rfl

theorem resolved_start {r : Resolution} (hr : resolve envelope s = (.ok r, t))
    (ht : envelope.type ≠ .turnStarted) : r.format2TurnStart = none ∧ t.db = s.db := by
  have hs := (resolved hr).start
  rw [prepareFormat2TurnStart_of_ne ht, Prod.mk.injEq, Except.ok.injEq] at hs
  obtain ⟨hn, rfl⟩ := hs
  exact ⟨hn.symm, rfl⟩

theorem persistedBrokerEventJson_events {type : EventType} {runtimeId : String} {payload : Json}
    {r : Except HrcError Json} (h : persistedBrokerEventJson type runtimeId payload s = (r, t)) :
    t.db.brokerInvocationEvents = s.db.brokerInvocationEvents := by
  have he := (persistedBrokerEventJson_writes (P := fun _ w => w.table ≠ .brokerInvocationEvents)
    (fun _ _ => nofun) type runtimeId payload s).preserves
    (I := fun u => u.db.brokerInvocationEvents = s.db.brokerInvocationEvents) (fun a b hs ha => by
      cases hs with
      | quiet hq => rwa [hq.db]
      | write w hw hr => exact (Write.run_brokerInvocationEvents_of_ne hr hw).trans ha) rfl
  rwa [h] at he

theorem appendEvent_existing {input : BrokerInvocationEventAppendInput}
    {result : BrokerInvocationEventAppendResult}
    (hex : getByInvocationAndSeq s.db input.invocationId input.seq = some existing)
    (h : appendEvent input s = (.ok result, t)) :
    result = { record := existing, idempotent := true } ∧ sameIdentity t.db existing input = true := by
  obtain ⟨json, u, hj, h⟩ := bind_eq_ok.mp h
  have hu : getByInvocationAndSeq u.db input.invocationId input.seq = some existing := by
    unfold getByInvocationAndSeq at *
    rwa [persistedBrokerEventJson_events hj]
  rw [query_bind, query_bind, hu] at h
  dsimp only at h
  rw [query_bind] at h
  split at h
  · cases h
    exact ⟨rfl, ‹_›⟩
  · cases h

theorem prepare_existing (hp : prepare envelope s = (.ok p, t))
    (hdelta : isIgnoredBrokerDelta envelope = false)
    (hex : getByInvocationAndSeq s.db envelope.invocationId envelope.seq = some existing) :
    p.appended = some { record := existing, idempotent := true } := by
  obtain ⟨correlation, he⟩ := prepared_persisted hp
  obtain ⟨u, hr, happ, _⟩ := prepare_eq_ok hp
  have hpr : shouldPersistBrokerEvent p.persistedEnvelope = true := by
    rw [he, shouldPersistBrokerEvent]
    exact congrArg (!·) hdelta
  unfold appendBrokerEvent at happ
  rw [if_pos hpr] at happ
  obtain ⟨appended, _, happ, hpu⟩ := bind_eq_ok.mp happ
  have hex' : getByInvocationAndSeq u.db (appendInput p.toResolution).invocationId
      (appendInput p.toResolution).seq = some existing := by
    have hid : (appendInput p.toResolution).invocationId = envelope.invocationId := by
      rw [appendInput, he]
    have hs : (appendInput p.toResolution).seq = envelope.seq := by
      rw [appendInput, he]
    rw [hid, hs]
    unfold getByInvocationAndSeq at *
    rwa [resolve_events hr]
  obtain ⟨rfl, _⟩ := appendEvent_existing hex' happ
  injection hpu with hap
  injection hap with hap
  exact hap.symm

structure Fresh (db : Db) (p : Projection) : Prop where
  undisposed : getProjectionDisposition db p.persistedEnvelope.invocationId p.persistedEnvelope.seq = none
  above : p.invocation.lastProjectedSeq < p.persistedEnvelope.seq
  unsettled : p.appended.bind settledDisposition = none
  unfenced : (p.ctx.runId.bind fun runId => (RunRepository.getByRunId db runId).bind fenceError) = none

omit [Host] in
theorem fresh_of_verdict {db : Db} (h : verdict db p = .fresh) : Fresh db p := by
  unfold verdict at h
  split at h
  · split at h <;> cases h
  · split at h
    · cases h
    · split at h
      · cases h
      · split at h
        · cases h
        · exact ⟨‹_›, by omega, ‹_›, ‹_›⟩

end Prepare

end HrcRuntime.Preparation
