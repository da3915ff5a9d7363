import HrcRuntime.Schedule
import HrcRuntime.StateRetention

namespace HrcRuntime.StateRetention

open Keyed Schedule

variable [Dates]

structure Fenced (c : Cutoffs) (db db' : Database) : Prop where
  hrcEvents : ∀ e ∈ db.hrcEvents.rows, e ∉ db'.hrcEvents.rows → db.hrcEventEligible c e = true
  brokerEvents : ∀ e ∈ db.brokerEvents.rows, e ∉ db'.brokerEvents.rows → db.brokerEventEligible c e = true
  buffers : ∀ b ∈ db.buffers.rows, b ∉ db'.buffers.rows → db.bufferEligible c b = true
  dispositions : ∀ d ∈ db.dispositions.rows, d ∉ db'.dispositions.rows → db.dispositionEligible c d = true
  stopRefusals : ∀ r ∈ db.stopRefusals.rows, r ∉ db'.stopRefusals.rows → db.stopRefusalEligible c r = true
  hrcLocal : ∀ e ∈ db.hrcEvents.rows, e ∉ db'.hrcEvents.rows → e.sourceRef = none →
    ∀ run, e.runId = some run → db.runEnded run = true
  brokerLocal : ∀ e ∈ db.brokerEvents.rows, e ∉ db'.brokerEvents.rows → e.sourceRef = none →
    db.invocationEnded e.invocationId = true ∧ ∀ run, e.runId = some run → db.runEnded run = true
  hrcActive : ∀ e ∈ db.hrcEvents.rows, e ∉ db'.hrcEvents.rows → ∀ r ∈ db.runtimes.rows, ∀ run, e.runId = some run →
    r.activeRunId ≠ some run
  brokerActive : ∀ e ∈ db.brokerEvents.rows, e ∉ db'.brokerEvents.rows → ∀ r ∈ db.runtimes.rows, ∀ run, e.runId = some run →
    r.activeRunId ≠ some run
  live : ∀ b ∈ db.buffers.rows, b ∉ db'.buffers.rows → ∀ r ∈ db.runtimes.rows, r.runtimeId = b.runtimeId →
    terminalRuntime r.status = true ∧ r.activeRunId = none
  committed : ∀ d ∈ db.dispositions.rows, d ∉ db'.dispositions.rows → ∀ i ∈ db.invocations.rows,
    i.invocationId = d.invocationId → ∃ projected, i.lastProjectedSeq = some projected ∧ d.seq ≤ projected
  barrier : ∀ host, continuationInvalidated db' host = continuationInvalidated db host

def namesHolder (db : Database) (runId runtimeId sourceRef : Option String) : Bool :=
  runId.all fun run => db.runtimes.rows.all fun r =>
    r.activeRunId != some run || (sourceRef.isNone && runtimeId == some r.runtimeId)

def hostOf (db : Database) (e : BrokerEvent) : Option String :=
  (db.invocations.find e.invocationId).bind fun i => (db.runtimes.find i.runtimeId).map (·.hostSessionId)

def staysBarred (c : Cutoffs) (db : Database) (keys : List Nat) (host : String) : Bool :=
  db.hrcEvents.rows.any (fun e => e.hostSessionId == host && e.invalidates)
    || db.brokerEvents.rows.any fun e => (e.type = .continuationCleared && hosts db host e)
      && !(keys.contains e.id && db.brokerEventEligible c e)

def batchAllowed (c : Cutoffs) (db : Database) (keys : List Nat) : Table → Bool
  | .hrcEvents => db.hrcEvents.rows.all fun e => !(keys.contains e.hrcSeq && db.hrcEventEligible c e)
      || namesHolder db e.runId e.runtimeId e.sourceRef
  | .brokerInvocationEvents => db.brokerEvents.rows.all fun e => !(keys.contains e.id && db.brokerEventEligible c e)
      || (namesHolder db e.runId e.runtimeId e.sourceRef
        && (e.type != .continuationCleared || (hostOf db e).all (staysBarred c db keys)))
  | _ => true

def allowed (s : State) : Action → Bool
  | .prune _ _ => s.call.all fun c => match c.phase with
      | .writing keys _ => batchAllowed c.cutoffs s.db keys c.table
      | _ => true
  | _ => true

section Facts

variable {c : Cutoffs} {db : Database} {runId runtimeId sourceRef : Option String} {run : String}

omit [Dates] in
theorem runEnded_of_disowned (h : db.disowned runId runtimeId = true) (hr : runId = some run) : db.runEnded run = true := by
  subst hr
  exact (Bool.and_eq_true_iff.mp h).1

omit [Dates] in
theorem not_disowned {r : Runtime} (hr : r ∈ db.runtimes.rows) (hact : r.activeRunId = some run) :
    db.disowned (some run) (some r.runtimeId) = false := by
  have hf : db.runtimes.find r.runtimeId = some r := find_of_mem hr
  have hhd : db.holdsRun r.runtimeId run = true := by
    unfold Database.holdsRun
    simp [hf, hact]
  have he : db.runtimeEnded r.runtimeId = false := by
    unfold Database.runtimeEnded
    simp [hf, hact]
  unfold Database.disowned
  simp [hhd, he]

omit [Dates] in
theorem not_active (hn : namesHolder db runId runtimeId sourceRef = true)
    (he : sourceRef.isSome = true ∨ db.disowned runId runtimeId = true) {r : Runtime} (hr : r ∈ db.runtimes.rows)
    (hrun : runId = some run) : r.activeRunId ≠ some run := by
  intro hact
  subst hrun
  unfold namesHolder at hn
  have hh := List.all_eq_true.mp hn r hr
  rw [hact] at hh
  simp only [bne_self_eq_false, Bool.false_or, Bool.and_eq_true, beq_iff_eq] at hh
  obtain ⟨hs, rfl⟩ := hh
  rcases he with h | h
  · rw [Option.isNone_iff_eq_none.mp hs] at h
    cases h
  · rw [not_disowned hr hact] at h
    cases h

omit [Dates] in
theorem hrcEventEligible_iff {e : HrcEvent} : db.hrcEventEligible c e = true ↔
    e.ts < c.event ∧ e.eventKind.resumeBarrier = false ∧ (e.sourceRef.isSome = true ∨ db.disowned e.runId e.runtimeId = true) := by
  simp [Database.hrcEventEligible, and_assoc]

omit [Dates] in
theorem brokerEventEligible_iff {e : BrokerEvent} : db.brokerEventEligible c e = true ↔
    e.time < c.event ∧ (e.sourceRef.isSome = true ∨
      db.invocationEnded e.invocationId = true ∧ db.disowned e.runId e.runtimeId = true) := by
  simp [Database.brokerEventEligible]

omit [Dates] in
theorem invalidates_of_not_barrier {e : HrcEvent} (h : e.eventKind.resumeBarrier = false) : e.invalidates = false := by
  unfold HrcEvent.invalidates
  cases hk : e.eventKind with
  | other text => rfl
  | continuationDropped =>
    rw [hk] at h
    cases h
  | contextCleared =>
    rw [hk] at h
    cases h
  | runtimeTerminated =>
    rw [hk] at h
    cases h
  | brokerContinuationCleared => rfl

end Facts

section Steps

variable {c : Cutoffs} {db : Database} {keys : List Nat} {table : Table}

omit [Dates] in
theorem hosts_iff {host : String} {e : BrokerEvent} : hosts db host e = true ↔ hostOf db e = some host := by
  unfold hosts hostOf
  cases db.invocations.find e.invocationId with
  | none => simp
  | some i =>
    cases hr : db.runtimes.find i.runtimeId with
    | none => simp [hr]
    | some r => simp [hr]

theorem continuationInvalidated_delete (host : String) :
    continuationInvalidated (db.deleteSelectedBatch c .brokerInvocationEvents keys) host = staysBarred c db keys host := by
  refine congrArg (_ || ·) ?_
  change List.any (List.filter _ _) _ = _
  rw [List.any_filter]
  refine congrArg (List.any _) (funext fun e => ?_)
  exact Bool.and_comm _ _

omit [Dates] in
theorem not_barred {host : String} (h : continuationInvalidated db host = false) : staysBarred c db keys host = false := by
  obtain ⟨hl, hbr⟩ := Bool.or_eq_false_iff.mp h
  refine Bool.or_eq_false_iff.mpr ⟨hl, List.any_eq_false.mpr fun e he hr => ?_⟩
  exact List.any_eq_false.mp hbr e he (Bool.and_eq_true_iff.mp hr).1

theorem Fenced.refl (c : Cutoffs) (db : Database) : Fenced c db db :=
  ⟨fun _ h h' => absurd h h', fun _ h h' => absurd h h', fun _ h h' => absurd h h', fun _ h h' => absurd h h',
    fun _ h h' => absurd h h', fun _ h h' => absurd h h', fun _ h h' => absurd h h', fun _ h h' => absurd h h',
    fun _ h h' => absurd h h', fun _ h h' => absurd h h', fun _ h h' => absurd h h', fun _ => rfl⟩

theorem fenced_hrcEvents (h : batchAllowed c db keys .hrcEvents = true) :
    Fenced c db (db.deleteSelectedBatch c .hrcEvents keys) := by
  have hg : ∀ e ∈ db.hrcEvents.rows, e ∉ (db.deleteSelectedBatch c .hrcEvents keys).hrcEvents.rows →
      keys.contains e.hrcSeq = true ∧ db.hrcEventEligible c e = true :=
    fun e he hnot => Bool.and_eq_true_iff.mp
      (erased (p := fun e : HrcEvent => keys.contains e.hrcSeq && db.hrcEventEligible c e) he hnot)
  refine { Fenced.refl c db with
    hrcEvents := fun e he hnot => (hg e he hnot).2
    hrcLocal := fun e he hnot hs run hrun => ?_
    hrcActive := fun e he hnot r hr run hrun => ?_
    barrier := fun host => ?_ }
  · obtain ⟨-, -, hown⟩ := hrcEventEligible_iff.mp (hg e he hnot).2
    rw [hs] at hown
    exact runEnded_of_disowned (hown.resolve_left Bool.false_ne_true) hrun
  · obtain ⟨hk, hel⟩ := hg e he hnot
    have hn := List.all_eq_true.mp h e he
    rw [hk, hel, Bool.and_self, Bool.not_true, Bool.false_or] at hn
    exact not_active hn (hrcEventEligible_iff.mp hel).2.2 hr hrun
  · refine congrArg (· || _) (any_erase fun e _ he => ?_)
    rw [invalidates_of_not_barrier (hrcEventEligible_iff.mp (Bool.and_eq_true_iff.mp he).2).2.1, Bool.and_false]

theorem fenced_brokerEvents (h : batchAllowed c db keys .brokerInvocationEvents = true) :
    Fenced c db (db.deleteSelectedBatch c .brokerInvocationEvents keys) := by
  have hg : ∀ e ∈ db.brokerEvents.rows, e ∉ (db.deleteSelectedBatch c .brokerInvocationEvents keys).brokerEvents.rows →
      keys.contains e.id = true ∧ db.brokerEventEligible c e = true :=
    fun e he hn => Bool.and_eq_true_iff.mp
      (erased (p := fun e : BrokerEvent => keys.contains e.id && db.brokerEventEligible c e) he hn)
  have hbt : ∀ e ∈ db.brokerEvents.rows, (keys.contains e.id && db.brokerEventEligible c e) = true →
      namesHolder db e.runId e.runtimeId e.sourceRef = true ∧
        (e.type != .continuationCleared || (hostOf db e).all (staysBarred c db keys)) = true := by
    intro e he hd
    have hrow := List.all_eq_true.mp h e he
    rw [hd, Bool.not_true, Bool.false_or, Bool.and_eq_true] at hrow
    exact hrow
  refine { Fenced.refl c db with
    brokerEvents := fun e he hn => (hg e he hn).2
    brokerLocal := fun e he hn hs => ?_
    brokerActive := fun e he hn r hr run hrun => ?_
    barrier := fun host => ?_ }
  · obtain ⟨-, hown⟩ := brokerEventEligible_iff.mp (hg e he hn).2
    rw [hs] at hown
    obtain ⟨hend, hdis⟩ := hown.resolve_left Bool.false_ne_true
    exact ⟨hend, fun run hrun => runEnded_of_disowned hdis hrun⟩
  · have hd := hg e he hn
    refine not_active (hbt e he (Bool.and_eq_true_iff.mpr hd)).1 ?_ hr hrun
    exact (brokerEventEligible_iff.mp hd.2).2.imp id (·.2)
  · rw [continuationInvalidated_delete]
    cases hbr : continuationInvalidated db host with
    | false => exact not_barred hbr
    | true =>
      rcases Bool.or_eq_true_iff.mp hbr with hlif | hbrok
      · exact Bool.or_eq_true_iff.mpr (.inl hlif)
      · obtain ⟨e, he, hrow⟩ := List.any_eq_true.mp hbrok
        obtain ⟨hc, hh⟩ := Bool.and_eq_true_iff.mp hrow
        cases hd : (keys.contains e.id && db.brokerEventEligible c e) with
        | false =>
          refine Bool.or_eq_true_iff.mpr (.inr (List.any_eq_true.mpr ⟨e, he, ?_⟩))
          rw [hrow, hd]
          rfl
        | true =>
          have hl := (hbt e he hd).2
          rw [of_decide_eq_true hc, bne_self_eq_false, Bool.false_or, hosts_iff.mp hh] at hl
          exact hl

theorem fenced_buffers : Fenced c db (db.deleteSelectedBatch c .runtimeBuffers keys) := by
  have hg : ∀ b ∈ db.buffers.rows, b ∉ (db.deleteSelectedBatch c .runtimeBuffers keys).buffers.rows →
      db.bufferEligible c b = true :=
    fun b hb hn => (Bool.and_eq_true_iff.mp
      (erased (p := fun b : Buffer => keys.contains b.rowid && db.bufferEligible c b) hb hn)).2
  refine { Fenced.refl c db with
    buffers := hg
    live := fun b hb hn r hr hid => ?_ }
  have he := hg b hb hn
  unfold Database.bufferEligible Database.runtimeEnded at he
  rw [← hid, show db.runtimes.find r.runtimeId = some r from find_of_mem hr] at he
  simpa using (Bool.and_eq_true_iff.mp he).2

theorem fenced_dispositions : Fenced c db (db.deleteSelectedBatch c .brokerProjectionDispositions keys) := by
  have hg : ∀ d ∈ db.dispositions.rows,
      d ∉ (db.deleteSelectedBatch c .brokerProjectionDispositions keys).dispositions.rows → db.dispositionEligible c d = true :=
    fun d hd hn => (Bool.and_eq_true_iff.mp
      (erased (p := fun d : Disposition => keys.contains d.rowid && db.dispositionEligible c d) hd hn)).2
  refine { Fenced.refl c db with
    dispositions := hg
    committed := fun d hd hn i hi hid => ?_ }
  have he := hg d hd hn
  unfold Database.dispositionEligible at he
  rw [← hid, show db.invocations.find i.invocationId = some i from find_of_mem hi] at he
  simp only [Option.isNone_some, Bool.false_or, Option.any_some, Bool.and_eq_true] at he
  obtain ⟨projected, hp, hle⟩ := (Option.any_eq_true _ _).mp he.2
  exact ⟨projected, hp, of_decide_eq_true hle⟩

theorem fenced_stopRefusals : Fenced c db (db.deleteSelectedBatch c .hrcmailStopRefusals keys) :=
  { Fenced.refl c db with
    stopRefusals := fun _ hr hn => (Bool.and_eq_true_iff.mp
      (erased (p := fun r : StopRefusal => keys.contains r.rowid && db.stopRefusalEligible c r) hr hn)).2 }

theorem fenced_delete (h : batchAllowed c db keys table = true) : Fenced c db (db.deleteSelectedBatch c table keys) := by
  cases table with
  | hrcEvents => exact fenced_hrcEvents h
  | brokerInvocationEvents => exact fenced_brokerEvents h
  | runtimeBuffers => exact fenced_buffers
  | brokerProjectionDispositions => exact fenced_dispositions
  | hrcmailStopRefusals => exact fenced_stopRefusals

end Steps

end HrcRuntime.StateRetention
