import HrcRuntime.Calls
import HrcRuntime.RunEffects
import HrcRuntime.RunOperations
import HrcRuntime.Schedule

namespace HrcRuntime.RunMonotone

open Json Records Relational Database Program Mapper RuntimeState Format2Input TurnProjection
open Ownership RunEffects Calls Schedule RunRepository RunOperations

def Ended (r : HrcRunRecord) : Prop := r.completedAt.isSome = true → r.status.isRunTerminal = true

structure Follows (r r' : HrcRunRecord) : Prop where
  runId : r'.runId = r.runId
  completed : r.completedAt.isSome = true → r'.completedAt.isSome = true
  ended : Ended r → Ended r'

def AllEnded (db : Db) : Prop := ∀ r ∈ db.runs.rows, Ended r

/-- The completed runs of `a` are completed in `b`. -/
def StaysCompleted (a b : Db) : Prop :=
  ∀ r ∈ a.runs.rows, r.completedAt.isSome = true → ∃ r' ∈ b.runs.rows, r'.runId = r.runId ∧ r'.completedAt.isSome = true

structure Terminal (start db : Db) : Prop where
  ended : AllEnded db
  stays : StaysCompleted start db

section Rows

variable {start db db' : Db} {r : HrcRunRecord} {runId : String} {patch : RunPatch}

theorem Follows.refl (r : HrcRunRecord) : Follows r r := ⟨rfl, id, id⟩

theorem Terminal.same (h : Terminal start db) (hr : db'.runs = db.runs) : Terminal start db' := by
  refine ⟨?_, ?_⟩
  · unfold AllEnded
    rw [hr]
    exact h.ended
  · unfold StaysCompleted
    rw [hr]
    exact h.stays

theorem Terminal.update (h : Terminal start db) {p : HrcRunRecord → Bool} {f : HrcRunRecord → HrcRunRecord}
    (hrun : db.runs.update p f = some db'.runs) (hf : ∀ r ∈ db.runs.rows, p r = true → Follows r (f r)) :
    Terminal start db' := by
  have hrow (r : HrcRunRecord) (hr : r ∈ db.runs.rows) : Follows r (if p r then f r else r) := by
    split
    · exact hf r hr ‹_›
    · exact .refl r
  have hrw := update_rows hrun
  refine ⟨fun r' hr' => ?_, fun r₀ hr₀ hd => ?_⟩
  · rw [hrw] at hr'
    obtain ⟨r, hr, rfl⟩ := List.mem_map.mp hr'
    exact (hrow r hr).ended (h.ended r hr)
  · obtain ⟨r, hr, hid, hr₁⟩ := h.stays r₀ hr₀ hd
    refine ⟨_, hrw ▸ List.mem_map_of_mem hr, (hrow r hr).runId.trans hid, (hrow r hr).completed hr₁⟩

theorem Terminal.insert (h : Terminal start db) {record : HrcRunRecord}
    (hrun : db.runs.insert record = some db'.runs) (he : Ended record) : Terminal start db' := by
  have hrw := insert_rows hrun
  refine ⟨fun r' hr' => ?_, fun r₀ hr₀ hd => ?_⟩
  · rw [hrw] at hr'
    rcases List.mem_append.mp hr' with hr | hr
    · exact h.ended r' hr
    · rwa [List.mem_singleton.mp hr]
  · obtain ⟨r, hr, hid, hr₁⟩ := h.stays r₀ hr₀ hd
    exact ⟨r, hrw ▸ List.mem_append_left _ hr, hid, hr₁⟩

theorem effectivePatch_follows (hn : patch.completedAt ≠ some none)
    (he : r.completedAt = none → patch.completedAt.isSome = true → (patch.status.getD r.status).isRunTerminal = true) :
    Follows r ((effectivePatch (some r) patch).apply r) := by
  have hca := effectivePatch_completedAt (some r) patch
  cases hop : r.completedAt with
  | none =>
    rw [effectivePatch_open hop]
    refine ⟨rfl, fun hd => ?_, fun _ hd => he hop ?_⟩
    · rw [hop] at hd
      cases hd
    · cases hp : patch.completedAt with
      | none => simp [RunPatch.apply, hp, hop] at hd
      | some _ => rfl
  | some completedAt =>
    refine ⟨rfl, fun _ => ?_, fun hr _ => ?_⟩
    · simp only [RunPatch.apply, hca, hop]
      cases hp : patch.completedAt with
      | none => rfl
      | some completedAt =>
        cases completedAt with
        | none => exact absurd hp hn
        | some completedAt => rfl
    · have ht : r.status.isRunTerminal = true := hr (by rw [hop]; rfl)
      unfold effectivePatch
      cases hstatus : patch.status with
      | none => simpa [RunPatch.apply, hstatus] using ht
      | some status =>
        cases hst : status.isRunTerminal with
        | true => simp [RunPatch.apply, hst, hstatus]
        | false => simpa [RunPatch.apply, hst, hop, hn] using ht

theorem effective_follows {patch : RunUpdatePatch} (hn : patch.completedAt ≠ some none)
    (he : r.completedAt = none → patch.completedAt.isSome = true → (patch.status.getD r.status).isRunTerminal = true) :
    Follows r ((effective (some r) patch).apply r) := by
  have h : Follows r ((effectivePatch (some r) patch.toRunPatch).apply r) := effectivePatch_follows hn he
  rw [← effective_toRunPatch] at h
  exact ⟨rfl, h.completed, h.ended⟩

theorem completion_follows {updates : RunCompletion} (h : updates.status.isRunTerminal = true) :
    Follows r (updates.apply r) := ⟨rfl, fun _ => rfl, fun _ _ => h⟩

end Rows

section Writes

variable {start db db' : Db} {w : Write}

theorem complete_terminal {runId : String} {updates : RunCompletion} (ht : updates.status.isRunTerminal = true)
    (hr : (Write.completeRun runId updates).run db = .ok db') (h : Terminal start db) : Terminal start db' :=
  h.update (Write.run_runs hr) fun _ _ _ => completion_follows ht

theorem touch_terminal (hw : RunTouch db w) (hrun : w.run db = .ok db') (h : Terminal start db) :
    Terminal start db' := by
  cases hw with
  | touched hp =>
    refine h.update (Write.run_runs hrun) fun r hr hid => ?_
    obtain rfl := beq_iff_eq.mp hid
    rw [getByRunId_of_mem hr]
    refine effectivePatch_follows (by rw [hp.completedAt]; nofun) fun _ hs => ?_
    rw [hp.completedAt] at hs
    cases hs

theorem settlement_terminal (hw : Settlement db w) (hr : w.run db = .ok db') (h : Terminal start db) :
    Terminal start db' := by
  cases hw with
  | coalesced => exact h.update (Write.run_runs hr) fun _ _ _ => ⟨rfl, fun _ => rfl, fun _ _ => rfl⟩
  | joined => exact h.update (Write.run_runs hr) fun _ _ _ => ⟨rfl, id, id⟩
  | unresolved => exact complete_terminal rfl hr h
  | marked => exact h.update (Write.run_runs hr) fun _ _ _ => ⟨rfl, id, id⟩

theorem effect_terminal (hw : RunEffect db w) (hr : w.run db = .ok db') (h : Terminal start db) :
    Terminal start db' := by
  cases hw with
  | aside hne => exact h.same (Write.run_runs_of_ne hr hne)
  | touched hw => exact touch_terminal hw hr h
  | ended _ ht => exact complete_terminal ht hr h
  | withdrawn => exact h.update (Write.run_runs hr) fun _ _ _ => completion_follows rfl
  | settled hw => exact settlement_terminal hw hr h
  | bound => exact h.update (Write.run_runs hr) fun _ _ _ => ⟨rfl, id, id⟩
  | minted _ hop =>
    refine h.insert (Write.run_runs hr) fun hd => ?_
    rw [hop] at hd
    cases hd

end Writes

section Operations

variable [Host]

inductive Action where
  | insert (token : Option String) (record : HrcRunRecord)
  | update (token : Option String) (runId : String) (patch : RunUpdatePatch)
  | updateStatus (runId : String) (status : RunStatus) (updatedAt : String)
  | fenceBrokerInput (runId fencedAt reason : String)
  | markCompleted (runId : String) (updates : RunCompletion)
  | markQueuedCoalesced (runId : String) (updates : QueuedCoalesce)
  | claimQueued (token : Option String) (runId : String) (claim : QueuedClaim)
  | snapshotQueued (hostSessionId snapshotId updatedAt : String)
  | setCorrelationJson (runId : String) (json : Option Json)
  | claimQueuedHeadlessTurnInput (token : Option String) (runId : String) (claim : QueuedClaim)
      (members : List CoalescedQueuedMember)
  | settleAbsorbed (envelope : InvocationEventEnvelope) (ownerRunId now : String)
  | settlePriorAbsorbed (envelope : InvocationEventEnvelope) (ownerRunId now : String)
  | settleUnownedTurn (envelope : InvocationEventEnvelope) (outcome : EventType) (now : String)
  | failUnresolved (runtimeId invocationId now : String)
  | settleTerminalInvocation (runtimeId now : String)
  | settleUnstarted (settlement : UnstartedSubmissionSettlement) (now : String)
  | project (c : Call)
  | world (f : BrokerEventMapper → BrokerEventMapper)

def discard {α : Type} (m : M α) : M Unit := m >>= fun _ => pure ()

def Action.run : Action → M Unit
  | .insert token record => discard (RunOperations.insert token record)
  | .update token runId patch => discard (RunOperations.update token runId patch)
  | .updateStatus runId status updatedAt => discard (RunOperations.updateStatus runId status updatedAt)
  | .fenceBrokerInput runId fencedAt reason => discard (RunOperations.fenceBrokerInput runId fencedAt reason)
  | .markCompleted runId updates => RunRepository.markCompleted runId updates
  | .markQueuedCoalesced runId updates => discard (RunOperations.markQueuedCoalesced runId updates)
  | .claimQueued token runId claim => discard (RunOperations.claimQueued token runId claim)
  | .snapshotQueued hostSessionId snapshotId updatedAt =>
    discard (snapshotQueuedByHostSessionId hostSessionId snapshotId updatedAt)
  | .setCorrelationJson runId json => statement (.setCorrelation runId json)
  | .claimQueuedHeadlessTurnInput token runId claim members =>
    RunOperations.claimQueuedHeadlessTurnInput token runId claim members
  | .settleAbsorbed envelope ownerRunId now => settleAbsorbedAuxiliary envelope ownerRunId now
  | .settlePriorAbsorbed envelope ownerRunId now => settlePriorAbsorbedAuxiliaries envelope ownerRunId now
  | .settleUnownedTurn envelope outcome now => settleUnownedTurnAbsorbedSteers envelope (terminalStatus outcome) now
  | .failUnresolved runtimeId invocationId now => failUnresolvedAbsorbedAuxiliaries runtimeId invocationId now
  | .settleTerminalInvocation runtimeId now => settleTerminalInvocationAbsorbedAuxiliaries runtimeId now
  | .settleUnstarted settlement now => RunOperations.settleUnstarted settlement now
  | .project c => discard c.run
  | .world f => Prog.modify fun s => { f s with db := { (f s).db with runs := s.db.runs } }

def step (a : Action) (s : BrokerEventMapper) : BrokerEventMapper := (a.run s).2

def Allowed (s : BrokerEventMapper) : Action → Prop
  | .insert _ record => Ended record
  | .update _ runId patch => patch.completedAt ≠ some none ∧
      ∀ r ∈ getByRunId s.db runId, r.completedAt = none → patch.completedAt.isSome = true →
        (patch.status.getD r.status).isRunTerminal = true
  | .markCompleted runId updates => ∀ _r ∈ getByRunId s.db runId, updates.status.isRunTerminal = true
  | _ => True

section Steps

variable {start : Db} {s : BrokerEventMapper}

omit [Host] in
theorem discard_keeps {α : Type} {I : Db → Prop} {m : M α} (h : Keeps I m) : Keeps I (discard m) :=
  .bind h fun _ => .pure ()

variable {runId : String}

omit [Host] in
theorem queued_open {r : HrcRunRecord} (hque : isQueued runId r = true) (h : Ended r) :
    r.completedAt = none := by
  unfold isQueued at hque
  rw [Bool.and_eq_true, beq_iff_eq, beq_iff_eq] at hque
  by_contra hd
  have ht := h (Option.isSome_iff_ne_none.mpr hd)
  rw [hque.2] at ht
  cases ht

variable {token : Option String} {invocationId : String}

theorem update_terminal {patch : RunUpdatePatch}
    (hok : Allowed s (.update token runId patch)) :
    KeepsFrom (Terminal start) s (RunOperations.update token runId patch) := by
  obtain ⟨hn, he⟩ := hok
  refine update_keepsFrom fun runs hrn h => h.update hrn fun r hr hid => ?_
  obtain rfl := beq_iff_eq.mp hid
  rw [getByRunId_of_mem hr]
  exact effective_follows hn (he r (getByRunId_of_mem hr))

theorem markCompleted_terminal {updates : RunCompletion}
    (hok : Allowed s (.markCompleted runId updates)) :
    KeepsFrom (Terminal start) s (RunRepository.markCompleted runId updates) := by
  refine .of_writes (P := fun db w => db = s.db ∧ w = .completeRun runId updates)
    (markCompleted_writesFrom ⟨rfl, rfl⟩) fun db w db' hw hrun h => ?_
  obtain ⟨rfl, rfl⟩ := hw
  refine h.update (Write.run_runs hrun) fun r hr hid => completion_follows ?_
  obtain rfl := beq_iff_eq.mp hid
  exact hok r (getByRunId_of_mem hr)

theorem markQueuedCoalesced_terminal {updates : QueuedCoalesce} :
    Keeps (Terminal start) (RunOperations.markQueuedCoalesced runId updates) :=
  markQueuedCoalesced_keeps fun _ _ hr h => h.update hr fun _ _ _ => ⟨rfl, fun _ => rfl, fun _ _ => rfl⟩

theorem claimQueued_terminal {claim : QueuedClaim} :
    Keeps (Terminal start) (RunOperations.claimQueued token runId claim) := by
  refine claimQueued_keeps fun db runs hrn h => h.update hrn fun r hr hque => ⟨rfl, id, fun he hd => ?_⟩
  have hop : r.completedAt = none := queued_open hque he
  rw [show (claim.apply r).completedAt = none from hop] at hd
  cases hd

theorem settleAuxiliary_terminal {submissionId ownerRunId completedAt : String} :
    Keeps (Terminal start) (settleAuxiliary invocationId submissionId ownerRunId completedAt) := fun s =>
  .of_writes (settleAuxiliary_writes (P := Settlement) (fun _ _ h _ => h) s) fun _ _ _ => settlement_terminal

theorem failUnresolved_terminal {runtimeId now : String} :
    Keeps (Terminal start) (failUnresolvedAbsorbedAuxiliaries runtimeId invocationId now) := fun s =>
  .of_writes (failUnresolvedAbsorbedAuxiliaries_writesFrom (P := Settlement) fun _ _ h _ _ => h)
    fun _ _ _ => settlement_terminal

/-- What one allowed action does to the runs. -/
theorem step_terminal {a : Action} (hok : Allowed s a) (h : Terminal start s.db) : Terminal start (step a s).db := by
  cases a with
  | insert token record =>
    exact discard_keeps (insert_keeps fun _ _ hr h => h.insert (Write.run_runs hr) hok) s h
  | update token runId patch =>
    exact KeepsFrom.bind (update_terminal hok) (fun _ t _ => Keeps.pure () t) h
  | updateStatus runId status updatedAt =>
    exact KeepsFrom.bind (update_terminal ⟨nofun, fun _ _ _ => nofun⟩) (fun _ t _ => Keeps.pure () t) h
  | fenceBrokerInput runId fencedAt reason =>
    exact KeepsFrom.bind (update_terminal ⟨nofun, fun _ _ _ => nofun⟩) (fun _ t _ => Keeps.pure () t) h
  | markCompleted runId updates => exact markCompleted_terminal hok h
  | markQueuedCoalesced runId updates => exact discard_keeps markQueuedCoalesced_terminal s h
  | claimQueued token runId claim => exact discard_keeps claimQueued_terminal s h
  | snapshotQueued hostSessionId snapshotId updatedAt =>
    exact discard_keeps (snapshotQueued_keeps fun _ _ _ _ _ hrn h => h.update hrn fun _ _ _ => ⟨rfl, id, id⟩) s h
  | setCorrelationJson runId json =>
    refine KeepsFrom.of_writes (statement_writesFrom (P := fun _ w => w = .setCorrelation runId json) rfl)
      (fun db w db' hw hr h => ?_) h
    subst hw
    exact h.update (Write.run_runs hr) fun _ _ _ => ⟨rfl, id, id⟩
  | claimQueuedHeadlessTurnInput token runId claim members =>
    refine Keeps.transaction (.bind claimQueued_terminal fun claimed => .bind (.when fun _ => ?_) fun _ => ?_) s h
    · exact .of_readOnly (fail_readOnly _)
    · exact .forEach fun member => coalesceMember_keeps fun _ _ => markQueuedCoalesced_terminal
  | settleAbsorbed envelope ownerRunId now =>
    exact KeepsFrom.of_writes (settleAbsorbedAuxiliary_writes (P := Settlement) (fun _ _ h _ => h) s)
      (fun _ _ _ => settlement_terminal) h
  | settlePriorAbsorbed envelope ownerRunId now =>
    exact KeepsFrom.of_writes (settlePriorAbsorbedAuxiliaries_writes (P := Settlement) (fun _ _ h _ => h) s)
      (fun _ _ _ => settlement_terminal) h
  | settleUnownedTurn envelope outcome now =>
    exact KeepsFrom.of_writes (settleUnownedTurnAbsorbedSteers_writes (P := RunEffect) (terminalStatus_terminal _)
      (fun _ _ => steerEnd_effect) s) (fun _ _ _ => effect_terminal) h
  | failUnresolved runtimeId invocationId now => exact failUnresolved_terminal s h
  | settleTerminalInvocation runtimeId now => exact settleTerminalInvocation_keeps (fun _ => failUnresolved_terminal) s h
  | settleUnstarted settlement now =>
    refine settleUnstarted_keeps (fun _ _ => settleAuxiliary_terminal) (fun status htr u => ?_) s h
    exact markCompleted_terminal fun _ _ => htr
  | project c =>
    refine discard_keeps (call_keeps (fun _ _ _ _ _ hw => effect_terminal (project_effect hw)) (fun w db db' ht hr h => ?_) c) s h
    exact h.same (Write.run_runs_of_ne hr (by rw [ht]; nofun))
  | world f => exact h.same rfl

end Steps

/-- Over every sequence of run operations, projections and settlements that clears no completion and ends what it
completes, a run that is completed in one state is completed with a terminal status in every later one. -/
theorem run_terminal_monotone (s : BrokerEventMapper) (actions : List Action) (hs : AllEnded s.db)
    (hallowed : Meets step Allowed actions s) :
    ∀ before after, actions = before ++ after → Terminal (run step before s).db (run step actions s).db := by
  rintro before after rfl
  obtain ⟨hbef, haft⟩ := meets_append.mp hallowed
  have hsta : Terminal s.db (run step before s).db :=
    run_invariant (I := fun t => Terminal s.db t.db) (fun _ _ h ha => step_terminal ha h)
      ⟨hs, fun r hr hd => ⟨r, hr, rfl, hd⟩⟩ hbef
  have hl := run_invariant (I := fun t => Terminal (run step before s).db t.db) (fun _ _ h ha => step_terminal ha h)
    ⟨hsta.ended, fun r hr hd => ⟨r, hr, rfl, hd⟩⟩ haft
  rw [run_append]
  exact hl

end Operations

def accepted : Action := .insert none { runId := "run" }

def started : Action := .update none "run" { status := some .running, startedAt := some "1" }

def completed : Action := .markCompleted "run" { status := .completed, completedAt := "2", updatedAt := "2" }

/-- `markCompleted` with a status that is no terminal. -/
def revived : Action := .markCompleted "run" { status := .running, completedAt := "3", updatedAt := "3" }

theorem run_terminal_monotone_started :
    let _ := steadyHost
    Terminal (run step [accepted, started, completed] sampleMapper).db
      (run step [accepted, started, completed, started] sampleMapper).db :=
  let _ := steadyHost
  run_terminal_monotone sampleMapper [accepted, started, completed, started] (fun _ h => (List.not_mem_nil h).elim)
    ⟨nofun, ⟨nofun, fun _ _ _ => nofun⟩, fun _ _ => rfl, ⟨nofun, fun _ _ _ => nofun⟩, trivial⟩
    [accepted, started, completed] [started] rfl

/-- `markCompleted` writes the status it is given over a terminal one. -/
theorem completed_run_revived :
    letI := steadyHost
    let rows (actions : List Action) := (run step actions sampleMapper).db.runs.rows.map fun r => (r.status, r.completedAt)
    rows [accepted, completed] = [(.completed, some "2")] ∧ rows [accepted, completed, revived] = [(.running, some "3")] := by
  decide +kernel

end HrcRuntime.RunMonotone
