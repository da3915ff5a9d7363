import HrcRuntime.EventRepository
import HrcRuntime.Repositories

namespace HrcRuntime.Stability

open Records Relational Database EventRepository Repositories

def invocationIdentity (r : HrcBrokerInvocationRecord) : HrcBrokerInvocationRecord :=
  { r with
    runId := none, invocationState := .ready, lastProjectedSeq := 0, retainedProjectedThroughSeq := none
    lifecyclePolicyHash := none, currentHarnessGeneration := none, currentTurnAttempt := none
    lifecycleTerminalReason := none, lastLifecycleEscalationJson := none, updatedAt := "" }

def runtimeIdentity (r : HrcRuntimeSnapshot) : HrcRuntimeSnapshot :=
  { r with
    status := .ready, statusChangedAt := none, activeRunId := none, activeOperationId := none
    activeInvocationId := none, lastActivityAt := none, runtimeStateJson := none, updatedAt := "" }

structure SamePlacement (a b : Db) : Prop where
  invocations : b.brokerInvocations.rows.map invocationIdentity = a.brokerInvocations.rows.map invocationIdentity
  runtimes : b.runtimes.rows.map runtimeIdentity = a.runtimes.rows.map runtimeIdentity
  operations : b.runtimeOperations = a.runtimeOperations

theorem SamePlacement.refl (a : Db) : SamePlacement a a := ⟨rfl, rfl, rfl⟩

theorem SamePlacement.trans {a b c : Db} (h : SamePlacement a b) (h' : SamePlacement b c) : SamePlacement a c :=
  ⟨h'.invocations.trans h.invocations, h'.runtimes.trans h.runtimes, h'.operations.trans h.operations⟩

theorem SamePlacement.symm {a b : Db} (h : SamePlacement a b) : SamePlacement b a :=
  ⟨h.invocations.symm, h.runtimes.symm, h.operations.symm⟩

section Statements

variable {db db' : Db} {w : Write}

theorem update_map {ρ κ τ : Type} [DecidableEq κ] {indexes : List (ρ → Option κ)} {t t' : Table ρ indexes}
    {p : ρ → Bool} {f : ρ → ρ} (h : t.update p f = some t') {identity : ρ → τ}
    (hf : ∀ r, identity (f r) = identity r) : t'.rows.map identity = t.rows.map identity := by
  rw [update_rows h, List.map_map]
  refine List.map_congr_left fun r _ => ?_
  rw [Function.comp_apply]
  split
  · exact hf r
  · rfl

theorem write_invocations (h : w.run db = .ok db') :
    db'.brokerInvocations.rows.map invocationIdentity = db.brokerInvocations.rows.map invocationIdentity := by
  by_cases ht : w.table = .brokerInvocations
  · have hr := Write.run_brokerInvocations h
    cases w with
    | updateInvocation => exact update_map hr fun _ => rfl
    | setProjectedSeq => exact update_map hr fun _ => rfl
    | setRetainedSeq => exact update_map hr fun _ => rfl
    | _ => cases ht
  · rw [Write.run_brokerInvocations_of_ne h ht]

theorem write_runtimes (h : w.run db = .ok db') :
    db'.runtimes.rows.map runtimeIdentity = db.runtimes.rows.map runtimeIdentity := by
  by_cases ht : w.table = .runtimes
  · have hr := Write.run_runtimes h
    cases w with
    | updateRuntime => exact update_map hr fun _ => rfl
    | setActiveRun => exact update_map hr fun _ => rfl
    | clearActiveRun => exact update_map hr fun _ => rfl
    | _ => cases ht
  · rw [Write.run_runtimes_of_ne h ht]

theorem write_samePlacement (h : w.run db = .ok db') : SamePlacement db db' :=
  ⟨write_invocations h, write_runtimes h, Write.run_runtimeOperations h⟩

end Statements

section Lookups

theorem find?_map_identity {ρ : Type} (identity : ρ → ρ) {p : ρ → Bool} {l : List ρ}
    (hp : ∀ r, p (identity r) = p r) : (l.map identity).find? p = (l.find? p).map identity := by
  rw [List.find?_map]
  congr 2
  exact funext hp

variable {a b : Db} (h : SamePlacement a b)
include h

theorem getByInvocationId_identity (invocationId : String) :
    (getByInvocationId b invocationId).map invocationIdentity
      = (getByInvocationId a invocationId).map invocationIdentity := by
  unfold getByInvocationId Table.find?
  rw [← find?_map_identity invocationIdentity fun _ => rfl,
    ← find?_map_identity invocationIdentity fun _ => rfl, h.invocations]

theorem getByRuntimeId_identity (runtimeId : String) :
    (getByRuntimeId b runtimeId).map runtimeIdentity = (getByRuntimeId a runtimeId).map runtimeIdentity := by
  unfold getByRuntimeId Table.find?
  rw [← find?_map_identity runtimeIdentity fun _ => rfl,
    ← find?_map_identity runtimeIdentity fun _ => rfl, h.runtimes]

theorem getByInvocationId_stable {invocationId : String} {r : HrcBrokerInvocationRecord}
    (hr : getByInvocationId a invocationId = some r) :
    ∃ r', getByInvocationId b invocationId = some r' ∧ invocationIdentity r' = invocationIdentity r := by
  have hid := getByInvocationId_identity h invocationId
  rw [hr, Option.map_some] at hid
  exact Option.map_eq_some_iff.mp hid

theorem getByRuntimeId_stable {runtimeId : String} {r : HrcRuntimeSnapshot} (hr : getByRuntimeId a runtimeId = some r) :
    ∃ r', getByRuntimeId b runtimeId = some r' ∧ runtimeIdentity r' = runtimeIdentity r := by
  have hid := getByRuntimeId_identity h runtimeId
  rw [hr, Option.map_some] at hid
  exact Option.map_eq_some_iff.mp hid

end Lookups

end HrcRuntime.Stability
