import HrcRuntime.StateRetentionFence

namespace HrcRuntime.StateRetention

open Keyed Schedule

variable [Dates]

def Action.isPrune : Action → Bool
  | .prune _ _ => true
  | _ => false

/-- No call of `deleteInBatches` is running. -/
def State.ended (s : State) : Prop := s.call.all (!·.running) = true

def Phase.weight (retries : Nat) : Phase → Nat
  | .reading => retries + 3
  | .selected _ => retries + 2
  | .writing _ attempt => retries + 1 - attempt
  | .stopped _ => 0

def Call.outdated (db : Database) (c : Call) : Bool :=
  match c.phase with
  | .selected keys | .writing keys _ => !keys.all fun k => (db.eligibleKeys c.cutoffs c.table).contains k
  | _ => false

def Phase.lateWeight (retries : Nat) : Phase → Nat
  | .reading | .selected _ => 1
  | .writing _ attempt => retries + 2 - attempt
  | .stopped _ => 0

def State.lateFuel (s : State) : Nat := s.call.elim 0 fun c => c.phase.lateWeight c.budget.busyMaxRetries

/-- Bounds the calls to the store a call of `deleteInBatches` has left when nothing else is written. -/
def State.fuel (s : State) : Nat :=
  match s.call with
  | none => 0
  | some c => ((s.db.eligibleKeys c.cutoffs c.table).length + if c.outdated s.db then 1 else 0) * (c.budget.busyMaxRetries + 4)
      + c.phase.weight c.budget.busyMaxRetries

def late (s : State) : Action → Bool
  | .begin _ _ _ _ => false
  | _ => s.call.all fun c => deadlineReached c.budget s.clock

def quiet (s : State) : Action → Bool
  | .begin _ _ _ _ => false
  | .daemon db => s.call.all fun c => db.eligibleKeys c.cutoffs c.table == s.db.eligibleKeys c.cutoffs c.table
  | _ => true

def Phase.Sane (retries : Nat) : Phase → Prop
  | .selected keys => keys ≠ []
  | .writing keys attempt => keys ≠ [] ∧ attempt ≤ retries
  | _ => True

def Inv (s : State) : Prop := ∀ c, s.call = some c → c.phase.Sane c.budget.busyMaxRetries

section Batches

variable {c : Cutoffs} {db : Database} {keys : List Nat} {table : Table}

omit [Dates] in
theorem eligible_erase {ρ : Type} {key : ρ → Nat} {t : Store ρ key} {eligible : ρ → Bool} {cmp cmp' : ρ → ρ → Ordering} :
    ((KeysetPaging.sortBy cmp ((t.erase fun r => keys.contains (key r) && eligible r).rows.filter eligible)).map key).Perm
      (((KeysetPaging.sortBy cmp' (t.rows.filter eligible)).map key).filter fun k => !keys.contains k) := by
  have hr : (t.erase fun r => keys.contains (key r) && eligible r).rows.filter eligible
      = (t.rows.filter eligible).filter fun r => !keys.contains (key r) := by
    unfold Store.erase
    dsimp only
    rw [List.filter_filter, List.filter_filter]
    refine List.filter_congr fun r _ => ?_
    cases eligible r <;> simp
  rw [hr, List.filter_map]
  refine ((KeysetPaging.perm_sortBy cmp _).trans ?_).map key
  exact ((KeysetPaging.perm_sortBy cmp' _).filter _).symm

theorem eligibleKeys_delete (c : Cutoffs) (db : Database) (table : Table) (keys : List Nat) :
    ((db.deleteSelectedBatch c table keys).eligibleKeys c table).Perm
      ((db.eligibleKeys c table).filter fun k => !keys.contains k) := by
  cases table with
  | hrcEvents => exact eligible_erase
  | brokerInvocationEvents => exact eligible_erase
  | runtimeBuffers => exact eligible_erase
  | brokerProjectionDispositions => exact eligible_erase
  | hrcmailStopRefusals => exact eligible_erase

theorem length_delete_le (c : Cutoffs) (db : Database) (table : Table) (keys : List Nat) :
    ((db.deleteSelectedBatch c table keys).eligibleKeys c table).length
      ≤ (db.eligibleKeys c table).length := by
  rw [(eligibleKeys_delete c db table keys).length_eq]
  exact List.length_filter_le _ _

theorem length_delete_lt (hky : keys ≠ []) (h : (keys.all fun k => (db.eligibleKeys c table).contains k) = true) :
    ((db.deleteSelectedBatch c table keys).eligibleKeys c table).length < (db.eligibleKeys c table).length := by
  rw [(eligibleKeys_delete c db table keys).length_eq]
  obtain ⟨k, hk⟩ := List.exists_mem_of_ne_nil keys hky
  have hm : k ∈ db.eligibleKeys c table := List.contains_iff_mem.mp (List.all_eq_true.mp h k hk)
  refine List.length_filter_lt_length_iff_exists.mpr ⟨k, hm, ?_⟩
  simpa using hk

end Batches

section Calls

variable {s : State} {c : Call} {busy : Bool} {hold : Nat}

omit [Dates] in
theorem inv_put {phase : Phase} (h : phase.Sane c.budget.busyMaxRetries) : Inv (s.put { c with phase }) := by
  intro d hd
  cases hd
  exact h

theorem Inv.advance (hs : Inv s) (hcl : s.call = some c) : Inv (s.advance c busy hold) := by
  have hph := hs c hcl
  unfold State.advance
  cases hc : c.phase with
  | reading =>
    dsimp only
    split
    · exact inv_put trivial
    · split
      · exact inv_put trivial
      · refine inv_put ?_
        split
        · trivial
        · rename_i he
          exact fun h => he (by rw [h]; rfl)
  | selected keys =>
    rw [hc] at hph
    refine inv_put ?_
    split
    · trivial
    · exact ⟨hph, Nat.zero_le _⟩
  | writing keys attempt =>
    rw [hc] at hph
    dsimp only
    split
    · refine inv_put ?_
      split
      · trivial
      · rename_i hatt
        exact ⟨hph.1, Nat.lt_of_not_le hatt⟩
    · split
      · intro d hd
        cases hd
        trivial
      · intro d hd
        cases hd
        trivial
  | stopped reason => exact hs

theorem Inv.step {a : Action} (hs : Inv s) : Inv (step a s) := by
  cases a with
  | begin table cutoffs maxBatchSize budget =>
    change Inv (s.begin _)
    unfold State.begin
    split
    · exact hs
    · intro c hc
      cases hc
      trivial
  | prune busy hold =>
    change Inv (s.onCall _)
    unfold State.onCall
    cases hcl : s.call with
    | none => exact hs
    | some c => exact hs.advance hcl
  | daemon db => exact hs
  | clock now => exact hs

theorem step_prune (hc : s.call = some c) : step (.prune busy hold) s = s.advance c busy hold := by
  change s.onCall _ = _
  unfold State.onCall
  rw [hc]

theorem ended_prune (h : s.ended) : (step (.prune busy hold) s).ended := by
  unfold State.ended at h
  cases hcl : s.call with
  | none =>
    have hs : step (.prune busy hold) s = s := by
      change s.onCall _ = _
      unfold State.onCall
      rw [hcl]
    rw [hs]
    unfold State.ended
    rw [hcl]
    rfl
  | some c =>
    rw [hcl] at h
    rw [step_prune hcl]
    unfold State.advance
    cases hc : c.phase with
    | stopped reason =>
      unfold State.ended
      dsimp only
      rw [hcl]
      exact h
    | reading => simp [Call.running, hc] at h
    | selected keys => simp [Call.running, hc] at h
    | writing keys attempt => simp [Call.running, hc] at h

omit [Dates] in
theorem ended_put {reason : PhaseStop} : (s.put { c with phase := .stopped reason }).ended := rfl

theorem late_prune (hs : Inv s) (hcl : s.call = some c) (hlate : deadlineReached c.budget s.clock = true) :
    (s.advance c busy hold).ended ∨ (s.advance c busy hold).lateFuel < s.lateFuel := by
  have hph := hs c hcl
  have hf : s.lateFuel = c.phase.lateWeight c.budget.busyMaxRetries := by
    unfold State.lateFuel
    rw [hcl]
    rfl
  rw [hf]
  unfold State.advance
  cases hc : c.phase with
  | reading =>
    dsimp only
    rw [if_pos hlate]
    exact .inl ended_put
  | selected keys =>
    dsimp only
    rw [if_pos hlate]
    exact .inl ended_put
  | stopped reason =>
    refine .inl ?_
    unfold State.ended
    dsimp only
    rw [hcl]
    simp [Call.running, hc]
  | writing keys attempt =>
    rw [hc] at hph
    obtain ⟨-, hatt⟩ := hph
    dsimp only
    split
    · split
      · exact .inl ended_put
      · rename_i hr
        right
        change c.budget.busyMaxRetries + 2 - (attempt + 1) < c.budget.busyMaxRetries + 2 - attempt
        omega
    · split
      · exact .inl rfl
      · right
        change 1 < c.budget.busyMaxRetries + 2 - attempt
        omega

theorem fuel_eq (hc : s.call = some c) : s.fuel = ((s.db.eligibleKeys c.cutoffs c.table).length +
    if c.outdated s.db then 1 else 0) * (c.budget.busyMaxRetries + 4) + c.phase.weight c.budget.busyMaxRetries := by
  unfold State.fuel
  rw [hc]

theorem fuel_reading (hcl : s.call = some c) (hc : c.phase = .reading) : s.fuel =
    (s.db.eligibleKeys c.cutoffs c.table).length * (c.budget.busyMaxRetries + 4) + (c.budget.busyMaxRetries + 3) := by
  have hout : c.outdated s.db = false := by
    unfold Call.outdated
    rw [hc]
  rw [fuel_eq hcl, hout, hc]
  rfl

variable {keys : List Nat} {actions : List Action}

theorem fuel_read (hk : ∀ k ∈ keys, k ∈ s.db.eligibleKeys c.cutoffs c.table) :
    (s.put { c with phase := .selected keys }).fuel =
      (s.db.eligibleKeys c.cutoffs c.table).length * (c.budget.busyMaxRetries + 4) + (c.budget.busyMaxRetries + 2) := by
  have hout : Call.outdated s.db { c with phase := .selected keys } = false := by
    unfold Call.outdated
    simpa using hk
  rw [fuel_eq (s := s.put { c with phase := .selected keys }) rfl]
  change (_ + if Call.outdated s.db { c with phase := .selected keys } then 1 else 0) * _ + _ = _
  rw [hout]
  rfl

theorem fuel_holding {phase : Phase} (hcl : s.call = some c)
    (hk : phase = .selected keys ∨ ∃ attempt, phase = .writing keys attempt)
    (hc : c.phase = .selected keys ∨ ∃ attempt, c.phase = .writing keys attempt)
    (h : phase.weight c.budget.busyMaxRetries < c.phase.weight c.budget.busyMaxRetries) :
    (s.put { c with phase }).fuel < s.fuel := by
  have hold : c.outdated s.db = !keys.all fun k => (s.db.eligibleKeys c.cutoffs c.table).contains k := by
    unfold Call.outdated
    rcases hc with hc | ⟨attempt, hc⟩ <;> rw [hc]
  have hn : Call.outdated s.db { c with phase } = c.outdated s.db := by
    rw [hold]
    rcases hk with rfl | ⟨attempt, rfl⟩ <;> rfl
  rw [fuel_eq hcl, fuel_eq (s := s.put { c with phase }) rfl]
  change (_ + if Call.outdated s.db { c with phase } then 1 else 0) * _ + _ < _
  rw [hn]
  exact Nat.add_lt_add_left h _

theorem fuel_delete {attempt deleted batchSize : Nat} (hcl : s.call = some c)
    (hk : keys ≠ []) (hatt : attempt ≤ c.budget.busyMaxRetries) (hc : c.phase = .writing keys attempt) :
    State.fuel { s with
      db := s.db.deleteSelectedBatch c.cutoffs c.table keys
      call := some { c with deleted, batchSize, phase := .reading } } < s.fuel := by
  rw [fuel_reading rfl rfl, fuel_eq hcl, hc]
  dsimp only
  have hw : 1 ≤ Phase.weight c.budget.busyMaxRetries (.writing keys attempt) := by
    change 1 ≤ c.budget.busyMaxRetries + 1 - attempt
    omega
  generalize hK : c.budget.busyMaxRetries + 4 = K
  have hK' : c.budget.busyMaxRetries + 3 < K := by omega
  cases hout : c.outdated s.db with
  | true =>
    have hle := Nat.mul_le_mul_right K (length_delete_le c.cutoffs s.db c.table keys)
    rw [if_pos rfl, Nat.add_mul, Nat.one_mul]
    omega
  | false =>
    have hall : (keys.all fun k => (s.db.eligibleKeys c.cutoffs c.table).contains k) = true := by
      unfold Call.outdated at hout
      rw [hc] at hout
      simpa using hout
    have hlt := Nat.mul_le_mul_right K (Nat.succ_le_of_lt (length_delete_lt hk hall))
    rw [Nat.succ_mul] at hlt
    rw [if_neg Bool.false_ne_true, Nat.add_mul, Nat.zero_mul]
    omega

theorem quiet_prune (hs : Inv s) (hcl : s.call = some c) :
    (s.advance c busy hold).ended ∨ (s.advance c busy hold).fuel < s.fuel := by
  have hph := hs c hcl
  unfold State.advance
  cases hc : c.phase with
  | reading =>
    dsimp only
    split
    · exact .inl ended_put
    · split
      · exact .inl ended_put
      · split
        · exact .inl ended_put
        · right
          have hm : ∀ k ∈ s.db.selectEligibleBatch c.cutoffs c.table c.batchSize, k ∈ s.db.eligibleKeys c.cutoffs c.table :=
            fun k hk => List.mem_of_mem_take hk
          rw [fuel_read hm, fuel_reading hcl hc]
          omega
  | selected keys =>
    dsimp only
    split
    · exact .inl ended_put
    · right
      refine fuel_holding hcl (.inr ⟨0, rfl⟩) (.inl hc) ?_
      rw [hc]
      change c.budget.busyMaxRetries + 1 - 0 < c.budget.busyMaxRetries + 2
      omega
  | stopped reason =>
    refine .inl ?_
    unfold State.ended
    dsimp only
    rw [hcl]
    simp [Call.running, hc]
  | writing keys attempt =>
    rw [hc] at hph
    obtain ⟨hky, hatt⟩ := hph
    dsimp only
    split
    · split
      · exact .inl ended_put
      · right
        refine fuel_holding hcl (.inr ⟨attempt + 1, rfl⟩) (.inr ⟨attempt, hc⟩) ?_
        rw [hc]
        change c.budget.busyMaxRetries + 1 - (attempt + 1) < c.budget.busyMaxRetries + 1 - attempt
        omega
    · split
      · exact .inl rfl
      · exact .inr (fuel_delete hcl hky hatt hc)

theorem ended_step {a : Action} (hbg : ∀ table cutoffs maxBatchSize budget, a ≠ .begin table cutoffs maxBatchSize budget)
    (h : s.ended) : (step a s).ended := by
  cases a with
  | begin table cutoffs maxBatchSize budget => exact absurd rfl (hbg table cutoffs maxBatchSize budget)
  | prune busy hold => exact ended_prune h
  | daemon db => exact h
  | clock now => exact h

omit [Dates] in
theorem ended_of_none (h : s.call = none) : s.ended := by
  unfold State.ended
  rw [h]
  rfl

theorem late_ends (hs : Inv s) (hmt : Meets step (fun s a => late s a = true) actions s)
    (he : s.lateFuel < actions.countP (·.isPrune)) : (run step actions s).ended := by
  refine run_ends (I := Inv) (A := fun s a => late s a = true) (fun s a hs _ => hs.step) ?_ ?_ ?_ hs hmt he
  · intro s a hlate h
    refine ended_step ?_ h
    rintro table cutoffs maxBatchSize budget rfl
    cases hlate
  · intro s a hs hlate hcnt
    cases a with
    | prune busy hold =>
      cases hc : s.call with
      | none => exact .inl (ended_prune (ended_of_none hc))
      | some c =>
        rw [step_prune hc]
        unfold late at hlate
        dsimp only at hlate
        rw [hc] at hlate
        exact late_prune hs hc hlate
    | begin table cutoffs maxBatchSize budget => cases hcnt
    | daemon db => cases hcnt
    | clock now => cases hcnt
  · intro s a hs hlate hcnt
    cases a with
    | prune busy hold => cases hcnt
    | begin table cutoffs maxBatchSize budget => cases hlate
    | daemon db => exact .inr (Nat.le_refl _)
    | clock now => exact .inr (Nat.le_refl _)

theorem fuel_daemon {db : Database} (h : quiet s (.daemon db) = true) : State.fuel { s with db } = s.fuel := by
  cases hc : s.call with
  | none =>
    unfold State.fuel
    dsimp only
    rw [hc]
  | some c =>
    unfold quiet at h
    dsimp only at h
    rw [hc] at h
    have hk : db.eligibleKeys c.cutoffs c.table = s.db.eligibleKeys c.cutoffs c.table := beq_iff_eq.mp h
    have hout : c.outdated db = c.outdated s.db := by
      unfold Call.outdated
      rw [hk]
    rw [fuel_eq hc, fuel_eq (s := { s with db, call := some c }) rfl]
    dsimp only
    rw [hk, hout]

theorem quiet_ends (hs : Inv s) (hmt : Meets step (fun s a => quiet s a = true) actions s)
    (he : s.fuel < actions.countP (·.isPrune)) : (run step actions s).ended := by
  refine run_ends (I := Inv) (A := fun s a => quiet s a = true) (fun s a hs _ => hs.step) ?_ ?_ ?_ hs hmt he
  · intro s a hqt h
    refine ended_step ?_ h
    rintro table cutoffs maxBatchSize budget rfl
    cases hqt
  · intro s a hs hqt hcnt
    cases a with
    | prune busy hold =>
      cases hc : s.call with
      | none => exact .inl (ended_prune (ended_of_none hc))
      | some c =>
        rw [step_prune hc]
        exact quiet_prune hs hc
    | begin table cutoffs maxBatchSize budget => cases hcnt
    | daemon db => cases hcnt
    | clock now => cases hcnt
  · intro s a hs hqt hcnt
    cases a with
    | prune busy hold => cases hcnt
    | begin table cutoffs maxBatchSize budget => cases hqt
    | daemon db => exact .inr (Nat.le_of_eq (fuel_daemon hqt))
    | clock now => exact .inr (Nat.le_refl _)

end Calls

namespace Sample

def cutoffs : Cutoffs := { event := "5", runtimeBuffer := "5", disposition := "5", stopRefusal := "5" }

def budget : WriteBudget := { deadlineAtMillis := none, maxWriteHoldMillis := 100, busyMaxRetries := 2 }

def event (id : Nat) (type : BrokerEventType) (runId runtimeId : Option String) : BrokerEvent :=
  { id, time := "1", type, invocationId := "i", runId, runtimeId, sourceRef := none }

def database (events : List BrokerEvent) : Database :=
  { runs := Store.empty.add { runId := "u", status := .completed }
    runtimes := (Store.empty.add { runtimeId := "r", hostSessionId := "h", status := .terminated, activeRunId := none }).add
      { runtimeId := "q", hostSessionId := "g", status := .other "ready", activeRunId := some "u" }
    invocations := Store.empty.add
      { invocationId := "i", runtimeId := "r", invocationState := .exited, updatedAt := "1", lastProjectedSeq := some 3 }
    hrcEvents := .empty
    brokerEvents := events.foldl (fun t e => t.add e) .empty
    buffers := .empty, dispositions := .empty, stopRefusals := .empty }

def call (keys : List Nat) : Call :=
  { Call.open .brokerInvocationEvents cutoffs 10 budget with phase := .writing keys 0 }

def cleared : Database := database [event 1 .continuationCleared none (some "r")]

end Sample

end HrcRuntime.StateRetention
