import HrcRuntime.ToolResultVisits

namespace HrcRuntime.ToolResultRewrites

open Keyed Schedule Mapper

def Phase.isStopped : Phase → Bool
  | .stopped _ => true
  | _ => false

def State.returned (id : Nat) (s : State) : Prop := (s.calls id).all (·.phase.isStopped) = true

def Action.isAdvance (id : Nat) : Action → Bool
  | .advance i _ => i == id
  | _ => false

def quiet (id : Nat) (s : State) : Action → Bool
  | .begin i _ _ _ _ => i != id || (s.calls id).isSome
  | .daemon rows _ => rows.isEmpty
  | _ => true

def late (id : Nat) (s : State) : Action → Bool
  | .begin i _ _ _ _ => i != id || (s.calls id).isSome
  | _ => (s.calls id).all fun c => deadlineReached c.budget s.clock

def remaining (db : Database) (c : Call) : Nat :=
  (db.events.rows.map (·.key)).countP fun k => c.last.all fun l => l.order k == .lt

def Phase.weight (retries : Nat) : Phase → Nat
  | .selecting .broker => 5
  | .selecting .lifecycle => 2
  | .visiting (.broker _ _ _ _ _) _ _ => 4
  | .visiting (.lifecycle _ _ _ _) _ _ => 1
  | .writing _ attempt _ _ _ => retries + 6 - attempt
  | .stopped _ => 0

def Call.fuel (db : Database) (c : Call) : Nat :=
  remaining db c * (c.budget.busyMaxRetries + 8) + c.phase.weight c.budget.busyMaxRetries

def State.fuel (id : Nat) (s : State) : Nat := (s.calls id).elim 0 (·.fuel s.db)

def Phase.lateWeight (retries : Nat) : Phase → Nat
  | .selecting _ => 1
  | .visiting _ rest _ => rest.length + 2
  | .writing _ attempt _ rest _ => retries - attempt + rest.length + 3
  | .stopped _ => 0

def State.lateFuel (id : Nat) (s : State) : Nat := (s.calls id).elim 0 fun c => c.phase.lateWeight c.budget.busyMaxRetries

variable [Host]

section Fuel

variable {s : State} {c : Call} {busy : Bool} {db : Database} {w : Write} {ledger : Ledger} {rest : List Row} {full : Bool}

omit [Host] in
theorem keys_rewrite {key : Key} {guard : JsonText → Bool} {json : JsonText} :
    (db.rewrite key guard json).events.rows.map (·.key) = db.events.rows.map (·.key) :=
  map_amend (g := Row.key) (·.key_setJson json) (·.key_setJson json)

theorem keys_commit (h : commit s.db w = some db) : db.events.rows.map (·.key) = s.db.events.rows.map (·.key) := by
  cases w with
  | spillBroker key runtimeId payload result =>
    obtain ⟨blob, -, rfl⟩ := Option.map_eq_some_iff.mp h
    exact keys_rewrite
  | spillLifecycle key runtimeId payload result spill =>
    cases h
    refine keys_rewrite.trans ?_
    cases Write.blob _ <;> rfl
  | restub key before afterJson =>
    cases h
    exact keys_rewrite

omit [Host] in
theorem weight_next (retries : Nat) : (Phase.next ledger rest full).weight retries ≤ 5 := by
  cases rest with
  | cons row rest =>
    cases row with
    | broker => exact (by decide : 4 ≤ 5)
    | lifecycle => exact (by decide : 1 ≤ 5)
  | nil =>
    cases full with
    | true =>
      cases ledger with
      | broker => exact Nat.le_refl 5
      | lifecycle => exact (by decide : 2 ≤ 5)
    | false =>
      cases ledger with
      | broker => exact (by decide : 2 ≤ 5)
      | lifecycle => exact Nat.zero_le 5

omit [Host] in
theorem weight_select (retries : Nat) :
    (s.select c ledger).isStopped = true ∨ (s.select c ledger).weight retries < (Phase.selecting ledger).weight retries := by
  unfold State.select
  split
  · exact .inl rfl
  · cases hr : (s.db.candidates c.operation ledger c.last).take c.batchSize.val with
    | nil =>
      cases ledger with
      | broker => exact .inr (by decide : 2 < 5)
      | lifecycle => exact .inl rfl
    | cons first others =>
      have hm : first ∈ s.db.candidates c.operation ledger c.last :=
        List.mem_of_mem_take (by rw [hr]; exact List.mem_cons_self)
      have hf := (mem_candidates.mp hm).2.1
      cases first with
      | broker =>
        cases hf
        exact .inr (by decide : 4 < 5)
      | lifecycle =>
        cases hf
        exact .inr (by decide : 1 < 2)

theorem remaining_visit {row : Row} {phase : Phase} {visited : List Key} (h : Walk s.db c) (hph : c.phase = .visiting row rest full) :
    remaining s.db { c with last := some row.key, visited, phase } < remaining s.db c := by
  have hh := h.hand row.key.ledger (by rw [hph]; rfl)
  rw [hph] at hh
  obtain ⟨row', hrow', -⟩ := hh.held row List.mem_cons_self
  obtain ⟨hm, hkey⟩ := find_mem hrow'
  have hbey : ∀ l, c.last = some l → l.order row.key = .lt := by
    intro l hl
    rw [h.last] at hl
    exact (List.pairwise_append.mp hh.sorted).2.2 l (List.mem_of_getLast? hl) row.key List.mem_cons_self
  have hs : ∀ k, (row.key.order k == .lt) = true → (c.last.all fun l => l.order k == .lt) = true := by
    intro k hk
    cases hls : c.last with
    | none => rfl
    | some l => exact beq_iff_eq.mpr (Std.TransCmp.lt_trans (hbey l hls) (beq_iff_eq.mp hk))
  have hf : (s.db.events.rows.map (·.key)).filter (fun k => row.key.order k == .lt)
      = ((s.db.events.rows.map (·.key)).filter fun k => c.last.all fun l => l.order k == .lt).filter
        fun k => row.key.order k == .lt := by
    rw [List.filter_filter]
    refine List.filter_congr fun k _ => ?_
    cases hk : (row.key.order k == .lt) with
    | false => rfl
    | true => rw [hs k hk]; rfl
  unfold remaining
  rw [List.countP_eq_length_filter, List.countP_eq_length_filter]
  change (List.filter (fun k => row.key.order k == .lt) _).length < _
  rw [hf]
  refine List.length_filter_lt_length_iff_exists.mpr ⟨row.key, List.mem_filter.mpr ⟨?_, ?_⟩, ?_⟩
  · rw [← hkey]
    exact List.mem_map_of_mem hm
  · cases hls : c.last with
    | none => rfl
    | some l => exact beq_iff_eq.mpr (hbey l hls)
  · rw [show row.key.order row.key = .eq from Std.ReflCmp.compare_self]
    decide

theorem weight_visit {row : Row} (retries : Nat) : (s.visit c row rest full).weight retries ≤ retries + 6 := by
  have hn : (Phase.next row.key.ledger rest full).weight retries ≤ retries + 6 :=
    (weight_next retries).trans (Nat.le_add_left_of_le (by decide))
  unfold State.visit
  cases c.operation.visit s.db row with
  | skip => exact hn
  | fail => exact Nat.zero_le _
  | write w =>
    dsimp only
    split
    · exact hn
    · split
      · exact Nat.zero_le _
      · exact Nat.le_refl _

theorem fuel_advance (busy : Bool) (h : Walk s.db c) : (s.advance c busy).2.phase.isStopped = true ∨
    (s.advance c busy).2.fuel (s.advance c busy).1 < c.fuel s.db := by
  unfold State.advance
  cases hph : c.phase with
  | selecting ledger =>
    refine (weight_select c.budget.busyMaxRetries).imp id fun hlt => ?_
    unfold Call.fuel
    rw [hph]
    exact Nat.add_lt_add_left hlt _
  | visiting row rest full =>
    right
    have hr : remaining s.db { c with last := some row.key, visited := c.visited ++ [row.key], phase := s.visit c row rest full }
        < remaining s.db c := remaining_visit h hph
    have hw : (s.visit c row rest full).weight c.budget.busyMaxRetries ≤ c.budget.busyMaxRetries + 6 := weight_visit _
    have hm := Nat.mul_le_mul_right (c.budget.busyMaxRetries + 8) (Nat.succ_le_of_lt hr)
    rw [Nat.succ_mul] at hm
    unfold Call.fuel
    dsimp only
    omega
  | stopped reason =>
    left
    dsimp only
    rw [hph]
    rfl
  | writing w attempt ledger rest full =>
    obtain ⟨-, hatt⟩ := h.judged w attempt ledger rest full hph
    have hw : c.phase.weight c.budget.busyMaxRetries = c.budget.busyMaxRetries + 6 - attempt := by rw [hph]; rfl
    dsimp only
    split
    · split
      · exact .inl rfl
      · right
        unfold Call.fuel
        refine Nat.add_lt_add_left ?_ _
        rw [hw]
        change c.budget.busyMaxRetries + 6 - (attempt + 1) < _
        omega
    · cases hc : commit s.db w with
      | none => exact .inl rfl
      | some db =>
        right
        have hr : remaining db { c with phase := .next ledger rest full } = remaining s.db c := by
          unfold remaining
          rw [keys_commit hc]
        have hn : (Phase.next ledger rest full).weight c.budget.busyMaxRetries ≤ 5 := weight_next _
        unfold Call.fuel
        dsimp only
        rw [hr, hw]
        omega

omit [Host] in
theorem lateWeight_next (retries : Nat) : (Phase.next ledger rest full).lateWeight retries ≤ rest.length + 1 := by
  cases rest with
  | cons row rest => exact Nat.le_refl _
  | nil =>
    cases full with
    | true => exact Nat.le_refl _
    | false => cases ledger <;> simp [Phase.next, Phase.ledgerDone, Phase.lateWeight]

theorem late_advance (busy : Bool) (h : Walk s.db c) (hlate : deadlineReached c.budget s.clock = true) :
    (s.advance c busy).2.phase.isStopped = true ∨
      (s.advance c busy).2.phase.lateWeight c.budget.busyMaxRetries < c.phase.lateWeight c.budget.busyMaxRetries := by
  unfold State.advance
  cases hph : c.phase with
  | selecting ledger =>
    left
    unfold State.select
    dsimp only
    rw [if_pos hlate]
    rfl
  | visiting row rest full =>
    have hn : (Phase.next row.key.ledger rest full).lateWeight c.budget.busyMaxRetries ≤ rest.length + 1 := lateWeight_next _
    unfold State.visit
    dsimp only
    cases c.operation.visit s.db row with
    | skip => exact .inr (Nat.lt_succ_of_le hn)
    | fail => exact .inl rfl
    | write w =>
      dsimp only
      split
      · exact .inr (Nat.lt_succ_of_le hn)
      · exact .inl rfl
  | stopped reason =>
    left
    dsimp only
    rw [hph]
    rfl
  | writing w attempt ledger rest full =>
    obtain ⟨-, hatt⟩ := h.judged w attempt ledger rest full hph
    dsimp only
    split
    · split
      · exact .inl rfl
      · right
        change c.budget.busyMaxRetries - (attempt + 1) + rest.length + 3 < c.budget.busyMaxRetries - attempt + rest.length + 3
        omega
    · cases commit s.db w with
      | none => exact .inl rfl
      | some db =>
        right
        have hn : (Phase.next ledger rest full).lateWeight c.budget.busyMaxRetries ≤ rest.length + 1 := lateWeight_next _
        change Phase.lateWeight _ (.next ledger rest full) < c.budget.busyMaxRetries - attempt + rest.length + 3
        omega

end Fuel

section Ends

variable {s : State} {c : Call} {id : Nat} {a : Action}

theorem budget_advance {busy : Bool} : (s.advance c busy).2.budget = c.budget ∧ (s.advance c busy).2.operation = c.operation := by
  unfold State.advance
  cases c.phase with
  | selecting ledger => exact ⟨rfl, rfl⟩
  | visiting row rest full => exact ⟨rfl, rfl⟩
  | stopped reason => exact ⟨rfl, rfl⟩
  | writing w attempt ledger rest full =>
    dsimp only
    split
    · exact ⟨rfl, rfl⟩
    · cases commit s.db w <;> exact ⟨rfl, rfl⟩

theorem calls_step (a : Action) (s : State) (id : Nat) :
    (step a s).calls id = s.calls id ∨
    (s.calls id = none ∧ ∃ operation apply batchSize budget, a = .begin id operation apply batchSize budget ∧
      (step a s).calls id = some (.open operation apply batchSize budget)) ∨
    ∃ c busy, s.calls id = some c ∧ a = .advance id busy ∧ (step a s).calls id = some (s.advance c busy).2 ∧
      (step a s).db = (s.advance c busy).1 := by
  cases a with
  | clock now => exact .inl rfl
  | daemon rows blobs => exact .inl rfl
  | begin i operation apply batchSize budget =>
    unfold step
    dsimp only
    by_cases hs : (s.calls i).isSome = true
    · rw [if_pos hs]
      exact .inl rfl
    · rw [if_neg hs]
      by_cases hid : id = i
      · subst hid
        refine .inr (.inl ⟨by simpa using hs, operation, apply, batchSize, budget, rfl, ?_⟩)
        exact if_pos rfl
      · exact .inl (if_neg hid)
  | advance i busy =>
    unfold step
    dsimp only
    cases hi : s.calls i with
    | none => exact .inl rfl
    | some d =>
      by_cases hid : id = i
      · subst hid
        exact .inr (.inr ⟨d, busy, hi, rfl, if_pos rfl, rfl⟩)
      · exact .inl (if_neg hid)

theorem returned_step (hbg : ∀ operation apply batchSize budget, a = .begin id operation apply batchSize budget →
    (s.calls id).isSome = true) (h : s.returned id) : (step a s).returned id := by
  unfold State.returned at h ⊢
  rcases calls_step a s id with hc | ⟨hnn, operation, apply, batchSize, budget, ha, -⟩ | ⟨c, busy, hc, -, hn, -⟩
  · rw [hc]
    exact h
  · have hs := hbg operation apply batchSize budget ha
    rw [hnn] at hs
    cases hs
  · rw [hc] at h
    rw [hn]
    unfold State.advance
    cases hph : c.phase with
    | stopped reason =>
      dsimp only
      exact h
    | selecting ledger => simp [Phase.isStopped, hph] at h
    | visiting row rest full => simp [Phase.isStopped, hph] at h
    | writing w attempt ledger rest full => simp [Phase.isStopped, hph] at h

variable {actions : List Action}

theorem call_ends {ok : State → Action → Bool} {μ : State → Nat} (hs : Inv s)
    (hbg : ∀ s operation apply batchSize budget, ok s (.begin id operation apply batchSize budget) = true →
      (s.calls id).isSome = true)
    (hadv : ∀ s c busy, Inv s → ok s (.advance id busy) = true → s.calls id = some c →
      (step (.advance id busy) s).returned id ∨ μ (step (.advance id busy) s) < μ s)
    (hoth : ∀ s a, Inv s → ok s a = true → a.isAdvance id = false → μ (step a s) ≤ μ s)
    (hmt : Meets step (fun s a => ok s a = true) actions s) (he : μ s < actions.countP (·.isAdvance id)) :
    (run step actions s).returned id := by
  refine run_ends (I := Inv) (fun s a hs _ => hs.step a) (fun s a hok h => returned_step ?_ h) ?_
    (fun s a hs hok hcnt => .inr (hoth s a hs hok hcnt)) hs hmt he
  · rintro operation apply batchSize budget rfl
    exact hbg s operation apply batchSize budget hok
  · intro s a hs hok hcnt
    cases a with
    | advance i busy =>
      obtain rfl : i = id := beq_iff_eq.mp hcnt
      cases hc : s.calls i with
      | some c => exact hadv s c busy hs hok hc
      | none =>
        have hn : s.returned i := by
          unfold State.returned
          rw [hc]
          rfl
        exact .inl (returned_step (fun _ _ _ _ h => by cases h) hn)
    | begin i operation apply batchSize budget => cases hcnt
    | daemon rows blobs => cases hcnt
    | clock now => cases hcnt

theorem keys_advance {busy : Bool} : (s.advance c busy).1.events.rows.map (·.key) = s.db.events.rows.map (·.key) := by
  unfold State.advance
  cases c.phase with
  | selecting ledger => rfl
  | visiting row rest full => rfl
  | stopped reason => rfl
  | writing w attempt ledger rest full =>
    dsimp only
    split
    · rfl
    · cases hc : commit s.db w with
      | none => rfl
      | some db => exact keys_commit hc

theorem keys_quiet (h : quiet id s a = true) : (step a s).db.events.rows.map (·.key) = s.db.events.rows.map (·.key) := by
  cases a with
  | clock now => rfl
  | daemon rows blobs =>
    obtain rfl : rows = [] := List.isEmpty_iff.mp h
    rfl
  | begin i operation apply batchSize budget =>
    unfold step
    dsimp only
    split <;> rfl
  | advance i busy =>
    unfold step
    dsimp only
    cases s.calls i with
    | none => rfl
    | some d => exact keys_advance

theorem calls_other (hbg : ∀ operation apply batchSize budget, a = .begin id operation apply batchSize budget →
    (s.calls id).isSome = true) (hoth : a.isAdvance id = false) : (step a s).calls id = s.calls id := by
  rcases calls_step a s id with h | ⟨hn, operation, apply, batchSize, budget, ha, -⟩ | ⟨c, busy, -, ha, -⟩
  · exact h
  · have hs := hbg operation apply batchSize budget ha
    rw [hn] at hs
    cases hs
  · rw [ha] at hoth
    simp [Action.isAdvance] at hoth

omit [Host] in
theorem fuel_of_calls {s' : State} {c' : Call} (hc : s'.calls id = some c') : s'.fuel id = c'.fuel s'.db := by
  unfold State.fuel
  rw [hc]
  rfl

theorem step_advance (busy : Bool) (hc : s.calls id = some c) :
    (step (.advance id busy) s).calls id = some (s.advance c busy).2 ∧ (step (.advance id busy) s).db = (s.advance c busy).1 := by
  unfold step
  dsimp only
  rw [hc]
  exact ⟨if_pos rfl, rfl⟩

theorem quiet_ends (hs : Inv s) (hmt : Meets step (fun s a => quiet id s a = true) actions s)
    (he : s.fuel id < actions.countP (·.isAdvance id)) : (run step actions s).returned id := by
  refine call_ends hs (fun s _ _ _ _ h => by simpa [quiet] using h) ?_ ?_ hmt he
  · intro s c busy hs _ hc
    have hw := hs id c hc
    obtain ⟨hn, hdb⟩ := step_advance busy hc
    refine (fuel_advance busy hw).imp (fun h => ?_) fun h => ?_
    · unfold State.returned
      rw [hn]
      exact h
    · rw [fuel_of_calls hn, fuel_of_calls hc, hdb]
      exact h
  · intro s a hs hqt hoth
    have hk := keys_quiet hqt
    have hcl : (step a s).calls id = s.calls id := calls_other
      (fun operation apply batchSize budget ha => by rw [ha] at hqt; simpa [quiet] using hqt) hoth
    unfold State.fuel
    rw [hcl]
    cases s.calls id with
    | none => exact Nat.le_refl _
    | some c =>
      refine Nat.le_of_eq ?_
      unfold Option.elim Call.fuel remaining
      dsimp only
      rw [hk]

theorem late_ends (hs : Inv s) (hmt : Meets step (fun s a => late id s a = true) actions s)
    (he : s.lateFuel id < actions.countP (·.isAdvance id)) : (run step actions s).returned id := by
  refine call_ends hs (fun s _ _ _ _ h => by simpa [late] using h) ?_ ?_ hmt he
  · intro s c busy hs hlate hc
    obtain ⟨hn, -⟩ := step_advance busy hc
    unfold late at hlate
    dsimp only at hlate
    rw [hc] at hlate
    refine (late_advance busy (hs id c hc) hlate).imp (fun h => ?_) fun h => ?_
    · unfold State.returned
      rw [hn]
      exact h
    · unfold State.lateFuel
      rw [hn, hc]
      unfold Option.elim
      dsimp only
      rw [budget_advance.1]
      exact h
  · intro s a hs hlate hoth
    have hcl : (step a s).calls id = s.calls id := calls_other
      (fun operation apply batchSize budget ha => by rw [ha] at hlate; simpa [late] using hlate) hoth
    unfold State.lateFuel
    rw [hcl]

end Ends

end HrcRuntime.ToolResultRewrites
