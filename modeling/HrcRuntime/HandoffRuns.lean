import HrcRuntime.HandoffCoverage

namespace HrcRuntime.HandoffFinalizer

open HandoffRecords Schedule

variable {s s' : State} {active : Active} {d : Draws} {id run : String}

theorem candidates_runOf (hr : Ready s.db active) :
    ∀ c ∈ candidates s.db (requests s.db s.cursor active), s.db.runOf c.request.messageId = some (some c.run) :=
  fun _ hc => (requests_sound hr (mem_candidates.mp hc).1).2

theorem collect_le (hbd : ∀ c, s.cursor = some c → c ≤ s.db.head) : (collect s.db s.cursor).1 ≤ s.db.head := by
  cases hc : s.cursor with
  | none => exact Nat.le_refl _
  | some c =>
    change ((terminalAfter s.db c).getLast?.map (·.hrcSeq)).getD c ≤ _
    cases hl : (terminalAfter s.db c).getLast? with
    | none => exact hbd c hc
    | some e => exact s.db.hrcSeq_le (List.mem_of_mem_filter (List.mem_of_getLast? hl))

theorem pump_eq (hr : Ready s.db active) : ((pump d s active).2 = false ∧ Finalized s (pump d s active).1) ∨
    ((pump d s active).2 = true ∧ ∃ s₁, Finalized s s₁ ∧
      (∀ c ∈ candidates s.db (requests s.db s.cursor active), s₁.db.answered c.request.messageId = true) ∧
      (pump d s active).1 = { s₁ with cursor := some (collect s.db s.cursor).1 }) := by
  obtain ⟨hf, hall⟩ := finalizeAll_finalized (d := d) (candidates_runOf hr)
  unfold pump
  split
  · exact .inl ⟨rfl, Finalized.refl s⟩
  · dsimp only
    split
    · rename_i hd
      exact .inr ⟨rfl, _, hf, hall hd, rfl⟩
    · rename_i hn
      exact .inl ⟨Bool.eq_false_iff.mpr hn, hf⟩

theorem answered_of_pending {db : Database} (h : db.Pending id) : db.answered id = false := by
  obtain ⟨m, hf, hp⟩ := h
  rw [← Database.find_id hf]
  exact (Database.pendingHandoff_iff.mp hp).2.2.2.2.2

theorem Finalized.covers (h : Finalized s s') (hid : Identified s) (hr : s.db.runOf id = some (some run))
    (hp : s'.db.Pending id) (hcov : s.Covers id run) : s'.Covers id run := by
  rcases hcov with ha | ht
  · rcases h.dropped _ ha with ha | ⟨c, rfl, hc, hans⟩
    · exact .inl ha
    · rw [hid.unique _ _ _ hc hr, answered_of_pending hp] at hans
      cases hans
  · refine .inr ?_
    rw [h.tasks]
    exact ht

theorem Finalized.inv (h : Finalized s s') (hs : Inv s) : Inv s' := by
  refine hs.of_open (h.identified hs.toIdentified) (h.numbered hs.numbered) h.cursor h.head
    (fun e he => (h.events e he).imp_right .inr) fun id run hr hp => ?_
  rw [h.runOf] at hr
  exact .inr ⟨hr, h.pending id hp, h.covers hs.toIdentified hr hp⟩

theorem Inv.advanceCursor (hs : Inv s) (hr : Ready s.db active) (h : Finalized s s')
    (hall : ∀ c ∈ candidates s.db (requests s.db s.cursor active), s'.db.answered c.request.messageId = true) :
    Inv { s' with cursor := some (collect s.db s.cursor).1 } where
  toIdentified := (h.inv hs).toIdentified.of_runOf rfl rfl (fun _ ha => ha) (.inl rfl)
  numbered := (h.inv hs).numbered
  bound c hc := by
    cases hc
    exact Nat.le_trans (collect_le hs.bound) h.head
  covered c _ id run hrun hp e he her ht _ := by
    have hrun' : s.db.runOf id = some (some run) := by
      rw [← h.runOf]
      exact hrun
    have hpn := h.pending id hp
    have hin : e ∈ s.db.events := (h.events e he).resolve_right fun hn => by
      rw [ht] at hn
      cases hn
    by_cases hsn : s.cursor = none ∨ (∃ c, s.cursor = some c ∧ c < e.hrcSeq) ∨ (run, (id, true)) ∈ active
    · obtain ⟨c, hc, rfl⟩ := exists_candidate hs.toIdentified hs.numbered hr hrun' hpn hin her ht hsn
      have hans := hall c hc
      rw [answered_of_pending hp] at hans
      cases hans
    · cases hcur : s.cursor with
      | none => exact absurd (.inl hcur) hsn
      | some k =>
        have hle : e.hrcSeq ≤ k := Nat.le_of_not_lt fun hlt => hsn (.inr (.inl ⟨k, hcur, hlt⟩))
        exact h.covers hs.toIdentified hrun' hp (hs.covered k hcur id run hrun' hpn e hin her ht hle)

theorem Inv.pumped (hs : Inv s) (hr : Ready s.db active) : Inv (pump d s active).1 := by
  rcases pump_eq (d := d) hr with ⟨-, h⟩ | ⟨-, s₁, h, hall, heq⟩
  · exact h.inv hs
  · rw [heq]
    exact hs.advanceCursor hr h hall

theorem Inv.finished (hs : Inv s) : Inv (s.finish d) := by
  unfold State.finish
  cases hp : s.pass with
  | none => exact hs
  | some active =>
    have hpm := hs.pumped (d := d) (hs.copied active hp)
    exact hpm.of_tasks (hpm.toIdentified.of_runOf rfl rfl (fun _ ha => ha) (.inr rfl)) rfl rfl
      fun _ _ _ hc => hc

theorem Inv.begun (hs : Inv s) : Inv s.begin := by
  unfold State.begin
  split
  · refine hs.of_tasks ⟨hs.unique, hs.claimed, hs.distinct, hs.owned, hs.ready, ?_⟩ rfl rfl fun _ _ _ hcov => hcov
    intro active hc
    cases hc
    exact hs.ready
  · exact hs

theorem Inv.crashed (hs : Inv s) : Inv s.crash where
  toIdentified := (inv_boot ⟨hs.numbered, hs.unique⟩).toIdentified.of_runOf rfl rfl (fun _ ha => ha) (.inl rfl)
  numbered := hs.numbered
  bound c hc := by cases hc
  covered c hc := by cases hc

theorem Inv.otherMessage (hs : Inv s) (input : Message) : Inv { s with db := otherMessage s.db input } := by
  unfold HandoffFinalizer.otherMessage
  split
  · rename_i hu
    cases hi : s.db.insert input with
    | none => exact hs.of_tasks (hs.toIdentified.of_runOf rfl rfl (fun _ ha => ha) (.inl rfl)) rfl rfl fun _ _ _ hc => hc
    | some db =>
      have hm : input.marked = false := by
        unfold Message.marked
        rw [Option.isNone_iff_eq_none.mp hu]
        rfl
      have hrn : db.runOf = s.db.runOf := Database.runOf_insert hi hm
      rw [Option.getD_some]
      refine hs.of_open (hs.toIdentified.of_runOf hrn rfl (fun _ ha => ha) (.inl rfl))
        (Database.numbered_insert hi hs.numbered) rfl (Nat.le_of_eq (Database.head_insert hi).symm) ?_ ?_
      · intro e he
        left
        rw [← (Database.insert_eq hi).2.1]
        exact he
      · intro id run hr hp
        have hrun' : db.runOf id = some (some run) := hr
        rw [hrn] at hrun'
        exact .inr ⟨hrun', Database.pending_of_insert hi (.inl hm) hp, fun hc => hc⟩
  · exact hs.of_tasks (hs.toIdentified.of_runOf rfl rfl (fun _ ha => ha) (.inl rfl)) rfl rfl fun _ _ _ hc => hc

theorem mem_of_find {request : String} {t : Task} (h : s.tasks.find request = some t) : t ∈ s.tasks.rows := (Keyed.find_mem h).1

theorem onTask_inv {request : String} {f : Task → State} (hs : Inv s) (h : ∀ t ∈ s.tasks.rows, Inv (f t)) :
    Inv (s.onTask request f) := by
  unfold State.onTask
  cases hf : s.tasks.find request with
  | none => exact hs
  | some t => exact h t (mem_of_find hf)

theorem step_inv (a : Action) (hs : Inv s) : Inv (step a s) := by
  cases a with
  | submit r messageId createdAt run session => exact hs.submitted r messageId createdAt run session
  | deliver request result fault => exact onTask_inv hs fun t ht => hs.advanced ht result fault
  | abandon request => exact onTask_inv hs fun t ht => hs.abandoned ht
  | event e =>
    refine hs.of_open (hs.toIdentified.of_runOf rfl rfl (fun _ ha => ha) (.inl rfl)) hs.numbered rfl
      Database.head_le_append (fun e he => (Database.mem_append he).imp_right .inl) fun _ _ hr hp => ?_
    exact .inr ⟨hr, hp, fun hc => hc⟩
  | run r =>
    refine hs.of_open (hs.toIdentified.of_runOf rfl rfl (fun _ ha => ha) (.inl rfl)) hs.numbered rfl (Nat.le_refl _)
      (fun _ => .inl) fun _ _ hr hp => ?_
    exact .inr ⟨hr, hp, fun hc => hc⟩
  | buffer run text =>
    refine hs.of_open (hs.toIdentified.of_runOf rfl rfl (fun _ ha => ha) (.inl rfl)) hs.numbered rfl (Nat.le_refl _)
      (fun _ => .inl) fun _ _ hr hp => ?_
    exact .inr ⟨hr, hp, fun hc => hc⟩
  | message input => exact hs.otherMessage input
  | begin => exact hs.begun
  | pump d => exact hs.finished
  | crash => exact hs.crashed

theorem run_inv {db : Database} (h : Sound db) (actions : List Action) : Inv (Schedule.run step actions (boot db)) :=
  run_invariant (I := Inv) (fun _ a hs _ => step_inv a hs) (inv_boot h) meets_true

end HrcRuntime.HandoffFinalizer
