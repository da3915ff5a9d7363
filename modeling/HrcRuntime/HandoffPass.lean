import HrcRuntime.HandoffCandidates

namespace HrcRuntime.HandoffFinalizer

open HandoffRecords

variable {s s' s'' : State} {c : Candidate} {d : Draws} {db : Database} {id run : String}

theorem outcome_terminal : (outcome db c).terminal = true := by
  unfold outcome
  split <;> rfl

structure Finalized (s s' : State) : Prop where
  cursor : s'.cursor = s.cursor
  tasks : s'.tasks = s.tasks
  pass : s'.pass = s.pass
  runOf : s'.db.runOf = s.db.runOf
  head : s.db.head ≤ s'.db.head
  numbered : s.db.Numbered → s'.db.Numbered
  pending : ∀ id, s'.db.Pending id → s.db.Pending id
  answered : ∀ id, s.db.answered id = true → s'.db.answered id = true
  kept : ∀ id m, s.db.messages.find id = some m →
    ∃ m', s'.db.messages.find id = some m' ∧ m'.phase = m.phase ∧ m'.metadata = m.metadata
  events : ∀ e ∈ s'.db.events, e ∈ s.db.events ∨ e.terminal = false
  active : ∀ a ∈ s'.active, a ∈ s.active
  dropped : ∀ a ∈ s.active, a ∈ s'.active ∨
    ∃ c : Candidate, c.run = a.1 ∧ s.db.runOf c.request.messageId = some (some c.run) ∧
      s'.db.answered c.request.messageId = true

namespace Finalized

theorem refl (s : State) : Finalized s s :=
  ⟨rfl, rfl, rfl, rfl, Nat.le_refl _, id, fun _ => id, fun _ => id, fun _ m h => ⟨m, h, rfl, rfl⟩, fun _ => .inl,
    fun _ => id, fun _ => .inl⟩

theorem trans (h : Finalized s s') (h' : Finalized s' s'') : Finalized s s'' where
  cursor := h'.cursor.trans h.cursor
  tasks := h'.tasks.trans h.tasks
  pass := h'.pass.trans h.pass
  runOf := h'.runOf.trans h.runOf
  head := Nat.le_trans h.head h'.head
  numbered hs := h'.numbered (h.numbered hs)
  pending id hp := h.pending id (h'.pending id hp)
  answered id ha := h'.answered id (h.answered id ha)
  kept id m hf := by
    obtain ⟨m₁, hfind₁, hphase₁, hmeta₁⟩ := h.kept id m hf
    obtain ⟨m₂, hfind₂, hphase₂, hmeta₂⟩ := h'.kept id m₁ hfind₁
    exact ⟨m₂, hfind₂, hphase₂.trans hphase₁, hmeta₂.trans hmeta₁⟩
  events e he := (h'.events e he).elim (h.events e) .inr
  active a ha := h.active a (h'.active a ha)
  dropped a ha := by
    rcases h.dropped a ha with ha | ⟨c, hc, hr, hans⟩
    · rcases h'.dropped a ha with ha | ⟨c, hc, hr, hans⟩
      · exact .inl ha
      · exact .inr ⟨c, hc, h.runOf ▸ hr, hans⟩
    · exact .inr ⟨c, hc, hr, h'.answered _ hans⟩

theorem identified (h : Finalized s s') (hid : Identified s) : Identified s' :=
  hid.of_runOf h.runOf h.tasks h.active (.inl h.pass)

end Finalized

/-- One finalization. -/
theorem finalize_finalized (hrun : s.db.runOf c.request.messageId = some (some c.run)) (h : finalize d s c = some s') :
    Finalized s s' ∧ s'.db.answered c.request.messageId = true := by
  unfold finalize at h
  split at h
  · cases h
  obtain ⟨r, hr, rfl⟩ := Option.map_eq_some_iff.mp h
  have hdr : ∀ (db' : Database) (answers : List (String × String)), db'.answered c.request.messageId = true →
      ∀ a ∈ s.active, a ∈ (({ s with db := db', answers } : State).remove c.run).active ∨
        ∃ c : Candidate, c.run = a.1 ∧ s.db.runOf c.request.messageId = some (some c.run) ∧
          db'.answered c.request.messageId = true := by
    intro db' answers hd a ha
    by_cases hc : a.1 = c.run
    · exact .inr ⟨c, hc.symm, hrun, hd⟩
    · exact .inl (List.mem_filter.mpr ⟨ha, decide_eq_true hc⟩)
  rcases Database.finalizeHandoff_eq hr with ⟨rfl, hans⟩ | ⟨-, inserted, hins, rfl⟩
  · refine ⟨⟨rfl, rfl, rfl, rfl, Nat.le_refl _, id, fun _ => id, fun _ => id, fun _ m h => ⟨m, h, rfl, rfl⟩, fun _ => .inl,
      fun _ ha => List.mem_of_mem_filter ha, ?_⟩, hans⟩
    exact hdr s.db _ hans
  · let row := response s.db c (d.messageId c.run) d.createdAt
    let db' := (inserted.updateExecution c.request.messageId (settled s.db c)).append (responseEvent (s.db.numbered row))
    have han : ∀ i, db'.answered i = (s.db.answered i || decide (some c.request.messageId = some i)) := by
      intro i
      have hu : db'.answered i = inserted.answered i := Database.answered_update
      rw [hu, Database.answered_insert hins]
      simp [response]
    have hd : db'.answered c.request.messageId = true := by rw [han]; simp
    have hup : (inserted.updateExecution c.request.messageId (settled s.db c)).runOf = inserted.runOf :=
      Database.runOf_update fun _ => rfl
    have hrn : db'.runOf = s.db.runOf := hup.trans (Database.runOf_insert hins rfl)
    have hevs : inserted.events = s.db.events := (Database.insert_eq hins).2.1
    have hh : inserted.head = s.db.head := Database.head_insert hins
    refine ⟨⟨rfl, rfl, rfl, hrn, ?_, ?_, ?_, ?_, ?_, ?_, fun _ ha => List.mem_of_mem_filter ha,
      hdr db' _ hd⟩, hd⟩
    · rw [← hh]
      change (inserted.updateExecution c.request.messageId (settled s.db c)).head ≤ _
      exact Database.head_le_append
    · exact fun hs => Database.numbered_update (Database.numbered_insert hins hs)
    · intro i hp
      have hp' : (inserted.updateExecution c.request.messageId (settled s.db c)).Pending i := hp
      refine Database.pending_of_insert hins (.inl rfl) (Database.pending_of_update ?_ ?_ hp')
      · exact fun _ => rfl
      · exact fun _ _ => outcome_terminal
    · intro i hi
      change db'.answered i = true
      rw [han, hi]
      rfl
    · intro i m hf
      have hne : i ≠ row.messageId := by
        rintro rfl
        rw [Database.insert_absent hins] at hf
        cases hf
      have hin : inserted.messages.find i = some m := by
        rw [Database.find_insert hins, Function.update_of_ne hne]
        exact hf
      change ∃ m', (inserted.updateExecution c.request.messageId (settled s.db c)).messages.find i = some m' ∧ _
      by_cases hi : i = c.request.messageId
      · subst hi
        rw [Database.find_update_self, hin]
        exact ⟨_, rfl, rfl, rfl⟩
      · rw [Database.find_update_of_ne hi]
        exact ⟨m, hin, rfl, rfl⟩
    · intro e he
      rcases List.mem_append.mp he with he | he
      · left
        rw [← hevs]
        exact he
      · right
        rw [List.mem_singleton.mp he]
        rfl

theorem finalizeAll_finalized {cs : List Candidate}
    (hrn : ∀ c ∈ cs, s.db.runOf c.request.messageId = some (some c.run)) :
    Finalized s (finalizeAll d cs s).1 ∧
      ((finalizeAll d cs s).2 = true → ∀ c ∈ cs, (finalizeAll d cs s).1.db.answered c.request.messageId = true) := by
  induction cs generalizing s with
  | nil => exact ⟨Finalized.refl s, fun _ _ h => absurd h List.not_mem_nil⟩
  | cons c cs ih =>
    unfold finalizeAll
    cases hc : finalize d s c with
    | none => exact ⟨Finalized.refl s, fun h => absurd h Bool.false_ne_true⟩
    | some s₁ =>
      obtain ⟨hf, hans⟩ := finalize_finalized (hrn c List.mem_cons_self) hc
      obtain ⟨hr, hall⟩ := ih (s := s₁) fun c' hc' => by
        rw [hf.runOf]
        exact hrn c' (List.mem_cons_of_mem _ hc')
      refine ⟨hf.trans hr, fun hd c' hc' => ?_⟩
      rcases List.mem_cons.mp hc' with rfl | hc'
      · exact hr.answered _ hans
      · exact hall hd c' hc'

end HrcRuntime.HandoffFinalizer
