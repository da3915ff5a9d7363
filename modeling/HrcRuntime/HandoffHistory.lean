import HrcRuntime.HandoffRuns

namespace HrcRuntime.HandoffFinalizer

open HandoffRecords Schedule

def Complete (db : Database) (a : String × String) : Prop :=
  ∃ r q, db.messages.find a.2 = some r ∧ r.phase = .response ∧ r.replyToMessageId = some a.1 ∧ r.marked = false ∧
    db.messages.find a.1 = some q ∧ q.marked = true ∧ q.execution.runId.isSome = true ∧
    q.execution.state = r.execution.state ∧ r.execution.state.terminal = true ∧
    ∃ e ∈ db.events, e.eventKind = .messageResponse ∧ e.payload = .message r

/-- No request is finalized twice, none is finalized in part, and a request with a run is in a terminal state only
where it is finalized or was so from the start. -/
structure History (old db : Database) (answers : List (String × String)) : Prop where
  nodup : (answers.map (·.1)).Nodup
  complete : ∀ a ∈ answers, Complete db a
  ended : ∀ id m, db.messages.find id = some m → m.marked = true → m.execution.state.terminal = true →
    (∃ p, (id, p) ∈ answers) ∨ m.execution.runId = none ∨
      ∃ m₀, old.messages.find id = some m₀ ∧ m₀.execution.state.terminal = true

variable {old db db' : Database} {answers : List (String × String)} {m : Message} {id : String}
  {patch : Execution → Execution} {s : State} {t : Task} {d : Draws}

variable {a : String × String}

theorem Complete.answered (h : Complete db a) : db.answered a.1 = true := by
  obtain ⟨r, -, hf, hph, hreply, -⟩ := h
  exact Database.answered_iff.mpr ⟨r, (Keyed.find_mem hf).1, hph, hreply⟩

theorem Complete.insert (h : Complete db a) (hi : db.insert m = some db') : Complete db' a := by
  obtain ⟨r, q, hr, hph, hreply, hu, hq, hrs⟩ := h
  have hk : ∀ i x, db.messages.find i = some x → db'.messages.find i = some x := by
    intro i x hx
    rw [Database.find_insert hi, Function.update_of_ne]
    · exact hx
    · rintro rfl
      rw [Database.insert_absent hi] at hx
      cases hx
  refine ⟨r, q, hk _ _ hr, hph, hreply, hu, hk _ _ hq, ?_⟩
  rw [(Database.insert_eq hi).2.1]
  exact hrs

theorem Complete.update (h : Complete db a) (hid : a.1 ≠ id)
    (hm : ∀ x, db.messages.find id = some x → x.marked = true) : Complete (db.updateExecution id patch) a := by
  obtain ⟨r, q, hr, hph, hreply, hu, hq, hrs⟩ := h
  have hne : a.2 ≠ id := by
    rintro rfl
    rw [hm r hr] at hu
    cases hu
  refine ⟨r, q, ?_, hph, hreply, hu, ?_, hrs⟩
  · rw [Database.find_update_of_ne hne]
    exact hr
  · rw [Database.find_update_of_ne hid]
    exact hq

theorem Complete.append (h : Complete db a) (e : Event) : Complete (db.append e) a := by
  obtain ⟨r, q, hr, hph, hreply, hu, hq, hm, hrun, hst, ht, x, hx, hrs⟩ := h
  exact ⟨r, q, hr, hph, hreply, hu, hq, hm, hrun, hst, ht, x, List.mem_append_left _ hx, hrs⟩

namespace History

variable (h : History old db answers)

include h

theorem of_tables (hm : db'.messages = db.messages) (he : db'.events = db.events) :
    History old db' answers where
  nodup := h.nodup
  complete a ha := by
    obtain ⟨r, q, hr⟩ := h.complete a ha
    rw [← hm, ← he] at hr
    exact ⟨r, q, hr⟩
  ended := by
    rw [hm]
    exact h.ended

theorem inserted (hins : db.insert m = some db') (hm : m.marked = true → m.execution.state.terminal = false) :
    History old db' answers where
  nodup := h.nodup
  complete a ha := (h.complete a ha).insert hins
  ended i x hf hmr ht := by
    rw [Database.find_insert hins] at hf
    by_cases hi : i = m.messageId
    · rw [hi, Function.update_self] at hf
      cases hf
      have hop : (db.numbered m).execution.state.terminal = false := hm hmr
      rw [ht] at hop
      cases hop
    · rw [Function.update_of_ne hi] at hf
      exact h.ended i x hf hmr ht

theorem updated (hid : ∀ p, (id, p) ∉ answers) (hmr : ∀ x, db.messages.find id = some x → x.marked = true)
    (hp : ∀ x, (patch x).state.terminal = true →
      (patch x).runId = x.runId ∧ (x.state.terminal = true ∨ db.runOf id = some none)) :
    History old (db.updateExecution id patch) answers where
  nodup := h.nodup
  complete a ha := (h.complete a ha).update (fun heq => hid a.2 (heq ▸ ha)) hmr
  ended i x hf hx ht := by
    by_cases hi : i = id
    · subst hi
      rw [Database.find_update_self] at hf
      obtain ⟨m, hm, rfl⟩ := Option.map_eq_some_iff.mp hf
      obtain ⟨hr, hst⟩ := hp m.execution ht
      have hk : (Database.patched patch m).execution.runId = m.execution.runId := hr
      rw [hk]
      rcases hst with hst | hn
      · exact h.ended i m hm hx hst
      · obtain ⟨m', hm', -, hrun'⟩ := Database.runOf_eq_some.mp hn
        rw [hm] at hm'
        rw [Option.some.inj hm']
        exact .inr (.inl hrun')
    · rw [Database.find_update_of_ne hi] at hf
      exact h.ended i x hf hx ht

theorem appended (e : Event) : History old (db.append e) answers where
  nodup := h.nodup
  complete a ha := (h.complete a ha).append e
  ended := h.ended

end History

theorem History.ofTask (hs : Inv s) (h : History old s.db s.answers) (ht : t ∈ s.tasks.rows) (hph : t.phase ≠ .recorded)
    (patch : Execution → Execution) (hpat : ∀ x, (patch x).state.terminal = true → (patch x).runId = x.runId) :
    History old (s.db.updateExecution t.request patch) s.answers := by
  have hn : s.db.runOf t.request = some none := by rw [hs.owned t ht, if_neg hph]
  obtain ⟨m, hf, hm, hr⟩ := Database.runOf_eq_some.mp hn
  refine h.updated ?_ ?_ fun x hx => ⟨hpat x hx, .inr hn⟩
  · intro p hp
    obtain ⟨r, q, -, -, -, -, hq, -, hsm, -⟩ := h.complete _ hp
    rw [hf] at hq
    cases hq
    rw [hr] at hsm
    cases hsm
  · intro x hx
    rw [hf] at hx
    cases hx
    exact hm

theorem History.advanced (hs : Inv s) (h : History old s.db s.answers) (ht : t ∈ s.tasks.rows)
    (result : Except Failure Receipt) (fault : Option Failure) :
    History old (s.advance t result fault).db (s.advance t result fault).answers := by
  unfold State.advance
  cases hph : t.phase with
  | stored =>
    dsimp only
    split
    · exact h
    · exact h.ofTask hs ht (by rw [hph]; simp) _ fun _ _ => rfl
  | addressed => exact h
  | routing =>
    have hne : t.phase ≠ .recorded := by rw [hph]; simp
    dsimp only
    unfold State.receive
    cases result with
    | error error => exact h
    | ok receipt =>
      dsimp only
      split
      · exact h
      · cases fault with
        | some error => exact h
        | none =>
          refine h.ofTask hs ht hne (started t receipt) fun _ htr => ?_
          cases htr
  | recorded => exact h
  | refused error => exact h
  | failing error =>
    dsimp only
    split
    · exact h
    · exact h.ofTask hs ht (by rw [hph]; simp) (failed error) fun _ _ => rfl

/-- A finalization is stored whole. -/
theorem History.finalized {c : Candidate} {s' : State} (h : History old s.db s.answers)
    (hrun : s.db.runOf c.request.messageId = some (some c.run)) (hc : finalize d s c = some s') :
    History old s'.db s'.answers := by
  unfold finalize at hc
  split at hc
  · cases hc
  obtain ⟨r, hr, rfl⟩ := Option.map_eq_some_iff.mp hc
  rcases Database.finalizeHandoff_eq hr with ⟨rfl, -⟩ | ⟨hop, db₁, hins, rfl⟩
  · exact h
  · let row := s.db.numbered (response s.db c (d.messageId c.run) d.createdAt)
    obtain ⟨m, hf, hm, hmr⟩ := Database.runOf_eq_some.mp hrun
    have hfr : ∀ p, (c.request.messageId, p) ∉ s.answers := by
      intro p hp
      have hans := (h.complete _ hp).answered
      rw [hop] at hans
      cases hans
    have hne : c.request.messageId ≠ d.messageId c.run := by
      intro heq
      have habs : s.db.messages.find (d.messageId c.run) = none := Database.insert_absent hins
      rw [← heq, hf] at habs
      cases habs
    have hfind₁ : db₁.messages.find c.request.messageId = some m := by
      rw [Database.find_insert hins]
      exact (Function.update_of_ne hne _ _).trans hf
    have hmarked₁ : ∀ x, db₁.messages.find c.request.messageId = some x → x.marked = true := by
      intro x hx
      rw [hfind₁] at hx
      cases hx
      exact hm
    have hin : History old db₁ s.answers := h.inserted hins fun hbad => by cases hbad
    constructor
    · change ((s.answers ++ [(c.request.messageId, d.messageId c.run)]).map (·.1)).Nodup
      rw [List.map_append, List.map_singleton]
      refine List.nodup_append.mpr ⟨h.nodup, List.nodup_singleton _, ?_⟩
      rintro x hx y hy rfl
      obtain ⟨a, ha, rfl⟩ := List.mem_map.mp hx
      have heq : a.1 = c.request.messageId := List.mem_singleton.mp hy
      refine hfr a.2 ?_
      rw [← heq]
      exact ha
    · intro a ha
      rcases List.mem_append.mp ha with ha | ha
      · refine ((hin.complete a ha).update (fun heq => hfr a.2 ?_) hmarked₁).append _
        rw [← heq]
        exact ha
      · rw [List.mem_singleton.mp ha]
        refine ⟨row, Database.patched (settled s.db c) m, ?_, rfl, rfl, rfl, ?_, hm, ?_, rfl, outcome_terminal, ?_⟩
        · change (db₁.updateExecution c.request.messageId (settled s.db c)).messages.find (d.messageId c.run) = some row
          rw [Database.find_update_of_ne hne.symm, Database.find_insert hins]
          exact Function.update_self ..
        · change (db₁.updateExecution c.request.messageId (settled s.db c)).messages.find c.request.messageId = _
          rw [Database.find_update_self, hfind₁]
          rfl
        · change m.execution.runId.isSome = true
          rw [hmr]
          rfl
        · exact ⟨_, List.mem_append_right _ (List.mem_singleton_self _), rfl, rfl⟩
    · intro i x hx hxm ht
      have hx' : (db₁.updateExecution c.request.messageId (settled s.db c)).messages.find i = some x := hx
      by_cases hi : i = c.request.messageId
      · subst hi
        exact .inl ⟨_, List.mem_append_right _ (List.mem_singleton_self _)⟩
      · rw [Database.find_update_of_ne hi] at hx'
        exact (hin.ended i x hx' hxm ht).imp_left fun ⟨p, hp⟩ => ⟨p, List.mem_append_left _ hp⟩

theorem History.finalizedAll {cs : List Candidate} (h : History old s.db s.answers)
    (hrn : ∀ c ∈ cs, s.db.runOf c.request.messageId = some (some c.run)) :
    History old (finalizeAll d cs s).1.db (finalizeAll d cs s).1.answers := by
  induction cs generalizing s with
  | nil => exact h
  | cons c cs ih =>
    have hr := hrn c List.mem_cons_self
    unfold finalizeAll
    cases hc : finalize d s c with
    | none => exact h
    | some s₁ =>
      refine ih (h.finalized hr hc) fun c' hc' => ?_
      rw [(finalize_finalized hr hc).1.runOf]
      exact hrn c' (List.mem_cons_of_mem _ hc')

theorem History.pumped {active : Active} (h : History old s.db s.answers) (hr : Ready s.db active) :
    History old (pump d s active).1.db (pump d s active).1.answers := by
  have hall := h.finalizedAll (d := d) (candidates_runOf hr)
  unfold pump
  split
  · exact h
  · dsimp only
    split <;> exact hall

theorem History.onTask {request : String} {f : Task → State} (h : History old s.db s.answers)
    (hf : ∀ t ∈ s.tasks.rows, History old (f t).db (f t).answers) :
    History old (s.onTask request f).db (s.onTask request f).answers := by
  unfold State.onTask
  cases hfn : s.tasks.find request with
  | none => exact h
  | some t => exact hf t (mem_of_find hfn)

theorem step_history (a : Action) (hs : Inv s) (h : History old s.db s.answers) :
    History old (step a s).db (step a s).answers := by
  cases a with
  | submit r messageId createdAt run session =>
    change History old (s.submit r messageId createdAt run session).db (s.submit r messageId createdAt run session).answers
    unfold State.submit
    split
    · split
      · exact h
      · rename_i hi
        exact h.inserted hi fun _ => rfl
    · exact h
  | deliver request result fault => exact h.onTask fun t ht => h.advanced hs ht result fault
  | abandon request =>
    refine h.onTask fun t _ => ?_
    unfold State.abandon
    split <;> exact h
  | event e => exact h.appended e
  | run r => exact h.of_tables rfl rfl
  | buffer run text => exact h.of_tables rfl rfl
  | message input =>
    change History old (otherMessage s.db input) s.answers
    unfold otherMessage
    split
    · rename_i hu
      cases hi : s.db.insert input with
      | none => exact h
      | some db =>
        refine h.inserted hi fun hm => ?_
        unfold Message.marked at hm
        rw [Option.isNone_iff_eq_none.mp hu] at hm
        cases hm
    · exact h
  | begin =>
    change History old s.begin.db s.begin.answers
    unfold State.begin
    split <;> exact h
  | pump d =>
    change History old (s.finish d).db (s.finish d).answers
    unfold State.finish
    cases hp : s.pass with
    | none => exact h
    | some active => exact h.pumped (hs.copied active hp)
  | crash => exact h

theorem run_history (h : Sound old) (actions : List Action) :
    History old (run step actions (boot old)).db (run step actions (boot old)).answers := by
  have hsta : History old (boot old).db (boot old).answers :=
    ⟨List.nodup_nil, fun _ ha => absurd ha List.not_mem_nil, fun _ m hf _ hm => .inr (.inr ⟨m, hf, hm⟩)⟩
  exact (run_invariant (I := fun s => Inv s ∧ History old s.db s.answers)
    (fun _ a hs _ => ⟨step_inv a hs.1, step_history a hs.1 hs.2⟩) ⟨inv_boot h, hsta⟩ meets_true).2

end HrcRuntime.HandoffFinalizer
