import HrcRuntime.HandoffHistory

namespace HrcRuntime.HandoffFinalizer

open HandoffRecords Schedule

def Handoff (db : Database) (id run : String) : Prop :=
  db.runOf id = some (some run) ∧
    ∃ m, db.messages.find id = some m ∧ m.phase = .request ∧ m.metadata.federationSemanticTurnOrigin = false

def resolved (db : Database) (id : String) : Bool :=
  db.answered id || (db.messages.find id).any (·.execution.state.terminal)

def Idle (s : State) (id : String) : Prop := (s.db.messages.find id).isSome = true ∧ ∀ t ∈ s.tasks.rows, t.request ≠ id

/-- The steps between a pass's copy of `active` and its turn at the store. -/
def Action.quiet : Action → Bool
  | .pump _ | .crash => false
  | _ => true

def State.passes (s : State) (d : Draws) : Bool := s.pass.any fun active => (pump d s active).2

structure Undisturbed (id : String) (s s' : State) : Prop where
  row : s'.db.messages.find id = s.db.messages.find id
  answered : s.db.answered id = true → s'.db.answered id = true
  cursor : s'.cursor = s.cursor
  pass : s.pass.isSome = true → s'.pass = s.pass
  head : s.db.head ≤ s'.db.head
  events : ∀ e ∈ s'.db.events, e ∈ s.db.events ∨ s.db.head < e.hrcSeq

variable {s s' s'' : State} {id run : String} {t : Task} {d : Draws} {patch : Execution → Execution} {phase : Phase}

namespace Undisturbed

theorem refl (s : State) : Undisturbed id s s := ⟨rfl, fun h => h, rfl, fun _ => rfl, Nat.le_refl _, fun _ => .inl⟩

theorem trans (h : Undisturbed id s s') (h' : Undisturbed id s' s'') : Undisturbed id s s'' where
  row := h'.row.trans h.row
  answered ha := h'.answered (h.answered ha)
  cursor := h'.cursor.trans h.cursor
  pass hp := (h'.pass (by rw [h.pass hp]; exact hp)).trans (h.pass hp)
  head := Nat.le_trans h.head h'.head
  events e he := by
    rcases h'.events e he with he | hlt
    · exact h.events e he
    · exact .inr (Nat.lt_of_le_of_lt h.head hlt)

theorem pending (h : Undisturbed id s s') (hp : s'.db.Pending id) : s.db.Pending id := by
  obtain ⟨m, hf, hpn⟩ := hp
  obtain ⟨h1, h2, h3, h4, h5, h6⟩ := Database.pendingHandoff_iff.mp hpn
  refine ⟨m, h.row.symm.trans hf, Database.pendingHandoff_iff.mpr ⟨h1, h2, h3, h4, h5, Bool.eq_false_iff.mpr fun ha => ?_⟩⟩
  rw [Database.find_id hf] at ha h6
  rw [h.answered ha] at h6
  cases h6

end Undisturbed

theorem undisturbed_of_db (hdb : s'.db = s.db) (hc : s'.cursor = s.cursor) (hp : s'.pass = s.pass) :
    Undisturbed id s s' where
  row := by rw [hdb]
  answered := by rw [hdb]; exact fun h => h
  cursor := hc
  pass _ := hp
  head := by rw [hdb]
  events := by rw [hdb]; exact fun _ => .inl

theorem undisturbed_update (h : id ≠ t.request) : Undisturbed id s (s.update t patch) :=
  ⟨Database.find_update_of_ne h, fun ha => Database.answered_update.trans ha, rfl, fun _ => rfl, Nat.le_refl _, fun _ => .inl⟩

theorem undisturbed_insert {db : Database} {m : Message} (tasks : Keyed.Store Task (·.request))
    (hid : (s.db.messages.find id).isSome = true) (hi : s.db.insert m = some db) :
    Undisturbed id s { s with db, tasks } where
  row := by
    rw [Database.find_insert hi, Function.update_of_ne]
    rintro rfl
    rw [Database.insert_absent hi] at hid
    cases hid
  answered ha := by
    rw [Database.answered_insert hi, ha]
    rfl
  cursor := rfl
  pass _ := rfl
  head := Nat.le_of_eq (Database.head_insert hi).symm
  events e he := by
    left
    rw [← (Database.insert_eq hi).2.1]
    exact he

theorem idle_move (h : ∀ u ∈ s.tasks.rows, u.request ≠ id) : ∀ u ∈ (s.move t phase).tasks.rows, u.request ≠ id := by
  intro u hu
  obtain ⟨v, hv, rfl⟩ := mem_move.mp hu
  split <;> exact h v hv

theorem idle_leave (h : ∀ u ∈ s.tasks.rows, u.request ≠ id) : ∀ u ∈ (s.leave t).tasks.rows, u.request ≠ id :=
  fun u hu => h u (mem_leave.mp hu).1

theorem advance_undisturbed (h : ∀ u ∈ s.tasks.rows, u.request ≠ id) (ht : t ∈ s.tasks.rows)
    (result : Except Failure Receipt) (fault : Option Failure) : Undisturbed id s (s.advance t result fault) ∧
      ∀ u ∈ (s.advance t result fault).tasks.rows, u.request ≠ id := by
  have hne : id ≠ t.request := (h t ht).symm
  unfold State.advance
  cases t.phase with
  | stored =>
    dsimp only
    split
    · exact ⟨undisturbed_of_db rfl rfl rfl, idle_leave h⟩
    · exact ⟨(undisturbed_update hne).trans (undisturbed_of_db rfl rfl rfl), idle_move h⟩
  | addressed => exact ⟨undisturbed_of_db rfl rfl rfl, idle_move h⟩
  | routing =>
    dsimp only
    unfold State.receive
    cases result with
    | error error => exact ⟨undisturbed_of_db rfl rfl rfl, idle_move h⟩
    | ok receipt =>
      dsimp only
      split
      · exact ⟨undisturbed_of_db rfl rfl rfl, idle_move h⟩
      · cases fault with
        | some error => exact ⟨undisturbed_of_db rfl rfl rfl, idle_move h⟩
        | none => exact ⟨(undisturbed_update hne).trans (undisturbed_of_db rfl rfl rfl), idle_move h⟩
  | recorded => exact ⟨undisturbed_of_db rfl rfl rfl, idle_leave h⟩
  | refused error => exact ⟨undisturbed_of_db rfl rfl rfl, idle_move h⟩
  | failing error =>
    dsimp only
    split
    · exact ⟨undisturbed_of_db rfl rfl rfl, idle_leave h⟩
    · exact ⟨(undisturbed_update hne).trans (undisturbed_of_db rfl rfl rfl), idle_leave h⟩

theorem onTask_undisturbed {request : String} {f : Task → State} (h : ∀ u ∈ s.tasks.rows, u.request ≠ id)
    (hf : ∀ t ∈ s.tasks.rows, Undisturbed id s (f t) ∧ ∀ u ∈ (f t).tasks.rows, u.request ≠ id) :
    Undisturbed id s (s.onTask request f) ∧ ∀ u ∈ (s.onTask request f).tasks.rows, u.request ≠ id := by
  unfold State.onTask
  cases hfn : s.tasks.find request with
  | none => exact ⟨.refl s, h⟩
  | some t => exact hf t (mem_of_find hfn)

theorem quiet_step (a : Action) (hi : Idle s id) (hqt : a.quiet = true) :
    Undisturbed id s (step a s) ∧ Idle (step a s) id := by
  obtain ⟨hid, h⟩ := hi
  suffices hst : Undisturbed id s (step a s) ∧ ∀ u ∈ (step a s).tasks.rows, u.request ≠ id from
    ⟨hst.1, by rw [hst.1.row]; exact hid, hst.2⟩
  cases a with
  | submit r messageId createdAt run session =>
    change Undisturbed id s (s.submit r messageId createdAt run session) ∧
      ∀ u ∈ (s.submit r messageId createdAt run session).tasks.rows, u.request ≠ id
    unfold State.submit
    split
    · split
      · exact ⟨.refl s, h⟩
      · rename_i hins
        refine ⟨undisturbed_insert _ hid hins, fun u hu => ?_⟩
        rcases Keyed.mem_add.mp hu with hu | ⟨rfl, -⟩
        · exact h u hu
        · rintro rfl
          rw [show s.db.messages.find messageId = none from Database.insert_absent hins] at hid
          cases hid
    · exact ⟨.refl s, h⟩
  | deliver request result fault => exact onTask_undisturbed h fun t ht => advance_undisturbed h ht result fault
  | abandon request =>
    refine onTask_undisturbed h fun t _ => ?_
    unfold State.abandon
    split
    · exact ⟨undisturbed_of_db rfl rfl rfl, idle_leave h⟩
    · exact ⟨.refl s, h⟩
  | event e =>
    exact ⟨⟨rfl, fun ha => ha, rfl, fun _ => rfl, Database.head_le_append, fun _ he => Database.mem_append he⟩, h⟩
  | run r => exact ⟨⟨rfl, fun ha => ha, rfl, fun _ => rfl, Nat.le_refl _, fun _ => .inl⟩, h⟩
  | buffer run text => exact ⟨⟨rfl, fun ha => ha, rfl, fun _ => rfl, Nat.le_refl _, fun _ => .inl⟩, h⟩
  | message input =>
    refine ⟨?_, h⟩
    change Undisturbed id s { s with db := otherMessage s.db input }
    unfold otherMessage
    split
    · cases hins : s.db.insert input with
      | none => exact undisturbed_of_db rfl rfl rfl
      | some db => exact undisturbed_insert s.tasks hid hins
    · exact undisturbed_of_db rfl rfl rfl
  | begin =>
    change Undisturbed id s s.begin ∧ ∀ u ∈ s.begin.tasks.rows, u.request ≠ id
    unfold State.begin
    split
    · rename_i hn
      refine ⟨⟨rfl, fun ha => ha, rfl, fun hs => ?_, Nat.le_refl _, fun _ => .inl⟩, h⟩
      rw [Option.isNone_iff_eq_none.mp hn] at hs
      cases hs
    · exact ⟨.refl s, h⟩
  | pump d => cases hqt
  | crash => cases hqt

variable {actions : List Action}

theorem quiet_run (hs : Inv s) (hi : Idle s id)
    (hqt : Meets step (fun _ a => a.quiet = true) actions s) :
    Inv (Schedule.run step actions s) ∧ Undisturbed id s (Schedule.run step actions s) := by
  constructor
  · exact run_invariant (fun _ a hs _ => step_inv a hs) hs hqt
  · exact run_related (I := (Idle · id)) (R := Undisturbed id) Undisturbed.refl (fun _ _ _ => Undisturbed.trans)
      (fun _ a hi hq => (quiet_step a hi hq).2) (fun _ a hi hq => (quiet_step a hi hq).1) hi hqt

theorem pending_of_unresolved {db : Database} (h : Handoff db id run) (hop : resolved db id = false) : db.Pending id := by
  obtain ⟨hr, m, hf, hph, hor⟩ := h
  obtain ⟨m', hf', hm, hmr⟩ := Database.runOf_eq_some.mp hr
  rw [hf] at hf'
  obtain rfl := Option.some.inj hf'
  unfold resolved at hop
  rw [hf, Option.any_some, Bool.or_eq_false_iff] at hop
  refine ⟨m, hf, Database.pendingHandoff_iff.mpr ⟨hph, hop.2, ?_, hm, hor, ?_⟩⟩
  · rw [hmr]
    rfl
  · rw [Database.find_id hf]
    exact hop.1

/-- A pass sees the request of a run that ended: its cursor is not past the end, or the copy of `active` it took names
the request. -/
theorem seen_of_begun (hs : Inv s) (hstl : Undisturbed id { s with pass := some s.active } s')
    (hi : ∀ t ∈ s.tasks.rows, t.request ≠ id) (hr : s.db.runOf id = some (some run)) (hp : s'.db.Pending id) {e : Event}
    (he : e ∈ s'.db.events) (her : e.runId = some run) (htr : e.terminal = true) :
    s'.cursor = none ∨ (∃ c, s'.cursor = some c ∧ c < e.hrcSeq) ∨ (run, (id, true)) ∈ s.active := by
  cases hcur : s'.cursor with
  | none => exact .inl rfl
  | some c =>
    by_cases hlt : c < e.hrcSeq
    · exact .inr (.inl ⟨c, rfl, hlt⟩)
    · have hle := Nat.le_of_not_lt hlt
      have hc : s.cursor = some c := hstl.cursor.symm.trans hcur
      have hin : e ∈ s.db.events := (hstl.events e he).resolve_right fun hps =>
        absurd (Nat.le_trans hle (hs.bound c hc)) (Nat.not_le.mpr hps)
      rcases hs.covered c hc id run hr (hstl.pending hp) e hin her htr hle with ha | ⟨t, ht, heq, -⟩
      · exact .inr (.inr ha)
      · exact absurd heq (hi t ht)

/-- Once a pass that began after the delivery was over succeeds, the request of a run that ended is resolved. -/
theorem resolved_of_pass (hs : Inv s) (hps : s.pass = none) (hh : Handoff s.db id run)
    (hi : ∀ t ∈ s.tasks.rows, t.request ≠ id)
    (hqt : Meets step (fun _ a => a.quiet = true) actions (step .begin s))
    (hp : (Schedule.run step actions (step .begin s)).passes d = true) {e : Event}
    (he : e ∈ (Schedule.run step actions (step .begin s)).db.events) (her : e.runId = some run)
    (ht : e.terminal = true) :
    resolved (step (.pump d) (Schedule.run step actions (step .begin s))).db id = true := by
  have hbg : step .begin s = { s with pass := some s.active } := by
    change s.begin = _
    unfold State.begin
    rw [hps]
    rfl
  obtain ⟨hrun, m, hfn, hph, hor⟩ := hh
  have hidle₀ : Idle (step .begin s) id := by
    rw [hbg]
    exact ⟨by rw [hfn]; rfl, hi⟩
  obtain ⟨hs₁, hstl⟩ := quiet_run (step_inv .begin hs) hidle₀ hqt
  generalize Schedule.run step actions (step .begin s) = s₁ at *
  rw [hbg] at hstl
  have hcp : s₁.pass = some s.active := hstl.pass rfl
  have hfind₁ : s₁.db.messages.find id = some m := hstl.row.trans hfn
  have hrun₁ : s₁.db.runOf id = some (some run) := by
    rw [← hrun]
    unfold Database.runOf
    rw [hfind₁, hfn]
  have hr := hs₁.copied s.active hcp
  have hfi : (step (.pump d) s₁).db = (pump d s₁ s.active).1.db := by
    change (s₁.finish d).db = _
    unfold State.finish
    rw [hcp]
  unfold State.passes at hp
  rw [hcp, Option.any_some] at hp
  rcases pump_eq (d := d) hr with ⟨hf, -⟩ | ⟨-, s₂, hfin, hall, heq⟩
  · rw [hf] at hp
    cases hp
  rw [hfi, heq]
  by_contra hop
  obtain ⟨m₂, hfind₂, hphase₂, hmeta₂⟩ := hfin.kept id m hfind₁
  have hpending₂ : s₂.db.Pending id := by
    refine pending_of_unresolved ⟨hfin.runOf ▸ hrun₁, m₂, hfind₂, hphase₂.trans hph, ?_⟩ (Bool.eq_false_iff.mpr hop)
    rw [hmeta₂]
    exact hor
  have hpending₁ := hfin.pending id hpending₂
  have hsn := seen_of_begun hs hstl hi hrun hpending₁ he her ht
  obtain ⟨c, hc, rfl⟩ := exists_candidate hs₁.toIdentified hs₁.numbered hr hrun₁ hpending₁ he her ht hsn
  have hans := hall c hc
  rw [answered_of_pending hpending₂] at hans
  cases hans

end HrcRuntime.HandoffFinalizer
