import HrcRuntime.HandoffPass
import HrcRuntime.Schedule

namespace HrcRuntime.HandoffFinalizer

open HandoffRecords Schedule

def State.Covers (s : State) (id run : String) : Prop :=
  (run, (id, true)) ∈ s.active ∨ ∃ t ∈ s.tasks.rows, t.request = id ∧ t.phase = .recorded

structure Inv (s : State) : Prop extends Identified s where
  numbered : s.db.Numbered
  bound : ∀ c, s.cursor = some c → c ≤ s.db.head
  covered : ∀ c, s.cursor = some c → ∀ id run, s.db.runOf id = some (some run) → s.db.Pending id →
    ∀ e ∈ s.db.events, e.runId = some run → e.terminal = true → e.hrcSeq ≤ c → s.Covers id run

structure Sound (db : Database) : Prop where
  numbered : db.Numbered
  unique : ∀ i j run, db.runOf i = some (some run) → db.runOf j = some (some run) → i = j

variable {s s' : State} {t : Task} {phase : Phase} {patch : Execution → Execution} {id run : String}

theorem inv_boot {db : Database} (h : Sound db) : Inv (boot db) where
  unique := h.unique
  claimed := fun _ ht => absurd ht List.not_mem_nil
  distinct := fun _ ht => absurd ht List.not_mem_nil
  owned := fun _ ht => absurd ht List.not_mem_nil
  ready := fun _ _ ha => absurd ha List.not_mem_nil
  copied := fun _ hcp => by cases hcp
  numbered := h.numbered
  bound := fun _ hc => by cases hc
  covered := fun _ hc => by cases hc

namespace Inv

variable (h : Inv s)

include h

theorem of_open (hid : Identified s') (hnum : s'.db.Numbered) (hcur : s'.cursor = s.cursor)
    (hh : s.db.head ≤ s'.db.head)
    (hevs : ∀ e ∈ s'.db.events, e ∈ s.db.events ∨ s.db.head < e.hrcSeq ∨ e.terminal = false)
    (hop : ∀ id run, s'.db.runOf id = some (some run) → s'.db.Pending id →
      s'.Covers id run ∨ s.db.runOf id = some (some run) ∧ s.db.Pending id ∧ (s.Covers id run → s'.Covers id run)) :
    Inv s' where
  toIdentified := hid
  numbered := hnum
  bound c hc := Nat.le_trans (h.bound c (hcur ▸ hc)) hh
  covered c hc id run hr hp e he her ht hle := by
    rw [hcur] at hc
    rcases hop id run hr hp with hcov | ⟨hr, hp, hcov⟩
    · exact hcov
    · rcases hevs e he with he | hlt | hn
      · exact hcov (h.covered c hc id run hr hp e he her ht hle)
      · exact absurd (Nat.le_trans hle (h.bound c hc)) (Nat.not_le.mpr hlt)
      · rw [ht] at hn
        cases hn

theorem of_tasks (hid : Identified s') (hdb : s'.db = s.db) (hcur : s'.cursor = s.cursor)
    (hc : ∀ id run, s.db.runOf id = some (some run) → s.Covers id run → s'.Covers id run) : Inv s' := by
  refine h.of_open hid ?_ hcur ?_ ?_ ?_
  · rw [hdb]
    exact h.numbered
  · rw [hdb]
  · rw [hdb]
    exact fun _ => .inl
  · rw [hdb]
    exact fun id run hr hp => .inr ⟨hr, hp, hc id run hr⟩

theorem moved (ht : t ∈ s.tasks.rows) (hph : t.phase ≠ .recorded) (hn : phase ≠ .recorded) : Inv (s.move t phase) := by
  refine h.of_tasks (h.toIdentified.moved ht (iff_of_false hn hph)) rfl rfl fun id run _ hc => ?_
  refine hc.imp_right fun ⟨u, hu, hid, hr⟩ => ⟨u, mem_move.mpr ⟨u, hu, if_neg fun heq => ?_⟩, hid, hr⟩
  obtain rfl := eq_of_request ht hu heq
  exact hph hr

theorem left (ht : t ∈ s.tasks.rows) (hph : t.phase ≠ .recorded) : Inv (s.leave t) := by
  refine h.of_tasks h.toIdentified.left rfl rfl fun id run _ hc => ?_
  refine hc.imp_right fun ⟨u, hu, hid, hr⟩ => ⟨u, mem_leave.mpr ⟨hu, fun heq => ?_⟩, hid, hr⟩
  obtain rfl := eq_of_request ht hu heq
  exact hph hr

theorem updated (hr : ∀ x, (patch x).runId = x.runId)
    (hst : ∀ x, x.state.terminal = true → (patch x).state.terminal = true) : Inv (s.update t patch) := by
  refine h.of_open (h.toIdentified.updated hr) (Database.numbered_update h.numbered) rfl (Nat.le_refl _) (fun _ => .inl) ?_
  intro id run hid hp
  have hid' : (s.db.updateExecution t.request patch).runOf id = some (some run) := hid
  rw [Database.runOf_update hr] at hid'
  exact .inr ⟨hid', Database.pending_of_update hr hst hp, fun hc => hc⟩

theorem not_claimed (ht : t ∈ s.tasks.rows) (hph : t.phase ≠ .recorded)
    (hid : s.db.runOf id = some (some run)) : run ≠ t.runId := by
  rintro rfl
  exact h.claimed t ht hph id hid

theorem removed (ht : t ∈ s.tasks.rows) (hph : t.phase ≠ .recorded) : Inv (s.remove t.runId) := by
  refine h.of_tasks h.toIdentified.removed rfl rfl fun id run hid hc => ?_
  exact hc.imp_left fun ha => List.mem_filter.mpr ⟨ha, decide_eq_true (h.not_claimed ht hph hid)⟩

theorem marked (ht : t ∈ s.tasks.rows) (hph : t.phase ≠ .recorded) : Inv (s.mark t false) := by
  refine h.of_tasks (h.toIdentified.marked fun hr => absurd hr Bool.false_ne_true) rfl rfl ?_
  exact fun id run hid hc => hc.imp_left fun ha => OrderedMap.mem_set_of_ne ha (h.not_claimed ht hph hid)

theorem recorded (ht : t ∈ s.tasks.rows) (hph : t.phase ≠ .recorded) (hpat : ∀ x, (patch x).runId = some t.runId) :
    Inv ((s.update t patch).move t .recorded) := by
  refine h.of_open (h.toIdentified.recorded ht hph hpat) (Database.numbered_update h.numbered) rfl (Nat.le_refl _)
    (fun _ => .inl) fun id run hid hp => ?_
  by_cases heq : id = t.request
  · exact .inl (.inr ⟨_, mem_move.mpr ⟨t, ht, if_pos rfl⟩, heq.symm, rfl⟩)
  · right
    have hn : s.db.runOf t.request = some none := by rw [h.owned t ht, if_neg hph]
    have hid' : (s.db.updateExecution t.request patch).runOf id = some (some run) := hid
    rw [Database.runOf_update_set hpat hn, Function.update_of_ne heq] at hid'
    refine ⟨hid', (Database.pending_update_of_ne heq).mp hp, fun hc => ?_⟩
    refine hc.imp_right fun ⟨u, hu, huid, hr⟩ => ⟨u, mem_move.mpr ⟨u, hu, if_neg fun hut => ?_⟩, huid, hr⟩
    exact heq (huid.symm.trans hut)

theorem readied (ht : t ∈ s.tasks.rows) (hph : t.phase = .recorded) : Inv ((s.mark t true).leave t) := by
  have hown : s.db.runOf t.request = some (some t.runId) := by rw [h.owned t ht, if_pos hph]
  refine h.of_tasks (h.toIdentified.marked fun _ => hown).left rfl rfl fun id run hid hc => ?_
  by_cases heq : run = t.runId
  · subst heq
    obtain rfl := h.unique _ _ _ hid hown
    exact .inl OrderedMap.mem_set_self
  · refine hc.imp (fun ha => OrderedMap.mem_set_of_ne ha heq) fun ⟨u, hu, huid, hr⟩ =>
      ⟨u, mem_leave.mpr ⟨hu, fun hut => ?_⟩, huid, hr⟩
    rw [← huid, hut, hown] at hid
    exact heq (Option.some.inj (Option.some.inj hid)).symm

theorem received (ht : t ∈ s.tasks.rows) (hph : t.phase ≠ .recorded) (result : Except Failure Receipt)
    (fault : Option Failure) : Inv (s.receive t result fault) := by
  have hr : ∀ error, Inv (s.move t (.refused error)) := fun _ => h.moved ht hph (by simp)
  unfold State.receive
  cases result with
  | error error => exact hr error
  | ok receipt =>
    dsimp only
    split
    · exact hr _
    · cases fault with
      | some error => exact hr error
      | none => exact h.recorded ht hph fun _ => rfl

theorem advanced (ht : t ∈ s.tasks.rows) (result : Except Failure Receipt) (fault : Option Failure) :
    Inv (s.advance t result fault) := by
  unfold State.advance
  cases hph : t.phase with
  | stored =>
    have hne : t.phase ≠ .recorded := by rw [hph]; simp
    dsimp only
    split
    · exact h.left ht hne
    · refine Inv.moved (h.updated (fun _ => rfl) fun _ hx => hx) ht hne ?_
      simp
  | addressed =>
    have hne : t.phase ≠ .recorded := by rw [hph]; simp
    exact (h.marked ht hne).moved ht hne (by simp)
  | routing => exact h.received ht (by rw [hph]; simp) result fault
  | recorded => exact h.readied ht hph
  | refused error =>
    have hne : t.phase ≠ .recorded := by rw [hph]; simp
    exact (h.removed ht hne).moved ht hne (by simp)
  | failing error =>
    have hne : t.phase ≠ .recorded := by rw [hph]; simp
    dsimp only
    split
    · exact h.left ht hne
    · refine Inv.left (h.updated ?_ ?_) ht hne
      · exact fun _ => rfl
      · exact fun _ _ => rfl

theorem abandoned (ht : t ∈ s.tasks.rows) : Inv (s.abandon t) := by
  unfold State.abandon
  split
  · rename_i hph
    exact h.left ht (by rw [hph]; simp)
  · exact h

theorem submitted (r : Request) (messageId createdAt run : String) (session : Session) :
    Inv (s.submit r messageId createdAt run session) := by
  unfold State.submit
  split
  · rename_i hfr
    split
    · exact h
    · rename_i db hins
      simp only [State.fresh, Bool.and_eq_true, List.all_eq_true, decide_eq_true_eq, Bool.or_eq_true] at hfr
      obtain ⟨ht, hrw⟩ := hfr
      have hrn : db.runOf = Function.update s.db.runOf messageId (some none) := Database.runOf_insert_marked hins rfl
      have habs : s.db.messages.find messageId = none := Database.insert_absent hins
      have hold : s.db.runOf messageId = none := by
        unfold Database.runOf
        rw [habs]
        rfl
      have hs : ∀ id run, db.runOf id = some (some run) ↔ s.db.runOf id = some (some run) := by
        intro id run
        rw [hrn]
        by_cases heq : id = messageId
        · subst heq
          rw [Function.update_self, hold]
          simp
        · rw [Function.update_of_ne heq]
      have hfree : ∀ id, s.db.runOf id ≠ some (some run) := by
        intro id hid
        obtain ⟨m, hf, hmr, hm⟩ := Database.runOf_eq_some.mp hid
        rcases hrw m (Keyed.find_mem hf).1 with hne | hunm
        · exact hne hm
        · unfold Message.marked at hmr
          cases hmt : m.metadata.semanticTurnHandoff with
          | none => rw [hmt] at hmr; cases hmr
          | some marker => rw [hmt] at hunm; cases hunm
      have hmem : ∀ u ∈ (s.tasks.add ⟨messageId, run, session, .stored⟩).rows,
          u ∈ s.tasks.rows ∨ u = ⟨messageId, run, session, .stored⟩ :=
        fun u hu => (Keyed.mem_add.mp hu).imp_right And.left
      have hn : ∀ u ∈ s.tasks.rows, u.request ≠ messageId := by
        rintro u hu rfl
        have hown := h.owned u hu
        rw [hold] at hown
        cases hown
      refine h.of_open ⟨?_, ?_, ?_, ?_, ?_, ?_⟩ (Database.numbered_insert hins h.numbered) rfl ?_ ?_ ?_
      · exact fun i j run hi hj => h.unique i j run ((hs i run).mp hi) ((hs j run).mp hj)
      · intro u hu hne i hi
        have hi := (hs i _).mp hi
        rcases hmem u hu with hu | rfl
        · exact h.claimed u hu hne i hi
        · exact hfree i hi
      · intro u hu v hv heq
        rcases hmem u hu with hu | rfl <;> rcases hmem v hv with hv | rfl
        · exact h.distinct u hu v hv heq
        · exact absurd heq (ht u hu)
        · exact absurd heq.symm (ht v hv)
        · rfl
      · intro u hu
        change db.runOf u.request = _
        rw [hrn]
        rcases hmem u hu with hu | rfl
        · rw [Function.update_of_ne (hn u hu)]
          exact h.owned u hu
        · rw [Function.update_self]
          rfl
      · exact fun run id ha => (hs id run).mpr (h.ready run id ha)
      · exact fun active hc run id ha => (hs id run).mpr (h.copied active hc run id ha)
      · exact Nat.le_of_eq (Database.head_insert hins).symm
      · intro e he
        left
        rw [← (Database.insert_eq hins).2.1]
        exact he
      · intro id run hid hp
        refine .inr ⟨(hs id run).mp hid, Database.pending_of_insert hins (.inr rfl) hp, fun hcov => ?_⟩
        exact hcov.imp_right fun ⟨u, hu, hr⟩ => ⟨u, Keyed.mem_add.mpr (.inl hu), hr⟩
  · exact h

end Inv

end HrcRuntime.HandoffFinalizer
