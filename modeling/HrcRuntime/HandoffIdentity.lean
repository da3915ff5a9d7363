import HrcRuntime.HandoffFinalizer
import HrcRuntime.HandoffStore

namespace HrcRuntime.HandoffFinalizer

open HandoffRecords

def Ready (db : Database) (active : Active) : Prop :=
  ∀ run id, (run, (id, true)) ∈ active → db.runOf id = some (some run)

structure Identified (s : State) : Prop where
  unique : ∀ i j run, s.db.runOf i = some (some run) → s.db.runOf j = some (some run) → i = j
  claimed : ∀ t ∈ s.tasks.rows, t.phase ≠ .recorded → ∀ i, s.db.runOf i ≠ some (some t.runId)
  distinct : ∀ t ∈ s.tasks.rows, ∀ u ∈ s.tasks.rows, t.runId = u.runId → t.request = u.request
  owned : ∀ t ∈ s.tasks.rows, s.db.runOf t.request = some (if t.phase = .recorded then some t.runId else none)
  ready : Ready s.db s.active
  copied : ∀ active, s.pass = some active → Ready s.db active

variable {s s' : State} {t u : Task} {phase : Phase} {patch : Execution → Execution} {db : Database} {run : String}

theorem mem_move : u ∈ (s.move t phase).tasks.rows ↔
    ∃ v ∈ s.tasks.rows, (if v.request = t.request then { v with phase } else v) = u := by
  unfold State.move
  rw [Keyed.mem_amend]
  simp

theorem mem_leave : u ∈ (s.leave t).tasks.rows ↔ u ∈ s.tasks.rows ∧ u.request ≠ t.request := by
  unfold State.leave
  rw [Keyed.mem_erase]
  simp

theorem eq_of_request (ht : t ∈ s.tasks.rows) (hu : u ∈ s.tasks.rows) (h : u.request = t.request) : u = t :=
  List.inj_on_of_nodup_map s.tasks.nodup hu ht h

namespace Identified

variable (h : Identified s)

include h

theorem of_runOf (hr : s'.db.runOf = s.db.runOf) (ht : s'.tasks = s.tasks)
    (hact : ∀ a ∈ s'.active, a ∈ s.active) (hp : s'.pass = s.pass ∨ s'.pass = none) : Identified s' where
  unique := by rw [hr]; exact h.unique
  claimed := by rw [hr, ht]; exact h.claimed
  distinct := by rw [ht]; exact h.distinct
  owned := by rw [hr, ht]; exact h.owned
  ready run id hm := by rw [hr]; exact h.ready run id (hact _ hm)
  copied active hc run id hm := by
    rw [hr]
    rcases hp with hp | hp
    · exact h.copied active (hp ▸ hc) run id hm
    · rw [hp] at hc
      cases hc

theorem distinct_move : ∀ u ∈ (s.move t phase).tasks.rows, ∀ w ∈ (s.move t phase).tasks.rows,
    u.runId = w.runId → u.request = w.request := by
  intro u hu w hw heq
  obtain ⟨v, hv, rfl⟩ := mem_move.mp hu
  obtain ⟨x, hx, rfl⟩ := mem_move.mp hw
  have hrun : v.runId = x.runId := by
    split at heq <;> split at heq <;> exact heq
  have hr := h.distinct v hv x hx hrun
  split <;> split <;> exact hr

theorem moved (ht : t ∈ s.tasks.rows) (hph : phase = .recorded ↔ t.phase = .recorded) : Identified (s.move t phase) where
  unique := h.unique
  claimed u hu hne i := by
    obtain ⟨v, hv, rfl⟩ := mem_move.mp hu
    by_cases hvt : v.request = t.request
    · obtain rfl := eq_of_request ht hv hvt
      rw [if_pos rfl] at hne ⊢
      exact h.claimed v hv (mt hph.mpr hne) i
    · rw [if_neg hvt] at hne ⊢
      exact h.claimed v hv hne i
  distinct := h.distinct_move
  owned u hu := by
    obtain ⟨v, hv, rfl⟩ := mem_move.mp hu
    by_cases hvt : v.request = t.request
    · obtain rfl := eq_of_request ht hv hvt
      have hold := h.owned v hv
      rw [if_pos rfl]
      change s.db.runOf v.request = some (if phase = .recorded then some v.runId else none)
      rw [hold]
      simp only [hph]
    · rw [if_neg hvt]
      exact h.owned v hv
  ready := h.ready
  copied := h.copied

theorem left : Identified (s.leave t) where
  unique := h.unique
  claimed u hu := h.claimed u (mem_leave.mp hu).1
  distinct u hu w hw := h.distinct u (mem_leave.mp hu).1 w (mem_leave.mp hw).1
  owned u hu := h.owned u (mem_leave.mp hu).1
  ready := h.ready
  copied := h.copied

theorem updated (hp : ∀ x, (patch x).runId = x.runId) : Identified (s.update t patch) :=
  h.of_runOf (Database.runOf_update hp) rfl (fun _ ha => ha) (.inl rfl)

theorem removed : Identified (s.remove run) :=
  h.of_runOf rfl rfl (fun _ ha => List.mem_of_mem_filter ha) (.inl rfl)

theorem marked {ready : Bool} (hr : ready = true → s.db.runOf t.request = some (some t.runId)) :
    Identified (s.mark t ready) where
  unique := h.unique
  claimed := h.claimed
  distinct := h.distinct
  owned := h.owned
  ready run id hm := by
    rcases OrderedMap.mem_set hm with heq | hm
    · cases heq
      exact hr rfl
    · exact h.ready run id hm
  copied := h.copied

/-- The record of a delivery names its run on a request that had none. -/
theorem recorded (ht : t ∈ s.tasks.rows) (hph : t.phase ≠ .recorded) (hp : ∀ x, (patch x).runId = some t.runId) :
    Identified ((s.update t patch).move t .recorded) := by
  have hn : s.db.runOf t.request = some none := by rw [h.owned t ht, if_neg hph]
  have hr : (s.db.updateExecution t.request patch).runOf = Function.update s.db.runOf t.request (some (some t.runId)) :=
    Database.runOf_update_set hp hn
  have hoth : ∀ i run, (s.db.updateExecution t.request patch).runOf i = some (some run) →
      i = t.request ∧ run = t.runId ∨ i ≠ t.request ∧ s.db.runOf i = some (some run) := by
    intro i run hi
    rw [hr] at hi
    by_cases heq : i = t.request
    · subst heq
      rw [Function.update_self] at hi
      exact .inl ⟨rfl, (Option.some.inj (Option.some.inj hi)).symm⟩
    · rw [Function.update_of_ne heq] at hi
      exact .inr ⟨heq, hi⟩
  have hk : ∀ i run, s.db.runOf i = some (some run) → (s.db.updateExecution t.request patch).runOf i = some (some run) := by
    intro i run hi
    have hne : i ≠ t.request := by
      rintro rfl
      rw [hn] at hi
      cases hi
    rw [hr, Function.update_of_ne hne]
    exact hi
  have hf := h.claimed t ht hph
  constructor
  · intro i j run hi hj
    rcases hoth i run hi with ⟨rfl, rfl⟩ | ⟨-, hi⟩ <;> rcases hoth j _ hj with ⟨rfl, heq⟩ | ⟨-, hj⟩
    · rfl
    · exact absurd hj (hf j)
    · subst heq
      exact absurd hi (hf i)
    · exact h.unique i j _ hi hj
  · intro u hu hne i hi
    obtain ⟨v, hv, rfl⟩ := mem_move.mp hu
    by_cases hvt : v.request = t.request
    · rw [if_pos hvt] at hne
      exact hne rfl
    · rw [if_neg hvt] at hne hi
      rcases hoth i _ hi with ⟨-, heq⟩ | ⟨-, hi⟩
      · exact hvt (h.distinct v hv t ht heq)
      · exact h.claimed v hv hne i hi
  · exact h.distinct_move
  · intro u hu
    obtain ⟨v, hv, rfl⟩ := mem_move.mp hu
    by_cases hvt : v.request = t.request
    · obtain rfl := eq_of_request ht hv hvt
      rw [if_pos rfl, if_pos rfl]
      change (s.db.updateExecution v.request patch).runOf v.request = _
      rw [hr, Function.update_self]
    · rw [if_neg hvt]
      change (s.db.updateExecution t.request patch).runOf v.request = _
      rw [hr, Function.update_of_ne hvt]
      exact h.owned v hv
  · exact fun run id hm => hk id run (h.ready run id hm)
  · exact fun active hc run id hm => hk id run (h.copied active hc run id hm)

end Identified

end HrcRuntime.HandoffFinalizer
