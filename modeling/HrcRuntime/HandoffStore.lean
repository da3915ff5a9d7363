import HrcRuntime.HandoffRecords
import Mathlib.Logic.Function.Basic

namespace HrcRuntime.HandoffRecords

open Function (update_self update_of_ne)

def Message.marked (m : Message) : Bool := m.metadata.semanticTurnHandoff.isSome

namespace Database

def runOf (db : Database) (id : String) : Option (Option String) :=
  ((db.messages.find id).filter (·.marked)).map (·.execution.runId)

def Pending (db : Database) (id : String) : Prop := ∃ m, db.messages.find id = some m ∧ db.pendingHandoff m = true

/-- `message_seq` counts from one. -/
def Numbered (db : Database) : Prop := ∀ m ∈ db.messages.rows, 0 < m.messageSeq

variable {db db' : Database} {m : Message} {id i : String} {patch : Execution → Execution}

theorem pendingHandoff_iff : db.pendingHandoff m = true ↔ m.phase = .request ∧ m.execution.state.terminal = false ∧
    m.execution.runId.isSome = true ∧ m.marked = true ∧ m.metadata.federationSemanticTurnOrigin = false ∧
      db.answered m.messageId = false := by
  simp [pendingHandoff, Message.marked, and_assoc]

theorem find_id (h : db.messages.find id = some m) : m.messageId = id := (Keyed.find_mem h).2

theorem runOf_eq_some {run : Option String} : db.runOf id = some run ↔
    ∃ m, db.messages.find id = some m ∧ m.marked = true ∧ m.execution.runId = run := by
  simp [runOf, Option.filter_eq_some_iff, and_assoc]

theorem answered_iff : db.answered id = true ↔
    ∃ r ∈ db.messages.rows, r.phase = .response ∧ r.replyToMessageId = some id := by
  simp [answered]

section Insert

variable (h : db.insert m = some db')

include h

theorem insert_absent : db.messages.find m.messageId = none := by
  by_contra hne
  unfold insert at h
  rw [dif_neg hne] at h
  cases h

theorem insert_eq : db'.messages = db.messages.add (db.numbered m) ∧ db'.events = db.events ∧ db'.runs = db.runs := by
  unfold insert at h
  rw [dif_pos (insert_absent h)] at h
  rw [← Option.some.inj h]
  exact ⟨rfl, rfl, rfl⟩

theorem rows_insert : db'.messages.rows = db.messages.rows ++ [db.numbered m] := by
  rw [(insert_eq h).1]
  exact Keyed.rows_add (r := db.numbered m) (insert_absent h)

theorem head_insert : db'.head = db.head := by
  unfold head
  rw [(insert_eq h).2.1]

theorem numbered_insert (hdb : db.Numbered) : db'.Numbered := by
  intro r hr
  rw [rows_insert h] at hr
  rcases List.mem_append.mp hr with hr | hr
  · exact hdb r hr
  · rw [List.mem_singleton.mp hr]
    exact Nat.succ_pos _

theorem find_insert : db'.messages.find = Function.update db.messages.find m.messageId (some (db.numbered m)) := by
  funext k
  rw [(insert_eq h).1]
  by_cases hk : k = m.messageId
  · subst hk
    rw [update_self]
    exact Keyed.find_add_self (r := db.numbered m) (insert_absent h)
  · rw [update_of_ne hk]
    exact Keyed.find_add_of_ne (r := db.numbered m) hk

theorem answered_insert : db'.answered i = (db.answered i || (m.phase = .response && m.replyToMessageId = some i)) := by
  unfold answered
  rw [rows_insert h, List.any_append]
  simp [numbered]

theorem runOf_insert (hm : m.marked = false) : db'.runOf = db.runOf := by
  funext k
  unfold runOf
  rw [find_insert h]
  by_cases hk : k = m.messageId
  · subst hk
    have hn : (db.numbered m).marked = false := hm
    rw [update_self, insert_absent h, Option.filter_some, hn]
    rfl
  · rw [update_of_ne hk]

theorem runOf_insert_marked (hm : m.marked = true) :
    db'.runOf = Function.update db.runOf m.messageId (some m.execution.runId) := by
  funext k
  unfold runOf
  rw [find_insert h]
  by_cases hk : k = m.messageId
  · subst hk
    have hn : (db.numbered m).marked = true := hm
    rw [update_self, update_self, Option.filter_some, hn]
    rfl
  · rw [update_of_ne hk, update_of_ne hk]

theorem pending_of_insert (hm : m.marked = false ∨ m.execution.runId = none) (hp : db'.Pending i) : db.Pending i := by
  obtain ⟨r, hf, hr⟩ := hp
  rw [find_insert h] at hf
  by_cases hi : i = m.messageId
  · subst hi
    rw [update_self] at hf
    cases hf
    obtain ⟨-, -, hrun, hmr, -⟩ := pendingHandoff_iff.mp hr
    rcases hm with hm | hm
    · have hn : (db.numbered m).marked = m.marked := rfl
      rw [hn, hm] at hmr
      cases hmr
    · have hn : (db.numbered m).execution.runId = m.execution.runId := rfl
      rw [hn, hm] at hrun
      cases hrun
  · rw [update_of_ne hi] at hf
    refine ⟨r, hf, pendingHandoff_iff.mpr ?_⟩
    obtain ⟨h1, h2, h3, h4, h5, h6⟩ := pendingHandoff_iff.mp hr
    rw [answered_insert h, Bool.or_eq_false_iff] at h6
    exact ⟨h1, h2, h3, h4, h5, h6.1⟩

end Insert

section Update

theorem find_update : (db.updateExecution id patch).messages.find =
    Function.update db.messages.find id ((db.messages.find id).map (patched patch)) := by
  funext k
  by_cases hk : k = id
  · subst hk
    rw [update_self]
    have ham := Keyed.find_amend_self (t := db.messages) (k := k) (p := fun _ => true) (f := patched patch) fun _ => rfl
    simp only [ite_true] at ham
    exact ham
  · rw [update_of_ne hk]
    exact Keyed.find_amend_of_ne (t := db.messages) (p := fun _ => true) (f := patched patch) (fun _ => rfl) hk

theorem numbered_update (hdb : db.Numbered) : (db.updateExecution id patch).Numbered := by
  intro r hr
  obtain ⟨m, hm, rfl⟩ := (Keyed.mem_amend (p := fun _ => true) (f := patched patch) fun _ => rfl).mp hr
  split
  · exact hdb m hm
  · exact hdb m hm

theorem find_update_self : (db.updateExecution id patch).messages.find id = (db.messages.find id).map (patched patch) := by
  rw [find_update, update_self]

theorem find_update_of_ne (h : i ≠ id) : (db.updateExecution id patch).messages.find i = db.messages.find i := by
  rw [find_update, update_of_ne h]

theorem answered_update : (db.updateExecution id patch).answered i = db.answered i := by
  unfold answered updateExecution Keyed.Store.amend
  rw [List.any_map]
  congr 1
  funext r
  simp only [Function.comp_apply]
  split <;> rfl

theorem runOf_update (h : ∀ x, (patch x).runId = x.runId) : (db.updateExecution id patch).runOf = db.runOf := by
  funext k
  unfold runOf
  by_cases hk : k = id
  · subst hk
    rw [find_update_self]
    cases db.messages.find k with
    | none => rfl
    | some m =>
      have hm : (patched patch m).marked = m.marked := rfl
      have hr : (patched patch m).execution.runId = m.execution.runId := h _
      rw [Option.map_some, Option.filter_some, Option.filter_some, hm]
      split
      · exact congrArg some hr
      · rfl
  · rw [find_update_of_ne hk]

theorem runOf_update_set {run : String} (h : ∀ x, (patch x).runId = some run) {old : Option String}
    (hold : db.runOf id = some old) :
    (db.updateExecution id patch).runOf = Function.update db.runOf id (some (some run)) := by
  funext k
  by_cases hk : k = id
  · subst hk
    obtain ⟨m, hf, hm, -⟩ := runOf_eq_some.mp hold
    rw [update_self]
    refine runOf_eq_some.mpr ⟨patched patch m, ?_, hm, h _⟩
    rw [find_update_self, hf]
    rfl
  · rw [update_of_ne hk]
    unfold runOf
    rw [find_update_of_ne hk]

theorem pending_of_update (hrun : ∀ x, (patch x).runId = x.runId)
    (hst : ∀ x, x.state.terminal = true → (patch x).state.terminal = true)
    (hp : (db.updateExecution id patch).Pending i) : db.Pending i := by
  obtain ⟨r, hf, hr⟩ := hp
  obtain ⟨h1, h2, h3, h4, h5, h6⟩ := pendingHandoff_iff.mp hr
  rw [answered_update] at h6
  by_cases hi : i = id
  · subst hi
    rw [find_update_self] at hf
    obtain ⟨m, hm, rfl⟩ := Option.map_eq_some_iff.mp hf
    refine ⟨m, hm, pendingHandoff_iff.mpr ⟨h1, ?_, ?_, h4, h5, h6⟩⟩
    · rw [Bool.eq_false_iff]
      intro ht
      rw [show (patched patch m).execution.state.terminal = true from hst _ ht] at h2
      cases h2
    · rw [← hrun m.execution]
      exact h3
  · rw [find_update_of_ne hi] at hf
    exact ⟨r, hf, pendingHandoff_iff.mpr ⟨h1, h2, h3, h4, h5, h6⟩⟩

theorem pending_update_of_ne (h : i ≠ id) : (db.updateExecution id patch).Pending i ↔ db.Pending i := by
  unfold Pending
  rw [find_update_of_ne h]
  refine exists_congr fun m => and_congr_right fun _ => ?_
  rw [pendingHandoff_iff, pendingHandoff_iff, answered_update]

end Update

section Append

variable {e : Event}

theorem head_append : (db.append e).head = db.head + 1 := by
  unfold head append
  rw [List.foldr_append]
  have hf : ∀ (l : List Event) (a b : Nat), l.foldr (fun e n => max e.hrcSeq n) (max a b) =
      max a (l.foldr (fun e n => max e.hrcSeq n) b) := by
    intro l a b
    induction l with
    | nil => rfl
    | cons x l ih => rw [List.foldr_cons, List.foldr_cons, ih]; omega
  have hl := hf db.events (db.head + 1) 0
  change db.events.foldr _ (max (db.head + 1) 0) = db.head + 1
  rw [hl]
  exact Nat.max_eq_left (Nat.le_succ _)

theorem mem_append {x : Event} (h : x ∈ (db.append e).events) : x ∈ db.events ∨ db.head < x.hrcSeq := by
  rcases List.mem_append.mp h with h | h
  · exact .inl h
  · rw [List.mem_singleton.mp h]
    exact .inr (Nat.lt_succ_self _)

theorem head_le_append : db.head ≤ (db.append e).head := by
  rw [head_append]
  exact Nat.le_succ _

end Append

theorem finalizeHandoff_eq {request : String} {response : Message} {r : Database × Bool}
    (h : finalizeHandoff db request response patch = some r) :
    (r = (db, false) ∧ db.answered request = true) ∨
      (db.answered request = false ∧ ∃ inserted, db.insert response = some inserted ∧
        r = ((inserted.updateExecution request patch).append (responseEvent (db.numbered response)), true)) := by
  unfold finalizeHandoff at h
  split at h
  · rename_i hans
    exact .inl ⟨(Option.some.inj h).symm, hans⟩
  · rename_i hans
    obtain ⟨inserted, hi, rfl⟩ := Option.map_eq_some_iff.mp h
    exact .inr ⟨Bool.eq_false_iff.mpr hans, inserted, hi, rfl⟩

end Database

end HrcRuntime.HandoffRecords
