import HrcRuntime.TurnAdmissionGate
import Mathlib.Data.List.Basic

namespace HrcRuntime.TurnAdmissionGate

open Schedule

def Call.writing : Call → Option Fence
  | .persisting fence => some fence
  | .persisted fence false => some fence
  | _ => none

def Call.opening : Call → Option Fence
  | .unlinked fence _ true => some fence
  | _ => none

def Call.fence : Call → Option Fence
  | .persisting fence => some fence
  | .persisted fence _ => some fence
  | .unlinking fence _ => some fence
  | .unlinked fence _ _ => some fence
  | _ => none

def Call.Owns : Call → Prop
  | .unlinking fence (some operationId) => fence.record.operationId = operationId
  | .unlinked fence (some operationId) _ => fence.record.operationId = operationId
  | _ => True

namespace State

/-- What the gate owes in every state: no ordinary turn past a close that answered closed, no fence opened in
another operation's name, memory and marker in step between calls, an exact count and no lost wake-up. -/
structure Fenced (s : State) : Prop where
  closed : s.answeredClosed ≠ [] → ∃ e, s.gate.admitTurn false = .error e
  owned : ∀ named holder, (some named, holder) ∈ s.reopened → named = holder
  durable : (∀ call ∈ s.calls, call.inFlight = false) → (s.gate.closed.isSome ↔ s.marker.isSome)
  counted : s.gate.activeAdmissions = s.released.countP (!·)
  awake : (∀ released ∈ s.released, released = true) → s.gate.idleWaiters = []

def WritesCurrent (s : State) : Call → Prop
  | .persisting fence => s.gate.closed = some fence ∧ ∀ call ∈ s.calls, call.opening ≠ some fence
  | _ => True

/-- A failed write or an unlink clears memory only if memory is open, or holds the fence the call acted for with
no close that answered closed since; a close answers for a fence of its own operation. -/
def ResumesCurrent (s : State) (i : Nat) : Call → Prop
  | .persisted fence false => s.gate.closed = none ∨ s.gate.closed = some fence ∧ s.answeredClosed = []
  | .unlinked fence _ true => s.gate.closed = none ∨ s.gate.closed = some fence ∧ s.answeredClosed = []
  | .waiting operationId => i ∈ s.gate.idleWaiters ∨ ∀ fence ∈ s.gate.closed, fence.record.operationId = operationId
  | _ => True

def Current (s : State) : Action → Prop
  | .write i true => ∀ call ∈ s.calls[i]?, s.WritesCurrent call
  | .resume i => ∀ call ∈ s.calls[i]?, s.ResumesCurrent i call
  | _ => True

instance decidableWritesCurrent (s : State) : (call : Call) → Decidable (s.WritesCurrent call)
  | .persisting _ => inferInstanceAs (Decidable (_ ∧ _))
  | .persisted _ _ | .waiting _ | .unlinking _ _ | .unlinked _ _ _ | .ended _ => isTrue trivial

instance decidableResumesCurrent (s : State) (i : Nat) : (call : Call) → Decidable (s.ResumesCurrent i call)
  | .persisted _ false | .unlinked _ _ true => inferInstanceAs (Decidable (_ ∨ _ ∧ _))
  | .waiting _ => inferInstanceAs (Decidable (_ ∨ _))
  | .persisted _ true | .unlinked _ _ false | .persisting _ | .unlinking _ _ | .ended _ => isTrue trivial

instance decidableCurrent (s : State) : (action : Action) → Decidable (s.Current action)
  | .write i true => inferInstanceAs (Decidable (∀ call ∈ s.calls[i]?, s.WritesCurrent call))
  | .resume i => inferInstanceAs (Decidable (∀ call ∈ s.calls[i]?, s.ResumesCurrent i call))
  | .write _ false | .admitTurn _ | .release _ | .close _ _ | .reopen _ | .unlink _ _ => isTrue trivial

structure Core (s : State) : Prop where
  fresh : ∀ fence, s.gate.closed = some fence → fence.ref < s.nextRef
  callsFresh : ∀ (i : Nat) (call : Call) (fence : Fence), s.calls[i]? = some call → call.fence = some fence → fence.ref < s.nextRef
  owns : ∀ (i : Nat) (call : Call), s.calls[i]? = some call → call.Owns
  apart : ∀ (i j : Nat) (call call' : Call) (fence : Fence), s.calls[i]? = some call → s.calls[j]? = some call' →
    call.writing = some fence → call'.writing = some fence → i = j
  answered : ∀ operationId ∈ s.answeredClosed, ∃ fence, s.gate.closed = some fence ∧
    fence.record.operationId = operationId
  opened : s.gate.closed = none → s.marker = none
  unwritten : ∀ (i : Nat) (call : Call) (fence : Fence), s.calls[i]? = some call → call.writing = some fence → s.gate.closed = some fence →
    s.marker = none
  unlinked : ∀ (i : Nat) (call : Call) (fence : Fence), s.calls[i]? = some call → call.opening = some fence → s.gate.closed = some fence →
    s.marker = none
  durable : ∀ fence, s.gate.closed = some fence → s.marker.isSome ∨ ∃ (i : Nat) (call : Call), s.calls[i]? = some call ∧
    (call.writing = some fence ∨ call.opening.isSome)
  owned : ∀ named holder, (some named, holder) ∈ s.reopened → named = holder

structure Counted (s : State) : Prop where
  count : s.gate.activeAdmissions = s.released.countP (!·)
  awake : s.gate.activeAdmissions = 0 → s.gate.idleWaiters = []

theorem fenced_of (hcr : Core s) (hcnt : Counted s) : Fenced s where
  closed := by
    intro hne
    obtain ⟨operationId, hm⟩ := List.exists_mem_of_ne_nil _ hne
    obtain ⟨fence, hf, -⟩ := hcr.answered operationId hm
    exact ⟨.serverDraining fence.record.operationId fence.record.requestedBy fence.record.closedAt,
      by simp only [Gate.admitTurn, hf]⟩
  owned := hcr.owned
  durable := by
    intro hqt
    constructor
    · intro h
      obtain ⟨fence, hf⟩ := Option.isSome_iff_exists.mp h
      refine (hcr.durable fence hf).resolve_right fun ⟨i, call, hc, hp⟩ => ?_
      have he := hqt call (List.mem_of_getElem? hc)
      cases call with
      | ended result => rcases hp with h | h <;> cases h
      | _ => cases he
    · intro h
      cases hcl : s.gate.closed with
      | some fence => rfl
      | none =>
        rw [hcr.opened hcl] at h
        cases h
  counted := hcnt.count
  awake := by
    intro h
    refine hcnt.awake (hcnt.count.trans (List.countP_eq_zero.mpr fun released hr => ?_))
    rw [h released hr]
    decide

section Calls

variable {s : State} {i j : Nat} {call call' : Call}

theorem getElem?_begin (h : (s.begin call).calls[j]? = some call') :
    s.calls[j]? = some call' ∨ j = s.calls.length ∧ call' = call := by
  simp only [begin, List.getElem?_append] at h
  split at h
  · exact Or.inl h
  · rename_i hlt
    have hj : j - s.calls.length = 0 := by
      by_contra hne
      rw [List.getElem?_eq_none (by simp only [List.length_singleton]; omega)] at h
      cases h
    rw [hj] at h
    exact Or.inr ⟨by omega, (Option.some.inj h).symm⟩

theorem getElem?_setCall (h : (s.setCall i call).calls[j]? = some call') :
    j ≠ i ∧ s.calls[j]? = some call' ∨ j = i ∧ call' = call := by
  by_cases hji : i = j
  · subst hji
    have hlt : i < s.calls.length := by
      have := (List.getElem?_eq_some_iff.mp h).1
      simpa only [setCall, List.length_set] using this
    simp only [setCall, List.getElem?_set_self hlt, Option.some.injEq] at h
    exact Or.inr ⟨rfl, h.symm⟩
  · simp only [setCall, List.getElem?_set_ne hji] at h
    exact Or.inl ⟨fun h => hji h.symm, h⟩

end Calls

variable {s : State} {i : Nat} {fence : Fence}

variable {operationId : Option String} {t : State} {call : Call}

theorem fence_of_writing (h : call.writing = some fence) : call.fence = some fence := by
  cases call with
  | persisting f => exact h
  | persisted f ok =>
    cases ok
    · exact h
    · cases h
  | waiting op => cases h
  | unlinking f op => cases h
  | unlinked f op ok => cases h
  | ended r => cases h

structure Plain (s : State) (call : Call) : Prop where
  writing : call.writing = none
  opening : call.opening = none
  owns : call.Owns
  fresh : ∀ fence, call.fence = some fence → fence.ref < s.nextRef

structure SamePending (call call' : Call) : Prop where
  writing : call.writing = call'.writing
  opening : call.opening = call'.opening
  owns : call'.Owns → call.Owns
  fence : call.fence = call'.fence

/-- A step that moves calls on without changing memory or the marker. -/
theorem Core.move (hcr : Core s) (hcl : t.gate.closed = s.gate.closed) (hm : t.marker = s.marker)
    (hr : t.nextRef = s.nextRef) (hrp : t.reopened = s.reopened)
    (hans : ∀ operationId ∈ t.answeredClosed, operationId ∈ s.answeredClosed ∨
      ∃ fence, s.gate.closed = some fence ∧ fence.record.operationId = operationId)
    (hcal : ∀ (j : Nat) (call : Call), t.calls[j]? = some call → Plain s call ∨
      ∃ call', s.calls[j]? = some call' ∧ SamePending call call')
    (hk : ∀ (j : Nat) (call : Call), s.calls[j]? = some call → call.writing.isSome ∨ call.opening.isSome →
      ∃ call', t.calls[j]? = some call' ∧ SamePending call' call) : Core t := by
  have hp : ∀ (j : Nat) (call : Call) (fence : Fence), t.calls[j]? = some call →
      call.writing = some fence ∨ call.opening = some fence →
        ∃ call', s.calls[j]? = some call' ∧ SamePending call call' := by
    intro j call fence hca h
    refine (hcal j call hca).resolve_left fun hpl => ?_
    rcases h with h | h
    · rw [hpl.writing] at h
      cases h
    · rw [hpl.opening] at h
      cases h
  refine ⟨?_, ?_, ?_, ?_, ?_, ?_, ?_, ?_, ?_, ?_⟩
  · rw [hcl, hr]
    exact hcr.fresh
  · intro j call fence hca hf
    rw [hr]
    rcases hcal j call hca with hpl | ⟨call', hcl', hs⟩
    · exact hpl.fresh fence hf
    · exact hcr.callsFresh j call' fence hcl' (hs.fence ▸ hf)
  · intro j call hca
    rcases hcal j call hca with hpl | ⟨call', hcl', hs⟩
    · exact hpl.owns
    · exact hs.owns (hcr.owns j call' hcl')
  · intro i j call call' fence hi hj hwr hw'
    obtain ⟨c, hc, hs⟩ := hp i call fence hi (Or.inl hwr)
    obtain ⟨c', hc', hs'⟩ := hp j call' fence hj (Or.inl hw')
    exact hcr.apart i j c c' fence hc hc' (hs.writing ▸ hwr) (hs'.writing ▸ hw')
  · intro operationId hmem
    rw [hcl]
    exact (hans operationId hmem).elim (hcr.answered operationId) id
  · rw [hcl, hm]
    exact hcr.opened
  · intro i call fence hi hwr
    rw [hcl, hm]
    obtain ⟨c, hc, hs⟩ := hp i call fence hi (Or.inl hwr)
    exact hcr.unwritten i c fence hc (hs.writing ▸ hwr)
  · intro i call fence hi hop
    rw [hcl, hm]
    obtain ⟨c, hc, hs⟩ := hp i call fence hi (Or.inr hop)
    exact hcr.unlinked i c fence hc (hs.opening ▸ hop)
  · intro fence hf
    rw [hm]
    refine (hcr.durable fence (hcl ▸ hf)).imp_right fun ⟨i, call, hca, hpn⟩ => ?_
    obtain ⟨call', hcl', hs⟩ := hk i call hca (hpn.imp_left Option.isSome_of_eq_some)
    exact ⟨i, call', hcl', hs.writing ▸ hs.opening ▸ hpn⟩
  · rw [hrp]
    exact hcr.owned

theorem Core.begin (hcr : Core s) (call : Call) (hp : Plain s call) : Core (s.begin call) := by
  refine hcr.move rfl rfl rfl rfl (fun _ => Or.inl) ?_ ?_
  · intro j c hc
    rcases getElem?_begin hc with hc | ⟨-, rfl⟩
    · exact Or.inr ⟨c, hc, rfl, rfl, id, rfl⟩
    · exact Or.inl hp
  · intro j c hc _
    refine ⟨c, ?_, rfl, rfl, id, rfl⟩
    exact (List.getElem?_append_left (List.getElem?_eq_some_iff.mp hc).1).trans hc

theorem Core.setCall (hcr : Core s) (call' : Call) (hi : s.calls[i]? = some call)
    (h : call.writing = none ∧ call.opening = none ∧ Plain s call' ∨ SamePending call' call) :
    Core (s.setCall i call') := by
  have hlt := (List.getElem?_eq_some_iff.mp hi).1
  refine hcr.move rfl rfl rfl rfl (fun _ => Or.inl) ?_ ?_
  · intro j c hc
    rcases getElem?_setCall hc with ⟨-, hc⟩ | ⟨rfl, rfl⟩
    · exact Or.inr ⟨c, hc, rfl, rfl, id, rfl⟩
    · exact h.imp (·.2.2) fun hs => ⟨call, hi, hs⟩
  · intro j c hc hp
    by_cases hji : i = j
    · subst hji
      rw [hi] at hc
      cases hc
      refine ⟨call', List.getElem?_set_self hlt, h.resolve_left fun hn => ?_⟩
      rw [hn.1, hn.2.1] at hp
      rcases hp with h | h <;> cases h
    · exact ⟨c, (List.getElem?_set_ne hji).trans hc, rfl, rfl, id, rfl⟩

theorem Core.answered_nil (hc : Core s) (h : s.gate.closed = none) : s.answeredClosed = [] := by
  refine List.eq_nil_iff_forall_not_mem.mpr fun operationId hm => ?_
  obtain ⟨fence, hf, -⟩ := hc.answered operationId hm
  rw [h] at hf
  cases hf

theorem Core.congr (hcr : Core s) (hcl : t.gate.closed = s.gate.closed)
    (hm : t.marker = s.marker) (hca : t.calls = s.calls) (hr : t.nextRef = s.nextRef)
    (hans : t.answeredClosed = s.answeredClosed) (hrp : t.reopened = s.reopened) : Core t := by
  refine hcr.move hcl hm hr hrp ?_ ?_ ?_
  · intro operationId hmem
    exact Or.inl (hans ▸ hmem)
  · intro j c hc
    exact Or.inr ⟨c, hca ▸ hc, rfl, rfl, id, rfl⟩
  · intro j c hc _
    exact ⟨c, hca ▸ hc, rfl, rfl, id, rfl⟩

theorem closed_waitUntilIdle (g : Gate) (call : Nat) : (g.waitUntilIdle call).closed = g.closed := by
  simp only [Gate.waitUntilIdle]
  split <;> rfl

theorem Core.raise (hcr : Core s) (hop : s.gate.closed = none) (record : DurableRecord) :
    Core { s.begin (.persisting ⟨s.nextRef, record⟩) with
      gate := { s.gate with closed := some ⟨s.nextRef, record⟩ }
      nextRef := s.nextRef + 1 } := by
  have hm := hcr.opened hop
  refine ⟨?_, ?_, ?_, ?_, ?_, ?_, ?_, ?_, ?_, hcr.owned⟩
  · intro fence hf
    cases hf
    exact Nat.lt_succ_self _
  · intro i call fence hc hf
    rcases getElem?_begin hc with hc | ⟨-, rfl⟩
    · exact Nat.lt_succ_of_lt (hcr.callsFresh i call fence hc hf)
    · cases hf
      exact Nat.lt_succ_self _
  · intro i call hc
    rcases getElem?_begin hc with hc | ⟨-, rfl⟩
    · exact hcr.owns i call hc
    · trivial
  · intro i j call call' fence hi hj hwr hw'
    rcases getElem?_begin hi with hi | ⟨hl, rfl⟩ <;> rcases getElem?_begin hj with hj | ⟨hl', rfl⟩
    · exact hcr.apart i j call call' fence hi hj hwr hw'
    · cases hw'
      exact absurd (hcr.callsFresh i call _ hi (fence_of_writing hwr)) (Nat.lt_irrefl _)
    · cases hwr
      exact absurd (hcr.callsFresh j call' _ hj (fence_of_writing hw')) (Nat.lt_irrefl _)
    · exact hl.trans hl'.symm
  · intro operationId hmem
    have hn : s.answeredClosed = [] := hcr.answered_nil hop
    exact absurd (hn ▸ hmem : operationId ∈ []) List.not_mem_nil
  · intro h
    cases h
  · exact fun _ _ _ _ _ _ => hm
  · exact fun _ _ _ _ _ _ => hm
  · intro fence hf
    cases hf
    refine Or.inr ⟨s.calls.length, _, List.getElem?_concat_length, Or.inl rfl⟩

theorem Core.write (hcr : Core s) (marker : MarkerFile)
    (hi : s.calls[i]? = some (.persisting fence)) (hcl : s.gate.closed = some fence)
    (hn : ∀ call ∈ s.calls, call.opening ≠ some fence) :
    Core { s.setCall i (.persisted fence true) with marker := some marker } := by
  refine ⟨hcr.fresh, ?_, ?_, ?_, hcr.answered, ?_, ?_, ?_, fun _ _ => Or.inl rfl, hcr.owned⟩
  · intro j call fence' hc hf
    rcases getElem?_setCall hc with ⟨-, hc⟩ | ⟨rfl, rfl⟩
    · exact hcr.callsFresh j call fence' hc hf
    · exact hcr.callsFresh j _ fence' hi hf
  · intro j call hc
    rcases getElem?_setCall hc with ⟨-, hc⟩ | ⟨rfl, rfl⟩
    · exact hcr.owns j call hc
    · trivial
  · intro j k call call' fence' hj hk hwr hw'
    rcases getElem?_setCall hj with ⟨-, hj⟩ | ⟨-, rfl⟩
    · rcases getElem?_setCall hk with ⟨-, hk⟩ | ⟨-, rfl⟩
      · exact hcr.apart j k call call' fence' hj hk hwr hw'
      · cases hw'
    · cases hwr
  · intro h
    have hsm : some fence = none := hcl.symm.trans h
    cases hsm
  · intro j call fence' hc hwr hf
    rcases getElem?_setCall hc with ⟨hne, hc⟩ | ⟨-, rfl⟩
    · have hs : some fence = some fence' := hcl.symm.trans hf
      cases hs
      exact absurd (hcr.apart j i call _ fence hc hi hwr rfl) hne
    · cases hwr
  · intro j call fence' hc hop hf
    rcases getElem?_setCall hc with ⟨-, hc⟩ | ⟨-, rfl⟩
    · have hs : some fence = some fence' := hcl.symm.trans hf
      cases hs
      exact absurd hop (hn call (List.mem_of_getElem? hc))
    · cases hop

theorem Core.unlink (hcr : Core s)
    (hi : s.calls[i]? = some (.unlinking fence operationId)) :
    Core { s.setCall i (.unlinked fence operationId true) with marker := none } := by
  refine ⟨hcr.fresh, ?_, ?_, ?_, hcr.answered, fun _ => rfl, fun _ _ _ _ _ _ => rfl, fun _ _ _ _ _ _ => rfl,
    ?_, hcr.owned⟩
  · intro j call fence' hc hf
    rcases getElem?_setCall hc with ⟨-, hc⟩ | ⟨rfl, rfl⟩
    · exact hcr.callsFresh j call fence' hc hf
    · exact hcr.callsFresh j _ fence' hi hf
  · intro j call hc
    rcases getElem?_setCall hc with ⟨-, hc⟩ | ⟨rfl, rfl⟩
    · exact hcr.owns j call hc
    · have how := hcr.owns j _ hi
      cases operationId with
      | none => trivial
      | some operationId => exact how
  · intro j k call call' fence' hj hk hwr hw'
    rcases getElem?_setCall hj with ⟨-, hj⟩ | ⟨-, rfl⟩
    · rcases getElem?_setCall hk with ⟨-, hk⟩ | ⟨-, rfl⟩
      · exact hcr.apart j k call call' fence' hj hk hwr hw'
      · cases hw'
    · cases hwr
  · intro fence' _
    exact Or.inr ⟨i, _, List.getElem?_set_self (List.getElem?_eq_some_iff.mp hi).1, Or.inr rfl⟩

theorem Core.openMemory (hcr : Core s) {result : Except GateError AdmissionState}
    (hcl : t.gate.closed = none) (hm : t.marker = s.marker) (hnn : s.marker = none)
    (hans : t.answeredClosed = s.answeredClosed) (hn : s.answeredClosed = []) (hr : t.nextRef = s.nextRef)
    (hca : t.calls = (s.setCall i (.ended result)).calls)
    (how : ∀ named hol, (some named, hol) ∈ t.reopened → named = hol) : Core t := by
  have hold : ∀ (j : Nat) (call : Call), t.calls[j]? = some call → call = .ended result ∨ s.calls[j]? = some call := by
    intro j call hc
    rw [hca] at hc
    exact (getElem?_setCall hc).symm.imp (·.2) (·.2)
  refine ⟨?_, ?_, ?_, ?_, ?_, fun _ => hm.trans hnn, ?_, ?_, ?_, how⟩
  · intro fence hf
    rw [hcl] at hf
    cases hf
  · intro j call fence hc hf
    rcases hold j call hc with rfl | hc
    · cases hf
    · exact hr ▸ hcr.callsFresh j call fence hc hf
  · intro j call hc
    rcases hold j call hc with rfl | hc
    · trivial
    · exact hcr.owns j call hc
  · intro j k call call' fence hj hk hwr hw'
    rcases hold j call hj with rfl | hj
    · cases hwr
    · rcases hold k call' hk with rfl | hk
      · cases hw'
      · exact hcr.apart j k call call' fence hj hk hwr hw'
  · intro operationId hmem
    rw [hans, hn] at hmem
    exact absurd hmem List.not_mem_nil
  · exact fun _ _ _ _ _ _ => hm.trans hnn
  · exact fun _ _ _ _ _ _ => hm.trans hnn
  · intro fence hf
    rw [hcl] at hf
    cases hf

theorem admit_closed {g g' : Gate} {existing : Bool} (h : g.admitTurn existing = .ok g') :
    g'.closed = g.closed ∧ g'.activeAdmissions = g.activeAdmissions + 1 ∧ g'.idleWaiters = g.idleWaiters := by
  cases hc : g.closed <;> cases existing <;> simp only [Gate.admitTurn, hc, Except.ok.injEq, reduceCtorEq] at h <;>
    subst h <;> exact ⟨rfl, rfl, rfl⟩

theorem core_close (hc : Core s) (request : CloseRequest) (now : String) :
    Core (s.close request now) := by
  simp only [close]
  split
  · exact hc.begin _ ⟨rfl, rfl, trivial, fun _ h => by cases h⟩
  · cases hcl : s.gate.closed with
    | none => exact hc.raise hcl _
    | some fence =>
      dsimp only
      split
      · exact hc.begin _ ⟨rfl, rfl, trivial, fun _ h => by cases h⟩
      · exact (hc.begin (.waiting _) ⟨rfl, rfl, trivial, fun _ h => by cases h⟩).congr
          (closed_waitUntilIdle _ _) rfl rfl rfl rfl rfl

theorem mem_of_mem_forgetAnswered {answered : List String} {op : String}
    (h : op ∈ forgetAnswered operationId answered) : op ∈ answered := by
  cases operationId with
  | none => cases h
  | some operationId => exact (List.mem_filter.mp h).1

theorem core_reopen (hcr : Core s) (operationId : Option String) : Core (s.reopen operationId) := by
  have hcr' : Core { s with answeredClosed := forgetAnswered operationId s.answeredClosed } :=
    hcr.move rfl rfl rfl rfl (fun op hop => Or.inl (mem_of_mem_forgetAnswered hop))
      (fun j c hc => Or.inr ⟨c, hc, rfl, rfl, id, rfl⟩) (fun j c hc _ => ⟨c, hc, rfl, rfl, id, rfl⟩)
  simp only [reopen]
  cases hcl : s.gate.closed with
  | none => exact hcr'.begin _ ⟨rfl, rfl, trivial, fun _ h => by cases h⟩
  | some fence =>
    dsimp only
    split
    · exact hcr'.begin _ ⟨rfl, rfl, trivial, fun _ h => by cases h⟩
    · rename_i hoth
      refine hcr'.begin _ ⟨rfl, rfl, ?_, ?_⟩
      · cases operationId with
        | none => trivial
        | some operationId =>
          by_contra hne
          have hs : (some operationId).filter (· ≠ fence.record.operationId) = some operationId :=
            Option.filter_eq_some_iff.mpr ⟨rfl, decide_eq_true fun h => hne h.symm⟩
          exact absurd (hs.symm.trans hoth) (by simp)
      · intro fence' h
        cases h
        exact hcr.fresh fence hcl

theorem core_write (hc : Core s) {ok : Bool} (hok : Current s (.write i ok)) :
    Core (s.write i ok) := by
  simp only [write]
  split
  · rename_i fence hi
    cases ok with
    | true =>
      obtain ⟨hcl, hn⟩ : s.WritesCurrent (.persisting fence) := hok _ hi
      exact hc.write _ hi hcl hn
    | false => exact hc.setCall _ hi (Or.inr ⟨rfl, rfl, fun _ => trivial, rfl⟩)
  · exact hc

theorem core_unlink (hc : Core s) (i : Nat) (ok : Bool) : Core (s.unlink i ok) := by
  simp only [unlink]
  split
  · rename_i fence operationId hi
    cases ok with
    | true => exact hc.unlink hi
    | false =>
      refine hc.setCall _ hi (Or.inr ⟨rfl, rfl, fun h => ?_, rfl⟩)
      cases operationId with
      | none => trivial
      | some operationId => exact h
  · exact hc

theorem Core.cleared (hc : Core s)
    (hi : s.calls[i]? = some call) (hf : call.writing = some fence ∨ call.opening = some fence)
    (h : s.gate.closed = none ∨ s.gate.closed = some fence ∧ s.answeredClosed = []) :
    s.marker = none ∧ s.answeredClosed = [] := by
  rcases h with h | ⟨h, hn⟩
  · exact ⟨hc.opened h, hc.answered_nil h⟩
  · rcases hf with hwr | hop
    · exact ⟨hc.unwritten i call fence hi hwr h, hn⟩
    · exact ⟨hc.unlinked i call fence hi hop h, hn⟩

theorem core_resume (hcr : Core s) (hok : Current s (.resume i)) : Core (s.resume i) := by
  simp only [resume]
  split
  · rename_i fence hi
    obtain ⟨hnn, hn⟩ := hcr.cleared hi (Or.inl rfl) ((hok _ hi))
    exact hcr.openMemory rfl rfl hnn rfl hn rfl rfl hcr.owned
  · rename_i fence hi
    exact (hcr.setCall (.waiting fence.record.operationId) hi
      (Or.inl ⟨rfl, rfl, rfl, rfl, trivial, fun _ h => by cases h⟩)).congr (closed_waitUntilIdle _ _) rfl rfl rfl rfl rfl
  · rename_i operationId hi
    split
    · exact hcr
    · rename_i hw
      have hs := hcr.setCall (.ended (.ok (s.gate.snapshot s.marker))) hi
        (Or.inl ⟨rfl, rfl, rfl, rfl, trivial, fun _ h => by cases h⟩)
      cases hcl : s.gate.closed with
      | none => exact hs.congr rfl rfl rfl rfl rfl rfl
      | some fence =>
        refine hs.move rfl rfl rfl rfl ?_ (fun j c hc => Or.inr ⟨c, hc, rfl, rfl, id, rfl⟩)
          (fun j c hc _ => ⟨c, hc, rfl, rfl, id, rfl⟩)
        intro op hop
        rcases List.mem_append.mp hop with hop | hop
        · exact Or.inl hop
        · rw [List.mem_singleton.mp hop]
          exact Or.inr ⟨fence, hcl, (Or.resolve_left (hok _ hi) hw) fence hcl⟩
  · rename_i fence operationId hi
    exact hcr.setCall _ hi (Or.inl ⟨rfl, rfl, rfl, rfl, trivial, fun _ h => by cases h⟩)
  · rename_i fence operationId hi
    have hok : s.gate.closed = none ∨ s.gate.closed = some fence ∧ s.answeredClosed = [] := hok _ hi
    obtain ⟨hnn, hn⟩ := hcr.cleared hi (Or.inr rfl) hok
    refine hcr.openMemory rfl rfl hnn rfl hn rfl rfl ?_
    intro named hol hm
    rcases hok with hcl | ⟨hcl, -⟩
    · simp only [hcl] at hm
      exact hcr.owned named hol hm
    · simp only [hcl] at hm
      rcases List.mem_append.mp hm with hm | hm
      · exact hcr.owned named hol hm
      · obtain ⟨rfl, rfl⟩ := Prod.mk.inj (List.mem_singleton.mp hm)
        exact (hcr.owns i _ hi).symm
  · exact hcr

theorem core_step {action : Action} (hc : Core s) (hok : Current s action) : Core (step action s) := by
  cases action with
  | admitTurn existing =>
    simp only [step]
    cases hadm : s.gate.admitTurn existing with
    | ok gate => exact hc.congr (admit_closed hadm).1 rfl rfl rfl rfl rfl
    | error e => exact hc
  | release admission =>
    simp only [step]
    split
    · exact hc.congr rfl rfl rfl rfl rfl rfl
    · exact hc
  | close request now => exact core_close hc request now
  | reopen operationId => exact core_reopen hc operationId
  | write i ok => exact core_write hc hok
  | unlink i ok => exact core_unlink hc i ok
  | resume i => exact core_resume hc hok

theorem Counted.move (hc : Counted s) (hact : t.gate.activeAdmissions = s.gate.activeAdmissions)
    (hreleased : t.released = s.released)
    (hw : s.gate.activeAdmissions = 0 → t.gate.idleWaiters = s.gate.idleWaiters) : Counted t where
  count := by rw [hact, hreleased, hc.count]
  awake := fun h => (hw (hact ▸ h)).trans (hc.awake (hact ▸ h))

theorem active_waitUntilIdle (g : Gate) (call : Nat) :
    (g.waitUntilIdle call).activeAdmissions = g.activeAdmissions ∧
      (g.activeAdmissions = 0 → (g.waitUntilIdle call).idleWaiters = g.idleWaiters) := by
  simp only [Gate.waitUntilIdle]
  split
  · exact ⟨rfl, fun _ => rfl⟩
  · rename_i hne
    exact ⟨rfl, fun h => absurd h hne⟩

theorem counted_release (hc : Counted s) (hi : s.released[i]? = some false) :
    Counted { s with gate := s.gate.release, released := s.released.set i true } where
  count := by
    obtain ⟨hlt, hf⟩ := List.getElem?_eq_some_iff.mp hi
    simp only [Gate.release, hc.count, List.countP_set hlt, hf]
    simp
  awake := fun h => if_pos h

theorem counted_admission (hc : Counted s) {existing : Bool} {gate : Gate}
    (hadm : s.gate.admitTurn existing = .ok gate) : Counted { s with gate, released := s.released ++ [false] } := by
  obtain ⟨-, hact, -⟩ := admit_closed hadm
  constructor
  · simp only [hact, hc.count, List.countP_append]
    rfl
  · intro h
    exact absurd (hact.symm.trans h) (Nat.succ_ne_zero _)

theorem counted_step (hc : Counted s) (action : Action) : Counted (step action s) := by
  cases action with
  | admitTurn existing =>
    simp only [step]
    cases hadm : s.gate.admitTurn existing with
    | ok gate => exact counted_admission hc hadm
    | error e => exact hc
  | release admission =>
    simp only [step]
    split
    · rename_i hi
      exact counted_release hc hi
    · exact hc
  | close request now =>
    simp only [step, close]
    split
    · exact hc.move rfl rfl fun _ => rfl
    · split
      · split
        · exact hc.move rfl rfl fun _ => rfl
        · obtain ⟨hact, hw⟩ := active_waitUntilIdle s.gate s.calls.length
          exact hc.move hact rfl hw
      · exact hc.move rfl rfl fun _ => rfl
  | reopen operationId =>
    simp only [step, reopen]
    split
    · exact hc.move rfl rfl fun _ => rfl
    · split
      · exact hc.move rfl rfl fun _ => rfl
      · exact hc.move rfl rfl fun _ => rfl
  | write i ok =>
    simp only [step, write]
    split
    · cases ok <;> exact hc.move rfl rfl fun _ => rfl
    · exact hc
  | unlink i ok =>
    simp only [step, unlink]
    split
    · cases ok <;> exact hc.move rfl rfl fun _ => rfl
    · exact hc
  | resume i =>
    simp only [step, resume]
    split
    · exact hc.move rfl rfl fun _ => rfl
    · obtain ⟨hact, hw⟩ := active_waitUntilIdle s.gate i
      exact hc.move hact rfl hw
    · split
      · exact hc
      · exact hc.move rfl rfl fun _ => rfl
    · exact hc.move rfl rfl fun _ => rfl
    · exact hc.move rfl rfl fun _ => rfl
    · exact hc

theorem core_start (marker : Option MarkerFile) (now : String) : Core (start marker now) where
  fresh := by
    intro fence hf
    obtain ⟨record, -, rfl⟩ := Option.map_eq_some_iff.mp hf
    exact Nat.zero_lt_one
  callsFresh := fun _ _ _ h => by cases h
  owns := fun _ _ h => by cases h
  apart := fun _ _ _ _ _ h => by cases h
  answered := fun _ h => by cases h
  opened := by
    intro h
    have hm := loadDurableRecord_isSome marker now
    rw [Option.map_eq_none_iff.mp h] at hm
    exact Option.isSome_eq_false_iff.mp hm.symm |> Option.isNone_iff_eq_none.mp
  unwritten := fun _ _ _ h => by cases h
  unlinked := fun _ _ _ h => by cases h
  durable := by
    intro fence hf
    obtain ⟨record, hr, -⟩ := Option.map_eq_some_iff.mp hf
    exact Or.inl ((loadDurableRecord_isSome marker now).symm.trans (Option.isSome_of_eq_some hr))
  owned := fun _ _ h => by cases h

theorem counted_start (marker : Option MarkerFile) (now : String) : Counted (start marker now) :=
  ⟨rfl, fun _ => rfl⟩

/-- In every run in which no call acts for a fence that is no longer the one it checked, the fence holds. -/
theorem fenced_of_current {marker : Option MarkerFile} {now : String} {actions : List Action}
    (hmeets : Meets step Current actions (start marker now)) : Fenced (run step actions (start marker now)) := by
  have hs : ∀ s action, Core s ∧ Counted s → Current s action → Core (step action s) ∧ Counted (step action s) :=
    fun s action h hok => ⟨core_step h.1 hok, counted_step h.2 action⟩
  obtain ⟨hcr, hc⟩ := run_invariant hs ⟨core_start marker now, counted_start marker now⟩ hmeets
  exact fenced_of hcr hc

/-- A close, its reopen and another close, with a turn admitted between that the second close waits for. -/
theorem fenced_of_current_handover :
    Fenced (run step [.close ⟨"restart-1", none, none, none⟩ "t1", .write 0 true, .resume 0, .resume 0, .admitTurn false,
      .reopen (some "restart-1"), .unlink 1 true, .resume 1, .admitTurn false,
      .close ⟨"restart-2", none, none, none⟩ "t2", .write 2 true, .resume 2, .release 0, .release 0, .resume 2]
      (start none "t0")) :=
  fenced_of_current (by decide +kernel)

/-- Two reopens of one operation are in flight when the first opens the gate and another operation closes it: the
second opens that fence after its close has answered closed, and leaves its marker. -/
theorem reopen_opens_other_fence :
    ¬ Fenced (run step [.close ⟨"restart-1", none, none, none⟩ "t1", .write 0 true, .resume 0, .resume 0,
      .reopen (some "restart-1"), .reopen (some "restart-1"), .unlink 1 true, .unlink 2 true, .resume 1,
      .close ⟨"restart-2", none, none, none⟩ "t2", .write 3 true, .resume 3, .resume 3, .resume 2]
      (start none "t0")) := by
  intro h
  have hm : (some "restart-1", "restart-2") ∈ (run step [.close ⟨"restart-1", none, none, none⟩ "t1", .write 0 true,
      .resume 0, .resume 0, .reopen (some "restart-1"), .reopen (some "restart-1"), .unlink 1 true, .unlink 2 true,
      .resume 1, .close ⟨"restart-2", none, none, none⟩ "t2", .write 3 true, .resume 3, .resume 3, .resume 2]
      (start none "t0")).reopened := by decide +kernel
  exact absurd (h.owned _ _ hm) (by decide)

end State

end HrcRuntime.TurnAdmissionGate
