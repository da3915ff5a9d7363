import HrcRuntime.Keyed
import HrcRuntime.Schedule

namespace HrcRuntime.StopRefusal

open Keyed

def refusalCap : Nat := 3

def hardCap : Nat := 50

structure HrcMailStopEnvelopeSummary where
  envelopeId : String
  sender : String
  roomKey : String
  body : String

structure HrcMailStopRefusalRecord where
  runtimeId : String
  targetSessionRef : String
  observedEnvelopeSeq : Nat
  refusalCount : Nat
  totalRefusalCount : Nat
  createdAt : String
  updatedAt : String

abbrev Ledger := Store HrcMailStopRefusalRecord HrcMailStopRefusalRecord.runtimeId

inductive AllowReason where
  | clear | refusalCap | hardCap

structure HrcMailStopDecision where
  /-- A stop is allowed with a reason; without one it is blocked. -/
  allowed : Option AllowReason
  unackedCount : Nat
  refusalCount : Nat
  totalRefusalCount : Nat
  envelopes : List HrcMailStopEnvelopeSummary

structure Evaluation where
  runtimeId : String
  targetSessionRef : String
  blocking : List HrcMailStopEnvelopeSummary
  newestEnvelopeSeq : Nat
  summaryLimit : Int := 8
  now : String

def refused (e : Evaluation) (previous : Option HrcMailStopRefusalRecord) : HrcMailStopRefusalRecord :=
  let isNewEnvelope := previous.all fun p => e.newestEnvelopeSeq > p.observedEnvelopeSeq
  { runtimeId := e.runtimeId, targetSessionRef := e.targetSessionRef, observedEnvelopeSeq := e.newestEnvelopeSeq
    refusalCount := min ((if isNewEnvelope then 0 else (previous.map (·.refusalCount)).getD 0) + 1) refusalCap
    totalRefusalCount := min ((previous.map (·.totalRefusalCount)).getD 0 + 1) hardCap
    createdAt := (previous.map (·.createdAt)).getD e.now, updatedAt := e.now }

/-- `ON CONFLICT(runtime_id) DO UPDATE SET`: every column but the creation time. -/
def onConflict (row r : HrcMailStopRefusalRecord) : HrcMailStopRefusalRecord :=
  { row with runtimeId := r.runtimeId, createdAt := r.createdAt }

def evaluate (e : Evaluation) (t : Ledger) : HrcMailStopDecision × Ledger :=
  let limit := min (max e.summaryLimit 1) 20
  let previous := t.find e.runtimeId
  if e.blocking.length = 0 then
    ({ allowed := some .clear, unackedCount := 0, refusalCount := (previous.map (·.refusalCount)).getD 0
       totalRefusalCount := (previous.map (·.totalRefusalCount)).getD 0, envelopes := [] }, t)
  else
    let row := refused e previous
    let stored := t.upsert row (onConflict row) fun _ => rfl
    let allowed :=
      if row.totalRefusalCount ≥ hardCap then some AllowReason.hardCap
      else if row.refusalCount ≥ refusalCap then some AllowReason.refusalCap
      else none
    ({ allowed, unackedCount := e.blocking.length, refusalCount := row.refusalCount
       totalRefusalCount := row.totalRefusalCount, envelopes := e.blocking.take limit.toNat }, stored)

def step (e : Evaluation) (t : Ledger) : Ledger := (evaluate e t).2

def blocks (e : Evaluation) (t : Ledger) : Bool := (evaluate e t).1.allowed.isNone

@[grind =]
def blockCount (runtimeId : String) : List Evaluation → Ledger → Nat
  | [], _ => 0
  | e :: es, t => (if e.runtimeId = runtimeId ∧ blocks e t = true then 1 else 0) + blockCount runtimeId es (step e t)

def Observes (runtimeId : String) (e : Evaluation) : Prop := e.runtimeId = runtimeId ∧ e.blocking ≠ []

instance (runtimeId : String) (e : Evaluation) : Decidable (Observes runtimeId e) := by
  unfold Observes
  infer_instance

section Counters

variable {e : Evaluation} {t : Ledger} {runtimeId : String}

theorem find_step (e : Evaluation) (t : Ledger) (runtimeId : String) : (step e t).find runtimeId =
    if Observes runtimeId e then some (refused e (t.find runtimeId)) else t.find runtimeId := by
  unfold step evaluate
  by_cases he : e.blocking = []
  · simp [he, Observes]
  · have hl : e.blocking.length ≠ 0 := by simpa using he
    simp only [hl, if_false]
    by_cases hid : e.runtimeId = runtimeId
    · subst hid
      have hobs : Observes e.runtimeId e := ⟨rfl, he⟩
      rw [if_pos hobs]
      have hs := find_upsert_self (t := t) (r := refused e (t.find e.runtimeId))
        (f := onConflict (refused e (t.find e.runtimeId))) fun _ => rfl
      refine hs.trans ?_
      have hid : (refused e (t.find e.runtimeId)).runtimeId = e.runtimeId := rfl
      rw [hid]
      rcases hf : t.find e.runtimeId with _ | r
      · rfl
      · have hr := (find_mem hf).2
        simp [refused, onConflict, hr]
    · have hobs : ¬ Observes runtimeId e := fun h => hid h.1
      rw [if_neg hobs]
      exact find_upsert_of_ne _ fun h => hid h.symm

theorem blocks_eq (e : Evaluation) (t : Ledger) : blocks e t = true ↔ e.blocking ≠ [] ∧
    (refused e (t.find e.runtimeId)).totalRefusalCount < hardCap ∧
      (refused e (t.find e.runtimeId)).refusalCount < refusalCap := by
  unfold blocks evaluate
  by_cases he : e.blocking = []
  · simp [he]
  · have hl : e.blocking.length ≠ 0 := by simpa using he
    simp only [hl, if_false]
    split
    · simp
      omega
    · split <;> simp [he] <;> omega

theorem not_observes_blocks (h : ¬ Observes runtimeId e) : ¬ (e.runtimeId = runtimeId ∧ blocks e t = true) :=
  fun ⟨hid, hbl⟩ => h ⟨hid, ((blocks_eq e t).mp hbl).1⟩

theorem blockCount_add_total (es : List Evaluation) (t : Ledger) (runtimeId : String) :
    blockCount runtimeId es t + ((t.find runtimeId).map (·.totalRefusalCount)).getD 0 ≤
      max hardCap (((t.find runtimeId).map (·.totalRefusalCount)).getD 0) := by
  induction es generalizing t with
  | nil =>
    rw [blockCount, Nat.zero_add]
    exact Nat.le_max_right ..
  | cons e es ih =>
    have hr := ih (step e t)
    rw [find_step] at hr
    unfold blockCount
    by_cases hobs : Observes runtimeId e
    · rw [if_pos hobs] at hr
      obtain ⟨rfl, -⟩ := hobs
      have ht : (refused e (t.find e.runtimeId)).totalRefusalCount =
          min (((t.find e.runtimeId).map (·.totalRefusalCount)).getD 0 + 1) hardCap := rfl
      simp only [Option.map_some, Option.getD_some, ht] at hr
      have hbl : blocks e t = true →
          min (((t.find e.runtimeId).map (·.totalRefusalCount)).getD 0 + 1) hardCap < hardCap := fun h =>
        ((blocks_eq e t).mp h).2.1
      split
      · rename_i hblo
        have := hbl hblo.2
        omega
      · omega
    · rw [if_neg hobs] at hr
      rw [if_neg (not_observes_blocks hobs), Nat.zero_add]
      exact hr

theorem blockCount_add_refusals (es : List Evaluation) {r : HrcMailStopRefusalRecord} (hr : t.find runtimeId = some r)
    (hstale : ∀ before e after, es = before ++ e :: after → Observes runtimeId e → ∀ p,
      (Schedule.run step before t).find runtimeId = some p → e.newestEnvelopeSeq ≤ p.observedEnvelopeSeq) :
    blockCount runtimeId es t + r.refusalCount ≤ max refusalCap r.refusalCount := by
  induction es generalizing t r with
  | nil =>
    rw [blockCount, Nat.zero_add]
    exact Nat.le_max_right ..
  | cons e es ih =>
    have hrs (before : List Evaluation) (e' : Evaluation) (after : List Evaluation) (hes : es = before ++ e' :: after)
        (hobs : Observes runtimeId e') (p : HrcMailStopRefusalRecord)
        (hp : (Schedule.run step before (step e t)).find runtimeId = some p) :
        e'.newestEnvelopeSeq ≤ p.observedEnvelopeSeq :=
      hstale (e :: before) e' after (by rw [hes, List.cons_append]) hobs p hp
    unfold blockCount
    have hf := find_step e t runtimeId
    by_cases hobs : Observes runtimeId e
    · rw [if_pos hobs, hr] at hf
      have hold : e.newestEnvelopeSeq ≤ r.observedEnvelopeSeq := hstale [] e es rfl hobs r hr
      have hc : (refused e (some r)).refusalCount = min (r.refusalCount + 1) refusalCap := by
        simp [refused, Nat.not_lt.mpr hold]
      have hn := ih hf hrs
      rw [hc] at hn
      obtain ⟨rfl, -⟩ := hobs
      have hbl : blocks e t = true → min (r.refusalCount + 1) refusalCap < refusalCap := by
        intro h
        have := ((blocks_eq e t).mp h).2.2
        rwa [hr, hc] at this
      split
      · rename_i hblo
        have := hbl hblo.2
        omega
      · omega
    · rw [if_neg hobs, hr] at hf
      rw [if_neg (not_observes_blocks hobs), Nat.zero_add]
      exact ih hf hrs

variable {es : List Evaluation}

theorem blockCount_eq_zero (h : ∀ e ∈ es, ¬ Observes runtimeId e) (t : Ledger) :
    blockCount runtimeId es t = 0 := by
  induction es generalizing t with
  | nil => rfl
  | cons e es ih =>
    have he := not_observes_blocks (t := t) (h e (List.mem_cons_self ..))
    rw [blockCount, if_neg he, ih fun e' he' => h e' (List.mem_cons_of_mem _ he')]

theorem exists_row (h : ∃ e ∈ es, Observes runtimeId e) (t : Ledger) :
    ∃ r, (Schedule.run step es t).find runtimeId = some r := by
  have hk (es : List Evaluation) (t : Ledger) (ht : ∃ r, t.find runtimeId = some r) :
      ∃ r, (Schedule.run step es t).find runtimeId = some r := by
    induction es generalizing t with
    | nil => exact ht
    | cons e es ih =>
      refine ih _ ?_
      rw [find_step]
      split
      · exact ⟨_, rfl⟩
      · exact ht
  obtain ⟨e, he, hobs⟩ := h
  obtain ⟨before, after, rfl⟩ := List.append_of_mem he
  rw [Schedule.run_append]
  refine hk after _ ?_
  rw [find_step, if_pos hobs]
  exact ⟨_, rfl⟩

end Counters

section Runs

structure Watch where
  ledger : Ledger
  newest : Option Nat

def watch (runtimeId : String) (e : Evaluation) (w : Watch) : Watch :=
  { ledger := step e w.ledger
    newest := if Observes runtimeId e then some (max e.newestEnvelopeSeq (w.newest.getD 0)) else w.newest }

/-- The Stop reopens the refusals only for an envelope newer than all the runtime was shown; a set
that merely exceeds the last one shown does not. -/
def StaysClosed (runtimeId : String) (w : Watch) (e : Evaluation) : Prop :=
  Observes runtimeId e → (w.ledger.find runtimeId).any (fun p => p.observedEnvelopeSeq < e.newestEnvelopeSeq) →
    w.newest.all (· < e.newestEnvelopeSeq)

instance (runtimeId : String) (w : Watch) (e : Evaluation) : Decidable (StaysClosed runtimeId w e) := by
  unfold StaysClosed
  infer_instance

variable {runtimeId : String}

theorem watch_ledger (es : List Evaluation) (w : Watch) :
    (Schedule.run (watch runtimeId) es w).ledger = Schedule.run step es w.ledger := by
  induction es generalizing w with
  | nil => rfl
  | cons e es ih => exact ih _

theorem watch_newest {es : List Evaluation} {e : Evaluation} (he : e ∈ es) (hobs : Observes runtimeId e)
    (w : Watch) : ∃ n, (Schedule.run (watch runtimeId) es w).newest = some n ∧ e.newestEnvelopeSeq ≤ n := by
  have hk (es : List Evaluation) (w : Watch) (m : Nat) (hw : ∃ n, w.newest = some n ∧ m ≤ n) :
      ∃ n, (Schedule.run (watch runtimeId) es w).newest = some n ∧ m ≤ n := by
    induction es generalizing w with
    | nil => exact hw
    | cons e es ih =>
      refine ih _ ?_
      obtain ⟨n, hn, hle⟩ := hw
      unfold watch
      by_cases h : Observes runtimeId e
      · rw [if_pos h, hn]
        exact ⟨_, rfl, Nat.le_trans hle (Nat.le_max_right ..)⟩
      · rw [if_neg h]
        exact ⟨n, hn, hle⟩
  obtain ⟨before, after, rfl⟩ := List.append_of_mem he
  rw [Schedule.run_append]
  refine hk after _ _ ?_
  unfold watch
  rw [if_pos hobs]
  exact ⟨_, rfl, Nat.le_max_left ..⟩

/-- Over a run of Stops that reopens the refusals only for mail newer than all it was shown, a runtime
is blocked at most `hardCap` times, and at most `refusalCap` times in a stretch that shows nothing newer. -/
theorem blocks_bounded (runtimeId : String) (es : List Evaluation)
    (hclosed : Schedule.Meets (watch runtimeId) (StaysClosed runtimeId) es ⟨.empty, none⟩) :
    blockCount runtimeId es .empty ≤ hardCap ∧
    ∀ before stretch after, es = before ++ (stretch ++ after) →
      (∀ e ∈ stretch, Observes runtimeId e →
        ∃ e' ∈ before, Observes runtimeId e' ∧ e.newestEnvelopeSeq ≤ e'.newestEnvelopeSeq) →
      blockCount runtimeId stretch (Schedule.run step before .empty) ≤ refusalCap := by
  refine ⟨by simpa using blockCount_add_total es .empty runtimeId, ?_⟩
  rintro before stretch after rfl hstr
  by_cases hnn : ∀ e ∈ stretch, ¬ Observes runtimeId e
  · rw [blockCount_eq_zero hnn]
    exact Nat.zero_le _
  · obtain ⟨e, he, hobs⟩ : ∃ e ∈ stretch, Observes runtimeId e := by
      simpa using hnn
    obtain ⟨e', he', ho', -⟩ := hstr e he hobs
    obtain ⟨r, hr⟩ := exists_row ⟨e', he', ho'⟩ .empty
    have hbd := blockCount_add_refusals stretch hr ?_
    · omega
    · rintro before' e after' rfl hobs p hp
      obtain ⟨e', he', ho', hle⟩ := hstr e (List.mem_append_right _ (List.mem_cons_self ..)) hobs
      have hs := (Schedule.meets_append.mp hclosed).2
      rw [List.append_assoc, List.cons_append] at hs
      have hok := (Schedule.meets_append.mp hs).2.1 hobs
      rw [← Schedule.run_append, watch_ledger, Schedule.run_append, hp] at hok
      obtain ⟨n, hn, hle'⟩ := watch_newest (List.mem_append_left before' he') ho' (Watch.mk .empty none)
      rw [hn] at hok
      by_contra hnw
      have := hok (by simpa using hnw)
      simp at this
      omega

def shown (newest : Nat) : Evaluation :=
  { runtimeId := "rt", targetSessionRef := "seat", newestEnvelopeSeq := newest, now := "t"
    blocking := [{ envelopeId := "EN-" ++ toString newest, sender := "mable", roomKey := "room", body := "" }] }

theorem blocks_bounded_sample :
    blockCount "rt" [shown 5, shown 5, shown 3, shown 6, shown 6] .empty ≤ hardCap ∧
      blockCount "rt" [shown 5, shown 3] (Schedule.run step [shown 5] .empty) ≤ refusalCap := by
  have h := blocks_bounded "rt" [shown 5, shown 5, shown 3, shown 6, shown 6] (by decide +kernel)
  exact ⟨h.1, h.2 [shown 5] [shown 5, shown 3] [shown 6, shown 6] rfl (by decide +kernel)⟩

/-- The newest envelope leaves the set and comes back, twice: one block too many without new mail. -/
theorem reshown_envelope_reopens :
    let stretch := [shown 5, shown 3, shown 5, shown 5, shown 3, shown 5]
    (∀ e ∈ stretch, Observes "rt" e → ∃ e' ∈ [shown 5], Observes "rt" e' ∧ e.newestEnvelopeSeq ≤ e'.newestEnvelopeSeq) ∧
      refusalCap < blockCount "rt" stretch (Schedule.run step [shown 5] .empty) := by
  decide +kernel

end Runs

end HrcRuntime.StopRefusal
