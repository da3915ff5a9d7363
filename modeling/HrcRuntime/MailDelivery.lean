import HrcRuntime.Keyed
import HrcRuntime.Schedule
import HrcRuntime.Text
import Mathlib.Data.List.Sort

namespace HrcRuntime.MailDelivery

open Keyed Text
open Option (map_some isSome_iff_exists some_inj)

/-- A `hrcmail_presentations` row. -/
structure HrcMailPresentation where
  envelopeId : String
  runtimeId : String
  targetSessionRef : String
  generation : Option Int := none
  presentationId : String
  inputId : Option String := none
  deliveryOutcome : String
  landingHrcSeq : Int
  landedAt : String
  receiptCommittedAt : Option String := none
  turnEndedAt : Option String := none
  reminderArmedAt : Option String := none
  reminderDueAt : Option String := none
  reminderLandingHrcSeq : Option Int := none
  reminderLandedAt : Option String := none
  disposedAt : Option String := none
  disposition : Option String := none
  deriving DecidableEq

def HrcMailPresentation.pair (r : HrcMailPresentation) : String × String := (r.envelopeId, r.runtimeId)

abbrev Ledger := Store HrcMailPresentation HrcMailPresentation.pair

inductive HrcMailError where
  | blankTarget
  | constraint
  | reload (envelopeId : String)

def HrcMailError.message : HrcMailError → String
  | blankTarget => "targetSessionRef must be a non-empty string"
  | constraint => "CHECK constraint failed: hrcmail_presentations"
  | reload envelopeId => "failed to reload presentation " ++ envelopeId

def normalizeTarget (targetSessionRef : String) : Except HrcMailError String :=
  let target := trim targetSessionRef
  if target = "" then .error .blankTarget else .ok target

structure PresentationInput where
  envelopeId : String
  runtimeId : String
  targetSessionRef : String
  generation : Option Int := none
  presentationId : String
  inputId : Option String := none
  deliveryOutcome : String
  landingHrcSeq : Int

def PresentationInput.row (input : PresentationInput) (target now : String) : HrcMailPresentation :=
  { envelopeId := input.envelopeId, runtimeId := input.runtimeId, targetSessionRef := target
    generation := input.generation, presentationId := input.presentationId, inputId := input.inputId
    deliveryOutcome := input.deliveryOutcome, landingHrcSeq := input.landingHrcSeq, landedAt := now }

def PresentationInput.allowed (input : PresentationInput) : Bool := input.generation.all (1 ≤ ·)

structure Recorded where
  recorded : Bool
  presentation : HrcMailPresentation

def getPresentation (t : Ledger) (envelopeId runtimeId : String) : Option HrcMailPresentation :=
  t.find (envelopeId, runtimeId)

def storePresentation (input : PresentationInput) (now : String) (t : Ledger) : Except HrcMailError Ledger := do
  let target ← normalizeTarget input.targetSessionRef
  if input.allowed then
    .ok (t.upsert (input.row target now)
      (fun r => { input.row target now with envelopeId := r.envelopeId, runtimeId := r.runtimeId }) fun _ => rfl)
  else .error .constraint

def recordPresentation (input : PresentationInput) (now : String) (t : Ledger) :
    Except HrcMailError (Recorded × Ledger) :=
  match (getPresentation t input.envelopeId input.runtimeId).filter (·.landingHrcSeq ≥ input.landingHrcSeq) with
  | some existing => .ok (⟨false, existing⟩, t)
  | none => do
      let t' ← storePresentation input now t
      match getPresentation t' input.envelopeId input.runtimeId with
      | none => .error (.reload input.envelopeId)
      | some presentation => .ok (⟨true, presentation⟩, t')

/-- `UPDATE hrcmail_presentations SET f WHERE` the pair's row is one of `p`; whether it was. -/
def updatePresentation (t : Ledger) (envelopeId runtimeId : String) (p : HrcMailPresentation → Bool)
    (f : HrcMailPresentation → HrcMailPresentation) (hf : ∀ r, (f r).pair = r.pair) : Bool × Ledger :=
  (t.hits (envelopeId, runtimeId) p, t.amend (envelopeId, runtimeId) p f hf)

def markReceiptCommitted (envelopeId runtimeId now : String) (t : Ledger) : Bool × Ledger :=
  updatePresentation t envelopeId runtimeId (fun _ => true)
    (fun r => { r with receiptCommittedAt := r.receiptCommittedAt.or (some now) }) fun _ => rfl

def armReminder (envelopeId runtimeId turnEndedAt remindAt now : String) (t : Ledger) : Bool × Ledger :=
  updatePresentation t envelopeId runtimeId
    (fun r => r.disposedAt.isNone && r.receiptCommittedAt.isSome && r.reminderArmedAt.isNone)
    (fun r => { r with reminderArmedAt := some now, reminderDueAt := some remindAt, turnEndedAt := some turnEndedAt })
    fun _ => rfl

def recordReminderLanding (envelopeId runtimeId : String) (landingHrcSeq : Int) (now : String) (t : Ledger) :
    Bool × Ledger :=
  updatePresentation t envelopeId runtimeId (fun r => r.reminderLandingHrcSeq.isNone)
    (fun r => { r with reminderLandingHrcSeq := some landingHrcSeq, reminderLandedAt := some now }) fun _ => rfl

def retireReminder (envelopeId runtimeId : String) (t : Ledger) : Bool × Ledger :=
  updatePresentation t envelopeId runtimeId
    (fun r => r.reminderDueAt.isSome && r.reminderLandingHrcSeq.isNone)
    (fun r => { r with reminderDueAt := none }) fun _ => rfl

def recordDisposition (envelopeId runtimeId disposition now : String) (t : Ledger) : Bool × Ledger :=
  updatePresentation t envelopeId runtimeId (fun r => r.disposedAt.isNone)
    (fun r => { r with disposedAt := some now, disposition := some disposition }) fun _ => rfl

def isDue (target now : String) (r : HrcMailPresentation) : Bool :=
  r.targetSessionRef == target && r.disposedAt.isNone && r.receiptCommittedAt.isSome
    && r.reminderDueAt.any (· ≤ now) && r.reminderLandingHrcSeq.isNone

/-- `ORDER BY reminder_due_at ASC, envelope_id ASC`. -/
def dueBefore (a b : HrcMailPresentation) : Prop :=
  a.reminderDueAt.getD "" < b.reminderDueAt.getD "" ∨
    a.reminderDueAt = b.reminderDueAt ∧ a.envelopeId ≤ b.envelopeId

instance : DecidableRel dueBefore := fun _ _ => inferInstanceAs (Decidable (_ ∨ _))

def listDueReminders (targetSessionRef now : String) (t : Ledger) : Except HrcMailError (List HrcMailPresentation) := do
  let target ← normalizeTarget targetSessionRef
  .ok ((t.rows.filter (isDue target now)).insertionSort dueBefore)

inductive Call where
  | recordPresentation (input : PresentationInput)
  | markReceiptCommitted (envelopeId runtimeId : String)
  | armReminder (envelopeId runtimeId turnEndedAt remindAt : String)
  | recordReminderLanding (envelopeId runtimeId : String) (landingHrcSeq : Int)
  | retireReminder (envelopeId runtimeId : String)
  | recordDisposition (envelopeId runtimeId disposition : String)

namespace Call

def pair : Call → String × String
  | recordPresentation input => (input.envelopeId, input.runtimeId)
  | markReceiptCommitted envelopeId runtimeId | armReminder envelopeId runtimeId ..
  | recordReminderLanding envelopeId runtimeId _ | retireReminder envelopeId runtimeId
  | recordDisposition envelopeId runtimeId _ => (envelopeId, runtimeId)

/-- Run a call at a time; the flag is what it reports, `recorded` or a row changed. -/
def perform (now : String) : Call → Ledger → Except HrcMailError (Bool × Ledger)
  | recordPresentation input, t =>
    (MailDelivery.recordPresentation input now t).map fun (result, t') => (result.recorded, t')
  | markReceiptCommitted envelopeId runtimeId, t => .ok (MailDelivery.markReceiptCommitted envelopeId runtimeId now t)
  | armReminder envelopeId runtimeId turnEndedAt remindAt, t =>
    .ok (MailDelivery.armReminder envelopeId runtimeId turnEndedAt remindAt now t)
  | recordReminderLanding envelopeId runtimeId landingHrcSeq, t =>
    .ok (MailDelivery.recordReminderLanding envelopeId runtimeId landingHrcSeq now t)
  | retireReminder envelopeId runtimeId, t => .ok (MailDelivery.retireReminder envelopeId runtimeId t)
  | recordDisposition envelopeId runtimeId disposition, t =>
    .ok (MailDelivery.recordDisposition envelopeId runtimeId disposition now t)

def took (c : Call) (now : String) (t : Ledger) : Bool :=
  match c.perform now t with
  | .ok (took, _) => took
  | .error _ => false

end Call

def step (c : Call × String) (t : Ledger) : Ledger :=
  match c.1.perform c.2 t with
  | .ok (_, t') => t'
  | .error _ => t

def PresentationInput.wellFormed (input : PresentationInput) : Bool :=
  trim input.targetSessionRef ≠ "" && input.allowed

def Call.guard : Call → HrcMailPresentation → Bool
  | recordPresentation _, _ => false
  | markReceiptCommitted .., _ => true
  | armReminder .., r => r.disposedAt.isNone && r.receiptCommittedAt.isSome && r.reminderArmedAt.isNone
  | recordReminderLanding .., r => r.reminderLandingHrcSeq.isNone
  | retireReminder .., r => r.reminderDueAt.isSome && r.reminderLandingHrcSeq.isNone
  | recordDisposition .., r => r.disposedAt.isNone

def Call.assign (now : String) : Call → HrcMailPresentation → HrcMailPresentation
  | recordPresentation _, r => r
  | markReceiptCommitted .., r => { r with receiptCommittedAt := r.receiptCommittedAt.or (some now) }
  | armReminder _ _ turnEndedAt remindAt, r =>
    { r with reminderArmedAt := some now, reminderDueAt := some remindAt, turnEndedAt := some turnEndedAt }
  | recordReminderLanding _ _ landingHrcSeq, r =>
    { r with reminderLandingHrcSeq := some landingHrcSeq, reminderLandedAt := some now }
  | retireReminder .., r => { r with reminderDueAt := none }
  | recordDisposition _ _ disposition, r => { r with disposedAt := some now, disposition := some disposition }

def rowAfter (now : String) : Call → Option HrcMailPresentation → Option HrcMailPresentation
  | .recordPresentation input, row =>
    if input.wellFormed && row.all (·.landingHrcSeq < input.landingHrcSeq)
    then some (input.row (trim input.targetSessionRef) now) else row
  | c, row => row.map fun r => if c.guard r then c.assign now r else r

section Steps

variable {c : Call} {now : String} {t : Ledger} {k : String × String}

theorem store_cases (input : PresentationInput) (now : String) (t : Ledger) :
    (input.wellFormed = false ∧ ∃ e, storePresentation input now t = .error e) ∨
    input.wellFormed = true ∧ ∃ t', storePresentation input now t = .ok t' ∧
      t'.find (input.envelopeId, input.runtimeId) = some (input.row (trim input.targetSessionRef) now) ∧
      ∀ k, k ≠ (input.envelopeId, input.runtimeId) → t'.find k = t.find k := by
  unfold storePresentation normalizeTarget PresentationInput.wellFormed
  by_cases ht : trim input.targetSessionRef = ""
  · exact .inl ⟨by simp [ht], _, by rw [if_pos ht]; rfl⟩
  · rw [if_neg ht]
    cases hok : input.allowed with
    | false => exact .inl ⟨by simp, _, rfl⟩
    | true =>
      refine .inr ⟨by simp [ht], _, rfl, ?_, fun k hk => find_upsert_of_ne _ hk⟩
      have hs := find_upsert_self (t := t) (r := input.row (trim input.targetSessionRef) now)
        (f := fun r => { input.row (trim input.targetSessionRef) now with
          envelopeId := r.envelopeId, runtimeId := r.runtimeId }) fun _ => rfl
      refine hs.trans ?_
      rcases hold : t.find (HrcMailPresentation.pair (input.row (trim input.targetSessionRef) now)) with _ | r
      · rfl
      · obtain ⟨-, hp⟩ := find_mem hold
        have he : r.envelopeId = input.envelopeId := congrArg Prod.fst hp
        have hrt : r.runtimeId = input.runtimeId := congrArg Prod.snd hp
        rw [map_some, Option.getD_some, he, hrt]
        rfl

theorem record_cases (input : PresentationInput) (now : String) (t : Ledger) :
    (∃ existing, t.find (input.envelopeId, input.runtimeId) = some existing ∧
      input.landingHrcSeq ≤ existing.landingHrcSeq ∧
      recordPresentation input now t = .ok (⟨false, existing⟩, t)) ∨
    (t.find (input.envelopeId, input.runtimeId)).all (·.landingHrcSeq < input.landingHrcSeq) = true ∧
      ((input.wellFormed = false ∧ ∃ e, recordPresentation input now t = .error e) ∨
        input.wellFormed = true ∧ ∃ t', recordPresentation input now t =
          .ok (⟨true, input.row (trim input.targetSessionRef) now⟩, t') ∧
          t'.find (input.envelopeId, input.runtimeId) = some (input.row (trim input.targetSessionRef) now) ∧
          ∀ k, k ≠ (input.envelopeId, input.runtimeId) → t'.find k = t.find k) := by
  unfold recordPresentation getPresentation
  rcases hf : (t.find (input.envelopeId, input.runtimeId)).filter (·.landingHrcSeq ≥ input.landingHrcSeq)
    with _ | existing
  · refine .inr ⟨?_, ?_⟩
    · rcases hfn : t.find (input.envelopeId, input.runtimeId) with _ | r
      · rfl
      · rw [hfn] at hf
        simpa [Option.filter] using hf
    · rw [hf]
      rcases store_cases input now t with ⟨hi, e, he⟩ | ⟨hw, t', hs, hfn, hoth⟩
      · exact .inl ⟨hi, e, by rw [he]; rfl⟩
      · refine .inr ⟨hw, t', ?_, hfn, hoth⟩
        rw [hs]
        simp only [bind, Except.bind, hfn]
  · obtain ⟨hfn, hle⟩ := Option.filter_eq_some_iff.mp hf
    refine .inl ⟨existing, hfn, by simpa using hle, ?_⟩
    rw [hf]

theorem assign_pair (c : Call) (now : String) (r : HrcMailPresentation) : (c.assign now r).pair = r.pair := by
  cases c <;> rfl

theorem perform_update (c : Call) (now : String) (t : Ledger) : (∃ input, c = .recordPresentation input) ∨
    c.perform now t = .ok (t.hits c.pair c.guard, t.amend c.pair c.guard (c.assign now) (assign_pair c now)) ∧
      ∀ row, rowAfter now c row = row.map fun r => if c.guard r then c.assign now r else r := by
  cases c with
  | recordPresentation input => exact .inl ⟨input, rfl⟩
  | _ => exact .inr ⟨rfl, fun _ => rfl⟩

theorem find_step (c : Call) (now : String) (t : Ledger) (k : String × String) :
    (step (c, now) t).find k = if k = c.pair then rowAfter now c (t.find k) else t.find k := by
  unfold step
  rcases perform_update c now t with ⟨input, rfl⟩ | ⟨hpr, hrow⟩
  · simp only [Call.perform]
    by_cases hk : k = (input.envelopeId, input.runtimeId)
    · subst hk
      rcases record_cases input now t with
        ⟨existing, hf, hle, hr⟩ | ⟨hn, ⟨hi, e, hr⟩ | ⟨hw, t', hr, hf, -⟩⟩
      · rw [hr]
        simp [Except.map, Call.pair, rowAfter, hf, Int.not_lt.mpr hle]
      · rw [hr]
        simp [Except.map, Call.pair, rowAfter, hi]
      · rw [hr]
        simpa [Except.map, Call.pair, rowAfter, hw, hn] using hf
    · have hp : k ≠ (Call.recordPresentation input).pair := hk
      rw [if_neg hp]
      rcases record_cases input now t with
        ⟨existing, hf, hle, hr⟩ | ⟨hn, ⟨hi, e, hr⟩ | ⟨hw, t', hr, hf, hoth⟩⟩
      · rw [hr]
        rfl
      · rw [hr]
        rfl
      · rw [hr]
        exact hoth k hk
  · dsimp only
    rw [hpr, hrow]
    by_cases hk : k = c.pair
    · subst hk
      rw [if_pos rfl]
      exact find_amend_self (assign_pair c now)
    · rw [if_neg hk]
      exact find_amend_of_ne (assign_pair c now) hk

theorem step_eq_self (h : rowAfter now c (t.find c.pair) = t.find c.pair) : step (c, now) t = t := by
  unfold step
  rcases perform_update c now t with ⟨input, rfl⟩ | ⟨hpr, hrow⟩
  · simp only [Call.perform]
    rcases record_cases input now t with
      ⟨existing, hf, hle, hrec⟩ | ⟨hn, ⟨hi, e, hrec⟩ | ⟨hw, t', hrec, hf, -⟩⟩
    · rw [hrec]
      rfl
    · rw [hrec]
      rfl
    · exfalso
      simp only [rowAfter, Call.pair, hw, hn, Bool.and_self, if_true] at h
      have hs := h ▸ hn
      simp [PresentationInput.row] at hs
  · dsimp only
    rw [hpr]
    refine amend_eq_self (assign_pair c now) fun r hr hp => ?_
    rw [hrow, hr] at h
    simpa [hp] using h

theorem assign_landing (c : Call) (now : String) (r : HrcMailPresentation) :
    (c.assign now r).landingHrcSeq = r.landingHrcSeq := by
  cases c <;> rfl

theorem rowAfter_cases (c : Call) (now : String) (r : HrcMailPresentation) : ∃ r', rowAfter now c (some r) = some r' ∧
    (r' = r ∨ c.guard r = true ∧ r' = c.assign now r ∨ r.landingHrcSeq < r'.landingHrcSeq) := by
  rcases perform_update c now .empty with ⟨input, rfl⟩ | ⟨-, hr⟩
  · by_cases hn : (input.wellFormed && (some r).all (·.landingHrcSeq < input.landingHrcSeq)) = true
    · refine ⟨_, if_pos hn, .inr (.inr ?_)⟩
      simp only [Bool.and_eq_true, Option.all_some, decide_eq_true_eq] at hn
      exact hn.2
    · exact ⟨r, if_neg hn, .inl rfl⟩
  · rw [hr]
    cases hg : c.guard r with
    | false => exact ⟨r, by simp [hg], .inl rfl⟩
    | true => exact ⟨c.assign now r, by simp [hg], .inr (.inl ⟨rfl, rfl⟩)⟩

theorem step_cases {r : HrcMailPresentation} (h : t.find k = some r) (c : Call) (now : String) :
    ∃ r', (step (c, now) t).find k = some r' ∧
      (r' = r ∨ k = c.pair ∧ c.guard r = true ∧ r' = c.assign now r ∨ r.landingHrcSeq < r'.landingHrcSeq) := by
  rw [find_step, h]
  by_cases hk : k = c.pair
  · obtain ⟨r', hr', hc⟩ := rowAfter_cases c now r
    refine ⟨r', by rw [if_pos hk, hr'], ?_⟩
    rcases hc with rfl | ⟨hg, hass⟩ | hl
    · exact .inl rfl
    · exact .inr (.inl ⟨hk, hg, hass⟩)
    · exact .inr (.inr hl)
  · exact ⟨r, if_neg hk, .inl rfl⟩

end Steps

def Done : Call → HrcMailPresentation → Prop
  | .recordPresentation input, r => input.landingHrcSeq ≤ r.landingHrcSeq
  | .markReceiptCommitted .., r => r.receiptCommittedAt.isSome
  | .armReminder .., r => r.reminderArmedAt.isSome
  | .recordReminderLanding .., r => r.reminderLandingHrcSeq.isSome
  | .retireReminder .., r => r.reminderArmedAt.isSome ∧ r.reminderDueAt = none
  | .recordDisposition .., r => r.disposedAt.isSome

def Closed (r : HrcMailPresentation) : Prop :=
  r.disposedAt.isSome ∨ r.reminderArmedAt.isSome ∧ r.reminderDueAt = none

def ArmedWhenDue (t : Ledger) : Prop :=
  ∀ k r, t.find k = some r → r.reminderDueAt.isSome → r.reminderArmedAt.isSome

section Laws

variable {c d : Call} {now : String} {t : Ledger} {k : String × String} {r r' : HrcMailPresentation}

theorem rowAfter_of_done (h : Done c r) (now : String) : rowAfter now c (some r) = some r := by
  cases c with
  | recordPresentation input => simp [rowAfter, Int.not_lt.mpr h]
  | markReceiptCommitted =>
    obtain ⟨committedAt, hc⟩ := isSome_iff_exists.mp h
    have hk : r.receiptCommittedAt.or (some now) = r.receiptCommittedAt := by
      rw [hc]
      rfl
    simp only [rowAfter, Call.guard, Call.assign, map_some, hk, if_true]
  | armReminder | recordReminderLanding | recordDisposition =>
    obtain ⟨value, hv⟩ := isSome_iff_exists.mp h
    simp [rowAfter, Call.guard, hv]
  | retireReminder => simp [rowAfter, Call.guard, h.2]

theorem done_assign (h : Done c r) (d : Call) (hg : d.guard r = true) (now : String) :
    Done c (d.assign now r) := by
  cases d with
  | recordPresentation input => exact h
  | armReminder =>
    cases c with
    | retireReminder =>
      obtain ⟨armedAt, har⟩ := isSome_iff_exists.mp h.1
      simp [Call.guard, har] at hg
    | _ => first | exact h | rfl
  | retireReminder =>
    cases c with
    | retireReminder => exact ⟨h.1, rfl⟩
    | _ => exact h
  | markReceiptCommitted =>
    cases c with
    | markReceiptCommitted => simp [Done, Call.assign]
    | _ => exact h
  | recordReminderLanding =>
    cases c with
    | recordReminderLanding => rfl
    | _ => exact h
  | recordDisposition =>
    cases c with
    | recordDisposition => rfl
    | _ => exact h

theorem done_step (h : Done c r) (hr : t.find k = some r) (d : Call) (now : String) :
    ∃ r', (step (d, now) t).find k = some r' ∧ (Done c r' ∨ r.landingHrcSeq < r'.landingHrcSeq) := by
  obtain ⟨r', hr', rfl | ⟨-, hg, rfl⟩ | hl⟩ := step_cases hr d now
  · exact ⟨r', hr', .inl h⟩
  · exact ⟨_, hr', .inl (done_assign h d hg now)⟩
  · exact ⟨r', hr', .inr hl⟩

theorem closed_not_due (h : Closed r) (target now : String) : isDue target now r = false := by
  rcases h with hd | ⟨-, hdue⟩
  · obtain ⟨disposedAt, hat⟩ := isSome_iff_exists.mp hd
    simp [isDue, hat]
  · simp [isDue, hdue]

theorem armedWhenDue_step (h : ArmedWhenDue t) (c : Call × String) : ArmedWhenDue (step c t) := by
  intro k r' hr' hd
  have hf := find_step c.1 c.2 t k
  rw [show step (c.1, c.2) t = step c t from rfl, hr'] at hf
  split at hf
  · rcases perform_update c.1 c.2 .empty with ⟨input, hi⟩ | ⟨-, hrow⟩
    · rw [hi] at hf
      simp only [rowAfter] at hf
      split at hf
      · cases some_inj.mp hf
        cases hd
      · exact h k r' hf.symm hd
    · rw [hrow] at hf
      obtain ⟨r, hr, hass⟩ := Option.map_eq_some_iff.mp hf.symm
      split at hass
      · subst hass
        have hold := h k r hr
        rcases c with ⟨_ | _ | _ | _ | _ | _, now⟩
        · exact hold hd
        · exact hold hd
        · rfl
        · exact hold hd
        · cases hd
        · exact hold hd
      · exact h k r' (hass ▸ hr) hd
  · exact h k r' hf.symm hd

theorem armedWhenDue_run (cs : List (Call × String)) : ArmedWhenDue (Schedule.run step cs .empty) :=
  Schedule.run_invariant (I := ArmedWhenDue) (fun _ c h _ => armedWhenDue_step h c)
    (fun _ _ h => by cases h) Schedule.meets_true

theorem landing_run (hr : t.find k = some r) (ds : List (Call × String)) :
    ∃ r', (Schedule.run step ds t).find k = some r' ∧ r.landingHrcSeq ≤ r'.landingHrcSeq := by
  induction ds generalizing t r with
  | nil => exact ⟨r, hr, Int.le_refl _⟩
  | cons d ds ih =>
    obtain ⟨r₁, hr₁, hc⟩ := step_cases hr d.1 d.2
    have hle : r.landingHrcSeq ≤ r₁.landingHrcSeq := by
      rcases hc with rfl | ⟨-, -, rfl⟩ | hl
      · exact Int.le_refl _
      · exact Int.le_of_eq (assign_landing d.1 d.2 r).symm
      · exact Int.le_of_lt hl
    obtain ⟨r', hr', hle'⟩ := ih hr₁
    exact ⟨r', hr', Int.le_trans hle hle'⟩

theorem done_run (h : Done c r) (hr : t.find k = some r) (ds : List (Call × String)) :
    ∃ r', (Schedule.run step ds t).find k = some r' ∧ (Done c r' ∨ r.landingHrcSeq < r'.landingHrcSeq) := by
  induction ds generalizing t r with
  | nil => exact ⟨r, hr, .inl h⟩
  | cons d ds ih =>
    obtain ⟨r₁, hr₁, hd | hl⟩ := done_step h hr d.1 d.2
    · obtain ⟨r₂, hr₂, hle⟩ := landing_run hr [d]
      obtain rfl : r₂ = r₁ := some_inj.mp (hr₂.symm.trans hr₁)
      obtain ⟨r', hr', hd' | hl⟩ := ih hd hr₁
      · exact ⟨r', hr', .inl hd'⟩
      · exact ⟨r', hr', .inr (Int.lt_of_le_of_lt hle hl)⟩
    · obtain ⟨r', hr', hle⟩ := landing_run hr₁ ds
      exact ⟨r', hr', .inr (Int.lt_of_lt_of_le hl hle)⟩

theorem presented_run (input : PresentationInput) (hw : input.wellFormed = true) (now : String) (t : Ledger) :
    ∃ r, (step (.recordPresentation input, now) t).find (input.envelopeId, input.runtimeId) = some r ∧
      Done (.recordPresentation input) r := by
  have hf := (find_step (.recordPresentation input) now t (input.envelopeId, input.runtimeId)).trans (if_pos rfl)
  rw [hf]
  simp only [rowAfter, hw, Bool.true_and]
  rcases t.find (input.envelopeId, input.runtimeId) with _ | r
  · exact ⟨_, rfl, Int.le_refl _⟩
  · by_cases hn : r.landingHrcSeq < input.landingHrcSeq
    · exact ⟨input.row (trim input.targetSessionRef) now, by simp [hn], Int.le_refl input.landingHrcSeq⟩
    · exact ⟨r, by simp [hn], Int.not_lt.mp hn⟩

theorem took_update (har : ArmedWhenDue t) (hc : ∀ input, c ≠ .recordPresentation input)
    (h : c.took now t = true) : ∃ r, t.find c.pair = some r ∧ c.guard r = true ∧
      (step (c, now) t).find c.pair = some (c.assign now r) ∧ Done c (c.assign now r) := by
  rcases perform_update c now t with ⟨input, rfl⟩ | ⟨hp, hrow⟩
  · exact absurd rfl (hc input)
  · rw [Call.took, hp] at h
    obtain ⟨r, hr, hg⟩ : ∃ r, t.find c.pair = some r ∧ c.guard r = true := by
      rcases hr : t.find c.pair with _ | r
      · simp [Store.hits, hr] at h
      · exact ⟨r, rfl, by simpa [Store.hits, hr] using h⟩
    refine ⟨r, hr, hg, ?_, ?_⟩
    · rw [find_step, if_pos rfl, hrow, hr]
      simp [hg]
    · cases c with
      | recordPresentation input => exact absurd rfl (hc input)
      | markReceiptCommitted => simp [Done, Call.assign]
      | armReminder | recordReminderLanding | recordDisposition => rfl
      | retireReminder =>
        simp only [Call.guard, Bool.and_eq_true] at hg
        exact ⟨har _ r hr hg.1, rfl⟩

end Laws

section Runs

inductive Mark where
  | arm | reminderLanding | disposition
  deriving DecidableEq

def Call.mark : Call → Option Mark
  | armReminder .. => some .arm
  | recordReminderLanding .. => some .reminderLanding
  | recordDisposition .. => some .disposition
  | _ => none

def takes (m : Mark) (k : String × String) : List (Call × String) → Ledger → List Int
  | [], _ => []
  | c :: cs, t =>
    (if c.1.mark = some m ∧ c.1.pair = k ∧ c.1.took c.2 t = true then ((t.find k).map (·.landingHrcSeq)).toList
      else []) ++ takes m k cs (step c t)

def seen (k : String × String) (cs : List (Call × String)) : List Int :=
  cs.filterMap fun c => match c.1 with
    | .recordPresentation input =>
      if input.wellFormed = true ∧ (input.envelopeId, input.runtimeId) = k then some input.landingHrcSeq else none
    | _ => none

variable {t : Ledger} {k : String × String}

theorem mark_isSet {c : Call} {m : Mark} (hm : c.mark = some m) {r : HrcMailPresentation} (hg : c.guard r = true)
    (d : Call) (hd : d.mark = some m) : ¬ Done d r := by
  cases m <;> cases c <;> cases d <;> simp_all [Call.mark, Call.guard, Done]

/-- The marked landings of a run only go up, and start above a landing that is already marked. -/
theorem takes_pairwise (m : Mark) (k : String × String) (cs : List (Call × String)) (ht : ArmedWhenDue t) :
    (takes m k cs t).Pairwise (· < ·) ∧ ∀ r, t.find k = some r → ∀ L ∈ takes m k cs t,
      r.landingHrcSeq ≤ L ∧ ∀ d : Call, d.mark = some m → Done d r → r.landingHrcSeq < L := by
  induction cs generalizing t with
  | nil => exact ⟨.nil, fun _ _ _ h => absurd h List.not_mem_nil⟩
  | cons c cs ih =>
    obtain ⟨hp, hbd⟩ := ih (armedWhenDue_step ht c)
    have htl (r : HrcMailPresentation) (hr : t.find k = some r) (L : Int) (hL : L ∈ takes m k cs (step c t)) :
        r.landingHrcSeq ≤ L ∧ ∀ d : Call, d.mark = some m → Done d r → r.landingHrcSeq < L := by
      obtain ⟨r₁, hr₁, hle⟩ := landing_run hr [c]
      obtain ⟨hle₁, hlt₁⟩ := hbd r₁ hr₁ L hL
      refine ⟨Int.le_trans hle hle₁, fun d hd hdn => ?_⟩
      obtain ⟨r₂, hr₂, hdone₂ | hl⟩ := done_run hdn hr [c]
      · obtain rfl : r₂ = r₁ := some_inj.mp (hr₂.symm.trans hr₁)
        exact Int.lt_of_le_of_lt hle (hlt₁ d hd hdone₂)
      · obtain rfl : r₂ = r₁ := some_inj.mp (hr₂.symm.trans hr₁)
        exact Int.lt_of_lt_of_le hl hle₁
    unfold takes
    by_cases hto : c.1.mark = some m ∧ c.1.pair = k ∧ c.1.took c.2 t = true
    · obtain ⟨hm, rfl, htk⟩ := hto
      have hn (input : PresentationInput) : c.1 ≠ .recordPresentation input := by
        intro h
        rw [h] at hm
        cases hm
      obtain ⟨r, hr, hg, hr₁, hdn⟩ := took_update ht hn htk
      rw [if_pos ⟨hm, rfl, htk⟩]
      have hh : ((t.find c.1.pair).map (·.landingHrcSeq)).toList = [r.landingHrcSeq] := by
        rw [hr]
        rfl
      rw [hh]
      refine ⟨List.pairwise_cons.mpr ⟨fun L hL => ?_, hp⟩, fun r' hr' L hL => ?_⟩
      · have hlt := (hbd _ hr₁ L hL).2 c.1 hm hdn
        rwa [assign_landing] at hlt
      · obtain rfl : r' = r := some_inj.mp (hr'.symm.trans hr)
        rcases List.mem_cons.mp hL with rfl | hL
        · exact ⟨Int.le_refl _, fun d hd hdn => absurd hdn (mark_isSet hm hg d hd)⟩
        · exact htl r' hr' L hL
    · rw [if_neg hto, List.nil_append]
      exact ⟨hp, htl⟩

theorem max?_append (l l' : List Int) : (l.max?.toList ++ l').max? = (l ++ l').max? := by
  cases l with
  | nil => rfl
  | cons n l =>
    rw [List.max?_cons', Option.toList_some, List.singleton_append, List.max?_cons', List.cons_append,
      List.max?_cons', List.foldl_append]

theorem seen_update {c : Call} (hc : ∀ input, c ≠ .recordPresentation input) (now : String) (k : String × String) :
    seen k [(c, now)] = [] := by
  cases c with
  | recordPresentation input => exact absurd rfl (hc input)
  | _ => rfl

theorem landing_step (c : Call × String) (t : Ledger) (k : String × String) :
    ((step c t).find k).map (·.landingHrcSeq) =
      (((t.find k).map (·.landingHrcSeq)).toList ++ seen k [c]).max? := by
  have hf : (step c t).find k = _ := find_step c.1 c.2 t k
  rw [hf]
  have hs (hsn : seen k [c] = []) (hrow : (rowAfter c.2 c.1 (t.find k)).map (·.landingHrcSeq) =
      (t.find k).map (·.landingHrcSeq)) : (if k = c.1.pair then rowAfter c.2 c.1 (t.find k) else t.find k).map
        (·.landingHrcSeq) = (((t.find k).map (·.landingHrcSeq)).toList ++ seen k [c]).max? := by
    rw [hsn, List.append_nil]
    split
    · rw [hrow]
      cases t.find k <;> rfl
    · cases t.find k <;> rfl
  by_cases hr : ∃ input, c.1 = .recordPresentation input
  · obtain ⟨input, hinp⟩ := hr
    by_cases hk : input.wellFormed = true ∧ (input.envelopeId, input.runtimeId) = k
    · have hp : k = c.1.pair := by
        rw [hinp]
        exact hk.2.symm
      have hsn : seen k [c] = [input.landingHrcSeq] := by
        simp [seen, hinp, hk]
      rw [if_pos hp, hinp, hsn]
      simp only [rowAfter, hk.1, Bool.true_and]
      rcases t.find k with _ | r
      · rfl
      · by_cases hlt : r.landingHrcSeq < input.landingHrcSeq
        · simp [hlt, PresentationInput.row, Int.max_eq_right (Int.le_of_lt hlt)]
        · simp [hlt, Int.max_eq_left (Int.not_lt.mp hlt)]
    · by_cases hp : k = c.1.pair
      · refine hs (by simp [seen, hinp, hk]) ?_
        have hi : input.wellFormed = false := by
          rw [hinp] at hp
          simpa [hp, Call.pair] using hk
        simp [hinp, rowAfter, hi]
      · rw [if_neg hp, show seen k [c] = [] by simp [seen, hinp, hk], List.append_nil]
        cases t.find k <;> rfl
  · rcases perform_update c.1 c.2 .empty with ⟨input, hinp⟩ | ⟨-, hrow⟩
    · exact absurd ⟨input, hinp⟩ hr
    · refine hs (seen_update (fun input hinp => hr ⟨input, hinp⟩) c.2 k) ?_
      rw [hrow]
      rcases t.find k with _ | r
      · rfl
      · simp only [map_some]
        split
        · rw [assign_landing]
        · rfl

theorem landing_eq_max (cs : List (Call × String)) (t : Ledger) (k : String × String) :
    ((Schedule.run step cs t).find k).map (·.landingHrcSeq) =
      (((t.find k).map (·.landingHrcSeq)).toList ++ seen k cs).max? := by
  induction cs generalizing t with
  | nil => cases h : t.find k <;> simp [Schedule.run, seen, h]
  | cons c cs ih =>
    have hs : seen k (c :: cs) = seen k [c] ++ seen k cs := by
      rw [seen, seen, seen, ← List.filterMap_append, List.singleton_append]
    rw [Schedule.run, ih, landing_step, max?_append, hs, List.append_assoc]

def landingAt (t : Ledger) (k : String × String) : Option Int := (t.find k).map (·.landingHrcSeq)

def Call.closes : Call → Bool
  | retireReminder .. | recordDisposition .. => true
  | _ => false

theorem run_split (before : List (Call × String)) (c : Call × String) (after : List (Call × String)) (t : Ledger) :
    Schedule.run step (before ++ c :: after) t =
      Schedule.run step after (step c (Schedule.run step before t)) := Schedule.run_append before (c :: after) t

theorem took_done {before : List (Call × String)} {c : Call × String} (after : List (Call × String))
    (hc : ∀ input, c.1 ≠ .recordPresentation input)
    (ht : c.1.took c.2 (Schedule.run step before .empty) = true)
    (hl : landingAt (Schedule.run step (before ++ c :: after) .empty) c.1.pair =
      landingAt (Schedule.run step (before ++ [c]) .empty) c.1.pair) :
    ∃ r, (Schedule.run step (before ++ c :: after) .empty).find c.1.pair = some r ∧ Done c.1 r := by
  obtain ⟨r, -, -, hr, hd⟩ := took_update (armedWhenDue_run before) hc ht
  rw [run_split] at hl ⊢
  rw [run_split] at hl
  obtain ⟨r', hr', hd' | hlat⟩ := done_run hd hr after
  · exact ⟨r', hr', hd'⟩
  · have hbef : landingAt (Schedule.run step [] (step c (Schedule.run step before .empty))) c.1.pair =
        some (c.1.assign c.2 r).landingHrcSeq := congrArg (Option.map HrcMailPresentation.landingHrcSeq) hr
    rw [hbef, landingAt, hr', map_some, some_inj] at hl
    omega

theorem record_done {cs : List (Call × String)} {input : PresentationInput} {now : String}
    (hm : (.recordPresentation input, now) ∈ cs) (hw : input.wellFormed = true) :
    ∃ r, (Schedule.run step cs .empty).find (input.envelopeId, input.runtimeId) = some r ∧
      Done (.recordPresentation input) r := by
  obtain ⟨before, after, rfl⟩ := List.append_of_mem hm
  rw [run_split]
  obtain ⟨r, hr, hd⟩ := presented_run input hw now (Schedule.run step before .empty)
  obtain ⟨r', hr', hd' | hl⟩ := done_run hd hr after
  · exact ⟨r', hr', hd'⟩
  · exact ⟨r', hr', Int.le_trans hd (Int.le_of_lt hl)⟩

/-- Over every run of calls on the ledger: the recorded landing is the greatest one offered; a
presentation offered again, and a call that took effect repeated while no later landing is recorded,
change nothing; a landing is armed, has its reminder landed and is disposed of at most once each; and
a retired or disposed presentation stays out of the due set until a later landing. -/
theorem presentation_ledger (cs : List (Call × String)) :
    (∀ k, landingAt (Schedule.run step cs .empty) k = (seen k cs).max?) ∧
    (∀ input now now', (.recordPresentation input, now) ∈ cs →
      step (.recordPresentation input, now') (Schedule.run step cs .empty) = Schedule.run step cs .empty) ∧
    (∀ before c after now', cs = before ++ c :: after → c.1.took c.2 (Schedule.run step before .empty) = true →
      landingAt (Schedule.run step cs .empty) c.1.pair =
        landingAt (Schedule.run step (before ++ [c]) .empty) c.1.pair →
      step (c.1, now') (Schedule.run step cs .empty) = Schedule.run step cs .empty) ∧
    (∀ m k, (takes m k cs .empty).Nodup) ∧
    (∀ before c after, cs = before ++ c :: after → c.1.closes = true →
      c.1.took c.2 (Schedule.run step before .empty) = true →
      landingAt (Schedule.run step cs .empty) c.1.pair =
        landingAt (Schedule.run step (before ++ [c]) .empty) c.1.pair →
      ∀ target now due, listDueReminders target now (Schedule.run step cs .empty) = .ok due →
        ∀ r ∈ due, r.pair ≠ c.1.pair) := by
  have hrp (input : PresentationInput) (now now' : String) (hm : (.recordPresentation input, now) ∈ cs) :
      step (.recordPresentation input, now') (Schedule.run step cs .empty) = Schedule.run step cs .empty := by
    refine step_eq_self ?_
    cases hw : input.wellFormed with
    | false => simp [rowAfter, hw]
    | true =>
      obtain ⟨r, hr, hd⟩ := record_done hm hw
      have hf : (Schedule.run step cs .empty).find (Call.recordPresentation input).pair = some r := hr
      rw [hf]
      exact rowAfter_of_done hd now'
  refine ⟨fun k => landing_eq_max cs .empty k, hrp, ?_, fun m k => ?_, ?_⟩
  · rintro before c after now' rfl htk hl
    by_cases hc : ∃ input, c.1 = .recordPresentation input
    · obtain ⟨input, hi⟩ := hc
      rw [hi]
      refine hrp input c.2 now' ?_
      rw [← hi]
      exact List.mem_append_right _ (List.mem_cons_self ..)
    · obtain ⟨r, hr, hd⟩ := took_done after (fun input h => hc ⟨input, h⟩) htk hl
      refine step_eq_self ?_
      rw [hr]
      exact rowAfter_of_done hd now'
  · exact ((takes_pairwise m k cs (armedWhenDue_run [])).1).imp fun h => Int.ne_of_lt h
  · rintro before c after rfl hclos htk hl target now due hdue r hm hp
    have hcl : ∀ r, Done c.1 r → Closed r := by
      intro r hd
      rcases c with ⟨_ | _ | _ | _ | _ | _, _⟩
      all_goals first | exact .inr hd | exact .inl hd | cases hclos
    have hc (input : PresentationInput) : c.1 ≠ .recordPresentation input := by
      intro h
      rw [h] at hclos
      cases hclos
    obtain ⟨r', hr', hd⟩ := took_done after hc htk hl
    unfold listDueReminders at hdue
    rcases ht : normalizeTarget target with e | target'
    · rw [ht] at hdue
      cases hdue
    rw [ht] at hdue
    cases hdue
    obtain ⟨hr, hid⟩ := List.mem_filter.mp ((List.mem_insertionSort _).mp hm)
    have hf := find_of_mem hr
    rw [hp, hr', some_inj] at hf
    subst hf
    rw [closed_not_due (hcl _ hd)] at hid
    cases hid

/-- A disposition repeated after a later landing disposes of that landing as well. -/
theorem disposition_repeated_after_later_landing :
    let landing (seq : Int) : Call × String :=
      (.recordPresentation { envelopeId := "EN-1", runtimeId := "rt", targetSessionRef := "seat"
                             presentationId := "p", deliveryOutcome := "landed", landingHrcSeq := seq }, "t0")
    let dispose : Call × String := (.recordDisposition "EN-1" "rt" "failed:ignored", "t1")
    let t := Schedule.run step [landing 5, dispose, landing 9] .empty
    dispose.1.took dispose.2 (Schedule.run step [landing 5] .empty) = true ∧
      (step dispose t).find ("EN-1", "rt") ≠ t.find ("EN-1", "rt") := by
  decide +kernel

end Runs

end HrcRuntime.MailDelivery
