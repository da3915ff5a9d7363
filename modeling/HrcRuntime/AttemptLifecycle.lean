import HrcRuntime.ParticipantRegistrationRepository

namespace HrcRuntime.Participant

open Json Records

variable {finish : ParticipantAttemptState} {m : Method}

theorem not_allowed_of_settled {start : ParticipantAttemptState} (h : start.isSettled = true)
    (reason : Option String) : allowsParticipantAttemptTransition start finish reason = false := by
  cases start <;> first | rfl | cases h

structure Lifecycle where
  state : ParticipantAttemptState
  dispositionReason : Option String
  hostingIntent : Option String
  realizedHosting : Option String
  dispatch : Option String
  brokerIdentity : Option String
  continuation : Option ContinuationSelection
  confirmedAt : Option String

namespace Lifecycle

def snapshot (l : Lifecycle) : SnapshotField → Option String
  | .hostingIntentJson => l.hostingIntent
  | .realizedHostingJson => l.realizedHosting
  | .dispatchJson => l.dispatch
  | .brokerIdentityJson => l.brokerIdentity

inductive Step (l : Lifecycle) : Lifecycle → Prop
  | stay : Step l l
  | move {finish : ParticipantAttemptState} {reason : Option String}
      (h : allowsParticipantAttemptTransition l.state finish reason = true) :
      Step l { l with state := finish, dispositionReason := reason }
  | activate {now : String} (hstate : l.state = .attachConfirmed) (hfresh : l.confirmedAt = none) :
      Step l { l with state := .active, confirmedAt := some now }
  | reattach (hstate : l.state = .attachConfirmed) : Step l { l with state := .active }
  | select {selection : ContinuationSelection} (h : l.continuation = none) :
      Step l { l with continuation := some selection }
  | record {l' : Lifecycle} (field : SnapshotField) (h : l.snapshot field = none)
      (hrest : ∀ other, other ≠ field → l'.snapshot other = l.snapshot other)
      (hsame : (l'.state, l'.dispositionReason, l'.continuation, l'.confirmedAt) =
        (l.state, l.dispositionReason, l.continuation, l.confirmedAt)) : Step l l'

structure WriteOnce (l l' : Lifecycle) : Prop where
  snapshots : ∀ field, (l.snapshot field).isSome = true → l'.snapshot field = l.snapshot field
  continuation : l.continuation.isSome = true → l'.continuation = l.continuation
  confirmedAt : l.confirmedAt.isSome = true → l'.confirmedAt = l.confirmedAt

theorem WriteOnce.refl (l : Lifecycle) : WriteOnce l l := ⟨fun _ _ => rfl, fun _ => rfl, fun _ => rfl⟩

theorem WriteOnce.trans {a b c : Lifecycle} (h : WriteOnce a b) (h' : WriteOnce b c) : WriteOnce a c where
  snapshots field ha := (h'.snapshots field (by rwa [h.snapshots field ha])).trans (h.snapshots field ha)
  continuation ha := (h'.continuation (by rwa [h.continuation ha])).trans (h.continuation ha)
  confirmedAt ha := (h'.confirmedAt (by rwa [h.confirmedAt ha])).trans (h.confirmedAt ha)

variable {l l' : Lifecycle}

theorem Step.writeOnce (h : Step l l') : WriteOnce l l' := by
  cases h with
  | stay => exact .refl l
  | move _ => exact ⟨fun field _ => by cases field <;> rfl, fun _ => rfl, fun _ => rfl⟩
  | activate _ hfr =>
    refine ⟨fun field _ => by cases field <;> rfl, fun _ => rfl, fun hsm => ?_⟩
    rw [hfr] at hsm
    cases hsm
  | reattach _ => exact ⟨fun field _ => by cases field <;> rfl, fun _ => rfl, fun _ => rfl⟩
  | select hn =>
    refine ⟨fun field _ => by cases field <;> rfl, fun hsm => ?_, fun _ => rfl⟩
    rw [hn] at hsm
    cases hsm
  | record field hn hr hs =>
    simp only [Prod.mk.injEq] at hs
    refine ⟨fun other hsm => ?_, fun _ => hs.2.2.1, fun _ => hs.2.2.2⟩
    refine hr other fun heq => ?_
    rw [heq, hn] at hsm
    cases hsm

theorem Step.edge (h : Step l l') :
    l'.state = l.state ∨ allowsParticipantAttemptTransition l.state l'.state l'.dispositionReason = true ∨
      l.state = .attachConfirmed ∧ l'.state = .active := by
  cases h with
  | stay => exact .inl rfl
  | move h => exact .inr (.inl h)
  | activate hst _ => exact .inr (.inr ⟨hst, rfl⟩)
  | reattach hst => exact .inr (.inr ⟨hst, rfl⟩)
  | select _ => exact .inl rfl
  | record _ _ _ hs =>
    simp only [Prod.mk.injEq] at hs
    exact .inl hs.1

theorem Step.absorbing (h : Step l l') (hset : l.state.isSettled = true) :
    l'.state = l.state := by
  rcases h.edge with hs | hok | ⟨hst, -⟩
  · exact hs
  · rw [not_allowed_of_settled hset] at hok
    cases hok
  · rw [hst] at hset
    cases hset

end Lifecycle

structure Work where
  state : EstablishmentWorkState
  attemptCount : Int
  replacing : Bool

namespace Work

inductive Event where
  | failed (maxAttempts : Int)
  | settled | stored
  | cancelled (work : EstablishmentWork)
  | parked | restarted | rearmed

def after (w : Work) : Event → Work
  | .failed maxAttempts =>
    { w with
      state := if maxAttempts ≤ w.attemptCount + 1 then .exhausted else .retryWait
      attemptCount := w.attemptCount + 1 }
  | .settled => { w with state := .completed }
  | .stored => { w with state := .pending, replacing := true }
  | .cancelled work => ⟨work.state, work.attemptCount, false⟩
  | .parked => { w with state := .completed }
  | .restarted => { w with state := .pending, attemptCount := 0 }
  | .rearmed => { w with state := .pending }

def Allows (w : Work) : Event → Prop
  | .failed _ | .settled => w.state.isOutstanding = true
  | .stored => w.replacing = false
  | .cancelled _ | .parked => w.replacing = true
  | .restarted => True
  | .rearmed => w.state = .completed

def Event.Continues : Event → Prop
  | .restarted | .rearmed => False
  | _ => True

def demand (state : EstablishmentWorkState) (attemptCount : Int) : Int :=
  if state = .exhausted then attemptCount else attemptCount + 1

/-- What an event makes of the failures allowed: an intent stored on exhausted work asks for one more attempt, a
cancelled intent for what it restores. -/
def allowance (w : Work) (allowed : Int) : Event → Int
  | .stored => if w.state = .exhausted then max allowed (w.attemptCount + 1) else allowed
  | .cancelled work => max allowed (demand work.state work.attemptCount)
  | _ => allowed

structure Within (allowed : Int) (w : Work) : Prop where
  count : w.attemptCount ≤ allowed
  outstanding : w.state.isOutstanding = true → w.attemptCount < allowed
  unowned : w.replacing = false → w.state ≠ .exhausted → w.attemptCount < allowed

variable {w : Work}

theorem Within.after {maximum allowed : Int} (h : Within allowed w) (hm : maximum ≤ allowed) {e : Event}
    (hall : w.Allows e) (hcn : e.Continues)
    (hf : ∀ maxAttempts, e = .failed maxAttempts → maxAttempts ≤ maximum) :
    Within (w.allowance allowed e) (w.after e) := by
  obtain ⟨hc, hot, hu⟩ := h
  cases e with
  | failed maxAttempts =>
    have hl := hot hall
    have hbd := hf maxAttempts rfl
    by_cases hs : maxAttempts ≤ w.attemptCount + 1
    · simp only [Work.after, allowance, if_pos hs]
      constructor
      · dsimp only
        omega
      · intro hout
        cases hout
      · intro _ hne
        exact absurd rfl hne
    · simp only [Work.after, allowance, if_neg hs]
      constructor <;> dsimp only <;> intros <;> omega
  | settled =>
    constructor
    · exact hc
    · intro hout
      cases hout
    · intro _ _
      exact hot hall
  | stored =>
    have hfr : (w.after .stored).replacing ≠ false := fun hfr => by cases hfr
    simp only [allowance]
    split
    · refine ⟨?_, fun _ => ?_, fun h => absurd h hfr⟩ <;> simp only [Work.after] <;> omega
    · rename_i hne
      have hl := hu hall hne
      exact ⟨hc, fun _ => hl, fun h => absurd h hfr⟩
  | cancelled work =>
    simp only [Work.after, allowance, demand]
    split
    · rename_i hs
      constructor
      · exact Int.le_max_right _ _
      · intro hout
        rw [hs] at hout
        cases hout
      · intro _ hne
        exact absurd hs hne
    · constructor <;> dsimp only <;> intros <;> omega
  | parked =>
    constructor
    · exact hc
    · intro hout
      cases hout
    · intro hfr _
      rw [show (w.after .parked).replacing = true from hall] at hfr
      cases hfr
  | restarted => exact hcn.elim
  | rearmed => exact hcn.elim

theorem le_allowance (w : Work) (allowed : Int) (e : Event) : allowed ≤ w.allowance allowed e := by
  cases e with
  | stored =>
    simp only [allowance]
    split
    · exact Int.le_max_left _ _
    · exact Int.le_refl _
  | cancelled work => exact Int.le_max_left _ _
  | failed _ | settled | parked | restarted | rearmed => exact Int.le_refl _

theorem Within.mono {allowed allowed' : Int} (h : Within allowed w) (hle : allowed ≤ allowed') :
    Within allowed' w := by
  obtain ⟨hc, hot, hu⟩ := h
  exact ⟨Int.le_trans hc hle, fun hout => Int.lt_of_lt_of_le (hot hout) hle,
    fun hf hne => Int.lt_of_lt_of_le (hu hf hne) hle⟩

theorem exhausted_left (he : w.state = .exhausted) {e : Event} (hall : w.Allows e)
    (hc : e.Continues) : e = .stored ∨ (∃ work, e = .cancelled work) ∨ e = .parked := by
  cases e with
  | failed _ =>
    simp only [Allows, he] at hall
    cases hall
  | settled =>
    simp only [Allows, he] at hall
    cases hall
  | stored => exact .inl rfl
  | cancelled work => exact .inr (.inl ⟨work, rfl⟩)
  | parked => exact .inr (.inr rfl)
  | restarted => exact hc.elim
  | rearmed => exact hc.elim

end Work

namespace ParticipantAttempt

def lifecycle (r : ParticipantAttempt) : Lifecycle :=
  ⟨r.state, r.dispositionReason, r.hostingIntentJson, r.realizedHostingJson, r.dispatchJson, r.brokerIdentityJson,
    r.continuation, r.initialActivationConfirmedAt⟩

def work (r : ParticipantAttempt) : Work :=
  ⟨r.establishmentWorkState, r.establishmentAttemptCount, r.replacementIntentJson.isSome⟩

end ParticipantAttempt

def Method.event : Method → Option Work.Event
  | .recordEstablishmentFailure _ _ _ _ maxAttempts => some (.failed maxAttempts)
  | .markEstablishmentCompleted .. => some .settled
  | .storeReplacementIntent .. => some .stored
  | .cancelReplacementIntent _ _ work _ => some (.cancelled work)
  | .pauseReplacementWork .. | .completeReplacementWork .. => some .parked
  | .renewExhaustedReplacement .. | .attachPreparedDescriptor .. | .armParticipantReconnect .. => some .restarted
  | .rearmReplacementWork .. => some .rearmed
  | _ => none

variable {r : ParticipantAttempt} {parse : String → Option Json} {u : Update} {updatedAt : String}

theorem renew_plan {current : Option ParticipantAttempt} {reason : String}
    (h : renewExhaustedReplacement parse current reason updatedAt = .ok (some u)) :
    ∃ intentJson renewedJson, u = resetExhausted intentJson renewedJson updatedAt := by
  unfold renewExhaustedReplacement at h
  repeat' split at h
  all_goals first | exact ⟨_, _, (Option.some.inj (Except.ok.inj h)).symm⟩ | cases h

theorem recovery_plan {disposition : RecoveryDisposition} {reason : String}
    (h : recordRecoveryDisposition disposition reason updatedAt = .ok (some u)) (r : ParticipantAttempt) :
    (u.set r).lifecycle = r.lifecycle ∧ (u.set r).work = r.work := by
  unfold recordRecoveryDisposition at h
  split at h
  · cases h
  · rw [← Option.some.inj (Except.ok.inj h)]
    exact ⟨rfl, rfl⟩

theorem transition_plan {start : List ParticipantAttemptState}
    {reason : Option String} (h : transitionAttempt start finish updatedAt reason = .ok (some u))
    (happ : u.applies r = true) :
    allowsParticipantAttemptTransition r.state finish reason = true ∧
      (u.set r).lifecycle = { r.lifecycle with state := finish, dispositionReason := reason } ∧
      (u.set r).work = r.work := by
  unfold transitionAttempt at h
  split at h
  · cases h
  · rename_i hok
    rw [← Option.some.inj (Except.ok.inj h)] at happ ⊢
    simp only [Bool.or_eq_true, Bool.not_eq_true', not_or, Bool.not_eq_false, List.all_eq_true] at hok
    exact ⟨hok.2 r.state (List.contains_iff_mem.mp happ), rfl, rfl⟩

theorem setSnapshot_lifecycle {field : SnapshotField} {value : String}
    (h : (setSnapshotIfAbsent field value updatedAt).applies r = true) :
    Lifecycle.Step r.lifecycle ((setSnapshotIfAbsent field value updatedAt).set r).lifecycle := by
  refine .record field ?_ (fun other hne => ?_) ?_
  · cases field <;> exact Option.isNone_iff_eq_none.mp h
  · cases field <;> cases other <;> first | rfl | exact absurd rfl hne
  · cases field <;> rfl

/-- The statements of the repository keep to the life of an attempt. -/
theorem plan_lifecycle
    (h : plan parse (some r) m = .ok (some u)) (happ : u.applies r = true) :
    Lifecycle.Step r.lifecycle (u.set r).lifecycle := by
  cases m with
  | attachPreparedDescriptor epoch input now =>
    obtain rfl := Option.some.inj (Except.ok.inj h)
    simp only [attachPreparedDescriptor, Bool.and_eq_true, beq_iff_eq] at happ
    have hok : allowsParticipantAttemptTransition r.lifecycle.state .prepared r.dispositionReason = true := by
      rw [show r.lifecycle.state = .identityMinted from happ.1.1.2]
      rfl
    exact .move hok
  | recordContinuationSelectionIfAbsent selection state now =>
    obtain rfl := Option.some.inj (Except.ok.inj h)
    exact .select (Option.isNone_iff_eq_none.mp happ)
  | setSnapshotIfAbsent field value now =>
    obtain rfl := Option.some.inj (Except.ok.inj h)
    exact setSnapshot_lifecycle happ
  | confirmInitialActivation now =>
    obtain rfl := Option.some.inj (Except.ok.inj h)
    simp only [confirmInitialActivation, Bool.and_eq_true, beq_iff_eq] at happ
    exact .activate happ.1 (Option.isNone_iff_eq_none.mp happ.2)
  | confirmReattachment now =>
    obtain rfl := Option.some.inj (Except.ok.inj h)
    simp only [confirmReattachment, Bool.and_eq_true, beq_iff_eq] at happ
    exact .reattach happ.1
  | transitionAttempt start finish now reason =>
    obtain ⟨hok, hl, -⟩ := transition_plan h happ
    rw [hl]
    exact .move hok
  | renewExhaustedReplacement reason now =>
    obtain ⟨_, _, rfl⟩ := renew_plan (show renewExhaustedReplacement parse (some r) reason now = _ from h)
    exact .stay
  | recordRecoveryDisposition disposition reason now =>
    rw [(recovery_plan h r).1]
    exact .stay
  | recordWriterEvidence _ _ _ | storeReplacementIntent _ _ _ | replaceReplacementIntent _ _ _ _
  | cancelReplacementIntent _ _ _ _ | pauseReplacementWork _ _ _ _ | rearmReplacementWork _ _
  | completeReplacementWork _ _ _ _ | recordResumeOutcome _ _ _ _ | armParticipantReconnect _
  | recordEstablishmentFailure _ _ _ _ _ | markEstablishmentCompleted _ _ =>
    obtain rfl := Option.some.inj (Except.ok.inj h)
    exact .stay

theorem isSome_of_beq {json : Option String} {expected : String} (h : (json == some expected) = true) :
    json.isSome = true := by
  rw [beq_iff_eq.mp h]
  rfl

/-- The statements of the repository keep to what work allows, and leave it as its event does. -/
theorem plan_work
    (h : plan parse (some r) m = .ok (some u)) (happ : u.applies r = true) :
    match m.event with
    | none => (u.set r).work = r.work
    | some e => r.work.Allows e ∧ (u.set r).work = r.work.after e := by
  cases m with
  | storeReplacementIntent epoch json now =>
    obtain rfl := Option.some.inj (Except.ok.inj h)
    simp only [storeReplacementIntent, Bool.and_eq_true, Option.isNone_iff_eq_none] at happ
    exact ⟨congrArg Option.isSome happ.2, rfl⟩
  | replaceReplacementIntent epoch expected json now =>
    obtain rfl := Option.some.inj (Except.ok.inj h)
    simp only [replaceReplacementIntent, Bool.and_eq_true] at happ
    exact congrArg (Work.mk _ _) (isSome_of_beq happ.2).symm
  | cancelReplacementIntent epoch expected work now =>
    obtain rfl := Option.some.inj (Except.ok.inj h)
    simp only [cancelReplacementIntent, Bool.and_eq_true] at happ
    exact ⟨isSome_of_beq happ.2, rfl⟩
  | pauseReplacementWork epoch expected reason now =>
    obtain rfl := Option.some.inj (Except.ok.inj h)
    simp only [pauseReplacementWork, Bool.and_eq_true] at happ
    exact ⟨isSome_of_beq happ.2, rfl⟩
  | completeReplacementWork epoch expected json now =>
    obtain rfl := Option.some.inj (Except.ok.inj h)
    simp only [completeReplacementWork, Bool.and_eq_true] at happ
    exact ⟨isSome_of_beq happ.2, congrArg (Work.mk _ _) (isSome_of_beq happ.2).symm⟩
  | rearmReplacementWork reason now =>
    obtain rfl := Option.some.inj (Except.ok.inj h)
    simp only [rearmReplacementWork, Bool.and_eq_true, beq_iff_eq] at happ
    exact ⟨happ.2, rfl⟩
  | renewExhaustedReplacement reason now =>
    obtain ⟨_, _, rfl⟩ := renew_plan (show renewExhaustedReplacement parse (some r) reason now = _ from h)
    simp only [resetExhausted, Bool.and_eq_true] at happ
    exact ⟨trivial, congrArg (Work.mk _ _) (isSome_of_beq happ.2).symm⟩
  | recordEstablishmentFailure epoch failedAt next error maxAttempts =>
    obtain rfl := Option.some.inj (Except.ok.inj h)
    simp only [recordEstablishmentFailure, Bool.and_eq_true] at happ
    exact ⟨happ.2, rfl⟩
  | markEstablishmentCompleted epoch now =>
    obtain rfl := Option.some.inj (Except.ok.inj h)
    simp only [markEstablishmentCompleted, Bool.and_eq_true] at happ
    exact ⟨happ.2, rfl⟩
  | attachPreparedDescriptor _ _ _ | armParticipantReconnect _ =>
    obtain rfl := Option.some.inj (Except.ok.inj h)
    exact ⟨trivial, rfl⟩
  | recordRecoveryDisposition disposition reason now => exact (recovery_plan h r).2
  | transitionAttempt start finish now reason => exact (transition_plan h happ).2.2
  | setSnapshotIfAbsent field value now =>
    obtain rfl := Option.some.inj (Except.ok.inj h)
    cases field <;> rfl
  | recordWriterEvidence _ _ _ | recordContinuationSelectionIfAbsent _ _ _ | recordResumeOutcome _ _ _ _
  | confirmInitialActivation _ | confirmReattachment _ =>
    obtain rfl := Option.some.inj (Except.ok.inj h)
    rfl

theorem plan_fenced
    (h : plan parse (some r) m = .ok (some u)) (happ : u.applies r = true) {epoch : Nat}
    (hn : m.namedEpoch = some epoch) : epoch = r.attachEpoch := by
  cases m with
  | recordWriterEvidence _ _ _ | storeReplacementIntent _ _ _ | replaceReplacementIntent _ _ _ _
  | cancelReplacementIntent _ _ _ _ | pauseReplacementWork _ _ _ _ | completeReplacementWork _ _ _ _
  | attachPreparedDescriptor _ _ _ | recordResumeOutcome _ _ _ _ | recordEstablishmentFailure _ _ _ _ _
  | markEstablishmentCompleted _ _ =>
    obtain rfl := Option.some.inj (Except.ok.inj h)
    obtain rfl := Option.some.inj hn
    simp only [recordWriterEvidence, storeReplacementIntent, replaceReplacementIntent, cancelReplacementIntent,
      pauseReplacementWork, completeReplacementWork, attachPreparedDescriptor, recordResumeOutcome,
      recordEstablishmentFailure, markEstablishmentCompleted, Bool.and_eq_true, beq_iff_eq] at happ
    first
    | exact happ.symm
    | exact happ.1.symm
    | exact happ.1.1.1.symm
  | rearmReplacementWork _ _ | renewExhaustedReplacement _ _ | recordContinuationSelectionIfAbsent _ _ _
  | armParticipantReconnect _ | recordRecoveryDisposition _ _ _ | setSnapshotIfAbsent _ _ _
  | confirmInitialActivation _ | confirmReattachment _ | transitionAttempt _ _ _ _ => cases hn

inductive Changed (parse : String → Option Json) (id : String) (r : ParticipantAttempt) :
    Call → ParticipantAttempt → Prop
  | same {call : Call} : Changed parse id r call r
  | ran {m : Method} {u : Update} (hplan : plan parse (some r) m = .ok (some u)) (happlies : u.applies r = true) :
      Changed parse id r (.attempt id m) (u.set r)

theorem Attempts.perform_changed {t t' : Attempts} {attemptId : String}
    {changed : Bool} (h : t.perform parse attemptId m = .ok (changed, t')) {id : String}
    (hr : t.getAttempt id = some r) :
    ∃ r', t'.getAttempt id = some r' ∧ Changed parse id r (.attempt attemptId m) r' := by
  unfold Attempts.perform at h
  cases hp : plan parse (t.getAttempt attemptId) m with
  | error e =>
    rw [hp] at h
    cases h
  | ok statement =>
    cases statement with
    | none =>
      rw [hp] at h
      obtain ⟨-, rfl⟩ := Prod.mk.inj (Except.ok.inj h)
      exact ⟨r, hr, .same⟩
    | some u =>
      rw [hp] at h
      have hg := Attempts.getAttempt_run h id
      rw [hr, Option.map_some] at hg
      refine ⟨_, hg, ?_⟩
      split
      · rename_i hc
        obtain rfl : id = attemptId := (Keyed.find_mem hr).2.symm.trans hc.1
        rw [hr] at hp
        exact .ran hp hc.2
      · exact .same

theorem ran_attempts (s : Repository) (result : Except RepositoryError (Bool × Registrations)) :
    (Repository.step.ran s result).attempts = s.attempts := by cases result <;> rfl

theorem step_changed (parse : String → Option Json) {s : Repository} {id : String}
    (hr : s.attempts.getAttempt id = some r) (call : Call) :
    ∃ r', (Repository.step parse call s).attempts.getAttempt id = some r' ∧ Changed parse id r call r' := by
  cases call with
  | insertRegistration record =>
    refine ⟨r, ?_, .same⟩
    simp only [Repository.step]
    cases insertRegistration s.registrations record <;> exact hr
  | updateForHostSuccessor _ _ _ _ _ _ _ _ | updateForBridgeSuccessor _ _ _ _ _ _
  | setServingSocketPathIfAbsent _ _ _ =>
    refine ⟨r, ?_, .same⟩
    simp only [Repository.step, ran_attempts]
    exact hr
  | insertAttempt record =>
    refine ⟨r, ?_, .same⟩
    simp only [Repository.step]
    cases h : s.insertAttempt record with
    | error _ => exact hr
    | ok attempts =>
      unfold Repository.insertAttempt at h
      split at h
      · exact Attempts.getAttempt_insert h hr
      · cases h
  | attempt attemptId m =>
    simp only [Repository.step]
    cases h : s.attempts.perform parse attemptId m with
    | error _ => exact ⟨r, hr, .same⟩
    | ok result => exact Attempts.perform_changed h hr

end HrcRuntime.Participant
