import HrcRuntime.AttemptLifecycle

namespace HrcRuntime.Participant

open Json Lifecycle Records Schedule

variable {parse : String → Option Json} {id : String} {s : Repository} {r : ParticipantAttempt}

def Call.namedEpoch : Call → Option Nat
  | .attempt _ m => m.namedEpoch
  | _ => none

/-- What a call does to the work of the attempt `id`, whose row is `r`. -/
def Call.event (parse : String → Option Json) (id : String) (r : ParticipantAttempt) : Call → Option Work.Event
  | .attempt attemptId m =>
    if attemptId = id then
      match plan parse (some r) m with
      | .ok (some u) => if u.applies r then m.event else none
      | _ => none
    else none
  | _ => none

/-- A call that is no renewal, re-arm or preparation of the attempt, and fails it at `maximum` at the latest. -/
def Call.Keeps (id : String) (maximum : Int) : Call → Prop
  | .attempt attemptId m =>
    attemptId = id →
      (∀ e, m.event = some e → e.Continues) ∧ ∀ maxAttempts, m.event = some (.failed maxAttempts) → maxAttempts ≤ maximum
  | _ => True

def Call.Confirms (id : String) : Call → Prop
  | .attempt attemptId (.confirmInitialActivation _) | .attempt attemptId (.confirmReattachment _) => attemptId = id
  | _ => False

structure Obeys (parse : String → Option Json) (id : String) (call : Call) (r r' : ParticipantAttempt) : Prop where
  edge : r'.state = r.state ∨ allowsParticipantAttemptTransition r.state r'.state r'.dispositionReason = true ∨
    r.state = .attachConfirmed ∧ r'.state = .active ∧ call.Confirms id
  absorbing : r.state.isSettled = true → r'.state = r.state
  writeOnce : WriteOnce r.lifecycle r'.lifecycle
  fenced : ∀ epoch, call.namedEpoch = some epoch → epoch ≠ r.attachEpoch → r' = r
  exhausted : ∀ maximum, call.Keeps id maximum → r.establishmentWorkState = .exhausted →
    r'.establishmentWorkState = .exhausted ∨ ∃ e, call.event parse id r = some e ∧
      (e = .stored ∨ (∃ work, e = .cancelled work) ∨ e = .parked)

theorem event_ran {m : Method} {u : Update} (hp : plan parse (some r) m = .ok (some u)) (happ : u.applies r = true) :
    (Call.attempt id m).event parse id r = m.event := by
  simp only [Call.event, hp, happ, if_true]

theorem plan_confirms {m : Method} {u : Update} (hp : plan parse (some r) m = .ok (some u)) (happ : u.applies r = true)
    (hst : r.state = .attachConfirmed) (hact : (u.set r).state = .active) : (Call.attempt id m).Confirms id := by
  have hm : (u.set r).state ≠ r.state := by
    rw [hst, hact]
    nofun
  cases m with
  | confirmInitialActivation _ | confirmReattachment _ => rfl
  | transitionAttempt start finish now reason =>
    obtain ⟨hok, hl, -⟩ := transition_plan hp happ
    rw [hst, show finish = .active from (congrArg Lifecycle.state hl).symm.trans hact] at hok
    cases hok
  | renewExhaustedReplacement reason now =>
    obtain ⟨_, _, rfl⟩ := renew_plan (show renewExhaustedReplacement parse (some r) reason now = _ from hp)
    exact absurd rfl hm
  | recordRecoveryDisposition disposition reason now =>
    exact absurd (congrArg Lifecycle.state (recovery_plan hp r).1) hm
  | attachPreparedDescriptor epoch input now =>
    obtain rfl := Option.some.inj (Except.ok.inj hp)
    cases hact
  | setSnapshotIfAbsent field value now =>
    obtain rfl := Option.some.inj (Except.ok.inj hp)
    exact absurd (by cases field <;> rfl) hm
  | recordWriterEvidence _ _ _ | storeReplacementIntent _ _ _ | replaceReplacementIntent _ _ _ _
  | cancelReplacementIntent _ _ _ _ | pauseReplacementWork _ _ _ _ | rearmReplacementWork _ _
  | completeReplacementWork _ _ _ _ | recordContinuationSelectionIfAbsent _ _ _ | recordResumeOutcome _ _ _ _
  | armParticipantReconnect _ | recordEstablishmentFailure _ _ _ _ _ | markEstablishmentCompleted _ _ =>
    obtain rfl := Option.some.inj (Except.ok.inj hp)
    exact absurd rfl hm

theorem Obeys.refl (call : Call) (r : ParticipantAttempt) : Obeys parse id call r r :=
  ⟨.inl rfl, fun _ => rfl, .refl _, fun _ _ _ => rfl, fun _ _ h => .inl h⟩

variable {r' : ParticipantAttempt} {call : Call}

theorem Changed.obeys (h : Changed parse id r call r') :
    Obeys parse id call r r' := by
  cases h with
  | same => exact .refl call r
  | @ran m u hp happ =>
    have hl := plan_lifecycle hp happ
    refine ⟨?_, hl.absorbing, hl.writeOnce, fun epoch hn hne => ?_, fun maximum hkp he => ?_⟩
    · rcases hl.edge with hs | hok | ⟨hst, hact⟩
      · exact .inl hs
      · exact .inr (.inl hok)
      · exact .inr (.inr ⟨hst, hact, plan_confirms hp happ hst hact⟩)
    · exact absurd (plan_fenced hp happ hn) hne
    · have hw := plan_work hp happ
      cases hev : m.event with
      | none =>
        rw [hev] at hw
        exact .inl ((congrArg Work.state hw).trans he)
      | some e =>
        rw [hev] at hw
        refine .inr ⟨e, (event_ran hp happ).trans hev, ?_⟩
        exact Work.exhausted_left (w := r.work) he hw.1 ((hkp rfl).1 e hev)

theorem step_obeys (parse : String → Option Json) (hr : s.attempts.getAttempt id = some r) (call : Call) :
    ∃ r', (Repository.step parse call s).attempts.getAttempt id = some r' ∧ Obeys parse id call r r' := by
  obtain ⟨r', hr', hc⟩ := step_changed parse hr call
  exact ⟨r', hr', hc.obeys⟩

theorem run_writeOnce (parse : String → Option Json) (hr : s.attempts.getAttempt id = some r) (calls : List Call) :
    ∃ r', (run (Repository.step parse) calls s).attempts.getAttempt id = some r' ∧ WriteOnce r.lifecycle r'.lifecycle := by
  induction calls generalizing s r with
  | nil => exact ⟨r, hr, .refl _⟩
  | cons call calls ih =>
    obtain ⟨r₁, hr₁, hob⟩ := step_obeys parse hr call
    obtain ⟨r', hr', hl⟩ := ih hr₁
    exact ⟨r', hr', hob.writeOnce.trans hl⟩

def allowanceAfter (parse : String → Option Json) (id : String) (s : Repository) (call : Call) (allowed : Int) : Int :=
  match s.attempts.getAttempt id with
  | none => allowed
  | some r =>
    match call.event parse id r with
    | none => allowed
    | some e => r.work.allowance allowed e

/-- The failures allowed after a run: an intent stored on exhausted work asks for one attempt more, a cancelled
intent for what it restores. -/
def allowance (parse : String → Option Json) (id : String) : List Call → Repository → Int → Int
  | [], _, allowed => allowed
  | call :: calls, s, allowed =>
    allowance parse id calls (Repository.step parse call s) (allowanceAfter parse id s call allowed)

theorem le_allowanceAfter (call : Call) (allowed : Int) : allowed ≤ allowanceAfter parse id s call allowed := by
  unfold allowanceAfter
  split
  · exact Int.le_refl _
  · split
    · exact Int.le_refl _
    · exact Work.le_allowance _ _ _

theorem Changed.within (h : Changed parse id r call r')
    (hr : s.attempts.getAttempt id = some r) {maximum allowed : Int} (hm : maximum ≤ allowed)
    (hin : Work.Within allowed r.work) (hkp : call.Keeps id maximum) :
    Work.Within (allowanceAfter parse id s call allowed) r'.work := by
  cases h with
  | same => exact hin.mono (le_allowanceAfter call allowed)
  | @ran m u hp happ =>
    have hw := plan_work hp happ
    cases hev : m.event with
    | none =>
      rw [hev] at hw
      rw [show (u.set r).work = r.work from hw]
      exact hin.mono (le_allowanceAfter _ allowed)
    | some e =>
      rw [hev] at hw
      obtain ⟨hal, haft⟩ := hw
      obtain ⟨hc, hf⟩ := hkp rfl
      have hall : allowanceAfter parse id s (.attempt id m) allowed = r.work.allowance allowed e := by
        simp only [allowanceAfter, hr, event_ran hp happ, hev]
      rw [hall, haft]
      exact hin.after hm hal (hc e hev)
        fun maxAttempts he => hf maxAttempts (hev.trans (congrArg some he))

theorem run_within (parse : String → Option Json) (hr : s.attempts.getAttempt id = some r) {maximum allowed : Int} (hm : maximum ≤ allowed)
    (hin : Work.Within allowed r.work) {calls : List Call} (hkp : ∀ call ∈ calls, call.Keeps id maximum) :
    ∃ r', (run (Repository.step parse) calls s).attempts.getAttempt id = some r' ∧
      Work.Within (allowance parse id calls s allowed) r'.work := by
  induction calls generalizing s r allowed with
  | nil => exact ⟨r, hr, hin⟩
  | cons call calls ih =>
    obtain ⟨r₁, hr₁, hchg⟩ := step_changed parse hr call
    exact ih hr₁ (Int.le_trans hm (le_allowanceAfter call allowed))
      (hchg.within hr hm hin (hkp call List.mem_cons_self)) fun c hc => hkp c (List.mem_cons_of_mem _ hc)

def ConfirmsInitial (parse : String → Option Json) (id : String) (s : Repository) (call : Call) : Prop :=
  ∃ now t, call = .attempt id (.confirmInitialActivation now) ∧
    s.attempts.perform parse id (.confirmInitialActivation now) = .ok (true, t)

theorem ConfirmsInitial.rows (h : ConfirmsInitial parse id s call) :
    ∃ r r', s.attempts.getAttempt id = some r ∧ r.initialActivationConfirmedAt = none ∧
      (Repository.step parse call s).attempts.getAttempt id = some r' ∧ r'.initialActivationConfirmedAt.isSome = true := by
  obtain ⟨now, t, rfl, hp⟩ := h
  obtain ⟨r, hr, happ, haft⟩ := Attempts.run_changed (show s.attempts.run id (confirmInitialActivation now) = _ from hp)
  simp only [confirmInitialActivation, Bool.and_eq_true, Option.isNone_iff_eq_none] at happ
  refine ⟨r, (confirmInitialActivation now).set r, hr, happ.2, ?_, rfl⟩
  simp only [Repository.step, hp]
  exact haft

theorem confirms_once {before middle : List Call} {call' : Call}
    (h : ConfirmsInitial parse id (run (Repository.step parse) before s) call) :
    ¬ ConfirmsInitial parse id (run (Repository.step parse) (before ++ call :: middle) s) call' := by
  intro h'
  obtain ⟨-, r, -, -, hr, hc⟩ := h.rows
  obtain ⟨r', -, hr', hfr, -⟩ := h'.rows
  obtain ⟨r'', hr'', hl⟩ := run_writeOnce parse hr middle
  rw [run_append] at hr'
  obtain rfl : r'' = r' := Option.some.inj (hr''.symm.trans hr')
  have hk : r''.initialActivationConfirmedAt = r.initialActivationConfirmedAt := hl.confirmedAt hc
  rw [hfr] at hk
  rw [← hk] at hc
  cases hc

/-- An attempt through any run of calls: each changes it as the declared graph, the two confirmations and its epoch
allow; what is written once stays; and without a renewal, re-arm or preparation exhausted work is taken up through
a replacement's intent alone, and fails no oftener than allowed. -/
theorem attempt_lifecycle (parse : String → Option Json) {id : String} {s : Repository} {r : ParticipantAttempt}
    (hr : s.attempts.getAttempt id = some r) (calls : List Call) :
    ∃ r', (run (Repository.step parse) calls s).attempts.getAttempt id = some r' ∧
      WriteOnce r.lifecycle r'.lifecycle ∧
      (∀ before call after, calls = before ++ call :: after →
        ∃ r₁ r₂, (run (Repository.step parse) before s).attempts.getAttempt id = some r₁ ∧
          (run (Repository.step parse) (before ++ [call]) s).attempts.getAttempt id = some r₂ ∧
          Obeys parse id call r₁ r₂) ∧
      (∀ before call middle call' after, calls = before ++ call :: (middle ++ call' :: after) →
        ConfirmsInitial parse id (run (Repository.step parse) before s) call →
        ¬ ConfirmsInitial parse id (run (Repository.step parse) (before ++ call :: middle) s) call') ∧
      (∀ maximum, Work.Within maximum r.work → (∀ call ∈ calls, call.Keeps id maximum) →
        r'.establishmentAttemptCount ≤ allowance parse id calls s maximum) := by
  obtain ⟨r', hr', hwo⟩ := run_writeOnce parse hr calls
  refine ⟨r', hr', hwo, fun before call after _ => ?_, fun before call middle call' after _ h => ?_,
    fun maximum hin hkp => ?_⟩
  · obtain ⟨r₁, hr₁, -⟩ := run_writeOnce parse hr before
    obtain ⟨r₂, hr₂, hob⟩ := step_obeys parse hr₁ call
    refine ⟨r₁, r₂, hr₁, ?_, hob⟩
    rw [run_append]
    exact hr₂
  · exact confirms_once h
  · obtain ⟨r'', hr'', hc, -⟩ := run_within parse hr (Int.le_refl maximum) hin hkp
    obtain rfl := Option.some.inj (hr''.symm.trans hr')
    exact hc

namespace Sample

def policy : RegistrationPolicy := ⟨.selectedScope, .hostIncarnation, .externallyOwned, .none⟩

def registration : ParticipantRegistration where
  registrationId := "registration-1"
  join := .participantServed
  scopeRef := "agent:arris:project:hrc"
  laneRef := "main"
  hostSessionId := "session-1"
  generation := 1
  policy := some policy
  hostIncarnationId := some "host-a"
  createdAt := "t0"
  updatedAt := "t0"

def minted : ParticipantAttempt where
  attemptId := "attempt-1"
  registrationId := "registration-1"
  attachEpoch := 1
  requestId := "req-1"
  operationId := "op-1"
  invocationId := "inv-1"
  runtimeId := "rt-1"
  hostBindingId := some "binding-1"
  state := .identityMinted
  establishmentWorkState := .pending
  createdAt := "t0"
  updatedAt := "t0"

def joined : List Call := [.insertRegistration registration, .insertAttempt minted]

def moved (start finish : ParticipantAttemptState) : Call :=
  .attempt "attempt-1" (.transitionAttempt [start] finish "t2" none)

def attached : List Call :=
  joined ++ [.attempt "attempt-1" (.attachPreparedDescriptor 1 ⟨"descriptor", "env", none, none, none⟩ "t1"),
    moved .prepared .hostingIntentPersisted, moved .hostingIntentPersisted .realized, moved .realized .dispatchFrozen,
    moved .dispatchFrozen .installConfirmed, moved .installConfirmed .invocationReady,
    moved .invocationReady .attachConfirmed]

def failed : Call := .attempt "attempt-1" (.recordEstablishmentFailure 1 "t3" "t4" "unreachable" 1)

def replaced : Call := .attempt "attempt-1" (.storeReplacementIntent 1 "intent" "t5")

def paused : Call := .attempt "attempt-1" (.pauseReplacementWork 1 "intent" "held" "t6")

def repository (calls : List Call) : Repository := run (Repository.step fun _ => none) calls ⟨.empty, .empty⟩

def after (calls : List Call) : Option ParticipantAttempt := (repository calls).attempts.getAttempt "attempt-1"

end Sample

open Sample in
/-- A confirmation activates though the graph has no such edge; an intent stored on an attempt that has spent its one
try lets it fail once more; and pausing an intent completes exhausted work. -/
theorem attempt_lifecycle_departures :
    ((after attached).map (·.state) = some .attachConfirmed ∧
        (after (attached ++ [.attempt "attempt-1" (.confirmInitialActivation "t3")])).map (·.state) = some .active ∧
        ParticipantAttemptState.active ∉ ParticipantAttemptState.transitions .attachConfirmed) ∧
      (after (joined ++ [failed, replaced, failed])).map (·.establishmentAttemptCount) = some 2 ∧
      (after (joined ++ [replaced, failed])).map (·.establishmentWorkState) = some .exhausted ∧
      (after (joined ++ [replaced, failed, paused])).map (·.establishmentWorkState) = some .completed := by
  decide +kernel

open Sample in
theorem attempt_lifecycle_sample :
    ∃ r', (run (Repository.step fun _ => none) [failed, replaced, failed] (repository joined)).attempts.getAttempt
        "attempt-1" = some r' ∧ WriteOnce minted.lifecycle r'.lifecycle ∧ r'.establishmentAttemptCount ≤ 2 := by
  have hr : (repository joined).attempts.getAttempt "attempt-1" = some minted := by decide +kernel
  obtain ⟨r', hr', hwriteOnce, -, -, hcount⟩ := attempt_lifecycle (fun _ => none) hr [failed, replaced, failed]
  have hfailed : failed.Keeps "attempt-1" 1 := fun _ =>
    ⟨fun e he => Option.some.inj he ▸ trivial, fun n hn => by cases hn; decide⟩
  have hreplaced : replaced.Keeps "attempt-1" 1 := fun _ =>
    ⟨fun e he => Option.some.inj he ▸ trivial, fun n hn => by cases hn⟩
  have hkeeps : ∀ call ∈ [failed, replaced, failed], call.Keeps "attempt-1" 1 := by
    simp only [List.mem_cons, List.not_mem_nil, or_false]
    rintro call (rfl | rfl | rfl)
    · exact hfailed
    · exact hreplaced
    · exact hfailed
  have hallowance : allowance (fun _ => none) "attempt-1" [failed, replaced, failed] (repository joined) 1 = 2 := by
    decide +kernel
  refine ⟨r', hr', hwriteOnce, ?_⟩
  rw [← hallowance]
  exact hcount 1 ⟨by decide, fun _ => by decide, fun _ _ => by decide⟩ hkeeps

end HrcRuntime.Participant
