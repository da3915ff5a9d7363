import HrcRuntime.OfflineEvidence

namespace HrcRuntime.RetentionHold

open Records Database Repositories Schedule RuntimeExclusiveOwner
open OfflineEvidenceOutcomes OfflineEvidenceAttempt OfflineEvidence

def settledOutcome (r : Option RetainedEvidenceOutcomeRecord) : Bool :=
  r.any fun r => r.outcome == "recovered" || r.outcome == "operator_disposed"

def holds (r : Option RetainedEvidenceOutcomeRecord) : Bool := outcomeHoldsEvidence (r.map (·.outcome))

def bound (s : Evidence) (runtimeId : String) : Bool :=
  ((getByRuntimeId s.db runtimeId).bind persistedAspdExecutionRelease).isSome

def Held (s : Evidence) (runtimeId invocationId : String) : Prop :=
  bound s runtimeId = true ∧ holds (s.latest runtimeId invocationId) = true

def byOperator (s : Evidence) : OfflineEvidence.Action → Bool
  | .recover _ trigger _ _ => trigger == .operator
  | .judged task _ _ | .read task _ _ | .threw task => s.attempts[task]?.any (·.trigger == .operator)
  | .dispose .. => true
  | .attach _ | .sweep .. => false

structure Settles (s : Evidence) (a : OfflineEvidence.Action) (s' : Evidence) : Prop where
  kept : byOperator s a = false → ∀ runtimeId invocationId, settledOutcome (s.latest runtimeId invocationId) = true →
    s'.latest runtimeId invocationId = s.latest runtimeId invocationId
  released : ∀ runtimeId invocationId, Held s runtimeId invocationId →
    holds (s'.latest runtimeId invocationId) = true ∨ settledOutcome (s'.latest runtimeId invocationId) = true

def AttachOverSettled (s : Evidence) (runtimeId : String) : Prop :=
  ∃ runtime ∈ getByRuntimeId s.db runtimeId, ∃ invocationId ∈ targetInvocationId s.db runtime,
    (s.attachOwners runtime.runtimeId).isSome = true ∧
      settledOutcome (s.latest runtime.runtimeId invocationId) = true

def InFlight (s : Evidence) (runtimeId : String) : Prop :=
  ∃ attempt ∈ s.attempts, attempt.phase ≠ .settled ∧ attempt.trigger ≠ .operator ∧
    attempt.runtime.runtimeId = runtimeId

/-- No automatic attempt meets an attach over a settled outcome, no disposition lands during an automatic
attempt, and no attempt that found its runtime unbound records over a bound one. -/
def Allowed (s : Evidence) : OfflineEvidence.Action → Prop
  | .recover runtimeId trigger _ _ => trigger = .operator ∨ ¬ AttachOverSettled s runtimeId
  | .dispose runtimeId _ _ _ => ¬ InFlight s runtimeId
  | .read task _ _ => ∀ attempt ∈ s.attempts[task]?, bound s attempt.runtime.runtimeId = true →
      (persistedAspdExecutionRelease attempt.runtime).isSome = true
  | _ => True

instance {s : Evidence} {runtimeId : String} : Decidable (AttachOverSettled s runtimeId) := by
  unfold AttachOverSettled
  infer_instance

instance {s : Evidence} {runtimeId : String} : Decidable (InFlight s runtimeId) := by
  unfold InFlight
  infer_instance

instance (s : Evidence) (a : OfflineEvidence.Action) : Decidable (Allowed s a) :=
  match a with
  | .recover .. => inferInstanceAs (Decidable (_ ∨ _))
  | .dispose .. => inferInstanceAs (Decidable (¬ _))
  | .read task .. => inferInstanceAs (Decidable (∀ attempt ∈ s.attempts[task]?, _ → _))
  | .attach _ | .judged .. | .threw _ | .sweep .. => isTrue trivial

section Outcomes

variable {s s' : Evidence} {r : RetainedEvidenceOutcomeRecord} {runtimeId invocationId : String}

theorem latest_append :
    (append r s).latest runtimeId invocationId =
      if r.runtimeId = runtimeId ∧ r.invocationId = invocationId then some r else s.latest runtimeId invocationId := by
  unfold Evidence.latest OfflineEvidence.latest append
  rw [List.filter_append]
  by_cases h : r.runtimeId = runtimeId ∧ r.invocationId = invocationId
  · rw [if_pos h, List.filter_cons_of_pos (by simpa using h)]
    exact List.getLast?_concat ..
  · rw [if_neg h, List.filter_cons_of_neg (by simpa using h), List.filter_nil, List.append_nil]

structure Wrote (P : String → String → RetainedEvidenceOutcomeRecord → Prop) (s s' : Evidence) : Prop where
  server : s'.toServer = s.toServer
  attempts : s'.attempts = s.attempts
  latest : ∀ runtimeId invocationId, s'.latest runtimeId invocationId = s.latest runtimeId invocationId ∨
    ∃ r, s'.latest runtimeId invocationId = some r ∧ P runtimeId invocationId r

theorem append_wrote : Wrote (fun runtimeId invocationId r' =>
    r' = r ∧ r.runtimeId = runtimeId ∧ r.invocationId = invocationId) s (append r s) := by
  refine ⟨rfl, rfl, fun runtimeId invocationId => ?_⟩
  rw [latest_append]
  split
  · rename_i h
    exact .inr ⟨r, rfl, rfl, h.1, h.2⟩
  · exact .inl rfl

theorem recordOperatorDisposition_wrote {by' reason at' : String} :
    Wrote (fun id _ r => id = runtimeId ∧ r.outcome = "operator_disposed") s
      (recordOperatorDisposition runtimeId by' reason at' s) := by
  unfold recordOperatorDisposition
  generalize listByRuntimeId s.db runtimeId = invocations
  suffices h : ∀ t, Wrote (fun id _ r => id = runtimeId ∧ r.outcome = "operator_disposed") s t →
      Wrote (fun id _ r => id = runtimeId ∧ r.outcome = "operator_disposed") s (invocations.foldl _ t) from
    h s ⟨rfl, rfl, fun _ _ => .inl rfl⟩
  induction invocations with
  | nil => exact fun t h => h
  | cons invocation invocations ih =>
    intro t h
    refine ih _ ?_
    dsimp only
    split
    · refine ⟨h.server, h.attempts, fun id inv => ?_⟩
      rw [latest_append]
      split
      · rename_i heq
        exact .inr ⟨_, rfl, heq.1.symm, rfl⟩
      · exact h.latest id inv
    · exact h

def Unbound (s : Evidence) (runtimeId id inv : String) (r : RetainedEvidenceOutcomeRecord) : Prop :=
  id = runtimeId ∧ bound s runtimeId = false ∧ s.latest id inv = none ∧
    r.outcome = "offline_reader_unsupported_unbound_release"

theorem recordUnboundBeforeSweep_wrote {at' : String} :
    Wrote (Unbound s runtimeId) s (recordUnboundBeforeSweep runtimeId at' s) := by
  unfold recordUnboundBeforeSweep
  split
  · exact ⟨rfl, rfl, fun _ _ => .inl rfl⟩
  rename_i hbd
  have hu : bound s runtimeId = false := Bool.eq_false_iff.mpr hbd
  generalize listByRuntimeId s.db runtimeId = invocations
  suffices h : ∀ t, Wrote (Unbound s runtimeId) s t → Wrote (Unbound s runtimeId) s (invocations.foldl _ t) from
    h s ⟨rfl, rfl, fun _ _ => .inl rfl⟩
  induction invocations with
  | nil => exact fun t h => h
  | cons invocation invocations ih =>
    intro t h
    refine ih _ ?_
    dsimp only
    split
    · exact h
    · rename_i hn
      refine ⟨h.server, h.attempts, fun id inv => ?_⟩
      rw [latest_append]
      split
      · rename_i heq
        refine .inr ⟨_, rfl, heq.1.symm, hu, ?_, rfl⟩
        rcases h.latest id inv with hs | ⟨r, hr, -⟩
        · rw [← hs, ← heq.1, ← heq.2]
          exact hn
        · rw [← heq.1, ← heq.2, hn] at hr
          cases hr
      · exact h.latest id inv

end Outcomes

section Invariants

variable {s s' : Evidence} {task : Nat} {attempt : RecoveryAttempt}

variable {runtimeId : String}

variable {a : RuntimeExclusiveOwner.Action} {attempt' : RecoveryAttempt} {flight : Flight}

theorem holds_step {t : Server}
    (hr : Registered t) (h : Holds t flight runtimeId) (ha : a ≠ .release flight) :
    Holds (RuntimeExclusiveOwner.step a t) flight runtimeId := by
  refine (step_registered hr).owned runtimeId flight ?_
  by_contra hd
  exact ha (step_move.ownFlight hr (hr.active runtimeId flight h) hd)

structure Inv (s : Evidence) : Prop where
  registered : Registered s.toServer
  held : ∀ (task : Nat) attempt, s.attempts[task]? = some attempt → attempt.phase ≠ .settled →
    Holds s.toServer attempt.flight attempt.runtime.runtimeId
  single : ∀ (task task' : Nat) attempt attempt', s.attempts[task]? = some attempt → s.attempts[task']? = some attempt' →
    attempt.phase ≠ .settled → attempt'.phase ≠ .settled → attempt.flight = attempt'.flight → task = task'
  prior : ∀ attempt ∈ s.attempts, attempt.phase = .judging → attempt.trigger ≠ .operator →
    settledOutcome (s.latest attempt.runtime.runtimeId attempt.invocationId) = true →
      settledOutcome attempt.prior = true
  unsettled : ∀ attempt ∈ s.attempts, attempt.phase = .reading → attempt.trigger ≠ .operator →
    settledOutcome (s.latest attempt.runtime.runtimeId attempt.invocationId) = false

theorem Inv.wrote {P : String → String → RetainedEvidenceOutcomeRecord → Prop} (h : Inv s) (hw : Wrote P s s')
    (hP : ∀ attempt ∈ s.attempts, attempt.phase ≠ .settled → attempt.trigger ≠ .operator →
      ∀ r, P attempt.runtime.runtimeId attempt.invocationId r → settledOutcome (some r) = false) : Inv s' := by
  refine ⟨hw.server ▸ h.registered, ?_, ?_, ?_, ?_⟩
  · rw [hw.server, hw.attempts]
    exact h.held
  · rw [hw.attempts]
    exact h.single
  · intro attempt hm hph ht hset
    rw [hw.attempts] at hm
    rcases hw.latest attempt.runtime.runtimeId attempt.invocationId with hs | ⟨r, hr, hp⟩
    · rw [hs] at hset
      exact h.prior attempt hm hph ht hset
    · rw [hr, hP attempt hm (by rw [hph]; decide) ht r hp] at hset
      cases hset
  · intro attempt hm hph ht
    rw [hw.attempts] at hm
    rcases hw.latest attempt.runtime.runtimeId attempt.invocationId with hs | ⟨r, hr, hp⟩
    · rw [hs]
      exact h.unsettled attempt hm hph ht
    · rw [hr]
      exact hP attempt hm (by rw [hph]; decide) ht r hp

theorem Inv.apart (h : Inv s) {task' : Nat} (hg : s.attempts[task]? = some attempt)
    (hg' : s.attempts[task']? = some attempt') (hph : attempt.phase ≠ .settled)
    (hp' : attempt'.phase ≠ .settled) (hid : attempt.runtime.runtimeId = attempt'.runtime.runtimeId) :
    task = task' := by
  have hh := h.held task attempt hg hph
  have hh' := h.held task' attempt' hg' hp'
  rw [← hid] at hh'
  exact h.single task task' attempt attempt' hg hg' hph hp' (hh.unique h.registered hh')

theorem getElem?_setAttempt {i : Nat} {found : RecoveryAttempt}
    (h : (setAttempt task attempt' s).attempts[i]? = some found) :
    i = task ∧ found = attempt' ∨ i ≠ task ∧ s.attempts[i]? = some found := by
  unfold setAttempt at h
  dsimp only at h
  rw [List.getElem?_set] at h
  split at h
  · rename_i hi
    split at h
    · exact .inl ⟨hi.symm, (Option.some.inj h).symm⟩
    · cases h
  · rename_i hi
    exact .inr ⟨fun h => hi h.symm, h⟩

theorem Inv.setAttempt (h : Inv s) (hg : s.attempts[task]? = some attempt) (hph : attempt.phase ≠ .settled)
    (hu : attempt.trigger ≠ .operator →
      settledOutcome (s.latest attempt.runtime.runtimeId attempt.invocationId) = false) :
    Inv (OfflineEvidence.setAttempt task { attempt with phase := .reading } s) := by
  refine ⟨h.registered, ?_, ?_, ?_, ?_⟩
  · intro i found hf hl
    rcases getElem?_setAttempt hf with ⟨-, rfl⟩ | ⟨-, hf⟩
    · exact h.held task attempt hg hph
    · exact h.held i found hf hl
  · intro i j found found' hf hf' hl hl' hfl
    rcases getElem?_setAttempt hf with ⟨rfl, rfl⟩ | ⟨-, hoth⟩ <;>
      rcases getElem?_setAttempt hf' with ⟨rfl, rfl⟩ | ⟨-, ho'⟩
    · rfl
    · exact h.single i j attempt found' hg ho' hph hl' hfl
    · exact h.single i j found attempt hoth hg hl hph hfl
    · exact h.single i j found found' hoth ho' hl hl' hfl
  · intro found hm hj
    obtain ⟨i, hf⟩ := List.mem_iff_getElem?.mp hm
    rcases getElem?_setAttempt hf with ⟨-, rfl⟩ | ⟨-, hf⟩
    · cases hj
    · exact h.prior found (List.mem_of_getElem? hf) hj
  · intro found hm hr
    obtain ⟨i, hf⟩ := List.mem_iff_getElem?.mp hm
    rcases getElem?_setAttempt hf with ⟨-, rfl⟩ | ⟨-, hf⟩
    · exact hu
    · exact h.unsettled found (List.mem_of_getElem? hf) hr

theorem Inv.settle (h : Inv s) (hg : s.attempts[task]? = some attempt) (hph : attempt.phase ≠ .settled) :
    Inv (OfflineEvidence.settle task attempt s) := by
  unfold OfflineEvidence.settle
  have hl (i : Nat) (found : RecoveryAttempt) (hf : (OfflineEvidence.setAttempt task
      { attempt with phase := .settled } s).attempts[i]? = some found) (hph : found.phase ≠ .settled) :
      i ≠ task ∧ s.attempts[i]? = some found := by
    rcases getElem?_setAttempt hf with ⟨-, rfl⟩ | hoth
    · exact absurd rfl hph
    · exact hoth
  have hreg : Registered (RuntimeExclusiveOwner.step (.release attempt.flight) s.toServer) :=
    step_registered h.registered
  refine ⟨hreg, ?_, ?_, ?_, ?_⟩
  · intro i found hf hl'
    obtain ⟨hne, hf⟩ := hl i found hf hl'
    refine holds_step h.registered (h.held i found hf hl') fun hrel => hne ?_
    injection hrel with hfl
    exact h.single i task found attempt hf hg hl' hph hfl.symm
  · intro i j found found' hf hf' hlive₁ hlive₂ hfl
    exact h.single i j found found' (hl i found hf hlive₁).2 (hl j found' hf' hlive₂).2 hlive₁ hlive₂ hfl
  · intro found hm hj
    obtain ⟨i, hf⟩ := List.mem_iff_getElem?.mp hm
    exact h.prior found (List.mem_of_getElem? (hl i found hf (by rw [hj]; decide)).2) hj
  · intro found hm hr
    obtain ⟨i, hf⟩ := List.mem_iff_getElem?.mp hm
    exact h.unsettled found (List.mem_of_getElem? (hl i found hf (by rw [hr]; decide)).2) hr

theorem Inv.owners (h : Inv s) (ha : ∀ flight, a ≠ .release flight) :
    Inv { s with toServer := RuntimeExclusiveOwner.step a s.toServer } :=
  ⟨step_registered h.registered,
    fun i found hf hl => holds_step h.registered (h.held i found hf hl) (ha _), h.single, h.prior,
    h.unsettled⟩

theorem acquire_ok {g : Registry}
    (h : (acquireRetainedRecoveryOwnership runtimeId g).1 = .ok flight) :
    acquireRetainedRecoveryOwnership runtimeId g = (.ok flight, (acquireRetainedRecoveryOwnership runtimeId g).2) := by
  rw [← h]

theorem acquire_attach {g : Registry}
    (h : (acquireRetainedRecoveryOwnership runtimeId g).1 = .error .attach) :
    (g.attachOwners runtimeId).isSome = true := by
  unfold acquireRetainedRecoveryOwnership at h
  split at h
  · assumption
  · split at h <;> cases h

/-- A new attempt in flight, which has read the latest outcome of its invocation. -/
theorem Inv.acquired (h : Inv s)
    (hacq : (acquireRetainedRecoveryOwnership runtimeId s.toRegistry).1 = .ok flight)
    (hrt : attempt.runtime.runtimeId = runtimeId) (hfl : attempt.flight = flight)
    (hph : attempt.phase = .judging)
    (hp : attempt.prior = s.latest attempt.runtime.runtimeId attempt.invocationId) :
    Inv { s with
      toServer := RuntimeExclusiveOwner.step (.recover runtimeId) s.toServer
      attempts := s.attempts ++ [attempt] } := by
  have hfu := acquire_ok hacq
  obtain ⟨hatt, hrec, hnx, hg⟩ := acquire_eq_ok hfu
  obtain ⟨hun, hu⟩ := h.registered.fresh s.nextFlight (Nat.le_refl _)
  have hst : RuntimeExclusiveOwner.step (.recover runtimeId) s.toServer =
      { s.toServer with
        toRegistry := (acquireRetainedRecoveryOwnership runtimeId s.toRegistry).2
        recoveries := Function.update s.recoveries flight (some runtimeId) } := by
    unfold RuntimeExclusiveOwner.step
    dsimp only
    rw [hfu]
  have hn : Holds (RuntimeExclusiveOwner.step (.recover runtimeId) s.toServer) flight runtimeId := by
    rw [hst, hg]
    refine ⟨Function.update_self .., ?_⟩
    rw [hnx]
    exact hu
  have hc (i : Nat) (found : RecoveryAttempt) (hf : (s.attempts ++ [attempt])[i]? = some found) :
      s.attempts[i]? = some found ∨ i = s.attempts.length ∧ found = attempt := by
    rw [List.getElem?_append] at hf
    split at hf
    · exact .inl hf
    · rename_i hl
      rw [List.getElem?_singleton] at hf
      split at hf
      · exact .inr ⟨by omega, (Option.some.inj hf).symm⟩
      · cases hf
  have hoth (i : Nat) (found : RecoveryAttempt) (hf : s.attempts[i]? = some found)
      (hlv : found.phase ≠ .settled) : found.flight ≠ flight := by
    rintro hs
    have hh := (h.held i found hf hlv).1
    rw [hs, hnx, hun] at hh
    cases hh
  have hreg : Registered (RuntimeExclusiveOwner.step (.recover runtimeId) s.toServer) :=
    step_registered h.registered
  refine ⟨hreg, ?_, ?_, ?_, ?_⟩
  · intro i found hf hlv
    rcases hc i found hf with hold | ⟨-, rfl⟩
    · exact holds_step h.registered (h.held i found hold hlv) nofun
    · rw [hrt, hfl]
      exact hn
  · intro i j found found' hf hf' hlv hl' hs
    rcases hc i found hf with hold | ⟨hi, rfl⟩ <;> rcases hc j found' hf' with ho' | ⟨hj, rfl⟩
    · exact h.single i j found found' hold ho' hlv hl' hs
    · exact absurd (hs.trans hfl) (hoth i found hold hlv)
    · exact absurd (hs.symm.trans hfl) (hoth j found' ho' hl')
    · exact hi.trans hj.symm
  · intro found hm hjd ht hset
    rcases List.mem_append.mp hm with hold | hn
    · exact h.prior found hold hjd ht hset
    · obtain rfl := List.mem_singleton.mp hn
      rw [hp]
      exact hset
  · intro found hm hr ht
    rcases List.mem_append.mp hm with hold | hn
    · exact h.unsettled found hold hr ht
    · obtain rfl := List.mem_singleton.mp hn
      rw [hph] at hr
      cases hr

end Invariants

section Steps

variable {s s' : Evidence} {a : OfflineEvidence.Action} {r : RetainedEvidenceOutcomeRecord} {task : Nat}
  {attempt : RecoveryAttempt}

theorem Settles.same (h : s'.retainedEvidenceOutcomes = s.retainedEvidenceOutcomes) : Settles s a s' := by
  have hl (runtimeId invocationId : String) :
      s'.latest runtimeId invocationId = s.latest runtimeId invocationId := by
    unfold Evidence.latest
    rw [h]
  refine ⟨fun _ runtimeId invocationId _ => hl _ _, fun runtimeId invocationId hh => .inl ?_⟩
  rw [hl]
  exact hh.2

theorem Settles.recorded (h : s'.retainedEvidenceOutcomes = (append r s).retainedEvidenceOutcomes)
    (hk : byOperator s a = false → settledOutcome (s.latest r.runtimeId r.invocationId) = false)
    (hreleased : bound s r.runtimeId = true → holds (some r) = true ∨ settledOutcome (some r) = true) :
    Settles s a s' := by
  have hl (runtimeId invocationId : String) : s'.latest runtimeId invocationId =
      if r.runtimeId = runtimeId ∧ r.invocationId = invocationId then some r else s.latest runtimeId invocationId := by
    rw [← latest_append]
    unfold Evidence.latest
    rw [h]
  refine ⟨fun hop runtimeId invocationId hset => ?_, fun runtimeId invocationId hh => ?_⟩
  · rw [hl, if_neg]
    rintro ⟨rfl, rfl⟩
    rw [hk hop] at hset
    cases hset
  · rw [hl]
    split
    · rename_i hs
      exact hreleased (hs.1 ▸ hh.1)
    · exact .inl hh.2

theorem step_attach {a : RuntimeExclusiveOwner.Action} (h : Inv s) :
    Inv (OfflineEvidence.step (.attach a) s) ∧ Settles s (.attach a) (OfflineEvidence.step (.attach a) s) := by
  cases a with
  | recover runtimeId => exact ⟨h, .same rfl⟩
  | release flight => exact ⟨h, .same rfl⟩
  | attach task path => exact ⟨h.owners nofun, .same rfl⟩
  | wake task => exact ⟨h.owners nofun, .same rfl⟩
  | resume task => exact ⟨h.owners nofun, .same rfl⟩
  | settle task => exact ⟨h.owners nofun, .same rfl⟩
  | world db clients => exact ⟨h.owners nofun, .same rfl⟩

variable {at' runtimeId : String}

theorem step_recover {trigger : Trigger} {dryRun : Bool} (h : Inv s)
    (hok : Allowed s (.recover runtimeId trigger dryRun at')) :
    Inv (recoverRetainedEvidence runtimeId trigger dryRun at' s) ∧
      Settles s (.recover runtimeId trigger dryRun at') (recoverRetainedEvidence runtimeId trigger dryRun at' s) := by
  unfold recoverRetainedEvidence
  split
  · exact ⟨h, .same rfl⟩
  rename_i runtime hrt
  split
  · exact ⟨h, .same rfl⟩
  rename_i invocationId ht
  dsimp only
  split
  · exact ⟨h, .same rfl⟩
  split
  · rename_i hacq
    refine ⟨h.wrote append_wrote fun _ _ _ _ r hp => ?_, .recorded rfl (fun hop => ?_) fun _ => .inl ?_⟩
    · rw [hp.1]
      rfl
    · rcases hok with rfl | hok
      · cases hop
      · by_contra hs
        exact hok ⟨runtime, hrt, invocationId, ht, acquire_attach hacq,
          Bool.not_eq_false _ ▸ hs⟩
    · exact (by decide : outcomeHoldsEvidence (some "offline_read_attach_in_flight") = true)
  · exact ⟨h, .same rfl⟩
  · rename_i flight hacq
    exact ⟨h.acquired hacq rfl rfl rfl rfl, .same rfl⟩

theorem step_judged {refused : Bool} (h : Inv s) (hg : s.attempts[task]? = some attempt)
    (hph : attempt.phase = .judging) :
    Inv (judge task attempt refused at' s) ∧ Settles s (.judged task refused at') (judge task attempt refused at' s) := by
  have hl : attempt.phase ≠ .settled := by rw [hph]; decide
  unfold judge
  split
  · exact ⟨h.settle hg hl, .same rfl⟩
  dsimp only
  split
  · exact ⟨h.settle hg hl, .same rfl⟩
  rename_i hc
  have hu (ht : attempt.trigger ≠ .operator) :
      settledOutcome (s.latest attempt.runtime.runtimeId attempt.invocationId) = false := by
    by_contra hs
    have hpri := h.prior attempt (List.mem_of_getElem? hg) hph ht (Bool.not_eq_false _ ▸ hs)
    refine hc ?_
    cases hp : attempt.prior with
    | none =>
      rw [hp] at hpri
      cases hpri
    | some prior =>
      rw [hp] at hpri
      unfold settledOutcome at hpri
      rw [Option.any_some, Bool.or_eq_true, beq_iff_eq, beq_iff_eq] at hpri
      rw [Option.filter_some, if_pos (by simpa using ht), Option.map_some]
      rcases hpri with hout | hout <;> rw [hout] <;> decide
  split
  · rename_i hps
    have ht : attempt.trigger ≠ .operator := by
      rintro hop
      rw [hop] at hps
      simp at hps
    have hpa : Inv (append (outcomeRecord attempt.runtime.runtimeId attempt.invocationId attempt.trigger
        "paused_needs_disposition" (attemptsOf attempt.prior)
        [("priorOutcome", .str ((attempt.prior.map (·.outcome)).getD "")),
          ("requestedAfterSeq", OfflineEvidenceValidate.ofNat attempt.projectedNow)] at') s) :=
      h.wrote append_wrote fun _ _ _ _ r hp => by rw [hp.1]; rfl
    refine ⟨hpa.settle hg hl, .recorded rfl (fun _ => hu ht) fun _ => .inl ?_⟩
    exact (by decide : outcomeHoldsEvidence (some "paused_needs_disposition") = true)
  · exact ⟨h.setAttempt hg hl hu, .same rfl⟩

theorem attemptOutcomes_hold {runtime : HrcRuntimeSnapshot} {outcome : String}
    (hbd : (persistedAspdExecutionRelease runtime).isSome = true) (h : outcome ∈ attemptOutcomes runtime) :
    outcomeHoldsEvidence (some outcome) = true ∨ outcome = "recovered" := by
  obtain ⟨release, hr⟩ := Option.isSome_iff_exists.mp hbd
  unfold attemptOutcomes at h
  rw [hr] at h
  have hall : ∀ outcome ∈ unrecoveredOutcomes, outcomeHoldsEvidence (some outcome) = true := by decide
  rcases List.mem_cons.mp h with h | h
  · exact .inr h
  · exact .inl (hall outcome h)

theorem step_read {result : AttemptResult} (h : Inv s) (hg : s.attempts[task]? = some attempt)
    (hph : attempt.phase = .reading) (hres : result.outcome ∈ attemptOutcomes attempt.runtime)
    (hok : Allowed s (.read task result at')) :
    Inv (recordAttempt task attempt result at' s) ∧
      Settles s (.read task result at') (recordAttempt task attempt result at' s) := by
  have hl : attempt.phase ≠ .settled := by rw [hph]; decide
  unfold recordAttempt
  dsimp only
  refine ⟨(h.settle hg hl).wrote (append_wrote (s := settle task attempt s)) ?_, .recorded rfl ?_ ?_⟩
  · -- the attempt itself has settled, and the others in flight are for other runtimes
    intro other hm hl' _ r hp
    obtain ⟨i, hoth⟩ := List.mem_iff_getElem?.mp hm
    rcases getElem?_setAttempt hoth with ⟨-, rfl⟩ | ⟨hne, hoth⟩
    · exact absurd rfl hl'
    · exact absurd (h.apart hoth hg hl' hl hp.2.1.symm) hne
  · intro hop
    refine h.unsettled attempt (List.mem_of_getElem? hg) hph ?_
    unfold byOperator at hop
    dsimp only at hop
    rw [hg, Option.any_some] at hop
    exact beq_eq_false_iff_ne.mp hop
  · intro hbd
    refine (attemptOutcomes_hold (hok attempt hg hbd) hres).imp_right fun hr => ?_
    unfold settledOutcome
    rw [Option.any_some, outcomeRecord, hr]
    rfl

theorem step_dispose {by' reason : String} (h : Inv s)
    (hok : Allowed s (.dispose runtimeId by' reason at')) :
    Inv (recordOperatorDisposition runtimeId by' reason at' s) ∧
      Settles s (.dispose runtimeId by' reason at') (recordOperatorDisposition runtimeId by' reason at' s) := by
  have hw : Wrote _ s (recordOperatorDisposition runtimeId by' reason at' s) := recordOperatorDisposition_wrote
  refine ⟨h.wrote hw fun attempt hm hl ht r hp => ?_, nofun, fun id inv hh => ?_⟩
  · exact absurd ⟨attempt, hm, hl, ht, hp.1⟩ hok
  · rcases hw.latest id inv with hs | ⟨r, hr, -, hout⟩
    · rw [hs]
      exact .inl hh.2
    · rw [hr]
      unfold settledOutcome
      rw [Option.any_some, hout]
      exact .inr rfl

theorem step_sweep (h : Inv s) :
    Inv (recordUnboundBeforeSweep runtimeId at' s) ∧
      Settles s (.sweep runtimeId at') (recordUnboundBeforeSweep runtimeId at' s) := by
  have hw : Wrote _ s (recordUnboundBeforeSweep runtimeId at' s) := recordUnboundBeforeSweep_wrote
  refine ⟨h.wrote hw fun _ _ _ _ r hp => ?_, fun _ id inv hset => ?_, fun id inv hh => ?_⟩
  · unfold settledOutcome
    rw [Option.any_some, hp.2.2.2]
    decide
  · refine (hw.latest id inv).resolve_right ?_
    rintro ⟨r, -, -, -, hn, -⟩
    rw [hn] at hset
    cases hset
  · rcases hw.latest id inv with hs | ⟨r, -, rfl, hu, -⟩
    · rw [hs]
      exact .inl hh.2
    · rw [hh.1] at hu
      cases hu

theorem step_settles (h : Inv s) (hok : Allowed s a) :
    Inv (OfflineEvidence.step a s) ∧ Settles s a (OfflineEvidence.step a s) := by
  cases a with
  | attach a => exact step_attach h
  | recover runtimeId trigger dryRun at' => exact step_recover h hok
  | judged task refused at' =>
    unfold OfflineEvidence.step
    dsimp only
    split
    · rename_i hg
      split
      · rename_i hph
        exact step_judged h hg hph
      · exact ⟨h, .same rfl⟩
    · exact ⟨h, .same rfl⟩
  | read task result at' =>
    unfold OfflineEvidence.step
    dsimp only
    split
    · rename_i hg
      split
      · rename_i hgrd
        exact step_read h hg hgrd.1 hgrd.2 hok
      · exact ⟨h, .same rfl⟩
    · exact ⟨h, .same rfl⟩
  | threw task =>
    unfold OfflineEvidence.step
    dsimp only
    split
    · rename_i hg
      split
      · exact ⟨h, .same rfl⟩
      · rename_i hph
        exact ⟨h.settle hg hph, .same rfl⟩
    · exact ⟨h, .same rfl⟩
  | dispose runtimeId by' reason at' => exact step_dispose h hok
  | sweep runtimeId at' => exact step_sweep h

end Steps

section Runs

def restart (db : Db) (clients : String → Option String) (outcomes : List RetainedEvidenceOutcomeRecord) : Evidence :=
  { boot db clients with retainedEvidenceOutcomes := outcomes }

theorem restart_inv (db : Db) (clients : String → Option String) (outcomes : List RetainedEvidenceOutcomeRecord) :
    Inv (restart db clients outcomes) := by
  refine ⟨boot_registered db clients, ?_, ?_, ?_, ?_⟩
  · intro i found hf
    cases hf
  · intro i j found found' hf
    cases hf
  · intro found hm
    cases hm
  · intro found hm
    cases hm

/-- In every interleaving in which no automatic attempt meets an attach over a settled outcome and no disposition
lands during an automatic attempt, no step but an operator's replaces a settled outcome, and a hold ends with
`recovered` or `operator_disposed` only. -/
theorem retention_settled_once (db : Db) (clients : String → Option String)
    (outcomes : List RetainedEvidenceOutcomeRecord) (actions : List OfflineEvidence.Action)
    (hallowed : Meets OfflineEvidence.step Allowed actions (restart db clients outcomes)) :
    ∀ before a after, actions = before ++ a :: after →
      Settles (run OfflineEvidence.step before (restart db clients outcomes)) a
        (run OfflineEvidence.step (before ++ [a]) (restart db clients outcomes)) := by
  intro before a after h
  have hst := run_each (I := Inv) (P := Settles) (fun s a hs ha => (step_settles hs ha).1)
    (fun s a hs ha => (step_settles hs ha).2) (restart_inv db clients outcomes) hallowed h
  exact hst

def boundRuntime : HrcRuntimeSnapshot :=
  { runtimeId := "rt", hostSessionId := "host"
    runtimeStateJson := some (.object [("executionRelease", some (.object
      [("source", some (.str "aspd")), ("releaseId", some (.str "release")), ("sourceCommit", some (.str "commit")),
        ("builtAt", some (.str "built")), ("releaseRoot", some (.str "root")),
        ("worker", some (.object [("protocol", some (.str "p")), ("executable", some (.str "x")),
          ("argvPrefix", some (.array []))]))]))]) }

def boundDb : Db :=
  { runtimes := ⟨[boundRuntime], List.pairwise_singleton _ _⟩
    brokerInvocations := ⟨[{ invocationId := "inv", operationId := "op", runtimeId := "rt" }], List.pairwise_singleton _ _⟩ }

def recovery : List OfflineEvidence.Action :=
  [.recover "rt" .terminal false "1", .judged 0 false "2",
    .read 0 { outcome := "recovered", detail := [], projectedThroughSeq := 0, spawned := true } "3"]

def attachThenAttempt : List OfflineEvidence.Action :=
  [.attach (.attach 0 (.shared boundRuntime)), .recover "rt" .startup false "4"]

theorem retention_settled_once_recovery :
    Settles (run OfflineEvidence.step recovery (restart boundDb (fun _ => none) [])) (.recover "rt" .startup false "4")
      (run OfflineEvidence.step (recovery ++ [.recover "rt" .startup false "4"]) (restart boundDb (fun _ => none) [])) :=
  retention_settled_once boundDb (fun _ => none) [] (recovery ++ [.recover "rt" .startup false "4"])
    (by decide +kernel) recovery (.recover "rt" .startup false "4") [] rfl

/-- An automatic attempt that meets an attach replaces `recovered` and holds the evidence again. -/
theorem recovered_held_again :
    let s := restart boundDb (fun _ => none) []
    let recovered := run OfflineEvidence.step recovery s
    let again := run OfflineEvidence.step (recovery ++ attachThenAttempt) s
    ((recovered.latest "rt" "inv").map (·.outcome) = some "recovered" ∧ holds (recovered.latest "rt" "inv") = false) ∧
      (again.latest "rt" "inv").map (·.outcome) = some "offline_read_attach_in_flight" ∧
        holds (again.latest "rt" "inv") = true := by
  decide +kernel

end Runs

end HrcRuntime.RetentionHold
