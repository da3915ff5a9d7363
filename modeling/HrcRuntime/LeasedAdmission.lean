import HrcRuntime.TurnAdmissionGate

namespace HrcRuntime.LeasedAdmission

open Json TurnAdmissionGate

variable {R : Type}

inductive AdmissionStepName where
  | drainLease | retiredPersona | fence | participantResolution | ownershipProof | capabilityAuthority
  | executionPresentation | rotation | launchCarryObservation
  deriving DecidableEq

def admissionSteps : List AdmissionStepName :=
  [.drainLease, .retiredPersona, .fence, .participantResolution, .ownershipProof, .capabilityAuthority,
    .executionPresentation, .rotation, .launchCarryObservation]

inductive Outcome where
  | passed | skippedNotCarried | skippedNotApplicable | skippedReplay | notReached | refused | possibleWrite | replayed

structure AdmissionStep where
  step : AdmissionStepName
  outcome : Outcome

structure Cause where
  message : String
  detailCode : Option Json := none
  detailReason : Option Json := none
  code : Option Json := none
  deriving DecidableEq

structure TypedRefusal where
  code : Json
  cause : Cause
  deriving DecidableEq

inductive RouteOutcome (R : Type) where
  | accepted (value : R)
  | rejectedUnlanded (provedWithdrawal : Bool) (value : R)
  deriving DecidableEq

inductive StepOutcome (R : Type) where
  | passed | skippedNotCarried | skippedNotApplicable
  | refused (refusal : TypedRefusal)
  | replayed (recorded : R)

inductive Verdict (R : Type) where
  | refused (refusal : TypedRefusal)
  | replayed (recorded : R)
  | routed (outcome : RouteOutcome R)
  | possibleWrite (cause : Cause)
  deriving DecidableEq

structure AdmissionResult (R : Type) where
  verdict : Verdict R
  trace : List AdmissionStep

/-- An operation, with what its `run` comes to. -/
structure AdmissionOperation (R : Type) where
  step : AdmissionStepName
  run : Except Cause (StepOutcome R)

/-- The abort signal fires in a phase: 0 is before the first operation, `k` while the operation at position `k` runs,
9 while the route runs, a later one after the route. -/
structure Abort where
  phase : Nat
  reason : Cause

structure Work (R : Type) where
  steps : List (AdmissionOperation R)
  route : Except Cause (RouteOutcome R)
  signal : Option Abort

inductive Effect (R : Type) where
  | leased
  | ran (step : AdmissionStepName)
  | routed
  | recorded (result : AdmissionResult R)
  | released

namespace StepOutcome

def outcome : StepOutcome R → Outcome
  | .passed => .passed
  | .skippedNotCarried => .skippedNotCarried
  | .skippedNotApplicable => .skippedNotApplicable
  | .refused _ => .refused
  | .replayed _ => .replayed

def verdict : StepOutcome R → Option (Verdict R)
  | .refused refusal => some (.refused refusal)
  | .replayed recorded => some (.replayed recorded)
  | _ => none

end StepOutcome

def refusalCode (code : Json) : Json :=
  if code = .str "server_draining" then .str "daemon_draining"
  else if code = .str "scope-retired" then .str "session_retired"
  else if code = .str "local-persona-not-allowed" then .str "persona_mismatch"
  else if code = .str "app-session-not-allowed" then .str "persona_mismatch"
  else if code = .str "participant_rotation_unsupported" then .str "fresh_context_on_participant"
  else code

def Cause.refusal (cause : Cause) : TypedRefusal :=
  ⟨refusalCode ((cause.detailCode.or (cause.detailReason.or cause.code)).getD (.str "admission_failed")), cause⟩

def drainCause (error : GateError) : Cause := ⟨error.message, none, none, some (.str "server_draining")⟩

def orderIncomplete : Cause := { message := "admission step order is incomplete" }

def Work.aborted (work : Work R) (look : Nat) : Option Cause :=
  match work.signal with
  | none => none
  | some abort => if abort.phase < look then some abort.reason else none

def Work.operation (work : Work R) (step : AdmissionStepName) (position : Nat) :
    Except Cause (AdmissionOperation R) :=
  match work.steps[position - 1]? with
  | none => .error orderIncomplete
  | some operation =>
    if operation.step = step then
      match work.aborted position with
      | some reason => .error reason
      | none => .ok operation
    else .error orderIncomplete

def Work.routes (work : Work R) : Except Cause (Verdict R) :=
  match work.route with
  | .error cause => .error cause
  | .ok routed =>
    match work.aborted 10 with
    | some reason => .error reason
    | none => .ok (.routed routed)

/-- The body of the `try`: what it did, its trace, its position and how it ended. -/
structure Attempt (R : Type) where
  log : List (Effect R)
  trace : List AdmissionStep
  position : Nat
  ending : Except Cause (Verdict R)

def advance (work : Work R) : List AdmissionStepName → Nat → List (Effect R) → List AdmissionStep → Attempt R
  | [], position, log, trace => ⟨log ++ [.routed], trace, position, work.routes⟩
  | step :: rest, position, log, trace =>
    match work.operation step position with
    | .error cause => ⟨log, trace, position, .error cause⟩
    | .ok operation =>
      match operation.run with
      | .error cause => ⟨log ++ [.ran step], trace, position, .error cause⟩
      | .ok result =>
        match result.verdict with
        | some verdict => ⟨log ++ [.ran step], trace ++ [⟨step, result.outcome⟩], position, .ok verdict⟩
        | none => advance work rest (position + 1) (log ++ [.ran step]) (trace ++ [⟨step, result.outcome⟩])

def attempt (gate : Gate) (work : Work R) : Attempt R :=
  match gate.admitTurn false with
  | .error error => ⟨[], [], 0, .error (drainCause error)⟩
  | .ok _ => advance work admissionSteps.tail 1 [.leased] [⟨.drainLease, .passed⟩]

def remainder : Verdict R → Outcome
  | .replayed _ => .skippedReplay
  | _ => .notReached

def complete (verdict : Verdict R) (trace : List AdmissionStep) : AdmissionResult R :=
  ⟨verdict, trace ++ (admissionSteps.drop trace.length).map fun step => ⟨step, remainder verdict⟩⟩

def stepAt (position : Nat) : AdmissionStepName := admissionSteps[position]?.getD .launchCarryObservation

/-- The `catch`. -/
def Attempt.result (a : Attempt R) : AdmissionResult R :=
  match a.ending with
  | .ok verdict => complete verdict a.trace
  | .error cause =>
    if 7 ≤ a.position then
      complete (.possibleWrite cause)
        (if a.trace.length < admissionSteps.length then a.trace ++ [⟨stepAt a.position, .possibleWrite⟩] else a.trace)
    else
      complete (.refused cause.refusal)
        (if a.trace.length ≤ a.position then a.trace ++ [⟨stepAt a.position, .refused⟩] else a.trace)

def held (gate : Gate) : Bool :=
  match gate.admitTurn false with
  | .ok _ => true
  | .error _ => false

/-- The whole call: the `finally` records the result and then releases the lease, also where the record throws. -/
def runLeasedAdmission (gate : Gate) (recordThrows : Option Cause) (work : Work R) :
    List (Effect R) × Except Cause (AdmissionResult R) :=
  let a := attempt gate work
  (a.log ++ [.recorded a.result] ++ (if held gate then [.released] else []),
    match recordThrows with
    | none => .ok a.result
    | some cause => .error cause)

end HrcRuntime.LeasedAdmission

namespace HrcRuntime.AdmissionAccount

open TurnAdmissionGate LeasedAdmission

variable {R : Type} {gate : Gate} {work : Work R}

/-- The operation behind position `k` was reached, ran and let the admission go on. -/
def Answers (work : Work R) (k : Nat) : Prop :=
  ∃ step operation result, admissionSteps[k + 1]? = some step ∧ work.operation step (k + 1) = .ok operation ∧
    operation.run = .ok result ∧ result.verdict = none

def thrown {α : Type} : Except Cause α → Option Cause
  | .error cause => some cause
  | .ok _ => none

/-- What is thrown at a position, all before it having gone on: a missing operation, a fired signal, the operation, or
at the last position the route or the signal behind it. -/
def thrownAt (work : Work R) (position : Nat) : Option Cause :=
  match admissionSteps[position]? with
  | none => thrown work.routes
  | some step =>
    match work.operation step position with
    | .error cause => some cause
    | .ok operation => thrown operation.run

def Fails (work : Work R) (position : Nat) (cause : Cause) : Prop :=
  1 ≤ position ∧ position ≤ 9 ∧ (∀ k < position - 1, Answers work k) ∧ thrownAt work position = some cause

def names (trace : List AdmissionStep) : List AdmissionStepName := trace.map (·.step)

def ranUpTo (k : Nat) : List (Effect R) := .leased :: ((admissionSteps.drop 1).take k).map .ran

/-- The ways the body of the `try` ends once the lease is held. -/
inductive Ends (work : Work R) : Attempt R → Prop
  | threw (k ran : Nat) (trace : List AdmissionStep) (cause : Cause) (hk : k < 8) (hran : ran ≤ 8)
      (htrace : names trace = admissionSteps.take (k + 1)) (hfails : Fails work (k + 1) cause) :
      Ends work ⟨ranUpTo ran, trace, k + 1, .error cause⟩
  | answered (k : Nat) (trace : List AdmissionStep) (verdict : Verdict R) (hk : k < 8)
      (htrace : names trace = admissionSteps.take (k + 2)) (hbefore : ∀ j < k, Answers work j)
      (hself : thrownAt work (k + 1) = none) (hstays : ¬ Answers work k)
      (hverdict : (∃ refusal, verdict = .refused refusal) ∨ ∃ recorded, verdict = .replayed recorded) :
      Ends work ⟨ranUpTo (k + 1), trace, k + 1, .ok verdict⟩
  | routed (trace : List AdmissionStep) (htrace : names trace = admissionSteps)
      (hall : ∀ k < 8, Answers work k) : Ends work ⟨ranUpTo 8 ++ [.routed], trace, 9, work.routes⟩

theorem names_append (trace after : List AdmissionStep) : names (trace ++ after) = names trace ++ names after :=
  List.map_append

variable {step : AdmissionStepName}

theorem ranUpTo_succ {k : Nat} (h : admissionSteps[k + 1]? = some step) :
    (ranUpTo k ++ [.ran step] : List (Effect R)) = ranUpTo (k + 1) := by
  have hs : (admissionSteps.drop 1)[k]? = some step := by rw [List.getElem?_drop, Nat.add_comm, h]
  rw [ranUpTo, ranUpTo, List.take_add_one, hs, List.map_append]
  rfl

theorem trace_snoc {k : Nat} {trace : List AdmissionStep} {outcome : Outcome}
    (htr : names trace = admissionSteps.take (k + 1)) (h : admissionSteps[k + 1]? = some step) :
    names (trace ++ [⟨step, outcome⟩]) = admissionSteps.take (k + 2) := by
  rw [names_append, htr, List.take_add_one (i := k + 1), h]
  rfl

theorem advance_ends (rest : List AdmissionStepName) (k : Nat) (trace : List AdmissionStep)
    (hr : rest = admissionSteps.drop (k + 1)) (hk : k ≤ 8)
    (htr : names trace = admissionSteps.take (k + 1)) (hbef : ∀ j < k, Answers work j) :
    Ends work (advance work rest (k + 1) (ranUpTo k) trace) := by
  induction rest generalizing k trace with
  | nil =>
    have hl : k = 8 := by
      have hlen := congrArg List.length hr
      rw [List.length_drop] at hlen
      change 0 = 9 - (k + 1) at hlen
      omega
    subst hl
    exact .routed trace htr hbef
  | cons step rest ih =>
    have hs : admissionSteps[k + 1]? = some step := by
      rw [← List.head?_drop, ← hr]
      rfl
    have hrs' : rest = admissionSteps.drop (k + 2) := by
      rw [← List.tail_drop, ← hr]
      rfl
    have hlt : k < 8 := by
      have hlen := (List.getElem?_eq_some_iff.mp hs).1
      change k + 1 < 9 at hlen
      omega
    unfold advance
    cases hop : work.operation step (k + 1) with
    | error cause =>
      refine .threw k k trace cause hlt hk htr ⟨by omega, by omega, hbef, ?_⟩
      rw [thrownAt, hs]
      dsimp only
      rw [hop]
    | ok operation =>
      dsimp only
      rw [ranUpTo_succ hs]
      cases hrun : operation.run with
      | error cause =>
        refine .threw k (k + 1) trace cause hlt hlt htr ⟨by omega, by omega, hbef, ?_⟩
        rw [thrownAt, hs]
        dsimp only
        rw [hop]
        dsimp only
        rw [hrun, thrown]
      | ok result =>
        dsimp only
        cases hv : result.verdict with
        | some verdict =>
          refine .answered k _ verdict hlt (trace_snoc htr hs) hbef ?_ ?_ ?_
          · rw [thrownAt, hs]
            dsimp only
            rw [hop]
            dsimp only
            rw [hrun, thrown]
          · rintro ⟨step', operation', result', hs', hop', hrun', hn⟩
            obtain rfl := Option.some.inj (hs.symm.trans hs')
            obtain rfl := Except.ok.inj (hop.symm.trans hop')
            obtain rfl := Except.ok.inj (hrun.symm.trans hrun')
            cases hv.symm.trans hn
          · cases result with
            | passed => cases hv
            | skippedNotCarried => cases hv
            | skippedNotApplicable => cases hv
            | refused refusal => exact Or.inl ⟨refusal, (Option.some.inj hv).symm⟩
            | replayed recorded => exact Or.inr ⟨recorded, (Option.some.inj hv).symm⟩
        | none =>
          refine ih (k + 1) _ hrs' hlt (trace_snoc htr hs) ?_
          intro j hj
          rcases Nat.lt_succ_iff_lt_or_eq.mp hj with hlt' | rfl
          · exact hbef j hlt'
          · exact ⟨step, operation, result, hs, hop, hrun, hv⟩

variable (work) in
theorem attempt_ends {gate' : Gate} (h : gate.admitTurn false = .ok gate') : Ends work (attempt gate work) := by
  rw [attempt, h]
  exact advance_ends _ 0 _ rfl (Nat.zero_le _) rfl fun j hj => absurd hj (Nat.not_lt_zero j)

section Trace

theorem complete_trace (verdict : Verdict R) (trace : List AdmissionStep)
    (h : names trace = admissionSteps.take trace.length) :
    names (complete verdict trace).trace = admissionSteps := by
  have hr : names ((admissionSteps.drop trace.length).map fun step => ⟨step, remainder verdict⟩) =
      admissionSteps.drop trace.length := by
    rw [names, List.map_map]
    exact List.map_id _
  rw [complete, names_append, h, hr, List.take_append_drop]

variable {trace : List AdmissionStep}

variable {n : Nat}

theorem length_of_trace (hn : n ≤ 9)
    (h : names trace = admissionSteps.take n) : trace.length = n := by
  have hl := congrArg List.length h
  rw [names, List.length_map, List.length_take] at hl
  change _ = min n 9 at hl
  omega

theorem snoc_trace (outcome : Outcome) (hn : n < 9)
    (h : names trace = admissionSteps.take n) :
    names (trace ++ [⟨stepAt n, outcome⟩]) = admissionSteps.take (n + 1) := by
  have hat : admissionSteps[n]? = some (stepAt n) := by
    rw [stepAt, List.getElem?_eq_getElem (show n < admissionSteps.length from hn)]
    rfl
  rw [names_append, h, List.take_add_one, hat]
  rfl

theorem complete_of_trace (verdict : Verdict R) (hn : n ≤ 9)
    (h : names trace = admissionSteps.take n) :
    names (complete verdict trace).trace = admissionSteps :=
  complete_trace verdict trace (by rw [length_of_trace hn h]; exact h)

theorem result_threw {a : Attempt R} {cause : Cause} (hend : a.ending = .error cause) (hn : n ≤ 9)
    (hp : a.position = n) (htr : names a.trace = admissionSteps.take n) :
    names a.result.trace = admissionSteps ∧
      a.result.verdict = if 7 ≤ n then .possibleWrite cause else .refused cause.refusal := by
  subst hp
  have hl := length_of_trace hn htr
  unfold Attempt.result
  rw [hend]
  dsimp only
  split
  next hlate =>
    refine ⟨?_, rfl⟩
    split
    next hr =>
      rw [hl] at hr
      exact complete_of_trace _ hr (snoc_trace _ hr htr)
    next => exact complete_of_trace _ hn htr
  next he =>
    refine ⟨?_, rfl⟩
    rw [if_pos (Nat.le_of_eq hl)]
    have hr : a.position < 9 := by omega
    exact complete_of_trace _ hr (snoc_trace _ hr htr)

end Trace

section Account

theorem thrownAt_answers {k : Nat} (h : Answers work k) : thrownAt work (k + 1) = none := by
  obtain ⟨step, operation, result, hs, hop, hr, -⟩ := h
  rw [thrownAt, hs]
  dsimp only
  rw [hop]
  dsimp only
  rw [hr, thrown]

variable {a : Attempt R} {cause : Cause}

theorem thrownAt_pos {position : Nat} (h : Fails work position cause) :
    ∃ k, position = k + 1 ∧ k < 9 ∧ (∀ j < k, Answers work j) ∧ thrownAt work (k + 1) = some cause := by
  obtain ⟨hp, hle, hbef, ht⟩ := h
  obtain ⟨k, rfl⟩ : ∃ k, position = k + 1 := ⟨position - 1, by omega⟩
  exact ⟨k, rfl, by omega, hbef, ht⟩

theorem fails_unique {p q : Nat} {cause' : Cause} (h : Fails work p cause) (h' : Fails work q cause') :
    p = q ∧ cause = cause' := by
  obtain ⟨j, rfl, -, hj, ht⟩ := thrownAt_pos h
  obtain ⟨k, rfl, -, hk, ht'⟩ := thrownAt_pos h'
  rcases Nat.lt_trichotomy j k with hlt | rfl | hlt
  · cases ht.symm.trans (thrownAt_answers (hk j hlt))
  · exact ⟨rfl, Option.some.inj (ht.symm.trans ht')⟩
  · cases ht'.symm.trans (thrownAt_answers (hj k hlt))

def Judged (work : Work R) (verdict : Verdict R) : Prop :=
  (∀ position cause, Fails work position cause →
    verdict = if 7 ≤ position then .possibleWrite cause else .refused cause.refusal) ∧
  ∀ cause, verdict = .possibleWrite cause → ∃ position, 7 ≤ position ∧ Fails work position cause

theorem judged_of_fails {position : Nat} (h : Fails work position cause) :
    Judged work (if 7 ≤ position then .possibleWrite cause else .refused cause.refusal) := by
  constructor
  · intro position' cause' h'
    obtain ⟨rfl, rfl⟩ := fails_unique h h'
    rfl
  · intro cause' hv
    split at hv
    next hlate =>
      cases hv
      exact ⟨position, hlate, h⟩
    next => cases hv

theorem judged_of_none {verdict : Verdict R} (hn : ∀ position cause, ¬ Fails work position cause)
    (hv : ∀ cause, verdict ≠ .possibleWrite cause) : Judged work verdict :=
  ⟨fun position cause h => absurd h (hn position cause), fun cause h => absurd h (hv cause)⟩

theorem ends_judged (h : Ends work a) :
    names a.result.trace = admissionSteps ∧ Judged work a.result.verdict := by
  cases h with
  | threw k ran trace cause hk hr htr hfl =>
    obtain ⟨htr, hv⟩ := result_threw (a := ⟨ranUpTo ran, trace, k + 1, .error cause⟩) (n := k + 1) rfl
      (by omega) rfl htr
    rw [hv]
    exact ⟨htr, judged_of_fails hfl⟩
  | answered k trace verdict hk htr hbef hs hst hv =>
    refine ⟨complete_of_trace verdict (by omega) htr, judged_of_none ?_ ?_⟩
    · intro position cause hfl
      obtain ⟨j, rfl, -, hj, ht⟩ := thrownAt_pos hfl
      rcases Nat.lt_trichotomy j k with hlt | rfl | hlt
      · cases ht.symm.trans (thrownAt_answers (hbef j hlt))
      · cases ht.symm.trans hs
      · exact hst (hj k hlt)
    · rintro cause rfl
      rcases hv with ⟨_, h⟩ | ⟨_, h⟩ <;> cases h
  | routed trace htr hall =>
    cases hrt : work.routes with
    | error cause =>
      have hfl : Fails work 9 cause := by
        refine ⟨by omega, by omega, hall, ?_⟩
        change thrown work.routes = _
        rw [hrt]
        rfl
      obtain ⟨htr, hv⟩ := result_threw (a := ⟨ranUpTo 8 ++ [.routed], trace, 9, .error cause⟩)
        (n := 9) rfl (by omega) rfl htr
      rw [hv]
      exact ⟨htr, judged_of_fails hfl⟩
    | ok verdict =>
      refine ⟨complete_of_trace verdict (Nat.le_refl 9) htr, judged_of_none ?_ ?_⟩
      · intro position cause hfl
        obtain ⟨j, rfl, hj9, hj, ht⟩ := thrownAt_pos hfl
        rcases Nat.lt_or_eq_of_le (Nat.le_of_lt_succ hj9) with hlt | rfl
        · cases ht.symm.trans (thrownAt_answers (hall j hlt))
        · change thrown work.routes = _ at ht
          rw [hrt] at ht
          cases ht
      · rintro cause rfl
        unfold Work.routes at hrt
        split at hrt
        · cases hrt
        · split at hrt
          · cases hrt
          · cases hrt

def operates : Effect R → Bool
  | .recorded _ => false
  | .released => false
  | _ => true

structure Accounted (gate : Gate) (work : Work R) (log : List (Effect R)) (result : AdmissionResult R) : Prop where
  once : ∃ body, log = body ++ [.recorded result] ++ (if held gate then [.released] else []) ∧
    ∀ e ∈ body, operates e = true
  trace : result.trace.map (·.step) = admissionSteps
  routed : Effect.routed ∈ log → (∀ k < 8, Answers work k) ∧
    .leased :: admissionSteps.tail.map .ran ++ [.routed] <+: log
  refusedLease : held gate = false → log = [.recorded result] ∧ ∃ refusal, result.verdict = .refused refusal
  judged : held gate = true → Judged work result.verdict

theorem operates_ranUpTo (k : Nat) : ∀ e ∈ (ranUpTo k : List (Effect R)), operates e = true := by
  intro e he
  rcases List.mem_cons.mp he with rfl | he
  · rfl
  · obtain ⟨step, -, rfl⟩ := List.mem_map.mp he
    rfl

theorem routed_not_mem_ranUpTo (k : Nat) : Effect.routed ∉ (ranUpTo k : List (Effect R)) := by
  intro he
  rcases List.mem_cons.mp he with h | he
  · cases h
  · obtain ⟨step, -, h⟩ := List.mem_map.mp he
    cases h

theorem ends_operates (h : Ends work a) : ∀ e ∈ a.log, operates e = true := by
  cases h with
  | threw k ran => exact operates_ranUpTo ran
  | answered k => exact operates_ranUpTo (k + 1)
  | routed =>
    intro e he
    rcases List.mem_append.mp he with he | he
    · exact operates_ranUpTo 8 e he
    · rw [List.mem_singleton.mp he]
      rfl

theorem ends_routed (h : Ends work a) (hr : Effect.routed ∈ a.log) :
    (∀ k < 8, Answers work k) ∧ a.log = .leased :: admissionSteps.tail.map .ran ++ [.routed] := by
  cases h with
  | threw k ran => exact absurd hr (routed_not_mem_ranUpTo ran)
  | answered k => exact absurd hr (routed_not_mem_ranUpTo (k + 1))
  | routed trace htr hall => exact ⟨hall, rfl⟩

end Account

/-- Whatever the operations, the route, the record and the signal do: one result is recorded and then the lease
released once, the trace names the nine steps in order, the route runs behind all eight operations, nothing runs
without the lease, and what is thrown, a fired signal included where it is found, is a possible write exactly from
the rotation on. -/
theorem leased_admission (gate : Gate) (recordThrows : Option Cause) (work : Work R) :
    ∃ result, Accounted gate work (runLeasedAdmission gate recordThrows work).1 result ∧
      (runLeasedAdmission gate recordThrows work).2 = (recordThrows.elim (.ok result) .error) := by
  refine ⟨(attempt gate work).result, ?_, by cases recordThrows <;> rfl⟩
  cases hg : gate.admitTurn false with
  | error error =>
    have hh : held gate = false := by rw [held, hg]
    have hatt : attempt gate work = ⟨[], [], 0, .error (drainCause error)⟩ := by rw [attempt, hg]
    have hl : (runLeasedAdmission gate recordThrows work).1 = [.recorded (attempt gate work).result] := by
      change (attempt gate work).log ++ _ ++ (if held gate then [.released] else []) = _
      rw [hh, hatt]
      rfl
    rw [hl]
    refine ⟨⟨[], by rw [hh]; rfl, fun e he => by cases he⟩, ?_, ?_, fun _ => ⟨rfl, ?_⟩, ?_⟩
    · rw [hatt]
      rfl
    · intro h
      cases List.mem_singleton.mp h
    · rw [hatt]
      exact ⟨_, rfl⟩
    · intro h
      cases hh.symm.trans h
  | ok gate' =>
    have hh : held gate = true := by rw [held, hg]
    have hen := attempt_ends work hg
    obtain ⟨htr, hj⟩ := ends_judged hen
    have hl : (runLeasedAdmission gate recordThrows work).1 =
        (attempt gate work).log ++ [.recorded (attempt gate work).result] ++ [.released] := by
      change (attempt gate work).log ++ _ ++ (if held gate then [.released] else []) = _
      rw [hh]
      rfl
    rw [hl]
    refine ⟨⟨_, by rw [hh]; rfl, ends_operates hen⟩, htr, ?_, ?_, fun _ => hj⟩
    · intro h
      have hr : Effect.routed ∈ (attempt gate work).log := by
        rcases List.mem_append.mp h with h | h
        · rcases List.mem_append.mp h with h | h
          · exact h
          · cases List.mem_singleton.mp h
        · cases List.mem_singleton.mp h
      obtain ⟨hall, heq⟩ := ends_routed hen hr
      refine ⟨hall, ?_⟩
      rw [← heq, List.append_assoc]
      exact List.prefix_append _ _
    · intro h
      cases hh.symm.trans h

section Samples

def opened : Gate := ⟨none, 0, []⟩

def cancelled : Cause := { message := "caller cancelled" }

def signalled (phase : Nat) (last : StepOutcome String) : Work String where
  steps := (admissionSteps.drop 1).map fun step =>
    ⟨step, .ok (if step = .launchCarryObservation then last else .passed)⟩
  route := .ok (.accepted "turn")
  signal := some ⟨phase, cancelled⟩

/-- The signal that fires while the step before the rotation runs is found at the rotation, and one that fires while
the last operation refuses is found nowhere. -/
theorem signal_phases :
    stepAt 6 = .executionPresentation ∧ stepAt 7 = .rotation ∧ stepAt 8 = .launchCarryObservation ∧
    (attempt opened (signalled 6 .passed)).result.verdict = .possibleWrite cancelled ∧
    (attempt opened (signalled 8 (.refused cancelled.refusal))).result.verdict = .refused cancelled.refusal := by
  decide

end Samples

end HrcRuntime.AdmissionAccount
