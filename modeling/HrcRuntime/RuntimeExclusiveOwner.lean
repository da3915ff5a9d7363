import HrcRuntime.Repositories
import HrcRuntime.Schedule

namespace HrcRuntime.RuntimeExclusiveOwner

open Records Database Repositories Schedule
open Function (update_of_ne update_self)

abbrev Flight := Nat

inductive HeldBy where
  | attach | retainedRecovery

structure Registry where
  attachOwners : String → Option Flight := fun _ => none
  recoveryOwners : String → Option Flight := fun _ => none
  released : Flight → Bool := fun _ => false
  nextFlight : Flight := 0

def acquireRetainedRecoveryOwnership (runtimeId : String) (g : Registry) : Except HeldBy Flight × Registry :=
  if (g.attachOwners runtimeId).isSome then (.error .attach, g)
  else if (g.recoveryOwners runtimeId).isSome then (.error .retainedRecovery, g)
  else (.ok g.nextFlight,
    { g with
      recoveryOwners := Function.update g.recoveryOwners runtimeId (some g.nextFlight)
      nextFlight := g.nextFlight + 1 })

def release (runtimeId : String) (flight : Flight) (g : Registry) : Registry :=
  if g.released flight then g
  else
    { g with
      released := Function.update g.released flight true
      recoveryOwners :=
        if g.recoveryOwners runtimeId = some flight then Function.update g.recoveryOwners runtimeId none
        else g.recoveryOwners }

def retainedRecoveryInFlight (g : Registry) (runtimeId : String) : Bool := (g.recoveryOwners runtimeId).isSome

def hasRetainedProjection (db : Db) (runtimeId : String) : Bool :=
  db.brokerInvocations.rows.any fun r => r.runtimeId == runtimeId && r.retainedProjectedThroughSeq.isSome

/-- Where a caller asks for the runtime from: the shared attach owner, or the operator's attach route,
which waits for a recovery and takes no ownership of its own. -/
inductive AttachPath where
  | shared (runtime : HrcRuntimeSnapshot)
  | operator (runtimeId : String)

def AttachPath.runtimeId : AttachPath → String
  | .shared runtime => runtime.runtimeId
  | .operator runtimeId => runtimeId

inductive AttachPhase where
  | awaiting (flight : Flight)
  /-- `awaitRetainedRecoveryOwner` has returned; its caller's continuation is queued. -/
  | returned
  | joined (operation : Flight)
  | refused | attached | passed
  | owning (operation : Flight)
  | settled

structure AttachCall where
  path : AttachPath
  phase : AttachPhase

structure Server extends Registry where
  db : Db := {}
  activeClientInvocationId : String → Option String := fun _ => none
  recoveries : Flight → Option String := fun _ => none
  calls : Nat → Option AttachCall := fun _ => none

def alreadyAttachedOnServingController (s : Server) (runtime : HrcRuntimeSnapshot) : Bool :=
  let current := (getByRuntimeId s.db runtime.runtimeId).getD runtime
  current.activeInvocationId.any fun invocationId =>
    s.activeClientInvocationId current.runtimeId == some invocationId

/-- One turn of the loop of `awaitRetainedRecoveryOwner`. -/
def awaitRetainedRecoveryOwner (g : Registry) (runtimeId : String) : AttachPhase :=
  match g.recoveryOwners runtimeId with
  | some flight => .awaiting flight
  | none => .returned

def setPhase (task : Nat) (path : AttachPath) (phase : AttachPhase) (s : Server) : Server :=
  { s with calls := Function.update s.calls task (some { path, phase }) }

/-- Whether the caller would take the runtime: no flight to join, no committed retained projection, and
not attached yet. -/
def claims (s : Server) (path : AttachPath) : Bool :=
  match path with
  | .operator _ => false
  | .shared runtime => (s.attachOwners runtime.runtimeId).isNone && !hasRetainedProjection s.db runtime.runtimeId
      && !alreadyAttachedOnServingController s runtime

def attachDurableBrokerShared (task : Nat) (path : AttachPath) (s : Server) : Server :=
  match path with
  | .operator runtimeId =>
    setPhase task path (if hasRetainedProjection s.db runtimeId then .refused else .passed) s
  | .shared runtime =>
    match s.attachOwners runtime.runtimeId with
    | some operation => setPhase task path (.joined operation) s
    | none =>
      if hasRetainedProjection s.db runtime.runtimeId then setPhase task path .refused s
      else if alreadyAttachedOnServingController s runtime then setPhase task path .attached s
      else setPhase task path (.owning s.nextFlight)
        { s with
          attachOwners := Function.update s.attachOwners runtime.runtimeId (some s.nextFlight)
          nextFlight := s.nextFlight + 1 }

/-- A new caller: the shared owner only yields when a recovery owns the runtime, the operator's route
always awaits. -/
def beginAttach (task : Nat) (path : AttachPath) (s : Server) : Server :=
  match path with
  | .operator runtimeId => setPhase task path (awaitRetainedRecoveryOwner s.toRegistry runtimeId) s
  | .shared runtime =>
    if retainedRecoveryInFlight s.toRegistry runtime.runtimeId then
      setPhase task path (awaitRetainedRecoveryOwner s.toRegistry runtime.runtimeId) s
    else attachDurableBrokerShared task path s

def settleAttach (task : Nat) (path : AttachPath) (operation : Flight) (s : Server) : Server :=
  setPhase task path .settled
    { s with
      attachOwners :=
        if s.attachOwners path.runtimeId = some operation then Function.update s.attachOwners path.runtimeId none
        else s.attachOwners }

inductive Action where
  | recover (runtimeId : String)
  | release (flight : Flight)
  | attach (task : Nat) (path : AttachPath)
  /-- The continuation of `await flight` runs. -/
  | wake (task : Nat)
  /-- The continuation of the caller of `awaitRetainedRecoveryOwner` runs. -/
  | resume (task : Nat)
  | settle (task : Nat)
  /-- Anything else moves the database and the controller's clients. -/
  | world (db : Db) (activeClientInvocationId : String → Option String)

def step (a : Action) (s : Server) : Server :=
  match a with
  | .recover runtimeId =>
    match acquireRetainedRecoveryOwnership runtimeId s.toRegistry with
    | (.ok flight, g) =>
      { s with toRegistry := g, recoveries := Function.update s.recoveries flight (some runtimeId) }
    | (.error _, _) => s
  | .release flight =>
    match s.recoveries flight with
    | some runtimeId => { s with toRegistry := release runtimeId flight s.toRegistry }
    | none => s
  | .attach task path =>
    match s.calls task with
    | some _ => s
    | none => beginAttach task path s
  | .wake task =>
    match s.calls task with
    | some { path, phase := .awaiting flight } =>
      if s.released flight then
        setPhase task path (awaitRetainedRecoveryOwner s.toRegistry path.runtimeId) s
      else s
    | _ => s
  | .resume task =>
    match s.calls task with
    | some { path, phase := .returned } => attachDurableBrokerShared task path s
    | _ => s
  | .settle task =>
    match s.calls task with
    | some { path, phase := .owning operation } => settleAttach task path operation s
    | _ => s
  | .world db activeClientInvocationId => { s with db, activeClientInvocationId }

def ReclaimedInGap (s : Server) : Action → Prop
  | .resume task => ∃ call ∈ s.calls task, call.phase = .returned ∧ claims s call.path = true ∧
      (s.recoveryOwners call.path.runtimeId).isSome = true
  | _ => False

inductive Move (s : Server) (a : Action) (s' : Server) : Prop where
  | idle (hregistry : s'.toRegistry = s.toRegistry) (hrecoveries : s'.recoveries = s.recoveries)
  | acquired {runtimeId : String} (hattach : s.attachOwners runtimeId = none)
      (hrecovery : s.recoveryOwners runtimeId = none)
      (hregistry : s'.toRegistry =
        { s.toRegistry with
          recoveryOwners := Function.update s.recoveryOwners runtimeId (some s.nextFlight)
          nextFlight := s.nextFlight + 1 })
      (hrecoveries : s'.recoveries = Function.update s.recoveries s.nextFlight (some runtimeId))
  | released {flight : Flight} {runtimeId : String} (haction : a = .release flight)
      (hflight : s.recoveries flight = some runtimeId)
      (hregistry : s'.toRegistry = release runtimeId flight s.toRegistry) (hrecoveries : s'.recoveries = s.recoveries)
  | claimed {runtimeId : String} (hattach : s.attachOwners runtimeId = none)
      (hrecovery : s.recoveryOwners runtimeId = none ∨ ReclaimedInGap s a)
      (hregistry : s'.toRegistry =
        { s.toRegistry with
          attachOwners := Function.update s.attachOwners runtimeId (some s.nextFlight)
          nextFlight := s.nextFlight + 1 })
      (hrecoveries : s'.recoveries = s.recoveries)
  | dropped {runtimeId : String}
      (hregistry : s'.toRegistry = { s.toRegistry with attachOwners := Function.update s.attachOwners runtimeId none })
      (hrecoveries : s'.recoveries = s.recoveries)

section Moves

variable {s : Server} {a : Action} {task : Nat} {path : AttachPath}

theorem acquire_eq_ok {g g' : Registry} {runtimeId : String} {flight : Flight}
    (h : acquireRetainedRecoveryOwnership runtimeId g = (.ok flight, g')) :
    g.attachOwners runtimeId = none ∧ g.recoveryOwners runtimeId = none ∧ flight = g.nextFlight ∧
      g' = { g with
        recoveryOwners := Function.update g.recoveryOwners runtimeId (some g.nextFlight)
        nextFlight := g.nextFlight + 1 } := by
  unfold acquireRetainedRecoveryOwnership at h
  split at h
  · cases h
  · rename_i hatt
    split at h
    · cases h
    · rename_i hr
      cases h
      exact ⟨Option.not_isSome_iff_eq_none.mp hatt, Option.not_isSome_iff_eq_none.mp hr, rfl, rfl⟩

theorem setPhase_move {phase : AttachPhase} : Move s a (setPhase task path phase s) := .idle rfl rfl

theorem attachDurableBrokerShared_move
    (h : claims s path = true → s.recoveryOwners path.runtimeId = none ∨ ReclaimedInGap s a) :
    Move s a (attachDurableBrokerShared task path s) := by
  unfold attachDurableBrokerShared
  cases path with
  | operator runtimeId => exact setPhase_move
  | shared runtime =>
    dsimp only
    split
    · exact setPhase_move
    · rename_i hatt
      split
      · exact setPhase_move
      · rename_i hp
        split
        · exact setPhase_move
        · rename_i hat
          refine .claimed hatt (h ?_) rfl rfl
          simp [claims, hatt, hp, hat]

theorem beginAttach_move : Move s a (beginAttach task path s) := by
  unfold beginAttach
  cases path with
  | operator runtimeId => exact setPhase_move
  | shared runtime =>
    dsimp only
    split
    · exact setPhase_move
    · rename_i hfl
      exact attachDurableBrokerShared_move fun _ => .inl (Option.not_isSome_iff_eq_none.mp hfl)

theorem settleAttach_move {operation : Flight} : Move s a (settleAttach task path operation s) := by
  unfold settleAttach
  split
  · exact .dropped rfl rfl
  · exact .idle rfl rfl

theorem step_move : Move s a (step a s) := by
  cases a with
  | recover runtimeId =>
    unfold step
    dsimp only
    split
    · rename_i hacq
      obtain ⟨hatt, hr, rfl, rfl⟩ := acquire_eq_ok hacq
      exact .acquired hatt hr rfl rfl
    · exact .idle rfl rfl
  | release flight =>
    unfold step
    dsimp only
    split
    · exact .released rfl ‹_› rfl rfl
    · exact .idle rfl rfl
  | attach task path =>
    unfold step
    dsimp only
    split
    · exact .idle rfl rfl
    · exact beginAttach_move
  | wake task =>
    unfold step
    dsimp only
    split
    · split
      · exact setPhase_move
      · exact .idle rfl rfl
    · exact .idle rfl rfl
  | resume task =>
    unfold step
    dsimp only
    split
    · rename_i path hc
      refine attachDurableBrokerShared_move fun hclm => ?_
      cases hown : s.recoveryOwners path.runtimeId with
      | none => exact .inl rfl
      | some flight => exact .inr ⟨_, hc, rfl, hclm, by rw [hown]; rfl⟩
    · exact .idle rfl rfl
  | settle task =>
    unfold step
    dsimp only
    split
    · exact settleAttach_move
    · exact .idle rfl rfl
  | world db clients => exact .idle rfl rfl

end Moves

def Holds (s : Server) (flight : Flight) (runtimeId : String) : Prop :=
  s.recoveries flight = some runtimeId ∧ s.released flight = false

structure Registered (s : Server) : Prop where
  fresh : ∀ flight, s.nextFlight ≤ flight → s.recoveries flight = none ∧ s.released flight = false
  owned : ∀ runtimeId flight, s.recoveryOwners runtimeId = some flight → Holds s flight runtimeId
  active : ∀ runtimeId flight, Holds s flight runtimeId → s.recoveryOwners runtimeId = some flight

def Exclusive (s : Server) : Prop := ∀ runtimeId, s.attachOwners runtimeId = none ∨ s.recoveryOwners runtimeId = none

def Returns (s s' : Server) : Prop :=
  ∀ task call, s'.calls task = some call → call.phase = .returned → s.calls task ≠ some call →
    s'.recoveryOwners call.path.runtimeId = none

structure Law (s : Server) (a : Action) (s' : Server) : Prop where
  single : ∀ runtimeId f g, Holds s' f runtimeId → Holds s' g runtimeId → f = g
  ownFlight : ∀ runtimeId flight, s.recoveryOwners runtimeId = some flight →
    s'.recoveryOwners runtimeId ≠ some flight → a = .release flight
  idempotent : ∀ flight, a = .release flight → step a s' = s'
  returns : Returns s s'

section Invariants

variable {s s' : Server} {a : Action}

theorem Registered.same (h : Registered s) (hn : s.nextFlight ≤ s'.nextFlight)
    (how : s'.recoveryOwners = s.recoveryOwners) (hreleased : s'.released = s.released)
    (hr : s'.recoveries = s.recoveries) : Registered s' := by
  refine ⟨fun flight hle => ?_, fun runtimeId flight hown => ?_, fun runtimeId flight hold => ?_⟩
  · rw [hr, hreleased]
    exact h.fresh flight (Nat.le_trans hn hle)
  · unfold Holds
    rw [hr, hreleased]
    exact h.owned runtimeId flight (how ▸ hown)
  · unfold Holds at hold
    rw [hr, hreleased] at hold
    rw [how]
    exact h.active runtimeId flight hold

theorem Registered.acquired (h : Registered s) {taken : String} (hfr : s.recoveryOwners taken = none)
    (hn : s'.nextFlight = s.nextFlight + 1)
    (how : s'.recoveryOwners = Function.update s.recoveryOwners taken (some s.nextFlight))
    (hreleased : s'.released = s.released)
    (hr : s'.recoveries = Function.update s.recoveries s.nextFlight (some taken)) : Registered s' := by
  obtain ⟨hun, hu⟩ := h.fresh s.nextFlight (Nat.le_refl _)
  refine ⟨fun flight hle => ?_, fun runtimeId flight hown => ?_, fun runtimeId flight ⟨hf, hop⟩ => ?_⟩
  · have hlt : s.nextFlight < flight := by rwa [hn] at hle
    rw [hr, hreleased, update_of_ne (Nat.ne_of_gt hlt)]
    exact h.fresh flight (Nat.le_of_lt hlt)
  · unfold Holds
    rw [hr, hreleased]
    rw [how] at hown
    by_cases hid : runtimeId = taken
    · subst hid
      rw [update_self, Option.some.injEq] at hown
      subst hown
      exact ⟨update_self .., hu⟩
    · rw [update_of_ne hid] at hown
      obtain ⟨hf, hop⟩ := h.owned runtimeId flight hown
      have hne : flight ≠ s.nextFlight := by
        rintro rfl
        rw [hun] at hf
        cases hf
      rw [update_of_ne hne]
      exact ⟨hf, hop⟩
  · rw [hr] at hf
    rw [hreleased] at hop
    rw [how]
    by_cases hfl : flight = s.nextFlight
    · subst hfl
      rw [update_self, Option.some.injEq] at hf
      subst hf
      exact update_self ..
    · rw [update_of_ne hfl] at hf
      have hown := h.active runtimeId flight ⟨hf, hop⟩
      rw [update_of_ne]
      · exact hown
      · rintro rfl
        rw [hfr] at hown
        cases hown

variable {runtimeId : String} {flight : Flight}

theorem Registered.released (h : Registered s) (hold : Holds s flight runtimeId)
    (hn : s'.nextFlight = s.nextFlight)
    (how : s'.recoveryOwners = Function.update s.recoveryOwners runtimeId none)
    (hreleased : s'.released = Function.update s.released flight true)
    (hr : s'.recoveries = s.recoveries) : Registered s' := by
  obtain ⟨hfl, hop⟩ := hold
  have hown := h.active runtimeId flight ⟨hfl, hop⟩
  refine ⟨fun other hle => ?_, fun runtimeId' other ho' => ?_, fun runtimeId' other ⟨hf, hh⟩ => ?_⟩
  · rw [hn] at hle
    have hne : other ≠ flight := by
      rintro rfl
      rw [(h.fresh _ hle).1] at hfl
      cases hfl
    rw [hr, hreleased, update_of_ne hne]
    exact h.fresh other hle
  · unfold Holds
    rw [hr, hreleased]
    rw [how] at ho'
    have hid : runtimeId' ≠ runtimeId := by
      rintro rfl
      rw [update_self] at ho'
      cases ho'
    rw [update_of_ne hid] at ho'
    obtain ⟨hf, hh⟩ := h.owned runtimeId' other ho'
    have hne : other ≠ flight := by
      rintro rfl
      rw [hfl, Option.some.injEq] at hf
      exact hid hf.symm
    rw [update_of_ne hne]
    exact ⟨hf, hh⟩
  · rw [hr] at hf
    rw [hreleased] at hh
    rw [how]
    have hne : other ≠ flight := by
      rintro rfl
      rw [update_self] at hh
      cases hh
    rw [update_of_ne hne] at hh
    have ho' := h.active runtimeId' other ⟨hf, hh⟩
    rw [update_of_ne]
    · exact ho'
    · rintro rfl
      rw [hown, Option.some.injEq] at ho'
      exact hne ho'.symm

theorem release_eq (h : Registered s) (hfl : s.recoveries flight = some runtimeId) :
    (s.released flight = true ∧ release runtimeId flight s.toRegistry = s.toRegistry) ∨
      (Holds s flight runtimeId ∧ release runtimeId flight s.toRegistry =
        { s.toRegistry with
          released := Function.update s.released flight true
          recoveryOwners := Function.update s.recoveryOwners runtimeId none }) := by
  unfold release
  split
  · exact .inl ⟨‹_›, rfl⟩
  · rename_i hop
    have hold : Holds s flight runtimeId := ⟨hfl, Bool.eq_false_iff.mpr hop⟩
    rw [if_pos (h.active runtimeId flight hold)]
    exact .inr ⟨hold, rfl⟩

theorem Registered.move (h : Registered s) (hm : Move s a s') : Registered s' := by
  cases hm with
  | idle hreg hr =>
    exact h.same (by rw [hreg]) (by rw [hreg]) (by rw [hreg]) hr
  | claimed _ _ hreg hr =>
    exact h.same (by rw [hreg]; exact Nat.le_succ _) (by rw [hreg]) (by rw [hreg]) hr
  | dropped hreg hr =>
    exact h.same (by rw [hreg]) (by rw [hreg]) (by rw [hreg]) hr
  | acquired _ hf hreg hr =>
    exact h.acquired hf (by rw [hreg]) (by rw [hreg]) (by rw [hreg]) hr
  | released _ hfl hreg hr =>
    rcases release_eq h hfl with ⟨_, heq⟩ | ⟨hold, heq⟩
    · rw [heq] at hreg
      exact h.same (by rw [hreg]) (by rw [hreg]) (by rw [hreg]) hr
    · rw [heq] at hreg
      exact h.released hold (by rw [hreg]) (by rw [hreg]) (by rw [hreg]) hr

theorem Exclusive.move (h : Exclusive s) (hr : Registered s) (hm : Move s a s') (hg : ¬ ReclaimedInGap s a) :
    Exclusive s' := by
  intro runtimeId
  cases hm with
  | idle hreg =>
    rw [hreg]
    exact h runtimeId
  | @acquired taken hatt hf hreg =>
    rw [hreg]
    by_cases hid : runtimeId = taken
    · subst hid
      exact .inl hatt
    · exact (h runtimeId).imp_right fun hown => (update_of_ne hid ..).trans hown
  | @released flight released _ hfl hreg =>
    rcases release_eq hr hfl with ⟨_, heq⟩ | ⟨_, heq⟩
    · rw [hreg, heq]
      exact h runtimeId
    · rw [hreg, heq]
      by_cases hid : runtimeId = released
      · subst hid
        exact .inr (update_self ..)
      · exact (h runtimeId).imp_right fun hown => (update_of_ne hid ..).trans hown
  | @claimed taken hatt hrec hreg =>
    rw [hreg]
    by_cases hid : runtimeId = taken
    · subst hid
      exact .inr (hrec.resolve_right hg)
    · exact (h runtimeId).imp_left fun hown => (update_of_ne hid ..).trans hown
  | @dropped dropped hreg =>
    rw [hreg]
    by_cases hid : runtimeId = dropped
    · subst hid
      exact .inl (update_self ..)
    · exact (h runtimeId).imp_left fun hown => (update_of_ne hid ..).trans hown

theorem gap_not_exclusive (hg : ReclaimedInGap s a) : ¬ Exclusive (step a s) := by
  cases a with
  | resume task =>
    obtain ⟨⟨path, phase⟩, hc, hph, hclm, hown⟩ := hg
    dsimp only at hph hclm hown
    subst hph
    intro he
    cases path with
    | operator runtimeId => cases hclm
    | shared runtime =>
      simp only [claims, Bool.and_eq_true, Option.isNone_iff_eq_none, Bool.not_eq_true'] at hclm
      obtain ⟨⟨hatt, hp⟩, hat⟩ := hclm
      have hs : step (.resume task) s = setPhase task (.shared runtime) (.owning s.nextFlight)
          { s with
            attachOwners := Function.update s.attachOwners runtime.runtimeId (some s.nextFlight)
            nextFlight := s.nextFlight + 1 } := by
        unfold step
        dsimp only
        rw [Option.mem_def.mp hc]
        dsimp only
        unfold attachDurableBrokerShared
        dsimp only
        rw [hatt]
        simp [hp, hat]
      rcases he runtime.runtimeId with hn | hn
      · rw [hs] at hn
        simp [setPhase] at hn
      · rw [hs] at hn
        have hn : s.recoveryOwners runtime.runtimeId = none := hn
        simp [AttachPath.runtimeId, hn] at hown
  | _ => exact hg.elim

theorem Holds.unique (h : Registered s) {f g : Flight} (hf : Holds s f runtimeId)
    (hg : Holds s g runtimeId) : f = g :=
  Option.some.inj ((h.active runtimeId f hf).symm.trans (h.active runtimeId g hg))

theorem Move.ownFlight (hr : Registered s) (hm : Move s a s')
    (hown : s.recoveryOwners runtimeId = some flight) (hd : s'.recoveryOwners runtimeId ≠ some flight) :
    a = .release flight := by
  cases hm with
  | idle hreg => exact absurd (by rw [hreg]; exact hown) hd
  | claimed _ _ hreg => exact absurd (by rw [hreg]; exact hown) hd
  | dropped hreg => exact absurd (by rw [hreg]; exact hown) hd
  | @acquired taken _ hf hreg =>
    refine absurd ?_ hd
    have hid : runtimeId ≠ taken := by
      rintro rfl
      rw [hf] at hown
      cases hown
    rw [hreg]
    exact (update_of_ne hid ..).trans hown
  | @released other released hact hfl hreg =>
    rcases release_eq hr hfl with ⟨_, heq⟩ | ⟨hold, heq⟩
    · exact absurd (by rw [hreg, heq]; exact hown) hd
    · by_cases hid : runtimeId = released
      · subst hid
        rw [hr.active runtimeId other hold, Option.some.injEq] at hown
        rw [hact, hown]
      · exact absurd (by rw [hreg, heq]; exact (update_of_ne hid ..).trans hown) hd

theorem release_release {g : Registry} :
    release runtimeId flight (release runtimeId flight g) = release runtimeId flight g := by
  by_cases h : g.released flight = true
  · simp only [release, if_pos h]
  · simp only [release, if_neg h, update_self, if_pos]

theorem step_release_idempotent :
    step (.release flight) (step (.release flight) s) = step (.release flight) s := by
  cases h : s.recoveries flight with
  | none => simp only [step, h]
  | some runtimeId => simp only [step, h, release_release]

end Invariants

section Waits

variable {s s' : Server} {task : Nat} {path : AttachPath}

theorem awaitRetainedRecoveryOwner_returned {g : Registry} {runtimeId : String}
    (h : awaitRetainedRecoveryOwner g runtimeId = .returned) : g.recoveryOwners runtimeId = none := by
  unfold awaitRetainedRecoveryOwner at h
  split at h
  · cases h
  · assumption

theorem returns_same (h : s'.calls = s.calls) : Returns s s' := by
  intro task call hc _ hn
  rw [h] at hc
  exact absurd hc hn

theorem setPhase_returns {phase : AttachPhase} (hcl : s'.calls = s.calls)
    (h : phase = .returned → s'.recoveryOwners path.runtimeId = none) : Returns s (setPhase task path phase s') := by
  intro task' call hc hph hn
  by_cases ht : task' = task
  · subst ht
    rw [show (setPhase task' path phase s').calls task' = some ⟨path, phase⟩ from update_self ..,
      Option.some.injEq] at hc
    subst hc
    exact h hph
  · rw [show (setPhase task path phase s').calls task' = s'.calls task' from update_of_ne ht .., hcl] at hc
    exact absurd hc hn

theorem attachDurableBrokerShared_returns : Returns s (attachDurableBrokerShared task path s) := by
  unfold attachDurableBrokerShared
  cases path with
  | operator runtimeId =>
    refine setPhase_returns rfl fun h => ?_
    split at h <;> cases h
  | shared runtime =>
    dsimp only
    split
    · exact setPhase_returns rfl nofun
    · split
      · exact setPhase_returns rfl nofun
      · split
        · exact setPhase_returns rfl nofun
        · exact setPhase_returns rfl nofun

theorem beginAttach_returns : Returns s (beginAttach task path s) := by
  unfold beginAttach
  cases path with
  | operator runtimeId => exact setPhase_returns rfl awaitRetainedRecoveryOwner_returned
  | shared runtime =>
    dsimp only
    split
    · exact setPhase_returns rfl awaitRetainedRecoveryOwner_returned
    · exact attachDurableBrokerShared_returns

theorem step_returns {a : Action} : Returns s (step a s) := by
  cases a with
  | recover runtimeId =>
    unfold step
    dsimp only
    split <;> exact returns_same rfl
  | release flight =>
    unfold step
    dsimp only
    split <;> exact returns_same rfl
  | attach task path =>
    unfold step
    dsimp only
    split
    · exact returns_same rfl
    · exact beginAttach_returns
  | wake task =>
    unfold step
    dsimp only
    split
    · split
      · exact setPhase_returns rfl awaitRetainedRecoveryOwner_returned
      · exact returns_same rfl
    · exact returns_same rfl
  | resume task =>
    unfold step
    dsimp only
    split
    · exact attachDurableBrokerShared_returns
    · exact returns_same rfl
  | settle task =>
    unfold step
    dsimp only
    split
    · exact setPhase_returns rfl nofun
    · exact returns_same rfl
  | world db clients => exact returns_same rfl

end Waits

section Runs

def boot (db : Db) (activeClientInvocationId : String → Option String) : Server := { db, activeClientInvocationId }

theorem boot_registered (db : Db) (clients : String → Option String) : Registered (boot db clients) :=
  ⟨fun _ _ => ⟨rfl, rfl⟩, nofun, fun _ _ h => by cases h.1⟩

variable {s : Server}

theorem step_registered {a : Action} (h : Registered s) : Registered (step a s) := h.move step_move

theorem step_law {a : Action} (h : Registered s) : Law s a (step a s) where
  single _ _ _ hf hg := hf.unique (step_registered h) hg
  ownFlight _ _ := step_move.ownFlight h
  idempotent flight ha := by
    subst ha
    exact step_release_idempotent
  returns := step_returns

theorem meets_of_exclusive {actions : List Action}
    (h : ∀ before a after, actions = before ++ a :: after → Exclusive (run step (before ++ [a]) s)) :
    Meets step (fun s a => ¬ ReclaimedInGap s a) actions s := by
  induction actions generalizing s with
  | nil => trivial
  | cons a actions ih =>
    refine ⟨fun hg => gap_not_exclusive hg (h [] a actions rfl), ih fun before a' after hsp => ?_⟩
    exact h (a :: before) a' after (by rw [hsp]; rfl)

/-- Over every interleaving from the start of a server: at most one recovery flight holds a runtime, a
release is idempotent and clears its own flight only, a wait returns only without a recovery owner; and no
runtime ever has an attach and a recovery owner exactly when no attach takes it after a recovery did so
between the return of the attach's wait and the attach's resumption. -/
theorem runtime_exclusive_owner (db : Db) (clients : String → Option String) (actions : List Action) :
    (∀ before a after, actions = before ++ a :: after →
      Law (run step before (boot db clients)) a (run step (before ++ [a]) (boot db clients))) ∧
    ((∀ before a after, actions = before ++ a :: after → Exclusive (run step (before ++ [a]) (boot db clients))) ↔
      Meets step (fun s a => ¬ ReclaimedInGap s a) actions (boot db clients)) := by
  refine ⟨fun before a after h => ?_, meets_of_exclusive, fun hmt before a after h => ?_⟩
  · exact run_each (fun s a hs _ => step_registered hs) (fun s a hs _ => step_law hs)
      (boot_registered db clients) meets_true h
  · have hi := run_each (I := fun s => Registered s ∧ Exclusive s) (P := fun _ _ s' => Exclusive s')
      (fun s a hs hg => ⟨step_registered hs.1, hs.2.move hs.1 step_move hg⟩)
      (fun s a hs hg => hs.2.move hs.1 step_move hg) ⟨boot_registered db clients, fun _ => .inl rfl⟩ hmt h
    exact hi

/-- A recovery that starts over between the return of an attach's wait and the attach's resumption. -/
theorem runtime_reclaimed_in_gap :
    let runtime : HrcRuntimeSnapshot := { runtimeId := "rt", hostSessionId := "host" }
    let actions : List Action := [.recover "rt", .attach 0 (.shared runtime), .release 0, .wake 0, .recover "rt", .resume 0]
    let s := run step actions (boot {} fun _ => none)
    s.attachOwners "rt" = some 2 ∧ s.recoveryOwners "rt" = some 1 := by
  decide +kernel

end Runs

end HrcRuntime.RuntimeExclusiveOwner
