import HrcRuntime.RuntimeStart

namespace HrcRuntime.RuntimeStart

open Records

variable {s s' : State} {d e : DispatchId} {x : Dispatch} {entry entry' : Option Operation}

def Operation.dispatch : Operation → DispatchId
  | .boot d | .ownership d | .firstTurn d => d

@[simp] theorem operation_dispatch (x : Dispatch) (d : DispatchId) : (x.operation d).dispatch = d := by
  unfold Dispatch.operation
  split <;> rfl

theorem operation_ne {op : Operation} (hop : op.dispatch = d) (hne : e ≠ d) (x : Dispatch) : op ≠ x.operation e := by
  rintro rfl
  rw [operation_dispatch] at hop
  exact hne hop

def Stage.unstarted : Stage → Bool
  | .absent | .admitting | .preparing | .joining _ _ => true
  | _ => false

structure Good (entry : Option Operation) (d : DispatchId) (x : Dispatch) : Prop where
  named : x.inFlight = true → entry = some (x.operation d)
  reattaching : x.stage = .reattaching → entry = some (.ownership d) ∧ x.owner = true ∧ x.birth = none
  unstarted : x.stage.unstarted = true → x.birth = none ∧ x.owner = false ∧ x.ownershipOutcome = none
  unsettled : x.inFlight = true ∨ x.stage = .reattaching → x.ownershipOutcome = none
  released : ∀ b, x.birth = some b → b.released = true → b.outcome.isSome = true ∧ entry ≠ some (x.operation d)

def Inv (s : State) : Prop := ∀ d, Good s.runtimeStartOperation d (s.dispatches d)

theorem inv_initial : Inv initial := fun d =>
  { named := fun h => (by cases h), reattaching := fun h => (by cases h), unstarted := fun _ => ⟨rfl, rfl, rfl⟩
    unsettled := fun _ => rfl, released := fun _ h => (by cases h) }

namespace Good

theorem rename (h : Good entry d x) (hfl : x.inFlight = false) (hstage : x.stage ≠ .reattaching)
    (he : entry' ≠ some (x.operation d)) : Good entry' d x where
  named hx := by rw [hfl] at hx; cases hx
  reattaching hx := absurd hx hstage
  unstarted := h.unstarted
  unsettled := h.unsettled
  released b hb hreleased := ⟨(h.released b hb hreleased).1, he⟩

theorem idle (h : Good entry e x) {op : Operation} (he : entry = some op) (hne : e ≠ op.dispatch) :
    x.inFlight = false ∧ x.stage ≠ .reattaching := by
  constructor
  · by_contra hfl
    have hn := h.named (by simpa using hfl)
    rw [he] at hn
    exact operation_ne rfl hne x (Option.some.inj hn)
  · intro hstage
    have hn := (h.reattaching hstage).1
    rw [he] at hn
    rw [Option.some.inj hn] at hne
    exact hne rfl

theorem setStage (h : Good entry d x) {stage : Stage} (hne : stage ≠ .reattaching)
    (hu : stage.unstarted = true → x.stage.unstarted = true) : Good entry d { x with stage } where
  named := h.named
  reattaching hx := absurd hx hne
  unstarted hx := h.unstarted (hu hx)
  unsettled hx := h.unsettled (.inl (hx.resolve_right hne))
  released := h.released

theorem of_settled (h : Good entry d x) (hfl : x.inFlight = false) {stage : Stage} {o : Option Outcome}
    (hne : stage ≠ .reattaching) (hu : stage.unstarted = false)
    (he : entry' ≠ some (x.operation d)) : Good entry' d { x with stage, ownershipOutcome := o } where
  named hx := by
    change x.inFlight = true at hx
    rw [hfl] at hx
    cases hx
  reattaching hx := absurd hx hne
  unstarted hx := by
    change stage.unstarted = true at hx
    rw [hu] at hx
    cases hx
  unsettled hx := by
    rcases hx with hx | hx
    · change x.inFlight = true at hx
      rw [hfl] at hx
      cases hx
    · exact absurd hx hne
  released b hb hreleased := ⟨(h.released b hb hreleased).1, he⟩

end Good

namespace State

@[simp] theorem put_self : (s.put d x).dispatches d = x := Function.update_self ..

theorem put_of_ne (h : e ≠ d) : (s.put d x).dispatches e = s.dispatches e := Function.update_of_ne h ..

@[simp] theorem forget_dispatches (op : Operation) : (s.forget op).dispatches = s.dispatches := by
  unfold forget
  split <;> rfl

theorem forget_entry (op : Operation) : (s.forget op).runtimeStartOperation ≠ some op := by
  unfold forget
  split
  · simp
  · assumption

end State

section Steps

theorem Inv.forget (hs : ∀ e ≠ d, Good s.runtimeStartOperation e (s.dispatches e)) {op : Operation}
    (hop : op.dispatch = d) (hsl : Good (s.forget op).runtimeStartOperation d (s.dispatches d)) :
    Inv (s.forget op) := by
  intro e
  rw [State.forget_dispatches]
  by_cases hne : e = d
  · subst hne
    exact hsl
  · have hg := hs e hne
    unfold State.forget
    split
    · rename_i he
      obtain ⟨hfl, hstage⟩ := hg.idle he (hop ▸ hne)
      exact hg.rename hfl hstage (by simp)
    · exact hg

theorem Inv.put (hs : Inv s) (hsl : Good s.runtimeStartOperation d x) : Inv (s.put d x) := by
  intro e
  by_cases hne : e = d
  · subst hne
    rw [State.put_self]
    exact hsl
  · rw [State.put_of_ne hne]
    exact hs e

theorem Inv.setStage (hs : Inv s) {stage : Stage} (hne : stage ≠ .reattaching)
    (hu : stage.unstarted = true → (s.dispatches d).stage.unstarted = true) : Inv (s.setStage d stage) :=
  hs.put ((hs d).setStage hne hu)

def Idle (s : State) : Prop := ∀ e, (s.dispatches e).inFlight = false ∧ (s.dispatches e).stage ≠ .reattaching

theorem Inv.idle_of_none (hs : Inv s) (h : s.runtimeStartOperation = none) : Idle s := by
  intro e
  constructor
  · by_contra hfl
    have hn := (hs e).named (by simpa using hfl)
    rw [h] at hn
    cases hn
  · intro hstage
    have hn := ((hs e).reattaching hstage).1
    rw [h] at hn
    cases hn

theorem Inv.take (hs : Inv s) (hi : Idle s) {op : Operation} (hop : op.dispatch = d)
    (hsl : Good (some op) d x) : Inv { s.put d x with runtimeStartOperation := some op } := by
  intro e
  change Good (some op) e ((s.put d x).dispatches e)
  by_cases hne : e = d
  · subst hne
    rw [State.put_self]
    exact hsl
  · rw [State.put_of_ne hne]
    obtain ⟨hfl, hstage⟩ := hi e
    exact (hs e).rename hfl hstage fun h => operation_ne hop hne _ (Option.some.inj h)

theorem Inv.startRuntime (hs : Inv s) (hi : Idle s) (hstage : (s.dispatches d).stage.unstarted = true) :
    Inv (s.startRuntime d) := by
  obtain ⟨-, hown, hout⟩ := (hs d).unstarted hstage
  refine hs.take hi rfl ⟨fun _ => ?_, fun h => (by cases h), fun h => (by cases h), fun _ => hout, ?_⟩
  · simp [Dispatch.operation, hown]
  · rintro b ⟨⟩ hreleased
    cases hreleased

theorem Inv.claimOwnership (hs : Inv s) (hi : Idle s) (hstage : (s.dispatches d).stage.unstarted = true) :
    Inv (s.claimOwnership d) := by
  obtain ⟨hbth, -, hout⟩ := (hs d).unstarted hstage
  refine hs.take hi rfl ⟨fun h => ?_, fun _ => ⟨rfl, rfl, hbth⟩, fun h => (by cases h), fun _ => hout, ?_⟩
  · change (s.dispatches d).inFlight = true at h
    rw [Dispatch.inFlight, hbth] at h
    cases h
  · intro b hb
    change (s.dispatches d).birth = some b at hb
    rw [hbth] at hb
    cases hb

theorem Inv.startOwnedRuntime (hs : Inv s) (hstage : (s.dispatches d).stage = .reattaching) :
    Inv (s.startOwnedRuntime d) := by
  obtain ⟨he, hown, -⟩ := (hs d).reattaching hstage
  have hout := (hs d).unsettled (.inr hstage)
  refine hs.put ⟨fun _ => ?_, fun h => (by cases h), fun h => (by cases h), fun _ => hout, ?_⟩
  · simp [Dispatch.operation, hown, he]
  · rintro b ⟨⟩ hreleased
    cases hreleased

theorem Inv.giveUp (hs : Inv s) (hfl : (s.dispatches d).inFlight = false) (hown : (s.dispatches d).owner = true)
    (stage : Stage) (hne : stage ≠ .reattaching) (hu : stage.unstarted = false) (outcome : Outcome) :
    Inv (((s.settleOwnership d outcome).setStage d stage).forget (.ownership d)) := by
  refine Inv.forget (d := d) (fun e hne => ?_) rfl ?_
  · rw [State.setStage, State.put_of_ne hne, State.settleOwnership, State.put_of_ne hne]
    exact hs e
  · rw [State.setStage, State.put_self, State.settleOwnership, State.put_self]
    refine (hs d).of_settled hfl hne hu ?_
    rw [Dispatch.operation, if_pos hown]
    exact State.forget_entry _

theorem Inv.settle (hs : Inv s) (outcome : Outcome) : Inv (s.settle d outcome) := by
  unfold State.settle
  split
  · rename_i birth hbth
    split
    · rename_i hn
      have hnt : (s.dispatches d).stage ≠ .reattaching := fun h => by
        rw [((hs d).reattaching h).2.2] at hbth
        cases hbth
      refine hs.put ⟨fun h => ?_, fun h => absurd h hnt, fun h => ?_, fun h => ?_, ?_⟩
      · simp [Dispatch.inFlight] at h
      · have hu := ((hs d).unstarted h).1
        rw [hbth] at hu
        cases hu
      · rcases h with h | h
        · simp [Dispatch.inFlight] at h
        · exact absurd h hnt
      · rintro b ⟨⟩ hreleased
        rw [Option.isNone_iff_eq_none] at hn
        have := ((hs d).released birth hbth hreleased).1
        rw [hn] at this
        cases this
    · exact hs
  · exact hs

theorem Inv.release (hs : Inv s) : Inv (s.release d) := by
  unfold State.release
  split
  · rename_i birth hbth
    split
    · rename_i hsm
      have hfl : (s.dispatches d).inFlight = false := by
        rw [Dispatch.inFlight, hbth, Option.any_some, Option.isNone_eq_false_iff]
        exact hsm
      have hn : (s.dispatches d).stage ≠ .reattaching := fun h => by
        rw [((hs d).reattaching h).2.2] at hbth
        cases hbth
      refine Inv.forget (d := d) (fun e hne => ?_) (operation_dispatch _ _) ?_
      · rw [State.put_of_ne hne]
        exact hs e
      · rw [State.put_self]
        refine ⟨fun h => ?_, fun h => absurd h hn, fun h => ?_, fun h => ?_, ?_⟩
        · simp [Dispatch.inFlight, Option.isNone_eq_false_iff.mpr hsm] at h
        · have hu := ((hs d).unstarted h).1
          rw [hbth] at hu
          cases hu
        · rcases h with h | h
          · simp [Dispatch.inFlight, Option.isNone_eq_false_iff.mpr hsm] at h
          · exact absurd h hn
        · rintro b ⟨⟩ -
          exact ⟨hsm, State.forget_entry _⟩
    · exact hs
  · exact hs

theorem Inv.endFirstTurn (hs : Inv s) : Inv (s.endFirstTurn d) := by
  unfold State.endFirstTurn
  split
  · rename_i birth hbth
    have hg := hs d
    have hfl : ({ s.dispatches d with birth := some { birth with firstTurnEnded := true } } : Dispatch).inFlight =
        (s.dispatches d).inFlight := by
      rw [Dispatch.inFlight, Dispatch.inFlight, hbth]
      rfl
    have hbirth_none : (s.dispatches d).birth ≠ none := by simp [hbth]
    refine hs.put ⟨fun h => ?_, fun h => ?_, fun h => ?_, fun h => ?_, ?_⟩
    · rw [hfl] at h
      exact hg.named h
    · exact absurd (hg.reattaching h).2.2 hbirth_none
    · exact absurd (hg.unstarted h).1 hbirth_none
    · rw [hfl] at h
      exact hg.unsettled h
    · rintro b ⟨⟩ hreleased
      exact hg.released birth hbth hreleased
  · exact hs

theorem Inv.settleOwnership (hs : Inv s) {outcome : Outcome} (hout : (s.dispatches d).outcome = some outcome)
    (hown : (s.dispatches d).owner = true) : Inv (s.settleOwnership d outcome) := by
  have hg := hs d
  have hfl : (s.dispatches d).inFlight = false := by
    unfold Dispatch.outcome at hout
    unfold Dispatch.inFlight
    cases hbth : (s.dispatches d).birth with
    | none => rfl
    | some birth =>
      rw [hbth, Option.bind_some] at hout
      simp [hout]
  have hn : (s.dispatches d).stage ≠ .reattaching := fun h => by
    unfold Dispatch.outcome at hout
    rw [(hg.reattaching h).2.2] at hout
    cases hout
  refine hs.put ⟨hg.named, fun h => absurd h hn, fun h => ?_, fun h => ?_, hg.released⟩
  · have hu := (hg.unstarted h).2.1
    rw [hown] at hu
    cases hu
  · rcases h with h | h
    · change (s.dispatches d).inFlight = true at h
      rw [hfl] at h
      cases h
    · exact absurd h hn

end Steps

section Run

def State.startPending (s : State) : Bool :=
  match s.runtimeStartOperation with
  | some operation => (s.settled operation).isNone
  | none => false

def passesFence (s : State) (d : DispatchId) : Bool :=
  match (s.dispatches d).stage with
  | .joining .admittedTurn operation =>
    !(s.dispatches d).request.joinInFlightRuntimeStart
      && (s.settled operation).any fun outcome => outcome != .failed && outcome != .born .tmux
  | _ => false

/-- The map decides every start: a cold format-2 start, and a start past a fence, find no pending
operation in it, and an owner of a reattach does not fail while its own boot is in flight. -/
def allowed (s : State) : Action → Bool
  | .admitted d .start => (s.dispatches d).request.door != .format2 || !s.startPending
  | .resume d .start => !passesFence s d || !s.startPending
  | .fail d => (s.dispatches d).stage != .starting || !(s.dispatches d).owner || !(s.dispatches d).inFlight
  | _ => true

theorem Inv.idle_of_pending (hs : Inv s) (h : s.startPending = false) : Idle s := by
  intro e
  have hg := hs e
  have hn : ∀ op, s.runtimeStartOperation = some op → s.settled op ≠ none := by
    intro op he hnn
    simp [State.startPending, he, hnn] at h
  constructor
  · by_contra hfl
    have hfl : (s.dispatches e).inFlight = true := by simpa using hfl
    refine hn _ (hg.named hfl) ?_
    unfold Dispatch.operation
    split
    · exact hg.unsettled (.inl hfl)
    · unfold Dispatch.inFlight at hfl
      change (s.dispatches e).outcome = none
      unfold Dispatch.outcome
      cases hbth : (s.dispatches e).birth with
      | none => rfl
      | some birth => simpa [hbth] using hfl
  · intro hstage
    exact hn _ (hg.reattaching hstage).1 (hg.unsettled (.inr hstage))

theorem Inv.handleInteractive (hs : Inv s) (hstage : (s.dispatches d).stage.unstarted = true)
    (hi : (s.dispatches d).request.joinInFlightRuntimeStart = false → Idle s) :
    Inv (s.handleInteractiveTmuxBrokerDispatchTurn d) := by
  unfold State.handleInteractiveTmuxBrokerDispatchTurn
  dsimp only
  split
  · exact hs.setStage (by simp) fun _ => hstage
  · rename_i hn
    have hall : Idle s := by
      cases hj : (s.dispatches d).request.joinInFlightRuntimeStart with
      | false => exact hi hj
      | true =>
        rw [hj, if_pos rfl, State.inFlightStart, Option.or_eq_none_iff] at hn
        exact hs.idle_of_none hn.2
    have hsta := hs.startRuntime hall hstage
    split
    · exact hsta
    · exact hsta

theorem Inv.admitInteractive (hs : Inv s) (hstage : (s.dispatches d).stage.unstarted = true) (decision : Decision)
    (hi : decision = .start → (s.dispatches d).request.joinInFlightRuntimeStart = false → Idle s) :
    Inv (s.admitInteractive d decision) := by
  cases decision with
  | refuse => exact hs.setStage (by simp) fun h => (by cases h)
  | start => exact hs.handleInteractive hstage (hi rfl)
  | reuse | reattach => exact hs.setStage (by simp) fun h => (by cases h)

theorem Inv.executeAdmittedTurn (hs : Inv s) (hstage : (s.dispatches d).stage = .admitting) (decision : Decision)
    (hok : allowed s (.admitted d decision) = true) : Inv (s.executeAdmittedTurn d decision) := by
  have hu : (s.dispatches d).stage.unstarted = true := by rw [hstage]; rfl
  unfold State.executeAdmittedTurn
  split
  · rename_i hdoor
    cases decision with
    | refuse => exact hs.setStage (by simp) fun h => (by cases h)
    | start =>
      simp only [allowed, hdoor, bne_self_eq_false, Bool.false_or, Bool.not_eq_true'] at hok
      exact hs.startRuntime (hs.idle_of_pending hok) hu
    | reuse | reattach => exact hs.setStage (by simp) fun h => (by cases h)
  · exact hs.setStage (by simp) fun _ => hu
  · split
    · exact hs.setStage (by simp) fun _ => hu
    · rename_i hn
      rw [State.inFlightStart, Option.or_eq_none_iff] at hn
      exact hs.admitInteractive hu decision fun _ _ => hs.idle_of_none hn.2

theorem Inv.handleHeadless (hs : Inv s) (hstage : (s.dispatches d).stage = .preparing) (decision : Decision) :
    Inv (s.handleHeadlessBrokerDispatchTurn d decision) := by
  have hu : (s.dispatches d).stage.unstarted = true := by rw [hstage]; rfl
  unfold State.handleHeadlessBrokerDispatchTurn
  split
  · exact hs.setStage (by simp) fun _ => hu
  · rename_i hn
    cases decision with
    | refuse => exact hs.setStage (by simp) fun h => (by cases h)
    | reuse => exact hs.setStage (by simp) fun h => (by cases h)
    | start => exact hs.startRuntime (hs.idle_of_none hn) hu
    | reattach => exact hs.claimOwnership (hs.idle_of_none hn) hu

theorem Inv.resume (hs : Inv s) {fence : Fence} {operation : Operation} {outcome : Outcome}
    (hstage : (s.dispatches d).stage = .joining fence operation) (hset : s.settled operation = some outcome)
    (decision : Decision) (hok : allowed s (.resume d decision) = true) :
    Inv (s.resume d fence outcome decision) := by
  have hu : (s.dispatches d).stage.unstarted = true := by rw [hstage]; rfl
  unfold State.resume
  split
  · exact hs.setStage (by simp) fun h => (by cases h)
  · exact hs.setStage (by simp) fun h => (by cases h)
  · rename_i transport hf _
    refine hs.admitInteractive hu decision fun hsta hj => hs.idle_of_pending ?_
    subst hsta
    have hp : passesFence s d = true := by
      simp only [passesFence, hstage, hj, hset, Bool.not_false, Bool.true_and, Option.any_some,
        Bool.and_eq_true, bne_iff_ne]
      exact ⟨by simp, fun h => by cases h; contradiction⟩
    simpa [allowed, hp] using hok
  · exact hs.setStage (by simp) fun h => (by cases h)

theorem Inv.reattached (hs : Inv s) (hstage : (s.dispatches d).stage = .reattaching) (recovered : Option Transport) :
    Inv (s.reattached d recovered) := by
  obtain ⟨-, hown, hbth⟩ := (hs d).reattaching hstage
  have hfl : (s.dispatches d).inFlight = false := by rw [Dispatch.inFlight, hbth]; rfl
  cases recovered with
  | some transport => exact hs.giveUp hfl hown .delivering (by simp) rfl _
  | none => exact hs.startOwnedRuntime hstage

theorem Inv.fail (hs : Inv s) (hok : allowed s (.fail d) = true) : Inv (s.fail d) := by
  unfold State.fail
  split
  · exact hs
  · exact hs
  · exact hs
  · rename_i hstage
    obtain ⟨-, hown, hbth⟩ := (hs d).reattaching hstage
    have hfl : (s.dispatches d).inFlight = false := by rw [Dispatch.inFlight, hbth]; rfl
    exact hs.giveUp hfl hown .failed (by simp) rfl _
  · rename_i hstage
    split
    · rename_i hown
      have hfl : (s.dispatches d).inFlight = false := by simpa [allowed, hstage, hown] using hok
      exact hs.giveUp hfl hown .failed (by simp) rfl _
    · exact hs.setStage (by simp) fun h => (by cases h)
  · exact hs.setStage (by simp) fun h => (by cases h)

theorem inv_step (s : State) (a : Action) (hs : Inv s) (hok : allowed s a = true) : Inv (step a s) := by
  cases a with
  | arrive d request =>
    change Inv (if _ then _ else _)
    split
    · refine hs.put ⟨fun h => (by cases h), fun h => (by cases h), fun _ => ⟨rfl, rfl, rfl⟩, fun _ => rfl, ?_⟩
      rintro b ⟨⟩
    · exact hs
  | admitted d decision =>
    change Inv (if _ then _ else _)
    split
    · exact hs.executeAdmittedTurn ‹_› decision hok
    · exact hs
  | prepared d decision =>
    change Inv (if _ then _ else _)
    split
    · exact hs.handleHeadless ‹_› decision
    · exact hs
  | resume d decision =>
    unfold step
    dsimp only
    split
    · split
      · exact hs.resume ‹_› ‹_› decision hok
      · exact hs
    · exact hs
  | reattached d recovered =>
    change Inv (if _ then _ else _)
    split
    · exact hs.reattached ‹_› recovered
    · exact hs
  | fail d => exact hs.fail hok
  | answer d =>
    change Inv (if _ then _ else _)
    split
    · exact hs.setStage (by simp) fun h => (by cases h)
    · exact hs
  | settle d outcome => exact hs.settle outcome
  | release d => exact hs.release
  | settleOwnership d =>
    unfold step
    dsimp only
    split
    · exact hs.settleOwnership ‹_› ‹_›
    · exact hs
  | endFirstTurn d => exact hs.endFirstTurn
  | dropRendezvous =>
    unfold step
    dsimp only
    split
    · split
      · exact hs
      · exact hs
    · exact hs

end Run

end HrcRuntime.RuntimeStart
