import HrcRuntime.RuntimeStartSingleflight

namespace HrcRuntime.RuntimeStart

open Records Schedule

variable {s : State} {d e : DispatchId}

section Frame

@[simp] theorem inFlight_setStage (stage : Stage) :
    ((s.setStage d stage).dispatches e).inFlight = (s.dispatches e).inFlight := by
  by_cases hne : e = d
  · subst hne
    rw [State.setStage, State.put_self]
    rfl
  · rw [State.setStage, State.put_of_ne hne]

@[simp] theorem inFlight_settleOwnership (outcome : Outcome) :
    ((s.settleOwnership d outcome).dispatches e).inFlight = (s.dispatches e).inFlight := by
  by_cases hne : e = d
  · subst hne
    rw [State.settleOwnership, State.put_self]
    rfl
  · rw [State.settleOwnership, State.put_of_ne hne]

theorem inFlight_put {x : Dispatch} (h : (s.dispatches e).inFlight = true) (hx : e = d → x.inFlight = true) :
    ((s.put d x).dispatches e).inFlight = true := by
  by_cases hne : e = d
  · subst hne
    rw [State.put_self]
    exact hx rfl
  · rwa [State.put_of_ne hne]

theorem inFlight_startRuntime (h : (s.dispatches e).inFlight = true) :
    ((s.startRuntime d).dispatches e).inFlight = true := inFlight_put h fun _ => rfl

theorem inFlight_handleInteractive (h : (s.dispatches e).inFlight = true) :
    ((s.handleInteractiveTmuxBrokerDispatchTurn d).dispatches e).inFlight = true := by
  unfold State.handleInteractiveTmuxBrokerDispatchTurn
  dsimp only
  split
  · rwa [inFlight_setStage]
  · split
    · exact inFlight_startRuntime h
    · exact inFlight_startRuntime h

theorem inFlight_admitInteractive (decision : Decision) (h : (s.dispatches e).inFlight = true) :
    ((s.admitInteractive d decision).dispatches e).inFlight = true := by
  cases decision with
  | start => exact inFlight_handleInteractive h
  | refuse | reuse | reattach =>
    unfold State.admitInteractive
    rwa [inFlight_setStage]

theorem inFlight_executeAdmittedTurn (decision : Decision) (h : (s.dispatches e).inFlight = true) :
    ((s.executeAdmittedTurn d decision).dispatches e).inFlight = true := by
  unfold State.executeAdmittedTurn
  split
  · cases decision with
    | start => exact inFlight_startRuntime h
    | refuse | reuse | reattach =>
      unfold State.executeFormat2
      rwa [inFlight_setStage]
  · rwa [inFlight_setStage]
  · split
    · rwa [inFlight_setStage]
    · exact inFlight_admitInteractive decision h

theorem inFlight_handleHeadless (decision : Decision) (h : (s.dispatches e).inFlight = true) :
    ((s.handleHeadlessBrokerDispatchTurn d decision).dispatches e).inFlight = true := by
  unfold State.handleHeadlessBrokerDispatchTurn
  split
  · rwa [inFlight_setStage]
  · cases decision with
    | refuse | reuse => rwa [inFlight_setStage]
    | start => exact inFlight_startRuntime h
    | reattach => exact inFlight_put h fun heq => by subst heq; exact h

theorem inFlight_resume (fence : Fence) (outcome : Outcome) (decision : Decision)
    (h : (s.dispatches e).inFlight = true) :
    ((s.resume d fence outcome decision).dispatches e).inFlight = true := by
  unfold State.resume
  split
  · rwa [inFlight_setStage]
  · rwa [inFlight_setStage]
  · exact inFlight_admitInteractive decision h
  · rwa [inFlight_setStage]

theorem inFlight_rejectOwnership (h : (s.dispatches e).inFlight = true) :
    ((s.rejectOwnership d).dispatches e).inFlight = true := by
  rwa [State.rejectOwnership, State.forget_dispatches, inFlight_setStage, inFlight_settleOwnership]

theorem inFlight_reattached (recovered : Option Transport) (h : (s.dispatches e).inFlight = true) :
    ((s.reattached d recovered).dispatches e).inFlight = true := by
  cases recovered with
  | some transport =>
    unfold State.reattached
    rwa [State.forget_dispatches, inFlight_setStage, inFlight_settleOwnership]
  | none => exact inFlight_put h fun _ => rfl

theorem inFlight_fail (h : (s.dispatches e).inFlight = true) : ((s.fail d).dispatches e).inFlight = true := by
  unfold State.fail
  split
  · exact h
  · exact h
  · exact h
  · exact inFlight_rejectOwnership h
  · split
    · exact inFlight_rejectOwnership h
    · rwa [inFlight_setStage]
  · rwa [inFlight_setStage]

theorem inFlight_release (h : (s.dispatches e).inFlight = true) : ((s.release d).dispatches e).inFlight = true := by
  unfold State.release
  split
  · rename_i birth hbth
    split
    · rename_i hs
      rw [State.forget_dispatches]
      refine inFlight_put h fun heq => ?_
      subst heq
      rw [Dispatch.inFlight, hbth, Option.any_some, Option.isNone_iff_eq_none] at h
      rw [h] at hs
      cases hs
    · exact h
  · exact h

theorem inFlight_endFirstTurn (h : (s.dispatches e).inFlight = true) :
    ((s.endFirstTurn d).dispatches e).inFlight = true := by
  unfold State.endFirstTurn
  split
  · rename_i birth hbth
    refine inFlight_put h fun heq => ?_
    subst heq
    rw [Dispatch.inFlight, hbth] at h
    exact h
  · exact h

theorem inFlight_of_settle {outcome : Outcome} (h : ((s.settle e outcome).dispatches d).inFlight = true) :
    (s.dispatches d).inFlight = true := by
  unfold State.settle at h
  split at h
  · split at h
    · by_cases hne : d = e
      · subst hne
        rw [State.put_self] at h
        simp [Dispatch.inFlight] at h
      · rwa [State.put_of_ne hne] at h
    · exact h
  · exact h

/-- A boot stays in flight until it settles. -/
theorem inFlight_step (hs : Inv s) (a : Action) (h : (s.dispatches e).inFlight = true)
    (ha : ∀ outcome, a ≠ .settle e outcome) : ((step a s).dispatches e).inFlight = true := by
  cases a with
  | arrive d request =>
    change ((if _ then _ else _ : State).dispatches e).inFlight = true
    split
    · rename_i hstage
      refine inFlight_put h fun heq => ?_
      subst heq
      have hbth := ((hs e).unstarted (by rw [hstage]; rfl)).1
      rw [Dispatch.inFlight, hbth] at h
      cases h
    · exact h
  | admitted d decision =>
    change ((if _ then _ else _ : State).dispatches e).inFlight = true
    split
    · exact inFlight_executeAdmittedTurn decision h
    · exact h
  | prepared d decision =>
    change ((if _ then _ else _ : State).dispatches e).inFlight = true
    split
    · exact inFlight_handleHeadless decision h
    · exact h
  | resume d decision =>
    unfold step
    dsimp only
    split
    · split
      · exact inFlight_resume _ _ decision h
      · exact h
    · exact h
  | reattached d recovered =>
    change ((if _ then _ else _ : State).dispatches e).inFlight = true
    split
    · exact inFlight_reattached recovered h
    · exact h
  | fail d => exact inFlight_fail h
  | answer d =>
    change ((if _ then _ else _ : State).dispatches e).inFlight = true
    split
    · rwa [inFlight_setStage]
    · exact h
  | settle d outcome =>
    have hne : e ≠ d := fun heq => ha outcome (by rw [heq])
    unfold step State.settle
    dsimp only
    split
    · split
      · rwa [State.put_of_ne hne]
      · exact h
    · exact h
  | release d => exact inFlight_release h
  | settleOwnership d =>
    unfold step
    dsimp only
    split
    · rwa [inFlight_settleOwnership]
    · exact h
  | endFirstTurn d => exact inFlight_endFirstTurn h
  | dropRendezvous =>
    unfold step
    dsimp only
    split
    · split
      · exact h
      · exact h
    · exact h

end Frame

/-- One birth per host session, over a step from `s` to `s'`. -/
structure OneBirth (s s' : State) : Prop where
  single : ∀ d e, (s'.dispatches d).inFlight = true → (s'.dispatches e).inFlight = true → d = e
  named : ∀ d, (s'.dispatches d).inFlight = true →
    s'.runtimeStartOperation = some ((s'.dispatches d).operation d)
  removed : ∀ d, (s'.dispatches d).outcome.isSome = true →
    (step (.release d) s').runtimeStartOperation ≠ some ((s'.dispatches d).operation d)
  gone : ∀ d b, (s'.dispatches d).birth = some b → b.released = true →
    s'.runtimeStartOperation ≠ some ((s'.dispatches d).operation d)
  noSecond : ∀ d, (s'.dispatches d).inFlight = true → (s.dispatches d).inFlight = false →
    ∀ e, (s.dispatches e).inFlight = false
  joins : ∀ d e decision, (s'.dispatches e).inFlight = true → (s'.dispatches d).stage = .preparing →
    ((step (.prepared d decision) s').dispatches d).stage = .joining .headlessDispatch ((s'.dispatches e).operation e)
  joinsAdmitted : ∀ d e decision, (s'.dispatches e).inFlight = true → (s'.dispatches d).stage = .admitting →
    (s'.dispatches d).request.door = .interactive →
      ∃ operation, ((step (.admitted d decision) s').dispatches d).stage = .joining .admittedTurn operation ∧
        (operation = (s'.dispatches e).operation e ∨
          ∃ r, s'.invokeFirstTurnRendezvous = some r ∧ operation = .firstTurn r)

section Inv

theorem Inv.single (hs : Inv s) (hd : (s.dispatches d).inFlight = true) (he : (s.dispatches e).inFlight = true) :
    d = e := by
  have hop := ((hs d).named hd).symm.trans ((hs e).named he)
  have := congrArg Operation.dispatch (Option.some.inj hop)
  rwa [operation_dispatch, operation_dispatch] at this

theorem release_forgets (h : (s.dispatches d).outcome.isSome = true) :
    (step (.release d) s).runtimeStartOperation ≠ some ((s.dispatches d).operation d) := by
  change (s.release d).runtimeStartOperation ≠ _
  unfold State.release
  cases hbth : (s.dispatches d).birth with
  | none => simp [Dispatch.outcome, hbth] at h
  | some birth =>
    have hs : birth.outcome.isSome = true := by simpa [Dispatch.outcome, hbth] using h
    dsimp only
    rw [if_pos hs]
    exact State.forget_entry _

theorem Inv.joins (hs : Inv s) (he : (s.dispatches e).inFlight = true) (hstage : (s.dispatches d).stage = .preparing)
    (decision : Decision) : ((step (.prepared d decision) s).dispatches d).stage =
      .joining .headlessDispatch ((s.dispatches e).operation e) := by
  have hst : step (.prepared d decision) s =
      s.setStage d (.joining .headlessDispatch ((s.dispatches e).operation e)) := by
    change (if _ then _ else _) = _
    rw [if_pos hstage]
    unfold State.handleHeadlessBrokerDispatchTurn
    rw [(hs e).named he]
  rw [hst, State.setStage, State.put_self]

theorem Inv.joinsAdmitted (hs : Inv s) (he : (s.dispatches e).inFlight = true)
    (hstage : (s.dispatches d).stage = .admitting) (hdoor : (s.dispatches d).request.door = .interactive)
    (decision : Decision) :
    ∃ operation, ((step (.admitted d decision) s).dispatches d).stage = .joining .admittedTurn operation ∧
      (operation = (s.dispatches e).operation e ∨
        ∃ r, s.invokeFirstTurnRendezvous = some r ∧ operation = .firstTurn r) := by
  have hj {operation : Operation} (hop : s.inFlightStart (s.dispatches d).request = some operation) :
      ((step (.admitted d decision) s).dispatches d).stage = .joining .admittedTurn operation := by
    have hst : step (.admitted d decision) s = s.setStage d (.joining .admittedTurn operation) := by
      change (if _ then _ else _) = _
      rw [if_pos hstage, State.executeAdmittedTurn, hdoor]
      dsimp only
      rw [hop]
    rw [hst, State.setStage, State.put_self]
  have hn := (hs e).named he
  cases hi : (s.dispatches d).request.invokeDoor with
  | false => exact ⟨_, hj (by simp [State.inFlightStart, hi, hn]), .inl rfl⟩
  | true =>
    cases hr : s.invokeFirstTurnRendezvous with
    | none => exact ⟨_, hj (by simp [State.inFlightStart, hi, hr, hn]), .inl rfl⟩
    | some r => exact ⟨_, hj (by simp [State.inFlightStart, hi, hr]), .inr ⟨r, rfl, rfl⟩⟩

theorem oneBirth_step (s : State) (a : Action) (hs : Inv s) (hok : allowed s a = true) :
    OneBirth s (step a s) where
  single _ _ hd he := (inv_step s a hs hok).single hd he
  named d hd := (inv_step s a hs hok d).named hd
  removed _ h := release_forgets h
  gone d b hb hreleased := ((inv_step s a hs hok d).released b hb hreleased).2
  noSecond d hd hn e := by
    by_contra hfl
    have he : (s.dispatches e).inFlight = true := by simpa using hfl
    by_cases hst : ∃ outcome, a = .settle e outcome
    · obtain ⟨outcome, rfl⟩ := hst
      have hold := inFlight_of_settle hd
      rw [hn] at hold
      cases hold
    · have hstl := inFlight_step hs a he fun outcome h => hst ⟨outcome, h⟩
      obtain rfl := (inv_step s a hs hok).single hd hstl
      rw [hn] at he
      cases he
  joins _ _ decision he hstage := (inv_step s a hs hok).joins he hstage decision
  joinsAdmitted _ _ decision he hstage hdoor := (inv_step s a hs hok).joinsAdmitted he hstage hdoor decision

end Inv

/-- In every run whose starts all find the map entry free of a pending operation, and whose reattach
owners outlive their boots, one birth is in flight at a time, under its own entry. -/
theorem one_birth (actions : List Action) (hmeets : Meets step (fun s a => allowed s a = true) actions initial)
    {before after : List Action} {a : Action} (h : actions = before ++ a :: after) :
    OneBirth (run step before initial) (run step (before ++ [a]) initial) :=
  run_each (P := fun s _ s' => OneBirth s s') inv_step oneBirth_step inv_initial hmeets h

namespace Sample

def arrive (d : DispatchId) (door : Door) : Action := .arrive d { door }

def crossing : List Action :=
  [arrive 1 .headless, .admitted 1 .start, .prepared 1 .start, arrive 2 .interactive, .admitted 2 .start,
    .settle 1 (.born .headless), .release 1]

def format2Starts : List Action :=
  [arrive 1 .format2, arrive 2 .format2, .admitted 1 .start, .admitted 2 .start]

def fallThrough : List Action :=
  [arrive 1 .headless, .admitted 1 .start, .prepared 1 .start, arrive 2 .interactive, .admitted 2 .start,
    arrive 3 .interactive, .admitted 3 .start, .settle 1 (.born .headless), .release 1, .resume 2 .start,
    .resume 3 .start]

def ownerFails : List Action :=
  [arrive 1 .headless, .admitted 1 .start, .prepared 1 .reattach, .reattached 1 none, .fail 1,
    arrive 2 .headless, .admitted 2 .start, .prepared 2 .start]

def inFlightAfter (actions : List Action) (d : DispatchId) : Bool :=
  ((run step actions initial).dispatches d).inFlight

end Sample

theorem one_birth_sample : Sample.inFlightAfter (Sample.crossing ++ [.resume 2 .start]) 2 = true ∧
    OneBirth (run step Sample.crossing initial) (run step (Sample.crossing ++ [.resume 2 .start]) initial) :=
  ⟨by decide +kernel, one_birth (Sample.crossing ++ [.resume 2 .start]) (by decide +kernel) rfl⟩

/-- Two births of one host session are in flight after two cold format-2 dispatches, after two
dispatches passed one fence, and after a reattach owner failed. -/
theorem two_births :
    (Sample.inFlightAfter Sample.format2Starts 1 && Sample.inFlightAfter Sample.format2Starts 2) = true ∧
    (Sample.inFlightAfter Sample.fallThrough 2 && Sample.inFlightAfter Sample.fallThrough 3) = true ∧
    (Sample.inFlightAfter Sample.ownerFails 1 && Sample.inFlightAfter Sample.ownerFails 2) = true := by
  decide +kernel

end HrcRuntime.RuntimeStart
