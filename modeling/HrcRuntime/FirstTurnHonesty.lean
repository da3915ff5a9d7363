import HrcRuntime.FirstTurnChange

namespace HrcRuntime.FirstTurnWatch

open Records Database Context Keyed Schedule
open Option (bind_some map_some)

variable {s s' : State}

def deadline (s : State) (k : Generation) : Option String := (s.watches.find k).bind (·.firstTurnDeadlineAt)

def Trips (s s' : State) (k : Generation) : Prop :=
  (s.watches.find k).bind (·.tripEventSeq) = none ∧ ((s'.watches.find k).bind (·.tripEventSeq)).isSome

instance (s s' : State) (k : Generation) : Decidable (Trips s s' k) := inferInstanceAs (Decidable (_ ∧ _))

variable {k : Generation}

theorem Trips.trip (h : Quiet s s' ∨ ∃ row trippedAt, Trip s s' row trippedAt) (htrips : Trips s s' k) :
    ∃ row trippedAt, Trip s s' row trippedAt ∧ row.key = k := by
  obtain ⟨hnn, hsm⟩ := htrips
  rcases h with h | ⟨row, trippedAt, h⟩
  · exfalso
    cases h.watch k with
    | same hs =>
      rw [hs, hnn] at hsm
      cases hsm
    | armed _ _ hr _ ht =>
      rw [hr, bind_some, ht] at hsm
      cases hsm
    | settled hold hn _ ht _ _ =>
      rw [hold, bind_some] at hnn
      rw [hn, bind_some, ht, hnn] at hsm
      cases hsm
  · refine ⟨row, trippedAt, h, ?_⟩
    by_contra hk
    rw [h.others k (Ne.symm hk), hnn] at hsm
    cases hsm

theorem deadline_step [Timing] (hi : Inv s) (a : Action) {d : String} (h : deadline s k = some d) :
    deadline (step a s) k = some d := by
  obtain ⟨w, hw, hd⟩ := Option.bind_eq_some_iff.mp h
  have hr (v : Watch) : v.identity.firstTurnDeadlineAt = v.firstTurnDeadlineAt := rfl
  have hid : ((step a s).watches.find k).map Watch.identity = some w.identity := by
    rcases step_cases hi a with hqt | ⟨row, trippedAt, ht⟩
    · cases hqt.watch k with
      | same hs => rw [hs, hw, map_some]
      | armed hnn _ _ _ _ =>
        rw [hnn] at hw
        cases hw
      | settled hold hn hid _ _ _ =>
        rw [hold, Option.some.injEq] at hw
        rw [hn, map_some, hid, hw]
    · rw [ht.identity, hw, map_some]
  obtain ⟨w', hw', hid⟩ := Option.map_eq_some_iff.mp hid
  rw [deadline, hw', bind_some, ← hr, hid, hr, hd]

/-- A `turn.started` of the generation cannot be forgotten any more. -/
def Started (s : State) (k : Generation) : Prop :=
  match s.watches.find k with
  | some w => w.firstTurnAt.isSome
  | none => generationHasStartedTurn s k = true

theorem hasStarted_iff :
    generationHasStartedTurn s k = true ↔ ∃ runId r, s.runs.find runId = some r ∧ isStartedIn k r = true := by
  unfold generationHasStartedTurn
  rw [List.any_eq_true]
  constructor
  · rintro ⟨r, hr, hs⟩
    exact ⟨r.runId, r, find_of_mem hr, hs⟩
  · rintro ⟨runId, r, hr, hs⟩
    exact ⟨r, (find_mem hr).1, hs⟩

theorem hasStarted_step [Timing] (hi : Inv s) (a : Action) (h : generationHasStartedTurn s k = true) :
    generationHasStartedTurn (step a s) k = true := by
  obtain ⟨runId, r, hr, hsta⟩ := hasStarted_iff.mp h
  rw [hasStarted_iff]
  refine ⟨runId, ?_⟩
  simp only [isStartedIn, Bool.and_eq_true, beq_iff_eq] at hsta ⊢
  rcases step_cases hi a with hqt | ⟨row, trippedAt, ht⟩
  · cases hqt.run runId with
    | same hs => exact ⟨r, hs ▸ hr, hsta⟩
    | accepted hn _ _ _ =>
      rw [hn] at hr
      cases hr
    | bound hold hstatus _ =>
      rw [hold, Option.some.injEq] at hr
      subst hr
      rw [hi.unstarted runId _ hold hstatus] at hsta
      cases hsta.2
    | running hold _ hrow =>
      rw [hold, Option.some.injEq] at hr
      subst hr
      exact ⟨_, hrow, hsta.1, rfl⟩
    | completed hold _ _ hrow =>
      rw [hold, Option.some.injEq] at hr
      subst hr
      exact ⟨_, hrow, hsta⟩
  · refine ⟨_, by rw [ht.runs, hr, map_some], ?_⟩
    split
    · exact hsta
    · exact hsta

theorem started_step [Timing] (hi : Inv s) (a : Action) (h : Started s k) : Started (step a s) k := by
  unfold Started at h ⊢
  cases hw : s.watches.find k with
  | none =>
    rw [hw] at h
    have hkp := hasStarted_step hi a h
    rcases step_cases hi a with hqt | ⟨row, trippedAt, ht⟩
    · cases hqt.watch k with
      | same hs => rw [hs, hw]; exact hkp
      | armed _ hfr _ _ _ => exact absurd (h.symm.trans hfr) (by decide)
      | settled hold _ _ _ _ _ => rw [hw] at hold; cases hold
    · have hk : k ≠ row.key := by
        rintro rfl
        rw [ht.row] at hw
        cases hw
      rw [ht.others k hk, hw]
      exact hkp
  | some w =>
    rw [hw] at h
    rcases step_cases hi a with hqt | ⟨row, trippedAt, ht⟩
    · cases hqt.watch k with
      | same hs => rw [hs, hw]; exact h
      | armed hnn _ _ _ _ => rw [hnn] at hw; cases hw
      | settled hold hn _ _ _ hsta =>
        rw [hold, Option.some.injEq] at hw
        subst hw
        rw [hn]
        exact hsta h
    · by_cases hk : k = row.key
      · subst hk
        rw [ht.row, Option.some.injEq] at hw
        subst hw
        rw [ht.stamp]
        exact h
      · rw [ht.others k hk, hw]
        exact h

theorem started_untripped [Timing] (hi : Inv s) (a : Action) (h : Started s k) :
    ¬ Trips s (step a s) k := by
  intro htrips
  obtain ⟨row, trippedAt, ht, rfl⟩ := htrips.trip (step_cases hi a)
  rw [Started, ht.row] at h
  dsimp only at h
  have hu := ht.unsettled
  simp only [Watch.isUnsettled, Bool.and_eq_true, Option.isNone_iff_eq_none] at hu
  rw [hu.1.1] at h
  cases h

def startsOwnRun (s : State) (e : TurnStarted) : Bool :=
  (e.ctx.runId.bind s.runs.find).any fun r =>
    isOpen r && r.runtimeId == some e.ctx.runtimeId && r.generation == e.ctx.generation

def recorded (s : State) : Action → Bool
  | .turnStarted e => (s.watches.find e.key).isSome || generationHasStartedTurn s e.key || startsOwnRun s e
  | _ => true

theorem projectTurnStarted_watches (s : State) (e : TurnStarted) :
    (projectTurnStarted s e).watches = (noteFirstTurnStarted s e.key e.occurredAt).watches := by
  unfold projectTurnStarted
  dsimp only
  split
  · rfl
  · split
    · rfl
    · split
      · rfl
      · split
        · unfold noteTurnStartedOnTerminalRun
          split <;> rfl
        · rfl

variable {e : TurnStarted}

theorem projectTurnStarted_run {runId : String} {r : HrcRunRecord} (hid : e.ctx.runId = some runId)
    (hr : s.runs.find runId = some r) (hop : isOpen r = true) :
    ∃ r', (projectTurnStarted s e).runs.find runId = some r' ∧ r'.runtimeId = r.runtimeId ∧
      r'.generation = r.generation ∧ r'.startedAt.isSome := by
  have hf : (noteFirstTurnStarted s e.key e.occurredAt).runs.find runId = some r := hr
  refine ⟨RunPatch.apply { status := some .running, startedAt := some e.occurredAt, updatedAt := some e.now } r, ?_, rfl, rfl,
    rfl⟩
  unfold projectTurnStarted
  dsimp only
  rw [hid]
  dsimp only
  rw [hf]
  dsimp only
  rw [if_pos hop, markRunning]
  dsimp only
  rw [find_amend_self, hf, map_some, if_pos hop]

theorem turnStarted_started [Timing] (hi : Inv s) (h : recorded s (.turnStarted e) = true) :
    Started (step (.turnStarted e) s) e.key := by
  have hwt : (step (.turnStarted e) s).watches.find e.key =
      (s.watches.find e.key).map fun w => if w.firstTurnAt.isNone then .started e.occurredAt w else w := by
    change (projectTurnStarted s e).watches.find e.key = _
    rw [projectTurnStarted_watches]
    exact find_amend_self (Watch.started_key _)
  unfold Started
  rw [hwt]
  cases hw : s.watches.find e.key with
  | some w =>
    rw [map_some]
    dsimp only
    split
    · rfl
    · rename_i hs
      rwa [Option.isNone_iff_eq_none, ← ne_eq, ← Option.isSome_iff_ne_none] at hs
  | none =>
    rw [Option.map_none]
    simp only [recorded, hw, Option.isSome_none, Bool.false_or, Bool.or_eq_true] at h
    rcases h with h | h
    · exact hasStarted_step hi _ h
    · rw [startsOwnRun, Option.any_eq_true] at h
      obtain ⟨r, hr, h⟩ := h
      obtain ⟨runId, hid, hr⟩ := Option.bind_eq_some_iff.mp hr
      simp only [Bool.and_eq_true, beq_iff_eq] at h
      obtain ⟨r', hr', hrt, hg, hsta⟩ := projectTurnStarted_run hid hr h.1.1
      rw [hasStarted_iff]
      refine ⟨runId, r', hr', ?_⟩
      rw [isStartedIn, hrt, hg, h.1.2, h.2, hsta, TurnStarted.key]
      simp

def LateStartOf (s : State) (e : Event) : Prop :=
  ∃ r, s.runs.find r.runId = some r ∧ e.input.runId = some r.runId ∧ ∃ trip ∈ s.hrcEvents, TerminalOf trip r

theorem projectTurnStarted_late (hi : Inv s) (e : TurnStarted) :
    (projectTurnStarted s e).hrcEvents = s.hrcEvents ∨
      ∃ event, (projectTurnStarted s e).hrcEvents = s.hrcEvents ++ [event] ∧ LateStartOf s event := by
  unfold projectTurnStarted
  dsimp only
  cases hid : e.ctx.runId with
  | none => exact .inl rfl
  | some runId =>
    dsimp only
    cases hr : (noteFirstTurnStarted s e.key e.occurredAt).runs.find runId with
    | none => exact .inl rfl
    | some r =>
      have hr : s.runs.find runId = some r := hr
      dsimp only
      split
      · exact .inl rfl
      · cases e.executionFormat with
        | format1 =>
          dsimp only [noteTurnStartedOnTerminalRun]
          split
          · rename_i hm
            simp only [isFirstTurnMissingTerminalRun, Bool.and_eq_true, beq_iff_eq] at hm
            refine .inr ⟨_, rfl, r, ?_, rfl, hi.terminals runId r hr hm.2⟩
            rw [(find_mem hr).2, hr]
          · exact .inl rfl
        | format2 => exact .inl rfl

theorem armFirstTurnWatch_events [Timing] (input : ArmInput) :
    (armFirstTurnWatch s input).hrcEvents = s.hrcEvents := by
  unfold armFirstTurnWatch
  split
  · rfl
  · split <;> rfl

theorem acceptRun_events (r : HrcRunRecord) : (acceptRun s r).hrcEvents = s.hrcEvents := by
  unfold acceptRun
  split <;> rfl

theorem takeNext_events (pass : Nat) (trippedAt : String) (throws : Bool) :
    (takeNext s pass trippedAt throws).hrcEvents = s.hrcEvents ∨
      ∃ input, (takeNext s pass trippedAt throws).hrcEvents = s.hrcEvents ++ [⟨s.nextSeq, HRC_FIRST_TURN_MISSING_EVENT, input⟩] := by
  unfold takeNext
  split
  · dsimp only
    split
    · exact .inl rfl
    · unfold recordTrip
      split
      · exact .inr ⟨_, rfl⟩
      · exact .inl rfl
  · exact .inl rfl

theorem lateStart_step [Timing] (hi : Inv s) (a : Action) {e : Event} (hlate : e.eventKind = .firstTurnMissingLateStart)
    (hn : (step a s).hrcEvents = s.hrcEvents ++ [e]) : LateStartOf s e := by
  have hs (h : (step a s).hrcEvents = s.hrcEvents) : LateStartOf s e := by
    have hl := congrArg List.length (h.symm.trans hn)
    simp at hl
  have hoth {event : Event} (h : (step a s).hrcEvents = s.hrcEvents ++ [event])
      (hk : event.eventKind ≠ .firstTurnMissingLateStart) : LateStartOf s e := by
    have hev := List.append_cancel_left (h.symm.trans hn)
    rw [List.cons.injEq] at hev
    exact absurd (hev.1 ▸ hlate) hk
  cases a with
  | turnStarted start =>
    rcases projectTurnStarted_late hi start with h | ⟨event, h, hof⟩
    · exact hs h
    · have hev := List.append_cancel_left (h.symm.trans hn)
      rw [List.cons.injEq] at hev
      exact hev.1 ▸ hof
  | arm input => exact hs (armFirstTurnWatch_events input)
  | acceptRun r => exact hs (acceptRun_events r)
  | turnAttributed _ _ _ => exact hs rfl
  | turnTerminal _ _ _ _ _ => exact hs rfl
  | disarm _ _ _ => exact hs rfl
  | failSubmission _ _ _ => exact hs rfl
  | evaluate _ _ => exact hs rfl
  | restart => exact hs rfl
  | append eventKind input =>
    rw [step] at hs hoth
    split at hs
    · exact hs rfl
    · rename_i hk
      rw [if_neg hk] at hoth
      refine hoth rfl fun h => hk ?_
      rw [show eventKind = .firstTurnMissingLateStart from h]
      rfl
  | trip pass trippedAt throws =>
    rcases takeNext_events pass trippedAt throws with h | ⟨input, h⟩
    · exact hs h
    · exact hoth h (by simp [HRC_FIRST_TURN_MISSING_EVENT])

variable [Timing]

structure Honest (actions : List Action) : Prop where
  tripsOnce : ∀ k, (run step actions .empty).hrcEvents.countP (isTripOf k) ≤ 1
  startedSpared : ∀ before a after, actions = before ++ a :: after → ∀ k,
    Trips (run step before .empty) (run step (before ++ [a]) .empty) k → ∀ e, Action.turnStarted e ∈ before → e.key ≠ k
  deadlineFixed : ∀ before after, actions = before ++ after → ∀ k d,
    deadline (run step before .empty) k = some d → deadline (run step actions .empty) k = some d
  stamped : ∀ k n, (∃ e ∈ (run step actions .empty).hrcEvents, isTripOf k e = true ∧ e.hrcSeq = n) ↔
    ((run step actions .empty).watches.find k).bind (·.tripEventSeq) = some n
  terminalizes : ∀ before a after, actions = before ++ a :: after → ∀ k,
    Trips (run step before .empty) (run step (before ++ [a]) .empty) k →
      ∃ w trippedAt, w.key = k ∧ Trip (run step before .empty) (run step (before ++ [a]) .empty) w trippedAt
  lateStarts : ∀ before a after, actions = before ++ a :: after → ∀ e,
    (run step (before ++ [a]) .empty).hrcEvents = (run step before .empty).hrcEvents ++ [e] →
      e.eventKind = .firstTurnMissingLateStart → LateStartOf (run step before .empty) e

theorem run_inv (actions : List Action) : Inv (run step actions .empty) := by
  have hmt : Meets step (fun _ _ => True) actions .empty := meets_true
  exact run_invariant (I := Inv) (fun _ a hs _ => step_inv hs a) .empty hmt

theorem run_concat (before : List Action) (a : Action) (s : State) :
    run step (before ++ [a]) s = step a (run step before s) := by
  rw [run_append]
  rfl

omit [Timing] in
theorem countP_le_one (hi : Inv s) : s.hrcEvents.countP (isTripOf k) ≤ 1 := by
  rw [List.countP_eq_length_filter]
  have hnd : (s.hrcEvents.map (·.hrcSeq)).Nodup := by
    rw [hi.seqs]
    exact List.nodup_range'
  have hs {e : Event} (he : e ∈ s.hrcEvents.filter (isTripOf k)) :
      (s.watches.find k).bind (·.tripEventSeq) = some e.hrcSeq := by
    obtain ⟨hm, ht⟩ := List.mem_filter.mp he
    exact (hi.stamped k e.hrcSeq).mp ⟨e, hm, ht, rfl⟩
  have hf : ((s.hrcEvents.filter (isTripOf k)).map (·.hrcSeq)).Nodup := hnd.sublist (List.filter_sublist.map _)
  match h : s.hrcEvents.filter (isTripOf k) with
  | [] => exact Nat.zero_le 1
  | [_] => exact Nat.le.refl
  | e :: e' :: rest =>
    rw [h] at hs hf
    have heq := (hs List.mem_cons_self).symm.trans (hs (List.mem_cons_of_mem _ List.mem_cons_self))
    rw [List.map_cons, List.map_cons, List.nodup_cons, Option.some.inj heq] at hf
    exact absurd List.mem_cons_self hf.1

theorem run_started {actions : List Action} (hmt : Meets step (fun s a => recorded s a = true) actions .empty)
    (he : Action.turnStarted e ∈ actions) : Started (run step actions .empty) e.key := by
  obtain ⟨before, after, rfl⟩ := List.append_of_mem he
  obtain ⟨_, hr, _⟩ := meets_append.mp hmt
  have hsta := turnStarted_started (run_inv before) hr
  have hbt : Inv (step (.turnStarted e) (run step before .empty)) ∧
      Started (step (.turnStarted e) (run step before .empty)) e.key := ⟨step_inv (run_inv before) _, hsta⟩
  have haft : Meets step (fun _ _ => True) after
      (step (.turnStarted e) (run step before .empty)) := meets_true
  rw [run_append]
  exact (run_invariant (I := fun s => Inv s ∧ Started s e.key)
    (fun _ a hs _ => ⟨step_inv hs.1 a, started_step hs.1 a hs.2⟩) hbt haft).2

/-- In every run whose starts are all recorded, the watchdog is honest. -/
theorem recorded_honest (actions : List Action)
    (hmeets : Meets step (fun s a => recorded s a = true) actions .empty) : Honest actions where
  tripsOnce k := countP_le_one (run_inv actions)
  startedSpared before a after h k htrips e he hk := by
    subst h
    have hsta := run_started (meets_append.mp hmeets).1 he
    rw [run_concat] at htrips
    exact started_untripped (run_inv before) a (hk ▸ hsta) htrips
  deadlineFixed before after h k d hd := by
    subst h
    have haft : Meets step (fun _ _ => True) after (run step before .empty) := meets_true
    rw [run_append]
    exact (run_invariant (I := fun s => Inv s ∧ deadline s k = some d)
      (fun _ a hs _ => ⟨step_inv hs.1 a, deadline_step hs.1 a hs.2⟩) ⟨run_inv before, hd⟩ haft).2
  stamped := (run_inv actions).stamped
  terminalizes before a after _ k htrips := by
    rw [run_concat] at htrips ⊢
    obtain ⟨w, trippedAt, ht, hk⟩ := htrips.trip (step_cases (run_inv before) a)
    exact ⟨w, trippedAt, hk, ht⟩
  lateStarts before a after _ e hn hlate := by
    rw [run_concat] at hn
    exact lateStart_step (run_inv before) a hlate hn

namespace Sample

abbrev timing : Timing where
  defaultTimeoutMs := 120000
  later _ _ := some "2026-01-01T00:02:00.000Z"

def ctx (runId : Option String) : ProjectionContext where
  runtimeId := "rt-1"
  hostSessionId := "hsid-1"
  scopeRef := "agent:cody"
  laneRef := "main"
  generation := 1
  transport := .tmux
  operationId := "op-1"
  runId := runId

def turnStarted (runId : Option String) (seq : Nat) : Action :=
  .turnStarted { ctx := ctx runId, invocationId := "inv-1", seq, occurredAt := "2026-01-01T00:00:00.000Z",
                 now := "2026-01-01T00:00:00.000Z" }

def dispatch : List Action :=
  [.acceptRun { runId := "run-1", hostSessionId := "hsid-1", runtimeId := some "rt-1", generation := 1, transport := .tmux },
    .arm { runtimeId := "rt-1", generation := 1, hostSessionId := "hsid-1", scopeRef := "agent:cody", laneRef := "main"
           runId := some "run-1", primingDispatchedAt := "2026-01-01T00:00:00.000Z" }]

def pass : List Action :=
  [.evaluate "2026-01-01T00:02:30.000Z" 100, .trip 0 "2026-01-01T00:02:30.000Z" false]

def unattributed : List Action := turnStarted none 1 :: dispatch ++ pass

def late : List Action := dispatch ++ pass ++ [turnStarted (some "run-1") 1]

end Sample

omit [Timing] in
theorem recorded_honest_sample : letI := Sample.timing; Honest Sample.late ∧ (run step Sample.late .empty).hrcEvents.length = 2 :=
  let _ := Sample.timing
  ⟨recorded_honest Sample.late (by decide +kernel), by decide +kernel⟩

omit [Timing] in
/-- A turn that started unattributed, before the watch was armed, is forgotten: the generation trips. -/
theorem unattributed_start_trips : letI := Sample.timing; ¬ Honest Sample.unattributed := by
  let _ := Sample.timing
  intro h
  have htrips : Trips (run step (Sample.turnStarted none 1 :: Sample.dispatch ++ [Sample.pass.head (by decide)]) .empty)
      (run step Sample.unattributed .empty) ("rt-1", 1) := by decide +kernel
  exact h.startedSpared _ _ [] rfl ("rt-1", 1) htrips _ List.mem_cons_self rfl

end HrcRuntime.FirstTurnWatch
