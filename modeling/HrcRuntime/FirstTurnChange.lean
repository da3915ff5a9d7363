import HrcRuntime.FirstTurnWatch

namespace HrcRuntime.FirstTurnWatch

open Records Database RuntimeState Keyed Schedule
open Option (map_some map_eq_some_iff bind_some)

def Watch.identity (w : Watch) : Watch :=
  { w with
    firstTurnAt := none, firstTurnMissingTrippedAt := none, disarmedAt := none, disarmReason := none
    tripEventSeq := none, updatedAt := "" }

theorem tripInput_identity (w : Watch) (trippedAt : String) : tripInput w.identity trippedAt = tripInput w trippedAt := rfl

theorem tripCompletion_identity (w : Watch) (trippedAt : String) (hrcSeq : Nat) :
    tripCompletion w.identity trippedAt hrcSeq = tripCompletion w trippedAt hrcSeq := rfl

theorem identity_key (w : Watch) : w.identity.key = w.key := rfl

inductive WatchChange (s s' : State) (k : Generation) : Prop where
  | same (h : s'.watches.find k = s.watches.find k)
  | armed {w : Watch} (hnone : s.watches.find k = none) (hfresh : generationHasStartedTurn s k = false)
      (h : s'.watches.find k = some w) (hpriming : w.primingDispatchedAt.isSome) (htrip : w.tripEventSeq = none)
  | settled {w w' : Watch} (hw : s.watches.find k = some w) (h : s'.watches.find k = some w')
      (hidentity : w'.identity = w.identity) (htrip : w'.tripEventSeq = w.tripEventSeq)
      (htripped : w'.firstTurnMissingTrippedAt = w.firstTurnMissingTrippedAt)
      (hstart : w.firstTurnAt.isSome → w'.firstTurnAt.isSome)

inductive RunChange (s s' : State) (runId : String) : Prop where
  | same (h : s'.runs.find runId = s.runs.find runId)
  | accepted {r : HrcRunRecord} (hnone : s.runs.find runId = none) (h : s'.runs.find runId = some r)
      (hstart : r.startedAt = none) (hcode : r.errorCode = none)
  | bound {r row : HrcRunRecord} (hrow : s.runs.find runId = some row) (hstatus : row.status = .accepted)
      (h : s'.runs.find runId = some (bindRun r row))
  | running {row : HrcRunRecord} {occurredAt now : String} (hrow : s.runs.find runId = some row)
      (hopen : row.completedAt = none)
      (h : s'.runs.find runId = some (RunPatch.apply
        { status := some .running, startedAt := some occurredAt, updatedAt := some now } row))
  | completed {row : HrcRunRecord} {c : RunCompletion} (hrow : s.runs.find runId = some row)
      (hcode : c.errorCode ≠ some .firstTurnMissing) (hstatus : c.status ≠ .accepted)
      (h : s'.runs.find runId = some (c.apply row))

def Appends (s s' : State) : Prop :=
  ∃ es : List Event, s'.hrcEvents = s.hrcEvents ++ es ∧ es.length ≤ 1 ∧
    ∀ e ∈ es, e.hrcSeq = s.nextSeq ∧ e.eventKind ≠ HRC_FIRST_TURN_MISSING_EVENT

structure Quiet (s s' : State) : Prop where
  watch : ∀ k, WatchChange s s' k
  run : ∀ runId, RunChange s s' runId
  events : Appends s s'
  passes : ∀ due ∈ s'.passes, ∀ w ∈ due, (∃ due ∈ s.passes, w ∈ due) ∨
    s'.watches = s.watches ∧ s.watches.find w.key = some w

theorem Appends.refl {s s' : State} (h : s'.hrcEvents = s.hrcEvents) : Appends s s' :=
  ⟨[], by rw [h, List.append_nil], by simp, fun e he => absurd he List.not_mem_nil⟩

theorem Appends.one {s s' : State} {eventKind : HrcEventKind} {input : HrcLifecycleEventInput}
    (h : s'.hrcEvents = s.hrcEvents ++ [⟨s.nextSeq, eventKind, input⟩])
    (hk : eventKind ≠ HRC_FIRST_TURN_MISSING_EVENT) : Appends s s' := by
  refine ⟨_, h, by simp, fun e he => ?_⟩
  rw [List.mem_singleton.mp he]
  exact ⟨rfl, hk⟩

theorem amend_settled {s s' : State} {k : Generation} {p : Watch → Bool} {f : Watch → Watch}
    (hf : ∀ w, (f w).key = w.key) (h : s'.watches = s.watches.amend k p f hf)
    (hid : ∀ w, (f w).identity = w.identity) (ht : ∀ w, (f w).tripEventSeq = w.tripEventSeq)
    (htripped : ∀ w, (f w).firstTurnMissingTrippedAt = w.firstTurnMissingTrippedAt)
    (hs : ∀ w : Watch, w.firstTurnAt.isSome → (f w).firstTurnAt.isSome) (k' : Generation) : WatchChange s s' k' := by
  by_cases hk : k' = k
  · subst hk
    cases hw : s.watches.find k' with
    | none =>
      refine .same ?_
      rw [h, find_amend_self, hw]
      rfl
    | some w =>
      by_cases hp : p w
      · have hr : s'.watches.find k' = some (f w) := by
          rw [h, find_amend_self, hw, map_some, if_pos hp]
        exact .settled hw hr (hid w) (ht w) (htripped w) (hs w)
      · refine .same ?_
        rw [h, find_amend_self, hw, map_some, if_neg hp]
  · refine .same ?_
    rw [h, find_amend_of_ne hf hk]

variable {p : HrcRunRecord → Bool}

theorem amend_run {s s' : State} {runId : String} {f : HrcRunRecord → HrcRunRecord}
    (hf : ∀ r, (f r).runId = r.runId) (h : s'.runs = s.runs.amend runId p f hf)
    (hc : ∀ row, s.runs.find runId = some row → p row → s'.runs.find runId = some (f row) → RunChange s s' runId)
    (runId' : String) : RunChange s s' runId' := by
  by_cases hid : runId' = runId
  · subst hid
    cases hr : s.runs.find runId' with
    | none =>
      refine .same ?_
      rw [h, find_amend_self, hr]
      rfl
    | some row =>
      by_cases hp : p row
      · refine hc row hr hp ?_
        rw [h, find_amend_self, hr, map_some, if_pos hp]
      · refine .same ?_
        rw [h, find_amend_self, hr, map_some, if_neg hp]
  · refine .same ?_
    rw [h, find_amend_of_ne hf hid]

theorem passes_same {s s' : State} (h : s'.passes = s.passes) : ∀ due ∈ s'.passes, ∀ w ∈ due,
    (∃ due ∈ s.passes, w ∈ due) ∨ s'.watches = s.watches ∧ s.watches.find w.key = some w := by
  intro due hd w hw
  rw [h] at hd
  exact .inl ⟨due, hd, hw⟩

theorem Quiet.watches {s s' : State} (hw : ∀ k, WatchChange s s' k) (hr : s'.runs = s.runs)
    (he : s'.hrcEvents = s.hrcEvents) (hp : s'.passes = s.passes) : Quiet s s' :=
  ⟨hw, fun _ => .same (by rw [hr]), .refl he, passes_same hp⟩

theorem Quiet.runs {s s' : State} (hw : s'.watches = s.watches) (hr : ∀ runId, RunChange s s' runId)
    (he : s'.hrcEvents = s.hrcEvents) (hp : s'.passes = s.passes) : Quiet s s' :=
  ⟨fun _ => .same (by rw [hw]), hr, .refl he, passes_same hp⟩

theorem Quiet.refl (s : State) : Quiet s s := .watches (fun _ => .same rfl) rfl rfl rfl

theorem armFirstTurnWatch_quiet [Timing] {s : State} (har : ∀ k w, s.watches.find k = some w → w.primingDispatchedAt.isSome)
    (input : ArmInput) : Quiet s (armFirstTurnWatch s input) := by
  unfold armFirstTurnWatch
  split
  · exact .refl s
  · rename_i hfr
    cases hd : Timing.later input.primingDispatchedAt (resolveFirstTurnTimeoutMs input.timeoutMsOverride) with
    | none => exact .refl s
    | some deadline =>
      refine .watches (fun k => ?_) rfl rfl rfl
      by_cases hk : k = input.key
      · subst hk
        have hs := find_upsert_self (t := s.watches) (r := input.row deadline)
          (Watch.rearmed_key (input.row deadline))
        cases hw : s.watches.find input.key with
        | none =>
          refine .armed hw (by simpa using hfr) (w := input.row deadline) ?_ rfl rfl
          have hw' : s.watches.find (input.row deadline).key = none := hw
          rw [hw'] at hs
          exact hs
        | some w =>
          refine .same ?_
          have hw' : s.watches.find (input.row deadline).key = some w := hw
          rw [hw'] at hs
          have hkp : Watch.rearmed (input.row deadline) w = w := by
            unfold Watch.rearmed
            rw [if_neg]
            have hp := har _ w hw
            rw [Watch.isArmable, Option.isNone_eq_false_iff.mpr hp]
            simp
          rw [map_some, hkp] at hs
          exact hs.trans hw.symm
      · exact .same (find_upsert_of_ne (r := input.row deadline) _ hk)

theorem amend_running {s s' : State} {runId occurredAt now : String}
    (hp : ∀ row, p row → row.completedAt = none)
    (h : s'.runs = s.runs.amend runId p
      (RunPatch.apply { status := some .running, startedAt := some occurredAt, updatedAt := some now }) (patch_runId _)) :
    ∀ runId, RunChange s s' runId :=
  amend_run _ h fun row hr hop h => .running hr (hp row hop) h

theorem projectTurnStarted_quiet (s : State) (e : TurnStarted) : Quiet s (projectTurnStarted s e) := by
  have hw (s' : State) (h : s'.watches = (noteFirstTurnStarted s e.key e.occurredAt).watches) (k : Generation) :
      WatchChange s s' k :=
    amend_settled (k := e.key) (p := (·.firstTurnAt.isNone)) (f := .started e.occurredAt) (Watch.started_key _) h (fun _ => rfl)
      (fun _ => rfl) (fun _ => rfl) (fun _ _ => rfl) k
  unfold projectTurnStarted
  dsimp only
  cases e.ctx.runId with
  | none => exact .watches (hw _ rfl) rfl rfl rfl
  | some runId =>
    dsimp only
    cases (noteFirstTurnStarted s e.key e.occurredAt).runs.find runId with
    | none => exact .watches (hw _ rfl) rfl rfl rfl
    | some r =>
      dsimp only
      split
      · exact ⟨hw _ rfl, amend_running (fun row h => by simpa [isOpen] using h) rfl, .refl rfl, passes_same rfl⟩
      · cases e.executionFormat with
        | format1 =>
          dsimp only [noteTurnStartedOnTerminalRun]
          split
          · exact ⟨hw _ rfl, fun _ => .same rfl, .one rfl (by decide), passes_same rfl⟩
          · exact .watches (hw _ rfl) rfl rfl rfl
        | format2 => exact .watches (hw _ rfl) rfl rfl rfl

theorem acceptRun_quiet (s : State) (r : HrcRunRecord) : Quiet s (acceptRun s r) := by
  unfold acceptRun
  cases hr : s.runs.find r.runId with
  | none =>
    refine .runs rfl (fun runId => ?_) rfl rfl
    by_cases hid : runId = r.runId
    · subst hid
      exact .accepted hr (find_add_self hr) rfl rfl
    · exact .same (find_add_of_ne hid)
  | some row =>
    refine .runs rfl (amend_run (bindRun_runId r) rfl fun row hr hp h => ?_) rfl rfl
    exact .bound hr (by simpa using hp) h

theorem terminalStatus_ne (type : EventType) : terminalStatus type ≠ .accepted := by
  unfold terminalStatus
  split <;> decide

theorem failSubmission_quiet (s : State) (runId : String) (failure : SubmissionFailure) (completedAt : String) :
    Quiet s (failSubmission s runId failure completedAt) := by
  refine .runs rfl (amend_run (completion_runId _) rfl fun row hr _ h => ?_) rfl rfl
  refine .completed hr ?_ ?_ h
  · cases failure <;> simp [SubmissionFailure.completion]
  · cases failure <;> simp [SubmissionFailure.completion]

theorem listArmedDue_find {s : State} {now : String} {limit : Nat} {w : Watch} (h : w ∈ listArmedDue s now limit) :
    s.watches.find w.key = some w := by
  have hm := (KeysetPaging.perm_sortBy _ _).mem_iff.mp (List.mem_of_mem_take h)
  exact find_of_mem (List.mem_filter.mp hm).1

structure Trip (s s' : State) (w : Watch) (trippedAt : String) : Prop where
  row : s.watches.find w.key = some w
  unsettled : w.isUnsettled = true
  events : s'.hrcEvents = s.hrcEvents ++ [⟨s.nextSeq, HRC_FIRST_TURN_MISSING_EVENT, tripInput w trippedAt⟩]
  stamp : s'.watches.find w.key = some (w.tripped trippedAt s.nextSeq)
  others : ∀ k, k ≠ w.key → s'.watches.find k = s.watches.find k
  runs : ∀ runId, s'.runs.find runId = (s.runs.find runId).map fun r =>
    if w.runId = some runId ∧ isOpen r then (tripCompletion w trippedAt s.nextSeq).apply r else r
  passes : ∀ due ∈ s'.passes, ∀ w ∈ due, ∃ due ∈ s.passes, w ∈ due

def isTripOf (k : Generation) (e : Event) : Bool :=
  e.eventKind == HRC_FIRST_TURN_MISSING_EVENT && e.input.runtimeId == some k.1 && e.input.generation == k.2

def TerminalOf (e : Event) (r : HrcRunRecord) : Prop :=
  e.eventKind = HRC_FIRST_TURN_MISSING_EVENT ∧ e.input.runId = some r.runId ∧ r.status = .failed ∧
    r.completedAt = some e.input.ts ∧ r.errorCode = some .firstTurnMissing

structure Inv (s : State) : Prop where
  armed : ∀ k w, s.watches.find k = some w → w.primingDispatchedAt.isSome
  snapshots : ∀ due ∈ s.passes, ∀ w ∈ due, (s.watches.find w.key).map Watch.identity = some w.identity
  unstarted : ∀ runId r, s.runs.find runId = some r → r.status = .accepted → r.startedAt = none
  untripped : ∀ k w, s.watches.find k = some w → w.firstTurnMissingTrippedAt = none → w.tripEventSeq = none
  seqs : s.hrcEvents.map (·.hrcSeq) = List.range' 1 s.hrcEvents.length
  stamped : ∀ k n, (∃ e ∈ s.hrcEvents, isTripOf k e = true ∧ e.hrcSeq = n) ↔
    (s.watches.find k).bind (·.tripEventSeq) = some n
  terminals : ∀ runId r, s.runs.find runId = some r → r.errorCode = some .firstTurnMissing →
    ∃ e ∈ s.hrcEvents, TerminalOf e r

variable {s s' : State}

theorem recordTrip_cases {w : Watch} (hw : (s.watches.find w.key).map Watch.identity = some w.identity)
    (trippedAt : String) :
    recordTrip s w trippedAt = s ∨ ∃ row, Trip s (recordTrip s w trippedAt) row trippedAt := by
  obtain ⟨row, hr, hi⟩ := map_eq_some_iff.mp hw
  have hkey : row.key = w.key := by rw [← identity_key row, hi, identity_key]
  have hri : row.identity.runId = w.identity.runId := by rw [hi]
  have hinp : tripInput w trippedAt = tripInput row trippedAt := by
    rw [← tripInput_identity w, ← hi, tripInput_identity]
  have hc : tripCompletion w trippedAt s.nextSeq = tripCompletion row trippedAt s.nextSeq := by
    rw [← tripCompletion_identity w, ← hi, tripCompletion_identity]
  by_cases hh : s.watches.hits w.key Watch.isUnsettled = true
  · have hu : row.isUnsettled = true := by simpa [Store.hits, hr] using hh
    refine .inr ⟨row, ?_⟩
    unfold recordTrip
    rw [if_pos hh]
    refine
      { row := hkey ▸ hr, unsettled := hu, events := by rw [hinp], stamp := ?_, others := ?_, runs := ?_
        passes := fun due hd a ha => ⟨due, hd, ha⟩ }
    · rw [hkey]
      dsimp only
      rw [find_amend_self, hr, map_some, if_pos hu]
    · intro k hk
      rw [hkey] at hk
      exact find_amend_of_ne (Watch.tripped_key _ _) hk
    · intro runId
      have hri : row.runId = w.runId := hri
      rw [← hc, hri]
      dsimp only
      cases hw : w.runId with
      | none => simp
      | some armed =>
        by_cases hid : runId = armed
        · subst hid
          dsimp only
          rw [find_amend_self]
          simp
        · dsimp only
          rw [find_amend_of_ne (completion_runId _) hid]
          simp [Ne.symm hid]
  · left
    unfold recordTrip
    rw [if_neg hh]

theorem takeNext_cases (hinv : Inv s) (pass : Nat) (trippedAt : String) (throws : Bool) :
    Quiet s (takeNext s pass trippedAt throws) ∨
      ∃ row trippedAt', Trip s (takeNext s pass trippedAt throws) row trippedAt' := by
  unfold takeNext
  split
  · rename_i w due hp
    have hm : w :: due ∈ s.passes := List.mem_of_getElem? hp
    have hs : ∀ rest ∈ s.passes.set pass due, ∀ a ∈ rest, ∃ rest ∈ s.passes, a ∈ rest := by
      intro rest hr a ha
      rcases List.mem_or_eq_of_mem_set hr with hr | rfl
      · exact ⟨rest, hr, ha⟩
      · exact ⟨_, hm, List.mem_cons_of_mem _ ha⟩
    have hqt : Quiet s { s with passes := s.passes.set pass due } :=
      ⟨fun _ => .same rfl, fun _ => .same rfl, .refl rfl, fun rest hr a ha => .inl (hs rest hr a ha)⟩
    dsimp only
    split
    · exact .inl hqt
    · have hw : (s.watches.find w.key).map Watch.identity = some w.identity :=
        hinv.snapshots _ hm w List.mem_cons_self
      rcases recordTrip_cases (s := { s with passes := s.passes.set pass due }) hw trippedAt with h | ⟨row, h⟩
      · rw [h]
        exact .inl hqt
      · refine .inr ⟨row, trippedAt, h.row, h.unsettled, h.events, h.stamp, h.others, h.runs, fun rest hr a ha => ?_⟩
        obtain ⟨rest', hrs', ha'⟩ := h.passes rest hr a ha
        exact hs rest' hrs' a ha'
  · exact .inl (.refl s)

theorem step_cases [Timing] (hinv : Inv s) (a : Action) :
    Quiet s (step a s) ∨ ∃ row trippedAt, Trip s (step a s) row trippedAt := by
  cases a with
  | acceptRun r => exact .inl (acceptRun_quiet s r)
  | arm input => exact .inl (armFirstTurnWatch_quiet hinv.armed input)
  | turnStarted e => exact .inl (projectTurnStarted_quiet s e)
  | turnAttributed ownerRunId occurredAt now =>
    refine .inl (.runs rfl (amend_running (fun row h => ?_) rfl) rfl rfl)
    simp only [isOpen, Bool.and_eq_true, Option.isNone_iff_eq_none] at h
    exact h.1
  | turnTerminal runId type occurredAt now errorMessage =>
    refine .inl (.runs rfl (amend_run (completion_runId _) rfl fun row hr _ h => ?_) rfl rfl)
    exact .completed hr (by simp) (terminalStatus_ne type) h
  | disarm k reason occurredAt =>
    exact .inl (.watches (amend_settled (Watch.disarmed_key _ _) rfl (fun _ => rfl) (fun _ => rfl) (fun _ => rfl)
      fun _ h => h) rfl rfl rfl)
  | failSubmission runId failure completedAt => exact .inl (failSubmission_quiet s runId failure completedAt)
  | evaluate now limit =>
    refine .inl ⟨fun _ => .same rfl, fun _ => .same rfl, .refl rfl, fun due hd w hw => ?_⟩
    rcases List.mem_append.mp hd with hd | hd
    · exact .inl ⟨due, hd, hw⟩
    · rw [List.mem_singleton.mp hd] at hw
      exact .inr ⟨rfl, listArmedDue_find hw⟩
  | trip pass trippedAt throws => exact takeNext_cases hinv pass trippedAt throws
  | restart => exact .inl ⟨fun _ => .same rfl, fun _ => .same rfl, .refl rfl, fun due hd => absurd hd List.not_mem_nil⟩
  | append eventKind input =>
    rw [step]
    split
    · exact .inl (.refl s)
    · rename_i hk
      refine .inl ⟨fun _ => .same rfl, fun _ => .same rfl, .one rfl fun h => ?_, passes_same rfl⟩
      rw [h] at hk
      exact hk rfl

theorem Inv.empty : Inv .empty where
  armed k w h := by cases h
  snapshots due h := absurd h List.not_mem_nil
  unstarted runId r h := by cases h
  untripped k w h := by cases h
  seqs := rfl
  stamped k n := ⟨fun ⟨e, he, _⟩ => absurd he List.not_mem_nil, fun h => by cases h⟩
  terminals runId r h := by cases h

theorem seqs_append {es : List Event} (h : s.hrcEvents.map (·.hrcSeq) = List.range' 1 s.hrcEvents.length)
    (hl : es.length ≤ 1) (hs : ∀ e ∈ es, e.hrcSeq = s.nextSeq) :
    (s.hrcEvents ++ es).map (·.hrcSeq) = List.range' 1 (s.hrcEvents ++ es).length := by
  rcases es with _ | ⟨e, _ | ⟨_, _⟩⟩
  · rw [List.append_nil]
    exact h
  · have hn : e.hrcSeq = 1 + 1 * s.hrcEvents.length := by
      rw [hs e List.mem_cons_self, State.nextSeq, Nat.one_mul, Nat.add_comm]
    rw [List.map_append, h, List.length_append, List.length_singleton, List.range'_concat, List.map_singleton, hn]
  · simp at hl

section Quiet

variable (h : Quiet s s') (hinv : Inv s)

include h hinv

theorem Quiet.armed (k : Generation) (w : Watch) (hw : s'.watches.find k = some w) :
    w.primingDispatchedAt.isSome := by
  cases h.watch k with
  | same hs => exact hinv.armed k w (hs ▸ hw)
  | armed _ _ hr hp _ =>
    rw [hr, Option.some.injEq] at hw
    exact hw ▸ hp
  | settled hold hn hid _ _ _ =>
    rw [hn, Option.some.injEq] at hw
    subst hw
    have hp (v : Watch) : v.identity.primingDispatchedAt = v.primingDispatchedAt := rfl
    rw [← hp, hid, hp]
    exact hinv.armed k _ hold

theorem Quiet.snapshots (due : List Watch) (hd : due ∈ s'.passes) (w : Watch) (hw : w ∈ due) :
    (s'.watches.find w.key).map Watch.identity = some w.identity := by
  rcases h.passes due hd w hw with ⟨due, hd, hw⟩ | ⟨hs, hf⟩
  · have hr := hinv.snapshots due hd w hw
    cases h.watch w.key with
    | same hs => rw [hs, hr]
    | armed hnn _ _ _ _ =>
      rw [hnn] at hr
      cases hr
    | settled hold hn hid _ _ _ =>
      rw [hold] at hr
      rw [hn, map_some, hid]
      exact hr
  · rw [hs, hf, map_some]

theorem Quiet.unstarted (runId : String) (r : HrcRunRecord) (hr : s'.runs.find runId = some r)
    (hstatus : r.status = .accepted) : r.startedAt = none := by
  cases h.run runId with
  | same hs => exact hinv.unstarted runId r (hs ▸ hr) hstatus
  | accepted _ hrow hsta _ =>
    rw [hrow, Option.some.injEq] at hr
    exact hr ▸ hsta
  | bound hold hs' hrow =>
    rw [hrow, Option.some.injEq] at hr
    have hsta := hinv.unstarted runId _ hold hs'
    exact hr ▸ hsta
  | running _ _ hrow =>
    rw [hrow, Option.some.injEq] at hr
    rw [← hr] at hstatus
    cases hstatus
  | completed _ _ hs' hrow =>
    rw [hrow, Option.some.injEq] at hr
    rw [← hr] at hstatus
    exact absurd hstatus hs'

theorem Quiet.untripped (k : Generation) (w : Watch) (hw : s'.watches.find k = some w)
    (htripped : w.firstTurnMissingTrippedAt = none) : w.tripEventSeq = none := by
  cases h.watch k with
  | same hs => exact hinv.untripped k w (hs ▸ hw) htripped
  | armed _ _ hr _ ht =>
    rw [hr, Option.some.injEq] at hw
    exact hw ▸ ht
  | settled hold hn _ ht ht' _ =>
    rw [hn, Option.some.injEq] at hw
    subst hw
    rw [ht]
    exact hinv.untripped k _ hold (ht' ▸ htripped)

theorem Quiet.seqs : s'.hrcEvents.map (·.hrcSeq) = List.range' 1 s'.hrcEvents.length := by
  obtain ⟨es, hevs, hl, hes⟩ := h.events
  rw [hevs]
  exact seqs_append hinv.seqs hl fun e he => (hes e he).1

theorem Quiet.stamped (k : Generation) (n : Nat) : (∃ e ∈ s'.hrcEvents, isTripOf k e = true ∧ e.hrcSeq = n) ↔
    (s'.watches.find k).bind (·.tripEventSeq) = some n := by
  obtain ⟨es, hevs, _, hes⟩ := h.events
  have hev : (∃ e ∈ s'.hrcEvents, isTripOf k e = true ∧ e.hrcSeq = n) ↔
      ∃ e ∈ s.hrcEvents, isTripOf k e = true ∧ e.hrcSeq = n := by
    rw [hevs]
    constructor
    · rintro ⟨e, he, ht, hseq⟩
      rcases List.mem_append.mp he with he | he
      · exact ⟨e, he, ht, hseq⟩
      · simp only [isTripOf, Bool.and_eq_true, beq_iff_eq] at ht
        exact absurd ht.1.1 (hes e he).2
    · rintro ⟨e, he, ht, hseq⟩
      exact ⟨e, List.mem_append_left es he, ht, hseq⟩
  rw [hev, hinv.stamped k n]
  cases h.watch k with
  | same hs => rw [hs]
  | armed hnn _ hr _ ht => rw [hnn, hr, bind_some, ht, Option.bind_none]
  | settled hold hn _ ht _ _ => rw [hold, hn, bind_some, bind_some, ht]

theorem Quiet.terminals (runId : String) (r : HrcRunRecord) (hr : s'.runs.find runId = some r)
    (hc : r.errorCode = some .firstTurnMissing) : ∃ e ∈ s'.hrcEvents, TerminalOf e r := by
  obtain ⟨es, hevs, _, _⟩ := h.events
  have hk {row : HrcRunRecord} (hold : s.runs.find runId = some row) (hc : row.errorCode = some .firstTurnMissing) :
      ∃ e ∈ s'.hrcEvents, TerminalOf e row := by
    obtain ⟨e, he, ht⟩ := hinv.terminals runId row hold hc
    exact ⟨e, hevs ▸ List.mem_append_left es he, ht⟩
  cases h.run runId with
  | same hs => exact hk (hs ▸ hr) hc
  | accepted _ hrow _ hn =>
    rw [hrow, Option.some.injEq] at hr
    rw [← hr, hn] at hc
    cases hc
  | bound hold hstatus hrow =>
    rw [hrow, Option.some.injEq] at hr
    subst hr
    obtain ⟨e, _, ht⟩ := hk hold hc
    rw [ht.2.2.1] at hstatus
    cases hstatus
  | running hold hop hrow =>
    rw [hrow, Option.some.injEq] at hr
    subst hr
    obtain ⟨e, _, ht⟩ := hk hold hc
    rw [ht.2.2.2.1] at hop
    cases hop
  | completed _ hcd' _ hrow =>
    rw [hrow, Option.some.injEq] at hr
    rw [← hr] at hc
    exact absurd hc hcd'

theorem Quiet.inv : Inv s' :=
  ⟨h.armed hinv, h.snapshots hinv, h.unstarted hinv, h.untripped hinv, h.seqs hinv, h.stamped hinv, h.terminals hinv⟩

end Quiet

section Trip

variable {w : Watch} {trippedAt : String} (h : Trip s s' w trippedAt) (hinv : Inv s)

include h

theorem Trip.identity (k : Generation) :
    (s'.watches.find k).map Watch.identity = (s.watches.find k).map Watch.identity := by
  by_cases hk : k = w.key
  · subst hk
    rw [h.stamp, h.row]
    rfl
  · rw [h.others k hk]

omit h in
theorem event_isTripOf (k : Generation) :
    isTripOf k ⟨s.nextSeq, HRC_FIRST_TURN_MISSING_EVENT, tripInput w trippedAt⟩ = true ↔ k = w.key := by
  simp only [isTripOf, tripInput, Watch.key, Prod.ext_iff, Bool.and_eq_true, beq_iff_eq, Option.some.injEq, true_and]
  exact and_congr eq_comm eq_comm

include hinv

theorem Trip.stamped (k : Generation) (n : Nat) : (∃ e ∈ s'.hrcEvents, isTripOf k e = true ∧ e.hrcSeq = n) ↔
    (s'.watches.find k).bind (·.tripEventSeq) = some n := by
  rw [h.events]
  simp only [List.mem_append, List.mem_singleton, or_and_right, exists_or, exists_eq_left, hinv.stamped k n,
    event_isTripOf]
  by_cases hk : k = w.key
  · subst hk
    have hn : w.tripEventSeq = none := by
      refine hinv.untripped w.key w h.row ?_
      have hu := h.unsettled
      simp only [Watch.isUnsettled, Bool.and_eq_true, Option.isNone_iff_eq_none] at hu
      exact hu.1.2
    rw [h.row, h.stamp, bind_some, bind_some, hn]
    simp [Watch.tripped]
  · rw [h.others k hk]
    simp [hk]

theorem Trip.terminals (runId : String) (r : HrcRunRecord) (hr : s'.runs.find runId = some r)
    (hc : r.errorCode = some .firstTurnMissing) : ∃ e ∈ s'.hrcEvents, TerminalOf e r := by
  rw [h.runs] at hr
  rw [h.events]
  obtain ⟨row, hrow, hr⟩ := map_eq_some_iff.mp hr
  by_cases har : w.runId = some runId ∧ isOpen row
  · rw [if_pos har] at hr
    subst hr
    refine ⟨_, List.mem_append_right _ List.mem_cons_self, rfl, ?_, rfl, rfl, rfl⟩
    rw [completion_runId, (find_mem hrow).2]
    exact har.1
  · rw [if_neg har] at hr
    subst hr
    obtain ⟨e, he, ht⟩ := hinv.terminals runId row hrow hc
    exact ⟨e, List.mem_append_left _ he, ht⟩

theorem Trip.inv : Inv s' where
  armed k a ha := by
    by_cases hk : k = w.key
    · subst hk
      rw [h.stamp, Option.some.injEq] at ha
      subst ha
      exact hinv.armed w.key w h.row
    · exact hinv.armed k a (h.others k hk ▸ ha)
  snapshots due hd a ha := by
    obtain ⟨due, hd, ha⟩ := h.passes due hd a ha
    rw [h.identity]
    exact hinv.snapshots due hd a ha
  unstarted runId r hr hstatus := by
    rw [h.runs] at hr
    obtain ⟨row, hrow, hr⟩ := map_eq_some_iff.mp hr
    split at hr
    · rw [← hr] at hstatus
      cases hstatus
    · subst hr
      exact hinv.unstarted runId row hrow hstatus
  untripped k a ha htripped := by
    by_cases hk : k = w.key
    · subst hk
      rw [h.stamp, Option.some.injEq] at ha
      rw [← ha] at htripped
      cases htripped
    · exact hinv.untripped k a (h.others k hk ▸ ha) htripped
  seqs := by
    rw [h.events]
    exact seqs_append hinv.seqs Nat.le.refl fun e he => by rw [List.mem_singleton.mp he]
  stamped := h.stamped hinv
  terminals := h.terminals hinv

end Trip

theorem step_inv [Timing] (hinv : Inv s) (a : Action) : Inv (step a s) := by
  rcases step_cases hinv a with h | ⟨row, trippedAt, h⟩
  · exact h.inv hinv
  · exact h.inv hinv

end HrcRuntime.FirstTurnWatch
