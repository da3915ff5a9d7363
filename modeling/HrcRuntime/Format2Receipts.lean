import HrcRuntime.Format2Idempotent

namespace HrcRuntime.Format2Admission

open Keyed Schedule

variable {s : State} {d e : DispatchId} {x : Dispatch} {input row : Input} {actions : List Action}

structure Admitted (s : State) : Prop where
  oneRow : ∀ a ∈ s.inputs.rows, ∀ b ∈ s.inputs.rows, a.idempotencyKey = b.idempotencyKey → a = b
  otherHash : ∀ d request row, (s.dispatches d).stage = .absent →
    s.inputs.find request.dispatchIdempotencyKey = some row → row.requestHash ≠ request.format2RequestHash →
    step (.arrive d request) s = s.put d { request, stage := .refused }
  receipts : ∀ r ∈ s.receipts, Names s r
  onePrompt : (s.submissions.map (·.idempotencyKey)).Nodup

structure Honest (s : State) : Prop where
  hashes : ∀ r ∈ s.receipts, ∃ row, s.inputs.find r.idempotencyKey = some row ∧ row.requestHash = r.requestHash
  refusals : ∀ r ∈ s.receipts, r.inputId ∉ s.refusals

def allowed (s : State) : Action → Bool
  | .reply _ reply | .neverSubmitted _ reply => reply ≠ .refused
  | .resume d =>
    let request := (s.dispatches d).request
    (s.findPreparedAttempt request.dispatchIdempotencyKey).all fun p => p.format2RequestHash == request.format2RequestHash
  | _ => true

theorem arrive_other_hash {request : Request} (habs : (s.dispatches d).stage = .absent)
    (hrow : s.inputs.find request.dispatchIdempotencyKey = some row) (hhash : row.requestHash ≠ request.format2RequestHash) :
    step (.arrive d request) s = s.put d { request, stage := .refused } := by
  have hs : (s.put d { request }).dispatches d = { request } := State.put_self
  have hf : (s.put d { request }).inputs.find ((s.put d { request }).dispatches d).request.dispatchIdempotencyKey
      = some row := by
    rw [hs]
    exact hrow
  have he : (s.put d { request }).executeFormat2DispatchTurn d = (s.put d { request }).replay d row := by
    unfold State.executeFormat2DispatchTurn
    rw [hf]
  have hr : (s.put d { request }).replay d row = (s.put d { request }).setStage d .refused := by
    unfold State.replay
    rw [hs]
    exact if_pos hhash
  have hst : step (.arrive d request) s = (s.put d { request }).executeFormat2DispatchTurn d := if_pos habs
  rw [hst, he, hr]
  unfold State.setStage
  rw [hs]
  unfold State.put
  congr 1
  exact Function.update_idem ..

theorem admitted (hs : Inv s) : Admitted s where
  oneRow _ ha _ hb hk := List.inj_on_of_nodup_map s.inputs.nodup ha hb hk
  otherHash _ _ _ habs hr hhash := arrive_other_hash habs hr hhash
  receipts := hs.receipts
  onePrompt := hs.once

theorem unrefused_iff (hs : Inv s) : (∀ r ∈ s.receipts, r.inputId ∉ s.refusals) ↔ s.refusals = [] := by
  constructor
  · intro h
    refine List.eq_nil_iff_forall_not_mem.mpr fun i hi => ?_
    obtain ⟨r, hr, rfl⟩ := hs.answered i hi
    exact h r hr hi
  · intro h r _
    rw [h]
    exact List.not_mem_nil

structure Matches (s : State) (x : Dispatch) : Prop where
  launching : ∀ id, x.stage = .launching id →
    ∃ p, s.preparations.find id = some p ∧ p.format2RequestHash = x.request.format2RequestHash
  held : ∀ i, x.stage.held = some i → i.requestHash = x.request.format2RequestHash

structure Own (s : State) : Prop where
  dispatches : ∀ d, Matches s (s.dispatches d)
  receipts : ∀ r ∈ s.receipts, ∃ row, s.inputs.find r.idempotencyKey = some row ∧ row.requestHash = r.requestHash
  refusals : s.refusals = []

theorem own_initial : Own initial where
  dispatches _ := ⟨by simp [initial], by simp [initial, Stage.held]⟩
  receipts := by simp [initial]
  refusals := rfl

namespace Own

theorem put (hs : Own s) (hx : Matches s x) : Own (s.put d x) where
  dispatches e := by
    by_cases he : e = d
    · rw [he, State.put_self]
      exact ⟨hx.launching, hx.held⟩
    · rw [State.put_of_ne he]
      exact ⟨(hs.dispatches e).launching, (hs.dispatches e).held⟩
  receipts := hs.receipts
  refusals := hs.refusals

theorem setStage (hs : Own s) {stage : Stage} (hh : stage.held = none)
    (hl : ∀ id, stage = .launching id → ∃ p, s.preparations.find id = some p
      ∧ p.format2RequestHash = (s.dispatches d).request.format2RequestHash) : Own (s.setStage d stage) :=
  hs.put ⟨hl, fun i hi => by
    change stage.held = some i at hi
    rw [hh] at hi
    cases hi⟩

theorem settle (hs : Own s) {stage : Stage} (hh : stage.held = none) (hstage : ∀ id, stage ≠ .launching id) :
    Own (s.setStage d stage) :=
  hs.setStage hh fun id h => absurd h (hstage id)

theorem format2Receipt (hs : Own s) (hrow : s.inputs.find (s.dispatches d).request.dispatchIdempotencyKey = some input)
    (hhash : input.requestHash = (s.dispatches d).request.format2RequestHash) : Own (s.format2Receipt d input) := by
  unfold State.format2Receipt
  split
  · exact hs.settle rfl fun _ h => by cases h
  · have hans : Own (s.setStage d .answered) := hs.settle rfl fun _ h => by cases h
    constructor
    · exact fun e => ⟨(hans.dispatches e).launching, (hans.dispatches e).held⟩
    · intro r hr
      rcases List.mem_append.mp hr with hr | hr
      · exact hs.receipts r hr
      · rw [List.mem_singleton.mp hr]
        exact ⟨input, hrow, hhash⟩
    · exact hs.refusals

variable (input) in
theorem reserve_put (hs : Own s) {t : Store Preparation (·.id)} {runtimes : List Runtime} {n : Nat}
    (ht : ∀ id p, s.preparations.find id = some p → ∃ q, t.find id = some q ∧ q.format2RequestHash = p.format2RequestHash)
    (hstage : x.stage.held = some input) (hlaunching : ∀ id, x.stage ≠ .launching id)
    (hhash : input.requestHash = x.request.format2RequestHash) :
    Own (State.put { s.reserve input with preparations := t, runtimes, nextId := n } d x) := by
  refine put ⟨fun e => ⟨fun id h => ?_, (hs.dispatches e).held⟩, fun r hr => ?_, hs.refusals⟩
    ⟨fun id h => absurd h (hlaunching id), fun i hi => ?_⟩
  · obtain ⟨p, hp, hsame⟩ := (hs.dispatches e).launching id h
    obtain ⟨q, hq, hkept⟩ := ht id p hp
    exact ⟨q, hq, hkept.trans hsame⟩
  · obtain ⟨row, hrow, hsame⟩ := hs.receipts r hr
    exact ⟨row, find_add_of_some hrow, hsame⟩
  · rw [hstage] at hi
    rw [← Option.some.inj hi]
    exact hhash

theorem answerWarm (hs : Own s) (hr : s.inputs.find (s.dispatches d).request.dispatchIdempotencyKey = some input)
    (hhash : input.requestHash = (s.dispatches d).request.format2RequestHash) {reply : Reply} (hreply : reply ≠ .refused) :
    Own (s.answerWarm d input reply) := by
  cases reply with
  | ok submissionId =>
    unfold State.answerWarm State.bindBrokerSubmissionId
    dsimp only
    split
    · exact hs.format2Receipt hr hhash
    · refine format2Receipt ⟨fun e => ⟨(hs.dispatches e).launching, (hs.dispatches e).held⟩, hs.receipts,
        hs.refusals⟩ hr hhash
  | refused => exact absurd rfl hreply
  | doubtful | threw => exact hs.format2Receipt hr hhash

end Own

theorem own_reserveWarm (hs : Own s) (runtime : Runtime) : Own (s.reserveWarmFormat2Input d runtime) := by
  unfold State.reserveWarmFormat2Input
  split
  · rename_i invocationId operationId _ _
    let input : Input :=
      { inputId := s.nextId, idempotencyKey := (s.dispatches d).request.dispatchIdempotencyKey
        requestHash := (s.dispatches d).request.format2RequestHash, runtimeId := runtime.runtimeId, operationId
        invocationId }
    exact hs.reserve_put input (t := s.preparations) (n := s.nextId + 1)
      (x := { s.dispatches d with stage := .submitting input, unsent := some input }) (fun id p hp => ⟨p, hp, rfl⟩) rfl
      (fun _ h => by cases h) rfl
  · exact hs.settle rfl fun _ h => by cases h

theorem own_executeFormat2DispatchTurn (hs : Own s) : Own (s.executeFormat2DispatchTurn d) := by
  have hr : Own (s.setStage d .refused) := hs.settle rfl fun _ h => by cases h
  unfold State.executeFormat2DispatchTurn
  split
  · rename_i existing hrow
    unfold State.replay
    dsimp only
    split
    · exact hr
    · rename_i hhash
      split
      · exact hr
      · split
        · exact hr
        · exact hs.format2Receipt hrow (not_not.mp hhash)
  · split
    · unfold State.joinRuntime
      dsimp only
      split
      · exact hr
      · split
        · exact hr
        · exact own_reserveWarm hs _
    · unfold State.startCold
      split
      · exact hr
      · exact hs.settle rfl fun _ h => by cases h

theorem own_prepare (hi : Inv s) (hs : Own s) : Own (s.prepare d) := by
  have hn : s.preparations.find s.nextId = none := find_eq_none.mpr fun hm => by
    obtain ⟨p, hp, hid⟩ := List.mem_map.mp hm
    exact Nat.lt_irrefl s.nextId (hid ▸ (hi.prepared p hp).1)
  let p : Preparation :=
    { id := s.nextId, dispatchIdempotencyKey := (s.dispatches d).request.dispatchIdempotencyKey
      format2RequestHash := (s.dispatches d).request.format2RequestHash }
  have hsl : (s.preparations.add p).find s.nextId = some p := find_add_self (r := p) hn
  have hk : Own { s with preparations := s.preparations.add p } :=
    ⟨fun e => ⟨fun id h => by
      obtain ⟨q, hq, hhash⟩ := (hs.dispatches e).launching id h
      exact ⟨q, find_add_of_some hq, hhash⟩, (hs.dispatches e).held⟩, hs.receipts, hs.refusals⟩
  have hput : Own (State.setStage { s with preparations := s.preparations.add p } d (.launching s.nextId)) :=
    hk.setStage rfl fun id h => ⟨p, by cases h; exact hsl, rfl⟩
  exact ⟨fun e => ⟨(hput.dispatches e).launching, (hput.dispatches e).held⟩, hput.receipts, hput.refusals⟩

theorem own_persistStartGraph (hs : Own s) {p : Preparation} (hp : s.preparations.find p.id = some p)
    (hhash : p.format2RequestHash = (s.dispatches d).request.format2RequestHash) : Own (s.persistStartGraph d p) := by
  unfold State.persistStartGraph
  dsimp only
  split
  · refine hs.reserve_put ⟨p.id, _, p.format2RequestHash, p.id, p.id, p.id⟩ (n := s.nextId)
      (fun id q hq => ?_) rfl (fun _ h => by cases h) hhash
    by_cases hid : id = p.id
    · subst hid
      rw [find_amend_self, hp]
      rw [hp] at hq
      exact ⟨_, rfl, congrArg (·.format2RequestHash) (Option.some.inj hq)⟩
    · rw [find_amend_of_ne _ hid]
      exact ⟨q, hq, rfl⟩
  · exact hs.settle rfl fun _ h => by cases h

theorem own_step (hinv : Inv s) (hs : Own s) (a : Action) (hok : allowed s a = true) : Own (step a s) := by
  have hr (d : DispatchId) : Own (s.setStage d .refused) := hs.settle rfl fun _ h => by cases h
  have hd (d : DispatchId) : Own (s.put d { s.dispatches d with unsent := none }) :=
    hs.put ⟨(hs.dispatches d).launching, (hs.dispatches d).held⟩
  have hsb (d : DispatchId) (input : Input) (route : Route) : Own (s.submit d input route) :=
    ⟨fun e => ⟨((hd d).dispatches e).launching, ((hd d).dispatches e).held⟩, hs.receipts, hs.refusals⟩
  cases a with
  | arrive d request =>
    unfold step
    dsimp only
    split
    · exact own_executeFormat2DispatchTurn (hs.put ⟨(fun _ h => by cases h), fun _ h => by cases h⟩)
    · exact hs
  | resume d =>
    unfold step State.resume
    dsimp only
    split
    · split
      · rename_i p hp
        unfold allowed at hok
        dsimp only at hok
        rw [hp] at hok
        refine hs.setStage rfl fun id h => ⟨p, ?_, by simpa using hok⟩
        cases h
        exact find_of_mem (List.mem_filter.mp (List.mem_of_getLast? hp)).1
      · exact hs.settle rfl fun _ h => by cases h
    · exact hs
  | prepare d =>
    unfold step
    dsimp only
    split
    · exact own_prepare hinv hs
    · exact hs
  | persistStartGraph d =>
    unfold step
    dsimp only
    split
    · rename_i operationId hstage
      obtain ⟨p, hp, hhash⟩ := (hs.dispatches d).launching operationId hstage
      rw [hp]
      obtain ⟨-, rfl⟩ := find_mem hp
      exact own_persistStartGraph hs hp hhash
    · exact hs
  | bootFails d =>
    unfold step
    dsimp only
    split
    · exact hr d
    · exact hr d
    · exact hr d
    · exact hd d
    · exact hd d
    · exact hs
  | startInvocation d =>
    unfold step
    dsimp only
    split
    · exact hsb d _ _
    · exact hsb d _ _
    · exact hs
  | accepted d =>
    unfold step
    dsimp only
    split
    · rename_i input hstage
      have hh : (s.dispatches d).stage.held = some input := by rw [hstage]; rfl
      exact hs.format2Receipt ((hinv.holds d).reserved input hh) ((hs.dispatches d).held input hh)
    · exact hs
  | submit d =>
    unfold step
    dsimp only
    split
    · rename_i input unsent hstage hu
      refine (hsb d unsent .warm).put ⟨fun _ h => (by cases h), fun i hi => ?_⟩
      change i.requestHash = ((s.submit d unsent .warm).dispatches d).request.format2RequestHash
      rw [State.submit_self]
      exact (hs.dispatches d).held i (by rw [hstage]; exact hi)
    · exact hs
  | neverSubmitted d reply =>
    unfold step
    dsimp only
    split
    · rename_i input hstage
      have hh : (s.dispatches d).stage.held = some input := by rw [hstage]; rfl
      refine (hd d).answerWarm ?_ ?_ (by simpa [allowed] using hok)
      · rw [State.put_self]
        exact (hinv.holds d).reserved input hh
      · rw [State.put_self]
        exact (hs.dispatches d).held input hh
    · exact hs
  | reply d reply =>
    unfold step
    dsimp only
    split
    · rename_i input hstage
      have hh : (s.dispatches d).stage.held = some input := by rw [hstage]; rfl
      exact hs.answerWarm ((hinv.holds d).reserved input hh) ((hs.dispatches d).held input hh)
        (by simpa [allowed] using hok)
    · exact hs
  | runtimeChanged runtimes =>
    exact ⟨fun e => ⟨(hs.dispatches e).launching, (hs.dispatches e).held⟩, hs.receipts, hs.refusals⟩
  | brokerEvent invocationId =>
    exact ⟨fun e => ⟨(hs.dispatches e).launching, (hs.dispatches e).held⟩, hs.receipts, hs.refusals⟩

theorem inv_run (actions : List Action) : Inv (run step actions initial) :=
  run_invariant (I := Inv) (fun _ a h _ => inv_step h a) inv_initial meets_true

/-- Admission is idempotent, but a receipt can be for a refused input or for another request. -/
theorem format2_admission (actions : List Action) :
    Admitted (run step actions initial)
      ∧ ((∀ r ∈ (run step actions initial).receipts, r.inputId ∉ (run step actions initial).refusals)
        ↔ (run step actions initial).refusals = [])
      ∧ (Meets step (fun s a => allowed s a = true) actions initial → Honest (run step actions initial)) := by
  have hi := inv_run actions
  refine ⟨admitted hi, unrefused_iff hi, fun hmt => ?_⟩
  have hown : Inv (run step actions initial) ∧ Own (run step actions initial) :=
    run_invariant (I := fun s => Inv s ∧ Own s)
      (fun _ a h hok => ⟨inv_step h.1 a, own_step h.1 h.2 a hok⟩) ⟨inv_initial, own_initial⟩ hmt
  exact ⟨hown.2.receipts, (unrefused_iff hi).mpr hown.2.refusals⟩

namespace Sample

def coldReplay : List Action :=
  [.arrive 0 ⟨"k", "h", none⟩, .resume 0, .prepare 0, .persistStartGraph 0, .startInvocation 0, .accepted 0,
    .arrive 1 ⟨"k", "h", none⟩]

def refusedSubmission : List Action :=
  [.runtimeChanged [{ runtimeId := 7, activeInvocationId := some 8, activeOperationId := some 9
                      executionFormat := some .format2 }],
    .arrive 0 ⟨"k", "h", none⟩, .submit 0, .reply 0 .refused]

def otherPreparation : List Action :=
  [.arrive 0 ⟨"k", "h", none⟩, .resume 0, .prepare 0, .bootFails 0, .arrive 1 ⟨"k", "g", none⟩, .resume 1,
    .persistStartGraph 1, .accepted 1]

end Sample

theorem format2_admission_replay :
    (run step Sample.coldReplay initial).receipts.length = 2 ∧ Honest (run step Sample.coldReplay initial) :=
  ⟨by decide, (format2_admission Sample.coldReplay).2.2 (by decide)⟩

theorem format2_admission_fails :
    (∃ r ∈ (run step Sample.refusedSubmission initial).receipts,
        r.inputId ∈ (run step Sample.refusedSubmission initial).refusals)
      ∧ ∃ r ∈ (run step Sample.otherPreparation initial).receipts,
        ∃ row, (run step Sample.otherPreparation initial).inputs.find r.idempotencyKey = some row
          ∧ row.requestHash ≠ r.requestHash := by
  refine ⟨⟨⟨"k", "h", 0, 7, 8, 0⟩, by decide, by decide⟩, ⟨"k", "g", 0, 0, 0, 0⟩, by decide,
    ⟨0, "k", "h", 0, 0, 0⟩, by decide, by decide⟩

end HrcRuntime.Format2Admission
