import HrcRuntime.Format2Admission

namespace HrcRuntime.Format2Admission

open Keyed
open List (map_cons mem_map mem_singleton map_append)

variable {s : State} {d e : DispatchId} {x : Dispatch} {input row : Input}

abbrev Placement := Nat × Nat × Nat

def Input.placement (i : Input) : Placement := (i.inputId, i.runtimeId, i.invocationId)

def InputAdmitted.placement (e : InputAdmitted) : Placement := (e.inputId, e.runtimeId, e.invocationId)

def Stage.held : Stage → Option Input
  | .accepted i | .submitting i | .submitted i => some i
  | _ => none

structure Holds (s : State) (x : Dispatch) : Prop where
  reserved : ∀ i, x.stage.held = some i → s.inputs.find x.request.dispatchIdempotencyKey = some i
  unsent : ∀ i, x.unsent = some i →
    s.inputs.find i.idempotencyKey = some i ∧ i.idempotencyKey ∉ s.submissions.map (·.idempotencyKey)

def Names (s : State) (r : Receipt) : Prop :=
  ∃ row, s.inputs.find r.idempotencyKey = some row ∧ r.inputId = row.inputId ∧ r.runtimeId = row.runtimeId
    ∧ r.invocationId = row.invocationId ∧ s.findInputAdmissionAfterSeq row = some r.afterSeq

structure Inv (s : State) : Prop where
  fences : s.inputAdmitted.map (·.placement) = s.inputs.rows.map (·.placement)
  ids : (s.inputs.rows.map (·.inputId)).Nodup
  fresh : ∀ i ∈ s.inputs.rows, i.inputId < s.nextId
  prepared : ∀ p ∈ s.preparations.rows, p.id < s.nextId ∧ (p.prepared = true → p.id ∉ s.inputs.rows.map (·.inputId))
  holds : ∀ d, Holds s (s.dispatches d)
  apart : ∀ d e i j, (s.dispatches d).unsent = some i → (s.dispatches e).unsent = some j →
    i.idempotencyKey = j.idempotencyKey → d = e
  once : (s.submissions.map (·.idempotencyKey)).Nodup
  sent : ∀ m ∈ s.submissions, ∃ row, s.inputs.find m.idempotencyKey = some row ∧ row.inputId = m.inputId
  receipts : ∀ r ∈ s.receipts, Names s r
  answered : ∀ i ∈ s.refusals, ∃ r ∈ s.receipts, r.inputId = i

theorem inv_initial : Inv initial where
  fences := rfl
  ids := List.nodup_nil
  fresh := by simp [initial, Store.empty]
  prepared := by simp [initial, Store.empty]
  holds _ := ⟨by simp [initial, Stage.held], by simp [initial]⟩
  apart := by simp [initial]
  once := List.nodup_nil
  sent := by simp [initial]
  receipts := by simp [initial]
  answered := by simp [initial]

section Fences

variable {events : List InputAdmitted} {rows : List Input}

theorem fence_filter (input : Input) :
    (fun e : InputAdmitted => e.runtimeId == input.runtimeId && e.inputId == input.inputId
      && e.invocationId == input.invocationId) = fun e => e.placement == input.placement := by
  funext e
  rw [Bool.eq_iff_iff]
  simp only [InputAdmitted.placement, Input.placement, Bool.and_eq_true, beq_iff_eq, Prod.mk.injEq]
  tauto

theorem one_fence (hf : events.map (·.placement) = rows.map (·.placement))
    (hi : (rows.map (·.inputId)).Nodup) (hr : row ∈ rows) :
    ∃ e, events.filter (fun e => e.placement == row.placement) = [e] := by
  induction rows generalizing events with
  | nil => cases hr
  | cons r rows ih =>
    cases events with
    | nil => cases hf
    | cons e events =>
      rw [map_cons, map_cons, List.cons.injEq] at hf
      obtain ⟨hh, ht⟩ := hf
      rw [map_cons, List.nodup_cons] at hi
      rcases List.mem_cons.mp hr with rfl | hr
      · refine ⟨e, ?_⟩
        rw [List.filter_cons_of_pos (by simpa using hh)]
        congr 1
        refine List.filter_eq_nil_iff.mpr fun a ha hp => ?_
        have hm : row.placement ∈ rows.map (·.placement) := by
          rw [← ht, ← eq_of_beq hp]
          exact List.mem_map_of_mem ha
        obtain ⟨b, hb, hs⟩ := mem_map.mp hm
        exact hi.1 (mem_map.mpr ⟨b, hb, (Prod.ext_iff.mp hs).1⟩)
      · have hne : e.placement ≠ row.placement := by
          intro hs
          rw [hh] at hs
          have hid : r.inputId = row.inputId := (Prod.ext_iff.mp hs).1
          exact hi.1 (hid ▸ List.mem_map_of_mem hr)
        rw [List.filter_cons_of_neg (by simpa using hne)]
        exact ih ht hi.2 hr

end Fences

theorem findInputAdmissionAfterSeq_eq (row : Input) :
    s.findInputAdmissionAfterSeq row =
      match s.inputAdmitted.filter fun e => e.placement == row.placement with
      | [e] => some e.afterSeq
      | _ => none :=
  congrArg (fun p => match s.inputAdmitted.filter p with
    | [e] => some e.afterSeq
    | _ => none) (fence_filter row)

theorem Inv.fence (hs : Inv s) (hr : row ∈ s.inputs.rows) :
    ∃ afterSeq, s.findInputAdmissionAfterSeq row = some afterSeq := by
  obtain ⟨e, he⟩ := one_fence hs.fences hs.ids hr
  rw [findInputAdmissionAfterSeq_eq, he]
  exact ⟨e.afterSeq, rfl⟩

namespace State

@[simp] theorem put_self : (s.put d x).dispatches d = x := Function.update_self ..

@[simp] theorem submit_self {route : Route} :
    (s.submit d input route).dispatches d = { s.dispatches d with unsent := none } := put_self

theorem put_of_ne (h : e ≠ d) : (s.put d x).dispatches e = s.dispatches e := Function.update_of_ne h ..

end State

namespace Inv

theorem put (hs : Inv s) (hx : Holds s x)
    (hap : ∀ e ≠ d, ∀ i j, x.unsent = some i → (s.dispatches e).unsent = some j →
      i.idempotencyKey ≠ j.idempotencyKey) : Inv (s.put d x) where
  fences := hs.fences
  ids := hs.ids
  fresh := hs.fresh
  prepared := hs.prepared
  holds e := by
    by_cases he : e = d
    · rw [he, State.put_self]
      exact ⟨hx.reserved, hx.unsent⟩
    · rw [State.put_of_ne he]
      exact ⟨(hs.holds e).reserved, (hs.holds e).unsent⟩
  apart a b i j hi hj hk := by
    by_cases ha : a = d <;> by_cases hb : b = d
    · rw [ha, hb]
    · rw [ha, State.put_self] at hi
      rw [State.put_of_ne hb] at hj
      exact absurd hk (hap b hb i j hi hj)
    · rw [State.put_of_ne ha] at hi
      rw [hb, State.put_self] at hj
      exact absurd hk.symm (hap a ha j i hj hi)
    · rw [State.put_of_ne ha] at hi
      rw [State.put_of_ne hb] at hj
      exact hs.apart a b i j hi hj hk
  once := hs.once
  sent := hs.sent
  receipts := hs.receipts
  answered := hs.answered

theorem put_kept (hs : Inv s) (hx : ∀ i, x.stage.held = some i → s.inputs.find x.request.dispatchIdempotencyKey = some i)
    (hu : ∀ i, x.unsent = some i → (s.dispatches d).unsent = some i) : Inv (s.put d x) :=
  hs.put ⟨hx, fun i hi => (hs.holds d).unsent i (hu i hi)⟩ fun e he i j hi hj hk =>
    he (hs.apart e d j i hj (hu i hi) hk.symm)

theorem setStage (hs : Inv s) {stage : Stage} (hstage : stage.held = none) : Inv (s.setStage d stage) :=
  hs.put_kept (fun i hi => by
    change stage.held = some i at hi
    rw [hstage] at hi
    cases hi) fun _ hi => hi

theorem format2Receipt (hs : Inv s) (hrow : s.inputs.find (s.dispatches d).request.dispatchIdempotencyKey = some input) :
    Inv (s.format2Receipt d input) := by
  unfold State.format2Receipt
  split
  · exact hs.setStage rfl
  · rename_i afterSeq hf
    have hans : Inv (s.setStage d .answered) := hs.setStage rfl
    constructor
    · exact hans.fences
    · exact hans.ids
    · exact hans.fresh
    · exact hans.prepared
    · exact fun e => ⟨(hans.holds e).reserved, (hans.holds e).unsent⟩
    · exact hans.apart
    · exact hans.once
    · exact hans.sent
    · intro r hr
      rcases List.mem_append.mp hr with hr | hr
      · exact hs.receipts r hr
      · rw [mem_singleton.mp hr]
        exact ⟨input, hrow, rfl, rfl, rfl, hf⟩
    · intro i hi
      obtain ⟨r, hr, hid⟩ := hs.answered i hi
      exact ⟨r, List.mem_append_left _ hr, hid⟩

section Reserve

variable {t : Store Preparation (·.id)} {runtimes : List Runtime} {n : Nat}

theorem fence_reserve (hr : row ∈ s.inputs.rows) (hid : input.inputId ∉ s.inputs.rows.map (·.inputId)) :
    (s.reserve input).findInputAdmissionAfterSeq row = s.findInputAdmissionAfterSeq row := by
  have hne : ¬ (InputAdmitted.placement ⟨input.inputId, input.runtimeId, input.invocationId,
      s.maxBrokerSeq input.invocationId⟩ == row.placement) = true := by
    intro hs
    have hs : input.inputId = row.inputId := (Prod.ext_iff.mp (eq_of_beq hs)).1
    exact hid (hs ▸ List.mem_map_of_mem hr)
  rw [findInputAdmissionAfterSeq_eq, findInputAdmissionAfterSeq_eq]
  have hf : (s.reserve input).inputAdmitted.filter (fun e => e.placement == row.placement)
      = s.inputAdmitted.filter fun e => e.placement == row.placement := by
    unfold State.reserve
    rw [List.filter_append, List.filter_cons_of_neg (p := fun e : InputAdmitted => e.placement == row.placement) hne, List.filter_nil, List.append_nil]
  rw [hf]

theorem names_reserve (hid : input.inputId ∉ s.inputs.rows.map (·.inputId)) {r : Receipt} (hr : Names s r) :
    Names (s.reserve input) r := by
  obtain ⟨row, hfn, hi, hrt, hinv, hf⟩ := hr
  refine ⟨row, find_add_of_some hfn, hi, hrt, hinv, ?_⟩
  rw [fence_reserve (find_mem hfn).1 hid]
  exact hf

/-- The row of a new key and its fence, whatever happens to the preparations meanwhile. -/
theorem reserve (hs : Inv s) (hk : s.inputs.find input.idempotencyKey = none)
    (hid : input.inputId ∉ s.inputs.rows.map (·.inputId)) (hn : s.nextId ≤ n) (hfr : input.inputId < n)
    (hpre : ∀ p ∈ t.rows, p.id < n ∧
      (p.prepared = true → p.id ∉ s.inputs.rows.map (·.inputId) ∧ p.id ≠ input.inputId)) :
    Inv { s.reserve input with preparations := t, runtimes, nextId := n } := by
  have hrw : (s.inputs.add input).rows = s.inputs.rows ++ [input] := rows_add hk
  have hmap : (s.inputs.add input).rows.map (·.inputId) = s.inputs.rows.map (·.inputId) ++ [input.inputId] := by
    rw [hrw, map_append, List.map_singleton]
  constructor
  · change (s.inputAdmitted ++ [_]).map _ = (s.inputs.add input).rows.map _
    rw [hrw, map_append, map_append, hs.fences]
    rfl
  · change ((s.inputs.add input).rows.map _).Nodup
    rw [hmap]
    exact List.nodup_append.mpr ⟨hs.ids, List.nodup_singleton _, fun a ha b hb hab => hid <| by
      rw [← mem_singleton.mp hb, ← hab]
      exact ha⟩
  · intro i hi
    rcases mem_add.mp hi with hi | ⟨rfl, -⟩
    · exact Nat.lt_of_lt_of_le (hs.fresh i hi) hn
    · exact hfr
  · intro p hp
    obtain ⟨hlt, hnew⟩ := hpre p hp
    refine ⟨hlt, fun hpr hmem => ?_⟩
    change p.id ∈ (s.inputs.add input).rows.map _ at hmem
    rw [hmap] at hmem
    rcases List.mem_append.mp hmem with hmem | hmem
    · exact (hnew hpr).1 hmem
    · exact (hnew hpr).2 (mem_singleton.mp hmem)
  · exact fun e => ⟨fun i hi => find_add_of_some ((hs.holds e).reserved i hi), fun i hi =>
      ⟨find_add_of_some ((hs.holds e).unsent i hi).1, ((hs.holds e).unsent i hi).2⟩⟩
  · exact hs.apart
  · exact hs.once
  · intro m hm
    obtain ⟨row, hf, hrow⟩ := hs.sent m hm
    exact ⟨row, find_add_of_some hf, hrow⟩
  · exact fun r hr => names_reserve hid (hs.receipts r hr)
  · exact hs.answered

variable (input) in
theorem reserve_put (hs : Inv s) (hkey : s.inputs.find input.idempotencyKey = none)
    (hid : input.inputId ∉ s.inputs.rows.map (·.inputId)) (hn : s.nextId ≤ n) (hfresh : input.inputId < n)
    (hprepared : ∀ p ∈ t.rows, p.id < n ∧
      (p.prepared = true → p.id ∉ s.inputs.rows.map (·.inputId) ∧ p.id ≠ input.inputId))
    (hstage : x.stage.held = some input) (hunsent : x.unsent = some input)
    (hrequest : x.request.dispatchIdempotencyKey = input.idempotencyKey) :
    Inv (State.put { s.reserve input with preparations := t, runtimes, nextId := n } d x) := by
  have hself : (s.inputs.add input).find input.idempotencyKey = some input := find_add_self hkey
  have hreserved : Inv { s.reserve input with preparations := t, runtimes, nextId := n } :=
    hs.reserve hkey hid hn hfresh hprepared
  refine hreserved.put ⟨fun i hi => ?_, fun i hi => ?_⟩ ?_
  · rw [hstage] at hi
    rw [hrequest, ← Option.some.inj hi]
    exact hself
  · rw [hunsent] at hi
    rw [← Option.some.inj hi]
    refine ⟨hself, fun hmem => ?_⟩
    obtain ⟨m, hm, hsame⟩ := mem_map.mp hmem
    obtain ⟨row, hfind, -⟩ := hs.sent m hm
    rw [hsame, hkey] at hfind
    cases hfind
  · intro e he i j hi hj hsame
    rw [hunsent] at hi
    have hfind := ((hs.holds e).unsent j hj).1
    rw [← hsame, ← Option.some.inj hi, hkey] at hfind
    cases hfind

end Reserve

theorem submit (hs : Inv s) (hu : (s.dispatches d).unsent = some input) (route : Route) :
    Inv (s.submit d input route) := by
  obtain ⟨hf, hn⟩ := (hs.holds d).unsent input hu
  have hp : Inv (s.put d { s.dispatches d with unsent := none }) :=
    hs.put_kept (hs.holds d).reserved fun _ h => by cases h
  have hk : (s.submit d input route).submissions.map (·.idempotencyKey)
      = s.submissions.map (·.idempotencyKey) ++ [input.idempotencyKey] := map_append
  constructor
  · exact hp.fences
  · exact hp.ids
  · exact hp.fresh
  · exact hp.prepared
  · intro e
    refine ⟨(hp.holds e).reserved, fun i hi => ⟨((hp.holds e).unsent i hi).1, fun hmem => ?_⟩⟩
    rw [hk] at hmem
    rcases List.mem_append.mp hmem with hmem | hmem
    · exact ((hp.holds e).unsent i hi).2 hmem
    · have he : e ≠ d := by
        rintro rfl
        have hnn : ((s.put e { s.dispatches e with unsent := none }).dispatches e).unsent = some i := hi
        rw [State.put_self] at hnn
        cases hnn
      have hoth : ((s.put d { s.dispatches d with unsent := none }).dispatches e).unsent = some i := hi
      rw [State.put_of_ne he] at hoth
      exact he (hs.apart e d i input hoth hu (mem_singleton.mp hmem))
  · exact hp.apart
  · rw [hk]
    exact List.nodup_append.mpr ⟨hs.once, List.nodup_singleton _, fun a ha b hb hab => hn <| by
      rw [← mem_singleton.mp hb, ← hab]
      exact ha⟩
  · intro m hm
    rcases List.mem_append.mp hm with hm | hm
    · exact hs.sent m hm
    · rw [mem_singleton.mp hm]
      exact ⟨input, hf, rfl⟩
  · exact hs.receipts
  · exact hs.answered

theorem bindBrokerSubmissionId (hs : Inv s) (submissionId : String) :
    Inv (s.bindBrokerSubmissionId input submissionId) := by
  unfold State.bindBrokerSubmissionId
  split
  · exact hs
  · exact ⟨hs.fences, hs.ids, hs.fresh, hs.prepared, fun e => ⟨(hs.holds e).reserved, (hs.holds e).unsent⟩, hs.apart,
      hs.once, hs.sent, hs.receipts, hs.answered⟩

theorem refused (hs : Inv s) (hrow : s.inputs.find (s.dispatches d).request.dispatchIdempotencyKey = some input) :
    Inv (State.format2Receipt { s with refusals := s.refusals ++ [input.inputId] } d input) := by
  obtain ⟨afterSeq, hf⟩ := hs.fence (find_mem hrow).1
  have hf' : State.findInputAdmissionAfterSeq { s with refusals := s.refusals ++ [input.inputId] } input
      = some afterSeq := hf
  have hr := hs.format2Receipt hrow
  unfold State.format2Receipt at hr ⊢
  rw [hf] at hr
  rw [hf']
  refine ⟨hr.fences, hr.ids, hr.fresh, hr.prepared,
    fun e => ⟨(hr.holds e).reserved, (hr.holds e).unsent⟩, hr.apart, hr.once, hr.sent,
    hr.receipts, fun i hi => ?_⟩
  rcases List.mem_append.mp hi with hi | hi
  · exact hr.answered i hi
  · rw [mem_singleton.mp hi]
    exact ⟨_, List.mem_append_right _ (List.mem_singleton_self _), rfl⟩

theorem answerWarm (hs : Inv s) (hr : s.inputs.find (s.dispatches d).request.dispatchIdempotencyKey = some input)
    (reply : Reply) : Inv (s.answerWarm d input reply) := by
  cases reply with
  | ok submissionId =>
    refine (hs.bindBrokerSubmissionId submissionId).format2Receipt ?_
    unfold State.bindBrokerSubmissionId
    split <;> exact hr
  | refused => exact hs.refused hr
  | doubtful | threw => exact hs.format2Receipt hr

end Inv

section Steps

theorem inv_reserveWarm (hs : Inv s) (hk : s.inputs.find (s.dispatches d).request.dispatchIdempotencyKey = none)
    (runtime : Runtime) : Inv (s.reserveWarmFormat2Input d runtime) := by
  unfold State.reserveWarmFormat2Input
  split
  · rename_i invocationId operationId _ _
    have hn : s.nextId ∉ s.inputs.rows.map (·.inputId) := fun hm => by
      obtain ⟨i, hi, hid⟩ := mem_map.mp hm
      exact Nat.lt_irrefl _ (hid ▸ hs.fresh i hi)
    exact hs.reserve_put ⟨s.nextId, _, _, runtime.runtimeId, operationId, invocationId⟩ (t := s.preparations)
      (n := s.nextId + 1) hk hn (Nat.le_succ _)
      (Nat.lt_succ_self _)
      (fun p hp => ⟨Nat.lt_succ_of_lt (hs.prepared p hp).1, fun h => ⟨(hs.prepared p hp).2 h,
        Nat.ne_of_lt (hs.prepared p hp).1⟩⟩) rfl rfl rfl
  · exact hs.setStage rfl

theorem inv_executeFormat2DispatchTurn (hs : Inv s) : Inv (s.executeFormat2DispatchTurn d) := by
  unfold State.executeFormat2DispatchTurn
  split
  · rename_i existing hr
    unfold State.replay
    dsimp only
    split
    · exact hs.setStage rfl
    · split
      · exact hs.setStage rfl
      · split
        · exact hs.setStage rfl
        · exact hs.format2Receipt hr
  · rename_i hk
    split
    · unfold State.joinRuntime
      dsimp only
      split
      · exact hs.setStage rfl
      · split
        · exact hs.setStage rfl
        · exact inv_reserveWarm hs hk _
    · unfold State.startCold
      split <;> exact hs.setStage rfl

theorem inv_prepare (hs : Inv s) : Inv (s.prepare d) := by
  have hput : Inv (s.setStage d (.launching s.nextId)) := hs.setStage rfl
  refine ⟨hput.fences, hput.ids, fun i hi => Nat.lt_succ_of_lt (hput.fresh i hi), fun p hp => ?_,
    fun e => ⟨(hput.holds e).reserved, (hput.holds e).unsent⟩, hput.apart, hput.once, hput.sent, hput.receipts,
    hput.answered⟩
  rcases mem_add.mp hp with hp | ⟨rfl, -⟩
  · exact ⟨Nat.lt_succ_of_lt (hs.prepared p hp).1, (hs.prepared p hp).2⟩
  · refine ⟨Nat.lt_succ_self _, fun _ hm => ?_⟩
    obtain ⟨i, hi, hid⟩ := mem_map.mp hm
    have hid : i.inputId = s.nextId := hid
    exact Nat.lt_irrefl s.nextId (hid ▸ hs.fresh i hi)

theorem inv_persistStartGraph (hs : Inv s) {p : Preparation} (hp : s.preparations.find p.id = some p) :
    Inv (s.persistStartGraph d p) := by
  unfold State.persistStartGraph
  dsimp only
  split
  · rename_i hl
    obtain ⟨hpr, hk⟩ := Bool.and_eq_true_iff.mp hl
    obtain ⟨hlt, hn⟩ := hs.prepared p (find_mem hp).1
    refine hs.reserve_put ⟨p.id, _, p.format2RequestHash, p.id, p.id, p.id⟩ (n := s.nextId)
      (Option.isNone_iff_eq_none.mp hk) (hn hpr) (Nat.le_refl _) hlt (fun q hq => ?_) rfl rfl rfl
    obtain ⟨r, hr, rfl⟩ := (mem_amend _).mp hq
    split
    · exact ⟨(hs.prepared r hr).1, fun h => by cases h⟩
    · rename_i hoth
      refine ⟨(hs.prepared r hr).1, fun h => ⟨(hs.prepared r hr).2 h, fun hsm => hoth ?_⟩⟩
      simpa using hsm
  · exact hs.setStage rfl

theorem inv_step (hs : Inv s) (a : Action) : Inv (step a s) := by
  cases a with
  | arrive d request =>
    unfold step
    dsimp only
    split
    · rename_i habs
      exact inv_executeFormat2DispatchTurn (hs.put_kept (fun _ h => by cases h) fun _ h => by cases h)
    · exact hs
  | resume d =>
    unfold step State.resume
    dsimp only
    split
    · split <;> exact hs.setStage rfl
    · exact hs
  | prepare d =>
    unfold step
    dsimp only
    split
    · exact inv_prepare hs
    · exact hs
  | persistStartGraph d =>
    unfold step
    dsimp only
    split
    · split
      · rename_i operationId _ p hp
        obtain ⟨-, rfl⟩ := find_mem hp
        exact inv_persistStartGraph hs hp
      · exact hs.setStage rfl
    · exact hs
  | bootFails d =>
    unfold step
    dsimp only
    split
    · exact hs.setStage rfl
    · exact hs.setStage rfl
    · exact hs.setStage rfl
    · exact hs.put_kept (hs.holds d).reserved fun _ h => by cases h
    · exact hs.put_kept (hs.holds d).reserved fun _ h => by cases h
    · exact hs
  | startInvocation d =>
    unfold step
    dsimp only
    split
    · exact hs.submit ‹_› _
    · exact hs.submit ‹_› _
    · exact hs
  | accepted d =>
    unfold step
    dsimp only
    split
    · rename_i input hstage
      exact hs.format2Receipt ((hs.holds d).reserved input (by rw [hstage]; rfl))
    · exact hs
  | submit d =>
    unfold step
    dsimp only
    split
    · rename_i input unsent hstage hu
      refine (hs.submit hu .warm).put_kept (fun i hi => ?_) fun i hi => hi
      change s.inputs.find ((s.submit d unsent .warm).dispatches d).request.dispatchIdempotencyKey = some i
      rw [State.submit_self]
      exact (hs.holds d).reserved i (by rw [hstage]; exact hi)
    · exact hs
  | neverSubmitted d reply =>
    unfold step
    dsimp only
    split
    · rename_i input hstage
      have hput : Inv (s.put d { s.dispatches d with unsent := none }) :=
        hs.put_kept (hs.holds d).reserved fun _ h => by cases h
      refine hput.answerWarm ?_ reply
      rw [State.put_self]
      exact (hs.holds d).reserved input (by rw [hstage]; rfl)
    · exact hs
  | reply d reply =>
    unfold step
    dsimp only
    split
    · rename_i input hstage
      exact hs.answerWarm ((hs.holds d).reserved input (by rw [hstage]; rfl)) reply
    · exact hs
  | runtimeChanged runtimes =>
    exact ⟨hs.fences, hs.ids, hs.fresh, hs.prepared, fun e => ⟨(hs.holds e).reserved, (hs.holds e).unsent⟩, hs.apart,
      hs.once, hs.sent, hs.receipts, hs.answered⟩
  | brokerEvent invocationId =>
    exact ⟨hs.fences, hs.ids, hs.fresh, hs.prepared, fun e => ⟨(hs.holds e).reserved, (hs.holds e).unsent⟩, hs.apart,
      hs.once, hs.sent, hs.receipts, hs.answered⟩

end Steps

end HrcRuntime.Format2Admission
