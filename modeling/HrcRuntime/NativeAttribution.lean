import Mathlib.Data.List.Forall2
import HrcRuntime.NativeOwners

namespace HrcRuntime.NativeAttribution

open Json Records Database EventRepository Context NativeOwners
open Option (bind_eq_bind bind_some)

section Lists

variable {α β γ : Type} {R : α → β → Prop} {xs : List α} {ys : List β}

theorem forall₂_filterMap {f : γ → Option α} {g : γ → Option β} {rows : List γ}
    (h : ∀ row ∈ rows, Option.Rel R (f row) (g row)) : List.Forall₂ R (rows.filterMap f) (rows.filterMap g) := by
  induction rows with
  | nil => exact .nil
  | cons row rows ih =>
    have hrs := ih fun r hr => h r (List.mem_cons_of_mem _ hr)
    have hrow := h row List.mem_cons_self
    rw [List.filterMap_cons, List.filterMap_cons]
    generalize f row = a at hrow
    generalize g row = b at hrow
    cases hrow with
    | some hab => exact .cons hab hrs
    | none => exact hrs

variable {p : α → Bool} {q : β → Bool}

theorem forall₂_filter (h : List.Forall₂ R xs ys) (hpq : ∀ x y, R x y → p x = q y) :
    List.Forall₂ R (xs.filter p) (ys.filter q) :=
  List.rel_filter (fun x y hxy => by change p x = true ↔ q y = true; rw [hpq x y hxy]) h

theorem forall₂_any (h : List.Forall₂ R xs ys) (hpq : ∀ x y, R x y → p x = q y) :
    xs.any p = ys.any q := by
  induction h with
  | nil => rfl
  | cons hxy _ ih => rw [List.any_cons, List.any_cons, hpq _ _ hxy, ih]

theorem forall₂_find_map {f : α → γ} {g : β → γ} (h : List.Forall₂ R xs ys)
    (hpq : ∀ x y, R x y → p x = q y) (hfg : ∀ x y, R x y → f x = g y) :
    (xs.find? p).map f = (ys.find? q).map g := by
  induction h with
  | nil => rfl
  | @cons x y xs ys hxy _ ih =>
    rw [List.find?_cons, List.find?_cons, hpq x y hxy]
    cases q y with
    | true => exact congrArg some (hfg x y hxy)
    | false => exact ih

theorem head?_take_one_filterMap {f : α → Option β} (hf : ∀ x ∈ xs, (f x).isSome) :
    ((xs.take 1).filterMap f).head? = xs.head?.bind f := by
  cases xs with
  | nil => rfl
  | cons x xs =>
    obtain ⟨y, hy⟩ := Option.isSome_iff_exists.mp (hf x List.mem_cons_self)
    simp [hy]

end Lists

section Candidates

theorem add_eraseDups (ids : List String) (id : Option String) :
    add ids.eraseDups id = (ids ++ id.toList).eraseDups := by
  cases id with
  | none => rw [Option.toList_none, List.append_nil]; rfl
  | some id =>
    rw [Option.toList_some, List.eraseDups_append]
    change (if ids.eraseDups.contains id then _ else _) = _
    have hc : ids.eraseDups.contains id = ids.contains id := by
      rw [Bool.eq_iff_iff, List.contains_iff_mem, List.contains_iff_mem, List.mem_eraseDups]
    rw [hc]
    by_cases h : id ∈ ids
    · rw [if_pos (List.contains_iff_mem.mpr h)]
      simp [List.removeAll, h]
    · rw [if_neg (mt List.contains_iff_mem.mp h)]
      simp [List.removeAll, h, List.eraseDups_cons]

theorem onlyOne_eq (ids : List String) :
    (if ids.eraseDups.length != 1 then none else ids.eraseDups.getLast?) = Ownership.onlyOne ids := by
  cases ids with
  | nil => rfl
  | cons r rest =>
    rw [List.eraseDups_cons, Ownership.onlyOne]
    by_cases h : rest.all (· == r) = true
    · have hn : rest.filter (fun b => !b == r) = [] :=
        List.filter_eq_nil_iff.mpr fun x hx => by simpa using List.all_eq_true.mp h x hx
      rw [if_pos h, hn]
      rfl
    · obtain ⟨x, hx, hne⟩ : ∃ x ∈ rest, x ≠ r := by simpa using h
      have hm : x ∈ (rest.filter fun b => !b == r).eraseDups :=
        List.mem_eraseDups.mpr (List.mem_filter.mpr ⟨hx, by simpa using hne⟩)
      have hl := List.length_pos_of_mem hm
      rw [if_neg h, if_pos]
      rw [List.length_cons, bne_iff_ne]
      omega

end Candidates

section Runs

variable (db : Db)

theorem run_eq (runId : String) : run db runId = RunRepository.getByRunId db runId := rfl

theorem runByDispatchedInput_eq (input : String) :
    runByDispatchedInput db input = RunRepository.getByDispatchedInputId db input := rfl

theorem runBySubmission_eq (submission : String) :
    runBySubmission db submission = RunRepository.getByBrokerSubmissionId db submission := rfl

def nativeEpoch (h : Ownership.HistoricalEpoch) : Epoch :=
  { inv := h.invocation, generation := some h.operation.generation }

theorem runForInput_eq (input : String) : runForInput db input = Ownership.runForInput db input := by
  unfold runForInput Ownership.runForInput
  rw [runByDispatchedInput_eq, runBySubmission_eq]
  cases RunRepository.getByDispatchedInputId db input <;> rfl

theorem epoch_eq (invocation : String) :
    epoch db invocation = (Ownership.historicalEpoch db invocation).map nativeEpoch := by
  have hi : (db.brokerInvocations.find? fun r => r.invocationId == invocation) = getByInvocationId db invocation :=
    rfl
  unfold epoch Ownership.historicalEpoch
  rw [hi]
  cases getByInvocationId db invocation with
  | none => rfl
  | some inv =>
    have hoper : (db.runtimeOperations.find? fun r => r.operationId == inv.operationId)
        = Repositories.getByOperationId db inv.operationId := rfl
    dsimp only
    rw [hoper]
    simp only [bind_eq_bind, bind_some]
    cases hop : Repositories.getByOperationId db inv.operationId with
    | none => rfl
    | some op =>
      have hid : op.operationId = inv.operationId := by simpa using List.find?_some hop
      simp only [bind_some, hid, bne_self_eq_false, Bool.or_false]
      rw [bne_comm]
      by_cases h : (inv.runtimeId != op.runtimeId) = true
      · rw [if_pos h, if_pos h]; rfl
      · rw [if_neg h, if_neg h]; rfl

theorem owns_eq (h : Ownership.HistoricalEpoch) (r : HrcRunRecord) (invocation : String) :
    ((nativeEpoch h).owns r && r.invocationId == some invocation) = h.owns invocation r := by
  simp only [nativeEpoch, Epoch.owns, Ownership.HistoricalEpoch.owns, Option.some_beq_some]
  cases r.runtimeId == some h.invocation.runtimeId <;> cases r.invocationId == some invocation <;>
    cases r.operationId == some h.invocation.operationId <;> cases r.generation == h.operation.generation <;> rfl

theorem validCandidate_eq (invocation runId : String) :
    validCandidate db invocation runId = Ownership.validCandidate db invocation runId := by
  rw [validCandidate, Ownership.validCandidate, epoch_eq]
  cases Ownership.historicalEpoch db invocation with
  | none => rfl
  | some h =>
    rw [Option.map_some, run_eq]
    cases RunRepository.getByRunId db runId with
    | none => rfl
    | some r => simp only [bind_eq_bind, bind_some, owns_eq]

theorem inputCandidate_eq (invocation : String) (input : Option String) :
    inputCandidate db invocation input = Ownership.inputCandidate db invocation input := by
  cases input with
  | none => rfl
  | some input =>
    rw [inputCandidate, Ownership.inputCandidate, runForInput_eq]
    simp only [bind_eq_bind, bind_some]
    cases Ownership.runForInput db input with
    | none => rfl
    | some r => exact validCandidate_eq db invocation r.runId

theorem submissionCandidate_eq (invocation : String) (submission : Option String) :
    submissionCandidate db invocation submission = Ownership.submissionCandidate db invocation submission := by
  cases submission with
  | none => rfl
  | some submission =>
    unfold submissionCandidate Ownership.submissionCandidate
    dsimp only
    rw [runBySubmission_eq]
    simp only [bind_eq_bind, bind_some]
    cases RunRepository.getByBrokerSubmissionId db submission with
    | none => rfl
    | some r => exact validCandidate_eq db invocation r.runId

theorem launchCarriedInvoke_eq {db : Db} {r : HrcRunRecord} (hr : r ∈ db.runs.rows) :
    launchCarriedInvoke r =
      Ownership.isLaunchCarriedInvokeCorrelationJson (RunRepository.getCorrelationJson db r.runId) := by
  rw [RunRepository.getCorrelationJson, RunRepository.getByRunId_of_mem hr, bind_some, launchCarriedInvoke]
  cases r.correlationJson with
  | none => rfl
  | some json =>
    change (json.member "kind" == _) = (json.stringField "kind" == _)
    rw [Json.stringField, Bool.eq_iff_iff, beq_iff_eq, beq_iff_eq]
    cases json.member "kind" with
    | none => simp
    | some kind => cases kind <;> simp [Json.asString]

end Runs

structure Clean (db : Db) (invocationId : String) : Prop where
  startInputs : ∀ row ∈ listByInvocationId db invocationId, row.type = .turnStarted ∨ row.type = .turnAttributed →
    rawInputId row ≠ some ""
  acceptedInputs : ∀ row ∈ listByInvocationId db invocationId, row.type = .inputAccepted →
    jsonExtract row.brokerEventJson "inputId" = (row.brokerEventJson.stringField "inputId").map .str
  runIds : ∀ r ∈ db.runs.rows, r.runId ≠ ""

section Evidence

structure Agrees (e : Ownership.ParsedEvent) (s : Stored) : Prop where
  kind : e.type = s.kind
  seq : e.seq = s.seq
  coord : e.toTurnCoordinates = storedCoord s
  submissionId : e.submissionId = s.submissionId
  ownership : e.ownership = s.ownership
  inputId : s.kind = .turnStarted ∨ s.kind = .turnAttributed → e.inputId = s.inputId

theorem coordMatches_eq (target evidence : Coord) :
    coordMatches target evidence = Ownership.coordinatesMatch target evidence := rfl

theorem coord_eq (envelope : InvocationEventEnvelope) :
    NativeOwners.coord envelope = Ownership.coordinatesForEnvelope envelope := rfl

theorem agrees_row {row : HrcBrokerInvocationEventRecord}
    (h : row.type = .turnStarted ∨ row.type = .turnAttributed → rawInputId row ≠ some "") :
    Option.Rel Agrees (Ownership.parseStoredEvent row) (readStored row) := by
  rw [Ownership.parseStoredEvent, readStored]
  cases effectiveTurnId row with
  | none => exact .none
  | some turnId =>
    refine .some ⟨rfl, rfl, rfl, rfl, rfl, fun hk => ?_⟩
    change (rawInputId row).filter _ = rawInputId row
    have hne := h hk
    cases hr : rawInputId row with
    | none => rfl
    | some id =>
      refine Option.filter_some_pos ?_
      rw [hr] at hne
      simpa using hne

variable {db : Db} {envelope : InvocationEventEnvelope}

theorem forall₂_listed (hc : Clean db envelope.invocationId) {p : HrcBrokerInvocationEventRecord → Bool}
    {R : Ownership.ParsedEvent → Stored → Prop}
    (hR : ∀ row e s, p row = true → Agrees e s → s.kind = row.type → R e s) :
    List.Forall₂ R
      (((listByInvocationId db envelope.invocationId).filter p).filterMap Ownership.parseStoredEvent)
      (((listByInvocationId db envelope.invocationId).filter p).filterMap readStored) := by
  refine forall₂_filterMap fun row hr => ?_
  obtain ⟨hm, hp⟩ := List.mem_filter.mp hr
  have hagr := agrees_row (hc.startInputs row hm)
  have hk : ∀ s, readStored row = some s → s.kind = row.type := by
    intro s hs
    obtain ⟨turnId, -, rfl⟩ := Option.map_eq_some_iff.mp hs
    rfl
  generalize Ownership.parseStoredEvent row = a at hagr
  generalize readStored row = b at hagr hk
  cases hagr with
  | some h => exact .some (hR row _ _ hp h (hk _ rfl))
  | none => exact .none

theorem forall₂_turnEvidence (hc : Clean db envelope.invocationId) (target : Coord)
    (h : Ownership.HistoricalEpoch) :
    List.Forall₂ Agrees
      (Ownership.turnEvidence db envelope.invocationId h.invocation.runtimeId target envelope.seq)
      (turnEvidence db envelope target (nativeEpoch h)) := by
  refine forall₂_filter (forall₂_listed hc fun _ _ _ _ hagr _ => hagr) fun e s hagr => ?_
  rw [hagr.coord, coordMatches_eq]

theorem firstStored_agrees (hc : Clean db envelope.invocationId) (h : Ownership.HistoricalEpoch) :
    Option.Rel (fun e s => Agrees e s ∧ s.kind = .turnStarted)
      (Ownership.storedFirstStart db envelope.invocationId h.invocation.runtimeId envelope.seq)
      (firstStored db envelope (nativeEpoch h)) := by
  let f : ListFilter :=
    { throughSeq := some envelope.seq, runtimeId := some h.invocation.runtimeId, hasTurnId := true, limit := some 1 }
  let rows := (listByInvocationId db envelope.invocationId).filter (f.keeps [.turnStarted])
  change Option.Rel _ (rows.head?.bind Ownership.parseStoredEvent) ((rows.take 1).filterMap readStored).head?
  have hkp : ∀ row ∈ rows, row ∈ listByInvocationId db envelope.invocationId ∧ row.type = .turnStarted
      ∧ (effectiveTurnId row).isSome = true := by
    intro row hr
    obtain ⟨hm, hk⟩ := List.mem_filter.mp hr
    simp only [f, ListFilter.keeps, Bool.and_eq_true, List.contains_iff_mem, List.mem_singleton,
      Bool.not_true, Bool.false_or] at hk
    exact ⟨hm, hk.1.1.1, hk.2⟩
  rw [head?_take_one_filterMap fun row hr => ?_]
  · cases hh : rows.head? with
    | none => exact .none
    | some row =>
      obtain ⟨hm, ht, -⟩ := hkp row (List.mem_of_mem_head? hh)
      have hagr := agrees_row (hc.startInputs row hm)
      rw [bind_some, bind_some]
      cases ha : Ownership.parseStoredEvent row <;> cases hb : readStored row <;> rw [ha, hb] at hagr
      · exact .none
      · cases hagr
      · cases hagr
      · cases hagr with
        | some hagr =>
          obtain ⟨turnId, -, rfl⟩ := Option.map_eq_some_iff.mp hb
          exact .some ⟨hagr, ht⟩
  · rw [readStored, Option.isSome_map]
    exact (hkp row hr).2.2

theorem launchApplies_eq (hc : Clean db envelope.invocationId) (target : Coord) (h : Ownership.HistoricalEpoch) :
    launchApplies envelope target (firstStored db envelope (nativeEpoch h)) =
      Ownership.launchMarkerApplies envelope target
        (Ownership.storedFirstStart db envelope.invocationId h.invocation.runtimeId envelope.seq) := by
  have hf := firstStored_agrees hc h
  generalize Ownership.storedFirstStart db envelope.invocationId h.invocation.runtimeId envelope.seq = a at hf
  generalize firstStored db envelope (nativeEpoch h) = b at hf
  cases hf with
  | some hagr =>
    obtain ⟨hagr, hk⟩ := hagr
    simp only [launchApplies, Ownership.launchMarkerApplies, Option.isNone_some, Bool.and_false, Bool.false_or,
      Option.any_some, hagr.inputId (.inl hk), hagr.coord, coordMatches_eq]
  | none =>
    simp only [launchApplies, Ownership.launchMarkerApplies, Option.isNone_none, Bool.and_true, Option.any_none,
      Bool.or_false]
    rfl

theorem readEvidence_eq {e : Ownership.ParsedEvent} {s : Stored} (hagr : Agrees e s) (invocation : String)
    (ids : List String) (foreign : Bool) :
    readEvidence db invocation { candidates := ids.eraseDups, foreign } s =
      { candidates := (ids ++ (Ownership.evidenceCandidate db invocation e).toList).eraseDups
        foreign := foreign || Ownership.isForeign e.type e.ownership } := by
  rw [readEvidence, Ownership.evidenceCandidate, Ownership.isForeign, hagr.kind, hagr.ownership,
    hagr.submissionId]
  cases hk : s.kind with
  | turnStarted =>
    dsimp only
    rw [hagr.inputId (.inl hk), inputCandidate_eq, add_eraseDups]
    simp
  | turnAttributed =>
    dsimp only
    rw [hagr.inputId (.inr hk), inputCandidate_eq]
    cases s.ownership == some "own" with
    | true => rw [if_pos rfl, if_pos rfl, add_eraseDups]; rfl
    | false => simp
  | submissionExecuted =>
    dsimp only
    rw [submissionCandidate_eq, add_eraseDups]
    simp
  | _ => simp

variable (db) in
theorem foldl_readEvidence {events : List Ownership.ParsedEvent} {stored : List Stored}
    (h : List.Forall₂ Agrees events stored) (invocation : String) (ids : List String) (foreign : Bool) :
    stored.foldl (readEvidence db invocation) { candidates := ids.eraseDups, foreign } =
      { candidates := (ids ++ events.filterMap (Ownership.evidenceCandidate db invocation)).eraseDups
        foreign := foreign || events.any fun e => Ownership.isForeign e.type e.ownership } := by
  induction h generalizing ids foreign with
  | nil => simp
  | @cons e s events stored hagrees _ ih =>
    rw [List.foldl_cons, readEvidence_eq hagrees, ih, List.any_cons, Bool.or_assoc, List.append_assoc]
    cases hc : Ownership.evidenceCandidate db invocation e with
    | none => rw [List.filterMap_cons_none hc]; rfl
    | some id => rw [List.filterMap_cons_some hc]; rfl

theorem foldl_add {α β : Type} {R : α → β → Prop} {xs : List α} {ys : List β} (h : List.Forall₂ R xs ys)
    {read : List String → β → List String} {candidate : α → Option String}
    (hr : ∀ x y ids, R x y → read ids.eraseDups y = (ids ++ (candidate x).toList).eraseDups) (ids : List String) :
    ys.foldl read ids.eraseDups = (ids ++ xs.filterMap candidate).eraseDups := by
  induction h generalizing ids with
  | nil => simp
  | @cons x y xs ys hxy _ ih =>
    rw [List.foldl_cons, hr x y ids hxy, ih, List.append_assoc]
    cases hc : candidate x with
    | none => rw [List.filterMap_cons_none hc]; rfl
    | some id => rw [List.filterMap_cons_some hc]; rfl

theorem gather_eq (hc : Clean db envelope.invocationId) (target : Coord) (h : Ownership.HistoricalEpoch) :
    gather db envelope target (nativeEpoch h) =
      { candidates := ((Ownership.turnEvidence db envelope.invocationId h.invocation.runtimeId target
          envelope.seq).filterMap (Ownership.evidenceCandidate db envelope.invocationId)
            ++ (Ownership.envelopeCandidate db envelope).toList).eraseDups
        foreign := Ownership.turnIsForeign db envelope target h } := by
  have he := foldl_readEvidence db (forall₂_turnEvidence hc target h) envelope.invocationId [] false
  rw [List.nil_append, Bool.false_or] at he
  change readEnvelope db envelope (List.foldl _ { candidates := List.eraseDups [], foreign := false } _) = _
  rw [he, readEnvelope, Ownership.turnIsForeign, Ownership.envelopeCandidate]
  change (if _ then Gathered.mk (if _ then add _ (inputCandidate db envelope.invocationId
    (Ownership.inputIdForEnvelope envelope)) else _) (_ || _) else _) = _
  rw [inputCandidate_eq]
  by_cases hs : (envelope.type == .turnStarted) = true
  · have ht : envelope.type = .turnStarted := by simpa using hs
    simp only [ht, add_eraseDups, Ownership.isForeign]
    rfl
  · by_cases hat : (envelope.type == .turnAttributed) = true
    · have ht : envelope.type = .turnAttributed := by simpa using hat
      simp only [ht, Ownership.isForeign]
      cases envelope.payload.stringField "ownership" == some "own" with
      | true =>
        simp only [add_eraseDups]
        rfl
      | false => simp
    · simp only [Bool.not_eq_true] at hs hat
      simp [hs, hat, Ownership.isForeign]

theorem gatherLaunch_eq (hc : Clean db envelope.invocationId) (target : Coord) (h : Ownership.HistoricalEpoch)
    (ids : List String) :
    gatherLaunch db envelope target (nativeEpoch h) ids.eraseDups =
      (ids ++ if Ownership.launchMarkerApplies envelope target
          (Ownership.storedFirstStart db envelope.invocationId h.invocation.runtimeId envelope.seq) then
        Ownership.launchCandidates db envelope.invocationId h else []).eraseDups := by
  rw [gatherLaunch, launchApplies_eq hc]
  split
  · refine foldl_add (R := fun x y => x = y ∧ y ∈ correlatedRuns db envelope.invocationId)
      (List.forall₂_same.mpr fun r hr => ⟨rfl, hr⟩) ?_ ids
    rintro r _ ids ⟨rfl, hr⟩
    obtain ⟨hm, hcr⟩ := List.mem_filter.mp hr
    have hi : (r.invocationId == some envelope.invocationId) = true := by
      simp only [Bool.and_eq_true] at hcr
      exact hcr.1
    rw [readLaunch, launchCarriedInvoke_eq hm, validCandidate_eq, ← owns_eq, hi, Bool.and_true]
    split
    · exact add_eraseDups ids _
    · simp
  · rw [List.append_nil]

theorem exactTurnOwner_eq (hc : Clean db envelope.invocationId) :
    exactTurnOwner db envelope = Ownership.resolveExactTurnOwner db envelope := by
  rw [exactTurnOwner, Ownership.resolveExactTurnOwner, coord_eq, epoch_eq]
  cases Ownership.coordinatesForEnvelope envelope with
  | none => rfl
  | some target =>
    cases Ownership.historicalEpoch db envelope.invocationId with
    | none => rfl
    | some h =>
      simp only [Option.map_some, bind_eq_bind, bind_some]
      rw [gather_eq hc, gatherLaunch_eq hc]
      change (if (_ || _) = true then none else _) = if _ then none else Ownership.onlyOne (_ ++ _ ++ _)
      rw [← onlyOne_eq]
      cases Ownership.turnIsForeign db envelope target h <;> rfl

end Evidence

section Brackets

variable {db : Db} {envelope : InvocationEventEnvelope}

def Bracketed (e : Ownership.ParsedEvent) (s : Stored) : Prop :=
  Agrees e s ∧ e.type.isTurnTerminal = (s.kind != .turnStarted)

theorem forall₂_turnBrackets (hc : Clean db envelope.invocationId) :
    List.Forall₂ Bracketed (Ownership.turnBrackets db envelope) (turnBrackets db envelope) := by
  refine forall₂_listed hc fun row e s hk hagr hkn => ⟨hagr, ?_⟩
  simp only [EventQuery.selects, Ownership.turnTerminalTypes, Bool.and_eq_true, List.contains_iff_mem] at hk
  have ht := hk.1.1.1
  rw [hagr.kind, hkn]
  simp only [List.mem_cons, List.not_mem_nil, or_false] at ht
  rcases ht with h | h | h | h <;> rw [h] <;> rfl

variable {events : List Ownership.ParsedEvent}

variable {e : Ownership.ParsedEvent} {stored : List Stored}

theorem closed_eq
    (h : List.Forall₂ Bracketed events stored) {s : Stored} (hagr : Bracketed e s) :
    Ownership.isClosedIn events e = closed stored s := by
  refine forall₂_any h fun terminal t ⟨ht, hty⟩ => ?_
  rw [hagr.1.seq, ht.seq, hty, ht.coord, hagr.1.coord]

theorem targetStarted_eq
    (h : List.Forall₂ Bracketed events stored) (target : Coord) :
    Ownership.startedSeq events target = targetStarted stored target := by
  refine forall₂_find_map h (fun e s ⟨hagr, _⟩ => ?_) fun e s ⟨hagr, _⟩ => hagr.seq
  rw [hagr.kind, hagr.coord]

theorem otherOpenTurn_eq (hc : Clean db envelope.invocationId) :
    otherOpenTurn db envelope = Ownership.hasOtherOpenTurn db envelope := by
  have hbra := forall₂_turnBrackets hc
  rw [otherOpenTurn, Ownership.hasOtherOpenTurn, coord_eq]
  cases Ownership.coordinatesForEnvelope envelope with
  | none => rfl
  | some target =>
    refine (forall₂_any hbra fun e s hbr => ?_).symm
    rw [closed_eq hbra hbr, targetStarted_eq hbra, hbr.1.kind, hbr.1.coord,
      hbr.1.seq]
    cases targetStarted (turnBrackets db envelope) target with
    | none => rfl
    | some seq =>
      have hle : decide (seq ≤ s.seq) = !decide (s.seq < seq) := by
        rw [Bool.eq_iff_iff, decide_eq_true_eq, Bool.not_eq_true', decide_eq_false_iff_not, Nat.not_lt]
      dsimp only
      rw [Option.any_some, hle]

theorem readSuperseded_eq
    (h : List.Forall₂ Bracketed events stored) {s : Stored} (hagr : Bracketed e s)
    (targetSeq : Nat) (ids : List String) :
    readSuperseded db envelope.invocationId stored targetSeq ids.eraseDups s =
      (ids ++ (if e.type == .turnStarted && decide (e.seq < targetSeq) && !Ownership.isClosedIn events e then
        Ownership.supersededRun db envelope.invocationId e else none).toList).eraseDups := by
  rw [readSuperseded, closed_eq h hagr, hagr.1.kind, hagr.1.seq]
  by_cases hop : (s.kind == .turnStarted && decide (s.seq < targetSeq) && !closed stored s) = true
  · rw [if_pos hop, if_neg, Ownership.supersededRun]
    · simp only [Bool.and_eq_true, beq_iff_eq] at hop
      rw [hagr.1.inputId (.inl hop.1.1)]
      cases s.inputId with
      | none => simp
      | some input =>
        simp only [bind_eq_bind, bind_some]
        rw [runForInput_eq]
        cases Ownership.runForInput db input with
        | none => simp
        | some r =>
          rw [bind_some]
          dsimp only
          split
          · simp
          · rw [validCandidate_eq, add_eraseDups]
    · simp only [Bool.and_eq_true, beq_iff_eq, decide_eq_true_eq, Bool.not_eq_true'] at hop
      simp [hop.1.1, hop.1.2, hop.2]
  · rw [if_neg hop, if_pos]
    · simp
    · simp only [Bool.and_eq_true, beq_iff_eq, decide_eq_true_eq, Bool.not_eq_true', Bool.or_eq_true, bne_iff_ne]
        at hop ⊢
      by_contra hn
      push Not at hn
      exact hop ⟨⟨hn.1.1, hn.1.2⟩, by simpa using hn.2⟩

theorem supersededRuns_eq (hc : Clean db envelope.invocationId) :
    supersededRuns db envelope = Ownership.runsSupersededByTerminal db envelope := by
  have hbr := forall₂_turnBrackets hc
  rw [supersededRuns, Ownership.runsSupersededByTerminal, coord_eq]
  cases Ownership.coordinatesForEnvelope envelope with
  | none => rfl
  | some target =>
    dsimp only
    rw [targetStarted_eq hbr]
    cases targetStarted (turnBrackets db envelope) target with
    | none => rfl
    | some targetSeq =>
      dsimp only
      rw [List.filterMap_filter]
      exact foldl_add hbr (fun e s ids hagr => readSuperseded_eq hbr hagr targetSeq ids) []

end Brackets

end HrcRuntime.NativeAttribution
