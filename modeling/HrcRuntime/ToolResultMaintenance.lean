import HrcRuntime.ToolResultRuns

namespace HrcRuntime.ToolResultRewrites

open Json Keyed Schedule Records Mapper EventRepository

variable [Host]

structure Covered (db : Database) (id : Nat) (s : State) : Prop where
  inv : Inv s
  grown : Grown db s.db
  pending : ∀ c, s.calls id = some c → ∀ first row, db.events.find first.key = some first →
    c.operation.isCandidate first = true → first.key.numbered = true → s.db.events.find first.key = some row →
    c.operation.isCandidate row = true → Pending c.visited c.phase first.key

section Covering

variable {db : Database} {id : Nat} {s : State}

omit [Host] in
theorem pending_open {key : Key} : Pending [] (.selecting .broker) key := by
  refine .before rfl ?_
  cases key with
  | broker => exact .inr ⟨rfl, rfl, fun _ hk => (by cases hk)⟩
  | lifecycle => exact .inl (by decide : 0 < 1)

theorem Covered.step (h : Covered db id s) (a : Action) : Covered db id (step a s) := by
  refine ⟨h.inv.step a, h.grown.trans (grown_step a h.inv), ?_⟩
  intro c hc first row hfst hcn hnum hr hnow
  -- A row that changed in this step had not changed before it, so it was a candidate then too.
  have hold : ∀ operation : Operation, operation.isCandidate first = true → operation.isCandidate row = true →
      ∃ old, s.db.events.find first.key = some old ∧ operation.isCandidate old = true := by
    intro operation hf hrw
    obtain ⟨old, hold, he⟩ := h.grown.rows _ first hfst
    refine ⟨old, hold, ?_⟩
    obtain ⟨new, hn, he'⟩ := (grown_step a h.inv).rows _ old hold
    cases hn.symm.trans hr
    rcases he' with rfl | ⟨hu, -⟩
    · exact hrw
    · rcases he with rfl | ⟨-, json, hset, rfl⟩
      · exact hf
      · rw [Row.json_setJson] at hu
        exact absurd hset hu
  rcases calls_step a s id with hs | ⟨-, operation, apply, batchSize, budget, -, hn⟩ | ⟨d, busy, hd, -, hn, -⟩
  · rw [hs] at hc
    obtain ⟨old, hsto, hol⟩ := hold c.operation hcn hnow
    exact h.pending c hc first old hfst hcn hnum hsto hol
  · rw [hn] at hc
    cases hc
    exact pending_open
  · rw [hn] at hc
    cases hc
    rw [budget_advance.2] at hcn hnow
    obtain ⟨old, hsto, hol⟩ := hold d.operation hcn hnow
    obtain ⟨hm, hk⟩ := find_mem hsto
    have hp := h.pending d hd first old hfst hcn hnum hsto hol
    have hnx := pending_advance busy (h.inv id d hd) hm hol
      (by rw [show old.key = first.key from hk]; exact hnum)
      (by rw [show old.key = first.key from hk]; exact hp)
    rw [show old.key = first.key from hk] at hnx
    exact hnx

end Covering

section Steps

variable {s : State} {id : Nat} {c : Call} {busy : Bool}

theorem preserved_advance (hs : Inv s) (hok : allowed s (.advance id busy) = true) :
    Preserved s.db (step (.advance id busy) s).db := by
  have hr : Preserved s.db s.db :=
    ⟨fun key row h => ⟨row, h, .refl _⟩, fun key row row' h h' hne => absurd (Option.some.inj (h'.symm.trans h)) hne⟩
  cases hcl : s.calls id with
  | none =>
    have hst : step (.advance id busy) s = s := by
      unfold step
      dsimp only
      rw [hcl]
      rfl
    rw [hst]
    exact hr
  | some c =>
    rw [(step_advance _ hcl).2]
    unfold allowed at hok
    dsimp only at hok
    rw [hcl, Option.all_some] at hok
    unfold State.advance
    cases hph : c.phase with
    | selecting ledger => exact hr
    | visiting row rest full => exact hr
    | stopped reason => exact hr
    | writing w attempt ledger rest full =>
      rw [hph] at hok
      dsimp only at hok ⊢
      cases busy with
      | true => exact hr
      | false =>
        cases hc : commit s.db w with
        | none => exact hr
        | some db =>
          rw [Bool.false_or, Bool.and_eq_true] at hok
          exact preserved_commit ((hs id c hcl).judged w attempt ledger rest full hph).1 hok.2 hc

omit [Host] in
theorem next_ne_failed {ledger : Ledger} {rest : List Row} {full : Bool} : Phase.next ledger rest full ≠ .stopped .failed := by
  cases rest with
  | cons row rest => exact fun h => by cases h
  | nil =>
    cases full with
    | true => exact fun h => by cases h
    | false => cases ledger <;> exact fun h => by cases h

theorem failed_step (a : Action) (hok : allowed s a = true) (h : ∀ id c, s.calls id = some c → c.phase ≠ .stopped .failed) :
    ∀ id c, (step a s).calls id = some c → c.phase ≠ .stopped .failed := by
  intro id c hcl
  rcases calls_step a s id with hs | ⟨-, operation, apply, batchSize, budget, -, hn⟩ | ⟨d, busy, hd, rfl, hn, -⟩
  · rw [hs] at hcl
    exact h id c hcl
  · rw [hn] at hcl
    cases hcl
    exact fun h => by cases h
  · rw [hn] at hcl
    cases hcl
    unfold allowed at hok
    dsimp only at hok
    rw [hd, Option.all_some] at hok
    unfold State.advance
    cases hph : d.phase with
    | stopped reason =>
      dsimp only
      exact h id d hd
    | selecting ledger =>
      unfold State.select
      dsimp only
      split
      · exact fun h => by cases h
      · split
        · have he : Phase.next ledger [] false ≠ .stopped .failed := next_ne_failed
          exact he
        · exact fun h => by cases h
    | visiting row rest full =>
      rw [hph] at hok
      unfold State.visit
      dsimp only at hok ⊢
      cases hv : d.operation.visit s.db row with
      | skip => exact next_ne_failed
      | fail =>
        rw [hv] at hok
        cases hok
      | write w =>
        dsimp only
        split
        · exact next_ne_failed
        · split <;> exact fun h => by cases h
    | writing w attempt ledger rest full =>
      rw [hph] at hok
      dsimp only at hok ⊢
      cases busy with
      | true =>
        rw [if_pos rfl]
        split <;> exact fun h => by cases h
      | false =>
        rw [Bool.false_or, Bool.and_eq_true] at hok
        obtain ⟨db, hc⟩ := Option.isSome_iff_exists.mp hok.1
        rw [hc]
        exact next_ne_failed

end Steps

theorem inv_start {db : Database} {clock : Nat} : Inv (start db clock) := fun _ _ h => by cases h

variable {m : Database × Call} {s : State}

theorem grown_run (hs : Inv s) (actions : List Action) : Grown s.db (run step actions s).db :=
  run_related (R := fun s t => Grown s.db t.db) (I := Inv) (A := fun _ _ => True) (fun s => .refl s.db)
    (fun _ _ _ h h' => h.trans h') (fun _ a hs _ => hs.step a) (fun _ a hs _ => grown_step a hs) hs meets_true

/-- Over every interleaving of spills and restubs with each other and the daemon's appends, where each large result names its
tool call or its runtime, and the blob a spill inserts is stored with the same content or not at all and then named by no
row, every step of a call leaves the readings, and what it rewrote stays as it is; a call visits a row at most once,
and by its end every candidate that was there before it; and it ends, unless rows are appended for ever and it has no
deadline. -/
theorem tool_results_preserved (actions : List Action) {db : Database} {clock : Nat}
    (hmeets : Meets step (fun s a => allowed s a = true) actions (start db clock)) {before after : List Action}
    (h : actions = before ++ after) :
    (∀ id busy rest, after = .advance id busy :: rest →
      Preserved (run step before (start db clock)).db (run step (before ++ [.advance id busy]) (start db clock)).db ∧
      ∀ key row row', (run step before (start db clock)).db.events.find key = some row →
        (run step (before ++ [.advance id busy]) (start db clock)).db.events.find key = some row' → row' ≠ row →
        (run step actions (start db clock)).db.events.find key = some row') ∧
    (∀ id c, (run step actions (start db clock)).calls id = some c → c.visited.Nodup ∧ c.phase ≠ .stopped .failed ∧
      ((run step before (start db clock)).calls id = none → c.phase = .stopped .complete → ∀ row row',
        (run step before (start db clock)).db.events.find row.key = some row → c.operation.isCandidate row = true →
        row.key.numbered = true → (run step actions (start db clock)).db.events.find row.key = some row' →
        c.operation.isCandidate row' = true → row.key ∈ c.visited)) ∧
    ∀ id,
      ((run step before (start db clock)).fuel id < after.countP (·.isAdvance id) →
        Meets step (fun s a => quiet id s a = true) after (run step before (start db clock)) →
        (run step actions (start db clock)).returned id) ∧
      ((run step before (start db clock)).lateFuel id < after.countP (·.isAdvance id) →
        Meets step (fun s a => late id s a = true) after (run step before (start db clock)) →
        (run step actions (start db clock)).returned id) := by
  have hi : Inv (run step before (start db clock)) :=
    run_invariant (A := fun _ _ => True) (fun s a hs _ => hs.step a) inv_start meets_true
  have he : Inv (run step actions (start db clock)) :=
    run_invariant (A := fun _ _ => True) (fun s a hs _ => hs.step a) inv_start meets_true
  have hrun : run step actions (start db clock) = run step after (run step before (start db clock)) := by
    rw [h, run_append]
  refine ⟨fun id busy rest haft => ?_, fun id c hcl => ⟨?_, ?_, ?_⟩, fun id => ⟨fun henu hqt => ?_, fun henu hlate => ?_⟩⟩
  · subst haft
    have hal : allowed (run step before (start db clock)) (.advance id busy) = true := by
      rw [h] at hmeets
      exact (meets_append.mp hmeets).2.1
    have hst : run step (before ++ [.advance id busy]) (start db clock)
        = step (.advance id busy) (run step before (start db clock)) := by
      rw [run_append]
      rfl
    rw [hst]
    refine ⟨preserved_advance hi hal, fun key row row' hrow hrow' hne => ?_⟩
    obtain ⟨new, hn, hev⟩ := (grown_step (.advance id busy) hi).rows key row hrow
    cases hn.symm.trans hrow'
    obtain ⟨-, json, hset, rfl⟩ := hev.resolve_left hne
    obtain ⟨last, hl, he'⟩ := (grown_run (hi.step _) rest).rows key _ hrow'
    rw [he'.eq_of_settled (by rw [Row.json_setJson]; exact hset)] at hl
    rw [hrun]
    exact hl
  · exact (he id c hcl).sorted.imp fun {a b} hlt heq => by
      rw [heq, show b.order b = .eq from Std.ReflCmp.compare_self] at hlt
      cases hlt
  · refine run_invariant (I := fun s => ∀ id c, s.calls id = some c → c.phase ≠ .stopped .failed)
      (fun s a hs hok => failed_step a hok hs) ?_ hmeets id c hcl
    intro _ _ h
    cases h
  · intro hnn hcm row row' hrow hcn hnum hrow' hnow
    have hcov : Covered (run step before (start db clock)).db id (run step after (run step before (start db clock))) := by
      refine run_invariant (A := fun _ _ => True) (fun s a hs _ => hs.step a) ⟨hi, .refl _, ?_⟩ meets_true
      intro c hc
      rw [hnn] at hc
      cases hc
    rw [hrun] at hcl hrow'
    have hp := hcov.pending c hcl row row' hrow hcn hnum hrow' hnow
    rw [hcm] at hp
    cases hp with
    | visited h => exact h
    | inHand h => cases h
    | before hled => cases hled
    | stopped h hr =>
      cases h
      exact absurd rfl hr
  · rw [hrun]
    exact quiet_ends hi hqt henu
  · rw [hrun]
    exact late_ends hi hlate henu

section Sizes

omit [Host]

theorem length_le_size (l : List Char) : l.length ≤ (String.ofList l).utf8ByteSize := by
  induction l with
  | nil => exact Nat.zero_le _
  | cons c l ih =>
    rw [String.ofList_cons, String.utf8ByteSize_append, String.utf8ByteSize_singleton, List.length_cons]
    have := c.utf8Size_pos
    omega

theorem length_le_escaped (l : List Char) : l.length ≤ (l.flatMap escapeChar).length := by
  induction l with
  | nil => exact Nat.zero_le _
  | cons c l ih =>
    have hp : 0 < (escapeChar c).length := by
      unfold escapeChar
      split
      · decide
      · repeat' split
        all_goals exact Nat.succ_pos _
    rw [List.flatMap_cons, List.length_append, List.length_cons]
    omega

theorem length_le_quote (s : String) : s.toList.length ≤ (quote s).utf8ByteSize := by
  refine le_trans ?_ (length_le_size _)
  have := length_le_escaped s.toList
  rw [List.length_append, List.length_cons]
  omega

end Sizes

omit [Host] in
theorem put_put {id : Nat} {m' : Database × Call} : (s.put id m).put id m' = s.put id m' := by
  unfold State.put
  refine congrArg (State.mk m'.1 s.clock) (funext fun i => ?_)
  dsimp only
  split <;> rfl

theorem step_put {id : Nat} {busy : Bool} :
    step (.advance id busy) (s.put id m) = s.put id ((s.put id m).advance m.2 busy) := by
  have hc : (s.put id m).calls id = some m.2 := if_pos rfl
  unfold step
  dsimp only
  rw [hc]
  exact put_put

namespace Sample

def large (c : Char) : String := String.ofList (List.replicate 40000 c)

omit [Host] in
theorem large_of_length {text : String} (h : toolResultSpillThresholdBytes < text.toList.length) :
    toolResultSpillThresholdBytes < (Json.str text).byteLength := Nat.lt_of_lt_of_le h (length_le_quote text)

omit [Host] in
theorem large_result (c : Char) : toolResultSpillThresholdBytes < (Json.str (large c)).byteLength := by
  apply large_of_length
  unfold large
  simp only [String.toList_ofList, List.length_replicate]
  decide

variable (text : String)

def payload : Fields := .cons "toolCallId" (.str "t") (.cons "result" (.str text) .nil)

def row : Row := .broker "i" 0 .toolCallCompleted "r" (.of (.obj (payload text)))

def blob : ToolResultBlobRecord :=
  { blobId := "tc:r:t", runtimeId := "r", kind := .brokerRaw, bytes := (Json.str text).byteLength, resultJson := .str text }

def reused : Store ToolResultBlobRecord (·.blobId) := Store.empty.add (blob text)

def database (blobs : Store ToolResultBlobRecord (·.blobId)) : Database := { events := Store.empty.add (row text), blobs }

def spilling : List Action :=
  [.begin 0 .spillToolResults true ⟨2, by decide⟩ ⟨none, 0⟩, .advance 0 false, .advance 0 false]

def opened : Call := .open .spillToolResults true ⟨2, by decide⟩ ⟨none, 0⟩

def write : Write := .spillBroker (.broker "i" 0) "r" (payload text) (.str text)

def writing : Call :=
  { opened with last := some (.broker "i" 0), visited := [.broker "i" 0], phase := .writing (write text) 0 .broker [] false }

section Steps

variable {text : String} {blobs : Store ToolResultBlobRecord (·.blobId)} (hlarge : toolResultSpillThresholdBytes < (Json.str text).byteLength)

include hlarge

omit [Host] in
theorem large_row : toolResultSpillThresholdBytes < (row text).json.byteLength := by
  unfold Json.byteLength at hlarge
  change _ < (Json.stringify (.obj (payload text))).utf8ByteSize
  simp only [payload, Json.stringify, Fields.texts, String.intercalate_cons_cons, String.intercalate_singleton,
    String.utf8ByteSize_append]
  simp only [Json.stringify] at hlarge
  omega

omit [Host] in
theorem candidates : (database text blobs).candidates .spillToolResults .broker none = [row text] := by
  have hc : Operation.spillToolResults.isCandidate (row text) = true := by
    unfold Operation.isCandidate
    rw [decide_eq_true (large_row hlarge)]
    rfl
  have hr : (database text blobs).events.rows = [row text] := rfl
  unfold Database.candidates
  rw [hr, List.filter_cons_of_pos (by rw [hc]; rfl)]
  rfl

theorem selects {s : State} (hdb : s.db = database text blobs) :
    (s.advance opened false) = (database text blobs, { opened with phase := .visiting (row text) [] false }) := by
  have hs : s.select opened .broker = .visiting (row text) [] false := by
    unfold State.select
    rw [hdb, show opened.operation = .spillToolResults from rfl, show opened.last = none from rfl, candidates hlarge]
    rfl
  change (s.db, { opened with phase := s.select opened .broker }) = _
  rw [hs, hdb]

theorem spills (db : Database) : Operation.spillToolResults.visit db (row text) = .write (write text) := by
  have hr : ((payload text).lookup "result").filter (fun result => toolResultExceedsSpillThreshold (some result))
      = some (.str text) := by
    rw [show (payload text).lookup "result" = some (.str text) from rfl, Option.filter_some]
    exact if_pos (decide_eq_true hlarge)
  change spillRow db (row text) = _
  unfold spillRow
  rw [show (row text).json.value = .obj (payload text) from rfl]
  dsimp only
  rw [hr]
  rfl

theorem visits {s : State} (hdb : s.db = database text blobs) :
    s.advance { opened with phase := .visiting (row text) [] false } false = (database text blobs, writing text) := by
  have hv : s.visit { opened with phase := .visiting (row text) [] false } (row text) [] false
      = .writing (write text) 0 .broker [] false := by
    unfold State.visit
    dsimp only
    rw [show opened.operation = .spillToolResults from rfl, spills hlarge]
    rfl
  change (s.db, { opened with
    last := some (.broker "i" 0), visited := [.broker "i" 0]
    phase := s.visit { opened with phase := .visiting (row text) [] false } (row text) [] false }) = _
  rw [hv, hdb]
  rfl

omit hlarge [Host] in
def standing (text : String) (blobs : Store ToolResultBlobRecord (·.blobId)) (c : Call) : State := (start (database text blobs) 0).put 0 (database text blobs, c)

omit hlarge in
theorem begins : step (.begin 0 .spillToolResults true ⟨2, by decide⟩ ⟨none, 0⟩) (start (database text blobs) 0)
    = standing text blobs opened := rfl

theorem at_visiting : step (.advance 0 false) (standing text blobs opened)
    = standing text blobs { opened with phase := .visiting (row text) [] false } := by
  unfold standing
  rw [step_put, selects hlarge rfl]

theorem at_writing : step (.advance 0 false) (standing text blobs { opened with phase := .visiting (row text) [] false })
    = standing text blobs (writing text) := by
  unfold standing
  rw [step_put, visits hlarge rfl]

theorem run_spilling : run step spilling (start (database text blobs) 0) = standing text blobs (writing text) := by
  change step (.advance 0 false) (step (.advance 0 false) (step (.begin 0 .spillToolResults true ⟨2, by decide⟩ ⟨none, 0⟩)
    (start (database text blobs) 0))) = _
  rw [begins, at_visiting hlarge, at_writing hlarge]

theorem meets_spilling (hw : insertAllowed (database text blobs) (.broker "i" 0) (blob text) = true) :
    Meets step (fun s a => allowed s a = true) (spilling ++ [.advance 0 false]) (start (database text blobs) 0) := by
  have hv : allowed (standing text blobs { opened with phase := .visiting (row text) [] false }) (.advance 0 false) = true := by
    unfold allowed
    dsimp only
    rw [show (standing text blobs { opened with phase := .visiting (row text) [] false }).calls 0
      = some { opened with phase := .visiting (row text) [] false } from rfl, Option.all_some]
    dsimp only
    rw [show opened.operation = .spillToolResults from rfl, spills hlarge]
    rfl
  have hwr : allowed (standing text blobs (writing text)) (.advance 0 false) = true := by
    unfold allowed
    dsimp only
    rw [show (standing text blobs (writing text)).calls 0 = some (writing text) from rfl, Option.all_some]
    exact Bool.and_eq_true_iff.mpr ⟨rfl, hw⟩
  have hs : allowed (standing text blobs opened) (.advance 0 false) = true := rfl
  have hsta : Meets step (fun s a => allowed s a = true) [.advance 0 false, .advance 0 false] (standing text blobs opened) := by
    refine ⟨hs, ?_⟩
    rw [at_visiting hlarge]
    exact ⟨hv, trivial⟩
  refine meets_append.mpr ⟨⟨rfl, ?_⟩, ?_⟩
  · rw [begins]
    exact hsta
  · rw [run_spilling hlarge]
    exact ⟨hwr, trivial⟩

theorem not_preserved {other : String} (hne : other ≠ text) :
    ¬ Preserved (run step spilling (start (database text (reused other)) 0)).db
      (run step (spilling ++ [.advance 0 false]) (start (database text (reused other)) 0)).db := by
  rw [run_append, run_spilling hlarge]
  intro h
  obtain ⟨row', hrow', hs⟩ := h.readings (.broker "i" 0) (row text) rfl
  obtain ⟨stub, spill, hr, hid, hn⟩ : ∃ stub spill, readToolResultSpillDescriptor (some stub) = some spill ∧
      spill.blobId = "tc:r:t" ∧ row' = (row text).setJson (withResult (payload text) stub) :=
    ⟨_, _, (stub_created (.str text) { blobId := "tc:r:t", bytes := (Json.str text).byteLength, kind := .brokerRaw }).1, rfl,
      (Option.some.inj hrow').symm⟩
  subst hn
  have hrd : Row.reading (reused other) ((row text).setJson (withResult (payload text) stub))
      = .obj (((payload text).set "result" stub).set "result" (.str other)) := by
    have hbl : (reused other).find spill.blobId = some (blob other) := by
      rw [hid]
      rfl
    unfold Row.reading
    rw [Row.json_setJson, Row.view_setJson]
    exact hydrated_stub (lookup_set "result" stub (payload text)) hr hbl rfl
  have hbef : (row text).reading (reused other) = .obj (payload text) := rfl
  change Same (Row.reading (reused other) _) ((row text).reading (reused other)) at hs
  rw [hrd, hbef] at hs
  exact hne (hs.member (lookup_set "result" (.str other) _) rfl).str

end Steps

end Sample

omit [Host] in
/-- A large result is spilled to a blob of its own. -/
theorem tool_results_preserved_spill :
    letI := steadyHost
    Preserved (run step Sample.spilling (start (Sample.database (Sample.large 'a') .empty) 0)).db
      (run step (Sample.spilling ++ [.advance 0 false]) (start (Sample.database (Sample.large 'a') .empty) 0)).db := by
  let _ := steadyHost
  have hok : ∀ text, insertAllowed (Sample.database text .empty) (.broker "i" 0) (Sample.blob text) = true := fun _ => rfl
  exact ((tool_results_preserved (Sample.spilling ++ [.advance 0 false])
    (Sample.meets_spilling (Sample.large_result 'a') (hok _)) rfl).1 0 false [] rfl).1

omit [Host] in
/-- A large result whose tool call is one the runtime has used before reads as the earlier result once it is spilled. -/
theorem tool_results_fail :
    letI := steadyHost
    ¬ Preserved (run step Sample.spilling
        (start (Sample.database (Sample.large 'a') (Sample.reused (Sample.large 'b'))) 0)).db
      (run step (Sample.spilling ++ [.advance 0 false])
        (start (Sample.database (Sample.large 'a') (Sample.reused (Sample.large 'b'))) 0)).db := by
  let _ := steadyHost
  refine Sample.not_preserved (Sample.large_result 'a') fun h => ?_
  unfold Sample.large at h
  have hh := congrArg List.head? (String.ofList_injective h)
  rw [List.head?_replicate, List.head?_replicate] at hh
  revert hh
  decide

end HrcRuntime.ToolResultRewrites
