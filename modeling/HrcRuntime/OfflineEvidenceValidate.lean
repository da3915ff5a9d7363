import HrcRuntime.Wire
import HrcRuntime.Records

namespace HrcRuntime.OfflineEvidenceOutcomes

def offlineEvidenceSchema : String := "harness-broker.offline-evidence/v1"

def offlineEvidenceCapability : String := offlineEvidenceSchema

def retainedEvidenceOutcomeSchema : String := "hrc.offline-evidence/v1"

def offlineEvidenceSliceMaxPages : Nat := 64

def offlineEvidenceSliceMaxBytes : Nat := 64 * 1024 * 1024

def offlineEvidenceSliceMaxMs : Int := 60000

def offlineEvidenceRetryBudget : Nat := 5

inductive OutcomeClass where
  | complete | disposed | unbound | paused | retryable | incomplete
  deriving DecidableEq

def OutcomeClass.text : OutcomeClass → String
  | complete => "complete"
  | disposed => "disposed"
  | unbound => "unbound"
  | paused => "paused"
  | retryable => "retryable"
  | incomplete => "incomplete"

def incompleteOutcomes : List String :=
  ["recovered_torn_tail", "ledger_corrupt", "ledger_conflicting_duplicate", "replay_below_floor", "release_unavailable",
    "reader_release_mismatch", "reader_contract_violation", "invalid_request", "offline_record_too_large",
    "offline_schema_unsupported", "offline_reader_unsupported", "ledger_index_unavailable", "ledger_path_unknown",
    "projection_halted"]

def retryableOutcomes : List String :=
  ["reader_failed", "reader_timeout", "ledger_snapshot_unstable", "ledger_unavailable", "in_progress",
    "offline_read_attach_in_flight"]

def budgetFreeOutcomes : List String := ["in_progress", "offline_read_attach_in_flight"]

def classifyRetainedOutcome (outcome : String) : OutcomeClass :=
  if outcome == "recovered" then .complete
  else if outcome == "operator_disposed" then .disposed
  else if outcome == "offline_reader_unsupported_unbound_release" then .unbound
  else if outcome == "paused_needs_disposition" then .paused
  else if retryableOutcomes.contains outcome then .retryable
  else if incompleteOutcomes.contains outcome then .incomplete
  else .incomplete

def outcomeHoldsEvidence : Option String → Bool
  | none => true
  | some outcome => match classifyRetainedOutcome outcome with
    | .incomplete | .retryable | .paused => true
    | _ => false

end HrcRuntime.OfflineEvidenceOutcomes

namespace HrcRuntime.OfflineEvidenceValidate

open Records Wire OfflineEvidenceOutcomes

structure ReleaseIdentity where
  releaseId : String
  sourceCommit : String
  builtAt : String

def ReleaseIdentity.value (r : ReleaseIdentity) : Value :=
  .obj (.ofList [("releaseId", .str r.releaseId), ("sourceCommit", .str r.sourceCommit), ("builtAt", .str r.builtAt)])

structure Refused where
  outcome : String
  detail : List (String × Value)

def contractViolation (why : String) (extra : List (String × Value)) : Refused :=
  { outcome := "reader_contract_violation", detail := ("violation", .str why) :: extra }

def ofNat (n : Nat) : Value := .num (.int n)

/-- `if (!ok) return refused`. -/
def demand (ok : Bool) (refused : Refused) : Except Refused Unit := if ok then .ok () else .error refused

/-- `if (problem !== undefined) return refused(problem)`. -/
def demandNone (problem : Option String) (refused : String → Refused) : Except Refused Unit :=
  match problem with
  | none => .ok ()
  | some problem => .error (refused problem)

/-- `const value = ..; if (value === undefined) return refused`. -/
def demandSome {α : Type} (value : Option α) (refused : Refused) : Except Refused α :=
  match value with
  | some value => .ok value
  | none => .error refused

section Demands

variable {α β : Type} {refused : Refused} {b : β}

theorem bind_eq_ok {m : Except Refused α} {f : α → Except Refused β} :
    (m >>= f) = .ok b ↔ ∃ a, m = .ok a ∧ f a = .ok b := by
  cases m with
  | error e => exact ⟨nofun, nofun⟩
  | ok a => exact ⟨fun h => ⟨a, rfl, h⟩, fun ⟨_, ha, h⟩ => Except.ok.inj ha ▸ h⟩

variable {f : Unit → Except Refused β}

theorem demand_bind_eq_ok {ok : Bool} :
    (demand ok refused >>= f) = .ok b ↔ ok = true ∧ f () = .ok b := by
  cases ok with
  | false => exact ⟨nofun, nofun⟩
  | true => exact ⟨fun h => ⟨rfl, h⟩, fun h => h.2⟩

theorem demandNone_bind_eq_ok {problem : Option String} {refused : String → Refused} :
    (demandNone problem refused >>= f) = .ok b ↔ problem = none ∧ f () = .ok b := by
  cases problem with
  | some problem => exact ⟨nofun, nofun⟩
  | none => exact ⟨fun h => ⟨rfl, h⟩, fun h => h.2⟩

theorem demandSome_bind_eq_ok {value : Option α} {f : α → Except Refused β} :
    (demandSome value refused >>= f) = .ok b ↔ ∃ a, value = some a ∧ f a = .ok b := by
  cases value with
  | none => exact ⟨nofun, nofun⟩
  | some a => exact ⟨fun h => ⟨a, rfl, h⟩, fun ⟨_, ha, h⟩ => Option.some.inj ha ▸ h⟩

end Demands

/-- Typed error codes the producer emits on the `eventsSince` path. -/
def eventsSinceErrorCodes : List String :=
  ["invalid_request", "offline_schema_unsupported", "ledger_unavailable", "ledger_index_unavailable", "ledger_corrupt",
    "ledger_conflicting_duplicate", "ledger_snapshot_unstable", "offline_record_too_large", "replay_below_floor"]

def isStringMember (members : Members) (key s : String) : Bool := (members.lookup key).any (·.isString s)

def sameRelease (value : Option Value) (expected : ReleaseIdentity) : Bool :=
  (value.bind Value.record?).any fun record => isStringMember record "releaseId" expected.releaseId
    && isStringMember record "sourceCommit" expected.sourceCommit && isStringMember record "builtAt" expected.builtAt

def closedMembers (members : Members) (required optionals : List String) : Option String :=
  match required.find? fun key => (members.lookup key).isNone with
  | some key => some ("missing:" ++ key)
  | none => (members.keys.find? fun key => !required.contains key && !optionals.contains key).map ("unknown:" ++ ·)

def fileIdentityViolation (value : Option Value) : Option String :=
  match value.bind Value.record? with
  | none => some "not_object"
  | some members => (closedMembers members ["ino", "size", "mtimeMs"] []).or
      ((["ino", "size", "mtimeMs"].find? fun key => !(members.lookup key).any Value.isFiniteNumber).map
        (· ++ "_not_number"))

def snapshotViolation (value : Option Value) : Option String :=
  match value.bind Value.record? with
  | none => some "snapshot:not_object"
  | some members =>
    ((closedMembers members ["ledger", "index"] []).map ("snapshot:" ++ ·)).or
      (((fileIdentityViolation (members.lookup "ledger")).map ("snapshot.ledger:" ++ ·)).or
        (match (members.lookup "index").bind Value.record? with
          | none => some "snapshot.index:not_object"
          | some index =>
            ((closedMembers index ["db"] ["wal"]).map ("snapshot.index:" ++ ·)).or
              (((fileIdentityViolation (index.lookup "db")).map ("snapshot.index.db:" ++ ·)).or
                ((index.lookup "wal").bind fun wal =>
                  (fileIdentityViolation (some wal)).map ("snapshot.index.wal:" ++ ·)))))

def lastIntactViolation (value : Value) : Option String :=
  match value.record? with
  | none => some "integrity.lastIntact:not_object"
  | some members =>
    ((closedMembers members ["invocationId", "seq"] []).map ("integrity.lastIntact:" ++ ·)).or
      (match members.lookup "invocationId" with
        | some (.str invocationId) =>
          if invocationId == "" then some "integrity.lastIntact.invocationId"
          else match safeSeq (members.lookup "seq") with
            | some (_ + 1) => none
            | _ => some "integrity.lastIntact.seq"
        | _ => some "integrity.lastIntact.invocationId")

def integrityViolation (value : Option Value) : Option String :=
  match value.bind Value.record? with
  | none => some "integrity:not_object"
  | some members =>
    if isStringMember members "status" "intact" then
      ((closedMembers members ["status", "byteLength"] []).map ("integrity:" ++ ·)).or
        (if (safeSeq (members.lookup "byteLength")).isNone then some "integrity.byteLength" else none)
    else if isStringMember members "status" "torn_tail" then
      ((closedMembers members ["status", "byteLength", "lastIntactByteOffset", "trailingBytes"] ["lastIntact"]).map
        ("integrity:" ++ ·)).or
        (((["byteLength", "lastIntactByteOffset", "trailingBytes"].find? fun key =>
            (safeSeq (members.lookup key)).isNone).map ("integrity." ++ ·)).or
          ((members.lookup "lastIntact").bind lastIntactViolation))
    else some "integrity.status"

structure ValidPage where
  events : List InvocationEventEnvelope
  currentSeq : Nat
  retentionFloorSeq : Nat
  hasMore : Bool
  nextAfterSeq : Nat
  snapshot : Value
  integrity : Value

/-- The `result` of a page: its events and the two bounds of the ledger. -/
structure PageResult where
  events : Values
  currentSeq : Nat
  retentionFloorSeq : Nat
  nextAfterSeq : Nat
  hasMore : Bool

def asBool : Value → Option Bool
  | .bool b => some b
  | _ => none

def asArray : Value → Option Values
  | .arr items => some items
  | _ => none

def validateShape (response : Members) (expected : ReleaseIdentity) : Except Refused PageResult := do
  let violation := contractViolation
  demand (isStringMember response "schema" offlineEvidenceSchema) (violation "schema" [])
  demand (sameRelease (response.lookup "release") expected)
    { outcome := "reader_release_mismatch"
      detail := [("expected", expected.value), ("embedded", (response.lookup "release").getD .null)] }
  demand ((response.lookup "ok").bind asBool == some true)
    (violation "ok_not_true_on_success_exit" [("ok", (response.lookup "ok").getD .null)])
  demand (isStringMember response "operation" "eventsSince")
    (violation "operation" [("operation", (response.lookup "operation").getD .null)])
  demandNone (closedMembers response ["schema", "ok", "operation", "release", "result", "hasMore", "nextAfterSeq",
    "snapshot", "integrity"] []) fun members => violation "response_members" [("members", .str members)]
  demandNone ((((response.lookup "release").bind Value.record?).bind fun release =>
    closedMembers release ["releaseId", "sourceCommit", "builtAt"] [])) fun members =>
      violation "release_members" [("members", .str members)]
  let result ← demandSome ((response.lookup "result").bind Value.record?) (violation "result" [])
  demandNone (closedMembers result ["events", "currentSeq", "retentionFloorSeq"] ["liveStreamAttached"]) fun members =>
    violation "result_members" [("members", .str members)]
  demand ((result.lookup "liveStreamAttached").all fun attached => (asBool attached).isSome)
    (violation "result.liveStreamAttached" [])
  let currentSeq ← demandSome (safeSeq (result.lookup "currentSeq")) (violation "page_fields" [])
  let retentionFloorSeq ← demandSome (safeSeq (result.lookup "retentionFloorSeq")) (violation "page_fields" [])
  let nextAfterSeq ← demandSome (safeSeq (response.lookup "nextAfterSeq")) (violation "page_fields" [])
  let hasMore ← demandSome ((response.lookup "hasMore").bind asBool) (violation "page_fields" [])
  let events ← demandSome ((result.lookup "events").bind asArray) (violation "events" [])
  demandNone (snapshotViolation (response.lookup "snapshot")) fun problem =>
    violation "snapshot" [("problem", .str problem)]
  demandNone (integrityViolation (response.lookup "integrity")) fun problem =>
    violation "integrity" [("problem", .str problem)]
  pure { events, currentSeq, retentionFloorSeq, nextAfterSeq, hasMore }

section Protocol

-- the protocol package's envelope check: the envelope, or the message it throws
variable (validateEventEnvelope : Value → Except String InvocationEventEnvelope)

/-- `try { validateEventEnvelope(raw) } catch`. -/
def readEnvelope (raw : Value) (expectedSeq : Nat) : Except Refused InvocationEventEnvelope :=
  match validateEventEnvelope raw with
  | .ok envelope => .ok envelope
  | .error error =>
    .error (contractViolation "invalid_envelope" [("seq", ofNat expectedSeq), ("error", .str error)])

def validateEvents (invocationId : String) (currentSeq : Nat) :
    List Value → Nat → Except Refused (List InvocationEventEnvelope)
  | [], _ => .ok []
  | raw :: raws, expectedSeq => do
      let envelope ← readEnvelope validateEventEnvelope raw expectedSeq
      demand (envelope.invocationId == invocationId)
        (contractViolation "foreign_invocation" [("seq", ofNat envelope.seq)])
      demand (envelope.seq == expectedSeq)
        (contractViolation "non_contiguous_seq" [("expectedSeq", ofNat expectedSeq), ("seq", ofNat envelope.seq)])
      demand (envelope.seq ≤ currentSeq)
        (contractViolation "event_beyond_current_seq" [("seq", ofNat envelope.seq), ("currentSeq", ofNat currentSeq)])
      let validated ← validateEvents invocationId currentSeq raws (expectedSeq + 1)
      pure (envelope :: validated)

def validateOfflineEvidencePage (response : Members) (expected : ReleaseIdentity) (invocationId : String)
    (afterSeq : Nat) : Except Refused ValidPage := do
  let violation := contractViolation
  let page ← validateShape response expected
  demand (page.retentionFloorSeq ≤ page.currentSeq) (violation "current_seq_below_floor"
    [("currentSeq", ofNat page.currentSeq), ("retentionFloorSeq", ofNat page.retentionFloorSeq)])
  demand (afterSeq ≤ page.currentSeq) (violation "cursor_above_current_seq" [("requestedAfterSeq", ofNat afterSeq),
    ("currentSeq", ofNat page.currentSeq), ("nextAfterSeq", ofNat page.nextAfterSeq)])
  demand (page.retentionFloorSeq ≤ afterSeq) (violation "page_below_floor"
    [("afterSeq", ofNat afterSeq), ("retentionFloorSeq", ofNat page.retentionFloorSeq)])
  let validated ← validateEvents validateEventEnvelope invocationId page.currentSeq page.events.toList (afterSeq + 1)
  demand (!(page.hasMore && (validated.isEmpty || page.nextAfterSeq ≤ afterSeq || page.currentSeq ≤ page.nextAfterSeq)))
    (violation "non_progressing_page" [("afterSeq", ofNat afterSeq), ("nextAfterSeq", ofNat page.nextAfterSeq),
      ("currentSeq", ofNat page.currentSeq), ("events", ofNat validated.length)])
  let lastSeq := (validated.getLast?.map (·.seq)).getD afterSeq
  demand (page.nextAfterSeq == lastSeq) (violation "next_after_seq_mismatch"
    [("afterSeq", ofNat afterSeq), ("nextAfterSeq", ofNat page.nextAfterSeq), ("lastSeq", ofNat lastSeq)])
  demand (page.hasMore || page.nextAfterSeq == page.currentSeq) (violation "final_page_cursor_mismatch"
    [("afterSeq", ofNat afterSeq), ("nextAfterSeq", ofNat page.nextAfterSeq), ("currentSeq", ofNat page.currentSeq)])
  pure
    { events := validated, currentSeq := page.currentSeq, retentionFloorSeq := page.retentionFloorSeq
      hasMore := page.hasMore, nextAfterSeq := page.nextAfterSeq
      snapshot := (response.lookup "snapshot").getD .null, integrity := (response.lookup "integrity").getD .null }

section Exact

variable {validateEventEnvelope : Value → Except String InvocationEventEnvelope} {invocationId : String}

structure Exact (invocationId : String) (afterSeq : Nat) (page : ValidPage) : Prop where
  seqs : page.events.map (·.seq) = List.range' (afterSeq + 1) (page.nextAfterSeq - afterSeq)
  invocation : ∀ envelope ∈ page.events, envelope.invocationId = invocationId
  advances : afterSeq ≤ page.nextAfterSeq
  bounded : page.nextAfterSeq ≤ page.currentSeq
  safe : page.currentSeq ≤ maxSafeInteger.toNat
  hasMore : page.hasMore = true ↔ page.nextAfterSeq < page.currentSeq
  progress : page.hasMore = true → afterSeq < page.nextAfterSeq

theorem safeSeq_le {value : Option Value} {n : Nat} (h : safeSeq value = some n) : n ≤ maxSafeInteger.toNat := by
  unfold safeSeq at h
  split at h
  · split at h
    · cases h
      omega
    · cases h
  · cases h

variable {events : List InvocationEventEnvelope} {expected : ReleaseIdentity} {response : Members}

theorem validateShape_safe {page : PageResult}
    (h : validateShape response expected = .ok page) : page.currentSeq ≤ maxSafeInteger.toNat := by
  unfold validateShape at h
  dsimp only at h
  obtain ⟨-, h⟩ := demand_bind_eq_ok.mp h
  obtain ⟨-, h⟩ := demand_bind_eq_ok.mp h
  obtain ⟨-, h⟩ := demand_bind_eq_ok.mp h
  obtain ⟨-, h⟩ := demand_bind_eq_ok.mp h
  obtain ⟨-, h⟩ := demandNone_bind_eq_ok.mp h
  obtain ⟨-, h⟩ := demandNone_bind_eq_ok.mp h
  obtain ⟨result, -, h⟩ := demandSome_bind_eq_ok.mp h
  obtain ⟨-, h⟩ := demandNone_bind_eq_ok.mp h
  obtain ⟨-, h⟩ := demand_bind_eq_ok.mp h
  obtain ⟨currentSeq, hc, h⟩ := demandSome_bind_eq_ok.mp h
  obtain ⟨_, -, h⟩ := demandSome_bind_eq_ok.mp h
  obtain ⟨_, -, h⟩ := demandSome_bind_eq_ok.mp h
  obtain ⟨_, -, h⟩ := demandSome_bind_eq_ok.mp h
  obtain ⟨_, -, h⟩ := demandSome_bind_eq_ok.mp h
  obtain ⟨-, h⟩ := demandNone_bind_eq_ok.mp h
  obtain ⟨-, h⟩ := demandNone_bind_eq_ok.mp h
  obtain rfl := Except.ok.inj h
  exact safeSeq_le hc

theorem validateEvents_exact {currentSeq : Nat} {raws : List Value} {first : Nat}

    (h : validateEvents validateEventEnvelope invocationId currentSeq raws first = .ok events) :
    events.map (·.seq) = List.range' first events.length ∧
      ∀ envelope ∈ events, envelope.invocationId = invocationId ∧ envelope.seq ≤ currentSeq := by
  induction raws generalizing first events with
  | nil =>
    obtain rfl := Except.ok.inj h
    exact ⟨rfl, fun _ he => absurd he List.not_mem_nil⟩
  | cons raw raws ih =>
    rw [validateEvents] at h
    obtain ⟨envelope, -, h⟩ := bind_eq_ok.mp h
    obtain ⟨hi, h⟩ := demand_bind_eq_ok.mp h
    obtain ⟨hs, h⟩ := demand_bind_eq_ok.mp h
    obtain ⟨hbd, h⟩ := demand_bind_eq_ok.mp h
    obtain ⟨rest, hr, h⟩ := bind_eq_ok.mp h
    obtain rfl := Except.ok.inj h
    obtain ⟨hsq, hrw⟩ := ih hr
    refine ⟨?_, List.forall_mem_cons.mpr ⟨⟨by simpa using hi, by simpa using hbd⟩, hrw⟩⟩
    rw [List.map_cons, hsq, List.length_cons, List.range'_succ, show envelope.seq = first by simpa using hs]

theorem lastSeq_eq {afterSeq : Nat}
    (h : events.map (·.seq) = List.range' (afterSeq + 1) events.length) :
    (events.getLast?.map (·.seq)).getD afterSeq = afterSeq + events.length := by
  rw [← List.getLast?_map, h, List.getLast?_range']
  split
  · rw [Option.getD_none]
    omega
  · rw [Option.getD_some]
    omega

theorem validateOfflineEvidencePage_exact {afterSeq : Nat}
    {page : ValidPage}
    (h : validateOfflineEvidencePage validateEventEnvelope response expected invocationId afterSeq = .ok page) :
    Exact invocationId afterSeq page := by
  unfold validateOfflineEvidencePage at h
  obtain ⟨shape, hsh, h⟩ := bind_eq_ok.mp h
  obtain ⟨-, h⟩ := demand_bind_eq_ok.mp h
  obtain ⟨-, h⟩ := demand_bind_eq_ok.mp h
  obtain ⟨-, h⟩ := demand_bind_eq_ok.mp h
  obtain ⟨events, hevs, h⟩ := bind_eq_ok.mp h
  obtain ⟨hp, h⟩ := demand_bind_eq_ok.mp h
  obtain ⟨hn, h⟩ := demand_bind_eq_ok.mp h
  obtain ⟨hf, h⟩ := demand_bind_eq_ok.mp h
  obtain rfl := Except.ok.inj h
  obtain ⟨hs, hr⟩ := validateEvents_exact hevs
  have hl : shape.nextAfterSeq = afterSeq + events.length := by
    rw [← lastSeq_eq hs]
    simpa using hn
  have hadv : afterSeq ≤ shape.nextAfterSeq := hl ▸ Nat.le_add_right _ _
  have hbnd : shape.nextAfterSeq ≤ shape.currentSeq := by
    cases hm : shape.hasMore with
    | true =>
      simp [hm] at hp
      omega
    | false =>
      simp [hm] at hf
      omega
  refine ⟨?_, fun envelope he => (hr envelope he).1, hadv, hbnd, validateShape_safe hsh, ?_, ?_⟩
  · dsimp only
    rw [hs, hl, Nat.add_sub_cancel_left]
  · cases hm : shape.hasMore with
    | true =>
      simp [hm] at hp
      exact iff_of_true rfl hp.2
    | false =>
      simp [hm] at hf
      exact iff_of_false nofun (by dsimp only; omega)
  · intro hm
    dsimp only at hm ⊢
    simp [hm] at hp
    omega

end Exact

end Protocol

def validateOfflineEvidenceTypedError (response : Members) (expected : ReleaseIdentity) :
    Except Refused (String × Value) := do
  let violation := contractViolation
  demand (isStringMember response "schema" offlineEvidenceSchema) (violation "schema" [])
  demand ((response.lookup "release").all fun release => sameRelease (some release) expected)
    { outcome := "reader_release_mismatch"
      detail := [("expected", expected.value), ("embedded", (response.lookup "release").getD .null)] }
  demand ((response.lookup "ok").bind asBool == some false)
    (violation "ok_not_false_on_typed_exit" [("ok", (response.lookup "ok").getD .null)])
  demandNone (closedMembers response ["schema", "ok", "error"] ["operation", "release"]) fun members =>
    violation "response_members" [("members", .str members)]
  demand ((response.lookup "operation").all (·.isString "eventsSince"))
    (violation "operation" [("operation", (response.lookup "operation").getD .null)])
  demandNone ((((response.lookup "release").bind Value.record?).bind fun release =>
    closedMembers release ["releaseId", "sourceCommit", "builtAt"] [])) fun members =>
      violation "release_members" [("members", .str members)]
  let error ← demandSome ((response.lookup "error").bind Value.record?) (violation "typed_error_without_code" [])
  demandNone (closedMembers error ["code", "message"] ["data"]) fun members =>
    violation "error_members" [("members", .str members)]
  let code ← demandSome (match error.lookup "code" with
    | some (.str code) => some code
    | _ => none) (violation "typed_error_without_code" [])
  demand (eventsSinceErrorCodes.contains code) (violation "typed_error_code_unsupported" [("errorCode", .str code)])
  demand ((error.lookup "message").any fun message => match message with
    | .str _ => true
    | _ => false) (violation "error.message" [])
  demand ((error.lookup "data").all fun data => data.record?.isSome) (violation "error.data" [])
  pure (code, .obj error)

end HrcRuntime.OfflineEvidenceValidate
