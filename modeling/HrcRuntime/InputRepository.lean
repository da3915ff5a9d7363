import HrcRuntime.Mapper

namespace HrcRuntime.InputRepository

open Records Database Program Mapper

def getByInputId (db : Db) (inputId : String) : Option HrcInputRecord :=
  db.inputs.find? fun r => r.inputId == inputId

def getByBrokerSubmissionId (db : Db) (submissionId : String) : Option HrcInputRecord :=
  db.inputs.find? fun r => r.brokerSubmissionId == some submissionId

def protectedBefore (a b : HrcInputRecord) : Prop :=
  a.createdAt < b.createdAt ∨ a.createdAt = b.createdAt ∧ a.inputId ≤ b.inputId

instance (a b : HrcInputRecord) : Decidable (protectedBefore a b) := by unfold protectedBefore; infer_instance

def listProtectedByInvocationId (db : Db) (invocationId : String) : List HrcInputRecord :=
  (db.inputs.rows.filter fun r =>
    r.invocationId == some invocationId && r.cleanupProtection == .«protected»).insertionSort protectedBefore

def isExactCarrier (prior : HrcInputRecord) (landing : InputLandingRecord) (r : HrcRunRecord) : Bool :=
  r.runId == landing.carrierRunId && r.executionFormat == .format2 && r.nativeTurnId == some landing.turnId
    && (prior.hostSessionId == some r.hostSessionId) && (prior.runtimeId.isSome && r.runtimeId == prior.runtimeId)
    && (prior.operationId.isSome && r.operationId == prior.operationId)
    && (prior.invocationId.isSome && r.invocationId == prior.invocationId)
    && r.observedStartHrcSeq == some landing.runStartedHrcSeq && r.completedAt == none && r.status == .running

def sameLanding (prior : HrcInputRecord) (landing : InputLandingRecord) : Bool :=
  prior.landingKind == some landing.kind && prior.carrierRunId == some landing.carrierRunId
    && prior.turnId == some landing.turnId && prior.runStartedHrcSeq == some landing.runStartedHrcSeq

def hasCoordinate (r : HrcInputRecord) : Bool :=
  r.hostSessionId.isSome && r.runtimeId.isSome && r.operationId.isSome && r.invocationId.isSome

variable [Host]

def reload (inputId message : String) : M HrcInputRecord := do
  let row ← query (getByInputId · inputId)
  requireRecord row message

def insert (record : HrcInputRecord) : M HrcInputRecord := do
  statement (.insertInput record)
  reload record.inputId s!"failed to reload input {record.inputId}"

def bindBrokerSubmissionId (inputId brokerSubmissionId updatedAt : String) : M HrcInputRecord := do
  let prior ← reload inputId s!"input not found for broker bind {inputId}"
  match prior.brokerSubmissionId with
  | some bound =>
    if bound == brokerSubmissionId then pure prior else fail s!"input broker submission conflict for {inputId}"
  | none =>
    statement (.bindInput inputId brokerSubmissionId updatedAt)
    let bound ← reload inputId s!"failed to reload broker-bound input {inputId}"
    if bound.brokerSubmissionId == some brokerSubmissionId then pure bound
    else fail s!"input broker submission conflict for {inputId}"

def recordLanding (landing : InputLandingRecord) : M HrcInputRecord := do
  let prior ← reload landing.inputId s!"input not found for landing {landing.inputId}"
  if prior.landingKind.isSome then
    if sameLanding prior landing then pure prior else fail s!"input landing conflict for {landing.inputId}"
  else if prior.status != .accepted then
    fail s!"input cannot land from status {prior.status.text}: {landing.inputId}"
  else if !hasCoordinate prior then
    fail s!"format-2 input landing requires a complete input coordinate: {landing.inputId}"
  else do
    let carrier ← query fun db => db.runs.find? (isExactCarrier prior landing)
    if carrier.isNone then
      fail s!"format-2 input landing requires an active exact carrier run: {landing.carrierRunId}"
    else do
      statement (.landInput landing)
      reload landing.inputId s!"failed to reload landed input {landing.inputId}"

def recordTerminal (terminal : InputTerminalRecord) : M HrcInputRecord := do
  let prior ← reload terminal.inputId s!"input not found for terminal {terminal.inputId}"
  if prior.terminal.isSome then
    if prior.terminal == some terminal.terminal then pure prior
    else fail s!"input terminal conflict for {terminal.inputId}"
  else if prior.status != .accepted || prior.landingKind.isSome then
    fail s!"input cannot terminalize from status {prior.status.text}: {terminal.inputId}"
  else do
    statement (.terminateInput terminal)
    reload terminal.inputId s!"failed to reload terminal input {terminal.inputId}"

def recordCorrelation (correlation : InputCorrelationRecord) : M HrcInputRecord := do
  let _ ← reload correlation.inputId s!"input not found for correlation {correlation.inputId}"
  statement (.correlateInput correlation)
  reload correlation.inputId s!"failed to reload correlated input {correlation.inputId}"

section Rules

variable {P : Db → Write → Prop} {s : BrokerEventMapper}

omit [Host] in
theorem reload_readOnly (inputId message : String) : ReadOnly (reload inputId message) :=
  (query_readOnly _).bind fun _ => requireRecord_readOnly _ _

omit [Host] in
theorem reload_eq_ok {inputId message : String} {s t : BrokerEventMapper} {r : HrcInputRecord} :
    reload inputId message s = (.ok r, t) ↔ t = s ∧ getByInputId s.db inputId = some r := by
  unfold reload
  rw [show (query (getByInputId · inputId) >>= fun row => requireRecord row message) s
    = requireRecord (getByInputId s.db inputId) message s from rfl]
  cases getByInputId s.db inputId with
  | none =>
    constructor
    · intro h
      cases h
    · rintro ⟨-, h⟩
      cases h
  | some row =>
    constructor
    · intro h
      cases h
      exact ⟨rfl, rfl⟩
    · rintro ⟨rfl, h⟩
      cases h
      rfl

theorem recordLanding_writesFrom {landing : InputLandingRecord}
    (h : ∀ prior, getByInputId s.db landing.inputId = some prior → prior.landingKind = none →
      prior.status = .accepted → (s.db.runs.find? (isExactCarrier prior landing)).isSome → P s.db (.landInput landing)) :
    WritesFrom P s (recordLanding landing) := by
  refine EmitsFrom.bind_readOnly (reload_readOnly _ _) fun prior hp => ?_
  obtain ⟨-, hp⟩ := reload_eq_ok.mp hp
  split
  · split
    · exact EmitsFrom.pure _
    · exact EmitsFrom.throw _
  · rename_i hl
    split
    · exact EmitsFrom.throw _
    · rename_i hstatus
      split
      · exact EmitsFrom.throw _
      · refine WritesFrom.query_bind ?_
        split
        · exact EmitsFrom.throw _
        · rename_i hc
          refine EmitsFrom.bind (statement_writesFrom (h prior hp ?_ ?_ ?_)) fun _ s' _ _ => ?_
          · simpa using hl
          · simpa using hstatus
          · simpa [Option.isSome_iff_ne_none] using hc
          · exact Emits.of_readOnly (reload_readOnly _ _) s'

theorem recordTerminal_writesFrom {terminal : InputTerminalRecord}
    (h : ∀ prior, getByInputId s.db terminal.inputId = some prior → prior.landingKind = none →
      prior.terminal = none → prior.status = .accepted → P s.db (.terminateInput terminal)) :
    WritesFrom P s (recordTerminal terminal) := by
  refine EmitsFrom.bind_readOnly (reload_readOnly _ _) fun prior hp => ?_
  obtain ⟨-, hp⟩ := reload_eq_ok.mp hp
  split
  · split
    · exact EmitsFrom.pure _
    · exact EmitsFrom.throw _
  · rename_i ht
    split
    · exact EmitsFrom.throw _
    · rename_i hstatus
      simp only [Bool.or_eq_true, bne_iff_ne, ne_eq, not_or, not_not, Bool.not_eq_true,
        Option.isSome_eq_false_iff, Option.isNone_iff_eq_none] at hstatus ht
      refine EmitsFrom.bind (statement_writesFrom (h prior hp hstatus.2 ?_ hstatus.1)) fun _ s' _ _ => ?_
      · simpa using ht
      · exact Emits.of_readOnly (reload_readOnly _ _) s'

theorem recordCorrelation_writesFrom {correlation : InputCorrelationRecord}
    (h : P s.db (.correlateInput correlation)) : WritesFrom P s (recordCorrelation correlation) := by
  refine EmitsFrom.bind_readOnly (reload_readOnly _ _) fun _ _ => ?_
  exact EmitsFrom.bind (statement_writesFrom h) fun _ s' _ _ => Emits.of_readOnly (reload_readOnly _ _) s'

end Rules

end HrcRuntime.InputRepository
