import HrcRuntime.Mapper

namespace HrcRuntime.RunRepository

open Json Records Relational Database Program Mapper

def getByRunId (db : Db) (runId : String) : Option HrcRunRecord := db.runs.find? fun r => r.runId == runId

def getCorrelationJson (db : Db) (runId : String) : Option Json := (getByRunId db runId).bind (·.correlationJson)

def getByDispatchedInputId (db : Db) (inputId : String) : Option HrcRunRecord :=
  db.runs.find? fun r => r.dispatchedInputId == some inputId

def getByBrokerSubmissionId (db : Db) (submissionId : String) : Option HrcRunRecord :=
  db.runs.find? fun r => r.brokerSubmissionId == some submissionId

def getByTurnKey (db : Db) (turnKey : String) : Option HrcRunRecord :=
  db.runs.find? fun r => r.turnKey == some turnKey

def listByRuntimeId (db : Db) (runtimeId : String) : List HrcRunRecord :=
  db.runs.rows.filter fun r => r.runtimeId == some runtimeId

def listCorrelatedByInvocationId (db : Db) (invocationId : String) : List HrcRunRecord :=
  db.runs.rows.filter fun r => r.invocationId == some invocationId && r.correlationJson.isSome

def identity (r : HrcRunRecord) : HrcRunRecord :=
  { r with
    status := .accepted, startedAt := none, completedAt := none, updatedAt := "", errorCode := none
    errorMessage := none, initiatingInputId := none, observationState := none, observedStartHrcSeq := none
    coalescedIntoRunId := none }

def SameRuns (a b : RunTable) : Prop := b.rows.map identity = a.rows.map identity

theorem SameRuns.update {t t' : RunTable} {p : HrcRunRecord → Bool} {f : HrcRunRecord → HrcRunRecord}
    (h : t.update p f = some t') (hf : ∀ r, identity (f r) = identity r) : SameRuns t t' := by
  unfold SameRuns
  rw [update_rows h, List.map_map]
  refine List.map_congr_left fun r _ => ?_
  rw [Function.comp_apply]
  split
  · exact hf r
  · rfl

variable {r : HrcRunRecord}

theorem SameRuns.mem {a b : RunTable} (h : SameRuns a b) (hr : r ∈ b.rows) :
    ∃ r' ∈ a.rows, identity r' = identity r := by
  have hm : identity r ∈ b.rows.map identity := List.mem_map_of_mem hr
  rw [h] at hm
  exact List.mem_map.mp hm

theorem run_unique {db : Db} {r' : HrcRunRecord} (hr : r ∈ db.runs.rows) (hr' : r' ∈ db.runs.rows)
    (hid : r'.runId = r.runId) : r' = r := by
  refine row_unique db.runs (fun r => some ("run_id", r.runId)) (by simp) hr' hr (k := ("run_id", r.runId)) ?_ rfl
  rw [hid]

theorem getByRunId_of_mem {db : Db} (hr : r ∈ db.runs.rows) : getByRunId db r.runId = some r := by
  have hf : (getByRunId db r.runId).isSome = true := List.find?_isSome.mpr ⟨r, hr, by simp⟩
  obtain ⟨r', hr'⟩ := Option.isSome_iff_exists.mp hf
  have hid : r'.runId = r.runId := by simpa using List.find?_some hr'
  rw [hr', run_unique hr (List.mem_of_find?_eq_some hr') hid]

theorem getByBrokerSubmissionId_of_mem {db : Db} {submissionId : String} (hr : r ∈ db.runs.rows)
    (hk : r.brokerSubmissionId = some submissionId) : getByBrokerSubmissionId db submissionId = some r := by
  have hf : (getByBrokerSubmissionId db submissionId).isSome = true := List.find?_isSome.mpr ⟨r, hr, by simp [hk]⟩
  obtain ⟨r', hr'⟩ := Option.isSome_iff_exists.mp hf
  have hk' : r'.brokerSubmissionId = some submissionId := by simpa using List.find?_some hr'
  rw [hr', row_unique db.runs (fun r => r.brokerSubmissionId.map ("broker_submission_id", ·)) (by simp)
    (List.mem_of_find?_eq_some hr') hr (k := ("broker_submission_id", submissionId)) (by rw [hk', Option.map_some])
    (by rw [hk, Option.map_some])]

/-- A patch that would move a completed run off terminal loses its status and start; an explicit
`completedAt: null` is a deliberate resurrection. -/
def effectivePatch (current : Option HrcRunRecord) (patch : RunPatch) : RunPatch :=
  match patch.status with
  | none => patch
  | some status =>
    if !status.isRunTerminal && patch.completedAt != some none && (current.bind (·.completedAt)).isSome
    then { patch with status := none, startedAt := none }
    else patch

theorem effectivePatch_completedAt (current : Option HrcRunRecord) (patch : RunPatch) :
    (effectivePatch current patch).completedAt = patch.completedAt := by
  unfold effectivePatch
  split
  · rfl
  · split <;> rfl

theorem effectivePatch_open (h : r.completedAt = none) (patch : RunPatch) :
    effectivePatch (some r) patch = patch := by
  unfold effectivePatch
  split
  · rfl
  · simp [h]

structure RunHandleWriter where
  runtimeId : Option String
  operationId : Option String
  hostSessionId : String
  generation : Nat

/-- `#handleRefusal` without a token: projection never runs in the issuing context. -/
def handleRefusal (reservation : Option RunIdReservation) (row : Option HrcRunRecord)
    (writer : RunHandleWriter) : Option String :=
  match reservation, row with
  | none, none => none
  | some _, none => some "no-token"
  | _, some row =>
    if reservation.isNone && !EventType.hasPrefix "app:" row.scopeRef then none
    else match row.runtimeId with
      | none => if reservation.isNone then some "unbound-without-reservation" else some "no-token"
      | some runtimeId =>
        if writer.runtimeId != some runtimeId then some "runtime-mismatch"
        else if writer.hostSessionId != row.hostSessionId then some "host-session-mismatch"
        else if writer.generation != row.generation then some "generation-mismatch"
        else if row.operationId.isSome && writer.operationId != row.operationId then
          some "operation-mismatch"
        else none

def mayNameActiveRun (runId : String) (writer : RunHandleWriter) : M Bool :=
  Prog.read fun s => (handleRefusal (s.reservations runId) (getByRunId s.db runId) writer).isNone

def assertCanNameActiveRun (runId : String) (writer : RunHandleWriter) : M Unit := do
  let refusal ← Prog.read fun s => handleRefusal (s.reservations runId) (getByRunId s.db runId) writer
  match refusal with
  | none => pure ()
  | some "no-token" => Prog.throw (.runIdReserved runId)
  | some refusal => Prog.throw (.runIdOwnership runId refusal)

/-- `assertCanCreateRun` without a token. -/
def assertCanCreateRun (runId : String) : M Unit := do
  let reservation ← Prog.read fun s : BrokerEventMapper => s.reservations runId
  match reservation with
  | none => pure ()
  | some _ => Prog.throw (.runIdReserved runId)

variable [Host]

def insert (record : HrcRunRecord) : M HrcRunRecord := do
  assertCanCreateRun record.runId
  statement (.insertRun record)
  let stored ← query (getByRunId · record.runId)
  requireRecord stored s!"failed to reload run {record.runId}"

def update (runId : String) (patch : RunPatch) : M Unit := do
  let current ← query (getByRunId · runId)
  statement (.updateRun runId (effectivePatch current patch))

def markCompleted (runId : String) (updates : RunCompletion) : M Unit :=
  statement (.completeRun runId updates)

section Rules

variable {P : Db → Write → Prop}

omit [Host] in
theorem mayNameActiveRun_readOnly (runId : String) (writer : RunHandleWriter) :
    ReadOnly (mayNameActiveRun runId writer) := ReadOnly.read _

omit [Host] in
theorem assertCanNameActiveRun_readOnly (runId : String) (writer : RunHandleWriter) :
    ReadOnly (assertCanNameActiveRun runId writer) := by
  refine ReadOnly.bind (ReadOnly.read _) fun refusal => ?_
  split
  · exact ReadOnly.pure _
  · exact ReadOnly.throw _
  · exact ReadOnly.throw _

omit [Host] in
theorem assertCanCreateRun_readOnly (runId : String) : ReadOnly (assertCanCreateRun runId) := by
  refine ReadOnly.bind (ReadOnly.read _) fun reservation => ?_
  split
  · exact ReadOnly.pure _
  · exact ReadOnly.throw _

variable {s : BrokerEventMapper}

theorem insert_writesFrom {record : HrcRunRecord} (h : P s.db (.insertRun record)) :
    WritesFrom P s (insert record) := by
  refine EmitsFrom.bind_readOnly (assertCanCreateRun_readOnly _) fun _ _ => ?_
  refine EmitsFrom.bind (statement_writesFrom h) fun _ s' _ _ => ?_
  exact Emits.of_readOnly ((query_readOnly _).bind fun _ => requireRecord_readOnly _ _) s'

theorem update_writesFrom {runId : String} {patch : RunPatch}
    (h : P s.db (.updateRun runId (effectivePatch (getByRunId s.db runId) patch))) :
    WritesFrom P s (update runId patch) :=
  WritesFrom.query_bind (statement_writesFrom h)

theorem markCompleted_writesFrom {runId : String} {updates : RunCompletion}
    (h : P s.db (.completeRun runId updates)) : WritesFrom P s (markCompleted runId updates) :=
  statement_writesFrom h

end Rules

end HrcRuntime.RunRepository
