import HrcRuntime.ProjectionWrites

namespace HrcRuntime.RunEffects

open Records Database Mapper Context LifecyclePayload RuntimeState Format2Input TurnProjection
open StateProjection ProjectionWrites Ownership

inductive RunEffect (db : Db) : Write → Prop where
  | aside {w : Write} (h : w.table ≠ .runs) : RunEffect db w
  | touched {w : Write} (h : RunTouch db w) : RunEffect db w
  | ended (runId : String) {updates : RunCompletion} (h : updates.status.isRunTerminal = true) :
      RunEffect db (.completeRun runId updates)
  | withdrawn (runId runtimeId invocationId submissionId now : String) :
      RunEffect db (.failWithdrawnRun runId runtimeId invocationId submissionId now)
  | settled {w : Write} (h : Settlement db w) : RunEffect db w
  | bound (runId submissionId updatedAt : String) : RunEffect db
      (.updateRun runId { updatedAt := some updatedAt, brokerSubmissionId := some submissionId })
  | minted {record : HrcRunRecord} (hstatus : record.status = .running) (hopen : record.completedAt = none)
      (hlink : record.coalescedIntoRunId = none) : RunEffect db (.insertRun record)

variable {db : Db} {w : Write} {envelope : InvocationEventEnvelope} {ctx : ProjectionContext}

theorem append_effect {origin : Option EvidenceOrigin} (h : Append origin w) : RunEffect db w :=
  .aside (by cases h <;> nofun)

variable {runtimeId : String} {base : Db}

theorem runtimeTouch_effect (h : RuntimeTouch runtimeId w) : RunEffect db w :=
  .aside (by cases h; nofun)

theorem claim_effect {runId : String} (h : RuntimeClaim runtimeId runId w) : RunEffect db w :=
  .aside (by cases h; nofun)

theorem fact_effect (h : InputFact db w) : RunEffect db w := by
  cases h with
  | ledger ht => exact .aside (by rw [ht]; nofun)
  | event h => exact append_effect h
  | run h => exact .touched h

theorem release_effect {exactOwner : Bool} (h : Release base envelope ctx exactOwner w) :
    RunEffect db w := by
  obtain ⟨-, -, -, h⟩ := h
  cases h with
  | superseded => exact .ended _ (terminalStatus_terminal _)
  | unwedged _ _ _ _ ht => exact .ended _ ht
  | cleared => exact .aside nofun
  | readied _ h => exact runtimeTouch_effect h

theorem runEnd_effect (h : RunEnd ctx db w) : RunEffect db w := by
  cases h with
  | ended _ _ _ ht => exact .ended _ ht

theorem format2_effect (h : Format2Write base envelope ctx db w) : RunEffect db w := by
  cases h with
  | fact h => exact fact_effect h
  | ended _ _ h => exact runEnd_effect h
  | released _ h => exact release_effect h
  | claim _ h => exact claim_effect h
  | touch h => exact runtimeTouch_effect h
  | invocation => exact .aside nofun
  | watch ht => exact .aside (by rw [ht]; nofun)

theorem steerEnd_effect (h : SteerEnd db envelope w) : RunEffect db w := by
  cases h with
  | ended _ _ _ _ _ _ _ hout => exact .ended _ hout

theorem format1_effect (h : Format1Write base envelope ctx db w) : RunEffect db w := by
  cases h with
  | run h => exact .touched h
  | launchBound => exact .bound _ _ _
  | submissionEnded _ h => exact runEnd_effect h
  | ended _ h => exact runEnd_effect h
  | steer _ _ h => exact steerEnd_effect h
  | settled _ h => exact .settled h
  | released _ h => exact release_effect h
  | claim _ h => exact claim_effect h
  | touch h => exact runtimeTouch_effect h
  | invocation => exact .aside nofun
  | watch ht => exact .aside (by rw [ht]; nofun)
  | admission ht => exact .aside (by rw [ht]; nofun)
  | event h => exact append_effect h

theorem live_effect (h : LiveWrite base envelope ctx db w) : RunEffect db w := by
  cases h with
  | invocation => exact .aside nofun
  | touch h => exact runtimeTouch_effect h
  | settled _ h => exact .settled h
  | fact _ h => exact fact_effect h
  | aside htab => exact .aside (by rcases htab with ht | ht | ht | ht | ht <;> rw [ht] <;> nofun)
  | format1 _ h => exact format1_effect h
  | format2 _ h => exact format2_effect h

theorem retained_effect {stale : Bool} (h : RetainedWrite base envelope ctx stale db w) : RunEffect db w := by
  cases h with
  | invocation h => exact .aside (by cases h; nofun)
  | unresolved _ _ hs _ => exact .settled hs
  | settled _ h => exact .settled h
  | ended _ _ _ _ _ htr => exact .ended _ htr
  | admission ht => exact .aside (by rw [ht]; nofun)
  | buffer ht => exact .aside (by rw [ht]; nofun)

theorem project_effect [Host] {s : BrokerEventMapper} (h : ProjectWrite s envelope db w) : RunEffect db w := by
  cases h with
  | minted _ _ _ h =>
    cases h with
    | minted => exact .minted rfl rfl rfl
  | blob => exact .aside nofun
  | stored => exact .aside nofun
  | projected => exact .aside nofun
  | disposed => exact .aside nofun
  | advanced => exact .aside nofun
  | live _ _ _ _ _ h => exact live_effect h
  | ended _ _ h => exact .aside (by cases h; nofun)
  | retained _ _ _ _ h => exact retained_effect h
  | canonical _ h => exact append_effect h
  | warned _ h => exact append_effect h
  | artifact => exact .aside nofun
  | reading _ _ _ h => exact runtimeTouch_effect h
  | event _ h => exact append_effect h
  | fact _ _ _ h => exact fact_effect h
  | withdrawn _ _ _ h =>
    cases h with
    | failed => exact .withdrawn _ _ _ _ _
    | cleared => exact .aside nofun
    | event h => exact append_effect h

end HrcRuntime.RunEffects
