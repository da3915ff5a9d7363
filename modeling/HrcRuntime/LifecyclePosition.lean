import HrcRuntime.Freshness
import HrcRuntime.Format2Law
import HrcRuntime.Schedule

namespace HrcRuntime.LifecyclePosition

open Records Relational Database Mapper EventRepository Repositories Ownership Context RunResolution
open RuntimeState Format2Input MessageProjection TurnProjection StateProjection ProjectEnvelope ProjectionWrites
open EventMapper Calls Controller CursorCompleteness Preparation Stability Freshness Format2Law
open Option (mem_def none_or)

def Forward (a b : Option Nat) : Prop := ∀ n ∈ a, ∃ m ∈ b, n ≤ m

instance (a b : Option Nat) : Decidable (Forward a b) := by unfold Forward; infer_instance

def NotBehind (a b : HrcBrokerInvocationRecord) : Prop :=
  Forward a.currentHarnessGeneration b.currentHarnessGeneration ∧ Forward a.currentTurnAttempt b.currentTurnAttempt

instance (a b : HrcBrokerInvocationRecord) : Decidable (NotBehind a b) := by unfold NotBehind; infer_instance

def ReportsForward (envelope : InvocationEventEnvelope) (row : HrcBrokerInvocationRecord) : Prop :=
  Forward row.currentHarnessGeneration ((reportedPosition envelope).1.or row.currentHarnessGeneration) ∧
    Forward row.currentTurnAttempt ((reportedPosition envelope).2.or row.currentTurnAttempt)

instance (envelope : InvocationEventEnvelope) (row : HrcBrokerInvocationRecord) :
    Decidable (ReportsForward envelope row) := by unfold ReportsForward; infer_instance

def IsBehind (db : Db) (envelope : InvocationEventEnvelope) : Prop :=
  ∃ row ∈ getByInvocationId db envelope.invocationId, isStaleLifecycleEnvelope envelope.toEnvelopeHead row = true

def MovesBack (db : Db) (envelope : InvocationEventEnvelope) : Prop :=
  isParticipantFenced db envelope.invocationId = false ∧
    ∃ row ∈ getByInvocationId db envelope.invocationId,
      isStaleLifecycleEnvelope envelope.toEnvelopeHead row = false ∧ ¬ ReportsForward envelope row

def MintsStale (db : Db) (envelope : InvocationEventEnvelope) : Prop :=
  IsBehind db envelope ∧ envelope.type = .turnStarted ∧ isFormat2 db envelope.invocationId = true ∧
    ∃ key ∈ turnKeyOf db envelope, RunRepository.getByTurnKey db key = none

def FailsStale (db : Db) (envelope : InvocationEventEnvelope) : Prop :=
  (invocationTerminalState envelope.type).isSome = true ∧ retriesFailure envelope = false ∧
    ∃ invocation ∈ getByInvocationId db envelope.invocationId,
      isStaleLifecycleEnvelope envelope.toEnvelopeHead invocation = true ∧
        ∃ row ∈ absorbedRows db invocation.runtimeId envelope.invocationId, ∃ run ∈ unresolvedAuxiliary db row,
          run.status = .accepted ∨ run.status = .completed

instance (db : Db) (envelope : InvocationEventEnvelope) : Decidable (IsBehind db envelope) := by
  unfold IsBehind; infer_instance

instance (db : Db) (envelope : InvocationEventEnvelope) : Decidable (MovesBack db envelope) := by
  unfold MovesBack; infer_instance

instance (db : Db) (envelope : InvocationEventEnvelope) : Decidable (MintsStale db envelope) := by
  unfold MintsStale; infer_instance

instance (db : Db) (envelope : InvocationEventEnvelope) : Decidable (FailsStale db envelope) := by
  unfold FailsStale; infer_instance

def Regresses (s : BrokerEventMapper) [Host] : Call → Prop
  | .project false envelope => (isFresh false s envelope = true ∧ MovesBack s.db envelope) ∨ MintsStale s.db envelope
  | .project true envelope => isFresh true s envelope = true ∧ FailsStale s.db envelope
  | .flush .. => False

instance (s : BrokerEventMapper) [Host] : DecidablePred (Regresses s)
  | .project false _ => by unfold Regresses; infer_instance
  | .project true _ => by unfold Regresses; infer_instance
  | .flush .. => isFalse id

def runStatuses (db : Db) : List (String × RunStatus) := db.runs.rows.map fun r => (r.runId, r.status)

def Advances (a b : Db) : Prop :=
  ∀ invocationId, ∀ row ∈ getByInvocationId a invocationId,
    ∃ row' ∈ getByInvocationId b invocationId, NotBehind row row'

structure SameStatuses (a b : Db) : Prop where
  runtimes : b.runtimes = a.runtimes
  sessions : b.sessions = a.sessions
  runs : runStatuses b = runStatuses a

structure PositionLaw (c : Call) (a b : Db) [Host] : Prop where
  advances : Advances a b
  stale : ∀ retained envelope, c = .project retained envelope → IsBehind a envelope → SameStatuses a b

section Order

variable {a b c : HrcBrokerInvocationRecord} {x y z : Option Nat}

theorem Forward.refl (x : Option Nat) : Forward x x := fun n hn => ⟨n, hn, Nat.le_refl n⟩

theorem Forward.trans (h : Forward x y) (h' : Forward y z) : Forward x z := by
  intro n hn
  obtain ⟨m, hm, hnm⟩ := h n hn
  obtain ⟨k, hk, hmk⟩ := h' m hm
  exact ⟨k, hk, Nat.le_trans hnm hmk⟩

theorem NotBehind.refl (a : HrcBrokerInvocationRecord) : NotBehind a a := ⟨.refl _, .refl _⟩

theorem NotBehind.trans (h : NotBehind a b) (h' : NotBehind b c) : NotBehind a c :=
  ⟨h.1.trans h'.1, h.2.trans h'.2⟩

theorem Advances.refl (a : Db) : Advances a a := fun _ row hr => ⟨row, hr, .refl row⟩

theorem Advances.trans {a b c : Db} (h : Advances a b) (h' : Advances b c) : Advances a c := by
  intro invocationId row hr
  obtain ⟨row', hrow', hab⟩ := h invocationId row hr
  obtain ⟨row'', hrow'', hbc⟩ := h' invocationId row' hrow'
  exact ⟨row'', hrow'', hab.trans hbc⟩

theorem SameStatuses.trans {a b c : Db} (h : SameStatuses a b) (h' : SameStatuses b c) : SameStatuses a c :=
  ⟨h'.runtimes.trans h.runtimes, h'.sessions.trans h.sessions, h'.runs.trans h.runs⟩

end Order

section Frames

variable {a b : Db} {envelope : InvocationEventEnvelope} (h : CursorFrame a b)
include h

theorem frame_advances : Advances a b := by
  intro invocationId row hr
  obtain ⟨row', hrow', hs⟩ := h.find hr
  have hg : row'.currentHarnessGeneration = row.currentHarnessGeneration :=
    congrArg (·.currentHarnessGeneration) hs
  have hatt : row'.currentTurnAttempt = row.currentTurnAttempt := congrArg (·.currentTurnAttempt) hs
  refine ⟨row', hrow', ?_, ?_⟩
  · rw [hg]
    exact .refl _
  · rw [hatt]
    exact .refl _

theorem frame_sameStatuses : SameStatuses a b := by
  rw [h.tables]
  exact ⟨rfl, rfl, rfl⟩

omit h in
theorem isStale_of_uncursored {row row' : HrcBrokerInvocationRecord} (hs : uncursored row' = uncursored row) :
    isStaleLifecycleEnvelope envelope.toEnvelopeHead row' = isStaleLifecycleEnvelope envelope.toEnvelopeHead row := by
  have hstale : isStaleLifecycleEnvelope envelope.toEnvelopeHead (uncursored row')
      = isStaleLifecycleEnvelope envelope.toEnvelopeHead (uncursored row) := by rw [hs]
  exact hstale

theorem frame_isBehind (ha : IsBehind a envelope) : IsBehind b envelope := by
  obtain ⟨row, hr, hstale⟩ := ha
  obtain ⟨row', hrow', hs⟩ := h.find hr
  exact ⟨row', hrow', (isStale_of_uncursored hs).trans hstale⟩

theorem frame_movesBack (ha : MovesBack a envelope) : MovesBack b envelope := by
  obtain ⟨hf, row, hr, hstale, hba⟩ := ha
  obtain ⟨row', hrow', hs⟩ := h.find hr
  refine ⟨?_, row', hrow', (isStale_of_uncursored hs).trans hstale, fun hfwd => hba ?_⟩
  · rw [h.tables]
    exact hf
  · have hg : row'.currentHarnessGeneration = row.currentHarnessGeneration :=
      congrArg (·.currentHarnessGeneration) hs
    have hatt : row'.currentTurnAttempt = row.currentTurnAttempt := congrArg (·.currentTurnAttempt) hs
    unfold ReportsForward at hfwd
    rwa [hg, hatt] at hfwd

theorem frame_mintsStale (ha : MintsStale a envelope) : MintsStale b envelope := by
  obtain ⟨hbeh, ht, hformat, key, hk, hn⟩ := ha
  refine ⟨frame_isBehind h hbeh, ht, (isFormat2_stable h.placement _).trans hformat, key, ?_, ?_⟩
  · rwa [turnKeyOf_stable h.placement]
  · rw [h.tables]
    exact hn

theorem frame_failsStale (ha : FailsStale a envelope) : FailsStale b envelope := by
  obtain ⟨he, hr, invocation, hi, hstale, row, hrow, run, hrun, hstatus⟩ := ha
  obtain ⟨invocation', hi', hs⟩ := h.find hi
  have hrt : invocation'.runtimeId = invocation.runtimeId := congrArg (·.runtimeId) hs
  refine ⟨he, hr, invocation', hi', (isStale_of_uncursored hs).trans hstale, row, ?_, run, ?_, hstatus⟩
  · rw [h.tables, hrt]
    exact hrow
  · rw [h.tables]
    exact hrun

end Frames

section Positions

variable {db db' base : Db} {w : Write} {envelope : InvocationEventEnvelope}

/-- Every row of `base` is still there, at the position it had or at the one the envelope reports. -/
def Moved (envelope : InvocationEventEnvelope) (base db : Db) : Prop :=
  ∀ invocationId, ∀ row ∈ getByInvocationId base invocationId, ∃ row' ∈ getByInvocationId db invocationId,
    (row'.currentHarnessGeneration, row'.currentTurnAttempt) = (row.currentHarnessGeneration, row.currentTurnAttempt) ∨
      (invocationId = envelope.invocationId ∧ ReportsForward envelope row) ∧
        (row'.currentHarnessGeneration, row'.currentTurnAttempt)
          = ((reportedPosition envelope).1.or row.currentHarnessGeneration,
            (reportedPosition envelope).2.or row.currentTurnAttempt)

theorem Moved.refl (base : Db) : Moved envelope base base := fun _ row hr => ⟨row, hr, .inl rfl⟩

theorem Moved.same (h : Moved envelope base db) (hs : db'.brokerInvocations = db.brokerInvocations) :
    Moved envelope base db' := by
  unfold Moved getByInvocationId at *
  rwa [hs]

theorem Moved.update {p : HrcBrokerInvocationRecord → Bool} {f : HrcBrokerInvocationRecord → HrcBrokerInvocationRecord}
    (h : Moved envelope base db) (hrun : db.brokerInvocations.update p f = some db'.brokerInvocations)
    (hid : ∀ r, (f r).invocationId = r.invocationId)
    (hf : ∀ r, (f r).currentHarnessGeneration = r.currentHarnessGeneration ∧
      (f r).currentTurnAttempt = r.currentTurnAttempt) : Moved envelope base db' := by
  intro invocationId row hr
  obtain ⟨row', hrow', hm⟩ := h invocationId row hr
  refine ⟨if p row' then f row' else row', ?_, ?_⟩
  · have hfn := find?_update hrun (q := fun r => r.invocationId == invocationId) fun r => by rw [hid]
    unfold getByInvocationId at hrow' ⊢
    rw [mem_def] at hrow' ⊢
    rw [hfn, hrow', Option.map_some]
  · split
    · rwa [(hf row').1, (hf row').2]
    · exact hm

theorem Moved.patch {patch : InvocationPatch} (h : Moved envelope base db) (hp : PositionPatch envelope patch)
    (hfwd : ∀ row ∈ getByInvocationId base envelope.invocationId, ReportsForward envelope row)
    (hrun : (Write.updateInvocation envelope.invocationId patch).run db = .ok db') : Moved envelope base db' := by
  have hu := Write.run_brokerInvocations hrun
  rcases hp with ⟨hg, hatt⟩ | hr
  · refine h.update hu (fun _ => rfl) fun r => ⟨?_, ?_⟩
    · simp only [InvocationPatch.apply, hg, none_or]
    · simp only [InvocationPatch.apply, hatt, none_or]
  · intro invocationId row hrow
    obtain ⟨row', hrow', hm⟩ := h invocationId row hrow
    have hk : row'.invocationId = invocationId := by simpa using List.find?_some hrow'
    have hf := find?_update hu (q := fun r => r.invocationId == invocationId) fun _ => rfl
    refine ⟨if row'.invocationId == envelope.invocationId then patch.apply row' else row', ?_, ?_⟩
    · unfold getByInvocationId at hrow' ⊢
      rw [mem_def] at hrow' ⊢
      rw [hf, hrow', Option.map_some]
    · split
      · rename_i hid
        obtain rfl : invocationId = envelope.invocationId := hk.symm.trans (beq_iff_eq.mp hid)
        refine .inr ⟨⟨rfl, hfwd row hrow⟩, ?_⟩
        have hor {x y : Option Nat} : x.or (x.or y) = x.or y := by cases x <;> rfl
        rw [← hr]
        rcases hm with hm | ⟨-, hm⟩
        · rw [Prod.mk.injEq] at hm
          simp only [InvocationPatch.apply, hm.1, hm.2]
        · rw [← hr, Prod.mk.injEq] at hm
          simp only [InvocationPatch.apply, hm.1, hm.2, hor]
      · exact hm

theorem Moved.other (h : Moved envelope base db) (hr : w.run db = .ok db')
    (hw : ∀ id patch, w = .updateInvocation id patch →
      patch.currentHarnessGeneration = none ∧ patch.currentTurnAttempt = none) : Moved envelope base db' := by
  by_cases ht : w.table = .brokerInvocations
  · have hu := Write.run_brokerInvocations hr
    cases w with
    | updateInvocation id patch =>
      obtain ⟨hg, hatt⟩ := hw id patch rfl
      refine h.update hu (fun _ => rfl) fun r => ⟨?_, ?_⟩
      · simp only [InvocationPatch.apply, hg, none_or]
      · simp only [InvocationPatch.apply, hatt, none_or]
    | setProjectedSeq => exact h.update hu (fun _ => rfl) fun _ => ⟨rfl, rfl⟩
    | setRetainedSeq => exact h.update hu (fun _ => rfl) fun _ => ⟨rfl, rfl⟩
    | _ => cases ht
  · exact h.same (Write.run_brokerInvocations_of_ne hr ht)

theorem Moved.advances (h : Moved envelope base db) : Advances base db := by
  intro invocationId row hr
  obtain ⟨row', hrow', hm⟩ := h invocationId row hr
  refine ⟨row', hrow', ?_⟩
  unfold NotBehind
  rcases hm with hm | ⟨⟨-, hf⟩, hm⟩
  · rw [Prod.mk.injEq] at hm
    rw [hm.1, hm.2]
    exact ⟨.refl _, .refl _⟩
  · rw [Prod.mk.injEq] at hm
    rw [hm.1, hm.2]
    exact hf

end Positions

section Writes

variable {db : Db} {w : Write} {envelope : InvocationEventEnvelope} {ctx : ProjectionContext}

def KeepsPosition (w : Write) : Prop := ∀ id patch, w = .updateInvocation id patch →
  patch.currentHarnessGeneration = none ∧ patch.currentTurnAttempt = none

def ReportsPosition (envelope : InvocationEventEnvelope) (w : Write) : Prop := ∀ id patch, w = .updateInvocation id patch →
  id = envelope.invocationId ∧ PositionPatch envelope patch

theorem keepsPosition_of_table (h : w.table ≠ .brokerInvocations) : KeepsPosition w := by
  rintro id patch rfl
  exact absurd rfl h

theorem reportsPosition_of_table (h : w.table ≠ .brokerInvocations) : ReportsPosition envelope w := by
  rintro id patch rfl
  exact absurd rfl h

variable {origin : Option EvidenceOrigin} {base : Db}

theorem append_table (h : LifecyclePayload.Append origin w) :
    w.table = .hrcEvents ∨ w.table = .toolResultBlobs := by
  cases h with
  | blob => exact .inr rfl
  | _ => exact .inl rfl

theorem append_ne {name : TableName} (h : LifecyclePayload.Append origin w)
    (he : name ≠ .hrcEvents) (hbl : name ≠ .toolResultBlobs) : w.table ≠ name := by
  intro hn
  rcases append_table h with ht | ht
  · exact he (hn.symm.trans ht)
  · exact hbl (hn.symm.trans ht)

theorem settlement_table (h : Settlement db w) : w.table = .runs := by
  cases h <;> rfl

theorem runtimeTouch_table {runtimeId : String} (h : RuntimeTouch runtimeId w) : w.table = .runtimes := by
  cases h
  rfl

theorem inputFact_table (h : InputFact db w) : w.table ≠ .brokerInvocations := by
  cases h with
  | ledger h => rw [h]; nofun
  | event h => exact append_ne h nofun nofun
  | run h => cases h; nofun

theorem release_table {exactOwner : Bool} (h : Release base envelope ctx exactOwner w) :
    w.table ≠ .brokerInvocations := by
  obtain ⟨-, -, -, h⟩ := h
  cases h with
  | superseded => nofun
  | unwedged => nofun
  | cleared => nofun
  | readied _ h => rw [runtimeTouch_table h]; nofun

theorem format2_position (h : Format2Write base envelope ctx db w) : ReportsPosition envelope w := by
  cases h with
  | fact h => exact reportsPosition_of_table (inputFact_table h)
  | ended _ _ h => exact reportsPosition_of_table (by cases h; nofun)
  | released _ h => exact reportsPosition_of_table (release_table h)
  | claim _ h => exact reportsPosition_of_table (by cases h; nofun)
  | touch h => exact reportsPosition_of_table (by rw [runtimeTouch_table h]; nofun)
  | invocation h =>
    rintro _ _ ⟨⟩
    exact ⟨rfl, h⟩
  | watch h => exact reportsPosition_of_table (by rw [h]; nofun)

theorem format1_position (h : Format1Write base envelope ctx db w) : ReportsPosition envelope w := by
  cases h with
  | run h => exact reportsPosition_of_table (by cases h; nofun)
  | launchBound => exact reportsPosition_of_table nofun
  | submissionEnded _ h => exact reportsPosition_of_table (by cases h; nofun)
  | ended _ h => exact reportsPosition_of_table (by cases h; nofun)
  | steer _ _ h => exact reportsPosition_of_table (by cases h; nofun)
  | settled _ h => exact reportsPosition_of_table (by rw [settlement_table h]; nofun)
  | released _ h => exact reportsPosition_of_table (release_table h)
  | claim _ h => exact reportsPosition_of_table (by cases h; nofun)
  | touch h => exact reportsPosition_of_table (by rw [runtimeTouch_table h]; nofun)
  | invocation h =>
    rintro _ _ ⟨⟩
    exact ⟨rfl, h⟩
  | watch h => exact reportsPosition_of_table (by rw [h]; nofun)
  | admission h => exact reportsPosition_of_table (by rw [h]; nofun)
  | event h => exact reportsPosition_of_table (append_ne h nofun nofun)

theorem live_position (h : LiveWrite base envelope ctx db w) : ReportsPosition envelope w := by
  cases h with
  | invocation h =>
    rintro _ _ ⟨⟩
    exact ⟨rfl, h⟩
  | touch h => exact reportsPosition_of_table (by rw [runtimeTouch_table h]; nofun)
  | settled _ h => exact reportsPosition_of_table (by rw [settlement_table h]; nofun)
  | fact _ h => exact reportsPosition_of_table (inputFact_table h)
  | aside h => exact reportsPosition_of_table (by rcases h with h | h | h | h | h <;> rw [h] <;> nofun)
  | format1 _ h => exact format1_position h
  | format2 _ h => exact format2_position h

theorem invocationEnd_position (h : InvocationEnd envelope w) : KeepsPosition w := by
  cases h
  rintro _ _ ⟨⟩
  exact ⟨rfl, rfl⟩

theorem retained_position {stale : Bool} (h : RetainedWrite base envelope ctx stale db w) :
    KeepsPosition w := by
  cases h with
  | invocation h => exact invocationEnd_position h
  | unresolved _ _ h _ => exact keepsPosition_of_table (by rw [settlement_table h]; nofun)
  | settled _ h => exact keepsPosition_of_table (by rw [settlement_table h]; nofun)
  | ended => exact keepsPosition_of_table nofun
  | admission h => exact keepsPosition_of_table (by rw [h]; nofun)
  | buffer h => exact keepsPosition_of_table (by rw [h]; nofun)

end Writes

section Project

variable [Host] {envelope : InvocationEventEnvelope} {s t : BrokerEventMapper} {db db' : Db} {w : Write} {p : Projection}

theorem projectWrite_position (h : ProjectWrite s envelope db w) : KeepsPosition w ∨
    ∃ p t, s.retainedProjection = false ∧ prepare envelope s = (.ok p, t) ∧ verdict t.db p = .fresh ∧
      isStale t.db p = false ∧ ReportsPosition p.persistedEnvelope w := by
  cases h with
  | minted _ _ _ h => exact .inl (keepsPosition_of_table (by cases h; nofun))
  | blob => exact .inl (keepsPosition_of_table nofun)
  | stored => exact .inl (keepsPosition_of_table nofun)
  | projected => exact .inl (keepsPosition_of_table nofun)
  | disposed => exact .inl (keepsPosition_of_table nofun)
  | advanced => exact .inl fun _ _ h => by cases h
  | live hl hp hfr hstale _ h => exact .inr ⟨_, _, hl, hp, hfr, hstale, live_position h⟩
  | ended _ _ h => exact .inl (invocationEnd_position h)
  | retained _ _ _ _ h => exact .inl (retained_position h)
  | canonical _ h => exact .inl (keepsPosition_of_table (append_ne h nofun nofun))
  | warned _ h => exact .inl (keepsPosition_of_table (append_ne h nofun nofun))
  | artifact => exact .inl (keepsPosition_of_table nofun)
  | reading _ _ _ h => exact .inl (keepsPosition_of_table (by rw [runtimeTouch_table h]; nofun))
  | event _ h => exact .inl (keepsPosition_of_table (append_ne h nofun nofun))
  | fact _ _ _ h => exact .inl (keepsPosition_of_table (inputFact_table h))
  | withdrawn _ _ _ h =>
    cases h with
    | failed => exact .inl (keepsPosition_of_table nofun)
    | cleared => exact .inl (keepsPosition_of_table nofun)
    | event h => exact .inl (keepsPosition_of_table (append_ne h nofun nofun))

theorem fresh_reportsForward (hdelta : isIgnoredBrokerDelta envelope = false)
    (hba : isFreshAt s.db false (lastProjectedBrokerSeq s.db envelope.invocationId) envelope = true →
      ¬ MovesBack s.db envelope)
    (hl : s.retainedProjection = false) (hp : prepare envelope s = (.ok p, t)) (hfr : verdict t.db p = .fresh)
    (hstale : isStale t.db p = false) :
    ∀ row ∈ getByInvocationId s.db envelope.invocationId, ReportsForward envelope row := by
  intro row hrow
  by_cases ht : envelope.type = .turnStarted
  · unfold ReportsForward reportedPosition
    simp only [ht, none_or]
    exact ⟨.refl _, .refl _⟩
  · obtain ⟨correlation, he⟩ := prepared_persisted hp
    obtain ⟨u, hr, _, _⟩ := prepare_eq_ok hp
    have hfa := (fresh_iff hp hdelta (resolved_start hr ht).1).mp hfr
    rw [hl] at hfa
    obtain ⟨hf, hbeh⟩ := Bool.or_eq_false_iff.mp hstale
    rw [he] at hf hbeh
    by_contra hfwd
    refine hba hfa ⟨?_, row, hrow, ?_, hfwd⟩
    · unfold isParticipantFenced getAttemptByInvocationId getAttemptByRegistrationId at *
      rwa [(prepare_frame hp).participantAttempts] at hf
    · rw [mem_def, (resolved hr).invocation, Option.some.injEq] at hrow
      rw [← hrow]
      exact hbeh

theorem projectWrite_moved (hdelta : isIgnoredBrokerDelta envelope = false)
    (hba : s.retainedProjection = false →
      isFreshAt s.db false (lastProjectedBrokerSeq s.db envelope.invocationId) envelope = true →
      ¬ MovesBack s.db envelope)
    (h : ProjectWrite s envelope db w) (hrun : w.run db = .ok db') (hm : Moved envelope s.db db) :
    Moved envelope s.db db' := by
  rcases projectWrite_position h with hkp | ⟨p, t, hl, hp, hfr, hstale, hr⟩
  · exact hm.other hrun hkp
  · have hf := fresh_reportsForward hdelta (hba hl) hl hp hfr hstale
    obtain ⟨correlation, he⟩ := prepared_persisted hp
    rw [he] at hr
    by_cases hw : ∃ id patch, w = .updateInvocation id patch
    · obtain ⟨id, patch, rfl⟩ := hw
      obtain ⟨rfl, hpat⟩ := hr id patch rfl
      exact hm.patch hpat hf hrun
    · exact hm.other hrun fun id patch h => absurd ⟨id, patch, h⟩ hw

end Project

section Still

variable {a b db db' : Db} {w : Write}

def runKeys (db : Db) : List (String × Option String × RunStatus) := db.runs.rows.map fun r => (r.runId, r.turnKey, r.status)

structure Still (a b : Db) : Prop where
  runtimes : b.runtimes = a.runtimes
  sessions : b.sessions = a.sessions
  runs : runKeys b = runKeys a

theorem Still.refl (a : Db) : Still a a := ⟨rfl, rfl, rfl⟩

theorem Still.statuses (h : Still a b) : SameStatuses a b := by
  refine ⟨h.runtimes, h.sessions, ?_⟩
  have hs (db : Db) : runStatuses db = (runKeys db).map fun k => (k.1, k.2.2) := by
    unfold runStatuses runKeys
    rw [List.map_map]
    rfl
  rw [hs, hs, h.runs]

theorem Still.update {q : HrcRunRecord → Bool} {f : HrcRunRecord → HrcRunRecord} (h : Still a db)
    (hr : db'.runtimes = db.runtimes) (hs : db'.sessions = db.sessions)
    (hrun : db.runs.update q f = some db'.runs)
    (hf : ∀ r, ((f r).runId, (f r).turnKey, (f r).status) = (r.runId, r.turnKey, r.status)) : Still a db' := by
  refine ⟨hr.trans h.runtimes, hs.trans h.sessions, ?_⟩
  rw [← h.runs]
  exact update_map hrun hf

theorem Still.other (h : Still a db) (hrun : w.run db = .ok db') (hr : w.table ≠ .runtimes)
    (hs : w.table ≠ .sessions) (hrn : w.table ≠ .runs) : Still a db' := by
  refine ⟨(Write.run_runtimes_of_ne hrun hr).trans h.runtimes,
    (Write.run_sessions_of_ne hrun hs).trans h.sessions, ?_⟩
  rw [← h.runs]
  unfold runKeys
  rw [Write.run_runs_of_ne hrun hrn]

end Still

section Stale

variable [Host] {a b : Db} {envelope : InvocationEventEnvelope} {s t : BrokerEventMapper} {db db' : Db} {w : Write}
  {p : Projection}

theorem isStale_of_isBehind (hbeh : IsBehind s.db envelope) (hp : prepare envelope s = (.ok p, t)) :
    isStale t.db p = true := by
  obtain ⟨row, hrow, hstale⟩ := hbeh
  obtain ⟨correlation, he⟩ := prepared_persisted hp
  obtain ⟨u, hr, _, _⟩ := prepare_eq_ok hp
  rw [mem_def, (resolved hr).invocation, Option.some.injEq] at hrow
  rw [← hrow] at hstale
  unfold isStale
  rw [he, Bool.or_eq_true]
  exact .inr hstale

omit [Host] in
theorem minted_absurd {invocation : HrcBrokerInvocationRecord} {runtime : HrcRuntimeSnapshot}
    (hbeh : IsBehind s.db envelope) (hmn : ¬ MintsStale s.db envelope)
    (hi : getByInvocationId s.db envelope.invocationId = some invocation)
    (hrt : getByRuntimeId s.db invocation.runtimeId = some runtime) (hstl : Still s.db db)
    (h : Mint envelope invocation runtime w) (hrun : w.run db = .ok db') : False := by
  cases h with
  | @minted turnId runId generation initiatingInputId now hformat hty ht =>
    refine hmn ⟨hbeh, hty, ?_, format2TurnKey envelope.toEnvelopeHead invocation runtime turnId, ?_, ?_⟩
    · unfold isFormat2
      rw [hi, Option.any_some, hformat]
      rfl
    · unfold turnKeyOf
      simp only [hi, hrt, ht, Option.bind_eq_bind, Option.bind_some, mem_def]
    · refine List.find?_eq_none.mpr fun r hr hk => ?_
      have hm : (r.runId, r.turnKey, r.status) ∈ runKeys db := by
        rw [hstl.runs]
        exact List.mem_map_of_mem hr
      obtain ⟨r', hr', hs⟩ := List.mem_map.mp hm
      have htk : r'.turnKey = r.turnKey := congrArg (·.2.1) hs
      have hn := insert_fresh (Write.run_runs hrun) (fun r => r.turnKey.map ("turn_key", ·)) (by simp)
        (k := ("turn_key", format2TurnKey envelope.toEnvelopeHead invocation runtime turnId)) rfl r' hr'
      rw [htk, beq_iff_eq.mp hk] at hn
      exact hn rfl

variable {row : HrcBrokerInvocationEventRecord}

theorem prepare_mem (hp : prepare envelope s = (.ok p, t))
    (ht : row.type ≠ envelope.type) :
    row ∈ t.db.brokerInvocationEvents.rows ↔ row ∈ s.db.brokerInvocationEvents.rows := by
  have hch : WritesFrom (fun _ w => w.table ≠ .brokerInvocationEvents ∨
      ∃ stored : HrcBrokerInvocationEventRecord, stored.type = envelope.type ∧ w = .insertEvent stored) s
      (prepare envelope) := by
    refine prepare_writesFrom (fun _ _ _ _ _ _ _ hmn => .inl (by cases hmn; nofun)) (fun _ _ => .inl nofun)
      fun r u hr _ stored hsto _ => .inr ⟨stored, ?_, rfl⟩
    obtain ⟨correlation, he⟩ := persisted_eq u.db envelope r.ctx.runId
    rw [hsto.type, appendInput, (resolved hr).persisted, he]
  have hm := hch.preserves
    (I := fun u => row ∈ u.db.brokerInvocationEvents.rows ↔ row ∈ s.db.brokerInvocationEvents.rows)
    (fun a b hs ha => by
      cases hs with
      | quiet hq => rwa [hq.db]
      | write w hw hrun =>
        rcases hw with hoth | ⟨stored, hsto, rfl⟩
        · rwa [Write.run_brokerInvocationEvents_of_ne hrun hoth]
        · rw [insert_rows (Write.run_brokerInvocationEvents hrun), List.mem_append, List.mem_singleton, ha]
          exact or_iff_left fun hrow => ht (hrow ▸ hsto)) Iff.rfl
  rwa [hp] at hm

omit [Host] in
theorem invocationTerminal_ne {type : EventType} (h : (invocationTerminalState type).isSome = true) :
    type ≠ .turnStarted ∧ type ≠ .submissionAbsorbed ∧ type ≠ .admissionAdmitted := by
  refine ⟨?_, ?_, ?_⟩ <;> rintro rfl <;> cases h

omit [Host] in
theorem isSteerSubmission_of_mem (h : ∀ row : HrcBrokerInvocationEventRecord, row.type = .admissionAdmitted →
      (row ∈ a.brokerInvocationEvents.rows → row ∈ b.brokerInvocationEvents.rows)) {invocationId submissionId : String}
    (hst : isSteerSubmission a invocationId submissionId = true) :
    isSteerSubmission b invocationId submissionId = true := by
  obtain ⟨row, hr, hk⟩ := List.any_eq_true.mp hst
  refine List.any_eq_true.mpr ⟨row, ?_, hk⟩
  unfold listByInvocationIdAndTypes listByInvocationId at *
  rw [List.mem_filter, mem_orderBy, List.mem_filter] at *
  obtain ⟨⟨hm, hid⟩, hs⟩ := hr
  have ht : row.type = .admissionAdmitted := by
    simp only [EventQuery.selects, Bool.and_eq_true] at hs
    simpa using hs.1
  exact ⟨⟨h row ht hm, hid⟩, hs⟩

/-- A stale retained end that fails an absorbed steer is the one the condition excludes. -/
theorem failsStale_of_write {base : Db} {run : HrcRunRecord}
    (hbeh : IsBehind s.db envelope) (hp : prepare envelope s = (.ok p, t)) (hbs : SameBase t.db base)
    (he : (invocationTerminalState envelope.type).isSome = true) (hre : retriesFailure envelope = false)
    (hrow : row ∈ absorbedRows base p.ctx.runtimeId envelope.invocationId)
    (hrun : unresolvedAuxiliary base row = some run) (hstatus : run.status = .accepted ∨ run.status = .completed) :
    FailsStale s.db envelope := by
  obtain ⟨invocation, hi, hstale⟩ := hbeh
  obtain ⟨u, hr, _, _⟩ := prepare_eq_ok hp
  have hrd := resolved hr
  obtain ⟨hsta, habs, hadm⟩ := invocationTerminal_ne he
  have hs : invocation = p.invocation := Option.some.inj (hi.symm.trans hrd.invocation)
  have hrt : p.ctx.runtimeId = invocation.runtimeId := by
    rw [hrd.ctx, hs]
    exact beq_iff_eq.mp (List.find?_some (p := fun r : HrcRuntimeSnapshot => r.runtimeId == p.invocation.runtimeId)
      hrd.runtime)
  refine ⟨he, hre, invocation, hi, hstale, row, ?_, run, ?_, hstatus⟩
  · rw [hrt] at hrow
    unfold absorbedRows at *
    rw [List.mem_insertionSort, List.mem_filter] at *
    rw [hbs.brokerInvocationEvents] at hrow
    obtain ⟨hm, hk⟩ := hrow
    have ht : row.type = .submissionAbsorbed := by
      simp only [Bool.and_eq_true, beq_iff_eq] at hk
      exact hk.1.2
    exact ⟨(prepare_mem hp (by rw [ht]; exact habs.symm)).mp hm, hk⟩
  · unfold unresolvedAuxiliary at *
    simp only [Option.bind_eq_bind, Option.bind_eq_some_iff, mem_def] at *
    obtain ⟨submissionId, hsb, run', hf, hrun⟩ := hrun
    refine ⟨submissionId, hsb, run', ?_, ?_⟩
    · unfold RunRepository.getByBrokerSubmissionId at *
      rwa [hbs.runs, prepare_runs hp hsta] at hf
    · split at hrun
      · rename_i hop
        simp only [Bool.and_eq_true] at hop ⊢
        obtain ⟨⟨⟨hst, hun⟩, hu⟩, hunm⟩ := hop
        rw [if_pos]
        · exact hrun
        · refine ⟨⟨⟨isSteerSubmission_of_mem (fun row hrow hm => ?_) hst, hun⟩, hu⟩, hunm⟩
          rw [hbs.brokerInvocationEvents] at hm
          exact (prepare_mem hp (by rw [hrow]; exact hadm.symm)).mp hm
      · cases hrun

/-- What a stale envelope writes, but for the mint and the failures the condition excludes. -/
theorem projectWrite_still (hdelta : isIgnoredBrokerDelta envelope = false) (hbeh : IsBehind s.db envelope)
    (hm : s.retainedProjection = false → ¬ MintsStale s.db envelope)
    (hfl : s.retainedProjection = true →
      isFreshAt s.db true (lastProjectedBrokerSeq s.db envelope.invocationId) envelope = true →
      ¬ FailsStale s.db envelope)
    (h : ProjectWrite s envelope db w) (hrun : w.run db = .ok db') (hstl : Still s.db db) : Still s.db db' := by
  have hn {p : Projection} {t : BrokerEventMapper} (hp : prepare envelope s = (.ok p, t))
      (hc : isStale t.db p = false) : False := by
    rw [isStale_of_isBehind hbeh hp] at hc
    cases hc
  have happ {origin : Option EvidenceOrigin} (h : LifecyclePayload.Append origin w) : Still s.db db' :=
    hstl.other hrun (append_ne h nofun nofun) (append_ne h nofun nofun) (append_ne h nofun nofun)
  have hen {envelope : InvocationEventEnvelope} (h : InvocationEnd envelope w) : Still s.db db' := by
    cases h
    exact hstl.other hrun nofun nofun nofun
  cases h with
  | minted hl hi hrt h =>
    exact absurd hrun fun hrun => minted_absurd hbeh (hm hl) hi hrt hstl h hrun
  | blob => exact hstl.other hrun nofun nofun nofun
  | stored => exact hstl.other hrun nofun nofun nofun
  | projected => exact hstl.other hrun nofun nofun nofun
  | disposed => exact hstl.other hrun nofun nofun nofun
  | advanced => exact hstl.other hrun nofun nofun nofun
  | live _ hp _ hc => exact absurd hc fun h => hn hp h
  | ended _ _ h => exact hen h
  | @retained p t base _ hret hp hfr hbs h =>
    obtain ⟨correlation, henv⟩ := prepared_persisted hp
    cases h with
    | invocation h => exact hen h
    | unresolved he hre _ h =>
      rw [henv] at he hre h
      cases h with
      | failed _ hrow hf hstatus =>
        obtain ⟨hs, _⟩ := invocationTerminal_ne he
        obtain ⟨u, hr, _, _⟩ := prepare_eq_ok hp
        have hfa := (fresh_iff hp hdelta (resolved_start hr hs).1).mp hfr
        rw [hret] at hfa
        exact absurd (failsStale_of_write hbeh hp hbs he hre hrow hf hstatus)
          (hfl hret hfa)
      | marked =>
        exact hstl.update (Write.run_runtimes_of_ne hrun nofun) (Write.run_sessions_of_ne hrun nofun)
          (Write.run_runs hrun) fun _ => rfl
    | settled hc _ => exact absurd hc fun h => hn hp h
    | ended _ hc => exact absurd hc fun h => hn hp h
    | admission h =>
      exact hstl.other hrun (by rw [h]; nofun) (by rw [h]; nofun) (by rw [h]; nofun)
    | buffer h =>
      exact hstl.other hrun (by rw [h]; nofun) (by rw [h]; nofun) (by rw [h]; nofun)
  | canonical _ h => exact happ h
  | warned _ h => exact happ h
  | artifact => exact hstl.other hrun nofun nofun nofun
  | reading _ hp hc => exact absurd hc fun h => hn hp h
  | event _ h => exact happ h
  | fact _ hp hc => exact absurd hc fun h => hn hp h
  | withdrawn hp hc => exact absurd hc fun h => hn hp h

end Stale

section Runs

variable [Host] {envelope : InvocationEventEnvelope} {s t : BrokerEventMapper} {c : Call} {retained : Bool}

/-- A committed projection the condition allows. -/
theorem committed_position {result : BrokerProjectionResult} (hdelta : isIgnoredBrokerDelta envelope = false)
    (hok : ¬ Regresses s (.project retained envelope)) (h : Committed retained envelope s result t) :
    PositionLaw (.project retained envelope) s.db t.db := by
  obtain ⟨⟨u, v, hu, hf, hp, hdb⟩, _⟩ := h
  have hfr := fold_frame hf
  have hr : u.retainedProjection = retained := hu.retainedProjection
  have hwr := project_writesFrom envelope u
  have hl : CursorFrame v.db t.db := by
    split at hdb
    · obtain ⟨seq, hrun⟩ := hdb
      exact retainedSeq_frame hrun
    · rw [hdb]
      exact .refl _
  have hba : u.retainedProjection = false →
      isFreshAt u.db false (lastProjectedBrokerSeq u.db envelope.invocationId) envelope = true →
      ¬ MovesBack u.db envelope := by
    intro hlv hfre hmv
    rw [hr] at hlv
    subst hlv
    rw [fold_isFresh hf] at hfre
    exact hok (.inl ⟨hfre, frame_movesBack hfr.symm hmv⟩)
  have hmov : Moved envelope u.db v.db := by
    have hmov := hwr.preserves (I := fun x => Moved envelope u.db x.db) (fun a b hs ha => by
      cases hs with
      | quiet hq => rwa [hq.db]
      | write w hw hrun => exact projectWrite_moved hdelta hba hw hrun ha) (.refl _)
    rwa [hp] at hmov
  refine ⟨((frame_advances hfr).trans hmov.advances).trans (frame_advances hl), ?_⟩
  intro retained' envelope' hc hbeh
  cases hc
  have hm : u.retainedProjection = false → ¬ MintsStale u.db envelope := by
    intro hlv hm
    rw [hr] at hlv
    subst hlv
    exact hok (.inr (frame_mintsStale hfr.symm hm))
  have hfl : u.retainedProjection = true →
      isFreshAt u.db true (lastProjectedBrokerSeq u.db envelope.invocationId) envelope = true →
      ¬ FailsStale u.db envelope := by
    intro hd hfre hfl
    rw [hr] at hd
    subst hd
    rw [fold_isFresh hf] at hfre
    exact hok ⟨hfre, frame_failsStale hfr.symm hfl⟩
  have hstl : Still u.db v.db := by
    have hstl := hwr.preserves (I := fun x => Still u.db x.db) (fun a b hs ha => by
      cases hs with
      | quiet hq => rwa [hq.db]
      | write w hw hrun =>
        exact projectWrite_still hdelta (frame_isBehind hfr hbeh) hm hfl hw hrun ha) (.refl _)
    rwa [hp] at hstl
  exact ((frame_sameStatuses hfr).trans hstl.statuses).trans (frame_sameStatuses hl)

theorem outcome_position {r : Except HrcError (Option BrokerProjectionResult)} (hok : ¬ Regresses s c)
    (h : Outcome s c r t) : PositionLaw c s.db t.db := by
  have hfr {t : BrokerEventMapper} (h : CursorFrame s.db t.db) : PositionLaw c s.db t.db :=
    ⟨frame_advances h, fun _ _ _ _ => frame_sameStatuses h⟩
  have hc {retained : Bool} {id : String} {pending : Option PendingDelta} {u : BrokerEventMapper} :
      (setCursor retained id pending u).db = u.db := by
    unfold setCursor
    split <;> rfl
  cases h with
  | thrown h =>
    refine hfr ?_
    rw [h.db]
    exact .refl _
  | repeated => exact hfr (.refl _)
  | extended =>
    refine hfr ?_
    rw [hc]
    exact .refl _
  | idle => exact hfr (.refl _)
  | flushed _ _ hf =>
    refine hfr ?_
    rw [hc]
    exact fold_frame hf
  | projected hdelta h => exact committed_position hdelta hok h
  | unlogged hdelta _ _ h => exact committed_position hdelta hok h

/-- In every run of live and retained calls none of which moves a position back or changes a status on stale
evidence, no stored position ever regresses and no stale envelope changes a status. -/
theorem lifecycle_position {calls : List Call} (hs : s.retainedProjection = false)
    (hmeets : Schedule.Meets Call.step (fun s c => ¬ Regresses s c) calls s) :
    (∀ before between rest, calls = before ++ (between ++ rest) →
      Advances (Schedule.run Call.step before s).db (Schedule.run Call.step (before ++ between) s).db) ∧
    ∀ before retained envelope rest, calls = before ++ .project retained envelope :: rest →
      IsBehind (Schedule.run Call.step before s).db envelope →
      SameStatuses (Schedule.run Call.step before s).db
        (Schedule.run Call.step (before ++ [.project retained envelope]) s).db := by
  have hlv (s : BrokerEventMapper) (c : Call) (hs : s.retainedProjection = false) (_ : ¬ Regresses s c) :
      (c.step s).retainedProjection = false := outcome_retainedProjection hs (call_outcome hs c)
  have hl (s : BrokerEventMapper) (c : Call) (hs : s.retainedProjection = false) (hc : ¬ Regresses s c) :
      PositionLaw c s.db (c.step s).db := outcome_position hc (call_outcome hs c)
  refine ⟨fun before between rest h => ?_, fun before retained envelope rest h => ?_⟩
  · subst h
    obtain ⟨hbef, haft⟩ := Schedule.meets_append.mp hmeets
    rw [Schedule.run_append]
    have ht (s t u : BrokerEventMapper) (h : Advances s.db t.db) (h' : Advances t.db u.db) : Advances s.db u.db :=
      h.trans h'
    exact Schedule.run_related (fun _ => .refl _) ht hlv (fun s c hs hc => (hl s c hs hc).advances)
      (Schedule.run_invariant hlv hs hbef) (Schedule.meets_append.mp haft).1
  · exact (Schedule.run_each (P := fun a c b => PositionLaw c a.db b.db) hlv hl hs hmeets h).stale retained
      envelope rfl

def startedAt (seq generation : Nat) : InvocationEventEnvelope :=
  { sampleEvent seq .harnessStarted with payload := .obj (.cons "generation" (.num generation) .nil) }

omit [Host] in
/-- The second generation starts, and a report from the first arrives late. -/
theorem lifecycle_position_late :
    let calls : List Call := [.project false (startedAt 1 1), .project false (startedAt 3 2),
      .project false { sampleEvent 2 .invocationReady with harnessGeneration := some 1 }]
    letI := steadyHost
    (∀ before between rest, calls = before ++ (between ++ rest) →
      Advances (Schedule.run Call.step before sampleMapper).db (Schedule.run Call.step (before ++ between) sampleMapper).db) ∧
    ∀ before retained envelope rest, calls = before ++ .project retained envelope :: rest →
      IsBehind (Schedule.run Call.step before sampleMapper).db envelope →
      SameStatuses (Schedule.run Call.step before sampleMapper).db
        (Schedule.run Call.step (before ++ [.project retained envelope]) sampleMapper).db := by
  intro calls
  have hmt :
      letI := steadyHost
      Schedule.Meets Call.step (fun s c => ¬ Regresses s c) calls sampleMapper := by decide +kernel
  let _ := steadyHost
  exact lifecycle_position rfl hmt

omit [Host] in
/-- The start of the first generation arrives after the start of the second and takes the position back. -/
theorem backfilled_start_regresses :
    letI := steadyHost
    ¬ Advances (Schedule.run Call.step [.project false (startedAt 2 2)] sampleMapper).db
      (Schedule.run Call.step [.project false (startedAt 2 2), .project false (startedAt 1 1)] sampleMapper).db := by
  have hba :
      letI := steadyHost
      ∃ row ∈ getByInvocationId (Schedule.run Call.step [.project false (startedAt 2 2)] sampleMapper).db "inv",
        ∀ row' ∈ getByInvocationId (Schedule.run Call.step
          [.project false (startedAt 2 2), .project false (startedAt 1 1)] sampleMapper).db "inv",
          ¬ NotBehind row row' := by decide +kernel
  let _ := steadyHost
  intro hadv
  obtain ⟨row, hr, hbeh⟩ := hba
  obtain ⟨row', hrow', hf⟩ := hadv "inv" row hr
  exact hbeh row' hrow' hf

end Runs

end HrcRuntime.LifecyclePosition
