import HrcRuntime.RunOperations
import HrcRuntime.Schedule

namespace HrcRuntime.RunIdOwnership

open Records Relational Database Program Mapper RunRepository RunOperations Repositories Schedule
open Function (update_of_ne update_self)

inductive RunIdReservationOutcome where
  | reserved | existing | reservedByOther

def handleExists (db : Db) (runId : String) : Bool :=
  (getByRunId db runId).isSome || db.runtimes.rows.any (·.activeRunId == some runId)

def setReservation (runId : String) (reservation : Option RunIdReservation) : M Unit :=
  Prog.modify fun s => { s with reservations := Function.update s.reservations runId reservation }

def reserveRunId (runId token hostSessionId : String) (generation : Nat) : M RunIdReservationOutcome := do
  let held ← Prog.read fun s : BrokerEventMapper => s.reservations runId
  let named ← query (handleExists · runId)
  match held with
  | some held => pure (if held.token = token then .reserved else .reservedByOther)
  | none =>
    if named then pure .existing
    else do
      setReservation runId (some { token, hostSessionId, generation })
      pure .reserved

def releaseRunId (runId token : String) : M Unit := do
  let held ← Prog.read fun s : BrokerEventMapper => s.reservations runId
  Prog.when (held.any (·.token == token)) (setReservation runId none)

def isApp (scopeRef : String) : Bool := EventType.hasPrefix "app:" scopeRef

def sealedRefusal (row : HrcRunRecord) (runtimeId : String) (writer : RunHandleWriter) : Option String :=
  if writer.runtimeId != some runtimeId then some "runtime-mismatch"
  else if writer.hostSessionId != row.hostSessionId then some "host-session-mismatch"
  else if writer.generation != row.generation then some "generation-mismatch"
  else if row.operationId.isSome && writer.operationId != row.operationId then some "operation-mismatch"
  else none

/-- `#handleRefusal`. -/
def handleRefusal (runId : String) (writer : RunHandleWriter) (token : Option String) : M (Option String) := do
  let reservation ← Prog.read fun s : BrokerEventMapper => s.reservations runId
  let row ← query (getByRunId · runId)
  if reservation.isNone && !(row.any fun row => isApp row.scopeRef) then pure none
  else match row.bind fun row => row.runtimeId.map (row, ·) with
    | some (row, runtimeId) => pure (sealedRefusal row runtimeId writer)
    | none => match reservation with
        | none => pure (some "unbound-without-reservation")
        | some reservation => do
            let refusal := tokenRefusal reservation writer token
            Prog.when refusal.isNone (bindReservation runId reservation writer)
            pure refusal

def assertCanNameActiveRun (token : Option String) (runId : Option String) (writer : RunHandleWriter) : M Unit :=
  match runId with
  | none => pure ()
  | some runId => do
      let refusal ← handleRefusal runId writer token
      refuse runId refusal

/-- `RuntimeUpdatePatch`: an absent field keeps its column. -/
structure RuntimeUpdatePatch extends RuntimePatch where
  hostSessionId : Option String := none
  scopeRef : Option String := none
  laneRef : Option String := none
  generation : Option Nat := none
  transport : Option Transport := none
  harness : Option String := none

def RuntimeUpdatePatch.apply (p : RuntimeUpdatePatch) (r : HrcRuntimeSnapshot) : HrcRuntimeSnapshot :=
  { p.toRuntimePatch.apply r with
    hostSessionId := p.hostSessionId.getD r.hostSessionId
    scopeRef := p.scopeRef.getD r.scopeRef
    laneRef := p.laneRef.getD r.laneRef
    generation := p.generation.getD r.generation
    transport := p.transport.getD r.transport
    harness := p.harness.getD r.harness }

def handleOf (r : HrcRuntimeSnapshot) : RunHandleWriter :=
  { runtimeId := some r.runtimeId, operationId := r.activeOperationId, hostSessionId := r.hostSessionId
    generation := r.generation }

abbrev RuntimeTable := Table HrcRuntimeSnapshot [fun r => some r.runtimeId]

def storeRuntimes (f : RuntimeTable → Option RuntimeTable) : M Unit := fun s =>
  match f s.db.runtimes with
  | some runtimes => (.ok (), { s with db := { s.db with runtimes } })
  | none => (.error (.constraint "runtimes"), s)

section Calls

variable [Host]

def executeRuntimes (f : RuntimeTable → Option RuntimeTable) : M Unit := do
  effect
  storeRuntimes f

def insertRuntime (token : Option String) (record : HrcRuntimeSnapshot) : M HrcRuntimeSnapshot := do
  assertCanNameActiveRun token record.activeRunId (handleOf record)
  executeRuntimes fun t => t.insert
    { record with statusChangedAt := record.statusChangedAt.filter fun at_ => at_ != "" && at_ != "unknown" }
  let inserted ← query (getByRuntimeId · record.runtimeId)
  requireRecord inserted s!"failed to reload runtime {record.runtimeId}"

def assertPatchedHandle (token : Option String) (current : Option HrcRuntimeSnapshot) (patch : RuntimeUpdatePatch) : M Unit :=
  match current, patch.activeRunId with
  | some row, some activeRunId =>
    assertCanNameActiveRun token (some activeRunId)
      { runtimeId := some row.runtimeId, operationId := patch.activeOperationId.or row.activeOperationId
        hostSessionId := patch.hostSessionId.getD row.hostSessionId
        generation := patch.generation.getD row.generation }
  | _, _ => pure ()

def updateRuntime (token : Option String) (runtimeId : String) (patch : RuntimeUpdatePatch) :
    M (Option HrcRuntimeSnapshot) := do
  let current ← query (getByRuntimeId · runtimeId)
  assertPatchedHandle token current patch
  let guarded : RuntimeUpdatePatch := { patch with toRuntimePatch := Runtimes.guardedPatch current patch.toRuntimePatch }
  executeRuntimes fun t => t.update (·.runtimeId == runtimeId) guarded.apply
  query (getByRuntimeId · runtimeId)

def updateRunId (token : Option String) (runtimeId : String) (activeRunId : Option String) (updatedAt : String) :
    M (Option HrcRuntimeSnapshot) := do
  let current ← query (getByRuntimeId · runtimeId)
  Prog.forEach current.toList fun row => assertCanNameActiveRun token activeRunId (handleOf row)
  executeRuntimes fun t => t.update (·.runtimeId == runtimeId) fun r => { r with activeRunId, updatedAt }
  query (getByRuntimeId · runtimeId)

/-- The calls that reserve, create, bind, name and release a run id; `token` is what the caller's context holds. -/
inductive Op where
  | reserve (runId token hostSessionId : String) (generation : Nat)
  | release (runId token : String)
  | create (token : Option String) (record : HrcRunRecord)
  | bind (token : Option String) (runId : String) (patch : RunUpdatePatch)
  | claim (token : Option String) (runId : String) (claim : QueuedClaim)
  | insertRuntime (token : Option String) (record : HrcRuntimeSnapshot)
  | updateRuntime (token : Option String) (runtimeId : String) (patch : RuntimeUpdatePatch)
  | updateRunId (token : Option String) (runtimeId : String) (activeRunId : Option String) (updatedAt : String)

def step (op : Op) (s : BrokerEventMapper) : BrokerEventMapper :=
  match op with
  | .reserve runId token hostSessionId generation => (reserveRunId runId token hostSessionId generation s).2
  | .release runId token => (releaseRunId runId token s).2
  | .create token record => (RunOperations.insert token record s).2
  | .bind token runId patch => (RunOperations.update token runId patch s).2
  | .claim token runId claim => (claimQueued token runId claim s).2
  | .insertRuntime token record => (insertRuntime token record s).2
  | .updateRuntime token runtimeId patch => (updateRuntime token runtimeId patch s).2
  | .updateRunId token runtimeId activeRunId updatedAt => (updateRunId token runtimeId activeRunId updatedAt s).2

end Calls

abbrev Reservations := String → Option RunIdReservation

def isProtected (db : Db) (reservations : Reservations) (runId : String) : Bool :=
  (reservations runId).isSome || (getByRunId db runId).any fun row => isApp row.scopeRef

structure Agrees (reservation : RunIdReservation) (writer : RunHandleWriter) : Prop where
  hostSessionId : writer.hostSessionId = reservation.hostSessionId
  generation : writer.generation = reservation.generation
  runtimeId : reservation.runtimeId = writer.runtimeId
  operationId : ∀ operationId, writer.operationId = some operationId → reservation.operationId = some operationId

structure Fits (row : HrcRunRecord) (writer : RunHandleWriter) : Prop where
  hostSessionId : writer.hostSessionId = row.hostSessionId
  generation : writer.generation = row.generation
  runtimeId : ∀ runtimeId, row.runtimeId = some runtimeId → writer.runtimeId = some runtimeId

structure Within (reservation : RunIdReservation) (row : HrcRunRecord) : Prop where
  hostSessionId : row.hostSessionId = reservation.hostSessionId
  generation : row.generation = reservation.generation
  runtimeId : ∀ runtimeId, row.runtimeId = some runtimeId → reservation.runtimeId = some runtimeId
  operationId : ∀ operationId, row.operationId = some operationId → reservation.operationId = some operationId

structure Matches (db : Db) (reservations : Reservations) (runId : String) (writer : RunHandleWriter) : Prop where
  reservation : ∀ reservation, reservations runId = some reservation →
    writer.hostSessionId = reservation.hostSessionId ∧ writer.generation = reservation.generation ∧
      reservation.runtimeId = writer.runtimeId
  row : ∀ row, getByRunId db runId = some row → isApp row.scopeRef = true → Fits row writer

structure Coherent (db : Db) (reservations : Reservations) : Prop where
  reserved : ∀ runId reservation row, reservations runId = some reservation → getByRunId db runId = some row →
    Within reservation row
  named : ∀ runtime ∈ db.runtimes.rows, ∀ runId, runtime.activeRunId = some runId →
    Matches db reservations runId (handleOf runtime)

def bindTo (reservation : RunIdReservation) (writer : RunHandleWriter) : RunIdReservation :=
  { reservation with
    runtimeId := reservation.runtimeId.or writer.runtimeId
    operationId := reservation.operationId.or writer.operationId }

inductive Guards (token : Option String) (before after : Reservations) : Prop
  | same (h : after = before)
  | bound (runId : String) (reservation : RunIdReservation) (writer : RunHandleWriter)
      (hreservation : before runId = some reservation) (htoken : tokenRefusal reservation writer token = none)
      (h : after = Function.update before runId (some (bindTo reservation writer)))

section Guards

variable {db : Db} {reservations : Reservations} {token : Option String} {reservation : RunIdReservation}
  {writer : RunHandleWriter} {runId : String}

theorem tokenRefusal_eq_none (h : tokenRefusal reservation writer token = none) :
    token = some reservation.token ∧ Agrees (bindTo reservation writer) writer := by
  unfold tokenRefusal at h
  split_ifs at h with ht hh hg hrt hop
  have hh : writer.hostSessionId = reservation.hostSessionId := by simpa using hh
  have hg : writer.generation = reservation.generation := by simpa using hg
  refine ⟨by simpa using ht, hh, hg, ?_, ?_⟩
  · cases hbd : reservation.runtimeId <;> simp_all [bindTo]
  · intro operationId hoi
    cases hbd : reservation.operationId <;> simp_all [bindTo]

variable {after : Reservations}

theorem Guards.eq_none (h : Guards token reservations after) (runId : String) :
    after runId = none ↔ reservations runId = none := by
  cases h with
  | same hs => rw [hs]
  | bound boundId reservation writer hr ht hbd =>
    rw [hbd]
    by_cases hid : runId = boundId
    · subst hid
      simp [hr]
    · rw [update_of_ne hid]

theorem coherent_guards (h : Coherent db reservations) (hgrd : Guards token reservations after) :
    Coherent db after := by
  cases hgrd with
  | same hs => rwa [hs]
  | bound boundId reservation writer hr ht hbd =>
    have haft : ∀ runId reservation', after runId = some reservation' →
        ∃ old, reservations runId = some old ∧ reservation'.hostSessionId = old.hostSessionId ∧
          reservation'.generation = old.generation ∧
          (∀ runtimeId, old.runtimeId = some runtimeId → reservation'.runtimeId = some runtimeId) ∧
          ∀ operationId, old.operationId = some operationId → reservation'.operationId = some operationId := by
      intro runId reservation' hri
      rw [hbd] at hri
      by_cases hid : runId = boundId
      · subst hid
        rw [update_self] at hri
        obtain rfl := Option.some.inj hri
        exact ⟨reservation, hr, rfl, rfl, fun _ h => by simp [bindTo, h], fun _ h => by simp [bindTo, h]⟩
      · rw [update_of_ne hid] at hri
        exact ⟨reservation', hri, rfl, rfl, fun _ h => h, fun _ h => h⟩
    constructor
    · intro runId reservation' row hri hrow
      obtain ⟨old, hold, hh, hg, hrt, hop⟩ := haft runId reservation' hri
      have hin := h.reserved runId old row hold hrow
      exact ⟨hin.hostSessionId.trans hh.symm, hin.generation.trans hg.symm,
        fun _ h => hrt _ (hin.runtimeId _ h), fun _ h => hop _ (hin.operationId _ h)⟩
    · intro runtime hrt runId hn
      have hm := h.named runtime hrt runId hn
      refine ⟨fun reservation' hri => ?_, hm.row⟩
      obtain ⟨old, hold, hh, hg, hk, -⟩ := haft runId reservation' hri
      obtain ⟨hh', hg', hrt'⟩ := hm.reservation old hold
      exact ⟨hh'.trans hh.symm, hg'.trans hg.symm, hk _ hrt'⟩

end Guards

def Licensed (token : Option String) (before after : Reservations) (runId : String) (writer : RunHandleWriter) : Prop :=
  ∃ reservation, before runId = some reservation ∧ tokenRefusal reservation writer token = none ∧
    after runId = some (bindTo reservation writer)

section Guard

variable {s t : BrokerEventMapper} {token : Option String} {writer : RunHandleWriter} {runId : String}

variable {out : Except HrcError Unit}

theorem refuse_eq {refusal : Option String} (h : refuse runId refusal s = (out, t)) :
    t = s ∧ (out = .ok () → refusal = none) := by
  unfold refuse at h
  split at h <;> cases h
  · exact ⟨rfl, fun _ => rfl⟩
  · exact ⟨rfl, fun hok => by cases hok⟩
  · exact ⟨rfl, fun hok => by cases hok⟩

theorem refuse_bind_eq {reservation : RunIdReservation}
    (hrs : s.reservations runId = some reservation)
    (h : (do refuse runId (tokenRefusal reservation writer token); bindReservation runId reservation writer : M Unit) s =
      (out, t)) :
    t.db = s.db ∧ Guards token s.reservations t.reservations ∧
      (out = .ok () → Licensed token s.reservations t.reservations runId writer) := by
  rcases hr : refuse runId (tokenRefusal reservation writer token) s with ⟨e | ⟨⟩, u⟩
  · rw [bind_error hr] at h
    obtain ⟨rfl, -⟩ := refuse_eq hr
    cases h
    exact ⟨rfl, .same rfl, fun hok => by cases hok⟩
  · rw [bind_ok hr] at h
    obtain ⟨rfl, hn⟩ := refuse_eq hr
    have hn := hn rfl
    cases h
    refine ⟨rfl, .bound runId reservation writer hrs hn rfl, fun _ => ⟨reservation, hrs, hn, ?_⟩⟩
    exact update_self ..

theorem assertCanCreateRun_spec (h : RunOperations.assertCanCreateRun token runId writer s = (out, t)) :
    t.db = s.db ∧ Guards token s.reservations t.reservations ∧ (out = .ok () → s.reservations runId ≠ none →
      Licensed token s.reservations t.reservations runId writer) := by
  unfold RunOperations.assertCanCreateRun at h
  rw [read_bind] at h
  rcases hr : s.reservations runId with _ | reservation <;> rw [hr] at h
  · cases h
    exact ⟨rfl, .same rfl, fun _ hn => absurd rfl hn⟩
  · obtain ⟨hdb, hg, hl⟩ := refuse_bind_eq hr h
    exact ⟨hdb, hg, fun hok _ => hl hok⟩

structure Binds (token : Option String) (before after : Reservations) (runId : String) (row : HrcRunRecord)
    (binding : RunBinding) : Prop where
  hostSessionId : ∀ hostSessionId, binding.hostSessionId = some hostSessionId → row.hostSessionId = hostSessionId
  generation : ∀ generation, binding.generation = some generation → row.generation = generation
  runtimeId : ∀ runtimeId, binding.runtimeId = some runtimeId → ∀ bound, row.runtimeId = some bound → bound = runtimeId
  operationId : ∀ operationId, binding.operationId = some operationId → ∀ bound, row.operationId = some bound →
    bound = operationId
  licensed : fills row binding = true → Licensed token before after runId
    { runtimeId := binding.runtimeId.or row.runtimeId, operationId := binding.operationId.or row.operationId
      hostSessionId := row.hostSessionId, generation := row.generation }

variable {row : HrcRunRecord} {binding : RunBinding}

theorem bindingRefusal_eq_none (h : bindingRefusal row binding = none) :
    (∀ hostSessionId, binding.hostSessionId = some hostSessionId → row.hostSessionId = hostSessionId) ∧
      (∀ generation, binding.generation = some generation → row.generation = generation) ∧
      (∀ runtimeId, binding.runtimeId = some runtimeId → ∀ bound, row.runtimeId = some bound → bound = runtimeId) ∧
      ∀ operationId, binding.operationId = some operationId → ∀ bound, row.operationId = some bound →
        bound = operationId := by
  unfold bindingRefusal at h
  split_ifs at h with hh hg hop hrt
  refine ⟨fun hostSessionId hbn => ?_, fun generation hbn => ?_, fun runtimeId hbn bound hbd => ?_,
    fun operationId hbn bound hbd => ?_⟩
  · have hs : hostSessionId = row.hostSessionId := by simpa [hbn] using hh
    exact hs.symm
  · have hs : generation = row.generation := by simpa [hbn] using hg
    exact hs.symm
  · have hs : runtimeId = bound := by simpa [hbn, hbd] using hrt
    exact hs.symm
  · have hs : operationId = bound := by simpa [hbn, hbd] using hop
    exact hs.symm

theorem assertRunBindingUpdate_spec
    (h : assertRunBindingUpdate token runId binding s = (out, t)) :
    t.db = s.db ∧ Guards token s.reservations t.reservations ∧ (out = .ok () → ∀ row, getByRunId s.db runId = some row →
      isProtected s.db s.reservations runId = true → Binds token s.reservations t.reservations runId row binding) := by
  unfold assertRunBindingUpdate at h
  rw [read_bind, query_bind] at h
  rcases hf : (getByRunId s.db runId).filter fun row =>
      binding != {} && ((s.reservations runId).isSome || EventType.hasPrefix "app:" row.scopeRef) with _ | row <;>
    rw [hf] at h
  · cases h
    refine ⟨rfl, .same rfl, fun _ row hrow hp => ?_⟩
    obtain rfl : binding = {} := by
      rw [hrow, Option.filter_some] at hf
      simp only [isProtected, hrow, Option.any_some, isApp] at hp
      simpa [hp] using hf
    exact ⟨fun _ h => (by cases h), fun _ h => (by cases h), fun _ h => (by cases h), fun _ h => (by cases h),
      fun h => (by cases h)⟩
  · obtain ⟨hrow, -⟩ := Option.filter_eq_some_iff.mp hf
    dsimp only at h
    rcases hr : refuse runId (bindingRefusal row binding) s with ⟨e | ⟨⟩, u⟩
    · rw [bind_error hr] at h
      obtain ⟨rfl, -⟩ := refuse_eq hr
      cases h
      exact ⟨rfl, .same rfl, fun hok => by cases hok⟩
    · rw [bind_ok hr] at h
      obtain ⟨rfl, hn⟩ := refuse_eq hr
      obtain ⟨hh, hg, hrt, hop⟩ := bindingRefusal_eq_none (hn rfl)
      cases hfi : fills row binding with
      | false =>
        rw [hfi] at h
        cases h
        refine ⟨rfl, .same rfl, fun _ row' hrow' _ => ?_⟩
        obtain rfl := Option.some.inj (hrow.symm.trans hrow')
        exact ⟨hh, hg, hrt, hop, fun hfl => absurd hfl (by simp [hfi])⟩
      | true =>
        rw [hfi] at h
        rcases hrs : u.reservations runId with _ | reservation <;> rw [hrs] at h
        · cases h
          exact ⟨rfl, .same rfl, fun hok => by cases hok⟩
        · obtain ⟨hdb, hgrd, hl⟩ := refuse_bind_eq hrs h
          refine ⟨hdb, hgrd, fun hok row' hrow' _ => ?_⟩
          obtain rfl := Option.some.inj (hrow.symm.trans hrow')
          exact ⟨hh, hg, hrt, hop, fun _ => hl hok⟩

theorem sealedRefusal_eq_none {runtimeId : String} (h : sealedRefusal row runtimeId writer = none) :
    writer.runtimeId = some runtimeId ∧ writer.hostSessionId = row.hostSessionId ∧ writer.generation = row.generation := by
  unfold sealedRefusal at h
  split_ifs at h with hrt hh hg
  have hh : writer.hostSessionId = row.hostSessionId := by simpa using hh
  have hg : writer.generation = row.generation := by simpa using hg
  exact ⟨by simpa using hrt, hh, hg⟩

/-- A handle that is not refused matches the reservation and the row. -/
theorem handleRefusal_spec {out : Except HrcError (Option String)} (h : handleRefusal runId writer token s = (out, t)) :
    t.db = s.db ∧ Guards token s.reservations t.reservations ∧
      (out = .ok none → Coherent s.db s.reservations → Matches s.db t.reservations runId writer) := by
  unfold handleRefusal at h
  rw [read_bind, query_bind] at h
  by_cases hf : (s.reservations runId).isNone && !((getByRunId s.db runId).any fun row => isApp row.scopeRef)
  · rw [if_pos hf] at h
    cases h
    obtain ⟨hn, happ⟩ := (Bool.and_eq_true ..).mp hf
    refine ⟨rfl, .same rfl, fun _ _ => ⟨fun reservation hrs => ?_, fun row hrow hsc => ?_⟩⟩
    · rw [hrs] at hn
      cases hn
    · simp [hrow, hsc] at happ
  · rw [if_neg hf] at h
    rcases hs : (getByRunId s.db runId).bind fun row => row.runtimeId.map (row, ·) with _ | ⟨row, runtimeId⟩ <;>
      rw [hs] at h
    · have hu : ∀ row, getByRunId s.db runId = some row → row.runtimeId = none := by
        intro row hrow
        rw [hrow] at hs
        simpa using hs
      rcases hrs : s.reservations runId with _ | reservation <;> rw [hrs] at h
      · cases h
        exact ⟨rfl, .same rfl, fun hok => by cases hok⟩
      · dsimp only at h
        cases hr : tokenRefusal reservation writer token with
        | some refusal =>
          rw [hr] at h
          cases h
          exact ⟨rfl, .same rfl, fun hok => by cases hok⟩
        | none =>
          rw [hr] at h
          cases h
          obtain ⟨-, hagr⟩ := tokenRefusal_eq_none hr
          refine ⟨rfl, .bound runId reservation writer hrs hr rfl, fun _ hc => ?_⟩
          refine ⟨fun reservation' haft => ?_, fun row hrow _ => ?_⟩
          · have hbd : Function.update s.reservations runId (some (bindTo reservation writer)) runId =
                some reservation' := haft
            rw [update_self] at hbd
            obtain rfl := Option.some.inj hbd
            exact ⟨hagr.hostSessionId, hagr.generation, hagr.runtimeId⟩
          · have hin := hc.reserved runId reservation row hrs hrow
            refine ⟨hagr.hostSessionId.trans hin.hostSessionId.symm,
              hagr.generation.trans hin.generation.symm, fun runtimeId hbd => ?_⟩
            rw [hu row hrow] at hbd
            cases hbd
    · cases h
      obtain ⟨row', hrow, hbd⟩ := Option.bind_eq_some_iff.mp hs
      obtain ⟨_, hrt, hp⟩ := Option.map_eq_some_iff.mp hbd
      cases hp
      refine ⟨rfl, .same rfl, fun hok hc => ?_⟩
      obtain ⟨hw, hh, hg⟩ := sealedRefusal_eq_none (Except.ok.inj hok)
      refine ⟨fun reservation hrs => ?_, fun row' hrow' _ => ?_⟩
      · have hin := hc.reserved runId reservation row hrs hrow
        exact ⟨hh.trans hin.hostSessionId, hg.trans hin.generation,
          (hin.runtimeId runtimeId hrt).trans hw.symm⟩
      · obtain rfl := Option.some.inj (hrow.symm.trans hrow')
        exact ⟨hh, hg, fun _ hbd => hw.trans (hrt.symm.trans hbd)⟩

theorem assertCanNameActiveRun_spec {activeRunId : Option String}
    (h : assertCanNameActiveRun token activeRunId writer s = (out, t)) :
    t.db = s.db ∧ Guards token s.reservations t.reservations ∧
      (out = .ok () → Coherent s.db s.reservations → ∀ runId, activeRunId = some runId →
        Matches s.db t.reservations runId writer) := by
  cases activeRunId with
  | none =>
    cases h
    exact ⟨rfl, .same rfl, fun _ _ _ hn => by cases hn⟩
  | some runId =>
    simp only [assertCanNameActiveRun] at h
    rcases hh : handleRefusal runId writer token s with ⟨e | refusal, u⟩ <;>
      obtain ⟨hdb, hg, hm⟩ := handleRefusal_spec hh
    · rw [bind_error hh] at h
      cases h
      exact ⟨hdb, hg, fun hok => by cases hok⟩
    · rw [bind_ok hh] at h
      obtain ⟨rfl, hn⟩ := refuse_eq h
      refine ⟨hdb, hg, fun hok hc _ hid => ?_⟩
      obtain rfl := Option.some.inj hid
      exact hm (by rw [hn hok]) hc

end Guard

def runTuple (row : HrcRunRecord) : RunHandleWriter :=
  { runtimeId := row.runtimeId, operationId := row.operationId, hostSessionId := row.hostSessionId
    generation := row.generation }

structure Rebinds (token : Option String) (before after : Reservations) (runId : String) (row row' : HrcRunRecord) :
    Prop where
  hostSessionId : row'.hostSessionId = row.hostSessionId
  generation : row'.generation = row.generation
  runtimeId : row'.runtimeId = row.runtimeId ∨
    row.runtimeId = none ∧ Licensed token before after runId (runTuple row')
  operationId : row'.operationId = row.operationId ∨
    row.operationId = none ∧ Licensed token before after runId (runTuple row')

section Rebinding

variable {token : Option String} {before after : Reservations} {runId : String} {row row' : HrcRunRecord}
  {writer : RunHandleWriter} {reservation : RunIdReservation}

theorem Rebinds.refl (row : HrcRunRecord) : Rebinds token before after runId row row := ⟨rfl, rfl, .inl rfl, .inl rfl⟩

theorem Rebinds.congr {row'' : HrcRunRecord} (h : Rebinds token before after runId row row')
    (ht : runTuple row'' = runTuple row') : Rebinds token before after runId row row'' := by
  obtain ⟨hrt, hop, hh, hg⟩ := RunHandleWriter.mk.inj ht
  refine ⟨hh.trans h.hostSessionId, hg.trans h.generation, ?_, ?_⟩
  · rw [hrt, ht]
    exact h.runtimeId
  · rw [hop, ht]
    exact h.operationId

theorem Licensed.agrees (h : Licensed token before after runId writer) (haft : after runId = some reservation) :
    Agrees reservation writer := by
  obtain ⟨old, -, ht, hbd⟩ := h
  obtain rfl := Option.some.inj (hbd.symm.trans haft)
  exact (tokenRefusal_eq_none ht).2

theorem Licensed.within (h : Licensed token before after runId (runTuple row)) (haft : after runId = some reservation) :
    Within reservation row := by
  have hagr := h.agrees haft
  exact ⟨hagr.hostSessionId, hagr.generation, fun _ hbd => hagr.runtimeId.trans hbd, hagr.operationId⟩

theorem Within.rebinds (h : Within reservation row) (haft : after runId = some reservation)
    (hr : Rebinds token before after runId row row') : Within reservation row' where
  hostSessionId := hr.hostSessionId.trans h.hostSessionId
  generation := hr.generation.trans h.generation
  runtimeId runtimeId hbd := by
    rcases hr.runtimeId with hs | ⟨-, hl⟩
    · exact h.runtimeId runtimeId (hs ▸ hbd)
    · exact (hl.within haft).runtimeId runtimeId hbd
  operationId operationId hbd := by
    rcases hr.operationId with hs | ⟨-, hl⟩
    · exact h.operationId operationId (hs ▸ hbd)
    · exact (hl.within haft).operationId operationId hbd

theorem Within.fits (h : Within reservation row)
    (hm : writer.hostSessionId = reservation.hostSessionId ∧ writer.generation = reservation.generation ∧
      reservation.runtimeId = writer.runtimeId) : Fits row writer :=
  ⟨hm.1.trans h.hostSessionId.symm, hm.2.1.trans h.generation.symm,
    fun runtimeId hbd => hm.2.2.symm.trans (h.runtimeId runtimeId hbd)⟩

theorem Fits.rebinds (h : Fits row writer) (hn : before runId = none)
    (hr : Rebinds token before after runId row row') : Fits row' writer where
  hostSessionId := h.hostSessionId.trans hr.hostSessionId.symm
  generation := h.generation.trans hr.generation.symm
  runtimeId runtimeId hbd := by
    rcases hr.runtimeId with hs | ⟨-, old, hold, -⟩
    · exact h.runtimeId runtimeId (hs ▸ hbd)
    · rw [hn] at hold
      cases hold

theorem Binds.rebinds {binding : RunBinding} (h : Binds token before after runId row binding)
    (hr : runTuple row' =
      { runtimeId := binding.runtimeId.or row.runtimeId, operationId := binding.operationId.or row.operationId
        hostSessionId := row.hostSessionId, generation := row.generation }) :
    Rebinds token before after runId row row' := by
  obtain ⟨hrt, hop, hh, hg⟩ := RunHandleWriter.mk.inj hr
  have hl : fills row binding = true → Licensed token before after runId (runTuple row') := fun hf => by
    rw [hr]
    exact h.licensed hf
  refine ⟨hh, hg, ?_, ?_⟩
  · rcases hbd : row.runtimeId with _ | bound <;> rcases hbn : binding.runtimeId with _ | runtimeId <;>
      rw [hbd, hbn] at hrt
    · exact .inl hrt
    · exact .inr ⟨rfl, hl (by simp [fills, hbd, hbn])⟩
    · exact .inl hrt
    · rw [h.runtimeId runtimeId hbn bound hbd]
      exact .inl hrt
  · rcases hbd : row.operationId with _ | bound <;> rcases hbn : binding.operationId with _ | operationId <;>
      rw [hbd, hbn] at hop
    · exact .inl hop
    · exact .inr ⟨rfl, hl (by simp [fills, hbd, hbn])⟩
    · exact .inl hop
    · rw [h.operationId operationId hbn bound hbd]
      exact .inl hop

theorem Binds.update {patch : RunUpdatePatch}
    (h : Binds token before after runId row
      { runtimeId := patch.runtimeId, operationId := patch.operationId, hostSessionId := patch.hostSessionId
        generation := patch.generation }) : Rebinds token before after runId row (patch.apply row) := by
  refine h.rebinds ?_
  have hh : patch.hostSessionId.getD row.hostSessionId = row.hostSessionId := by
    rcases hp : patch.hostSessionId with _ | hostSessionId
    · rfl
    · exact (h.hostSessionId hostSessionId hp).symm
  have hg : patch.generation.getD row.generation = row.generation := by
    rcases hp : patch.generation with _ | generation
    · rfl
    · exact (h.generation generation hp).symm
  show RunHandleWriter.mk _ _ (patch.hostSessionId.getD row.hostSessionId) (patch.generation.getD row.generation) = _
  rw [hh, hg]
  rfl

theorem Binds.claim {claim : QueuedClaim}
    (h : Binds token before after runId row { runtimeId := claim.runtimeId, operationId := claim.operationId })
    (hrt : row.runtimeId.isSome → claim.runtimeId.isSome)
    (hop : row.operationId.isSome → claim.operationId.isSome) :
    Rebinds token before after runId row (claim.apply row) := by
  refine h.rebinds ?_
  have keeps : ∀ {old new : Option String}, (old.isSome → new.isSome) → new.or old = new := by
    rintro (_ | old) (_ | new) h
    · rfl
    · rfl
    · cases h rfl
    · rfl
  dsimp only
  rw [keeps hrt, keeps hop]
  rfl

end Rebinding

section Rows

variable {db : Db} {before after : Reservations} {token : Option String} {runId : String}

variable {runs : RunTable}

variable {f : HrcRunRecord → HrcRunRecord} {p : HrcRunRecord → Bool} {record : HrcRunRecord}

theorem getByRunId_update
    (hr : db.runs.update p f = some runs) (hf : ∀ r, (f r).runId = r.runId) (id : String) :
    getByRunId { db with runs } id = (getByRunId db id).map fun r => if p r then f r else r :=
  find?_update hr fun r => by rw [hf]

/-- An update of one run keeps the reservations and the handles in step when it rebinds the run, if it is reserved or an
app's, and makes no other run an app's. -/
theorem coherent_updateRun
    (h : Coherent db after) (hg : Guards token before after) (hrn : db.runs.update p f = some runs)
    (hf : ∀ r, (f r).runId = r.runId) (hp : ∀ r, p r = true → r.runId = runId)
    (hpro : ∀ row, getByRunId db runId = some row → isProtected db before runId = true → p row = true →
      Rebinds token before after runId row (f row))
    (happ : ∀ row, getByRunId db runId = some row → isProtected db before runId = false → isApp (f row).scopeRef = false) :
    Coherent { db with runs } after := by
  have hnew : ∀ id row', getByRunId { db with runs } id = some row' →
      getByRunId db id = some row' ∨ id = runId ∧ ∃ row, getByRunId db runId = some row ∧ p row = true ∧ row' = f row := by
    intro id row' hrow'
    rw [getByRunId_update hrn hf] at hrow'
    obtain ⟨row, hr, hm⟩ := Option.map_eq_some_iff.mp hrow'
    by_cases hpc : p row = true
    · rw [if_pos hpc] at hm
      have hid : row.runId = id := by simpa using List.find?_some hr
      obtain rfl : id = runId := hid.symm.trans (hp row hpc)
      exact .inr ⟨rfl, row, hr, hpc, hm.symm⟩
    · rw [if_neg hpc] at hm
      exact .inl (hm ▸ hr)
  have hin : ∀ id reservation row', after id = some reservation → getByRunId { db with runs } id = some row' →
      Within reservation row' := by
    intro id reservation row' haft hrow'
    rcases hnew id row' hrow' with hold | ⟨rfl, row, hr, hpc, rfl⟩
    · exact h.reserved id reservation row' haft hold
    · have hbef : before id ≠ none := fun hnn => by
        rw [(hg.eq_none id).mpr hnn] at haft
        cases haft
      have hpr : isProtected db before id = true := by
        rw [isProtected, Option.isSome_iff_ne_none.mpr hbef, Bool.true_or]
      exact (h.reserved id reservation row haft hr).rebinds haft (hpro row hr hpr hpc)
  refine ⟨hin, fun runtime hrt id hn => ⟨(h.named runtime hrt id hn).reservation, ?_⟩⟩
  intro row' hrow' hsc
  have hmat := h.named runtime hrt id hn
  rcases haft : after id with _ | reservation
  · rcases hnew id row' hrow' with hold | ⟨rfl, row, hr, hpc, rfl⟩
    · exact hmat.row row' hold hsc
    · have hbef := (hg.eq_none id).mp haft
      cases hpr : isProtected db before id with
      | false => exact absurd hsc (by rw [happ row hr hpr]; exact Bool.false_ne_true)
      | true =>
        have hold : isApp row.scopeRef = true := by simpa [isProtected, hbef, hr] using hpr
        exact (hmat.row row hr hold).rebinds hbef (hpro row hr hpr hpc)
  · exact (hin id reservation row' haft hrow').fits (hmat.reservation reservation haft)

theorem getByRunId_insert (hr : db.runs.insert record = some runs) (id : String) :
    getByRunId { db with runs } id = (getByRunId db id).or (if record.runId == id then some record else none) :=
  find?_insert hr _

theorem coherent_insertRun (h : Coherent db after)
    (hrn : db.runs.insert record = some runs)
    (hr : ∀ reservation, after record.runId = some reservation → Within reservation record)
    (happ : after record.runId = none → isApp record.scopeRef = true → ∀ runtime ∈ db.runtimes.rows,
      runtime.activeRunId = some record.runId → Fits record (handleOf runtime)) :
    Coherent { db with runs } after := by
  have hnew : ∀ id row, getByRunId { db with runs } id = some row →
      getByRunId db id = some row ∨ id = record.runId ∧ row = record := by
    intro id row hrow
    rw [getByRunId_insert hrn] at hrow
    rcases Option.or_eq_some_iff.mp hrow with hold | ⟨-, hm⟩
    · exact .inl hold
    · split_ifs at hm with hid
      exact .inr ⟨(eq_of_beq hid).symm, (Option.some.inj hm).symm⟩
  refine ⟨fun id reservation row haft hrow => ?_, fun runtime hrt id hn =>
    ⟨(h.named runtime hrt id hn).reservation, fun row hrow hsc => ?_⟩⟩
  · rcases hnew id row hrow with hold | ⟨rfl, rfl⟩
    · exact h.reserved id reservation row haft hold
    · exact hr reservation haft
  · have hmat := h.named runtime hrt id hn
    rcases hnew id row hrow with hold | ⟨rfl, rfl⟩
    · exact hmat.row row hold hsc
    · rcases haft : after row.runId with _ | reservation
      · exact happ haft hsc runtime hrt hn
      · exact (hr reservation haft).fits (hmat.reservation reservation haft)

theorem coherent_runtimes {runtimes : RuntimeTable} (h : Coherent db after)
    (hr : ∀ runtime ∈ runtimes.rows, runtime ∈ db.runtimes.rows ∨ ∀ runId, runtime.activeRunId = some runId →
      Matches db after runId (handleOf runtime)) : Coherent { db with runtimes } after := by
  refine ⟨h.reserved, fun runtime hrt runId hn => ?_⟩
  have hm : Matches db after runId (handleOf runtime) := by
    rcases hr runtime hrt with hold | hnew
    · exact h.named runtime hold runId hn
    · exact hnew runId hn
  exact ⟨hm.reservation, hm.row⟩

end Rows

def fitsRuntime (row : HrcRunRecord) (runtime : HrcRuntimeSnapshot) : Bool :=
  runtime.hostSessionId == row.hostSessionId && runtime.generation == row.generation &&
    row.runtimeId.all (· == runtime.runtimeId)

/-- The calls the exclusion is claimed for. An unreserved app run takes no id a runtime of another tuple names; no run
becomes an app's by an update; a claim keeps the columns a reserved or app run has bound; a runtime that names such a run
changes its host session or generation only with its active run. -/
def Allowed (s : BrokerEventMapper) : Op → Prop
  | .create _ record => (s.reservations record.runId).isSome = true ∨ isApp record.scopeRef = false ∨
      ∀ runtime ∈ s.db.runtimes.rows, runtime.activeRunId = some record.runId → fitsRuntime record runtime = true
  | .bind _ runId patch => (patch.scopeRef.any isApp = true → (getByRunId s.db runId).isSome = true →
      isProtected s.db s.reservations runId = true)
  | .claim _ runId claim => isProtected s.db s.reservations runId = true → ∀ row ∈ getByRunId s.db runId,
      (row.runtimeId.isSome = true → claim.runtimeId.isSome = true) ∧
        (row.operationId.isSome = true → claim.operationId.isSome = true)
  | .updateRuntime _ runtimeId patch => patch.activeRunId.isSome = true ∨
      (patch.hostSessionId = none ∧ patch.generation = none) ∨
        ∀ row ∈ getByRuntimeId s.db runtimeId, row.activeRunId.all (!isProtected s.db s.reservations ·) = true
  | _ => True

instance (s : BrokerEventMapper) : (op : Op) → Decidable (Allowed s op)
  | .create .. => inferInstanceAs (Decidable (_ ∨ _ ∨ _))
  | .bind .. => inferInstanceAs (Decidable (_ → _ → _))
  | .claim .. => inferInstanceAs (Decidable (_ → _))
  | .updateRuntime .. => inferInstanceAs (Decidable (_ ∨ (_ ∧ _) ∨ _))
  | .reserve .. | .release .. | .insertRuntime .. | .updateRunId .. => isTrue trivial

def Op.token : Op → Option String
  | .reserve .. | .release .. => none
  | .create token _ | .bind token .. | .claim token .. | .insertRuntime token _ | .updateRuntime token ..
  | .updateRunId token .. => token

/-- A call rebinds a reserved or app run for the token's holder only, and makes a reserved run with the tuple reserved. -/
structure BindsByToken (op : Op) (s t : BrokerEventMapper) : Prop where
  bound : ∀ runId row, getByRunId s.db runId = some row → isProtected s.db s.reservations runId = true →
    ∃ row', getByRunId t.db runId = some row' ∧ Rebinds op.token s.reservations t.reservations runId row row'
  made : ∀ runId row', getByRunId s.db runId = none → getByRunId t.db runId = some row' → s.reservations runId ≠ none →
    Licensed op.token s.reservations t.reservations runId (runTuple row')

section Step

variable {s t : BrokerEventMapper} {op : Op}

theorem bindsByToken_of_runs (h : t.db.runs = s.db.runs) : BindsByToken op s t := by
  have hs : ∀ runId, getByRunId t.db runId = getByRunId s.db runId := fun runId => by rw [getByRunId, getByRunId, h]
  refine ⟨fun runId row hr _ => ⟨row, (hs runId).trans hr, .refl row⟩, fun runId row' hn hrow' _ => ?_⟩
  rw [hs, hn] at hrow'
  cases hrow'

theorem reserve_step (h : Coherent s.db s.reservations) (runId token hostSessionId : String) (generation : Nat) :
    let t := (reserveRunId runId token hostSessionId generation s).2
    Coherent t.db t.reservations ∧ t.db = s.db := by
  unfold reserveRunId
  rw [read_bind, query_bind]
  rcases hh : s.reservations runId with _ | held
  · cases hn : handleExists s.db runId with
    | true => exact ⟨h, rfl⟩
    | false =>
      obtain ⟨hrow, hnn⟩ : (getByRunId s.db runId).isSome = false ∧
          s.db.runtimes.rows.any (·.activeRunId == some runId) = false := by simpa [handleExists] using hn
      have hoth : ∀ id reservation, id ≠ runId →
          Function.update s.reservations runId (some { token, hostSessionId, generation }) id = some reservation →
          s.reservations id = some reservation := fun id reservation hne h => by rwa [update_of_ne hne] at h
      refine ⟨⟨fun id reservation row hr hf => ?_, fun runtime hrt id hnm => ?_⟩, rfl⟩
      · have hne : id ≠ runId := by
          rintro rfl
          have hms : (getByRunId s.db id).isSome = false := hrow
          rw [show getByRunId s.db id = some row from hf] at hms
          cases hms
        exact h.reserved id reservation row (hoth id reservation hne hr) hf
      · have hne : id ≠ runId := by
          rintro rfl
          have := List.any_eq_false.mp hnn runtime hrt
          simp [hnm] at this
        have hm := h.named runtime hrt id hnm
        exact ⟨fun reservation hr => hm.reservation reservation (hoth id reservation hne hr),
          hm.row⟩
  · exact ⟨h, rfl⟩

theorem release_step (h : Coherent s.db s.reservations) (runId token : String) :
    let t := (releaseRunId runId token s).2
    Coherent t.db t.reservations ∧ t.db = s.db := by
  unfold releaseRunId
  rw [read_bind]
  cases hh : (s.reservations runId).any (·.token == token) with
  | false => exact ⟨h, rfl⟩
  | true =>
    have hk : ∀ id reservation, Function.update s.reservations runId none id = some reservation →
        s.reservations id = some reservation := by
      intro id reservation hr
      by_cases hid : id = runId
      · subst hid
        rw [update_self] at hr
        cases hr
      · rwa [update_of_ne hid] at hr
    refine ⟨⟨fun id reservation row hr hrow => ?_, fun runtime hrt id hn => ?_⟩, rfl⟩
    · exact h.reserved id reservation row (hk id reservation hr) hrow
    · have hm := h.named runtime hrt id hn
      exact ⟨fun reservation hr => hm.reservation reservation (hk id reservation hr),
        hm.row⟩

variable {f : RuntimeTable → Option RuntimeTable} {current : Option HrcRuntimeSnapshot}
  {p : HrcRunRecord → Bool} {runtime : HrcRuntimeSnapshot} {patch : RuntimeUpdatePatch}
  {u : BrokerEventMapper} {writer : RunHandleWriter} {activeRunId : Option String}
  {record : HrcRunRecord} {reservations : Reservations} {runtimeId : String} {α : Type}

theorem bind_cases {β : Type} {m : M α} {f : α → M β} {out : Except HrcError β} (h : (m >>= f) s = (out, t)) :
    (∃ e, m s = (.error e, t) ∧ out = .error e) ∨ ∃ a u, m s = (.ok a, u) ∧ f a u = (out, t) := by
  rcases hm : m s with ⟨e | a, u⟩
  · rw [bind_error hm] at h
    cases h
    exact .inl ⟨e, rfl, rfl⟩
  · rw [bind_ok hm] at h
    exact .inr ⟨a, u, rfl, h⟩

theorem bind_readOnly_eq {β : Type} {m : M α} {f : α → M β} {out : Except HrcError β} (hf : ∀ a, ReadOnly (f a))
    (h : (m >>= f) s = (out, t)) : ∃ written, m s = (written, t) := by
  rcases bind_cases h with ⟨e, hm, -⟩ | ⟨a, u, hm, hr⟩
  · exact ⟨_, hm⟩
  · have hst := hf a u
    rw [hr] at hst
    exact ⟨_, hst ▸ hm⟩

theorem fits_of_fitsRuntime {row : HrcRunRecord} (h : fitsRuntime row runtime = true) :
    Fits row (handleOf runtime) := by
  simp only [fitsRuntime, Bool.and_eq_true, beq_iff_eq] at h
  obtain ⟨⟨hh, hg⟩, hrt⟩ := h
  refine ⟨hh, hg, fun runtimeId hbd => ?_⟩
  rw [hbd, Option.all_some, beq_iff_eq] at hrt
  rw [handleOf, hrt]

variable [Host]

theorem effect_bind_eq {f : Unit → M α} {out : Except HrcError α} (h : (effect >>= f) s = (out, t)) :
    (t.reservations = s.reservations ∧ t.db = s.db) ∨ f () { s with tick := s.tick + 1 } = (out, t) := by
  rcases he : effect s with ⟨e | ⟨⟩, u⟩
  · rw [bind_error he] at h
    unfold effect at he
    split at he <;> cases he
    cases h
    exact .inl ⟨rfl, rfl⟩
  · rw [bind_ok he] at h
    obtain rfl := effect_eq_ok he
    exact .inr h

theorem execute_eq {f : HrcRunRecord → HrcRunRecord} {out : Except HrcError Nat}
    (h : execute p f s = (out, t)) :
    t.reservations = s.reservations ∧ (t.db = s.db ∨ ∃ runs, s.db.runs.update p f = some runs ∧ t.db = { s.db with runs }) := by
  rcases effect_bind_eq h with ⟨hr, hdb⟩ | h
  · exact ⟨hr, .inl hdb⟩
  · unfold runUpdate at h
    split at h <;> cases h
    · exact ⟨rfl, .inr ⟨_, ‹_›, rfl⟩⟩
    · exact ⟨rfl, .inl rfl⟩

variable {token : Option String} {out : Except HrcError Unit} {runId : String}

theorem statement_insertRun_eq
    (h : statement (.insertRun record) s = (out, t)) :
    t.reservations = s.reservations ∧ (t.db = s.db ∨ ∃ runs, s.db.runs.insert record = some runs ∧ t.db = { s.db with runs }) := by
  rcases effect_bind_eq h with ⟨hr, hdb⟩ | h
  · exact ⟨hr, .inl hdb⟩
  · unfold runStatement at h
    split at h <;> cases h
    · rename_i db hrun
      obtain ⟨runs, hrn, rfl⟩ := Write.store_eq_ok.mp hrun
      exact ⟨rfl, .inr ⟨runs, hrn, rfl⟩⟩
    · exact ⟨rfl, .inl rfl⟩

theorem executeRuntimes_eq
    (h : executeRuntimes f s = (out, t)) :
    t.reservations = s.reservations ∧
      (t.db = s.db ∨ ∃ runtimes, f s.db.runtimes = some runtimes ∧ t.db = { s.db with runtimes }) := by
  rcases effect_bind_eq h with ⟨hr, hdb⟩ | h
  · exact ⟨hr, .inl hdb⟩
  · unfold storeRuntimes at h
    split at h <;> cases h
    · exact ⟨rfl, .inr ⟨_, ‹_›, rfl⟩⟩
    · exact ⟨rfl, .inl rfl⟩

theorem create_step (h : Coherent s.db s.reservations)
    (hok : Allowed s (.create token record)) {out : Except HrcError HrcRunRecord}
    (hi : RunOperations.insert token record s = (out, t)) :
    Coherent t.db t.reservations ∧ BindsByToken (.create token record) s t := by
  rcases bind_cases hi with ⟨e, hgr, -⟩ | ⟨_, u, hgr, hwr⟩ <;>
    obtain ⟨hdb, hg, hl⟩ := assertCanCreateRun_spec hgr
  · exact ⟨hdb ▸ coherent_guards h hg, bindsByToken_of_runs (by rw [hdb])⟩
  · have hc : Coherent s.db u.reservations := coherent_guards h hg
    obtain ⟨_, hs⟩ := bind_readOnly_eq
      (fun _ => (query_readOnly _).bind fun _ => requireRecord_readOnly _ _) hwr
    obtain ⟨hrs, hk | ⟨runs, hrn, hm⟩⟩ := statement_insertRun_eq hs
    · rw [hdb] at hk
      exact ⟨by rw [hk, hrs]; exact hc, bindsByToken_of_runs (by rw [hk])⟩
    · rw [hdb] at hrn hm
      refine ⟨?_, fun runId row hrow _ => ⟨row, ?_, .refl row⟩, fun runId row' hnn hrow' hr => ?_⟩
      · rw [hm, hrs]
        refine coherent_insertRun hc hrn (fun reservation haft => ?_) fun haft hsc runtime hrt hn => ?_
        · have hr : s.reservations record.runId ≠ none := fun hnn => by
            rw [(hg.eq_none _).mpr hnn] at haft
            cases haft
          exact (hl rfl hr).within haft
        · rcases hok with hr | hoth | hf
          · rw [(hg.eq_none _).mp haft] at hr
            cases hr
          · rw [hsc] at hoth
            cases hoth
          · exact fits_of_fitsRuntime (hf runtime hrt hn)
      · rw [hm, getByRunId_insert hrn, hrow, Option.some_or]
      · rw [hm, getByRunId_insert hrn, hnn, Option.none_or] at hrow'
        split_ifs at hrow' with hid
        obtain rfl := eq_of_beq hid
        obtain rfl := Option.some.inj hrow'
        rw [hrs]
        exact hl rfl hr

omit [Host] in
theorem effective_apply (current : Option HrcRunRecord) (patch : RunUpdatePatch) (row : HrcRunRecord) :
    ((effective current patch).apply row).runId = row.runId ∧
      runTuple ((effective current patch).apply row) = runTuple (patch.apply row) ∧
        ((effective current patch).apply row).scopeRef = patch.scopeRef.getD row.scopeRef := by
  unfold effective
  split
  · exact ⟨rfl, rfl, rfl⟩
  · split <;> exact ⟨rfl, rfl, rfl⟩

/-- An update of one run behind its binding guard. -/
theorem update_step (h : Coherent s.db s.reservations) (op : Op) {binding : RunBinding}
    {f : HrcRunRecord → HrcRunRecord}
    (hgr : assertRunBindingUpdate op.token runId binding s = (.ok (), u))
    {out : Except HrcError Nat} (he : execute p f u = (out, t)) (hf : ∀ r, (f r).runId = r.runId)
    (hp : ∀ r, p r = true → r.runId = runId)
    (hr : ∀ row, getByRunId s.db runId = some row → isProtected s.db s.reservations runId = true →
      Binds op.token s.reservations u.reservations runId row binding → Rebinds op.token s.reservations u.reservations runId row (f row))
    (happ : ∀ row, getByRunId s.db runId = some row → isProtected s.db s.reservations runId = false →
      isApp (f row).scopeRef = false) :
    Coherent t.db t.reservations ∧ BindsByToken op s t := by
  obtain ⟨hdb, hg, hbn⟩ := assertRunBindingUpdate_spec hgr
  have hc : Coherent s.db u.reservations := coherent_guards h hg
  obtain ⟨hrs, hk | ⟨runs, hrn, hm⟩⟩ := execute_eq he
  · rw [hdb] at hk
    exact ⟨by rw [hk, hrs]; exact hc, bindsByToken_of_runs (by rw [hk])⟩
  · rw [hdb] at hrn hm
    have hpro : ∀ row, getByRunId s.db runId = some row → isProtected s.db s.reservations runId = true →
        Rebinds op.token s.reservations u.reservations runId row (f row) := fun row hrow hpr =>
      hr row hrow hpr (hbn rfl row hrow hpr)
    refine ⟨?_, fun id row hrow hpr => ?_, fun id row' hn hrow' _ => ?_⟩
    · rw [hm, hrs]
      exact coherent_updateRun hc hg hrn hf hp (fun row hrow hpr _ => hpro row hrow hpr) happ
    · rw [hm, getByRunId_update hrn hf, hrow, hrs]
      by_cases hpc : p row = true
      · have hid : row.runId = id := by simpa using List.find?_some hrow
        obtain rfl : id = runId := hid.symm.trans (hp row hpc)
        exact ⟨f row, by rw [Option.map_some, if_pos hpc], hpro row hrow hpr⟩
      · exact ⟨row, by rw [Option.map_some, if_neg hpc], .refl row⟩
    · rw [hm, getByRunId_update hrn hf, hn] at hrow'
      cases hrow'

theorem bind_step (h : Coherent s.db s.reservations) {patch : RunUpdatePatch}
    (hok : Allowed s (.bind token runId patch)) {out : Except HrcError (Option HrcRunRecord)}
    (hu : RunOperations.update token runId patch s = (out, t)) :
    Coherent t.db t.reservations ∧ BindsByToken (.bind token runId patch) s t := by
  rcases bind_cases hu with ⟨e, hgr, -⟩ | ⟨⟨⟩, u, hgr, hwr⟩
  · obtain ⟨hdb, hg, -⟩ := assertRunBindingUpdate_spec hgr
    exact ⟨hdb ▸ coherent_guards h hg, bindsByToken_of_runs (by rw [hdb])⟩
  · rw [query_bind] at hwr
    obtain ⟨_, he⟩ := bind_readOnly_eq (fun _ => query_readOnly _) hwr
    refine update_step h (.bind token runId patch) hgr he (fun r => (effective_apply _ _ r).1) (fun r hr => by
      simpa using hr) (fun row hrow hpr hbn => hbn.update.congr (effective_apply _ _ row).2.1) fun row hrow hpr => ?_
    rw [(effective_apply _ _ row).2.2]
    obtain ⟨-, hsc⟩ : (s.reservations runId).isSome = false ∧ isApp row.scopeRef = false := by
      simpa [isProtected, hrow] using hpr
    rcases hp : patch.scopeRef with _ | scopeRef
    · exact hsc
    · cases happ : isApp scopeRef with
      | false => exact happ
      | true =>
        have hp' := hok (by rw [hp, Option.any_some, happ]) (by rw [hrow]; rfl)
        rw [hpr] at hp'
        cases hp'

theorem claim_step (h : Coherent s.db s.reservations) {claim : QueuedClaim}
    (hok : Allowed s (.claim token runId claim)) {out : Except HrcError Bool}
    (hc : claimQueued token runId claim s = (out, t)) :
    Coherent t.db t.reservations ∧ BindsByToken (.claim token runId claim) s t := by
  rcases bind_cases hc with ⟨e, hgr, -⟩ | ⟨⟨⟩, u, hgr, hwr⟩
  · obtain ⟨hdb, hg, -⟩ := assertRunBindingUpdate_spec hgr
    exact ⟨hdb ▸ coherent_guards h hg, bindsByToken_of_runs (by rw [hdb])⟩
  · obtain ⟨_, he⟩ := bind_readOnly_eq (fun _ => ReadOnly.pure _) hwr
    refine update_step h (.claim token runId claim) hgr he (fun _ => rfl) (fun r hr => ?_)
      (fun row hrow hp hbn => ?_) fun row hrow hp => ?_
    · simp only [isQueued, Bool.and_eq_true, beq_iff_eq] at hr
      exact hr.1
    · obtain ⟨hrt, hop⟩ := hok hp row hrow
      exact hbn.claim hrt hop
    · obtain ⟨-, hsc⟩ : (s.reservations runId).isSome = false ∧ isApp row.scopeRef = false := by
        simpa [isProtected, hrow] using hp
      exact hsc

theorem runtimes_step (hc : Coherent s.db u.reservations) (hdb : u.db = s.db)
    (he : executeRuntimes f u = (out, t))
    (hf : ∀ runtimes, f s.db.runtimes = some runtimes → ∀ runtime ∈ runtimes.rows, runtime ∈ s.db.runtimes.rows ∨
      ∀ runId, runtime.activeRunId = some runId → Matches s.db u.reservations runId (handleOf runtime)) :
    Coherent t.db t.reservations ∧ BindsByToken op s t := by
  obtain ⟨hr, hk | ⟨runtimes, hrts, hm⟩⟩ := executeRuntimes_eq he
  · rw [hdb] at hk
    exact ⟨by rw [hk, hr]; exact hc, bindsByToken_of_runs (by rw [hk])⟩
  · rw [hdb] at hrts hm
    refine ⟨?_, bindsByToken_of_runs (by rw [hm])⟩
    rw [hm, hr]
    exact coherent_runtimes hc (hf runtimes hrts)

theorem insertRuntime_step (h : Coherent s.db s.reservations) {record : HrcRuntimeSnapshot}
    {out : Except HrcError HrcRuntimeSnapshot} (hi : insertRuntime token record s = (out, t)) :
    Coherent t.db t.reservations ∧ BindsByToken (.insertRuntime token record) s t := by
  rcases bind_cases hi with ⟨e, hgr, -⟩ | ⟨⟨⟩, u, hgr, hwr⟩ <;>
    obtain ⟨hdb, hg, hm⟩ := assertCanNameActiveRun_spec hgr
  · exact ⟨hdb ▸ coherent_guards h hg, bindsByToken_of_runs (by rw [hdb])⟩
  · obtain ⟨_, he⟩ := bind_readOnly_eq
      (fun _ => (query_readOnly _).bind fun _ => requireRecord_readOnly _ _) hwr
    refine runtimes_step (coherent_guards h hg) hdb he fun runtimes hr runtime hrt => ?_
    rw [insert_rows hr] at hrt
    rcases List.mem_append.mp hrt with hold | hn
    · exact .inl hold
    · rw [List.mem_singleton.mp hn]
      exact .inr (hm rfl h)

omit [Host] in
theorem mem_updateRuntime {runtimes : RuntimeTable} {f : HrcRuntimeSnapshot → HrcRuntimeSnapshot}
    (hrts : s.db.runtimes.update (·.runtimeId == runtimeId) f = some runtimes)
    (hrt : runtime ∈ runtimes.rows) :
    runtime ∈ s.db.runtimes.rows ∨ ∃ row, getByRuntimeId s.db runtimeId = some row ∧ runtime = f row := by
  rw [update_rows hrts] at hrt
  obtain ⟨row, hr, rfl⟩ := List.mem_map.mp hrt
  by_cases hid : (row.runtimeId == runtimeId) = true
  · rw [if_pos hid]
    obtain ⟨found, hf⟩ : ∃ found, getByRuntimeId s.db runtimeId = some found :=
      Option.isSome_iff_exists.mp (List.find?_isSome.mpr ⟨row, hr, hid⟩)
    have hs : found.runtimeId = runtimeId := by simpa using List.find?_some hf
    obtain rfl : found = row := row_unique s.db.runtimes (fun r => some r.runtimeId) (List.mem_singleton_self _)
      (List.mem_of_find?_eq_some hf) hr (k := runtimeId) (congrArg some hs) (congrArg some (eq_of_beq hid))
    exact .inr ⟨found, hf, rfl⟩
  · rw [if_neg hid]
    exact .inl hr

omit [Host] in
theorem Matches.congr {db : Db} {writer' : RunHandleWriter}
    (h : Matches db reservations runId writer) (hrt : writer'.runtimeId = writer.runtimeId)
    (hh : writer'.hostSessionId = writer.hostSessionId) (hg : writer'.generation = writer.generation) :
    Matches db reservations runId writer' := by
  refine ⟨fun reservation hr => ?_, fun row hrow hsc => ?_⟩
  · rw [hh, hg, hrt]
    exact h.reservation reservation hr
  · obtain ⟨hh', hg', hrt'⟩ := h.row row hrow hsc
    exact ⟨hh.trans hh', hg.trans hg', fun _ hbd => hrt.trans (hrt' _ hbd)⟩

omit [Host] in
theorem Matches.of_free {db : Db}
    (h : isProtected db reservations runId = false) : Matches db reservations runId writer := by
  rw [isProtected, Bool.or_eq_false_iff] at h
  refine ⟨fun reservation hr => ?_, fun row hrow hsc => ?_⟩
  · rw [hr] at h
    cases h.1
  · rw [hrow, Option.any_some, hsc] at h
    cases h.2

omit [Host] in
theorem assertPatchedHandle_spec
    (h : assertPatchedHandle token current patch s = (out, t)) :
    t.db = s.db ∧ Guards token s.reservations t.reservations ∧
      (patch.activeRunId = none → t.reservations = s.reservations) ∧
      (out = .ok () → Coherent s.db s.reservations → ∀ row, current = some row → ∀ runId, patch.activeRunId = some runId →
        Matches s.db t.reservations runId
          { runtimeId := some row.runtimeId, operationId := patch.activeOperationId.or row.activeOperationId
            hostSessionId := patch.hostSessionId.getD row.hostSessionId
            generation := patch.generation.getD row.generation }) := by
  rcases current with _ | row
  · cases h
    exact ⟨rfl, .same rfl, fun _ => rfl, fun _ _ _ hn => by cases hn⟩
  · rcases hact : patch.activeRunId with _ | activeRunId <;> simp only [assertPatchedHandle, hact] at h
    · cases h
      exact ⟨rfl, .same rfl, fun _ => rfl, fun _ _ _ _ _ hn => by cases hn⟩
    · obtain ⟨hdb, hg, hm⟩ := assertCanNameActiveRun_spec h
      refine ⟨hdb, hg, fun hn => (by cases hn), fun hok hc row' hrow' runId hri => ?_⟩
      obtain rfl := Option.some.inj hrow'
      exact hm hok hc runId hri

theorem updateRuntime_step (h : Coherent s.db s.reservations)
    (hok : Allowed s (.updateRuntime token runtimeId patch))
    {out : Except HrcError (Option HrcRuntimeSnapshot)} (hu : updateRuntime token runtimeId patch s = (out, t)) :
    Coherent t.db t.reservations ∧ BindsByToken (.updateRuntime token runtimeId patch) s t := by
  unfold updateRuntime at hu
  rw [query_bind] at hu
  rcases bind_cases hu with ⟨e, hgr, -⟩ | ⟨⟨⟩, u, hgr, hwr⟩ <;>
    obtain ⟨hdb, hgrd, hs, hm⟩ := assertPatchedHandle_spec hgr
  · exact ⟨hdb ▸ coherent_guards h hgrd, bindsByToken_of_runs (by rw [hdb])⟩
  · obtain ⟨_, he⟩ := bind_readOnly_eq (fun _ => query_readOnly _) hwr
    refine runtimes_step (coherent_guards h hgrd) hdb he fun runtimes hrts runtime hrt => ?_
    rcases mem_updateRuntime hrts hrt with hold | ⟨row, hr, rfl⟩
    · exact .inl hold
    · refine .inr fun runId hnm => ?_
      have hact : (patch.activeRunId.or row.activeRunId) = some runId := by
        rw [← Runtimes.guardedPatch_activeRunId (getByRuntimeId s.db runtimeId)]
        exact hnm
      rcases hp : patch.activeRunId with _ | activeRunId <;> rw [hp] at hact
      · rw [hs hp]
        have hold := h.named row (List.mem_of_find?_eq_some hr) runId hact
        rcases hok with hn | ⟨hh, hg⟩ | hf
        · rw [hp] at hn
          cases hn
        · refine hold.congr rfl ?_ ?_
          · show patch.hostSessionId.getD row.hostSessionId = row.hostSessionId
            rw [hh, Option.getD_none]
          · show patch.generation.getD row.generation = row.generation
            rw [hg, Option.getD_none]
        · have hfr := hf row hr
          have hsm : row.activeRunId = some runId := hact
          rw [hsm, Option.all_some, Bool.not_eq_true'] at hfr
          exact .of_free hfr
      · obtain rfl := Option.some.inj hact
        exact (hm rfl h row hr activeRunId hp).congr rfl rfl rfl

omit [Host] in
theorem currentHandle_spec
    (h : Prog.forEach current.toList (fun row => assertCanNameActiveRun token activeRunId (handleOf row)) s = (out, t)) :
    t.db = s.db ∧ Guards token s.reservations t.reservations ∧
      (out = .ok () → Coherent s.db s.reservations → ∀ row, current = some row → ∀ runId, activeRunId = some runId →
        Matches s.db t.reservations runId (handleOf row)) := by
  rcases current with _ | row
  · cases h
    exact ⟨rfl, .same rfl, fun _ _ _ hnone => by cases hnone⟩
  · rcases bind_cases h with ⟨e, hname, rfl⟩ | ⟨⟨⟩, u, hname, hdone⟩ <;>
      obtain ⟨hdb, hgrd, hmat⟩ := assertCanNameActiveRun_spec hname
    · exact ⟨hdb, hgrd, fun hok => by cases hok⟩
    · cases hdone
      refine ⟨hdb, hgrd, fun _ hcoh row' hrow' runId hrunId => ?_⟩
      obtain rfl := Option.some.inj hrow'
      exact hmat rfl hcoh runId hrunId

theorem updateRunId_step (h : Coherent s.db s.reservations)
    {updatedAt : String} {out : Except HrcError (Option HrcRuntimeSnapshot)}
    (hu : updateRunId token runtimeId activeRunId updatedAt s = (out, t)) :
    Coherent t.db t.reservations ∧ BindsByToken (.updateRunId token runtimeId activeRunId updatedAt) s t := by
  unfold updateRunId at hu
  rw [query_bind] at hu
  rcases bind_cases hu with ⟨e, hgr, -⟩ | ⟨⟨⟩, u, hgr, hwr⟩ <;>
    obtain ⟨hdb, hg, hm⟩ := currentHandle_spec hgr
  · exact ⟨hdb ▸ coherent_guards h hg, bindsByToken_of_runs (by rw [hdb])⟩
  · obtain ⟨_, he⟩ := bind_readOnly_eq (fun _ => query_readOnly _) hwr
    refine runtimes_step (coherent_guards h hg) hdb he fun runtimes hrts runtime hrt => ?_
    rcases mem_updateRuntime hrts hrt with hold | ⟨row, hr, rfl⟩
    · exact .inl hold
    · exact .inr fun runId hn => (hm rfl h row hr runId hn).congr rfl rfl rfl

theorem ownership_step (h : Coherent s.db s.reservations) (hok : Allowed s op) :
    Coherent (step op s).db (step op s).reservations ∧ BindsByToken op s (step op s) := by
  cases op with
  | reserve runId token hostSessionId generation =>
    obtain ⟨hc, hdb⟩ := reserve_step h runId token hostSessionId generation
    exact ⟨hc, bindsByToken_of_runs (congrArg Db.runs hdb)⟩
  | release runId token =>
    obtain ⟨hc, hdb⟩ := release_step h runId token
    exact ⟨hc, bindsByToken_of_runs (congrArg Db.runs hdb)⟩
  | create token record => exact create_step h hok rfl
  | bind token runId patch => exact bind_step h hok rfl
  | claim token runId claim => exact claim_step h hok rfl
  | insertRuntime token record => exact insertRuntime_step h rfl
  | updateRuntime token runtimeId patch => exact updateRuntime_step h hok rfl
  | updateRunId token runtimeId activeRunId updatedAt => exact updateRunId_step h rfl

omit [Host] in
theorem coherent_empty : Coherent ({ db := {} } : BrokerEventMapper).db ({ db := {} } : BrokerEventMapper).reservations :=
  ⟨fun _ _ _ h => (by cases h), fun _ h => (by cases h)⟩

end Step

def sealedTuple (db : Db) (runId : String) : Option (String × String × Nat) :=
  (getByRunId db runId).bind fun row => row.runtimeId.map (·, row.hostSessionId, row.generation)

theorem BindsByToken.sealedTuple {op : Op} {s t : BrokerEventMapper} (h : BindsByToken op s t) {runId : String}
    {tuple : String × String × Nat} (hp : isProtected s.db s.reservations runId = true)
    (ht : RunIdOwnership.sealedTuple s.db runId = some tuple) : RunIdOwnership.sealedTuple t.db runId = some tuple := by
  obtain ⟨row, hrow, hbd⟩ := Option.bind_eq_some_iff.mp ht
  obtain ⟨runtimeId, hrt, rfl⟩ := Option.map_eq_some_iff.mp hbd
  obtain ⟨row', hrow', hr⟩ := h.bound runId row hrow hp
  have hk : row'.runtimeId = some runtimeId := by
    rcases hr.runtimeId with hs | ⟨hn, -⟩
    · exact hs.trans hrt
    · rw [hrt] at hn
      cases hn
  rw [RunIdOwnership.sealedTuple, hrow', Option.bind_some, hk, Option.map_some, hr.hostSessionId,
    hr.generation]

variable [Host]

/-- In every run of allowed calls a runtime that names a reserved or app run matches its row and its reservation; each call
binds such a run only for its token's holder, within the reserved tuple; and a sealed one keeps its tuple while it is
reserved or an app's. -/
theorem run_id_ownership (ops : List Op) (hallowed : Meets step Allowed ops { db := {} }) :
    let s := run step ops { db := {} }
    (∀ runtime ∈ s.db.runtimes.rows, ∀ runId, runtime.activeRunId = some runId →
        isProtected s.db s.reservations runId = true →
        (∀ row, getByRunId s.db runId = some row → Fits row (handleOf runtime)) ∧
          ∀ reservation, s.reservations runId = some reservation →
            runtime.hostSessionId = reservation.hostSessionId ∧ runtime.generation = reservation.generation ∧
              reservation.runtimeId = some runtime.runtimeId) ∧
      (∀ op, Allowed s op → BindsByToken op s (step op s)) ∧
      ∀ later runId tuple,
        Meets step (fun s op => Allowed s op ∧ isProtected s.db s.reservations runId = true) later s →
        sealedTuple s.db runId = some tuple → sealedTuple (run step later s).db runId = some tuple := by
  intro s
  have hc : Coherent s.db s.reservations :=
    run_invariant (I := fun s : BrokerEventMapper => Coherent s.db s.reservations)
      (fun _ _ h hop => (ownership_step h hop).1) coherent_empty hallowed
  refine ⟨fun runtime hrt runId hn hp => ?_, fun op hop => (ownership_step hc hop).2,
    fun later runId tuple hl ht => ?_⟩
  · have hm := hc.named runtime hrt runId hn
    refine ⟨fun row hrow => ?_, hm.reservation⟩
    rcases hr : s.reservations runId with _ | reservation
    · have hsc : isApp row.scopeRef = true := by simpa [isProtected, hr, hrow] using hp
      exact hm.row row hrow hsc
    · exact (hc.reserved runId reservation row hr hrow).fits (hm.reservation reservation hr)
  · exact (run_invariant
      (I := fun s : BrokerEventMapper => Coherent s.db s.reservations ∧ sealedTuple s.db runId = some tuple)
      (fun s op h hop => ⟨(ownership_step h.1 hop.1).1, (ownership_step h.1 hop.1).2.sealedTuple hop.2 h.2⟩)
      ⟨hc, ht⟩ hl).2

def birth : List Op :=
  [.reserve "run" "token" "host" 1,
    .insertRuntime (some "token") { runtimeId := "rt", hostSessionId := "host", generation := 1, activeRunId := some "run" },
    .create (some "token")
      { runId := "run", hostSessionId := "host", generation := 1, scopeRef := "app:gate", runtimeId := some "rt" },
    .release "run" "token"]

omit [Host] in
theorem run_id_ownership_birth :
    let _ := steadyHost
    (∀ row, getByRunId (run step birth { db := {} }).db "run" = some row → Fits row ⟨some "rt", none, "host", 1⟩) ∧
      sealedTuple (run step [.bind none "run" { runtimeId := some "other" }, .updateRunId none "rt" none "t"]
        (run step birth { db := {} })).db "run" = some ("rt", "host", 1) := by
  let _ := steadyHost
  obtain ⟨hn, -, hk⟩ := run_id_ownership birth (by decide +kernel)
  refine ⟨(hn { runtimeId := "rt", hostSessionId := "host", generation := 1, activeRunId := some "run" }
    (by decide +kernel) "run" rfl (by decide +kernel)).1, ?_⟩
  exact hk _ "run" _ (by decide +kernel) (by decide +kernel)

omit [Host] in
/-- An unreserved app run is made bound to a runtime without a token, though another tuple's runtime names its id. -/
theorem unreserved_app_run :
    let _ := steadyHost
    let s := run step
      [.insertRuntime none { runtimeId := "rt-1", hostSessionId := "host-1", generation := 1, activeRunId := some "run" },
        .create none
          { runId := "run", hostSessionId := "host-2", generation := 1, scopeRef := "app:gate", runtimeId := some "rt-2" }]
      { db := {} }
    s.reservations "run" = none ∧ isProtected s.db s.reservations "run" = true ∧
      sealedTuple s.db "run" = some ("rt-2", "host-2", 1) ∧
        s.db.runtimes.rows.map (fun r => (r.runtimeId, r.hostSessionId, r.activeRunId)) =
          [("rt-1", "host-1", some "run")] := by
  decide +kernel

end HrcRuntime.RunIdOwnership
