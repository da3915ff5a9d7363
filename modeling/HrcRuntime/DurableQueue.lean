import HrcRuntime.Calls
import HrcRuntime.RunOperations
import HrcRuntime.Schedule
import Mathlib.Data.List.MinMax

namespace HrcRuntime.DurableQueue

open Json Records Relational Database Program Mapper RunRepository RunOperations Schedule
open List (mem_filterMap mem_cons_self map_map mem_map_of_mem mem_map mem_filter pairwise_map)

inductive QueueSource where
  | boot | semanticDm

def QueueSource.text : QueueSource → String
  | .boot => "boot"
  | .semanticDm => "semantic_dm"

structure EnqueueOptions where
  source : QueueSource
  runtimeId : Option String := none
  sourceMessageId : Option String := none
  responseFormat : Option Json := none
  admittedIntent : Option String := none
  submissionDoor : Option String := none

/-- The `DurableHeadlessTurnInput` a queued row carries as its correlation. -/
def durableInput (prompt : String) (options : EnqueueOptions) : Json :=
  .object
    [("kind", some (.str "durable_headless_turn_input")), ("prompt", some (.str prompt)),
      ("source", some (.str options.source.text)),
      ("admittedIntent", some (.str ((options.admittedIntent.or options.submissionDoor).getD "enqueue"))),
      ("sourceMessageId", options.sourceMessageId.map .str), ("responseFormat", options.responseFormat)]

/-- `(MAX(queued_input_seq) ?? 0) + 1`. -/
def nextQueueSeq (db : Db) : Nat := (db.runs.rows.filterMap (·.queuedInputSeq)).foldr max 0 + 1

def queuedRun (session : HrcSessionRecord) (runId now inputId : String) (queueSeq : Nat) (options : EnqueueOptions) :
    HrcRunRecord :=
  { runId, hostSessionId := session.hostSessionId, runtimeId := options.runtimeId, scopeRef := session.scopeRef
    laneRef := session.laneRef, generation := session.generation, transport := .headless, status := .queued
    acceptedAt := some now, updatedAt := now, queuedInputSeq := some queueSeq, dispatchedInputId := some inputId }

inductive Op where
  | enqueue (token : Option String) (session : HrcSessionRecord) (prompt runId : String) (options : EnqueueOptions)
  | snapshot (hostSessionId snapshotId updatedAt : String)
  | claim (token : Option String) (runId : String) (patch : QueuedClaim)
  | coalesce (runId : String) (updates : QueuedCoalesce)

def Op.snapshotId? : Op → Option String
  | .snapshot _ snapshotId _ => some snapshotId
  | _ => none

def members (s : BrokerEventMapper) (snapshotId : String) : List HrcRunRecord :=
  s.db.runs.rows.filter fun r => r.queueSnapshotId == some snapshotId

structure Unsnapshotted (s : BrokerEventMapper) : Prop where
  arrival : s.db.runs.rows.Pairwise fun a b => nullsFirst a.queuedInputSeq ≤ nullsFirst b.queuedInputSeq
  unsnapshotted : ∀ r ∈ s.db.runs.rows, r.queueSnapshotId = none

def enter (snapshotId updatedAt : String) (position : Nat) (r : HrcRunRecord) : HrcRunRecord :=
  { r with queueSnapshotId := some snapshotId, queueSnapshotPosition := some position, updatedAt }

def assigned (snapshotId updatedAt : String) : List (HrcRunRecord × Nat) → HrcRunRecord → HrcRunRecord
  | [], r => r
  | row :: pending, r =>
    assigned snapshotId updatedAt pending
      (if isPending row.1.runId r then enter snapshotId updatedAt row.2 r else r)

structure Drains (f : HrcRunRecord → HrcRunRecord) : Prop where
  status : ∀ r, (f r).status ≠ .queued
  runId : ∀ r, (f r).runId = r.runId
  queueSnapshotId : ∀ r, (f r).queueSnapshotId = r.queueSnapshotId
  queueSnapshotPosition : ∀ r, (f r).queueSnapshotPosition = r.queueSnapshotPosition
  queuedInputSeq : ∀ r, (f r).queuedInputSeq = r.queuedInputSeq

theorem claim_drains (patch : QueuedClaim) : Drains patch.apply :=
  ⟨fun _ h => (by cases h), fun _ => rfl, fun _ => rfl, fun _ => rfl, fun _ => rfl⟩

theorem coalesce_drains (updates : QueuedCoalesce) : Drains updates.apply :=
  ⟨fun _ h => (by cases h), fun _ => rfl, fun _ => rfl, fun _ => rfl, fun _ => rfl⟩

inductive Outcome (rows : List HrcRunRecord) : Op → List HrcRunRecord → Option String → Prop where
  | kept {op : Op} : Outcome rows op rows none
  | enqueued {op : Op} {r : HrcRunRecord} (hsnapshot : r.queueSnapshotId = none)
      (hseq : ∀ a ∈ rows, nullsFirst a.queuedInputSeq ≤ nullsFirst r.queuedInputSeq)
      (hfresh : ∀ a ∈ rows, a.runId ≠ r.runId) : Outcome rows op (rows ++ [r]) none
  | snapshotted {hostSessionId snapshotId updatedAt : String} {pending : List HrcRunRecord}
      (hpending : pending = orderBy (nullsFirst ·.queuedInputSeq) (rows.filter fun r =>
        r.hostSessionId == hostSessionId && r.status == .queued && r.queueSnapshotId.isNone)) :
      Outcome rows (.snapshot hostSessionId snapshotId updatedAt)
        (rows.map (assigned snapshotId updatedAt pending.zipIdx)) none
  | drained {op : Op} {runId : String} {f : HrcRunRecord → HrcRunRecord} {d : Option String}
      (hf : Drains f)
      (hd : ∀ id, d = some id → id = runId ∧ ∃ r ∈ rows, isQueued runId r = true) :
      Outcome rows op (rows.map fun r => if isQueued runId r then f r else r) d

theorem nextQueueSeq_le {s : BrokerEventMapper} {r : HrcRunRecord} (hr : r ∈ s.db.runs.rows) :
    nullsFirst r.queuedInputSeq ≤ nullsFirst (some (nextQueueSeq s.db)) := by
  cases hs : r.queuedInputSeq with
  | none => exact Nat.zero_le _
  | some n =>
    have hm : n ∈ s.db.runs.rows.filterMap (·.queuedInputSeq) := mem_filterMap.mpr ⟨r, hr, hs⟩
    have hle : n ≤ (s.db.runs.rows.filterMap (·.queuedInputSeq)).foldr max 0 := List.le_max_of_le' 0 hm (Nat.le_refl n)
    simp only [nullsFirst, nextQueueSeq, Option.map_some, Option.getD_some]
    omega

theorem runIds_ne (runs : RunTable) : runs.rows.Pairwise fun a b => a.runId ≠ b.runId := by
  refine runs.unique.imp fun {a b} h hab => h (fun r => some ("run_id", r.runId)) (by simp) ⟨rfl, ?_⟩
  dsimp only
  rw [hab]

section Assignment

variable {snapshotId updatedAt : String} {r : HrcRunRecord}

theorem assigned_of_some {pending : List (HrcRunRecord × Nat)} (h : r.queueSnapshotId.isSome = true) :
    assigned snapshotId updatedAt pending r = r := by
  induction pending with
  | nil => rfl
  | cons row pending ih =>
    have hr : isPending row.1.runId r = false := by
      rw [isPending, Option.isNone_eq_false_iff.mpr h, Bool.and_false]
    rw [assigned, hr]
    exact ih

theorem assigned_cases (snapshotId updatedAt : String) (pending : List (HrcRunRecord × Nat)) (r : HrcRunRecord) :
    assigned snapshotId updatedAt pending r = r ∨ ∃ row ∈ pending, isPending row.1.runId r = true ∧
      assigned snapshotId updatedAt pending r = enter snapshotId updatedAt row.2 r := by
  induction pending with
  | nil => exact .inl rfl
  | cons row pending ih =>
    by_cases hr : isPending row.1.runId r = true
    · refine .inr ⟨row, mem_cons_self, hr, ?_⟩
      rw [assigned, if_pos hr]
      exact assigned_of_some rfl
    · rw [assigned, if_neg hr]
      rcases ih with h | ⟨row', hm, h⟩
      · exact .inl h
      · exact .inr ⟨row', List.mem_cons_of_mem _ hm, h⟩

theorem assigned_keeps (snapshotId updatedAt : String) (pending : List (HrcRunRecord × Nat)) (r : HrcRunRecord) :
    (assigned snapshotId updatedAt pending r).runId = r.runId ∧
      (assigned snapshotId updatedAt pending r).status = r.status ∧
      (assigned snapshotId updatedAt pending r).queuedInputSeq = r.queuedInputSeq := by
  rcases assigned_cases snapshotId updatedAt pending r with h | ⟨row, -, -, h⟩ <;> rw [h]
  · exact ⟨rfl, rfl, rfl⟩
  · exact ⟨rfl, rfl, rfl⟩

theorem assigned_zipIdx {pending : List HrcRunRecord} (position : Nat)
    (hd : pending.Pairwise fun a b => a.runId ≠ b.runId)
    (hp : ∀ r ∈ pending, isPending r.runId r = true) :
    pending.map (assigned snapshotId updatedAt (pending.zipIdx position)) =
      (pending.zipIdx position).map fun row => enter snapshotId updatedAt row.2 row.1 := by
  induction pending generalizing position with
  | nil => rfl
  | cons r pending ih =>
    obtain ⟨hne, hd⟩ := List.pairwise_cons.mp hd
    have hs : isPending r.runId r = true := hp r mem_cons_self
    simp only [List.zipIdx_cons, List.map_cons, assigned]
    refine List.cons_eq_cons.mpr ⟨?_, ?_⟩
    · rw [if_pos hs]
      exact assigned_of_some rfl
    · rw [← ih (position + 1) hd fun r' hr' => hp r' (List.mem_cons_of_mem _ hr')]
      refine List.map_congr_left fun r' hr' => ?_
      rw [if_neg]
      simp [isPending, isQueued, (hne r' hr').symm]

end Assignment

variable [Host]

def enqueueDurableHeadlessTurnInput (token : Option String) (session : HrcSessionRecord) (prompt runId : String)
    (options : EnqueueOptions) : M Unit :=
  transaction do
    let existing ← query (getByRunId · runId)
    Prog.when existing.isNone do
      let queueSeq ← query nextQueueSeq
      let now ← Mapper.now
      let uuid ← randomUUID
      let _ ← RunOperations.insert token (queuedRun session runId now ("input-" ++ uuid) queueSeq options)
      statement (.setCorrelation runId (some (durableInput prompt options)))

def Op.exec : Op → M (Option String)
  | .enqueue token session prompt runId options => do
      enqueueDurableHeadlessTurnInput token session prompt runId options
      pure none
  | .snapshot hostSessionId snapshotId updatedAt => do
      let _ ← snapshotQueuedByHostSessionId hostSessionId snapshotId updatedAt
      pure none
  | .claim token runId patch => do
      let claimed ← claimQueued token runId patch
      pure (if claimed then some runId else none)
  | .coalesce runId updates => do
      let coalesced ← markQueuedCoalesced runId updates
      pure (if coalesced then some runId else none)

def step (op : Op) (s : BrokerEventMapper) : BrokerEventMapper := (op.exec s).2

def Op.drained (op : Op) (s : BrokerEventMapper) : Option String := (op.exec s).1.toOption.join

def drains : List Op → BrokerEventMapper → List String
  | [], _ => []
  | op :: ops, s => (op.drained s).toList ++ drains ops (step op s)

section Calls

variable {s t : BrokerEventMapper}

variable {token : Option String} {runId : String} {op : Op}

variable {f : HrcRunRecord → HrcRunRecord} {snapshotId updatedAt : String} {a : Unit}

omit [Host] in
theorem assertCanCreateRun_db {writer : RunHandleWriter}
    (h : RunOperations.assertCanCreateRun token runId writer s = (.ok a, t)) : t.db = s.db := by
  have hdb : (RunOperations.assertCanCreateRun token runId writer s).2.db = s.db :=
    assertCanCreateRun_keeps (I := fun db => db = s.db) s rfl
  rwa [h] at hdb

theorem insert_eq_ok {record a : HrcRunRecord}
    (h : RunOperations.insert token record s = (.ok a, t)) : t.db.runs.rows = s.db.runs.rows ++ [record] := by
  obtain ⟨_, u, hc, h⟩ := bind_eq_ok.mp h
  have hu := assertCanCreateRun_db hc
  obtain ⟨_, v, hs, h⟩ := bind_eq_ok.mp h
  obtain ⟨db, hr, rfl⟩ := statement_eq_ok hs
  have hrn := insert_rows (Write.run_runs hr)
  rw [hu] at hrn
  rw [query_bind] at h
  rw [(requireRecord_readOnly _ _).state h]
  exact hrn

theorem enqueue_outcome {session : HrcSessionRecord} {prompt : String}
    {options : EnqueueOptions}
    (h : enqueueDurableHeadlessTurnInput token session prompt runId options s = (.ok a, t)) :
    Outcome s.db.runs.rows op t.db.runs.rows none := by
  obtain ⟨u, hbd, rfl⟩ := Calls.transaction_eq_ok h
  rw [query_bind] at hbd
  cases hrun : getByRunId s.db runId with
  | some r =>
    rw [hrun] at hbd
    cases hbd
    exact .kept
  | none =>
    rw [hrun] at hbd
    have hn := now_bind_eq_ok hbd
    obtain ⟨uuid, v, hud, hin⟩ := bind_eq_ok.mp hn
    have hv := effect_bind_eq_ok hud
    cases hv
    obtain ⟨_, w, hi, hs⟩ := bind_eq_ok.mp hin
    have hrw := insert_eq_ok hi
    obtain ⟨db, hc, rfl⟩ := statement_eq_ok hs
    have hu := update_rows (Write.run_runs hc)
    have hoth : ∀ r ∈ s.db.runs.rows, r.runId ≠ runId := by
      intro r hr
      simpa using List.find?_eq_none.mp hrun r hr
    have hk : s.db.runs.rows.map (fun r => if r.runId == runId then
        { r with correlationJson := some (durableInput prompt options) } else r) = s.db.runs.rows := by
      refine (List.map_congr_left fun r hr => ?_).trans (List.map_id _)
      rw [if_neg (by simpa using hoth r hr)]
      rfl
    rw [hrw, List.map_append, hk, List.map_singleton, if_pos (by simp [queuedRun])] at hu
    dsimp only at hu ⊢
    rw [hu]
    exact .enqueued rfl (fun r hr => nextQueueSeq_le hr) hoth

theorem assignSnapshot_eq_ok {position : Nat}
    (h : assignSnapshot snapshotId updatedAt runId position s = (.ok a, t)) :
    t.db.runs.rows = s.db.runs.rows.map fun r => if isPending runId r then enter snapshotId updatedAt position r else r := by
  obtain ⟨changes, u, he, hc⟩ := bind_eq_ok.mp h
  obtain ⟨runs, hr, hu, -⟩ := execute_eq_ok he
  have ht : t = u := by
    unfold Prog.when at hc
    split at hc
    · cases hc
    · cases hc
      rfl
  rw [ht, hu]
  exact update_rows hr

theorem assignAll_eq_ok {pending : List (HrcRunRecord × Nat)}
    (h : Prog.forEach pending (fun row => assignSnapshot snapshotId updatedAt row.1.runId row.2) s = (.ok a, t)) :
    t.db.runs.rows = s.db.runs.rows.map (assigned snapshotId updatedAt pending) := by
  induction pending generalizing s with
  | nil =>
    cases h
    exact (List.map_id _).symm
  | cons row pending ih =>
    obtain ⟨_, u, hass, hr⟩ := bind_eq_ok.mp h
    rw [ih hr, assignSnapshot_eq_ok hass, map_map]
    rfl

theorem snapshot_outcome {hostSessionId : String} {rows : List HrcRunRecord}
    (h : snapshotQueuedByHostSessionId hostSessionId snapshotId updatedAt s = (.ok rows, t)) :
    Outcome s.db.runs.rows (.snapshot hostSessionId snapshotId updatedAt) t.db.runs.rows none := by
  obtain ⟨u, hbd, rfl⟩ := Calls.transaction_eq_ok h
  rw [query_bind] at hbd
  obtain ⟨_, v, hass, hr⟩ := bind_eq_ok.mp hbd
  cases hr
  cases hex : (listQueued s.db hostSessionId (·.queueSnapshotId.isSome)).head? with
  | some r =>
    rw [hex] at hass
    cases hass
    exact .kept
  | none =>
    rw [hex] at hass
    have hrw := assignAll_eq_ok hass
    dsimp only at hrw ⊢
    rw [hrw]
    exact .snapshotted rfl

theorem execute_outcome {n : Nat}
    (hf : Drains f) (h : execute (isQueued runId) f s = (.ok n, t)) :
    Outcome s.db.runs.rows op t.db.runs.rows (if n == 1 then some runId else none) := by
  obtain ⟨runs, hr, ht, hc⟩ := execute_eq_ok h
  rw [ht, update_rows hr]
  refine .drained hf fun id hid => ?_
  by_cases hn : n = 1
  · rw [if_pos (by simpa using hn)] at hid
    exact ⟨(Option.some.inj hid).symm, List.countP_pos_iff.mp (by omega)⟩
  · rw [if_neg (by simpa using hn)] at hid
    cases hid

theorem claim_outcome {patch : QueuedClaim} {claimed : Bool}
    (h : claimQueued token runId patch s = (.ok claimed, t)) :
    Outcome s.db.runs.rows op t.db.runs.rows (if claimed then some runId else none) := by
  obtain ⟨_, u, hbn, hc⟩ := bind_eq_ok.mp h
  obtain ⟨changes, v, he, hr⟩ := bind_eq_ok.mp hc
  cases hr
  rw [← assertRunBindingUpdate_db hbn]
  exact execute_outcome (claim_drains patch) he

theorem coalesce_outcome {updates : QueuedCoalesce} {coalesced : Bool}
    (h : markQueuedCoalesced runId updates s = (.ok coalesced, t)) :
    Outcome s.db.runs.rows op t.db.runs.rows (if coalesced then some runId else none) := by
  obtain ⟨changes, v, he, hr⟩ := bind_eq_ok.mp h
  cases hr
  exact execute_outcome (coalesce_drains updates) he

theorem execute_eq_error {p : HrcRunRecord → Bool} {e : HrcError}
    (h : execute p f s = (.error e, t)) : t.db = s.db := by
  rcases bind_eq_error.mp h with he | ⟨_, u, he, hu⟩
  · have hk : (effect s).2.db = s.db := effect_keeps (I := fun db => db = s.db) s rfl
    rwa [he] at hk
  · obtain rfl := effect_eq_ok he
    unfold runUpdate at hu
    split at hu
    · cases hu
    · cases hu
      rfl

theorem exec_error {e : HrcError} (h : op.exec s = (.error e, t)) : t.db = s.db := by
  cases op with
  | enqueue token session prompt runId options =>
    rcases bind_eq_error.mp h with he | ⟨_, _, _, hr⟩
    · exact Calls.transaction_eq_error he
    · cases hr
  | snapshot hostSessionId snapshotId updatedAt =>
    rcases bind_eq_error.mp h with hs | ⟨_, _, _, hr⟩
    · exact Calls.transaction_eq_error hs
    · cases hr
  | claim token runId patch =>
    rcases bind_eq_error.mp h with hc | ⟨_, _, _, hr⟩
    · rcases bind_eq_error.mp hc with hbn | ⟨_, u, hbn, hc⟩
      · have hk : ∀ binding, (assertRunBindingUpdate token runId binding s).2.db = s.db :=
          fun _ => assertRunBindingUpdate_keeps (I := fun db => db = s.db) s rfl
        simpa only [hbn] using hk { runtimeId := patch.runtimeId, operationId := patch.operationId }
      · rcases bind_eq_error.mp hc with hex | ⟨_, _, _, hr⟩
        · exact (execute_eq_error hex).trans (assertRunBindingUpdate_db hbn)
        · cases hr
    · cases hr
  | coalesce runId updates =>
    rcases bind_eq_error.mp h with hcl | ⟨_, _, _, hr⟩
    · rcases bind_eq_error.mp hcl with hex | ⟨_, _, _, hr⟩
      · exact execute_eq_error hex
      · cases hr
    · cases hr

theorem exec_outcome {d : Option String} (h : op.exec s = (.ok d, t)) :
    Outcome s.db.runs.rows op t.db.runs.rows d := by
  cases op with
  | enqueue token session prompt runId options =>
    obtain ⟨_, u, he, hr⟩ := bind_eq_ok.mp h
    cases hr
    exact enqueue_outcome he
  | snapshot hostSessionId snapshotId updatedAt =>
    obtain ⟨_, u, hs, hr⟩ := bind_eq_ok.mp h
    cases hr
    exact snapshot_outcome hs
  | claim token runId patch =>
    obtain ⟨_, u, hc, hr⟩ := bind_eq_ok.mp h
    cases hr
    exact claim_outcome hc
  | coalesce runId updates =>
    obtain ⟨_, u, hcl, hr⟩ := bind_eq_ok.mp h
    cases hr
    exact coalesce_outcome hcl

theorem step_outcome (op : Op) (s : BrokerEventMapper) :
    Outcome s.db.runs.rows op (step op s).db.runs.rows (op.drained s) := by
  unfold step Op.drained
  rcases h : op.exec s with ⟨e | d, t⟩
  · rw [exec_error h]
    exact .kept
  · exact exec_outcome h

end Calls

section Rows

omit [Host]

structure Kept (r r' : HrcRunRecord) : Prop where
  snapshot : r.queueSnapshotId.isSome = true →
    r'.queueSnapshotId = r.queueSnapshotId ∧ r'.queueSnapshotPosition = r.queueSnapshotPosition
  drained : r.status ≠ .queued → r'.status ≠ .queued

theorem Kept.refl (r : HrcRunRecord) : Kept r r := ⟨fun _ => ⟨rfl, rfl⟩, fun h => h⟩

theorem Kept.trans {a b c : HrcRunRecord} (hab : Kept a b) (hbc : Kept b c) : Kept a c := by
  refine ⟨fun h => ?_, fun h => hbc.drained (hab.drained h)⟩
  obtain ⟨hid, hp⟩ := hab.snapshot h
  obtain ⟨hid', hp'⟩ := hbc.snapshot (hid ▸ h)
  exact ⟨hid'.trans hid, hp'.trans hp⟩

variable {rows rows' : List HrcRunRecord} {op : Op} {d : Option String}

theorem Outcome.forward (h : Outcome rows op rows' d) {r : HrcRunRecord} (hr : r ∈ rows) :
    ∃ r' ∈ rows', r'.runId = r.runId ∧ Kept r r' := by
  cases h with
  | kept => exact ⟨r, hr, rfl, .refl r⟩
  | enqueued => exact ⟨r, List.mem_append_left _ hr, rfl, .refl r⟩
  | snapshotted hp =>
    obtain ⟨hri, hstatus, -⟩ := assigned_keeps _ _ _ r
    refine ⟨_, mem_map_of_mem hr, hri, fun h => ?_, fun h => hstatus ▸ h⟩
    rw [assigned_of_some h]
    exact ⟨rfl, rfl⟩
  | drained hf hd =>
    refine ⟨_, mem_map_of_mem hr, ?_⟩
    split
    · exact ⟨hf.runId r, fun _ => ⟨hf.queueSnapshotId r, hf.queueSnapshotPosition r⟩, fun _ => hf.status r⟩
    · exact ⟨rfl, .refl r⟩

theorem Outcome.backward (h : Outcome rows op rows' d) {r' : HrcRunRecord} (hr' : r' ∈ rows') {x : String}
    (hx : r'.queueSnapshotId = some x) : ∃ r ∈ rows, r.runId = r'.runId ∧
      (r.queueSnapshotId = some x ∨ op.snapshotId? = some x ∧ r.status = .queued) := by
  cases h with
  | kept => exact ⟨r', hr', rfl, .inl hx⟩
  | enqueued hs =>
    rcases List.mem_append.mp hr' with hr' | hr'
    · exact ⟨r', hr', rfl, .inl hx⟩
    · obtain rfl := List.mem_singleton.mp hr'
      rw [hs] at hx
      cases hx
  | snapshotted hp =>
    obtain ⟨r, hr, rfl⟩ := mem_map.mp hr'
    refine ⟨r, hr, (assigned_keeps _ _ _ r).1.symm, ?_⟩
    rcases assigned_cases _ _ _ r with h | ⟨row, -, hrow, h⟩ <;> rw [h] at hx
    · exact .inl hx
    · simp only [isPending, isQueued, Bool.and_eq_true, beq_iff_eq] at hrow
      exact .inr ⟨hx, hrow.1.2⟩
  | drained hf hd =>
    obtain ⟨r, hr, rfl⟩ := mem_map.mp hr'
    refine ⟨r, hr, ?_⟩
    split at hx
    · rw [if_pos ‹_›, hf.runId]
      exact ⟨rfl, .inl (hf.queueSnapshotId r ▸ hx)⟩
    · rw [if_neg ‹_›]
      exact ⟨rfl, .inl hx⟩

theorem Outcome.drained_row {runId : String} (h : Outcome rows op rows' (some runId)) :
    (∃ r ∈ rows, r.runId = runId ∧ r.status = .queued) ∧ ∃ r' ∈ rows', r'.runId = runId ∧ r'.status ≠ .queued := by
  cases h with
  | drained hf hd =>
    obtain ⟨rfl, r, hr, hque⟩ := hd runId rfl
    have hrow := hque
    simp only [isQueued, Bool.and_eq_true, beq_iff_eq] at hrow
    refine ⟨⟨r, hr, hrow⟩, _, mem_map_of_mem hr, ?_⟩
    rw [if_pos hque, hf.runId]
    exact ⟨hrow.1, hf.status r⟩

def positions (rows : List HrcRunRecord) (x : String) : List (Option Nat) :=
  (rows.filter fun r => r.queueSnapshotId == some x).map (·.queueSnapshotPosition)

variable {f : HrcRunRecord → HrcRunRecord}

theorem positions_map {x : String}
    (hf : ∀ r ∈ rows, ((f r).queueSnapshotId = some x ↔ r.queueSnapshotId = some x) ∧
      (r.queueSnapshotId = some x → (f r).queueSnapshotPosition = r.queueSnapshotPosition)) :
    positions (rows.map f) x = positions rows x := by
  have hfil : rows.filter ((fun r => r.queueSnapshotId == some x) ∘ f) =
      rows.filter fun r => r.queueSnapshotId == some x := by
    refine List.filter_congr fun r hr => ?_
    rw [Bool.eq_iff_iff]
    simpa using (hf r hr).1
  unfold positions
  rw [List.filter_map, hfil, map_map]
  refine List.map_congr_left fun r hr => ?_
  obtain ⟨hr, hx⟩ := mem_filter.mp hr
  exact (hf r hr).2 (by simpa using hx)

theorem orderBy_eq_self {l : List HrcRunRecord} {key : HrcRunRecord → Nat}
    (h : l.Pairwise fun a b => key a ≤ key b) : orderBy key l = l := h.insertionSort_eq

/-- A new snapshot numbers the rows it finds pending. -/
theorem positions_assigned {hostSessionId snapshotId updatedAt : String} {pending : List HrcRunRecord}
    (hd : rows.Pairwise fun a b => a.runId ≠ b.runId)
    (hp : pending = rows.filter fun r =>
      r.hostSessionId == hostSessionId && r.status == .queued && r.queueSnapshotId.isNone)
    (hfr : ∀ r ∈ rows, r.queueSnapshotId ≠ some snapshotId) :
    positions (rows.map (assigned snapshotId updatedAt pending.zipIdx)) snapshotId =
      (List.range pending.length).map some := by
  have hi : ∀ r ∈ pending, r ∈ rows ∧ isPending r.runId r = true := by
    intro r hr
    rw [hp] at hr
    obtain ⟨hr, hw⟩ := mem_filter.mp hr
    simp only [Bool.and_eq_true, and_assoc] at hw
    exact ⟨hr, by simp [isPending, isQueued, eq_of_beq hw.2.1, hw.2.2]⟩
  have hm : pending.map (assigned snapshotId updatedAt pending.zipIdx) =
      pending.zipIdx.map fun row => enter snapshotId updatedAt row.2 row.1 :=
    assigned_zipIdx 0 (hp ▸ hd.filter _) fun r hr => (hi r hr).2
  have hmm : rows.filter ((fun r => r.queueSnapshotId == some snapshotId) ∘
      assigned snapshotId updatedAt pending.zipIdx) = pending := by
    rw [hp]
    refine List.filter_congr fun r hr => ?_
    rw [← hp, Bool.eq_iff_iff]
    constructor
    · intro he
      rcases assigned_cases snapshotId updatedAt pending.zipIdx r with h | ⟨row, hrow, hque, -⟩
      · simp only [Function.comp_apply, h] at he
        exact absurd (eq_of_beq he) (hfr r hr)
      · have hpn := List.fst_mem_of_mem_zipIdx hrow
        simp only [isPending, isQueued, Bool.and_eq_true, beq_iff_eq] at hque
        have hs : r = row.1 :=
          List.inj_on_of_nodup_map (pairwise_map.mpr hd) hr (hi _ hpn).1 hque.1.1
        rw [← hs, hp] at hpn
        exact (mem_filter.mp hpn).2
    · intro hw
      have hr : r ∈ pending := hp ▸ mem_filter.mpr ⟨hr, hw⟩
      have he := mem_map_of_mem (f := assigned snapshotId updatedAt pending.zipIdx) hr
      rw [hm] at he
      obtain ⟨row, -, hrow⟩ := mem_map.mp he
      simp only [Function.comp_apply, ← hrow]
      exact beq_self_eq_true _
  unfold positions
  rw [List.filter_map, hmm, hm, map_map]
  refine Eq.trans ?_ (congrArg (List.map some) ((List.zipIdx_map_snd 0 pending).trans List.range_eq_range'.symm))
  rw [map_map]
  rfl

/-- The rows after `taken` snapshots: in arrival order, every snapshot numbered from zero in that order. -/
structure Queued (taken : List String) (rows : List HrcRunRecord) : Prop where
  arrival : rows.Pairwise fun a b => nullsFirst a.queuedInputSeq ≤ nullsFirst b.queuedInputSeq
  numbered : ∀ x, ∃ n, positions rows x = (List.range n).map some
  taken : ∀ r ∈ rows, ∀ x, r.queueSnapshotId = some x → x ∈ taken

theorem arrival_map (hf : ∀ r, (f r).queuedInputSeq = r.queuedInputSeq)
    (h : rows.Pairwise fun a b => nullsFirst a.queuedInputSeq ≤ nullsFirst b.queuedInputSeq) :
    (rows.map f).Pairwise fun a b => nullsFirst a.queuedInputSeq ≤ nullsFirst b.queuedInputSeq := by
  refine pairwise_map.mpr (h.imp fun {a b} h => ?_)
  rwa [hf, hf]

theorem Queued.outcome {taken : List String} (hque : Queued taken rows)
    (hd : rows.Pairwise fun a b => a.runId ≠ b.runId) (hfr : ∀ x ∈ op.snapshotId?, x ∉ taken)
    (h : Outcome rows op rows' d) : Queued (taken ++ op.snapshotId?.toList) rows' := by
  have htk : ∀ r' ∈ rows', ∀ x, r'.queueSnapshotId = some x → x ∈ taken ++ op.snapshotId?.toList := by
    intro r' hr' x hx
    obtain ⟨r, hr, -, hsn | ⟨hid, -⟩⟩ := h.backward hr' hx
    · exact List.mem_append_left _ (hque.taken r hr x hsn)
    · rw [hid]
      exact List.mem_append_right _ (List.mem_singleton_self x)
  refine ⟨?_, fun x => ?_, htk⟩
  · cases h with
    | kept => exact hque.arrival
    | enqueued hsn hs hn =>
      refine List.pairwise_append.mpr ⟨hque.arrival, List.pairwise_singleton _ _, fun a ha b hb => ?_⟩
      rw [List.mem_singleton.mp hb]
      exact hs a ha
    | snapshotted => exact arrival_map (fun r => (assigned_keeps _ _ _ r).2.2) hque.arrival
    | drained hf =>
      refine arrival_map (fun r => ?_) hque.arrival
      split
      · exact hf.queuedInputSeq r
      · rfl
  · cases h with
    | kept => exact hque.numbered x
    | @enqueued _ r hsn =>
      have hk : positions (rows ++ [r]) x = positions rows x := by
        simp [positions, hsn]
      rw [hk]
      exact hque.numbered x
    | @snapshotted hostSessionId snapshotId updatedAt pending hp =>
      by_cases hx : x = snapshotId
      · subst hx
        have hsr := hque.arrival.filter fun r =>
          r.hostSessionId == hostSessionId && r.status == .queued && r.queueSnapshotId.isNone
        rw [orderBy_eq_self hsr] at hp
        exact ⟨_, positions_assigned hd hp fun r hr hr' => hfr x rfl (hque.taken r hr x hr')⟩
      · rw [positions_map fun r hr => ?_]
        · exact hque.numbered x
        · rcases assigned_cases snapshotId updatedAt pending.zipIdx r with h | ⟨row, -, hrow, h⟩ <;> rw [h]
          · exact ⟨Iff.rfl, fun _ => rfl⟩
          · simp only [isPending, Bool.and_eq_true, Option.isNone_iff_eq_none] at hrow
            simp [enter, hrow.2, Ne.symm hx]
    | drained hf =>
      rw [positions_map fun r hr => ?_]
      · exact hque.numbered x
      · split
        · rw [hf.queueSnapshotId, hf.queueSnapshotPosition]
          exact ⟨Iff.rfl, fun _ => rfl⟩
        · exact ⟨Iff.rfl, fun _ => rfl⟩

end Rows

section Runs

variable {s : BrokerEventMapper} {ops : List Op}

variable {r : HrcRunRecord} {taken : List String}

theorem step_queued {op : Op} (h : Queued taken s.db.runs.rows)
    (hfr : ∀ x ∈ op.snapshotId?, x ∉ taken) :
    Queued (taken ++ op.snapshotId?.toList) (step op s).db.runs.rows :=
  h.outcome (runIds_ne _) hfr (step_outcome op s)

theorem run_queued (h : Queued taken s.db.runs.rows)
    (hi : (taken ++ ops.filterMap Op.snapshotId?).Nodup) :
    Queued (taken ++ ops.filterMap Op.snapshotId?) (run step ops s).db.runs.rows := by
  induction ops generalizing s taken with
  | nil => simpa [run] using h
  | cons op ops ih =>
    have hsp : (op :: ops).filterMap Op.snapshotId? = op.snapshotId?.toList ++ ops.filterMap Op.snapshotId? := by
      rw [List.filterMap_cons]
      cases op.snapshotId? <;> rfl
    rw [hsp, ← List.append_assoc] at hi ⊢
    have hfr : ∀ x ∈ op.snapshotId?, x ∉ taken := by
      intro x hx htk
      have hd := List.disjoint_of_nodup_append hi.of_append_left
      exact hd htk (by simpa using hx)
    exact ih (step_queued h hfr) hi

theorem run_forward (ops : List Op) (hr : r ∈ s.db.runs.rows) :
    ∃ r' ∈ (run step ops s).db.runs.rows, r'.runId = r.runId ∧ Kept r r' := by
  induction ops generalizing s r with
  | nil => exact ⟨r, hr, rfl, .refl r⟩
  | cons op ops ih =>
    obtain ⟨a, ha, hid, hk⟩ := (step_outcome op s).forward hr
    obtain ⟨b, hb, hid', hk'⟩ := ih ha
    exact ⟨b, hb, hid'.trans hid, hk.trans hk'⟩

theorem run_backward {x : String} (hx : x ∉ ops.filterMap Op.snapshotId?) {r' : HrcRunRecord}
    (hr' : r' ∈ members (run step ops s) x) : ∃ r ∈ members s x, r.runId = r'.runId := by
  induction ops generalizing s with
  | nil => exact ⟨r', hr', rfl⟩
  | cons op ops ih =>
    have hop : op.snapshotId? ≠ some x := fun h => hx (mem_filterMap.mpr ⟨op, mem_cons_self, h⟩)
    obtain ⟨a, ha, hid⟩ := ih (fun h => hx (by
      obtain ⟨b, hb, hbx⟩ := mem_filterMap.mp h
      exact mem_filterMap.mpr ⟨b, List.mem_cons_of_mem _ hb, hbx⟩)) hr'
    obtain ⟨ha, hax⟩ := mem_filter.mp ha
    obtain ⟨b, hb, hid', hbx | ⟨hn, -⟩⟩ := (step_outcome op s).backward ha (eq_of_beq hax)
    · exact ⟨b, mem_filter.mpr ⟨hb, by simp [hbx]⟩, hid'.trans hid⟩
    · exact absurd hn hop

theorem not_mem_drains (hr : r ∈ s.db.runs.rows) (hstatus : r.status ≠ .queued) :
    r.runId ∉ drains ops s := by
  induction ops generalizing s r with
  | nil => exact List.not_mem_nil
  | cons op ops ih =>
    have hout := step_outcome op s
    obtain ⟨r', hr', hid, hk⟩ := hout.forward hr
    rw [drains, List.mem_append]
    rintro (hn | hl)
    · have hd : op.drained s = some r.runId := by simpa using hn
      rw [hd] at hout
      obtain ⟨⟨a, ha, haid, haq⟩, -⟩ := hout.drained_row
      have hs := List.inj_on_of_nodup_map (pairwise_map.mpr (runIds_ne s.db.runs)) ha hr haid
      exact hstatus (hs ▸ haq)
    · exact ih hr' (hk.drained hstatus) (hid ▸ hl)

theorem drains_nodup (ops : List Op) (s : BrokerEventMapper) : (drains ops s).Nodup := by
  induction ops generalizing s with
  | nil => exact List.nodup_nil
  | cons op ops ih =>
    have hout := step_outcome op s
    rw [drains]
    cases hd : op.drained s with
    | none => exact ih _
    | some runId =>
      rw [hd] at hout
      obtain ⟨-, r, hr, rfl, hstatus⟩ := hout.drained_row
      exact List.nodup_cons.mpr ⟨not_mem_drains hr hstatus, ih _⟩

omit [Host] in
theorem Unsnapshotted.queued (h : Unsnapshotted s) : Queued [] s.db.runs.rows := by
  refine ⟨h.arrival, fun x => ⟨0, ?_⟩, fun r hr x hx => ?_⟩
  · unfold positions
    rw [List.filter_eq_nil_iff.mpr fun r hr => by simp [h.unsnapshotted r hr]]
    rfl
  · rw [h.unsnapshotted r hr] at hx
    cases hx

theorem member_waiting (hs : Unsnapshotted s) (hi : (ops.filterMap Op.snapshotId?).Nodup) {x : String}
    (hr : r ∈ members (run step ops s) x) :
    ∃ before hostSessionId updatedAt after, ops = before ++ .snapshot hostSessionId x updatedAt :: after ∧
      ∃ r' ∈ (run step before s).db.runs.rows, r'.runId = r.runId ∧ r'.status = .queued := by
  obtain ⟨hrow, hx⟩ := mem_filter.mp hr
  have hopen := (run_queued hs.queued hi).taken r hrow x (eq_of_beq hx)
  obtain ⟨op, hop, hopx⟩ := mem_filterMap.mp hopen
  obtain ⟨before, after, rfl⟩ := List.append_of_mem hop
  rw [List.filterMap_append, List.filterMap_cons_some hopx] at hi
  have haft : x ∉ after.filterMap Op.snapshotId? := (List.nodup_cons.mp hi.of_append_right).1
  have hbef : x ∉ before.filterMap Op.snapshotId? := fun h =>
    List.disjoint_of_nodup_append hi h mem_cons_self
  cases op with
  | snapshot hostSessionId snapshotId updatedAt =>
    obtain rfl : snapshotId = x := Option.some.inj hopx
    refine ⟨before, hostSessionId, updatedAt, after, rfl, ?_⟩
    rw [run_append] at hr
    obtain ⟨a, ha, hid⟩ := run_backward (s := step _ (run step before s)) haft hr
    obtain ⟨ha, hax⟩ := mem_filter.mp ha
    obtain ⟨b, hb, hid', hbx | ⟨-, hque⟩⟩ := (step_outcome _ _).backward ha (eq_of_beq hax)
    · have hopen := (run_queued hs.queued hi.of_append_left).taken b hb _ hbx
      exact absurd hopen hbef
    · exact ⟨b, hb, hid'.trans hid, hque⟩
  | enqueue => cases hopx
  | claim => cases hopx
  | coalesce => cases hopx

/-- Over any calls on a queue, in any order: a run that enters a snapshot keeps that snapshot and its position;
every member was waiting when its snapshot was opened; a snapshot numbers its members from zero in arrival order;
and no run is drained twice. -/
theorem queue_drained_once (hstart : Unsnapshotted s) (hids : (ops.filterMap Op.snapshotId?).Nodup) :
    (∀ before after, ops = before ++ after → ∀ x, ∀ r ∈ members (run step before s) x,
      ∃ r' ∈ members (run step ops s) x, r'.runId = r.runId ∧ r'.queueSnapshotPosition = r.queueSnapshotPosition) ∧
    (∀ x, ∀ r ∈ members (run step ops s) x, ∃ before hostSessionId updatedAt after,
      ops = before ++ .snapshot hostSessionId x updatedAt :: after ∧
        ∃ r' ∈ (run step before s).db.runs.rows, r'.runId = r.runId ∧ r'.status = .queued) ∧
    (∀ x, ∃ n, (members (run step ops s) x).map (·.queueSnapshotPosition) = (List.range n).map some) ∧
    (run step ops s).db.runs.rows.Pairwise (fun a b => nullsFirst a.queuedInputSeq ≤ nullsFirst b.queuedInputSeq) ∧
    (drains ops s).Nodup := by
  have hque := run_queued hstart.queued hids
  refine ⟨?_, fun x r hr => member_waiting hstart hids hr, hque.numbered, hque.arrival, drains_nodup ops s⟩
  intro before after hops x r hr
  obtain ⟨hr, hx⟩ := mem_filter.mp hr
  have hsm : r.queueSnapshotId = some x := eq_of_beq hx
  obtain ⟨r', hr', hid, hk⟩ := run_forward after hr
  obtain ⟨hs, hp⟩ := hk.snapshot (by rw [hsm]; rfl)
  rw [← run_append, ← hops] at hr'
  exact ⟨r', mem_filter.mpr ⟨hr', by rw [hs]; exact hx⟩, hid, hp⟩

end Runs

def sampleOps : List Op :=
  [.enqueue none { hostSessionId := "host" } "first" "run-1" { source := .boot },
    .enqueue none { hostSessionId := "host" } "second" "run-2" { source := .semanticDm },
    .snapshot "host" "queue-snapshot-1" "2026-01-01T00:00:01.000Z",
    .enqueue none { hostSessionId := "host" } "third" "run-3" { source := .semanticDm },
    .claim none "run-2" { runtimeId := some "rt", invocationId := some "inv", operationId := some "op"
                          dispatchedInputId := some "input", updatedAt := "2026-01-01T00:00:02.000Z" },
    .coalesce "run-1" { ownerRunId := "run-2", position := 0, completedAt := "2026-01-01T00:00:02.000Z"
                        updatedAt := "2026-01-01T00:00:02.000Z" },
    .claim none "run-2" { runtimeId := some "rt", invocationId := some "inv", operationId := some "op"
                          dispatchedInputId := some "input", updatedAt := "2026-01-01T00:00:03.000Z" }]

omit [Host] in
theorem queue_drained_once_sample :
    let _ := steadyHost
    (members (run step sampleOps Calls.sampleMapper) "queue-snapshot-1").map (·.runId) = ["run-1", "run-2"] ∧
      drains sampleOps Calls.sampleMapper = ["run-2", "run-1"] ∧ (drains sampleOps Calls.sampleMapper).Nodup := by
  let _ := steadyHost
  refine ⟨by decide +kernel, by decide +kernel, ?_⟩
  have h := queue_drained_once (s := Calls.sampleMapper) ⟨by decide, by decide⟩
    (show (sampleOps.filterMap Op.snapshotId?).Nodup by decide)
  exact h.2.2.2.2

end HrcRuntime.DurableQueue
