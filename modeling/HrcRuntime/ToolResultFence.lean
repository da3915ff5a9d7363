import HrcRuntime.Schedule
import HrcRuntime.ToolResultReadings

namespace HrcRuntime.ToolResultRewrites

open Json Keyed Records Mapper EventRepository LifecyclePayload

/-- What a write of a maintenance leaves: every row reads as before, and a row it wrote is backed by a whole blob that
holds what the row read. -/
structure Preserved (db db' : Database) : Prop where
  readings : ∀ key row, db.events.find key = some row →
    ∃ row', db'.events.find key = some row' ∧ Same (row'.reading db'.blobs) (row.reading db.blobs)
  backed : ∀ key row row', db.events.find key = some row → db'.events.find key = some row' → row' ≠ row →
    ∃ payload stub spill blob, row'.json = withResult payload stub ∧
      readToolResultSpillDescriptor (some stub) = some spill ∧ db'.blobs.find spill.blobId = some blob ∧
      blob.complete = true ∧ Same (.obj (payload.set "result" (row.view blob))) (row.reading db.blobs)

def Write.key : Write → Key
  | .spillBroker key _ _ _ => key
  | .spillLifecycle key _ _ _ _ => key
  | .restub key _ _ => key

def Row.names (row : Row) (blobId : String) : Bool :=
  (readToolResultSpillDescriptor (row.json.value.member "result")).any (·.blobId == blobId)

def insertAllowed (db : Database) (key : Key) (blob : ToolResultBlobRecord) : Bool :=
  match db.blobs.find blob.blobId with
  | none => db.events.rows.all fun row => !row.names blob.blobId
  | some stored => (db.events.find key).all fun row =>
    row.json.spill.isSome || (stored.complete && deepEqual (row.view stored) blob.resultJson)

variable [Host]

def Visit.throws : Visit → Bool
  | .fail => true
  | _ => false

def allowed (s : State) : Action → Bool
  | .advance id busy => (s.calls id).all fun c =>
    match c.phase with
    | .visiting row _ _ => !(c.operation.visit s.db row).throws
    | .writing w _ _ _ _ => busy || ((commit s.db w).isSome && w.blob.all (insertAllowed s.db w.key))
    | _ => true
  | _ => true

def Evolves (row row' : Row) : Prop := row' = row ∨ ¬ Settled row.json ∧ ∃ json, Settled json ∧ row' = row.setJson json

section Evolution

variable {r r' r'' : Row}

theorem Evolves.refl (r : Row) : Evolves r r := .inl rfl

theorem Evolves.trans (h : Evolves r r') (h' : Evolves r' r'') : Evolves r r'' := by
  rcases h with rfl | ⟨hn, json, hs, rfl⟩
  · exact h'
  · rcases h' with rfl | ⟨hn', -⟩
    · exact .inr ⟨hn, json, hs, rfl⟩
    · rw [Row.json_setJson] at hn'
      exact absurd hs hn'

theorem Evolves.eq_of_unspilled (h : Evolves r r') (hsp : r'.json.spill = none) : r' = r := by
  rcases h with rfl | ⟨-, json, hs, rfl⟩
  · rfl
  · rw [Row.json_setJson] at hsp
    have hsm := hs.spilled
    rw [hsp] at hsm
    cases hsm

theorem Evolves.eq_of_settled (h : Evolves r r') (hs : Settled r.json) : r' = r :=
  h.resolve_right fun h => h.1 hs

end Evolution

structure Grown (db db' : Database) : Prop where
  rows : ∀ key row, db.events.find key = some row → ∃ row', db'.events.find key = some row' ∧ Evolves row row'
  blobs : ∀ id blob, db.blobs.find id = some blob → db'.blobs.find id = some blob

theorem Grown.refl (db : Database) : Grown db db := ⟨fun _ row h => ⟨row, h, .refl row⟩, fun _ _ h => h⟩

theorem Grown.trans {db db' db'' : Database} (h : Grown db db') (h' : Grown db' db'') : Grown db db'' := by
  refine ⟨fun key row hr => ?_, fun id blob hbl => h'.blobs id blob (h.blobs id blob hbl)⟩
  obtain ⟨row', hrow', he⟩ := h.rows key row hr
  obtain ⟨row'', hrow'', he'⟩ := h'.rows key row' hrow'
  exact ⟨row'', hrow'', he.trans he'⟩

structure Found (db : Database) (row : Row) (payload : Fields) (result : Json) : Prop where
  value : row.json.value = .obj payload
  result : payload.lookup "result" = some result
  fresh : row.json.spill = none
  stored : ∃ row', db.events.find row.key = some row' ∧ Evolves row row'

inductive Judged (db : Database) : Write → Prop
  | broker {invocationId seq type runtimeId json payload result}
      (h : Found db (.broker invocationId seq type runtimeId json) payload result) :
      Judged db (.spillBroker (.broker invocationId seq) runtimeId payload result)
  | own {hrcSeq kind rowRuntimeId json runtimeId payload result spill}
      (h : Found db (.lifecycle hrcSeq kind rowRuntimeId json) payload result) (hkind : spill.kind = .lifecycleCanonical) :
      Judged db (.spillLifecycle (.lifecycle hrcSeq) runtimeId payload result spill)
  | shared {hrcSeq kind rowRuntimeId json runtimeId payload result spill blob}
      (h : Found db (.lifecycle hrcSeq kind rowRuntimeId json) payload result) (hkind : spill.kind = .brokerRaw)
      (hblob : db.blobs.find spill.blobId = some blob) (hcomplete : blob.complete = true) (hraw : blob.kind = .brokerRaw)
      (hequal : deepEqual (toolResultFromBrokerResult (some blob.resultJson)) result = true) :
      Judged db (.spillLifecycle (.lifecycle hrcSeq) runtimeId payload result spill)
  | restub {key before payload result spill blob}
      (hvalue : before.value = .obj payload) (hresult : payload.lookup "result" = some result)
      (hread : readToolResultSpillDescriptor (some result) = some spill)
      (hblob : db.blobs.find spill.blobId = some blob) (hcomplete : blob.complete = true) :
      Judged db (.restub key before (withResult payload (restub result spill)))

section Growth

variable {db db' : Database} {w : Write} {row : Row} {payload : Fields} {result : Json}

theorem Found.mono (h : Found db row payload result) (hgr : Grown db db') : Found db' row payload result := by
  refine ⟨h.value, h.result, h.fresh, ?_⟩
  obtain ⟨row', hrow', he⟩ := h.stored
  obtain ⟨row'', hrow'', he'⟩ := hgr.rows _ row' hrow'
  exact ⟨row'', hrow'', he.trans he'⟩

theorem Judged.mono (h : Judged db w) (hgr : Grown db db') : Judged db' w := by
  cases h with
  | broker h => exact .broker (h.mono hgr)
  | own h hk => exact .own (h.mono hgr) hk
  | shared h hk hbl hc hr he =>
    exact .shared (h.mono hgr) hk (hgr.blobs _ _ hbl) hc hr he
  | restub hv hres hrd hbl hc =>
    exact .restub hv hres hrd (hgr.blobs _ _ hbl) hc

theorem Found.eq {stored : Row} (h : Found db row payload result) (hs : db.events.find row.key = some stored)
    (hsp : stored.json.spill = none) : stored = row := by
  obtain ⟨row', hrow', he⟩ := h.stored
  cases Option.some.inj (hrow'.symm.trans hs)
  exact he.eq_of_unspilled hsp

end Growth

section Commits

variable {db db' : Database} {blobs : Store ToolResultBlobRecord (·.blobId)} {key : Key} {guard : JsonText → Bool}
  {json : JsonText} {w : Write}

omit [Host] in
theorem find_rewrite (k : Key) : (Database.rewrite { db with blobs } key guard json).events.find k =
    (db.events.find k).map fun row => if k = key ∧ guard row.json = true then row.setJson json else row := by
  unfold Database.rewrite
  dsimp only
  by_cases hk : k = key
  · subst hk
    rw [find_amend_self]
    simp
  · rw [find_amend_of_ne _ hk]
    simp [hk]

omit [Host] in
theorem preserved_rewrite
    (hoth : ∀ row ∈ db.events.rows, ∀ spill, readToolResultSpillDescriptor (row.json.value.member "result") = some spill →
      blobs.find spill.blobId = db.blobs.find spill.blobId)
    (hsl : ∀ row, db.events.find key = some row → guard row.json = true →
      ∃ payload stub spill blob, json = withResult payload stub ∧ readToolResultSpillDescriptor (some stub) = some spill ∧
        blobs.find spill.blobId = some blob ∧ blob.complete = true ∧
        Same (.obj (payload.set "result" (row.view blob))) (row.reading db.blobs)) :
    Preserved db (Database.rewrite { db with blobs } key guard json) := by
  constructor
  · intro k row hrow
    rw [find_rewrite, hrow, Option.map_some]
    refine ⟨_, rfl, ?_⟩
    by_cases hwr : k = key ∧ guard row.json = true
    · rw [if_pos hwr]
      obtain ⟨rfl, hg⟩ := hwr
      obtain ⟨payload, stub, spill, blob, rfl, hr, hbl, hc, hs⟩ := hsl row hrow hg
      unfold Row.reading
      rw [Row.json_setJson, Row.view_setJson]
      change Same (hydrated blobs row.view (.obj (payload.set "result" stub))) _
      rw [hydrated_stub (lookup_set "result" stub payload) hr hbl hc, set_set]
      exact hs
    · rw [if_neg hwr]
      change Same (row.reading blobs) _
      rw [show row.reading blobs = row.reading db.blobs from hydrated_congr (hoth row (find_mem hrow).1)]
      exact .refl _
  · intro k row row' hrow hrow' hne
    rw [find_rewrite, hrow, Option.map_some] at hrow'
    split at hrow'
    · rename_i hwr
      obtain ⟨rfl, hg⟩ := hwr
      cases hrow'
      obtain ⟨payload, stub, spill, blob, hj, h⟩ := hsl row hrow hg
      exact ⟨payload, stub, spill, blob, (row.json_setJson json).trans hj, h⟩
    · exact absurd (Option.some.inj hrow').symm hne

theorem grown_rewrite (hbl : ∀ id blob, db.blobs.find id = some blob → blobs.find id = some blob) (hs : Settled json)
    (hg : ∀ row : Row, guard row.json = true → Settled row.json → json = row.json) :
    Grown db (Database.rewrite { db with blobs } key guard json) := by
  refine ⟨fun k row hr => ?_, hbl⟩
  rw [find_rewrite, hr, Option.map_some]
  refine ⟨_, rfl, ?_⟩
  by_cases hwr : k = key ∧ guard row.json = true
  · rw [if_pos hwr]
    by_cases h : Settled row.json
    · rw [hg row hwr.2 h, row.setJson_json]
      exact .refl row
    · exact .inr ⟨h, json, hs, rfl⟩
  · rw [if_neg hwr]
    exact .refl row

theorem Settled.again {before : JsonText} {payload : Fields} {result : Json} {spill : ToolResultSpillDescriptor}
    (h : Settled before) (hv : before.value = .obj payload) (hres : payload.lookup "result" = some result)
    (hr : readToolResultSpillDescriptor (some result) = some spill) : withResult payload (restub result spill) = before := by
  obtain ⟨p, r, s, ⟨hrd', hrs⟩, rfl⟩ := h
  have hp : p.set "result" r = payload := by
    cases hv
    rfl
  subst hp
  rw [lookup_set] at hres
  cases hres
  cases hrd'.symm.trans hr
  rw [hrs]
  unfold withResult
  rw [set_set]

variable {row : Row} {payload : Fields} {result : Json} {blob : ToolResultBlobRecord} {spill : ToolResultSpillDescriptor}

omit [Host] in
theorem blob_own {runtimeId : String} (h : spill.kind = .lifecycleCanonical) :
    (Write.spillLifecycle key runtimeId payload result spill).blob = some
      { blobId := spill.blobId, runtimeId, kind := .lifecycleCanonical, bytes := spill.bytes, resultJson := result } := by
  unfold Write.blob
  dsimp only
  rw [h, if_pos rfl]

omit [Host] in
theorem blob_shared {runtimeId : String} (h : spill.kind = .brokerRaw) :
    (Write.spillLifecycle key runtimeId payload result spill).blob = none := by
  unfold Write.blob
  dsimp only
  rw [h, if_neg (by decide)]

/-- A judged result, spilled to the blob inserted for it. -/
theorem preserved_spill (hf : Found db row payload result) (hk : row.key = key) (hid : spill.blobId = blob.blobId)
    (hres : blob.resultJson = result) (hv : row.view blob = result) (hc : blob.complete = true)
    (hok : insertAllowed db key blob = true) : Preserved db
      ((db.insertBlob blob).rewrite key (·.spill.isNone) (withResult payload (createToolResultSpillStub result spill))) := by
  subst hk
  have hj : ∀ stored, db.events.find row.key = some stored → stored.json.spill.isNone = true →
      stored = row ∧ stored.reading db.blobs = .obj payload := by
    intro stored hsto hsp
    have heq := hf.eq hsto (Option.isNone_iff_eq_none.mp hsp)
    subst heq
    refine ⟨rfl, ?_⟩
    unfold Row.reading
    rw [hydrated_unspilled hf.fresh]
    exact hf.value
  have hr := (stub_created result spill).1
  unfold insertAllowed at hok
  cases hsto : db.blobs.find blob.blobId with
  | none =>
    rw [hsto] at hok
    refine preserved_rewrite (fun other hoth s hs => find_add_of_ne fun h => ?_) fun stored hrow hsp => ?_
    · have hn := List.all_eq_true.mp hok other hoth
      unfold Row.names at hn
      rw [hs] at hn
      simp [h] at hn
    · obtain ⟨rfl, hrd⟩ := hj stored hrow hsp
      refine ⟨payload, _, spill, blob, rfl, hr, ?_, hc, ?_⟩
      · rw [hid]
        exact find_add_self hsto
      · rw [hrd, hv, set_lookup payload hf.result]
        exact .refl _
  | some stored =>
    rw [hsto] at hok
    have hadd : db.blobs.add blob = db.blobs := add_eq_self (by rw [hsto]; rfl)
    refine preserved_rewrite (fun other _ s _ => by rw [hadd]) fun row' hrow hsp => ?_
    obtain ⟨rfl, hrd⟩ := hj row' hrow hsp
    dsimp only at hok
    rw [hrow, Option.all_some, Option.isNone_iff_eq_none.mp hsp, Option.isSome_none, Bool.false_or,
      Bool.and_eq_true] at hok
    refine ⟨payload, _, spill, stored, rfl, hr, ?_, hok.1, ?_⟩
    · rw [hid, hadd]
      exact hsto
    · have hset : (Json.obj payload) = .obj (payload.set "result" result) := by rw [set_lookup payload hf.result]
      rw [hrd, hset]
      refine Same.set (same_of_deepEqual _ _ ?_)
      rw [← hres]
      exact hok.2

theorem preserved_commit (hj : Judged db w) (hok : w.blob.all (insertAllowed db w.key) = true)
    (hc : commit db w = some db') : Preserved db db' := by
  cases hj with
  | broker hf =>
    unfold commit at hc
    dsimp only at hc
    cases hbl : Write.blob (.spillBroker _ _ _ _) with
    | none =>
      rw [hbl] at hc
      cases hc
    | some blob =>
      rw [hbl] at hc hok
      cases hc
      unfold Write.blob at hbl
      dsimp only at hbl
      obtain ⟨toolCallId, -, rfl⟩ := Option.map_eq_some_iff.mp hbl
      exact preserved_spill hf rfl rfl rfl rfl rfl hok
  | own hf hk =>
    unfold commit at hc
    cases hc
    rw [blob_own hk] at hok ⊢
    exact preserved_spill hf rfl rfl rfl rfl rfl hok
  | @shared hrcSeq kind rowRuntimeId json _ payload _ spill blob hf hk hbl hcm hr he =>
    unfold commit at hc
    cases hc
    rw [blob_shared hk]
    refine preserved_rewrite (fun _ _ _ _ => rfl) fun stored hrow hsp => ?_
    have heq := hf.eq hrow (Option.isNone_iff_eq_none.mp hsp)
    subst heq
    refine ⟨payload, _, spill, blob, rfl, (stub_created _ spill).1, hbl, hcm, ?_⟩
    unfold Row.reading
    rw [hydrated_unspilled hf.fresh, hf.value]
    have hs := set_lookup payload hf.result
    rw [← hs, set_set]
    refine Same.set (same_of_deepEqual _ _ ?_)
    unfold Row.view
    dsimp only
    rw [if_pos hr]
    exact he
  | @restub _ before payload result spill blob hv hres hrd hbl hcm =>
    unfold commit at hc
    cases hc
    refine preserved_rewrite (fun _ _ _ _ => rfl) fun stored hrow hg => ?_
    refine ⟨payload, _, spill, blob, rfl, (stub_restub result spill).1, hbl, hcm, ?_⟩
    simp only [Bool.and_eq_true, beq_iff_eq] at hg
    unfold Row.reading
    rw [hg.1.1, hv, hydrated_stub hres hrd hbl hcm]
    exact .refl _

theorem grown_commit (hj : Judged db w) (hc : commit db w = some db') : Grown db db' := by
  have hsp : ∀ (payload : Fields) (result : Json) (spill : ToolResultSpillDescriptor) (row : Row),
      row.json.spill.isNone = true → Settled row.json →
        withResult payload (createToolResultSpillStub result spill) = row.json := by
    intro payload result spill row hn hs
    have hsm := hs.spilled
    rw [Option.isNone_iff_eq_none.mp hn] at hsm
    cases hsm
  have had : ∀ (blob : ToolResultBlobRecord) id stored, db.blobs.find id = some stored →
      (db.blobs.add blob).find id = some stored := fun _ _ _ h => find_add_of_some h
  cases hj with
  | broker hf =>
    unfold commit at hc
    obtain ⟨blob, -, rfl⟩ := Option.map_eq_some_iff.mp hc
    exact grown_rewrite (had blob) ⟨_, _, _, stub_created _ _, rfl⟩ fun row => hsp _ _ _ row
  | own hf hk =>
    unfold commit at hc
    cases hc
    rw [blob_own hk]
    exact grown_rewrite (had _) ⟨_, _, _, stub_created _ _, rfl⟩ fun row => hsp _ _ _ row
  | shared hf hk =>
    unfold commit at hc
    cases hc
    rw [blob_shared hk]
    exact grown_rewrite (fun _ _ h => h) ⟨_, _, _, stub_created _ _, rfl⟩ fun row => hsp _ _ _ row
  | restub hv hres hr =>
    unfold commit at hc
    cases hc
    refine grown_rewrite (fun _ _ h => h) ⟨_, _, _, stub_restub _ _, rfl⟩ fun row hg hs => ?_
    simp only [Bool.and_eq_true, beq_iff_eq] at hg
    rw [hg.1.1] at hs ⊢
    exact hs.again hv hres hr

end Commits

end HrcRuntime.ToolResultRewrites
