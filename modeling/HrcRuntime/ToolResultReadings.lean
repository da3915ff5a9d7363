import HrcRuntime.ToolResultRewrites

namespace HrcRuntime.ToolResultRewrites

open Json Keyed KeysetPaging Records Mapper EventRepository

inductive Same : Json → Json → Prop
  | refl (v : Json) : Same v v
  | arr {left right : Items} (length : left.toList.length = right.toList.length)
      (each : ∀ (i : Nat) l r, left.toList[i]? = some l → right.toList[i]? = some r → Same l r) : Same (.arr left) (.arr right)
  | obj {left right : Fields} (keys : (objectKeys left).Perm (objectKeys right))
      (each : ∀ key l r, left.lookup key = some l → right.lookup key = some r → Same l r) : Same (.obj left) (.obj right)

section Fields

variable {fields : Fields} {key : String} {v w : Json}

theorem lookup_set (key : String) (v : Json) : (fields : Fields) → (fields.set key v).lookup key = some v
  | .nil => by simp [Fields.set, Fields.lookup]
  | .cons k u rest => by
      unfold Fields.set
      split
      · simp_all [Fields.lookup]
      · rename_i h
        simp only [Fields.lookup, if_neg h, lookup_set key v rest]

theorem set_set (key : String) (v w : Json) : (fields : Fields) → (fields.set key v).set key w = fields.set key w
  | .nil => by simp [Fields.set]
  | .cons k u rest => by
      by_cases h : k = key
      · simp [Fields.set, h]
      · simp [Fields.set, h, set_set key v w rest]

theorem set_lookup : (fields : Fields) → fields.lookup key = some v → fields.set key v = fields
  | .nil, h => by cases h
  | .cons k u rest, h => by
      by_cases hk : k = key
      · simp [Fields.lookup, hk] at h
        simp [Fields.set, hk, h]
      · simp [Fields.lookup, hk] at h
        simp [Fields.set, hk, set_lookup rest h]

theorem objectKeys_set (key : String) (v w : Json) : (fields : Fields) →
    objectKeys (fields.set key v) = objectKeys (fields.set key w)
  | .nil => rfl
  | .cons k u rest => by
      by_cases h : k = key
      · simp [Fields.set, h, objectKeys]
      · simp [Fields.set, h, objectKeys, objectKeys_set key v w rest]

theorem Same.member {left right : Fields} {l r : Json} (h : Same (.obj left) (.obj right)) (hl : left.lookup key = some l)
    (hr : right.lookup key = some r) : Same l r := by
  cases h with
  | refl =>
    rw [hl] at hr
    cases hr
    exact .refl l
  | obj keys each => exact each key l r hl hr

theorem Same.str {a b : String} (h : Same (.str a) (.str b)) : a = b := by
  cases h
  rfl

theorem Same.set (h : Same v w) : Same (.obj (fields.set key v)) (.obj (fields.set key w)) := by
  refine .obj (List.Perm.of_eq (objectKeys_set key v w fields)) fun k l r hl hr => ?_
  by_cases hk : k = key
  · subst hk
    rw [lookup_set] at hl hr
    cases hl
    cases hr
    exact h
  · rw [Fields.lookup_set_of_ne (Ne.symm hk)] at hl hr
    rw [hl] at hr
    cases hr
    exact .refl l

end Fields

mutual

theorem same_of_deepEqual : (left right : Json) → deepEqual left right = true → Same left right
  | .arr left, .arr right, h => by
      obtain ⟨hl, he⟩ := same_items left right h
      exact .arr hl he
  | .obj left, .obj right, h => by
      obtain ⟨hk, hf⟩ := Bool.and_eq_true_iff.mp h
      have hp : (objectKeys left).Perm (objectKeys right) :=
        (perm_sortBy compare _).symm.trans ((List.Perm.of_eq (beq_iff_eq.mp hk)).trans (perm_sortBy compare _))
      exact .obj hp (same_fields left right hf)
  | .null, right, h => by
      rw [show Json.null = right from beq_iff_eq.mp h]
      exact .refl right
  | .bool b, right, h => by
      rw [show Json.bool b = right from beq_iff_eq.mp h]
      exact .refl right
  | .num n, right, h => by
      rw [show Json.num n = right from beq_iff_eq.mp h]
      exact .refl right
  | .str s, right, h => by
      rw [show Json.str s = right from beq_iff_eq.mp h]
      exact .refl right
  | .arr left, .null, h | .arr left, .bool _, h | .arr left, .num _, h | .arr left, .str _, h | .arr left, .obj _, h => by
      cases (beq_iff_eq.mp h)
  | .obj left, .null, h | .obj left, .bool _, h | .obj left, .num _, h | .obj left, .str _, h | .obj left, .arr _, h => by
      cases (beq_iff_eq.mp h)

theorem same_items : (left right : Items) → deepEqualItems left right = true →
    left.toList.length = right.toList.length ∧
      ∀ (i : Nat) l r, left.toList[i]? = some l → right.toList[i]? = some r → Same l r
  | .nil, .nil, _ => ⟨rfl, fun i l r hl _ => by simp [Items.toList] at hl⟩
  | .cons left restLeft, .cons right restRight, h => by
      obtain ⟨hh, hrs⟩ := Bool.and_eq_true_iff.mp h
      obtain ⟨hlen, he⟩ := same_items restLeft restRight hrs
      refine ⟨by simp [Items.toList, hlen], fun i l r hl hr => ?_⟩
      cases i with
      | zero =>
        simp [Items.toList] at hl hr
        subst hl hr
        exact same_of_deepEqual left right hh
      | succ i =>
        simp [Items.toList] at hl hr
        exact he i l r hl hr
  | .nil, .cons _ _, h => by cases h
  | .cons _ _, .nil, h => by cases h

theorem same_fields : (left right : Fields) → deepEqualFields left right = true →
    ∀ key l r, left.lookup key = some l → right.lookup key = some r → Same l r
  | .nil, _, _ => fun key l r hl _ => by cases hl
  | .cons k v rest, right, h => fun key l r hl hr => by
      obtain ⟨hh, hrs⟩ := Bool.and_eq_true_iff.mp h
      by_cases hk : k = key
      · subst hk
        obtain ⟨w, hw, heq⟩ := (Option.any_eq_true _ _).mp hh
        rw [hw] at hr
        cases hr
        simp [Fields.lookup] at hl
        subst hl
        exact same_of_deepEqual _ _ heq
      · simp [Fields.lookup, hk] at hl
        exact same_fields rest right hrs key l r hl hr

end

section Stubs

theorem member_object (key : String) (entries : List (String × Option Json)) :
    (Json.object entries).member key = entries.findSome? fun e => if e.1 = key then e.2 else none := by
  unfold Json.member Json.object
  induction entries with
  | nil => rfl
  | cons e entries ih =>
    rw [List.findSome?_cons, ← ih, List.foldr_cons]
    by_cases hk : e.1 = key
    · cases hv : e.2 <;> simp [hk, Json.recordFields, Fields.lookup]
    · cases hv : e.2 <;> simp [hk, Json.recordFields, Fields.lookup]

theorem truncateUtf8_self (n : Nat) (l : List Char) : truncateUtf8 n (truncateUtf8 n l) = truncateUtf8 n l := by
  induction l generalizing n with
  | nil => rfl
  | cons c l ih =>
    by_cases h : c.utf8Size ≤ n
    · simp [truncateUtf8, h, ih]
    · simp [truncateUtf8, h]

def diagnostic (result : Json) (key : String) : Option Json :=
  match (result.member key).or (((result.member "details").getD .null).member key) with
  | some (.str text) => some (.str (String.ofList (truncateUtf8 256 text.toList)))
  | some (.arr _) => none
  | some (.obj _) => none
  | v => v

def descriptor (spill : ToolResultSpillDescriptor) : Json :=
  Json.object [("blobId", some (.str spill.blobId)), ("bytes", some (.ofNat spill.bytes)), ("kind", some (.str spill.kind.text))]

theorem spillDetails_eq (result : Json) (spill : ToolResultSpillDescriptor) : spillDetails result spill =
    Json.object ((spillDiagnosticKeys.map fun key => (key, diagnostic result key)) ++ [("spill", some (descriptor spill))]) := by
  cases result with
  | obj fields => rfl
  | null => rfl
  | bool b => rfl
  | num n => rfl
  | str s => rfl
  | arr items => rfl

theorem member_spill (result : Json) (spill : ToolResultSpillDescriptor) :
    (spillDetails result spill).member "spill" = some (descriptor spill) := by
  rw [spillDetails_eq, member_object]
  simp [spillDiagnosticKeys]

def stubOf (content result : Json) (spill : ToolResultSpillDescriptor) : Json :=
  Json.object [("content", some content), ("details", some (spillDetails result spill))]

variable {content result : Json} {spill : ToolResultSpillDescriptor} {key : String}

theorem member_spillDetails (hk : key ∈ spillDiagnosticKeys) :
    (spillDetails result spill).member key = diagnostic result key := by
  rw [spillDetails_eq, member_object]
  simp only [spillDiagnosticKeys, List.mem_cons, List.not_mem_nil, or_false] at hk
  rcases hk with rfl | rfl | rfl | rfl | rfl <;> simp [spillDiagnosticKeys] <;> cases diagnostic result _ <;> rfl

theorem diagnostic_stubOf (hk : key ∈ spillDiagnosticKeys) : diagnostic (stubOf content result spill) key = diagnostic result key := by
  have hown : (stubOf content result spill).member key = none := by
    simp only [spillDiagnosticKeys, List.mem_cons, List.not_mem_nil, or_false] at hk
    rcases hk with rfl | rfl | rfl | rfl | rfl <;> rfl
  have hd : (stubOf content result spill).member "details" = some (spillDetails result spill) := rfl
  unfold diagnostic
  rw [hown, hd, Option.none_or, Option.getD_some, member_spillDetails hk]
  unfold diagnostic
  cases (result.member key).or (((result.member "details").getD .null).member key) with
  | none => rfl
  | some v =>
    cases v with
    | str text => simp [truncateUtf8_self]
    | null => rfl
    | bool b => rfl
    | num n => rfl
    | arr items => rfl
    | obj fields => rfl

theorem spillDetails_stubOf : spillDetails (stubOf content result spill) spill = spillDetails result spill := by
  rw [spillDetails_eq, spillDetails_eq]
  refine congrArg (fun entries => Json.object (entries ++ _)) (List.map_congr_left fun key hk => ?_)
  rw [diagnostic_stubOf hk]

theorem read_stubOf : readToolResultSpillDescriptor (some (stubOf content result spill)) = some spill := by
  have hsp : ((stubOf content result spill).member "details").bind (·.member "spill") = some (descriptor spill) :=
    member_spill result spill
  unfold readToolResultSpillDescriptor
  simp only [bind, Option.bind_some, hsp]
  cases spill with
  | mk blobId bytes kind => cases kind <;> simp [descriptor, Json.object, Json.stringField, Json.member, Json.recordFields,
      Fields.lookup, Json.asString, Json.asNum, Json.ofNat, ToolResultBlobKind.text]

variable [Host]

theorem restub_eq (result : Json) (spill : ToolResultSpillDescriptor) : ∃ content, restub result spill = stubOf content result spill ∧
    ∃ items, content = .arr items := by
  unfold restub
  cases h : result.member "content" with
  | none => exact ⟨_, rfl, _, rfl⟩
  | some content =>
    cases content with
    | arr items => exact ⟨_, rfl, _, rfl⟩
    | null => exact ⟨_, rfl, _, rfl⟩
    | bool b => exact ⟨_, rfl, _, rfl⟩
    | num n => exact ⟨_, rfl, _, rfl⟩
    | str s => exact ⟨_, rfl, _, rfl⟩
    | obj fields => exact ⟨_, rfl, _, rfl⟩

def Stub (result : Json) (spill : ToolResultSpillDescriptor) : Prop :=
  readToolResultSpillDescriptor (some result) = some spill ∧ restub result spill = result

theorem stub_stubOf {items : Items} : Stub (stubOf (.arr items) result spill) spill := by
  refine ⟨read_stubOf, ?_⟩
  change stubOf (.arr items) (stubOf (.arr items) result spill) spill = _
  unfold stubOf
  rw [show spillDetails (Json.object _) spill = _ from spillDetails_stubOf]

theorem stub_created (result : Json) (spill : ToolResultSpillDescriptor) :
    Stub (createToolResultSpillStub result spill) spill := stub_stubOf

theorem stub_restub (result : Json) (spill : ToolResultSpillDescriptor) : Stub (restub result spill) spill := by
  obtain ⟨content, heq, items, rfl⟩ := restub_eq result spill
  rw [heq]
  exact stub_stubOf

def Settled (t : JsonText) : Prop :=
  ∃ payload result spill, Stub result spill ∧ t = withResult payload result

end Stubs

section Hydration

variable {blobs blobs' : Store ToolResultBlobRecord (·.blobId)} {content : ToolResultBlobRecord → Json} {fields : Fields}
  {result : Json} {spill : ToolResultSpillDescriptor} {blob : ToolResultBlobRecord} {t : JsonText}

theorem spill_of_read {r : Option Json} (h : readToolResultSpillDescriptor r = some spill) :
    ((r.bind (·.member "details")).bind (·.member "spill")).isSome = true := by
  cases hsp : (r.bind (·.member "details")).bind (·.member "spill") with
  | some v => rfl
  | none =>
    unfold readToolResultSpillDescriptor at h
    cases r with
    | none => cases h
    | some result =>
      rw [Option.bind_some] at hsp
      simp [hsp, bind] at h

theorem spill_withResult (h : readToolResultSpillDescriptor (some result) = some spill) :
    (withResult fields result).spill.isSome = true := by
  have hr : (withResult fields result).value.member "result" = some result := lookup_set "result" result fields
  unfold JsonText.spill
  rw [hr]
  exact spill_of_read h

theorem Settled.spilled [Host] (h : Settled t) : t.spill.isSome = true := by
  obtain ⟨payload, result, spill, ⟨hr, -⟩, rfl⟩ := h
  exact spill_withResult hr

theorem hydrated_unspilled (h : t.spill = none) : hydrated blobs content t.value = t.value := by
  unfold hydrated
  cases hv : t.value with
  | obj fields =>
    have hr : readToolResultSpillDescriptor (fields.lookup "result") = none := by
      cases hr : readToolResultSpillDescriptor (fields.lookup "result") with
      | none => rfl
      | some spill =>
        have hs := spill_of_read hr
        unfold JsonText.spill at h
        rw [hv] at h
        rw [show (fields.lookup "result") = (Json.obj fields).member "result" from rfl, h] at hs
        cases hs
    dsimp only
    rw [hr]
    rfl
  | null => rfl
  | bool b => rfl
  | num n => rfl
  | str s => rfl
  | arr items => rfl

theorem hydrated_stub (hl : fields.lookup "result" = some result)
    (hr : readToolResultSpillDescriptor (some result) = some spill) (hbl : blobs.find spill.blobId = some blob)
    (hc : blob.complete = true) : hydrated blobs content (.obj fields) = .obj (fields.set "result" (content blob)) := by
  unfold hydrated
  dsimp only
  rw [hl, hr, Option.bind_some, hbl, Option.filter_some, if_pos hc]

theorem hydrated_congr {payload : Json} (h : ∀ spill, readToolResultSpillDescriptor (payload.member "result") = some spill →
    blobs'.find spill.blobId = blobs.find spill.blobId) : hydrated blobs' content payload = hydrated blobs content payload := by
  unfold hydrated
  cases payload with
  | obj fields =>
    dsimp only
    cases hr : readToolResultSpillDescriptor (fields.lookup "result") with
    | none => rfl
    | some spill => rw [Option.bind_some, Option.bind_some, h spill hr]
  | null => rfl
  | bool b => rfl
  | num n => rfl
  | str s => rfl
  | arr items => rfl

end Hydration

end HrcRuntime.ToolResultRewrites
