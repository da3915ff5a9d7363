import HrcRuntime.ContextReading
import HrcRuntime.Keyed
import HrcRuntime.Relational
import HrcRuntime.Schedule
import HrcRuntime.Utf8

namespace HrcRuntime.BlobIngest

open Records Relational Keyed Schedule Utf8 ContextReading

def hrcIngestMaxBlobChunkBytes : Nat := 256 * 1024

section Chunks

/-- `Buffer.toString('utf8')`; `replaced` decodes what is not UTF-8. -/
def toUtf8String (replaced : ByteArray → String) (bytes : ByteArray) : String :=
  (String.fromUTF8? bytes).getD (replaced bytes)

/-- Back up from `stop` to a byte that does not continue a character. -/
def backUp (bytes : ByteArray) : Nat → Nat
  | 0 => 0
  | stop + 1 =>
    if continuesAt bytes (stop + 1) then backUp bytes stop else stop + 1

/-- The chunk loop from `start`, for as many chunks as `fuel`. -/
def chunksFrom (replaced : ByteArray → String) (maximumBytes : Nat) (bytes : ByteArray) :
    (fuel start : Nat) → Except HrcError (List String)
  | 0, start => if start < bytes.size then .error (.fault "fuel") else .ok []
  | fuel + 1, start =>
    if start < bytes.size then
      let stop := backUp bytes (min bytes.size (start + maximumBytes))
      if stop = start then .error (.error "failed to split UTF-8 tool-result blob")
      else (chunksFrom replaced maximumBytes bytes fuel stop).map
        (toUtf8String replaced (bytes.extract start stop) :: ·)
    else .ok []

def chunkUtf8 (replaced : ByteArray → String) (maximumBytes : Nat) (value : String) : Except HrcError (List String) :=
  let bytes := value.toByteArray
  if bytes.size = 0 then .ok [""] else chunksFrom replaced maximumBytes bytes bytes.size 0

/-- `group_concat(chunk, '')`. -/
def groupConcat (chunks : List String) : String := chunks.foldr (· ++ ·) ""

variable {s : String}

theorem backUp_spec {stop : Nat} (hs : stop ≤ s.toByteArray.size) :
    backUp s.toByteArray stop ≤ stop ∧ (⟨backUp s.toByteArray stop⟩ : String.Pos.Raw).IsValid s ∧
      ∀ m, m ≤ stop → (⟨m⟩ : String.Pos.Raw).IsValid s → m ≤ backUp s.toByteArray stop := by
  induction stop with
  | zero => exact ⟨Nat.le_refl _, String.Pos.Raw.isValid_zero, fun m hm _ => hm⟩
  | succ stop ih =>
    cases hc : continuesAt s.toByteArray (stop + 1) with
    | true =>
      obtain ⟨hle, hv, hl⟩ := ih (by omega)
      rw [backUp, if_pos hc]
      refine ⟨by omega, hv, fun m hm hmv => ?_⟩
      rcases Nat.lt_or_eq_of_le hm with hm | rfl
      · exact hl m (by omega) hmv
      · rw [((isValid_iff s _).mp hmv).2] at hc
        cases hc
    | false =>
      rw [backUp, if_neg (by simp [hc])]
      exact ⟨Nat.le_refl _, (isValid_iff s _).mpr ⟨hs, hc⟩, fun m hm _ => hm⟩

variable {start maximumBytes : Nat}

theorem toUtf8String_extract (replaced : ByteArray → String) {stop : Nat} (hle : start ≤ stop) (hs : (⟨start⟩ : String.Pos.Raw).IsValid s)
    (hst : (⟨stop⟩ : String.Pos.Raw).IsValid s) :
    (toUtf8String replaced (s.toByteArray.extract start stop)).toByteArray = s.toByteArray.extract start stop := by
  have hv : (s.toByteArray.extract start stop).IsValidUTF8 :=
    (String.Pos.Raw.isValidUTF8_extract_iff ⟨start⟩ ⟨stop⟩ hle hst.le_rawEndPos).mpr (.inr ⟨hs, hst⟩)
  rw [toUtf8String, String.fromUTF8?, dif_pos hv]
  rfl

theorem groupConcat_nil (h : s.toByteArray.size ≤ start) :
    (groupConcat []).toByteArray = s.toByteArray.extract start s.toByteArray.size := by
  rw [ByteArray.extract_eq_empty_iff.mpr (by omega)]
  rfl

/-- Chunks of at least four bytes never split a character: the loop ends, and its chunks are the rest of the text. -/
theorem chunksFrom_spec (replaced : ByteArray → String) (hmax : 4 ≤ maximumBytes)
    (fuel : Nat)
    (hsta : (⟨start⟩ : String.Pos.Raw).IsValid s) (hf : s.toByteArray.size ≤ fuel + start) :
    ∃ chunks, chunksFrom replaced maximumBytes s.toByteArray fuel start = .ok chunks ∧
      (groupConcat chunks).toByteArray = s.toByteArray.extract start s.toByteArray.size ∧
      (∀ chunk ∈ chunks, chunk.utf8ByteSize ≤ maximumBytes) ∧ chunks.length ≤ fuel := by
  induction fuel generalizing start with
  | zero =>
    refine ⟨[], ?_, groupConcat_nil (by omega), fun chunk h => (by cases h), Nat.zero_le _⟩
    rw [chunksFrom, if_neg (by omega)]
  | succ fuel ih =>
    by_cases hd : start < s.toByteArray.size
    · obtain ⟨hle, hv, hl⟩ := backUp_spec (s := s) (Nat.min_le_left s.toByteArray.size (start + maximumBytes))
      obtain ⟨m, hlt, hn, hi, hm⟩ := next_boundary hsta hd
      have hmov := hl m (by omega) hm
      obtain ⟨chunks, hc, hcn, hs, hlen⟩ := ih hv (by omega)
      rw [chunksFrom, if_pos hd]
      dsimp only
      generalize backUp s.toByteArray (min s.toByteArray.size (start + maximumBytes)) = stop at *
      have hbyt := toUtf8String_extract replaced (by omega) hsta hv
      rw [if_neg (by omega), hc]
      refine ⟨_, rfl, ?_, fun chunk hch => ?_, Nat.succ_le_succ hlen⟩
      · rw [groupConcat, List.foldr_cons, String.toByteArray_append, hbyt]
        exact (congrArg (s.toByteArray.extract start stop ++ ·) hcn).trans
          (ByteArray.extract_eq_extract_append_extract stop (by omega) (by omega)).symm
      · rcases List.mem_cons.mp hch with rfl | hch
        · rw [← String.size_toByteArray, hbyt, ByteArray.size_extract]
          omega
        · exact hs chunk hch
    · refine ⟨[], ?_, groupConcat_nil (by omega), fun chunk h => (by cases h), Nat.zero_le _⟩
      rw [chunksFrom, if_neg hd]

theorem chunkUtf8_spec (replaced : ByteArray → String) (hm : 4 ≤ maximumBytes) (s : String) :
    ∃ chunks, chunkUtf8 replaced maximumBytes s = .ok chunks ∧ chunks ≠ [] ∧ groupConcat chunks = s ∧
      (∀ chunk ∈ chunks, chunk.utf8ByteSize ≤ maximumBytes) ∧ chunks.length ≤ s.utf8ByteSize + 1 := by
  by_cases he : s.toByteArray.size = 0
  · have hs : s = "" := String.toByteArray_inj.mp (ByteArray.size_eq_zero_iff.mp he)
    refine ⟨[""], if_pos he, List.cons_ne_nil _ _, ?_, fun chunk hch => ?_, Nat.le_add_left 1 _⟩
    · rw [hs]
      rfl
    · rw [List.mem_singleton.mp hch]
      exact Nat.zero_le _
  · have hz : (⟨0⟩ : String.Pos.Raw).IsValid s := String.Pos.Raw.isValid_zero
    obtain ⟨chunks, hc, hcn, hsz, hl⟩ :=
      chunksFrom_spec replaced hm s.toByteArray.size hz (Nat.le_refl _)
    rw [ByteArray.extract_zero_size] at hcn
    refine ⟨chunks, (if_neg he).trans hc, ?_, String.toByteArray_inj.mp hcn, hsz, Nat.le_succ_of_le hl⟩
    rintro rfl
    rw [← hcn] at he
    exact he rfl

end Chunks

/-- A `tool_result_blobs` row, all of which are complete. -/
structure ToolResultBlobRow where
  blobId : String
  runtimeId : String
  kind : ToolResultBlobKind
  bytes : Nat
  resultJson : String

/-- A `tool_result_blob_parts` row, and the event that carries it. -/
structure ToolResultBlobPart where
  blobId : String
  runtimeId : String
  kind : ToolResultBlobKind
  bytes : Nat
  part : Nat
  parts : Nat
  chunk : String
  deriving DecidableEq

variable {jsonValid : String → Bool}

structure LocalBlob (jsonValid : String → Bool) extends ToolResultBlobRow where
  blobId_ne : blobId ≠ ""
  runtimeId_ne : runtimeId ≠ ""
  bytes_eq : bytes = resultJson.utf8ByteSize
  bytes_safe : bytes < maxSafeInteger.toNat
  valid : jsonValid resultJson = true

/-- What `validateBatch` asks of a blob event. -/
def validPart (item : ToolResultBlobPart) : Bool :=
  item.blobId != "" && item.runtimeId != "" && item.bytes ≤ maxSafeInteger.toNat && item.part ≤ maxSafeInteger.toNat
    && item.parts ≤ maxSafeInteger.toNat && 1 ≤ item.parts && item.part < item.parts
    && item.chunk.utf8ByteSize ≤ hrcIngestMaxBlobChunkBytes

section Sender

/-- The parts `forwardBlobParts` posts. -/
def blobParts (replaced : ByteArray → String) (blob : LocalBlob jsonValid) : Except HrcError (List ToolResultBlobPart) :=
  (chunkUtf8 replaced hrcIngestMaxBlobChunkBytes blob.resultJson).map fun chunks => chunks.zipIdx.map fun chunk =>
    { blobId := blob.blobId, runtimeId := blob.runtimeId, kind := blob.kind, bytes := blob.bytes
      part := chunk.2, parts := chunks.length, chunk := chunk.1 }

def emitted (replaced : ByteArray → String) (sent : Store (LocalBlob jsonValid) (·.blobId)) : List ToolResultBlobPart :=
  sent.rows.flatMap fun blob => (blobParts replaced blob).toOption.getD []

structure PartsOf (blob : LocalBlob jsonValid) (parts : List ToolResultBlobPart) : Prop where
  addressed : ∀ p ∈ parts, p.blobId = blob.blobId ∧ p.runtimeId = blob.runtimeId ∧ p.kind = blob.kind ∧
    p.bytes = blob.bytes ∧ p.parts = parts.length
  admitted : ∀ p ∈ parts, validPart p = true
  numbered : parts.map (·.part) = List.range parts.length
  ne_nil : parts ≠ []
  whole : groupConcat (parts.map (·.chunk)) = blob.resultJson

theorem blobParts_spec (replaced : ByteArray → String) (blob : LocalBlob jsonValid) :
    ∃ parts, blobParts replaced blob = .ok parts ∧ PartsOf blob parts := by
  obtain ⟨chunks, hc, hne, hwh, hsz, hl⟩ :=
    chunkUtf8_spec replaced (show 4 ≤ hrcIngestMaxBlobChunkBytes by decide) blob.resultJson
  refine ⟨_, by rw [blobParts, hc]; rfl, ?_, ?_, ?_, ?_, ?_⟩
  · intro p hp
    obtain ⟨chunk, -, rfl⟩ := List.mem_map.mp hp
    simp
  · intro p hp
    obtain ⟨chunk, hch, rfl⟩ := List.mem_map.mp hp
    have hpr := List.snd_lt_of_mem_zipIdx hch
    have hf := hsz chunk.1 (List.fst_mem_of_mem_zipIdx hch)
    have hs := blob.bytes_safe
    rw [blob.bytes_eq] at hs
    simp only [validPart, Bool.and_eq_true, bne_iff_ne, decide_eq_true_eq]
    have hbyt := blob.bytes_eq
    refine ⟨⟨⟨⟨⟨⟨⟨blob.blobId_ne, blob.runtimeId_ne⟩, ?_⟩, ?_⟩, ?_⟩, ?_⟩, ?_⟩, hf⟩ <;> omega
  · rw [List.map_map, List.length_map, List.length_zipIdx, List.range_eq_range', ← List.zipIdx_map_snd 0 chunks]
    rfl
  · simpa using hne
  · rw [List.map_map]
    have hfst : chunks.zipIdx.map (ToolResultBlobPart.chunk ∘ fun chunk =>
        { blobId := blob.blobId, runtimeId := blob.runtimeId, kind := blob.kind, bytes := blob.bytes
          part := chunk.2, parts := chunks.length, chunk := chunk.1 }) = chunks :=
      List.zipIdx_map_fst 0 chunks
    rw [hfst]
    exact hwh

end Sender

section Receiver

structure Receiver where
  blobs : Store ToolResultBlobRow (·.blobId) := .empty
  parts : Store ToolResultBlobPart (fun r => (r.blobId, r.part)) := .empty

structure IngestAnswer where
  completed : Bool
  duplicate : Bool

/-- The rows of one blob, `ORDER BY part ASC`. -/
def partsOf (parts : Store ToolResultBlobPart (fun r => (r.blobId, r.part))) (blobId : String) : List ToolResultBlobPart :=
  orderBy (·.part) (parts.rows.filter (·.blobId == blobId))

def ingestPart (jsonValid : String → Bool) (input : ToolResultBlobPart) (s : Receiver) :
    Except HrcError (IngestAnswer × Receiver) :=
  if (s.blobs.find input.blobId).isSome then .ok ({ completed := true, duplicate := true }, s)
  else
    let duplicate := (s.parts.find (input.blobId, input.part)).isSome
    let parts := s.parts.add input
    let rows := partsOf parts input.blobId
    if rows.length ≠ input.parts then .ok ({ completed := false, duplicate }, { s with parts })
    else if rows.isEmpty then .error (.error s!"failed to assemble tool-result blob {input.blobId}")
    else
      let assembled := groupConcat (rows.map (·.chunk))
      if assembled.utf8ByteSize ≠ input.bytes || !jsonValid assembled then
        .error (.error s!"invalid assembled tool-result blob {input.blobId}")
      else
        let row : ToolResultBlobRow :=
          { blobId := input.blobId, runtimeId := input.runtimeId, kind := input.kind, bytes := input.bytes
            resultJson := assembled }
        .ok ({ completed := true, duplicate },
          { blobs := s.blobs.add row, parts := parts.erase (·.blobId == input.blobId) })

def receive (jsonValid : String → Bool) (item : ToolResultBlobPart) (s : Receiver) : Receiver :=
  if validPart item then
    match ingestPart jsonValid item s with
    | .ok (_, s') => s'
    | .error _ => s
  else s

end Receiver

section Ingest

variable {blob : LocalBlob jsonValid} {ps got : List ToolResultBlobPart} {s : Receiver} {m : ToolResultBlobPart}

/-- Where the receiver is with a blob after the parts in `got`: it waits for a missing one and holds the rest,
or it holds the blob and no part of it. -/
inductive Stage (blob : LocalBlob jsonValid) (ps got : List ToolResultBlobPart) (s : Receiver) : Prop where
  | waiting (hnone : s.blobs.find blob.blobId = none) (hmissing : ∃ p ∈ ps, p ∉ got)
      (hheld : ∀ r, r ∈ s.parts.rows ∧ r.blobId = blob.blobId ↔ r ∈ ps ∧ r ∈ got) : Stage blob ps got s
  | stored (hstored : s.blobs.find blob.blobId = some blob.toToolResultBlobRow) (hall : ∀ p ∈ ps, p ∈ got)
      (hheld : ∀ r ∈ s.parts.rows, r.blobId ≠ blob.blobId) : Stage blob ps got s

theorem receive_other (jsonValid : String → Bool) {id : String} (hid : id ≠ m.blobId) :
    (receive jsonValid m s).blobs.find id = s.blobs.find id ∧
      ∀ r : ToolResultBlobPart, r.blobId = id → (r ∈ (receive jsonValid m s).parts.rows ↔ r ∈ s.parts.rows) := by
  have hadd : ∀ r : ToolResultBlobPart, r.blobId = id → (r ∈ (s.parts.add m).rows ↔ r ∈ s.parts.rows) := by
    intro r hr
    refine mem_add.trans ⟨fun h => h.resolve_right fun hm => ?_, .inl⟩
    exact hid (hr.symm.trans (congrArg ToolResultBlobPart.blobId hm.1))
  unfold receive
  split
  · split
    · rename_i answer s' h
      unfold ingestPart at h
      split at h
      · cases h
        exact ⟨rfl, fun _ _ => Iff.rfl⟩
      · dsimp only at h
        split at h
        · cases h
          exact ⟨rfl, hadd⟩
        · split at h
          · cases h
          · split at h
            · cases h
            · cases h
              refine ⟨find_add_of_ne hid, fun r hr => ?_⟩
              rw [← hadd r hr]
              have hoth : (r.blobId == m.blobId) = false := by
                rw [hr]
                simpa using hid
              simp [Store.erase, hoth]
    · exact ⟨rfl, fun _ _ => Iff.rfl⟩
  · exact ⟨rfl, fun _ _ => Iff.rfl⟩

theorem Stage.other (h : Stage blob ps got s) (hps : PartsOf blob ps) (hm : blob.blobId ≠ m.blobId) :
    Stage blob ps (got ++ [m]) (receive jsonValid m s) := by
  obtain ⟨hf, hpts⟩ := receive_other jsonValid (s := s) hm
  have hnot : ∀ p ∈ ps, p ≠ m := fun p hp hpm => hm (by rw [← (hps.addressed p hp).1, hpm])
  have hgot : ∀ p ∈ ps, (p ∈ got ++ [m] ↔ p ∈ got) := by
    intro p hp
    simp [hnot p hp]
  cases h with
  | waiting hn hms hh =>
    refine .waiting (hf.trans hn) ?_ fun r => ?_
    · obtain ⟨p, hp, hms⟩ := hms
      exact ⟨p, hp, fun h => hms ((hgot p hp).mp h)⟩
    · constructor
      · rintro ⟨hr, hid⟩
        obtain ⟨hp, hg⟩ := (hh r).mp ⟨(hpts r hid).mp hr, hid⟩
        exact ⟨hp, (hgot r hp).mpr hg⟩
      · rintro ⟨hp, hg⟩
        obtain ⟨hr, hid⟩ := (hh r).mpr ⟨hp, (hgot r hp).mp hg⟩
        exact ⟨(hpts r hid).mpr hr, hid⟩
  | stored hs hall hh =>
    refine .stored (hf.trans hs) (fun p hp => (hgot p hp).mpr (hall p hp)) fun r hr hid => ?_
    exact hh r ((hpts r hid).mp hr) hid

theorem PartsOf.nodup (hps : PartsOf blob ps) : ps.Nodup := by
  have h : (ps.map (·.part)).Nodup := hps.numbered ▸ List.nodup_range
  exact h.of_map

theorem mem_add_waiting (hps : PartsOf blob ps) (hm : m ∈ ps)
    (hh : ∀ r, r ∈ s.parts.rows ∧ r.blobId = blob.blobId ↔ r ∈ ps ∧ r ∈ got) (r : ToolResultBlobPart) :
    r ∈ (s.parts.add m).rows ∧ r.blobId = blob.blobId ↔ r ∈ ps ∧ r ∈ got ++ [m] := by
  have hmid := (hps.addressed m hm).1
  rw [mem_add, List.mem_append, List.mem_singleton]
  constructor
  · rintro ⟨hr | ⟨rfl, -⟩, hid⟩
    · obtain ⟨hp, hg⟩ := (hh r).mp ⟨hr, hid⟩
      exact ⟨hp, .inl hg⟩
    · exact ⟨hm, .inr rfl⟩
  · rintro ⟨hp, hg | rfl⟩
    · obtain ⟨hr, hid⟩ := (hh r).mpr ⟨hp, hg⟩
      exact ⟨.inl hr, hid⟩
    · refine ⟨?_, hmid⟩
      cases hf : s.parts.find (r.blobId, r.part) with
      | none => exact .inr ⟨rfl, rfl⟩
      | some a =>
        obtain ⟨ha, hk⟩ := find_mem hf
        have hk := Prod.mk.inj hk
        have hap := ((hh a).mp ⟨ha, hk.1.trans hmid⟩).1
        have hn : (ps.map (·.part)).Nodup := hps.numbered ▸ List.nodup_range
        rw [← List.inj_on_of_nodup_map hn hap hp hk.2]
        exact .inl ha

variable {parts : Store ToolResultBlobPart (fun r => (r.blobId, r.part))} {arrivals : List ToolResultBlobPart}

theorem partsOf_perm
    (hh : ∀ r, r ∈ parts.rows ∧ r.blobId = blob.blobId ↔ r ∈ ps ∧ r ∈ got) :
    ∀ r, r ∈ partsOf parts blob.blobId ↔ r ∈ ps ∧ r ∈ got := by
  intro r
  rw [partsOf, mem_orderBy, List.mem_filter, beq_iff_eq]
  exact hh r

theorem partsOf_nodup (parts : Store ToolResultBlobPart (fun r => (r.blobId, r.part))) (id : String) :
    (partsOf parts id).Nodup := by
  have h : (parts.rows.filter (·.blobId == id)).Nodup := parts.nodup.of_map.filter _
  exact (List.perm_insertionSort _ _).nodup_iff.mpr h

theorem partsOf_all (hps : PartsOf blob ps)
    (hm : ∀ r, r ∈ partsOf parts blob.blobId ↔ r ∈ ps) : partsOf parts blob.blobId = ps := by
  have hp := (List.perm_ext_iff_of_nodup (partsOf_nodup parts blob.blobId) hps.nodup).mpr hm
  have hs : ps.Pairwise fun a b => a.part ≤ b.part := by
    have h : (ps.map (·.part)).Pairwise (· ≤ ·) := hps.numbered ▸ List.pairwise_le_range
    exact List.pairwise_map.mp h
  have hn : (ps.map (·.part)).Nodup := hps.numbered ▸ List.nodup_range
  refine List.Perm.eq_of_pairwise (fun a b ha hb hab hba => ?_) (pairwise_orderBy (fun r : ToolResultBlobPart => r.part) _)
    hs hp
  exact List.inj_on_of_nodup_map hn ((hm a).mp ha) hb (Nat.le_antisymm hab hba)

theorem receive_ok {answer : IngestAnswer} {s' : Receiver} (hps : PartsOf blob ps) (hm : m ∈ ps)
    (h : ingestPart jsonValid m s = .ok (answer, s')) : receive jsonValid m s = s' := by
  rw [receive, if_pos (hps.admitted m hm), h]

theorem Stage.own (h : Stage blob ps got s) (hps : PartsOf blob ps) (hm : m ∈ ps) :
    Stage blob ps (got ++ [m]) (receive jsonValid m s) := by
  obtain ⟨hid, hri, hk, hbyt, hc⟩ := hps.addressed m hm
  cases h with
  | stored hsto hall hh =>
    have hd : ingestPart jsonValid m s = .ok ({ completed := true, duplicate := true }, s) :=
      if_pos (by rw [hid, hsto]; rfl)
    rw [receive_ok hps hm hd]
    exact .stored hsto (fun p hp => List.mem_append_left _ (hall p hp)) hh
  | waiting hn hms hh =>
    have had := mem_add_waiting hps hm hh
    have hrw := partsOf_perm had
    have hop : ¬ (s.blobs.find m.blobId).isSome = true := by
      rw [hid, hn]
      exact Bool.false_ne_true
    by_cases hall : ∀ p ∈ ps, p ∈ got ++ [m]
    · have hpts : partsOf (s.parts.add m) m.blobId = ps := by
        rw [hid]
        exact partsOf_all hps fun r => (hrw r).trans ⟨fun h => h.1, fun h => ⟨h, hall r h⟩⟩
      have hass : (groupConcat (ps.map (·.chunk))).utf8ByteSize = m.bytes := by
        rw [hps.whole, hbyt, blob.bytes_eq]
      have hd : ingestPart jsonValid m s = .ok
          ({ completed := true, duplicate := (s.parts.find (m.blobId, m.part)).isSome },
            { blobs := s.blobs.add blob.toToolResultBlobRow, parts := (s.parts.add m).erase (·.blobId == m.blobId) }) := by
        have hrow : ({ blobId := m.blobId, runtimeId := m.runtimeId, kind := m.kind, bytes := m.bytes
                       resultJson := blob.resultJson } : ToolResultBlobRow) = blob.toToolResultBlobRow := by
          rw [hid, hri, hk, hbyt]
        rw [ingestPart, if_neg hop]
        dsimp only
        rw [hpts, if_neg (by simp [hc]), if_neg (by simpa using hps.ne_nil), hps.whole,
          if_neg (by simp [← hps.whole, hass]; rw [hps.whole]; exact blob.valid), hrow]
      rw [receive_ok hps hm hd]
      refine .stored (find_add_self hn) hall fun r hr => ?_
      have hr := (List.mem_filter.mp hr).2
      rw [← hid]
      simpa using hr
    · have hs : (partsOf (s.parts.add m) m.blobId).length ≠ m.parts := by
        intro hl
        rw [hid, hc] at hl
        have hsub : (partsOf (s.parts.add m) blob.blobId).Subperm ps :=
          (partsOf_nodup _ _).subperm fun r hr => ((hrw r).mp hr).1
        have hpr := hsub.perm_of_length_le (Nat.le_of_eq hl.symm)
        exact hall fun p hp => ((hrw p).mp (hpr.mem_iff.mpr hp)).2
      have hw : ingestPart jsonValid m s = .ok
          ({ completed := false, duplicate := (s.parts.find (m.blobId, m.part)).isSome },
            { s with parts := s.parts.add m }) := by
        rw [ingestPart, if_neg hop]
        exact if_pos hs
      rw [receive_ok hps hm hw]
      refine .waiting hn ?_ had
      push Not at hall
      exact hall

variable {replaced : ByteArray → String} {sent : Store (LocalBlob jsonValid) (·.blobId)}

theorem mem_emitted (hm : m ∈ emitted replaced sent) :
    ∃ blob ∈ sent.rows, ∃ ps, blobParts replaced blob = .ok ps ∧ PartsOf blob ps ∧ m ∈ ps := by
  obtain ⟨blob, hbl, hm⟩ := List.mem_flatMap.mp hm
  obtain ⟨ps, hp, hps⟩ := blobParts_spec replaced blob
  rw [hp] at hm
  exact ⟨blob, hbl, ps, hp, hps, hm⟩

theorem step_stage (hm : m ∈ emitted replaced sent) (hbl : blob ∈ sent.rows) (hp : blobParts replaced blob = .ok ps)
    (hps : PartsOf blob ps) (h : Stage blob ps got s) : Stage blob ps (got ++ [m]) (receive jsonValid m s) := by
  obtain ⟨owner, hown, qs, hqs, hsp, hmq⟩ := mem_emitted hm
  have hmid := (hsp.addressed m hmq).1
  by_cases hs : blob.blobId = owner.blobId
  · obtain rfl := List.inj_on_of_nodup_map sent.nodup hbl hown hs
    rw [hp] at hqs
    cases hqs
    exact h.own hps hmq
  · exact h.other hps (by rwa [hmid])

theorem run_stage (harr : ∀ p ∈ arrivals, p ∈ emitted replaced sent)
    (hbl : blob ∈ sent.rows) (hpts : blobParts replaced blob = .ok ps) (hps : PartsOf blob ps)
    (h : Stage blob ps got s) : Stage blob ps (got ++ arrivals) (run (receive jsonValid) arrivals s) := by
  induction arrivals generalizing got s with
  | nil => simpa [run] using h
  | cons m arrivals ih =>
    have hs := step_stage (harr m List.mem_cons_self) hbl hpts hps h
    have hr := ih (fun p hp => harr p (List.mem_cons_of_mem m hp)) hs
    rwa [List.append_assoc] at hr

theorem run_foreign (harr : ∀ p ∈ arrivals, p ∈ emitted replaced sent)
    {id : String} (hid : ∀ blob ∈ sent.rows, blob.blobId ≠ id) :
    (run (receive jsonValid) arrivals s).blobs.find id = s.blobs.find id := by
  induction arrivals generalizing s with
  | nil => rfl
  | cons m arrivals ih =>
    obtain ⟨owner, hown, qs, -, hs, hmq⟩ := mem_emitted (harr m List.mem_cons_self)
    have hoth : id ≠ m.blobId := by
      rw [(hs.addressed m hmq).1]
      exact (hid owner hown).symm
    exact (ih fun p hp => harr p (List.mem_cons_of_mem m hp)).trans (receive_other jsonValid hoth).1

/-- Whatever parts of its blobs a sender's posts bring, in any order and as often as they come, the receiver holds
exactly the blobs all of whose parts have come, each as its sender holds it, and nothing else is stored. -/
theorem ingest_exact (replaced : ByteArray → String) (sent : Store (LocalBlob jsonValid) (·.blobId)) {start : Receiver}
    (hstart : ∀ blob ∈ sent.rows, start.blobs.find blob.blobId = none ∧ ∀ r ∈ start.parts.rows, r.blobId ≠ blob.blobId)
    {arrivals : List ToolResultBlobPart} (harrivals : ∀ p ∈ arrivals, p ∈ emitted replaced sent) :
    (∀ blob ∈ sent.rows, ∃ parts, blobParts replaced blob = .ok parts ∧
      (run (receive jsonValid) arrivals start).blobs.find blob.blobId =
        if ∀ p ∈ parts, p ∈ arrivals then some blob.toToolResultBlobRow else none) ∧
    ∀ id, (∀ blob ∈ sent.rows, blob.blobId ≠ id) →
      (run (receive jsonValid) arrivals start).blobs.find id = start.blobs.find id := by
  refine ⟨fun blob hbl => ?_, fun id hid => ?_⟩
  · obtain ⟨ps, hpts, hps⟩ := blobParts_spec replaced blob
    obtain ⟨hn, hh⟩ := hstart blob hbl
    refine ⟨ps, hpts, ?_⟩
    have hf : Stage blob ps [] start := by
      obtain ⟨p, hp⟩ := List.exists_mem_of_ne_nil ps hps.ne_nil
      refine .waiting hn ⟨p, hp, List.not_mem_nil⟩ fun r => ⟨fun h => absurd h.2 (hh r h.1), fun h => ?_⟩
      exact absurd h.2 List.not_mem_nil
    have hl := run_stage harrivals hbl hpts hps hf
    rw [List.nil_append] at hl
    cases hl with
    | waiting hn hm hh =>
      obtain ⟨p, hp, hm⟩ := hm
      rw [hn, if_neg fun h => hm (h p hp)]
    | stored hs hall hh => rw [hs, if_pos hall]
  · exact run_foreign harrivals hid

def sampleBlob : LocalBlob fun _ => true where
  blobId := "tc:rt:call"
  runtimeId := "rt"
  kind := .brokerRaw
  bytes := 4
  resultJson := "\"ok\""
  blobId_ne := by decide
  runtimeId_ne := by decide
  bytes_eq := by decide
  bytes_safe := by decide
  valid := rfl

def sampleSent : Store (LocalBlob fun _ => true) (·.blobId) := ⟨[sampleBlob], by decide⟩

/-- Its part comes twice. -/
theorem ingest_exact_sample :
    (run (receive fun _ => true) (emitted (fun _ => "") sampleSent ++ emitted (fun _ => "") sampleSent) {}).blobs.find
      "tc:rt:call" = some sampleBlob.toToolResultBlobRow := by
  have hs : ∀ blob ∈ sampleSent.rows, ({} : Receiver).blobs.find blob.blobId = none ∧
      ∀ r ∈ ({} : Receiver).parts.rows, r.blobId ≠ blob.blobId := fun _ _ => ⟨rfl, fun r hr => by cases hr⟩
  have harr : ∀ p ∈ emitted (fun _ => "") sampleSent ++ emitted (fun _ => "") sampleSent,
      p ∈ emitted (fun _ => "") sampleSent := fun p hp => (List.mem_append.mp hp).elim id id
  obtain ⟨ps, hpts, hf⟩ := (ingest_exact (fun _ => "") sampleSent hs harr).1 sampleBlob
    (List.mem_singleton_self _)
  refine hf.trans (if_pos fun p hp => List.mem_append_left _ ?_)
  exact List.mem_flatMap.mpr ⟨sampleBlob, List.mem_singleton_self _, by rwa [hpts]⟩

end Ingest

end HrcRuntime.BlobIngest
