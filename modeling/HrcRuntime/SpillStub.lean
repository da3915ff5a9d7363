import HrcRuntime.Utf16
import HrcRuntime.Wire

namespace HrcRuntime.SpillStub

open Utf16

inductive JsonValue where
  | null
  | bool (b : Bool)
  | number (n : Wire.Number)
  | string (s : Units)
  | array (items : List JsonValue)
  | object (fields : List (Units × JsonValue))

def toolResultSpillHeadChars : Nat := 4096
def toolResultSpillTailChars : Nat := 1024
def toolResultSpillDiagnosticStringBytes : Nat := 256

inductive ToolResultBlobKind where
  | brokerRaw
  | lifecycleCanonical

structure ToolResultSpillDescriptor where
  blobId : Units
  bytes : Nat
  kind : ToolResultBlobKind

inductive DiagnosticKey where
  | exitCode
  | status
  | interrupted
  | duration
  | durationMs
  deriving DecidableEq

namespace DiagnosticKey

def name : DiagnosticKey → Units
  | exitCode => ofString "exitCode"
  | status => ofString "status"
  | interrupted => ofString "interrupted"
  | duration => ofString "duration"
  | durationMs => ofString "durationMs"

end DiagnosticKey

def spillDiagnosticKeys : List DiagnosticKey := [.exitCode, .status, .interrupted, .duration, .durationMs]

structure SpillDetails where
  bounded : List (DiagnosticKey × JsonValue)
  spill : ToolResultSpillDescriptor

inductive Content where
  | existing (blocks : List JsonValue)
  | text (text : Units)

structure CanonicalToolResult where
  content : Content
  details : SpillDetails

namespace JsonValue

def property (value : JsonValue) (key : Units) : Option JsonValue :=
  match value with
  | object fields => (fields.find? fun field => field.1 == key).map (·.2)
  | _ => none

def isRecord : JsonValue → Bool
  | object _ => true
  | _ => false

def isScalarDiagnostic : JsonValue → Bool
  | null | bool _ | number _ | string _ => true
  | _ => false

def text? : JsonValue → Option Units
  | string s => some s
  | _ => none

def items? : JsonValue → Option (List JsonValue)
  | array items => some items
  | _ => none

end JsonValue

open JsonValue

section Stub

variable (safeStringify : JsonValue → Units)

def blockText (block : JsonValue) : Units :=
  match (block.property (ofString "text")).bind text? with
  | some text => text
  | none => []

def resultBody (result : JsonValue) : Units :=
  match result with
  | .string s => s
  | _ =>
    match (result.property (ofString "output")).bind text? with
    | some output => output
    | none =>
      match (result.property (ofString "content")).bind items? with
      | some blocks => ((blocks.filter isRecord).map blockText).flatten
      | none => safeStringify result

def diagnosticValue (result : JsonValue) (key : DiagnosticKey) : Option JsonValue :=
  match result.property key.name with
  | some value => some value
  | none => (result.property (ofString "details")).bind (·.property key.name)

def boundDiagnostic : JsonValue → JsonValue
  | .string value => .string (truncateUtf8 value toolResultSpillDiagnosticStringBytes)
  | value => value

def keepDiagnostic (result : JsonValue) (key : DiagnosticKey) : Option (DiagnosticKey × JsonValue) :=
  match diagnosticValue result key with
  | some value => if value.isScalarDiagnostic then some (key, boundDiagnostic value) else none
  | none => none

def spillDetails (result : JsonValue) (spill : ToolResultSpillDescriptor) : SpillDetails :=
  { bounded := spillDiagnosticKeys.filterMap (keepDiagnostic result), spill }

def splitsPair (body : Units) (index : Nat) : Bool :=
  decide (0 < index) && decide (index < body.length) && body[index - 1]?.any isHigh && body[index]?.any isLow

def headEnd (body : Units) : Nat :=
  let cut := min body.length toolResultSpillHeadChars
  if splitsPair body cut then cut - 1 else cut

def tailStart (body : Units) : Nat :=
  let cut := body.length - toolResultSpillTailChars
  if splitsPair body cut then cut + 1 else cut

def marker (spill : ToolResultSpillDescriptor) : Units :=
  ofString "\n…[" ++ ofString (toString spill.bytes) ++ ofString " bytes spilled → " ++ spill.blobId ++ ofString "]…\n"

def excerpt (body : Units) (spill : ToolResultSpillDescriptor) : Units :=
  body.take (headEnd body) ++ marker spill ++ body.drop (tailStart body)

def createToolResultSpillStub (result : JsonValue) (spill : ToolResultSpillDescriptor)
    (preserveExistingExcerpt : Bool) : CanonicalToolResult :=
  match (result.property (ofString "content")).bind items?, preserveExistingExcerpt with
  | some blocks, true => { content := .existing blocks, details := spillDetails result spill }
  | _, _ => { content := .text (excerpt (resultBody safeStringify result) spill), details := spillDetails result spill }

end Stub

section Cuts

variable {body : Units} {cut : Nat}

theorem splitsPair_eq (h : cut ≤ body.length) : splitsPair body cut = bisects (body.take cut) (body.drop cut) := by
  unfold splitsPair bisects
  rw [List.head?_drop]
  cases cut with
  | zero => simp
  | succ cut =>
    have hl : (body.take (cut + 1)).getLast? = body[cut]? := by
      rw [List.getLast?_eq_getElem?, List.length_take, Nat.min_eq_left h, List.getElem?_take_of_lt (by omega),
        Nat.add_sub_cancel]
    rw [hl]
    rcases Nat.lt_or_ge (cut + 1) body.length with hlt | hge
    · simp [hlt]
    · have hn : body[cut + 1]? = none := List.getElem?_eq_none hge
      simp [hn]

theorem splits_units (h : splitsPair body cut = true) :
    0 < cut ∧ cut < body.length ∧ body[cut - 1]?.any isHigh = true ∧ body[cut]?.any isLow = true := by
  simp only [splitsPair, Bool.and_eq_true, decide_eq_true_eq] at h
  exact ⟨h.1.1.1, h.1.1.2, h.1.2, h.2⟩

theorem not_high_and_low {u : Option UInt16} (hh : u.any isHigh = true) (hl : u.any isLow = true) : False := by
  obtain ⟨v, rfl, hv⟩ := (Option.any_eq_true _ _).mp hh
  rw [Option.any_some, not_low_of_high hv] at hl
  cases hl

theorem whole_before (h : splitsPair body cut = true) : splitsPair body (cut - 1) = false := by
  obtain ⟨-, -, hh, -⟩ := splits_units h
  apply Bool.eq_false_iff.mpr
  intro hbef
  exact not_high_and_low hh (splits_units hbef).2.2.2

theorem whole_after (h : splitsPair body cut = true) : splitsPair body (cut + 1) = false := by
  obtain ⟨-, -, -, hl⟩ := splits_units h
  apply Bool.eq_false_iff.mpr
  intro haft
  exact not_high_and_low (splits_units haft).2.2.1 hl

theorem headEnd_spec (body : Units) :
    headEnd body ≤ body.length ∧ headEnd body ≤ toolResultSpillHeadChars ∧
      min body.length toolResultSpillHeadChars ≤ headEnd body + 1 ∧ splitsPair body (headEnd body) = false := by
  unfold headEnd
  dsimp only
  split
  · rename_i hs
    exact ⟨by omega, by omega, by omega, whole_before hs⟩
  · rename_i hwh
    exact ⟨by omega, by omega, by omega, Bool.eq_false_iff.mpr hwh⟩

theorem tailStart_spec (body : Units) :
    tailStart body ≤ body.length ∧ body.length ≤ tailStart body + toolResultSpillTailChars ∧
      tailStart body ≤ body.length - toolResultSpillTailChars + 1 ∧ splitsPair body (tailStart body) = false := by
  unfold tailStart
  dsimp only
  split
  · rename_i hs
    have hlt := (splits_units hs).2.1
    exact ⟨by omega, by omega, by omega, whole_after hs⟩
  · rename_i hwh
    exact ⟨by omega, by omega, by omega, Bool.eq_false_iff.mpr hwh⟩

theorem parts_wellFormed (hle : cut ≤ body.length) (hwh : splitsPair body cut = false)
    (hbd : isWellFormed body = true) : isWellFormed (body.take cut) = true ∧ isWellFormed (body.drop cut) = true := by
  rw [splitsPair_eq hle] at hwh
  exact cut_wellFormed hwh hbd

theorem marker_wellFormed {spill : ToolResultSpillDescriptor} (h : isWellFormed spill.blobId = true) :
    isWellFormed (marker spill) = true := by
  unfold marker
  have hop := append_wellFormed (ofString_wellFormed "\n…[") (ofString_wellFormed (toString spill.bytes))
  have hbyt := append_wellFormed hop (ofString_wellFormed " bytes spilled → ")
  exact append_wellFormed (append_wellFormed hbyt h) (ofString_wellFormed "]…\n")

end Cuts

structure Cut (body head tail : Units) : Prop where
  isPrefix : head <+: body
  isSuffix : tail <:+ body
  head_le : head.length ≤ toolResultSpillHeadChars
  tail_le : tail.length ≤ toolResultSpillTailChars
  head_ge : min body.length toolResultSpillHeadChars ≤ head.length + 1
  tail_ge : min body.length toolResultSpillTailChars ≤ tail.length + 1
  head_whole : bisects head (body.drop head.length) = false
  tail_whole : bisects (body.take (body.length - tail.length)) tail = false

theorem excerpt_cut (body : Units) : Cut body (body.take (headEnd body)) (body.drop (tailStart body)) := by
  obtain ⟨hh, hhead_le, hhead_ge, hhead_whole⟩ := headEnd_spec body
  obtain ⟨ht, htail_le, htail_ge, htail_whole⟩ := tailStart_spec body
  have hhd : (body.take (headEnd body)).length = headEnd body := by rw [List.length_take, Nat.min_eq_left hh]
  have htl : (body.drop (tailStart body)).length = body.length - tailStart body := List.length_drop
  rw [splitsPair_eq hh] at hhead_whole
  rw [splitsPair_eq ht] at htail_whole
  constructor
  · exact List.take_prefix _ _
  · exact List.drop_suffix _ _
  · rw [hhd]
    exact hhead_le
  · rw [htl]
    omega
  · rw [hhd]
    exact hhead_ge
  · rw [htl]
    omega
  · rw [hhd]
    exact hhead_whole
  · rw [htl, Nat.sub_sub_self ht]
    exact htail_whole

structure LongestWellFormed (source : Units) (maxBytes : Nat) (value : Units) : Prop where
  isPrefix : value <+: source
  wellFormed : isWellFormed value = true
  fits : byteLength value ≤ maxBytes
  longest : ∀ q, q <+: source → isWellFormed q = true → byteLength q ≤ maxBytes → q.length ≤ value.length

theorem truncateUtf8_wellFormed {source : Units} (maxBytes : Nat) (h : isWellFormed source = true) :
    LongestWellFormed source maxBytes (truncateUtf8 source maxBytes) := by
  have hl := truncateUtf8_longest source maxBytes
  have ht := take_of_prefix hl.isPrefix
  constructor
  · exact hl.isPrefix
  · have hc : bisects (source.take (truncateUtf8 source maxBytes).length)
        (source.drop (truncateUtf8 source maxBytes).length) = false := by
      rw [ht]
      exact hl.whole
    rw [← ht]
    exact (cut_wellFormed hc h).1
  · exact hl.fits
  · intro q hq hw hf
    exact hl.longest q hq (bisects_of_wellFormed hw _) hf

section Diagnostics

variable {result : JsonValue} {spill : ToolResultSpillDescriptor} {key : DiagnosticKey} {value : JsonValue}

theorem mem_spillDiagnosticKeys (key : DiagnosticKey) : key ∈ spillDiagnosticKeys := by
  cases key <;> decide

theorem keepDiagnostic_eq {entry : DiagnosticKey × JsonValue} (h : keepDiagnostic result key = some entry) :
    ∃ source, diagnosticValue result key = some source ∧ source.isScalarDiagnostic = true ∧
      entry = (key, boundDiagnostic source) := by
  unfold keepDiagnostic at h
  cases hsrc : diagnosticValue result key with
  | none => rw [hsrc] at h; cases h
  | some source =>
    rw [hsrc] at h
    dsimp only at h
    split at h
    · rename_i hs
      exact ⟨source, rfl, hs, (Option.some.inj h).symm⟩
    · cases h

theorem mem_bounded : (key, value) ∈ (spillDetails result spill).bounded ↔
    ∃ source, diagnosticValue result key = some source ∧ source.isScalarDiagnostic = true ∧
      value = boundDiagnostic source := by
  constructor
  · intro hm
    obtain ⟨other, -, hk⟩ := List.mem_filterMap.mp hm
    obtain ⟨source, hsrc, hs, he⟩ := keepDiagnostic_eq hk
    obtain ⟨rfl, rfl⟩ := Prod.mk.inj he
    exact ⟨source, hsrc, hs, rfl⟩
  · rintro ⟨source, hsrc, hs, rfl⟩
    refine List.mem_filterMap.mpr ⟨key, mem_spillDiagnosticKeys key, ?_⟩
    unfold keepDiagnostic
    rw [hsrc]
    dsimp only
    rw [if_pos hs]

theorem boundDiagnostic_string {source : JsonValue} {kept : Units} (h : .string kept = boundDiagnostic source) :
    ∃ text, source = .string text ∧ kept = truncateUtf8 text toolResultSpillDiagnosticStringBytes := by
  cases source with
  | string text => exact ⟨text, rfl, JsonValue.string.inj h⟩
  | null => cases h
  | bool b => cases h
  | number n => cases h
  | array items => cases h
  | object fields => cases h

theorem string_diagnostic {kept : Units} (h : (key, .string kept) ∈ (spillDetails result spill).bounded) :
    ∃ text, diagnosticValue result key = some (.string text) ∧
      Longest text toolResultSpillDiagnosticStringBytes kept ∧
      (isWellFormed text = true → LongestWellFormed text toolResultSpillDiagnosticStringBytes kept) := by
  obtain ⟨source, hs, -, hv⟩ := mem_bounded.mp h
  obtain ⟨text, rfl, rfl⟩ := boundDiagnostic_string hv
  exact ⟨text, hs, truncateUtf8_longest _ _, truncateUtf8_wellFormed _⟩

end Diagnostics

section Main

variable (safeStringify : JsonValue → Units) (result : JsonValue) (spill : ToolResultSpillDescriptor)

theorem fresh_stub : createToolResultSpillStub safeStringify result spill false =
    { content := .text (excerpt (resultBody safeStringify result) spill), details := spillDetails result spill } := by
  unfold createToolResultSpillStub
  cases (result.property (ofString "content")).bind items? <;> rfl

/-- The excerpt of a stub is a head of the body, the marker and a tail of it, no cut bisecting a pair; the text is well
formed as far as the blob's id is, and each kept string is the longest part of its value that fits. -/
theorem spill_stub_excerpt (hbody : isWellFormed (resultBody safeStringify result) = true) :
    ∃ head tail, Cut (resultBody safeStringify result) head tail ∧
      (createToolResultSpillStub safeStringify result spill false).content = .text (head ++ marker spill ++ tail) ∧
      (isWellFormed spill.blobId = true → isWellFormed (head ++ marker spill ++ tail) = true) ∧
      ∀ key kept, (key, .string kept) ∈ (createToolResultSpillStub safeStringify result spill false).details.bounded →
        ∃ text, diagnosticValue result key = some (.string text) ∧
          Longest text toolResultSpillDiagnosticStringBytes kept ∧
          (isWellFormed text = true → LongestWellFormed text toolResultSpillDiagnosticStringBytes kept) := by
  rw [fresh_stub]
  refine ⟨_, _, excerpt_cut _, rfl, fun hbl => ?_, fun key kept hm => string_diagnostic hm⟩
  obtain ⟨hh, -, -, hhead_whole⟩ := headEnd_spec (resultBody safeStringify result)
  obtain ⟨ht, -, -, htail_whole⟩ := tailStart_spec (resultBody safeStringify result)
  have hhd := (parts_wellFormed hh hhead_whole hbody).1
  have htl := (parts_wellFormed ht htail_whole hbody).2
  exact append_wellFormed (append_wellFormed hhd (marker_wellFormed hbl)) htl

end Main

namespace Sample

def spill : ToolResultSpillDescriptor := { blobId := ofString "tc:r:t", bytes := 40000, kind := .brokerRaw }

def reported (status : Units) : JsonValue :=
  .object [(ofString "output", .string (ofString "x")), (ofString "status", .string status)]

def emptyText : JsonValue → Units := fun _ => []

theorem reported_body (status : Units) : resultBody emptyText (reported status) = ofString "x" := by
  simp [resultBody, reported, property, text?]

end Sample

open Sample in
theorem spill_stub_excerpt_reported :
    ∃ head tail, Cut (resultBody emptyText (reported (ofString "done"))) head tail ∧
      (createToolResultSpillStub emptyText (reported (ofString "done")) spill false).content =
        .text (head ++ marker spill ++ tail) := by
  have hbody : isWellFormed (resultBody emptyText (reported (ofString "done"))) = true := by
    rw [reported_body]
    exact ofString_wellFormed "x"
  obtain ⟨head, tail, hcut, htext, -, -⟩ := spill_stub_excerpt emptyText (reported (ofString "done")) spill hbody
  exact ⟨head, tail, hcut, htext⟩

open Sample in
/-- A status that is a lone surrogate is kept as it is. -/
theorem lone_surrogate_kept :
    ¬ ∀ (safeStringify : JsonValue → Units) (result : JsonValue) (spill : ToolResultSpillDescriptor),
        isWellFormed (resultBody safeStringify result) = true →
        ∀ key kept, (key, .string kept) ∈ (createToolResultSpillStub safeStringify result spill false).details.bounded →
          ∃ text, diagnosticValue result key = some (.string text) ∧
            LongestWellFormed text toolResultSpillDiagnosticStringBytes kept := by
  intro hclaim
  have hbody : isWellFormed (resultBody emptyText (reported [0xd800])) = true := by
    rw [reported_body]
    exact ofString_wellFormed "x"
  have hvalue : diagnosticValue (reported [0xd800]) .status = some (.string [0xd800]) := by
    have hother : (ofString "output" == DiagnosticKey.name .status) = false := by decide
    have hname : (ofString "status" == DiagnosticKey.name .status) = true := by decide
    simp [diagnosticValue, reported, property, hother, hname]
  have hshort : truncateUtf8 [0xd800] toolResultSpillDiagnosticStringBytes = [0xd800] := by decide
  have hkept : (DiagnosticKey.status, .string [0xd800]) ∈
      (createToolResultSpillStub emptyText (reported [0xd800]) spill false).details.bounded := by
    have hmem : (DiagnosticKey.status, .string [0xd800]) ∈ (spillDetails (reported [0xd800]) spill).bounded :=
      mem_bounded.mpr ⟨_, hvalue, rfl, congrArg JsonValue.string hshort.symm⟩
    rw [fresh_stub]
    exact hmem
  obtain ⟨text, -, hlongest⟩ := hclaim emptyText (reported [0xd800]) spill hbody _ _ hkept
  have hlone : isWellFormed [0xd800] = false := by decide
  cases hlone.symm.trans hlongest.wellFormed

end HrcRuntime.SpillStub
