import Mathlib.Logic.Basic
import Mathlib.Data.Fintype.Basic

namespace HrcRuntime.Utf8

/-- `(b & 0xc0) === 0x80`. -/
def isContinuation (b : UInt8) : Bool := b &&& 0xc0 == 0x80

theorem isContinuation_ofNat (n : Nat) : isContinuation (UInt8.ofNat (n % 64 + 128)) = true := by
  have h : ∀ r : Fin 64, isContinuation (UInt8.ofNat (r.val + 128)) = true := by decide
  exact h ⟨n % 64, Nat.mod_lt _ (by decide)⟩

theorem not_isContinuation_of_first {b : UInt8} (h : b.IsUTF8FirstByte) : isContinuation b = false := by
  have hall : ∀ n : Fin 256, (UInt8.ofNat n.val).IsUTF8FirstByte → isContinuation (UInt8.ofNat n.val) = false := by
    decide +kernel
  have := hall ⟨b.toNat, b.toNat_lt⟩
  rw [UInt8.ofNat_toNat] at this
  exact this h

theorem isContinuation_of_mem_tail {c : Char} {b : UInt8} (hb : b ∈ (String.utf8EncodeChar c).tail) :
    isContinuation b = true := by
  unfold String.utf8EncodeChar at hb
  dsimp only at hb
  split at hb
  · simp at hb
  · split at hb
    · obtain rfl := List.mem_singleton.mp hb
      exact isContinuation_ofNat _
    · split at hb
      · simp only [List.tail_cons, List.mem_cons, List.not_mem_nil, or_false] at hb
        rcases hb with rfl | rfl <;> exact isContinuation_ofNat _
      · simp only [List.tail_cons, List.mem_cons, List.not_mem_nil, or_false] at hb
        rcases hb with rfl | rfl | rfl <;> exact isContinuation_ofNat _

theorem first_or_continuation (s : String) {n : Nat} (h : n < s.toByteArray.size) :
    s.toByteArray[n].IsUTF8FirstByte ∨ isContinuation s.toByteArray[n] = true := by
  obtain ⟨l, rfl⟩ := s.exists_eq_ofList
  have hbyt : (String.ofList l).toByteArray = (l.flatMap String.utf8EncodeChar).toByteArray := String.toByteArray_ofList
  simp only [hbyt] at h ⊢
  have hm : (l.flatMap String.utf8EncodeChar).toByteArray[n] ∈ l.flatMap String.utf8EncodeChar := by
    simp
  generalize (l.flatMap String.utf8EncodeChar).toByteArray[n] = b at hm
  obtain ⟨c, -, hb⟩ := List.mem_flatMap.mp hm
  cases he : String.utf8EncodeChar c with
  | nil => exact absurd he String.utf8EncodeChar_ne_nil
  | cons first rest =>
    rw [he] at hb
    rcases List.mem_cons.mp hb with rfl | hb
    · have hf := UInt8.isUTF8FirstByte_getElem_zero_utf8EncodeChar (c := c)
      simp only [he] at hf
      exact .inl hf
    · exact .inr (isContinuation_of_mem_tail (c := c) (by rwa [he]))

/-- `n < bytes.length && (bytes[n] & 0xc0) === 0x80`. -/
def continuesAt (bytes : ByteArray) (n : Nat) : Bool := if h : n < bytes.size then isContinuation bytes[n] else false

theorem isValid_iff (s : String) (n : Nat) :
    (⟨n⟩ : String.Pos.Raw).IsValid s ↔ n ≤ s.toByteArray.size ∧ continuesAt s.toByteArray n = false := by
  rw [String.Pos.Raw.isValid_iff_isUTF8FirstByte]
  constructor
  · rintro (he | ⟨h, hf⟩)
    · have hs : n = s.toByteArray.size := congrArg String.Pos.Raw.byteIdx he
      exact ⟨Nat.le_of_eq hs, dif_neg (Nat.not_lt_of_le (Nat.le_of_eq hs.symm))⟩
    · have hlt : n < s.toByteArray.size := h
      exact ⟨Nat.le_of_lt hlt, (dif_pos hlt).trans (not_isContinuation_of_first hf)⟩
  · rintro ⟨hle, hcn⟩
    rcases Nat.lt_or_eq_of_le hle with h | h
    · refine .inr ⟨h, (first_or_continuation s h).resolve_right fun hc => ?_⟩
      rw [continuesAt, dif_pos h, hc] at hcn
      cases hcn
    · exact .inl (String.Pos.Raw.ext h)

theorem next_boundary {s : String} {n : Nat} (hv : (⟨n⟩ : String.Pos.Raw).IsValid s) (h : n < s.toByteArray.size) :
    ∃ m, n < m ∧ m ≤ n + 4 ∧ m ≤ s.toByteArray.size ∧ (⟨m⟩ : String.Pos.Raw).IsValid s := by
  obtain ⟨before, after, rfl, hn⟩ := String.Pos.Raw.isValid_iff_exists_append.mp hv
  obtain ⟨l, rfl⟩ := after.exists_eq_ofList
  have hs : n = before.utf8ByteSize := congrArg String.Pos.Raw.byteIdx hn
  cases l with
  | nil =>
    rw [String.size_toByteArray, String.utf8ByteSize_append] at h
    simp at h
    omega
  | cons c l =>
    have hsp : String.ofList (c :: l) = String.singleton c ++ String.ofList l := by
      rw [String.singleton_eq_ofList, ← String.ofList_append]
      rfl
    refine ⟨n + c.utf8Size, ?_, ?_, ?_, ?_⟩
    · have := c.utf8Size_pos
      omega
    · have := c.utf8Size_le_four
      omega
    · rw [String.size_toByteArray, String.utf8ByteSize_append, hsp, String.utf8ByteSize_append,
        String.utf8ByteSize_singleton]
      omega
    · refine String.Pos.Raw.isValid_iff_exists_append.mpr ⟨before ++ String.singleton c, String.ofList l, ?_, ?_⟩
      · rw [hsp, String.append_assoc]
      · rw [String.Pos.Raw.ext_iff, String.byteIdx_rawEndPos, String.utf8ByteSize_append,
          String.utf8ByteSize_singleton, hs]

end HrcRuntime.Utf8
