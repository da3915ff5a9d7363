import Mathlib.Algebra.Group.Nat.Defs
import Mathlib.Data.List.Basic
import Mathlib.Data.List.Induction

namespace HrcRuntime.Digits

/-- The number some digits write. -/
def value (s : List Char) : Nat := s.foldl (fun n c => 10 * n + (c.toNat - 48)) 0

/-- `n` in `k` digits. -/
def padded : Nat → Nat → List Char
  | 0, _ => []
  | k + 1, n => padded k (n / 10) ++ [Char.ofNat (48 + n % 10)]

variable {k n : Nat} {c : Char} {s rest : List Char}

theorem padded_length (k n : Nat) : (padded k n).length = k := by
  induction k generalizing n with
  | zero => rfl
  | succ k ih => rw [padded, List.length_append, ih, List.length_singleton]

theorem digit_toNat (h : n < 10) : (Char.ofNat (48 + n)).toNat = 48 + n ∧ (Char.ofNat (48 + n)).isDigit = true := by
  revert n
  decide

theorem padded_digits (k n : Nat) : ∀ c ∈ padded k n, c.isDigit = true := by
  induction k generalizing n with
  | zero => exact fun c hc => absurd hc List.not_mem_nil
  | succ k ih =>
    intro c hc
    rcases List.mem_append.mp hc with hc | hc
    · exact ih _ c hc
    · rw [List.mem_singleton.mp hc]
      exact (digit_toNat (Nat.mod_lt n (by decide))).2

theorem value_concat (s : List Char) (c : Char) : value (s ++ [c]) = 10 * value s + (c.toNat - 48) := by
  rw [value, List.foldl_append]
  rfl

theorem value_padded (h : n < 10 ^ k) : value (padded k n) = n := by
  induction k generalizing n with
  | zero => rw [Nat.lt_one_iff.mp h]; rfl
  | succ k ih =>
    rw [padded, value_concat, ih (by rw [Nat.pow_succ] at h; omega), (digit_toNat (Nat.mod_lt n (by decide))).1]
    omega

theorem isDigit_toNat {c : Char} (h : c.isDigit = true) : ∃ n, n < 10 ∧ c = Char.ofNat (48 + n) := by
  delta Char.isDigit at h
  simp only [Bool.and_eq_true, decide_eq_true_eq, UInt32.le_iff_toNat_le] at h
  have hc : c.toNat = c.val.toNat := rfl
  refine ⟨c.toNat - 48, ?_, ?_⟩
  · have := h.2
    simp at this
    omega
  · rw [show 48 + (c.toNat - 48) = c.toNat from by have := h.1; simp at this; omega, Char.ofNat_toNat]

/-- Some digits are those of their value. -/
theorem padded_value (h : ∀ c ∈ s, c.isDigit = true) : padded s.length (value s) = s ∧ value s < 10 ^ s.length := by
  induction s using List.reverseRecOn with
  | nil => exact ⟨rfl, Nat.one_pos⟩
  | append_singleton s c ih =>
    obtain ⟨hs, hlt⟩ := ih fun c hc => h c (List.mem_append_left _ hc)
    obtain ⟨n, hn, rfl⟩ := isDigit_toNat (h c (List.mem_append_right _ (List.mem_singleton_self c)))
    rw [value_concat, (digit_toNat hn).1, List.length_append, List.length_singleton, padded, Nat.pow_succ]
    have hd : (10 * value s + (48 + n - 48)) / 10 = value s := by omega
    have hm : (10 * value s + (48 + n - 48)) % 10 = n := by omega
    rw [hd, hm, hs]
    exact ⟨rfl, by omega⟩

theorem not_digit_padded (hc : c.isDigit = false) : c ∉ padded k n := by
  intro hm
  rw [padded_digits k n c hm] at hc
  cases hc

theorem not_mem_padded (hc : c.isDigit = false) (hr : c ∉ rest) :
    c ∉ padded k n ++ rest :=
  fun hm => (List.mem_append.mp hm).elim (not_digit_padded hc) hr

theorem take_padded (k n : Nat) (rest : List Char) : (padded k n ++ rest).take k = padded k n ∧
    (padded k n ++ rest).drop k = rest := by
  have h := padded_length k n
  constructor
  · rw [List.take_append_of_le_length (Nat.le_of_eq h.symm), List.take_of_length_le (Nat.le_of_eq h)]
  · rw [List.drop_append_of_le_length (Nat.le_of_eq h.symm), List.drop_of_length_le (Nat.le_of_eq h), List.nil_append]

theorem head_padded : ∃ x, (padded (k + 1) n ++ rest).head? = some x ∧ x.isDigit = true := by
  cases hp : padded (k + 1) n with
  | nil =>
    have := padded_length (k + 1) n
    rw [hp] at this
    cases this
  | cons x xs => exact ⟨x, rfl, padded_digits (k + 1) n x (hp ▸ List.mem_cons_self)⟩

end HrcRuntime.Digits
