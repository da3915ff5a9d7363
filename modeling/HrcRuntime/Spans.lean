import Mathlib.Data.List.Nodup
import Mathlib.Data.List.Pairwise
import Mathlib.Data.List.Range
import Mathlib.Data.List.Perm.Subperm

namespace HrcRuntime.Spans

variable {ρ : Type} {lo hi : ρ → Nat} {xs : List Nat} {p x : Nat}

/-- How many of the points lie in `(a, b]`. -/
def within (xs : List Nat) (a b : Nat) : Nat := xs.countP fun x => a < x ∧ x ≤ b

theorem within_add (xs : List Nat) {a b c : Nat} (hab : a ≤ b) (hbc : b ≤ c) : within xs a c = within xs a b + within xs b c := by
  induction xs with
  | nil => rfl
  | cons x xs ih =>
    simp only [within, List.countP_cons, decide_eq_true_eq] at ih ⊢
    rw [ih]
    split_ifs <;> omega

theorem within_eq_zero {a b : Nat} (h : ∀ x ∈ xs, a < x → b < x) : within xs a b = 0 := by
  apply List.countP_eq_zero.mpr
  intro x hx
  simp only [decide_eq_true_eq]
  intro hin
  exact absurd (h x hx hin.1) (by omega)

theorem within_congr {a b : Nat} (h : ∀ y, a < y → y ≤ b → y ≠ x) : within (xs ++ [x]) a b = within xs a b := by
  simp only [within, List.countP_append, List.countP_cons, List.countP_nil, decide_eq_true_eq, Nat.zero_add,
    Nat.add_eq_left, ite_eq_right_iff]
  intro hin
  exact absurd rfl (h x hin.1 hin.2)

theorem within_le (hxs : xs.Pairwise (· < ·)) (a b : Nat) : within xs a b ≤ b - a := by
  have hnd : (xs.filter fun x => a < x ∧ x ≤ b).Nodup := (hxs.imp fun h => Nat.ne_of_lt h).filter _
  have hs : (xs.filter fun x => a < x ∧ x ≤ b) ⊆ List.range' (a + 1) (b - a) := by
    intro x hx
    have hin := of_decide_eq_true (List.mem_filter.mp hx).2
    exact List.mem_range'_1.mpr ⟨by omega, by omega⟩
  have hl := (hnd.subperm hs).length_le
  rw [List.length_range'] at hl
  rwa [within, List.countP_eq_length_filter]

theorem within_of_mem (hxs : xs.Pairwise (· < ·)) (hx : x ∈ xs) (hp : 0 < x) : within xs (x - 1) x = 1 := by
  have hle := within_le hxs (x - 1) x
  have hlt : 0 < within xs (x - 1) x := List.countP_pos_iff.mpr ⟨x, hx, by simp only [decide_eq_true_eq]; omega⟩
  omega

/-- Spans `(lo, hi]` one after another from `p` on, with no point between them and none after the last. -/
def Tiles (lo hi : ρ → Nat) (xs : List Nat) : Nat → List ρ → Prop
  | p, [] => ∀ x ∈ xs, x ≤ p
  | p, r :: rest => p ≤ lo r ∧ lo r < hi r ∧ (∀ x ∈ xs, p < x → lo r < x) ∧ Tiles lo hi xs (hi r) rest

variable {l : List ρ}

theorem Tiles.bounds (h : Tiles lo hi xs p l) : ∀ r ∈ l, p ≤ lo r ∧ lo r < hi r := by
  induction l generalizing p with
  | nil => exact fun _ hr => absurd hr List.not_mem_nil
  | cons r rest ih =>
    obtain ⟨hp, hr, -, hrs⟩ := h
    intro s hs
    rcases List.mem_cons.mp hs with rfl | hs
    · exact ⟨hp, hr⟩
    · have := ih hrs s hs
      exact ⟨by omega, this.2⟩

theorem Tiles.pairwise (h : Tiles lo hi xs p l) : l.Pairwise fun r s => hi r ≤ lo s := by
  induction l generalizing p with
  | nil => exact List.Pairwise.nil
  | cons r rest ih =>
    obtain ⟨-, -, -, hr⟩ := h
    exact List.pairwise_cons.mpr ⟨fun s hs => (hr.bounds s hs).1, ih hr⟩

theorem Tiles.covered (h : Tiles lo hi xs p l) (hx : x ∈ xs) (hp : p < x) :
    ∃ r ∈ l, lo r < x ∧ x ≤ hi r := by
  induction l generalizing p with
  | nil => exact absurd (h x hx) (by omega)
  | cons r rest ih =>
    obtain ⟨-, -, hsk, hrs⟩ := h
    by_cases hr : x ≤ hi r
    · exact ⟨r, List.mem_cons_self, hsk x hx hp, hr⟩
    · obtain ⟨s, hs, hin⟩ := ih hrs (by omega)
      exact ⟨s, List.mem_cons_of_mem _ hs, hin⟩

theorem Tiles.snoc {r : ρ} (h : Tiles lo hi xs p l) (hl : ∀ y ∈ xs, y < x) (hp : p < x)
    (hen : ∀ s ∈ l, hi s < x) (hlo : lo r = x - 1) (hhi : hi r = x) : Tiles lo hi (xs ++ [x]) p (l ++ [r]) := by
  induction l generalizing p with
  | nil =>
    refine ⟨by omega, by omega, ?_, ?_⟩
    · intro y hy hpy
      rcases List.mem_append.mp hy with hy | hy
      · exact absurd (h y hy) (by omega)
      · rw [List.mem_singleton.mp hy]
        omega
    · intro y hy
      rcases List.mem_append.mp hy with hy | hy
      · have := hl y hy
        omega
      · rw [List.mem_singleton.mp hy, hhi]
  | cons s rest ih =>
    obtain ⟨hps, hs, hsk, hr⟩ := h
    have he := hen s List.mem_cons_self
    refine ⟨hps, hs, ?_, ih hr he fun t ht => hen t (List.mem_cons_of_mem _ ht)⟩
    intro y hy hpy
    rcases List.mem_append.mp hy with hy | hy
    · exact hsk y hy hpy
    · rw [List.mem_singleton.mp hy]
      omega

theorem apart_of_ne (h : l.Pairwise fun r s => hi r ≤ lo s) {r s : ρ} (hr : r ∈ l) (hs : s ∈ l)
    (hne : r ≠ s) : hi r ≤ lo s ∨ hi s ≤ lo r := by
  have : Std.Symm fun r s => hi r ≤ lo s ∨ hi s ≤ lo r := ⟨fun _ _ => Or.symm⟩
  have he : l.Pairwise fun r s => hi r ≤ lo s ∨ hi s ≤ lo r := h.imp Or.inl
  exact he.forall hr hs hne

theorem countP_le_one (h : l.Pairwise fun r s => hi r ≤ lo s) :
    (l.countP fun r => lo r < x ∧ x ≤ hi r) ≤ 1 := by
  induction l with
  | nil => exact Nat.zero_le _
  | cons r rest ih =>
    obtain ⟨hr, hrs⟩ := List.pairwise_cons.mp h
    rw [List.countP_cons]
    split
    · rename_i hin
      have hin := of_decide_eq_true hin
      have hz : (rest.countP fun r => lo r < x ∧ x ≤ hi r) = 0 := List.countP_eq_zero.mpr fun s hs => by
        have := hr s hs
        simp only [decide_eq_true_eq]
        omega
      rw [hz]
    · exact ih hrs

end HrcRuntime.Spans
