import Mathlib.Data.List.Basic
import Mathlib.Order.Basic

namespace HrcRuntime.Frontier

/-- The end of the unbroken run of numbers directly above `cursor` in an ascending list. -/
def through (cursor : Nat) : List Nat → Nat
  | [] => cursor
  | n :: rest => if n = cursor + 1 then through n rest else cursor

theorem le_through (cursor : Nat) (l : List Nat) : cursor ≤ through cursor l := by
  induction l generalizing cursor with
  | nil => exact Nat.le_refl _
  | cons n rest ih =>
    unfold through
    split
    · subst n
      exact Nat.le_of_succ_le (ih (cursor + 1))
    · exact Nat.le_refl _

theorem mem_of_le_through {cursor q : Nat} {l : List Nat} (hlo : cursor < q) (hhi : q ≤ through cursor l) :
    q ∈ l := by
  induction l generalizing cursor with
  | nil => exact absurd hhi (Nat.not_le_of_lt hlo)
  | cons n rest ih =>
    unfold through at hhi
    split at hhi
    · rename_i hn
      rcases Nat.eq_or_lt_of_le hlo with hq | hq
      · exact List.mem_cons.mpr (.inl (hq.symm.trans hn.symm))
      · exact List.mem_cons_of_mem n (ih (hn ▸ hq) hhi)
    · exact absurd hhi (Nat.not_le_of_lt hlo)

theorem through_succ_not_mem (cursor : Nat) {l : List Nat} (hs : l.Pairwise (· < ·))
    (hlo : ∀ n ∈ l, cursor < n) : through cursor l + 1 ∉ l := by
  induction l generalizing cursor with
  | nil => exact List.not_mem_nil
  | cons n rest ih =>
    obtain ⟨hn, hr⟩ := List.pairwise_cons.mp hs
    unfold through
    split
    · have hnot := ih n hr hn
      have hle := le_through n rest
      rw [List.mem_cons]
      rintro (h | h)
      · omega
      · exact hnot h
    · rename_i hne
      have hcn := hlo n List.mem_cons_self
      rw [List.mem_cons]
      rintro (h | h)
      · exact hne h.symm
      · have := hn _ h
        omega

end HrcRuntime.Frontier
