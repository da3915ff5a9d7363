import Mathlib.Logic.Relation

namespace HrcRuntime.Forest

open Relation

variable {α : Type} {R S : α → α → Prop}

def Acyclic (R : α → α → Prop) : Prop := ∀ x, ¬ TransGen R x x

theorem Acyclic.mono (h : Acyclic R) (hS : ∀ x y, S x y → R x y) : Acyclic S := fun x hx =>
  h x (TransGen.mono hS x x hx)

theorem acyclic_of_empty (h : ∀ x y, ¬ R x y) : Acyclic R := by
  intro x hx
  obtain ⟨y, hy, -⟩ := TransGen.head'_iff.mp hx
  exact h x y hy

section Graft

variable {N : α → Prop} {o : α}

theorem reach_old (hS : ∀ x y, S x y → R x y ∨ N x ∧ y = o) (hba : ∀ x, N x → ¬ ReflTransGen R o x) {z : α}
    (h : ReflTransGen S o z) : ReflTransGen R o z := by
  induction h with
  | refl => exact .refl
  | tail _ hs ih =>
    rcases hS _ _ hs with hold | ⟨hn, -⟩
    · exact ih.tail hold
    · exact absurd ih (hba _ hn)

theorem path_cases (hS : ∀ x y, S x y → R x y ∨ N x ∧ y = o) {a b : α} (h : TransGen S a b) :
    TransGen R a b ∨ ∃ n, N n ∧ ReflTransGen S a n ∧ ReflTransGen S o b := by
  induction h with
  | single hs =>
    rcases hS _ _ hs with hold | ⟨hnew, rfl⟩
    · exact .inl (.single hold)
    · exact .inr ⟨a, hnew, .refl, .refl⟩
  | tail hp hs ih =>
    rcases ih with hp' | ⟨n, hn, hto, hf⟩
    · rcases hS _ _ hs with hold | ⟨hnew, rfl⟩
      · exact .inl (hp'.tail hold)
      · exact .inr ⟨_, hnew, hp.to_reflTransGen, .refl⟩
    · exact .inr ⟨n, hn, hto, hf.tail hs⟩

end Graft

theorem Acyclic.graft {E : α → α → Prop} (h : Acyclic R) (hS : ∀ x y, S x y → R x y ∨ E x y)
    (hone : ∀ x y x' y', E x y → E x' y' → y = y') (hba : ∀ x y, E x y → ¬ ReflTransGen R y x) : Acyclic S := by
  intro x hc
  by_cases hnew : ∃ n o, E n o
  · obtain ⟨n₀, o, ho⟩ := hnew
    have hi (x y : α) (hxy : S x y) : R x y ∨ E x o ∧ y = o := (hS x y hxy).imp_right fun hxy => by
      obtain rfl := hone _ _ _ _ hxy ho
      exact ⟨hxy, rfl⟩
    have hs (x : α) (hx : E x o) : ¬ ReflTransGen R o x := hba x o hx
    rcases path_cases hi hc with hold | ⟨n, hn, hto, hf⟩
    · exact h x hold
    · exact hs n hn (reach_old hi hs (hf.trans hto))
  · exact h.mono (fun x y hxy => (hS x y hxy).resolve_right fun hxy => hnew ⟨x, y, hxy⟩) x hc

theorem eq_of_reach {o x : α} (hr : ∀ y, ¬ R o y) (h : ReflTransGen R o x) : x = o := by
  rcases h.cases_head with rfl | ⟨y, hy, -⟩
  · rfl
  · exact absurd hy (hr y)

end HrcRuntime.Forest
