import Mathlib.Logic.Basic

namespace HrcRuntime.Schedule

variable {σ α : Type} {step : α → σ → σ} {A : σ → α → Prop} {I : σ → Prop}

def run (step : α → σ → σ) : List α → σ → σ
  | [], s => s
  | a :: actions, s => run step actions (step a s)

def Meets (step : α → σ → σ) (A : σ → α → Prop) : List α → σ → Prop
  | [], _ => True
  | a :: actions, s => A s a ∧ Meets step A actions (step a s)

instance decidableMeets [∀ s a, Decidable (A s a)] :
    (actions : List α) → (s : σ) → Decidable (Meets step A actions s)
  | [], _ => isTrue trivial
  | a :: actions, s =>
    have := decidableMeets actions (step a s)
    inferInstanceAs (Decidable (_ ∧ _))

theorem run_append (before after : List α) (s : σ) :
    run step (before ++ after) s = run step after (run step before s) := by
  induction before generalizing s with
  | nil => rfl
  | cons a before ih => exact ih (step a s)

variable {actions : List α} {s : σ}

theorem meets_append {before after : List α} :
    Meets step A (before ++ after) s ↔ Meets step A before s ∧ Meets step A after (run step before s) := by
  induction before generalizing s with
  | nil => exact ⟨fun h => ⟨trivial, h⟩, (·.2)⟩
  | cons a before ih => exact (and_congr_right fun _ => ih).trans and_assoc.symm

theorem meets_and {B : σ → α → Prop} (h : Meets step A actions s)
    (h' : Meets step B actions s) : Meets step (fun s a => A s a ∧ B s a) actions s := by
  induction actions generalizing s with
  | nil => trivial
  | cons a actions ih => exact ⟨⟨h.1, h'.1⟩, ih h.2 h'.2⟩

theorem run_invariant (hI : ∀ s a, I s → A s a → I (step a s)) (hs : I s)
    (hmt : Meets step A actions s) : I (run step actions s) := by
  induction actions generalizing s with
  | nil => exact hs
  | cons a actions ih => exact ih (hI s a hs hmt.1) hmt.2

theorem run_each {P : σ → α → σ → Prop} (hI : ∀ s a, I s → A s a → I (step a s))
    (hP : ∀ s a, I s → A s a → P s a (step a s)) (hs : I s)
    (hmt : Meets step A actions s) {before : List α} {a : α} {after : List α}
    (h : actions = before ++ a :: after) : P (run step before s) a (run step (before ++ [a]) s) := by
  subst h
  obtain ⟨hbef, haft⟩ := meets_append.mp hmt
  rw [run_append]
  exact hP _ a (run_invariant hI hs hbef) haft.1

theorem run_related {R : σ → σ → Prop} (hr : ∀ s, R s s) (ht : ∀ s t u, R s t → R t u → R s u)
    (hI : ∀ s a, I s → A s a → I (step a s)) (hR : ∀ s a, I s → A s a → R s (step a s))
    (hs : I s) (hmt : Meets step A actions s) : R s (run step actions s) := by
  induction actions generalizing s with
  | nil => exact hr s
  | cons a actions ih => exact ht _ _ _ (hR s a hs hmt.1) (ih (hI s a hs hmt.1) hmt.2)

theorem run_simulates {τ : Type} {step' : α → τ → τ} {R : σ → τ → Prop}
    (hs : ∀ s t a, R s t → A s a → R (step a s) (step' a t)) {t : τ} (hR : R s t)
    (hmt : Meets step A actions s) : R (run step actions s) (run step' actions t) := by
  induction actions generalizing s t with
  | nil => exact hR
  | cons a actions ih => exact ih (hs s t a hR hmt.1) hmt.2

theorem meets_true : Meets step (fun _ _ => True) actions s := by
  induction actions generalizing s with
  | nil => trivial
  | cons a actions ih => exact ⟨trivial, ih⟩

theorem run_stays {β : Type} {f : σ → Option β} {b : β} (hI : ∀ s a, I s → I (step a s))
    (hf : ∀ s a, I s → f s = some b → f (step a s) = some b ∨ f (step a s) = none)
    (hs : I s) (h : f s = some b) (hmt : Meets step (fun s a => (f (step a s)).isSome) actions s) :
    f (run step actions s) = some b := by
  induction actions generalizing s with
  | nil => exact h
  | cons a actions ih =>
    refine ih (hI s a hs) ((hf s a hs h).resolve_right fun hn => ?_) hmt.2
    have hsm : (f (step a s)).isSome = true := hmt.1
    rw [hn] at hsm
    cases hsm

theorem run_ends {μ : σ → Nat} {ended : σ → Prop} {counts : α → Bool}
    (hI : ∀ s a, I s → A s a → I (step a s))
    (he : ∀ s a, A s a → ended s → ended (step a s))
    (hcn : ∀ s a, I s → A s a → counts a = true → ended (step a s) ∨ μ (step a s) < μ s)
    (hoth : ∀ s a, I s → A s a → counts a = false → ended (step a s) ∨ μ (step a s) ≤ μ s)
    (hs : I s) (hmt : Meets step A actions s) (henu : μ s < actions.countP counts) :
    ended (run step actions s) := by
  have hst : ∀ (actions : List α) (s : σ), Meets step A actions s → ended s → ended (run step actions s) := by
    intro actions
    induction actions with
    | nil => exact fun _ _ h => h
    | cons a actions ih => exact fun s hmt h => ih _ hmt.2 (he s a hmt.1 h)
  induction actions generalizing s with
  | nil => exact absurd henu (Nat.not_lt_zero _)
  | cons a actions ih =>
    obtain ⟨hok, hmt⟩ := hmt
    rw [List.countP_cons] at henu
    cases hc : counts a with
    | true =>
      rcases hcn s a hs hok hc with h | h
      · exact hst actions _ hmt h
      · rw [hc, if_pos rfl] at henu
        exact ih (hI s a hs hok) hmt (by omega)
    | false =>
      rcases hoth s a hs hok hc with h | h
      · exact hst actions _ hmt h
      · rw [hc, if_neg Bool.false_ne_true] at henu
        exact ih (hI s a hs hok) hmt (by omega)

end HrcRuntime.Schedule
