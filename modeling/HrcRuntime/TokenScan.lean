import Mathlib.Data.List.Basic

namespace HrcRuntime.TokenScan

universe u v

variable {α : Type u} {ε : Type v}

/-- A loop with fuel that takes one token off the front in each round, and answers whether something
else was met. A round gives the rest after its token, or nothing when the front is no token. -/
def loop (round : List α → Except ε (Option (List α))) (exhausted : ε) : Nat → List α → Except ε Bool
  | 0, input => if input.isEmpty then .ok false else .error exhausted
  | fuel + 1, input =>
    if input.isEmpty then .ok false
    else (round input).bind fun taken => (taken.map (loop round exhausted fuel)).getD (.ok true)

structure Reads (round : List α → Except ε (Option (List α))) (Token : List α → Prop) : Prop where
  nonempty : ∀ t, Token t → t ≠ []
  takes : ∀ t rest, Token t → round (t ++ rest) = .ok (some rest)
  taken : ∀ input rest, round input = .ok (some rest) → ∃ t, Token t ∧ input = t ++ rest
  total : ∀ input, input ≠ [] → ∃ r, round input = .ok r

def Tokens (Token : List α → Prop) (input : List α) : Prop :=
  ∃ parts : List (List α), input = parts.flatten ∧ ∀ t ∈ parts, Token t

variable {round : List α → Except ε (Option (List α))} {exhausted : ε} {Token : List α → Prop}
variable {fuel : Nat} {input rest : List α}

theorem tokens_nil : Tokens Token ([] : List α) := ⟨[], rfl, fun _ ht => absurd ht List.not_mem_nil⟩

theorem Tokens.cons {t : List α} (ht : Token t) (h : Tokens Token rest) : Tokens Token (t ++ rest) := by
  obtain ⟨parts, rfl, hp⟩ := h
  refine ⟨t :: parts, rfl, ?_⟩
  intro s hs
  rcases List.mem_cons.mp hs with rfl | hs
  · exact ht
  · exact hp s hs

theorem Tokens.uncons (h : Tokens Token input) (hi : input ≠ []) :
    ∃ t rest, Token t ∧ Tokens Token rest ∧ input = t ++ rest := by
  obtain ⟨parts, rfl, hp⟩ := h
  cases parts with
  | nil => exact absurd rfl hi
  | cons t parts =>
    obtain ⟨ht, hr⟩ := List.forall_mem_cons.mp hp
    exact ⟨t, parts.flatten, ht, ⟨parts, rfl, hr⟩, rfl⟩

theorem loop_nil : loop round exhausted fuel [] = .ok false := by
  cases fuel with
  | zero => rfl
  | succ fuel => rfl

theorem loop_succ (hi : input ≠ []) {taken : Option (List α)} (h : round input = .ok taken) :
    loop round exhausted (fuel + 1) input = (taken.map (loop round exhausted fuel)).getD (.ok true) := by
  rw [loop, if_neg (by simpa using hi), h]
  rfl

/-- With one unit of fuel for each element the loop has an answer, and that says whether the input is a
concatenation of tokens. -/
theorem Reads.loop_eq (h : Reads round Token) (hf : input.length ≤ fuel) :
    ∃ other, loop round exhausted fuel input = .ok other ∧ (other = false ↔ Tokens Token input) := by
  induction fuel generalizing input with
  | zero =>
    have hn : input = [] := List.length_eq_zero_iff.mp (Nat.le_zero.mp hf)
    subst hn
    exact ⟨false, loop_nil, fun _ => tokens_nil, fun _ => rfl⟩
  | succ fuel ih =>
    by_cases hn : input = []
    · subst hn
      exact ⟨false, loop_nil, fun _ => tokens_nil, fun _ => rfl⟩
    obtain ⟨taken, htk⟩ := h.total input hn
    rw [loop_succ hn htk]
    cases taken with
    | none =>
      refine ⟨true, rfl, (fun h => by cases h), fun htok => ?_⟩
      obtain ⟨t, rest, ht, -, rfl⟩ := htok.uncons hn
      rw [h.takes t rest ht] at htk
      cases htk
    | some rest =>
      obtain ⟨t, ht, rfl⟩ := h.taken input rest htk
      have hp : 0 < t.length := List.length_pos_iff.mpr (h.nonempty t ht)
      have hsh : rest.length ≤ fuel := by
        rw [List.length_append] at hf
        omega
      obtain ⟨other, hoth, hi⟩ := ih hsh
      refine ⟨other, hoth, ?_⟩
      rw [hi]
      constructor
      · exact Tokens.cons ht
      · intro htok
        obtain ⟨s, tail, hs, htl, heq⟩ := htok.uncons hn
        have hr := h.takes s tail hs
        rw [← heq, htk] at hr
        cases hr
        exact htl

end HrcRuntime.TokenScan
