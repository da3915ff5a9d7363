import Mathlib.Data.List.Basic

namespace HrcRuntime.BoundaryChain

variable {β γ : Type} {emit emit' : Nat → Nat → Option β} {previous x : Nat} {bounds : List Nat}

def chain (emit : Nat → Nat → Option β) (previous : Nat) : List Nat → List β
  | [] => []
  | b :: bounds => (emit previous b).toList ++ chain emit b bounds

def below (previous x : Nat) (bounds : List Nat) : Nat := (bounds.filter (· < x)).getLast?.getD previous

theorem getLast?_getD_cons (b : Nat) : (b :: bounds).getLast?.getD previous = bounds.getLast?.getD b := by
  rw [List.getLast?_cons]
  rfl

theorem chain_concat (b : Nat) :
    chain emit previous (bounds ++ [b]) =
      chain emit previous bounds ++ (emit (bounds.getLast?.getD previous) b).toList := by
  induction bounds generalizing previous with
  | nil => simp [chain]
  | cons c bounds ih => rw [List.cons_append, chain, chain, ih, getLast?_getD_cons, List.append_assoc]

theorem chain_map (f : β → γ) :
    chain (fun lo hi => (emit lo hi).map f) previous bounds = (chain emit previous bounds).map f := by
  induction bounds generalizing previous with
  | nil => rfl
  | cons b bounds ih => simp only [chain, ih, List.map_append, Option.toList_map]

theorem mem_chain {turn : β} (h : turn ∈ chain emit previous bounds) :
    ∃ lo, ∃ hi ∈ bounds, emit lo hi = some turn := by
  induction bounds generalizing previous with
  | nil => cases h
  | cons b bounds ih =>
    rcases List.mem_append.mp h with h | h
    · exact ⟨previous, b, List.mem_cons_self, Option.mem_toList.mp h⟩
    · obtain ⟨lo, hi, hm, he⟩ := ih h
      exact ⟨lo, hi, List.mem_cons_of_mem _ hm, he⟩

section Ascending

variable (hascending : bounds.Pairwise (· < ·)) (hprevious : ∀ b ∈ bounds, previous ≤ b)
include hascending hprevious

theorem chain_congr_past (hp : ∀ lo hi, x ≤ lo → emit lo hi = emit' lo hi) (hx : x ≤ previous) :
    chain emit previous bounds = chain emit' previous bounds := by
  induction bounds generalizing previous with
  | nil => rfl
  | cons b bounds ih =>
    obtain ⟨hb, hr⟩ := List.pairwise_cons.mp hascending
    rw [chain, chain, hp previous b hx,
      ih hr (fun c hc => Nat.le_of_lt (hb c hc)) (Nat.le_trans hx (hprevious b List.mem_cons_self))]

theorem chain_congr (hout : ∀ lo hi, ¬(lo < x ∧ x ≤ hi) → emit lo hi = emit' lo hi)
    (hin : ∀ hi ∈ bounds, x ≤ hi → emit (below previous x bounds) hi = emit' (below previous x bounds) hi) :
    chain emit previous bounds = chain emit' previous bounds := by
  induction bounds generalizing previous with
  | nil => rfl
  | cons b bounds ih =>
    obtain ⟨hb, hr⟩ := List.pairwise_cons.mp hascending
    have hbr : ∀ c ∈ bounds, b ≤ c := fun c hc => Nat.le_of_lt (hb c hc)
    rw [chain, chain]
    rcases Nat.lt_or_ge b x with hlt | hle
    · have hblw : below previous x (b :: bounds) = below b x bounds := by
        unfold below
        rw [List.filter_cons_of_pos (by simpa using hlt), getLast?_getD_cons]
      rw [hout previous b (by omega), ih hr hbr fun hi hm hx => by
        rw [← hblw]
        exact hin hi (List.mem_cons_of_mem _ hm) hx]
    · have hblw : below previous x (b :: bounds) = previous := by
        unfold below
        rw [List.filter_eq_nil_iff.mpr fun c hc => ?_]
        · rfl
        · rcases List.mem_cons.mp hc with rfl | hc
          · simpa using hle
          · simpa using Nat.le_trans hle (hbr c hc)
      have hf := hin b List.mem_cons_self hle
      rw [hblw] at hf
      rw [hf, chain_congr_past hr hbr (fun lo hi hlo => hout lo hi (by omega)) hle]

theorem filter_chain {position : β → Nat} (hp : ∀ lo hi turn, hi ∈ bounds → emit lo hi = some turn → position turn = hi)
    (mark : Nat) :
    (chain emit previous bounds).filter (position · ≤ mark) = chain emit previous (bounds.filter (· ≤ mark)) := by
  induction bounds generalizing previous with
  | nil => rfl
  | cons b bounds ih =>
    obtain ⟨hb, hr⟩ := List.pairwise_cons.mp hascending
    have ht := ih hr (fun c hc => Nat.le_of_lt (hb c hc)) fun lo hi turn hm => hp lo hi turn (List.mem_cons_of_mem _ hm)
    have hh : ∀ turn ∈ (emit previous b).toList, position turn = b := fun turn h =>
      hp previous b turn List.mem_cons_self (Option.mem_toList.mp h)
    rw [chain, List.filter_append, ht]
    rcases Nat.lt_or_ge mark b with hlt | hle
    · rw [List.filter_cons_of_neg (by simpa using hlt),
        List.filter_eq_nil_iff.mpr fun turn h => by rw [hh turn h]; simpa using hlt,
        List.filter_eq_nil_iff.mpr fun c hc => by simpa using Nat.lt_trans hlt (hb c hc)]
      rfl
    · rw [List.filter_cons_of_pos (by simpa using hle), chain,
        List.filter_eq_self.mpr fun turn h => by rw [hh turn h]; simpa using hle]

end Ascending

theorem getLast?_filter_le {mark : Nat} (hascending : bounds.Pairwise (· < ·)) (hm : mark = 0 ∨ mark ∈ bounds) :
    (bounds.filter (· ≤ mark)).getLast?.getD 0 = mark := by
  rcases List.eq_nil_or_concat (bounds.filter (· ≤ mark)) with hn | ⟨before, last, hl⟩
  · rw [hn]
    refine (hm.resolve_right fun hmem => ?_).symm
    have hs : mark ∈ bounds.filter (· ≤ mark) := List.mem_filter.mpr ⟨hmem, by simp⟩
    rw [hn] at hs
    cases hs
  · rw [List.concat_eq_append] at hl
    have hle : last ≤ mark := by
      have : last ∈ bounds.filter (· ≤ mark) := by rw [hl]; exact List.mem_append_right _ (List.mem_singleton_self _)
      simpa using (List.mem_filter.mp this).2
    rw [hl, List.getLast?_concat]
    refine Nat.le_antisymm hle ?_
    rcases hm with rfl | hmem
    · exact Nat.zero_le _
    · have hs : mark ∈ bounds.filter (· ≤ mark) := List.mem_filter.mpr ⟨hmem, by simp⟩
      have hsr := List.Pairwise.filter (· ≤ mark) hascending
      rw [hl] at hs hsr
      rcases List.mem_append.mp hs with h | h
      · exact Nat.le_of_lt ((List.pairwise_append.mp hsr).2.2 mark h last (List.mem_singleton_self _))
      · exact Nat.le_of_eq (List.mem_singleton.mp h)

end HrcRuntime.BoundaryChain
