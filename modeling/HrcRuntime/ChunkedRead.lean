import Mathlib.Data.List.Basic

namespace HrcRuntime.ChunkedRead

variable {α : Type} {key : α → Nat} {l chunk : List α} {stop : Nat}

def Ascending (key : α → Nat) (l : List α) : Prop := l.Pairwise fun a b => key a < key b

/-- Where the chunk after this one starts: behind its last row when it is full, at the end of its window
when it is not. -/
def following (key : α → Nat) (full : Bool) (stop : Nat) (chunk : List α) : Nat :=
  if full then (chunk.getLast?.map fun last => key last + 1).getD stop else stop

theorem filter_append_filter (h : Ascending key l) (stop : Nat) :
    (l.filter fun a => decide (key a < stop)) ++ (l.filter fun a => decide (stop ≤ key a)) = l := by
  induction l with
  | nil => rfl
  | cons a l ih =>
    obtain ⟨ha, hl⟩ := List.pairwise_cons.mp h
    by_cases hlt : key a < stop
    · rw [List.filter_cons_of_pos (by simpa using hlt), List.filter_cons_of_neg (by simpa using hlt),
        List.cons_append, ih hl]
    · have hn : (l.filter fun b => decide (key b < stop)) = [] := by
        refine List.filter_eq_nil_iff.mpr fun b hb => ?_
        have hab := ha b hb
        rw [decide_eq_true_eq]
        omega
      have hall : (l.filter fun b => decide (stop ≤ key b)) = l := by
        refine List.filter_eq_self.mpr fun b hb => ?_
        have hab := ha b hb
        rw [decide_eq_true_eq]
        omega
      rw [List.filter_cons_of_neg (by simpa using hlt), hn, List.filter_cons_of_pos (by simpa using hlt), hall]
      rfl

theorem take_eq_filter (h : Ascending key l) {n : Nat} {last : α} (hl : (l.take n).getLast? = some last) :
    l.take n = l.filter fun a => decide (key a < key last + 1) := by
  have hsp : Ascending key (l.take n ++ l.drop n) := by rwa [List.take_append_drop]
  obtain ⟨ht, -, hc⟩ := List.pairwise_append.mp hsp
  obtain ⟨front, hf⟩ := List.getLast?_eq_some_iff.mp hl
  have hlw : (l.take n).filter (fun a => decide (key a < key last + 1)) = l.take n := by
    refine List.filter_eq_self.mpr fun a ha => decide_eq_true ?_
    rw [hf] at ha ht
    rcases List.mem_append.mp ha with ha | ha
    · exact Nat.lt_succ_of_lt ((List.pairwise_append.mp ht).2.2 a ha last (List.mem_singleton_self _))
    · rw [List.mem_singleton.mp ha]
      exact Nat.lt_succ_self _
  have hu : (l.drop n).filter (fun a => decide (key a < key last + 1)) = [] := by
    refine List.filter_eq_nil_iff.mpr fun a ha => ?_
    have hlt := hc last (List.mem_of_getLast? hl) a ha
    rw [decide_eq_true_eq]
    omega
  conv => rhs; rw [← List.take_append_drop n l]
  rw [List.filter_append, hlw, hu, List.append_nil]

theorem chunk_append (h : Ascending key l) (stop n : Nat) (full : Bool)
    (hf : full = true → chunk ≠ [] ∧ chunk = (l.filter fun a => decide (key a < stop)).take n)
    (hp : full = false → chunk = l.filter fun a => decide (key a < stop)) :
    chunk ++ (l.filter fun a => decide (following key full stop chunk ≤ key a)) = l := by
  cases full with
  | false =>
    rw [following, if_neg (by decide)]
    conv => lhs; arg 1; rw [hp rfl]
    exact filter_append_filter h stop
  | true =>
    obtain ⟨hne, ht⟩ := hf rfl
    obtain ⟨last, hl⟩ := Option.isSome_iff_exists.mp (List.getLast?_isSome.mpr hne)
    have hblw : key last < stop := by
      have hm := List.mem_of_getLast? hl
      rw [ht] at hm
      exact of_decide_eq_true (List.mem_filter.mp (List.mem_of_mem_take hm)).2
    have hc : chunk = l.filter fun a => decide (key a < key last + 1) := by
      rw [ht] at hl ⊢
      rw [take_eq_filter (List.Pairwise.filter _ h) hl, List.filter_filter]
      refine List.filter_congr fun a _ => ?_
      by_cases hlt : key a < key last + 1
      · have hs : key a < stop := by omega
        simp [hlt, hs]
      · simp [hlt]
    rw [following, if_pos rfl, hl]
    conv => lhs; arg 1; rw [hc]
    exact filter_append_filter h _

theorem following_mem (full : Bool) (hc : ∀ a ∈ chunk, key a < stop) :
    following key full stop chunk ≤ stop ∧
      (following key full stop chunk = stop ∨ ∃ last ∈ chunk, following key full stop chunk = key last + 1) := by
  unfold following
  split
  · cases hl : chunk.getLast? with
    | none => exact ⟨Nat.le_refl _, Or.inl rfl⟩
    | some last =>
      have hm := List.mem_of_getLast? hl
      exact ⟨hc last hm, Or.inr ⟨last, hm, rfl⟩⟩
  · exact ⟨Nat.le_refl _, Or.inl rfl⟩

end HrcRuntime.ChunkedRead
