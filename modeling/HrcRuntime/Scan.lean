import Mathlib.Data.List.Sort

namespace HrcRuntime.Scan

variable {ρ : Type} {key : ρ → Nat} {head limit : Nat} {l : List ρ}

def scannedThrough (key : ρ → Nat) (head limit : Nat) (rows : List ρ) : Nat :=
  if rows.length = limit then (rows.getLast?.map key).getD head else head

theorem scannedThrough_le (hh : ∀ r ∈ l, key r ≤ head) : scannedThrough key head limit l ≤ head := by
  unfold scannedThrough
  split
  · cases hl : l.getLast? with
    | none => exact Nat.le_refl _
    | some r => exact hh r (List.mem_of_getLast? hl)
  · exact Nat.le_refl _

theorem mem_take_iff (hs : l.Pairwise fun a b => key a < key b) (hh : ∀ r ∈ l, key r ≤ head)
    (hlim : 0 < limit) {r : ρ} :
    r ∈ l.take limit ↔ r ∈ l ∧ key r ≤ scannedThrough key head limit (l.take limit) := by
  by_cases hfl : (l.take limit).length = limit
  · obtain ⟨last, hl⟩ : ∃ last, (l.take limit).getLast? = some last := by
      refine Option.isSome_iff_exists.mp (List.getLast?_isSome.mpr fun hn => ?_)
      rw [hn] at hfl
      exact absurd hfl (Nat.ne_of_lt hlim)
    have hthr : scannedThrough key head limit (l.take limit) = key last := by
      rw [scannedThrough, if_pos hfl, hl]
      rfl
    obtain ⟨front, hf⟩ := List.getLast?_eq_some_iff.mp hl
    have hsp : (l.take limit ++ l.drop limit).Pairwise fun a b => key a < key b := by
      rwa [List.take_append_drop]
    obtain ⟨ht, -, hc⟩ := List.pairwise_append.mp hsp
    rw [hthr]
    constructor
    · intro hr
      refine ⟨List.mem_of_mem_take hr, ?_⟩
      rw [hf] at hr ht
      rcases List.mem_append.mp hr with hr | hr
      · exact Nat.le_of_lt ((List.pairwise_append.mp ht).2.2 r hr last (List.mem_singleton_self _))
      · rw [List.mem_singleton.mp hr]
    · rintro ⟨hr, hle⟩
      rw [← List.take_append_drop limit l] at hr
      rcases List.mem_append.mp hr with hr | hr
      · exact hr
      · have hlt := hc last (List.mem_of_getLast? hl) r hr
        omega
  · have hall : l.take limit = l := by
      refine List.take_of_length_le ?_
      rw [List.length_take] at hfl
      omega
    rw [scannedThrough, if_neg hfl, hall]
    exact ⟨fun hr => ⟨hr, hh r hr⟩, fun h => h.1⟩

/-- A page over rows above a cursor does not move the cursor back from below the head, and moves it
forward from there. -/
theorem le_scannedThrough {after : Nat} (haft : ∀ r ∈ l, after < key r) (hh : after ≤ head) :
    after ≤ scannedThrough key head limit l ∧ (after < head → after < scannedThrough key head limit l) := by
  unfold scannedThrough
  split
  · cases hl : l.getLast? with
    | none => exact ⟨hh, id⟩
    | some r =>
      have hlt := haft r (List.mem_of_getLast? hl)
      exact ⟨Nat.le_of_lt hlt, fun _ => hlt⟩
  · exact ⟨hh, id⟩

end HrcRuntime.Scan
