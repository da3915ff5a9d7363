import HrcRuntime.KeysetPaging

namespace HrcRuntime.SkipScan

open KeysetPaging

variable {α : Type}

/-- `WITH RECURSIVE` under a bound on its rounds: rows come off a queue in order, and what a row gives goes to
the end of the queue. -/
def recursive (step : α → List α) : Nat → List α → Option (List α)
  | _, [] => some []
  | 0, _ :: _ => none
  | rounds + 1, r :: queue => (recursive step rounds (queue ++ step r)).map (r :: ·)

section First

variable {cmp : α → α → Ordering} [Std.TransCmp cmp] {rows : List α} {r : α}

theorem head_sortBy (h : (sortBy cmp rows).head? = some r) : r ∈ rows ∧ ∀ s ∈ rows, (cmp r s).isLE = true := by
  obtain ⟨rest, hr⟩ := List.head?_eq_some_iff.mp h
  have hsr := pairwise_sortBy cmp rows
  have hp := perm_sortBy cmp rows
  rw [hr] at hsr hp
  refine ⟨hp.mem_iff.mp List.mem_cons_self, fun s hs => ?_⟩
  rcases List.mem_cons.mp (hp.mem_iff.mpr hs) with rfl | hs
  · exact Std.ReflCmp.isLE_rfl
  · exact List.rel_of_pairwise_cons hsr hs

omit [Std.TransCmp cmp] in
theorem head_sortBy_eq_none : (sortBy cmp rows).head? = none ↔ rows = [] := by
  rw [List.head?_eq_none_iff]
  constructor
  · intro h
    have hp := perm_sortBy cmp rows
    rw [h] at hp
    exact hp.symm.eq_nil
  · rintro rfl
    rfl

end First

section Groups

variable (cmp : α → α → Ordering) (seq : α → Nat) (rows : List α)

structure Newest (r : α) : Prop where
  mem : r ∈ rows
  greatest : ∀ s ∈ rows, cmp s r = .eq → seq s ≤ seq r

structure Seeks (step : α → List α) : Prop where
  step : ∀ r ∈ rows, (step r = [] ∧ ∀ s ∈ rows, cmp s r ≠ .lt) ∨
    ∃ t, step r = [t] ∧ Newest cmp seq rows t ∧ cmp t r = .lt ∧ ∀ s ∈ rows, cmp s r = .lt → (cmp s t).isLE = true

variable {cmp seq rows} [Std.TransCmp cmp] {step : α → List α} {r : α}

theorem Newest.unique (hseq : ∀ a ∈ rows, ∀ b ∈ rows, seq a = seq b → a = b) {s : α} (hr : Newest cmp seq rows r)
    (hs : Newest cmp seq rows s) (h : cmp s r = .eq) : s = r := by
  refine hseq s hs.mem r hr.mem (Nat.le_antisymm (hr.greatest s hs.mem h) ?_)
  exact hs.greatest r hr.mem (Std.OrientedCmp.eq_symm h)

theorem length_filter_lt {t : α} (hr : r ∈ rows) (hlt : cmp t r = .lt) :
    (rows.filter fun s => (cmp s t).isLE).length < (rows.filter fun s => (cmp s r).isLE).length := by
  have hs : rows.filter (fun s => (cmp s t).isLE) =
      (rows.filter fun s => (cmp s r).isLE).filter fun s => (cmp s t).isLE := by
    rw [List.filter_filter]
    refine List.filter_congr fun s _ => ?_
    cases h : (cmp s t).isLE with
    | false => rfl
    | true =>
      rw [Std.TransCmp.isLE_trans h (by rw [hlt]; rfl)]
      rfl
  rw [hs]
  refine List.length_filter_lt_length_iff_exists.mpr ⟨r, List.mem_filter.mpr ⟨hr, Std.ReflCmp.isLE_rfl⟩, ?_⟩
  rw [Std.OrientedCmp.gt_of_lt hlt]
  decide

/-- From the newest row of a group the recursion lists the newest row of every group up to that one, the
last group first. It ends within one round for each row up to the group. -/
theorem Seeks.recursive_eq (h : Seeks cmp seq rows step) (hseq : ∀ a ∈ rows, ∀ b ∈ rows, seq a = seq b → a = b)
    {rounds : Nat} (hrn : (rows.filter fun s => (cmp s r).isLE).length ≤ rounds) (hr : Newest cmp seq rows r) :
    ∃ l, recursive step rounds [r] = some l ∧ (∀ s, s ∈ l ↔ Newest cmp seq rows s ∧ (cmp s r).isLE = true) ∧
      l.Pairwise fun a b => cmp b a = .lt := by
  induction rounds generalizing r with
  | zero =>
    have hm : r ∈ rows.filter fun s => (cmp s r).isLE := List.mem_filter.mpr ⟨hr.mem, Std.ReflCmp.isLE_rfl⟩
    have hpos := List.length_pos_of_mem hm
    omega
  | succ rounds ih =>
    rcases h.step r hr.mem with ⟨hst, hls⟩ | ⟨t, hn, ht, hlt, hbt⟩
    · refine ⟨[r], ?_, fun s => ?_, List.pairwise_singleton _ _⟩
      · rw [recursive, List.nil_append, hst]
        unfold recursive
        rfl
      · rw [List.mem_singleton]
        constructor
        · rintro rfl
          exact ⟨hr, Std.ReflCmp.isLE_rfl⟩
        · rintro ⟨hs, hle⟩
          cases hc : cmp s r with
          | lt => exact absurd hc (hls s hs.mem)
          | eq => exact hr.unique hseq hs hc
          | gt => rw [hc] at hle; cases hle
    · have hf := length_filter_lt hr.mem hlt
      obtain ⟨l, hl, hm, hp⟩ := ih (by omega) ht
      refine ⟨r :: l, ?_, fun s => ?_, ?_⟩
      · rw [recursive, List.nil_append, hn, hl]
        rfl
      · rw [List.mem_cons, hm]
        constructor
        · rintro (rfl | ⟨hs, hle⟩)
          · exact ⟨hr, Std.ReflCmp.isLE_rfl⟩
          · exact ⟨hs, Std.TransCmp.isLE_trans hle (by rw [hlt]; rfl)⟩
        · rintro ⟨hs, hle⟩
          cases hc : cmp s r with
          | lt => exact Or.inr ⟨hs, hbt s hs.mem hc⟩
          | eq => exact Or.inl (hr.unique hseq hs hc)
          | gt => rw [hc] at hle; cases hle
      · refine List.pairwise_cons.mpr ⟨fun s hs => ?_, hp⟩
        exact Std.TransCmp.lt_of_isLE_of_lt ((hm s).mp hs).2 hlt

end Groups

end HrcRuntime.SkipScan
