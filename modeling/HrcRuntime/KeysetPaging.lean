import Mathlib.Data.List.Sort
import Mathlib.Data.List.Perm.Subperm

namespace HrcRuntime.KeysetPaging

open List (mem_cons_self flatMap_cons mem_cons_of_mem nodup_cons)

section Orders

variable {α β : Type}

theorem transCmp_on (cmp : β → β → Ordering) [Std.TransCmp cmp] (f : α → β) : Std.TransCmp fun a b => cmp (f a) (f b) where
  eq_swap := Std.OrientedCmp.eq_swap
  isLE_trans := Std.TransCmp.isLE_trans

theorem isLE_total (cmp : α → α → Ordering) [Std.OrientedCmp cmp] : Std.Total fun a b => (cmp a b).isLE = true where
  total a b := by
    rw [show cmp b a = (cmp a b).swap from Std.OrientedCmp.eq_swap]
    cases cmp a b <;> simp

theorem isLE_isTrans (cmp : α → α → Ordering) [Std.TransCmp cmp] : IsTrans α fun a b => (cmp a b).isLE = true where
  trans _ _ _ := Std.TransCmp.isLE_trans

/-- `ORDER BY` and `Array.prototype.sort`: rows that compare equal keep their places. -/
def sortBy (cmp : α → α → Ordering) (rows : List α) : List α := rows.insertionSort fun a b => (cmp a b).isLE

theorem pairwise_sortBy (cmp : α → α → Ordering) [Std.TransCmp cmp] (rows : List α) :
    (sortBy cmp rows).Pairwise fun a b => (cmp a b).isLE = true := by
  have := isLE_total cmp
  have := isLE_isTrans cmp
  exact List.pairwise_insertionSort _ _

theorem perm_sortBy (cmp : α → α → Ordering) (rows : List α) : (sortBy cmp rows).Perm rows :=
  List.perm_insertionSort _ _

variable {rows : List α}

theorem strict_sortBy (cmp : α → α → Ordering) [Std.TransCmp cmp]
    (h : rows.Pairwise fun a b => cmp a b ≠ .eq) : (sortBy cmp rows).Pairwise fun a b => cmp a b = .lt := by
  have hne : (sortBy cmp rows).Pairwise fun a b => cmp a b ≠ .eq :=
    (perm_sortBy cmp rows).symm.pairwise h fun hab hba => hab (Std.OrientedCmp.eq_symm hba)
  refine ((pairwise_sortBy cmp rows).and hne).imp fun {a b} ⟨hle, hne⟩ => ?_
  cases hc : cmp a b with
  | lt => rfl
  | eq => exact absurd hc hne
  | gt => rw [hc] at hle; cases hle

theorem eq_of_strict (cmp : α → α → Ordering) [Std.OrientedCmp cmp] {l l' : List α} (hp : l.Perm l')
    (h : l.Pairwise fun a b => cmp a b = .lt) (h' : l'.Pairwise fun a b => cmp a b = .lt) : l = l' := by
  refine List.Perm.eq_of_pairwise (fun a b _ _ hab hba => ?_) h h' hp
  rw [show cmp a b = (cmp b a).swap from Std.OrientedCmp.eq_swap, hba] at hab
  cases hab

theorem filter_sortBy (cmp : α → α → Ordering) [Std.TransCmp cmp] (p : α → Bool)
    (h : rows.Pairwise fun a b => cmp a b ≠ .eq) : (sortBy cmp rows).filter p = sortBy cmp (rows.filter p) :=
  eq_of_strict cmp (((perm_sortBy cmp rows).filter p).trans (perm_sortBy cmp _).symm) ((strict_sortBy cmp h).filter p)
    (strict_sortBy cmp (h.filter p))

theorem sortBy_concat (cmp : α → α → Ordering) [Std.TransCmp cmp] {r : α}
    (h : (rows ++ [r]).Pairwise fun a b => cmp a b ≠ .eq) :
    ∃ before after, sortBy cmp (rows ++ [r]) = before ++ r :: after ∧ sortBy cmp rows = before ++ after := by
  have hm : r ∈ sortBy cmp (rows ++ [r]) :=
    (perm_sortBy cmp _).mem_iff.mpr (List.mem_append_right _ (List.mem_singleton_self r))
  obtain ⟨before, after, hsp⟩ := List.append_of_mem hm
  have hs := strict_sortBy cmp h
  have hp : (r :: rows).Perm (r :: (before ++ after)) :=
    (List.perm_append_singleton r rows).symm.trans
      ((perm_sortBy cmp (rows ++ [r])).symm.trans (by rw [hsp]; exact List.perm_middle))
  refine ⟨before, after, hsp, eq_of_strict cmp ((perm_sortBy cmp rows).trans hp.cons_inv) ?_ ?_⟩
  · exact strict_sortBy cmp (List.pairwise_append.mp h).1
  · rw [hsp] at hs
    exact hs.sublist (List.Sublist.append_left (List.sublist_cons_self r after) before)

end Orders

variable {ι α : Type} [DecidableEq ι] {source : α → ι}

section Merge

variable {cmp : α → α → Ordering} {candidates page : List α} {i : ι}

theorem filter_merge (hp : candidates.filter (source · = i) = page)
    (hs : page.Pairwise fun a b => (cmp a b).isLE = true) : (sortBy cmp candidates).filter (source · = i) = page := by
  have hsb : page.Sublist candidates := by
    rw [← hp]
    exact List.filter_sublist
  have hk : page.filter (source · = i) = page := by
    rw [← hp, List.filter_filter]
    simp
  have hm := (List.sublist_insertionSort hs hsb).filter (source · = i)
  rw [hk] at hm
  refine (hm.eq_of_length ?_).symm
  rw [← hp]
  exact ((perm_sortBy cmp candidates).filter _).length_eq.symm

theorem filter_take_merge (hp : candidates.filter (source · = i) = page)
    (hs : page.Pairwise fun a b => (cmp a b).isLE = true) (limit : Nat) :
    ((sortBy cmp candidates).take limit).filter (source · = i) <+: page := by
  rw [← filter_merge hp hs]
  exact (List.take_prefix limit _).filter _

end Merge

theorem filter_after {before : α → α → Prop} [DecidableRel before] (has : ∀ a b, before a b → ¬ before b a)
    {served rest : List α} {x : α} (h : (served ++ x :: rest).Pairwise before) :
    (served ++ x :: rest).filter (before x ·) = rest := by
  obtain ⟨-, hr, hc⟩ := List.pairwise_append.mp h
  rw [List.filter_append, List.filter_eq_nil_iff.mpr fun a ha => ?_, List.filter_cons_of_neg ?_,
    List.filter_eq_self.mpr fun b hb => decide_eq_true (List.rel_of_pairwise_cons hr hb), List.nil_append]
  · simpa using fun hs => has x x hs hs
  · simpa using has a x (hc a ha x mem_cons_self)

variable {sources : List ι}

omit [DecidableEq ι] in
theorem flatMap_sublist {f g : ι → List α} (h : ∀ i ∈ sources, (f i).Sublist (g i)) :
    (sources.flatMap f).Sublist (sources.flatMap g) := by
  induction sources with
  | nil => exact List.Sublist.refl _
  | cons i sources ih =>
    rw [flatMap_cons, flatMap_cons]
    exact (h i mem_cons_self).append (ih fun j hj => h j (mem_cons_of_mem _ hj))

theorem perm_flatMap_filter (hnd : sources.Nodup) {rows : List α}
    (h : ∀ a ∈ rows, source a ∈ sources) : rows.Perm (sources.flatMap fun i => rows.filter (source · = i)) := by
  induction sources generalizing rows with
  | nil =>
    cases rows with
    | nil => exact List.Perm.refl _
    | cons a rows => cases h a mem_cons_self
  | cons i sources ih =>
    obtain ⟨hi, hs⟩ := nodup_cons.mp hnd
    have hr : (rows.filter fun a => !(decide (source a = i))).Perm (sources.flatMap fun j =>
        (rows.filter fun a => !(decide (source a = i))).filter (source · = j)) := ih hs fun a ha => by
      obtain ⟨hm, hne⟩ := List.mem_filter.mp ha
      refine (List.mem_cons.mp (h a hm)).resolve_left ?_
      simpa using hne
    refine (List.filter_append_perm (fun a => decide (source a = i)) rows).symm.trans ?_
    rw [flatMap_cons]
    refine List.Perm.append_left _ (hr.trans (List.Perm.of_eq ?_))
    refine List.flatMap_congr fun j hj => ?_
    rw [List.filter_filter]
    refine List.filter_congr fun a _ => ?_
    have hne : j ≠ i := fun heq => hi (heq ▸ hj)
    by_cases ha : source a = j
    · simp [ha, hne]
    · simp [ha]

theorem filter_flatMap {f : ι → List α} (hnd : sources.Nodup)
    (hf : ∀ i ∈ sources, ∀ a ∈ f i, source a = i) {i : ι} (hi : i ∈ sources) :
    (sources.flatMap f).filter (source · = i) = f i := by
  induction sources with
  | nil => cases hi
  | cons j sources ih =>
    obtain ⟨hj, hs⟩ := nodup_cons.mp hnd
    rw [flatMap_cons, List.filter_append]
    rcases List.mem_cons.mp hi with rfl | hi
    · rw [List.filter_eq_self.mpr fun a ha => decide_eq_true (hf _ mem_cons_self a ha),
        List.filter_eq_nil_iff.mpr fun a ha => ?_, List.append_nil]
      obtain ⟨k, hk, hm⟩ := List.mem_flatMap.mp ha
      have hsrc := hf k (mem_cons_of_mem _ hk) a hm
      simp only [decide_eq_true_eq]
      intro heq
      exact hj (heq ▸ hsrc ▸ hk)
    · rw [List.filter_eq_nil_iff.mpr fun a ha => ?_, List.nil_append,
        ih hs (fun k hk => hf k (mem_cons_of_mem _ hk)) hi]
      have hsrc := hf j mem_cons_self a ha
      simp only [decide_eq_true_eq]
      intro heq
      exact hj ((hsrc.symm.trans heq) ▸ hi)

theorem exists_take_of_cut {cmp : α → α → Ordering} {page : ι → List α} (hnd : sources.Nodup)
    (hp : ∀ i ∈ sources, ∀ a ∈ page i, source a = i)
    (hs : ∀ i ∈ sources, (page i).Pairwise fun a b => (cmp a b).isLE = true) (limit : Nat) {i : ι} (hi : i ∈ sources) :
    ∃ m, ((sortBy cmp (sources.flatMap page)).take limit).filter (source · = i) = (page i).take m :=
  ⟨_, List.prefix_iff_eq_take.mp (filter_take_merge (filter_flatMap hnd hp hi) (hs i hi) limit)⟩

omit [DecidableEq ι] in
theorem separator_inj {separator : ι} {a b x y : List ι} (ha : separator ∉ a) (hb : separator ∉ b)
    (h : a ++ separator :: x = b ++ separator :: y) : a = b ∧ x = y := by
  induction a generalizing b with
  | nil =>
    cases b with
    | nil => exact ⟨rfl, (List.cons.inj h).2⟩
    | cons d b => exact absurd ((List.cons.inj h).1 ▸ mem_cons_self) hb
  | cons c a ih =>
    cases b with
    | nil => exact absurd ((List.cons.inj h).1 ▸ mem_cons_self) ha
    | cons d b =>
      obtain ⟨rfl, ht⟩ := List.cons.inj h
      obtain ⟨rfl, rfl⟩ := ih (fun hm => ha (mem_cons_of_mem _ hm)) (fun hm => hb (mem_cons_of_mem _ hm)) ht
      exact ⟨rfl, rfl⟩

theorem nodup_eraseDups (l : List ι) : l.eraseDups.Nodup := by
  induction hn : l.length using Nat.strong_induction_on generalizing l with
  | _ n ih =>
    cases l with
    | nil => exact List.nodup_nil
    | cons a l =>
      have hl := List.length_filter_le (fun b => !b == a) l
      rw [List.length_cons] at hn
      rw [List.eraseDups_cons]
      refine nodup_cons.mpr ⟨fun hm => ?_, ih _ (by omega) _ rfl⟩
      simp at hm

theorem mapM_eq_ok {ε β : Type} {f : α → Except ε β} {g : α → β} {l : List α} (h : ∀ a ∈ l, f a = .ok (g a)) :
    l.mapM f = .ok (l.map g) := by
  induction l with
  | nil => rfl
  | cons a l ih =>
    rw [List.mapM_cons, h a mem_cons_self, ih fun b hb => h b (mem_cons_of_mem _ hb)]
    rfl

end HrcRuntime.KeysetPaging
