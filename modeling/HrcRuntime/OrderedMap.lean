import Mathlib.Data.List.Nodup

namespace HrcRuntime.OrderedMap

open List (mem_cons_self mem_cons_of_mem nodup_cons mem_cons)

variable {κ β : Type} [DecidableEq κ] {m es : List (κ × β)} {k k' : κ} {v : β}

@[grind =]
def get (k : κ) : List (κ × β) → Option β
  | [] => none
  | e :: m => if e.1 = k then some e.2 else get k m

@[grind =]
def set (k : κ) (v : β) : List (κ × β) → List (κ × β)
  | [] => [(k, v)]
  | e :: m => if e.1 = k then (k, v) :: m else e :: set k v m

def keys (m : List (κ × β)) : List κ := m.map (·.1)

def setAll (es m : List (κ × β)) : List (κ × β) := es.foldl (fun m e => set e.1 e.2 m) m

@[simp] theorem get_set_self : get k (set k v m) = some v := by
  induction m with
  | nil => simp [set, get]
  | cons e m ih =>
    by_cases h : e.1 = k
    · simp [set, get, h]
    · simp [set, get, h, ih]

theorem get_set_of_ne (h : k' ≠ k) : get k' (set k v m) = get k' m := by
  induction m with
  | nil => simp [set, get, Ne.symm h]
  | cons e m ih =>
    by_cases he : e.1 = k
    · simp [set, get, he, Ne.symm h]
    · simp [set, get, he, ih]

theorem get_set : get k' (set k v m) = if k' = k then some v else get k' m := by
  split
  · subst k'
    exact get_set_self
  · exact get_set_of_ne ‹_›

theorem get_eq_none : get k m = none ↔ k ∉ keys m := by
  induction m with
  | nil => simp [get, keys]
  | cons e m ih =>
    by_cases h : e.1 = k
    · simp [get, keys, h]
    · simpa [get, keys, h, Ne.symm h] using ih

theorem get_isSome : (get k m).isSome ↔ k ∈ keys m := by
  rw [Option.isSome_iff_ne_none, ne_eq, get_eq_none, not_not]

theorem mem_of_get (h : get k m = some v) : (k, v) ∈ m := by
  induction m with
  | nil => cases h
  | cons e m ih =>
    simp only [get] at h
    split at h
    · rename_i he
      subst he
      cases h
      exact mem_cons_self
    · exact mem_cons_of_mem _ (ih h)

theorem get_of_mem (hm : (keys m).Nodup) (h : (k, v) ∈ m) : get k m = some v := by
  induction m with
  | nil => cases h
  | cons e m ih =>
    obtain ⟨he, hm⟩ := nodup_cons.mp hm
    rcases mem_cons.mp h with rfl | h
    · exact if_pos rfl
    · have hmem : k ∈ keys m := List.mem_map_of_mem h
      have hne : e.1 ≠ k := by
        intro heq
        apply he
        exact (congrArg (· ∈ keys m) heq).mpr hmem
      simp only [get, if_neg hne]
      exact ih hm h

theorem mem_keys_set : k' ∈ keys (set k v m) ↔ k' = k ∨ k' ∈ keys m := by
  rw [← get_isSome, ← get_isSome, get_set]
  split
  · simp [*]
  · simp [*]

variable {e : κ × β}

theorem mem_set (h : e ∈ set k v m) : e = (k, v) ∨ e ∈ m := by
  induction m with
  | nil => exact .inl (List.mem_singleton.mp h)
  | cons e' m ih =>
    simp only [set] at h
    split at h
    · rcases mem_cons.mp h with h | h
      · exact .inl h
      · exact .inr (mem_cons_of_mem _ h)
    · rcases mem_cons.mp h with h | h
      · exact .inr (h ▸ mem_cons_self)
      · exact (ih h).imp_right (mem_cons_of_mem _)

theorem mem_set_self : (k, v) ∈ set k v m := by
  induction m with
  | nil => exact List.mem_singleton_self _
  | cons e m ih =>
    simp only [set]
    split
    · exact mem_cons_self
    · exact mem_cons_of_mem _ ih

theorem mem_set_of_ne (h : e ∈ m) (hne : e.1 ≠ k) : e ∈ set k v m := by
  induction m with
  | nil => cases h
  | cons e' m ih =>
    simp only [set]
    rcases mem_cons.mp h with rfl | h
    · rw [if_neg hne]
      exact mem_cons_self
    · split
      · exact mem_cons_of_mem _ h
      · exact mem_cons_of_mem _ (ih h)

theorem nodup_set (hm : (keys m).Nodup) : (keys (set k v m)).Nodup := by
  induction m with
  | nil => exact List.nodup_singleton _
  | cons e m ih =>
    obtain ⟨he, hm'⟩ := nodup_cons.mp hm
    by_cases h : e.1 = k
    · subst h
      simpa [set, keys] using hm
    · have hn : e.1 ∉ keys (set k v m) := fun hmem => (mem_keys_set.mp hmem).elim h he
      have hk : keys (set k v (e :: m)) = e.1 :: keys (set k v m) := by simp only [set, if_neg h, keys, List.map_cons]
      rw [hk]
      exact nodup_cons.mpr ⟨hn, ih hm'⟩

theorem nodup_setAll (hm : (keys m).Nodup) : (keys (setAll es m)).Nodup := by
  induction es generalizing m with
  | nil => exact hm
  | cons e es ih => exact ih (nodup_set hm)

theorem get_setAll (hes : (keys es).Nodup) : get k (setAll es m) = (get k es).or (get k m) := by
  induction es generalizing m with
  | nil => rfl
  | cons e es ih =>
    obtain ⟨he, hes⟩ := nodup_cons.mp hes
    have hr : get e.1 es = none := get_eq_none.mpr he
    have hs : get k (setAll (e :: es) m) = (get k es).or (get k (set e.1 e.2 m)) := ih hes
    rw [hs, get_set]
    by_cases h : e.1 = k
    · subst h
      simp [get, hr]
    · simp [get, h, Ne.symm h]

theorem mem_setAll (h : e ∈ setAll es m) : e ∈ es ∨ e ∈ m := by
  induction es generalizing m with
  | nil => exact .inr h
  | cons e' es ih =>
    rcases ih (m := set e'.1 e'.2 m) h with h | h
    · exact .inl (mem_cons_of_mem _ h)
    · rcases mem_set h with rfl | h
      · exact .inl mem_cons_self
      · exact .inr h

theorem get_setAll_last : get k (setAll es m) = (((es.filter (·.1 = k)).getLast?.map (·.2)).or (get k m)) := by
  induction es generalizing m with
  | nil => rfl
  | cons e es ih =>
    have hs : get k (setAll (e :: es) m) = _ := ih (m := set e.1 e.2 m)
    rw [hs, get_set]
    by_cases h : e.1 = k
    · subst h
      rw [List.filter_cons_of_pos (by simp), List.getLast?_cons, if_pos rfl]
      rcases hl : (es.filter (·.1 = e.1)).getLast? with _ | last <;> rw [hl] <;> rfl
    · rw [List.filter_cons_of_neg (by simpa using h), if_neg (Ne.symm h)]

end HrcRuntime.OrderedMap
