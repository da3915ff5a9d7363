import Mathlib.Data.List.Nodup

namespace HrcRuntime.Keyed

open List (map_map map_congr_left find?_some filter_cons_of_neg map_cons mem_cons_self)
open Function (comp_apply)

variable {ρ κ : Type} {key : ρ → κ}

structure Store (ρ : Type) {κ : Type} (key : ρ → κ) where
  rows : List ρ
  nodup : (rows.map key).Nodup

variable [DecidableEq κ]

namespace Store

def empty : Store ρ key := ⟨[], List.nodup_nil⟩

/-- `SELECT ... WHERE key = k`. -/
def find (t : Store ρ key) (k : κ) : Option ρ := t.rows.find? fun r => key r == k

/-- `UPDATE ... SET f WHERE key = k AND p`. -/
def amend (t : Store ρ key) (k : κ) (p : ρ → Bool) (f : ρ → ρ) (hf : ∀ r, key (f r) = key r) : Store ρ key :=
  ⟨t.rows.map fun r => if key r == k && p r then f r else r, by
    have hsame : (t.rows.map fun r => if key r == k && p r then f r else r).map key = t.rows.map key := by
      rw [map_map]
      refine map_congr_left fun r _ => ?_
      simp only [comp_apply]
      split
      · exact hf r
      · rfl
    rw [hsame]
    exact t.nodup⟩

/-- `UPDATE ... SET f WHERE p`. -/
def alter (t : Store ρ key) (p : ρ → Bool) (f : ρ → ρ) (hf : ∀ r, key (f r) = key r) : Store ρ key :=
  ⟨t.rows.map fun r => if p r then f r else r, by
    have hsame : (t.rows.map fun r => if p r then f r else r).map key = t.rows.map key := by
      rw [map_map]
      refine map_congr_left fun r _ => ?_
      simp only [comp_apply]
      split
      · exact hf r
      · rfl
    rw [hsame]
    exact t.nodup⟩

/-- Whether an update of `k` under `p` changes a row. -/
def hits (t : Store ρ key) (k : κ) (p : ρ → Bool) : Bool := (t.find k).any p

/-- `INSERT OR IGNORE`. -/
def add (t : Store ρ key) (r : ρ) : Store ρ key :=
  if h : key r ∈ t.rows.map key then t
  else ⟨t.rows ++ [r], by
    rw [List.map_append, List.map_singleton]
    exact List.nodup_append.mpr ⟨t.nodup, List.nodup_singleton _, by
      rintro _ ha _ hb rfl
      rw [List.mem_singleton.mp hb] at ha
      exact h ha⟩⟩

/-- `INSERT ... ON CONFLICT(key) DO UPDATE SET merge`. -/
def upsert (t : Store ρ key) (r : ρ) (merge : ρ → ρ) (hmerge : ∀ r, key (merge r) = key r) : Store ρ key :=
  if (t.find (key r)).isSome then t.amend (key r) (fun _ => true) merge hmerge else t.add r

/-- `DELETE ... WHERE p`. -/
def erase (t : Store ρ key) (p : ρ → Bool) : Store ρ key :=
  ⟨t.rows.filter fun r => !p r, t.nodup.sublist (List.filter_sublist.map key)⟩

end Store

variable {t : Store ρ key} {k k' : κ} {p : ρ → Bool} {f : ρ → ρ} {r : ρ}

theorem find_mem (h : t.find k = some r) : r ∈ t.rows ∧ key r = k :=
  ⟨List.mem_of_find?_eq_some h, by simpa using find?_some h⟩

theorem find_of_mem (h : r ∈ t.rows) : t.find (key r) = some r := by
  rcases hf : t.find (key r) with _ | a
  · have := List.find?_eq_none.mp hf r h
    simp at this
  · obtain ⟨ha, hk⟩ := find_mem hf
    rw [List.inj_on_of_nodup_map t.nodup ha h hk]

theorem find_eq_none : t.find k = none ↔ k ∉ t.rows.map key := by
  unfold Store.find
  rw [List.find?_eq_none]
  simp

@[simp] theorem find_empty : (Store.empty : Store ρ key).find k = none := rfl

theorem find_amend_self (hf : ∀ r, key (f r) = key r) :
    (t.amend k p f hf).find k = (t.find k).map fun r => if p r then f r else r := by
  unfold Store.find Store.amend
  dsimp only
  rw [List.find?_map]
  have hc : ((fun r => key r == k) ∘ fun r => if key r == k && p r then f r else r) = fun r => key r == k := by
    funext r
    simp only [comp_apply]
    split
    · rw [hf]
    · rfl
  rw [hc]
  rcases h : t.rows.find? fun r => key r == k with _ | r
  · rfl
  · have := find?_some h
    simp_all

theorem find_amend_of_ne (hf : ∀ r, key (f r) = key r) (h : k' ≠ k) :
    (t.amend k p f hf).find k' = t.find k' := by
  unfold Store.find Store.amend
  dsimp only
  rw [List.find?_map]
  have hc : ((fun r => key r == k') ∘ fun r => if key r == k && p r then f r else r) = fun r => key r == k' := by
    funext r
    simp only [comp_apply]
    split
    · rw [hf]
    · rfl
  rw [hc]
  rcases hfn : t.rows.find? fun r => key r == k' with _ | r
  · rfl
  · have hr := find?_some hfn
    have hne : ¬ key r = k := by
      rw [eq_of_beq hr]
      exact h
    simp [hne]

theorem amend_eq_self (hf : ∀ r, key (f r) = key r) (h : ∀ r, t.find k = some r → p r → f r = r) :
    t.amend k p f hf = t := by
  have hrw : (t.rows.map fun r => if key r == k && p r then f r else r) = t.rows := by
    refine (map_congr_left fun r hr => ?_).trans (List.map_id _)
    by_cases hk : key r = k
    · by_cases hp : p r
      · simp [h r (hk ▸ find_of_mem hr) hp]
      · simp [hp]
    · simp [hk]
  cases t
  simpa [Store.amend] using hrw

theorem find_add_self (h : t.find (key r) = none) : (t.add r).find (key r) = some r := by
  unfold Store.add
  rw [dif_neg (find_eq_none.mp h)]
  unfold Store.find at h ⊢
  rw [List.find?_append, h]
  simp

theorem find_add_of_ne (h : k ≠ key r) : (t.add r).find k = t.find k := by
  unfold Store.add
  split
  · rfl
  · have : (key r == k) = false := by simpa using Ne.symm h
    simp [Store.find, List.find?_append, this]

variable {a : ρ}

theorem find_add_of_some (h : t.find k = some a) : (t.add r).find k = some a := by
  by_cases hk : k = key r
  · subst hk
    unfold Store.add
    rw [dif_pos (not_not.mp fun hm => by rw [find_eq_none.mpr hm] at h; cases h)]
    exact h
  · rw [find_add_of_ne hk]
    exact h

theorem mem_add : a ∈ (t.add r).rows ↔ a ∈ t.rows ∨ a = r ∧ t.find (key r) = none := by
  unfold Store.add
  split
  · rename_i h
    exact ⟨.inl, fun ha => ha.resolve_right fun hr => find_eq_none.mp hr.2 h⟩
  · rename_i h
    simp [find_eq_none.mpr h]

theorem mem_amend (hf : ∀ r, key (f r) = key r) :
    a ∈ (t.amend k p f hf).rows ↔ ∃ r ∈ t.rows, (if key r == k && p r then f r else r) = a := List.mem_map

theorem rows_add (h : t.find (key r) = none) : (t.add r).rows = t.rows ++ [r] := by
  unfold Store.add
  rw [dif_neg (find_eq_none.mp h)]

theorem map_amend {β : Type} {g : ρ → β} (hf : ∀ r, key (f r) = key r) (hg : ∀ r, g (f r) = g r) :
    (t.amend k p f hf).rows.map g = t.rows.map g := by
  refine (map_map).trans (map_congr_left fun r _ => ?_)
  simp only [comp_apply]
  split
  · exact hg r
  · rfl

theorem mem_erase : a ∈ (t.erase p).rows ↔ a ∈ t.rows ∧ p a = false := by
  simp [Store.erase, List.mem_filter]

theorem add_eq_self (h : (t.find (key r)).isSome) : t.add r = t := by
  obtain ⟨a, ha⟩ := Option.isSome_iff_exists.mp h
  obtain ⟨hm, hk⟩ := find_mem ha
  unfold Store.add
  rw [dif_pos (hk ▸ List.mem_map_of_mem hm)]

theorem find_upsert_self (hf : ∀ r, key (f r) = key r) :
    (t.upsert r f hf).find (key r) = some (((t.find (key r)).map f).getD r) := by
  unfold Store.upsert
  rcases h : t.find (key r) with _ | a
  · simpa using find_add_self h
  · simp [find_amend_self hf, h]

theorem find_upsert_of_ne (hf : ∀ r, key (f r) = key r) (h : k ≠ key r) :
    (t.upsert r f hf).find k = t.find k := by
  unfold Store.upsert
  split
  · exact find_amend_of_ne hf h
  · exact find_add_of_ne h

theorem rows_upsert (hf : ∀ r, key (f r) = key r) (h : t.find (key r) = none) : (t.upsert r f hf).rows = t.rows ++ [r] := by
  unfold Store.upsert
  rw [h]
  exact rows_add h

variable {q : ρ → Bool}

theorem filter_upsert (hf : ∀ r, key (f r) = key r) (hq : ∀ a, key a = key r → q a = false) :
    (t.upsert r f hf).rows.filter q = t.rows.filter q := by
  unfold Store.upsert
  cases h : t.find (key r) with
  | none =>
    rw [if_neg (by simp), rows_add h, List.filter_append, filter_cons_of_neg (by simp [hq r rfl]), List.filter_nil,
      List.append_nil]
  | some a =>
    rw [if_pos (Option.isSome_some)]
    have hm (rows : List ρ) :
        (rows.map fun a => if key a == key r && true then f a else a).filter q = rows.filter q := by
      induction rows with
      | nil => rfl
      | cons a rows ih =>
        rw [map_cons]
        by_cases hk : key a = key r
        · rw [if_pos (by simpa using hk), filter_cons_of_neg (by simp [hq _ ((hf a).trans hk)]),
            filter_cons_of_neg (by simp [hq a hk]), ih]
        · rw [if_neg (by simpa using hk), List.filter_cons, List.filter_cons, ih]
    exact hm t.rows

theorem find_eq_some : t.find k = some r ↔ r ∈ t.rows ∧ key r = k :=
  ⟨find_mem, fun ⟨hr, hk⟩ => hk ▸ find_of_mem hr⟩

theorem find_erase : (t.erase p).find k = (t.find k).filter fun r => !p r := by
  refine Option.ext fun r => ?_
  rw [find_eq_some, Option.filter_eq_some_iff, find_eq_some]
  simp only [Store.erase, List.mem_filter]
  tauto

theorem find_amend_some {j : κ} (hf : ∀ r, key (f r) = key r) (h : t.find k = some a) :
    ∃ b, (t.amend j p f hf).find k = some b ∧ (b = a ∨ b = f a ∧ k = j ∧ p a = true) := by
  by_cases hk : k = j
  · subst hk
    rw [find_amend_self, h]
    by_cases hp : p a = true
    · exact ⟨f a, by simp [hp], .inr ⟨rfl, rfl, hp⟩⟩
    · exact ⟨a, by simp [hp], .inl rfl⟩
  · exact ⟨a, by rw [find_amend_of_ne hf hk]; exact h, .inl rfl⟩

theorem find_amend_none {j : κ} (hf : ∀ r, key (f r) = key r) (h : t.find k = none) : (t.amend j p f hf).find k = none := by
  by_cases hk : k = j
  · subst hk
    rw [find_amend_self, h]
    rfl
  · rw [find_amend_of_ne hf hk]
    exact h

theorem any_erase (h : ∀ r ∈ t.rows, p r = true → q r = false) : (t.erase p).rows.any q = t.rows.any q := by
  rw [Bool.eq_iff_iff, List.any_eq_true, List.any_eq_true]
  constructor
  · rintro ⟨r, hr, hq⟩
    exact ⟨r, (mem_erase.mp hr).1, hq⟩
  · rintro ⟨r, hr, hq⟩
    refine ⟨r, mem_erase.mpr ⟨hr, ?_⟩, hq⟩
    cases hp : p r with
    | false => rfl
    | true =>
      rw [h r hr hp] at hq
      cases hq

theorem erased (hr : r ∈ t.rows) (h : r ∉ (t.erase p).rows) : p r = true := by
  cases hp : p r with
  | true => rfl
  | false => exact absurd (mem_erase.mpr ⟨hr, hp⟩) h

theorem filterMap_only {β : Type} {g : ρ → Option β} (h : t.find k = some a)
    (hg : ∀ r ∈ t.rows, key r ≠ k → g r = none) : t.rows.filterMap g = (g a).toList := by
  obtain ⟨ha, hka⟩ := find_mem h
  obtain ⟨before, after, hrw⟩ := List.append_of_mem ha
  have hnd := t.nodup
  rw [hrw, List.map_append, map_cons, List.nodup_append, List.nodup_cons] at hnd
  have hbef : before.filterMap g = [] := by
    refine List.filterMap_eq_nil_iff.mpr fun r hr => hg r (hrw ▸ List.mem_append_left _ hr) fun hkr => ?_
    exact hnd.2.2 (key r) (List.mem_map_of_mem hr) (key a) (mem_cons_self ..) (hkr.trans hka.symm)
  have haft : after.filterMap g = [] := by
    refine List.filterMap_eq_nil_iff.mpr fun r hr =>
      hg r (hrw ▸ List.mem_append_right _ (List.mem_cons_of_mem _ hr)) fun hkr => ?_
    exact hnd.2.1.1 (hka.trans hkr.symm ▸ List.mem_map_of_mem hr)
  rw [hrw, List.filterMap_append, List.filterMap_cons, hbef, haft]
  cases g a <;> rfl

theorem filter_amend (hf : ∀ r, key (f r) = key r)
    (hq : ∀ a ∈ t.rows, key a = k → q a = false ∧ q (f a) = false) :
    (t.amend k p f hf).rows.filter q = t.rows.filter q := by
  have hm (rows : List ρ) (hr : ∀ a ∈ rows, a ∈ t.rows) :
      (rows.map fun a => if key a == k && p a then f a else a).filter q = rows.filter q := by
    induction rows with
    | nil => rfl
    | cons a rows ih =>
      have ht := ih fun b hb => hr b (List.mem_cons_of_mem _ hb)
      have hh : q (if key a == k && p a then f a else a) = q a := by
        split
        · rename_i h
          obtain ⟨ha, hfa⟩ := hq a (hr a (mem_cons_self ..)) (by simp at h; exact h.1)
          rw [ha, hfa]
        · rfl
      rw [map_cons]
      cases hqa : q a with
      | true =>
        have hs : (if key a == k && p a then f a else a) = a := by
          refine if_neg fun h => ?_
          have := (hq a (hr a (mem_cons_self ..)) (by simp at h; exact h.1)).1
          rw [hqa] at this
          cases this
        rw [hs, List.filter_cons_of_pos hqa, List.filter_cons_of_pos hqa, ht]
      | false => rw [filter_cons_of_neg (by rw [hh, hqa]; exact Bool.false_ne_true), filter_cons_of_neg (by simp [hqa]), ht]
  exact hm t.rows fun _ => id

theorem mem_alter (hf : ∀ r, key (f r) = key r) :
    a ∈ (t.alter p f hf).rows ↔ ∃ r ∈ t.rows, (if p r then f r else r) = a := List.mem_map

theorem keys_alter (hf : ∀ r, key (f r) = key r) : (t.alter p f hf).rows.map key = t.rows.map key := by
  refine (map_map).trans (map_congr_left fun r _ => ?_)
  simp only [comp_apply]
  split
  · exact hf r
  · rfl

end HrcRuntime.Keyed
