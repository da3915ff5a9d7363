import Mathlib.Data.List.Sort

namespace HrcRuntime.Relational

variable {ρ κ : Type}

def Clash (ix : ρ → Option κ) (a b : ρ) : Prop := (ix a).isSome = true ∧ ix a = ix b

instance [DecidableEq κ] (ix : ρ → Option κ) (a b : ρ) : Decidable (Clash ix a b) := by unfold Clash; infer_instance

def Unique (indexes : List (ρ → Option κ)) (rows : List ρ) : Prop :=
  rows.Pairwise fun a b => ∀ ix ∈ indexes, ¬ Clash ix a b

instance [DecidableEq κ] (indexes : List (ρ → Option κ)) (rows : List ρ) : Decidable (Unique indexes rows) := by
  unfold Unique; infer_instance

structure Table (ρ : Type) {κ : Type} (indexes : List (ρ → Option κ)) where
  rows : List ρ
  unique : Unique indexes rows

variable {indexes : List (ρ → Option κ)}

def Table.empty : Table ρ indexes := ⟨[], List.Pairwise.nil⟩

theorem row_unique (t : Table ρ indexes) (ix : ρ → Option κ) (hix : ix ∈ indexes) {a b : ρ} {k : κ}
    (ha : a ∈ t.rows) (hb : b ∈ t.rows) (hka : ix a = some k) (hkb : ix b = some k) : a = b := by
  by_contra hne
  have hc : Clash ix a b := ⟨by rw [hka]; rfl, by rw [hka, hkb]⟩
  have hcl' : Clash ix b a := ⟨by rw [hkb]; rfl, by rw [hka, hkb]⟩
  obtain ⟨i, hi, rfl⟩ := List.getElem_of_mem ha
  obtain ⟨j, hj, rfl⟩ := List.getElem_of_mem hb
  rcases Nat.lt_trichotomy i j with hij | rfl | hij
  · exact List.pairwise_iff_getElem.mp t.unique i j hi hj hij ix hix hc
  · exact hne rfl
  · exact List.pairwise_iff_getElem.mp t.unique j i hj hi hij ix hix hcl'

section Statements

variable [DecidableEq κ]

namespace Table

def ofRows? (indexes : List (ρ → Option κ)) (rows : List ρ) : Option (Table ρ indexes) :=
  if h : Unique indexes rows then some ⟨rows, h⟩ else none

def insert (t : Table ρ indexes) (r : ρ) : Option (Table ρ indexes) := ofRows? indexes (t.rows ++ [r])

/-- `UPDATE ... SET f WHERE p`. -/
def update (t : Table ρ indexes) (p : ρ → Bool) (f : ρ → ρ) : Option (Table ρ indexes) :=
  ofRows? indexes (t.rows.map fun r => if p r then f r else r)

/-- `DELETE ... WHERE p`. -/
def delete (t : Table ρ indexes) (p : ρ → Bool) : Table ρ indexes := ⟨t.rows.filter (!p ·), t.unique.filter _⟩

/-- `SELECT ... WHERE p LIMIT 1`. -/
def find? (t : Table ρ indexes) (p : ρ → Bool) : Option ρ := t.rows.find? p

def get? (t : Table ρ indexes) (ix : ρ → Option κ) (k : κ) : Option ρ := t.find? fun r => ix r == some k

end Table

/-- `INSERT ... ON CONFLICT DO UPDATE SET merge`. -/
def upsert (t : Table ρ indexes) (key : ρ → Bool) (fresh : ρ) (merge : ρ → ρ) : Option (Table ρ indexes) :=
  if (t.find? key).isSome then t.update key merge else t.insert fresh

variable {t t' : Table ρ indexes} {p : ρ → Bool} {f : ρ → ρ}

theorem ofRows?_eq_some {rows : List ρ} (h : Table.ofRows? indexes rows = some t) :
    t.rows = rows := by
  unfold Table.ofRows? at h
  split at h
  · injection h with h
    rw [← h]
  · contradiction

theorem insert_rows {r : ρ} (h : t.insert r = some t') :
    t'.rows = t.rows ++ [r] := ofRows?_eq_some h

theorem update_rows (h : t.update p f = some t') :
    t'.rows = t.rows.map fun r => if p r then f r else r := ofRows?_eq_some h

theorem insert_fresh {r : ρ} (h : t.insert r = some t') (ix : ρ → Option κ)
    (hix : ix ∈ indexes) {k : κ} (hk : ix r = some k) : ∀ a ∈ t.rows, ix a ≠ some k := by
  intro a ha hka
  have hu := t'.unique
  rw [insert_rows h] at hu
  have hc := (List.pairwise_append.mp hu).2.2 a ha r (List.mem_singleton_self r) ix hix
  exact hc ⟨by rw [hka]; rfl, hka.trans hk.symm⟩

theorem exists_update (hk : ∀ ix ∈ indexes, ∀ r, ix (f r) = ix r) :
    ∃ t', t.update p f = some t' := by
  have hu : Unique indexes (t.rows.map fun r => if p r then f r else r) := by
    refine List.pairwise_map.mpr (t.unique.imp fun {a b} h ix hix hc => h ix hix ?_)
    have hs (r : ρ) : ix (if p r then f r else r) = ix r := by
      split
      · exact hk ix hix r
      · rfl
    simpa only [Clash, hs] using hc
  exact ⟨⟨_, hu⟩, dif_pos hu⟩

theorem find?_update (h : t.update p f = some t')
    {q : ρ → Bool} (hq : ∀ r, q (f r) = q r) : t'.find? q = (t.find? q).map fun r => if p r then f r else r := by
  unfold Table.find?
  rw [update_rows h, List.find?_map]
  congr 2
  funext r
  simp only [Function.comp_apply]
  split <;> simp [hq]

theorem filter_update (h : t.update p f = some t')
    {q : ρ → Bool} (hq : ∀ r, q (f r) = q r) (hp : ∀ r, q r = true → p r = false) :
    t'.rows.filter q = t.rows.filter q := by
  have hs : (q ∘ fun r => if p r then f r else r) = q := by
    funext r
    simp only [Function.comp_apply]
    split <;> simp [hq]
  rw [update_rows h, List.filter_map, hs]
  refine (List.map_congr_left fun r hr => ?_).trans (List.map_id _)
  rw [hp r (List.mem_filter.mp hr).2]
  rfl

theorem find?_insert {r : ρ} (h : t.insert r = some t') (q : ρ → Bool) :
    t'.find? q = (t.find? q).or (if q r then some r else none) := by
  unfold Table.find?
  rw [insert_rows h, List.find?_append]
  cases hq : q r <;> simp [hq]

end Statements

section Upserts

variable [DecidableEq κ] {key : ρ → κ} {t : Table ρ [fun r => some (key r)]} {k : κ} {fresh : ρ} {merge : ρ → ρ}

theorem exists_insert (hfr : t.find? (fun r => key r == key fresh) = none) : ∃ t', t.insert fresh = some t' := by
  have hu : Unique [fun r => some (key r)] (t.rows ++ [fresh]) := by
    refine List.pairwise_append.mpr ⟨t.unique, List.pairwise_singleton _ _, fun a ha b hb ix hix hc => ?_⟩
    obtain rfl := List.mem_singleton.mp hb
    obtain rfl := List.mem_singleton.mp hix
    have := List.find?_eq_none.mp hfr a ha
    simp [Clash] at hc
    simp [hc] at this
  exact ⟨⟨_, hu⟩, dif_pos hu⟩

/-- An upsert on a primary key merges into the row of that key or stores the fresh one, and
leaves every other key alone. -/
theorem upsert_spec (hfr : key fresh = k) (hm : ∀ r, key (merge r) = key r) :
    ∃ t', upsert t (fun r => key r == k) fresh merge = some t' ∧ ∀ k', t'.find? (fun r => key r == k') =
      if k' = k then some (((t.find? fun r => key r == k).map merge).getD fresh)
      else t.find? fun r => key r == k' := by
  unfold upsert
  rcases hf : t.find? fun r => key r == k with _ | r
  · subst hfr
    obtain ⟨t', ht'⟩ := exists_insert hf
    refine ⟨t', by simpa using ht', fun k' => ?_⟩
    rw [find?_insert ht']
    by_cases hk : k' = key fresh
    · subst hk
      simp [hf]
    · have : (key fresh == k') = false := by simpa using Ne.symm hk
      simp [hk, this]
  · obtain ⟨t', ht'⟩ := exists_update (t := t) (p := fun r => key r == k) (f := merge) fun ix hix r => by
      obtain rfl := List.mem_singleton.mp hix
      exact congrArg some (hm r)
    refine ⟨t', by simpa using ht', fun k' => ?_⟩
    rw [find?_update ht' (fun r => by rw [hm])]
    by_cases hk : k' = k
    · subst hk
      have hr := List.find?_some hf
      simp_all
    · rcases hoth : t.find? fun r => key r == k' with _ | a
      · simp [hk]
      · have ha := List.find?_some hoth
        have hne : ¬ key a = k := by
          rw [eq_of_beq ha]
          exact hk
        simp [hk, hne]

end Upserts

section Evolution

variable {γ : Type}

/-- Every row of `t` is still in `t'` under its key, related to what it was by `rel`. -/
def Evolves (key : ρ → γ) (rel : ρ → ρ → Prop) (t t' : Table ρ indexes) : Prop :=
  ∀ r ∈ t.rows, ∃ r' ∈ t'.rows, key r' = key r ∧ rel r r'

variable {key : ρ → γ} {rel : ρ → ρ → Prop}

theorem Evolves.refl (hrel : ∀ r, rel r r) (t : Table ρ indexes) : Evolves key rel t t :=
  fun r hr => ⟨r, hr, rfl, hrel r⟩

theorem Evolves.trans (hrel : ∀ a b c, rel a b → rel b c → rel a c) {t₁ t₂ t₃ : Table ρ indexes}
    (h₁ : Evolves key rel t₁ t₂) (h₂ : Evolves key rel t₂ t₃) : Evolves key rel t₁ t₃ := by
  intro r hr
  obtain ⟨r₂, hr₂, hk₂, hrel₂⟩ := h₁ r hr
  obtain ⟨r₃, hr₃, hk₃, hrel₃⟩ := h₂ r₂ hr₂
  exact ⟨r₃, hr₃, hk₃.trans hk₂, hrel _ _ _ hrel₂ hrel₃⟩

variable {t t' : Table ρ indexes}

theorem evolves_insert [DecidableEq κ] (hr : ∀ r, rel r r) {r : ρ} (h : t.insert r = some t') :
    Evolves key rel t t' := by
  intro a ha
  refine ⟨a, ?_, rfl, hr a⟩
  rw [insert_rows h]
  exact List.mem_append_left _ ha

theorem evolves_update [DecidableEq κ] (hr : ∀ r, rel r r) {p : ρ → Bool} {f : ρ → ρ}
    (h : t.update p f = some t') (hk : ∀ r, key (f r) = key r) (hf : ∀ r ∈ t.rows, p r → rel r (f r)) :
    Evolves key rel t t' := by
  intro a ha
  refine ⟨if p a then f a else a, ?_, ?_, ?_⟩
  · rw [update_rows h]
    exact List.mem_map_of_mem ha
  · split
    · exact hk a
    · rfl
  · split
    · exact hf a ha ‹_›
    · exact hr a

end Evolution

/-- `ORDER BY key ASC`. -/
def orderBy (key : ρ → Nat) (rows : List ρ) : List ρ := rows.insertionSort fun a b => key a ≤ key b

variable {key : ρ → Nat}

variable {rows : List ρ}

theorem mem_orderBy {r : ρ} : r ∈ orderBy key rows ↔ r ∈ rows :=
  List.mem_insertionSort _

theorem pairwise_orderBy (key : ρ → Nat) (rows : List ρ) :
    (orderBy key rows).Pairwise fun a b => key a ≤ key b := by
  have : Std.Total fun a b : ρ => key a ≤ key b := ⟨fun a b => Nat.le_total _ _⟩
  have : IsTrans ρ fun a b => key a ≤ key b := ⟨fun _ _ _ => Nat.le_trans⟩
  exact List.pairwise_insertionSort _ _

theorem orderedInsert_concat {a r : ρ} (h : key a ≤ key r) (l : List ρ) :
    (l ++ [r]).orderedInsert (fun a b => key a ≤ key b) a = l.orderedInsert (fun a b => key a ≤ key b) a ++ [r] := by
  induction l with
  | nil => simp [h]
  | cons b l ih =>
    rw [List.cons_append, List.orderedInsert_cons, List.orderedInsert_cons, ih]
    split <;> rfl

theorem orderBy_concat {r : ρ} (h : ∀ a ∈ rows, key a ≤ key r) :
    orderBy key (rows ++ [r]) = orderBy key rows ++ [r] := by
  unfold orderBy
  induction rows with
  | nil => rfl
  | cons a rows ih =>
    rw [List.cons_append, List.insertionSort_cons, List.insertionSort_cons,
      ih fun b hb => h b (List.mem_cons_of_mem _ hb), orderedInsert_concat (h a List.mem_cons_self)]

theorem eq_of_ascending {l l' : List ρ} (h : l.Pairwise fun a b => key a < key b)
    (h' : l'.Pairwise fun a b => key a < key b) (hmem : ∀ r, r ∈ l ↔ r ∈ l') : l = l' := by
  have hnd : ∀ m : List ρ, m.Pairwise (fun a b => key a < key b) → m.Nodup := fun m hm => by
    refine List.Pairwise.imp (fun hlt heq => ?_) hm
    rw [heq] at hlt
    exact Nat.lt_irrefl _ hlt
  refine List.Perm.eq_of_pairwise (fun a b _ _ hab hba => ?_) h h'
    ((List.perm_ext_iff_of_nodup (hnd l h) (hnd l' h')).mpr hmem)
  exact absurd hab (Nat.lt_asymm hba)

theorem ascending_orderBy (h : (rows.map key).Nodup) :
    (orderBy key rows).Pairwise fun a b => key a < key b := by
  have hnd : ((orderBy key rows).map key).Nodup :=
    ((List.perm_insertionSort _ rows).map key).nodup_iff.mpr h
  exact ((pairwise_orderBy key rows).and (List.pairwise_map.mp hnd)).imp fun ⟨hle, hne⟩ => Nat.lt_of_le_of_ne hle hne

end HrcRuntime.Relational
