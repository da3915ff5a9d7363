import HrcRuntime.SessionMetadata
import Mathlib.Data.List.Perm.Subperm

namespace HrcRuntime.SessionMetadata

open OrderedMap

def PrefixFree (ks : List String) : Prop := ∀ a ∈ ks, ∀ b ∈ ks, startsUnder a b = false

theorem PrefixFree.subset {ks ks' : List String} (h : PrefixFree ks) (hs : ks' ⊆ ks) : PrefixFree ks' :=
  fun a ha b hb => h a (hs ha) b (hs hb)

theorem startsUnder_self (key : String) : startsUnder key key = false := by
  by_contra h
  have hl := (List.isPrefixOf_iff_prefix.mp ((Bool.not_eq_false _).mp h)).length_le
  simp only [List.length_append, List.length_singleton] at hl
  omega

section Held

variable {registered : Bool} {entries : List (String × Value)} {held : List String} {key : String}

variable {k : String}

theorem mem_addKey : k ∈ addKey held key ↔ k ∈ held ∨ k = key := by
  simp only [addKey]
  split
  · exact ⟨Or.inl, fun h => h.elim id fun h => h ▸ ‹key ∈ held›⟩
  · simp

theorem nodup_addKey (h : held.Nodup) : (addKey held key).Nodup := by
  simp only [addKey]
  split
  · exact h
  · rename_i hn
    exact List.nodup_append.mpr ⟨h, List.nodup_singleton _, by
      rintro a ha _ hb rfl
      exact hn (List.mem_singleton.mp hb ▸ ha)⟩

theorem mem_foldl_addKey {ks : List String} : k ∈ ks.foldl addKey held ↔ k ∈ held ∨ k ∈ ks := by
  induction ks generalizing held with
  | nil => simp
  | cons a ks ih =>
    rw [List.foldl_cons, ih, mem_addKey, List.mem_cons, or_assoc]

theorem nodup_foldl_addKey {ks : List String} (h : held.Nodup) : (ks.foldl addKey held).Nodup := by
  induction ks generalizing held with
  | nil => exact h
  | cons a ks ih => exact ih (nodup_addKey h)

@[grind =]
def heldAfter (registered : Bool) : List (String × Value) → List String → List String
  | [], held => held
  | (key, value) :: entries, held =>
    match admitEntry registered held key value with
    | .error _ => heldAfter registered entries held
    | .ok _ => heldAfter registered entries (addKey held key)

variable {acc : Validation} {value value' : Value}

theorem admitEntry_ok (h : admitEntry registered held key value = .ok value') :
    validateSessionMetadataEntry key (some value) registered = .ok value' ∧
      (∀ other ∈ held, other ≠ key → startsUnder key other = false ∧ startsUnder other key = false) ∧
      (key ∈ held ∨ held.length < SESSION_METADATA_MAX_KEYS) := by
  simp only [admitEntry] at h
  cases hv : validateSessionMetadataEntry key (some value) registered with
  | error reason =>
    rw [hv] at h
    cases h
  | ok v =>
    rw [hv] at h
    dsimp only at h
    split at h
    · cases h
    · rename_i hf
      split at h
      · cases h
      · rename_i hr
        refine ⟨congrArg _ (Except.ok.inj h), fun other hoth hne => ?_, ?_⟩
        · have hn := List.find?_eq_none.mp hf other hoth
          simpa [hne] using hn
        · by_contra hfl
          exact hr ⟨fun hm => hfl (Or.inl hm), Nat.not_lt.mp fun hlt => hfl (Or.inr hlt)⟩

theorem admitEntry_error {reason : String}
    (h : admitEntry registered held key value = .error reason)
    (hv : validateSessionMetadataEntry key (some value) registered = .ok value') :
    (∃ other ∈ held, other ≠ key ∧ (startsUnder key other = true ∨ startsUnder other key = true)) ∨
      key ∉ held ∧ SESSION_METADATA_MAX_KEYS ≤ held.length := by
  simp only [admitEntry, hv] at h
  split at h
  · rename_i other hf
    refine Or.inl ⟨other, List.mem_of_find?_eq_some hf, ?_⟩
    have hs := List.find?_some hf
    simpa using hs
  · split at h
    · exact Or.inr ‹_›
    · cases h

theorem prefixFree_addKey (h : admitEntry registered held key value = .ok value')
    (hf : PrefixFree held) : PrefixFree (addKey held key) := by
  obtain ⟨-, hap, -⟩ := admitEntry_ok h
  have hk : ∀ a ∈ held, startsUnder key a = false ∧ startsUnder a key = false := by
    intro a ha
    by_cases hne : a = key
    · subst hne
      exact ⟨startsUnder_self a, startsUnder_self a⟩
    · exact hap a ha hne
  intro a ha b hb
  rcases mem_addKey.mp ha with ha | ha
  · rcases mem_addKey.mp hb with hb | hb
    · exact hf a ha b hb
    · rw [hb]
      exact (hk a ha).2
  · rw [ha]
    rcases mem_addKey.mp hb with hb | hb
    · exact (hk b hb).1
    · rw [hb]
      exact startsUnder_self key

theorem length_addKey (h : admitEntry registered held key value = .ok value')
    (hbd : held.length ≤ SESSION_METADATA_MAX_KEYS) : (addKey held key).length ≤ SESSION_METADATA_MAX_KEYS := by
  obtain ⟨-, -, hr⟩ := admitEntry_ok h
  simp only [addKey]
  split
  · exact hbd
  · have := hr.resolve_left ‹_›
    simp only [List.length_append, List.length_singleton]
    omega

theorem subset_heldAfter : held ⊆ heldAfter registered entries held := by
  induction entries generalizing held with
  | nil => exact List.Subset.refl _
  | cons e entries ih =>
    simp only [heldAfter]
    split
    · exact ih
    · exact fun k hk => ih (mem_addKey.mpr (Or.inl hk))

theorem heldAfter_sound (hf : PrefixFree held) (hnd : held.Nodup)
    (hbd : held.length ≤ SESSION_METADATA_MAX_KEYS) :
    PrefixFree (heldAfter registered entries held) ∧ (heldAfter registered entries held).Nodup ∧
      (heldAfter registered entries held).length ≤ SESSION_METADATA_MAX_KEYS := by
  induction entries generalizing held with
  | nil => exact ⟨hf, hnd, hbd⟩
  | cons e entries ih =>
    simp only [heldAfter]
    split
    · exact ih hf hnd hbd
    · rename_i hok
      exact ih (prefixFree_addKey hok hf) (nodup_addKey hnd) (length_addKey hok hbd)

theorem keys_subset_admitEntries (h : k ∈ keys acc.values) :
    k ∈ keys (admitEntries registered entries held acc).values := by
  induction entries generalizing held acc with
  | nil => exact h
  | cons e entries ih =>
    simp only [admitEntries]
    split
    · exact ih h
    · exact ih (mem_keys_set.mpr (Or.inr h))

theorem nodup_admitEntries (h : (keys acc.values).Nodup) :
    (keys (admitEntries registered entries held acc).values).Nodup := by
  induction entries generalizing held acc with
  | nil => exact h
  | cons e entries ih =>
    simp only [admitEntries]
    split
    · exact ih h
    · exact ih (nodup_set h)

theorem mem_heldAfter (hacc : ∀ k ∈ keys acc.values, k ∈ held) :
    k ∈ heldAfter registered entries held ↔ k ∈ held ∨ k ∈ keys (admitEntries registered entries held acc).values := by
  induction entries generalizing held acc with
  | nil => exact ⟨Or.inl, fun h => h.elim id (hacc k)⟩
  | cons e entries ih =>
    obtain ⟨key, value⟩ := e
    simp only [heldAfter, admitEntries]
    cases hadm : admitEntry registered held key value with
    | error reason => exact ih hacc
    | ok v =>
      have ha' : ∀ k ∈ keys (set key v acc.values), k ∈ addKey held key := by
        intro k hk
        exact mem_addKey.mpr ((mem_keys_set.mp hk).symm.imp_left (hacc k))
      have hr : k ∈ heldAfter registered entries (addKey held key) ↔ k ∈ addKey held key ∨
          k ∈ keys (admitEntries registered entries (addKey held key)
            { acc with values := set key v acc.values }).values := ih ha'
      rw [hr, mem_addKey]
      constructor
      · rintro ((h | rfl) | h)
        · exact Or.inl h
        · exact Or.inr (keys_subset_admitEntries (mem_keys_set.mpr (Or.inl rfl)))
        · exact Or.inr h
      · rintro (h | h)
        · exact Or.inl (Or.inl h)
        · exact Or.inr h

/-- A second pass over the same entries, with some of the keys the first one admitted already held, admits the
same entries as the same values. -/
theorem admitEntries_again {he' : List String} {acc' : Validation} (hacc : acc'.values = acc.values)
    (hf : PrefixFree (heldAfter registered entries held))
    (hbd : (heldAfter registered entries held).length ≤ SESSION_METADATA_MAX_KEYS) (hnd : held.Nodup)
    (hn' : he'.Nodup) (hmr : held ⊆ he') (hls : he' ⊆ heldAfter registered entries held) :
    (admitEntries registered entries he' acc').values = (admitEntries registered entries held acc).values := by
  induction entries generalizing held he' acc acc' with
  | nil => exact hacc
  | cons e entries ih =>
    obtain ⟨key, value⟩ := e
    simp only [heldAfter, admitEntries] at hf hbd hls ⊢
    cases hadm : admitEntry registered held key value with
    | error reason =>
      rw [hadm] at hf hbd hls
      dsimp only at hf hbd hls
      have hr : ∃ reason', admitEntry registered he' key value = .error reason' := by
        cases hag : admitEntry registered he' key value with
        | error reason' => exact ⟨reason', rfl⟩
        | ok v =>
          obtain ⟨hv, hap, hrm⟩ := admitEntry_ok hag
          rcases admitEntry_error hadm hv with ⟨other, hoth, hne, hc⟩ | ⟨hn, hfl⟩
          · obtain ⟨h, h'⟩ := hap other (hmr hoth) hne
            rw [h, h'] at hc
            rcases hc with h | h <;> cases h
          · -- the held keys are already all the keys that will be held
            have hall : held ⊆ heldAfter registered entries held := subset_heldAfter
            have hp := (hnd.subperm hall).perm_of_length_le (hbd.trans hfl)
            have hs : he' ⊆ held := fun k hk => hp.mem_iff.mpr (hls hk)
            rcases hrm with hm | hlt
            · exact absurd (hs hm) hn
            · have := (hnd.subperm hmr).length_le
              omega
      obtain ⟨reason', hag⟩ := hr
      rw [hag]
      exact ih hacc hf hbd hnd hn' hmr hls
    | ok v =>
      rw [hadm] at hf hbd hls
      dsimp only at hf hbd hls
      have hkey : key ∈ heldAfter registered entries (addKey held key) :=
        subset_heldAfter (mem_addKey.mpr (Or.inr rfl))
      obtain ⟨hv, -, -⟩ := admitEntry_ok hadm
      have hag : admitEntry registered he' key value = .ok v := by
        cases hag : admitEntry registered he' key value with
        | ok v' =>
          have hv' := (admitEntry_ok hag).1
          rw [hv] at hv'
          exact hv'.symm ▸ rfl
        | error reason =>
          rcases admitEntry_error hag hv with ⟨other, hoth, -, hc⟩ | ⟨hn, hfl⟩
          · have h := hf key hkey other (hls hoth)
            have h' := hf other (hls hoth) key hkey
            rw [h, h'] at hc
            rcases hc with h | h <;> cases h
          · have hsub : key :: he' ⊆ heldAfter registered entries (addKey held key) :=
              List.cons_subset.mpr ⟨hkey, hls⟩
            have hl := ((List.nodup_cons.mpr ⟨hn, hn'⟩).subperm hsub).length_le
            simp only [List.length_cons] at hl
            omega
      rw [hag]
      refine ih (by rw [hacc]) hf hbd (nodup_addKey hnd) (nodup_addKey hn') ?_ ?_
      · intro k hk
        exact mem_addKey.mpr ((mem_addKey.mp hk).imp_left fun h => hmr h)
      · intro k hk
        rcases mem_addKey.mp hk with hk | rfl
        · exact hls hk
        · exact hkey

end Held

section Nest

@[grind =]
def leafAt : List (String × Tree) → List String → Option Value
  | _, [] => none
  | fields, part :: rest =>
    match get part fields with
    | some (.leaf value) => if rest.isEmpty then some value else none
    | some (.node child) => leafAt child rest
    | none => none

theorem leafAt_empty (path : List String) : leafAt [] path = none := by
  cases path <;> rfl

variable {fields : List (String × Tree)}

theorem leafAt_set_of_ne {part other : String} {tree : Tree} {rest : List String}
    (h : other ≠ part) : leafAt (set part tree fields) (other :: rest) = leafAt fields (other :: rest) := by
  simp only [leafAt, get_set_of_ne h]

/-- A key walked in where no leaf is above or below its path puts its leaf there and keeps every other leaf. -/
theorem nestInto_leafAt (value : Value) {path : List String} (hp : path ≠ [])
    (habv : ∀ q, q <+: path → q ≠ path → leafAt fields q = none)
    (hblw : ∀ q, path <+: q → q ≠ path → leafAt fields q = none) :
    ∃ fields', nestInto fields path value = some fields' ∧
      ∀ q, leafAt fields' q = if q = path then some value else leafAt fields q := by
  induction path generalizing fields with
  | nil => exact absurd rfl hp
  | cons part rest ih =>
    cases rest with
    | nil =>
      refine ⟨_, rfl, fun q => ?_⟩
      cases q with
      | nil => rfl
      | cons other qs =>
        by_cases hoth : other = part
        · subst hoth
          cases qs with
          | nil => simp [leafAt]
          | cons x xs =>
            rw [hblw (other :: x :: xs) ⟨x :: xs, rfl⟩ (by simp)]
            simp [leafAt]
        · rw [leafAt_set_of_ne hoth, if_neg fun h => hoth (List.cons.inj h).1]
    | cons next rest =>
      have hc : ∀ child, get part fields = some (.node child) ∨ get part fields = none ∧ child = [] →
          ∃ fields', (nestInto child (next :: rest) value).map (fun child => set part (.node child) fields) =
            some fields' ∧
            ∀ q, leafAt fields' q = if q = part :: next :: rest then some value else leafAt fields q := by
        intro child hg
        have hd : ∀ q, q ≠ [] → leafAt fields (part :: q) = leafAt child q := by
          intro q hq
          rcases hg with hg | ⟨hg, rfl⟩
          · simp only [leafAt, hg]
          · simp only [leafAt, hg, leafAt_empty]
        have ha' : ∀ q, q <+: next :: rest → q ≠ next :: rest → leafAt child q = none := by
          intro q hq hne
          cases q with
          | nil => rfl
          | cons x xs =>
            rw [← hd _ (by simp)]
            exact habv _ (List.cons_prefix_cons.mpr ⟨rfl, hq⟩) (by simpa using hne)
        have hb' : ∀ q, next :: rest <+: q → q ≠ next :: rest → leafAt child q = none := by
          intro q hq hne
          cases q with
          | nil => rfl
          | cons x xs =>
            rw [← hd _ (by simp)]
            exact hblw _ (List.cons_prefix_cons.mpr ⟨rfl, hq⟩) (by simpa using hne)
        obtain ⟨child', hn, hl⟩ := ih (by simp) ha' hb'
        refine ⟨set part (.node child') fields, by rw [hn]; rfl, fun q => ?_⟩
        cases q with
        | nil => rfl
        | cons other qs =>
          by_cases hoth : other = part
          · subst hoth
            have hnd : leafAt (set other (.node child') fields) (other :: qs) = leafAt child' qs := by
              simp only [leafAt, get_set_self]
            rw [hnd, hl]
            cases qs with
            | nil =>
              rcases hg with hg | ⟨hg, -⟩ <;> simp [leafAt, hg]
            | cons x xs => simp only [List.cons.injEq, true_and, hd (x :: xs) (by simp)]
          · rw [leafAt_set_of_ne hoth, if_neg fun h => hoth (List.cons.inj h).1]
      simp only [nestInto]
      cases hg : get part fields with
      | none => exact hc [] (Or.inr ⟨hg, rfl⟩)
      | some tree =>
        cases tree with
        | node child => exact hc child (Or.inl hg)
        | leaf v =>
          have hl := habv [part] (List.cons_prefix_cons.mpr ⟨rfl, List.nil_prefix⟩) (by simp)
          simp [leafAt, hg] at hl

theorem intercalate_append {sep : List Char} {l l' : List (List Char)} (hl : l ≠ []) (hl' : l' ≠ []) :
    sep.intercalate (l ++ l') = sep.intercalate l ++ sep ++ sep.intercalate l' := by
  induction l with
  | nil => exact absurd rfl hl
  | cons x l ih =>
    cases l with
    | nil => rw [List.singleton_append, List.intercalate_cons_of_ne_nil hl', List.intercalate_singleton]
    | cons y l =>
      rw [List.cons_append, List.intercalate_cons_of_ne_nil (by simp), ih (by simp),
        List.intercalate_cons_of_ne_nil (by simp : y :: l ≠ [])]
      simp only [List.append_assoc]

theorem startsUnder_of_parts {a b : String} (h : parts a <+: parts b) (hne : a ≠ b) : startsUnder a b = true := by
  have hs : segments a <+: segments b := by
    have hm := h.map String.toList
    simpa [parts, List.map_map, Function.comp_def] using hm
  obtain ⟨t, ht⟩ := hs
  have hj : ∀ key : String, ['.'].intercalate (segments key) = key.toList := fun key =>
    List.intercalate_splitOn '.'
  have hn : t ≠ [] := by
    rintro rfl
    rw [List.append_nil] at ht
    exact hne (String.toList_inj.mp ((hj a).symm.trans (ht ▸ hj b)))
  refine List.isPrefixOf_iff_prefix.mpr ⟨['.'].intercalate t, ?_⟩
  have hs : segments a ≠ [] := List.splitOn_ne_nil _ _
  rw [← hj b, ← ht, intercalate_append hs hn, hj]

theorem parts_ne_nil (key : String) : parts key ≠ [] := fun h => List.splitOn_ne_nil _ _ (List.map_eq_nil_iff.mp h)

theorem parts_injective {a b : String} (h : parts a = parts b) : a = b := by
  by_contra hne
  have hab := startsUnder_of_parts (h ▸ List.prefix_refl _) hne
  have hl := (List.isPrefixOf_iff_prefix.mp hab).length_le
  have hba := startsUnder_of_parts (h ▸ List.prefix_refl _ : parts b <+: parts a) (Ne.symm hne)
  have hl' := (List.isPrefixOf_iff_prefix.mp hba).length_le
  simp only [List.length_append, List.length_singleton] at hl hl'
  omega

/-- Prefix-free values nest: the leaf at a path is the value of the key with that path, and there are no others. -/
theorem nestSessionMetadata_leafAt {values : List (String × Value)} (hnd : (keys values).Nodup)
    (hfr : PrefixFree (keys values)) : ∃ fields, nestSessionMetadata values = some fields ∧
      ∀ path value, leafAt fields path = some value ↔ ∃ key, (key, value) ∈ values ∧ path = parts key := by
  suffices h : ∀ (done todo : List (String × Value)) (fields : List (String × Tree)), values = done ++ todo →
      (∀ path value, leafAt fields path = some value ↔ ∃ key, (key, value) ∈ done ∧ path = parts key) →
      ∃ fields', todo.foldlM (fun fields e => nestInto fields (parts e.1) e.2) fields = some fields' ∧
        ∀ path value, leafAt fields' path = some value ↔ ∃ key, (key, value) ∈ values ∧ path = parts key from
    h [] values [] rfl fun path value => by simp [leafAt_empty]
  intro done todo
  induction todo generalizing done with
  | nil =>
    intro fields hv hl
    rw [List.append_nil] at hv
    subst hv
    exact ⟨fields, rfl, hl⟩
  | cons e todo ih =>
    obtain ⟨key, value⟩ := e
    intro fields hv hl
    have hm : key ∈ keys values := by
      rw [hv]
      simp [keys]
    have hnew : ∀ other v, (other, v) ∈ done → other ∈ keys values ∧ other ≠ key := by
      intro other v hoth
      have hin : other ∈ keys done := List.mem_map_of_mem hoth
      rw [hv] at hnd ⊢
      simp only [keys, List.map_append, List.map_cons] at hnd ⊢
      exact ⟨List.mem_append_left _ hin, fun heq => (List.nodup_append.mp hnd).2.2 other hin key
        List.mem_cons_self heq⟩
    have hnn : ∀ q, q <+: parts key ∨ parts key <+: q → leafAt fields q = none := by
      intro q hq
      cases hs : leafAt fields q with
      | none => rfl
      | some v =>
        obtain ⟨other, hoth, rfl⟩ := (hl q v).mp hs
        obtain ⟨hoth, hne⟩ := hnew other v hoth
        rcases hq with hq | hq
        · have := startsUnder_of_parts hq hne
          rw [hfr other hoth key hm] at this
          cases this
        · have := startsUnder_of_parts hq (Ne.symm hne)
          rw [hfr key hm other hoth] at this
          cases this
    obtain ⟨fields', hn, hl'⟩ := nestInto_leafAt value (parts_ne_nil key)
      (fun q hq _ => hnn q (Or.inl hq)) (fun q hq _ => hnn q (Or.inr hq))
    refine (ih (done ++ [(key, value)]) fields' (by rw [hv, List.append_assoc]; rfl) ?_).imp
      fun final hf => ⟨by rw [List.foldlM_cons, hn]; exact hf.1, hf.2⟩
    intro path v
    rw [hl']
    split
    · rename_i hp
      subst hp
      constructor
      · intro h
        cases h
        exact ⟨key, List.mem_append_right _ List.mem_cons_self, rfl⟩
      · rintro ⟨other, hoth, hp⟩
        obtain rfl := parts_injective hp
        rcases List.mem_append.mp hoth with hoth | hoth
        · exact absurd rfl (hnew _ v hoth).2
        · rw [(Prod.mk.inj (List.mem_singleton.mp hoth)).2]
    · rename_i hp
      rw [hl]
      refine exists_congr fun other => and_congr_left fun hoth => ⟨List.mem_append_left _, fun h => ?_⟩
      rcases List.mem_append.mp h with h | h
      · exact h
      · obtain ⟨rfl, -⟩ := Prod.mk.inj (List.mem_singleton.mp h)
        exact absurd hoth hp

end Nest

end HrcRuntime.SessionMetadata
