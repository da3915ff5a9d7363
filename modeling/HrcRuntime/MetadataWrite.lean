import HrcRuntime.MetadataStore

namespace HrcRuntime.SessionMetadata

open Keyed OrderedMap
open List (foldl_cons nodup_nil mem_filter mem_map map_map not_mem_nil mem_dedup)

def storedValue (metadata : Store Row Row.rowKey) (k : RowKey) : Option Value := (metadata.find k).map (·.valueJson)

def WriteInput.rowKey (input : WriteInput) (key : String) : RowKey :=
  ⟨input.scopeRef, input.laneRef, key, input.source⟩

def WriteInput.Owns (input : WriteInput) (k : RowKey) : Prop :=
  k.scopeRef = input.scopeRef ∧ k.laneRef = input.laneRef ∧ k.source = input.source

theorem WriteInput.owns_rowKey (input : WriteInput) (key : String) : input.Owns (input.rowKey key) := ⟨rfl, rfl, rfl⟩

theorem WriteInput.rowKey_of_owns {input : WriteInput} {k : RowKey} (h : input.Owns k) : input.rowKey k.key = k := by
  obtain ⟨hs, hl, hsrc⟩ := h
  simp only [WriteInput.rowKey, ← hs, ← hl, ← hsrc]

theorem WriteInput.rowKey_inj {input : WriteInput} {key key' : String} :
    input.rowKey key = input.rowKey key' ↔ key = key' := by
  simp only [WriteInput.rowKey, RowKey.mk.injEq, true_and, and_true]

section Apply

variable (input : WriteInput) (wanted : List (String × Value)) {metadata : Store Row Row.rowKey} {k : RowKey}

/-- The deletes take away the given rows of the source that are not wanted, and only them. -/
theorem foldl_clearRow (rows : List Row) (metadata : Store Row Row.rowKey) (changed : List Change) :
    (∀ k, (rows.foldl (clearRow input wanted) (metadata, changed)).1.find k =
      if ∃ row ∈ rows, k = input.rowKey row.key ∧ row.key ∉ keys wanted then none else metadata.find k) ∧
    (rows.foldl (clearRow input wanted) (metadata, changed)).2 =
      changed ++ (rows.filter fun row => row.key ∉ keys wanted).map fun row => (row.key, .clear) := by
  induction rows generalizing metadata changed with
  | nil => simp
  | cons row rows ih =>
    rw [foldl_cons]
    by_cases hkp : row.key ∈ keys wanted
    · rw [clearRow, if_pos hkp]
      obtain ⟨hf, hc⟩ := ih metadata changed
      refine ⟨fun k => ?_, ?_⟩
      · rw [hf]
        simp [hkp]
      · rw [hc, List.filter_cons_of_neg (by simpa using hkp)]
    · rw [clearRow, if_neg hkp]
      obtain ⟨hf, hc⟩ := ih (metadata.erase fun r => r.rowKey = input.rowKey row.key)
        (changed ++ [(row.key, .clear)])
      refine ⟨fun k => ?_, ?_⟩
      · refine (hf k).trans ?_
        rw [find_erase]
        by_cases hk : k = input.rowKey row.key
        · have hg : ((metadata.find k).filter fun r => !decide (r.rowKey = input.rowKey row.key)) = none := by
            refine Option.filter_eq_none_iff.mpr fun r hr => ?_
            simp [(find_mem hr).2, hk]
          have hh : ∃ r ∈ row :: rows, k = input.rowKey r.key ∧ r.key ∉ keys wanted :=
            ⟨row, List.mem_cons_self, hk, hkp⟩
          rw [hg, if_pos hh, ite_self]
        · have hs : ((metadata.find k).filter fun r => !decide (r.rowKey = input.rowKey row.key)) =
              metadata.find k := by
            refine Option.ext fun r => ?_
            rw [Option.filter_eq_some_iff]
            refine and_iff_left_of_imp fun hr => ?_
            simpa [(find_mem hr).2] using hk
          rw [hs]
          simp [hk]
      · refine hc.trans ?_
        rw [List.filter_cons_of_pos (by simpa using hkp), List.append_assoc]
        rfl

theorem storedValue_storeRow {row : Row} : storedValue (storeRow metadata row) k =
    if k = row.rowKey then some row.valueJson else storedValue metadata k := by
  simp only [storedValue, storeRow]
  split
  · rename_i hk
    rw [hk, find_upsert_self]
    cases metadata.find row.rowKey <;> rfl
  · rename_i hk
    rw [find_upsert_of_ne _ hk]

theorem find_storeRow_of_ne {row : Row} (h : k ≠ row.rowKey) : (storeRow metadata row).find k = metadata.find k :=
  find_upsert_of_ne _ h

/-- The stores give every wanted key of the source that had another value its value, and touch no other row. -/
theorem foldl_setRow (before : List Row) (now : String) (hw : (keys wanted).Nodup)
    (metadata : Store Row Row.rowKey) (changed : List Change) :
    (∀ k, ¬ input.Owns k → (wanted.foldl (setRow input before now) (metadata, changed)).1.find k = metadata.find k) ∧
    (∀ key, storedValue (wanted.foldl (setRow input before now) (metadata, changed)).1 (input.rowKey key) =
      match OrderedMap.get key wanted with
      | some value => if (before.find? fun row => row.key = key && row.source = input.source).map (·.valueJson) =
          some value then storedValue metadata (input.rowKey key) else some value
      | none => storedValue metadata (input.rowKey key)) ∧
    (wanted.foldl (setRow input before now) (metadata, changed)).2 = changed ++ (wanted.filter fun e =>
      (before.find? fun row => row.key = e.1 && row.source = input.source).map (·.valueJson) ≠ some e.2).map
        fun e => (e.1, .set) := by
  induction wanted generalizing metadata changed with
  | nil => simp [OrderedMap.get]
  | cons e wanted ih =>
    obtain ⟨key, value⟩ := e
    obtain ⟨hn, hw⟩ := List.nodup_cons.mp hw
    have hnn : OrderedMap.get key wanted = none := get_eq_none.mpr hn
    rw [foldl_cons]
    by_cases hs : (before.find? fun row => row.key = key && row.source = input.source).map (·.valueJson) =
        some value
    · rw [setRow, if_pos hs]
      obtain ⟨hf, hsto, hc⟩ := ih hw metadata changed
      refine ⟨hf, fun key' => ?_, ?_⟩
      · rw [hsto]
        by_cases hkey : key = key'
        · subst hkey
          simp only [OrderedMap.get, if_true, hnn, if_pos hs]
        · simp only [OrderedMap.get, if_neg hkey]
      · rw [hc, List.filter_cons_of_neg (by simpa using hs)]
    · rw [setRow, if_neg hs]
      obtain ⟨hf, hsto, hc⟩ := ih hw (storeRow metadata (input.row key value now))
        (changed ++ [(key, .set)])
      refine ⟨fun k hk => ?_, fun key' => ?_, ?_⟩
      · rw [hf k hk]
        exact find_storeRow_of_ne fun h => hk (h ▸ input.owns_rowKey key)
      · rw [hsto]
        have hr : (input.row key value now).rowKey = input.rowKey key := rfl
        by_cases hkey : key = key'
        · subst hkey
          simp only [OrderedMap.get, if_true, hnn, if_neg hs]
          exact storedValue_storeRow.trans (if_pos hr.symm)
        · have hoth : storedValue (storeRow metadata (input.row key value now)) (input.rowKey key') =
              storedValue metadata (input.rowKey key') := by
            rw [storedValue_storeRow, if_neg]
            intro h
            exact hkey (WriteInput.rowKey_inj.mp (h.trans hr)).symm
          simp only [OrderedMap.get, if_neg hkey, hoth]
      · rw [hc, List.filter_cons_of_pos (by simpa using hs), List.append_assoc]
        rfl

end Apply

section Write

variable {db : Db} {input : WriteInput} {now : String}

def changes (db : Db) (input : WriteInput) : List Change :=
  ((ownRows db input).filter fun row => row.key ∉ keys (desired db input)).map (fun row => (row.key, .clear)) ++
  ((desired db input).filter fun e => storedValue db.metadata (input.rowKey e.1) ≠ some e.2).map fun e => (e.1, .set)

theorem nodup_desired : (keys (desired db input)).Nodup := nodup_setAll (nodup_setAll nodup_nil)

theorem mem_ownRows {row : Row} : row ∈ ownRows db input ↔ row ∈ db.metadata.rows ∧ row.rowKey = input.rowKey row.key := by
  simp only [ownRows, mem_filter, mem_rows, decide_eq_true_eq, Row.rowKey, WriteInput.rowKey, RowKey.mk.injEq,
    true_and, and_assoc]

variable {key : String}

theorem storedValue_isSome :
    (storedValue db.metadata (input.rowKey key)).isSome ↔ ∃ row ∈ ownRows db input, row.key = key := by
  rw [storedValue, Option.isSome_map, Option.isSome_iff_exists]
  refine exists_congr fun row => ?_
  rw [find_eq_some, mem_ownRows]
  constructor
  · rintro ⟨hm, hk⟩
    obtain rfl : row.key = key := congrArg RowKey.key hk
    exact ⟨⟨hm, hk⟩, rfl⟩
  · rintro ⟨h, rfl⟩
    exact h

/-- After a write the source has exactly the desired values, and the rows of the others are as they were. -/
theorem applyDesired_spec (db : Db) (input : WriteInput) (now : String) :
    (∀ k, ¬ input.Owns k → (applyDesired db input now).1.find k = db.metadata.find k) ∧
    (∀ key, storedValue (applyDesired db input now).1 (input.rowKey key) = OrderedMap.get key (desired db input)) ∧
    (applyDesired db input now).2 = changes db input := by
  obtain ⟨hclr, hc⟩ := foldl_clearRow input (desired db input) (ownRows db input) db.metadata []
  obtain ⟨hf, hsto, hs⟩ := foldl_setRow input (desired db input) (db.rows input.scopeRef input.laneRef) now
    nodup_desired ((ownRows db input).foldl (clearRow input (desired db input)) (db.metadata, [])).1
    ((ownRows db input).foldl (clearRow input (desired db input)) (db.metadata, [])).2
  have hbef : ∀ key, ((db.rows input.scopeRef input.laneRef).find? fun row =>
      row.key = key && row.source = input.source).map (·.valueJson) = storedValue db.metadata (input.rowKey key) :=
    fun key => congrArg _ find?_rows
  simp only [hbef] at hsto hs
  refine ⟨fun k hk => ?_, fun key => ?_, ?_⟩
  · refine (hf k hk).trans ((hclr k).trans (if_neg ?_))
    rintro ⟨row, -, rfl, -⟩
    exact hk (input.owns_rowKey row.key)
  · refine (hsto key).trans ?_
    have hkp : storedValue ((ownRows db input).foldl (clearRow input (desired db input)) (db.metadata, [])).1
        (input.rowKey key) = if key ∈ keys (desired db input) then storedValue db.metadata (input.rowKey key) else none := by
      rw [storedValue, hclr]
      by_cases hkey : key ∈ keys (desired db input)
      · have hno : ¬ ∃ row ∈ ownRows db input, input.rowKey key = input.rowKey row.key ∧
            row.key ∉ keys (desired db input) := by
          rintro ⟨row, -, heq, hn⟩
          exact hn (WriteInput.rowKey_inj.mp heq ▸ hkey)
        rw [if_neg hno, if_pos hkey]
        rfl
      · rw [if_neg hkey]
        cases hr : db.metadata.find (input.rowKey key) with
        | none =>
          rw [ite_self]
          rfl
        | some row =>
          have hsm : (storedValue db.metadata (input.rowKey key)).isSome := by
            rw [storedValue, hr]
            rfl
          obtain ⟨row', hrow', rfl⟩ := storedValue_isSome.mp hsm
          have hh : ∃ r ∈ ownRows db input, input.rowKey row'.key = input.rowKey r.key ∧
              r.key ∉ keys (desired db input) := ⟨row', hrow', rfl, hkey⟩
          rw [if_pos hh]
          rfl
    rw [hkp]
    cases hg : OrderedMap.get key (desired db input) with
    | none => exact if_neg (get_eq_none.mp hg)
    | some value =>
      have hm : key ∈ keys (desired db input) := get_isSome.mp (by rw [hg]; rfl)
      simp only [if_pos hm]
      split
      · assumption
      · rfl
  · refine hs.trans ?_
    rw [hc]
    rfl

theorem mem_changes {op : ChangeOp} : (key, op) ∈ changes db input ↔
    storedValue db.metadata (input.rowKey key) ≠ OrderedMap.get key (desired db input) ∧
      op = if (OrderedMap.get key (desired db input)).isSome then .set else .clear := by
  rw [changes, List.mem_append, mem_map, mem_map]
  constructor
  · rintro (⟨row, hr, heq⟩ | ⟨e, he, heq⟩)
    · obtain ⟨hr, hnot⟩ := mem_filter.mp hr
      obtain ⟨rfl, rfl⟩ := Prod.mk.inj heq
      have hn : OrderedMap.get row.key (desired db input) = none := get_eq_none.mpr (by simpa using hnot)
      have hs := storedValue_isSome.mpr ⟨row, hr, rfl⟩
      rw [hn]
      exact ⟨Option.isSome_iff_ne_none.mp hs, rfl⟩
    · obtain ⟨he, hne⟩ := mem_filter.mp he
      obtain ⟨rfl, rfl⟩ := Prod.mk.inj heq
      rw [get_of_mem nodup_desired (show (e.1, e.2) ∈ _ from he)]
      exact ⟨by simpa using hne, rfl⟩
  · rintro ⟨hne, rfl⟩
    cases hg : OrderedMap.get key (desired db input) with
    | none =>
      rw [hg] at hne
      obtain ⟨row, hr, rfl⟩ := storedValue_isSome.mp (Option.isSome_iff_ne_none.mpr hne)
      exact Or.inl ⟨row, mem_filter.mpr ⟨hr, by simpa using get_eq_none.mp hg⟩, rfl⟩
    | some value =>
      rw [hg] at hne
      exact Or.inr ⟨(key, value), mem_filter.mpr ⟨mem_of_get hg, by simpa using hne⟩, rfl⟩

theorem nodup_ownKeys : ((ownRows db input).map (·.key)).Nodup := by
  have hr : (ownRows db input).Nodup :=
    ((List.perm_insertionSort _ _).nodup_iff.mpr ((List.Nodup.of_map _ db.metadata.nodup).filter _)).filter _
  refine (List.nodup_map_iff_inj_on hr).mpr fun a ha b hb hk => ?_
  obtain ⟨ha, hka⟩ := mem_ownRows.mp ha
  obtain ⟨hb, hkb⟩ := mem_ownRows.mp hb
  exact List.inj_on_of_nodup_map db.metadata.nodup ha hb (hka.trans ((congrArg input.rowKey hk).trans hkb.symm))

theorem nodup_changes : ((changes db input).map (·.1)).Nodup := by
  rw [changes, List.map_append, map_map, map_map]
  refine List.nodup_append.mpr ⟨?_, ?_, ?_⟩
  · exact nodup_ownKeys.sublist (List.filter_sublist.map _)
  · exact nodup_desired.sublist (List.filter_sublist.map _)
  · intro key hk key' hk' heq
    obtain ⟨row, hr, rfl⟩ := mem_map.mp hk
    obtain ⟨e, he, rfl⟩ := mem_map.mp hk'
    have hn : row.key ∉ keys (desired db input) := by simpa using (mem_filter.mp hr).2
    have hs : row.key = e.1 := heq
    exact hn (hs ▸ List.mem_map_of_mem (mem_filter.mp he).1)

theorem storedValue_of_mem {row : Row} (h : row ∈ ownRows db input) :
    storedValue db.metadata (input.rowKey row.key) = some row.valueJson := by
  obtain ⟨hm, hk⟩ := mem_ownRows.mp h
  rw [storedValue, ← hk, find_of_mem hm]
  rfl

theorem validation_values : (validation db input).values =
    (validateSessionMetadata (input.set.getD (.obj []))
      (((db.rows input.scopeRef input.laneRef).filter fun row =>
        row.source ≠ input.source || input.keeps row.key).map (·.key)) true).values := by
  rw [validation]
  generalize validateSessionMetadata _ _ _ = v
  generalize input.clear.foldl addKey [] = clear
  induction clear generalizing v with
  | nil => rfl
  | cons key clear ih =>
    rw [foldl_cons, ih]
    cases validateSessionMetadataEntry key (some (.scalar .null)) false <;> rfl

theorem nodup_values : (keys (validation db input).values).Nodup := by
  rw [validation_values]
  exact nodup_admitEntries nodup_nil

theorem get_desired : OrderedMap.get key (desired db input) =
    (OrderedMap.get key (validation db input).values).or
      (if input.keeps key then storedValue db.metadata (input.rowKey key) else none) := by
  have hk : (db.rows input.scopeRef input.laneRef).filter (fun row => row.source = input.source && input.keeps row.key) =
      (ownRows db input).filter fun row => input.keeps row.key := by
    rw [ownRows, List.filter_filter]
    exact List.filter_congr fun row _ => Bool.and_comm _ _
  have hky : (keys (((ownRows db input).filter fun row => input.keeps row.key).map
      fun row => (row.key, row.valueJson))).Nodup := by
    rw [keys, map_map]
    exact nodup_ownKeys.sublist (List.filter_sublist.map _)
  rw [desired, get_setAll nodup_values, hk, get_setAll hky]
  refine congrArg _ ?_
  have he : OrderedMap.get key ([] : List (String × Value)) = none := rfl
  rw [he, Option.or_none]
  by_cases hm : ∃ row ∈ ownRows db input, input.keeps row.key ∧ row.key = key
  · obtain ⟨row, hr, hkp, rfl⟩ := hm
    rw [if_pos hkp, storedValue_of_mem hr]
    exact get_of_mem hky (mem_map.mpr ⟨row, mem_filter.mpr ⟨hr, hkp⟩, rfl⟩)
  · have hn : OrderedMap.get key (((ownRows db input).filter fun row => input.keeps row.key).map
        fun row => (row.key, row.valueJson)) = none := by
      refine get_eq_none.mpr fun hkey => hm ?_
      rw [keys, map_map] at hkey
      obtain ⟨row, hr, rfl⟩ := mem_map.mp hkey
      obtain ⟨hr, hkp⟩ := mem_filter.mp hr
      exact ⟨row, hr, hkp, rfl⟩
    rw [hn]
    split
    · rename_i hkp
      cases hs : storedValue db.metadata (input.rowKey key) with
      | none => rfl
      | some value =>
        obtain ⟨row, hr, rfl⟩ := storedValue_isSome.mp (by rw [hs]; rfl)
        exact absurd ⟨row, hr, hkp, rfl⟩ hm
    · rfl

def remainingKeys (db : Db) (input : WriteInput) : List String :=
  ((db.rows input.scopeRef input.laneRef).filter fun row => row.source ≠ input.source || input.keeps row.key).map (·.key)

theorem mem_keys_rows {scopeRef laneRef : String} : key ∈ (db.rows scopeRef laneRef).map (·.key) ↔
    ∃ source, (storedValue db.metadata ⟨scopeRef, laneRef, key, source⟩).isSome := by
  simp only [mem_map, mem_rows, storedValue, Option.isSome_map, Option.isSome_iff_exists, find_eq_some]
  constructor
  · rintro ⟨row, ⟨hm, rfl, rfl⟩, rfl⟩
    exact ⟨row.source, row, hm, rfl⟩
  · rintro ⟨source, row, hm, hk⟩
    cases hk
    exact ⟨row, ⟨hm, rfl, rfl⟩, rfl⟩

theorem mem_remainingKeys : key ∈ remainingKeys db input ↔
    ∃ source, (storedValue db.metadata ⟨input.scopeRef, input.laneRef, key, source⟩).isSome ∧
      (source ≠ input.source ∨ input.keeps key) := by
  simp only [remainingKeys, mem_map, mem_filter, mem_rows, storedValue, Option.isSome_map,
    Option.isSome_iff_exists, find_eq_some, Bool.or_eq_true, decide_eq_true_eq]
  constructor
  · rintro ⟨row, ⟨⟨hm, hs, hl⟩, hkp⟩, rfl⟩
    exact ⟨row.source, ⟨row, hm, by simp only [Row.rowKey, hs, hl]⟩, hkp⟩
  · rintro ⟨source, ⟨row, hm, hk⟩, hkp⟩
    obtain ⟨hs, hl, rfl, rfl⟩ := RowKey.mk.inj hk
    exact ⟨row, ⟨⟨hm, hs, hl⟩, hkp⟩, rfl⟩

def finalKeys (db : Db) (input : WriteInput) : List String :=
  heldAfter true (flattenSessionMetadata (input.set.getD (.obj []))).values ((remainingKeys db input).foldl addKey [])

theorem mem_finalKeys : key ∈ finalKeys db input ↔
    key ∈ remainingKeys db input ∨ key ∈ keys (validation db input).values := by
  have haft : key ∈ finalKeys db input ↔ key ∈ (remainingKeys db input).foldl addKey [] ∨
      key ∈ keys (admitEntries true (flattenSessionMetadata (input.set.getD (.obj []))).values
        ((remainingKeys db input).foldl addKey [])
        ⟨[], (flattenSessionMetadata (input.set.getD (.obj []))).rejected⟩).values :=
    mem_heldAfter fun _ h => absurd h not_mem_nil
  rw [haft, mem_foldl_addKey, validation_values]
  simp only [not_mem_nil, false_or]
  rfl

theorem remainingKeys_subset : remainingKeys db input ⊆ (db.rows input.scopeRef input.laneRef).map (·.key) := by
  intro key hk
  obtain ⟨source, hs, -⟩ := mem_remainingKeys.mp hk
  exact mem_keys_rows.mpr ⟨source, hs⟩

theorem held_sound (h : Bounded db input.scopeRef input.laneRef) :
    PrefixFree ((remainingKeys db input).foldl addKey []) ∧ ((remainingKeys db input).foldl addKey []).Nodup ∧
      ((remainingKeys db input).foldl addKey []).length ≤ SESSION_METADATA_MAX_KEYS := by
  have hs : (remainingKeys db input).foldl addKey [] ⊆ (db.rows input.scopeRef input.laneRef).map (·.key) := by
    intro key hk
    rcases mem_foldl_addKey.mp hk with hk | hk
    · exact absurd hk not_mem_nil
    · exact remainingKeys_subset hk
  have hnd : ((remainingKeys db input).foldl addKey []).Nodup := nodup_foldl_addKey nodup_nil
  refine ⟨h.prefixFree.subset hs, hnd, ?_⟩
  exact (hnd.subperm fun key hk => mem_dedup.mpr (hs hk)).length_le.trans h.distinct

theorem finalKeys_sound (h : Bounded db input.scopeRef input.laneRef) :
    PrefixFree (finalKeys db input) ∧ (finalKeys db input).Nodup ∧
      (finalKeys db input).length ≤ SESSION_METADATA_MAX_KEYS := by
  obtain ⟨hf, hnd, hl⟩ := held_sound h
  exact heldAfter_sound hf hnd hl

structure Applied (db db' : Db) (input : WriteInput) : Prop where
  others : ∀ k, ¬ input.Owns k → db'.metadata.find k = db.metadata.find k
  own : ∀ key, storedValue db'.metadata (input.rowKey key) = OrderedMap.get key (desired db input)

theorem applied_applyDesired (db : Db) (input : WriteInput) (now : String) :
    Applied db { db with metadata := (applyDesired db input now).1 } input :=
  ⟨(applyDesired_spec db input now).1, (applyDesired_spec db input now).2.1⟩

variable {db' : Db}

theorem Applied.keys (h : Applied db db' input)
    (hk : key ∈ (db'.rows input.scopeRef input.laneRef).map (·.key)) : key ∈ finalKeys db input := by
  rw [mem_finalKeys, mem_remainingKeys]
  obtain ⟨source, hs⟩ := mem_keys_rows.mp hk
  by_cases hown : source = input.source
  · subst hown
    have hv := h.own key
    rw [get_desired] at hv
    rw [show (⟨input.scopeRef, input.laneRef, key, input.source⟩ : RowKey) = input.rowKey key from rfl, hv] at hs
    cases hg : OrderedMap.get key (validation db input).values with
    | some value => exact Or.inr (get_isSome.mp (by rw [hg]; rfl))
    | none =>
      rw [hg, Option.none_or] at hs
      split at hs
      · exact Or.inl ⟨input.source, hs, Or.inr ‹_›⟩
      · cases hs
  · have hf := h.others ⟨input.scopeRef, input.laneRef, key, source⟩ fun how => hown how.2.2
    rw [storedValue, hf] at hs
    exact Or.inl ⟨source, hs, Or.inl hown⟩

theorem Applied.bounded (h : Applied db db' input) {scopeRef laneRef : String} (hown : Bounded db input.scopeRef input.laneRef)
    (hdb : Bounded db scopeRef laneRef) : Bounded db' scopeRef laneRef := by
  by_cases hs : scopeRef = input.scopeRef ∧ laneRef = input.laneRef
  · obtain ⟨rfl, rfl⟩ := hs
    obtain ⟨hf, hnd, hl⟩ := finalKeys_sound hown
    refine ⟨hf.subset fun key hk => h.keys hk, ?_⟩
    exact ((List.nodup_dedup _).subperm fun key hk => h.keys (mem_dedup.mp hk)).length_le.trans hl
  · have hky : (db'.rows scopeRef laneRef).map (·.key) ⊆ (db.rows scopeRef laneRef).map (·.key) := by
      intro key hk
      obtain ⟨source, hsm⟩ := mem_keys_rows.mp hk
      refine mem_keys_rows.mpr ⟨source, ?_⟩
      rwa [storedValue, h.others _ fun how => hs ⟨how.1, how.2.1⟩] at hsm
    refine ⟨hdb.prefixFree.subset hky, ?_⟩
    exact ((List.nodup_dedup _).subperm fun key hk => mem_dedup.mpr
      (hky (mem_dedup.mp hk))).length_le.trans hdb.distinct

theorem Applied.desired_again (h : Applied db db' input) (hbnd : Bounded db input.scopeRef input.laneRef) (key : String) :
    OrderedMap.get key (desired db' input) = OrderedMap.get key (desired db input) := by
  obtain ⟨hf, hnd, hl⟩ := held_sound hbnd
  obtain ⟨hf', -, hl'⟩ := finalKeys_sound hbnd
  have hm : remainingKeys db input ⊆ remainingKeys db' input := by
    intro key hk
    obtain ⟨source, hs, hkp⟩ := mem_remainingKeys.mp hk
    refine mem_remainingKeys.mpr ⟨source, ?_, hkp⟩
    by_cases hown : source = input.source
    · subst hown
      have hvl := h.own key
      rw [get_desired, if_pos (hkp.resolve_left fun h => h rfl)] at hvl
      rw [show (⟨input.scopeRef, input.laneRef, key, input.source⟩ : RowKey) = input.rowKey key from rfl] at hs ⊢
      rw [hvl, Option.isSome_or, hs, Bool.or_true]
    · rwa [storedValue, h.others _ fun how => hown how.2.2]
  have hls : remainingKeys db' input ⊆ finalKeys db input := fun key hk => h.keys (remainingKeys_subset hk)
  have hv : (validation db' input).values = (validation db input).values := by
    rw [validation_values, validation_values]
    refine admitEntries_again rfl hf' hl' hnd (nodup_foldl_addKey nodup_nil) ?_ ?_
    · intro key hk
      exact mem_foldl_addKey.mpr ((mem_foldl_addKey.mp hk).imp_right fun h => hm h)
    · intro key hk
      exact hls ((mem_foldl_addKey.mp hk).resolve_left not_mem_nil)
  rw [get_desired, hv, h.own, get_desired]
  cases OrderedMap.get key (validation db input).values with
  | some value => rfl
  | none => cases input.keeps key <;> simp

theorem Applied.changes_again (h : Applied db db' input) (hbnd : Bounded db input.scopeRef input.laneRef) :
    changes db' input = [] := by
  refine List.eq_nil_iff_forall_not_mem.mpr fun ⟨key, op⟩ hm => (mem_changes.mp hm).1 ?_
  rw [h.own, h.desired_again hbnd]

end Write

end HrcRuntime.SessionMetadata
