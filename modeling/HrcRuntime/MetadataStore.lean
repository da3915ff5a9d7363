import HrcRuntime.SessionMetadataRepository
import Mathlib.Data.List.Dedup

namespace HrcRuntime.SessionMetadata

open Keyed OrderedMap

def layers (rows : List Row) (key : String) : List Row := rows.filter fun r => r.key = key

def layered : List Row → Option SourceRecord
  | [] => none
  | winner :: rest => some { sourceRecord winner with shadowed := rest.map shadowedBy }

section Resolve

variable {rows : List Row} {acc : List (String × Value) × List (String × SourceRecord)} {row : Row} {key : String}

/-- The loop of `get` after these rows. -/
structure Resolved (rows : List Row) (acc : List (String × Value) × List (String × SourceRecord)) : Prop where
  values : ∀ key, OrderedMap.get key acc.1 = (layers rows key).head?.map (·.valueJson)
  sources : ∀ key, OrderedMap.get key acc.2 = layered (layers rows key)
  nodup : (keys acc.1).Nodup

theorem layers_append : layers (rows ++ [row]) key = layers rows key ++ if row.key = key then [row] else [] := by
  simp only [layers, List.filter_append, List.filter_cons, List.filter_nil, decide_eq_true_eq]

theorem resolveRow_resolved (h : Resolved rows acc) : Resolved (rows ++ [row]) (resolveRow acc row) := by
  obtain ⟨hv, hsr, hnd⟩ := h
  have hoth : ∀ key, key ≠ row.key → layers (rows ++ [row]) key = layers rows key := by
    intro key hne
    rw [layers_append, if_neg (Ne.symm hne), List.append_nil]
  have hs : layers (rows ++ [row]) row.key = layers rows row.key ++ [row] := by
    rw [layers_append, if_pos rfl]
  simp only [resolveRow, ← get_isSome, hv, hsr]
  cases hl : layers rows row.key with
  | nil =>
    rw [hl] at hs
    simp only [List.head?_nil, Option.map_none, Option.isSome_none, Bool.false_eq_true, if_false]
    refine ⟨fun key => ?_, fun key => ?_, nodup_set hnd⟩
    · by_cases hne : key = row.key
      · subst hne
        rw [get_set_self, hs]
        rfl
      · rw [get_set_of_ne hne, hv, hoth key hne]
    · by_cases hne : key = row.key
      · subst hne
        rw [get_set_self, hs]
        rfl
      · rw [get_set_of_ne hne, hsr, hoth key hne]
  | cons winner rest =>
    rw [hl] at hs
    simp only [List.head?_cons, Option.map_some, Option.isSome_some, if_true, layered]
    refine ⟨fun key => ?_, fun key => ?_, hnd⟩
    · by_cases hne : key = row.key
      · subst hne
        rw [hv, hs, hl]
        rfl
      · rw [hv, hoth key hne]
    · by_cases hne : key = row.key
      · subst hne
        rw [get_set_self, hs, List.cons_append, layered, List.map_append]
        rfl
      · rw [get_set_of_ne hne, hsr, hoth key hne]

theorem foldl_resolved (rows : List Row) : Resolved rows (rows.foldl resolveRow ([], [])) := by
  suffices h : ∀ (done todo : List Row) acc, Resolved done acc → Resolved (done ++ todo) (todo.foldl resolveRow acc) from
    h [] rows _ ⟨fun _ => rfl, fun _ => rfl, List.nodup_nil⟩
  intro done todo
  induction todo generalizing done with
  | nil =>
    intro acc h
    rw [List.append_nil]
    exact h
  | cons row todo ih =>
    intro acc h
    have hn := ih (done ++ [row]) _ (resolveRow_resolved h)
    rwa [List.append_assoc] at hn

theorem mem_keys_layers : key ∈ rows.map (·.key) ↔ (layers rows key).head?.isSome := by
  rw [List.isSome_head?, ne_eq, List.eq_nil_iff_forall_not_mem]
  simp only [List.mem_map, layers, List.mem_filter, decide_eq_true_eq, not_forall, not_not]

end Resolve

section Rows

variable {db : Db} {scopeRef laneRef key : String} {source : Source} {row : Row}

theorem mem_rows : row ∈ db.rows scopeRef laneRef ↔
    row ∈ db.metadata.rows ∧ row.scopeRef = scopeRef ∧ row.laneRef = laneRef := by
  rw [Db.rows, Relational.mem_orderBy, List.mem_filter, decide_eq_true_eq]

theorem rowKey_inj {row' : Row} (h : row ∈ db.rows scopeRef laneRef) (h' : row' ∈ db.rows scopeRef laneRef)
    (hk : row.key = row'.key) (hsrc : row.source = row'.source) : row = row' := by
  obtain ⟨h, hs, hl⟩ := mem_rows.mp h
  obtain ⟨h', hs', hl'⟩ := mem_rows.mp h'
  refine List.inj_on_of_nodup_map db.metadata.nodup h h' ?_
  simp only [Row.rowKey, hs, hs', hl, hl', hk, hsrc]

theorem find?_rows : ((db.rows scopeRef laneRef).find? fun row => row.key = key && row.source = source) =
    db.metadata.find ⟨scopeRef, laneRef, key, source⟩ := by
  refine Option.ext fun row => ?_
  rw [find_eq_some]
  constructor
  · intro h
    obtain ⟨hm, hs, hl⟩ := mem_rows.mp (List.mem_of_find?_eq_some h)
    have hk := List.find?_some h
    simp only [Bool.and_eq_true, decide_eq_true_eq] at hk
    exact ⟨hm, by simp only [Row.rowKey, hs, hl, hk]⟩
  · rintro ⟨hm, hk⟩
    cases hk
    have hr : row ∈ db.rows row.scopeRef row.laneRef := mem_rows.mpr ⟨hm, rfl, rfl⟩
    cases hf : (db.rows row.scopeRef row.laneRef).find? fun r => r.key = row.key && r.source = row.source with
    | none =>
      have := List.find?_eq_none.mp hf row hr
      simp at this
    | some row' =>
      have hsm := List.find?_some hf
      simp only [Bool.and_eq_true, decide_eq_true_eq] at hsm
      rw [rowKey_inj (List.mem_of_find?_eq_some hf) hr hsm.1 hsm.2]

theorem layers_precedence :
    (layers (db.rows scopeRef laneRef) key).Pairwise fun a b => precedence b.source < precedence a.source := by
  have hnd : (db.rows scopeRef laneRef).Nodup :=
    (List.perm_insertionSort _ _).nodup_iff.mpr ((List.Nodup.of_map _ db.metadata.nodup).filter _)
  have hsr : (db.rows scopeRef laneRef).Pairwise fun a b => 3 - precedence a.source ≤ 3 - precedence b.source :=
    Relational.pairwise_orderBy _ _
  refine List.Pairwise.imp_of_mem ?_ ((hsr.and hnd).filter _)
  intro a b ha hb h
  obtain ⟨ha, hka⟩ := List.mem_filter.mp ha
  obtain ⟨hb, hkb⟩ := List.mem_filter.mp hb
  simp only [decide_eq_true_eq] at hka hkb
  have hne : a.source ≠ b.source := fun hs => h.2 (rowKey_inj ha hb (hka.trans hkb.symm) hs)
  have hle := h.1
  revert hne hle
  cases a.source <;> cases b.source <;> simp [precedence]

end Rows

structure Bounded (db : Db) (scopeRef laneRef : String) : Prop where
  prefixFree : PrefixFree ((db.rows scopeRef laneRef).map (·.key))
  distinct : ((db.rows scopeRef laneRef).map (·.key)).dedup.length ≤ SESSION_METADATA_MAX_KEYS

/-- What `get` answers: under each key's path the value of its first layer and no other leaf, and for each key its
first layer's source with the others shadowed, the layers going down in precedence. -/
def Answers (db : Db) (scopeRef laneRef : String) : Prop :=
  ∃ response, db.get scopeRef laneRef = some response ∧
    (∀ path value, leafAt response.metadata path = some value ↔ ∃ key, path = parts key ∧
      (layers (db.rows scopeRef laneRef) key).head?.map (·.valueJson) = some value) ∧
    (∀ key, OrderedMap.get key response.metadataSources = layered (layers (db.rows scopeRef laneRef) key)) ∧
    ∀ key, (layers (db.rows scopeRef laneRef) key).Pairwise fun a b => precedence b.source < precedence a.source

theorem answers_of_bounded {db : Db} {scopeRef laneRef : String} (h : Bounded db scopeRef laneRef) :
    Answers db scopeRef laneRef := by
  have hr := foldl_resolved (db.rows scopeRef laneRef)
  have hky : keys ((db.rows scopeRef laneRef).foldl resolveRow ([], [])).1 ⊆
      (db.rows scopeRef laneRef).map (·.key) := by
    intro key hk
    rw [← get_isSome, hr.values, Option.isSome_map] at hk
    exact mem_keys_layers.mpr hk
  obtain ⟨fields, hn, hl⟩ := nestSessionMetadata_leafAt hr.nodup (h.prefixFree.subset hky)
  refine ⟨⟨fields, _⟩, by simp only [Db.get, hn, Option.map_some], fun path value => ?_, hr.sources,
    fun key => layers_precedence⟩
  rw [hl]
  refine exists_congr fun key => ?_
  rw [← hr.values]
  constructor
  · rintro ⟨hm, hp⟩
    exact ⟨hp, get_of_mem hr.nodup hm⟩
  · rintro ⟨hp, hg⟩
    exact ⟨mem_of_get hg, hp⟩

end HrcRuntime.SessionMetadata
