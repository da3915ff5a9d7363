import HrcRuntime.CollectiveHistory
import HrcRuntime.FederationStore
import HrcRuntime.KeysetPaging
import HrcRuntime.OrderedMap
import HrcRuntime.Text

namespace HrcRuntime.RegistryRebuild

open FederationStore Keyed KeysetPaging CollectiveHistory

inductive RebuildError where
  | targetNotEmpty
  /-- `PlacementLedgerConflictError`. -/
  | conflict (scopeRef : ScopeRef)
  | invalidSelector (message : String)
  | constraint (table : String)
  deriving DecidableEq

/-- `validateScopeRef` of the scope grammar: what is wrong with a scope, if anything is. -/
abbrev Validate := String → Option String

variable (validateScopeRef : Validate) (collator : Collator)

def canonicalScopeRef (scopeRef : String) : Except RebuildError ScopeRef :=
  let normalized := Text.trim scopeRef
  if normalized.isEmpty then .error (.invalidSelector "scopeRef must not be empty")
  else match validateScopeRef normalized with
    | some error => .error (.invalidSelector error)
    | none => .ok normalized

structure Selection where
  selected : List (ScopeRef × PlacementLedgerRecord) := []
  duplicates : Nat := 0

def select (sel : Selection) (row : PlacementLedgerRecord) (scopeRef : ScopeRef) : Except RebuildError Selection :=
  match OrderedMap.get scopeRef sel.selected with
  | none => .ok { sel with selected := OrderedMap.set scopeRef { row with scopeRef } sel.selected }
  | some current =>
    if current.homeNodeId ≠ row.homeNodeId then .error (.conflict scopeRef)
    else .ok { sel with duplicates := sel.duplicates + 1 }

def selectRow (sel : Selection) (row : PlacementLedgerRecord) : Except RebuildError Selection :=
  if row.state ≠ .active then .ok sel
  else (canonicalScopeRef validateScopeRef row.scopeRef).bind (select sel row)

def insertRebuilt (registry : BindingRegistry) (binding : PlacementBinding) : Except RebuildError BindingRegistry :=
  if (registry.get binding.scopeRef).isSome then .error (.constraint "binding_registry")
  else .ok { registry with bindings := registry.bindings.add binding }

def Selection.bindings (sel : Selection) : List PlacementBinding :=
  (sortBy (fun a b : PlacementLedgerRecord => collator.localeCompare a.scopeRef b.scopeRef)
    (sel.selected.map (·.2))).map (·.toPlacementBinding)

structure Rebuilt where
  inserted : Nat
  duplicates : Nat

def rebuildBindingRegistryFromLedgers (target : BindingRegistry) (ledgerRows : List PlacementLedgerRecord) :
    Except RebuildError Rebuilt × BindingRegistry :=
  if target.bindings.rows.length ≠ 0 then (.error .targetNotEmpty, target)
  else match ledgerRows.foldlM (selectRow validateScopeRef) {} with
    | .error e => (.error e, target)
    | .ok sel =>
      match (sel.bindings collator).foldlM insertRebuilt target with
      | .error e => (.error e, target)
      | .ok registry => (.ok ⟨sel.selected.length, sel.duplicates⟩, registry)

variable {validateScopeRef collator}

def Claims (validateScopeRef : Validate) (scopeRef : ScopeRef) (row : PlacementLedgerRecord) : Prop :=
  row.state = .active ∧ canonicalScopeRef validateScopeRef row.scopeRef = .ok scopeRef

def Conflicted (validateScopeRef : Validate) (rows : List PlacementLedgerRecord) : Prop :=
  ∃ scopeRef, ∃ a ∈ rows, ∃ b ∈ rows, Claims validateScopeRef scopeRef a ∧ Claims validateScopeRef scopeRef b ∧
    a.homeNodeId ≠ b.homeNodeId

section Selecting

variable {sel sel' : Selection} {seen rows : List PlacementLedgerRecord} {row : PlacementLedgerRecord}

structure Picks (validateScopeRef : Validate) (seen : List PlacementLedgerRecord) (sel : Selection) : Prop where
  nodup : (OrderedMap.keys sel.selected).Nodup
  covered : ∀ scopeRef, ∀ row ∈ seen, Claims validateScopeRef scopeRef row →
    ∃ r, OrderedMap.get scopeRef sel.selected = some r ∧ r.homeNodeId = row.homeNodeId
  sound : ∀ scopeRef r, OrderedMap.get scopeRef sel.selected = some r → r.scopeRef = scopeRef ∧
    ∃ row ∈ seen, Claims validateScopeRef scopeRef row ∧ row.homeNodeId = r.homeNodeId

theorem picks_nil : Picks validateScopeRef [] {} where
  nodup := List.nodup_nil
  covered := by simp
  sound := by simp [OrderedMap.get]

inductive Selects (validateScopeRef : Validate) (sel : Selection) (row : PlacementLedgerRecord) :
    Except RebuildError Selection → Prop
  | skipped (hstate : row.state ≠ .active) : Selects validateScopeRef sel row (.ok sel)
  | refused {e : RebuildError} (hstate : row.state = .active)
      (he : canonicalScopeRef validateScopeRef row.scopeRef = .error e) : Selects validateScopeRef sel row (.error e)
  | picked {scopeRef : ScopeRef} (h : Claims validateScopeRef scopeRef row)
      (hnone : OrderedMap.get scopeRef sel.selected = none) :
      Selects validateScopeRef sel row
        (.ok { sel with selected := OrderedMap.set scopeRef { row with scopeRef } sel.selected })
  | counted {scopeRef : ScopeRef} {current : PlacementLedgerRecord} (h : Claims validateScopeRef scopeRef row)
      (hsome : OrderedMap.get scopeRef sel.selected = some current) (hhome : current.homeNodeId = row.homeNodeId) :
      Selects validateScopeRef sel row (.ok { sel with duplicates := sel.duplicates + 1 })
  | conflict {scopeRef : ScopeRef} {current : PlacementLedgerRecord} (h : Claims validateScopeRef scopeRef row)
      (hsome : OrderedMap.get scopeRef sel.selected = some current) (hhome : current.homeNodeId ≠ row.homeNodeId) :
      Selects validateScopeRef sel row (.error (.conflict scopeRef))

theorem selectRow_selects (sel : Selection) (row : PlacementLedgerRecord) :
    Selects validateScopeRef sel row (selectRow validateScopeRef sel row) := by
  unfold selectRow
  by_cases hst : row.state = .active
  · rw [if_neg (not_not.mpr hst)]
    cases hsc : canonicalScopeRef validateScopeRef row.scopeRef with
    | error e => exact .refused hst hsc
    | ok scopeRef =>
      change Selects _ _ _ (select sel row scopeRef)
      unfold select
      cases hg : OrderedMap.get scopeRef sel.selected with
      | none => exact .picked ⟨hst, hsc⟩ hg
      | some current =>
        dsimp only
        split
        · exact .conflict ⟨hst, hsc⟩ hg ‹_›
        · exact .counted ⟨hst, hsc⟩ hg (not_not.mp ‹_›)
  · rw [if_pos hst]
    exact .skipped hst

theorem Claims.eq {scopeRef scopeRef' : ScopeRef} (h : Claims validateScopeRef scopeRef row)
    (h' : Claims validateScopeRef scopeRef' row) : scopeRef = scopeRef' :=
  Except.ok.inj (h.2.symm.trans h'.2)

theorem Picks.extend (h : Picks validateScopeRef seen sel) (hnd : (OrderedMap.keys sel'.selected).Nodup)
    (hk : ∀ scopeRef r, OrderedMap.get scopeRef sel.selected = some r → OrderedMap.get scopeRef sel'.selected = some r)
    (hrow : ∀ scopeRef, Claims validateScopeRef scopeRef row →
      ∃ r, OrderedMap.get scopeRef sel'.selected = some r ∧ r.homeNodeId = row.homeNodeId)
    (hn : ∀ scopeRef r, OrderedMap.get scopeRef sel'.selected = some r → OrderedMap.get scopeRef sel.selected = some r ∨
      r.scopeRef = scopeRef ∧ Claims validateScopeRef scopeRef row ∧ row.homeNodeId = r.homeNodeId) :
    Picks validateScopeRef (seen ++ [row]) sel' := by
  refine ⟨hnd, fun scopeRef a ha hc => ?_, fun scopeRef r hr => ?_⟩
  · rcases List.mem_append.mp ha with ha | ha
    · obtain ⟨r, hr, hh⟩ := h.covered scopeRef a ha hc
      exact ⟨r, hk scopeRef r hr, hh⟩
    · obtain rfl := List.mem_singleton.mp ha
      exact hrow scopeRef hc
  · rcases hn scopeRef r hr with hold | ⟨hsc, hc, hh⟩
    · obtain ⟨hsc, a, ha, hc, hh⟩ := h.sound scopeRef r hold
      exact ⟨hsc, a, List.mem_append_left _ ha, hc, hh⟩
    · exact ⟨hsc, row, List.mem_append_right _ (List.mem_singleton_self _), hc, hh⟩

theorem picks_selectRow (h : Picks validateScopeRef seen sel) (hrow : selectRow validateScopeRef sel row = .ok sel') :
    Picks validateScopeRef (seen ++ [row]) sel' := by
  have hs : Selects validateScopeRef sel row (selectRow validateScopeRef sel row) := selectRow_selects sel row
  rw [hrow] at hs
  cases hs with
  | skipped hst =>
    exact h.extend h.nodup (fun _ _ hr => hr) (fun _ hc => absurd hc.1 hst) fun _ _ hr => .inl hr
  | @picked scopeRef hc hn =>
    refine h.extend (OrderedMap.nodup_set h.nodup) (fun scopeRef' r hr => ?_) (fun scopeRef' hclm' => ?_)
      fun scopeRef' r hr => ?_
    · rw [OrderedMap.get_set_of_ne fun heq => ?_]
      · exact hr
      · rw [heq, hn] at hr
        cases hr
    · obtain rfl := hc.eq hclm'
      exact ⟨_, OrderedMap.get_set_self, rfl⟩
    · rw [OrderedMap.get_set] at hr
      split at hr
      · rename_i heq
        subst heq
        cases hr
        exact .inr ⟨rfl, hc, rfl⟩
      · exact .inl hr
  | @counted scopeRef current hc hsm hh =>
    refine h.extend h.nodup (fun _ _ hr => hr) (fun scopeRef' hclm' => ?_) fun _ _ hr => .inl hr
    obtain rfl := hc.eq hclm'
    exact ⟨current, hsm, hh⟩

inductive Loops (validateScopeRef : Validate) (rows : List PlacementLedgerRecord) : Except RebuildError Selection → Prop
  | picked {sel : Selection} (h : Picks validateScopeRef rows sel) : Loops validateScopeRef rows (.ok sel)
  | conflict {scopeRef : ScopeRef} (h : Conflicted validateScopeRef rows) : Loops validateScopeRef rows (.error (.conflict scopeRef))
  | refused {e : RebuildError} (row : PlacementLedgerRecord) (hrow : row ∈ rows) (hstate : row.state = .active)
      (he : canonicalScopeRef validateScopeRef row.scopeRef = .error e) : Loops validateScopeRef rows (.error e)

theorem foldlM_loops (h : Picks validateScopeRef seen sel) :
    Loops validateScopeRef (seen ++ rows) (rows.foldlM (selectRow validateScopeRef) sel) := by
  induction rows generalizing seen sel with
  | nil =>
    rw [List.append_nil]
    exact .picked h
  | cons row rows ih =>
    rw [List.foldlM_cons]
    have hm : row ∈ seen ++ row :: rows := List.mem_append_right _ List.mem_cons_self
    have hs : Selects validateScopeRef sel row (selectRow validateScopeRef sel row) := selectRow_selects sel row
    cases hr : selectRow validateScopeRef sel row with
    | ok sel' =>
      have hn := ih (picks_selectRow h hr)
      rw [List.append_assoc] at hn
      exact hn
    | error e =>
      rw [hr] at hs
      cases hs with
      | refused hst he => exact .refused row hm hst he
      | @conflict scopeRef current hc hsm hh =>
        obtain ⟨-, a, ha, hacl, hah⟩ := h.sound scopeRef current hsm
        exact .conflict ⟨scopeRef, a, List.mem_append_left _ ha, row, hm, hacl, hc, by rw [hah]; exact hh⟩

theorem Picks.not_conflicted (h : Picks validateScopeRef rows sel) : ¬ Conflicted validateScopeRef rows := by
  rintro ⟨scopeRef, a, ha, b, hb, hacl, hbcl, hne⟩
  obtain ⟨r, hr, hah⟩ := h.covered scopeRef a ha hacl
  obtain ⟨r', hr', hbh⟩ := h.covered scopeRef b hb hbcl
  obtain rfl := Option.some.inj (hr.symm.trans hr')
  exact hne (hah.symm.trans hbh)

end Selecting

section Inserting

variable {registry : BindingRegistry} {bindings : List PlacementBinding}

theorem foldlM_insertRebuilt (hnd : (bindings.map (·.scopeRef)).Nodup)
    (hfr : ∀ b ∈ bindings, registry.get b.scopeRef = none) :
    ∃ store : Store PlacementBinding (·.scopeRef), store.rows = registry.bindings.rows ++ bindings ∧
      bindings.foldlM insertRebuilt registry = .ok { registry with bindings := store } := by
  induction bindings generalizing registry with
  | nil => exact ⟨registry.bindings, (List.append_nil _).symm, rfl⟩
  | cons b bindings ih =>
    obtain ⟨hb, hr⟩ := List.nodup_cons.mp hnd
    have hb : b.scopeRef ∉ bindings.map (·.scopeRef) := hb
    have hn : registry.get b.scopeRef = none := hfr b List.mem_cons_self
    have hi : insertRebuilt registry b = .ok { registry with bindings := registry.bindings.add b } := by
      unfold insertRebuilt
      rw [hn]
      rfl
    rw [List.foldlM_cons, hi]
    have hf' : ∀ a ∈ bindings,
        ({ registry with bindings := registry.bindings.add b } : BindingRegistry).get a.scopeRef = none := by
      intro a ha
      change (registry.bindings.add b).find a.scopeRef = none
      have hne : a.scopeRef ≠ b.scopeRef := fun heq => hb (by
        rw [← heq]
        exact List.mem_map_of_mem ha)
      rw [find_add_of_ne hne]
      exact hfr a (List.mem_cons_of_mem _ ha)
    obtain ⟨store, hs, hf⟩ := ih hr hf'
    refine ⟨store, ?_, hf⟩
    rw [hs, rows_add hn, List.append_assoc]
    rfl

theorem mem_bindings {sel : Selection} {b : PlacementBinding} :
    b ∈ sel.bindings collator ↔ ∃ scopeRef r, (scopeRef, r) ∈ sel.selected ∧ r.toPlacementBinding = b := by
  unfold Selection.bindings
  rw [List.mem_map]
  constructor
  · rintro ⟨r, hr, rfl⟩
    obtain ⟨⟨scopeRef, r⟩, he, rfl⟩ := List.mem_map.mp ((perm_sortBy _ _).mem_iff.mp hr)
    exact ⟨scopeRef, r, he, rfl⟩
  · rintro ⟨scopeRef, r, he, rfl⟩
    exact ⟨r, (perm_sortBy _ _).mem_iff.mpr (List.mem_map_of_mem he), rfl⟩

theorem scopes_nodup {rows : List PlacementLedgerRecord} {sel : Selection} (h : Picks validateScopeRef rows sel) :
    ((sel.bindings collator).map (·.scopeRef)).Nodup := by
  have hk : sel.selected.map (fun e => e.2.scopeRef) = OrderedMap.keys sel.selected := by
    refine List.map_congr_left fun e he => ?_
    exact (h.sound e.1 e.2 (OrderedMap.get_of_mem h.nodup he)).1
  unfold Selection.bindings
  rw [List.map_map]
  refine ((perm_sortBy _ _).map _).nodup_iff.mpr ?_
  rw [List.map_map]
  change (sel.selected.map fun e => e.2.scopeRef).Nodup
  rw [hk]
  exact h.nodup

end Inserting

def homeOf (registry : BindingRegistry) (scopeRef : ScopeRef) : Option NodeId := (registry.get scopeRef).map (·.homeNodeId)

inductive Rebuilds (validateScopeRef : Validate) (target : BindingRegistry) (rows : List PlacementLedgerRecord) :
    Except RebuildError Rebuilt × BindingRegistry → Prop
  | conflict {scopeRef : ScopeRef} (h : Conflicted validateScopeRef rows) :
      Rebuilds validateScopeRef target rows (.error (.conflict scopeRef), target)
  | inserted {counts : Rebuilt} {registry : BindingRegistry} (h : ¬ Conflicted validateScopeRef rows)
      (hcount : registry.bindings.rows.length = counts.inserted)
      (hhomes : ∀ scopeRef homeNodeId, homeOf registry scopeRef = some homeNodeId ↔
        ∃ row ∈ rows, Claims validateScopeRef scopeRef row ∧ row.homeNodeId = homeNodeId) :
      Rebuilds validateScopeRef target rows (.ok counts, registry)

variable {target : BindingRegistry} {rows rows' : List PlacementLedgerRecord}

theorem rebuild_rebuilds
    (hrw : ∀ row ∈ rows, row.state = .active → ∃ scopeRef, canonicalScopeRef validateScopeRef row.scopeRef = .ok scopeRef)
    (ht : target.bindings.rows = []) :
    Rebuilds validateScopeRef target rows (rebuildBindingRegistryFromLedgers validateScopeRef collator target rows) := by
  have hemp : ¬ target.bindings.rows.length ≠ 0 := by simp [ht]
  have hl : Loops validateScopeRef rows (rows.foldlM (selectRow validateScopeRef) {}) := foldlM_loops picks_nil
  unfold rebuildBindingRegistryFromLedgers
  rw [if_neg hemp]
  cases hfl : rows.foldlM (selectRow validateScopeRef) {} with
  | error e =>
    rw [hfl] at hl
    cases hl with
    | conflict h => exact .conflict h
    | refused row hrow hst he =>
      obtain ⟨scopeRef, hsc⟩ := hrw row hrow hst
      rw [hsc] at he
      cases he
  | ok sel =>
    rw [hfl] at hl
    cases hl with
    | picked h =>
      have hn : ∀ b ∈ sel.bindings collator, target.get b.scopeRef = none := fun b _ => by
        unfold BindingRegistry.get Store.find
        rw [ht]
        rfl
      obtain ⟨store, hs, hi⟩ := foldlM_insertRebuilt (scopes_nodup h) hn
      dsimp only
      rw [hi]
      rw [ht, List.nil_append] at hs
      refine .inserted h.not_conflicted ?_ fun scopeRef homeNodeId => ?_
      · rw [hs]
        simp [Selection.bindings, (perm_sortBy _ _).length_eq]
      · unfold homeOf BindingRegistry.get
        dsimp only
        constructor
        · intro hh
          obtain ⟨b, hf, rfl⟩ := Option.map_eq_some_iff.mp hh
          obtain ⟨hb, rfl⟩ := find_mem hf
          rw [hs] at hb
          obtain ⟨scopeRef, r, he, rfl⟩ := mem_bindings.mp hb
          obtain ⟨rfl, row, hrow, hc, hh⟩ := h.sound scopeRef r (OrderedMap.get_of_mem h.nodup he)
          exact ⟨row, hrow, hc, hh⟩
        · rintro ⟨row, hrow, hc, rfl⟩
          obtain ⟨r, hr, hh⟩ := h.covered scopeRef row hrow hc
          obtain ⟨rfl, -⟩ := h.sound scopeRef r hr
          have hm : r.toPlacementBinding ∈ store.rows := by
            rw [hs]
            exact mem_bindings.mpr ⟨_, r, OrderedMap.mem_of_get hr, rfl⟩
          rw [find_of_mem hm, Option.map_some, hh]

theorem Conflicted.perm (hp : rows.Perm rows') (h : Conflicted validateScopeRef rows) : Conflicted validateScopeRef rows' := by
  obtain ⟨scopeRef, a, ha, b, hb, h⟩ := h
  exact ⟨scopeRef, a, hp.mem_iff.mp ha, b, hp.mem_iff.mp hb, h⟩

/-- A rebuild from rows whose scopes are well formed throws exactly when two active rows of one scope name
different homes, and leaves the registry empty then; otherwise it inserts one binding for each scope with an
active row, with that row's home. The order of the rows does not matter. -/
theorem registry_rebuild (validateScopeRef : Validate) (collator : Collator)
    (hrows : ∀ row ∈ rows, row.state = .active → ∃ scopeRef, canonicalScopeRef validateScopeRef row.scopeRef = .ok scopeRef)
    (htarget : target.bindings.rows = []) :
    let rebuild := rebuildBindingRegistryFromLedgers validateScopeRef collator target
    Rebuilds validateScopeRef target rows (rebuild rows) ∧
      ∀ rows', rows.Perm rows' → ∀ scopeRef, homeOf (rebuild rows').2 scopeRef = homeOf (rebuild rows).2 scopeRef := by
  intro rebuild
  have hr : Rebuilds validateScopeRef target rows (rebuild rows) := rebuild_rebuilds hrows htarget
  refine ⟨hr, fun rows' hp scopeRef => ?_⟩
  have hreb' : Rebuilds validateScopeRef target rows' (rebuild rows') :=
    rebuild_rebuilds (fun row hrow => hrows row (hp.mem_iff.mpr hrow)) htarget
  generalize rebuild rows = answer, rebuild rows' = answer' at hr hreb'
  cases hr with
  | conflict h =>
    cases hreb' with
    | conflict => rfl
    | inserted h' => exact absurd (h.perm hp) h'
  | @inserted counts registry h hc hh =>
    cases hreb' with
    | conflict h' => exact absurd (h'.perm hp.symm) h
    | @inserted counts' registry' h' hcn' hh' =>
      apply Option.ext
      intro homeNodeId
      rw [hh, hh']
      constructor
      · rintro ⟨row, hrow, h⟩
        exact ⟨row, hp.mem_iff.mpr hrow, h⟩
      · rintro ⟨row, hrow, h⟩
        exact ⟨row, hp.mem_iff.mp hrow, h⟩

def collected : List PlacementLedgerRecord :=
  [{ scopeRef := "agent:coder", homeNodeId := "max3", createdAt := "2026-01-01", updatedAt := "2026-01-01", state := .active },
    { scopeRef := "agent:coder", homeNodeId := "max4", createdAt := "2026-01-02", updatedAt := "2026-01-03"
      state := .retired "2026-01-03" "moved" },
    { scopeRef := " agent:coder ", homeNodeId := "max3", createdAt := "2026-01-02", updatedAt := "2026-01-02", state := .active }]

def codePoints : Collator := ⟨compare, transCmp_codePoints⟩

theorem registry_rebuild_merged :
    homeOf (rebuildBindingRegistryFromLedgers (fun _ => none) codePoints {} collected).2 "agent:coder" = some "max3" ∧
      Rebuilds (fun _ => none) {} collected (rebuildBindingRegistryFromLedgers (fun _ => none) codePoints {} collected) := by
  refine ⟨by decide +kernel, (registry_rebuild _ codePoints (fun row hr _ => ⟨"agent:coder", ?_⟩) rfl).1⟩
  simp only [collected, List.mem_cons, List.not_mem_nil, or_false] at hr
  rcases hr with rfl | rfl | rfl <;> decide +kernel

end HrcRuntime.RegistryRebuild
