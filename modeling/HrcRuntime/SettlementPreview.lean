import HrcRuntime.SettlementSteps

namespace HrcRuntime.SettlementPreview

open Records Database Program Mapper RunRepository
open UnstartedSettlement WaitingPass SettlementSteps
open List (mem_map_of_mem nodup_cons mem_cons_of_mem mem_cons_self filterMap_cons mem_filterMap mem_map
  mem_filter)

section Items

variable [Host] (db : Db) (input : SettleInput)

def item (row : UnstartedRun) : Item String UnstartedSubmissionSettlement :=
  { name := row.runId, waitsOn := waitsOn db row, outcome := outcome db input row
    effect := ((outcome db input row).map (effectOf db)).getD .finishes }

def items : List (Item String UnstartedSubmissionSettlement) := (unstartedRuns db).map (item db input)

end Items

def applied (settlement : UnstartedSubmissionSettlement) : UnstartedSubmissionSettlement := { settlement with applied := true }

section Rows

variable [Host] {a : Db} {t : RunTable} {done : List String} {input : SettleInput} {row : UnstartedRun}
  {s : BrokerEventMapper} {settlement : UnstartedSubmissionSettlement}

theorem settlementFor_progress (h : Progress a t done) :
    settlementFor { a with runs := t } input row
      = if isFree done (item a input row) then (item a input row).outcome else none := by
  rw [settlementFor_eq, waitsOn_progress h, outcome_progress h]
  unfold isFree item
  dsimp only
  cases houtcome : outcome a input row with
  | none => simp
  | some settlement => rw [Option.isSome_some, Bool.true_and]

omit [Host] in
theorem progress_ends {t' : RunTable} {runId : String} (h : Progress a t done) (he : Ends { a with runs := t } runId t') :
    Progress a t' (runId :: done) := by
  refine ⟨he.runs.trans h.runs, fun other => ?_⟩
  by_cases hoth : other = runId
  · subst hoth
    rw [List.contains_cons, BEq.rfl, Bool.true_or, Bool.or_true]
    exact he.ended
  · have hsame : hasEnded { a with runs := t' } other = hasEnded { a with runs := t } other := by
      unfold hasEnded
      rw [he.others other hoth]
    rw [hsame, h.ended, List.contains_cons, beq_false_of_ne hoth, Bool.false_or]

variable (hdb : s.db = { a with runs := t }) (h : Progress a t done)
include hdb h

theorem settleRow_waits (hfree : isFree done (item a input row) = false) :
    settleRow input row s = (.ok none, s) := by
  rw [settleRow, query_bind, hdb, settlementFor_progress h, hfree]
  rfl

variable (hsteady : ∀ n, Host.fault n = none) (hreal : input.dryRun = false) (hrow : row ∈ unstartedRuns a)
  (hsame : getByRunId { a with runs := t } row.runId = getByRunId a row.runId)
  (houtcome : outcome a input row = some settlement) (hfree : isFree done (item a input row) = true)

include hreal hrow hsame houtcome hfree in
theorem settleRow_free : ∃ r, getByRunId s.db row.runId = some r ∧ Selected row r ∧ Settles s.db row settlement ∧
    effectOf s.db settlement = (item a input row).effect ∧
    settleRow input row s
      = (settleUnstarted settlement input.now >>= fun applied => pure (some { settlement with applied })) s := by
  obtain ⟨r, hr, hsta⟩ := mem_unstartedRuns hrow
  have hs := selected_of_unstarted hsta
  have hstl : outcome s.db input row = some settlement := by
    rw [hdb, outcome_progress h]
    exact houtcome
  have hset : Settles s.db row settlement := outcome_settles hstl
  have hf : getByRunId s.db row.runId = some r := by
    rw [hdb, hsame]
    exact hr
  refine ⟨r, hf, hs, hset, ?_, ?_⟩
  · have he : (item a input row).effect = effectOf a settlement := by
      unfold item
      rw [houtcome]
      rfl
    rw [he]
    unfold effectOf
    rw [hset.runId, hf, hr]
  · have hst : settlementFor s.db input row = some settlement := by
      rw [hdb, settlementFor_progress h, if_pos hfree]
      exact houtcome
    rw [settleRow, query_bind, hst]
    dsimp only
    rw [hreal]
    rfl

include hsteady hreal hrow hsame houtcome hfree in
theorem settleRow_takes (heff : (item a input row).effect ≠ .fails) :
    ∃ t' n, settleRow input row s = (.ok (some (applied settlement)), { s with tick := n, db := { a with runs := t' } }) ∧
      Progress a t' (finish done (item a input row)) ∧
      ∀ other, other ≠ row.runId ∨ (item a input row).effect ≠ .finishes →
        getByRunId { a with runs := t' } other = getByRunId { a with runs := t } other := by
  obtain ⟨r, hr, hs, hst, hset, hrun⟩ := settleRow_free hdb h hreal hrow hsame houtcome hfree
  cases he : (item a input row).effect with
  | fails => exact absurd he heff
  | finishes =>
    obtain ⟨t', n, happ, hen⟩ := settleUnstarted_finishes hsteady hr hs hst (hset.trans he) input.now
    rw [hdb] at hen
    refine ⟨t', n, ?_, ?_, fun other hoth => hen.others other (hoth.resolve_right fun hne => hne rfl)⟩
    · rw [hrun, bind_ok happ, hdb]
      rfl
    · unfold finish
      rw [he]
      exact progress_ends h hen
  | repeats =>
    obtain ⟨n, happ⟩ := settleUnstarted_repeats hsteady hr hs hst (hset.trans he) input.now
    refine ⟨t, n, ?_, ?_, fun _ _ => rfl⟩
    · rw [hrun, bind_ok happ, ← hdb]
      rfl
    · unfold finish
      rw [he]
      exact h

include hsteady hreal hrow hsame houtcome hfree in
theorem settleRow_throws (he : (item a input row).effect = .fails) : ∃ e u, settleRow input row s = (.error e, u) := by
  obtain ⟨r, hr, hs, hst, hset, hrun⟩ := settleRow_free hdb h hreal hrow hsame houtcome hfree
  obtain ⟨e, u, ht⟩ := settleUnstarted_fails hsteady hr hs hst (hset.trans he) input.now
  exact ⟨e, u, hrun.trans (bind_error ht)⟩

end Rows

section Loop

theorem later_untouched {a : Db} {t t' : RunTable} {row : UnstartedRun} {rest : List UnstartedRun}
    (hnodup : ((row :: rest).map (·.runId)).Nodup)
    (hsame : ∀ other ∈ row :: rest, getByRunId { a with runs := t } other.runId = getByRunId a other.runId)
    (hk : ∀ other, other ≠ row.runId → getByRunId { a with runs := t' } other = getByRunId { a with runs := t } other) :
    ∀ other ∈ rest, getByRunId { a with runs := t' } other.runId = getByRunId a other.runId := by
  intro other hoth
  have hne : other.runId ≠ row.runId := by
    intro heq
    have hm : other.runId ∈ rest.map (·.runId) := mem_map_of_mem hoth
    rw [heq] at hm
    exact (nodup_cons.mp hnodup).1 hm
  exact (hk other.runId hne).trans (hsame other (mem_cons_of_mem row hoth))

variable [Host] (hsteady : ∀ n, Host.fault n = none) {a : Db} {t : RunTable} {done : List String} {input : SettleInput}
  {rows : List UnstartedRun} {s : BrokerEventMapper} {taken : List (Item String UnstartedSubmissionSettlement)}
  (hreal : input.dryRun = false) (hdb : s.db = { a with runs := t }) (h : Progress a t done)
  (hrows : ∀ row ∈ rows, row ∈ unstartedRuns a) (hnodup : (rows.map (·.runId)).Nodup)
  (hsame : ∀ row ∈ rows, getByRunId { a with runs := t } row.runId = getByRunId a row.runId)
include hsteady hreal hdb h hrows hnodup hsame

/-- A real run takes what the pass takes. -/
theorem settleRows_done (hp : pass done (rows.map (item a input)) = some taken) :
    ∃ results t' n, Prog.mapEach rows (settleRow input) s = (.ok results, { s with tick := n, db := { a with runs := t' } }) ∧
      results.filterMap id = taken.filterMap (fun i => i.outcome.map applied) ∧
      Progress a t' (taken.foldl finish done) ∧
      ∀ other, (∀ i ∈ taken, i.effect = .finishes → i.name ≠ other) →
        getByRunId { a with runs := t' } other = getByRunId { a with runs := t } other := by
  induction rows generalizing s t done taken with
  | nil =>
    cases hp
    refine ⟨[], t, s.tick, ?_, rfl, h, fun _ _ => rfl⟩
    rw [← hdb]
    rfl
  | cons row rest ih =>
    have hrs := fun other hoth => hrows other (mem_cons_of_mem row hoth)
    have ht := (nodup_cons.mp hnodup).2
    rcases pass_cons_eq_some hp with ⟨hfree, hp⟩ | ⟨hfree, heff, taken', hl, rfl⟩
    · obtain ⟨results, t', n, hrun, hr, hpr, hk⟩ := ih hdb h hrs ht
        (fun other hoth => hsame other (mem_cons_of_mem row hoth)) hp
      refine ⟨none :: results, t', n, ?_, hr, hpr, hk⟩
      exact (bind_ok (settleRow_waits hdb h hfree)).trans (bind_ok hrun)
    · obtain ⟨settlement, houtcome⟩ : ∃ settlement, outcome a input row = some settlement :=
        Option.isSome_iff_exists.mp (Bool.and_eq_true_iff.mp hfree).1
      obtain ⟨t₁, n₁, htk, hprogress₁, hkept₁⟩ := settleRow_takes hdb h hsteady hreal (hrows row mem_cons_self)
        (hsame row mem_cons_self) houtcome hfree heff
      have hu := later_untouched hnodup hsame fun other hoth => hkept₁ other (.inl hoth)
      obtain ⟨results, t', n, hrun, hr, hpr, hk⟩ := ih
        (s := { s with tick := n₁, db := { a with runs := t₁ } }) rfl hprogress₁ hrs ht hu hl
      refine ⟨some (applied settlement) :: results, t', n, (bind_ok htk).trans (bind_ok hrun), ?_, hpr, ?_⟩
      · have hit : (item a input row).outcome = some settlement := houtcome
        rw [filterMap_cons, filterMap_cons, hit, hr]
        rfl
      · intro other hoth
        refine (hk other fun i hi => hoth i (mem_cons_of_mem _ hi)).trans (hkept₁ other ?_)
        by_cases he : (item a input row).effect = .finishes
        · exact .inl (hoth _ mem_cons_self he).symm
        · exact .inr he

theorem settleRows_thrown (hp : pass done (rows.map (item a input)) = none) :
    ∃ e u, Prog.mapEach rows (settleRow input) s = (.error e, u) := by
  induction rows generalizing s t done with
  | nil => cases hp
  | cons row rest ih =>
    have hr := fun other hoth => hrows other (mem_cons_of_mem row hoth)
    have ht := (nodup_cons.mp hnodup).2
    rw [List.map_cons] at hp
    cases hfree : isFree done (item a input row) with
    | false =>
      rw [pass_cons_of_not_free hfree] at hp
      obtain ⟨e, u, hrun⟩ := ih hdb h hr ht (fun other hoth => hsame other (mem_cons_of_mem row hoth)) hp
      exact ⟨e, u, (bind_ok (settleRow_waits hdb h hfree)).trans (bind_error hrun)⟩
    | true =>
      obtain ⟨settlement, houtcome⟩ : ∃ settlement, outcome a input row = some settlement :=
        Option.isSome_iff_exists.mp (Bool.and_eq_true_iff.mp hfree).1
      by_cases he : (item a input row).effect = .fails
      · obtain ⟨e, u, hthr⟩ := settleRow_throws hdb h hsteady hreal (hrows row mem_cons_self)
          (hsame row mem_cons_self) houtcome hfree he
        exact ⟨e, u, bind_error hthr⟩
      · obtain ⟨t₁, n₁, htk, hprogress₁, hkept₁⟩ := settleRow_takes hdb h hsteady hreal (hrows row mem_cons_self)
          (hsame row mem_cons_self) houtcome hfree he
        have hu := later_untouched hnodup hsame fun other hoth => hkept₁ other (.inl hoth)
        rw [pass_cons_of_free hfree he, Option.map_eq_none_iff] at hp
        obtain ⟨e, u, hrun⟩ := ih (s := { s with tick := n₁, db := { a with runs := t₁ } }) rfl hprogress₁ hr ht
          hu hp
        exact ⟨e, u, (bind_ok htk).trans (bind_error hrun)⟩

end Loop

theorem unstartedRuns_nodup (db : Db) : ((unstartedRuns db).map (·.runId)).Nodup := by
  have hu : db.runs.rows.Pairwise fun x y => x.runId ≠ y.runId := by
    refine db.runs.unique.imp fun {x y} h heq => h (fun r => some ("run_id", r.runId)) mem_cons_self ⟨rfl, ?_⟩
    exact congrArg (fun id => some ("run_id", id)) heq
  have hs : (db.runs.rows.filterMap unstartedRun).Pairwise fun x y => x.runId ≠ y.runId := by
    refine List.pairwise_filterMap.mpr (hu.imp fun {x y} hne row hrow row' hrow' heq => hne ?_)
    rw [(selected_of_unstarted hrow).runId, (selected_of_unstarted hrow').runId, heq]
  rw [List.nodup_iff_pairwise_ne, List.pairwise_map]
  exact ((List.perm_insertionSort sweptBefore _).pairwise_iff fun h => h.symm).mpr hs

theorem mem_unstartedRuns_of_found {db : Db} {row : UnstartedRun} {r : HrcRunRecord} (hr : getByRunId db row.runId = some r)
    (hrow : unstartedRun r = some row) : row ∈ unstartedRuns db :=
  (List.mem_insertionSort sweptBefore).mpr (mem_filterMap.mpr ⟨r, List.mem_of_find?_eq_some hr, hrow⟩)

section Items

variable [Host] {db : Db} {input : SettleInput} {i j : Item String UnstartedSubmissionSettlement}
  {settlement : UnstartedSubmissionSettlement} {l : List (Item String UnstartedSubmissionSettlement)}

theorem items_nodup (db : Db) (input : SettleInput) : ((items db input).map (·.name)).Nodup := by
  unfold items
  rw [List.map_map]
  exact unstartedRuns_nodup db

theorem item_eq (hi : i ∈ items db input) (hj : j ∈ items db input) (hn : i.name = j.name) : i = j :=
  List.inj_on_of_nodup_map (items_nodup db input) hi hj hn

theorem item_settles (hi : i ∈ items db input) (houtcome : i.outcome = some settlement) :
    settlement.runId = i.name ∧ settlement.applied = false := by
  obtain ⟨row, -, rfl⟩ := mem_map.mp hi
  have hs := outcome_settles houtcome
  exact ⟨hs.runId, hs.applied⟩

theorem mem_of_outcome (hsub : ∀ j ∈ l, j ∈ items db input) (hi : i ∈ items db input) (houtcome : i.outcome = some settlement) :
    settlement ∈ l.filterMap (·.outcome) ↔ i ∈ l := by
  rw [mem_filterMap]
  constructor
  · rintro ⟨j, hj, hs⟩
    have hn := (item_settles (hsub j hj) hs).1.symm.trans (item_settles hi houtcome).1
    rwa [item_eq (hsub j hj) hi hn] at hj
  · exact fun hm => ⟨i, hm, houtcome⟩

theorem taken_mem (hp : pass [] (items db input) = some l) (hi : i ∈ l) : i ∈ items db input :=
  (mem_filter.mp ((pass_sublist hp).mem hi)).1

end Items

structure Faithful [Host] (input : SettleInput) (s t : BrokerEventMapper)
    (dry real : List UnstartedSubmissionSettlement) : Prop where
  dryRun : settleUnstartedSubmissionRuns { input with dryRun := true } s = (.ok dry, s)
  realRun : settleUnstartedSubmissionRuns { input with dryRun := false } s = (.ok real, t)
  same : ∀ settlement, { settlement with applied := false } ∈ dry ↔ applied settlement ∈ real
  spent : ∀ settlement ∈ real, settlement.applied = true → ∀ row ∈ unstartedRuns t.db, row.runId ≠ settlement.runId

structure Apart [Host] (input : SettleInput) (db : Db) : Prop where
  unowned : ∀ row ∈ unstartedRuns db, waitsOn db row = none → ∀ plan ∈ duePlan db input row, plan.action = .coalesced →
    (getByRunId db row.runId).bind (·.coalescedIntoRunId) = none
  unclaimed : (unstartedRuns db).Pairwise fun earlier row => (duePlan db input earlier).isSome = true →
    waitsOn db earlier = none → (duePlan db input row).isSome = true → waitsOn db row ≠ some earlier.runId

section Theorem

variable [Host] {input : SettleInput} {s : BrokerEventMapper}

variable {taken l : List (Item String UnstartedSubmissionSettlement)}
  {settlement : UnstartedSubmissionSettlement}

omit [Host] in
theorem effectOf_finishes {db : Db} {row : UnstartedRun}
    (h : Settles db row settlement) : effectOf db settlement = .finishes ↔
      (settlement.action = .coalesced → (getByRunId db row.runId).bind (·.coalescedIntoRunId) = none) := by
  unfold effectOf
  rw [h.runId]
  by_cases hact : settlement.action = .coalesced
  · obtain ⟨owner, hown, -⟩ := h.coalesces hact
    rw [hact, hown]
    dsimp only
    cases (getByRunId db row.runId).bind (·.coalescedIntoRunId) with
    | none => simp
    | some other =>
      dsimp only
      split <;> simp
  · cases h' : settlement.action with
    | coalesced => exact absurd h' hact
    | completed | failed | cancelled => simp

theorem apart_iff {db : Db} : Apart input db ↔
    (∀ i ∈ preview (items db input), i.effect = .finishes) ∧ Independent (items db input) := by
  have he : (∀ i ∈ preview (items db input), i.effect = .finishes) ↔
      ∀ row ∈ unstartedRuns db, waitsOn db row = none → ∀ plan ∈ duePlan db input row, plan.action = .coalesced →
        (getByRunId db row.runId).bind (·.coalescedIntoRunId) = none := by
    have hit (row : UnstartedRun) (plan : SettlementPlan) (hp : duePlan db input row = some plan) :
        (item db input row).effect = .finishes ↔ (plan.action = .coalesced →
          (getByRunId db row.runId).bind (·.coalescedIntoRunId) = none) := by
      have houtcome : outcome db input row = some (settlementOf plan input.now) := by
        unfold outcome
        rw [hp]
        rfl
      unfold item
      rw [houtcome]
      exact effectOf_finishes (outcome_settles houtcome)
    constructor
    · intro h row hrow hw plan hp
      refine (hit row plan hp).mp (h _ (mem_filter.mpr ⟨mem_map_of_mem hrow, ?_⟩))
      have hopt : duePlan db input row = some plan := hp
      simp [item, outcome, hw, hopt]
    · intro h i hi
      obtain ⟨hm, hd⟩ := mem_filter.mp hi
      obtain ⟨row, hrow, rfl⟩ := mem_map.mp hm
      obtain ⟨houtcome, hw⟩ := Bool.and_eq_true_iff.mp hd
      obtain ⟨settlement, hs⟩ := Option.isSome_iff_exists.mp houtcome
      obtain ⟨plan, hp, -⟩ := Option.map_eq_some_iff.mp hs
      exact (hit row plan hp).mpr (h row hrow (Option.isNone_iff_eq_none.mp hw) plan hp)
  have hc : Independent (items db input) ↔ (unstartedRuns db).Pairwise fun earlier row =>
      (duePlan db input earlier).isSome = true → waitsOn db earlier = none → (duePlan db input row).isSome = true →
        waitsOn db row ≠ some earlier.runId := by
    unfold Independent items
    rw [List.pairwise_map]
    simp only [item, outcome, Option.isSome_map]
  rw [he, hc]
  exact ⟨fun h => ⟨h.unowned, h.unclaimed⟩, fun h => ⟨h.1, h.2⟩⟩

theorem dryRun_eq (input : SettleInput) (s : BrokerEventMapper) :
    settleUnstartedSubmissionRuns { input with dryRun := true } s
      = (.ok ((preview (items s.db input)).filterMap (·.outcome)), s) := by
  have hl (rows : List UnstartedRun) : ∃ results, Prog.mapEach rows (settleRow { input with dryRun := true }) s = (.ok results, s) ∧
      results.filterMap (fun settlement => settlement) = (preview (rows.map (item s.db input))).filterMap (·.outcome) := by
    induction rows with
    | nil => exact ⟨[], rfl, rfl⟩
    | cons row rest ih =>
      obtain ⟨results, hrun, hr⟩ := ih
      have hs : settlementFor s.db { input with dryRun := true } row = settlementFor s.db input row := rfl
      have hrow : settleRow { input with dryRun := true } row s = (.ok (settlementFor s.db input row), s) := by
        rw [settleRow, query_bind, hs]
        cases settlementFor s.db input row <;> rfl
      refine ⟨settlementFor s.db input row :: results, (bind_ok hrow).trans (bind_ok hrun), ?_⟩
      rw [List.map_cons, preview_cons, settlementFor_eq]
      change List.filterMap (fun settlement => settlement) ((if (waitsOn s.db row).isNone then outcome s.db input row else none) :: results)
        = List.filterMap (·.outcome) (if (outcome s.db input row).isSome && (waitsOn s.db row).isNone then
            item s.db input row :: preview (rest.map (item s.db input)) else preview (rest.map (item s.db input)))
      have hi : (item s.db input row).outcome = outcome s.db input row := rfl
      cases (waitsOn s.db row).isNone <;> cases houtcome : outcome s.db input row <;>
        simp only [Option.isSome_none, Option.isSome_some, Bool.and_false, Bool.and_true, Bool.false_eq_true, if_false,
          if_true, filterMap_cons, hi, houtcome, hr]
  obtain ⟨results, hrun, hr⟩ := hl (unstartedRuns s.db)
  rw [settleUnstartedSubmissionRuns, query_bind, bind_ok hrun]
  exact congrArg (fun dry => (Except.ok dry, s)) hr

variable (hsteady : ∀ n, Host.fault n = none)
include hsteady

theorem realRun_eq (hp : pass [] (items s.db input) = some taken) :
    ∃ t, settleUnstartedSubmissionRuns { input with dryRun := false } s
        = (.ok ((taken.filterMap (·.outcome)).map applied), t) ∧
      ∀ i ∈ taken, (∀ row ∈ unstartedRuns t.db, row.runId ≠ i.name) ↔ i.effect = .finishes := by
  let real : SettleInput := { input with dryRun := false }
  have hp' : pass [] ((unstartedRuns s.db).map (item s.db real)) = some taken := hp
  obtain ⟨results, runs, n, hrun, hres, hpr, hk⟩ := settleRows_done hsteady (s := s) (by rfl) rfl
    (⟨rfl, fun runId => by simp⟩ : Progress s.db s.db.runs []) (fun row hrow => hrow) (unstartedRuns_nodup s.db)
    (fun _ _ => rfl) hp'
  refine ⟨{ s with tick := n, db := { s.db with runs } }, ?_, fun i hi =>
    ⟨fun hs => ?_, fun he row hrow heq => ?_⟩⟩
  · rw [settleUnstartedSubmissionRuns, query_bind, bind_ok hrun, hres, List.map_filterMap]
    rfl
  · by_contra he
    have hit := taken_mem hp hi
    obtain ⟨row, hrow, rfl⟩ := mem_map.mp hit
    have hu := hk row.runId fun j hj hf hn =>
      he (item_eq (taken_mem hp hj) hit hn ▸ hf)
    obtain ⟨r, hr, hsta⟩ := mem_unstartedRuns hrow
    exact hs row (mem_unstartedRuns_of_found (hu.trans hr) hsta) rfl
  · obtain ⟨r, hr, hsta⟩ := mem_unstartedRuns hrow
    have hend : hasEnded { s.db with runs := runs } i.name = true := by
      rw [hpr.ended, Bool.or_eq_true]
      exact .inr (List.contains_iff_mem.mpr ((mem_foldl_finish taken []).2 i hi he))
    rw [← heq] at hend
    unfold hasEnded at hend
    have hr : getByRunId { s.db with runs := runs } row.runId = some r := hr
    rw [hr, Option.bind_some, (selected_of_unstarted hsta).completedAt] at hend
    cases hend

theorem realRun_thrown (hp : pass [] (items s.db input) = none) :
    ∃ e u, settleUnstartedSubmissionRuns { input with dryRun := false } s = (.error e, u) := by
  let real : SettleInput := { input with dryRun := false }
  have hp' : pass [] ((unstartedRuns s.db).map (item s.db real)) = none := hp
  obtain ⟨e, u, ht⟩ := settleRows_thrown hsteady (s := s) (by rfl) rfl
    (⟨rfl, fun runId => by simp⟩ : Progress s.db s.db.runs []) (fun row hrow => hrow) (unstartedRuns_nodup s.db)
    (fun _ _ => rfl) hp'
  refine ⟨e, u, ?_⟩
  rw [settleUnstartedSubmissionRuns, query_bind, bind_error ht]

omit hsteady in
theorem outcome_unapplied (hl : ∀ i ∈ l, i ∈ items s.db input)
    (h : settlement ∈ l.filterMap (·.outcome)) :
    { settlement with applied := false } = settlement := by
  obtain ⟨i, hi, houtcome⟩ := mem_filterMap.mp h
  rw [← (item_settles (hl i hi) houtcome).2]

omit hsteady in
theorem same_iff (hl : ∀ i ∈ l, i ∈ items s.db input)
    (htk : ∀ i ∈ taken, i ∈ items s.db input) :
    (∀ settlement, { settlement with applied := false } ∈ l.filterMap (·.outcome) ↔
        applied settlement ∈ (taken.filterMap (·.outcome)).map applied) ↔
      ∀ settlement, settlement ∈ l.filterMap (·.outcome) ↔ settlement ∈ taken.filterMap (·.outcome) := by
  have happ (settlement : UnstartedSubmissionSettlement) :
      applied settlement ∈ (taken.filterMap (·.outcome)).map applied ↔
        { settlement with applied := false } ∈ taken.filterMap (·.outcome) := by
    constructor
    · intro h
      obtain ⟨other, hoth, heq⟩ := mem_map.mp h
      have hsame : { other with applied := false } = { settlement with applied := false } :=
        congrArg (fun settled : UnstartedSubmissionSettlement => { settled with applied := false }) heq
      rwa [← hsame, outcome_unapplied htk hoth]
    · intro h
      have hm : applied { settlement with applied := false } ∈ (taken.filterMap (·.outcome)).map applied :=
        mem_map_of_mem h
      exact hm
  constructor
  · intro h settlement
    refine ⟨fun hm => ?_, fun hm => ?_⟩
    · have hu := outcome_unapplied hl hm
      rw [← hu] at hm ⊢
      exact (happ settlement).mp ((h settlement).mp hm)
    · have hu := outcome_unapplied htk hm
      rw [← hu] at hm ⊢
      exact (h settlement).mpr ((happ settlement).mpr hm)
  · exact fun h settlement => (h _).trans (happ settlement).symm

/-- The dry run is faithful just when the rows stand apart. -/
theorem faithful_iff (input : SettleInput) (s : BrokerEventMapper) :
    (∃ t dry real, Faithful input s t dry real) ↔ Apart input s.db := by
  have hpr : ∀ i ∈ preview (items s.db input), i ∈ items s.db input := fun i hi => (mem_filter.mp hi).1
  rw [apart_iff, ← pass_is_preview]
  constructor
  · rintro ⟨t, dry, real, h⟩
    cases hp : pass [] (items s.db input) with
    | none =>
      obtain ⟨e, u, ht⟩ := realRun_thrown hsteady hp
      rw [h.realRun] at ht
      cases ht
    | some taken =>
      have htk : ∀ i ∈ taken, i ∈ items s.db input := fun i hi => taken_mem hp hi
      have hd (i : Item String UnstartedSubmissionSettlement) (hi : i ∈ taken) : ∃ settlement, i.outcome = some settlement :=
        Option.isSome_iff_exists.mp (mem_filter.mp ((pass_sublist hp).mem hi)).2
      obtain ⟨t', hreal, hsp⟩ := realRun_eq hsteady hp
      cases h.dryRun.symm.trans (dryRun_eq input s)
      cases h.realRun.symm.trans hreal
      have hsame := (same_iff hpr htk).mp h.same
      refine ⟨taken, rfl, fun i => ⟨fun hi => ?_, fun hi => ?_⟩, fun i hi => (hsp i hi).mp fun row hrow => ?_⟩
      · obtain ⟨settlement, houtcome⟩ := hd i hi
        rw [← mem_of_outcome hpr (htk i hi) houtcome, hsame, mem_of_outcome htk (htk i hi) houtcome]
        exact hi
      · obtain ⟨settlement, houtcome⟩ :=
          Option.isSome_iff_exists.mp (Bool.and_eq_true_iff.mp (mem_filter.mp hi).2).1
        rw [← mem_of_outcome htk (hpr i hi) houtcome, ← hsame,
          mem_of_outcome hpr (hpr i hi) houtcome]
        exact hi
      · obtain ⟨settlement, houtcome⟩ := hd i hi
        have hm : applied settlement ∈ (taken.filterMap (·.outcome)).map applied :=
          mem_map_of_mem (mem_filterMap.mpr ⟨i, hi, houtcome⟩)
        rw [← (item_settles (htk i hi) houtcome).1]
        exact h.spent _ hm rfl row hrow
  · rintro ⟨taken, hp, hsame, hf⟩
    have htk : ∀ i ∈ taken, i ∈ items s.db input := fun i hi => taken_mem hp hi
    obtain ⟨t, hreal, hsp⟩ := realRun_eq hsteady hp
    refine ⟨t, _, _, dryRun_eq input s, hreal, (same_iff hpr htk).mpr fun settlement => ?_, ?_⟩
    · simp only [mem_filterMap, hsame]
    · intro settlement hm _ row hrow
      obtain ⟨settled, hs, rfl⟩ := mem_map.mp hm
      obtain ⟨i, hi, houtcome⟩ := mem_filterMap.mp hs
      have hn : (applied settled).runId = i.name := (item_settles (htk i hi) houtcome).1
      rw [hn]
      exact (hsp i hi).mpr (hf i hi) row hrow

end Theorem

section Answers

variable [Host] {input : SettleInput} {s t : BrokerEventMapper} {settlement : UnstartedSubmissionSettlement}

theorem settleRow_answers {row : UnstartedRun} (h : settleRow input row s = (.ok (some settlement), t)) :
    settlement.runId = row.runId := by
  rw [settleRow, query_bind] at h
  cases hs : settlementFor s.db input row with
  | none =>
    rw [hs] at h
    cases h
  | some settled =>
    have hid : settled.runId = row.runId := by
      rw [settlementFor_eq] at hs
      split at hs
      · exact (outcome_settles hs).runId
      · cases hs
    rw [hs] at h
    dsimp only at h
    split at h
    · cases h
      exact hid
    · obtain ⟨applied, u, -, h⟩ := bind_eq_ok.mp h
      cases h
      exact hid

theorem rows_answer {rows : List UnstartedRun} {answers : List (Option UnstartedSubmissionSettlement)}
    (h : Prog.mapEach rows (settleRow input) s = (.ok answers, t)) (hm : settlement ∈ answers.filterMap id) :
    ∃ row ∈ rows, row.runId = settlement.runId := by
  induction rows generalizing s answers with
  | nil =>
    cases h
    cases hm
  | cons row rest ih =>
    obtain ⟨answer, v, hrow, h⟩ := bind_eq_ok.mp h
    obtain ⟨others, w, hoth, h⟩ := bind_eq_ok.mp h
    cases h
    have hl (hm : settlement ∈ others.filterMap id) : ∃ other ∈ row :: rest, other.runId = settlement.runId := by
      obtain ⟨other, hot, hid⟩ := ih hoth hm
      exact ⟨other, mem_cons_of_mem row hot, hid⟩
    rw [filterMap_cons] at hm
    cases answer with
    | none => exact hl hm
    | some answer =>
      rcases List.mem_cons.mp hm with rfl | hm
      · exact ⟨row, mem_cons_self, (settleRow_answers hrow).symm⟩
      · exact hl hm

theorem answers_selected {results : List UnstartedSubmissionSettlement}
    (h : settleUnstartedSubmissionRuns input s = (.ok results, t)) (hm : settlement ∈ results) :
    ∃ row ∈ unstartedRuns s.db, row.runId = settlement.runId := by
  rw [settleUnstartedSubmissionRuns, query_bind] at h
  obtain ⟨answers, u, hr, h⟩ := bind_eq_ok.mp h
  cases h
  exact rows_answer hr hm

end Answers

/-- The dry run reports what the real run applies, and leaves it nothing to repeat, just when the rows stand
apart; then no later call settles a run of the first again. -/
theorem dry_run_is_real_run [Host] (hsteady : ∀ n, Host.fault n = none) (input : SettleInput) (s : BrokerEventMapper) :
    ((∃ t dry real, Faithful input s t dry real) ↔ Apart input s.db) ∧
      ∀ t dry real, Faithful input s t dry real → ∀ later again u, settleUnstartedSubmissionRuns later t = (.ok again, u) →
        ∀ settlement ∈ real, settlement.applied = true → ∀ repeated ∈ again, repeated.runId ≠ settlement.runId := by
  refine ⟨faithful_iff hsteady input s, fun t dry real h later again u hag settlement hm happ repeated hr => ?_⟩
  obtain ⟨row, hrow, hid⟩ := answers_selected hag hr
  rw [← hid]
  exact h.spent settlement hm happ row hrow

namespace Sample

@[reducible] def host : Host := { steadyHost with parseDate := fun _ => some 0 }

def submitted (runId submissionId : String) : HrcRunRecord :=
  { runId, hostSessionId := "host", runtimeId := some "rt", invocationId := some "inv-a", operationId := some "op-a"
    brokerSubmissionId := some submissionId }

def rejected (seq : Nat) (submissionId : String) : HrcBrokerInvocationEventRecord :=
  { invocationId := "inv-a", seq, runtimeId := "rt", type := .submissionRejected
    brokerEventJson := .obj (.cons "submissionId" (.str submissionId) .nil) }

def mapper (activeRunId : Option String) : BrokerEventMapper where
  db :=
    { brokerInvocations := ⟨[{ invocationId := "inv-a", operationId := "op-a", runtimeId := "rt" }], by decide⟩
      runtimes := ⟨[{ runtimeId := "rt", hostSessionId := "host", activeRunId }], List.pairwise_singleton _ _⟩
      runtimeOperations := ⟨[{ operationId := "op-a", runtimeId := "rt" }], by decide⟩
      runs := ⟨[submitted "run-a" "sub-a", submitted "run-b" "sub-b"], by decide⟩
      brokerInvocationEvents := ⟨[rejected 1 "sub-a", rejected 2 "sub-b"], by decide⟩ }

def input : SettleInput := { cutoffMs := 0, dryRun := false, now := "now" }

end Sample

theorem dry_run_is_real_run_unclaimed :
    let _ := Sample.host
    (∃ t dry real, Faithful Sample.input (Sample.mapper none) t dry real) := by
  let _ := Sample.host
  exact (dry_run_is_real_run (fun _ => rfl) Sample.input (Sample.mapper none)).1.mpr ⟨by decide +kernel, by decide +kernel⟩

/-- The runtime is claimed by the first run; the dry run leaves out the second one, which the real run settles. -/
theorem claimed_run_unreported :
    let _ := Sample.host
    ((settleUnstartedSubmissionRuns { Sample.input with dryRun := true } (Sample.mapper (some "run-a"))).1.toOption.map
        (·.map (·.runId))) = some ["run-a"] ∧
      ((settleUnstartedSubmissionRuns Sample.input (Sample.mapper (some "run-a"))).1.toOption.map
        (·.map fun settled => (settled.runId, settled.applied))) = some [("run-a", true), ("run-b", true)] ∧
      ¬ ∃ t dry real, Faithful Sample.input (Sample.mapper (some "run-a")) t dry real := by
  let _ := Sample.host
  refine ⟨by decide +kernel, by decide +kernel, fun h => ?_⟩
  have hap := ((faithful_iff (fun _ => rfl) _ _).mp h).unclaimed
  exact absurd hap (by decide +kernel)

end HrcRuntime.SettlementPreview
