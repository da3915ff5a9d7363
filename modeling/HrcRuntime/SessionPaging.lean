import HrcRuntime.SessionWalk

namespace HrcRuntime.SessionPaging

open SessionIndex SessionPage SessionWalk KeysetPaging Schedule

section Runs

variable [Platform] {fed : Federation} {filters : SessionIndexFilters} {nodes : NodeSelection} {selected : List String}
  {w : Walk} {request : PageRequest}

omit [Platform] in
theorem selection (h : parseSelectedNodes nodes fed.home.nodeId fed.knownNodeIds = .ok selected) :
    Selection fed selected := by
  have hp : fed.knownNodeIds.Perm (fed.nodes.map (·.nodeId)) := perm_sortBy compare _
  obtain ⟨hnd, hkn⟩ := selected_spec (hp.nodup_iff.mpr fed.distinct) (hp.mem_iff.mpr List.mem_cons_self) h
  refine ⟨hnd, fun nodeId hm => ?_⟩
  obtain ⟨node, hn, hid⟩ := List.mem_map.mp (hp.mem_iff.mp (hkn nodeId hm))
  exact ⟨node, hn, hid⟩

theorem handleSessionPage_eq (h : parseSelectedNodes nodes fed.home.nodeId fed.knownNodeIds = .ok selected)
    (hi : Inv fed filters selected w) :
    handleSessionPage fed request.conditions { filters, nodes, limit := request.limit.value, cursor := w.cursor } =
      .ok (pageAt fed filters selected w request) := by
  have hp : parseSessionQuery fed.home.nodeId fed.knownNodeIds
      { filters, nodes, limit := request.limit.value, cursor := w.cursor } = _ :=
    parseSessionQuery_eq_ok h request.limit.bounded hi.accepted
  have hr : selected.mapM (nodePage fed request.conditions (parsedAt filters selected w request)) =
      .ok (selected.map (resultAt fed request.conditions (parsedAt filters selected w request))) := by
    refine mapM_eq_ok fun nodeId hm => ?_
    obtain ⟨node, hn, rfl⟩ := (selection h).known nodeId hm
    have hf : (directory fed).find node.nodeId = some node := Keyed.find_of_mem (t := directory fed) hn
    rw [nodePage_eq hn]
    simp only [resultAt, hf]
  simp only [handleSessionPage, respond, hp]
  change (selected.mapM (nodePage fed request.conditions (parsedAt filters selected w request)) >>= fun results => _) = _
  rw [hr]
  rfl

theorem ordered_page : (pageAt fed filters selected w request).items.Pairwise fun a b => (compareItems a b).isLE = true := by
  have := compareItems_trans
  rw [pageAt_items]
  exact (pairwise_sortBy compareItems _).sublist (List.take_sublist _ _)

def Kept (fed : Federation) (filters : SessionIndexFilters) (selected : List String) (w : Walk) : Prop :=
  (∀ page ∈ w.pages, page.items.Pairwise fun a b => (compareItems a b).isLE = true) ∧
    match w.outcome with
    | .going => Inv fed filters selected w
    | .finished => w.items.Perm (matching fed filters selected)
    | .refused _ => False

theorem kept_start : Kept fed filters selected {} := by
  refine ⟨fun page h => (by cases h), fun node _ _ => ⟨[], _, ⟨rfl, rfl⟩, rfl⟩, fun item h => (by cases h), fun c h => (by cases h)⟩

theorem follow_going (h : parseSelectedNodes nodes fed.home.nodeId fed.knownNodeIds = .ok selected)
    (hg : w.outcome = .going) (hi : Inv fed filters selected w) :
    follow fed filters nodes request w = w.read (pageAt fed filters selected w request) := by
  simp only [follow, hg, handleSessionPage_eq h hi]

theorem follow_ended (he : w.outcome ≠ .going) : follow fed filters nodes request w = w := by
  unfold follow
  split
  · exact absurd ‹_› he
  · rfl

theorem run_ended (he : w.outcome ≠ .going) (requests : List PageRequest) :
    run (follow fed filters nodes) requests w = w := by
  induction requests with
  | nil => rfl
  | cons request requests ih => rw [run, follow_ended he, ih]

def Orderly (fed : Federation) (filters : SessionIndexFilters) (selected : List String) (w : Walk) (request : PageRequest) :
    Prop :=
  w.outcome = .going → InOrder fed filters selected w request

theorem kept_follow (h : parseSelectedNodes nodes fed.home.nodeId fed.knownNodeIds = .ok selected)
    (hk : Kept fed filters selected w) (hin : Orderly fed filters selected w request) :
    Kept fed filters selected (follow fed filters nodes request w) := by
  by_cases hg : w.outcome = .going
  · obtain ⟨hord, hi⟩ := hk
    rw [hg] at hi
    dsimp only at hi
    have hin := hin hg
    rw [follow_going h hg hi]
    constructor
    · intro page hp
      rcases List.mem_append.mp hp with hp | hp
      · exact hord page hp
      · rw [List.mem_singleton.mp hp]
        exact ordered_page
    · cases hn : (pageAt fed filters selected w request).nextCursor with
      | some c =>
        simp only [Walk.read, hn, Option.isSome_some, if_true]
        have hr := hi.read hin (selection h) hn
        simp only [Walk.read, hn, Option.isSome_some, if_true] at hr
        exact hr
      | none =>
        have hr := hi.complete hin (selection h) hn
        rw [← items_read] at hr
        simp only [Walk.read, hn, Option.isSome_none, Bool.false_eq_true, if_false] at hr ⊢
        exact hr
  · rw [follow_ended hg]
    exact hk

theorem reached_le (h : parseSelectedNodes nodes fed.home.nodeId fed.knownNodeIds = .ok selected)
    {requests : List PageRequest} (hk : Kept fed filters selected w)
    (hmt : Meets (follow fed filters nodes) (Orderly fed filters selected) requests w)
    (hgn : (run (follow fed filters nodes) requests w).outcome = .going) :
    w.items.length + requests.countP (reachesAll fed selected) ≤ (run (follow fed filters nodes) requests w).items.length := by
  induction requests generalizing w with
  | nil => exact Nat.le_refl _
  | cons request requests ih =>
    have hnow : w.outcome = .going := by
      by_contra he
      rw [run_ended he] at hgn
      exact he hgn
    have hi := hk.2
    rw [hnow] at hi
    dsimp only at hi
    have hs : follow fed filters nodes request w = _ := follow_going h hnow hi
    have hrs := ih (kept_follow h hk hmt.1) hmt.2 hgn
    rw [hs, items_read, List.length_append] at hrs
    rw [run, hs] at hgn ⊢
    rw [List.countP_cons]
    split
    · rename_i hr
      have hn : (pageAt fed filters selected w request).nextCursor ≠ none := fun hnn => by
        have he : (w.read (pageAt fed filters selected w request)).outcome ≠ .going := by
          simp [Walk.read, hnn]
        rw [run_ended he] at hgn
        exact he hgn
      have hg := List.length_pos_iff.mpr (hi.progress (hmt.1 hnow) (selection h) hr hn)
      omega
    · omega

theorem orderly_of_agrees (hagr : ∀ node ∈ fed.nodes, node.nodeId ∈ selected → ∀ a ∈ node.index.rows,
      filters.matches a = true → isNodeCursor a.cursor = true ∧ ∀ b ∈ node.index.rows, filters.matches b = true →
        byActivity a b = .lt → (compareItems ⟨node.nodeId, a⟩ ⟨node.nodeId, b⟩).isLE = true) :
    Orderly fed filters selected w request := by
  intro _ node hn hmem _
  have hs : (listPage node.index filters (w.component node.nodeId) request.limit.value).items.Sublist
      (select node.index fun row => filters.matches row && (w.component node.nodeId).all (·.isBefore row)) :=
    (List.take_sublist _ _).trans (List.take_sublist _ _)
  have hr : ∀ row ∈ (listPage node.index filters (w.component node.nodeId) request.limit.value).items,
      row ∈ node.index.rows ∧ filters.matches row = true := fun row hmem => by
    obtain ⟨hr, hm⟩ := List.mem_filter.mp (perm_select.mem_iff.mp (hs.subset hmem))
    exact ⟨hr, (Bool.and_eq_true _ _ ▸ hm).1⟩
  refine ⟨List.pairwise_map.mpr ?_, fun row hm' => (hagr node hn hmem row (hr row hm').1 (hr row hm').2).1⟩
  refine List.Pairwise.imp_of_mem (fun {a b} ha hb hlt => ?_) (strict_select.sublist hs)
  exact (hagr node hn hmem a (hr a ha).1 (hr a ha).2).2 b (hr b hb).1 (hr b hb).2 hlt

/-- Following the cursors: in a run whose pages the nodes list in the merged order no request is refused, every page is
in that order, nothing is read twice, and without a next cursor every matching row of every selected node has been
read once. That comes within as many pages answered by every node as there are rows, and one more. -/
theorem pages_lose_nothing (h : parseSelectedNodes nodes fed.home.nodeId fed.knownNodeIds = .ok selected)
    {requests : List PageRequest}
    (hmeets : Meets (follow fed filters nodes) (Orderly fed filters selected) requests {}) :
    let w := run (follow fed filters nodes) requests {}
    (∀ error, w.outcome ≠ .refused error) ∧
      (∀ page ∈ w.pages, page.items.Pairwise fun a b => (compareItems a b).isLE = true) ∧
      w.items.Subperm (matching fed filters selected) ∧
      (w.outcome = .finished → w.items.Perm (matching fed filters selected)) ∧
      ((matching fed filters selected).length < requests.countP (reachesAll fed selected) → w.outcome = .finished) := by
  intro w
  have hk : Kept fed filters selected w :=
    run_invariant (fun w request hk hin => kept_follow h hk hin) kept_start hmeets
  obtain ⟨hord, hs⟩ := hk
  have hr := reached_le (w := {}) h kept_start hmeets
  change w.outcome = .going → _ at hr
  cases hout : w.outcome with
  | going =>
    rw [hout] at hs
    have hsb : w.items.Subperm (matching fed filters selected) := hs.subperm (selection h)
    refine ⟨fun _ h => (by cases h), hord, hsb, fun h => (by cases h), fun hlt => ?_⟩
    have hle : _ ≤ w.items.length := hr hout
    have := hsb.length_le
    omega
  | finished =>
    rw [hout] at hs
    have hp : w.items.Perm (matching fed filters selected) := hs
    exact ⟨fun _ h => (by cases h), hord, hp.subperm, fun _ => hp, fun _ => rfl⟩
  | refused error =>
    rw [hout] at hs
    exact hs.elim

end Runs

namespace Sample

def localeCompare (a b : String) : Ordering :=
  (compare (a.toList.map Char.toLower) (b.toList.map Char.toLower)).then (compare b a)

def platform : Platform where
  sha256 := id
  localeCompare := localeCompare
  ordered := by
    have hfold := transCmp_on (compare : List Char → List Char → Ordering) fun a : String => a.toList.map Char.toLower
    exact inferInstanceAs (Std.TransCmp (compareLex
      (fun a b : String => compare (a.toList.map Char.toLower) (b.toList.map Char.toLower)) fun a b => compare b a))
  lawful :=
    { compare_self := fun {a} => by simp [localeCompare]
      eq_of_compare := fun {a b} h => (Std.LawfulEqOrd.eq_of_compare (Ordering.then_eq_eq.mp h).2).symm }

def row (hostSessionId lastActivityAt : String) : SessionIndexRecord where
  hostSessionId := hostSessionId
  scopeRef := "agent:cody:project:hrc:task:" ++ hostSessionId
  laneRef := "main"
  generation := 1
  agentId := "cody"
  projectId := some "hrc"
  createdAt := "2026-08-11T09:00:00.000Z"
  effectiveStatus := .active
  executionMode := .headless
  lastActivityAt := lastActivityAt

/-- `max3` with one row, and its peer `lab` with two rows of one time. -/
def federation (first second : String) (h : first ≠ second) : Federation where
  home := ⟨"max3", ⟨[row "hsid-c" "2026-08-11T12:00:00.000Z"], List.nodup_singleton _⟩⟩
  peers := [⟨"lab", ⟨[row first "2026-08-11T11:00:00.000Z", row second "2026-08-11T11:00:00.000Z"],
    by simpa [row] using h⟩⟩]
  distinct := show ["max3", "lab"].Nodup by decide
  named := by
    intro node hnode
    rcases List.mem_cons.mp hnode with rfl | hnode
    · exact show isNodeId "max3" = true by decide
    · rw [List.mem_singleton.mp hnode]
      exact show isNodeId "lab" = true by decide

def request : PageRequest where
  limit := ⟨2, by decide⟩
  conditions := { checkedAt := "2026-08-11T13:00:00.000Z", maxHrcSeq := fun _ => 7, failure := fun _ => none }

end Sample

theorem pages_lose_nothing_lab :
    letI := Sample.platform
    let fed := Sample.federation "hsid-a" "hsid-b" (by decide)
    let w := run (follow fed {} .all) [Sample.request, Sample.request] {}
    w.outcome = .finished ∧ w.items.Perm (matching fed {} ["lab", "max3"]) := by
  letI := Sample.platform
  intro fed w
  have hs : parseSelectedNodes .all fed.home.nodeId fed.knownNodeIds = .ok ["lab", "max3"] := by decide +kernel
  have hagr : ∀ node ∈ fed.nodes, node.nodeId ∈ ["lab", "max3"] → ∀ a ∈ node.index.rows,
      SessionIndexFilters.matches {} a = true → isNodeCursor a.cursor = true ∧ ∀ b ∈ node.index.rows,
        SessionIndexFilters.matches {} b = true → byActivity a b = .lt →
          (compareItems ⟨node.nodeId, a⟩ ⟨node.nodeId, b⟩).isLE = true := by
    decide +kernel
  have hmt : Meets (follow fed {} .all) (Orderly fed {} ["lab", "max3"]) [Sample.request, Sample.request] {} :=
    ⟨orderly_of_agrees hagr, orderly_of_agrees hagr, trivial⟩
  have hf : w.outcome = .finished := by decide +kernel
  exact ⟨hf, (pages_lose_nothing hs hmt).2.2.2.1 hf⟩

/-- Two rows of one time whose ids the locale and the binary order compare differently: the page ends at the capital, and
the small letter is never served. -/
theorem page_loses_row :
    letI := Sample.platform
    let fed := Sample.federation "hs-a" "hs-B" (by decide)
    let w := run (follow fed {} .all) [Sample.request, Sample.request] {}
    w.outcome = .finished ∧
      (⟨"lab", Sample.row "hs-a" "2026-08-11T11:00:00.000Z"⟩ : SessionPageItem) ∈ matching fed {} ["lab", "max3"] ∧
      (⟨"lab", Sample.row "hs-a" "2026-08-11T11:00:00.000Z"⟩ : SessionPageItem) ∉ w.items := by
  decide +kernel

end HrcRuntime.SessionPaging
