import HrcRuntime.Keyed
import HrcRuntime.Schedule
import HrcRuntime.SessionPage

namespace HrcRuntime.SessionWalk

open SessionIndex SessionPage KeysetPaging
open List (any_eq_false mem_map_of_mem all_eq_true mem_map map_append)

/-- A limit `parseLimit` takes. -/
structure PageLimit where
  value : Nat
  bounded : 1 ≤ value ∧ value ≤ maxPageLimit

structure PageRequest where
  limit : PageLimit
  conditions : Conditions

inductive Outcome where
  | going | finished
  | refused (error : BadRequest)
  deriving DecidableEq

/-- A client that follows `nextCursor`, and the pages it has read. -/
structure Walk where
  cursor : Option SessionCompositeCursor := none
  pages : List SessionPageResponse := []
  outcome : Outcome := .going

namespace Walk

def items (w : Walk) : List SessionPageItem := w.pages.flatMap (·.items)

def component (w : Walk) (nodeId : String) : Option SessionIndexCursor :=
  w.cursor.bind fun cursor => OrderedMap.get nodeId cursor.n

def read (w : Walk) (page : SessionPageResponse) : Walk where
  cursor := page.nextCursor
  pages := w.pages ++ [page]
  outcome := if page.nextCursor.isSome then .going else .finished

end Walk

variable [Platform]

def follow (fed : Federation) (filters : SessionIndexFilters) (nodes : NodeSelection) (request : PageRequest) (w : Walk) :
    Walk :=
  match w.outcome with
  | .going =>
    match handleSessionPage fed request.conditions { filters, nodes, limit := request.limit.value, cursor := w.cursor } with
    | .ok page => w.read page
    | .error error => { w with outcome := .refused error }
  | _ => w

def directory (fed : Federation) : Keyed.Store Node (·.nodeId) := ⟨fed.nodes, fed.distinct⟩

def listing (fed : Federation) (filters : SessionIndexFilters) (nodeId : String) : List SessionPageItem :=
  (((directory fed).find nodeId).map fun node => (select node.index filters.matches).map (SessionPageItem.mk nodeId)).getD []

def matching (fed : Federation) (filters : SessionIndexFilters) (selected : List String) : List SessionPageItem :=
  selected.flatMap (listing fed filters)

def answers (fed : Federation) (conditions : Conditions) (nodeId : String) : Bool :=
  nodeId == fed.home.nodeId || (conditions.failure nodeId).isNone

def reachesAll (fed : Federation) (selected : List String) (request : PageRequest) : Bool :=
  selected.all (answers fed request.conditions)

def InOrder (fed : Federation) (filters : SessionIndexFilters) (selected : List String) (w : Walk) (request : PageRequest) :
    Prop :=
  ∀ node ∈ fed.nodes, node.nodeId ∈ selected → answers fed request.conditions node.nodeId = true →
    let page := listPage node.index filters (w.component node.nodeId) request.limit.value
    (page.items.map (SessionPageItem.mk node.nodeId)).Pairwise (fun a b => (compareItems a b).isLE = true) ∧
      ∀ record ∈ page.items, isNodeCursor record.cursor = true

def Accepted (filters : SessionIndexFilters) (selected : List String) (cursor : SessionCompositeCursor) : Prop :=
  cursor.v = cursorVersion ∧ cursor.f = filterFingerprint filters selected ∧
    ∀ entry ∈ cursor.n, entry.1 ∈ selected ∧ isNodeCursor entry.2 = true

section Requests

variable {localNodeId : String} {known selected : List String} {selection : NodeSelection} {filters : SessionIndexFilters}
  {limit : Nat} {cursor : Option SessionCompositeCursor}

theorem decodeCursor_eq_ok {cursor : SessionCompositeCursor} (h : Accepted filters selected cursor) :
    decodeCursor cursor (filterFingerprint filters selected) selected = .ok cursor := by
  obtain ⟨hv, hf, hn⟩ := h
  have hen : (cursor.n.any fun entry => !selected.contains entry.1 || !isNodeCursor entry.2) = false := by
    refine any_eq_false.mpr fun entry he => ?_
    simp [hn entry he]
  simp only [decodeCursor, hv, hf, ne_eq, not_true_eq_false, if_false, hen, Bool.false_eq_true]

theorem parseSessionQuery_eq_ok (hs : parseSelectedNodes selection localNodeId known = .ok selected)
    (hl : 1 ≤ limit ∧ limit ≤ maxPageLimit) (hc : ∀ c, cursor = some c → Accepted filters selected c) :
    parseSessionQuery localNodeId known { filters, nodes := selection, limit, cursor } =
      .ok { filters, selectedNodeIds := selected, limit, cursor, fingerprint := filterFingerprint filters selected } := by
  have hp : parseLimit limit = .ok limit := if_pos hl
  simp only [parseSessionQuery, hs, hp]
  cases cursor with
  | none => rfl
  | some c =>
    have hd := decodeCursor_eq_ok (hc c rfl)
    change ((some <$> decodeCursor c (filterFingerprint filters selected) selected) >>= fun cursor => _) = _
    rw [hd]
    rfl

omit [Platform] in
theorem selected_spec (hkn : known.Nodup) (hl : localNodeId ∈ known)
    (h : parseSelectedNodes selection localNodeId known = .ok selected) :
    selected.Nodup ∧ ∀ nodeId ∈ selected, nodeId ∈ known := by
  cases selection with
  | all =>
    obtain rfl := Except.ok.inj h
    exact ⟨hkn, fun _ hm => hm⟩
  | localOnly =>
    obtain rfl := Except.ok.inj h
    exact ⟨List.nodup_singleton _, fun _ hm => List.mem_singleton.mp hm ▸ hl⟩
  | listed names =>
    simp only [parseSelectedNodes] at h
    split at h
    · cases h
    · split at h
      · cases h
      · rename_i hall
        obtain rfl := Except.ok.inj h
        refine ⟨(perm_sortBy compare _).nodup_iff.mpr (nodup_eraseDups names), fun nodeId hm => ?_⟩
        have := any_eq_false.mp (Bool.eq_false_iff.mpr hall) nodeId ((perm_sortBy compare _).mem_iff.mp hm)
        simpa using this

end Requests

section Nodes

variable {fed : Federation} {filters : SessionIndexFilters} {conditions : Conditions} {parsed : ParsedSessionQuery}
  {node : Node} {before rest : List SessionIndexRecord}

theorem compareItems_trans : Std.TransCmp compareItems := by
  have ht := transCmp_on (fun a b => Platform.localeCompare b a) fun item : SessionPageItem => item.record.lastActivityAt
  have hn := transCmp_on Platform.localeCompare SessionPageItem.nodeId
  have hh := transCmp_on (fun a b => Platform.localeCompare b a) fun item : SessionPageItem => item.record.hostSessionId
  exact inferInstanceAs (Std.TransCmp (compareLex
    (fun a b : SessionPageItem => Platform.localeCompare b.record.lastActivityAt a.record.lastActivityAt)
    (compareLex (fun a b => Platform.localeCompare a.nodeId b.nodeId)
      fun a b => Platform.localeCompare b.record.hostSessionId a.record.hostSessionId)))

/-- The page a node gives past the rows `before`. -/
def pagePast (node : Node) (conditions : Conditions) (limit : Nat) (rest : List SessionIndexRecord) : NodePageResult where
  nodeId := node.nodeId
  items := (rest.take limit).map (SessionPageItem.mk node.nodeId)
  hasMore := decide (limit < rest.length)
  eventHighWater := some (conditions.maxHrcSeq node.nodeId)
  status := { state := .healthy, checkedAt := conditions.checkedAt }

omit [Platform] in
theorem localPage_eq (hl : select node.index parsed.filters.matches = before ++ rest)
    (hc : parsed.component node.nodeId = before.getLast?.map (·.cursor)) :
    localPage node conditions parsed = pagePast node conditions parsed.limit rest := by
  simp only [localPage, hc, listPage_eq hl]
  rfl

theorem sortBy_page {page : List SessionPageItem} (hs : page.Pairwise fun a b => (compareItems a b).isLE = true) :
    sortBy compareItems page = page := List.Pairwise.insertionSort_eq hs

theorem mergePages_single {limit : Nat} (hl : parsed.limit = limit)
    (hs : ((rest.take limit).map (SessionPageItem.mk node.nodeId)).Pairwise fun a b => (compareItems a b).isLE = true) :
    (mergePages parsed [pagePast node conditions limit rest]).items = (rest.take limit).map (SessionPageItem.mk node.nodeId) ∧
      (mergePages parsed [pagePast node conditions limit rest]).nextCursor.isSome = decide (limit < rest.length) ∧
      (mergePages parsed [pagePast node conditions limit rest]).eventHighWater =
        [(node.nodeId, conditions.maxHrcSeq node.nodeId)] := by
  have he : (sortBy compareItems ([pagePast node conditions limit rest].flatMap (·.items))).take parsed.limit =
      (rest.take limit).map (SessionPageItem.mk node.nodeId) := by
    rw [List.flatMap_singleton, hl]
    refine (congrArg (List.take limit) (sortBy_page hs)).trans (List.take_of_length_le ?_)
    rw [List.length_map]
    exact List.length_take_le _ _
  refine ⟨he, ?_, rfl⟩
  have hall : ((pagePast node conditions limit rest).items.any fun item =>
      !(((rest.take limit).map (SessionPageItem.mk node.nodeId)).map itemKey).contains (itemKey item)) = false := by
    refine any_eq_false.mpr fun item hi => ?_
    have hk : (((rest.take limit).map (SessionPageItem.mk node.nodeId)).map itemKey).contains (itemKey item) = true :=
      List.contains_iff_mem.mpr (mem_map_of_mem hi)
    rw [hk]
    exact Bool.false_ne_true
  simp only [mergePages, he]
  simp only [List.all_cons, List.all_nil, List.any_cons, List.any_nil, hall, Bool.or_false, Bool.and_true]
  cases hm : decide (limit < rest.length) <;> simp [pagePast, hm]

/-- A peer that answers gives the page the node itself would. -/
theorem peerPage_eq (han : conditions.failure node.nodeId = none)
    (hl : 1 ≤ parsed.limit ∧ parsed.limit ≤ maxPageLimit)
    (hn : ∀ c, parsed.component node.nodeId = some c → isNodeCursor c = true)
    (hls : select node.index parsed.filters.matches = before ++ rest)
    (hcm : parsed.component node.nodeId = before.getLast?.map (·.cursor))
    (hsr : ((rest.take parsed.limit).map (SessionPageItem.mk node.nodeId)).Pairwise
      fun a b => (compareItems a b).isLE = true) :
    peerPage node conditions parsed = pagePast node conditions parsed.limit rest := by
  let asked : ParsedSessionQuery :=
    { filters := parsed.filters, selectedNodeIds := [node.nodeId], limit := parsed.limit
      cursor := (peerQuery node parsed).cursor, fingerprint := filterFingerprint parsed.filters [node.nodeId] }
  have hcur : ∀ c, (peerQuery node parsed).cursor = some c → Accepted parsed.filters [node.nodeId] c := fun c hc => by
    obtain ⟨component, hsm, rfl⟩ := Option.map_eq_some_iff.mp hc
    refine ⟨rfl, rfl, fun entry he => ?_⟩
    obtain rfl := List.mem_singleton.mp he
    exact ⟨List.mem_singleton_self _, hn _ hsm⟩
  have hp : parseSessionQuery node.nodeId [] (peerQuery node parsed) = .ok asked :=
    parseSessionQuery_eq_ok rfl hl hcur
  have has : asked.component node.nodeId = before.getLast?.map (·.cursor) := by
    rw [← hcm]
    simp only [asked, ParsedSessionQuery.component, peerQuery]
    cases (parsed.cursor.bind fun cursor => OrderedMap.get node.nodeId cursor.n) with
    | none => rfl
    | some c => exact if_pos rfl
  have hans : answerPeer node conditions (peerQuery node parsed) =
      .ok (mergePages asked [pagePast node conditions parsed.limit rest]) := by
    have hlc : localPage node conditions asked = pagePast node conditions asked.limit rest :=
      localPage_eq hls has
    simp only [answerPeer, respond, hp]
    exact congrArg (fun page => Except.ok (mergePages asked [page])) hlc
  obtain ⟨hi, hnx, hhw⟩ :
      (mergePages asked [pagePast node conditions parsed.limit rest]).items = _ ∧ _ ∧ _ := mergePages_single rfl hsr
  generalize mergePages asked [pagePast node conditions parsed.limit rest] = page at hans hi hnx hhw
  have hs : OrderedMap.get node.nodeId page.eventHighWater = some (conditions.maxHrcSeq node.nodeId) := by
    rw [hhw]
    exact if_pos rfl
  have hv : isPageResponse page node.nodeId = true := by
    simp only [isPageResponse, hs, hi, Option.isSome_some, Bool.true_and, List.all_map]
    exact all_eq_true.mpr fun record _ => beq_self_eq_true node.nodeId
  simp only [peerPage, fetchPeerJson, han, hans, hv, if_true, hi, hnx, hs]
  rfl

def pageOf (fed : Federation) (conditions : Conditions) (parsed : ParsedSessionQuery) (node : Node) : NodePageResult :=
  if node.nodeId = fed.home.nodeId then localPage node conditions parsed else peerPage node conditions parsed

theorem nodePage_eq (hn : node ∈ fed.nodes) :
    nodePage fed conditions parsed node.nodeId = .ok (pageOf fed conditions parsed node) := by
  obtain ⟨hh, hpr⟩ := List.nodup_cons.mp fed.distinct
  by_cases h : node.nodeId = fed.home.nodeId
  · have hs : node = fed.home := by
      rcases List.mem_cons.mp hn with heq | hp
      · exact heq
      · have hm := mem_map_of_mem (f := Node.nodeId) hp
        rw [h] at hm
        exact absurd hm hh
    subst hs
    simp only [nodePage, pageOf, if_true]
  · have hp : node ∈ fed.peers := (List.mem_cons.mp hn).resolve_left fun heq => h (heq ▸ rfl)
    have hf : fed.peers.find? (·.nodeId == node.nodeId) = some node :=
      Keyed.find_of_mem (t := ⟨fed.peers, hpr⟩) hp
    simp only [nodePage, pageOf, if_neg h, hf]

/-- Where a client stands at a node: past the rows `before`, with `rest` to come. -/
structure Place (node : Node) (filters : SessionIndexFilters) (component : Option SessionIndexCursor)
    (before rest : List SessionIndexRecord) : Prop where
  listing : select node.index filters.matches = before ++ rest
  component : component = before.getLast?.map (·.cursor)

theorem pageOf_answers (hplc : Place node parsed.filters (parsed.component node.nodeId) before rest)
    (hans : answers fed conditions node.nodeId = true) (hl : 1 ≤ parsed.limit ∧ parsed.limit ≤ maxPageLimit)
    (hn : ∀ c, parsed.component node.nodeId = some c → isNodeCursor c = true)
    (hs : ((rest.take parsed.limit).map (SessionPageItem.mk node.nodeId)).Pairwise
      fun a b => (compareItems a b).isLE = true) :
    pageOf fed conditions parsed node = pagePast node conditions parsed.limit rest := by
  unfold pageOf
  split
  · exact localPage_eq hplc.listing hplc.component
  · rename_i hp
    have hr : conditions.failure node.nodeId = none := by simpa [answers, hp] using hans
    exact peerPage_eq hr hl hn hplc.listing hplc.component hs

theorem pageOf_fails (hans : answers fed conditions node.nodeId = false) :
    ∃ failure, pageOf fed conditions parsed node = peerFailure node.nodeId failure conditions.checkedAt := by
  simp only [answers, Bool.or_eq_false_iff, beq_eq_false_iff_ne, Option.isNone_eq_false_iff] at hans
  obtain ⟨failure, hf⟩ := Option.isSome_iff_exists.mp hans.2
  refine ⟨failure, ?_⟩
  simp only [pageOf, if_neg hans.1, peerPage, fetchPeerJson, hf]

end Nodes

section Steps

variable {fed : Federation} {filters : SessionIndexFilters} {selected : List String} {w : Walk} {request : PageRequest}
  {node : Node} {before rest : List SessionIndexRecord}

structure Inv (fed : Federation) (filters : SessionIndexFilters) (selected : List String) (w : Walk) : Prop where
  places : ∀ node ∈ fed.nodes, node.nodeId ∈ selected → ∃ before rest,
    Place node filters (w.component node.nodeId) before rest ∧
      w.items.filter (·.nodeId = node.nodeId) = before.map (SessionPageItem.mk node.nodeId)
  known : ∀ item ∈ w.items, item.nodeId ∈ selected
  accepted : ∀ c, w.cursor = some c → Accepted filters selected c

def parsedAt (filters : SessionIndexFilters) (selected : List String) (w : Walk) (request : PageRequest) :
    ParsedSessionQuery where
  filters := filters
  selectedNodeIds := selected
  limit := request.limit.value
  cursor := w.cursor
  fingerprint := filterFingerprint filters selected

def resultAt (fed : Federation) (conditions : Conditions) (parsed : ParsedSessionQuery) (nodeId : String) : NodePageResult :=
  match (directory fed).find nodeId with
  | some node => pageOf fed conditions parsed node
  | none => peerFailure nodeId ⟨.unreachable, "", by decide⟩ conditions.checkedAt

def pageAt (fed : Federation) (filters : SessionIndexFilters) (selected : List String) (w : Walk) (request : PageRequest) :
    SessionPageResponse :=
  mergePages (parsedAt filters selected w request)
    (selected.map (resultAt fed request.conditions (parsedAt filters selected w request)))

def available (fed : Federation) (request : PageRequest) (node : Node) (rest : List SessionIndexRecord) :
    List SessionIndexRecord :=
  if answers fed request.conditions node.nodeId then rest.take request.limit.value else []

omit [Platform] in
theorem Place.page (hp : Place node filters (w.component node.nodeId) before rest) (limit : Nat) :
    listPage node.index filters (w.component node.nodeId) limit =
      { items := rest.take limit, hasMore := decide (limit < rest.length) } := by
  rw [hp.component]
  exact listPage_eq hp.listing limit

theorem Inv.result (hi : Inv fed filters selected w) (hin : InOrder fed filters selected w request)
    (hnd : node ∈ fed.nodes) (hm : node.nodeId ∈ selected)
    (hplc : Place node filters (w.component node.nodeId) before rest) :
    let result := resultAt fed request.conditions (parsedAt filters selected w request) node.nodeId
    result.items = (available fed request node rest).map (SessionPageItem.mk node.nodeId) ∧
      (result.status.state = .healthy ↔ answers fed request.conditions node.nodeId = true) ∧
      (result.hasMore = false ↔ answers fed request.conditions node.nodeId = true ∧ rest.length ≤ request.limit.value) := by
  have hf : (directory fed).find node.nodeId = some node := Keyed.find_of_mem (t := directory fed) hnd
  simp only [resultAt, hf, available]
  cases hans : answers fed request.conditions node.nodeId with
  | true =>
    have hs := (hin node hnd hm hans).1
    rw [hplc.page] at hs
    have hn : ∀ c, w.component node.nodeId = some c → isNodeCursor c = true := fun c hc => by
      obtain ⟨cursor, hcur, hg⟩ := Option.bind_eq_some_iff.mp hc
      exact ((hi.accepted cursor hcur).2.2 _ (OrderedMap.mem_of_get hg)).2
    have hp : pageOf fed request.conditions (parsedAt filters selected w request) node =
        pagePast node request.conditions request.limit.value rest :=
      pageOf_answers hplc hans request.limit.bounded hn hs
    rw [hp]
    refine ⟨rfl, by simp [pagePast], ?_⟩
    simp only [pagePast, decide_eq_false_iff_not, Nat.not_lt, true_and]
  | false =>
    obtain ⟨failure, hp⟩ : ∃ failure, pageOf fed request.conditions (parsedAt filters selected w request) node = _ :=
      pageOf_fails hans
    rw [hp]
    refine ⟨rfl, by simp [peerFailure, failure.failed], by simp [peerFailure]⟩

structure Selection (fed : Federation) (selected : List String) : Prop where
  nodup : selected.Nodup
  known : ∀ nodeId ∈ selected, ∃ node ∈ fed.nodes, node.nodeId = nodeId

theorem Inv.items_of_result (hi : Inv fed filters selected w) (hin : InOrder fed filters selected w request)
    (hs : Selection fed selected) {nodeId : String} (hm : nodeId ∈ selected) :
    let items := (resultAt fed request.conditions (parsedAt filters selected w request) nodeId).items
    (∀ item ∈ items, item.nodeId = nodeId ∧ isNodeCursor item.record.cursor = true) ∧
      items.Pairwise fun a b => (compareItems a b).isLE = true := by
  obtain ⟨node, hn, rfl⟩ := hs.known nodeId hm
  obtain ⟨before, rest, hplc, -⟩ := hi.places node hn hm
  obtain ⟨hite, -⟩ := hi.result hin hn hm hplc
  simp only [hite, available]
  split
  · rename_i hans
    have hp := hin node hn hm hans
    rw [hplc.page] at hp
    refine ⟨fun item hit => ?_, hp.1⟩
    obtain ⟨record, hr, rfl⟩ := mem_map.mp hit
    exact ⟨rfl, hp.2 record hr⟩
  · exact ⟨fun item hit => (by cases hit), List.Pairwise.nil⟩

theorem pageAt_items : (pageAt fed filters selected w request).items =
    (sortBy compareItems (selected.flatMap fun nodeId =>
      (resultAt fed request.conditions (parsedAt filters selected w request) nodeId).items)).take request.limit.value := by
  simp only [pageAt, mergePages, List.flatMap_map]
  rfl

theorem Inv.item_of_page (hi : Inv fed filters selected w) (hin : InOrder fed filters selected w request)
    (hs : Selection fed selected) {item : SessionPageItem} (h : item ∈ (pageAt fed filters selected w request).items) :
    item.nodeId ∈ selected ∧ isNodeCursor item.record.cursor = true := by
  rw [pageAt_items] at h
  obtain ⟨nodeId, hm, hit⟩ := List.mem_flatMap.mp ((perm_sortBy compareItems _).mem_iff.mp (List.mem_of_mem_take h))
  obtain ⟨hn, hc⟩ := (hi.items_of_result hin hs hm).1 item hit
  exact ⟨hn ▸ hm, hc⟩

theorem Inv.cut (hi : Inv fed filters selected w) (hin : InOrder fed filters selected w request)
    (hs : Selection fed selected) (hn : node ∈ fed.nodes) (hm : node.nodeId ∈ selected)
    (hp : Place node filters (w.component node.nodeId) before rest) :
    ∃ m, (pageAt fed filters selected w request).items.filter (·.nodeId = node.nodeId) =
      (rest.take m).map (SessionPageItem.mk node.nodeId) := by
  obtain ⟨m, hc⟩ := exists_take_of_cut hs.nodup
    (fun nodeId hid item hit => ((hi.items_of_result hin hs hid).1 item hit).1)
    (fun nodeId hid => (hi.items_of_result hin hs hid).2) request.limit.value hm
  obtain ⟨hite, -⟩ := hi.result hin hn hm hp
  rw [pageAt_items, hc, hite, ← List.map_take, available]
  split
  · rw [List.take_take]
    exact ⟨_, rfl⟩
  · exact ⟨0, by simp⟩

variable {component : Option SessionIndexCursor} {c : SessionCompositeCursor} {record : SessionIndexRecord}

theorem component_of_page (hl : (pageAt fed filters selected w request).items.filter (·.nodeId = node.nodeId) =
      before.map (SessionPageItem.mk node.nodeId))
    (hc : (pageAt fed filters selected w request).nextCursor = some c) :
    OrderedMap.get node.nodeId c.n = (before.getLast?.map (·.cursor)).or (w.component node.nodeId) := by
  have hn : c.n = OrderedMap.setAll
      ((pageAt fed filters selected w request).items.map fun item => (item.nodeId, item.record.cursor))
      ((w.cursor.map (·.n)).getD []) := by
    simp only [pageAt, mergePages, Option.ite_none_right_eq_some, Option.some.injEq] at hc
    rw [← hc.2]
    rfl
  have hold : OrderedMap.get node.nodeId ((w.cursor.map (·.n)).getD []) = w.component node.nodeId := by
    unfold Walk.component
    cases w.cursor <;> rfl
  have he : ((pageAt fed filters selected w request).items.map fun item => (item.nodeId, item.record.cursor)).filter
      (·.1 = node.nodeId) = before.map fun record => (node.nodeId, record.cursor) := by
    rw [List.filter_map]
    refine (congrArg _ hl).trans ?_
    rw [List.map_map]
    rfl
  rw [hn, OrderedMap.get_setAll_last, he, hold, List.getLast?_map, Option.map_map]
  rfl

omit [Platform] in
@[simp] theorem items_read (page : SessionPageResponse) : (w.read page).items = w.items ++ page.items := by
  simp [Walk.items, Walk.read]

theorem Inv.known_read (hi : Inv fed filters selected w) (hin : InOrder fed filters selected w request)
    (hs : Selection fed selected) :
    ∀ item ∈ w.items ++ (pageAt fed filters selected w request).items, item.nodeId ∈ selected := fun item hit =>
  (List.mem_append.mp hit).elim (hi.known item) fun h => (hi.item_of_page hin hs h).1

theorem Inv.read (hi : Inv fed filters selected w) (hin : InOrder fed filters selected w request)
    (hs : Selection fed selected)
    (hc : (pageAt fed filters selected w request).nextCursor = some c) :
    Inv fed filters selected (w.read (pageAt fed filters selected w request)) where
  places node hn hm := by
    obtain ⟨before, rest, hp, hsr⟩ := hi.places node hn hm
    obtain ⟨m, hcut⟩ := hi.cut hin hs hn hm hp
    refine ⟨before ++ rest.take m, rest.drop m, ⟨?_, ?_⟩, ?_⟩
    · rw [List.append_assoc, List.take_append_drop]
      exact hp.listing
    · simp only [Walk.component, Walk.read, hc, Option.bind_some]
      rw [component_of_page hcut hc, hp.component, List.getLast?_append, Option.map_or]
    · rw [items_read, List.filter_append, hsr, hcut, map_append]
  known := by
    rw [items_read]
    exact hi.known_read hin hs
  accepted c' hc' := by
    obtain rfl : c = c' := Option.some.inj (hc.symm.trans hc')
    simp only [pageAt, mergePages, Option.ite_none_right_eq_some, Option.some.injEq] at hc
    obtain ⟨-, rfl⟩ := hc
    refine ⟨rfl, rfl, fun entry he => ?_⟩
    rcases OrderedMap.mem_setAll he with he | he
    · obtain ⟨item, hit, rfl⟩ := mem_map.mp he
      exact hi.item_of_page hin hs hit
    · simp only [parsedAt] at he
      cases hcur : w.cursor with
      | none => rw [hcur] at he; cases he
      | some old =>
        rw [hcur] at he
        exact (hi.accepted old hcur).2.2 entry he

theorem exhausted (hn : (pageAt fed filters selected w request).nextCursor = none) {nodeId : String}
    (hm : nodeId ∈ selected) :
    let result := resultAt fed request.conditions (parsedAt filters selected w request) nodeId
    result.status.state = .healthy ∧ result.hasMore = false ∧
      ∀ item ∈ result.items, itemKey item ∈ (pageAt fed filters selected w request).items.map itemKey := by
  have hres := mem_map_of_mem (f := resultAt fed request.conditions (parsedAt filters selected w request)) hm
  have hr : ∀ (results : List NodePageResult) (parsed : ParsedSessionQuery),
      (mergePages parsed results).nextCursor = none → ∀ result ∈ results, result.status.state = .healthy ∧
        result.hasMore = false ∧ ∀ item ∈ result.items, itemKey item ∈ (mergePages parsed results).items.map itemKey := by
    intro results parsed h result hm
    simp only [mergePages, ite_eq_right_iff, reduceCtorEq, imp_false, Bool.not_eq_true,
      Bool.not_eq_false', all_eq_true, beq_iff_eq, any_eq_false, Bool.or_eq_true, not_or] at h
    obtain ⟨hh, hrs⟩ := h
    obtain ⟨hmr, hit⟩ := hrs result hm
    exact ⟨hh result hm, by simpa using hmr, fun item hi => List.contains_iff_mem.mp (hit item hi)⟩
  exact hr _ _ hn _ hres

omit [Platform] in
theorem itemKey_inj {a b : SessionPageItem} (ha : isNodeId a.nodeId = true) (hb : isNodeId b.nodeId = true)
    (h : itemKey a = itemKey b) : a.nodeId = b.nodeId ∧ a.record.hostSessionId = b.record.hostSessionId := by
  have hnul : ∀ {nodeId : String}, isNodeId nodeId = true → Char.ofNat 0 ∉ nodeId.toList := fun hid hm => by
    simp only [isNodeId, Bool.and_eq_true, all_eq_true] at hid
    exact absurd (hid.1.1.1 _ hm) (by decide)
  have hc := congrArg String.toList h
  have hs : "\x00".toList = [Char.ofNat 0] := by decide
  simp only [itemKey, String.toList_append, List.append_assoc, hs, List.singleton_append] at hc
  obtain ⟨hn, hh⟩ := separator_inj (hnul ha) (hnul hb) hc
  exact ⟨String.toList_inj.mp hn, String.toList_inj.mp hh⟩

omit [Platform] in
theorem Place.mem_rows (hp : Place node filters component before rest)
    (h : record ∈ rest) : record ∈ node.index.rows := by
  have hl : record ∈ select node.index filters.matches := by
    rw [hp.listing]
    exact List.mem_append_right _ h
  exact List.mem_of_mem_filter (perm_select.mem_iff.mp hl)

omit [Platform] in
theorem Place.nodup (hp : Place node filters component before rest) :
    rest.Nodup := by
  have hs : (select node.index filters.matches).Pairwise fun a b => byActivity a b = .lt := strict_select
  rw [hp.listing] at hs
  refine (List.pairwise_append.mp hs).2.1.imp fun {a b} hlt heq => ?_
  rw [heq, show byActivity b b = .eq from Std.ReflCmp.compare_self] at hlt
  cases hlt

theorem Inv.taken (hi : Inv fed filters selected w) (hin : InOrder fed filters selected w request)
    (hsel : Selection fed selected) (hnx : (pageAt fed filters selected w request).nextCursor = none)
    (hnd : node ∈ fed.nodes) (hm : node.nodeId ∈ selected)
    (hplc : Place node filters (w.component node.nodeId) before rest) (hr : record ∈ rest) :
    SessionPageItem.mk node.nodeId record ∈ (pageAt fed filters selected w request).items := by
  obtain ⟨hit, -, hmr⟩ := hi.result hin hnd hm hplc
  obtain ⟨-, hex, he⟩ := exhausted hnx hm
  obtain ⟨hans, hl⟩ := hmr.mp hex
  have hg : SessionPageItem.mk node.nodeId record ∈
      (resultAt fed request.conditions (parsedAt filters selected w request) node.nodeId).items := by
    rw [hit, available, if_pos hans, List.take_of_length_le hl]
    exact mem_map_of_mem hr
  obtain ⟨item, hp, hk⟩ := mem_map.mp (he _ hg)
  obtain ⟨other, hoth, hid⟩ := hsel.known item.nodeId (hi.item_of_page hin hsel hp).1
  have hn : isNodeId item.nodeId = true := by
    rw [← hid]
    exact fed.named other hoth
  obtain ⟨hs, hh⟩ := itemKey_inj (a := item) (b := ⟨node.nodeId, record⟩) hn (fed.named node hnd) hk
  obtain ⟨m, hc⟩ := hi.cut hin hsel hnd hm hplc
  have htk : item ∈ (rest.take m).map (SessionPageItem.mk node.nodeId) := by
    rw [← hc]
    exact List.mem_filter.mpr ⟨hp, decide_eq_true hs⟩
  obtain ⟨taken, hf, rfl⟩ := mem_map.mp htk
  have hrow : taken = record :=
    List.inj_on_of_nodup_map node.index.distinct (hplc.mem_rows (List.mem_of_mem_take hf)) (hplc.mem_rows hr) hh
  rw [← hrow]
  exact hp

theorem Inv.last (hi : Inv fed filters selected w) (hin : InOrder fed filters selected w request)
    (hs : Selection fed selected) (hn : (pageAt fed filters selected w request).nextCursor = none)
    (hnd : node ∈ fed.nodes) (hm : node.nodeId ∈ selected) :
    (w.items ++ (pageAt fed filters selected w request).items).filter (·.nodeId = node.nodeId) =
      (select node.index filters.matches).map (SessionPageItem.mk node.nodeId) := by
  obtain ⟨before, rest, hp, hsr⟩ := hi.places node hnd hm
  obtain ⟨m, hc⟩ := hi.cut hin hs hnd hm hp
  have hall : rest ⊆ rest.take m := fun record hr => by
    have hit : SessionPageItem.mk node.nodeId record ∈ (rest.take m).map (SessionPageItem.mk node.nodeId) := by
      rw [← hc]
      exact List.mem_filter.mpr ⟨hi.taken hin hs hn hnd hm hp hr, decide_eq_true rfl⟩
    obtain ⟨taken, htk, heq⟩ := mem_map.mp hit
    exact (SessionPageItem.mk.inj heq).2 ▸ htk
  have ht : rest.take m = rest := by
    refine (List.take_prefix m rest).eq_of_length (Nat.le_antisymm (List.take_prefix m rest).length_le ?_)
    exact (hp.nodup.subperm hall).length_le
  rw [List.filter_append, hsr, hc, ht, ← map_append, hp.listing]

omit [Platform] in
theorem listing_eq (hn : node ∈ fed.nodes) :
    listing fed filters node.nodeId = (select node.index filters.matches).map (SessionPageItem.mk node.nodeId) := by
  have hf : (directory fed).find node.nodeId = some node := Keyed.find_of_mem (t := directory fed) hn
  simp only [listing, hf, Option.map_some, Option.getD_some]

theorem Inv.subperm (hi : Inv fed filters selected w) (hs : Selection fed selected) :
    w.items.Subperm (matching fed filters selected) := by
  refine (perm_flatMap_filter hs.nodup hi.known).subperm.trans (List.Sublist.subperm (flatMap_sublist fun nodeId hm => ?_))
  obtain ⟨node, hn, rfl⟩ := hs.known nodeId hm
  obtain ⟨before, rest, hp, hsr⟩ := hi.places node hn hm
  rw [hsr, listing_eq hn, hp.listing, map_append]
  exact List.sublist_append_left _ _

theorem Inv.complete (hi : Inv fed filters selected w) (hin : InOrder fed filters selected w request)
    (hs : Selection fed selected) (hn : (pageAt fed filters selected w request).nextCursor = none) :
    (w.items ++ (pageAt fed filters selected w request).items).Perm (matching fed filters selected) := by
  refine (perm_flatMap_filter hs.nodup (hi.known_read hin hs)).trans (List.Perm.of_eq ?_)
  refine List.flatMap_congr fun nodeId hm => ?_
  obtain ⟨node, hnd, rfl⟩ := hs.known nodeId hm
  rw [listing_eq hnd]
  exact hi.last hin hs hn hnd hm

/-- A page every node answered gives a row or is the last. -/
theorem Inv.progress (hi : Inv fed filters selected w) (hin : InOrder fed filters selected w request)
    (hs : Selection fed selected) (hr : reachesAll fed selected request = true)
    (hn : (pageAt fed filters selected w request).nextCursor ≠ none) :
    (pageAt fed filters selected w request).items ≠ [] := by
  intro hnil
  have he : ∀ nodeId ∈ selected,
      (resultAt fed request.conditions (parsedAt filters selected w request) nodeId).items = [] := by
    rw [pageAt_items, List.take_eq_nil_iff] at hnil
    have hc := hnil.resolve_left (by have := request.limit.bounded.1; omega)
    have hp := perm_sortBy compareItems (selected.flatMap fun nodeId =>
      (resultAt fed request.conditions (parsedAt filters selected w request) nodeId).items)
    rw [hc] at hp
    exact List.flatMap_eq_nil_iff.mp hp.symm.eq_nil
  apply hn
  simp only [pageAt, mergePages, ite_eq_right_iff, reduceCtorEq, imp_false, Bool.not_eq_true, Bool.or_eq_false_iff,
    Bool.not_eq_false', all_eq_true, any_eq_false, List.forall_mem_map, beq_iff_eq]
  refine ⟨fun nodeId hm => ?_, fun nodeId hm => ?_⟩
  · obtain ⟨node, hnd, rfl⟩ := hs.known nodeId hm
    obtain ⟨before, rest, hplc, -⟩ := hi.places node hnd hm
    exact (hi.result hin hnd hm hplc).2.1.mpr (all_eq_true.mp hr _ hm)
  · obtain ⟨node, hnd, rfl⟩ := hs.known nodeId hm
    obtain ⟨before, rest, hplc, -⟩ := hi.places node hnd hm
    obtain ⟨hit, -, hmr⟩ := hi.result hin hnd hm hplc
    have hans := all_eq_true.mp hr _ hm
    rw [he _ hm, available, if_pos hans, eq_comm, List.map_eq_nil_iff, List.take_eq_nil_iff] at hit
    have hrs := hit.resolve_left (by have := request.limit.bounded.1; omega)
    rw [hmr.mpr ⟨hans, by simp [hrs]⟩, he _ hm]
    exact ⟨rfl, fun _ h => by cases h⟩

end Steps

end HrcRuntime.SessionWalk
