import HrcRuntime.Json
import HrcRuntime.OrderedMap
import HrcRuntime.SessionIndex

namespace HrcRuntime.SessionPage

open Json SessionIndex KeysetPaging

/-- What the pages rest on outside the repository: a digest and a locale's total order of strings. -/
class Platform where
  sha256 : String → String
  localeCompare : String → String → Ordering
  ordered : Std.TransCmp localeCompare
  lawful : Std.LawfulEqCmp localeCompare

structure BadRequest where
  message : String
  field : String
  deriving DecidableEq

def maxPageLimit : Nat := 200

def cursorVersion : Nat := 5

structure SessionCompositeCursor where
  v : Nat
  f : String
  n : List (String × SessionIndexCursor)

/-- The `nodes` parameter; `listed` holds the trimmed names between its commas. -/
inductive NodeSelection where
  | all | localOnly
  | listed (names : List String)

structure Query where
  filters : SessionIndexFilters := {}
  nodes : NodeSelection := .all
  limit : Nat
  cursor : Option SessionCompositeCursor := none

structure ParsedSessionQuery where
  filters : SessionIndexFilters
  selectedNodeIds : List String
  limit : Nat
  cursor : Option SessionCompositeCursor
  fingerprint : String

/-- A row as a page lists it, `{ nodeId, ...item }`. -/
structure SessionPageItem where
  nodeId : String
  record : SessionIndexRecord
  deriving DecidableEq

inductive SessionPeerState where
  | healthy | invalidResponse | refused | unreachable
  deriving DecidableEq

structure SessionPeerStatus where
  state : SessionPeerState
  checkedAt : String
  detail : Option String := none

structure PeerFailure where
  state : SessionPeerState
  detail : String
  failed : state ≠ .healthy

structure NodePageResult where
  nodeId : String
  items : List SessionPageItem
  hasMore : Bool
  eventHighWater : Option Nat
  status : SessionPeerStatus

structure SessionPageResponse where
  items : List SessionPageItem
  nextCursor : Option SessionCompositeCursor
  eventHighWater : List (String × Nat)
  complete : Bool
  peerStatus : List (String × SessionPeerStatus)

def objectMembers : List String :=
  ["__proto__", "constructor", "hasOwn", "isPrototypeOf", "propertyIsEnumerable", "toLocaleString", "toString",
    "valueOf", "__defineGetter__", "__defineSetter__", "__lookupGetter__", "__lookupSetter__"]

/-- `NODE_ID_PATTERN`. -/
def isNodeId (value : String) : Bool :=
  value.toList.all (fun c => c.isAlphanum || c == '.' || c == '_' || c == '-') &&
  1 ≤ value.length && value.length ≤ 64 && !objectMembers.contains value

structure Node where
  nodeId : String
  index : Index

structure Federation where
  home : Node
  peers : List Node
  distinct : ((home :: peers).map (·.nodeId)).Nodup
  named : ∀ node ∈ home :: peers, isNodeId node.nodeId = true

structure Conditions where
  checkedAt : String
  maxHrcSeq : String → Nat
  failure : String → Option PeerFailure

namespace Federation

def nodes (fed : Federation) : List Node := fed.home :: fed.peers

def knownNodeIds (fed : Federation) : List String := sortBy compare (fed.nodes.map (·.nodeId))

end Federation

def parseLimit (limit : Nat) : Except BadRequest Nat :=
  if 1 ≤ limit ∧ limit ≤ maxPageLimit then .ok limit
  else .error ⟨"limit must be an integer between 1 and 200", "limit"⟩

def parseSelectedNodes (selection : NodeSelection) (localNodeId : String) (known : List String) :
    Except BadRequest (List String) :=
  match selection with
  | .all => .ok known
  | .localOnly => .ok [localNodeId]
  | .listed names =>
    let selected := names.eraseDups
    if selected = [] ∨ "" ∈ selected then
      .error ⟨"nodes must be all, local, or a comma-separated exact nodeId list", "nodes"⟩
    else if selected.any (!known.contains ·) then .error ⟨"nodes contains an unknown nodeId", "nodes"⟩
    else .ok (sortBy compare selected)

def effectiveStatusText : SessionIndexEffectiveStatus → String
  | .active => "active"
  | .detached => "detached"
  | .inactive => "inactive"
  | .stale => "stale"

def executionModeText : SessionIndexExecutionMode → String
  | .headless => "headless"
  | .interactive => "interactive"
  | .nonInteractive => "nonInteractive"

section Pages

variable [Platform]

instance : Std.TransCmp Platform.localeCompare := Platform.ordered

instance : Std.LawfulEqCmp Platform.localeCompare := Platform.lawful

def filterFingerprint (filters : SessionIndexFilters) (selectedNodeIds : List String) : String :=
  Platform.sha256 <| (Json.object
    [("q", some (Json.ofOption filters.q)), ("agentId", some (Json.ofOption filters.agentId)),
      ("projectId", some (Json.ofOption filters.projectId)), ("laneRef", some (Json.ofOption filters.laneRef)),
      ("effectiveStatus", some (Json.ofOption (filters.effectiveStatus.map effectiveStatusText))),
      ("executionMode", some (Json.ofOption (filters.executionMode.map executionModeText))),
      ("nodes", some (Json.array ((sortBy compare selectedNodeIds).map Json.ofString)))]).stringify

def isNodeCursor (value : SessionIndexCursor) : Bool := value.lastActivityAt != "" && value.hostSessionId != ""

def decodeCursor (cursor : SessionCompositeCursor) (fingerprint : String) (selectedNodeIds : List String) :
    Except BadRequest SessionCompositeCursor :=
  if cursor.v ≠ cursorVersion then .error ⟨"cursor is malformed", "cursor"⟩
  else if cursor.f ≠ fingerprint then .error ⟨"cursor does not match the active filters", "cursor"⟩
  else if cursor.n.any fun entry => !selectedNodeIds.contains entry.1 || !isNodeCursor entry.2 then
    .error ⟨"cursor contains invalid node components", "cursor"⟩
  else .ok cursor

def parseSessionQuery (localNodeId : String) (knownNodeIds : List String) (query : Query) :
    Except BadRequest ParsedSessionQuery := do
  let selectedNodeIds ← parseSelectedNodes query.nodes localNodeId knownNodeIds
  let fingerprint := filterFingerprint query.filters selectedNodeIds
  let limit ← parseLimit query.limit
  let cursor ← match query.cursor with
    | none => .ok none
    | some raw => some <$> decodeCursor raw fingerprint selectedNodeIds
  return { filters := query.filters, selectedNodeIds, limit, cursor, fingerprint }

def compareItems (lhs rhs : SessionPageItem) : Ordering :=
  (Platform.localeCompare rhs.record.lastActivityAt lhs.record.lastActivityAt).then
    ((Platform.localeCompare lhs.nodeId rhs.nodeId).then
      (Platform.localeCompare rhs.record.hostSessionId lhs.record.hostSessionId))

def ParsedSessionQuery.component (parsed : ParsedSessionQuery) (nodeId : String) : Option SessionIndexCursor :=
  parsed.cursor.bind fun cursor => OrderedMap.get nodeId cursor.n

def localPage (node : Node) (conditions : Conditions) (parsed : ParsedSessionQuery) : NodePageResult :=
  let page := listPage node.index parsed.filters (parsed.component node.nodeId) parsed.limit
  { nodeId := node.nodeId
    items := page.items.map fun record => { nodeId := node.nodeId, record }
    hasMore := page.hasMore
    eventHighWater := some (conditions.maxHrcSeq node.nodeId)
    status := { state := .healthy, checkedAt := conditions.checkedAt } }

def itemKey (item : SessionPageItem) : String := item.nodeId ++ "\x00" ++ item.record.hostSessionId

def mergePages (parsed : ParsedSessionQuery) (results : List NodePageResult) : SessionPageResponse :=
  let emitted := (sortBy compareItems (results.flatMap (·.items))).take parsed.limit
  let components := OrderedMap.setAll (emitted.map fun item => (item.nodeId, item.record.cursor))
    ((parsed.cursor.map (·.n)).getD [])
  let emittedKeys := emitted.map itemKey
  let complete := results.all (·.status.state == .healthy)
  let remaining := !complete || results.any fun result =>
    result.hasMore || result.items.any fun item => !emittedKeys.contains (itemKey item)
  { items := emitted
    nextCursor := if remaining then some { v := cursorVersion, f := parsed.fingerprint, n := components } else none
    eventHighWater := results.flatMap fun result =>
      if result.status.state = .healthy then (result.eventHighWater.map (result.nodeId, ·)).toList else []
    complete
    peerStatus := results.map fun result => (result.nodeId, result.status) }

def respond (localNodeId : String) (knownNodeIds : List String)
    (nodePage : ParsedSessionQuery → String → Except BadRequest NodePageResult) (query : Query) :
    Except BadRequest SessionPageResponse := do
  let parsed ← parseSessionQuery localNodeId knownNodeIds query
  let results ← parsed.selectedNodeIds.mapM (nodePage parsed)
  return mergePages parsed results

/-- What a peer answers to `nodes=local`: a page of its own rows. -/
def answerPeer (peer : Node) (conditions : Conditions) : Query → Except BadRequest SessionPageResponse :=
  respond peer.nodeId [] fun parsed _ => .ok (localPage peer conditions parsed)

def fetchPeerJson (peer : Node) (conditions : Conditions) (query : Query) :
    Except PeerFailure SessionPageResponse :=
  match conditions.failure peer.nodeId with
  | some failure => .error failure
  | none =>
    match answerPeer peer conditions query with
    | .ok body => .ok body
    | .error _ => .error ⟨.refused, "peer refused request (HTTP 400)", by decide⟩

def isPageResponse (value : SessionPageResponse) (expectedNodeId : String) : Bool :=
  (OrderedMap.get expectedNodeId value.eventHighWater).isSome && value.items.all (·.nodeId == expectedNodeId)

def peerFailure (nodeId : String) (failure : PeerFailure) (checkedAt : String) : NodePageResult where
  nodeId := nodeId
  items := []
  hasMore := true
  eventHighWater := none
  status := { state := failure.state, checkedAt, detail := some failure.detail }

def peerQuery (peer : Node) (parsed : ParsedSessionQuery) : Query where
  filters := parsed.filters
  nodes := .localOnly
  limit := parsed.limit
  cursor := (parsed.component peer.nodeId).map fun component =>
    { v := cursorVersion, f := filterFingerprint parsed.filters [peer.nodeId], n := [(peer.nodeId, component)] }

def peerPage (peer : Node) (conditions : Conditions) (parsed : ParsedSessionQuery) : NodePageResult :=
  match fetchPeerJson peer conditions (peerQuery peer parsed) with
  | .ok body =>
    if isPageResponse body peer.nodeId then
      { nodeId := peer.nodeId
        items := body.items
        hasMore := body.nextCursor.isSome
        eventHighWater := OrderedMap.get peer.nodeId body.eventHighWater
        status := { state := .healthy, checkedAt := conditions.checkedAt } }
    else peerFailure peer.nodeId ⟨.invalidResponse, "peer returned a malformed session page", by decide⟩ conditions.checkedAt
  | .error failure => peerFailure peer.nodeId failure conditions.checkedAt

def nodePage (fed : Federation) (conditions : Conditions) (parsed : ParsedSessionQuery) (nodeId : String) :
    Except BadRequest NodePageResult :=
  if nodeId = fed.home.nodeId then .ok (localPage fed.home conditions parsed)
  else
    match fed.peers.find? (·.nodeId == nodeId) with
    | some peer => .ok (peerPage peer conditions parsed)
    | none => .error ⟨"nodes contains an unknown nodeId", "nodeId"⟩

def handleSessionPage (fed : Federation) (conditions : Conditions) : Query → Except BadRequest SessionPageResponse :=
  respond fed.home.nodeId fed.knownNodeIds (nodePage fed conditions)

end Pages

end HrcRuntime.SessionPage
