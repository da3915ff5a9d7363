import HrcRuntime.FederationStore
import HrcRuntime.Text

namespace HrcRuntime.PlacementPolicy

open FederationStore

inductive Thrown where
  /-- `RegistryRefusedError`. -/
  | registryRefused (status : Nat) (code : String)
  /-- `RegistryUnreachableError`. -/
  | registryUnreachable (message : String)
  | error (name message : String)
  /-- Not an `Error`, with the text `String` makes of it. -/
  | other (text : String)
  /-- Not an `Error`, and `String` throws on it. -/
  | unprintable

namespace Thrown

def message? : Thrown → Option String
  | registryRefused _ code => some s!"federation binding registry refused the request ({code})"
  | registryUnreachable message | error _ message => some message
  | other _ | unprintable => none

/-- `error instanceof Error`. -/
def isError (t : Thrown) : Bool := t.message?.isSome

/-- `String(error)`. -/
def string : Thrown → Except Thrown String
  | registryRefused _ code =>
    .ok s!"RegistryRefusedError: federation binding registry refused the request ({code})"
  | registryUnreachable message => .ok s!"RegistryUnreachableError: {message}"
  | error name message => .ok s!"{name}: {message}"
  | other text => .ok text
  | unprintable => .error (.error "TypeError" "Cannot convert object to primitive value")

/-- `error instanceof Error ? error.message : String(error)`. -/
def detail (t : Thrown) : Except Thrown String :=
  match t.message? with
  | some message => .ok message
  | none => t.string

end Thrown

inductive Property where
  | undefined
  | text (value : String)
  | other

/-- What `parseScopeRef` reads of a scope. -/
structure ParsedScopeRef where
  projectId : Option String
  taskId : Option String

/-- The scope grammar of `agent-scope`. -/
class AgentScope where
  /-- What is wrong with a scope, if anything is. -/
  validateScopeRef : String → Option String
  /-- `none` is a throw. -/
  parseScopeRef : String → Option ParsedScopeRef

inductive SummonIntent where
  | explicitLocal | implicit
  deriving DecidableEq

structure Placement where
  participantOnly : Bool := false
  pins : String → Property := fun _ => .undefined
  homes : String → Property := fun _ => .undefined

structure SummonGatePolicy where
  provisioningNode : Option String := none
  placement : Option Placement := none

inductive SummonCapabilityName where
  | projectCheckout | agentHomeSkills | credentials | harness
  deriving DecidableEq

inductive SummonGateRefuseReason where
  | scopeRetired | participantOnly | boundElsewhere | pinMismatch | invalidPin | routedElsewhere
  | undeclaredPlacement | policyUnavailable | registryUnreachable | registryRefused
  | capabilityMissing (capability : SummonCapabilityName)
  | capabilityProjectRootUnresolvable | capabilityObservationFailed
  | placementDirectiveConflict | unknownNode | invalidProvisionValue
  | birthDesignatedElsewhere | designatedHomeUnreachable
  deriving DecidableEq

inductive SummonGateAllowReason where
  | gateDark | nonAgentScope | localAuthority | registryBoundLocal | virginEstablishment
  deriving DecidableEq

structure Allowed where
  reason : SummonGateAllowReason
  homeNodeId : Option NodeId := none
  birthDesignation : Option BirthDesignationEstablishmentDecision := none
  registryBinding : Option PlacementBinding := none
  placementBinding : Option PlacementBinding := none
  deriving DecidableEq

structure Refused where
  reason : SummonGateRefuseReason
  diagnostic : String
  retryable : Bool := false
  homeNodeId : Option NodeId := none
  capability : Option SummonCapabilityName := none
  /-- `capabilitySource`, when present, is the presence heuristic. -/
  presenceHeuristic : Bool := false
  placementBinding : Option PlacementBinding := none
  birthDesignation : Option BirthDesignationRecord := none
  remoteEstablishmentAllowed : Bool := false
  deriving DecidableEq

inductive SummonGateEvaluation where
  | allow (a : Allowed)
  | refuse (r : Refused)
  deriving DecidableEq

inductive Selection where
  | pin | taskDefault | directive | explicitLocal | localDefault | configuredDefault | birthDesignation
  deriving DecidableEq

inductive MatchedConstraint where
  | pin (key : String)
  | taskDefault (key : String)

structure DesignatedHome where
  homeNodeId : NodeId
  selection : Selection
  matchedConstraint : Option MatchedConstraint := none
  designation : Option BirthDesignationRecord := none

/-- `DesignatedHome | SummonGateEvaluation`. -/
inductive Resolved where
  | home (h : DesignatedHome)
  | evaluation (e : SummonGateEvaluation)

def refuse (r : Refused) : Resolved := .evaluation (.refuse r)

/-- `value.toLowerCase()` is a reserved node id. -/
def isReservedNodeId (value : String) : Bool := value.toList.map Char.toLower == "local".toList

def isNodeIdChar (c : Char) : Bool := c.isAlphanum || c == '.' || c == '_' || c == '-'

def isValidNodeId (value : String) : Bool :=
  decide (1 ≤ value.toList.length ∧ value.toList.length ≤ 64) && value.toList.all isNodeIdChar && !isReservedNodeId value

def rosterSlotTokens : List String :=
  ["nova", "comet", "pulsar", "quasar", "meteor", "aurora", "zenith", "eclipse", "orbit", "cosmos"]

/-- `text.slice(0, -suffix.length)` when the text ends with the suffix. -/
def withoutSuffix (text suffix : String) : Option String :=
  if suffix.toList.isSuffixOf text.toList then
    some (String.ofList (text.toList.take (text.toList.length - suffix.toList.length)))
  else none

inductive PinLevel where
  | exact | taskDefault

section Keys

variable [AgentScope]

def placementPinKey (scopeRef : String) (level : PinLevel) : Option String :=
  match AgentScope.parseScopeRef scopeRef with
  | none => none
  | some parsed =>
    match level, parsed.taskId, parsed.projectId with
    | .taskDefault, some taskId, _ => some taskId
    | .exact, some taskId, some projectId => some s!"{projectId}:{taskId}"
    | _, _, _ => none

structure HomeDeclaration where
  key : String
  node : Property
  inherited : Bool

def inheritedHome (homes : String → Property) (taskId : String) : List String → Option HomeDeclaration
  | [] => none
  | suffix :: rest =>
    match withoutSuffix taskId ("-" ++ suffix) with
    | none => inheritedHome homes taskId rest
    | some base =>
      match homes base with
      | .undefined => inheritedHome homes taskId rest
      | node => some { key := base, node, inherited := true }

def placementHomeDeclaration (scopeRef : String) (homes : Option (String → Property)) : Option HomeDeclaration :=
  match homes, placementPinKey scopeRef .taskDefault with
  | some homes, some taskId =>
    match homes taskId with
    | .undefined => inheritedHome homes taskId rosterSlotTokens
    | node => some { key := taskId, node, inherited := false }
  | _, _ => none

def undeclaredPlacementDiagnostic (scopeRef localNodeId : String) : String :=
  "\n".intercalate
    [s!"No placement declared for {scopeRef}, so this node cannot establish it.", "",
      "Add to the agent's agent-profile.toml:", "", "  [provisioning]", s!"  node = \"{localNodeId}\"", "",
      "Or pin this exact scope to a node:", "", "  [placement.pins]",
      "  \"" ++ (placementPinKey scopeRef .exact).getD "<project>:<task>" ++ s!"\" = \"{localNodeId}\""]

end Keys

/-- What a `node=` directive resolves to. -/
inductive Directive where
  | absent
  | node (nodeId : NodeId)
  | refused (r : Refused)

def resolvePlacementDirectiveNode (provision : Property) (knownNodeIds : Option (List NodeId)) : Directive :=
  match provision with
  | .undefined => .absent
  | .other => .refused
      { reason := .invalidProvisionValue
        diagnostic := "The provisioning directive \"node\" must name a node id. Spell it as node=<nodeId>." }
  | .text raw =>
    let nodeId := Text.trim raw
    if nodeId.isEmpty then .refused
      { reason := .invalidProvisionValue
        diagnostic := "The provisioning directive \"node\" must name a node id. Spell it as node=<nodeId>." }
    else if isReservedNodeId nodeId then .refused
      { reason := .invalidProvisionValue
        diagnostic := s!"The provisioning directive node=\"{nodeId}\" is invalid: \"local\" is not a node id — the "
          ++ "sentinel was deleted, and omitting the directive is what means \"here\". Name a real node." }
    else if !isValidNodeId nodeId then .refused
      { reason := .invalidProvisionValue
        diagnostic := s!"The provisioning directive node=\"{nodeId}\" is not a valid node id (allowed: A-Z a-z 0-9 . _ -, "
          ++ "up to 64 characters)." }
    else if knownNodeIds.any (!·.contains nodeId) then .refused
      { reason := .unknownNode
        diagnostic := s!"The provisioning directive node=\"{nodeId}\" names no node this daemon knows. Known nodes: "
          ++ ", ".intercalate (knownNodeIds.getD []) ++ ". Add it to the federation peer registry, or name one of those." }
    else .node nodeId

def directiveConflict (scopeRef kind key nodeId directedNodeId : String) : Refused :=
  { reason := .placementDirectiveConflict
    homeNodeId := some nodeId
    diagnostic := s!"{scopeRef} is declared by {kind} \"{key}\" = \"{nodeId}\", but the request directs node=\"{directedNodeId}\". "
      ++ s!"A directive fills a gap in [placement]; it never moves a declared scope. Summon it on {nodeId}, or change that "
      ++ "declaration." }

/-- A pin or a home that is declared, against the directive. `subject` is how its diagnostic names it, `kind` how a
conflict does. -/
def declared (scopeRef subject kind key : String) (node : Property) (directive : Option NodeId) (selection : Selection)
    (constraint : MatchedConstraint) : Except Thrown Resolved :=
  match node with
  | .text nodeId =>
    if isReservedNodeId nodeId then
      .ok (refuse
        { reason := .invalidPin
          diagnostic := s!"{subject} \"{key}\" = \"{nodeId}\" is invalid: \"local\" is not a node id. Name a real node." })
    else match directive with
      | some directed =>
        if directed ≠ nodeId then .ok (refuse (directiveConflict scopeRef kind key nodeId directed))
        else .ok (.home { homeNodeId := nodeId, selection, matchedConstraint := some constraint })
      | none => .ok (.home { homeNodeId := nodeId, selection, matchedConstraint := some constraint })
  | _ => .error (.error "TypeError" "value.toLowerCase is not a function")

section Home

variable [AgentScope]

def exactPin (scopeRef : String) (policy : Option SummonGatePolicy) : Option (String × Property) :=
  match placementPinKey scopeRef .exact, policy.bind (·.placement) with
  | some key, some placement =>
    match placement.pins key with
    | .undefined => none
    | node => some (key, node)
  | _, _ => none

def unplacedHome (scopeRef : String) (policy : Option SummonGatePolicy) (localNodeId : NodeId) (intent : SummonIntent) :
    Resolved :=
  if intent = .explicitLocal then .home { homeNodeId := localNodeId, selection := .explicitLocal }
  else match policy with
    | none => refuse
        { reason := .undeclaredPlacement, diagnostic := undeclaredPlacementDiagnostic scopeRef localNodeId }
    | some policy =>
      match policy.provisioningNode with
      | none => .home { homeNodeId := localNodeId, selection := .localDefault }
      | some fallback =>
        if isReservedNodeId fallback then refuse
          { reason := .invalidPin
            diagnostic := s!"Provisioning node \"{fallback}\" is invalid: \"local\" is not a node id. Name a real node." }
        else .home { homeNodeId := fallback, selection := .configuredDefault }

def tieredHome (scopeRef : String) (policy : Option SummonGatePolicy) (localNodeId : NodeId) (intent : SummonIntent)
    (directive : Option NodeId) : Except Thrown Resolved :=
  match exactPin scopeRef policy with
  | some (key, node) => declared scopeRef "Placement pin" "pin" key node directive .pin (.pin key)
  | none =>
    match placementHomeDeclaration scopeRef ((policy.bind (·.placement)).map (·.homes)) with
    | some home =>
      declared scopeRef "Placement home [placement.homes]" "placement home" home.key home.node directive .taskDefault
        (.taskDefault home.key)
    | none =>
      match directive with
      | some nodeId => .ok (.home { homeNodeId := nodeId, selection := .directive })
      | none => .ok (unplacedHome scopeRef policy localNodeId intent)

def resolveDesignatedHome (scopeRef : String) (policy : Option SummonGatePolicy) (localNodeId : NodeId)
    (intent : SummonIntent) (provision : Property) (knownNodeIds : Option (List NodeId)) : Except Thrown Resolved :=
  match resolvePlacementDirectiveNode provision knownNodeIds with
  | .refused r => .ok (refuse r)
  | .absent => tieredHome scopeRef policy localNodeId intent none
  | .node nodeId => tieredHome scopeRef policy localNodeId intent (some nodeId)

end Home

def designationDecisionFor (home : DesignatedHome) : Option BirthDesignationEstablishmentDecision :=
  match home.selection with
  | .pin => some (.supersede .pin)
  | .taskDefault => some (.supersede .taskDefault)
  | .directive | .configuredDefault => some (.supersede .defaultHomeNode)
  | .explicitLocal => some (.supersede .explicitLocal)
  | .birthDesignation => some .enforceDesignatedHome
  | .localDefault => none

def permitsRemoteEstablishment (home : DesignatedHome) : Bool :=
  match home.selection with
  | .pin | .taskDefault | .directive | .configuredDefault => true
  | _ => false

end HrcRuntime.PlacementPolicy
