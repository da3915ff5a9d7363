import HrcRuntime.PlacementPolicy

namespace HrcRuntime.SummonGate

open FederationStore PlacementPolicy

inductive SummonGateMode where
  | off | advisory | enforce
  deriving DecidableEq

inductive Consulted where
  | bound (binding : PlacementBinding)
  | unbound

inductive BirthDesignationResult where
  | designated (designation : BirthDesignationRecord)
  | none

structure BindingRegistryClient where
  consult : ScopeRef → Except Thrown Consulted
  designateBirth : Option (ScopeRef → Except Thrown BirthDesignationResult)

inductive SummonCapabilityObservation where
  | capable
  | incapable (capability : SummonCapabilityName) (diagnostic : String) (projectRootUnresolvable retryable : Bool)

/-- The ledger the gate reads; `get` is missing for some direct consumers. -/
structure Ledger where
  get : Option (ScopeRef → Except Thrown (Option PlacementLedgerRecord))
  activeAuthority : ScopeRef → Except Thrown (Option PlacementLedgerRecord)

structure SummonGateDeps where
  mode : SummonGateMode
  federationConfigured : Bool
  localNodeId : NodeId
  ledger : Ledger
  registry : BindingRegistryClient
  policyFor : ScopeRef → Except Thrown (Option SummonGatePolicy)
  capabilityFor : Option (String → Except Thrown SummonCapabilityObservation)
  knownNodeIds : Option (List NodeId)

inductive Origin where
  | here | federatedIngress | federatedEstablish | startupRepair
  deriving DecidableEq

structure SummonGateRequest where
  scopeRef : String
  intent : SummonIntent
  participantClaim : Bool := false
  origin : Option Origin := none
  provision : Property := .undefined

inductive PlacementDisposition where
  | localBound (binding : PlacementBinding) (fromRegistry : Bool)
  | localEstablish (homeNodeId : NodeId) (birthDesignation : Option BirthDesignationEstablishmentDecision)
  | remoteBound (binding : PlacementBinding)
  | remoteEstablish (candidateHomeNodeId : NodeId) (reason : SummonGateRefuseReason)
  | refuse (reason : SummonGateRefuseReason) (retryable : Bool) (diagnostic : String) (homeNodeId : Option NodeId)

structure SummonGateResult where
  evaluation : SummonGateEvaluation
  placement : Option PlacementDisposition := none
  enforced : Bool
  mode : SummonGateMode

section Gate

variable [AgentScope]

/-- `formatCanonicalScopeRef({ scopeRef })`; `none` is a throw. -/
def formatCanonicalScopeRef (scopeRef : String) : Option ScopeRef :=
  let normalized := Text.trim scopeRef
  if normalized.isEmpty || (AgentScope.validateScopeRef normalized).isSome then none else some normalized

variable (deps : SummonGateDeps) (request : SummonGateRequest)

omit [AgentScope] in
def requireMaterializationCapability (authority : Allowed) : Except Thrown SummonGateEvaluation :=
  match deps.capabilityFor with
  | none => .ok (.allow authority)
  | some observer =>
    match observer request.scopeRef with
    | .error thrown =>
      thrown.detail.map fun detail => .refuse
        { reason := .capabilityObservationFailed
          retryable := true
          homeNodeId := authority.homeNodeId
          diagnostic := s!"Could not observe materialization capability for {request.scopeRef}: {detail}. Refusing rather "
            ++ "than silently rerouting or assuming this node is capable." }
    | .ok .capable => .ok (.allow authority)
    | .ok (.incapable capability diagnostic projectRootUnresolvable retryable) =>
      .ok (.refuse
        { reason := if projectRootUnresolvable then .capabilityProjectRootUnresolvable else .capabilityMissing capability
          diagnostic
          retryable
          homeNodeId := authority.homeNodeId
          capability := some capability
          presenceHeuristic := true })

def isRefused : Thrown → Bool
  | .registryRefused .. => true
  | _ => false

def applyBirthDesignation (scopeRef : ScopeRef) (designated : DesignatedHome) : Except Thrown Resolved :=
  if designated.selection ≠ .localDefault then .ok (.home designated)
  else if request.intent ≠ .implicit ∨ request.origin = some .federatedEstablish then .ok (.home designated)
  else match deps.registry.designateBirth with
    | none => .ok (.home designated)
    | some designateBirth =>
      match designateBirth scopeRef with
      | .error thrown =>
        thrown.detail.map fun detail =>
          refuse
            { reason := if isRefused thrown then .registryRefused else .registryUnreachable
              retryable := !isRefused thrown
              diagnostic := s!"Cannot designate a birth node for {scopeRef}: {detail}. Refusing to birth it locally, because "
                ++ "a local fallback on every node is the simultaneous birth this designation exists to prevent." }
      | .ok .none => .ok (.home designated)
      | .ok (.designated designation) =>
        if deps.knownNodeIds.any (!·.contains designation.homeNodeId) then .ok (refuse
          { reason := .designatedHomeUnreachable
            retryable := true
            homeNodeId := some designation.homeNodeId
            birthDesignation := some designation
            diagnostic := s!"{scopeRef} is designated to {designation.homeNodeId} (from the home of "
              ++ s!"{designation.senderScopeRef}, birth envelope {designation.birthEnvelopeId}), which is not a peer this "
              ++ "node knows. Nothing here can birth it. Add that peer, or start the scope explicitly on a node that can "
              ++ "reach it — an explicit start supersedes the designation." })
        else .ok (.home
          { homeNodeId := designation.homeNodeId, selection := .birthDesignation, designation := some designation })

def selectionText : Selection → String
  | .pin => "pin"
  | .taskDefault => "task-default"
  | .directive => "directive"
  | .explicitLocal => "explicit-local"
  | .localDefault => "local-default"
  | .configuredDefault => "configured-default"
  | .birthDesignation => "birth-designation"

def refuseElsewhere (scopeRef : ScopeRef) (designated : DesignatedHome) : Refused :=
  match designated.designation, designated.matchedConstraint with
  | some designation, _ =>
    { reason := .birthDesignatedElsewhere
      homeNodeId := some designation.homeNodeId
      birthDesignation := some designation
      diagnostic := s!"{scopeRef} is designated to be born on {designation.homeNodeId}, following the home of "
        ++ s!"{designation.senderScopeRef}, which sent its birth envelope {designation.birthEnvelopeId}. This node is "
        ++ s!"{deps.localNodeId} and takes no part in the birth; {designation.homeNodeId} births it from the same ledger "
        ++ "insert. An explicit start, a pin, or a +node= dispatch supersedes the designation." }
  | none, some (.taskDefault taskKey) =>
    { reason := .pinMismatch
      homeNodeId := some designated.homeNodeId
      remoteEstablishmentAllowed := true
      diagnostic := s!"{scopeRef} matches placement home [placement.homes] \"{taskKey}\" = \"{designated.homeNodeId}\"; it "
        ++ s!"establishes and summons only there. This node is {deps.localNodeId}. Summon it on {designated.homeNodeId}, or "
        ++ "change that home line." }
  | none, some (.pin _) =>
    { reason := .pinMismatch
      homeNodeId := some designated.homeNodeId
      remoteEstablishmentAllowed := true
      diagnostic := s!"{scopeRef} is pinned to {designated.homeNodeId}; it establishes and summons only there. This node is "
        ++ s!"{deps.localNodeId}. Summon it on {designated.homeNodeId}, or change the pin." }
  | none, none =>
    { reason := .routedElsewhere
      homeNodeId := some designated.homeNodeId
      remoteEstablishmentAllowed := permitsRemoteEstablishment designated
      diagnostic := s!"{scopeRef} routes to {designated.homeNodeId} by provisioning.node; this node is {deps.localNodeId}. "
        ++ s!"Summon it on {designated.homeNodeId}." }

def decideVirginPolicyPlacement (scopeRef : ScopeRef) (designated : DesignatedHome) :
    Except Thrown SummonGateEvaluation :=
  -- `nodeLocalRemoteEstablishRefusal`
  if request.origin = some .federatedEstablish ∧ !permitsRemoteEstablishment designated then
    .ok (.refuse
      { reason := .routedElsewhere
        homeNodeId := some deps.localNodeId
        diagnostic := s!"{scopeRef} has no concrete named-node policy granting remote establishment authority; "
          ++ selectionText designated.selection ++ " is node-local only." })
  else if designated.homeNodeId = deps.localNodeId then
    requireMaterializationCapability deps request
      { reason := .virginEstablishment
        homeNodeId := some designated.homeNodeId
        birthDesignation := designationDecisionFor designated }
  else .ok (.refuse (refuseElsewhere deps scopeRef designated))

def decideVirgin (scopeRef : ScopeRef) (policy : Option SummonGatePolicy) : Except Thrown SummonGateEvaluation :=
  if !request.participantClaim && (policy.bind (·.placement)).any (·.participantOnly) then
    .ok (.refuse
      { reason := .participantOnly
        diagnostic := s!"{scopeRef} is participant-only, no seat registered. Register its direct participant before sending "
          ++ "mail to this scope." })
  else match resolveDesignatedHome scopeRef policy deps.localNodeId request.intent request.provision deps.knownNodeIds with
    | .error thrown => .error thrown
    | .ok (.evaluation e) => .ok e
    | .ok (.home home) =>
      match applyBirthDesignation deps request scopeRef home with
      | .error thrown => .error thrown
      | .ok (.evaluation e) => .ok e
      | .ok (.home designated) => decideVirginPolicyPlacement deps request scopeRef designated

def refusedConsult (scopeRef : ScopeRef) (thrown : Thrown) : Except Thrown SummonGateEvaluation :=
  let unreachable (detail : String) : SummonGateEvaluation := .refuse
    { reason := .registryUnreachable
      retryable := true
      diagnostic := s!"Cannot reach the binding registry to establish {scopeRef} ({detail}). Refusing rather than risking a "
        ++ "second authority for this scope; retry once the registry node is reachable." }
  match thrown with
  | .registryRefused status code => .ok (.refuse
      { reason := .registryRefused
        diagnostic := s!"The binding registry refused this node's consult for {scopeRef} ({status} {code}). This is a "
          ++ "configuration defect, not a transient failure — retrying will not help. Check this node's peer entry and bearer "
          ++ "token in federation.json." })
  | .registryUnreachable message => .ok (unreachable message)
  | thrown => thrown.string.map unreachable

def decideConsulted (scopeRef : ScopeRef) : Except Thrown SummonGateEvaluation :=
  match deps.registry.consult scopeRef with
  | .error thrown => refusedConsult scopeRef thrown
  | .ok (.bound bound) =>
    if bound.homeNodeId = deps.localNodeId then
      requireMaterializationCapability deps request
        { reason := .registryBoundLocal, homeNodeId := some bound.homeNodeId, registryBinding := some bound }
    else .ok (.refuse
      { reason := .boundElsewhere
        homeNodeId := some bound.homeNodeId
        placementBinding := some bound
        diagnostic := s!"{scopeRef} is already established on {bound.homeNodeId}. A placement policy edit alone never grants "
          ++ "this node authority." })
  | .ok .unbound =>
    match deps.policyFor scopeRef with
    | .error thrown =>
      thrown.detail.map fun detail => .refuse
        { reason := .policyUnavailable
          retryable := true
          diagnostic := s!"Cannot resolve placement policy for {scopeRef}: {detail}" }
    | .ok policy => decideVirgin deps request scopeRef policy

def decideActive (scopeRef : ScopeRef) (active : PlacementLedgerRecord) : Except Thrown SummonGateEvaluation :=
  if active.homeNodeId = deps.localNodeId then
    requireMaterializationCapability deps request
      { reason := .localAuthority
        homeNodeId := some active.homeNodeId
        placementBinding := some active.toPlacementBinding }
  else .ok (.refuse
    { reason := .boundElsewhere
      homeNodeId := some active.homeNodeId
      placementBinding := some active.toPlacementBinding
      diagnostic := s!"{scopeRef} is homed on {active.homeNodeId}, not this node ({deps.localNodeId}). Summon it there." })

def isRetired (record : PlacementLedgerRecord) : Bool := record.state != .active

omit [AgentScope] in
/-- The active row the gate finds, when the one `get` reads is not retired. -/
def activeRecord (scopeRef : ScopeRef) (localRecord : Option PlacementLedgerRecord) :
    Except Thrown (Option PlacementLedgerRecord) :=
  match deps.ledger.get with
  | none => deps.ledger.activeAuthority scopeRef
  | some _ => .ok (localRecord.filter fun record => !isRetired record)

omit [AgentScope] in
def readRecord (scopeRef : ScopeRef) : Except Thrown (Option PlacementLedgerRecord) :=
  match deps.ledger.get with
  | none => .ok none
  | some get => get scopeRef

def decideScope (scopeRef : ScopeRef) : Except Thrown SummonGateEvaluation :=
  match readRecord deps scopeRef with
  | .error thrown => .error thrown
  | .ok localRecord =>
    if localRecord.any isRetired then .ok (.refuse
      { reason := .scopeRetired
        diagnostic := s!"{scopeRef} is permanently retired on {deps.localNodeId}; establish it fresh on another node after "
          ++ "the shared binding is absent." })
    else match activeRecord deps scopeRef localRecord with
      | .error thrown => .error thrown
      | .ok (some active) => decideActive deps request scopeRef active
      | .ok none => decideConsulted deps request scopeRef

def decide : Except Thrown SummonGateEvaluation :=
  match formatCanonicalScopeRef request.scopeRef with
  | none => .ok (.allow { reason := .nonAgentScope })
  | some scopeRef => decideScope deps request scopeRef

omit [AgentScope] in
def placementDispositionFor (evaluation : SummonGateEvaluation) : Option PlacementDisposition :=
  match evaluation with
  | .refuse r =>
    let routes := r.reason == .pinMismatch || r.reason == .routedElsewhere
    match r.reason == .boundElsewhere, r.placementBinding, r.homeNodeId with
    | true, some binding, _ => some (.remoteBound binding)
    | _, _, some homeNodeId =>
      if request.intent = .implicit ∧ r.remoteEstablishmentAllowed ∧ routes then some (.remoteEstablish homeNodeId r.reason)
      else some (.refuse r.reason r.retryable r.diagnostic r.homeNodeId)
    | _, _, none => some (.refuse r.reason r.retryable r.diagnostic none)
  | .allow a =>
    match a.reason with
    | .localAuthority => a.placementBinding.map fun binding => .localBound binding false
    | .registryBoundLocal => a.registryBinding.map fun binding => .localBound binding true
    | .virginEstablishment => a.homeNodeId.map fun homeNodeId => .localEstablish homeNodeId a.birthDesignation
    | _ => none

def isRefusal : SummonGateEvaluation → Bool
  | .refuse _ => true
  | .allow _ => false

/-- The evaluation the gate answers with: what `decide` throws is a refusal. -/
def caught : Except Thrown SummonGateEvaluation → Except Thrown SummonGateEvaluation
  | .ok evaluation => .ok evaluation
  | .error thrown =>
    thrown.detail.map fun detail => .refuse
      { reason := .policyUnavailable
        retryable := true
        diagnostic := s!"Summon gate evaluation failed for {request.scopeRef}: {detail}" }

def evaluateSummonGate : Except Thrown SummonGateResult :=
  if deps.mode = .off ∨ !deps.federationConfigured then
    .ok { evaluation := .allow { reason := .gateDark }, enforced := false, mode := deps.mode }
  else (caught request (decide deps request)).map fun evaluation =>
    { evaluation
      placement := placementDispositionFor request evaluation
      enforced := deps.mode = .enforce && isRefusal evaluation
      mode := deps.mode }

end Gate

end HrcRuntime.SummonGate
