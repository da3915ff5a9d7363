import HrcRuntime.SummonGate

namespace HrcRuntime.SummonAuthority

open FederationStore PlacementPolicy SummonGate

structure FederationConfig where
  sourceExists : Bool
  mode : SummonGateMode
  nodeId : NodeId
  peers : List NodeId

structure PlacementLedgerRepository where
  rows : PlacementLedger
  failure : Option String := none

namespace PlacementLedgerRepository

def get (ledger : PlacementLedgerRepository) (scopeRef : ScopeRef) : Except Thrown (Option PlacementLedgerRecord) :=
  match ledger.failure with
  | some message => .error (.error "SQLiteError" message)
  | none => .ok (ledger.rows.find scopeRef)

def activeAuthority (ledger : PlacementLedgerRepository) (scopeRef : ScopeRef) :
    Except Thrown (Option PlacementLedgerRecord) :=
  (ledger.get scopeRef).map fun record => record.filter fun record => !isRetired record

end PlacementLedgerRepository

structure SummonGateServerContext where
  config : Option FederationConfig
  ledger : PlacementLedgerRepository
  registry : BindingRegistryClient
  policyFor : ScopeRef → Except Thrown (Option SummonGatePolicy)
  capabilityFor : String → Except Thrown SummonCapabilityObservation

def buildGateDeps (server : SummonGateServerContext) : Option SummonGateDeps :=
  match server.config with
  | none => none
  | some config =>
    if !config.sourceExists || config.mode == .off then none
    else some
      { mode := config.mode
        federationConfigured := true
        localNodeId := config.nodeId
        knownNodeIds := some (config.nodeId :: config.peers)
        ledger := { get := some server.ledger.get, activeAuthority := server.ledger.activeAuthority }
        registry := server.registry
        policyFor := server.policyFor
        capabilityFor := some server.capabilityFor }

section Errors

/-- Whatever it throws is an `Error`. -/
def ThrowsErrors {α : Type} (r : Except Thrown α) : Prop := ∀ thrown, r = .error thrown → thrown.isError = true

theorem throwsErrors_ok {α : Type} (a : α) : ThrowsErrors (.ok a) := fun _ h => by cases h

theorem throwsErrors_error {α : Type} {thrown : Thrown} (h : thrown.isError = true) :
    ThrowsErrors (.error thrown : Except Thrown α) := by
  intro other hoth
  cases hoth
  exact h

theorem string_throws (thrown : Thrown) : ThrowsErrors thrown.string := by
  cases thrown with
  | unprintable => exact throwsErrors_error rfl
  | registryRefused status code => exact throwsErrors_ok _
  | registryUnreachable message => exact throwsErrors_ok _
  | error name message => exact throwsErrors_ok _
  | other text => exact throwsErrors_ok _

theorem detail_throws (thrown : Thrown) : ThrowsErrors thrown.detail := by
  unfold Thrown.detail
  cases thrown.message? with
  | some message => exact throwsErrors_ok _
  | none => exact string_throws thrown

theorem detail_of_error {thrown : Thrown} (h : thrown.isError = true) : ∃ detail, thrown.detail = .ok detail := by
  obtain ⟨message, hm⟩ := Option.isSome_iff_exists.mp h
  refine ⟨message, ?_⟩
  unfold Thrown.detail
  rw [hm]

end Errors

/-- An answer of the gate: it throws nothing but errors, and its allowances satisfy `P`. -/
structure Answers (P : Allowed → Prop) (r : Except Thrown SummonGateEvaluation) : Prop where
  errors : ThrowsErrors r
  allows : ∀ a, r = .ok (.allow a) → P a

/-- A resolved home: it throws nothing but errors, no evaluation allows, and its homes satisfy `P`. -/
structure Resolves (P : DesignatedHome → Prop) (r : Except Thrown Resolved) : Prop where
  errors : ThrowsErrors r
  refuses : ∀ a, r ≠ .ok (.evaluation (.allow a))
  homes : ∀ h, r = .ok (.home h) → P h

section Predicates

variable {P : Allowed → Prop} {Q : DesignatedHome → Prop}

theorem Answers.refuse (r : Refused) : Answers P (.ok (.refuse r)) := ⟨throwsErrors_ok _, (fun _ h => by cases h)⟩

theorem Answers.allow {a : Allowed} (h : P a) : Answers P (.ok (.allow a)) := by
  refine ⟨throwsErrors_ok _, fun other hoth => ?_⟩
  cases hoth
  exact h

theorem Answers.error {thrown : Thrown} (h : thrown.isError = true) : Answers P (.error thrown) :=
  ⟨throwsErrors_error h, (fun _ h => by cases h)⟩

variable {r : Except Thrown String}

theorem Answers.map_refuse (h : ThrowsErrors r) (f : String → Refused) :
    Answers P (r.map fun detail => .refuse (f detail)) := by
  cases r with
  | ok detail => exact .refuse _
  | error thrown => exact .error (h thrown rfl)

theorem Resolves.refuse (r : Refused) : Resolves Q (.ok (PlacementPolicy.refuse r)) :=
  ⟨throwsErrors_ok _, (fun _ h => by cases h), (fun _ h => by cases h)⟩

theorem Resolves.home {h : DesignatedHome} (hQ : Q h) : Resolves Q (.ok (.home h)) := by
  refine ⟨throwsErrors_ok _, (fun _ h => by cases h), fun other hoth => ?_⟩
  cases hoth
  exact hQ

theorem Resolves.error {thrown : Thrown} (h : thrown.isError = true) : Resolves Q (.error thrown) :=
  ⟨throwsErrors_error h, (fun _ h => by cases h), (fun _ h => by cases h)⟩

theorem Resolves.map_refuse (h : ThrowsErrors r) (f : String → Refused) :
    Resolves Q (r.map fun detail => PlacementPolicy.refuse (f detail)) := by
  cases r with
  | ok detail => exact .refuse _
  | error thrown => exact .error (h thrown rfl)

end Predicates

section Homes

variable [AgentScope] (deps : SummonGateDeps) (request : SummonGateRequest) (scopeRef : ScopeRef)
  (policy : Option SummonGatePolicy)

def textOf : Property → Option NodeId
  | .text value => some value
  | _ => none

def pinnedHome : Option NodeId := (exactPin scopeRef policy).bind fun pin => textOf pin.2

def placementHome : Option NodeId :=
  (placementHomeDeclaration scopeRef ((policy.bind (·.placement)).map (·.homes))).bind fun home => textOf home.node

def directedHome : Option NodeId :=
  match resolvePlacementDirectiveNode request.provision deps.knownNodeIds with
  | .node nodeId => some nodeId
  | _ => none

def explicitHome : Option NodeId := if request.intent = .explicitLocal then some deps.localNodeId else none

def provisionedHome : Option NodeId := policy.bind (·.provisioningNode)

def birthHome : Option NodeId :=
  if request.intent = .implicit ∧ request.origin ≠ some .federatedEstablish then
    match deps.registry.designateBirth with
    | none => none
    | some designateBirth =>
      match designateBirth scopeRef with
      | .ok (.designated designation) => some designation.homeNodeId
      | _ => none
  else none

def omittedHome : Option NodeId := policy.map fun _ => deps.localNodeId

def declaredHome : Option NodeId :=
  ((((pinnedHome scopeRef policy).or (placementHome scopeRef policy)).or (directedHome deps request)).or
    (explicitHome deps request)).or (provisionedHome policy)

/-- The home of a virgin scope: its exact pin, else its placement home, else the directive, else this node for an explicit
start, else the provisioning node, else the designated birth, else this node. -/
def resolvedHome : Option NodeId :=
  ((declaredHome deps request scopeRef policy).or (birthHome deps request scopeRef)).or (omittedHome deps policy)

inductive Placed : DesignatedHome → Prop
  | declared {h : DesignatedHome} (hselection : h.selection ≠ .localDefault)
      (hhome : declaredHome deps request scopeRef policy = some h.homeNodeId) : Placed h
  | omitted (hhome : declaredHome deps request scopeRef policy = none) (hpolicy : policy.isSome = true)
      (hintent : request.intent = .implicit) :
      Placed { homeNodeId := deps.localNodeId, selection := .localDefault }

end Homes

section Resolution

variable [AgentScope] {deps : SummonGateDeps} {request : SummonGateRequest} {scopeRef : ScopeRef}
  {policy : Option SummonGatePolicy}

variable {directive : Option NodeId}

omit [AgentScope] in
theorem declared_resolves {Q : DesignatedHome → Prop} {subject kind key : String} {node : Property}
    {selection : Selection} {constraint : MatchedConstraint}
    (h : ∀ nodeId, node = .text nodeId →
      Q { homeNodeId := nodeId, selection, matchedConstraint := some constraint }) :
    Resolves Q (declared scopeRef subject kind key node directive selection constraint) := by
  unfold declared
  split
  · split
    · exact .refuse _
    · split
      · split
        · exact .refuse _
        · exact .home (h _ rfl)
      · exact .home (h _ rfl)
  · exact .error rfl

theorem unplaced_resolves (hp : (pinnedHome scopeRef policy).or (placementHome scopeRef policy) = none)
    (hdir : directedHome deps request = none) :
    Resolves (Placed deps request scopeRef policy)
      (.ok (unplacedHome scopeRef policy deps.localNodeId request.intent)) := by
  have hd : declaredHome deps request scopeRef policy =
      (explicitHome deps request).or (provisionedHome policy) := by
    unfold declaredHome
    rw [hp, hdir]
    rfl
  unfold unplacedHome
  split
  · rename_i hi
    refine .home (.declared (by simp) ?_)
    rw [hd]
    unfold explicitHome
    rw [if_pos hi]
    rfl
  · rename_i hi
    have he : explicitHome deps request = none := if_neg hi
    rw [he, Option.none_or] at hd
    split
    · exact .refuse _
    · split
      · rename_i hn
        have hnn : declaredHome deps request scopeRef _ = none := hd.trans hn
        refine .home (.omitted hnn rfl ?_)
        cases hs : request.intent with
        | explicitLocal => exact absurd hs hi
        | implicit => rfl
      · rename_i fallback hn
        split
        · exact .refuse _
        · exact .home (.declared (by simp) (hd.trans hn))

theorem tiered_resolves (hd : directedHome deps request = directive) :
    Resolves (Placed deps request scopeRef policy)
      (tieredHome scopeRef policy deps.localNodeId request.intent directive) := by
  unfold tieredHome
  split
  · rename_i key node hp
    refine declared_resolves fun nodeId hn => .declared (by simp) ?_
    have hpn : pinnedHome scopeRef policy = some nodeId := by
      unfold pinnedHome
      rw [hp, hn]
      rfl
    unfold declaredHome
    rw [hpn]
    rfl
  · rename_i hp
    have hpn : pinnedHome scopeRef policy = none := by
      unfold pinnedHome
      rw [hp]
      rfl
    split
    · rename_i home hh
      refine declared_resolves fun nodeId hn => .declared (by simp) ?_
      have hpl : placementHome scopeRef policy = some nodeId := by
        unfold placementHome
        rw [hh]
        exact congrArg textOf hn
      unfold declaredHome
      rw [hpn, hpl]
      rfl
    · rename_i hh
      have hpl : placementHome scopeRef policy = none := by
        unfold placementHome
        rw [hh]
        rfl
      split
      · rename_i nodeId
        refine .home (.declared (by simp) ?_)
        unfold declaredHome
        rw [hpn, hpl, hd]
        rfl
      · refine unplaced_resolves ?_ hd
        rw [hpn, hpl]
        rfl

theorem policy_resolves : Resolves (Placed deps request scopeRef policy)
    (resolveDesignatedHome scopeRef policy deps.localNodeId request.intent request.provision deps.knownNodeIds) := by
  unfold resolveDesignatedHome
  cases hd : resolvePlacementDirectiveNode request.provision deps.knownNodeIds with
  | refused r => exact .refuse r
  | absent =>
    apply tiered_resolves
    unfold directedHome
    rw [hd]
  | node nodeId =>
    apply tiered_resolves
    unfold directedHome
    rw [hd]

theorem omitted_home (hh : declaredHome deps request scopeRef policy = none) (hp : policy.isSome = true)
    (hbth : birthHome deps request scopeRef = none) :
    resolvedHome deps request scopeRef policy = some deps.localNodeId := by
  unfold resolvedHome omittedHome
  obtain ⟨p, rfl⟩ := Option.isSome_iff_exists.mp hp
  rw [hh, hbth]
  rfl

theorem birth_resolves {designated : DesignatedHome} (h : Placed deps request scopeRef policy designated) :
    Resolves (fun home => resolvedHome deps request scopeRef policy = some home.homeNodeId)
      (applyBirthDesignation deps request scopeRef designated) := by
  cases h with
  | declared hs hh =>
    unfold applyBirthDesignation
    rw [if_pos hs]
    refine .home ?_
    unfold resolvedHome
    rw [hh]
    rfl
  | omitted hh hp hint =>
    unfold applyBirthDesignation
    rw [if_neg (by simp)]
    split
    · rename_i hn
      refine .home (omitted_home hh hp ?_)
      unfold birthHome
      rw [if_neg]
      rintro ⟨hi, hor⟩
      exact hn.elim (fun h => h hi) hor
    · rename_i hasks
      have has : request.intent = .implicit ∧ request.origin ≠ some .federatedEstablish :=
        ⟨hint, fun h => hasks (.inr h)⟩
      split
      · rename_i hc
        refine .home (omitted_home hh hp ?_)
        unfold birthHome
        rw [if_pos has, hc]
      · rename_i designateBirth hc
        split
        · exact .map_refuse (detail_throws _) _
        · rename_i hr
          refine .home (omitted_home hh hp ?_)
          unfold birthHome
          rw [if_pos has, hc]
          dsimp only
          rw [hr]
        · rename_i designation hr
          split
          · exact .refuse _
          · refine .home ?_
            have hbth : birthHome deps request scopeRef = some designation.homeNodeId := by
              unfold birthHome
              rw [if_pos has, hc]
              dsimp only
              rw [hr]
            unfold resolvedHome
            rw [hh, hbth]
            rfl

end Resolution

section Authority

variable [AgentScope] (deps : SummonGateDeps) (request : SummonGateRequest) (ledger : PlacementLedger)

inductive Authority : SummonGateAllowReason → Prop
  | nonAgent (h : formatCanonicalScopeRef request.scopeRef = none) : Authority .nonAgentScope
  | own {scopeRef : ScopeRef} {record : PlacementLedgerRecord}
      (hscope : formatCanonicalScopeRef request.scopeRef = some scopeRef) (hrow : ledger.find scopeRef = some record)
      (hactive : record.state = .active) (hhome : record.homeNodeId = deps.localNodeId) : Authority .localAuthority
  | registered {scopeRef : ScopeRef} {binding : PlacementBinding}
      (hscope : formatCanonicalScopeRef request.scopeRef = some scopeRef)
      (hrow : ∀ record, ledger.find scopeRef = some record → record.state = .active)
      (hbound : deps.registry.consult scopeRef = .ok (.bound binding))
      (hhome : binding.homeNodeId = deps.localNodeId) : Authority .registryBoundLocal
  | born {scopeRef : ScopeRef} {policy : Option SummonGatePolicy}
      (hscope : formatCanonicalScopeRef request.scopeRef = some scopeRef) (hrow : ledger.find scopeRef = none)
      (hunbound : deps.registry.consult scopeRef = .ok .unbound) (hpolicy : deps.policyFor scopeRef = .ok policy)
      (hhome : resolvedHome deps request scopeRef policy = some deps.localNodeId) : Authority .virginEstablishment

/-- The gate reads the ledger through `get`. -/
structure Reads : Prop where
  get : ∃ get, deps.ledger.get = some get ∧
    ∀ scopeRef, ThrowsErrors (get scopeRef) ∧ ∀ record, get scopeRef = .ok record → record = ledger.find scopeRef

variable {deps request ledger} {scopeRef : ScopeRef} {P : Allowed → Prop}

omit [AgentScope] in
theorem capability_answers {authority : Allowed} (h : P authority) :
    Answers P (requireMaterializationCapability deps request authority) := by
  unfold requireMaterializationCapability
  split
  · exact .allow h
  · split
    · exact .map_refuse (detail_throws _) _
    · exact .allow h
    · exact .refuse _

omit [AgentScope] in
theorem placement_answers {designated : DesignatedHome}
    (h : designated.homeNodeId = deps.localNodeId → ∀ a : Allowed, a.reason = .virginEstablishment → P a) :
    Answers P (decideVirginPolicyPlacement deps request scopeRef designated) := by
  unfold decideVirginPolicyPlacement
  split
  · exact .refuse _
  · split
    · rename_i hh
      exact capability_answers (h hh _ rfl)
    · exact .refuse _

theorem virgin_answers {policy : Option SummonGatePolicy}
    (h : resolvedHome deps request scopeRef policy = some deps.localNodeId →
      ∀ a : Allowed, a.reason = .virginEstablishment → P a) : Answers P (decideVirgin deps request scopeRef policy) := by
  have hrs : Resolves (Placed deps request scopeRef policy) (resolveDesignatedHome scopeRef policy deps.localNodeId
    request.intent request.provision deps.knownNodeIds) := policy_resolves
  unfold decideVirgin
  split
  · exact .refuse _
  · split
    · rename_i thrown hr
      exact .error (hrs.errors _ hr)
    · rename_i e hr
      cases e with
      | allow a => exact absurd hr (hrs.refuses a)
      | refuse r => exact .refuse r
    · rename_i home hr
      have hbth := birth_resolves (hrs.homes _ hr)
      split
      · rename_i thrown happ
        exact .error (hbth.errors _ happ)
      · rename_i e happ
        cases e with
        | allow a => exact absurd happ (hbth.refuses a)
        | refuse r => exact .refuse r
      · rename_i designated happ
        have hh := hbth.homes _ happ
        exact placement_answers fun hl => h (hh.trans (congrArg some hl))

omit [AgentScope] in
theorem refusedConsult_answers (thrown : Thrown) : Answers P (refusedConsult scopeRef thrown) := by
  unfold refusedConsult
  split
  · exact .refuse _
  · exact .refuse _
  · exact .map_refuse (string_throws _) _

theorem consulted_answers (hsc : formatCanonicalScopeRef request.scopeRef = some scopeRef)
    (hrow : ledger.find scopeRef = none) :
    Answers (fun a => Authority deps request ledger a.reason) (decideConsulted deps request scopeRef) := by
  unfold decideConsulted
  split
  · exact refusedConsult_answers _
  · rename_i binding hbd
    split
    · rename_i hh
      refine capability_answers (.registered hsc (fun record hrec => ?_) hbd hh)
      cases hrow.symm.trans hrec
    · exact .refuse _
  · rename_i hu
    split
    · exact .map_refuse (detail_throws _) _
    · rename_i policy hp
      refine virgin_answers fun hh a hr => ?_
      rw [hr]
      exact .born hsc hrow hu hp hh

theorem active_answers {record : PlacementLedgerRecord}
    (hsc : formatCanonicalScopeRef request.scopeRef = some scopeRef) (hr : ledger.find scopeRef = some record)
    (hact : record.state = .active) :
    Answers (fun a => Authority deps request ledger a.reason) (decideActive deps request scopeRef record) := by
  unfold decideActive
  split
  · rename_i hh
    exact capability_answers (.own hsc hr hact hh)
  · exact .refuse _

theorem scope_answers (hr : Reads deps ledger) (hsc : formatCanonicalScopeRef request.scopeRef = some scopeRef) :
    Answers (fun a => Authority deps request ledger a.reason) (decideScope deps request scopeRef) := by
  obtain ⟨get, hg, hrw⟩ := hr
  obtain ⟨he, hfn⟩ := hrw scopeRef
  unfold decideScope readRecord activeRecord
  rw [hg]
  dsimp only
  cases hres : get scopeRef with
  | error thrown => exact .error (he thrown hres)
  | ok record =>
    dsimp only
    have hf := hfn record hres
    split
    · exact .refuse _
    · rename_i hret
      cases record with
      | none => exact consulted_answers hsc hf.symm
      | some record =>
        have hact : record.state = .active := by
          simpa [isRetired] using hret
        have hk : (some record).filter (fun record => !isRetired record) = some record := by
          simp [isRetired, hact]
        rw [hk]
        exact active_answers hsc hf.symm hact

theorem decide_answers (hr : Reads deps ledger) :
    Answers (fun a => Authority deps request ledger a.reason) (SummonGate.decide deps request) := by
  unfold SummonGate.decide
  split
  · rename_i hsc
    exact .allow (.nonAgent hsc)
  · rename_i scopeRef hsc
    exact scope_answers hr hsc

end Authority

theorem built_reads {server : SummonGateServerContext} {deps : SummonGateDeps} (h : buildGateDeps server = some deps) :
    Reads deps server.ledger.rows ∧ deps.mode ≠ .off ∧ deps.federationConfigured = true := by
  unfold buildGateDeps at h
  split at h
  · cases h
  · split at h
    · cases h
    · rename_i config hc hl
      cases h
      refine ⟨⟨⟨_, rfl, fun scopeRef => ?_⟩⟩, ?_, rfl⟩
      · unfold PlacementLedgerRepository.get
        cases server.ledger.failure with
        | none =>
          refine ⟨throwsErrors_ok _, fun record hr => ?_⟩
          exact (Except.ok.inj hr).symm
        | some message => exact ⟨throwsErrors_error rfl, (fun _ hr => by cases hr)⟩
      · intro hoff
        apply hl
        have hm : config.mode = .off := hoff
        rw [hm]
        simp

/-- On a configured node the gate always answers, and an allowance rests on authority: a virgin birth on an absent row, an
unbound scope and this node as its resolved home; another on the node's own active row, a binding of the registry to this
node, or a scope that is no agent's. -/
theorem gate_authority [AgentScope] (server : SummonGateServerContext) (deps : SummonGateDeps) (request : SummonGateRequest)
    (hdeps : buildGateDeps server = some deps) :
    ∃ result, evaluateSummonGate deps request = .ok result ∧
      ∀ a, result.evaluation = .allow a → Authority deps request server.ledger.rows a.reason := by
  obtain ⟨hr, hm, hc⟩ := built_reads hdeps
  have hans : Answers (fun a => Authority deps request server.ledger.rows a.reason) (SummonGate.decide deps request) :=
    decide_answers hr
  unfold evaluateSummonGate
  rw [if_neg (by simp [hm, hc])]
  cases hd : SummonGate.decide deps request with
  | ok evaluation =>
    refine ⟨_, rfl, fun a hal => ?_⟩
    have hal : evaluation = .allow a := hal
    exact hans.allows a (hd.trans (congrArg Except.ok hal))
  | error thrown =>
    obtain ⟨detail, hdet⟩ := detail_of_error (hans.errors thrown hd)
    unfold caught
    dsimp only
    rw [hdet]
    exact ⟨_, rfl, (fun _ hal => by cases hal)⟩

namespace Sample

@[reducible] def agentScope : AgentScope where
  validateScopeRef _ := none
  parseScopeRef _ := some { projectId := none, taskId := none }

def designation : BirthDesignationRecord :=
  { scopeRef := "agent:a", designationEpoch := 1, homeNodeId := "max3", provenance := .sender, birthEnvelopeId := "env"
    senderScopeRef := "agent:b", designatedAt := "now", state := .live }

def server : SummonGateServerContext where
  config := some { sourceExists := true, mode := .enforce, nodeId := "here", peers := ["max3"] }
  ledger := { rows := .empty }
  registry := { consult := fun _ => .ok .unbound, designateBirth := some fun _ => .ok (.designated designation) }
  policyFor _ := .ok (some { provisioningNode := some "here" })
  capabilityFor _ := .ok .capable

def deps : SummonGateDeps where
  mode := .enforce
  federationConfigured := true
  localNodeId := "here"
  knownNodeIds := some ["here", "max3"]
  ledger := { get := some server.ledger.get, activeAuthority := server.ledger.activeAuthority }
  registry := server.registry
  policyFor := server.policyFor
  capabilityFor := some server.capabilityFor

def request : SummonGateRequest := { scopeRef := "agent:a", intent := .implicit }

theorem built : buildGateDeps server = some deps := rfl

end Sample

open Sample in
theorem gate_authority_sample :
    ∃ result, @evaluateSummonGate agentScope deps request = .ok result ∧
      ∀ a, result.evaluation = .allow a → @Authority agentScope deps request server.ledger.rows a.reason :=
  @gate_authority agentScope server deps request built

def birthFirstHome [AgentScope] (deps : SummonGateDeps) (request : SummonGateRequest) (scopeRef : ScopeRef)
    (policy : Option SummonGatePolicy) : Option NodeId :=
  ((((((pinnedHome scopeRef policy).or (placementHome scopeRef policy)).or (directedHome deps request)).or
    (explicitHome deps request)).or (birthHome deps request scopeRef)).or (provisionedHome policy)).or (omittedHome deps policy)

open Sample in
/-- A scope with a provisioning node is born there, whatever birth the registry would designate. -/
theorem provisioned_before_birth :
    ¬ ∀ (_ : AgentScope) (server : SummonGateServerContext) (deps : SummonGateDeps) (request : SummonGateRequest)
        (result : SummonGateResult) (a : Allowed), buildGateDeps server = some deps →
        evaluateSummonGate deps request = .ok result → result.evaluation = .allow a → a.reason = .virginEstablishment →
        ∃ scopeRef policy, formatCanonicalScopeRef request.scopeRef = some scopeRef ∧
          deps.policyFor scopeRef = .ok policy ∧ birthFirstHome deps request scopeRef policy = some deps.localNodeId := by
  intro hclaim
  have hevaluates : ((@evaluateSummonGate agentScope deps request).toOption.map (·.evaluation)) =
      some (.allow { reason := .virginEstablishment, homeNodeId := some "here"
                     birthDesignation := some (.supersede .defaultHomeNode) }) := by decide +kernel
  cases hresult : @evaluateSummonGate agentScope deps request with
  | error thrown => rw [hresult] at hevaluates; cases hevaluates
  | ok result =>
    rw [hresult] at hevaluates
    obtain ⟨scopeRef, policy, -, hpolicy, hhome⟩ :=
      hclaim agentScope server deps request result _ built hresult (Option.some.inj hevaluates) rfl
    cases hpolicy
    have hother : @birthFirstHome agentScope deps request scopeRef (some { provisioningNode := some "here" }) = some "max3" := rfl
    rw [hother] at hhome
    exact absurd hhome (by decide)

end HrcRuntime.SummonAuthority
