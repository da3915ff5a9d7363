import HrcRuntime.Keyed
import HrcRuntime.Records

namespace HrcRuntime.FederationStore

open Records Keyed

/-- A scope as `canonicalScopeRef` returns it. -/
abbrev ScopeRef := String

/-- A node as `requireNodeId` returns it. -/
abbrev NodeId := String

structure PlacementBinding where
  scopeRef : ScopeRef
  homeNodeId : NodeId
  createdAt : String
  updatedAt : String
  deriving DecidableEq

inductive PlacementLedgerState where
  | active
  | retired (retiredAt retirementReason : String)
  deriving DecidableEq

structure PlacementLedgerRecord extends PlacementBinding where
  state : PlacementLedgerState
  deriving DecidableEq

def PlacementLedgerRecord.retiredAt (r : PlacementLedgerRecord) : Option String :=
  match r.state with
  | .active => none
  | .retired retiredAt _ => some retiredAt

structure RetirePlacementInput where
  scopeRef : ScopeRef
  expectedHomeNodeId : NodeId
  reason : String
  retiredAt : String

inductive RetirePlacementResult where
  | notFound
  | conflict (record : PlacementLedgerRecord)
  | idempotent (record : PlacementLedgerRecord)
  | retired (record : PlacementLedgerRecord)

abbrev PlacementLedger := Store PlacementLedgerRecord (·.scopeRef)

namespace PlacementLedger

def activeAuthority (ledger : PlacementLedger) (scopeRef : ScopeRef) : Option PlacementLedgerRecord :=
  (ledger.find scopeRef).filter (·.state == .active)

def isActiveAt (homeNodeId : NodeId) (r : PlacementLedgerRecord) : Bool :=
  r.state == .active && r.homeNodeId == homeNodeId

def retireRow (input : RetirePlacementInput) (r : PlacementLedgerRecord) : PlacementLedgerRecord :=
  { r with state := .retired input.retiredAt input.reason, updatedAt := input.retiredAt }

theorem retireRow_scopeRef (input : RetirePlacementInput) (r : PlacementLedgerRecord) :
    (retireRow input r).scopeRef = r.scopeRef := rfl

def retire (ledger : PlacementLedger) (input : RetirePlacementInput) : RetirePlacementResult × PlacementLedger :=
  match ledger.find input.scopeRef with
  | none => (.notFound, ledger)
  | some current =>
    if current.homeNodeId ≠ input.expectedHomeNodeId then (.conflict current, ledger)
    else if current.state ≠ .active then (.idempotent current, ledger)
    else
      (.retired (retireRow input current),
        ledger.amend input.scopeRef (isActiveAt input.expectedHomeNodeId) (retireRow input)
          (retireRow_scopeRef input))

def installActive (ledger : PlacementLedger) (binding : PlacementBinding) : Except HrcError PlacementLedger :=
  match ledger.find binding.scopeRef with
  | some current =>
    if current.state ≠ .active then
      .error (.error s!"scope {binding.scopeRef} is permanently retired on this node")
    else if current.homeNodeId ≠ binding.homeNodeId then
      .error (.error s!"conflicting placement ledger row for {binding.scopeRef}")
    else .ok ledger
  | none => .ok (ledger.add { binding with state := .active })

end PlacementLedger

inductive BirthDesignationProvenance where
  | sender | senderRetired
  deriving DecidableEq

inductive BirthDesignationSupersededBy where
  | pin | taskDefault | defaultHomeNode | explicitLocal
  deriving DecidableEq

inductive BirthDesignationState where
  | live
  | superseded (supersededBy : BirthDesignationSupersededBy) (supersededAt : String)
  deriving DecidableEq

structure RecordBirthDesignationInput where
  scopeRef : ScopeRef
  homeNodeId : NodeId
  provenance : BirthDesignationProvenance
  birthEnvelopeId : String
  senderScopeRef : ScopeRef
  now : String

structure BirthDesignationRecord where
  scopeRef : ScopeRef
  designationEpoch : Nat
  homeNodeId : NodeId
  provenance : BirthDesignationProvenance
  birthEnvelopeId : String
  senderScopeRef : ScopeRef
  designatedAt : String
  state : BirthDesignationState
  deriving DecidableEq

inductive BirthDesignationEstablishmentDecision where
  | enforceDesignatedHome
  | supersede (supersededBy : BirthDesignationSupersededBy)
  deriving DecidableEq

structure EstablishBindingInput where
  scopeRef : ScopeRef
  homeNodeId : NodeId
  birthDesignation : Option BirthDesignationEstablishmentDecision
  now : String

inductive BindingEstablishResult where
  | created (binding : PlacementBinding)
  | existing (binding : PlacementBinding)
  | designationMismatch (designation : BirthDesignationRecord)
  deriving DecidableEq

structure DeleteBindingInput where
  scopeRef : ScopeRef
  expectedHomeNodeId : NodeId
  retiredAt : String

inductive DeleteBindingResult where
  | deleted | idempotent
  | conflict (binding : PlacementBinding)
  deriving DecidableEq

structure BindingRetirementAudit where
  scopeRef : ScopeRef
  lastHomeNodeId : NodeId
  retiredAt : String

structure BindingRegistry where
  bindings : Store PlacementBinding (·.scopeRef) := .empty
  designations : Store BirthDesignationRecord (fun d => (d.scopeRef, d.designationEpoch)) := .empty
  retirementAudit : Store BindingRetirementAudit (·.scopeRef) := .empty

namespace BindingRegistry

def get (registry : BindingRegistry) (scopeRef : ScopeRef) : Option PlacementBinding := registry.bindings.find scopeRef

def isLive (scopeRef : ScopeRef) (d : BirthDesignationRecord) : Bool := d.scopeRef == scopeRef && d.state == .live

def liveDesignation (registry : BindingRegistry) (scopeRef : ScopeRef) : Option BirthDesignationRecord :=
  registry.designations.rows.find? (isLive scopeRef)

/-- `(MAX(designation_epoch) ?? 0) + 1`. -/
def nextEpoch (registry : BindingRegistry) (scopeRef : ScopeRef) : Nat :=
  ((registry.designations.rows.filter (·.scopeRef == scopeRef)).map (·.designationEpoch)).foldr max 0 + 1

def recordDesignation (registry : BindingRegistry) (input : RecordBirthDesignationInput) :
    BirthDesignationRecord × BindingRegistry :=
  match registry.liveDesignation input.scopeRef with
  | some live => (live, registry)
  | none =>
    let stored : BirthDesignationRecord :=
      { scopeRef := input.scopeRef, designationEpoch := registry.nextEpoch input.scopeRef
        homeNodeId := input.homeNodeId, provenance := input.provenance, birthEnvelopeId := input.birthEnvelopeId
        senderScopeRef := input.senderScopeRef, designatedAt := input.now, state := .live }
    (stored, { registry with designations := registry.designations.add stored })

def supersedeRow (supersededBy : BirthDesignationSupersededBy) (now : String) (d : BirthDesignationRecord) :
    BirthDesignationRecord := { d with state := .superseded supersededBy now }

theorem supersedeRow_key (supersededBy : BirthDesignationSupersededBy) (now : String) (d : BirthDesignationRecord) :
    ((supersedeRow supersededBy now d).scopeRef, (supersedeRow supersededBy now d).designationEpoch) =
      (d.scopeRef, d.designationEpoch) := rfl

def settleDesignation (registry : BindingRegistry) (input : EstablishBindingInput) (designation : BirthDesignationRecord) :
    BindingRegistry :=
  match input.birthDesignation with
  | some (.supersede supersededBy) =>
    { registry with
      designations := registry.designations.amend (input.scopeRef, designation.designationEpoch) (fun _ => true)
        (supersedeRow supersededBy input.now) (supersedeRow_key supersededBy input.now) }
  | _ => registry

def establish (registry : BindingRegistry) (input : EstablishBindingInput) : BindingEstablishResult × BindingRegistry :=
  match registry.get input.scopeRef with
  | some current => (.existing current, registry)
  | none =>
    let binding : PlacementBinding :=
      { scopeRef := input.scopeRef, homeNodeId := input.homeNodeId, createdAt := input.now, updatedAt := input.now }
    match registry.liveDesignation input.scopeRef with
    | none => (.created binding, { registry with bindings := registry.bindings.add binding })
    | some designation =>
      if input.birthDesignation = some .enforceDesignatedHome ∧ input.homeNodeId ≠ designation.homeNodeId then
        (.designationMismatch designation, registry)
      else
        let settled := registry.settleDesignation input designation
        (.created binding, { settled with bindings := settled.bindings.add binding })

/-- `ON CONFLICT(scope_ref) DO UPDATE`. -/
def auditRetirement (registry : BindingRegistry) (input : DeleteBindingInput) : BindingRegistry :=
  { registry with
    retirementAudit := registry.retirementAudit.upsert
      { scopeRef := input.scopeRef, lastHomeNodeId := input.expectedHomeNodeId, retiredAt := input.retiredAt }
      (fun row => { row with lastHomeNodeId := input.expectedHomeNodeId, retiredAt := input.retiredAt }) fun _ => rfl }

def deleteBinding (registry : BindingRegistry) (input : DeleteBindingInput) : DeleteBindingResult × BindingRegistry :=
  match registry.get input.scopeRef with
  | none => (.idempotent, registry)
  | some current =>
    if current.homeNodeId ≠ input.expectedHomeNodeId then (.conflict current, registry)
    else
      let released : BindingRegistry :=
        { registry with
          bindings := registry.bindings.erase fun b =>
            b.scopeRef == input.scopeRef && b.homeNodeId == input.expectedHomeNodeId
          designations := registry.designations.erase (isLive input.scopeRef) }
      (.deleted, released.auditRetirement input)

end BindingRegistry

def BindingEstablishResult.binding : BindingEstablishResult → Option PlacementBinding
  | .created binding | .existing binding => some binding
  | .designationMismatch _ => none

theorem installActive_eq_ok {ledger installed : PlacementLedger} {binding : PlacementBinding}
    (h : ledger.installActive binding = .ok installed) :
    installed = ledger ∨
      ledger.find binding.scopeRef = none ∧ installed = ledger.add { binding with state := .active } := by
  unfold PlacementLedger.installActive at h
  rcases hf : ledger.find binding.scopeRef with _ | current <;> rw [hf] at h <;> dsimp only at h
  · exact .inr ⟨rfl, (Except.ok.inj h).symm⟩
  · split at h
    · cases h
    · split at h
      · cases h
      · exact .inl (Except.ok.inj h).symm

theorem find_retire (ledger : PlacementLedger) (input : RetirePlacementInput) (scopeRef : ScopeRef) :
    (ledger.retire input).2.find scopeRef = ledger.find scopeRef ∨
      ∃ r, ledger.find scopeRef = some r ∧
        (ledger.retire input).2.find scopeRef = some (PlacementLedger.retireRow input r) := by
  unfold PlacementLedger.retire
  rcases hf : ledger.find input.scopeRef with _ | current
  · exact .inl rfl
  · dsimp only
    split_ifs with hh hst
    · exact .inl rfl
    · exact .inl rfl
    · by_cases hsc : scopeRef = input.scopeRef
      · subst hsc
        rw [find_amend_self, hf, Option.map_some]
        split_ifs
        · exact .inr ⟨current, rfl, rfl⟩
        · exact .inl rfl
      · exact .inl (find_amend_of_ne (PlacementLedger.retireRow_scopeRef input) hsc)

theorem retire_retired {ledger retired : PlacementLedger} {input : RetirePlacementInput} {r : PlacementLedgerRecord}
    (h : ledger.retire input = (.retired r, retired) ∨ ledger.retire input = (.idempotent r, retired)) :
    ∃ r, retired.find input.scopeRef = some r ∧ r.state ≠ .active := by
  unfold PlacementLedger.retire at h
  rcases hf : ledger.find input.scopeRef with _ | current <;> rw [hf] at h <;> dsimp only at h
  · simp at h
  · split_ifs at h with hh hst
    · simp at h
    · simp only [Prod.mk.injEq, reduceCtorEq, false_and, false_or] at h
      obtain ⟨-, rfl⟩ := h
      exact ⟨current, hf, hst⟩
    · simp only [Prod.mk.injEq, reduceCtorEq, false_and, or_false] at h
      obtain ⟨-, rfl⟩ := h
      have hact : PlacementLedger.isActiveAt input.expectedHomeNodeId current = true := by
        simp_all [PlacementLedger.isActiveAt]
      exact ⟨PlacementLedger.retireRow input current, by rw [find_amend_self, hf]; simp [hact],
        PlacementLedgerState.noConfusion⟩

section Registry

variable {registry : BindingRegistry} {binding : PlacementBinding} {scopeRef : ScopeRef}

@[simp] theorem get_recordDesignation (registry : BindingRegistry) (input : RecordBirthDesignationInput) :
    (registry.recordDesignation input).2.get scopeRef = registry.get scopeRef := by
  unfold BindingRegistry.recordDesignation
  split <;> rfl

@[simp] theorem bindings_settleDesignation (registry : BindingRegistry) (input : EstablishBindingInput)
    (designation : BirthDesignationRecord) :
    (registry.settleDesignation input designation).bindings = registry.bindings := by
  unfold BindingRegistry.settleDesignation
  split <;> rfl

theorem establish_bindings (registry : BindingRegistry) (input : EstablishBindingInput) :
    (registry.establish input).2.bindings = registry.bindings ∧
        (∀ binding, (registry.establish input).1.binding = some binding → registry.get binding.scopeRef = some binding) ∨
      ∃ binding, registry.get binding.scopeRef = none ∧ binding.homeNodeId = input.homeNodeId ∧
        (registry.establish input).1 = .created binding ∧
          (registry.establish input).2.bindings = registry.bindings.add binding := by
  unfold BindingRegistry.establish
  rcases hg : registry.get input.scopeRef with _ | current
  · dsimp only
    rcases hl : registry.liveDesignation input.scopeRef with _ | designation
    · exact .inr ⟨_, hg, rfl, rfl, rfl⟩
    · dsimp only
      split_ifs
      · exact .inl ⟨rfl, fun _ h => by cases h⟩
      · exact .inr ⟨_, hg, rfl, rfl, by rw [bindings_settleDesignation]⟩
  · refine .inl ⟨rfl, fun binding h => ?_⟩
    obtain rfl := Option.some.inj h
    rwa [(find_mem hg).2]

theorem establish_keeps (h : registry.get scopeRef = some binding) (input : EstablishBindingInput) :
    (registry.establish input).2.get scopeRef = some binding := by
  rcases establish_bindings registry input with ⟨hs, -⟩ | ⟨added, hn, -, -, hadd⟩
  · rw [BindingRegistry.get, hs]
    exact h
  · rw [BindingRegistry.get, hadd, find_add_of_ne, ← h]
    · rfl
    · rintro rfl
      rw [h] at hn
      cases hn

theorem get_establish {input : EstablishBindingInput} (h : (registry.establish input).1.binding = some binding) :
    (registry.establish input).2.get binding.scopeRef = some binding := by
  rcases establish_bindings registry input with ⟨hs, hg⟩ | ⟨added, hn, -, hc, hadd⟩
  · rw [BindingRegistry.get, hs]
    exact hg binding h
  · rw [hc] at h
    obtain rfl := Option.some.inj h
    rw [BindingRegistry.get, hadd]
    exact find_add_self hn

theorem deleteBinding_keeps (h : registry.get scopeRef = some binding) (input : DeleteBindingInput) :
    (registry.deleteBinding input).2.get scopeRef = some binding ∨
      scopeRef = input.scopeRef ∧ binding.homeNodeId = input.expectedHomeNodeId := by
  by_cases he : scopeRef = input.scopeRef ∧ binding.homeNodeId = input.expectedHomeNodeId
  · exact .inr he
  · refine .inl ?_
    unfold BindingRegistry.deleteBinding
    rcases hg : registry.get input.scopeRef with _ | current
    · exact h
    · dsimp only
      split_ifs
      · exact h
      · have hk := (find_mem h).2
        show (registry.bindings.erase _).find scopeRef = some binding
        rw [find_erase]
        unfold BindingRegistry.get at h
        rw [h, Option.filter_some, if_pos]
        simp only [hk, Bool.not_eq_true', Bool.and_eq_false_iff, beq_eq_false_iff_ne]
        tauto

end Registry

end HrcRuntime.FederationStore
