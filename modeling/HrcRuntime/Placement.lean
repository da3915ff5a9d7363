import HrcRuntime.FederationStore
import HrcRuntime.Schedule
import HrcRuntime.Text

namespace HrcRuntime.Placement

open Records FederationStore Keyed Schedule

inductive Request where
  | establish (input : EstablishBindingInput)
  | consult (scopeRef : ScopeRef)
  | deleteBinding (input : DeleteBindingInput)

inductive Reply where
  | established (homeNodeId : NodeId) (result : BindingEstablishResult)
  | consulted (binding : Option PlacementBinding)
  | deleted (result : DeleteBindingResult)

def answer (registry : BindingRegistry) (peer : NodeId) (now : String) : Request → Option Reply × BindingRegistry
  | .establish input =>
    if input.homeNodeId ≠ peer then (none, registry)
    else
      let established := registry.establish { input with now := now }
      (some (.established input.homeNodeId established.1), established.2)
  | .consult scopeRef => (some (.consulted (registry.get scopeRef)), registry)
  | .deleteBinding input =>
    if input.expectedHomeNodeId ≠ peer then (none, registry)
    else
      let deleted := registry.deleteBinding input
      (some (.deleted deleted.1), deleted.2)

inductive EstablishLocalPlacementResult where
  | established (binding : PlacementBinding)
  | alreadyEstablished (binding : PlacementBinding)
  | boundElsewhere (binding : PlacementBinding)
  | designationMismatch (designation : BirthDesignationRecord)

/-- `establishLocalPlacement` once the registry has answered. -/
def establishLocalPlacement (ledger : PlacementLedger) (homeNodeId : NodeId) (registryResult : BindingEstablishResult) :
    Except HrcError (EstablishLocalPlacementResult × PlacementLedger) :=
  match registryResult with
  | .designationMismatch designation => .ok (.designationMismatch designation, ledger)
  | .created binding | .existing binding =>
    if binding.homeNodeId ≠ homeNodeId then .ok (.boundElsewhere binding, ledger)
    else
      let alreadyActive := ledger.activeAuthority binding.scopeRef
      (ledger.installActive binding).map fun installed =>
        (if alreadyActive = none then .established binding else .alreadyEstablished binding, installed)

def adoptConsulted (ledger : PlacementLedger) (localNodeId : NodeId) (consulted : Option PlacementBinding) :
    Except HrcError PlacementLedger :=
  match consulted with
  | none => .ok ledger
  | some binding => if binding.homeNodeId = localNodeId then ledger.installActive binding else .ok ledger

def receive (ledger : PlacementLedger) (localNodeId : NodeId) : Reply → PlacementLedger
  | .established homeNodeId result =>
    match establishLocalPlacement ledger homeNodeId result with
    | .ok (_, installed) => installed
    | .error _ => ledger
  | .consulted binding => (adoptConsulted ledger localNodeId binding).toOption.getD ledger
  | .deleted _ => ledger

structure FederationRetirementRequest where
  scopeRef : ScopeRef
  reason : String

inductive RetirementStop where
  | emptyReason | refused
  | liveRuntimePresent (liveRuntimeIds : List String)
  | conflict | fenceFailed

/-- `retireFederationScope` up to its registry call: the ledger it leaves and the deletion it goes on to ask for. -/
def retireFederationScope (ledger : PlacementLedger) (localNodeId : NodeId) (request : FederationRetirementRequest)
    (liveRuntimeIds : List String) (now : String) (fenced : Bool) :
    PlacementLedger × Except RetirementStop DeleteBindingInput :=
  let reason := Text.trim request.reason
  if reason = "" then (ledger, .error .emptyReason)
  else match ledger.find request.scopeRef with
    | none => (ledger, .error .refused)
    | some before =>
      if before.homeNodeId ≠ localNodeId then (ledger, .error .refused)
      else if before.state = .active ∧ liveRuntimeIds ≠ [] then (ledger, .error (.liveRuntimePresent liveRuntimeIds))
      else
        let retiredAt := before.retiredAt.getD now
        let input : RetirePlacementInput :=
          { scopeRef := request.scopeRef, expectedHomeNodeId := localNodeId, reason := reason, retiredAt := retiredAt }
        match ledger.retire input with
        | (.retired record, retired) | (.idempotent record, retired) =>
          if fenced then
            (retired, .ok { scopeRef := request.scopeRef, expectedHomeNodeId := localNodeId
                            retiredAt := record.retiredAt.getD retiredAt })
          else (retired, .error .fenceFailed)
        | (.conflict _, unchanged) | (.notFound, unchanged) => (unchanged, .error .conflict)

/-- One registry, a ledger at each node, and every message ever sent: a message is taken any number of times, late or
never, so runs with losses, retries and reorderings are among these. -/
structure Collective where
  registry : BindingRegistry := {}
  ledger : NodeId → PlacementLedger := fun _ => .empty
  requests : List (NodeId × Request) := []
  replies : List (NodeId × Reply) := []

inductive Action where
  | establish (node : NodeId) (input : EstablishBindingInput)
  | consult (node : NodeId) (scopeRef : ScopeRef)
  | designate (input : RecordBirthDesignationInput)
  | serve (index : Nat) (now : String)
  | receive (index : Nat)
  | retire (node : NodeId) (request : FederationRetirementRequest) (liveRuntimeIds : List String) (now : String)
      (fenced : Bool)

namespace Collective

def send (c : Collective) (node : NodeId) (request : Request) : Collective :=
  { c with requests := c.requests ++ [(node, request)] }

def setLedger (c : Collective) (node : NodeId) (ledger : PlacementLedger) : Collective :=
  { c with ledger := Function.update c.ledger node ledger }

def serve (c : Collective) (node : NodeId) (request : Request) (now : String) : Collective :=
  let answered := answer c.registry node now request
  { c with registry := answered.2, replies := c.replies ++ answered.1.toList.map (node, ·) }

def retire (c : Collective) (node : NodeId) (request : FederationRetirementRequest) (liveRuntimeIds : List String)
    (now : String) (fenced : Bool) : Collective :=
  let retirement := retireFederationScope (c.ledger node) node request liveRuntimeIds now fenced
  let retired := c.setLedger node retirement.1
  match retirement.2 with
  | .ok deletion => retired.send node (.deleteBinding deletion)
  | .error _ => retired

end Collective

@[grind =]
def step (action : Action) (c : Collective) : Collective :=
  match action with
  | .establish node input => c.send node (.establish input)
  | .consult node scopeRef => c.send node (.consult scopeRef)
  | .designate input => { c with registry := (c.registry.recordDesignation input).2 }
  | .serve index now => (c.requests[index]?.map fun sent => c.serve sent.1 sent.2 now).getD c
  | .receive index =>
    (c.replies[index]?.map fun reply =>
      c.setLedger reply.1 (receive (c.ledger reply.1) reply.1 reply.2)).getD c
  | .retire node request liveRuntimeIds now fenced => c.retire node request liveRuntimeIds now fenced

def Names (registry : BindingRegistry) (node : NodeId) (scopeRef : ScopeRef) : Prop :=
  ∃ binding, registry.get scopeRef = some binding ∧ binding.homeNodeId = node

def Active (ledger : PlacementLedger) (node : NodeId) (scopeRef : ScopeRef) : Prop :=
  ∃ r, ledger.find scopeRef = some r ∧ r.state = .active ∧ r.homeNodeId = node

def Retired (ledger : PlacementLedger) (scopeRef : ScopeRef) : Prop :=
  ∃ r, ledger.find scopeRef = some r ∧ r.state ≠ .active

def Reply.adopts (node : NodeId) : Reply → Option PlacementBinding
  | .established homeNodeId result => result.binding.filter (·.homeNodeId == homeNodeId)
  | .consulted binding => binding.filter (·.homeNodeId == node)
  | .deleted _ => none

def Sound (registry : BindingRegistry) (node : NodeId) (ledger : PlacementLedger) : Prop :=
  ∀ scopeRef r, ledger.find scopeRef = some r → r.homeNodeId = node ∧ (r.state = .active → Names registry node scopeRef)

def Held (c : Collective) (node : NodeId) (scopeRef : ScopeRef) : Prop :=
  Names c.registry node scopeRef ∨ Retired (c.ledger node) scopeRef

structure Coherent (c : Collective) : Prop where
  sound : ∀ node, Sound c.registry node (c.ledger node)
  fenced : ∀ node deletion, (node, .deleteBinding deletion) ∈ c.requests → deletion.expectedHomeNodeId = node →
    Retired (c.ledger node) deletion.scopeRef
  answered : ∀ node reply binding, (node, reply) ∈ c.replies → reply.adopts node = some binding →
    binding.homeNodeId = node ∧ Held c node binding.scopeRef

section Ledger

variable {registry : BindingRegistry} {ledger : PlacementLedger} {node : NodeId} {scopeRef : ScopeRef}

theorem not_active_of_retired (h : Retired ledger scopeRef) : ledger.activeAuthority scopeRef = none := by
  obtain ⟨r, hf, hst⟩ := h
  unfold PlacementLedger.activeAuthority
  rw [hf, Option.filter_some, if_neg]
  simpa using hst

theorem establishLocalPlacement_eq_ok {homeNodeId : NodeId} {result : BindingEstablishResult}
    {placed : EstablishLocalPlacementResult} {installed : PlacementLedger}
    (h : establishLocalPlacement ledger homeNodeId result = .ok (placed, installed)) :
    installed = ledger ∨ ∃ binding, (Reply.established homeNodeId result).adopts node = some binding ∧
      ledger.installActive binding = .ok installed := by
  have install : ∀ binding, result.binding = some binding → binding.homeNodeId = homeNodeId →
      (Reply.established homeNodeId result).adopts node = some binding := by
    intro binding hbn hh
    simp [Reply.adopts, hbn, hh]
  cases result with
  | designationMismatch designation =>
    cases h
    exact .inl rfl
  | created binding | existing binding =>
    simp only [establishLocalPlacement] at h
    by_cases hh : binding.homeNodeId = homeNodeId
    · rw [if_neg (not_not.mpr hh)] at h
      rcases hi : ledger.installActive binding with e | next <;> rw [hi] at h <;> cases h
      exact .inr ⟨binding, install binding rfl hh, hi⟩
    · rw [if_pos hh] at h
      cases h
      exact .inl rfl

theorem receive_adopts (ledger : PlacementLedger) (node : NodeId) (reply : Reply) :
    receive ledger node reply = ledger ∨ ∃ binding, reply.adopts node = some binding ∧
      ledger.find binding.scopeRef = none ∧ receive ledger node reply = ledger.add { binding with state := .active } := by
  suffices h : receive ledger node reply = ledger ∨ ∃ binding, reply.adopts node = some binding ∧
      ledger.installActive binding = .ok (receive ledger node reply) by
    rcases h with hs | ⟨binding, hadopts, hi⟩
    · exact .inl hs
    · exact (installActive_eq_ok hi).imp_right fun ⟨hn, hadd⟩ => ⟨binding, hadopts, hn, hadd⟩
  cases reply with
  | established homeNodeId result =>
    rcases h : establishLocalPlacement ledger homeNodeId result with e | ⟨placed, installed⟩
    · exact .inl (by simp only [receive, h])
    · simp only [receive, h]
      exact establishLocalPlacement_eq_ok h
  | consulted binding =>
    cases binding with
    | none => exact .inl rfl
    | some binding =>
      simp only [receive, adoptConsulted]
      split_ifs with hh
      · rcases h : ledger.installActive binding with e | installed
        · exact .inl rfl
        · exact .inr ⟨binding, by simp [Reply.adopts, hh], h⟩
      · exact .inl rfl
  | deleted result => exact .inl rfl

theorem retired_receive (h : Retired ledger scopeRef) (node : NodeId) (reply : Reply) :
    Retired (receive ledger node reply) scopeRef := by
  rcases receive_adopts ledger node reply with hs | ⟨binding, -, hn, hadd⟩
  · rwa [hs]
  · obtain ⟨r, hf, hst⟩ := h
    refine ⟨r, ?_, hst⟩
    rw [hadd, find_add_of_ne, hf]
    rintro rfl
    rw [hn] at hf
    cases hf

theorem Sound.receive (h : Sound registry node ledger) {reply : Reply}
    (hadopts : ∀ binding, reply.adopts node = some binding →
      binding.homeNodeId = node ∧ (Names registry node binding.scopeRef ∨ Retired ledger binding.scopeRef)) :
    Sound registry node (receive ledger node reply) := by
  rcases receive_adopts ledger node reply with hs | ⟨binding, hreply, hnn, hadd⟩
  · rwa [hs]
  · obtain ⟨hhm, hh⟩ := hadopts binding hreply
    have hn : Names registry node binding.scopeRef := by
      refine hh.resolve_right ?_
      rintro ⟨r, hf, -⟩
      rw [hnn] at hf
      cases hf
    intro scopeRef r hr
    have had : ∀ added : PlacementLedgerRecord, added.toPlacementBinding = binding →
        (ledger.add added).find scopeRef = some r → r.homeNodeId = node ∧ (r.state = .active → Names registry node scopeRef) := by
      rintro added rfl hr
      by_cases hsc : scopeRef = added.scopeRef
      · subst hsc
        rw [find_add_self hnn] at hr
        obtain rfl := Option.some.inj hr
        exact ⟨hhm, fun _ => hn⟩
      · rw [find_add_of_ne (r := added) hsc] at hr
        exact h scopeRef r hr
    rw [hadd] at hr
    exact had _ rfl hr

/-- What a retirement does to the ledger, and when it asks for a deletion. -/
theorem retireFederationScope_spec {request : FederationRetirementRequest} {liveRuntimeIds : List String} {now : String}
    {fenced : Bool} {retired : PlacementLedger} {outcome : Except RetirementStop DeleteBindingInput}
    (h : retireFederationScope ledger node request liveRuntimeIds now fenced = (retired, outcome)) :
    (retired = ledger ∨ ∃ input, retired = (ledger.retire input).2) ∧
      ∀ deletion, outcome = .ok deletion → Retired retired deletion.scopeRef := by
  have stops : ∀ {stop : RetirementStop}, (ledger, Except.error stop) = (retired, outcome) →
      (retired = ledger ∨ ∃ input, retired = (ledger.retire input).2) ∧
        ∀ deletion, outcome = .ok deletion → Retired retired deletion.scopeRef := by
    intro stop h
    obtain ⟨rfl, rfl⟩ := Prod.mk.inj h
    exact ⟨.inl rfl, fun _ h => by cases h⟩
  unfold retireFederationScope at h
  dsimp only at h
  by_cases hr : Text.trim request.reason = ""
  · exact stops (by rwa [if_pos hr] at h)
  rw [if_neg hr] at h
  rcases hfn : ledger.find request.scopeRef with _ | before <;> rw [hfn] at h <;> dsimp only at h
  · exact stops h
  by_cases hh : before.homeNodeId = node
  · rw [if_neg (not_not.mpr hh)] at h
    by_cases hl : before.state = .active ∧ liveRuntimeIds ≠ []
    · exact stops (by rwa [if_pos hl] at h)
    rw [if_neg hl] at h
    rcases hret : ledger.retire _ with ⟨result, next⟩
    rw [hret] at h
    have hn : next = ledger ∨ ∃ input, next = (ledger.retire input).2 := .inr ⟨_, by rw [hret]⟩
    cases result with
    | notFound | conflict record =>
      obtain ⟨rfl, rfl⟩ := Prod.mk.inj h
      exact ⟨hn, fun _ h => by cases h⟩
    | idempotent record | retired record =>
      dsimp only at h
      split_ifs at h with hf
      · obtain ⟨rfl, rfl⟩ := Prod.mk.inj h
        refine ⟨hn, fun deletion hd => ?_⟩
        obtain rfl := Except.ok.inj hd
        first
          | exact retire_retired (.inl hret)
          | exact retire_retired (.inr hret)
      · obtain ⟨rfl, rfl⟩ := Prod.mk.inj h
        exact ⟨hn, fun _ h => by cases h⟩
  · exact stops (by rwa [if_pos hh] at h)

theorem retired_retire (h : Retired ledger scopeRef) (input : RetirePlacementInput) :
    Retired (ledger.retire input).2 scopeRef := by
  obtain ⟨r, hf, hst⟩ := h
  rcases find_retire ledger input scopeRef with hs | ⟨before, -, hr⟩
  · exact ⟨r, hs.trans hf, hst⟩
  · exact ⟨_, hr, PlacementLedgerState.noConfusion⟩

theorem Sound.retire (h : Sound registry node ledger) (input : RetirePlacementInput) :
    Sound registry node (ledger.retire input).2 := by
  intro scopeRef r hr
  rcases find_retire ledger input scopeRef with hs | ⟨before, hbef, hret⟩
  · exact h scopeRef r (hs ▸ hr)
  · rw [hret] at hr
    obtain rfl := Option.some.inj hr
    exact ⟨(h scopeRef before hbef).1, PlacementLedgerState.noConfusion⟩

end Ledger

section Registry

variable {registry : BindingRegistry} {node peer : NodeId} {scopeRef : ScopeRef} {now : String} {request : Request}

theorem names_answer (h : Names registry node scopeRef) :
    Names (answer registry peer now request).2 node scopeRef ∨
      ∃ deletion, request = .deleteBinding deletion ∧ peer = node ∧ deletion.expectedHomeNodeId = node ∧
        deletion.scopeRef = scopeRef := by
  obtain ⟨binding, hg, rfl⟩ := h
  cases request with
  | establish input =>
    simp only [answer]
    split_ifs
    · exact .inl ⟨binding, hg, rfl⟩
    · exact .inl ⟨binding, establish_keeps hg _, rfl⟩
  | consult scope => exact .inl ⟨binding, hg, rfl⟩
  | deleteBinding input =>
    simp only [answer]
    by_cases hh : input.expectedHomeNodeId = peer
    · rw [if_neg (not_not.mpr hh)]
      rcases deleteBinding_keeps hg input with hk | ⟨rfl, he⟩
      · exact .inl ⟨binding, hk, rfl⟩
      · exact .inr ⟨input, rfl, by rw [← hh, he], he.symm, rfl⟩
    · rw [if_pos hh]
      exact .inl ⟨binding, hg, rfl⟩

theorem answer_adopts {reply : Reply} {binding : PlacementBinding}
    (h : (answer registry peer now request).1 = some reply) (hadopts : reply.adopts peer = some binding) :
    binding.homeNodeId = peer ∧ Names (answer registry peer now request).2 peer binding.scopeRef := by
  cases request with
  | establish input =>
    simp only [answer] at h ⊢
    by_cases hh : input.homeNodeId = peer
    · rw [if_neg (not_not.mpr hh)] at h ⊢
      obtain rfl := Option.some.inj h
      obtain ⟨hbn, hs⟩ := Option.filter_eq_some_iff.mp hadopts
      have hp : binding.homeNodeId = peer := (eq_of_beq hs).trans hh
      exact ⟨hp, binding, get_establish hbn, hp⟩
    · rw [if_pos hh] at h
      cases h
  | consult scope =>
    obtain rfl := Option.some.inj h
    obtain ⟨hbn, hs⟩ := Option.filter_eq_some_iff.mp hadopts
    have hp : binding.homeNodeId = peer := eq_of_beq hs
    refine ⟨hp, binding, ?_, hp⟩
    rw [(find_mem hbn).2]
    exact hbn
  | deleteBinding input =>
    simp only [answer] at h
    split_ifs at h
    obtain rfl := Option.some.inj h
    cases hadopts

end Registry

section Run

variable {c : Collective} {node : NodeId} {scopeRef : ScopeRef}

theorem step_ledger (c : Collective) (action : Action) (node : NodeId) :
    (step action c).ledger node = c.ledger node ∨
      (∃ reply, (node, reply) ∈ c.replies ∧ (step action c).ledger node = receive (c.ledger node) node reply) ∨
        ∃ input, (step action c).ledger node = ((c.ledger node).retire input).2 := by
  cases action with
  | establish sender input | consult sender scope | designate input => exact .inl rfl
  | serve index now =>
    refine .inl ?_
    simp only [step]
    cases c.requests[index]? <;> rfl
  | receive index =>
    simp only [step]
    rcases hreply : c.replies[index]? with _ | ⟨receiver, reply⟩
    · exact .inl rfl
    · by_cases hn : node = receiver
      · subst hn
        exact .inr (.inl ⟨reply, List.mem_of_getElem? hreply, Function.update_self ..⟩)
      · exact .inl (Function.update_of_ne hn ..)
  | retire retiring request liveRuntimeIds now fenced =>
    have hl : (step (.retire retiring request liveRuntimeIds now fenced) c).ledger =
        Function.update c.ledger retiring
          (retireFederationScope (c.ledger retiring) retiring request liveRuntimeIds now fenced).1 := by
      simp only [step, Collective.retire]
      split <;> rfl
    rw [hl]
    by_cases hn : node = retiring
    · subst hn
      rw [Function.update_self]
      rcases hr : retireFederationScope (c.ledger node) node request liveRuntimeIds now fenced with
        ⟨retired, outcome⟩
      exact (retireFederationScope_spec hr).1.imp_right .inr
    · exact .inl (Function.update_of_ne hn ..)

theorem names_step (h : Names c.registry node scopeRef) (action : Action) :
    Names (step action c).registry node scopeRef ∨
      ∃ deletion, (node, .deleteBinding deletion) ∈ c.requests ∧ deletion.expectedHomeNodeId = node ∧
        deletion.scopeRef = scopeRef := by
  cases action with
  | establish sender input | consult sender scope => exact .inl h
  | designate input =>
    obtain ⟨binding, hg, hh⟩ := h
    exact .inl ⟨binding, (get_recordDesignation _ _).trans hg, hh⟩
  | serve index now =>
    simp only [step]
    rcases hsent : c.requests[index]? with _ | ⟨sender, request⟩
    · exact .inl h
    · refine (@names_answer c.registry node sender scopeRef now request h).imp_right ?_
      rintro ⟨deletion, rfl, rfl, hh, hsc⟩
      exact ⟨deletion, List.mem_of_getElem? hsent, hh, hsc⟩
  | receive index =>
    simp only [step]
    cases c.replies[index]? <;> exact .inl h
  | retire retiring request liveRuntimeIds now fenced =>
    simp only [step, Collective.retire]
    split <;> exact .inl h

theorem deletion_step {action : Action} {deletion : DeleteBindingInput}
    (h : (node, .deleteBinding deletion) ∈ (step action c).requests) :
    (node, .deleteBinding deletion) ∈ c.requests ∨ Retired ((step action c).ledger node) deletion.scopeRef := by
  cases action with
  | establish sender input | consult sender scope =>
    rcases List.mem_append.mp h with hold | hn
    · exact .inl hold
    · simp at hn
  | designate input => exact .inl h
  | serve index now =>
    simp only [step] at h
    revert h
    cases c.requests[index]? <;> exact .inl
  | receive index =>
    simp only [step] at h
    revert h
    cases c.replies[index]? <;> exact .inl
  | retire retiring request liveRuntimeIds now fenced =>
    rcases hr : retireFederationScope (c.ledger retiring) retiring request liveRuntimeIds now fenced with
      ⟨retired, outcome⟩
    have hs := (retireFederationScope_spec hr).2
    simp only [step, Collective.retire, hr] at h ⊢
    cases outcome with
    | error stop => exact .inl h
    | ok asked =>
      rcases List.mem_append.mp h with hold | hn
      · exact .inl hold
      · obtain ⟨rfl, has⟩ := Prod.mk.inj (List.mem_singleton.mp hn)
        obtain rfl := Request.deleteBinding.inj has
        refine .inr ?_
        show Retired (Function.update c.ledger node retired node) deletion.scopeRef
        rw [Function.update_self]
        exact hs deletion rfl

theorem reply_step {action : Action} {reply : Reply} (h : (node, reply) ∈ (step action c).replies) :
    (node, reply) ∈ c.replies ∨
      ∃ request now, (answer c.registry node now request).1 = some reply ∧
        (step action c).registry = (answer c.registry node now request).2 := by
  cases action with
  | establish sender input | consult sender scope | designate input => exact .inl h
  | serve index now =>
    simp only [step] at h ⊢
    rcases hsent : c.requests[index]? with _ | ⟨sender, request⟩ <;> rw [hsent] at h
    · exact .inl h
    · rcases List.mem_append.mp h with hold | hn
      · exact .inl hold
      · obtain ⟨answered, hans, hp⟩ := List.mem_map.mp hn
        obtain ⟨rfl, rfl⟩ := Prod.mk.inj hp
        exact .inr ⟨request, now, Option.mem_toList.mp hans, rfl⟩
  | receive index =>
    simp only [step] at h
    revert h
    cases c.replies[index]? <;> exact .inl
  | retire retiring request liveRuntimeIds now fenced =>
    simp only [step, Collective.retire] at h
    split at h <;> exact .inl h

theorem retired_step (h : Retired (c.ledger node) scopeRef) (action : Action) :
    Retired ((step action c).ledger node) scopeRef := by
  rcases step_ledger c action node with hs | ⟨reply, -, hr⟩ | ⟨input, hret⟩
  · rwa [hs]
  · rw [hr]
    exact retired_receive h node reply
  · rw [hret]
    exact retired_retire h input

theorem Coherent.held_step (h : Coherent c) (hh : Held c node scopeRef) (action : Action) :
    Held (step action c) node scopeRef := by
  rcases hh with hn | hr
  · rcases names_step hn action with hk | ⟨deletion, hsent, hhm, rfl⟩
    · exact .inl hk
    · exact .inr (retired_step (h.fenced node deletion hsent hhm) action)
  · exact .inr (retired_step hr action)

theorem Coherent.sound_step (h : Coherent c) (action : Action) (node : NodeId) :
    Sound (step action c).registry node ((step action c).ledger node) := by
  have hl : Sound c.registry node ((step action c).ledger node) := by
    rcases step_ledger c action node with hs | ⟨reply, hreply, hrcv⟩ | ⟨input, hret⟩
    · rw [hs]
      exact h.sound node
    · rw [hrcv]
      exact (h.sound node).receive fun binding hadopts => h.answered node reply binding hreply hadopts
    · rw [hret]
      exact (h.sound node).retire input
  intro scope r hr
  obtain ⟨hh, hn⟩ := hl scope r hr
  refine ⟨hh, fun hact => ?_⟩
  rcases names_step (hn hact) action with hk | ⟨deletion, hsent, he, rfl⟩
  · exact hk
  · obtain ⟨r', hr', hrt⟩ := retired_step (h.fenced node deletion hsent he) action
    obtain rfl := Option.some.inj (hr'.symm.trans hr)
    exact absurd hact hrt

theorem coherent_step (h : Coherent c) (action : Action) : Coherent (step action c) where
  sound node := h.sound_step action node
  fenced node deletion hsent hhm := by
    rcases deletion_step hsent with hold | hret
    · exact retired_step (h.fenced node deletion hold hhm) action
    · exact hret
  answered node reply binding hreply hadopts := by
    rcases reply_step hreply with hold | ⟨request, now, hans, hr⟩
    · obtain ⟨hhm, hh⟩ := h.answered node reply binding hold hadopts
      exact ⟨hhm, h.held_step hh action⟩
    · obtain ⟨hhm, hn⟩ := answer_adopts hans hadopts
      refine ⟨hhm, .inl ?_⟩
      rw [hr]
      exact hn

theorem coherent_empty : Coherent {} where
  sound _ _ _ hr := by cases hr
  fenced _ _ hsent := by cases hsent
  answered _ _ _ hreply := by cases hreply

theorem coherent_run (actions : List Action) : Coherent (run step actions {}) :=
  run_invariant (I := Coherent) (fun _ action h _ => coherent_step h action) coherent_empty meets_true

theorem retired_run {actions : List Action} (h : Retired (c.ledger node) scopeRef) :
    Retired ((run step actions c).ledger node) scopeRef :=
  run_invariant (I := fun c : Collective => Retired (c.ledger node) scopeRef) (fun _ action h _ => retired_step h action) h meets_true

theorem Coherent.names (h : Coherent c) (hact : Active (c.ledger node) node scopeRef) :
    Names c.registry node scopeRef := by
  obtain ⟨r, hf, hst, -⟩ := hact
  exact (h.sound node scopeRef r hf).2 hst

end Run

/-- Whatever the nodes, the registry and the messages do: a scope has one node at most that holds it active, the registry
binds it to that node, and a node that has retired a scope never holds it again. -/
theorem one_home (actions later : List Action) (scopeRef : ScopeRef) :
    let c := run step actions {}
    (∀ node other, Active (c.ledger node) node scopeRef → Active (c.ledger other) other scopeRef → node = other) ∧
      (∀ node, Active (c.ledger node) node scopeRef →
        (c.registry.get scopeRef).map (·.homeNodeId) = some node) ∧
      ∀ node, Retired (c.ledger node) scopeRef →
        ((run step later c).ledger node).activeAuthority scopeRef = none := by
  intro c
  have hc : Coherent c := coherent_run actions
  have hn : ∀ node, Active (c.ledger node) node scopeRef →
      (c.registry.get scopeRef).map (·.homeNodeId) = some node := by
    intro node hact
    obtain ⟨binding, hg, hh⟩ := hc.names hact
    rw [hg, Option.map_some, hh]
  refine ⟨fun node other hnd hoth => ?_, hn, fun node hr => not_active_of_retired (retired_run hr)⟩
  exact Option.some.inj ((hn node hnd).symm.trans (hn other hoth))

def moved : List Action :=
  [.establish "a" ⟨"s", "a", none, "t0"⟩, .serve 0 "t1", .receive 0, .retire "a" ⟨"s", "done"⟩ [] "t2" true, .serve 1 "t3",
    .establish "b" ⟨"s", "b", none, "t4"⟩, .serve 2 "t5", .serve 0 "t6", .receive 2, .receive 3]

theorem one_home_moved :
    ((run step moved {}).registry.get "s").map (·.homeNodeId) = some "b" ∧
      ((run step [] (run step moved {})).ledger "a").activeAuthority "s" = none := by
  obtain ⟨-, hn, hr⟩ := one_home moved [] "s"
  refine ⟨hn "b" ?_, hr "a" ?_⟩
  · refine ⟨⟨⟨"s", "b", "t5", "t5"⟩, .active⟩, ?_⟩
    decide +kernel
  · refine ⟨⟨⟨"s", "a", "t1", "t2"⟩, .retired "t2" "done"⟩, ?_⟩
    decide +kernel

end HrcRuntime.Placement
