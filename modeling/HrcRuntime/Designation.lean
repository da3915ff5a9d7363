import HrcRuntime.FederationStore
import HrcRuntime.Schedule
import Mathlib.Data.List.MinMax

namespace HrcRuntime.Designation

open FederationStore Keyed Schedule

inductive Action where
  | recordDesignation (input : RecordBirthDesignationInput)
  | establish (input : EstablishBindingInput)
  | deleteBinding (input : DeleteBindingInput)

def step (action : Action) (registry : BindingRegistry) : BindingRegistry :=
  match action with
  | .recordDesignation input => (registry.recordDesignation input).2
  | .establish input => (registry.establish input).2
  | .deleteBinding input => (registry.deleteBinding input).2

def designated (d : BirthDesignationRecord) : BirthDesignationRecord := { d with state := .live }

def named (registry : BindingRegistry) (key : ScopeRef × Nat) : Option BirthDesignationRecord :=
  (registry.designations.find key).map designated

def OneLive (registry : BindingRegistry) : Prop :=
  ∀ scopeRef, ∀ d ∈ registry.designations.rows, ∀ d' ∈ registry.designations.rows,
    BindingRegistry.isLive scopeRef d → BindingRegistry.isLive scopeRef d' → d = d'

def ReleasesLive (scopeRef : ScopeRef) (registry : BindingRegistry) : Action → Prop
  | .deleteBinding input =>
    input.scopeRef = scopeRef ∧ (registry.deleteBinding input).1 = .deleted ∧ (registry.liveDesignation scopeRef).isSome
  | _ => False

instance (scopeRef : ScopeRef) (registry : BindingRegistry) : (action : Action) →
    Decidable (ReleasesLive scopeRef registry action)
  | .deleteBinding _ => inferInstanceAs (Decidable (_ ∧ _ ∧ _))
  | .recordDesignation _ | .establish _ => isFalse id

section Rows

variable {registry : BindingRegistry} {scopeRef : ScopeRef} {d : BirthDesignationRecord}

theorem liveDesignation_mem (h : registry.liveDesignation scopeRef = some d) :
    d ∈ registry.designations.rows ∧ BindingRegistry.isLive scopeRef d :=
  ⟨List.mem_of_find?_eq_some h, List.find?_some h⟩

theorem liveDesignation_eq_none :
    registry.liveDesignation scopeRef = none ↔
      ∀ d ∈ registry.designations.rows, ¬BindingRegistry.isLive scopeRef d := by
  unfold BindingRegistry.liveDesignation
  exact List.find?_eq_none

theorem OneLive.liveDesignation (h : OneLive registry) (hd : d ∈ registry.designations.rows)
    (hl : BindingRegistry.isLive scopeRef d) : registry.liveDesignation scopeRef = some d := by
  rcases hf : registry.liveDesignation scopeRef with _ | d'
  · exact absurd hl (liveDesignation_eq_none.mp hf d hd)
  · obtain ⟨hd', hl'⟩ := liveDesignation_mem hf
    rw [h scopeRef d' hd' d hd hl' hl]

theorem isLive_iff : BindingRegistry.isLive scopeRef d ↔ d.scopeRef = scopeRef ∧ d.state = .live := by
  simp [BindingRegistry.isLive]

theorem find_nextEpoch (registry : BindingRegistry) (scopeRef : ScopeRef) :
    registry.designations.find (scopeRef, registry.nextEpoch scopeRef) = none := by
  rw [find_eq_none]
  intro hmem
  obtain ⟨d, hd, hk⟩ := List.mem_map.mp hmem
  obtain ⟨hsc, he⟩ := Prod.mk.inj hk
  have hm : d.designationEpoch ≤
      ((registry.designations.rows.filter (·.scopeRef == scopeRef)).map (·.designationEpoch)).foldr max 0 :=
    List.le_max_of_le' 0 (List.mem_map_of_mem (List.mem_filter.mpr ⟨hd, by simpa using hsc⟩)) le_rfl
  unfold BindingRegistry.nextEpoch at he
  omega

end Rows

section Step

variable {registry : BindingRegistry} {scopeRef : ScopeRef} {d : BirthDesignationRecord}

inductive Settles (registry next : BindingRegistry) (action : Action) : Prop
  | same (h : next.designations = registry.designations)
  | recorded (stored : BirthDesignationRecord) (hstate : stored.state = .live)
      (hlive : registry.liveDesignation stored.scopeRef = none)
      (hfresh : registry.designations.find (stored.scopeRef, stored.designationEpoch) = none)
      (h : next.designations = registry.designations.add stored)
  | superseded (live : BirthDesignationRecord) (supersededBy : BirthDesignationSupersededBy) (now : String)
      (hlive : registry.liveDesignation live.scopeRef = some live)
      (h : next.designations = registry.designations.amend (live.scopeRef, live.designationEpoch) (fun _ => true)
        (BindingRegistry.supersedeRow supersededBy now) (BindingRegistry.supersedeRow_key supersededBy now))
  | released (input : DeleteBindingInput) (haction : action = .deleteBinding input)
      (hdeleted : (registry.deleteBinding input).1 = .deleted)
      (h : next.designations = registry.designations.erase (BindingRegistry.isLive input.scopeRef))

theorem settles_establish (registry : BindingRegistry) (input : EstablishBindingInput) :
    Settles registry (registry.establish input).2 (.establish input) := by
  unfold BindingRegistry.establish
  rcases hg : registry.get input.scopeRef with _ | current
  · dsimp only
    rcases hl : registry.liveDesignation input.scopeRef with _ | live
    · exact .same rfl
    · dsimp only
      split_ifs with he
      · exact .same rfl
      · obtain ⟨hsc, -⟩ := isLive_iff.mp (liveDesignation_mem hl).2
        rw [← hsc] at hl
        rcases hd : input.birthDesignation with _ | (_ | supersededBy)
        · exact .same (by simp only [BindingRegistry.settleDesignation, hd])
        · exact .same (by simp only [BindingRegistry.settleDesignation, hd])
        · exact .superseded live supersededBy input.now hl
            (by simp only [BindingRegistry.settleDesignation, hd, hsc])
  · exact .same rfl

theorem settles_step (action : Action) (registry : BindingRegistry) : Settles registry (step action registry) action := by
  cases action with
  | recordDesignation input =>
    simp only [step, BindingRegistry.recordDesignation]
    rcases hl : registry.liveDesignation input.scopeRef with _ | live
    · exact .recorded _ rfl hl (find_nextEpoch registry input.scopeRef) rfl
    · exact .same rfl
  | establish input => exact settles_establish registry input
  | deleteBinding input =>
    rcases hg : registry.get input.scopeRef with _ | current
    · exact .same (by simp only [step, BindingRegistry.deleteBinding, hg])
    · by_cases hh : current.homeNodeId = input.expectedHomeNodeId
      · refine .released input rfl ?_ ?_
        · simp only [BindingRegistry.deleteBinding, hg, if_neg (not_not.mpr hh)]
        · simp only [step, BindingRegistry.deleteBinding, hg, if_neg (not_not.mpr hh),
            BindingRegistry.auditRetirement]
      · exact .same (by simp only [step, BindingRegistry.deleteBinding, hg, if_pos hh])

theorem mem_superseded {live : BirthDesignationRecord} {supersededBy : BirthDesignationSupersededBy} {now : String}
    {t : Store BirthDesignationRecord fun d => (d.scopeRef, d.designationEpoch)} (hl : live ∈ t.rows) :
    d ∈ (t.amend (live.scopeRef, live.designationEpoch) (fun _ => true) (BindingRegistry.supersedeRow supersededBy now)
        (BindingRegistry.supersedeRow_key supersededBy now)).rows ∧ BindingRegistry.isLive scopeRef d ↔
      d ∈ t.rows ∧ BindingRegistry.isLive scopeRef d ∧ d ≠ live := by
  rw [mem_amend]
  constructor
  · rintro ⟨⟨r, hr, rfl⟩, hrow⟩
    split_ifs at hrow ⊢ with hk
    · rw [isLive_iff] at hrow
      cases hrow.2
    · refine ⟨hr, hrow, ?_⟩
      rintro rfl
      simp at hk
  · rintro ⟨hd, hrow, hne⟩
    refine ⟨⟨d, hd, if_neg ?_⟩, hrow⟩
    intro hk
    rw [Bool.and_true] at hk
    exact hne (List.inj_on_of_nodup_map t.nodup hd hl (eq_of_beq hk))

theorem oneLive_step (h : OneLive registry) (action : Action) : OneLive (step action registry) := by
  intro scope d hd d' hd' hl hl'
  cases settles_step action registry with
  | same hs =>
    rw [hs] at hd hd'
    exact h scope d hd d' hd' hl hl'
  | recorded stored hst hn hfr hadd =>
    rw [hadd] at hd hd'
    have hsc : ∀ {r}, r ∈ registry.designations.rows → BindingRegistry.isLive scope r → stored.scopeRef ≠ scope := by
      rintro r hr hrow rfl
      exact liveDesignation_eq_none.mp hn r hr hrow
    rcases mem_add.mp hd with hold | ⟨rfl, -⟩ <;> rcases mem_add.mp hd' with ho' | ⟨rfl, -⟩
    · exact h scope d hold d' ho' hl hl'
    · exact absurd (isLive_iff.mp hl').1 (hsc hold hl)
    · exact absurd (isLive_iff.mp hl).1 (hsc ho' hl')
    · rfl
  | superseded live supersededBy now hf ham =>
    rw [ham] at hd hd'
    have hrow := (mem_superseded (liveDesignation_mem hf).1).mp ⟨hd, hl⟩
    have hrow' := (mem_superseded (liveDesignation_mem hf).1).mp ⟨hd', hl'⟩
    exact h scope d hrow.1 d' hrow'.1 hl hl'
  | released input hact hdel he =>
    rw [he] at hd hd'
    exact h scope d (mem_erase.mp hd).1 d' (mem_erase.mp hd').1 hl hl'

theorem liveDesignation_step (h : OneLive registry) (hl : registry.liveDesignation scopeRef = some d)
    (action : Action) :
    (step action registry).liveDesignation scopeRef = some d ∨ (step action registry).liveDesignation scopeRef = none := by
  obtain ⟨hd, hrow⟩ := liveDesignation_mem hl
  have stays : d ∈ (step action registry).designations.rows →
      (step action registry).liveDesignation scopeRef = some d := fun hm => (oneLive_step h action).liveDesignation hm hrow
  cases settles_step action registry with
  | same hs => exact .inl (stays (hs ▸ hd))
  | recorded stored hst hn hfr hadd => exact .inl (stays (hadd ▸ mem_add.mpr (.inl hd)))
  | superseded live supersededBy now hf ham =>
    have hfm := liveDesignation_mem hf
    by_cases hs : d = live
    · subst hs
      refine .inr (liveDesignation_eq_none.mpr fun r hr hlr => ?_)
      rw [ham] at hr
      obtain ⟨hold, -, hne⟩ := (mem_superseded hd).mp ⟨hr, hlr⟩
      exact hne (h scopeRef r hold d hd hlr hrow)
    · exact .inl (stays (ham ▸ ((mem_superseded hfm.1).mpr ⟨hd, hrow, hs⟩).1))
  | released input hact hdel he =>
    by_cases hsc : input.scopeRef = scopeRef
    · subst hsc
      refine .inr (liveDesignation_eq_none.mpr fun r hr hlr => ?_)
      rw [he] at hr
      exact absurd hlr (by simp [(mem_erase.mp hr).2])
    · refine .inl (stays (he ▸ mem_erase.mpr ⟨hd, ?_⟩))
      rw [Bool.eq_false_iff, Ne, isLive_iff]
      rintro ⟨hi, -⟩
      exact hsc (hi.symm.trans (isLive_iff.mp hrow).1)

theorem named_step {epoch : Nat} (h : named registry (scopeRef, epoch) = some d) {action : Action}
    (hrel : ¬ReleasesLive scopeRef registry action) : named (step action registry) (scopeRef, epoch) = some d := by
  unfold named at h ⊢
  obtain ⟨r, hfn, rfl⟩ := Option.map_eq_some_iff.mp h
  obtain ⟨hr, hk⟩ := find_mem hfn
  cases settles_step action registry with
  | same hs => rwa [hs]
  | recorded stored hst hn hfr hadd =>
    rw [hadd, find_add_of_ne, hfn]
    · rfl
    · intro hs
      rw [← hs, hfn] at hfr
      cases hfr
  | superseded live supersededBy now hf ham =>
    rw [ham]
    by_cases hs : (scopeRef, epoch) = (live.scopeRef, live.designationEpoch)
    · rw [hs, find_amend_self, ← hs, hfn]
      rfl
    · rw [find_amend_of_ne (BindingRegistry.supersedeRow_key supersededBy now) hs, hfn]
      rfl
  | released input hact hd he =>
    subst hact
    rw [he, find_erase, hfn, Option.filter_some, if_pos]
    · rfl
    · rw [Bool.not_eq_true', Bool.eq_false_iff, Ne, isLive_iff]
      rintro ⟨hsc, hst⟩
      refine hrel ⟨hsc.symm.trans (Prod.mk.inj hk).1, hd, ?_⟩
      rw [Option.isSome_iff_ne_none, Ne, liveDesignation_eq_none]
      exact fun hn => hn r hr (isLive_iff.mpr ⟨(Prod.mk.inj hk).1, hst⟩)

theorem get_step {binding : PlacementBinding} (h : registry.get scopeRef = some binding) (action : Action) :
    (step action registry).get scopeRef = some binding ∨ (step action registry).get scopeRef = none := by
  cases action with
  | recordDesignation input => exact .inl ((get_recordDesignation _ _).trans h)
  | establish input => exact .inl (establish_keeps h input)
  | deleteBinding input =>
    refine (deleteBinding_keeps h input).imp_right ?_
    rintro ⟨rfl, hh⟩
    have he : (registry.deleteBinding input).2.bindings = registry.bindings.erase fun b =>
        b.scopeRef == input.scopeRef && b.homeNodeId == input.expectedHomeNodeId := by
      simp only [BindingRegistry.deleteBinding, h, if_neg (not_not.mpr hh), BindingRegistry.auditRetirement]
    have hk := (find_mem h).2
    unfold BindingRegistry.get at h ⊢
    rw [step, he, find_erase, h, Option.filter_some, if_neg]
    simp [hk, hh]

theorem oneLive_run (actions : List Action) : OneLive (run step actions {}) :=
  run_invariant (I := OneLive) (fun _ action h _ => oneLive_step h action) (fun _ _ hd => by cases hd) meets_true

end Step

/-- What an establishment does to a designation of another home when it creates the binding. -/
theorem establish_created {registry : BindingRegistry} (h : OneLive registry) {input : EstablishBindingInput}
    {d : BirthDesignationRecord} {binding : PlacementBinding}
    (hl : registry.liveDesignation input.scopeRef = some d) (hh : input.homeNodeId ≠ d.homeNodeId)
    (hc : (registry.establish input).1 = .created binding) :
    input.birthDesignation = none ∧ (registry.establish input).2.designations = registry.designations ∨
      ∃ supersededBy, input.birthDesignation = some (.supersede supersededBy) ∧
        (registry.establish input).2.designations.find (input.scopeRef, d.designationEpoch) =
          some { d with state := .superseded supersededBy input.now } ∧
        (registry.establish input).2.liveDesignation input.scopeRef = none := by
  have hu : registry.get input.scopeRef = none := by
    by_contra hbd
    obtain ⟨current, hg⟩ := Option.ne_none_iff_exists'.mp hbd
    simp [BindingRegistry.establish, hg] at hc
  obtain ⟨hd, hrow⟩ := liveDesignation_mem hl
  obtain ⟨hsc, -⟩ := isLive_iff.mp hrow
  rcases hdec : input.birthDesignation with _ | (_ | supersededBy)
  · exact .inl ⟨rfl, by simp [BindingRegistry.establish, hu, hl, hdec, BindingRegistry.settleDesignation]⟩
  · simp [BindingRegistry.establish, hu, hl, hdec, hh] at hc
  · have ham : (registry.establish input).2.designations =
        registry.designations.amend (input.scopeRef, d.designationEpoch) (fun _ => true)
          (BindingRegistry.supersedeRow supersededBy input.now)
          (BindingRegistry.supersedeRow_key supersededBy input.now) := by
      simp [BindingRegistry.establish, hu, hl, hdec, BindingRegistry.settleDesignation]
    refine .inr ⟨supersededBy, rfl, ?_, liveDesignation_eq_none.mpr fun r hr hlr => ?_⟩
    · rw [ham, find_amend_self, ← hsc, find_of_mem hd]
      rfl
    · rw [ham, ← hsc] at hr
      obtain ⟨hold, -, hne⟩ := (mem_superseded hd).mp ⟨hr, hlr⟩
      exact hne (h input.scopeRef r hold d hd hlr hrow)

/-- In every registry that designations, establishments and deletions lead to: one live designation of a scope at most,
the same answered to all until it ends; an establishment elsewhere creates its binding by superseding that designation or
by taking no decision on it; a binding keeps its home; an epoch names one designation until a deletion releases it live. -/
theorem designation_arbitration (actions : List Action) (scopeRef : ScopeRef) :
    let registry := run step actions {}
    (∀ d ∈ registry.designations.rows, ∀ d' ∈ registry.designations.rows,
        BindingRegistry.isLive scopeRef d → BindingRegistry.isLive scopeRef d' → d = d') ∧
      (∀ d later, registry.liveDesignation scopeRef = some d →
        Meets step (fun registry action => ((step action registry).liveDesignation scopeRef).isSome) later registry →
        (run step later registry).liveDesignation scopeRef = some d ∧
          ∀ input : RecordBirthDesignationInput, input.scopeRef = scopeRef →
            ((run step later registry).recordDesignation input).1 = d) ∧
      (∀ input d binding, registry.liveDesignation input.scopeRef = some d → input.homeNodeId ≠ d.homeNodeId →
        (registry.establish input).1 = .created binding →
        input.birthDesignation = none ∧ (registry.establish input).2.designations = registry.designations ∨
          ∃ supersededBy, input.birthDesignation = some (.supersede supersededBy) ∧
            (registry.establish input).2.designations.find (input.scopeRef, d.designationEpoch) =
              some { d with state := .superseded supersededBy input.now } ∧
            (registry.establish input).2.liveDesignation input.scopeRef = none) ∧
      (∀ binding later, registry.get scopeRef = some binding →
        Meets step (fun registry action => ((step action registry).get scopeRef).isSome) later registry →
        (run step later registry).get scopeRef = some binding) ∧
      ∀ epoch d later, named registry (scopeRef, epoch) = some d →
        Meets step (fun registry action => ¬ReleasesLive scopeRef registry action) later registry →
        named (run step later registry) (scopeRef, epoch) = some d := by
  intro registry
  have hon : OneLive registry := oneLive_run actions
  refine ⟨hon scopeRef, fun d later hl hmt => ?_, fun input d binding => establish_created hon,
    fun binding later hg hmt => ?_, fun epoch d later hn hmt => ?_⟩
  · have hs : (run step later registry).liveDesignation scopeRef = some d :=
      run_stays (I := OneLive) (fun _ action h => oneLive_step h action)
        (fun _ action h hl => liveDesignation_step h hl action) hon hl hmt
    refine ⟨hs, ?_⟩
    rintro input rfl
    simp only [BindingRegistry.recordDesignation, hs]
  · exact run_stays (I := fun _ => True) (f := fun registry : BindingRegistry => registry.get scopeRef) (fun _ _ _ => trivial)
      (fun _ action _ hg => get_step hg action) trivial hg hmt
  · exact run_invariant (I := fun registry => named registry (scopeRef, epoch) = some d)
      (fun _ _ hn hr => named_step hn hr) hn hmt

/-- A designation of one node, then another node's birth of the scope under the given decision, and another's designation
after the release. -/
def arbitrated (decision : Option BirthDesignationEstablishmentDecision) : List Action :=
  [.recordDesignation ⟨"s", "a", .sender, "env-1", "agent:x", "t0"⟩, .establish ⟨"s", "b", decision, "t1"⟩,
    .deleteBinding ⟨"s", "b", "t2"⟩, .recordDesignation ⟨"s", "c", .sender, "env-2", "agent:y", "t3"⟩]

/-- A birth without a decision leaves another home's designation live, and an epoch names two designations in turn. -/
theorem local_birth_keeps_designation :
    ((run step ((arbitrated none).take 1) {}).establish ⟨"s", "b", none, "t1"⟩).1 = .created ⟨"s", "b", "t1", "t1"⟩ ∧
      (((run step ((arbitrated none).take 1) {}).establish ⟨"s", "b", none, "t1"⟩).2.liveDesignation "s").map
        (·.homeNodeId) = some "a" ∧
      (named (run step ((arbitrated none).take 1) {}) ("s", 1)).map (·.homeNodeId) = some "a" ∧
      (named (run step (arbitrated none) {}) ("s", 1)).map (·.homeNodeId) = some "c" := by
  decide +kernel

/-- A superseding birth of a designated scope ends the designation, whose epoch keeps naming it. -/
theorem designation_arbitration_sample :
    ((run step ((arbitrated none).take 1) {}).establish
        ⟨"s", "b", some (.supersede .pin), "t1"⟩).2.liveDesignation "s" = none ∧
      named (run step ((arbitrated (some (.supersede .pin))).drop 1) (run step ((arbitrated none).take 1) {})) ("s", 1) =
        some ⟨"s", 1, "a", .sender, "env-1", "agent:x", "t0", .live⟩ := by
  obtain ⟨-, -, hc, -, hn⟩ := designation_arbitration ((arbitrated none).take 1) "s"
  refine ⟨?_, hn 1 _ _ (by decide +kernel) (by decide +kernel)⟩
  rcases hc ⟨"s", "b", some (.supersede .pin), "t1"⟩ ⟨"s", 1, "a", .sender, "env-1", "agent:x", "t0", .live⟩
    ⟨"s", "b", "t1", "t1"⟩ (by decide +kernel) (by decide) (by decide +kernel) with ⟨hnn, -⟩ | ⟨-, -, -, he⟩
  · cases hnn
  · exact he

end HrcRuntime.Designation
