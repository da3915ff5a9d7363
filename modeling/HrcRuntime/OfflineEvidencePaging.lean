import HrcRuntime.CursorSoundness
import HrcRuntime.OfflineEvidenceAttempt
import HrcRuntime.Stability

namespace HrcRuntime.OfflineEvidencePaging

open Records Database Program Mapper EventRepository ProjectEnvelope EventMapper Calls
open Stability CursorSoundness Controller Wire OfflineEvidenceOutcomes OfflineEvidenceValidate OfflineEvidenceAttempt

section Calls

variable [Host] {start : Db} {invocationId : String} {s t : BrokerEventMapper}

structure Kept (start : Db) (invocationId : String) (s : BrokerEventMapper) : Prop where
  retainedProjection : s.retainedProjection = false
  grows : Grows start s.db
  placement : SamePlacement start s.db
  absent : getByInvocationId start invocationId = none → cursors true s invocationId = none

omit [Host] in
theorem newMapper_kept (s : BrokerEventMapper) (invocationId : String) : Kept s.db invocationId (newMapper s) :=
  ⟨rfl, .refl _, .refl _, fun _ => rfl⟩

omit [Host] in
theorem Kept.row {row : HrcBrokerInvocationRecord} (h : Kept start invocationId s)
    (hr : getByInvocationId s.db invocationId = some row) : getByInvocationId start invocationId ≠ none := by
  intro hn
  have hid := getByInvocationId_identity h.placement invocationId
  rw [hr, hn] at hid
  cases hid

omit [Host] in
theorem Kept.quiet (h : Kept start invocationId s) (hq : Quiet s t) : Kept start invocationId t where
  retainedProjection := hq.retainedProjection.trans h.retainedProjection
  grows := hq.db.symm ▸ h.grows
  placement := hq.db.symm ▸ h.placement
  absent hn := (congrFun hq.retainedIgnoredDeltaCursors _).trans (h.absent hn)

variable {r : Except HrcError BrokerProjectionResult} {pending : Option PendingDelta}

omit [Host] in
theorem folded_kept {db : Db} (h : Folded true invocationId s.db pending db) :
    Grows s.db db ∧ SamePlacement s.db db := by
  cases h with
  | kept => exact ⟨.refl _, .refl _⟩
  | folded _ _ _ _ hr =>
    exact ⟨.of_same (Write.run_dispositions_of_ne hr nofun) (lastProjectedBrokerSeq_setRetainedSeq hr),
      write_samePlacement hr⟩

omit [Host] in
theorem folded_row {db db' : Db} (h : Folded true invocationId db pending db') :
    ∃ row, getByInvocationId db invocationId = some row := by
  cases h with
  | kept hr => exact ⟨_, hr⟩
  | folded _ hr => exact ⟨_, hr⟩

variable {envelope : InvocationEventEnvelope}

theorem project_samePlacement
    (h : project envelope s = (r, t)) : SamePlacement s.db t.db := by
  have hk := (project_writes envelope s).preserves (I := fun u => SamePlacement s.db u.db)
    (fun a b hs ha => by
      cases hs with
      | quiet hq => rwa [hq.db]
      | write w _ hr => exact ha.trans (write_samePlacement hr)) (.refl _)
  rwa [h] at hk

theorem committed_kept {result : BrokerProjectionResult}
    (h : Committed true envelope s result t) : Grows s.db t.db ∧ SamePlacement s.db t.db := by
  obtain ⟨u, v, _, hf, hpr, hl⟩ := h.projected
  obtain ⟨hg, hp⟩ := folded_kept hf
  have hg' := hg.trans (project_grows hpr)
  have hp' := hp.trans (project_samePlacement hpr)
  split at hl
  · obtain ⟨seq, hr⟩ := hl
    exact ⟨hg'.trans (.of_same (Write.run_dispositions_of_ne hr nofun)
      (lastProjectedBrokerSeq_setRetainedSeq hr)), hp'.trans (write_samePlacement hr)⟩
  · rw [hl]
    exact ⟨hg', hp'⟩

theorem applyRetained_kept
    (h : Kept start invocationId s) (hid : envelope.invocationId = invocationId)
    (hrun : applyRetained envelope s = (r, t)) :
    Kept start invocationId t ∧ ∀ result, r = .ok result → getByInvocationId start invocationId ≠ none := by
  subst hid
  have hout : Outcome s (.project true envelope) _ _ := applyRetained_outcome h.retainedProjection
  have hc : (Call.project true envelope).run s = (applyRetained envelope >>= fun result =>
    (pure (some result) : M (Option BrokerProjectionResult))) s := rfl
  rw [hc] at hout
  have hbs {cursor : Nat} (hbs : DeltaBase true envelope.invocationId s cursor) :
      getByInvocationId start envelope.invocationId ≠ none := by
    intro hn
    unfold DeltaBase at hbs
    rw [h.absent hn] at hbs
    obtain ⟨row, hr, -⟩ := hbs
    exact h.row hr hn
  cases r with
  | error e =>
    rw [bind_error hrun] at hout
    cases hout with
    | thrown hq =>
      refine ⟨h.quiet hq, fun _ heq => ?_⟩
      cases heq
  | ok result =>
    rw [bind_ok hrun] at hout
    cases hout with
    | repeated _ hcur => exact ⟨h, fun _ _ => hbs hcur⟩
    | extended _ hcur =>
      exact ⟨⟨h.retainedProjection, h.grows, h.placement, fun hn => absurd hn (hbs hcur)⟩,
        fun _ _ => hbs hcur⟩
    | projected _ hcom =>
      obtain ⟨hg, hp⟩ := committed_kept hcom
      refine ⟨⟨hcom.retainedProjection, h.grows.trans hg, h.placement.trans hp, fun _ => ?_⟩,
        fun _ _ => ?_⟩
      · exact (congrFun hcom.retainedIgnoredDeltaCursors _).trans (Function.update_self ..)
      · obtain ⟨u, v, _, hf, -⟩ := hcom.projected
        obtain ⟨row, hr⟩ := folded_row hf
        exact h.row hr

theorem flush_kept {r : Except HrcError Nat} (h : Kept start invocationId s)
    (hr : flushIgnoredDeltas invocationId true s = (r, t)) : Kept start invocationId t := by
  have hout : Outcome s (.flush true invocationId) _ _ := flush_outcome
  have hc : (Call.flush true invocationId).run s = (flushIgnoredDeltas invocationId true >>= fun _ =>
    (pure none : M (Option BrokerProjectionResult))) s := rfl
  rw [hc] at hout
  cases r with
  | error e =>
    rw [bind_error hr] at hout
    cases hout with
    | thrown hq => exact h.quiet hq
  | ok n =>
    rw [bind_ok hr] at hout
    cases hout with
    | idle => exact h
    | @flushed _ _ u hu _ hf =>
      obtain ⟨hg, hp⟩ := folded_kept hf
      exact ⟨hu.retainedProjection.trans h.retainedProjection, h.grows.trans hg,
        h.placement.trans hp, fun _ => Function.update_self ..⟩

omit [Host] in
theorem writes_kept {α : Type} {m : M α} (hm : Writes (fun _ w => isCursorWrite w = false) m)
    (h : Kept start invocationId s) : Kept start invocationId (m s).2 :=
  (hm s).preserves (fun a b hs ha => by
    cases hs with
    | quiet hq => exact ha.quiet hq
    | write w hw hr =>
      exact ⟨ha.retainedProjection, ha.grows.trans (.of_same (dispositions_of_other hr hw)
        (lastProjectedBrokerSeq_of_other hr hw)), ha.placement.trans (write_samePlacement hr), ha.absent⟩) h

theorem recordInvocationHistory_writes {runtimeId : String} {at' : String} :
    Writes (fun _ w => isCursorWrite w = false) (recordInvocationHistory runtimeId envelope at') := by
  refine Emits.bind (statement_writes fun _ => rfl) fun _ => Emits.when ?_
  exact Emits.bind (Emits.of_readOnly (query_readOnly _)) fun _ =>
    Emits.forEach fun _ => statement_writes fun _ => rfl

theorem projectEvent_kept {target : Target} {r : Except HrcError Unit}
    (h : Kept start invocationId s) (hid : envelope.invocationId = invocationId)
    (hrun : projectEvent target envelope s = (r, t)) :
    Kept start invocationId t ∧ (r = .ok () → getByInvocationId start invocationId ≠ none) := by
  unfold projectEvent at hrun
  rcases happ : applyRetained envelope s with ⟨e | result, u⟩
  · rw [bind_error happ] at hrun
    cases hrun
    refine ⟨(applyRetained_kept h hid happ).1, fun heq => ?_⟩
    cases heq
  · obtain ⟨hu, hr⟩ := applyRetained_kept h hid happ
    rw [bind_ok happ] at hrun
    refine ⟨?_, fun _ => hr _ rfl⟩
    have hk := writes_kept (m := Prog.when (!result.ignoredDelta) do
      Prog.when (!result.idempotent) (now >>= recordInvocationHistory target.runtimeId envelope)
      Prog.forEach result.lifecycleEvents fun _ => effect) (Emits.when (Emits.bind
        (Emits.when (Emits.bind now_writes fun _ => recordInvocationHistory_writes)) fun _ =>
        Emits.forEach fun _ => effect_writes)) hu
    rwa [hrun] at hk

theorem projectPage_kept {target : Target} {loop : Loop} {currentSeq : Nat}
    {envelopes : List InvocationEventEnvelope} {r : Except HrcError (Option AttemptResult)}
    (h : Kept start invocationId s) (hid : ∀ envelope ∈ envelopes, envelope.invocationId = invocationId)
    (hrun : projectPage target loop currentSeq envelopes s = (r, t)) :
    Kept start invocationId t ∧ (r = .ok none → envelopes ≠ [] → getByInvocationId start invocationId ≠ none) ∧
      ∀ result, r = .ok (some result) → result.outcome = "projection_halted" := by
  induction envelopes generalizing s with
  | nil =>
    cases hrun
    exact ⟨h, fun _ hne => absurd rfl hne, nofun⟩
  | cons envelope envelopes ih =>
    have hhd := hid envelope List.mem_cons_self
    rw [projectPage] at hrun
    rcases hev : projectEvent target envelope s with ⟨e | _, u⟩
    · have hu := (projectEvent_kept h hhd hev).1
      rw [bind_ok (show Prog.catchWith _ _ s = (.ok (some _), u) by
        unfold Prog.catchWith
        rw [bind_error hev]
        rfl)] at hrun
      cases hrun
      refine ⟨hu, nofun, fun _ heq => ?_⟩
      cases heq
      rfl
    · obtain ⟨hu, hr⟩ := projectEvent_kept h hhd hev
      rw [bind_ok (show Prog.catchWith _ _ s = (.ok none, u) by
        unfold Prog.catchWith
        rw [bind_ok hev]
        rfl)] at hrun
      obtain ⟨ht, -, hh⟩ := ih hu (fun e he => hid e (List.mem_cons_of_mem _ he)) hrun
      exact ⟨ht, fun _ _ => hr rfl, hh⟩

end Calls

section Refusals

variable {α β : Type}

def Refuses (m : Except Refused α) : Prop :=
  ∀ refused, m = .error refused →
    refused.outcome = "reader_contract_violation" ∨ refused.outcome = "reader_release_mismatch"

theorem Refuses.pure (a : α) : Refuses (Pure.pure a : Except Refused α) := fun _ h => by cases h

theorem Refuses.violation {why : String} {extra : List (String × Value)} :
    Refuses (.error (contractViolation why extra) : Except Refused α) := by
  intro refused h
  cases h
  exact .inl rfl

theorem Refuses.bind {m : Except Refused α} {f : α → Except Refused β} (hm : Refuses m) (hf : ∀ a, Refuses (f a)) :
    Refuses (m >>= f) := by
  intro refused h
  cases m with
  | error e =>
    cases h
    exact hm _ rfl
  | ok a => exact hf a refused h

theorem Refuses.demand {ok : Bool} {refused : Refused} (h : Refuses (.error refused : Except Refused Unit)) :
    Refuses (demand ok refused) := by
  cases ok with
  | false => exact h
  | true => exact Refuses.pure ()

theorem Refuses.demandNone {problem : Option String} {refused : String → Refused}
    (h : ∀ problem, Refuses (.error (refused problem) : Except Refused Unit)) : Refuses (demandNone problem refused) := by
  cases problem with
  | none => exact Refuses.pure ()
  | some problem => exact h problem

theorem Refuses.demandSome {value : Option α} {refused : Refused} (h : Refuses (.error refused : Except Refused α)) :
    Refuses (demandSome value refused) := by
  cases value with
  | none => exact h
  | some a => exact Refuses.pure a

theorem releaseMismatch_refuses (detail : List (String × Value)) :
    Refuses (.error { outcome := "reader_release_mismatch", detail } : Except Refused α) := by
  intro refused h
  cases h
  exact .inr rfl

theorem validateShape_refuses (response : Members) (expected : ReleaseIdentity) :
    Refuses (validateShape response expected) := by
  unfold validateShape
  dsimp only
  refine (Refuses.demand (.violation)).bind fun _ => ?_
  refine (Refuses.demand (releaseMismatch_refuses _)).bind fun _ => ?_
  refine (Refuses.demand (.violation)).bind fun _ => ?_
  refine (Refuses.demand (.violation)).bind fun _ => ?_
  refine (Refuses.demandNone fun _ => .violation).bind fun _ => ?_
  refine (Refuses.demandNone fun _ => .violation).bind fun _ => ?_
  refine (Refuses.demandSome (.violation)).bind fun result => ?_
  refine (Refuses.demandNone fun _ => .violation).bind fun _ => ?_
  refine (Refuses.demand (.violation)).bind fun _ => ?_
  refine (Refuses.demandSome (.violation)).bind fun _ => ?_
  refine (Refuses.demandSome (.violation)).bind fun _ => ?_
  refine (Refuses.demandSome (.violation)).bind fun _ => ?_
  refine (Refuses.demandSome (.violation)).bind fun _ => ?_
  refine (Refuses.demandSome (.violation)).bind fun _ => ?_
  refine (Refuses.demandNone fun _ => .violation).bind fun _ => ?_
  exact (Refuses.demandNone fun _ => .violation).bind fun _ => Refuses.pure _

variable {validateEventEnvelope : Value → Except String InvocationEventEnvelope}

theorem validateEvents_refuses (invocationId : String) (currentSeq : Nat) (raws : List Value) (first : Nat) :
    Refuses (validateEvents validateEventEnvelope invocationId currentSeq raws first) := by
  induction raws generalizing first with
  | nil => exact Refuses.pure _
  | cons raw raws ih =>
    have hr : Refuses (readEnvelope validateEventEnvelope raw first) := by
      unfold readEnvelope
      split
      · exact Refuses.pure _
      · exact .violation
    rw [validateEvents]
    refine hr.bind fun envelope => (Refuses.demand (.violation)).bind fun _ => ?_
    refine (Refuses.demand (.violation)).bind fun _ => (Refuses.demand (.violation)).bind fun _ => ?_
    exact (ih (first + 1)).bind fun _ => Refuses.pure _

theorem validateOfflineEvidencePage_refuses (response : Members) (expected : ReleaseIdentity) (invocationId : String)
    (afterSeq : Nat) :
    Refuses (validateOfflineEvidencePage validateEventEnvelope response expected invocationId afterSeq) := by
  unfold validateOfflineEvidencePage
  dsimp only
  refine (validateShape_refuses _ _).bind fun page => (Refuses.demand (.violation)).bind fun _ => ?_
  refine (Refuses.demand (.violation)).bind fun _ => (Refuses.demand (.violation)).bind fun _ => ?_
  refine (validateEvents_refuses _ _ _ _).bind fun _ => (Refuses.demand (.violation)).bind fun _ => ?_
  exact (Refuses.demand (.violation)).bind fun _ => (Refuses.demand (.violation)).bind fun _ => Refuses.pure _

theorem validateOfflineEvidenceTypedError_refuses (response : Members) (expected : ReleaseIdentity) :
    Refuses (validateOfflineEvidenceTypedError response expected) := by
  unfold validateOfflineEvidenceTypedError
  dsimp only
  refine (Refuses.demand (.violation)).bind fun _ => ?_
  refine (Refuses.demand (releaseMismatch_refuses _)).bind fun _ => ?_
  refine (Refuses.demand (.violation)).bind fun _ => ?_
  refine (Refuses.demandNone fun _ => .violation).bind fun _ => ?_
  refine (Refuses.demand (.violation)).bind fun _ => ?_
  refine (Refuses.demandNone fun _ => .violation).bind fun _ => ?_
  refine (Refuses.demandSome (.violation)).bind fun error => ?_
  refine (Refuses.demandNone fun _ => .violation).bind fun _ => ?_
  refine (Refuses.demandSome (.violation)).bind fun code => ?_
  refine (Refuses.demand (.violation)).bind fun _ => ?_
  exact (Refuses.demand (.violation)).bind fun _ => (Refuses.demand (.violation)).bind fun _ => Refuses.pure _

theorem validateOfflineEvidenceTypedError_code {response : Members} {expected : ReleaseIdentity} {code : String}
    {error : Value} (h : validateOfflineEvidenceTypedError response expected = .ok (code, error)) :
    code ∈ eventsSinceErrorCodes := by
  unfold validateOfflineEvidenceTypedError at h
  dsimp only at h
  obtain ⟨-, h⟩ := demand_bind_eq_ok.mp h
  obtain ⟨-, h⟩ := demand_bind_eq_ok.mp h
  obtain ⟨-, h⟩ := demand_bind_eq_ok.mp h
  obtain ⟨-, h⟩ := demandNone_bind_eq_ok.mp h
  obtain ⟨-, h⟩ := demand_bind_eq_ok.mp h
  obtain ⟨-, h⟩ := demandNone_bind_eq_ok.mp h
  obtain ⟨_, -, h⟩ := demandSome_bind_eq_ok.mp h
  obtain ⟨-, h⟩ := demandNone_bind_eq_ok.mp h
  obtain ⟨_, -, h⟩ := demandSome_bind_eq_ok.mp h
  obtain ⟨hc, h⟩ := demand_bind_eq_ok.mp h
  obtain ⟨-, h⟩ := demand_bind_eq_ok.mp h
  obtain ⟨-, h⟩ := demand_bind_eq_ok.mp h
  cases h
  exact List.contains_iff_mem.mp hc

end Refusals

section Pages

variable {invocationId : String} {afterSeq : Nat} {fence : Option Fence} {page : ValidPage} {pages : List ValidPage}

def throughSeq : Nat → List ValidPage → Nat
  | afterSeq, [] => afterSeq
  | _, page :: pages => throughSeq page.nextAfterSeq pages

structure Paged (invocationId : String) (afterSeq : Nat) (fence : Option Fence) (pages : List ValidPage) : Prop where
  seqs : (pages.flatMap (·.events)).map (·.seq) = List.range' (afterSeq + 1) (throughSeq afterSeq pages - afterSeq)
  advances : afterSeq ≤ throughSeq afterSeq pages
  invocation : ∀ envelope ∈ pages.flatMap (·.events), envelope.invocationId = invocationId
  fenced : ∀ page ∈ pages, sameSnapshot fence page = true
  snapshot : ∀ page ∈ pages, ∀ page' ∈ pages, page.currentSeq = page'.currentSeq ∧
    page.snapshot.stringify = page'.snapshot.stringify
  rising : List.IsChain (· < ·) (afterSeq :: (pages.filter (·.hasMore)).map (·.nextAfterSeq))
  final : ∀ page ∈ pages.dropLast, page.hasMore = true
  complete : ∀ page, pages.getLast? = some page → (page.hasMore = false ↔ throughSeq afterSeq pages = page.currentSeq)

theorem Paged.nil : Paged invocationId afterSeq fence [] := by
  refine ⟨?_, Nat.le_refl _, ?_, ?_, ?_, .singleton _, ?_, ?_⟩
  · rw [show throughSeq afterSeq [] - afterSeq = 0 from Nat.sub_self _]
    rfl
  · exact List.forall_mem_nil _
  · exact List.forall_mem_nil _
  · exact List.forall_mem_nil _
  · exact List.forall_mem_nil _
  · intro page h
    cases h

def fenceAfter (fence : Option Fence) (page : ValidPage) : Option Fence :=
  fence.or (some { snapshot := some page.snapshot, currentSeq := .int page.currentSeq })

theorem sameSnapshot_some {f : Fence} :
    sameSnapshot (some f) page = true ↔ f.currentSeq = .int page.currentSeq ∧
      f.snapshot.map Value.stringify = some page.snapshot.stringify := by
  unfold sameSnapshot
  rw [Option.all_some, Bool.and_eq_true, beq_iff_eq, beq_iff_eq]

theorem sameSnapshot_fenceAfter {page' : ValidPage} (h : sameSnapshot fence page = true)
    (h' : sameSnapshot (fenceAfter fence page) page' = true) :
    sameSnapshot fence page' = true ∧ page.currentSeq = page'.currentSeq ∧
      page.snapshot.stringify = page'.snapshot.stringify := by
  cases fence with
  | none =>
    obtain ⟨hs, hsn⟩ := sameSnapshot_some.mp h'
    exact ⟨rfl, Int.ofNat.inj (Number.int.inj hs), Option.some.inj hsn⟩
  | some f =>
    obtain ⟨hs, hsn⟩ := sameSnapshot_some.mp h
    obtain ⟨hs', hsn'⟩ := sameSnapshot_some.mp (show sameSnapshot (some f) page' = true from h')
    exact ⟨h', Int.ofNat.inj (Number.int.inj (hs.symm.trans hs')),
      Option.some.inj (hsn.symm.trans hsn')⟩

theorem Paged.cons (hpg : Exact invocationId afterSeq page) (hf : sameSnapshot fence page = true)
    (hmr : pages ≠ [] → page.hasMore = true)
    (h : Paged invocationId page.nextAfterSeq (fenceAfter fence page) pages) :
    Paged invocationId afterSeq fence (page :: pages) := by
  have hadv := hpg.advances
  have hls := h.advances
  have hs (page' : ValidPage) (hp : page' ∈ pages) := sameSnapshot_fenceAfter hf (h.fenced page' hp)
  refine ⟨?_, Nat.le_trans hadv hls, ?_, ?_, ?_, ?_, ?_, ?_⟩
  · rw [List.flatMap_cons, List.map_append, hpg.seqs, h.seqs, throughSeq,
      show throughSeq page.nextAfterSeq pages - afterSeq = (page.nextAfterSeq - afterSeq)
        + (throughSeq page.nextAfterSeq pages - page.nextAfterSeq) by omega, ← List.range'_append_1]
    rw [show afterSeq + 1 + (page.nextAfterSeq - afterSeq) = page.nextAfterSeq + 1 by omega]
  · intro envelope he
    rw [List.flatMap_cons, List.mem_append] at he
    exact he.elim (hpg.invocation envelope) (h.invocation envelope)
  · exact List.forall_mem_cons.mpr ⟨hf, fun page' hp => (hs page' hp).1⟩
  · refine List.forall_mem_cons.mpr ⟨List.forall_mem_cons.mpr ⟨⟨rfl, rfl⟩, fun b hb => (hs b hb).2⟩, ?_⟩
    intro a ha
    refine List.forall_mem_cons.mpr ⟨?_, h.snapshot a ha⟩
    exact ⟨(hs a ha).2.1.symm, (hs a ha).2.2.symm⟩
  · cases hm : page.hasMore with
    | true =>
      rw [List.filter_cons_of_pos hm, List.map_cons, List.isChain_cons_cons]
      exact ⟨hpg.progress hm, h.rising⟩
    | false =>
      have hnil : pages = [] := by
        by_contra hne
        exact absurd (hmr hne) (by rw [hm]; exact Bool.false_ne_true)
      subst hnil
      rw [List.filter_cons_of_neg (by rw [hm]; exact Bool.false_ne_true)]
      exact .singleton _
  · cases pages with
    | nil => exact nofun
    | cons page' pages =>
      rw [List.dropLast_cons_cons]
      exact List.forall_mem_cons.mpr ⟨hmr (List.cons_ne_nil _ _), h.final⟩
  · intro last hl
    cases pages with
    | nil =>
      obtain rfl : page = last := by simpa using hl
      have hbnd := hpg.bounded
      rw [← Bool.not_eq_true, hpg.hasMore]
      constructor <;> intro hn <;> unfold throughSeq throughSeq at * <;> omega
    | cons page' pages =>
      rw [List.getLast?_cons_cons] at hl
      exact h.complete last hl

end Pages

section Turn

variable {reply : Nat → ReaderCall} {elapsed : Nat → Int}
  {validateEventEnvelope : Value → Except String InvocationEventEnvelope}
  {target : Target} {loop : Loop} {page : ValidPage}

theorem readPage_ok {db : Db} (h : readPage reply validateEventEnvelope target loop db = .ok page) :
    Exact target.invocationId loop.afterSeq page ∧ sameSnapshot loop.firstPage page = true := by
  unfold readPage at h
  dsimp only at h
  split at h
  · cases h
  · split at h <;> cases h
  · split at h
    · cases h
    · rename_i hv
      split at h
      · rename_i hs
        cases h
        exact ⟨validateOfflineEvidencePage_exact hv, hs⟩
      · cases h

theorem readPage_error {db : Db} {result : AttemptResult}
    (h : readPage reply validateEventEnvelope target loop db = .error result) :
    result.outcome ∈ unrecoveredOutcomes := by
  have hr {outcome : String} (h : outcome = "reader_contract_violation" ∨ outcome = "reader_release_mismatch") :
      outcome ∈ unrecoveredOutcomes := by
    rcases h with rfl | rfl <;> decide
  unfold readPage at h
  dsimp only at h
  split at h
  · rename_i outcome _ _
    cases h
    have hf : ∀ outcome : ReaderFailure, outcome.text ∈ unrecoveredOutcomes := fun outcome => by
      cases outcome <;> decide
    exact hf outcome
  · split at h
    · rename_i hi
      cases h
      exact hr (validateOfflineEvidenceTypedError_refuses _ _ _ hi)
    · rename_i code _ hv
      cases h
      exact List.mem_append_left _ (validateOfflineEvidenceTypedError_code hv)
  · split at h
    · rename_i hi
      cases h
      exact hr (validateOfflineEvidencePage_refuses _ _ _ _ _ hi)
    · split at h
      · cases h
      · cases h
        exact (by decide : "ledger_snapshot_unstable" ∈ unrecoveredOutcomes)

theorem finish_outcome {cursor : Nat} :
    (finish target loop page cursor).outcome ∈ unrecoveredOutcomes ∨
      (finish target loop page cursor).outcome = "recovered" ∧ cursor = page.currentSeq := by
  unfold finish
  dsimp only
  split
  · exact .inl (by decide : "reader_contract_violation" ∈ unrecoveredOutcomes)
  · rename_i hc
    dsimp only
    split
    · exact .inl (by decide)
    · exact .inr ⟨rfl, by simpa using hc⟩

variable [Host] {start : Db} {s t : BrokerEventMapper}

/-- What becomes of an accepted page. -/
theorem takePage_kept {r : Except HrcError (Option AttemptResult)} (hp : Exact target.invocationId loop.afterSeq page)
    (h : Kept start target.invocationId s) (hrun : takePage reply elapsed target loop page s = (r, t)) :
    Kept start target.invocationId t ∧
      (r = .ok none → page.hasMore = true ∧ getByInvocationId start target.invocationId ≠ none) ∧
      ∀ result, r = .ok (some result) → result.outcome ∈ unrecoveredOutcomes ∨
        result.outcome = "recovered" ∧ page.hasMore = false ∧
          projectedThrough t.db target.invocationId page.nextAfterSeq = page.currentSeq ∧
          (page.events ≠ [] → getByInvocationId start target.invocationId ≠ none) := by
  unfold takePage at hrun
  rcases hproj : projectPage target loop page.currentSeq page.events s with ⟨e | hal, u⟩
  · rw [bind_error hproj] at hrun
    cases hrun
    exact ⟨(projectPage_kept h hp.invocation hproj).1, fun heq => (by cases heq), fun _ heq => (by cases heq)⟩
  obtain ⟨hu, hr, hh⟩ := projectPage_kept h hp.invocation hproj
  rw [bind_ok hproj] at hrun
  cases hal with
  | some result =>
    cases hrun
    refine ⟨hu, fun heq => (by cases heq), fun _ heq => .inl ?_⟩
    cases heq
    rw [hh _ rfl]
    decide
  | none =>
    dsimp only at hrun
    rcases hfl : flushIgnoredDeltas target.invocationId true u with ⟨e | n, v⟩
    · rw [bind_error hfl] at hrun
      cases hrun
      exact ⟨flush_kept hu hfl, fun heq => (by cases heq), fun _ heq => (by cases heq)⟩
    rw [bind_ok hfl, query_bind] at hrun
    have hv := flush_kept hu hfl
    cases hm : page.hasMore with
    | false =>
      rw [hm] at hrun
      cases hrun
      refine ⟨hv, fun heq => (by cases heq), fun _ heq => ?_⟩
      cases heq
      exact finish_outcome.imp_right fun ⟨hout, hc⟩ => ⟨hout, rfl, hc, hr rfl⟩
    | true =>
      have hne : page.events ≠ [] := by
        intro hn
        have hpr := hp.progress hm
        have hl := congrArg List.length hp.seqs
        rw [hn, List.map_nil, List.length_nil, List.length_range'] at hl
        omega
      rw [hm, Bool.not_true, if_neg Bool.false_ne_true] at hrun
      split at hrun
      · cases hrun
        refine ⟨hv, fun heq => (by cases heq), fun _ heq => .inl ?_⟩
        cases heq
        exact (by decide : "in_progress" ∈ unrecoveredOutcomes)
      · cases hrun
        exact ⟨hv, fun _ => ⟨rfl, hr rfl hne⟩, fun _ heq => (by cases heq)⟩

end Turn

section Runs

variable [Host] {reply : Nat → ReaderCall} {elapsed : Nat → Int}
  {validateEventEnvelope : Value → Except String InvocationEventEnvelope}
  {target : Target} {loop : Loop} {start : Db} {s : BrokerEventMapper} {attempt : Attempt}

def Recovered (start : Db) (invocationId : String) (attempt : Attempt) : Prop :=
  ∃ page, attempt.accepted.getLast? = some page ∧ page.hasMore = false ∧
    lastProjectedBrokerSeq attempt.state.db invocationId = page.currentSeq ∧
    ∀ q, lastProjectedBrokerSeq start invocationId < q → q ≤ page.currentSeq →
      (getProjectionDisposition attempt.state.db invocationId q).isSome = true

omit [Host] in
theorem recovered_single {page : ValidPage} (hp : Exact target.invocationId loop.afterSeq page)
    (hsta : getByInvocationId start target.invocationId = none → loop.afterSeq = 0)
    (h : Kept start target.invocationId s) (hm : page.hasMore = false)
    (hc : projectedThrough s.db target.invocationId page.nextAfterSeq = page.currentSeq)
    (hr : page.events ≠ [] → getByInvocationId start target.invocationId ≠ none)
    {result : Except HrcError AttemptResult} :
    Recovered start target.invocationId { accepted := [page], result, state := s } := by
  have hl : lastProjectedBrokerSeq s.db target.invocationId = page.currentSeq := by
    unfold projectedThrough at hc
    unfold lastProjectedBrokerSeq
    cases hs : getByInvocationId s.db target.invocationId with
    | some row =>
      rw [hs] at hc
      exact hc
    | none =>
      have hnn : getByInvocationId start target.invocationId = none := by
        have hid := getByInvocationId_identity h.placement target.invocationId
        rw [hs, Option.map_none] at hid
        exact Option.map_eq_none_iff.mp hid.symm
      have hn : page.events = [] := by
        by_contra hne
        exact hr hne hnn
      have hlen := congrArg List.length hp.seqs
      rw [hn, List.map_nil, List.length_nil, List.length_range'] at hlen
      have hadv := hp.advances
      have hz := hsta hnn
      rw [hs] at hc
      rw [← hc]
      simp only [Option.map_none, Option.getD_none]
      omega
  exact ⟨page, rfl, hm, hl, fun q hlo hhi => h.grows.covered _ _ hlo (by rw [hl]; exact hhi)⟩

/-- The pages a run of the loop accepts, and what a recovered one has projected. -/
theorem readPages_paged {fuel : Nat} (h : Kept start target.invocationId s)
    (hsta : getByInvocationId start target.invocationId = none → loop.afterSeq = 0)
    (hrun : readPages reply elapsed validateEventEnvelope target fuel loop s = some attempt) :
    Paged target.invocationId loop.afterSeq loop.firstPage attempt.accepted ∧
      ∀ result, attempt.result = .ok result → result.outcome ∈ unrecoveredOutcomes ∨
        result.outcome = "recovered" ∧ Recovered start target.invocationId attempt := by
  induction fuel generalizing loop s attempt with
  | zero => cases hrun
  | succ fuel ih =>
    rw [readPages] at hrun
    cases hr : readPage reply validateEventEnvelope target loop s.db with
    | error result =>
      rw [hr] at hrun
      cases hrun
      refine ⟨.nil, fun _ heq => .inl ?_⟩
      cases heq
      exact readPage_error hr
    | ok page =>
      obtain ⟨hp, hs⟩ := readPage_ok hr
      have hsn : Paged target.invocationId loop.afterSeq loop.firstPage [page] :=
        .cons hp hs (fun hne => absurd rfl hne) .nil
      rw [hr] at hrun
      dsimp only at hrun
      rcases htk : takePage reply elapsed target loop page s with ⟨e | (_ | result), t⟩
      · rw [htk] at hrun
        cases hrun
        exact ⟨hsn, fun _ heq => (by cases heq)⟩
      · obtain ⟨ht, hn, -⟩ := takePage_kept hp h htk
        obtain ⟨hm, hrow⟩ := hn rfl
        rw [htk] at hrun
        obtain ⟨rest, hrs, rfl⟩ := Option.map_eq_some_iff.mp hrun
        obtain ⟨hpg, hrec⟩ := ih ht (fun hnn => absurd hnn hrow) hrs
        refine ⟨.cons hp hs (fun _ => hm) hpg, fun result heq => (hrec result heq).imp_right ?_⟩
        rintro ⟨hout, last, hl, hf⟩
        refine ⟨hout, last, ?_, hf⟩
        rw [List.getLast?_cons, hl]
        rfl
      · obtain ⟨ht, -, hres⟩ := takePage_kept hp h htk
        rw [htk] at hrun
        cases hrun
        refine ⟨hsn, fun _ heq => ?_⟩
        cases heq
        exact (hres _ rfl).imp_right fun ⟨hout, hm, hc, hrow⟩ =>
          ⟨hout, recovered_single hp hsta ht hm hc hrow⟩

theorem readPages_returns (reply : Nat → ReaderCall) (elapsed : Nat → Int)
    (validateEventEnvelope : Value → Except String InvocationEventEnvelope) (loop : Loop) {fuel : Nat} (hf : 0 < fuel) (hbd : maxSafeInteger.toNat < fuel + loop.afterSeq)
    (h : Kept start target.invocationId s) :
    ∃ attempt, ∀ more, readPages reply elapsed validateEventEnvelope target (fuel + more) loop s = some attempt := by
  induction fuel generalizing loop s with
  | zero => exact absurd hf (Nat.lt_irrefl 0)
  | succ fuel ih =>
    simp only [Nat.succ_add, readPages]
    cases hr : readPage reply validateEventEnvelope target loop s.db with
    | error result => exact ⟨_, fun _ => rfl⟩
    | ok page =>
      obtain ⟨hp, -⟩ := readPage_ok hr
      dsimp only
      rcases htk : takePage reply elapsed target loop page s with ⟨e | (_ | result), t⟩
      · exact ⟨_, fun _ => rfl⟩
      · obtain ⟨ht, hn, -⟩ := takePage_kept hp h htk
        obtain ⟨hm, -⟩ := hn rfl
        have hpr := hp.progress hm
        have hsh := hp.hasMore.mp hm
        have hs := hp.safe
        obtain ⟨rest, hrs⟩ := ih (loop.next reply page) (s := t) (by omega)
          (show maxSafeInteger.toNat < fuel + page.nextAfterSeq by omega) ht
        exact ⟨_, fun more => congrArg (Option.map fun attempt : Attempt =>
          { attempt with accepted := page :: attempt.accepted }) (hrs more)⟩
      · exact ⟨_, fun _ => rfl⟩

/-- What an attempt guarantees: the pages it accepted continue one another from the projected cursor, and one that
has recovered its evidence has projected every number up to the end of the ledger. -/
structure Reads (start : Db) (runtime : HrcRuntimeSnapshot) (invocationId : String) (prior : Option PriorOutcome)
    (attempt : Attempt) : Prop where
  paged : Paged invocationId (lastProjectedBrokerSeq start invocationId) (resumeFence prior) attempt.accepted
  recovered : ∀ result, attempt.result = .ok result → result.outcome = "recovered" → Recovered start invocationId attempt
  outcome : ∀ result, attempt.result = .ok result → result.outcome ∈ attemptOutcomes runtime

variable {runtime : HrcRuntimeSnapshot}

omit [Host] in
theorem attemptOutcomes_bound {release : ReleaseIdentity}
    (h : persistedAspdExecutionRelease runtime = some release) :
    attemptOutcomes runtime = "recovered" :: unrecoveredOutcomes := by
  unfold attemptOutcomes
  rw [h]

omit [Host] in
theorem unread_reads {invocationId outcome : String} {detail : List (String × Value)}
    {prior : Option PriorOutcome} (h : outcome ≠ "recovered") (hm : outcome ∈ attemptOutcomes runtime) :
    Reads s.db runtime invocationId prior (unread s invocationId outcome detail) := by
  refine ⟨.nil, fun result heq hout => ?_, fun result heq => ?_⟩
  · cases heq
    exact absurd hout h
  · cases heq
    exact hm

theorem startLoop_reads (reply : Nat → ReaderCall) (elapsed : Nat → Int)
    (validateEventEnvelope : Value → Except String InvocationEventEnvelope) (target : Target)
    (prior : Option PriorOutcome) (s : BrokerEventMapper)
    (hbd : attemptOutcomes runtime = "recovered" :: unrecoveredOutcomes) :
    ∃ attempt, (∀ fuel, maxSafeInteger.toNat < fuel → readPages reply elapsed validateEventEnvelope target fuel
      (startLoop s.db target.invocationId prior) (newMapper s) = some attempt) ∧
        Reads s.db runtime target.invocationId prior attempt := by
  have hk := newMapper_kept s target.invocationId
  obtain ⟨attempt, hatt⟩ := readPages_returns reply elapsed validateEventEnvelope
    (startLoop s.db target.invocationId prior) (Nat.succ_pos maxSafeInteger.toNat)
    (Nat.lt_of_lt_of_le (Nat.lt_succ_self _) (Nat.le_add_right _ _)) hk
  have hz : getByInvocationId s.db target.invocationId = none →
      (startLoop s.db target.invocationId prior).afterSeq = 0 := by
    intro hn
    unfold startLoop projectedThrough
    rw [hn]
    rfl
  obtain ⟨hp, hres⟩ := readPages_paged hk hz (hatt 0)
  refine ⟨attempt, fun fuel hf => ?_, hp, fun result heq hout => ?_, fun result heq => ?_⟩
  · obtain ⟨more, rfl⟩ := Nat.exists_eq_add_of_le (Nat.succ_le_of_lt hf)
    exact hatt more
  · rcases hres result heq with hm | ⟨-, hr⟩
    · rw [hout] at hm
      exact absurd hm (by decide)
    · exact hr
  · rw [hbd, List.mem_cons]
    exact (hres result heq).symm.imp_left And.left

/-- A page is accepted only when it is exact. An attempt always ends; the pages it accepted continue one another
from the projected cursor, each on one snapshot, and reach its `currentSeq` when the last of them has no more
behind it; a recovered attempt ends on such a page, with every number up to it projected. -/
theorem offline_evidence_paging (reply : Nat → ReaderCall) (elapsed : Nat → Int)
    (validateEventEnvelope : Value → Except String InvocationEventEnvelope) (reader : Reader)
    (options : OfflineEvidenceOptions) (runtime : HrcRuntimeSnapshot) (invocationId : String)
    (prior : Option PriorOutcome) (s : BrokerEventMapper) :
    (∀ response expected invocationId afterSeq page,
      validateOfflineEvidencePage validateEventEnvelope response expected invocationId afterSeq = .ok page →
        Exact invocationId afterSeq page) ∧
      ∃ attempt, (∀ fuel, maxSafeInteger.toNat < fuel → readAndProject reply elapsed validateEventEnvelope reader
          options runtime invocationId prior fuel s = some attempt) ∧ Reads s.db runtime invocationId prior attempt := by
  refine ⟨fun _ _ _ _ _ h => validateOfflineEvidencePage_exact h, ?_⟩
  unfold readAndProject
  dsimp only
  split
  · rename_i hu
    refine ⟨_, fun _ _ => rfl, unread_reads (by decide) ?_⟩
    unfold attemptOutcomes
    rw [hu]
    exact List.mem_singleton_self _
  · rename_i hr
    have hbd := attemptOutcomes_bound hr
    split
    · exact ⟨_, fun _ _ => rfl, unread_reads (by decide) (by rw [hbd]; decide)⟩
    · exact ⟨_, fun _ _ => rfl, unread_reads (by decide) (by rw [hbd]; decide)⟩
    · exact ⟨_, fun _ _ => rfl, unread_reads (by decide) (by rw [hbd]; decide)⟩
    · exact ⟨_, fun _ _ => rfl, unread_reads (by decide) (by rw [hbd]; decide)⟩
    · exact startLoop_reads reply elapsed validateEventEnvelope
        { runtimeId := runtime.runtimeId, invocationId, release := _, options } prior s hbd

end Runs

section Sample

def sampleRelease : ReleaseIdentity := { releaseId := "release", sourceCommit := "commit", builtAt := "built" }

def sampleRuntime : HrcRuntimeSnapshot :=
  { runtimeId := "rt", hostSessionId := "host"
    runtimeStateJson := some (.object [("executionRelease", some (.object
      [("source", some (.str "aspd")), ("releaseId", some (.str "release")), ("sourceCommit", some (.str "commit")),
        ("builtAt", some (.str "built")), ("releaseRoot", some (.str "root")),
        ("worker", some (.object [("protocol", some (.str "p")), ("executable", some (.str "x")),
          ("argvPrefix", some (.array []))]))]))]) }

def sampleReader : Reader := { executable := .ok (), declared := some true, ledgerPath := some "ledger" }

def sampleFile : Value := .obj (.ofList [("ino", ofNat 1), ("size", ofNat 1), ("mtimeMs", ofNat 1)])

def samplePage : Members := .ofList
  [("schema", .str offlineEvidenceSchema), ("ok", .bool true), ("operation", .str "eventsSince"),
    ("release", sampleRelease.value),
    ("result", .obj (.ofList [("events", .arr (.cons .null .nil)), ("currentSeq", ofNat 2),
      ("retentionFloorSeq", ofNat 0)])),
    ("hasMore", .bool true), ("nextAfterSeq", ofNat 1),
    ("snapshot", .obj (.ofList [("ledger", sampleFile), ("index", .obj (.ofList [("db", sampleFile)]))])),
    ("integrity", .obj (.ofList [("status", .str "intact"), ("byteLength", ofNat 1)]))]

/-- An attempt stopped at the end of its slice has read a part of the ledger only. -/
theorem offline_evidence_slice :
    letI := steadyHost
    (readAndProject (fun _ => { answer := .ok samplePage, stdoutBytes := 1 }) (fun _ => 0)
        (fun _ => .ok (sampleEvent 1 .diagnostic)) sampleReader { sliceMaxPages := 1 } sampleRuntime "inv" none 2
        sampleMapper).map (fun attempt =>
      (attempt.result.toOption.map (·.outcome), attempt.accepted.map (·.currentSeq),
        (attempt.accepted.flatMap (·.events)).map (·.seq))) =
      some (some "in_progress", [2], [1]) := by
  decide +kernel

end Sample

end HrcRuntime.OfflineEvidencePaging
