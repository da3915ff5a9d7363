import HrcRuntime.ToolResultFence

namespace HrcRuntime.ToolResultRewrites

open Json Keyed KeysetPaging Records Mapper EventRepository LifecyclePayload
open Repositories.HrcEvents (lifecycleToolResultBlobId)

def Ledger.rank : Ledger → Nat
  | broker => 0
  | lifecycle => 1

def Phase.inHand : Phase → List Row
  | .visiting row rest _ => row :: rest
  | .writing _ _ _ rest _ => rest
  | _ => []

def Phase.ledger : Phase → Option Ledger
  | .selecting ledger => some ledger
  | .visiting row _ _ => some row.key.ledger
  | .writing _ _ ledger _ _ => some ledger
  | .stopped _ => none

def Phase.more : Phase → Bool
  | .selecting _ => true
  | .visiting _ _ full | .writing _ _ _ _ full => full
  | .stopped _ => false

section Keys

variable {db : Database} {operation : Operation} {ledger : Ledger} {last : Option Key} {rest : List Row} {row : Row} {full : Bool}
  {c : Call}

theorem rank_ledger (k : Key) : k.ledger.rank = k.rank := by cases k <;> rfl

theorem next_ne_writing {w : Write} {attempt : Nat} {ledger' : Ledger} {rest' : List Row} {full' : Bool} :
    Phase.next ledger rest full ≠ .writing w attempt ledger' rest' full' := by
  cases rest with
  | cons row rest => exact fun h => by cases h
  | nil =>
    unfold Phase.next
    dsimp only
    split
    · exact fun h => by cases h
    · cases ledger <;> exact fun h => by cases h

theorem order_last {l : List Key} {last : Key} (hs : l.Pairwise (·.order · = .lt)) (hl : l.getLast? = some last) {k : Key}
    (hk : k ∈ l) : k = last ∨ k.order last = .lt := by
  obtain ⟨init, rfl⟩ := List.getLast?_eq_some_iff.mp hl
  rcases List.mem_append.mp hk with hk | hk
  · exact .inr ((List.pairwise_append.mp hs).2.2 k hk last (List.mem_singleton_self _))
  · exact .inl (List.mem_singleton.mp hk)

theorem order_after {k key : Key} (hl : c.last = c.visited.getLast?) (hs : c.visited.Pairwise (·.order · = .lt))
    (haft : after c.last key = true) (hk : k ∈ c.visited) : k.order key = .lt := by
  obtain ⟨last, hg⟩ : ∃ last, c.visited.getLast? = some last := by
    cases hg : c.visited.getLast? with
    | some last => exact ⟨last, rfl⟩
    | none =>
      rw [List.getLast?_eq_none_iff.mp hg] at hk
      cases hk
  have hlt : last.order key = .lt := by
    unfold after at haft
    rw [hl, hg] at haft
    simpa using (Bool.and_eq_true_iff.mp haft).2
  rcases order_last hs hg hk with rfl | h
  · exact hlt
  · exact Std.TransCmp.lt_trans h hlt

theorem mem_candidates : row ∈ db.candidates operation ledger last ↔
    row ∈ db.events.rows ∧ row.key.ledger = ledger ∧ operation.isCandidate row = true ∧ after last row.key = true := by
  unfold Database.candidates
  rw [(perm_sortBy _ _).mem_iff, List.mem_filter]
  simp [and_assoc]

theorem strict_candidates :
    ((db.candidates operation ledger last).map (·.key)).Pairwise (·.order · = .lt) := by
  have := transCmp_on Key.order Row.key
  refine List.pairwise_map.mpr (strict_sortBy (fun a b : Row => a.key.order b.key) ?_)
  exact (List.Pairwise.filter _ (List.pairwise_map.mp db.events.nodup)).imp fun hne heq => hne (Key.eq_of_order heq)

end Keys

variable [Host]

structure Hand (db : Database) (operation : Operation) (visited : List Key) (ledger : Ledger) (rows : List Row) : Prop where
  held : ∀ r ∈ rows, ∃ r', db.events.find r.key = some r' ∧ Evolves r r'
  candidates : ∀ r ∈ rows, operation.isCandidate r = true
  ledgers : ∀ r ∈ rows, r.key.ledger = ledger
  sorted : (visited ++ rows.map (·.key)).Pairwise (·.order · = .lt)
  ranks : ∀ k ∈ visited, k.rank ≤ ledger.rank

structure Walk (db : Database) (c : Call) : Prop where
  last : c.last = c.visited.getLast?
  sorted : c.visited.Pairwise (·.order · = .lt)
  hand : ∀ ledger, c.phase.ledger = some ledger → Hand db c.operation c.visited ledger c.phase.inHand
  judged : ∀ w attempt ledger rest full, c.phase = .writing w attempt ledger rest full →
    Judged db w ∧ attempt ≤ c.budget.busyMaxRetries

def Inv (s : State) : Prop := ∀ id c, s.calls id = some c → Walk s.db c

section Hands

variable {db db' : Database} {operation : Operation} {visited : List Key} {ledger : Ledger} {rows rest : List Row} {row : Row}
  {full : Bool} {c : Call}

theorem Hand.mono (h : Hand db operation visited ledger rows) (hgr : Grown db db') :
    Hand db' operation visited ledger rows := by
  refine { h with held := fun r hr => ?_ }
  obtain ⟨r', hr', he⟩ := h.held r hr
  obtain ⟨r'', hr'', he'⟩ := hgr.rows _ r' hr'
  exact ⟨r'', hr'', he.trans he'⟩

theorem Walk.mono (h : Walk db c) (hgr : Grown db db') : Walk db' c :=
  { h with
    hand := fun ledger hl => (h.hand ledger hl).mono hgr
    judged := fun w attempt ledger rest full hph =>
      ⟨(h.judged w attempt ledger rest full hph).1.mono hgr, (h.judged w attempt ledger rest full hph).2⟩ }

theorem Hand.visit (h : Hand db operation visited ledger (row :: rest)) :
    Hand db operation (visited ++ [row.key]) ledger rest where
  held r hr := h.held r (List.mem_cons_of_mem _ hr)
  candidates r hr := h.candidates r (List.mem_cons_of_mem _ hr)
  ledgers r hr := h.ledgers r (List.mem_cons_of_mem _ hr)
  sorted := by
    rw [List.append_assoc]
    exact h.sorted
  ranks k hk := by
    rcases List.mem_append.mp hk with hk | hk
    · exact h.ranks k hk
    · rw [List.mem_singleton.mp hk, ← rank_ledger, h.ledgers row List.mem_cons_self]

theorem Hand.next (h : Hand db operation visited ledger rest) (ledger' : Ledger)
    (hl : (Phase.next ledger rest full).ledger = some ledger') :
    Hand db operation visited ledger' (Phase.next ledger rest full).inHand := by
  cases rest with
  | cons row rest =>
    have hrow := h.ledgers row List.mem_cons_self
    cases hl
    rw [hrow]
    exact h
  | nil =>
    cases full with
    | true =>
      cases hl
      exact h
    | false =>
      cases ledger with
      | lifecycle => cases hl
      | broker =>
        cases hl
        exact { h with
          ledgers := fun _ hr => by cases hr
          ranks := fun k hk => (h.ranks k hk).trans (Nat.zero_le _) }

end Hands

section Visiting

variable {db : Database} {row : Row} {w : Write}

omit [Host] in
theorem sharedBlob_eq_some {runtimeId : String} {payload : Fields} {result : Json} {blob : ToolResultBlobRecord}
    (h : sharedBlob db runtimeId payload result = some blob) : db.blobs.find blob.blobId = some blob ∧ blob.complete = true ∧
      blob.kind = .brokerRaw ∧ deepEqual (toolResultFromBrokerResult (some blob.resultJson)) result = true := by
  unfold sharedBlob at h
  obtain ⟨hf, he⟩ := Option.filter_eq_some_iff.mp h
  obtain ⟨toolUseId, -, hf⟩ := Option.bind_eq_some_iff.mp hf
  obtain ⟨hf, hwh⟩ := Option.filter_eq_some_iff.mp hf
  rw [Bool.and_eq_true, decide_eq_true_eq] at hwh
  refine ⟨?_, hwh.1, hwh.2, he⟩
  rw [show blob.blobId = _ from (find_mem hf).2]
  exact hf

theorem judged_spillRow (hh : ∃ r', db.events.find row.key = some r' ∧ Evolves row r') (hfr : row.json.spill = none)
    (h : spillRow db row = .write w) : Judged db w := by
  unfold spillRow at h
  cases hv : row.json.value with
  | obj payload =>
    rw [hv] at h
    dsimp only at h
    cases hres : (payload.lookup "result").filter fun result => toolResultExceedsSpillThreshold (some result) with
    | none =>
      rw [hres] at h
      cases h
    | some result =>
      rw [hres] at h
      have hl := (Option.filter_eq_some_iff.mp hres).1
      cases row with
      | broker invocationId seq type runtimeId json =>
        cases h
        exact .broker ⟨hv, hl, hfr, hh⟩
      | lifecycle hrcSeq kind rowRuntimeId json =>
        dsimp only at h
        cases hrt : rowRuntimeId.filter fun id => !id.isEmpty with
        | none =>
          rw [hrt] at h
          cases h
        | some runtimeId =>
          rw [hrt] at h
          cases h
          have hf : Found db (.lifecycle hrcSeq kind rowRuntimeId json) payload result :=
            ⟨hv, hl, hfr, hh⟩
          cases hs : sharedBlob db runtimeId payload result with
          | none =>
            have hsp : lifecycleSpill db hrcSeq runtimeId payload result =
                { blobId := lifecycleToolResultBlobId hrcSeq, bytes := result.byteLength, kind := .lifecycleCanonical } := by
              unfold lifecycleSpill
              rw [hs]
            rw [hsp]
            exact .own hf rfl
          | some blob =>
            have hsp : lifecycleSpill db hrcSeq runtimeId payload result =
                { blobId := blob.blobId, bytes := blob.bytes, kind := .brokerRaw } := by
              unfold lifecycleSpill
              rw [hs]
            obtain ⟨hbl, hc, hr, he⟩ := sharedBlob_eq_some hs
            rw [hsp]
            exact .shared hf rfl hbl hc hr he
  | null => rw [hv] at h; cases h
  | bool b => rw [hv] at h; cases h
  | num n => rw [hv] at h; cases h
  | str s => rw [hv] at h; cases h
  | arr items => rw [hv] at h; cases h

theorem judged_restubRow (h : restubRow db row = .write w) : Judged db w := by
  unfold restubRow at h
  cases hv : row.json.value with
  | obj payload =>
    rw [hv] at h
    dsimp only at h
    cases hs : (payload.lookup "result").bind (validateAndRestub db) with
    | none =>
      rw [hs] at h
      cases h
    | some stub =>
      rw [hs] at h
      cases h
      obtain ⟨result, hl, hs⟩ := Option.bind_eq_some_iff.mp hs
      unfold validateAndRestub at hs
      obtain ⟨spill, hr, hs⟩ := Option.bind_eq_some_iff.mp hs
      obtain ⟨blob, hbl, hs⟩ := Option.bind_eq_some_iff.mp hs
      split at hs
      · rename_i hwh
        cases hs
        exact .restub hv hl hr hbl (Bool.and_eq_true_iff.mp hwh).1
      · cases hs
  | null => rw [hv] at h; cases h
  | bool b => rw [hv] at h; cases h
  | num n => rw [hv] at h; cases h
  | str s => rw [hv] at h; cases h
  | arr items => rw [hv] at h; cases h

theorem judged_visit {operation : Operation} (hh : ∃ r', db.events.find row.key = some r' ∧ Evolves row r')
    (hc : operation.isCandidate row = true) (h : operation.visit db row = .write w) : Judged db w := by
  cases operation with
  | restubToolResults => exact judged_restubRow h
  | spillToolResults =>
    refine judged_spillRow hh ?_ h
    unfold Operation.isCandidate at hc
    exact Option.isNone_iff_eq_none.mp (Bool.and_eq_true_iff.mp hc).2

end Visiting

section Steps

variable {s : State} {c : Call} {busy : Bool}

theorem grown_advance (busy : Bool) (h : Walk s.db c) : Grown s.db (s.advance c busy).1 := by
  unfold State.advance
  cases hph : c.phase with
  | selecting ledger => exact .refl _
  | visiting row rest full => exact .refl _
  | stopped reason => exact .refl _
  | writing w attempt ledger rest full =>
    dsimp only
    split
    · exact .refl _
    · cases hc : commit s.db w with
      | none => exact .refl _
      | some db => exact grown_commit (h.judged w attempt ledger rest full hph).1 hc

theorem hand_select {ledger : Ledger} (h : Walk s.db c) (hph : c.phase = .selecting ledger) (ledger' : Ledger)
    (hl : (s.select c ledger).ledger = some ledger') :
    Hand s.db c.operation c.visited ledger' (s.select c ledger).inHand := by
  have hh := h.hand ledger (by rw [hph]; rfl)
  rw [hph] at hh
  unfold State.select at hl ⊢
  split at hl
  · cases hl
  · rename_i hd
    rw [if_neg hd]
    cases hrw : (s.db.candidates c.operation ledger c.last).take c.batchSize.val with
    | nil =>
      rw [hrw] at hl
      have he : Hand s.db c.operation c.visited ledger [] := hh
      have hn : (Phase.next ledger [] false).ledger = some ledger' := hl
      exact he.next ledger' hn
    | cons row rest =>
      rw [hrw] at hl
      have hm : ∀ r ∈ row :: rest, r ∈ s.db.candidates c.operation ledger c.last := by
        intro r hr
        rw [← hrw] at hr
        exact List.mem_of_mem_take hr
      have hld : ∀ r ∈ row :: rest, r.key.ledger = ledger := fun r hr => (mem_candidates.mp (hm r hr)).2.1
      have hs : ledger = ledger' := (hld row List.mem_cons_self).symm.trans (Option.some.inj hl)
      subst hs
      refine ⟨fun r hr => ⟨r, find_of_mem (mem_candidates.mp (hm r hr)).1, .refl r⟩,
        fun r hr => (mem_candidates.mp (hm r hr)).2.2.1, hld, ?_, hh.ranks⟩
      refine List.pairwise_append.mpr ⟨h.sorted, ?_, fun k hk key hkey => ?_⟩
      · have ht := strict_candidates.sublist ((List.take_sublist c.batchSize.val
          (s.db.candidates c.operation ledger c.last)).map (·.key))
        rw [hrw] at ht
        exact ht
      · obtain ⟨r, hr, rfl⟩ := List.mem_map.mp hkey
        exact order_after h.last h.sorted (mem_candidates.mp (hm r hr)).2.2.2 hk

theorem hand_visit {row : Row} {rest : List Row} {full : Bool} (h : Walk s.db c) (hph : c.phase = .visiting row rest full)
    (ledger : Ledger) (hl : (s.visit c row rest full).ledger = some ledger) :
    Hand s.db c.operation (c.visited ++ [row.key]) ledger (s.visit c row rest full).inHand := by
  have hh := h.hand row.key.ledger (by rw [hph]; rfl)
  rw [hph] at hh
  have hn := hh.visit
  unfold State.visit at hl ⊢
  cases hv : c.operation.visit s.db row with
  | skip =>
    rw [hv] at hl
    exact hn.next ledger hl
  | fail =>
    rw [hv] at hl
    cases hl
  | write w =>
    rw [hv] at hl
    dsimp only at hl ⊢
    split at hl
    · rename_i happ
      rw [if_pos happ]
      exact hn.next ledger hl
    · rename_i happ
      rw [if_neg happ]
      split at hl
      · cases hl
      · rename_i hd
        rw [if_neg hd]
        cases hl
        exact hn

theorem judged_of_visit {row : Row} {rest : List Row} {full : Bool} (h : Walk s.db c) (hph : c.phase = .visiting row rest full)
    {w : Write} {attempt : Nat} {ledger : Ledger} {rest' : List Row} {full' : Bool}
    (hv : s.visit c row rest full = .writing w attempt ledger rest' full') : Judged s.db w ∧ attempt = 0 := by
  have hh := h.hand row.key.ledger (by rw [hph]; rfl)
  rw [hph] at hh
  unfold State.visit at hv
  cases hw : c.operation.visit s.db row with
  | skip =>
    rw [hw] at hv
    exact absurd hv next_ne_writing
  | fail =>
    rw [hw] at hv
    cases hv
  | write w' =>
    rw [hw] at hv
    dsimp only at hv
    split at hv
    · exact absurd hv next_ne_writing
    · split at hv
      · cases hv
      · cases hv
        exact ⟨judged_visit (hh.held row List.mem_cons_self) (hh.candidates row List.mem_cons_self) hw, rfl⟩

theorem Walk.advance (h : Walk s.db c) : Walk (s.advance c busy).1 (s.advance c busy).2 := by
  have hgr := grown_advance busy h
  unfold State.advance at hgr ⊢
  cases hph : c.phase with
  | selecting ledger =>
    refine ⟨h.last, h.sorted, hand_select h hph, fun w attempt ledger' rest full hwr => ?_⟩
    change s.select c ledger = _ at hwr
    unfold State.select at hwr
    split at hwr
    · cases hwr
    · split at hwr
      · exact absurd hwr (@next_ne_writing _ [] false _ _ _ _ _)
      · cases hwr
  | visiting row rest full =>
    have hh := h.hand row.key.ledger (by rw [hph]; rfl)
    rw [hph] at hh
    refine ⟨?_, ?_, hand_visit h hph, fun w attempt ledger' rest' full' hwr => ?_⟩
    · exact List.getLast?_concat.symm
    · exact (List.pairwise_append.mp hh.visit.sorted).1
    · obtain ⟨hj, rfl⟩ := judged_of_visit h hph hwr
      exact ⟨hj, Nat.zero_le _⟩
  | stopped reason =>
    dsimp only
    exact h
  | writing w attempt ledger rest full =>
    rw [hph] at hgr
    have hh := h.hand ledger (by rw [hph]; rfl)
    rw [hph] at hh
    obtain ⟨hj, hatt⟩ := h.judged w attempt ledger rest full hph
    dsimp only at hgr ⊢
    split
    · by_cases hr : c.budget.busyMaxRetries ≤ attempt
      · rw [if_pos hr]
        exact ⟨h.last, h.sorted, fun _ hl => (by cases hl), fun _ _ _ _ _ hwr => (by cases hwr)⟩
      · rw [if_neg hr]
        refine ⟨h.last, h.sorted, fun ledger' hl => ?_, fun w' attempt' ledger' rest' full' hwr => ?_⟩
        · cases hl
          exact hh
        · cases hwr
          exact ⟨hj, Nat.lt_of_not_le hr⟩
    · cases hc : commit s.db w with
      | none => exact ⟨h.last, h.sorted, fun _ hl => (by cases hl), fun _ _ _ _ _ hwr => (by cases hwr)⟩
      | some db =>
        have hgr : Grown s.db db := grown_commit hj hc
        refine ⟨h.last, h.sorted, fun ledger' hl => ?_, fun _ _ _ _ _ hwr => absurd hwr next_ne_writing⟩
        exact (hh.mono hgr).next ledger' hl

omit [Host] in
theorem grown_foldl {ρ κ : Type} {key : ρ → κ} [DecidableEq κ] (rows : List ρ) (t : Store ρ key) {k : κ} {r : ρ}
    (h : t.find k = some r) : (rows.foldl (·.add ·) t).find k = some r := by
  induction rows generalizing t with
  | nil => exact h
  | cons a rows ih => exact ih _ (find_add_of_some h)

theorem grown_step (a : Action) (hs : Inv s) : Grown s.db (step a s).db := by
  cases a with
  | begin id operation apply batchSize budget =>
    unfold step
    dsimp only
    split
    · exact .refl _
    · exact .refl _
  | clock now => exact .refl _
  | daemon rows blobs =>
    exact ⟨fun key row hr => ⟨row, grown_foldl rows _ hr, .refl row⟩, fun id blob hbl => grown_foldl blobs _ hbl⟩
  | advance id busy =>
    unfold step
    dsimp only
    cases hc : s.calls id with
    | none => exact .refl _
    | some c => exact grown_advance _ (hs id c hc)

theorem Inv.step (a : Action) (hs : Inv s) : Inv (step a s) := by
  have hgr := grown_step a hs
  intro id c hc
  cases a with
  | clock now => exact hs id c hc
  | daemon rows blobs => exact (hs id c hc).mono hgr
  | begin i operation apply batchSize budget =>
    unfold ToolResultRewrites.step at hc ⊢
    dsimp only at hc ⊢
    split at hc
    · rename_i hsm
      rw [if_pos hsm]
      exact hs id c hc
    · rename_i hn
      rw [if_neg hn]
      unfold State.put at hc
      dsimp only at hc
      split at hc
      · cases hc
        refine ⟨rfl, List.Pairwise.nil, fun ledger hl => ?_, fun _ _ _ _ _ hwr => (by cases hwr)⟩
        exact ⟨fun _ hr => (by cases hr), fun _ hr => (by cases hr), fun _ hr => (by cases hr), List.Pairwise.nil,
          fun _ hk => (by cases hk)⟩
      · exact hs id c hc
  | advance i busy =>
    unfold ToolResultRewrites.step at hc hgr ⊢
    dsimp only at hc hgr ⊢
    cases hi : s.calls i with
    | none =>
      rw [hi] at hc
      exact hs id c hc
    | some d =>
      rw [hi] at hc hgr
      change (if id = i then some (s.advance d busy).2 else s.calls id) = some c at hc
      split at hc
      · cases hc
        exact (hs i d hi).advance
      · exact (hs id c hc).mono hgr

end Steps

end HrcRuntime.ToolResultRewrites
