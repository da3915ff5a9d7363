import HrcRuntime.CollectiveConvergence
import HrcRuntime.CollectiveReplication

namespace HrcRuntime.CollectiveHistory

open Keyed Schedule
open List (mem_singleton mem_of_getElem?)

variable {fingerprint : HrcMessageRecord → String} {collator : Collator} {localNodeId : String}

section Repository

variable {outbox : Outbox} {row : Replication} {messageId : String}

theorem observationFor_record (nodeId : String) (record : HrcMessageRecord) : (observationFor nodeId record).record = record := by
  unfold observationFor
  split <;> rfl

theorem observationFor_sourceNodeId (nodeId : String) (record : HrcMessageRecord) :
    (observationFor nodeId record).sourceNodeId = nodeId := by
  unfold observationFor
  split <;> rfl

theorem find_enqueue (fingerprint : HrcMessageRecord → String) (input : Observation) (now : Nat) (outbox : Outbox)
    (hn : (outbox.find input.record.messageId).map (·.recordFingerprint) ≠ some (fingerprint input.record)) :
    ∃ row, (enqueue fingerprint input now outbox).find input.record.messageId = some row ∧ row.record = input.record ∧
      row.recordFingerprint = fingerprint input.record ∧ row.state = .pending := by
  unfold enqueue
  rw [if_neg hn]
  have hs : (outbox.upsert (replicationRow fingerprint input now) (reopen fingerprint input now)
      (reopen_messageId fingerprint input now)).find input.record.messageId = some _ :=
    find_upsert_self (r := replicationRow fingerprint input now) (reopen_messageId fingerprint input now)
  rw [hs]
  cases outbox.find (replicationRow fingerprint input now).messageId with
  | none => exact ⟨_, rfl, rfl, rfl, rfl⟩
  | some stored => exact ⟨_, rfl, rfl, rfl, rfl⟩

theorem find_enqueue_of_ne (input : Observation) (now : Nat) (outbox : Outbox) (h : messageId ≠ input.record.messageId) :
    (enqueue fingerprint input now outbox).find messageId = outbox.find messageId := by
  unfold enqueue
  split
  · rfl
  · exact find_upsert_of_ne (r := replicationRow fingerprint input now) (reopen_messageId fingerprint input now) h

theorem find_markDelivered (acknowledged recordFingerprint : String) (now : Nat) :
    (markDelivered acknowledged recordFingerprint now outbox).find messageId =
      (outbox.find messageId).map fun row =>
        if messageId = acknowledged ∧ row.recordFingerprint = recordFingerprint then deliver now row else row := by
  unfold markDelivered
  by_cases h : messageId = acknowledged
  · subst h
    rw [find_amend_self]
    cases outbox.find messageId <;> simp
  · rw [find_amend_of_ne _ h]
    cases outbox.find messageId <;> simp [h]

theorem find_scheduleRetry (input : RetryInput) :
    (scheduleRetry input outbox).find messageId =
      (outbox.find messageId).map fun row =>
        if messageId = input.messageId ∧ row.recordFingerprint = input.fingerprint then postpone input row else row := by
  unfold scheduleRetry
  by_cases h : messageId = input.messageId
  · subst h
    rw [find_amend_self]
    cases outbox.find input.messageId <;> simp
  · rw [find_amend_of_ne _ h]
    cases outbox.find messageId <;> simp [h]

end Repository

section Authority

variable {authority : Database} {record : HrcMessageRecord} {nodeId now : String}

def recordFrom (authority : Database) (messageId nodeId : String) : Option HrcMessageRecord :=
  (authority.observations.find (messageId, nodeId)).map (·.record)

theorem parse_eq_ok {parsed : HrcMessageRecord} (h : parseCollectiveHistoryMessage record = .ok parsed) : parsed = record := by
  unfold parseCollectiveHistoryMessage at h
  split at h
  · cases h
  · split at h
    · cases h
    · split at h
      · cases h
      · exact (Except.ok.inj h).symm

/-- An accepted record is the authority's from its node; a refused one leaves the authority as it was. -/
theorem acceptReplication_cases (collator : Collator) (nodeId : String) (record : HrcMessageRecord) (now : String)
    (authority : Database) :
    (∃ authority', acceptReplication collator nodeId record now authority = (.ok record.messageId, authority') ∧
      recordFrom authority' record.messageId nodeId = some record ∧
      ∀ messageId other, (messageId, other) ≠ (record.messageId, nodeId) →
        recordFrom authority' messageId other = recordFrom authority messageId other) ∨
    ∃ message, acceptReplication collator nodeId record now authority = (.error message, authority) := by
  unfold acceptReplication
  split
  · exact .inr ⟨_, rfl⟩
  · rename_i parsed hp
    obtain rfl : record = parsed := (parse_eq_ok hp).symm
    have hu : ∀ db : Database, db.observations = (upsertObservation (observationFor nodeId record) now authority).observations →
        recordFrom db record.messageId nodeId = some record ∧
          ∀ messageId other, (messageId, other) ≠ (record.messageId, nodeId) →
            recordFrom db messageId other = recordFrom authority messageId other := by
      intro db hdb
      unfold recordFrom
      rw [hdb]
      have hk : ((observationRow (observationFor nodeId record) now).messageId,
          (observationRow (observationFor nodeId record) now).sourceNodeId) = (record.messageId, nodeId) := by
        simp only [observationRow, observationFor_record, observationFor_sourceNodeId]
      constructor
      · have hs : (upsertObservation (observationFor nodeId record) now authority).observations.find _ = some _ :=
          find_upsert_self (r := observationRow (observationFor nodeId record) now)
            (takeObservation_key (observationFor nodeId record) now)
        rw [hk] at hs
        rw [hs]
        cases authority.observations.find (record.messageId, nodeId) with
        | none => exact congrArg some (observationFor_record nodeId record)
        | some stored => exact congrArg some (observationFor_record nodeId record)
      · intro messageId other hne
        rw [show (upsertObservation (observationFor nodeId record) now authority).observations.find (messageId, other) = _ from
          find_upsert_of_ne (r := observationRow (observationFor nodeId record) now)
            (takeObservation_key (observationFor nodeId record) now) (by rw [hk]; exact hne)]
    have hr := recordObservation_recorded collator (observationFor nodeId record) now authority
    generalize recordObservation collator (observationFor nodeId record) now authority = result at hr ⊢
    cases hr with
    | first _ _ _ _ _ _ hobs => exact .inl ⟨_, rfl, hu _ hobs⟩
    | conflict _ _ => exact .inr ⟨_, rfl⟩
    | replaced _ _ _ _ _ hobs => exact .inl ⟨_, rfl, hu _ hobs⟩
    | kept _ _ _ _ hobs => exact .inl ⟨_, rfl, hu _ hobs⟩

theorem not_refused {authority' : Database} {messageId : String}
    (hacc : acceptReplication collator nodeId record now authority = (.ok messageId, authority')) :
    ¬(authority.messages.find record.messageId).any (conflictsWith (observationFor nodeId record)) = true := by
  intro hr
  unfold acceptReplication at hacc
  split at hacc
  · cases hacc
  · rename_i parsed hp
    obtain rfl := parse_eq_ok hp
    unfold recordObservation at hacc
    rw [observationFor_record] at hacc
    cases hex : authority.messages.find parsed.messageId with
    | none =>
      rw [hex] at hr
      cases hr
    | some existing =>
      rw [hex, Option.any_some] at hr
      simp only [hex, hr, if_true] at hacc
      cases hacc

end Authority

section Conditions

def latest (s : State) (messageId : String) : Option HrcMessageRecord :=
  (s.contents.filter (·.messageId = messageId)).getLast?

def writtenSince (s : State) (messageId : String) : Nat := (OrderedMap.get messageId s.writtenAt).getD 0

def acknowledgedSince (s : State) (row : Replication) : Bool :=
  (s.acknowledgements.drop (writtenSince s row.messageId)).any fun ack =>
    decide (ack.messageId = row.messageId) && decide (ack.recordFingerprint = row.recordFingerprint)

/-- No two contents of a message share a fingerprint; a request that arrives carries its message's current content,
unless that content has neither been acknowledged since it was written nor marked, or the authority refuses the request;
an acknowledgement that marks a row was issued after the row was last written, unless the authority has its content. -/
def allowed (fingerprint : HrcMessageRecord → String) (localNodeId : String) (s : State) : Action → Bool
  | .change record _ =>
    s.contents.all fun content =>
      decide (content.messageId ≠ record.messageId) || decide (fingerprint content ≠ fingerprint record) ||
        decide (content = record)
  | .arrive request _ =>
    (s.requests[request]?).all fun request => (s.outbox.find request.messageId).all fun row =>
      decide (request.record = row.record) || (decide (row.state = .pending) && !acknowledgedSince s row) ||
        (s.authority.messages.find request.messageId).any (conflictsWith (observationFor localNodeId request.record))
  | .acknowledge acknowledgement _ =>
    (s.acknowledgements[acknowledgement]?).all fun ack => (s.outbox.find ack.messageId).all fun row =>
      decide (row.state = .delivered) || decide (row.recordFingerprint ≠ ack.recordFingerprint) ||
        decide (writtenSince s row.messageId ≤ acknowledgement) ||
        decide (recordFrom s.authority row.messageId localNodeId = some row.record)
  | .drain _ | .fail _ _ _ | .foreign _ _ _ => true

structure Inv (fingerprint : HrcMessageRecord → String) (localNodeId : String) (s : State) : Prop where
  distinct : ∀ a ∈ s.contents, ∀ b ∈ s.contents, a.messageId = b.messageId → fingerprint a = fingerprint b → a = b
  rows : ∀ messageId row, s.outbox.find messageId = some row →
    latest s messageId = some row.record ∧ row.recordFingerprint = fingerprint row.record
  stored : ∀ record ∈ s.contents, (s.outbox.find record.messageId).isSome
  requests : ∀ request ∈ s.requests, request.record ∈ s.contents ∧ request.record.messageId = request.messageId ∧
    request.recordFingerprint = fingerprint request.record
  acknowledgements : ∀ ack ∈ s.acknowledgements, ack.record ∈ s.contents ∧ ack.record.messageId = ack.messageId ∧
    ack.recordFingerprint = fingerprint ack.record
  delivered : ∀ messageId row, s.outbox.find messageId = some row → row.state = .delivered →
    ∃ ack ∈ s.acknowledgements, ack.messageId = messageId ∧ ack.record = row.record
  agreed : ∀ messageId row, s.outbox.find messageId = some row → row.state = .delivered ∨ acknowledgedSince s row = true →
    recordFrom s.authority messageId localNodeId = some row.record

end Conditions

section Steps

variable {s : State} {messageId : String} {row : Replication}

variable {record : HrcMessageRecord}

theorem mem_of_latest (h : latest s messageId = some record) :
    record ∈ s.contents ∧ record.messageId = messageId := by
  obtain ⟨hm, hid⟩ := List.mem_filter.mp (List.mem_of_getLast? h)
  exact ⟨hm, of_decide_eq_true hid⟩

theorem latest_append (record : HrcMessageRecord) (contents : List HrcMessageRecord) (messageId : String) :
    ((contents ++ [record]).filter (·.messageId = messageId)).getLast? =
      if record.messageId = messageId then some record else (contents.filter (·.messageId = messageId)).getLast? := by
  rw [List.filter_append]
  split
  · rename_i h
    rw [List.filter_cons_of_pos (by simpa using h), List.filter_nil, List.getLast?_concat]
  · rename_i h
    rw [List.filter_cons_of_neg (by simpa using h), List.filter_nil, List.append_nil]

theorem Inv.record_eq (h : Inv fingerprint localNodeId s) (hr : s.outbox.find messageId = some row)
    {record : HrcMessageRecord} (hm : record ∈ s.contents) (hid : record.messageId = messageId)
    (hfp : fingerprint record = row.recordFingerprint) : record = row.record := by
  obtain ⟨hl, hrf⟩ := h.rows messageId row hr
  obtain ⟨hrm, hri⟩ := mem_of_latest hl
  exact h.distinct record hm row.record hrm (hid.trans hri.symm) (hfp.trans hrf)

theorem inv_change (h : Inv fingerprint localNodeId s) {now : Nat}
    (hok : allowed fingerprint localNodeId s (.change record now) = true) :
    Inv fingerprint localNodeId (change fingerprint localNodeId record now s) := by
  have hfr : ∀ content ∈ s.contents, content.messageId = record.messageId → fingerprint content = fingerprint record →
      content = record := fun content hc hid hfp => by
    have := List.all_eq_true.mp hok content hc
    simpa [hid, hfp] using this
  have hmn : ∀ content ∈ s.contents, content ∈ s.contents ++ [record] := fun _ => List.mem_append_left _
  have hds : ∀ a ∈ s.contents ++ [record], ∀ b ∈ s.contents ++ [record], a.messageId = b.messageId →
      fingerprint a = fingerprint b → a = b := by
    intro a ha b hb hid hfp
    rcases List.mem_append.mp ha with ha | ha <;> rcases List.mem_append.mp hb with hb | hb
    · exact h.distinct a ha b hb hid hfp
    · rw [mem_singleton.mp hb] at hid hfp ⊢
      exact hfr a ha hid hfp
    · rw [mem_singleton.mp ha] at hid hfp ⊢
      exact (hfr b hb hid.symm hfp.symm).symm
    · rw [mem_singleton.mp ha, mem_singleton.mp hb]
  unfold change
  dsimp only
  split
  · rename_i hs
    obtain ⟨current, hcr, hcf⟩ := Option.map_eq_some_iff.mp hs
    refine ⟨hds, fun messageId row hrow => ?_, fun content hc => ?_,
      fun request hreq => ?_, fun ack hack => ?_, h.delivered, h.agreed⟩
    · obtain ⟨hl, hfp⟩ := h.rows messageId row hrow
      refine ⟨(latest_append record s.contents messageId).trans ?_, hfp⟩
      split
      · rename_i hid
        subst hid
        obtain rfl := Option.some.inj (hcr.symm.trans hrow)
        obtain ⟨hmem, hri⟩ := mem_of_latest hl
        rw [hfr current.record hmem hri (hfp.symm.trans hcf)]
      · exact hl
    · rcases List.mem_append.mp hc with hc | hc
      · exact h.stored content hc
      · rw [mem_singleton.mp hc, hcr]
        rfl
    · exact (h.requests request hreq).imp_left (hmn _)
    · exact (h.acknowledgements ack hack).imp_left (hmn _)
  · rename_i hn
    have hobs := observationFor_record localNodeId record
    have hsl := find_enqueue fingerprint (observationFor localNodeId record) now s.outbox
      (by rw [hobs]; exact hn)
    have hoth : ∀ messageId ≠ record.messageId,
        (enqueue fingerprint (observationFor localNodeId record) now s.outbox).find messageId = s.outbox.find messageId :=
      fun messageId hne => find_enqueue_of_ne _ now s.outbox (by rw [hobs]; exact hne)
    rw [hobs] at hsl
    obtain ⟨written, hw, hr, hfp, hp⟩ := hsl
    have hrw : ∀ messageId row,
        (enqueue fingerprint (observationFor localNodeId record) now s.outbox).find messageId = some row →
          messageId = record.messageId ∧ row = written ∨ messageId ≠ record.messageId ∧ s.outbox.find messageId = some row := by
      intro messageId row hrow
      by_cases hid : messageId = record.messageId
      · subst hid
        exact .inl ⟨rfl, Option.some.inj (hrow.symm.trans hw)⟩
      · exact .inr ⟨hid, by rw [← hoth messageId hid]; exact hrow⟩
    refine ⟨hds, fun messageId row hrow => ?_, fun content hc => ?_, fun request hreq => ?_,
      fun ack hack => ?_, fun messageId row hrow hd => ?_, fun messageId row hrow hm => ?_⟩
    · rcases hrw messageId row hrow with ⟨rfl, rfl⟩ | ⟨hne, hold⟩
      · exact ⟨(latest_append record s.contents _).trans (by rw [if_pos rfl, hr]), hfp.trans (by rw [hr])⟩
      · obtain ⟨hl, hrf⟩ := h.rows messageId row hold
        exact ⟨(latest_append record s.contents messageId).trans (by rw [if_neg (Ne.symm hne)]; exact hl), hrf⟩
    · by_cases hid : content.messageId = record.messageId
      · dsimp only
        rw [hid, hw]
        rfl
      · dsimp only
        rw [hoth _ hid]
        refine h.stored content ((List.mem_append.mp hc).resolve_right fun hmem => hid ?_)
        rw [mem_singleton.mp hmem]
    · exact (h.requests request hreq).imp_left (hmn _)
    · exact (h.acknowledgements ack hack).imp_left (hmn _)
    · rcases hrw messageId row hrow with ⟨rfl, rfl⟩ | ⟨-, hold⟩
      · rw [hp] at hd
        cases hd
      · exact h.delivered messageId row hold hd
    · rcases hrw messageId row hrow with ⟨rfl, rfl⟩ | ⟨hne, hold⟩
      · rcases hm with hd | hac
        · rw [hp] at hd
          cases hd
        · have hid : row.messageId = record.messageId := (find_mem hw).2
          simp only [acknowledgedSince, writtenSince, hid, OrderedMap.get_set_self, Option.getD_some, List.drop_length,
            List.any_nil, Bool.false_eq_true] at hac
      · refine h.agreed messageId row hold (hm.imp_right fun hac => ?_)
        have hid : row.messageId = messageId := (find_mem hold).2
        simp only [acknowledgedSince, writtenSince, hid] at hac ⊢
        rwa [OrderedMap.get_set_of_ne hne] at hac

theorem inv_arrive (h : Inv fingerprint localNodeId s) {request : Replication} (hreq : request ∈ s.requests) {now : String}
    (hok : ∀ row, s.outbox.find request.messageId = some row →
      request.record = row.record ∨ (row.state = .pending ∧ acknowledgedSince s row = false) ∨
        (s.authority.messages.find request.messageId).any (conflictsWith (observationFor localNodeId request.record)) = true) :
    Inv fingerprint localNodeId (arrive collator localNodeId request now s) := by
  obtain ⟨hc, hid, hfp⟩ := h.requests request hreq
  unfold arrive
  rcases acceptReplication_cases collator localNodeId request.record now s.authority with
    ⟨authority', hacc, hsl, hoth⟩ | ⟨message, hr⟩
  · rw [hacc]
    rw [hid] at hsl hoth
    dsimp only
    refine ⟨h.distinct, h.rows, h.stored, h.requests, fun ack hack => ?_, fun messageId row hrow hd => ?_,
      fun messageId row hrow hm => ?_⟩
    · rcases List.mem_append.mp hack with hack | hack
      · exact h.acknowledgements ack hack
      · rw [mem_singleton.mp hack]
        exact ⟨hc, rfl, hfp⟩
    · obtain ⟨ack, hack, hrs⟩ := h.delivered messageId row hrow hd
      exact ⟨ack, List.mem_append_left _ hack, hrs⟩
    · have hri : row.messageId = messageId := (find_mem hrow).2
      -- the acceptance just issued counts for a row only if it carries the row's content
      have hn : acknowledgedSince s row = true ∨
          (messageId = request.messageId ∧ request.recordFingerprint = row.recordFingerprint) ∨ row.state = .delivered := by
        rcases hm with hd | hac
        · exact .inr (.inr hd)
        · simp only [acknowledgedSince, List.any_eq_true, Bool.and_eq_true, decide_eq_true_eq] at hac ⊢
          obtain ⟨ack, hack, hai, haf⟩ := hac
          change ack ∈ List.drop (writtenSince s row.messageId) (s.acknowledgements ++ [_]) at hack
          rw [List.drop_append] at hack
          rcases List.mem_append.mp hack with hack | hack
          · exact .inl ⟨ack, hack, hai, haf⟩
          · obtain rfl := mem_singleton.mp (List.mem_of_mem_drop hack)
            exact .inr (.inl ⟨by rw [← hri, ← hai]; exact hid, haf⟩)
      by_cases hs : messageId = request.messageId
      · subst hs
        by_cases hcr : request.record = row.record
        · rw [← hcr]
          exact hsl
        · exfalso
          rcases hn with hac | ⟨-, hmat⟩ | hd
          · rcases hok row hrow with heq | ⟨-, hnot⟩ | hr
            · exact hcr heq
            · rw [hnot] at hac
              cases hac
            · exact not_refused hacc (by rw [hid]; exact hr)
          · exact hcr (h.record_eq hrow hc hid (hfp.symm.trans hmat))
          · rcases hok row hrow with heq | ⟨hp, -⟩ | hr
            · exact hcr heq
            · rw [hp] at hd
              cases hd
            · exact not_refused hacc (by rw [hid]; exact hr)
      · rw [hoth messageId localNodeId fun heq => hs (congrArg Prod.fst heq)]
        refine h.agreed messageId row hrow ?_
        rcases hn with hac | ⟨heq, -⟩ | hd
        · exact .inr hac
        · exact absurd heq hs
        · exact .inl hd
  · rw [hr]
    exact ⟨h.distinct, h.rows, h.stored, h.requests, h.acknowledgements, h.delivered, h.agreed⟩

theorem inv_acknowledge (h : Inv fingerprint localNodeId s) {ack : Acknowledgement} (hack : ack ∈ s.acknowledgements) {now : Nat}
    (hok : ∀ row, s.outbox.find ack.messageId = some row → row.recordFingerprint = ack.recordFingerprint →
      row.state = .delivered ∨ acknowledgedSince s row = true ∨
        recordFrom s.authority row.messageId localNodeId = some row.record) :
    Inv fingerprint localNodeId { s with outbox := markDelivered ack.messageId ack.recordFingerprint now s.outbox } := by
  obtain ⟨hc, hid, hfp⟩ := h.acknowledgements ack hack
  have hrw : ∀ messageId row,
      (markDelivered ack.messageId ack.recordFingerprint now s.outbox).find messageId = some row →
        ∃ old, s.outbox.find messageId = some old ∧
          (row = old ∨ messageId = ack.messageId ∧ old.recordFingerprint = ack.recordFingerprint ∧ row = deliver now old) := by
    intro messageId row hrow
    rw [find_markDelivered] at hrow
    obtain ⟨old, hold, hrow⟩ := Option.map_eq_some_iff.mp hrow
    refine ⟨old, hold, ?_⟩
    split at hrow
    · rename_i hmat
      exact .inr ⟨hmat.1, hmat.2, hrow.symm⟩
    · exact .inl hrow.symm
  refine ⟨h.distinct, fun messageId row hrow => ?_, fun record hr => ?_, h.requests, h.acknowledgements,
    fun messageId row hrow hd => ?_, fun messageId row hrow hm => ?_⟩
  · obtain ⟨old, hold, rfl | ⟨-, -, rfl⟩⟩ := hrw messageId row hrow
    · exact h.rows messageId row hold
    · exact h.rows messageId old hold
  · dsimp only
    rw [find_markDelivered, Option.isSome_map]
    exact h.stored record hr
  · obtain ⟨old, hold, rfl | ⟨rfl, hmat, rfl⟩⟩ := hrw messageId row hrow
    · exact h.delivered messageId row hold hd
    · exact ⟨ack, hack, rfl, h.record_eq hold hc hid (hfp.symm.trans hmat.symm)⟩
  · obtain ⟨old, hold, rfl | ⟨rfl, hmat, rfl⟩⟩ := hrw messageId row hrow
    · exact h.agreed messageId row hold hm
    · have hri : old.messageId = ack.messageId := (find_mem hold).2
      rcases hok old hold hmat with hd | hac | hagr
      · exact h.agreed _ old hold (.inl hd)
      · exact h.agreed _ old hold (.inr hac)
      · rw [← hri]
        exact hagr

theorem inv_fail (h : Inv fingerprint localNodeId s) (input : RetryInput) :
    Inv fingerprint localNodeId { s with outbox := scheduleRetry input s.outbox } := by
  have hrw : ∀ messageId row, (scheduleRetry input s.outbox).find messageId = some row →
      ∃ old, s.outbox.find messageId = some old ∧ (row = old ∨ row = postpone input old) := by
    intro messageId row hrow
    rw [find_scheduleRetry] at hrow
    obtain ⟨old, hold, hrow⟩ := Option.map_eq_some_iff.mp hrow
    refine ⟨old, hold, ?_⟩
    split at hrow
    · exact .inr hrow.symm
    · exact .inl hrow.symm
  refine ⟨h.distinct, fun messageId row hrow => ?_, fun record hr => ?_, h.requests, h.acknowledgements,
    fun messageId row hrow hd => ?_, fun messageId row hrow hm => ?_⟩
  · obtain ⟨old, hold, rfl | rfl⟩ := hrw messageId row hrow
    · exact h.rows messageId row hold
    · exact h.rows messageId old hold
  · dsimp only
    rw [find_scheduleRetry, Option.isSome_map]
    exact h.stored record hr
  · obtain ⟨old, hold, rfl | rfl⟩ := hrw messageId row hrow
    · exact h.delivered messageId row hold hd
    · cases hd
  · obtain ⟨old, hold, rfl | rfl⟩ := hrw messageId row hrow
    · exact h.agreed messageId row hold hm
    · exact h.agreed messageId old hold (.inr (hm.resolve_left fun hd => by cases hd))

theorem inv_drain (h : Inv fingerprint localNodeId s) (now limit : Nat) :
    Inv fingerprint localNodeId { s with requests := s.requests ++ listDue now limit s.outbox } := by
  refine ⟨h.distinct, h.rows, h.stored, fun request hr => ?_, h.acknowledgements, h.delivered, h.agreed⟩
  rcases List.mem_append.mp hr with hr | hr
  · exact h.requests request hr
  · have hm := (List.mem_filter.mp ((KeysetPaging.perm_sortBy _ _).mem_iff.mp (List.mem_of_mem_take hr))).1
    obtain ⟨hl, hfp⟩ := h.rows request.messageId request (find_of_mem hm)
    obtain ⟨hc, hid⟩ := mem_of_latest hl
    exact ⟨hc, hid, hfp⟩

theorem inv_step (collator : Collator) (s : State) (action : Action) (h : Inv fingerprint localNodeId s)
    (hok : allowed fingerprint localNodeId s action = true) :
    Inv fingerprint localNodeId (step fingerprint collator localNodeId action s) := by
  cases action with
  | change record now => exact inv_change h hok
  | drain now => exact inv_drain h now 100
  | arrive i now =>
    unfold step
    dsimp only
    split
    · exact h
    · rename_i request hreq
      refine inv_arrive h (mem_of_getElem? hreq) fun row hrow => ?_
      simp only [allowed, hreq, hrow, Option.all_some, Bool.or_eq_true, Bool.and_eq_true, Bool.not_eq_true',
        decide_eq_true_eq, or_assoc] at hok
      exact hok
  | acknowledge i now =>
    unfold step
    dsimp only
    split
    · exact h
    · rename_i ack hack
      refine inv_acknowledge h (mem_of_getElem? hack) fun row hrow hmat => ?_
      have hri : row.messageId = ack.messageId := (find_mem hrow).2
      simp only [allowed, hack, hrow, Option.all_some, hmat, ne_eq, not_true_eq_false, decide_false, Bool.or_false,
        Bool.or_eq_true, decide_eq_true_eq, or_assoc] at hok
      refine hok.imp_right fun hrs => hrs.imp_left fun hs => ?_
      simp only [acknowledgedSince, List.any_eq_true, Bool.and_eq_true, decide_eq_true_eq]
      refine ⟨ack, List.mem_iff_getElem?.mpr ⟨i - writtenSince s row.messageId, ?_⟩, hri.symm, hmat.symm⟩
      rw [List.getElem?_drop, Nat.add_sub_cancel' hs]
      exact hack
  | fail i now message =>
    unfold step
    dsimp only
    split
    · exact h
    · exact inv_fail h _
  | foreign nodeId record now =>
    unfold step
    dsimp only
    split
    · exact h
    · rename_i hne
      refine ⟨h.distinct, h.rows, h.stored, h.requests, h.acknowledgements, h.delivered, fun messageId row hrow hm => ?_⟩
      have hagr := h.agreed messageId row hrow hm
      rcases acceptReplication_cases collator nodeId record now s.authority with
        ⟨authority', hacc, -, hoth⟩ | ⟨message, hr⟩
      · rw [hacc]
        exact (hoth messageId localNodeId fun heq => hne (congrArg Prod.snd heq).symm).trans hagr
      · rw [hr]
        exact hagr

end Steps

/-- Through changes, attempts, acceptances and failures in any order, late, lost or repeated: a row is marked only for a
content the authority has accepted, an acceptance or a failure of another content leaves a row as it is, and when all rows
are marked the authority's record of every message from this node is its latest content. -/
theorem outbox_loses_nothing (fingerprint : HrcMessageRecord → String) (collator : Collator) (localNodeId : String)
    {actions : List Action}
    (hmeets : Meets (step fingerprint collator localNodeId) (fun s action => allowed fingerprint localNodeId s action = true)
      actions {}) :
    let s := run (step fingerprint collator localNodeId) actions {}
    (∀ messageId row, s.outbox.find messageId = some row → row.state = .delivered →
      ∃ ack ∈ s.acknowledgements, ack.messageId = messageId ∧ ack.record = row.record) ∧
    (∀ messageId row, s.outbox.find messageId = some row → ∀ i ack now, s.acknowledgements[i]? = some ack →
      ack.messageId = messageId → ack.record ≠ row.record →
        (step fingerprint collator localNodeId (.acknowledge i now) s).outbox.find messageId = some row) ∧
    (∀ messageId row, s.outbox.find messageId = some row → ∀ i request now message, s.requests[i]? = some request →
      request.messageId = messageId → request.record ≠ row.record →
        (step fingerprint collator localNodeId (.fail i now message) s).outbox.find messageId = some row) ∧
    ((∀ row ∈ s.outbox.rows, row.state = .delivered) → ∀ messageId record, latest s messageId = some record →
      recordFrom s.authority messageId localNodeId = some record) := by
  have hi : Inv fingerprint localNodeId {} :=
    ⟨(fun _ ha => by cases ha), (fun _ _ hrow => by cases hrow), (fun _ hr => by cases hr),
      (fun _ hreq => by cases hreq), (fun _ hack => by cases hack), (fun _ _ hrow => by cases hrow),
      (fun _ _ hrow => by cases hrow)⟩
  have h := run_invariant (inv_step collator) hi hmeets
  intro s
  refine ⟨h.delivered, fun messageId row hrow i ack now hack hid hne => ?_,
    fun messageId row hrow i request now message hreq hid hne => ?_, fun hall messageId record hl => ?_⟩
  · obtain ⟨hc, hai, hfp⟩ := h.acknowledgements ack (mem_of_getElem? hack)
    simp only [step, hack, find_markDelivered]
    rw [hrow, Option.map_some, if_neg fun hm => ?_]
    exact hne (h.record_eq hrow hc (hai.trans hid) (hfp.symm.trans hm.2.symm))
  · obtain ⟨hc, hri, hfp⟩ := h.requests request (mem_of_getElem? hreq)
    simp only [step, hreq, find_scheduleRetry]
    rw [hrow, Option.map_some, if_neg fun hm => ?_]
    exact hne (h.record_eq hrow hc (hri.trans hid) (hfp.symm.trans hm.2.symm))
  · obtain ⟨hc, rfl⟩ := mem_of_latest hl
    obtain ⟨row, hrow⟩ := Option.isSome_iff_exists.mp (h.stored record hc)
    rw [h.agreed _ row hrow (.inl (hall row (find_mem hrow).1)), ← (h.rows _ row hrow).1]
    exact hl

namespace Sample

def sent (state : HrcMessageExecutionState) : HrcMessageRecord :=
  { messageSeq := ⟨4, by decide⟩, messageId := "msg-2", createdAt := "2026-07-24T12:00:00.000Z", kind := .dm
    phase := .request, source := .session "agent:cody", target := .session "agent:clod", rootMessageId := "msg-2"
    body := "hello", execution := { state } }

def stateFingerprint (record : HrcMessageRecord) : String :=
  if record.execution.state = .accepted then "accepted" else "changed"

def changed : List Action :=
  [.change (sent .accepted) 0, .drain 0, .arrive 0 "1", .change (sent .completed) 1, .acknowledge 0 2, .drain 2,
    .fail 1 3 "timeout", .drain 600, .arrive 2 "4", .acknowledge 1 700]

def overtaken : List Action :=
  [.change (sent .accepted) 0, .drain 0, .fail 0 1 "timeout", .change (sent .completed) 2, .drain 2, .arrive 1 "3",
    .acknowledge 0 4, .arrive 0 "5"]

def returned : List Action :=
  [.change (sent .accepted) 0, .drain 0, .arrive 0 "1", .change (sent .completed) 2, .drain 2, .arrive 1 "3",
    .change (sent .accepted) 4, .acknowledge 0 5]

end Sample

theorem changed_content_arrives :
    let s := run (step Sample.stateFingerprint Sample.codePoints "lab") Sample.changed {}
    (∀ row ∈ s.outbox.rows, row.state = .delivered) ∧
      recordFrom s.authority "msg-2" "lab" = some (Sample.sent .completed) :=
  have hd : ∀ row ∈ (run (step Sample.stateFingerprint Sample.codePoints "lab") Sample.changed {}).outbox.rows,
      row.state = .delivered := by decide +kernel
  ⟨hd, (outbox_loses_nothing Sample.stateFingerprint Sample.codePoints "lab" (by decide +kernel)).2.2.2 hd
    "msg-2" (Sample.sent .completed) (by decide +kernel)⟩

/-- An overtaken request, or a late acceptance of a content that has returned, leaves the authority with a content that
is not the latest though every row is marked. -/
theorem older_content_arrives_last :
    (let s := run (step Sample.stateFingerprint Sample.codePoints "lab") Sample.overtaken {}
    (∀ row ∈ s.outbox.rows, row.state = .delivered) ∧ latest s "msg-2" = some (Sample.sent .completed) ∧
      recordFrom s.authority "msg-2" "lab" = some (Sample.sent .accepted)) ∧
    (let s := run (step Sample.stateFingerprint Sample.codePoints "lab") Sample.returned {}
    (∀ row ∈ s.outbox.rows, row.state = .delivered) ∧ latest s "msg-2" = some (Sample.sent .accepted) ∧
      recordFrom s.authority "msg-2" "lab" = some (Sample.sent .completed)) := by
  decide +kernel

end HrcRuntime.CollectiveHistory
