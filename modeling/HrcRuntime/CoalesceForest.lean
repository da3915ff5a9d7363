import HrcRuntime.Forest
import HrcRuntime.RunMonotone

namespace HrcRuntime.CoalesceForest

open Json Records Relational Database Mapper RuntimeState Format2Input TurnProjection
open Ownership RunEffects Calls Schedule RunRepository RunOperations Forest Relation
open RunMonotone (Action step discard discard_keeps)

def Linked (db : Db) (runId ownerRunId : String) : Prop :=
  ∃ r ∈ db.runs.rows, r.runId = runId ∧ r.coalescedIntoRunId = some ownerRunId

instance (db : Db) (runId ownerRunId : String) : Decidable (Linked db runId ownerRunId) :=
  inferInstanceAs (Decidable (∃ r ∈ db.runs.rows, r.runId = runId ∧ r.coalescedIntoRunId = some ownerRunId))

def Queued (db : Db) (runId : String) : Prop := ∃ r ∈ db.runs.rows, r.runId = runId ∧ r.status = .queued

def Waits (r : HrcRunRecord) : Prop := r.status = .queued → r.coalescedIntoRunId = none

instance (r : HrcRunRecord) : Decidable (Waits r) :=
  inferInstanceAs (Decidable (r.status = .queued → r.coalescedIntoRunId = none))

def QueuedUnlinked (db : Db) : Prop := ∀ r ∈ db.runs.rows, Waits r

instance (db : Db) : Decidable (QueuedUnlinked db) := inferInstanceAs (Decidable (∀ r ∈ db.runs.rows, Waits r))

def binding (r : HrcRunRecord) : Option String × Option String × Option String × Nat :=
  (r.runtimeId, r.invocationId, r.operationId, r.generation)

def SameEpoch (db : Db) (runId ownerRunId : String) : Prop :=
  ∃ r ∈ db.runs.rows, ∃ o ∈ db.runs.rows, r.runId = runId ∧ o.runId = ownerRunId ∧ r.invocationId.isSome = true ∧
    binding r = binding o

instance (db : Db) (runId ownerRunId : String) : Decidable (SameEpoch db runId ownerRunId) :=
  inferInstanceAs (Decidable (∃ r ∈ db.runs.rows, ∃ o ∈ db.runs.rows, r.runId = runId ∧ o.runId = ownerRunId ∧
    r.invocationId.isSome = true ∧ binding r = binding o))

structure Absorbed (q : String → String → Prop) (db : Db) (runId ownerRunId : String) : Prop where
  ne : runId ≠ ownerRunId
  epoch : SameEpoch db runId ownerRunId
  owner : q runId ownerRunId

/-- The links of `b` are those of `a`, and links of `a`'s unlinked runs that satisfy `F`. -/
structure Links (F : Db → String → String → Prop) (a b : Db) : Prop where
  queued : QueuedUnlinked b
  kept : ∀ x y, Linked a x y → Linked b x y
  fresh : ∀ x y, Linked b x y → Linked a x y ∨ (∀ z, ¬ Linked a x z) ∧ F b x y

structure Moves (J : String → String → Prop) (r r' : HrcRunRecord) : Prop where
  runId : r'.runId = r.runId
  waits : Waits r → Waits r'
  linked : r'.coalescedIntoRunId = r.coalescedIntoRunId ∨
    r.coalescedIntoRunId = none ∧ ∃ y, r'.coalescedIntoRunId = some y ∧ J r.runId y

section Rows

variable {F : Db → String → String → Prop} {a b b' db db' : Db} {x y z : String} {q : String → String → Prop}

theorem linked_unique (h : Linked db x y) (h' : Linked db x z) : y = z := by
  obtain ⟨r, hr, hid, hl⟩ := h
  obtain ⟨r', hr', hid', hl'⟩ := h'
  obtain rfl := run_unique hr hr' (hid'.trans hid.symm)
  exact Option.some.inj (hl.symm.trans hl')

theorem Links.refl (h : QueuedUnlinked db) : Links F db db := ⟨h, fun _ _ h => h, fun _ _ h => .inl h⟩

variable {f : HrcRunRecord → HrcRunRecord} {J : String → String → Prop} {p : HrcRunRecord → Bool}

theorem Moves.refl (r : HrcRunRecord) : Moves J r r := ⟨rfl, id, .inl rfl⟩

theorem Moves.ended {r r' : HrcRunRecord} (hid : r'.runId = r.runId)
    (hstatus : r'.status ≠ .queued) (hl : r'.coalescedIntoRunId = r.coalescedIntoRunId) : Moves J r r' :=
  ⟨hid, fun _ h => absurd h hstatus, .inl hl⟩

theorem Links.unlinked (h : Links F a b) {r : HrcRunRecord} (hr : r ∈ b.runs.rows) (hl : r.coalescedIntoRunId = none) :
    ∀ z, ¬ Linked a r.runId z := by
  intro z hz
  obtain ⟨r', hr', hid, hl'⟩ := h.kept _ _ hz
  rw [run_unique hr hr' hid, hl] at hl'
  cases hl'

theorem Links.update (h : Links F a b)
    (hrun : b.runs.update p f = some b'.runs) (hF : ∀ x y, F b x y → F b' x y)
    (hf : ∀ r ∈ b.runs.rows, p r = true → Moves (F b') r (f r)) : Links F a b' := by
  have hm (r : HrcRunRecord) (hr : r ∈ b.runs.rows) : Moves (F b') r (if p r then f r else r) := by
    split
    · exact hf r hr ‹_›
    · exact .refl r
  have hrw := update_rows hrun
  refine ⟨fun r' hr' => ?_, fun x y hxy => ?_, fun x y hxy => ?_⟩
  · rw [hrw] at hr'
    obtain ⟨r, hr, rfl⟩ := List.mem_map.mp hr'
    exact (hm r hr).waits (h.queued r hr)
  · obtain ⟨r, hr, hid, hl⟩ := h.kept x y hxy
    refine ⟨_, hrw ▸ List.mem_map_of_mem hr, (hm r hr).runId.trans hid, ?_⟩
    rcases (hm r hr).linked with hs | ⟨hnn, -⟩
    · exact hs.trans hl
    · rw [hnn] at hl
      cases hl
  · obtain ⟨r', hr', hid, hl⟩ := hxy
    rw [hrw] at hr'
    obtain ⟨r, hr, rfl⟩ := List.mem_map.mp hr'
    rw [(hm r hr).runId] at hid
    subst hid
    rcases (hm r hr).linked with hs | ⟨hnn, y', hy', hn⟩
    · exact (h.fresh r.runId y ⟨r, hr, rfl, hs.symm.trans hl⟩).imp_right fun hfr => ⟨hfr.1, hF _ _ hfr.2⟩
    · obtain rfl := Option.some.inj (hl.symm.trans hy')
      exact .inr ⟨h.unlinked hr hnn, hn⟩

theorem Links.insert (h : Links F a b) {record : HrcRunRecord} (hrun : b.runs.insert record = some b'.runs)
    (hF : ∀ x y, F b x y → F b' x y) (hl : record.coalescedIntoRunId = none) : Links F a b' := by
  have hrw := insert_rows hrun
  refine ⟨fun r hr hque => ?_, fun x y hxy => ?_, fun x y hxy => ?_⟩
  · rw [hrw] at hr
    rcases List.mem_append.mp hr with hr | hr
    · exact h.queued r hr hque
    · rwa [List.mem_singleton.mp hr]
  · obtain ⟨r, hr, hid, hl⟩ := h.kept x y hxy
    exact ⟨r, hrw ▸ List.mem_append_left _ hr, hid, hl⟩
  · obtain ⟨r, hr, hid, hl'⟩ := hxy
    rw [hrw] at hr
    rcases List.mem_append.mp hr with hr | hr
    · exact (h.fresh x y ⟨r, hr, hid, hl'⟩).imp_right fun hfr => ⟨hfr.1, hF _ _ hfr.2⟩
    · rw [List.mem_singleton.mp hr, hl] at hl'
      cases hl'

theorem queued_update {runs : RunTable}
    (hrun : db.runs.update p f = some runs)
    (hf : ∀ r, p r = true → (f r).runId = r.runId ∧ ((f r).status = .queued → r.status = .queued))
    (h : Queued { db with runs } x) : Queued db x := by
  obtain ⟨r', hr', hid, hstatus⟩ := h
  rw [show r' ∈ _ ↔ r' ∈ db.runs.rows.map fun r => if p r then f r else r from by rw [← update_rows hrun]] at hr'
  obtain ⟨r, hr, rfl⟩ := List.mem_map.mp hr'
  refine ⟨r, hr, ?_⟩
  split at hid
  · rename_i hp
    rw [if_pos hp] at hstatus
    exact ⟨(hf r hp).1.symm.trans hid, (hf r hp).2 hstatus⟩
  · rename_i hp
    rw [if_neg hp] at hstatus
    exact ⟨hid, hstatus⟩

theorem Linked.same (hr : db'.runs = db.runs) : Linked db' = Linked db := by
  unfold Linked
  rw [hr]

theorem Links.same (h : Links F a b) (hr : b'.runs = b.runs) (hF : ∀ x y, F b x y → F b' x y) : Links F a b' := by
  refine ⟨?_, ?_, ?_⟩
  · unfold QueuedUnlinked
    rw [hr]
    exact h.queued
  · rw [Linked.same hr]
    exact h.kept
  · rw [Linked.same hr]
    exact fun x y hxy => (h.fresh x y hxy).imp_right fun hfr => ⟨hfr.1, hF x y hfr.2⟩

end Rows

section Epochs

variable {b b' db : Db} {x y : String}

theorem SameEpoch.update {p : HrcRunRecord → Bool} {f : HrcRunRecord → HrcRunRecord}
    (hrun : b.runs.update p f = some b'.runs) (hf : ∀ r, (f r).runId = r.runId ∧ binding (f r) = binding r)
    (h : SameEpoch b x y) : SameEpoch b' x y := by
  obtain ⟨r, hr, o, ho, hrid, hoid, hi, hs⟩ := h
  have hrow (r : HrcRunRecord) : (if p r then f r else r).runId = r.runId ∧ binding (if p r then f r else r) = binding r := by
    split
    · exact hf r
    · exact ⟨rfl, rfl⟩
  have hrw := update_rows hrun
  refine ⟨_, hrw ▸ List.mem_map_of_mem hr, _, hrw ▸ List.mem_map_of_mem ho, (hrow r).1.trans hrid,
    (hrow o).1.trans hoid, ?_, (hrow r).2.trans (hs.trans (hrow o).2.symm)⟩
  exact (congrArg (fun bound => bound.2.1.isSome) (hrow r).2).trans hi

theorem SameEpoch.insert {record : HrcRunRecord} (hrun : b.runs.insert record = some b'.runs) (h : SameEpoch b x y) :
    SameEpoch b' x y := by
  obtain ⟨r, hr, o, ho, h⟩ := h
  have hrw := insert_rows hrun
  exact ⟨r, hrw ▸ List.mem_append_left _ hr, o, hrw ▸ List.mem_append_left _ ho, h⟩

variable {epoch : HistoricalEpoch} {invocationId : String}

theorem owns_binding {r : HrcRunRecord}
    (h : epoch.owns invocationId r = true) : binding r =
      (some epoch.invocation.runtimeId, some invocationId, some epoch.invocation.operationId, epoch.operation.generation) := by
  simp only [HistoricalEpoch.owns, Bool.and_eq_true, beq_iff_eq] at h
  obtain ⟨⟨⟨hrt, hi⟩, hop⟩, hg⟩ := h
  rw [binding, hrt, hi, hop, hg]

theorem validCandidate_owns {runId : String}
    (he : historicalEpoch db invocationId = some epoch) (h : (validCandidate db invocationId runId).isSome = true) :
    ∃ o ∈ db.runs.rows, o.runId = runId ∧ epoch.owns invocationId o = true := by
  obtain ⟨_, h⟩ := Option.isSome_iff_exists.mp h
  simp only [validCandidate, he, Option.bind_eq_bind, Option.bind_some, Option.bind_eq_some_iff] at h
  obtain ⟨o, ho, h⟩ := h
  split at h
  · exact ⟨o, List.mem_of_find?_eq_some ho, by simpa using List.find?_some ho, ‹_›⟩
  · cases h

theorem AbsorbedBy.sameEpoch {auxiliary : HrcRunRecord} (hm : auxiliary ∈ db.runs.rows) (h : AbsorbedBy db auxiliary y) :
    auxiliary.runId ≠ y ∧ SameEpoch db auxiliary.runId y := by
  obtain ⟨invocationId, epoch, submissionId, he, h⟩ := h.found
  simp only [isAuxiliary, Bool.and_eq_true, bne_iff_ne] at h
  obtain ⟨⟨⟨⟨⟨-, hne⟩, -⟩, -⟩, howns⟩, hv⟩ := h
  obtain ⟨o, ho, hid, how⟩ := validCandidate_owns he hv
  have hbn := owns_binding howns
  have hi : auxiliary.invocationId = some invocationId := congrArg (·.2.1) hbn
  exact ⟨hne, auxiliary, hm, o, ho, rfl, hid, by rw [hi]; rfl, hbn.trans (owns_binding how).symm⟩

end Epochs

section Effects

variable {q : String → String → Prop} {a db db' : Db} {w : Write}

theorem absorbed_update {p : HrcRunRecord → Bool} {f : HrcRunRecord → HrcRunRecord}
    (hr : db.runs.update p f = some db'.runs) (hf : ∀ r, (f r).runId = r.runId ∧ binding (f r) = binding r)
    (x y : String) (h : Absorbed q db x y) : Absorbed q db' x y := ⟨h.ne, h.epoch.update hr hf, h.owner⟩

theorem absorbed_same (hr : db'.runs = db.runs) (x y : String) (h : Absorbed q db x y) : Absorbed q db' x y := by
  refine ⟨h.ne, ?_, h.owner⟩
  unfold SameEpoch
  rw [hr]
  exact h.epoch

theorem patch_links {runId : String} {patch : RunPatch} (hl : patch.coalescedIntoRunId = none)
    (hstatus : patch.status ≠ some .queued) (hrun : (Write.updateRun runId patch).run db = .ok db')
    (h : Links (Absorbed q) a db) : Links (Absorbed q) a db' := by
  refine h.update (Write.run_runs hrun) (absorbed_update (Write.run_runs hrun) fun r => ⟨rfl, rfl⟩) fun r hr _ => ?_
  have hs : (patch.apply r).coalescedIntoRunId = r.coalescedIntoRunId := by
    rw [RunPatch.apply, hl, Option.none_or]
  refine ⟨rfl, fun hw hque => hs.trans (hw ?_), .inl hs⟩
  cases hp : patch.status with
  | none => simpa [RunPatch.apply, hp] using hque
  | some status =>
    simp only [RunPatch.apply, hp, Option.getD_some] at hque
    exact absurd (hp.trans (congrArg some hque)) hstatus

theorem complete_links {runId : String} {updates : RunCompletion} (ht : updates.status.isRunTerminal = true)
    (hrun : (Write.completeRun runId updates).run db = .ok db') (h : Links (Absorbed q) a db) :
    Links (Absorbed q) a db' := by
  refine h.update (Write.run_runs hrun) (absorbed_update (Write.run_runs hrun) fun r => ⟨rfl, rfl⟩) fun r hr _ => ?_
  refine .ended rfl (fun hque => ?_) rfl
  rw [show updates.status = .queued from hque] at ht
  cases ht

theorem settlement_links (hw : Settlement db w) (hq : LinksTo q w) (hrun : w.run db = .ok db')
    (h : Links (Absorbed q) a db) : Links (Absorbed q) a db' := by
  have hj {run : HrcRunRecord} {patch : RunPatch} {ownerRunId : String} (ha : AbsorbedAuxiliary db run)
      (ho : AbsorbedBy db run ownerRunId) (hp : patch.coalescedIntoRunId = some ownerRunId)
      (hstatus : patch.status.getD run.status ≠ .queued) (hto : LinksTo q (.updateRun run.runId patch))
      (hrun : (Write.updateRun run.runId patch).run db = .ok db') : Links (Absorbed q) a db' := by
    have hjn := AbsorbedBy.sameEpoch ha.mem ho
    have hF := absorbed_update (q := q) (Write.run_runs hrun) fun r => ⟨rfl, rfl⟩
    refine h.update (Write.run_runs hrun) hF fun r hr hid => ?_
    obtain rfl := run_unique ha.mem hr (beq_iff_eq.mp hid)
    refine ⟨rfl, fun _ hque => absurd hque hstatus, .inr ⟨ha.uncoalesced, ownerRunId, ?_, ?_⟩⟩
    · rw [RunPatch.apply, hp, Option.some_or]
    · exact hF _ _ ⟨hjn.1, hjn.2, hto _ _ _ rfl hp⟩
  cases hw with
  | coalesced ownerRunId _ ha _ ho => exact hj ha ho rfl (fun hque => by cases hque) hq hrun
  | joined ownerRunId _ ha hs ho =>
    refine hj ha ho rfl (fun hque => ?_) hq hrun
    rw [Option.getD_none] at hque
    rw [hque] at hs
    rcases hs with hs | hs | hs <;> cases hs
  | unresolved => exact complete_links rfl hrun h
  | marked => exact patch_links rfl (fun hque => by cases hque) hrun h

theorem effect_links (hw : RunEffect db w) (hq : LinksTo q w) (hrun : w.run db = .ok db') (h : Links (Absorbed q) a db) :
    Links (Absorbed q) a db' := by
  cases hw with
  | aside hne => exact h.same (Write.run_runs_of_ne hrun hne) (absorbed_same (Write.run_runs_of_ne hrun hne))
  | touched hw =>
    cases hw with
    | @touched runId patch hp =>
      have hkp : KeepsIdentity (effectivePatch (getByRunId db runId) patch) := effectivePatch_keepsIdentity hp
      exact patch_links hkp.coalescedIntoRunId hkp.status hrun h
  | ended _ ht => exact complete_links ht hrun h
  | withdrawn =>
    refine h.update (Write.run_runs hrun) (absorbed_update (Write.run_runs hrun) fun r => ⟨rfl, rfl⟩) fun r hr _ => ?_
    exact .ended rfl (fun hque => by cases hque) rfl
  | settled hw => exact settlement_links hw hq hrun h
  | bound => exact patch_links rfl (fun hque => by cases hque) hrun h
  | minted _ _ hl =>
    refine h.insert (Write.run_runs hrun) (fun x y hxy => ?_) hl
    exact ⟨hxy.ne, hxy.epoch.insert (Write.run_runs hrun), hxy.owner⟩

end Effects

def Joins (db : Db) : Action → Db → String → String → Prop
  | .markQueuedCoalesced runId updates => fun _ x y => x = runId ∧ y = updates.ownerRunId ∧ Queued db x
  | .claimQueuedHeadlessTurnInput _ runId _ _ => fun _ x y => x ≠ y ∧ y = runId ∧ Queued db x ∧ Queued db y
  | .settleAbsorbed _ ownerRunId _ => Absorbed fun _ owner => owner = ownerRunId
  | .settlePriorAbsorbed _ ownerRunId _ => Absorbed fun _ owner => owner = ownerRunId
  | .settleUnstarted settlement _ => Absorbed fun _ ownerRunId => settlement.action = .coalesced ownerRunId
  | .project _ => Absorbed fun _ _ => True
  | _ => fun _ _ _ => False

def MayWait (db : Db) (runId : String) (status : Option RunStatus) : Prop :=
  status = some .queued → ∀ r ∈ getByRunId db runId, r.coalescedIntoRunId = none

def Allowed (s : BrokerEventMapper) : Action → Prop
  | .insert _ record => record.coalescedIntoRunId = none
  | .update _ runId patch => patch.coalescedIntoRunId = none ∧ MayWait s.db runId patch.status
  | .updateStatus runId status _ => MayWait s.db runId (some status)
  | .markCompleted runId updates => MayWait s.db runId (some updates.status)
  | _ => True

section Steps

variable [Host] {s : BrokerEventMapper} {a : Db} {q : String → String → Prop}

abbrev Still : Db → String → String → Prop := fun _ _ _ => False

variable {J : String → String → Prop} {r : HrcRunRecord} {claim : QueuedClaim} {patch : RunUpdatePatch}
  {updates : QueuedCoalesce} {invocationId ownerRunId : String}

omit [Host] in
theorem effective_moves {current : Option HrcRunRecord}
    (hl : patch.coalescedIntoRunId = none)
    (hw : patch.status = some .queued → r.coalescedIntoRunId = none) : Moves J r ((effective current patch).apply r) := by
  have he : (effective current patch).coalescedIntoRunId = none ∧
      ((effective current patch).status = patch.status ∨ (effective current patch).status = none) := by
    unfold effective
    split
    · exact ⟨hl, .inl rfl⟩
    · split
      · exact ⟨hl, .inr rfl⟩
      · exact ⟨hl, .inl rfl⟩
  obtain ⟨hn, hstatus⟩ := he
  have hs : ((effective current patch).apply r).coalescedIntoRunId = r.coalescedIntoRunId := by
    simp only [RunUpdatePatch.apply, RunPatch.apply, hn, Option.none_or]
  refine ⟨rfl, fun hwt hque => hs.trans ?_, .inl hs⟩
  simp only [RunUpdatePatch.apply, RunPatch.apply] at hque
  cases hp : (effective current patch).status with
  | none => exact hwt (by rwa [hp] at hque)
  | some status =>
    rw [hp] at hque hstatus
    rcases hstatus with hstatus | hstatus
    · exact hw (hstatus.symm.trans (congrArg some hque))
    · cases hstatus

variable {token : Option String} {runId : String}

theorem update_links
    (hl : patch.coalescedIntoRunId = none) (hw : MayWait s.db runId patch.status) :
    KeepsFrom (Links Still a) s (RunOperations.update token runId patch) := by
  refine update_keepsFrom fun runs hrn h => h.update hrn (fun _ _ h => h) fun r hr hid => ?_
  obtain rfl := beq_iff_eq.mp hid
  exact effective_moves hl fun hque => hw hque r (getByRunId_of_mem hr)

theorem markCompleted_links {updates : RunCompletion} (hwt : MayWait s.db runId (some updates.status)) :
    KeepsFrom (Links Still a) s (RunRepository.markCompleted runId updates) := by
  refine .of_writes (P := fun db w => db = s.db ∧ w = .completeRun runId updates)
    (markCompleted_writesFrom ⟨rfl, rfl⟩) fun db w db' hw hrun h => ?_
  obtain ⟨rfl, rfl⟩ := hw
  refine h.update (Write.run_runs hrun) (fun _ _ h => h) fun r hr hid => ?_
  obtain rfl := beq_iff_eq.mp hid
  exact ⟨rfl, fun _ hque => hwt (congrArg some hque) r (getByRunId_of_mem hr), .inl rfl⟩

theorem endUnstarted_links {settlement : UnstartedSubmissionSettlement} {status : RunStatus} {now : String}
    (ht : status.isRunTerminal = true) : Keeps (Links (Absorbed q) a) (endUnstarted settlement status now) := by
  refine fun s => .of_writes (P := fun _ w => ∃ runId updates, w = .completeRun runId updates ∧ updates.status = status)
    (markCompleted_writesFrom ⟨_, _, rfl, rfl⟩) fun db w db' hw hr h => ?_
  obtain ⟨runId, updates, rfl, rfl⟩ := hw
  exact complete_links ht hr h

theorem settleAuxiliary_links {submissionId completedAt : String} (hq : ∀ runId, q runId ownerRunId) :
    Keeps (Links (Absorbed q) a) (settleAuxiliary invocationId submissionId ownerRunId completedAt) := fun s =>
  .of_writes (settleAuxiliary_writes (P := fun db w => Settlement db w ∧ LinksTo (fun _ owner => owner = ownerRunId) w)
    (fun _ _ h hto => ⟨h, hto⟩) s) fun _ _ _ hw =>
      settlement_links hw.1 fun _ _ _ hwr hp => hw.2 _ _ _ hwr hp ▸ hq _

theorem failUnresolved_links {runtimeId now : String} :
    Keeps (Links (Absorbed fun _ _ => False) a) (failUnresolvedAbsorbedAuxiliaries runtimeId invocationId now) := fun s =>
  .of_writes (failUnresolvedAbsorbedAuxiliaries_writesFrom
    (P := fun db w => Settlement db w ∧ LinksTo (fun _ _ => False) w) fun _ _ h hto _ => ⟨h, hto⟩)
    fun _ _ _ hw => settlement_links hw.1 hw.2

omit [Host] in
theorem Links.still {b : Db} (h : Links (Absorbed fun _ _ => False) a b) : Links Still a b :=
  ⟨h.queued, h.kept, fun x y hxy => (h.fresh x y hxy).imp_right fun hfr => hfr.2.owner.elim⟩

omit [Host] in
theorem isQueued_iff :
    isQueued runId r = true ↔ r.runId = runId ∧ r.status = .queued := by
  rw [isQueued, Bool.and_eq_true, beq_iff_eq, beq_iff_eq]

omit [Host] in
theorem coalesce_moves (hl : r.coalescedIntoRunId = none)
    (hJ : J r.runId updates.ownerRunId) : Moves J r (updates.apply r) :=
  ⟨rfl, fun _ hque => (by cases hque), .inr ⟨hl, _, rfl, hJ⟩⟩

theorem markQueuedCoalesced_links :
    Keeps (fun db => Links (fun _ x y => x = runId ∧ y = updates.ownerRunId ∧ Queued a x) a db ∧
      ∀ x, Queued db x → Queued a x) (RunOperations.markQueuedCoalesced runId updates) := by
  refine markQueuedCoalesced_keeps fun db runs hrn ⟨h, hold⟩ => ⟨?_, fun x hx => ?_⟩
  · refine h.update hrn (fun _ _ h => h) fun r hr hque => ?_
    obtain ⟨rfl, hstatus⟩ := isQueued_iff.mp hque
    exact coalesce_moves (h.queued r hr hstatus) ⟨rfl, rfl, hold _ ⟨r, hr, rfl, hstatus⟩⟩
  · exact hold x (queued_update hrn (fun _ _ => ⟨rfl, fun h => by cases h⟩) hx)

abbrev Drained (a : Db) (runId : String) : Db → String → String → Prop :=
  fun _ x y => x ≠ y ∧ y = runId ∧ Queued a x ∧ Queued a y

theorem claimQueued_links {F : String → String → Prop} :
    Keeps (fun db => Links (fun _ => F) a db ∧ ∀ x, Queued db x → Queued a x)
      (RunOperations.claimQueued token runId claim) := by
  refine claimQueued_keeps fun db runs hrn ⟨h, hold⟩ => ⟨?_, fun x hx => ?_⟩
  · exact h.update hrn (fun _ _ h => h) fun r hr _ => .ended rfl (fun hque => by cases hque) rfl
  · exact hold x (queued_update hrn (fun _ _ => ⟨rfl, fun h => by cases h⟩) hx)

theorem claimed_unqueued {t : BrokerEventMapper}
    (h : RunOperations.claimQueued token runId claim s = (.ok true, t)) : Queued s.db runId ∧ ¬ Queued t.db runId := by
  obtain ⟨runs, hrn, ht, r, hr, hque⟩ := claimQueued_eq_ok h
  obtain ⟨hid, hstatus⟩ := isQueued_iff.mp hque
  refine ⟨⟨r, hr, hid, hstatus⟩, fun hx => ?_⟩
  obtain ⟨r', hr', hid', hs'⟩ := hx
  rw [ht, update_rows hrn] at hr'
  obtain ⟨r₀, -, rfl⟩ := List.mem_map.mp hr'
  split at hs'
  · cases hs'
  · rename_i hne
    rw [if_neg hne] at hid'
    exact hne (isQueued_iff.mpr ⟨hid', hs'⟩)

theorem coalesceMember_links {claimedAt : String} {member : CoalescedQueuedMember} (hown : Queued a runId) :
    Keeps (fun db => (Links (Drained a runId) a db ∧ ∀ x, Queued db x → Queued a x) ∧ ¬ Queued db runId)
      (coalesceMember runId claimedAt member) := by
  refine coalesceMember_keeps fun updates hu => markQueuedCoalesced_keeps fun db runs hrn ⟨⟨h, hold⟩, hc⟩ => ?_
  have hba (x : String) (hx : Queued { db with runs } x) : Queued db x :=
    queued_update hrn (fun _ _ => ⟨rfl, fun h => by cases h⟩) hx
  refine ⟨⟨?_, fun x hx => hold x (hba x hx)⟩, fun hx => hc (hba _ hx)⟩
  refine h.update hrn (fun _ _ h => h) fun r hr hque => ?_
  obtain ⟨-, hstatus⟩ := isQueued_iff.mp hque
  refine coalesce_moves (h.queued r hr hstatus) ?_
  rw [hu]
  exact ⟨fun hid => hc ⟨r, hr, hid, hstatus⟩, rfl, hold _ ⟨r, hr, rfl, hstatus⟩, hown⟩

theorem drain_links {members : List CoalescedQueuedMember} :
    Keeps (fun db => Links (Drained a runId) a db ∧ ∀ x, Queued db x → Queued a x)
      (RunOperations.claimQueuedHeadlessTurnInput token runId claim members) := by
  have hclm : Keeps (fun db => Links (Drained a runId) a db ∧ ∀ x, Queued db x → Queued a x)
      (RunOperations.claimQueued token runId claim) := claimQueued_links
  refine .transaction fun u hu => KeepsFrom.bind (hclm u) (fun claimed t ht => ?_) hu
  have htdb : Links (Drained a runId) a t.db ∧ ∀ x, Queued t.db x → Queued a x := by
    have h := hclm u hu
    rwa [ht] at h
  cases claimed with
  | false => exact KeepsFrom.bind (Keeps.when (fun _ => .of_readOnly (fail_readOnly _)) t) fun _ _ h => by cases h
  | true =>
    obtain ⟨hown, hc⟩ := claimed_unqueued ht
    exact fun _ => (Keeps.forEach fun _ => coalesceMember_links (hu.2 _ hown)) t ⟨htdb, hc⟩ |>.1

omit [Host] in
theorem settle_links {m : M Unit}
    (h : Writes (fun db w => Settlement db w ∧ LinksTo (fun _ owner => owner = ownerRunId) w) m) :
    Keeps (Links (Absorbed fun _ owner => owner = ownerRunId) a) m := fun s =>
  .of_writes (h s) fun _ _ _ hw => settlement_links hw.1 hw.2

/-- What one allowed operation does to the links. -/
theorem step_links {action : Action} (hok : Allowed s action) (hs : QueuedUnlinked s.db) :
    Links (Joins s.db action) s.db (step action s).db := by
  cases action with
  | insert token record =>
    refine discard_keeps (insert_keeps fun db db' hr h => ?_) s (.refl hs)
    exact h.insert (Write.run_runs hr) (fun _ _ h => h) hok
  | update token runId patch =>
    exact KeepsFrom.bind (update_links hok.1 hok.2) (fun _ t _ => Keeps.pure () t) (.refl hs)
  | updateStatus runId status updatedAt =>
    exact KeepsFrom.bind (update_links rfl hok) (fun _ t _ => Keeps.pure () t) (.refl hs)
  | fenceBrokerInput runId fencedAt reason =>
    exact KeepsFrom.bind (update_links rfl fun h => by cases h) (fun _ t _ => Keeps.pure () t) (.refl hs)
  | markCompleted runId updates => exact markCompleted_links hok (.refl hs)
  | markQueuedCoalesced runId updates =>
    exact (discard_keeps markQueuedCoalesced_links s ⟨.refl hs, fun _ h => h⟩).1
  | claimQueued token runId claim =>
    exact (discard_keeps claimQueued_links s ⟨.refl hs, fun _ h => h⟩).1
  | snapshotQueued hostSessionId snapshotId updatedAt =>
    refine discard_keeps (snapshotQueued_keeps fun _ _ _ _ _ hrn h =>
      h.update hrn (fun _ _ h => h) fun r _ _ => ?_) s (.refl hs)
    exact ⟨rfl, id, .inl rfl⟩
  | setCorrelationJson runId json =>
    refine KeepsFrom.of_writes (statement_writesFrom (P := fun _ w => w = .setCorrelation runId json) rfl)
      (fun db w db' hw hr h => ?_) (.refl hs)
    subst hw
    exact h.update (Write.run_runs hr) (fun _ _ h => h) fun r _ _ => ⟨rfl, id, .inl rfl⟩
  | claimQueuedHeadlessTurnInput token runId claim members => exact (drain_links s ⟨.refl hs, fun _ h => h⟩).1
  | settleAbsorbed envelope ownerRunId now =>
    exact settle_links (settleAbsorbedAuxiliary_writes fun _ _ h hto => ⟨h, hto⟩) s (.refl hs)
  | settlePriorAbsorbed envelope ownerRunId now =>
    exact settle_links (settlePriorAbsorbedAuxiliaries_writes fun _ _ h hto => ⟨h, hto⟩) s (.refl hs)
  | settleUnownedTurn envelope outcome now =>
    refine (KeepsFrom.of_writes (settleUnownedTurnAbsorbedSteers_writes (P := fun db w => SteerEnd db envelope w)
      (terminalStatus_terminal _) (fun _ _ h => h) s) (fun db w db' hw hr h => ?_) (Links.refl hs)).still
    cases hw with
    | ended _ _ _ _ _ _ _ hout => exact complete_links hout hr h
  | failUnresolved runtimeId invocationId now => exact (failUnresolved_links s (.refl hs)).still
  | settleTerminalInvocation runtimeId now =>
    exact (settleTerminalInvocation_keeps (fun _ => failUnresolved_links) s (.refl hs)).still
  | settleUnstarted settlement now =>
    exact settleUnstarted_keeps (fun _ hown => settleAuxiliary_links fun _ => hown) (fun _ htr => endUnstarted_links htr)
      s (.refl hs)
  | project c =>
    refine discard_keeps (call_keeps (fun _ _ _ _ _ hw => effect_links (project_effect hw) fun _ _ _ _ _ => trivial)
      (fun w db db' ht hr h => ?_) c) s (.refl hs)
    have hrn := Write.run_runs_of_ne hr (by rw [ht]; nofun)
    exact h.same hrn (absorbed_same hrn)
  | world f => exact (Links.refl hs).same rfl fun _ _ h => h

end Steps

def Chain (P : Db → Write → Prop) : Db → Db → Prop := ReflTransGen fun a b => ∃ w, P a w ∧ w.run a = .ok b

def NoReturn (db : Db) : Write → Prop := LinksTo fun runId ownerRunId => ¬ ReflTransGen (Linked db) ownerRunId runId

/-- No owner leads back to the run that is linked to it. A projection is taken statement by statement, and the drain
needs no condition. -/
def Forward [Host] (s : BrokerEventMapper) : Action → Prop
  | .project c => Chain (fun db w => RunEffect db w ∧ NoReturn db w) s.db (step (.project c) s).db
  | .claimQueuedHeadlessTurnInput .. => True
  | action => ∀ x y, Linked (step action s).db x y → ¬ Linked s.db x y → ¬ ReflTransGen (Linked s.db) y x

section Cycles

variable [Host] {s : BrokerEventMapper} {a b : Db} {F : Db → String → String → Prop}

omit [Host] in
theorem Links.acyclic (h : Links F a b) (ha : Acyclic (Linked a)) (hone : ∀ x y x' y', F b x y → F b x' y' → y = y')
    (hba : ∀ x y, Linked b x y → ¬ Linked a x y → F b x y → ¬ ReflTransGen (Linked a) y x) : Acyclic (Linked b) := by
  refine ha.graft (E := fun x y => Linked b x y ∧ ¬ Linked a x y ∧ F b x y) (fun x y hxy => ?_)
    (fun _ _ _ _ h h' => hone _ _ _ _ h.2.2 h'.2.2) fun x y hxy => hba x y hxy.1 hxy.2.1 hxy.2.2
  by_cases hold : Linked a x y
  · exact .inl hold
  · rcases h.fresh x y hxy with hfr | hfr
    · exact absurd hfr hold
    · exact .inr ⟨hxy, hold, hfr.2⟩

omit [Host] in
theorem write_acyclic {w : Write} (hw : RunEffect a w) (hr : NoReturn a w) (hrun : w.run a = .ok b)
    (hque : QueuedUnlinked a) (ha : Acyclic (Linked a)) : QueuedUnlinked b ∧ Acyclic (Linked b) := by
  have hl : Links (Absorbed fun runId ownerRunId => ¬ ReflTransGen (Linked a) ownerRunId runId ∧
      ∃ patch, w = .updateRun runId patch ∧ patch.coalescedIntoRunId = some ownerRunId) a b :=
    effect_links hw (fun runId patch ownerRunId hwr hp =>
      ⟨hr runId patch ownerRunId hwr hp, patch, hwr, hp⟩) hrun (.refl hque)
  refine ⟨hl.queued, hl.acyclic ha (fun x y x' y' h h' => ?_) fun _ _ _ _ h => h.owner.1⟩
  obtain ⟨patch, hwr, hp⟩ := h.owner.2
  obtain ⟨patch', hw', hp'⟩ := h'.owner.2
  cases hwr.symm.trans hw'
  exact Option.some.inj (hp.symm.trans hp')

omit [Host] in
theorem chain_acyclic (h : Chain (fun db w => RunEffect db w ∧ NoReturn db w) a b) (hque : QueuedUnlinked a)
    (ha : Acyclic (Linked a)) : QueuedUnlinked b ∧ Acyclic (Linked b) := by
  induction h with
  | refl => exact ⟨hque, ha⟩
  | tail _ hs ih =>
    obtain ⟨w, ⟨hw, hr⟩, hrun⟩ := hs
    exact write_acyclic hw hr hrun ih.1 ih.2

omit [Host] in
theorem drained_acyclic {runId : String} (h : Links (Drained a runId) a b) (hque : QueuedUnlinked a)
    (ha : Acyclic (Linked a)) : Acyclic (Linked b) := by
  refine h.acyclic ha (fun x y x' y' h h' => h.2.1.trans h'.2.1.symm) fun x y _ _ ⟨hne, _, _, r, hr, hid, hstatus⟩ hre => ?_
  refine hne (eq_of_reach (fun z hz => ?_) hre)
  obtain ⟨r', hr', hid', hl⟩ := hz
  rw [run_unique hr hr' (hid'.trans hid.symm), hque r hr hstatus] at hl
  cases hl

theorem step_acyclic {action : Action} (hok : Allowed s action) (hf : Forward s action)
    (hque : QueuedUnlinked s.db) (hs : Acyclic (Linked s.db)) : Acyclic (Linked (step action s).db) := by
  have hl := step_links hok hque
  cases action with
  | project c => exact (chain_acyclic hf hque hs).2
  | claimQueuedHeadlessTurnInput token runId claim members => exact drained_acyclic hl hque hs
  | markQueuedCoalesced runId updates =>
    exact hl.acyclic hs (fun _ _ _ _ h h' => h.2.1.trans h'.2.1.symm) fun x y hxy hn _ => hf x y hxy hn
  | settleAbsorbed envelope ownerRunId now =>
    exact hl.acyclic hs (fun _ _ _ _ h h' => h.owner.trans h'.owner.symm) fun x y hxy hn _ => hf x y hxy hn
  | settlePriorAbsorbed envelope ownerRunId now =>
    exact hl.acyclic hs (fun _ _ _ _ h h' => h.owner.trans h'.owner.symm) fun x y hxy hn _ => hf x y hxy hn
  | settleUnstarted settlement now =>
    refine hl.acyclic hs (fun _ _ _ _ h h' => ?_) fun x y hxy hn _ => hf x y hxy hn
    exact SettlementAction.coalesced.inj (h.owner.symm.trans h'.owner)
  | _ => exact hl.acyclic hs (fun _ _ _ _ h _ => h.elim) fun _ _ _ _ h => h.elim

/-- Over every sequence of run operations, projections and settlements, each link is made once and stands: a settlement
joins two different runs of one runtime, invocation, operation and generation, and a drain joins queued runs to the one
queued run it claims. The links stay free of cycles unless an owner is named that leads back to the run it absorbs. -/
theorem coalesce_forest (s : BrokerEventMapper) (actions : List Action) (hs : QueuedUnlinked s.db)
    (hallowed : Meets step Allowed actions s) :
    (∀ before action after, actions = before ++ action :: after →
      Links (Joins (run step before s).db action) (run step before s).db (run step (before ++ [action]) s).db) ∧
    (∀ before after, actions = before ++ after → ∀ x y, Linked (run step before s).db x y →
      ∀ z, Linked (run step actions s).db x z ↔ z = y) ∧
    (Acyclic (Linked s.db) → Meets step Forward actions s → Acyclic (Linked (run step actions s).db)) := by
  refine ⟨fun before action after h => ?_, ?_, fun hac hf => ?_⟩
  · exact run_each (I := fun t => QueuedUnlinked t.db) (P := fun t action u => Links (Joins t.db action) t.db u.db)
      (fun _ _ h ha => (step_links ha h).queued) (fun _ _ h ha => step_links ha h) hs hallowed h
  · rintro before after rfl x y hxy z
    obtain ⟨hbef, haft⟩ := meets_append.mp hallowed
    have hque : QueuedUnlinked (run step before s).db :=
      run_invariant (I := fun t => QueuedUnlinked t.db) (fun _ _ h ha => (step_links ha h).queued) hs hbef
    have hl := run_invariant (I := fun t => QueuedUnlinked t.db ∧ Linked t.db x y)
      (fun _ _ h ha => ⟨(step_links ha h.1).queued, (step_links ha h.1).kept x y h.2⟩) ⟨hque, hxy⟩ haft
    rw [run_append]
    exact ⟨fun hz => linked_unique hz hl.2, fun hz => hz ▸ hl.2⟩
  · exact (run_invariant (I := fun t => QueuedUnlinked t.db ∧ Acyclic (Linked t.db))
      (fun _ _ h ha => ⟨(step_links ha.1 h.1).queued, step_acyclic ha.1 ha.2 h.1 h.2⟩) ⟨hs, hac⟩
      (meets_and hallowed hf)).2

end Cycles

def queuedMapper : BrokerEventMapper :=
  { sampleMapper with
    db := { sampleMapper.db with
      runs := ⟨[{ runId := "member", status := .queued }, { runId := "owner", status := .queued }], by decide⟩ } }

def drained : Action :=
  .claimQueuedHeadlessTurnInput none "owner"
    { runtimeId := some "rt", invocationId := some "inv", operationId := some "op", dispatchedInputId := none, updatedAt := "1" }
    [{ runId := "member", sourceMessageId := "message", position := 0, accepted := true }]

theorem coalesce_forest_drained :
    let _ := steadyHost
    Links (Drained queuedMapper.db "owner") queuedMapper.db (run step [drained] queuedMapper).db ∧
      Acyclic (Linked (run step [drained] queuedMapper).db) :=
  let _ := steadyHost
  have h := coalesce_forest queuedMapper [drained] (by decide) ⟨trivial, trivial⟩
  ⟨h.1 [] drained [] rfl, h.2.2 (acyclic_of_empty (by simp [Linked, queuedMapper])) ⟨trivial, trivial⟩⟩

def steered (runId submissionId : String) : Action :=
  .insert none
    { runId, hostSessionId := "host", runtimeId := some "rt", invocationId := some "inv", operationId := some "op"
      brokerSubmissionId := some submissionId }

def submission (seq : Nat) (type : EventType) (turnId : Option String) (submissionId : String) : Action :=
  .project (.project false { sampleEvent seq type with
    turnId, payload := .obj (.cons "submissionId" (.str submissionId) (.cons "class" (.str "steer") .nil)) })

def contradictory : List Action :=
  [steered "a" "sa", steered "b" "sb", submission 1 .admissionAdmitted none "sa", submission 2 .admissionAdmitted none "sb",
    submission 3 .submissionExecuted (some "T1") "sb", submission 4 .submissionAbsorbed (some "T1") "sa",
    submission 5 .submissionExecuted (some "T2") "sa", submission 6 .submissionAbsorbed (some "T2") "sb"]

/-- A drain joins runs of no common invocation, `markQueuedCoalesced` takes the run itself as owner, and contradictory
evidence closes a cycle. -/
theorem links_no_forest :
    letI := steadyHost
    (Linked (run step [drained] queuedMapper).db "member" "owner" ∧
      ¬ SameEpoch (run step [drained] queuedMapper).db "member" "owner") ∧
    Linked (run step [.markQueuedCoalesced "owner" { ownerRunId := "owner", position := 0, completedAt := "1", updatedAt := "1" }]
      queuedMapper).db "owner" "owner" ∧
    ¬ Acyclic (Linked (run step contradictory sampleMapper).db) := by
  let _ := steadyHost
  have hab : Linked (run step contradictory sampleMapper).db "a" "b" := by decide +kernel
  have hba : Linked (run step contradictory sampleMapper).db "b" "a" := by decide +kernel
  exact ⟨⟨by decide +kernel, by decide +kernel⟩, by decide +kernel, fun h => h "a" (.tail (.single hab) hba)⟩

end HrcRuntime.CoalesceForest
