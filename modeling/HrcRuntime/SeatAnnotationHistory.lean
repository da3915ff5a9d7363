import HrcRuntime.SeatAnnotations

namespace HrcRuntime.SeatAnnotations

open Keyed Json

variable {s : State} {k : RowKey}

theorem bind_eq_ok {α β : Type} {x : Admission α} {f : α → Admission β} {b : β} :
    (x >>= f) = .ok b ↔ ∃ a, x = .ok a ∧ f a = .ok b := by
  cases x with
  | error r =>
    constructor
    · intro h
      cases h
    · rintro ⟨a, h, -⟩
      cases h
  | ok a =>
    constructor
    · exact fun h => ⟨a, rfl, h⟩
    · rintro ⟨b, hb, h⟩
      cases hb
      exact h

def stamps (log : List Written) (k : RowKey) : List Millis := (log.filter (·.key == k)).filterMap (·.stamp)

def latest (log : List Written) (k : RowKey) : Option Millis := (log.filter (·.key == k)).getLast?.bind (·.stamp)

section Log

variable {log : List Written} {w : Written}

theorem filter_append_self (h : w.key = k) :
    (log ++ [w]).filter (·.key == k) = log.filter (·.key == k) ++ [w] := by
  rw [List.filter_append, List.filter_cons_of_pos (by simpa using h), List.filter_nil]

theorem filter_append_of_ne (h : w.key ≠ k) : (log ++ [w]).filter (·.key == k) = log.filter (·.key == k) := by
  rw [List.filter_append, List.filter_cons_of_neg (by simpa using h), List.filter_nil, List.append_nil]

theorem stamps_append_self (h : w.key = k) : stamps (log ++ [w]) k = stamps log k ++ w.stamp.toList := by
  unfold stamps
  rw [filter_append_self h, List.filterMap_append]
  cases hs : w.stamp with
  | none => rw [List.filterMap_cons_none hs]; rfl
  | some m => rw [List.filterMap_cons_some hs]; rfl

theorem stamps_append_of_ne (h : w.key ≠ k) : stamps (log ++ [w]) k = stamps log k := by
  unfold stamps
  rw [filter_append_of_ne h]

theorem latest_append_self (h : w.key = k) : latest (log ++ [w]) k = w.stamp := by
  unfold latest
  rw [filter_append_self h, List.getLast?_concat]
  rfl

theorem latest_append_of_ne (h : w.key ≠ k) : latest (log ++ [w]) k = latest log k := by
  unfold latest
  rw [filter_append_of_ne h]

theorem getLast?_stamps {m : Millis} (h : latest log k = some m) : (stamps log k).getLast? = some m := by
  unfold latest at h
  unfold stamps
  rcases List.eq_nil_or_concat (log.filter (·.key == k)) with hn | ⟨before, last, hl⟩
  · rw [hn] at h
    cases h
  · rw [List.concat_eq_append] at hl
    rw [hl, List.getLast?_concat] at h
    have hs : last.stamp = some m := h
    rw [hl, List.filterMap_append, List.filterMap_cons_some hs, List.filterMap_nil, List.getLast?_concat]

end Log

structure Admitted (s : State) (k : RowKey) (expect : Expect) : Prop where
  absent : expect.updatedAt = some .absent → s.rows.find k = none
  stamp : ∀ stamp, expect.updatedAt = some (.at stamp) → ∃ r, s.rows.find k = some r ∧ stamp = some r.updatedAt

theorem admitted_of_fences {expect : Expect} {subject : Subject}
    (h : s.check_fences expect subject (s.rows.find k) = .ok ()) : Admitted s k expect := by
  unfold State.check_fences at h
  split at h
  · cases h
  · split at h
    · cases h
    · constructor
      · intro habs
        rw [habs] at h
        dsimp only at h
        split at h
        · rename_i hn
          exact Option.isNone_iff_eq_none.mp hn
        · cases h
      · intro stamp hst
        rw [hst] at h
        dsimp only at h
        split at h
        · rename_i hany
          obtain ⟨r, hr, hs⟩ := (Option.any_eq_true _ _).mp hany
          exact ⟨r, hr, (eq_of_beq hs).symm⟩
        · cases h

section Inversion

variable [Clock] {subject : Subject} {row : Option Annotation}

structure PutAdmitted (s : State) (put : AnnotationPut) (subject : Subject) (row : Option Annotation) : Prop where
  valid : validate_key put.key = .ok () ∧ validate_object "body" put.body = .ok ()
  resolves : s.annotation_subject put.key = .ok subject
  found : row = s.rows.find (State.row_key put.key subject.host)
  fences : ∃ expect, parse_expect put.expect = .ok expect ∧ Admitted s (State.row_key put.key subject.host) expect
  quota : row = none →
    (s.held put.key.scope (storage_lane put.key.lane) subject.host).length < ANNOTATION_QUOTA

variable {put : AnnotationPut}

theorem putAdmitted (h : s.admit_put put = .ok (subject, row)) :
    PutAdmitted s put subject row := by
  obtain ⟨_, hk, h⟩ := bind_eq_ok.mp h
  obtain ⟨_, hbd, h⟩ := bind_eq_ok.mp h
  obtain ⟨expect, he, h⟩ := bind_eq_ok.mp h
  obtain ⟨subject', hs, h⟩ := bind_eq_ok.mp h
  obtain ⟨_, hf, h⟩ := bind_eq_ok.mp h
  split at h
  · cases h
  · rename_i hqt
    cases h
    refine ⟨⟨hk, hbd⟩, hs, rfl, ⟨expect, he, admitted_of_fences hf⟩, fun hn => ?_⟩
    rw [hn] at hqt
    simpa using hqt

theorem admit_again {s' : State} (h : PutAdmitted s put subject row)
    (hs : s'.sessions = s.sessions) {r : Annotation}
    (hr : s'.rows.find (State.row_key put.key subject.host) = some r) :
    s'.admit_put { put with expect := none } = .ok (subject, some r) := by
  have hsb : s'.annotation_subject put.key = .ok subject := by
    unfold State.annotation_subject
    rw [hs]
    exact h.resolves
  have hf : s'.annotation_row put.key subject.host = some r := hr
  refine bind_eq_ok.mpr ⟨(), h.valid.1, bind_eq_ok.mpr ⟨(), h.valid.2, bind_eq_ok.mpr ⟨{}, rfl,
    bind_eq_ok.mpr ⟨subject, hsb, bind_eq_ok.mpr ⟨(), rfl, ?_⟩⟩⟩⟩⟩
  rw [hf]
  rfl

structure DeleteAdmitted (s : State) (key : AnnotationKey) (expect : Option Json) (subject : Subject)
    (row : Option Annotation) : Prop where
  resolves : s.annotation_subject key = .ok subject
  found : row = s.rows.find (State.row_key key subject.host)
  fences : ∃ e, parse_expect expect = .ok e ∧ Admitted s (State.row_key key subject.host) e

theorem deleteAdmitted {key : AnnotationKey} {expect : Option Json} (h : s.admit_delete key expect = .ok (subject, row)) :
    DeleteAdmitted s key expect subject row := by
  obtain ⟨_, -, h⟩ := bind_eq_ok.mp h
  obtain ⟨e, he, h⟩ := bind_eq_ok.mp h
  obtain ⟨subject', hs, h⟩ := bind_eq_ok.mp h
  obtain ⟨_, hf, h⟩ := bind_eq_ok.mp h
  cases h
  exact ⟨hs, rfl, e, he, admitted_of_fences hf⟩

end Inversion

end HrcRuntime.SeatAnnotations

namespace HrcRuntime.SeatAnnotations

open Keyed Json

variable {s : State} {k : RowKey} {subject : Subject} {row : Option Annotation}

structure Inv (s : State) : Prop where
  latest : ∀ k, (s.rows.find k).map (·.updatedAt) = latest s.log k
  quota : ∀ scope lane host, (s.held scope lane host).length ≤ ANNOTATION_QUOTA

def Sorted (s : State) : Prop := ∀ k, (stamps s.log k).Pairwise (· < ·)

def Unique (s : State) : Prop := ∀ k, (stamps s.log k).Nodup

theorem Sorted.unique (h : Sorted s) : Unique s := fun k => (h k).imp fun hlt => Int.ne_of_lt hlt

theorem le_getLast? {l : List Millis} (h : l.Pairwise (· < ·)) {m a : Millis} (hl : l.getLast? = some m) (ha : a ∈ l) :
    a ≤ m := by
  rcases List.eq_nil_or_concat l with rfl | ⟨before, last, rfl⟩
  · cases ha
  · rw [List.concat_eq_append, List.getLast?_concat] at hl
    cases hl
    rw [List.concat_eq_append] at h ha
    rcases List.mem_append.mp ha with ha | ha
    · exact Int.le_of_lt ((List.pairwise_append.mp h).2.2 a ha m (List.mem_singleton_self m))
    · exact Int.le_of_eq (List.mem_singleton.mp ha)

theorem advance_gt {previous now : Millis} : previous < advance (some previous) now := by
  unfold advance
  dsimp only
  split
  · exact Int.lt_succ previous
  · exact Int.not_le.mp ‹_›

variable [Clock] {put : AnnotationPut} {now ts : Millis}

structure PutChange (s : State) (put : AnnotationPut) (now ts : Millis) (subject : Subject) (row : Option Annotation)
    (s' : State) : Prop where
  self : (s'.rows.find (State.row_key put.key subject.host)).map (·.updatedAt)
    = some (advance (row.map (·.updatedAt)) now)
  others : ∀ k, k ≠ State.row_key put.key subject.host → s'.rows.find k = s.rows.find k
  events : ∃ e, s'.events = s.events ++ [e]
  sessions : s'.sessions = s.sessions
  log : s'.log = s.log ++
    [{ key := State.row_key put.key subject.host, stamp := some (advance (row.map (·.updatedAt)) now) }]
  answer : ( s.put_annotation put now ts).1
    = .ok (s'.rows.find (State.row_key put.key subject.host), row.isNone)

variable {refusal : AnnotationRefusal}

theorem put_annotation_error (h : s.admit_put put = .error refusal) :
    s.put_annotation put now ts = (.error refusal, s) := by
  unfold State.put_annotation
  rw [h]

theorem put_change (h : s.admit_put put = .ok (subject, row)) :
    PutChange s put now ts subject row ( s.put_annotation put now ts).2 := by
  have hr := (putAdmitted h).found
  have hs := find_upsert_self (t := s.rows) (r := State.excluded put subject row now)
    (State.merge_key (State.excluded put subject row now))
  unfold State.put_annotation
  rw [h]
  refine ⟨?_, fun k hk => ?_, ⟨_, rfl⟩, rfl, rfl, ?_⟩
  · change Option.map _ (Store.find _ (State.excluded put subject row now).key) = _
    rw [hs]
    cases s.rows.find (State.excluded put subject row now).key <;> rfl
  · exact find_upsert_of_ne _ hk
  · unfold State.put_annotation
    rw [h]
    rfl

section Quota

/-- Whose rows `held` counts. -/
def ofSubject (scope lane host : String) (k : RowKey) : Bool :=
  k.scopeRef == scope && k.laneRef == lane && k.hostSessionId == host

omit [Clock] in
theorem held_eq (scope lane host : String) :
    s.held scope lane host = s.rows.rows.filter fun r => ofSubject scope lane host r.key := rfl

omit [Clock] in
theorem length_held_amend {t : Store Annotation Annotation.key} {p : Annotation → Bool} {f : Annotation → Annotation}
    (hf : ∀ r, (f r).key = r.key) (q : RowKey → Bool) :
    ((t.amend k p f hf).rows.filter fun r => q r.key).length = (t.rows.filter fun r => q r.key).length := by
  have hk : (t.amend k p f hf).rows.map Annotation.key = t.rows.map Annotation.key := map_amend hf hf
  have hc (l : List Annotation) : (l.filter fun r => q r.key).length = ((l.map Annotation.key).filter q).length := by
    rw [List.filter_map, List.length_map]
    rfl
  rw [hc, hc, hk]

theorem quota_put (hs : Inv s) (h : s.admit_put put = .ok (subject, row)) (scope lane host : String) :
    (( s.put_annotation put now ts).2.held scope lane host).length ≤ ANNOTATION_QUOTA := by
  have hadm := putAdmitted h
  have hrw : ( s.put_annotation put now ts).2.rows = s.rows.upsert (State.excluded put subject row now)
      (State.merge (State.excluded put subject row now)) (State.merge_key _) := by
    unfold State.put_annotation
    rw [h]
  rw [held_eq, hrw]
  unfold Store.upsert
  have hf : s.rows.find (State.excluded put subject row now).key = row := hadm.found.symm
  cases hr : row with
  | some r =>
    rw [if_pos (by rw [← hr, hf, hr]; rfl), length_held_amend]
    exact hs.quota scope lane host
  | none =>
    have hn : s.rows.find (State.excluded put subject none now).key = none := by rw [← hr, hf, hr]
    rw [if_neg (by rw [hn]; simp), rows_add hn, List.filter_append, List.length_append]
    let q (r : Annotation) : Bool := ofSubject scope lane host r.key
    by_cases hsl : ofSubject scope lane host (State.row_key put.key subject.host) = true
    · rw [List.filter_cons_of_pos (p := q) hsl, List.filter_nil]
      unfold ofSubject at hsl
      simp only [Bool.and_eq_true, beq_iff_eq] at hsl
      obtain ⟨⟨hsc, hl⟩, hh⟩ := hsl
      have hqt := hadm.quota hr
      rw [← hsc, ← hl, ← hh, ← held_eq]
      exact hqt
    · rw [List.filter_cons_of_neg (p := q) hsl, List.filter_nil, List.length_nil, Nat.add_zero, ← held_eq]
      exact hs.quota scope lane host

end Quota

structure DeleteChange (s : State) (k : RowKey) (s' : State) : Prop where
  rows : s'.rows = s.rows.erase fun r => r.key == k
  events : ∃ e, s'.events = s.events ++ [e]
  log : s'.log = s.log ++ [{ key := k, stamp := none }]

variable {key : AnnotationKey} {expect : Option Json} {updatedBy : String}

theorem delete_annotation_error (h : s.admit_delete key expect = .error refusal) :
    s.delete_annotation key expect updatedBy ts = (.error refusal, s) := by
  unfold State.delete_annotation
  rw [h]

theorem delete_annotation_absent (h : s.admit_delete key expect = .ok (subject, none)) :
    s.delete_annotation key expect updatedBy ts = (.ok false, s) := by
  unfold State.delete_annotation
  rw [h]

theorem delete_change {r : Annotation} (h : s.admit_delete key expect = .ok (subject, some r)) :
    (s.delete_annotation key expect updatedBy ts).1 = .ok true ∧
      DeleteChange s (State.row_key key subject.host) (s.delete_annotation key expect updatedBy ts).2 := by
  unfold State.delete_annotation
  rw [h]
  exact ⟨rfl, rfl, ⟨_, rfl⟩, rfl⟩

omit [Clock] in
theorem act_rows (s : State) (key : AnnotationKey) (action : String) (attributes : Option Json) (ts : Millis) :
    (s.act_annotation key action attributes ts).2.rows = s.rows
      ∧ (s.act_annotation key action attributes ts).2.log = s.log := by
  unfold State.act_annotation
  split <;> exact ⟨rfl, rfl⟩

omit [Clock] in
theorem latest_write (hs : Inv s) {rows : Store Annotation Annotation.key} {w : Written}
    (hsl : (rows.find w.key).map (·.updatedAt) = w.stamp)
    (hoth : ∀ k, k ≠ w.key → rows.find k = s.rows.find k) (k : RowKey) :
    (rows.find k).map (·.updatedAt) = latest (s.log ++ [w]) k := by
  by_cases hk : k = w.key
  · subst hk
    rw [hsl, latest_append_self rfl]
  · rw [hoth k hk, hs.latest k, latest_append_of_ne (Ne.symm hk)]

omit [Clock] in
theorem inv_initial : Inv initial where
  latest _ := rfl
  quota _ _ _ := Nat.zero_le _

theorem inv_step (hs : Inv s) (a : Action) : Inv (step a s) := by
  cases a with
  | put put now ts =>
    cases hadm : s.admit_put put with
    | error refusal =>
      change Inv ( s.put_annotation put now ts).2
      rw [put_annotation_error hadm]
      exact hs
    | ok found =>
      obtain ⟨subject, row⟩ := found
      have hc : PutChange s put now ts subject row ( s.put_annotation put now ts).2 := put_change hadm
      refine ⟨fun k => ?_, quota_put hs hadm⟩
      change _ = latest ( s.put_annotation put now ts).2.log k
      rw [hc.log]
      exact latest_write hs hc.self hc.others k
  | delete key expect updatedBy ts =>
    cases hadm : s.admit_delete key expect with
    | error refusal =>
      change Inv (s.delete_annotation key expect updatedBy ts).2
      rw [delete_annotation_error hadm]
      exact hs
    | ok found =>
      obtain ⟨subject, row⟩ := found
      cases row with
      | none =>
        change Inv (s.delete_annotation key expect updatedBy ts).2
        rw [delete_annotation_absent hadm]
        exact hs
      | some r =>
        have hc : DeleteChange s (State.row_key key subject.host) (s.delete_annotation key expect updatedBy ts).2 :=
          (delete_change hadm).2
        constructor
        · intro k
          change ((s.delete_annotation key expect updatedBy ts).2.rows.find k).map _
            = latest (s.delete_annotation key expect updatedBy ts).2.log k
          rw [hc.log, hc.rows]
          refine latest_write hs ?_ (fun k hk => ?_) k
          · rw [find_erase]
            cases hf : s.rows.find (State.row_key key subject.host) with
            | none => rfl
            | some r => simp [(find_mem hf).2]
          · rw [find_erase]
            cases hf : s.rows.find k with
            | none => rfl
            | some r => simpa [(find_mem hf).2] using hk
        · intro scope lane host
          rw [held_eq]
          change ((s.delete_annotation key expect updatedBy ts).2.rows.rows.filter _).length ≤ _
          rw [hc.rows]
          exact Nat.le_trans (List.Sublist.length_le (List.filter_sublist.filter _)) (hs.quota scope lane host)
  | act key action attributes ts =>
    obtain ⟨hr, hl⟩ := act_rows s key action attributes ts
    constructor
    · intro k
      change ((s.act_annotation key action attributes ts).2.rows.find k).map _
        = latest (s.act_annotation key action attributes ts).2.log k
      rw [hr, hl]
      exact hs.latest k
    · intro scope lane host
      change ((s.act_annotation key action attributes ts).2.rows.rows.filter _).length ≤ _
      rw [hr]
      exact hs.quota scope lane host
  | sessionsChanged sessions => exact ⟨hs.latest, hs.quota⟩

end HrcRuntime.SeatAnnotations
