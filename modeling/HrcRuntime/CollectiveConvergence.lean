import HrcRuntime.CollectiveHistory

namespace HrcRuntime.CollectiveHistory

open Keyed
open List (mem_singleton mem_append_left mem_map)

variable {collator : Collator} {input : Observation} {observedAt messageId : String} {db : Database}

inductive Recorded (collator : Collator) (input : Observation) (observedAt : String) (db : Database) :
    Except String Unit × Database → Prop
  | first (hfind : db.messages.find input.record.messageId = none) {db' : Database} {row : CollectiveMessageRow}
      (hrow : db'.messages.find input.record.messageId = some row) (hrecord : row.canonicalRecord = input.record)
      (hnode : row.canonicalSourceNodeId = input.sourceNodeId) (hrole : row.canonicalSourceRole = input.sourceRole)
      (hothers : ∀ m ≠ input.record.messageId, db'.messages.find m = db.messages.find m)
      (hobservations : db'.observations = (upsertObservation input observedAt db).observations) :
      Recorded collator input observedAt db (.ok (), db')
  | conflict {existing : CollectiveMessageRow} (hfind : db.messages.find input.record.messageId = some existing)
      (hconflict : conflictsWith input existing = true) {message : String} :
      Recorded collator input observedAt db (.error message, db)
  | replaced {existing : CollectiveMessageRow} (hfind : db.messages.find input.record.messageId = some existing)
      (hconflict : conflictsWith input existing = false)
      (hreplace : shouldReplaceCanonical collator input existing = true) {db' : Database}
      (hrow : db'.messages.find input.record.messageId = some (takeCanonical input observedAt existing))
      (hothers : ∀ m ≠ input.record.messageId, db'.messages.find m = db.messages.find m)
      (hobservations : db'.observations = (upsertObservation input observedAt db).observations) :
      Recorded collator input observedAt db (.ok (), db')
  | kept {existing : CollectiveMessageRow} (hfind : db.messages.find input.record.messageId = some existing)
      (hconflict : conflictsWith input existing = false)
      (hreplace : shouldReplaceCanonical collator input existing = false) {db' : Database}
      (hmessages : db'.messages = db.messages)
      (hobservations : db'.observations = (upsertObservation input observedAt db).observations) :
      Recorded collator input observedAt db (.ok (), db')

theorem recordObservation_recorded (collator : Collator) (input : Observation) (observedAt : String) (db : Database) :
    Recorded collator input observedAt db (recordObservation collator input observedAt db) := by
  unfold recordObservation
  split
  · rename_i hf
    exact .first hf
      (find_add_self (t := db.messages) (r := canonicalRow db.nextCollectiveSeq input observedAt) hf) rfl rfl rfl
      (fun m hne => find_add_of_ne hne) rfl
  · rename_i existing hf
    split
    · rename_i hc
      exact .conflict hf hc
    · rename_i hc
      have hc : conflictsWith input existing = false := by simpa using hc
      split
      · rename_i hr
        refine .replaced hf hc hr ?_ (fun m hne => ?_) rfl
        · have hrow : (db.messages.amend input.record.messageId (fun _ => true) (takeCanonical input observedAt)
              (takeCanonical_messageId input observedAt)).find input.record.messageId = _ := find_amend_self _
          rw [hf] at hrow
          exact hrow
        · exact find_amend_of_ne (takeCanonical_messageId input observedAt) hne
      · rename_i hr
        exact .kept hf hc (by simpa using hr) rfl rfl

theorem find_recordObservation_of_ne (h : messageId ≠ input.record.messageId) :
    (recordObservation collator input observedAt db).2.messages.find messageId = db.messages.find messageId := by
  have hr := recordObservation_recorded collator input observedAt db
  generalize recordObservation collator input observedAt db = result at hr ⊢
  cases hr with
  | first _ _ _ _ _ hoth _ => exact hoth messageId h
  | conflict _ _ => rfl
  | replaced _ _ _ _ hoth _ => exact hoth messageId h
  | kept _ _ _ hm _ => rw [hm]

section Canonical

inductive Canonical (collator : Collator) (seen : List Observation) (messageId : String) :
    Option CollectiveMessageRow → Prop
  | absent (h : ∀ o ∈ seen, o.record.messageId ≠ messageId) : Canonical collator seen messageId none
  | origin {row : CollectiveMessageRow} (hrole : row.canonicalSourceRole = .origin) {o : Observation} (ho : o ∈ seen)
      (hid : o.record.messageId = messageId) (horigin : o.sourceRole = .origin) (hrecord : row.canonicalRecord = o.record) :
      Canonical collator seen messageId (some row)
  | destination {row : CollectiveMessageRow} (hrole : row.canonicalSourceRole = .destination)
      (hleast : ∀ o ∈ seen, o.record.messageId = messageId →
        o.sourceRole = .destination ∧ collator.localeCompare o.sourceNodeId row.canonicalSourceNodeId ≠ .lt)
      {o : Observation} (ho : o ∈ seen) (hid : o.record.messageId = messageId)
      (hnode : row.canonicalSourceNodeId = o.sourceNodeId) (hrecord : row.canonicalRecord = o.record) :
      Canonical collator seen messageId (some row)

variable {seen : List Observation}

theorem Canonical.unrelated {row : Option CollectiveMessageRow}
    (h : Canonical collator seen messageId row) (hne : input.record.messageId ≠ messageId) :
    Canonical collator (seen ++ [input]) messageId row := by
  cases h with
  | absent h =>
    refine .absent fun o ho => ?_
    rcases List.mem_append.mp ho with ho | ho
    · exact h o ho
    · rw [mem_singleton.mp ho]
      exact hne
  | origin hrl ho hid hor hr => exact .origin hrl (mem_append_left _ ho) hid hor hr
  | destination hrl hl ho hid hn hr =>
    refine .destination hrl (fun o ho hid => ?_) (mem_append_left _ ho) hid hn hr
    rcases List.mem_append.mp ho with ho | ho
    · exact hl o ho hid
    · rw [mem_singleton.mp ho] at hid
      exact absurd hid hne

theorem localeCompare_self (collator : Collator) (a : String) : collator.localeCompare a a ≠ .lt := by
  have := collator.lawful
  rw [show collator.localeCompare a a = .eq from Std.ReflCmp.compare_self]
  simp

theorem localeCompare_trans (collator : Collator) {a b c : String} (hab : collator.localeCompare a b = .lt)
    (hbc : collator.localeCompare b c = .lt) : collator.localeCompare a c = .lt := by
  have := collator.lawful
  exact Std.TransCmp.lt_trans hab hbc

/-- Recording one more observation. -/
theorem canonical_recordObservation (input : Observation) (observedAt : String)
    (h : Canonical collator seen messageId (db.messages.find messageId)) :
    Canonical collator (seen ++ [input]) messageId
      ((recordObservation collator input observedAt db).2.messages.find messageId) := by
  have hl : input ∈ seen ++ [input] := List.mem_append_right _ (List.mem_singleton_self input)
  by_cases hid : input.record.messageId = messageId
  · subst hid
    have hre := recordObservation_recorded collator input observedAt db
    generalize recordObservation collator input observedAt db = result at hre ⊢
    cases hre with
    | @first hf db' row hrow hr hn hrl _ _ =>
      rw [hf] at h
      cases h with
      | absent hu =>
        rw [hrow]
        cases hi : input.sourceRole with
        | origin => exact .origin (hrl.trans hi) hl rfl hi hr
        | destination =>
          refine .destination (hrl.trans hi) (fun o ho hid => ?_) hl rfl hn hr
          rcases List.mem_append.mp ho with ho | ho
          · exact absurd hid (hu o ho)
          · rw [mem_singleton.mp ho, hn]
            exact ⟨hi, localeCompare_self collator _⟩
    | @conflict existing hf hc =>
      rw [hf] at h ⊢
      simp only [conflictsWith, Bool.and_eq_true, decide_eq_true_eq] at hc
      cases h with
      | origin hrl ho hid hor hr => exact .origin hrl (mem_append_left _ ho) hid hor hr
      | destination hrl _ _ _ _ _ => rw [hrl] at hc; cases hc.1.1
    | @replaced existing hf hc hrp db' hrow _ _ =>
      rw [hrow]
      cases hi : input.sourceRole with
      | origin => exact .origin hi hl rfl hi rfl
      | destination =>
        rw [hf] at h
        simp only [shouldReplaceCanonical, hi, reduceCtorEq, decide_false, Bool.false_or, Bool.and_eq_true,
          decide_eq_true_eq, Ordering.isLT_iff_eq_lt] at hrp
        cases h with
        | origin hrl _ _ _ _ => rw [hrl] at hrp; cases hrp.1
        | destination hrl hls ho hid hn hr =>
          refine .destination hi (fun o ho hid => ?_) hl rfl rfl rfl
          rcases List.mem_append.mp ho with ho | ho
          · obtain ⟨hd, hle⟩ := hls o ho hid
            exact ⟨hd, fun hlt => hle (localeCompare_trans collator hlt hrp.2)⟩
          · rw [mem_singleton.mp ho]
            exact ⟨hi, localeCompare_self collator _⟩
    | @kept existing hf hc hrp db' hm _ =>
      rw [hm, hf]
      rw [hf] at h
      simp only [shouldReplaceCanonical, Bool.or_eq_false_iff, Bool.and_eq_false_iff, decide_eq_false_iff_not] at hrp
      cases h with
      | origin hrl ho hid hor hr => exact .origin hrl (mem_append_left _ ho) hid hor hr
      | destination hrl hls ho hid hn hr =>
        refine .destination hrl (fun o ho hid => ?_) (mem_append_left _ ho) hid hn hr
        rcases List.mem_append.mp ho with ho | ho
        · exact hls o ho hid
        · rw [mem_singleton.mp ho]
          refine ⟨?_, fun hlt => ?_⟩
          · cases hi : input.sourceRole with
            | origin => exact absurd hi hrp.1
            | destination => rfl
          · rcases hrp.2 with hnot | hnot
            · exact hnot hrl
            · rw [hlt] at hnot
              cases hnot
  · rw [find_recordObservation_of_ne (Ne.symm hid)]
    exact h.unrelated hid

end Canonical

section Recordings

variable {S seen : List Observation} {recordings : List (Observation × String)} {o : Observation}

def recordAll (collator : Collator) (recordings : List (Observation × String)) (db : Database) : Database :=
  recordings.foldl (fun db recording => (recordObservation collator recording.1 recording.2 db).2) db

theorem recordAll_append (before after : List (Observation × String)) (db : Database) :
    recordAll collator (before ++ after) db = recordAll collator after (recordAll collator before db) :=
  List.foldl_append

theorem canonical_recordAll (h : Canonical collator seen messageId (db.messages.find messageId)) :
    Canonical collator (seen ++ recordings.map (·.1)) messageId ((recordAll collator recordings db).messages.find messageId) := by
  induction recordings generalizing seen db with
  | nil => rw [List.map_nil, List.append_nil]; exact h
  | cons recording recordings ih =>
    have hr := ih (canonical_recordObservation recording.1 recording.2 h)
    rw [List.append_assoc, List.singleton_append] at hr
    exact hr

theorem canonical_recordings (collator : Collator) (recordings : List (Observation × String)) (messageId : String) :
    Canonical collator (recordings.map (·.1)) messageId ((recordAll collator recordings {}).messages.find messageId) := by
  have he : Canonical collator [] messageId (({} : Database).messages.find messageId) :=
    .absent fun o ho => by cases ho
  exact canonical_recordAll he

variable {row : CollectiveMessageRow}

/-- An origin's row stays that origin's. -/
theorem origin_stays (collator : Collator) (recordings : List (Observation × String)) (hf : db.messages.find messageId = some row)
    (hrl : row.canonicalSourceRole = .origin) :
    ∃ row', (recordAll collator recordings db).messages.find messageId = some row' ∧
      row'.canonicalSourceRole = .origin ∧ row'.canonicalSourceNodeId = row.canonicalSourceNodeId := by
  induction recordings generalizing db row with
  | nil => exact ⟨row, hf, hrl, rfl⟩
  | cons recording recordings ih =>
    have hs : ∃ row', (recordObservation collator recording.1 recording.2 db).2.messages.find messageId = some row' ∧
        row'.canonicalSourceRole = .origin ∧ row'.canonicalSourceNodeId = row.canonicalSourceNodeId := by
      by_cases hid : recording.1.record.messageId = messageId
      · subst hid
        have hr := recordObservation_recorded collator recording.1 recording.2 db
        generalize recordObservation collator recording.1 recording.2 db = result at hr ⊢
        cases hr with
        | first hno _ _ _ _ _ _ => rw [hno] at hf; cases hf
        | conflict _ _ => exact ⟨row, hf, hrl, rfl⟩
        | @replaced existing hex hc hrp db' hrow _ _ =>
          obtain rfl := Option.some.inj (hex.symm.trans hf)
          have hor : recording.1.sourceRole = .origin := by
            simpa [shouldReplaceCanonical, hrl] using hrp
          refine ⟨_, hrow, hor, ?_⟩
          simp only [conflictsWith, hrl, hor, decide_true, Bool.true_and, decide_eq_false_iff_not, not_not]
            at hc
          exact hc.symm
        | kept _ _ _ hm _ => exact ⟨row, by rw [hm]; exact hf, hrl, rfl⟩
      · exact ⟨row, (find_recordObservation_of_ne (Ne.symm hid)).trans hf, hrl, rfl⟩
    obtain ⟨next, hn, hnr, hnn⟩ := hs
    obtain ⟨last, hl, hlr, hln⟩ := ih hn hnr
    exact ⟨last, hl, hlr, hln.trans hnn⟩

theorem canonicalOf_origin (hf : db.messages.find o.record.messageId = some row)
    (hrl : row.canonicalSourceRole = .origin) (hn : row.canonicalSourceNodeId = o.sourceNodeId)
    (hor : o.sourceRole = .origin) :
    canonicalOf (recordObservation collator o observedAt db).2 o.record.messageId = some o.record := by
  have hre := recordObservation_recorded collator o observedAt db
  generalize recordObservation collator o observedAt db = result at hre ⊢
  unfold canonicalOf
  cases hre with
  | first _ hrow hr _ _ _ _ => rw [hrow, Option.map_some, hr]
  | @conflict existing hex hc =>
    obtain rfl := Option.some.inj (hex.symm.trans hf)
    simp [conflictsWith, hn] at hc
  | replaced _ _ _ hrow _ _ => rw [hrow]; rfl
  | kept _ _ hrp _ _ => simp [shouldReplaceCanonical, hor] at hrp

theorem destination_stays (hf : db.messages.find messageId = some row)
    (hl : ∀ recording ∈ recordings, recording.1.record.messageId = messageId →
      recording.1.sourceRole = .destination ∧
        collator.localeCompare recording.1.sourceNodeId row.canonicalSourceNodeId ≠ .lt) :
    (recordAll collator recordings db).messages.find messageId = some row := by
  induction recordings generalizing db with
  | nil => exact hf
  | cons recording recordings ih =>
    have hs : (recordObservation collator recording.1 recording.2 db).2.messages.find messageId = some row := by
      by_cases hid : recording.1.record.messageId = messageId
      · subst hid
        obtain ⟨hd, hle⟩ := hl recording List.mem_cons_self rfl
        have hrec := recordObservation_recorded collator recording.1 recording.2 db
        generalize recordObservation collator recording.1 recording.2 db = result at hrec ⊢
        cases hrec with
        | first hn _ _ _ _ _ _ => rw [hn] at hf; cases hf
        | conflict _ _ => exact hf
        | @replaced existing hex _ hrp _ _ _ _ =>
          obtain rfl := Option.some.inj (hex.symm.trans hf)
          simp only [shouldReplaceCanonical, hd, reduceCtorEq, decide_false, Bool.false_or,
            Bool.and_eq_true, Ordering.isLT_iff_eq_lt] at hrp
          exact absurd hrp.2 hle
        | kept _ _ _ hm _ => rw [hm]; exact hf
      · exact (find_recordObservation_of_ne (Ne.symm hid)).trans hf
    exact ih hs fun r hr => hl r (List.mem_cons_of_mem _ hr)

theorem isSome_upsertObservation (o : Observation) (observedAt : String) (db : Database) :
    ((upsertObservation o observedAt db).observations.find (o.record.messageId, o.sourceNodeId)).isSome := by
  have hs : (upsertObservation o observedAt db).observations.find (o.record.messageId, o.sourceNodeId) = some _ :=
    find_upsert_self (t := db.observations) (r := observationRow o observedAt) (takeObservation_key o observedAt)
  rw [hs]
  rfl

theorem isSome_observation (collator : Collator) (recordings : List (Observation × String)) {k : String × String} (h : (db.observations.find k).isSome) :
    ((recordAll collator recordings db).observations.find k).isSome := by
  induction recordings generalizing db with
  | nil => exact h
  | cons recording recordings ih =>
    have hu : ((upsertObservation recording.1 recording.2 db).observations.find k).isSome := by
      by_cases hk : k = (recording.1.record.messageId, recording.1.sourceNodeId)
      · subst hk
        exact isSome_upsertObservation recording.1 recording.2 db
      · rw [show (upsertObservation recording.1 recording.2 db).observations.find k = db.observations.find k from
          find_upsert_of_ne (takeObservation_key recording.1 recording.2) hk]
        exact h
    have hs : ((recordObservation collator recording.1 recording.2 db).2.observations.find k).isSome := by
      have hr := recordObservation_recorded collator recording.1 recording.2 db
      generalize recordObservation collator recording.1 recording.2 db = result at hr ⊢
      cases hr with
      | first _ _ _ _ _ _ hobs => rw [hobs]; exact hu
      | conflict _ _ => exact h
      | replaced _ _ _ _ _ hobs => rw [hobs]; exact hu
      | kept _ _ _ _ hobs => rw [hobs]; exact hu
    exact ih hs

theorem isSome_observation_recorded (h : (recordObservation collator o observedAt db).1 = .ok ()) :
    ((recordObservation collator o observedAt db).2.observations.find (o.record.messageId, o.sourceNodeId)).isSome := by
  have hu := isSome_upsertObservation o observedAt db
  have hr := recordObservation_recorded collator o observedAt db
  generalize recordObservation collator o observedAt db = result at hr h ⊢
  cases hr with
  | first _ _ _ _ _ _ hobs => rw [hobs]; exact hu
  | conflict _ _ => cases h
  | replaced _ _ _ _ _ hobs => rw [hobs]; exact hu
  | kept _ _ _ _ hobs => rw [hobs]; exact hu

end Recordings

section Convergence

def Recording (S : List Observation) (recordings : List (Observation × String)) : Prop :=
  ∀ o, (∃ observedAt, (o, observedAt) ∈ recordings) ↔ o ∈ S

/-- What a collective history of a set of observations is to be, in whatever order and however often they are recorded. -/
structure Converges (collator : Collator) (S : List Observation) : Prop where
  same : ∀ recordings recordings', Recording S recordings → Recording S recordings' → ∀ messageId,
    canonicalOf (recordAll collator recordings {}) messageId = canonicalOf (recordAll collator recordings' {}) messageId
  origin : ∀ recordings, Recording S recordings → ∀ o ∈ S, o.sourceRole = .origin →
    ∃ witness ∈ S, witness.sourceRole = .origin ∧ witness.record.messageId = o.record.messageId ∧
      canonicalOf (recordAll collator recordings {}) o.record.messageId = some witness.record
  kept : ∀ recordings, ∀ o, o.sourceRole = .destination → ∀ observedAt row,
    (recordAll collator recordings {}).messages.find o.record.messageId = some row → row.canonicalSourceRole = .origin →
      (recordObservation collator o observedAt (recordAll collator recordings {})).2.messages.find o.record.messageId = some row
  single : ∀ before o observedAt after,
    (recordObservation collator o observedAt (recordAll collator before {})).1 = .ok () →
      ∃! row, row ∈ (recordAll collator (before ++ (o, observedAt) :: after) {}).observations.rows ∧
        row.messageId = o.record.messageId ∧ row.sourceNodeId = o.sourceNodeId
  rejected : ∀ recordings o observedAt message,
    (recordObservation collator o observedAt (recordAll collator recordings {})).1 = .error message →
      (recordObservation collator o observedAt (recordAll collator recordings {})).2 = recordAll collator recordings {}

/-- An observation that some order makes the canonical one: an origin's, or without one a destination's that no other of
the message comes before. -/
def Decides (collator : Collator) (S : List Observation) (o : Observation) : Prop :=
  o ∈ S ∧ (o.sourceRole = .origin ∨ ∀ other ∈ S, other.record.messageId = o.record.messageId →
    other.sourceRole = .destination ∧ collator.localeCompare other.sourceNodeId o.sourceNodeId ≠ .lt)

variable {S : List Observation} {recordings : List (Observation × String)} {o : Observation}

theorem canonical_decides (collator : Collator) (hre : Recording S recordings) (messageId : String) :
    (canonicalOf (recordAll collator recordings {}) messageId = none ∧ ∀ o ∈ S, o.record.messageId ≠ messageId) ∨
      ∃ o, Decides collator S o ∧ o.record.messageId = messageId ∧
        canonicalOf (recordAll collator recordings {}) messageId = some o.record := by
  have hsn : ∀ o, o ∈ recordings.map (·.1) ↔ o ∈ S := fun o => by
    rw [← hre o, mem_map]
    constructor
    · rintro ⟨⟨_, observedAt⟩, hm, rfl⟩
      exact ⟨observedAt, hm⟩
    · rintro ⟨observedAt, hm⟩
      exact ⟨_, hm, rfl⟩
  have hc := canonical_recordings collator recordings messageId
  unfold canonicalOf
  generalize (recordAll collator recordings {}).messages.find messageId = row at hc ⊢
  cases hc with
  | absent h => exact .inl ⟨rfl, fun o ho => h o ((hsn o).mpr ho)⟩
  | @origin row hrl o ho hid hor hr =>
    exact .inr ⟨o, ⟨(hsn o).mp ho, .inl hor⟩, hid, congrArg some hr⟩
  | @destination row hrl hl o ho hid hn hr =>
    refine .inr ⟨o, ⟨(hsn o).mp ho, .inr fun other hoth hs => ?_⟩, hid, congrArg some hr⟩
    rw [← hn]
    exact hl other ((hsn other).mpr hoth) (hs.trans hid)

theorem exists_recording (h : Decides collator S o) :
    ∃ recordings, Recording S recordings ∧
      canonicalOf (recordAll collator recordings {}) o.record.messageId = some o.record := by
  obtain ⟨hm, hd⟩ := h
  refine ⟨[(o, "")] ++ (S.map (·, "") ++ [(o, "")]), fun other => ?_, ?_⟩
  · simp only [List.mem_append, mem_singleton, mem_map, Prod.mk.injEq]
    constructor
    · rintro ⟨_, ⟨rfl, -⟩ | ⟨_, hoth, rfl, -⟩ | ⟨rfl, -⟩⟩
      · exact hm
      · exact hoth
      · exact hm
    · intro hoth
      exact ⟨"", .inr (.inl ⟨other, hoth, rfl, rfl⟩)⟩
  · have hf : (recordAll collator [(o, "")] {}).messages.find o.record.messageId = some (canonicalRow 1 o "") :=
      find_add_self (t := .empty) (r := canonicalRow 1 o "") rfl
    rw [recordAll_append]
    rcases hd with hor | hl
    · obtain ⟨row, hrow, hrl, hn⟩ := origin_stays collator (S.map (·, "")) hf hor
      rw [recordAll_append]
      exact canonicalOf_origin hrow hrl hn hor
    · unfold canonicalOf
      rw [destination_stays hf fun recording hr hid => ?_]
      · rfl
      · rcases List.mem_append.mp hr with hr | hr
        · obtain ⟨other, hoth, rfl⟩ := mem_map.mp hr
          exact hl other hoth hid
        · rw [mem_singleton.mp hr]
          exact hl o hm rfl

/-- A collective history converges exactly on the sets whose deciding observations of a message carry one record. -/
theorem converges_iff (collator : Collator) (S : List Observation) :
    Converges collator S ↔
      ∀ a b, Decides collator S a → Decides collator S b → a.record.messageId = b.record.messageId → a.record = b.record := by
  constructor
  · intro h a b ha hb hid
    obtain ⟨recordings, hre, hc⟩ := exists_recording ha
    obtain ⟨recordings', hrec', hcan'⟩ := exists_recording hb
    have hs := h.same recordings recordings' hre hrec' a.record.messageId
    rw [hc, hid, hcan'] at hs
    exact Option.some.inj hs
  · intro h
    refine ⟨fun recordings recordings' hre hrec' messageId => ?_, fun recordings hre o ho hor => ?_,
      fun recordings o hd observedAt row hf hrl => ?_, fun before o observedAt after hok => ?_,
      fun recordings o observedAt message he => ?_⟩
    · rcases canonical_decides collator hre messageId with ⟨hnn, habs⟩ | ⟨a, ha, hid, hc⟩
      · rcases canonical_decides collator hrec' messageId with ⟨hn', -⟩ | ⟨b, hb, hid', -⟩
        · rw [hnn, hn']
        · exact absurd hid' (habs b hb.1)
      · rcases canonical_decides collator hrec' messageId with ⟨-, habs⟩ | ⟨b, hb, hid', hcan'⟩
        · exact absurd hid (habs a ha.1)
        · rw [hc, hcan', h a b ha hb (hid.trans hid'.symm)]
    · rcases canonical_decides collator hre o.record.messageId with ⟨-, habs⟩ | ⟨a, ha, hid, hc⟩
      · exact absurd rfl (habs o ho)
      · refine ⟨a, ha.1, ?_, hid, hc⟩
        refine ha.2.resolve_right fun hl => ?_
        rw [(hl o ho hid.symm).1] at hor
        cases hor
    · have hr := recordObservation_recorded collator o observedAt (recordAll collator recordings {})
      generalize recordObservation collator o observedAt (recordAll collator recordings {}) = result at hr ⊢
      cases hr with
      | first hnn _ _ _ _ _ _ => rw [hnn] at hf; cases hf
      | conflict _ _ => exact hf
      | @replaced existing hex _ hrp _ _ _ _ =>
        obtain rfl := Option.some.inj (hex.symm.trans hf)
        simp [shouldReplaceCanonical, hd, hrl] at hrp
      | kept _ _ _ hms _ => rw [hms]; exact hf
    · have hsm := isSome_observation collator after (isSome_observation_recorded hok)
      have hall : recordAll collator after (recordObservation collator o observedAt (recordAll collator before {})).2 =
          recordAll collator (before ++ (o, observedAt) :: after) {} := (recordAll_append before ((o, observedAt) :: after) {}).symm
      rw [hall] at hsm
      obtain ⟨row, hrow⟩ := Option.isSome_iff_exists.mp hsm
      obtain ⟨hm, hk⟩ := find_mem hrow
      refine ⟨row, ⟨hm, congrArg Prod.fst hk, congrArg Prod.snd hk⟩, fun other ⟨hoth, hid, hn⟩ => ?_⟩
      have hf := find_of_mem (t := (recordAll collator (before ++ (o, observedAt) :: after) {}).observations) hoth
      rw [hid, hn, hrow] at hf
      exact (Option.some.inj hf).symm
    · have hr := recordObservation_recorded collator o observedAt (recordAll collator recordings {})
      generalize recordObservation collator o observedAt (recordAll collator recordings {}) = result at hr he ⊢
      cases hr with
      | first _ _ _ _ _ _ _ => cases he
      | conflict _ _ => rfl
      | replaced _ _ _ _ _ _ => cases he
      | kept _ _ _ _ _ => cases he

end Convergence

namespace Sample

def codePoints : Collator := ⟨compare, transCmp_codePoints⟩

def accepted (state : HrcMessageExecutionState) : HrcMessageRecord :=
  { messageSeq := ⟨91, by decide⟩, messageId := "msg-1", createdAt := "2026-07-24T12:00:02.000Z", kind := .dm
    phase := .request, source := .session "agent:cody", target := .session "agent:clod", rootMessageId := "msg-1"
    body := "hello", execution := { state }
    metadataJson := some (.object [("federationIngress", some (.object [("authenticatedNodeId", some (.str "max3"))]))]) }

def observed (state : HrcMessageExecutionState) : Observation := observationFor "lab" (accepted state)

end Sample

/-- Two states of one destination's record: the canonical record is the one that came first. -/
theorem destination_order_decides :
    Recording [Sample.observed .accepted, Sample.observed .completed]
        [(Sample.observed .accepted, "1"), (Sample.observed .completed, "2")] ∧
      Recording [Sample.observed .accepted, Sample.observed .completed]
        [(Sample.observed .completed, "1"), (Sample.observed .accepted, "2")] ∧
      canonicalOf (recordAll Sample.codePoints [(Sample.observed .accepted, "1"), (Sample.observed .completed, "2")] {})
        "msg-1" = some (Sample.accepted .accepted) ∧
      canonicalOf (recordAll Sample.codePoints [(Sample.observed .completed, "1"), (Sample.observed .accepted, "2")] {})
        "msg-1" = some (Sample.accepted .completed) := by
  refine ⟨fun o => ?_, fun o => ?_, by decide +kernel, by decide +kernel⟩
  · simp [exists_or]
  · simp [exists_or, or_comm]

end HrcRuntime.CollectiveHistory
