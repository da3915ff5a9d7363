import HrcRuntime.SeatAnnotationHistory

namespace HrcRuntime.SeatAnnotations

open Schedule Json

variable [Clock] {s : State} {actions : List Action}

/-- The expectation of an admitted write holds of its key: nothing is there, or the latest write is the
one of the expected stamp. -/
def Current (s : State) (key : AnnotationKey) (subject : Subject) (expect : Option Json) : Prop :=
  ∀ e, parse_expect expect = .ok e →
    (e.updatedAt = some .absent → s.rows.find (State.row_key key subject.host) = none) ∧
      ∀ stamp, e.updatedAt = some (.at stamp) →
        ∃ u, stamp = some u ∧ latest s.log (State.row_key key subject.host) = some u

def Fenced (s : State) (a : Action) (s' : State) : Prop :=
  match a with
  | .put put now ts =>
    match ( s.put_annotation put now ts).1 with
    | .error _ => s' = s
    | .ok _ => (∃ e, s'.events = s.events ++ [e]) ∧
        ∃ subject, s.annotation_subject put.key = .ok subject ∧ Current s put.key subject put.expect
  | .delete key expect updatedBy ts =>
    match (s.delete_annotation key expect updatedBy ts).1 with
    | .error _ => s' = s
    | .ok present => (present = false → s' = s) ∧ (present = true → ∃ e, s'.events = s.events ++ [e]) ∧
        ∃ subject, s.annotation_subject key = .ok subject
          ∧ (s.rows.find (State.row_key key subject.host)).isSome = present ∧ Current s key subject expect
  | .act key action attributes ts =>
    s'.rows = s.rows ∧ match (s.act_annotation key action attributes ts).1 with
    | .error _ => s' = s
    | .ok _ => ∃ e, s'.events = s.events ++ [e]
  | .sessionsChanged _ => s'.rows = s.rows ∧ s'.events = s.events

def allowed (s : State) : Action → Bool
  | .put put now _ =>
    match s.admit_put put with
    | .ok (subject, none) => (stamps s.log (State.row_key put.key subject.host)).all (· < now)
    | _ => true
  | _ => true

theorem current (hs : Inv s) {key : AnnotationKey} {subject : Subject} {expect : Option Json}
    (h : ∃ e, parse_expect expect = .ok e ∧ Admitted s (State.row_key key subject.host) e) :
    Current s key subject expect := by
  intro e he
  obtain ⟨e', he', hadm⟩ := h
  have hsm : e' = e := Except.ok.inj (he'.symm.trans he)
  subst hsm
  refine ⟨hadm.absent, fun stamp hst => ?_⟩
  obtain ⟨r, hr, hu⟩ := hadm.stamp stamp hst
  refine ⟨r.updatedAt, hu, ?_⟩
  rw [← hs.latest, hr]
  rfl

theorem fenced_put (hs : Inv s) (put : AnnotationPut) (now ts : Millis) :
    Fenced s (.put put now ts) (step (.put put now ts) s) := by
  have hst : step (.put put now ts) s = ( s.put_annotation put now ts).2 := rfl
  unfold Fenced
  rw [hst]
  dsimp only
  cases hadm : s.admit_put put with
  | error refusal => rw [put_annotation_error hadm]
  | ok found =>
    obtain ⟨subject, row⟩ := found
    have hc : PutChange s put now ts subject row ( s.put_annotation put now ts).2 := put_change hadm
    have had := putAdmitted hadm
    rw [hc.answer]
    exact ⟨hc.events, subject, had.resolves, current hs had.fences⟩

theorem fenced_delete (hs : Inv s) (key : AnnotationKey) (expect : Option Json) (updatedBy : String) (ts : Millis) :
    Fenced s (.delete key expect updatedBy ts) (step (.delete key expect updatedBy ts) s) := by
  have hst : step (.delete key expect updatedBy ts) s = (s.delete_annotation key expect updatedBy ts).2 := rfl
  unfold Fenced
  rw [hst]
  dsimp only
  cases hadm : s.admit_delete key expect with
  | error refusal => rw [delete_annotation_error hadm]
  | ok found =>
    obtain ⟨subject, row⟩ := found
    have had := deleteAdmitted hadm
    cases row with
    | none =>
      have habs : s.delete_annotation key expect updatedBy ts = (.ok false, s) := delete_annotation_absent hadm
      rw [habs]
      refine ⟨fun _ => ?_, (fun h => by cases h), subject, had.resolves, ?_, current hs had.fences⟩
      · rfl
      · rw [← had.found]
        rfl
    | some r =>
      have hp : (s.delete_annotation key expect updatedBy ts).1 = .ok true ∧
          DeleteChange s (State.row_key key subject.host) (s.delete_annotation key expect updatedBy ts).2 :=
        delete_change hadm
      rw [hp.1]
      refine ⟨(fun h => by cases h), fun _ => hp.2.events, subject, had.resolves, ?_,
        current hs had.fences⟩
      rw [← had.found]
      rfl

theorem fenced_act (key : AnnotationKey) (action : String) (attributes : Option Json) (ts : Millis) :
    Fenced s (.act key action attributes ts) (step (.act key action attributes ts) s) := by
  refine ⟨(act_rows s key action attributes ts).1, ?_⟩
  have hs : step (.act key action attributes ts) s = (s.act_annotation key action attributes ts).2 := rfl
  rw [hs]
  unfold State.act_annotation
  cases s.admit_act key action attributes with
  | error refusal => rfl
  | ok subject => exact ⟨_, rfl⟩

theorem fenced_step (hs : Inv s) (a : Action) : Fenced s a (step a s) := by
  cases a with
  | put put now ts => exact fenced_put hs put now ts
  | delete key expect updatedBy ts => exact fenced_delete hs key expect updatedBy ts
  | act key action attributes ts => exact fenced_act key action attributes ts
  | sessionsChanged sessions => exact ⟨rfl, rfl⟩

theorem fresh_stamp (hs : Inv s) (hsr : Sorted s) {put : AnnotationPut} {now ts : Millis} {subject : Subject}
    {row : Option Annotation} (hadm : s.admit_put put = .ok (subject, row))
    (hok : allowed s (.put put now ts) = true) :
    ∀ m ∈ stamps s.log (State.row_key put.key subject.host), m < advance (row.map (·.updatedAt)) now := by
  intro m hm
  have hf := (putAdmitted hadm).found
  cases row with
  | none =>
    unfold allowed at hok
    dsimp only at hok
    rw [hadm] at hok
    exact of_decide_eq_true (List.all_eq_true.mp hok m hm)
  | some r =>
    have hl : latest s.log (State.row_key put.key subject.host) = some r.updatedAt := by
      rw [← hs.latest, ← hf]
      rfl
    exact Int.lt_of_le_of_lt (le_getLast? (hsr _) (getLast?_stamps hl) hm) advance_gt

omit [Clock] in
theorem sorted_write (hs : Sorted s) {s' : State} {w : Written} (hl : s'.log = s.log ++ [w])
    (hfr : ∀ stamp ∈ w.stamp, ∀ m ∈ stamps s.log w.key, m < stamp) : Sorted s' := by
  intro k
  rw [hl]
  by_cases hk : w.key = k
  · subst hk
    rw [stamps_append_self rfl]
    cases hst : w.stamp with
    | none => simpa using hs w.key
    | some stamp =>
      refine List.pairwise_append.mpr ⟨hs w.key, List.pairwise_singleton _ _, fun m hm b hb => ?_⟩
      rw [List.mem_singleton.mp hb]
      exact hfr stamp hst m hm
  · rw [stamps_append_of_ne hk]
    exact hs k

theorem sorted_step (hs : Inv s) (hsr : Sorted s) (a : Action) (hok : allowed s a = true) :
    Sorted (step a s) := by
  cases a with
  | put put now ts =>
    change Sorted ( s.put_annotation put now ts).2
    cases hadm : s.admit_put put with
    | error refusal =>
      rw [put_annotation_error hadm]
      exact hsr
    | ok found =>
      obtain ⟨subject, row⟩ := found
      have hc : PutChange s put now ts subject row ( s.put_annotation put now ts).2 := put_change hadm
      refine sorted_write hsr hc.log fun stamp hst => ?_
      cases hst
      exact fresh_stamp hs hsr hadm hok
  | delete key expect updatedBy ts =>
    change Sorted (s.delete_annotation key expect updatedBy ts).2
    cases hadm : s.admit_delete key expect with
    | error refusal =>
      rw [delete_annotation_error hadm]
      exact hsr
    | ok found =>
      obtain ⟨subject, row⟩ := found
      cases row with
      | none =>
        rw [delete_annotation_absent hadm]
        exact hsr
      | some r =>
        have hc : DeleteChange s (State.row_key key subject.host) (s.delete_annotation key expect updatedBy ts).2 :=
          (delete_change hadm).2
        exact sorted_write hsr hc.log fun stamp hst => by cases hst
  | act key action attributes ts =>
    intro k
    change ((stamps (s.act_annotation key action attributes ts).2.log k)).Pairwise (· < ·)
    rw [(act_rows s key action attributes ts).2]
    exact hsr k
  | sessionsChanged sessions => exact hsr

/-- After a put that is not allowed, one more put can bring back a stamp of the key. -/
theorem reused {put : AnnotationPut} {now ts : Millis} (h : allowed s (.put put now ts) = false) :
    ∃ later, ¬ Unique (run step [.put put now ts, .put { put with expect := none } later ts] s) := by
  unfold allowed at h
  dsimp only at h
  cases hadm : s.admit_put put with
  | error refusal =>
    rw [hadm] at h
    cases h
  | ok found =>
    obtain ⟨subject, row⟩ := found
    rw [hadm] at h
    cases row with
    | some r => cases h
    | none =>
      obtain ⟨m, hm, hlt⟩ : ∃ m ∈ stamps s.log (State.row_key put.key subject.host), ¬ m < now := by
        simpa using h
      have hf : PutChange s put now ts subject none ( s.put_annotation put now ts).2 := put_change hadm
      obtain ⟨r, hr, hst⟩ := Option.map_eq_some_iff.mp hf.self
      have hag := admit_again (putAdmitted hadm) hf.sessions hr
      have hsec : PutChange ( s.put_annotation put now ts).2 { put with expect := none } m ts subject (some r)
        ( State.put_annotation ( s.put_annotation put now ts).2 { put with expect := none } m ts).2 := put_change hag
      refine ⟨m, fun hu => ?_⟩
      have hnd := hu (State.row_key put.key subject.host)
      change (stamps ( State.put_annotation ( s.put_annotation put now ts).2 { put with expect := none } m ts).2.log
        (State.row_key put.key subject.host)).Nodup at hnd
      rw [hsec.log, stamps_append_self rfl, hf.log, stamps_append_self rfl] at hnd
      have hn : r.updatedAt = now := hst
      rw [Option.map_some, hn] at hnd
      obtain ⟨hbef, -, hd⟩ := List.nodup_append.mp hnd
      by_cases hs : now = m
      · refine (List.nodup_append.mp hbef).2.2 m hm now ?_ hs.symm
        exact List.mem_singleton_self now
      · have hba : advance (some now) m = m := by
          unfold advance
          dsimp only
          exact if_neg fun hle => hs (Int.le_antisymm (Int.not_lt.mp hlt) hle)
        refine hd m (List.mem_append_left _ hm) m ?_ rfl
        rw [hba]
        exact List.mem_singleton_self m

/-- Annotations are fenced, fit their quota, and never reuse a stamp of a key while no put creates it
again at a clock reading that is not later than all of them. -/
theorem annotations_fenced (actions : List Action) :
    (∀ before a after, actions = before ++ a :: after →
        Fenced (run step before initial) a (run step (before ++ [a]) initial))
      ∧ (∀ scope lane host, ((run step actions initial).held scope lane host).length ≤ ANNOTATION_QUOTA)
      ∧ (Meets step (fun s a => allowed s a = true) actions initial → Unique (run step actions initial))
      ∧ ∀ put now ts, allowed (run step actions initial) (.put put now ts) = false →
        ∃ later, ¬ Unique (run step (actions ++ [.put put now ts, .put { put with expect := none } later ts]) initial) := by
  have hst : ∀ s a, Inv s → True → Inv (step a s) := fun s a hs _ => inv_step hs a
  have hi : Inv (run step actions initial) := run_invariant hst inv_initial meets_true
  refine ⟨fun before a after h => ?_, hi.quota, fun hmt => ?_, fun put now ts h => ?_⟩
  · exact run_each hst (fun s a hs _ => fenced_step hs a) inv_initial meets_true h
  · have hbt : Inv (run step actions initial) ∧ Sorted (run step actions initial) :=
      run_invariant (I := fun s => Inv s ∧ Sorted s)
        (fun s a h hok => ⟨inv_step h.1 a, sorted_step h.1 h.2 a hok⟩)
        ⟨inv_initial, fun _ => List.Pairwise.nil⟩ hmt
    exact hbt.2.unique
  · obtain ⟨later, hr⟩ := reused h
    refine ⟨later, ?_⟩
    rw [run_append]
    exact hr

namespace Sample

def clock : Clock := ⟨fun text => if text = "2026-01-01T00:00:00.005Z" then some 1767225600005 else none⟩

def sessions : Sessions :=
  { continuity_session := fun _ _ => some { hostSessionId := "hsid-1", scopeRef := "agent:a", laneRef := "main"
                                            generation := 1 } }

def key : AnnotationKey :=
  { scope := "agent:a", lane := "main", subject := "seat", ns := "board", kind := "card", id := "1" }

def put (writer : String) (expect : Option Json) : AnnotationPut :=
  { key, body := Json.object [("by", Json.str writer)], expect, updatedBy := writer }

def expectStamp : Json := Json.object [("updatedAt", Json.str "2026-01-01T00:00:00.005Z")]

/-- A put, a delete and a new put by another writer at the clock reading `now`. -/
def recreated (now : Millis) : List Action :=
  [.sessionsChanged sessions, .put (put "x" none) 1767225600005 0, .delete key none "y" 0, .put (put "y" none) now 0]

end Sample

omit [Clock] in
theorem annotations_fenced_sample :
    letI := Sample.clock
    Unique (run step (Sample.recreated 1767225600006) initial) := by
  let _ := Sample.clock
  exact (annotations_fenced (Sample.recreated 1767225600006)).2.2.1 (by decide +kernel)

omit [Clock] in
/-- The clock does not advance: the first writer's token is the second writer's too, and overwrites its row. -/
theorem annotations_reused :
    letI := Sample.clock
    ¬ Unique (run step (Sample.recreated 1767225600005) initial) ∧
      ∃ row, ( State.put_annotation (run step (Sample.recreated 1767225600005) initial)
        (Sample.put "x" (some Sample.expectStamp)) 1767225600009 0).1 = .ok (some row, false) ∧ row.updatedBy = "x" := by
  let _ := Sample.clock
  constructor
  · intro hu
    have hnd := hu (State.row_key Sample.key "")
    revert hnd
    decide +kernel
  · refine ⟨{ key := State.row_key Sample.key "", subject := "seat", generation := none
              body := Json.object [("by", Json.str "x")], fence := some Sample.expectStamp, createdAt := 1767225600005
              updatedAt := 1767225600009, updatedBy := "x" }, ?_, rfl⟩
    rfl

end HrcRuntime.SeatAnnotations
