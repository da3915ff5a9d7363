import HrcRuntime.LivenessVerdict

namespace HrcRuntime.LivenessVerdict

open Records (RunStatus InvocationState)

def calm (db : Database) (runtime : String) : Bool :=
  (db.absorbed runtime).all fun e => !unresolved e.2 || decide (e.2.status ≠ .completed)

variable {db db' : Database} {runtime id : String} {rt : Runtime} {q : Run}

structure Settled (db db' : Database) (g : Run → Run) : Prop where
  rows : db'.runs.rows = db.runs.rows.map g
  key : ∀ r, (g r).runId = r.runId
  submission : ∀ r, (g r).brokerSubmissionId = r.brokerSubmissionId
  completed : ∀ r ∈ db.runs.rows, (g r).status = .completed → g r = r
  terminal : ∀ r ∈ db.runs.rows, r.status.isRunTerminal = true → (g r).status = r.status
  brokerEvents : db'.brokerEvents = db.brokerEvents
  runtimes : db'.runtimes = db.runtimes
  notices : db'.notices = db.notices

theorem Settled.refl (db : Database) : Settled db db fun r => r :=
  ⟨(List.map_id' _).symm, fun _ => rfl, fun _ => rfl, fun _ _ _ => rfl, fun _ _ _ => rfl, rfl, rfl, rfl⟩

theorem failAbsorbed_submission (invocation now : String) (run r : Run) :
    (failAbsorbed invocation now run r).brokerSubmissionId = r.brokerSubmissionId := by
  unfold failAbsorbed
  split <;> rfl

variable {g : Run → Run}

theorem Settled.entry (now : String) (h : Settled db db' g) {e : String × Run} (he : e.2 ∈ db.runs.rows)
    (hop : e.2.status ≠ .completed) : ∃ g', Settled db (settleEntry now db' e) g' := by
  let f : Run → Run := fun r => if r.runId = e.2.runId then failAbsorbed e.1 now e.2 r else r
  have hs : ∀ r ∈ db.runs.rows, (g r).runId = e.2.runId → r = e.2 := by
    intro r hr hk
    rw [h.key] at hk
    exact List.inj_on_of_nodup_map db.runs.nodup hr he hk
  refine ⟨f ∘ g, ?_, ?_, ?_, ?_, ?_, h.brokerEvents, h.runtimes, h.notices⟩
  · change db'.runs.rows.map _ = _
    rw [h.rows, List.map_map]
    refine List.map_congr_left fun r _ => ?_
    simp [f]
  · intro r
    change (f (g r)).runId = r.runId
    rw [← h.key r]
    simp only [f]
    split
    · exact failAbsorbed_runId ..
    · rfl
  · intro r
    change (f (g r)).brokerSubmissionId = r.brokerSubmissionId
    rw [← h.submission r]
    simp only [f]
    split
    · exact failAbsorbed_submission ..
    · rfl
  · intro r hr hd
    change f (g r) = r
    have hd' : (f (g r)).status = .completed := hd
    simp only [f] at hd' ⊢
    split at hd'
    · rename_i hk
      obtain rfl := hs r hr hk
      unfold failAbsorbed at hd'
      split at hd'
      · cases hd'
      · have hstl : (g e.2).status = .completed := hd'
        rw [h.completed _ hr hstl] at hstl
        exact absurd hstl hop
    · rename_i hk
      rw [if_neg hk]
      exact h.completed r hr hd'
  · intro r hr ht
    change (f (g r)).status = r.status
    simp only [f]
    split
    · rename_i hk
      obtain rfl := hs r hr hk
      unfold failAbsorbed
      split
      · rename_i hbad
        simp only [Bool.or_eq_true, decide_eq_true_eq] at hbad
        rcases hbad with hbad | hbad
        · rw [hbad] at ht
          cases ht
        · exact absurd hbad hop
      · exact h.terminal _ hr ht
    · exact h.terminal r hr ht

theorem Settled.entries {es : List (String × Run)} (now : String) (h : Settled db db' g)
    (hes : ∀ e ∈ es, e.2 ∈ db.runs.rows ∧ e.2.status ≠ .completed) :
    ∃ g', Settled db (es.foldl (settleEntry now) db') g' := by
  induction es generalizing db' g with
  | nil => exact ⟨g, h⟩
  | cons e es ih =>
    obtain ⟨g', hs⟩ := h.entry now (hes e List.mem_cons_self).1 (hes e List.mem_cons_self).2
    exact ih hs fun e' he' => hes e' (List.mem_cons_of_mem _ he')

theorem mem_absorbed {e : String × Run} : e ∈ db.absorbed runtime ↔ ∃ x ∈ db.brokerEvents, ∃ submission,
    x.fact = .absorbed (some submission) ∧ x.runtimeId = runtime ∧
      (db.brokerEvents.any fun a => a.invocationId = x.invocationId && a.fact = .admitted submission true) = true ∧
      db.runs.rows.find? (·.brokerSubmissionId = some submission) = some e.2 ∧ e.1 = x.invocationId := by
  unfold Database.absorbed
  rw [List.mem_filterMap]
  refine exists_congr fun x => and_congr_right fun _ => ?_
  cases hf : x.fact with
  | absorbed submission =>
    cases submission with
    | none => simp
    | some submission =>
      simp only [BrokerFact.absorbed.injEq, Option.some.injEq]
      constructor
      · intro h
        split at h
        · rename_i hc
          simp only [Bool.and_eq_true, decide_eq_true_eq] at hc
          obtain ⟨r, hr, rfl⟩ := Option.map_eq_some_iff.mp h
          exact ⟨submission, rfl, hc.1, hc.2, hr, rfl⟩
        · cases h
      · rintro ⟨_, rfl, hrt, hadm, hr, hi⟩
        rw [hrt, hadm, hr, ← hi]
        simp
  | admitted submission steer => simp
  | continuationCleared reason => simp
  | other => simp

theorem calm_iff : calm db runtime = true ↔
    ∀ e ∈ db.absorbed runtime, unresolved e.2 = true → e.2.status ≠ .completed := by
  unfold calm
  rw [List.all_eq_true]
  refine forall_congr' fun e => forall_congr' fun _ => ?_
  cases unresolved e.2 <;> simp

theorem failUnresolvedAbsorbed_settled (hc : calm db runtime = true) (invocation : Option String) (now : String) :
    ∃ g, Settled db (failUnresolvedAbsorbed db runtime invocation now) g := by
  refine (Settled.refl db).entries now fun e he => ?_
  obtain ⟨hm, hk⟩ := List.mem_filter.mp he
  rw [Bool.and_eq_true] at hk
  obtain ⟨x, -, submission, -, -, -, hr, -⟩ := mem_absorbed.mp hm
  exact ⟨List.mem_of_find?_eq_some hr, calm_iff.mp hc e hm hk.1⟩

theorem Settled.calm (h : Settled db db' g) (hc : calm db runtime = true) : calm db' runtime = true := by
  refine calm_iff.mpr fun e he hu hd => ?_
  obtain ⟨x, hx, submission, hf, hrt, hadm, hrun, hi⟩ := mem_absorbed.mp he
  rw [h.brokerEvents] at hx hadm
  rw [h.rows, List.find?_map] at hrun
  obtain ⟨r, hr, heq⟩ := Option.map_eq_some_iff.mp hrun
  have hs : (fun r => decide ((g r).brokerSubmissionId = some submission)) =
      fun r => decide (r.brokerSubmissionId = some submission) := by
    funext r
    rw [h.submission]
  have hr' : db.runs.rows.find? (fun r => decide (r.brokerSubmissionId = some submission)) = some r := by
    rw [← hs]
    exact hr
  have hk : g r = r := h.completed r (List.mem_of_find?_eq_some hr') (by rw [heq]; exact hd)
  rw [hk] at heq
  subst heq
  refine calm_iff.mp hc (x.invocationId, e.2) (mem_absorbed.mpr ⟨x, hx, submission, hf, hrt, hadm, hr', rfl⟩)
    hu hd

theorem Settled.find (h : Settled db db' g) (hq : db.runs.find id = some q)
    (ht : q.status.isRunTerminal = true) : ∃ q', db'.runs.find id = some q' ∧ q'.status = q.status := by
  obtain ⟨hm, hid⟩ := Keyed.find_mem hq
  have hin : g q ∈ db'.runs.rows := by
    rw [h.rows]
    exact List.mem_map_of_mem hm
  have hk : (g q).runId = id := (h.key q).trans hid
  exact ⟨g q, hk ▸ Keyed.find_of_mem hin, h.terminal q hm ht⟩

def KeepsRuns (db db' : Database) : Prop :=
  ∀ id q, db.runs.find id = some q → q.status.isRunTerminal = true →
    ∃ q', db'.runs.find id = some q' ∧ q'.status = q.status

theorem settleBroker_spec (hc : calm db rt.runtimeId = true) (now : String) (state : InvocationState) :
    KeepsRuns db (settleBroker db rt now state) ∧ (settleBroker db rt now state).runtimes = db.runtimes ∧
      (settleBroker db rt now state).notices = db.notices := by
  unfold settleBroker
  split
  · obtain ⟨g, h⟩ := failUnresolvedAbsorbed_settled hc none now
    cases rt.activeInvocationId with
    | none => exact ⟨fun _ _ hq => h.find hq, h.runtimes, h.notices⟩
    | some invocation =>
      obtain ⟨g', h'⟩ := failUnresolvedAbsorbed_settled (h.calm hc) (some invocation) now
      refine ⟨fun id q hq ht => ?_, h'.runtimes.trans h.runtimes, h'.notices.trans h.notices⟩
      obtain ⟨q₁, hq₁, hstatus₁⟩ := h.find hq ht
      obtain ⟨q₂, hq₂, hstatus₂⟩ := h'.find hq₁ (hstatus₁ ▸ ht)
      exact ⟨q₂, hq₂, hstatus₂.trans hstatus₁⟩
  · exact ⟨fun _ q hq _ => ⟨q, hq, rfl⟩, rfl, rfl⟩

def runOpen (db : Database) (run : Option String) : Bool :=
  run.all fun id => (db.runs.find id).all fun q => !q.status.isRunTerminal

theorem find_updateRuntime_of_ne (f : Runtime → Runtime) (hf : ∀ r, (f r).runtimeId = r.runtimeId) {k : String}
    (h : k ≠ id) : (updateRuntime db id f hf).runtimes.find k = db.runtimes.find k :=
  Keyed.find_amend_of_ne hf h

theorem find_updateRuntime_self (f : Runtime → Runtime) (hf : ∀ r, (f r).runtimeId = r.runtimeId) :
    (updateRuntime db id f hf).runtimes.find id = (db.runtimes.find id).map f := by
  have h := Keyed.find_amend_self (t := db.runtimes) (k := id) (p := fun _ => true) hf
  simp only [ite_true] at h
  exact h

theorem find_failRun_of_ne {run now message : String} (h : id ≠ run) :
    (failRun db run now message).runs.find id = db.runs.find id := by
  unfold failRun
  refine Keyed.find_amend_of_ne ?_ h
  exact fun _ => rfl

theorem settle_spec (hc : calm db rt.runtimeId = true) (hop : runOpen db rt.activeRunId = true) (now : String)
    (state : InvocationState) (message : String) : KeepsRuns db (settle db rt now state message) ∧
      (∀ k, k ≠ rt.runtimeId → (settle db rt now state message).runtimes.find k = db.runtimes.find k) ∧
      (settle db rt now state message).notices = db.notices := by
  obtain ⟨hrn, hr, hn⟩ := settleBroker_spec hc now state
  unfold settle
  cases hrun : rt.activeRunId with
  | none => exact ⟨hrn, fun k _ => by rw [hr], hn⟩
  | some run =>
    refine ⟨fun id q hq ht => ?_, fun k hk => ?_, hn⟩
    · obtain ⟨q', hq', hstatus⟩ := hrn id q hq ht
      have hne : id ≠ run := by
        rintro rfl
        unfold runOpen at hop
        rw [hrun, Option.all_some, hq, Option.all_some, ht] at hop
        cases hop
      exact ⟨q', (find_failRun_of_ne hne).trans hq', hstatus⟩
    · have hs : (updateRuntime (settleBroker db rt now state) rt.runtimeId
          (fun r => { r with activeRunId := none, updatedAt := now }) fun _ => rfl).runtimes.find k =
            (settleBroker db rt now state).runtimes.find k := find_updateRuntime_of_ne _ _ hk
      rw [hr] at hs
      exact hs

end HrcRuntime.LivenessVerdict
