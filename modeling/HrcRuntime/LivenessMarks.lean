import HrcRuntime.LivenessSettle
import HrcRuntime.Schedule

namespace HrcRuntime.LivenessVerdict

open Records (RunStatus InvocationState)

structure Marks (id : String) (db db' : Database) : Prop where
  runs : KeepsRuns db db'
  others : ∀ k, k ≠ id → db'.runtimes.find k = db.runtimes.find k
  dead : db'.available id = false
  notices : ∃ n, n.runtimeId = id ∧ db'.notices = db.notices ++ [n]

variable {db : Database} {rt : Runtime}

theorem conclude_marks {settled : Database} {now : String} {status : Status} {state : StateObject} {kind : NoticeKind}
    {payload : Payload}
    (hr : KeepsRuns db settled) (hoth : ∀ k, k ≠ rt.runtimeId → settled.runtimes.find k = db.runtimes.find k)
    (hn : settled.notices = db.notices) (hstatus : status.unavailable = true) :
    Marks rt.runtimeId db (conclude settled rt now status state kind payload) where
  runs := hr
  others k hk := (find_updateRuntime_of_ne (withStatus status now state) (fun _ => rfl) hk).trans (hoth k hk)
  dead := by
    have hf : (conclude settled rt now status state kind payload).runtimes.find rt.runtimeId =
        (settled.runtimes.find rt.runtimeId).map (withStatus status now state) :=
      find_updateRuntime_self (withStatus status now state) fun _ => rfl
    unfold Database.available
    rw [hf]
    cases settled.runtimes.find rt.runtimeId with
    | none => rfl
    | some r =>
      have hd : (withStatus status now state r).status.unavailable = true := hstatus
      rw [Option.map_some, Option.any_some, hd]
      rfl
  notices := by
    refine ⟨notice (updateRuntime settled rt.runtimeId (withStatus status now state) fun _ => rfl) rt now kind payload, rfl, ?_⟩
    rw [← hn]
    rfl

theorem markStale_marks (payload : Payload) (now : String) (hc : calm db rt.runtimeId = true) (hop : runOpen db rt.activeRunId = true) :
    Marks rt.runtimeId db (markStale db rt payload now) := by
  obtain ⟨hr, hoth, hn⟩ := settle_spec hc hop now .disposed
    ("runtime " ++ rt.runtimeId ++ " is stale after startup reconciliation")
  exact conclude_marks hr hoth hn rfl

theorem markTerminated_marks (payload : Payload) (now : String) (hc : calm db rt.runtimeId = true) (hop : runOpen db rt.activeRunId = true) :
    Marks rt.runtimeId db (markTerminatedAfterUserExit db rt payload now) := by
  obtain ⟨hr, hoth, hn⟩ := settle_spec hc hop now .exited
    ("runtime " ++ rt.runtimeId ++ " was terminated by user exit")
  exact conclude_marks hr hoth hn rfl

theorem notLive_marks (payload : Payload) (now : String) (hc : calm db rt.runtimeId = true) (hop : runOpen db rt.activeRunId = true) :
    Marks rt.runtimeId db (notLive db rt payload now) := by
  unfold notLive
  cases userExit db rt with
  | none => exact markStale_marks _ now hc hop
  | some reason => exact markTerminated_marks _ now hc hop

theorem markLifecycleTerminal_marks {reason now : String} (hc : calm db rt.runtimeId = true)
    (hop : runOpen db rt.activeRunId = true) : Marks rt.runtimeId db (markLifecycleTerminal db rt reason now) := by
  obtain ⟨hr, hoth, hd, hn⟩ := markStale_marks
    ⟨rt.runtimeId, reason, .lifecycleTerminal rt.activeInvocationId, none⟩ now hc hop
  let f : Runtime → Runtime := fun r => { r with lifecycleTerminalReason := some reason, updatedAt := now }
  refine ⟨hr, fun k hk => (find_updateRuntime_of_ne f (fun _ => rfl) hk).trans (hoth k hk), ?_, hn⟩
  have hf : (markLifecycleTerminal db rt reason now).runtimes.find rt.runtimeId = _ :=
    find_updateRuntime_self f fun _ => rfl
  unfold Database.available at hd ⊢
  rw [hf]
  rw [Option.any_map]
  exact hd

def Runtime.lease (rt : Runtime) : Option Tmux × Option Substrate × Option String :=
  (rt.tmux, rt.state.substrate, rt.state.tmuxSocketPath)

def moved (rt r : Runtime) : Bool := r.activeInvocationId ≠ rt.activeInvocationId || r.lease ≠ rt.lease

def Runtime.reasons (rt : Runtime) : Option String × Option String × Option String × Option String :=
  (rt.state.staleReason, rt.state.terminationReason, rt.state.userExitReason, rt.lifecycleTerminalReason)

/-- Whether a verdict may still be written on a row: it is available, where the pass read it, and without completed
runs that have no owner. -/
def stands (db : Database) (rt r : Runtime) : Bool := !r.status.unavailable && !moved rt r && calm db rt.runtimeId

/-- The condition on the steps: the two writes find the row as it was read and the run they end open, and the end of a
lease finds no moved runtime at the socket. -/
def passAllowed (s : State) (p : Pass) : Bool :=
  match p.phase with
  | .lifecycle _ => runOpen s.db p.rt.activeRunId && (s.db.runtimes.find p.rt.runtimeId).any (stands s.db p.rt)
  | .condemned _ _ => (s.db.runtimes.find p.rt.runtimeId).all fun r => runOpen s.db r.activeRunId && stands s.db p.rt r
  | .killing socket => (s.db.runtimes.find p.rt.runtimeId).all fun r => !moved p.rt r || r.leaseSocket ≠ some socket
  | _ => true

def allowed (s : State) : Action → Bool
  | .advance pass _ _ fault => fault || (s.passes.find pass).all (passAllowed s)
  | _ => true

/-- What a step of a pass leaves alone: the status and the reasons of an unavailable runtime; the mark, the run and
the server of a runtime that moved; the status of an ended run. -/
structure Careful (rt : Runtime) (s s' : State) : Prop where
  unavailable : ∀ id r, s.db.runtimes.find id = some r → r.status.unavailable = true →
    ∃ r', s'.db.runtimes.find id = some r' ∧ r'.status = r.status ∧ r'.reasons = r.reasons
  marked : ∀ r, s.db.runtimes.find rt.runtimeId = some r → moved rt r = true →
    ∃ r', s'.db.runtimes.find rt.runtimeId = some r' ∧ r'.status = r.status ∧ r'.activeRunId = r.activeRunId
  run : ∀ r, s.db.runtimes.find rt.runtimeId = some r → moved rt r = true → ∀ run, r.activeRunId = some run →
    s'.db.runs.find run = s.db.runs.find run
  lease : ∀ r, s.db.runtimes.find rt.runtimeId = some r → moved rt r = true → ∀ socket, r.leaseSocket = some socket →
    s'.servers socket = s.servers socket
  ended : KeepsRuns s.db s'.db

structure Mourned (s : State) : Prop where
  nodup : s.deaths.Nodup
  bound : ∀ id n, (id, n) ∈ s.deaths → n ≤ s.life id
  alive : ∀ id n, (id, n) ∈ s.deaths → s.db.available id = true → n < s.life id

variable {s s' : State} {p : Pass} {pass : Nat}

theorem Careful.of_same (hdb : s'.db = s.db) (hs : s'.servers = s.servers) : Careful rt s s' where
  unavailable id r hr _ := ⟨r, by rw [hdb]; exact hr, rfl, rfl⟩
  marked r hr _ := ⟨r, by rw [hdb]; exact hr, rfl, rfl⟩
  run r _ _ run _ := by rw [hdb]
  lease r _ _ socket _ := by rw [hs]
  ended id q hq _ := ⟨q, by rw [hdb]; exact hq, rfl⟩

theorem Careful.of_marks {r : Runtime} (hmr : Marks rt.runtimeId s.db s'.db)
    (hr : s.db.runtimes.find rt.runtimeId = some r) (hs : stands s.db rt r = true) : Careful rt s s' := by
  simp only [stands, Bool.and_eq_true, Bool.not_eq_true'] at hs
  obtain ⟨⟨hav, hstl⟩, -⟩ := hs
  have hn : ∀ r', s.db.runtimes.find rt.runtimeId = some r' → moved rt r' = true → False := by
    intro r' hr' hmov
    rw [hr] at hr'
    rw [Option.some.inj hr'] at hstl
    rw [hmov] at hstl
    cases hstl
  refine ⟨fun id r' hr' hd => ?_, fun r' hr' hm => (hn r' hr' hm).elim, fun r' hr' hm => (hn r' hr' hm).elim,
    fun r' hr' hm => (hn r' hr' hm).elim, hmr.runs⟩
  by_cases hid : id = rt.runtimeId
  · subst hid
    rw [hr] at hr'
    rw [Option.some.inj hr', hd] at hav
    cases hav
  · exact ⟨r', (hmr.others id hid).trans hr', rfl, rfl⟩

/-- A commit whose notices are none, or one of a runtime that dies in it. -/
theorem Mourned.commit (h : Mourned s) {db : Database} (hn : db.notices = s.db.notices ∨
    ∃ n, db.notices = s.db.notices ++ [n] ∧ s.db.available n.runtimeId = true ∧ db.available n.runtimeId = false) :
    Mourned (s.commit db) := by
  have hl : ∀ id, s.life id ≤ (s.commit db).life id := by
    intro id
    change s.life id ≤ if (db.available id && !s.db.available id) = true then s.life id + 1 else s.life id
    split <;> omega
  have hold : ∀ id n, (id, n) ∈ s.deaths → n ≤ (s.commit db).life id ∧
      (db.available id = true → n < (s.commit db).life id) := by
    intro id n hm
    refine ⟨Nat.le_trans (h.bound id n hm) (hl id), fun hav => ?_⟩
    by_cases hbef : s.db.available id = true
    · exact Nat.lt_of_lt_of_le (h.alive id n hm hbef) (hl id)
    · have hr : (s.commit db).life id = s.life id + 1 := if_pos (by rw [hav, Bool.eq_false_iff.mpr hbef]; rfl)
      rw [hr]
      exact Nat.lt_succ_of_le (h.bound id n hm)
  rcases hn with hs | ⟨notice, hone, hw, hd⟩
  · have hdth : (s.commit db).deaths = s.deaths := by
      change s.deaths ++ (db.notices.drop s.db.notices.length).map _ = _
      rw [hs, List.drop_length, List.map_nil, List.append_nil]
    refine ⟨hdth ▸ h.nodup, fun id n hm => ?_, fun id n hm => ?_⟩
    · rw [hdth] at hm
      exact (hold id n hm).1
    · rw [hdth] at hm
      exact (hold id n hm).2
  · have hdth : (s.commit db).deaths = s.deaths ++ [(notice.runtimeId, s.life notice.runtimeId)] := by
      change s.deaths ++ (db.notices.drop s.db.notices.length).map _ = _
      rw [hone, List.drop_append_of_le_length (Nat.le_refl _), List.drop_length]
      rfl
    refine ⟨?_, fun id n hm => ?_, fun id n hm hav => ?_⟩
    · rw [hdth]
      refine List.nodup_append.mpr ⟨h.nodup, List.nodup_singleton _, ?_⟩
      rintro a ha b hb rfl
      rw [List.mem_singleton.mp hb] at ha
      exact Nat.lt_irrefl _ (h.alive _ _ ha hw)
    · rw [hdth] at hm
      rcases List.mem_append.mp hm with hm | hm
      · exact (hold id n hm).1
      · cases List.mem_singleton.mp hm
        exact hl _
    · rw [hdth] at hm
      rcases List.mem_append.mp hm with hm | hm
      · exact (hold id n hm).2 hav
      · cases List.mem_singleton.mp hm
        have ha' : db.available notice.runtimeId = true := hav
        rw [hd] at ha'
        cases ha'

theorem Mourned.of_same (h : Mourned s) (hdb : s'.db = s.db) (hl : s'.life = s.life) (hd : s'.deaths = s.deaths) :
    Mourned s' where
  nodup := hd ▸ h.nodup
  bound := by rw [hd, hl]; exact h.bound
  alive := by rw [hd, hl, hdb]; exact h.alive

theorem Marks.dies {db' : Database} (h : Marks rt.runtimeId db db') (hw : db.available rt.runtimeId = true) :
    ∃ n, db'.notices = db.notices ++ [n] ∧ db.available n.runtimeId = true ∧ db'.available n.runtimeId = false := by
  obtain ⟨n, hid, hn⟩ := h.notices
  exact ⟨n, hn, by rw [hid]; exact hw, by rw [hid]; exact h.dead⟩

end HrcRuntime.LivenessVerdict
