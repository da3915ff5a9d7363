import HrcRuntime.LivenessMarks

namespace HrcRuntime.LivenessVerdict

open Records (RunStatus InvocationState Transport)
open Schedule

variable {s s' : State} {p : Pass} {pass : Nat} {probe : Probe} {now : String} {fault : Bool} {rt : Runtime}

def Logged (old : List Notice) (s : State) : Prop :=
  ∃ rest, s.db.notices = old ++ rest ∧ s.deaths.map (·.1) = rest.map (·.runtimeId)

variable {old : List Notice} {db : Database}

theorem Logged.commit (h : Logged old s) (more : List Notice)
    (hn : db.notices = s.db.notices ++ more) : Logged old (s.commit db) := by
  obtain ⟨rest, hr, hd⟩ := h
  refine ⟨rest ++ more, ?_, ?_⟩
  · change db.notices = _
    rw [hn, hr, List.append_assoc]
  · change (s.deaths ++ (db.notices.drop s.db.notices.length).map _).map _ = _
    rw [hn, List.drop_append_of_le_length (Nat.le_refl _), List.drop_length, List.nil_append, List.map_append,
      hd, List.map_append, List.map_map]
    rfl

structure Inv (old : List Notice) (s : State) : Prop where
  mourned : Mourned s
  logged : Logged old s

theorem inv_start (db : Database) (servers : String → Option Nat) : Inv db.notices (State.start db servers) where
  mourned := ⟨List.nodup_nil, fun _ _ h => absurd h List.not_mem_nil, fun _ _ h => absurd h List.not_mem_nil⟩
  logged := ⟨[], (List.append_nil _).symm, rfl⟩

theorem Inv.of_same (h : Inv old s) (hdb : s'.db = s.db) (hl : s'.life = s.life)
    (hd : s'.deaths = s.deaths) : Inv old s' where
  mourned := h.mourned.of_same hdb hl hd
  logged := by
    unfold Logged
    rw [hdb, hd]
    exact h.logged

theorem Inv.commit (h : Inv old s) (hn : db.notices = s.db.notices ∨
    ∃ n, db.notices = s.db.notices ++ [n] ∧ s.db.available n.runtimeId = true ∧ db.available n.runtimeId = false) :
    Inv old (s.commit db) where
  mourned := h.mourned.commit hn
  logged := by
    rcases hn with hs | ⟨n, hone, -⟩
    · exact h.logged.commit [] (by rw [hs, List.append_nil])
    · exact h.logged.commit [n] hone

def Sound (rt : Runtime) (s s' : State) : Prop := Careful rt s s' ∧ ∀ old, Inv old s → Inv old s'

theorem Sound.of_same (hdb : s'.db = s.db) (hs : s'.servers = s.servers) (hl : s'.life = s.life)
    (hd : s'.deaths = s.deaths) : Sound rt s s' :=
  ⟨.of_same hdb hs, fun _ h => h.of_same hdb hl hd⟩

variable {r : Runtime}

theorem Sound.of_marks (hm : Marks rt.runtimeId s.db db)
    (hr : s.db.runtimes.find rt.runtimeId = some r) (hs : stands s.db rt r = true) (hdb : s'.db = db)
    (hl : s'.life = (s.commit db).life) (hd : s'.deaths = (s.commit db).deaths) : Sound rt s s' := by
  refine ⟨Careful.of_marks (hdb ▸ hm) hr hs, fun old h => ?_⟩
  have hav : s.db.available rt.runtimeId = true := by
    simp only [stands, Bool.and_eq_true] at hs
    unfold Database.available
    rw [hr]
    exact hs.1.1
  exact (h.commit (.inr (hm.dies hav))).of_same hdb hl hd

theorem choose_sound : Sound rt s (s.choose p) := by
  unfold State.choose
  split
  · exact .of_same rfl rfl rfl rfl
  · split <;> exact .of_same rfl rfl rfl rfl

theorem after_sound {socket : Option String} (h : Sound rt s s') : Sound rt s (s'.after pass socket) := by
  obtain ⟨⟨h1, h2, h3, h4, h5⟩, hi⟩ := h
  cases socket with
  | none => exact ⟨⟨h1, h2, h3, h4, h5⟩, fun old h => (hi old h).of_same rfl rfl rfl⟩
  | some socket => exact ⟨⟨h1, h2, h3, h4, h5⟩, fun old h => (hi old h).of_same rfl rfl rfl⟩

theorem kill_sound {socket : String} (h : ∀ r, s.db.runtimes.find rt.runtimeId = some r →
    moved rt r = false ∨ r.leaseSocket ≠ some socket) : Sound rt s ((s.kill socket).leave pass) := by
  refine ⟨⟨fun id r hr _ => ⟨r, hr, rfl, rfl⟩, fun r hr _ => ⟨r, hr, rfl, rfl⟩, fun _ _ _ _ _ => rfl,
    fun r hr hm k hk => ?_, fun id q hq _ => ⟨q, hq, rfl⟩⟩, fun old hi => hi.of_same rfl rfl rfl⟩
  rcases h r hr with hs | hoth
  · rw [hm] at hs
    cases hs
  · refine if_neg ?_
    rintro rfl
    exact hoth hk

theorem lifecycle_sound {reason : String} (hop : runOpen s.db p.rt.activeRunId = true)
    (hr : s.db.runtimes.find p.rt.runtimeId = some r) (hs : stands s.db p.rt r = true) :
    Sound p.rt s ((s.commit (markLifecycleTerminal s.db p.rt reason now)).leave p.id) := by
  have hc : calm s.db p.rt.runtimeId = true := by
    simp only [stands, Bool.and_eq_true] at hs
    exact hs.2
  exact .of_marks (markLifecycleTerminal_marks hc hop) hr hs rfl rfl rfl

theorem condemned_sound {payload : Payload} (hr : s.db.runtimes.find p.rt.runtimeId = some r)
    (hop : runOpen s.db r.activeRunId = true) (hs : stands s.db p.rt r = true) :
    Sound p.rt s (s.commit (notLive s.db r payload now)) := by
  have hid : r.runtimeId = p.rt.runtimeId := (Keyed.find_mem hr).2
  have hc : calm s.db r.runtimeId = true := by
    simp only [stands, Bool.and_eq_true] at hs
    rw [hid]
    exact hs.2
  have hm : Marks r.runtimeId s.db (notLive s.db r payload now) := notLive_marks payload now hc hop
  rw [hid] at hm
  exact .of_marks hm hr hs rfl rfl rfl

theorem advance_sound (hf : s.passes.find pass = some p) (hok : allowed s (.advance pass probe now fault) = true) :
    Sound p.rt s (s.advance p probe now fault) := by
  have hp : (fault || passAllowed s p) = true := by
    have hall : (fault || (s.passes.find pass).all (passAllowed s)) = true := hok
    rwa [hf, Option.all_some] at hall
  unfold passAllowed at hp
  unfold State.advance
  cases hph : p.phase with
  | reading =>
    dsimp only
    split
    · exact .of_same rfl rfl rfl rfl
    · exact choose_sound
  | lifecycle reason =>
    rw [hph] at hp
    dsimp only at hp ⊢
    cases fault with
    | true => exact .of_same rfl rfl rfl rfl
    | false =>
      rw [Bool.false_or, Bool.and_eq_true] at hp
      obtain ⟨hop, hany⟩ := hp
      obtain ⟨r, hr, hs⟩ := (Option.any_eq_true _ _).mp hany
      exact lifecycle_sound hop hr hs
  | probing =>
    dsimp only
    split <;> exact .of_same rfl rfl rfl rfl
  | condemned payload socket =>
    rw [hph] at hp
    dsimp only at hp ⊢
    cases fault with
    | true => exact .of_same rfl rfl rfl rfl
    | false =>
      rw [Bool.false_or] at hp
      rw [if_neg Bool.false_ne_true]
      cases hr : s.db.runtimes.find p.rt.runtimeId with
      | none => exact after_sound (.of_same rfl rfl rfl rfl)
      | some r =>
        rw [hr, Option.all_some, Bool.and_eq_true] at hp
        exact after_sound (condemned_sound hr hp.1 hp.2)
  | killing socket =>
    rw [hph] at hp
    dsimp only at hp ⊢
    cases fault with
    | true => exact .of_same rfl rfl rfl rfl
    | false =>
      rw [Bool.false_or] at hp
      refine kill_sound fun r hr => ?_
      rw [hr, Option.all_some] at hp
      simpa only [Bool.or_eq_true, Bool.not_eq_true', decide_eq_true_eq] using hp

theorem lawful_iff (h : s.lawful db = true) : db.notices = s.db.notices ∨
    ∃ n, db.notices = s.db.notices ++ [n] ∧ s.db.available n.runtimeId = true ∧ db.available n.runtimeId = false := by
  unfold State.lawful at h
  rcases Bool.or_eq_true_iff.mp h with h | h
  · exact .inl (of_decide_eq_true h)
  · obtain ⟨n, -, hn⟩ := (Option.any_eq_true _ _).mp h
    simp only [Bool.and_eq_true, decide_eq_true_eq, Bool.not_eq_true'] at hn
    exact .inr ⟨n, hn.1.1, hn.1.2, hn.2⟩

theorem step_inv (a : Action) (h : Inv old s) (hok : allowed s a = true) : Inv old (step a s) := by
  cases a with
  | begin pass runtime =>
    change Inv old (s.begin pass runtime)
    unfold State.begin
    split
    · split
      · exact h.of_same rfl rfl rfl
      · exact h
    · exact h
  | advance pass probe now fault =>
    change Inv old (s.onPass pass fun p => s.advance p probe now fault)
    unfold State.onPass
    cases hf : s.passes.find pass with
    | none => exact h
    | some p => exact (advance_sound hf hok).2 old h
  | write db =>
    change Inv old (if s.lawful db then s.commit db else s)
    split
    · rename_i hl
      exact h.commit (lawful_iff hl)
    · exact h
  | serve socket server => exact h.of_same rfl rfl rfl

section Samples

def sampleRuntime : Runtime :=
  { runtimeId := "rt-1", hostSessionId := "host-1", scopeRef := "agent:seat", laneRef := "main", generation := 1
    transport := .tmux, status := .busy, statusChangedAt := none, updatedAt := "t0", activeRunId := some "run-1"
    controllerKind := some "harness-broker", activeInvocationId := some "inv-1", lifecycleTerminalReason := none
    state := {}, tmux := some ⟨some "/btmux/1", some "hrc-1", some "%1"⟩ }

def sampleRun (id : String) (status : RunStatus) : Run :=
  ⟨id, status, some "t0", none, "t0", none, none, none, none⟩

def sampleStore (rt : Runtime) (lifecycle : Option String) (runs : List Run) (notices : List Notice) : Database :=
  { runtimes := Keyed.Store.empty.add rt
    invocations := Keyed.Store.empty.add ⟨"inv-1", .ready, "t0", lifecycle⟩
    runs := runs.foldl Keyed.Store.add .empty
    brokerEvents := [], sessions := [], notices }

def sampleEnd : Action :=
  .write (sampleStore { sampleRuntime with activeRunId := none } (some "idle_ttl") [sampleRun "run-1" .completed] [])

end Samples

end HrcRuntime.LivenessVerdict
