import HrcRuntime.MaintenanceFences

namespace HrcRuntime.Maintenance

open Json Keyed Schedule

def Kind.isAging : Kind → Bool
  | .aging _ _ => true
  | _ => false

variable [Native]

def Phase.Sane (q : Request) : Phase → Prop
  | .idle => True
  | .judging v _ => v.Read
  | .cleared v facts clock answer => v.Read ∧ match q.kind with
      | .aging _ _ => v.inFlight facts = .clear ∧ (v.row.activeInvocationId.isSome && facts.invocation.isNone) = false
      | .prune => v.pruneGuard facts clock answer = .clear
      | .dispose => v.disposeGuard facts clock answer = .clear

def Pass.Sane (p : Pass) : Prop := (∀ v ∈ p.rest, v.Read) ∧ p.phase.Sane p.request

def Inv (s : State) : Prop := ∀ p ∈ s.passes.rows, p.Sane

structure StillJudged (db : Database) (v : View) (facts : Facts) (r : Runtime) : Prop where
  runtimeId : r.runtimeId = v.row.runtimeId
  status : r.status = v.row.status
  activeRunId : r.activeRunId = v.row.activeRunId
  activeOperationId : r.activeOperationId = v.row.activeOperationId
  activeInvocationId : r.activeInvocationId = v.row.activeInvocationId
  lastActivityAt : r.lastActivityAt = v.row.lastActivityAt
  runtimeStateJson : r.runtimeStateJson = v.row.runtimeStateJson
  processes : ∀ id, v.row.activeInvocationId = some id → ∃ i, db.invocations.find id = some i ∧
    i.brokerPid = facts.invocation.bind (·.brokerPid) ∧ i.childPid = facts.invocation.bind (·.childPid)
  idle : db.busyRun r.runtimeId = false

def Untouched (db : Database) (v : View) (facts : Facts) : Prop :=
  db.runtimes.find v.row.runtimeId = some v.row ∧ db.maintenanceFacts v = facts

variable (serverSocket : String)

def Removable (s : State) (r : Runtime) : Kind → Prop
  | .aging _ _ => False
  | .prune => ∃ v, read r = some v ∧
      v.pruneGuard (s.db.maintenanceFacts v) s.world.clock (s.world.answer serverSocket v.asks) = .clear
  | .dispose => ∃ v, read r = some v ∧ r.status.disposable = true ∧
      v.liveness (s.db.maintenanceFacts v) (s.world.answer serverSocket v.asks) = .clear

structure Careful (s s' : State) (p : Pass) (now later : String) (fault : Bool) : Prop where
  marked : ∀ r ∈ s.db.runtimes.rows, r.status ≠ .stale → (s'.db.runtimes.find r.runtimeId).map (·.status) = some .stale →
    ∃ v facts clock answer, p.phase = .cleared v facts clock answer ∧ StillJudged s.db v facts r
  deleted : ∀ r ∈ s.db.runtimes.rows, s'.db.runtimes.find r.runtimeId = none → Removable serverSocket s r p.request.kind
  aged : ∀ v facts clock answer, p.phase = .cleared v facts clock answer → p.request.kind.isAging = true → fault = false →
    Untouched s.db v facts → (attempt s.db p.request v facts now later fault).1 = .done
  kept : s'.db = s.db ∨ ∃ v facts clock answer, p.phase = .cleared v facts clock answer ∧
    (attempt s.db p.request v facts now later fault).1 = .done

def allowed (s : State) : Action → Bool
  | .advance pass _ _ _ => (s.passes.find pass).all fun p => match p.phase with
      | .cleared v facts clock answer =>
        if p.request.kind.isAging then v.row.runtimeStateJson = v.state.map Native.print
        else ((s.db.runtimes.find v.row.runtimeId).map judged = some (judged v.row)) && s.db.maintenanceFacts v = facts
          && s.world.answer serverSocket v.asks = answer && clock ≤ s.world.clock
      | _ => true
  | _ => true

section Invariant

variable {serverSocket} {s : State} {p q : Pass}

omit [Native] in
theorem mem_move (h : q ∈ (s.move p).passes.rows) : q ∈ s.passes.rows ∨ ∃ id, q = { p with id } := by
  obtain ⟨r, hr, rfl⟩ := (mem_amend (f := fun q : Pass => { p with id := q.id }) fun _ => rfl).mp h
  split
  · exact .inr ⟨r.id, rfl⟩
  · exact .inl hr

theorem Inv.move (h : Inv s) (hp : p.Sane) : Inv (s.move p) := by
  intro q hq
  rcases mem_move hq with hq | ⟨id, rfl⟩
  · exact h q hq
  · exact hp

theorem Inv.add (h : Inv s) (hp : p.Sane) : Inv { s with passes := s.passes.add p } := by
  intro q hq
  rcases mem_add.mp hq with hq | ⟨rfl, -⟩
  · exact h q hq
  · exact hp

theorem mem_mapM_read {rows : List Runtime} {views : List View} (h : rows.mapM read = some views) :
    ∀ v ∈ views, v.Read := by
  induction rows generalizing views with
  | nil =>
    cases h
    simp
  | cons r rows ih =>
    rw [List.mapM_cons] at h
    obtain ⟨v, hv, h⟩ := Option.bind_eq_some_iff.mp h
    obtain ⟨rest, hr, h⟩ := Option.bind_eq_some_iff.mp h
    cases h
    intro u hu
    rcases List.mem_cons.mp hu with rfl | hu
    · exact .of_read hv
    · exact ih hr u hu

omit [Native] in
theorem inFlight_of_aging {v : View} {facts : Facts} {w : World} (h : v.aging facts w = .clear) :
    v.inFlight facts = .clear ∧ (v.row.activeInvocationId.isSome && facts.invocation.isNone) = false := by
  obtain ⟨hfl, h⟩ := orElse_clear.mp h
  obtain ⟨-, h⟩ := orElse_clear.mp h
  exact ⟨hfl, refuse_clear.mp (orElse_clear.mp h).1⟩

theorem Sane.cleared {v : View} {facts : Facts} {w : World} (hv : v.Read) (h : judge serverSocket q.request v facts w = .clear) :
    (Phase.cleared v facts w.clock (w.answer serverSocket v.asks)).Sane q.request := by
  refine ⟨hv, ?_⟩
  unfold judge at h
  cases hk : q.request.kind with
  | aging drop reason =>
    rw [hk] at h
    exact inFlight_of_aging h
  | prune =>
    rw [hk] at h
    exact h
  | dispose =>
    rw [hk] at h
    exact h

theorem Inv.advance (h : Inv s) (hp : p ∈ s.passes.rows) (now later : String) (fault : Bool) :
    Inv (s.advance serverSocket p now later fault) := by
  obtain ⟨hr, hph⟩ := h p hp
  unfold State.advance
  split
  · intro q hq
    exact h q (mem_erase.mp hq).1
  · rename_i v rest hp' hrs'
    rw [hrs'] at hr
    have ht : ∀ u ∈ rest, u.Read := fun u hu => hr u (List.mem_cons_of_mem v hu)
    split
    · exact h.move ⟨ht, by rw [hp']; trivial⟩
    · exact h.move ⟨ht, hr v List.mem_cons_self⟩
  · rename_i hp'
    rw [hp'] at hph
    split
    · rename_i hc
      simp only [Bool.and_eq_true, decide_eq_true_eq] at hc
      exact h.move ⟨hr, Sane.cleared hph hc.2⟩
    · exact h.move ⟨hr, trivial⟩
  · exact Inv.move h ⟨hr, trivial⟩

theorem Inv.step (a : Action) (h : Inv s) : Inv (step serverSocket a s) := by
  cases a with
  | begin pass request selection =>
    change Inv (s.begin pass request selection)
    unfold State.begin
    split
    · exact h
    · split
      · exact h
      · rename_i hvi
        exact h.add ⟨fun v hv => mem_mapM_read hvi v (List.mem_filter.mp hv).1, trivial⟩
  | beginDispose pass dry yes runtime =>
    change Inv (s.beginDispose pass dry yes runtime)
    unfold State.beginDispose
    split
    · exact h
    · rename_i hvw
      obtain ⟨r, -, hr⟩ := Option.bind_eq_some_iff.mp hvw
      refine h.add ⟨fun v hv => ?_, trivial⟩
      rw [List.mem_singleton.mp hv]
      exact .of_read hr
  | advance pass now later fault =>
    change Inv (s.onPass pass fun p => s.advance serverSocket p now later fault)
    unfold State.onPass
    cases hf : s.passes.find pass with
    | none => exact h
    | some p => exact h.advance (find_mem hf).1 now later fault
  | write db => exact h
  | world w => exact h

end Invariant

section Writes

variable {serverSocket} {s s' : State} {p : Pass} {v : View} {facts : Facts} {clock : Int} {answer : Answer}
  {now later : String} {fault : Bool}

variable {db : Database}

variable {evidence : Option Invocation} {r : Runtime} {reason : String} {drop : Bool}

theorem StillJudged.of_fence (h : fence db v facts.invocation = true)
    (ht : v.row.runtimeStateJson = v.state.map Native.print) (hr : db.runtimes.find v.row.runtimeId = some r) :
    StillJudged db v facts r := by
  unfold fence at h
  rw [hr, Option.any_some] at h
  simp only [Bool.and_eq_true, decide_eq_true_eq, Bool.not_eq_true'] at h
  obtain ⟨⟨⟨⟨⟨⟨⟨hstatus, hrun⟩, hop⟩, hinv⟩, hac⟩, hst⟩, hp⟩, hidle⟩ := h
  have hid : r.runtimeId = v.row.runtimeId := (find_mem hr).2
  refine ⟨hid, hstatus, hrun, hop, hinv, hac, hst.trans ht.symm, fun id hact => ?_, hid ▸ hidle⟩
  rw [hact, Option.all_some] at hp
  obtain ⟨i, hi, hs⟩ := (Option.any_eq_true _ _).mp hp
  simp only [Bool.and_eq_true, decide_eq_true_eq] at hs
  exact ⟨i, hi, hs⟩

theorem fence_of_untouched (h : Untouched db v facts)
    (hfl : v.inFlight facts = .clear) (hpr : (v.row.activeInvocationId.isSome && facts.invocation.isNone) = false)
    (ht : v.row.runtimeStateJson = v.state.map Native.print) : fence db v facts.invocation = true := by
  obtain ⟨hr, hf⟩ := h
  obtain ⟨-, hfl⟩ := orElse_clear.mp hfl
  obtain ⟨-, hfl⟩ := orElse_clear.mp hfl
  have hid : db.busyRun v.row.runtimeId = false := by
    have hrun := refuse_clear.mp (orElse_clear.mp hfl).2
    rw [← hf] at hrun
    exact hrun
  have hinv : facts.invocation = v.row.activeInvocationId.bind db.invocations.find := by
    rw [← hf]
    rfl
  have hp : (v.row.activeInvocationId.all fun id => (db.invocations.find id).any fun i =>
      i.brokerPid = facts.invocation.bind (·.brokerPid) && i.childPid = facts.invocation.bind (·.childPid)) = true := by
    cases hact : v.row.activeInvocationId with
    | none => rfl
    | some id =>
      rw [hact] at hinv hpr
      rw [Option.isSome_some, Bool.true_and] at hpr
      obtain ⟨i, hi⟩ := Option.isSome_iff_exists.mp (by simpa using hpr : facts.invocation.isSome)
      rw [hi] at hinv
      rw [Option.all_some, ← show some i = db.invocations.find id from hinv, Option.any_some, hi]
      simp
  unfold fence
  rw [hr, Option.any_some, hp, hid, ht]
  simp

theorem ageRuntime_eq_done
    (h : (ageRuntime db v evidence drop reason now later).1 = .done) :
    fence db v evidence = true ∧ ∃ session, ageRuntime db v evidence drop reason now later
      = (.done, age db v session drop reason now later) := by
  unfold ageRuntime at h ⊢
  split at h
  · cases h
  · rename_i hown
    rw [if_neg hown]
    split at h
    · cases h
    · rename_i hf
      rw [if_neg hf]
      cases hsession : db.sessions.find v.row.hostSessionId with
      | none =>
        rw [hsession] at h
        cases h
      | some session => exact ⟨by simpa using hf, session, rfl⟩

theorem ageRuntime_of_ne
    (h : (ageRuntime db v evidence drop reason now later).1 ≠ .done) :
    (ageRuntime db v evidence drop reason now later).2 = db := by
  unfold ageRuntime at h ⊢
  split at h
  · rename_i hown
    rw [if_pos hown]
  · rename_i hown
    rw [if_neg hown]
    split at h
    · rename_i hf
      rw [if_pos hf]
    · rename_i hf
      rw [if_neg hf]
      cases hsession : db.sessions.find v.row.hostSessionId with
      | none => rfl
      | some session =>
        rw [hsession] at h
        exact absurd rfl h

theorem ageRuntime_done (drop : Bool) (reason : String) (h : Untouched db v facts)
    (hfl : v.inFlight facts = .clear) (hp : (v.row.activeInvocationId.isSome && facts.invocation.isNone) = false)
    (ht : v.row.runtimeStateJson = v.state.map Native.print) :
    (ageRuntime db v facts.invocation drop reason now later).1 = .done := by
  have hown : v.externalOwner = false := refuse_clear.mp (orElse_clear.mp hfl).1
  have hf : fence db v facts.invocation = true := fence_of_untouched h hfl hp ht
  obtain ⟨session, hsession⟩ := Option.isSome_iff_exists.mp (db.hosted v.row (find_mem h.1).1)
  unfold ageRuntime
  rw [if_neg (by simp [hown]), if_neg (by simp [hf]), hsession]

theorem removable_of_same (hv : v.Read)
    (hs : judged r = judged v.row) (hf : s.db.maintenanceFacts v = facts)
    (hans : s.world.answer serverSocket v.asks = answer) (hc : clock ≤ s.world.clock)
    (hsn : (Phase.cleared v facts clock answer).Sane p.request) (hk : p.request.kind.isAging = false) :
    Removable serverSocket s r p.request.kind := by
  have hrow : SameJudged r v.row := .of_eq hs
  have hr : read r = some ⟨r, v.state⟩ := hrow.read hv
  have hrow' : SameJudged (View.mk r v.state).row v.row := hrow
  have hf' : s.db.maintenanceFacts ⟨r, v.state⟩ = facts := hrow'.maintenanceFacts.trans hf
  have has : (View.mk r v.state).asks = v.asks := hrow'.asks rfl
  obtain ⟨-, hg⟩ := hsn
  cases hk' : p.request.kind with
  | aging drop reason =>
    rw [hk'] at hk
    cases hk
  | prune =>
    rw [hk'] at hg
    obtain ⟨hown, hg⟩ := orElse_clear.mp hg
    obtain ⟨hh, hg⟩ := orElse_clear.mp hg
    obtain ⟨hstatus, hl⟩ := orElse_clear.mp hg
    refine ⟨⟨r, v.state⟩, hr, ?_⟩
    rw [hf', has, hans]
    refine orElse_clear.mpr ⟨hown, orElse_clear.mpr ⟨refuse_clear.mpr ?_, orElse_clear.mpr ⟨refuse_clear.mpr ?_, ?_⟩⟩⟩
    · rw [hrow'.held rfl]
      exact held_later (refuse_clear.mp hh) hc
    · rw [hrow.status]
      exact refuse_clear.mp hstatus
    · rw [hrow'.liveness rfl]
      exact hl
  | dispose =>
    rw [hk'] at hg
    obtain ⟨-, hg⟩ := orElse_clear.mp hg
    obtain ⟨hstatus, hl⟩ := orElse_clear.mp hg
    refine ⟨⟨r, v.state⟩, hr, ?_, ?_⟩
    · rw [hrow.status]
      simpa using refuse_clear.mp hstatus
    · rw [hf', has, hans, hrow'.liveness rfl]
      exact hl

theorem Careful.of_same (h : s'.db = s.db)
    (hag : ∀ v facts clock answer, p.phase = .cleared v facts clock answer → p.request.kind.isAging = true → fault = false →
      Untouched s.db v facts → (attempt s.db p.request v facts now later fault).1 = .done) :
    Careful serverSocket s s' p now later fault := by
  refine ⟨fun r hr hstatus hstale => ?_, fun r hr hn => ?_, hag, .inl h⟩
  · rw [h, find_row hr] at hstale
    exact absurd (Option.some.inj hstale) hstatus
  · rw [h, find_row hr] at hn
    cases hn

theorem Careful.of_deletion (hph : p.phase = .cleared v facts clock answer) (hk : p.request.kind.isAging = false)
    (hdb : s'.db.runtimes = s.db.runtimes.erase fun r => r.runtimeId == v.row.runtimeId)
    (hd : (attempt s.db p.request v facts now later fault).1 = .done)
    (hrem : ∀ r, s.db.runtimes.find v.row.runtimeId = some r → Removable serverSocket s r p.request.kind) :
    Careful serverSocket s s' p now later fault := by
  refine ⟨fun r hr hstatus hstale => ?_, fun r hr hn => ?_, fun _ _ _ _ _ hag => ?_, .inr ⟨v, facts, clock, answer, hph, hd⟩⟩
  · rw [hdb, find_erase_id] at hstale
    split at hstale
    · cases hstale
    · rw [find_row hr] at hstale
      exact absurd (Option.some.inj hstale) hstatus
  · rw [hdb, find_erase_id] at hn
    split at hn
    · rename_i hid
      exact hrem r (hid ▸ find_of_mem hr)
    · rw [find_row hr] at hn
      cases hn
  · rw [hk] at hag
    cases hag

theorem Careful.of_aged {session : Session} (hph : p.phase = .cleared v facts clock answer)
    (hdb : s'.db = age s.db v session drop reason now later)
    (hf : fence s.db v facts.invocation = true) (ht : v.row.runtimeStateJson = v.state.map Native.print)
    (hd : (attempt s.db p.request v facts now later fault).1 = .done) : Careful serverSocket s s' p now later fault := by
  have hoth (k : String) := (age_runtimes s.db v now later session drop reason k).1
  have hs := (age_runtimes s.db v now later session drop reason "").2
  refine ⟨fun r hr hstatus hstale => ?_, fun r hr hn => ?_, fun v' facts' clock' answer' hp' _ _ _ => ?_,
    .inr ⟨v, facts, clock, answer, hph, hd⟩⟩
  · have hid : r.runtimeId = v.row.runtimeId := by
      by_contra hid
      rw [hdb, hoth _ hid, find_row hr] at hstale
      exact hstatus (Option.some.inj hstale)
    exact ⟨v, facts, clock, answer, hph, .of_fence hf ht (hid ▸ find_of_mem hr)⟩
  · rw [hdb] at hn
    by_cases hid : r.runtimeId = v.row.runtimeId
    · rw [← hid, hn, find_row hr] at hs
      cases hs
    · rw [hoth _ hid, find_row hr] at hn
      cases hn
  · rw [hph] at hp'
    cases hp'
    exact hd

omit [Native] in
theorem removed_done {id : String} (h : db.runtimes.find id = some r) : removed db id = .done := by
  unfold removed
  rw [h]
  rfl

omit [Native] in
theorem unchanged_of_allowed
    (h : (((s.db.runtimes.find v.row.runtimeId).map judged = some (judged v.row)) && s.db.maintenanceFacts v = facts
      && s.world.answer serverSocket v.asks = answer && clock ≤ s.world.clock : Bool) = true) :
    ∃ r, s.db.runtimes.find v.row.runtimeId = some r ∧ judged r = judged v.row ∧ s.db.maintenanceFacts v = facts ∧
      s.world.answer serverSocket v.asks = answer ∧ clock ≤ s.world.clock := by
  simp only [Bool.and_eq_true, decide_eq_true_eq] at h
  obtain ⟨⟨⟨hrow, hf⟩, hans⟩, hc⟩ := h
  obtain ⟨r, hr, hs⟩ := Option.map_eq_some_iff.mp hrow
  exact ⟨r, hr, hs, hf, hans, hc⟩

/-- The write of a pass. -/
theorem careful_write (hs : Inv s) (hp : p ∈ s.passes.rows) (hph : p.phase = .cleared v facts clock answer)
    (hok : (if p.request.kind.isAging then v.row.runtimeStateJson = v.state.map Native.print
      else ((s.db.runtimes.find v.row.runtimeId).map judged = some (judged v.row)) && s.db.maintenanceFacts v = facts
        && s.world.answer serverSocket v.asks = answer && clock ≤ s.world.clock : Bool) = true)
    (hdb : s'.db = (attempt s.db p.request v facts now later fault).2) : Careful serverSocket s s' p now later fault := by
  have hsn : p.phase.Sane p.request := (hs p hp).2
  rw [hph] at hsn
  cases hfl : fault with
  | true =>
    subst hfl
    exact Careful.of_same hdb fun _ _ _ _ _ _ h => by cases h
  | false =>
    subst hfl
    cases hk : p.request.kind with
    | aging drop reason =>
      rw [hk] at hok
      have ht : v.row.runtimeStateJson = v.state.map Native.print := by simpa [Kind.isAging] using hok
      obtain ⟨-, hclr⟩ := hsn
      rw [hk] at hclr
      have hatt : ∀ db, attempt db p.request v facts now later false = ageRuntime db v facts.invocation
          (drop.getD (v.row.transport != .tmux && v.row.activeRunId.isSome)) reason now later := by
        intro db
        unfold attempt
        rw [hk]
        rfl
      by_cases hd : (attempt s.db p.request v facts now later false).1 = .done
      · rw [hatt] at hdb hd
        obtain ⟨hfen, session, hage⟩ := ageRuntime_eq_done hd
        rw [hage] at hdb
        exact .of_aged hph hdb hfen ht (by rw [hatt]; exact hd)
      · have hsm : s'.db = s.db := by
          rw [hdb, hatt]
          rw [hatt] at hd
          exact ageRuntime_of_ne hd
        refine .of_same hsm fun v' facts' clock' answer' hp' _ _ hu => ?_
        rw [hph] at hp'
        cases hp'
        rw [hatt]
        exact ageRuntime_done _ _ hu hclr.1 hclr.2 ht
    | prune =>
      have hk' : p.request.kind.isAging = false := by rw [hk]; rfl
      rw [hk', if_neg Bool.false_ne_true] at hok
      obtain ⟨r, hr, hsm, hf, hans, hc⟩ := unchanged_of_allowed hok
      have hatt : attempt s.db p.request v facts now later false
          = (removed s.db v.row.runtimeId, prune s.db v.row.runtimeId now) := by
        unfold attempt
        rw [hk]
        rfl
      rw [hatt] at hdb
      refine .of_deletion hph hk' (hdb ▸ prune_runtimes) ?_ fun r' hr' => ?_
      · rw [hatt]
        exact removed_done hr
      · rw [hr] at hr'
        cases hr'
        exact removable_of_same hsn.1 hsm hf hans hc hsn hk'
    | dispose =>
      have hk' : p.request.kind.isAging = false := by rw [hk]; rfl
      rw [hk', if_neg Bool.false_ne_true] at hok
      obtain ⟨r, hr, hsm, hf, hans, hc⟩ := unchanged_of_allowed hok
      have hatt : attempt s.db p.request v facts now later false
          = (removed s.db v.row.runtimeId, disposeRetainedRuntime s.db v.row.runtimeId now) := by
        unfold attempt
        rw [hk]
        rfl
      rw [hatt] at hdb
      refine .of_deletion hph hk' (hdb ▸ dispose_runtimes) ?_ fun r' hr' => ?_
      · rw [hatt]
        exact removed_done hr
      · rw [hr] at hr'
        cases hr'
        exact removable_of_same hsn.1 hsm hf hans hc hsn hk'

end Writes

theorem careful_advance {s : State} {p : Pass} {pass : Nat} {now later : String} {fault : Bool} (hs : Inv s)
    (hf : s.passes.find pass = some p) (hok : allowed serverSocket s (.advance pass now later fault) = true) :
    Careful serverSocket s (step serverSocket (.advance pass now later fault) s) p now later fault := by
  have hst : step serverSocket (.advance pass now later fault) s = s.advance serverSocket p now later fault := by
    change s.onPass pass _ = _
    unfold State.onPass
    rw [hf]
  rw [hst]
  cases hph : p.phase with
  | cleared v facts clock answer =>
    refine careful_write hs (find_mem hf).1 hph ?_ ?_
    · unfold allowed at hok
      dsimp only at hok
      rw [hf, Option.all_some, hph] at hok
      exact hok
    · unfold State.advance
      rw [hph]
  | idle =>
    have hsm : (s.advance serverSocket p now later fault).db = s.db := by
      unfold State.advance
      rw [hph]
      cases p.rest with
      | nil => rfl
      | cons v rest =>
        dsimp only
        split <;> rfl
    exact .of_same hsm fun v facts clock answer h => by rw [hph] at h; cases h
  | judging v facts =>
    have hsm : (s.advance serverSocket p now later fault).db = s.db := by
      unfold State.advance
      rw [hph]
      dsimp only
      split <;> rfl
    exact .of_same hsm fun v facts clock answer h => by rw [hph] at h; cases h

/-- Over every interleaving of the passes with other writers, where each state text is the text of its value and what a
prune or a disposal judged still holds when it deletes, every call of a pass acts only on what the pass judged. -/
theorem maintenance_careful (actions : List Action) {db : Database} {world : World}
    (hmeets : Meets (step serverSocket) (fun s a => allowed serverSocket s a = true) actions (start db world))
    {before after : List Action} {pass : Nat} {now later : String} {fault : Bool} {p : Pass}
    (h : actions = before ++ .advance pass now later fault :: after)
    (hfind : (run (step serverSocket) before (start db world)).passes.find pass = some p) :
    Careful serverSocket (run (step serverSocket) before (start db world))
      (run (step serverSocket) (before ++ [.advance pass now later fault]) (start db world)) p now later fault := by
  have hsta : Inv (start db world) := by
    intro q hq
    cases hq
  have hr := run_each (P := fun s a s' => ∀ pass now later fault p, a = .advance pass now later fault →
      s.passes.find pass = some p → Careful serverSocket s s' p now later fault)
    (fun s a hs _ => hs.step a)
    (fun s a hs hok pass now later fault p ha hfind => by
      subst ha
      exact careful_advance serverSocket hs hfind hok)
    hsta hmeets h
  exact hr pass now later fault p rfl hfind

namespace Sample

@[reducible] def native : Native where
  parse text := if text = "\x7b\x7d" ∨ text = "\x7b \x7d" then some (.obj .nil) else none
  print := Json.stringify
  parseDate _ := some 0
  holdMaxAgeMs := 604800000

def world : World := { clock := 1, signal := fun _ => .noProcess, tmux := fun _ _ => .absent }

def runtime (status : Status) (state : String) : Runtime :=
  { runtimeId := "r", hostSessionId := "h", scopeRef := "agent:a", transport := .headless, status, statusChangedAt := none
    tmuxJson := none, activeRunId := none, lastActivityAt := none, controllerKind := none, activeOperationId := none
    activeInvocationId := none, runtimeStateJson := some state, createdAt := "t", updatedAt := "t" }

def session : Session :=
  { hostSessionId := "h", scopeRef := "agent:a", laneRef := "main", generation := 1, continuationReuseDisabled := false
    updatedAt := "t" }

def database (status : Status) (state : String) : Database :=
  { runtimes := Store.empty.add (runtime status state), invocations := .empty, runs := .empty, brokerEvents := [], outcomes := []
    sessions := Store.empty.add session, buffers := [], bindings := [], events := []
    hosted := by
      intro r hr
      obtain h | ⟨rfl, -⟩ := mem_add.mp hr
      · cases h
      · rfl }

def pass (kind : Kind) (status : Status) : List Action :=
  [.begin 0 ⟨kind, false, true⟩ ⟨[status], none, none, 1⟩, .advance 0 "u" "u" false, .advance 0 "u" "u" false]

def pruning : List Action := pass .prune .stale

def revived : List Action := pruning ++ [.write (database .ready "\x7b\x7d")]

def sweeping : List Action := pass (.aging none "runtime_sweep") .ready

def cleared (kind : Kind) (status : Status) (state : String) : Pass :=
  ⟨0, ⟨kind, false, true⟩, [], .cleared ⟨runtime status state, some (.obj .nil)⟩ ⟨false, [], none, false⟩ 1 .none⟩

end Sample

omit [Native] in
/-- A stale runtime is judged and pruned. -/
theorem maintenance_careful_prune :
    letI := Sample.native
    ∃ p, Careful "" (run (step "") Sample.pruning (start (Sample.database .stale "\x7b\x7d") Sample.world))
      (run (step "") (Sample.pruning ++ [.advance 0 "u" "u" false]) (start (Sample.database .stale "\x7b\x7d") Sample.world))
      p "u" "u" false ∧
      (run (step "") (Sample.pruning ++ [.advance 0 "u" "u" false])
        (start (Sample.database .stale "\x7b\x7d") Sample.world)).db.runtimes.rows = [] := by
  let _ := Sample.native
  refine ⟨Sample.cleared .prune .stale "\x7b\x7d", ?_, by decide +kernel⟩
  exact maintenance_careful "" (Sample.pruning ++ [.advance 0 "u" "u" false]) (by decide +kernel) rfl (by decide +kernel)

omit [Native] in
/-- A prune deletes the runtime that came back after its judgement, and a sweep is refused by a state text with a blank
in it although nothing changed. -/
theorem maintenance_fails :
    letI := Sample.native
    ¬ (∀ (db : Database) (before : List Action) (p : Pass),
      (run (step "") before (start db Sample.world)).passes.find 0 = some p →
      Careful "" (run (step "") before (start db Sample.world))
        (run (step "") (before ++ [.advance 0 "u" "u" false]) (start db Sample.world)) p "u" "u" false) ∧
    ¬ Careful "" (run (step "") Sample.sweeping (start (Sample.database .ready "\x7b \x7d") Sample.world))
      (run (step "") (Sample.sweeping ++ [.advance 0 "u" "u" false]) (start (Sample.database .ready "\x7b \x7d") Sample.world))
      (Sample.cleared (.aging none "runtime_sweep") .ready "\x7b \x7d") "u" "u" false := by
  let _ := Sample.native
  constructor
  · intro h
    have hc := h (Sample.database .stale "\x7b\x7d") Sample.revived (Sample.cleared .prune .stale "\x7b\x7d")
      (by decide +kernel)
    have hrem := hc.deleted (Sample.runtime .ready "\x7b\x7d") (by decide +kernel) (by decide +kernel)
    obtain ⟨v, hr, hg⟩ := hrem
    have hv : v = ⟨Sample.runtime .ready "\x7b\x7d", some (.obj .nil)⟩ := by
      have : read (Sample.runtime .ready "\x7b\x7d") = some ⟨Sample.runtime .ready "\x7b\x7d", some (.obj .nil)⟩ := by
        decide +kernel
      exact Option.some.inj (hr.symm.trans this)
    rw [hv] at hg
    revert hg
    decide +kernel
  · intro h
    have hd := h.aged _ _ _ _ rfl rfl rfl ⟨by decide +kernel, by decide +kernel⟩
    revert hd
    decide +kernel

end HrcRuntime.Maintenance
