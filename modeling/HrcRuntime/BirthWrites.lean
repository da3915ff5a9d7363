import HrcRuntime.Births

namespace HrcRuntime.Births

open HrcRuntime.Keyed

def Operation.recorded (o : Operation) : Bool :=
  o.status == "completed" || [some "rejected", some "uncertain"].contains o.startOutcome

def endedState (state : String) : Bool := terminalInvocationState state || state == "stopping"

/-- No row comes back: what is unavailable or terminal stays so, what is recorded stays recorded, and a runtime of a
host that a rotation retired is never added. -/
structure Wanes (db db' : Database) : Prop where
  runtime : ∀ id rt, db.runtimes.find id = some rt →
    ∃ rt', db'.runtimes.find id = some rt' ∧ (unavailable rt.status = true → unavailable rt'.status = true)
  invocation : ∀ id i, db.invocations.find id = some i →
    ∃ i', db'.invocations.find id = some i' ∧ (terminalInvocationState i.state = true → endedState i'.state = true)
  run : ∀ id r, db.runs.find id = some r →
    ∃ r', db'.runs.find id = some r' ∧ (terminalRunStatus r.status = true → terminalRunStatus r'.status = true)
  operation : ∀ id o, db.operations.find id = some o →
    ∃ o', db'.operations.find id = some o' ∧ (o.recorded = true → o'.recorded = true)
  hosted : ∀ id rt, db.runtimes.find id = none → db'.runtimes.find id = some rt → db.liveHost rt.host = true

structure Fades (db db' : Database) : Prop where
  runtime : ∀ id rt, db.runtimes.find id = some rt →
    ∃ rt', db'.runtimes.find id = some rt' ∧ (unavailable rt.status = true → unavailable rt'.status = true)
  invocation : ∀ id i, db.invocations.find id = some i →
    ∃ i', db'.invocations.find id = some i' ∧ (i'.state = i.state ∨ endedState i'.state = true)
  run : ∀ id r, db.runs.find id = some r →
    ∃ r', db'.runs.find id = some r' ∧ (terminalRunStatus r.status = true → terminalRunStatus r'.status = true)
  operation : ∀ id o, db.operations.find id = some o →
    ∃ o', db'.operations.find id = some o' ∧ (o.recorded = true → o'.recorded = true)
  absent : ∀ id, db.runtimes.find id = none → db'.runtimes.find id = none

variable {db db' db'' : Database} {k host next : Nat} {status state : String} {rt : Runtime}

theorem Fades.refl (db : Database) : Fades db db :=
  ⟨fun _ rt h => ⟨rt, h, fun hu => hu⟩, fun _ i h => ⟨i, h, .inl rfl⟩, fun _ r h => ⟨r, h, fun ht => ht⟩,
    fun _ o h => ⟨o, h, fun hr => hr⟩, fun _ h => h⟩

theorem Fades.trans (h : Fades db db') (h' : Fades db' db'') : Fades db db'' where
  runtime id rt hrt := by
    obtain ⟨rt', hrt', hst⟩ := h.runtime id rt hrt
    obtain ⟨rt'', hrt'', hs'⟩ := h'.runtime id rt' hrt'
    exact ⟨rt'', hrt'', fun hu => hs' (hst hu)⟩
  invocation id i hi := by
    obtain ⟨i', hi', hst⟩ := h.invocation id i hi
    obtain ⟨i'', hi'', hs'⟩ := h'.invocation id i' hi'
    refine ⟨i'', hi'', ?_⟩
    rcases hs' with hs | he
    · rw [hs]
      exact hst
    · exact .inr he
  run id r hr := by
    obtain ⟨r', hr', hst⟩ := h.run id r hr
    obtain ⟨r'', hr'', hs'⟩ := h'.run id r' hr'
    exact ⟨r'', hr'', fun ht => hs' (hst ht)⟩
  operation id o ho := by
    obtain ⟨o', ho', hst⟩ := h.operation id o ho
    obtain ⟨o'', ho'', hs'⟩ := h'.operation id o' ho'
    exact ⟨o'', ho'', fun hr => hs' (hst hr)⟩
  absent id hn := h'.absent id (h.absent id hn)

theorem Fades.wanes (h : Fades db db') : Wanes db db' where
  runtime := h.runtime
  invocation id i hi := by
    obtain ⟨i', hi', hst⟩ := h.invocation id i hi
    refine ⟨i', hi', fun ht => ?_⟩
    rcases hst with hs | he
    · rw [hs]
      unfold endedState
      rw [ht]
      rfl
    · exact he
  run := h.run
  operation := h.operation
  hosted id rt hn hrt := by
    rw [h.absent id hn] at hrt
    cases hrt

theorem Wanes.refl (db : Database) : Wanes db db := (Fades.refl db).wanes

theorem find_setRuntimeStatus_none {id : Nat} (h : db.runtimes.find id = none) :
    (db.setRuntimeStatus k status).runtimes.find id = none :=
  find_amend_none (f := fun rt : Runtime => { rt with status := status }) (fun _ => rfl) h

theorem fades_updateRuntime {f : Runtime → Runtime} {hf : ∀ rt, (f rt).runtimeId = rt.runtimeId}
    (hstatus : ∀ rt, unavailable rt.status = true → unavailable (f rt).status = true) : Fades db (db.updateRuntime k f hf) :=
  { Fades.refl db with
    runtime := fun id rt h => by
      obtain ⟨rt', hrt', hs⟩ := find_amend_some (j := k) (p := fun _ => true) hf h
      refine ⟨rt', hrt', fun hu => ?_⟩
      rcases hs with rfl | ⟨rfl, -⟩
      · exact hu
      · exact hstatus rt hu
    absent := fun id hn => find_amend_none hf hn }

theorem fades_setRuntimeStatus (h : unavailable status = true) : Fades db (db.setRuntimeStatus k status) :=
  fades_updateRuntime fun _ _ => h

theorem fades_endInvocation (h : terminalInvocationState state = true) : Fades db (db.endInvocation k state) :=
  { Fades.refl db with
    invocation := fun id i hi => by
      obtain ⟨i', hi', hs⟩ := find_amend_some (j := k) (p := fun i => !terminalInvocationState i.state)
        (f := fun i : Invocation => { i with state := state }) (fun _ => rfl) hi
      refine ⟨i', hi', ?_⟩
      rcases hs with rfl | ⟨rfl, -⟩
      · exact .inl rfl
      · refine .inr ?_
        unfold endedState
        rw [show terminalInvocationState state = true from h]
        rfl }

theorem fades_stopInvocation : Fades db (db.setInvocationState k "stopping") :=
  { Fades.refl db with
    invocation := fun id i hi => by
      obtain ⟨i', hi', hs⟩ := find_amend_some (j := k) (p := fun _ => true)
        (f := fun i : Invocation => { i with state := "stopping" }) (fun _ => rfl) hi
      refine ⟨i', hi', ?_⟩
      rcases hs with rfl | ⟨rfl, -⟩
      · exact .inl rfl
      · exact .inr (by decide : endedState "stopping" = true) }

theorem fades_failRun : Fades db (db.failRun k) :=
  { Fades.refl db with
    run := fun id r hr => by
      obtain ⟨r', hr', hs⟩ := find_amend_some (j := k) (p := fun _ => true)
        (f := fun r : Run => { r with status := "failed" }) (fun _ => rfl) hr
      refine ⟨r', hr', fun ht => ?_⟩
      rcases hs with rfl | ⟨rfl, -⟩
      · exact ht
      · exact (by decide : terminalRunStatus "failed" = true) }

theorem fades_setOperation {f : Operation → Operation} {hf : ∀ o, (f o).operationId = o.operationId}
    (hrec : ∀ o, o.recorded = true → (f o).recorded = true) : Fades db (db.setOperation k f hf) :=
  { Fades.refl db with
    operation := fun id o ho => by
      obtain ⟨o', ho', hs⟩ := find_amend_some (j := k) (p := fun _ => true) hf ho
      refine ⟨o', ho', fun hr => ?_⟩
      rcases hs with rfl | ⟨rfl, -⟩
      · exact hr
      · exact hrec o hr }

theorem fades_failActiveRun : Fades db (db.failActiveRun rt) := by
  unfold Database.failActiveRun
  cases rt.activeRun with
  | none => exact .refl db
  | some run =>
    have hk : Fades db (db.updateRuntime rt.runtimeId (fun rt => { rt with activeRun := none }) fun _ => rfl) :=
      fades_updateRuntime fun _ h => h
    exact hk.trans fades_failRun

theorem fades_finalize : Fades db (db.finalize rt) :=
  fades_failActiveRun.trans (fades_setRuntimeStatus (by decide))

theorem fades_settleDisposed : Fades db (db.settleDisposed rt) := by
  unfold Database.settleDisposed
  cases rt.activeInvocation with
  | none => exact .refl db
  | some invocation => exact (fades_endInvocation (by decide)).trans (fades_updateRuntime fun _ h => h)

theorem fades_settle (h : terminalInvocationState state = true) : Fades db (db.settle rt state) := by
  unfold Database.settle
  cases rt.activeInvocation with
  | none => exact fades_failActiveRun
  | some invocation => exact (fades_endInvocation h).trans fades_failActiveRun

theorem fades_condemn (hstatus : unavailable status = true) (hst : terminalInvocationState state = true) :
    Fades db (db.condemn rt status state) :=
  (fades_settle hst).trans (fades_setRuntimeStatus hstatus)

theorem fades_close (hrt : db.runtimes.find k = some rt) (h : unavailable rt.status = false) : Fades db (db.close rt) := by
  have hid := (find_mem hrt).2
  have hst {db : Database} (hs : db.runtimes.find k = some rt) : Fades db (db.setRuntimeStatus rt.runtimeId "stopping") :=
    { Fades.refl db with
      runtime := fun id a ha => by
        obtain ⟨a', ha', heq⟩ := find_amend_some (j := rt.runtimeId) (p := fun _ => true)
          (f := fun a : Runtime => { a with status := "stopping" }) (fun _ => rfl) ha
        refine ⟨a', ha', fun hu => ?_⟩
        rcases heq with rfl | ⟨rfl, rfl, -⟩
        · exact hu
        · rw [hid, hs] at ha
          cases ha
          rw [h] at hu
          cases hu
      absent := fun id hn => find_setRuntimeStatus_none hn }
  unfold Database.close
  cases rt.activeInvocation with
  | none => exact hst hrt
  | some invocation => exact fades_stopInvocation.trans (hst hrt)

theorem fades_prepareBroker : Fades db (db.prepareBroker k) :=
  { Fades.refl db with
    operation := fun _ o ho => ⟨o, find_add_of_some ho, fun hr => hr⟩ }

theorem fades_markStartOutcome {outcome : String} (h : outcome ∈ ["rejected", "uncertain"]) :
    Fades db (db.markStartOutcome k outcome) :=
  fades_setOperation fun o _ => by
    unfold Operation.recorded
    rcases List.mem_cons.mp h with rfl | h
    · simp
    · obtain rfl := List.mem_singleton.mp h
      simp

theorem fades_rotate {key : String} : Fades db (db.rotate host next key) := { Fades.refl db with }

theorem wanes_startBrokerGraph {run : Bool} (h : db.startBrokerGraph k host run = some db') : Wanes db db' := by
  unfold Database.startBrokerGraph at h
  split at h
  · rename_i hg
    rw [Bool.and_eq_true, beq_iff_eq] at hg
    obtain ⟨hp, hl⟩ := hg
    obtain rfl := Option.some.inj h
    refine ⟨fun id rt hrt => ⟨rt, find_add_of_some hrt, fun hu => hu⟩, fun id i hi => ⟨i, find_add_of_some hi, fun ht => ?_⟩,
      fun id r hr => ?_, fun id o ho => ?_, fun id rt hn hrt => ?_⟩
    · unfold endedState
      rw [ht]
      rfl
    · cases run with
      | false => exact ⟨r, hr, fun ht => ht⟩
      | true => exact ⟨r, find_add_of_some hr, fun ht => ht⟩
    · obtain ⟨o', ho', hs⟩ := find_amend_some (j := k) (p := fun _ => true)
        (f := fun o : Operation => { o with status := "starting" }) (fun _ => rfl) ho
      refine ⟨o', ho', fun hr => ?_⟩
      rcases hs with rfl | ⟨rfl, rfl, -⟩
      · exact hr
      · rw [ho] at hp
        unfold Operation.recorded at hr ⊢
        rw [show o.status = "prepared" from Option.some.inj hp] at hr
        simpa using hr
    · obtain ⟨hm, hid⟩ := find_mem hrt
      rcases mem_add.mp hm with hm | ⟨rfl, -⟩
      · rw [find_eq_none] at hn
        exact absurd (hid ▸ List.mem_map_of_mem hm) hn
      · exact hl
  · cases h

/-- Finishing a start revives nothing where its runtime is not unavailable, and its invocation not terminal or seen
ended by the snapshot. -/
theorem wanes_finishBrokerStart {snapshot : String}
    (hrun : ∀ rt, db.runtimes.find k = some rt → unavailable rt.status = false)
    (hinv : ∀ i, db.invocations.find k = some i → terminalInvocationState i.state = true → endedState snapshot = true) :
    Wanes db (db.finishBrokerStart k snapshot) where
  runtime id rt hrt := by
    obtain ⟨rt', hrt', hs⟩ := find_amend_some (j := k) (p := fun _ => true)
      (f := fun rt : Runtime => { rt with status := if snapshot = "running" then "busy" else "ready" }) (fun _ => rfl) hrt
    refine ⟨rt', hrt', fun hu => ?_⟩
    rcases hs with rfl | ⟨rfl, rfl, -⟩
    · exact hu
    · rw [hrun rt hrt] at hu
      cases hu
  invocation id i hi := by
    obtain ⟨i', hi', hs⟩ := find_amend_some (j := k) (p := fun _ => true)
      (f := fun i : Invocation => { i with state := snapshot }) (fun _ => rfl) hi
    refine ⟨i', hi', fun ht => ?_⟩
    rcases hs with rfl | ⟨rfl, rfl, -⟩
    · unfold endedState
      rw [ht]
      rfl
    · exact hinv i hi ht
  run id r hr := ⟨r, hr, fun ht => ht⟩
  operation id o ho := by
    obtain ⟨o', ho', hs⟩ := find_amend_some (j := k) (p := fun _ => true)
      (f := fun o : Operation => { o with status := "completed" }) (fun _ => rfl) ho
    refine ⟨o', ho', fun hr => ?_⟩
    rcases hs with rfl | ⟨rfl, -⟩
    · exact hr
    · rfl
  hosted id rt hn hrt := by
    rw [show (db.finishBrokerStart k snapshot).runtimes.find id = none from find_setRuntimeStatus_none hn] at hrt
    cases hrt

end HrcRuntime.Births
