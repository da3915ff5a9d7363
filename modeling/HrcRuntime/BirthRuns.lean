import HrcRuntime.BirthWrites

namespace HrcRuntime.Births

open HrcRuntime.Keyed HrcRuntime.Schedule

structure Kept (s : State) : Prop where
  exclusive : ∀ t ∈ s.tasks.rows, ∀ u ∈ s.tasks.rows, t.key = u.key → t.phase.lock.isSome = true →
    u.phase.lock.isSome = true → t.id = u.id
  outcome : ∀ t ∈ s.tasks.rows, ∀ birth, t.phase = .ended (some birth) true →
    ∃ o, s.db.operations.find birth = some o ∧ o.recorded = true

/-- A start is finished only over a runtime that is still available and an invocation that is not terminal, or that the
snapshot saw ended; the snapshot and the finish do not fail, and no birth is dropped before its finish once its start
was answered; a rejection is recorded. -/
def allowed (s : State) (a : Action) : Bool :=
  match a with
  | .finish id ok =>
    match (s.tasks.find id).map Task.phase with
    | some (.snapped _ birth state) =>
      ok && !(s.db.runtimes.find birth).any (fun rt => unavailable rt.status) &&
        !(s.db.invocations.find birth).any fun i => terminalInvocationState i.state && !endedState state
    | _ => true
  | .snapshot id answer =>
    match (s.tasks.find id).map Task.phase with
    | some (.answered _ _) => answer.isSome
    | _ => true
  | .send id reply recorded =>
    match (s.tasks.find id).map Task.phase with
    | some (.committed _ _) => reply != .rejected || recorded
    | _ => true
  | .drop id =>
    match (s.tasks.find id).map Task.phase with
    | some (.answered _ _) | some (.snapped _ _ _) => false
    | _ => true
  | _ => true

def Phase.Stands (db : Database) : Phase → Prop
  | .prepared _ birth | .launched _ birth | .committed _ birth | .answered _ birth | .snapped _ birth _ =>
    ∃ o, db.operations.find birth = some o
  | .finished _ birth | .ended (some birth) true => ∃ o, db.operations.find birth = some o ∧ o.recorded = true
  | .arriving | .queued _ | .seated _ | .preparing _ | .ended none _ | .ended (some _) false => True

structure Inv (s : State) : Prop where
  gates : ∀ t ∈ s.tasks.rows, ∀ gate, t.phase.handle = some gate → s.gates.find t.key = some ⟨t.key, gate⟩
  exclusive : ∀ t ∈ s.tasks.rows, ∀ u ∈ s.tasks.rows, ∀ gate, t.phase.lock = some gate → u.phase.lock = some gate → t.id = u.id
  stands : ∀ t ∈ s.tasks.rows, t.phase.Stands s.db
  operations : ∀ o ∈ s.db.operations.rows, o.operationId < s.next

variable {s : State} {t : Task} {id : Nat} {p : Phase} {db db' : Database}

theorem mem_set {a : Task} : a ∈ (s.set id p).tasks.rows ↔
    ∃ t ∈ s.tasks.rows, (if t.id = id then { t with phase := p } else t) = a := by
  unfold State.set
  rw [mem_amend]
  simp

variable {gate : Nat}

theorem Phase.handle_of_lock (h : p.lock = some gate) : p.handle = some gate := by
  cases p <;> first | exact h | cases h

theorem Inv.kept (h : Inv s) : Kept s where
  exclusive t ht u hu hk hlt hlu := by
    obtain ⟨gate, hg⟩ := Option.isSome_iff_exists.mp hlt
    obtain ⟨other, hoth⟩ := Option.isSome_iff_exists.mp hlu
    have hs := h.gates t ht gate (Phase.handle_of_lock hg)
    rw [hk, h.gates u hu other (Phase.handle_of_lock hoth)] at hs
    cases hs
    exact h.exclusive t ht u hu gate hg hoth
  outcome t ht birth hp := by
    have hstd := h.stands t ht
    rw [hp] at hstd
    exact hstd

theorem Phase.Stands.mono (h : p.Stands db) (hw : Wanes db db') : p.Stands db' := by
  have hf {birth : Nat} : (∃ o, db.operations.find birth = some o) → ∃ o, db'.operations.find birth = some o := by
    rintro ⟨o, ho⟩
    obtain ⟨o', ho', -⟩ := hw.operation birth o ho
    exact ⟨o', ho'⟩
  have hrec {birth : Nat} : (∃ o, db.operations.find birth = some o ∧ o.recorded = true) →
      ∃ o, db'.operations.find birth = some o ∧ o.recorded = true := by
    rintro ⟨o, ho, hr⟩
    obtain ⟨o', ho', hs⟩ := hw.operation birth o ho
    exact ⟨o', ho', hs hr⟩
  rcases p with _ | _ | _ | _ | _ | _ | _ | _ | _ | _ | ⟨birth | birth, answered | answered⟩
  all_goals first | trivial | exact hf h | exact hrec h

theorem Inv.writes (h : Inv s) (hw : Wanes s.db db)
    (hop : ∀ o ∈ db.operations.rows, o.operationId < s.next) : Inv { s with db := db } :=
  ⟨h.gates, h.exclusive, fun t ht => (h.stands t ht).mono hw, hop⟩

/-- One task moves on. -/
theorem Inv.put (h : Inv s) {next : Nat} (ht : t ∈ s.tasks.rows) (hw : Wanes s.db db)
    (hh : ∀ gate, p.handle = some gate → s.gates.find t.key = some ⟨t.key, gate⟩)
    (hl : ∀ gate, p.lock = some gate → t.phase.lock = some gate ∨ s.locked gate = false) (hown : p.Stands db)
    (hop : ∀ o ∈ db.operations.rows, o.operationId < next) :
    Inv (State.set ⟨db, s.gates, s.tasks, next⟩ t.id p) := by
  have hr (a : Task) (ha : a ∈ s.tasks.rows) (hid : a.id = t.id) : a = t :=
    List.inj_on_of_nodup_map s.tasks.nodup ha ht hid
  have hho (a : Task) (ha : a ∈ s.tasks.rows) (hid : a.id ≠ t.id) (gate : Nat) (hp : p.lock = some gate) :
      a.phase.lock ≠ some gate := fun hhl => by
    rcases hl gate hp with hm | hf
    · exact hid (h.exclusive a ha t ht gate hhl hm)
    · refine absurd ?_ (Bool.eq_false_iff.mp hf)
      exact List.any_eq_true.mpr ⟨a, ha, by rw [hhl]; exact beq_self_eq_true _⟩
  refine ⟨?_, ?_, ?_, hop⟩
  · intro _ hma gate hg
    obtain ⟨a, ha, rfl⟩ := mem_set.mp hma
    by_cases hid : a.id = t.id
    · rw [if_pos hid] at hg ⊢
      rw [hr a ha hid]
      exact hh gate hg
    · rw [if_neg hid] at hg ⊢
      exact h.gates a ha gate hg
  · intro _ hma _ hmb gate hla hlb
    obtain ⟨a, ha, rfl⟩ := mem_set.mp hma
    obtain ⟨b, hb, rfl⟩ := mem_set.mp hmb
    by_cases hia : a.id = t.id <;> by_cases hib : b.id = t.id
    · rw [if_pos hia, if_pos hib]
      exact hia.trans hib.symm
    · rw [if_pos hia] at hla
      rw [if_neg hib] at hlb
      exact absurd hlb (hho b hb hib gate hla)
    · rw [if_neg hia] at hla
      rw [if_pos hib] at hlb
      exact absurd hla (hho a ha hia gate hlb)
    · rw [if_neg hia] at hla ⊢
      rw [if_neg hib] at hlb ⊢
      exact h.exclusive a ha b hb gate hla hlb
  · intro _ hma
    obtain ⟨a, ha, rfl⟩ := mem_set.mp hma
    by_cases hid : a.id = t.id
    · rw [if_pos hid]
      exact hown
    · rw [if_neg hid]
      exact (h.stands a ha).mono hw

theorem Inv.moves (h : Inv s) {next : Nat} (ht : t ∈ s.tasks.rows) (hw : Wanes s.db db)
    (hh : p.handle = none ∨ p.handle = t.phase.handle) (hl : p.lock = none ∨ p.lock = t.phase.lock) (hown : p.Stands db)
    (hop : ∀ o ∈ db.operations.rows, o.operationId < next) :
    Inv (State.set ⟨db, s.gates, s.tasks, next⟩ t.id p) := by
  refine h.put ht hw (fun gate hg => ?_) (fun gate hg => .inl ?_) hown hop
  · rcases hh with hn | hs
    · rw [hn] at hg
      cases hg
    · exact h.gates t ht gate (hs ▸ hg)
  · rcases hl with hn | hs
    · rw [hn] at hg
      cases hg
    · exact hs ▸ hg

theorem find_next (h : Inv s) : s.db.operations.find s.next = none := by
  rcases hf : s.db.operations.find s.next with _ | o
  · rfl
  · obtain ⟨hm, hid⟩ := find_mem hf
    exact absurd (h.operations o hm) (by rw [hid]; exact Nat.lt_irrefl _)

theorem operations_setOperation {k next : Nat} {f : Operation → Operation} (hf : ∀ o, (f o).operationId = o.operationId)
    (h : ∀ o ∈ db.operations.rows, o.operationId < next) :
    ∀ o ∈ (db.setOperation k f hf).operations.rows, o.operationId < next := fun o ho => by
  obtain ⟨a, ha, rfl⟩ := (mem_amend hf).mp ho
  split
  · rw [hf]
    exact h a ha
  · exact h a ha

theorem handled_of_mem (ht : t ∈ s.tasks.rows) (h : t.phase.handle = some gate) : s.handled gate = true :=
  List.any_eq_true.mpr ⟨t, ht, by rw [h]; exact beq_self_eq_true _⟩

theorem Inv.entered (h : Inv s) (ht : t ∈ s.tasks.rows) : Inv (s.enter t) := by
  have hk (a : Task) (ha : a ∈ s.tasks.rows) (gate : Nat) (hg : a.phase.handle = some gate) :
      (s.gates.erase fun g => !s.handled g.gate).find a.key = some ⟨a.key, gate⟩ := by
    rw [find_erase, h.gates a ha gate hg]
    simp [Option.filter, handled_of_mem ha hg]
  unfold State.enter
  dsimp only
  rcases hf : (s.gates.erase fun g => !s.handled g.gate).find t.key with _ | g
  · dsimp only
    have hgt : Inv { s with gates := (s.gates.erase fun g => !s.handled g.gate).add ⟨t.key, s.next⟩, next := s.next + 1 } :=
      ⟨fun a ha gate hg => find_add_of_some (hk a ha gate hg), h.exclusive, h.stands,
        fun o ho => Nat.lt_succ_of_lt (h.operations o ho)⟩
    refine hgt.put ht (Wanes.refl _) (fun gate hg => ?_) (fun gate hg => by cases hg) trivial hgt.operations
    cases hg
    exact find_add_self (r := (⟨t.key, s.next⟩ : Gate)) hf
  · dsimp only
    have hgt : Inv { s with gates := s.gates.erase fun g => !s.handled g.gate } :=
      ⟨hk, h.exclusive, h.stands, h.operations⟩
    refine hgt.put ht (Wanes.refl _) (fun gate hg => ?_) (fun gate hg => by cases hg) trivial hgt.operations
    cases hg
    have hkey := (find_mem hf).2
    rw [show (⟨t.key, g.gate⟩ : Gate) = g by rw [← hkey]]
    exact hf

/-! ### The steps of a task -/

structure Steps (s s' : State) : Prop where
  inv : Inv s'
  wanes : Wanes s.db s'.db

theorem Inv.same (h : Inv s) : Steps s s := ⟨h, .refl _⟩

theorem Inv.turn (h : Inv s) (ht : t ∈ s.tasks.rows) (hh : p.handle = none ∨ p.handle = t.phase.handle)
    (hl : p.lock = none ∨ p.lock = t.phase.lock) (hown : p.Stands s.db) : Steps s (s.set t.id p) :=
  ⟨h.moves ht (.refl _) hh hl hown h.operations, .refl _⟩

theorem Inv.ends (h : Inv s) (ht : t ∈ s.tasks.rows) {birth : Option Nat} : Steps s (s.set t.id (.ended birth false)) :=
  h.turn ht (.inl rfl) (.inl rfl) (by cases birth <;> trivial)

theorem Inv.phase (h : Inv s) (ht : t ∈ s.tasks.rows) (hp : t.phase = p) : p.Stands s.db := hp ▸ h.stands t ht

theorem Inv.acquire (h : Inv s) (ht : t ∈ s.tasks.rows) (hp : t.phase = .queued gate)
    (hf : s.locked gate = false) : Steps s (s.set t.id (.seated gate)) := by
  refine ⟨h.put ht (.refl _) (fun g hg => ?_) (fun g hg => ?_) trivial h.operations, .refl _⟩
  · cases hg
    exact h.gates t ht gate (by rw [hp]; rfl)
  · cases hg
    exact .inr hf

theorem Inv.prepare (h : Inv s) (ht : t ∈ s.tasks.rows) (hp : t.phase = .preparing gate) :
    Steps s ({ s with db := s.db.prepareBroker s.next, next := s.next + 1 }.set t.id (.prepared gate s.next)) := by
  have hw : Wanes s.db (s.db.prepareBroker s.next) := fades_prepareBroker.wanes
  refine ⟨h.moves ht hw (.inr (by rw [hp]; rfl)) (.inr (by rw [hp]; rfl))
    ⟨_, find_add_self (r := (⟨s.next, "prepared", none⟩ : Operation)) (find_next h)⟩ fun o ho => ?_, hw⟩
  rcases mem_add.mp ho with ho | ⟨rfl, -⟩
  · exact Nat.lt_succ_of_lt (h.operations o ho)
  · exact Nat.lt_succ_self _

theorem Inv.graph (h : Inv s) (ht : t ∈ s.tasks.rows) {birth : Nat} (hp : t.phase = .launched gate birth) {run : Bool}
    (hdb : s.db.startBrokerGraph birth t.host run = some db) : Steps s ({ s with db := db }.set t.id (.committed gate birth)) := by
  have hw := wanes_startBrokerGraph hdb
  obtain ⟨o, ho⟩ := h.phase ht hp
  obtain ⟨o', ho', -⟩ := hw.operation birth o ho
  refine ⟨h.moves ht hw (.inr (by rw [hp]; rfl)) (.inr (by rw [hp]; rfl)) ⟨o', ho'⟩ fun a ha => ?_, hw⟩
  unfold Database.startBrokerGraph at hdb
  split at hdb
  · obtain rfl := Option.some.inj hdb
    exact operations_setOperation (f := fun o => { o with status := "starting" }) (fun _ => rfl) h.operations a ha
  · cases hdb

theorem marked (ho : ∃ o, db.operations.find id = some o) {outcome : String} (h : outcome ∈ ["rejected", "uncertain"]) :
    ∃ o, (db.markStartOutcome id outcome).operations.find id = some o ∧ o.recorded = true := by
  obtain ⟨o, ho⟩ := ho
  refine ⟨{ o with startOutcome := some outcome }, ?_, ?_⟩
  · unfold Database.markStartOutcome Database.setOperation
    dsimp only
    rw [find_amend_self, ho]
    rfl
  · unfold Operation.recorded
    rcases List.mem_cons.mp h with rfl | h
    · simp
    · obtain rfl := List.mem_singleton.mp h
      simp

theorem Inv.sends (h : Inv s) (ht : t ∈ s.tasks.rows) {birth : Nat} (hp : t.phase = .committed gate birth) {reply : Reply}
    {recorded : Bool} (hok : reply ≠ .rejected ∨ recorded = true) : Steps s (s.send t gate birth reply recorded) := by
  have hs : ∃ o, s.db.operations.find birth = some o := h.phase ht hp
  have hm {outcome : String} (hout : outcome ∈ ["rejected", "uncertain"]) {p : Phase} (hh : p.handle = none)
      (hl : p.lock = none) (hown : p.Stands (s.db.markStartOutcome birth outcome)) :
      Steps s ({ s with db := s.db.markStartOutcome birth outcome }.set t.id p) :=
    have hw : Wanes s.db (s.db.markStartOutcome birth outcome) := (fades_markStartOutcome hout).wanes
    ⟨h.moves ht hw (.inl hh) (.inl hl) hown (operations_setOperation _ h.operations), hw⟩
  unfold State.send
  cases reply with
  | started => exact h.turn ht (.inr (by rw [hp]; rfl)) (.inr (by rw [hp]; rfl)) hs
  | rejected =>
    obtain rfl := hok.resolve_left fun hne => hne rfl
    exact hm (by simp) rfl rfl (marked hs (by simp))
  | unanswered =>
    cases recorded with
    | false => exact h.ends ht
    | true => exact hm (by simp) rfl rfl trivial

theorem Inv.finishes (h : Inv s) (ht : t ∈ s.tasks.rows) {birth : Nat} {state : String}
    (hp : t.phase = .snapped gate birth state)
    (hrt : ∀ rt, s.db.runtimes.find birth = some rt → unavailable rt.status = false)
    (hi : ∀ i, s.db.invocations.find birth = some i → terminalInvocationState i.state = true →
      endedState state = true) :
    Steps s ({ s with db := s.db.finishBrokerStart birth state }.set t.id (.finished gate birth)) := by
  have hw := wanes_finishBrokerStart hrt hi
  obtain ⟨o, ho⟩ := h.phase ht hp
  refine ⟨h.moves ht hw (.inr (by rw [hp]; rfl)) (.inr (by rw [hp]; rfl)) ⟨{ o with status := "completed" }, ?_, rfl⟩
    (operations_setOperation (f := fun o => { o with status := "completed" }) (fun _ => rfl) h.operations), hw⟩
  have hf := find_amend_self (t := s.db.operations) (k := birth) (p := fun _ => true)
    (f := fun o : Operation => { o with status := "completed" }) fun _ => rfl
  rw [ho] at hf
  exact hf

theorem Inv.fades (h : Inv s) (hf : Fades s.db db) (hop : db.operations = s.db.operations) :
    Steps s { s with db := db } :=
  ⟨h.writes hf.wanes (by rw [hop]; exact h.operations), hf.wanes⟩

theorem Inv.rotates (h : Inv s) (ht : t ∈ s.tasks.rows) :
    Steps s ({ s with db := s.db.rotate t.host s.next t.key, next := s.next + 1 }.set t.id (.ended none false)) :=
  have hw : Wanes s.db (s.db.rotate t.host s.next t.key) := fades_rotate.wanes
  ⟨h.moves ht hw (.inl rfl) (.inl rfl) trivial fun o ho => Nat.lt_succ_of_lt (h.operations o ho), hw⟩

theorem operations_failActiveRun {rt : Runtime} : (db.failActiveRun rt).operations = db.operations := by
  unfold Database.failActiveRun
  cases rt.activeRun <;> rfl

theorem operations_settleDisposed {rt : Runtime} : (db.settleDisposed rt).operations = db.operations := by
  unfold Database.settleDisposed
  cases rt.activeInvocation <;> rfl

theorem operations_settle {rt : Runtime} {state : String} : (db.settle rt state).operations = db.operations := by
  unfold Database.settle
  cases rt.activeInvocation with
  | none => exact operations_failActiveRun
  | some invocation => exact operations_failActiveRun.trans rfl

theorem operations_close {rt : Runtime} : (db.close rt).operations = db.operations := by
  unfold Database.close
  cases rt.activeInvocation <;> rfl

theorem Inv.advance (h : Inv s) (hf : s.tasks.find t.id = some t) {a : Action} (hok : allowed s a = true)
    (hid : ∀ id ok answer reply recorded, a = .finish id ok ∨ a = .snapshot id answer ∨ a = .send id reply recorded ∨
      a = .drop id → id = t.id) : Steps s (s.advance t a) := by
  have ht := (find_mem hf).1
  unfold State.advance
  cases a with
  | enter =>
    dsimp only
    split
    · refine ⟨h.entered ht, ?_⟩
      unfold State.enter
      dsimp only
      split <;> exact .refl _
    · exact h.same
  | acquire =>
    dsimp only
    split
    · rename_i hp
      split
      · exact h.same
      · rename_i hfr
        exact h.acquire ht hp (Bool.eq_false_iff.mpr hfr)
    · exact h.same
  | decide =>
    dsimp only
    split
    · rename_i hp hk
      split
      · exact h.ends ht
      · exact h.turn ht (.inr (by rw [hp]; rfl)) (.inr (by rw [hp]; rfl)) trivial
    · exact h.same
  | prepare id ok =>
    dsimp only
    split
    · rename_i hp
      cases ok with
      | true => exact h.prepare ht hp
      | false => exact h.ends ht
    · exact h.same
  | launch id ok =>
    dsimp only
    split
    · rename_i hp
      have hs := h.phase ht hp
      cases ok with
      | true => exact h.turn ht (.inr (by rw [hp]; rfl)) (.inr (by rw [hp]; rfl)) hs
      | false => exact h.ends ht
    · exact h.same
  | graph =>
    dsimp only
    split
    · rename_i hp
      split
      · rename_i hdb
        exact h.graph ht hp hdb
      · exact h.ends ht
    · exact h.same
  | detach =>
    dsimp only
    split
    · exact h.ends ht
    · exact h.same
  | send id reply recorded =>
    obtain rfl := hid id true none reply recorded (.inr (.inr (.inl rfl)))
    unfold allowed at hok
    dsimp only at hok ⊢
    split
    · rename_i hp
      rw [hf, Option.map_some, hp] at hok
      exact h.sends ht hp (by simpa using hok)
    · exact h.same
  | snapshot id answer =>
    obtain rfl := hid id true answer .started true (.inr (.inl rfl))
    unfold allowed at hok
    dsimp only at hok ⊢
    split
    · rename_i hp
      rw [hf, Option.map_some, hp] at hok
      obtain ⟨state, rfl⟩ := Option.isSome_iff_exists.mp hok
      have hs := h.phase ht hp
      exact h.turn ht (.inr (by rw [hp]; rfl)) (.inr (by rw [hp]; rfl)) hs
    · exact h.same
  | finish id ok =>
    obtain rfl := hid id ok none .started true (.inl rfl)
    unfold allowed at hok
    dsimp only at hok ⊢
    split
    · rename_i hp
      rw [hf, Option.map_some, hp] at hok
      dsimp only at hok
      rw [Bool.and_eq_true, Bool.and_eq_true, Bool.not_eq_true', Bool.not_eq_true'] at hok
      obtain ⟨⟨rfl, hr⟩, hinv⟩ := hok
      refine h.finishes ht hp (fun rt hrt => ?_) fun i hi htr => ?_
      · rw [hrt] at hr
        exact hr
      · rw [hi, Option.any_some, htr] at hinv
        simpa using hinv
    · exact h.same
  | settle =>
    dsimp only
    split
    · rename_i hp
      have hs := h.phase ht hp
      exact h.turn ht (.inl rfl) (.inl rfl) hs
    · exact h.same
  | tear =>
    dsimp only
    split
    · split
      · split
        · exact h.fades fades_finalize operations_failActiveRun
        · exact h.same
      · exact h.same
    · exact h.same
  | rotate =>
    dsimp only
    split
    · split
      · exact h.rotates ht
      · exact h.ends ht
    · exact h.same
  | drop id =>
    obtain rfl := hid id true none .started true (.inr (.inr (.inr rfl)))
    unfold allowed at hok
    dsimp only at hok ⊢
    rw [hf, Option.map_some] at hok
    rcases hp : t.phase with _ | _ | _ | _ | _ | _ | _ | _ | _ | _ | _
    · exact h.ends ht
    · exact h.ends ht
    · exact h.ends ht
    · exact h.ends ht
    · exact h.ends ht
    · exact h.ends ht
    · exact h.ends ht
    · rw [hp] at hok
      cases hok
    · rw [hp] at hok
      cases hok
    · have hs := h.phase ht hp
      exact h.turn ht (.inl rfl) (.inl rfl) hs
    · exact h.same
  | arrive => exact h.same
  | close => exact h.same
  | terminate => exact h.same
  | sweep => exact h.same

theorem Inv.act (h : Inv s) {a : Action} (hok : allowed s a = true)
    (hid : ∀ k ok answer reply recorded, a = .finish k ok ∨ a = .snapshot k answer ∨ a = .send k reply recorded ∨
      a = .drop k → k = id) : Steps s (s.act id a) := by
  unfold State.act
  rcases ht : s.tasks.find id with _ | t
  · exact h.same
  · have htid := (find_mem ht).2
    exact h.advance (by rw [htid]; exact ht) hok fun k ok answer reply recorded hk =>
      (hid k ok answer reply recorded hk).trans htid.symm

theorem Inv.arrives (h : Inv s) : Steps s (step (.arrive t) s) := by
  have hm (a : Task) (ha : a ∈ (step (.arrive t) s).tasks.rows) : a ∈ s.tasks.rows ∨ a.phase = .arriving := by
    rcases mem_add.mp ha with ha | ⟨rfl, -⟩
    · exact .inl ha
    · exact .inr rfl
  refine ⟨⟨fun a ha gate hg => ?_, fun a ha b hb gate hla hlb => ?_, fun a ha => ?_, h.operations⟩, .refl _⟩
  · rcases hm a ha with ha | hp
    · exact h.gates a ha gate hg
    · rw [hp] at hg
      cases hg
  · rcases hm a ha with ha | hp
    · rcases hm b hb with hb | hp
      · exact h.exclusive a ha b hb gate hla hlb
      · rw [hp] at hlb
        cases hlb
    · rw [hp] at hla
      cases hla
  · rcases hm a ha with ha | hp
    · exact h.stands a ha
    · rw [hp]
      trivial

theorem Inv.write (h : Inv s) {f : Database → Runtime → Database}
    (hf : ∀ rt, s.db.runtimes.find id = some rt → Fades s.db (f s.db rt) ∧ (f s.db rt).operations = s.db.operations) :
    Steps s (s.write id f) := by
  unfold State.write
  rcases hrt : s.db.runtimes.find id with _ | rt
  · exact h.same
  · exact h.fades (hf rt hrt).1 (hf rt hrt).2

/-- Every allowed step keeps the invariant and revives nothing. -/
theorem Inv.steps (h : Inv s) {a : Action} (hok : allowed s a = true) : Steps s (step a s) := by
  cases a with
  | arrive t => exact h.arrives
  | close id =>
    unfold step
    refine h.write fun rt hrt => ?_
    split
    · exact ⟨.refl _, rfl⟩
    · rename_i hav
      exact ⟨fades_close hrt (Bool.eq_false_iff.mpr hav), operations_close⟩
  | terminate id tmux =>
    unfold step
    refine h.write fun rt hrt => ?_
    split
    · exact ⟨fades_finalize, operations_failActiveRun⟩
    · exact ⟨fades_finalize.trans fades_settleDisposed, operations_settleDisposed.trans operations_failActiveRun⟩
  | sweep id status state =>
    unfold step
    dsimp only
    split
    · rename_i he
      rw [Bool.and_eq_true] at he
      exact h.write fun rt hrt => ⟨fades_condemn he.1 he.2, operations_settle⟩
    · exact h.same
  | enter id => exact h.act hok fun k _ _ _ _ hk => by simp at hk
  | acquire id => exact h.act hok fun k _ _ _ _ hk => by simp at hk
  | decide id reuse => exact h.act hok fun k _ _ _ _ hk => by simp at hk
  | prepare id ok => exact h.act hok fun k _ _ _ _ hk => by simp at hk
  | launch id ok => exact h.act hok fun k _ _ _ _ hk => by simp at hk
  | graph id => exact h.act hok fun k _ _ _ _ hk => by simp at hk
  | detach id => exact h.act hok fun k _ _ _ _ hk => by simp at hk
  | send id reply recorded => exact h.act hok fun k _ _ _ _ hk => by simp at hk; exact hk.1.symm
  | snapshot id answer => exact h.act hok fun k _ _ _ _ hk => by simp at hk; exact hk.1.symm
  | finish id ok => exact h.act hok fun k _ _ _ _ hk => by simp at hk; exact hk.1.symm
  | settle id => exact h.act hok fun k _ _ _ _ hk => by simp at hk
  | tear id runtimeId => exact h.act hok fun k _ _ _ _ hk => by simp at hk
  | rotate id ok => exact h.act hok fun k _ _ _ _ hk => by simp at hk
  | drop id => exact h.act hok fun k _ _ _ _ hk => by simp at hk; exact hk.symm

theorem Inv.start {next : Nat} (h : ∀ o ∈ db.operations.rows, o.operationId < next) : Inv (State.start db next) :=
  ⟨fun _ ha => absurd ha List.not_mem_nil, fun _ ha => absurd ha List.not_mem_nil, fun _ ha => absurd ha List.not_mem_nil, h⟩

/-- Over every interleaving in which no birth is finished over a runtime or an invocation that has ended, and none fails
or is dropped between the answer to its start and its finish: one birth or rotation at a time per continuity, recorded
outcomes, no start graph on a retired host, and nothing that became unavailable or terminal comes back. -/
theorem births_revive_nothing {next : Nat} (hfresh : ∀ o ∈ db.operations.rows, o.operationId < next) {actions : List Action}
    (hmeets : Meets step (fun s a => allowed s a = true) actions (State.start db next)) :
    Kept (run step actions (State.start db next)) ∧
      ∀ before a after, actions = before ++ a :: after →
        Wanes (run step before (State.start db next)).db (run step (before ++ [a]) (State.start db next)).db := by
  have hkp (s : State) (a : Action) (h : Inv s) (hok : allowed s a = true) : Inv (step a s) := (h.steps hok).inv
  refine ⟨(run_invariant hkp (Inv.start hfresh) hmeets).kept, fun before a after hact => ?_⟩
  exact run_each (P := fun s _ s' => Wanes s.db s'.db) hkp (fun s a h hok => (h.steps hok).wanes)
    (Inv.start hfresh) hmeets hact

namespace Sample

def store : Database where
  sessions := ⟨[⟨0, "agent:cody", true⟩], by decide⟩
  continuities := ⟨[⟨"agent:cody", 0⟩], by decide⟩
  operations := .empty
  runtimes := .empty
  invocations := .empty
  runs := .empty

def birth : Task := ⟨0, .birth true, 0, "agent:cody", .arriving⟩

def observed : List Action :=
  [.arrive birth, .enter 0, .acquire 0, .decide 0 false, .prepare 0 true, .launch 0 true, .graph 0, .send 0 .started true,
    .snapshot 0 (some "ready")]

def killed : List Action := observed ++ [.terminate 2 false]

end Sample

theorem births_revive_nothing_once :
    Kept (run step (Sample.observed ++ [.finish 0 true, .settle 0]) (State.start Sample.store 1)) ∧
      ∀ before a after, Sample.observed ++ [.finish 0 true, .settle 0] = before ++ a :: after →
        Wanes (run step before (State.start Sample.store 1)).db (run step (before ++ [a]) (State.start Sample.store 1)).db :=
  births_revive_nothing (fun _ ho => absurd ho List.not_mem_nil)
    (by decide +kernel : Meets step (fun s a => allowed s a = true) (Sample.observed ++ [.finish 0 true, .settle 0])
      (State.start Sample.store 1))

theorem births_revive_nothing_fails : ¬ ∀ (db : Database) (next : Nat), (∀ o ∈ db.operations.rows, o.operationId < next) →
    ∀ actions : List Action, Kept (run step actions (State.start db next)) ∧
      ∀ before a after, actions = before ++ a :: after →
        Wanes (run step before (State.start db next)).db (run step (before ++ [a]) (State.start db next)).db := by
  intro h
  have hl := (h Sample.store 1 (fun _ ho => absurd ho List.not_mem_nil) (Sample.killed ++ [.finish 0 true])).2
    Sample.killed (.finish 0 true) [] rfl
  have hbef : (run step Sample.killed (State.start Sample.store 1)).db.runtimes.find 2 =
      some ⟨2, 0, "terminated", none, none⟩ := by decide +kernel
  have haft : (run step (Sample.killed ++ [.finish 0 true]) (State.start Sample.store 1)).db.runtimes.find 2 =
      some ⟨2, 0, "ready", none, none⟩ := by decide +kernel
  obtain ⟨rt, hrt, hs⟩ := hl.runtime 2 _ hbef
  rw [haft] at hrt
  obtain rfl := Option.some.inj hrt
  exact absurd (hs (by decide)) (by decide)

end HrcRuntime.Births
