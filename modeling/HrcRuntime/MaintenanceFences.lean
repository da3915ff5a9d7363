import HrcRuntime.Maintenance
import HrcRuntime.Schedule

namespace HrcRuntime.Maintenance

open Keyed

theorem orElse_clear {j next : Judgement} : j.orElse next = .clear ↔ j = .clear ∧ next = .clear := by
  cases j <;> simp [Judgement.orElse]

theorem refuse_clear {c : Bool} {reason : String} : refuse c reason = .clear ↔ c = false := by
  cases c <;> simp [refuse]

structure SameJudged (r r' : Runtime) : Prop where
  runtimeId : r.runtimeId = r'.runtimeId
  transport : r.transport = r'.transport
  status : r.status = r'.status
  statusChangedAt : r.statusChangedAt = r'.statusChangedAt
  tmuxJson : r.tmuxJson = r'.tmuxJson
  activeRunId : r.activeRunId = r'.activeRunId
  controllerKind : r.controllerKind = r'.controllerKind
  activeInvocationId : r.activeInvocationId = r'.activeInvocationId
  runtimeStateJson : r.runtimeStateJson = r'.runtimeStateJson

def judged (r : Runtime) : Runtime :=
  { r with hostSessionId := "", scopeRef := "", lastActivityAt := none, activeOperationId := none, createdAt := "", updatedAt := "" }

theorem SameJudged.of_eq {r r' : Runtime} (h : judged r = judged r') : SameJudged r r' := by
  cases r
  cases r'
  simp only [judged, Runtime.mk.injEq] at h
  obtain ⟨h₁, -, -, h₂, h₃, h₄, h₅, h₆, -, h₇, -, h₈, h₉, -, -⟩ := h
  exact ⟨h₁, h₂, h₃, h₄, h₅, h₆, h₇, h₈, h₉⟩

section Judging

variable {v v' : View} {db : Database} {facts : Facts} {clock clock' : Int} {answer : Answer}

theorem SameJudged.asks (h : SameJudged v.row v'.row) (hst : v.state = v'.state) : v.asks = v'.asks := by
  unfold View.asks View.harnessBroker View.socketPath View.paneId
  rw [h.transport, h.tmuxJson, h.controllerKind, hst]

theorem SameJudged.liveness (h : SameJudged v.row v'.row) (hst : v.state = v'.state) :
    v.liveness facts answer = v'.liveness facts answer := by
  unfold View.liveness View.externalOwner
  rw [h.asks hst, hst, h.activeRunId]

theorem SameJudged.maintenanceFacts (h : SameJudged v.row v'.row) : db.maintenanceFacts v = db.maintenanceFacts v' := by
  unfold Database.maintenanceFacts
  rw [h.runtimeId, h.activeInvocationId]

variable [Native]

def View.Read (v : View) : Prop := read v.row = some v

variable {r : Runtime}

theorem read_row (h : read r = some v) : v.row = r := by
  unfold read at h
  split at h
  · cases h
    rfl
  · obtain ⟨value, -, rfl⟩ := Option.map_eq_some_iff.mp h
    rfl

theorem View.Read.of_read (h : read r = some v) : v.Read := by
  unfold View.Read
  rw [read_row h]
  exact h

theorem SameJudged.read (h : SameJudged r v.row) (hv : v.Read) :
    Maintenance.read r = some ⟨r, v.state⟩ := by
  unfold View.Read Maintenance.read at hv
  unfold Maintenance.read
  rw [h.runtimeStateJson]
  cases ht : v.row.runtimeStateJson with
  | none =>
    rw [ht] at hv
    have hst : none = v.state := congrArg View.state (Option.some.inj hv)
    rw [← hst]
  | some text =>
    rw [ht] at hv
    obtain ⟨value, hval, hvw⟩ := Option.map_eq_some_iff.mp hv
    refine Option.map_eq_some_iff.mpr ⟨value, hval, ?_⟩
    exact congrArg (fun state => (⟨r, state⟩ : View)) (congrArg View.state hvw)

theorem held_later (h : v.held facts clock = false) (hclk : clock ≤ clock') : v.held facts clock' = false := by
  have hyn : v.young clock' = true → v.young clock = true := by
    unfold View.young
    simp only [Bool.and_eq_true, Bool.not_eq_true', Option.any_eq_false, decide_eq_false_iff_not]
    refine fun h => ⟨h.1, fun changed hc hlt => h.2 changed hc ?_⟩
    omega
  unfold View.held at h ⊢
  cases hy : v.young clock' with
  | false =>
    rw [Bool.and_eq_false_iff] at h ⊢
    exact h.imp id fun h => by
      rw [Bool.or_eq_false_iff] at h
      rw [Bool.false_or]
      exact h.2
  | true =>
    rw [hyn hy] at h
    exact h

theorem SameJudged.held (h : SameJudged v.row v'.row) (hst : v.state = v'.state) :
    v.held facts clock = v'.held facts clock := by
  unfold View.held View.young View.harnessBroker View.boundRelease View.ledger
  rw [h.status, h.statusChangedAt, h.controllerKind, hst]

end Judging

section Rows

variable {db : Database} {v : View} {id now later runtime : String}

theorem find_row {r : Runtime} (h : r ∈ db.runtimes.rows) : db.runtimes.find r.runtimeId = some r := find_of_mem h

theorem settleEntry_runtimes (now : String) (db : Database) (e : Entry) : (settleEntry now db e).runtimes = db.runtimes := rfl

theorem foldl_settle_runtimes (entries : List Entry) (now : String) (db : Database) :
    (entries.foldl (settleEntry now) db).runtimes = db.runtimes := by
  induction entries generalizing db with
  | nil => rfl
  | cons e entries ih => exact (ih (settleEntry now db e)).trans (settleEntry_runtimes now db e)

theorem settleAbsorbed_runtimes (onlyTerminal : Bool) : (settleAbsorbed db id onlyTerminal now).runtimes = db.runtimes :=
  foldl_settle_runtimes _ now db

theorem prune_runtimes : (prune db id now).runtimes = db.runtimes.erase fun r => r.runtimeId == id :=
  congrArg (·.erase fun r => r.runtimeId == id) (settleAbsorbed_runtimes true)

theorem dispose_runtimes : (disposeRetainedRuntime db id now).runtimes = db.runtimes.erase fun r => r.runtimeId == id :=
  prune_runtimes

theorem settleBroker_runtimes : (settleBroker db v now).runtimes = db.runtimes := by
  unfold settleBroker
  split
  · cases v.row.activeInvocationId with
    | none => exact settleAbsorbed_runtimes false
    | some id => exact settleAbsorbed_runtimes false
  · rfl

theorem find_erase_id {t : Store Runtime (·.runtimeId)} (k : String) :
    (t.erase fun r => r.runtimeId == id).find k = if k = id then none else t.find k := by
  rw [find_erase]
  split
  · rename_i h
    subst h
    refine Option.filter_eq_none_iff.mpr fun r hr => ?_
    simp [(find_mem hr).2]
  · rename_i h
    cases hf : t.find k with
    | none => rfl
    | some r =>
      refine Option.filter_eq_some_iff.mpr ⟨rfl, ?_⟩
      simp [(find_mem hf).2, h]

section Update

variable {f : Runtime → Runtime} {hid : ∀ r, (f r).runtimeId = r.runtimeId}
  {hhost : ∀ r, (f r).hostSessionId = r.hostSessionId}

theorem find_update_of_ne {k : String} (h : k ≠ id) : (updateRuntime db id f hid hhost).runtimes.find k = db.runtimes.find k :=
  find_amend_of_ne hid h

theorem find_update_self : (updateRuntime db id f hid hhost).runtimes.find id = (db.runtimes.find id).map f :=
  find_amend_self hid

end Update

variable [Native]

theorem age_runtimes (db : Database) (v : View) (now later : String) (session : Session) (drop : Bool) (reason k : String) :
    (k ≠ v.row.runtimeId → (age db v session drop reason now later).runtimes.find k = db.runtimes.find k) ∧
      ((age db v session drop reason now later).runtimes.find v.row.runtimeId).map (·.status)
        = (db.runtimes.find v.row.runtimeId).map fun _ => Status.stale := by
  have hd (marked : Database) : (if drop then dropContinuation marked v.row.hostSessionId now else marked).runtimes
      = marked.runtimes := by
    split <;> rfl
  have hbr (marked : Database) :
      (settleBroker (if drop then dropContinuation marked v.row.hostSessionId now else marked) v later).runtimes
        = marked.runtimes := settleBroker_runtimes.trans (hd marked)
  unfold age
  dsimp only
  constructor
  · intro hk
    rw [find_update_of_ne hk, hbr, find_update_of_ne hk]
  · rw [find_update_self, hbr, find_update_self]
    cases db.runtimes.find v.row.runtimeId <;> rfl

end Rows

end HrcRuntime.Maintenance
