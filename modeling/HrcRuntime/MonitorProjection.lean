import Mathlib.Data.List.Basic

namespace HrcRuntime.MonitorProjection

structure RuntimeState where
  runtimeId : String
  hostSessionId : String
  status : String
  statusChangedAt : Option String := none
  activeTurnId : Option String := none
  deriving DecidableEq

structure SessionState where
  hostSessionId : String
  activeTurnId : Option String := none
  deriving DecidableEq

structure MonitorState where
  sessions : List SessionState
  runtimes : List RuntimeState

/-- `clearedRunId` is the payload's, where it is a text. -/
structure LifecycleEvent where
  eventKind : String
  ts : String
  hostSessionId : String
  runtimeId : Option String := none
  runId : Option String := none
  clearedRunId : Option String := none
  evidenceOrigin : Option String := none

def truthy (text : Option String) : Option String := text.filter (· != "")

def isTurnEnd (eventKind : String) : Bool := ["turn.completed", "turn.finished", "turn.failed"].contains eventKind

def isRuntimeEnd (eventKind : String) : Bool :=
  ["runtime.dead", "runtime.crashed", "runtime.terminated"].contains eventKind

def ends (e : LifecycleEvent) (owner : Option String) : Bool := (truthy e.runId).isNone || owner == e.runId

def settles (e : LifecycleEvent) (owner : Option String) : Bool := e.clearedRunId.isSome && owner == e.clearedRunId

namespace RuntimeState

def setStatus (r : RuntimeState) (status ts : String) : RuntimeState :=
  { r with status, statusChangedAt := if r.status = status then r.statusChangedAt else some ts }

def project (e : LifecycleEvent) (r : RuntimeState) : RuntimeState :=
  if e.eventKind = "turn.started" then { r.setStatus "busy" e.ts with activeTurnId := e.runId }
  else if isTurnEnd e.eventKind then
    if ends e r.activeTurnId then { r.setStatus "idle" e.ts with activeTurnId := none } else r
  else if e.eventKind = "runtime.settled" then
    if settles e r.activeTurnId then { r.setStatus "idle" e.ts with activeTurnId := none } else r
  else if isRuntimeEnd e.eventKind then
    r.setStatus (if e.eventKind = "runtime.crashed" then "crashed" else "dead") e.ts
  else r

def key (r : RuntimeState) : String × String := (r.runtimeId, r.hostSessionId)

end RuntimeState

def SessionState.project (e : LifecycleEvent) (s : SessionState) : SessionState :=
  if e.eventKind = "turn.started" then { s with activeTurnId := e.runId }
  else if isTurnEnd e.eventKind then if ends e s.activeTurnId then { s with activeTurnId := none } else s
  else if e.eventKind = "runtime.settled" then if settles e s.activeTurnId then { s with activeTurnId := none } else s
  else s

def runtimeAt (keys : List (String × String)) (e : LifecycleEvent) : Option Nat :=
  ((truthy e.runtimeId).bind fun id => keys.findIdx? (·.1 == id)).or (keys.findIdx? (·.2 == e.hostSessionId))

def sessionAt (hosts : List String) (e : LifecycleEvent) : Option Nat := hosts.findIdx? (· == e.hostSessionId)

def change {α : Type} (f : α → α) (l : List α) : Option Nat → List α
  | none => l
  | some i => l.modify i f

def applyEvent (state : MonitorState) (e : LifecycleEvent) : MonitorState :=
  if e.evidenceOrigin.isSome then state
  else
    { sessions := change (SessionState.project e) state.sessions (sessionAt (state.sessions.map (·.hostSessionId)) e)
      runtimes := change (RuntimeState.project e) state.runtimes (runtimeAt (state.runtimes.map RuntimeState.key) e) }

def applyLifecycleProjection (state : MonitorState) (events : List LifecycleEvent) : MonitorState :=
  events.foldl applyEvent state

def moves (e : LifecycleEvent) : Bool :=
  e.eventKind == "turn.started" || isTurnEnd e.eventKind || e.eventKind == "runtime.settled" || isRuntimeEnd e.eventKind

def Addressed (state : MonitorState) (e : LifecycleEvent) : Prop :=
  e.evidenceOrigin = none → moves e = true → ∀ id, truthy e.runtimeId = some id →
    (∃ r ∈ state.runtimes, r.runtimeId = id) ∨ ∀ r ∈ state.runtimes, r.hostSessionId ≠ e.hostSessionId

def Concerns (e : LifecycleEvent) (r : RuntimeState) : Prop :=
  truthy e.runtimeId = some r.runtimeId ∨ truthy e.runtimeId = none ∧ e.hostSessionId = r.hostSessionId

def reaches (state : MonitorState) (i : Nat) (e : LifecycleEvent) : Bool :=
  e.evidenceOrigin.isNone && moves e && runtimeAt (state.runtimes.map RuntimeState.key) e == some i

def reachesSession (state : MonitorState) (i : Nat) (e : LifecycleEvent) : Bool :=
  e.evidenceOrigin.isNone && sessionAt (state.sessions.map (·.hostSessionId)) e == some i

def MayClear (e : LifecycleEvent) (owner : String) : Prop :=
  isTurnEnd e.eventKind = true ∧ (truthy e.runId = none ∨ e.runId = some owner) ∨
    e.eventKind = "runtime.settled" ∧ e.clearedRunId = some owner ∨ e.eventKind = "turn.started"

section Project

variable {e : LifecycleEvent}

theorem project_key (e : LifecycleEvent) (r : RuntimeState) : (r.project e).key = r.key := by
  unfold RuntimeState.project
  split_ifs <;> rfl

theorem project_host (e : LifecycleEvent) (s : SessionState) : (s.project e).hostSessionId = s.hostSessionId := by
  unfold SessionState.project
  split_ifs <;> rfl

theorem project_still (h : moves e = false) (r : RuntimeState) : r.project e = r := by
  simp only [moves, Bool.or_eq_false_iff, beq_eq_false_iff_ne] at h
  obtain ⟨⟨⟨hsta, he⟩, hs⟩, hd⟩ := h
  unfold RuntimeState.project
  rw [if_neg hsta, if_neg (by rw [he]; decide), if_neg hs, if_neg (by rw [hd]; decide)]

variable {owner : String}

theorem mayClear_of_ends (hk : isTurnEnd e.eventKind = true) (h : ends e (some owner) = true) :
    MayClear e owner := by
  rcases (Bool.or_eq_true ..).mp h with hn | hs
  · exact .inl ⟨hk, .inl (Option.isNone_iff_eq_none.mp hn)⟩
  · exact .inl ⟨hk, .inr (eq_of_beq hs).symm⟩

theorem mayClear_of_settles (hk : e.eventKind = "runtime.settled")
    (h : settles e (some owner) = true) : MayClear e owner :=
  .inr (.inl ⟨hk, (eq_of_beq ((Bool.and_eq_true ..).mp h).2).symm⟩)

theorem project_clears {r : RuntimeState} (hown : r.activeTurnId = some owner)
    (hc : (r.project e).activeTurnId ≠ some owner) : MayClear e owner := by
  unfold RuntimeState.project at hc
  rw [hown] at hc
  split_ifs at hc with hsta he hen hs hst hd
  · exact .inr (.inr hsta)
  · exact mayClear_of_ends he hen
  · exact absurd hown hc
  · exact mayClear_of_settles hs hst
  · exact absurd hown hc
  · exact absurd hown hc
  · exact absurd hown hc
  · exact absurd hown hc

theorem projectSession_clears {s : SessionState} (hown : s.activeTurnId = some owner)
    (hc : (s.project e).activeTurnId ≠ some owner) : MayClear e owner := by
  unfold SessionState.project at hc
  rw [hown] at hc
  split_ifs at hc with hsta he hen hs hst
  · exact .inr (.inr hsta)
  · exact mayClear_of_ends he hen
  · exact absurd hown hc
  · exact mayClear_of_settles hs hst
  · exact absurd hown hc
  · exact absurd hown hc

end Project

section Change

variable {α β : Type} {f : α → α} {l : List α}

theorem map_change {g : α → β} (h : ∀ a, g (f a) = g a) (at? : Option Nat) : (change f l at?).map g = l.map g := by
  cases at? with
  | none => rfl
  | some i =>
    apply List.ext_getElem?
    intro j
    rw [change, List.getElem?_map, List.getElem?_map, List.getElem?_modify]
    cases l[j]? with
    | none => rfl
    | some a =>
      by_cases hij : i = j
      · simp [hij, h]
      · simp [hij]

theorem getElem?_change {at? : Option Nat} {i : Nat} {a : α} (h : l[i]? = some a) :
    (change f l at?)[i]? = some (if at? = some i then f a else a) := by
  cases at? with
  | none => simpa [change] using h
  | some j =>
    rw [change, List.getElem?_modify, h]
    by_cases hij : j = i <;> simp [hij]

end Change

section Events

variable {state : MonitorState} {e : LifecycleEvent} {i : Nat}

theorem applyEvent_keys : (applyEvent state e).runtimes.map RuntimeState.key = state.runtimes.map RuntimeState.key := by
  unfold applyEvent
  split
  · rfl
  · exact map_change (project_key e) _

theorem applyEvent_hosts :
    (applyEvent state e).sessions.map (·.hostSessionId) = state.sessions.map (·.hostSessionId) := by
  unfold applyEvent
  split
  · rfl
  · exact map_change (project_host e) _

theorem reaches_applyEvent (e' : LifecycleEvent) : reaches (applyEvent state e) i e' = reaches state i e' := by
  rw [reaches, reaches, applyEvent_keys]

theorem reachesSession_applyEvent (e' : LifecycleEvent) :
    reachesSession (applyEvent state e) i e' = reachesSession state i e' := by
  rw [reachesSession, reachesSession, applyEvent_hosts]

variable {r : RuntimeState} {s : SessionState}

theorem applyEvent_runtime (h : state.runtimes[i]? = some r) :
    (applyEvent state e).runtimes[i]? = some (if reaches state i e = true then r.project e else r) := by
  unfold applyEvent
  cases hor : e.evidenceOrigin with
  | some origin => simpa [reaches, hor] using h
  | none =>
    rw [Option.isSome_none, if_neg (by decide)]
    cases hm : moves e with
    | false => simp [getElem?_change h, reaches, hm, project_still hm]
    | true => simp [getElem?_change h, reaches, hm, hor]

theorem applyEvent_session (h : state.sessions[i]? = some s) :
    (applyEvent state e).sessions[i]? = some (if reachesSession state i e = true then s.project e else s) := by
  unfold applyEvent
  cases hor : e.evidenceOrigin with
  | some origin => simpa [reachesSession, hor] using h
  | none =>
    rw [Option.isSome_none, if_neg (by decide)]
    simp [getElem?_change h, reachesSession, hor]

theorem projected_runtime (events : List LifecycleEvent) (h : state.runtimes[i]? = some r) :
    (applyLifecycleProjection state events).runtimes[i]? =
      some ((events.filter (reaches state i)).foldl (fun r e => r.project e) r) := by
  induction events generalizing state r with
  | nil => exact h
  | cons e events ih =>
    have hn := ih (applyEvent_runtime (e := e) h)
    rw [List.filter_congr fun e' _ => reaches_applyEvent e'] at hn
    rw [applyLifecycleProjection, List.foldl_cons]
    refine hn.trans ?_
    by_cases hr : reaches state i e = true
    · rw [if_pos hr, List.filter_cons_of_pos hr, List.foldl_cons]
    · rw [if_neg hr, List.filter_cons_of_neg hr]

theorem projected_session (events : List LifecycleEvent) (h : state.sessions[i]? = some s) :
    (applyLifecycleProjection state events).sessions[i]? =
      some ((events.filter (reachesSession state i)).foldl (fun s e => s.project e) s) := by
  induction events generalizing state s with
  | nil => exact h
  | cons e events ih =>
    have hn := ih (applyEvent_session (e := e) h)
    rw [List.filter_congr fun e' _ => reachesSession_applyEvent e'] at hn
    rw [applyLifecycleProjection, List.foldl_cons]
    refine hn.trans ?_
    by_cases hr : reachesSession state i e = true
    · rw [if_pos hr, List.filter_cons_of_pos hr, List.foldl_cons]
    · rw [if_neg hr, List.filter_cons_of_neg hr]

theorem concerns_of_reaches (had : Addressed state e) (h : state.runtimes[i]? = some r)
    (hr : reaches state i e = true) : e.evidenceOrigin = none ∧ Concerns e r := by
  simp only [reaches, Bool.and_eq_true, Option.isNone_iff_eq_none, beq_iff_eq] at hr
  obtain ⟨⟨hor, hmv⟩, hat⟩ := hr
  refine ⟨hor, ?_⟩
  have hk : (state.runtimes.map RuntimeState.key)[i]? = some r.key := by rw [List.getElem?_map, h]; rfl
  rw [runtimeAt, Option.or_eq_some_iff] at hat
  rcases hat with hn | ⟨hnn, hh⟩
  · obtain ⟨id, hid, hf⟩ := Option.bind_eq_some_iff.mp hn
    obtain ⟨hlt, hm, -⟩ := List.findIdx?_eq_some_iff_getElem.mp hf
    rw [List.getElem?_eq_getElem hlt] at hk
    rw [Option.some.inj hk] at hm
    exact .inl (hid.trans (congrArg some (eq_of_beq hm).symm))
  · obtain ⟨hlt, hm, -⟩ := List.findIdx?_eq_some_iff_getElem.mp hh
    rw [List.getElem?_eq_getElem hlt] at hk
    rw [Option.some.inj hk] at hm
    have hs : r.hostSessionId = e.hostSessionId := eq_of_beq hm
    cases hid : truthy e.runtimeId with
    | none => exact .inr ⟨hid, hs.symm⟩
    | some id =>
      rcases had hor hmv id hid with ⟨listed, hl, rfl⟩ | hfr
      · rw [hid, Option.bind_some, List.findIdx?_eq_none_iff] at hnn
        have hms := hnn listed.key (List.mem_map_of_mem hl)
        simp [RuntimeState.key] at hms
      · exact absurd hs (hfr r (List.mem_of_getElem? h))

theorem host_of_reachesSession (h : state.sessions[i]? = some s)
    (hr : reachesSession state i e = true) : e.evidenceOrigin = none ∧ e.hostSessionId = s.hostSessionId := by
  simp only [reachesSession, Bool.and_eq_true, Option.isNone_iff_eq_none, beq_iff_eq] at hr
  obtain ⟨hor, hat⟩ := hr
  obtain ⟨hlt, hm, -⟩ := List.findIdx?_eq_some_iff_getElem.mp hat
  have hh : (state.sessions.map (·.hostSessionId))[i]? = some s.hostSessionId := by rw [List.getElem?_map, h]; rfl
  rw [List.getElem?_eq_getElem hlt] at hh
  rw [Option.some.inj hh] at hm
  exact ⟨hor, (eq_of_beq hm).symm⟩

end Events

/-- When every moving event that names a runtime names a listed one, a runtime is moved by its own events alone: those
of this node that name it, or no runtime on its host session. A session is moved by the events of its host session, and
an owner is replaced only by a start, or cleared by what ends or settles it. -/
theorem projection_apart (state : MonitorState) (events : List LifecycleEvent)
    (haddressed : ∀ e ∈ events, Addressed state e) :
    (∀ i r, state.runtimes[i]? = some r →
        (applyLifecycleProjection state events).runtimes[i]? =
          some ((events.filter (reaches state i)).foldl (fun r e => r.project e) r) ∧
        ∀ e ∈ events.filter (reaches state i), e.evidenceOrigin = none ∧ Concerns e r) ∧
      (∀ i s, state.sessions[i]? = some s →
        (applyLifecycleProjection state events).sessions[i]? =
          some ((events.filter (reachesSession state i)).foldl (fun s e => s.project e) s) ∧
        ∀ e ∈ events.filter (reachesSession state i), e.evidenceOrigin = none ∧ e.hostSessionId = s.hostSessionId) ∧
      ∀ e ∈ events, ∀ owner,
        (∀ r : RuntimeState, r.activeTurnId = some owner → (r.project e).activeTurnId ≠ some owner → MayClear e owner) ∧
          ∀ s : SessionState, s.activeTurnId = some owner → (s.project e).activeTurnId ≠ some owner →
            MayClear e owner := by
  refine ⟨fun i r hr => ⟨projected_runtime events hr, fun e he => ?_⟩,
    fun i s hs => ⟨projected_session events hs, fun e he => ?_⟩, fun e _ owner => ⟨?_, ?_⟩⟩
  · obtain ⟨hm, hre⟩ := List.mem_filter.mp he
    exact concerns_of_reaches (haddressed e hm) hr hre
  · exact host_of_reachesSession hs (List.mem_filter.mp he).2
  · exact fun r hown hc => project_clears hown hc
  · exact fun s hown hc => projectSession_clears hown hc

namespace Sample

def live : MonitorState :=
  { sessions := [⟨"host", some "run-2"⟩], runtimes := [⟨"rt-2", "host", "busy", none, some "run-2"⟩] }

def lateDeath : LifecycleEvent := { eventKind := "runtime.dead", ts := "t9", hostSessionId := "host", runtimeId := some "rt-1" }

def completed : LifecycleEvent :=
  { eventKind := "turn.completed", ts := "t8", hostSessionId := "host", runtimeId := some "rt-2", runId := some "run-2" }

end Sample

theorem projection_apart_completed :
    (applyLifecycleProjection Sample.live [Sample.completed]).runtimes[0]? =
      some ((([Sample.completed].filter (reaches Sample.live 0)).foldl (fun r e => r.project e))
        ⟨"rt-2", "host", "busy", none, some "run-2"⟩) :=
  ((projection_apart Sample.live [Sample.completed] (by
    intro e he _ _ id hid
    obtain rfl := List.mem_singleton.mp he
    refine .inl ⟨_, List.mem_singleton_self _, ?_⟩
    exact Option.some.inj hid)).1 0 _ rfl).1

theorem late_death_misread :
    (applyLifecycleProjection Sample.live [Sample.lateDeath]).runtimes =
        [⟨"rt-2", "host", "dead", some "t9", some "run-2"⟩] ∧
      ¬ Concerns Sample.lateDeath ⟨"rt-2", "host", "busy", none, some "run-2"⟩ := by
  refine ⟨by decide +kernel, ?_⟩
  rintro (h | ⟨h, -⟩) <;> exact absurd h (by decide +kernel)

end HrcRuntime.MonitorProjection
