import Mathlib.Data.List.Nodup
import Mathlib.Data.String.Basic

namespace HrcRuntime.SessionRecency

structure SessionRow where
  hostSessionId : String
  createdAt : String

structure IndexRow where
  hostSessionId : String
  lastActivityAt : Option String

structure RuntimeRow where
  hostSessionId : String
  status : String
  activeRunId : Option String
  lastActivityAt : Option String
  createdAt : String

structure Database where
  sessions : List SessionRow
  sessionIndex : List IndexRow
  runtimes : List RuntimeRow
  primaryKey : (sessions.map (·.hostSessionId)).Nodup
  unique : (sessionIndex.map (·.hostSessionId)).Nodup

def UNAVAILABLE : List String := ["terminated", "dead", "stale", "crashed", "detached"]

/-- `available_sql`. -/
def available (r : RuntimeRow) : Bool := !UNAVAILABLE.contains r.status

/-- A comparison with `NULL` selects no row. -/
def atLeast (value : Option String) (bound : String) : Bool := value.any fun text => decide (bound ≤ text)

/-- `COALESCE(last_activity_at, created_at)` of a runtime. -/
def activity (r : RuntimeRow) : String := r.lastActivityAt.getD r.createdAt

def runtimesOf (db : Database) (s : SessionRow) : List RuntimeRow :=
  db.runtimes.filter (·.hostSessionId == s.hostSessionId)

def indexedActivity (db : Database) (s : SessionRow) : Option String :=
  (db.sessionIndex.find? (·.hostSessionId == s.hostSessionId)).bind (·.lastActivityAt)

/-- `session_recency`: the maximum of three texts, or a runtime that is running or available. -/
def sessionRecency (db : Database) (since : String) (s : SessionRow) : Bool :=
  let recency := max (max ((indexedActivity db s).getD "") (((runtimesOf db s).map activity).max?.getD "")) s.createdAt
  decide (since ≤ recency) || (runtimesOf db s).any fun r => r.activeRunId.isSome || available r

/-- `recent_sessions`: membership in the union of five lookups. -/
def recentSessions (db : Database) (since : String) (s : SessionRow) : Bool :=
  ((db.sessions.filter fun r => atLeast (some r.createdAt) since).map (·.hostSessionId) ++
    (db.sessionIndex.filter fun r => atLeast r.lastActivityAt since).map (·.hostSessionId) ++
    (db.runtimes.filter fun r => atLeast (some (activity r)) since).map (·.hostSessionId) ++
    (db.runtimes.filter fun r => atLeast r.activeRunId "").map (·.hostSessionId) ++
    (db.runtimes.filter available).map (·.hostSessionId)).contains s.hostSessionId

section Recency

variable {db : Database} {s : SessionRow} {since : String}

theorem empty_le (text : String) : "" ≤ text := by
  rw [String.le_iff_toList_le]
  exact not_lt.mp (by simp)

theorem atLeast_empty (value : Option String) : atLeast value "" = value.isSome := by
  cases value with
  | none => rfl
  | some text => exact decide_eq_true (empty_le text)

theorem atLeast_some {text : String} : atLeast (some text) since = true ↔ since ≤ text := decide_eq_true_iff

theorem atLeast_coalesce {value : Option String} : since ≤ value.getD "" ↔ since ≤ "" ∨ atLeast value since = true := by
  cases value with
  | none => simp [atLeast]
  | some text =>
    simp only [Option.getD_some, atLeast, Option.any_some, decide_eq_true_eq]
    exact ⟨Or.inr, fun h => h.elim (fun he => he.trans (empty_le text)) id⟩

theorem atLeast_max {texts : List String} : atLeast texts.max? since = true ↔ ∃ text ∈ texts, since ≤ text := by
  cases hm : texts.max? with
  | none =>
    rw [List.max?_eq_none_iff.mp hm]
    simp [atLeast]
  | some top =>
    obtain ⟨hmem, hle⟩ := List.max?_eq_some_iff.mp hm
    simp only [atLeast, Option.any_some, decide_eq_true_eq]
    exact ⟨fun h => ⟨top, hmem, h⟩, fun ⟨text, ht, h⟩ => h.trans (hle text ht)⟩

theorem mem_runtimesOf {r : RuntimeRow} :
    r ∈ runtimesOf db s ↔ r ∈ db.runtimes ∧ r.hostSessionId = s.hostSessionId := by
  rw [runtimesOf, List.mem_filter, beq_iff_eq]

theorem atLeast_indexed : atLeast (indexedActivity db s) since = true ↔
    ∃ r ∈ db.sessionIndex, r.hostSessionId = s.hostSessionId ∧ atLeast r.lastActivityAt since = true := by
  constructor
  · intro h
    cases hfn : db.sessionIndex.find? (·.hostSessionId == s.hostSessionId) with
    | none =>
      rw [indexedActivity, hfn] at h
      cases h
    | some r =>
      rw [indexedActivity, hfn] at h
      have hid := List.find?_some hfn
      exact ⟨r, List.mem_of_find?_eq_some hfn, eq_of_beq hid, h⟩
  · rintro ⟨r, hr, hid, h⟩
    obtain ⟨found, hfn⟩ : ∃ found, db.sessionIndex.find? (·.hostSessionId == s.hostSessionId) = some found :=
      Option.isSome_iff_exists.mp (List.find?_isSome.mpr ⟨r, hr, beq_iff_eq.mpr hid⟩)
    have hf := List.find?_some hfn
    obtain rfl := List.inj_on_of_nodup_map db.unique (List.mem_of_find?_eq_some hfn) hr
      ((eq_of_beq hf).trans hid.symm)
    rw [indexedActivity, hfn]
    exact h

theorem sessionRecency_iff : sessionRecency db since s = true ↔
    since ≤ s.createdAt ∨ atLeast (indexedActivity db s) since = true ∨
      (∃ r ∈ runtimesOf db s, since ≤ activity r) ∨
      ∃ r ∈ runtimesOf db s, r.activeRunId.isSome = true ∨ available r = true := by
  have hr : atLeast ((runtimesOf db s).map activity).max? since = true ↔
      ∃ r ∈ runtimesOf db s, since ≤ activity r := by
    rw [atLeast_max]
    simp only [List.mem_map, exists_exists_and_eq_and]
  have hc : since ≤ "" → since ≤ s.createdAt := fun h => h.trans (empty_le _)
  rw [← hr, sessionRecency]
  simp only [Bool.or_eq_true, decide_eq_true_eq, le_max_iff, atLeast_coalesce, List.any_eq_true]
  constructor
  · rintro ((((h | h) | h | h) | h) | h)
    · exact .inl (hc h)
    · exact .inr (.inl h)
    · exact .inl (hc h)
    · exact .inr (.inr (.inl h))
    · exact .inl h
    · exact .inr (.inr (.inr h))
  · rintro (h | h | h | h)
    · exact .inl (.inr h)
    · exact .inl (.inl (.inl (.inr h)))
    · exact .inl (.inl (.inr (.inr h)))
    · exact .inr h

theorem recentSessions_iff : recentSessions db since s = true ↔
    (∃ r ∈ db.sessions, r.hostSessionId = s.hostSessionId ∧ since ≤ r.createdAt) ∨
      (∃ r ∈ db.sessionIndex, r.hostSessionId = s.hostSessionId ∧ atLeast r.lastActivityAt since = true) ∨
      (∃ r ∈ runtimesOf db s, since ≤ activity r) ∨
      ∃ r ∈ runtimesOf db s, r.activeRunId.isSome = true ∨ available r = true := by
  simp only [recentSessions, atLeast_empty, List.contains_iff_mem, List.mem_append, List.mem_map, List.mem_filter,
    mem_runtimesOf, atLeast_some]
  constructor
  · rintro ((((⟨r, hr, hid⟩ | ⟨r, hr, hid⟩) | ⟨r, hr, hid⟩) | ⟨r, hr, hid⟩) | ⟨r, hr, hid⟩)
    · exact .inl ⟨r, hr.1, hid, hr.2⟩
    · exact .inr (.inl ⟨r, hr.1, hid, hr.2⟩)
    · exact .inr (.inr (.inl ⟨r, ⟨hr.1, hid⟩, hr.2⟩))
    · exact .inr (.inr (.inr ⟨r, ⟨hr.1, hid⟩, .inl hr.2⟩))
    · exact .inr (.inr (.inr ⟨r, ⟨hr.1, hid⟩, .inr hr.2⟩))
  · rintro (⟨r, hr, hid, h⟩ | ⟨r, hr, hid, h⟩ | ⟨r, ⟨hr, hid⟩, h⟩ | ⟨r, ⟨hr, hid⟩, h | h⟩)
    · exact .inl (.inl (.inl (.inl ⟨r, ⟨hr, h⟩, hid⟩)))
    · exact .inl (.inl (.inl (.inr ⟨r, ⟨hr, h⟩, hid⟩)))
    · exact .inl (.inl (.inr ⟨r, ⟨hr, h⟩, hid⟩))
    · exact .inl (.inr ⟨r, ⟨hr, h⟩, hid⟩)
    · exact .inr ⟨r, ⟨hr, h⟩, hid⟩

theorem recent_of_session (hs : s ∈ db.sessions) : recentSessions db since s = sessionRecency db since s := by
  have hc : (∃ r ∈ db.sessions, r.hostSessionId = s.hostSessionId ∧ since ≤ r.createdAt) ↔ since ≤ s.createdAt := by
    constructor
    · rintro ⟨r, hr, hid, h⟩
      obtain rfl := List.inj_on_of_nodup_map db.primaryKey hr hs hid
      exact h
    · exact fun h => ⟨s, hs, rfl, h⟩
  rw [Bool.eq_iff_iff, recentSessions_iff, sessionRecency_iff, hc, atLeast_indexed]

end Recency

/-- In every state of the tables and at every cutoff, the union of the lookups selects the sessions the correlated
predicate selects. -/
theorem recent_sessions (db : Database) (since : String) :
    db.sessions.filter (recentSessions db since) = db.sessions.filter (sessionRecency db since) :=
  List.filter_congr fun _ hs => recent_of_session hs

end HrcRuntime.SessionRecency
