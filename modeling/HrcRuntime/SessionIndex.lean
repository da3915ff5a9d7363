import HrcRuntime.KeysetPaging

namespace HrcRuntime.SessionIndex

open KeysetPaging

inductive SessionIndexEffectiveStatus where
  | active | detached | inactive | stale
  deriving DecidableEq

inductive SessionIndexExecutionMode where
  | headless | interactive | nonInteractive
  deriving DecidableEq

structure SessionIndexRecord where
  hostSessionId : String
  title : Option String := none
  scopeRef : String
  laneRef : String
  generation : Nat
  agentId : String
  projectId : Option String := none
  createdAt : String
  effectiveStatus : SessionIndexEffectiveStatus
  executionMode : SessionIndexExecutionMode
  lastActivityAt : String
  deriving DecidableEq

structure SessionIndexFilters where
  q : Option String := none
  agentId : Option String := none
  projectId : Option String := none
  laneRef : Option String := none
  effectiveStatus : Option SessionIndexEffectiveStatus := none
  executionMode : Option SessionIndexExecutionMode := none

structure SessionIndexCursor where
  lastActivityAt : String
  hostSessionId : String

structure SessionIndexPage where
  items : List SessionIndexRecord
  hasMore : Bool

/-- The `session_index` of a node; `host_session_id` is `UNIQUE`. -/
structure Index where
  rows : List SessionIndexRecord
  distinct : (rows.map (·.hostSessionId)).Nodup

def likeTail (rest : List Char → Bool) : List Char → Bool
  | [] => rest []
  | c :: text => rest (c :: text) || likeTail rest text

def likeChar (c : Char) (rest : List Char → Bool) : List Char → Bool
  | [] => false
  | d :: text => c.toLower == d.toLower && rest text

/-- `text LIKE pattern ESCAPE escape`, blind to the case of ASCII letters. -/
def like (escape : Option Char) : List Char → List Char → Bool
  | [] => fun text => text.isEmpty
  | [c] => if escape = some c then fun _ => false
      else if c = '%' then likeTail fun text => text.isEmpty
      else if c = '_' then fun text => text.length == 1
      else likeChar c fun text => text.isEmpty
  | c :: d :: pattern => if escape = some c then likeChar d (like escape pattern)
      else if c = '%' then likeTail (like escape (d :: pattern))
      else if c = '_' then fun text => !text.isEmpty && like escape (d :: pattern) text.tail
      else likeChar c (like escape (d :: pattern))

def escapeLike (value : List Char) : List Char :=
  value.flatMap fun c => if c = '\\' ∨ c = '%' ∨ c = '_' then ['\\', c] else [c]

/-- The clause of `buildWhere`: lineages of applications are never served. -/
def SessionIndexFilters.matches (filters : SessionIndexFilters) (row : SessionIndexRecord) : Bool :=
  !like none "app:%".toList row.scopeRef.toList &&
  filters.q.all (fun q => like (some '\\') ('%' :: escapeLike q.toList ++ ['%']) row.scopeRef.toList) &&
  filters.agentId.all (row.agentId == ·) &&
  filters.projectId.all (row.projectId == some ·) &&
  filters.laneRef.all (row.laneRef == ·) &&
  filters.effectiveStatus.all (row.effectiveStatus == ·) &&
  filters.executionMode.all (row.executionMode == ·)

/-- `ORDER BY last_activity_at DESC, host_session_id DESC`, text by its code points. -/
def byActivity (a b : SessionIndexRecord) : Ordering :=
  (compare b.lastActivityAt a.lastActivityAt).then (compare b.hostSessionId a.hostSessionId)

/-- `(last_activity_at, host_session_id) < (?, ?)`. -/
def SessionIndexCursor.isBefore (cursor : SessionIndexCursor) (row : SessionIndexRecord) : Bool :=
  (compare row.lastActivityAt cursor.lastActivityAt).then (compare row.hostSessionId cursor.hostSessionId) == .lt

def SessionIndexRecord.cursor (row : SessionIndexRecord) : SessionIndexCursor := ⟨row.lastActivityAt, row.hostSessionId⟩

def select (index : Index) (p : SessionIndexRecord → Bool) : List SessionIndexRecord :=
  sortBy byActivity (index.rows.filter p)

def listPage (index : Index) (filters : SessionIndexFilters) (cursor : Option SessionIndexCursor) (limit : Nat) :
    SessionIndexPage :=
  let rows := (select index fun row => filters.matches row && cursor.all (·.isBefore row)).take (limit + 1)
  { items := rows.take limit, hasMore := limit < rows.length }

instance : Std.TransCmp byActivity :=
  have : Std.TransCmp fun a b : SessionIndexRecord => compare b.lastActivityAt a.lastActivityAt :=
    transCmp_on (fun a b : String => compare b a) SessionIndexRecord.lastActivityAt
  have : Std.TransCmp fun a b : SessionIndexRecord => compare b.hostSessionId a.hostSessionId :=
    transCmp_on (fun a b : String => compare b a) SessionIndexRecord.hostSessionId
  inferInstanceAs (Std.TransCmp (compareLex (fun a b : SessionIndexRecord => compare b.lastActivityAt a.lastActivityAt)
    fun a b => compare b.hostSessionId a.hostSessionId))

variable {index : Index} {p q : SessionIndexRecord → Bool}

theorem perm_select : (select index p).Perm (index.rows.filter p) := perm_sortBy _ _

theorem strict_select : (select index p).Pairwise fun a b => byActivity a b = .lt := by
  refine strict_sortBy byActivity ((List.Pairwise.filter p (List.pairwise_map.mp index.distinct)).imp fun {a b} hne heq => ?_)
  have hi : compare b.hostSessionId a.hostSessionId = .eq := (Ordering.then_eq_eq.mp heq).2
  exact hne (Std.LawfulEqOrd.eq_of_compare hi).symm

theorem select_and : (select index fun row => p row && q row) = (select index p).filter q := by
  refine eq_of_strict byActivity ?_ strict_select (strict_select.filter q)
  refine perm_select.trans (List.Perm.trans (List.Perm.of_eq ?_) (perm_select.filter q).symm)
  rw [List.filter_filter]
  exact List.filter_congr fun a _ => Bool.and_comm _ _

theorem listPage_eq {filters : SessionIndexFilters} {served rest : List SessionIndexRecord}
    (h : select index filters.matches = served ++ rest) (limit : Nat) :
    listPage index filters (served.getLast?.map (·.cursor)) limit =
      { items := rest.take limit, hasMore := decide (limit < rest.length) } := by
  have hr : (select index fun row => filters.matches row && (served.getLast?.map (·.cursor)).all (·.isBefore row)) = rest := by
    rw [select_and, h]
    rcases List.eq_nil_or_concat served with rfl | ⟨before, x, rfl⟩
    · simp
    · rw [List.concat_eq_append] at h ⊢
      have hstr : (before ++ x :: rest).Pairwise fun a b => byActivity a b = .lt := by
        have hs : (select index filters.matches).Pairwise fun a b => byActivity a b = .lt := strict_select
        rwa [h, List.append_assoc] at hs
      rw [List.getLast?_concat, List.append_assoc]
      refine (List.filter_congr fun a _ => ?_).trans (filter_after ?_ hstr)
      · rfl
      · intro a b hab hba
        rw [show byActivity a b = (byActivity b a).swap from Std.OrientedCmp.eq_swap, hba] at hab
        cases hab
  simp only [listPage, hr, List.take_take, Nat.min_eq_left (Nat.le_succ limit), List.length_take]
  congr 1
  refine decide_eq_decide.mpr ?_
  omega

end HrcRuntime.SessionIndex
