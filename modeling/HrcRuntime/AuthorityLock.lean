import HrcRuntime.Schedule
import Mathlib.Data.List.Nodup
import Mathlib.Data.List.Range
import Mathlib.Data.List.Perm.Basic

namespace HrcRuntime.AuthorityLock

open Schedule
open List (mem_singleton mem_cons singleton_sublist map_append append_assoc)

inductive LockKind where
  | summon | retirement
  deriving DecidableEq

/-- A waiting operation; `ready` is the number of its request. -/
structure LockWaiter where
  kind : LockKind
  ready : Nat
  deriving DecidableEq

structure ScopeAuthorityLock where
  readers : Nat := 0
  writer : Bool := false
  queue : List LockWaiter := []

def acquire (lock : ScopeAuthorityLock) (waiter : LockWaiter) : Bool × ScopeAuthorityLock :=
  let writerQueued := lock.queue.any (·.kind == .retirement)
  if waiter.kind = .summon ∧ lock.writer = false ∧ writerQueued = false then
    (true, { lock with readers := lock.readers + 1 })
  else if waiter.kind = .retirement ∧ lock.writer = false ∧ lock.readers = 0 ∧ lock.queue = [] then
    (true, { lock with writer := true })
  else (false, { lock with queue := lock.queue ++ [waiter] })

def admitSummons (readers : Nat) : List LockWaiter → List LockWaiter × Nat × List LockWaiter
  | [] => ([], readers, [])
  | waiter :: queue =>
    if waiter.kind = .summon then
      let admitted := admitSummons (readers + 1) queue
      (waiter :: admitted.1, admitted.2)
    else ([], readers, waiter :: queue)

def drain (lock : ScopeAuthorityLock) : List LockWaiter × ScopeAuthorityLock :=
  if lock.writer = true ∨ lock.readers > 0 then ([], lock)
  else match lock.queue with
    | [] => ([], lock)
    | waiter :: queue =>
      if waiter.kind = .retirement then ([waiter], { lock with writer := true, queue := queue })
      else
        let admitted := admitSummons lock.readers lock.queue
        (admitted.1, { lock with readers := admitted.2.1, queue := admitted.2.2 })

def release (lock : ScopeAuthorityLock) : LockKind → ScopeAuthorityLock
  | .summon => { lock with readers := lock.readers - 1 }
  | .retirement => { lock with writer := false }

structure Holder where
  waiter : LockWaiter
  lock : Nat

/-- The lock objects made for one scope, the one its entry names, and the operations that hold them; the requests, the
admissions, the waiters and the wake-ups so far are kept in their order. -/
structure Authority where
  objects : List ScopeAuthorityLock := []
  entry : Option Nat := none
  running : List Holder := []
  requests : List LockKind := []
  started : List LockWaiter := []
  queued : List LockWaiter := []
  readied : List LockWaiter := []

namespace Authority

def object (a : Authority) (address : Nat) : ScopeAuthorityLock := a.objects.getD address {}

/-- `locks.get(scopeRef)`, or the lock `withLock` makes. -/
def entryObject (a : Authority) : Nat × List ScopeAuthorityLock :=
  match a.entry with
  | some address => (address, a.objects)
  | none => (a.objects.length, a.objects ++ [{}])

/-- `withLock` up to its operation. -/
def request (a : Authority) (kind : LockKind) : Authority :=
  let found := a.entryObject
  let waiter : LockWaiter := { kind := kind, ready := a.requests.length }
  let acquired := acquire (found.2.getD found.1 {}) waiter
  let next :=
    { a with
      objects := found.2.set found.1 acquired.2
      entry := some found.1
      requests := a.requests ++ [kind] }
  if acquired.1 then
    { next with running := a.running ++ [⟨waiter, found.1⟩], started := a.started ++ [waiter] }
  else { next with queued := a.queued ++ [waiter] }

/-- The `finally` of `withLock`, whether its operation returned or threw. -/
def complete (a : Authority) (ready : Nat) : Authority :=
  match a.running.find? (·.waiter.ready == ready) with
  | none => a
  | some holder =>
    let drained := drain (release (a.object holder.lock) holder.waiter.kind)
    { a with
      objects := a.objects.set holder.lock drained.2
      entry := if drained.2.writer = false ∧ drained.2.readers = 0 ∧ drained.2.queue = [] then none else a.entry
      running := a.running.eraseP (·.waiter.ready == ready) ++ drained.1.map (⟨·, holder.lock⟩)
      started := a.started ++ drained.1
      readied := a.readied ++ drained.1 }

end Authority

inductive Action where
  | request (kind : LockKind)
  | complete (ready : Nat) (threw : Bool)

def step (action : Action) (a : Authority) : Authority :=
  match action with
  | .request kind => a.request kind
  | .complete ready _ => a.complete ready

def Authority.lock (a : Authority) : ScopeAuthorityLock := (a.entry.map a.object).getD {}

def Authority.InUse (a : Authority) (address : Nat) : Prop :=
  (∃ holder ∈ a.running, holder.lock = address) ∨ (a.object address).queue ≠ []

def Holds (lock : ScopeAuthorityLock) (running : List LockWaiter) : Prop :=
  if lock.writer then lock.readers = 0 ∧ ∃ waiter, waiter.kind = .retirement ∧ running = [waiter]
  else lock.readers = running.length ∧ ∀ waiter ∈ running, waiter.kind = .summon

section Lock

variable {lock : ScopeAuthorityLock} {running : List LockWaiter} {waiter : LockWaiter}

theorem holds_writer (h : lock.writer = true) :
    Holds lock running ↔ lock.readers = 0 ∧ ∃ waiter, waiter.kind = .retirement ∧ running = [waiter] := by
  rw [Holds, if_pos h]

theorem holds_readers (h : lock.writer = false) :
    Holds lock running ↔ lock.readers = running.length ∧ ∀ waiter ∈ running, waiter.kind = .summon := by
  rw [Holds, if_neg (by simp [h])]

theorem Holds.alone (h : Holds lock running) (hw : waiter ∈ running) (hk : waiter.kind = .retirement) :
    running = [waiter] := by
  by_cases hwr : lock.writer = true
  · obtain ⟨-, held, -, rfl⟩ := (holds_writer hwr).mp h
    rw [mem_singleton.mp hw]
  · have hs := ((holds_readers (by simpa using hwr)).mp h).2 waiter hw
    rw [hk] at hs
    cases hs

theorem Holds.of_nil (h : Holds lock []) : lock.writer = false ∧ lock.readers = 0 := by
  by_cases hw : lock.writer = true
  · obtain ⟨-, _, -, he⟩ := (holds_writer hw).mp h
    cases he
  · have hf : lock.writer = false := by simpa using hw
    exact ⟨hf, ((holds_readers hf).mp h).1⟩

/-- An operation is admitted at once when it may join the holders and no retirement waits, else it waits behind the
queue, and then some operation holds the lock. -/
theorem acquire_spec (h : Holds lock running) (hl : running = [] → lock.queue = []) (waiter : LockWaiter) :
    ((acquire lock waiter).1 = true ∧ Holds (acquire lock waiter).2 (running ++ [waiter]) ∧
        (acquire lock waiter).2.queue = lock.queue ∧ ∀ w ∈ lock.queue, w.kind ≠ .retirement) ∨
      ((acquire lock waiter).1 = false ∧ Holds (acquire lock waiter).2 running ∧
        (acquire lock waiter).2.queue = lock.queue ++ [waiter] ∧ running ≠ []) := by
  by_cases hj : waiter.kind = .summon ∧ lock.writer = false ∧ lock.queue.any (·.kind == .retirement) = false
  · obtain ⟨hk, hf, hque⟩ := hj
    have hacq : acquire lock waiter = (true, { lock with readers := lock.readers + 1 }) := by
      simp [acquire, hk, hf, hque]
    obtain ⟨hr, hs⟩ := (holds_readers hf).mp h
    have hjn : Holds { lock with readers := lock.readers + 1 } (running ++ [waiter]) := by
      refine (holds_readers ?_).mpr ⟨by simp [hr], fun w hw => ?_⟩
      · exact hf
      · rcases List.mem_append.mp hw with hold | hn
        · exact hs w hold
        · rw [mem_singleton.mp hn, hk]
    rw [hacq]
    refine .inl ⟨rfl, hjn, rfl, fun w hw hret => ?_⟩
    have hoth := List.any_eq_false.mp hque w hw
    simp [hret] at hoth
  · by_cases hal : waiter.kind = .retirement ∧ lock.writer = false ∧ lock.readers = 0 ∧ lock.queue = []
    · obtain ⟨hk, hf, hr, hque⟩ := hal
      have hacq : acquire lock waiter = (true, { lock with writer := true }) := by
        simp [acquire, hk, hf, hr, hque]
      have hnn : running = [] := by
        rw [← List.length_eq_zero_iff, ← ((holds_readers hf).mp h).1, hr]
      rw [hacq, hnn]
      refine .inl ⟨rfl, (holds_writer rfl).mpr ⟨hr, waiter, hk, rfl⟩, rfl, fun w hw => ?_⟩
      rw [hque] at hw
      cases hw
    · have hacq : acquire lock waiter = (false, { lock with queue := lock.queue ++ [waiter] }) := by
        unfold acquire
        rw [if_neg hj, if_neg hal]
      rw [hacq]
      refine .inr ⟨rfl, h, rfl, ?_⟩
      rintro rfl
      obtain ⟨hf, hr⟩ := h.of_nil
      have hque := hl rfl
      cases hk : waiter.kind with
      | summon => exact hj ⟨hk, hf, by simp [hque]⟩
      | retirement => exact hal ⟨hk, hf, hr, hque⟩

theorem release_holds (h : Holds lock running) {p : LockWaiter → Bool} (hf : running.find? p = some waiter) :
    Holds (release lock waiter.kind) (running.eraseP p) := by
  have hm := List.mem_of_find?_eq_some hf
  have hp := List.find?_some hf
  cases hwr : lock.writer with
  | true =>
    obtain ⟨hr, held, hk, rfl⟩ := (holds_writer hwr).mp h
    obtain rfl := mem_singleton.mp hm
    rw [hk, List.eraseP_cons_of_pos hp]
    exact (holds_readers rfl).mpr ⟨hr, fun _ hw => by cases hw⟩
  | false =>
    obtain ⟨hr, hs⟩ := (holds_readers hwr).mp h
    rw [hs waiter hm]
    refine (holds_readers ?_).mpr ⟨?_, fun w hw => hs w (List.mem_of_mem_eraseP hw)⟩
    · exact hwr
    · rw [List.length_eraseP_of_mem hm hp, ← hr]
      rfl

theorem admitSummons_spec (readers : Nat) (queue : List LockWaiter) :
    queue = (admitSummons readers queue).1 ++ (admitSummons readers queue).2.2 ∧
      (admitSummons readers queue).2.1 = readers + (admitSummons readers queue).1.length ∧
        ∀ waiter ∈ (admitSummons readers queue).1, waiter.kind = .summon := by
  induction queue generalizing readers with
  | nil => simp [admitSummons]
  | cons waiter queue ih =>
    obtain ⟨hque, hr, hs⟩ := ih (readers + 1)
    by_cases hk : waiter.kind = .summon
    · simp only [admitSummons, if_pos hk]
      refine ⟨by rw [List.cons_append, ← hque], by rw [hr, List.length_cons]; omega, ?_⟩
      intro w hw
      rcases mem_cons.mp hw with rfl | hw
      · exact hk
      · exact hs w hw
    · simp [admitSummons, hk]

/-- A drain makes a prefix of the queue ready, and leaves no waiter when none holds the lock after it. -/
theorem drain_spec (h : Holds lock running) :
    lock.queue = (drain lock).1 ++ (drain lock).2.queue ∧ Holds (drain lock).2 (running ++ (drain lock).1) ∧
      (running ++ (drain lock).1 = [] → (drain lock).2.queue = []) := by
  by_cases hh : lock.writer = true ∨ lock.readers > 0
  · have hd : drain lock = ([], lock) := if_pos hh
    rw [hd, List.append_nil]
    refine ⟨rfl, h, ?_⟩
    rintro rfl
    obtain ⟨hf, hr⟩ := h.of_nil
    simp [hf, hr] at hh
  · obtain ⟨hw, hr⟩ : lock.writer = false ∧ lock.readers = 0 := by simpa using hh
    obtain rfl : running = [] := by
      rw [← List.length_eq_zero_iff, ← ((holds_readers hw).mp h).1, hr]
    rw [List.nil_append]
    rcases hque : lock.queue with _ | ⟨waiter, queue⟩
    · have hd : drain lock = ([], lock) := by simp [drain, hque]
      rw [hd]
      exact ⟨hque.symm, h, fun _ => hque⟩
    · cases hk : waiter.kind with
      | retirement =>
        have hd : drain lock = ([waiter], { lock with writer := true, queue := queue }) := by
          simp [drain, hh, hque, hk]
        rw [hd]
        exact ⟨rfl, (holds_writer rfl).mpr ⟨hr, waiter, hk, rfl⟩, fun h => by cases h⟩
      | summon =>
        have hd : drain lock = ((admitSummons lock.readers lock.queue).1,
            { lock with
              readers := (admitSummons lock.readers lock.queue).2.1
              queue := (admitSummons lock.readers lock.queue).2.2 }) := by
          simp [drain, hh, hque, hk]
        obtain ⟨hsp, hc, hs⟩ := admitSummons_spec lock.readers lock.queue
        rw [hd, ← hque]
        refine ⟨hsp, (holds_readers ?_).mpr ⟨?_, hs⟩, fun hn => ?_⟩
        · exact hw
        · dsimp only
          rw [hc, hr, Nat.zero_add]
        · rw [hque] at hn
          simp [admitSummons, hk] at hn

end Lock

structure Turns where
  lock : ScopeAuthorityLock
  running : List LockWaiter
  requests : List LockKind
  started : List LockWaiter
  queued : List LockWaiter
  readied : List LockWaiter

namespace Turns

def request (t : Turns) (kind : LockKind) : Turns :=
  let waiter : LockWaiter := { kind := kind, ready := t.requests.length }
  let acquired := acquire t.lock waiter
  let next := { t with lock := acquired.2, requests := t.requests ++ [kind] }
  if acquired.1 then { next with running := t.running ++ [waiter], started := t.started ++ [waiter] }
  else { next with queued := t.queued ++ [waiter] }

def complete (t : Turns) (ready : Nat) : Turns :=
  match t.running.find? (·.ready == ready) with
  | none => t
  | some waiter =>
    let drained := drain (release t.lock waiter.kind)
    { t with
      lock := drained.2
      running := t.running.eraseP (·.ready == ready) ++ drained.1
      started := t.started ++ drained.1
      readied := t.readied ++ drained.1 }

end Turns

structure Fair (t : Turns) : Prop where
  holds : Holds t.lock t.running
  lively : t.running = [] → t.lock.queue = []
  admitted : ∀ waiter ∈ t.running, waiter ∈ t.started
  fifo : t.queued = t.readied ++ t.lock.queue
  readied : t.readied.Sublist t.started
  numbered : ((t.started ++ t.lock.queue).map (·.ready)).Perm (List.range t.requests.length)
  kinds : ∀ waiter ∈ t.started ++ t.lock.queue, t.requests[waiter.ready]? = some waiter.kind
  sorted : t.lock.queue.Pairwise (·.ready < ·.ready)
  ordered : ∀ i j, i < j → t.requests[i]? = some .retirement → ⟨.summon, j⟩ ∈ t.started →
    [⟨.retirement, i⟩, ⟨.summon, j⟩].Sublist t.started

section Fair

variable {t : Turns}

theorem Fair.ready_lt (h : Fair t) {waiter : LockWaiter} (hw : waiter ∈ t.started ++ t.lock.queue) :
    waiter.ready < t.requests.length :=
  List.mem_range.mp (h.numbered.mem_iff.mp (List.mem_map_of_mem hw))

theorem Fair.of_request (h : Fair t) {i : Nat} {kind : LockKind} (hi : t.requests[i]? = some kind) :
    ⟨kind, i⟩ ∈ t.started ++ t.lock.queue := by
  have hr : i ∈ List.range t.requests.length := List.mem_range.mpr (List.getElem?_eq_some_iff.mp hi).1
  obtain ⟨waiter, hw, rfl⟩ := List.mem_map.mp (h.numbered.mem_iff.mpr hr)
  obtain rfl := Option.some.inj ((h.kinds waiter hw).symm.trans hi)
  exact hw

theorem pair_sublist {l : List LockWaiter} (hl : l.Pairwise (·.ready < ·.ready)) {r s : LockWaiter} (hr : r ∈ l)
    (hs : s ∈ l) (hrs : r.ready < s.ready) : [r, s].Sublist l := by
  induction hl with
  | nil => cases hr
  | cons hh _ ih =>
    rcases mem_cons.mp hr with rfl | hr
    · rcases mem_cons.mp hs with rfl | hs
      · exact absurd hrs (lt_irrefl _)
      · exact (singleton_sublist.mpr hs).cons_cons _
    · rcases mem_cons.mp hs with rfl | hs
      · have := hh r (by assumption)
        omega
      · exact (ih hr hs).cons _

theorem Fair.push (h : Fair t) (kind : LockKind) {all : List LockWaiter}
    (hall : all.Perm (t.started ++ t.lock.queue ++ [⟨kind, t.requests.length⟩])) :
    (all.map (·.ready)).Perm (List.range (t.requests ++ [kind]).length) ∧
      ∀ waiter ∈ all, (t.requests ++ [kind])[waiter.ready]? = some waiter.kind := by
  constructor
  · rw [List.length_append, List.length_singleton, List.range_succ]
    refine (hall.map (·.ready)).trans ?_
    rw [map_append]
    exact h.numbered.append_right _
  · intro waiter hw
    rcases List.mem_append.mp (hall.mem_iff.mp hw) with hold | hn
    · rw [List.getElem?_append_left (h.ready_lt hold)]
      exact h.kinds waiter hold
    · rw [mem_singleton.mp hn]
      exact List.getElem?_concat_length ..

theorem Fair.ordered_old (h : Fair t) {kind : LockKind} {i j : Nat} (hij : i < j)
    (hi : (t.requests ++ [kind])[i]? = some .retirement) (hj : ⟨.summon, j⟩ ∈ t.started) :
    [⟨.retirement, i⟩, ⟨.summon, j⟩].Sublist t.started := by
  have hlt : j < t.requests.length := h.ready_lt (List.mem_append_left _ hj)
  rw [List.getElem?_append_left (by omega)] at hi
  exact h.ordered i j hij hi hj

theorem fair_request (h : Fair t) (kind : LockKind) : Fair (t.request kind) := by
  have hwt := acquire_spec h.holds h.lively ⟨kind, t.requests.length⟩
  rcases hacq : acquire t.lock ⟨kind, t.requests.length⟩ with ⟨admitted, lock⟩
  rw [hacq] at hwt
  rcases hwt with ⟨hadm, hhd, hque, hnn⟩ | ⟨hadm, hhd, hque, hh⟩
  · have hr : t.request kind =
        { t with
          lock := lock, requests := t.requests ++ [kind], running := t.running ++ [⟨kind, t.requests.length⟩]
          started := t.started ++ [⟨kind, t.requests.length⟩] } := by
      simp only [Turns.request, hacq]
      exact if_pos hadm
    have hall : List.Perm (t.started ++ [⟨kind, t.requests.length⟩] ++ t.lock.queue)
        (t.started ++ t.lock.queue ++ [⟨kind, t.requests.length⟩]) := by
      rw [append_assoc, append_assoc]
      exact List.perm_append_comm.append_left _
    obtain ⟨hnum, hk⟩ := h.push kind hall
    dsimp only at hque
    rw [hr]
    refine
      { holds := hhd, lively := fun hnil => by simp at hnil, admitted := ?_, fifo := ?_
        readied := h.readied.trans (List.sublist_append_left ..), numbered := ?_, kinds := ?_, sorted := ?_
        ordered := ?_ } <;> dsimp only <;> try rw [hque]
    · intro waiter hw
      exact (List.mem_append.mp hw).elim (fun hold => List.mem_append_left _ (h.admitted waiter hold))
        (List.mem_append_right _)
    · exact h.fifo
    · exact hnum
    · exact hk
    · exact h.sorted
    · intro i j hij hi hj
      rcases List.mem_append.mp hj with hold | hn
      · exact (h.ordered_old hij hi hold).trans (List.sublist_append_left ..)
      · obtain ⟨rfl, rfl⟩ := LockWaiter.mk.inj (mem_singleton.mp hn)
        rw [List.getElem?_append_left hij] at hi
        have hs := (List.mem_append.mp (h.of_request hi)).resolve_right fun hw => hnn _ hw rfl
        exact (singleton_sublist.mpr hs).append (List.Sublist.refl _)
  · have hr : t.request kind =
        { t with
          lock := lock, requests := t.requests ++ [kind], queued := t.queued ++ [⟨kind, t.requests.length⟩] } := by
      simp only [Turns.request, hacq]
      exact if_neg (by simpa using hadm)
    obtain ⟨hnum, hk⟩ := h.push kind (List.Perm.of_eq (append_assoc t.started t.lock.queue _).symm)
    dsimp only at hque
    rw [hr]
    refine
      { holds := hhd, lively := fun hnil => absurd hnil hh, admitted := h.admitted, fifo := ?_, readied := h.readied, numbered := ?_
        kinds := ?_, sorted := ?_, ordered := fun i j hij hi hj => h.ordered_old hij hi hj } <;> dsimp only <;> rw [hque]
    · rw [h.fifo, append_assoc]
    · exact hnum
    · exact hk
    · refine List.pairwise_append.mpr ⟨h.sorted, List.pairwise_singleton .., fun waiter hw last hl => ?_⟩
      rw [mem_singleton.mp hl]
      exact h.ready_lt (List.mem_append_right _ hw)

theorem fair_complete (h : Fair t) (ready : Nat) : Fair (t.complete ready) := by
  rcases hf : t.running.find? (·.ready == ready) with _ | waiter
  · have hs : t.complete ready = t := by simp only [Turns.complete, hf]
    rwa [hs]
  · have hque : (release t.lock waiter.kind).queue = t.lock.queue := by cases waiter.kind <;> rfl
    obtain ⟨hsp, hhd, hl⟩ := drain_spec (release_holds h.holds hf)
    have hc : t.complete ready =
        { t with
          lock := (drain (release t.lock waiter.kind)).2
          running := t.running.eraseP (·.ready == ready) ++ (drain (release t.lock waiter.kind)).1
          started := t.started ++ (drain (release t.lock waiter.kind)).1
          readied := t.readied ++ (drain (release t.lock waiter.kind)).1 } := by
      simp only [Turns.complete, hf]
    generalize drain (release t.lock waiter.kind) = drained at hsp hhd hl hc
    rw [hque] at hsp
    have hall : t.started ++ drained.1 ++ drained.2.queue = t.started ++ t.lock.queue := by
      rw [append_assoc, ← hsp]
    have hsr := List.pairwise_append.mp (hsp ▸ h.sorted)
    rw [hc]
    refine
      { holds := hhd, lively := hl, admitted := ?_, fifo := ?_, readied := h.readied.append_right _, numbered := ?_, kinds := ?_
        sorted := hsr.2.1, ordered := ?_ }
    · intro w hw
      exact (List.mem_append.mp hw).elim
        (fun hold => List.mem_append_left _ (h.admitted w (List.mem_of_mem_eraseP hold))) (List.mem_append_right _)
    · rw [h.fifo, hsp, append_assoc]
    · rw [hall]
      exact h.numbered
    · rw [hall]
      exact h.kinds
    · intro i j hij hi hj
      rcases List.mem_append.mp hj with hold | hn
      · exact (h.ordered i j hij hi hold).trans (List.sublist_append_left ..)
      · rcases List.mem_append.mp (h.of_request hi) with hsta | hwt
        · exact (singleton_sublist.mpr hsta).append (singleton_sublist.mpr hn)
        · rw [hsp] at hwt
          rcases List.mem_append.mp hwt with hd | hbeh
          · exact (pair_sublist hsr.1 hd hn hij).trans (List.sublist_append_right ..)
          · have := hsr.2.2 _ hn _ hbeh
            dsimp only at this
            omega

end Fair

def Authority.turns (a : Authority) : Turns :=
  { lock := a.lock, running := a.running.map (·.waiter), requests := a.requests, started := a.started
    queued := a.queued, readied := a.readied }

structure Placed (a : Authority) : Prop where
  valid : ∀ address, a.entry = some address → address < a.objects.length
  held : ∀ holder ∈ a.running, a.entry = some holder.lock
  idle : ∀ address, a.entry ≠ some address → (a.object address).queue = []

section Objects

variable {a : Authority}

theorem getD_set {objects : List ScopeAuthorityLock} {i : Nat} (hi : i < objects.length) (x : ScopeAuthorityLock) (j : Nat) :
    (objects.set i x).getD j {} = if j = i then x else objects.getD j {} := by
  rw [List.getD_eq_getElem?_getD, List.getD_eq_getElem?_getD]
  split_ifs with hj
  · rw [hj, List.getElem?_set_self hi, Option.getD_some]
  · rw [List.getElem?_set_ne (Ne.symm hj)]

theorem entryObject_spec (h : Placed a) :
    a.entryObject.1 < a.entryObject.2.length ∧ a.entryObject.2.getD a.entryObject.1 {} = a.lock ∧
      (∀ address, address ≠ a.entryObject.1 → (a.entryObject.2.getD address {}).queue = []) ∧
        ∀ hol ∈ a.running, hol.lock = a.entryObject.1 := by
  unfold Authority.entryObject Authority.lock
  rcases he : a.entry with _ | address
  · refine ⟨by simp, by simp [List.getD_eq_getElem?_getD], fun address hne => ?_, fun hol hhl => ?_⟩
    · have hoth : address ≠ a.objects.length := hne
      have hi := h.idle address (by simp [he])
      unfold Authority.object at hi
      rw [List.getD_eq_getElem?_getD] at hi ⊢
      rcases Nat.lt_or_ge address a.objects.length with hlt | hge
      · rwa [List.getElem?_append_left hlt]
      · rw [List.getElem?_eq_none (by simp only [List.length_append, List.length_singleton]; omega)]
        rfl
    · have hh := h.held hol hhl
      rw [he] at hh
      cases hh
  · refine ⟨h.valid address he, rfl, fun other hne => ?_, fun hol hhl => ?_⟩
    · refine h.idle other ?_
      rw [he]
      exact fun hs => hne (Option.some.inj hs).symm
    · exact (Option.some.inj (he.symm.trans (h.held hol hhl))).symm

theorem objects_request (h : Placed a) (kind : LockKind) :
    (a.request kind).objects =
        a.entryObject.2.set a.entryObject.1 (acquire a.lock ⟨kind, a.requests.length⟩).2 ∧
      (a.request kind).entry = some a.entryObject.1 := by
  simp only [Authority.request, (entryObject_spec h).2.1]
  split <;> exact ⟨rfl, rfl⟩

theorem lock_request (h : Placed a) (kind : LockKind) :
    (a.request kind).lock = (acquire a.lock ⟨kind, a.requests.length⟩).2 := by
  obtain ⟨hobj, he⟩ := objects_request h kind
  unfold Authority.lock Authority.object
  rw [he, hobj, Option.map_some, Option.getD_some, getD_set (entryObject_spec h).1, if_pos rfl]
  rfl

theorem turns_request (h : Placed a) (kind : LockKind) : (a.request kind).turns = a.turns.request kind := by
  have hl := lock_request h kind
  have hobj := (entryObject_spec h).2.1
  unfold Authority.turns Turns.request
  rw [hl]
  simp only [Authority.request, hobj]
  split
  · simp only [map_append, List.map_cons, List.map_nil]
  · rfl

theorem placed_request (h : Placed a) (kind : LockKind) : Placed (a.request kind) := by
  obtain ⟨hobj, he⟩ := objects_request h kind
  obtain ⟨hlt, -, hoth, hh⟩ := entryObject_spec h
  have hr : ∀ hol ∈ (a.request kind).running, hol.lock = a.entryObject.1 := by
    intro hol hhl
    simp only [Authority.request] at hhl
    split at hhl
    · rcases List.mem_append.mp hhl with hold | hn
      · exact hh hol hold
      · rw [mem_singleton.mp hn]
    · exact hh hol hhl
  refine { valid := fun address had => ?_, held := fun hol hhl => ?_, idle := fun address had => ?_ }
  · rw [he] at had
    obtain rfl := Option.some.inj had
    rwa [hobj, List.length_set]
  · rw [he, hr hol hhl]
  · rw [he] at had
    have hne : address ≠ a.entryObject.1 := fun hs => had (congrArg some hs.symm)
    unfold Authority.object
    rw [hobj, getD_set hlt, if_neg hne]
    exact hoth address hne

theorem find_waiter (a : Authority) (ready : Nat) :
    (a.running.map (·.waiter)).find? (·.ready == ready) = (a.running.find? (·.waiter.ready == ready)).map (·.waiter) := by
  rw [List.find?_map]
  rfl

variable {ready : Nat}

theorem complete_eq (h : Placed a) {hol : Holder}
    (hf : a.running.find? (·.waiter.ready == ready) = some hol) :
    a.object hol.lock = a.lock ∧ a.entry = some hol.lock ∧ hol.lock < a.objects.length := by
  have he := h.held hol (List.mem_of_find?_eq_some hf)
  refine ⟨?_, he, h.valid _ he⟩
  unfold Authority.lock
  rw [he]
  rfl

theorem eq_fresh {lock : ScopeAuthorityLock} (h : lock.writer = false ∧ lock.readers = 0 ∧ lock.queue = []) : lock = {} := by
  obtain ⟨readers, writer, queue⟩ := lock
  obtain ⟨rfl, rfl, rfl⟩ := h
  rfl

theorem lock_complete (h : Placed a) {hol : Holder}
    (hf : a.running.find? (·.waiter.ready == ready) = some hol) :
    (a.complete ready).lock = (drain (release a.lock hol.waiter.kind)).2 := by
  obtain ⟨hobj, he, hlt⟩ := complete_eq h hf
  simp only [Authority.complete, hf, hobj, Authority.lock]
  split_ifs with hi
  · exact (eq_fresh hi).symm
  · simp only [he, Option.map_some, Option.getD_some, Authority.object]
    rw [getD_set hlt, if_pos rfl]

theorem turns_complete (h : Placed a) (ready : Nat) : (a.complete ready).turns = a.turns.complete ready := by
  have hw := find_waiter a ready
  rcases hf : a.running.find? (·.waiter.ready == ready) with _ | hol <;> rw [hf] at hw
  · simp only [Authority.complete, hf, Turns.complete, Authority.turns, hw, Option.map_none]
  · have hl := lock_complete h hf
    obtain ⟨hobj, -, -⟩ := complete_eq h hf
    unfold Authority.turns
    rw [hl]
    have he : (a.running.map (·.waiter)).eraseP (·.ready == ready) =
        (a.running.eraseP (·.waiter.ready == ready)).map (·.waiter) := List.eraseP_map ..
    have hr : ∀ waiters : List LockWaiter, (waiters.map (⟨·, hol.lock⟩ : LockWaiter → Holder)).map (·.waiter) = waiters :=
      fun waiters => (List.map_map ..).trans (List.map_id _)
    simp only [Authority.complete, hf, hobj, Turns.complete, hw, Option.map_some, map_append, he,
      hr]

/-- The entry goes only when nobody holds its object. -/
theorem placed_complete (h : Placed a) (hf : Fair (a.complete ready).turns) :
    Placed (a.complete ready) := by
  rcases hfn : a.running.find? (·.waiter.ready == ready) with _ | hol
  · have hs : a.complete ready = a := by simp only [Authority.complete, hfn]
    rwa [hs]
  · obtain ⟨hobj, he, hlt⟩ := complete_eq h hfn
    have hl := lock_complete h hfn
    have hob : (a.complete ready).objects = a.objects.set hol.lock (a.complete ready).lock := by
      rw [hl]
      simp only [Authority.complete, hfn, hobj]
    have hnx : (a.complete ready).entry =
        if (a.complete ready).lock.writer = false ∧ (a.complete ready).lock.readers = 0 ∧
          (a.complete ready).lock.queue = [] then none else some hol.lock := by
      rw [hl]
      simp only [Authority.complete, hfn, hobj, he]
    have hh : ∀ next ∈ (a.complete ready).running, next.lock = hol.lock := by
      intro next hm
      simp only [Authority.complete, hfn] at hm
      rcases List.mem_append.mp hm with hold | hn
      · exact Option.some.inj ((h.held next (List.mem_of_mem_eraseP hold)).symm.trans he)
      · obtain ⟨waiter, -, rfl⟩ := List.mem_map.mp hn
        rfl
    refine { valid := fun address had => ?_, held := fun next hm => ?_, idle := fun address had => ?_ }
    · rw [hnx] at had
      split_ifs at had
      obtain rfl := Option.some.inj had
      rwa [hob, List.length_set]
    · rw [hnx, if_neg, hh next hm]
      rintro ⟨hw, hr, -⟩
      have hc : (a.complete ready).lock.readers = ((a.complete ready).running.map (·.waiter)).length :=
        ((holds_readers hw).mp hf.holds).1
      rw [hr, List.length_map] at hc
      have := List.length_pos_of_mem hm
      omega
    · unfold Authority.object
      rw [hob, getD_set hlt]
      split_ifs with hs
      · subst hs
        rw [hnx] at had
        split_ifs at had with hi
        · exact hi.2.2
        · exact absurd rfl had
      · refine h.idle address ?_
        rw [he]
        exact fun heq => hs (Option.some.inj heq).symm

end Objects

theorem sound_step {a : Authority} (h : Placed a ∧ Fair a.turns) (action : Action) :
    Placed (step action a) ∧ Fair (step action a).turns := by
  obtain ⟨hp, hf⟩ := h
  cases action with
  | request kind => exact ⟨placed_request hp kind, turns_request hp kind ▸ fair_request hf kind⟩
  | complete ready threw =>
    have hn : Fair (a.complete ready).turns := turns_complete hp ready ▸ fair_complete hf ready
    exact ⟨placed_complete hp hn, hn⟩

theorem sound_empty : Placed {} ∧ Fair ({} : Authority).turns := by
  refine ⟨⟨fun _ h => (by cases h), fun _ h => (by cases h), fun _ _ => rfl⟩, ?_⟩
  exact
    { holds := (holds_readers rfl).mpr ⟨rfl, fun _ h => by cases h⟩, lively := fun _ => rfl
      admitted := fun _ h => (by cases h), fifo := rfl
      readied := List.Sublist.refl _, numbered := List.Perm.refl _, kinds := fun _ h => by cases h
      sorted := List.Pairwise.nil, ordered := fun _ _ _ _ h => by cases h }

theorem sound_run (actions : List Action) : Placed (run step actions {}) ∧ Fair (run step actions {}).turns :=
  run_invariant (I := fun a => Placed a ∧ Fair a.turns) (fun _ action h _ => sound_step h action) sound_empty meets_true

/-- For every run of requests and completions: a retirement holds the lock alone; no holder, no waiter; a summon starts
after every retirement requested before it; waiters are made ready in queue order, once each; and one lock object at most
is in use, the one the entry names. -/
theorem authority_lock (actions : List Action) :
    let a := run step actions {}
    (∀ hol ∈ a.running, hol.waiter.kind = .retirement → a.running = [hol]) ∧
      (a.running = [] → ∀ address, (a.object address).queue = []) ∧
      (∀ i j, i < j → a.requests[i]? = some .retirement → ⟨.summon, j⟩ ∈ a.started →
        [⟨.retirement, i⟩, ⟨.summon, j⟩].Sublist a.started) ∧
      (a.queued = a.readied ++ a.lock.queue ∧ a.readied.Sublist a.started ∧ (a.started.map (·.ready)).Nodup ∧
        ∀ hol ∈ a.running, hol.waiter ∈ a.started) ∧
      (∀ address, a.InUse address → a.entry = some address) ∧
      ∀ address other, a.InUse address → a.InUse other → address = other := by
  intro a
  obtain ⟨hp, hf⟩ := sound_run actions
  have hu : ∀ address, a.InUse address → a.entry = some address := by
    rintro address (⟨hol, hh, rfl⟩ | hw)
    · exact hp.held hol hh
    · by_contra hoth
      exact hw (hp.idle address hoth)
  refine ⟨fun hol hh hk => ?_, fun hn address => ?_, hf.ordered, ⟨hf.fifo, hf.readied, ?_, ?_⟩, hu,
    fun address other had hoth => ?_⟩
  · have hal : a.running.map (·.waiter) = [hol.waiter] :=
      hf.holds.alone (List.mem_map_of_mem hh) hk
    obtain ⟨only, hon⟩ := List.length_eq_one_iff.mp ((List.length_map _).symm.trans (congrArg List.length hal))
    rw [hon] at hh ⊢
    rw [mem_singleton.mp hh]
  · by_cases he : a.entry = some address
    · have hl : a.lock = a.object address := by
        unfold Authority.lock
        rw [he]
        rfl
      rw [← hl]
      exact hf.lively (by rw [Authority.turns, hn]; rfl)
    · exact hp.idle address he
  · have hnd := hf.numbered.nodup_iff.mpr List.nodup_range
    rw [map_append] at hnd
    exact hnd.of_append_left
  · exact fun hol hh => hf.admitted hol.waiter (List.mem_map_of_mem hh)
  · exact Option.some.inj ((hu address had).symm.trans (hu other hoth))

def contended : List Action :=
  [.request .summon, .request .summon, .request .retirement, .request .summon, .complete 1 false, .complete 0 false,
    .complete 2 true]

theorem authority_lock_contended :
    [⟨.retirement, 2⟩, ⟨.summon, 3⟩].Sublist (run step contended {}).started ∧
      (run step (contended.take 6) {}).running = [⟨⟨.retirement, 2⟩, 0⟩] :=
  ⟨(authority_lock contended).2.2.1 2 3 (by decide) rfl (by decide),
    (authority_lock (contended.take 6)).1 _ (List.mem_cons_self ..) rfl⟩

end HrcRuntime.AuthorityLock
