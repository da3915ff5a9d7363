import HrcRuntime.ServerLockRuns

namespace HrcRuntime.ServerLock

open Schedule

variable {s t : State} {p : Pid}

theorem Inv.next_lock (hinv : Inv s) (hh : s.Holder p) {q : Pid} (hq : q ≠ p) : (s.next q).lock = s.lock := by
  obtain ⟨owner, hhd⟩ := Option.isSome_iff_exists.mp hh
  obtain ⟨⟨inode, hlc⟩, -⟩ := hinv.holds p owner hhd
  have hfl {f : File} (hf : s.lock = some f) : f.creator = p :=
    congrArg File.creator (Option.some.inj (hf.symm.trans hlc))
  have hs (failure : Option Failure) : (s.settle q failure).lock = s.lock := by
    cases failure <;> rfl
  unfold State.next
  cases hph : s.procs q with
  | createLock =>
    dsimp only
    cases hl : s.lock with
    | none =>
      rw [hlc] at hl
      cases hl
    | some f => exact hl
  | writeLock o i =>
    have hm := (hinv.writing q o i (by rw [hph]; rfl)).1
    exact absurd (hfl hm) hq
  | unlinkLock e claim =>
    obtain ⟨f, hf, -, hd⟩ := hinv.seen_dead (p := q) (e := e) (by rw [hph]; rfl)
    rw [hfl hf] at hd
    exact absurd hd (holds_live hhd)
  | dropLock o =>
    obtain ⟨⟨i, hi⟩, -⟩ := hinv.holds q o (by rw [hph]; rfl)
    exact absurd (hfl hi) hq
  | dropClaim failure claim => exact hs failure
  | _ =>
    first
    | rfl
    | (dsimp only; split <;> (try split) <;> (try split) <;> first | rfl | exact hs _)

theorem Inv.step_lock (hi : Inv s) (hh : s.Holder p) {a : Action} (ha : a.actor ≠ some p) :
    (step a s).lock = s.lock := by
  cases a with
  | next q => exact hi.next_lock hh fun h => ha (congrArg some h)
  | tick ms => rfl
  | acquire q | listen q | cleanupFailedStartup q b | releaseServerLock q =>
    simp only [step]
    (try split) <;> (try split) <;> rfl
  | crash q => rfl

def Leads (p : Pid) (s : State) (P : State → Prop) : Prop := ∃ n, P (run step (List.replicate n (.next p)) s)

theorem Leads.now {P : State → Prop} (h : P s) : Leads p s P := ⟨0, h⟩

theorem Leads.after {P : State → Prop} (hnx : s.next p = t) (h : Leads p t P) : Leads p s P := by
  obtain ⟨n, hn⟩ := h
  refine ⟨n + 1, ?_⟩
  subst hnx
  exact hn

structure Solo (p : Pid) (s : State) : Prop where
  inv : Inv s
  rest : ∀ q, q ≠ p → (s.procs q).atRest

theorem atRest_none {phase : Phase} (h : phase.atRest) : phase.writing = none ∧ phase.claims = none ∧
    phase.writingClaim = none := by
  cases phase <;> first | exact ⟨rfl, rfl, rfl⟩ | cases h

section Solo

variable (hsolo : Solo p s)

include hsolo

theorem Solo.next (hok : allowed s (.next p) = true) : Solo p (s.next p) :=
  ⟨inv_next hsolo.inv hok, fun q hq => by rw [next_procs_of_ne hq]; exact hsolo.rest q hq⟩

theorem Solo.claim_dead (hc : (s.procs p).claims = none) (hwr : (s.procs p).writingClaim = none) {f : File}
    (hf : s.claim = some f) : s.procs f.creator = .dead ∧ (f.raw = .empty ∨ ∃ owner,
      f.raw = serializeServerLockOwner owner ∧ owner.pid = f.creator) := by
  rcases hsolo.inv.claimed f hf with h | h
  · exact h
  · have hn : (s.procs f.creator).writingClaim = none ∧ (s.procs f.creator).claims = none := by
      by_cases hq : f.creator = p
      · rw [hq]
        exact ⟨hwr, hc⟩
      · obtain ⟨-, h1, h2⟩ := atRest_none (hsolo.rest _ hq)
        exact ⟨h2, h1⟩
    rcases h with ⟨owner, h⟩ | ⟨owner, h⟩
    · rw [hn.1] at h
      cases h
    · rw [hn.2] at h
      cases h

theorem Solo.silent {f : File} (hf : s.lock = some f)
    (hd : s.procs f.creator = .dead) : s.responsive = false := by
  unfold State.responsive
  cases s.socket with
  | none => rfl
  | some q =>
    dsimp only
    cases hph : s.procs q with
    | held owner listening =>
      obtain ⟨⟨inode, hl⟩, -⟩ := hsolo.inv.holds q owner (by rw [hph]; rfl)
      rw [congrArg File.creator (Option.some.inj (hf.symm.trans hl)), hph] at hd
      cases hd
    | _ => rfl

end Solo

section Chain

variable {e : LockState} {claim : Owner} {f : File}

theorem leads_writeLock {owner : Owner} {inode : Nat} (hph : s.procs p = .writeLock owner inode) :
    Leads p s (·.Holder p) := by
  refine .after rfl (.now ?_)
  simp only [State.Holder, State.next, hph, move_procs_self]
  rfl

theorem leads_createLock (hph : s.procs p = .createLock) (hl : s.lock = none) : Leads p s (·.Holder p) := by
  have hn : (s.next p).procs p = .writeLock (s.createServerLockOwner p) s.nextInode := by
    simp only [State.next, hph, hl, move_procs_self]
  exact .after rfl (leads_writeLock hn)

theorem leads_dropClaim (hph : s.procs p = .dropClaim none claim) (hl : s.lock = none) :
    Leads p s (·.Holder p) := by
  have hn : s.next p = { s.move p .createLock with claim := none } := by
    simp only [State.next, hph, State.settle]
  exact .after hn (leads_createLock move_procs_self hl)

theorem leads_readOwnClaim (hsolo : Solo p s) (hph : s.procs p = .readOwnClaim claim none) (hl : s.lock = none) :
    Leads p s (·.Holder p) := by
  have hn : s.next p = s.move p (.dropClaim none claim) := by
    simp only [State.next, hph, own_claim hsolo.inv (show (s.procs p).claims = some claim by rw [hph]; rfl), if_true]
  exact .after hn (leads_dropClaim move_procs_self hl)

theorem leads_unlinkLock (hsolo : Solo p s) (hph : s.procs p = .unlinkLock e claim) : Leads p s (·.Holder p) := by
  have hn : s.next p = { s.move p (.readOwnClaim claim none) with lock := none } := by
    simp only [State.next, hph]
  have hp' : (s.next p).procs p = .readOwnClaim claim none := by
    rw [hn]
    exact move_procs_self
  refine .after rfl (leads_readOwnClaim (hsolo.next (by simp only [allowed, hph])) hp' ?_)
  rw [hn]

theorem leads_unlinkSocket (hsolo : Solo p s) (hph : s.procs p = .unlinkSocket e claim) : Leads p s (·.Holder p) := by
  have hn : (s.next p).procs p = .unlinkLock e claim := by simp only [State.next, hph, move_procs_self]
  exact .after rfl (leads_unlinkLock (hsolo.next (by simp only [allowed, hph])) hn)

theorem leads_reprobe (hsolo : Solo p s) (hph : s.procs p = .reprobe e claim) : Leads p s (·.Holder p) := by
  obtain ⟨f, hf, -, hd⟩ := hsolo.inv.seen_dead (p := p) (e := e) (by rw [hph]; rfl)
  have hn : (s.next p).procs p = .unlinkSocket e claim := by
    simp only [State.next, hph, hsolo.silent hf hd, Bool.false_eq_true, if_false, move_procs_self]
  exact .after rfl (leads_unlinkSocket (hsolo.next (by simp only [allowed, hph])) hn)

theorem leads_recheckOwner (hsolo : Solo p s) (hph : s.procs p = .recheckOwner e claim) :
    Leads p s (·.Holder p) := by
  have hd := hsolo.inv.expects p e (by rw [hph]; rfl)
  have hn : (s.next p).procs p = .reprobe e claim := by
    simp only [State.next, hph, hd, Bool.false_eq_true, if_false, move_procs_self]
  exact .after rfl (leads_reprobe (hsolo.next (by simp only [allowed, hph])) hn)

theorem leads_rereadLock (hsolo : Solo p s) (hph : s.procs p = .rereadLock e claim) (hl : s.lock = some f)
    (hr : f.raw = e.raw) : Leads p s (·.Holder p) := by
  obtain ⟨e', hst, -⟩ := state_of_parse (f := f) (hr ▸ e.parsed)
  have hn : (s.next p).procs p = .recheckOwner e' claim := by
    simp only [State.next, hph, hl, hr, ne_eq, not_true_eq_false, if_false, hst, move_procs_self]
  exact .after rfl (leads_recheckOwner (hsolo.next (by simp only [allowed, hph])) hn)

theorem leads_writeClaim {inode : Nat} (hsolo : Solo p s) (hph : s.procs p = .writeClaim e claim inode)
    (hl : s.lock = some f) (hr : f.raw = e.raw) : Leads p s (·.Holder p) := by
  have hn : (s.next p).procs p = .rereadLock e claim ∧ (s.next p).lock = some f := by
    simp only [State.next, hph, move_procs_self]
    exact ⟨trivial, hl⟩
  exact .after rfl (leads_rereadLock (hsolo.next (by simp only [allowed, hph])) hn.1 hn.2 hr)

theorem leads_createClaim (hsolo : Solo p s) (hph : s.procs p = .createClaim e) (hc : s.claim = none)
    (hl : s.lock = some f) (hr : f.raw = e.raw) : Leads p s (·.Holder p) := by
  have hn : (s.next p).procs p = .writeClaim e (s.createServerLockOwner p) s.nextInode ∧ (s.next p).lock = some f := by
    simp only [State.next, hph, hc, move_procs_self]
    exact ⟨trivial, hl⟩
  exact .after rfl (leads_writeClaim (hsolo.next (by simp only [allowed, hph])) hn.1 hn.2 hr)

theorem leads_unlinkClaim (hsolo : Solo p s) (hph : s.procs p = .unlinkClaim e) (hl : s.lock = some f)
    (hr : f.raw = e.raw) : Leads p s (·.Holder p) := by
  have hok : allowed s (.next p) = true := by
    simp only [allowed, hph]
    cases hc : s.claim with
    | none => rfl
    | some g =>
      have hd := (hsolo.claim_dead (by rw [hph]; rfl) (by rw [hph]; rfl) hc).1
      simp only [Option.all_some, hd, decide_true]
  have hn : s.next p = { s.move p (.createClaim e) with claim := none } := by simp only [State.next, hph]
  refine .after rfl (leads_createClaim (hsolo.next hok) ?_ ?_ ?_ hr)
  · rw [hn]
    exact move_procs_self
  · rw [hn]
  · rw [hn]
    exact hl

theorem leads_checkClaim {owner : Owner} (hsolo : Solo p s) (hph : s.procs p = .checkClaim e owner)
    (hd : s.procs owner.pid = .dead) (hl : s.lock = some f) (hr : f.raw = e.raw) : Leads p s (·.Holder p) := by
  have hn : s.next p = s.move p (.unlinkClaim e) := by
    simp only [State.next, hph, State.isLiveProcess, hd, ne_eq, not_true_eq_false, decide_false,
      Bool.false_eq_true, if_false]
  refine .after rfl (leads_unlinkClaim (hsolo.next (by simp only [allowed, hph])) ?_ ?_ hr)
  · rw [hn]
    exact move_procs_self
  · rw [hn]
    exact hl

theorem leads_readClaim (hsolo : Solo p s) (hph : s.procs p = .readClaim e) (hl : s.lock = some f)
    (hr : f.raw = e.raw) : Leads p s (·.Holder p) := by
  have hs' := hsolo.next (by simp only [allowed, hph])
  cases hc : s.claim.bind File.state with
  | none =>
    have hn : s.next p = s.move p (.unlinkClaim e) := by simp only [State.next, hph, hc]
    refine .after rfl (leads_unlinkClaim hs' ?_ ?_ hr)
    · rw [hn]
      exact move_procs_self
    · rw [hn]
      exact hl
  | some c =>
    have hn : s.next p = s.move p (.checkClaim e c.owner) := by simp only [State.next, hph, hc]
    obtain ⟨g, hg, hst⟩ := Option.bind_eq_some_iff.mp hc
    obtain ⟨hd, hraw'⟩ := hsolo.claim_dead (by rw [hph]; rfl) (by rw [hph]; rfl) hg
    have hp := c.parsed
    rw [state_raw hst] at hp
    have hpid : c.owner.pid = g.creator := by
      rcases hraw' with he | ⟨owner, hs, hpid⟩
      · rw [he] at hp
        cases hp
      · rw [hs, serializeServerLockOwner, parseServerLockOwner] at hp
        split at hp
        · rw [← Option.some.inj hp]
          exact hpid
        · cases hp
    have hp' : (s.next p).procs p = .checkClaim e c.owner := by
      rw [hn]
      exact move_procs_self
    refine .after rfl (leads_checkClaim hs' hp' ?_ ?_ hr)
    · have hne : c.owner.pid ≠ p := by
        intro h
        rw [hpid.symm.trans h, hph] at hd
        cases hd
      rw [next_procs_of_ne hne, hpid]
      exact hd
    · rw [hn]
      exact hl

theorem leads_claim (hsolo : Solo p s) (hph : s.procs p = .createClaim e) (hl : s.lock = some f)
    (hr : f.raw = e.raw) : Leads p s (·.Holder p) := by
  cases hc : s.claim with
  | none => exact leads_createClaim hsolo hph hc hl hr
  | some g =>
    have hn : s.next p = s.move p (.readClaim e) := by simp only [State.next, hph, hc]
    refine .after rfl (leads_readClaim (hsolo.next (by simp only [allowed, hph])) ?_ ?_ hr)
    · rw [hn]
      exact move_procs_self
    · rw [hn]
      exact hl

theorem leads_probe (hsolo : Solo p s) (hph : s.procs p = .probe e) (hl : s.lock = some f) (hr : f.raw = e.raw)
    (hd : s.procs f.creator = .dead) : Leads p s (·.Holder p) := by
  have hn : s.next p = s.move p (.createClaim e) := by
    simp only [State.next, hph, hsolo.silent hl hd, Bool.false_eq_true, if_false]
  refine .after rfl (leads_claim (hsolo.next (by simp only [allowed, hph])) ?_ ?_ hr)
  · rw [hn]
    exact move_procs_self
  · rw [hn]
    exact hl

def Settled (p : Pid) (s : State) : Prop :=
  s.Holder p ∨ ∃ owner, s.procs p = .failed (.alreadyRunning owner) ∧ s.Holder owner.pid

theorem Leads.settled (h : Leads p s (·.Holder p)) : Leads p s (Settled p) := by
  obtain ⟨n, hn⟩ := h
  exact ⟨n, Or.inl hn⟩

theorem leads_checkOwner (hsolo : Solo p s) (hph : s.procs p = .checkOwner e) (hl : s.lock = some f)
    (hr : f.raw = e.raw) : Leads p s (Settled p) := by
  have hrs : (s.procs f.creator).writing = none := by
    by_cases hq : f.creator = p
    · rw [hq, hph]
      rfl
    · exact (atRest_none (hsolo.rest _ hq)).1
  rcases hsolo.inv.locked f hl with ⟨owner, hwr⟩ | ⟨owner, hs, hm, hc⟩
  · rw [hrs] at hwr
    cases hwr
  · have hown : e.owner = owner := by
      have hp := e.parsed
      rw [← hr, hs, hm.parse] at hp
      exact (Option.some.inj hp).symm
    have hal : s.isLockOwnerAlive e.owner = s.isLiveProcess f.creator := by rw [hown, hm.alive]
    rcases hc with hd | hhd
    · have hn : s.next p = s.move p (.probe e) := by
        simp only [State.next, hph, hal, State.isLiveProcess, hd, ne_eq, not_true_eq_false, decide_false,
          Bool.false_eq_true, if_false]
      have hne : f.creator ≠ p := by
        intro h
        rw [h, hph] at hd
        cases hd
      refine .settled (.after rfl (leads_probe (hsolo.next (by simp only [allowed, hph])) ?_ ?_ hr ?_))
      · rw [hn]
        exact move_procs_self
      · rw [hn]
        exact hl
      · rw [next_procs_of_ne hne]
        exact hd
    · have hn : s.next p = s.move p (.failed (.alreadyRunning e.owner)) := by
        simp only [State.next, hph, hal, live_of_ne (holds_live hhd), if_true]
      have hne : f.creator ≠ p := by
        intro h
        rw [h, hph] at hhd
        cases hhd
      refine .after hn (.now (Or.inr ⟨e.owner, move_procs_self, ?_⟩))
      rw [hown, hm.1, State.Holder, move_procs_of_ne hne, hhd]
      rfl

theorem leads_readLock (hsolo : Solo p s) (hph : s.procs p = .readLock) (hl : s.lock = some f) :
    Leads p s (Settled p) := by
  have hr : (s.procs f.creator).writing = none := by
    by_cases hq : f.creator = p
    · rw [hq, hph]
      rfl
    · exact (atRest_none (hsolo.rest _ hq)).1
  rcases hsolo.inv.locked f hl with ⟨owner, hwr⟩ | ⟨owner, hs, hm, -⟩
  · rw [hr] at hwr
    cases hwr
  · obtain ⟨e, hst, -⟩ := state_of_parse (f := f) (hs ▸ hm.parse)
    have hn : s.next p = s.move p (.checkOwner e) := by simp only [State.next, hph, hl, hst]
    refine .after rfl (leads_checkOwner (e := e) (f := f) (hsolo.next (by simp only [allowed, hph])) ?_ ?_ ?_)
    · rw [hn]
      exact move_procs_self
    · rw [hn]
      exact hl
    · exact (state_raw hst).symm

theorem leads_acquire (hsolo : Solo p s) (hph : s.procs p = .createLock) : Leads p s (Settled p) := by
  cases hl : s.lock with
  | none => exact (leads_createLock hph hl).settled
  | some f =>
    have hn : s.next p = s.move p .readLock := by simp only [State.next, hph, hl]
    refine .after rfl (leads_readLock (f := f) (hsolo.next (by simp only [allowed, hph])) ?_ ?_)
    · rw [hn]
      exact move_procs_self
    · rw [hn]
      exact hl

end Chain

theorem Inv.sole (hi : Inv s) : Sole s where
  one := fun p q => hi.one
  kept := fun p hh => by
    refine ⟨?_, fun a ha => hi.step_lock hh ha⟩
    obtain ⟨owner, hhd⟩ := Option.isSome_iff_exists.mp hh
    obtain ⟨⟨inode, hlc⟩, -⟩ := hi.holds p owner hhd
    rw [hlc]
    rfl
  started := by
    intro p hp hr hl hf
    have hs : step (.acquire p) s = s.move p .createLock := by
      have har := hr p
      simp only [step]
      cases hph : s.procs p with
      | idle | failed => exact if_pos hp
      | dead => exact absurd hph hl
      | held owner listening => exact absurd (by rw [State.Holder, hph]; rfl) hf
      | _ =>
        rw [hph] at har
        cases har
    have hsolo : Solo p (step (.acquire p) s) := by
      refine ⟨inv_step hi rfl, fun q hq => ?_⟩
      rw [hs, move_procs_of_ne hq]
      exact hr q
    obtain ⟨n, hn⟩ := leads_acquire hsolo (by rw [hs]; exact move_procs_self)
    exact ⟨n, hn⟩

/-- In every run that unlinks no live process's claim and loses no process between the creation of the lock and its
write, one daemon at most holds the runtime root, nobody else unlinks its lock, and a start that runs alone ends. -/
theorem sole_of_allowed {boot : Int} (before after : List Action)
    (hallowed : Meets step (fun s a => allowed s a = true) (before ++ after) (State.start boot)) :
    Sole (run step before (State.start boot)) :=
  (run_invariant (I := Inv) (fun _ _ h hok => inv_step h hok) (inv_start boot) (meets_append.mp hallowed).1).sole

def restarted : List Action :=
  [.acquire 1, .next 1, .next 1, .crash 1, .acquire 2] ++ List.replicate 15 (.next 2)

theorem sole_of_allowed_restarted :
    (run step restarted (State.start 0)).procs 2 = .held ⟨2, some 0⟩ false ∧ Sole (run step restarted (State.start 0)) := by
  refine ⟨by decide +kernel, ?_⟩
  exact sole_of_allowed restarted [] (show Meets step (fun s a => allowed s a = true) (restarted ++ []) (State.start 0) by
    decide +kernel)

/-- Two starts over the lock of a crashed daemon: the third process takes the claim of the second for a dead one's,
before it is written, and later unlinks the lock of the second. -/
def overlapping : List Action :=
  [.acquire 1, .next 1, .next 1, .crash 1, .acquire 2, .next 2, .next 2, .next 2, .next 2, .acquire 3, .next 3, .next 3,
    .next 3, .next 3, .next 2] ++ List.replicate 9 (.next 3) ++ List.replicate 9 (.next 2) ++ List.replicate 5 (.next 3)

def Phase.ran : Phase → Bool
  | .failed (.alreadyRunning _) => true
  | _ => false

theorem phase_ne {phase : Phase} (h : phase.ran = false) {owner : Owner} :
    ¬ phase = .failed (.alreadyRunning owner) := by
  rintro rfl
  cases h

theorem run_stuck {n : Nat} (h : s.next p = s) : run step (List.replicate n (.next p)) s = s := by
  induction n with
  | zero => rfl
  | succ n ih => exact (congrArg (run step (List.replicate n (.next p))) h).trans ih

/-- Two daemons hold the root; and after a crash before the write of the lock no start succeeds. -/
theorem sole_fails :
    ((run step overlapping (State.start 0)).Holder 2 ∧ (run step overlapping (State.start 0)).Holder 3) ∧
      ¬ Sole (run step [.acquire 1, .next 1, .crash 1] (State.start 0)) := by
  refine ⟨⟨by decide +kernel, by decide +kernel⟩, fun h => ?_⟩
  let s : State := run step [.acquire 1, .next 1, .crash 1] (State.start 0)
  have hf : (alone 2 2 s).procs 2 = .failed .malformed := by decide +kernel
  have hst : (alone 2 2 s).next 2 = alone 2 2 s := by
    unfold State.next
    rw [hf]
  have hu : ¬ Settled 2 (alone 2 0 s) ∧ ¬ Settled 2 (alone 2 1 s) ∧ ¬ Settled 2 (alone 2 2 s) := by
    refine ⟨?_, ?_, ?_⟩
    all_goals
      rintro (hh | ⟨owner, hph, -⟩)
      · exact absurd hh (by decide +kernel)
      · revert hph
        exact phase_ne (by decide +kernel)
  have hr (q : Pid) : (s.procs q).atRest = true := by
    by_cases hq : q = 1
    · subst hq
      decide +kernel
    · have hi : s.procs q = .idle := by
        rw [show s.procs q = (run step [.acquire 1, .next 1] (State.start 0)).procs q from move_procs_of_ne hq]
        rw [show (run step [.acquire 1, .next 1] (State.start 0)).procs q =
          (run step [.acquire 1] (State.start 0)).procs q from move_procs_of_ne hq]
        exact move_procs_of_ne hq
      rw [hi]
      rfl
  obtain ⟨n, hn⟩ := h.started 2 (by decide) hr (by decide +kernel) (by decide +kernel)
  have hs : Settled 2 (alone 2 n s) := hn
  rcases n with _ | _ | n
  · exact hu.1 hs
  · exact hu.2.1 hs
  · have hrun : alone 2 (n + 2) s = alone 2 2 s := run_stuck hst
    rw [hrun] at hs
    exact hu.2.2 hs

end HrcRuntime.ServerLock
