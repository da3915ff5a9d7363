import HrcRuntime.ServerLockSafety

namespace HrcRuntime.ServerLock

variable {s : State} {p : Pid}

theorem inv_start (boot : Int) : Inv (State.start boot) where
  clock := Int.le_refl boot
  started := fun _ h => absurd rfl h
  writing := fun _ _ _ h => by cases h
  holds := fun _ _ h => by cases h
  writingClaim := fun _ _ _ h => by cases h
  claims := fun _ _ h => by cases h
  expects := fun _ _ h => by cases h
  seen := fun _ _ h => by cases h
  locked := fun _ h => by cases h
  claimed := fun _ h => by cases h

theorem inv_socket {s' : State} (hi : Inv s) (hp : s'.procs = s.procs)
    (hf : s'.lock = s.lock ∧ s'.claim = s.claim ∧ s'.boot = s.boot ∧ s'.now = s.now) : Inv s' := by
  obtain ⟨procs, lock, claim, socket, nextInode, now, boot⟩ := s
  obtain ⟨procs', lock', claim', socket', nextInode', now', boot'⟩ := s'
  obtain ⟨hl, hc, hbt, hn⟩ := hf
  dsimp only at hp hl hc hbt hn
  subst hp hl hc hbt hn
  exact ⟨hi.clock, hi.started, hi.writing, hi.holds, hi.writingClaim, hi.claims, hi.expects, hi.seen,
    hi.locked, hi.claimed⟩

section Next

variable {old phase : Phase}

theorem inv_plain (hi : Inv s) (hph : s.procs p = old) (hact : old ≠ .idle ∧ old ≠ .dead)
    (hd : phase ≠ .dead) (hhd : phase.holds = old.holds) (hc : phase.claims = old.claims)
    (hwr : phase.writing = old.writing) (hwc : phase.writingClaim = old.writingClaim)
    (he : phase.expects = none) (hs : phase.seen = none) : Inv (s.move p phase) := by
  refine inv_moved hi hph hact hd hhd hc hwr hwc (fun e h => ?_) fun e h => ?_
  · rw [he] at h
    cases h
  · rw [hs] at h
    cases h

theorem inv_onward (hi : Inv s) (hph : s.procs p = old) (hact : old ≠ .idle ∧ old ≠ .dead)
    (hd : phase ≠ .dead) (hhd : phase.holds = old.holds) (hc : phase.claims = old.claims)
    (hwr : phase.writing = old.writing) (hwc : phase.writingClaim = old.writingClaim)
    (he : phase.expects = old.expects) (hs : phase.seen = old.seen) : Inv (s.move p phase) := by
  refine inv_moved hi hph hact hd hhd hc hwr hwc (fun e h => ?_) fun e h => ?_
  · exact hi.expects p e (by rw [hph, ← he]; exact h)
  · exact hi.seen p e (by rw [hph, ← hs]; exact h)

theorem own_claim (hi : Inv s) {claim : Owner} (h : (s.procs p).claims = some claim) :
    ((s.claim.bind File.state).any fun currentLock => currentLock.owner = claim) = true := by
  obtain ⟨⟨inode, hc⟩, hm⟩ := hi.claims p claim h
  obtain ⟨e, hst, hown⟩ := state_of_parse (f := ⟨inode, serializeServerLockOwner claim, p⟩) hm.parse
  rw [hc, Option.bind_some, hst, Option.any_some, hown]
  exact decide_eq_true rfl

theorem own_lock (hi : Inv s) {owner : Owner} (h : (s.procs p).holds = some owner) :
    ((s.lock.bind File.state).any fun currentLock => currentLock.owner = owner) = true := by
  obtain ⟨⟨inode, hl⟩, hm⟩ := hi.holds p owner h
  obtain ⟨e, hst, hown⟩ := state_of_parse (f := ⟨inode, serializeServerLockOwner owner, p⟩) hm.parse
  rw [hl, Option.bind_some, hst, Option.any_some, hown]
  exact decide_eq_true rfl

theorem inv_next (hi : Inv s) (hok : allowed s (.next p) = true) : Inv (s.next p) := by
  unfold State.next
  cases hph : s.procs p with
  | idle | dead | failed | held => exact hi
  | createLock =>
    dsimp only
    cases hl : s.lock with
    | none => exact inv_createLock hi hph hl
    | some f => exact inv_plain hi hph (by simp) (by simp) rfl rfl rfl rfl rfl rfl
  | writeLock owner inode => exact inv_writeLock hi hph
  | readLock =>
    dsimp only
    cases hl : s.lock with
    | none => exact inv_plain hi hph (by simp) (by simp) rfl rfl rfl rfl rfl rfl
    | some f =>
      dsimp only
      split
      · exact inv_plain hi hph (by simp) (by simp) rfl rfl rfl rfl rfl rfl
      · exact inv_plain hi hph (by simp) (by simp) rfl rfl rfl rfl rfl rfl
  | checkOwner e =>
    dsimp only
    split
    · exact inv_plain hi hph (by simp) (by simp) rfl rfl rfl rfl rfl rfl
    · rename_i hd
      refine inv_moved hi hph (by simp) (by simp) rfl rfl rfl rfl (fun e' h => ?_) fun _ h => by cases h
      cases h
      exact Bool.eq_false_iff.mpr hd
  | probe e =>
    dsimp only
    split
    · exact inv_plain hi hph (by simp) (by simp) rfl rfl rfl rfl rfl rfl
    · exact inv_onward hi hph (by simp) (by simp) rfl rfl rfl rfl rfl rfl
  | createClaim e =>
    dsimp only
    cases hc : s.claim with
    | none => exact inv_createClaim hi hph hc
    | some f => exact inv_onward hi hph (by simp) (by simp) rfl rfl rfl rfl rfl rfl
  | writeClaim e claim inode => exact inv_writeClaim hi hph
  | readClaim e =>
    dsimp only
    split
    · exact inv_onward hi hph (by simp) (by simp) rfl rfl rfl rfl rfl rfl
    · exact inv_onward hi hph (by simp) (by simp) rfl rfl rfl rfl rfl rfl
  | checkClaim e owner =>
    dsimp only
    split
    · exact inv_onward hi hph (by simp) (by simp) rfl rfl rfl rfl rfl rfl
    · exact inv_onward hi hph (by simp) (by simp) rfl rfl rfl rfl rfl rfl
  | unlinkClaim e =>
    refine inv_unlinkClaim hi hph fun f hf => ?_
    simp only [allowed, hph, hf, Option.all_some, decide_eq_true_eq] at hok
    exact hok
  | rereadLock e claim =>
    dsimp only
    cases hl : s.lock with
    | none => exact inv_plain hi hph (by simp) (by simp) rfl rfl rfl rfl rfl rfl
    | some f =>
      dsimp only
      split
      · exact inv_plain hi hph (by simp) (by simp) rfl rfl rfl rfl rfl rfl
      · rename_i hs
        split
        · exact inv_plain hi hph (by simp) (by simp) rfl rfl rfl rfl rfl rfl
        · rename_i e' hst
          have hd := hi.expects p e (by rw [hph]; rfl)
          have hr := state_raw hst
          have hown : e'.owner = e.owner := by
            have hp := e'.parsed
            rw [hr, not_not.mp hs, e.parsed] at hp
            exact (Option.some.inj hp).symm
          refine inv_moved hi hph (by simp) (by simp) rfl rfl rfl rfl (fun e'' h => ?_) fun e'' h => ?_
          · cases h
            rw [hown]
            exact hd
          · cases h
            exact ⟨f, hl, hr.symm⟩
  | recheckOwner e claim =>
    dsimp only
    split
    · exact inv_plain hi hph (by simp) (by simp) rfl rfl rfl rfl rfl rfl
    · exact inv_onward hi hph (by simp) (by simp) rfl rfl rfl rfl rfl rfl
  | reprobe e claim =>
    dsimp only
    split
    · exact inv_plain hi hph (by simp) (by simp) rfl rfl rfl rfl rfl rfl
    · exact inv_onward hi hph (by simp) (by simp) rfl rfl rfl rfl rfl rfl
  | unlinkSocket e claim =>
    have hm : Inv (s.move p (.unlinkLock e claim)) :=
      inv_onward hi hph (by simp) (by simp) rfl rfl rfl rfl rfl rfl
    exact inv_socket hm rfl ⟨rfl, rfl, rfl, rfl⟩
  | unlinkLock e claim => exact inv_unlinkLock hi hph
  | readOwnClaim claim failure =>
    dsimp only
    rw [if_pos (own_claim hi (by rw [hph]; rfl))]
    exact inv_plain hi hph (by simp) (by simp) rfl rfl rfl rfl rfl rfl
  | dropClaim failure claim => exact inv_dropClaim hi hph
  | cleanupSocket owner =>
    have hm : Inv (s.move p (.readOwnLock owner)) :=
      inv_plain hi hph (by simp) (by simp) rfl rfl rfl rfl rfl rfl
    exact inv_socket hm rfl ⟨rfl, rfl, rfl, rfl⟩
  | readOwnLock owner =>
    dsimp only
    rw [if_pos (own_lock hi (by rw [hph]; rfl))]
    exact inv_plain hi hph (by simp) (by simp) rfl rfl rfl rfl rfl rfl
  | dropLock owner => exact inv_dropLock hi hph

end Next

section Steps

/-- A crash outside the write of the lock leaves every file to a dead process. -/
theorem inv_crash (hinv : Inv s) (hok : (s.procs p).writing = none) : Inv (s.move p .dead) := by
  have hoth (q : Pid) (h : q ≠ p) : (s.move p .dead).procs q = s.procs q := move_procs_of_ne h
  have hn {β : Type} (g : Phase → Option β) (hg : g .dead = none) (q : Pid) {b : β}
      (h : g ((s.move p .dead).procs q) = some b) : g (s.procs q) = some b := by
    by_cases hq : q = p
    · rw [hq, move_procs_self, hg] at h
      cases h
    · rw [hoth q hq] at h
      exact h
  have hds (q : Pid) (h : s.procs q = .dead) : (s.move p .dead).procs q = .dead := by
    by_cases hq : q = p
    · rw [hq, move_procs_self]
    · rw [hoth q hq]
      exact h
  constructor
  · exact hinv.clock
  · intro q hi hd
    have hq : q ≠ p := by
      rintro rfl
      exact hd move_procs_self
    rw [hoth q hq] at hi hd
    exact hinv.started q hi hd
  · exact fun q owner inode h => hinv.writing q owner inode (hn _ rfl q h)
  · exact fun q owner h => hinv.holds q owner (hn _ rfl q h)
  · exact fun q owner inode h => hinv.writingClaim q owner inode (hn _ rfl q h)
  · exact fun q owner h => hinv.claims q owner (hn _ rfl q h)
  · intro q e h
    have hdd := hinv.expects q e (hn _ rfl q h)
    unfold State.isLockOwnerAlive at hdd ⊢
    split at hdd
    · rename_i he
      exact if_pos he
    · rename_i he
      refine (if_neg he).trans (decide_eq_false (not_not.mpr (hds _ ?_)))
      simpa [State.isLiveProcess] using hdd
  · exact fun q e h => hinv.seen q e (hn _ rfl q h)
  · intro f hf
    by_cases hcr : f.creator = p
    · rcases hinv.locked f hf with ⟨owner, h⟩ | ⟨owner, hr, hm, -⟩
      · rw [hcr, hok] at h
        cases h
      · exact Or.inr ⟨owner, hr, hm, Or.inl (by rw [hcr, move_procs_self])⟩
    · rw [hoth _ hcr]
      exact hinv.locked f hf
  · intro f hf
    by_cases hcr : f.creator = p
    · refine Or.inl ⟨by rw [hcr, move_procs_self], ?_⟩
      rcases hinv.claimed f hf with ⟨-, h⟩ | ⟨owner, h⟩ | ⟨owner, h⟩
      · exact h
      · exact Or.inl (congrArg File.raw (Option.some.inj (hf.symm.trans (hinv.writingClaim _ _ _ h).1)))
      · obtain ⟨⟨inode, hc⟩, hm⟩ := hinv.claims _ _ h
        exact Or.inr ⟨owner, congrArg File.raw (Option.some.inj (hf.symm.trans hc)), hm.1⟩
    · rw [hoth _ hcr]
      exact hinv.claimed f hf

theorem inv_step (hi : Inv s) {a : Action} (hok : allowed s a = true) : Inv (step a s) := by
  cases a with
  | acquire p =>
    simp only [step]
    split
    · rename_i hph
      split
      · rename_i hp
        exact inv_move hi rfl ⟨rfl, rfl, rfl, rfl⟩ (by rw [hph]; simp) hp (by simp) (by rw [hph]; rfl)
          (by rw [hph]; rfl) (by rw [hph]; rfl) (by rw [hph]; rfl) (fun _ h => by cases h) fun _ h => by cases h
      · exact hi
    · rename_i hph
      split
      · exact inv_plain hi hph (by simp) (by simp) rfl rfl rfl rfl rfl rfl
      · exact hi
    · exact hi
  | next p => exact inv_next hi hok
  | listen p =>
    simp only [step]
    split
    · rename_i owner hph
      split
      · exact hi
      · have hm : Inv (s.move p (.held owner true)) :=
          inv_plain hi hph (by simp) (by simp) rfl rfl rfl rfl rfl rfl
        exact inv_socket hm rfl ⟨rfl, rfl, rfl, rfl⟩
    · exact hi
  | cleanupFailedStartup p shouldCleanupSocket =>
    simp only [step]
    split
    · rename_i hph
      split
      · exact inv_plain hi hph (by simp) (by simp) rfl rfl rfl rfl rfl rfl
      · exact inv_plain hi hph (by simp) (by simp) rfl rfl rfl rfl rfl rfl
    · exact hi
  | releaseServerLock p =>
    simp only [step]
    split
    · rename_i hph
      exact inv_plain hi hph (by simp) (by simp) rfl rfl rfl rfl rfl rfl
    · exact hi
  | crash p =>
    refine inv_crash hi ?_
    cases hph : s.procs p with
    | writeLock owner inode =>
      rw [allowed, hph] at hok
      cases hok
    | _ => rfl
  | tick ms =>
    have hc := hi.clock
    refine ⟨?_, hi.started, hi.writing, hi.holds, hi.writingClaim, hi.claims, hi.expects, hi.seen,
      hi.locked, hi.claimed⟩
    simp only [step]
    omega

theorem next_procs_of_ne {q : Pid} (h : q ≠ p) : (s.next p).procs q = s.procs q := by
  have hs (failure : Option Failure) : (s.settle p failure).procs q = s.procs q := by
    cases failure <;> exact move_procs_of_ne h
  unfold State.next
  split <;> (try split) <;> (try split) <;> (try split) <;>
    first | rfl | exact move_procs_of_ne h | exact hs _

end Steps

end HrcRuntime.ServerLock
