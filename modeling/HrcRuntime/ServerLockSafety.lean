import HrcRuntime.ServerLock

namespace HrcRuntime.ServerLock

namespace Phase

def writing : Phase → Option (Owner × Nat)
  | .writeLock owner inode => some (owner, inode)
  | _ => none

def writingClaim : Phase → Option (Owner × Nat)
  | .writeClaim _ claim inode => some (claim, inode)
  | _ => none

/-- The written claim of a process in `clearStaleServerState`. -/
def claims : Phase → Option Owner
  | .rereadLock _ claim | .recheckOwner _ claim | .reprobe _ claim | .unlinkSocket _ claim | .unlinkLock _ claim
  | .readOwnClaim claim _ | .dropClaim _ claim => some claim
  | _ => none

def expects : Phase → Option LockState
  | .probe e | .createClaim e | .writeClaim e _ _ | .readClaim e | .checkClaim e _ | .unlinkClaim e | .rereadLock e _
  | .recheckOwner e _ | .reprobe e _ | .unlinkSocket e _ | .unlinkLock e _ => some e
  | _ => none

def seen : Phase → Option LockState
  | .recheckOwner e _ | .reprobe e _ | .unlinkSocket e _ | .unlinkLock e _ => some e
  | _ => none

end Phase

def Mine (s : State) (p : Pid) (owner : Owner) : Prop := owner.pid = p ∧ 0 < p ∧ s.early owner = false

structure Inv (s : State) : Prop where
  clock : s.boot ≤ s.now
  started : ∀ p, s.procs p ≠ .idle → s.procs p ≠ .dead → 0 < p
  writing : ∀ p owner inode, (s.procs p).writing = some (owner, inode) →
    s.lock = some ⟨inode, .empty, p⟩ ∧ Mine s p owner
  holds : ∀ p owner, (s.procs p).holds = some owner →
    (∃ inode, s.lock = some ⟨inode, serializeServerLockOwner owner, p⟩) ∧ Mine s p owner
  writingClaim : ∀ p owner inode, (s.procs p).writingClaim = some (owner, inode) →
    s.claim = some ⟨inode, .empty, p⟩ ∧ Mine s p owner
  claims : ∀ p owner, (s.procs p).claims = some owner →
    (∃ inode, s.claim = some ⟨inode, serializeServerLockOwner owner, p⟩) ∧ Mine s p owner
  expects : ∀ p e, (s.procs p).expects = some e → s.isLockOwnerAlive e.owner = false
  seen : ∀ p e, (s.procs p).seen = some e → ∃ f, s.lock = some f ∧ f.raw = e.raw
  locked : ∀ f, s.lock = some f → (∃ owner, (s.procs f.creator).writing = some (owner, f.inode)) ∨
    ∃ owner, f.raw = serializeServerLockOwner owner ∧ Mine s f.creator owner ∧
      (s.procs f.creator = .dead ∨ (s.procs f.creator).holds = some owner)
  claimed : ∀ f, s.claim = some f → s.procs f.creator = .dead ∧ (f.raw = .empty ∨ ∃ owner,
      f.raw = serializeServerLockOwner owner ∧ owner.pid = f.creator) ∨
    (∃ owner, (s.procs f.creator).writingClaim = some (owner, f.inode)) ∨
    ∃ owner, (s.procs f.creator).claims = some owner

section Facts

variable {s : State} {p q : Pid} {owner : Owner}

theorem parse_serialize (h : 0 < owner.pid) : parseServerLockOwner (serializeServerLockOwner owner) = some owner := by
  simp only [serializeServerLockOwner, parseServerLockOwner, if_pos h]

theorem Mine.parse (h : Mine s p owner) : parseServerLockOwner (serializeServerLockOwner owner) = some owner :=
  parse_serialize (by rw [h.1]; exact h.2.1)

theorem Mine.alive (h : Mine s p owner) : s.isLockOwnerAlive owner = s.isLiveProcess p := by
  simp only [State.isLockOwnerAlive, h.2.2, h.1, Bool.false_eq_true, if_false]

variable {e : LockState}

theorem state_raw {f : File} (h : f.state = some e) : e.raw = f.raw := by
  unfold File.state at h
  split at h
  · cases h
  · cases h
    rfl

theorem state_of_parse {f : File} (h : parseServerLockOwner f.raw = some owner) :
    ∃ e, f.state = some e ∧ e.owner = owner := by
  cases hst : f.state with
  | none =>
    unfold File.state at hst
    split at hst
    · rename_i hn
      rw [h] at hn
      cases hn
    · cases hst
  | some e =>
    have hp := e.parsed
    rw [state_raw hst, h] at hp
    exact ⟨e, rfl, (Option.some.inj hp).symm⟩

theorem live_of_ne (h : s.procs p ≠ .dead) : s.isLiveProcess p = true := decide_eq_true h

theorem holds_live (h : (s.procs p).holds = some owner) : s.procs p ≠ .dead := by
  intro hd
  rw [hd] at h
  cases h

theorem writing_live {o : Owner × Nat} (h : (s.procs p).writing = some o) : s.procs p ≠ .dead := by
  intro hd
  rw [hd] at h
  cases h

theorem claims_live (h : (s.procs p).claims = some owner) : s.procs p ≠ .dead := by
  intro hd
  rw [hd] at h
  cases h

theorem writingClaim_live {o : Owner × Nat} (h : (s.procs p).writingClaim = some o) : s.procs p ≠ .dead := by
  intro hd
  rw [hd] at h
  cases h

theorem seen_expects {phase : Phase} (h : phase.seen = some e) : phase.expects = some e := by
  cases phase <;> first | exact h | cases h

theorem seen_claims {phase : Phase} (h : phase.seen = some e) : ∃ owner, phase.claims = some owner := by
  cases phase <;> first | exact ⟨_, rfl⟩ | cases h

theorem Inv.seen_dead (hinv : Inv s) (h : (s.procs p).seen = some e) :
    ∃ f, s.lock = some f ∧ f.raw = e.raw ∧ s.procs f.creator = .dead := by
  obtain ⟨f, hf, hr⟩ := hinv.seen p e h
  have hp := e.parsed
  have hd := hinv.expects p e (seen_expects h)
  refine ⟨f, hf, hr, ?_⟩
  rcases hinv.locked f hf with ⟨owner, hwr⟩ | ⟨owner, hraw', hm, hd' | hhd⟩
  · have he := (hinv.writing _ _ _ hwr).1
    have hfl := congrArg File.raw (Option.some.inj (hf.symm.trans he))
    rw [← hr, hfl] at hp
    cases hp
  · exact hd'
  · rw [← hr, hraw', hm.parse] at hp
    rw [← Option.some.inj hp, hm.alive, live_of_ne (holds_live hhd)] at hd
    cases hd

theorem Inv.one (hinv : Inv s) (hp : s.Holder p) (hq : s.Holder q) : p = q := by
  obtain ⟨o, ho⟩ := Option.isSome_iff_exists.mp hp
  obtain ⟨o', ho'⟩ := Option.isSome_iff_exists.mp hq
  obtain ⟨⟨i, hi⟩, -⟩ := hinv.holds p o ho
  obtain ⟨⟨j, hj⟩, -⟩ := hinv.holds q o' ho'
  exact congrArg File.creator (Option.some.inj (hi.symm.trans hj))

end Facts

section Moves

variable {s : State} {p : Pid} {phase : Phase}

@[simp] theorem move_procs_self : (s.move p phase).procs p = phase := Function.update_self ..

theorem move_procs_of_ne {q : Pid} (h : q ≠ p) : (s.move p phase).procs q = s.procs q := Function.update_of_ne h ..

variable {s' : State}

theorem alive_congr (hbt : s'.boot = s.boot) (hd : ∀ q, s'.procs q = .dead ↔ s.procs q = .dead)
    (owner : Owner) : s'.isLockOwnerAlive owner = s.isLockOwnerAlive owner := by
  have hl : s'.isLiveProcess owner.pid = s.isLiveProcess owner.pid := by
    simp only [State.isLiveProcess, ne_eq, hd]
  unfold State.isLockOwnerAlive State.early
  rw [hbt, hl]

structure Backed (s : State) (lock claim : Option File) (p : Pid) (phase : Phase) : Prop where
  writing : ∀ owner inode, phase.writing = some (owner, inode) → lock = some ⟨inode, .empty, p⟩ ∧ Mine s p owner
  holds : ∀ owner, phase.holds = some owner →
    (∃ inode, lock = some ⟨inode, serializeServerLockOwner owner, p⟩) ∧ Mine s p owner
  writingClaim : ∀ owner inode, phase.writingClaim = some (owner, inode) →
    claim = some ⟨inode, .empty, p⟩ ∧ Mine s p owner
  claims : ∀ owner, phase.claims = some owner →
    (∃ inode, claim = some ⟨inode, serializeServerLockOwner owner, p⟩) ∧ Mine s p owner
  expects : ∀ e, phase.expects = some e → s.isLockOwnerAlive e.owner = false
  seen : ∀ e, phase.seen = some e → ∃ f, lock = some f ∧ f.raw = e.raw

/-- A step of one process, which takes no file from another that rests on it. -/
theorem inv_change (hinv : Inv s) (hpr : s'.procs = Function.update s.procs p phase)
    (hclk : s'.boot = s.boot ∧ s'.now = s.now) (hl : s.procs p ≠ .dead) (hp : 0 < p) (hdd : phase ≠ .dead)
    (hba : Backed s s'.lock s'.claim p phase)
    (hlc : ∀ f, s.lock = some f → (∃ q, q ≠ p ∧ (f.creator = q ∧ s.procs q ≠ .dead ∨ (s.procs q).seen.isSome)) →
      s'.lock = some f)
    (hclm : ∀ f, s.claim = some f → f.creator ≠ p → s.procs f.creator ≠ .dead → s'.claim = some f)
    (hloc : ∀ f, s'.lock = some f → f.creator ≠ p ∧ s.lock = some f ∨ f.creator = p ∧
      ((∃ owner, phase.writing = some (owner, f.inode)) ∨
        ∃ owner, f.raw = serializeServerLockOwner owner ∧ Mine s p owner ∧ phase.holds = some owner))
    (hc : ∀ f, s'.claim = some f → f.creator ≠ p ∧ s.claim = some f ∨ f.creator = p ∧
      ((∃ owner, phase.writingClaim = some (owner, f.inode)) ∨ ∃ owner, phase.claims = some owner)) : Inv s' := by
  obtain ⟨hbt, hn⟩ := hclk
  have hs : s'.procs p = phase := by rw [hpr, Function.update_self]
  have hoth (q : Pid) (h : q ≠ p) : s'.procs q = s.procs q := by rw [hpr, Function.update_of_ne h]
  have hd' (q : Pid) : s'.procs q = .dead ↔ s.procs q = .dead := by
    by_cases h : q = p
    · rw [h, hs]
      exact ⟨fun hd => absurd hd hdd, fun hd => absurd hd hl⟩
    · rw [hoth q h]
  have hmn (q : Pid) (owner : Owner) : Mine s' q owner ↔ Mine s q owner := by
    simp only [Mine, State.early, hbt]
  have hal := alive_congr hbt hd'
  have hk (q : Pid) (h : q ≠ p) {f : File} (hf : s.lock = some f) (hcr : f.creator = q)
      (hd : s.procs q ≠ .dead) : s'.lock = some f := hlc f hf ⟨q, h, Or.inl ⟨hcr, hd⟩⟩
  constructor
  · rw [hbt, hn]
    exact hinv.clock
  · intro q hi hd
    by_cases h : q = p
    · rw [h]
      exact hp
    · rw [hoth q h] at hi hd
      exact hinv.started q hi hd
  · intro q owner inode h
    rw [hmn]
    by_cases hq : q = p
    · rw [hq, hs] at h
      exact hq ▸ hba.writing owner inode h
    · rw [hoth q hq] at h
      obtain ⟨hf, hm⟩ := hinv.writing q owner inode h
      exact ⟨hk q hq hf rfl (writing_live h), hm⟩
  · intro q owner h
    rw [hmn]
    by_cases hq : q = p
    · rw [hq, hs] at h
      exact hq ▸ hba.holds owner h
    · rw [hoth q hq] at h
      obtain ⟨⟨inode, hf⟩, hm⟩ := hinv.holds q owner h
      exact ⟨⟨inode, hk q hq hf rfl (holds_live h)⟩, hm⟩
  · intro q owner inode h
    rw [hmn]
    by_cases hq : q = p
    · rw [hq, hs] at h
      exact hq ▸ hba.writingClaim owner inode h
    · rw [hoth q hq] at h
      obtain ⟨hf, hm⟩ := hinv.writingClaim q owner inode h
      exact ⟨hclm _ hf hq (writingClaim_live h), hm⟩
  · intro q owner h
    rw [hmn]
    by_cases hq : q = p
    · rw [hq, hs] at h
      exact hq ▸ hba.claims owner h
    · rw [hoth q hq] at h
      obtain ⟨⟨inode, hf⟩, hm⟩ := hinv.claims q owner h
      exact ⟨⟨inode, hclm _ hf hq (claims_live h)⟩, hm⟩
  · intro q e h
    rw [hal]
    by_cases hq : q = p
    · rw [hq, hs] at h
      exact hba.expects e h
    · rw [hoth q hq] at h
      exact hinv.expects q e h
  · intro q e h
    by_cases hq : q = p
    · rw [hq, hs] at h
      exact hba.seen e h
    · rw [hoth q hq] at h
      obtain ⟨f, hf, hr⟩ := hinv.seen q e h
      exact ⟨f, hlc f hf ⟨q, hq, Or.inr (by rw [h]; rfl)⟩, hr⟩
  · intro f hf
    simp only [hd', hmn]
    rcases hloc f hf with ⟨hne, hold⟩ | ⟨heq, h⟩
    · rw [hoth _ hne]
      exact hinv.locked f hold
    · rw [heq, hs]
      rcases h with ⟨owner, hw⟩ | ⟨owner, hr, hm, hh⟩
      · exact Or.inl ⟨owner, hw⟩
      · exact Or.inr ⟨owner, hr, hm, Or.inr hh⟩
  · intro f hf
    rw [hd']
    rcases hc f hf with ⟨hne, hold⟩ | ⟨heq, h⟩
    · rw [hoth _ hne]
      exact hinv.claimed f hold
    · rw [heq, hs]
      exact Or.inr h

theorem inv_move (hinv : Inv s) (hpr : s'.procs = Function.update s.procs p phase)
    (hfl : s'.lock = s.lock ∧ s'.claim = s.claim ∧ s'.boot = s.boot ∧ s'.now = s.now)
    (hl : s.procs p ≠ .dead) (hpos : 0 < p) (hdd : phase ≠ .dead)
    (hhd : phase.holds = (s.procs p).holds) (hc : phase.claims = (s.procs p).claims)
    (hwr : phase.writing = (s.procs p).writing) (hwc : phase.writingClaim = (s.procs p).writingClaim)
    (he : ∀ e, phase.expects = some e → s.isLockOwnerAlive e.owner = false)
    (hs : ∀ e, phase.seen = some e → ∃ f, s.lock = some f ∧ f.raw = e.raw) : Inv s' := by
  obtain ⟨hlc, hclm, hclk⟩ := hfl
  refine inv_change hinv hpr hclk hl hpos hdd ?_ (fun f hf _ => hlc ▸ hf) (fun f hf _ _ => hclm ▸ hf) ?_ ?_
  · rw [hlc, hclm]
    refine ⟨fun owner inode h => ?_, fun owner h => ?_, fun owner inode h => ?_, fun owner h => ?_, he, hs⟩
    · exact hinv.writing p owner inode (hwr ▸ h)
    · exact hinv.holds p owner (hhd ▸ h)
    · exact hinv.writingClaim p owner inode (hwc ▸ h)
    · exact hinv.claims p owner (hc ▸ h)
  · intro f hf
    rw [hlc] at hf
    by_cases hp : f.creator = p
    · refine Or.inr ⟨hp, ?_⟩
      rw [hwr, hhd]
      rcases hinv.locked f hf with h | ⟨owner, hr, hm, hd | hh⟩
      · exact Or.inl (hp ▸ h)
      · exact absurd (hp ▸ hd) hl
      · exact Or.inr ⟨owner, hr, hp ▸ hm, hp ▸ hh⟩
    · exact Or.inl ⟨hp, hf⟩
  · intro f hf
    rw [hclm] at hf
    by_cases hp : f.creator = p
    · refine Or.inr ⟨hp, ?_⟩
      rw [hwc, hc]
      rcases hinv.claimed f hf with ⟨hd, -⟩ | h
      · exact absurd (hp ▸ hd) hl
      · exact hp ▸ h
    · exact Or.inl ⟨hp, hf⟩

theorem inv_moved (hinv : Inv s) {old : Phase} (hph : s.procs p = old) (hact : old ≠ .idle ∧ old ≠ .dead)
    (hd : phase ≠ .dead) (hhd : phase.holds = old.holds) (hc : phase.claims = old.claims)
    (hwr : phase.writing = old.writing) (hwc : phase.writingClaim = old.writingClaim)
    (he : ∀ e, phase.expects = some e → s.isLockOwnerAlive e.owner = false)
    (hs : ∀ e, phase.seen = some e → ∃ f, s.lock = some f ∧ f.raw = e.raw) : Inv (s.move p phase) := by
  subst hph
  exact inv_move hinv rfl ⟨rfl, rfl, rfl, rfl⟩ hact.2 (hinv.started p hact.1 hact.2) hd hhd hc
    hwr hwc he hs

theorem Inv.lock_other (hinv : Inv s) (hl : s.procs p ≠ .dead) (hhd : (s.procs p).holds = none)
    (hwr : (s.procs p).writing = none) {f : File} (hf : s.lock = some f) : f.creator ≠ p := by
  rintro rfl
  rcases hinv.locked f hf with ⟨owner, h⟩ | ⟨owner, -, -, h | h⟩
  · rw [hwr] at h
    cases h
  · exact hl h
  · rw [hhd] at h
    cases h

theorem Inv.claim_other (hinv : Inv s) (hl : s.procs p ≠ .dead) (hc : (s.procs p).claims = none)
    (hwr : (s.procs p).writingClaim = none) {f : File} (hf : s.claim = some f) : f.creator ≠ p := by
  rintro rfl
  rcases hinv.claimed f hf with ⟨h, -⟩ | ⟨owner, h⟩ | ⟨owner, h⟩
  · exact hl h
  · rw [hwr] at h
    cases h
  · rw [hc] at h
    cases h

theorem Inv.mine (hinv : Inv s) (hp : 0 < p) : Mine s p (s.createServerLockOwner p) := by
  refine ⟨rfl, hp, ?_⟩
  have := hinv.clock
  simp only [State.early, State.createServerLockOwner, Option.any_some, decide_eq_false_iff_not]
  omega

theorem written_self {inode : Nat} {raw : Raw} {file : Option File} (h : file = some ⟨inode, .empty, p⟩) :
    State.written file inode raw = some ⟨inode, raw, p⟩ := by
  subst h
  exact congrArg some (if_pos rfl)

section Next

variable (hinv : Inv s)

include hinv

theorem inv_createLock (hph : s.procs p = .createLock) (hn : s.lock = none) :
    Inv { s.move p (.writeLock (s.createServerLockOwner p) s.nextInode) with
      lock := some ⟨s.nextInode, .empty, p⟩, nextInode := s.nextInode + 1 } := by
  have hl : s.procs p ≠ .dead := by rw [hph]; simp
  have hp := hinv.started p (by rw [hph]; simp) hl
  refine inv_change hinv rfl ⟨rfl, rfl⟩ hl hp (by simp) ?_ ?_ (fun f hf _ _ => hf) ?_ fun f hf => Or.inl ⟨?_, hf⟩
  · refine ⟨fun owner inode h => ?_, (fun _ h => by cases h), (fun _ _ h => by cases h), (fun _ h => by cases h),
      (fun _ h => by cases h), fun _ h => by cases h⟩
    cases h
    exact ⟨rfl, hinv.mine hp⟩
  · intro f hf
    rw [hn] at hf
    cases hf
  · intro f hf
    cases hf
    exact Or.inr ⟨rfl, Or.inl ⟨_, rfl⟩⟩
  · exact hinv.claim_other hl (by rw [hph]; rfl) (by rw [hph]; rfl) hf

variable {owner : Owner}

theorem inv_writeLock {inode : Nat} (hph : s.procs p = .writeLock owner inode) :
    Inv { s.move p (.held owner false) with
      lock := State.written s.lock inode (serializeServerLockOwner owner) } := by
  have hl : s.procs p ≠ .dead := by rw [hph]; simp
  have hpos := hinv.started p (by rw [hph]; simp) hl
  obtain ⟨hfl, hm⟩ := hinv.writing p owner inode (by rw [hph]; rfl)
  have hlc : State.written s.lock inode (serializeServerLockOwner owner) =
      some ⟨inode, serializeServerLockOwner owner, p⟩ := written_self hfl
  refine inv_change hinv rfl ⟨rfl, rfl⟩ hl hpos (by simp) ?_ ?_ (fun f hf _ _ => hf) ?_ fun f hf => Or.inl ⟨?_, hf⟩
  · refine ⟨(fun _ _ h => by cases h), fun o h => ?_, (fun _ _ h => by cases h), (fun _ h => by cases h),
      (fun _ h => by cases h), fun _ h => by cases h⟩
    cases h
    exact ⟨⟨inode, hlc⟩, hm⟩
  · rintro f hf ⟨q, hq, ⟨hc, -⟩ | hs⟩
    · have hp := congrArg File.creator (Option.some.inj (hf.symm.trans hfl))
      exact absurd (hc.symm.trans hp) hq
    · obtain ⟨e, he⟩ := Option.isSome_iff_exists.mp hs
      obtain ⟨f', hf', -, hd⟩ := hinv.seen_dead he
      rw [congrArg File.creator (Option.some.inj (hf'.symm.trans hfl))] at hd
      exact absurd hd hl
  · intro f hf
    cases hlc.symm.trans hf
    exact Or.inr ⟨rfl, Or.inr ⟨owner, rfl, hm, rfl⟩⟩
  · exact hinv.claim_other hl (by rw [hph]; rfl) (by rw [hph]; rfl) hf

variable {e : LockState}

theorem inv_createClaim (hph : s.procs p = .createClaim e) (hn : s.claim = none) :
    Inv { s.move p (.writeClaim e (s.createServerLockOwner p) s.nextInode) with
      claim := some ⟨s.nextInode, .empty, p⟩, nextInode := s.nextInode + 1 } := by
  have hl : s.procs p ≠ .dead := by rw [hph]; simp
  have hp := hinv.started p (by rw [hph]; simp) hl
  refine inv_change hinv rfl ⟨rfl, rfl⟩ hl hp (by simp) ?_ (fun f hf _ => hf) ?_ (fun f hf => Or.inl ⟨?_, hf⟩) ?_
  · refine ⟨(fun _ _ h => by cases h), (fun _ h => by cases h), fun owner inode h => ?_, (fun _ h => by cases h),
      fun e' h => ?_, fun _ h => by cases h⟩
    · cases h
      exact ⟨rfl, hinv.mine hp⟩
    · cases h
      exact hinv.expects p e (by rw [hph]; rfl)
  · intro f hf
    rw [hn] at hf
    cases hf
  · exact hinv.lock_other hl (by rw [hph]; rfl) (by rw [hph]; rfl) hf
  · intro f hf
    cases hf
    exact Or.inr ⟨rfl, Or.inl ⟨_, rfl⟩⟩

theorem inv_writeClaim {inode : Nat} (hph : s.procs p = .writeClaim e owner inode) :
    Inv { s.move p (.rereadLock e owner) with
      claim := State.written s.claim inode (serializeServerLockOwner owner) } := by
  have hl : s.procs p ≠ .dead := by rw [hph]; simp
  have hp := hinv.started p (by rw [hph]; simp) hl
  obtain ⟨hfl, hm⟩ := hinv.writingClaim p owner inode (by rw [hph]; rfl)
  have hc : State.written s.claim inode (serializeServerLockOwner owner) =
      some ⟨inode, serializeServerLockOwner owner, p⟩ := written_self hfl
  refine inv_change hinv rfl ⟨rfl, rfl⟩ hl hp (by simp) ?_ (fun f hf _ => hf) ?_ (fun f hf => Or.inl ⟨?_, hf⟩) ?_
  · refine ⟨(fun _ _ h => by cases h), (fun _ h => by cases h), (fun _ _ h => by cases h), fun o h => ?_,
      fun e' h => ?_, fun _ h => by cases h⟩
    · cases h
      exact ⟨⟨inode, hc⟩, hm⟩
    · cases h
      exact hinv.expects p e (by rw [hph]; rfl)
  · intro f hf hne
    exact absurd (congrArg File.creator (Option.some.inj (hf.symm.trans hfl))) hne
  · exact hinv.lock_other hl (by rw [hph]; rfl) (by rw [hph]; rfl) hf
  · intro f hf
    cases hc.symm.trans hf
    exact Or.inr ⟨rfl, Or.inr ⟨owner, rfl⟩⟩

theorem inv_unlinkClaim (hph : s.procs p = .unlinkClaim e)
    (hok : ∀ f, s.claim = some f → s.procs f.creator = .dead) :
    Inv { s.move p (.createClaim e) with claim := none } := by
  have hl : s.procs p ≠ .dead := by rw [hph]; simp
  have hp := hinv.started p (by rw [hph]; simp) hl
  refine inv_change hinv rfl ⟨rfl, rfl⟩ hl hp (by simp) ?_ (fun f hf _ => hf) ?_ (fun f hf => Or.inl ⟨?_, hf⟩)
    fun f hf => by cases hf
  · refine ⟨(fun _ _ h => by cases h), (fun _ h => by cases h), (fun _ _ h => by cases h), (fun _ h => by cases h),
      fun e' h => ?_, fun _ h => by cases h⟩
    cases h
    exact hinv.expects p e (by rw [hph]; rfl)
  · intro f hf _ hc
    exact absurd (hok f hf) hc
  · exact hinv.lock_other hl (by rw [hph]; rfl) (by rw [hph]; rfl) hf

theorem inv_unlinkLock {claim : Owner} (hph : s.procs p = .unlinkLock e claim) :
    Inv { s.move p (.readOwnClaim claim none) with lock := none } := by
  have hl : s.procs p ≠ .dead := by rw [hph]; simp
  have hp := hinv.started p (by rw [hph]; simp) hl
  obtain ⟨f, hf, -, hd⟩ := hinv.seen_dead (p := p) (e := e) (by rw [hph]; rfl)
  obtain ⟨⟨inode, hc⟩, hm⟩ := hinv.claims p claim (by rw [hph]; rfl)
  refine inv_change hinv rfl ⟨rfl, rfl⟩ hl hp (by simp) ?_ ?_ (fun f hf _ _ => hf) (fun f hf => by cases hf) ?_
  · refine ⟨(fun _ _ h => by cases h), (fun _ h => by cases h), (fun _ _ h => by cases h), fun o h => ?_,
      (fun _ h => by cases h), fun _ h => by cases h⟩
    cases h
    exact ⟨⟨inode, hc⟩, hm⟩
  · rintro f' hf' ⟨q, hq, ⟨rfl, hl'⟩ | hs⟩
    · cases hf.symm.trans hf'
      exact absurd hd hl'
    · obtain ⟨e', he'⟩ := Option.isSome_iff_exists.mp hs
      obtain ⟨o, ho⟩ := seen_claims he'
      obtain ⟨⟨inode', hcl'⟩, -⟩ := hinv.claims q o ho
      exact absurd (congrArg File.creator (Option.some.inj (hcl'.symm.trans hc))) hq
  · intro f' hf'
    cases hc.symm.trans hf'
    exact Or.inr ⟨rfl, Or.inr ⟨claim, rfl⟩⟩

theorem inv_dropClaim {failure : Option Failure} {claim : Owner} (hph : s.procs p = .dropClaim failure claim) :
    Inv { s.settle p failure with claim := none } := by
  have hl : s.procs p ≠ .dead := by rw [hph]; simp
  have hp := hinv.started p (by rw [hph]; simp) hl
  obtain ⟨⟨inode, hclm⟩, -⟩ := hinv.claims p claim (by rw [hph]; rfl)
  obtain ⟨phase, hst, hp', hd⟩ : ∃ phase, s.settle p failure = s.move p phase ∧
      (phase.writing = none ∧ phase.holds = none ∧ phase.writingClaim = none ∧ phase.claims = none ∧
        phase.expects = none ∧ phase.seen = none) ∧ phase ≠ .dead := by
    cases failure with
    | none => exact ⟨_, rfl, ⟨rfl, rfl, rfl, rfl, rfl, rfl⟩, by simp⟩
    | some failure => exact ⟨_, rfl, ⟨rfl, rfl, rfl, rfl, rfl, rfl⟩, by simp⟩
  obtain ⟨hwr, hhd, hwc, hc, he, hs⟩ := hp'
  rw [hst]
  refine inv_change hinv rfl ⟨rfl, rfl⟩ hl hp hd ?_ (fun f hf _ => hf) ?_ (fun f hf => Or.inl ⟨?_, hf⟩)
    fun f hf => by cases hf
  · refine ⟨fun _ _ h => ?_, fun _ h => ?_, fun _ _ h => ?_, fun _ h => ?_, fun _ h => ?_, fun _ h => ?_⟩
    · rw [hwr] at h
      cases h
    · rw [hhd] at h
      cases h
    · rw [hwc] at h
      cases h
    · rw [hc] at h
      cases h
    · rw [he] at h
      cases h
    · rw [hs] at h
      cases h
  · intro f hf hne
    exact absurd (congrArg File.creator (Option.some.inj (hf.symm.trans hclm))) hne
  · exact hinv.lock_other hl (by rw [hph]; rfl) (by rw [hph]; rfl) hf

theorem inv_dropLock (hph : s.procs p = .dropLock owner) :
    Inv { s.move p .idle with lock := none } := by
  have hl : s.procs p ≠ .dead := by rw [hph]; simp
  have hp := hinv.started p (by rw [hph]; simp) hl
  obtain ⟨⟨inode, hlc⟩, -⟩ := hinv.holds p owner (by rw [hph]; rfl)
  refine inv_change hinv rfl ⟨rfl, rfl⟩ hl hp (by simp) ?_ ?_ (fun f hf _ _ => hf) (fun f hf => by cases hf)
    fun f hf => Or.inl ⟨?_, hf⟩
  · exact ⟨(fun _ _ h => by cases h), (fun _ h => by cases h), (fun _ _ h => by cases h), (fun _ h => by cases h),
      (fun _ h => by cases h), fun _ h => by cases h⟩
  · rintro f hf ⟨q, hq, ⟨rfl, -⟩ | hs⟩
    · exact absurd (congrArg File.creator (Option.some.inj (hf.symm.trans hlc))) hq
    · obtain ⟨e, he⟩ := Option.isSome_iff_exists.mp hs
      obtain ⟨f', hf', -, hd⟩ := hinv.seen_dead he
      rw [congrArg File.creator (Option.some.inj (hf'.symm.trans hlc))] at hd
      exact absurd hd hl
  · exact hinv.claim_other hl (by rw [hph]; rfl) (by rw [hph]; rfl) hf

end Next

end Moves

end HrcRuntime.ServerLock
