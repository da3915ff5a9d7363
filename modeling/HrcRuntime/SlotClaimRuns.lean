import HrcRuntime.SlotClaimFence

namespace HrcRuntime.SlotClaims

open HrcRuntime.Keyed HrcRuntime.Schedule
open List (mem_map not_mem_nil mem_singleton)

variable {db : Database} {s t : State} {r : Request} {id host : Nat} {slot : Slot} {key status : String} {body : Body}

/-! ### What the writes keep -/

variable {session : Session} {a : Action} {granted : Bool}

theorem find_host (h : Sound db) (hsession : db.sessions.find host = some session) : host < db.next := by
  obtain ⟨hm, rfl⟩ := find_mem hsession
  exact h.hosts session hm

theorem find_next (h : Sound db) : db.sessions.find db.next = none := by
  rcases hf : db.sessions.find db.next with _ | session
  · rfl
  · exact absurd (find_host h hf) (Nat.lt_irrefl _)

theorem find_claim_session (h : db.sessions.find host = some session) :
    (db.claim key body slot).sessions.find host = some session := find_add_of_some h

theorem find_claim_next (h : Sound db) : (db.claim key body slot).sessions.find db.next = some ⟨db.next, slot, true⟩ :=
  find_add_self (r := (⟨db.next, slot, true⟩ : Session)) (find_next h)

theorem sound_claim (h : Sound db) (hk : slot.scope.mutexKey = body.scope.mutexKey) : Sound (db.claim key body slot) where
  home a c hc := by
    by_cases ha : a = slot
    · subst ha
      refine ⟨⟨db.next, a, true⟩, ?_, rfl⟩
      have hf := find_upsert_self (t := db.continuities) (r := ⟨a, db.next⟩)
        (f := fun c => { c with host := db.next }) (fun _ => rfl)
      have hh : c.host = db.next := by
        rw [← Option.some.inj (hf.symm.trans hc)]
        cases db.continuities.find (⟨a, db.next⟩ : Continuity).slot <;> rfl
      rw [hh]
      exact find_claim_next h
    · have hf := find_upsert_of_ne (t := db.continuities) (r := ⟨slot, db.next⟩) (k := a)
        (f := fun c => { c with host := db.next }) (fun _ => rfl) ha
      obtain ⟨session, hsession, hsl⟩ := h.home a c (hf.symm.trans hc)
      exact ⟨session, find_claim_session hsession, hsl⟩
  successor row hr := by
    rcases mem_add.mp hr with hr | ⟨rfl, -⟩
    · obtain ⟨session, hsession, hs⟩ := h.successor row hr
      exact ⟨session, find_claim_session hsession, hs⟩
    · exact ⟨_, find_claim_next h, hk⟩
  distinct row hr row' hrow' hs := by
    have hold (a : ClaimRow) (ha : a ∈ db.rosterClaims.rows) : a.successor ≠ db.next := fun hn => by
      obtain ⟨session, hsession, -⟩ := h.successor a ha
      rw [hn, find_next h] at hsession
      cases hsession
    rcases mem_add.mp hr with hr | ⟨rfl, -⟩ <;> rcases mem_add.mp hrow' with hrow' | ⟨rfl, -⟩
    · exact h.distinct row hr row' hrow' hs
    · exact absurd hs (hold row hr)
    · exact absurd hs.symm (hold row' hrow')
    · rfl
  hosts session hsession := by
    rcases mem_add.mp hsession with hsession | ⟨rfl, -⟩
    · exact Nat.lt_succ_of_lt (h.hosts session hsession)
    · exact Nat.lt_succ_self _
  runtimes rt hrt := Nat.lt_succ_of_lt (h.runtimes rt hrt)

theorem extends_claim : Extends db (db.claim key body slot) :=
  ⟨fun _ session h => ⟨session, find_claim_session h, rfl⟩, fun _ rt h => ⟨rt, h, rfl⟩, fun _ => rfl⟩

theorem find_archive (host : Nat) (h : db.sessions.find id = some session) :
    ∃ session', (db.archive host).sessions.find id = some session' ∧ session'.slot = session.slot := by
  by_cases hid : id = host
  · subst hid
    exact ⟨{ session with active := false }, by
      unfold Database.archive
      rw [find_amend_self, h]
      rfl, rfl⟩
  · exact ⟨session, by
      unfold Database.archive
      rw [find_amend_of_ne _ hid]
      exact h, rfl⟩

theorem sound_archive (h : Sound db) : Sound (db.archive host) where
  home a c hc := by
    obtain ⟨session, hsession, hsl⟩ := h.home a c hc
    obtain ⟨session', hs', hsl'⟩ := find_archive host hsession
    exact ⟨session', hs', hsl'.trans hsl⟩
  successor row hr := by
    obtain ⟨session, hsession, hs⟩ := h.successor row hr
    obtain ⟨session', hs', hsl'⟩ := find_archive host hsession
    exact ⟨session', hs', by rw [hsl']; exact hs⟩
  distinct := h.distinct
  hosts session hsession := by
    obtain ⟨a, ha, rfl⟩ := mem_map.mp hsession
    split
    · exact h.hosts a ha
    · exact h.hosts a ha
  runtimes := h.runtimes

theorem extends_archive : Extends db (db.archive host) :=
  ⟨fun _ _ h => find_archive _ h, fun _ rt h => ⟨rt, h, rfl⟩, fun _ => rfl⟩

theorem sound_runtimes (h : Sound db) {runtimes : Store Runtime Runtime.runtimeId} {next : Nat} (hn : db.next ≤ next)
    (hr : ∀ rt ∈ runtimes.rows, rt.runtimeId < next) : Sound { db with runtimes := runtimes, next := next } :=
  ⟨h.home, h.successor, h.distinct, fun session hsession => Nat.lt_of_lt_of_le (h.hosts session hsession) hn, hr⟩

theorem available_iff : db.available host = true ↔
    ∃ rt ∈ db.runtimes.rows, rt.host = host ∧ unavailable rt.status = false := by
  unfold Database.available
  simp

theorem extends_invalidate : Extends db (db.invalidate host) where
  session _ session h := ⟨session, h, rfl⟩
  runtime id rt h := by
    obtain ⟨hm, rfl⟩ := find_mem h
    have hr := List.mem_map_of_mem
      (f := fun rt : Runtime => if rt.host == host && !unavailable rt.status then { rt with status := "terminated" } else rt)
      hm
    refine ⟨_, find_eq_some.mpr ⟨hr, ?_⟩, ?_⟩
    · split <;> rfl
    · split <;> rfl
  reserved _ := rfl

theorem sound_invalidate (h : Sound db) : Sound (db.invalidate host) :=
  sound_runtimes h (Nat.le_refl _) fun rt hrt => by
    obtain ⟨a, ha, rfl⟩ := mem_map.mp hrt
    split
    · exact h.runtimes a ha
    · exact h.runtimes a ha

theorem available_invalidate {a : Nat} (h : db.available a = false) : (db.invalidate host).available a = false := by
  rw [Bool.eq_false_iff, ne_eq, available_iff] at h ⊢
  rintro ⟨_, hm, hh, hstatus⟩
  obtain ⟨rt, hrt, rfl⟩ := mem_map.mp hm
  by_cases hr : (rt.host == host && !unavailable rt.status) = true
  · rw [if_pos hr] at hstatus
    exact absurd hstatus (by decide : ¬ unavailable "terminated" = false)
  · rw [if_neg hr] at hh hstatus
    exact h ⟨rt, hrt, hh, hstatus⟩

theorem extends_setStatus : Extends db (db.setStatus id status) where
  session _ session h := ⟨session, h, rfl⟩
  runtime k rt h := by
    obtain ⟨hm, rfl⟩ := find_mem h
    have hr := List.mem_map_of_mem (f := fun rt : Runtime => if rt.runtimeId == id && true then { rt with status := status } else rt)
      hm
    refine ⟨_, find_eq_some.mpr ⟨hr, ?_⟩, ?_⟩
    · split <;> rfl
    · split <;> rfl
  reserved _ := rfl

theorem sound_setStatus (h : Sound db) : Sound (db.setStatus id status) :=
  sound_runtimes h (Nat.le_refl _) fun rt hrt => by
    obtain ⟨a, ha, rfl⟩ := mem_map.mp hrt
    split
    · exact h.runtimes a ha
    · exact h.runtimes a ha

theorem available_setStatus {a : Nat} (hoth : ∀ rt, db.runtimes.find id = some rt → rt.host = a → unavailable status = true)
    (h : db.available a = false) : (db.setStatus id status).available a = false := by
  rw [Bool.eq_false_iff, ne_eq, available_iff] at h ⊢
  rintro ⟨_, hm, hh, hstatus⟩
  obtain ⟨rt, hrt, rfl⟩ := mem_map.mp hm
  by_cases hid : rt.runtimeId = id
  · rw [if_pos (by simpa using hid)] at hh hstatus
    have ht := hoth rt (hid ▸ find_of_mem hrt) hh
    rw [show unavailable status = false from hstatus] at ht
    cases ht
  · rw [if_neg (by simpa using hid)] at hh hstatus
    exact h ⟨rt, hrt, hh, hstatus⟩

theorem extends_startGraph : Extends db (db.startGraph host) where
  session _ session h := ⟨session, h, rfl⟩
  runtime _ rt h := ⟨rt, find_add_of_some h, rfl⟩
  reserved _ := rfl

theorem find_startGraph (h : Sound db) : (db.startGraph host).runtimes.find db.next = some ⟨db.next, host, "starting"⟩ := by
  refine find_add_self (r := (⟨db.next, host, "starting"⟩ : Runtime)) ?_
  rcases hf : db.runtimes.find db.next with _ | rt
  · rfl
  · obtain ⟨hm, hid⟩ := find_mem hf
    exact absurd (h.runtimes rt hm) (by rw [hid]; exact Nat.lt_irrefl _)

theorem sound_startGraph (h : Sound db) : Sound (db.startGraph host) :=
  sound_runtimes h (Nat.le_succ _) fun rt hrt => by
    rcases mem_add.mp hrt with hrt | ⟨rfl, -⟩
    · exact Nat.lt_succ_of_lt (h.runtimes rt hrt)
    · exact Nat.lt_succ_self _

theorem available_startGraph {a : Nat} (hoth : host ≠ a) (h : db.available a = false) :
    (db.startGraph host).available a = false := by
  rw [Bool.eq_false_iff, ne_eq, available_iff] at h ⊢
  rintro ⟨rt, hm, hh, hstatus⟩
  rcases mem_add.mp hm with hm | ⟨rfl, -⟩
  · exact h ⟨rt, hm, hh, hstatus⟩
  · exact hoth hh

/-! ### The steps of a request -/

theorem Inv.alone (h : Inv s) (hr : r ∈ s.requests.rows)
    (hl : r.phase.holdsLock = true ∨ s.locked r.body.scope.mutexKey = false) :
    ∀ other ∈ s.requests.rows, other.id ≠ r.id → other.phase.holdsLock = true →
      other.body.scope.mutexKey ≠ r.body.scope.mutexKey := fun other hoth hid hh hk => by
  rcases hl with hl | hl
  · exact hid (h.exclusive other hoth r hr hh hl hk)
  · rw [locked_iff.mpr ⟨other, hoth, hh, hk⟩] at hl
    cases hl

theorem Inv.commit (h : Inv s) (hr : r ∈ s.requests.rows) (hh : r.phase.holdsLock = true)
    (hk : slot.scope.mutexKey = r.body.scope.mutexKey) : Inv (s.commit r slot) := by
  have hfr : r.phase.host = none := by
    rcases r with ⟨id, key, body, _ | _ | _ | _ | ⟨_, _⟩ | _⟩ <;> first | rfl | cases hh
  have he : Extends s.db (s.db.claim r.key r.body slot) := extends_claim
  refine h.put hr (sound_claim h.sound hk) he (fun a ha => ?_) (fun hh => by cases hh)
    ⟨⟨_, find_claim_next h.sound, hk⟩, fun id hid => by cases hid⟩ fun other hoth hid hl => ⟨fun task hn => ?_, fun a hp => ?_⟩
  · rcases mem_mark.mp ha with rfl | ha
    · exact (inFlight_put hr).mpr (.inl rfl)
    · exact h.marked_put hr hfr ha
  · have hne : other.body.slot task ≠ slot := fun hs =>
      h.alone hr (.inl hh) other hoth hid hl (hk ▸ hs ▸ rfl)
    exact (find_upsert_of_ne (t := s.db.continuities) (r := ⟨slot, s.db.next⟩) (f := fun c => { c with host := s.db.next })
      (fun _ => rfl) hne).trans hn
  · obtain ⟨hfl, hf, session, hsession, -⟩ := h.rotating hoth hp
    refine ⟨Bool.eq_false_iff.mpr fun ht => ?_, hf⟩
    rcases inFlight_of_put hr ht with hown | ht
    · cases hown
      exact absurd (find_host h.sound hsession) (Nat.lt_irrefl _)
    · rw [hfl] at ht
      cases ht

theorem replay_eq_recorded (h : db.replay key body = .recorded host) :
    ∃ row session, db.rosterClaims.find key = some row ∧ row.body = body ∧ row.successor = host ∧
      db.sessions.find host = some session := by
  unfold Database.replay at h
  rcases hr : db.rosterClaims.find key with _ | row
  · rw [hr] at h
    cases h
  · rw [hr] at h
    dsimp only at h
    by_cases hbd : row.body ≠ body
    · rw [if_pos hbd] at h
      cases h
    · rw [if_neg hbd] at h
      rcases hsession : db.sessions.find row.successor with _ | session
      · rw [hsession] at h
        cases h
      · rw [hsession] at h
        dsimp only at h
        split at h
        · cases h
          have hh := (find_mem hsession).2
          exact ⟨row, session, rfl, not_not.mp hbd, hh.symm, by rw [hh]; exact hsession⟩
        · cases h

theorem Inv.enter (h : Inv s) (hr : r ∈ s.requests.rows) (hp : r.phase = .waiting) : Inv (s.enter r) := by
  have hfr : r.phase.host = none := by rw [hp]; rfl
  unfold State.enter
  split
  · exact h
  · rename_i hf
    have hl : s.locked r.body.scope.mutexKey = false := Bool.eq_false_iff.mpr hf
    cases hrp : s.db.replay r.key r.body with
    | unrecorded => exact h.turn hr hfr rfl (fun _ => .inr hl) trivial
    | conflict => exact h.turn hr hfr rfl (fun hh => by cases hh) trivial
    | superseded => exact h.turn hr hfr rfl (fun hh => by cases hh) trivial
    | recorded host =>
      obtain ⟨row, session, hrow, hbd, rfl, hsession⟩ := replay_eq_recorded hrp
      obtain ⟨session', hs', hk⟩ := h.sound.successor row (find_mem hrow).1
      exact h.begins hr hfr hs' (by rw [hk, hbd]) (h.alone hr (.inr hl))

theorem free_eq_true (h : s.free session = true) :
    session.host ∉ s.starting ∧ s.db.reserved session.slot.scope = false ∧ s.db.available session.host = false := by
  unfold State.free at h
  simpa [and_assoc] using h

theorem current_eq_some (h : Sound db) (hcr : db.current slot = some session) :
    db.sessions.find session.host = some session ∧ session.slot = slot := by
  unfold Database.current at hcr
  obtain ⟨c, hc, hsession⟩ := Option.bind_eq_some_iff.mp hcr
  obtain ⟨session', hs', hs⟩ := h.home slot c hc
  rw [hsession] at hs'
  cases hs'
  rw [(find_mem hsession).2]
  exact ⟨hsession, hs⟩

theorem current_eq_none (h : Sound db) (hcr : db.current slot = none) : db.continuities.find slot = none := by
  rcases hc : db.continuities.find slot with _ | c
  · rfl
  · obtain ⟨session, hsession, -⟩ := h.home slot c hc
    unfold Database.current at hcr
    rw [hc] at hcr
    exact absurd hcr (by rw [Option.bind_some, hsession]; simp)

variable {tasks : List String}

theorem Inv.examine (h : Inv s) (hr : s.requests.find r.id = some r) (hp : r.phase = .walking tasks)
    (hok : allowed s (.examine r.id) = true) : Inv (s.examine r tasks) := by
  have hm := (find_mem hr).1
  have hfr : r.phase.host = none := by rw [hp]; rfl
  have hh : r.phase.holdsLock = true := by rw [hp]; rfl
  unfold allowed at hok
  dsimp only at hok
  rw [hr] at hok
  dsimp only at hok
  rw [hp] at hok
  unfold State.examine
  rcases tasks with _ | ⟨task, rest⟩
  · exact h.turn hm hfr rfl (fun hh => by cases hh) trivial
  · dsimp only at hok ⊢
    rcases hc : s.db.current (r.body.slot task) with _ | session
    · rw [hc] at hok
      exact h.turn hm hfr rfl (fun _ => .inl hh)
        ⟨current_eq_none h.sound hc, by simpa using hok⟩
    · rw [hc] at hok
      dsimp only at hok ⊢
      obtain ⟨hsession, hs⟩ := current_eq_some h.sound hc
      split
      · rename_i hf
        obtain ⟨-, hrs, hav⟩ := free_eq_true hf
        have hfl : s.inFlight session.host = false := by
          rw [hf, Bool.and_true] at hok
          simpa using hok
        refine h.turn hm hfr rfl (fun _ => .inl hh) ⟨session, hsession, by rw [hs]; rfl, hrs, ?_, hav⟩
        refine Bool.eq_false_iff.mpr fun ht => ?_
        rcases inFlight_of_put hm ht with hown | ht
        · cases hown
        · rw [hfl] at ht
          cases ht
      · cases r.body.policy with
        | suffix => exact h.turn hm hfr rfl (fun _ => .inl hh) trivial
        | reject => exact h.turn hm hfr rfl (fun hh => by cases hh) trivial

theorem Inv.mint (h : Inv s) (hr : r ∈ s.requests.rows) {task : String} (hp : r.phase = .minting task) :
    Inv (s.mint r task granted) := by
  have hf : r.phase.host = none := by rw [hp]; rfl
  have hh : r.phase.holdsLock = true := by rw [hp]; rfl
  unfold State.mint
  split
  · exact h.turn hr hf rfl (fun hh => by cases hh) trivial
  · rcases hc : s.db.continuities.find (r.body.slot task) with _ | c
    · dsimp only
      split
      · exact h.turn hr hf rfl (fun hh => by cases hh) trivial
      · exact h.commit hr hh rfl
    · obtain ⟨session, hsession, hs⟩ := h.sound.home _ c hc
      dsimp only
      rw [hsession]
      dsimp only
      rw [(find_mem hsession).2]
      exact h.begins hr hf hsession (by rw [hs]; rfl) (h.alone hr (.inl hh))

theorem Inv.rotate (h : Inv s) (hr : r ∈ s.requests.rows) (hp : r.phase = .rotating host) :
    Inv (s.rotate r host granted) := by
  have hfr : r.phase.host = none := by rw [hp]; rfl
  have hh : r.phase.holdsLock = true := by rw [hp]; rfl
  obtain ⟨-, -, session, hsession, hk⟩ := h.rotating hr hp
  have ht : Inv { s with db := s.db.invalidate host } :=
    h.writes (sound_invalidate h.sound) extends_invalidate rfl fun _ _ hf => available_invalidate hf
  unfold State.rotate
  split
  · exact h.turn hr hfr rfl (fun hh => by cases hh) trivial
  · rw [hsession]
    dsimp only
    split
    · split
      · exact ht.turn hr hfr rfl (fun hh => by cases hh) trivial
      · have har : Inv { s with db := (s.db.invalidate host).archive host } :=
          ht.writes (sound_archive ht.sound) extends_archive rfl fun _ _ hf => hf
        exact har.commit hr hh hk
    · exact h.turn hr hfr rfl (fun hh => by cases hh) trivial

theorem Inv.boot (h : Inv s) (hr : r ∈ s.requests.rows) (hp : r.phase = .starting host none) : Inv (s.boot r host) := by
  have hfl : s.inFlight host = true := inFlight_iff.mpr ⟨r, hr, by rw [hp]; rfl⟩
  unfold State.boot
  split
  · have hw : Inv { s with db := s.db.startGraph host } :=
      h.writes (sound_startGraph h.sound) extends_startGraph rfl fun a hf hav =>
        available_startGraph (fun hs => by rw [← hs, hfl] at hf; cases hf) hav
    have hstd := hw.stands r hr
    unfold Stands at hstd
    rw [hp] at hstd
    refine hw.put hr hw.sound (Extends.refl _) (fun a ha => ?_) (fun hh => by cases hh)
      ⟨hstd.1, fun id hid => ?_⟩ fun other hoth hid hh => ⟨fun _ hn => hn, fun a hrot => ?_⟩
    · obtain ⟨other, hoth, hhs⟩ := inFlight_iff.mp (hw.marked a ha)
      refine (inFlight_put hr).mpr ?_
      by_cases hid : other.id = r.id
      · rw [List.inj_on_of_nodup_map s.requests.nodup hoth hr hid, hp] at hhs
        exact .inl hhs
      · exact .inr ⟨other, hoth, hid, hhs⟩
    · cases hid
      exact ⟨_, find_startGraph h.sound, rfl⟩
    · obtain ⟨hf, hav, -⟩ := hw.rotating hoth hrot
      refine ⟨Bool.eq_false_iff.mpr fun ht => ?_, hav⟩
      rcases inFlight_of_put hr ht with hown | ht
      · cases hown
        rw [show s.inFlight host = false from hf] at hfl
        cases hfl
      · rw [show s.inFlight a = false from hf] at ht
        cases ht
  · exact h

theorem Inv.report (h : Inv s) (hr : r ∈ s.requests.rows) {runtime : Nat} (hp : r.phase = .starting host (some runtime)) :
    Inv { s with db := s.db.setStatus runtime status } := by
  have hfl : s.inFlight host = true := inFlight_iff.mpr ⟨r, hr, by rw [hp]; rfl⟩
  have hstd := h.stands r hr
  unfold Stands at hstd
  rw [hp] at hstd
  obtain ⟨rt, hrt, hh⟩ := hstd.2 runtime rfl
  refine h.writes (sound_setStatus h.sound) extends_setStatus rfl fun a hf hav =>
    available_setStatus (fun rt' hrt' hs => ?_) hav
  rw [hrt] at hrt'
  cases hrt'
  rw [← hs, hh, hfl] at hf
  cases hf

theorem Inv.ends (h : Inv s) (hr : r ∈ s.requests.rows) {starting : List Nat} {outcome : Outcome}
    (hs : ∀ a ∈ starting, a ∈ s.starting)
    (hm : ∀ a ∈ starting, r.phase.host = some a →
      ∃ other ∈ s.requests.rows, other.id ≠ r.id ∧ other.phase.host = some a) :
    Inv (State.set ⟨s.db, starting, s.requests⟩ r.id (.done outcome)) := by
  refine h.put hr h.sound (Extends.refl _) (fun a ha => (inFlight_put hr).mpr (.inr ?_)) (fun hh => by cases hh) trivial
    fun other hoth hid hh => ⟨fun _ hn => hn, fun a hp => ?_⟩
  · by_cases hown : r.phase.host = some a
    · exact hm a ha hown
    · obtain ⟨other, hoth, hhs⟩ := inFlight_iff.mp (h.marked a (hs a ha))
      refine ⟨other, hoth, fun hid => hown ?_, hhs⟩
      rw [← List.inj_on_of_nodup_map s.requests.nodup hoth hr hid]
      exact hhs
  · obtain ⟨hfl, hf, -⟩ := h.rotating hoth hp
    refine ⟨Bool.eq_false_iff.mpr fun ht => ?_, hf⟩
    rcases inFlight_of_put hr ht with hown | ht
    · cases hown
    · rw [hfl] at ht
      cases ht

theorem Inv.abandon (h : Inv s) (hr : s.requests.find r.id = some r) (hok : allowed s (.abandon r.id) = true) :
    Inv (s.set r.id (.done .abandoned)) := by
  unfold allowed at hok
  dsimp only at hok
  rw [hr] at hok
  dsimp only at hok
  refine h.ends (find_mem hr).1 (fun _ ha => ha) fun a ha hown => ?_
  rcases hp : r.phase with _ | tasks | task | host | ⟨host, runtime⟩ | outcome
  · rw [hp] at hown
    cases hown
  · rw [hp] at hown
    cases hown
  · rw [hp] at hown
    cases hown
  · rw [hp] at hown
    cases hown
  · rw [hp] at hown hok
    cases hown
    simpa [ha] using hok
  · rw [hp] at hown
    cases hown

theorem Inv.request (h : Inv s) : Inv (step (.request r) s) := by
  have hm (a : Request) (ha : a ∈ (step (.request r) s).requests.rows) : a ∈ s.requests.rows ∨ a.phase = .waiting := by
    rcases mem_add.mp ha with ha | ⟨rfl, -⟩
    · exact .inl ha
    · exact .inr rfl
  have hfl (a : Nat) (hf : s.inFlight a = false) : (step (.request r) s).inFlight a = false :=
    Bool.eq_false_iff.mpr fun ht => by
      obtain ⟨b, hb, hh⟩ := inFlight_iff.mp ht
      rcases hm b hb with hb | hp
      · rw [inFlight_iff.mpr ⟨b, hb, hh⟩] at hf
        cases hf
      · rw [hp] at hh
        cases hh
  refine ⟨h.sound, fun a ha => ?_, fun a ha b hb hla hlb hk => ?_, fun a ha => ?_⟩
  · obtain ⟨b, hb, hh⟩ := inFlight_iff.mp (h.marked a ha)
    exact inFlight_iff.mpr ⟨b, mem_add.mpr (.inl hb), hh⟩
  · rcases hm a ha with ha | hp
    · rcases hm b hb with hb | hp
      · exact h.exclusive a ha b hb hla hlb hk
      · rw [hp] at hlb
        cases hlb
    · rw [hp] at hla
      cases hla
  · rcases hm a ha with ha | hp
    · exact (h.stands a ha).mono (Extends.refl _) fun _ => ⟨fun _ hn => hn, fun host hp => by
        obtain ⟨hf, hfr, -⟩ := h.rotating ha hp
        exact ⟨hfl host hf, hfr⟩⟩
    · unfold Stands
      rw [hp]
      trivial

theorem Inv.lapse (h : Inv s) (hstatus : unavailable status = true) : Inv { s with db := s.db.setStatus id status } :=
  h.writes (sound_setStatus h.sound) extends_setStatus rfl fun _ _ hav =>
    available_setStatus (fun _ _ _ => hstatus) hav

theorem Inv.advance (h : Inv s) (hr : s.requests.find r.id = some r) (hok : allowed s a = true)
    (hid : ∀ id, a = .examine id ∨ a = .abandon id → id = r.id) : Inv (s.advance r a) := by
  have hm := (find_mem hr).1
  unfold State.advance
  cases a with
  | enter =>
    dsimp only
    split
    · rename_i hp
      exact h.enter hm hp
    · exact h
  | examine id =>
    obtain rfl := hid id (.inl rfl)
    dsimp only
    split
    · rename_i hp
      exact h.examine hr hp hok
    · exact h
  | mint =>
    dsimp only
    split
    · rename_i hp
      exact h.mint hm hp
    · exact h
  | rotate =>
    dsimp only
    split
    · rename_i hp
      exact h.rotate hm hp
    · exact h
  | boot =>
    dsimp only
    split
    · rename_i hp
      exact h.boot hm hp
    · exact h
  | report =>
    dsimp only
    split
    · rename_i hp
      exact h.report hm hp
    · exact h
  | finish =>
    dsimp only
    split
    · rename_i hp
      refine h.ends hm (fun a ha => List.mem_of_mem_filter ha) fun a ha hown => ?_
      rw [hp] at hown
      cases hown
      exact absurd (List.mem_filter.mp ha).2 (by simp)
    · exact h
  | abandon id =>
    obtain rfl := hid id (.inr rfl)
    exact h.abandon hr hok
  | request => exact h
  | lapse => exact h

theorem Inv.act (h : Inv s) (hok : allowed s a = true)
    (hid : ∀ k, a = .examine k ∨ a = .abandon k → k = id) : Inv (s.act id a) := by
  unfold State.act
  rcases hr : s.requests.find id with _ | r
  · exact h
  · have hrid := (find_mem hr).2
    exact h.advance (by rw [hrid]; exact hr) hok fun k hk => (hid k hk).trans hrid.symm

theorem Inv.keeps (h : Inv s) (hok : allowed s a = true) : Inv (step a s) := by
  cases a with
  | request r => exact h.request
  | lapse id status =>
    unfold step
    dsimp only
    split
    · rename_i hstatus
      exact h.lapse hstatus
    · exact h
  | enter id => exact h.act hok fun k hk => by simp at hk
  | examine id => exact h.act hok fun k hk => by simpa [eq_comm] using hk
  | mint id granted => exact h.act hok fun k hk => by simp at hk
  | rotate id granted => exact h.act hok fun k hk => by simp at hk
  | boot id => exact h.act hok fun k hk => by simp at hk
  | report id status => exact h.act hok fun k hk => by simp at hk
  | finish id outcome => exact h.act hok fun k hk => by simp at hk
  | abandon id => exact h.act hok fun k hk => by simpa [eq_comm] using hk

/-! ### What a step claims -/

inductive Grows (s : State) : Database → Prop where
  | quiet {db : Database} (hsessions : ∀ host, s.db.sessions.find host = none → db.sessions.find host = none)
      (hclaims : db.rosterClaims = s.db.rosterClaims) : Grows s db
  | claimed {db : Database} (key : String) (body : Body) (slot : Slot)
      (hsessions : ∀ host, s.db.sessions.find host = none → db.sessions.find host = none)
      (hclaims : db.rosterClaims = s.db.rosterClaims) (hfree : s.occupied slot = false) : Grows s (db.claim key body slot)

theorem Grows.same : Grows s s.db := .quiet (fun _ hn => hn) rfl

theorem Grows.free (h : Grows s db) (hm : session ∈ db.sessions.rows)
    (hn : s.db.sessions.find session.host = none) : s.occupied session.slot = false := by
  have habs {db : Database} (hnn : db.sessions.find session.host = none) (hm : session ∈ db.sessions.rows) : False := by
    rw [find_of_mem hm] at hnn
    cases hnn
  cases h with
  | quiet hs _ => exact (habs (hs _ hn) hm).elim
  | claimed key body slot hs _ hf =>
    rcases mem_add.mp hm with hm | ⟨rfl, -⟩
    · exact (habs (hs _ hn) hm).elim
    · exact hf

theorem Grows.recorded {row : ClaimRow} (h : Grows s db) (hr : row ∈ s.db.rosterClaims.rows) :
    row ∈ db.rosterClaims.rows := by
  cases h with
  | quiet _ hc =>
    rw [hc]
    exact hr
  | claimed key body slot _ hc _ => exact mem_add.mpr (.inl (by rw [hc]; exact hr))

theorem enter_db : (s.enter r).db = s.db := by
  unfold State.enter
  split
  · rfl
  · cases s.db.replay r.key r.body <;> rfl

theorem examine_db : (s.examine r tasks).db = s.db := by
  unfold State.examine
  rcases tasks with _ | ⟨task, rest⟩
  · rfl
  · dsimp only
    cases s.db.current (r.body.slot task) with
    | none => rfl
    | some session =>
      dsimp only
      split
      · rfl
      · cases r.body.policy <;> rfl

theorem mint_grows (h : Inv s) (hr : r ∈ s.requests.rows) {task : String} (hp : r.phase = .minting task) :
    Grows s (s.mint r task granted).db := by
  have hs := h.stands r hr
  unfold Stands at hs
  rw [hp] at hs
  obtain ⟨hn, hrs⟩ := hs
  unfold State.mint
  rw [hn]
  split
  · exact .same
  · dsimp only
    split
    · exact .same
    · refine .claimed _ _ _ (fun _ hn => hn) rfl ?_
      have hc : s.db.current (r.body.slot task) = none := by
        unfold Database.current
        rw [hn]
        rfl
      unfold State.occupied
      rw [hrs, hc]
      rfl

theorem find_archive_none (h : db.sessions.find id = none) : (db.archive host).sessions.find id = none := by
  unfold Database.archive
  by_cases hid : id = host
  · subst hid
    rw [find_amend_self, h]
    rfl
  · rw [find_amend_of_ne _ hid]
    exact h

theorem rotate_grows (h : Inv s) (hr : r ∈ s.requests.rows) (hp : r.phase = .rotating host) :
    Grows s (s.rotate r host granted).db := by
  have hs := h.stands r hr
  unfold Stands at hs
  rw [hp] at hs
  obtain ⟨session, hsession, -, hrs, hfl, hav⟩ := hs
  unfold State.rotate
  rw [hsession]
  split
  · exact .same
  · dsimp only
    split
    · rename_i hact
      split
      · exact .quiet (fun _ hn => hn) rfl
      · refine .claimed _ _ _ (fun _ hn => find_archive_none hn) rfl ?_
        have hcr : s.db.current session.slot = some session := by
          obtain ⟨c, hc, hh⟩ := Option.map_eq_some_iff.mp (eq_of_beq hact)
          unfold Database.current
          rw [hc, Option.bind_some, hh]
          exact hsession
        unfold State.occupied
        rw [hrs, hcr, Option.any_some, (find_mem hsession).2, hfl, hav]
        rfl
    · exact .same

theorem advance_grows (h : Inv s) (hr : r ∈ s.requests.rows) : Grows s (s.advance r a).db := by
  unfold State.advance
  cases a with
  | enter =>
    dsimp only
    split
    · rw [enter_db]
      exact .same
    · exact .same
  | examine =>
    dsimp only
    split
    · rw [examine_db]
      exact .same
    · exact .same
  | mint =>
    dsimp only
    split
    · rename_i hp
      exact mint_grows h hr hp
    · exact .same
  | rotate =>
    dsimp only
    split
    · rename_i hp
      exact rotate_grows h hr hp
    · exact .same
  | boot =>
    dsimp only
    split
    · unfold State.boot
      split
      · exact .quiet (fun _ hn => hn) rfl
      · exact .same
    · exact .same
  | report =>
    dsimp only
    split
    · exact .quiet (fun _ hn => hn) rfl
    · exact .same
  | finish =>
    dsimp only
    split
    · exact .same
    · exact .same
  | abandon => exact .same
  | request => exact .same
  | lapse => exact .same

theorem act_grows (h : Inv s) : Grows s (s.act id a).db := by
  unfold State.act
  rcases hr : s.requests.find id with _ | r
  · exact .same
  · exact advance_grows h (find_mem hr).1

theorem step_grows (h : Inv s) : Grows s (step a s).db := by
  cases a with
  | request => exact .same
  | lapse id status =>
    unfold step
    dsimp only
    split
    · exact .quiet (fun _ hn => hn) rfl
    · exact .same
  | enter | examine | mint | rotate | boot | report | finish | abandon => exact act_grows h

theorem enter_refused {row : ClaimRow} (hr : s.requests.find r.id = some r) (hp : r.phase = .waiting)
    (hf : s.locked r.body.scope.mutexKey = false) (hrow : s.db.rosterClaims.find r.key = some row)
    (hstale : row.body ≠ r.body ∨ s.db.liveHost row.successor = false) :
    ∃ outcome, outcome ∈ [Outcome.idempotencyKeyConflict, .rosterClaimSuperseded] ∧
      step (.enter r.id) s = s.set r.id (.done outcome) := by
  have hrp : s.db.replay r.key r.body = .conflict ∨ s.db.replay r.key r.body = .superseded := by
    unfold Database.replay
    rw [hrow]
    dsimp only
    by_cases hbd : row.body ≠ r.body
    · exact .inl (if_pos hbd)
    · rw [if_neg hbd]
      have hl := hstale.resolve_left hbd
      unfold Database.liveHost at hl
      rcases hsession : s.db.sessions.find row.successor with _ | session
      · exact .inr rfl
      · rw [hsession, Option.any_some, ← (find_mem hsession).2] at hl
        dsimp only
        rw [hl]
        exact .inr rfl
  have hs : step (.enter r.id) s = s.enter r := by
    unfold step State.act
    dsimp only
    rw [hr]
    unfold State.advance
    dsimp only
    rw [if_pos hp]
  rw [hs]
  unfold State.enter
  rw [hf, if_neg Bool.false_ne_true]
  rcases hrp with hrp | hrp
  · exact ⟨.idempotencyKeyConflict, by simp, by rw [hrp]⟩
  · exact ⟨.rosterClaimSuperseded, by simp, by rw [hrp]⟩

theorem Inv.guarded (h : Inv s) : Guarded s a (step a s) where
  free _ hm hn := (step_grows h).free hm hn
  recorded _ hrow := (step_grows h).recorded hrow
  refused r row ha hr hp hf hrow hstale := by
    subst ha
    obtain ⟨outcome, hout, hs⟩ := enter_refused hr hp hf hrow hstale
    rw [hs]
    exact ⟨rfl, rfl, outcome, hout, find_set_self hr⟩

theorem Inv.start (h : Sound db) : Inv (State.start db) :=
  ⟨h, fun _ ha => absurd ha not_mem_nil, fun _ ha => absurd ha not_mem_nil, fun _ ha => absurd ha not_mem_nil⟩

/-- From any database the other writers keep sound, over every interleaving in which no claim walks onto a slot that is
taken behind its checks and no start is abandoned with the host's last mark. -/
theorem claimed_slots (hsound : Sound db) {actions : List Action}
    (hmeets : Meets step (fun s a => allowed s a = true) actions (State.start db)) :
    Kept (run step actions (State.start db)) ∧
      ∀ before a after, actions = before ++ a :: after →
        Guarded (run step before (State.start db)) a (run step (before ++ [a]) (State.start db)) := by
  have hkp (s : State) (a : Action) (h : Inv s) (hok : allowed s a = true) : Inv (step a s) := h.keeps hok
  refine ⟨?_, fun before a after hact =>
    run_each hkp (fun s a h _ => h.guarded) (Inv.start hsound) hmeets hact⟩
  have h := run_invariant hkp (Inv.start hsound) hmeets
  exact ⟨h.sound.distinct, h.marked⟩

namespace Sample

def scope : Scope := ⟨"cody", "hrc", "T-1", none⟩

def seat : Slot := ⟨scope, "main"⟩

def want : Body := ⟨.reject, scope, "main", "start"⟩

def store : Database where
  sessions := ⟨[⟨0, seat, true⟩], by decide⟩
  continuities := ⟨[⟨seat, 0⟩], by decide⟩
  runtimes := ⟨[⟨0, 0, "terminated"⟩], by decide⟩
  registrations := []
  held := []
  rosterClaims := .empty
  next := 1

theorem sound : Sound store where
  home a c hc := by
    obtain ⟨hm, rfl⟩ := find_mem hc
    obtain rfl := mem_singleton.mp hm
    exact ⟨⟨0, seat, true⟩, rfl, rfl⟩
  successor _ hr := absurd hr not_mem_nil
  distinct _ hr := absurd hr not_mem_nil
  hosts session hsession := by
    obtain rfl := mem_singleton.mp hsession
    decide
  runtimes rt hrt := by
    obtain rfl := mem_singleton.mp hrt
    decide

def claimed : List Action :=
  [.request ⟨0, "key-a", want, .waiting⟩, .enter 0, .examine 0, .rotate 0 true, .boot 0, .report 0 "ready", .finish 0 .started]

def overtaken : List Action :=
  [.request ⟨0, "key-a", want, .waiting⟩, .enter 0, .examine 0, .rotate 0 true, .request ⟨1, "key-a", want, .waiting⟩,
    .enter 1, .finish 0 .failed, .request ⟨2, "key-b", want, .waiting⟩, .enter 2, .examine 2]

end Sample

theorem claimed_slots_rotated :
    Kept (run step Sample.claimed (State.start Sample.store)) ∧
      ∀ before a after, Sample.claimed = before ++ a :: after →
        Guarded (run step before (State.start Sample.store)) a (run step (before ++ [a]) (State.start Sample.store)) :=
  claimed_slots Sample.sound
    (by decide +kernel : Meets step (fun s a => allowed s a = true) Sample.claimed (State.start Sample.store))

theorem claimed_slots_fail : ¬ ∀ db, Sound db → ∀ actions : List Action,
    Kept (run step actions (State.start db)) ∧
      ∀ before a after, actions = before ++ a :: after →
        Guarded (run step before (State.start db)) a (run step (before ++ [a]) (State.start db)) := by
  intro h
  have hl := (h Sample.store Sample.sound (Sample.overtaken ++ [.rotate 2 true])).2 Sample.overtaken (.rotate 2 true) [] rfl
  have hm : (⟨2, Sample.seat, true⟩ : Session) ∈
      (run step (Sample.overtaken ++ [.rotate 2 true]) (State.start Sample.store)).db.sessions.rows := by decide +kernel
  have hn : (run step Sample.overtaken (State.start Sample.store)).db.sessions.find 2 = none := by decide +kernel
  have hocc : (run step Sample.overtaken (State.start Sample.store)).occupied Sample.seat = true := by decide +kernel
  rw [hl.free _ hm hn] at hocc
  cases hocc

end HrcRuntime.SlotClaims
