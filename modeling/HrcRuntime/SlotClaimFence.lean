import HrcRuntime.SlotClaims

namespace HrcRuntime.SlotClaims

open HrcRuntime.Keyed

/-- What a slot is occupied by: a participant registration or a held reservation of its scope, a start of its session
still in flight, or a runtime of its session not yet unavailable. -/
def State.occupied (s : State) (slot : Slot) : Bool :=
  s.db.reserved slot.scope ||
    (s.db.current slot).any fun session => s.inFlight session.host || s.db.available session.host

structure Guarded (s : State) (a : Action) (t : State) : Prop where
  free : ∀ session ∈ t.db.sessions.rows, s.db.sessions.find session.host = none → s.occupied session.slot = false
  recorded : ∀ row ∈ s.db.rosterClaims.rows, row ∈ t.db.rosterClaims.rows
  refused : ∀ r row, a = .enter r.id → s.requests.find r.id = some r → r.phase = .waiting →
    s.locked r.body.scope.mutexKey = false → s.db.rosterClaims.find r.key = some row →
    row.body ≠ r.body ∨ s.db.liveHost row.successor = false →
    t.db = s.db ∧ t.starting = s.starting ∧ ∃ outcome, outcome ∈ [Outcome.idempotencyKeyConflict, .rosterClaimSuperseded] ∧
      t.requests.find r.id = some { r with phase := .done outcome }

structure Kept (s : State) : Prop where
  distinct : ∀ row ∈ s.db.rosterClaims.rows, ∀ row' ∈ s.db.rosterClaims.rows, row.successor = row'.successor → row = row'
  marked : ∀ host ∈ s.starting, s.inFlight host = true

structure Sound (db : Database) : Prop where
  home : ∀ slot c, db.continuities.find slot = some c → ∃ session, db.sessions.find c.host = some session ∧ session.slot = slot
  successor : ∀ row ∈ db.rosterClaims.rows, ∃ session, db.sessions.find row.successor = some session ∧
    session.slot.scope.mutexKey = row.body.scope.mutexKey
  distinct : ∀ row ∈ db.rosterClaims.rows, ∀ row' ∈ db.rosterClaims.rows, row.successor = row'.successor → row = row'
  hosts : ∀ session ∈ db.sessions.rows, session.host < db.next
  runtimes : ∀ rt ∈ db.runtimes.rows, rt.runtimeId < db.next

/-- A walk meets no slot without a session whose scope a participant holds, and no session that only a start without
its mark keeps occupied; a start is abandoned only where its mark is gone or another start of the host goes on. -/
def allowed (s : State) : Action → Bool
  | .examine id =>
    match s.requests.find id with
    | none => true
    | some r =>
      match r.phase with
      | .walking (task :: _) =>
        match s.db.current (r.body.slot task) with
        | none => !s.db.reserved (r.body.slot task).scope
        | some session => !(s.inFlight session.host && s.free session)
      | _ => true
  | .abandon id =>
    match s.requests.find id with
    | none => true
    | some r =>
      match r.phase with
      | .starting host _ =>
        !s.starting.contains host || s.requests.rows.any fun other => other.id != id && other.phase.host == some host
      | _ => true
  | _ => true

variable {s t : State} {r : Request} {id host : Nat} {p : Phase}

@[simp] theorem set_db : (s.set id p).db = s.db := rfl

theorem mem_set {a : Request} : a ∈ (s.set id p).requests.rows ↔
    ∃ r ∈ s.requests.rows, (if r.id = id then { r with phase := p } else r) = a := by
  unfold State.set
  rw [mem_amend]
  simp

theorem find_set_self (hr : s.requests.find r.id = some r) : (s.set r.id p).requests.find r.id = some { r with phase := p } := by
  unfold State.set
  rw [find_amend_self, hr]
  rfl

theorem inFlight_iff : s.inFlight host = true ↔ ∃ r ∈ s.requests.rows, r.phase.host = some host := by
  unfold State.inFlight
  simp

theorem locked_iff {k : String × String} :
    s.locked k = true ↔ ∃ r ∈ s.requests.rows, r.phase.holdsLock = true ∧ r.body.scope.mutexKey = k := by
  unfold State.locked
  simp

variable {db : Database} {starting : List Nat}

theorem inFlight_put (hr : r ∈ s.requests.rows) :
    (State.set ⟨db, starting, s.requests⟩ r.id p).inFlight host = true ↔
      p.host = some host ∨ ∃ other ∈ s.requests.rows, other.id ≠ r.id ∧ other.phase.host = some host := by
  rw [inFlight_iff]
  constructor
  · rintro ⟨_, hm, hh⟩
    obtain ⟨other, hoth, rfl⟩ := mem_set.mp hm
    by_cases hid : other.id = r.id
    · rw [if_pos hid] at hh
      exact .inl hh
    · rw [if_neg hid] at hh
      exact .inr ⟨other, hoth, hid, hh⟩
  · rintro (hh | ⟨other, hoth, hid, hh⟩)
    · exact ⟨{ r with phase := p }, mem_set.mpr ⟨r, hr, if_pos rfl⟩, hh⟩
    · exact ⟨other, mem_set.mpr ⟨other, hoth, if_neg hid⟩, hh⟩

theorem inFlight_of_put (hr : r ∈ s.requests.rows)
    (h : (State.set ⟨db, starting, s.requests⟩ r.id p).inFlight host = true) :
    p.host = some host ∨ s.inFlight host = true :=
  ((inFlight_put hr).mp h).imp_right fun ⟨other, hoth, _, hh⟩ => inFlight_iff.mpr ⟨other, hoth, hh⟩

def Stands (s : State) (r : Request) : Prop :=
  match r.phase with
  | .minting task => s.db.continuities.find (r.body.slot task) = none ∧ s.db.reserved (r.body.slot task).scope = false
  | .rotating host => ∃ session, s.db.sessions.find host = some session ∧
      session.slot.scope.mutexKey = r.body.scope.mutexKey ∧ s.db.reserved session.slot.scope = false ∧
      s.inFlight host = false ∧ s.db.available host = false
  | .starting host runtime => (∃ session, s.db.sessions.find host = some session ∧
      session.slot.scope.mutexKey = r.body.scope.mutexKey) ∧
      ∀ id, runtime = some id → ∃ rt, s.db.runtimes.find id = some rt ∧ rt.host = host
  | .waiting | .walking _ | .done _ => True

structure Inv (s : State) : Prop where
  sound : Sound s.db
  marked : ∀ host ∈ s.starting, s.inFlight host = true
  exclusive : ∀ r ∈ s.requests.rows, ∀ r' ∈ s.requests.rows, r.phase.holdsLock = true → r'.phase.holdsLock = true →
    r.body.scope.mutexKey = r'.body.scope.mutexKey → r.id = r'.id
  stands : ∀ r ∈ s.requests.rows, Stands s r

theorem Inv.rotating (h : Inv s) (hr : r ∈ s.requests.rows) (hp : r.phase = .rotating host) :
    s.inFlight host = false ∧ s.db.available host = false ∧
      ∃ session, s.db.sessions.find host = some session ∧ session.slot.scope.mutexKey = r.body.scope.mutexKey := by
  have hs := h.stands r hr
  unfold Stands at hs
  rw [hp] at hs
  obtain ⟨session, hsession, hk, -, hfl, hf⟩ := hs
  exact ⟨hfl, hf, session, hsession, hk⟩

structure Extends (db db' : Database) : Prop where
  session : ∀ host session, db.sessions.find host = some session →
    ∃ session', db'.sessions.find host = some session' ∧ session'.slot = session.slot
  runtime : ∀ id rt, db.runtimes.find id = some rt → ∃ rt', db'.runtimes.find id = some rt' ∧ rt'.host = rt.host
  reserved : ∀ scope, db'.reserved scope = db.reserved scope

theorem Extends.refl (db : Database) : Extends db db :=
  ⟨fun _ session h => ⟨session, h, rfl⟩, fun _ rt h => ⟨rt, h, rfl⟩, fun _ => rfl⟩

def Spares (s t : State) (r : Request) : Prop :=
  (∀ task, s.db.continuities.find (r.body.slot task) = none → t.db.continuities.find (r.body.slot task) = none) ∧
    ∀ host, r.phase = .rotating host → t.inFlight host = false ∧ t.db.available host = false

theorem Stands.mono (h : Stands s r) (he : Extends s.db t.db) (hsp : r.phase.holdsLock = true → Spares s t r) :
    Stands t r := by
  unfold Stands at h ⊢
  rcases hp : r.phase with _ | tasks | task | host | ⟨host, runtime⟩ | outcome
  · trivial
  · trivial
  · rw [hp] at h
    exact ⟨(hsp (by rw [hp]; rfl)).1 task h.1, (he.reserved _).trans h.2⟩
  · rw [hp] at h
    obtain ⟨session, hsession, hk, hf, -⟩ := h
    obtain ⟨session', hs', hsl⟩ := he.session host session hsession
    obtain ⟨hfl, hav⟩ := (hsp (by rw [hp]; rfl)).2 host hp
    exact ⟨session', hs', by rw [hsl]; exact hk, by rw [hsl, he.reserved]; exact hf, hfl, hav⟩
  · rw [hp] at h
    obtain ⟨⟨session, hsession, hk⟩, hr⟩ := h
    obtain ⟨session', hs', hsl⟩ := he.session host session hsession
    refine ⟨⟨session', hs', by rw [hsl]; exact hk⟩, fun id hid => ?_⟩
    obtain ⟨rt, hrt, hh⟩ := hr id hid
    obtain ⟨rt', hrt', hs⟩ := he.runtime id rt hrt
    exact ⟨rt', hrt', hs.trans hh⟩
  · trivial

/-- One request moves on, with what it writes. -/
theorem Inv.put (h : Inv s) (hr : r ∈ s.requests.rows) (hs : Sound db)
    (he : Extends s.db db) (hm : ∀ host ∈ starting, (State.set ⟨db, starting, s.requests⟩ r.id p).inFlight host = true)
    (hl : p.holdsLock = true → r.phase.holdsLock = true ∨ s.locked r.body.scope.mutexKey = false)
    (hown : Stands (State.set ⟨db, starting, s.requests⟩ r.id p) { r with phase := p })
    (hoth : ∀ other ∈ s.requests.rows, other.id ≠ r.id → other.phase.holdsLock = true →
      Spares s (State.set ⟨db, starting, s.requests⟩ r.id p) other) :
    Inv (State.set ⟨db, starting, s.requests⟩ r.id p) := by
  have hrow (other : Request) (hot : other ∈ s.requests.rows) (hid : other.id = r.id) : other = r :=
    List.inj_on_of_nodup_map s.requests.nodup hot hr hid
  have hhl (other : Request) (hot : other ∈ s.requests.rows) (hid : other.id ≠ r.id) (hp : p.holdsLock = true)
      (hh : other.phase.holdsLock = true) : other.body.scope.mutexKey ≠ r.body.scope.mutexKey := fun hk => by
    rcases hl hp with hhd | hf
    · exact hid (h.exclusive other hot r hr hh hhd hk)
    · exact absurd (locked_iff.mpr ⟨other, hot, hh, hk⟩) (by rw [hf]; exact Bool.false_ne_true)
  refine ⟨hs, hm, ?_, ?_⟩
  · rintro _ hma _ hmb hla hlb hk
    obtain ⟨a, ha, rfl⟩ := mem_set.mp hma
    obtain ⟨b, hb, rfl⟩ := mem_set.mp hmb
    by_cases hia : a.id = r.id <;> by_cases hib : b.id = r.id
    · rw [if_pos hia, if_pos hib]
      exact hia.trans hib.symm
    · rw [if_pos hia] at hla hk
      rw [if_neg hib] at hlb hk
      rw [hrow a ha hia] at hk
      exact absurd hk.symm (hhl b hb hib hla hlb)
    · rw [if_neg hia] at hla hk
      rw [if_pos hib] at hlb hk
      rw [hrow b hb hib] at hk
      exact absurd hk (hhl a ha hia hlb hla)
    · rw [if_neg hia] at hla hk ⊢
      rw [if_neg hib] at hlb hk ⊢
      exact h.exclusive a ha b hb hla hlb hk
  · intro _ hma
    obtain ⟨a, ha, rfl⟩ := mem_set.mp hma
    by_cases hia : a.id = r.id
    · rw [if_pos hia, hrow a ha hia]
      exact hown
    · rw [if_neg hia]
      exact (h.stands a ha).mono he (hoth a ha hia)

theorem Inv.writes (h : Inv s) (hs : Sound db) (he : Extends s.db db)
    (hc : db.continuities = s.db.continuities)
    (hav : ∀ host, s.inFlight host = false → s.db.available host = false → db.available host = false) :
    Inv { s with db := db } :=
  ⟨hs, h.marked, h.exclusive, fun r hr => (h.stands r hr).mono he fun _ =>
    ⟨fun task hn => by rw [hc]; exact hn, fun host hp => by
      obtain ⟨hfl, hf, -⟩ := h.rotating hr hp
      exact ⟨hfl, hav host hfl hf⟩⟩⟩

theorem Inv.marked_put (h : Inv s) (hr : r ∈ s.requests.rows)
    (hf : r.phase.host = none) (hh : host ∈ s.starting) :
    (State.set ⟨db, starting, s.requests⟩ r.id p).inFlight host = true := by
  obtain ⟨other, hoth, hfl⟩ := inFlight_iff.mp (h.marked host hh)
  refine (inFlight_put hr).mpr (.inr ⟨other, hoth, fun hid => ?_, hfl⟩)
  rw [List.inj_on_of_nodup_map s.requests.nodup hoth hr hid, hf] at hfl
  cases hfl

theorem Inv.turn (h : Inv s) (hr : r ∈ s.requests.rows) (hfr : r.phase.host = none) (hto : p.host = none)
    (hl : p.holdsLock = true → r.phase.holdsLock = true ∨ s.locked r.body.scope.mutexKey = false)
    (hown : Stands (s.set r.id p) { r with phase := p }) : Inv (s.set r.id p) := by
  refine h.put hr h.sound (Extends.refl _) (fun host hhs => h.marked_put hr hfr hhs) hl hown
    fun other hoth hid hh => ⟨fun _ hn => hn, fun host hp => ?_⟩
  obtain ⟨hfl, hf, -⟩ := h.rotating hoth hp
  refine ⟨Bool.eq_false_iff.mpr fun ht => ?_, hf⟩
  rcases inFlight_of_put hr ht with hown | ht
  · rw [hto] at hown
    cases hown
  · rw [hfl] at ht
    cases ht

theorem mem_mark {a : Nat} : a ∈ (s.mark host).starting ↔ a = host ∨ a ∈ s.starting := by
  unfold State.mark
  split <;> simp_all

theorem Inv.begins (h : Inv s) (hr : r ∈ s.requests.rows) (hfr : r.phase.host = none) {session : Session}
    (hsession : s.db.sessions.find host = some session)
    (hk : session.slot.scope.mutexKey = r.body.scope.mutexKey)
    (hal : ∀ other ∈ s.requests.rows, other.id ≠ r.id → other.phase.holdsLock = true →
      other.body.scope.mutexKey ≠ r.body.scope.mutexKey) :
    Inv ((s.mark host).set r.id (.starting host none)) := by
  refine h.put hr h.sound (Extends.refl _) (fun a ha => ?_) (fun hh => by cases hh) ⟨⟨session, hsession, hk⟩,
    fun id hid => by cases hid⟩ fun other hoth hid hh => ⟨fun _ hn => hn, fun a hp => ?_⟩
  · rcases mem_mark.mp ha with rfl | ha
    · exact (inFlight_put hr).mpr (.inl rfl)
    · exact h.marked_put hr hfr ha
  · obtain ⟨hfl, hf, session', hs', hk'⟩ := h.rotating hoth hp
    refine ⟨Bool.eq_false_iff.mpr fun ht => ?_, hf⟩
    rcases inFlight_of_put hr ht with hown | ht
    · cases hown
      rw [hsession] at hs'
      rw [← Option.some.inj hs'] at hk'
      exact hal other hoth hid hh (hk'.symm.trans hk)
    · rw [hfl] at ht
      cases ht

end HrcRuntime.SlotClaims
