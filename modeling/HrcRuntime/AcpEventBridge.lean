import HrcRuntime.Schedule

namespace HrcRuntime.AcpEventBridge

open Schedule

def rateWindowMs : Int := 60 * 60 * 1000

def retentionMs : Int := 24 * 60 * 60 * 1000

structure LifecycleEvent where
  hrcSeq : Nat
  eventKind : String
  scopeRef : String
  runtimeId : Option String
  payloadRuntimeId : Option String

structure Envelope where
  eventId : String
  scopeRef : String
  event : String
  deriving DecidableEq

structure Activation where
  nodeId : String
  allowlist : List String
  rateCapPerWindow : Nat

def buildAcpBridgeEnvelope (nodeId : String) (event : LifecycleEvent) : Option Envelope :=
  match event.runtimeId.or event.payloadRuntimeId with
  | none => none
  | some runtimeId =>
    if runtimeId.isEmpty then none
    else some ⟨nodeId ++ ":" ++ toString event.hrcSeq, event.scopeRef, event.eventKind⟩

/-- A row of `acp_bridge_emissions`, whose key is the event id. -/
structure Slot extends Envelope where
  emittedAt : Int

def countSince (slots : List Slot) (scopeRef event : String) (since : Int) : Nat :=
  slots.countP fun r => r.scopeRef == scopeRef && r.event == event && since ≤ r.emittedAt

def Claimed (slots : List Slot) (eventId : String) : Prop := ∃ r ∈ slots, r.eventId = eventId

instance (slots : List Slot) (eventId : String) : Decidable (Claimed slots eventId) :=
  inferInstanceAs (Decidable (∃ r ∈ slots, r.eventId = eventId))

/-- `INSERT OR IGNORE`, with whether a row was written. -/
def claim (slots : List Slot) (slot : Slot) : List Slot × Bool :=
  if Claimed slots slot.eventId then (slots, false) else (slots ++ [slot], true)

def pruneBefore (slots : List Slot) (before : Int) : List Slot := slots.filter fun r => before ≤ r.emittedAt

inductive Statement where
  | pruneBefore | countSince | claim
  deriving DecidableEq

inductive Verdict where
  | refused
  | emitted (claimed : Bool)

/-- `admit` at the clock reading `now`. -/
def admitEnvelope (bridge : Activation) (slots : List Slot) (envelope : Envelope) (now : Int)
    (fault : Option Statement) : List Slot × Verdict :=
  if fault = some .pruneBefore then (slots, .refused)
  else
    let slots := pruneBefore slots (now - retentionMs)
    if fault = some .countSince then (slots, .refused)
    else if bridge.rateCapPerWindow ≤ countSince slots envelope.scopeRef envelope.event (now - rateWindowMs) then
      (slots, .refused)
    else if fault = some .claim then (slots, .refused)
    else
      let (slots, claimed) := claim slots ⟨envelope, now⟩
      (slots, .emitted claimed)

structure Emission where
  envelope : Envelope
  sentAt : Int
  claimed : Bool
  deriving DecidableEq

structure State where
  pending : List LifecycleEvent := []
  slots : List Slot := []
  emissions : List Emission := []
  clock : Int := 0

inductive Action where
  | observe (event : LifecycleEvent)
  | resume (index : Nat) (now : Int) (fault : Option Statement)
  | restart

namespace State

def observe (bridge : Activation) (s : State) (event : LifecycleEvent) : State :=
  if event.eventKind ∈ bridge.allowlist then { s with pending := s.pending ++ [event] } else s

def asked (bridge : Activation) (s : State) (index : Nat) : Option Envelope :=
  s.pending[index]?.bind (buildAcpBridgeEnvelope bridge.nodeId)

def ask (bridge : Activation) (s : State) (envelope : Envelope) (now : Int) (fault : Option Statement) : State :=
  let (slots, verdict) := admitEnvelope bridge s.slots envelope now fault
  { s with
    slots
    clock := now
    emissions := match verdict with
      | .refused => s.emissions
      | .emitted claimed => s.emissions ++ [⟨envelope, now, claimed⟩] }

def emit (bridge : Activation) (s : State) (index : Nat) (now : Int) (fault : Option Statement) : State :=
  let left := { s with pending := s.pending.eraseIdx index }
  match s.asked bridge index with
  | none => left
  | some envelope => left.ask bridge envelope now fault

end State

def step (bridge : Activation) : Action → State → State
  | .observe event, s => s.observe bridge event
  | .resume index now fault, s => s.emit bridge index now fault
  | .restart, s => { s with pending := [] }

def Bounded (cap : Nat) (s : State) : Prop :=
  ∀ (scopeRef event : String) (start : Int) (ids : List String), ids.Nodup →
    (∀ id ∈ ids, ∃ m ∈ s.emissions, m.envelope = ⟨id, scopeRef, event⟩ ∧ start ≤ m.sentAt ∧
      m.sentAt ≤ start + rateWindowMs) → ids.length ≤ cap

def Holds (s : State) (envelope : Envelope) (now : Int) : Prop :=
  Claimed (pruneBefore s.slots (now - retentionMs)) envelope.eventId

def Repeats (bridge : Activation) (s : State) : Action → Prop
  | .resume index now none => ∀ envelope ∈ s.asked bridge index, Holds s envelope now →
      (step bridge (.resume index now none) s).slots = pruneBefore s.slots (now - retentionMs) ∧
      ∃ m, (step bridge (.resume index now none) s).emissions = s.emissions ++ [m] ∧ m.envelope = envelope
  | _ => True

def Counted (s : State) (envelope : Envelope) (now : Int) : Prop :=
  ∃ r ∈ s.slots, r.toEnvelope = envelope ∧ now - rateWindowMs ≤ r.emittedAt

def Forward (bridge : Activation) (s : State) : Action → Prop
  | .resume index now _ => (s.asked bridge index).isSome = true → s.clock ≤ now
  | _ => True

/-- An event that comes again while its id holds a slot finds the pair below its cap and its slot counted, and so are
the slots of all ids of the pair that came again within the window. -/
def Counts (bridge : Activation) (s : State) : Action → Prop
  | .resume index now _ => ∀ envelope ∈ s.asked bridge index,
      (Holds s envelope now → Counted s envelope now ∧
        countSince s.slots envelope.scopeRef envelope.event (now - rateWindowMs) < bridge.rateCapPerWindow) ∧
      ∀ m ∈ s.emissions, m.claimed = false → m.envelope.scopeRef = envelope.scopeRef →
        m.envelope.event = envelope.event → now - rateWindowMs ≤ m.sentAt → Counted s m.envelope now
  | _ => True

instance (s : State) (envelope : Envelope) (now : Int) : Decidable (Holds s envelope now) :=
  inferInstanceAs (Decidable (Claimed _ _))

instance (s : State) (envelope : Envelope) (now : Int) : Decidable (Counted s envelope now) :=
  inferInstanceAs (Decidable (∃ r ∈ s.slots, _))

instance (bridge : Activation) (s : State) : (action : Action) → Decidable (Forward bridge s action)
  | .observe _ => isTrue trivial
  | .resume _ _ _ => inferInstanceAs (Decidable (_ → _))
  | .restart => isTrue trivial

instance (bridge : Activation) (s : State) : (action : Action) → Decidable (Counts bridge s action)
  | .observe _ => isTrue trivial
  | .resume index _ _ => inferInstanceAs (Decidable (∀ envelope ∈ s.asked bridge index, _))
  | .restart => isTrue trivial

end HrcRuntime.AcpEventBridge

namespace HrcRuntime.BridgeEmission

open Schedule AcpEventBridge

section Ledger

variable {slots : List Slot} {envelope : Envelope} {now since before : Int}

theorem claim_of_claimed {slot : Slot} (h : Claimed slots slot.eventId) : claim slots slot = (slots, false) :=
  if_pos h

theorem claim_of_not {slot : Slot} (h : ¬ Claimed slots slot.eventId) : claim slots slot = (slots ++ [slot], true) :=
  if_neg h

theorem mem_pruneBefore {r : Slot} : r ∈ pruneBefore slots before ↔ r ∈ slots ∧ before ≤ r.emittedAt := by
  simp [pruneBefore]

theorem countSince_pruneBefore (h : before ≤ since) (scopeRef event : String) :
    countSince (pruneBefore slots before) scopeRef event since = countSince slots scopeRef event since := by
  unfold countSince pruneBefore
  rw [List.countP_filter]
  apply List.countP_congr
  intro r _
  simp only [Bool.and_eq_true, beq_iff_eq, decide_eq_true_eq]
  constructor
  · exact fun hr => hr.1
  · exact fun hr => ⟨hr, by omega⟩

theorem length_le_countSince {ids : List String} {scopeRef event : String} (hi : ids.Nodup)
    (h : ∀ id ∈ ids, ∃ r ∈ slots, r.toEnvelope = ⟨id, scopeRef, event⟩ ∧ since ≤ r.emittedAt) :
    ids.length ≤ countSince slots scopeRef event since := by
  have hsb : ids ⊆ (slots.filter fun r =>
      r.scopeRef == scopeRef && r.event == event && since ≤ r.emittedAt).map (·.eventId) := by
    intro id hid
    obtain ⟨r, hr, he, hs⟩ := h id hid
    refine List.mem_map.mpr ⟨r, List.mem_filter.mpr ⟨hr, ?_⟩, congrArg Envelope.eventId he⟩
    simp [he, hs]
  have hl := hi.length_le_of_subset hsb
  rwa [List.length_map, ← List.countP_eq_length_filter] at hl

end Ledger

section Verdicts

variable {bridge : Activation} {slots : List Slot} {envelope : Envelope} {now : Int} {fault : Option Statement}

/-- What `admit` does to the slots and answers: prune and refuse, or below the cap claim and emit. -/
inductive Admits (bridge : Activation) (slots : List Slot) (envelope : Envelope) (now : Int) :
    List Slot × Verdict → Prop
  | broken : Admits bridge slots envelope now (slots, .refused)
  | refused : Admits bridge slots envelope now (pruneBefore slots (now - retentionMs), .refused)
  | again (room : countSince slots envelope.scopeRef envelope.event (now - rateWindowMs) < bridge.rateCapPerWindow)
      (held : Claimed (pruneBefore slots (now - retentionMs)) envelope.eventId) :
      Admits bridge slots envelope now (pruneBefore slots (now - retentionMs), .emitted false)
  | first (room : countSince slots envelope.scopeRef envelope.event (now - rateWindowMs) < bridge.rateCapPerWindow)
      (free : ¬ Claimed (pruneBefore slots (now - retentionMs)) envelope.eventId) :
      Admits bridge slots envelope now
        (pruneBefore slots (now - retentionMs) ++ [⟨envelope, now⟩], .emitted true)

theorem countSince_kept (slots : List Slot) (scopeRef event : String) (now : Int) :
    countSince (pruneBefore slots (now - retentionMs)) scopeRef event (now - rateWindowMs) =
      countSince slots scopeRef event (now - rateWindowMs) :=
  countSince_pruneBefore (by unfold retentionMs rateWindowMs; omega) _ _

theorem admits (bridge : Activation) (slots : List Slot) (envelope : Envelope) (now : Int)
    (fault : Option Statement) : Admits bridge slots envelope now (admitEnvelope bridge slots envelope now fault) := by
  unfold admitEnvelope
  split
  · exact .broken
  · dsimp only
    rw [countSince_kept]
    split
    · exact .refused
    · split
      · exact .refused
      next hr =>
        split
        · exact .refused
        · by_cases hh : Claimed (pruneBefore slots (now - retentionMs)) envelope.eventId
          · rw [claim_of_claimed hh]
            exact .again (Nat.lt_of_not_le hr) hh
          · rw [claim_of_not hh]
            exact .first (Nat.lt_of_not_le hr) hh

theorem admits_held (hh : Claimed (pruneBefore slots (now - retentionMs)) envelope.eventId)
    (hr : countSince slots envelope.scopeRef envelope.event (now - rateWindowMs) < bridge.rateCapPerWindow) :
    admitEnvelope bridge slots envelope now none = (pruneBefore slots (now - retentionMs), .emitted false) := by
  unfold admitEnvelope
  rw [if_neg (fun h => by cases h)]
  dsimp only
  rw [if_neg (fun h => by cases h), countSince_kept, if_neg (Nat.not_le.mpr hr), if_neg (fun h => by cases h),
    claim_of_claimed hh]

end Verdicts

section Runs

variable {bridge : Activation} {s : State} {envelope : Envelope} {now : Int} {fault : Option Statement}

structure Inv (bridge : Activation) (s : State) : Prop where
  past : ∀ m ∈ s.emissions, m.sentAt ≤ s.clock
  kept : ∀ m ∈ s.emissions, m.claimed = true → s.clock - retentionMs ≤ m.sentAt → (⟨m.envelope, m.sentAt⟩ : Slot) ∈ s.slots
  bounded : Bounded bridge.rateCapPerWindow s

theorem Inv.quiet (h : Inv bridge s) {t : State} (hc : s.clock ≤ t.clock) (he : t.emissions = s.emissions)
    (hs : ∀ r ∈ s.slots, t.clock - retentionMs ≤ r.emittedAt → r ∈ t.slots) : Inv bridge t := by
  refine ⟨?_, ?_, ?_⟩
  · intro m hm
    rw [he] at hm
    exact Int.le_trans (h.past m hm) hc
  · intro m hm hclm hk
    rw [he] at hm
    exact hs _ (h.kept m hm hclm (by omega)) hk
  · intro scopeRef event start ids hi hsent
    rw [he] at hsent
    exact h.bounded scopeRef event start ids hi hsent

/-- An emission whose pair has its recent ids counted in the slots, of which there are no more than the cap. -/
theorem Inv.emit (h : Inv bridge s) {t : State} {m : Emission} (hc : s.clock ≤ t.clock)
    (he : t.emissions = s.emissions ++ [m]) (hsent : m.sentAt = t.clock)
    (hsl : ∀ r ∈ s.slots, t.clock - retentionMs ≤ r.emittedAt → r ∈ t.slots)
    (hown : m.claimed = true → (⟨m.envelope, m.sentAt⟩ : Slot) ∈ t.slots)
    (hrm : countSince t.slots m.envelope.scopeRef m.envelope.event (t.clock - rateWindowMs) ≤
      bridge.rateCapPerWindow)
    (hcn : ∀ m' ∈ t.emissions, m'.envelope.scopeRef = m.envelope.scopeRef →
      m'.envelope.event = m.envelope.event → t.clock - rateWindowMs ≤ m'.sentAt → Counted t m'.envelope t.clock) :
    Inv bridge t := by
  have hm : ∀ m' ∈ t.emissions, m' ∈ s.emissions ∨ m' = m := by
    intro m' hm'
    rw [he] at hm'
    exact (List.mem_append.mp hm').imp_right List.mem_singleton.mp
  have hp : ∀ m' ∈ t.emissions, m'.sentAt ≤ t.clock := by
    intro m' hm'
    rcases hm m' hm' with hold | rfl
    · exact Int.le_trans (h.past m' hold) hc
    · exact Int.le_of_eq hsent
  refine ⟨hp, ?_, ?_⟩
  · intro m' hm' hclm hk
    rcases hm m' hm' with hold | rfl
    · exact hsl _ (h.kept m' hold hclm (by omega)) hk
    · exact hown hclm
  · intro scopeRef event start ids hi hall
    by_cases hn : ∃ id ∈ ids, m.envelope = ⟨id, scopeRef, event⟩ ∧ m.sentAt ≤ start + rateWindowMs
    · obtain ⟨id₀, _, henv, hend⟩ := hn
      rw [henv] at hrm hcn
      refine Nat.le_trans (length_le_countSince hi fun id hid => ?_) hrm
      obtain ⟨m', hm', hm'', hsta, -⟩ := hall id hid
      obtain ⟨r, hr, hr', hs⟩ := hcn m' hm' (by rw [hm'']) (by rw [hm'']) (by omega)
      exact ⟨r, hr, hr'.trans hm'', hs⟩
    · refine h.bounded scopeRef event start ids hi fun id hid => ?_
      obtain ⟨m', hm', hm'', hsta, hend⟩ := hall id hid
      rcases hm m' hm' with hold | rfl
      · exact ⟨m', hold, hm'', hsta, hend⟩
      · exact absurd ⟨id, hid, hm'', hend⟩ hn

theorem countSince_snoc_le (slots : List Slot) (slot : Slot) (scopeRef event : String) (since : Int) :
    countSince (slots ++ [slot]) scopeRef event since ≤ countSince slots scopeRef event since + 1 := by
  unfold countSince
  rw [List.countP_append]
  exact Nat.add_le_add_left List.countP_le_length _

theorem counted_before (h : Inv bridge s) (hc : s.clock ≤ now)
    (hag : ∀ m ∈ s.emissions, m.claimed = false → m.envelope.scopeRef = envelope.scopeRef →
      m.envelope.event = envelope.event → now - rateWindowMs ≤ m.sentAt → Counted s m.envelope now)
    {m : Emission} (hm : m ∈ s.emissions) (hsc : m.envelope.scopeRef = envelope.scopeRef)
    (hev : m.envelope.event = envelope.event) (hsent : now - rateWindowMs ≤ m.sentAt) :
    Counted s m.envelope now := by
  cases hclm : m.claimed with
  | false => exact hag m hm hclm hsc hev hsent
  | true =>
    have hs := h.kept m hm hclm (by unfold retentionMs; unfold rateWindowMs at hsent; omega)
    exact ⟨_, hs, rfl, hsent⟩

theorem inv_ask (h : Inv bridge s) (hclk : s.clock ≤ now)
    (hh : Holds s envelope now → Counted s envelope now)
    (hag : ∀ m ∈ s.emissions, m.claimed = false → m.envelope.scopeRef = envelope.scopeRef →
      m.envelope.event = envelope.event → now - rateWindowMs ≤ m.sentAt → Counted s m.envelope now) :
    Inv bridge (s.ask bridge envelope now fault) := by
  have hv := admits bridge s.slots envelope now fault
  have hp : ∀ r ∈ s.slots, now - retentionMs ≤ r.emittedAt → r ∈ pruneBefore s.slots (now - retentionMs) :=
    fun r hr hk => mem_pruneBefore.mpr ⟨hr, hk⟩
  have hw : ∀ r : Slot, now - rateWindowMs ≤ r.emittedAt → now - retentionMs ≤ r.emittedAt := by
    intro r hr
    unfold retentionMs
    unfold rateWindowMs at hr
    omega
  unfold State.ask
  generalize admitEnvelope bridge s.slots envelope now fault = result at hv
  cases hv with
  | broken => exact h.quiet hclk rfl fun r hr _ => hr
  | refused => exact h.quiet hclk rfl hp
  | again hrm hclm =>
    refine h.emit hclk rfl rfl hp (fun hc => by cases hc) ?_ ?_
    · dsimp only
      rw [countSince_kept]
      exact Nat.le_of_lt hrm
    · intro m' hm' hsc hev hsent
      have hcn : Counted s m'.envelope now := by
        rcases List.mem_append.mp hm' with hold | hn
        · exact counted_before h hclk hag hold hsc hev hsent
        · rw [List.mem_singleton.mp hn]
          exact hh hclm
      obtain ⟨r, hr, he, hs⟩ := hcn
      exact ⟨r, hp r hr (hw r hs), he, hs⟩
  | first hrm hf =>
    refine h.emit hclk rfl rfl (fun r hr hk => List.mem_append_left _ (hp r hr hk))
      (fun _ => List.mem_append_right _ (List.mem_singleton_self _)) ?_ ?_
    · dsimp only
      have hle := countSince_snoc_le (pruneBefore s.slots (now - retentionMs)) ⟨envelope, now⟩
        envelope.scopeRef envelope.event (now - rateWindowMs)
      rw [countSince_kept] at hle
      exact Nat.le_trans hle hrm
    · intro m' hm' hsc hev hsent
      rcases List.mem_append.mp hm' with hold | hn
      · obtain ⟨r, hr, he, hs⟩ := counted_before h hclk hag hold hsc hev hsent
        exact ⟨r, List.mem_append_left _ (hp r hr (hw r hs)), he, hs⟩
      · rw [List.mem_singleton.mp hn]
        refine ⟨⟨envelope, now⟩, List.mem_append_right _ (List.mem_singleton_self _), rfl, ?_⟩
        change now - rateWindowMs ≤ now
        unfold rateWindowMs
        omega

theorem inv_step (h : Inv bridge s) {action : Action} (hf : Forward bridge s action)
    (hcn : Counts bridge s action) : Inv bridge (step bridge action s) := by
  cases action with
  | restart => exact ⟨h.past, h.kept, h.bounded⟩
  | observe event =>
    change Inv bridge (s.observe bridge event)
    unfold State.observe
    split
    · exact ⟨h.past, h.kept, h.bounded⟩
    · exact h
  | resume index now fault =>
    change Inv bridge (s.emit bridge index now fault)
    unfold State.emit
    cases has : s.asked bridge index with
    | none => exact ⟨h.past, h.kept, h.bounded⟩
    | some envelope =>
      obtain ⟨hhl, hag⟩ := hcn envelope has
      have hc : s.clock ≤ now := hf (by rw [has]; rfl)
      have hl : Inv bridge { s with pending := s.pending.eraseIdx index } := ⟨h.past, h.kept, h.bounded⟩
      exact inv_ask hl hc (fun hh => (hhl hh).1) hag

theorem repeats_step {action : Action} (hc : Counts bridge s action) : Repeats bridge s action := by
  cases action with
  | restart => trivial
  | observe event => trivial
  | resume index now fault =>
    cases fault with
    | some statement => trivial
    | none =>
      intro envelope has hh
      have hr := ((hc envelope has).1 hh).2
      have hs : step bridge (.resume index now none) s =
          State.ask bridge { s with pending := s.pending.eraseIdx index } envelope now none := by
        change s.emit bridge index now none = _
        rw [State.emit, has]
      rw [hs, State.ask, admits_held hh hr]
      exact ⟨rfl, ⟨envelope, now, false⟩, rfl, rfl⟩

end Runs

/-- While the events that come again find their pair below its cap and the slots of repeated ids still counted, no
window holds more ids of a pair than the cap, over restarts too, and a repeated id is emitted on the slot it has. -/
theorem emission_bound (bridge : Activation) (start : Int) (actions : List Action)
    (h : Meets (step bridge) (fun s action => Forward bridge s action ∧ Counts bridge s action) actions
      { clock := start }) :
    (∀ before after, actions = before ++ after →
      Bounded bridge.rateCapPerWindow (run (step bridge) before { clock := start })) ∧
    ∀ before action after, actions = before ++ action :: after →
      Repeats bridge (run (step bridge) before { clock := start }) action := by
  have hinv : ∀ s action, Inv bridge s → Forward bridge s action ∧ Counts bridge s action →
      Inv bridge (step bridge action s) := fun s action hs hok => inv_step hs hok.1 hok.2
  have hsta : Inv bridge { clock := start } := by
    refine ⟨(fun m hm => by cases hm), (fun m hm => by cases hm), ?_⟩
    intro scopeRef event from' ids hi hsent
    cases ids with
    | nil => exact Nat.zero_le _
    | cons id ids =>
      obtain ⟨m, hm, -⟩ := hsent id List.mem_cons_self
      cases hm
  constructor
  · rintro before after rfl
    exact (run_invariant hinv hsta (meets_append.mp h).1).bounded
  · intro before action after hact
    exact run_each (P := fun s action _ => Repeats bridge s action) hinv (fun s action _ hok => repeats_step hok.2)
      hsta h hact

section Samples

def lapse (hrcSeq : Nat) : LifecycleEvent := ⟨hrcSeq, "first_turn_missing", "agent:cody", some "rt-1", none⟩

def lapseEnvelope (hrcSeq : Nat) : Envelope := ⟨"node:" ++ toString hrcSeq, "agent:cody", "first_turn_missing"⟩

def capped (cap : Nat) : Activation := ⟨"node", ["first_turn_missing"], cap⟩

def emitted (events : List (Nat × Int)) : List Action :=
  events.flatMap fun (hrcSeq, now) => [.observe (lapse hrcSeq), .resume 0 now none]

theorem emission_bound_repeated :
    Bounded 2 (run (step (capped 2)) (emitted [(1, 0), (1, 5), (2, 9)]) { clock := 0 }) ∧
    Repeats (capped 2) (run (step (capped 2)) (emitted [(1, 0)] ++ [.observe (lapse 1)]) { clock := 0 })
      (.resume 0 5 none) :=
  have h := emission_bound (capped 2) 0 (emitted [(1, 0), (1, 5), (2, 9)]) (by decide +kernel)
  ⟨h.1 _ [] (List.append_nil _).symm, h.2 _ _ (emitted [(2, 9)]) rfl⟩

/-- At a cap of one, an id that comes again is refused, and one that comes again after its window is emitted on its old
slot, beside a second id. -/
theorem repeated_ids_escape :
    ¬ Repeats (capped 1) (run (step (capped 1)) (emitted [(1, 0)] ++ [.observe (lapse 1)]) { clock := 0 })
      (.resume 0 1 none) ∧
    ¬ Bounded 1 (run (step (capped 1)) (emitted [(1, 0), (1, 3600001), (2, 3600001)]) { clock := 0 }) := by
  constructor
  · intro h
    obtain ⟨-, m, hm, -⟩ := h (lapseEnvelope 1) (by decide +kernel) (by decide +kernel)
    have hl := congrArg List.length hm
    rw [List.length_append, List.length_singleton] at hl
    exact absurd hl (by decide +kernel)
  · intro h
    have hl := h "agent:cody" "first_turn_missing" 3600001 ["node:1", "node:2"] (by decide) fun id hid => by
      rcases List.mem_cons.mp hid with rfl | hid
      · exact ⟨⟨lapseEnvelope 1, 3600001, false⟩, by decide +kernel, by decide +kernel, by decide, by decide⟩
      · obtain rfl := List.mem_singleton.mp hid
        exact ⟨⟨lapseEnvelope 2, 3600001, true⟩, by decide +kernel, by decide +kernel, by decide, by decide⟩
    exact absurd hl (by decide)

end Samples

end HrcRuntime.BridgeEmission
