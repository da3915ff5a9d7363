import HrcRuntime.MetadataWrite

namespace HrcRuntime.SessionMetadata

open Keyed OrderedMap Schedule

variable (canonicalLaneRef : String → String)

def Event.change (e : Event) : Option (RowKey × ChangeOp) :=
  match e.payload with
  | .changed _ _ key op source _ => some (⟨e.scopeRef, e.laneRef, key, source⟩, op)
  | .rejected _ => none

def emitted (db db' : Db) : List (RowKey × ChangeOp) := (db'.events.drop db.events.length).filterMap Event.change

/-- The write passes every check: the continuity exists, an api write has no rejection, and where it has an event
to append the active session exists. -/
def Passes (db : Db) (input : WriteInput) : Prop :=
  ∃ hostSessionId, db.continuities input.scopeRef input.laneRef = some hostSessionId ∧
    ¬ (input.source = .api ∧ (validation db input).rejected ≠ []) ∧
    (changes db input = [] ∧ (validation db input).rejected = [] ∨ (db.sessions hostSessionId).isSome)

section Outcome

variable {db : Db} {input : WriteInput}

theorem changes_of_payloads (input : WriteInput) (after : List Row) (changed : List Change)
    (rejected : List Rejection) (now hostSessionId : String) (generation : Nat) : ((payloads canonicalLaneRef input after changed rejected).map fun payload =>
      (⟨now, hostSessionId, input.scopeRef, input.laneRef, generation, payload⟩ : Event)).filterMap Event.change =
        changed.map fun c => (input.rowKey c.1, c.2) := by
  have hr : ((rejected.map Payload.rejected).map fun payload =>
      (⟨now, hostSessionId, input.scopeRef, input.laneRef, generation, payload⟩ : Event)).filterMap Event.change = [] := by
    refine List.filterMap_eq_nil_iff.mpr fun e he => ?_
    simp only [List.map_map, List.mem_map] at he
    obtain ⟨r, -, rfl⟩ := he
    rfl
  rw [payloads, List.map_append, List.filterMap_append, hr, List.append_nil, List.map_map, List.filterMap_map]
  exact List.filterMap_eq_map_iff_forall_eq_some.mpr fun c _ => rfl

/-- A write that passes applies what it wants and tells what it changed; one that does not leaves all as it was. -/
theorem write_outcome (clock : String) (hbnd : Bounded db input.scopeRef input.laneRef) :
    Passes db input ∧ Applied db (db.write canonicalLaneRef input clock).2 input ∧
      (∃ events, (db.write canonicalLaneRef input clock).2.events = db.events ++ events ∧
        events.filterMap Event.change = (changes db input).map fun c => (input.rowKey c.1, c.2)) ∧
      (db.write canonicalLaneRef input clock).2.continuities = db.continuities ∧
      (db.write canonicalLaneRef input clock).2.sessions = db.sessions ∨
    ¬ Passes db input ∧ (db.write canonicalLaneRef input clock).2 = db := by
  simp only [Db.write, Passes]
  cases hh : db.continuities input.scopeRef input.laneRef with
  | none =>
    refine Or.inr ⟨?_, rfl⟩
    rintro ⟨hostSessionId, h, -⟩
    cases h
  | some hostSessionId =>
    dsimp only
    by_cases hi : input.source = .api ∧ (validation db input).rejected ≠ []
    · rw [if_pos hi]
      refine Or.inr ⟨?_, rfl⟩
      rintro ⟨_, -, h, -⟩
      exact h hi
    · rw [if_neg hi]
      have happ := applied_applyDesired db input (input.updatedAt.getD clock)
      have hc := (applyDesired_spec db input (input.updatedAt.getD clock)).2.2
      obtain ⟨response, hg, -⟩ := answers_of_bounded (happ.bounded hbnd hbnd)
      rw [hg, hc]
      dsimp only
      have hn : ∀ after, payloads canonicalLaneRef input after (changes db input) (validation db input).rejected =
          [] ↔ changes db input = [] ∧ (validation db input).rejected = [] := by
        intro after
        simp only [payloads, List.append_eq_nil_iff, List.map_eq_nil_iff]
      have he := fun after => changes_of_payloads canonicalLaneRef input after (changes db input)
        (validation db input).rejected (input.updatedAt.getD clock) hostSessionId
      split
      · rename_i hp
        have hnn := (hn _).mp hp
        refine Or.inl ⟨⟨hostSessionId, rfl, hi, Or.inl hnn⟩, happ, ⟨[], ?_, ?_⟩, rfl, rfl⟩
        · exact (List.append_nil _).symm
        · rw [hnn.1]
          rfl
      · rename_i p ps hp hsession
        refine Or.inr ⟨?_, rfl⟩
        rintro ⟨_, hs, -, hor⟩
        obtain rfl := Option.some.inj hs
        rcases hor with hnn | hsm
        · rw [(hn _).mpr hnn] at hp
          cases hp
        · rw [hsession] at hsm
          cases hsm
      · rename_i generation hsession hne
        refine Or.inl ⟨⟨hostSessionId, rfl, hi, Or.inr ?_⟩, ⟨happ.others, happ.own⟩, ⟨_, rfl, he _ generation⟩, rfl, rfl⟩
        rw [hsession]
        rfl

end Outcome

/-- A continuity's metadata is within its bounds, and `get` answers from it. -/
structure Stored (db : Db) : Prop where
  bounded : ∀ scopeRef laneRef, Bounded db scopeRef laneRef
  answers : ∀ scopeRef laneRef, Answers db scopeRef laneRef

/-- What one write does: it touches its own source alone, an api write with a rejection does nothing, the changed
events are one for each row whose stored value differs, and the same write again, at any time, emits none. -/
structure Written (db : Db) (input : WriteInput) (clock : String) : Prop where
  ownSource : ∀ row : Row, ¬ input.Owns row.rowKey →
    (row ∈ (db.write canonicalLaneRef input clock).2.metadata.rows ↔ row ∈ db.metadata.rows)
  atomic : input.source = .api → (validation db input).rejected ≠ [] → (db.write canonicalLaneRef input clock).2 = db
  changed : ∀ k op, (k, op) ∈ emitted db (db.write canonicalLaneRef input clock).2 ↔
    storedValue db.metadata k ≠ storedValue (db.write canonicalLaneRef input clock).2.metadata k ∧
      op = if (storedValue (db.write canonicalLaneRef input clock).2.metadata k).isSome then .set else .clear
  once : ((emitted db (db.write canonicalLaneRef input clock).2).map (·.1)).Nodup
  again : ∀ later, emitted (db.write canonicalLaneRef input clock).2
    ((db.write canonicalLaneRef input clock).2.write canonicalLaneRef input later).2 = []

theorem emitted_self (db : Db) : emitted db db = [] := by
  rw [emitted, List.drop_length]
  rfl

theorem emitted_append {db db' : Db} {events : List Event} (h : db'.events = db.events ++ events) :
    emitted db db' = events.filterMap Event.change := by
  rw [emitted, h, List.drop_left]

theorem written (db : Db) (input : WriteInput) (clock : String) (hbnd : Bounded db input.scopeRef input.laneRef) :
    Written canonicalLaneRef db input clock := by
  rcases write_outcome canonicalLaneRef clock hbnd with
    ⟨hp, happ, ⟨events, hevs, hc⟩, hcn, hss⟩ | ⟨hfl, hs⟩
  · have he := (emitted_append hevs).trans hc
    refine ⟨fun row how => ?_, fun hapi hr => ?_, fun k op => ?_, ?_, fun later => ?_⟩
    · have hf := happ.others row.rowKey how
      constructor
      · intro hrow
        exact (find_mem (hf.symm.trans (find_of_mem hrow))).1
      · intro hrow
        exact (find_mem (hf.trans (find_of_mem hrow))).1
    · obtain ⟨_, -, hv, -⟩ := hp
      exact absurd ⟨hapi, hr⟩ hv
    · rw [he, List.mem_map]
      constructor
      · rintro ⟨⟨key, op⟩, hmem, heq⟩
        obtain ⟨rfl, rfl⟩ := Prod.mk.inj heq
        rw [happ.own]
        exact mem_changes.mp hmem
      · rintro ⟨hne, rfl⟩
        by_cases how : input.Owns k
        · have hk := WriteInput.rowKey_of_owns how
          have hown := happ.own k.key
          rw [hk] at hown
          refine ⟨(k.key, _), mem_changes.mpr ⟨?_, rfl⟩, ?_⟩
          · rw [hk, ← hown]
            exact hne
          · rw [← hown, hk]
        · rw [storedValue, storedValue, happ.others k how] at hne
          exact absurd rfl hne
    · rw [he, List.map_map]
      have hm : (changes db input).map ((fun c => c.1) ∘ fun c => (input.rowKey c.1, c.2)) =
          ((changes db input).map (·.1)).map input.rowKey := by
        rw [List.map_map]
        rfl
      rw [hm]
      exact nodup_changes.map fun _ _ h => WriteInput.rowKey_inj.mp h
    · rcases write_outcome canonicalLaneRef later (happ.bounded hbnd hbnd) with
        ⟨-, -, ⟨events', he', hch'⟩, -, -⟩ | ⟨-, hs⟩
      · rw [(emitted_append he').trans hch', happ.changes_again hbnd]
        rfl
      · rw [hs]
        exact emitted_self _
  · refine ⟨fun row _ => by rw [hs], fun _ _ => hs, fun k op => ?_, ?_, fun later => ?_⟩
    · rw [hs, emitted_self]
      simp
    · rw [hs, emitted_self]
      exact List.nodup_nil
    · rw [hs]
      rcases write_outcome canonicalLaneRef later hbnd with ⟨hp, -⟩ | ⟨-, hag⟩
      · exact absurd hp hfl
      · rw [hag]
        exact emitted_self _

def writeStep (call : WriteInput × String) (db : Db) : Db := (db.write canonicalLaneRef call.1 call.2).2

theorem writeStep_bounded {db : Db} (h : ∀ scopeRef laneRef, Bounded db scopeRef laneRef) (call : WriteInput × String) :
    ∀ scopeRef laneRef, Bounded (writeStep canonicalLaneRef call db) scopeRef laneRef := by
  intro scopeRef laneRef
  rcases write_outcome canonicalLaneRef call.2 (h call.1.scopeRef call.1.laneRef) with
    ⟨-, happ, -⟩ | ⟨-, hs⟩
  · exact happ.bounded (h _ _) (h scopeRef laneRef)
  · rw [writeStep, hs]
    exact h scopeRef laneRef

/-- After every sequence of writes, on any continuities, the store is sound, and so is the next write. -/
theorem stored_written {db : Db} (h : ∀ scopeRef laneRef, Bounded db scopeRef laneRef)
    (calls : List (WriteInput × String)) :
    Stored (run (writeStep canonicalLaneRef) calls db) ∧
      ∀ input clock, Written canonicalLaneRef (run (writeStep canonicalLaneRef) calls db) input clock := by
  have hbnd : ∀ scopeRef laneRef, Bounded (run (writeStep canonicalLaneRef) calls db) scopeRef laneRef :=
    run_invariant (I := fun db => ∀ scopeRef laneRef, Bounded db scopeRef laneRef)
      (fun _ call h _ => writeStep_bounded canonicalLaneRef h call) h meets_true
  exact ⟨⟨hbnd, fun _ _ => answers_of_bounded (hbnd _ _)⟩,
    fun input clock => written canonicalLaneRef _ input clock (hbnd _ _)⟩

def fresh : Db where
  continuities := fun _ _ => some "hsid-meta"
  sessions := fun _ => some 1
  metadata := .empty
  events := []

def launchTitle : WriteInput where
  scopeRef := "agent:cody"
  laneRef := "main"
  source := .launch
  set := some (.obj [("title", .str " Launch "), ("appearance", .obj [("color", .str "#123456")])])
  clear := []
  replace := true
  updatedBy := "test"
  updatedAt := none

theorem stored_written_launchTitle :
    Stored (run (writeStep id) [(launchTitle, "t1")] fresh) ∧
      ∀ input clock, Written id (run (writeStep id) [(launchTitle, "t1")] fresh) input clock := by
  refine stored_written id (fun scopeRef laneRef => ⟨?_, ?_⟩) _
  · exact fun key hk => absurd hk List.not_mem_nil
  · exact Nat.zero_le _

example : (emitted fresh (run (writeStep id) [(launchTitle, "t1")] fresh)).map (fun c => (c.1.key, c.2)) =
    [("title", .set), ("appearance.color", .set)] := by decide +kernel

end HrcRuntime.SessionMetadata
