import HrcRuntime.Database
import HrcRuntime.Program
import Mathlib.Logic.Function.Basic

namespace HrcRuntime.Mapper

open Json Records Database Program

/-- What the process gives the mapper: its injectable seams, and which of its effects throw. Every
statement, commit and seam call is an effect, numbered as the process runs; a read that throws
leaves what a throw of the next effect leaves. -/
class Host where
  now : Nat → String
  rateLimitNow : Nat → Int
  randomUUID : Nat → String
  fault : Nat → Option HrcError
  /-- A file's text at the time of the call; `none` is a read that throws. -/
  readFile : Nat → String → Option String
  sha256 : String → String
  /-- `sha256` of `JSON.stringify(envelope)`. -/
  envelopeHash : InvocationEventEnvelope → String
  /-- `Date.parse`; `none` is `NaN`. -/
  parseDate : String → Option Int
  /-- The head and the tail `createToolResultSpillStub` keeps of a spilled body. -/
  spillHead : String → String
  spillTail : String → String
  ledgerIncarnationId : String
  providerTranscriptSchema : String

@[reducible] def steadyHost : Host where
  now _ := "2026-01-01T00:00:00.000Z"
  rateLimitNow _ := 0
  randomUUID n := toString n
  fault _ := none
  readFile _ _ := none
  sha256 text := text
  envelopeHash envelope := toString envelope.seq ++ envelope.type.text ++ envelope.payload.stringify
    ++ ((envelope.correlation.map Json.stringify).getD "")
  parseDate _ := none
  spillHead text := text
  spillTail _ := ""
  ledgerIncarnationId := "ledger"
  providerTranscriptSchema := "provider-transcript"

structure PendingDelta where
  throughSeq : Nat
  runtimeId : String

structure CaptureWarningLogState where
  invocationId : String
  lastLoggedAt : Int
  count : Nat

structure RunIdReservation where
  token : String
  hostSessionId : String
  generation : Nat
  runtimeId : Option String := none
  operationId : Option String := none

/-- A `BrokerEventMapper` and the database it writes. -/
structure BrokerEventMapper where
  db : Db
  nextBufferChunkSeqByRunId : String → Option Nat := fun _ => none
  pendingLateStartEvents : List HrcLifecycleEvent := []
  pendingInputEvents : List HrcLifecycleEvent := []
  retainedProjection : Bool := false
  ignoredDeltaCursors : String → Option PendingDelta := fun _ => none
  retainedIgnoredDeltaCursors : String → Option PendingDelta := fun _ => none
  captureWarningLogState : List String → Option CaptureWarningLogState := fun _ => none
  reservations : String → Option RunIdReservation := fun _ => none
  serverLog : List String := []
  tick : Nat := 0

abbrev M := Prog BrokerEventMapper HrcError

def runStatement (w : Write) : M Unit := fun s =>
  match w.run s.db with
  | .ok db => (.ok (), { s with db })
  | .error e => (.error e, s)

def query {α : Type} (q : Db → α) : M α := Prog.read fun s => q s.db

/-- `new Error(message)`, thrown. -/
def fail {α : Type} (message : String) : M α := Prog.throw (.error message)

def requireRecord {α : Type} (r : Option α) (message : String) : M α :=
  match r with
  | some a => pure a
  | none => fail message

/-- `payload.key` of an unchecked payload: reading a property of `null` throws. -/
def property (payload : Json) (key : String) : M (Option Json) :=
  match payload with
  | .null => Prog.throw (.typeError s!"null is not an object (evaluating payload.{key})")
  | v => pure (v.member key)

/-- A value bound to a text column: `undefined` and `null` bind no value, objects throw. -/
def bindText (v : Option Json) : M (Option String) :=
  match v with
  | none => pure none
  | some .null => pure none
  | some (.str s) => pure (some s)
  | some (.num n) => pure (some (toString n))
  | some (.bool b) => pure (some (if b then "1" else "0"))
  | some _ => Prog.throw (.typeError "Binding expected string, TypedArray, boolean, number, bigint or null")

def bindNat (v : Option Json) : M (Option Nat) :=
  match v with
  | none => pure none
  | some .null => pure none
  | some (.num n) => pure (some n.toNat)
  | some _ => Prog.throw (.typeError "Binding expected string, TypedArray, boolean, number, bigint or null")

structure Quiet (s s' : BrokerEventMapper) : Prop where
  db : s'.db = s.db
  retainedProjection : s'.retainedProjection = s.retainedProjection
  ignoredDeltaCursors : s'.ignoredDeltaCursors = s.ignoredDeltaCursors
  retainedIgnoredDeltaCursors : s'.retainedIgnoredDeltaCursors = s.retainedIgnoredDeltaCursors
  captureWarningLogState : s'.captureWarningLogState = s.captureWarningLogState
  reservations : s'.reservations = s.reservations

/-- A memory step, or a statement that `P` allows on the database it meets. -/
inductive Step (P : Db → Write → Prop) : BrokerEventMapper → BrokerEventMapper → Prop where
  | quiet {s s' : BrokerEventMapper} (h : Quiet s s') : Step P s s'
  | write {s : BrokerEventMapper} {db' : Db} (w : Write) (hw : P s.db w) (h : w.run s.db = .ok db') :
      Step P s { s with db := db' }

/-- The programs whose statements all satisfy `P`. -/
abbrev Writes {α : Type} (P : Db → Write → Prop) (m : M α) : Prop := Emits (Step P) m

abbrev WritesFrom {α : Type} (P : Db → Write → Prop) (s : BrokerEventMapper) (m : M α) : Prop :=
  EmitsFrom (Step P) s m

variable {s t : BrokerEventMapper} {α : Type}

theorem Step.mono {P Q : Db → Write → Prop} (h : ∀ db w, P db w → Q db w) {s' : BrokerEventMapper}
    (hs : Step P s s') : Step Q s s' := by
  cases hs with
  | quiet hq => exact .quiet hq
  | write w hw hr => exact .write w (h _ _ hw) hr

theorem Writes.mono {P Q : Db → Write → Prop} {m : M α} (hm : Writes P m)
    (h : ∀ db w, P db w → Q db w) : Writes Q m :=
  Emits.mono hm fun _ _ => Step.mono h

variable {P : Db → Write → Prop}

theorem query_readOnly (q : Db → α) : ReadOnly (query q) := ReadOnly.read _

theorem query_bind {β : Type} (q : Db → α) (f : α → M β) (s : BrokerEventMapper) :
    (query q >>= f) s = f (q s.db) s := rfl

theorem requireRecord_bind_eq_ok {β : Type} {o : Option α} {message : String} {f : α → M β}
    {b : β} :
    (requireRecord o message >>= f) s = (.ok b, t) ↔ ∃ a, o = some a ∧ f a s = (.ok b, t) := by
  cases o with
  | none => exact ⟨nofun, nofun⟩
  | some a => exact ⟨fun h => ⟨a, rfl, h⟩, fun ⟨_, ha, h⟩ => Option.some.inj ha ▸ h⟩

theorem fail_readOnly (message : String) : ReadOnly (fail message : M α) := ReadOnly.throw _

theorem requireRecord_readOnly (r : Option α) (message : String) :
    ReadOnly (requireRecord r message) := by
  cases r
  · exact fail_readOnly message
  · exact ReadOnly.pure _

theorem property_readOnly (payload : Json) (key : String) : ReadOnly (property payload key) := by
  unfold property
  split
  · exact ReadOnly.throw _
  · exact ReadOnly.pure _

theorem bindText_readOnly (v : Option Json) : ReadOnly (bindText v) := by
  unfold bindText
  split
  all_goals first | exact ReadOnly.pure _ | exact ReadOnly.throw _

theorem bindNat_readOnly (v : Option Json) : ReadOnly (bindNat v) := by
  unfold bindNat
  split
  all_goals first | exact ReadOnly.pure _ | exact ReadOnly.throw _

theorem Quiet.trans {u : BrokerEventMapper} (h : Quiet s t) (h' : Quiet t u) : Quiet s u :=
  ⟨h'.db.trans h.db, h'.retainedProjection.trans h.retainedProjection,
    h'.ignoredDeltaCursors.trans h.ignoredDeltaCursors,
    h'.retainedIgnoredDeltaCursors.trans h.retainedIgnoredDeltaCursors,
    h'.captureWarningLogState.trans h.captureWarningLogState, h'.reservations.trans h.reservations⟩

theorem steps_quiet (h : Relation.ReflTransGen (Step P) s t) :
    Quiet s { t with db := s.db } := by
  induction h with
  | refl => exact ⟨rfl, rfl, rfl, rfl, rfl, rfl⟩
  | tail _ hs ih =>
    refine ih.trans ?_
    cases hs with
    | quiet hq =>
      exact ⟨rfl, hq.retainedProjection, hq.ignoredDeltaCursors, hq.retainedIgnoredDeltaCursors,
        hq.captureWarningLogState, hq.reservations⟩
    | write w _ _ => exact ⟨rfl, rfl, rfl, rfl, rfl, rfl⟩

theorem WritesFrom.query_bind {β : Type} {q : Db → α} {f : α → M β}
    (hf : WritesFrom P s (f (q s.db))) : WritesFrom P s (query q >>= f) := hf

/-- `m` keeps `I` of the database, returned or thrown. -/
def KeepsFrom {α : Type} (I : Db → Prop) (s : BrokerEventMapper) (m : M α) : Prop := I s.db → I (m s).2.db

def Keeps {α : Type} (I : Db → Prop) (m : M α) : Prop := ∀ s, KeepsFrom I s m

section Keeps

variable {I : Db → Prop} {s : BrokerEventMapper} {α β : Type} {m : M α} {f : α → M β}

theorem KeepsFrom.bind (hm : KeepsFrom I s m) (hf : ∀ a t, m s = (.ok a, t) → KeepsFrom I t (f a)) :
    KeepsFrom I s (m >>= f) := by
  intro hs
  have ht := hm hs
  rw [bind_apply]
  rcases h : m s with ⟨e | a, t⟩
  · rwa [h] at ht
  · rw [h] at ht
    exact hf a t h ht

theorem Keeps.bind (hm : Keeps I m) (hf : ∀ a, Keeps I (f a)) : Keeps I (m >>= f) :=
  fun s => (hm s).bind fun a t _ => hf a t

theorem Keeps.of_readOnly (hm : ReadOnly m) : Keeps I m := by
  intro s hs
  rwa [hm s]

theorem Keeps.pure (a : α) : Keeps I (Pure.pure a : M α) := fun _ hs => hs

variable {g : BrokerEventMapper → BrokerEventMapper}

theorem Keeps.modify (h : ∀ s, (g s).db = s.db) :
    Keeps I (Prog.modify g) := by
  intro s hs
  rw [← h s] at hs
  exact hs

theorem Keeps.when {c : Bool} {m : M Unit} (hm : c = true → Keeps I m) : Keeps I (Prog.when c m) := by
  unfold Prog.when
  split
  · exact hm ‹_›
  · exact Keeps.pure ()

theorem Keeps.forEach {as : List α} {g : α → M Unit} (hg : ∀ a, Keeps I (g a)) : Keeps I (Prog.forEach as g) := by
  induction as with
  | nil => exact Keeps.pure ()
  | cons a as ih => exact Keeps.bind (hg a) fun _ => ih

theorem Keeps.catchWith {h : HrcError → M α} (hm : Keeps I m) (hh : ∀ e, Keeps I (h e)) :
    Keeps I (Prog.catchWith m h) := by
  intro s hs
  have ht := hm s hs
  unfold Prog.catchWith
  rcases hmt : m s with ⟨e | a, t⟩
  · rw [hmt] at ht
    exact hh e t ht
  · rwa [hmt] at ht

theorem Keeps.ensuring (hm : Keeps I m) (hg : ∀ s, (g s).db = s.db) :
    Keeps I (Prog.ensuring m g) := by
  intro s hs
  have ht := hm s hs
  rw [← hg] at ht
  exact ht

theorem KeepsFrom.of_writes (h : WritesFrom P s m)
    (hP : ∀ db w db', P db w → w.run db = .ok db' → I db → I db') : KeepsFrom I s m := by
  refine fun hs => EmitsFrom.preserves (I := fun t => I t.db) h (fun a b hst ha => ?_) hs
  cases hst with
  | quiet hq => rwa [hq.db]
  | write w hw hr => exact hP _ _ _ hw hr ha

end Keeps

variable [Host]

def effect : M Unit := fun s =>
  match Host.fault s.tick with
  | none => (.ok (), { s with tick := s.tick + 1 })
  | some e => (.error e, { s with tick := s.tick + 1 })

def statement (w : Write) : M Unit := do
  effect
  runStatement w

/-- `this.now()`. -/
def now : M String := do
  effect
  Prog.read fun s => Host.now s.tick

/-- `randomUUID()`. -/
def randomUUID : M String := do
  effect
  Prog.read fun s => Host.randomUUID s.tick

/-- `this.rateLimitNow()`. -/
def rateLimitNow : M Int := do
  effect
  Prog.read fun s => Host.rateLimitNow s.tick

/-- `readFileSync(path)`. -/
def readFileSync (path : String) : M (Option String) := Prog.read fun s => Host.readFile s.tick path

def serverLog (event : String) : M Unit := do
  effect
  Prog.modify fun s => { s with serverLog := s.serverLog ++ [event] }

/-- `db.sqlite.transaction(m)()`: a throw of the body or of the commit restores the database and
nothing else. -/
def transaction {α : Type} (m : M α) : M α :=
  Prog.transaction BrokerEventMapper.db (fun db s => { s with db }) do
    effect
    let a ← m
    effect
    pure a

section Rules

variable {s : BrokerEventMapper}

theorem effect_writes : Writes P effect := by
  intro s
  unfold EmitsFrom effect
  split <;> exact .single (.quiet ⟨rfl, rfl, rfl, rfl, rfl, rfl⟩)

variable {w : Write}

theorem statement_writesFrom (hw : P s.db w) : WritesFrom P s (statement w) := by
  refine EmitsFrom.bind (effect_writes s) fun _ s' h _ => ?_
  have hdb : s'.db = s.db := by
    unfold effect at h
    split at h <;> injection h with _ h <;> rw [← h]
  unfold EmitsFrom runStatement
  split
  · exact .single (.write w (hdb ▸ hw) ‹_›)
  · exact .refl

theorem statement_writes (hw : ∀ db, P db w) : Writes P (statement w) :=
  fun s => statement_writesFrom (hw s.db)

theorem effect_thrown {e : HrcError} (h : Host.fault s.tick = some e) : effect s = (.error e, { s with tick := s.tick + 1 }) := by
  unfold effect
  rw [h]

theorem effect_done (h : Host.fault s.tick = none) : effect s = (.ok (), { s with tick := s.tick + 1 }) := by
  unfold effect
  rw [h]

variable {t : BrokerEventMapper}

theorem effect_eq_ok {a : Unit} (h : effect s = (.ok a, t)) : t = { s with tick := s.tick + 1 } := by
  unfold effect at h
  split at h
  · cases h
    rfl
  · cases h

theorem effect_bind_eq_ok {β : Type} {f : Unit → M β} {b : β}
    (h : (effect >>= f) s = (.ok b, t)) : f () { s with tick := s.tick + 1 } = (.ok b, t) := by
  obtain ⟨_, _, he, h⟩ := bind_eq_ok.mp h
  obtain rfl := effect_eq_ok he
  exact h

theorem now_bind_eq_ok {β : Type} {f : String → M β} {b : β}
    (h : (now >>= f) s = (.ok b, t)) : f (Host.now (s.tick + 1)) { s with tick := s.tick + 1 } = (.ok b, t) := by
  obtain ⟨_, _, hn, h⟩ := bind_eq_ok.mp h
  have hr := effect_bind_eq_ok hn
  cases hr
  exact h

theorem statement_eq_ok {a : Unit} (h : statement w s = (.ok a, t)) :
    ∃ db, w.run s.db = .ok db ∧ t = { s with tick := s.tick + 1, db } := by
  have hr := effect_bind_eq_ok h
  unfold runStatement at hr
  split at hr
  · cases hr
    exact ⟨_, ‹_›, rfl⟩
  · cases hr

theorem statement_eq_error {e : HrcError} (h : statement w s = (.error e, t)) :
    t.db = s.db := by
  unfold statement at h
  rcases he : effect s with ⟨e' | _, u⟩
  · rw [bind_error he] at h
    cases h
    unfold effect at he
    split at he <;> cases he
    rfl
  · rw [bind_ok he] at h
    obtain rfl := effect_eq_ok he
    unfold runStatement at h
    split at h
    · cases h
    · cases h
      rfl

theorem now_writes : Writes P now := Emits.bind effect_writes fun _ => Emits.read _

theorem randomUUID_writes : Writes P randomUUID := Emits.bind effect_writes fun _ => Emits.read _

theorem WritesFrom.transaction {α : Type} {m : M α} (hm : Writes P m) : WritesFrom P s (transaction m) := by
  have hbd : WritesFrom P s (effect >>= fun _ => m >>= fun a => effect >>= fun _ => pure a) :=
    Emits.bind effect_writes (fun _ => Emits.bind hm fun _ => Emits.bind effect_writes fun _ => Emits.pure _) s
  unfold WritesFrom EmitsFrom at *
  unfold Mapper.transaction Prog.transaction
  split
  · rename_i h
    rwa [h] at hbd
  · rename_i h
    rw [h] at hbd
    exact .single (.quiet (steps_quiet hbd))

theorem effect_keeps {I : Db → Prop} : Keeps I effect := fun s =>
  .of_writes (effect_writes (P := fun _ _ => False) s) fun _ _ _ h => h.elim

theorem Keeps.transaction {α : Type} {I : Db → Prop} {m : M α} (hm : Keeps I m) : Keeps I (transaction m) := by
  have hbd : Keeps I (effect >>= fun _ => m >>= fun a => effect >>= fun _ => Pure.pure a) :=
    .bind effect_keeps fun _ => .bind hm fun _ => .bind effect_keeps fun _ => .pure _
  intro s hs
  have h := hbd s hs
  unfold Mapper.transaction Prog.transaction
  split
  · rename_i heq
    rwa [heq] at h
  · exact hs

theorem serverLog_writes (event : String) : Writes P (serverLog event) :=
  Emits.bind effect_writes fun _ => Emits.modify fun _ => .quiet ⟨rfl, rfl, rfl, rfl, rfl, rfl⟩

end Rules

end HrcRuntime.Mapper
