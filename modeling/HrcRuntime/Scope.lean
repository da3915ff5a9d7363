import HrcRuntime.Text
import HrcRuntime.Utf16

namespace HrcRuntime.Scope

open SplitText

structure ScopeRef where
  agent : String
  project : Option String
  task : Option String
  role : Option String

def isTokenByte (c : Char) : Bool := c.isAlphanum || c == '.' || c == '_' || c == '-'

def token (value label : String) : Except String Unit :=
  let n := (Utf16.ofString value).length
  if ¬(1 ≤ n ∧ n ≤ 64) then .error (label ++ " must be 1..64 characters, got " ++ toString n)
  else if value.toList.all isTokenByte then .ok ()
  else .error (label ++ " contains invalid characters: must match [A-Za-z0-9._-]+")

/-- `validate_parts` behind the task. -/
def validateRole : List String → Except String Unit
  | [] => .ok ()
  | [word, role] =>
    if word = "role" then token role "roleName"
    else .error "After \"task:<taskId>\", expected \"role:<roleName>\""
  | _ => .error "After \"task:<taskId>\", expected \"role:<roleName>\""

def validateTask : List String → Except String Unit
  | [] => .error "Expected \"task:<taskId>\" after project segment"
  | task :: rest => (token task "taskId").bind fun _ => validateRole rest

def validateOnlyRole : List String → Except String Unit
  | [role] => token role "roleName"
  | _ => .error "Expected exactly \"role:<roleName>\" after project segment"

/-- `validate_parts` behind the project. -/
def validateSegment : List String → Except String Unit
  | [] => .ok ()
  | word :: rest =>
    if word = "role" then validateOnlyRole rest
    else if word = "task" then validateTask rest
    else .error ("Unexpected segment \"" ++ word ++ "\" after project; expected \"role\" or \"task\"")

def validateProject : List String → Except String Unit
  | [] => .ok ()
  | word :: project :: rest =>
    if word = "project" then (token project "projectId").bind fun _ => validateSegment rest
    else .error "After \"agent:<agentId>\", expected \"project:<projectId>\""
  | _ => .error "After \"agent:<agentId>\", expected \"project:<projectId>\""

def validateParts : List String → Except String Unit
  | word :: agent :: rest =>
    if word = "agent" then (token agent "agentId").bind fun _ => validateProject rest
    else .error "ScopeRef must start with \"agent:<agentId>\""
  | _ => .error "ScopeRef must start with \"agent:<agentId>\""

def ofParts (p : List String) : ScopeRef where
  agent := p.getD 1 ""
  project := p[3]?
  task := if p[4]? = some "task" then p[5]? else none
  role := if p[4]? = some "role" then p[5]? else p[7]?

def parse (scope : String) : Except String ScopeRef :=
  let p := pieces ':' scope
  (validateParts p).map fun _ => ofParts p

def validateScope (scope : String) : Except String Unit := (parse scope).map fun _ => ()

/-- `:name:value` for a value that is given. -/
def segment (name : String) : Option String → String
  | none => ""
  | some value => ":" ++ name ++ ":" ++ value

def buildScopeRef (agent : String) (project task role : Option String) : String :=
  "agent:" ++ agent ++ segment "project" project ++ segment "task" task ++ segment "role" role

def ScopeRef.display (r : ScopeRef) : String := buildScopeRef r.agent r.project r.task r.role

def splitHandle (handle : String) : ScopeRef :=
  match splitOnce '@' handle with
  | none =>
    match splitOnce ':' handle with
    | none => ⟨handle, none, none, none⟩
    | some (agent, task) => ⟨agent, none, some task, none⟩
  | some (agent, after) =>
    let main := ((splitOnce '/' after).map Prod.fst).getD after
    let role := (splitOnce '/' after).map Prod.snd
    match splitOnce ':' main with
    | none => ⟨agent, some main, none, role⟩
    | some (project, task) => ⟨agent, some project, some task, role⟩

def tokenIfGiven (value : Option String) (label : String) : Except String Unit :=
  match value with
  | none => .ok ()
  | some value => token value label

def validateScopeHandle (handle : String) : Except String Unit :=
  if handle.isEmpty then .error "ScopeHandle must not be empty"
  else if handle.toList.contains '+' then
    .error ("provisioning directives (\"+key=value\") are not part of a ScopeHandle; " ++
      "pass the directed input to resolveQualifiedScopeInput instead")
  else do
    let s := splitHandle handle
    token s.agent "agentId"
    tokenIfGiven s.project "projectId"
    tokenIfGiven s.task "taskId"
    tokenIfGiven s.role "roleName"

def handleScope (handle : String) : String := (splitHandle handle).display

def parseScopeHandle (handle : String) : Except String String :=
  ((validateScopeHandle handle).mapError fun e => "Invalid ScopeHandle \"" ++ handle ++ "\": " ++ e).bind fun _ =>
    let scope := handleScope handle
    ((parse scope).mapError fun e => "Invalid ScopeRef \"" ++ scope ++ "\": " ++ e).map fun _ => scope

def canonicalScopeRef (raw : String) : Option String :=
  match validateScope raw with
  | .ok _ => some raw
  | .error _ => (parseScopeHandle raw).toOption

structure Identity where
  kind : String
  agentId : String
  projectId : Option String := none
  taskId : Option String := none
  roleName : Option String := none

def legacyRest (scope agent : String) : List String → Identity
  | [] => ⟨"agent", agent, none, none, none⟩
  | [w, project] =>
    if w = "project" then ⟨"project", agent, some project, none, none⟩ else ⟨"unparsed", scope, none, none, none⟩
  | [w, project, v, value] =>
    if w = "project" ∧ v = "role" then ⟨"project-role", agent, some project, none, some value⟩
    else if w = "project" ∧ v = "task" then ⟨"project-task", agent, some project, some value, none⟩
    else ⟨"unparsed", scope, none, none, none⟩
  | [w, project, v, task, u, role] =>
    if w = "project" ∧ v = "task" ∧ u = "role" then ⟨"project-task-role", agent, some project, some task, some role⟩
    else ⟨"unparsed", scope, none, none, none⟩
  | _ => ⟨"unparsed", scope, none, none, none⟩

def legacyDeriveIdentity (scope : String) : Identity :=
  match pieces ':' scope with
  | word :: agent :: rest =>
    if word ≠ "agent" ∨ agent.isEmpty then ⟨"unparsed", scope, none, none, none⟩ else legacyRest scope agent rest
  | _ => ⟨"unparsed", scope, none, none, none⟩

end HrcRuntime.Scope

namespace HrcRuntime.ScopeGrammar

open SplitText Scope
open String (toList_inj toList_append)

def IsToken (t : String) : Prop := (1 ≤ t.length ∧ t.length ≤ 64) ∧ ∀ c ∈ t.toList, isTokenByte c = true

inductive IsScopeRef : String → Prop
  | agent {a : String} (ha : IsToken a) : IsScopeRef ("agent:" ++ a)
  | project {a p : String} (ha : IsToken a) (hp : IsToken p) : IsScopeRef ("agent:" ++ a ++ ":project:" ++ p)
  | role {a p r : String} (ha : IsToken a) (hp : IsToken p) (hr : IsToken r) :
      IsScopeRef ("agent:" ++ a ++ ":project:" ++ p ++ ":role:" ++ r)
  | task {a p t : String} (ha : IsToken a) (hp : IsToken p) (ht : IsToken t) :
      IsScopeRef ("agent:" ++ a ++ ":project:" ++ p ++ ":task:" ++ t)
  | taskRole {a p t r : String} (ha : IsToken a) (hp : IsToken p) (ht : IsToken t) (hr : IsToken r) :
      IsScopeRef ("agent:" ++ a ++ ":project:" ++ p ++ ":task:" ++ t ++ ":role:" ++ r)

inductive Parts : List String → Prop
  | agent {a : String} (ha : IsToken a) : Parts ["agent", a]
  | project {a p : String} (ha : IsToken a) (hp : IsToken p) : Parts ["agent", a, "project", p]
  | role {a p r : String} (ha : IsToken a) (hp : IsToken p) (hr : IsToken r) : Parts ["agent", a, "project", p, "role", r]
  | task {a p t : String} (ha : IsToken a) (hp : IsToken p) (ht : IsToken t) : Parts ["agent", a, "project", p, "task", t]
  | taskRole {a p t r : String} (ha : IsToken a) (hp : IsToken p) (ht : IsToken t) (hr : IsToken r) :
      Parts ["agent", a, "project", p, "task", t, "role", r]

section Tokens

variable {value label : String}

theorem encodeChar_length {c : Char} (h : isTokenByte c = true) : (Utf16.encodeChar c).length = 1 := by
  have hs : c.toNat < 0x10000 := by
    delta isTokenByte Char.isAlphanum Char.isAlpha Char.isUpper Char.isLower Char.isDigit at h
    simp only [Bool.or_eq_true, Bool.and_eq_true, decide_eq_true_eq, beq_iff_eq, UInt32.le_iff_toNat_le] at h
    change c.val.toNat < 0x10000
    rcases h with ((h | rfl) | rfl) | rfl
    · rcases h with (⟨-, h⟩ | ⟨-, h⟩) | ⟨-, h⟩
      · exact Nat.lt_of_le_of_lt h (by decide)
      · exact Nat.lt_of_le_of_lt h (by decide)
      · exact Nat.lt_of_le_of_lt h (by decide)
    · decide
    · decide
    · decide
  rw [Utf16.encodeChar, if_pos hs]
  rfl

theorem utf16_length (h : ∀ c ∈ value.toList, isTokenByte c = true) : (Utf16.ofString value).length = value.length := by
  rw [Utf16.ofString, ← String.length_toList]
  generalize value.toList = l at h
  induction l with
  | nil => rfl
  | cons c l ih =>
    obtain ⟨hc, hl⟩ := List.forall_mem_cons.mp h
    rw [List.flatMap_cons, List.length_append, encodeChar_length hc, ih hl, List.length_cons, Nat.add_comm]

theorem token_eq_ok : token value label = .ok () ↔ IsToken value := by
  unfold token IsToken
  dsimp only
  split
  next hl =>
    constructor
    · intro h
      cases h
    · rintro ⟨hr, hbyt⟩
      rw [utf16_length hbyt] at hl
      exact absurd hr hl
  next hl =>
    split
    next hbyt =>
      rw [List.all_eq_true] at hbyt
      rw [utf16_length hbyt, Decidable.not_not] at hl
      exact ⟨fun _ => ⟨hl, hbyt⟩, fun _ => rfl⟩
    next hbyt =>
      constructor
      · intro h
        cases h
      · rintro ⟨-, hall⟩
        exact absurd (List.all_eq_true.mpr hall) hbyt

theorem IsToken.not_mem_colon (h : IsToken value) : ':' ∉ value.toList := by
  intro hm
  have := h.2 ':' hm
  revert this
  decide

theorem token_bind {f : Unit → Except String Unit} :
    (token value label).bind f = .ok () ↔ IsToken value ∧ f () = .ok () := by
  cases h : token value label with
  | ok u => exact ⟨fun hf => ⟨token_eq_ok.mp h, hf⟩, fun hf => hf.2⟩
  | error e =>
    constructor
    · intro hf
      cases hf
    · rintro ⟨hv, -⟩
      rw [token_eq_ok.mpr hv] at h
      cases h

end Tokens

section Parts

variable {p : List String}

theorem Parts.valid (h : Parts p) : validateParts p = .ok () := by
  cases h with
  | agent ha => exact token_bind.mpr ⟨ha, rfl⟩
  | project ha hp => exact token_bind.mpr ⟨ha, token_bind.mpr ⟨hp, rfl⟩⟩
  | role ha hp hr => exact token_bind.mpr ⟨ha, token_bind.mpr ⟨hp, token_eq_ok.mpr hr⟩⟩
  | task ha hp ht => exact token_bind.mpr ⟨ha, token_bind.mpr ⟨hp, token_bind.mpr ⟨ht, rfl⟩⟩⟩
  | taskRole ha hp ht hr =>
    exact token_bind.mpr ⟨ha, token_bind.mpr ⟨hp, token_bind.mpr ⟨ht, token_eq_ok.mpr hr⟩⟩⟩

variable {rest : List String}

theorem validateRole_ok (h : validateRole rest = .ok ()) :
    rest = [] ∨ ∃ r, IsToken r ∧ rest = ["role", r] := by
  rcases rest with - | ⟨word, - | ⟨role, - | ⟨_, _⟩⟩⟩
  · exact Or.inl rfl
  · cases h
  · rw [validateRole] at h
    split at h
    next hw =>
      subst hw
      exact Or.inr ⟨role, token_eq_ok.mp h, rfl⟩
    next => cases h
  · cases h

theorem validateSegment_ok (h : validateSegment rest = .ok ()) :
    rest = [] ∨ (∃ r, IsToken r ∧ rest = ["role", r]) ∨ (∃ t, IsToken t ∧ rest = ["task", t]) ∨
      ∃ t r, IsToken t ∧ IsToken r ∧ rest = ["task", t, "role", r] := by
  rcases rest with - | ⟨word, rest⟩
  · exact Or.inl rfl
  rw [validateSegment] at h
  split at h
  next hw =>
    subst hw
    rcases rest with - | ⟨role, - | ⟨_, _⟩⟩
    · cases h
    · exact Or.inr (Or.inl ⟨role, token_eq_ok.mp h, rfl⟩)
    · cases h
  split at h
  next hw =>
    subst hw
    rcases rest with - | ⟨task, rest⟩
    · cases h
    obtain ⟨ht, hrs⟩ := token_bind.mp h
    rcases validateRole_ok hrs with rfl | ⟨r, hr, rfl⟩
    · exact Or.inr (Or.inr (Or.inl ⟨task, ht, rfl⟩))
    · exact Or.inr (Or.inr (Or.inr ⟨task, r, ht, hr, rfl⟩))
  next => cases h

theorem validateProject_ok (h : validateProject rest = .ok ()) :
    rest = [] ∨ ∃ p more, IsToken p ∧ validateSegment more = .ok () ∧ rest = "project" :: p :: more := by
  rcases rest with - | ⟨word, - | ⟨project, more⟩⟩
  · exact Or.inl rfl
  · cases h
  · rw [validateProject] at h
    split at h
    next hw =>
      subst hw
      obtain ⟨hp, hm⟩ := token_bind.mp h
      exact Or.inr ⟨project, more, hp, hm, rfl⟩
    next => cases h

theorem parts_of_valid (h : validateParts p = .ok ()) : Parts p := by
  rcases p with - | ⟨word, - | ⟨agent, rest⟩⟩
  · cases h
  · cases h
  rw [validateParts] at h
  split at h
  next hw =>
    subst hw
    obtain ⟨ha, hrs⟩ := token_bind.mp h
    rcases validateProject_ok hrs with rfl | ⟨project, more, hp, hm, rfl⟩
    · exact .agent ha
    rcases validateSegment_ok hm with rfl | ⟨r, hr, rfl⟩ | ⟨t, ht, rfl⟩ | ⟨t, r, ht, hr, rfl⟩
    · exact .project ha hp
    · exact .role ha hp hr
    · exact .task ha hp ht
    · exact .taskRole ha hp ht hr
  next => cases h

def Unsplit (p : List String) : Prop := ∀ part ∈ p, ':' ∉ part.toList

theorem unsplit_nil : Unsplit [] := fun _ h => absurd h List.not_mem_nil

theorem unsplit_pair {name value : String} (hn : ':' ∉ name.toList) (hv : IsToken value) (hp : Unsplit p) :
    Unsplit (name :: value :: p) :=
  List.forall_mem_cons.mpr ⟨hn, List.forall_mem_cons.mpr ⟨hv.not_mem_colon, hp⟩⟩

theorem Parts.unsplit (h : Parts p) : Unsplit p := by
  have hag : ':' ∉ "agent".toList := by decide
  have hpr : ':' ∉ "project".toList := by decide
  have hts : ':' ∉ "task".toList := by decide
  have hrl : ':' ∉ "role".toList := by decide
  cases h with
  | agent ha => exact unsplit_pair hag ha unsplit_nil
  | project ha hp => exact unsplit_pair hag ha (unsplit_pair hpr hp unsplit_nil)
  | role ha hp hr => exact unsplit_pair hag ha (unsplit_pair hpr hp (unsplit_pair hrl hr unsplit_nil))
  | task ha hp ht => exact unsplit_pair hag ha (unsplit_pair hpr hp (unsplit_pair hts ht unsplit_nil))
  | taskRole ha hp ht hr =>
    exact unsplit_pair hag ha (unsplit_pair hpr hp (unsplit_pair hts ht (unsplit_pair hrl hr unsplit_nil)))

theorem Parts.ne_nil (h : Parts p) : p ≠ [] := by
  cases h <;> exact List.cons_ne_nil _ _

theorem Parts.display (h : Parts p) : (ofParts p).display = joined ':' p := by
  apply toList_inj.mp
  cases h <;> simp [ofParts, ScopeRef.display, buildScopeRef, Scope.segment, joined, toList_append]

theorem Parts.isScopeRef (h : Parts p) : IsScopeRef (joined ':' p) := by
  cases h with
  | @agent a ha =>
    have htx : joined ':' ["agent", a] = "agent:" ++ a := by
      apply toList_inj.mp
      simp [joined, toList_append]
    rw [htx]
    exact .agent ha
  | @project a p ha hp =>
    have htx : joined ':' ["agent", a, "project", p] = "agent:" ++ a ++ ":project:" ++ p := by
      apply toList_inj.mp
      simp [joined, toList_append]
    rw [htx]
    exact .project ha hp
  | @role a p r ha hp hr =>
    have htx : joined ':' ["agent", a, "project", p, "role", r] =
        "agent:" ++ a ++ ":project:" ++ p ++ ":role:" ++ r := by
      apply toList_inj.mp
      simp [joined, toList_append]
    rw [htx]
    exact .role ha hp hr
  | @task a p t ha hp ht =>
    have htx : joined ':' ["agent", a, "project", p, "task", t] =
        "agent:" ++ a ++ ":project:" ++ p ++ ":task:" ++ t := by
      apply toList_inj.mp
      simp [joined, toList_append]
    rw [htx]
    exact .task ha hp ht
  | @taskRole a p t r ha hp ht hr =>
    have htx : joined ':' ["agent", a, "project", p, "task", t, "role", r] =
        "agent:" ++ a ++ ":project:" ++ p ++ ":task:" ++ t ++ ":role:" ++ r := by
      apply toList_inj.mp
      simp [joined, toList_append]
    rw [htx]
    exact .taskRole ha hp ht hr

theorem exists_parts {scope : String} (h : IsScopeRef scope) : ∃ p, Parts p ∧ scope = joined ':' p := by
  cases h with
  | agent ha => exact ⟨_, .agent ha, toList_inj.mp (by simp [joined, toList_append])⟩
  | project ha hp => exact ⟨_, .project ha hp, toList_inj.mp (by simp [joined, toList_append])⟩
  | role ha hp hr => exact ⟨_, .role ha hp hr, toList_inj.mp (by simp [joined, toList_append])⟩
  | task ha hp ht => exact ⟨_, .task ha hp ht, toList_inj.mp (by simp [joined, toList_append])⟩
  | taskRole ha hp ht hr =>
    exact ⟨_, .taskRole ha hp ht hr, toList_inj.mp (by simp [joined, toList_append])⟩

end Parts

section Parse

variable {scope handle : String} {r : ScopeRef}

theorem parse_eq_ok : parse scope = .ok r ↔ Parts (pieces ':' scope) ∧ r = ofParts (pieces ':' scope) := by
  unfold parse
  dsimp only
  cases h : validateParts (pieces ':' scope) with
  | ok u =>
    rw [Except.map]
    constructor
    · intro heq
      exact ⟨parts_of_valid h, (Except.ok.inj heq).symm⟩
    · rintro ⟨-, rfl⟩
      rfl
  | error e =>
    constructor
    · intro heq
      cases heq
    · rintro ⟨hp, -⟩
      rw [hp.valid] at h
      cases h

theorem parse_iff : (∃ r, parse scope = .ok r) ↔ IsScopeRef scope := by
  constructor
  · rintro ⟨r, h⟩
    have hpts := (parse_eq_ok.mp h).1.isScopeRef
    rwa [joined_pieces] at hpts
  · intro h
    obtain ⟨p, hp, rfl⟩ := exists_parts h
    refine ⟨_, parse_eq_ok.mpr ⟨?_, rfl⟩⟩
    rwa [pieces_joined hp.ne_nil hp.unsplit]

theorem display_of_parse (h : parse scope = .ok r) : r.display = scope := by
  obtain ⟨hp, rfl⟩ := parse_eq_ok.mp h
  rw [hp.display, joined_pieces]

def identity (r : ScopeRef) : Identity where
  kind :=
    match r.project, r.task, r.role with
    | none, _, _ => "agent"
    | some _, none, none => "project"
    | some _, none, some _ => "project-role"
    | some _, some _, none => "project-task"
    | some _, some _, some _ => "project-task-role"
  agentId := r.agent
  projectId := r.project
  taskId := r.task
  roleName := r.role

theorem IsToken.isEmpty_eq {value : String} (h : IsToken value) : value.isEmpty = false := by
  refine Bool.eq_false_iff.mpr fun he => ?_
  have hn := String.isEmpty_iff.mp he
  have hl := h.1.1
  rw [hn] at hl
  exact absurd hl (by decide)

theorem legacy_of_parse (h : parse scope = .ok r) : legacyDeriveIdentity scope = identity r := by
  obtain ⟨hpts, rfl⟩ := parse_eq_ok.mp h
  unfold legacyDeriveIdentity
  generalize pieces ':' scope = p at hpts
  cases hpts with
  | agent ha =>
    dsimp only
    rw [if_neg (by simp [ha.isEmpty_eq])]
    rfl
  | project ha hp =>
    dsimp only
    rw [if_neg (by simp [ha.isEmpty_eq])]
    rfl
  | role ha hp hr =>
    dsimp only
    rw [if_neg (by simp [ha.isEmpty_eq])]
    rfl
  | task ha hp ht =>
    dsimp only
    rw [if_neg (by simp [ha.isEmpty_eq])]
    rfl
  | taskRole ha hp ht hr =>
    dsimp only
    rw [if_neg (by simp [ha.isEmpty_eq])]
    rfl

theorem parse_of_handle {ref : String} (h : parseScopeHandle handle = .ok ref) : ∃ r, parse ref = .ok r := by
  unfold parseScopeHandle at h
  cases hv : validateScopeHandle handle with
  | error e =>
    rw [hv] at h
    cases h
  | ok u =>
    rw [hv] at h
    dsimp only [Except.mapError, Except.bind] at h
    cases hp : parse (handleScope handle) with
    | error e =>
      rw [hp] at h
      cases h
    | ok r =>
      rw [hp] at h
      cases h
      exact ⟨r, hp⟩

theorem canonicalScopeRef_of_parse (h : parse scope = .ok r) : canonicalScopeRef scope = some scope := by
  rw [canonicalScopeRef, validateScope, h]
  rfl

theorem parse_of_canonical {canonical : String} (h : canonicalScopeRef scope = some canonical) :
    ∃ r, parse canonical = .ok r := by
  unfold canonicalScopeRef at h
  cases hp : parse scope with
  | ok r =>
    rw [validateScope, hp] at h
    cases h
    exact ⟨r, hp⟩
  | error e =>
    rw [validateScope, hp] at h
    change (parseScopeHandle scope).toOption = some canonical at h
    cases hh : parseScopeHandle scope with
    | ok ref =>
      rw [hh] at h
      cases h
      exact parse_of_handle hh
    | error e =>
      rw [hh] at h
      cases h

end Parse

/-- The strict parser accepts the scope references and nothing else; displaying undoes parsing and parsing
undoes displaying; handles and the canonical form give references with one spelling, and the lenient
projection agrees with the strict parse where that accepts. -/
theorem scope_grammar (text : String) :
    ((∃ r, parse text = .ok r) ↔ IsScopeRef text) ∧
    (∀ r, parse text = .ok r →
      parse r.display = .ok r ∧ r.display = text ∧ legacyDeriveIdentity text = identity r) ∧
    (∀ ref, parseScopeHandle text = .ok ref → ∃ r, parse ref = .ok r ∧ r.display = ref) ∧
    (∀ canonical, canonicalScopeRef text = some canonical → canonicalScopeRef canonical = some canonical) := by
  refine ⟨parse_iff, fun r h => ?_, fun ref h => ?_, fun canonical h => ?_⟩
  · have hd := display_of_parse h
    refine ⟨?_, hd, legacy_of_parse h⟩
    rw [hd]
    exact h
  · obtain ⟨r, hr⟩ := parse_of_handle h
    exact ⟨r, hr, display_of_parse hr⟩
  · obtain ⟨r, hr⟩ := parse_of_canonical h
    exact canonicalScopeRef_of_parse hr

end HrcRuntime.ScopeGrammar
