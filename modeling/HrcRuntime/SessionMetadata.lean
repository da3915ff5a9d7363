import HrcRuntime.Json
import HrcRuntime.LifecyclePayload
import HrcRuntime.OrderedMap
import HrcRuntime.Text
import Mathlib.Data.List.SplitOn

namespace HrcRuntime.SessionMetadata

open Json OrderedMap Text LifecyclePayload

inductive Scalar where
  | null
  | bool (b : Bool)
  | num (text : String)
  | str (s : String)
  deriving DecidableEq

inductive Value where
  | scalar (s : Scalar)
  | items (ss : List Scalar)
  deriving DecidableEq

/-- A JSON input. A finite number is the text JavaScript prints for it; an object is its `Object.entries`. -/
inductive Input where
  | null
  | bool (b : Bool)
  | num (text : String)
  | nonFinite
  | str (s : String)
  | arr (items : List Input)
  | obj (entries : List (String × Input))

def Input.scalar : Input → Option Scalar
  | .null => some .null
  | .bool b => some (.bool b)
  | .num text => some (.num text)
  | .str s => some (.str s)
  | _ => none

def Input.value : Input → Option Value
  | .arr items => (items.mapM Input.scalar).map .items
  | input => input.scalar.map .scalar

def Scalar.stringify : Scalar → String
  | .null => "null"
  | .bool b => if b then "true" else "false"
  | .num text => text
  | .str s => quote s

def Value.stringify : Value → String
  | .scalar s => s.stringify
  | .items ss => "[" ++ String.intercalate "," (ss.map Scalar.stringify) ++ "]"

def segments (key : String) : List (List Char) := key.toList.splitOn '.'

def isSegment : List Char → Bool
  | [] => false
  | c :: rest => c.isLower && rest.length ≤ 63 && rest.all Char.isAlphanum

def keyPattern (key : String) : Bool := (segments key).length ≤ 4 && (segments key).all isSegment

def boundedText (maxLength : Nat) : Value → Option String
  | .scalar (.str s) =>
    let text := trim s
    if text.isEmpty then some "must be non-empty"
    else if maxLength < (text.toList.map utf16Length).foldl (· + ·) 0 then
      some ("must be at most " ++ toString maxLength ++ " characters")
    else if text.toList.any fun c => c.toNat < 32 || c.toNat == 127 then some "must not contain control characters"
    else none
  | _ => some "must be a string"

def isHexDigit (c : Char) : Bool := c.isDigit || ('a' ≤ c && c ≤ 'f') || ('A' ≤ c && c ≤ 'F')

def hexColor (value : Value) : Option String :=
  match value with
  | .scalar (.str s) =>
    match s.toList with
    | '#' :: digits =>
      if digits.length = 6 && digits.all isHexDigit then none else some "must be a #RRGGBB hex color"
    | _ => some "must be a #RRGGBB hex color"
  | _ => some "must be a #RRGGBB hex color"

def registeredSessionMetadata : List (String × (Value → Option String)) :=
  [("title", boundedText 200), ("appearance.color", hexColor), ("appearance.terminalBg", hexColor)]

/-- `validateSessionMetadataEntry`; `value` is absent where the input is no scalar and no array of scalars. -/
def validateSessionMetadataEntry (key : String) (value : Option Value) (registered : Bool) : Except String Value :=
  if !keyPattern key || 128 < key.utf8ByteSize then
    .error "key must have 1–4 valid segments (at most 64 characters each) and at most 128 bytes"
  else match value with
    | none => .error "value must be a JSON scalar or array of scalars"
    | some value =>
      if 4096 < value.stringify.utf8ByteSize then .error "serialized value must be at most 4096 bytes"
      else match (if registered then get key registeredSessionMetadata else none).bind (· value) with
        | some reason => .error reason
        | none => match value with
          | .scalar (.str s) => .ok (.scalar (.str (if key == "title" && registered then trim s else s)))
          | value => .ok value

/-- `key.startsWith(ancestor + '.')`. -/
def startsUnder (ancestor key : String) : Bool := (ancestor.toList ++ ['.']).isPrefixOf key.toList

structure Rejection where
  key : String
  reason : String

structure Validation where
  values : List (String × Value)
  rejected : List Rejection

def Validation.reject (v : Validation) (key reason : String) : Validation :=
  { v with rejected := v.rejected ++ [⟨key, reason⟩] }

/-- A leaf of `visit`, its key valid. -/
def visitLeaf (key : String) (value : Option Value) (acc : Validation) : Validation :=
  match validateSessionMetadataEntry key value false with
  | .error reason => acc.reject key reason
  | .ok value =>
    match (keys acc.values).find? fun held => held == key || startsUnder key held || startsUnder held key with
    | some collision => acc.reject key ("key collides with " ++ collision)
    | none => { acc with values := set key value acc.values }

mutual

def visit (key : String) : Input → Validation → Validation
  | .obj entries, acc =>
    match validateSessionMetadataEntry key (some (.scalar .null)) false with
    | .error reason => acc.reject key reason
    | .ok _ => visitEntries key entries acc
  | input, acc =>
    match validateSessionMetadataEntry key (some (.scalar .null)) false with
    | .error reason => acc.reject key reason
    | .ok _ => visitLeaf key input.value acc

def visitEntries (key : String) : List (String × Input) → Validation → Validation
  | [], acc => acc
  | (child, leaf) :: entries, acc =>
    visitEntries key entries (visit (if key.isEmpty then child else key ++ "." ++ child) leaf acc)

end

def flattenSessionMetadata : Input → Validation
  | .obj entries => visitEntries "" entries ⟨[], []⟩
  | _ => ⟨[], [⟨"", "metadata must be an object"⟩]⟩

def SESSION_METADATA_MAX_KEYS : Nat := 64

def admitEntry (registered : Bool) (held : List String) (key : String) (value : Value) : Except String Value :=
  match validateSessionMetadataEntry key (some value) registered with
  | .error reason => .error reason
  | .ok value =>
    match held.find? fun other => other != key && (startsUnder key other || startsUnder other key) with
    | some collision => .error ("key collides with " ++ collision)
    | none =>
      if key ∉ held ∧ SESSION_METADATA_MAX_KEYS ≤ held.length then
        .error "continuity may hold at most 64 distinct keys"
      else .ok value

/-- `Set.add`. -/
def addKey (held : List String) (key : String) : List String := if key ∈ held then held else held ++ [key]

/-- The loop of `validateSessionMetadata` over the flat entries. -/
@[grind =]
def admitEntries (registered : Bool) : List (String × Value) → List String → Validation → Validation
  | [], _, acc => acc
  | (key, value) :: entries, held, acc =>
    match admitEntry registered held key value with
    | .error reason => admitEntries registered entries held (acc.reject key reason)
    | .ok value => admitEntries registered entries (addKey held key) { acc with values := set key value acc.values }

def validateSessionMetadata (input : Input) (existingKeys : List String) (registered : Bool) : Validation :=
  let flat := flattenSessionMetadata input
  admitEntries registered flat.values (existingKeys.foldl addKey []) ⟨[], flat.rejected⟩

/-- A nested value: `{}` with its properties, or a leaf. -/
inductive Tree where
  | leaf (v : Value)
  | node (fields : List (String × Tree))

def parts (key : String) : List String := (segments key).map String.ofList

/-- The walk of `nestSessionMetadata` for one key. No result where it comes to a part that is already a leaf: there
the code throws, or writes a property onto an array. -/
@[grind =]
def nestInto : List (String × Tree) → List String → Value → Option (List (String × Tree))
  | fields, [], _ => some fields
  | fields, [part], value => some (set part (.leaf value) fields)
  | fields, part :: rest, value =>
    match get part fields with
    | none => (nestInto [] rest value).map fun child => set part (.node child) fields
    | some (.node child) => (nestInto child rest value).map fun child => set part (.node child) fields
    | some (.leaf _) => none

def nestSessionMetadata (values : List (String × Value)) : Option (List (String × Tree)) :=
  values.foldlM (fun fields e => nestInto fields (parts e.1) e.2) []

/-- `truncateMetadataUpdatedBy`. -/
def truncateChars : List Char → String → String
  | [], result => result
  | c :: rest, result =>
    if 256 < (result.push c ++ "…").utf8ByteSize then result else truncateChars rest (result.push c)

def truncateMetadataUpdatedBy (value : String) : String :=
  if value.utf8ByteSize ≤ 256 then value else truncateChars value.toList "" ++ "…"

end HrcRuntime.SessionMetadata
