namespace HrcRuntime.Json

mutual

/-- A JSON value. Numbers are the integers the code reads; `undefined` is an absent field. -/
inductive Json where
  | null
  | bool (b : Bool)
  | num (n : Int)
  | str (s : String)
  | arr (items : Items)
  | obj (fields : Fields)
  deriving DecidableEq

inductive Items where
  | nil
  | cons (head : Json) (tail : Items)

inductive Fields where
  | nil
  | cons (key : String) (value : Json) (rest : Fields)
  deriving DecidableEq

end

def Items.toList : Items → List Json
  | .nil => []
  | .cons head tail => head :: tail.toList

def Items.ofList : List Json → Items
  | [] => .nil
  | head :: tail => .cons head (ofList tail)

def Fields.lookup (key : String) : Fields → Option Json
  | .nil => none
  | .cons k v rest => if k = key then some v else rest.lookup key

/-- `{ ...fields, [key]: value }`: an existing key keeps its place. -/
def Fields.set (key : String) (value : Json) : Fields → Fields
  | .nil => .cons key value .nil
  | .cons k v rest => if k = key then .cons k value rest else .cons k v (rest.set key value)

theorem Fields.lookup_set_of_ne {key key' : String} (h : key ≠ key') (value : Json) :
    (fields : Fields) → (fields.set key value).lookup key' = fields.lookup key'
  | .nil => by simp only [Fields.set, Fields.lookup, if_neg h]
  | .cons k v rest => by
      unfold Fields.set
      split
      · subst k
        simp only [Fields.lookup, if_neg h]
      · simp only [Fields.lookup, Fields.lookup_set_of_ne h value rest]

def Fields.erase (key : String) : Fields → Fields
  | .nil => .nil
  | .cons k v rest => if k = key then rest.erase key else .cons k v (rest.erase key)

/-- `{ ...fields, ...others }`. -/
def Fields.assign (fields : Fields) : Fields → Fields
  | .nil => fields
  | .cons k v rest => (fields.set k v).assign rest

namespace Json

/-- An object literal: entries whose value is `undefined` are left out. -/
def object (entries : List (String × Option Json)) : Json :=
  .obj (entries.foldr (fun e fields => match e.2 with
    | some v => .cons e.1 v fields
    | none => fields) .nil)

def array (items : List Json) : Json := .arr (.ofList items)

def isRecord : Json → Bool
  | .obj _ => true
  | _ => false

/-- `isRecord(v) ? v : {}`. -/
def recordFields : Json → Fields
  | .obj fields => fields
  | _ => .nil

/-- `v[key]`, `none` for `undefined`. -/
def member (v : Json) (key : String) : Option Json := v.recordFields.lookup key

def asString : Json → Option String
  | .str s => some s
  | _ => none

def asNum : Json → Option Int
  | .num n => some n
  | _ => none

/-- `typeof v[key] === 'string' ? v[key] : undefined`. -/
def stringField (v : Json) (key : String) : Option String := (v.member key).bind asString

def ofString (s : String) : Json := .str s

def ofNat (n : Nat) : Json := .num n

def ofOption (s : Option String) : Json := match s with
  | some s => .str s
  | none => .null

end Json

def hexDigit (n : Nat) : Char := "0123456789abcdef".toList.getD n '0'

/-- How `JSON.stringify` writes one character of a string. -/
def escapeChar (c : Char) : List Char :=
  if c = '"' then ['\\', '"']
  else if c = '\\' then ['\\', '\\']
  else if c.toNat = 8 then ['\\', 'b']
  else if c.toNat = 9 then ['\\', 't']
  else if c.toNat = 10 then ['\\', 'n']
  else if c.toNat = 12 then ['\\', 'f']
  else if c.toNat = 13 then ['\\', 'r']
  else if c.toNat < 32 then ['\\', 'u', '0', '0', hexDigit (c.toNat / 16), hexDigit (c.toNat % 16)]
  else [c]

def quote (s : String) : String := String.ofList ('"' :: s.toList.flatMap escapeChar ++ ['"'])

mutual

/-- `JSON.stringify(v)`. -/
def Json.stringify : Json → String
  | .null => "null"
  | .bool b => if b then "true" else "false"
  | .num n => toString n
  | .str s => quote s
  | .arr items => "[" ++ String.intercalate "," items.texts ++ "]"
  | .obj fields => "\x7b" ++ String.intercalate "," fields.texts ++ "\x7d"

def Items.texts : Items → List String
  | .nil => []
  | .cons head tail => head.stringify :: tail.texts

def Fields.texts : Fields → List String
  | .nil => []
  | .cons k v rest => (quote k ++ ":" ++ v.stringify) :: rest.texts

end

mutual

/-- `String(v)`. -/
def Json.toText : Json → String
  | .null => "null"
  | .bool b => if b then "true" else "false"
  | .num n => toString n
  | .str s => s
  | .arr items => String.intercalate "," items.joinTexts
  | .obj _ => "[object Object]"

def Items.joinTexts : Items → List String
  | .nil => []
  | .cons .null tail => "" :: tail.joinTexts
  | .cons head tail => head.toText :: tail.joinTexts

end

/-- `Buffer.byteLength(JSON.stringify(v), 'utf8')`. -/
def Json.byteLength (v : Json) : Nat := v.stringify.utf8ByteSize

end HrcRuntime.Json
