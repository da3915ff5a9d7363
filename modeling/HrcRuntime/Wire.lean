import HrcRuntime.Json

namespace HrcRuntime.Wire

/-- A number of `JSON.parse`: an integer, a finite number with a fraction as it is written back, or an
overflow to an infinity. -/
inductive Number where
  | int (n : Int)
  | fraction (text : String)
  | infinite
  deriving DecidableEq

mutual

inductive Value where
  | null
  | bool (b : Bool)
  | num (n : Number)
  | str (s : String)
  | arr (items : Values)
  | obj (members : Members)

inductive Values where
  | nil
  | cons (head : Value) (tail : Values)

inductive Members where
  | nil
  | cons (key : String) (value : Value) (rest : Members)

end

def Values.toList : Values → List Value
  | .nil => []
  | .cons head tail => head :: tail.toList

def Values.ofList : List Value → Values
  | [] => .nil
  | head :: tail => .cons head (ofList tail)

def Members.lookup (key : String) : Members → Option Value
  | .nil => none
  | .cons k v rest => if k = key then some v else rest.lookup key

/-- `Object.keys(members)`. -/
def Members.keys : Members → List String
  | .nil => []
  | .cons k _ rest => k :: rest.keys

/-- `{ ...members, [key]: value }`: an existing key keeps its place. -/
def Members.set (key : String) (value : Value) : Members → Members
  | .nil => .cons key value .nil
  | .cons k v rest => if k = key then .cons k value rest else .cons k v (rest.set key value)

def Members.ofList : List (String × Value) → Members
  | [] => .nil
  | (k, v) :: rest => .cons k v (ofList rest)

def Number.stringify : Number → String
  | .int n => toString n
  | .fraction text => text
  | .infinite => "null"

mutual

/-- `JSON.stringify(v)`. -/
def Value.stringify : Value → String
  | .null => "null"
  | .bool b => if b then "true" else "false"
  | .num n => n.stringify
  | .str s => Json.quote s
  | .arr items => "[" ++ String.intercalate "," items.texts ++ "]"
  | .obj members => "\x7b" ++ String.intercalate "," members.texts ++ "\x7d"

def Values.texts : Values → List String
  | .nil => []
  | .cons head tail => head.stringify :: tail.texts

def Members.texts : Members → List String
  | .nil => []
  | .cons k v rest => (Json.quote k ++ ":" ++ v.stringify) :: rest.texts

end

namespace Value

def record? : Value → Option Members
  | .obj members => some members
  | _ => none

/-- `v[key]` of a record. -/
def member (v : Value) (key : String) : Option Value := v.record?.bind (·.lookup key)

def isFiniteNumber : Value → Bool
  | .num (.int _) | .num (.fraction _) => true
  | _ => false

def isString (v : Value) (s : String) : Bool :=
  match v with
  | .str t => t == s
  | _ => false

end Value

def maxSafeInteger : Int := 9007199254740991

/-- `isSafeSeq(value)`: the sequence number a value is. -/
def safeSeq : Option Value → Option Nat
  | some (.num (.int n)) => if 0 ≤ n ∧ n ≤ maxSafeInteger then some n.toNat else none
  | _ => none

end HrcRuntime.Wire
