import Mathlib.Data.List.Basic

namespace HrcRuntime.Text

/-- White space as `String.prototype.trim` removes it. -/
def isTrimmed (c : Char) : Bool :=
  [9, 10, 11, 12, 13, 32, 0xA0, 0x1680, 0x2028, 0x2029, 0x202F, 0x205F, 0x3000, 0xFEFF].contains c.toNat
    || (0x2000 ≤ c.toNat && c.toNat ≤ 0x200A)

/-- `text.trim().length > 0`. -/
def isNotBlank (text : String) : Bool := text.toList.any fun c => !isTrimmed c

/-- `text.trim()`. -/
def trim (text : String) : String :=
  String.ofList ((text.toList.dropWhile isTrimmed).reverse.dropWhile isTrimmed).reverse

end HrcRuntime.Text

namespace HrcRuntime.SplitText

/-- `text.split(c)`. -/
def pieces (c : Char) (text : String) : List String := (text.toList.splitOn c).map String.ofList

def joined (c : Char) : List String → String
  | [] => ""
  | [p] => p
  | p :: q :: ps => p ++ String.singleton c ++ joined c (q :: ps)

/-- `text.split_once(c)`. -/
def splitOnce (c : Char) (text : String) : Option (String × String) :=
  match text.toList.findIdx? (· == c) with
  | none => none
  | some i => some (String.ofList (text.toList.take i), String.ofList (text.toList.drop (i + 1)))

variable {c : Char} {ps : List String}

theorem toList_joined : (joined c ps).toList = [c].intercalate (ps.map String.toList) := by
  induction ps with
  | nil => rfl
  | cons p ps ih =>
    cases ps with
    | nil =>
      rw [joined, List.map_cons, List.map_nil, List.intercalate_singleton]
    | cons q ps =>
      rw [joined, String.toList_append, String.toList_append, ih]
      simp only [List.map_cons, List.intercalate_cons_cons, String.toList_singleton]

theorem joined_pieces (c : Char) (text : String) : joined c (pieces c text) = text := by
  apply String.toList_inj.mp
  rw [toList_joined, pieces, List.map_map]
  have hid : String.toList ∘ String.ofList = id := funext fun l => String.toList_ofList
  rw [hid, List.map_id, List.intercalate_splitOn]

theorem pieces_joined (hne : ps ≠ []) (h : ∀ p ∈ ps, c ∉ p.toList) : pieces c (joined c ps) = ps := by
  rw [pieces, toList_joined, List.splitOn_intercalate c ?_ ?_, List.map_map]
  · have hid : String.ofList ∘ String.toList = id := funext fun s => String.ofList_toList
    rw [hid, List.map_id]
  · intro l hl
    obtain ⟨p, hp, rfl⟩ := List.mem_map.mp hl
    exact h p hp
  · exact fun hn => hne (List.map_eq_nil_iff.mp hn)

end HrcRuntime.SplitText
