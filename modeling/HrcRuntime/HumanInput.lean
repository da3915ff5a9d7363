import Mathlib.Data.List.Basic
import HrcRuntime.TokenScan

namespace HrcRuntime.HumanInput

open TokenScan

inductive Fault where
  | range | running

abbrev byte (c : Char) : UInt8 := c.toUInt8

abbrev escape : UInt8 := 0x1b
abbrev bell : UInt8 := 0x07

def slice (bytes : List UInt8) (start stop : Nat) : Except Fault (List UInt8) :=
  if start ≤ stop ∧ stop ≤ bytes.length then .ok ((bytes.take stop).drop start) else .error .range

def index (bytes : List UInt8) (i : Nat) : Except Fault UInt8 :=
  match bytes[i]? with
  | some b => .ok b
  | none => .error .range

/-- `a && b`, where `b` is only evaluated when `a` holds. -/
def andThen (a : Bool) (b : Except Fault Bool) : Except Fault Bool := if a then b else .ok false

def isDigit (b : UInt8) : Bool := byte '0' ≤ b && b ≤ byte '9'

def isFinal (b : UInt8) : Bool := 0x40 ≤ b && b ≤ 0x7e

def parts (p : List UInt8) : List (List UInt8) := p.splitOn (byte ';')

def numbers (p : List UInt8) : Bool := !p.isEmpty && (parts p).all fun n => !n.isEmpty && n.all isDigit

def csiReply (params : List UInt8) (final : UInt8) : Except Fault Bool :=
  if final = byte 'I' ∨ final = byte 'O' then .ok params.isEmpty
  else if final = byte 'M' ∨ final = byte 'm' then
    andThen (params.head? == some (byte '<')) do
      let tail ← slice params 1 params.length
      return numbers tail && (parts params).length == 3
  else if final = byte 'R' then .ok (numbers params && (parts params).length == 2)
  else if final = byte 'c' then
    andThen (params.head? == some (byte '?') || params.head? == some (byte '>')) do
      let tail ← slice params 1 params.length
      return numbers tail
  else if final = byte 'y' then
    andThen (params.head? == some (byte '?') && params.getLast? == some (byte '$')) do
      let middle ← slice params 1 (params.length - 1)
      return numbers middle
  else if final = byte 'u' then
    andThen (params.head? == some (byte '?')) do
      let tail ← slice params 1 params.length
      return !tail.isEmpty && tail.all isDigit
  else .ok false

/-- A round of the loop at `ESC [`: nothing when the input is human. -/
def csiRound (bytes : List UInt8) : Except Fault (Option (List UInt8)) := do
  let after ← slice bytes 2 bytes.length
  match after.findIdx? isFinal with
  | none => return none
  | some n => do
      let params ← slice bytes 2 (n + 2)
      let final ← index bytes (n + 2)
      let reply ← csiReply params final
      if reply then some <$> slice bytes (n + 2 + 1) bytes.length else return none

def colours : List (List UInt8) :=
  [[byte '1', byte '0', byte ';'], [byte '1', byte '1', byte ';'], [byte '4', byte ';']]

/-- The length of an OSC terminator at `stop`. -/
def skip (bytes : List UInt8) (stop : Nat) : Except Fault (Option Nat) := do
  let terminator ← index bytes stop
  if terminator = bell then return some 1
  else if bytes[stop + 1]? = some (byte '\\') then return some 2
  else return none

/-- The bytes behind a terminator of `k` bytes at `stop`. -/
def oscRest (bytes : List UInt8) (stop : Nat) : Option Nat → Except Fault (Option (List UInt8))
  | none => .ok none
  | some k => some <$> slice bytes (stop + k) bytes.length

/-- A round of the loop at `ESC ]`. -/
def oscRound (bytes : List UInt8) : Except Fault (Option (List UInt8)) := do
  let after ← slice bytes 2 bytes.length
  match after.findIdx? fun b => b == bell || b == escape with
  | none => return none
  | some n => do
      let body ← slice bytes 2 (n + 2)
      if !(colours.any fun c => c.isPrefixOf body) then return none
      else do
        let terminator ← skip bytes (n + 2)
        oscRest bytes (n + 2) terminator

/-- One round of the loop of `isHumanInput`. -/
def round (bytes : List UInt8) : Except Fault (Option (List UInt8)) :=
  if [escape, byte '['].isPrefixOf bytes then csiRound bytes
  else if [escape, byte ']'].isPrefixOf bytes then oscRound bytes
  else .ok none

def isHumanInput (fuel : Nat) (bytes : List UInt8) : Except Fault Bool := loop round .running fuel bytes

end HrcRuntime.HumanInput

namespace HrcRuntime.ReplyGrammar

open HumanInput TokenScan
open List (append_assoc length_append mem_cons cons_ne_nil cons_append length_cons isPrefixOf_iff_prefix)

def Digits (n : List UInt8) : Prop := n ≠ [] ∧ ∀ b ∈ n, isDigit b = true

def joined (ns : List (List UInt8)) : List UInt8 := [byte ';'].intercalate ns

inductive CsiReply : List UInt8 → UInt8 → Prop
  | focus {final : UInt8} (hfinal : final = byte 'I' ∨ final = byte 'O') : CsiReply [] final
  | mouse {a b c : List UInt8} {final : UInt8} (h : ∀ n ∈ [a, b, c], Digits n)
      (hfinal : final = byte 'M' ∨ final = byte 'm') : CsiReply (byte '<' :: joined [a, b, c]) final
  | cursor {a b : List UInt8} (h : ∀ n ∈ [a, b], Digits n) : CsiReply (joined [a, b]) (byte 'R')
  | attributes {mark : UInt8} {ns : List (List UInt8)} (hmark : mark = byte '?' ∨ mark = byte '>') (hns : ns ≠ [])
      (h : ∀ n ∈ ns, Digits n) : CsiReply (mark :: joined ns) (byte 'c')
  | mode {ns : List (List UInt8)} (hns : ns ≠ []) (h : ∀ n ∈ ns, Digits n) :
      CsiReply (byte '?' :: (joined ns ++ [byte '$'])) (byte 'y')
  | keyboard {n : List UInt8} (h : Digits n) : CsiReply (byte '?' :: n) (byte 'u')

inductive Reply : List UInt8 → Prop
  | csi {params : List UInt8} {final : UInt8} (h : CsiReply params final) :
      Reply (escape :: byte '[' :: (params ++ [final]))
  | osc {colour body terminator : List UInt8} (hcolour : colour ∈ colours) (hbody : ∀ b ∈ body, b ≠ bell ∧ b ≠ escape)
      (hterminator : terminator = [bell] ∨ terminator = [escape, byte '\\']) :
      Reply (escape :: byte ']' :: (colour ++ body ++ terminator))

section Lists

variable {params body rest ds : List UInt8} {ns : List (List UInt8)} {final : UInt8}

theorem slice_mid (front part back : List UInt8) :
    slice (front ++ (part ++ back)) front.length (part.length + front.length) = .ok part := by
  rw [slice, if_pos]
  · rw [← append_assoc, List.take_left' (by rw [length_append, Nat.add_comm]), List.drop_left]
  · simp only [length_append]
    omega

theorem slice_end (front back : List UInt8) : slice (front ++ back) front.length (front ++ back).length = .ok back := by
  have h := slice_mid front back []
  rwa [List.append_nil, Nat.add_comm, ← length_append] at h

theorem slice_tail (b : UInt8) (p : List UInt8) : slice (b :: p) 1 (b :: p).length = .ok p := slice_end [b] p

theorem slice_middle (b c : UInt8) (p : List UInt8) :
    slice (b :: (p ++ [c])) 1 ((b :: (p ++ [c])).length - 1) = .ok p := by
  have h := slice_mid [b] p [c]
  rw [show (b :: (p ++ [c])).length - 1 = p.length + 1 by simp]
  exact h

theorem index_mid (front back : List UInt8) (b : UInt8) : index (front ++ b :: back) front.length = .ok b := by
  rw [index, List.getElem?_append_right (Nat.le_refl _), Nat.sub_self]
  rfl

theorem findIdx_first {p : UInt8 → Bool} (hp : ∀ b ∈ params, p b = false) (hf : p final = true) :
    (params ++ final :: rest).findIdx? p = some params.length := by
  rw [List.findIdx?_append, List.findIdx?_eq_none_iff.mpr hp, List.findIdx?_cons, if_pos hf]
  simp

theorem findIdx_split {p : UInt8 → Bool} {bytes : List UInt8} {n : Nat} (h : bytes.findIdx? p = some n) :
    ∃ params final rest, bytes = params ++ final :: rest ∧ params.length = n ∧ p final = true ∧
      ∀ b ∈ params, p b = false := by
  obtain ⟨hn, hf, hbef⟩ := List.findIdx?_eq_some_iff_getElem.mp h
  refine ⟨bytes.take n, bytes[n], bytes.drop (n + 1), ?_, List.length_take_of_le (Nat.le_of_lt hn), hf, ?_⟩
  · rw [← List.drop_eq_getElem_cons hn, List.take_append_drop]
  · intro b hb
    obtain ⟨i, hi, rfl⟩ := List.getElem_of_mem hb
    rw [List.length_take, Nat.lt_min] at hi
    rw [List.getElem_take]
    exact Bool.eq_false_iff.mpr (hbef i hi.1)

theorem eq_cons_of_head {b : UInt8} (h : (params.head? == some b) = true) : ∃ p, params = b :: p := by
  obtain ⟨p, hp⟩ := List.head?_eq_some_iff.mp (eq_of_beq h)
  exact ⟨p, hp⟩

end Lists

section Numbers

variable {p : List UInt8} {ns : List (List UInt8)} {n : List UInt8} {b : UInt8}

theorem digits_iff : (!n.isEmpty && n.all isDigit) = true ↔ Digits n := by
  simp [Digits]

theorem isDigit_plain (h : isDigit b = true) : isFinal b = false ∧ b ≠ byte ';' := by
  simp only [isDigit, isFinal, Bool.and_eq_true, decide_eq_true_eq, UInt8.le_iff_toNat_le, Bool.and_eq_false_imp,
    decide_eq_false_iff_not, ne_eq, ← UInt8.toNat_inj] at h ⊢
  have h9 : (byte '9').toNat = 57 := rfl
  have hs : (byte ';').toNat = 59 := rfl
  have h64 : (0x40 : UInt8).toNat = 64 := rfl
  omega

theorem parts_joined (hns : ns ≠ []) (h : ∀ n ∈ ns, Digits n) : parts (joined ns) = ns :=
  List.splitOn_intercalate _ (fun n hn hm => (isDigit_plain ((h n hn).2 _ hm)).2 rfl) hns

theorem joined_parts : joined (parts p) = p := List.intercalate_splitOn _

theorem joined_ne_nil (hns : ns ≠ []) (h : ∀ n ∈ ns, Digits n) : joined ns ≠ [] := by
  intro hn
  have hp := parts_joined hns h
  rw [hn] at hp
  have he : ([] : List UInt8) ∈ ns := by
    rw [← hp]
    exact List.mem_singleton_self _
  exact (h [] he).1 rfl

theorem numbers_joined (hns : ns ≠ []) (h : ∀ n ∈ ns, Digits n) : numbers (joined ns) = true := by
  rw [numbers, parts_joined hns h, Bool.and_eq_true, Bool.not_eq_true', List.isEmpty_eq_false_iff]
  exact ⟨joined_ne_nil hns h, List.all_eq_true.mpr fun n hn => digits_iff.mpr (h n hn)⟩

theorem numbers_eq_true (h : numbers p = true) : parts p ≠ [] ∧ (∀ n ∈ parts p, Digits n) ∧ p = joined (parts p) := by
  rw [numbers, Bool.and_eq_true] at h
  exact ⟨List.splitOn_ne_nil _ _, fun n hn => digits_iff.mp (List.all_eq_true.mp h.2 n hn), joined_parts.symm⟩

theorem mem_joined (hb : b ∈ joined ns) : b = byte ';' ∨ ∃ n ∈ ns, b ∈ n := by
  induction ns with
  | nil => cases hb
  | cons n ns ih =>
    cases ns with
    | nil =>
      rw [joined, List.intercalate_singleton] at hb
      exact Or.inr ⟨n, List.mem_singleton_self _, hb⟩
    | cons m ns =>
      rw [joined, List.intercalate_cons_cons] at hb
      rcases List.mem_append.mp hb with hb | hb
      · rcases List.mem_append.mp hb with hb | hb
        · exact Or.inr ⟨n, List.mem_cons_self, hb⟩
        · exact Or.inl (List.mem_singleton.mp hb)
      · rcases ih hb with h | ⟨k, hk, hb⟩
        · exact Or.inl h
        · exact Or.inr ⟨k, List.mem_cons_of_mem _ hk, hb⟩

theorem joined_plain (h : ∀ n ∈ ns, Digits n) (hb : b ∈ joined ns) : isFinal b = false := by
  rcases mem_joined hb with rfl | ⟨n, hn, hb⟩
  · rfl
  · exact (isDigit_plain ((h n hn).2 b hb)).1

theorem length_parts_cons (hb : b ≠ byte ';') : (parts (b :: p)).length = (parts p).length := by
  rw [parts, List.splitOn_cons_eq_if_modifyHead, if_neg (by simpa using hb), List.length_modifyHead]
  rfl

end Numbers

section Csi

variable {params : List UInt8} {final : UInt8}

theorem CsiReply.plain (h : CsiReply params final) : isFinal final = true ∧ ∀ b ∈ params, isFinal b = false := by
  cases h with
  | focus hf =>
    refine ⟨?_, fun b hb => absurd hb List.not_mem_nil⟩
    rcases hf with rfl | rfl <;> rfl
  | mouse h hf =>
    constructor
    · rcases hf with rfl | rfl <;> rfl
    · intro b hb
      rcases mem_cons.mp hb with rfl | hb
      · rfl
      · exact joined_plain h hb
  | cursor h => exact ⟨rfl, fun b hb => joined_plain h hb⟩
  | attributes hm hns h =>
    refine ⟨rfl, fun b hb => ?_⟩
    rcases mem_cons.mp hb with rfl | hb
    · rcases hm with rfl | rfl <;> rfl
    · exact joined_plain h hb
  | mode hns h =>
    refine ⟨rfl, fun b hb => ?_⟩
    rcases mem_cons.mp hb with rfl | hb
    · rfl
    rcases List.mem_append.mp hb with hb | hb
    · exact joined_plain h hb
    · rw [List.mem_singleton.mp hb]
      rfl
  | keyboard h =>
    refine ⟨rfl, fun b hb => ?_⟩
    rcases mem_cons.mp hb with rfl | hb
    · rfl
    · exact (isDigit_plain (h.2 b hb)).1

/-- A listed reply is recognised. -/
theorem csiReply_complete (h : CsiReply params final) : csiReply params final = .ok true := by
  cases h with
  | focus hf => rw [csiReply, if_pos hf]; rfl
  | @mouse a b c final h hf =>
    have hI : ¬(final = byte 'I' ∨ final = byte 'O') := by rcases hf with rfl | rfl <;> decide
    have hne : [a, b, c] ≠ [] := cons_ne_nil _ _
    have hc : (parts (byte '<' :: joined [a, b, c])).length = 3 := by
      rw [length_parts_cons (by decide), parts_joined hne h]
      rfl
    rw [csiReply, if_neg hI, if_pos hf, slice_tail, hc]
    change Except.ok (numbers _ && _) = _
    rw [numbers_joined hne h]
    rfl
  | @cursor a b h =>
    have hne : [a, b] ≠ [] := cons_ne_nil _ _
    rw [csiReply, if_neg (by decide), if_neg (by decide), if_pos rfl, numbers_joined hne h, parts_joined hne h]
    rfl
  | @attributes mark ns hm hns h =>
    rw [csiReply, if_neg (by decide), if_neg (by decide), if_neg (by decide), if_pos rfl, slice_tail]
    have hh : ((mark :: joined ns).head? == some (byte '?') || (mark :: joined ns).head? == some (byte '>')) =
        true := by
      rcases hm with rfl | rfl <;> rfl
    rw [andThen, if_pos hh]
    exact congrArg Except.ok (numbers_joined hns h)
  | @mode ns hns h =>
    rw [csiReply, if_neg (by decide), if_neg (by decide), if_neg (by decide), if_neg (by decide), if_pos rfl,
      slice_middle]
    have he : ((byte '?' :: (joined ns ++ [byte '$'])).head? == some (byte '?') &&
        (byte '?' :: (joined ns ++ [byte '$'])).getLast? == some (byte '$')) = true := by
      rw [← cons_append, List.getLast?_append]
      rfl
    rw [andThen, if_pos he]
    exact congrArg Except.ok (numbers_joined hns h)
  | @keyboard n h =>
    rw [csiReply, if_neg (by decide), if_neg (by decide), if_neg (by decide), if_neg (by decide), if_neg (by decide),
      if_pos rfl, slice_tail]
    exact congrArg Except.ok (digits_iff.mpr h)

theorem andThen_answers {a : Bool} {x : Except Fault Bool} {P : Prop}
    (h : a = true → ∃ b, x = .ok b ∧ (b = true → P)) : ∃ b, andThen a x = .ok b ∧ (b = true → P) := by
  cases a with
  | false => exact ⟨false, rfl, fun h => by cases h⟩
  | true => exact h rfl

theorem ends_of_mode (h : (params.head? == some (byte '?') && params.getLast? == some (byte '$')) = true) :
    ∃ m, params = byte '?' :: (m ++ [byte '$']) := by
  rw [Bool.and_eq_true] at h
  obtain ⟨p, rfl⟩ := eq_cons_of_head h.1
  obtain ⟨l, hl⟩ := List.getLast?_eq_some_iff.mp (eq_of_beq h.2)
  cases l with
  | nil => cases hl
  | cons b m =>
    obtain ⟨rfl, rfl⟩ := List.cons.inj hl
    exact ⟨m, rfl⟩

/-- Every check of a CSI sequence has an answer, and only listed replies pass. -/
theorem csiReply_sound (params : List UInt8) (final : UInt8) :
    ∃ b, csiReply params final = .ok b ∧ (b = true → CsiReply params final) := by
  unfold csiReply
  split
  next hf =>
    refine ⟨_, rfl, fun h => ?_⟩
    rw [List.isEmpty_iff.mp h]
    exact .focus hf
  split
  next hf =>
    refine andThen_answers fun hh => ?_
    obtain ⟨p, rfl⟩ := eq_cons_of_head hh
    rw [slice_tail]
    refine ⟨_, rfl, fun h => ?_⟩
    rw [Bool.and_eq_true, beq_iff_eq, length_parts_cons (by decide)] at h
    obtain ⟨-, hd, hp⟩ := numbers_eq_true h.1
    obtain ⟨a, b, c, habc⟩ := List.length_eq_three.mp h.2
    rw [habc] at hd hp
    rw [hp]
    exact .mouse hd hf
  split
  next hf =>
    refine ⟨_, rfl, fun h => ?_⟩
    rw [Bool.and_eq_true, beq_iff_eq] at h
    obtain ⟨-, hd, hp⟩ := numbers_eq_true h.1
    obtain ⟨a, b, hab⟩ := List.length_eq_two.mp h.2
    rw [hab] at hd hp
    rw [hp, hf]
    exact .cursor hd
  split
  next hf =>
    refine andThen_answers fun hh => ?_
    obtain ⟨mark, p, rfl, hm⟩ : ∃ mark p, params = mark :: p ∧ (mark = byte '?' ∨ mark = byte '>') := by
      rcases (Bool.or_eq_true _ _).mp hh with h | h
      · obtain ⟨p, hp⟩ := eq_cons_of_head h
        exact ⟨_, p, hp, Or.inl rfl⟩
      · obtain ⟨p, hp⟩ := eq_cons_of_head h
        exact ⟨_, p, hp, Or.inr rfl⟩
    rw [slice_tail, hf]
    refine ⟨_, rfl, fun h => ?_⟩
    obtain ⟨hne, hd, hp⟩ := numbers_eq_true h
    rw [hp]
    exact .attributes hm hne hd
  split
  next hf =>
    refine andThen_answers fun he => ?_
    obtain ⟨m, rfl⟩ := ends_of_mode he
    rw [slice_middle, hf]
    refine ⟨_, rfl, fun h => ?_⟩
    obtain ⟨hne, hd, hp⟩ := numbers_eq_true h
    rw [hp]
    exact .mode hne hd
  split
  next hf =>
    refine andThen_answers fun hh => ?_
    obtain ⟨p, rfl⟩ := eq_cons_of_head hh
    rw [slice_tail, hf]
    exact ⟨_, rfl, fun h => .keyboard (digits_iff.mp h)⟩
  · exact ⟨false, rfl, fun h => by cases h⟩

end Csi

section Rounds

theorem ok_bind {ε α β : Type} (a : α) (f : α → Except ε β) : (Except.ok a >>= f) = f a := rfl

variable {params body after rest bytes : List UInt8} {final : UInt8}

theorem csiRound_split (rest : List UInt8) (hp : ∀ b ∈ params, isFinal b = false) (hf : isFinal final = true) :
    csiRound (escape :: byte '[' :: (params ++ final :: rest)) =
      (csiReply params final).bind fun reply => if reply then .ok (some rest) else .ok none := by
  have haft : slice (escape :: byte '[' :: (params ++ final :: rest)) 2
      (escape :: byte '[' :: (params ++ final :: rest)).length = .ok (params ++ final :: rest) :=
    slice_end [escape, byte '['] (params ++ final :: rest)
  have hs : slice (escape :: byte '[' :: (params ++ final :: rest)) 2 (params.length + 2) = .ok params :=
    slice_mid [escape, byte '['] params (final :: rest)
  have hi : index (escape :: byte '[' :: (params ++ final :: rest)) (params.length + 2) = .ok final :=
    index_mid (escape :: byte '[' :: params) rest final
  have hr : slice (escape :: byte '[' :: (params ++ final :: rest)) (params.length + 2 + 1)
      (escape :: byte '[' :: (params ++ final :: rest)).length = .ok rest := by
    have h := slice_end (escape :: byte '[' :: (params ++ [final])) rest
    rw [cons_append, cons_append, append_assoc, length_cons, length_cons,
      length_append] at h
    exact h
  obtain ⟨b, hb, -⟩ := csiReply_sound params final
  simp only [csiRound, haft, ok_bind, findIdx_first hp hf, hs, hi, hb]
  cases b with
  | false => rfl
  | true =>
    rw [if_pos rfl, hr]
    rfl

theorem csiRound_open (h : after.findIdx? isFinal = none) : csiRound (escape :: byte '[' :: after) = .ok none := by
  have haft : slice (escape :: byte '[' :: after) 2 (escape :: byte '[' :: after).length = .ok after :=
    slice_end [escape, byte '['] after
  simp only [csiRound, haft, ok_bind, h]
  rfl

theorem csiRound_sound (after : List UInt8) : csiRound (escape :: byte '[' :: after) = .ok none ∨
    ∃ params final rest, after = params ++ final :: rest ∧ CsiReply params final ∧
      csiRound (escape :: byte '[' :: after) = .ok (some rest) := by
  cases h : after.findIdx? isFinal with
  | none => exact Or.inl (csiRound_open h)
  | some n =>
    obtain ⟨params, final, rest, rfl, -, hf, hp⟩ := findIdx_split h
    obtain ⟨b, hb, hs⟩ := csiReply_sound params final
    rw [csiRound_split _ hp hf, hb]
    cases b with
    | false => exact Or.inl rfl
    | true => exact Or.inr ⟨params, final, rest, rfl, hs rfl, rfl⟩

def endsBody (b : UInt8) : Bool := b == bell || b == escape

theorem endsBody_eq_false {b : UInt8} : endsBody b = false ↔ b ≠ bell ∧ b ≠ escape := by
  simp [endsBody]

theorem osc_slices (body rest : List UInt8) (final : UInt8) : slice (escape :: byte ']' :: (body ++ final :: rest)) 2
      (escape :: byte ']' :: (body ++ final :: rest)).length = .ok (body ++ final :: rest) ∧
    slice (escape :: byte ']' :: (body ++ final :: rest)) 2 (body.length + 2) = .ok body ∧
    index (escape :: byte ']' :: (body ++ final :: rest)) (body.length + 2) = .ok final :=
  ⟨slice_end [escape, byte ']'] (body ++ final :: rest), slice_mid [escape, byte ']'] body (final :: rest),
    index_mid (escape :: byte ']' :: body) rest final⟩

theorem slice_after (terminator : List UInt8) :
    slice (escape :: byte ']' :: (body ++ (terminator ++ rest))) (body.length + 2 + terminator.length)
      (escape :: byte ']' :: (body ++ (terminator ++ rest))).length = .ok rest := by
  have h := slice_end (escape :: byte ']' :: (body ++ terminator)) rest
  have hl : (escape :: byte ']' :: (body ++ terminator)).length = body.length + 2 + terminator.length := by
    rw [length_cons, length_cons, length_append]
    omega
  rw [hl, cons_append, cons_append, append_assoc] at h
  exact h

theorem oscRound_other (hbd : ∀ b ∈ body, endsBody b = false) (hf : endsBody final = true)
    (h : (colours.any fun c => c.isPrefixOf body) = false) :
    oscRound (escape :: byte ']' :: (body ++ final :: rest)) = .ok none := by
  obtain ⟨haft, hs, -⟩ := osc_slices body rest final
  have hfn : (body ++ final :: rest).findIdx? (fun b => b == bell || b == escape) = some body.length :=
    findIdx_first hbd hf
  simp only [oscRound, haft, ok_bind, hfn, hs, h]
  rfl

theorem oscRound_body (hbd : ∀ b ∈ body, endsBody b = false) (hf : endsBody final = true)
    (h : (colours.any fun c => c.isPrefixOf body) = true) {k : Option Nat}
    (hs : skip (escape :: byte ']' :: (body ++ final :: rest)) (body.length + 2) = .ok k) :
    oscRound (escape :: byte ']' :: (body ++ final :: rest)) = oscRest (escape :: byte ']' :: (body ++ final :: rest))
      (body.length + 2) k := by
  obtain ⟨haft, hsl, -⟩ := osc_slices body rest final
  have hfn : (body ++ final :: rest).findIdx? (fun b => b == bell || b == escape) = some body.length :=
    findIdx_first hbd hf
  simp only [oscRound, haft, ok_bind, hfn, hsl, h, hs]
  rfl

theorem oscRound_open (h : after.findIdx? endsBody = none) : oscRound (escape :: byte ']' :: after) = .ok none := by
  have haft : slice (escape :: byte ']' :: after) 2 (escape :: byte ']' :: after).length = .ok after :=
    slice_end [escape, byte ']'] after
  have hf : after.findIdx? (fun b => b == bell || b == escape) = none := h
  simp only [oscRound, haft, ok_bind, hf]
  rfl

theorem skip_cases (body rest : List UInt8) (final : UInt8) (hf : endsBody final = true) :
    (∃ terminator rest', (terminator = [bell] ∨ terminator = [escape, byte '\\']) ∧
      final :: rest = terminator ++ rest' ∧
      skip (escape :: byte ']' :: (body ++ final :: rest)) (body.length + 2) = .ok (some terminator.length)) ∨
    (final = escape ∧ rest.head? ≠ some (byte '\\') ∧
      skip (escape :: byte ']' :: (body ++ final :: rest)) (body.length + 2) = .ok none) := by
  have hi := (osc_slices body rest final).2.2
  have hn : (escape :: byte ']' :: (body ++ final :: rest))[body.length + 2 + 1]? = rest.head? := by
    rw [show body.length + 2 + 1 = (body.length + 1) + 1 + 1 by omega, List.getElem?_cons_succ, List.getElem?_cons_succ,
      List.getElem?_append_right (Nat.le_succ _), Nat.succ_sub (Nat.le_refl _), Nat.sub_self, List.getElem?_cons_succ,
      List.head?_eq_getElem?]
  by_cases hbl : final = bell
  · refine Or.inl ⟨[bell], rest, Or.inl rfl, by rw [hbl]; rfl, ?_⟩
    simp only [skip, hi, ok_bind, if_pos hbl]
    rfl
  have he : final = escape := by
    simpa [endsBody, hbl] using hf
  by_cases hba : rest.head? = some (byte '\\')
  · obtain ⟨rest', rfl⟩ := List.head?_eq_some_iff.mp hba
    refine Or.inl ⟨[escape, byte '\\'], rest', Or.inr rfl, by rw [he]; rfl, ?_⟩
    simp only [skip, hi, ok_bind, if_neg hbl, hn, if_pos hba]
    rfl
  · refine Or.inr ⟨he, hba, ?_⟩
    simp only [skip, hi, ok_bind, if_neg hbl, hn, if_neg hba]
    rfl

theorem colours_any : (colours.any fun c => c.isPrefixOf body) = true ↔ ∃ c ∈ colours, ∃ text, body = c ++ text := by
  rw [List.any_eq_true]
  constructor
  · rintro ⟨c, hc, hbd⟩
    obtain ⟨text, ht⟩ := isPrefixOf_iff_prefix.mp hbd
    exact ⟨c, hc, text, ht.symm⟩
  · rintro ⟨c, hc, text, rfl⟩
    exact ⟨c, hc, isPrefixOf_iff_prefix.mpr (List.prefix_append c text)⟩

theorem colours_plain {c : List UInt8} (hc : c ∈ colours) : ∀ b ∈ c, endsBody b = false := by
  have h : ∀ c ∈ colours, ∀ b ∈ c, endsBody b = false := by decide +kernel
  exact h c hc

theorem oscRest_some (terminator : List UInt8) :
    oscRest (escape :: byte ']' :: (body ++ (terminator ++ rest))) (body.length + 2) (some terminator.length) =
      .ok (some rest) := by
  rw [oscRest, slice_after]
  rfl

theorem oscRound_sound (after : List UInt8) : oscRound (escape :: byte ']' :: after) = .ok none ∨
    ∃ reply rest, Reply reply ∧ escape :: byte ']' :: after = reply ++ rest ∧
      oscRound (escape :: byte ']' :: after) = .ok (some rest) := by
  cases h : after.findIdx? endsBody with
  | none => exact Or.inl (oscRound_open h)
  | some n =>
    obtain ⟨body, final, rest, rfl, -, hf, hbd⟩ := findIdx_split h
    cases hl : colours.any fun c => c.isPrefixOf body with
    | false => exact Or.inl (oscRound_other hbd hf hl)
    | true =>
      rcases skip_cases body rest final hf with ⟨terminator, rest', he, hsp, hs⟩ |
        ⟨-, -, hs⟩
      · obtain ⟨c, hc, text, rfl⟩ := colours_any.mp hl
        refine Or.inr ⟨escape :: byte ']' :: (c ++ text ++ terminator), rest', ?_, ?_, ?_⟩
        · exact .osc hc (fun b hb => endsBody_eq_false.mp (hbd b (List.mem_append_right _ hb))) he
        · rw [hsp]
          simp only [cons_append, append_assoc]
        · rw [oscRound_body hbd hf hl hs, hsp, oscRest_some]
      · exact Or.inl (by rw [oscRound_body hbd hf hl hs, oscRest])

theorem oscRound_takes {colour text terminator : List UInt8} (hc : colour ∈ colours)
    (htx : ∀ b ∈ text, b ≠ bell ∧ b ≠ escape) (he : terminator = [bell] ∨ terminator = [escape, byte '\\']) :
    oscRound (escape :: byte ']' :: (colour ++ text ++ (terminator ++ rest))) = .ok (some rest) := by
  have hbd : ∀ b ∈ colour ++ text, endsBody b = false := by
    intro b hb
    rcases List.mem_append.mp hb with hb | hb
    · exact colours_plain hc b hb
    · exact endsBody_eq_false.mpr (htx b hb)
  have hl : (colours.any fun c => c.isPrefixOf (colour ++ text)) = true :=
    colours_any.mpr ⟨colour, hc, text, rfl⟩
  have ht : ∀ {final : UInt8} {rest' : List UInt8}, endsBody final = true → terminator ++ rest = final :: rest' →
      skip (escape :: byte ']' :: (colour ++ text ++ (final :: rest'))) ((colour ++ text).length + 2) =
        .ok (some terminator.length) →
      oscRound (escape :: byte ']' :: (colour ++ text ++ (terminator ++ rest))) = .ok (some rest) := by
    intro final rest' hf hsp hs
    rw [hsp, oscRound_body hbd hf hl hs, ← hsp, oscRest_some]
  rcases he with rfl | rfl
  · have hi := (osc_slices (colour ++ text) rest bell).2.2
    have hs : skip (escape :: byte ']' :: (colour ++ text ++ (bell :: rest))) ((colour ++ text).length + 2) =
        .ok (some 1) := by
      simp only [skip, hi, ok_bind, if_true]
      rfl
    exact ht rfl rfl hs
  · refine ht rfl rfl ?_
    rcases skip_cases (colour ++ text) (byte '\\' :: rest) escape rfl with
      ⟨terminator, rest', he, hsp, hs⟩ | ⟨-, hh, -⟩
    · rcases he with rfl | rfl
      · cases hsp
      · exact hs
    · exact absurd rfl hh

end Rounds

theorem reads_replies : Reads round Reply where
  nonempty := by
    rintro t (h | h)
    · exact cons_ne_nil _ _
    · exact cons_ne_nil _ _
  takes := by
    rintro t rest (h | ⟨hc, hbd, he⟩)
    · rename_i params final
      have hr := csiRound_split rest h.plain.2 h.plain.1
      rw [csiReply_complete h] at hr
      simp only [cons_append, append_assoc, List.nil_append]
      exact hr
    · simp only [cons_append, append_assoc]
      rw [← append_assoc]
      exact oscRound_takes hc hbd he
  taken := by
    intro input rest h
    unfold HumanInput.round at h
    split at h
    next hcsi =>
      obtain ⟨after, rfl⟩ := isPrefixOf_iff_prefix.mp hcsi
      rcases csiRound_sound after with hn | ⟨params, final, rest', rfl, hreply, htk⟩
      · cases hn.symm.trans h
      · cases htk.symm.trans h
        refine ⟨_, .csi hreply, ?_⟩
        simp only [cons_append, append_assoc, List.nil_append]
    split at h
    next hosc =>
      obtain ⟨after, rfl⟩ := isPrefixOf_iff_prefix.mp hosc
      rcases oscRound_sound after with hn | ⟨reply, rest', hreply, heq, htk⟩
      · cases hn.symm.trans h
      · cases htk.symm.trans h
        exact ⟨reply, hreply, heq⟩
    · cases h
  total := by
    intro input _
    unfold HumanInput.round
    split
    next hcsi =>
      obtain ⟨after, rfl⟩ := isPrefixOf_iff_prefix.mp hcsi
      rcases csiRound_sound after with h | ⟨_, _, rest, _, _, h⟩
      · exact ⟨none, h⟩
      · exact ⟨some rest, h⟩
    split
    next hosc =>
      obtain ⟨after, rfl⟩ := isPrefixOf_iff_prefix.mp hosc
      rcases oscRound_sound after with h | ⟨_, rest, _, _, h⟩
      · exact ⟨none, h⟩
      · exact ⟨some rest, h⟩
    · exact ⟨none, rfl⟩

/-- The scan ends after at most one round for each byte, with every slice in bounds, and finds no human
input exactly in the concatenations of listed replies. -/
theorem isHumanInput_iff (bytes : List UInt8) (fuel : Nat) (hfuel : bytes.length ≤ fuel) :
    ∃ human, isHumanInput fuel bytes = .ok human ∧ (human = false ↔ Tokens Reply bytes) :=
  reads_replies.loop_eq hfuel

theorem isHumanInput_focus : ∃ human, isHumanInput 3 [escape, byte '[', byte 'I'] = .ok human ∧
    (human = false ↔ Tokens Reply [escape, byte '[', byte 'I']) :=
  isHumanInput_iff [escape, byte '[', byte 'I'] 3 (Nat.le_refl 3)

end HrcRuntime.ReplyGrammar
