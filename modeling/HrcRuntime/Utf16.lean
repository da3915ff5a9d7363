import Mathlib.Data.List.Basic

namespace HrcRuntime.Utf16

abbrev Units := List UInt16

def isHigh (u : UInt16) : Bool := decide (0xd800 ≤ u.toNat ∧ u.toNat ≤ 0xdbff)

def isLow (u : UInt16) : Bool := decide (0xdc00 ≤ u.toNat ∧ u.toNat ≤ 0xdfff)

def characters : Units → List Units
  | [] => []
  | [u] => [[u]]
  | u :: v :: rest => if isHigh u && isLow v then [u, v] :: characters rest else [u] :: characters (v :: rest)

def bisects (a b : Units) : Bool := a.getLast?.any isHigh && b.head?.any isLow

def isScalar : Units → Bool
  | [u] => !isHigh u && !isLow u
  | _ => true

def isWellFormed (s : Units) : Bool := (characters s).all isScalar

def characterBytes : Units → Nat
  | [u] => if u.toNat < 0x80 then 1 else if u.toNat < 0x800 then 2 else 3
  | _ => 4

def totalBytes : List Units → Nat
  | [] => 0
  | c :: cs => characterBytes c + totalBytes cs

/-- `Buffer.byteLength(s, 'utf8')`. -/
def byteLength (s : Units) : Nat := totalBytes (characters s)

def encodeChar (c : Char) : Units :=
  if c.toNat < 0x10000 then [UInt16.ofNat c.toNat]
  else [UInt16.ofNat (0xd800 + (c.toNat - 0x10000) / 0x400), UInt16.ofNat (0xdc00 + (c.toNat - 0x10000) % 0x400)]

def ofString (s : String) : Units := s.toList.flatMap encodeChar

section Characters

variable {s a b : Units} {n k : Nat}

theorem not_low_of_high {u : UInt16} (h : isHigh u = true) : isLow u = false := by
  simp only [isHigh, isLow, decide_eq_true_eq, decide_eq_false_iff_not] at h ⊢
  omega

theorem flatten_characters (s : Units) : (characters s).flatten = s := by
  induction s using characters.induct with
  | case1 => rfl
  | case2 u => rfl
  | case3 u v rest h ih => simp [characters, h, ih]
  | case4 u v rest h ih => simp [characters, h, ih]

theorem characters_append (h : bisects a b = false) : characters (a ++ b) = characters a ++ characters b := by
  induction a using characters.induct with
  | case1 => rfl
  | case2 u =>
    cases b with
    | nil => rfl
    | cons v b =>
      have hp : (isHigh u && isLow v) = false := h
      simp [characters, hp]
  | case3 u v rest hp ih =>
    have hr : bisects rest b = false := by
      cases rest with
      | nil => rfl
      | cons w rest => exact h
    simp [characters, hp, ih hr]
  | case4 u v rest hp ih =>
    have hr : bisects (v :: rest) b = false := h
    simpa [characters, hp] using ih hr

theorem isWellFormed_append (h : bisects a b = false) : isWellFormed (a ++ b) = (isWellFormed a && isWellFormed b) := by
  unfold isWellFormed
  rw [characters_append h, List.all_append]

theorem getLast_of_wellFormed (h : isWellFormed s = true) : s.getLast?.any isHigh = false := by
  induction s using characters.induct with
  | case1 => rfl
  | case2 u =>
    have hs : (!isHigh u && !isLow u) = true := by simpa [isWellFormed, characters, isScalar] using h
    simpa using (Bool.and_eq_true_iff.mp hs).1
  | case3 u v rest hp ih =>
    cases rest with
    | nil =>
      have hh : isHigh v = false := by
        cases hv : isHigh v with
        | false => rfl
        | true => rw [not_low_of_high hv, Bool.and_false] at hp; cases hp
      simpa using hh
    | cons w rest =>
      have hr : isWellFormed (w :: rest) = true := by simpa [isWellFormed, characters, hp, isScalar] using h
      exact ih hr
  | case4 u v rest hp ih =>
    have hr : isWellFormed (v :: rest) = true := by
      unfold isWellFormed at h ⊢
      rw [characters, if_neg hp, List.all_cons, Bool.and_eq_true] at h
      exact h.2
    exact ih hr

theorem bisects_of_wellFormed (h : isWellFormed a = true) (b : Units) : bisects a b = false := by
  unfold bisects
  rw [getLast_of_wellFormed h, Bool.false_and]

theorem append_wellFormed (ha : isWellFormed a = true) (hb : isWellFormed b = true) : isWellFormed (a ++ b) = true := by
  rw [isWellFormed_append (bisects_of_wellFormed ha b), ha, hb]
  rfl

theorem isHigh_ofNat {n : Nat} (hlo : 0xd800 ≤ n) (hhi : n ≤ 0xdbff) : isHigh (UInt16.ofNat n) = true := by
  have hn : (UInt16.ofNat n).toNat = n := UInt16.toNat_ofNat_of_lt (by simp only [UInt16.size]; omega)
  simp only [isHigh, hn, decide_eq_true_eq]
  exact ⟨hlo, hhi⟩

theorem isLow_ofNat {n : Nat} (hlo : 0xdc00 ≤ n) (hhi : n ≤ 0xdfff) : isLow (UInt16.ofNat n) = true := by
  have hn : (UInt16.ofNat n).toNat = n := UInt16.toNat_ofNat_of_lt (by simp only [UInt16.size]; omega)
  simp only [isLow, hn, decide_eq_true_eq]
  exact ⟨hlo, hhi⟩

theorem encodeChar_wellFormed (c : Char) : isWellFormed (encodeChar c) = true := by
  have hv : c.toNat < 0xd800 ∨ 0xdfff < c.toNat ∧ c.toNat < 0x110000 := c.valid
  unfold encodeChar
  split
  · rename_i hs
    have hn : (UInt16.ofNat c.toNat).toNat = c.toNat := UInt16.toNat_ofNat_of_lt (by simpa [UInt16.size] using hs)
    simp only [isWellFormed, characters, List.all_cons, List.all_nil, Bool.and_true, isScalar, isHigh, isLow, hn,
      Bool.and_eq_true, Bool.not_eq_true', decide_eq_false_iff_not]
    omega
  · have hh : isHigh (UInt16.ofNat (0xd800 + (c.toNat - 0x10000) / 0x400)) = true := isHigh_ofNat (by omega) (by omega)
    have hl : isLow (UInt16.ofNat (0xdc00 + (c.toNat - 0x10000) % 0x400)) = true := isLow_ofNat (by omega) (by omega)
    simp only [isWellFormed, characters, hh, hl, Bool.and_self, if_true, List.all_cons, List.all_nil, isScalar]

theorem ofString_wellFormed (s : String) : isWellFormed (ofString s) = true := by
  unfold ofString
  induction s.toList with
  | nil => rfl
  | cons c cs ih => exact append_wellFormed (encodeChar_wellFormed c) ih

/-- Between two characters of a string no pair is bisected. -/
theorem characters_split {xs ys : List Units} (h : characters s = xs ++ ys) :
    characters xs.flatten = xs ∧ bisects xs.flatten ys.flatten = false := by
  induction s using characters.induct generalizing xs with
  | case1 =>
    obtain ⟨rfl, rfl⟩ := List.append_eq_nil_iff.mp h.symm
    exact ⟨rfl, rfl⟩
  | case2 u =>
    cases xs with
    | nil => exact ⟨rfl, rfl⟩
    | cons x xs =>
      obtain ⟨rfl, hr⟩ := List.cons.inj h
      obtain ⟨rfl, rfl⟩ := List.append_eq_nil_iff.mp hr.symm
      exact ⟨rfl, by simp [bisects]⟩
  | case3 u v rest hp ih =>
    cases xs with
    | nil => exact ⟨rfl, rfl⟩
    | cons x xs =>
      rw [characters, if_pos hp] at h
      obtain ⟨rfl, hr⟩ := List.cons.inj h
      obtain ⟨hxs, hc⟩ := ih hr
      refine ⟨by simp [characters, hp, hxs], ?_⟩
      cases hf : xs.flatten with
      | nil =>
        have hh : isHigh v = false := by
          cases hv : isHigh v with
          | false => rfl
          | true => rw [not_low_of_high hv, Bool.and_false] at hp; cases hp
        simp [bisects, hf, hh]
      | cons w tail =>
        rw [hf] at hc
        simpa [bisects, hf] using hc
  | case4 u v rest hp ih =>
    cases xs with
    | nil => exact ⟨rfl, rfl⟩
    | cons x xs =>
      rw [characters, if_neg hp] at h
      obtain ⟨rfl, hr⟩ := List.cons.inj h
      obtain ⟨hxs, hc⟩ := ih hr
      have hr : characters (v :: rest) = xs ++ ys := hr
      have hj : xs.flatten ++ ys.flatten = v :: rest := by
        rw [← List.flatten_append, ← hr, flatten_characters]
      cases hf : xs.flatten with
      | nil =>
        rw [hf] at hxs hj
        obtain rfl : xs = [] := hxs.symm
        rw [List.nil_append] at hj
        have hp : (isHigh u && isLow v) = false := by simpa using hp
        refine ⟨rfl, ?_⟩
        rw [hj]
        simpa [bisects] using hp
      | cons w tail =>
        rw [hf] at hxs hc hj
        obtain ⟨rfl, -⟩ := List.cons.inj hj
        constructor
        · simp only [List.flatten_cons, hf, List.singleton_append]
          rw [characters, if_neg hp, hxs]
        · simpa [bisects, hf] using hc

theorem characters_take (s : Units) (k : Nat) :
    characters ((characters s).take k).flatten = (characters s).take k ∧
      bisects ((characters s).take k).flatten ((characters s).drop k).flatten = false :=
  characters_split (List.take_append_drop k _).symm

theorem totalBytes_take_le (cs : List Units) {j : Nat} (h : j ≤ k) : totalBytes (cs.take j) ≤ totalBytes (cs.take k) := by
  induction cs generalizing j k with
  | nil => simp
  | cons c cs ih =>
    cases j with
    | zero => exact Nat.zero_le _
    | succ j =>
      cases k with
      | zero => omega
      | succ k =>
        simp only [List.take_succ_cons, totalBytes]
        exact Nat.add_le_add_left (ih (by omega)) _

theorem flatten_take_grows {cs : List Units} {j : Nat} (h : j ≤ k) : (cs.take j).flatten <+: (cs.take k).flatten := by
  refine ⟨((cs.take k).drop j).flatten, ?_⟩
  rw [← List.flatten_append]
  have ht : cs.take j = (cs.take k).take j := by rw [List.take_take, Nat.min_eq_left h]
  rw [ht, List.take_append_drop]

theorem characters_cut (h : bisects (s.take n) (s.drop n) = false) :
    ∃ j, characters (s.take n) = (characters s).take j := by
  refine ⟨(characters (s.take n)).length, ?_⟩
  have hsp := characters_append h
  rw [List.take_append_drop] at hsp
  rw [hsp, List.take_left]

theorem cut_wellFormed (h : bisects (s.take n) (s.drop n) = false) (hs : isWellFormed s = true) :
    isWellFormed (s.take n) = true ∧ isWellFormed (s.drop n) = true := by
  have hsp := isWellFormed_append h
  rw [List.take_append_drop, hs] at hsp
  exact Bool.and_eq_true_iff.mp hsp.symm

end Characters

section Truncate

variable {value : Units} {maxBytes : Nat}

/-- The loop of `truncateUtf8`, with the bytes and the result so far. -/
def fill (maxBytes bytes : Nat) (result : Units) : List Units → Units
  | [] => result
  | character :: rest =>
    if bytes + characterBytes character > maxBytes then result
    else fill maxBytes (bytes + characterBytes character) (result ++ character) rest

def truncateUtf8 (value : Units) (maxBytes : Nat) : Units :=
  if byteLength value ≤ maxBytes then value else fill maxBytes 0 [] (characters value)

theorem fill_spec {bytes : Nat} (hbyt : bytes ≤ maxBytes) (result : Units) (cs : List Units) :
    ∃ k ≤ cs.length, fill maxBytes bytes result cs = result ++ (cs.take k).flatten ∧
      bytes + totalBytes (cs.take k) ≤ maxBytes ∧ (k < cs.length → maxBytes < bytes + totalBytes (cs.take (k + 1))) := by
  induction cs generalizing bytes result with
  | nil => exact ⟨0, Nat.le_refl _, by simp [fill], by simpa [totalBytes] using hbyt, fun h => by cases h⟩
  | cons c cs ih =>
    unfold fill
    split
    · rename_i hfl
      refine ⟨0, Nat.zero_le _, by simp, by simpa [totalBytes] using hbyt, fun _ => ?_⟩
      simpa [totalBytes] using hfl
    · rename_i hr
      obtain ⟨k, hk, hf, hft, hm⟩ := ih (Nat.not_lt.mp hr) (result ++ c)
      refine ⟨k + 1, Nat.succ_le_succ hk, ?_, ?_, fun hlt => ?_⟩
      · rw [hf, List.take_succ_cons, List.flatten_cons, List.append_assoc]
      · rw [List.take_succ_cons, totalBytes]
        omega
      · have hn := hm (Nat.lt_of_succ_lt_succ hlt)
        rw [List.take_succ_cons, totalBytes]
        omega

structure Longest (value : Units) (maxBytes : Nat) (p : Units) : Prop where
  isPrefix : p <+: value
  whole : bisects p (value.drop p.length) = false
  fits : byteLength p ≤ maxBytes
  longest : ∀ q, q <+: value → bisects q (value.drop q.length) = false → byteLength q ≤ maxBytes → q.length ≤ p.length

theorem drop_of_append {a b s : Units} (h : a ++ b = s) : s.drop a.length = b := by
  rw [← h]
  exact List.drop_left

theorem take_of_prefix {p : Units} (h : p <+: value) : value.take p.length = p := List.prefix_iff_eq_take.mp h |>.symm

theorem truncateUtf8_longest (value : Units) (maxBytes : Nat) : Longest value maxBytes (truncateUtf8 value maxBytes) := by
  unfold truncateUtf8
  split
  · rename_i hft
    exact ⟨List.prefix_refl _, by simp [bisects], hft, fun q hq _ _ => hq.length_le⟩
  · obtain ⟨k, hk, hf, hft, hmr⟩ := fill_spec (Nat.zero_le maxBytes) [] (characters value)
    obtain ⟨ht, hc⟩ := characters_take value k
    rw [hf, List.nil_append]
    have hsp : ((characters value).take k).flatten ++ ((characters value).drop k).flatten = value := by
      rw [← List.flatten_append, List.take_append_drop, flatten_characters]
    have hd := drop_of_append hsp
    refine ⟨⟨_, hsp⟩, by rw [hd]; exact hc, ?_, fun q hq hwh hqf => ?_⟩
    · unfold byteLength
      rw [ht]
      omega
    · have hqt : value.take q.length = q := take_of_prefix hq
      rw [← hqt] at hwh
      rw [List.length_take, Nat.min_eq_left hq.length_le] at hwh
      obtain ⟨j, hj⟩ := characters_cut hwh
      rw [hqt] at hj
      rcases Nat.lt_or_ge k j with hlt | hge
      · -- one character more than the loop took would already be too much
        have hqb : totalBytes ((characters value).take j) ≤ maxBytes := by
          unfold byteLength at hqf
          rwa [hj] at hqf
        rcases Nat.lt_or_ge k (characters value).length with hl | hall
        · have hn := hmr hl
          have hm := totalBytes_take_le (characters value) (show k + 1 ≤ j from hlt)
          omega
        · rw [List.take_of_length_le hall, flatten_characters]
          exact hq.length_le
      · have hfl : q = ((characters value).take j).flatten := by rw [← hj, flatten_characters]
        rw [hfl]
        exact (flatten_take_grows hge).length_le

end Truncate

end HrcRuntime.Utf16
