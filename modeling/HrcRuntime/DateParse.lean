import Mathlib.Data.List.TakeWhile
import HrcRuntime.Digits

namespace HrcRuntime.DateParse

open Digits
open List (all_eq_true cons_append tail_cons append_nil drop_one append_assoc nil_append length_append
  length_cons forall_mem_cons forall_mem_append reverse_reverse)
open Option (map_eq_some_iff bind_eq_some_iff bind_some)

def num (s : List Char) : Option Nat := if s ≠ [] ∧ s.all Char.isDigit = true then some (value s) else none

/-- `num` of a part that must have `n` characters. -/
def exactly (n : Nat) (p : List Char) : Option Nat := if p.length = n then num p else none

/-- The year at the start of a text, and the rest of it. -/
def year (s : List Char) : Option (Int × List Char) :=
  if s.head? = some '+' then (exactly 6 (s.tail.take 6)).map fun (y : Nat) => ((y : Int), s.tail.drop 6)
  else if s.head? = some '-' then
    (exactly 6 (s.tail.take 6)).bind fun (y : Nat) => if y = 0 then none else some (-(y : Int), s.tail.drop 6)
  else (exactly 4 (s.take 4)).map fun (y : Nat) => ((y : Int), s.drop 4)

/-- `s.split_once(c)`. -/
def splitOnce (c : Char) (s : List Char) : List Char × Option (List Char) :=
  (s.takeWhile (· != c), (s.dropWhile (· != c)).tail?)

def monthDay (date : List Char) : Option (Nat × Nat) :=
  if date ≠ [] ∧ date.head? ≠ some '-' then none
  else match (date.splitOn '-').drop 1 with
  | [] => some (1, 1)
  | [m] => (exactly 2 m).map fun m => (m, 1)
  | [m, d] => (exactly 2 m).bind fun m => (exactly 2 d).map fun d => (m, d)
  | _ => none

def leap (y : Int) : Bool := y % 4 == 0 && (y % 100 != 0 || y % 400 == 0)

def monthLengths (y : Int) : List Nat := [31, if leap y then 29 else 28, 31, 30, 31, 30, 31, 31, 30, 31, 30, 31]

def msPerDay : Int := 86400000

def daysFromCivil (y m d : Int) : Int :=
  let y := if m ≤ 2 then y - 1 else y
  let era := y / 400
  let yoe := y - era * 400
  let doy := (153 * (m + if m > 2 then -3 else 9) + 2) / 5 + d - 1
  let doe := yoe * 365 + yoe / 4 - yoe / 100 + doy
  era * 146097 + doe - 719468

def Valid (y : Int) (m d : Nat) : Prop := 1 ≤ m ∧ m ≤ 12 ∧ 1 ≤ d ∧ d ≤ (monthLengths y).getD (m - 1) 0

instance (y : Int) (m d : Nat) : Decidable (Valid y m d) := inferInstanceAs (Decidable (_ ∧ _ ∧ _ ∧ _))

def dateMs (y : Int) (date : List Char) : Option Int :=
  (monthDay date).bind fun md => if Valid y md.1 md.2 then some (daysFromCivil y md.1 md.2 * msPerDay) else none

def isSign (c : Char) : Bool := c == '+' || c == '-'

/-- `±hh:mm` in minutes. -/
def signedMinutes (sign : Char) (text : List Char) : Option Int :=
  match splitOnce ':' text with
  | (h, some m) => (exactly 2 h).bind fun h => (exactly 2 m).bind fun m =>
    if 23 < h ∨ 59 < m then none else some ((if sign = '-' then -1 else 1) * (h * 60 + m))
  | (_, none) => none

/-- The clock of a time and its offset in minutes, `none` where the text gives none. -/
def offset (time : List Char) : Option (List Char × Option Int) :=
  if time.getLast? = some 'Z' then some (time.dropLast, some 0)
  else match time.reverse.dropWhile (!isSign ·) with
  | [] => some (time, none)
  | sign :: clock =>
    if 5 ≤ clock.length then
      (signedMinutes sign (time.reverse.takeWhile (!isSign ·)).reverse).map fun minutes => (clock.reverse, some minutes)
    else some (time, none)

def field (max : Nat) (p : List Char) : Option Nat := (exactly 2 p).filter (· ≤ max)

/-- The seconds: the fields after the minutes, where the clock is longer than `hh:mm`. -/
def second (long : Bool) (fields : List (List Char)) : Option Nat :=
  match fields with
  | [] => if long then none else some 0
  | [s] => if long then field 59 s else none
  | _ => none

/-- `{f:0<3}` cut to three digits. -/
def millis : Option (List Char) → Option Nat
  | none => some 0
  | some f => if f ≠ [] ∧ f.all Char.isDigit = true then some (value ((f ++ ['0', '0', '0']).take 3)) else none

def clockMs (clock : List Char) : Option Int :=
  let hms := (splitOnce '.' clock).1
  let frac := (splitOnce '.' clock).2
  match hms.splitOn ':' with
  | h :: m :: fields => (field 24 h).bind fun hour => (field 59 m).bind fun minute =>
    (second (decide (5 < hms.length)) fields).bind fun second =>
    if frac.isSome = true ∧ hms.length ≤ 5 then none
    else (millis frac).bind fun millis =>
      if hour = 24 ∧ (minute, second, millis) ≠ (0, 0, 0) then none
      else some (hour * 3600000 + minute * 60000 + second * 1000 + millis)
  | _ => none

/-- `parse_date`: the milliseconds, `none` for NaN. `localMinusUtc` gives the seconds of a local time. -/
def parseDate (localMinusUtc : Int → Option Int32) (s : List Char) : Option Int :=
  (year s).bind fun found => (dateMs found.1 (splitOnce 'T' found.2).1).bind fun ms =>
    match (splitOnce 'T' found.2).2 with
    | none => some ms
    | some time => (offset time).bind fun split => (clockMs split.1).bind fun clock =>
      (split.2.or ((localMinusUtc (ms + clock)).map (·.toInt.tdiv 60))).bind fun minutes =>
        if (ms + clock - minutes * 60000).natAbs ≤ 8640000000000000 then some (ms + clock - minutes * 60000) else none

theorem exactly_iff {k n : Nat} {p : List Char} (hk : 0 < k) : exactly k p = some n ↔ n < 10 ^ k ∧ p = padded k n := by
  unfold exactly num
  constructor
  · intro h
    split at h
    · rename_i hl
      split at h
      · rename_i hd
        obtain ⟨hp, hlt⟩ := padded_value (all_eq_true.mp hd.2)
        obtain rfl := Option.some.inj h
        rw [hl] at hp hlt
        exact ⟨hlt, hp.symm⟩
      · cases h
    · cases h
  · rintro ⟨hlt, rfl⟩
    have hne : padded k n ≠ [] := by
      intro hn
      have := padded_length k n
      rw [hn] at this
      exact Nat.ne_of_lt hk this
    rw [if_pos (padded_length k n), if_pos ⟨hne, all_eq_true.mpr (padded_digits k n)⟩, value_padded hlt]

/-- The year texts: four digits, or a sign and six; there is no year `-000000`. -/
inductive YearText : List Char → Int → Prop
  | plain {n : Nat} (h : n < 10 ^ 4) : YearText (padded 4 n) n
  | plus {n : Nat} (h : n < 10 ^ 6) : YearText ('+' :: padded 6 n) n
  | minus {n : Nat} (hpos : n ≠ 0) (h : n < 10 ^ 6) : YearText ('-' :: padded 6 n) (-n)

inductive DateText : List Char → Nat → Nat → Prop
  | year : DateText [] 1 1
  | month {m : Nat} (hm : m < 10 ^ 2) : DateText ('-' :: padded 2 m) m 1
  | day {m d : Nat} (hm : m < 10 ^ 2) (hd : d < 10 ^ 2) : DateText ('-' :: padded 2 m ++ '-' :: padded 2 d) m d

section Dates

variable {s rest text a b : List Char} {c : Char} {y : Int} {m d : Nat}

theorem year_iff : year s = some (y, rest) ↔ ∃ text, YearText text y ∧ s = text ++ rest := by
  unfold year
  constructor
  · intro h
    split at h
    · rename_i hh
      obtain ⟨n, hn, heq⟩ := map_eq_some_iff.mp h
      obtain ⟨hlt, ht⟩ := (exactly_iff (by decide)).mp hn
      cases heq
      refine ⟨_, .plus hlt, ?_⟩
      rw [cons_append, ← ht, List.take_append_drop]
      exact List.eq_cons_of_mem_head? hh
    · split at h
      · rename_i hh
        obtain ⟨n, hn, heq⟩ := bind_eq_some_iff.mp h
        obtain ⟨hlt, ht⟩ := (exactly_iff (by decide)).mp hn
        split at heq
        · cases heq
        · rename_i hpos
          cases heq
          refine ⟨_, .minus hpos hlt, ?_⟩
          rw [cons_append, ← ht, List.take_append_drop]
          exact List.eq_cons_of_mem_head? hh
      · obtain ⟨n, hn, heq⟩ := map_eq_some_iff.mp h
        obtain ⟨hlt, ht⟩ := (exactly_iff (by decide)).mp hn
        cases heq
        refine ⟨_, .plain hlt, ?_⟩
        rw [← ht, List.take_append_drop]
  · rintro ⟨text, hy, rfl⟩
    cases hy with
    | @plain n h =>
      obtain ⟨x, hx, hd⟩ : ∃ x, (padded 4 n ++ rest).head? = some x ∧ x.isDigit = true := head_padded
      have hp : (padded 4 n ++ rest).head? ≠ some '+' := by
        rw [hx]
        rintro ⟨⟩
        cases hd
      have hm : (padded 4 n ++ rest).head? ≠ some '-' := by
        rw [hx]
        rintro ⟨⟩
        cases hd
      obtain ⟨ht, hdr⟩ := take_padded 4 n rest
      rw [if_neg hp, if_neg hm, ht, hdr, (exactly_iff (by decide)).mpr ⟨h, rfl⟩]
      rfl
    | @plus n h =>
      obtain ⟨ht, hdr⟩ := take_padded 6 n rest
      rw [cons_append, List.head?_cons, if_pos rfl, tail_cons, ht, hdr,
        (exactly_iff (by decide)).mpr ⟨h, rfl⟩]
      rfl
    | @minus n hpos h =>
      obtain ⟨ht, hdr⟩ := take_padded 6 n rest
      rw [cons_append, List.head?_cons, if_neg (by decide), if_pos rfl, tail_cons, ht, hdr,
        (exactly_iff (by decide)).mpr ⟨h, rfl⟩, bind_some, if_neg hpos]

theorem splitOnce_cut (ha : c ∉ a) : splitOnce c (a ++ c :: b) = (a, some b) := by
  have hne : ∀ x ∈ a, (x != c) = true := fun x hx => bne_iff_ne.mpr fun heq => ha (heq ▸ hx)
  rw [splitOnce, List.takeWhile_append_of_pos hne, List.dropWhile_append_of_pos hne,
    List.takeWhile_cons_of_neg (by simp), List.dropWhile_cons_of_neg (by simp), append_nil]
  rfl

theorem splitOnce_whole (ha : c ∉ a) : splitOnce c a = (a, none) := by
  have hne : ∀ x ∈ a, (x != c) = true := fun x hx => bne_iff_ne.mpr fun heq => ha (heq ▸ hx)
  rw [splitOnce, List.takeWhile_eq_self_iff.mpr hne, List.dropWhile_eq_nil_iff.mpr hne]
  rfl

theorem splitOnce_cases (c : Char) (s : List Char) : c ∉ (splitOnce c s).1 ∧
    ((splitOnce c s).2 = none ∧ s = (splitOnce c s).1 ∨ ∃ b, (splitOnce c s).2 = some b ∧ s = (splitOnce c s).1 ++ c :: b) := by
  by_cases hc : c ∈ s
  · obtain ⟨a, b, rfl, ha⟩ := List.eq_append_cons_of_mem hc
    rw [splitOnce_cut ha]
    exact ⟨ha, .inr ⟨b, rfl, rfl⟩⟩
  · rw [splitOnce_whole hc]
    exact ⟨hc, .inl ⟨rfl, rfl⟩⟩

theorem monthDay_iff : monthDay text = some (m, d) ↔ DateText text m d := by
  constructor
  · intro h
    unfold monthDay at h
    split at h
    · cases h
    · rename_i hs
      cases text with
      | nil =>
        cases h
        exact .year
      | cons x t =>
        obtain rfl : x = '-' := by simpa using hs
        have hj : ['-'].intercalate (t.splitOn '-') = t := List.intercalate_splitOn '-'
        rw [List.splitOn_cons_eq_if_modifyHead, if_pos (beq_self_eq_true _), drop_one, tail_cons] at h
        split at h
        · rename_i hnil
          exact absurd hnil (List.splitOn_ne_nil _ _)
        · rename_i p hp
          obtain ⟨n, hn, heq⟩ := map_eq_some_iff.mp h
          obtain ⟨hlt, rfl⟩ := (exactly_iff (by decide)).mp hn
          rw [hp, List.intercalate_singleton] at hj
          cases heq
          exact hj ▸ .month hlt
        · rename_i p q hpq
          obtain ⟨n, hn, hr⟩ := bind_eq_some_iff.mp h
          obtain ⟨k, hk, heq⟩ := map_eq_some_iff.mp hr
          obtain ⟨hlt, rfl⟩ := (exactly_iff (by decide)).mp hn
          obtain ⟨hlt', rfl⟩ := (exactly_iff (by decide)).mp hk
          rw [hpq, List.intercalate_cons_cons, List.intercalate_singleton, append_assoc] at hj
          cases heq
          exact hj ▸ .day hlt hlt'
        · cases h
  · intro h
    have hds : ∀ n, '-' ∉ padded 2 n := fun n => not_digit_padded rfl
    unfold monthDay
    cases h with
    | year => rfl
    | @month m hm =>
      rw [if_neg (by simp), List.splitOn_cons_eq_if_modifyHead, if_pos (beq_self_eq_true _),
        List.splitOn_eq_singleton (hds m), drop_one, tail_cons]
      dsimp only
      rw [(exactly_iff (by decide)).mpr ⟨hm, rfl⟩]
      rfl
    | @day m d hm hd =>
      rw [if_neg (by simp), cons_append, List.splitOn_cons_eq_if_modifyHead, if_pos (beq_self_eq_true _),
        List.splitOn_append_cons_self_of_not_mem (hds m), List.splitOn_eq_singleton (hds d), drop_one,
        tail_cons]
      dsimp only
      rw [(exactly_iff (by decide)).mpr ⟨hm, rfl⟩, (exactly_iff (by decide)).mpr ⟨hd, rfl⟩]
      rfl

end Dates

inductive OffsetText : List Char → Option Int → Prop
  | utc : OffsetText ['Z'] (some 0)
  | signed {sign : Char} {h m : Nat} (hsign : isSign sign = true) (hh : h ≤ 23) (hm : m ≤ 59) :
      OffsetText (sign :: (padded 2 h ++ ':' :: padded 2 m)) (some ((if sign = '-' then -1 else 1) * (h * 60 + m)))
  | localTime : OffsetText [] none

def thousandths (f : List Char) : Nat := value ((f ++ ['0', '0', '0']).take 3)

/-- What follows `hh:mm`, in milliseconds. -/
inductive SecondsText : List Char → Nat → Prop
  | none : SecondsText [] 0
  | whole {s : Nat} (h : s ≤ 59) : SecondsText (':' :: padded 2 s) (s * 1000)
  | fraction {s : Nat} {f : List Char} (h : s ≤ 59) (hne : f ≠ []) (hf : ∀ c ∈ f, c.isDigit = true) :
      SecondsText (':' :: padded 2 s ++ '.' :: f) (s * 1000 + thousandths f)

/-- A clock, with its milliseconds; the hour 24 stands only for the end of the day. -/
def ClockText (text : List Char) (ms : Int) : Prop :=
  ∃ hour minute rest tail, hour ≤ 24 ∧ minute ≤ 59 ∧ SecondsText rest tail ∧ (hour = 24 → minute = 0 ∧ tail = 0) ∧
    text = padded 2 hour ++ ':' :: (padded 2 minute ++ rest) ∧ ms = hour * 3600000 + minute * 60000 + tail

section Times

variable {text p time clock : List Char} {fields : List (List Char)} {ms minutes : Int} {n max : Nat}

theorem signedMinutes_iff {sign : Char} : signedMinutes sign text = some minutes ↔ ∃ h m : Nat, h ≤ 23 ∧ m ≤ 59 ∧
    text = padded 2 h ++ ':' :: padded 2 m ∧ minutes = (if sign = '-' then -1 else 1) * (h * 60 + m) := by
  constructor
  · intro h
    unfold signedMinutes at h
    obtain ⟨-, hc⟩ := splitOnce_cases ':' text
    split at h
    · rename_i a b hs
      rw [hs] at hc
      obtain ⟨hour, hhr, haf⟩ := bind_eq_some_iff.mp h
      obtain ⟨minute, hmn, hbn⟩ := bind_eq_some_iff.mp haf
      obtain ⟨-, rfl⟩ := (exactly_iff (by decide)).mp hhr
      obtain ⟨-, rfl⟩ := (exactly_iff (by decide)).mp hmn
      by_cases hr : 23 < hour ∨ 59 < minute
      · rw [if_pos hr] at hbn
        cases hbn
      · rw [if_neg hr] at hbn
        obtain ⟨hn, -⟩ | ⟨b', hb, ht⟩ := hc
        · cases hn
        · cases hb
          exact ⟨hour, minute, by omega, by omega, ht, (Option.some.inj hbn).symm⟩
    · cases h
  · rintro ⟨h, m, hh, hm, rfl, rfl⟩
    rw [signedMinutes, splitOnce_cut (not_digit_padded rfl)]
    dsimp only
    rw [(exactly_iff (by decide)).mpr ⟨by omega, rfl⟩, (exactly_iff (by decide)).mpr ⟨by omega, rfl⟩]
    exact if_neg (by omega)

theorem field_iff (hm : max < 100) : field max p = some n ↔ n ≤ max ∧ p = padded 2 n := by
  rw [field, Option.filter_eq_some_iff, exactly_iff (by decide), decide_eq_true_eq]
  constructor
  · exact fun h => ⟨h.2, h.1.2⟩
  · exact fun h => ⟨⟨by omega, h.2⟩, h.1⟩

theorem second_iff {long : Bool} : second long fields = some n ↔
    long = true ∧ n ≤ 59 ∧ fields = [padded 2 n] ∨ long = false ∧ n = 0 ∧ fields = [] := by
  unfold second
  split
  · cases long <;> simp [eq_comm]
  · rename_i s
    cases long
    · simp
    · simp [field_iff (p := s) (n := n) (show 59 < 100 by decide)]
  · rename_i hn hone
    cases long
    · simp [show fields ≠ [] from hn]
    · simp only [reduceCtorEq, true_and, false_and, or_false, false_iff, Bool.true_eq_false]
      exact fun h => hone _ h.2

theorem millis_some {f : List Char} : millis (some f) = some n ↔ f ≠ [] ∧ (∀ c ∈ f, c.isDigit = true) ∧ n = thousandths f := by
  by_cases h : f ≠ [] ∧ f.all Char.isDigit = true
  · rw [millis, if_pos h, Option.some.injEq]
    exact ⟨fun heq => ⟨h.1, all_eq_true.mp h.2, heq.symm⟩, fun heq => heq.2.2.symm⟩
  · rw [millis, if_neg h]
    exact ⟨fun heq => (by cases heq), fun heq => absurd ⟨heq.1, all_eq_true.mpr heq.2.1⟩ h⟩

theorem clockMs_eq {hour minute s : Nat} {hms : List Char} {frac : Option (List Char)} (hh : hour ≤ 24)
    (hmn : minute ≤ 59) (hc : splitOnce '.' text = (hms, frac))
    (hsp : hms.splitOn ':' = padded 2 hour :: padded 2 minute :: fields)
    (hs : second (decide (5 < hms.length)) fields = some s) (hf : ¬ (frac.isSome = true ∧ hms.length ≤ 5))
    (hm : millis frac = some n) (he : hour = 24 → minute = 0 ∧ s * 1000 + n = 0) :
    clockMs text = some ((hour : Int) * 3600000 + minute * 60000 + s * 1000 + n) := by
  have hd : ¬ (hour = 24 ∧ (minute, s, n) ≠ (0, 0, 0)) := by
    rintro ⟨h24, hne⟩
    refine hne ?_
    rw [Prod.mk.injEq, Prod.mk.injEq]
    have := he h24
    omega
  rw [clockMs, hc]
  dsimp only
  rw [hsp]
  dsimp only
  rw [(field_iff (by decide)).mpr ⟨hh, rfl⟩, bind_some, (field_iff (by decide)).mpr ⟨hmn, rfl⟩,
    bind_some, hs, bind_some, if_neg hf, hm, bind_some, if_neg hd]

theorem clockMs_iff : clockMs text = some ms ↔ ClockText text ms := by
  constructor
  · intro h
    obtain ⟨-, hcut⟩ := splitOnce_cases '.' text
    unfold clockMs at h
    dsimp only at h
    generalize splitOnce '.' text = cut at h hcut
    obtain ⟨hms, frac⟩ := cut
    dsimp only at h hcut
    have hj : [':'].intercalate (hms.splitOn ':') = hms := List.intercalate_splitOn ':'
    split at h
    · rename_i a b fields hsp
      rw [hsp] at hj
      obtain ⟨hour, hh, hah⟩ := bind_eq_some_iff.mp h
      obtain ⟨minute, hmn, ham⟩ := bind_eq_some_iff.mp hah
      obtain ⟨seconds, hsc, has⟩ := bind_eq_some_iff.mp ham
      obtain ⟨hle, rfl⟩ := (field_iff (by decide)).mp hh
      obtain ⟨hle', rfl⟩ := (field_iff (by decide)).mp hmn
      split at has
      · cases has
      · rename_i hfr
        obtain ⟨millis, hm, hsum⟩ := bind_eq_some_iff.mp has
        split at hsum
        · cases hsum
        · rename_i he
          have hd : hour = 24 → minute = 0 ∧ seconds = 0 ∧ millis = 0 := by
            intro h24
            simpa [h24] using he
          cases hsum
          rcases second_iff.mp hsc with ⟨hln, hs, rfl⟩ | ⟨hsh, rfl, rfl⟩
          · rw [List.intercalate_cons_cons, List.intercalate_cons_cons, List.intercalate_singleton] at hj
            rcases hcut with ⟨rfl, rfl⟩ | ⟨f, rfl, rfl⟩
            · cases hm
              refine ⟨hour, minute, _, _, hle, hle', .whole hs, fun h24 => ?_, ?_, ?_⟩
              · have := hd h24
                omega
              · rw [← hj]
                simp only [append_assoc, cons_append, nil_append]
              · omega
            · obtain ⟨hne, hdg, rfl⟩ := millis_some.mp hm
              refine ⟨hour, minute, _, _, hle, hle', .fraction hs hne hdg, fun h24 => ?_, ?_, ?_⟩
              · have := hd h24
                omega
              · rw [← hj]
                simp only [append_assoc, cons_append, nil_append]
              · omega
          · rw [List.intercalate_cons_cons, List.intercalate_singleton] at hj
            rcases hcut with ⟨rfl, rfl⟩ | ⟨f, rfl, rfl⟩
            · cases hm
              refine ⟨hour, minute, [], 0, hle, hle', .none, fun h24 => ⟨(hd h24).1, rfl⟩, ?_, ?_⟩
              · rw [← hj]
                simp only [append_assoc, cons_append, nil_append, append_nil]
              · omega
            · exact absurd ⟨rfl, by simpa using hsh⟩ hfr
    · cases h
  · rintro ⟨hour, minute, rest, tail, hle, hle', hr, hd, rfl, rfl⟩
    have hdot : ∀ n, '.' ∉ padded 2 n := fun n => not_digit_padded rfl
    have hc : ∀ n, ':' ∉ padded 2 n := fun n => not_digit_padded rfl
    have hp : (padded 2 hour ++ ':' :: padded 2 minute).splitOn ':' = [padded 2 hour, padded 2 minute] := by
      rw [List.splitOn_append_cons_self_of_not_mem (hc hour), List.splitOn_eq_singleton (hc minute)]
    have ht : ∀ s, (padded 2 hour ++ ':' :: (padded 2 minute ++ ':' :: padded 2 s)).splitOn ':' =
        [padded 2 hour, padded 2 minute, padded 2 s] := fun s => by
      rw [List.splitOn_append_cons_self_of_not_mem (hc hour),
        List.splitOn_append_cons_self_of_not_mem (hc minute), List.splitOn_eq_singleton (hc s)]
    have hl : ∀ s, (padded 2 hour ++ ':' :: (padded 2 minute ++ ':' :: padded 2 s)).length = 8 := fun s => by
      simp only [length_append, length_cons, padded_length]
    cases hr with
    | none =>
      have hsh : (padded 2 hour ++ ':' :: padded 2 minute).length = 5 := by
        simp only [length_append, length_cons, padded_length]
      rw [append_nil]
      refine (clockMs_eq (n := 0) hle hle' (splitOnce_whole (not_mem_padded rfl (by simp [hdot]))) hp
        (second_iff.mpr (.inr ⟨by rw [hsh]; rfl, rfl, rfl⟩)) (by simp) rfl hd).trans ?_
      rw [Option.some.injEq]
      omega
    | @whole s h =>
      refine (clockMs_eq (n := 0) hle hle' (splitOnce_whole (not_mem_padded rfl (by simp [hdot]))) (ht s)
        (second_iff.mpr (.inl ⟨by rw [hl]; rfl, h, rfl⟩)) (by simp) rfl ?_).trans ?_
      · rw [Nat.add_zero]
        exact hd
      rw [Option.some.injEq]
      omega
    | @fraction s f h hne hf =>
      have hcut : splitOnce '.' (padded 2 hour ++ ':' :: (padded 2 minute ++ (':' :: padded 2 s ++ '.' :: f))) =
          (padded 2 hour ++ ':' :: (padded 2 minute ++ ':' :: padded 2 s), some f) := by
        rw [← splitOnce_cut (c := '.') (b := f) (not_mem_padded rfl (by simp [hdot]))]
        simp only [append_assoc, cons_append]
      refine (clockMs_eq (n := thousandths f) hle hle' hcut (ht s)
        (second_iff.mpr (.inl ⟨by rw [hl]; rfl, h, rfl⟩)) (by rw [hl]; simp) (millis_some.mpr ⟨hne, hf, rfl⟩) hd).trans ?_
      rw [Option.some.injEq]
      omega

theorem digit_plain {c : Char} (h : c.isDigit = true) : isSign c = false ∧ c ≠ 'Z' := by
  obtain ⟨n, hn, rfl⟩ := isDigit_toNat h
  clear h
  revert n
  decide

theorem clock_plain (h : ClockText clock ms) : 5 ≤ clock.length ∧ ∀ c ∈ clock, isSign c = false ∧ c ≠ 'Z' := by
  obtain ⟨hour, minute, rest, tail, -, -, hr, -, rfl, -⟩ := h
  have hd : ∀ k n, ∀ c ∈ padded k n, isSign c = false ∧ c ≠ 'Z' := fun k n c hc =>
    digit_plain (padded_digits k n c hc)
  have hp : ∀ c ∈ rest, isSign c = false ∧ c ≠ 'Z' := by
    cases hr with
    | none => exact fun c hc => absurd hc List.not_mem_nil
    | whole h => exact forall_mem_cons.mpr ⟨by decide, hd 2 _⟩
    | fraction h hne hf =>
      refine forall_mem_cons.mpr ⟨by decide, forall_mem_append.mpr ⟨hd 2 _, ?_⟩⟩
      exact forall_mem_cons.mpr ⟨by decide, fun c hc => digit_plain (hf c hc)⟩
  constructor
  · simp only [length_append, length_cons, padded_length]
    omega
  · refine forall_mem_append.mpr ⟨hd 2 hour, forall_mem_cons.mpr ⟨by decide, ?_⟩⟩
    exact forall_mem_append.mpr ⟨hd 2 minute, hp⟩

theorem offset_some {found : Option Int} (h : offset time = some (clock, found)) :
    ∃ text, OffsetText text found ∧ time = clock ++ text := by
  unfold offset at h
  split at h
  · rename_i hl
    cases h
    exact ⟨_, .utc, (List.dropLast_append_getLast? _ hl).symm⟩
  · split at h
    · cases h
      exact ⟨[], .localTime, (append_nil _).symm⟩
    · rename_i sign before hd
      split at h
      · obtain ⟨minutes, hmn, heq⟩ := map_eq_some_iff.mp h
        cases heq
        obtain ⟨hour, minute, hh, hm, ht, rfl⟩ := signedMinutes_iff.mp hmn
        have hs : isSign sign = true := by
          have := List.head?_dropWhile_not (!isSign ·) time.reverse
          simpa [hd] using this
        refine ⟨_, .signed hs hh hm, ?_⟩
        rw [← ht, ← List.reverse_inj, List.reverse_append, List.reverse_cons, reverse_reverse, reverse_reverse,
          append_assoc, List.singleton_append, ← hd, List.takeWhile_append_dropWhile]
      · cases h
        exact ⟨[], .localTime, (append_nil _).symm⟩

theorem offset_of_clock {found : Option Int} (hcl : ClockText clock ms) (h : OffsetText text found) :
    offset (clock ++ text) = some (clock, found) := by
  obtain ⟨hln, hp⟩ := clock_plain hcl
  unfold offset
  cases h with
  | utc => rw [if_pos (by simp), List.dropLast_concat]
  | @signed sign h m hs hh hm =>
    have hof : ∀ c ∈ padded 2 h ++ ':' :: padded 2 m, isSign c = false ∧ c ≠ 'Z' :=
      forall_mem_append.mpr ⟨fun c hc => digit_plain (padded_digits 2 h c hc),
        forall_mem_cons.mpr ⟨by decide, fun c hc => digit_plain (padded_digits 2 m c hc)⟩⟩
    have hl : (clock ++ sign :: (padded 2 h ++ ':' :: padded 2 m)).getLast? ≠ some 'Z' := by
      intro hz
      rcases List.mem_append.mp (List.mem_of_getLast? hz) with hz | hz
      · exact (hp _ hz).2 rfl
      · rcases List.mem_cons.mp hz with rfl | hz
        · cases hs
        · exact (hof _ hz).2 rfl
    have hr : (clock ++ sign :: (padded 2 h ++ ':' :: padded 2 m)).reverse =
        (padded 2 h ++ ':' :: padded 2 m).reverse ++ sign :: clock.reverse := by
      rw [List.reverse_append, List.reverse_cons, append_assoc, List.singleton_append]
    have hn : ∀ c ∈ (padded 2 h ++ ':' :: padded 2 m).reverse, (!isSign c) = true := fun c hc => by
      rw [(hof c (List.mem_reverse.mp hc)).1]
      rfl
    rw [if_neg hl, hr, List.dropWhile_append_of_pos hn, List.takeWhile_append_of_pos hn,
      List.dropWhile_cons_of_neg (by rw [hs]; decide), List.takeWhile_cons_of_neg (by rw [hs]; decide)]
    dsimp only
    rw [if_pos (by rwa [List.length_reverse]), append_nil, reverse_reverse, reverse_reverse,
      signedMinutes_iff.mpr ⟨h, m, hh, hm, rfl, rfl⟩]
    rfl
  | localTime =>
    have hn : ∀ c ∈ clock.reverse, (!isSign c) = true := fun c hc => by
      rw [(hp c (List.mem_reverse.mp hc)).1]
      rfl
    have hl : clock.getLast? ≠ some 'Z' := fun hz => (hp _ (List.mem_of_getLast? hz)).2 rfl
    rw [append_nil, if_neg hl, List.dropWhile_eq_nil_iff.mpr hn]

end Times

/-- ECMAScript's `DayFromYear`. -/
def dayFromYear (y : Int) : Int := 365 * (y - 1970) + (y - 1969) / 4 - (y - 1901) / 100 + (y - 1601) / 400

def daysBefore (y : Int) (m : Nat) : Nat := ((monthLengths y).take (m - 1)).foldr (· + ·) 0

/-- The days from 1970-01-01 to a date. -/
def dayNumber (y : Int) (m d : Nat) : Int := dayFromYear y + daysBefore y m + (d - 1)

def nextDate (y : Int) (m d : Nat) : Int × Nat × Nat :=
  if d < (monthLengths y).getD (m - 1) 0 then (y, m, d + 1) else if m < 12 then (y, m + 1, 1) else (y + 1, 1, 1)

section Calendar

variable {y n : Int} {m d : Nat}

theorem month_cases (hl : 1 ≤ m) (hh : m ≤ 12) : m = 1 ∨ m = 2 ∨ m = 3 ∨ m = 4 ∨ m = 5 ∨ m = 6 ∨ m = 7 ∨ m = 8 ∨
    m = 9 ∨ m = 10 ∨ m = 11 ∨ m = 12 := by
  omega

theorem leap_iff : leap y = true ↔ y % 4 = 0 ∧ (y % 100 ≠ 0 ∨ y % 400 = 0) := by
  simp only [leap, Bool.and_eq_true, Bool.or_eq_true, beq_iff_eq, bne_iff_ne, ne_eq]

theorem leap_cases (y : Int) : leap y = true ∧ y % 4 = 0 ∧ (y % 100 ≠ 0 ∨ y % 400 = 0) ∨
    leap y = false ∧ (y % 4 ≠ 0 ∨ y % 100 = 0 ∧ y % 400 ≠ 0) := by
  by_cases h : leap y = true
  · exact .inl ⟨h, leap_iff.mp h⟩
  · refine .inr ⟨Bool.not_eq_true _ ▸ h, ?_⟩
    rw [leap_iff] at h
    omega

theorem daysBefore_eq (hl : 1 ≤ m) (hh : m ≤ 12) : daysBefore y m =
    if m ≤ 2 then 31 * (m - 1) else (153 * (m - 3) + 2) / 5 + 59 + if leap y then 1 else 0 := by
  rcases month_cases hl hh with rfl | rfl | rfl | rfl | rfl | rfl | rfl | rfl | rfl | rfl | rfl | rfl <;>
    cases h : leap y <;> simp [daysBefore, monthLengths, h]

theorem days_civil (hl : 1 ≤ m) (hh : m ≤ 12) : daysFromCivil y m d = dayNumber y m d := by
  unfold daysFromCivil dayNumber dayFromYear
  rw [daysBefore_eq hl hh]
  by_cases hm : m ≤ 2
  · rw [if_pos hm, if_pos (by omega), if_neg (by omega)]
    dsimp only
    omega
  · rw [if_neg hm, if_neg (by omega), if_pos (by omega)]
    dsimp only
    rcases leap_cases y with ⟨hlp, hc⟩ | ⟨hlp, hc⟩
    · rw [if_pos hlp]
      omega
    · rw [if_neg (by rw [hlp]; decide)]
      omega

theorem month_long (h : m < 12) : 28 ≤ (monthLengths y).getD m 0 ∧ (monthLengths y).getD m 0 ≤ 31 := by
  have hln : ∀ n ∈ monthLengths y, 28 ≤ n ∧ n ≤ 31 := by
    cases hl : leap y <;> simp [monthLengths, hl]
  rw [List.getD_eq_getElem?_getD, List.getElem?_eq_getElem (show m < (monthLengths y).length from h), Option.getD_some]
  exact hln _ (List.getElem_mem _)

theorem daysBefore_succ (hl : 1 ≤ m) (hh : m < 12) :
    daysBefore y (m + 1) = daysBefore y m + (monthLengths y).getD (m - 1) 0 := by
  rcases month_cases hl (Nat.le_of_lt hh) with rfl | rfl | rfl | rfl | rfl | rfl | rfl | rfl | rfl | rfl | rfl | rfl <;>
    simp [daysBefore, monthLengths] <;> omega

theorem dayFromYear_succ (y : Int) : dayFromYear (y + 1) = dayFromYear y + if leap y then 366 else 365 := by
  unfold dayFromYear
  rcases leap_cases y with ⟨hlp, hc⟩ | ⟨hlp, hc⟩
  · rw [if_pos hlp]
    omega
  · rw [if_neg (by rw [hlp]; decide)]
    omega

theorem days_next (h : Valid y m d) : Valid (nextDate y m d).1 (nextDate y m d).2.1 (nextDate y m d).2.2 ∧
    dayNumber (nextDate y m d).1 (nextDate y m d).2.1 (nextDate y m d).2.2 = dayNumber y m d + 1 := by
  obtain ⟨hlow, hh, hf, hl⟩ := h
  unfold nextDate
  split
  · rename_i hd
    refine ⟨⟨hlow, hh, Nat.le_add_left 1 d, hd⟩, ?_⟩
    simp only [dayNumber]
    omega
  · split
    · rename_i hd hm
      refine ⟨⟨Nat.le_add_left 1 m, hm, Nat.le_refl 1, ?_⟩, ?_⟩
      · exact Nat.le_trans (show 1 ≤ 28 by decide) (month_long hm).1
      · simp only [dayNumber, daysBefore_succ hlow hm]
        omega
    · rename_i hd hm
      obtain rfl : m = 12 := by omega
      have hdy : (monthLengths y).getD (12 - 1) 0 = 31 := rfl
      refine ⟨⟨Nat.le_refl 1, (by decide : 1 ≤ 12), Nat.le_refl 1, (by decide : 1 ≤ 31)⟩, ?_⟩
      simp only [dayNumber, dayFromYear_succ, daysBefore_eq hlow hh, daysBefore_eq (Nat.le_refl 1) (show 1 ≤ 12 by decide)]
      cases leap y <;> simp <;> omega

/-- Every day has a date. -/
theorem date_of_day (n : Int) : ∃ y m d, Valid y m d ∧ dayNumber y m d = n := by
  have hf : ∀ k : Nat, ∃ y m d, Valid y m d ∧ dayNumber y m d = dayNumber (1970 + min n 0) 1 1 + k := by
    intro k
    induction k with
    | zero => exact ⟨_, 1, 1, ⟨by decide, by decide, by decide, (by decide : 1 ≤ 31)⟩, (Int.add_zero _).symm⟩
    | succ k ih =>
      obtain ⟨y, m, d, hv, hd⟩ := ih
      refine ⟨_, _, _, (days_next hv).1, ?_⟩
      rw [(days_next hv).2, hd]
      omega
  have hs : dayNumber (1970 + min n 0) 1 1 ≤ n := by
    simp only [dayNumber, dayFromYear, daysBefore, Nat.sub_self, List.take_zero, List.foldr_nil]
    omega
  obtain ⟨y, m, d, hv, hd⟩ := hf (n - dayNumber (1970 + min n 0) 1 1).toNat
  exact ⟨y, m, d, hv, by omega⟩

/-- The day number of a valid date is near that of its year. -/
theorem day_bounds (h : Valid y m d) : dayFromYear y ≤ dayNumber y m d ∧ dayNumber y m d ≤ dayFromYear y + 366 := by
  obtain ⟨hlow, hh, hf, hl⟩ := h
  have hln := (month_long (y := y) (Nat.sub_one_lt_of_le hlow hh)).2
  rw [dayNumber, daysBefore_eq hlow hh]
  split
  · omega
  · split <;> omega

end Calendar

/-- The texts `parse_date` takes, with their milliseconds. -/
inductive Accepted (localMinusUtc : Int → Option Int32) : List Char → Int → Prop
  | date {yearText date : List Char} {y : Int} {m d : Nat} (hyear : YearText yearText y) (hdate : DateText date m d)
      (hvalid : Valid y m d) : Accepted localMinusUtc (yearText ++ date) (dayNumber y m d * msPerDay)
  | dateTime {yearText date clock text : List Char} {y ms minutes : Int} {m d : Nat} {found : Option Int}
      (hyear : YearText yearText y) (hdate : DateText date m d) (hvalid : Valid y m d) (hclock : ClockText clock ms)
      (hoffset : OffsetText text found)
      (hminutes : found.or ((localMinusUtc (dayNumber y m d * msPerDay + ms)).map (·.toInt.tdiv 60)) = some minutes)
      (hrange : (dayNumber y m d * msPerDay + ms - minutes * 60000).natAbs ≤ 8640000000000000) :
      Accepted localMinusUtc (yearText ++ (date ++ 'T' :: (clock ++ text))) (dayNumber y m d * msPerDay + ms - minutes * 60000)

def isoYear (y : Int) : List Char :=
  if 0 ≤ y ∧ y ≤ 9999 then padded 4 y.toNat else (if y < 0 then '-' else '+') :: padded 6 y.natAbs

def isoText (y : Int) (m d ms : Nat) : List Char :=
  isoYear y ++ (('-' :: padded 2 m ++ '-' :: padded 2 d) ++ 'T' :: ((padded 2 (ms / 3600000) ++ ':' :: (padded 2 (ms / 60000 % 60) ++
    (':' :: padded 2 (ms / 1000 % 60) ++ '.' :: padded 3 (ms % 1000)))) ++ ['Z']))

/-- `s` is what `toISOString` prints for `t`. -/
def IsIsoString (t : Int) (s : List Char) : Prop :=
  ∃ y m d, Valid y m d ∧ dayNumber y m d = t / msPerDay ∧ s = isoText y m d (t % msPerDay).toNat

section Parsing

variable {localMinusUtc : Int → Option Int32} {s text : List Char} {y t ms : Int} {m d : Nat}

theorem dateMs_iff : dateMs y text = some ms ↔ ∃ m d, DateText text m d ∧ Valid y m d ∧ ms = dayNumber y m d * msPerDay := by
  rw [dateMs, bind_eq_some_iff]
  constructor
  · rintro ⟨⟨m, d⟩, hmd, hms⟩
    dsimp only at hms
    split at hms
    · rename_i hv
      rw [days_civil hv.1 hv.2.1] at hms
      exact ⟨m, d, monthDay_iff.mp hmd, hv, (Option.some.inj hms).symm⟩
    · cases hms
  · rintro ⟨m, d, hmd, hv, rfl⟩
    refine ⟨(m, d), monthDay_iff.mpr hmd, ?_⟩
    dsimp only
    rw [if_pos hv, days_civil hv.1 hv.2.1]

theorem date_plain (h : DateText text m d) : 'T' ∉ text := by
  have hd : ∀ n, 'T' ∉ padded 2 n := fun n => not_digit_padded rfl
  cases h <;> simp [hd]

theorem parse_iff : parseDate localMinusUtc s = some t ↔ Accepted localMinusUtc s t := by
  constructor
  · intro h
    obtain ⟨⟨y, rest⟩, hy, hrs⟩ := bind_eq_some_iff.mp h
    obtain ⟨ms, hms, htm⟩ := bind_eq_some_iff.mp hrs
    obtain ⟨yearText, hyt, rfl⟩ := year_iff.mp hy
    obtain ⟨m, d, hd, hv, rfl⟩ := dateMs_iff.mp hms
    dsimp only at hd htm
    rcases (splitOnce_cases 'T' rest).2 with ⟨hn, hw⟩ | ⟨time, hs, hcut⟩
    · rw [hn] at htm
      cases htm
      rw [hw]
      exact .date hyt hd hv
    · rw [hs] at htm
      obtain ⟨⟨clock, found⟩, hof, hc⟩ := bind_eq_some_iff.mp htm
      obtain ⟨cms, hcms, hl⟩ := bind_eq_some_iff.mp hc
      obtain ⟨minutes, hm, hr⟩ := bind_eq_some_iff.mp hl
      obtain ⟨text, ht, rfl⟩ := offset_some hof
      split at hr
      · rename_i hle
        cases hr
        rw [hcut]
        exact .dateTime hyt hd hv (clockMs_iff.mp hcms) ht hm hle
      · cases hr
  · intro h
    unfold parseDate
    cases h with
    | date hy hd hv =>
      rw [year_iff.mpr ⟨_, hy, rfl⟩, bind_some, splitOnce_whole (date_plain hd),
        dateMs_iff.mpr ⟨_, _, hd, hv, rfl⟩, bind_some]
    | dateTime hy hd hv hc hof hm hr =>
      rw [year_iff.mpr ⟨_, hy, rfl⟩, bind_some, splitOnce_cut (date_plain hd),
        dateMs_iff.mpr ⟨_, _, hd, hv, rfl⟩, bind_some]
      dsimp only
      rw [offset_of_clock hc hof, bind_some]
      dsimp only
      rw [clockMs_iff.mpr hc, bind_some, hm, bind_some, if_pos hr]

theorem isoYear_text (h : y.natAbs ≤ 999999) : YearText (isoYear y) y := by
  unfold isoYear
  split
  · rename_i hp
    obtain ⟨n, rfl⟩ := Int.eq_ofNat_of_zero_le hp.1
    exact .plain (by omega)
  · split
    · rename_i hn
      obtain ⟨n, rfl | rfl⟩ := Int.eq_nat_or_neg y
      · omega
      · rw [Int.natAbs_neg, Int.natAbs_natCast] at h ⊢
        exact .minus (by omega) (by omega)
    · rename_i hn
      obtain ⟨n, rfl⟩ := Int.eq_ofNat_of_zero_le (Int.not_lt.mp hn)
      exact .plus (by omega)

theorem thousandths_padded {n : Nat} (h : n < 1000) : thousandths (padded 3 n) = n := by
  rw [thousandths, (take_padded 3 n _).1, value_padded (by omega)]

theorem iso_clock {n : Nat} (h : n < 86400000) : ClockText (padded 2 (n / 3600000) ++ ':' :: (padded 2 (n / 60000 % 60) ++
    (':' :: padded 2 (n / 1000 % 60) ++ '.' :: padded 3 (n % 1000)))) n := by
  have hne : padded 3 (n % 1000) ≠ [] := fun hn => by
    have := padded_length 3 (n % 1000)
    rw [hn] at this
    cases this
  refine ⟨_, _, _, _, by omega, by omega, .fraction (by omega) hne (padded_digits 3 _), fun h24 => by omega, rfl, ?_⟩
  rw [thousandths_padded (by omega)]
  omega

theorem iso_accepted (ht : t.natAbs ≤ 8640000000000000) (h : IsIsoString t s) : Accepted localMinusUtc s t := by
  obtain ⟨y, m, d, hv, hday, rfl⟩ := h
  have hbn := day_bounds hv
  unfold dayFromYear at hbn
  have hl := (month_long (y := y) (Nat.sub_one_lt_of_le hv.1 hv.2.1)).2
  have hs : dayNumber y m d * msPerDay + (t % msPerDay).toNat - 0 * 60000 = t := by
    unfold msPerDay at hday ⊢
    omega
  have hc : (t % msPerDay).toNat < 86400000 := by
    unfold msPerDay
    omega
  have hy : y.natAbs ≤ 999999 := by
    unfold msPerDay at hday
    omega
  have hm := hv.2.1
  have hd := hv.2.2.2
  have hac : Accepted localMinusUtc _ _ := .dateTime (isoYear_text hy)
    (.day (show m < 10 ^ 2 by omega) (show d < 10 ^ 2 by omega)) hv (iso_clock hc) .utc rfl (by rw [hs]; exact ht)
  rw [hs] at hac
  exact hac

theorem iso_exists (t : Int) : ∃ s, IsIsoString t s := by
  obtain ⟨y, m, d, hv, hd⟩ := date_of_day (t / msPerDay)
  exact ⟨_, y, m, d, hv, hd, rfl⟩

end Parsing

/-- An `i64`. -/
def Fits (n : Int) : Prop := -9223372036854775808 ≤ n ∧ n < 9223372036854775808

section Bounds

variable {s rest time clock : List Char} {y ms n minutes : Int} {m d : Nat}

theorem year_bound (h : year s = some (y, rest)) : y.natAbs ≤ 999999 := by
  obtain ⟨text, hy, -⟩ := year_iff.mp h
  cases hy <;> omega

theorem date_bound (hy : y.natAbs ≤ 999999) (h : Valid y m d) :
    (daysFromCivil y m d * msPerDay).natAbs ≤ 32000000000000000 := by
  have hbn := day_bounds h
  rw [days_civil h.1 h.2.1]
  unfold dayFromYear at hbn
  unfold msPerDay
  omega

theorem clock_bound (h : clockMs clock = some n) : 0 ≤ n ∧ n ≤ 86400000 := by
  obtain ⟨hour, minute, rest, tail, hh, hm, hr, hd, -, rfl⟩ := clockMs_iff.mp h
  have ht : tail < 60000 := by
    cases hr with
    | none => omega
    | whole h => omega
    | @fraction s f h hne hf =>
      have hl : ((f ++ ['0', '0', '0']).take 3).length = 3 := by simp
      have hdg : ∀ c ∈ (f ++ ['0', '0', '0']).take 3, c.isDigit = true := fun c hc =>
        forall_mem_append.mpr ⟨hf, by simp⟩ c (List.mem_of_mem_take hc)
      have hlt := (padded_value hdg).2
      rw [hl] at hlt
      unfold thousandths
      omega
  omega

theorem offset_bound (h : offset time = some (clock, some minutes)) : minutes.natAbs ≤ 1439 := by
  obtain ⟨text, hof, -⟩ := offset_some h
  cases hof with
  | utc => decide
  | @signed sign h m hs hh hm => split <;> omega

theorem local_bound (seconds : Int32) : (seconds.toInt.tdiv 60).natAbs ≤ 2147483648 := by
  have hl := seconds.le_toInt
  have hh := seconds.toInt_lt
  rw [Int.natAbs_tdiv]
  exact Nat.le_trans (Nat.div_le_self _ _) (by omega)

end Bounds

/-- `parse_date` takes exactly the texts of `Accepted`, among them what `toISOString` prints, by the calendar of
`dayNumber`, and computes within `i64`. -/
theorem date_parse (localMinusUtc : Int → Option Int32) :
    (∀ t : Int, t.natAbs ≤ 8640000000000000 →
      (∃ s, IsIsoString t s) ∧ ∀ s, IsIsoString t s → parseDate localMinusUtc s = some t) ∧
    (∀ s t, parseDate localMinusUtc s = some t ↔ Accepted localMinusUtc s t) ∧
    (∀ s, parseDate localMinusUtc s = none ↔ ∀ t, ¬ Accepted localMinusUtc s t) ∧
    (dayNumber 1970 1 1 = 0 ∧ ∀ y m d, Valid y m d → daysFromCivil y m d = dayNumber y m d ∧
      Valid (nextDate y m d).1 (nextDate y m d).2.1 (nextDate y m d).2.2 ∧
      dayNumber (nextDate y m d).1 (nextDate y m d).2.1 (nextDate y m d).2.2 = dayNumber y m d + 1) ∧
    (∀ s y rest, year s = some (y, rest) → y.natAbs ≤ 999999 ∧ ∀ m d, Valid y m d →
      Fits (daysFromCivil y m d * msPerDay) ∧ ∀ clock n, clockMs clock = some n →
        Fits (daysFromCivil y m d * msPerDay + n) ∧
        (∀ time minutes, offset time = some (clock, some minutes) →
          Fits (daysFromCivil y m d * msPerDay + n - minutes * 60000)) ∧
        ∀ seconds : Int32, Fits (daysFromCivil y m d * msPerDay + n - seconds.toInt.tdiv 60 * 60000)) := by
  refine ⟨fun t ht => ⟨iso_exists t, fun s h => parse_iff.mpr (iso_accepted ht h)⟩, fun s t => parse_iff, fun s => ?_,
    ⟨by decide, fun y m d h => ⟨days_civil h.1 h.2.1, days_next h⟩⟩, fun s y rest hy => ⟨year_bound hy, ?_⟩⟩
  · rw [Option.eq_none_iff_forall_ne_some]
    exact forall_congr' fun t => not_congr parse_iff
  · intro m d hv
    have hd := date_bound (year_bound hy) hv
    refine ⟨⟨by omega, by omega⟩, fun clock n hn => ?_⟩
    have hc := clock_bound hn
    refine ⟨⟨by omega, by omega⟩, fun time minutes hof => ?_, fun seconds => ?_⟩
    · have hm := offset_bound hof
      exact ⟨by omega, by omega⟩
    · have hm := local_bound seconds
      exact ⟨by omega, by omega⟩

end HrcRuntime.DateParse
