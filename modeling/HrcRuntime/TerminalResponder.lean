import HrcRuntime.HumanInput

namespace HrcRuntime.TerminalResponder

open HumanInput

structure Answer where
  name : String
  query : List UInt8
  reply : List UInt8
  template : Option String

structure Live where
  kittyFlags : Nat
  cellPx : Option (Nat × Nat)

/-- `belEnds` for an OSC body. -/
inductive State where
  | ground | esc | csi
  | str (belEnds : Bool)
  | strEsc
  deriving DecidableEq

def maxSeq : Nat := 512

structure Responder where
  answers : List Answer
  state : State := .ground
  seq : List UInt8 := []
  overflow : Bool := false

def cancels (b : UInt8) : Bool := b == 0x18 || b == 0x1a

def ascii (text : String) : List UInt8 := text.toList.map byte

namespace Responder

def reset (r : Responder) : Responder := { r with state := .ground, seq := [], overflow := false }

def push (r : Responder) (b : UInt8) : Responder :=
  if r.seq.length < maxSeq then { r with seq := r.seq ++ [b] } else { r with overflow := true }

def finish (r : Responder) : Responder × Option (List UInt8) :=
  (r.reset, if r.overflow then none else some r.seq)

def introduced (b : UInt8) : State :=
  if b = byte '[' then .csi
  else if b = byte ']' then .str true
  else if b = byte '_' ∨ b = byte 'P' then .str false
  else if b = escape then .esc
  else .ground

def stepEsc (r : Responder) (b : UInt8) : Responder :=
  let pushed := r.push b
  { pushed with
    state := introduced b
    seq := if b = escape then [escape] else pushed.seq }

def step (r : Responder) (b : UInt8) : Responder × Option (List UInt8) :=
  if cancels b then (r.reset, none)
  else
    match r.state with
    | .ground => if b = escape then ({ r with state := .esc, seq := [b] }, none) else (r, none)
    | .esc => (r.stepEsc b, none)
    | .csi =>
      if isFinal b then (r.push b).finish
      else if b = escape then ({ r.push b with state := .esc, seq := [escape] }, none)
      else (r.push b, none)
    | .str belEnds =>
      if b = bell ∧ belEnds = true then (r.push b).finish
      else if b = escape then ({ r.push b with state := .strEsc }, none)
      else (r.push b, none)
    | .strEsc =>
      if b = byte '\\' then (r.push b).finish
      else (stepEsc { r with state := .esc, seq := [escape], overflow := false } b, none)

end Responder

def rendered (a : Answer) (live : Live) : List UInt8 :=
  if a.template = some "kitty_flags" then ascii ("\x1b[?" ++ toString live.kittyFlags ++ "u")
  else if a.template = some "cell_size" then
    match live.cellPx with
    | some (w, h) => ascii ("\x1b[6;" ++ toString h ++ ";" ++ toString w ++ "t")
    | none => a.reply
  else a.reply

def answer (answers : List Answer) (live : Live) (seq : List UInt8) : Option (String × List UInt8) :=
  match answers.find? fun a => a.query == seq with
  | none => none
  | some a => if a.reply.isEmpty then none else some (a.name, rendered a live)

def scan (live : Live) : Responder → List UInt8 → Responder × List (String × List UInt8)
  | r, [] => (r, [])
  | r, b :: bytes =>
    let (r', seq) := r.step b
    let (r'', replies) := scan live r' bytes
    (r'', (seq.bind (answer r.answers live)).toList ++ replies)

def scanChunks (live : Live) : Responder → List (List UInt8) → List (String × List UInt8)
  | _, [] => []
  | r, chunk :: chunks => (scan live r chunk).2 ++ scanChunks live (scan live r chunk).1 chunks

structure Reading where
  state : State := .ground
  text : List UInt8 := []

namespace Reading

def ended : Reading := {}

def introduce (b : UInt8) : Reading :=
  match Responder.introduced b with
  | .ground => .ended
  | state => ⟨state, if b = escape then [escape] else [escape, b]⟩

def completes (s : Reading) (b : UInt8) : Option (List UInt8) :=
  let whole := s.text ++ [b]
  match s.state with
  | .csi => if isFinal b then some whole else none
  | .str belEnds => if b = bell ∧ belEnds = true then some whole else none
  | .strEsc => if b = byte '\\' then some whole else none
  | _ => none

/-- The stream one byte on: a sequence is left when it is complete, at a CAN or SUB, and at an ESC that does not
end a string. -/
def next (s : Reading) (b : UInt8) : Reading :=
  if cancels b ∨ (s.completes b).isSome then .ended
  else
    match s.state with
    | .ground => if b = escape then ⟨.esc, [escape]⟩ else .ended
    | .esc => introduce b
    | .csi => if b = escape then ⟨.esc, [escape]⟩ else { s with text := s.text ++ [b] }
    | .str _ => ⟨if b = escape then .strEsc else s.state, s.text ++ [b]⟩
    | .strEsc => introduce b

end Reading

def expected (answers : List Answer) (live : Live) : Reading → List UInt8 → List (String × List UInt8)
  | _, [] => []
  | s, b :: bytes =>
    let seq := (s.completes b).filter fun seq => decide (seq.length ≤ maxSeq)
    (seq.bind (answer answers live)).toList ++ expected answers live (s.next b) bytes

/-- Whether a CSI sequence of full size was cut off by an ESC and nothing has cleared that: no sequence was
completed, no CAN or SUB came, no string was cut off. -/
def staleAfter (stale : Bool) (s : Reading) (b : UInt8) : Bool :=
  if cancels b ∨ (s.completes b).isSome ∨ s.state = .strEsc then false
  else stale || (decide (s.state = .csi) && b == escape && decide (maxSeq ≤ s.text.length))

def Loses (answers : List Answer) (live : Live) : Bool → Reading → List UInt8 → Prop
  | _, _, [] => False
  | stale, s, b :: bytes =>
    (stale = true ∧ ∃ seq, s.completes b = some seq ∧ seq.length ≤ maxSeq ∧ (answer answers live seq).isSome = true) ∨
    Loses answers live (staleAfter stale s b) (s.next b) bytes

end HrcRuntime.TerminalResponder

namespace HrcRuntime.ResponderReplies

open HumanInput TerminalResponder
open List (append_assoc length_append length_singleton suffix_refl suffix_append foldl_cons foldl_append)

section Chunks

variable {live : Live} {r : Responder} {a b : List UInt8}

theorem scan_append (a b : List UInt8) (r : Responder) : scan live r (a ++ b) =
    ((scan live (scan live r a).1 b).1, (scan live r a).2 ++ (scan live (scan live r a).1 b).2) := by
  induction a generalizing r with
  | nil => rfl
  | cons x a ih =>
    rw [List.cons_append, scan, scan]
    dsimp only
    rw [ih]
    dsimp only
    rw [append_assoc]

theorem scanChunks_eq (chunks : List (List UInt8)) : scanChunks live r chunks = (scan live r chunks.flatten).2 := by
  induction chunks generalizing r with
  | nil => rfl
  | cons chunk chunks ih => rw [scanChunks, List.flatten_cons, scan_append, ih]

end Chunks

section Simulation

variable {r : Responder} {s : Reading} {stale : Bool} {b : UInt8}

theorem not_cancels_escape : cancels escape = false := rfl

theorem not_final_escape : isFinal escape = false := rfl

structure Holds (r : Responder) (stale : Bool) (s : Reading) : Prop where
  state : r.state = s.state
  overflow : r.overflow = (stale || decide (maxSeq < s.text.length))
  seq : s.state ≠ .ground → r.seq = s.text.take maxSeq
  ground : s.state = .ground → s.text = []
  esc : s.state = .esc → s.text = [escape]

theorem push_seq (h : Holds r stale s) (hst : s.state ≠ .ground) (b : UInt8) :
    (r.push b).seq = (s.text ++ [b]).take maxSeq ∧
      (r.push b).overflow = (stale || decide (maxSeq < (s.text ++ [b]).length)) := by
  have hs := h.seq hst
  have hov := h.overflow
  have hl : r.seq.length = min maxSeq s.text.length := by rw [hs, List.length_take]
  rw [length_append, length_singleton]
  unfold Responder.push
  split
  next hr =>
    have hsh : s.text.length < maxSeq := by omega
    constructor
    · change r.seq ++ [b] = _
      rw [hs, List.take_of_length_le (Nat.le_of_lt hsh), List.take_of_length_le]
      rw [length_append, length_singleton]
      omega
    · change r.overflow = _
      rw [hov, decide_eq_false (by omega), decide_eq_false (by omega)]
  next hr =>
    have hln : maxSeq ≤ s.text.length := by omega
    constructor
    · change r.seq = _
      rw [hs, List.take_append_of_le_length hln]
    · change true = _
      rw [decide_eq_true (by omega), Bool.or_true]

theorem push_keeps (r : Responder) (b : UInt8) : (r.push b).answers = r.answers ∧ (r.push b).state = r.state := by
  unfold Responder.push
  split <;> exact ⟨rfl, rfl⟩

theorem holds_reset (r : Responder) : Holds r.reset false .ended :=
  ⟨rfl, rfl, fun h => absurd rfl h, fun _ => rfl, fun h => by cases h⟩

def kept (stale : Bool) (seq : Option (List UInt8)) : Option (List UInt8) :=
  if stale then none else seq.filter fun seq => decide (seq.length ≤ maxSeq)

theorem finish_of {q : Responder} {whole : List UInt8} (hs : q.seq = whole.take maxSeq)
    (hov : q.overflow = (stale || decide (maxSeq < whole.length))) : q.finish.2 = kept stale (some whole) := by
  unfold Responder.finish kept
  rw [hov, hs]
  cases stale with
  | true => rfl
  | false =>
    by_cases hl : maxSeq < whole.length
    · simp [Option.filter, hl, Nat.not_le.mpr hl]
    · simp [Option.filter, hl, Nat.not_lt.mp hl, List.take_of_length_le (Nat.not_lt.mp hl)]

theorem introduced_cases (b : UInt8) :
    Responder.introduced b = .ground ∨ (Responder.introduced b = .esc ∧ b = escape) ∨
    (Responder.introduced b = .csi ∧ b = byte '[') ∨
    ∃ belEnds, Responder.introduced b = .str belEnds ∧ (b = byte ']' ∨ b = byte '_' ∨ b = byte 'P') := by
  by_cases hc : b = byte '['
  · exact Or.inr (Or.inr (Or.inl ⟨if_pos hc, hc⟩))
  · by_cases hosc : b = byte ']'
    · exact Or.inr (Or.inr (Or.inr ⟨true, by rw [Responder.introduced, if_neg hc, if_pos hosc], Or.inl hosc⟩))
    · by_cases hs : b = byte '_' ∨ b = byte 'P'
      · exact Or.inr (Or.inr (Or.inr
          ⟨false, by rw [Responder.introduced, if_neg hc, if_neg hosc, if_pos hs], Or.inr hs⟩))
      · by_cases he : b = escape
        · exact Or.inr (Or.inl
            ⟨by rw [Responder.introduced, if_neg hc, if_neg hosc, if_neg hs, if_pos he], he⟩)
        · exact Or.inl (by
            rw [Responder.introduced, if_neg hc, if_neg hosc, if_neg hs, if_neg he])

theorem introduced_esc (h : Responder.introduced b = .esc) : b = escape := by
  rcases introduced_cases b with hb | ⟨-, hb⟩ | ⟨hb, -⟩ | ⟨belEnds, hb, -⟩
  · cases hb.symm.trans h
  · exact hb
  · cases hb.symm.trans h
  · cases hb.symm.trans h

theorem introduce_of_ne (h : Responder.introduced b ≠ .ground) :
    Reading.introduce b = ⟨Responder.introduced b, if b = escape then [escape] else [escape, b]⟩ := by
  unfold Reading.introduce
  split
  next hg => exact absurd hg h
  next => rfl

theorem introduce_ground (h : Responder.introduced b = .ground) : Reading.introduce b = .ended := by
  unfold Reading.introduce
  rw [h]

theorem holds_stepEsc {q : Responder} (hs : q.seq = [escape]) (hov : q.overflow = stale) (b : UInt8) :
    Holds (q.stepEsc b) stale (.introduce b) := by
  have hp : q.push b = { q with seq := [escape, b] } := by
    rw [Responder.push, hs]
    rfl
  rw [Responder.stepEsc, hp]
  by_cases hg : Responder.introduced b = .ground
  · rw [introduce_ground hg]
    exact ⟨hg, by rw [hov]; exact (Bool.or_false _).symm, fun h => absurd rfl h, fun _ => rfl,
      fun h => by cases h⟩
  · rw [introduce_of_ne hg]
    refine ⟨rfl, ?_, fun _ => ?_, fun h => absurd h hg, fun h => ?_⟩
    · change q.overflow = _
      by_cases hb : b = escape
      · simp [hb, hov, maxSeq]
      · simp [hb, hov, maxSeq]
    · by_cases hb : b = escape
      · simp [hb, maxSeq]
      · simp [hb, maxSeq]
    · exact if_pos (introduced_esc h)

theorem holds_push (h : Holds r stale s) (hst : s.state ≠ .ground) (hesc : s.state ≠ .esc) :
    Holds (r.push b) stale { s with text := s.text ++ [b] } := by
  obtain ⟨hs, hov⟩ := push_seq h hst b
  exact ⟨(push_keeps r b).2.trans h.state, hov, fun _ => hs, fun hg => absurd hg hst,
    fun he => absurd he hesc⟩

structure Steps (r : Responder) (stale : Bool) (s : Reading) (b : UInt8) : Prop where
  holds : Holds (r.step b).1 (staleAfter stale s b) (s.next b)
  seq : (r.step b).2 = kept stale (s.completes b)
  answers : (r.step b).1.answers = r.answers

theorem kept_none (stale : Bool) : kept stale none = none := by
  cases stale <;> rfl

theorem steps_completed (whole : List UInt8) (h : Holds r stale s) (hst : s.state ≠ .ground)
    (hwh : s.completes b = some whole) (ht : whole = s.text ++ [b]) (hstep : r.step b = (r.push b).finish) :
    Steps r stale s b := by
  obtain ⟨hs, hov⟩ := push_seq h hst b
  have hd : cancels b = true ∨ (s.completes b).isSome = true := Or.inr (by rw [hwh]; rfl)
  refine ⟨?_, ?_, ?_⟩
  · rw [hstep, Reading.next, if_pos hd, staleAfter, if_pos (by tauto)]
    exact holds_reset _
  · rw [hstep, hwh]
    subst ht
    exact finish_of hs hov
  · rw [hstep]
    exact (push_keeps r b).1

theorem steps_canceled (r : Responder) (stale : Bool) (s : Reading) (hc : cancels b = true)
    (hn : s.completes b = none) : Steps r stale s b := by
  refine ⟨?_, ?_, ?_⟩
  · rw [Responder.step, if_pos hc, Reading.next, if_pos (Or.inl hc), staleAfter, if_pos (Or.inl hc)]
    exact holds_reset r
  · rw [Responder.step, if_pos hc, hn, kept_none]
  · rw [Responder.step, if_pos hc]
    rfl

theorem completes_canceled (hc : cancels b = true) (s : Reading) : s.completes b = none := by
  have hb : b = 0x18 ∨ b = 0x1a := by simpa only [cancels, Bool.or_eq_true, beq_iff_eq] using hc
  unfold Reading.completes
  cases s.state with
  | ground | esc => rfl
  | csi | strEsc => rcases hb with rfl | rfl <;> rfl
  | str belEnds => rcases hb with rfl | rfl <;> cases belEnds <;> rfl

theorem ended_of_ground (h : Holds r stale s) (hst : s.state = .ground) : s = .ended := by
  have ht := h.ground hst
  cases s
  subst hst ht
  rfl

theorem steps_ground (h : Holds r stale s) (hc : cancels b = false) (hst : s.state = .ground) :
    Steps r stale s b := by
  obtain rfl := ended_of_ground h hst
  have hr : r.state = .ground := h.state
  have hov : r.overflow = stale := h.overflow.trans (Bool.or_false _)
  have hstale : staleAfter stale .ended b = stale := by simp [staleAfter, hc, Reading.completes, Reading.ended]
  have hnn : (Reading.ended).completes b = none := rfl
  by_cases hb : b = escape
  · have hs : r.step b = ({ r with
        state := .esc
        seq := [b] }, none) := by
      simp [Responder.step, not_cancels_escape, hr, hb]
    have hn : (Reading.ended).next b = ⟨.esc, [escape]⟩ := by
      rw [hb]
      rfl
    refine ⟨?_, ?_, ?_⟩
    · rw [hs, hstale, hn]
      refine ⟨rfl, ?_, fun _ => by simp [hb, maxSeq], (fun hg => by cases hg), fun _ => rfl⟩
      change r.overflow = _
      simp [hov, maxSeq]
    · rw [hs, hnn, kept_none]
    · rw [hs]
  · have hs : r.step b = (r, none) := by simp [Responder.step, hc, hr, hb]
    have hn : (Reading.ended).next b = .ended := by
      simp [Reading.next, hc, hnn, hb]
      rfl
    refine ⟨?_, ?_, ?_⟩
    · rw [hs, hstale, hn]
      exact h
    · rw [hs, hnn, kept_none]
    · rw [hs]

theorem stepEsc_answers (r : Responder) (b : UInt8) : (r.stepEsc b).answers = r.answers :=
  (push_keeps r b).1

theorem steps_esc (h : Holds r stale s) (hc : cancels b = false) (hst : s.state = .esc) :
    Steps r stale s b := by
  have ht := h.esc hst
  have hr : r.state = .esc := h.state.trans hst
  have hnn : s.completes b = none := by simp [Reading.completes, hst]
  have hs : r.step b = (r.stepEsc b, none) := by simp [Responder.step, hc, hr]
  refine ⟨?_, ?_, ?_⟩
  · have hstale : staleAfter stale s b = stale := by simp [staleAfter, hc, hnn, hst]
    have hn : s.next b = .introduce b := by simp [Reading.next, hc, hnn, hst]
    rw [hs, hstale, hn]
    refine holds_stepEsc ?_ ?_ b
    · rw [h.seq (by rw [hst]; decide), ht]
      rfl
    · rw [h.overflow, ht]
      exact Bool.or_false _
  · rw [hs, hnn, kept_none]
  · rw [hs]
    exact stepEsc_answers r b

theorem steps_csi (h : Holds r stale s) (hc : cancels b = false) (hst : s.state = .csi) :
    Steps r stale s b := by
  have hr : r.state = .csi := h.state.trans hst
  have hgrd : s.state ≠ .ground := by rw [hst]; decide
  by_cases hf : isFinal b = true
  · refine steps_completed (s.text ++ [b]) h hgrd ?_ rfl ?_
    · simp [Reading.completes, hst, hf]
    · simp [Responder.step, hc, hr, hf]
  · have hnn : s.completes b = none := by simp [Reading.completes, hst, hf]
    by_cases hb : b = escape
    · have hs : r.step b = ({ r.push b with
          state := .esc
          seq := [escape] }, none) := by
        simp [Responder.step, not_cancels_escape, not_final_escape, hr, hb]
      have hstale : staleAfter stale s b = (stale || decide (maxSeq ≤ s.text.length)) := by
        subst hb
        simp [staleAfter, hc, hnn, hst]
      have hn : s.next b = ⟨.esc, [escape]⟩ := by
        subst hb
        simp [Reading.next, hc, hnn, hst]
      refine ⟨?_, ?_, ?_⟩
      · rw [hs, hn, hstale]
        refine ⟨rfl, ?_, fun _ => by simp [maxSeq], (fun hg => by cases hg), fun _ => rfl⟩
        change (r.push b).overflow = _
        have hl : decide (maxSeq < (s.text ++ [b]).length) = decide (maxSeq ≤ s.text.length) := by
          rw [decide_eq_decide, length_append, length_singleton]
          omega
        rw [(push_seq h hgrd b).2, hl]
        exact (Bool.or_false _).symm
      · rw [hs, hnn, kept_none]
      · rw [hs]
        exact (push_keeps r b).1
    · have hs : r.step b = (r.push b, none) := by simp [Responder.step, hc, hr, hf, hb]
      have hn : s.next b = { s with text := s.text ++ [b] } := by simp [Reading.next, hc, hnn, hst, hb]
      have hstale : staleAfter stale s b = stale := by simp [staleAfter, hc, hnn, hst, hb]
      refine ⟨?_, ?_, ?_⟩
      · rw [hs, hn, hstale]
        exact holds_push h hgrd (by rw [hst]; decide)
      · rw [hs, hnn, kept_none]
      · rw [hs]
        exact (push_keeps r b).1

theorem steps_str {belEnds : Bool} (h : Holds r stale s) (hc : cancels b = false)
    (hst : s.state = .str belEnds) : Steps r stale s b := by
  have hr : r.state = .str belEnds := h.state.trans hst
  have hgrd : s.state ≠ .ground := by rw [hst]; exact fun hg => by cases hg
  have he : s.state ≠ .esc := by rw [hst]; exact fun hg => by cases hg
  by_cases hbl : b = bell ∧ belEnds = true
  · refine steps_completed (s.text ++ [b]) h hgrd ?_ rfl ?_
    · simp [Reading.completes, hst, hbl]
    · have hp : cancels bell = false := rfl
      simp [Responder.step, hr, hbl, hp]
  · have hnn : s.completes b = none := by simp [Reading.completes, hst, hbl]
    have hstale : staleAfter stale s b = stale := by simp [staleAfter, hc, hnn, hst]
    have hh := holds_push (b := b) h hgrd he
    by_cases hb : b = escape
    · have hs : r.step b = ({ r.push b with state := .strEsc }, none) := by
        have hrn : ¬ (escape = bell ∧ belEnds = true) := by rw [hb] at hbl; exact hbl
        simp [Responder.step, hr, hrn, hb, not_cancels_escape]
      have hn : s.next b = ⟨.strEsc, s.text ++ [b]⟩ := by
        subst hb
        simp [Reading.next, hc, hnn, hst]
      refine ⟨?_, ?_, ?_⟩
      · rw [hs, hn, hstale]
        exact ⟨rfl, hh.overflow, fun _ => hh.seq hgrd, (fun hg => by cases hg), fun hg => by cases hg⟩
      · rw [hs, hnn, kept_none]
      · rw [hs]
        exact (push_keeps r b).1
    · have hs : r.step b = (r.push b, none) := by simp [Responder.step, hc, hr, hbl, hb]
      have hn : s.next b = { s with text := s.text ++ [b] } := by simp [Reading.next, hc, hnn, hst, hb]
      refine ⟨?_, ?_, ?_⟩
      · rw [hs, hn, hstale]
        exact hh
      · rw [hs, hnn, kept_none]
      · rw [hs]
        exact (push_keeps r b).1

theorem steps_strEsc (h : Holds r stale s) (hc : cancels b = false) (hst : s.state = .strEsc) :
    Steps r stale s b := by
  have hr : r.state = .strEsc := h.state.trans hst
  have hg : s.state ≠ .ground := by rw [hst]; decide
  by_cases he : b = byte '\\'
  · refine steps_completed (s.text ++ [b]) h hg ?_ rfl ?_
    · simp [Reading.completes, hst, he]
    · have hs : cancels (byte '\\') = false := rfl
      simp [Responder.step, hr, he, hs]
  · have hnn : s.completes b = none := by simp [Reading.completes, hst, he]
    have hstep : r.step b = (Responder.stepEsc { r with
        state := .esc
        seq := [escape]
        overflow := false } b, none) := by
      simp [Responder.step, hc, hr, he]
    have hn : s.next b = .introduce b := by simp [Reading.next, hc, hnn, hst]
    have hstale : staleAfter stale s b = false := by simp [staleAfter, hst]
    refine ⟨?_, ?_, ?_⟩
    · rw [hstep, hn, hstale]
      exact holds_stepEsc rfl rfl b
    · rw [hstep, hnn, kept_none]
    · rw [hstep]
      exact stepEsc_answers _ b

theorem steps (h : Holds r stale s) (b : UInt8) : Steps r stale s b := by
  cases hc : cancels b with
  | true => exact steps_canceled r stale s hc (completes_canceled hc s)
  | false =>
    cases hst : s.state with
    | ground => exact steps_ground h hc hst
    | esc => exact steps_esc h hc hst
    | csi => exact steps_csi h hc hst
    | str belEnds => exact steps_str h hc hst
    | strEsc => exact steps_strEsc h hc hst

end Simulation

section Replies

variable {answers : List Answer} {live : Live}

def given (answers : List Answer) (live : Live) : Bool → Reading → List UInt8 → List (String × List UInt8)
  | _, _, [] => []
  | stale, s, b :: bytes => ((kept stale (s.completes b)).bind (answer answers live)).toList ++
      given answers live (staleAfter stale s b) (s.next b) bytes

theorem scan_eq_given {r : Responder} {stale : Bool} {s : Reading} (h : Holds r stale s) (bytes : List UInt8) :
    (scan live r bytes).2 = given r.answers live stale s bytes := by
  induction bytes generalizing r stale s with
  | nil => rfl
  | cons b bytes ih =>
    obtain ⟨hhd, hs, hans⟩ := steps h b
    have hr := ih hhd
    rw [hans] at hr
    rw [scan, given]
    dsimp only
    rw [hs, hr]

variable (answers live) in
theorem given_length_le (bytes : List UInt8) (stale : Bool) (s : Reading) :
    (given answers live stale s bytes).length ≤ (expected answers live s bytes).length := by
  induction bytes generalizing stale s with
  | nil => exact Nat.le_refl _
  | cons b bytes ih =>
    have hrest := ih (staleAfter stale s b) (s.next b)
    rw [given, expected, length_append, length_append]
    cases stale with
    | true =>
      rw [kept, if_pos rfl]
      exact Nat.le_trans (by simpa using hrest) (Nat.le_add_left _ _)
    | false => exact Nat.add_le_add_left hrest _

theorem given_eq_iff (bytes : List UInt8) (stale : Bool) (s : Reading) :
    given answers live stale s bytes = expected answers live s bytes ↔ ¬ Loses answers live stale s bytes := by
  induction bytes generalizing stale s with
  | nil => exact ⟨fun _ h => h, fun _ => rfl⟩
  | cons b bytes ih =>
    have hr := ih (staleAfter stale s b) (s.next b)
    rw [given, expected, Loses, not_or]
    cases stale with
    | false =>
      rw [kept, if_neg (by decide), List.append_cancel_left_eq, hr]
      exact ⟨fun h => ⟨fun hstale => absurd hstale.1 (by decide), h⟩, fun h => h.2⟩
    | true =>
      rw [kept, if_pos rfl]
      have hle := given_length_le answers live bytes (staleAfter true s b) (s.next b)
      cases hh : ((s.completes b).filter fun seq => decide (seq.length ≤ maxSeq)).bind (answer answers live) with
      | none =>
        refine ⟨fun h => ⟨?_, hr.mp h⟩, fun h => hr.mpr h.2⟩
        rintro ⟨-, seq, hs, hl, hans⟩
        rw [hs, Option.filter_some, if_pos (by simpa using hl)] at hh
        change answer answers live seq = none at hh
        rw [hh] at hans
        cases hans
      | some reply =>
        constructor
        · intro h
          have hl := congrArg List.length h
          simp only [Option.bind_none, Option.toList_none, Option.toList_some, List.nil_append,
            length_append, length_singleton] at hl
          omega
        · rintro ⟨hls, -⟩
          obtain ⟨seq, hs, hans⟩ := Option.bind_eq_some_iff.mp hh
          obtain ⟨hc, hsh⟩ := Option.filter_eq_some_iff.mp hs
          exact absurd ⟨rfl, seq, hc, of_decide_eq_true hsh, by rw [hans]; rfl⟩ hls

end Replies

section Occurrences

def breaks (b : UInt8) : Bool := cancels b || b == escape

inductive Complete : List UInt8 → Prop
  | csi (body : List UInt8) (final : UInt8) (plain : ∀ b ∈ body, breaks b = false ∧ isFinal b = false)
      (last : isFinal final = true) : Complete ([escape, byte '['] ++ body ++ [final])
  | bell (body : List UInt8) (plain : ∀ b ∈ body, breaks b = false ∧ b ≠ HumanInput.bell) :
      Complete ([escape, byte ']'] ++ body ++ [HumanInput.bell])
  | st (intro : UInt8) (belEnds : Bool) (start : Responder.introduced intro = .str belEnds) (body : List UInt8)
      (plain : ∀ b ∈ body, breaks b = false ∧ ¬ (b = HumanInput.bell ∧ belEnds = true)) :
      Complete ([escape, intro] ++ body ++ [escape, byte '\\'])

def reading (bytes : List UInt8) : Reading := bytes.foldl Reading.next {}

variable {s : Reading} {b : UInt8}

def Plain (state : State) (b : UInt8) : Prop :=
  breaks b = false ∧
    match state with
    | .csi => isFinal b = false
    | .str belEnds => ¬ (b = HumanInput.bell ∧ belEnds = true)
    | _ => False

def Front (s : Reading) : Prop :=
  match s.state with
  | .ground => s.text = []
  | .esc => s.text = [escape]
  | .strEsc => ∃ intro belEnds body, Responder.introduced intro = .str belEnds ∧
      s.text = [escape, intro] ++ body ++ [escape] ∧ ∀ b ∈ body, Plain (.str belEnds) b
  | state => ∃ intro body, Responder.introduced intro = state ∧ s.text = [escape, intro] ++ body ∧
      ∀ b ∈ body, Plain state b

theorem breaks_eq_false (hc : cancels b = false) (hb : b ≠ escape) : breaks b = false := by
  simp [breaks, hc, hb]

theorem front_introduce (b : UInt8) : Front (.introduce b) := by
  rcases introduced_cases b with hb | ⟨hb, he⟩ | ⟨hb, rfl⟩ | ⟨belEnds, hb, hi⟩
  · rw [introduce_ground hb]
    exact rfl
  · rw [he]
    exact rfl
  · exact ⟨byte '[', [], rfl, rfl, fun _ h => by cases h⟩
  · rw [introduce_of_ne (by rw [hb]; exact fun h => by cases h), hb]
    have hne : b ≠ escape := by rcases hi with rfl | rfl | rfl <;> decide
    exact ⟨b, [], hb, if_neg hne, fun _ h => by cases h⟩

theorem forall_mem_snoc {p : UInt8 → Prop} {body : List UInt8} (h : ∀ x ∈ body, p x) (hb : p b) :
    ∀ x ∈ body ++ [b], p x := by
  intro x hx
  rcases List.mem_append.mp hx with hx | hx
  · exact h x hx
  · rw [List.mem_singleton.mp hx]
    exact hb

theorem front_next (h : Front s) (b : UInt8) : Front (s.next b) := by
  unfold Reading.next
  split
  · exact rfl
  next hop =>
    obtain ⟨hc, hn⟩ := not_or.mp hop
    have hc : cancels b = false := Bool.not_eq_true _ ▸ hc
    obtain ⟨state, text⟩ := s
    cases state with
    | ground =>
      dsimp only
      split <;> exact rfl
    | esc => exact front_introduce b
    | strEsc => exact front_introduce b
    | csi =>
      obtain ⟨intro, body, hi, ht, hp⟩ := h
      dsimp only
      by_cases hb : b = escape
      · rw [if_pos hb]
        exact rfl
      · have hf : isFinal b = false := by
          cases hf : isFinal b with
          | false => rfl
          | true => exact absurd (by simp [Reading.completes, hf]) hn
        rw [if_neg hb]
        refine ⟨intro, body ++ [b], hi, ?_, forall_mem_snoc hp ⟨breaks_eq_false hc hb, hf⟩⟩
        change text ++ [b] = _
        rw [show text = [escape, intro] ++ body from ht, append_assoc]
    | str belEnds =>
      obtain ⟨intro, body, hi, ht, hp⟩ := h
      have ht : text = [escape, intro] ++ body := ht
      dsimp only
      by_cases hb : b = escape
      · rw [if_pos hb, ht, hb]
        exact ⟨intro, belEnds, body, hi, rfl, hp⟩
      · have hbl : ¬ (b = HumanInput.bell ∧ belEnds = true) := fun hbl =>
          hn (by simp [Reading.completes, hbl])
        rw [if_neg hb, ht, append_assoc]
        exact ⟨intro, body ++ [b], hi, rfl, forall_mem_snoc hp ⟨breaks_eq_false hc hb, hbl⟩⟩

theorem introduce_suffix (s : Reading) (h : s.state = .esc ∨ s.state = .strEsc) (hs : Front s) (b : UInt8) :
    (Reading.introduce b).text <:+ s.text ++ [b] := by
  have he : [escape] <:+ s.text := by
    obtain ⟨state, text⟩ := s
    rcases h with rfl | rfl
    · have ht : text = [escape] := hs
      subst ht
      exact suffix_refl _
    · obtain ⟨intro, belEnds, body, -, ht, -⟩ := hs
      rw [show text = _ from ht]
      exact suffix_append _ _
  by_cases hg : Responder.introduced b = .ground
  · rw [introduce_ground hg]
    exact List.nil_suffix
  · rw [introduce_of_ne hg]
    dsimp only
    split
    next hb =>
      rw [hb]
      exact suffix_append _ _
    next => exact List.suffix_append_inj_of_length_eq rfl |>.mpr ⟨he, rfl⟩

theorem next_suffix (hs : Front s) (b : UInt8) : (s.next b).text <:+ s.text ++ [b] := by
  have hn : (Reading.ended).text <:+ s.text ++ [b] := List.nil_suffix
  unfold Reading.next
  split
  · exact hn
  next =>
    cases hst : s.state with
    | ground =>
      dsimp only
      split
      next hb =>
        rw [hb]
        exact suffix_append _ _
      next => exact hn
    | esc => exact introduce_suffix s (Or.inl hst) hs b
    | strEsc => exact introduce_suffix s (Or.inr hst) hs b
    | csi =>
      dsimp only
      split
      next hb =>
        rw [hb]
        exact suffix_append _ _
      next => exact suffix_refl _
    | str belEnds => exact suffix_refl _

theorem readings (bytes : List UInt8) (before : List UInt8) (hs : Front s) (hsf : s.text <:+ before) :
    Front (bytes.foldl Reading.next s) ∧ (bytes.foldl Reading.next s).text <:+ before ++ bytes := by
  induction bytes generalizing s before with
  | nil => exact ⟨hs, by rw [List.append_nil]; exact hsf⟩
  | cons b bytes ih =>
    have hn : (s.next b).text <:+ before ++ [b] :=
      (next_suffix hs b).trans ((List.suffix_append_inj_of_length_eq rfl).mpr ⟨hsf, rfl⟩)
    rw [foldl_cons, show before ++ b :: bytes = (before ++ [b]) ++ bytes from by simp]
    exact ih (before ++ [b]) (front_next hs b) hn

theorem complete_of_completes {t : List UInt8} (hs : Front s) (h : s.completes b = some t) :
    t = s.text ++ [b] ∧ Complete t := by
  obtain ⟨state, text⟩ := s
  cases state with
  | ground | esc => cases h
  | csi =>
    obtain ⟨intro, body, hin, htx, hp⟩ := hs
    have htx : text = [escape, intro] ++ body := htx
    have hbr : intro = byte '[' := by
      rcases introduced_cases intro with hi | ⟨hi, -⟩ | ⟨-, hi⟩ | ⟨belEnds, hi, -⟩
      · cases hi.symm.trans hin
      · cases hi.symm.trans hin
      · exact hi
      · cases hi.symm.trans hin
    by_cases hf : isFinal b = true
    · have ht : t = text ++ [b] := by simpa [Reading.completes, hf] using h.symm
      refine ⟨ht, ?_⟩
      rw [ht, htx, hbr]
      exact Complete.csi body b hp hf
    · simp [Reading.completes, hf] at h
  | str belEnds =>
    obtain ⟨intro, body, hin, htx, hp⟩ := hs
    have htx : text = [escape, intro] ++ body := htx
    by_cases hbl : b = HumanInput.bell ∧ belEnds = true
    · have ht : t = text ++ [b] := by simpa [Reading.completes, hbl] using h.symm
      refine ⟨ht, ?_⟩
      obtain ⟨rfl, rfl⟩ := hbl
      have hbr : intro = byte ']' := by
        rcases introduced_cases intro with hi | ⟨hi, -⟩ | ⟨hi, -⟩ | ⟨-, -, rfl | rfl | rfl⟩
        · cases hi.symm.trans hin
        · cases hi.symm.trans hin
        · cases hi.symm.trans hin
        · rfl
        · cases hin
        · cases hin
      rw [ht, show text = _ from htx, hbr]
      exact Complete.bell body fun x hx => ⟨(hp x hx).1, fun hb => (hp x hx).2 ⟨hb, rfl⟩⟩
    · simp [Reading.completes, hbl] at h
  | strEsc =>
    obtain ⟨intro, belEnds, body, hin, htx, hp⟩ := hs
    have htx : text = [escape, intro] ++ body ++ [escape] := htx
    by_cases he : b = byte '\\'
    · have ht : t = text ++ [b] := by simpa [Reading.completes, he] using h.symm
      refine ⟨ht, ?_⟩
      rw [ht, htx, he, append_assoc]
      exact Complete.st intro belEnds hin body hp
    · simp [Reading.completes, he] at h

variable {state : State}

theorem opens (s : Reading) {intro : UInt8} (hst : Responder.introduced intro = state)
    (hop : state = .csi ∨ ∃ belEnds, state = .str belEnds) :
    (s.next escape).next intro = ⟨state, [escape, intro]⟩ := by
  have hin : intro = byte '[' ∨ intro = byte ']' ∨ intro = byte '_' ∨ intro = byte 'P' := by
    rcases introduced_cases intro with hi | ⟨hi, -⟩ | ⟨-, hi⟩ | ⟨belEnds, -, hi⟩
    · rcases hop with rfl | ⟨belEnds, rfl⟩ <;> cases hi.symm.trans hst
    · rcases hop with rfl | ⟨belEnds, rfl⟩ <;> cases hi.symm.trans hst
    · exact Or.inl hi
    · exact Or.inr hi
  obtain ⟨current, text⟩ := s
  subst hst
  cases current with
  | ground | esc | csi | strEsc => rcases hin with rfl | rfl | rfl | rfl <;> rfl
  | str belEnds => cases belEnds <;> rcases hin with rfl | rfl | rfl | rfl <;> rfl

theorem stays (text : List UInt8) (hb : Plain state b) :
    Reading.next ⟨state, text⟩ b = ⟨state, text ++ [b]⟩ := by
  obtain ⟨hbr, hst⟩ := hb
  obtain ⟨hc, hne⟩ : cancels b = false ∧ b ≠ escape := by simpa [breaks] using hbr
  cases state with
  | ground | esc | strEsc => exact False.elim hst
  | csi => simp [Reading.next, Reading.completes, hc, show isFinal b = false from hst, hne]
  | str belEnds => simp [Reading.next, Reading.completes, hc, show ¬ _ from hst, hne]

theorem stays_all (body text : List UInt8) (hbd : ∀ b ∈ body, Plain state b) :
    body.foldl Reading.next ⟨state, text⟩ = ⟨state, text ++ body⟩ := by
  induction body generalizing text with
  | nil => rw [List.append_nil]; rfl
  | cons b body ih =>
    obtain ⟨hb, hr⟩ := List.forall_mem_cons.mp hbd
    rw [foldl_cons, stays text hb, ih _ hr, append_assoc]
    rfl

theorem reads {intro : UInt8} (before body : List UInt8)
    (hst : Responder.introduced intro = state) (hop : state = .csi ∨ ∃ belEnds, state = .str belEnds)
    (hbd : ∀ b ∈ body, Plain state b) :
    reading (before ++ ([escape, intro] ++ body)) = ⟨state, [escape, intro] ++ body⟩ := by
  rw [reading, foldl_append, foldl_append, foldl_cons, foldl_cons, List.foldl_nil,
    opens _ hst hop, stays_all body _ hbd]

theorem read_csi (before body : List UInt8) (hbd : ∀ b ∈ body, Plain .csi b) :
    reading (before ++ ([escape, byte '['] ++ body)) = ⟨.csi, [escape, byte '['] ++ body⟩ :=
  reads before body rfl (Or.inl rfl) hbd

theorem read_osc (before body : List UInt8) (hbd : ∀ b ∈ body, Plain (.str true) b) :
    reading (before ++ ([escape, byte ']'] ++ body)) = ⟨.str true, [escape, byte ']'] ++ body⟩ :=
  reads before body rfl (Or.inr ⟨true, rfl⟩) hbd

theorem snoc_inj {p q : List UInt8} {b c : UInt8} (h : p ++ [b] = q ++ [c]) : p = q ∧ b = c := by
  obtain ⟨hp, hb⟩ := List.append_inj' h rfl
  exact ⟨hp, (List.cons.inj hb).1⟩

/-- A byte completes a sequence exactly where one of the grammar ends: no other sequence around it can hide it, since
its ESC ends that one. -/
theorem completes_iff (bytes : List UInt8) (b : UInt8) (t : List UInt8) :
    (reading bytes).completes b = some t ↔ Complete t ∧ t <:+ bytes ++ [b] := by
  constructor
  · intro h
    obtain ⟨hf, hs⟩ := readings (s := {}) bytes [] rfl (suffix_refl _)
    obtain ⟨ht, hc⟩ := complete_of_completes hf h
    refine ⟨hc, ?_⟩
    rw [ht]
    exact (List.suffix_append_inj_of_length_eq rfl).mpr ⟨hs, rfl⟩
  · rintro ⟨hc, before, hbef⟩
    cases hc with
    | csi body final plain last =>
      obtain ⟨rfl, rfl⟩ := snoc_inj (hbef.symm.trans (append_assoc _ _ _).symm)
      rw [read_csi before body plain]
      exact if_pos last
    | bell body plain =>
      obtain ⟨rfl, rfl⟩ := snoc_inj (hbef.symm.trans (append_assoc _ _ _).symm)
      rw [read_osc before body fun x hx => ⟨(plain x hx).1, fun hb => (plain x hx).2 hb.1⟩]
      rfl
    | st intro belEnds start body plain =>
      have hsp : before ++ ([escape, intro] ++ body ++ [escape, byte '\\']) =
          (before ++ ([escape, intro] ++ body) ++ [escape]) ++ [byte '\\'] := by
        simp only [append_assoc, List.cons_append, List.nil_append]
      obtain ⟨rfl, rfl⟩ := snoc_inj (hbef.symm.trans hsp)
      have hr : reading (before ++ ([escape, intro] ++ body) ++ [escape]) =
          ⟨.strEsc, [escape, intro] ++ body ++ [escape]⟩ := by
        rw [reading, foldl_append]
        change Reading.next (reading _) escape = _
        rw [reads before body start (Or.inr ⟨belEnds, rfl⟩) plain]
        cases belEnds <;> rfl
      rw [hr]
      change some (_ ++ [byte '\\']) = _
      rw [append_assoc]
      rfl

/-- `staleAfter` over all the bytes read. -/
def staleBehind : Bool → Reading → List UInt8 → Bool
  | stale, _, [] => stale
  | stale, s, b :: bytes => staleBehind (staleAfter stale s b) (s.next b) bytes

theorem holds_scan {r : Responder} {stale : Bool} (live : Live) (bytes : List UInt8) (h : Holds r stale s) :
    Holds (scan live r bytes).1 (staleBehind stale s bytes) (bytes.foldl Reading.next s) := by
  induction bytes generalizing r stale s with
  | nil => exact h
  | cons b bytes ih => exact ih (steps h b).holds

/-- The responder takes up exactly the sequences of the grammar within the size limit, except behind a cut-off CSI
sequence of full size. -/
theorem taken_iff (answers : List Answer) (live : Live) (bytes : List UInt8) (b : UInt8) (t : List UInt8) :
    ((scan live ⟨answers, .ground, [], false⟩ bytes).1.step b).2 = some t ↔
      staleBehind false {} bytes = false ∧ Complete t ∧ t <:+ bytes ++ [b] ∧ t.length ≤ maxSeq := by
  have hs : Holds ⟨answers, .ground, [], false⟩ false {} :=
    ⟨rfl, rfl, fun h => absurd rfl h, fun _ => rfl, fun h => by cases h⟩
  rw [(steps (holds_scan live bytes hs) b).seq, ← and_assoc (a := Complete t), ← completes_iff, reading]
  cases staleBehind false {} bytes <;> simp [kept, Option.filter_eq_some_iff]

end Occurrences

/-- However a stream is cut into chunks, the replies are those of the whole stream, and they are the expected ones
unless a recorded query is lost behind a cut-off CSI sequence of full size. -/
theorem replies_expected (answers : List Answer) (live : Live) (chunks : List (List UInt8)) :
    scanChunks live ⟨answers, .ground, [], false⟩ chunks = (scan live ⟨answers, .ground, [], false⟩ chunks.flatten).2 ∧
    ((scan live ⟨answers, .ground, [], false⟩ chunks.flatten).2 = expected answers live {} chunks.flatten ↔
      ¬ Loses answers live false {} chunks.flatten) := by
  have hs : Holds ⟨answers, .ground, [], false⟩ false {} :=
    ⟨rfl, rfl, fun h => absurd rfl h, fun _ => rfl, fun h => by cases h⟩
  refine ⟨scanChunks_eq chunks, ?_⟩
  rw [scan_eq_given hs]
  exact given_eq_iff _ false {}

def cutOff : List UInt8 :=
  [escape, byte '['] ++ List.replicate 510 (byte '0') ++ [escape, byte '[', byte 'c']

def attributes : Answer := ⟨"DA1", [escape, byte '[', byte 'c'], [escape, byte '[', byte '?', byte '6', byte 'c'], none⟩

theorem attributes_unanswered :
    (scan ⟨0, none⟩ ⟨[attributes], .ground, [], false⟩ cutOff).2 = [] ∧
    expected [attributes] ⟨0, none⟩ {} cutOff = [(attributes.name, attributes.reply)] := by
  decide +kernel

end HrcRuntime.ResponderReplies
