import HrcRuntime.StreamAccount

namespace HrcRuntime.BoundedEventStream

open Spans
open List (map_cons mem_cons_self mem_map_of_mem mem_cons)

variable {encode : Record → Nat}

/-- `createBoundedReplayCollector`; the array of retained records is listed oldest first. -/
structure Collector (encode : Record → Nat) where
  ledgerIncarnationId : String
  afterHrcSeq : Nat
  limits : Limits
  retained : List (EncodedRecord encode) := []
  bytes : Nat := 0
  stoppedAtHrcSeq : Option Nat := none

namespace Collector

def visitNewestFirst (c : Collector encode) (event : LifecycleEvent) : Collector encode × Bool :=
  let encoded := eventOrOversizeGap c.ledgerIncarnationId event c.limits.maxBytes
  if c.limits.maxRecords < c.retained.length + 1 ∨ c.limits.maxBytes < c.bytes + encoded.byteLength then
    ({ c with stoppedAtHrcSeq := some event.hrcSeq }, false)
  else ({ c with retained := encoded :: c.retained, bytes := c.bytes + encoded.byteLength }, true)

/-- `scanReplayNewestFirst`: whether every event was visited. -/
def scan (c : Collector encode) : List LifecycleEvent → Collector encode × Bool
  | [] => (c, true)
  | event :: events =>
    let visited := c.visitNewestFirst event
    if visited.2 then visited.1.scan events else (visited.1, false)

def replayGap (c : Collector encode) (beforeHrcSeq : Nat) : EncodedRecord encode :=
  encodeBoundedEventRecord (.gap c.ledgerIncarnationId .replayWindow c.afterHrcSeq beforeHrcSeq none)

/-- The loop of `finish`: the oldest records make room for the gap. -/
def trim (c : Collector encode) : List (EncodedRecord encode) → Nat → Nat → List (EncodedRecord encode)
  | [], _, beforeHrcSeq => [c.replayGap beforeHrcSeq]
  | removed :: rest, bytes, beforeHrcSeq =>
    let gap := c.replayGap beforeHrcSeq
    if c.limits.maxRecords < (removed :: rest).length + 1 ∨ c.limits.maxBytes < bytes + gap.byteLength then
      c.trim rest (bytes - removed.byteLength) (max beforeHrcSeq ((positionOf removed.record).getD beforeHrcSeq))
    else gap :: removed :: rest

def oldestRetainedPosition (c : Collector encode) : Option Nat := c.retained.head?.bind fun r => positionOf r.record

def finish (c : Collector encode) (complete : Bool) : List (EncodedRecord encode) :=
  if complete then c.retained
  else c.trim c.retained c.bytes ((c.oldestRetainedPosition.map (· - 1)).getD (c.stoppedAtHrcSeq.getD c.afterHrcSeq))

end Collector

/-- `handleBoundedEvents`: the replay records are appended to a fresh queue. -/
def loadReplay (ledgerIncarnationId : String) (afterHrcSeq : Nat) (limits : Limits)
    (replayRecords : List (EncodedRecord encode)) : Except String (Queue encode) :=
  replayRecords.foldlM Queue.appendEncoded (.empty ledgerIncarnationId afterHrcSeq limits)

/-- `BoundedEventStreamDelivery`, with what it has handed to its reader. -/
structure Delivery (encode : Record → Nat) where
  ready : Option (EncodedRecord encode)
  terminal : Option (EncodedRecord encode) := none
  queue : Queue encode
  closed : Bool := false
  handed : List Record := []

namespace Delivery

def appendEvent (d : Delivery encode) (event : LifecycleEvent) : Delivery encode :=
  if d.closed || d.terminal.isSome then d
  else { d with queue := (d.queue.appendEvent event).toOption.getD d.queue }

/-- `deliverOneFromPull`; a keepalive is no record. -/
def pull (d : Delivery encode) : Delivery encode :=
  if d.closed then d
  else match d.ready with
    | some ready => { d with ready := none, handed := d.handed ++ [ready.record] }
    | none => match d.queue.take with
      | some (entry, queue) => { d with queue, handed := d.handed ++ [entry.record] }
      | none => match d.terminal with
        | some terminal => { d with terminal := none, closed := true, handed := d.handed ++ [terminal.record] }
        | none => d

/-- `handleBoundedEvents` up to the reader: the replay behind its ready record. -/
def start (ledgerIncarnationId : String) (afterHrcSeq : Nat) (limits : Limits) (replayHeadHrcSeq : Nat)
    (replayed : List LifecycleEvent) : Except String (Delivery encode) :=
  let c : Collector encode := { ledgerIncarnationId, afterHrcSeq, limits }
  let scanned := c.scan replayed.reverse
  (loadReplay ledgerIncarnationId afterHrcSeq limits (scanned.1.finish scanned.2)).map fun queue =>
    { ready := some (encodeBoundedEventRecord (.ready ledgerIncarnationId afterHrcSeq replayHeadHrcSeq)), queue }

end Delivery

section Scan

variable {c : Collector encode} {events : List LifecycleEvent}

def Collector.incoming (c : Collector encode) (event : LifecycleEvent) : EncodedRecord encode :=
  eventOrOversizeGap c.ledgerIncarnationId event c.limits.maxBytes

/-- What a scan leaves: a newest part is retained within the limits, and the next event, if there is one,
stopped it. -/
structure Scanned (c c' : Collector encode) (events : List LifecycleEvent) (complete : Bool) : Prop where
  base : c'.ledgerIncarnationId = c.ledgerIncarnationId ∧ c'.afterHrcSeq = c.afterHrcSeq ∧ c'.limits = c.limits
  parts : ∃ kept missed, events = kept ++ missed ∧ c'.retained = (kept.map c.incoming).reverse ++ c.retained ∧
    (complete = true ↔ missed = []) ∧ ∀ e ∈ missed.head?, c'.stoppedAtHrcSeq = some e.hrcSeq
  size : c'.bytes = totalBytes c'.retained
  records : c'.retained.length ≤ c.limits.maxRecords
  bytes : c'.bytes ≤ c.limits.maxBytes

theorem scanned (events : List LifecycleEvent) (hsz : c.bytes = totalBytes c.retained) (hr : c.retained.length ≤ c.limits.maxRecords)
    (hbyt : c.bytes ≤ c.limits.maxBytes) : Scanned c (c.scan events).1 events (c.scan events).2 := by
  induction events generalizing c with
  | nil => exact ⟨⟨rfl, rfl, rfl⟩, ⟨[], [], rfl, rfl, ⟨fun _ => rfl, fun _ => rfl⟩, by simp⟩, hsz, hr, hbyt⟩
  | cons event events ih =>
    by_cases hf : c.limits.maxRecords < c.retained.length + 1 ∨
        c.limits.maxBytes < c.bytes + (c.incoming event).byteLength
    · have hv : c.visitNewestFirst event = ({ c with stoppedAtHrcSeq := some event.hrcSeq }, false) := if_pos hf
      have hs : c.scan (event :: events) = ({ c with stoppedAtHrcSeq := some event.hrcSeq }, false) := by
        simp only [Collector.scan, hv, Bool.false_eq_true, if_false]
      rw [hs]
      refine ⟨⟨rfl, rfl, rfl⟩, ⟨[], event :: events, rfl, rfl, by simp, fun e he => ?_⟩, hsz, hr, hbyt⟩
      cases he
      rfl
    · have hv : c.visitNewestFirst event =
          ({ c with retained := c.incoming event :: c.retained, bytes := c.bytes + (c.incoming event).byteLength },
            true) := if_neg hf
      have hs : c.scan (event :: events) = Collector.scan { c with
          retained := c.incoming event :: c.retained
          bytes := c.bytes + (c.incoming event).byteLength } events := by
        simp only [Collector.scan, hv, if_true]
      rw [hs]
      have hrs := ih (c := { c with
          retained := c.incoming event :: c.retained, bytes := c.bytes + (c.incoming event).byteLength })
        (by simp only [totalBytes]; omega) (by simp only [List.length_cons]; omega) (by simp only; omega)
      obtain ⟨hbs, ⟨kept, missed, hsp, hret, hc, hst⟩, hs', hrec', hb'⟩ := hrs
      refine ⟨hbs, ⟨event :: kept, missed, by rw [hsp]; rfl, ?_, hc, hst⟩, hs', hrec', hb'⟩
      rw [hret, map_cons, List.reverse_cons, List.append_assoc]
      rfl

end Scan

section Finish

variable {c : Collector encode} {top : Nat} {replayed : List LifecycleEvent}

theorem tiles_incoming (hg : HoldsGap encode c.ledgerIncarnationId c.limits top)
    (hasc : (seqs replayed).Pairwise (· < ·)) (htop : ∀ x ∈ seqs replayed, x ≤ top) {late : List LifecycleEvent} {p : Nat}
    (hlate : (seqs late).Pairwise (· < ·)) (hm : ∀ e ∈ late, e ∈ replayed) (hps : ∀ x ∈ seqs late, p < x)
    (hall : ∀ x ∈ seqs replayed, p < x → x ∈ seqs late) :
    Tiles lowerAt upperAt (seqs replayed) p (late.map c.incoming) ∧
      ∀ entry ∈ late.map c.incoming, Proper replayed entry.record := by
  induction late generalizing p with
  | nil => exact ⟨fun x hx => Nat.not_lt.mp fun h => (List.not_mem_nil (hall x hx h)).elim, by simp⟩
  | cons e late ih =>
    have he : e ∈ replayed := hm e mem_cons_self
    have hp : p < e.hrcSeq := hps _ mem_cons_self
    obtain ⟨hf, hr⟩ := List.pairwise_cons.mp hlate
    obtain ⟨-, hpr, hlo, hhi⟩ := incoming_sound hg hasc he (by omega) (htop _ (mem_map_of_mem he))
    have haft : ∀ x ∈ seqs replayed, e.hrcSeq < x → x ∈ seqs late := fun x hx hlt => by
      rcases mem_cons.mp (hall x hx (by omega)) with rfl | h
      · exact absurd hlt (Nat.lt_irrefl _)
      · exact h
    obtain ⟨ht, hpro⟩ := ih hr (fun a ha => hm a (List.mem_cons_of_mem _ ha)) hf haft
    have hlo' : lowerAt (c.incoming e) = e.hrcSeq - 1 := hlo
    have hhi' : upperAt (c.incoming e) = e.hrcSeq := hhi
    refine ⟨⟨by omega, by omega, fun x hx hlt => ?_, by rw [hhi']; exact ht⟩, ?_⟩
    · rcases mem_cons.mp (hall x hx hlt) with h | h
      · have hs : x = e.hrcSeq := h
        omega
      · have hl : e.hrcSeq < x := hf x h
        omega
    · intro entry hent
      rcases mem_cons.mp hent with rfl | hent
      · exact hpr
      · exact hpro entry hent

def Queue.holding (c : Collector encode) (entries : List (EncodedRecord encode)) : Queue encode :=
  ⟨c.ledgerIncarnationId, c.limits, entries, totalBytes entries, c.afterHrcSeq⟩

/-- Trimming ends with the gap for all that is missing and trimmed, within the limits. -/
theorem trim_sound (hg : HoldsGap encode c.ledgerIncarnationId c.limits top)
    (htop : ∀ x ∈ seqs replayed, x ≤ top) {entries : List (EncodedRecord encode)} {before : Nat}
    (hpr : ∀ entry ∈ entries, Proper replayed entry.record)
    (ht : Tiles lowerAt upperAt (seqs replayed) before entries) (haft : c.afterHrcSeq < before)
    (hbef : ∃ x ∈ seqs replayed, before ≤ x) :
    Sound replayed (Queue.holding c (c.trim entries (totalBytes entries) before)) := by
  have hf {before : Nat} (haft : c.afterHrcSeq < before) (hbef : ∃ x ∈ seqs replayed, before ≤ x) :
      (c.replayGap before).byteLength ≤ c.limits.maxBytes := by
    obtain ⟨x, hx, hle⟩ := hbef
    have := htop x hx
    exact hg.2 _ _ _ _ (by omega) (by omega) (by simp)
  induction entries generalizing before with
  | nil =>
    refine ⟨rfl, hg.1, ?_, ?_, ?_⟩
    · simp only [Queue.holding, Collector.trim, totalBytes, Nat.add_zero]
      exact hf haft hbef
    · intro entry he
      rw [List.mem_singleton.mp he]
      exact ⟨hbef, fun n hn => by cases hn⟩
    · exact ⟨le_rfl, haft, fun x _ hx => hx, ht⟩
  | cons removed rest ih =>
    have hr := hpr removed mem_cons_self
    have hup := upper_shift ht hr
    simp only [Collector.trim]
    split
    · rw [hup]
      obtain ⟨hp, hlt, -, hrs⟩ := ht
      have hbyt : totalBytes (removed :: rest) - removed.byteLength = totalBytes rest := by
        simp only [totalBytes, Nat.add_sub_cancel_left]
      rw [hbyt]
      exact ih (fun entry he => hpr entry (List.mem_cons_of_mem _ he)) hrs (by omega) hr.upper_le
    · rename_i hrm
      obtain ⟨hrec, hbyt⟩ := not_or.mp hrm
      refine ⟨rfl, ?_, ?_, ?_, ?_⟩
      · exact Nat.not_lt.mp hrec
      · simp only [Queue.holding, totalBytes] at hbyt ⊢
        omega
      · intro entry he
        rcases mem_cons.mp he with rfl | he
        · exact ⟨hbef, fun n hn => by cases hn⟩
        · exact hpr entry he
      · exact ⟨le_rfl, haft, fun x _ hx => hx, ht⟩

/-- The replay of ascending events past the starting position accounts for all of them. -/
theorem finish_sound (hg : HoldsGap encode c.ledgerIncarnationId c.limits top) (hfr : c.retained = [] ∧ c.bytes = 0)
    (hasc : (seqs replayed).Pairwise (· < ·)) (htop : ∀ x ∈ seqs replayed, x ≤ top)
    (hps : ∀ x ∈ seqs replayed, c.afterHrcSeq < x) :
    Sound replayed (Queue.holding c ((c.scan replayed.reverse).1.finish (c.scan replayed.reverse).2)) := by
  obtain ⟨⟨hled, hsta, hlim⟩, ⟨kept, missed, hsp, hret, hc, hstopp⟩, hsz, hr, hbyt⟩ :=
    scanned (c := c) replayed.reverse (by simp [hfr, totalBytes]) (by simp [hfr]) (by simp [hfr])
  generalize (c.scan replayed.reverse).1 = c', (c.scan replayed.reverse).2 = complete at *
  have hall : replayed = missed.reverse ++ kept.reverse := by
    rw [← List.reverse_append, ← hsp, List.reverse_reverse]
  have hen : c'.retained = kept.reverse.map c.incoming := by
    rw [hret, hfr.1, List.append_nil, List.map_reverse]
  have hsq : seqs replayed = seqs missed.reverse ++ seqs kept.reverse := by rw [hall, seqs, List.map_append]; rfl
  have hspl := List.pairwise_append.mp (hsq ▸ hasc)
  have hlate : ∀ e ∈ kept.reverse, e ∈ replayed := fun e he => by rw [hall]; exact List.mem_append_right _ he
  -- Whatever the gap ends before, the retained records tile the places past it.
  have htl (p : Nat) (hp : ∀ x ∈ seqs missed.reverse, x ≤ p) (hpk : ∀ x ∈ seqs kept.reverse, p < x) :=
    tiles_incoming hg hasc htop hspl.2.1 hlate hpk fun x hx hlt => by
      rcases List.mem_append.mp (hsq ▸ hx) with h | h
      · exact absurd (hp x h) (Nat.not_le.mpr hlt)
      · exact h
  cases complete with
  | true =>
    have hms : missed = [] := hc.mp rfl
    subst hms
    obtain ⟨ht, hpr⟩ := htl c.afterHrcSeq (by simp [seqs]) fun x hx => hps x (by rw [hsq]; simpa [seqs] using hx)
    have hf : c'.finish true = kept.reverse.map c.incoming := by rw [Collector.finish, if_pos rfl, hen]
    rw [hf]
    rw [hen] at hsz hr
    rw [hsz] at hbyt
    exact ⟨rfl, hr, hbyt, hpr, ht⟩
  | false =>
    obtain ⟨stop, rest, rfl⟩ : ∃ stop rest, missed = stop :: rest := by
      cases missed with
      | nil => exact absurd (hc.mpr rfl) (by simp)
      | cons stop rest => exact ⟨stop, rest, rfl⟩
    have hst : stop.hrcSeq ∈ seqs replayed := by
      rw [hsq]
      exact List.mem_append_left _ (mem_map_of_mem (by simp))
    have hl : ∀ x ∈ seqs (stop :: rest).reverse, x ≤ stop.hrcSeq := by
      have hsr := hspl.1
      simp only [seqs, List.reverse_cons, List.map_append, map_cons, List.map_nil] at hsr ⊢
      intro x hx
      rcases List.mem_append.mp hx with hx | hx
      · exact Nat.le_of_lt ((List.pairwise_append.mp hsr).2.2 x hx _ mem_cons_self)
      · exact Nat.le_of_eq (List.mem_singleton.mp hx)
    have hg' : HoldsGap encode c'.ledgerIncarnationId c'.limits top := by
      rw [hled, hlim]
      exact hg
    have hh (entries : List (EncodedRecord encode)) : Queue.holding c entries = Queue.holding c' entries := by
      simp only [Queue.holding, hled, hlim, hsta]
    have hbef : ∃ before, (c'.oldestRetainedPosition.map (· - 1)).getD (c'.stoppedAtHrcSeq.getD c'.afterHrcSeq) = before
        ∧ (∀ x ∈ seqs (stop :: rest).reverse, x ≤ before) ∧ (∀ x ∈ seqs kept.reverse, before < x) ∧
        stop.hrcSeq ≤ before ∧ ∃ x ∈ seqs replayed, before ≤ x := by
      cases hk : kept.reverse with
      | nil =>
        refine ⟨stop.hrcSeq, ?_, hl, by simp [seqs], le_rfl, stop.hrcSeq, hst, le_rfl⟩
        rw [Collector.oldestRetainedPosition, hen, hk, hstopp stop rfl]
        rfl
      | cons e late =>
        have he : e ∈ replayed := hlate e (by rw [hk]; exact mem_cons_self)
        have hpos := hps _ (mem_map_of_mem he)
        obtain ⟨-, hpr, -, hhi⟩ := incoming_sound hg hasc he (by omega) (htop _ (mem_map_of_mem he))
        have hhi' : upperOf (c.incoming e).record = e.hrcSeq := hhi
        have hp' : Proper replayed (c.incoming e).record := hpr
        have hlt : ∀ x ∈ seqs (stop :: rest).reverse, x < e.hrcSeq := fun x hx =>
          hspl.2.2 x hx _ (by rw [hk]; exact mem_cons_self)
        have hsto := hlt stop.hrcSeq (mem_map_of_mem (by simp))
        refine ⟨e.hrcSeq - 1, ?_, fun x hx => ?_, fun x hx => ?_, by omega, e.hrcSeq, mem_map_of_mem he, by omega⟩
        · rw [Collector.oldestRetainedPosition, hen, hk, map_cons, List.head?_cons, Option.bind_some,
            hp'.positionOf, hhi']
          rfl
        · have := hlt x hx
          omega
        · have hsr := hspl.2.1
          rw [hk] at hsr
          rcases mem_cons.mp hx with hx | hx
          · have hs : x = e.hrcSeq := hx
            omega
          · have hlat : e.hrcSeq < x := (List.pairwise_cons.mp hsr).1 x hx
            omega
    obtain ⟨before, hv, hms, hk, hle, hm⟩ := hbef
    obtain ⟨ht, hpr⟩ := htl before hms hk
    have hf : c'.finish false = c'.trim (kept.reverse.map c.incoming) (totalBytes (kept.reverse.map c.incoming)) before := by
      rw [Collector.finish, if_neg (by simp), hv, hsz, hen]
    rw [hf, hh]
    refine trim_sound hg' htop hpr ht ?_ hm
    have := hps _ hst
    omega

end Finish

variable {l : List (EncodedRecord encode)}

theorem foldlM_appendEncoded {q : Queue encode}
    (hr : q.entries.length + l.length ≤ q.limits.maxRecords)
    (hbyt : q.byteSize + totalBytes l ≤ q.limits.maxBytes) :
    l.foldlM Queue.appendEncoded q =
      .ok { q with entries := q.entries ++ l, byteSize := q.byteSize + totalBytes l } := by
  induction l generalizing q with
  | nil => simp [totalBytes, pure, Except.pure]
  | cons entry l ih =>
    simp only [List.length_cons, totalBytes] at hr hbyt
    have hf : q.fits entry 1 = true := by
      simp only [Queue.fits, Bool.and_eq_true, decide_eq_true_eq]
      omega
    have happ : q.appendEncoded entry = .ok (q.push entry) := by
      rw [Queue.appendEncoded, if_neg (by omega), if_pos hf]
    have hrs := ih (q := q.push entry) (by simp only [Queue.push, List.length_append, List.length_singleton]; omega)
      (by simp only [Queue.push]; omega)
    rw [List.foldlM_cons, happ]
    refine hrs.trans ?_
    simp only [Queue.push, totalBytes, List.append_assoc, List.cons_append, List.nil_append, Nat.add_assoc]

theorem loadReplay_eq {c : Collector encode} {replayed : List LifecycleEvent}
    (hs : Sound replayed (Queue.holding c l)) :
    loadReplay c.ledgerIncarnationId c.afterHrcSeq c.limits l = .ok (Queue.holding c l) := by
  have hr : l.length ≤ c.limits.maxRecords := hs.records
  have hbyt : totalBytes l ≤ c.limits.maxBytes := hs.bytes
  refine (foldlM_appendEncoded ?_ ?_).trans ?_
  · simpa [Queue.empty] using hr
  · simpa [Queue.empty] using hbyt
  · simp only [Queue.empty, Queue.holding, List.nil_append, Nat.zero_add]

end HrcRuntime.BoundedEventStream
