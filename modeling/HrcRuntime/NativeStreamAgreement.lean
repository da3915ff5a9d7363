import HrcRuntime.NativeStream

namespace HrcRuntime.NativeStream

open BoundedEventStream (LifecycleEvent Limits EncodedRecord Collector Delivery Proper Sound positionOf droppedBy
  totalBytes encodeBoundedEventRecord eventOrOversizeGap)
open List (map_nil map_cons length_map)

variable {encode : Value → Nat}

def native (e : EncodedRecord encode) : Record encode := .new e.record

@[simp] theorem native_value (e : EncodedRecord encode) : (native e).value = e.record := rfl

@[simp] theorem native_bytes (e : EncodedRecord encode) : (native e).bytes = e.byteLength := e.encoded.symm

@[simp] theorem native_seq (e : EncodedRecord encode) : (native e).seq = positionOf e.record := by
  cases h : e.record <;> simp [native, Record.new, positionOf, h]

@[simp] theorem native_dropped (e : EncodedRecord encode) : (native e).dropped = droppedBy e.record := by
  cases h : e.record <;> simp [native, Record.new, droppedBy, h]

structure Like (q : Queue encode) (t : BoundedEventStream.Queue encode) : Prop where
  records : q.records = t.entries.map native
  bytes : q.bytes = t.byteSize
  delivered : q.delivered = t.deliveredHrcSeq
  incarnation : q.incarnation = t.ledgerIncarnationId
  limits : q.limits = t.limits

section Queues

variable {q : Queue encode} {t : BoundedEventStream.Queue encode}

theorem gap_like (h : Like q t) (before : Nat) (dropped : Option Nat) :
    q.gap .liveQueue before dropped = native (t.liveQueueGap before dropped) := by
  rw [Queue.gap, h.incarnation, h.delivered]
  rfl

theorem event_eq {ledgerIncarnationId : String} (hl : q.incarnation = ledgerIncarnationId) {limits : Limits}
    (hlim : q.limits = limits) (event : LifecycleEvent) :
    q.event event = native (eventOrOversizeGap ledgerIncarnationId event limits.maxBytes) := by
  unfold Queue.event eventOrOversizeGap
  rw [hl, hlim]
  dsimp only
  split
  · rename_i hf
    rw [if_pos (by exact hf)]
    rfl
  · rename_i hf
    rw [if_neg (by exact hf)]
    rfl

theorem addDropped_eq (a b : Option Nat) : Queue.addDropped a b = BoundedEventStream.addDropped a b := by
  cases a <;> cases b <;> rfl

theorem evict_like (h : Like q t) (incoming : EncodedRecord encode) {entries : List (EncodedRecord encode)}
    {dropped : Option Nat} {before : Nat} :
    Like (q.evict (native incoming) (entries.map native) (totalBytes entries) dropped before)
      (t.makeRoom incoming entries (totalBytes entries) dropped before) := by
  induction entries generalizing dropped before with
  | nil =>
    simp only [map_nil, Queue.evict, BoundedEventStream.Queue.makeRoom, native_seq, native_dropped, addDropped_eq,
      gap_like h, totalBytes, Nat.zero_add]
    exact ⟨rfl, native_bytes _, h.delivered, h.incarnation, h.limits⟩
  | cons removed entries ih =>
    have hbyt : totalBytes (removed :: entries) - removed.byteLength = totalBytes entries := by
      simp only [totalBytes, Nat.add_sub_cancel_left]
    simp only [map_cons, Queue.evict, BoundedEventStream.Queue.makeRoom, native_seq, native_dropped, native_bytes,
      addDropped_eq, gap_like h, hbyt, length_map, BoundedEventStream.Queue.fitsPair, Bool.and_eq_true,
      decide_eq_true_eq, h.limits]
    split
    · refine ⟨?_, ?_, h.delivered, h.incarnation, rfl⟩
      · simp only [BoundedEventStream.Queue.push, BoundedEventStream.Queue.prepend, List.map_append, map_cons,
          map_nil]
      · rfl
    · exact ih

theorem append_like (h : Like q t) (hop : q.closed = false ∧ q.terminal = none) (hs : t.byteSize = totalBytes t.entries)
    {incoming : EncodedRecord encode} (hin : incoming.byteLength ≤ t.limits.maxBytes) :
    ∃ t', t.appendEncoded incoming = .ok t' ∧ Like (q.append (native incoming)) t' := by
  have hf : (q.records.length < q.limits.maxRecords ∧ q.bytes + (native incoming).bytes ≤ q.limits.maxBytes) ↔
      t.fits incoming 1 = true := by
    rw [h.records, h.limits, h.bytes, length_map, native_bytes]
    simp only [BoundedEventStream.Queue.fits, Bool.and_eq_true, decide_eq_true_eq]
    exact Iff.rfl
  have hl : (q.closed || q.terminal.isSome) = false := by simp [hop]
  rw [BoundedEventStream.Queue.appendEncoded, if_neg (Nat.not_lt.mpr hin), Queue.append, hl, if_neg Bool.false_ne_true]
  by_cases hr : t.fits incoming 1 = true
  · rw [if_pos hr, if_pos (hf.mpr hr)]
    refine ⟨_, rfl, ?_, ?_, h.delivered, h.incarnation, h.limits⟩
    · simp only [Queue.push, BoundedEventStream.Queue.push, h.records, List.map_append, map_cons, map_nil]
    · simp only [Queue.push, BoundedEventStream.Queue.push, h.bytes, native_bytes]
  · rw [if_neg hr, if_neg (mt hf.mp hr)]
    refine ⟨_, rfl, ?_⟩
    rw [h.records, h.bytes, hs, h.delivered]
    exact evict_like h incoming

end Queues

def SameControls (q q' : Queue encode) : Prop :=
  q'.ready = q.ready ∧ q'.closed = q.closed ∧ q'.terminal = q.terminal ∧ q'.limits = q.limits

section Replay

variable {q : Queue encode} {c : Collector encode}

structure Fresh (q : Queue encode) (c : Collector encode) : Prop where
  incarnation : q.incarnation = c.ledgerIncarnationId
  delivered : q.delivered = c.afterHrcSeq
  limits : q.limits = c.limits

theorem scan_like (h : Fresh q c) {s : Snapshot encode} (hr : s.records = c.retained.map native)
    (hbyt : s.bytes = c.bytes) (hsto : s.stopped = c.stoppedAtHrcSeq) (events : List LifecycleEvent) :
    (scan q s events).2 = (c.scan events).2 ∧
      (scan q s events).1.records = (c.scan events).1.retained.map native ∧
      (scan q s events).1.bytes = (c.scan events).1.bytes ∧
      (scan q s events).1.stopped = (c.scan events).1.stoppedAtHrcSeq := by
  induction events generalizing s c with
  | nil => exact ⟨rfl, hr, hbyt, hsto⟩
  | cons event events ih =>
    have hev : q.event event = native (c.incoming event) := event_eq h.incarnation h.limits event
    have hf : (q.limits.maxRecords < s.records.length + 1 ∨
        q.limits.maxBytes < s.bytes + (q.event event).bytes) ↔
        (c.limits.maxRecords < c.retained.length + 1 ∨
          c.limits.maxBytes < c.bytes + (c.incoming event).byteLength) := by
      rw [hev, hr, hbyt, h.limits, length_map, native_bytes]
    by_cases hst : c.limits.maxRecords < c.retained.length + 1 ∨
        c.limits.maxBytes < c.bytes + (c.incoming event).byteLength
    · have hv : c.visitNewestFirst event = ({ c with stoppedAtHrcSeq := some event.hrcSeq }, false) := if_pos hst
      have hs : scan q s (event :: events) = ({ s with stopped := some event.hrcSeq }, false) :=
        if_pos (hf.mpr hst)
      simp only [Collector.scan, hv, hs, Bool.false_eq_true, if_false]
      exact ⟨trivial, hr, hbyt, trivial⟩
    · have hv : c.visitNewestFirst event =
          ({ c with retained := c.incoming event :: c.retained, bytes := c.bytes + (c.incoming event).byteLength },
            true) := if_neg hst
      have hs : scan q s (event :: events) = scan q
          { s with records := q.event event :: s.records, bytes := s.bytes + (q.event event).bytes } events :=
        if_neg (mt hf.mp hst)
      simp only [Collector.scan, hv, hs, if_true]
      have hn : Fresh q { c with
          retained := c.incoming event :: c.retained, bytes := c.bytes + (c.incoming event).byteLength } :=
        ⟨h.incarnation, h.delivered, h.limits⟩
      refine ih hn ?_ ?_ hsto
      · simp only [hev, hr, map_cons]
      · simp only [hev, hbyt, native_bytes]

theorem replayGap_like (h : Fresh q c) {entries : List (EncodedRecord encode)} {bytes before : Nat} :
    (q.replayGap (entries.map native) bytes before).1 :: (q.replayGap (entries.map native) bytes before).2
      = (c.trim entries bytes before).map native := by
  have hg (before : Nat) : q.gap .replayWindow before none = native (c.replayGap before) := by
    rw [Queue.gap, h.incarnation, h.delivered]
    rfl
  induction entries generalizing bytes before with
  | nil => rw [map_nil, Queue.replayGap, Collector.trim, hg]; rfl
  | cons removed entries ih =>
    have hfl : (c.limits.maxRecords < (removed :: entries).length + 1 ∨
        c.limits.maxBytes < bytes + (c.replayGap before).byteLength) ↔
        ¬ ((native removed :: entries.map native).length < q.limits.maxRecords ∧
          bytes + (q.gap .replayWindow before none).bytes ≤ q.limits.maxBytes) := by
      rw [hg, native_bytes, h.limits]
      simp only [List.length_cons, length_map]
      omega
    rw [map_cons, Queue.replayGap, Collector.trim]
    by_cases hr : (native removed :: entries.map native).length < q.limits.maxRecords ∧
        bytes + (q.gap .replayWindow before none).bytes ≤ q.limits.maxBytes
    · rw [if_pos hr, if_neg (fun hf => hfl.mp hf hr), hg]
      rfl
    · rw [if_neg hr, if_pos (hfl.mpr hr), native_seq, native_bytes]
      exact ih

theorem foldl_push (entries : List (EncodedRecord encode)) :
    (entries.map native).foldl Queue.push q =
      { q with records := q.records ++ entries.map native, bytes := q.bytes + totalBytes entries } := by
  induction entries generalizing q with
  | nil => simp [totalBytes]
  | cons entry entries ih =>
    rw [map_cons, List.foldl_cons, ih]
    simp [Queue.push, totalBytes, Nat.add_assoc]

theorem held_native (entries : List (EncodedRecord encode)) : Queue.held (entries.map native) = totalBytes entries := by
  have hf (entries : List (EncodedRecord encode)) (n : Nat) :
      ((entries.map native).map (·.bytes)).foldl (· + ·) n = n + totalBytes entries := by
    induction entries generalizing n with
    | nil => rfl
    | cons entry entries ih =>
      simp only [map_cons, List.foldl_cons, native_bytes, totalBytes, ih]
      omega
  exact (hf entries 0).trans (Nat.zero_add _)

theorem scan_complete {events : List LifecycleEvent} (hc : (c.scan events).2 = true) :
    (c.scan events).1.stoppedAtHrcSeq = c.stoppedAtHrcSeq := by
  induction events generalizing c with
  | nil => rfl
  | cons event events ih =>
    by_cases hs : c.limits.maxRecords < c.retained.length + 1 ∨
        c.limits.maxBytes < c.bytes + (c.incoming event).byteLength
    · have hv : c.visitNewestFirst event = ({ c with stoppedAtHrcSeq := some event.hrcSeq }, false) := if_pos hs
      simp only [Collector.scan, hv, Bool.false_eq_true, if_false] at hc
    · have hv : c.visitNewestFirst event =
          ({ c with retained := c.incoming event :: c.retained, bytes := c.bytes + (c.incoming event).byteLength },
            true) := if_neg hs
      simp only [Collector.scan, hv, if_true] at hc ⊢
      exact ih hc

theorem replay_like (h : Fresh q c) (he : q.records = [] ∧ q.bytes = 0) (hs : c.bytes = totalBytes c.retained)
    {complete : Bool} (hc : complete = true → c.stoppedAtHrcSeq = none) :
    Like (q.replay (c.retained.map native) complete c.stoppedAtHrcSeq)
        (BoundedEventStream.Queue.holding c (c.finish complete)) ∧
      SameControls q (q.replay (c.retained.map native) complete c.stoppedAtHrcSeq) := by
  have hp (entries : List (EncodedRecord encode)) :
      Like ((entries.map native).foldl Queue.push q) (BoundedEventStream.Queue.holding c entries) ∧
        SameControls q ((entries.map native).foldl Queue.push q) := by
    rw [foldl_push, he.1, he.2]
    exact ⟨⟨rfl, Nat.zero_add _, h.delivered, h.incarnation, h.limits⟩, rfl, rfl, rfl, rfl⟩
  cases complete with
  | true =>
    have hr : q.replay (c.retained.map native) true c.stoppedAtHrcSeq = (c.retained.map native).foldl Queue.push q := by
      rw [hc rfl]
      rfl
    rw [hr, Collector.finish, if_pos rfl]
    exact hp _
  | false =>
    have hbef : (((c.retained.map native).head?.bind (·.seq)).map (· - 1)).getD
        (c.stoppedAtHrcSeq.getD q.delivered) =
        (c.oldestRetainedPosition.map (· - 1)).getD (c.stoppedAtHrcSeq.getD c.afterHrcSeq) := by
      rw [h.delivered, Collector.oldestRetainedPosition]
      cases c.retained with
      | nil => rfl
      | cons entry entries => simp only [map_cons, List.head?_cons, Option.bind_some, native_seq]
    have hr : q.replay (c.retained.map native) false c.stoppedAtHrcSeq = (c.finish false |>.map native).foldl
        Queue.push q := by
      rw [Collector.finish, if_neg Bool.false_ne_true, hs, ← replayGap_like h, ← hbef, ← held_native]
      rfl
    rw [hr]
    exact hp _

end Replay

end HrcRuntime.NativeStream
