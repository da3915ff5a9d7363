import HrcRuntime.NativeStreamAgreement

namespace HrcRuntime.NativeStream

open BoundedEventStream (LifecycleEvent Limits EncodedRecord Collector Delivery Proper Stream HoldsGap Sound positionOf
  lowerOf upperOf lowerAt upperAt seqs speaksFor isGap totalBytes encodeBoundedEventRecord eventOrOversizeGap)
open Schedule

variable {encode : Value → Nat}

def placed (r : Value) : Bool := (positionOf r).isSome

def Follow.records (s : Follow encode) : List Value := s.handed.filter placed ++ s.queue.records.map (·.value)

structure Accounted (limits : Limits) (s : Follow encode) : Prop where
  bounded : s.queue.records.length ≤ limits.maxRecords ∧ Queue.held s.queue.records ≤ limits.maxBytes ∧
    s.queue.bytes = Queue.held s.queue.records
  ordered : s.records.Pairwise fun r r' => ∃ position position', positionOf r = some position ∧
    positionOf r' = some position' ∧ position < position' ∧ position ≤ lowerOf r'
  accounted : ∀ event ∈ s.appended, s.records.countP (speaksFor event) = 1
  apart : ∀ incarnation event gap, .event incarnation event ∈ s.records → gap ∈ s.records → isGap gap →
    speaksFor event gap = false
  exact : ∀ incarnation reason after before dropped, .gap incarnation reason after before (some dropped) ∈ s.records →
    dropped = s.appended.countP fun event => after < event.hrcSeq ∧ event.hrcSeq ≤ before

def follow (a : Action) (t : Nat × Delivery encode) : Nat × Delivery encode :=
  match a with
  | .wake head ledger => (max head t.1, (unread t.1 head ledger).foldl Delivery.appendEvent t.2)
  | .poll => (t.1, t.2.pull)

/-- The rows of a read: ascending, and no sequence number above `top`. -/
def Rows (top : Nat) (ledger : List LifecycleEvent) : Prop :=
  (seqs ledger).Pairwise (· < ·) ∧ ∀ x ∈ seqs ledger, x ≤ top

def Reads (top : Nat) (_ : Follow encode) : Action → Prop
  | .wake _ ledger => Rows top ledger
  | .poll => True

instance decidableRows (top : Nat) (ledger : List LifecycleEvent) : Decidable (Rows top ledger) :=
  inferInstanceAs (Decidable (_ ∧ _))

instance decidableReads (top : Nat) (s : Follow encode) : (a : Action) → Decidable (Reads top s a)
  | .wake _ _ => inferInstanceAs (Decidable (Rows _ _))
  | .poll => isTrue trivial

section Rows

variable {cursor head top : Nat} {ledger : List LifecycleEvent}

theorem mem_unread {event : LifecycleEvent} :
    event ∈ unread cursor head ledger ↔ event ∈ ledger ∧ cursor < event.hrcSeq ∧ event.hrcSeq ≤ head := by
  simp only [unread, List.mem_filter, Bool.and_eq_true, decide_eq_true_eq]

theorem seqs_unread (cursor head : Nat) (h : Rows top ledger) : (seqs (unread cursor head ledger)).Pairwise (· < ·) :=
  h.1.sublist (List.filter_sublist.map _)

end Rows

section Poll

variable {q : Queue encode}

theorem poll_ready (hop : q.closed = false) {incarnation : String} {after head : Nat}
    (hr : q.ready = some (.new (.ready incarnation after head))) :
    q.poll = (some (.new (.ready incarnation after head)), { q with ready := none }) := by
  simp only [Queue.poll, hop, hr, Bool.false_eq_true, if_false, Record.new]

theorem poll_pop (hop : q.closed = false) (hr : q.ready = none) {entry : EncodedRecord encode}
    {appended : List LifecycleEvent} (hp : Proper appended entry.record) {rest : List (Record encode)}
    (hrec : q.records = native entry :: rest) :
    q.poll = (some (native entry), { q with
      records := rest
      bytes := q.bytes - entry.byteLength
      delivered := max q.delivered (upperOf entry.record) }) := by
  have hs : (native entry).seq = some (upperOf entry.record) := by rw [native_seq, hp.positionOf]
  simp only [Queue.poll, Queue.pop, hop, hr, hrec, hs, native_value, native_bytes, Bool.false_eq_true, if_false]
  cases h : entry.record with
  | ledgerReplaced a b =>
    rw [h] at hp
    cases hp
  | _ => rfl

theorem poll_empty (hop : q.closed = false ∧ q.terminal = none) (hr : q.ready = none) (hrec : q.records = []) :
    q.poll = (none, { q with keepalive := false }) := by
  obtain ⟨records, bytes, delivered, incarnation, ready, terminal, keepalive, closed, limits⟩ := q
  obtain ⟨rfl, rfl⟩ := hop
  subst hr hrec
  rfl

end Poll

def account (after : Nat) (s : Follow encode) (d : Delivery encode) : Stream encode :=
  { queue := d.queue, appended := s.appended, taken := s.handed.filter placed, discardedThrough := after }

structure Related (top after : Nat) (limits : Limits) (s : Follow encode) (t : Nat × Delivery encode) : Prop where
  like : Like s.queue t.2.queue
  limits : s.queue.limits = limits
  inv : Stream.Inv top (account after s t.2)
  opened : s.queue.closed = false ∧ s.queue.terminal = none
  live : t.2.closed = false ∧ t.2.terminal = none
  ready : (s.queue.ready = none ∧ t.2.ready = none) ∨ ∃ incarnation after head,
    s.queue.ready = some (.new (.ready incarnation after head)) ∧
      t.2.ready = some (encodeBoundedEventRecord (.ready incarnation after head))
  handed : s.handed = t.2.handed
  cursor : s.cursor = t.1
  read : after ≤ s.cursor ∧ ∀ event ∈ s.appended, after < event.hrcSeq ∧ event.hrcSeq ≤ s.cursor

section Steps

variable {top after : Nat} {limits : Limits} {s : Follow encode} {t : Nat × Delivery encode}

def Follow.read (s : Follow encode) (event : LifecycleEvent) : Follow encode :=
  { s with queue := s.queue.append (s.queue.event event), appended := s.appended ++ [event], cursor := event.hrcSeq }

theorem append_controls (q : Queue encode) (record : Record encode) : SameControls q (q.append record) := by
  have he (records : List (Record encode)) (bytes : Nat) (dropped : Option Nat) (before : Nat) :
      SameControls q (q.evict record records bytes dropped before) := by
    induction records generalizing bytes dropped before with
    | nil => exact ⟨rfl, rfl, rfl, rfl⟩
    | cons removed records ih =>
      simp only [Queue.evict]
      split
      · exact ⟨rfl, rfl, rfl, rfl⟩
      · exact ih _ _ _
  simp only [Queue.append]
  split
  · exact ⟨rfl, rfl, rfl, rfl⟩
  · split
    · exact ⟨rfl, rfl, rfl, rfl⟩
    · exact he _ _ _ _

theorem related_read (h : Related top after limits s t) {event : LifecycleEvent} (hlt : s.cursor < event.hrcSeq)
    (htop : event.hrcSeq ≤ top) :
    Related top after limits (s.read event) (event.hrcSeq, t.2.appendEvent event) := by
  have hf : ∀ earlier ∈ s.appended, earlier.hrcSeq < event.hrcSeq :=
    fun earlier he => Nat.lt_of_le_of_lt (h.read.2 earlier he).2 hlt
  have haft : after < event.hrcSeq := Nat.lt_of_le_of_lt h.read.1 hlt
  have hi := Stream.inv_appendEvent h.inv ⟨hf, haft, htop⟩
  have hin : (eventOrOversizeGap t.2.queue.ledgerIncarnationId event t.2.queue.limits.maxBytes :
      EncodedRecord encode).byteLength ≤ t.2.queue.limits.maxBytes :=
    (BoundedEventStream.incoming_sound h.inv.holds hi.ascending
      (List.mem_append_right _ List.mem_cons_self) (by omega) htop).1
  obtain ⟨q, happ, hl⟩ := append_like h.like h.opened h.inv.sound.size hin
  rw [← event_eq h.like.incarnation h.like.limits event] at hl
  have hque : (t.2.appendEvent event).queue = q := by
    have hev : t.2.queue.appendEvent event = .ok q := happ
    simp only [Delivery.appendEvent, h.live, Option.isSome_none, Bool.or_self, Bool.false_eq_true, if_false, hev,
      Except.toOption, Option.getD_some]
  have hrs : (t.2.appendEvent event).closed = false ∧ (t.2.appendEvent event).terminal = none ∧
      (t.2.appendEvent event).ready = t.2.ready ∧ (t.2.appendEvent event).handed = t.2.handed := by
    simp only [Delivery.appendEvent, h.live, Option.isSome_none, Bool.or_self, Bool.false_eq_true, if_false, and_self]
  have hacc : account after (s.read event) (t.2.appendEvent event) =
      Stream.step (.appendEvent event) (account after s t.2) := by
    have hev : t.2.queue.appendEvent event = .ok q := happ
    simp only [account, Follow.read, Stream.step, hque, hev, Except.toOption, Option.getD_some]
  obtain ⟨hr, hcl, ht, hlim⟩ := append_controls s.queue (s.queue.event event)
  refine ⟨?_, ?_, ?_, ?_, ⟨hrs.1, hrs.2.1⟩, ?_, ?_, rfl, ?_, ?_⟩
  · rw [hque]
    exact hl
  · exact hlim.trans h.limits
  · rw [hacc]
    exact hi
  · exact ⟨hcl.trans h.opened.1, ht.trans h.opened.2⟩
  · rw [hrs.2.2.1, show (s.read event).queue.ready = s.queue.ready from hr]
    exact h.ready
  · exact h.handed.trans hrs.2.2.2.symm
  · exact haft.le
  · intro earlier he
    rcases List.mem_append.mp he with he | he
    · exact ⟨(h.read.2 earlier he).1, (hf earlier he).le⟩
    · rw [List.mem_singleton.mp he]
      exact ⟨haft, le_rfl⟩

theorem related_advance (h : Related top after limits s t) {cursor : Nat} (hle : s.cursor ≤ cursor) :
    Related top after limits { s with cursor } (cursor, t.2) :=
  { h with cursor := rfl, read := ⟨h.read.1.trans hle, fun event he => ⟨(h.read.2 event he).1, (h.read.2 event he).2.trans hle⟩⟩ }

variable {events : List LifecycleEvent}

theorem related_reads (h : Related top after limits s t)
    (hasc : (seqs events).Pairwise (· < ·)) (hp : ∀ x ∈ seqs events, s.cursor < x) (ht : ∀ x ∈ seqs events, x ≤ top) :
    Related top after limits (events.foldl Follow.read s)
      ((events.foldl Follow.read s).cursor, events.foldl Delivery.appendEvent t.2) := by
  induction events generalizing s t with
  | nil =>
    simp only [List.foldl_nil, h.cursor]
    exact h
  | cons event events ih =>
    obtain ⟨hf, hrs⟩ := List.pairwise_cons.mp hasc
    have hr := related_read h (hp _ List.mem_cons_self) (ht _ List.mem_cons_self)
    exact ih hr hrs hf fun x hx => ht x (List.mem_cons_of_mem _ hx)

theorem cursor_foldl_read {head : Nat} (hle : s.cursor ≤ head)
    (hh : ∀ event ∈ events, event.hrcSeq ≤ head) : (events.foldl Follow.read s).cursor ≤ head := by
  induction events generalizing s with
  | nil => exact hle
  | cons event events ih =>
    exact ih (s := s.read event) (hh _ List.mem_cons_self) fun e he => hh e (List.mem_cons_of_mem _ he)

theorem foldl_read (s : Follow encode) (events : List LifecycleEvent) :
    events.foldl Follow.read s =
      { s with
        queue := events.foldl (fun q event => q.append (q.event event)) s.queue
        appended := s.appended ++ events
        cursor := (events.foldl Follow.read s).cursor } := by
  induction events generalizing s with
  | nil => simp
  | cons event events ih =>
    rw [List.foldl_cons, ih]
    simp [Follow.read]

theorem related_wake (h : Related top after limits s t) {head : Nat} {ledger : List LifecycleEvent}
    (hrw : Rows top ledger) : Related top after limits (step (.wake head ledger) s) (follow (.wake head ledger) t) := by
  have hr := related_reads h (seqs_unread s.cursor head hrw)
    (fun x hx => by
      obtain ⟨event, hev, rfl⟩ := List.mem_map.mp hx
      exact (mem_unread.mp hev).2.1)
    (fun x hx => by
      obtain ⟨event, hev, rfl⟩ := List.mem_map.mp hx
      exact hrw.2 _ (List.mem_map_of_mem (mem_unread.mp hev).1))
  have hc : ((unread s.cursor head ledger).foldl Follow.read s).cursor ≤ max head s.cursor :=
    cursor_foldl_read (Nat.le_max_right _ _) fun event hev =>
      (mem_unread.mp hev).2.2.trans (Nat.le_max_left _ _)
  have hadv := related_advance hr hc
  rw [foldl_read] at hadv
  simp only [follow, ← h.cursor]
  exact hadv

theorem related_poll (h : Related top after limits s t) :
    Related top after limits (step .poll s) (follow .poll t) := by
  obtain ⟨hcl, htr⟩ := h.live
  rcases h.ready with ⟨hn, hn'⟩ | ⟨incarnation, accepted, head, hs, hs'⟩
  · cases he : t.2.queue.entries with
    | nil =>
      have hr : s.queue.records = [] := by rw [h.like.records, he, List.map_nil]
      have ht : t.2.queue.take = none := by
        simp only [BoundedEventStream.Queue.take, BoundedEventStream.Queue.shiftRaw, he, Option.map_none]
      have hpl : t.2.pull = t.2 := by
        simp only [Delivery.pull, hcl, hn', ht, htr, Bool.false_eq_true, if_false]
      simp only [step, follow, poll_empty h.opened hn hr, hpl, Option.map_none, Option.toList_none,
        List.append_nil]
      exact { h with
        like := ⟨h.like.records, h.like.bytes, h.like.delivered, h.like.incarnation, h.like.limits⟩ }
    | cons entry rest =>
      have hr : s.queue.records = native entry :: rest.map native := by
        rw [h.like.records, he, List.map_cons]
      have hpr : Proper s.appended entry.record :=
        h.inv.sound.proper entry (show entry ∈ t.2.queue.entries by rw [he]; exact List.mem_cons_self)
      have hp : placed entry.record = true := by rw [placed, hpr.positionOf]; rfl
      have hi := Stream.inv_take h.inv
      let q : BoundedEventStream.Queue encode := { t.2.queue with
        entries := rest
        byteSize := t.2.queue.byteSize - entry.byteLength
        deliveredHrcSeq := max t.2.queue.deliveredHrcSeq (upperOf entry.record) }
      have ht : t.2.queue.take = some (entry, q) := by
        simp only [BoundedEventStream.Queue.take, BoundedEventStream.Queue.shiftRaw, he, Option.map_some,
          hpr.positionOf, q]
      have hpl : t.2.pull = { t.2 with queue := q, handed := t.2.handed ++ [entry.record] } := by
        simp only [Delivery.pull, hcl, hn', ht, Bool.false_eq_true, if_false]
      simp only [step, follow, poll_pop h.opened.1 hn hpr hr, hpl, Option.map_some,
        Option.toList_some, native_value]
      refine ⟨⟨rfl, ?_, ?_, h.like.incarnation, h.like.limits⟩, h.limits, ?_, h.opened, ⟨hcl, htr⟩,
        Or.inl ⟨hn, hn'⟩, ?_, h.cursor, h.read⟩
      · exact congrArg (· - entry.byteLength) h.like.bytes
      · exact congrArg (max · (upperOf entry.record)) h.like.delivered
      · have hacc : Stream.step .take (account after s t.2) =
            { account after s t.2 with queue := q, taken := s.handed.filter placed ++ [entry.record] } := by
          have ht' : (account after s t.2).queue.take = some (entry, q) := ht
          simp only [Stream.step, ht']
          rfl
        rw [hacc] at hi
        simp only [account, List.filter_append, List.filter_cons_of_pos hp, List.filter_nil]
        exact hi
      · exact congrArg (· ++ [entry.record]) h.handed
  · have hpl : t.2.pull = { t.2 with
        ready := none, handed := t.2.handed ++ [.ready incarnation accepted head] } := by
      simp only [Delivery.pull, hcl, hs', Bool.false_eq_true, if_false, encodeBoundedEventRecord]
    simp only [step, follow, poll_ready h.opened.1 hs, hpl, Option.map_some, Option.toList_some, Record.new]
    have hp : ¬ placed (.ready incarnation accepted head) = true := by simp [placed, positionOf]
    refine ⟨⟨h.like.records, h.like.bytes, h.like.delivered, h.like.incarnation, h.like.limits⟩, h.limits, ?_, h.opened,
      ⟨hcl, htr⟩, Or.inl ⟨rfl, rfl⟩, ?_, h.cursor, h.read⟩
    · have hi := h.inv
      simp only [account, List.filter_append, List.filter_cons_of_neg hp, List.filter_nil, List.append_nil]
      exact hi
    · exact congrArg (· ++ [BoundedEventStream.Record.ready incarnation accepted head]) h.handed

theorem related_step {a : Action} (h : Related top after limits s t) (hr : Reads top s a) :
    Related top after limits (step a s) (follow a t) := by
  cases a with
  | wake head ledger => exact related_wake h hr
  | poll => exact related_poll h

theorem Related.records_eq (h : Related top after limits s t) : s.records = (account after s t.2).records := by
  rw [Follow.records, h.like.records, List.map_map]
  rfl

theorem Related.accounted (h : Related top after limits s t) : Accounted limits s := by
  have hacc := h.inv.accounted
  have hh : Queue.held s.queue.records = totalBytes t.2.queue.entries := by rw [h.like.records, held_native]
  obtain ⟨hr, hbyt, hs⟩ := hacc.bounded
  rw [show (account after s t.2).queue.limits = limits from h.like.limits.symm.trans h.limits] at hr hbyt
  refine ⟨⟨?_, ?_, ?_⟩, ?_, ?_, ?_, ?_⟩
  · rw [h.like.records, List.length_map]
    exact hr
  · rw [hh]
    exact hbyt
  · rw [hh, h.like.bytes]
    exact hs
  · rw [h.records_eq]
    exact hacc.ordered
  · rw [h.records_eq]
    exact fun event hev => hacc.accounted event hev (h.read.2 event hev).1
  · rw [h.records_eq]
    exact hacc.apart
  · rw [h.records_eq]
    exact hacc.exact

end Steps

section Runs

variable {incarnation : String} {after top head : Nat} {limits : Limits} {ledger : List LifecycleEvent}

/-- Both replays are loaded alike, and account for every event. -/
theorem related_start (after head : Nat) (hg : HoldsGap encode incarnation limits top) (hrw : Rows top ledger) :
    ∃ d : Delivery encode, Delivery.start incarnation after limits head (unread after head ledger) = .ok d ∧
      Related top after limits (start incarnation after limits head ledger) (max head after, d) := by
  let c : Collector encode := { ledgerIncarnationId := incarnation, afterHrcSeq := after, limits }
  let replayed := unread after head ledger
  have hp : ∀ event ∈ replayed, after < event.hrcSeq ∧ event.hrcSeq ≤ head := fun event he => (mem_unread.mp he).2
  have htop : ∀ x ∈ seqs replayed, x ≤ top := fun x hx => by
    obtain ⟨event, he, rfl⟩ := List.mem_map.mp hx
    exact hrw.2 _ (List.mem_map_of_mem (mem_unread.mp he).1)
  have hsnd := BoundedEventStream.finish_sound (c := c) hg ⟨rfl, rfl⟩ (seqs_unread after head hrw) htop fun x hx => by
    obtain ⟨event, he, rfl⟩ := List.mem_map.mp hx
    exact (hp event he).1
  obtain ⟨⟨hl, hsta, hlim⟩, -, hsz, -, -⟩ :=
    BoundedEventStream.scanned (c := c) replayed.reverse rfl (Nat.zero_le _) (Nat.zero_le _)
  let q : Queue encode := ⟨[], 0, after, incarnation, none, none, false, false, limits⟩
  obtain ⟨hc, hrec, -, hstop⟩ :=
    scan_like (q := q) (c := c) ⟨rfl, rfl, rfl⟩ (s := {}) rfl rfl rfl replayed.reverse
  have hlo := replay_like (q := q) (c := (c.scan replayed.reverse).1)
    ⟨hl.symm, hsta.symm, hlim.symm⟩ ⟨rfl, rfl⟩ hsz
    (show (c.scan replayed.reverse).2 = true → _ from scan_complete)
  rw [← hc, ← hrec, ← hstop] at hlo
  obtain ⟨hlk, -, hcl, ht, hs⟩ := hlo
  have hh (entries : List (EncodedRecord encode)) :
      BoundedEventStream.Queue.holding (c.scan replayed.reverse).1 entries = BoundedEventStream.Queue.holding c entries := by
    simp only [BoundedEventStream.Queue.holding, hl, hlim, hsta]
  rw [hh] at hlk
  have hld := BoundedEventStream.loadReplay_eq hsnd
  rw [← hc] at hld
  let d : Delivery encode :=
    { ready := some (encodeBoundedEventRecord (.ready incarnation after head))
      queue := BoundedEventStream.Queue.holding c
        ((c.scan replayed.reverse).1.finish (scan q {} replayed.reverse).2) }
  refine ⟨d, ?_, ?_⟩
  · rw [hc] at hld
    have hst : Delivery.start incarnation after limits head replayed =
        (BoundedEventStream.loadReplay incarnation after limits
          ((c.scan replayed.reverse).1.finish (c.scan replayed.reverse).2)).map fun queue =>
            { ready := some (encodeBoundedEventRecord (.ready incarnation after head)), queue } := rfl
    rw [hst, show BoundedEventStream.loadReplay incarnation after limits _ = _ from hld]
    simp only [d, hc]
    rfl
  · rw [← hc] at hsnd
    refine ⟨⟨hlk.records, hlk.bytes, hlk.delivered, hlk.incarnation, hlk.limits⟩, hs, ?_,
      ⟨hcl, ht⟩, ⟨rfl, rfl⟩, Or.inr ⟨incarnation, after, head, rfl, rfl⟩, rfl, rfl, Nat.le_max_right _ _,
      fun event he => ⟨(hp event he).1, (hp event he).2.trans (Nat.le_max_left _ _)⟩⟩
    exact
      { sound := hsnd
        holds := hg
        ascending := seqs_unread after head hrw
        below := htop
        proper := fun r hr => (List.not_mem_nil hr).elim
        apart := List.Pairwise.nil
        discarded := le_rfl
        delivered := Or.inl rfl
        covered := fun x _ hx hle => absurd hx (Nat.not_lt.mpr hle) }

/-- Over every interleaving of wakes and polls behind every replay, the native stream accounts for every event it
has read, and its reader has what the TypeScript delivery would have handed out. -/
theorem follow_accounted {actions : List Action} (hgap : HoldsGap encode incarnation limits top)
    (hrows : Rows top ledger)
    (hreads : Meets step (Reads top) actions (start incarnation after limits head ledger : Follow encode)) :
    ∃ d : Delivery encode, Delivery.start incarnation after limits head (unread after head ledger) = .ok d ∧
      Accounted limits (run step actions (start incarnation after limits head ledger : Follow encode)) ∧
      (run step actions (start incarnation after limits head ledger : Follow encode)).handed =
        (run follow actions (max head after, d)).2.handed := by
  obtain ⟨d, hs, hrel⟩ := related_start after head hgap hrows
  have hrun := run_simulates (R := Related top after limits) (fun _ _ a h hr => related_step (a := a) h hr) hrel hreads
  exact ⟨d, hs, hrun.accounted, hrun.handed⟩

def overflowing : List Action := [.poll, .wake 3 [⟨1, .nil⟩, ⟨2, .nil⟩, ⟨3, .nil⟩], .poll]

theorem follow_accounted_overflowing :
    ∃ d : Delivery BoundedEventStream.ndjsonBytes,
      Delivery.start "ledger-a" 0 ⟨2, 186⟩ 1 (unread 0 1 [⟨1, .nil⟩]) = .ok d ∧
      Accounted ⟨2, 186⟩ (run step overflowing
        (start "ledger-a" 0 ⟨2, 186⟩ 1 [⟨1, .nil⟩] : Follow BoundedEventStream.ndjsonBytes)) ∧
      (run step overflowing
        (start "ledger-a" 0 ⟨2, 186⟩ 1 [⟨1, .nil⟩] : Follow BoundedEventStream.ndjsonBytes)).handed =
        (run follow overflowing (max 1 0, d)).2.handed :=
  follow_accounted (BoundedEventStream.Stream.holdsGap_ledger (by decide) (by decide)) (by decide) (by decide +kernel)

end Runs

end HrcRuntime.NativeStream
