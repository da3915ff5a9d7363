import HrcRuntime.EventFilters
import HrcRuntime.Schedule

namespace HrcRuntime.EventFollow

open EventFilters Schedule
open List (mem_singleton append_nil append_assoc map_append mem_cons_self filter_append)

/-- What `parseFromSeq` returns. -/
structure FromSeq where
  value : Nat
  positive : 1 ≤ value

/-- The stream of one `GET /v1/events?follow=true`, from its subscription on. -/
structure FollowStream where
  streamStarted : Bool
  replayHighWater : Nat
  bufferedEvents : List HrcLifecycleEvent
  enqueued : List HrcLifecycleEvent

structure Feed where
  rows : List HrcEventRow := []
  nextHrcSeq : Nat := 1
  pending : List HrcLifecycleEvent := []
  stream : Option FollowStream := none

inductive Action where
  | append (row : HrcEventRow)
  | announce | subscribe | start

section Follow

variable (reader : RowReader) (filters : HrcEventsRouteFilters) (fromSeq : FromSeq)

def subscriber (event : HrcLifecycleEvent) (s : FollowStream) : FollowStream :=
  if event.hrcSeq < fromSeq.value then s
  else if !matchesHrcLifecycleEventFilter event filters then s
  else if s.streamStarted then
    if event.hrcSeq > s.replayHighWater then { s with enqueued := s.enqueued ++ [event] } else s
  else { s with bufferedEvents := s.bufferedEvents ++ [event] }

/-- `start` of the stream: the replay, then what was buffered above it. -/
def startStream (rows : List HrcEventRow) (s : FollowStream) : FollowStream :=
  let replayEvents := listFromHrcSeq reader rows fromSeq.value filters
  let replayHighWater := (replayEvents.getLast?.map (·.hrcSeq)).getD s.replayHighWater
  { s with
    streamStarted := true
    replayHighWater
    enqueued := replayEvents ++ s.bufferedEvents.filter (·.hrcSeq > replayHighWater) }

def step : Action → Feed → Feed
  | .append row, s =>
    let stored := { row with hrcSeq := s.nextHrcSeq }
    { s with rows := s.rows ++ [stored], nextHrcSeq := s.nextHrcSeq + 1, pending := s.pending ++ [mapRow reader stored] }
  | .announce, s =>
    match s.pending with
    | [] => s
    | event :: pending => { s with pending, stream := s.stream.map (subscriber filters fromSeq event) }
  | .subscribe, s => { s with stream := s.stream.or (some ⟨false, fromSeq.value - 1, [], []⟩) }
  | .start, s =>
    { s with stream := s.stream.map fun stream =>
        if stream.streamStarted then stream else startStream reader filters fromSeq s.rows stream }

def wanted (row : HrcEventRow) : Bool := decide (fromSeq.value ≤ row.hrcSeq) && buildLifecycleWhere filters row

variable {reader filters fromSeq}

/-- A stream against a ledger whose rows are announced up to `announced`. -/
inductive Standing (reader : RowReader) (filters : HrcEventsRouteFilters) (fromSeq : FromSeq) (nextHrcSeq : Nat)
    (announced unannounced : List HrcEventRow) : Option FollowStream → Prop
  | none : Standing reader filters fromSeq nextHrcSeq announced unannounced none
  | buffering {buffered : List HrcLifecycleEvent}
      (hbuffered : ∀ event ∈ buffered, ∃ row ∈ announced, wanted filters fromSeq row = true ∧ mapRow reader row = event) :
      Standing reader filters fromSeq nextHrcSeq announced unannounced (some ⟨false, fromSeq.value - 1, buffered, []⟩)
  | live {replayHighWater : Nat} {buffered enqueued : List HrcLifecycleEvent} {replayed later : List HrcEventRow}
      (hsplit : unannounced = replayed ++ later)
      (henqueued : enqueued = ((announced ++ replayed).filter (wanted filters fromSeq)).map (mapRow reader))
      (hreplayed : ∀ row ∈ replayed, wanted filters fromSeq row = true → row.hrcSeq ≤ replayHighWater)
      (hlater : ∀ row ∈ later, wanted filters fromSeq row = true → replayHighWater < row.hrcSeq)
      (hnext : ∀ seq, nextHrcSeq ≤ seq → fromSeq.value ≤ seq → replayHighWater < seq) :
      Standing reader filters fromSeq nextHrcSeq announced unannounced (some ⟨true, replayHighWater, buffered, enqueued⟩)

structure Inv (reader : RowReader) (filters : HrcEventsRouteFilters) (fromSeq : FromSeq) (s : Feed) : Prop where
  ascending : s.rows.Pairwise fun a b => a.hrcSeq < b.hrcSeq
  below : ∀ row ∈ s.rows, row.hrcSeq < s.nextHrcSeq
  coincide : ∀ row ∈ s.rows, Coincides reader filters row
  standing : ∃ announced unannounced, s.rows = announced ++ unannounced ∧
    s.pending = unannounced.map (mapRow reader) ∧
      Standing reader filters fromSeq s.nextHrcSeq announced unannounced s.stream

variable {rows : List HrcEventRow} {row : HrcEventRow}

theorem wanted_event (h : Coincides reader filters row) :
    wanted filters fromSeq row =
      (!decide ((mapRow reader row).hrcSeq < fromSeq.value) && matchesHrcLifecycleEventFilter (mapRow reader row) filters) := by
  rw [wanted, (agree_iff reader).mpr h, ← decide_not]
  simp only [mapRow_hrcSeq, Nat.not_lt]

theorem subscriber_eq (h : Coincides reader filters row) (s : FollowStream) :
    subscriber filters fromSeq (mapRow reader row) s =
      if wanted filters fromSeq row then
        if s.streamStarted then
          if row.hrcSeq > s.replayHighWater then { s with enqueued := s.enqueued ++ [mapRow reader row] } else s
        else { s with bufferedEvents := s.bufferedEvents ++ [mapRow reader row] }
      else s := by
  have hw : wanted filters fromSeq row = _ := wanted_event h
  unfold subscriber
  rw [mapRow_hrcSeq] at hw ⊢
  by_cases hs : row.hrcSeq < fromSeq.value
  · simp [hw, hs]
  · cases hm : matchesHrcLifecycleEventFilter (mapRow reader row) filters <;> simp [hw, hs, hm]

theorem listFromHrcSeq_eq (h : rows.Pairwise fun a b => a.hrcSeq < b.hrcSeq) :
    listFromHrcSeq reader rows fromSeq.value filters = (rows.filter (wanted filters fromSeq)).map (mapRow reader) := by
  have hs : (rows.filter (wanted filters fromSeq)).Pairwise fun a b => a.hrcSeq ≤ b.hrcSeq :=
    (h.filter _).imp fun hlt => Nat.le_of_lt hlt
  exact congrArg (List.map (mapRow reader)) (List.Pairwise.insertionSort_eq hs)

theorem le_replayHighWater (h : rows.Pairwise fun a b => a.hrcSeq < b.hrcSeq)
    (hr : row ∈ rows) (floor : Nat) : row.hrcSeq ≤ (rows.getLast?.map (·.hrcSeq)).getD floor := by
  rcases List.eq_nil_or_concat rows with rfl | ⟨before, last, rfl⟩
  · cases hr
  · rw [List.concat_eq_append] at h hr ⊢
    rw [List.getLast?_concat]
    rcases List.mem_append.mp hr with hr | hr
    · exact Nat.le_of_lt ((List.pairwise_append.mp h).2.2 row hr last (List.mem_singleton_self last))
    · rw [mem_singleton.mp hr]
      exact Nat.le_refl _

/-- The replay covers every row there is, so what was buffered is in it. -/
theorem startStream_live {announced unannounced : List HrcEventRow} {nextHrcSeq : Nat} {buffered : List HrcLifecycleEvent}
    (hasc : rows.Pairwise fun a b => a.hrcSeq < b.hrcSeq) (hblw : ∀ row ∈ rows, row.hrcSeq < nextHrcSeq)
    (hrw : rows = announced ++ unannounced)
    (hbf : ∀ event ∈ buffered, ∃ row ∈ announced, wanted filters fromSeq row = true ∧ mapRow reader row = event) :
    Standing reader filters fromSeq nextHrcSeq announced unannounced
      (some (startStream reader filters fromSeq rows ⟨false, fromSeq.value - 1, buffered, []⟩)) := by
  have hwt : (((rows.filter (wanted filters fromSeq)).map (mapRow reader)).getLast?.map (·.hrcSeq)) =
      (rows.filter (wanted filters fromSeq)).getLast?.map (·.hrcSeq) := by
    rw [List.getLast?_map, Option.map_map]
    rfl
  have hc : ∀ row ∈ rows, wanted filters fromSeq row = true →
      row.hrcSeq ≤ ((rows.filter (wanted filters fromSeq)).getLast?.map (·.hrcSeq)).getD (fromSeq.value - 1) :=
    fun row hr hw => le_replayHighWater (hasc.filter _) (List.mem_filter.mpr ⟨hr, hw⟩) _
  have hnn : buffered.filter (fun event => decide (event.hrcSeq >
      ((rows.filter (wanted filters fromSeq)).getLast?.map (·.hrcSeq)).getD (fromSeq.value - 1))) = [] := by
    refine List.filter_eq_nil_iff.mpr fun event hev => ?_
    obtain ⟨row, hr, hw, rfl⟩ := hbf event hev
    have := hc row (by rw [hrw]; exact List.mem_append_left _ hr) hw
    simpa using this
  simp only [startStream, listFromHrcSeq_eq hasc, hwt, hnn, append_nil]
  refine .live (append_nil _).symm (by rw [← hrw]) (fun row hr hw => ?_)
    (fun row hr => by cases hr) fun seq hn hf => ?_
  · exact hc row (by rw [hrw]; exact List.mem_append_right _ hr) hw
  · cases hl : (rows.filter (wanted filters fromSeq)).getLast? with
    | none =>
      have := fromSeq.positive
      simp only [Option.map_none, Option.getD_none]
      omega
    | some last =>
      have := hblw last (List.mem_of_mem_filter (List.mem_of_getLast? hl))
      simp only [Option.map_some, Option.getD_some]
      omega

section Steps

variable {s : Feed} {announced unannounced : List HrcEventRow} {row : HrcEventRow}

theorem Inv.append (hi : Inv reader filters fromSeq s) (hrow : Coincides reader filters row) :
    Inv reader filters fromSeq (step reader filters fromSeq (.append row) s) := by
  obtain ⟨hasc, hblw, hc, announced, unannounced, hrw, hp, hstd⟩ := hi
  have hsto : Coincides reader filters { row with hrcSeq := s.nextHrcSeq } := hrow
  refine ⟨?_, fun r hr => ?_, fun r hr => ?_, announced, unannounced ++ [{ row with hrcSeq := s.nextHrcSeq }], ?_, ?_, ?_⟩
  · exact List.pairwise_append.mpr ⟨hasc, List.pairwise_singleton _ _, fun a ha b hb => by
      rw [mem_singleton.mp hb]
      exact hblw a ha⟩
  · rcases List.mem_append.mp hr with hr | hr
    · exact Nat.lt_succ_of_lt (hblw r hr)
    · rw [mem_singleton.mp hr]
      exact Nat.lt_succ_self _
  · rcases List.mem_append.mp hr with hr | hr
    · exact hc r hr
    · rw [mem_singleton.mp hr]
      exact hsto
  · simp only [step, hrw, append_assoc]
  · simp only [step, hp, map_append, List.map_cons, List.map_nil]
  · change Standing reader filters fromSeq _ announced _ s.stream
    cases hstr : s.stream with
    | none => exact .none
    | some stream =>
      rw [hstr] at hstd
      cases hstd with
      | buffering hbf => exact .buffering hbf
      | @live replayHighWater buffered enqueued replayed later hsp he hrp hl hn =>
        have hs' : unannounced ++ [{ row with hrcSeq := s.nextHrcSeq }] =
            replayed ++ (later ++ [{ row with hrcSeq := s.nextHrcSeq }]) := by rw [hsp, append_assoc]
        refine .live hs' he hrp ?_ ?_
        · intro r hr hw
          rcases List.mem_append.mp hr with hr | hr
          · exact hl r hr hw
          · rw [mem_singleton.mp hr] at hw ⊢
            simp only [wanted, Bool.and_eq_true, decide_eq_true_eq] at hw
            exact hn _ (Nat.le_refl _) hw.1
        · exact fun seq hs => hn seq (Nat.le_of_succ_le hs)

theorem Standing.announce {r : HrcEventRow} {rest : List HrcEventRow} {stream : FollowStream} {nextHrcSeq : Nat}
    (hc : Coincides reader filters r)
    (h : Standing reader filters fromSeq nextHrcSeq announced (r :: rest) (some stream)) :
    Standing reader filters fromSeq nextHrcSeq (announced ++ [r]) rest (some (subscriber filters fromSeq (mapRow reader r) stream)) := by
  rw [subscriber_eq hc]
  cases h with
  | @buffering buffered hbf =>
    have hold : ∀ event ∈ buffered, ∃ row ∈ announced ++ [r], wanted filters fromSeq row = true ∧ mapRow reader row = event :=
      fun event hev => by
        obtain ⟨row, hrow, hrs⟩ := hbf event hev
        exact ⟨row, List.mem_append_left _ hrow, hrs⟩
    cases hw : wanted filters fromSeq r with
    | false => exact .buffering hold
    | true =>
      simp only [if_true, Bool.false_eq_true, if_false]
      refine .buffering fun event hev => ?_
      rcases List.mem_append.mp hev with hev | hev
      · exact hold event hev
      · exact ⟨r, List.mem_append_right _ (List.mem_singleton_self r), hw, (mem_singleton.mp hev).symm⟩
  | @live replayHighWater buffered enqueued replayed later hsp he hr hl hn' =>
    cases replayed with
    | cons r' replayed =>
      obtain ⟨rfl, rfl⟩ := List.cons.inj hsp
      have hd : (if wanted filters fromSeq r = true then
          if (FollowStream.mk true replayHighWater buffered enqueued).streamStarted = true then
            if r.hrcSeq > replayHighWater then
              FollowStream.mk true replayHighWater buffered (enqueued ++ [mapRow reader r])
            else ⟨true, replayHighWater, buffered, enqueued⟩
          else ⟨true, replayHighWater, buffered ++ [mapRow reader r], enqueued⟩
          else ⟨true, replayHighWater, buffered, enqueued⟩) = ⟨true, replayHighWater, buffered, enqueued⟩ := by
        split
        · rename_i hw
          have hle := hr r mem_cons_self hw
          rw [if_pos rfl, if_neg (Nat.not_lt.mpr hle)]
        · rfl
      rw [hd]
      refine .live rfl ?_ (fun row hrow => hr row (List.mem_cons_of_mem _ hrow)) hl hn'
      rw [he, append_assoc]
      rfl
    | nil =>
      have hl' : later = r :: rest := hsp.symm
      subst hl'
      rw [append_nil] at he
      have hrs : ∀ row ∈ rest, wanted filters fromSeq row = true → replayHighWater < row.hrcSeq :=
        fun row hrow => hl row (List.mem_cons_of_mem _ hrow)
      cases hw : wanted filters fromSeq r with
      | true =>
        simp only [if_true, if_pos (hl r mem_cons_self hw)]
        refine .live (List.nil_append _).symm ?_ (fun row hrow => by cases hrow) hrs hn'
        rw [he, append_nil, filter_append, map_append, List.filter_cons_of_pos hw]
        rfl
      | false =>
        simp only [Bool.false_eq_true, if_false]
        refine .live (List.nil_append _).symm ?_ (fun row hrow => by cases hrow) hrs hn'
        rw [he, append_nil, filter_append, map_append,
          List.filter_cons_of_neg (by simp [hw])]
        exact (append_nil _).symm

theorem Inv.announce (hi : Inv reader filters fromSeq s) :
    Inv reader filters fromSeq (step reader filters fromSeq .announce s) := by
  obtain ⟨hasc, hblw, hc, announced, unannounced, hrw, hp, hs⟩ := hi
  cases unannounced with
  | nil =>
    simp only [step, hp, List.map_nil]
    exact ⟨hasc, hblw, hc, announced, [], hrw, hp, hs⟩
  | cons r rest =>
    have hr : Coincides reader filters r := hc r (by rw [hrw]; exact List.mem_append_right _ mem_cons_self)
    simp only [step, hp, List.map_cons]
    refine ⟨hasc, hblw, hc, announced ++ [r], rest, by rw [append_assoc]; exact hrw, rfl, ?_⟩
    dsimp only
    cases hstr : s.stream with
    | none => exact .none
    | some stream =>
      rw [hstr] at hs
      exact hs.announce hr

theorem Inv.subscribe (hi : Inv reader filters fromSeq s) :
    Inv reader filters fromSeq (step reader filters fromSeq .subscribe s) := by
  obtain ⟨hasc, hblw, hc, announced, unannounced, hrw, hp, hs⟩ := hi
  refine ⟨hasc, hblw, hc, announced, unannounced, hrw, hp, ?_⟩
  simp only [step]
  cases hstr : s.stream with
  | none => exact .buffering fun event hev => (by cases hev)
  | some stream =>
    rw [hstr] at hs
    cases hs with
    | buffering hbf => exact .buffering hbf
    | live hsp he hr hl hn => exact .live hsp he hr hl hn

theorem Inv.start (hi : Inv reader filters fromSeq s) :
    Inv reader filters fromSeq (step reader filters fromSeq .start s) := by
  obtain ⟨hasc, hblw, hc, announced, unannounced, hrw, hp, hs⟩ := hi
  refine ⟨hasc, hblw, hc, announced, unannounced, hrw, hp, ?_⟩
  simp only [step]
  cases hstr : s.stream with
  | none => exact .none
  | some stream =>
    rw [hstr] at hs
    cases hs with
    | live hsp he hr hl hn => exact .live hsp he hr hl hn
    | @buffering buffered hbf =>
      exact startStream_live hasc hblw hrw hbf

theorem Inv.step (hi : Inv reader filters fromSeq s) {a : Action}
    (ha : ∀ row, a = .append row → Coincides reader filters row) : Inv reader filters fromSeq (step reader filters fromSeq a s) := by
  cases a with
  | append row => exact hi.append (ha row rfl)
  | announce => exact hi.announce
  | subscribe => exact hi.subscribe
  | start => exact hi.start

theorem inv_run {actions : List Action} (h : ∀ row, Action.append row ∈ actions → Coincides reader filters row)
    (hi : Inv reader filters fromSeq s) : Inv reader filters fromSeq (run (EventFollow.step reader filters fromSeq) actions s) := by
  induction actions generalizing s with
  | nil => exact hi
  | cons a actions ih =>
    refine ih (fun row hr => h row (List.mem_cons_of_mem _ hr)) (hi.step fun row ha => h row ?_)
    rw [ha]
    exact mem_cons_self

end Steps

end Follow

/-- The two filters agree on a row exactly where it coincides; and where every row appended does, a stream gives, in
the ledger's order, the wanted rows announced so far, and all of them once nothing is left to announce. -/
theorem follow_filters (reader : RowReader) (filters : HrcEventsRouteFilters) (fromSeq : FromSeq) :
    (∀ row, buildLifecycleWhere filters row = matchesHrcLifecycleEventFilter (mapRow reader row) filters ↔
      Coincides reader filters row) ∧
    ∀ actions : List Action, (∀ row, Action.append row ∈ actions → Coincides reader filters row) →
      let s := run (step reader filters fromSeq) actions {}
      ∀ stream, s.stream = some stream → stream.streamStarted = true →
        stream.enqueued <+: (s.rows.filter (wanted filters fromSeq)).map (mapRow reader) ∧
          (s.pending = [] → stream.enqueued = (s.rows.filter (wanted filters fromSeq)).map (mapRow reader)) := by
  refine ⟨fun row => agree_iff reader, ?_⟩
  intro actions h s stream hstr hst
  have hs : Inv reader filters fromSeq {} :=
    ⟨List.Pairwise.nil, fun _ hr => (by cases hr), fun _ hr => (by cases hr), [], [], rfl, rfl, .none⟩
  obtain ⟨-, -, -, announced, unannounced, hrw, hp, hstd⟩ := inv_run h hs
  change s.rows = _ at hrw
  change s.pending = _ at hp
  change Standing _ _ _ _ _ _ s.stream at hstd
  rw [hstr] at hstd
  cases hstd with
  | buffering => cases hst
  | @live replayHighWater buffered enqueued replayed later hsp henq =>
    rw [hrw, hsp, ← append_assoc, filter_append, map_append]
    refine ⟨henq ▸ List.prefix_append _ _, fun he => ?_⟩
    rw [he] at hp
    have hn : unannounced = [] := List.map_eq_nil_iff.mp hp.symm
    rw [hn] at hsp
    obtain ⟨-, rfl⟩ := List.append_eq_nil_iff.mp hsp.symm
    exact henq.trans (append_nil _).symm

namespace Sample

/-- The spelling of lanes that `canonicalLaneRef` gives. -/
def canonicalLaneRef (laneRef : String) : String :=
  if laneRef = "main" ∨ laneRef = "lane:main" then "main"
  else if "lane:".toList.isPrefixOf laneRef.toList then laneRef
  else "lane:" ++ laneRef

def reader : RowReader := ⟨canonicalLaneRef, fun _ => .obj .nil, fun _ _ => none⟩

def row (laneRef : String) : HrcEventRow where
  hrcSeq := 0
  streamSeq := 0
  ts := "2026-08-11T12:00:00.000Z"
  hostSessionId := "hsid-1"
  scopeRef := "agent:cody:project:hrc"
  laneRef := laneRef
  generation := 1
  category := "turn"
  eventKind := "turn.started"

def fromSeq : FromSeq := ⟨1, by decide⟩

def actions (laneRef : String) : List Action :=
  [.append (row laneRef), .announce, .subscribe, .start, .append (row laneRef), .announce]

end Sample

/-- A follower of the main lane is given both rows. -/
theorem follow_filters_main :
    let s := run (step Sample.reader { laneRef := some "main" } Sample.fromSeq) (Sample.actions "main") {}
    s.pending = [] ∧ ∃ stream, s.stream = some stream ∧ stream.streamStarted = true ∧
      stream.enqueued = (s.rows.filter (wanted { laneRef := some "main" } Sample.fromSeq)).map (mapRow Sample.reader) := by
  intro s
  obtain ⟨stream, hstr, hs⟩ : ∃ stream, s.stream = some stream ∧ stream.streamStarted = true :=
    ⟨_, rfl, rfl⟩
  have hc : ∀ row, Action.append row ∈ Sample.actions "main" → Coincides Sample.reader { laneRef := some "main" } row := by
    intro row hr
    have hr : row = Sample.row "main" := by simpa [Sample.actions] using hr
    rw [hr]
    exact (agree_iff _).mp (by decide +kernel)
  have hp : s.pending = [] := rfl
  have h := (follow_filters Sample.reader { laneRef := some "main" } Sample.fromSeq).2 _ hc stream hstr hs
  exact ⟨hp, stream, hstr, hs, h.2 hp⟩

/-- A follower of the lane as it is stored is given the row before the hand-over and not the one after it. -/
theorem follow_loses_lane :
    let filters : HrcEventsRouteFilters := { laneRef := some "repair" }
    let s := run (step Sample.reader filters Sample.fromSeq) (Sample.actions "repair") {}
    s.pending = [] ∧ (s.rows.map fun row => (row.hrcSeq, buildLifecycleWhere filters row)) = [(1, true), (2, true)] ∧
      (s.stream.map fun stream => stream.enqueued.map (·.hrcSeq)) = some [1] ∧
      (s.rows.map fun row => matchesHrcLifecycleEventFilter (mapRow Sample.reader row) filters) = [false, false] := by
  decide +kernel

end HrcRuntime.EventFollow
