import HrcRuntime.MessageProjection
import HrcRuntime.Schedule

namespace HrcRuntime.MessageBuffer

open Json Records Relational Database Program Mapper Repositories Context LifecyclePayload
open MessageProjection Schedule
open List (flatten_cons length_append suffix_append mem_singleton append_nil not_mem_nil)

section Tails

variable {chunks : List (List Char)} {text : List Char}

theorem length_le_flatten (hf : ∀ c ∈ chunks, c ≠ []) : chunks.length ≤ chunks.flatten.length := by
  induction chunks with
  | nil => exact Nat.zero_le _
  | cons c tail ih =>
    have hc := List.length_pos_iff.mpr (hf c List.mem_cons_self)
    have hr := ih fun d hd => hf d (List.mem_cons_of_mem _ hd)
    rw [flatten_cons, length_append, List.length_cons]
    omega

theorem le_tail (hf : ∀ c ∈ chunks, c ≠ []) {limit : Nat} (h : limit ≤ chunks.length) :
    limit ≤ (chunks.drop (chunks.length - limit)).flatten.length := by
  have hl : (chunks.drop (chunks.length - limit)).length = limit := by
    rw [List.length_drop]
    omega
  have ht := length_le_flatten (fun c hc => hf c (List.mem_of_mem_drop hc) :
    ∀ c ∈ chunks.drop (chunks.length - limit), c ≠ [])
  omega

theorem suffix_tail (hf : ∀ c ∈ chunks, c ≠ []) {limit : Nat} (h : text.length ≤ limit) :
    text <:+ (chunks.drop (chunks.length - limit)).flatten ↔ text <:+ chunks.flatten := by
  have hsp : chunks.flatten = (chunks.take (chunks.length - limit)).flatten ++
      (chunks.drop (chunks.length - limit)).flatten := by
    rw [← List.flatten_append, List.take_append_drop]
  constructor
  · intro hsf
    rw [hsp]
    exact hsf.trans (suffix_append _ _)
  · intro hsf
    rcases Nat.lt_or_ge chunks.length limit with hs | hl
    · rw [show chunks.length - limit = 0 by omega, List.drop_zero]
      exact hsf
    · rw [hsp] at hsf
      have hr := le_tail hf hl
      exact List.suffix_of_suffix_length_le hsf (suffix_append _ _) (by omega)

theorem toList_foldl (texts : List String) (start : String) :
    (texts.foldl (fun r s => r ++ s) start).toList = start.toList ++ (texts.map String.toList).flatten := by
  induction texts generalizing start with
  | nil => simp
  | cons t texts ih =>
    rw [List.foldl_cons, ih, String.toList_append, List.map_cons, flatten_cons, List.append_assoc]

theorem toList_join (texts : List String) : (String.join texts).toList = (texts.map String.toList).flatten :=
  toList_foldl texts ""

theorem utf16Length_pos (c : Char) : 1 ≤ utf16Length c := by
  unfold utf16Length
  split <;> omega

theorem length_le_units (text : List Char) (n : Nat) :
    n + text.length ≤ text.foldl (fun length c => length + utf16Length c) n := by
  induction text generalizing n with
  | nil => exact Nat.le_refl _
  | cons c text ih =>
    have hc := utf16Length_pos c
    have hr := ih (n + utf16Length c)
    rw [List.foldl_cons, List.length_cons]
    omega

end Tails

def bufferText (db : Db) (run : String) : List Char := ((bufferChunks db run).map fun c => c.text.toList).flatten

inductive Holds : List String → List Char → Prop
  | nil (buffer : List Char) : Holds [] buffer
  | cons {message : String} {earlier : List String} {before : List Char} (h : Holds earlier before)
      (after : List Char) : Holds (message :: earlier) (before ++ message.toList ++ after)

namespace Holds

variable {said : List String} {buffer : List Char}

theorem append (h : Holds said buffer) (more : List Char) : Holds said (buffer ++ more) := by
  cases h with
  | nil => exact .nil _
  | cons he after =>
    rw [List.append_assoc]
    exact .cons he (after ++ more)

theorem length_le (h : Holds said buffer) : (said.map String.toList).flatten.length ≤ buffer.length := by
  induction h with
  | nil => exact Nat.zero_le _
  | cons h after ih =>
    simp only [List.map_cons, flatten_cons, length_append]
    omega

end Holds

structure Sound (run : String) (m : BrokerEventMapper) : Prop where
  full : ∀ c ∈ bufferChunks m.db run, c.text ≠ ""
  next : ∀ n, m.nextBufferChunkSeqByRunId run = some n → ∀ c ∈ bufferChunks m.db run, c.chunkSeq < n

section Chunks

variable {db db' : Db} {run : String} {row : HrcRuntimeBufferRecord} {m : BrokerEventMapper}

theorem mem_bufferChunks {c : HrcRuntimeBufferRecord} :
    c ∈ bufferChunks db run ↔ c ∈ db.runtimeBuffers.rows ∧ c.runId = run := by
  unfold bufferChunks
  rw [mem_orderBy, List.mem_filter, beq_iff_eq]

theorem bufferEndsWith_iff (hf : ∀ c ∈ bufferChunks db run, c.text ≠ "") (text : String) :
    bufferEndsWith db run text = true ↔ text.toList <:+ bufferText db run := by
  unfold bufferEndsWith bufferText listTailByRunId
  dsimp only
  rw [List.isSuffixOf_iff_suffix, toList_join, List.map_map, List.map_drop]
  have hl : (bufferChunks db run).length = ((bufferChunks db run).map fun c => c.text.toList).length :=
    (List.length_map _).symm
  rw [hl]
  apply suffix_tail
  · intro t ht
    obtain ⟨c, hc, rfl⟩ := List.mem_map.mp ht
    intro he
    exact hf c hc (String.toList_eq_nil_iff.mp he)
  · have hu := length_le_units text.toList 0
    omega

def Past (db : Db) (run : String) (n : Nat) : Prop := ∀ c ∈ bufferChunks db run, c.chunkSeq < n

theorem past_next (db : Db) (run : String) : Past db run (nextChunkSeqByRunId db run) := by
  intro c hc
  unfold nextChunkSeqByRunId
  obtain ⟨before, last, hsp⟩ := (List.eq_nil_or_concat' _).resolve_left (List.ne_nil_of_mem hc)
  rw [hsp, List.getLast?_concat]
  have hs : (bufferChunks db run).Pairwise fun a b => a.chunkSeq ≤ b.chunkSeq := pairwise_orderBy _ _
  rw [hsp] at hs hc
  rcases List.mem_append.mp hc with hc | hc
  · exact Nat.lt_succ_of_le ((List.pairwise_append.mp hs).2.2 c hc last List.mem_cons_self)
  · rw [mem_singleton.mp hc]
    exact Nat.lt_succ_self _

theorem past_chosen (h : Sound run m) :
    Past m.db run ((m.nextBufferChunkSeqByRunId run).getD (nextChunkSeqByRunId m.db run)) := by
  cases hc : m.nextBufferChunkSeqByRunId run with
  | none => exact past_next m.db run
  | some n => exact h.next n hc

theorem chunks_insert (hr : db'.runtimeBuffers.rows = db.runtimeBuffers.rows ++ [row])
    (hp : row.runId = run → Past db run row.chunkSeq) :
    bufferChunks db' run = bufferChunks db run ++ (if row.runId = run then [row] else []) := by
  unfold bufferChunks
  rw [hr, List.filter_append]
  by_cases hrun : row.runId = run
  · rw [if_pos hrun, List.filter_cons_of_pos (by simpa using hrun), List.filter_nil]
    apply orderBy_concat
    intro c hc
    exact Nat.le_of_lt (hp hrun c (mem_orderBy.mpr hc))
  · rw [if_neg hrun, List.filter_cons_of_neg (by simpa using hrun), List.filter_nil, append_nil, append_nil]

theorem insertBuffer_eq : (Write.insertBuffer row).run db =
    Write.store "runtime_buffers" (db.runtimeBuffers.insert row) fun t => { db with runtimeBuffers := t } := rfl

theorem insertBuffer_rows (h : (Write.insertBuffer row).run db = .ok db') :
    db'.runtimeBuffers.rows = db.runtimeBuffers.rows ++ [row] := by
  rw [insertBuffer_eq, Write.store_eq_ok] at h
  obtain ⟨t, hi, rfl⟩ := h
  exact insert_rows hi

theorem insertBuffer_run (hp : Past db row.runId row.chunkSeq) : ∃ db', (Write.insertBuffer row).run db = .ok db' := by
  have hu : Unique [fun r : HrcRuntimeBufferRecord => some (r.runId, r.chunkSeq)] (db.runtimeBuffers.rows ++ [row]) := by
    refine List.pairwise_append.mpr ⟨db.runtimeBuffers.unique, List.pairwise_singleton _ _, fun a ha b hb => ?_⟩
    obtain rfl := mem_singleton.mp hb
    intro ix hix hc
    obtain rfl := mem_singleton.mp hix
    obtain ⟨hr, hs⟩ := Prod.mk.inj (Option.some.inj hc.2)
    have hlt := hp a (mem_bufferChunks.mpr ⟨ha, hr⟩)
    omega
  have hi : db.runtimeBuffers.insert row = some ⟨_, hu⟩ := dif_pos hu
  rw [insertBuffer_eq, hi]
  exact ⟨_, rfl⟩

end Chunks

section Appends

variable [Host] {run : String} {ctx : ProjectionContext} {text now : String} {m m' : BrokerEventMapper}

def chunkOf (m : BrokerEventMapper) (ctx : ProjectionContext) (runId text now : String) : HrcRuntimeBufferRecord :=
  { runtimeId := ctx.runtimeId, runId, text, createdAt := now
    chunkSeq := (m.nextBufferChunkSeqByRunId runId).getD (nextChunkSeqByRunId m.db runId) }

def stored (m : BrokerEventMapper) (db : Db) (row : HrcRuntimeBufferRecord) : BrokerEventMapper :=
  { m with
    tick := m.tick + 1
    db
    nextBufferChunkSeqByRunId := Function.update m.nextBufferChunkSeqByRunId row.runId (some (row.chunkSeq + 1)) }

inductive Appends (ctx : ProjectionContext) (text now : String) (m : BrokerEventMapper) :
    Except HrcError Unit × BrokerEventMapper → Prop
  | nothing (h : ctx.runId = none ∨ text = "") : Appends ctx text now m (.ok (), m)
  | chunk {runId : String} {db : Db} (hrun : ctx.runId = some runId) (htext : text ≠ "")
      (h : (Write.insertBuffer (chunkOf m ctx runId text now)).run m.db = .ok db) :
      Appends ctx text now m (.ok (), stored m db (chunkOf m ctx runId text now))
  | thrown {e : HrcError} {runId : String} (hrun : ctx.runId = some runId)
      (h : Host.fault m.tick = some e ∨ (Write.insertBuffer (chunkOf m ctx runId text now)).run m.db = .error e) :
      Appends ctx text now m (.error e, { m with tick := m.tick + 1 })

theorem appendBuffer_eq {runId : String} (hr : ctx.runId = some runId) (ht : text ≠ "") :
    appendBuffer ctx text now m = (statement (.insertBuffer (chunkOf m ctx runId text now)) >>= fun _ =>
      Prog.modify fun s => { s with
        nextBufferChunkSeqByRunId :=
          Function.update s.nextBufferChunkSeqByRunId runId (some ((chunkOf m ctx runId text now).chunkSeq + 1)) }) m := by
  unfold appendBuffer
  rw [hr]
  dsimp only
  rw [if_neg fun he => ht (String.isEmpty_iff.mp he), read_bind]
  rfl

theorem appendBuffer_appends : Appends ctx text now m (appendBuffer ctx text now m) := by
  cases hr : ctx.runId with
  | none =>
    have hn : appendBuffer ctx text now m = (.ok (), m) := by
      unfold appendBuffer
      rw [hr]
      rfl
    rw [hn]
    exact .nothing (.inl hr)
  | some runId =>
    by_cases ht : text = ""
    · have hn : appendBuffer ctx text now m = (.ok (), m) := by
        unfold appendBuffer
        rw [hr, ht]
        rfl
      rw [hn]
      exact .nothing (.inr ht)
    · rw [appendBuffer_eq hr ht]
      cases hf : Host.fault m.tick with
      | some e =>
        have hs : statement (.insertBuffer (chunkOf m ctx runId text now)) m =
            (.error e, { m with tick := m.tick + 1 }) := bind_error (effect_thrown hf)
        rw [bind_error hs]
        exact .thrown hr (.inl hf)
      | none =>
        cases hwr : (Write.insertBuffer (chunkOf m ctx runId text now)).run m.db with
        | error e =>
          have hs : statement (.insertBuffer (chunkOf m ctx runId text now)) m =
              (.error e, { m with tick := m.tick + 1 }) := by
            unfold statement
            rw [bind_ok (effect_done hf)]
            unfold runStatement
            rw [hwr]
          rw [bind_error hs]
          exact .thrown hr (.inr hwr)
        | ok db =>
          have hs : statement (.insertBuffer (chunkOf m ctx runId text now)) m =
              (.ok (), { m with
                tick := m.tick + 1
                db }) := by
            unfold statement
            rw [bind_ok (effect_done hf)]
            unfold runStatement
            rw [hwr]
          rw [bind_ok hs]
          exact .chunk hr ht hwr

omit [Host] in
theorem past_chunkOf (h : Sound run m) : Past m.db run (chunkOf m ctx run text now).chunkSeq := past_chosen h

omit [Host] in
theorem sound_stored {runId : String} {db : Db} (h : Sound run m) (ht : text ≠ "")
    (hr : (Write.insertBuffer (chunkOf m ctx runId text now)).run m.db = .ok db) :
    bufferChunks db run = bufferChunks m.db run ++ (if runId = run then [chunkOf m ctx runId text now] else []) ∧
      Sound run (stored m db (chunkOf m ctx runId text now)) := by
  have hch : bufferChunks db run =
      bufferChunks m.db run ++ (if runId = run then [chunkOf m ctx runId text now] else []) :=
    chunks_insert (insertBuffer_rows hr) fun heq => by
      obtain rfl : runId = run := heq
      exact past_chunkOf h
  refine ⟨hch, ⟨fun c hc => ?_, fun n hn c hc => ?_⟩⟩
  · have hc : c ∈ bufferChunks db run := hc
    rw [hch] at hc
    rcases List.mem_append.mp hc with hc | hc
    · exact h.full c hc
    · split at hc
      · rw [mem_singleton.mp hc]
        exact ht
      · cases hc
  · have hc : c ∈ bufferChunks db run := hc
    have hn : Function.update m.nextBufferChunkSeqByRunId runId
      (some ((chunkOf m ctx runId text now).chunkSeq + 1)) run = some n := hn
    rw [hch] at hc
    by_cases hs : runId = run
    · subst hs
      rw [Function.update_self] at hn
      obtain rfl := Option.some.inj hn
      rw [if_pos rfl] at hc
      rcases List.mem_append.mp hc with hc | hc
      · exact Nat.lt_succ_of_lt (past_chunkOf h c hc)
      · rw [mem_singleton.mp hc]
        exact Nat.lt_succ_self _
    · rw [Function.update_of_ne (Ne.symm hs)] at hn
      rw [if_neg hs, append_nil] at hc
      exact h.next n hn c hc

theorem appendBuffer_ok {u : Unit} (h : Sound run m) (happ : appendBuffer ctx text now m = (.ok u, m')) :
    Sound run m' ∧ bufferText m'.db run = bufferText m.db run ++ (if ctx.runId = some run then text.toList else []) := by
  have hc : Appends ctx text now m (appendBuffer ctx text now m) := appendBuffer_appends
  rw [happ] at hc
  cases hc with
  | nothing hn =>
    refine ⟨h, ?_⟩
    rcases hn with hn | rfl
    · rw [hn, if_neg (by simp), append_nil]
    · simp
  | @chunk runId db hr htx hwr =>
    obtain ⟨hch, hsnd⟩ := sound_stored h htx hwr
    refine ⟨hsnd, ?_⟩
    have ht : bufferText db run = bufferText m.db run ++ (if ctx.runId = some run then text.toList else []) := by
      unfold bufferText
      rw [hch, List.map_append, List.flatten_append, hr]
      by_cases hs : runId = run
      · rw [if_pos hs, if_pos (congrArg some hs)]
        simp [chunkOf]
      · rw [if_neg hs, if_neg fun heq => hs (Option.some.inj heq)]
        rfl
    exact ht

end Appends

def completedText (run : String) (envelope : InvocationEventEnvelope) (ctx : ProjectionContext) (m : BrokerEventMapper) :
    Option String :=
  if envelope.type = .assistantMessageCompleted ∧ ctx.runId = some run then (assistantText envelope.payload m).1.toOption
  else none

section Projection

variable [Host] {run : String} {envelope : InvocationEventEnvelope} {ctx : ProjectionContext} {now : String}
  {m m' : BrokerEventMapper}

structure Projected (run : String) (envelope : InvocationEventEnvelope) (ctx : ProjectionContext)
    (m m' : BrokerEventMapper) : Prop where
  sound : Sound run m'
  adds : ∃ added, bufferText m'.db run = bufferText m.db run ++ added ∧
    ∀ text, completedText run envelope ctx m = some text →
      added = text.toList ∨ text.toList <:+ bufferText m.db run ∧ added = []

omit [Host] in
theorem Projected.refl (h : Sound run m) (hs : ∀ text, completedText run envelope ctx m = some text →
    text.toList <:+ bufferText m.db run) : Projected run envelope ctx m m :=
  ⟨h, [], (append_nil _).symm, fun text ht => .inr ⟨hs text ht, rfl⟩⟩

variable {u : Unit}

theorem Projected.of_append {text : String} (h : Sound run m) (happ : appendBuffer ctx text now m = (.ok u, m'))
    (hs : ∀ said, completedText run envelope ctx m = some said → said = text) : Projected run envelope ctx m m' := by
  obtain ⟨hsnd, had⟩ := appendBuffer_ok h happ
  refine ⟨hsnd, _, had, fun said hd => .inl ?_⟩
  have hr : ctx.runId = some run := by
    unfold completedText at hd
    split at hd
    · rename_i ht
      exact ht.2
    · cases hd
  rw [if_pos hr, hs said hd]

omit [Host] in
theorem completedText_other (h : envelope.type ≠ .assistantMessageCompleted) (text : String) :
    completedText run envelope ctx m ≠ some text := by
  unfold completedText
  rw [if_neg fun hbt => h hbt.1]
  intro hs
  cases hs

theorem completed_projected {text : String} (h : Sound run m)
    (hs : ∀ said, completedText run envelope ctx m = some said → said = text ∧ ctx.runId = some run)
    (happ : appendCompletedMessageBuffer ctx text now m = (.ok u, m')) : Projected run envelope ctx m m' := by
  unfold appendCompletedMessageBuffer at happ
  cases hr : ctx.runId with
  | none =>
    rw [hr] at happ
    cases happ
    exact .refl h fun said hd => by cases hr.symm.trans (hs said hd).2
  | some runId =>
    rw [hr] at happ
    dsimp only at happ
    split at happ
    · rename_i he
      cases happ
      refine .refl h fun said hd => ?_
      rw [(hs said hd).1, String.isEmpty_iff.mp he]
      exact List.nil_suffix
    · rw [query_bind] at happ
      split at happ
      · rename_i hp
        cases happ
        refine .refl h fun said hd => ?_
        obtain ⟨rfl, hsm⟩ := hs said hd
        obtain rfl : runId = run := Option.some.inj (hr.symm.trans hsm)
        exact (bufferEndsWith_iff h.full said).mp hp
      · exact .of_append h happ fun said hd => (hs said hd).1

theorem completed_event_projected (h : Sound run m)
    (hp : (assistantText envelope.payload >>= fun text => appendCompletedMessageBuffer ctx text now) m = (.ok u, m')) :
    Projected run envelope ctx m m' := by
  obtain ⟨text, m₁, hr, happ⟩ := bind_eq_ok.mp hp
  obtain rfl := (assistantText_readOnly _).state hr
  refine completed_projected h (fun said hd => ?_) happ
  unfold completedText at hd
  split at hd
  · rename_i ht
    rw [hr] at hd
    exact ⟨(Option.some.inj hd).symm, ht.2⟩
  · cases hd

def Adds (run : String) (p : M Unit) : Prop := ∀ m u m', Sound run m → p m = (.ok u, m') →
  Sound run m' ∧ ∃ added, bufferText m'.db run = bufferText m.db run ++ added

omit [Host] in
theorem Adds.pure : Adds run (pure ()) := by
  intro m u m' h hr
  cases hr
  exact ⟨h, [], (append_nil _).symm⟩

omit [Host] in
theorem Adds.throw (e : HrcError) : Adds run (Prog.throw e) := fun _ _ _ _ hr => by cases hr

omit [Host] in
theorem Adds.bind_readOnly {α : Type} {p : M α} {f : α → M Unit} (hp : ReadOnly p) (hf : ∀ a, Adds run (f a)) :
    Adds run (p >>= f) := by
  intro m u m' h hrun
  obtain ⟨a, m₁, hr, hrs⟩ := bind_eq_ok.mp hrun
  obtain rfl := hp.state hr
  exact hf a _ _ _ h hrs

theorem appendBuffer_adds (text : String) : Adds run (appendBuffer ctx text now) := by
  intro m u m' h hr
  obtain ⟨hs, had⟩ := appendBuffer_ok h hr
  exact ⟨hs, _, had⟩

theorem projectMessage_adds (ht : envelope.type ≠ .assistantMessageCompleted) :
    Adds run (projectMessage envelope ctx now) := by
  unfold projectMessage
  split
  · rename_i hd
    exact absurd hd ht
  · refine Adds.bind_readOnly (property_readOnly _ _) fun text => ?_
    split
    · exact appendBuffer_adds _
    · exact Adds.throw _
  · unfold appendMessageBoundaryBuffer
    split
    · exact Adds.pure
    · refine Adds.bind_readOnly (query_readOnly _) fun tail => ?_
      split
      · exact Adds.pure
      · exact appendBuffer_adds _
  · exact Adds.pure

theorem projectMessage_ok (h : Sound run m) (hp : projectMessage envelope ctx now m = (.ok u, m')) :
    Projected run envelope ctx m m' := by
  by_cases ht : envelope.type = .assistantMessageCompleted
  · unfold projectMessage at hp
    rw [ht] at hp
    exact completed_event_projected h hp
  · obtain ⟨hs, added, had⟩ := projectMessage_adds ht _ _ _ h hp
    exact ⟨hs, added, had, fun said hd => absurd hd (completedText_other ht said)⟩

end Projection

structure Turn where
  mapper : BrokerEventMapper
  said : List String := []
  mark : Nat := 0

/-- What happens to a mapper: a message event of any run, projected in a transaction that is committed or not; the end of
a run's turn; a new mapper over the same database. -/
inductive Action where
  | message (envelope : InvocationEventEnvelope) (ctx : ProjectionContext) (now : String) (committed : Bool)
  | forget (runId : String)
  | restart

namespace Turn

def say (t : Turn) (run text : String) (mapper : BrokerEventMapper) : Turn :=
  { mapper
    said := text :: t.said
    mark := if text.isEmpty then t.mark else (bufferText mapper.db run).length }

def settle (t : Turn) (run : String) (said : Option String) (mapper : BrokerEventMapper) : Turn :=
  match said with
  | some text => t.say run text mapper
  | none => { t with mapper }

def rollBack (t : Turn) (mapper : BrokerEventMapper) : Turn :=
  { t with
    mapper := { mapper with
      db := t.mapper.db
      nextBufferChunkSeqByRunId := t.mapper.nextBufferChunkSeqByRunId } }

def commit (t : Turn) (run : String) (said : Option String) : Except HrcError Unit × BrokerEventMapper → Turn
  | (.ok _, mapper) => t.settle run said mapper
  | (.error _, mapper) => t.rollBack mapper

variable [Host]

def step (run : String) (t : Turn) : Action → Turn
  | .message envelope ctx now true =>
    t.commit run (completedText run envelope ctx t.mapper) (projectMessage envelope ctx now t.mapper)
  | .message envelope ctx now false => t.rollBack (projectMessage envelope ctx now t.mapper).2
  | .forget runId => { t with mapper := (forgetBufferChunkSeq runId t.mapper).2 }
  | .restart => { t with mapper := { t.mapper with nextBufferChunkSeqByRunId := fun _ => none } }

def streamed (run : String) (t : Turn) : Action → Bool
  | .message envelope ctx _ true =>
    (completedText run envelope ctx t.mapper).all fun text =>
      !bufferEndsWith t.mapper.db run text ||
        decide (text.toList.length + t.mark ≤ (bufferText t.mapper.db run).length)
  | _ => true

end Turn

structure Inv (run : String) (t : Turn) : Prop where
  sound : Sound run t.mapper
  mark_le : t.mark ≤ (bufferText t.mapper.db run).length
  held : Holds t.said ((bufferText t.mapper.db run).take t.mark)

namespace Inv

variable {run : String} {t : Turn} {mapper : BrokerEventMapper} {added : List Char}

theorem holds (h : Inv run t) : Holds t.said (bufferText t.mapper.db run) := by
  have happ := h.held.append ((bufferText t.mapper.db run).drop t.mark)
  rwa [List.take_append_drop] at happ

theorem grow (h : Inv run t) (hs : Sound run mapper)
    (had : bufferText mapper.db run = bufferText t.mapper.db run ++ added) : Inv run { t with mapper } := by
  refine ⟨hs, ?_, ?_⟩
  · have hle := h.mark_le
    change t.mark ≤ (bufferText mapper.db run).length
    rw [had, length_append]
    omega
  · change Holds t.said ((bufferText mapper.db run).take t.mark)
    rw [had, List.take_append_of_le_length h.mark_le]
    exact h.held

theorem rollBack (h : Inv run t) (mapper : BrokerEventMapper) : Inv run (t.rollBack mapper) :=
  ⟨⟨h.sound.full, h.sound.next⟩, h.mark_le, h.held⟩

theorem hold_last {said : List String} {text : String} {buffer : List Char} {mark : Nat}
    (hh : Holds said (buffer.take mark)) (he : text.toList <:+ buffer) (hr : text.toList.length + mark ≤ buffer.length) :
    Holds (text :: said) buffer := by
  obtain ⟨before, rfl⟩ := he
  rw [length_append] at hr
  rw [List.take_append_of_le_length (by omega)] at hh
  have hbef := hh.append (before.drop mark)
  rw [List.take_append_drop] at hbef
  have hc : Holds (text :: said) (before ++ text.toList ++ []) := .cons hbef []
  rwa [append_nil] at hc

theorem said {text : String} (h : Inv run t) (hsnd : Sound run mapper)
    (had : bufferText mapper.db run = bufferText t.mapper.db run ++ added)
    (hend : text.toList <:+ bufferText mapper.db run)
    (hr : text.toList.length + t.mark ≤ (bufferText mapper.db run).length) : Inv run (t.say run text mapper) := by
  have hgr := h.grow hsnd had
  by_cases he : text.isEmpty = true
  · have hs : t.say run text mapper = { t with
        mapper
        said := text :: t.said } := by
      unfold Turn.say
      rw [if_pos he]
    rw [hs]
    refine ⟨hsnd, hgr.mark_le, ?_⟩
    have hc : Holds (text :: t.said) ((bufferText mapper.db run).take t.mark ++ text.toList ++ []) := .cons hgr.held []
    rw [String.isEmpty_iff.mp he] at hc ⊢
    simpa using hc
  · have hs : t.say run text mapper = ⟨mapper, text :: t.said, (bufferText mapper.db run).length⟩ := by
      unfold Turn.say
      rw [if_neg he]
    rw [hs]
    refine ⟨hsnd, Nat.le_refl _, ?_⟩
    change Holds (text :: t.said) ((bufferText mapper.db run).take (bufferText mapper.db run).length)
    rw [List.take_length]
    exact hold_last hgr.held hend hr

end Inv

section Runs

variable [Host] {run : String}

variable {ctx : ProjectionContext}

variable {envelope : InvocationEventEnvelope} {m : BrokerEventMapper} {now : String}

theorem commit_inv {t : Turn}
    (h : Inv run t) (hstr : t.streamed run (.message envelope ctx now true) = true) :
    Inv run (t.step run (.message envelope ctx now true)) := by
  change Inv run (t.commit run (completedText run envelope ctx t.mapper) (projectMessage envelope ctx now t.mapper))
  rcases hp : projectMessage envelope ctx now t.mapper with ⟨e | u, mapper⟩
  · exact h.rollBack mapper
  · obtain ⟨hsnd, added, had, hs⟩ := projectMessage_ok h.sound hp
    have hall : (completedText run envelope ctx t.mapper).all (fun text => !bufferEndsWith t.mapper.db run text ||
        decide (text.toList.length + t.mark ≤ (bufferText t.mapper.db run).length)) = true := hstr
    cases hd : completedText run envelope ctx t.mapper with
    | none => exact h.grow hsnd had
    | some text =>
      rw [hd] at hall
      rcases hs text hd with rfl | ⟨he, rfl⟩
      · apply h.said hsnd had
        · rw [had]
          exact suffix_append _ _
        · have hle := h.mark_le
          rw [had, length_append]
          omega
      · have hen := (bufferEndsWith_iff h.sound.full text).mpr he
        have hr : text.toList.length + t.mark ≤ (bufferText t.mapper.db run).length := by
          simpa [hen] using hall
        apply h.said hsnd had
        · rw [had, append_nil]
          exact he
        · rw [had, append_nil]
          exact hr

theorem step_inv {t : Turn} {action : Action} (h : Inv run t) (hstr : t.streamed run action = true) :
    Inv run (t.step run action) := by
  cases action with
  | message envelope ctx now committed =>
    cases committed with
    | true => exact commit_inv h hstr
    | false => exact h.rollBack _
  | forget runId =>
    refine ⟨⟨h.sound.full, fun n hn c hc => ?_⟩, h.mark_le, h.held⟩
    have hn : Function.update t.mapper.nextBufferChunkSeqByRunId runId none run = some n := hn
    by_cases hs : run = runId
    · rw [hs, Function.update_self] at hn
      cases hn
    · rw [Function.update_of_ne hs] at hn
      exact h.sound.next n hn c hc
  | restart => exact ⟨⟨h.sound.full, fun n hn => by cases hn⟩, h.mark_le, h.held⟩

theorem appendBuffer_done {text : String}
    (h : ∀ runId, ctx.runId = some runId → Sound runId m) (hf : Host.fault m.tick = none) :
    ∃ m', appendBuffer ctx text now m = (.ok (), m') := by
  have hc : Appends ctx text now m (appendBuffer ctx text now m) := appendBuffer_appends
  generalize appendBuffer ctx text now m = outcome at hc
  cases hc with
  | nothing hn => exact ⟨_, rfl⟩
  | chunk hr ht hwr => exact ⟨_, rfl⟩
  | @thrown e runId hr hthr =>
    rcases hthr with hthr | hthr
    · cases hf.symm.trans hthr
    · have hs := h runId hr
      have hp : Past m.db runId (chunkOf m ctx runId text now).chunkSeq := past_chunkOf hs
      have hw : ∃ db, (Write.insertBuffer (chunkOf m ctx runId text now)).run m.db = .ok db := insertBuffer_run hp
      obtain ⟨db, hwr⟩ := hw
      cases hwr.symm.trans hthr

theorem completed_projects
    {text : String} (h : Sound run m) (hd : completedText run envelope ctx m = some text)
    (hf : Host.fault m.tick = none) : ∃ m', projectMessage envelope ctx now m = (.ok (), m') := by
  unfold completedText at hd
  split at hd
  · rename_i hbt
    obtain ⟨ht, hrun⟩ := hbt
    rcases hr : assistantText envelope.payload m with ⟨e | said, m₁⟩
    · rw [hr] at hd
      cases hd
    · obtain rfl := (assistantText_readOnly _).state hr
      unfold projectMessage
      rw [ht]
      dsimp only
      rw [bind_ok hr]
      unfold appendCompletedMessageBuffer
      rw [hrun]
      dsimp only
      split
      · exact ⟨_, rfl⟩
      · rw [query_bind]
        split
        · exact ⟨_, rfl⟩
        · refine appendBuffer_done (fun runId hs => ?_) hf
          obtain rfl := Option.some.inj (hrun.symm.trans hs)
          exact h
  · cases hd

/-- When each message is completed with an ending of the buffer only past the last message, the chunks of a run hold every
completed message, in order and as many times as it was said, and the next one is projected unless the database fails. -/
theorem completed_messages_kept (mapper : BrokerEventMapper) (actions : List Action)
    (hnew : ∀ c ∈ mapper.db.runtimeBuffers.rows, c.runId ≠ run)
    (hmeets : Meets (fun a t => Turn.step run t a) (fun t a => t.streamed run a = true) actions { mapper }) :
    let t := Schedule.run (fun a t => Turn.step run t a) actions { mapper }
    Holds t.said (bufferText t.mapper.db run) ∧
      ∀ envelope ctx now text, completedText run envelope ctx t.mapper = some text → Host.fault t.mapper.tick = none →
        ∃ mapper, projectMessage envelope ctx now t.mapper = (.ok (), mapper) := by
  have he : bufferChunks mapper.db run = [] :=
    List.eq_nil_iff_forall_not_mem.mpr fun c hc => hnew c (mem_bufferChunks.mp hc).1 (mem_bufferChunks.mp hc).2
  have hn (p : HrcRuntimeBufferRecord → Prop) : ∀ c ∈ bufferChunks mapper.db run, p c := by
    rw [he]
    exact fun c hc => absurd hc not_mem_nil
  have hs : Inv run { mapper } :=
    ⟨⟨hn _, fun n _ => hn _⟩, Nat.zero_le _, .nil _⟩
  have hi : Inv run (Schedule.run (fun a t => Turn.step run t a) actions { mapper }) :=
    run_invariant (fun _ _ => step_inv) hs hmeets
  exact ⟨hi.holds, fun envelope ctx now text hd hf => completed_projects hi.sound hd hf⟩

end Runs

namespace Sample

def ctx : ProjectionContext :=
  { runtimeId := "rt", hostSessionId := "host", scopeRef := "agent:a", laneRef := "main", generation := 1
    transport := .headless, operationId := "op", runId := some "run" }

def mapper : BrokerEventMapper := { db := {} }

def event (type : EventType) (payload : Json) : Action :=
  .message { invocationId := "inv", seq := 1, type, payload } ctx "now" true

def delta (text : String) : Action := event .assistantMessageDelta (Json.object [("text", some (.str text))])

def completed (text : String) : Action :=
  event .assistantMessageCompleted (Json.object [("content", some (Json.array
    [Json.object [("type", some (.str "text")), ("text", some (.str text))]]))])

def streamedTwice : List Action := [delta "o", delta "k", completed "ok", delta "ok", completed "ok"]

def saidTwice : List Action := [completed "ok", completed "ok"]

def steady (action : Action) (t : Turn) : Turn := @Turn.step steadyHost "run" t action

theorem streamed_meets : Meets steady (fun t a => t.streamed "run" a = true) streamedTwice { mapper } := by
  decide +kernel

theorem saidTwice_said : (Schedule.run steady saidTwice { mapper }).said = ["ok", "ok"] := by
  decide +kernel

theorem saidTwice_buffer : bufferText (Schedule.run steady saidTwice { mapper }).mapper.db "run" = ['o', 'k'] := by
  decide +kernel

end Sample

open Sample in
theorem completed_messages_kept_twice :
    Holds (Schedule.run steady streamedTwice { mapper }).said
      (bufferText (Schedule.run steady streamedTwice { mapper }).mapper.db "run") :=
  (@completed_messages_kept steadyHost "run" mapper streamedTwice (fun _ hc => absurd hc not_mem_nil)
    streamed_meets).1

open Sample in
/-- A completed message that repeats the last one is not buffered. -/
theorem repeated_message_lost :
    ¬ ∀ (host : Host) (run : String) (mapper : BrokerEventMapper) (actions : List Action),
        (∀ c ∈ mapper.db.runtimeBuffers.rows, c.runId ≠ run) →
        Holds (Schedule.run (fun a t => @Turn.step host run t a) actions { mapper }).said
          (bufferText (Schedule.run (fun a t => @Turn.step host run t a) actions { mapper }).mapper.db run) := by
  intro hclaim
  have hheld : Holds (Schedule.run steady saidTwice { mapper }).said
      (bufferText (Schedule.run steady saidTwice { mapper }).mapper.db "run") :=
    hclaim steadyHost "run" mapper saidTwice fun _ hc => absurd hc not_mem_nil
  have hlength := hheld.length_le
  rw [saidTwice_said, saidTwice_buffer] at hlength
  revert hlength
  decide

end HrcRuntime.MessageBuffer
