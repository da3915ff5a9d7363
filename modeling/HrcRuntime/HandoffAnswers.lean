import HrcRuntime.HandoffProgress

namespace HrcRuntime.HandoffFinalizer

open HandoffRecords Schedule

variable {s : State} {d : Draws} {active : Active}

theorem finalizeAll_stop {cs : List Candidate} (hr : ∀ c ∈ cs, s.db.runOf c.request.messageId = some (some c.run))
    (h : (finalizeAll d cs s).2 = false) : ∃ done c rest, cs = done ++ c :: rest ∧
      finalize d (finalizeAll d cs s).1 c = none ∧
        ∀ x ∈ done, (finalizeAll d cs s).1.db.answered x.request.messageId = true := by
  induction cs generalizing s with
  | nil => cases h
  | cons c cs ih =>
    unfold finalizeAll at h ⊢
    cases hc : finalize d s c with
    | none => exact ⟨[], c, cs, rfl, hc, fun _ hx => absurd hx List.not_mem_nil⟩
    | some s₁ =>
      rw [hc] at h
      obtain ⟨hf, hans⟩ := finalize_finalized (hr c List.mem_cons_self) hc
      have hruns₁ : ∀ c' ∈ cs, s₁.db.runOf c'.request.messageId = some (some c'.run) := by
        rw [hf.runOf]
        exact fun c' hc' => hr c' (List.mem_cons_of_mem _ hc')
      obtain ⟨done, c', rest, rfl, hn, hd⟩ := ih hruns₁ h
      refine ⟨c :: done, c', rest, rfl, hn, fun x hx => ?_⟩
      rcases List.mem_cons.mp hx with rfl | hx
      · exact (finalizeAll_finalized hruns₁).1.answered _ hans
      · exact hd x hx

theorem pump_stop (hr : Ready s.db active) (hrd : d.readsFail = false) (h : (pump d s active).2 = false) :
    (pump d s active).1.cursor = s.cursor ∧ ∃ done c rest,
      candidates s.db (requests s.db s.cursor active) = done ++ c :: rest ∧ finalize d (pump d s active).1 c = none ∧
        ∀ x ∈ done, (pump d s active).1.db.answered x.request.messageId = true := by
  have hrn := candidates_runOf hr
  have hp : pump d s active = finalizeAll d (candidates s.db (requests s.db s.cursor active)) s := by
    unfold pump at h ⊢
    rw [hrd] at h ⊢
    rw [if_neg Bool.false_ne_true] at h ⊢
    dsimp only at h ⊢
    split at h
    · cases h
    · rename_i hn
      rw [if_neg hn]
  rw [hp] at h ⊢
  exact ⟨(finalizeAll_finalized hrn).1.cursor, finalizeAll_stop hrn h⟩

/-- Over every run: no request is finalized twice; what a finalization stores is all there, and nothing else ends a
request that has a run; the cursor passes the end of an open request only while its delivery is marked in `active` or
about to be; a request whose delivery is over is resolved by the next pass that succeeds; and a pass that fails has
answered the candidates before the one that failed, and keeps its cursor. -/
theorem handoffs_answered {old : Database} (hold : Sound old) (actions : List Action) :
    let s := run step actions (boot old)
    (s.answers.map (·.1)).Nodup ∧ (∀ a ∈ s.answers, Complete s.db a) ∧
      (∀ id m, s.db.messages.find id = some m → m.marked = true → m.execution.runId ≠ none →
        m.execution.state.terminal = true → (∃ p, (id, p) ∈ s.answers) ∨
          ∃ m₀, old.messages.find id = some m₀ ∧ m₀.execution.state.terminal = true) ∧
      (∀ c, s.cursor = some c → ∀ id run, Handoff s.db id run → resolved s.db id = false →
        ∀ e ∈ s.db.events, e.runId = some run → e.terminal = true → e.hrcSeq ≤ c → s.Covers id run) ∧
      (s.pass = none → ∀ id run, Handoff s.db id run → (∀ t ∈ s.tasks.rows, t.request ≠ id) → ∀ after d,
        Meets step (fun _ a => a.quiet = true) after (step .begin s) →
        (Schedule.run step after (step .begin s)).passes d = true →
        ∀ e ∈ (Schedule.run step after (step .begin s)).db.events, e.runId = some run → e.terminal = true →
          resolved (step (.pump d) (Schedule.run step after (step .begin s))).db id = true) ∧
      (∀ active d, s.pass = some active → d.readsFail = false → (pump d s active).2 = false →
        (pump d s active).1.cursor = s.cursor ∧ ∃ done c rest,
          candidates s.db (requests s.db s.cursor active) = done ++ c :: rest ∧ finalize d (pump d s active).1 c = none ∧
            ∀ x ∈ done, (pump d s active).1.db.answered x.request.messageId = true) := by
  intro s
  have hs : Inv s := run_inv hold actions
  have hhs : History old s.db s.answers := run_history hold actions
  refine ⟨hhs.nodup, hhs.complete, ?_, ?_, ?_, ?_⟩
  · intro id m hfn hm hrun ht
    rcases hhs.ended id m hfn hm ht with hd | hn | hw
    · exact .inl hd
    · exact absurd hn hrun
    · exact .inr hw
  · intro c hc id run hh hop e he her ht hle
    exact hs.covered c hc id run hh.1 (pending_of_unresolved hh hop) e he her ht hle
  · intro hps id run hh hi after d hqt hp e he her ht
    exact resolved_of_pass hs hps hh hi hqt hp he her ht
  · intro active d hps hr hf
    exact pump_stop (hs.copied active hps) hr hf

section Samples

def sampleRequest : Request :=
  { «from» := .session "agent:asker/lane:main", «to» := .session "agent:seat/lane:main", body := "status?", mode := none
    respondTo := none, fresh := false, replyTo := none, root := none }

def sampleSession : Session := ⟨"agent:seat/lane:main", some "host-1", some 1⟩

def sampleReceipt : Receipt := ⟨some "host-1", some 1, some "runtime-1", some "tmux"⟩

def sampleRouting (message run : String) : List Action :=
  [.submit sampleRequest message "2026-01-01T00:00:00.000Z" run sampleSession,
    .deliver message (.ok sampleReceipt) none, .deliver message (.ok sampleReceipt) none]

def sampleRecording (message : String) : List Action :=
  [.deliver message (.ok sampleReceipt) none, .deliver message (.ok sampleReceipt) none]

def sampleEnd (run : String) : Action :=
  .event { hrcSeq := 0, ts := "2026-01-01T00:00:01.000Z", eventKind := .turnCompleted, hostSessionId := some "host-1"
           scopeRef := some "agent:seat", laneRef := some "main", generation := some 1, runtimeId := some "runtime-1"
           runId := some run, transport := some "tmux", errorCode := none, payload := .json .null }

def samplePass (fails : String → Bool) : List Action :=
  [.begin, .pump ⟨false, fails, fun run => "reply-to-" ++ run, "2026-01-01T00:00:02.000Z"⟩]

def passed (s : State) (run : String) : Bool :=
  s.cursor.any fun c => s.db.events.any fun e => e.runId = some run && e.terminal && decide (e.hrcSeq ≤ c)

theorem sound_empty : Sound .empty :=
  ⟨fun _ hm => absurd hm List.not_mem_nil, fun _ _ _ h => by cases h⟩

/-- A handoff whose run ends before its delivery is recorded, and the pass after. -/
theorem handoffs_answered_late :
    let actions := sampleRouting "msg-1" "run-1" ++ [sampleEnd "run-1"] ++ samplePass (fun _ => false) ++
      sampleRecording "msg-1"
    let s := run step actions (boot .empty)
    s.cursor = some 1 ∧ resolved s.db "msg-1" = false ∧
      resolved (run step (samplePass (fun _ => false)) s).db "msg-1" = true := by
  intro actions s
  have hh : Handoff s.db "msg-1" "run-1" :=
    ⟨by decide +kernel, by
      have hany : (s.db.messages.find "msg-1").any (fun m => m.phase = .request && !m.metadata.federationSemanticTurnOrigin) =
        true := by decide +kernel
      obtain ⟨m, hm, hp⟩ := (Option.any_eq_true _ _).mp hany
      simp only [Bool.and_eq_true, decide_eq_true_eq, Bool.not_eq_true'] at hp
      exact ⟨m, hm, hp⟩⟩
  have hl : ∃ e ∈ s.db.events, e.runId = some "run-1" ∧ e.terminal = true := by decide +kernel
  obtain ⟨e, he, her, ht⟩ := hl
  refine ⟨by decide +kernel, by decide +kernel, ?_⟩
  exact (handoffs_answered sound_empty actions).2.2.2.2.1 (by decide +kernel) "msg-1" "run-1" hh (by decide +kernel)
    [] _ trivial (by decide +kernel) e he her ht

def sampleEarly : State :=
  run step (sampleRouting "msg-1" "run-1" ++ [sampleEnd "run-1"] ++ samplePass (fun _ => false)) (boot .empty)

def sampleCrashed : State :=
  run step (sampleRouting "msg-1" "run-1" ++ [sampleEnd "run-1", .crash] ++ samplePass (fun _ => false)) (boot .empty)

def sampleBlocked : State :=
  run step (sampleRouting "msg-1" "run-1" ++ sampleRecording "msg-1" ++ sampleRouting "msg-2" "run-2" ++
    sampleRecording "msg-2" ++ [sampleEnd "run-1", sampleEnd "run-2"] ++ samplePass (· = "run-1") ++
    samplePass (· = "run-1")) (boot .empty)

/-- The cursor passes the end of a request still unanswered, a crash leaves a request unanswered, and a request that
cannot be finalized keeps a later one from its answer. -/
theorem handoffs_fail :
    passed sampleEarly "run-1" = true ∧ resolved sampleEarly.db "msg-1" = false ∧
      passed sampleCrashed "run-1" = true ∧ resolved sampleCrashed.db "msg-1" = false ∧
      resolved sampleBlocked.db "msg-2" = false := by
  decide +kernel

end Samples

end HrcRuntime.HandoffFinalizer
