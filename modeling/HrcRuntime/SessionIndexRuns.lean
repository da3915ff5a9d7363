import HrcRuntime.Schedule
import HrcRuntime.SessionIndexMirror
import Mathlib.Data.Finset.Card

namespace HrcRuntime.SessionIndexTriggers

open Keyed Schedule

variable {τ : Type} [LinearOrder τ] {db : Database τ}

theorem le_backfill {s : Session τ} {e : LifecycleEvent τ} (he : e ∈ db.events)
    (hof : e.isOf s.hostSessionId s.generation = true) : e.ts ≤ db.backfill s := by
  have hmem : e.ts ∈ (db.events.filter (LifecycleEvent.isOf s.hostSessionId s.generation)).map (·.ts) :=
    List.mem_map_of_mem (List.mem_filter.mpr ⟨he, hof⟩)
  unfold Database.backfill
  cases hm : ((db.events.filter (LifecycleEvent.isOf s.hostSessionId s.generation)).map (·.ts)).max? with
  | some ts => exact (List.max?_eq_some_iff.mp hm).2 _ hmem
  | none =>
    rw [List.max?_eq_none_iff.mp hm] at hmem
    cases hmem

section Continuities

variable {c : Continuity} {s : Session τ}

theorem lineage_moved (c old : Continuity) :
    ({ old with activeHostSessionId := c.activeHostSessionId } : Continuity).lineage = old.lineage := rfl

def pointed (db : Database τ) (c : Continuity) : Database τ :=
  { db with
    continuities := db.continuities.upsert c (fun old => { old with activeHostSessionId := c.activeHostSessionId })
      (lineage_moved c) }

theorem find_pointed (db : Database τ) (c : Continuity) : ∃ c', (pointed db c).continuities.find c.lineage = some c' ∧
    c'.lineage = c.lineage ∧ c'.activeHostSessionId = c.activeHostSessionId := by
  have hf : (pointed db c).continuities.find c.lineage = some (((db.continuities.find c.lineage).map
      fun old => { old with activeHostSessionId := c.activeHostSessionId }).getD c) := find_upsert_self _
  refine ⟨_, hf, (find_mem hf).2, ?_⟩
  cases db.continuities.find c.lineage <;> rfl

theorem find_pointed_of_ne {lineage : Lineage} (h : lineage ≠ c.lineage) :
    (pointed db c).continuities.find lineage = db.continuities.find lineage := find_upsert_of_ne _ h

theorem lineage_of_host (hm : Mirrors db) {r : IndexRow τ} (hr : r ∈ db.index.rows)
    (hs : db.sessions.find r.hostSessionId = some s) : r.lineage = s.lineage := by
  obtain ⟨s', c', hl, hp⟩ := hm.shown r hr
  obtain rfl : s = s' := Option.some.inj (hs.symm.trans hl.session)
  exact congrArg Projection.lineage hp

omit [LinearOrder τ] in
theorem key_kept (v r : IndexRow τ) : IndexRow.key ({ v with lineage := r.lineage } : IndexRow τ) = r.key := rfl

def entered (db : Database τ) (v : IndexRow τ) : Store (IndexRow τ) IndexRow.key :=
  db.index.upsert v (fun r => { v with lineage := r.lineage }) (key_kept v)

theorem find_entered {v : IndexRow τ} : (entered db v).find v.lineage = some v := by
  have hf : (entered db v).find v.lineage = some (((db.index.find v.lineage).map
      fun r => { v with lineage := r.lineage }).getD v) := find_upsert_self _
  rw [hf]
  cases hfn : db.index.find v.lineage with
  | none => rfl
  | some r =>
    have hk : r.lineage = v.lineage := (find_mem hfn).2
    rw [Option.map_some, Option.getD_some, hk]

theorem find_entered_of_ne {v : IndexRow τ} {lineage : Lineage} (h : lineage ≠ v.lineage) :
    (entered db v).find lineage = db.index.find lineage := find_upsert_of_ne _ h

theorem mem_entered {v r : IndexRow τ} (hr : r ∈ (entered db v).rows) :
    r = v ∨ r.lineage ≠ v.lineage ∧ r ∈ db.index.rows := by
  have hf : (entered db v).find r.lineage = some r := find_of_mem hr
  by_cases hl : r.lineage = v.lineage
  · rw [hl, find_entered] at hf
    exact .inl (Option.some.inj hf).symm
  · rw [find_entered_of_ne hl] at hf
    exact .inr ⟨hl, (find_mem hf).1⟩

theorem project_pointed (hm : Mirrors db) {c' : Continuity} (hs : db.sessions.find c.activeHostSessionId = some s)
    (hl : s.lineage = c.lineage) (hc' : (pointed db c).continuities.find c.lineage = some c')
    (hact : c'.activeHostSessionId = c.activeHostSessionId) :
    (pointed db c).project c.lineage =
      .ok { pointed db c with index := entered db ((pointed db c).joined s c') } := by
  have hh := (find_mem hs).2
  have hsm : c'.lineage = c.lineage := (find_mem hc').2
  have hv : (pointed db c).view.filter (·.lineage == c.lineage) = [(pointed db c).joined s c'] :=
    hsm ▸ view_lineage (hact.symm ▸ hs) (hl.trans hsm.symm) (hsm.symm ▸ hc')
  have hu : ∀ r ∈ db.index.rows,
      ¬ (r.hostSessionId == s.hostSessionId && r.lineage != s.lineage) = true := by
    intro r hr h
    obtain ⟨hsam, hoth⟩ := (Bool.and_eq_true ..).mp h
    have hf : db.sessions.find r.hostSessionId = some s := (eq_of_beq hsam).trans hh ▸ hs
    exact bne_iff_ne.mp hoth (lineage_of_host hm hr hf)
  have he : (pointed db c).enter ((pointed db c).joined s c') =
      .ok { pointed db c with index := entered db ((pointed db c).joined s c') } :=
    if_neg fun h => by
      obtain ⟨r, hr, h⟩ := List.any_eq_true.mp h
      exact hu r hr h
  unfold Database.project
  rw [hv, List.foldlM_cons, he]
  rfl

theorem entered_mirrors (hm : Mirrors db) {c' : Continuity} (hs : db.sessions.find c.activeHostSessionId = some s)
    (hl : s.lineage = c.lineage) (hc' : (pointed db c).continuities.find c.lineage = some c')
    (hact : c'.activeHostSessionId = c.activeHostSessionId) :
    Mirrors { pointed db c with index := entered db ((pointed db c).joined s c') } := by
  have hh := (find_mem hs).2
  have hsm : c'.lineage = c.lineage := (find_mem hc').2
  constructor
  · intro d hd
    have hf : (pointed db c).continuities.find d.lineage = some d := find_of_mem hd
    by_cases hdl : d.lineage = c.lineage
    · rw [hdl, hc'] at hf
      obtain rfl := Option.some.inj hf
      exact ⟨s, (congrArg db.sessions.find hact).trans hs, hl.trans hsm.symm⟩
    · rw [find_pointed_of_ne hdl] at hf
      exact hm.active d (find_mem hf).1
  · intro r hr
    obtain rfl | ⟨hne, hr⟩ := mem_entered hr
    · exact ⟨s, c', ⟨(congrArg db.sessions.find hh).trans hs,
        (congrArg (pointed db c).continuities.find hl).trans hc', hact.trans hh.symm⟩, rfl⟩
    · obtain ⟨s', d, hln, hp⟩ := hm.shown r hr
      have hd : s'.lineage ≠ c.lineage := fun h =>
        hne ((congrArg Projection.lineage hp).trans (h.trans hl.symm))
      exact ⟨s', d, ⟨hln.session, (find_pointed_of_ne hd).trans hln.continuity, hln.active⟩, hp⟩
  · intro d hd
    have hf : (pointed db c).continuities.find d.lineage = some d := find_of_mem hd
    rw [← not_not (a := d.lineage ∈ _), ← find_eq_none]
    by_cases hdl : d.lineage = s.lineage
    · rw [hdl]
      exact fun hn => by cases find_entered.symm.trans hn
    · rw [find_entered_of_ne hdl, find_eq_none, not_not]
      rw [find_pointed_of_ne fun h => hdl (h.trans hl.symm)] at hf
      exact hm.listed d (find_mem hf).1
  · intro r hr e he hof
    obtain rfl | ⟨-, hr⟩ := mem_entered hr
    · have hle : e.ts ≤ (pointed db c).backfill s := le_backfill he hof
      exact hle
    · exact hm.events r hr e he hof

theorem upsertContinuity_follows (hm : Mirrors db) (hok : db.allows (.upsertContinuity c) = true) :
    ∃ db', db.execute (.upsertContinuity c) = .ok db' ∧ Follows db db' := by
  unfold Database.allows at hok
  obtain ⟨hsession, hmv⟩ := (Bool.and_eq_true ..).mp hok
  obtain ⟨s, hs, hl⟩ := (Option.any_eq_true _ _).mp hsession
  replace hl : s.lineage = c.lineage := eq_of_beq hl
  obtain ⟨c', hc', -, hact⟩ := find_pointed db c
  refine ⟨_, project_pointed hm hs hl hc' hact, entered_mirrors hm hs hl hc' hact, ?_⟩
  intro r hr r' hr' hsm hsam
  obtain rfl | ⟨-, hr'⟩ := mem_entered hr'
  · -- the lineage's row showed another session before
    obtain ⟨s', d, hln, hp⟩ := hm.shown r hr
    have hf : db.continuities.find c.lineage = some d := by
      rw [← hl, show s.lineage = s'.lineage from hsm.trans (congrArg Projection.lineage hp)]
      exact hln.continuity
    rw [hf] at hmv
    exact absurd (hln.active.trans (hsam.symm.trans (find_mem hs).2)) (bne_iff_ne.mp hmv)
  · rw [index_inj hr' hr hsm]
    exact .refl r

end Continuities

/-- What one statement does, fired triggers included. -/
theorem execute_follows (hm : Mirrors db) (a : Statement τ) (hal : db.allows a = true) :
    db.execute a = .error .source ∧ db.written a = none ∨
      ∃ db', db.execute a = .ok db' ∧ Follows db db' ∧ ∀ w, db.written a = some w → Records w db'.index := by
  have hqt (hwr : db.written a = none) (h : ∃ db', db.execute a = .ok db' ∧ Follows db db') :
      ∃ db', db.execute a = .ok db' ∧ Follows db db' ∧ ∀ w, db.written a = some w → Records w db'.index := by
    obtain ⟨db', hok, hfl⟩ := h
    refine ⟨db', hok, hfl, fun w hw => ?_⟩
    rw [hwr] at hw
    cases hw
  cases a with
  | insertSession s =>
    cases hf : db.sessions.find s.hostSessionId with
    | some _ => exact .inl ⟨if_pos (by rw [hf]; rfl), rfl⟩
    | none => exact .inr (hqt rfl ⟨_, if_neg (by simp [hf]), insertSession_follows hm s⟩)
  | updateStatus host status updatedAt =>
    exact .inr (hqt rfl (updateSession_follows hm _ ⟨fun _ => rfl, fun _ => rfl, fun _ => rfl, fun _ => rfl⟩))
  | updateIntent host intent updatedAt =>
    exact .inr (hqt rfl (updateSession_follows hm _ ⟨fun _ => rfl, fun _ => rfl, fun _ => rfl, fun _ => rfl⟩))
  | updateContinuation host continuation updatedAt =>
    exact .inr (hqt rfl (updateSession_follows hm _ ⟨fun _ => rfl, fun _ => rfl, fun _ => rfl, fun _ => rfl⟩))
  | upsertContinuity c => exact .inr (hqt rfl (upsertContinuity_follows hm hal))
  | insertRuntime w =>
    cases hf : db.runtimes.find w.runtimeId with
    | some _ => exact .inl ⟨if_pos (by rw [hf]; rfl), if_pos (by rw [hf]; rfl)⟩
    | none =>
      obtain ⟨db', hok, hfl, hr⟩ := insertRuntime_follows hm hf
      refine .inr ⟨db', hok, hfl, fun w' hw' => ?_⟩
      rw [show db.written (.insertRuntime w) = some w from if_neg (by simp [hf])] at hw'
      exact Option.some.inj hw' ▸ hr
  | updateRuntime w =>
    cases hf : db.runtimes.find w.runtimeId with
    | none =>
      refine .inr (hqt (by simp [Database.written, hf]) ⟨db, ?_, .refl hm⟩)
      unfold Database.execute
      dsimp only
      rw [hf]
    | some old =>
      obtain ⟨db', hok, hfl, hr⟩ := updateRuntime_follows hm hf
      refine .inr ⟨db', hok, hfl, fun w' hw' => ?_⟩
      rw [show db.written (.updateRuntime w) = some w by simp [Database.written, hf]] at hw'
      exact Option.some.inj hw' ▸ hr
  | deleteRuntime id =>
    cases hf : db.runtimes.find id with
    | none =>
      refine .inr (hqt rfl ⟨db, ?_, .refl hm⟩)
      unfold Database.execute
      dsimp only
      rw [hf]
    | some old => exact .inr (hqt rfl (deleteRuntime_follows hm hf))
  | setMetadata m => exact .inr (hqt rfl (setMetadata_follows hm m))
  | clearMetadata id => exact .inr (hqt rfl (clearMetadata_follows hm id))
  | appendEvent e => exact .inr (hqt rfl (appendEvent_follows hm e))

section Runs

variable {a : Statement τ} {statements : List (Statement τ)} {lineage : Lineage} {host : String}

theorem step_follows (hm : Mirrors db) (hal : db.allows a = true) : Follows db (step a db) := by
  unfold step
  obtain ⟨hfl, -⟩ | ⟨db', hok, hf, -⟩ := execute_follows hm a hal
  · rw [hfl]
    exact .refl hm
  · rw [hok]
    exact hf

theorem step_records (hm : Mirrors db) (hal : db.allows a = true) {w : Runtime τ} (hw : db.written a = some w) :
    Records w (step a db).index := by
  unfold step
  obtain ⟨-, hn⟩ | ⟨db', hok, -, hr⟩ := execute_follows hm a hal
  · rw [hn] at hw
    cases hw
  · rw [hok]
    exact hr w hw

theorem execute_ne_index (hm : Mirrors db) (hal : db.allows a = true) : db.execute a ≠ .error .index := by
  intro h
  obtain ⟨hfl, -⟩ | ⟨db', hok, -⟩ := execute_follows hm a hal
  · cases h.symm.trans hfl
  · cases h.symm.trans hok

theorem mirrors_empty : Mirrors (Database.empty : Database τ) where
  active _ hc := absurd hc List.not_mem_nil
  shown _ hr := absurd hr List.not_mem_nil
  listed _ hc := absurd hc List.not_mem_nil
  events _ hr := absurd hr List.not_mem_nil

theorem run_mirrors (hm : Mirrors db) (hmt : Meets step (fun db a => db.allows a = true) statements db) :
    Mirrors (run step statements db) :=
  run_invariant (I := Mirrors) (fun _ _ hm hok => (step_follows hm hok).mirrors) hm hmt

/-- The lineage shows `host` before each of the statements. -/
abbrev Stays (lineage : Lineage) (host : String) : List (Statement τ) → Database τ → Prop :=
  Meets step fun db _ => db.hostOf lineage = some host

theorem hostOf_eq_some : db.hostOf lineage = some host ↔ ∃ r, db.index.find lineage = some r ∧ r.hostSessionId = host :=
  Option.map_eq_some_iff

theorem stays_next {rest : List (Statement τ)} (hs : Stays lineage host (a :: rest) db)
    (he : (run step (a :: rest) db).hostOf lineage = some host) : (step a db).hostOf lineage = some host := by
  cases rest with
  | nil => exact he
  | cons _ _ => exact hs.2.1

theorem stays_advances (hm : Mirrors db) (hmt : Meets step (fun db a => db.allows a = true) statements db)
    (hs : Stays lineage host statements db) {r r' : IndexRow τ} (hr : db.index.find lineage = some r)
    (hh : r.hostSessionId = host) (hr' : (run step statements db).index.find lineage = some r')
    (hh' : r'.hostSessionId = host) : Advances r r' := by
  induction statements generalizing db r with
  | nil =>
    obtain rfl := Option.some.inj (hr.symm.trans hr')
    exact .refl r
  | cons a rest ih =>
    have hf := step_follows hm hmt.1
    obtain ⟨r₁, hr₁, hhost₁⟩ := hostOf_eq_some.mp (stays_next hs (hostOf_eq_some.mpr ⟨r', hr', hh'⟩))
    obtain ⟨hmem, hk⟩ := find_mem hr
    obtain ⟨hmem₁, hkey₁⟩ := find_mem hr₁
    have hfst := hf.advances r hmem r₁ hmem₁ (hkey₁.trans hk.symm) (hhost₁.trans hh.symm)
    exact hfst.trans (ih hf.mirrors hmt.2 hs.2 hr₁ hhost₁ hr')

structure Mirrored (db : Database τ) : Prop where
  rows : (db.index.rows.map (·.lineage)).Perm
    ((db.continuities.rows.filter fun c => (db.sessions.find c.activeHostSessionId).isSome).map (·.lineage))
  columns : ∀ r ∈ db.index.rows, (db.atHost r.hostSessionId).map (·.toProjection) = some r.toProjection
  events : ∀ r ∈ db.index.rows, ∀ e ∈ db.events, e.isOf r.hostSessionId r.generation = true → e.ts ≤ r.lastActivityAt

theorem Mirrors.mirrored (hm : Mirrors db) : Mirrored db where
  rows := by
    have hall : (db.continuities.rows.filter fun c => (db.sessions.find c.activeHostSessionId).isSome) =
        db.continuities.rows := by
      refine List.filter_eq_self.mpr fun c hc => ?_
      obtain ⟨s, hs, -⟩ := hm.active c hc
      rw [hs]
      rfl
    rw [hall]
    refine (List.perm_ext_iff_of_nodup db.index.nodup db.continuities.nodup).mpr fun l => ⟨fun hl => ?_, fun hl => ?_⟩
    · obtain ⟨r, hr, rfl⟩ := List.mem_map.mp hl
      obtain ⟨s, c, hln, hp⟩ := hm.shown r hr
      obtain ⟨hc, hk⟩ := find_mem hln.continuity
      have hlin : c.lineage = r.lineage := hk.trans (congrArg Projection.lineage hp).symm
      exact List.mem_map.mpr ⟨c, hc, hlin⟩
    · obtain ⟨c, hc, rfl⟩ := List.mem_map.mp hl
      exact hm.listed c hc
  columns r hr := by
    obtain ⟨s, c, hln, hp⟩ := hm.shown r hr
    rw [hln.atHost, Option.map_some, hp]
  events := hm.events

/-- At every point of every sequence of statements, the index is the view's rows, no trigger fails, and recency only
rises while a scope and lane shows the same session. -/
theorem index_mirrors_view (hmeets : Meets step (fun db a => db.allows a = true) statements .empty) :
    (∀ before a after, statements = before ++ a :: after → (run step before .empty).execute a ≠ .error .index) ∧
    (∀ before after, statements = before ++ after → Mirrored (run step before .empty)) ∧
    ∀ before during after lineage host, statements = before ++ (during ++ after) →
      Stays lineage host during (run step before .empty) →
      ∀ r', (run step (before ++ during) .empty).index.find lineage = some r' → r'.hostSessionId = host →
        (∀ r, (run step before .empty).index.find lineage = some r → r.hostSessionId = host →
          r.lastActivityAt ≤ r'.lastActivityAt) ∧
        ∀ first a rest w t, during = first ++ a :: rest → (run step (before ++ first) .empty).written a = some w →
          w.lastActivityAt = some t → r'.isOf w.hostSessionId w.generation = true → t ≤ r'.lastActivityAt := by
  have hmr {before after : List (Statement τ)} (h : statements = before ++ after) :
      Mirrors (run step before (.empty : Database τ)) := by
    rw [h, meets_append] at hmeets
    exact run_mirrors mirrors_empty hmeets.1
  refine ⟨fun before a after h => ?_, fun before after h => (hmr h).mirrored, ?_⟩
  · have hok := hmeets
    rw [h, meets_append] at hok
    exact execute_ne_index (hmr h) hok.2.1
  · intro before during after lineage host h hs r' hr' hh'
    rw [run_append] at hr'
    have hd := (meets_append.mp (meets_append.mp (h ▸ hmeets)).2).1
    refine ⟨fun r hr hh => (stays_advances (hmr h) hd hs hr hh hr' hh').recency, ?_⟩
    rintro first a rest w t rfl hw ht hof
    obtain ⟨hf, hok, hrs⟩ := meets_append.mp hd
    obtain ⟨-, hs⟩ := meets_append.mp hs
    rw [run_append] at hr' hw
    have hm := run_mirrors (hmr h) hf
    obtain ⟨r, hr, hh⟩ := hostOf_eq_some.mp (stays_next hs (hostOf_eq_some.mpr ⟨r', hr', hh'⟩))
    have hadv := stays_advances (step_follows hm hok).mirrors hrs hs.2 hr hh hr' hh'
    have hof₀ : r.isOf w.hostSessionId w.generation = true := by
      rw [isOf_iff, hadv.host, hadv.generation, ← isOf_iff] at hof
      exact hof
    exact (step_records hm hok hw t ht r (find_mem hr).1 hof₀).trans hadv.recency

end Runs

namespace Sample

def seat : Lineage := ⟨"agent:ann", "main"⟩

def birth (host : String) (generation ts : Nat) : Session Nat :=
  { hostSessionId := host, lineage := seat, generation, status := "active", createdAt := ts, updatedAt := ts }

def runtime (status : String) (activity ts : Nat) : Runtime Nat :=
  { runtimeId := "r1", hostSessionId := "h1", generation := 1, status, transport := "headless",
    supportsInflightInput := false, lastActivityAt := some activity, updatedAt := ts }

def statements : List (Statement Nat) :=
  [.insertSession (birth "h1" 1 10), .upsertContinuity ⟨seat, "h1", "ann", none, none⟩,
    .insertRuntime (runtime "busy" 12 12), .appendEvent ⟨"h1", 1, 11⟩, .setMetadata ⟨seat, "title", .api, .str "work"⟩,
    .updateRuntime (runtime "dead" 15 16), .updateStatus "h1" "archived" 20, .insertSession (birth "h2" 2 20),
    .upsertContinuity ⟨seat, "h2", "ann", none, none⟩, .deleteRuntime "r1"]

end Sample

theorem index_mirrors_view_rotated :
    ((run step (Sample.statements.take 6) .empty).index.rows.map fun r => (r.effectiveStatus, r.lastActivityAt, r.title)) =
      [(.inactive, 15, some "work")] ∧ Mirrored (run step Sample.statements .empty) :=
  ⟨by decide +kernel, (index_mirrors_view
    (by decide +kernel : Meets step (fun db a => db.allows a = true) Sample.statements .empty)).2.1
      Sample.statements [] (List.append_nil _).symm⟩

end HrcRuntime.SessionIndexTriggers
