import HrcRuntime.SessionIndexTriggers

namespace HrcRuntime.SessionIndexTriggers

open Keyed

variable {τ : Type} [LinearOrder τ] {db : Database τ} {r : IndexRow τ} {s : Session τ} {c : Continuity}

section View

theorem sourceRow_eq (hc : db.continuities.find s.lineage = some c) (hact : c.activeHostSessionId = s.hostSessionId) :
    db.sourceRow s = some (db.joined s c) := by
  unfold Database.sourceRow
  rw [hc, Option.bind_some, if_pos hact]

theorem sourceRow_eq_some {v : IndexRow τ} (h : db.sourceRow s = some v) :
    ∃ c, db.continuities.find s.lineage = some c ∧ c.activeHostSessionId = s.hostSessionId ∧ v = db.joined s c := by
  obtain ⟨c, hc, h⟩ := Option.bind_eq_some_iff.mp h
  split at h
  · rename_i hact
    exact ⟨c, hc, hact, (Option.some.inj h).symm⟩
  · cases h

theorem atHost_eq (hs : db.sessions.find r.hostSessionId = some s) : db.atHost r.hostSessionId = db.sourceRow s := by
  have hh := (find_mem hs).2
  unfold Database.atHost Database.view
  rw [← List.head?_filter, List.filter_filterMap, filterMap_only hs]
  · cases h : db.sourceRow s with
    | none => rfl
    | some v =>
      obtain ⟨c, -, -, rfl⟩ := sourceRow_eq_some h
      simp [Database.joined, hh, Option.filter]
  · intro a _ hne
    cases h : db.sourceRow a with
    | none => rfl
    | some v =>
      obtain ⟨c, -, -, rfl⟩ := sourceRow_eq_some h
      simp [Database.joined, hne, Option.filter]

theorem view_lineage (hs : db.sessions.find c.activeHostSessionId = some s) (hl : s.lineage = c.lineage)
    (hc : db.continuities.find c.lineage = some c) : db.view.filter (·.lineage == c.lineage) = [db.joined s c] := by
  have hh := (find_mem hs).2
  unfold Database.view
  rw [List.filter_filterMap, filterMap_only hs, sourceRow_eq (hl ▸ hc) hh.symm]
  · simp [Database.joined, hl, Option.filter]
  · intro a _ hne
    cases h : db.sourceRow a with
    | none => rfl
    | some v =>
      obtain ⟨d, hd, hact, rfl⟩ := sourceRow_eq_some h
      have hoth : a.lineage ≠ c.lineage := by
        intro heq
        rw [heq, hc] at hd
        cases hd
        exact hne hact.symm
      simp [Database.joined, hoth, Option.filter]

end View

structure Linked (db : Database τ) (r : IndexRow τ) (s : Session τ) (c : Continuity) : Prop where
  session : db.sessions.find r.hostSessionId = some s
  continuity : db.continuities.find s.lineage = some c
  active : c.activeHostSessionId = r.hostSessionId

theorem Linked.atHost (h : Linked db r s c) : db.atHost r.hostSessionId = some (db.joined s c) := by
  rw [atHost_eq h.session, sourceRow_eq h.continuity (h.active.trans (find_mem h.session).2.symm)]

def Shown (db : Database τ) (r : IndexRow τ) : Prop :=
  ∃ s c, Linked db r s c ∧ r.toProjection = (db.joined s c).toProjection

structure Mirrors (db : Database τ) : Prop where
  active : ∀ c ∈ db.continuities.rows, ∃ s, db.sessions.find c.activeHostSessionId = some s ∧ s.lineage = c.lineage
  shown : ∀ r ∈ db.index.rows, Shown db r
  listed : ∀ c ∈ db.continuities.rows, c.lineage ∈ db.index.rows.map IndexRow.key
  events : ∀ r ∈ db.index.rows, ∀ e ∈ db.events, e.isOf r.hostSessionId r.generation = true → e.ts ≤ r.lastActivityAt

structure Advances (r r' : IndexRow τ) : Prop where
  lineage : r'.lineage = r.lineage
  host : r'.hostSessionId = r.hostSessionId
  generation : r'.generation = r.generation
  recency : r.lastActivityAt ≤ r'.lastActivityAt

theorem Advances.refl (r : IndexRow τ) : Advances r r := ⟨rfl, rfl, rfl, le_refl _⟩

theorem Advances.trans {a b d : IndexRow τ} (h : Advances a b) (h' : Advances b d) : Advances a d :=
  ⟨h'.lineage.trans h.lineage, h'.host.trans h.host, h'.generation.trans h.generation, h.recency.trans h'.recency⟩

structure Grown (old new : Store (IndexRow τ) IndexRow.key) : Prop where
  keys : new.rows.map IndexRow.key = old.rows.map IndexRow.key
  rows : ∀ r' ∈ new.rows, ∃ r ∈ old.rows, Advances r r'

theorem Grown.refl (t : Store (IndexRow τ) IndexRow.key) : Grown t t := ⟨rfl, fun r hr => ⟨r, hr, .refl r⟩⟩

theorem Grown.trans {a b d : Store (IndexRow τ) IndexRow.key} (h : Grown a b) (h' : Grown b d) : Grown a d where
  keys := h'.keys.trans h.keys
  rows r'' hr'' := by
    obtain ⟨r', hr', ha'⟩ := h'.rows r'' hr''
    obtain ⟨r, hr, hadv⟩ := h.rows r' hr'
    exact ⟨r, hr, hadv.trans ha'⟩

structure Refreshes (set : IndexRow τ → IndexRow τ → IndexRow τ) : Prop where
  advances : ∀ v r, Advances r (set v r)
  shows : ∀ v r, r.toProjection = v.toProjection → (set v r).toProjection = v.toProjection

theorem refreshes_session : Refreshes (sessionColumns : IndexRow τ → IndexRow τ → IndexRow τ) where
  advances _ _ := ⟨rfl, rfl, rfl, le_refl _⟩
  shows v r h := by
    obtain ⟨p, t⟩ := r
    obtain rfl : p = v.toProjection := h
    rfl

theorem refreshes_runtime (activity : Option τ) : Refreshes (runtimeColumns activity) where
  advances _ _ := ⟨rfl, rfl, rfl, le_max_left _ _⟩
  shows v r h := by
    obtain ⟨p, t⟩ := r
    obtain rfl : p = v.toProjection := h
    rfl

/-- Rows whose columns a trigger is about to set where `q` holds; the others are the view's. -/
def Pending (db : Database τ) (set : IndexRow τ → IndexRow τ → IndexRow τ) (q : IndexRow τ → Bool) : Prop :=
  ∀ r ∈ db.index.rows, ∃ s c, Linked db r s c ∧ (set (db.joined s c) r).toProjection = (db.joined s c).toProjection ∧
    (q r = false → r.toProjection = (db.joined s c).toProjection)

section Refresh

variable {set : IndexRow τ → IndexRow τ → IndexRow τ} {p q : IndexRow τ → Bool} {f : IndexRow τ → IndexRow τ}
  {hset : ∀ v r, (set v r).key = r.key} {host : String}

/-- What the rows that `p` selects are set to. -/
def Sets (db : Database τ) (p : IndexRow τ → Bool) (set : IndexRow τ → IndexRow τ → IndexRow τ)
    (f : IndexRow τ → IndexRow τ) : Prop :=
  ∀ r ∈ db.index.rows, p r = true → ∀ s c, Linked db r s c → f r = set (db.joined s c) r

theorem alter_grown (hf : ∀ r, (f r).key = r.key) (hrf : Refreshes set) (hl : ∀ r ∈ db.index.rows, ∃ s c, Linked db r s c)
    (hs : Sets db p set f) : Grown db.index (db.index.alter p f hf) where
  keys := keys_alter hf
  rows r' hr' := by
    obtain ⟨r, hr, rfl⟩ := (mem_alter hf).mp hr'
    refine ⟨r, hr, ?_⟩
    split
    · rename_i hp
      obtain ⟨s, c, hln⟩ := hl r hr
      rw [hs r hr hp s c hln]
      exact hrf.advances _ _
    · exact .refl r

theorem alter_pending (hf : ∀ r, (f r).key = r.key) (hrf : Refreshes set) (hs : Sets db p set f) (hq : ∀ v r, q (set v r) = q r)
    (h : Pending db set fun r => p r || q r) : Pending { db with index := db.index.alter p f hf } set q := by
  intro r' hr'
  obtain ⟨r, hr, rfl⟩ := (mem_alter hf).mp hr'
  obtain ⟨s, c, hl, hw, hsh⟩ := h r hr
  by_cases hp : p r = true
  · rw [if_pos hp, hs r hr hp s c hl]
    have hh := (hrf.advances (db.joined s c) r).host
    refine ⟨s, c, ⟨hh ▸ hl.session, hl.continuity, hl.active.trans hh.symm⟩, ?_, fun _ => hw⟩
    exact hrf.shows _ _ hw
  · rw [if_neg hp]
    exact ⟨s, c, ⟨hl.session, hl.continuity, hl.active⟩, hw, fun hqr => hsh (by simp [hp, hqr])⟩

theorem Pending.shown (h : Pending db set fun _ => false) : ∀ r ∈ db.index.rows, Shown db r := by
  intro r hr
  obtain ⟨s, c, hl, -, hs⟩ := h r hr
  exact ⟨s, c, hl, hs rfl⟩

theorem Pending.linked (h : Pending db set q) : ∀ r ∈ db.index.rows, ∃ s c, Linked db r s c := by
  intro r hr
  obtain ⟨s, c, hl, -⟩ := h r hr
  exact ⟨s, c, hl⟩

theorem refresh_eq (hp : ∀ r, p r = true → r.hostSessionId = host) (hl : ∀ r ∈ db.index.rows, ∃ s c, Linked db r s c) :
    ∃ f hf, db.refresh host p set hset = .ok { db with index := db.index.alter p f hf } ∧ Sets db p set f := by
  unfold Database.refresh
  cases hvw : db.atHost host with
  | some v =>
    refine ⟨set v, hset v, rfl, fun r _ hpr s c hln => ?_⟩
    have hv := hln.atHost
    rw [hp r hpr, hvw] at hv
    rw [Option.some.inj hv]
  | none =>
    have hn : ∀ r ∈ db.index.rows, ¬ p r = true := by
      intro r hr hpr
      obtain ⟨s, c, hln⟩ := hl r hr
      have hv := hln.atHost
      rw [hp r hpr, hvw] at hv
      cases hv
    refine ⟨id, fun _ => rfl, ?_, fun r hr hpr => absurd hpr (hn r hr)⟩
    have hid : db.index.alter p id (fun _ => rfl) = db.index := by
      cases hi : db.index
      simp [Store.alter]
    dsimp only
    rw [if_neg (by simpa using hn), hid]

theorem refreshKept_eq (hp : ∀ r, p r = true → r.hostSessionId = host)
    (hl : ∀ r ∈ db.index.rows, ∃ s c, Linked db r s c) :
    ∃ f hf, db.refreshKept host p set hset = { db with index := db.index.alter p f hf } ∧ Sets db p set f := by
  obtain ⟨f, hf, heq, hs⟩ : ∃ f hf, db.refresh host p set hset = _ ∧ Sets db p set f := refresh_eq hp hl
  refine ⟨f, hf, ?_, hs⟩
  unfold Database.refresh at heq
  unfold Database.refreshKept
  cases hv : db.atHost host with
  | some v =>
    rw [hv] at heq
    exact Except.ok.inj heq
  | none =>
    rw [hv] at heq
    dsimp only at heq
    split at heq
    · cases heq
    · exact Except.ok.inj heq

end Refresh

structure Follows (db db' : Database τ) : Prop where
  mirrors : Mirrors db'
  advances : ∀ r ∈ db.index.rows, ∀ r' ∈ db'.index.rows, r'.lineage = r.lineage → r'.hostSessionId = r.hostSessionId →
    Advances r r'

theorem index_inj {a b : IndexRow τ} (ha : a ∈ db.index.rows) (hb : b ∈ db.index.rows) (h : a.lineage = b.lineage) : a = b :=
  List.inj_on_of_nodup_map db.index.nodup ha hb h

theorem Follows.refl (hm : Mirrors db) : Follows db db where
  mirrors := hm
  advances r hr r' hr' hl _ := by
    rw [index_inj hr' hr hl]
    exact .refl r

theorem Mirrors.follows {db' : Database τ} (hm : Mirrors db) (hgr : Grown db.index db'.index)
    (hcn : db'.continuities = db.continuities)
    (hss : ∀ host s, db.sessions.find host = some s →
      ∃ s', db'.sessions.find host = some s' ∧ s'.lineage = s.lineage)
    (hsh : ∀ r ∈ db'.index.rows, Shown db' r)
    (hevs : ∀ r ∈ db'.index.rows, ∀ e ∈ db'.events, e.isOf r.hostSessionId r.generation = true →
      e ∈ db.events ∨ e.ts ≤ r.lastActivityAt) : Follows db db' where
  mirrors :=
    { active := by
        intro c hc
        rw [hcn] at hc
        obtain ⟨s, hs, hl⟩ := hm.active c hc
        obtain ⟨s', hs', hl'⟩ := hss _ s hs
        exact ⟨s', hs', hl'.trans hl⟩
      shown := hsh
      listed := by
        intro c hc
        rw [hcn] at hc
        rw [hgr.keys]
        exact hm.listed c hc
      events := by
        intro r' hr' e he hof
        obtain hold | hle := hevs r' hr' e he hof
        · obtain ⟨r, hr, hadv⟩ := hgr.rows r' hr'
          rw [hadv.host, hadv.generation] at hof
          exact (hm.events r hr e hold hof).trans hadv.recency
        · exact hle }
  advances := by
    intro r hr r' hr' hl _
    obtain ⟨r₀, hr₀, hadv⟩ := hgr.rows r' hr'
    rw [← index_inj hr₀ hr (hadv.lineage.symm.trans hl)]
    exact hadv

section Statements

variable {db' : Database τ} {host : String}

theorem joined_congr (hrt : db'.latestRuntime s.hostSessionId s.generation = db.latestRuntime s.hostSessionId s.generation)
    (ht : db'.title s.lineage = db.title s.lineage) : (db'.joined s c).toProjection = (db.joined s c).toProjection := by
  simp only [Database.joined, hrt, ht]

theorem Shown.same (h : Shown db r) (hs : ∀ host s, db.sessions.find host = some s → db'.sessions.find host = some s)
    (hc : db'.continuities = db.continuities)
    (hrt : db'.latestRuntime r.hostSessionId r.generation = db.latestRuntime r.hostSessionId r.generation)
    (ht : db'.title r.lineage = db.title r.lineage) : Shown db' r := by
  obtain ⟨s, c, hln, hp⟩ := h
  refine ⟨s, c, ⟨hs _ _ hln.session, hc ▸ hln.continuity, hln.active⟩, ?_⟩
  have hh : r.hostSessionId = s.hostSessionId := congrArg Projection.hostSessionId hp
  have hg : r.generation = s.generation := congrArg Projection.generation hp
  have hl : r.lineage = s.lineage := congrArg Projection.lineage hp
  rw [hh, hg] at hrt
  rw [hl] at ht
  rw [hp, joined_congr hrt ht]

theorem insertSession_follows (hm : Mirrors db) (s : Session τ) : Follows db { db with sessions := db.sessions.add s } :=
  hm.follows (.refl _) rfl (fun _ a ha => ⟨a, find_add_of_some ha, rfl⟩)
    (fun r hr => (hm.shown r hr).same (fun _ _ ha => find_add_of_some ha) rfl rfl rfl) fun _ _ _ he _ => .inl he

structure KeepsSession (f : Session τ → Session τ) : Prop where
  host : ∀ s, (f s).hostSessionId = s.hostSessionId
  lineage : ∀ s, (f s).lineage = s.lineage
  generation : ∀ s, (f s).generation = s.generation
  createdAt : ∀ s, (f s).createdAt = s.createdAt

theorem refresh_follows (db' : Database τ) (p : IndexRow τ → Bool) (set : IndexRow τ → IndexRow τ → IndexRow τ)
    (hset : ∀ v r, (set v r).key = r.key) (hm : Mirrors db) (hgr : Grown db.index db'.index) (hc : db'.continuities = db.continuities)
    (hs : ∀ host s, db.sessions.find host = some s →
      ∃ s', db'.sessions.find host = some s' ∧ s'.lineage = s.lineage) (hevs : db'.events = db.events)
    (hr : Refreshes set) (hp : ∀ r, p r = true → r.hostSessionId = host)
    (hpn : Pending db' set fun r => p r || false) :
    ∃ f hf, db'.refresh host p set hset = .ok { db' with index := db'.index.alter p f hf } ∧ Sets db' p set f ∧
      Follows db { db' with index := db'.index.alter p f hf } := by
  obtain ⟨f, hf, heq, hst⟩ : ∃ f hf, db'.refresh host p set hset = _ ∧ Sets db' p set f :=
    refresh_eq hp hpn.linked
  refine ⟨f, hf, heq, hst, ?_⟩
  have haft : Grown db'.index (db'.index.alter p f hf) := alter_grown hf hr hpn.linked hst
  refine hm.follows (hgr.trans haft) hc hs ?_ fun _ _ _ he _ => .inl (hevs ▸ he)
  exact (alter_pending hf hr hst (fun _ _ => rfl) hpn).shown

theorem updateSession_follows (hm : Mirrors db) {f : Session τ → Session τ} (hf : ∀ s, (f s).hostSessionId = s.hostSessionId)
    (hkp : KeepsSession f) : ∃ db', db.updateSession host f hf = .ok db' ∧ Follows db db' := by
  unfold Database.updateSession
  cases hfn : db.sessions.find host with
  | none => exact ⟨db, rfl, .refl hm⟩
  | some a =>
    rw [if_pos Option.isSome_some]
    let db₁ : Database τ := { db with sessions := db.sessions.amend host (fun _ => true) f hf }
    have hp : Pending db₁ sessionColumns fun r => (r.hostSessionId == host) || false := by
      intro r hr
      obtain ⟨s, c, hl, hpr⟩ := hm.shown r hr
      by_cases hh : r.hostSessionId = host
      · have hs : s = a := Option.some.inj (hl.session.symm.trans (hh ▸ hfn))
        subst hs
        have hfd : db₁.sessions.find r.hostSessionId = some (f s) := by
          rw [hh]
          exact (find_amend_self hf).trans (by rw [hfn]; rfl)
        refine ⟨f s, c, ⟨hfd, by rw [hkp.lineage]; exact hl.continuity, hl.active⟩, ?_, by simp [hh]⟩
        obtain ⟨p, t⟩ := r
        obtain rfl : p = (db.joined s c).toProjection := hpr
        simp only [sessionColumns, Database.joined, hkp.lineage, hkp.generation, hkp.host, hkp.createdAt]
        rfl
      · exact ⟨s, c, ⟨(find_amend_of_ne hf hh).trans hl.session, hl.continuity, hl.active⟩,
          refreshes_session.shows _ _ hpr, fun _ => hpr⟩
    have hss : ∀ k s, db.sessions.find k = some s → ∃ s', db₁.sessions.find k = some s' ∧ s'.lineage = s.lineage := by
      intro k s hs
      by_cases hk : k = host
      · subst hk
        exact ⟨f s, (find_amend_self hf).trans (by rw [hs]; rfl), hkp.lineage s⟩
      · exact ⟨s, (find_amend_of_ne hf hk).trans hs, rfl⟩
    obtain ⟨g, hg, heq, -, hfl⟩ := refresh_follows db₁ (·.hostSessionId == host) sessionColumns (fun _ _ => rfl) hm
      (.refl _) rfl hss rfl refreshes_session (fun r hr => by simpa using hr) hp
    exact ⟨_, heq, hfl⟩

def Records (w : Runtime τ) (index : Store (IndexRow τ) IndexRow.key) : Prop :=
  ∀ t, w.lastActivityAt = some t → ∀ r ∈ index.rows, r.isOf w.hostSessionId w.generation = true → t ≤ r.lastActivityAt

theorem isOf_iff {generation : Nat} : r.isOf host generation = true ↔ r.hostSessionId = host ∧ r.generation = generation := by
  simp [IndexRow.isOf]

variable {w : Runtime τ}

theorem sets_records {f : IndexRow τ → IndexRow τ} (hf : ∀ r, (f r).key = r.key)
    (hl : ∀ r ∈ db.index.rows, ∃ s c, Linked db r s c)
    (hs : Sets db (IndexRow.isOf w.hostSessionId w.generation) (runtimeColumns w.lastActivityAt) f) :
    Records w (db.index.alter (IndexRow.isOf w.hostSessionId w.generation) f hf) := by
  intro t ht r' hr' hof
  obtain ⟨r, hr, rfl⟩ := (mem_alter hf).mp hr'
  cases hp : r.isOf w.hostSessionId w.generation with
  | true =>
    obtain ⟨s, c, hln⟩ := hl r hr
    rw [if_pos rfl, hs r hr hp s c hln, ht]
    exact le_max_right _ _
  | false =>
    rw [hp, if_neg Bool.false_ne_true, hp] at hof
    cases hof

theorem runtimes_pending (hm : Mirrors db) {t : Store (Runtime τ) Runtime.runtimeId} {q : IndexRow τ → Bool}
    (activity : Option τ)
    (hfr : ∀ r : IndexRow τ, q r = false → t.rows.filter (Runtime.isOf r.hostSessionId r.generation) =
      db.runtimes.rows.filter (Runtime.isOf r.hostSessionId r.generation)) :
    Pending { db with runtimes := t } (runtimeColumns activity) q := by
  intro r hr
  obtain ⟨s, c, hln, hp⟩ := hm.shown r hr
  refine ⟨s, c, ⟨hln.session, hln.continuity, hln.active⟩, ?_, fun hq => ?_⟩
  · obtain ⟨p, a⟩ := r
    obtain rfl : p = (db.joined s c).toProjection := hp
    rfl
  · have hh : r.hostSessionId = s.hostSessionId := congrArg Projection.hostSessionId hp
    have hg : r.generation = s.generation := congrArg Projection.generation hp
    have hrts := hfr r hq
    rw [hh, hg] at hrts
    have hl : ({ db with runtimes := t } : Database τ).latestRuntime s.hostSessionId s.generation =
        db.latestRuntime s.hostSessionId s.generation := by
      unfold Database.latestRuntime
      rw [hrts]
    rw [hp]
    exact (joined_congr hl rfl).symm

theorem isOf_symm (h : r.isOf w.hostSessionId w.generation = false) :
    w.isOf r.hostSessionId r.generation = false := by
  simp only [IndexRow.isOf, Runtime.isOf, Bool.and_eq_false_iff, beq_eq_false_iff_ne] at h ⊢
  exact h.imp Ne.symm Ne.symm

theorem insertRuntime_follows (hm : Mirrors db) (hfr : db.runtimes.find w.runtimeId = none) :
    ∃ db', db.execute (.insertRuntime w) = .ok db' ∧ Follows db db' ∧ Records w db'.index := by
  let db₁ : Database τ := { db with runtimes := db.runtimes.add w }
  have hp : Pending db₁ (runtimeColumns w.lastActivityAt) fun r => r.isOf w.hostSessionId w.generation || false := by
    refine runtimes_pending hm _ fun r hr => ?_
    rw [Bool.or_false] at hr
    rw [rows_add hfr, List.filter_append, List.filter_cons_of_neg (by simp [isOf_symm hr]), List.filter_nil,
      List.append_nil]
  obtain ⟨f, hf, heq, hst, hfl⟩ := refresh_follows db₁ (IndexRow.isOf w.hostSessionId w.generation)
    (runtimeColumns w.lastActivityAt) (fun _ _ => rfl) hm (.refl _) rfl (fun _ s hs => ⟨s, hs, rfl⟩) rfl
    (refreshes_runtime _) (fun r hr => (isOf_iff.mp hr).1) hp
  refine ⟨_, ?_, hfl, fun t ht => ?_⟩
  · unfold Database.execute
    dsimp only
    rw [hfr]
    exact heq
  · exact sets_records hf hp.linked hst t ht

theorem updateRuntime_follows (hm : Mirrors db) {old : Runtime τ} (hfn : db.runtimes.find w.runtimeId = some old) :
    ∃ db', db.execute (.updateRuntime w) = .ok db' ∧ Follows db db' ∧ Records w db'.index := by
  obtain ⟨-, hid⟩ := find_mem hfn
  let db₁ : Database τ :=
    { db with
      runtimes := db.runtimes.amend w.runtimeId (fun _ => true) (fun a => { w with runtimeId := a.runtimeId }) fun _ => rfl }
  have hstale : Pending db₁ (runtimeColumns none) fun r =>
      r.isOf old.hostSessionId old.generation || (r.isOf w.hostSessionId w.generation || false) := by
    refine runtimes_pending hm _ fun r hr => ?_
    simp only [Bool.or_false, Bool.or_eq_false_iff] at hr
    refine filter_amend _ fun a ha hkey => ⟨?_, ?_⟩
    · rw [show a = old from List.inj_on_of_nodup_map db.runtimes.nodup ha (find_mem hfn).1 (hkey.trans hid.symm)]
      exact isOf_symm hr.1
    · exact isOf_symm hr.2
  obtain ⟨g, hg, hk, hso⟩ : ∃ g hg, db₁.refreshKept old.hostSessionId
      (IndexRow.isOf old.hostSessionId old.generation) (runtimeColumns none) (fun _ _ => rfl) = _ ∧ Sets db₁ _ _ g :=
    refreshKept_eq (fun r hr => (isOf_iff.mp hr).1) hstale.linked
  let db₂ : Database τ := { db₁ with index := db₁.index.alter (IndexRow.isOf old.hostSessionId old.generation) g hg }
  have hgr : Grown db₁.index db₂.index := alter_grown hg (refreshes_runtime none) hstale.linked hso
  have haft : Pending db₂ (runtimeColumns none) fun r => r.isOf w.hostSessionId w.generation || false :=
    alter_pending hg (refreshes_runtime none) hso (fun _ _ => rfl) hstale
  have hp : Pending db₂ (runtimeColumns w.lastActivityAt) fun r => r.isOf w.hostSessionId w.generation || false :=
    haft
  obtain ⟨f, hf, heq, hst, hfl⟩ := refresh_follows db₂ (IndexRow.isOf w.hostSessionId w.generation)
    (runtimeColumns w.lastActivityAt) (fun _ _ => rfl) hm hgr rfl (fun _ s hs => ⟨s, hs, rfl⟩) rfl
    (refreshes_runtime _) (fun r hr => (isOf_iff.mp hr).1) hp
  refine ⟨_, ?_, hfl, fun t ht => ?_⟩
  · unfold Database.execute
    dsimp only
    rw [hfn]
    exact (congrArg (fun d => Database.refresh d _ _ _ _) hk).trans heq
  · exact sets_records hf hp.linked hst t ht

theorem deleteRuntime_follows (hm : Mirrors db) {id : String} {old : Runtime τ} (hfn : db.runtimes.find id = some old) :
    ∃ db', db.execute (.deleteRuntime id) = .ok db' ∧ Follows db db' := by
  obtain ⟨-, hid⟩ := find_mem hfn
  let db₁ : Database τ := { db with runtimes := db.runtimes.erase (·.runtimeId == id) }
  have hp : Pending db₁ (runtimeColumns none) fun r => r.isOf old.hostSessionId old.generation || false := by
    refine runtimes_pending hm _ fun r hr => ?_
    rw [Bool.or_false] at hr
    refine (List.filter_filter ..).trans (List.filter_congr fun a ha => ?_)
    change (a.isOf _ _ && !(a.runtimeId == id)) = _
    cases hk : a.runtimeId == id with
    | false => exact Bool.and_true _
    | true =>
      rw [show a = old from List.inj_on_of_nodup_map db.runtimes.nodup ha (find_mem hfn).1
        ((eq_of_beq hk).trans hid.symm), isOf_symm hr]
      rfl
  obtain ⟨f, hf, heq, -, hfl⟩ := refresh_follows db₁ (IndexRow.isOf old.hostSessionId old.generation)
    (runtimeColumns none) (fun _ _ => rfl) hm (.refl _) rfl (fun _ s hs => ⟨s, hs, rfl⟩) rfl
    (refreshes_runtime _) (fun r hr => (isOf_iff.mp hr).1) hp
  refine ⟨_, ?_, hfl⟩
  unfold Database.execute
  dsimp only
  rw [hfn]
  exact heq

def titleColumn (v r : IndexRow τ) : IndexRow τ := { r with title := v.title }

theorem refreshes_title : Refreshes (titleColumn : IndexRow τ → IndexRow τ → IndexRow τ) where
  advances _ _ := ⟨rfl, rfl, rfl, le_refl _⟩
  shows v r h := by
    obtain ⟨p, t⟩ := r
    obtain rfl : p = v.toProjection := h
    rfl

theorem retitle_follows (hm : Mirrors db) (t : Store Metadata Metadata.id) (lineage : Lineage) (key : String)
    (hfr : ∀ l, ¬ (l = lineage ∧ key = "title") →
      t.rows.filter (Metadata.isTitleOf l) = db.metadata.rows.filter (Metadata.isTitleOf l)) :
    Follows db ({ db with metadata := t }.retitle lineage key) := by
  let db₁ : Database τ := { db with metadata := t }
  have ht {l : Lineage} (h : ¬ (l = lineage ∧ key = "title")) : db₁.title l = db.title l := by
    unfold Database.title
    rw [hfr l h]
  change Follows db (db₁.retitle lineage key)
  unfold Database.retitle
  split
  · have hpn : Pending db₁ titleColumn fun r => r.lineage == lineage || false := by
      intro r hr
      obtain ⟨s, c, hln, hpr⟩ := hm.shown r hr
      refine ⟨s, c, ⟨hln.session, hln.continuity, hln.active⟩, ?_, fun hoth => ?_⟩
      · obtain ⟨p, a⟩ := r
        obtain rfl : p = (db.joined s c).toProjection := hpr
        rfl
      · have hl : r.lineage = s.lineage := congrArg Projection.lineage hpr
        have hne : s.lineage ≠ lineage := by simpa [hl] using hoth
        have hsm : (db₁.joined s c).toProjection = (db.joined s c).toProjection :=
          joined_congr rfl (ht fun h => hne h.1)
        rw [hpr, hsm]
    have hst : Sets db₁ (·.lineage == lineage) titleColumn fun r => { r with title := db₁.title lineage } := by
      intro r hr hp s c hln
      obtain ⟨s', c', hl', hpr⟩ := hm.shown r hr
      obtain rfl : s = s' := Option.some.inj (hln.session.symm.trans hl'.session)
      have hl : s.lineage = lineage := (congrArg Projection.lineage hpr).symm.trans (eq_of_beq hp)
      rw [← hl]
      rfl
    have hk (r : IndexRow τ) : ({ r with title := db₁.title lineage } : IndexRow τ).key = r.key := rfl
    let db₂ : Database τ := { db₁ with index := db₁.index.alter (·.lineage == lineage) _ hk }
    have hgr : Grown db₁.index db₂.index := alter_grown hk refreshes_title hpn.linked hst
    have haft : Pending db₂ titleColumn fun _ => false :=
      alter_pending hk refreshes_title hst (fun _ _ => rfl) hpn
    exact hm.follows hgr rfl (fun _ s hs => ⟨s, hs, rfl⟩) haft.shown fun _ _ _ he _ => .inl he
  · rename_i hk
    refine hm.follows (.refl _) rfl (fun _ s hs => ⟨s, hs, rfl⟩) (fun r hr => ?_) fun _ _ _ he _ => .inl he
    exact (hm.shown r hr).same (fun _ _ ha => ha) rfl rfl (ht fun h => hk h.2)

theorem isTitleOf_eq_false {m : Metadata} {l : Lineage} (h : ¬ (l = m.lineage ∧ m.key = "title")) : m.isTitleOf l = false := by
  simp only [Metadata.isTitleOf, Bool.and_eq_false_iff, beq_eq_false_iff_ne]
  by_cases hl : l = m.lineage
  · exact .inr fun hk => h ⟨hl, hk⟩
  · exact .inl (Ne.symm hl)

theorem setMetadata_follows (hm : Mirrors db) (m : Metadata) :
    ∃ db', db.execute (.setMetadata m) = .ok db' ∧ Follows db db' := by
  have hid (old : Metadata) : ({ old with value := m.value } : Metadata).id = old.id := rfl
  refine ⟨_, rfl, retitle_follows hm _ m.lineage m.key fun l hl => filter_upsert hid fun a ha => ?_⟩
  have hlin : a.lineage = m.lineage := congrArg Prod.fst ha
  have hk : a.key = m.key := congrArg (·.2.1) ha
  exact isTitleOf_eq_false (by rw [hlin, hk]; exact hl)

theorem clearMetadata_follows (hm : Mirrors db) (id : Lineage × String × MetadataSource) :
    ∃ db', db.execute (.clearMetadata id) = .ok db' ∧ Follows db db' := by
  unfold Database.execute
  dsimp only
  cases hf : db.metadata.find id with
  | none => exact ⟨db, rfl, .refl hm⟩
  | some old =>
    obtain ⟨hold, hid⟩ := find_mem hf
    refine ⟨_, rfl, retitle_follows hm _ old.lineage old.key fun l hl => ?_⟩
    refine (List.filter_filter ..).trans (List.filter_congr fun a ha => ?_)
    change (a.isTitleOf l && !(a.id == id)) = _
    cases hk : a.id == id with
    | false => exact Bool.and_true _
    | true =>
      rw [show a = old from List.inj_on_of_nodup_map db.metadata.nodup ha hold ((eq_of_beq hk).trans hid.symm),
        isTitleOf_eq_false hl]
      rfl

theorem appendEvent_follows (hm : Mirrors db) (e : LifecycleEvent τ) :
    ∃ db', db.execute (.appendEvent e) = .ok db' ∧ Follows db db' := by
  have hk (r : IndexRow τ) : ({ r with lastActivityAt := max r.lastActivityAt e.ts } : IndexRow τ).key = r.key := rfl
  refine ⟨_, rfl, hm.follows ⟨keys_alter hk, fun r' hr' => ?_⟩ rfl (fun _ s hs => ⟨s, hs, rfl⟩) (fun r' hr' => ?_)
    fun r' hr' a ha hof => ?_⟩
  · obtain ⟨r, hr, rfl⟩ := (mem_alter hk).mp hr'
    refine ⟨r, hr, ?_⟩
    split
    · exact ⟨rfl, rfl, rfl, le_max_left _ _⟩
    · exact .refl r
  · obtain ⟨r, hr, rfl⟩ := (mem_alter hk).mp hr'
    obtain ⟨s, c, hl, hpr⟩ := hm.shown r hr
    split
    · exact ⟨s, c, ⟨hl.session, hl.continuity, hl.active⟩, hpr⟩
    · exact ⟨s, c, ⟨hl.session, hl.continuity, hl.active⟩, hpr⟩
  · obtain hold | hn := List.mem_append.mp ha
    · exact .inl hold
    · obtain rfl := List.mem_singleton.mp hn
      obtain ⟨r, hr, rfl⟩ := (mem_alter hk).mp hr'
      refine .inr ?_
      cases hp : r.isOf a.hostSessionId a.generation with
      | true =>
        rw [if_pos rfl]
        exact le_max_right _ _
      | false =>
        rw [hp, if_neg Bool.false_ne_true] at hof
        simp only [IndexRow.isOf, LifecycleEvent.isOf, Bool.and_eq_false_iff, Bool.and_eq_true, beq_iff_eq,
          beq_eq_false_iff_ne] at hp hof
        exact absurd hof.2.symm (hp.resolve_left fun h => h hof.1.symm)

end Statements

end HrcRuntime.SessionIndexTriggers
