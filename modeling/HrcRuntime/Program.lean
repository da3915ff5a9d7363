import Mathlib.Logic.Relation

namespace HrcRuntime.Program

open Relation

/-- A computation over a state. It leaves a state behind whether it returns or throws, so
memory written before a throw stays written. -/
def Prog (σ ε α : Type) : Type := σ → Except ε α × σ

variable {σ ε α β δ : Type}

namespace Prog

def pure (a : α) : Prog σ ε α := fun s => (.ok a, s)

def bind (m : Prog σ ε α) (f : α → Prog σ ε β) : Prog σ ε β := fun s =>
  match m s with
  | (.ok a, s') => f a s'
  | (.error e, s') => (.error e, s')

instance : Monad (Prog σ ε) where
  pure := Prog.pure
  bind := Prog.bind

def throw (e : ε) : Prog σ ε α := fun s => (.error e, s)

def read (q : σ → α) : Prog σ ε α := fun s => (.ok (q s), s)

def modify (f : σ → σ) : Prog σ ε Unit := fun s => (.ok (), f s)

/-- `try m catch e => h e`. -/
def catchWith (m : Prog σ ε α) (h : ε → Prog σ ε α) : Prog σ ε α := fun s =>
  match m s with
  | (.ok a, s') => (.ok a, s')
  | (.error e, s') => h e s'

/-- `try m finally f`, for a `finally` block that only touches memory. -/
def ensuring (m : Prog σ ε α) (f : σ → σ) : Prog σ ε α := fun s => ((m s).1, f (m s).2)

/-- Run `m` on a view of the state that is put back when `m` throws; the rest of the state
keeps what `m` did to it. -/
def transaction (view : σ → δ) (restore : δ → σ → σ) (m : Prog σ ε α) : Prog σ ε α := fun s =>
  match m s with
  | (.ok a, s') => (.ok a, s')
  | (.error e, s') => (.error e, restore (view s) s')

/-- `if (c) m`. -/
def when (c : Bool) (m : Prog σ ε Unit) : Prog σ ε Unit := if c then m else Prog.pure ()

/-- A `for (const a of as)` loop. -/
def forEach : List α → (α → Prog σ ε Unit) → Prog σ ε Unit
  | [], _ => Prog.pure ()
  | a :: as, f => Prog.bind (f a) fun _ => forEach as f

/-- `as.map(f)`, run for its effects. -/
def mapEach : List α → (α → Prog σ ε β) → Prog σ ε (List β)
  | [], _ => Prog.pure []
  | a :: as, f => Prog.bind (f a) fun b => Prog.bind (mapEach as f) fun bs => Prog.pure (b :: bs)

end Prog

theorem bind_apply (m : Prog σ ε α) (f : α → Prog σ ε β) (s : σ) :
    (m >>= f) s = match m s with
      | (.ok a, s') => f a s'
      | (.error e, s') => (.error e, s') := rfl

theorem read_bind (q : σ → α) (f : α → Prog σ ε β) (s : σ) : (Prog.read q >>= f) s = f (q s) s := rfl

variable {f : α → Prog σ ε β} {m : Prog σ ε α}

theorem bind_ok {s s' : σ} {a : α} (h : m s = (.ok a, s')) :
    (m >>= f) s = f a s' := by
  rw [bind_apply, h]

theorem bind_error {s s' : σ} {e : ε} (h : m s = (.error e, s')) :
    (m >>= f) s = (.error e, s') := by
  rw [bind_apply, h]

theorem bind_eq_ok {s t : σ} {b : β} :
    (m >>= f) s = (.ok b, t) ↔ ∃ a s', m s = (.ok a, s') ∧ f a s' = (.ok b, t) := by
  rw [bind_apply]
  constructor
  · intro h
    rcases hm : m s with ⟨_ | a, s'⟩
    · rw [hm] at h
      simp at h
    · rw [hm] at h
      exact ⟨a, s', rfl, h⟩
  · rintro ⟨a, s', hm, hf⟩
    rw [hm]
    exact hf

theorem bind_eq_error {s t : σ} {e : ε} :
    (m >>= f) s = (.error e, t) ↔ m s = (.error e, t) ∨ ∃ a s', m s = (.ok a, s') ∧ f a s' = (.error e, t) := by
  rw [bind_apply]
  constructor
  · intro h
    rcases hm : m s with ⟨_ | a, s'⟩
    · rw [hm] at h
      cases h
      exact .inl rfl
    · rw [hm] at h
      exact .inr ⟨a, s', rfl, h⟩
  · rintro (hm | ⟨a, s', hm, hf⟩)
    · rw [hm]
    · rw [hm]
      exact hf

/-- `m` looks at the state and leaves it as it was, thrown or returned. -/
def ReadOnly (m : Prog σ ε α) : Prop := ∀ s, (m s).2 = s

theorem ReadOnly.pure (a : α) : ReadOnly (Pure.pure a : Prog σ ε α) := fun _ => rfl

theorem ReadOnly.throw (e : ε) : ReadOnly (Prog.throw e : Prog σ ε α) := fun _ => rfl

theorem ReadOnly.read (q : σ → α) : ReadOnly (Prog.read q : Prog σ ε α) := fun _ => rfl

theorem ReadOnly.bind (hm : ReadOnly m) (hf : ∀ a, ReadOnly (f a)) :
    ReadOnly (m >>= f) := by
  intro s
  have h := hm s
  rw [bind_apply]
  rcases hs : m s with ⟨e | a, s'⟩
  · rwa [hs] at h
  · rw [hs] at h
    exact (hf a s').trans h

theorem ReadOnly.state (hm : ReadOnly m) {s s' : σ} {r : Except ε α} (h : m s = (r, s')) :
    s' = s := by
  have := hm s
  rwa [h] at this

/-- Every value `m` returns satisfies `Q`. -/
def Returns (Q : α → Prop) (m : Prog σ ε α) : Prop := ∀ s a t, m s = (.ok a, t) → Q a

theorem Returns.pure {Q : α → Prop} {a : α} (h : Q a) : Returns Q (Pure.pure a : Prog σ ε α) := by
  intro s b t hb
  cases hb
  exact h

theorem Returns.bind {Q : β → Prop} (h : ∀ a, Returns Q (f a)) :
    Returns Q (m >>= f) := by
  intro s b t hb
  obtain ⟨a, u, -, hf⟩ := bind_eq_ok.mp hb
  exact h a u b t hf

/-- Every state a run of `m` from `s` passes through is reached by steps of `R`; the run may end
in a throw. -/
def EmitsFrom (R : σ → σ → Prop) (s : σ) (m : Prog σ ε α) : Prop := ReflTransGen R s (m s).2

/-- `m` only ever changes the state by steps of `R`. -/
def Emits (R : σ → σ → Prop) (m : Prog σ ε α) : Prop := ∀ s, EmitsFrom R s m

section Rules

variable {R R' : σ → σ → Prop} {s : σ} {m : Prog σ ε α} {f : α → Prog σ ε β}

theorem EmitsFrom.mono (h : EmitsFrom R s m) (hr : ∀ a b, R a b → R' a b) : EmitsFrom R' s m :=
  Relation.ReflTransGen.mono hr _ _ h

theorem Emits.mono (h : Emits R m) (hr : ∀ a b, R a b → R' a b) : Emits R' m := fun s => (h s).mono hr

theorem EmitsFrom.pure (a : α) : EmitsFrom R s (Pure.pure a : Prog σ ε α) := ReflTransGen.refl

theorem EmitsFrom.throw (e : ε) : EmitsFrom R s (Prog.throw e : Prog σ ε α) := ReflTransGen.refl

theorem EmitsFrom.read (q : σ → α) : EmitsFrom R s (Prog.read q : Prog σ ε α) := ReflTransGen.refl

theorem EmitsFrom.modify {f : σ → σ} (h : R s (f s)) : EmitsFrom R s (Prog.modify f : Prog σ ε Unit) :=
  ReflTransGen.single h

theorem EmitsFrom.bind (hm : EmitsFrom R s m)
    (hf : ∀ a s', m s = (.ok a, s') → ReflTransGen R s s' → EmitsFrom R s' (f a)) :
    EmitsFrom R s (m >>= f) := by
  unfold EmitsFrom at hm ⊢
  rw [bind_apply]
  rcases h : m s with ⟨e | a, s'⟩
  · rw [h] at hm
    exact hm
  · rw [h] at hm
    exact hm.trans (hf a s' h hm)

theorem EmitsFrom.bind_readOnly (hm : ReadOnly m) (hf : ∀ a, m s = (.ok a, s) → EmitsFrom R s (f a)) :
    EmitsFrom R s (m >>= f) := by
  unfold EmitsFrom
  rw [bind_apply]
  rcases h : m s with ⟨e | a, s'⟩
  · cases hm.state h
    exact ReflTransGen.refl
  · cases hm.state h
    exact hf a h

theorem EmitsFrom.read_bind {q : σ → α} (hf : EmitsFrom R s (f (q s))) : EmitsFrom R s (Prog.read q >>= f) :=
  hf

theorem Emits.of_readOnly (hm : ReadOnly m) : Emits R m := by
  intro s
  unfold EmitsFrom
  rw [hm s]

theorem EmitsFrom.when {c : Bool} {m : Prog σ ε Unit} (hm : c = true → EmitsFrom R s m) :
    EmitsFrom R s (Prog.when c m) := by
  unfold Prog.when
  split
  · exact hm ‹_›
  · exact ReflTransGen.refl

theorem Emits.pure (a : α) : Emits R (Pure.pure a : Prog σ ε α) := fun _ => EmitsFrom.pure a

theorem Emits.throw (e : ε) : Emits R (Prog.throw e : Prog σ ε α) := fun _ => EmitsFrom.throw e

theorem Emits.read (q : σ → α) : Emits R (Prog.read q : Prog σ ε α) := fun _ => EmitsFrom.read q

theorem Emits.modify {f : σ → σ} (h : ∀ s, R s (f s)) : Emits R (Prog.modify f : Prog σ ε Unit) :=
  fun s => EmitsFrom.modify (h s)

theorem Emits.bind (hm : Emits R m) (hf : ∀ a, Emits R (f a)) : Emits R (m >>= f) :=
  fun s => (hm s).bind fun a s' _ _ => hf a s'

variable {h : ε → Prog σ ε α} {as : List α}

theorem EmitsFrom.catchWith (hm : EmitsFrom R s m)
    (hh : ∀ e s', ReflTransGen R s s' → EmitsFrom R s' (h e)) : EmitsFrom R s (Prog.catchWith m h) := by
  unfold EmitsFrom Prog.catchWith at *
  rcases hs : m s with ⟨e | a, s'⟩
  · rw [hs] at hm
    exact hm.trans (hh e s' hm)
  · rw [hs] at hm
    exact hm

theorem Emits.catchWith (hm : Emits R m) (hh : ∀ e, Emits R (h e)) :
    Emits R (Prog.catchWith m h) := fun s => (hm s).catchWith fun e s' _ => hh e s'

theorem Emits.when {c : Bool} {m : Prog σ ε Unit} (hm : Emits R m) : Emits R (Prog.when c m) :=
  fun s => EmitsFrom.when fun _ => hm s

theorem chain_preserves {I : σ → Prop} (hI : ∀ a b, R a b → I a → I b) {t : σ} (h : ReflTransGen R s t)
    (hs : I s) : I t := by
  induction h with
  | refl => exact hs
  | tail _ hr ih => exact hI _ _ hr ih

theorem EmitsFrom.forEach {f : α → Prog σ ε Unit} (I : σ → Prop)
    (hI : ∀ a b, R a b → I a → I b) (hf : ∀ a ∈ as, ∀ s, I s → EmitsFrom R s (f a)) (hs : I s) :
    EmitsFrom R s (Prog.forEach as f) := by
  induction as generalizing s with
  | nil => exact ReflTransGen.refl
  | cons a as ih =>
    refine EmitsFrom.bind (hf a List.mem_cons_self s hs) fun _ s' _ hr => ?_
    exact ih (fun b hb => hf b (List.mem_cons_of_mem a hb)) (chain_preserves hI hr hs)

theorem Emits.forEach {f : α → Prog σ ε Unit} (hf : ∀ a, Emits R (f a)) :
    Emits R (Prog.forEach as f) :=
  fun _ => EmitsFrom.forEach (fun _ => True) (fun _ _ _ _ => trivial) (fun a _ s _ => hf a s) trivial

theorem Emits.mapEach {f : α → Prog σ ε β} (hf : ∀ a, Emits R (f a)) :
    Emits R (Prog.mapEach as f) := by
  induction as with
  | nil => exact Emits.pure _
  | cons a as ih => exact Emits.bind (hf a) fun _ => Emits.bind ih fun _ => Emits.pure _

theorem EmitsFrom.preserves {I : σ → Prop} (h : EmitsFrom R s m) (hI : ∀ a b, R a b → I a → I b)
    (hs : I s) : I (m s).2 :=
  chain_preserves hI h hs

end Rules

end HrcRuntime.Program
