import Mathlib.Data.List.Basic

namespace HrcRuntime.WaitingPass

open List (filter_cons not_mem_nil mem_cons mem_cons_self mem_cons_of_mem)

inductive Effect where
  | finishes | repeats | fails
  deriving DecidableEq

structure Item (α σ : Type) where
  name : α
  waitsOn : Option α
  outcome : Option σ
  effect : Effect

variable {α σ : Type}

def preview (items : List (Item α σ)) : List (Item α σ) :=
  items.filter fun i => i.outcome.isSome && i.waitsOn.isNone

def Independent (items : List (Item α σ)) : Prop :=
  items.Pairwise fun earlier i => earlier.outcome.isSome = true → earlier.waitsOn = none → i.outcome.isSome = true →
    i.waitsOn ≠ some earlier.name

theorem preview_cons (i : Item α σ) (items : List (Item α σ)) :
    preview (i :: items) = if i.outcome.isSome && i.waitsOn.isNone then i :: preview items else preview items := by
  unfold preview
  rw [filter_cons]

variable [DecidableEq α]

def isFree (done : List α) (i : Item α σ) : Bool := i.outcome.isSome && i.waitsOn.all (done.contains ·)

def finish (done : List α) (i : Item α σ) : List α :=
  match i.effect with
  | .finishes => i.name :: done
  | _ => done

/-- Take the free members in order; `done` has finished. -/
def pass (done : List α) : List (Item α σ) → Option (List (Item α σ))
  | [] => some []
  | i :: rest =>
    if isFree done i then
      match i.effect with
      | .fails => none
      | _ => (pass (finish done i) rest).map (i :: ·)
    else pass done rest

section Pass

variable {done : List α} {i : Item α σ} {items rest l : List (Item α σ)}

theorem pass_cons_of_not_free (h : isFree done i = false) : pass done (i :: rest) = pass done rest := by
  conv => lhs; unfold pass
  rw [h]
  rfl

theorem pass_cons_of_free (h : isFree done i = true) (heff : i.effect ≠ .fails) :
    pass done (i :: rest) = (pass (finish done i) rest).map (i :: ·) := by
  conv => lhs; unfold pass
  rw [if_pos h]
  cases he : i.effect with
  | fails => exact absurd he heff
  | finishes | repeats => rfl

theorem pass_cons_eq_some (h : pass done (i :: rest) = some l) :
    isFree done i = false ∧ pass done rest = some l ∨
      isFree done i = true ∧ i.effect ≠ .fails ∧ ∃ l', pass (finish done i) rest = some l' ∧ l = i :: l' := by
  cases hf : isFree done i with
  | false =>
    rw [pass_cons_of_not_free hf] at h
    exact .inl ⟨rfl, h⟩
  | true =>
    have he : i.effect ≠ .fails := by
      intro he
      unfold pass at h
      rw [if_pos hf, he] at h
      cases h
    rw [pass_cons_of_free hf he, Option.map_eq_some_iff] at h
    obtain ⟨l', hl', rfl⟩ := h
    exact .inr ⟨rfl, he, l', hl', rfl⟩

theorem isFree_of_previewed (hout : i.outcome.isSome = true) (hw : i.waitsOn = none) : isFree done i = true := by
  unfold isFree
  rw [hout, hw]
  rfl

theorem preview_subset_pass (h : pass done items = some l) : ∀ i ∈ preview items, i ∈ l := by
  induction items generalizing done l with
  | nil => exact fun i hi => absurd hi not_mem_nil
  | cons j rest ih =>
    intro i hi
    rw [preview_cons] at hi
    rcases pass_cons_eq_some h with ⟨hf, hr⟩ | ⟨-, -, l', hr, rfl⟩
    · split at hi
      · rename_i hj
        rw [Bool.and_eq_true, Option.isNone_iff_eq_none] at hj
        rw [isFree_of_previewed hj.1 hj.2] at hf
        cases hf
      · exact ih hr i hi
    · split at hi
      · rcases mem_cons.mp hi with rfl | hi
        · exact mem_cons_self
        · exact mem_cons_of_mem j (ih hr i hi)
      · exact mem_cons_of_mem j (ih hr i hi)

theorem pass_sublist (h : pass done items = some l) : l.Sublist (items.filter fun i => i.outcome.isSome) := by
  induction items generalizing done l with
  | nil =>
    cases h
    exact .slnil
  | cons i rest ih =>
    rcases pass_cons_eq_some h with ⟨-, hr⟩ | ⟨hf, -, l', hr, rfl⟩
    · rw [filter_cons]
      split
      · exact (ih hr).cons i
      · exact ih hr
    · have hd : i.outcome.isSome = true := (Bool.and_eq_true_iff.mp hf).1
      rw [filter_cons, if_pos hd]
      exact (ih hr).cons_cons i

theorem pass_append {xs ys : List (Item α σ)} (h : pass done (xs ++ ys) = some l) :
    ∃ l₁ l₂, pass done xs = some l₁ ∧ pass (l₁.foldl finish done) ys = some l₂ ∧ l = l₁ ++ l₂ := by
  induction xs generalizing done l with
  | nil => exact ⟨[], l, rfl, h, rfl⟩
  | cons i rest ih =>
    rcases pass_cons_eq_some h with ⟨hf, hr⟩ | ⟨hf, he, l', hr, rfl⟩
    · obtain ⟨l₁, l₂, h₁, h₂, rfl⟩ := ih hr
      exact ⟨l₁, l₂, (pass_cons_of_not_free hf).trans h₁, h₂, rfl⟩
    · obtain ⟨l₁, l₂, h₁, h₂, rfl⟩ := ih hr
      refine ⟨i :: l₁, l₂, ?_, h₂, rfl⟩
      rw [pass_cons_of_free hf he, h₁]
      rfl

omit [DecidableEq α] in
theorem subset_finish (done : List α) (i : Item α σ) : done ⊆ finish done i := by
  unfold finish
  split
  · exact List.subset_cons_self _ _
  · exact List.Subset.refl _

omit [DecidableEq α] in
theorem mem_foldl_finish (l : List (Item α σ)) (done : List α) :
    (∀ a ∈ done, a ∈ l.foldl finish done) ∧
      ∀ i ∈ l, i.effect = .finishes → i.name ∈ l.foldl finish done := by
  induction l generalizing done with
  | nil => exact ⟨fun a ha => ha, fun i hi => absurd hi not_mem_nil⟩
  | cons j rest ih =>
    obtain ⟨hd, hr⟩ := ih (finish done j)
    refine ⟨fun a ha => hd a (subset_finish done j ha), fun i hi he => ?_⟩
    rcases mem_cons.mp hi with rfl | hi
    · refine hd _ ?_
      unfold finish
      rw [he]
      exact mem_cons_self
    · exact hr i hi he

theorem pass_of_independent (hf : ∀ i ∈ preview items, i.effect = .finishes) (hind : Independent items)
    (hd : ∀ i ∈ items, i.outcome.isSome = true → ∀ a, i.waitsOn = some a → a ∉ done) :
    pass done items = some (preview items) := by
  induction items generalizing done with
  | nil => rfl
  | cons i rest ih =>
    obtain ⟨hh, ht⟩ := List.pairwise_cons.mp hind
    have hr := fun j hj => hd j (mem_cons_of_mem i hj)
    rw [preview_cons] at hf ⊢
    by_cases hi : (i.outcome.isSome && i.waitsOn.isNone) = true
    · rw [if_pos hi] at hf ⊢
      obtain ⟨hout, hw⟩ := Bool.and_eq_true_iff.mp hi
      rw [Option.isNone_iff_eq_none] at hw
      have he := hf i mem_cons_self
      have hn : finish done i = i.name :: done := by
        unfold finish
        rw [he]
      rw [pass_cons_of_free (isFree_of_previewed hout hw) (by rw [he]; intro h; cases h), hn,
        ih (fun j hj => hf j (mem_cons_of_mem i hj)) ht ?_]
      · rfl
      · intro j hj hjt a ha hm
        rcases mem_cons.mp hm with rfl | hm
        · exact hh j hj hout hw hjt ha
        · exact hr j hj hjt a ha hm
    · rw [if_neg hi] at hf ⊢
      have hfr : isFree done i = false := by
        unfold isFree
        cases hout : i.outcome.isSome with
        | false => rfl
        | true =>
          cases hw : i.waitsOn with
          | none => exact absurd (by rw [hout, hw]; rfl) hi
          | some a => simpa using hd i mem_cons_self hout a hw
      rw [pass_cons_of_not_free hfr]
      exact ih hf ht hr

omit [DecidableEq α] in
theorem pairwise_of_splits {R : Item α σ → Item α σ → Prop}
    (h : ∀ before i after, items = before ++ i :: after → ∀ earlier ∈ before, R earlier i) : items.Pairwise R := by
  induction items with
  | nil => exact .nil
  | cons j rest ih =>
    refine List.pairwise_cons.mpr ⟨fun i hi => ?_, ih fun before i after hsp earlier he =>
      h (j :: before) i after (congrArg (j :: ·) hsp) earlier (mem_cons_of_mem j he)⟩
    obtain ⟨before, after, rfl⟩ := List.append_of_mem hi
    exact h (j :: before) i after rfl j mem_cons_self

/-- A pass takes exactly its preview, and finishes all of it, just when every previewed member
finishes and no member with an outcome waits on one taken before it. -/
theorem pass_is_preview : (∃ l, pass [] items = some l ∧ (∀ i, i ∈ l ↔ i ∈ preview items) ∧
      ∀ i ∈ l, i.effect = .finishes) ↔
    (∀ i ∈ preview items, i.effect = .finishes) ∧ Independent items := by
  constructor
  · rintro ⟨l, hp, hs, hf⟩
    refine ⟨fun i hi => hf i ((hs i).mpr hi), pairwise_of_splits ?_⟩
    rintro before i after rfl earlier he hdue hfst hout hw
    obtain ⟨l₁, l₂, hbef, hr, rfl⟩ := pass_append hp
    have hpr : earlier ∈ preview before :=
      List.mem_filter.mpr ⟨he, by rw [hdue, hfst]; rfl⟩
    have htk : earlier ∈ l₁ := preview_subset_pass hbef earlier hpr
    have hd := (mem_foldl_finish l₁ []).2 earlier htk (hf earlier (List.mem_append_left _ htk))
    have hfr : isFree (l₁.foldl finish []) i = true := by
      unfold isFree
      rw [hout, hw]
      simpa using hd
    rcases pass_cons_eq_some hr with ⟨hnot, -⟩ | ⟨-, -, l', -, rfl⟩
    · rw [hfr] at hnot
      cases hnot
    · have hi := (hs i).mp (List.mem_append_right _ mem_cons_self)
      have hn := (List.mem_filter.mp hi).2
      rw [hw] at hn
      simp at hn
  · rintro ⟨hf, hind⟩
    exact ⟨preview items, pass_of_independent hf hind fun i _ _ a _ => not_mem_nil,
      fun _ => Iff.rfl, hf⟩

end Pass

end HrcRuntime.WaitingPass
