import Mathlib

/-!
# Things that are at one place at a time

Each thing `x` is at one place `p x`, and belongs to one index `f x`. A place is kept as a family of
holders, one for each index (`Holds`). When one thing goes from a place to another, the holders of
the two places change, and all others stay right.
-/

open Function

namespace Places

variable {α β ι : Type*} {p : α → β} {f f' : α → ι} {a b c : β} {x : α} {L L' : ι → α → Prop}

/-- The holder of the place `a` for the index `i` has what is there and belongs to `i`. -/
def Holds (p : α → β) (f : α → ι) (a : β) (L : ι → α → Prop) : Prop :=
  ∀ i y, L i y ↔ p y = a ∧ f y = i

lemma Holds.congr (h : Holds p f a L) (hf : ∀ y, f' y = f y) (hL : ∀ i y, L' i y ↔ L i y) :
    Holds p f' a L' := by
  intro i y
  rw [hL, h i y, hf y]

/-! The holders are often parts `M (g i)` of larger things `g i`, of which one is written to. -/

variable {σ : Type*} {g : ι → σ} {i : ι} {z : σ}

/-- What becomes of a holder `w` of the place `a` when `x` goes to the place `b`. -/
def Follows (M : σ → α → Prop) (a b : β) (x : α) (w z : σ) : Prop :=
  ∀ y, M z y ↔ y = x ∧ b = a ∨ y ≠ x ∧ M w y

section

variable {M : σ → α → Prop} {w : σ}

/-- The place that `x` leaves. -/
lemma Follows.leave (hz : ∀ y, M z y ↔ M w y ∧ y ≠ x) (hb : b ≠ a := by exact nofun) :
    Follows M a b x w z := by
  intro y
  rw [hz]
  exact ⟨fun hM ↦ .inr hM.symm, fun hM ↦ (hM.resolve_left fun he ↦ hb he.2).symm⟩

/-- The place that `x` enters. -/
lemma Holds.enters (h : Holds p f a fun j ↦ M (g j)) (hx : p x = c)
    (hz : ∀ y, M z y ↔ M (g i) y ∨ y = x) (hc : c ≠ a := by exact nofun) :
    Follows M a a x (g i) z := by
  have hM : ¬ M (g i) x := fun hM ↦ hc (hx ▸ ((h i x).mp hM).1)
  intro y
  rw [hz]
  constructor
  · rintro (hy | hy)
    · exact .inr ⟨fun he ↦ hM (he ▸ hy), hy⟩
    · exact .inl ⟨hy, rfl⟩
  · rintro (⟨hy, -⟩ | ⟨-, hy⟩)
    · exact .inr hy
    · exact .inl hy

/-- A place that `x` neither leaves nor enters. -/
lemma Holds.stays (h : Holds p f a fun j ↦ M (g j)) (hx : p x = c)
    (hc : c ≠ a := by exact nofun) (hb : b ≠ a := by exact nofun)
    (hz : ∀ y, M z y ↔ M (g i) y := by exact fun _ ↦ Iff.rfl) : Follows M a b x (g i) z := by
  intro y
  rw [hz]
  exact ⟨fun hM ↦ .inr ⟨fun he ↦ hc (hx ▸ ((h i x).mp (he ▸ hM)).1), hM⟩,
    fun hM ↦ (hM.resolve_left fun he ↦ hb he.2).2⟩

end

variable [DecidableEq ι]

/-- What holds of all things, and of the new one, holds when one has been written to. -/
lemma forall_update (g : ι → σ) (P : ι → σ → Prop) (hz : P i z) (hg : ∀ j, P j (g j)) (j : ι) :
    P j (update g i z j) :=
  (forall_update_iff g P).mpr ⟨hz, fun j _ ↦ hg j⟩ j

/-- One thing is written to, and stays as it was in what `R` compares. -/
lemma rel_update {R : σ → σ → Prop} (hR : ∀ w, R w w) (h : R (g i) z) (j : ι) :
    R (g j) (update g i z j) :=
  forall_update g (fun j z ↦ R (g j) z) h (fun j ↦ hR (g j)) j

/-- Writing to something else does not change what is held. -/
lemma update_iff (M : σ → α → Prop) (h : ∀ y, M z y ↔ M (g i) y) (j : ι) (y : α) :
    M (update g i z j) y ↔ M (g j) y :=
  forall_update g (fun j z ↦ ∀ y, M z y ↔ M (g j) y) h (fun _ _ ↦ Iff.rfl) j y

/-- One place, when `x` goes to the place `b` and the holders of its index `i` change. -/
lemma Holds.move [DecidableEq α] (M : σ → α → Prop) (h : Holds p f a fun j ↦ M (g j))
    (hf : ∀ y ≠ x, f' y = f y) (hi : b = a → f' x = i) (hx : p x = a → f x = i)
    (hz : Follows M a b x (g i) z) : Holds (update p x b) f' a fun j ↦ M (update g i z j) := by
  intro j y
  show M (update g i z j) y ↔ _
  have h : ∀ j y, M (g j) y ↔ p y = a ∧ f y = j := h
  by_cases hy : y = x
  · rw [hy, update_self]
    by_cases hj : j = i
    · rw [hj, update_self, hz]
      constructor
      · intro hM
        have hba : b = a := (hM.resolve_right fun hne ↦ hne.1 rfl).2
        exact ⟨hba, hi hba⟩
      · exact fun hM ↦ .inl ⟨rfl, hM.1⟩
    · rw [update_of_ne hj, h j x]
      exact iff_of_false (fun hM ↦ hj (hM.2.symm.trans (hx hM.1)))
        fun hf ↦ hj (hf.2.symm.trans (hi hf.1))
  · rw [update_of_ne hy, hf y hy, ← h j y]
    by_cases hj : j = i
    · rw [hj, update_self, hz]
      exact ⟨fun hM ↦ (hM.resolve_left fun he ↦ hy he.1).2, fun hM ↦ .inr ⟨hy, hM⟩⟩
    · rw [update_of_ne hj]

/-! ### Everything at a place goes to another -/

section

variable [DecidableEq β]

/-- What is at the place `a` for the index `i` is now at the place `b`. -/
def shift (p : α → β) (f : α → ι) (a b : β) (i : ι) (y : α) : β :=
  if p y = a ∧ f y = i then b else p y

/-- One place `c`, when all that is at `a` for `i` goes to `b`. -/
lemma Holds.shift (M : σ → α → Prop) (h : Holds p f c fun j ↦ M (g j))
    (hz : ∀ y, M z y ↔ b = c ∧ p y = a ∧ f y = i ∨ a ≠ c ∧ M (g i) y) :
    Holds (shift p f a b i) f c fun j ↦ M (update g i z j) := by
  intro j y
  show M (update g i z j) y ↔ Places.shift p f a b i y = c ∧ _
  have h : ∀ j y, M (g j) y ↔ p y = c ∧ f y = j := h
  unfold Places.shift
  by_cases hj : j = i
  · rw [hj, update_self, hz, h i y]
    split
    next hy =>
      have hac : ¬ (a ≠ c ∧ p y = c ∧ f y = i) := fun hf ↦ hf.1 (hy.1.symm.trans hf.2.1)
      exact ⟨fun hM ↦ ⟨(hM.resolve_right hac).1, hy.2⟩, fun hM ↦ .inl ⟨hM.1, hy⟩⟩
    next hy =>
      exact ⟨fun hM ↦ (hM.resolve_left fun hf ↦ hy hf.2).2,
        fun hM ↦ .inr ⟨fun hac ↦ hy ⟨hM.1.trans hac.symm, hM.2⟩, hM⟩⟩
  · rw [update_of_ne hj, h j y]
    split
    next hy =>
      have hfy : f y ≠ j := fun hf ↦ hj (hf.symm.trans hy.2)
      exact iff_of_false (fun hM ↦ hfy hM.2) fun hM ↦ hfy hM.2
    next => exact Iff.rfl

end

end Places
