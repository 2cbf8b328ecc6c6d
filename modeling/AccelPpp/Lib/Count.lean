import Mathlib

/-!
# Counting below a bound, one place at a time

A counter that is kept beside a family of flags changes by one when one flag does. A **tally** is a
family of counters, one for each kind, beside items each of which is of one kind or of none. It
stays right when an item changes its kind, provided that the counters change accordingly
(`tally_update_iff`), and it is zero throughout exactly when no item is of any kind
(`Tally.zero_iff`).
-/

namespace Counting

open Function Nat

variable {p q : ℕ → Prop} [DecidablePred p] [DecidablePred q] {i n : ℕ}

lemma count_congr (h : ∀ j < n, p j ↔ q j) : count p n = count q n :=
  le_antisymm (count_mono_left fun j hj ↦ (h j hj).mp)
    (count_mono_left fun j hj ↦ (h j hj).mpr)

/-- One more. -/
lemma count_raise (hi : i < n) (hp : ¬ p i) (hq : q i) (h : ∀ j, j ≠ i → (p j ↔ q j)) :
    count q n = count p n + 1 := by
  induction n with
  | zero => exact absurd hi (not_lt_zero i)
  | succ n ih =>
    rw [count_succ, count_succ]
    by_cases hin : i = n
    · subst hin
      have hsame : count p i = count q i :=
        count_congr fun j hj ↦ h j (Nat.ne_of_lt hj)
      rw [if_pos hq, if_neg hp, hsame]
    · have hn : (if q n then 1 else 0) = if p n then 1 else 0 := by
        simp only [h n (Ne.symm hin)]
      omega

/-! ### Tallies -/

section Tally

variable {κ : Type*} [DecidableEq κ] {f : ℕ → Option κ} {c d : κ → ℤ}

/-- The counter of each kind is the number of items below `n` that are of it. -/
def Tally (f : ℕ → Option κ) (n : ℕ) (c : κ → ℤ) : Prop :=
  ∀ k, c k = count (fun i ↦ f i = some k) n

/-- One, for the kind of the item. -/
def unit (o : Option κ) (k : κ) : ℤ :=
  if o = some k then 1 else 0

lemma tally_zero (f : ℕ → Option κ) : Tally f 0 fun _ ↦ 0 :=
  fun _ ↦ rfl

/-- What one item adds to the count of a kind. -/
lemma count_update (hi : i < n) {o : Option κ} {k : κ} :
    (count (fun j ↦ update f i o j = some k) n : ℤ) =
      count (fun j ↦ update f i none j = some k) n + unit o k := by
  have hself : ∀ o', update f i o' i = o' := fun o' ↦ update_self ..
  have hother : ∀ j, j ≠ i →
      (update f i none j = some k ↔ update f i o j = some k) := fun j hj ↦ by
    rw [update_of_ne hj, update_of_ne hj]
  rw [unit]
  by_cases ho : o = some k
  · have hup := count_raise hi (p := fun j ↦ update f i none j = some k)
      (q := fun j ↦ update f i o j = some k) (by rw [hself]; nofun) (by rwa [hself]) hother
    rw [if_pos ho, hup]
    rfl
  have hsame := count_congr (n := n) (p := fun j ↦ update f i none j = some k)
    (q := fun j ↦ update f i o j = some k) fun j _ ↦ by
      by_cases hj : j = i
      · rw [hj, hself, hself]
        exact iff_of_false nofun ho
      · exact hother j hj
  rw [if_neg ho, hsame, Int.add_zero]

variable (h : Tally f n c)

include h

lemma Tally.nonneg (k : κ) : 0 ≤ c k := by
  rw [h k]
  exact Int.natCast_nonneg _

/-- One more item. -/
lemma Tally.succ : Tally f (n + 1) fun k ↦ c k + unit (f n) k := by
  intro k
  dsimp only
  rw [count_succ, h k, unit]
  split <;> simp

/-- Only the items below the bound matter. -/
lemma Tally.congr {g : ℕ → Option κ} (hfg : ∀ i < n, f i = g i) : Tally g n c := by
  intro k
  rw [h k]
  exact congrArg _ (count_congr fun i hi ↦ by rw [hfg i hi])

/-- One item changes its kind. -/
lemma Tally.update (hi : i < n) (o : Option κ) :
    Tally (update f i o) n fun k ↦ c k - unit (f i) k + unit o k := by
  intro k
  have hold : c k = Nat.count (fun j ↦ Function.update f i none j = some k) n + unit (f i) k := by
    rw [h k, ← count_update hi, update_eq_self]
  rw [count_update hi]
  dsimp only
  omega

lemma Tally.unique (h' : Tally f n d) : c = d :=
  funext fun k ↦ (h k).trans (h' k).symm

/-- The counters are right after the change if and only if they have changed with it. -/
lemma tally_update_iff (hi : i < n) (o : Option κ) :
    Tally (update f i o) n d ↔ ∀ k, d k = c k - unit (f i) k + unit o k := by
  constructor
  · intro h' k
    exact congrFun (h'.unique (h.update hi o)) k
  · intro hd
    rw [show d = _ from funext hd]
    exact h.update hi o

/-- All counters are zero exactly when no item is of any kind. -/
lemma Tally.zero_iff : (∀ k, c k = 0) ↔ ∀ i < n, f i = none := by
  constructor
  · intro hzero i hi
    rw [Option.eq_none_iff_forall_ne_some]
    intro k hk
    have hcount : count (fun i ↦ f i = some k) n ≠ 0 :=
      count_ne_iff_exists.mpr ⟨i, hi, hk⟩
    have hck := h k
    rw [hzero k] at hck
    omega
  · intro hnone k
    rw [h k, Int.natCast_eq_zero]
    by_contra hcount
    obtain ⟨i, hi, hk⟩ := count_ne_iff_exists.mp hcount
    nomatch (hnone i hi).symm.trans hk

end Tally

end Counting
