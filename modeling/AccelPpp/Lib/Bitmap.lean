import Mathlib

/-!
# Bitmaps of machine words, and the search that goes round them

A set of small numbers kept as the bits of an array of `n` words of `w` bits: the number `i` is
bit `i % w` of word `i / w`. This is the usual representation of a pool of identifiers.

`Bitmap.has` is total: a number past the last word is simply not there. What the two updates do is
said through it and through nothing else. `has_orWord` is about or-ing an **arbitrary** word value
into the array, because the value a program computes for "the bit of `i`" need not be one bit;
`has_clearBit` is about clearing a bit by its position.

`cyc k j` is the word reached from word `k` in `j` steps when the last word is followed by the
first. A search that starts at `k` and stops when it is back at `k` has seen every word
(`exists_cyc_eq`), and it is back after `n` steps and not before (`cyc_eq_self_iff`).
-/

/-- An array of `n` words of `w` bits each. -/
structure Bitmap (n w : ℕ) where
  /-- The words, by position. -/
  word : Fin n → BitVec w

/-- The position of the lowest bit that is set, if one is. -/
def lowestSet {w : ℕ} (v : BitVec w) : Option ℕ :=
  (List.range w).find? v.getLsbD

variable {w i : ℕ} {v : BitVec w}

lemma lt_of_lowestSet (h : lowestSet v = some i) : i < w :=
  List.mem_range.mp (List.mem_of_find?_eq_some h)

lemma getLsbD_of_lowestSet (h : lowestSet v = some i) : v.getLsbD i = true :=
  List.find?_some h

lemma getLsbD_of_lowestSet_none (h : lowestSet v = none) {i : ℕ} : v.getLsbD i = false := by
  rcases lt_or_ge i w with hi | hi
  · have := List.find?_eq_none.mp h i (List.mem_range.mpr hi)
    simpa using this
  · exact BitVec.getLsbD_of_ge v i hi

/-- One bit shifted into position `b` is the word with just that bit. -/
lemma getLsbD_one_shiftLeft {b : ℕ} (hi : i < w) : (1#w <<< b).getLsbD i = decide (i = b) := by
  rw [← BitVec.twoPow_eq, BitVec.getLsbD_twoPow, ← Bool.decide_and]
  exact decide_eq_decide.mpr ⟨fun h ↦ h.2.symm, fun h ↦ ⟨h ▸ hi, h.symm⟩⟩

namespace Bitmap

open Nat

variable {n w : ℕ}

section

variable (m : Bitmap n w) (k : Fin n)

/-- Whether the number `i` is in the set. -/
def has (i : ℕ) : Bool :=
  if h : i / w < n then (m.word ⟨i / w, h⟩).getLsbD (i % w) else false

/-- Replace word `k`. -/
def setWord (v : BitVec w) : Bitmap n w :=
  ⟨fun l ↦ if l = k then v else m.word l⟩

/-- Or the value `v` into word `k`. -/
def orWord (v : BitVec w) : Bitmap n w :=
  m.setWord k (m.word k ||| v)

/-- Clear bit `b` of word `k`. -/
def clearBit (b : ℕ) : Bitmap n w :=
  m.setWord k (m.word k &&& ~~~(1#w <<< b))

end

variable {m : Bitmap n w} {k : Fin n} {v : BitVec w} {b i : ℕ}

lemma has_of_div_eq (h : i / w = k) : m.has i = (m.word k).getLsbD (i % w) := by
  have hlt : i / w < n := h ▸ k.isLt
  have hk : (⟨i / w, hlt⟩ : Fin n) = k := Fin.ext h
  rw [has, dif_pos hlt, hk]

lemma has_setWord_of_eq (h : i / w = k) : (m.setWord k v).has i = v.getLsbD (i % w) := by
  rw [has_of_div_eq h]
  simp only [setWord, if_true]

lemma has_setWord_of_ne (h : i / w ≠ k) : (m.setWord k v).has i = m.has i := by
  unfold has
  split
  · next hlt =>
    have hne : (⟨i / w, hlt⟩ : Fin n) ≠ k := fun he ↦ h (congrArg Fin.val he)
    simp only [setWord, if_neg hne]
  · rfl

lemma word_bit_div (hb : b < w) : (k * w + b) / w = k := by
  rw [Nat.mul_comm, Nat.mul_add_div (by omega), Nat.div_eq_of_lt hb, Nat.add_zero]

/-- Bit `b` of word `k` is the number `k * w + b`. -/
lemma has_word_bit (hb : b < w) : m.has (k * w + b) = (m.word k).getLsbD b := by
  have hmod : (k * w + b) % w = b := by
    rw [Nat.mul_comm, Nat.mul_add_mod, Nat.mod_eq_of_lt hb]
  rw [has_of_div_eq (word_bit_div hb), hmod]

/-- **Or-ing a word in** adds the numbers of word `k` whose bit `v` has, and touches no other. -/
theorem has_orWord :
    (m.orWord k v).has i = true ↔ m.has i = true ∨ (i / w = k ∧ v.getLsbD (i % w) = true) := by
  by_cases h : i / w = k
  · rw [orWord, has_setWord_of_eq h, has_of_div_eq h]
    simp [h]
  · rw [orWord, has_setWord_of_ne h]
    simp [h]

/-- **Clearing a bit** removes exactly its number. -/
theorem has_clearBit (hb : b < w) :
    (m.clearBit k b).has i = true ↔ m.has i = true ∧ i ≠ k * w + b := by
  by_cases h : i / w = k
  · have hi : i ≠ k * w + b ↔ i % w ≠ b := by
      have := div_add_mod' i w
      rw [h] at this
      omega
    have hlt : i % w < w := mod_lt _ (by omega)
    rw [clearBit, has_setWord_of_eq h, has_of_div_eq h, hi, BitVec.getLsbD_and,
      BitVec.getLsbD_not, getLsbD_one_shiftLeft hlt]
    simp [hlt]
  · have hi : i ≠ k * w + b := by
      rintro rfl
      exact h (word_bit_div hb)
    rw [clearBit, has_setWord_of_ne h]
    simp [hi]

/-! ### Going round the words -/

/-- The word after `k`; the last word is followed by the first. -/
def next (k : Fin n) : Fin n :=
  if h : k.val + 1 = n then ⟨0, k.pos⟩ else ⟨k.val + 1, by omega⟩

/-- The word reached from `k` in `j` steps. -/
def cyc (k : Fin n) (j : ℕ) : Fin n :=
  ⟨(k + j) % n, mod_lt _ k.pos⟩

@[simp] lemma cyc_zero : cyc k 0 = k :=
  Fin.ext (mod_eq_of_lt k.isLt)

lemma next_cyc (k : Fin n) (j : ℕ) : next (cyc k j) = cyc k (j + 1) := by
  have hlt : (k + j) % n < n := Nat.mod_lt _ k.pos
  have hval : (next (cyc k j)).val = if (k + j) % n + 1 = n then 0 else (k + j) % n + 1 := by
    exact apply_dite Fin.val _ _ _
  apply Fin.ext
  rw [hval]
  show _ = (k + (j + 1)) % n
  rw [← Nat.add_assoc, Nat.add_mod_eq_ite (m := k + j)]
  rcases lt_or_ge 1 n with h1 | h1
  · rw [mod_eq_of_lt h1]
    split <;> split <;> omega
  · obtain rfl : n = 1 := by omega
    simp [mod_one]

lemma cyc_eq_self_iff {j : ℕ} (h₀ : 0 < j) (hj : j ≤ n) : cyc k j = k ↔ j = n := by
  have hk := k.isLt
  rw [Fin.ext_iff]
  show (k + j) % n = k ↔ j = n
  constructor
  · intro h
    by_contra hne
    rcases lt_or_ge (k + j) n with hlt | hge
    · rw [mod_eq_of_lt hlt] at h
      omega
    · rw [mod_eq_sub_mod hge, mod_eq_of_lt (by omega)] at h
      omega
  · rintro rfl
    rw [add_mod_right, mod_eq_of_lt hk]

/-- Every word is met within one round. -/
lemma exists_cyc_eq (k l : Fin n) : ∃ j < n, cyc k j = l := by
  have hl := l.isLt
  rcases lt_or_ge l.val k.val with h | h
  · refine ⟨n - k + l, by omega, Fin.ext ?_⟩
    show (k + (n - k + l)) % n = l
    rw [show k.val + (n - k + l) = l + n by omega, add_mod_right, mod_eq_of_lt hl]
  · refine ⟨l - k, by omega, Fin.ext ?_⟩
    show (k + (l - k)) % n = l
    rw [show k.val + (l.val - k.val) = l by omega, mod_eq_of_lt hl]

end Bitmap
