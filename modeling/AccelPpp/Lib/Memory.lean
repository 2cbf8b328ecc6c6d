import Mathlib

/-!
# A memory of bytes

A memory gives each address its byte. What a piece of code has put together is a slice of it.
-/

open List

namespace Memory

/-- The bytes `bs`, written from the address `off` on. -/
def write (m : ℕ → UInt8) (off : ℕ) (bs : List UInt8) : ℕ → UInt8 :=
  fun i ↦ if off ≤ i then bs.getD (i - off) (m i) else m i

/-- The `n` bytes from the address `a` on. -/
def slice (m : ℕ → UInt8) (a n : ℕ) : List UInt8 :=
  (List.range n).map fun i ↦ m (a + i)

variable {m m' : ℕ → UInt8} {a n off i : ℕ} {bs : List UInt8}

@[simp] lemma length_slice (m : ℕ → UInt8) (a n : ℕ) : (slice m a n).length = n := by
  rw [slice, length_map, length_range]

lemma slice_add (m : ℕ → UInt8) (a n k : ℕ) :
    slice m a (n + k) = slice m a n ++ slice m (a + n) k := by
  simp only [slice, range_add, map_append, map_map, append_cancel_left_eq]
  exact map_congr_left fun i _ ↦ congrArg m (Nat.add_assoc a n i).symm

lemma slice_congr (h : ∀ i, a ≤ i → i < a + n → m i = m' i) : slice m a n = slice m' a n := by
  refine map_congr_left fun i hi ↦ h _ (Nat.le_add_right a i) ?_
  exact Nat.add_lt_add_left (mem_range.mp hi) a

lemma write_before (h : i < off) : write m off bs i = m i :=
  if_neg (Nat.not_le.mpr h)

lemma write_after (h : off + bs.length ≤ i) : write m off bs i = m i := by
  rw [write, if_pos (by omega), getD, getElem?_eq_none (by omega)]
  rfl

/-- What is outside of the bytes written stays. -/
lemma write_outside (h : i < off ∨ off + bs.length ≤ i) : write m off bs i = m i :=
  h.elim write_before write_after

lemma slice_write_outside (h : a + n ≤ off ∨ off + bs.length ≤ a) :
    slice (write m off bs) a n = slice m a n := by
  refine slice_congr fun i hi hin ↦ write_outside ?_
  omega

lemma slice_write_self (m : ℕ → UInt8) (off : ℕ) (bs : List UInt8) :
    slice (write m off bs) off bs.length = bs := by
  refine ext_getElem (length_slice ..) fun i _ hi ↦ ?_
  simp only [slice, getElem_map, getElem_range]
  rw [write, if_pos (Nat.le_add_right off i), Nat.add_sub_cancel_left, getD, getElem?_eq_getElem hi]
  rfl

/-- The same with the length given otherwise. -/
lemma slice_write_of_length (hn : bs.length = n) : slice (write m off bs) off n = bs :=
  hn ▸ slice_write_self m off bs

end Memory
