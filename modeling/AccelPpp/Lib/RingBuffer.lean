import Mathlib

/-!
# Ring buffers with holes

A buffer of `size` slots that is read from `head` on, for items that arrive out of order. The slot
at **offset** `i` is the `i`th one from the head, and any of them may be empty. The head moves when
what is before it has been taken out (`advance`), and what was at offset `i + k` is then at offset
`i`.
-/

/-- A ring buffer; slots at `size` and beyond are not used. -/
structure RingBuffer (α : Type*) where
  slots : ℕ → Option α
  size : ℕ
  head : ℕ

open Function Nat

namespace RingBuffer

variable {α : Type*} {r : RingBuffer α} {a : α} {i j k : ℕ}

section

variable (r : RingBuffer α)

/-- The slot at an offset. -/
def index (i : ℕ) : ℕ := (i + r.head) % r.size

/-- What is at an offset. -/
def slot (i : ℕ) : Option α := r.slots (r.index i)

/-- An item is put at an offset. -/
def put (i : ℕ) (a : α) : RingBuffer α :=
  { r with slots := Function.update r.slots (r.index i) (some a) }

/-- A slot is emptied. -/
def erase (id : ℕ) : RingBuffer α :=
    { r with slots := Function.update r.slots id none }

/-- The head moves. -/
def advance (k : ℕ) : RingBuffer α := { r with head := (r.head + k) % r.size }

end

/-- An empty buffer. -/
def empty (size : ℕ) : RingBuffer α := ⟨fun _ ↦ none, size, 0⟩

lemma index_inj (hi : i < r.size) (hj : j < r.size) (h : r.index i = r.index j) : i = j := by
  have hmod : i ≡ j [MOD r.size] := Nat.ModEq.add_right_cancel' r.head h
  exact Nat.ModEq.eq_of_lt_of_lt hmod hi hj

lemma index_zero (h : r.head < r.size) : r.index 0 = r.head := by
  rw [index, zero_add, mod_eq_of_lt h]

lemma slot_put (hi : i < r.size) (hj : j < r.size) :
    (r.put i a).slot j = if j = i then some a else r.slot j := by
  show update r.slots (r.index i) (some a) (r.index j) = _
  rw [update_apply]
  exact if_congr ⟨fun h ↦ index_inj hj hi h, fun h ↦ h ▸ rfl⟩ rfl rfl

lemma slot_erase (hi : i < r.size) (hj : j < r.size) :
    (r.erase (r.index i)).slot j = if j = i then none else r.slot j := by
  show update r.slots (r.index i) none (r.index j) = _
  rw [update_apply]
  exact if_congr ⟨fun h ↦ index_inj hj hi h, fun h ↦ h ▸ rfl⟩ rfl rfl

lemma slot_advance : (r.advance k).slot i = r.slot (i + k) := by
  have hindex : (i + (r.head + k) % r.size) % r.size = (i + k + r.head) % r.size := by
    rw [add_mod_mod]
    congr 1
    omega
  exact congrArg r.slots hindex

lemma slot_add_size : r.slot (i + r.size) = r.slot i := by
  rw [slot, slot, index, index, add_right_comm, add_mod_right]

lemma index_succ : (r.index i + 1) % r.size = r.index (i + 1) := by
  rw [index, index, mod_add_mod, add_right_comm]

end RingBuffer
