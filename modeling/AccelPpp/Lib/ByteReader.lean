import Mathlib

/-!
# Programs that read bytes from a memory

A `Reader α` is a tree: at a leaf stands the result, at a node the offset of a byte and, for each
value the byte may have, the rest of the program. A memory `m : ℕ → UInt8` picks one path.

* `result m p` is the leaf the path ends in.
* `Within m n p`: every offset on the path lies below `n`.
* `Confined m n p`: moreover the result is the same in every memory that agrees with `m` below `n`.

**The two notions coincide** (`confined_iff`). `Within` is what one proves about a program, by the
rules `within_bind`, `within_bytes` and `within_str`; the last two are exact, the one for strings
with the early end at a NUL that a C string function has.
-/

namespace ByteReader

universe u

/-- A program that reads bytes and returns an `α`. -/
inductive Reader (α : Type u) where
  | pure (a : α)
  | read (off : ℕ) (k : UInt8 → Reader α)

namespace Reader

variable {α β : Type u}

protected def bind : Reader α → (α → Reader β) → Reader β
  | .pure a, f => f a
  | .read off k, f => .read off fun b ↦ (k b).bind f

instance : Monad Reader where
  pure := .pure
  bind := .bind

/-- The result in a memory. -/
def result (m : ℕ → UInt8) : Reader α → α
  | .pure a => a
  | .read off k => (k (m off)).result m

/-- **Every byte read lies below `n`.** -/
def Within (m : ℕ → UInt8) (n : ℕ) : Reader α → Prop
  | .pure _ => True
  | .read off k => off < n ∧ (k (m off)).Within m n

instance decidableWithin (m : ℕ → UInt8) (n : ℕ) : ∀ p : Reader α, Decidable (p.Within m n)
  | .pure _ => isTrue trivial
  | .read off k =>
    have := decidableWithin m n (k (m off))
    inferInstanceAs (Decidable (off < n ∧ (k (m off)).Within m n))

/-- **The bytes from `n` on do not matter**: none is read, and none can change the result. -/
def Confined (m : ℕ → UInt8) (n : ℕ) (p : Reader α) : Prop :=
  p.Within m n ∧ ∀ m' : ℕ → UInt8, (∀ o < n, m' o = m o) → p.result m' = p.result m

/-- The byte at an offset. -/
def byte (off : ℕ) : Reader UInt8 :=
  .read off .pure

/-- As many bytes as wanted, from an offset on. -/
def bytes (off : ℕ) : ℕ → Reader (List UInt8)
  | 0 => .pure []
  | len + 1 => do
    let b ← byte off
    let bs ← bytes (off + 1) len
    return b :: bs

/-- A string from an offset on: it ends before the first NUL, or after `bound` bytes. -/
def str (off : ℕ) : ℕ → Reader (List UInt8)
  | 0 => .pure []
  | bound + 1 => do
    let b ← byte off
    if b = 0 then return []
    else
      let bs ← str (off + 1) bound
      return b :: bs

variable {m : ℕ → UInt8} {n : ℕ} (off : ℕ) (p : Reader α)

@[simp] lemma result_byte : (byte off).result m = m off := rfl

@[simp] lemma result_bind (f : α → Reader β) :
    (p >>= f).result m = (f (p.result m)).result m := by
  induction p with
  | pure a => rfl
  | read off k ih => exact ih (m off)

@[simp] lemma within_pure (a : α) : (Pure.pure a : Reader α).Within m n ↔ True := Iff.rfl

/-- What is read only if `p` holds. -/
lemma within_ite {p : Prop} [Decidable p] {r : Reader α} {a : α} :
    (if p then r else Pure.pure a).Within m n ↔ (p → r.Within m n) := by
  split
  · next h => rw [imp_iff_right h]
  · next h => exact iff_of_true trivial fun hp ↦ absurd hp h

/-- What is read unless `p` holds. -/
lemma within_ite_not {p : Prop} [Decidable p] {r : Reader α} {a : α} :
    (if p then Pure.pure a else r).Within m n ↔ (¬ p → r.Within m n) := by
  rw [← ite_not, within_ite]

@[simp] lemma within_byte : (byte off).Within m n ↔ off < n :=
  iff_of_eq (and_true _)

/-- **Sequencing**: both parts stay below `n`, the second for the result of the first. -/
@[simp] theorem within_bind (f : α → Reader β) :
    (p >>= f).Within m n ↔ p.Within m n ∧ (f (p.result m)).Within m n := by
  induction p with
  | pure a => exact (iff_of_eq (true_and _)).symm
  | read off k ih => exact (and_congr_right fun _ ↦ ih (m off)).trans and_assoc.symm

@[simp] lemma within_map (f : α → β) : (f <$> p).Within m n ↔ p.Within m n :=
  (within_bind p fun a ↦ Pure.pure (f a)).trans (iff_of_eq (and_true _))

lemma result_eq_of_within {m' : ℕ → UInt8} (h : ∀ o < n, m' o = m o) {p : Reader α}
    (hp : p.Within m n) : p.result m' = p.result m := by
  induction p with
  | pure a => rfl
  | read off k ih =>
    obtain ⟨hoff, hk⟩ := hp
    rw [result, h off hoff]
    exact ih (m off) hk

/-- **Reading within bounds is all it takes** for the result not to depend on what lies beyond. -/
theorem confined_iff : p.Confined m n ↔ p.Within m n :=
  ⟨And.left, fun hp ↦ ⟨hp, fun _ h ↦ result_eq_of_within h hp⟩⟩

lemma within_bytes (len : ℕ) : (bytes off len).Within m n ↔ len = 0 ∨ off + len ≤ n := by
  induction len generalizing off with
  | zero => exact iff_of_true trivial (.inl rfl)
  | succ len ih =>
    rw [bytes, within_bind, within_byte, within_bind, within_pure, and_true, ih]
    omega

/-- **A string is read within bounds** exactly when its bound is, or a NUL ends it in time. -/
theorem within_str (bound : ℕ) :
    (str off bound).Within m n ↔ bound = 0 ∨ off + bound ≤ n ∨ ∃ o, off ≤ o ∧ o < n ∧ m o = 0 := by
  induction bound generalizing off with
  | zero => exact iff_of_true trivial (.inl rfl)
  | succ bound ih =>
    rw [str, within_bind, within_byte, result_byte]
    by_cases hb : m off = 0
    · rw [if_pos hb, within_pure, and_true]
      constructor
      · exact fun hoff ↦ .inr (.inr ⟨off, Nat.le_refl off, hoff, hb⟩)
      · rintro (h | h | ⟨o, hle, hlt, -⟩) <;> omega
    rw [if_neg hb, within_bind, within_pure, and_true, ih]
    constructor
    · rintro ⟨hoff, h | h | ⟨o, hle, hlt, ho⟩⟩
      · exact .inr (.inl (by omega))
      · exact .inr (.inl (by omega))
      · exact .inr (.inr ⟨o, by omega, hlt, ho⟩)
    rintro (h | h | ⟨o, hle, hlt, ho⟩)
    · omega
    · exact ⟨by omega, .inr (.inl (by omega))⟩
    · -- the NUL is not at `off`, so it is still ahead
      have hne : o ≠ off := fun h ↦ hb (h ▸ ho)
      exact ⟨by omega, .inr (.inr ⟨o, by omega, hlt, ho⟩)⟩

end Reader

end ByteReader
