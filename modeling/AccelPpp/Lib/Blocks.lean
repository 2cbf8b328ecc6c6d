import Mathlib

/-!
# Strings cut into blocks

A string of `m * n` letters seen as `m` blocks of `n` letters, and the operation that treats each
block **by itself**, `mapBlocks f`, such as a block cipher used without anything that links one
block to the next: a block of the result depends on the same block of the argument and on no other
(`block_mapBlocks`), and it can be undone when `f` can (`mapBlocks_symm_mapBlocks`).
-/

namespace Blocks

variable {α : Type*} {m n : ℕ}

/-- Block `i` of a string. -/
def block (r : Fin (m * n) → α) (i : Fin m) : Fin n → α :=
  fun j ↦ r (finProdFinEquiv (i, j))

/-- The string with the given blocks. -/
def ofBlocks (b : Fin m → Fin n → α) : Fin (m * n) → α :=
  fun k ↦ b (finProdFinEquiv.symm k).1 (finProdFinEquiv.symm k).2

@[simp] lemma block_ofBlocks (b : Fin m → Fin n → α) (i : Fin m) : block (ofBlocks b) i =
    b i := by
  funext j
  rw [block, ofBlocks, Equiv.symm_apply_apply]

@[simp] lemma ofBlocks_block (r : Fin (m * n) → α) : ofBlocks (block r) = r := by
  funext k
  exact congrArg r (Equiv.apply_symm_apply finProdFinEquiv k)

/-- Apply `f` to every block. -/
def mapBlocks (f : (Fin n → α) → Fin n → α) (r : Fin (m * n) → α) : Fin (m * n) → α :=
  ofBlocks fun i ↦ f (block r i)

@[simp] lemma block_mapBlocks (f : (Fin n → α) → Fin n → α) (r : Fin (m * n) → α) (i : Fin m) :
    block (mapBlocks f r) i = f (block r i) :=
  block_ofBlocks _ i

/-- **What was done block by block is undone block by block.** -/
@[simp] theorem mapBlocks_symm_mapBlocks (f : Equiv.Perm (Fin n → α)) (r : Fin (m * n) → α) :
    mapBlocks f.symm (mapBlocks f r) = r := by
  unfold mapBlocks
  simp only [block_ofBlocks, Equiv.symm_apply_apply, ofBlocks_block]

end Blocks
