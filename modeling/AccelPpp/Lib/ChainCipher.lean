import Mathlib

/-!
# Ciphers that chain their blocks

A cipher that combines each block of a text with a key stream computed from the **ciphered** block
before it, in place. The text is a memory `ℕ → α`, blocks are `w` places long, and a value is
combined with its key by any operation that undoes itself, such as exclusive or.

Enciphering goes forward, and deciphering backward, since a block is needed before it has been
deciphered. Both loops are described in the same way: each block by itself, with the key stream read
off the ciphered text.
-/

open List Nat

namespace ChainCipher

variable {α : Type} (op : α → α → α) (stream : List α → ℕ → α) (w : ℕ)

/-- The `n` values from `off` on. -/
def block (m : ℕ → α) (off n : ℕ) : List α := (List.range n).map fun i ↦ m (off + i)

/-- Combine the `n` places from `off` on with a key stream. -/
def mix (m : ℕ → α) (off n : ℕ) (key : ℕ → α) : ℕ → α := fun i ↦
  if off ≤ i ∧ i < off + n then op (m i) (key (i - off)) else m i

/-- Encipher the `n` blocks after the one at `ptr`, which has been ciphered. -/
def forward : ℕ → (ℕ → α) → ℕ → ℕ → α
  | 0, m, _ => m
  | n + 1, m, ptr => forward n (mix op m (ptr + w) w (stream (block m ptr w))) (ptr + w)

/-- Decipher the `n` blocks after the first, the last of them first. -/
def backward : ℕ → (ℕ → α) → ℕ → α
  | 0, m => m
  | n + 1, m => backward n (mix op m (n * w + w) w (stream (block m (n * w) w)))

variable {op stream w} {m m' : ℕ → α} {off n i r : ℕ} {key : ℕ → α}

@[simp] lemma length_block : (block m off n).length = n := by
  rw [block, length_map, length_range]

lemma block_congr (h : ∀ i < n, m (off + i) = m' (off + i)) : block m off n = block m' off n :=
  map_congr_left fun i hi ↦ h i (mem_range.mp hi)

/-- What is taken of a block depends on the places that are taken. -/
lemma take_block_congr {k : ℕ} (h : ∀ i < k, m (off + i) = m' (off + i)) :
    (block m off n).take k = (block m' off n).take k := by
  rw [block, block, ← map_take, ← map_take, take_range]
  exact map_congr_left fun i hi ↦ h i (by rw [mem_range] at hi; omega)

/-- The values of a list, and nothing in particular after them. -/
def load [Inhabited α] (l : List α) : ℕ → α := fun i ↦ l.getD i default

@[simp] lemma block_load [Inhabited α] (l : List α) : block (load l) 0 l.length = l := by
  refine ext_getElem length_block fun i _ hi ↦ ?_
  simp only [block, getElem_map, getElem_range, Nat.zero_add]
  exact getD_eq_getElem l _ hi

lemma block_load_append [Inhabited α] (l l' : List α) :
    block (load (l ++ l')) 0 l.length = l := by
  refine Eq.trans (block_congr fun i hi ↦ ?_) (block_load l)
  rw [Nat.zero_add, load, load, getD_append _ _ _ _ hi]

lemma load_block [Inhabited α] (hi : i < n) : load (block m 0 n) i = m i := by
  rw [load, getD_eq_getElem _ _ (by rwa [length_block])]
  simp only [block, getElem_map, getElem_range, Nat.zero_add]

@[simp] lemma mix_zero : mix op m off 0 key = m := by
  funext i
  exact if_neg fun h ↦ Nat.not_lt_of_le h.1 h.2

lemma mix_inside (hr : r < n) : mix op m off n key (off + r) = op (m (off + r)) (key r) := by
  rw [mix, if_pos ⟨Nat.le_add_right off r, Nat.add_lt_add_left hr off⟩, Nat.add_sub_cancel_left]

lemma mix_before (hi : i < off) : mix op m off n key i = m i :=
  if_neg fun h ↦ Nat.not_le_of_lt hi h.1

lemma mix_after (hi : off + n ≤ i) : mix op m off n key i = m i :=
  if_neg fun h ↦ Nat.not_lt_of_le hi h.2

variable (op stream w) in
/-- **Enciphering**, by induction on the blocks that are left. -/
theorem forward_spec (n : ℕ) (m : ℕ → α) (ptr : ℕ) :
    let c := forward op stream w n m ptr
    (∀ i < ptr + w, c i = m i) ∧ (∀ i, ptr + w + n * w ≤ i → c i = m i) ∧
      ∀ j < n, ∀ r < w, c (ptr + j * w + w + r) =
        op (m (ptr + j * w + w + r)) (stream (block c (ptr + j * w) w) r) := by
  induction n generalizing m ptr with
  | zero => exact ⟨fun _ _ ↦ rfl, fun _ _ ↦ rfl, nofun⟩
  | succ n ih =>
    rw [forward]
    generalize hm₁ : mix op m (ptr + w) w (stream (block m ptr w)) = m₁
    obtain ⟨hbefore, hafter, hblocks⟩ := ih m₁ (ptr + w)
    have hlow : ∀ i < ptr + w, forward op stream w n m₁ (ptr + w) i = m i := fun i hi ↦ by
      rw [hbefore i (by omega), ← hm₁, mix_before hi]
    refine ⟨hlow, fun i hi ↦ ?_, fun j hj r hr ↦ ?_⟩
    · rw [succ_mul] at hi
      rw [hafter i (by omega), ← hm₁, mix_after (by omega)]
    rcases Nat.eq_zero_or_pos j with rfl | hpos
    · -- the block that is ciphered now
      rw [Nat.zero_mul, Nat.add_zero, hbefore _ (by omega), ← hm₁, mix_inside hr, hm₁,
        block_congr fun i hi ↦ hlow (ptr + i) (by omega)]
    · obtain ⟨j, rfl⟩ := Nat.exists_eq_add_of_le' hpos
      have hptr : ptr + (j + 1) * w = ptr + w + j * w := by
        rw [Nat.succ_mul]
        omega
      rw [hptr, hblocks j (by omega) r hr]
      congr 1
      rw [← hm₁, mix_after (by omega)]

variable (op stream w) in
/-- **Deciphering**, by induction on the blocks that are left. -/
theorem backward_spec {n : ℕ} (m : ℕ → α) :
    let d := backward op stream w n m
    (∀ i, n * w + w ≤ i → d i = m i) ∧ ∀ j < n, ∀ r < w, d (j * w + w + r) =
      op (m (j * w + w + r)) (stream (block m (j * w) w) r) := by
  induction n generalizing m with
  | zero => exact ⟨fun _ _ ↦ rfl, nofun⟩
  | succ n ih =>
    rw [backward]
    generalize hm₁ : mix op m (n * w + w) w (stream (block m (n * w) w)) = m₁
    obtain ⟨hafter, hblocks⟩ := ih m₁
    have hlow : ∀ i < n * w + w, m₁ i = m i := fun i hi ↦ by rw [← hm₁, mix_before hi]
    refine ⟨fun i hi ↦ ?_, fun j hj r hr ↦ ?_⟩
    · rw [Nat.succ_mul] at hi
      rw [hafter i (by omega), ← hm₁, mix_after (by omega)]
    rcases Nat.lt_succ_iff_lt_or_eq.mp hj with hlt | rfl
    · -- the blocks before are as they were
      have hle : j * w + w ≤ n * w := by
        rw [← succ_mul]
        exact mul_le_mul_right w hlt
      rw [hblocks j hlt r hr, hlow _ (by omega), block_congr fun i hi ↦ hlow _ (by omega)]
    · rw [hafter _ (by omega), ← hm₁, mix_inside hr]

/-- The text `c` is `clear` ciphered: the first block with `key`, each other with what the ciphered
block before it gives. -/
structure Ciphered (op : α → α → α) (stream : List α → ℕ → α) (w : ℕ) (key clear c : ℕ → α)
    (len : ℕ) : Prop where
  first : ∀ r < w, r < len → c r = op (clear r) (key r)
  chained : ∀ j, ∀ r < w, j * w + w + r < len → c (j * w + w + r) =
    op (clear (j * w + w + r)) (stream (block c (j * w) w) r)

lemma Ciphered.congr {clear c c' : ℕ → α} {len : ℕ} (h : Ciphered op stream w key clear c len)
    (hc : ∀ i < len, c' i = c i) : Ciphered op stream w key clear c' len := by
  refine ⟨fun r hr hlen ↦ (hc r hlen).trans (h.first r hr hlen), fun j r hr hlen ↦ ?_⟩
  rw [hc _ hlen, h.chained j r hr hlen, block_congr fun i hi ↦ hc (j * w + i) (by omega)]

/-- A place of the text is in one of the whole blocks or in the last, partial one. -/
lemma whole_or_last {j last : ℕ} (hlast : last < w) (h : j * w + w + r < n * w + w + last) :
    j < n ∧ j * w + w ≤ n * w ∨ j = n := by
  rcases Nat.lt_trichotomy j n with hj | hj | hj
  · exact .inl ⟨hj, succ_mul j w ▸ Nat.mul_le_mul_right w hj⟩
  · exact .inr hj
  · have hmul := mul_le_mul_right w hj
    rw [succ_mul] at hmul
    omega

variable (op stream w) in
/-- The whole text is ciphered: the first block, `n` whole blocks, and `last` more places. -/
lemma ciphered_forward (n : ℕ) {last : ℕ} (hlast : last < w) (key clear : ℕ → α) :
    let c₁ := forward op stream w n (mix op clear 0 w key) 0
    Ciphered op stream w key clear
      (mix op c₁ (n * w + w) last (stream (block c₁ (n * w) w))) (n * w + w + last) := by
  obtain ⟨hbefore, hafter, hblocks⟩ :=
    forward_spec op stream w n (mix op clear 0 w key) 0
  generalize forward op stream w n (mix op clear 0 w key) 0 = c₁ at *
  have hlow : ∀ i < n * w + w,
      mix op c₁ (n * w + w) last (stream (block c₁ (n * w) w)) i = c₁ i := fun i hi ↦ mix_before hi
  refine ⟨fun r hr _ ↦ ?_, fun j r hr hlen ↦ ?_⟩
  · have hin : mix op clear 0 w key (0 + r) = op (clear (0 + r)) (key r) := mix_inside hr
    rw [Nat.zero_add] at hin
    rw [hlow r (by omega), hbefore r (by omega), hin]
  rcases whole_or_last hlast hlen with ⟨hj, hle⟩ | rfl
  · have hblock := hblocks j hj r hr
    rw [Nat.zero_add] at hblock
    rw [hlow _ (by omega), hblock, mix_after (by omega),
      block_congr fun i hi ↦ hlow (j * w + i) (by omega)]
  · -- the partial block follows the last whole one
    rw [mix_inside (by omega), hafter _ (by omega), mix_after (by omega),
      block_congr fun i hi ↦ hlow (j * w + i) (by omega)]

/-- The text is deciphered as far as it is wanted, except for the first block. -/
lemma Ciphered.backward {clear c : ℕ → α} {len last : ℕ}
    (h : Ciphered op stream w key clear c len)
    (hop : ∀ a k, op (op a k) k = a) (hlast : last < w) (hlen : n * w + w + last ≤ len) :
    let d := ChainCipher.backward op stream w n
      (mix op c (n * w + w) last (stream (block c (n * w) w)))
    ∀ j, ∀ r < w, j * w + w + r < n * w + w + last → d (j * w + w + r) = clear (j * w + w + r) := by
  obtain ⟨hafter, hblocks⟩ := backward_spec op stream w (n := n)
    (mix op c (n * w + w) last (stream (block c (n * w) w)))
  have hlow : ∀ i < n * w + w,
      mix op c (n * w + w) last (stream (block c (n * w) w)) i = c i := fun i hi ↦ mix_before hi
  dsimp only
  intro j r hr hlt
  have hchain := h.chained j r hr (by omega)
  rcases whole_or_last hlast hlt with ⟨hj, hle⟩ | rfl
  · rw [hblocks j hj r hr, hlow _ (by omega), block_congr fun i hi ↦ hlow (j * w + i) (by omega),
      hchain, hop]
  · rw [hafter _ (by omega), mix_inside (by omega), hchain, hop]

end ChainCipher
