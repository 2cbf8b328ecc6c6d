import AccelPpp.Lib.Bitmap

/-!
# A pool of units kept as bits

A pool of `count` numbered units, of which a bit says whether it is taken. The bits are packed into
machine words of `w` bits, in a list that is as long as the pool needs: unit `i` is bit `i % w` of
word `i / w`.

* `test`, `set` and `clear` read and write one bit.
* `findFree` looks for a free unit word by word, starting in the middle and going round. The first
  word is looked at twice, once for the bits from the start on and once for those below it.
  `findFree_first` says that it returns the first free unit in this order, `Before`.
* `usedIn` counts the units that are taken.
-/

open List Nat

namespace BitPool

variable {w : ℕ}

/-- Is unit `i` taken? -/
def test (bm : List (BitVec w)) (i : ℕ) : Bool :=
  (bm.getD (i / w) 0).getLsbD (i % w)

/-- Take unit `i`. -/
def set (bm : List (BitVec w)) (i : ℕ) : List (BitVec w) :=
  bm.set (i / w) (bm.getD (i / w) 0 ||| 1#w <<< (i % w))

/-- Release unit `i`. -/
def clear (bm : List (BitVec w)) (i : ℕ) : List (BitVec w) :=
  bm.set (i / w) (bm.getD (i / w) 0 &&& ~~~(1#w <<< (i % w)))

@[simp] lemma length_set (bm : List (BitVec w)) (i : ℕ) : (set bm i).length = bm.length := by
  simp [set]

@[simp] lemma length_clear (bm : List (BitVec w)) (i : ℕ) : (clear bm i).length = bm.length := by
  simp [clear]

section Bits

variable {bm : List (BitVec w)} {i j : ℕ}

lemma test_write (hi : i / w < bm.length) (v : BitVec w) :
    test (bm.set (i / w) v) j = if j / w = i / w then v.getLsbD (j % w) else test bm j := by
  rw [test]
  split
  · next hdiv =>
    rw [hdiv, getD_eq_getElem?_getD, getElem?_set_self hi, Option.getD_some]
  · next hdiv =>
    rw [getD_eq_getElem?_getD, getElem?_set_ne (Ne.symm hdiv), test, getD_eq_getElem?_getD]

/-- The bit of unit `i` in its word. -/
lemma getLsbD_mask (hw : 0 < w) (hdiv : j / w = i / w) :
    (1#w <<< (i % w)).getLsbD (j % w) = decide (j = i) := by
  rw [getLsbD_one_shiftLeft (mod_lt j hw)]
  exact decide_eq_decide.mpr ⟨ext_div_mod hdiv, fun h ↦ h ▸ rfl⟩

/-- **Taking a unit** takes it and touches no other. -/
theorem test_set (hw : 0 < w) (hi : i < bm.length * w) :
    test (set bm i) j = (decide (j = i) || test bm j) := by
  rw [set, test_write ((div_lt_iff_lt_mul hw).mpr hi)]
  split
  · next hdiv => rw [BitVec.getLsbD_or, getLsbD_mask hw hdiv, ← hdiv, Bool.or_comm, test]
  · next hdiv =>
    have hne : j ≠ i := fun h ↦ hdiv (h ▸ rfl)
    simp [hne]

/-- **Releasing a unit** releases it and touches no other. -/
theorem test_clear (hw : 0 < w) (hi : i < bm.length * w) :
    test (clear bm i) j = (decide (j ≠ i) && test bm j) := by
  rw [clear, test_write ((div_lt_iff_lt_mul hw).mpr hi)]
  split
  · next hdiv =>
    rw [BitVec.getLsbD_and, BitVec.getLsbD_not, getLsbD_mask hw hdiv, ← hdiv, Bool.and_comm, test]
    simp [mod_lt j hw]
  · next hdiv =>
    have hne : j ≠ i := fun h ↦ hdiv (h ▸ rfl)
    simp [hne]

end Bits

/-! ### A new pool -/

/-- The number of words for `count` units. -/
def words (w count : ℕ) : ℕ :=
  (count + w - 1) / w

/-- A pool of `count` units, all of them free. The bits behind the last unit are taken for good. -/
def make (w count : ℕ) : List (BitVec w) :=
  (List.range' count (words w count * w - count)).foldl set (List.replicate (words w count) 0)

lemma le_words_mul (hw : 0 < w) (count : ℕ) : count ≤ words w count * w := by
  have h := Nat.div_add_mod (count + w - 1) w
  have hmod := mod_lt (count + w - 1) hw
  rw [words, Nat.mul_comm]
  omega

lemma length_foldl_set (is : List ℕ) (bm : List (BitVec w)) :
    (is.foldl set bm).length = bm.length := by
  induction is generalizing bm with
  | nil => rfl
  | cons i is ih => rw [foldl_cons, ih, length_set]

lemma length_make (count : ℕ) : (make w count).length = words w count := by
  rw [make, length_foldl_set, length_replicate]

lemma test_foldl_set (hw : 0 < w) {j : ℕ} {is : List ℕ} {bm : List (BitVec w)}
    (hsize : ∀ i ∈ is, i < bm.length * w) (hj : j ∉ is) : test (is.foldl set bm) j = test bm j := by
  induction is generalizing bm with
  | nil => rfl
  | cons i is ih =>
    obtain ⟨hi, his⟩ := forall_mem_cons.mp hsize
    obtain ⟨hne, hj⟩ := not_or.mp (mt mem_cons.mpr hj)
    rw [foldl_cons, ih (by simpa using his) hj, test_set hw hi]
    simp [hne]

/-- **A new pool is free.** -/
theorem test_make (hw : 0 < w) {count i : ℕ} (hi : i < count) : test (make w count) i = false := by
  have hsize : ∀ j ∈ range' count (words w count * w - count),
      j < (replicate (words w count) (0 : BitVec w)).length * w := by
    intro j hj
    obtain ⟨-, hlt⟩ := mem_range'_1.mp hj
    have := le_words_mul hw count
    rw [length_replicate]
    omega
  have hout : i ∉ range' count (words w count * w - count) := fun hmem ↦ by
    have := (mem_range'_1.mp hmem).1
    omega
  rw [make, test_foldl_set hw hsize hout, test]
  simp [getD_eq_getElem?_getD, getElem?_replicate]
  split <;> simp

/-! ### Looking for a free unit -/

/-- The free bits of word `k` that turn `t` of the search looks at; the search starts at bit `fb`
of its first word and comes back to that word in turn `n`. -/
def probe (bm : List (BitVec w)) (n fb k t : ℕ) : BitVec w :=
  let inv := ~~~(bm.getD k 0)
  if t = 0 then inv &&& ~~~((1#w <<< fb) - 1#w)
  else if t = n then inv &&& ((1#w <<< fb) - 1#w)
  else inv

/-- The search from turn `t` on, starting at word `fw`. -/
def findLoop (bm : List (BitVec w)) (count n fw fb : ℕ) : List ℕ → Option ℕ
  | [] => none
  | t :: ts =>
    let k := if fw + t ≥ n then fw + t - n else fw + t
    match lowestSet (probe bm n fb k t) with
    | some b => if k * w + b < count then some (k * w + b) else findLoop bm count n fw fb ts
    | none => findLoop bm count n fw fb ts

/-- A free unit of the first `count`, looked for from `start` on and round. -/
def findFree (bm : List (BitVec w)) (count start : ℕ) : Option ℕ :=
  if count = 0 then none
  else
    let start := if start ≥ count then 0 else start
    let n := words w count
    findLoop bm count n (start / w) (start % w) (List.range (n + 1))

section Find

variable {bm : List (BitVec w)} {count n fw fb i j k t : ℕ}

/-- The bits below position `fb`. -/
lemma getLsbD_below {b : ℕ} (hfb : fb < w) (hb : b < w) :
    ((1#w <<< fb) - 1#w).getLsbD b = decide (b < fb) := by
  have hpow : 2 ^ fb < 2 ^ w := Nat.pow_lt_pow_right (by decide) hfb
  have hpos : 0 < 2 ^ fb := Nat.two_pow_pos fb
  have hone : 1 % 2 ^ w = 1 := mod_eq_of_lt (by omega)
  have hval : (1#w <<< fb) - 1#w = BitVec.ofNat w (2 ^ fb - 1) := by
    apply BitVec.eq_of_toNat_eq
    rw [BitVec.toNat_sub, BitVec.toNat_shiftLeft, BitVec.toNat_ofNat, BitVec.toNat_ofNat, hone,
      Nat.shiftLeft_eq, Nat.one_mul, Nat.mod_eq_of_lt hpow,
      show 2 ^ w - 1 + 2 ^ fb = 2 ^ fb - 1 + 2 ^ w by omega, add_mod_right]
  rw [hval, BitVec.getLsbD_ofNat]
  simp [hb]

/-- The turn in which the search looks at unit `j`. -/
def turn (w n fw fb j : ℕ) : ℕ :=
  if j / w = fw then (if fb ≤ j % w then 0 else n)
  else if fw < j / w then j / w - fw else j / w + n - fw

lemma turn_cases (w n fw fb j : ℕ) :
    j / w = fw ∧ fb ≤ j % w ∧ turn w n fw fb j = 0 ∨ j / w = fw ∧ j % w < fb ∧ turn w n fw fb j =
      n ∨
      fw < j / w ∧ turn w n fw fb j = j / w - fw ∨
      j / w < fw ∧ turn w n fw fb j = j / w + n - fw := by
  unfold turn
  split <;> split <;> omega

/-- The word of a turn. -/
def turnWord (n fw t : ℕ) : ℕ :=
  if fw + t ≥ n then fw + t - n else fw + t

lemma div_eq_of_turn (hfw : fw < n) (hj : j / w < n) (ht : turn w n fw fb j = t) :
    j / w = turnWord n fw t := by
  have hcases := turn_cases w n fw fb j
  unfold turnWord
  generalize j / w = q at hj hcases ⊢
  split <;> omega

/-- A turn looks at the free ones among its units. -/
lemma getLsbD_probe (hfw : fw < n) (hfb : fb < w) (ht : t ≤ n) {b : ℕ} (hb : b < w) :
    (probe bm n fb (turnWord n fw t) t).getLsbD b = true ↔
      turn w n fw fb (turnWord n fw t * w + b) = t ∧
        test bm (turnWord n fw t * w + b) = false := by
  have hdiv : (turnWord n fw t * w + b) / w = turnWord n fw t := by
    rw [Nat.mul_comm, Nat.mul_add_div (by omega), Nat.div_eq_of_lt hb, Nat.add_zero]
  have hmod : (turnWord n fw t * w + b) % w = b := by
    rw [Nat.mul_comm, Nat.mul_add_mod, Nat.mod_eq_of_lt hb]
  generalize turnWord n fw t * w + b = x at hdiv hmod ⊢
  have hbelow := getLsbD_below hfb hb
  have hturn : turn w n fw fb x = t ↔ (t = 0 → fb ≤ b) ∧ (t = n → b < fb) := by
    have hcases := turn_cases w n fw fb x
    rw [hdiv] at hcases
    unfold turnWord at hcases
    split at hcases <;> omega
  have hinv : (~~~(bm.getD (turnWord n fw t) 0)).getLsbD b =
      !(bm.getD (turnWord n fw t) 0).getLsbD b := by
    rw [BitVec.getLsbD_not, decide_eq_true hb, Bool.true_and]
  have hnot : (~~~((1#w <<< fb) - 1#w)).getLsbD b = !decide (b < fb) := by
    rw [BitVec.getLsbD_not, hbelow, decide_eq_true hb, Bool.true_and]
  rw [test, hdiv, hmod, probe]
  generalize (bm.getD (turnWord n fw t) 0).getLsbD b = taken at hinv
  split_ifs
  all_goals
    simp only [BitVec.getLsbD_and, hinv, hnot, hbelow]
    cases taken with
    | true => simp
    | false =>
      simp
      omega

lemma lowestSet_least {v : BitVec w} {b c : ℕ} (h : lowestSet v = some b) (hc : c < b) :
    v.getLsbD c = false := by
  simpa using (find?_range_eq_some.mp h).2.2 c hc

/-- What the rest of the search finds, if there is nothing in the turns before: the free unit that
comes first, by turns and within its turn. -/
lemma findLoop_first (hn : count ≤ n * w) (hfw : fw < n) (hfb : fb < w) {m : ℕ}
    (hm : t + m = n + 1) (hbefore : ∀ j < count, turn w n fw fb j < t → test bm j = true) :
    match findLoop bm count n fw fb (List.range' t m) with
    | some i => i < count ∧ test bm i = false ∧ ∀ j < count, turn w n fw fb j < turn w n fw fb i ∨
        turn w n fw fb j = turn w n fw fb i ∧ j < i → test bm j = true
    | none => ∀ j < count, test bm j = true := by
  have hw : 0 < w := by omega
  have hword : ∀ j < count, j / w < n := fun j hj ↦
    (div_lt_iff_lt_mul hw).mpr (lt_of_lt_of_le hj hn)
  induction m generalizing t with
  | zero =>
    intro j hj
    refine hbefore j hj ?_
    have hj := hword j hj
    have hcases := turn_cases w n fw fb j
    omega
  | succ m ih =>
    -- a unit of this turn is taken if the turn does not see it
    have hunseen : ∀ j < count, turn w n fw fb j = t →
        (probe bm n fb (turnWord n fw t) t).getLsbD (j % w) = false → test bm j = true := by
      intro j hj hturn hbit
      have hat : turnWord n fw t * w + j % w = j := by
        rw [← div_eq_of_turn hfw (hword j hj) hturn]
        exact div_add_mod' j w
      by_contra hfree
      have hseen := (getLsbD_probe hfw hfb (by omega) (Nat.mod_lt j hw)).mpr
        ⟨hat.symm ▸ hturn, hat.symm ▸ Bool.eq_false_iff.mpr hfree⟩
      nomatch hbit.symm.trans hseen
    have hnext : (∀ j < count, turn w n fw fb j = t → test bm j = true) →
        ∀ j < count, turn w n fw fb j < t + 1 → test bm j = true := by
      intro hthis j hj hlt
      rcases Nat.lt_succ_iff_lt_or_eq.mp hlt with hlt | heq
      · exact hbefore j hj hlt
      · exact hthis j hj heq
    simp only [range'_succ, findLoop, ← turnWord.eq_1]
    cases hlow : lowestSet (probe bm n fb (turnWord n fw t) t) with
    | none =>
      exact ih (by omega) (hnext fun j hj hturn ↦
        hunseen j hj hturn (getLsbD_of_lowestSet_none hlow))
    | some b =>
      have hb := lt_of_lowestSet hlow
      obtain ⟨hturn, hfree⟩ :=
        (getLsbD_probe hfw hfb (by omega) hb).mp (getLsbD_of_lowestSet hlow)
      have hless : ∀ j < count, turn w n fw fb j = t → j < turnWord n fw t * w + b →
          test bm j = true := by
        intro j hj hjt hlt
        refine hunseen j hj hjt (lowestSet_least hlow ?_)
        have hat := div_add_mod' j w
        rw [div_eq_of_turn hfw (hword j hj) hjt] at hat
        omega
      dsimp only
      split_ifs with hlt
      · refine ⟨hlt, hfree, fun j hj hor ↦ ?_⟩
        rw [hturn] at hor
        exact hor.elim (hbefore j hj) fun h ↦ hless j hj h.1 h.2
      · exact ih (by omega) (hnext fun j hj hjt ↦ hless j hj hjt (by omega))

/-- Unit `j` comes before `i` when one goes up from `start` and then up from 0. -/
def Before (start j i : ℕ) : Prop :=
  start ≤ j ∧ (j < i ∨ i < start) ∨ j < i ∧ i < start

lemma div_mod_lt (h : j < i) : j / w < i / w ∨ j / w = i / w ∧ j % w < i % w := by
  have hdj := div_add_mod j w
  have hdi := div_add_mod i w
  rcases Nat.lt_or_eq_of_le (Nat.div_le_div_right h.le) with hlt | heq
  · exact .inl hlt
  · rw [heq] at hdj
    exact .inr ⟨heq, by omega⟩

/-- The turns go through the units in this order. -/
lemma turn_of_before {start : ℕ} (hfw : start / w < n) (hj : j / w < n) (h : Before start j i) :
    turn w n (start / w) (start % w) j < turn w n (start / w) (start % w) i ∨
      turn w n (start / w) (start % w) j = turn w n (start / w) (start % w) i ∧ j < i := by
  have hge : ∀ a, start ≤ a → start / w < a / w ∨ start / w = a / w ∧ start % w ≤ a % w := by
    intro a ha
    rcases lt_or_eq_of_le ha with hlt | rfl
    · exact (div_mod_lt hlt).imp_right fun h ↦ ⟨h.1, h.2.le⟩
    · exact .inr ⟨rfl, le_refl _⟩
  have hjs := hge j
  have hilt := div_mod_lt (w := w) (j := i) (i := start)
  have hij := div_mod_lt (w := w) (j := j) (i := i)
  have hcases := turn_cases w n (start / w) (start % w) j
  have hcases' := turn_cases w n (start / w) (start % w) i
  unfold Before at h
  generalize j / w = q, j % w = b, i / w = p, i % w = a, start / w = fw, start % w = fb at *
  omega

/-- **The search finds the first free unit** in this order, or there is none. -/
theorem findFree_first (hw : 0 < w) (bm : List (BitVec w)) (count start : ℕ) :
    match findFree bm count start with
    | some i => i < count ∧ test bm i = false ∧ ∀ j < count, Before start j i → test bm j = true
    | none => ∀ j < count, test bm j = true := by
  rw [findFree]
  by_cases hzero : count = 0
  · rw [if_pos hzero]
    exact fun j hj ↦ absurd hj (by omega)
  rw [if_neg hzero]
  have hn := le_words_mul hw count
  have hword : ∀ j < count, j / w < words w count := fun j hj ↦
    (Nat.div_lt_iff_lt_mul hw).mpr (Nat.lt_of_lt_of_le hj hn)
  have hstart : ∃ s, (if start ≥ count then 0 else start) = s ∧ s < count ∧
      ∀ j < count, ∀ i < count, Before start j i → Before s j i := by
    refine ⟨_, rfl, by split <;> omega, fun j hj i hi h ↦ ?_⟩
    unfold Before at h ⊢
    split <;> omega
  obtain ⟨s, hs, hlt, horder⟩ := hstart
  have hnone : ∀ j < count, turn w (words w count) (s / w) (s % w) j < 0 → test bm j = true :=
    nofun
  have hfirst := findLoop_first hn (hword s hlt) (mod_lt s hw)
    (Nat.zero_add _) hnone
  rw [← range_eq_range'] at hfirst
  rw [hs]
  split
  · next i hi =>
    rw [hi] at hfirst
    obtain ⟨hcount, hfree, hbefore⟩ := hfirst
    refine ⟨hcount, hfree, fun j hj h ↦ hbefore j hj ?_⟩
    exact turn_of_before (hword s hlt) (hword j hj) (horder j hj i hcount h)
  · next hi =>
    rw [hi] at hfirst
    exact hfirst

end Find

/-! ### How many units are taken -/

/-- The number of taken units among the first `count`. -/
def usedIn (bm : List (BitVec w)) (count : ℕ) : ℕ :=
  ((Finset.range count).filter fun i ↦ test bm i = true).card

section Used

variable {bm : List (BitVec w)} {count i : ℕ}

/-- Taking a free unit. -/
lemma usedIn_set (hw : 0 < w) (hsize : count ≤ bm.length * w) (hi : i < count)
    (hfree : test bm i = false) : usedIn (set bm i) count = usedIn bm count + 1 := by
  have hset : (Finset.range count).filter (fun j ↦ test (set bm i) j = true) =
      insert i ((Finset.range count).filter fun j ↦ test bm j = true) := by
    ext j
    simp only [Finset.mem_filter, Finset.mem_range, Finset.mem_insert,
      test_set hw (lt_of_lt_of_le hi hsize), Bool.or_eq_true, decide_eq_true_eq]
    rw [and_or_left, and_iff_right_of_imp fun h ↦ h ▸ hi]
  rw [usedIn, hset, Finset.card_insert_of_notMem (by simp [hfree]), usedIn]

/-- Releasing a taken unit. -/
lemma usedIn_clear (hw : 0 < w) (hsize : count ≤ bm.length * w) (hi : i < count)
    (htaken : test bm i = true) : usedIn (clear bm i) count = usedIn bm count - 1 := by
  have hset : (Finset.range count).filter (fun j ↦ test (clear bm i) j = true) =
      ((Finset.range count).filter fun j ↦ test bm j = true).erase i := by
    ext j
    simp only [Finset.mem_filter, Finset.mem_range, Finset.mem_erase,
      test_clear hw (lt_of_lt_of_le hi hsize), Bool.and_eq_true, decide_eq_true_eq]
    exact and_left_comm
  rw [usedIn, hset, Finset.card_erase_of_mem (by simp [hi, htaken]), usedIn]

lemma usedIn_make (hw : 0 < w) {count : ℕ} : usedIn (make w count) count = 0 := by
  rw [usedIn, Finset.card_eq_zero, Finset.filter_eq_empty_iff]
  intro i hi
  rw [test_make hw (Finset.mem_range.mp hi)]
  simp

end Used

end BitPool
