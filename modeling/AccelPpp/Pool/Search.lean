import AccelPpp.Pool.Ipv4

/-!
# The search for a free address

A pool is searched by `bm_find_free`, range by range, and a pool that is used up is followed by its
`next` pool. The first search finds what comes first in cyclic order (`find_free_first`). The second
one ends when it is at the end of the chain or back where it has started, so that it need not end if
the chain runs into a cycle further on (`alloc_finishes_iff`, `next_of_itself`).
-/

namespace AccelPpp.Pool

open List Nat Option Relation Transition

/-! ### One range -/

/-- The units of a range in cyclic order from `start` on. -/
def cyclic (count start : ℕ) : List ℕ :=
  range' start (count - start) ++ range (min start count)

lemma mem_cyclic {count start i : ℕ} : i ∈ cyclic count start ↔ i < count := by
  simp only [cyclic, mem_append, mem_range'_1, mem_range]
  omega

/-- `bm_find_free` returns the first free unit in cyclic order, and none exactly if all are taken.
This does not even depend on the bits behind the last unit. -/
theorem find_free_first (bm : List (BitVec 64)) (count start : ℕ) :
    BitPool.findFree bm count start = (cyclic count start).find? (fun i ↦ !BitPool.test bm i) ∧
      (BitPool.findFree bm count start = none ↔ ∀ i < count, BitPool.test bm i = true) := by
  have hfirst := BitPool.findFree_first (by decide) bm count start
  cases hfind : BitPool.findFree bm count start with
  | none =>
    rw [hfind] at hfirst
    have hall : (cyclic count start).find? (fun i ↦ !BitPool.test bm i) = none :=
      find?_eq_none.mpr fun i hi ↦ by simp [hfirst i (mem_cyclic.mp hi)]
    exact ⟨hall.symm, iff_of_true rfl hfirst⟩
  | some i =>
    rw [hfind] at hfirst
    obtain ⟨hlt, hfree, hbefore⟩ := hfirst
    refine ⟨Eq.symm ?_, iff_of_false nofun fun hall ↦ nomatch hfree.symm.trans (hall i hlt)⟩
    rw [cyclic, find?_append]
    by_cases hi : start ≤ i
    · have hup : (range' start (count - start)).find? (fun i ↦ !BitPool.test bm i) =
        some i := by
        refine find?_range'_eq_some.mpr
          ⟨by simp [hfree], mem_range'_1.mpr (by omega), fun j hj hji ↦ ?_⟩
        simp [hbefore j (by omega) (.inl ⟨hj, .inl hji⟩)]
      rw [hup, some_or]
    · have hup : (range' start (count - start)).find? (fun i ↦ !BitPool.test bm i) = none := by
        refine find?_range'_eq_none.mpr fun j hj hlt' ↦ ?_
        simp [hbefore j (by omega) (.inl ⟨hj, .inr (by omega)⟩)]
      rw [hup]
      refine find?_range_eq_some.mpr
        ⟨by simp [hfree], mem_range.mpr (by omega), fun j hj ↦ ?_⟩
      simp [hbefore j (by omega) (.inr ⟨hj, by omega⟩)]

/-! ### The chain of pools -/

/-- `q` is the `next` pool of `p`. -/
def Next {γ : Type} (set : PoolSet γ) (p q : ℕ) : Prop :=
  (set.pools[p]?).bind IpPool.next = some q

section Chain

variable {γ α : Type} (G : Geometry γ α) (set : PoolSet γ) (rnd : ℕ)

/-- A turn of the loop in `get_ip` and `alloc_from`: the pool of the turn after it, if there is one.
-/
def nextTurn (start p : ℕ) : Option ℕ :=
  if (allocIn G set rnd p).isSome then none
  else ((set.pools[p]?).bind IpPool.next).filter (· ≠ start)

/-- The pool that is searched in turn `n`; none once the loop has ended. -/
def visited (start : ℕ) : ℕ → Option ℕ
  | 0 => some start
  | n + 1 => (visited start n).bind (nextTurn G set rnd start)

variable {G set rnd} {start p q r i j : ℕ}

lemma next_unique : Relator.RightUnique (Next set) :=
  fun _ _ _ h h' ↦ mem_unique h h'

lemma nextTurn_eq_some :
    nextTurn G set rnd start p = some q ↔
      (allocIn G set rnd p).isSome = false ∧ Next set p q ∧ q ≠ start := by
  unfold nextTurn Next
  split
  · next hfree => simp [hfree]
  · next hfree => simp [filter_eq_some_iff, hfree]

lemma nextTurn_eq_none :
    nextTurn G set rnd start p = none ↔
      (allocIn G set rnd p).isSome = true ∨ (∀ q, ¬ Next set p q) ∨ Next set p start := by
  unfold nextTurn Next
  cases (allocIn G set rnd p).isSome with
  | true => simp
  | false => cases (set.pools[p]?).bind IpPool.next <;> simp

/-- On a cycle, one comes back from wherever one gets. -/
lemma cycle_back (hcycle : TransGen (Next set) p p) (h : ReflTransGen (Next set) p q) :
    ReflTransGen (Next set) q p := by
  induction h with
  | refl => exact .refl
  | tail _ hnext ih =>
    rcases ih.cases_head with rfl | ⟨k, hk, hback⟩
    · obtain ⟨k, hk, hback⟩ := TransGen.head'_iff.mp hcycle
      rwa [next_unique hnext hk]
    · rwa [next_unique hnext hk]

lemma visited_succ (h : visited G set rnd start i = some p) :
    visited G set rnd start (i + 1) = nextTurn G set rnd start p := by
  rw [visited, h, bind_some]

lemma visited_path (hp : visited G set rnd start i = some p) (hij : i ≤ j)
    (hq : visited G set rnd start j = some q) : ReflTransGen (Next set) p q := by
  induction j, hij using le_induction generalizing q with
  | base =>
    obtain rfl := mem_unique hp hq
    exact .refl
  | succ j _ ih =>
    obtain ⟨r, hr, hturn⟩ := bind_eq_some_iff.mp hq
    exact (ih hr).tail (nextTurn_eq_some.mp hturn).2.1

/-! ### A loop that ends -/

section

variable {n : ℕ} (h : visited G set rnd start n = none)

include h

lemma exists_last :
    ∃ m r, visited G set rnd start m = some r ∧ nextTurn G set rnd start r = none := by
  induction n with
  | zero => nomatch h
  | succ n ih =>
    cases hn : visited G set rnd start n with
    | none => exact ih hn
    | some r => exact ⟨n, r, hn, (visited_succ hn).symm.trans h⟩

lemma visited_none {m : ℕ} (hnm : n ≤ m) : visited G set rnd start m = none := by
  induction m, hnm using le_induction with
  | base => exact h
  | succ m _ ih => rw [visited, ih, bind_none]

/-- A pool that is met again is met again and again. -/
lemma visited_once (hp : visited G set rnd start i = some p)
    (hq : visited G set rnd start j = some p) : i = j := by
  have hearlier : ∀ i j, i < j → visited G set rnd start i = some p →
      visited G set rnd start j = some p → False := by
    intro i j hij hp hq
    have hsame : ∀ k, visited G set rnd start (i + k) = visited G set rnd start (j + k) := by
      intro k
      induction k with
      | zero => exact hp.trans hq.symm
      | succ k ih => rw [← add_assoc, ← add_assoc, visited, visited, ih]
    -- the loop would have ended a round earlier
    have hends : ∃ n, visited G set rnd start n = none := ⟨n, h⟩
    have hn := Nat.find_spec hends
    have hjn : j < Nat.find hends := by
      by_contra hle
      nomatch hq.symm.trans (visited_none hn (Nat.le_of_not_lt hle))
    refine Nat.find_min hends (m := i + (Nat.find hends - j)) (by omega) ?_
    rw [hsame, Nat.add_sub_cancel' hjn.le]
    exact hn
  rcases lt_trichotomy i j with hlt | heq | hlt
  · exact (hearlier i j hlt hp hq).elim
  · exact heq
  · exact (hearlier j i hlt hq hp).elim

end

/-! ### A loop that does not end -/

section Endless

variable (h : ∀ n, visited G set rnd start n ≠ none)

include h

lemma exists_visited (n : ℕ) : ∃ p, visited G set rnd start n = some p ∧
    (allocIn G set rnd p).isSome = false ∧ p < set.pools.length := by
  obtain ⟨p, hp⟩ := ne_none_iff_exists'.mp (h n)
  obtain ⟨q, hq⟩ := ne_none_iff_exists'.mp (h (n + 1))
  rw [visited_succ hp] at hq
  obtain ⟨hfull, hnext, -⟩ := nextTurn_eq_some.mp hq
  obtain ⟨pool, hpool, -⟩ := bind_eq_some_iff.mp hnext
  exact ⟨p, hp, hfull, (List.getElem?_eq_some_iff.mp hpool).1⟩

/-- It comes to every pool that can be reached. -/
lemma visited_of_reach (hp : visited G set rnd start i = some p)
    (hreach : ReflTransGen (Next set) p q) : ∃ j, i ≤ j ∧ visited G set rnd start j = some q := by
  induction hreach with
  | refl => exact ⟨i, le_refl i, hp⟩
  | tail _ hnext ih =>
    obtain ⟨j, hij, hj⟩ := ih
    obtain ⟨r, hr⟩ := ne_none_iff_exists'.mp (h (j + 1))
    refine ⟨j + 1, le_succ_of_le hij, ?_⟩
    rw [hr]
    rw [visited_succ hj] at hr
    rw [next_unique hnext (nextTurn_eq_some.mp hr).2.1]

lemma exists_again : ∃ i j p, i < j ∧ visited G set rnd start i = some p ∧
    visited G set rnd start j = some p := by
  choose f hf _ hlt using exists_visited h
  obtain ⟨i, j, hij, hsame⟩ :=
    Finite.exists_ne_map_eq_of_infinite fun n ↦ (⟨f n, hlt n⟩ : Fin set.pools.length)
  have hfij : f i = f j := congrArg Fin.val hsame
  rcases lt_or_gt_of_ne hij with hlt | hlt
  · exact ⟨i, j, f i, hlt, hf i, hfij ▸ hf j⟩
  · exact ⟨j, i, f j, hlt, hf j, hfij ▸ hf i⟩

end Endless

/-- The loop ends, and has then searched no pool twice, exactly if there is a free unit in some pool
of the chain, or every cycle that the chain runs into leads back to where it has started. -/
theorem alloc_finishes_iff {γ α : Type} (G : Geometry γ α) (set : PoolSet γ) (rnd start : ℕ) :
    ((∃ n, visited G set rnd start n = none) ∧
      ∀ i j p, visited G set rnd start i = some p → visited G set rnd start j = some p → i = j) ↔
    (∃ q, ReflTransGen (Next set) start q ∧ (allocIn G set rnd q).isSome = true) ∨
      ∀ q, ReflTransGen (Next set) start q → TransGen (Next set) q q →
        ReflTransGen (Next set) q start := by
  have hfirst : visited G set rnd start 0 = some start := rfl
  constructor
  · rintro ⟨⟨n, hn⟩, -⟩
    obtain ⟨m, r, hr, hend⟩ := exists_last hn
    have hreach : ReflTransGen (Next set) start r := visited_path hfirst (zero_le m) hr
    rcases nextTurn_eq_none.mp hend with hfree | hlast | hback
    · exact .inl ⟨r, hreach, hfree⟩
    · refine .inr fun q hq hcycle ↦ ?_
      -- where the chain ends there is no cycle before
      have hback : ReflTransGen (Next set) r q :=
        (ReflTransGen.total_of_right_unique next_unique hq hreach).elim (cycle_back hcycle) id
      rcases hback.cases_head with rfl | ⟨k, hk, -⟩
      · obtain ⟨k, hk, -⟩ := TransGen.head'_iff.mp hcycle
        exact absurd hk (hlast k)
      · exact absurd hk (hlast k)
    · exact .inr fun q hq _ ↦ cycle_back (.tail' hreach hback) hq
  · intro hcond
    have hend : ∃ n, visited G set rnd start n = none := by
      by_contra hnever
      have hnever := not_exists.mp hnever
      rcases hcond with ⟨q, hq, hfree⟩ | hcond
      · obtain ⟨j, -, hj⟩ := visited_of_reach hnever hfirst hq
        obtain ⟨p, hp, hfull, -⟩ := exists_visited hnever j
        obtain rfl := mem_unique hj hp
        nomatch hfree.symm.trans hfull
      obtain ⟨i, j, p, hij, hi, hj⟩ := exists_again hnever
      have hp : ReflTransGen (Next set) start p := visited_path hfirst (zero_le i) hi
      have hcycle : TransGen (Next set) p p := by
        obtain ⟨j, rfl⟩ := exists_eq_succ_of_ne_zero (Nat.ne_zero_of_lt hij)
        obtain ⟨r, hr, hturn⟩ := bind_eq_some_iff.mp hj
        exact .tail' (visited_path hi (le_of_lt_succ hij) hr) (nextTurn_eq_some.mp hturn).2.1
      obtain ⟨m, hjm, hm⟩ := visited_of_reach hnever hj (hcond p hp hcycle)
      -- the loop is not again where it has started
      obtain ⟨m, rfl⟩ := exists_eq_succ_of_ne_zero (show m ≠ 0 by omega)
      obtain ⟨r, -, hturn⟩ := bind_eq_some_iff.mp hm
      exact (nextTurn_eq_some.mp hturn).2.2 rfl
    obtain ⟨n, hn⟩ := hend
    exact ⟨⟨n, hn⟩, fun i j p ↦ visited_once hn⟩

end Chain

/-- The default pool, with 10.0.0.1, is followed by the pool `b`, with 10.0.0.2, which is followed
by itself. -/
def ofItself : Ipv4.Conf :=
  ⟨some [.range (.dash 10 0 0 1 1) none (some .p2p) (some "b"),
    .range (.dash 10 0 0 2 2) (some "b") (some .p2p) (some "b")], false⟩

/-- Two sessions have the two addresses. A third one asks for ever. -/
theorem next_of_itself :
    ∃ set, (run Ipv4.ippoolStep poolStart [.reload ofItself, .session none, .session none,
      .get 0 0 false, .get 1 0 false]).cur = some set ∧
      startPool set (⟨none, none⟩ : Session ℕ) = some 0 ∧
      ∀ n, visited Ipv4.geometry set 0 0 n ≠ none := by
  have hturns : (run Ipv4.ippoolStep poolStart [.reload ofItself, .session none, .session none,
      .get 0 0 false, .get 1 0 false]).cur.map (fun set ↦
        (startPool set (⟨none, none⟩ : Session ℕ), nextTurn Ipv4.geometry set 0 0 0,
          nextTurn Ipv4.geometry set 0 0 1)) = some (some 0, some 1, some 1) := by
    decide +kernel
  obtain ⟨set, hset, hturns⟩ := map_eq_some_iff.mp hturns
  obtain ⟨hstart, hfirst, hagain⟩ : _ ∧ _ ∧ _ := by simpa only [Prod.mk.injEq] using hturns
  have hvisited : ∀ n, visited Ipv4.geometry set 0 0 (n + 1) = some 1 := by
    intro n
    induction n with
    | zero => exact hfirst
    | succ n ih => rw [visited_succ ih, hagain]
  refine ⟨set, hset, hstart, fun n ↦ ?_⟩
  cases n with
  | zero => nofun
  | succ n =>
    rw [hvisited n]
    nofun

end AccelPpp.Pool
