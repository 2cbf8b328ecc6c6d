import AccelPpp.Lib.Run

/-!
# The indexes of the shaper

A limiter that uses the intermediate device has an index, which `alloc_idx` takes from a map of
65536 bits, starting at the index of the interface. The map is an array of `long`, but the bits are
found with `ffs` and made with `1 << n`, both of type `int`: only the lower half of each word can be
searched. Where C leaves the result of a shift open, a function here has none.

A session that ends gives its index back before it removes its limiter, so that another session may
get the index while the limiter is still in the kernel (`index_given_twice`). `indexes_exclusive` is
what holds without that and as long as an index in the lower half of a word is free.
-/

open Function List Option Transition

namespace AccelPpp.Shaper

/-- `idx_map`; a set bit is a free index. -/
abbrev IdxMap := ℕ → BitVec 64

/-- `1 << n`, converted to `long`: the sign of the `int` is extended. -/
def shl (n : ℕ) : Option (BitVec 64) :=
  if n < 32 then some ((1#32 <<< n).signExtend 64) else none

/-- `ffs` of a word, of which the argument keeps the lower half. Counted from 0 here. -/
def ffs (w : BitVec 64) : Option ℕ :=
  (List.range 32).find? fun b ↦ w.getLsbD b

section

variable (m : IdxMap) (st : St)

/-- The two loops of `alloc_idx`, from the word `first` on and then below it. -/
def findSet (first : ℕ) : Option (ℕ × ℕ) :=
  (List.range' first (1024 - first) ++ List.range first).findSome? fun i ↦ (ffs (m i)).map (i, ·)

/-- `alloc_idx`, with the map it leaves. A negative remainder is a place before the map or a shift
by a negative number. -/
def allocIdx (init : ℤ) : Option (ℕ × IdxMap) :=
  if init.tmod 65536 < 0 then none
  else
    let n := (init.tmod 65536).toNat
    (shl (n % 64)).bind fun bit ↦
      match if m (n / 64) &&& bit ≠ 0 then some (n / 64, n % 64) else findSet m (n / 64) with
      | none => some (0, m)
      | some (i, p) =>
        (shl p).map fun bit ↦ (i * 64 + p, Function.update m i (m i &&& ~~~bit))

/-- `free_idx` -/
def freeIdx (idx : ℕ) : Option IdxMap :=
  (shl (idx % 64)).map fun bit ↦ Function.update m (idx / 64) (m (idx / 64) ||| bit)

/-! ### Sessions -/

/-- A session, as far as the shaper looks at it (`struct shaper_pd_t`). -/
structure Ses where
  /-- `pd->idx` -/
  idx : ℕ := 0
  /-- Its limiter is in the kernel. -/
  installed : Bool := false
  /-- `ev_ppp_finishing` has left the section under `shaper_lock`. -/
  leaving : Bool := false

/-- The map, in which 0 and 1 are never free, and the sessions. -/
structure St where
  map : IdxMap := fun i ↦ if i = 0 then ~~~3#64 else ~~~0#64
  ses : ℕ → Ses := fun _ ↦ {}

/-- A session changes. -/
def St.put (s : ℕ) (x : Ses) : St :=
  { st with ses := Function.update st.ses s x }

/-- What the threads do, a section under `shaper_lock` or a call at a time. -/
inductive Event
  /-- `if (!pd->idx) pd->idx = alloc_idx(ifindex)` -/
  | obtain (s : ℕ) (ifindex : ℤ)
  /-- `install_limiter`, with the index that the session has -/
  | install (s : ℕ)
  /-- `remove_limiter` in a session that goes on -/
  | remove (s : ℕ)
  /-- The section of `ev_ppp_finishing` under the lock -/
  | release (s : ℕ)
  /-- `remove_limiter` in `ev_ppp_finishing` -/
  | cleanup (s : ℕ)

/-- One step. A session that is leaving does nothing but remove its limiter. -/
def step : Event → Option St
  | .obtain s ifindex =>
    let x := st.ses s
    if x.leaving || x.idx ≠ 0 then some st
    else (allocIdx st.map ifindex).map fun r ↦
      { st with map := r.2 }.put s { x with idx := r.1 }
  | .install s =>
    let x := st.ses s
    some (if x.leaving then st else st.put s { x with installed := true })
  | .remove s =>
    let x := st.ses s
    some (if x.leaving then st else st.put s { x with installed := false })
  | .release s =>
    let x := st.ses s
    if x.leaving then some st
    else if x.idx = 0 then some (st.put s { x with leaving := true })
    else (freeIdx st.map x.idx).map fun m ↦ { st with map := m }.put s { x with leaving := true }
  | .cleanup s =>
    let x := st.ses s
    some (if x.leaving then st.put s { x with installed := false } else st)

/-- One step, unless something undefined has happened. -/
def next (o : Option St) (e : Event) : Option St :=
  o.bind (step · e)

/-- The session has an index and has not given it back. -/
def Ses.Holds (x : Ses) : Prop :=
  x.idx ≠ 0 ∧ x.leaving = false

/-- A session holds the index. -/
def St.InUse (k : ℕ) : Prop :=
  ∃ s, (st.ses s).Holds ∧ (st.ses s).idx = k

/-- No two limiters in the kernel have the same index. -/
def St.Exclusive : Prop :=
  ∀ s t, s ≠ t → (st.ses s).installed = true → (st.ses t).installed = true →
    (st.ses s).idx ≠ (st.ses t).idx

/-- A session that asks for an index gets one, unless there is none. -/
def Served (st st' : St) : Event → Prop
  | .obtain s _ => (st.ses s).leaving = false → (st.ses s).idx = 0 →
    ((st'.ses s).idx ≤ 1 → ∀ k, 2 ≤ k → k < 65536 → st.InUse k) ∧
      ({k | st.InUse k}.ncard < 65534 → (st'.ses s).idx ≠ 0)
  | _ => True

/-- The step is defined, the session is served and the indexes are exclusive afterwards. -/
def Sound (o : Option St) (e : Event) : Prop :=
  ∃ st st', o = some st ∧ step st e = some st' ∧ st'.Exclusive ∧ Served st st' e

/-- An index is asked for by an interface whose number is in the lower half of its word, while no
other session is about to remove its limiter and an index in the lower half of a word is free. A
limiter is not installed without an index, as `shaper_change` does where the speeds are negative. -/
def Fine : Event → Prop
  | .obtain s ifindex => (st.ses s).leaving = false → (st.ses s).idx = 0 →
    0 ≤ ifindex ∧ ifindex % 64 < 32 ∧
      (∀ t, (st.ses t).leaving = true → (st.ses t).installed = false) ∧
      ∃ k, 2 ≤ k ∧ k < 65536 ∧ k % 64 < 32 ∧ ¬ st.InUse k
  | .install s => (st.ses s).leaving = false → (st.ses s).idx ≠ 0
  | _ => True

/-! ### The map -/

/-- The lower halves of the words show which indexes are free; the upper half goes with bit 31. -/
structure Shows (Free : ℕ → Prop) : Prop where
  low : ∀ i b, b < 32 → ((m i).getLsbD b = true ↔ Free (i * 64 + b))
  high : ∀ i b, 31 ≤ b → b < 64 → (m i).getLsbD b = (m i).getLsbD 31

end

variable {m : IdxMap} {Free : ℕ → Prop} {n k : ℕ} {st st' : St} {s t : ℕ} {e : Event} {x : Ses}

lemma shl_spec (hn : n < 32) : ∃ bit, shl n = some bit ∧
    ∀ b < 64, bit.getLsbD b = decide (b = n ∨ n = 31 ∧ 31 ≤ b) := by
  refine ⟨_, if_pos hn, ?_⟩
  revert n
  decide +kernel

/-- Writing one bit, along with the upper half if it is bit 31. -/
lemma Shows.write (h : Shows m Free) (hn : n < 32) (i : ℕ) (v : Bool) {w : BitVec 64}
    {Free' : ℕ → Prop}
    (hw : ∀ b < 64, w.getLsbD b = if b = n ∨ n = 31 ∧ 31 ≤ b then v else (m i).getLsbD b)
    (hfree : ∀ j, Free' j ↔ if j = i * 64 + n then v = true else Free j) :
    Shows (update m i w) Free' := by
  constructor
  · intro j b hb
    rw [hfree]
    obtain rfl | hne := eq_or_ne j i
    · rw [update_self, hw b (by omega)]
      by_cases hbn : b = n
      · simp [hbn]
      · rw [if_neg (by omega), if_neg (by omega), h.low j b hb]
    · rw [update_of_ne hne, if_neg (by omega), h.low j b hb]
  · intro j b hb hb64
    obtain rfl | hne := eq_or_ne j i
    · rw [update_self, hw b hb64, hw 31 (by omega), h.high j b hb hb64]
      by_cases hn31 : n = 31
      · simp [hn31, hb]
      · rw [if_neg (by omega), if_neg (by omega)]
    · rw [update_of_ne hne, h.high j b hb hb64]

/-- The test of `alloc_idx` looks at one bit. -/
lemma Shows.and_ne_zero_iff (h : Shows m Free) (hn : n < 32) {bit : BitVec 64}
    (hbit : ∀ b < 64, bit.getLsbD b = decide (b = n ∨ n = 31 ∧ 31 ≤ b)) {i : ℕ} :
    m i &&& bit ≠ 0 ↔ (m i).getLsbD n = true := by
  constructor
  · intro hne
    by_contra hclear
    refine hne (BitVec.eq_of_getLsbD_eq fun b hb ↦ ?_)
    rw [BitVec.getLsbD_and, hbit b hb]
    by_cases hbn : b = n ∨ n = 31 ∧ 31 ≤ b
    · have hsame : (m i).getLsbD b = (m i).getLsbD n := by
        obtain rfl | ⟨rfl, h31⟩ := hbn
        · rfl
        · exact h.high i b h31 hb
      simp [hsame, hclear]
    · simp [hbn]
  · intro hset hzero
    have hand : (m i &&& bit).getLsbD n = true := by
      rw [BitVec.getLsbD_and, hset, hbit n (by omega)]
      simp
    rw [hzero] at hand
    simp at hand

lemma findSet_spec {i : ℕ} (first : ℕ) (hi : i < 1024) (hfirst : first < 1024) (hn : n < 32)
    (hset : (m i).getLsbD n = true) :
    ∃ j p, findSet m first = some (j, p) ∧ j < 1024 ∧ p < 32 ∧ (m j).getLsbD p = true := by
  have hmem : i ∈ range' first (1024 - first) ++ range first := by
    simp only [mem_append, mem_range'_1, mem_range]
    omega
  have hffs : (ffs (m i)).isSome = true :=
    find?_isSome.mpr ⟨n, mem_range.mpr hn, hset⟩
  obtain ⟨⟨j, p⟩, hfound⟩ : ∃ r, findSet m first = some r := by
    rw [← isSome_iff_exists, findSet, findSome?_isSome_iff]
    exact ⟨i, hmem, by rwa [isSome_map]⟩
  obtain ⟨a, ha, heq⟩ := exists_of_findSome?_eq_some hfound
  obtain ⟨q, hq, hpair⟩ := map_eq_some_iff.mp heq
  obtain ⟨rfl, rfl⟩ := Prod.mk.inj hpair
  have hlt : a < 1024 := by
    simp only [mem_append, mem_range'_1, mem_range] at ha
    omega
  exact ⟨a, q, hfound, hlt, mem_range.mp (mem_of_find?_eq_some hq), find?_some hq⟩

/-- **Taking an index.** If one in the lower half of a word is free, a free one is found. -/
theorem Shows.alloc (h : Shows m Free) {init : ℤ} (h₀ : 0 ≤ init) (hlow : init % 64 < 32)
    (hfree : ∃ k < 65536, k % 64 < 32 ∧ Free k) :
    ∃ k m', allocIdx m init = some (k, m') ∧ Free k ∧ k % 64 < 32 ∧
      Shows m' fun j ↦ j ≠ k ∧ Free j := by
  obtain ⟨n, rfl⟩ := Int.eq_ofNat_of_zero_le h₀
  have hmod : (n : ℤ).tmod 65536 = ((n % 65536 : ℕ) : ℤ) := rfl
  obtain ⟨bit, hshl, hbit⟩ := shl_spec (n := n % 65536 % 64) (by omega)
  obtain ⟨k, hk, hk64, hkfree⟩ := hfree
  have hfound : ∃ i p, (if m (n % 65536 / 64) &&& bit ≠ 0 then
      some (n % 65536 / 64, n % 65536 % 64) else findSet m (n % 65536 / 64)) = some (i, p) ∧
      p < 32 ∧ (m i).getLsbD p = true := by
    split
    · next hhit =>
      exact ⟨_, _, rfl, by omega, (h.and_ne_zero_iff (by omega) hbit).mp hhit⟩
    have hset : (m (k / 64)).getLsbD (k % 64) = true := by
      rwa [h.low _ _ hk64, Nat.div_add_mod']
    obtain ⟨i, p, hfind, -, hp, hset⟩ :=
      findSet_spec (n % 65536 / 64) (by omega) (by omega) hk64 hset
    exact ⟨i, p, hfind, hp, hset⟩
  obtain ⟨i, p, hfound, hp, hset⟩ := hfound
  obtain ⟨bit', hshl', hbit'⟩ := shl_spec hp
  refine ⟨i * 64 + p, update m i (m i &&& ~~~bit'), ?_, (h.low i p hp).mp hset, by omega, ?_⟩
  · rw [allocIdx, if_neg (by omega)]
    simp only [hmod, Int.toNat_natCast, hshl, bind_some, hfound, hshl', map_some]
  refine h.write hp i false (fun b hb ↦ ?_) fun j ↦ by split <;> simp_all
  rw [BitVec.getLsbD_and, BitVec.getLsbD_not, hbit' b hb]
  split
  · next hb' => rw [decide_eq_true hb', Bool.not_true, Bool.and_false, Bool.and_false]
  · next hb' => rw [decide_eq_false hb', Bool.not_false, decide_eq_true hb, Bool.and_self,
      Bool.and_true]

/-- **Giving an index back.** -/
theorem Shows.free (h : Shows m Free) (hk : k % 64 < 32) :
    ∃ m', freeIdx m k = some m' ∧ Shows m' fun j ↦ j = k ∨ Free j := by
  obtain ⟨bit, hshl, hbit⟩ := shl_spec hk
  refine ⟨_, by rw [freeIdx, hshl, map_some], h.write hk (k / 64) true (fun b hb ↦ ?_)
    fun j ↦ ?_⟩
  · split <;> simp_all
  · rw [Nat.div_add_mod']
    split <;> simp_all

/-! ### The sessions -/

/-- An index that a session holds, or has in the kernel. -/
def Ses.Uses (x : Ses) : Prop :=
  x.idx ≠ 0 ∧ (x.leaving = false ∨ x.installed = true)

structure Inv (st : St) : Prop where
  map : Shows st.map fun k ↦ 2 ≤ k ∧ ¬ st.InUse k
  low : ∀ s, (st.ses s).Holds → 2 ≤ (st.ses s).idx ∧ (st.ses s).idx % 64 < 32
  apart : ∀ s t, s ≠ t → (st.ses s).Uses → (st.ses t).Uses → (st.ses s).idx ≠ (st.ses t).idx
  indexed : ∀ s, (st.ses s).installed = true → (st.ses s).idx ≠ 0

lemma Inv.exclusive (h : Inv st) : st.Exclusive := by
  intro s t hne hs ht
  exact h.apart s t hne ⟨h.indexed s hs, .inr hs⟩ ⟨h.indexed t ht, .inr ht⟩

@[simp] lemma put_self : (st.put s x).ses s = x :=
  update_self ..

lemma put_of_ne (h : t ≠ s) : (st.put s x).ses t = st.ses t :=
  update_of_ne h ..

lemma forall_put {P : Ses → Prop} :
    (∀ t, P ((st.put s x).ses t)) ↔ P x ∧ ∀ t, t ≠ s → P (st.ses t) :=
  forall_update_iff st.ses fun _ y ↦ P y

lemma inUse_put : (st.put s x).InUse k ↔
    (x.Holds ∧ x.idx = k) ∨ ∃ t, t ≠ s ∧ (st.ses t).Holds ∧ (st.ses t).idx = k := by
  constructor
  · rintro ⟨t, ht⟩
    obtain rfl | hne := eq_or_ne t s
    · rw [put_self] at ht
      exact .inl ht
    · rw [put_of_ne hne] at ht
      exact .inr ⟨t, hne, ht⟩
  · rintro (hx | ⟨t, hne, ht⟩)
    · exact ⟨s, by rwa [put_self]⟩
    · exact ⟨t, by rwa [put_of_ne hne]⟩

lemma inUse_iff (s : ℕ) : st.InUse k ↔ ((st.ses s).Holds ∧ (st.ses s).idx = k) ∨
    ∃ t, t ≠ s ∧ (st.ses t).Holds ∧ (st.ses t).idx = k := by
  rw [← inUse_put, St.put, update_eq_self]

lemma inv_init : Inv {} where
  map := by
    have hfree (k : ℕ) : ¬ ({} : St).InUse k := fun ⟨_, hs, _⟩ ↦ hs.1 rfl
    simp only [hfree, not_false_eq_true, and_true]
    constructor
    · intro i b hb
      obtain rfl | hne := eq_or_ne i 0
      · rw [Nat.zero_add]
        revert b
        decide
      · simp only [hne, if_false]
        rw [BitVec.getLsbD_not]
        simp
        omega
    · intro i b hb hb64
      obtain rfl | hne := eq_or_ne i 0
      · revert b
        decide
      · simp only [hne, if_false]
        revert b
        decide
  low := fun _ hs ↦ absurd rfl hs.1
  apart := fun _ _ _ hs ↦ absurd rfl hs.1
  indexed := nofun

/-- One session changes, and the map. -/
lemma Inv.put (h : Inv st) {m : IdxMap} (hmap : Shows m fun k ↦ 2 ≤ k ∧ ¬ (st.put s x).InUse k)
    (hlow : x.Holds → 2 ≤ x.idx ∧ x.idx % 64 < 32)
    (hapart : ∀ t, t ≠ s → x.Uses → (st.ses t).Uses → x.idx ≠ (st.ses t).idx)
    (hidx : x.installed = true → x.idx ≠ 0) : Inv ({ st with map := m }.put s x) where
  map := hmap
  low := (forall_put (P := fun y ↦ y.Holds → 2 ≤ y.idx ∧ y.idx % 64 < 32)).mpr
    ⟨hlow, fun t _ ↦ h.low t⟩
  apart := by
    intro t u hne
    obtain rfl | hts := eq_or_ne t s
    · rw [put_self, put_of_ne hne.symm]
      exact hapart u hne.symm
    obtain rfl | hus := eq_or_ne u s
    · rw [put_self, put_of_ne hts]
      exact fun ht hx ↦ (hapart t hts hx ht).symm
    · rw [put_of_ne hts, put_of_ne hus]
      exact h.apart t u hne
  indexed := (forall_put (P := fun y ↦ y.installed = true → y.idx ≠ 0)).mpr
    ⟨hidx, fun t _ ↦ h.indexed t⟩

/-- One session changes without a change of what it holds. -/
lemma Inv.keep (h : Inv st) (hidx : x.idx = (st.ses s).idx)
    (hholds : x.Holds ↔ (st.ses s).Holds) (huses : x.Uses → (st.ses s).Uses)
    (hindexed : x.installed = true → x.idx ≠ 0) : Inv (st.put s x) := by
  have hsame (k : ℕ) : (st.put s x).InUse k ↔ st.InUse k := by
    rw [inUse_put, inUse_iff s, hholds, hidx]
  refine h.put ⟨fun i b hb ↦ ?_, h.map.high⟩ (fun hx ↦ ?_) (fun t ht hx ↦ ?_) hindexed
  · rw [h.map.low i b hb, hsame]
  · exact hidx ▸ h.low s (hholds.mp hx)
  · exact hidx ▸ h.apart s t ht.symm (huses hx)

/-- **One step.** -/
theorem Inv.step (h : Inv st) (hfine : Fine st e) :
    ∃ st', step st e = some st' ∧ Inv st' ∧ Served st st' e := by
  cases e with
  | obtain s ifindex =>
    rw [Shaper.step]
    split
    · next hskip =>
      refine ⟨st, rfl, h, fun hleaving hidx ↦ ?_⟩
      simp [hleaving, hidx] at hskip
    next hask =>
    obtain ⟨hleaving, hidx⟩ : (st.ses s).leaving = false ∧ (st.ses s).idx = 0 := by
      simpa using hask
    obtain ⟨h₀, hlow, hgone, k, hk2, hk, hk64, hfree⟩ := hfine hleaving hidx
    obtain ⟨k, m, halloc, ⟨hk2, hfresh⟩, hk64, hmap⟩ :=
      h.map.alloc h₀ hlow ⟨k, hk, hk64, hk2, hfree⟩
    rw [halloc]
    refine ⟨_, rfl, h.put ?_ (fun _ ↦ ⟨hk2, hk64⟩) (fun t ht _ htuses heq ↦ ?_) fun _ ↦ ?_, ?_⟩
    · refine ⟨fun i b hb ↦ ?_, hmap.high⟩
      rw [hmap.low i b hb, inUse_put, inUse_iff s]
      simp only [Ses.Holds, hidx, hleaving]
      grind
    · rcases htuses.2 with hstays | hinst
      · exact hfresh ⟨t, ⟨htuses.1, hstays⟩, heq.symm⟩
      · cases htl : (st.ses t).leaving with
        | false => exact hfresh ⟨t, ⟨htuses.1, htl⟩, heq.symm⟩
        | true => exact absurd hinst (by simp [hgone t htl])
    · exact fun h0 ↦ by simp at h0; omega
    · refine fun _ _ ↦ ⟨fun hle ↦ ?_, fun _ ↦ ?_⟩
      · exact absurd hle (by simp; omega)
      · exact (by simp; omega)
  | install s =>
    refine ⟨_, rfl, ?_, trivial⟩
    split
    · exact h
    · next hlive =>
      have hleaving := Bool.eq_false_iff.mpr hlive
      exact h.keep rfl Iff.rfl (fun hx ↦ ⟨hx.1, .inl hleaving⟩) fun _ ↦ hfine hleaving
  | remove s =>
    refine ⟨_, rfl, ?_, trivial⟩
    split
    · exact h
    · next hlive =>
      exact h.keep rfl Iff.rfl (fun hx ↦ ⟨hx.1, .inl (by simpa using hlive)⟩) nofun
  | release s =>
    rw [Shaper.step]
    split
    · exact ⟨st, rfl, h, trivial⟩
    next hlive =>
    split
    · next hidx =>
      exact ⟨_, rfl, h.keep rfl ⟨fun hx ↦ absurd hidx hx.1, fun hx ↦ absurd hidx hx.1⟩
        (fun hx ↦ absurd hidx hx.1) (h.indexed s), trivial⟩
    next hidx =>
    have hholds : (st.ses s).Holds := ⟨hidx, by simpa using hlive⟩
    obtain ⟨hk2, hk64⟩ := h.low s hholds
    obtain ⟨m, hfree, hmap⟩ := h.map.free hk64
    rw [hfree]
    refine ⟨_, rfl, h.put ⟨fun i b hb ↦ ?_, hmap.high⟩ nofun (fun t ht hx ↦ ?_) (h.indexed s),
      trivial⟩
    · have hother (t : ℕ) (ht : t ≠ s) (hth : (st.ses t).Holds) : (st.ses t).idx ≠
        (st.ses s).idx :=
        h.apart t s ht ⟨hth.1, .inl hth.2⟩ ⟨hidx, .inl hholds.2⟩
      rw [hmap.low i b hb, inUse_put, inUse_iff s]
      simp only [Ses.Holds] at hother hholds ⊢
      grind
    · exact h.apart s t ht.symm ⟨hidx, .inl hholds.2⟩
  | cleanup s =>
    refine ⟨_, rfl, ?_, trivial⟩
    split
    · exact h.keep rfl Iff.rfl (fun hx ↦ ⟨hx.1, hx.2.imp_right nofun⟩) nofun
    · exact h

/-- A run that always asks for an index as described has exclusive indexes all along. -/
theorem indexes_exclusive (es : List Event)
    (h : Along next (fun o e ↦ ∀ st, o = some st → Fine st e) (some {}) es) :
    Along next Sound (some {}) es := by
  refine h.along (P := fun o ↦ ∃ st, o = some st ∧ Inv st) ?_ ?_ ⟨{}, rfl, inv_init⟩
  · rintro o e ⟨st, rfl, hinv⟩ hfine
    obtain ⟨st', hstep, hinv', -⟩ := hinv.step (hfine st rfl)
    exact ⟨st', hstep, hinv'⟩
  · rintro o e ⟨st, rfl, hinv⟩ hfine
    obtain ⟨st', hstep, hinv', hserved⟩ := hinv.step (hfine st rfl)
    exact ⟨st, st', rfl, hstep, hinv'.exclusive, hserved⟩

/-- Two sessions on the interfaces 5 and 65541, the second one while the first has the index 5. -/
theorem indexes_exclusive_two : Along next Sound (some {})
    [.obtain 1 5, .obtain 2 65541, .install 1,
    .install 2, .release 1, .cleanup 1] := by
  refine indexes_exclusive _ ⟨?_, ?_, ?_, ?_, ?_, ?_, trivial⟩
  · rintro st ⟨⟩ - -
    exact ⟨by decide, by decide, nofun, 2, by decide, by decide, by decide, fun ⟨_, hs, _⟩ ↦
      hs.1 rfl⟩
  · intro st hst _ _
    have hses : st.ses = update (fun _ ↦ {}) 1 { idx := 5 } := by
      rw [← some.inj hst]
      rfl
    refine ⟨by decide, by decide, fun t ht ↦ ?_, 2, by decide, by decide, by decide, ?_⟩
    · rw [hses] at ht ⊢
      obtain rfl | hne := eq_or_ne t 1
      · cases ht
      · rw [update_of_ne hne]
    rintro ⟨t, hs, ht⟩
    rw [hses] at hs ht
    obtain rfl | hne := eq_or_ne t 1
    · cases ht
    · rw [update_of_ne hne] at ht
      cases ht
  iterate 2
    · rintro st hst -
      rw [← some.inj hst]
      decide +kernel
  all_goals exact fun _ _ ↦ trivial

/-- The first session ends, and the second one asks before the first one has removed its limiter:
both have the index 5. -/
theorem index_given_twice :
    (run next (some {}) [.obtain 1 5, .install 1, .release 1, .obtain 2 65541, .install 2]).map
        (fun st ↦ ((st.ses 1).idx, (st.ses 1).installed, (st.ses 2).idx, (st.ses 2).installed)) =
      some (5, true, 5, true) ∧
    ¬ Along next Sound (some {}) [.obtain 1 5, .install 1, .release 1, .obtain 2 65541,
      .install 2] := by
  refine and_iff_left_of_imp (fun hrun h ↦ ?_) |>.mpr (by decide +kernel)
  obtain ⟨-, -, -, -, ⟨st, st', hst, hstep, hexcl, -⟩, -⟩ := h
  rw [run_cons, run_cons, run_cons, run_cons, hst, run_cons, run_nil, next, bind_some,
    hstep] at hrun
  simp only [map_some, some.injEq, Prod.mk.injEq] at hrun
  obtain ⟨h1, hi1, h2, hi2⟩ := hrun
  exact hexcl 1 2 (by decide) hi1 hi2 (h1.trans h2.symm)

end AccelPpp.Shaper
