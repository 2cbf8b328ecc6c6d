import AccelPpp.Pool.Units

/-!
# What holds of the leases

Two addresses can be in each other's way: for IPv4 when they are equal, for IPv6 when one prefix
covers the other. The results are about any such relation `conflict` and any geometry that is
`Lawful` for it.

The invariant `Inv` says of the live leases that no two conflict, that one with a range is a unit of
it, and (`covered`) that every unit in the way of a live lease is taken, so that a free unit is safe
to hand out. The last is what a reload has to earn anew: all bits of the new set are free, and a
lease gets back only the one that `findTarget` finds. It does when the new set is `Separate` (its
units do not conflict) and each lease `Fits` it (a unit in the lease's way is the lease itself).
-/

open List Option Prod

namespace AccelPpp.Pool

open Transition BitPool

variable {γ α κ : Type} {G : Geometry γ α} {conflict : α → α → Prop}

/-- What the two address families have in common. -/
structure Lawful (G : Geometry γ α) (conflict : α → α → Prop) : Prop where
  refl : ∀ a, conflict a a
  symm : ∀ {a a'}, conflict a a' → conflict a' a
  toBit_lt : ∀ {g a b}, G.toBit g a = some b → b < G.count g
  toBit_conflict : ∀ {g a b}, G.toBit g a = some b → conflict (G.toAddr g b) a
  toBit_toAddr : ∀ {g b}, b < G.count g → G.toBit g (G.toAddr g b) = some b

/-! ### Pools that are read -/

variable {pools : List IpPool}

/-- The pools found so far stay, and the one that is found is among them. -/
lemma findOrCreate_lt (name : String) :
    pools.length ≤ (findOrCreate pools name).1.length ∧
      (findOrCreate pools name).2 < (findOrCreate pools name).1.length := by
  rw [findOrCreate]
  split
  · next p hp => exact ⟨le_rfl, (findIdx?_eq_some_iff_getElem.mp hp).1⟩
  · simp

lemma linePool_lt (hpos : 0 < pools.length) (name : Option String) :
    pools.length ≤ (linePool pools name).1.length ∧
      (linePool pools name).2 < (linePool pools name).1.length := by
  cases name with
  | none => exact ⟨le_rfl, hpos⟩
  | some name => exact findOrCreate_lt name

lemma length_le_linkNext (pools : List IpPool) (p : ℕ) (next : Option String) :
    pools.length ≤ (linkNext pools p next).length := by
  cases next with
  | none => exact le_rfl
  | some next =>
    rw [linkNext, length_modify]
    exact (findOrCreate_lt next).1

/-- The range that a line has, if any, belongs to the line's pool, and no pool is lost. -/
lemma ranges_lt_linkNext {ranges : List (γ × ℕ)} (hpos : 0 < pools.length)
    (hranges : ∀ rp ∈ ranges, rp.2 < pools.length) (name next : Option String) (r : Option γ) :
    let l := linePool pools name
    0 < (linkNext l.1 l.2 next).length ∧ ∀ rp ∈ ranges ++ (r.map fun r ↦ (r, l.2)).toList,
      rp.2 < (linkNext l.1 l.2 next).length := by
  intro l
  obtain ⟨hle, hp⟩ := linePool_lt hpos name
  have hlink := length_le_linkNext l.1 l.2 next
  refine ⟨lt_of_lt_of_le hpos (hle.trans hlink), fun rp hrp ↦ ?_⟩
  rcases mem_append.mp hrp with hold | hnew
  · exact lt_of_lt_of_le (hranges rp hold) (hle.trans hlink)
  · obtain ⟨r, -, rfl⟩ := map_eq_some_iff.mp (mem_toList.mp hnew)
    exact lt_of_lt_of_le hp hlink

/-! ### Ranges -/

/-- The bitmap is large enough, and `used` counts its bits. -/
structure Range.Ok (G : Geometry γ α) (r : Range γ) : Prop where
  size : G.count r.geo ≤ r.bitmap.length * 64
  used : r.used = usedIn r.bitmap (G.count r.geo)

section Ranges

variable {r : Range γ} {b j : ℕ}

lemma Range.Ok.fresh (geo : γ) (pool : ℕ) :
    Range.Ok G ⟨geo, pool, 0, 0, make 64 (G.count geo)⟩ where
  size := by
    rw [length_make]
    exact le_words_mul (by decide) _
  used := (usedIn_make (by decide)).symm

section

variable (h : r.Ok G) (hb : b < G.count r.geo)

include h hb

lemma Range.Ok.lt : b < r.bitmap.length * 64 :=
  lt_of_lt_of_le hb h.size

lemma Range.Ok.takeBit (hfree : test r.bitmap b = false) : (takeBit b r).Ok G where
  size := by simpa [Pool.takeBit] using h.size
  used := by
    show r.used + 1 = usedIn (set r.bitmap b) (G.count r.geo)
    rw [usedIn_set (by decide) h.size hb hfree, h.used]

lemma Range.Ok.giveBack (htaken : test r.bitmap b = true) : (giveBack b r).Ok G where
  size := by simpa [Pool.giveBack] using h.size
  used := by
    show r.used - 1 = usedIn (clear r.bitmap b) (G.count r.geo)
    rw [usedIn_clear (by decide) h.size hb htaken, h.used]

lemma Range.Ok.releaseBit : (releaseBit b r).Ok G := by
  rw [Pool.releaseBit]
  split
  · next htaken => exact h.giveBack hb htaken
  · exact h

lemma Range.Ok.reserveBit : (reserveBit b r).Ok G := by
  rw [Pool.reserveBit]
  split
  · exact h
  · next hfree =>
    have hfree : test r.bitmap b = false := by simpa using hfree
    -- The same range as after `takeBit`, but for the cursor.
    exact { h.takeBit hb hfree with }

lemma test_reserveBit : test (reserveBit b r).bitmap j = (decide (j = b) || test r.bitmap j) := by
  rw [reserveBit]
  split
  · next htaken =>
    by_cases hj : j = b
    · simp [hj, htaken]
    · simp [hj]
  · exact test_set (by decide) (h.lt hb)

end

@[simp] lemma geo_reserveBit : (reserveBit b r).geo = r.geo := by
  rw [reserveBit]; split <;> rfl

@[simp] lemma pool_reserveBit : (reserveBit b r).pool = r.pool := by
  rw [reserveBit]; split <;> rfl

@[simp] lemma geo_releaseBit : (releaseBit b r).geo = r.geo := by
  rw [releaseBit]; split <;> rfl

@[simp] lemma pool_releaseBit : (releaseBit b r).pool = r.pool := by
  rw [releaseBit]; split <;> rfl

end Ranges

/-! ### Sets -/

section

variable (G : Geometry γ α) (set : PoolSet γ)

/-- Every range is in order, and belongs to a pool. -/
def AllOk : Prop :=
  ∀ r ∈ set.ranges, r.Ok G ∧ r.pool < set.pools.length

/-- The address `a` is unit `b` of range `k`. -/
def IsUnit (k b : ℕ) (a : α) : Prop :=
  ∃ r, set.ranges[k]? = some r ∧ b < G.count r.geo ∧ G.toAddr r.geo b = a

/-- Bit `b` of range `k` is set. -/
def Taken (k b : ℕ) : Prop :=
  ∃ r, set.ranges[k]? = some r ∧ test r.bitmap b = true

/-- No two units are in each other's way. -/
def Separate (conflict : α → α → Prop) (set : PoolSet γ) : Prop :=
  ∀ ⦃k b k' b' a a'⦄, IsUnit G set k b a → IsUnit G set k' b' a' → conflict a a' → k = k' ∧ b = b'

/-- Every unit in the way of `a` is `a` itself. -/
def Fits (conflict : α → α → Prop) (set : PoolSet γ) (a : α) : Prop :=
  ∀ ⦃k b a'⦄, IsUnit G set k b a' → conflict a' a → a' = a

end

variable {set : PoolSet γ}

/-- A unit has one address. -/
lemma IsUnit.addr_eq {k b : ℕ} {a a' : α} (hu : IsUnit G set k b a)
    (hu' : IsUnit G set k b a') : a = a' := by
  obtain ⟨r, hr, -, rfl⟩ := hu
  obtain ⟨r', hr', -, rfl⟩ := hu'
  obtain rfl : r = r' := mem_unique hr hr'
  rfl

/-- A unit of a separate set fits it. -/
lemma Separate.fits {k b : ℕ} {a : α} (h : Separate G conflict set)
    (hu : IsUnit G set k b a) : Fits G conflict set a := by
  intro k' b' a' hu' hc
  obtain ⟨rfl, rfl⟩ := h hu' hu hc
  exact hu'.addr_eq hu

/-- The two sets differ in bits, counters and cursors only. -/
structure SameShape (set set' : PoolSet γ) : Prop where
  pools : set'.pools = set.pools
  gw : set'.gw = set.gw
  ranges : set'.ranges.map (fun r ↦ (r.geo, r.pool)) = set.ranges.map (fun r ↦ (r.geo, r.pool))

section Shape

variable {set set' set'' : PoolSet γ} {k b : ℕ} {a : α} {r : Range γ} {f : Range γ → Range γ}

lemma SameShape.refl (set : PoolSet γ) : SameShape set set := ⟨rfl, rfl, rfl⟩

/-- `pool_contains` reads the shape only. -/
lemma poolContains_eq (set : PoolSet γ) (p : ℕ) (a : α) :
    poolContains G set p a =
      (set.ranges.map fun r ↦ (r.geo, r.pool)).zipIdx.findSome? fun rk ↦
        if rk.1.2 = p then (G.toBit rk.1.1 a).map fun b ↦ (rk.2, b) else none := by
  rw [zipIdx_map, findSome?_map]
  rfl

section

variable (h : SameShape set set')

include h

lemma SameShape.trans (h' : SameShape set' set'') : SameShape set set'' :=
  ⟨h'.pools.trans h.pools, h'.gw.trans h.gw, h'.ranges.trans h.ranges⟩

lemma SameShape.symm : SameShape set' set :=
  ⟨h.pools.symm, h.gw.symm, h.ranges.symm⟩

lemma SameShape.getElem? (hr : set.ranges[k]? = some r) :
    ∃ r', set'.ranges[k]? = some r' ∧ r'.geo = r.geo ∧ r'.pool = r.pool := by
  have hk := congrArg (fun l ↦ l[k]?) h.ranges
  simp only [getElem?_map, hr, map_some, map_eq_some_iff] at hk
  obtain ⟨r', hr', heq⟩ := hk
  obtain ⟨hg, hp⟩ := mk.inj heq
  exact ⟨r', hr', hg, hp⟩

lemma SameShape.isUnit (hu : IsUnit G set k b a) : IsUnit G set' k b a := by
  obtain ⟨r, hr, hb, ha⟩ := hu
  obtain ⟨r', hr', hg, -⟩ := h.getElem? hr
  exact ⟨r', hr', hg ▸ hb, hg ▸ ha⟩

lemma SameShape.separate (hs : Separate G conflict set) : Separate G conflict set' :=
  fun _ _ _ _ _ _ hu hu' hc ↦ hs (h.symm.isUnit hu) (h.symm.isUnit hu') hc

lemma SameShape.findTarget (a : α) (n : Option String) :
    findTarget G set' a n = findTarget G set a n := by
  have hc : ∀ p, poolContains G set' p a = poolContains G set p a := fun p ↦ by
    rw [poolContains_eq, poolContains_eq, h.ranges]
  have hf : findPool set' = findPool set := by
    funext name
    rw [findPool, findPool, h.pools]
  rw [Pool.findTarget, Pool.findTarget, h.pools, hf]
  simp only [hc]

end

lemma getElem?_modifyRange (k' : ℕ) :
    (modifyRange k f set).ranges[k']? =
      if k = k' then (set.ranges[k']?).map f else set.ranges[k']? := by
  rw [modifyRange]
  split <;> simp_all

lemma sameShape_modifyRange (hg : ∀ r, (f r).geo = r.geo) (hp : ∀ r, (f r).pool = r.pool) :
    SameShape set (modifyRange k f set) where
  pools := rfl
  gw := rfl
  ranges := by
    apply ext_getElem?
    intro k'
    rw [getElem?_map, getElem?_map, getElem?_modifyRange]
    split
    · simp [Function.comp_def, hg, hp]
    · rfl

section

variable (hr : set.ranges[k]? = some r)

include hr

lemma AllOk.modifyRange (h : AllOk G set)
    (hp : (f r).pool = r.pool) (hf : (f r).Ok G) : AllOk G (modifyRange k f set) := by
  intro r' hr'
  obtain ⟨k', hk'⟩ := getElem?_of_mem hr'
  rw [getElem?_modifyRange] at hk'
  split at hk'
  · next hkk =>
    subst hkk
    rw [hr] at hk'
    obtain rfl : f r = r' := some.inj hk'
    exact ⟨hf, hp.symm ▸ (h r (mem_of_getElem? hr)).2⟩
  · exact h r' (mem_of_getElem? hk')

lemma getElem?_modifyRange_self :
    (modifyRange k f set).ranges[k]? = some (f r) := by
  rw [getElem?_modifyRange, if_pos rfl, hr, map_some]

lemma Taken.modifyRange {k' b' : ℕ} (h : Taken set k' b')
    (hf : k = k' → test r.bitmap b' = true → test (f r).bitmap b' = true) :
    Taken (modifyRange k f set) k' b' := by
  obtain ⟨r', hr', ht⟩ := h
  by_cases hk : k = k'
  · subst hk
    obtain rfl : r = r' := mem_unique hr hr'
    exact ⟨f r, getElem?_modifyRange_self hr, hf rfl ht⟩
  · exact ⟨r', by rw [getElem?_modifyRange, if_neg hk, hr'], ht⟩

end

end Shape

/-! ### The searches -/

section Searches

variable {set : PoolSet γ} {k b p rnd : ℕ} {a : α}

lemma found_some {f : Range γ → Option ℕ} (h : (set.ranges.zipIdx.findSome? fun rk ↦
    if rk.1.pool = p then (f rk.1).map fun b ↦ (rk.2, b) else none) = some (k, b)) :
    ∃ r, set.ranges[k]? = some r ∧ f r = some b := by
  obtain ⟨⟨r, k'⟩, hmem, hr⟩ := exists_of_findSome?_eq_some h
  split at hr
  · obtain ⟨b', hb', heq⟩ := map_eq_some_iff.mp hr
    obtain ⟨rfl, rfl⟩ := mk.inj heq
    exact ⟨r, mem_zipIdx_iff_getElem?.mp hmem, hb'⟩
  · simp at hr

lemma poolContains_some (h : poolContains G set p a = some (k, b)) :
    ∃ r, set.ranges[k]? = some r ∧ G.toBit r.geo a = some b :=
  found_some h

variable {n : Option String}

lemma findTarget_some (h : findTarget G set a n = some (k, b)) :
    ∃ r, set.ranges[k]? = some r ∧ G.toBit r.geo a = some b := by
  rw [findTarget, or_eq_some_iff] at h
  rcases h with h | ⟨-, h⟩
  · obtain ⟨p, -, hp⟩ := bind_eq_some_iff.mp h
    exact poolContains_some hp
  · obtain ⟨p, -, hp⟩ := exists_of_findSome?_eq_some h
    exact poolContains_some hp

/-- An address that some range has a unit for is found, whatever pool is preferred. -/
lemma findTarget_ne_none (hok : AllOk G set) {r : Range γ} (hr : set.ranges[k]? = some r)
    (hb : G.toBit r.geo a = some b) : findTarget G set a n ≠ none := by
  intro h
  rw [findTarget, or_eq_none_iff] at h
  have hp := (hok r (mem_of_getElem? hr)).2
  have hnone := findSome?_eq_none_iff.mp h.2 r.pool (mem_range.mpr hp)
  have := findSome?_eq_none_iff.mp hnone (r, k) (mem_zipIdx_iff_getElem?.mpr hr)
  simp [hb] at this

lemma allocIn_some (h : allocIn G set rnd p = some (k, b)) :
    ∃ r, set.ranges[k]? = some r ∧ b < G.count r.geo ∧ test r.bitmap b = false := by
  obtain ⟨r, hr, hb⟩ := found_some
    (f := fun r ↦ findFree r.bitmap (G.count r.geo) (searchFrom G set rnd r)) h
  have hfirst := findFree_first (by decide) r.bitmap (G.count r.geo) (searchFrom G set rnd r)
  rw [hb] at hfirst
  exact ⟨r, hr, hfirst.1, hfirst.2.1⟩

lemma allocFrom_some {start fuel : ℕ} (h : allocFrom G set rnd start fuel p = some (k, b)) :
    ∃ r, set.ranges[k]? = some r ∧ b < G.count r.geo ∧ test r.bitmap b = false := by
  induction fuel generalizing p with
  | zero => nomatch h
  | succ fuel ih =>
    rw [allocFrom] at h
    split at h
    · next heq => exact allocIn_some (heq.trans h)
    split at h
    · nomatch h
    · split at h
      · nomatch h
      · exact ih h

end Searches

/-! ### Reservations during a reload -/

/-- The second set is the first with more bits set. -/
structure Grows (G : Geometry γ α) (set set' : PoolSet γ) : Prop where
  shape : SameShape set set'
  ok : AllOk G set'
  taken : ∀ {k b}, Taken set k b → Taken set' k b

section Reservations

variable {set set' set'' : PoolSet γ} {k b : ℕ} {a : α}

lemma Grows.refl (h : AllOk G set) : Grows G set set := ⟨.refl set, h, id⟩

lemma Grows.trans (h : Grows G set set') (h' : Grows G set' set'') : Grows G set set'' :=
  ⟨h.shape.trans h'.shape, h'.ok, fun ht ↦ h'.taken (h.taken ht)⟩

/-- One more bit of one range is set. -/
lemma Grows.setBit (h : AllOk G set) {r : Range γ} (hr : set.ranges[k]? = some r)
    {f : Range γ → Range γ} (hgeo : ∀ r, (f r).geo = r.geo) (hpool : ∀ r, (f r).pool = r.pool)
    (hok : (f r).Ok G) (htest : ∀ j, test (f r).bitmap j = (decide (j = b) || test r.bitmap j)) :
    Grows G set (modifyRange k f set) ∧ Taken (modifyRange k f set) k b := by
  refine ⟨⟨sameShape_modifyRange hgeo hpool, h.modifyRange hr (hpool r) hok, ?_⟩,
    _, getElem?_modifyRange_self hr, by simp [htest]⟩
  exact fun ht ↦ ht.modifyRange hr fun _ ht' ↦ by rw [htest, ht', Bool.or_true]

/-- The reservation of a unit that `findTarget` has found. -/
lemma Grows.reserve (hG : Lawful G conflict) (h : AllOk G set) {n : Option String}
    (hf : findTarget G set a n = some (k, b)) :
    Grows G set (modifyRange k (reserveBit b) set) ∧
      Taken (modifyRange k (reserveBit b) set) k b := by
  obtain ⟨r, hr, hbit⟩ := findTarget_some hf
  have hb := hG.toBit_lt hbit
  have hok := (h r (mem_of_getElem? hr)).1
  exact Grows.setBit h hr (fun _ ↦ geo_reserveBit) (fun _ ↦ pool_reserveBit) (hok.reserveBit hb)
    fun j ↦ test_reserveBit hok hb

lemma Grows.reserveAddr (hG : Lawful G conflict) (h : AllOk G set) (a : α) :
    Grows G set (reserveAddr G set a) := by
  rw [Pool.reserveAddr]
  split
  · next hf => exact (Grows.reserve hG h hf).1
  · exact .refl h

lemma Grows.reserveAddrs (hG : Lawful G conflict) (h : AllOk G set) {addrs : List α} :
    Grows G set (addrs.foldl (Pool.reserveAddr G) set) := by
  exact foldlRecOn (motive := Grows G set) addrs _ (.refl h) fun _ hg a _ ↦
    hg.trans (.reserveAddr hG hg.ok a)

end Reservations

/-! ### Leases of sessions -/

section Sessions

variable {ss : List (Session α)} {s : Session α} {i j : ℕ} {x : α × Option ℕ}

/-- The lease of one session. -/
def Session.lease (s : Session α) : Option (α × Option ℕ) :=
  match s.item with
  | some (.lease a k) => some (a, k)
  | _ => none

lemma leaseAt_eq (ss : List (Session α)) (i : ℕ) :
    leaseAt ss i = (ss[i]?).bind Session.lease := by
  rw [leaseAt]
  cases ss[i]? with
  | none => rfl
  | some s => rfl

lemma leaseAt_assign (item : Option (Item α)) :
    leaseAt (assign ss i item) j =
      if i = j then (ss[i]?).bind fun s ↦ Session.lease { s with item } else leaseAt ss j := by
  rw [leaseAt_eq, leaseAt_eq, assign, getElem?_modify]
  split
  · next hij =>
    subst hij
    cases ss[i]? <;> rfl
  · cases ss[j]? <;> rfl

/-- An assignment of something that is not a lease takes at most one away. -/
lemma leaseAt_of_assign {item : Option (Item α)} (hitem : ∀ a k, item ≠ some (.lease a k))
    (h : leaseAt (assign ss i item) j = some x) : i ≠ j ∧ leaseAt ss j = some x := by
  rw [leaseAt_assign] at h
  split at h
  · obtain ⟨s, -, hs⟩ := bind_eq_some_iff.mp h
    rw [Session.lease] at hs
    split at hs
    · next heq => exact (hitem _ _ heq).elim
    · nomatch hs
  · next hij => exact ⟨hij, h⟩

end Sessions

/-- What a reload makes of one lease: it has the range `findTarget` finds, and its unit there. -/
def Placed (G : Geometry γ α) (set set' : PoolSet γ) (x : α × Option ℕ)
    (n : Option String) : Prop :=
  x.2 = (findTarget G set x.1 n).map fst ∧
    ∀ k b, findTarget G set x.1 n = some (k, b) → Taken set' k b

lemma reconcile_spec (hG : Lawful G conflict) {set : PoolSet γ} (h : AllOk G set)
    (s : Session α) :
    Grows G set (reconcile G set s).1 ∧
      ∀ x, (reconcile G set s).2.1.lease = some x →
        (∃ y, s.lease = some (x.1, y)) ∧ Placed G set (reconcile G set s).1 x s.poolName := by
  rw [reconcile]
  split
  · next hitem =>
    refine ⟨.refl h, fun x hx ↦ ?_⟩
    rw [Session.lease, hitem] at hx
    nomatch hx
  · next a y hitem =>
    have hs : s.lease = some (a, y) := by rw [Session.lease, hitem]
    split
    · next k b hf =>
      obtain ⟨hg, ht⟩ := Grows.reserve hG h hf
      refine ⟨hg, fun x hx ↦ ?_⟩
      obtain rfl : (a, some k) = x := some.inj hx
      refine ⟨⟨y, hs⟩, by rw [hf]; rfl, fun k' b' hf' ↦ ?_⟩
      obtain ⟨rfl, rfl⟩ := mk.inj (mem_unique hf hf')
      exact ht
    · next hf =>
      refine ⟨.refl h, fun x hx ↦ ?_⟩
      obtain rfl : (a, none) = x := some.inj hx
      refine ⟨⟨y, hs⟩, by rw [hf]; rfl, fun k b hf' ↦ ?_⟩
      nomatch hf.symm.trans hf'
  · next addrs hitem =>
    refine ⟨Grows.reserveAddrs hG h, fun x hx ↦ ?_⟩
    rw [Session.lease, hitem] at hx
    nomatch hx

/-- The walk over the sessions: by induction on the list, the bits set for the sessions already
passed staying set. -/
lemma reconcileAll_spec (hG : Lawful G conflict) {set : PoolSet γ} (h : AllOk G set) (i : ℕ)
    (ss : List (Session α)) :
    Grows G set (reconcileAll G set i ss).1 ∧
      ∀ j x, leaseAt (reconcileAll G set i ss).2.1 j = some x →
        (∃ y, leaseAt ss j = some (x.1, y)) ∧
          ∃ n, Placed G set (reconcileAll G set i ss).1 x n := by
  induction ss generalizing set i with
  | nil =>
    refine ⟨.refl h, fun j x hx ↦ ?_⟩
    nomatch hx
  | cons s ss ih =>
    obtain ⟨hg, hs⟩ := reconcile_spec hG h s
    obtain ⟨hg', hss⟩ := ih hg.ok (i + 1)
    refine ⟨hg.trans hg', fun j x hx ↦ ?_⟩
    rw [leaseAt_eq] at hx
    cases j with
    | zero =>
      obtain ⟨⟨y, hy⟩, hfst, htaken⟩ := hs x hx
      refine ⟨⟨y, by rw [leaseAt_eq]; exact hy⟩, s.poolName, hfst, fun k b hf ↦ ?_⟩
      exact hg'.taken (htaken k b hf)
    | succ j =>
      obtain ⟨⟨y, hy⟩, n, hfst, htaken⟩ := hss j x (by rw [leaseAt_eq]; exact hx)
      -- The search on the set so far is the search on the new set: only bits have changed.
      rw [hg.shape.findTarget] at hfst
      refine ⟨⟨y, by rw [leaseAt_eq] at hy ⊢; exact hy⟩, n, hfst, fun k b hf ↦ ?_⟩
      exact htaken k b (by rw [hg.shape.findTarget]; exact hf)

/-! ### The invariant -/

/-- What holds of the pools and the live leases. -/
structure Inv (G : Geometry γ α) (conflict : α → α → Prop) (st : PoolState γ α) : Prop where
  ok : ∀ set, st.cur = some set → AllOk G set
  separate : ∀ set, st.cur = some set → Separate G conflict set
  /-- A lease with a range is a unit of it. -/
  attached : ∀ {i a k}, leaseAt st.sessions i = some (a, some k) →
    ∃ set b, st.cur = some set ∧ IsUnit G set k b a
  /-- Every unit in the way of a lease is taken. -/
  covered : ∀ {set i a x k b a'}, st.cur = some set → leaseAt st.sessions i = some (a, x) →
    IsUnit G set k b a' → conflict a' a → Taken set k b
  /-- No two leases are in each other's way. -/
  distinct : ∀ {i j a a' x x'}, i ≠ j → leaseAt st.sessions i = some (a, x) →
    leaseAt st.sessions j = some (a', x') → ¬ conflict a a'

section Invariant

variable {st : PoolState γ α} {set set' : PoolSet γ} {ss : List (Session α)} {i k b : ℕ} {a : α}

lemma Inv.start : Inv G conflict (poolStart : PoolState γ α) where
  ok := nofun
  separate := nofun
  attached h := by rw [leaseAt_eq] at h; nomatch h
  covered h := nomatch h
  distinct _ h := by rw [leaseAt_eq] at h; nomatch h

/-- Sessions may lose leases. -/
lemma Inv.mono (h : Inv G conflict st) {disc : List ℕ}
    (hss : ∀ j x, leaseAt ss j = some x → leaseAt st.sessions j = some x) :
    Inv G conflict ⟨st.cur, ss, disc⟩ :=
  { h with
    attached hl := h.attached (hss _ _ hl)
    covered hc hl := h.covered hc (hss _ _ hl)
    distinct hij hl hl' := h.distinct hij (hss _ _ hl) (hss _ _ hl') }

/-- The set may change in its bits, as long as it keeps those that are in the way of a lease. -/
lemma Inv.setBits (h : Inv G conflict st) (hcur : st.cur = some set) (hshape : SameShape set set')
    (hok : AllOk G set')
    (hbits : ∀ i a x k b a', leaseAt st.sessions i = some (a, x) → IsUnit G set k b a' →
      conflict a' a → Taken set k b → Taken set' k b) :
    Inv G conflict { st with cur := some set' } where
  ok s hs := by cases hs; exact hok
  separate s hs := by cases hs; exact hshape.separate (h.separate set hcur)
  attached hl := by
    obtain ⟨s, b, hs, hu⟩ := h.attached hl
    obtain rfl : set = s := mem_unique hcur hs
    exact ⟨set', b, rfl, hshape.isUnit hu⟩
  covered hs hl hu hc := by
    cases hs
    have hu := hshape.symm.isUnit hu
    exact hbits _ _ _ _ _ _ hl hu hc (h.covered hcur hl hu hc)
  distinct := h.distinct

/-! ### Allocation -/

/-- The unit a session is given: it was free, it has an address, and taking it is a step that only
sets its bit. -/
lemma choose_takes (h : AllOk G set) {s : Session α} {rnd : ℕ}
    (hc : choose G set s rnd = some (k, b)) :
    ¬ Taken set k b ∧ (∃ a, IsUnit G set k b a ∧ unitAddr G set k b = some a) ∧
      Grows G set (modifyRange k (takeBit b) set) ∧ Taken (modifyRange k (takeBit b) set) k b := by
  obtain ⟨p, -, hp⟩ := bind_eq_some_iff.mp hc
  obtain ⟨r, hr, hb, hfree⟩ := allocFrom_some hp
  have hok := (h r (mem_of_getElem? hr)).1
  refine ⟨?_, ⟨_, ⟨r, hr, hb, rfl⟩, by rw [unitAddr, hr]; rfl⟩,
    Grows.setBit h hr (fun _ ↦ rfl) (fun _ ↦ rfl) (hok.takeBit hb hfree)
      fun j ↦ test_set (by decide) (hok.lt hb)⟩
  rintro ⟨r', hr', ht⟩
  obtain rfl : r = r' := mem_unique hr hr'
  exact Bool.false_ne_true (hfree.symm.trans ht)

/-- A taken unit is given back: the other bits stay. -/
lemma giveBack_keeps {f : Range γ → Range γ}
    (hf : ∀ r, test r.bitmap b = true → f r = giveBack b r) (h : AllOk G set)
    (hu : IsUnit G set k b a) (ht : Taken set k b) :
    AllOk G (modifyRange k f set) ∧
      ∀ {k' b'}, ¬ (k' = k ∧ b' = b) → Taken set k' b' → Taken (modifyRange k f set) k' b' := by
  obtain ⟨r, hr, hb, -⟩ := hu
  obtain ⟨r₁, hr₁, ht⟩ := ht
  obtain rfl : r = r₁ := mem_unique hr hr₁
  have hok := (h r (mem_of_getElem? hr)).1
  have hback := hf r ht
  refine ⟨h.modifyRange hr (by rw [hback]; rfl) (hback ▸ hok.giveBack hb ht),
    fun {k' b'} hne ht' ↦ ht'.modifyRange hr fun hk ht'' ↦ ?_⟩
  have hb' : b' ≠ b := fun hb' ↦ hne ⟨hk.symm, hb'⟩
  rw [hback, giveBack, test_clear (by decide) (hok.lt hb), ht'']
  simpa using hb'

/-- The lease that a session had is gone. -/
lemma Inv.drop (h : Inv G conflict st) {item : Option (Item α)}
    (hitem : ∀ a k, item ≠ some (.lease a k)) :
    Inv G conflict { st with sessions := assign st.sessions i item } :=
  h.mono fun _ _ hl ↦ (leaseAt_of_assign hitem hl).2

section

variable (hG : Lawful G conflict) (h : Inv G conflict st)

include hG h

/-- A new lease on a unit that was free and now is taken. -/
lemma Inv.newLease (hcur : st.cur = some set) (hfree : ¬ Taken set k b) (hu : IsUnit G set k b a)
    (hg : Grows G set set') (ht : Taken set' k b) :
    Inv G conflict
      { st with
        cur := some set'
        sessions := assign st.sessions i (some (.lease a (some k))) } := by
  -- After the assignment a lease is the new one or one that another session had before.
  have hcases : ∀ {j x}, leaseAt (assign st.sessions i (some (.lease a (some k)))) j = some x →
      (i = j ∧ x = (a, some k)) ∨ (i ≠ j ∧ leaseAt st.sessions j = some x) := by
    intro j x hx
    rw [leaseAt_assign] at hx
    split at hx
    · next hij =>
      obtain ⟨s, -, hs⟩ := bind_eq_some_iff.mp hx
      exact .inl ⟨hij, (some.inj hs).symm⟩
    · next hij => exact .inr ⟨hij, hx⟩
  -- No other lease is in the way of the new one: its unit would have been taken.
  have hnew : ∀ {j a' x'}, leaseAt st.sessions j = some (a', x') → ¬ conflict a a' :=
    fun hl hc ↦ hfree (h.covered hcur hl hu hc)
  have h' := h.setBits hcur hg.shape hg.ok fun _ _ _ _ _ _ _ _ _ ht ↦ hg.taken ht
  have hu := hg.shape.isUnit hu
  refine { h' with attached := fun {j a' k'} hl ↦ ?_, covered := ?_, distinct := ?_ }
  · rcases hcases hl with ⟨-, heq⟩ | ⟨-, hl⟩
    · obtain ⟨rfl, hk⟩ := mk.inj heq
      obtain rfl := some.inj hk
      exact ⟨set', b, rfl, hu⟩
    · exact h'.attached hl
  · intro s j a₁ x k' b' a' hs hl hu' hc
    rcases hcases hl with ⟨-, heq⟩ | ⟨-, hl⟩
    · obtain ⟨rfl, -⟩ := mk.inj heq
      cases hs
      obtain ⟨rfl, rfl⟩ := h'.separate set' rfl hu' hu hc
      exact ht
    · exact h'.covered hs hl hu' hc
  · intro j j' a₁ a₂ x x' hij hl hl'
    rcases hcases hl with ⟨hi, heq⟩ | ⟨-, hold⟩
    · obtain ⟨rfl, -⟩ := mk.inj heq
      rcases hcases hl' with ⟨hi', -⟩ | ⟨-, hold'⟩
      · exact (hij (hi.symm.trans hi')).elim
      · exact hnew hold'
    · rcases hcases hl' with ⟨-, heq⟩ | ⟨-, hold'⟩
      · obtain ⟨rfl, -⟩ := mk.inj heq
        exact fun hc ↦ hnew hold (hG.symm hc)
      · exact h.distinct hij hold hold'

lemma Inv.get (i rnd : ℕ) (noMem : Bool) : Inv G conflict (getStep G st i rnd noMem) := by
  rw [getStep]
  split
  · exact h
  next s hs =>
  split
  · exact h.drop nofun
  next set hcur =>
  rw [getIp]
  cases hc : choose G set s rnd with
  | none =>
    have hdrop : Inv G conflict { st with sessions := assign st.sessions i none } :=
      h.drop nofun
    rw [hcur] at hdrop
    exact hdrop
  | some kb =>
    obtain ⟨k, b⟩ := kb
    obtain ⟨hfree, ⟨a, hu, hua⟩, hg, ht⟩ := choose_takes (h.ok set hcur) hc
    cases noMem with
    | false =>
      simp only [Bool.false_eq_true, if_false, hua, map_some]
      exact h.newLease hG hcur hfree hu hg ht
    | true =>
      obtain ⟨hok, hkeep⟩ := giveBack_keeps (fun _ _ ↦ rfl) hg.ok (hg.shape.isUnit hu) ht
      have hshape := hg.shape.trans (sameShape_modifyRange (k := k) (f := giveBack b)
        (fun _ ↦ rfl) fun _ ↦ rfl)
      refine (h.setBits hcur hshape hok ?_).drop nofun
      -- A unit in the way of a lease was taken before, so it is not the one given back.
      intro j a' x k' b' a'' hl hu' hc' ht'
      refine hkeep ?_ (hg.taken ht')
      rintro ⟨rfl, rfl⟩
      exact hfree ht'

/-! ### Release -/

lemma Inv.put (i : ℕ) : Inv G conflict (putStep G st i) := by
  rw [putStep]
  split
  · next a range hl =>
    cases range with
    | none => exact h.drop nofun
    | some k =>
      obtain ⟨set, b, hcur, hu⟩ := h.attached hl
      have ht := h.covered hcur hl hu (hG.refl a)
      obtain ⟨hok, hkeep⟩ := giveBack_keeps (f := releaseBit b) (fun _ ↦ (if_pos ·)) (h.ok set hcur)
        hu ht
      have hrel : releaseLease G set a k = modifyRange k (releaseBit b) set := by
        obtain ⟨r, hr, hb, rfl⟩ := hu
        rw [releaseLease, hr, bind_some, hG.toBit_toAddr hb]
      rw [putIp, hcur, map_some, hrel]
      -- The lease goes first: the bits of the others are then not in its way.
      have hdrop : Inv G conflict { st with sessions := assign st.sessions i none } :=
        h.drop nofun
      refine hdrop.setBits hcur (sameShape_modifyRange (fun _ ↦ geo_releaseBit) fun _ ↦
        pool_releaseBit) hok ?_
      intro j a' x k' b' a'' hl' hu' hc ht'
      obtain ⟨hij, hl'⟩ := leaseAt_of_assign nofun hl'
      refine hkeep ?_ ht'
      rintro ⟨rfl, rfl⟩
      obtain rfl := hu.addr_eq hu'
      exact h.distinct hij hl hl' hc
  · exact h

end

/-! ### Reload -/

/-- A set that the reload may use: in order, with units that do not conflict, and such that every
live lease fits. -/
structure Admits (G : Geometry γ α) (conflict : α → α → Prop) (st : PoolState γ α)
    (set : PoolSet γ) : Prop where
  ok : AllOk G set
  separate : Separate G conflict set
  fits : ∀ {i a x}, leaseAt st.sessions i = some (a, x) → Fits G conflict set a

lemma Inv.reload (hG : Lawful G conflict) (h : Inv G conflict st)
    (hset : Admits G conflict st set) : Inv G conflict (loadConfig G st (some set)) := by
  obtain ⟨hg, hspec⟩ := reconcileAll_spec hG hset.ok 0 st.sessions
  refine ⟨?_, ?_, ?_, ?_, ?_⟩
  · intro s hs
    cases hs
    exact hg.ok
  · intro s hs
    cases hs
    exact hg.shape.separate hset.separate
  · intro i a k hl
    obtain ⟨⟨y, hold⟩, n, hfst, -⟩ := hspec i _ hl
    obtain ⟨⟨k', b⟩, hf, hk⟩ := map_eq_some_iff.mp hfst.symm
    obtain rfl : k' = k := hk
    obtain ⟨r, hr, hbit⟩ := findTarget_some hf
    have hu : IsUnit G set k' b (G.toAddr r.geo b) := ⟨r, hr, hG.toBit_lt hbit, rfl⟩
    have ha : G.toAddr r.geo b = a := hset.fits hold hu (hG.toBit_conflict hbit)
    exact ⟨_, b, rfl, hg.shape.isUnit (ha ▸ hu)⟩
  · intro s i a x k b a' hs hl hu hc
    cases hs
    obtain ⟨⟨y, hold⟩, n, -, htaken⟩ := hspec i _ hl
    have hu := hg.shape.symm.isUnit hu
    -- The unit in the way is the lease itself, so the search finds a unit, and it is this one.
    obtain rfl := hset.fits hold hu hc
    obtain ⟨r, hr, hb, hra⟩ := id hu
    have hbit : G.toBit r.geo a' = some b := hra ▸ hG.toBit_toAddr hb
    obtain ⟨⟨k', b'⟩, hf⟩ := ne_none_iff_exists'.mp (findTarget_ne_none hset.ok hr hbit)
    obtain ⟨r', hr', hbit'⟩ := findTarget_some hf
    have hu' : IsUnit G set k' b' (G.toAddr r'.geo b') := ⟨r', hr', hG.toBit_lt hbit', rfl⟩
    obtain ⟨rfl, rfl⟩ := hset.separate hu' hu (hG.toBit_conflict hbit')
    exact htaken k' b' hf
  · intro i j a a' x x' hij hl hl'
    obtain ⟨⟨y, hold⟩, -⟩ := hspec i _ hl
    obtain ⟨⟨y', hold'⟩, -⟩ := hspec j _ hl'
    exact h.distinct hij hold hold'

/-! ### Runs -/

/-- What a reload has to meet; the other events are free. -/
def Admissible (G : Geometry γ α) (conflict : α → α → Prop) (build : κ → Option (PoolSet γ))
    (st : PoolState γ α) : PoolEvent κ α → Prop
  | .reload conf => ∀ set, build conf = some set → Admits G conflict st set
  | _ => True

variable {build : κ → Option (PoolSet γ)}

lemma Inv.step (hG : Lawful G conflict) (h : Inv G conflict st) (ev : PoolEvent κ α)
    (hev : Admissible G conflict build st ev) : Inv G conflict (poolStep G build st ev) := by
  cases ev with
  | session poolName =>
    refine h.mono fun j x hl ↦ ?_
    rw [leaseAt_eq] at hl ⊢
    rw [getElem?_append] at hl
    split at hl
    · exact hl
    · rw [getElem?_singleton] at hl
      split at hl <;> nomatch hl
  | rename i poolName =>
    refine h.mono fun j x hl ↦ ?_
    rw [leaseAt_eq] at hl ⊢
    rw [getElem?_modify] at hl
    cases hj : st.sessions[j]? with
    | none => simp [hj] at hl
    | some s =>
      rw [hj] at hl
      split at hl <;> exact hl
  | get i rnd noMem => exact h.get hG i rnd noMem
  | put i => exact h.put hG i
  | foreign i addrs =>
    refine h.drop fun a k heq ↦ ?_
    obtain ⟨l, -, hl⟩ := map_eq_some_iff.mp heq
    nomatch hl
  | reload conf =>
    show Inv G conflict (loadConfig G st (build conf))
    cases hb : build conf with
    | none => exact h
    | some set => exact h.reload hG (hev set hb)

/-- **The invariant along a run** whose reloads are admissible. -/
theorem Inv.run (hG : Lawful G conflict) {evs : List (PoolEvent κ α)}
    (hevs : Along (poolStep G build) (Admissible G conflict build) poolStart evs) :
    Inv G conflict (run (poolStep G build) poolStart evs) :=
  hevs.inv (fun _ ev h hev ↦ h.step hG ev hev) Inv.start

end Invariant

end AccelPpp.Pool
