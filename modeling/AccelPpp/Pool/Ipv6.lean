import AccelPpp.Pool.Leases

/-!
# IPv6 pools (`extra/ipv6pool.c`)

The instance of the pools for IPv6. There are two kinds of pools, for addresses (IA_NA) and for
delegated prefixes (IA_PD), which share their code and one configuration and are otherwise apart. A
lease is a prefix: an address and a length. A range hands out prefixes of one length, `2 ^ shift`
addresses apart from its `start`, which need not lie on the boundary of a prefix.

Two prefixes are in each other's way when they cover a common address. Within a set of separate
ranges that does not happen. After a reload it may: `range_addr_to_bit` looks at the address of a
lease and not at its length, so that a lease that is longer or shorter than the prefixes of the new
range is given one bit, whatever it covers, or none.
-/

namespace AccelPpp.Pool.Ipv6

open List Nat Option Transition

/-! ### Prefixes -/

/-- `struct ipv6db_addr_t` -/
structure Prefix6 where
  addr : BitVec 128
  len : ℕ
  deriving DecidableEq

/-- The address `x` has the prefix. -/
def Covers (a : Prefix6) (x : BitVec 128) : Prop :=
  x.toNat / 2 ^ (128 - a.len) = a.addr.toNat / 2 ^ (128 - a.len)

instance (a : Prefix6) (x : BitVec 128) : Decidable (Covers a x) :=
  inferInstanceAs (Decidable (_ = _))

/-- The two prefixes cover a common address. -/
def Overlap (a a' : Prefix6) : Prop :=
  ∃ x, Covers a x ∧ Covers a' x

/-! ### Ranges -/

/-- The fixed part of `struct ip6_range`, with what `add_prefix` ensures. -/
structure Ip6Range where
  start : BitVec 128
  prefixLen : ℕ
  count : ℕ
  inside : ∀ b < count, start.toNat + b * 2 ^ (128 - prefixLen) < 2 ^ 128
  count_lt : count < 2 ^ 64

/-- `shift` -/
def Ip6Range.shift (r : Ip6Range) : ℕ := 128 - r.prefixLen

/-- `in6_index_to_addr`, with the length of the range. -/
def indexToAddr (r : Ip6Range) (i : ℕ) : Prefix6 :=
  ⟨BitVec.ofNat 128 (r.start.toNat + i * 2 ^ r.shift), r.prefixLen⟩

/-- `range_addr_to_bit`; the length of the prefix is not looked at. -/
def rangeAddrToBit (r : Ip6Range) (a : Prefix6) : Option ℕ :=
  if a.addr.toNat < r.start.toNat then none
  else if (a.addr.toNat - r.start.toNat) % 2 ^ r.shift ≠ 0 then none
  else if (a.addr.toNat - r.start.toNat) / 2 ^ r.shift ≥ 2 ^ 64 then none
  else if (a.addr.toNat - r.start.toNat) / 2 ^ r.shift ≥ r.count then none
  else some ((a.addr.toNat - r.start.toNat) / 2 ^ r.shift)

/-- The IPv6 ranges as a geometry. -/
def geometry : Geometry Ip6Range Prefix6 where
  count := Ip6Range.count
  toAddr := indexToAddr
  toBit := rangeAddrToBit

/-! ### Configuration -/

/-- `enum ippool_type` -/
inductive Kind
  | address
  | delegated
  deriving DecidableEq

/-- What is found in a range; `other` when a part is missing or is not what it should be. -/
inductive RangeText
  /-- `addr/mask,prefix_len` -/
  | net (start : BitVec 128) (mask prefixLen : ℤ)
  | other
  deriving DecidableEq

/-- A line of the section. -/
inductive ConfLine
  /-- `gw-ip6-address`; `none` when the text is no address. -/
  | gwIp6Address (addr : Option ℕ)
  | reloadOrphan (disconnect : Bool)
  | range (kind : Kind) (text : RangeText) (name next : Option String)
  deriving DecidableEq

/-- The section `ipv6-pool`, if there is one, and whether there is memory for the set. -/
structure Conf where
  lines : Option (List ConfLine)
  noMem : Bool
  deriving DecidableEq

/-- `IPPOOL_MAX_BITS` -/
def maxBits : ℕ := 2 ^ 24

/-- `IPPOOL_MAX_SHIFT` -/
def maxShift : ℤ := 24

/-- `end`: all host bits set. -/
def lastAddr (start : BitVec 128) (mask : ℤ) : BitVec 128 :=
  start ||| BitVec.ofNat 128 (2 ^ (128 - mask.toNat) - 1)

lemma start_le_lastAddr {start : BitVec 128} {mask : ℤ} :
    start.toNat ≤ (lastAddr start mask).toNat := by
  exact left_le_or

/-- The units up to the last address are addresses. -/
lemma units_inside {start last : BitVec 128} {s b : ℕ} (hle : start.toNat ≤ last.toNat)
    (hb : b < (last.toNat - start.toNat) / 2 ^ s + 1) : start.toNat + b * 2 ^ s < 2 ^ 128 := by
  have hmul : b * 2 ^ s ≤ (last.toNat - start.toNat) / 2 ^ s * 2 ^ s :=
    mul_le_mul_right _ (le_of_lt_succ hb)
  have hdiv := div_mul_le_self (last.toNat - start.toNat) (2 ^ s)
  omega

/-- `add_prefix`: the range, unless it is refused. -/
def addPrefix : RangeText → Option Ip6Range
  | .other => none
  | .net start mask prefixLen =>
    if mask < 7 ∨ mask > 127 then none
    else if prefixLen > 128 ∨ prefixLen < mask then none
    else if prefixLen - mask > maxShift then none
    else
      if hspan : ((lastAddr start mask).toNat - start.toNat) / 2 ^ (128 - prefixLen.toNat) ≥
          maxBits then none
      else some
        { start, prefixLen := prefixLen.toNat
          count := ((lastAddr start mask).toNat - start.toNat) / 2 ^ (128 - prefixLen.toNat) + 1
          inside := fun _ hb ↦ units_inside start_le_lastAddr hb
          count_lt := by
            have hbits : maxBits < 2 ^ 64 := by decide
            omega }

/-- The pools of one kind as far as they have been read. -/
structure Draft where
  pools : List IpPool
  ranges : List (Ip6Range × ℕ)
  gw : ℕ
  disconnect : Bool

/-- One line, for the pools of one kind. -/
def readLine (kind : Kind) (d : Draft) : ConfLine → Draft
  | .gwIp6Address addr => { d with gw := addr.getD d.gw }
  | .reloadOrphan disconnect => { d with disconnect }
  | .range kind' text name next =>
    if kind' = kind then
      let (pools, p) := linePool d.pools name
      { d with
        pools := linkNext pools p next
        ranges := d.ranges ++ ((addPrefix text).map fun r ↦ (r, p)).toList }
    else d

/-- `finalize_ranges` for one range. -/
def finalizeRange (rp : Ip6Range × ℕ) : Range Ip6Range :=
  ⟨rp.1, rp.2, 0, 0, BitPool.make 64 rp.1.count⟩

/-- `build_pool_set`, the pools of one kind. -/
def buildPoolSet (kind : Kind) (conf : Conf) : Option (PoolSet Ip6Range) :=
  if conf.noMem then none
  else
    match conf.lines with
    | none => some ⟨[], [], 0, false, false⟩
    | some lines =>
      let d := lines.foldl (readLine kind) ⟨[⟨none, none⟩], [], 0, false⟩
      some ⟨d.pools, d.ranges.map finalizeRange, d.gw, false, d.disconnect⟩

/-! ### The two kinds together -/

/-- The pools of the two kinds, and what the sessions have of each. -/
abbrev Ip6State := Kind → PoolState Ip6Range Prefix6

/-- What can happen. -/
inductive Ip6Event
  | session (poolName : Kind → Option String)
  | rename (kind : Kind) (i : ℕ) (poolName : Option String)
  | get (kind : Kind) (i : ℕ) (noMem : Bool)
  | put (kind : Kind) (i : ℕ)
  | foreign (kind : Kind) (i : ℕ) (addrs : Option (List Prefix6))
  | reload (conf : Conf)

/-- What an event is for the pools of one kind. -/
def Ip6Event.atKind (kind : Kind) : Ip6Event → Option (PoolEvent Conf Prefix6)
  | .session poolName => some (.session (poolName kind))
  | .rename kind' i poolName => if kind' = kind then some (.rename i poolName) else none
  | .get kind' i noMem => if kind' = kind then some (.get i 0 noMem) else none
  | .put kind' i => if kind' = kind then some (.put i) else none
  | .foreign kind' i addrs => if kind' = kind then some (.foreign i addrs) else none
  | .reload conf => some (.reload conf)

/-- One event. -/
def ip6Step (st : Ip6State) (ev : Ip6Event) : Ip6State := fun kind ↦
  match ev.atKind kind with
  | some e => poolStep geometry (buildPoolSet kind) (st kind) e
  | none => st kind

/-- Before the first configuration is read. -/
def ip6Start : Ip6State := fun _ ↦ poolStart

/-! ### The geometry -/

section Geometry

variable {r : Ip6Range} {a a' : Prefix6} {b : ℕ}

lemma toNat_indexToAddr (hb : b < r.count) :
    (indexToAddr r b).addr.toNat = r.start.toNat + b * 2 ^ r.shift := by
  exact mod_eq_of_lt (r.inside b hb)

/-- The addresses of a unit are one block, and the blocks of a range are consecutive. -/
lemma covers_indexToAddr (hb : b < r.count) {x : BitVec 128} :
    Covers (indexToAddr r b) x ↔ x.toNat / 2 ^ r.shift = r.start.toNat / 2 ^ r.shift + b := by
  show x.toNat / 2 ^ r.shift = (indexToAddr r b).addr.toNat / 2 ^ r.shift ↔ _
  rw [toNat_indexToAddr hb, Nat.add_mul_div_right _ _ (Nat.two_pow_pos _)]

lemma overlap_refl (a : Prefix6) : Overlap a a := ⟨a.addr, rfl, rfl⟩

lemma rangeAddrToBit_eq_some (h : rangeAddrToBit r a = some b) :
    b < r.count ∧ a.addr.toNat = r.start.toNat + b * 2 ^ r.shift := by
  rw [rangeAddrToBit] at h
  split at h
  · nomatch h
  next hstart =>
  split at h
  · nomatch h
  next hmod =>
  split at h
  · nomatch h
  split at h
  · nomatch h
  · next hcount =>
    have hb := some.inj h
    have hdvd : 2 ^ r.shift ∣ a.addr.toNat - r.start.toNat :=
      dvd_of_mod_eq_zero (not_not.mp hmod)
    have hmul := Nat.div_mul_cancel hdvd
    rw [hb] at hmul hcount
    omega

lemma rangeAddrToBit_indexToAddr (hb : b < r.count) :
    rangeAddrToBit r (indexToAddr r b) = some b := by
  have hdelta : r.start.toNat + b * 2 ^ r.shift - r.start.toNat = b * 2 ^ r.shift :=
    Nat.add_sub_cancel_left _ _
  have hcount := r.count_lt
  rw [rangeAddrToBit, toNat_indexToAddr hb, hdelta, Nat.mul_div_cancel b (Nat.two_pow_pos _),
    if_neg (by omega), if_neg (by simp), if_neg (by omega), if_neg (by omega)]

lemma lawful : Lawful geometry Overlap where
  refl := overlap_refl
  symm := fun ⟨x, hx, hx'⟩ ↦ ⟨x, hx', hx⟩
  toBit_lt h := (rangeAddrToBit_eq_some h).1
  toBit_conflict := by
    intro g a b h
    obtain ⟨hb, ha⟩ := rangeAddrToBit_eq_some h
    refine ⟨a.addr, (covers_indexToAddr hb).mpr ?_, rfl⟩
    rw [ha, Nat.add_mul_div_right _ _ (Nat.two_pow_pos _)]
  toBit_toAddr := rangeAddrToBit_indexToAddr

end Geometry

/-! ### Sets that are built -/

/-- Some unit of the range covers the address. -/
def Ip6Range.Has (r : Ip6Range) (x : BitVec 128) : Prop :=
  ∃ b < r.count, Covers (indexToAddr r b) x

/-- The ranges of the set have no address in common. -/
def DisjointRanges (set : PoolSet Ip6Range) : Prop :=
  ∀ ⦃k k' : ℕ⦄ ⦃r r' : Range Ip6Range⦄, set.ranges[k]? = some r → set.ranges[k']? = some r' →
    k ≠ k' → ∀ x, ¬ (r.geo.Has x ∧ r'.geo.Has x)

variable {set : PoolSet Ip6Range} {kind : Kind} {st : Ip6State}

lemma separate_of_disjoint (h : DisjointRanges set) : Separate geometry Overlap set := by
  rintro k b k' b' a a' ⟨r, hr, hb, rfl⟩ ⟨r', hr', hb', rfl⟩ ⟨x, hx, hx'⟩
  by_cases hk : k = k'
  · subst hk
    obtain rfl : r = r' := mem_unique hr hr'
    have hblock := (covers_indexToAddr hb).mp hx
    have hblock' := (covers_indexToAddr hb').mp hx'
    exact ⟨rfl, by omega⟩
  · exact (h hr hr' hk x ⟨⟨b, hb, hx⟩, ⟨b', hb', hx'⟩⟩).elim

/-- Every range belongs to a pool, the default pool being there from the start. -/
def Draft.Ok (d : Draft) : Prop :=
  0 < d.pools.length ∧ ∀ rp ∈ d.ranges, rp.2 < d.pools.length

lemma Draft.Ok.readLine {d : Draft} (h : d.Ok) (line : ConfLine) : (readLine kind d line).Ok := by
  obtain ⟨hpos, hranges⟩ := h
  cases line with
  | gwIp6Address addr | reloadOrphan disconnect => exact ⟨hpos, hranges⟩
  | range kind' text name next =>
    rw [Ipv6.readLine]
    split
    · exact ranges_lt_linkNext hpos hranges name next _
    · exact ⟨hpos, hranges⟩

lemma finalizeRange_ok (rp : Ip6Range × ℕ) : (finalizeRange rp).Ok geometry :=
  .fresh rp.1 rp.2

lemma buildPoolSet_ok {conf : Conf} (h : buildPoolSet kind conf = some set) :
    AllOk geometry set := by
  rw [buildPoolSet] at h
  split at h
  · nomatch h
  split at h
  · obtain rfl := some.inj h
    exact nofun
  · next lines hlines =>
    obtain rfl := some.inj h
    intro r hr
    obtain ⟨rp, hrp, rfl⟩ := mem_map.mp hr
    have hdraft : (lines.foldl (readLine kind) ⟨[⟨none, none⟩], [], 0, false⟩).Ok :=
      foldlRecOn lines (readLine kind) ⟨by decide, nofun⟩ fun _ h line _ ↦ h.readLine line
    exact ⟨finalizeRange_ok rp, hdraft.2 rp hrp⟩

/-! ### Leases -/

/-- The ranges of each kind are disjoint in every configuration of the run. -/
def DisjointConfs (evs : List Ip6Event) : Prop :=
  ∀ conf kind set, .reload conf ∈ evs → buildPoolSet kind conf = some set → DisjointRanges set

/-- A reload finds every live lease that a new range touches where the range would have leased it:
with the range's length, and in one of its places. -/
def KeepsPrefixes (st : Ip6State) : Ip6Event → Prop
  | .reload conf => ∀ kind set i a x, buildPoolSet kind conf = some set →
      leaseAt (st kind).sessions i = some (a, x) → Fits geometry Overlap set a
  | _ => True

/-- No two leases of one kind cover a common address. -/
def NoOverlap (st : Ip6State) : Prop :=
  ∀ {kind i j a a' x x'}, i ≠ j → leaseAt (st kind).sessions i = some (a, x) →
    leaseAt (st kind).sessions j = some (a', x') → ¬ Overlap a a'

/-- What an event is for one kind is admissible when it is for both. -/
lemma admissible_atKind {ev : Ip6Event} {e : PoolEvent Conf Prefix6}
    (he : ev.atKind kind = some e)
    (hdisj : ∀ conf set, ev = .reload conf → buildPoolSet kind conf = some set → DisjointRanges set)
    (hev : KeepsPrefixes st ev) : Admissible geometry Overlap (buildPoolSet kind) (st kind) e := by
  cases e with
  | reload conf =>
    -- Only a reload is a reload for a kind.
    have hreload : ev = .reload conf := by
      cases ev with
      | session poolName => nomatch he
      | reload conf' => cases he; rfl
      | _ =>
        rw [Ip6Event.atKind] at he
        split at he <;> nomatch he
    subst hreload
    intro set hset
    exact ⟨buildPoolSet_ok hset, separate_of_disjoint (hdisj conf set rfl hset),
      fun hl ↦ hev kind set _ _ _ hset hl⟩
  | _ => trivial

/-- The invariant for both kinds. -/
def Inv6 (st : Ip6State) : Prop := ∀ kind, Inv geometry Overlap (st kind)

lemma Inv6.step (h : Inv6 st) (ev : Ip6Event)
    (hdisj : ∀ conf kind set, ev = .reload conf → buildPoolSet kind conf = some set →
      DisjointRanges set) (hev : KeepsPrefixes st ev) : Inv6 (ip6Step st ev) := by
  intro kind
  rw [ip6Step]
  split
  · next e he =>
    exact (h kind).step lawful e (admissible_atKind he (fun conf set ↦ hdisj conf kind set) hev)
  · exact h kind

lemma Inv6.run {evs : List Ip6Event} (h : Inv6 st) (hdisj : DisjointConfs evs)
    (hevs : Along ip6Step KeepsPrefixes st evs) : Inv6 (run ip6Step st evs) := by
  induction evs generalizing st with
  | nil => exact h
  | cons ev evs ih =>
    obtain ⟨hev, hevs⟩ := along_cons.mp hevs
    refine ih (h.step ev (fun conf kind set heq ↦ ?_) hev)
      (fun conf kind set hmem ↦ hdisj conf kind set (mem_cons_of_mem _ hmem)) hevs
    exact hdisj conf kind set (heq ▸ mem_cons_self ..)

/-- **IPv6 leases do not overlap** in every run with disjoint ranges whose reloads find the live
leases in place. -/
theorem leases_disjoint (evs : List Ip6Event) (hdisj : DisjointConfs evs)
    (hevs : Along ip6Step KeepsPrefixes ip6Start evs) : NoOverlap (run ip6Step ip6Start evs) := by
  intro kind i j a a' x x' hij hl hl'
  have hinv : Inv6 (run ip6Step ip6Start evs) := Inv6.run (fun _ ↦ Inv.start) hdisj hevs
  exact (hinv kind).distinct hij hl hl'

lemma disjointRanges_of_length_le_one (h : set.ranges.length ≤ 1) : DisjointRanges set := by
  intro k k' r r' hr hr' hk
  obtain ⟨hlt, -⟩ := List.getElem?_eq_some_iff.mp hr
  obtain ⟨hlt', -⟩ := List.getElem?_eq_some_iff.mp hr'
  omega

/-- The network 2001:db8::/47, delegated in prefixes of the given length. -/
def delegates (len : ℤ) : Conf :=
  ⟨some [.range .delegated (.net 0x20010db8000000000000000000000000#128 47 len) none none], false⟩

/-- Two sessions ask for a prefix, and in between the configuration is read again. -/
def reloaded (len len' : ℤ) : List Ip6Event :=
  [.reload (delegates len), .session fun _ ↦ none, .session fun _ ↦ none, .get .delegated 0 false,
    .reload (delegates len'), .get .delegated 1 false]

/-- There is one range, so it is disjoint from the others. -/
lemma disjointRanges_delegates {len : ℤ} (h : buildPoolSet kind (delegates len) = some set) :
    DisjointRanges set := by
  obtain rfl := some.inj h
  refine disjointRanges_of_length_le_one ?_
  cases kind with
  | address => exact zero_le 1
  | delegated =>
    rw [length_map]
    exact length_toList_le

lemma disjointConfs_reloaded (len len' : ℤ) : DisjointConfs (reloaded len len') := by
  intro conf kind set hmem hset
  have hconf : conf = delegates len ∨ conf = delegates len' := by
    simpa [reloaded] using hmem
  rcases hconf with rfl | rfl
  · exact disjointRanges_delegates hset
  · exact disjointRanges_delegates hset

theorem leases_disjoint_sameLength :
    DisjointConfs (reloaded 48 48) ∧ Along ip6Step KeepsPrefixes ip6Start (reloaded 48 48) ∧
      NoOverlap (run ip6Step ip6Start (reloaded 48 48)) := by
  have hdisj := disjointConfs_reloaded 48 48
  have h : Along ip6Step KeepsPrefixes ip6Start (reloaded 48 48) := by
    refine ⟨?_, trivial, trivial, trivial, ?_, trivial, trivial⟩
    · intro kind set i a x _ hl
      nomatch hl
    intro kind set i a x hset hl
    have hsep := separate_of_disjoint (disjointRanges_delegates hset)
    obtain rfl := some.inj hset
    cases kind with
    | address => rcases i with _ | _ | i <;> nomatch hl
    | delegated =>
      rcases i with _ | _ | i
      · -- The one lease is the first unit of the range, before and after.
        obtain ⟨rfl, -⟩ := Prod.mk.inj (some.inj hl)
        exact hsep.fits (k := 0) (b := 0) ⟨_, rfl, by decide, rfl⟩
      · nomatch hl
      · nomatch hl
  exact ⟨hdisj, h, leases_disjoint _ hdisj h⟩

/-- The delegated length goes from 48 to 49. The lease on 2001:db8::/48 is given the bit of
2001:db8::/49, and the other half of it, 2001:db8:0:8000::/49, is free for the next session. -/
theorem leases_overlap_longer :
    DisjointConfs (reloaded 48 49) ∧ ¬ NoOverlap (run ip6Step ip6Start (reloaded 48 49)) := by
  refine ⟨disjointConfs_reloaded 48 49, fun h ↦ ?_⟩
  have hfirst : leaseAt (run ip6Step ip6Start (reloaded 48 49) .delegated).sessions 0 =
      some (⟨0x20010db8000000000000000000000000#128, 48⟩, some 0) := by decide
  have hsecond : leaseAt (run ip6Step ip6Start (reloaded 48 49) .delegated).sessions 1 =
      some (⟨0x20010db8000080000000000000000000#128, 49⟩, some 0) := by decide
  refine h (by decide) hfirst hsecond ⟨0x20010db8000080000000000000000000#128, ?_, ?_⟩
  · decide
  · decide

end AccelPpp.Pool.Ipv6
