import AccelPpp.Pool.Leases

/-!
# IPv4 pools (`extra/ippool.c`)

The instance of the pools for IPv4. Addresses are numbers in host order. A range is an interval of
addresses cut into blocks of `step` addresses, one bit for each block, and of a block the address at
`peer_offset` is leased. The allocator `p2p` leases every address, `net30` the third of every four.

`buildPoolSet` reads the section `ip-pool` line by line; what `sscanf` makes of a range is data here
(`RangeText`). At the end `finalizeRange` gives each range its bitmap, and in the point-to-point
ranges reserves the bit of the gateway. Nothing says whose that bit is, so a lease on the gateway's
address that a reload puts back on it (`gw-ip-address` has changed to an address that is in use)
releases the reservation when it is returned.
-/

namespace AccelPpp.Pool.Ipv4

open List Nat Option Transition BitPool

/-! ### Ranges -/

/-- The fixed part of `struct ip_range`, with what `add_range_to_pool` ensures. -/
structure IpRange where
  start : ℕ
  /-- `end`, the last address. -/
  stop : ℕ
  step : ℕ
  peerOffset : ℕ
  count : ℕ
  offset_lt : peerOffset < step
  blocks_le : start + count * step ≤ stop + 1
  stop_lt : stop < 2 ^ 32
  deriving DecidableEq

/-- `range_addr_to_bit` -/
def rangeAddrToBit (r : IpRange) (peer : ℕ) : Option ℕ :=
  if peer < r.peerOffset then none
  else
    let base := peer - r.peerOffset
    if base < r.start then none
    else
      let delta := base - r.start
      if delta % r.step ≠ 0 then none
      else
        let bit := delta / r.step
        if bit ≥ r.count then none else some bit

/-- The peer address that `get_ip` makes of a bit, in 32 bits. -/
def peerAddr (r : IpRange) (bit : ℕ) : ℕ :=
  (r.start + bit * r.step + r.peerOffset) % 2 ^ 32

/-- The IPv4 ranges as a geometry. -/
def geometry : Geometry IpRange ℕ where
  count := IpRange.count
  toAddr := peerAddr
  toBit := rangeAddrToBit

/-! ### Configuration -/

/-- What `sscanf` finds in a range. -/
inductive RangeText
  /-- `x.x.x.x/mask` -/
  | cidr (f1 f2 f3 f4 m : ℕ)
  /-- `x.x.x.x-y` -/
  | dash (f1 f2 f3 f4 f5 : ℕ)
  /-- Neither. -/
  | other
  deriving DecidableEq

/-- The four parts of an address. -/
def quad (f1 f2 f3 f4 : ℕ) : ℕ :=
  f1 * 2 ^ 24 + f2 * 2 ^ 16 + f3 * 2 ^ 8 + f4

/-- `parse1` and `parse2`, one after the other: the first and the last address. -/
def parseRange : RangeText → Option (ℕ × ℕ)
  | .cidr f1 f2 f3 f4 m =>
    if f1 > 255 ∨ f2 > 255 ∨ f3 > 255 ∨ f4 > 255 then none
    else if m = 0 ∨ m > 32 then none
    else
      let start := quad f1 f2 f3 f4
      some (start, start ||| (2 ^ (32 - m) - 1))
  | .dash f1 f2 f3 f4 f5 =>
    if f1 > 255 ∨ f2 > 255 ∨ f3 > 255 ∨ f4 > 255 then none
    else if f5 < f4 ∨ f5 > 255 then none
    else some (quad f1 f2 f3 f4, quad f1 f2 f3 f5)
  | .other => none

lemma quad_lt {f1 f2 f3 f4 : ℕ} (h : ¬ (f1 > 255 ∨ f2 > 255 ∨ f3 > 255 ∨ f4 > 255)) :
    quad f1 f2 f3 f4 < 2 ^ 32 := by
  rw [quad]
  omega

/-- The address is in the range as it is written: it has the first `m` bits of the address before
the slash, or is one of those from the first to the last. -/
def RangeText.Has : RangeText → ℕ → Prop
  | .cidr f1 f2 f3 f4 m, a => a / 2 ^ (32 - m) = quad f1 f2 f3 f4 / 2 ^ (32 - m)
  | .dash f1 f2 f3 f4 f5, a => quad f1 f2 f3 f4 ≤ a ∧ a ≤ quad f1 f2 f3 f5
  | .other, _ => False

/-- What is parsed has 32 bits and lies in the range as it is written. -/
lemma parseRange_spec {text : RangeText} {start stop : ℕ}
    (h : parseRange text = some (start, stop)) :
    stop < 2 ^ 32 ∧ ∀ a, start ≤ a → a ≤ stop → text.Has a := by
  cases text with
  | cidr f1 f2 f3 f4 m =>
    rw [parseRange] at h
    split at h
    · nomatch h
    next hf =>
    split at h
    · nomatch h
    obtain ⟨rfl, rfl⟩ := Prod.mk.inj (Option.some.inj h)
    have hm : 2 ^ (32 - m) ≤ 2 ^ 32 := Nat.pow_le_pow_right (by decide) (by omega)
    refine ⟨Nat.or_lt_two_pow (quad_lt hf) (by omega), fun a hstart hstop ↦ ?_⟩
    -- the host bits do not reach the network's part
    have hhost : (quad f1 f2 f3 f4 ||| (2 ^ (32 - m) - 1)) / 2 ^ (32 - m) =
        quad f1 f2 f3 f4 / 2 ^ (32 - m) := by
      have hlow : (2 ^ (32 - m) - 1) / 2 ^ (32 - m) = 0 :=
        Nat.div_eq_of_lt (Nat.sub_one_lt (Nat.two_pow_pos _).ne')
      rw [Nat.or_div_two_pow, hlow, Nat.or_zero]
    exact le_antisymm (hhost ▸ Nat.div_le_div_right hstop) (Nat.div_le_div_right hstart)
  | dash f1 f2 f3 f4 f5 =>
    rw [parseRange] at h
    split at h
    · nomatch h
    split at h
    · nomatch h
    obtain ⟨rfl, rfl⟩ := Prod.mk.inj (Option.some.inj h)
    exact ⟨quad_lt (by omega), fun _ ↦ And.intro⟩
  | other => nomatch h

/-- The option `allocator=`. -/
inductive Allocator
  | p2p
  | net30
  deriving DecidableEq

def Allocator.step : Allocator → ℕ
  | .p2p => 1
  | .net30 => 4

def Allocator.peerOffset : Allocator → ℕ
  | .p2p => 0
  | .net30 => 2

lemma Allocator.peerOffset_lt (al : Allocator) : al.peerOffset < al.step := by
  cases al <;> decide

/-- A line of the section. -/
inductive ConfLine
  /-- `gw-ip-address`; `none` when the text is no address that is looked at. -/
  | gwIpAddress (addr : Option ℕ)
  | shuffle (on : Bool)
  | reloadOrphan (disconnect : Bool)
  /-- A range with its options; `none` for an allocator that does not exist. -/
  | range (text : RangeText) (name : Option String) (allocator : Option Allocator)
      (next : Option String)
  deriving DecidableEq

/-- The section `ip-pool`, if there is one, and whether there is memory for the set. -/
structure Conf where
  lines : Option (List ConfLine)
  noMem : Bool
  deriving DecidableEq

/-- `IPPOOL_MAX_BITS` -/
def maxBits : ℕ := 2 ^ 24

/-- Whole blocks only: what is left over at the end of the range is dropped. -/
lemma blocks_le {start stop step : ℕ} (h : start ≤ stop) :
    start + (stop - start + 1) / step * step ≤ stop + 1 := by
  have hdiv := div_mul_le_self (stop - start + 1) step
  calc start + (stop - start + 1) / step * step
      ≤ start + (stop - start + 1) := Nat.add_le_add_left hdiv start
    _ = stop + 1 := by omega

/-- `add_range_to_pool`: the range, unless it is refused. -/
def addRange (text : RangeText) (al : Allocator) : Option IpRange :=
  match hparse : parseRange text with
  | none => none
  | some (start, stop) =>
    if hlt : stop < start then none
    else if (stop - start + 1) / al.step = 0 then none
    else if (stop - start + 1) / al.step > maxBits then none
    else some
      { start, stop, step := al.step, peerOffset := al.peerOffset
        count := (stop - start + 1) / al.step
        offset_lt := al.peerOffset_lt
        blocks_le := blocks_le (Nat.le_of_not_lt hlt)
        stop_lt := (parseRange_spec hparse).1 }

/-- The set as far as it has been read: its ranges have no bitmaps yet. -/
structure Draft where
  pools : List IpPool
  ranges : List (IpRange × ℕ)
  gw : ℕ
  shuffle : Bool
  disconnect : Bool
  deriving DecidableEq

/-- One line. The pool is found or created before the allocator is looked at, so a line with an
unknown allocator leaves its pool behind. -/
def readLine (d : Draft) : ConfLine → Draft
  | .gwIpAddress addr => { d with gw := addr.getD d.gw }
  | .shuffle on => { d with shuffle := on }
  | .reloadOrphan disconnect => { d with disconnect }
  | .range text name allocator next =>
    let (pools, p) := linePool d.pools name
    match allocator with
    | none => { d with pools }
    | some al =>
      { d with
        pools := linkNext pools p next
        ranges := d.ranges ++ ((addRange text al).map fun r ↦ (r, p)).toList }

/-- Is the range one of single addresses? -/
def IpRange.isP2p (r : IpRange) : Bool := r.step = 1 ∧ r.peerOffset = 0

/-- `finalize_ranges` for one range. -/
def finalizeRange (gw : ℕ) (rp : IpRange × ℕ) : Range IpRange :=
  let r : Range IpRange := ⟨rp.1, rp.2, 0, 0, make 64 rp.1.count⟩
  if rp.1.isP2p ∧ gw ≠ 0 ∧ rp.1.start ≤ gw ∧ gw ≤ rp.1.stop ∧ gw - rp.1.start < rp.1.count ∧
      test r.bitmap (gw - rp.1.start) = false then
    { r with bitmap := set r.bitmap (gw - rp.1.start), used := r.used + 1 }
  else r

/-- `build_pool_set` -/
def buildPoolSet (conf : Conf) : Option (PoolSet IpRange) :=
  if conf.noMem then none
  else
    match conf.lines with
    | none => some ⟨[], [], 0, false, false⟩
    | some lines =>
      let d := lines.foldl readLine ⟨[⟨none, none⟩], [], 0, false, false⟩
      some ⟨d.pools, d.ranges.map (finalizeRange d.gw), d.gw, d.shuffle, d.disconnect⟩

/-- One event of the IPv4 pools. -/
def ippoolStep : PoolState IpRange ℕ → PoolEvent Conf ℕ → PoolState IpRange ℕ :=
  poolStep geometry buildPoolSet

/-! ### The geometry -/

section Geometry

variable {r : IpRange} {a b : ℕ}

lemma IpRange.step_pos (r : IpRange) : 0 < r.step :=
  lt_of_le_of_lt (zero_le _) r.offset_lt

/-- A block lies in its range. -/
lemma block_le (hb : b < r.count) : r.start + b * r.step + r.peerOffset ≤ r.stop := by
  have hblock : (b + 1) * r.step ≤ r.count * r.step := mul_le_mul_right _ hb
  have hsucc : (b + 1) * r.step = b * r.step + r.step := succ_mul b r.step
  have := r.blocks_le
  have := r.offset_lt
  omega

lemma peerAddr_eq (hb : b < r.count) : peerAddr r b = r.start + b * r.step + r.peerOffset :=
  mod_eq_of_lt (lt_of_le_of_lt (block_le hb) r.stop_lt)

lemma rangeAddrToBit_eq_some (h : rangeAddrToBit r a = some b) :
    b < r.count ∧ a = r.start + b * r.step + r.peerOffset := by
  rw [rangeAddrToBit] at h
  dsimp only at h
  split at h
  · nomatch h
  next hoff =>
  split at h
  · nomatch h
  next hstart =>
  split at h
  · nomatch h
  next hmod =>
  split at h
  · nomatch h
  next hcount =>
  have hb := some.inj h
  have hdvd : r.step ∣ a - r.peerOffset - r.start :=
    dvd_of_mod_eq_zero (not_not.mp hmod)
  have hmul := Nat.div_mul_cancel hdvd
  rw [hb] at hmul hcount
  omega

lemma rangeAddrToBit_peerAddr (hb : b < r.count) : rangeAddrToBit r (peerAddr r b) = some b := by
  have hbase : r.start + b * r.step + r.peerOffset - r.peerOffset = r.start + b * r.step :=
    Nat.add_sub_cancel _ _
  have hdelta : r.start + b * r.step - r.start = b * r.step := Nat.add_sub_cancel_left _ _
  rw [peerAddr_eq hb, rangeAddrToBit, if_neg (by omega)]
  simp only [hbase, hdelta]
  rw [if_neg (by omega), if_neg (by simp), Nat.mul_div_cancel b r.step_pos, if_neg (by omega)]

lemma lawful : Lawful geometry (· = ·) where
  refl _ := rfl
  symm := Eq.symm
  toBit_lt h := (rangeAddrToBit_eq_some h).1
  toBit_conflict h := by
    obtain ⟨hb, ha⟩ := rangeAddrToBit_eq_some h
    exact (peerAddr_eq hb).trans ha.symm
  toBit_toAddr := rangeAddrToBit_peerAddr

end Geometry

/-! ### Indexing -/

/-- The addresses of a unit. -/
def IpRange.Block (r : IpRange) (b a : ℕ) : Prop :=
  r.start + b * r.step ≤ a ∧ a < r.start + (b + 1) * r.step

variable {text : RangeText}

lemma parseRange_of_addRange {al : Allocator} {r : IpRange}
    (h : addRange text al = some r) : parseRange text = some (r.start, r.stop) := by
  rw [addRange] at h
  split at h
  · nomatch h
  next start stop hparse =>
  split at h
  · nomatch h
  split at h
  · nomatch h
  · split at h
    · nomatch h
    · obtain rfl := some.inj h
      exact hparse

/-- **The units of a range** that is accepted: their blocks lie in the range and are disjoint, each
has the address that is leased, and `range_addr_to_bit` is the inverse of the leasing, with no index
for any other address. -/
theorem ranges_indexed (text : RangeText) (al : Allocator) (r : IpRange)
    (h : addRange text al = some r) :
    (∀ b < r.count, r.Block b (peerAddr r b) ∧ ∀ a, r.Block b a → text.Has a) ∧
      (∀ b b' a, r.Block b a → r.Block b' a → b = b') ∧
      ∀ a b, rangeAddrToBit r a = some b ↔ b < r.count ∧ a = peerAddr r b := by
  refine ⟨fun b hb ↦ ⟨?_, fun a ha ↦ ?_⟩, fun b b' a ha ha' ↦ ?_, fun a b ↦ ?_⟩
  · have hoffset := r.offset_lt
    rw [peerAddr_eq hb, IpRange.Block, succ_mul]
    omega
  · have hblock : (b + 1) * r.step ≤ r.count * r.step := mul_le_mul_right _ hb
    have hle := r.blocks_le
    obtain ⟨hge, hlt⟩ := ha
    exact (parseRange_spec (parseRange_of_addRange h)).2 a (by omega) (by omega)
  · have hlt : ∀ {b b'}, r.Block b a → r.Block b' a → b ≤ b' := fun {b b'} h h' ↦
      Nat.le_of_lt_succ (Nat.lt_of_mul_lt_mul_right
        (Nat.lt_of_add_lt_add_left (h.1.trans_lt h'.2)))
    exact le_antisymm (hlt ha ha') (hlt ha' ha)
  · refine ⟨fun hbit ↦ ?_, fun ⟨hb, ha⟩ ↦ ha ▸ rangeAddrToBit_peerAddr hb⟩
    obtain ⟨hb, ha⟩ := rangeAddrToBit_eq_some hbit
    exact ⟨hb, ha.trans (peerAddr_eq hb).symm⟩

/-- The last blocks of four there are, of 255.255.255.245/28. -/
def lastBlocks : IpRange :=
  ⟨0xfffffff5, 0xffffffff, 4, 2, 2, by decide, by decide, by decide⟩

theorem ranges_indexed_last :
    addRange (.cidr 255 255 255 245 28) .net30 = some lastBlocks ∧
      ∀ a b, rangeAddrToBit lastBlocks a = some b ↔ b < 2 ∧ a = peerAddr lastBlocks b := by
  have h : addRange (.cidr 255 255 255 245 28) .net30 = some lastBlocks := by decide
  exact ⟨h, (ranges_indexed _ _ _ h).2.2⟩

/-! ### Sets that are built -/

/-- The ranges of the set have no address in common. -/
def DisjointRanges (set : PoolSet IpRange) : Prop :=
  ∀ ⦃k k' : ℕ⦄ ⦃r r' : Range IpRange⦄, set.ranges[k]? = some r → set.ranges[k']? = some r' →
    k ≠ k' →
    r.geo.stop < r'.geo.start ∨ r'.geo.stop < r.geo.start

variable {set : PoolSet IpRange}

lemma separate_of_disjoint (h : DisjointRanges set) : Separate geometry (· = ·) set := by
  rintro k b k' b' a a' ⟨r, hr, hb, rfl⟩ ⟨r', hr', hb', rfl⟩ heq
  have heq : r.geo.start + b * r.geo.step + r.geo.peerOffset =
      r'.geo.start + b' * r'.geo.step + r'.geo.peerOffset :=
    (peerAddr_eq hb).symm.trans (heq.trans (peerAddr_eq hb'))
  have hin := block_le hb
  have hin' := block_le hb'
  by_cases hk : k = k'
  · subst hk
    obtain rfl : r = r' := mem_unique hr hr'
    exact ⟨rfl, eq_of_mul_eq_mul_right r.geo.step_pos (by omega)⟩
  · rcases h hr hr' hk with hlt | hlt <;> omega

variable (gw : ℕ) (rp : IpRange × ℕ)

lemma finalizeRange_geo : (finalizeRange gw rp).geo = rp.1 := by
  rw [finalizeRange]
  split <;> rfl

lemma finalizeRange_pool : (finalizeRange gw rp).pool = rp.2 := by
  rw [finalizeRange]
  split <;> rfl

lemma finalizeRange_ok : (finalizeRange gw rp).Ok geometry := by
  have hfresh := Range.Ok.fresh (G := geometry) rp.1 rp.2
  rw [finalizeRange]
  split
  · next hgw =>
    -- The gateway's bit is taken as for a lease, but for the cursor.
    have htake := hfresh.takeBit hgw.2.2.2.2.1 hgw.2.2.2.2.2
    exact { htake with }
  · exact hfresh

/-- Every range belongs to a pool, the default pool being there from the start. -/
def Draft.Ok (d : Draft) : Prop :=
  0 < d.pools.length ∧ ∀ rp ∈ d.ranges, rp.2 < d.pools.length

lemma Draft.Ok.readLine {d : Draft} (h : d.Ok) (line : ConfLine) : (readLine d line).Ok := by
  obtain ⟨hpos, hranges⟩ := h
  cases line with
  | gwIpAddress addr | shuffle on | reloadOrphan disconnect => exact ⟨hpos, hranges⟩
  | range text name allocator next =>
    obtain ⟨hle, hp⟩ := linePool_lt hpos name
    cases allocator with
    | none => exact ⟨lt_of_lt_of_le hpos hle, fun rp hrp ↦ lt_of_lt_of_le (hranges rp hrp) hle⟩
    | some al => exact ranges_lt_linkNext hpos hranges name next _

lemma buildPoolSet_ok {conf : Conf} (h : buildPoolSet conf = some set) : AllOk geometry set := by
  rw [buildPoolSet] at h
  split at h
  · nomatch h
  split at h
  · obtain rfl := some.inj h
    exact nofun
  · next lines hlines =>
    obtain rfl := some.inj h
    intro r hr
    obtain ⟨rp, hrp, rfl⟩ := mem_map.mp hr
    have hdraft : (lines.foldl readLine ⟨[⟨none, none⟩], [], 0, false, false⟩).Ok :=
      foldlRecOn lines readLine ⟨by decide, nofun⟩ fun _ h line _ ↦ h.readLine line
    refine ⟨finalizeRange_ok _ rp, ?_⟩
    rw [finalizeRange_pool]
    exact hdraft.2 rp hrp

/-! ### Leases -/

/-- The configurations of a run have disjoint ranges. -/
def DisjointConfs (evs : List (PoolEvent Conf ℕ)) : Prop :=
  ∀ conf set, .reload conf ∈ evs → buildPoolSet conf = some set → DisjointRanges set

lemma along_of_disjoint {evs : List (PoolEvent Conf ℕ)} (h : DisjointConfs evs)
    (st : PoolState IpRange ℕ) :
    Along ippoolStep (Admissible geometry (· = ·) buildPoolSet) st evs := by
  induction evs generalizing st with
  | nil => exact along_nil
  | cons ev evs ih =>
    refine along_cons.mpr ⟨?_, ih (fun conf set hmem ↦ h conf set (mem_cons_of_mem _ hmem)) _⟩
    cases ev with
    | reload conf =>
      intro set hset
      exact ⟨buildPoolSet_ok hset,
        separate_of_disjoint (h conf set (mem_cons_self ..) hset), fun _ _ _ _ _ heq ↦ heq⟩
    | _ => trivial

/-- Uniqueness of the leases: no two sessions have the same address, a lease with a range has its
bit set there and no other lease has that bit, and the counters count the bits. -/
structure LeasesUnique (st : PoolState IpRange ℕ) : Prop where
  addrs : ∀ {i j a a' x x'}, i ≠ j → leaseAt st.sessions i = some (a, x) →
    leaseAt st.sessions j = some (a', x') → a ≠ a'
  bits : ∀ {i a k}, leaseAt st.sessions i = some (a, some k) →
    ∃ set r b, st.cur = some set ∧ set.ranges[k]? = some r ∧ rangeAddrToBit r.geo a = some b ∧
      test r.bitmap b = true ∧
      ∀ {j a'}, i ≠ j → leaseAt st.sessions j = some (a', some k) →
        rangeAddrToBit r.geo a' ≠ some b
  used : ∀ {set r}, st.cur = some set → r ∈ set.ranges →
    r.used = usedIn r.bitmap r.geo.count

lemma leasesUnique_of_inv {st : PoolState IpRange ℕ} (h : Inv geometry (· = ·) st) :
    LeasesUnique st where
  addrs hij hl hl' := h.distinct hij hl hl'
  bits := by
    intro i a k hl
    obtain ⟨set, b, hcur, hu⟩ := h.attached hl
    obtain ⟨r, hr, ht⟩ := h.covered hcur hl hu rfl
    obtain ⟨r', hr', hb, ha⟩ := hu
    obtain rfl : r = r' := mem_unique hr hr'
    have hbit : rangeAddrToBit r.geo a = some b := ha ▸ rangeAddrToBit_peerAddr hb
    refine ⟨set, r, b, hcur, hr, hbit, ht, fun hij hl' hbit' ↦ h.distinct hij hl hl' ?_⟩
    -- Two addresses on one bit are one address.
    exact (rangeAddrToBit_eq_some hbit).2.trans (rangeAddrToBit_eq_some hbit').2.symm
  used hcur hr := (h.ok _ hcur _ hr).1.used

/-- **IPv4 leases are unique** after every run of requests, releases and reloads whose
configurations have disjoint ranges each. -/
theorem leases_unique (evs : List (PoolEvent Conf ℕ)) (h : DisjointConfs evs) :
    LeasesUnique (run ippoolStep poolStart evs) :=
  leasesUnique_of_inv (Inv.run lawful (along_of_disjoint h poolStart))

/-- Ranges in order are disjoint. -/
lemma disjointRanges_of_pairwise (h : set.ranges.Pairwise fun r r' ↦ r.geo.stop < r'.geo.start) :
    DisjointRanges set := by
  intro k k' r r' hr hr' hk
  obtain ⟨hlt, rfl⟩ := List.getElem?_eq_some_iff.mp hr
  obtain ⟨hlt', rfl⟩ := List.getElem?_eq_some_iff.mp hr'
  rcases lt_or_gt_of_ne hk with hk | hk
  · exact .inl (List.pairwise_iff_getElem.mp h k k' hlt hlt' hk)
  · exact .inr (List.pairwise_iff_getElem.mp h k' k hlt' hlt hk)

/-- The addresses 10.0.0.1 and 10.0.0.2, and the network 10.0.1.0/30 as one block of four. -/
def twoRanges : Conf :=
  ⟨some [.range (.dash 10 0 0 1 2) none (some .p2p) none,
    .range (.cidr 10 0 1 0 30) none (some .net30) none], false⟩

/-- Two sessions; the first asks twice. -/
def asksTwice : List (PoolEvent Conf ℕ) :=
  [.reload twoRanges, .session none, .session none, .get 0 0 false, .get 0 0 false,
    .reload twoRanges, .get 1 0 false]

theorem leases_unique_asksTwice :
    DisjointConfs asksTwice ∧ LeasesUnique (run ippoolStep poolStart asksTwice) := by
  have h : DisjointConfs asksTwice := by
    intro conf set hmem hset
    obtain rfl : conf = twoRanges := by simpa [asksTwice] using hmem
    refine disjointRanges_of_pairwise ?_
    obtain rfl := some.inj hset
    decide
  exact ⟨h, leases_unique asksTwice h⟩

/-- **No free unit is in use**: in every such run, each unit with the address of a live lease is
taken, also if a reload has orphaned the lease. -/
theorem leases_covered (evs : List (PoolEvent Conf ℕ)) (h : DisjointConfs evs) :
    Inv geometry (· = ·) (run ippoolStep poolStart evs) :=
  Inv.run lawful (along_of_disjoint h poolStart)

theorem leases_covered_asksTwice : Inv geometry (· = ·) (run ippoolStep poolStart asksTwice) := by
  refine leases_covered _ fun conf set hmem hset ↦ disjointRanges_of_pairwise ?_
  obtain rfl : conf = twoRanges := by simpa [asksTwice] using hmem
  obtain rfl := some.inj hset
  decide

/-! ### The gateway -/

/-- In the point-to-point ranges the gateway's bit is set. -/
def GwReserved (set : PoolSet IpRange) : Prop :=
  set.gw ≠ 0 → ∀ {k b : ℕ} {r : Range IpRange}, set.ranges[k]? = some r → r.geo.isP2p = true →
    IsUnit geometry set k b set.gw → Taken set k b

/-- What is kept along a run: the ranges are in order, and the gateway is reserved. -/
def GwInv (st : PoolState IpRange ℕ) : Prop :=
  ∀ set, st.cur = some set → AllOk geometry set ∧ GwReserved set

/-- Whatever session asks next, no point-to-point range gives it the gateway's address. -/
def GwNeverLeased (st : PoolState IpRange ℕ) : Prop :=
  ∀ set, st.cur = some set → set.gw ≠ 0 → ∀ (s : Session ℕ) (rnd : ℕ) (noMem : Bool) (a k : ℕ)
    (r : Range IpRange), (getIp geometry set s rnd noMem).2 = some (.lease a (some k)) →
      set.ranges[k]? = some r → r.geo.isP2p = true → a ≠ set.gw

/-- The step does not return a lease on the gateway's address to a point-to-point range. -/
def KeepsGw (st : PoolState IpRange ℕ) : PoolEvent Conf ℕ → Prop
  | .put i => ∀ set a k (r : Range IpRange), st.cur = some set →
      leaseAt st.sessions i = some (a, some k) → set.ranges[k]? = some r →
      r.geo.isP2p = true → set.gw ≠ 0 → a ≠ set.gw
  | _ => True

/-- More bits do not hurt, and fewer do not if the gateway's stays. -/
lemma GwReserved.of_taken {set' : PoolSet IpRange} (h : GwReserved set)
    (hshape : SameShape set set')
    (htaken : ∀ {k b : ℕ} {r : Range IpRange}, set.ranges[k]? = some r → r.geo.isP2p = true →
      set.gw ≠ 0 → IsUnit geometry set k b set.gw → Taken set k b → Taken set' k b) :
    GwReserved set' := by
  intro hgw k b r hr hp hu
  obtain ⟨r₀, hr₀, hgeo, -⟩ := hshape.symm.getElem? hr
  rw [hshape.gw] at hgw hu
  have hu₀ := hshape.symm.isUnit hu
  have hp₀ : r₀.geo.isP2p = true := hgeo ▸ hp
  exact htaken hr₀ hp₀ hgw hu₀ (h hgw hr₀ hp₀ hu₀)

lemma finalizeRange_reserves {gw b : ℕ} {rp : IpRange × ℕ} (hgw : gw ≠ 0)
    (hp : rp.1.isP2p = true) (hb : b < rp.1.count) (ha : peerAddr rp.1 b = gw) :
    test (finalizeRange gw rp).bitmap b = true := by
  have hp' : rp.1.step = 1 ∧ rp.1.peerOffset = 0 := by simpa [IpRange.isP2p] using hp
  have hin := block_le hb
  rw [peerAddr_eq hb] at ha
  rw [hp'.1] at ha hin
  have hbit : gw - rp.1.start = b := by omega
  have hsize : rp.1.count ≤ (make 64 rp.1.count).length * 64 :=
    (Range.Ok.fresh (G := geometry) rp.1 rp.2).size
  rw [finalizeRange, if_pos]
  · show test (set (make 64 rp.1.count) (gw - rp.1.start)) b = true
    rw [hbit, test_set (by decide) (lt_of_lt_of_le hb hsize)]
    simp
  · refine ⟨hp, hgw, by omega, by omega, by omega, ?_⟩
    rw [hbit]
    exact test_make (by decide) hb

lemma buildPoolSet_gwReserved {conf : Conf} (h : buildPoolSet conf = some set) :
    GwReserved set := by
  rw [buildPoolSet] at h
  split at h
  · nomatch h
  split at h
  · obtain rfl := some.inj h
    exact fun hgw ↦ (hgw rfl).elim
  · next lines hlines =>
    obtain rfl := some.inj h
    intro hgw k b r hr hp hu
    obtain ⟨r', hr', hb, ha⟩ := hu
    obtain rfl : r = r' := mem_unique hr hr'
    refine ⟨r, hr, ?_⟩
    obtain ⟨rp, -, rfl⟩ := mem_map.mp (mem_of_getElem? hr)
    rw [finalizeRange_geo] at hp hb ha
    exact finalizeRange_reserves hgw hp hb ha

section Gateway

variable {st : PoolState IpRange ℕ}

lemma GwInv.get (h : GwInv st) (i rnd : ℕ) (noMem : Bool) :
    GwInv (getStep geometry st i rnd noMem) := by
  rw [getStep]
  split
  · exact h
  next s hs =>
  split
  · next hcur =>
    intro set hset
    exact h set hset
  next set hcur =>
  obtain ⟨hok, hres⟩ := h set hcur
  rw [getIp]
  cases hc : choose geometry set s rnd with
  | none =>
    intro set' hset'
    obtain rfl := some.inj hset'
    exact ⟨hok, hres⟩
  | some kb =>
    obtain ⟨k, b⟩ := kb
    obtain ⟨hfree, ⟨a, hu, -⟩, hg, ht⟩ := choose_takes hok hc
    cases noMem with
    | false =>
      intro set' hset'
      obtain rfl := some.inj hset'
      exact ⟨hg.ok, hres.of_taken hg.shape fun _ _ _ _ ht ↦ hg.taken ht⟩
    | true =>
      obtain ⟨hok', hkeep⟩ := giveBack_keeps (fun _ _ ↦ rfl) hg.ok (hg.shape.isUnit hu) ht
      intro set' hset'
      obtain rfl := some.inj hset'
      have hshape := hg.shape.trans (sameShape_modifyRange (k := k) (f := giveBack b)
        (fun _ ↦ rfl) fun _ ↦ rfl)
      refine ⟨hok', hres.of_taken hshape fun {k' b' r} _ _ _ _ ht' ↦ hkeep ?_ (hg.taken ht')⟩
      -- The unit given back was free, so it was not the gateway's.
      rintro ⟨rfl, rfl⟩
      exact hfree ht'

lemma GwInv.put (h : GwInv st) {i : ℕ} (hput : KeepsGw st (.put i)) :
    GwInv (putStep geometry st i) := by
  rw [putStep]
  split
  · next a range hl =>
    intro set' hset'
    cases range with
    | none => exact h set' hset'
    | some k =>
      obtain ⟨set, hcur, rfl⟩ := map_eq_some_iff.mp hset'
      obtain ⟨hok, hres⟩ := h set hcur
      rw [releaseLease]
      split
      · next b hbit =>
        obtain ⟨r, hr, hbit⟩ := bind_eq_some_iff.mp hbit
        obtain ⟨hb, ha⟩ := rangeAddrToBit_eq_some hbit
        have hrok := (hok r (mem_of_getElem? hr)).1
        refine ⟨hok.modifyRange hr pool_releaseBit (hrok.releaseBit hb),
          hres.of_taken (sameShape_modifyRange (fun _ ↦ geo_releaseBit) fun _ ↦ pool_releaseBit) ?_⟩
        · intro k' b' r₁ hr₁ hp hgw hu ht
          refine ht.modifyRange hr fun hk ht' ↦ ?_
          subst hk
          obtain rfl : r = r₁ := mem_unique hr hr₁
          obtain ⟨r₂, hr₂, hb₂, ha₂⟩ := hu
          obtain rfl : r = r₂ := mem_unique hr hr₂
          -- The bit released is that of the lease's address, which is not the gateway's.
          have hne : b' ≠ b := by
            rintro rfl
            refine hput set a k r hcur hl hr hp hgw ?_
            exact ha.trans ((peerAddr_eq hb).symm.trans ha₂)
          rw [releaseBit]
          split
          · show test (clear r.bitmap b) b' = true
            rw [test_clear (by decide) (hrok.lt hb), ht']
            simpa using hne
          · exact ht'
      · exact ⟨hok, hres⟩
  · exact h

lemma GwInv.step (h : GwInv st) (ev : PoolEvent Conf ℕ) (hev : KeepsGw st ev) :
    GwInv (ippoolStep st ev) := by
  cases ev with
  | session poolName => exact h
  | rename i poolName => exact h
  | get i rnd noMem => exact h.get i rnd noMem
  | put i => exact h.put hev
  | foreign i addrs => exact h
  | reload conf =>
    show GwInv (loadConfig geometry st (buildPoolSet conf))
    cases hb : buildPoolSet conf with
    | none => exact h
    | some set =>
      obtain ⟨hg, -⟩ := reconcileAll_spec lawful (buildPoolSet_ok hb) 0 st.sessions
      intro set' hset'
      obtain rfl := some.inj hset'
      exact ⟨hg.ok, (buildPoolSet_gwReserved hb).of_taken hg.shape fun _ _ _ _ ht ↦ hg.taken ht⟩

lemma gwNeverLeased_of_inv (h : GwInv st) : GwNeverLeased st := by
  intro set hcur hgw s rnd noMem a k r hget hr hp hagw
  obtain ⟨hok, hres⟩ := h set hcur
  unfold getIp at hget
  cases hc : choose geometry set s rnd with
  | none => rw [hc] at hget; nomatch hget
  | some kb =>
    obtain ⟨hfree, ⟨a', hu, hua⟩, -, -⟩ := choose_takes hok hc
    rw [hc] at hget
    cases noMem with
    | true => nomatch hget
    | false =>
      simp only [Bool.false_eq_true, if_false, hua, map_some, some.injEq, Item.lease.injEq] at hget
      obtain ⟨rfl, rfl⟩ := hget
      exact hfree (hres hgw hr hp (hagw ▸ hu))

end Gateway

/-- **The gateway is never leased** from a point-to-point range, in every run that never returns a
lease on it to one. -/
theorem gw_never_leased (evs : List (PoolEvent Conf ℕ))
    (h : Along ippoolStep KeepsGw poolStart evs) : GwNeverLeased (run ippoolStep poolStart evs) :=
  gwNeverLeased_of_inv (h.inv (fun _ ev hinv hev ↦ hinv.step ev hev) nofun)

/-- The addresses 10.0.0.1 and 10.0.0.2, with or without a gateway. -/
def twoAddrs (gw : Option ℕ) : Conf :=
  ⟨some [.gwIpAddress gw, .range (.dash 10 0 0 1 2) none (some .p2p) none], false⟩

/-- A gateway from the start, and a lease that comes and goes. -/
def gwFromStart : List (PoolEvent Conf ℕ) :=
  [.reload (twoAddrs (some 0x0a000001)), .session none, .get 0 0 false, .put 0]

theorem gw_never_leased_gwFromStart :
    Along ippoolStep KeepsGw poolStart gwFromStart ∧
      GwNeverLeased (run ippoolStep poolStart gwFromStart) := by
  have h : Along ippoolStep KeepsGw poolStart gwFromStart := by
    refine ⟨trivial, trivial, trivial, ?_, trivial⟩
    intro set a k r hcur hl _ _ _
    obtain rfl := some.inj hcur
    obtain ⟨rfl, -⟩ := Prod.mk.inj (some.inj hl)
    decide
  exact ⟨h, gw_never_leased gwFromStart h⟩

/-- The first session leases 10.0.0.1, which then becomes the gateway, and returns it. -/
def gwInUse : List (PoolEvent Conf ℕ) :=
  [.reload (twoAddrs none), .session none, .get 0 0 false,
    .reload (twoAddrs (some 0x0a000001)), .put 0]

/-- The reservation goes with the lease: the next session is given the gateway's address. -/
theorem gw_leased_after_put : ¬ GwNeverLeased (run ippoolStep poolStart gwInUse) := by
  intro h
  refine h _ rfl (by decide) ⟨none, none⟩ 0 false 0x0a000001 0 _ (by decide) rfl (by decide) ?_
  decide

end AccelPpp.Pool.Ipv4
