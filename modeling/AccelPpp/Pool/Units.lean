import AccelPpp.Lib.BitPool
import AccelPpp.Lib.Run

/-!
# Address pools (`extra/ippool.c`, `extra/ipv6pool.c`)

The IPv4 and the IPv6 pools are one program over two kinds of ranges. A set of pools is built from
the configuration; each pool has ranges, and each range has a bitmap with one bit for each unit it
can hand out. A session that asks for an address gets a *lease*: the address, and a pointer to the
range it came from. A reload builds a new set with new bitmaps, walks the sessions, and finds each
lease its place in the new set or leaves it without one. What the two files do not share is how a
range counts and places its units (`Geometry`).

* The pools of a set are one list, the default pool first (its name is `none`), and the list is
  empty when the configuration has no section for the pools.
* The ranges of a set are one list too, each with the number of its pool; a pointer to a range is
  its position.
* A session has what the one pointer `ses->ipv4` (or `ses->ipv6`, `ses->ipv6_dp`) points to. The
  callers assign to it what they are given, so a session that asks again loses what it had: such a
  lease is never returned, and its bit stays set until the next reload.
* A lease is live while a session of `ses_list` has it: these are the leases that a reload walks.
* The events are atomic. That a reload does not run beside a handler is an assumption here, which
  the scheduler does not quite guarantee; the handlers that ask for an address and assign it, or
  take a session off `ses_list` and return its lease, do not give up their thread in between.
-/

namespace AccelPpp.Pool

/-- How a range of kind `γ` counts and places its units. -/
structure Geometry (γ α : Type) where
  count : γ → ℕ
  /-- The address of a unit. -/
  toAddr : γ → ℕ → α
  /-- `range_addr_to_bit` -/
  toBit : γ → α → Option ℕ

/-- `struct ip_range`, `struct ip6_range`. -/
structure Range (γ : Type) where
  geo : γ
  /-- The pool it is a range of. -/
  pool : ℕ
  /-- Where the next search starts. -/
  cursor : ℕ
  used : ℕ
  bitmap : List (BitVec 64)
  deriving DecidableEq

/-- `struct ip_pool`, `struct ip6_pool`, without the ranges. -/
structure IpPool where
  /-- `none` for the default pool. -/
  name : Option String
  /-- The pool to turn to when this one is used up. -/
  next : Option ℕ
  deriving DecidableEq

/-- `struct pool_set`, for one kind of pools. -/
structure PoolSet (γ : Type) where
  pools : List IpPool
  ranges : List (Range γ)
  /-- `gw_ip_address`, `gw_addr`; 0 when there is none. -/
  gw : ℕ
  shuffle : Bool
  /-- `orphan_policy == ORPHAN_DISCONNECT` -/
  disconnect : Bool
  deriving DecidableEq

/-- What a session has for an address. -/
inductive Item (α : Type)
  /-- A lease, with its range; `none` once a reload has orphaned it. -/
  | lease (addr : α) (range : Option ℕ)
  /-- Addresses of another owner; no addresses at all when nobody owns the item, since a reload
  passes over it. -/
  | foreign (addrs : List α)
  deriving DecidableEq

/-- The part of `struct ap_session` that the pools look at. -/
structure Session (α : Type) where
  poolName : Option String
  item : Option (Item α)
  deriving DecidableEq

/-- The pools and the sessions. -/
structure PoolState (γ α : Type) where
  /-- `cur_set` -/
  cur : Option (PoolSet γ)
  /-- `ses_list` -/
  sessions : List (Session α)
  /-- The sessions that have been told to end because a reload has orphaned their lease. -/
  disc : List ℕ
  deriving DecidableEq

/-! ### Reading the pools of a line -/

/-- `find_pool` with creation: the pools and the number of the one with this name. -/
def findOrCreate (pools : List IpPool) (name : String) : List IpPool × ℕ :=
  match pools.findIdx? fun p ↦ p.name = some name with
  | some p => (pools, p)
  | none => (pools ++ [⟨some name, none⟩], pools.length)

/-- The first part of `parse_line_opts`: the pool of a line. -/
def linePool (pools : List IpPool) : Option String → List IpPool × ℕ
  | some name => findOrCreate pools name
  | none => (pools, 0)

/-- The last part of `parse_line_opts`: the pool to turn to next. -/
def linkNext (pools : List IpPool) (p : ℕ) : Option String → List IpPool
  | some next =>
    let (pools, q) := findOrCreate pools next
    pools.modify p fun pool ↦ { pool with next := some q }
  | none => pools

section Code

variable {γ α κ : Type} (G : Geometry γ α)

/-! ### Finding pools and ranges -/

section

variable (b : ℕ) (r : Range γ) (set : PoolSet γ) (s : Session α)

/-- `find_pool` without creation. -/
def findPool (name : String) : Option ℕ :=
  set.pools.findIdx? fun p ↦ p.name = some name

/-- `pool_contains`: the first range of pool `p` with a unit for the address, and the unit. -/
def poolContains (p : ℕ) (a : α) : Option (ℕ × ℕ) :=
  set.ranges.zipIdx.findSome? fun rk ↦
    if rk.1.pool = p then (G.toBit rk.1.geo a).map fun b ↦ (rk.2, b) else none

/-- `find_target`: the preferred pool first, then the default pool, then the others. -/
def findTarget (a : α) (prefName : Option String) : Option (ℕ × ℕ) :=
  ((prefName.bind (findPool set)).bind fun p ↦ poolContains G set p a).or
    ((List.range set.pools.length).findSome? fun p ↦ poolContains G set p a)

/-! ### Bits -/

/-- Change the range at position `k`. -/
def modifyRange (k : ℕ) (f : Range γ → Range γ) (set : PoolSet γ) : PoolSet γ :=
  { set with ranges := set.ranges.modify k f }

/-- A bit is taken for a new lease. -/
def takeBit : Range γ :=
  { r with bitmap := BitPool.set r.bitmap b, used := r.used + 1, cursor := b + 1 }

/-- `reserve_bit`: a bit is taken unless it is already. -/
def reserveBit : Range γ :=
  if BitPool.test r.bitmap b then r
  else { r with bitmap := BitPool.set r.bitmap b, used := r.used + 1 }

/-- A bit is given back, whether it was taken or not. -/
def giveBack : Range γ :=
  { r with bitmap := BitPool.clear r.bitmap b, used := r.used - 1 }

/-- A bit is given back if it is taken. -/
def releaseBit : Range γ :=
  if BitPool.test r.bitmap b then giveBack b r else r

/-! ### Allocation -/

/-- Where the search in a range starts. -/
def searchFrom (rnd : ℕ) (r : Range γ) : ℕ :=
  if set.shuffle then (if G.count r.geo = 0 then 0 else rnd % G.count r.geo) else r.cursor

/-- The first range of pool `p` with a free unit, and the unit. -/
def allocIn (rnd p : ℕ) : Option (ℕ × ℕ) :=
  set.ranges.zipIdx.findSome? fun rk ↦
    if rk.1.pool = p then
      (BitPool.findFree rk.1.bitmap (G.count rk.1.geo) (searchFrom G set rnd rk.1)).map
        fun b ↦ (rk.2, b)
    else none

/-- The walk along the `next` pointers, which ends at their end or back at `start`. In a cycle past
its start the source goes on for ever, with nothing changed; here the fuel ends. -/
def allocFrom (set : PoolSet γ) (rnd start : ℕ) : ℕ → ℕ → Option (ℕ × ℕ)
  | 0, _ => none
  | fuel + 1, p =>
    match allocIn G set rnd p with
    | some kb => some kb
    | none =>
      match (set.pools[p]?).bind IpPool.next with
      | none => none
      | some q => if q = start then none else allocFrom set rnd start fuel q

/-- The pool a session is served from: the one it names, or the default pool. -/
def startPool : Option ℕ :=
  match s.poolName with
  | some name => findPool set name
  | none => if set.pools.isEmpty then none else some 0

/-- The range and the unit a session would get. -/
def choose (rnd : ℕ) : Option (ℕ × ℕ) :=
  (startPool set s).bind fun p ↦ allocFrom G set rnd p (set.pools.length + 1) p

/-- The address of unit `b` of range `k`. -/
def unitAddr (k b : ℕ) : Option α :=
  (set.ranges[k]?).map fun r ↦ G.toAddr r.geo b

/-! ### The entry points -/

/-- What session `i` has is replaced: the assignment to `ses->ipv4`. -/
def assign (ss : List (Session α)) (i : ℕ) (item : Option (Item α)) : List (Session α) :=
  ss.modify i fun s ↦ { s with item }

/-- `get_ip`, `get_dp`: the set afterwards and the lease. When the lease cannot be allocated the bit
is given back, and only the cursor has moved. -/
def getIp (rnd : ℕ) (noMem : Bool) : PoolSet γ × Option (Item α) :=
  match choose G set s rnd with
  | none => (set, none)
  | some (k, b) =>
    let taken := modifyRange k (takeBit b) set
    if noMem then (modifyRange k (giveBack b) taken, none)
    else (taken, (unitAddr G set k b).map fun a ↦ .lease a (some k))

/-- A session asks the pools, and is assigned what they give. -/
def getStep (st : PoolState γ α) (i rnd : ℕ) (noMem : Bool) : PoolState γ α :=
  match st.sessions[i]? with
  | none => st
  | some s =>
    match st.cur with
    | none => { st with sessions := assign st.sessions i none }
    | some set =>
      let (set, item) := getIp G set s rnd noMem
      { st with cur := some set, sessions := assign st.sessions i item }

/-- The release of the unit behind a lease. -/
def releaseLease (a : α) (k : ℕ) : PoolSet γ :=
  match (set.ranges[k]?).bind fun r ↦ G.toBit r.geo a with
  | some b => modifyRange k (releaseBit b) set
  | none => set

/-- `put_ip`, `put_dp`: an orphaned lease releases nothing. -/
def putIp (cur : Option (PoolSet γ)) (a : α) (range : Option ℕ) : Option (PoolSet γ) :=
  match range with
  | some k => cur.map fun set ↦ releaseLease G set a k
  | none => cur

/-- The lease of session `i`, with its range. -/
def leaseAt (ss : List (Session α)) (i : ℕ) : Option (α × Option ℕ) :=
  match (ss[i]?).bind Session.item with
  | some (.lease a k) => some (a, k)
  | _ => none

/-- A session returns its lease. -/
def putStep (st : PoolState γ α) (i : ℕ) : PoolState γ α :=
  match leaseAt st.sessions i with
  | some (a, range) =>
    { st with cur := putIp G st.cur a range, sessions := assign st.sessions i none }
  | none => st

/-! ### Reload -/

/-- Reserve the unit of an address, if there is one. -/
def reserveAddr (a : α) : PoolSet γ :=
  match findTarget G set a none with
  | some (k, b) => modifyRange k (reserveBit b) set
  | none => set

/-- `reconcile_v4`, `reconcile_na`, `reconcile_pd`: the new set, the session, and whether its lease
has been orphaned. -/
def reconcile : PoolSet γ × Session α × Bool :=
  match s.item with
  | none => (set, s, false)
  | some (.lease a _) =>
    match findTarget G set a s.poolName with
    | some (k, b) =>
      (modifyRange k (reserveBit b) set, { s with item := some (.lease a (some k)) }, false)
    | none => (set, { s with item := some (.lease a none) }, true)
  | some (.foreign addrs) => (addrs.foldl (reserveAddr G) set, s, false)

end

/-- The walk over `ses_list`; `i` is the position of the next session. -/
def reconcileAll (set : PoolSet γ) : ℕ → List (Session α) → PoolSet γ × List (Session α) × List ℕ
  | _, [] => (set, [], [])
  | i, s :: ss =>
    let (set, s, orphan) := reconcile G set s
    let (set, ss, disc) := reconcileAll set (i + 1) ss
    (set, s :: ss, if orphan && set.disconnect then i :: disc else disc)

/-- `load_config` once the new set has been built; a set that could not be built changes nothing. -/
def loadConfig (st : PoolState γ α) (newSet : Option (PoolSet γ)) : PoolState γ α :=
  match newSet with
  | none => st
  | some set =>
    let (set, sessions, disc) := reconcileAll G set 0 st.sessions
    { cur := some set, sessions, disc := st.disc ++ disc }

/-- What can happen. -/
inductive PoolEvent (κ α : Type)
  /-- A new session. -/
  | session (poolName : Option String)
  /-- A session is given another pool. -/
  | rename (i : ℕ) (poolName : Option String)
  /-- A session asks for an address, whatever it has. -/
  | get (i rnd : ℕ) (noMem : Bool)
  /-- The lease of a session is returned. -/
  | put (i : ℕ)
  /-- A session is assigned addresses of another owner, or nothing. -/
  | foreign (i : ℕ) (addrs : Option (List α))
  /-- The configuration is read again. -/
  | reload (conf : κ)
  deriving DecidableEq

/-- One event; `build` is `build_pool_set`. -/
def poolStep (build : κ → Option (PoolSet γ)) (st : PoolState γ α) :
    PoolEvent κ α → PoolState γ α
  | .session poolName => { st with sessions := st.sessions ++ [⟨poolName, none⟩] }
  | .rename i poolName =>
    { st with sessions := st.sessions.modify i fun s ↦ { s with poolName } }
  | .get i rnd noMem => getStep G st i rnd noMem
  | .put i => putStep G st i
  | .foreign i addrs => { st with sessions := assign st.sessions i (addrs.map .foreign) }
  | .reload conf => loadConfig G st (build conf)

/-- Before the first configuration is read. -/
def poolStart : PoolState γ α := ⟨none, [], []⟩

end Code

end AccelPpp.Pool
