import Mathlib

/-!
# RADIUS servers (`radius/serv.c`)

The table of servers and the choice of one. A server is known by its number in the table, and
`serv_list` holds the numbers of those that are configured, in the order in which they were added.

`__rad_server_get` remembers two servers: `s0`, the one with the least load among those it may use,
and `s1`, one that has the address the caller asks for. A caller that asks for none passes the
address 0, which is also the `addr` of every IPv6 server, so the first of these that may be used is
taken before any other.

Times are in seconds of the monotonic clock, and counters are `ℤ`, as the code subtracts from them
without looking.
-/

namespace AccelPpp.Radius

/-- `struct in6_addr` -/
abbrev In6Addr := BitVec 128

/-- `RAD_SERV_AUTH`, `RAD_SERV_ACCT` -/
inductive ServType
  | auth
  | acct
  deriving DecidableEq

/-- `struct rad_server_t`. Of `addr` and `addr6` the one that `ipv4` says is set, and the other is
zero. Left out are the statistics, the device, and the flags of the Accounting-On exchange. -/
structure Server where
  ipv4 : Bool
  addr : UInt32
  addr6 : In6Addr
  secret : List UInt8
  authPort : ℕ
  acctPort : ℕ
  weight : ℤ
  backup : Bool
  reqLimit : ℤ
  failTimeout : ℕ
  maxFail : ℤ
  reqCnt : ℤ
  queueCnt : ℤ
  /-- `req_queue[0]` -/
  queue0 : List ℕ
  /-- `req_queue[1]` -/
  queue1 : List ℕ
  /-- `client_cnt[RAD_SERV_AUTH]` -/
  authCnt : ℤ
  /-- `client_cnt[RAD_SERV_ACCT]` -/
  acctCnt : ℤ
  failTime : ℕ
  timeoutCnt : ℤ
  needFree : Bool
  deriving DecidableEq

namespace Server

/-- The port a server serves a type of request on. -/
def port (s : Server) : ServType → ℕ
  | .auth => s.authPort
  | .acct => s.acctPort

/-- What `__add_server` knows a server by. -/
def key (s : Server) : UInt32 × ℕ × ℕ := (s.addr, s.authPort, s.acctPort)

/-- The requests a server has. -/
def clients (s : Server) : ℤ := s.authCnt + s.acctCnt

/-- A change of `client_cnt`. -/
def addClient (s : Server) (type : ServType) (d : ℤ) : Server :=
  match type with
  | .auth => { s with authCnt := s.authCnt + d }
  | .acct => { s with acctCnt := s.acctCnt + d }

/-- The server may be used: it has not failed, and it serves the type of request. -/
def usable (s : Server) (type : ServType) (now : ℕ) : Bool :=
  ¬ (s.failTime ≠ 0 ∧ now < s.failTime) ∧ s.port type ≠ 0

/-- A server that is better than the best one so far. -/
def better (s s0 : Server) : Bool :=
  (¬ s.backup ∧ s0.backup) ∨ (s.backup = s0.backup ∧ s.clients * s0.weight < s0.clients * s.weight)

end Server

/-- One turn of the loop of `__rad_server_get`, on the pair of `s0` and `s1`. -/
def getTurn (servers : ℕ → Server) (type : ServType) (exclude : Option ℕ) (addr : UInt32)
    (port now : ℕ) (acc : Option ℕ × Option ℕ) (i : ℕ) : Option ℕ × Option ℕ :=
  let s := servers i
  if some i = exclude ∨ ¬ s.usable type now then acc
  else
    let s1 :=
      if s.addr = addr then if port = s.port type ∨ acc.2 = none then some i else acc.2
      else acc.2
    let s0 :=
      match acc.1 with
      | none => some i
      | some j => if s.better (servers j) then some i else some j
    (s0, s1)

/-- The choice of `__rad_server_get`. -/
def radServerGet (servers : ℕ → Server) (list : List ℕ) (type : ServType) (exclude : Option ℕ)
    (addr : UInt32) (port now : ℕ) : Option ℕ :=
  let (s0, s1) := list.foldl (getTurn servers type exclude addr port now) (none, none)
  s1.orElse fun _ ↦ s0

end AccelPpp.Radius
