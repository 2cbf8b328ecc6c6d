import AccelPpp.Dhcpv6.Packet
import AccelPpp.Lib.Prog

/-!
# How replies are put together

A reply is built in a buffer of 4096 bytes. First comes room for the relay headers, then the header
of the message, and then the options are added at the end, one after another; an option that is
added to another changes the lengths of all options around it (`nestedOptionAlloc`). An option that
does not fit ends the whole reply. At last the relay headers are filled in, from the outermost to
the innermost, and the buffer is sent.

What the source writes into an option after it has allocated it is written at once here (`put`). The
buffer keeps two marks that are not in the source: whether something was written outside of it, and
whether there was no room for something.

While it builds a reply the server also changes what is bound to the client: the identifiers of its
associations (`addr_iaid`, `dp_iaid`), the delegated prefixes, the routes to them, and the addresses
on the interface. A reply that is given up leaves these changes as they are.

Whether memory is available, what the buffer contains before, which prefixes the pool has for the
session and which DNS servers there are, is in `Env`.
-/

open BigEndian Memory Tlv Prog

namespace AccelPpp.Dhcpv6

/-- `struct ipv6db_addr_t`: an address of the session, or a delegated prefix. -/
structure IpAddr where
  addr : In6Addr
  prefixLen : ℕ
deriving DecidableEq

/-- The configuration. -/
structure Conf where
  prefLifetime : ℤ := 604800
  validLifetime : ℤ := 2592000
  /-- The value of `conf_serverid`. -/
  serverid : Vector UInt8 12
  dnssl : List UInt8 := []
  aftrGw : List UInt8 := []

/-- What the session has. -/
structure Ses where
  addrs : List IpAddr := []
  /-- The positions in `addrs` of the addresses that are on the interface. -/
  installed : List ℕ := []
  peerIntfId : Vector UInt8 8
  /-- `ipv6_dp` -/
  dp : Option (List IpAddr) := none
deriving DecidableEq

/-- `struct dhcpv6_pd` -/
structure Pd where
  clientid : Option (List UInt8) := none
  addrIaid : Vector UInt8 4 := .replicate 4 0
  dpIaid : Vector UInt8 4 := .replicate 4 0
  dpActive : Bool := false
deriving DecidableEq

/-- The surroundings of one message. -/
structure Env where
  conf : Conf
  req : Packet
  /-- Whether the `n`-th allocation succeeds. -/
  malloc : ℕ → Bool
  garbage : ℕ → UInt8
  /-- What `ipdb_get_ipv6_prefix` returns. -/
  ipdb : Option (List IpAddr)
  /-- What `ipv6_dns_get` returns. -/
  dns : List In6Addr

/-! ### The buffer -/

/-- `BUF_SIZE` -/
def bufSize : ℕ := 4096

/-- The reply that is being built; addresses count from the beginning of the buffer. -/
structure Reply where
  mem : ℕ → UInt8
  hdr : ℕ := 0
  endptr : ℕ := 0
  /-- The relay headers and where they are. -/
  relays : List (ℕ × Relay) := []
  /-- Something was written outside of the buffer. -/
  outside : Bool := false
  /-- There was no room for something. -/
  refused : Bool := false

/-- `struct dhcpv6_relay_hdr` of a reply. -/
def relayHeader (rel : Relay) : List UInt8 :=
  relayRepl :: rel.hopCnt :: (rel.linkAddr.toList ++ rel.peerAddr.toList)

namespace Reply

section

variable (r : Reply)

def store (off : ℕ) (bs : List UInt8) : Reply :=
  { r with mem := write r.mem off bs, outside := r.outside || bufSize < off + bs.length }

/-- `dhcpv6_packet_tailroom` -/
def tailroom : ℕ :=
  bufSize - r.endptr

/-- `dhcpv6_option_space` -/
def optionSpace : ℕ :=
  if r.tailroom ≤ 4 then 0 else r.tailroom - 4

/-- The lengths of an option and of those around it grow. -/
def patch (extra : ℕ) : Reply → List ℕ → Reply
  | r, [] => r
  | r, o :: path =>
    patch extra (r.store (o + 2) (toBytes 2 (ofBytes (slice r.mem (o + 2) 2) + extra))) path

/-- A new option at the end of the packet. -/
def addHeader (path : List ℕ) (code len : ℕ) : Reply :=
  patch (4 + len)
    { r.store r.endptr (toBytes 2 code ++ toBytes 2 len) with endptr := r.endptr + (4 + len) } path

/-- One turn of the loop in `dhcpv6_fill_relay_info`. -/
def fillRelay (o : ℕ) (rel : Relay) : Reply :=
  r.store o (relayHeader rel ++ (toBytes 2 Code.relayMsg ++ toBytes 2 (r.endptr - (o + 38))))

/-- `dhcpv6_fill_relay_info` -/
def fillRelayInfo : Reply :=
  let t := r.relays.foldl (fun r rel ↦ r.fillRelay rel.1 rel.2) r
  match r.relays with
  | [] => t
  | rel :: _ => { t with hdr := rel.1 }

/-- What `sendto` is given. -/
def bytes : List UInt8 :=
  slice r.mem r.hdr (r.endptr - r.hdr)

end

end Reply

/-- The state while a message is processed. -/
structure St where
  reply : Reply
  pd : Pd
  ses : Ses
  /-- How many allocations there were. -/
  mallocs : ℕ := 0

namespace St

def onReply (f : Reply → Reply) (s : St) : St :=
  { s with reply := f s.reply }

end St

/-! ### Allocating options -/

variable (env : Env)

def malloc : Prog St Unit := do
  let s ← get
  modify fun s ↦ { s with mallocs := s.mallocs + 1 }
  if env.malloc s.mallocs then pure () else fail

/-- There is no room: the reply is given up. -/
def refuse {α : Type} : Prog St α := do
  modify (St.onReply fun r ↦ { r with refused := true })
  fail

section

variable (type : ReplyType) (clientid : List UInt8) (path : List ℕ) (opt : Item)

/-- `dhcpv6_nested_option_alloc`, and with no options around it `dhcpv6_option_alloc`. An option is
given by the address of its header and those of the headers around it, the innermost first. -/
def nestedOptionAlloc (code len : ℕ) : Prog St ℕ := do
  let s ← get
  if s.reply.tailroom < 4 + len then refuse
  else do
    malloc env
    modify (St.onReply fun r ↦ r.addHeader path code len)
    pure s.reply.endptr

/-- An option is allocated and filled; its address comes first in the result. -/
def put (code len : ℕ) (data : List UInt8) : Prog St (List ℕ) := do
  let o ← nestedOptionAlloc env path code len
  modify (St.onReply fun r ↦ r.store (o + 4) data)
  pure (o :: path)

/-! ### The values of options -/

/-- A number of 32 bits, in network order. -/
def be32 (v : ℤ) : List UInt8 :=
  toBytes 4 (v % 2 ^ 32).toNat

/-- `build_ip6_addr` -/
def buildIp6Addr (a : IpAddr) (intfId : Vector UInt8 8) : In6Addr :=
  if a.prefixLen = 128 then a.addr
  else
    let low := bytesAt a.addr.toList 8 8
    let host := 2 ^ (128 - a.prefixLen) - 1
    let low := if a.prefixLen ≤ 64 then intfId
      else bytesAt (toBytes 8 (ofBytes low.toList ||| (ofBytes intfId.toList &&& host))) 0 8
    bytesAt (a.addr.toList.take 8 ++ low.toList) 0 16

section

variable (serverid clientid : List UInt8) (addr : In6Addr) (dp : List IpAddr)

/-- `IN6_IS_ADDR_UNSPECIFIED` -/
def unspecified : Bool :=
  addr = .replicate 16 0

/-- The identifier of an association. -/
def iaid : Vector UInt8 4 :=
  bytesAt opt.data 0 4

/-- The fields of a reply's IA_NA or IA_PD: the identifier is the client's. In C the second product
overflows from `2 ^ 29` seconds on. -/
def iaData (conf : Conf) (opt : Item) : List UInt8 :=
  (iaid opt).toList ++
    be32 (if conf.prefLifetime = -1 then -1 else conf.prefLifetime.tdiv 2) ++
    be32 (if conf.prefLifetime = -1 then -1 else (conf.prefLifetime * 4).tdiv 5)

/-- `struct dhcpv6_opt_ia_addr` -/
def iaAddrData (pref valid : ℤ) : List UInt8 :=
  addr.toList ++ be32 pref ++ be32 valid

/-- `struct dhcpv6_opt_ia_prefix` -/
def iaPrefixData (len : UInt8) (pref valid : ℤ) : List UInt8 :=
  be32 pref ++ be32 valid ++ len :: addr.toList

/-- The address in an IAADDR option. -/
def optAddr : In6Addr :=
  bytesAt opt.data 0 16

/-- The length of the prefix in an IAPREFIX option. -/
def optPrefixLen : UInt8 :=
  opt.data.getD 8 0

/-- The prefix in an IAPREFIX option. -/
def optPrefix : In6Addr :=
  bytesAt opt.data 9 16

inductive Status
  | noAddrsAvail | noBinding | notOnLink | noPrefixAvail
deriving DecidableEq

def Status.code : Status → ℕ
  | .noAddrsAvail => 2
  | .noBinding => 3
  | .notOnLink => 4
  | .noPrefixAvail => 6

/-! ### The parts of a reply -/

/-- `insert_status`, into another option. -/
def insertStatus (status : Status) : Prog St Unit := do
  let _ ← put env path Code.statusCode 2 (toBytes 2 status.code)
  pure ()

/-- The codes in an Option-Request option. -/
def oroCodes : List UInt8 → List ℕ
  | b :: c :: rest => ofBytes [b, c] :: oroCodes rest
  | _ => []

/-- The DNS servers, as many as there is room for. -/
def insertDns : Prog St Unit := do
  let s ← get
  let count := min env.dns.length (s.reply.optionSpace / 16)
  if count != 0 then do
    let _ ← put env [] Code.dnsServers (count * 16)
      ((env.dns.take count).flatMap fun dns ↦ dns.toList)
    pure ()
  else pure ()

/-- An option with a configured value, if there is one. -/
def insertConfigured (code : ℕ) (value : List UInt8) : Prog St Unit := do
  if value.length != 0 then do
    let _ ← put env [] code value.length value
    pure ()
  else pure ()

/-- `insert_oro` -/
def insertOro : Prog St Unit :=
  forEach (fun code ↦
    if code == Code.dnsServers then insertDns env
    else if code == Code.domainList then insertConfigured env Code.domainList env.conf.dnssl
    else if code == Code.aftrName then insertConfigured env Code.aftrName env.conf.aftrGw
    else pure ()) (oroCodes opt.data)

/-- The addresses of the session; they are put on the interface. -/
def insertAddrs (addrs : List (IpAddr × ℕ)) : Prog St Unit :=
  forEach (fun (a, i) ↦ do
    let s ← get
    let _ ← put env path Code.iaAddr 24 (iaAddrData (buildIp6Addr a s.ses.peerIntfId)
      env.conf.prefLifetime env.conf.validLifetime)
    modify fun s ↦
      if i ∈ s.ses.installed then s
      else { s with ses := { s.ses with installed := s.ses.installed ++ [i] } }) addrs

/-- The address is one of the session's. -/
def onLink (ses : Ses) (opt : Item) : Bool :=
  ses.addrs.any fun a ↦ buildIp6Addr a ses.peerIntfId = optAddr opt

/-- The prefix is one of those delegated. -/
def delegated (opt : Item) : Bool :=
  dp.any fun a ↦ a.prefixLen = (optPrefixLen opt).toNat && a.addr = optPrefix opt

/-- The IAADDR options of the request that name an address. -/
def askedAddrs : List Item :=
  opt.subs.filter fun sub ↦ sub.code = Code.iaAddr && !unspecified (optAddr sub)

/-- The IAPREFIX options of the request that name a prefix. -/
def askedPrefixes : List Item :=
  opt.subs.filter fun sub ↦
    sub.code = Code.iaPrefix && optPrefixLen sub != 0 && !unspecified (optPrefix sub)

/-- The addresses that the client asks for in vain. -/
def rejectAddrs : Prog St Unit :=
  forEach (fun sub ↦ do
    let s ← get
    if onLink s.ses sub then pure ()
    else do
      let path ← put env path Code.iaAddr 24 (iaAddrData (optAddr sub) 0 0)
      insertStatus env path .notOnLink) (askedAddrs opt)

/-- The prefixes that the client asks for in vain. -/
def rejectPrefixes (opt : Item) : Prog St Unit :=
  forEach (fun sub ↦
    if delegated dp sub then pure ()
    else do
      let path ← put env path Code.iaPrefix 25 (iaPrefixData (optPrefix sub) (optPrefixLen sub) 0 0)
      insertStatus env path .notOnLink) (askedPrefixes opt)

/-- The delegated prefixes. -/
def insertPrefixes : Prog St Unit :=
  forEach (fun (a : IpAddr) ↦ do
    let _ ← put env path Code.iaPrefix 25 (iaPrefixData a.addr (.ofNat a.prefixLen)
      env.conf.prefLifetime env.conf.validLifetime)
    pure ()) dp

/-- The request binds what is given. -/
def binds : Bool :=
  env.req.type = .request || env.req.rapidCommit

/-- IA_NA in `dhcpv6_send_reply`; `f` says whether addresses have been given already. -/
def replyIaNa (f : Bool) (opt : Item) : Prog St Bool := do
  let path ← put env [] Code.iaNa 12 (iaData env.conf opt)
  let s ← get
  if env.req.type = .renew && s.pd.addrIaid != iaid opt then do
    insertStatus env path .noBinding
    pure f
  else if s.ses.addrs.isEmpty || f then do
    insertStatus env path .noAddrsAvail
    pure f
  else do
    modify fun s ↦
      if binds env then { s with pd := { s.pd with addrIaid := iaid opt } } else s
    insertAddrs env path s.ses.addrs.zipIdx
    if type == .reply then rejectAddrs env path opt else pure ()
    pure true

/-- The prefixes of the session, which are taken from the pool when they are needed first. If there
are none the reply is given up. -/
def delegate : Prog St (List IpAddr) := do
  let s ← get
  match s.ses.dp with
  | some dp => pure dp
  | none =>
    match env.ipdb with
    | some dp => do
      modify fun s ↦ { s with ses := { s.ses with dp := some dp } }
      pure dp
    | none => fail

/-- IA_PD in `dhcpv6_send_reply`; `f2` says whether prefixes have been given already. -/
def replyIaPd (f2 : Bool) (opt : Item) : Prog St Bool := do
  let path ← put env [] Code.iaPd 12 (iaData env.conf opt)
  let dp ← delegate env
  let s ← get
  if env.req.type = .renew && s.pd.dpIaid != iaid opt then do
    insertStatus env path .noBinding
    pure f2
  else if dp.isEmpty || f2 then do
    insertStatus env path .noPrefixAvail
    pure f2
  else do
    modify fun s ↦
      if binds env then { s with pd := { s.pd with dpIaid := iaid opt, dpActive := true } } else s
    insertPrefixes env path dp
    if type == .reply then rejectPrefixes env path dp opt else pure ()
    pure true

/-- IA_TA in `dhcpv6_send_reply`. -/
def replyIaTa : Prog St Unit := do
  let path ← put env [] Code.iaTa 4 (iaid opt).toList
  insertStatus env path .noAddrsAvail

/-- One option of the request in `dhcpv6_send_reply`, with the flags `f` and `f2`. -/
def replyOption (f : Bool × Bool) (opt : Item) : Prog St (Bool × Bool) := do
  if opt.code == Code.iaNa then
    if env.req.type = .informationRequest then pure f
    else do
      let f₁ ← replyIaNa env type f.1 opt
      pure (f₁, f.2)
  else if opt.code == Code.iaPd then
    if env.req.type = .informationRequest then pure f
    else do
      let f₂ ← replyIaPd env type f.2 opt
      pure (f.1, f₂)
  else if opt.code == Code.iaTa then
    if env.req.type = .informationRequest then pure f
    else do
      replyIaTa env opt
      pure f
  else if opt.code == Code.oro then do
    insertOro env opt
    pure f
  else pure f

/-! ### Whole replies -/

/-- The room for the relay headers in `dhcpv6_packet_alloc_reply`. -/
def allocRelays : List Relay → Prog St Unit :=
  forEach fun rel ↦ do
    let s ← get
    if bufSize - s.reply.hdr < 42 then refuse
    else modify (St.onReply fun r ↦
      { r with relays := r.relays ++ [(r.hdr, rel)], hdr := r.hdr + 38 })

/-- `dhcpv6_packet_alloc_reply`; the Server-ID is that of the request, or the one that the caller
has put there. -/
def packetAllocReply : Prog St Unit := do
  malloc env
  modify (St.onReply fun _ ↦ { mem := env.garbage })
  allocRelays env.req.relays
  modify (St.onReply fun r ↦
    { (r.store r.hdr (type.toByte :: env.req.transId.toList)) with endptr := r.hdr + 4 })
  let _ ← put env [] Code.serverid serverid.length serverid
  let _ ← put env [] Code.clientid clientid.length clientid
  pure ()

/-- The end of both functions: the last option, the relay headers, and what is sent. -/
def sendPacket : Prog St (List UInt8) := do
  let _ ← put env [] Code.preference 1 [255]
  modify (St.onReply Reply.fillRelayInfo)
  let s ← get
  pure s.reply.bytes

/-- `dhcpv6_send_reply`: the bytes that are sent. -/
def sendReply : Prog St (List UInt8) := do
  packetAllocReply env type serverid clientid
  let _ ← fold (replyOption env type) (false, false) env.req.opts
  if env.req.type = .solicit && env.req.rapidCommit then do
    let _ ← put env [] Code.rapidCommit 0 []
    sendPacket env
  else sendPacket env

/-- The addresses in an IA_NA of a Rebind: each must be one of the session's, and no other IA_NA may
have got them (`f`); otherwise the reply is given up. -/
def confirmAddrs (f : Bool) (opt : Item) : Prog St Bool :=
  fold (fun _ sub ↦ do
    let s ← get
    let f₁ := !f && onLink s.ses sub
    let _ ← put env path Code.iaAddr 24 (if f₁ then
      iaAddrData (optAddr sub) env.conf.prefLifetime env.conf.validLifetime
      else iaAddrData (optAddr sub) 0 0)
    if f₁ then pure true else fail) false (askedAddrs opt)

/-- The prefixes in an IA_PD of a Rebind. -/
def confirmPrefixes (f2 : Bool) (dp : List IpAddr) (opt : Item) : Prog St Bool :=
  fold (fun _ sub ↦ do
    let f₁ := !f2 && delegated dp sub
    let _ ← put env path Code.iaPrefix 25 (if f₁ then
      iaPrefixData (optPrefix sub) (optPrefixLen sub) env.conf.prefLifetime env.conf.validLifetime
      else iaPrefixData (optPrefix sub) (optPrefixLen sub) 0 0)
    if f₁ then pure true else fail) false (askedPrefixes opt)

/-- One option of the request in `dhcpv6_send_reply2`. -/
def rebindOption (f : Bool × Bool) (opt : Item) : Prog St (Bool × Bool) := do
  if opt.code == Code.iaNa then do
    let path ← put env [] Code.iaNa 12 (iaData env.conf opt)
    let f₃ ← confirmAddrs env path f.1 opt
    if f₃ then do
      modify fun s ↦ { s with pd := { s.pd with addrIaid := iaid opt } }
      pure (true, f.2)
    else pure f
  else if opt.code == Code.iaPd then do
    let path ← put env [] Code.iaPd 12 (iaData env.conf opt)
    let dp ← delegate env
    let f₃ ← confirmPrefixes env path f.2 dp opt
    if f₃ then do
      modify fun s ↦ { s with pd := { s.pd with dpIaid := iaid opt } }
      pure (f.1, true)
    else pure f
  else if opt.code == Code.oro then do
    insertOro env opt
    pure f
  else pure f

/-- `dhcpv6_send_reply2` -/
def sendReply2 : Prog St (List UInt8) := do
  packetAllocReply env .reply serverid clientid
  let _ ← fold (rebindOption env) (false, false) env.req.opts
  sendPacket env

end

/-! ### The handlers -/

/-- The client is the one that the session is bound to; the first one to come binds it. -/
def bindClient : Prog St Unit := do
  let s ← get
  match s.pd.clientid with
  | none => modify fun s ↦ { s with pd := { s.pd with clientid := some clientid } }
  | some bound => if bound = clientid then pure () else fail

/-- The client must be the one that the session is bound to. -/
def checkClient : Prog St Unit := do
  let s ← get
  if s.pd.clientid = some clientid then pure () else fail

/-- `dhcpv6_recv_solicit` -/
def recvSolicit : Prog St (List UInt8) := do
  if env.req.serverid.isSome then fail
  else if env.req.rapidCommit then do
    bindClient clientid
    sendReply env .reply env.conf.serverid.toList clientid
  else sendReply env .advertise env.conf.serverid.toList clientid

/-- `dhcpv6_recv_request` -/
def recvRequest : Prog St (List UInt8) := do
  match env.req.serverid with
  | none => fail
  | some serverid => do
    bindClient clientid
    sendReply env .reply serverid clientid

/-- `dhcpv6_recv_renew` -/
def recvRenew : Prog St (List UInt8) := do
  match env.req.serverid with
  | none => fail
  | some serverid =>
    if serverid = env.conf.serverid.toList then do
      checkClient clientid
      sendReply env .reply serverid clientid
    else fail

/-- `dhcpv6_recv_information_request` -/
def recvInformationRequest : Prog St (List UInt8) := do
  if env.req.rapidCommit then fail
  else sendReply env .reply env.conf.serverid.toList clientid

/-- `dhcpv6_recv_rebind` -/
def recvRebind : Prog St (List UInt8) := do
  if env.req.serverid.isSome then fail
  else do
    checkClient clientid
    sendReply2 env env.conf.serverid.toList clientid

/-- `dhcpv6_recv_confirm` -/
def recvConfirm : Prog St (List UInt8) := do
  if env.req.serverid.isSome then fail
  else do
    checkClient clientid
    sendReply env .reply env.conf.serverid.toList clientid

end

/-- `dhcpv6_recv_packet`; `dhcpv6_read` has seen to it that there is a Client-ID. Release and
Decline are not answered. -/
def recvPacket : Prog St (List UInt8) := do
  match env.req.clientid with
  | none => fail
  | some clientid =>
    match env.req.type with
    | .solicit => recvSolicit env clientid
    | .request => recvRequest env clientid
    | .renew => recvRenew env clientid
    | .rebind => recvRebind env clientid
    | .confirm => recvConfirm env clientid
    | .informationRequest => recvInformationRequest env clientid
    | _ => fail

/-- A datagram that arrives, and the surroundings it meets. -/
structure Datagram where
  buf : List UInt8
  /-- It comes from a link-local address and the port of the clients. -/
  fromClient : Bool := true
  malloc : ℕ → Bool := fun _ ↦ true
  garbage : ℕ → UInt8 := fun _ ↦ 0
  ipdb : Option (List IpAddr) := none
  dns : List In6Addr := []

/-- What is kept from one message to the next. -/
structure Bound where
  pd : Pd
  ses : Ses
deriving DecidableEq

def Datagram.surroundings (g : Datagram) (conf : Conf) (req : Packet) : Env :=
  { conf, req, malloc := g.malloc, garbage := g.garbage, ipdb := g.ipdb, dns := g.dns }

/-- `dhcpv6_read`, for one datagram: the bytes that are sent, if any, and the state afterwards. -/
def read (conf : Conf) (b : Bound) (g : Datagram) : Option (List UInt8) × St :=
  let idle : St := { reply := { mem := g.garbage }, pd := b.pd, ses := b.ses }
  if !g.fromClient then (none, idle)
  else match packetParse g.buf with
    | none => (none, idle)
    | some req => recvPacket (g.surroundings conf req) idle

end AccelPpp.Dhcpv6
