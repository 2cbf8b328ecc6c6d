import AccelPpp.Lib.Run
import AccelPpp.Radius.Server

/-!
# Where a request is sent, and under which secret (`radius/req.c`, `radius/serv.c`)

A request carries copies of what belongs to its server: the address and the port its socket is
connected to, and the secret its packet is signed and its reply verified with. `__rad_req_alloc`
makes all of them, `rad_req_acct_fill` the port once more, `rad_server_realloc` (a failover) the
IPv4 address, the port and the secret, `send_acct_on` the IPv4 address and the port, and
`rad_req_set_RA` the secret, at every send of an accounting request. None but the first copies the
IPv6 address.

`Agrees` says of a request that whatever is sent next goes to its server and is signed with the
server's secret, and that the secret replies are verified with is the server's. `agrees_iff` says
exactly which runs keep it for all requests: those in which no failover and no Accounting-On turns
to an IPv6 server whose address the request does not happen to hold already.

Between the steps of a request the other users of the servers change the load, the failures and
the time (`others`); the configuration stays as it is.
-/

open List Option

namespace AccelPpp.Radius

open Transition

/-! ### Sockets and packets -/

/-- What a socket is connected to: the address family, the address and the port. -/
inductive Dest
  | inet (addr : UInt32) (port : ℕ)
  | inet6 (addr : In6Addr) (port : ℕ)
  deriving DecidableEq

/-- What a request copies from its server, with its socket and its packet. -/
structure Target where
  serverAddr : UInt32
  serverIpv6Addr : In6Addr
  serverPort : ℕ
  /-- `hnd.fd`, as what it is connected to. -/
  fd : Option Dest
  /-- `pack->secret` -/
  secret : Option (List UInt8)
  /-- Whether there is a `pack->buf`. -/
  built : Bool
  deriving DecidableEq

/-- What can go wrong with a send: there is no socket, or no memory for the packet or the secret. -/
inductive SendOut
  | ok
  | noSocket
  | noMemory
  deriving DecidableEq

/-- A packet that is sent: where to, and the secret it is signed with, if it is. -/
structure Sent where
  dest : Dest
  secret : Option (List UInt8)
  deriving DecidableEq

/-- The address of a server, for a type of request. -/
def Server.dest (s : Server) (type : ServType) : Dest :=
  if s.ipv4 then .inet s.addr (s.port type) else .inet6 s.addr6 (s.port type)

namespace Target

section

variable (t : Target) (s : Server)

/-- `__rad_req_alloc`: the secret is copied for an Access-Request only. -/
def alloc (type : ServType) : Target where
  serverAddr := s.addr
  serverIpv6Addr := s.addr6
  serverPort := s.authPort
  fd := none
  secret := match type with
    | .auth => some s.secret
    | .acct => none
  built := false

/-- `rad_req_acct_fill`, as far as the port goes. -/
def acctFill : Target := { t with serverPort := s.acctPort }

/-- The request of `send_acct_on`. -/
def acctOn : Target where
  serverAddr := s.addr
  serverIpv6Addr := 0
  serverPort := s.acctPort
  fd := none
  secret := none
  built := false

/-- What `make_socket` connects to: the family is that of the server. -/
def connectTo : Dest :=
  if s.ipv4 then .inet t.serverAddr t.serverPort else .inet6 t.serverIpv6Addr t.serverPort

/-- `make_socket`, when it succeeds. -/
def makeSocket : Target := { t with fd := some (t.connectTo s) }

/-- The socket is closed. -/
def close : Target := { t with fd := none }

/-- `rad_server_realloc`: the copies for the new server. -/
def realloc (type : ServType) : Target :=
  { t with
    secret := some s.secret
    fd := none
    serverAddr := s.addr
    serverPort := s.port type }

/-- `__rad_req_send` without waiting: 0 when the packet is sent, -1 or -2 when it is not. An
accounting request is built and signed every time, an Access-Request is built once and, where it is
signed, signed every time with `pack->secret`. -/
def send (type : ServType) (out : SendOut) : Target × ℤ × Option Sent :=
  if t.fd = none ∧ out = .noSocket then (t, -2, none)
  else
    let d := t.fd.getD (t.connectTo s)
    let t := { t with fd := some d }
    match type with
    | .acct =>
      if out = .noMemory then (t.close, -1, none)
      else ({ t with secret := some s.secret, built := true }, 0, some ⟨d, some s.secret⟩)
    | .auth =>
      if t.built = false ∧ out = .noMemory then (t.close, -1, none)
      else ({ t with built := true }, 0, some ⟨d, t.secret⟩)

end

end Target

/-! ### Runs -/

/-- `struct rad_req_t`, as far as the server goes. -/
structure Request where
  type : ServType
  serv : ℕ
  target : Target
  deriving DecidableEq

/-- The servers and the requests. -/
structure World where
  servers : ℕ → Server
  list : List ℕ
  now : ℕ
  reqs : List Request

/-- What the other users of a server change. -/
structure Load where
  authCnt : ℤ
  acctCnt : ℤ
  failTime : ℕ

/-- The server under another load. -/
def Server.load (s : Server) (l : Load) : Server :=
  { s with authCnt := l.authCnt, acctCnt := l.acctCnt, failTime := l.failTime }

/-- The events. -/
inductive TargetEvent
  /-- Other requests come and go, servers fail, and time passes. -/
  | others (load : ℕ → Load) (now : ℕ)
  /-- `rad_req_alloc`, with `rad_req_acct_fill` for an accounting request. -/
  | alloc (type : ServType)
  /-- `rad_req_alloc2`: it asks for an address, and makes the socket, or fails. -/
  | alloc2 (type : ServType) (addr : UInt32) (port : ℕ) (out : SendOut)
  /-- `send_acct_on`, up to its first send. -/
  | acctOn (i : ℕ)
  /-- `__rad_req_send` -/
  | send (k : ℕ) (out : SendOut)
  /-- `rad_server_realloc`; it fails without memory for the secret. -/
  | failover (k : ℕ) (out : SendOut)
  /-- The socket is closed, as at the end of an exchange. -/
  | close (k : ℕ)

namespace World

/-- A change of the clients of a server. -/
def addClient (w : World) (i : ℕ) (type : ServType) (d : ℤ) : World :=
  { w with servers := Function.update w.servers i ((w.servers i).addClient type d) }

/-- The choice of a server in this state. -/
def get (w : World) (type : ServType) (exclude : Option ℕ) (addr : UInt32) (port : ℕ) : Option ℕ :=
  radServerGet w.servers w.list type exclude addr port w.now

/-- A new request at server `i`. -/
def addReq (w : World) (r : Request) : World :=
  let w := w.addClient r.serv r.type 1
  { w with reqs := w.reqs ++ [r] }

/-- A request changed. -/
def setReq (w : World) (k : ℕ) (r : Request) : World := { w with reqs := w.reqs.set k r }

/-- What an allocation leaves in a request. -/
def allocTarget (s : Server) (type : ServType) : Target :=
  match type with
  | .auth => Target.alloc s .auth
  | .acct => (Target.alloc s .acct).acctFill s

/-- One event. -/
def step (w : World) : TargetEvent → World
  | .others load now => { w with servers := fun i ↦ (w.servers i).load (load i), now := now }
  | .alloc type =>
    match w.get type none 0 0 with
    | none => w
    | some i => w.addReq ⟨type, i, allocTarget (w.servers i) type⟩
  | .alloc2 type addr port out =>
    match w.get type none addr port with
    | none => w
    | some i =>
      if out = .ok then
        w.addReq ⟨type, i, (allocTarget (w.servers i) type).makeSocket (w.servers i)⟩
      else w
  | .acctOn i => w.addReq ⟨.acct, i, Target.acctOn (w.servers i)⟩
  | .send k out =>
    match w.reqs[k]? with
    | none => w
    | some r =>
      w.setReq k { r with target := (r.target.send (w.servers r.serv) r.type out).1 }
  | .failover k out =>
    match w.reqs[k]? with
    | none => w
    | some r =>
      match w.get r.type (some r.serv) 0 0 with
      | none => w
      | some i =>
        if out = .noMemory then w
        else
          ((w.addClient i r.type 1).addClient r.serv r.type (-1)).setReq k
            ⟨r.type, i, r.target.realloc (w.servers i) r.type⟩
  | .close k =>
    match w.reqs[k]? with
    | none => w
    | some r => w.setReq k { r with target := r.target.close }

end World

/-! ### Agreement -/

/-- **The request agrees with its server**: whatever is sent next goes to the server, signed with
its secret, and replies are verified with its secret. -/
def Agrees (s : Server) (r : Request) : Prop :=
  (∀ out x, (r.target.send s r.type out).2.2 = some x →
    x.dest = s.dest r.type ∧ x.secret = some s.secret) ∧
  ∀ k, r.target.secret = some k → k = s.secret

/-- All requests agree with their servers. -/
def World.AllAgree (w : World) : Prop := ∀ r ∈ w.reqs, Agrees (w.servers r.serv) r

/-- An IPv6 server has the address that the request holds. -/
def HoldsAddr (s : Server) (addr : In6Addr) : Prop := s.ipv4 = true ∨ s.addr6 = addr

/-- The condition on a step: a failover, or an Accounting-On, turns to an IPv4 server or to one
whose IPv6 address the request holds already. -/
def World.Turns (w : World) : TargetEvent → Prop
  | .acctOn i => HoldsAddr (w.servers i) 0
  | .failover k out => out ≠ .noMemory → ∀ r, w.reqs[k]? = some r →
      ∀ i, w.get r.type (some r.serv) 0 0 = some i →
        HoldsAddr (w.servers i) r.target.serverIpv6Addr
  | _ => True

/-! ### One request -/

section One

variable {s : Server} {r : Request} {t : Target} {type : ServType} {i : ℕ}

/-- The copies that matter: where the next packet goes, through the socket there is or the one that
would be made, and the secret. -/
lemma agrees_iff_copies : Agrees s ⟨type, i, t⟩ ↔
    t.fd.getD (t.connectTo s) = s.dest type ∧ (type = .auth → t.secret = some s.secret) ∧
      ∀ k, t.secret = some k → k = s.secret := by
  constructor
  · rintro ⟨hsend, hsecret⟩
    cases type with
    | auth =>
      obtain ⟨hdest, hk⟩ := hsend .ok ⟨t.fd.getD (t.connectTo s), t.secret⟩ (by simp [Target.send])
      exact ⟨hdest, fun _ ↦ hk, hsecret⟩
    | acct =>
      obtain ⟨hdest, -⟩ :=
        hsend .ok ⟨t.fd.getD (t.connectTo s), some s.secret⟩ (by simp [Target.send])
      exact ⟨hdest, nofun, hsecret⟩
  · rintro ⟨hdest, hauth, hsecret⟩
    refine ⟨fun out x hx ↦ ?_, hsecret⟩
    rw [Target.send] at hx
    split at hx
    · nomatch hx
    cases type with
    | auth =>
      dsimp only at hx
      split at hx
      · nomatch hx
      · obtain rfl := some.inj hx
        exact ⟨hdest, hauth rfl⟩
    | acct =>
      dsimp only at hx
      split at hx
      · nomatch hx
      · obtain rfl := some.inj hx
        exact ⟨hdest, rfl⟩

/-- An allocated request agrees. -/
lemma agrees_alloc : Agrees s ⟨type, i, World.allocTarget s type⟩ := by
  rw [agrees_iff_copies]
  cases type with
  | auth => exact ⟨rfl, fun _ ↦ rfl, fun k hk ↦ (some.inj hk).symm⟩
  | acct => exact ⟨rfl, nofun, nofun⟩

/-- A socket that is made goes where the next packet would have gone. -/
lemma agrees_makeSocket (hfd : t.fd = none) (h : Agrees s ⟨type, i, t⟩) :
    Agrees s ⟨type, i, t.makeSocket s⟩ := by
  rw [agrees_iff_copies] at h ⊢
  rw [hfd] at h
  exact h

/-- With the IPv4 address and the port of a server, a socket goes to it when it is an IPv4 server or
has the IPv6 address that is held. -/
lemma connectTo_eq_dest_iff (haddr : t.serverAddr = s.addr) (hport : t.serverPort = s.port type) :
    t.connectTo s = s.dest type ↔ HoldsAddr s t.serverIpv6Addr := by
  rw [Target.connectTo, Server.dest, HoldsAddr, haddr, hport]
  cases s.ipv4 with
  | true => exact iff_of_true rfl (.inl rfl)
  | false =>
    constructor
    · intro h
      exact .inr (Dest.inet6.inj h).1.symm
    · rintro (h | h)
      · nomatch h
      · rw [h]

/-- The request of an Accounting-On agrees only by chance with an IPv6 server. -/
lemma agrees_acctOn : Agrees s ⟨.acct, i, Target.acctOn s⟩ ↔ HoldsAddr s 0 := by
  rw [agrees_iff_copies]
  exact (and_iff_left ⟨nofun, nofun⟩).trans (connectTo_eq_dest_iff rfl rfl)

/-- After a failover the request agrees when it holds the address. -/
lemma agrees_realloc : Agrees s ⟨type, i, t.realloc s type⟩ ↔ HoldsAddr s t.serverIpv6Addr := by
  rw [agrees_iff_copies]
  exact (and_iff_left ⟨fun _ ↦ rfl, fun k hk ↦ (some.inj hk).symm⟩).trans
    (connectTo_eq_dest_iff (t := t.realloc s type) rfl rfl)

/-- The socket is the one that would be made now. -/
def SocketOk (s : Server) (r : Request) : Prop :=
  ∀ d, r.target.fd = some d → d = r.target.connectTo s

lemma getD_of_socketOk (h : SocketOk s ⟨type, i, t⟩) :
    t.fd.getD (t.connectTo s) = t.connectTo s := by
  cases hfd : t.fd with
  | none => rfl
  | some d => exact h d hfd

/-- What a send changes: the socket is the one there was, or made, or closed, and the secret stays
or becomes the server's. -/
lemma send_cases (t : Target) (s : Server) (type : ServType) (out : SendOut) :
    (t.send s type out).1.connectTo s = t.connectTo s ∧
      ((t.send s type out).1.fd = t.fd ∨ (t.send s type out).1.fd = none ∨
        (t.send s type out).1.fd = some (t.fd.getD (t.connectTo s))) ∧
      ((t.send s type out).1.secret = t.secret ∨
        (t.send s type out).1.secret = some s.secret) := by
  rw [Target.send]
  split
  · exact ⟨rfl, .inl rfl, .inl rfl⟩
  cases type <;> dsimp only <;> split
  · exact ⟨rfl, .inr (.inl rfl), .inl rfl⟩
  · exact ⟨rfl, .inr (.inr rfl), .inl rfl⟩
  · exact ⟨rfl, .inr (.inl rfl), .inl rfl⟩
  · exact ⟨rfl, .inr (.inr rfl), .inr rfl⟩

variable {out : SendOut}

lemma socketOk_send (h : SocketOk s ⟨type, i, t⟩) :
    SocketOk s ⟨type, i, (t.send s type out).1⟩ := by
  obtain ⟨hto, hfd, -⟩ := send_cases t s type out
  intro d hd
  rw [hto]
  rcases hfd with hfd | hfd | hfd
  · exact h d (hfd.symm.trans hd)
  · nomatch hfd.symm.trans hd
  · rw [← getD_of_socketOk h]
    exact (mem_unique hfd hd).symm

/-- A send keeps the agreement, whatever its outcome. -/
lemma agrees_send (hsock : SocketOk s ⟨type, i, t⟩) (h : Agrees s ⟨type, i, t⟩) :
    Agrees s ⟨type, i, (t.send s type out).1⟩ := by
  obtain ⟨hto, -, hsec⟩ := send_cases t s type out
  rw [agrees_iff_copies, getD_of_socketOk hsock] at h
  rw [agrees_iff_copies, getD_of_socketOk (socketOk_send hsock), hto]
  obtain ⟨hdest, hauth, hsecret⟩ := h
  rcases hsec with hsec | hsec
  · rw [hsec]
    exact ⟨hdest, hauth, hsecret⟩
  · rw [hsec]
    exact ⟨hdest, fun _ ↦ rfl, fun k hk ↦ (some.inj hk).symm⟩

/-- The copies are of what a configuration fixes. -/
lemma dest_addClient {s : Server} {type' : ServType} {d : ℤ} :
    Agrees (s.addClient type' d) r = Agrees s r ∧
      SocketOk (s.addClient type' d) r = SocketOk s r := by
  cases type' <;> exact ⟨rfl, rfl⟩

end One

/-! ### All requests -/

section All

variable {w : World} {r : Request} {k : ℕ}

/-- Every socket is the one that would be made now. -/
def World.SocketsOk (w : World) : Prop := ∀ r ∈ w.reqs, SocketOk (w.servers r.serv) r

variable {type : ServType} {i : ℕ} {d : ℤ}

/-! What does not depend on the clients of a server. -/

section

variable {P : Server → Request → Prop}
  (hP : ∀ {s : Server} {type : ServType} {d : ℤ} {r : Request}, P (s.addClient type d) r = P s r)

include hP

lemma addClient_eq : P ((w.addClient i type d).servers r.serv) r = P (w.servers r.serv) r := by
  rw [World.addClient]
  dsimp only
  by_cases hi : r.serv = i
  · subst hi
    rw [Function.update_self, hP]
  · rw [Function.update_of_ne hi]

lemma forall_addClient (hall : ∀ r ∈ w.reqs, P (w.servers r.serv) r) :
    ∀ r ∈ (w.addClient i type d).reqs, P ((w.addClient i type d).servers r.serv) r :=
  fun r hr ↦ (addClient_eq hP).mpr (hall r hr)

lemma forall_addReq :
    (∀ r' ∈ (w.addReq r).reqs, P ((w.addReq r).servers r'.serv) r') ↔
      (∀ r' ∈ w.reqs, P (w.servers r'.serv) r') ∧ P (w.servers r.serv) r := by
  simp only [World.addReq, addClient_eq hP]
  exact forall_mem_append.trans (and_congr_right fun _ ↦ forall_mem_singleton)

omit hP in
lemma forall_setReq (hall : ∀ r ∈ w.reqs, P (w.servers r.serv) r) (hr : P (w.servers r.serv) r) :
    ∀ r' ∈ (w.setReq k r).reqs, P ((w.setReq k r).servers r'.serv) r' := by
  intro r' hr'
  rcases mem_or_eq_of_mem_set hr' with hr' | rfl
  · exact hall r' hr'
  · exact hr

end

/-- Of the requests after a change, only the new one is in question. -/
lemma allAgree_setReq {r₀ : Request} (hk : w.reqs[k]? = some r₀) (hall : w.AllAgree) :
    (w.setReq k r).AllAgree ↔ Agrees (w.servers r.serv) r :=
  ⟨fun h ↦ h r (mem_set (List.getElem?_eq_some_iff.mp hk).1 r), forall_setReq hall⟩

lemma allAgree_addReq : (w.addReq r).AllAgree ↔ w.AllAgree ∧ Agrees (w.servers r.serv) r :=
  forall_addReq dest_addClient.1

lemma socketsOk_addReq (hall : w.SocketsOk) (hr : SocketOk (w.servers r.serv) r) :
    (w.addReq r).SocketsOk :=
  (forall_addReq dest_addClient.2).mpr ⟨hall, hr⟩

/-- Every step keeps the sockets in place. -/
lemma step_socketsOk (w : World) (e : TargetEvent) (hall : w.SocketsOk) :
    (w.step e).SocketsOk := by
  cases e <;> rw [World.step]
  case others load now => exact hall
  case alloc type =>
    split
    · exact hall
    · exact socketsOk_addReq hall fun d hd ↦ by cases type <;> nomatch hd
  case alloc2 type addr port out =>
    split
    · exact hall
    split
    · exact socketsOk_addReq hall fun d hd ↦ (some.inj hd).symm
    · exact hall
  case acctOn i => exact socketsOk_addReq hall nofun
  case send k out =>
    split
    · exact hall
    · next r hr => exact forall_setReq hall (socketOk_send (hall r (mem_of_getElem? hr)))
  case failover k out =>
    split
    · exact hall
    split
    · exact hall
    split
    · exact hall
    · exact forall_setReq (forall_addClient dest_addClient.2
        (forall_addClient dest_addClient.2 hall)) nofun
  case close k =>
    split
    · exact hall
    · exact forall_setReq hall nofun

/-- **One step keeps the agreement** exactly when it meets the condition. -/
theorem step_allAgree_iff (w : World) (e : TargetEvent) (hsock : w.SocketsOk) (hall : w.AllAgree) :
    (w.step e).AllAgree ↔ w.Turns e := by
  cases e with
  | others load now => exact iff_of_true hall trivial
  | alloc type =>
    refine iff_of_true ?_ trivial
    rw [World.step]
    split
    · exact hall
    · exact allAgree_addReq.mpr ⟨hall, agrees_alloc⟩
  | alloc2 type addr port out =>
    refine iff_of_true ?_ trivial
    rw [World.step]
    split
    · exact hall
    split
    · refine allAgree_addReq.mpr ⟨hall, agrees_makeSocket ?_ agrees_alloc⟩
      cases type <;> rfl
    · exact hall
  | acctOn i =>
    rw [World.step, allAgree_addReq, agrees_acctOn]
    exact and_iff_right hall
  | send k out =>
    refine iff_of_true ?_ trivial
    rw [World.step]
    split
    · exact hall
    · next r hr =>
      have hmem := mem_of_getElem? hr
      exact (allAgree_setReq hr hall).mpr (agrees_send (hsock r hmem) (hall r hmem))
  | failover k out =>
    rw [World.step]
    split
    · next hk => exact iff_of_true hall fun _ r hr ↦ nomatch hk.symm.trans hr
    next r hr =>
    split
    · next hget =>
      refine iff_of_true hall fun _ r' hr' i hi ↦ ?_
      obtain rfl := mem_unique hr hr'
      nomatch hget.symm.trans hi
    next i hi =>
    split
    · next hout => exact iff_of_true hall fun h ↦ (h hout).elim
    next hout =>
    have hr' : ((w.addClient i r.type 1).addClient r.serv r.type (-1)).reqs[k]? = some r := hr
    rw [allAgree_setReq hr'
      (forall_addClient dest_addClient.1 (forall_addClient dest_addClient.1 hall)),
      addClient_eq dest_addClient.1, addClient_eq dest_addClient.1, agrees_realloc]
    constructor
    · intro h _ r' hr' i' hi'
      obtain rfl := mem_unique hr hr'
      obtain rfl := mem_unique hi hi'
      exact h
    · intro h
      exact h hout r hr i hi
  | close k =>
    refine iff_of_true ?_ trivial
    rw [World.step]
    split
    · exact hall
    · next r hr =>
      have hmem := mem_of_getElem? hr
      have hold := hall r hmem
      rw [agrees_iff_copies, getD_of_socketOk (hsock r hmem)] at hold
      exact (allAgree_setReq hr hall).mpr (agrees_iff_copies.mpr hold)

/-- **Destination and secret agree** with the server throughout a run exactly when every failover
and every Accounting-On turns to an IPv4 server or to one whose IPv6 address the request holds. -/
theorem agrees_iff (servers : ℕ → Server) (list : List ℕ) (now : ℕ) (es : List TargetEvent) :
    Always World.step World.AllAgree ⟨servers, list, now, []⟩ es ↔
      Along World.step World.Turns ⟨servers, list, now, []⟩ es :=
  always_iff_along_of_inv (fun w e ↦ step_socketsOk w e) step_allAgree_iff
    nofun nofun

/-- Two IPv6 servers, `fd00::1` with the secret `a` and `fd00::2` with the secret `b`. With equal
ports `__add_server` would take them for one. -/
def twoServers (i : ℕ) : Server where
  ipv4 := false
  addr := 0
  addr6 := if i = 0 then 0xfd000000000000000000000000000001 else 0xfd000000000000000000000000000002
  secret := if i = 0 then [0x61] else [0x62]
  authPort := 1812
  acctPort := if i = 0 then 1813 else 1814
  weight := 1
  backup := false
  reqLimit := 0
  failTimeout := 0
  maxFail := 0
  reqCnt := 0
  queueCnt := 0
  queue0 := []
  queue1 := []
  authCnt := 0
  acctCnt := 0
  failTime := 0
  timeoutCnt := 0
  needFree := false

/-- An Access-Request that is sent to the first of them, and then turned to the second. -/
def failedOver : World :=
  run World.step ⟨twoServers, [0, 1], 1, []⟩ [.alloc .auth, .send 0 .ok, .failover 0 .ok]

/-- The request belongs to the second server now and is signed with its secret, but the next packet
still goes to the first. -/
theorem failedOver_disagrees :
    failedOver.reqs.map (fun r ↦
        (r.serv, (r.target.send (failedOver.servers r.serv) r.type .ok).2.2)) =
      [(1, some ⟨.inet6 0xfd000000000000000000000000000001 1812, some [0x62]⟩)] ∧
    (failedOver.servers 1).dest .auth = .inet6 0xfd000000000000000000000000000002 1812 ∧
    ¬ failedOver.AllAgree := by
  have hsent : failedOver.reqs.map (fun r ↦
        (r.serv, (r.target.send (failedOver.servers r.serv) r.type .ok).2.2)) =
      [(1, some ⟨.inet6 0xfd000000000000000000000000000001 1812, some [0x62]⟩)] := by
    decide +kernel
  have hdest : failedOver.reqs.map (fun r ↦ (failedOver.servers r.serv).dest r.type) =
      [.inet6 0xfd000000000000000000000000000002 1812] := by decide +kernel
  refine ⟨hsent, by decide +kernel, fun hall ↦ ?_⟩
  obtain ⟨r, hr⟩ : ∃ r, failedOver.reqs = [r] := by
    rw [← length_eq_one_iff, ← length_map, hsent]
    rfl
  rw [hr] at hsent hdest
  obtain ⟨hto, -⟩ := (hall r (hr ▸ mem_singleton_self r)).1 .ok _ (Prod.mk.inj (cons.inj hsent).1).2
  have hsame := hto.trans (cons.inj hdest).1
  revert hsame
  decide

end All

end AccelPpp.Radius
