import AccelPpp.Ppp.Fsm
import AccelPpp.Ppp.Options

/-!
# LCP and its options (`ppp/ppp_lcp.c`, `ppp/lcp_opt_*.c`, `ppp/ppp_auth.c`)

LCP drives the machine of `ppp_fsm.c` with five local options: the authentication protocol, the
maximum receive unit, the magic number and the two header compressions. They are listed in the
order in which their modules register, and `send_conf_req` writes them in that order.

* `lcp_layer_down` is empty: its body is commented out. The automaton calls it where it gives up
  on a peer that refuses too often, and nothing happens.
* The authentication protocol is chosen **when a request is built** (`auth_send_conf_req`). A
  Configure-Nak only marks the current one as refused; the pointer `auth` still points to it until
  the next request.
* `ap_session_terminate` sets `ses.terminating` at once, and from then on `lcp_recv` looks at
  Terminate packets only. The layer itself goes away later (`destroyed`).

What the kernel, the random number generator and the other layers answer during one event is in
`LcpEnv`. Everything sent, and the start of the authentication, is appended to `out`.
-/

namespace AccelPpp.Ppp.Lcp

/-! ### The options -/

/-- The five local options. -/
inductive LcpOpt
  | auth
  | mru
  | magic
  | pcomp
  | accomp
  deriving DecidableEq

/-- `CI_MRU`, `CI_AUTH`, `CI_MAGIC`, `CI_PCOMP`, `CI_ACCOMP`. -/
def LcpOpt.ofId (id : UInt8) : Option LcpOpt :=
  match id.toNat with
  | 1 => some .mru
  | 3 => some .auth
  | 5 => some .magic
  | 7 => some .pcomp
  | 8 => some .accomp
  | _ => none

/-- An authentication protocol as the option names it: the protocol number and what
`send_conf_req` of its handler writes after it (the algorithm of CHAP). -/
structure AuthMethod where
  proto : UInt16
  data : List UInt8
  /-- The option fits its length byte. -/
  data_le : data.length ≤ 251
  deriving DecidableEq

/-- The bytes after the header of the option. -/
def AuthMethod.value (m : AuthMethod) : List UInt8 :=
  natBytes 2 m.proto.toNat ++ m.data

/-- The option `auth_send_conf_req` writes. -/
def AuthMethod.opt (m : AuthMethod) : RecvOpt where
  id := 3
  len := .ofNat (4 + m.data.length)
  data := m.value
  len_eq := by
    have := m.data_le
    simp only [AuthMethod.value, List.length_append, length_natBytes, UInt8.toNat_ofNat']
    omega

/-- `struct auth_data_t` -/
structure AuthData where
  method : AuthMethod
  state : OptState
  deriving DecidableEq

/-- `struct auth_option_t`; the pointer `auth` is an index into the list. -/
structure AuthOption where
  state : OptState
  authList : List AuthData
  auth : Option Nat
  deriving DecidableEq

/-- `struct mru_option_t`. `ppp->mtu` is always set together with `mtu`. -/
structure MruOption where
  state : OptState
  mru : Nat
  mtu : Nat
  naked : Bool
  rejected : Bool
  deriving DecidableEq

/-- `struct magic_option_t`. `lcp->magic` is always set together with `magic`. -/
structure MagicOption where
  state : OptState
  magic : Nat
  deriving DecidableEq

/-- `struct pcomp_option_t`, `struct accomp_option_t`. Bit 0: the server asks for it, bit 1: the
peer may ask for it. -/
structure CompOption where
  state : OptState
  comp : UInt32
  deriving DecidableEq

/-! ### The layer -/

/-- What LCP sends and what it tells the rest of the session. -/
inductive LcpOut
  | confReq (id : UInt8) (opts : List RecvOpt)
  | confAck (id : UInt8) (body : List UInt8)
  | confNak (id : UInt8) (opts : List UInt8)
  | confRej (id : UInt8) (opts : List UInt8)
  | codeRej (id : UInt8) (body : List UInt8)
  | termReq (id : UInt8)
  | termAck (id : UInt8)
  | protoRej (id : UInt8) (proto : UInt16)
  | echoReq (id : UInt8)
  | echoRep (id : UInt8)
  /-- `h->start` of the authentication protocol -/
  | authStart (m : AuthMethod)
  /-- `ppp_layer_finished` -/
  | layerFinished
  /-- `ap_session_terminate` -/
  | terminate
  deriving DecidableEq

/-- `struct ppp_lcp_t` without the machine it embeds, with the parts of the session it reads. -/
structure PppLcp where
  auth : AuthOption
  mru : MruOption
  magic : MagicOption
  pcomp : CompOption
  accomp : CompOption
  /-- `ropt_list`, each received option with its verdict. -/
  roptList : List (RecvOpt × OptState)
  /-- `echo_timer.tpd` is set. -/
  echoTimer : Bool
  echoSent : Nat
  started : Bool
  /-- `ses.terminating` -/
  terminating : Bool
  /-- The layer has been freed. -/
  destroyed : Bool
  /-- The body of the packet in `ppp->buf`. -/
  buf : List UInt8
  out : List LcpOut
  deriving DecidableEq

/-- The configuration. -/
structure LcpConf where
  fsm : FsmConf := {}
  /-- The registered authentication protocols, in the order of registration. -/
  authHandlers : List AuthMethod
  /-- `conf_noauth` -/
  confNoauth : Bool := false
  /-- The values `mru_init` computes. -/
  mru : Nat := 1492
  mtu : Nat := 1492
  /-- `conf_min_mtu` -/
  confMinMtu : Nat := 100
  /-- The smaller of `ctrl->max_mtu` and `conf_max_mtu`. -/
  maxMtu : Nat := 1492
  /-- `conf_pcomp`, `conf_accomp` -/
  confPcomp : UInt32 := 0
  confAccomp : UInt32 := 0
  /-- `conf_echo_interval` is not 0. -/
  confEcho : Bool := false
  confEchoFailure : Nat := 3

/-- What `send_echo_request` finds in the statistics of the interface. -/
inductive EchoCheck
  /-- Packets have arrived since the last time. -/
  | traffic
  /-- `conf_echo_timeout` has not passed yet. -/
  | early
  | due
  deriving DecidableEq

/-- What the kernel, `random()` and the other layers answer during one event. -/
structure LcpEnv where
  /-- What `nzmagic` returns. -/
  nzmagic : Nat := 1
  /-- The `ioctl`s of `pcomp_recv_conf_ack` and `accomp_recv_conf_ack` fail. -/
  ioctlFails : Bool := false
  /-- `connect_ppp_channel` fails in `auth_layer_start`. -/
  connectFails : Bool := false
  /-- A layer whose protocol the peer rejects terminates the session. -/
  protoRejFatal : Bool := false
  echo : EchoCheck := .due

/-- LCP with its machine. -/
abbrev LcpFsm := PppFsm PppLcp

def emit (o : LcpOut) (s : LcpFsm) : LcpFsm :=
  { s with ld := { s.ld with out := s.ld.out ++ [o] } }

/-! ### The authentication option -/

section

variable (a : AuthOption) (conf : LcpConf) (env : LcpEnv) (s : LcpFsm)

/-- `auth_opt->auth` -/
def AuthOption.current : Option AuthData :=
  a.auth.bind fun i ↦ a.authList[i]?

/-- The first method the peer has not refused. -/
def AuthOption.firstOffer : Option Nat :=
  a.authList.findIdx? fun d ↦ d.state ≠ .nak && d.state ≠ .rej

/-- The choice at the head of `auth_send_conf_req`: a new one if there is none or if the peer has
refused it. -/
def AuthOption.select : AuthOption :=
  match a.current with
  | some d => if d.state = .nak then { a with auth := a.firstOffer <|> a.auth } else a
  | none => { a with auth := a.firstOffer <|> a.auth }

/-- `auth_send_conf_req` -/
def authSendConfReq (a : AuthOption) : AuthOption × Option RecvOpt :=
  if a.authList.isEmpty || conf.confNoauth then (a, none)
  else (a.select, a.select.current.map fun d ↦ d.method.opt)

/-- `auth_recv_conf_nak` and `auth_recv_conf_rej`, which have the same body. -/
def authRefused : AuthOption × Int :=
  match a.auth with
  | none => (a, -1)
  | some i =>
    let a : AuthOption :=
      { a with authList := a.authList.modify i fun d ↦ { d with state := .nak } }
    if a.authList.any fun d ↦ d.state ≠ .nak then (a, 0) else (a, -1)

/-! ### The other options -/

/-- The option `mru_send_conf_req` writes. -/
def mruSendConfReq (m : MruOption) : Option RecvOpt :=
  if m.naked || m.rejected then none else some ⟨1, 4, natBytes 2 m.mru, by simp⟩

/-- `mru_recv_conf_req` -/
def mruRecvConfReq (m : MruOption) (o : RecvOpt) : MruOption × OptState :=
  if o.len ≠ 4 then (m, .rej)
  else if o.val < conf.confMinMtu || o.val > conf.maxMtu then (m, .nak)
  else ({ m with mtu := o.val }, .ack)

section

variable (m : MagicOption) (c : CompOption) (l : PppLcp) (o : RecvOpt) (data : List UInt8)

/-- The option `magic_send_conf_req` writes. -/
def magicSendConfReq : Option RecvOpt :=
  if m.magic = 0 then none else some ⟨5, 6, natBytes 4 m.magic, by simp⟩

/-- `magic_recv_conf_req` -/
def magicRecvConfReq : OptState :=
  if o.len ≠ 6 then .rej
  else if m.magic ≠ 0 && m.magic = o.val then .nak
  else .ack

/-- `magic_recv_conf_nak` -/
def magicRecvConfNak : MagicOption × Int :=
  if o.len ≠ 6 then (m, -1)
  else if m.magic ≠ 0 && m.magic = o.val then (m, -1)
  else ({ m with magic := if o.val ≠ 0 then o.val else env.nzmagic }, 0)

/-- `pcomp_send_conf_req`, `accomp_send_conf_req`, with the identifier of the option. -/
def compSendConfReq (id : UInt8) (c : CompOption) : Option RecvOpt :=
  if c.comp &&& 1 ≠ 0 then some ⟨id, 2, [], rfl⟩ else none

/-- `pcomp_recv_conf_req`, `accomp_recv_conf_req` -/
def compRecvConfReq : OptState :=
  if o.len ≠ 2 then .rej else if c.comp &&& 2 ≠ 0 then .ack else .rej

/-- `pcomp_recv_conf_rej`, `accomp_recv_conf_rej` -/
def compRecvConfRej : CompOption × Int :=
  ({ c with comp := c.comp &&& ~~~1 }, 0)

/-- `pcomp_recv_conf_nak`, `accomp_recv_conf_nak` -/
def compRecvConfNak : CompOption × Int :=
  if o.len ≠ 2 then (c, -1) else compRecvConfRej c

/-! ### Configure-Requests of the peer -/

/-- `lopt->state = r` -/
def setOptState (r : OptState) (l : PppLcp) : LcpOpt → PppLcp
  | .auth => { l with auth := { l.auth with state := r } }
  | .mru => { l with mru := { l.mru with state := r } }
  | .magic => { l with magic := { l.magic with state := r } }
  | .pcomp => { l with pcomp := { l.pcomp with state := r } }
  | .accomp => { l with accomp := { l.accomp with state := r } }

/-- `recv_conf_req` of one local option. The server never lets a peer authenticate it:
`auth_recv_conf_req` rejects. -/
def lcpOptRecvConfReq : LcpOpt → PppLcp × OptState
  | .auth => (l, .rej)
  | .mru => ({ l with mru := (mruRecvConfReq conf l.mru o).1 }, (mruRecvConfReq conf l.mru o).2)
  | .magic => (l, magicRecvConfReq l.magic o)
  | .pcomp => (l, compRecvConfReq l.pcomp o)
  | .accomp => (l, compRecvConfReq l.accomp o)

/-- The variables of the loop over the received options. -/
structure ReqAcc where
  lcp : PppLcp
  ret : OptState
  /-- The options looked at so far, with their verdicts. -/
  done : List (RecvOpt × OptState)

/-- One turn of the loop. -/
def lcpReqStep (acc : ReqAcc) (o : RecvOpt) : ReqAcc :=
  match LcpOpt.ofId o.id with
  | some k =>
    let (l, r) := lcpOptRecvConfReq conf acc.lcp o k
    { lcp := setOptState r l k, ret := r.worst acc.ret, done := acc.done ++ [(o, r)] }
  | none => { acc with ret := .rej, done := acc.done ++ [(o, .rej)] }

/-- `lopt->state = LCP_OPT_NONE` for every local option. -/
def resetOptStates : PppLcp :=
  [LcpOpt.auth, .mru, .magic, .pcomp, .accomp].foldl (setOptState .none) l

/-- `lcp_recv_conf_req` -/
def lcpRecvConfReq : LcpFsm × OptState :=
  match parseOpts data with
  | none => (s, .fail)
  | some opts =>
    let acc := opts.foldl (lcpReqStep conf) ⟨resetOptStates s.ld, .ack, []⟩
    ({ s with ld := { acc.lcp with roptList := acc.done } }, acc.ret)

/-- `lcp_free_conf_req` -/
def lcpFreeConfReq : LcpFsm :=
  { s with ld := { s.ld with roptList := [] } }

/-! ### Answers of the peer -/

/-- `recv_conf_nak` of one local option. -/
def lcpOptRecvConfNak : LcpOpt → PppLcp × Int
  | .auth => ({ l with auth := (authRefused l.auth).1 }, (authRefused l.auth).2)
  | .mru => ({ l with mru := { l.mru with naked := true } }, 0)
  | .magic =>
    ({ l with magic := (magicRecvConfNak env l.magic o).1 }, (magicRecvConfNak env l.magic o).2)
  | .pcomp => ({ l with pcomp := (compRecvConfNak l.pcomp o).1 }, (compRecvConfNak l.pcomp o).2)
  | .accomp =>
    ({ l with accomp := (compRecvConfNak l.accomp o).1 }, (compRecvConfNak l.accomp o).2)

/-- `recv_conf_rej` of one local option. -/
def lcpOptRecvConfRej (_ : RecvOpt) : LcpOpt → PppLcp × Int
  | .auth => ({ l with auth := (authRefused l.auth).1 }, (authRefused l.auth).2)
  | .mru => ({ l with mru := { l.mru with rejected := true } }, 0)
  | .magic => ({ l with magic := { l.magic with magic := 0 } }, 0)
  | .pcomp => ({ l with pcomp := (compRecvConfRej l.pcomp).1 }, (compRecvConfRej l.pcomp).2)
  | .accomp => ({ l with accomp := (compRecvConfRej l.accomp).1 }, (compRecvConfRej l.accomp).2)

/-- `recv_conf_ack` of one local option; `mru_recv_conf_ack` sets `ppp->mru`, which nothing
here reads. -/
def lcpOptRecvConfAck (_ : RecvOpt) : LcpOpt → PppLcp × Int
  | .pcomp | .accomp => (l, if env.ioctlFails then -1 else 0)
  | _ => (l, 0)

/-- One turn of the loops below; `h` is the handler of the local option. -/
def lcpAnswerStep (h : PppLcp → RecvOpt → LcpOpt → PppLcp × Int) (acc : PppLcp × Int)
    (o : RecvOpt) : PppLcp × Int :=
  match LcpOpt.ofId o.id with
  | some k => ((h acc.1 o k).1, if (h acc.1 o k).2 ≠ 0 then -1 else acc.2)
  | none => acc

/-- The loop that `lcp_recv_conf_rej`, `lcp_recv_conf_nak` and `lcp_recv_conf_ack` share, over the
options before the first malformed one. `lcp_recv` has checked the identifier. -/
def lcpRecvAnswer (h : PppLcp → RecvOpt → LcpOpt → PppLcp × Int) (s : LcpFsm) (data : List UInt8) :
    LcpFsm × Int :=
  let (opts, ok) := scanOpts data
  let (l, res) := opts.foldl (lcpAnswerStep h) (s.ld, 0)
  ({ s with ld := l }, if ok then res else -1)

/-- `lcp_recv_conf_rej` -/
def lcpRecvConfRej : LcpFsm → List UInt8 → LcpFsm × Int :=
  lcpRecvAnswer lcpOptRecvConfRej

/-- `lcp_recv_conf_nak` -/
def lcpRecvConfNak : LcpFsm → List UInt8 → LcpFsm × Int :=
  lcpRecvAnswer (lcpOptRecvConfNak env)

/-- `lcp_recv_conf_ack` -/
def lcpRecvConfAck : LcpFsm → List UInt8 → LcpFsm × Int :=
  lcpRecvAnswer (lcpOptRecvConfAck env)

/-! ### What the machine sends -/

/-- The options of a request; `authOpt` is what `auth_send_conf_req` has written. -/
def confReqOpts (authOpt : Option RecvOpt) (l : PppLcp) : List RecvOpt :=
  [authOpt, mruSendConfReq l.mru, magicSendConfReq l.magic, compSendConfReq 7 l.pcomp,
    compSendConfReq 8 l.accomp].filterMap fun o ↦ o

/-- `send_conf_req`. No handler of the five options returns a negative length. -/
def sendConfReq : LcpFsm × Int :=
  let (a, authOpt) := authSendConfReq conf s.ld.auth
  (emit (.confReq s.id (confReqOpts authOpt s.ld)) { s with ld := { s.ld with auth := a } }, 0)

/-- `send_conf_ack`: the request in `ppp->buf` goes back with another code. -/
def sendConfAck : LcpFsm :=
  emit (.confAck s.recvId s.ld.buf) s

/-- `send_conf_nak`, a loop over the **local** options. Only the receive unit and the magic number
are ever naked. -/
def sendConfNak : LcpFsm :=
  let mru := if s.ld.mru.state = .nak then [1, 4] ++ natBytes 2 s.ld.mru.mtu else []
  let magic := if s.ld.magic.state = .nak then [5, 6] ++ natBytes 4 env.nzmagic else []
  emit (.confNak s.recvId (mru ++ magic)) s

/-- `send_conf_rej`, a loop over the received options. -/
def sendConfRej : LcpFsm :=
  let rejected := s.ld.roptList.filter fun ro ↦ ro.2 = .rej
  emit (.confRej s.recvId (rejected.flatMap fun ro ↦ ro.1.bytes)) s

/-- `send_code_rej` -/
def sendCodeRej : LcpFsm :=
  emit (.codeRej s.recvId s.ld.buf) s

/-- `send_term_req` -/
def sendTermReq : LcpFsm :=
  let s := incId s
  emit (.termReq s.id) s

/-- `send_term_ack` -/
def sendTermAck : LcpFsm :=
  emit (.termAck s.recvId) s

/-! ### The life of the layer -/

/-- `start_echo` -/
def startEcho : LcpFsm :=
  { s with ld := { s.ld with echoTimer := s.ld.echoTimer || conf.confEcho } }

/-- `stop_echo` -/
def stopEcho : LcpFsm :=
  { s with ld := { s.ld with echoTimer := false } }

/-- `destablish_ppp` -/
def destablish : LcpFsm :=
  { s with ld := { s.ld with destroyed := true } }

/-- `ap_session_terminate` while the layer is not started: `lcp_layer_finish` only leaves a call
for later. A second call of `ap_session_terminate` destroys the session. -/
def terminateIdle : LcpFsm :=
  if s.ld.terminating then destablish s
  else emit .terminate { s with ld := { s.ld with terminating := true } }

/-- `lcp_layer_finished`. The layer is not started when it terminates the session. -/
def lcpLayerFinished : LcpFsm :=
  let s := stopEcho s
  if s.ld.started then
    let s : LcpFsm := { s with ld := { s.ld with started := false } }
    if s.ld.terminating then emit .layerFinished s else terminateIdle s
  else terminateIdle s

/-- The callbacks `lcp_layer_init` installs, but for `layer_up`. -/
def lcpBase : FsmOps PppLcp where
  layerUp := id
  layerDown := id
  layerStarted := id
  layerFinished := lcpLayerFinished
  sendConfReq := sendConfReq conf
  sendConfAck := sendConfAck
  sendConfNak := sendConfNak env
  sendConfRej := sendConfRej
  sendCodeRej := sendCodeRej
  sendTermReq := sendTermReq
  sendTermAck := sendTermAck

/-- `ap_session_terminate` with `hard` 0, down to `lcp_layer_finish`: a started layer closes its
machine. -/
def apSessionTerminate : LcpFsm :=
  if s.ld.terminating then destablish s
  else if s.ld.started then
    let s := emit .terminate { s with ld := { s.ld with terminating := true } }
    pppFsmClose (lcpBase conf env) (stopEcho s)
  else terminateIdle s

/-- `auth_layer_start` -/
def authLayerStart : LcpFsm :=
  if conf.confNoauth && env.connectFails then apSessionTerminate conf env s
  else
    match s.ld.auth.current with
    | some d => emit (.authStart d.method) s
    | none => s

/-- `lcp_layer_up` -/
def lcpLayerUp : LcpFsm :=
  startEcho conf <|
    if s.ld.started then s
    else authLayerStart conf env { s with ld := { s.ld with started := true } }

/-- The callbacks `lcp_layer_init` installs. -/
def lcpOps : FsmOps PppLcp :=
  { lcpBase conf env with layerUp := lcpLayerUp conf env }

/-! ### Entry points -/

/-- The codes of `lcp_recv`. -/
inductive LcpCode
  | cp (c : CpCode)
  | protoRej
  | echoReq
  | echoRep
  | discardReq
  | ident
  deriving DecidableEq

/-- The code byte. -/
def LcpCode.ofByte (b : UInt8) : LcpCode :=
  match b.toNat with
  | 8 => .protoRej
  | 9 => .echoReq
  | 10 => .echoRep
  | 11 => .discardReq
  | 12 => .ident
  | _ => .cp (.ofByte b)

/-- A packet that has passed the length checks of `lcp_recv`. -/
structure LcpPacket where
  code : LcpCode
  id : UInt8
  body : List UInt8
  deriving DecidableEq

/-- The length checks at the head of `lcp_recv`. -/
def readLcp : List UInt8 → Option LcpPacket
  | _ :: _ :: code :: id :: hi :: lo :: rest =>
    let len := hi.toNat * 256 + lo.toNat
    if len < 4 ∨ len > rest.length + 4 then none
    else some ⟨.ofByte code, id, rest.take (len - 4)⟩
  | _ => none

/-- The `CONFREQ` case of `lcp_recv`. A started layer does not negotiate again. -/
def lcpConfReq : LcpFsm :=
  let (s, r) := lcpRecvConfReq conf s data
  if s.ld.started then
    if r = .ack then lcpFreeConfReq (sendConfAck s)
    else apSessionTerminate conf env (lcpFreeConfReq s)
  else
    match r with
    | .ack => lcpFreeConfReq (pppFsmRecvConfReqAck (lcpOps conf env) s)
    | .nak => lcpFreeConfReq (pppFsmRecvConfReqNak (lcpOps conf env) s)
    | .rej => lcpFreeConfReq (pppFsmRecvConfReqRej (lcpOps conf env) s)
    | .fail => apSessionTerminate conf env (lcpFreeConfReq s)
    | _ => lcpFreeConfReq s

/-- `send_echo_reply` -/
def sendEchoReply : LcpFsm :=
  if s.ld.buf.length + 4 > s.ld.mru.mtu then s
  else emit (.echoRep s.recvId) { s with ld := { s.ld with echoSent := 0 } }

/-- `lcp_recv_echo_repl` -/
def lcpRecvEchoRepl : LcpFsm :=
  let magic := data.foldl (fun n b ↦ n * 256 + b.toNat) 0
  let s :=
    if data.length = 4 && s.ld.magic.magic ≠ 0 && magic = s.ld.magic.magic then
      apSessionTerminate conf env s
    else s
  { s with ld := { s.ld with echoSent := 0 } }

end

/-- The `switch` of `lcp_recv`. -/
def lcpDispatch (p : LcpPacket) : LcpFsm :=
  let ops := lcpOps conf env
  -- an answer to our request: its options first, then the machine
  let answer (res : LcpFsm × Int) (f : LcpFsm → LcpFsm) : LcpFsm :=
    if res.2 ≠ 0 then apSessionTerminate conf env res.1 else f res.1
  match p.code with
  | .cp .confReq => lcpConfReq conf env s p.body
  | .cp .confAck => answer (lcpRecvConfAck env s p.body) (pppFsmRecvConfAck ops)
  | .cp .confNak => answer (lcpRecvConfNak env s p.body) (pppFsmRecvConfRej ops)
  | .cp .confRej => answer (lcpRecvConfRej s p.body) (pppFsmRecvConfRej ops)
  | .cp .termReq => apSessionTerminate conf env (pppFsmRecvTermReq ops s)
  | .cp .termAck => pppFsmRecvTermAck ops s
  | .cp .codeRej => pppFsmRecvCodeRejBad ops s
  | .cp .unknown => pppFsmRecvUnk ops s
  | .echoReq => if p.body.length < 4 then s else sendEchoReply s
  | .echoRep => if p.body.length < 4 then s else lcpRecvEchoRepl conf env s p.body
  | .protoRej =>
    if p.body.length < 2 then s
    else if env.protoRejFatal then apSessionTerminate conf env s
    else s
  | .discardReq | .ident => s

/-- The codes that answer a request of ours. -/
def LcpCode.isAnswer (c : LcpCode) : Bool :=
  c = .cp .confAck || c = .cp .confNak || c = .cp .confRej

/-- The codes a session that is being terminated still looks at. -/
def LcpCode.isTerm (c : LcpCode) : Bool :=
  c = .cp .termAck || c = .cp .termReq

/-- `lcp_recv` drops the packet. -/
def lcpDrops (p : LcpPacket) : Bool :=
  p.code.isAnswer && (p.id ≠ s.id || s.ld.started) ||
    s.fsmState = .initial || s.fsmState = .closed || s.ld.terminating && !p.code.isTerm

/-- `lcp_recv` on the received bytes. -/
def lcpRecv (bytes : List UInt8) : LcpFsm :=
  match readLcp bytes with
  | none => s
  | some p =>
    if lcpDrops s p then s
    else lcpDispatch conf env { s with recvId := p.id, ld := { s.ld with buf := p.body } } p

/-- `send_echo_request`, the expiry of the echo timer. The identifier is the one of the
requests. -/
def sendEchoRequest (conf : LcpConf) (s : LcpFsm) : LcpFsm :=
  match env.echo with
  | .traffic => { s with ld := { s.ld with echoSent := 0 } }
  | .early => s
  | .due =>
    -- the peer is gone: a hard termination
    if s.ld.echoSent > conf.confEchoFailure then
      destablish (emit .terminate { s with ld := { s.ld with terminating := true } })
    else
      incId (emit (.echoReq s.id) { s with ld := { s.ld with echoSent := s.ld.echoSent + 1 } })

/-- `lcp_send_proto_rej`, for a frame of a protocol nobody handles. It takes its identifier from
the counter of the requests. -/
def lcpSendProtoRej (proto : UInt16) (s : LcpFsm) : LcpFsm :=
  let s := incId s
  emit (.protoRej s.id proto) s

/-- `lcp_layer_init` and `lcp_options_init`. -/
def lcpInit (rnd : UInt8) (magic : Nat) : LcpFsm :=
  pppFsmInit conf.fsm rnd
    { auth := ⟨.none, if conf.confNoauth then [] else conf.authHandlers.map fun m ↦ ⟨m, .none⟩,
      none⟩
      mru := ⟨.none, conf.mru, conf.mtu, false, false⟩
      magic := ⟨.none, magic⟩
      pcomp := ⟨.none, conf.confPcomp⟩
      accomp := ⟨.none, conf.confAccomp⟩
      roptList := []
      echoTimer := false
      echoSent := 0
      started := false
      terminating := false
      destroyed := false
      buf := []
      out := [] }

/-- `lcp_layer_start` -/
def lcpLayerStart : LcpFsm :=
  (pppFsmOpen (lcpOps conf env) (pppFsmLowerUp (lcpOps conf env) s).1).1

/-- What happens to the layer once it is started. -/
inductive LcpEvent
  /-- An LCP packet. -/
  | recv (env : LcpEnv) (bytes : List UInt8)
  /-- The restart timer. -/
  | timeout (env : LcpEnv)
  /-- The echo timer. -/
  | echoTimeout (env : LcpEnv)
  /-- A frame of an unknown protocol. -/
  | protoRej (proto : UInt16)
  /-- `ap_session_terminate` from another part of the program. -/
  | terminate (env : LcpEnv) (hard : Bool)
  /-- `ppp_layer_finished` of the last layer. -/
  | destablish

/-- One event. -/
def lcpStep (e : LcpEvent) : LcpFsm :=
  if s.ld.destroyed then s
  else
    match e with
    | .recv env bytes => lcpRecv conf env s bytes
    | .timeout env => if s.restartTimer then restartTimerFunc (lcpOps conf env) s else s
    | .echoTimeout env => if s.ld.echoTimer then sendEchoRequest env conf s else s
    | .protoRej proto => lcpSendProtoRej proto s
    | .terminate env hard =>
      if hard then Lcp.destablish { s with ld := { s.ld with terminating := true } }
      else apSessionTerminate conf env s
    | .destablish => if s.ld.terminating then Lcp.destablish s else s

/-- The layer when it starts: the first request has been sent. -/
def lcpStart (rnd : UInt8) (magic : Nat) : LcpFsm :=
  lcpLayerStart conf {} (lcpInit conf rnd magic)

end

end AccelPpp.Ppp.Lcp
