import AccelPpp.Ppp.Fsm
import AccelPpp.Ppp.IpOptions

/-!
# The IPCP layer (`ppp/ppp_ipcp.c`, `ppp/ipcp_opt_ipaddr.c`)

`Ncp` and `IpOptions` judge one Configure-Request. This module is the layer around it: the packets
the machine sends through its callbacks, `ipcp_recv` with all its codes, and the other entry points.
Three things make the layer different from CCP.

* **The address is fetched late.** A layer that is not passive calls `alloc_ip` when it starts, for
  its own Configure-Request; a passive layer (`ipv4=allow`, the default) calls it when the first
  request of the peer arrives, from the handler of the address option or, if the request has none,
  from the Configure-Request the layer then sends. `alloc_ip` stores the address in the session
  *before* it looks whether the address may be used. Each refusal is recorded in `out`.
* **Acknowledgements can be withheld.** While CCP is still negotiating, `send_conf_ack` keeps the
  packet in `delay_ack_buf`, and `ipcp_ccp_started` sends it later.
* **Termination is immediate.** `ap_session_terminate` calls `ipcp_layer_finish`, which sets the
  machine to Closed from within whatever is running. `stop_time` is set there and nowhere else, so
  one flag stands for both.
-/

namespace AccelPpp.Ppp.Ipcp

open Ncp

/-- `IPV4_DENY`, `IPV4_ALLOW`, `IPV4_PREFERE`, `IPV4_REQUIRE`. -/
inductive Ipv4Mode
  | deny
  | allow
  | prefere
  | require
  deriving DecidableEq

/-- What IPCP sends, what it tells the session, and what `alloc_ip` has refused. -/
inductive IpcpOut
  | confReq (id : UInt8) (addr : Nat)
  | confAck (id : UInt8) (opts : List UInt8)
  | confNak (id : UInt8) (opts : List UInt8)
  | confRej (id : UInt8) (opts : List UInt8)
  | termReq (id : UInt8)
  | termAck (id : UInt8)
  /-- `lcp_send_proto_rej` -/
  | protoRej
  /-- `ppp_layer_started` -/
  | layerStarted
  /-- `ppp_layer_passive` -/
  | layerPassive
  /-- `ap_session_terminate` -/
  | terminate
  /-- `alloc_ip` has found this address and returned `IPCP_OPT_FAIL`. -/
  | refused (ip : Ipv4)
  deriving DecidableEq

/-- `struct ppp_ipcp_t`, without the machine it embeds, and what it uses of the session. -/
structure PppIpcp where
  /-- `ld.passive` -/
  passive : Bool
  starting : Bool
  started : Bool
  /-- `ses.terminating` -/
  terminating : Bool
  /-- The timer of a passive layer is armed. -/
  timeout : Bool
  /-- The local options, with `ses.ipv4`. -/
  options : IpcpState
  /-- `ropt_list`, each received option with its verdict. -/
  roptList : List (RecvOpt × OptState)
  delayAck : Bool
  /-- The identifier and the body of the packet in `delay_ack_buf`. -/
  delayAckBuf : Option (UInt8 × List UInt8)
  /-- The body of the packet in `ppp->buf`. -/
  buf : List UInt8
  /-- Everything sent so far. -/
  out : List IpcpOut
  deriving DecidableEq

/-- The configuration. -/
structure IpcpConf where
  /-- `conf_ipv4` -/
  confIpv4 : Ipv4Mode := .allow
  fsm : FsmConf := {}

/-- What the pools, CCP and the session answer during one event. -/
structure IpcpEnv where
  /-- What `alloc_ip` finds, if it is called. No event calls it twice. -/
  alloc : Alloc Ipv4 := .empty
  /-- The session is terminated while a request is judged (by a hook of the address pools). -/
  stopTime : Bool := false
  /-- `ccp_ipcp_started`: CCP is neither passive nor started. -/
  ccpNegotiates : Bool := false
  /-- `ppp_layer_started` or `ppp_layer_passive` brings the session up, and that fails. -/
  activateFails : Bool := false
  /-- `ses.state == AP_STATE_STARTING` -/
  sesStarting : Bool := true

/-- IPCP with its machine. -/
abbrev IpcpFsm := PppFsm PppIpcp

def emit (o : IpcpOut) (s : IpcpFsm) : IpcpFsm :=
  { s with ld := { s.ld with out := s.ld.out ++ [o] } }

section

variable (conf : IpcpConf) (env : IpcpEnv) (s : IpcpFsm) (data : List UInt8)

/-- `ap_session_terminate` with `hard` 0, down to `ipcp_layer_finish`. -/
def apSessionTerminate : IpcpFsm :=
  if s.ld.terminating then emit .terminate s
  else
    let s := emit .terminate { s with ld := { s.ld with terminating := true } }
    if s.ld.starting then setState .closed s else s

/-- `ppp_layer_started`, `ppp_layer_passive`: the session may come up, and fail to. -/
def layerSettled (o : IpcpOut) (s : IpcpFsm) : IpcpFsm :=
  if env.activateFails then apSessionTerminate (emit o s) else emit o s

/-! ### The callbacks of the machine -/

/-- `__ipcp_layer_up` -/
def ipcpLayerUpNow : IpcpFsm :=
  if s.ld.started then s
  else layerSettled env .layerStarted { s with ld := { s.ld with started := true } }

/-- `ipcp_layer_up` -/
def ipcpLayerUp : IpcpFsm :=
  if s.ld.delayAck then s else ipcpLayerUpNow env s

/-- `ipcp_layer_finished` -/
def ipcpLayerFinished : IpcpFsm :=
  setState .closed <|
    if ¬ s.ld.started then
      if conf.confIpv4 = .require then apSessionTerminate s
      else layerSettled env .layerPassive { s with ld := { s.ld with passive := true } }
    else if ¬ s.ld.terminating then apSessionTerminate s
    else s

/-- `ses.ipv4 = ip` -/
def setIpv4 (ip : Ipv4) (s : IpcpFsm) : IpcpFsm :=
  { s with ld := { s.ld with options := { s.ld.options with ipv4 := some ip } } }

/-- `send_conf_req` with `ipaddr_send_conf_req`; the other options send nothing. -/
def sendConfReq : IpcpFsm × Int :=
  match s.ld.options.ipv4 with
  | some ip => (emit (.confReq s.id ip.addr) s, 0)
  | none =>
    match env.alloc with
    | .ok ip => (emit (.confReq s.id ip.addr) (setIpv4 ip s), 0)
    | .refused ip => (emit (.refused ip) (setIpv4 ip s), -1)
    | .empty => if conf.confIpv4 ≠ .require then (pppFsmClose2 s, 0) else (s, -1)

/-- `send_conf_ack`: the request in `ppp->buf` goes back with another code, now or later. -/
def sendConfAck : IpcpFsm :=
  if s.ld.delayAck then
    { s with ld := { s.ld with delayAckBuf := some (s.recvId, s.ld.buf) } }
  else emit (.confAck s.recvId s.ld.buf) s

/-- `send_conf_nak`, a loop over the received options. -/
def sendConfNak : IpcpFsm :=
  emit (.confNak s.recvId (nakOptions (ipcpTable env.alloc) s.ld.options s.ld.roptList)) s

/-- `send_conf_rej` -/
def sendConfRej : IpcpFsm :=
  let rejected := s.ld.roptList.filter fun ro ↦ ro.2 = .rej
  emit (.confRej s.recvId (rejected.flatMap fun ro ↦ ro.1.bytes)) s

/-- `send_term_req` -/
def sendTermReq : IpcpFsm :=
  let s := incId s
  emit (.termReq s.id) s

/-- `send_term_ack` -/
def sendTermAck : IpcpFsm :=
  emit (.termAck s.recvId) s

/-- The callbacks `ipcp_layer_init` installs, but for `layer_down`. There is no `send_code_rej`. -/
def ipcpBase : FsmOps PppIpcp where
  layerUp := ipcpLayerUp env
  layerDown := id
  layerStarted := id
  layerFinished := ipcpLayerFinished conf env
  sendConfReq := sendConfReq conf env
  sendConfAck := sendConfAck
  sendConfNak := sendConfNak env
  sendConfRej := sendConfRej
  sendCodeRej := id
  sendTermReq := sendTermReq
  sendTermAck := sendTermAck

/-- The callbacks `ipcp_layer_init` installs. `ipcp_layer_down` is `ppp_fsm_close`, whose own call
of `layer_down` finds the machine in Closing and does nothing. -/
def ipcpOps : FsmOps PppIpcp :=
  { ipcpBase conf env with layerDown := pppFsmClose (ipcpBase conf env) }

/-! ### Received packets -/

/-- `alloc_ip` was called, found an address and refused it. -/
def noteRefusal (alloc : Alloc Ipv4) (before after : IpcpState) (s : IpcpFsm) : IpcpFsm :=
  match before.ipv4, after.ipv4, alloc with
  | none, some _, .refused ip => emit (.refused ip) s
  | _, _, _ => s

/-- `ipaddr_recv_conf_req` sets `delay_ack` each time it acknowledges the address. -/
def updateDelayAck (ropts : List (RecvOpt × OptState)) (s : IpcpFsm) : IpcpFsm :=
  if ropts.any fun ro ↦ IpcpOpt.ofId ro.1.id = some .addr && ro.2 = .ack then
    { s with ld := { s.ld with delayAck := env.ccpNegotiates } }
  else s

/-- `ipcp_recv_conf_req`; the verdict `none` is the result 0. The session may be terminated from
within a handler, or because there is no address and the configuration requires one. -/
def ipcpRecvConfReq : IpcpFsm × OptState :=
  let (options, res) := recvConfReq (ipcpTable env.alloc) env.stopTime s.ld.options data
  let s := noteRefusal env.alloc s.ld.options options { s with ld := { s.ld with options } }
  let s := if env.stopTime then apSessionTerminate s else s
  match res with
  | .verdict r ropts =>
    (updateDelayAck env ropts { s with ld := { s.ld with roptList := ropts } }, r)
  | .termAck => (sendTermAck s, .none)
  | .close =>
    (if conf.confIpv4 = .require then apSessionTerminate s else emit .protoRej s, .none)
  | .stopped => (s, .nak)

/-- `ipcp_free_conf_req` -/
def ipcpFreeConfReq : IpcpFsm :=
  { s with ld := { s.ld with roptList := [] } }

/-- A passive layer starts to negotiate when the first request arrives. The result of
`ppp_fsm_open` is dropped. -/
def ipcpLeavePassive : IpcpFsm :=
  if s.ld.passive then
    let s : IpcpFsm := { s with ld := { s.ld with passive := false } }
    let s := (pppFsmOpen (ipcpOps conf env) (pppFsmLowerUp (ipcpOps conf env) s).1).1
    { s with ld := { s.ld with timeout := false } }
  else s

/-- The answer to a request with verdict `r`, and the verdict after it. A started layer, and one
whose acknowledgement is withheld, does not negotiate again. -/
def ipcpReply (delayed : Bool) (s : IpcpFsm) (r : OptState) : IpcpFsm × OptState :=
  if s.ld.started || delayed then
    if r = .ack then (sendConfAck s, r) else (s, .fail)
  else
    match r with
    | .ack => (pppFsmRecvConfReqAck (ipcpOps conf env) s, r)
    | .nak => (pppFsmRecvConfReqNak (ipcpOps conf env) s, r)
    | .rej => (pppFsmRecvConfReqRej (ipcpOps conf env) s, r)
    | _ => (s, r)

/-- The part of the arm `CONFREQ` of `ipcp_recv` that follows `ipcp_recv_conf_req`; `delayed` is
`delay_ack` before the request. -/
def ipcpAnswerConfReq (delayed : Bool) (s : IpcpFsm) (r : OptState) : IpcpFsm :=
  let s := if r ≠ .none then ipcpLeavePassive conf env s else s
  let s := if delayed && !s.ld.delayAck then ipcpLayerUpNow env s else s
  let (s, r) := ipcpReply conf env delayed s r
  let s := ipcpFreeConfReq s
  if r = .fail then apSessionTerminate s else s

/-- The arm `CONFREQ` of `ipcp_recv`. -/
def ipcpConfReq : IpcpFsm :=
  let delayed := s.ld.delayAck
  let (s, r) := ipcpRecvConfReq conf env s data
  if s.ld.terminating then ipcpFreeConfReq s else ipcpAnswerConfReq conf env delayed s r

/-- `ipcp_recv_conf_ack` and `ipcp_recv_conf_nak`: no option has a handler for them, and only a
malformed body is an error. -/
def ipcpRecvConfAck : Int :=
  if (scanOpts data).2 then 0 else -1

/-- `ipcp_recv_conf_rej`: an option without a handler for it must not be rejected. -/
def ipcpRecvConfRej : Int :=
  let (opts, ok) := scanOpts data
  if ok && opts.all fun o ↦ IpcpOpt.ofId o.id = none then 0 else -1

/-- The `switch` of `ipcp_recv`. A Terminate-Ack is ignored. -/
def ipcpDispatch (p : CpPacket) : IpcpFsm :=
  let ops := ipcpOps conf env
  let answer (res : Int) (f : IpcpFsm → IpcpFsm) : IpcpFsm :=
    if res ≠ 0 then apSessionTerminate s else f s
  match p.code with
  | .confReq => ipcpConfReq conf env s p.body
  | .confAck => answer (ipcpRecvConfAck p.body) (pppFsmRecvConfAck ops)
  | .confNak => answer (ipcpRecvConfAck p.body) (pppFsmRecvConfRej ops)
  | .confRej => answer (ipcpRecvConfRej p.body) (pppFsmRecvConfRej ops)
  | .termReq => apSessionTerminate (pppFsmRecvTermReq ops s)
  | .termAck => s
  | .codeRej => pppFsmRecvCodeRejBad ops s
  | .unknown => pppFsmRecvUnk ops s

/-- The first test of `ipcp_recv`: the packet is not looked at. -/
def ipcpDiscards : Bool :=
  !s.ld.starting || s.fsmState = .closed || s.ld.terminating || conf.confIpv4 = .deny

/-- `ipcp_recv` on the received bytes. -/
def ipcpRecv (bytes : List UInt8) : IpcpFsm :=
  if ipcpDiscards conf s then
    if s.ld.terminating then s
    else if s.fsmState = .closed || conf.confIpv4 = .deny then emit .protoRej s
    else s
  else
    match readPacket bytes with
    | none => s
    | some p =>
      if p.code.isAnswer && p.id ≠ s.id then s
      else
        ipcpDispatch conf env { s with recvId := p.id, ld := { s.ld with buf := p.body } } p

/-! ### The other entry points -/

/-- `ipcp_recv_proto_rej` -/
def ipcpRecvProtoRej : IpcpFsm :=
  if s.fsmState = .initial || s.fsmState = .closed then s
  else pppFsmClose (ipcpOps conf env) (pppFsmLowerDown (ipcpOps conf env) s)

/-- `ipcp_layer_start`, and the session's reaction to a failure of it. -/
def ipcpLayerStart : IpcpFsm :=
  let s : IpcpFsm := { s with ld := { s.ld with starting := true } }
  if conf.confIpv4 = .deny then s
  else if s.ld.passive then { s with ld := { s.ld with timeout := true } }
  else
    let (s, r) := pppFsmOpen (ipcpOps conf env) (pppFsmLowerUp (ipcpOps conf env) s).1
    if r ≠ 0 then apSessionTerminate s else s

/-- `ipcp_start_timeout` -/
def ipcpStartTimeout : IpcpFsm :=
  let s : IpcpFsm := { s with ld := { s.ld with timeout := false } }
  if env.sesStarting then apSessionTerminate s else s

/-- `ipcp_ccp_started`: what has been withheld is sent. -/
def ipcpCcpStarted : IpcpFsm :=
  if s.ld.delayAck then
    let s : IpcpFsm := { s with ld := { s.ld with delayAck := false } }
    let s := if s.fsmState = .opened then ipcpLayerUpNow env s else s
    match s.ld.delayAckBuf with
    | none => s
    | some (id, body) =>
      let s := emit (.confAck id body) s
      { s with ld := { s.ld with delayAckBuf := none } }
  else s

/-- What can happen to an IPCP layer. -/
inductive IpcpEvent
  | start
  | recv (bytes : List UInt8)
  | recvProtoRej
  /-- The restart timer. -/
  | timeout
  /-- The timer of a passive layer. -/
  | startTimeout
  | ccpStarted
  /-- The session is terminated from elsewhere. -/
  | terminate
  deriving DecidableEq

/-- One event. -/
def ipcpStep (e : IpcpEvent × IpcpEnv) : IpcpFsm :=
  match e.1 with
  | .start => ipcpLayerStart conf e.2 s
  | .recv bytes => ipcpRecv conf e.2 s bytes
  | .recvProtoRej => ipcpRecvProtoRej conf e.2 s
  | .timeout => fsmStep (ipcpOps conf e.2) s .timeout
  | .startTimeout => if s.ld.timeout then ipcpStartTimeout e.2 s else s
  | .ccpStarted => ipcpCcpStarted e.2 s
  | .terminate => apSessionTerminate s

/-- `ipcp_layer_init`, in a session that may have an address already. -/
def ipcpLayerInit (rnd : UInt8) (options : IpcpState) : IpcpFsm :=
  pppFsmInit conf.fsm rnd
    { passive := conf.confIpv4 = .allow || conf.confIpv4 = .deny
      starting := false
      started := false
      terminating := false
      timeout := false
      options
      roptList := []
      delayAck := false
      delayAckBuf := none
      buf := []
      out := [] }

end

end AccelPpp.Ppp.Ipcp
