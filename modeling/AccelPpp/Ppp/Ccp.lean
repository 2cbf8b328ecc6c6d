import AccelPpp.Ppp.Fsm
import AccelPpp.Ppp.Options

/-!
# CCP and the MPPE option (`ppp/ppp_ccp.c`, `ppp/ccp_mppe.c`)

The only option that registers with CCP is MPPE, so the list of local options is that one option.
Its `state` is the verdict of the last Configure-Request that mentioned it, or of the first one
that did not; unlike LCP and IPCP, `ccp_recv_conf_req` does **not** reset it to `CCP_OPT_NONE`
when a new request arrives.

The module follows the sources: the option handlers, the request loop, the packets the machine
sends through its callbacks, `ccp_recv` with all its codes, and the other entry points. What the
kernel and the session answer during one event is in `CcpEnv`.

Under the policy *require* (`policy == 2`) every Configure-Ack should answer a request that carries
the MPPE option with exactly the stateless 128-bit bits (`Carries`).
-/

namespace AccelPpp.Ppp.Ccp

open List

/-! ### The MPPE option -/

/-- `CI_MPPE` -/
def ciMppe : UInt8 := 18

/-- `MPPE_S | MPPE_H`: 128-bit keys, stateless. -/
def mppeBits : Nat := 2 ^ 6 + 2 ^ 24

/-- `MPPE_UNSET`, `MPPE_ALLOW`, `MPPE_DENY`, `MPPE_PREFER`, `MPPE_REQUIRE`. -/
inductive MppeMode
  | unset
  | allow
  | deny
  | prefer
  | require
  deriving DecidableEq

/-- The numbers of `ap_session.h`. -/
def MppeMode.val : MppeMode → Int
  | .unset => -2
  | .allow => -1
  | .deny => 0
  | .prefer => 1
  | .require => 2

/-- `struct mppe_option_t`. The session keys are only handed to the kernel. -/
structure MppeOption where
  /-- `opt.state` -/
  state : OptState
  /-- 1: on, 0: off, -1: not offered. -/
  mppe : Int
  enabled : Bool
  /-- 1: allowed, 2: required. -/
  policy : Int
  deriving DecidableEq

/-- The option is MPPE with exactly the bits the policy *require* asks for. -/
def isMppeRequired (o : RecvOpt) : Bool :=
  o.id == ciMppe && o.len == 6 && o.val == mppeBits

/-! ### The layer -/

/-- What CCP sends and what it tells the session. -/
inductive CcpOut
  | confReq (id : UInt8) (opts : List UInt8)
  | confAck (id : UInt8) (opts : List UInt8)
  | confNak (id : UInt8) (opts : List UInt8)
  | confRej (id : UInt8) (opts : List UInt8)
  | termReq (id : UInt8)
  | termAck (id : UInt8)
  /-- `lcp_send_proto_rej` -/
  | protoRej
  /-- `ppp_layer_started` -/
  | layerStarted
  /-- `ppp_layer_passive` -/
  | layerPassive
  /-- `ap_session_terminate` -/
  | terminate
  deriving DecidableEq

/-- `struct ppp_ccp_t`, without the machine it embeds. -/
structure PppCcp where
  /-- `ld.passive` -/
  passive : Bool
  /-- `ld.optional` -/
  optional : Bool
  starting : Bool
  started : Bool
  mppeOpt : MppeOption
  /-- `ropt_list`, each received option with its verdict. -/
  roptList : List (RecvOpt × OptState)
  /-- The body of the packet in `ppp->buf`. -/
  buf : List UInt8
  /-- Everything sent so far. -/
  out : List CcpOut
  deriving DecidableEq

/-- The configuration: `[ppp] mppe`, the controller's own setting, `[ppp] ccp` and the limit. -/
structure CcpConf where
  /-- `conf_mppe` -/
  confMppe : MppeMode
  /-- `ses.ctrl->mppe` -/
  ctrlMppe : MppeMode
  /-- `conf_ccp` -/
  confCcp : Bool := true
  /-- `conf_ccp_max_configure` -/
  confCcpMaxConfigure : Int := 3

section

variable (opt : MppeOption) (conf : CcpConf) (env : CcpEnv) (s : CcpFsm)

/-- `ctrl->mppe`, or `conf_mppe` where it is unset. -/
def CcpConf.mppe : MppeMode :=
  if conf.ctrlMppe = .unset then conf.confMppe else conf.ctrlMppe

/-- What the kernel and the session answer during one event. -/
structure CcpEnv where
  /-- `setup_mppe_key` fails for the n-th option of the request. -/
  setupKeyFails : Nat → Bool
  /-- `setup_mppe_key` fails while a Configure-Request is built. -/
  sendKeyFails : Bool
  /-- `ccp_set_flags` fails. -/
  setFlagsFails : Bool
  /-- `ses.terminating` -/
  terminating : Bool
  /-- `ses.state == AP_STATE_ACTIVE` -/
  active : Bool

/-- CCP with its machine. -/
abbrev CcpFsm := PppFsm PppCcp

def emit (o : CcpOut) (s : CcpFsm) : CcpFsm :=
  { s with ld := { s.ld with out := s.ld.out ++ [o] } }

/-! ### The handlers of the MPPE option -/

/-- `mppe_init`: the option and what it does to `ld.passive` and `ld.optional`. -/
def mppeInit : MppeOption where
  state := .none
  mppe := if conf.mppe.val > 0 then 1 else -1
  enabled := false
  policy := if conf.mppe ≠ .allow then conf.mppe.val else 1

section

variable (setupKeyFails : Bool) (opt : MppeOption)

/-- The value `__mppe_send_conf_req` writes, or nothing. -/
def mppeSendConf : List UInt8 :=
  if opt.mppe = -1 then []
  else if opt.mppe ≠ 0 && setupKeyFails then []
  else [ciMppe, 6] ++ (if opt.mppe ≠ 0 then [1, 0, 0, 0x40] else [0, 0, 0, 0])

/-- `mppe_send_conf_req` -/
def mppeSendConfReq : List UInt8 :=
  mppeSendConf setupKeyFails opt

/-- `mppe_send_conf_nak`, which does not set up a key. -/
def mppeSendConfNak : List UInt8 :=
  mppeSendConf false opt

/-- `mppe_recv_conf_req` for a request without the option. -/
def mppeRecvConfReqNull : OptState :=
  if opt.policy = 2 then .nak else .ack

/-- The end of `mppe_recv_conf_req`: the bits are acceptable and the key is set up. -/
def mppeAccept : MppeOption × OptState :=
  if opt.mppe ≠ 0 then
    if setupKeyFails then (opt, .rej) else ({ opt with enabled := true }, .ack)
  else (opt, .ack)

/-- `mppe_recv_conf_req` for a received option. -/
def mppeRecvConfReq (o : RecvOpt) : MppeOption × OptState
    :=
  if o.len ≠ 6 then (opt, .rej)
  else if opt.policy = 2 then
    if o.val ≠ mppeBits then (opt, .nak) else mppeAccept setupKeyFails opt
  else if opt.policy = 1 then
    if o.val = mppeBits then mppeAccept setupKeyFails { opt with mppe := 1 }
    else if o.val &&& mppeBits ≠ 0 ∨ conf.mppe.val = 1 then ({ opt with mppe := 1 }, .nak)
    else if o.val ≠ 0 then ({ opt with mppe := 0 }, .nak)
    else mppeAccept setupKeyFails { opt with mppe := 0 }
  else (opt, .rej)

end

/-- `mppe_recv_conf_rej`, with its result. -/
def mppeRecvConfRej : MppeOption × Int :=
  if opt.policy ≠ 2 then ({ opt with mppe := -1 }, 0) else (opt, -1)

/-- `mppe_recv_conf_nak`, with its result. -/
def mppeRecvConfNak (o : RecvOpt) : MppeOption × Int :=
  if o.len ≠ 6 then (opt, -1)
  else if opt.policy = 2 then
    if o.val = mppeBits then (opt, -1) else (opt, 0)
  else if opt.policy = 1 then
    if o.val &&& mppeBits = mppeBits then ({ opt with mppe := 0 }, 0)
    else ({ opt with mppe := 1 }, 0)
  else if o.val = 0 then (opt, -1)
  else (opt, 0)

/-! ### Configure-Requests -/

/-- The variables of the loop over the received options. -/
structure ReqAcc where
  opt : MppeOption
  ret : OptState
  /-- Some option has been acknowledged or naked already. -/
  ack : Bool
  /-- The options looked at so far, with their verdicts. -/
  done : List (RecvOpt × OptState)

/-- One turn of the loop. After the first MPPE option, a second one is marked as rejected, but
it is its own verdict that goes into the result. -/
def ccpReqStep (acc : ReqAcc) (o : RecvOpt) : ReqAcc :=
  if o.id = ciMppe then
    let (opt, r) := mppeRecvConfReq conf (env.setupKeyFails acc.done.length) acc.opt o
    let st := if acc.ack then .rej else r
    { opt := { opt with state := st }
      ret := r.worst acc.ret
      ack := acc.ack || st = .ack || st = .nak
      done := acc.done ++ [(o, st)] }
  else { acc with ret := .rej, done := acc.done ++ [(o, .rej)] }

/-- The last loop of `ccp_recv_conf_req`: a local option nobody has ever judged. -/
def ccpReqMissing (acc : ReqAcc) : ReqAcc :=
  if acc.opt.state = .none then
    let r := mppeRecvConfReqNull acc.opt
    { acc with opt := { acc.opt with state := r }, ret := r.worst acc.ret }
  else acc

/-- `ccp_recv_conf_req`. -/
def ccpRecvConfReq (data : List UInt8) : CcpFsm × OptState :=
  match parseOpts data with
  | none => (s, .fail)
  | some opts =>
    let acc := ccpReqMissing (opts.foldl (ccpReqStep conf env) ⟨s.ld.mppeOpt, .ack, false, []⟩)
    ({ s with ld := { s.ld with mppeOpt := acc.opt, roptList := acc.done } }, acc.ret)

/-- `ccp_free_conf_req` -/
def ccpFreeConfReq : CcpFsm :=
  { s with ld := { s.ld with roptList := [] } }

/-- One turn of the loops below; `h` is the handler of the MPPE option. -/
def ccpAnswerStep (h : MppeOption → RecvOpt → MppeOption × Int) (acc : MppeOption × Int)
    (o : RecvOpt) : MppeOption × Int :=
  if o.id = ciMppe then
    let (opt, r) := h acc.1 o
    (opt, if r ≠ 0 then -1 else acc.2)
  else acc

/-- The loop that `ccp_recv_conf_rej`, `ccp_recv_conf_nak` and `ccp_recv_conf_ack` share, over
the options before the first malformed one. -/
def ccpRecvAnswer (h : MppeOption → RecvOpt → MppeOption × Int) (s : CcpFsm) (data : List UInt8) :
    CcpFsm × Int :=
  let (opts, ok) := scanOpts data
  let (opt, res) := opts.foldl (ccpAnswerStep h) (s.ld.mppeOpt, 0)
  ({ s with ld := { s.ld with mppeOpt := opt } }, if ok then res else -1)

/-- `ccp_recv_conf_rej` -/
def ccpRecvConfRej : CcpFsm → List UInt8 → CcpFsm × Int :=
  ccpRecvAnswer fun opt _ ↦ mppeRecvConfRej opt

/-- `ccp_recv_conf_nak` -/
def ccpRecvConfNak : CcpFsm → List UInt8 → CcpFsm × Int :=
  ccpRecvAnswer mppeRecvConfNak

/-- `ccp_recv_conf_ack`; MPPE has no handler for it. -/
def ccpRecvConfAck : CcpFsm → List UInt8 → CcpFsm × Int :=
  ccpRecvAnswer fun opt _ ↦ (opt, 0)

/-! ### The callbacks of the machine -/

/-- `ccp_layer_up` -/
def ccpLayerUp : CcpFsm :=
  if s.ld.started then s
  else
    let s : CcpFsm := { s with ld := { s.ld with started := true } }
    if env.setFlagsFails then emit .terminate s else emit .layerStarted s

/-- `ccp_layer_finished` -/
def ccpLayerFinished : CcpFsm :=
  setState .closed <|
    if ¬ s.ld.started then emit .layerPassive s
    else if ¬ env.terminating then emit .terminate s
    else s

/-- `send_conf_req` of `ppp_ccp.c`. The MPPE handler never returns a negative length. -/
def sendConfReq : CcpFsm × Int :=
  if s.ld.passive then (s, 0)
  else (emit (.confReq s.id (mppeSendConfReq env.sendKeyFails s.ld.mppeOpt)) s, 0)

/-- `send_conf_ack`: the request in `ppp->buf` goes back with another code. -/
def sendConfAck : CcpFsm :=
  emit (.confAck s.recvId s.ld.buf) s

/-- `send_conf_nak`, a loop over the **local** options. -/
def sendConfNak : CcpFsm :=
  let body := if s.ld.mppeOpt.state = .nak then mppeSendConfNak s.ld.mppeOpt else []
  emit (.confNak s.recvId body) s

/-- `send_conf_rej`, a loop over the received options. -/
def sendConfRej : CcpFsm :=
  let rejected := s.ld.roptList.filter fun ro ↦ ro.2 = .rej
  emit (.confRej s.recvId (rejected.flatMap fun ro ↦ ro.1.bytes)) s

/-- `send_term_req` -/
def sendTermReq : CcpFsm :=
  let s := incId s
  emit (.termReq s.id) s

/-- `send_term_ack` -/
def sendTermAck : CcpFsm :=
  emit (.termAck s.recvId) s

/-- The callbacks `ccp_layer_init` installs, but for `layer_down`. -/
def ccpBase : FsmOps PppCcp where
  layerUp := ccpLayerUp env
  layerDown := id
  layerStarted := id
  layerFinished := ccpLayerFinished env
  sendConfReq := sendConfReq env
  sendConfAck := sendConfAck
  sendConfNak := sendConfNak
  sendConfRej := sendConfRej
  sendCodeRej := id
  sendTermReq := sendTermReq
  sendTermAck := sendTermAck

/-- The callbacks `ccp_layer_init` installs. `ccp_layer_down` is `ppp_fsm_close`, whose own call
of `layer_down` finds the machine in Closing and does nothing. -/
def ccpOps : FsmOps PppCcp :=
  { ccpBase env with layerDown := pppFsmClose (ccpBase env) }

/-! ### Entry points -/

/-- A passive layer starts to negotiate when the first request arrives. -/
def ccpLeavePassive : CcpFsm :=
  if s.ld.passive then
    let s : CcpFsm := { s with ld := { s.ld with passive := false } }
    (pppFsmOpen (ccpOps env) (pppFsmLowerUp (ccpOps env) s).1).1
  else s

/-- The answer to a request with verdict `r`, and the verdict after it. A started layer does not
negotiate again: anything but an acceptable request is fatal. -/
def ccpReply (r : OptState) : CcpFsm × OptState :=
  if s.ld.started then
    if r = .ack then (sendConfAck s, r) else (s, .fail)
  else
    match r with
    | .ack => (pppFsmRecvConfReqAck (ccpOps env) s, r)
    | .nak => (pppFsmRecvConfReqNak (ccpOps env) s, r)
    | .rej => (pppFsmRecvConfReqRej (ccpOps env) s, r)
    | _ => (s, r)

/-- The part of `ccp_recv` that follows `ccp_recv_conf_req` and its verdict `r`. -/
def ccpAnswerConfReq (r : OptState) : CcpFsm :=
  let (s, r) := ccpReply env (ccpLeavePassive env s) r
  let s := ccpFreeConfReq s
  if r = .fail then emit .terminate s else s

/-- The `switch` of `ccp_recv`. -/
def ccpDispatch (p : CpPacket) : CcpFsm :=
  let ops := ccpOps env
  -- an answer to our request: its options first, then the machine
  let answer (res : CcpFsm × Int) (f : CcpFsm → CcpFsm) : CcpFsm :=
    if res.2 ≠ 0 then emit .terminate res.1 else f res.1
  match p.code with
  | .confReq => let (s, r) := ccpRecvConfReq conf env s p.body; ccpAnswerConfReq env s r
  | .confAck => answer (ccpRecvConfAck s p.body) (pppFsmRecvConfAck ops)
  | .confNak => answer (ccpRecvConfNak s p.body) (pppFsmRecvConfRej ops)
  | .confRej => answer (ccpRecvConfRej s p.body) (pppFsmRecvConfRej ops)
  | .termReq => pppFsmClose ops (pppFsmRecvTermReq ops s)
  | .termAck => pppFsmRecvTermAck ops s
  | .codeRej => pppFsmRecvCodeRejBad ops s
  | .unknown => pppFsmRecvUnk ops s

/-- `ccp_recv` on the received bytes. -/
def ccpRecv (bytes : List UInt8) : CcpFsm :=
  if !s.ld.starting || s.fsmState = .closed || env.terminating || env.active then
    if s.fsmState = .closed || !conf.confCcp || env.active then emit .protoRej s else s
  else
    match readPacket bytes with
    | none => s
    | some p =>
      if p.code.isAnswer && p.id ≠ s.id then s
      else
        ccpDispatch conf env { s with recvId := p.id, ld := { s.ld with buf := p.body } } p

/-- `ccp_recv_proto_rej` -/
def ccpRecvProtoRej : CcpFsm :=
  if !s.ld.optional then emit .terminate s
  else if s.fsmState = .initial || s.fsmState = .closed then s
  else pppFsmClose (ccpOps env) (pppFsmLowerDown (ccpOps env) s)

/-- `ccp_layer_start` -/
def ccpLayerStart : CcpFsm :=
  if !conf.confCcp then emit .layerStarted { s with ld := { s.ld with started := true } }
  else
    let s : CcpFsm := { s with ld := { s.ld with starting := true } }
    let s :=
      if s.ld.passive then s
      else (pppFsmOpen (ccpOps env) (pppFsmLowerUp (ccpOps env) s).1).1
    if env.setFlagsFails then pppFsmClose (ccpOps env) s else s

/-- `ccp_layer_finish` -/
def ccpLayerFinish : CcpFsm :=
  setState .closed s

/-- `ev_mppe_keys`: the authentication layer brings keys, a policy and the allowed key types. -/
def evMppeKeys (policy : Int) (type : Nat) (s : CcpFsm) : CcpFsm :=
  let opt := s.ld.mppeOpt
  if policy = -1 then s
  else if type &&& 4 = 0 then { s with ld := { s.ld with mppeOpt := { opt with mppe := 0 } } }
  else if conf.ctrlMppe ≠ .unset then s
  else if policy = 2 then
    { s with ld := { s.ld with mppeOpt := { opt with policy := 2, mppe := 1 }, passive := false } }
  else if policy = 1 then
    { s with ld := { s.ld with
      mppeOpt := { opt with policy := 1, mppe := if conf.mppe.val = 1 then 1 else -1 }
      passive := if conf.mppe.val = 2 then true else s.ld.passive } }
  else { s with ld := { s.ld with mppeOpt := { opt with policy := policy } } }

/-- What can happen to a CCP layer. -/
inductive CcpEvent
  | start
  | recv (bytes : List UInt8)
  | recvProtoRej
  | timeout
  | keys (policy : Int) (type : Nat)
  | finish

/-- One event. -/
def ccpStep (e : CcpEvent × CcpEnv) : CcpFsm :=
  match e.1 with
  | .start => ccpLayerStart conf e.2 s
  | .recv bytes => ccpRecv conf e.2 s bytes
  | .recvProtoRej => ccpRecvProtoRej e.2 s
  | .timeout => fsmStep (ccpOps e.2) s .timeout
  | .keys policy type => evMppeKeys conf policy type s
  | .finish => ccpLayerFinish s

/-- `ccp_layer_init`. The MPPE option decides whether the layer is passive and optional. -/
def ccpLayerInit (fconf : FsmConf) (rnd : UInt8) : CcpFsm :=
  { pppFsmInit fconf rnd
      { passive := !(conf.mppe = .require || conf.mppe = .prefer)
        optional := conf.mppe ≠ .require
        starting := false
        started := false
        mppeOpt := mppeInit conf
        roptList := []
        buf := []
        out := [] } with maxConfigure := conf.confCcpMaxConfigure }

end

/-! ### What an acknowledged request contains -/

/-- The body of a Configure packet has the MPPE option with exactly the required bits. -/
def Carries (data : List UInt8) : Prop :=
  ∃ opts, parseOpts data = some opts ∧ ∃ o ∈ opts, isMppeRequired o = true

lemma not_carries_nil : ¬ Carries [] := by
  rintro ⟨opts, hopts, o, ho, -⟩
  obtain rfl : [] = opts := by simpa using hopts
  simp at ho

section Request

variable (conf : CcpConf) (env : CcpEnv)

lemma mppeAccept_policy (b : Bool) (opt : MppeOption) :
    (mppeAccept b opt).1.policy = opt.policy := by
  rw [mppeAccept]
  split
  · split <;> rfl
  · rfl

/-- Under the policy *require*, the handler accepts exactly the required bits and keeps the
policy. -/
lemma mppeRecvConfReq_require {b : Bool} {opt : MppeOption} {o : RecvOpt}
    (hp : opt.policy = 2) (hid : o.id = ciMppe) :
    (mppeRecvConfReq conf b opt o).1.policy = 2 ∧
      ((mppeRecvConfReq conf b opt o).2 = .ack → isMppeRequired o = true) := by
  rw [mppeRecvConfReq]
  by_cases hlen : o.len = 6
  · by_cases hbits : o.val = mppeBits
    · simp [hlen, hp, hbits, mppeAccept_policy, isMppeRequired, hid]
    · simp [hlen, hp, hbits]
  · simp [hlen, hp]

variable {acc : ReqAcc}

/-- One turn of the loop: an acknowledgement after it needs one before it, and an option with
the required bits. -/
lemma ccpReqStep_require {o : RecvOpt} (hp : acc.opt.policy = 2) :
    (ccpReqStep conf env acc o).opt.policy = 2 ∧
      ((ccpReqStep conf env acc o).ret = .ack → acc.ret = .ack ∧ isMppeRequired o = true) := by
  rw [ccpReqStep]
  split
  · next hid =>
    obtain ⟨hpol, hack⟩ :=
      mppeRecvConfReq_require conf hp hid
    refine ⟨hpol, fun hret ↦ ?_⟩
    obtain ⟨hr, hacc⟩ := OptState.worst_eq_ack.mp hret
    exact ⟨hacc, hack hr⟩
  · exact ⟨hp, fun hret ↦ by cases hret⟩

lemma foldl_ccpReqStep_require {opts : List RecvOpt} (hp : acc.opt.policy = 2) :
    (opts.foldl (ccpReqStep conf env) acc).opt.policy = 2 ∧
      ((opts.foldl (ccpReqStep conf env) acc).ret = .ack →
        acc.ret = .ack ∧ ∀ o ∈ opts, isMppeRequired o = true) := by
  induction opts generalizing acc with
  | nil => exact ⟨hp, fun hret ↦ ⟨hret, by simp⟩⟩
  | cons o opts ih =>
    obtain ⟨hp₁, hstep⟩ := ccpReqStep_require conf env hp
    obtain ⟨hp₂, hfold⟩ := ih hp₁
    refine ⟨hp₂, fun hret ↦ ?_⟩
    obtain ⟨hacc₁, hopts⟩ := hfold hret
    obtain ⟨hacc, ho⟩ := hstep hacc₁
    exact ⟨hacc, forall_mem_cons.mpr ⟨ho, hopts⟩⟩

/-- The last loop never improves a verdict, and it naks a request without the option if the
option has not been judged before. -/
lemma ccpReqMissing_require (hp : acc.opt.policy = 2) :
    (ccpReqMissing acc).opt.policy = 2 ∧
      ((ccpReqMissing acc).ret = .ack → acc.ret = .ack ∧ acc.opt.state ≠ .none) := by
  rw [ccpReqMissing]
  split
  · refine ⟨hp, fun hret ↦ ?_⟩
    have hr := (OptState.worst_eq_ack.mp hret).1
    simp [mppeRecvConfReqNull, hp] at hr
  · next hst => exact ⟨hp, fun hret ↦ ⟨hret, hst⟩⟩

/-- Judging a request sends nothing. -/
lemma ccpRecvConfReq_out_buf (s : CcpFsm) (data : List UInt8) :
    (ccpRecvConfReq conf env s data).1.ld.out = s.ld.out ∧
      (ccpRecvConfReq conf env s data).1.ld.buf = s.ld.buf := by
  rw [ccpRecvConfReq]
  split <;> exact ⟨rfl, rfl⟩

/-- **The verdict on a whole request** under *require*: an acknowledged request has no options but
MPPE options with the required bits, and none at all only if the option has been judged before. -/
theorem ccpRecvConfReq_require {s : CcpFsm} {data : List UInt8} (hp : s.ld.mppeOpt.policy = 2) :
    (ccpRecvConfReq conf env s data).1.ld.mppeOpt.policy = 2 ∧
      ((ccpRecvConfReq conf env s data).2 = .ack →
        Carries data ∨ (data = [] ∧ s.ld.mppeOpt.state ≠ .none)) := by
  rw [ccpRecvConfReq]
  split
  · exact ⟨hp, fun hret ↦ by cases hret⟩
  next opts hparse =>
  have hp₀ : (⟨s.ld.mppeOpt, .ack, false, []⟩ : ReqAcc).opt.policy = 2 := hp
  obtain ⟨hp₁, hfold⟩ := foldl_ccpReqStep_require conf env hp₀
  obtain ⟨hp₂, hmiss⟩ := ccpReqMissing_require hp₁
  refine ⟨hp₂, fun hret ↦ ?_⟩
  obtain ⟨hacc, hst⟩ := hmiss hret
  cases opts with
  | nil => exact .inr ⟨parseOpts_eq_some_iff.mp hparse, hst⟩
  | cons o opts =>
    exact .inl ⟨o :: opts, hparse, o, by simp, (hfold hacc).2 o (by simp)⟩

end Request

/-! ### What a run acknowledges -/

/-- The policy is *require*, and every Configure-Ack sent so far answered a request with the
required bits. -/
def AcksCarry (d : PppCcp) : Prop :=
  d.mppeOpt.policy = 2 ∧ ∀ id body, CcpOut.confAck id body ∈ d.out → Carries body

variable {s : CcpFsm}

/-- Sending anything but a Configure-Ack keeps `AcksCarry`, and so does a Configure-Ack with the
required bits. -/
lemma AcksCarry.emit (h : AcksCarry s.ld) {o : CcpOut}
    (ho : ∀ id body, o = .confAck id body → Carries body) : AcksCarry (emit o s).ld := by
  refine ⟨h.1, fun id body hmem ↦ ?_⟩
  rcases mem_append.mp hmem with hold | hnew
  · exact h.2 id body hold
  · exact ho id body (mem_singleton.mp hnew).symm

/-- `AcksCarry`, while the packet in `ppp->buf` has the body `b`. -/
def AcksCarryBuf (b : List UInt8) (d : PppCcp) : Prop :=
  AcksCarry d ∧ d.buf = b

variable {b : List UInt8}

lemma AcksCarryBuf.emit (h : AcksCarryBuf b s.ld) {o : CcpOut}
    (ho : ∀ id body, o = .confAck id body → Carries body) :
    AcksCarryBuf b (Ccp.emit o s).ld :=
  ⟨h.1.emit ho, h.2⟩

lemma keeps_ccpBase {env : CcpEnv} : (ccpBase env).Keeps (AcksCarryBuf b) where
  layerUp s h := by
    show AcksCarryBuf b (ccpLayerUp env s).ld
    rw [ccpLayerUp]
    have hst : AcksCarryBuf b
        ({ s with ld := { s.ld with started := true } } : CcpFsm).ld := h
    repeat' split
    exacts [h, hst.emit nofun, hst.emit nofun]
  layerDown _ h := h
  layerStarted _ h := h
  layerFinished s h := by
    show AcksCarryBuf b (ccpLayerFinished env s).ld
    rw [ccpLayerFinished]
    repeat' split
    exacts [h.emit nofun, h.emit nofun, h]
  sendConfReq s h := by
    show AcksCarryBuf b (sendConfReq env s).1.ld
    rw [sendConfReq]
    split
    exacts [h, h.emit nofun]
  sendConfNak _ h := h.emit nofun
  sendConfRej _ h := h.emit nofun
  sendCodeRej _ h := h
  sendTermReq s h := AcksCarryBuf.emit h nofun
  sendTermAck _ h := h.emit nofun

lemma keeps_ccpOps {env : CcpEnv} : (ccpOps env).Keeps (AcksCarryBuf b) :=
  { keeps_ccpBase with layerDown := fun _ h ↦ keeps_ccpBase.close h }

/-- An acknowledgement is safe when the packet at hand has the required bits. -/
lemma AcksCarryBuf.sendConfAck (hb : Carries b)
    (h : AcksCarryBuf b s.ld) : AcksCarryBuf b (sendConfAck s).ld := by
  refine h.emit fun id body heq ↦ ?_
  obtain ⟨-, rfl⟩ := CcpOut.confAck.inj heq
  rwa [h.2]

section Step

variable {conf : CcpConf} {env : CcpEnv} {s : CcpFsm} {b : List UInt8}

lemma foldl_ccpAnswerStep_policy {f : MppeOption → RecvOpt → MppeOption × Int}
    (hf : ∀ opt o, (f opt o).1.policy = opt.policy) {opts : List RecvOpt} {acc : MppeOption × Int} :
    (opts.foldl (ccpAnswerStep f) acc).1.policy = acc.1.policy := by
  induction opts generalizing acc with
  | nil => rfl
  | cons o opts ih =>
    rw [foldl_cons, ih, ccpAnswerStep]
    split
    · exact hf acc.1 o
    · rfl

section

variable (h : AcksCarryBuf b s.ld)

include h

/-- Every event of the machine but a good request keeps the property. -/
lemma AcksCarryBuf.fsmStep (e : FsmEvent) (he : e ≠ .recvConfReqAck) :
    AcksCarryBuf b (fsmStep (ccpOps env) s e).ld :=
  keeps_ccpOps.fsmStep (fun hc ↦ absurd hc he) h

/-- Bringing the machine up and opening it. -/
lemma AcksCarryBuf.upAndOpen :
    AcksCarryBuf b (pppFsmOpen (ccpOps env) (pppFsmLowerUp (ccpOps env) s).1).1.ld :=
  AcksCarryBuf.fsmStep (keeps_ccpOps.lowerUp h) .openLayer nofun

lemma AcksCarryBuf.leavePassive : AcksCarryBuf b (ccpLeavePassive env s).ld := by
  rw [ccpLeavePassive]
  split
  · exact AcksCarryBuf.upAndOpen h
  · exact h

lemma AcksCarryBuf.reply {r : OptState} (hr : r = .ack → Carries b) :
    AcksCarryBuf b (ccpReply env s r).1.ld := by
  unfold ccpReply
  split
  · split
    · next hack => exact h.sendConfAck (hr hack)
    · exact h
  split
  · exact keeps_ccpOps.fsmStep (e := .recvConfReqAck) (fun _ _ ht ↦ ht.sendConfAck (hr rfl)) h
  · exact h.fsmStep .recvConfReqNak nofun
  · exact h.fsmStep .recvConfReqRej nofun
  · exact h

lemma AcksCarryBuf.answerConfReq {r : OptState}
    (hr : r = .ack → Carries b) : AcksCarryBuf b (ccpAnswerConfReq env s r).ld := by
  have hreply : AcksCarryBuf b (ccpFreeConfReq (ccpReply env (ccpLeavePassive env s) r).1).ld :=
    h.leavePassive.reply hr
  rw [ccpAnswerConfReq]
  dsimp only
  split
  · exact hreply.emit nofun
  · exact hreply

/-- The answers to our own requests do not touch the policy. -/
lemma AcksCarryBuf.recvAnswer {f : MppeOption → RecvOpt → MppeOption × Int}
    (hf : ∀ opt o, (f opt o).1.policy = opt.policy) (data : List UInt8) :
    AcksCarryBuf b (ccpRecvAnswer f s data).1.ld :=
  ⟨⟨(foldl_ccpAnswerStep_policy hf).trans h.1.1, h.1.2⟩, h.2⟩

end

lemma mppeRecvConfRej_policy (opt : MppeOption) :
    (mppeRecvConfRej opt).1.policy = opt.policy := by
  rw [mppeRecvConfRej]
  split <;> rfl

lemma mppeRecvConfNak_policy (opt : MppeOption) (o : RecvOpt) :
    (mppeRecvConfNak opt o).1.policy = opt.policy := by
  rw [mppeRecvConfNak]
  repeat' split
  all_goals rfl

/-- The `switch` of `ccp_recv`: only a Configure-Request can be acknowledged, and an acknowledged
one has the required bits unless it is empty and the option was judged before. -/
lemma AcksCarryBuf.dispatch {p : CpPacket} (h : AcksCarryBuf p.body s.ld)
    (hempty : p.code = .confReq → p.body = [] → s.ld.mppeOpt.state = .none) :
    AcksCarryBuf p.body (ccpDispatch conf env s p).ld := by
  rw [ccpDispatch]
  dsimp only
  split
  · -- the one message that can be acknowledged
    next hcode =>
    obtain ⟨hpol, hack⟩ := ccpRecvConfReq_require conf env h.1.1
    obtain ⟨hout, hbuf⟩ := ccpRecvConfReq_out_buf conf env s p.body
    have hreq : AcksCarryBuf p.body (ccpRecvConfReq conf env s p.body).1.ld :=
      ⟨⟨hpol, hout ▸ h.1.2⟩, hbuf.trans h.2⟩
    refine hreq.answerConfReq fun hr ↦ ?_
    rcases hack hr with hc | ⟨hnil, hst⟩
    · exact hc
    · exact absurd (hempty hcode hnil) hst
  · split
    · exact (h.recvAnswer (fun _ _ ↦ rfl) p.body).emit nofun
    · exact (h.recvAnswer (fun _ _ ↦ rfl) p.body).fsmStep .recvConfAck nofun
  · -- to the machine a Configure-Nak is a Configure-Reject
    split
    · exact (h.recvAnswer mppeRecvConfNak_policy p.body).emit nofun
    · exact (h.recvAnswer mppeRecvConfNak_policy p.body).fsmStep .recvConfRej nofun
  · split
    · exact (h.recvAnswer (fun opt _ ↦ mppeRecvConfRej_policy opt) p.body).emit nofun
    · exact (h.recvAnswer (fun opt _ ↦ mppeRecvConfRej_policy opt) p.body).fsmStep .recvConfRej
        nofun
  · exact (h.fsmStep .recvTermReq nofun).fsmStep .closeLayer nofun
  · exact h.fsmStep .recvTermAck nofun
  · exact h.fsmStep .recvCodeRejBad nofun
  · exact h.fsmStep .recvUnk nofun

end Step

/-- **The policy stays *require*** over the event: the authentication layer brings no other one,
or the controller's own setting shields the option from it. -/
def KeepsRequire (conf : CcpConf) : CcpEvent → Prop
  | .keys policy type => policy = 2 ∨ policy = -1 ∨ type &&& 4 = 0 ∨ conf.ctrlMppe ≠ .unset
  | _ => True

/-- **A request without options is only judged fresh**: when one arrives, no earlier request has
left a verdict on the MPPE option behind. -/
def EmptyIsFresh (s : CcpFsm) : CcpEvent → Prop
  | .recv bytes =>
    ∀ p, readPacket bytes = some p → p.code = .confReq → p.body = [] →
      s.ld.mppeOpt.state = .none
  | _ => True

section Events

variable {conf : CcpConf} {env : CcpEnv} {s : CcpFsm} (h : AcksCarry s.ld)

include h

lemma AcksCarry.layerStart : AcksCarry (ccpLayerStart conf env s).ld := by
  have hbuf : AcksCarryBuf s.ld.buf
      ({ s with ld := { s.ld with starting := true } } : CcpFsm).ld := ⟨h, rfl⟩
  rw [ccpLayerStart]
  split
  · exact AcksCarry.emit h nofun
  dsimp only
  split <;> split
  · exact (hbuf.fsmStep .closeLayer nofun).1
  · exact (hbuf.upAndOpen.fsmStep .closeLayer nofun).1
  · exact h
  · exact hbuf.upAndOpen.1

lemma AcksCarry.recv {bytes : List UInt8}
    (hfresh : EmptyIsFresh s (.recv bytes)) : AcksCarry (ccpRecv conf env s bytes).ld := by
  rw [ccpRecv]
  split
  · split
    · exact h.emit nofun
    · exact h
  split
  · exact h
  · next p hp =>
    split
    · exact h
    · have hbuf : AcksCarryBuf p.body
          ({ s with recvId := p.id, ld := { s.ld with buf := p.body } } : CcpFsm).ld := ⟨h, rfl⟩
      exact (hbuf.dispatch (hfresh p hp)).1

lemma AcksCarry.recvProtoRej : AcksCarry (ccpRecvProtoRej env s).ld := by
  have hbuf : AcksCarryBuf s.ld.buf s.ld := ⟨h, rfl⟩
  rw [ccpRecvProtoRej]
  repeat' split
  · exact h.emit nofun
  · exact h
  · exact ((hbuf.fsmStep .lowerDown nofun).fsmStep .closeLayer nofun).1

lemma AcksCarry.mppeKeys {policy : Int} {type : Nat}
    (hreq : KeepsRequire conf (.keys policy type)) :
    AcksCarry (evMppeKeys conf policy type s).ld := by
  have hout : (evMppeKeys conf policy type s).ld.out = s.ld.out := by
    rw [evMppeKeys]
    repeat' split
    all_goals rfl
  have hpol : (evMppeKeys conf policy type s).ld.mppeOpt.policy = 2 := by
    have h2 := h.1
    rw [evMppeKeys]
    -- *require* again, no policy, no 128-bit keys, or a setting of the controller
    rcases hreq with rfl | rfl | hty | hctrl
    · by_cases hty : type &&& 4 = 0 <;> by_cases hctrl : conf.ctrlMppe = .unset <;>
        simp [hty, hctrl, h2]
    · exact h2
    · by_cases hpol : policy = -1 <;> simp [hty, hpol, h2]
    · by_cases hpol : policy = -1 <;> by_cases hty : type &&& 4 = 0 <;>
        simp [hty, hctrl, hpol, h2]
  exact ⟨hpol, hout ▸ h.2⟩

end Events

/-- One event keeps `AcksCarry`. -/
lemma AcksCarry.step {conf : CcpConf} {s : CcpFsm} {e : CcpEvent × CcpEnv}
    (h : AcksCarry s.ld) (hreq : KeepsRequire conf e.1) (hfresh : EmptyIsFresh s e.1) :
    AcksCarry (ccpStep conf s e).ld := by
  obtain ⟨ev, env⟩ := e
  cases ev with
  | start => exact h.layerStart
  | recv bytes => exact h.recv hfresh
  | recvProtoRej => exact h.recvProtoRej
  | timeout =>
    have hbuf : AcksCarryBuf s.ld.buf s.ld := ⟨h, rfl⟩
    exact (hbuf.fsmStep .timeout nofun).1
  | keys policy type => exact h.mppeKeys hreq
  | finish => exact h

/-- **Required encryption over whole runs.** While the policy is *require*, and as long as requests
without options only arrive before the option has been judged, every Configure-Ack answers a request
that carries MPPE with exactly the required bits. -/
theorem confAck_carries_mppe (conf : CcpConf) (fconf : FsmConf) (rnd : UInt8)
    (es : List (CcpEvent × CcpEnv)) (hconf : conf.mppe = .require)
    (hrun : Transition.Along (ccpStep conf)
      (fun s e ↦ KeepsRequire conf e.1 ∧ EmptyIsFresh s e.1) (ccpLayerInit conf fconf rnd) es) :
    ∀ id body, CcpOut.confAck id body ∈
      (Transition.run (ccpStep conf) (ccpLayerInit conf fconf rnd) es).ld.out → Carries body := by
  have hinit : AcksCarry (ccpLayerInit conf fconf rnd).ld := by
    refine ⟨?_, fun id body hmem ↦ ?_⟩
    · show (mppeInit conf).policy = 2
      simp [mppeInit, hconf, MppeMode.val]
    · simp [ccpLayerInit, pppFsmInit] at hmem
  exact (hrun.inv (P := fun s ↦ AcksCarry s.ld) (fun s e h hc ↦ h.step hc.1 hc.2) hinit).2

/-- A controller with `mppe=require` and a kernel that does all it is asked. -/
def requireConf : CcpConf where
  confMppe := .require
  ctrlMppe := .unset

def calmEnv : CcpEnv := ⟨fun _ ↦ false, false, false, false, false⟩

/-- A negotiation that meets the conditions: the peer asks for the required bits and is
acknowledged. -/
theorem confAck_carries_mppe_run :
    CcpOut.confAck 7 [18, 6, 1, 0, 0, 0x40] ∈
        (Transition.run (ccpStep requireConf) (ccpLayerInit requireConf {} 0)
          [(.start, calmEnv),
            (.recv [0x80, 0xfd, 1, 7, 0, 10, 18, 6, 1, 0, 0, 0x40], calmEnv)]).ld.out ∧
      Carries [18, 6, 1, 0, 0, 0x40] := by
  refine ⟨by decide, confAck_carries_mppe requireConf {} 0
    [(.start, calmEnv), (.recv [0x80, 0xfd, 1, 7, 0, 10, 18, 6, 1, 0, 0, 0x40], calmEnv)]
    rfl ⟨⟨trivial, trivial⟩, ⟨trivial, ?_⟩, trivial⟩ 7 _ (by decide)⟩
  intro p hp _ hbody
  have hread : readPacket [0x80, 0xfd, 1, 7, 0, 10, 18, 6, 1, 0, 0, 0x40] =
      some ⟨.confReq, 7, [18, 6, 1, 0, 0, 0x40]⟩ := by decide
  rw [hread, Option.some.injEq] at hp
  simp [← hp] at hbody

/-- The peer sends the same request without options twice: the first is naked, and the second is
**acknowledged** without any MPPE option in it. -/
theorem second_empty_request_acked :
    CcpOut.confAck 2 [] ∈
        (Transition.run (ccpStep requireConf) (ccpLayerInit requireConf {} 0)
          [(.start, calmEnv), (.recv [0x80, 0xfd, 1, 1, 0, 4], calmEnv),
            (.recv [0x80, 0xfd, 1, 2, 0, 4], calmEnv)]).ld.out ∧
      ¬ Carries [] :=
  ⟨by decide, not_carries_nil⟩

end AccelPpp.Ppp.Ccp
