import AccelPpp.Ppp.Fsm

/-!
# The restart timer of the four control protocols

This module puts the callbacks of `ppp_lcp.c`, `ppp_ccp.c`, `ppp_ipcp.c` and `ppp_ipv6cp.c` into the
automaton of `ppp_fsm.c` and asks when the restart timer is armed **exactly** in the states that
wait for an answer (`TimerInv`).

* LCP's `layer_down` and `layer_finished` leave the machine alone. Its `layer_up` starts the
  upper layers; if one of them refuses, the session is terminated there and then, and
  `lcp_layer_finish` calls `ppp_fsm_close` *before* `layer_up` has returned.
* An NCP's `layer_down` is `ppp_fsm_close`, and its `layer_finished` sets the state to Closed.
  In the source the definition is circular (`ppp_fsm_close` calls `layer_down`); the inner call
  finds the machine in Closing and does nothing (`ncpOps_layerDown`).
* `send_conf_req` may fail; for IPCP and IPv6CP it may call `ppp_fsm_close2` and report success.

What the environment decides during one event is in `Env`. No event calls `send_conf_req` or
`layer_up` twice, so one outcome for each is enough. `timerInv_step_iff` says exactly which events
keep the invariant (`KeepsTimer`), and the run theorem lifts this by `Transition.always_iff_along`.
-/

namespace AccelPpp.Ppp

/-- The network control protocols. -/
inductive Ncp
  | ccp
  | ipcp
  | ipv6cp
  deriving DecidableEq

/-- The protocols that embed a `ppp_fsm_t`. -/
inductive Proto
  | lcp
  | ncp (n : Ncp)
  deriving DecidableEq

/-- What a protocol sends or tells the session. -/
inductive LayerOut
  | confReq
  | confAck
  | confNak
  | confRej
  | codeRej
  | termReq
  | termAck
  /-- `ppp_layer_started` -/
  | layerStarted
  /-- `ppp_layer_finished` -/
  | layerFinished
  /-- `ppp_layer_passive` -/
  | layerPassive
  /-- `ap_session_terminate` -/
  | sessionTerminate
  deriving DecidableEq

/-- The part of `ppp_lcp_t`, `ppp_ccp_t`, `ppp_ipcp_t` and `ppp_ipv6cp_t` that the callbacks
of the machine use. -/
structure LayerData where
  started : Bool
  /-- `ld.passive`, which keeps CCP from sending requests. -/
  passive : Bool
  /-- `ses.terminating` -/
  terminating : Bool
  out : List LayerOut
  deriving DecidableEq

/-- How the options of a Configure-Request could be written: all of them, or the first negative
result among their `send_conf_req` handlers. -/
inductive OptResult
  | written
  | termAck
  | close
  | fail
  deriving DecidableEq

/-- What the rest of the program answers during one event. -/
structure Env where
  /-- The outcome of the option handlers when a Configure-Request is built. -/
  options : OptResult
  /-- An upper layer that `layer_up` starts refuses to start. -/
  upRefused : Bool
  /-- `ccp_set_flags` fails. -/
  setFlagsFails : Bool
  /-- `delay_ack` is set: CCP is still negotiating. -/
  delayAck : Bool
  deriving DecidableEq

/-- `conf_ipv4 == IPV4_REQUIRE`, `conf_ipv6 == IPV6_REQUIRE`. -/
structure LayerConf where
  required : Bool
  deriving DecidableEq

/-- The machine of one control protocol. -/
abbrev Layer := PppFsm LayerData

def emit (o : LayerOut) (s : Layer) : Layer :=
  { s with ld := { s.ld with out := s.ld.out ++ [o] } }

/-! ### The callbacks of LCP -/

/-- The packets that every protocol of the family sends in the same way. -/
def sendOps : FsmOps LayerData where
  layerUp := id
  layerDown := id
  layerStarted := id
  layerFinished := id
  sendConfReq s := (emit .confReq s, 0)
  sendConfAck := emit .confAck
  sendConfNak := emit .confNak
  sendConfRej := emit .confRej
  sendCodeRej := id
  sendTermReq s := emit .termReq (incId s)
  sendTermAck := emit .termAck

section

variable (conf : LayerConf) (env : Env) (s : Layer)

/-- `lcp_layer_finished`. -/
def lcpLayerFinished : Layer :=
  if s.ld.started then
    let s : Layer := { s with ld := { s.ld with started := false } }
    if s.ld.terminating then emit .layerFinished s else emit .sessionTerminate s
  else emit .sessionTerminate s

/-- `send_conf_req` of `ppp_lcp.c`: any negative result of an option gives `-1`. -/
def lcpSendConfReq : Layer × Int :=
  match env.options with
  | .written => (emit .confReq s, 0)
  | _ => (s, -1)

/-- The table of LCP without `layer_up`. -/
def lcpBase : FsmOps LayerData :=
  { sendOps with
    layerFinished := lcpLayerFinished
    sendConfReq := lcpSendConfReq env
    sendCodeRej := emit .codeRej }

/-- `lcp_layer_finish` of a started layer, as `ppp_terminate` calls it. -/
def lcpLayerFinish : Layer :=
  if s.ld.started then pppFsmClose (lcpBase env) s else s

/-- `lcp_layer_up`. When an upper layer refuses to start, `ap_session_terminate` reaches
`lcp_layer_finish` before this function returns. -/
def lcpLayerUp : Layer :=
  if s.ld.started then s
  else
    let s := emit .layerStarted { s with ld := { s.ld with started := true } }
    if env.upRefused then
      lcpLayerFinish env
        (emit .sessionTerminate { s with ld := { s.ld with terminating := true } })
    else s

/-- The callbacks `lcp_layer_init` installs. -/
def lcpOps : FsmOps LayerData :=
  { lcpBase env with layerUp := lcpLayerUp env }

/-! ### The callbacks of the network control protocols -/

/-- `ccp_layer_up`. -/
def ccpLayerUp : Layer :=
  if s.ld.started then s
  else
    let s : Layer := { s with ld := { s.ld with started := true } }
    if env.setFlagsFails then emit .sessionTerminate s else emit .layerStarted s

/-- `ipcp_layer_up` and `ipv6cp_layer_up`. -/
def ipLayerUp : Layer :=
  if env.delayAck || s.ld.started then s
  else emit .layerStarted { s with ld := { s.ld with started := true } }

/-- `ccp_layer_finished`. -/
def ccpLayerFinished : Layer :=
  setState .closed <|
    if ¬ s.ld.started then emit .layerPassive s
    else if ¬ s.ld.terminating then emit .sessionTerminate s
    else s

/-- `ipcp_layer_finished`. -/
def ipcpLayerFinished : Layer :=
  setState .closed <|
    if ¬ s.ld.started then
      if conf.required then emit .sessionTerminate s else emit .layerPassive s
    else if ¬ s.ld.terminating then emit .sessionTerminate s
    else s

/-- `ipv6cp_layer_finished`, which lets a started session go on when IPv6 is not required. -/
def ipv6cpLayerFinished : Layer :=
  setState .closed <|
    if ¬ s.ld.started then
      if conf.required then emit .sessionTerminate s else emit .layerPassive s
    else if ¬ s.ld.terminating then
      if conf.required then emit .sessionTerminate s else s
    else s

/-- `send_conf_req` of `ppp_ccp.c`. -/
def ccpSendConfReq : Layer × Int :=
  if s.ld.passive then (s, 0) else lcpSendConfReq env s

/-- `send_conf_req` of `ppp_ipcp.c` and `ppp_ipv6cp.c`. -/
def ipSendConfReq : Layer × Int :=
  match env.options with
  | .written => (emit .confReq s, 0)
  | .termAck => (s, 0)
  | .close => if conf.required then (s, -1) else (pppFsmClose2 s, 0)
  | .fail => (s, -1)

/-- `send_conf_ack` of `ppp_ipcp.c` and `ppp_ipv6cp.c`: withheld while CCP is negotiating. -/
def ipSendConfAck : Layer :=
  if env.delayAck then s else emit .confAck s

/-- The table of a network control protocol without `layer_down`. -/
def ncpBase : Ncp → FsmOps LayerData
  | .ccp =>
    { sendOps with
      layerUp := ccpLayerUp env
      layerFinished := ccpLayerFinished
      sendConfReq := ccpSendConfReq env }
  | .ipcp =>
    { sendOps with
      layerUp := ipLayerUp env
      layerFinished := ipcpLayerFinished conf
      sendConfReq := ipSendConfReq conf env
      sendConfAck := ipSendConfAck env }
  | .ipv6cp =>
    { sendOps with
      layerUp := ipLayerUp env
      layerFinished := ipv6cpLayerFinished conf
      sendConfReq := ipSendConfReq conf env
      sendConfAck := ipSendConfAck env }

/-- The table of a network control protocol: its `layer_down` is `ppp_fsm_close`. -/
def ncpOps (n : Ncp) : FsmOps LayerData :=
  { ncpBase conf env n with layerDown := pppFsmClose (ncpBase conf env n) }

/-- The callbacks of each protocol. -/
def layerOps : Proto → FsmOps LayerData
  | .lcp => lcpOps env
  | .ncp n => ncpOps conf env n

end

/-- **The knot is tied.** The `layer_down` of a network control protocol is `ppp_fsm_close` with its
own table: the call that this makes in turn finds the machine in Closing and does nothing. -/
theorem ncpOps_layerDown (conf : LayerConf) (env : Env) (n : Ncp) :
    (ncpOps conf env n).layerDown = pppFsmClose (ncpOps conf env n) := by
  funext s
  have hbase : (ncpBase conf env n).layerDown = id := by cases n <;> rfl
  cases hs : s.fsmState <;> simp [pppFsmClose, hs, ncpOps, hbase, setState]

/-! ### Events -/

section

variable (conf : LayerConf) (env : Env)

/-- One event on the machine of protocol `p`, with what the environment answers meanwhile. -/
def layerStep (p : Proto) (s : Layer) (e : FsmEvent × Env) : Layer :=
  fsmStep (layerOps conf e.2 p) s e.1

/-- The machine after `ppp_fsm_init`. -/
def layerInit (fconf : FsmConf) (rnd : UInt8) (passive : Bool) : Layer :=
  pppFsmInit fconf rnd ⟨false, passive, false, []⟩

/-- The states that wait for an answer and need a timeout to leave. -/
def FsmState.waiting : List FsmState :=
  [.closing, .stopping, .reqSent, .ackRcvd, .ackSent]

/-- **The timer is armed exactly in the waiting states.** -/
def TimerInv {δ : Type} (s : PppFsm δ) : Prop :=
  s.restartTimer = true ↔ s.fsmState ∈ FsmState.waiting

instance {δ : Type} (s : PppFsm δ) : Decidable (TimerInv s) :=
  inferInstanceAs (Decidable (_ ↔ _))

/-! ### When an event keeps the invariant -/

/-- `send_conf_req` of protocol `p` reports failure. -/
def reqFails (d : LayerData) : Proto → Bool
  | .lcp => env.options != .written
  | .ncp .ccp => !d.passive && env.options != .written
  | .ncp _ => env.options == .fail || (env.options == .close && conf.required)

/-- `send_conf_req` of protocol `p` calls `ppp_fsm_close2` and reports success. -/
def reqCloses : Proto → Bool
  | .lcp | .ncp .ccp => false
  | .ncp _ => env.options == .close && !conf.required

/-- `layer_up` of protocol `p` closes the machine from within. -/
def upCloses (d : LayerData) : Proto → Bool
  | .lcp => env.upRefused && !d.started
  | .ncp _ => false

/-- The next failure is the one that reaches `max_failure`. -/
def lastFailure (s : Layer) : Bool :=
  s.confFailure + 1 == s.maxFailure

/-- Reopening from Opened: only a network control protocol re-arms the timer (in `layer_down`),
and the new request must not close the machine. -/
def ReopensTimed (p : Proto) (s : Layer) : Prop :=
  s.fsmState = .opened → reqCloses conf env p = false ∧ p ≠ .lcp

/-- **The condition under which one event keeps `TimerInv`**, on the protocol, the state before
the event, the event and what the environment answers. -/
def KeepsTimer (p : Proto) (s : Layer) : FsmEvent × Env → Prop
  | (.lowerUp, env) =>
    s.fsmState = .starting → reqFails conf env s.ld p = false ∧ reqCloses conf env p = false
  | (.lowerDown, _) => s.fsmState ∉ FsmState.waiting ∧ (s.fsmState = .opened → p = .lcp)
  | (.openLayer, env) =>
    s.fsmState ≠ .closing ∧
      (s.fsmState ∈ [FsmState.stopping, .stopped, .opened] →
        reqFails conf env s.ld p = false ∧ reqCloses conf env p = false)
  | (.recvConfReqAck, env) =>
    (s.fsmState = .stopped → reqCloses conf env p = false) ∧ ReopensTimed conf env p s ∧
      (s.fsmState = .ackRcvd → upCloses env s.ld p = false)
  | (.recvConfReqNak, env) =>
    (s.fsmState = .stopped → reqCloses conf env p = false) ∧ ReopensTimed conf env p s ∧
      (s.fsmState ∈ [FsmState.reqSent, .ackRcvd] → lastFailure s → p = .lcp)
  | (.recvConfReqRej, env) =>
    (s.fsmState = .stopped →
        if lastFailure s then p ≠ .lcp else reqCloses conf env p = false) ∧
      ReopensTimed conf env p s ∧
      (s.fsmState ∈ [FsmState.reqSent, .ackRcvd] → lastFailure s → p = .lcp)
  | (.recvConfAck, env) =>
    (s.fsmState = .ackRcvd → reqCloses conf env p = false) ∧ ReopensTimed conf env p s ∧
      (s.fsmState = .ackSent → upCloses env s.ld p = false)
  | (.recvConfRej, env) =>
    (s.fsmState = .ackRcvd → reqCloses conf env p = false) ∧ ReopensTimed conf env p s
  | (.recvTermAck, env) =>
    s.fsmState ∉ [FsmState.reqSent, .ackRcvd, .ackSent] ∧ ReopensTimed conf env p s
  | (.recvCodeRejBad, _) => s.fsmState ∉ FsmState.waiting ∧ (s.fsmState = .opened → p ≠ .lcp)
  | (.closeLayer, _) | (.close2, _) | (.timeout, _) | (.recvTermReq, _) | (.recvUnk, _)
  | (.recvCodeRejPerm, _) => True

end

/-! ### What the callbacks do to the state and the timer

`TimerInv` looks at two components of the machine, its **view**. Each function below is described
by what it does to the view, and the events are then analysed on views alone. -/

/-- The state and the timer. -/
def view {δ : Type} (s : PppFsm δ) : FsmState × Bool :=
  (s.fsmState, s.restartTimer)

section View

variable {δ : Type} (s : PppFsm δ)

lemma timerInv_iff_view : TimerInv s ↔ ((view s).2 = true ↔ (view s).1 ∈ FsmState.waiting) :=
  Iff.rfl

lemma TimerInv.view_eq {s : PppFsm δ} (h : TimerInv s) :
    view s = (s.fsmState, decide (s.fsmState ∈ FsmState.waiting)) := by
  refine Prod.ext rfl ?_
  rw [Bool.eq_iff_iff, decide_eq_true_iff]
  exact h

@[simp] lemma view_setState (st : FsmState) : view (setState st s) = (st, (view s).2) := rfl

@[simp] lemma view_decCounter : view (decCounter s) = view s := rfl

@[simp] lemma view_incFailure : view (incFailure s) = view s := rfl

@[simp] lemma view_incId : view (incId s) = view s := rfl

@[simp] lemma view_stopTimer : view (stopTimer s) = ((view s).1, false) := by
  cases hr : s.restartTimer <;> simp [stopTimer, view, hr]

@[simp] lemma view_initReqCounter (n : Int) : view (initReqCounter n s) = ((view s).1, true) := by
  cases hr : s.restartTimer <;> simp [initReqCounter, view, hr]

@[simp] lemma view_zeroReqCounter : view (zeroReqCounter s) = ((view s).1, true) := by
  cases hr : s.restartTimer <;> simp [zeroReqCounter, view, hr]

@[simp] lemma view_pppFsmClose2 : view (pppFsmClose2 s) = (.closed, false) := by
  simp [pppFsmClose2]

end View

section Callbacks

variable (conf : LayerConf) (env : Env) (p : Proto) (n : Ncp) (s : Layer)

/-- The other packets, and the notice that the layer starts, leave the view alone. -/
@[simp] lemma view_send :
    view ((layerOps conf env p).sendConfNak s) = view s ∧
    view ((layerOps conf env p).sendConfRej s) = view s ∧
    view ((layerOps conf env p).sendTermReq s) = view s ∧
    view ((layerOps conf env p).sendTermAck s) = view s ∧
    view ((layerOps conf env p).sendCodeRej s) = view s ∧
    view ((layerOps conf env p).layerStarted s) = view s := by
  rcases p with _ | _ | _ | _ <;> exact ⟨rfl, rfl, rfl, rfl, rfl, rfl⟩

@[simp] lemma view_sendConfAck : view ((layerOps conf env p).sendConfAck s) = view s := by
  have hip : view (ipSendConfAck env s) = view s := by
    unfold ipSendConfAck; split <;> rfl
  rcases p with _ | _ | _ | _
  exacts [rfl, rfl, hip, hip]

@[simp] lemma view_layerFinished_lcp :
    view ((layerOps conf env .lcp).layerFinished s) = view s := by
  show view (lcpLayerFinished s) = view s
  unfold lcpLayerFinished; dsimp only; repeat' split
  all_goals rfl

@[simp] lemma view_layerFinished_ncp :
    view ((layerOps conf env (.ncp n)).layerFinished s) = (.closed, (view s).2) := by
  cases n
  · show view (ccpLayerFinished s) = _
    unfold ccpLayerFinished; split
    · rfl
    split <;> rfl
  all_goals
    simp only [layerOps, ncpOps, ncpBase, ipcpLayerFinished, ipv6cpLayerFinished]
    repeat' split
    all_goals rfl

@[simp] lemma view_layerDown_lcp : view ((layerOps conf env .lcp).layerDown s) = view s := rfl

/-- `send_conf_req` closes the machine, fails, or leaves alone what the timer depends on. -/
@[simp] lemma sendConfReq_spec :
    view ((layerOps conf env p).sendConfReq s).1 =
      (if reqCloses conf env p then .closed else (view s).1, !reqCloses conf env p && (view s).2) ∧
    (((layerOps conf env p).sendConfReq s).2 = 0 ↔ reqFails conf env s.ld p = false) ∧
    lastFailure ((layerOps conf env p).sendConfReq s).1 = lastFailure s := by
  have hlcp : view (lcpSendConfReq env s).1 = view s ∧
      ((lcpSendConfReq env s).2 = 0 ↔ (env.options != .written) = false) ∧
      lastFailure (lcpSendConfReq env s).1 = lastFailure s := by
    rw [lcpSendConfReq]
    cases env.options <;> exact ⟨rfl, by simp, rfl⟩
  rcases p with _ | _ | _ | _
  · exact hlcp
  · simp only [layerOps, ncpOps, ncpBase, ccpSendConfReq, reqCloses, reqFails]
    cases s.ld.passive
    · exact hlcp
    · simp
  all_goals
    have hkept : lastFailure (pppFsmClose2 s) = lastFailure s := by
      unfold pppFsmClose2 stopTimer; split <;> rfl
    rcases env with ⟨_ | _ | _ | _, -, -, -⟩ <;> rcases conf with ⟨_ | _⟩ <;>
      simp [layerOps, ncpOps, ncpBase, ipSendConfReq, reqCloses, reqFails, hkept]
    all_goals first | rfl | exact ⟨rfl, rfl⟩

@[simp] lemma lastFailure_incId : lastFailure (incId s) = lastFailure s := rfl

@[simp] lemma lastFailure_decCounter : lastFailure (decCounter s) = lastFailure s := rfl

@[simp] lemma lastFailure_initReqCounter (k : Int) :
    lastFailure (initReqCounter k s) = lastFailure s := by
  cases hr : s.restartTimer <;> simp [initReqCounter, lastFailure, hr]

@[simp] lemma confFailure_incFailure :
    (incFailure s).confFailure = (incFailure s).maxFailure ↔ lastFailure s = true := by
  simp [incFailure, lastFailure]

/-- The view after `layer_down` of a network control protocol. -/
@[simp] lemma view_layerDown_ncp : view ((layerOps conf env (.ncp n)).layerDown s) =
    match (view s).1 with
    | .starting | .stopped => (.closed, false)
    | .stopping => (.closing, (view s).2)
    | .opened | .reqSent | .ackRcvd | .ackSent => (.closing, true)
    | _ => view s := by
  show view ((ncpOps conf env n).layerDown s) = _
  rw [ncpOps_layerDown]
  change view (pppFsmClose (layerOps conf env (.ncp n)) s) = _
  have hv : (view s).1 = s.fsmState := rfl
  rw [pppFsmClose]
  cases hs : s.fsmState <;> simp [hv, hs]

/-- `layer_up` is called with the machine still in Ack-Rcvd or Ack-Sent. -/
lemma view_layerUp_snd (h : (view s).1 = .ackRcvd ∨ (view s).1 = .ackSent) :
    (view ((layerOps conf env p).layerUp s)).2 = (upCloses env s.ld p || (view s).2) := by
  change s.fsmState = _ ∨ s.fsmState = _ at h
  rcases p with _ | _ | _ | _
  · -- LCP closes itself again when the session refuses to go up
    show (view (lcpLayerUp env s)).2 = _
    rw [lcpLayerUp]
    cases hst : s.ld.started <;> cases hup : env.upRefused
    · simp [upCloses, hup, emit, view]
    · rcases h with h | h <;> cases hr : s.restartTimer <;>
        simp [upCloses, hup, hst, emit, view, lcpLayerFinish, pppFsmClose, h, setState, lcpBase,
          sendOps, initReqCounter, incId, hr]
    · simp [upCloses, hup]
    · simp [upCloses, hst]
  · show (view (ccpLayerUp env s)).2 = _
    unfold ccpLayerUp; dsimp only; repeat' split
    all_goals rfl
  all_goals
    show (view (ipLayerUp env s)).2 = _
    unfold ipLayerUp; split <;> rfl

/-- Where no timer runs, in Opened, only the `layer_down` of a network control protocol starts
it. -/
lemma view_layerDown_opened (hv : view s = (.opened, false)) :
    (view ((layerOps conf env p).layerDown s)).2 = decide (p ≠ .lcp) := by
  cases p <;> simp [hv]

lemma reqFails_of_reqCloses (d : LayerData) (h : reqCloses conf env p = true) :
    reqFails conf env d p = false := by
  rcases p with _ | _ | _ | _ <;> simp_all [reqCloses, reqFails]

/-! What the environment's answers depend on survives until it is asked. -/

@[simp] lemma upCloses_sendConfAck :
    upCloses env ((layerOps conf env p).sendConfAck s).ld p = upCloses env s.ld p := by
  rcases p with _ | _ <;> rfl

@[simp] lemma layerStarted_ld : ((layerOps conf env p).layerStarted s).ld = s.ld := by
  rcases p with _ | _ | _ | _ <;> rfl

lemma reqFails_layerDown (hs : s.fsmState = .opened) :
    reqFails conf env ((layerOps conf env p).layerDown s).ld p = reqFails conf env s.ld p := by
  rcases p with _ | _ | _ | _
  · rfl
  · have : ((layerOps conf env (.ncp .ccp)).layerDown s).ld.passive = s.ld.passive := by
      show (pppFsmClose _ s).ld.passive = _
      simp [pppFsmClose, hs, ncpBase, sendOps, emit]
    simp [reqFails, this]
  · rfl
  · rfl

end Callbacks

/-! ### One event -/

section Events

variable {conf : LayerConf} {env : Env} {p : Proto} {s : Layer}

attribute [local simp] timerInv_iff_view FsmState.waiting KeepsTimer ReopensTimed
  view_layerDown_opened

/-- `ppp_fsm_lower_up` from Starting, which arms the timer first. -/
lemma timerInv_lowerUp_starting (hs : s.fsmState = .starting) :
    TimerInv (pppFsmLowerUp (layerOps conf env p) s).1 ↔
      reqFails conf env s.ld p = false ∧ reqCloses conf env p = false := by
  have hv : (view s).1 = .starting := hs
  cases hc : reqCloses conf env p
  · cases hf : reqFails conf env s.ld p <;>
      simp [pppFsmLowerUp, hs, hv, hf, hc]
  · have hf := reqFails_of_reqCloses conf env p s.ld hc
    simp [pppFsmLowerUp, hs, hf, hc]

/-- The states from which `ppp_fsm_open` goes down to Starting and up again. -/
lemma lowerDown_reopens {conf : LayerConf} {env : Env} {p : Proto}
    (hs : s.fsmState ∈ [FsmState.stopping, .stopped, .opened]) :
    (pppFsmLowerDown (layerOps conf env p) s).fsmState = .starting ∧
      reqFails conf env (pppFsmLowerDown (layerOps conf env p) s).ld p =
        reqFails conf env s.ld p := by
  simp only [List.mem_cons, List.not_mem_nil, or_false] at hs
  rcases hs with hs | hs | hs
  · simp [pppFsmLowerDown, hs]
  · simp [pppFsmLowerDown, hs]
  · simp [pppFsmLowerDown, hs, reqFails_layerDown conf env p s hs]

lemma timerInv_close2 : TimerInv (pppFsmClose2 s) := by
  simp

variable (hv : view s = (s.fsmState, decide (s.fsmState ∈ FsmState.waiting)))

include hv

lemma timerInv_lowerUp :
    TimerInv (pppFsmLowerUp (layerOps conf env p) s).1 ↔ KeepsTimer conf p s (.lowerUp, env) := by
  by_cases hs : s.fsmState = .starting
  · rw [timerInv_lowerUp_starting hs]
    simp [hs]
  · cases hs' : s.fsmState <;>
      simp_all [pppFsmLowerUp]

lemma timerInv_lowerDown :
    TimerInv (pppFsmLowerDown (layerOps conf env p) s) ↔ KeepsTimer conf p s (.lowerDown, env) := by
  rw [pppFsmLowerDown]
  cases hs : s.fsmState
  all_goals simp [hs, hv]

lemma timerInv_open :
    TimerInv (pppFsmOpen (layerOps conf env p) s).1 ↔ KeepsTimer conf p s (.openLayer, env) := by
  by_cases hre : s.fsmState ∈ [FsmState.stopping, .stopped, .opened]
  · -- down to Starting and up again, where the timer is armed anew
    obtain ⟨hst, hld⟩ := lowerDown_reopens hre
    have hopen : (pppFsmOpen (layerOps conf env p) s).1 =
        (pppFsmLowerUp (layerOps conf env p) (pppFsmLowerDown (layerOps conf env p) s)).1 := by
      rw [pppFsmOpen]
      cases hs : s.fsmState <;> simp_all
    have hne : s.fsmState ≠ .closing := by
      intro hc
      simp [hc] at hre
    rw [hopen, timerInv_lowerUp_starting hst, hld]
    simp only [KeepsTimer, hre, hne, ne_eq, not_false_eq_true, true_and, forall_const]
  · cases hs : s.fsmState
    case closed =>
      cases hc : reqCloses conf env p <;> cases hf : reqFails conf env s.ld p <;>
        simp [pppFsmOpen, hs, hc, hf]
    all_goals
      simp_all [pppFsmOpen, pppFsmLowerDown, pppFsmLowerUp]

lemma timerInv_close : TimerInv (pppFsmClose (layerOps conf env p) s) := by
  rw [pppFsmClose]
  cases hs : s.fsmState
  case starting => cases p <;> simp [hv, hs]
  all_goals simp [hs, hv]

/-- A timeout is safe. -/
lemma timerInv_timeout : TimerInv (restartTimerFunc (layerOps conf env p) s) := by
  rw [restartTimerFunc, pppFsmTimeout0, pppFsmTimeout1]
  split
  · -- retransmissions are left: a request that closes the layer has deleted the timer as well
    cases hs : s.fsmState
    case ackRcvd | reqSent | ackSent =>
      cases hc : reqCloses conf env p <;>
        simp [hs, hv, hc]
    all_goals simp [hs, hv]
  · cases hs : s.fsmState <;> cases p <;> simp [hs, hv]

lemma timerInv_recvConfReqAck :
    TimerInv (pppFsmRecvConfReqAck (layerOps conf env p) s) ↔
      KeepsTimer conf p s (.recvConfReqAck, env) := by
  rw [pppFsmRecvConfReqAck]
  cases hs : s.fsmState
  case ackRcvd =>
    have hup := view_layerUp_snd conf env p (stopTimer ((layerOps conf env p).sendConfAck s))
      (by simp [hv, hs])
    simp [hs, hup]
  all_goals simp [hs, hv]

lemma timerInv_recvConfReqNak :
    TimerInv (pppFsmRecvConfReqNak (layerOps conf env p) s) ↔
      KeepsTimer conf p s (.recvConfReqNak, env) := by
  rw [pppFsmRecvConfReqNak]
  cases hs : s.fsmState
  case reqSent | ackRcvd =>
    cases hl : lastFailure s <;> cases p <;>
      simp [hs, hv, hl]
  all_goals simp [hs, hv]

lemma timerInv_recvConfReqRej :
    TimerInv (pppFsmRecvConfReqRej (layerOps conf env p) s) ↔
      KeepsTimer conf p s (.recvConfReqRej, env) := by
  rw [pppFsmRecvConfReqRej]
  cases hs : s.fsmState
  case stopped =>
    cases hl : lastFailure s
    · simp [hs, hl]
    cases p with
    | lcp => simp [hs, hl, hv, reqCloses]
    | ncp n =>
      cases hc : reqCloses conf env (.ncp n) <;>
        simp [hs, hl, hc, hv]
  case reqSent | ackRcvd | ackSent =>
    cases hl : lastFailure s <;> cases p <;>
      simp [hs, hv, hl]
  all_goals simp [hs, hv]

lemma timerInv_recvConfAck :
    TimerInv (pppFsmRecvConfAck (layerOps conf env p) s) ↔
      KeepsTimer conf p s (.recvConfAck, env) := by
  rw [pppFsmRecvConfAck]
  cases hs : s.fsmState
  case ackSent =>
    have hup := view_layerUp_snd conf env p (stopTimer (incId s)) (by simp [hv, hs])
    simp [hs, hup]
  all_goals simp [hs, hv]

lemma timerInv_recvConfRej :
    TimerInv (pppFsmRecvConfRej (layerOps conf env p) s) ↔
      KeepsTimer conf p s (.recvConfRej, env) := by
  rw [pppFsmRecvConfRej]
  cases hs : s.fsmState
  case reqSent | ackSent =>
    cases hl : lastFailure s <;> cases hc : reqCloses conf env p <;> cases p <;>
      simp [hs, hv, hl, hc]
  all_goals simp [hs, hv]

lemma timerInv_recvTermReq : TimerInv (pppFsmRecvTermReq (layerOps conf env p) s) := by
  rw [pppFsmRecvTermReq]
  cases hs : s.fsmState <;> simp [hs, hv]

lemma timerInv_recvTermAck :
    TimerInv (pppFsmRecvTermAck (layerOps conf env p) s) ↔
      KeepsTimer conf p s (.recvTermAck, env) := by
  rw [pppFsmRecvTermAck]
  cases hs : s.fsmState
  case closing | stopping =>
    -- `layer_finished` takes a network control protocol to Closed and leaves LCP where it is
    cases p <;> simp [hs]
  all_goals simp [hs, hv]

lemma timerInv_recvUnk : TimerInv (pppFsmRecvUnk (layerOps conf env p) s) := by
  simp [pppFsmRecvUnk, hv]

lemma timerInv_recvCodeRejPerm : TimerInv (pppFsmRecvCodeRejPerm s) := by
  rw [pppFsmRecvCodeRejPerm]
  cases hs : s.fsmState <;> simp [hs, hv]

lemma timerInv_recvCodeRejBad :
    TimerInv (pppFsmRecvCodeRejBad (layerOps conf env p) s) ↔
      KeepsTimer conf p s (.recvCodeRejBad, env) := by
  rw [pppFsmRecvCodeRejBad]
  cases hs : s.fsmState
  case closing | stopping | reqSent | ackRcvd | ackSent =>
    cases p <;> simp [hs, hv]
  all_goals simp [hs, hv]

end Events

/-- **One event keeps the invariant exactly when it meets `KeepsTimer`.** -/
theorem timerInv_step_iff (conf : LayerConf) (p : Proto) (s : Layer) (e : FsmEvent × Env)
    (h : TimerInv s) : TimerInv (layerStep conf p s e) ↔ KeepsTimer conf p s e := by
  obtain ⟨ev, env⟩ := e
  have hv := h.view_eq
  cases ev with
  | lowerUp => exact timerInv_lowerUp hv
  | lowerDown => exact timerInv_lowerDown hv
  | openLayer => exact timerInv_open hv
  | closeLayer => exact iff_of_true (timerInv_close hv) trivial
  | close2 => exact iff_of_true timerInv_close2 trivial
  | timeout =>
    refine iff_of_true ?_ trivial
    show TimerInv (if s.restartTimer then restartTimerFunc (layerOps conf env p) s else s)
    split
    · exact timerInv_timeout hv
    · exact h
  | recvConfReqAck => exact timerInv_recvConfReqAck hv
  | recvConfReqNak => exact timerInv_recvConfReqNak hv
  | recvConfReqRej => exact timerInv_recvConfReqRej hv
  | recvConfAck => exact timerInv_recvConfAck hv
  | recvConfRej => exact timerInv_recvConfRej hv
  | recvTermReq => exact iff_of_true (timerInv_recvTermReq hv) trivial
  | recvTermAck => exact timerInv_recvTermAck hv
  | recvUnk => exact iff_of_true (timerInv_recvUnk hv) trivial
  | recvCodeRejPerm => exact iff_of_true (timerInv_recvCodeRejPerm hv) trivial
  | recvCodeRejBad => exact timerInv_recvCodeRejBad hv

/-! ### Every run -/

/-- **The restart timer over whole runs**: it is armed exactly in the waiting states throughout the
run if and only if each of its steps meets `KeepsTimer`. -/
theorem always_timerInv_iff (fconf : FsmConf) (conf : LayerConf) (p : Proto) (rnd : UInt8)
    (passive : Bool) (es : List (FsmEvent × Env)) :
    Transition.Always (layerStep conf p) TimerInv (layerInit fconf rnd passive) es ↔
      Transition.Along (layerStep conf p) (KeepsTimer conf p) (layerInit fconf rnd passive) es :=
  Transition.always_iff_along (timerInv_step_iff conf p)
    (by simp [TimerInv, layerInit, pppFsmInit, FsmState.waiting])

/-- LCP is started, has sent its first request, and the peer answers with a Terminate-Ack: the
machine stays in Req-Sent, and no timeout will ever take it out of there. -/
theorem lcp_term_ack_stops_timer :
    let env : Env := ⟨.written, false, false, false⟩
    let s := Transition.run (layerStep ⟨false⟩ .lcp) (layerInit {} 0 false)
      [(.lowerUp, env), (.openLayer, env), (.recvTermAck, env)]
    s.fsmState = .reqSent ∧ s.restartTimer = false ∧ ¬ TimerInv s := by
  decide

end AccelPpp.Ppp
