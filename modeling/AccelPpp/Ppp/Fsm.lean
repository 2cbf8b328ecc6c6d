import AccelPpp.Lib.Run

/-!
# The option negotiation automaton (`ppp/ppp_fsm.c`)

LCP, CCP, IPCP and IPv6CP embed one `struct ppp_fsm_t` and drive it with the functions of
`ppp_fsm.c`. The machine calls back into the protocol through a table of function pointers, and the
callbacks may act on the machine again: an NCP's `layer_down` is `ppp_fsm_close`, and the
`send_conf_req` of IPCP may call `ppp_fsm_close2`.

* `PppFsm δ` is the C structure; `δ` is the structure it is embedded in.
* `FsmOps δ` is the table of callbacks. A `NULL` pointer is the callback that does nothing.
* `restartTimer` records whether `restart_timer.tpd` is set. The timer is **periodic**: its
  expiry leaves it armed, and only `stop_timer` disarms it.

A `switch` with fall-through is a `match` whose arms share the code that the fall-through shares.
-/

namespace AccelPpp.Ppp

/-- `FSM_STATE`. -/
inductive FsmState
  | initial
  | starting
  | closed
  | stopped
  | closing
  | stopping
  | reqSent
  | ackRcvd
  | ackSent
  | opened
  deriving DecidableEq

/-- `struct ppp_fsm_t`, without its callbacks. -/
structure PppFsm (δ : Type) where
  fsmState : FsmState
  /-- `restart_timer.tpd` is set: the timer is armed. -/
  restartTimer : Bool
  restartCounter : Int
  maxTerminate : Int
  maxConfigure : Int
  maxFailure : Int
  confFailure : Int
  id : UInt8
  recvId : UInt8
  /-- The structure the machine is embedded in. -/
  ld : δ
  deriving DecidableEq

/-- The callbacks of `struct ppp_fsm_t`. `sendConfReq` also returns the C result, which is
non-zero when the request could not be built. -/
structure FsmOps (δ : Type) where
  layerUp : PppFsm δ → PppFsm δ
  layerDown : PppFsm δ → PppFsm δ
  layerStarted : PppFsm δ → PppFsm δ
  layerFinished : PppFsm δ → PppFsm δ
  sendConfReq : PppFsm δ → PppFsm δ × Int
  sendConfAck : PppFsm δ → PppFsm δ
  sendConfNak : PppFsm δ → PppFsm δ
  sendConfRej : PppFsm δ → PppFsm δ
  sendCodeRej : PppFsm δ → PppFsm δ
  sendTermReq : PppFsm δ → PppFsm δ
  sendTermAck : PppFsm δ → PppFsm δ

/-- The limits of the `[ppp]` section of the configuration, with the defaults of the source. -/
structure FsmConf where
  confMaxTerminate : Int := 2
  confMaxConfigure : Int := 10
  confMaxFailure : Int := 10

variable {δ : Type}

/-- `ppp_fsm_init` on a structure that `memset` has cleared; `rnd` is the value of `random()`. -/
def pppFsmInit (conf : FsmConf) (rnd : UInt8) (ld : δ) : PppFsm δ where
  fsmState := .initial
  restartTimer := false
  restartCounter := 0
  maxTerminate := conf.confMaxTerminate
  maxConfigure := conf.confMaxConfigure
  maxFailure := conf.confMaxFailure
  confFailure := 0
  id := rnd
  recvId := 0
  ld := ld

/-! ### The restart timer and counter -/

section

variable (s : PppFsm δ)

def stopTimer : PppFsm δ :=
  if s.restartTimer then { s with restartTimer := false } else s

def initReqCounter (timeout : Int) (s : PppFsm δ) : PppFsm δ :=
  let s := { s with restartCounter := timeout }
  if s.restartTimer then s else { s with restartTimer := true }

def zeroReqCounter : PppFsm δ :=
  let s := { s with restartCounter := 0 }
  if s.restartTimer then s else { s with restartTimer := true }

/-- `--layer->restart_counter`. -/
def decCounter : PppFsm δ :=
  { s with restartCounter := s.restartCounter - 1 }

/-- `layer->fsm_state = st`. -/
def setState (st : FsmState) (s : PppFsm δ) : PppFsm δ :=
  { s with fsmState := st }

/-- `++layer->conf_failure`. -/
def incFailure : PppFsm δ :=
  { s with confFailure := s.confFailure + 1 }

/-- `++layer->id`. -/
def incId : PppFsm δ :=
  { s with id := s.id + 1 }

end

/-! ### Administrative events -/

section Ops

variable (ops : FsmOps δ)

section

variable (s : PppFsm δ)

/-- `ppp_fsm_lower_up`, with its result. -/
def pppFsmLowerUp : PppFsm δ × Int :=
  match s.fsmState with
  | .initial => (setState .closed s, 0)
  | .starting =>
    let s := decCounter (initReqCounter s.maxConfigure s)
    let (s, r) := ops.sendConfReq s
    if r ≠ 0 then (s, -1) else (setState .reqSent s, 0)
  | _ => (s, 0)

/-- `ppp_fsm_lower_down`. -/
def pppFsmLowerDown : PppFsm δ :=
  match s.fsmState with
  | .closed | .closing => setState .initial s
  | .stopped => setState .starting (ops.layerStarted s)
  | .stopping | .reqSent | .ackRcvd | .ackSent => setState .starting s
  | .opened => setState .starting (ops.layerDown s)
  | _ => s

/-- `ppp_fsm_open`, with its result. The result of the nested `ppp_fsm_lower_up` is dropped. -/
def pppFsmOpen : PppFsm δ × Int :=
  match s.fsmState with
  | .initial => (setState .starting s, 0)
  | .starting => (s, 0)
  | .closed =>
    let s := setState .reqSent (decCounter (initReqCounter s.maxConfigure s))
    let (s, r) := ops.sendConfReq s
    if r ≠ 0 then (s, -1) else (s, 0)
  | .closing | .stopping | .stopped | .opened =>
    ((pppFsmLowerUp ops (pppFsmLowerDown ops s)).1, 0)
  | _ => (s, 0)

/-- `ppp_fsm_close`. -/
def pppFsmClose : PppFsm δ :=
  -- the code the `Opened` case falls into
  let terminate (s : PppFsm δ) :=
    setState .closing (ops.sendTermReq (initReqCounter s.maxTerminate s))
  match s.fsmState with
  | .starting => ops.layerFinished (setState .initial (stopTimer s))
  | .stopped => stopTimer (setState .closed s)
  | .stopping => setState .closing s
  | .opened => terminate (ops.layerDown (setState .closing s))
  | .reqSent | .ackRcvd | .ackSent => terminate s
  | _ => s

/-- `ppp_fsm_close2`. -/
def pppFsmClose2 : PppFsm δ :=
  setState .closed (stopTimer s)

/-! ### Timeouts -/

/-- `ppp_fsm_timeout0`: the counter has not run out. -/
def pppFsmTimeout0 : PppFsm δ :=
  match s.fsmState with
  | .closing | .stopping => ops.sendTermReq (decCounter s)
  | .ackRcvd => (ops.sendConfReq (decCounter (setState .reqSent s))).1
  | .reqSent | .ackSent => (ops.sendConfReq (decCounter s)).1
  | _ => s

/-- `ppp_fsm_timeout1`: the counter has run out. -/
def pppFsmTimeout1 : PppFsm δ :=
  match s.fsmState with
  | .closing => ops.layerFinished (setState .closed (stopTimer s))
  | .stopping | .ackRcvd | .reqSent | .ackSent =>
    ops.layerFinished (setState .stopped (stopTimer s))
  | _ => s

/-- `restart_timer_func`. -/
def restartTimerFunc : PppFsm δ :=
  if s.restartCounter > 0 then pppFsmTimeout0 ops s else pppFsmTimeout1 ops s

/-! ### Received packets -/

/-- `ppp_fsm_recv_conf_req_ack`: a Configure-Request with acceptable options. -/
def pppFsmRecvConfReqAck : PppFsm δ :=
  let ack (s : PppFsm δ) := setState .ackSent (ops.sendConfAck s)
  match s.fsmState with
  | .closed => ops.sendTermAck s
  | .stopped => ack (ops.sendConfReq (decCounter (initReqCounter s.maxConfigure s))).1
  | .reqSent | .ackSent => ack s
  | .ackRcvd => setState .opened (ops.layerUp (stopTimer (ops.sendConfAck s)))
  | .opened => ack (ops.sendConfReq (decCounter (ops.layerDown s))).1
  | _ => s

/-- `ppp_fsm_recv_conf_req_nak`: a Configure-Request with an option to be negotiated down. -/
def pppFsmRecvConfReqNak : PppFsm δ :=
  let nak (s : PppFsm δ) := setState .reqSent (ops.sendConfNak s)
  match s.fsmState with
  | .closed => ops.sendTermAck s
  | .stopped => nak (ops.sendConfReq (decCounter (initReqCounter s.maxConfigure s))).1
  | .ackSent => nak s
  | .reqSent | .ackRcvd =>
    let s := incFailure s
    if s.confFailure = s.maxFailure then ops.layerFinished s else ops.sendConfNak s
  | .opened => nak (ops.sendConfReq (decCounter (ops.layerDown s))).1
  | _ => s

/-- `ppp_fsm_recv_conf_req_rej`. Unlike its Nak sibling, the arm shared by Stopped and Ack-Sent
counts failures too, and calls `layer_down` when there are too many. -/
def pppFsmRecvConfReqRej : PppFsm δ :=
  let rej (s : PppFsm δ) :=
    let s := incFailure s
    if s.confFailure = s.maxFailure then ops.layerDown s
    else setState .reqSent (ops.sendConfRej s)
  match s.fsmState with
  | .closed => ops.sendTermAck s
  | .stopped => rej (ops.sendConfReq (decCounter (initReqCounter s.maxConfigure s))).1
  | .ackSent => rej s
  | .reqSent | .ackRcvd =>
    let s := incFailure s
    if s.confFailure = s.maxFailure then ops.layerFinished s else ops.sendConfRej s
  | .opened =>
    setState .reqSent (ops.sendConfRej (ops.sendConfReq (decCounter (ops.layerDown s))).1)
  | _ => s

/-- `ppp_fsm_recv_conf_ack`. -/
def pppFsmRecvConfAck : PppFsm δ :=
  let s := incId s
  match s.fsmState with
  | .closed | .stopped => ops.sendTermAck s
  | .reqSent => setState .ackRcvd s
  | .ackRcvd => setState .reqSent (ops.sendConfReq (decCounter s)).1
  | .ackSent => setState .opened (ops.layerUp (stopTimer s))
  | .opened => setState .reqSent (ops.sendConfReq (decCounter (ops.layerDown s))).1
  | _ => s

/-- `ppp_fsm_recv_conf_rej`, which the protocols also call for a Configure-Nak. In Req-Sent the
counter restarts from `max_failure`, in Ack-Sent from `max_configure`. -/
def pppFsmRecvConfRej : PppFsm δ :=
  let again (limit : Int) (s : PppFsm δ) :=
    let s := incFailure s
    if s.confFailure = s.maxFailure then ops.layerDown s
    else (ops.sendConfReq (decCounter (initReqCounter limit s))).1
  let s := incId s
  match s.fsmState with
  | .closed | .stopped => ops.sendTermAck s
  | .reqSent => again s.maxFailure s
  | .ackRcvd => setState .reqSent (ops.sendConfReq (decCounter s)).1
  | .ackSent => again s.maxConfigure s
  | .opened => setState .reqSent (ops.sendConfReq (decCounter (ops.layerDown s))).1
  | _ => s

/-- `ppp_fsm_recv_term_req`. -/
def pppFsmRecvTermReq : PppFsm δ :=
  match s.fsmState with
  | .opened => setState .stopping (zeroReqCounter (ops.sendTermAck (ops.layerDown s)))
  | .reqSent | .ackRcvd | .ackSent => setState .reqSent (ops.sendTermAck s)
  | _ => ops.sendTermAck s

/-- `ppp_fsm_recv_term_ack`. The timer is stopped **before** the state is looked at. -/
def pppFsmRecvTermAck : PppFsm δ :=
  let s := stopTimer s
  match s.fsmState with
  | .closing => ops.layerFinished (setState .closed s)
  | .stopping => ops.layerFinished (setState .stopped s)
  | .ackRcvd => setState .reqSent s
  | .opened => setState .reqSent (ops.sendConfReq (decCounter (ops.layerDown s))).1
  | _ => s

/-- `ppp_fsm_recv_unk`: a packet with an unknown code. -/
def pppFsmRecvUnk : PppFsm δ :=
  ops.sendCodeRej s

/-- `ppp_fsm_recv_code_rej_perm`. -/
def pppFsmRecvCodeRejPerm : PppFsm δ :=
  match s.fsmState with
  | .ackRcvd => setState .reqSent s
  | _ => s

/-- `ppp_fsm_recv_code_rej_bad`. -/
def pppFsmRecvCodeRejBad : PppFsm δ :=
  match s.fsmState with
  | .opened => setState .stopping (ops.sendTermReq (decCounter (ops.layerDown s)))
  | .closing => ops.layerFinished (setState .closed s)
  | .stopping | .reqSent | .ackRcvd | .ackSent => ops.layerFinished (setState .stopped s)
  | _ => s

end

end Ops

/-! ### Events and the rule for what the callbacks keep -/

/-- The functions of `ppp_fsm.c` that the rest of the program calls, and the timer's expiry. -/
inductive FsmEvent
  | lowerUp
  | lowerDown
  | openLayer
  | closeLayer
  | close2
  | timeout
  | recvConfReqAck
  | recvConfReqNak
  | recvConfReqRej
  | recvConfAck
  /-- A Configure-Reject or a Configure-Nak. -/
  | recvConfRej
  | recvTermReq
  | recvTermAck
  | recvUnk
  | recvCodeRejPerm
  | recvCodeRejBad
  deriving DecidableEq

/-- One event on the machine with the callbacks `ops`. A timeout needs an armed timer. -/
def fsmStep (ops : FsmOps δ) (s : PppFsm δ) : FsmEvent → PppFsm δ
  | .lowerUp => (pppFsmLowerUp ops s).1
  | .lowerDown => pppFsmLowerDown ops s
  | .openLayer => (pppFsmOpen ops s).1
  | .closeLayer => pppFsmClose ops s
  | .close2 => pppFsmClose2 s
  | .timeout => if s.restartTimer then restartTimerFunc ops s else s
  | .recvConfReqAck => pppFsmRecvConfReqAck ops s
  | .recvConfReqNak => pppFsmRecvConfReqNak ops s
  | .recvConfReqRej => pppFsmRecvConfReqRej ops s
  | .recvConfAck => pppFsmRecvConfAck ops s
  | .recvConfRej => pppFsmRecvConfRej ops s
  | .recvTermReq => pppFsmRecvTermReq ops s
  | .recvTermAck => pppFsmRecvTermAck ops s
  | .recvUnk => pppFsmRecvUnk ops s
  | .recvCodeRejPerm => pppFsmRecvCodeRejPerm s
  | .recvCodeRejBad => pppFsmRecvCodeRejBad ops s

/-- Every callback but `send_conf_ack` keeps a property `J` of the embedding structure. -/
structure FsmOps.Keeps (ops : FsmOps δ) (J : δ → Prop) : Prop where
  layerUp : ∀ s, J s.ld → J (ops.layerUp s).ld
  layerDown : ∀ s, J s.ld → J (ops.layerDown s).ld
  layerStarted : ∀ s, J s.ld → J (ops.layerStarted s).ld
  layerFinished : ∀ s, J s.ld → J (ops.layerFinished s).ld
  sendConfReq : ∀ s, J s.ld → J (ops.sendConfReq s).1.ld
  sendConfNak : ∀ s, J s.ld → J (ops.sendConfNak s).ld
  sendConfRej : ∀ s, J s.ld → J (ops.sendConfRej s).ld
  sendCodeRej : ∀ s, J s.ld → J (ops.sendCodeRej s).ld
  sendTermReq : ∀ s, J s.ld → J (ops.sendTermReq s).ld
  sendTermAck : ∀ s, J s.ld → J (ops.sendTermAck s).ld

section Keeps

variable {ops : FsmOps δ} {J : δ → Prop} {s : PppFsm δ}

@[simp] lemma setState_fsmState (st : FsmState) : (setState st s).fsmState = st := rfl

@[simp] lemma incId_fsmState : (incId s).fsmState = s.fsmState := rfl

@[simp] lemma stopTimer_fsmState : (stopTimer s).fsmState = s.fsmState := by
  rw [stopTimer]; split <;> rfl

/-! The machine's own bookkeeping does not touch the embedding structure. (The proofs avoid a bare
`rfl`: with definitional rewrite rules `simp` cannot discharge the hypotheses of `Keeps`.) -/

@[simp] lemma setState_ld (st : FsmState) : (setState st s).ld = s.ld := by
  cases s; rfl

@[simp] lemma decCounter_ld : (decCounter s).ld = s.ld := by
  cases s; rfl

@[simp] lemma incFailure_ld : (incFailure s).ld = s.ld := by
  cases s; rfl

@[simp] lemma incId_ld : (incId s).ld = s.ld := by
  cases s; rfl

@[simp] lemma stopTimer_ld : (stopTimer s).ld = s.ld := by
  unfold stopTimer; split <;> rfl

@[simp] lemma initReqCounter_ld (k : Int) : (initReqCounter k s).ld = s.ld := by
  unfold initReqCounter; dsimp only; split <;> rfl

@[simp] lemma zeroReqCounter_ld : (zeroReqCounter s).ld = s.ld := by
  unfold zeroReqCounter; dsimp only; split <;> rfl

namespace FsmOps.Keeps

/-! The two ways a handler sends a new request, and the two functions `ppp_fsm_open` calls. -/

variable (h : ops.Keeps J)

include h

lemma restart (hs : J s.ld) (k : Int) :
    J (ops.sendConfReq (decCounter (initReqCounter k s))).1.ld :=
  h.sendConfReq _ (by simpa using hs)

lemma reopen (hs : J s.ld) : J (ops.sendConfReq (decCounter (ops.layerDown s))).1.ld :=
  h.sendConfReq _ (h.layerDown s hs)

lemma lowerUp (hs : J s.ld) : J (pppFsmLowerUp ops s).1.ld := by
  rw [pppFsmLowerUp]
  split <;> dsimp only
  · exact hs
  · split <;> simp [h.restart hs]
  · exact hs

lemma lowerDown (hs : J s.ld) : J (pppFsmLowerDown ops s).ld := by
  rw [pppFsmLowerDown]
  split <;> simp [h.layerStarted, h.layerDown, hs]

lemma close (hs : J s.ld) : J (pppFsmClose ops s).ld := by
  have hdown := h.layerDown (setState .closing s) hs
  rw [pppFsmClose]
  split <;> simp [h.layerFinished, h.sendTermReq, hdown, hs]

/-- **The callback rule.** What every callback keeps, every event keeps; `send_conf_ack` has to
be looked at for one event only. -/
theorem fsmStep {e : FsmEvent} (hack : e = .recvConfReqAck → ∀ s, J s.ld → J (ops.sendConfAck s).ld)
    (hs : J s.ld) : J (fsmStep ops s e).ld := by
  have hid : J (incId s).ld := hs
  have hstop : J (stopTimer s).ld := by simpa using hs
  cases e with
  | lowerUp => exact h.lowerUp hs
  | lowerDown => exact h.lowerDown hs
  | openLayer =>
    simp only [Ppp.fsmStep, pppFsmOpen]
    split
    case h_3 => split <;> exact h.sendConfReq _ (by simpa using hs)
    case h_4 | h_5 | h_6 | h_7 => exact h.lowerUp (h.lowerDown hs)
    all_goals exact hs
  | closeLayer => exact h.close hs
  | close2 => simpa [Ppp.fsmStep, pppFsmClose2] using hs
  | timeout =>
    simp only [Ppp.fsmStep, restartTimerFunc, pppFsmTimeout0, pppFsmTimeout1]
    repeat' split
    all_goals simp [h.sendTermReq, h.sendConfReq, h.layerFinished, hs]
  | recvConfReqAck =>
    simp only [Ppp.fsmStep, pppFsmRecvConfReqAck]
    split <;> simp [h.sendTermAck, h.restart hs, h.reopen hs, h.layerUp, hack, hs]
  | recvConfReqNak =>
    simp only [Ppp.fsmStep, pppFsmRecvConfReqNak]
    repeat' split
    all_goals
      simp [h.sendTermAck, h.restart hs, h.reopen hs, h.sendConfNak, h.layerFinished, hs]
  | recvConfReqRej =>
    simp only [Ppp.fsmStep, pppFsmRecvConfReqRej]
    repeat' split
    all_goals
      simp [h.sendTermAck, h.restart hs, h.reopen hs, h.sendConfRej, h.layerFinished,
        h.layerDown, hs]
  | recvConfAck =>
    simp only [Ppp.fsmStep, pppFsmRecvConfAck]
    split <;> simp [h.sendTermAck, h.sendConfReq, h.reopen hid, h.layerUp, hs]
  | recvConfRej =>
    simp only [Ppp.fsmStep, pppFsmRecvConfRej]
    repeat' split
    all_goals simp [h.sendTermAck, h.sendConfReq, h.layerDown, hs]
  | recvTermReq =>
    have hdown := h.layerDown s hs
    simp only [Ppp.fsmStep, pppFsmRecvTermReq]
    split <;> simp [h.sendTermAck, hdown, hs]
  | recvTermAck =>
    simp only [Ppp.fsmStep, pppFsmRecvTermAck]
    split <;> simp [h.reopen hstop, h.layerFinished, hs]
  | recvUnk => exact h.sendCodeRej s hs
  | recvCodeRejPerm =>
    simp only [Ppp.fsmStep, pppFsmRecvCodeRejPerm]
    split <;> simp [hs]
  | recvCodeRejBad =>
    have hdown := h.layerDown s hs
    simp only [Ppp.fsmStep, pppFsmRecvCodeRejBad]
    split <;> simp [h.sendTermReq, h.layerFinished, hdown, hs]

end FsmOps.Keeps

end Keeps

end AccelPpp.Ppp
