import AccelPpp.Ppp.Lcp

/-!
# What an opened LCP link has agreed on

LCP should open only on a Configure-Ack for the Configure-Request sent last, and the authentication
protocol that then runs should be the one in that request (`OpenedByAck`).

An answer is compared with the counter `fsm.id`, which runs ahead of the requests in three places:

* `ppp_fsm_recv_conf_rej` counts up first, and when the peer has refused `max_failure` times it
  returns without sending anything;
* in Ack-Rcvd the counter is already the one of the next request, and a Terminate-Ack takes the
  machine back to Req-Sent without sending it;
* `lcp_send_proto_rej` takes its identifier from the same counter.

`agreeing` excludes these three on the state before a step and the packet. The steps are analysed
once, in `Outcome`, on the few components of the layer the question depends on (`Core`).
-/

namespace AccelPpp.Ppp.Lcp

open List Option Transition

/-! ### Requests and the authentication that runs -/

/-- The last Configure-Request sent: its identifier and its options. -/
def lastReq (out : List LcpOut) : Option (UInt8 × List RecvOpt) :=
  out.foldl (fun last o ↦ match o with | .confReq id opts => some (id, opts) | _ => last) none

/-- The authentication protocol that was started last. -/
def authRun (out : List LcpOut) : Option AuthMethod :=
  out.foldl (fun last o ↦ match o with | .authStart m => some m | _ => last) none

/-- The value of the authentication option of a request. -/
def carriedAuth (opts : List RecvOpt) : Option (List UInt8) :=
  (opts.find? fun o ↦ o.id = 3).map RecvOpt.data

/-- Some event is a Configure-Ack with the identifier of the last request sent before it, and no
request has been sent since. -/
def AckedBy (conf : LcpConf) (s₀ : LcpFsm) (es : List LcpEvent) (opts : List RecvOpt) : Prop :=
  ∃ pre env bytes post p,
    es = pre ++ .recv env bytes :: post ∧
    readLcp bytes = some p ∧ p.code = .cp .confAck ∧
    lastReq (run (lcpStep conf) s₀ pre).ld.out = some (p.id, opts) ∧
    lastReq (run (lcpStep conf) s₀ es).ld.out = some (p.id, opts)

/-- **The run ends in a link that was opened by an acknowledgement of the last request**, and the
authentication that runs is the one in that request. -/
def OpenedByAck (conf : LcpConf) (s₀ : LcpFsm) (es : List LcpEvent) : Prop :=
  ∃ opts, AckedBy conf s₀ es opts ∧
    (authRun (run (lcpStep conf) s₀ es).ld.out).map AuthMethod.value = carriedAuth opts

/-! ### The core of the layer -/

/-- What the question depends on. -/
structure Core where
  fsm : FsmState
  id : UInt8
  authList : List AuthData
  auth : Option Nat
  echoTimer : Bool
  started : Bool
  terminating : Bool
  req : Option (UInt8 × List RecvOpt)
  run : Option AuthMethod

def coreOf (st : FsmState) (id : UInt8) (l : PppLcp) : Core where
  fsm := st
  id := id
  authList := l.auth.authList
  auth := l.auth.auth
  echoTimer := l.echoTimer
  started := l.started
  terminating := l.terminating
  req := lastReq l.out
  run := authRun l.out

def core (s : LcpFsm) : Core :=
  coreOf s.fsmState s.id s.ld

namespace Core

/-- The value of the option for the method that is selected. -/
def method (c : Core) : Option (List UInt8) :=
  (c.auth.bind fun i ↦ c.authList[i]?).map fun d ↦ d.method.value

/-- The last request has the identifier `k` and carries the method that is selected. -/
def Offers (c : Core) (k : UInt8) : Prop :=
  ∃ opts, c.req = some (k, opts) ∧ carriedAuth opts = c.method

/-- The layer is not open yet and may still open. -/
def Open (c : Core) : Prop :=
  c.terminating = false ∧ c.started = false

/-- A Configure-Request is unanswered. -/
def Asking (c : Core) : Prop :=
  (c.fsm = .reqSent ∨ c.fsm = .ackSent) ∧ c.Offers c.id

/-- The last Configure-Request has been acknowledged, and the counter is one ahead. -/
def Acked (c : Core) : Prop :=
  c.fsm = .ackRcvd ∧ c.Offers (c.id - 1)

/-- The core after something has been sent. -/
def log (c : Core) : LcpOut → Core
  | .confReq id opts => { c with req := some (id, opts) }
  | .authStart m => { c with run := some m }
  | _ => c

end Core

section Components

variable {s : LcpFsm}

@[simp] lemma core_fsm : (core s).fsm = s.fsmState := rfl

@[simp] lemma core_emit (o : LcpOut) : core (emit o s) = (core s).log o := by
  cases o <;> simp [core, coreOf, emit, Core.log, lastReq, authRun]

@[simp] lemma emit_fsmState (o : LcpOut) : (emit o s).fsmState = s.fsmState := rfl

@[simp] lemma core_setState (st : FsmState) :
    core (setState st s) = { core s with fsm := st } := rfl

@[simp] lemma core_decCounter : core (decCounter s) = core s := rfl

@[simp] lemma core_incFailure : core (incFailure s) = core s := rfl

@[simp] lemma core_incId : core (incId s) = { core s with id := s.id + 1 } := rfl

@[simp] lemma core_stopTimer : core (stopTimer s) = core s := by
  rw [stopTimer]; split <;> rfl

@[simp] lemma core_initReqCounter (k : Int) : core (initReqCounter k s) = core s := by
  rw [initReqCounter]; dsimp only; split <;> rfl

@[simp] lemma core_sendConfAck : core (sendConfAck s) = core s := core_emit _

@[simp] lemma core_sendConfNak (env : LcpEnv) : core (sendConfNak env s) = core s := core_emit _

@[simp] lemma core_sendConfRej : core (sendConfRej s) = core s := core_emit _

@[simp] lemma core_sendCodeRej : core (sendCodeRej s) = core s := core_emit _

@[simp] lemma core_sendTermReq : core (sendTermReq s) = { core s with id := s.id + 1 } := by
  simp [sendTermReq, Core.log]

@[simp] lemma core_stopEcho : core (stopEcho s) = { core s with echoTimer := false } := rfl

end Components

/-! ### A new request -/

section Request

variable {conf : LcpConf} {s : LcpFsm}

/-- Without authentication there is no method. -/
def NoMethods (conf : LcpConf) (c : Core) : Prop :=
  conf.confNoauth = true → c.authList = []

/-- `auth_send_conf_req` writes the option of the method it leaves selected. -/
lemma authSendConfReq_spec {conf : LcpConf} {a : AuthOption}
    (hno : conf.confNoauth = true → a.authList = []) :
    (authSendConfReq conf a).1.authList = a.authList ∧
      (authSendConfReq conf a).2 =
        (authSendConfReq conf a).1.current.map fun d ↦ d.method.opt := by
  rw [authSendConfReq]
  split
  · next hnone =>
    have hempty : a.authList = [] := by
      rcases Bool.or_eq_true_iff.mp hnone with h | h
      · exact isEmpty_iff.mp h
      · exact hno h
    refine ⟨rfl, ?_⟩
    cases h : a.auth <;> simp [AuthOption.current, hempty, h]
  · refine ⟨?_, rfl⟩
    rw [AuthOption.select]
    split
    · split <;> rfl
    · rfl

/-- The options of a request: only the first may be an authentication option. -/
lemma carriedAuth_confReqOpts (m : Option AuthData) (l : PppLcp) :
    carriedAuth (confReqOpts (m.map fun d ↦ d.method.opt) l) = m.map fun d ↦ d.method.value := by
  cases m with
  | some d => rfl
  | none =>
    rw [carriedAuth, map_none, map_none, map_eq_none_iff, find?_eq_none]
    intro o ho
    obtain ⟨_, hmem, rfl⟩ := mem_filterMap.mp ho
    simp only [mem_cons, not_mem_nil, or_false, reduceCtorEq, false_or, mruSendConfReq,
      magicSendConfReq, compSendConfReq] at hmem
    rcases hmem with h | h | h | h
    all_goals
      split at h
      all_goals cases h
      all_goals simp

/-- **A request carries the method that is selected when it is sent**, and has the identifier of
the counter. -/
theorem sendConfReq_core (hno : NoMethods conf (core s)) :
    ∃ a opts, core (sendConfReq conf s).1 = { core s with auth := a, req := some (s.id, opts) } ∧
      carriedAuth opts = Core.method { core s with auth := a } := by
  obtain ⟨hlist, hopt⟩ := authSendConfReq_spec hno
  refine ⟨(authSendConfReq conf s.ld.auth).1.auth,
    confReqOpts (authSendConfReq conf s.ld.auth).2 s.ld, ?_, ?_⟩
  · rw [sendConfReq]
    simp only [core_emit, Core.log]
    simp only [core, coreOf, hlist]
  · rw [hopt, carriedAuth_confReqOpts]
    simp only [Core.method, AuthOption.current, hlist]
    rfl

end Request

/-! ### Packets that only change the options -/

section Options

variable (conf : LcpConf) (env : LcpEnv) (s : LcpFsm) (st : FsmState) (id : UInt8)

lemma coreOf_foldl_lcpReqStep {opts : List RecvOpt} {acc : ReqAcc} :
    coreOf st id (opts.foldl (lcpReqStep conf) acc).lcp = coreOf st id acc.lcp := by
  refine foldlRecOn (motive := fun r : ReqAcc ↦ coreOf st id r.lcp = _) opts _ rfl fun r hr o _ ↦ ?_
  rw [lcpReqStep]
  split
  · next k _ => cases k <;> exact hr
  · exact hr

variable (data : List UInt8)

/-- Judging a request leaves the core alone. -/
@[simp] lemma core_lcpRecvConfReq : core (lcpRecvConfReq conf s data).1 = core s := by
  rw [lcpRecvConfReq]
  split
  · rfl
  · exact coreOf_foldl_lcpReqStep conf s.fsmState s.id

/-- The options of a Configure-Ack change nothing. -/
lemma lcpRecvConfAck_fst : (lcpRecvConfAck env s data).1 = s := by
  refine congrArg (fun l ↦ ({ s with ld := l } : LcpFsm)) ?_
  refine foldlRecOn (motive := fun r : PppLcp × Int ↦ r.1 = s.ld) _ _ rfl fun r hr o _ ↦ ?_
  rw [lcpAnswerStep]
  split
  · next k _ => cases k <;> exact hr
  · exact hr

/-- What a handler for refused options may do to the core: mark methods as refused. -/
def Marks (c c' : Core) : Prop :=
  ∃ al, c' = { c with authList := al } ∧ (c.authList = [] → al = [])

lemma Marks.refl (c : Core) : Marks c c := ⟨c.authList, rfl, id⟩

lemma Marks.trans {c₁ c₂ c₃ : Core} (h : Marks c₁ c₂) (h' : Marks c₂ c₃) : Marks c₁ c₃ := by
  obtain ⟨al, rfl, hal⟩ := h
  obtain ⟨al', rfl, hal'⟩ := h'
  exact ⟨al', rfl, fun hnil ↦ hal' (hal hnil)⟩

lemma marks_authRefused {l : PppLcp} :
    Marks (coreOf st id l) (coreOf st id { l with auth := (authRefused l.auth).1 }) := by
  rw [authRefused]
  split
  · exact .refl _
  next i _ =>
  refine ⟨l.auth.authList.modify i fun d ↦ { d with state := .nak }, ?_, ?_⟩
  · dsimp only
    split <;> rfl
  · intro hnil
    have hlist : l.auth.authList = [] := hnil
    simp [hlist]

lemma marks_lcpRecvAnswer {h : PppLcp → RecvOpt → LcpOpt → PppLcp × Int}
    (hh : ∀ l o k, Marks (coreOf s.fsmState s.id l) (coreOf s.fsmState s.id (h l o k).1))
    {data : List UInt8} : Marks (core s) (core (lcpRecvAnswer h s data).1) := by
  refine foldlRecOn (motive := fun r : PppLcp × Int ↦ Marks (core s) (coreOf _ _ r.1))
    (scanOpts data).1 _ (.refl _) fun r hr o _ ↦ ?_
  rw [lcpAnswerStep]
  split
  · exact hr.trans (hh _ _ _)
  · exact hr

lemma marks_refused : Marks (core s) (core (lcpRecvConfNak env s data).1) ∧
    Marks (core s) (core (lcpRecvConfRej s data).1) := by
  constructor
  all_goals
    refine marks_lcpRecvAnswer s (fun l o k ↦ ?_)
    cases k with
    | auth => exact marks_authRefused _ _
    | _ => exact .refl _

end Options

/-! ### The end of a session -/

/-- The layer will not open any more, and it is not the end that opened it. -/
def Ends (c c' : Core) : Prop :=
  c'.terminating = true ∧ c'.req = c.req ∧ c'.run = c.run ∧ (c'.fsm = .opened → c.fsm = .opened)

section Ending

variable (conf : LcpConf) (env : LcpEnv) (s : LcpFsm)

lemma ends_terminateIdle : Ends (core s) (core (terminateIdle s)) := by
  rw [terminateIdle]
  split
  · next h => exact ⟨h, rfl, rfl, id⟩
  · rw [core_emit]
    exact ⟨rfl, rfl, rfl, id⟩

lemma ends_lcpLayerFinished : Ends (core s) (core (lcpLayerFinished s)) := by
  rw [lcpLayerFinished]
  dsimp only
  split
  · split
    · next h =>
      rw [core_emit]
      exact ⟨h, rfl, rfl, id⟩
    · exact ends_terminateIdle { stopEcho s with ld := { (stopEcho s).ld with started := false } }
  · exact ends_terminateIdle (stopEcho s)

/-- Closing the machine of a session that is being terminated. -/
lemma ends_pppFsmClose (h : s.ld.terminating = true) :
    Ends (core s) (core (pppFsmClose (lcpBase conf env) s)) := by
  have hterm : (core s).terminating = true := h
  rw [pppFsmClose]
  split
  · obtain ⟨ht, hreq, hrun, hfsm⟩ := ends_lcpLayerFinished (setState .initial (stopTimer s))
    exact ⟨ht, hreq.trans (by simp), hrun.trans (by simp), fun ho ↦ absurd (hfsm ho) (by simp)⟩
  all_goals simp [lcpBase, Ends, hterm]

lemma ends_apSessionTerminate : Ends (core s) (core (apSessionTerminate conf env s)) := by
  rw [apSessionTerminate]
  split
  · next h => exact ⟨h, rfl, rfl, id⟩
  split
  · have hclose := ends_pppFsmClose conf env
      (stopEcho (emit .terminate { s with ld := { s.ld with terminating := true } })) rfl
    rw [core_stopEcho, core_emit] at hclose
    exact hclose
  · exact ends_terminateIdle s

end Ending

/-! ### What one event does -/

/-- The layer negotiates: everything but the phase. -/
structure Fresh (conf : LcpConf) (c : Core) : Prop where
  isOpen : c.Open
  noMethods : NoMethods conf c
  echo : c.echoTimer = false
  run : c.run = none

/-- The event is a Configure-Ack with the identifier `k`. -/
def IsAck (e : LcpEvent) (k : UInt8) : Prop :=
  ∃ env bytes p, e = .recv env bytes ∧ readLcp bytes = some p ∧ p.code = .cp .confAck ∧ p.id = k

/-- **What an event does to a layer that negotiates.** -/
inductive Outcome (conf : LcpConf) (e : LcpEvent) (c c' : Core) : Prop
  /-- The session ends. -/
  | ended (hopen : ¬ c'.Open) (hfsm : c'.fsm ≠ .opened)
  /-- Nothing, or a change between Req-Sent and Ack-Sent. -/
  | stays (h : ∃ st, c' = { c with fsm := st } ∧
      (st = c.fsm ∨ c.fsm ≠ .ackRcvd ∧ (st = .reqSent ∨ st = .ackSent)))
  /-- A new request. -/
  | asked (hfresh : Fresh conf c') (hask : c'.Asking)
  /-- The acknowledgement of the last request, before the one for the peer's. -/
  | acked (hack : IsAck e c.id) (hfsm : c.fsm = .reqSent)
      (h : c' = { c with fsm := .ackRcvd, id := c.id + 1 })
  /-- The link opens. -/
  | opened (hack : c.fsm = .ackRcvd ∨ c.fsm = .ackSent ∧ IsAck e c.id) (hfsm : c'.fsm = .opened)
      (hopen : ¬ c'.Open) (hreq : c'.req = c.req)
      (hrun : c'.run.map AuthMethod.value = c.method)

section Step

variable {conf : LcpConf} {env : LcpEnv} {s : LcpFsm} {e : LcpEvent} {c c' : Core}

lemma Fresh.of_marks (h : Fresh conf c) (hm : Marks c c') : Fresh conf c' := by
  obtain ⟨al, rfl, hal⟩ := hm
  exact ⟨h.isOpen, fun hno ↦ hal (h.noMethods hno), h.echo, h.run⟩

/-- After `send_conf_req` the machine asks, if its state says so. -/
lemma Fresh.sendConfReq (h : Fresh conf (core s)) (st : FsmState)
    (hst : st = .reqSent ∨ st = .ackSent) :
    Fresh conf (core (setState st (sendConfReq conf s).1)) ∧
      (core (setState st (sendConfReq conf s).1)).Asking := by
  obtain ⟨a, opts, hcore, hcarried⟩ := sendConfReq_core h.noMethods
  rw [core_setState, hcore]
  exact ⟨{ h with }, hst, opts, rfl, hcarried⟩

/-- `layer_up` starts the method that is selected. -/
lemma lcpLayerUp_core {env : LcpEnv} (h : Fresh conf (core s)) :
    ¬ (core (lcpLayerUp conf env s)).Open ∧ (core (lcpLayerUp conf env s)).req = (core s).req ∧
      (core (lcpLayerUp conf env s)).run.map AuthMethod.value = (core s).method := by
  have hst : s.ld.started = false := h.isOpen.2
  have hrun : authRun s.ld.out = none := h.run
  have hmethod : (core s).method = s.ld.auth.current.map fun d ↦ d.method.value := rfl
  rw [lcpLayerUp, if_neg (by simp [hst]), authLayerStart]
  split
  · next hfail =>
    -- no channel without authentication: the session is terminated from within `layer_up`
    obtain ⟨ht, hreq, hrun', -⟩ := ends_apSessionTerminate conf env
      { s with ld := { s.ld with started := true } }
    have hempty : s.ld.auth.authList = [] := h.noMethods (Bool.and_eq_true_iff.mp hfail).1
    refine ⟨fun hopen ↦ ?_, hreq, ?_⟩
    · exact absurd (ht.symm.trans hopen.1) (by simp)
    have hnone : s.ld.auth.current = none := by
      cases ha : s.ld.auth.auth <;> simp [AuthOption.current, hempty, ha]
    rw [hmethod, hnone]
    show (core (apSessionTerminate conf env _)).run.map _ = none
    rw [hrun']
    simp [core, coreOf, hrun]
  · split
    · next d hd =>
      refine ⟨fun hopen ↦ Bool.noConfusion hopen.2, ?_, ?_⟩
      · simp [core, coreOf, startEcho, emit, lastReq]
      · have hd' : s.ld.auth.current = some d := hd
        rw [hmethod, hd']
        simp [core, coreOf, startEcho, emit, authRun]
    · next hd =>
      have hd' : s.ld.auth.current = none := hd
      refine ⟨fun hopen ↦ Bool.noConfusion hopen.2, rfl, ?_⟩
      rw [hmethod, hd']
      simp [core, coreOf, startEcho, hrun]

/-- The layer negotiates. -/
structure Negotiates (conf : LcpConf) (c : Core) : Prop extends Fresh conf c where
  phase : c.Asking ∨ c.Acked

lemma Outcome.of_eq (h : c' = c) : Outcome conf e c c' :=
  .stays ⟨c.fsm, by rw [h], .inl rfl⟩

lemma Outcome.of_ends {c₀ : Core} (h : Ends c c') (hfsm : c.fsm ≠ .opened) :
    Outcome conf e c₀ c' :=
  .ended (fun hopen ↦ absurd (h.1.symm.trans hopen.1) (by simp)) fun ho ↦ hfsm (h.2.2.2 ho)

/-- A handler that sends a new request and sets the state. -/
lemma Outcome.of_request (h : Fresh conf (core s)) (st : FsmState)
    (hst : st = .reqSent ∨ st = .ackSent) :
    Outcome conf e c (core (setState st (sendConfReq conf s).1)) :=
  .asked (h.sendConfReq st hst).1 (h.sendConfReq st hst).2

/-- A handler that sends a new request and leaves the state as it was. -/
lemma Outcome.of_request' (h : Fresh conf (core s))
    (hst : s.fsmState = .reqSent ∨ s.fsmState = .ackSent) :
    Outcome conf e c (core (sendConfReq conf s).1) := by
  exact .of_request h s.fsmState hst

variable (h : Negotiates conf (core s))

include h

lemma Negotiates.fsm_cases :
    s.fsmState = .reqSent ∨ s.fsmState = .ackSent ∨ s.fsmState = .ackRcvd := by
  rcases h.phase with ⟨h | h, -⟩ | ⟨h, -⟩
  · exact .inl h
  · exact .inr (.inl h)
  · exact .inr (.inr h)

lemma Negotiates.fsm_ne_opened : s.fsmState ≠ .opened := by
  rcases h.fsm_cases with hs | hs | hs <;> simp [hs]

/-! #### Requests of the peer -/

/-- An acceptable request. -/
lemma Negotiates.recvConfReqAck :
    Outcome conf e (core s) (core (pppFsmRecvConfReqAck (lcpOps conf env) s)) := by
  have hack : core (setState .ackSent (sendConfAck s)) = { core s with fsm := .ackSent } := by
    simp
  rcases h.fsm_cases with hs | hs | hs <;> simp only [pppFsmRecvConfReqAck, hs]
  iterate 2
    · exact .stays ⟨.ackSent, hack, .inr ⟨by simp [core, coreOf, hs], .inr rfl⟩⟩
  · have hcore : core (stopTimer (sendConfAck s)) = core s := by simp
    have hfresh : Fresh conf (core (stopTimer (sendConfAck s))) := hcore ▸ h.toFresh
    obtain ⟨hopen, hreq, hrun⟩ := lcpLayerUp_core hfresh
    rw [hcore] at hreq hrun
    exact .opened (.inl hs) rfl hopen hreq hrun

/-- A refusal that is counted. -/
lemma Negotiates.counted {s' : LcpFsm} (hs : core s' = core s) :
    Outcome conf e (core s) (core
      (if (incFailure s).confFailure = (incFailure s).maxFailure then
        lcpLayerFinished (incFailure s) else s')) := by
  split
  · exact .of_ends (ends_lcpLayerFinished _) h.fsm_ne_opened
  · exact .of_eq hs

/-- A request with an option to be negotiated down. -/
lemma Negotiates.recvConfReqNak :
    Outcome conf e (core s) (core (pppFsmRecvConfReqNak (lcpOps conf env) s)) := by
  rcases h.fsm_cases with hs | hs | hs <;> simp only [pppFsmRecvConfReqNak, hs]
  · exact h.counted (core_sendConfNak env)
  · have hnak : core (setState .reqSent (sendConfNak env s)) = { core s with fsm := .reqSent } := by
      simp
    exact .stays ⟨.reqSent, hnak, .inr ⟨by simp [core, coreOf, hs], .inl rfl⟩⟩
  · exact h.counted (core_sendConfNak env)

/-- A request with an option to be refused. In Ack-Sent the limit calls the empty `layer_down`. -/
lemma Negotiates.recvConfReqRej :
    Outcome conf e (core s) (core (pppFsmRecvConfReqRej (lcpOps conf env) s)) := by
  rcases h.fsm_cases with hs | hs | hs <;> simp only [pppFsmRecvConfReqRej, hs]
  · exact h.counted core_sendConfRej
  · split
    · exact .of_eq (core_incFailure)
    · have hrej : core (setState .reqSent (sendConfRej (incFailure s))) =
          { core s with fsm := .reqSent } := by
        simp
      exact .stays ⟨.reqSent, hrej, .inr ⟨by simp [core, coreOf, hs], .inl rfl⟩⟩
  · exact h.counted core_sendConfRej

/-- The `CONFREQ` case of `lcp_recv`. -/
lemma Negotiates.lcpConfReq {data : List UInt8} :
    Outcome conf e (core s) (core (lcpConfReq conf env s data)) := by
  have hcore : core (lcpRecvConfReq conf s data).1 = core s := core_lcpRecvConfReq conf s data
  have h' : Negotiates conf (core (lcpRecvConfReq conf s data).1) := hcore ▸ h
  have hst : (lcpRecvConfReq conf s data).1.ld.started = false := h'.isOpen.2
  rw [Lcp.lcpConfReq]
  dsimp only
  rw [if_neg (by simp [hst]), ← hcore]
  split
  · exact h'.recvConfReqAck
  · exact h'.recvConfReqNak
  · exact h'.recvConfReqRej
  · exact .of_ends (ends_apSessionTerminate _ _ _) h'.fsm_ne_opened
  · exact .of_eq rfl

/-! #### Answers of the peer -/

/-- A Configure-Ack for the identifier of the counter. -/
lemma Negotiates.recvConfAck (hack : IsAck e s.id) :
    Outcome conf e (core s) (core (pppFsmRecvConfAck (lcpOps conf env) s)) := by
  have hfresh : Fresh conf (core (incId s)) := { h with }
  rcases h.fsm_cases with hs | hs | hs <;> simp only [pppFsmRecvConfAck, incId_fsmState, hs]
  · exact .acked hack hs rfl
  · have hcore : core (stopTimer (incId s)) = core (incId s) := by simp
    have hfresh' : Fresh conf (core (stopTimer (incId s))) := hcore ▸ hfresh
    obtain ⟨hopen, hreq, hrun⟩ := lcpLayerUp_core hfresh'
    rw [hcore] at hreq hrun
    exact .opened (.inr ⟨hs, hack⟩) rfl hopen hreq hrun
  · exact .of_request hfresh .reqSent (.inl rfl)

omit h in
/-- A Configure-Nak or a Configure-Reject that does not exhaust the peer's tries. The layer has
looked at the options already, so only `Fresh` is left of what was known. -/
lemma Outcome.recvConfRej (h : Fresh conf (core s))
    (hs : s.fsmState = .reqSent ∨ s.fsmState = .ackSent ∨ s.fsmState = .ackRcvd)
    (hlimit : s.fsmState ≠ .ackRcvd → s.confFailure + 1 ≠ s.maxFailure) :
    Outcome conf e c (core (pppFsmRecvConfRej (lcpOps conf env) s)) := by
  have hfresh : Fresh conf (core (incId s)) := { h with }
  let d := incFailure (incId s)
  have hcore (k : Int) : core (decCounter (initReqCounter k d)) = core (incId s) := by
    simp [d]
  have hagain (k : Int) (hne : d.confFailure ≠ d.maxFailure)
      (hst : s.fsmState = .reqSent ∨ s.fsmState = .ackSent) :
      Outcome conf e c (core (if d.confFailure = d.maxFailure then d
        else (sendConfReq conf (decCounter (initReqCounter k d))).1)) := by
    rw [if_neg hne]
    have hstate : (decCounter (initReqCounter k d)).fsmState = s.fsmState :=
      congrArg Core.fsm (hcore k)
    exact .of_request' ((hcore k).symm ▸ hfresh) (by rw [hstate]; exact hst)
  rcases hs with hs | hs | hs <;> simp only [pppFsmRecvConfRej, incId_fsmState, hs]
  · exact hagain _ (hlimit (by simp [hs])) (.inl hs)
  · exact hagain _ (hlimit (by simp [hs])) (.inr hs)
  · exact .of_request hfresh .reqSent (.inl rfl)

/-! #### Everything else -/

/-- A Terminate-Request ends the session. -/
lemma Negotiates.recvTermReq :
    Outcome conf e (core s)
      (core (apSessionTerminate conf env (pppFsmRecvTermReq (lcpOps conf env) s))) := by
  have hfsm : (pppFsmRecvTermReq (lcpOps conf env) s).fsmState = .reqSent := by
    rcases h.fsm_cases with hs | hs | hs <;> simp [pppFsmRecvTermReq, hs]
  exact .of_ends (ends_apSessionTerminate _ _ _) (by rw [core_fsm, hfsm]; simp)

/-- A Terminate-Ack stops the timer. In Ack-Rcvd it would take the machine back. -/
lemma Negotiates.recvTermAck (hne : s.fsmState ≠ .ackRcvd) :
    Outcome conf e (core s) (core (pppFsmRecvTermAck (lcpOps conf env) s)) := by
  rcases h.fsm_cases with hs | hs | hs <;> simp only [pppFsmRecvTermAck, stopTimer_fsmState, hs]
  · exact .of_eq core_stopTimer
  · exact .of_eq core_stopTimer
  · exact absurd hs hne

/-- A Code-Reject ends the session. -/
lemma Negotiates.recvCodeRejBad :
    Outcome conf e (core s) (core (pppFsmRecvCodeRejBad (lcpOps conf env) s)) := by
  rcases h.fsm_cases with hs | hs | hs <;> simp only [pppFsmRecvCodeRejBad, hs]
  all_goals exact .of_ends (ends_lcpLayerFinished _) (by simp)

/-- The restart timer: another request, or the end. -/
lemma Negotiates.restartTimerFunc :
    Outcome conf e (core s) (core (restartTimerFunc (lcpOps conf env) s)) := by
  rw [Ppp.restartTimerFunc]
  split
  · rcases h.fsm_cases with hs | hs | hs <;> simp only [pppFsmTimeout0, hs]
    · exact .of_request' h.toFresh (.inl hs)
    · exact .of_request' h.toFresh (.inr hs)
    · have hfresh : Fresh conf (core (decCounter (setState .reqSent s))) :=
        { h with }
      exact .of_request' hfresh (.inl rfl)
  · rcases h.fsm_cases with hs | hs | hs <;> simp only [pppFsmTimeout1, hs]
    all_goals exact .of_ends (ends_lcpLayerFinished _) (by simp)

end Step

/-! ### The condition -/

/-- The packet is not one that makes the counter run ahead of the requests: a refusal that exhausts
`max_failure`, or a Terminate-Ack in Ack-Rcvd. -/
def packetAgrees (s : LcpFsm) (p : LcpPacket) : Bool :=
  match p.code with
  | .cp .confNak | .cp .confRej =>
    s.fsmState = .ackRcvd || s.confFailure + 1 ≠ s.maxFailure
  | .cp .termAck => s.fsmState ≠ .ackRcvd
  | _ => true

/-- **The condition on a step**, on the state before it: as long as the layer may still open, no
packet makes the counter run ahead, and no frame of an unknown protocol is rejected. -/
def agreeing (s : LcpFsm) (e : LcpEvent) : Bool :=
  s.ld.terminating || s.ld.started ||
    match e with
    | .recv _ bytes => (readLcp bytes).all fun p ↦ lcpDrops s p || packetAgrees s p
    | .protoRej _ => false
    | _ => true

section Condition

variable {conf : LcpConf} {env : LcpEnv} {s : LcpFsm} {e : LcpEvent} {p : LcpPacket}

/-- The packets `lcp_recv` looks at. -/
lemma lcpDrops_eq_false : lcpDrops s p = false ↔
    (p.code.isAnswer = true → p.id = s.id ∧ s.ld.started = false) ∧ s.fsmState ≠ .initial ∧
      s.fsmState ≠ .closed ∧ (s.ld.terminating = true → p.code.isTerm = true) := by
  simp [lcpDrops, and_assoc]

variable (h : Negotiates conf (core s))

include h

/-- A refusal: the options first, then the machine. -/
lemma Negotiates.refused {s' : LcpFsm} {l : PppLcp} (r : Int)
    (hl : s' = { s with ld := l }) (hm : Marks (core s) (core s'))
    (hlimit : s.fsmState ≠ .ackRcvd → s.confFailure + 1 ≠ s.maxFailure) :
    Outcome conf e (core s) (core (if r ≠ 0 then apSessionTerminate conf env s'
      else pppFsmRecvConfRej (lcpOps conf env) s')) := by
  subst hl
  split
  · exact .of_ends (ends_apSessionTerminate _ _ _) h.fsm_ne_opened
  · exact .recvConfRej (h.toFresh.of_marks hm) h.fsm_cases hlimit

lemma Negotiates.recvEcho (env : LcpEnv) (p : LcpPacket) :
    Outcome conf e (core s) (core (sendEchoReply s)) ∧
      Outcome conf e (core s) (core (lcpRecvEchoRepl conf env s p.body)) := by
  constructor
  · rw [sendEchoReply]
    split
    · exact .of_eq rfl
    · exact .of_eq (core_emit _)
  rw [lcpRecvEchoRepl]
  split
  · exact .of_ends (ends_apSessionTerminate conf env s) h.fsm_ne_opened
  · exact .of_eq rfl

/-- The `switch` of `lcp_recv`. -/
lemma Negotiates.lcpDispatch
    (hp : packetAgrees s p = true) (hack : p.code = .cp .confAck → IsAck e s.id) :
    Outcome conf e (core s) (core (lcpDispatch conf env s p)) := by
  have hend : Outcome conf e (core s) (core (apSessionTerminate conf env s)) :=
    .of_ends (ends_apSessionTerminate _ _ _) h.fsm_ne_opened
  have hlimit (hc : p.code = .cp .confNak ∨ p.code = .cp .confRej) :
      s.fsmState ≠ .ackRcvd → s.confFailure + 1 ≠ s.maxFailure := by
    rcases hc with hc | hc <;> simpa [packetAgrees, hc, or_iff_not_imp_left] using hp
  rw [Lcp.lcpDispatch]
  dsimp only
  split
  · exact h.lcpConfReq
  · next hc =>
    rw [lcpRecvConfAck_fst]
    split
    · exact hend
    · exact h.recvConfAck (hack hc)
  · next hc =>
    exact h.refused _ rfl (marks_refused env s p.body).1 (hlimit (.inl hc))
  · next hc =>
    exact h.refused _ rfl (marks_refused env s p.body).2 (hlimit (.inr hc))
  · exact h.recvTermReq
  · next hc =>
    exact h.recvTermAck (by simpa [packetAgrees, hc] using hp)
  · exact h.recvCodeRejBad
  · exact .of_eq core_sendCodeRej
  · split
    · exact .of_eq rfl
    · exact (h.recvEcho env p).1
  · split
    · exact .of_eq rfl
    · exact (h.recvEcho env p).2
  · split
    · exact .of_eq rfl
    · split
      · exact hend
      · exact .of_eq rfl
  all_goals exact .of_eq rfl

/-- **One event of a layer that negotiates**, under the condition. -/
theorem Negotiates.lcpStep (hC : agreeing s e = true) :
    Outcome conf e (core s) (core (lcpStep conf s e)) := by
  have hterm : s.ld.terminating = false := h.isOpen.1
  have hst : s.ld.started = false := h.isOpen.2
  rw [Lcp.lcpStep.eq_def]
  split
  · exact .of_eq rfl
  cases e with
  | recv env bytes =>
    dsimp only
    rw [lcpRecv]
    split
    · exact .of_eq rfl
    next p hread =>
    split
    · exact .of_eq rfl
    next hdrop =>
    have hdrop : lcpDrops s p = false := by simpa using hdrop
    have h' : Negotiates conf
        (core { s with recvId := p.id, ld := { s.ld with buf := p.body } }) := h
    have hp : packetAgrees s p = true := by
      simpa [agreeing, hterm, hst, hread, hdrop] using hC
    refine h'.lcpDispatch hp fun hc ↦ ⟨env, bytes, p, rfl, hread, hc, ?_⟩
    -- an answer with another identifier has been dropped
    exact ((lcpDrops_eq_false.mp hdrop).1 (by simp [hc, LcpCode.isAnswer])).1
  | timeout env =>
    dsimp only
    split
    · exact h.restartTimerFunc
    · exact .of_eq rfl
  | echoTimeout env =>
    have hecho : s.ld.echoTimer = false := h.toFresh.echo
    simp only [hecho]
    exact .of_eq rfl
  | protoRej proto => simp [agreeing, hterm, hst] at hC
  | terminate env hard =>
    dsimp only
    split
    · exact .ended (fun hopen ↦ Bool.noConfusion hopen.1) h.fsm_ne_opened
    · exact .of_ends (ends_apSessionTerminate _ _ _) h.fsm_ne_opened
  | destablish =>
    simp only [hterm]
    exact .of_eq rfl

end Condition

/-! ### A layer that is open or ending -/

/-- The layer has been opened, or the session is being terminated. -/
def Settled (l : PppLcp) : Prop :=
  l.terminating = true ∨ l.started = true

lemma not_open_iff {s : LcpFsm} : ¬ (core s).Open ↔ Settled s.ld := by
  simp [Core.Open, core, coreOf, Settled, or_iff_not_imp_left]

section SettledStep

variable {conf : LcpConf} {env : LcpEnv} {s : LcpFsm} {e : LcpEvent}

lemma Settled.of_ends {s' : LcpFsm} {c : Core} (h : Ends c (core s')) : Settled s'.ld :=
  .inl h.1

/-- The layer is settled, and has not been opened by getting there. -/
def Settles (s s' : LcpFsm) : Prop :=
  Settled s'.ld ∧ (s'.fsmState = .opened → s.fsmState = .opened)

variable {conf : LcpConf}

lemma keeps_settled {env : LcpEnv} : (lcpOps conf env).Keeps Settled where
  layerUp s h := by
    show Settled (lcpLayerUp conf env s).ld
    rw [lcpLayerUp]
    split
    · exact h
    rw [authLayerStart]
    split
    · exact .of_ends (ends_apSessionTerminate conf env
        { s with ld := { s.ld with started := true } })
    · split <;> exact .inr rfl
  layerDown _ h := h
  layerStarted _ h := h
  layerFinished s _ := .of_ends (ends_lcpLayerFinished s)
  sendConfReq _ h := h
  sendConfNak _ h := h
  sendConfRej _ h := h
  sendCodeRej _ h := h
  sendTermReq _ h := h
  sendTermAck _ h := h

lemma terminateIdle_fsmState : (terminateIdle s).fsmState = s.fsmState := by
  rw [terminateIdle]
  split <;> rfl

@[simp] lemma lcpLayerFinished_fsmState : (lcpLayerFinished s).fsmState = s.fsmState := by
  rw [lcpLayerFinished]
  dsimp only
  split
  · split
    · rfl
    · exact terminateIdle_fsmState
  · exact terminateIdle_fsmState

/-- Only an acceptable request and a Configure-Ack open the machine. -/
lemma opened_of_fsmStep {ev : FsmEvent}
    (hev : ev ∈ [.timeout, .recvTermReq, .recvTermAck, .recvCodeRejBad, .recvUnk])
    (ho : (fsmStep (lcpOps conf env) s ev).fsmState = .opened) : s.fsmState = .opened := by
  simp only [mem_cons, not_mem_nil, or_false] at hev
  rcases hev with rfl | rfl | rfl | rfl | rfl
  · rw [fsmStep] at ho
    split at ho
    · rw [restartTimerFunc] at ho
      split at ho
      · cases hs : s.fsmState <;>
          simp [pppFsmTimeout0, hs, lcpOps, lcpBase, sendTermReq, sendConfReq, decCounter] at ho ⊢
      · cases hs : s.fsmState <;> simp [pppFsmTimeout1, hs, lcpOps, lcpBase] at ho ⊢
    · exact ho
  · cases hs : s.fsmState <;>
      simp [fsmStep, pppFsmRecvTermReq, hs, lcpOps, lcpBase, sendTermAck] at ho ⊢
  · cases hs : s.fsmState <;>
      simp [fsmStep, pppFsmRecvTermAck, hs, lcpOps, lcpBase] at ho ⊢
  · cases hs : s.fsmState <;> simp [fsmStep, pppFsmRecvCodeRejBad, hs, lcpOps, lcpBase] at ho ⊢
  · exact ho

lemma settles_apSessionTerminate {env : LcpEnv} {s : LcpFsm} :
    Settles s (apSessionTerminate conf env s) :=
  ⟨.of_ends (ends_apSessionTerminate conf env s), (ends_apSessionTerminate conf env s).2.2.2⟩

variable (h : Settled s.ld)

include h

lemma Settled.settles : Settles s s := ⟨h, id⟩

/-- An event of the machine that does not open it. -/
lemma Settled.fsmStep (conf : LcpConf) (env : LcpEnv) (ev : FsmEvent)
    (hev : ev ∈ [.timeout, .recvTermReq, .recvTermAck, .recvCodeRejBad, .recvUnk]) :
    Settles s (fsmStep (lcpOps conf env) s ev) := by
  refine ⟨keeps_settled.fsmStep (fun hack ↦ ?_) h, opened_of_fsmStep hev⟩
  simp [hack] at hev

/-- A settled layer that looks at a packet other than a Terminate packet is an opened one, and
the packet is not an answer. -/
lemma Settled.of_not_dropped {p : LcpPacket} (hdrop : lcpDrops s p = false)
    (hc : p.code.isTerm = false) : s.ld.started = true ∧ p.code.isAnswer = false := by
  obtain ⟨hans, -, -, hterm⟩ := lcpDrops_eq_false.mp hdrop
  have hst : s.ld.started = true := by
    refine h.resolve_left fun ht ↦ ?_
    simp [hterm ht] at hc
  refine ⟨hst, ?_⟩
  cases hcode : p.code.isAnswer with
  | false => rfl
  | true => simp [hst] at hans; simp [hans] at hcode

/-- A packet that a settled layer looks at. -/
lemma Settled.lcpDispatch {p : LcpPacket} (hdrop : lcpDrops s p = false) :
    Settles s (lcpDispatch conf env s p) := by
  have hanswer (hc : p.code.isTerm = false) (hans : p.code.isAnswer = true) : False := by
    simp [(h.of_not_dropped hdrop hc).2] at hans
  have hsame := h.settles
  rw [Lcp.lcpDispatch]
  split
  · next hc =>
    have hst := (h.of_not_dropped hdrop (by simp [hc, LcpCode.isTerm])).1
    have hcore : core (lcpRecvConfReq conf s p.body).1 = core s := core_lcpRecvConfReq conf s p.body
    have hst' : (lcpRecvConfReq conf s p.body).1.ld.started = true :=
      (congrArg Core.started hcore).trans hst
    have hfsm : (lcpRecvConfReq conf s p.body).1.fsmState = s.fsmState := congrArg Core.fsm hcore
    rw [lcpConfReq]
    dsimp only
    rw [if_pos hst', Settles, ← hfsm]
    split
    · exact ⟨.inr hst', id⟩
    · exact settles_apSessionTerminate
  iterate 3
    next hc =>
      exact (hanswer (by simp [hc, LcpCode.isTerm]) (by simp [hc, LcpCode.isAnswer])).elim
  · obtain ⟨hset, hopen⟩ := settles_apSessionTerminate
    have hmid := h.fsmStep conf env .recvTermReq (by simp)
    exact ⟨hset, fun ho ↦ hmid.2 (hopen ho)⟩
  · exact h.fsmStep conf env .recvTermAck (by simp)
  · exact h.fsmStep conf env .recvCodeRejBad (by simp)
  · exact h.fsmStep conf env .recvUnk (by simp)
  · split
    · exact hsame
    · rw [sendEchoReply]
      split <;> exact hsame
  · split
    · exact hsame
    · rw [lcpRecvEchoRepl]
      split
      · exact settles_apSessionTerminate
      · exact hsame
  · split
    · exact hsame
    · split
      · exact settles_apSessionTerminate
      · exact hsame
  all_goals exact hsame

/-- **A settled layer stays settled and does not open.** -/
theorem Settled.lcpStep : Settles s (lcpStep conf s e) := by
  have hsame := h.settles
  rw [Lcp.lcpStep.eq_def]
  split
  · exact hsame
  cases e with
  | recv env bytes =>
    dsimp only
    rw [lcpRecv]
    split
    · exact hsame
    next p _ =>
    split
    · exact hsame
    · next hdrop =>
      have hdrop : lcpDrops s p = false := by simpa using hdrop
      exact Settled.lcpDispatch
        (s := { s with recvId := p.id, ld := { s.ld with buf := p.body } }) h hdrop
  | timeout env => exact h.fsmStep conf env .timeout (by simp)
  | echoTimeout env =>
    dsimp only
    split
    · rw [sendEchoRequest]
      split
      · exact hsame
      · exact hsame
      · split
        · exact ⟨.inl rfl, id⟩
        · exact hsame
    · exact hsame
  | protoRej proto => exact hsame
  | terminate env hard =>
    dsimp only
    split
    · exact ⟨.inl rfl, id⟩
    · exact settles_apSessionTerminate
  | destablish =>
    dsimp only
    split <;> exact hsame

end SettledStep

/-! ### Runs -/

section Runs

variable {conf : LcpConf} {s₀ : LcpFsm} {es : List LcpEvent} {e : LcpEvent} {opts : List RecvOpt}

section

variable
  (hreq : lastReq (run (lcpStep conf) s₀ (es ++ [e])).ld.out =
    lastReq (run (lcpStep conf) s₀ es).ld.out)

include hreq

/-- The acknowledgement stays the one of the last request until another request is sent. -/
lemma AckedBy.snoc (h : AckedBy conf s₀ es opts) : AckedBy conf s₀ (es ++ [e]) opts := by
  obtain ⟨pre, env, bytes, post, p, rfl, hread, hcode, hpre, hes⟩ := h
  exact ⟨pre, env, bytes, post ++ [e], p, by simp, hread, hcode, hpre, hreq.trans hes⟩

/-- An acknowledgement that has just arrived. -/
lemma AckedBy.of_isAck {k : UInt8} (hack : IsAck e k)
    (hes : lastReq (run (lcpStep conf) s₀ es).ld.out = some (k, opts)) :
    AckedBy conf s₀ (es ++ [e]) opts := by
  obtain ⟨env, bytes, p, rfl, hread, hcode, rfl⟩ := hack
  exact ⟨es, env, bytes, [], p, rfl, hread, hcode, hes, hreq.trans hes⟩

end

/-- What is known after a run along the condition. -/
def Known (conf : LcpConf) (s₀ : LcpFsm) (es : List LcpEvent) : Prop :=
  (core (run (lcpStep conf) s₀ es)).Open →
    Negotiates conf (core (run (lcpStep conf) s₀ es)) ∧
      ((run (lcpStep conf) s₀ es).fsmState = .ackRcvd → ∃ opts, AckedBy conf s₀ es opts)

lemma Known.snoc (h : Known conf s₀ es)
    (hC : agreeing (run (lcpStep conf) s₀ es) e = true) : Known conf s₀ (es ++ [e]) := by
  intro hopen'
  have hopen : (core (run (lcpStep conf) s₀ es)).Open := by
    by_contra hset
    rw [run_snoc] at hopen'
    exact not_open_iff.mpr (not_open_iff.mp hset).lcpStep.1 hopen'
  obtain ⟨hneg, hacked⟩ := h hopen
  have hout := hneg.lcpStep hC
  rw [← run_snoc (lcpStep conf)] at hout
  cases hout with
  | ended hend _ | opened _ _ hend _ _ => exact absurd hopen' hend
  | asked hfresh hask =>
    refine ⟨⟨hfresh, .inl hask⟩, fun hfsm ↦ ?_⟩
    have hne : (run (lcpStep conf) s₀ (es ++ [e])).fsmState ≠ .ackRcvd := by
      rcases hask.1 with hs | hs <;> rw [core_fsm] at hs <;> simp [hs]
    exact absurd hfsm hne
  | stays hstay =>
    obtain ⟨st, hcore, hst⟩ := hstay
    have hreq := congrArg Core.req hcore
    have hfresh : Fresh conf (core (run (lcpStep conf) s₀ (es ++ [e]))) := by
      rw [hcore]
      exact { hneg with echo := hneg.toFresh.echo }
    rcases hst with rfl | ⟨hne, hst⟩
    · refine ⟨⟨hfresh, hcore ▸ hneg.phase⟩, fun hfsm ↦ (hacked ?_).imp fun _ ↦ .snoc hreq⟩
      exact (congrArg Core.fsm hcore).symm.trans hfsm
    have hask := hneg.phase.resolve_right fun h ↦ hne h.1
    refine ⟨⟨hfresh, .inl ?_⟩, fun hfsm ↦ ?_⟩
    · rw [hcore]
      exact ⟨hst, hask.2⟩
    · have hfsm' : st = .ackRcvd := (congrArg Core.fsm hcore).symm.trans hfsm
      rcases hst with rfl | rfl <;> cases hfsm'
  | acked hack hfsm hcore =>
    have hreq := congrArg Core.req hcore
    have hask := hneg.phase.resolve_right fun h ↦ nomatch hfsm.symm.trans h.1
    obtain ⟨opts, hopts, hcarried⟩ := hask.2
    refine ⟨⟨?_, .inr ?_⟩, fun _ ↦ ⟨opts, .of_isAck hreq hack hopts⟩⟩
    · rw [hcore]
      exact { hneg with echo := hneg.toFresh.echo }
    · rw [hcore]
      exact ⟨rfl, opts, hopts.trans (by simp), hcarried⟩

/-- `lcp_layer_start` sends the first request. -/
lemma known_start {conf : LcpConf} {rnd : UInt8} {magic : Nat} :
    Known conf (lcpStart conf rnd magic) [] := by
  have hinit : Fresh conf (core (setState .closed (lcpInit conf rnd magic))) := by
    refine ⟨⟨rfl, rfl⟩, fun hno ↦ ?_, rfl, rfl⟩
    show (if conf.confNoauth then [] else _) = []
    rw [if_pos hno]
  have hfresh : Fresh conf (core (setState .reqSent (decCounter
      (initReqCounter conf.fsm.confMaxConfigure (setState .closed
        (lcpInit conf rnd magic)))))) := by
    exact { hinit with }
  obtain ⟨hf, hask⟩ := hfresh.sendConfReq .reqSent (.inl rfl)
  intro _
  refine ⟨⟨hf, .inl hask⟩, fun hfsm ↦ ?_⟩
  cases hfsm

/-- Every time the run opens the link, it does so by an acknowledgement of the last request. -/
def OpensAgreed (conf : LcpConf) (s₀ : LcpFsm) (es : List LcpEvent) : Prop :=
  ∀ pre e, pre ++ [e] <+: es → (run (lcpStep conf) s₀ pre).fsmState ≠ .opened →
    (run (lcpStep conf) s₀ (pre ++ [e])).fsmState = .opened → OpenedByAck conf s₀ (pre ++ [e])

lemma Known.opened (h : Known conf s₀ es) (hC : agreeing (run (lcpStep conf) s₀ es) e = true)
    (hbefore : (run (lcpStep conf) s₀ es).fsmState ≠ .opened)
    (hafter : (run (lcpStep conf) s₀ (es ++ [e])).fsmState = .opened) :
    OpenedByAck conf s₀ (es ++ [e]) := by
  have hopen : (core (run (lcpStep conf) s₀ es)).Open := by
    by_contra hset
    rw [run_snoc] at hafter
    exact hbefore ((not_open_iff.mp hset).lcpStep.2 hafter)
  obtain ⟨hneg, hacked⟩ := h hopen
  have hout := hneg.lcpStep hC
  rw [← run_snoc (lcpStep conf)] at hout
  cases hout with
  | ended _ hfsm => exact absurd hafter hfsm
  | stays hstay =>
    obtain ⟨st, hcore, rfl | ⟨-, hst⟩⟩ := hstay
    · exact absurd ((congrArg Core.fsm hcore).symm.trans hafter) hbefore
    · have hfsm : st = .opened := (congrArg Core.fsm hcore).symm.trans hafter
      rcases hst with rfl | rfl <;> cases hfsm
  | asked _ hask => rcases hask.1 with hs | hs <;> cases hs.symm.trans hafter
  | acked _ _ hcore => cases (congrArg Core.fsm hcore).symm.trans hafter
  | opened hack _ _ hreq hrun =>
    -- the acknowledgement is an earlier one in Ack-Rcvd, and this event in Ack-Sent
    have hby : ∃ opts, AckedBy conf s₀ (es ++ [e]) opts := by
      rcases hack with hs | ⟨hs, hack⟩
      · exact (hacked hs).imp fun _ ↦ .snoc hreq
      · have hask := hneg.phase.resolve_right fun h ↦ nomatch hs.symm.trans h.1
        obtain ⟨opts, hopts, -⟩ := hask.2
        exact ⟨opts, .of_isAck hreq hack hopts⟩
    obtain ⟨opts, hby⟩ := hby
    refine ⟨opts, hby, ?_⟩
    obtain ⟨-, -, -, -, p, -, -, -, -, hlast⟩ := hby
    have hoffer : ∃ k, (core (run (lcpStep conf) s₀ es)).Offers k := by
      rcases hneg.phase with h | h
      · exact ⟨_, h.2⟩
      · exact ⟨_, h.2⟩
    obtain ⟨k, opts', hopts', hcarried⟩ := hoffer
    have heq : some (k, opts') = some (p.id, opts) := hopts'.symm.trans (hreq.symm.trans hlast)
    obtain ⟨-, rfl⟩ := Prod.mk.inj (some.inj heq)
    exact hrun.trans hcarried.symm

end Runs

/-- **An opened link has agreed on the last request.** A run whose steps all meet the condition
opens the link only by a Configure-Ack for the request sent last, and then runs the authentication
protocol of that request. -/
theorem lcp_opensAgreed (conf : LcpConf) (rnd : UInt8) (magic : Nat) (es : List LcpEvent)
    (hC : Along (lcpStep conf) (fun s e ↦ agreeing s e = true) (lcpStart conf rnd magic) es) :
    OpensAgreed conf (lcpStart conf rnd magic) es := by
  intro pre e hpre hbefore hafter
  obtain ⟨hpreC, hstepC, -⟩ := along_append.mp (hC.of_prefix hpre)
  have hknown : Known conf (lcpStart conf rnd magic) pre :=
    hpreC.history known_start fun _ _ ↦ Known.snoc
  exact hknown.opened hstepC hbefore hafter

/-! ### Runs on concrete packets -/

/-- MS-CHAPv2 and PAP. -/
def mschapPap : LcpConf where
  authHandlers := [⟨0xc223, [0x81], by decide⟩, ⟨0xc023, [], by decide⟩]

/-- A packet without options: a Configure-Request, or a Configure-Ack. -/
def bare (code id : UInt8) : LcpEvent :=
  .recv {} [0xc0, 0x21, code, id, 0, 4]

/-- A Configure-Nak with one option of four bytes. -/
def nakOf (id opt hi lo : UInt8) : LcpEvent :=
  .recv {} [0xc0, 0x21, 3, id, 0, 8, opt, 4, hi, lo]

/-- A peer that acknowledges the first request. -/
theorem lcp_opensAgreed_firstAck :
    (run (lcpStep mschapPap) (lcpStart mschapPap 0 1) [bare 1 7, bare 2 0]).fsmState = .opened ∧
      OpensAgreed mschapPap (lcpStart mschapPap 0 1) [bare 1 7, bare 2 0] :=
  ⟨by decide, lcp_opensAgreed mschapPap 0 1 _ (by decide)⟩

/-- A peer that refuses ten times: nine times the receive unit, the tenth time the authentication
protocol. No request with the identifier 10 has been sent, and a Configure-Ack with it opens the
link and starts MS-CHAPv2, which the peer has refused. -/
def refusals : List LcpEvent :=
  bare 1 7 :: (range 9).map (fun i ↦ nakOf (.ofNat i) 1 5 0xd4) ++
    [nakOf 9 3 0xc0 0x23, bare 2 10]

/-- Is the event a Configure-Ack with the identifier `k`? -/
def isAckOf (k : UInt8) : LcpEvent → Bool
  | .recv _ bytes => (readLcp bytes).any fun p ↦ p.code = .cp .confAck && p.id = k
  | _ => false

theorem refusals_not_opensAgreed :
    ¬ OpensAgreed mschapPap (lcpStart mschapPap 0 1) refusals ∧
      (authRun (run (lcpStep mschapPap) (lcpStart mschapPap 0 1) refusals).ld.out).map
        AuthMethod.proto = some 0xc223 := by
  refine ⟨fun h ↦ ?_, by decide⟩
  obtain ⟨opts, ⟨pre, env, bytes, post, p, hes, hread, hcode, -, hlast⟩, -⟩ :=
    h refusals.dropLast (bare 2 10) (prefix_refl _) (by decide) (by decide)
  have hnoack : ∀ ev ∈ refusals, isAckOf 9 ev = false := by decide
  have hid : p.id = 9 := by
    have hmap := congrArg (Option.map Prod.fst) hlast
    exact mem_unique hmap (by decide)
  have hmem : LcpEvent.recv env bytes ∈ refusals := by
    show LcpEvent.recv env bytes ∈ refusals.dropLast ++ [bare 2 10]
    rw [hes]
    simp
  have hack : isAckOf 9 (.recv env bytes) = true := by
    simp [isAckOf, hread, hcode, hid]
  simp [hnoack _ hmem] at hack

end AccelPpp.Ppp.Lcp
