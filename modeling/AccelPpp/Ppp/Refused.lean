import AccelPpp.Ppp.Ipcp
import AccelPpp.Ppp.Verdict

/-!
# Refused addresses

A refused address is in the session before it is refused. If the refusal reaches `ipcp_recv`, the
session is terminated; if not, the layer goes on with that address and acknowledges it in a later
request. The refusal is lost behind an unknown option, which overwrites the verdict, and when a
passive layer opens because of a request without an address option, since the result of
`ppp_fsm_open` is dropped.

One of three predicates always holds: the layer has an address and none was refused (`Bound`), it
has none and the machine is at rest (`Idle`), or the session is terminating (`Over`). What the
callbacks do to the components that matter is said once, in `Quiet`.
-/

open List

namespace AccelPpp.Ppp.Ipcp

open Ncp Transition

/-! ### IPCP: whole runs -/

/-- The body of a Configure packet has an address option with this address. -/
def carriesAddr (addr : Nat) (body : List UInt8) : Bool :=
  (parseOpts body).any fun opts ↦ opts.any fun o ↦ isAddr o && o.len = 6 && o.val = addr

/-- **No refused address is acknowledged later.** -/
def NeverAcked (out : List IpcpOut) : Prop :=
  ∀ pre ip post, out = pre ++ .refused ip :: post →
    ∀ id body, .confAck id body ∈ post → carriesAddr ip.peerAddr body = false

/-- Neither a refusal nor an acknowledgement. -/
def isQuiet : IpcpOut → Bool
  | .refused _ | .confAck _ _ => false
  | _ => true

variable {out : List IpcpOut}

lemma NeverAcked.of_no_refusal (h : ∀ ip, .refused ip ∉ out) : NeverAcked out := by
  rintro pre ip post rfl
  exact absurd (by simp) (h ip)

/-- One more output: if it is an acknowledgement, it must not carry what was refused before. -/
lemma NeverAcked.snoc (h : NeverAcked out) (o : IpcpOut)
    (ho : ∀ ip, .refused ip ∈ out → ∀ id body, o = .confAck id body →
      carriesAddr ip.peerAddr body = false) : NeverAcked (out ++ [o]) := by
  intro pre ip post hout id body hmem
  rcases eq_nil_or_concat post with rfl | ⟨post, last, rfl⟩
  · simp at hmem
  rw [concat_eq_append] at hout hmem
  have hsplit : out ++ [o] = (pre ++ .refused ip :: post) ++ [last] := by
    rw [hout, append_assoc, cons_append]
  obtain ⟨rfl, hlast⟩ := append_inj' hsplit rfl
  rcases mem_append.mp hmem with hmem | hmem
  · exact h pre ip post rfl id body hmem
  · refine ho ip (by simp) id body ?_
    rw [mem_singleton.mp hmem]
    exact head_eq_of_cons_eq hlast

/-- What most of the layer does to the components that matter: nothing but quiet output, and
possibly the end of the session. -/
structure Quiet (l l' : PppIpcp) : Prop where
  ipv4 : l'.options.ipv4 = l.options.ipv4
  delayAck : l'.delayAck = l.delayAck
  delayAckBuf : l'.delayAckBuf = l.delayAckBuf
  terminating : l.terminating = true → l'.terminating = true
  out : ∃ os, l'.out = l.out ++ os ∧ ∀ o ∈ os, isQuiet o = true

section Quiet

variable {s : IpcpFsm} {l l' l'' : PppIpcp}

/-- Fields that do not matter. -/
lemma quiet_of_eq (hip : l'.options.ipv4 = l.options.ipv4 := by rfl)
    (hack : l'.delayAck = l.delayAck := by rfl) (hbuf : l'.delayAckBuf = l.delayAckBuf := by rfl)
    (hterm : l'.terminating = l.terminating := by rfl) (hout : l'.out = l.out := by rfl) :
    Quiet l l' :=
  ⟨hip, hack, hbuf, fun h ↦ hterm.trans h, [], by simp [hout]⟩

lemma Quiet.trans (h : Quiet l l') (h' : Quiet l' l'') : Quiet l l'' := by
  obtain ⟨os, hos, hq⟩ := h.out
  obtain ⟨os', hos', hq'⟩ := h'.out
  refine ⟨h'.ipv4.trans h.ipv4, h'.delayAck.trans h.delayAck, h'.delayAckBuf.trans h.delayAckBuf,
    fun ht ↦ h'.terminating (h.terminating ht), os ++ os', ?_, ?_⟩
  · rw [hos', hos, append_assoc]
  · exact forall_mem_append.mpr ⟨hq, hq'⟩

variable {s : IpcpFsm}

lemma quiet_emit {o : IpcpOut} (ho : isQuiet o = true) : Quiet s.ld (emit o s).ld :=
  ⟨rfl, rfl, rfl, id, [o], rfl, by simpa using ho⟩

lemma ld_apSessionTerminate (s : IpcpFsm) : (apSessionTerminate s).ld =
    { s.ld with terminating := true, out := s.ld.out ++ [.terminate] } := by
  rw [apSessionTerminate]
  split
  · next ht => simp [emit, ht]
  · dsimp only
    split <;> rfl

lemma quiet_apSessionTerminate (s : IpcpFsm) : Quiet s.ld (apSessionTerminate s).ld := by
  rw [ld_apSessionTerminate]
  exact ⟨rfl, rfl, rfl, fun _ ↦ rfl, [.terminate], rfl, by simp [isQuiet]⟩

variable {env : IpcpEnv}

lemma quiet_layerSettled {o : IpcpOut} (ho : isQuiet o = true) (s : IpcpFsm) :
    Quiet s.ld (layerSettled env o s).ld := by
  rw [layerSettled]
  split
  · exact (quiet_emit ho).trans (quiet_apSessionTerminate _)
  · exact quiet_emit ho

lemma quiet_ipcpLayerUpNow (s : IpcpFsm) : Quiet s.ld (ipcpLayerUpNow env s).ld := by
  rw [ipcpLayerUpNow]
  split
  · exact quiet_of_eq
  · have hstarted : Quiet s.ld { s.ld with started := true } := quiet_of_eq
    exact hstarted.trans (quiet_layerSettled rfl { s with ld := { s.ld with started := true } })

lemma quiet_ipcpLayerUp : Quiet s.ld (ipcpLayerUp env s).ld := by
  rw [ipcpLayerUp]
  split
  · exact quiet_of_eq
  · exact quiet_ipcpLayerUpNow s

variable {conf : IpcpConf}

lemma quiet_ipcpLayerFinished : Quiet s.ld (ipcpLayerFinished conf env s).ld := by
  rw [ipcpLayerFinished]
  split
  · split
    · exact quiet_apSessionTerminate s
    · have hpassive : Quiet s.ld { s.ld with passive := true } := quiet_of_eq
      exact hpassive.trans (quiet_layerSettled rfl { s with ld := { s.ld with passive := true } })
  · split
    · exact quiet_apSessionTerminate s
    · exact quiet_of_eq

/-- A property that quiet steps keep is kept by the callbacks, if `send_conf_req` keeps it. -/
lemma keeps_of_quiet {J : PppIpcp → Prop} (hJ : ∀ {l l'}, Quiet l l' → J l → J l')
    (hreq : ∀ s : IpcpFsm, J s.ld → J (sendConfReq conf env s).1.ld) :
    (ipcpOps conf env).Keeps J := by
  have hbase : (ipcpBase conf env).Keeps J :=
    { layerUp := fun s ↦ hJ quiet_ipcpLayerUp
      layerDown := fun _ h ↦ h
      layerStarted := fun _ h ↦ h
      layerFinished := fun s ↦ hJ quiet_ipcpLayerFinished
      sendConfReq := hreq
      sendConfNak := fun s ↦ hJ (quiet_emit rfl)
      sendConfRej := fun s ↦ hJ (quiet_emit rfl)
      sendCodeRej := fun _ h ↦ h
      sendTermReq := fun s ↦ hJ (quiet_emit rfl)
      sendTermAck := fun s ↦ hJ (quiet_emit rfl) }
  exact { hbase with layerDown := fun _ h ↦ hbase.close h }

end Quiet

/-! Three situations, of which one always holds. -/

/-- The layer has an address, and none was refused. -/
structure Bound (l : PppIpcp) : Prop where
  noRefusal : ∀ ip, .refused ip ∉ l.out
  addr : l.options.ipv4 ≠ none

/-- Nothing that was refused has been acknowledged, or is waiting to be. -/
structure Sound (l : PppIpcp) : Prop where
  held : l.delayAck = true ∨ l.delayAckBuf ≠ none → l.options.ipv4 ≠ none
  acked : NeverAcked l.out
  unsent : ∀ ip, .refused ip ∈ l.out →
    ∀ id body, l.delayAckBuf = some (id, body) → carriesAddr ip.peerAddr body = false

/-- The session is terminating. -/
structure Over (l : PppIpcp) : Prop extends Sound l where
  terminating : l.terminating = true

/-- The layer has no address, and the machine is at rest. -/
structure Idle (conf : IpcpConf) (s : IpcpFsm) : Prop where
  noRefusal : ∀ ip, .refused ip ∉ s.ld.out
  addr : s.ld.options.ipv4 = none
  delayAck : s.ld.delayAck = false
  delayAckBuf : s.ld.delayAckBuf = none
  rest : s.fsmState = .initial ∨ s.fsmState = .closed
  mode : s.ld.passive = true → conf.confIpv4 ≠ .require

section Situations

variable {conf : IpcpConf} {env : IpcpEnv} {s : IpcpFsm} {l l' : PppIpcp}

lemma noRefusal_snoc {out : List IpcpOut} (h : ∀ ip, .refused ip ∉ out) {o : IpcpOut}
    (ho : ∀ ip, o ≠ .refused ip) (ip : Ipv4) : .refused ip ∉ out ++ [o] := by
  simpa using ⟨h ip, (ho ip).symm⟩

lemma Quiet.noRefusal (hq : Quiet l l') (h : ∀ ip, .refused ip ∉ l.out) :
    ∀ ip, .refused ip ∉ l'.out := by
  obtain ⟨os, hos, hquiet⟩ := hq.out
  intro ip hmem
  rw [hos] at hmem
  rcases mem_append.mp hmem with hmem | hmem
  · exact h ip hmem
  · exact absurd (hquiet _ hmem) (by simp [isQuiet])

lemma Bound.quiet (hq : Quiet l l') (h : Bound l) : Bound l' :=
  ⟨hq.noRefusal h.noRefusal, hq.ipv4 ▸ h.addr⟩

lemma NeverAcked.quiet {out os : List IpcpOut} (h : NeverAcked out)
    (hos : ∀ o ∈ os, isQuiet o = true) : NeverAcked (out ++ os) := by
  induction os using reverseRecOn with
  | nil => simpa using h
  | append_singleton os o ih =>
    rw [← append_assoc]
    refine (ih fun o' ho' ↦ hos o' (by simp [ho'])).snoc o fun _ _ id body ho ↦ ?_
    exact absurd (hos o (by simp)) (by simp [ho, isQuiet])

lemma Sound.quiet (hq : Quiet l l') (h : Sound l) : Sound l' := by
  obtain ⟨os, hos, hquiet⟩ := hq.out
  refine ⟨?_, ?_, ?_⟩
  · rw [hq.delayAck, hq.delayAckBuf, hq.ipv4]
    exact h.held
  · rw [hos]
    exact h.acked.quiet hquiet
  intro ip hmem
  rw [hos] at hmem
  rw [hq.delayAckBuf]
  rcases mem_append.mp hmem with hmem | hmem
  · exact h.unsent ip hmem
  · exact absurd (hquiet _ hmem) (by simp [isQuiet])

lemma Over.quiet (hq : Quiet l l') (h : Over l) : Over l' :=
  ⟨h.toSound.quiet hq, hq.terminating h.terminating⟩

lemma Bound.sound (h : Bound l) : Sound l :=
  ⟨fun _ ↦ h.addr, .of_no_refusal h.noRefusal, fun ip hip ↦ absurd hip (h.noRefusal ip)⟩

lemma Idle.sound (h : Idle conf s) : Sound s.ld :=
  ⟨by simp [h.delayAck, h.delayAckBuf], .of_no_refusal h.noRefusal,
    fun ip hip ↦ absurd hip (h.noRefusal ip)⟩

lemma keeps_bound {conf : IpcpConf} (env : IpcpEnv) : (ipcpOps conf env).Keeps Bound :=
  keeps_of_quiet Bound.quiet fun _ h ↦ by
    obtain ⟨ip, hip⟩ := Option.ne_none_iff_exists'.mp h.addr
    simp only [sendConfReq, hip]
    exact h.quiet (quiet_emit rfl)

/-- A request of our own keeps the peace even when it finds a bad address: at that moment nothing
has been withheld. -/
lemma Sound.sendConfReq (h : Sound s.ld) : Sound (sendConfReq conf env s).1.ld ∧
    (Ipcp.sendConfReq conf env s).1.ld.terminating = s.ld.terminating := by
  cases hip : s.ld.options.ipv4 with
  | some ip =>
    simp only [Ipcp.sendConfReq, hip]
    exact ⟨h.quiet (quiet_emit rfl), rfl⟩
  | none =>
    have hfree : s.ld.delayAck = false ∧ s.ld.delayAckBuf = none := by
      have hno := mt h.held (by simp [hip])
      simpa using hno
    cases halloc : env.alloc with
    | empty =>
      simp only [Ipcp.sendConfReq, hip, halloc]
      split
      · simpa [pppFsmClose2] using h
      · exact ⟨h, rfl⟩
    | ok ip =>
      simp only [Ipcp.sendConfReq, hip, halloc]
      refine ⟨Sound.quiet (quiet_emit rfl) ⟨?_, h.acked, h.unsent⟩, rfl⟩
      exact fun _ ↦ by simp [setIpv4]
    | refused ip =>
      simp only [Ipcp.sendConfReq, hip, halloc]
      refine ⟨⟨fun _ ↦ by simp [emit, setIpv4], ?_, ?_⟩, rfl⟩
      · exact h.acked.snoc _ (by simp)
      · intro _ _ id body hbuf
        have hnone : s.ld.delayAckBuf = some (id, body) := hbuf
        rw [hfree.2] at hnone
        cases hnone

lemma keeps_sound (conf : IpcpConf) (env : IpcpEnv) : (ipcpOps conf env).Keeps Sound :=
  keeps_of_quiet Sound.quiet fun _ h ↦ h.sendConfReq.1

lemma keeps_over {conf : IpcpConf} (env : IpcpEnv) : (ipcpOps conf env).Keeps Over :=
  keeps_of_quiet Over.quiet fun _ h ↦
    ⟨h.toSound.sendConfReq.1, h.toSound.sendConfReq.2.trans h.terminating⟩

/-- With the right of way for acknowledgements: nothing was refused. -/
lemma Bound.sendConfAck (h : Bound s.ld) : Bound (sendConfAck s).ld := by
  rw [Ipcp.sendConfAck]
  split
  · exact { h with }
  · exact ⟨noRefusal_snoc h.noRefusal nofun, h.addr⟩

lemma Bound.fsmStep (h : Bound s.ld) (ev : FsmEvent) :
    Bound (fsmStep (ipcpOps conf env) s ev).ld :=
  (keeps_bound env).fsmStep (fun _ _ ↦ Bound.sendConfAck) h

end Situations

/-! What the entry points keep because the callbacks do. -/

section Entry

variable {conf : IpcpConf} {env : IpcpEnv} {s : IpcpFsm} {J : PppIpcp → Prop}

/-- The machine is opened. -/
abbrev opened (conf : IpcpConf) (env : IpcpEnv) (s : IpcpFsm) : IpcpFsm × Int :=
  pppFsmOpen (ipcpOps conf env) (pppFsmLowerUp (ipcpOps conf env) s).1

lemma keeps_open (hk : (ipcpOps conf env).Keeps J) (h : J s.ld) : J (opened conf env s).1.ld :=
  hk.fsmStep (e := .openLayer) (by simp) (hk.lowerUp h)

lemma keeps_leavePassive (hJ : ∀ {l l'}, Quiet l l' → J l → J l')
    (hk : (ipcpOps conf env).Keeps J) (h : J s.ld) : J (ipcpLeavePassive conf env s).ld := by
  rw [ipcpLeavePassive]
  split
  · have hpassive : J ({ s.ld with passive := false } : PppIpcp) :=
      hJ (l := s.ld) quiet_of_eq h
    have hopen := keeps_open (s := { s with ld := { s.ld with passive := false } }) hk hpassive
    exact hJ (by exact quiet_of_eq) hopen
  · exact h

/-- The events that are neither a packet nor the settling of CCP. -/
lemma keeps_ipcpStep (hJ : ∀ {l l'}, Quiet l l' → J l → J l')
    (hk : ∀ env, (ipcpOps conf env).Keeps J) (h : J s.ld) {e : IpcpEvent × IpcpEnv}
    (hrecv : ∀ bytes, e.1 ≠ .recv bytes) (hccp : e.1 ≠ .ccpStarted) : J (ipcpStep conf s e).ld := by
  obtain ⟨e, env⟩ := e
  have hend {s : IpcpFsm} (h : J s.ld) : J (apSessionTerminate s).ld :=
    hJ (quiet_apSessionTerminate s) h
  cases e with
  | start =>
    have hstarting : J ({ s.ld with starting := true } : PppIpcp) :=
      hJ quiet_of_eq h
    simp only [ipcpStep, ipcpLayerStart]
    split
    · exact hstarting
    split
    · exact hJ (by exact quiet_of_eq) hstarting
    · have hopen := keeps_open (s := { s with ld := { s.ld with starting := true } }) (hk env)
        hstarting
      split
      · exact hend hopen
      · exact hopen
  | recv bytes => exact absurd rfl (hrecv bytes)
  | recvProtoRej =>
    simp only [ipcpStep, ipcpRecvProtoRej]
    split
    · exact h
    · exact (hk env).close ((hk env).lowerDown h)
  | timeout => exact (hk env).fsmStep (by simp) h
  | startTimeout =>
    simp only [ipcpStep, ipcpStartTimeout]
    split
    · have htimer : J ({ s.ld with timeout := false } : PppIpcp) :=
        hJ quiet_of_eq h
      split
      · exact hend htimer
      · exact htimer
    · exact h
  | ccpStarted => exact absurd rfl hccp
  | terminate => exact hend h

end Entry

/-! ### Requests -/

section Requests

variable {conf : IpcpConf} {env : IpcpEnv} {s : IpcpFsm} {r : OptState} {data : List UInt8}

lemma recvConfReq_state {alloc : Alloc Ipv4} {stop : Bool} {st : IpcpState} {data : List UInt8} :
    (recvConfReq (ipcpTable alloc) stop st data).1 = st ∨
      st.ipv4 = none ∧ ∃ ip, (alloc = .ok ip ∨ alloc = .refused ip) ∧
        (recvConfReq (ipcpTable alloc) stop st data).1.ipv4 = some ip := by
  rw [recvConfReq]
  split
  · exact .inl rfl
  · exact loop_state alloc stop st .ack [] _

/-- How the handlers judge a request. -/
abbrev judge (env : IpcpEnv) (s : IpcpFsm) (data : List UInt8) : IpcpState × ReqResult :=
  recvConfReq (ipcpTable env.alloc) env.stopTime s.ld.options data

/-- The layer after the request has been judged, before the verdict is looked at. -/
def judged (env : IpcpEnv) (s : IpcpFsm) (data : List UInt8) : IpcpFsm :=
  let options := (judge env s data).1
  let s := noteRefusal env.alloc s.ld.options options { s with ld := { s.ld with options } }
  if env.stopTime then apSessionTerminate s else s

lemma ipcpRecvConfReq_eq : ipcpRecvConfReq conf env s data =
    match (judge env s data).2 with
    | .verdict r ropts =>
      (updateDelayAck env ropts
        { judged env s data with ld := { (judged env s data).ld with roptList := ropts } }, r)
    | .termAck => (sendTermAck (judged env s data), .none)
    | .close =>
      (if conf.confIpv4 = .require then apSessionTerminate (judged env s data)
        else emit .protoRej (judged env s data), .none)
    | .stopped => (judged env s data, .nak) := rfl

/-- The layer when the answer is given: opened, if it was passive, and up, if an acknowledgement is
no longer withheld. -/
def ready (conf : IpcpConf) (env : IpcpEnv) (delayed : Bool) (s : IpcpFsm) (r : OptState) :
    IpcpFsm :=
  let s := if r ≠ .none then ipcpLeavePassive conf env s else s
  if delayed && !s.ld.delayAck then ipcpLayerUpNow env s else s

/-- The end of the arm: the received options are freed, and the verdict Fail ends the session. -/
def closeRequest (res : IpcpFsm × OptState) : IpcpFsm :=
  if res.2 = .fail then apSessionTerminate (ipcpFreeConfReq res.1) else ipcpFreeConfReq res.1

lemma ipcpAnswerConfReq_eq (delayed : Bool) : ipcpAnswerConfReq conf env delayed s r =
    closeRequest (ipcpReply conf env delayed (ready conf env delayed s r) r) := rfl

lemma keeps_ready {J : PppIpcp → Prop} (hJ : ∀ {l l'}, Quiet l l' → J l → J l')
    (hk : (ipcpOps conf env).Keeps J) (h : J s.ld) (delayed : Bool) (r : OptState) :
    J (ready conf env delayed s r).ld := by
  have hopen : J (if r ≠ .none then ipcpLeavePassive conf env s else s).ld := by
    split
    · exact keeps_leavePassive hJ hk h
    · exact h
  rw [ready]
  generalize (if r ≠ .none then ipcpLeavePassive conf env s else s) = s₁ at hopen ⊢
  split
  · exact hJ (quiet_ipcpLayerUpNow _) hopen
  · exact hopen

/-- The events that the timer and the packets of the peer make. -/
abbrev heard : List FsmEvent :=
  [.timeout, .recvConfReqAck, .recvConfReqNak, .recvConfReqRej, .recvConfAck, .recvConfRej,
    .recvTermReq, .recvCodeRejBad, .recvUnk]

variable {delayed : Bool}

lemma keeps_reply {J : IpcpFsm → Prop} (h : J s) {r : OptState}
    (hack : J (sendConfAck s)) (hstep : ∀ ev ∈ heard, J (fsmStep (ipcpOps conf env) s ev))
    (hfree : ∀ {s}, J s → J (ipcpFreeConfReq s)) (hend : ∀ {s}, J s → J (apSessionTerminate s)) :
    J (closeRequest (ipcpReply conf env delayed s r)) := by
  have hreply : J (ipcpReply conf env delayed s r).1 := by
    rw [ipcpReply.eq_def]
    split
    · split
      · exact hack
      · exact h
    split
    · exact hstep .recvConfReqAck (by simp)
    · exact hstep .recvConfReqNak (by simp)
    · exact hstep .recvConfReqRej (by simp)
    · exact h
  rw [closeRequest]
  split
  · exact hend (hfree hreply)
  · exact hfree hreply

/-- With an address that was not refused the answer is harmless. -/
lemma Bound.reply (h : Bound s.ld) (delayed : Bool) (r : OptState) :
    Bound (closeRequest (ipcpReply conf env delayed s r)).ld :=
  keeps_reply (J := fun s ↦ Bound s.ld) h h.sendConfAck (fun ev _ ↦ h.fsmStep ev)
    (fun h ↦ { h with }) (fun h ↦ h.quiet (quiet_apSessionTerminate _))

lemma Bound.answer (h : Bound s.ld) (delayed : Bool) (r : OptState) :
    Bound (ipcpAnswerConfReq conf env delayed s r).ld := by
  exact (keeps_ready Bound.quiet (keeps_bound env) h delayed r).reply delayed r

/-- The verdict Fail ends the session. -/
lemma Sound.answer_fail (h : Sound s.ld) :
    Over (ipcpAnswerConfReq conf env delayed s .fail).ld := by
  have hready := keeps_ready Sound.quiet (keeps_sound conf env) h delayed .fail
  have hreply : ipcpReply conf env delayed (ready conf env delayed s .fail) .fail =
      (ready conf env delayed s .fail, .fail) := by
    rw [ipcpReply.eq_def]
    split <;> rfl
  have hfree : Sound (ipcpFreeConfReq (ready conf env delayed s .fail)).ld :=
    hready.quiet (by exact quiet_of_eq)
  rw [ipcpAnswerConfReq_eq, hreply]
  show Over (apSessionTerminate (ipcpFreeConfReq (ready conf env delayed s .fail))).ld
  refine ⟨hfree.quiet (quiet_apSessionTerminate _), ?_⟩
  rw [ld_apSessionTerminate]

/-! A machine at rest. -/

section

variable (h : Idle conf s)

include h

lemma Idle.sends {o : IpcpOut} (ho : ∀ ip, o ≠ .refused ip) : Idle conf (emit o s) :=
  { h with noRefusal := noRefusal_snoc h.noRefusal ho }

lemma Idle.terminate : Idle conf (apSessionTerminate s) := by
  have hrest : (apSessionTerminate s).fsmState = s.fsmState ∨
      (apSessionTerminate s).fsmState = .closed := by
    rw [apSessionTerminate]
    split
    · exact .inl rfl
    · dsimp only
      split
      · exact .inr rfl
      · exact .inl rfl
  have hld := ld_apSessionTerminate s
  refine ⟨?_, hld ▸ h.addr, hld ▸ h.delayAck, hld ▸ h.delayAckBuf, ?_, hld ▸ h.mode⟩
  · exact (quiet_apSessionTerminate s).noRefusal h.noRefusal
  · rcases hrest with hst | hst
    · rw [hst]
      exact h.rest
    · exact .inr hst

/-- The events that find the machine at rest leave it there. -/
lemma Idle.fsmStep (env : IpcpEnv) (ev : FsmEvent) (hev : ev ∈ heard) :
    Idle conf (fsmStep (ipcpOps conf env) s ev) := by
  have hack : Idle conf (sendTermAck s) := h.sends nofun
  have hid : Idle conf (incId s) :=
    { h with }
  have hidAck : Idle conf (sendTermAck (incId s)) := hid.sends nofun
  simp only [mem_cons, not_mem_nil, or_false] at hev
  rcases h.rest with hst | hst
  all_goals
    rcases hev with rfl | rfl | rfl | rfl | rfl | rfl | rfl | rfl | rfl
    all_goals
      simp only [Ppp.fsmStep, restartTimerFunc, pppFsmTimeout0, pppFsmTimeout1,
        pppFsmRecvConfReqAck, pppFsmRecvConfReqNak, pppFsmRecvConfReqRej, pppFsmRecvConfAck,
        pppFsmRecvConfRej, pppFsmRecvTermReq, pppFsmRecvCodeRejBad, pppFsmRecvUnk,
        incId_fsmState, hst]
      first
        | exact h
        | exact hid
        | exact hack
        | exact hidAck
        | (split <;> first | exact h | (split <;> exact h))

/-- Opening a machine at rest: the layer gets an address, or the machine is at rest again, or the
request could not be built. -/
lemma Idle.opens (env : IpcpEnv) :
    Bound (opened conf env s).1.ld ∨ Idle conf (opened conf env s).1 ∨
      ((opened conf env s).2 ≠ 0 ∧
        (refuses env.alloc s.ld.options = true ∨ conf.confIpv4 = .require)) := by
  have hopen : ∃ s₁ : IpcpFsm, s₁.ld = s.ld ∧ opened conf env s =
        if (sendConfReq conf env s₁).2 ≠ 0 then ((sendConfReq conf env s₁).1, -1)
        else ((sendConfReq conf env s₁).1, 0) := by
    rcases h.rest with hst | hst
    · exact ⟨setState .reqSent (decCounter (initReqCounter s.maxConfigure (setState .closed s))),
        by simp, by simp only [opened, pppFsmLowerUp, hst, pppFsmOpen, setState_fsmState]; rfl⟩
    · exact ⟨setState .reqSent (decCounter (initReqCounter s.maxConfigure s)), by simp, by
        simp only [opened, pppFsmLowerUp, hst, pppFsmOpen]; rfl⟩
  obtain ⟨s₁, hld, heq⟩ := hopen
  have hnone : s₁.ld.options.ipv4 = none := by rw [hld, h.addr]
  rw [heq]
  cases halloc : env.alloc with
  | ok ip =>
    refine .inl ?_
    simp only [sendConfReq, hnone, halloc]
    refine Bound.quiet (quiet_emit rfl) ⟨?_, by simp [setIpv4]⟩
    simpa [setIpv4, hld] using h.noRefusal
  | refused ip =>
    refine .inr (.inr ⟨?_, .inl ?_⟩)
    · simp [sendConfReq, hnone, halloc]
    · exact refuses_iff.mpr ⟨h.addr, ip, rfl⟩
  | empty =>
    by_cases hconf : conf.confIpv4 = .require
    · refine .inr (.inr ⟨?_, .inr hconf⟩)
      simp [sendConfReq, hnone, halloc, hconf]
    refine .inr (.inl ?_)
    have hclose : (pppFsmClose2 s₁).ld = s.ld := by simp [pppFsmClose2, hld]
    simp only [sendConfReq, hnone, halloc, if_pos hconf]
    exact ⟨hclose ▸ h.noRefusal, hclose ▸ h.addr, hclose ▸ h.delayAck, hclose ▸ h.delayAckBuf,
      .inr rfl, hclose ▸ h.mode⟩

/-- A passive layer at rest that opens without finding a bad address. -/
lemma Idle.leavePassive (hr : refuses env.alloc s.ld.options = true → s.ld.passive = false) :
    Bound (ipcpLeavePassive conf env s).ld ∨ Idle conf (ipcpLeavePassive conf env s) := by
  rw [ipcpLeavePassive]
  split
  · next hp =>
    have hidle : Idle conf { s with ld := { s.ld with passive := false } } :=
      { h with mode := nofun }
    rcases hidle.opens env with hb | hi | ⟨-, hbad⟩
    · exact .inl { hb with }
    · exact .inr { hi with }
    · rcases hbad with hbad | hbad
      · simp [hr hbad] at hp
      · exact absurd hbad (h.mode hp)
  · exact .inr h

lemma Idle.reply (r : OptState) : Idle conf (closeRequest (ipcpReply conf env false s r)) := by
  refine keeps_reply h ?_ (h.fsmStep env) (fun h ↦ { h with }) Idle.terminate
  rw [sendConfAck, if_neg (by simp [h.delayAck])]
  exact h.sends nofun

/-- The answer of a layer at rest, if opening it does not find a bad address. -/
lemma Idle.answer (hr : refuses env.alloc s.ld.options = true →
      s.ld.passive = false ∨ r = .none) :
    Bound (ipcpAnswerConfReq conf env false s r).ld ∨
      Idle conf (ipcpAnswerConfReq conf env false s r) := by
  have hready : Bound (ready conf env false s r).ld ∨ Idle conf (ready conf env false s r) := by
    have hopen : Bound (if r ≠ .none then ipcpLeavePassive conf env s else s).ld ∨
        Idle conf (if r ≠ .none then ipcpLeavePassive conf env s else s) := by
      split
      · next hne => exact h.leavePassive fun hbad ↦ (hr hbad).resolve_right hne
      · exact .inr h
    simpa [ready] using hopen
  exact hready.imp (fun hb ↦ hb.reply false r) (fun hi ↦ hi.reply r)

end

/-- The condition on a request, on the state before it: when the address it needs is going to be
refused, it asks for an address and no unknown option hides the refusal, or it does not open the
layer. -/
def requestSafe (env : IpcpEnv) (l : PppIpcp) (data : List UInt8) : Bool :=
  !refuses env.alloc l.options || (parseOpts data).all fun opts ↦
    if opts.any isAddr then !unknownAfterAddr opts else !l.passive

variable {alloc : Alloc Ipv4} {stop : Bool} {st : IpcpState} {ret : OptState}

/-- Judging stops early only in a session that is being stopped. -/
lemma loop_stopped {done : List (RecvOpt × OptState)} {opts : List RecvOpt}
    (h : (recvConfReqLoop (ipcpTable alloc) stop st ret done opts).2 = .stopped) : stop = true := by
  induction opts generalizing st ret done with
  | nil => cases h
  | cons o opts ih =>
    rw [recvConfReqLoop] at h
    split at h
    · exact ih h
    · cases h
    · cases h
    · split at h
      · next hstop => exact hstop
      · exact ih h

lemma recvConfReq_stopped (h : (recvConfReq (ipcpTable alloc) stop st data).2 = .stopped) :
    stop = true := by
  rw [recvConfReq] at h
  split at h
  · cases h
  · exact loop_stopped h

variable {ropts : List (RecvOpt × OptState)}

/-- `delay_ack` is set only where there is an address. -/
lemma recvConfReq_addr (h : (recvConfReq (ipcpTable alloc) stop st data).2 = .verdict ret ropts)
    (haddr : ∃ ro ∈ ropts, isAddr ro.1 = true) :
    (recvConfReq (ipcpTable alloc) stop st data).1.ipv4 ≠ none := by
  obtain ⟨ro, hro, hid⟩ := haddr
  rw [recvConfReq] at h ⊢
  split at h
  · cases h
    cases hro
  · exact loop_addr (Prod.ext rfl h) (by simp) ro hro hid

lemma judged_terminating (h : env.stopTime = true) :
    (judged env s data).ld.terminating = true := by
  rw [judged]
  rw [if_pos h, ld_apSessionTerminate]

/-- Nothing was fetched. -/
lemma judged_of_same (h : (judge env s data).1 = s.ld.options) :
    judged env s data = if env.stopTime then apSessionTerminate s else s := by
  have hnote : noteRefusal env.alloc s.ld.options s.ld.options s = s := by
    cases hip : s.ld.options.ipv4 <;> simp [noteRefusal, hip]
  rw [judged]
  rw [h]
  exact congrArg (fun s ↦ if env.stopTime then apSessionTerminate s else s) hnote

lemma Bound.judged_same (h : Bound s.ld) : Bound (judged env s data).ld := by
  have hsame : (judge env s data).1 = s.ld.options :=
    recvConfReq_state.resolve_right
      fun hnone ↦ h.addr hnone.1
  rw [judged_of_same hsame]
  split
  · exact h.quiet (quiet_apSessionTerminate s)
  · exact h

/-- From the judged request to the verdict: nothing is refused on the way. -/
lemma Bound.of_judged (h : Bound (judged env s data).ld) :
    Bound (ipcpRecvConfReq conf env s data).1.ld := by
  rw [ipcpRecvConfReq_eq]
  split
  · rw [updateDelayAck]
    split <;> exact { h with }
  · exact h.quiet (quiet_emit rfl)
  · split
    · exact h.quiet (quiet_apSessionTerminate _)
    · exact h.quiet (quiet_emit rfl)
  · exact h

/-- A good address was fetched. -/
lemma Idle.judged_ok (h : Idle conf s) {ip : Ipv4} (halloc : env.alloc = .ok ip)
    (hip : (judge env s data).1.ipv4 = some ip) : Bound (judged env s data).ld := by
  have hb : Bound { s.ld with options := (judge env s data).1 } := ⟨h.noRefusal, by simp [hip]⟩
  have hnote (s' : IpcpFsm) :
      noteRefusal env.alloc s.ld.options (judge env s data).1 s' = s' := by
    simp [noteRefusal, halloc]
  rw [judged]
  rw [hnote]
  split
  · exact Bound.quiet (quiet_apSessionTerminate _) hb
  · exact hb

/-- A bad address was fetched: the refusal is on record, and nothing has been withheld. -/
lemma Idle.judged_refused (h : Idle conf s) {ip : Ipv4} (halloc : env.alloc = .refused ip)
    (hip : (judge env s data).1.ipv4 = some ip) :
    Sound (judged env s data).ld ∧ (judged env s data).ld.options.ipv4 ≠ none := by
  have hnote (s' : IpcpFsm) : noteRefusal env.alloc s.ld.options (judge env s data).1 s' =
      emit (.refused ip) s' := by
    simp [noteRefusal, halloc, h.addr, hip]
  have hsound : Sound { s.ld with
      options := (judge env s data).1, out := s.ld.out ++ [.refused ip] } := by
    refine ⟨fun _ ↦ by simp [hip], h.sound.acked.snoc _ nofun, ?_⟩
    simp [h.delayAckBuf]
  rw [judged]
  rw [hnote]
  split
  · refine ⟨Sound.quiet (quiet_apSessionTerminate _) hsound, ?_⟩
    rw [ld_apSessionTerminate]
    simp [emit, hip]
  · exact ⟨hsound, by simp [emit, hip]⟩

/-- The verdict on a safe request whose address is refused: it is the refusal, or there is no
address option, or the session is being stopped. -/
lemma judge_refused (hsafe : requestSafe env s.ld data = true)
    (hrefuses : refuses env.alloc s.ld.options = true) :
    (judge env s data).2 = .stopped ∨ ∃ ret ropts, (judge env s data).2 = .verdict ret ropts ∧
      (ret = .fail ∨ (judge env s data).1 = s.ld.options ∧ s.ld.passive = false) := by
  obtain ⟨-, ip, halloc⟩ := refuses_iff.mp hrefuses
  rw [judge, Ncp.recvConfReq]
  cases hparse : parseOpts data with
  | none => exact .inr ⟨.fail, [], rfl, .inl rfl⟩
  | some opts =>
    have hopts : (if opts.any isAddr then !unknownAfterAddr opts else !s.ld.passive) = true := by
      simpa [requestSafe, hrefuses, hparse] using hsafe
    rcases loop_ends (show env.alloc ≠ .empty by simp [halloc]) env.stopTime s.ld.options .ack []
      opts with ⟨ret, ropts, hres⟩ | ⟨-, hres⟩
    · refine .inr ⟨ret, ropts, hres, ?_⟩
      rcases loop_verdict (.inl rfl) rfl (Prod.ext rfl hres) with
        ⟨-, hno⟩ | ⟨-, hany, -, -, hiff⟩
      · obtain ⟨hno, hsame⟩ := hno hrefuses
        exact .inr ⟨hsame, by simpa [hno] using hopts⟩
      · exact .inl (hiff.mpr (by simpa [hany] using hopts))
    · exact .inl hres

/-- No address was fetched, or the refusal of the fetched one is not lost. -/
def Harmless (conf : IpcpConf) (env : IpcpEnv) (res : IpcpFsm × OptState) : Prop :=
  (Idle conf res.1 ∧ (refuses env.alloc res.1.ld.options = true →
    res.1.ld.passive = false ∨ res.2 = .none)) ∨
  (Sound res.1.ld ∧ (res.2 = .fail ∨ res.1.ld.terminating = true))

lemma Sound.updateDelayAck (h : Sound s.ld)
    (hne : s.ld.options.ipv4 ≠ none) : Sound (updateDelayAck env ropts s).ld := by
  rw [Ipcp.updateDelayAck]
  split
  · exact ⟨fun _ ↦ hne, h.acked, h.unsent⟩
  · exact h

section

variable (h : Idle conf s) (hsafe : requestSafe env s.ld data = true)

include h hsafe

/-- A request that meets a layer at rest and fetches nothing. -/
lemma Idle.recvConfReq_same (hsame : (judge env s data).1 = s.ld.options) :
    Harmless conf env (ipcpRecvConfReq conf env s data) := by
  have hjudged := judged_of_same hsame
  have hidle : Idle conf (judged env s data) := by
    rw [hjudged]
    split
    · exact h.terminate
    · exact h
  have hpassive : (judged env s data).ld.passive = s.ld.passive ∧
      (judged env s data).ld.options = s.ld.options := by
    rw [hjudged]
    split
    · rw [ld_apSessionTerminate]
      exact ⟨rfl, rfl⟩
    · exact ⟨rfl, rfl⟩
  rw [ipcpRecvConfReq_eq]
  split
  · next r ropts hres =>
    -- no address option was acknowledged, since there is no address
    have hdelay (s' : IpcpFsm) : updateDelayAck env ropts s' = s' := by
      rw [updateDelayAck, if_neg]
      intro hany
      obtain ⟨ro, hro, hack⟩ := any_eq_true.mp hany
      have haddr : isAddr ro.1 = true := (Bool.and_eq_true_iff.mp hack).1
      have hne := recvConfReq_addr hres ⟨ro, hro, haddr⟩
      rw [show (Ncp.recvConfReq _ _ _ _).1 = s.ld.options from hsame] at hne
      exact hne h.addr
    rw [hdelay]
    have hidle' : Idle conf
        { judged env s data with ld := { (judged env s data).ld with roptList := ropts } } :=
      { hidle with }
    by_cases hrefuses : refuses env.alloc s.ld.options = true
    · rcases judge_refused hsafe hrefuses with hstop | ⟨ret, ropts', hres', hcase⟩
      · cases hstop.symm.trans hres
      · obtain ⟨rfl, -⟩ := ReqResult.verdict.inj (hres'.symm.trans hres)
        rcases hcase with rfl | ⟨-, hp⟩
        · exact .inr ⟨hidle'.sound, .inl rfl⟩
        · exact .inl ⟨hidle', fun _ ↦ .inl (hpassive.1.trans hp)⟩
    · refine .inl ⟨hidle', fun hbad ↦ absurd ?_ hrefuses⟩
      rwa [← hpassive.2]
  · exact .inl ⟨hidle.sends nofun, fun _ ↦ .inr rfl⟩
  · refine .inl ⟨?_, fun _ ↦ .inr rfl⟩
    split
    · exact hidle.terminate
    · exact hidle.sends nofun
  · next hres =>
    exact .inr ⟨hidle.sound, .inr (judged_terminating (recvConfReq_stopped hres))⟩

/-- **A request that meets a layer at rest.** Either it finds a good address, or it finds none, or
the refusal is its verdict, or the session has been terminated. -/
theorem Idle.recvConfReq :
    Bound (ipcpRecvConfReq conf env s data).1.ld ∨
      Harmless conf env (ipcpRecvConfReq conf env s data) := by
  rcases recvConfReq_state with
    hsame | ⟨-, ip, halloc | halloc, hip⟩
  · exact .inr (h.recvConfReq_same hsafe hsame)
  · exact .inl (h.judged_ok halloc hip).of_judged
  -- the bad address is in the session: the loop has not been cut short, so the verdict is Fail
  obtain ⟨hsound, hne⟩ := h.judged_refused halloc hip
  refine .inr (.inr ?_)
  have hrefused : refuses env.alloc s.ld.options = true :=
    refuses_iff.mpr ⟨h.addr, ip, halloc⟩
  rw [ipcpRecvConfReq_eq]
  rcases judge_refused hsafe hrefused with hres | ⟨ret, ropts, hres, hcase⟩
  · rw [hres]
    exact ⟨hsound, .inr (judged_terminating (recvConfReq_stopped hres))⟩
  have hfail : ret = .fail := by
    refine hcase.resolve_right fun hsame ↦ ?_
    rw [hsame.1, h.addr] at hip
    cases hip
  rw [hres, hfail]
  exact ⟨Sound.updateDelayAck { hsound with held := fun _ ↦ hne } hne, .inl rfl⟩

/-- **The arm `CONFREQ`** on a layer at rest. -/
theorem Idle.confReq :
    Bound (ipcpConfReq conf env s data).ld ∨ Idle conf (ipcpConfReq conf env s data) ∨
      Over (ipcpConfReq conf env s data).ld := by
  rw [ipcpConfReq, h.delayAck]
  have hrecv := h.recvConfReq hsafe
  generalize ipcpRecvConfReq conf env s data = res at hrecv ⊢
  obtain ⟨s', r⟩ := res
  dsimp only [Harmless] at hrecv ⊢
  rcases hrecv with hb | ⟨hi, hopen⟩ | ⟨hsound, hend⟩
  · split
    · exact .inl { hb with }
    · exact .inl (hb.answer false r)
  · split
    · exact .inr (.inl { hi with })
    · exact (hi.answer hopen).imp_right .inl
  refine .inr (.inr ?_)
  split
  · next hterm => exact ⟨{ hsound with }, hterm⟩
  · next hterm =>
    rw [hend.resolve_right hterm]
    exact hsound.answer_fail

end

/-- The arm `CONFREQ` on a layer with an address. -/
lemma Bound.confReq (h : Bound s.ld) : Bound (ipcpConfReq conf env s data).ld := by
  have hrecv : Bound (ipcpRecvConfReq conf env s data).1.ld := h.judged_same.of_judged
  rw [ipcpConfReq]
  dsimp only
  split
  · exact { hrecv with }
  · exact hrecv.answer _ _

end Requests

/-! ### Steps and runs -/

/-- **The condition on a step**, on the state before it: a Configure-Request that is looked at does
not lose a refusal. -/
def safe (conf : IpcpConf) (s : IpcpFsm) (e : IpcpEvent × IpcpEnv) : Bool :=
  match e.1 with
  | .recv bytes => ipcpDiscards conf s || (readPacket bytes).all fun p ↦
      p.code ≠ .confReq || requestSafe e.2 s.ld p.body
  | _ => true

/-- One of the three situations. -/
def Inv (conf : IpcpConf) (s : IpcpFsm) : Prop :=
  Bound s.ld ∨ Idle conf s ∨ Over s.ld

section Steps

variable {conf : IpcpConf} {env : IpcpEnv} {s : IpcpFsm} {e : IpcpEvent × IpcpEnv}

/-- The start of a layer at rest. -/
lemma Idle.start (h : Idle conf s) : Inv conf (ipcpLayerStart conf env s) := by
  have hidle : Idle conf { s with ld := { s.ld with starting := true } } :=
    { h with }
  rw [ipcpLayerStart]
  dsimp only
  split
  · exact .inr (.inl hidle)
  split
  · exact .inr (.inl { h with })
  · have hsound := keeps_open (keeps_sound conf env) hidle.sound
    have hopens := hidle.opens env
    split
    · refine .inr (.inr ⟨hsound.quiet (quiet_apSessionTerminate _), ?_⟩)
      rw [ld_apSessionTerminate]
    next hr =>
    rcases hopens with hb | hi | ⟨hne, -⟩
    · exact .inl hb
    · exact .inr (.inl hi)
    · exact absurd hne hr

variable (h : Inv conf s)

include h

lemma Inv.neverAcked : NeverAcked s.ld.out := by
  rcases h with h | h | h
  · exact h.sound.acked
  · exact h.sound.acked
  · exact h.acked

lemma Inv.terminate : Inv conf (apSessionTerminate s) := by
  rcases h with h | h | h
  · exact .inl (h.quiet (quiet_apSessionTerminate s))
  · exact .inr (.inl h.terminate)
  · exact .inr (.inr (h.quiet (quiet_apSessionTerminate s)))

/-- The `switch` of `ipcp_recv`. -/
lemma Inv.dispatch {p : CpPacket}
    (hreq : p.code = .confReq → Inv conf (ipcpConfReq conf env s p.body))
    (hstep : ∀ ev ∈ heard, Inv conf (fsmStep (ipcpOps conf env) s ev)) :
    Inv conf (ipcpDispatch conf env s p) := by
  rw [ipcpDispatch]
  dsimp only
  split
  · next hc => exact hreq hc
  · split
    · exact h.terminate
    · exact hstep .recvConfAck (by simp)
  iterate 2
    · split
      · exact h.terminate
      · exact hstep .recvConfRej (by simp)
  · exact (hstep .recvTermReq (by simp)).terminate
  · exact h
  · exact hstep .recvCodeRejBad (by simp)
  · exact hstep .recvUnk (by simp)

/-- Something quiet is sent. -/
lemma Inv.emit {o : IpcpOut} (ho : isQuiet o = true) : Inv conf (emit o s) := by
  rcases h with h | h | h
  · exact .inl (h.quiet (quiet_emit ho))
  · exact .inr (.inl (h.sends fun ip hip ↦ by simp [hip, isQuiet] at ho))
  · exact .inr (.inr (h.quiet (quiet_emit ho)))

/-- A packet. A session that is terminating does not look at it. -/
lemma Inv.recv {bytes : List UInt8}
    (hC : safe conf s (.recv bytes, env) = true) : Inv conf (ipcpRecv conf env s bytes) := by
  rw [ipcpRecv]
  split
  · split
    · exact h
    · split
      · exact h.emit rfl
      · exact h
  · next hlook =>
    have hterm : s.ld.terminating = false := by
      simp only [ipcpDiscards, Bool.or_eq_true, not_or] at hlook
      simpa using hlook.1.2
    split
    · exact h
    next p hread =>
    split
    · exact h
    rcases h with h | h | h
    · have hb : Bound { s.ld with buf := p.body } := { h with }
      exact Inv.dispatch (.inl hb) (fun _ ↦ .inl (Bound.confReq hb)) fun ev _ ↦
        .inl (Bound.fsmStep hb ev)
    · have hi : Idle conf { s with recvId := p.id, ld := { s.ld with buf := p.body } } :=
        { h with }
      refine Inv.dispatch (.inr (.inl hi)) (fun hc ↦ hi.confReq ?_) fun ev hev ↦
        .inr (.inl (hi.fsmStep env ev hev))
      have hsafe : requestSafe env s.ld p.body = true := by
        simpa [safe, hlook, hread, hc] using hC
      exact hsafe
    · simp [h.terminating] at hterm

/-- CCP has settled: what was withheld is sent. -/
lemma Inv.ccpStarted : Inv conf (ipcpCcpStarted env s) := by
  rw [ipcpCcpStarted]
  split
  · next hdelay =>
    dsimp only
    generalize hs₁ : (if s.fsmState = .opened then
      ipcpLayerUpNow env { s with ld := { s.ld with delayAck := false } }
      else { s with ld := { s.ld with delayAck := false } }) = s₁
    have hquiet : Quiet { s.ld with delayAck := false } s₁.ld := by
      rw [← hs₁]
      split
      · exact quiet_ipcpLayerUpNow { s with ld := { s.ld with delayAck := false } }
      · exact quiet_of_eq
    rcases h with h | h | h
    · have hb : Bound s₁.ld := Bound.quiet hquiet { h with }
      split
      · exact .inl hb
      · exact .inl ⟨noRefusal_snoc hb.noRefusal nofun, hb.addr⟩
    · simp [h.delayAck] at hdelay
    have hkeep : Over { s.ld with delayAck := false } :=
      ⟨⟨fun hb ↦ h.held (.inl hdelay), h.acked, h.unsent⟩, h.terminating⟩
    have ho : Over s₁.ld := hkeep.quiet hquiet
    split
    · exact .inr (.inr ho)
    next id body hbuf =>
    refine .inr (.inr ⟨⟨?_, ?_, nofun⟩, ho.terminating⟩)
    · exact fun _ ↦ ho.held (.inr (by simp [hbuf]))
    · refine ho.acked.snoc _ fun ip hip id' body' heq ↦ ?_
      obtain ⟨rfl, rfl⟩ := IpcpOut.confAck.inj heq
      exact ho.unsent ip hip id body hbuf
  · exact h

/-- **One step.** -/
theorem Inv.step (hC : safe conf s e = true) : Inv conf (ipcpStep conf s e) := by
  obtain ⟨ev, env⟩ := e
  have hother (hrecv : ∀ bytes, ev ≠ .recv bytes) (hccp : ev ≠ .ccpStarted)
      (hidle : Idle conf s → Inv conf (ipcpStep conf s (ev, env))) :
      Inv conf (ipcpStep conf s (ev, env)) := by
    rcases h with h | h | h
    · exact .inl (keeps_ipcpStep Bound.quiet keeps_bound h hrecv hccp)
    · exact hidle h
    · exact .inr (.inr (keeps_ipcpStep Over.quiet keeps_over h hrecv hccp))
  cases ev with
  | start => exact hother nofun nofun Idle.start
  | recv bytes => exact h.recv hC
  | recvProtoRej =>
    refine hother nofun nofun fun h ↦ ?_
    have hsame : ipcpRecvProtoRej conf env s = s := by
      rcases h.rest with hst | hst <;> simp [ipcpRecvProtoRej, hst]
    show Inv conf (ipcpRecvProtoRej conf env s)
    rw [hsame]
    exact .inr (.inl h)
  | timeout => exact hother nofun nofun fun h ↦ .inr (.inl (h.fsmStep env .timeout (by simp)))
  | startTimeout =>
    refine hother nofun nofun fun h ↦ ?_
    have hidle : Idle conf { s with ld := { s.ld with timeout := false } } := { h with }
    simp only [ipcpStep, ipcpStartTimeout]
    split
    · split
      · exact .inr (.inl hidle.terminate)
      · exact .inr (.inl hidle)
    · exact .inr (.inl h)
  | ccpStarted => exact h.ccpStarted
  | terminate => exact h.terminate

end Steps

lemma inv_init (conf : IpcpConf) (rnd : UInt8) (options : IpcpState) :
    Inv conf (ipcpLayerInit conf rnd options) := by
  have hout : ∀ ip, IpcpOut.refused ip ∉ (ipcpLayerInit conf rnd options).ld.out := by
    simp [ipcpLayerInit, pppFsmInit]
  cases hip : options.ipv4 with
  | some ip => exact .inl ⟨hout, by simp [ipcpLayerInit, pppFsmInit, hip]⟩
  | none =>
    refine .inr (.inl ⟨hout, hip, rfl, rfl, .inl rfl, fun hp ↦ ?_⟩)
    have hmode : conf.confIpv4 = .allow ∨ conf.confIpv4 = .deny := by
      simpa [ipcpLayerInit, pppFsmInit] using hp
    rcases hmode with hm | hm <;> simp [hm]

/-- **Verdicts and refused addresses.** LCP answers every request with the worst of the verdicts on
its options; IPCP does so exactly when no unknown option hides the refusal of its address; and in
every run whose requests do not lose a refusal, a refused address is never acknowledged. -/
theorem refusals_kept (conf : IpcpConf) (rnd : UInt8) (options : IpcpState)
    (es : List (IpcpEvent × IpcpEnv)) :
    (∀ (conf : Lcp.LcpConf) (s : Lcp.LcpFsm) (data : List UInt8) (opts : List RecvOpt),
        parseOpts data = some opts →
        IsWorst Lcp.isKnown opts (Lcp.lcpRecvConfReq conf s data).1.ld.roptList
          (Lcp.lcpRecvConfReq conf s data).2) ∧
      (∀ (alloc : Alloc Ipv4) (stop : Bool) (st : IpcpState) (data : List UInt8)
        (opts : List RecvOpt), parseOpts data = some opts →
        ((∀ ret ropts, (recvConfReq (ipcpTable alloc) stop st data).2 = .verdict ret ropts →
          IsWorst isKnown opts ropts ret) ↔ hidesRefusal alloc stop st opts = false)) ∧
      (Along (ipcpStep conf) (fun s e ↦ safe conf s e = true) (ipcpLayerInit conf rnd options)
          es →
        NeverAcked (run (ipcpStep conf) (ipcpLayerInit conf rnd options) es).ld.out) := by
  refine ⟨fun conf s _ _ h ↦ (Lcp.lcpRecvConfReq_isWorst conf s h).1,
    fun alloc stop st data opts ↦ recvConfReq_isWorst_iff, ?_⟩
  intro hC
  have hinv : Inv conf (run (ipcpStep conf) (ipcpLayerInit conf rnd options) es) :=
    hC.inv (fun _ _ ↦ Inv.step) (inv_init conf rnd options)
  exact hinv.neverAcked

/-! ### Runs on concrete packets -/

/-- No address, no servers. -/
def noOptions : IpcpState := ⟨none, 0, 0, 0, 0⟩

/-- 10.0.0.1, an address that `alloc_ip` refuses. -/
def badAddr : Ipv4 := ⟨0x0a000001, 0x0a000001⟩

/-- LCP without authentication methods. -/
def noMethods : Lcp.LcpConf where
  authHandlers := []

/-- A Configure-Request, while the pools have only the bad address. -/
def request (id len : UInt8) (opts : List UInt8) : IpcpEvent × IpcpEnv :=
  (.recv ([0x80, 0x21, 1, id, 0, len] ++ opts), { alloc := .refused badAddr })

/-- The refusal is the verdict: the session is terminated, and the second request is discarded. -/
theorem refusals_kept_terminates :
    (run (ipcpStep {}) (ipcpLayerInit {} 0 noOptions) [(.start, {}),
        request 1 10 [3, 6, 0, 0, 0, 0], request 2 10 [3, 6, 10, 0, 0, 1]]).ld.terminating = true ∧
      NeverAcked (run (ipcpStep {}) (ipcpLayerInit {} 0 noOptions) [(.start, {}),
        request 1 10 [3, 6, 0, 0, 0, 0], request 2 10 [3, 6, 10, 0, 0, 1]]).ld.out ∧
      hidesRefusal (.refused badAddr) false noOptions [⟨3, 6, [0, 0, 0, 0], by decide⟩] = false ∧
      (∀ ret ropts, (recvConfReq (ipcpTable (.refused badAddr)) false noOptions
          [3, 6, 0, 0, 0, 0]).2 = .verdict ret ropts →
        IsWorst isKnown [⟨3, 6, [0, 0, 0, 0], by decide⟩] ropts ret) ∧
      IsWorst Lcp.isKnown []
        (Lcp.lcpRecvConfReq noMethods (Lcp.lcpStart noMethods 0 1) []).1.ld.roptList
        (Lcp.lcpRecvConfReq noMethods (Lcp.lcpStart noMethods 0 1) []).2 :=
  ⟨by decide, (refusals_kept {} 0 noOptions _).2.2 (by decide), by decide,
    ((refusals_kept {} 0 noOptions []).2.1 (.refused badAddr) false noOptions [3, 6, 0, 0, 0, 0] _
      (by decide)).mpr (by decide),
    (refusals_kept {} 0 noOptions []).1 noMethods (Lcp.lcpStart noMethods 0 1) [] [] rfl⟩

/-- The refusal is hidden behind the unknown option 9: the request is rejected, and the next one,
for the refused address, is acknowledged. -/
def hiddenRefusal : List (IpcpEvent × IpcpEnv) :=
  [(.start, {}), request 1 12 [3, 6, 0, 0, 0, 0, 9, 2], request 2 10 [3, 6, 10, 0, 0, 1]]

/-- The refusal is met when an empty request opens the layer; it is dropped, and the next request,
for the refused address, is acknowledged. -/
def droppedRefusal : List (IpcpEvent × IpcpEnv) :=
  [(.start, {}), request 1 4 [], request 2 10 [3, 6, 10, 0, 0, 1]]

theorem hidden_refusal_acked :
    ¬ NeverAcked (run (ipcpStep {}) (ipcpLayerInit {} 0 noOptions) hiddenRefusal).ld.out ∧
      ¬ NeverAcked (run (ipcpStep {}) (ipcpLayerInit {} 0 noOptions) droppedRefusal).ld.out ∧
      (recvConfReq (ipcpTable (.refused badAddr)) false noOptions
        [3, 6, 0, 0, 0, 0, 9, 2]).2 = .verdict .rej
          [(⟨3, 6, [0, 0, 0, 0], by decide⟩, .fail), (⟨9, 2, [], by decide⟩, .rej)] := by
  have hack {out : List IpcpOut} (post : List IpcpOut) (hout : out = .refused badAddr :: post)
      (hmem : .confAck 2 [3, 6, 10, 0, 0, 1] ∈ post) : ¬ NeverAcked out := fun h ↦
    absurd (h [] badAddr post hout 2 _ hmem) (by decide)
  refine ⟨?_, ?_, by decide⟩
  · exact hack [.confReq 0 0x0a000001, .confRej 1 [9, 2], .confAck 2 [3, 6, 10, 0, 0, 1]]
      (by decide) (by decide)
  · exact hack [.confAck 1 [], .confAck 2 [3, 6, 10, 0, 0, 1]] (by decide) (by decide)

end AccelPpp.Ppp.Ipcp
