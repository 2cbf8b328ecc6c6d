import AccelPpp.Ppp.Verdict

/-!
# Configure-Requests of LCP and their answers

`lcp_recv_conf_req` cuts a request into options, and `send_conf_rej` puts those that were refused
together again, into a buffer of the size of the request. Here is what the two loops do on whatever
bytes arrive. A malformed request ends the session; the peer may then see a Terminate-Request, but
nothing that answers its own.
-/

namespace AccelPpp.Ppp.Lcp

open List

/-- The first loop of `lcp_recv_conf_req`, as it is written: it goes on while bytes are left. -/
def optLoop : List UInt8 → List RecvOpt × Bool
  | [] => ([], true)
  | [_] => ([], false)
  | id :: len :: rest =>
    if h : 2 ≤ len.toNat ∧ len.toNat ≤ rest.length + 2 then
      let (opts, ok) := optLoop (rest.drop (len.toNat - 2))
      (⟨id, len, rest.take (len.toNat - 2), by rw [length_take]; omega⟩ :: opts, ok)
    else ([], false)
termination_by data => data.length
decreasing_by simp only [length_drop, length_cons]; omega

/-- The bound on the turns of the model's loop is not reached. -/
lemma scanOptsAux_eq_optLoop (data : List UInt8) {fuel : ℕ} (hf : data.length ≤ fuel) :
    scanOptsAux fuel data = optLoop data := by
  induction fuel, data using scanOptsAux.induct with
  | case1 => simp [scanOptsAux, optLoop]
  | case2 => simp at hf
  | case3 => simp [scanOptsAux, optLoop]
  | case4 fuel id len rest hok ih =>
    have htail := ih (by simp only [length_drop, length_cons] at hf ⊢; omega)
    rw [scanOptsAux, optLoop, dif_pos hok, dif_pos hok, htail]
  | case5 fuel id len rest hbad => rw [scanOptsAux, optLoop, dif_neg hbad, dif_neg hbad]

/-! ### The log -/

/-- Of the layer only what is appended to the log matters, and it has the property. -/
def Logs (P : LcpOut → Prop) (l l' : PppLcp) : Prop :=
  l'.roptList = l.roptList ∧ ∃ new, l'.out = l.out ++ new ∧ ∀ o ∈ new, P o

section Logs

variable {P Q : LcpOut → Prop} {l l' l'' : PppLcp}

lemma Logs.trans (h : Logs P l l') (h' : Logs P l' l'') : Logs P l l'' := by
  obtain ⟨hropts, new, hout, hnew⟩ := h
  obtain ⟨hropts', new', hout', hnew'⟩ := h'
  refine ⟨hropts'.trans hropts, new ++ new', by rw [hout', hout, append_assoc], ?_⟩
  exact forall_mem_append.mpr ⟨hnew, hnew'⟩

lemma Logs.mono (h : Logs P l l') (hPQ : ∀ o, P o → Q o) : Logs Q l l' := by
  obtain ⟨hropts, new, hout, hnew⟩ := h
  exact ⟨hropts, new, hout, fun o ho ↦ hPQ o (hnew o ho)⟩

/-- One entry, whatever else has changed. -/
lemma Logs.one (o : LcpOut) (hP : P o) (hropts : l'.roptList = l.roptList)
    (hout : l'.out = l.out ++ [o]) : Logs P l l' :=
  ⟨hropts, [o], hout, by simpa using hP⟩

/-- No entry. -/
lemma Logs.same (hropts : l'.roptList = l.roptList) (hout : l'.out = l.out) : Logs P l l' :=
  ⟨hropts, [], by simpa using hout, by simp⟩

end Logs

/-- What a session that ends sends and tells: no answer to anything. -/
inductive Ending : LcpOut → Prop
  | termReq (id : UInt8) : Ending (.termReq id)
  | layerFinished : Ending .layerFinished
  | terminate : Ending .terminate

section Ending

variable (conf : LcpConf) (env : LcpEnv) (s : LcpFsm)

lemma logs_terminateIdle : Logs Ending s.ld (terminateIdle s).ld := by
  rw [terminateIdle]
  split
  · exact .same rfl rfl
  · exact .one .terminate .terminate rfl rfl

lemma logs_lcpLayerFinished : Logs Ending s.ld (lcpLayerFinished s).ld := by
  rw [lcpLayerFinished]
  dsimp only
  split
  · split
    · exact .one .layerFinished .layerFinished rfl rfl
    · exact .trans (.same rfl rfl) (logs_terminateIdle _)
  · exact .trans (.same rfl rfl) (logs_terminateIdle _)

lemma logs_pppFsmClose : Logs Ending s.ld (pppFsmClose (lcpBase conf env) s).ld := by
  have hterm (s : LcpFsm) : Logs Ending s.ld
      (sendTermReq (initReqCounter s.maxTerminate s)).ld := by
    have h : Logs Ending (initReqCounter s.maxTerminate s).ld
        (sendTermReq (initReqCounter s.maxTerminate s)).ld := .one (.termReq _) (.termReq _) rfl rfl
    rwa [initReqCounter_ld] at h
  rw [pppFsmClose]
  split
  · have h := logs_lcpLayerFinished (setState .initial (stopTimer s))
    rwa [setState_ld, stopTimer_ld] at h
  · simpa using Logs.same rfl rfl
  · exact .same rfl rfl
  · exact hterm (setState .closing s)
  iterate 3 exact hterm s
  · exact .same rfl rfl

lemma logs_apSessionTerminate : Logs Ending s.ld (apSessionTerminate conf env s).ld := by
  rw [apSessionTerminate]
  split
  · exact .same rfl rfl
  · split
    · refine Logs.trans ?_ (logs_pppFsmClose conf env (stopEcho (emit .terminate
        { s with ld := { s.ld with terminating := true } })))
      exact .one .terminate .terminate rfl rfl
    · exact logs_terminateIdle s

end Ending

/-! ### Answers -/

/-- The bytes of the options that were refused, in the order in which they were received. -/
def rejectedBytes (ropts : List (RecvOpt × OptState)) : List UInt8 :=
  (ropts.filter fun ro ↦ ro.2 = .rej).flatMap fun ro ↦ ro.1.bytes

/-- A Configure-Reject has just these bytes. -/
def Rejects (ropts : List (RecvOpt × OptState)) : LcpOut → Prop
  | .confRej _ body => body = rejectedBytes ropts
  | _ => True

lemma Ending.rejects {o : LcpOut} (h : Ending o) {ropts : List (RecvOpt × OptState)} :
    Rejects ropts o := by
  cases h <;> trivial

lemma keeps_logs {conf : LcpConf} {env : LcpEnv} {l₀ : PppLcp} :
    (lcpOps conf env).Keeps (Logs (Rejects l₀.roptList) l₀) where
  layerUp s h := by
    refine h.trans ?_
    show Logs _ s.ld (lcpLayerUp conf env s).ld
    rw [lcpLayerUp]
    split
    · exact .same rfl rfl
    · rw [authLayerStart]
      split
      · exact (logs_apSessionTerminate conf env
          { s with ld := { s.ld with started := true } }).mono fun _ ho ↦ ho.rejects
      · split
        · exact .one (.authStart _) trivial rfl rfl
        · exact .same rfl rfl
  layerDown _ h := h
  layerStarted _ h := h
  layerFinished s h := h.trans ((logs_lcpLayerFinished s).mono fun _ ho ↦ ho.rejects)
  sendConfReq _ h := h.trans (.one (.confReq _ _) trivial rfl rfl)
  sendConfNak _ h := h.trans (.one (.confNak _ _) trivial rfl rfl)
  sendConfRej s h := h.trans (.one (.confRej _ _) (congrArg rejectedBytes h.1) rfl rfl)
  sendCodeRej _ h := h.trans (.one (.codeRej _ _) trivial rfl rfl)
  sendTermReq _ h := h.trans (.one (.termReq _) trivial rfl rfl)
  sendTermAck _ h := h.trans (.one (.termAck _) trivial rfl rfl)

lemma logs_sendConfAck {s : LcpFsm} {ropts : List (RecvOpt × OptState)} :
    Logs (Rejects ropts) s.ld (sendConfAck s).ld :=
  .one (.confAck _ _) trivial rfl rfl

/-- What is sent after a request has been judged: nothing but its rejected options, and only the end
of the session if the verdict is Fail. -/
def Answers (judged : LcpFsm × OptState) (s : LcpFsm) : Prop :=
  ∃ new, s.ld.out = judged.1.ld.out ++ new ∧ (∀ o ∈ new, Rejects judged.1.ld.roptList o) ∧
    (judged.2 = .fail → ∀ o ∈ new, Ending o)

lemma logs_lcpConfReq (conf : LcpConf) (env : LcpEnv) (s : LcpFsm) (data : List UInt8) :
    Answers (lcpRecvConfReq conf s data) (lcpConfReq conf env s data) := by
  rw [lcpConfReq]
  generalize lcpRecvConfReq conf s data = sr
  obtain ⟨s₁, r⟩ := sr
  have hstep (e : FsmEvent) : Logs (Rejects s₁.ld.roptList) s₁.ld
      (fsmStep (lcpOps conf env) s₁ e).ld :=
    keeps_logs.fsmStep (fun _ s h ↦ h.trans logs_sendConfAck) (.same rfl rfl)
  have hanswer {s₂ : LcpFsm} (h : Logs (Rejects s₁.ld.roptList) s₁.ld s₂.ld) (hr : r ≠ .fail) :
      Answers (s₁, r) (lcpFreeConfReq s₂) := by
    obtain ⟨-, new, hout, hnew⟩ := h
    exact ⟨new, hout, hnew, fun hfail ↦ (hr hfail).elim⟩
  obtain ⟨-, new, hout, hend⟩ := logs_apSessionTerminate conf env (lcpFreeConfReq s₁)
  have hfail : Answers (s₁, r) (apSessionTerminate conf env (lcpFreeConfReq s₁)) :=
    ⟨new, hout, fun o ho ↦ (hend o ho).rejects, fun _ ↦ hend⟩
  dsimp only
  split
  · split
    · next hr => exact hanswer logs_sendConfAck (by simp [hr])
    · exact hfail
  · split
    · exact hanswer (hstep .recvConfReqAck) nofun
    · exact hanswer (hstep .recvConfReqNak) nofun
    · exact hanswer (hstep .recvConfReqRej) nofun
    · exact hfail
    · next hr => exact hanswer (.same rfl rfl) hr

/-! ### The evaluation -/

lemma out_foldl_lcpReqStep {conf : LcpConf} {opts : List RecvOpt} {acc : ReqAcc} :
    (opts.foldl (lcpReqStep conf) acc).lcp.out = acc.lcp.out := by
  induction opts generalizing acc with
  | nil => rfl
  | cons o opts ih =>
    rw [foldl_cons, ih, lcpReqStep]
    split
    · next k _ => cases k <;> rfl
    · rfl

/-- `lcp_recv_conf_req` on a request with these options, and on a malformed one. -/
lemma lcpRecvConfReq_cases (conf : LcpConf) (s : LcpFsm) (data : List UInt8) :
    let r := lcpRecvConfReq conf s data
    r.1.ld.out = s.ld.out ∧
      ((∃ opts, data = opts.flatMap RecvOpt.bytes ∧ r.1.ld.roptList.map Prod.fst = opts ∧
        r.2 ≠ .fail) ∨
        (¬ ∃ opts : List RecvOpt, data = opts.flatMap RecvOpt.bytes) ∧ r.2 = .fail) := by
  cases hopts : parseOpts data with
  | none =>
    unfold lcpRecvConfReq
    rw [hopts]
    refine ⟨rfl, .inr ⟨fun ⟨opts, hf⟩ ↦ ?_, rfl⟩⟩
    nomatch hopts.symm.trans (parseOpts_eq_some_iff.mpr hf)
  | some opts =>
    obtain ⟨⟨hdone, -⟩, hord⟩ := lcpRecvConfReq_isWorst conf s hopts
    refine ⟨?_, .inl ⟨opts, parseOpts_eq_some_iff.mp hopts, hdone, ?_⟩⟩
    · unfold lcpRecvConfReq
      rw [hopts]
      exact out_foldl_lcpReqStep
    · rcases hord with h | h | h <;> rw [h] <;> nofun

lemma length_rejectedBytes_le (ropts : List (RecvOpt × OptState)) :
    (rejectedBytes ropts).length ≤ ((ropts.map Prod.fst).flatMap RecvOpt.bytes).length := by
  rw [rejectedBytes]
  induction ropts with
  | nil => exact Nat.le_refl _
  | cons ro ropts ih =>
    rw [filter_cons, map_cons, flatMap_cons, length_append]
    split
    · rw [flatMap_cons, length_append]
      omega
    · omega

/-- **Configure-Requests of LCP**, on any bytes: the loop over the options ends; they are evaluated
if and only if they are options one after the other; a Configure-Reject has the bytes of the options
refused, in their order, and fits the buffer; and a malformed request is not answered. -/
theorem confReq_answered (conf : LcpConf) (env : LcpEnv) (s : LcpFsm) (data : List UInt8) :
    let r := lcpRecvConfReq conf s data
    (∀ fuel ≥ data.length, scanOptsAux fuel data = optLoop data) ∧
    (r.2 ≠ .fail ↔ ∃ opts : List RecvOpt, data = opts.flatMap RecvOpt.bytes) ∧
    ∃ new, (lcpConfReq conf env s data).ld.out = s.ld.out ++ new ∧
      (∀ id body, .confRej id body ∈ new → body = rejectedBytes r.1.ld.roptList ∧
        data = (r.1.ld.roptList.map Prod.fst).flatMap RecvOpt.bytes ∧
        6 + body.length ≤ data.length + 6) ∧
      (r.2 = .fail → ∀ o ∈ new, Ending o) := by
  obtain ⟨hsame, hcases⟩ := lcpRecvConfReq_cases conf s data
  obtain ⟨new, hout, hrej, hend⟩ := logs_lcpConfReq conf env s data
  refine ⟨fun fuel ↦ scanOptsAux_eq_optLoop data, ?_, new, hsame ▸ hout, fun id body ho ↦ ?_, hend⟩
  · rcases hcases with ⟨opts, hopts, -, hok⟩ | ⟨hbad, hfail⟩
    · exact iff_of_true hok ⟨opts, hopts⟩
    · exact iff_of_false (not_not.mpr hfail) hbad
  · obtain rfl : body = _ := hrej _ ho
    rcases hcases with ⟨opts, hopts, rfl, -⟩ | ⟨-, hfail⟩
    · have hlen := length_rejectedBytes_le (lcpRecvConfReq conf s data).1.ld.roptList
      rw [← hopts] at hlen
      exact ⟨rfl, hopts, by omega⟩
    · nomatch hend hfail _ ho

end AccelPpp.Ppp.Lcp
