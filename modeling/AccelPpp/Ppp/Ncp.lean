import AccelPpp.Ppp.Options

/-!
# Configure-Requests of the network protocols

`ppp_ipcp.c` and `ppp_ipv6cp.c` are the same program over different option handlers (`OptTable`).
This module is that program from a received Configure-Request to the Configure-Nak it may be
answered with.

* `recvConfReq` is `ipcp_recv_conf_req`: it cuts the request into options, lets the local option
  with the same identifier judge each, and returns the worst verdict. A handler may also ask for a
  Terminate-Ack or for the protocol to be closed, and then the loop stops.
* `sendConfNak` is `send_conf_nak`: it allocates `conf_req_len` bytes, which is the size of a
  header and of **one of each local option**, and then writes one option for **each received
  option** that was naked.

When the verdict on an option does not depend on the options before it (`Judges`), the verdict on
the request is a statement about its options alone: `recvConfReqLoop_nak_iff`.
-/

namespace AccelPpp.Ppp.Ncp

open List

/-- The local options of a network protocol, over a state `σ` that the handlers may change. -/
structure OptTable (σ : Type) where
  /-- `recv_conf_req` of the local option with the identifier of the received one; `none` if
  there is no such local option. -/
  recvConfReq : σ → RecvOpt → Option (σ × OptState)
  /-- The bytes `send_conf_nak` of the local option with this identifier writes. -/
  sendConfNak : σ → UInt8 → List UInt8
  /-- The lengths of the registered options. -/
  lens : List Nat
  /-- The protocol number. -/
  proto : Nat

/-- `sizeof(struct ipcp_hdr_t)`: protocol, code, identifier and length. -/
def hdrLen : Nat := 6

/-- `conf_req_len`, as `ipcp_options_init` computes it. -/
def OptTable.confReqLen {σ : Type} (t : OptTable σ) : Nat :=
  t.lens.foldl (· + ·) hdrLen

/-- How `ipcp_recv_conf_req` returns. -/
inductive ReqResult
  /-- A verdict, and the received options with theirs. -/
  | verdict (ret : OptState) (ropts : List (RecvOpt × OptState))
  /-- A handler asked for a Terminate-Ack, which has been sent. -/
  | termAck
  /-- A handler asked to close the protocol: the session is terminated or the protocol
  rejected. -/
  | close
  /-- The session is being stopped. -/
  | stopped
  deriving DecidableEq

section Request

variable {σ : Type} (t : OptTable σ) (stopTime : Bool)

/-- The loop over the received options. An option nobody knows sets the result to Reject, also
where it was worse. -/
def recvConfReqLoop (st : σ) (ret : OptState) (done : List (RecvOpt × OptState)) :
    List RecvOpt → σ × ReqResult
  | [] => (st, .verdict ret done)
  | o :: opts =>
    match t.recvConfReq st o with
    | none => recvConfReqLoop st .rej (done ++ [(o, .rej)]) opts
    | some (st, .termAck) => (st, .termAck)
    | some (st, .close) => (st, .close)
    | some (st, r) =>
      if stopTime then (st, .stopped)
      else recvConfReqLoop st (r.worst ret) (done ++ [(o, r)]) opts

/-- `ipcp_recv_conf_req`, `ipv6cp_recv_conf_req`. -/
def recvConfReq (st : σ) (data : List UInt8) : σ × ReqResult :=
  match parseOpts data with
  | none => (st, .verdict .fail [])
  | some opts => recvConfReqLoop t stopTime st .ack [] opts

/-- The options of a Configure-Nak: one for each received option that was naked. -/
def nakOptions (st : σ) (ropts : List (RecvOpt × OptState)) : List UInt8 :=
  (ropts.filter fun ro ↦ ro.2 = .nak).flatMap fun ro ↦ t.sendConfNak st ro.1.id

/-- `send_conf_nak`: the bytes written into the buffer. -/
def sendConfNak (recvId : UInt8) (st : σ) (ropts : List (RecvOpt × OptState)) : List UInt8 :=
  let body := nakOptions t st ropts
  let len := hdrLen + body.length - 2
  [.ofNat (t.proto / 256), .ofNat t.proto, 3, recvId, .ofNat (len / 256), .ofNat len] ++ body

/-- What `ipcp_recv` has `send_conf_nak` write in answer to the request `data`, if it is
answered with a Configure-Nak. -/
def nakReply (recvId : UInt8) (st : σ) (data : List UInt8) : Option (List UInt8) :=
  match recvConfReq t stopTime st data with
  | (st, .verdict .nak ropts) => some (sendConfNak t recvId st ropts)
  | _ => none

end Request

/-! ### The size of the reply -/

section Size

variable {σ : Type} {t : OptTable σ}

lemma length_sendConfNak {n : Nat} (hn : ∀ st id, (t.sendConfNak st id).length = n)
    (recvId : UInt8) (st : σ) (ropts : List (RecvOpt × OptState)) :
    (sendConfNak t recvId st ropts).length = hdrLen + n * ropts.countP fun ro ↦ ro.2 = .nak := by
  rw [sendConfNak, length_append, nakOptions, countP_eq_length_filter]
  simp [hn, Nat.mul_comm]
  rfl

end Size

/-! ### The verdict on a request -/

/-- Acknowledged or naked. -/
def Mild (r : OptState) : Prop :=
  r = .ack ∨ r = .nak

variable {r ret : OptState}

lemma Mild.worst_eq_nak (hr : Mild r) (hret : Mild ret) :
    r.worst ret = .nak ↔ ret = .nak ∨ r = .nak := by
  rcases hr with rfl | rfl <;> rcases hret with rfl | rfl <;> decide

lemma Mild.worst (hr : Mild r) (hret : Mild ret) : Mild (r.worst ret) := by
  rcases hr with rfl | rfl <;> rcases hret with rfl | rfl <;> simp [Mild, OptState.worst,
    OptState.val]

/-- Worse than naked. -/
def Harsh (r : OptState) : Prop :=
  r.val < OptState.nak.val

instance : DecidablePred Harsh := fun r ↦
  inferInstanceAs (Decidable (r.val < OptState.nak.val))

lemma harsh_of_not_mild (h : ¬ Mild r) (hnone : r ≠ .none) : Harsh r := by
  cases r <;> simp_all [Mild, Harsh, OptState.val]

lemma Harsh.worst_right (h : Harsh ret) : Harsh (r.worst ret) := by
  unfold Harsh OptState.worst at *
  split <;> omega

lemma Harsh.worst_left (h : Harsh r) : Harsh (r.worst ret) := by
  unfold Harsh OptState.worst at *
  split <;> omega

section Verdict

variable {σ : Type} {t : OptTable σ}

variable {opts : List RecvOpt} {st : σ} {stopTime : Bool} {recvId : UInt8} {data : List UInt8}

/-- Once a verdict is worse than Nak, the request is not answered with a Nak. -/
lemma recvConfReqLoop_of_harsh (stopTime : Bool) {ret : OptState} (hret : Harsh ret)
    (done ropts : List (RecvOpt × OptState)) :
    (recvConfReqLoop t stopTime st ret done opts).2 ≠ .verdict .nak ropts := by
  induction opts generalizing st ret done with
  | nil =>
    rintro ⟨⟩
    exact absurd hret (by decide)
  | cons o opts ih =>
    rw [recvConfReqLoop]
    split
    · exact ih (by decide) _
    · simp
    · simp
    · split
      · simp
      · exact ih hret.worst_right _

/-- **The verdict on an option is a matter of the option alone** as long as the options before
it were acknowledged or naked, starting from a state with `I`. -/
structure Judges (t : OptTable σ) (I : σ → Prop) (judge : RecvOpt → OptState) : Prop where
  unknown : ∀ {st o}, I st → t.recvConfReq st o = none → judge o = .rej
  known : ∀ {st o st' r}, I st → t.recvConfReq st o = some (st', r) →
    judge o = r ∧ r ≠ .none ∧ (Mild r → I st')

variable {I : σ → Prop} {judge : RecvOpt → OptState}

/-- One turn of the loop, for an option whose verdict is known. -/
lemma Judges.loop_cons (hj : Judges t I judge) (hI : I st) (o : RecvOpt) (opts : List RecvOpt)
    (ret : OptState) (done ropts : List (RecvOpt × OptState)) :
    (Mild (judge o) → ∃ st', I st' ∧ recvConfReqLoop t false st ret done (o :: opts) =
        recvConfReqLoop t false st' ((judge o).worst ret) (done ++ [(o, judge o)]) opts) ∧
      (¬ Mild (judge o) →
        (recvConfReqLoop t false st ret done (o :: opts)).2 ≠ .verdict .nak ropts) := by
  rw [recvConfReqLoop]
  cases hrecv : t.recvConfReq st o with
  | none =>
    have hrej := hj.unknown hI hrecv
    refine ⟨fun hm ↦ ?_, fun _ ↦ recvConfReqLoop_of_harsh _ (by decide) _ _⟩
    simp [hrej, Mild] at hm
  | some res =>
    obtain ⟨st', r⟩ := res
    obtain ⟨rfl, hnone, hI'⟩ := hj.known hI hrecv
    refine ⟨fun hm ↦ ⟨st', hI' hm, ?_⟩, fun hm ↦ ?_⟩
    · rcases hm with h | h <;> simp [h]
    have hharsh := harsh_of_not_mild hm hnone
    split
    · simp_all
    · simp
    · simp
    · next heq =>
      obtain ⟨rfl, rfl⟩ := Prod.mk.inj (Option.some.inj heq)
      simpa using recvConfReqLoop_of_harsh false hharsh.worst_left _ _

/-- **When a request is answered with a Nak**, and which options the Nak is about: every option
is acknowledged or naked, and some option is naked. -/
theorem Judges.loop_nak_iff (hj : Judges t I judge) (hI : I st) {ret : OptState} (hret : Mild ret)
    {done ropts : List (RecvOpt × OptState)} :
    (recvConfReqLoop t false st ret done opts).2 = .verdict .nak ropts ↔
      (∀ o ∈ opts, Mild (judge o)) ∧ (ret = .nak ∨ ∃ o ∈ opts, judge o = .nak) ∧
        ropts = done ++ opts.map fun o ↦ (o, judge o) := by
  induction opts generalizing st ret done with
  | nil => simp [recvConfReqLoop, eq_comm]
  | cons o opts ih =>
    obtain ⟨hmild, hbad⟩ := hj.loop_cons hI o opts ret done ropts
    by_cases hm : Mild (judge o)
    · obtain ⟨st', hI', hloop⟩ := hmild hm
      rw [hloop, ih hI' (hm.worst hret), hm.worst_eq_nak hret]
      simp [hm, or_assoc]
    · refine iff_of_false (hbad hm) ?_
      rintro ⟨hall, -⟩
      exact hm (hall o (by simp))

/-- The number of options written into a Configure-Nak is the number of naked options of the
request. -/
lemma countP_map_judge (opts : List RecvOpt) :
    (opts.map fun o ↦ (o, judge o)).countP (fun ro ↦ ro.2 = .nak) =
      opts.countP fun o ↦ judge o = .nak := by
  rw [countP_map]
  rfl

lemma hdrLen_le_confReqLen {t : OptTable σ} : hdrLen ≤ t.confReqLen := by
  exact foldlRecOn t.lens (· + ·) (Nat.le_refl hdrLen) fun n h l _ ↦ Nat.le_add_right_of_le h

lemma nakReply_eq_some_iff {reply : List UInt8} :
    nakReply t stopTime recvId st data = some reply ↔
      ∃ opts ropts, parseOpts data = some opts ∧
        (recvConfReqLoop t stopTime st .ack [] opts).2 = .verdict .nak ropts ∧
        reply =
          sendConfNak t recvId (recvConfReqLoop t stopTime st .ack [] opts).1 ropts := by
  rw [nakReply, recvConfReq]
  cases parseOpts data with
  | none => simp
  | some opts =>
    dsimp only
    constructor
    · intro h
      split at h
      · next st' ropts heq => exact ⟨opts, ropts, rfl, by rw [heq], by rw [heq]; simpa using h.symm⟩
      · cases h
    · rintro ⟨opts', ropts, heq, hloop, rfl⟩
      obtain rfl := Option.some.inj heq
      rw [← Prod.eta (recvConfReqLoop t stopTime st .ack [] opts), hloop]

/-- A request without options is never naked. -/
lemma nakReply_of_nil (hparse : parseOpts data = some []) :
    nakReply t stopTime recvId st data = none := by
  simp [nakReply, recvConfReq, hparse, recvConfReqLoop]

/-- A request whose first option is refused outright is not answered with a Nak. -/
lemma nakReply_of_head {o : RecvOpt} (hparse : parseOpts data = some (o :: opts))
    (hhead : ∀ st' r, t.recvConfReq st o = some (st', r) → stopTime = true ∨ Harsh r) :
    nakReply t stopTime recvId st data = none := by
  rw [Option.eq_none_iff_forall_ne_some]
  intro reply hreply
  obtain ⟨opts', ropts, hparse', hloop, -⟩ := nakReply_eq_some_iff.mp hreply
  obtain rfl : o :: opts = opts' := Option.mem_unique hparse hparse'
  rw [recvConfReqLoop] at hloop
  split at hloop
  · exact recvConfReqLoop_of_harsh stopTime (by decide) _ _ hloop
  · simp at hloop
  · simp at hloop
  next st' r _ _ hrecv =>
  split at hloop
  · simp at hloop
  · next hstop =>
    have hharsh : Harsh r := (hhead st' r hrecv).resolve_left hstop
    exact recvConfReqLoop_of_harsh stopTime hharsh.worst_left _ _ hloop

/-- Two states on which the first option has the same effect. -/
lemma nakReply_congr_head {st₁ st₂ : σ} {o : RecvOpt} {res : σ × OptState}
    (hparse : parseOpts data = some (o :: opts)) (h₁ : t.recvConfReq st₁ o = some res)
    (h₂ : t.recvConfReq st₂ o = some res) (stopTime : Bool) :
    nakReply t stopTime recvId st₁ data = nakReply t stopTime recvId st₂ data := by
  have hloop : recvConfReqLoop t stopTime st₁ .ack [] (o :: opts) =
      recvConfReqLoop t stopTime st₂ .ack [] (o :: opts) := by
    rw [recvConfReqLoop, recvConfReqLoop, h₁, h₂]
    obtain ⟨st, r⟩ := res
    cases r <;> rfl
  simp only [nakReply, recvConfReq, hparse, hloop]

/-- A session that is being stopped answers nothing. -/
lemma nakReply_stopped (recvId : UInt8) (st : σ) (data : List UInt8) :
    nakReply t true recvId st data = none := by
  cases hparse : parseOpts data with
  | none => simp [nakReply, recvConfReq, hparse]
  | some opts =>
    cases opts with
    | nil => exact nakReply_of_nil hparse
    | cons o opts => exact nakReply_of_head hparse fun _ _ _ ↦ .inl rfl

/-- **The Configure-Nak fits its buffer exactly when** no more options are to be naked than the
buffer has room for, or an option is worse than naked, so that there is no Configure-Nak. -/
theorem Judges.nakReply_fits_iff (hj : Judges t I judge) {n : Nat}
    (hn : ∀ st id, (t.sendConfNak st id).length = n) (hI : I st) (recvId : UInt8)
    (data : List UInt8) :
    (∀ reply, nakReply t false recvId st data = some reply → reply.length ≤ t.confReqLen) ↔
      ∀ opts, parseOpts data = some opts → (∀ o ∈ opts, Mild (judge o)) →
        hdrLen + n * (opts.countP fun o ↦ judge o = .nak) ≤ t.confReqLen := by
  have hack : Mild .ack := .inl rfl
  constructor
  · intro hfits opts hopts hmild
    by_cases hnak : ∃ o ∈ opts, judge o = .nak
    · have hloop : (recvConfReqLoop t false st .ack [] opts).2 =
          .verdict .nak ([] ++ opts.map fun o ↦ (o, judge o)) :=
        (hj.loop_nak_iff hI hack).mpr ⟨hmild, .inr hnak, rfl⟩
      have hlen := hfits _ (nakReply_eq_some_iff.mpr ⟨opts, _, hopts, hloop, rfl⟩)
      rwa [length_sendConfNak hn, nil_append, countP_map_judge] at hlen
    · have hzero : (opts.countP fun o ↦ judge o = .nak) = 0 := by
        rw [countP_eq_zero]
        intro o ho hnak'
        exact hnak ⟨o, ho, of_decide_eq_true hnak'⟩
      rw [hzero]
      exact hdrLen_le_confReqLen
  · rintro hcond reply hreply
    obtain ⟨opts, ropts, hopts, hloop, rfl⟩ := nakReply_eq_some_iff.mp hreply
    obtain ⟨hmild, -, rfl⟩ := (hj.loop_nak_iff hI hack).mp hloop
    rw [length_sendConfNak hn, nil_append, countP_map_judge]
    exact hcond opts hopts hmild

end Verdict

end AccelPpp.Ppp.Ncp
