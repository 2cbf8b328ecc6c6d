import AccelPpp.Ppp.IpOptions
import AccelPpp.Ppp.Lcp

/-!
# The verdict on a Configure-Request

Is the verdict on a request the worst of the verdicts on its options? `lcp_recv_conf_req` and
`ipcp_recv_conf_req` take the minimum over the options they know, but *assign* Reject when they meet
one they do not know.

* In LCP no verdict is worse than Reject, and the answer is yes (`lcpRecvConfReq_isWorst`).
* In IPCP the refusal of an address is worse, and an unknown option behind the address option hides
  it (`recvConfReq_isWorst_iff`). The lemmas on the loop say also what judging a request does to the
  session.
-/

namespace AccelPpp.Ppp

/-! ### Verdicts that are answered with a packet -/

/-- Acknowledged, naked or rejected. -/
def Ordinary (r : OptState) : Prop :=
  r = .ack ∨ r = .nak ∨ r = .rej

lemma Ordinary.worst {r ret : OptState} (hr : Ordinary r) (hret : Ordinary ret) :
    Ordinary (r.worst ret) := by
  rw [OptState.worst]
  split
  · exact hr
  · exact hret

/-- Among ordinary verdicts, Reject is the worst. -/
lemma Ordinary.rej_worst {ret : OptState} (h : Ordinary ret) : OptState.rej.worst ret = .rej := by
  rcases h with rfl | rfl | rfl <;> rfl

lemma Ordinary.worst_fail {r : OptState} (h : Ordinary r) : r.worst .fail = .fail := by
  rcases h with rfl | rfl | rfl <;> rfl

/-- **The verdict on a request is the worst of the verdicts on its options**, an option with an
unknown identifier being rejected. -/
def IsWorst (known : UInt8 → Bool) (opts : List RecvOpt) (ropts : List (RecvOpt × OptState))
    (ret : OptState) : Prop :=
  ropts.map Prod.fst = opts ∧ (∀ ro ∈ ropts, known ro.1.id = false → ro.2 = .rej) ∧
    ret = worstOf ropts

/-! ### LCP -/

namespace Lcp

/-- The identifier of a local option. -/
def isKnown (id : UInt8) : Bool :=
  (LcpOpt.ofId id).isSome

lemma ordinary_lcpOptRecvConfReq (conf : LcpConf) (l : PppLcp) (o : RecvOpt) (k : LcpOpt) :
    Ordinary (lcpOptRecvConfReq conf l o k).2 := by
  cases k
  case auth => exact .inr (.inr rfl)
  all_goals
    simp only [lcpOptRecvConfReq, mruRecvConfReq, magicRecvConfReq, compRecvConfReq]
    repeat' split
    all_goals simp [Ordinary]

/-- What the loop over the received options has found after `opts`. -/
def Judged (acc : ReqAcc) (opts : List RecvOpt) : Prop :=
  IsWorst isKnown opts acc.done acc.ret ∧ Ordinary acc.ret

variable {opts : List RecvOpt}

lemma Judged.step {conf : LcpConf} {acc : ReqAcc} (h : Judged acc opts) (o : RecvOpt) :
    Judged (lcpReqStep conf acc o) (opts ++ [o]) := by
  obtain ⟨⟨hopts, hrej, hret⟩, hord⟩ := h
  rw [lcpReqStep]
  split
  · next k hk =>
    have hr := ordinary_lcpOptRecvConfReq conf acc.lcp o k
    exact ⟨⟨by simp [hopts], List.forall_mem_append.mpr ⟨hrej, by simp [isKnown, hk]⟩,
      by simp [hret]⟩, hr.worst hord⟩
  · refine ⟨⟨by simp [hopts], List.forall_mem_append.mpr ⟨hrej, by simp⟩, ?_⟩, .inr (.inr rfl)⟩
    rw [worstOf_snoc, ← hret, hord.rej_worst]

lemma Judged.foldl {conf : LcpConf} {rest : List RecvOpt} {acc : ReqAcc} (h : Judged acc opts) :
    Judged (rest.foldl (lcpReqStep conf) acc) (opts ++ rest) := by
  induction rest generalizing acc opts with
  | nil => simpa using h
  | cons o rest ih => simpa using ih (h.step o)

/-- **LCP always answers with the worst verdict**, and a request that can be read has one. -/
theorem lcpRecvConfReq_isWorst (conf : LcpConf) (s : LcpFsm) {data : List UInt8}
    (hparse : parseOpts data = some opts) :
    IsWorst isKnown opts (lcpRecvConfReq conf s data).1.ld.roptList
      (lcpRecvConfReq conf s data).2 ∧ Ordinary (lcpRecvConfReq conf s data).2 := by
  have hstart : Judged ⟨resetOptStates s.ld, .ack, []⟩ [] :=
    ⟨⟨rfl, by simp, rfl⟩, .inl rfl⟩
  simp only [lcpRecvConfReq, hparse]
  exact hstart.foldl

end Lcp

/-! ### IPCP: one request -/

namespace Ipcp

open List Ncp

/-- The identifier of a local option. -/
def isKnown (id : UInt8) : Bool :=
  (IpcpOpt.ofId id).isSome

/-- The option that asks for the peer's address. -/
def isAddr (o : RecvOpt) : Bool :=
  IpcpOpt.ofId o.id = some .addr

/-- An option nobody knows comes after the first address option. -/
def unknownAfterAddr (opts : List RecvOpt) : Bool :=
  (opts.dropWhile fun o ↦ !isAddr o).any fun o ↦ !isKnown o.id

section Verdict

variable {alloc : Alloc Ipv4} {stop : Bool} {st st' : IpcpState} {ret ret' : OptState}
  {done ropts : List (RecvOpt × OptState)} {opts : List RecvOpt} {o : RecvOpt}

lemma isKnown_of_isAddr (h : isAddr o = true) : isKnown o.id = true := by
  have hid : IpcpOpt.ofId o.id = some .addr := by simpa [isAddr] using h
  simp [isKnown, hid]

/-- The shortest way to look at one turn of the loop: the option is unknown, or the loop ends
without a verdict, or it goes on with the verdict of the handler. -/
lemma loop_cons (h : recvConfReqLoop (ipcpTable alloc) stop st ret done (o :: opts) =
      (st', .verdict ret' ropts)) :
    (IpcpOpt.ofId o.id = none ∧ recvConfReqLoop (ipcpTable alloc) stop st .rej
        (done ++ [(o, .rej)]) opts = (st', .verdict ret' ropts)) ∨
      ∃ k st₁ r, stop = false ∧ IpcpOpt.ofId o.id = some k ∧
        ipcpOptRecvConfReq alloc st o k = (st₁, r) ∧ r ≠ .close ∧
        recvConfReqLoop (ipcpTable alloc) stop st₁ (r.worst ret) (done ++ [(o, r)]) opts =
          (st', .verdict ret' ropts) := by
  rw [recvConfReqLoop] at h
  cases hid : IpcpOpt.ofId o.id with
  | none => exact .inl ⟨rfl, by simpa [ipcpTable, hid] using h⟩
  | some k =>
    have hrecv : (ipcpTable alloc).recvConfReq st o = some (ipcpOptRecvConfReq alloc st o k) := by
      simp [ipcpTable, hid]
    rw [hrecv] at h
    refine .inr ⟨k, (ipcpOptRecvConfReq alloc st o k).1, (ipcpOptRecvConfReq alloc st o k).2, ?_⟩
    split at h
    · next heq => cases heq
    · simp at h
    · simp at h
    next st₁ r hclose hterm heq =>
    have hres : ipcpOptRecvConfReq alloc st o k = (st₁, r) := Option.some.inj heq
    cases stop with
    | true => simp at h
    | false =>
      refine ⟨rfl, rfl, rfl, ?_, by simpa [hres] using h⟩
      intro hr
      rw [hres] at hr
      exact hterm hr

/-- What a handler does: it changes nothing and gives an ordinary verdict, or it fetches an
address. -/
lemma ipcpOptRecvConfReq_cases {k : IpcpOpt} {r : OptState}
    (h : ipcpOptRecvConfReq alloc st o k = (st', r)) :
    ((k = .addr → st.ipv4 ≠ none) ∧ st' = st ∧ Ordinary r) ∨
      k = .addr ∧ st.ipv4 = none ∧ (alloc = .empty ∧ st' = st ∧ r = .close ∨
        ∃ ip, st'.ipv4 = some ip ∧ (alloc = .refused ip ∧ r = .fail ∨
          alloc = .ok ip ∧ Ordinary r)) := by
  have hjudge (ip : Ipv4) : Ordinary (ipaddrJudge ip o) := by
    rw [ipaddrJudge]
    repeat' split
    all_goals simp [Ordinary]
  cases k
  case addr =>
    rw [ipcpOptRecvConfReq, ipaddrRecvConfReq.eq_def] at h
    split at h
    · next ip hip =>
      cases h
      exact .inl ⟨fun _ ↦ by simp [hip], rfl, hjudge ip⟩
    next hip =>
    refine .inr ⟨rfl, hip, ?_⟩
    split at h
    · cases h
      exact .inl ⟨rfl, rfl, rfl⟩
    · next ip =>
      cases h
      exact .inr ⟨ip, rfl, .inl ⟨rfl, rfl⟩⟩
    · next ip =>
      cases h
      exact .inr ⟨ip, rfl, .inr ⟨rfl, hjudge ip⟩⟩
  all_goals
    simp only [ipcpOptRecvConfReq, serverRecvConfReq] at h
    obtain ⟨rfl, rfl⟩ := Prod.mk.inj h
    refine .inl ⟨by simp, rfl, ?_⟩
    repeat' split
    all_goals simp [Ordinary]

section

variable (h : recvConfReqLoop (ipcpTable alloc) stop st ret done opts = (st', .verdict ret' ropts))

include h

/-- The loop records every option once, and an unknown one as rejected. -/
lemma loop_records :
    ∃ vs, ropts = done ++ vs ∧ vs.map Prod.fst = opts ∧
      ∀ ro ∈ vs, isKnown ro.1.id = false → ro.2 = .rej := by
  induction opts generalizing st ret done with
  | nil =>
    cases h
    exact ⟨[], by simp⟩
  | cons o opts ih =>
    rcases loop_cons h with ⟨-, hloop⟩ | ⟨k, st₁, r, -, hk, -, -, hloop⟩
    · obtain ⟨vs, rfl, hmap, hrej⟩ := ih hloop
      exact ⟨(o, .rej) :: vs, by simp, by simp [hmap], by simpa using hrej⟩
    obtain ⟨vs, rfl, hmap, hrej⟩ := ih hloop
    exact ⟨(o, r) :: vs, by simp, by simp [hmap],
      forall_mem_cons.mpr ⟨by simp [isKnown, hk], hrej⟩⟩

/-- Once there is an address, the verdict so far is only lost to an unknown option. -/
lemma loop_of_addr {ip : Ipv4} (hip : st.ipv4 = some ip) :
    (Ordinary ret → ret = worstOf done → ret' = worstOf ropts) ∧
      (worstOf done = .fail → worstOf ropts = .fail ∧
        (ret' = .fail ↔ ret = .fail ∧ ∀ o ∈ opts, isKnown o.id = true)) := by
  induction opts generalizing ret done with
  | nil =>
    cases h
    exact ⟨fun _ hret ↦ hret, fun hfail ↦ ⟨hfail, by simp⟩⟩
  | cons o opts ih =>
    rcases loop_cons h with ⟨hnone, hloop⟩ | ⟨k, st₁, r, -, hk, hres, -, hloop⟩
    · obtain ⟨hord, hfail⟩ := ih hloop
      refine ⟨fun ho hret ↦ ?_, fun hf ↦ ?_⟩
      · exact hord (.inr (.inr rfl)) (by rw [worstOf_snoc, ← hret, ho.rej_worst])
      · obtain ⟨hworst, hiff⟩ := hfail (by rw [worstOf_snoc, hf]; rfl)
        refine ⟨hworst, ?_⟩
        rw [hiff]
        simp [isKnown, hnone]
    · obtain ⟨-, rfl, hr⟩ := (ipcpOptRecvConfReq_cases hres).resolve_right fun hf ↦ by
        simp [hip] at hf
      obtain ⟨hord, hfail⟩ := ih hloop
      refine ⟨fun ho hret ↦ ?_, fun hf ↦ ?_⟩
      · exact hord (hr.worst ho) (by rw [worstOf_snoc, hret])
      obtain ⟨hworst, hiff⟩ := hfail (by rw [worstOf_snoc, hf]; exact hr.worst_fail)
      refine ⟨hworst, ?_⟩
      have hknown : isKnown o.id = true := by simp [isKnown, hk]
      have hret : r.worst ret = .fail ↔ ret = .fail := by
        refine ⟨fun hw ↦ ?_, fun hw ↦ hw ▸ hr.worst_fail⟩
        rw [OptState.worst] at hw
        split at hw
        · subst hw
          simp [Ordinary] at hr
        · exact hw
      simp [hiff, hret, hknown]

/-- Behind an address option there is an address. -/
lemma loop_addr (hdone : ∀ ro ∈ done, isAddr ro.1 = true → st.ipv4 ≠ none) :
    ∀ ro ∈ ropts, isAddr ro.1 = true → st'.ipv4 ≠ none := by
  induction opts generalizing st ret done with
  | nil =>
    cases h
    exact hdone
  | cons o opts ih =>
    rcases loop_cons h with ⟨hid, hloop⟩ | ⟨k, st₁, r, -, hid, hres, hclose, hloop⟩
    · exact ih hloop (forall_mem_append.mpr ⟨hdone, by simp [isAddr, hid]⟩)
    · rcases ipcpOptRecvConfReq_cases hres with
        ⟨hne, rfl, -⟩ | ⟨-, -, hempty | ⟨ip, hip, -⟩⟩
      · exact ih hloop (forall_mem_append.mpr ⟨hdone, by simpa [isAddr, hid] using hne⟩)
      · exact absurd hempty.2.2 hclose
      · exact ih hloop (by simp [hip])

end

/-- `alloc_ip` is going to refuse: there is no address yet, and the pools have a bad one. -/
def refuses : Alloc Ipv4 → IpcpState → Bool
  | .refused _, st => st.ipv4.isNone
  | _, _ => false

lemma refuses_iff : refuses alloc st = true ↔ st.ipv4 = none ∧ ∃ ip, alloc = .refused ip := by
  cases alloc <;> simp [refuses]

/-- **The verdict is the worst one**, unless an address is refused. If the request has an address
option then, the refusal is recorded, and it is the verdict unless an unknown option follows. -/
theorem loop_verdict (ho : Ordinary ret) (hret : ret = worstOf done)
    (h : recvConfReqLoop (ipcpTable alloc) stop st ret done opts = (st', .verdict ret' ropts)) :
    (ret' = worstOf ropts ∧ (refuses alloc st = true → opts.any isAddr = false ∧ st' = st)) ∨
      (refuses alloc st = true ∧ opts.any isAddr = true ∧ stop = false ∧ worstOf ropts = .fail ∧
        (ret' = .fail ↔ unknownAfterAddr opts = false)) := by
  induction opts generalizing st ret done with
  | nil =>
    cases h
    exact .inl ⟨hret, fun _ ↦ ⟨rfl, rfl⟩⟩
  | cons o opts ih =>
    rcases loop_cons h with ⟨hid, hloop⟩ | ⟨k, st₁, r, hstop, hid, hres, hclose, hloop⟩
    · have haddr : isAddr o = false := by simp [isAddr, hid]
      have hih := ih (.inr (.inr rfl)) (by rw [worstOf_snoc, ← hret, ho.rej_worst]) hloop
      simpa [haddr, unknownAfterAddr] using hih
    have hworst : r.worst ret = worstOf (done ++ [(o, r)]) := by rw [worstOf_snoc, hret]
    rcases ipcpOptRecvConfReq_cases hres with
      ⟨hk, rfl, hr⟩ | ⟨rfl, hnone, hempty | ⟨ip, hip, ⟨halloc, rfl⟩ | ⟨halloc, hr⟩⟩⟩
    · have haddr (hrefuses : refuses alloc st₁ = true) : isAddr o = false := by
        simp [isAddr, hid, mt hk (not_not.mpr (refuses_iff.mp hrefuses).1)]
      rcases ih (hr.worst ho) hworst hloop with ⟨hw, hnot⟩ | ⟨hrefuses, hrest⟩
      · exact .inl ⟨hw, fun hrefuses ↦ by simpa [haddr hrefuses] using hnot hrefuses⟩
      · exact .inr ⟨hrefuses, by simpa [haddr hrefuses, unknownAfterAddr] using hrest⟩
    · exact absurd hempty.2.2 hclose
    · -- the address option itself: from here on there is an address, and the verdict is Fail
      have haddr : isAddr o = true := by simp [isAddr, hid]
      have hfail : OptState.fail.worst ret = .fail := by
        rcases ho with rfl | rfl | rfl <;> rfl
      obtain ⟨-, hrest⟩ := loop_of_addr hloop hip
      obtain ⟨hbad, hiff⟩ := hrest (hworst.symm.trans hfail)
      refine .inr ⟨refuses_iff.mpr ⟨hnone, ip, halloc⟩, by simp [haddr], hstop, hbad, ?_⟩
      rw [hiff, hfail]
      simp [unknownAfterAddr, haddr, isKnown_of_isAddr haddr]
    · refine .inl ⟨(loop_of_addr hloop hip).1 (hr.worst ho) hworst, fun hrefuses ↦ ?_⟩
      simp [halloc, refuses] at hrefuses

/-- A request that finds an address, refused or not, is judged to its end, unless the session is
terminated. -/
lemma loop_ends (hne : alloc ≠ .empty) (stop : Bool) (st : IpcpState) (ret : OptState)
    (done : List (RecvOpt × OptState)) (opts : List RecvOpt) :
    (∃ ret' ropts, (recvConfReqLoop (ipcpTable alloc) stop st ret done opts).2 =
        .verdict ret' ropts) ∨
      stop = true ∧ (recvConfReqLoop (ipcpTable alloc) stop st ret done opts).2 = .stopped := by
  induction opts generalizing st ret done with
  | nil => exact .inl ⟨ret, done, rfl⟩
  | cons o opts ih =>
    rw [recvConfReqLoop]
    cases hid : IpcpOpt.ofId o.id with
    | none => simpa [ipcpTable, hid] using ih st .rej (done ++ [(o, .rej)])
    | some k =>
      rcases hres : ipcpOptRecvConfReq alloc st o k with ⟨st₁, r⟩
      have hcont : Ordinary r ∨ r = .fail := by
        rcases ipcpOptRecvConfReq_cases hres with
          ⟨-, -, hr⟩ | ⟨-, -, hempty | ⟨ip, -, hbad | hgood⟩⟩
        · exact .inl hr
        · exact absurd hempty.1 hne
        · exact .inr hbad.2
        · exact .inl hgood.2
      have hrecv : (ipcpTable alloc).recvConfReq st o = some (st₁, r) := by
        simp [ipcpTable, hid, hres]
      rw [hrecv]
      cases stop with
      | true => rcases hcont with (h | h | h) | h <;> simp [h]
      | false => rcases hcont with (h | h | h) | h <;> simpa [h] using ih _ _ _

/-- A request that hides the refusal of its address. -/
def hidesRefusal (alloc : Alloc Ipv4) (stop : Bool) (st : IpcpState) (opts : List RecvOpt) : Bool :=
  !stop && refuses alloc st && unknownAfterAddr opts

lemma unknownAfterAddr_of_no_addr (h : opts.any isAddr = false) :
    unknownAfterAddr opts = false := by
  have hdrop : opts.dropWhile (fun o ↦ !isAddr o) = [] := by
    simpa [dropWhile_eq_nil_iff] using h
  rw [unknownAfterAddr, hdrop, any_nil]

/-- **The verdict of `ipcp_recv_conf_req` is the worst one** exactly when no unknown option comes
after the address option of a request that finds its address refused. -/
theorem recvConfReq_isWorst_iff {data : List UInt8} (hparse : parseOpts data = some opts) :
    (∀ ret ropts, (recvConfReq (ipcpTable alloc) stop st data).2 = .verdict ret ropts →
        IsWorst isKnown opts ropts ret) ↔ hidesRefusal alloc stop st opts = false := by
  have hrecv : recvConfReq (ipcpTable alloc) stop st data =
      recvConfReqLoop (ipcpTable alloc) stop st .ack [] opts := by
    rw [recvConfReq, hparse]
  rw [hrecv]
  constructor
  · intro hall
    refine Bool.eq_false_iff.mpr fun hhides ↦ ?_
    obtain ⟨⟨hstop, hrefuses⟩, hunknown⟩ : (stop = false ∧ refuses alloc st = true) ∧
        unknownAfterAddr opts = true := by
      simpa [hidesRefusal] using hhides
    obtain ⟨hnone, ip, rfl⟩ := refuses_iff.mp hrefuses
    subst hstop
    obtain ⟨ret', ropts, hres⟩ :=
      (loop_ends (show Alloc.refused ip ≠ .empty by simp) false st .ack [] opts).resolve_right
        (by simp)
    have hworst : ret' = worstOf ropts := (hall ret' ropts hres).2.2
    rcases loop_verdict (.inl rfl) rfl (Prod.ext rfl hres) with
      ⟨-, hno⟩ | ⟨-, -, -, hfail, hiff⟩
    · rw [unknownAfterAddr_of_no_addr (hno hrefuses).1] at hunknown
      cases hunknown
    · rw [hiff.mp (hworst.trans hfail)] at hunknown
      cases hunknown
  · intro hhides ret' ropts hres
    obtain ⟨st', hloop⟩ : ∃ st', recvConfReqLoop (ipcpTable alloc) stop st .ack [] opts =
        (st', .verdict ret' ropts) := ⟨_, Prod.ext rfl hres⟩
    obtain ⟨vs, rfl, hmap, hrej⟩ := loop_records hloop
    refine ⟨hmap, hrej, ?_⟩
    rcases loop_verdict (.inl rfl) rfl hloop with ⟨hret, -⟩ | ⟨hrefuses, -, hstop, hfail, hiff⟩
    · exact hret
    · have hlast : unknownAfterAddr opts = false := by
        simpa [hidesRefusal, hstop, hrefuses] using hhides
      rw [hiff.mpr hlast, hfail]

/-- What judging a request does to the session: it may fetch an address. -/
lemma loop_state (alloc : Alloc Ipv4) (stop : Bool) (st : IpcpState) (ret : OptState)
    (done : List (RecvOpt × OptState)) (opts : List RecvOpt) :
    (recvConfReqLoop (ipcpTable alloc) stop st ret done opts).1 = st ∨
      st.ipv4 = none ∧ ∃ ip, (alloc = .ok ip ∨ alloc = .refused ip) ∧
        (recvConfReqLoop (ipcpTable alloc) stop st ret done opts).1.ipv4 = some ip := by
  induction opts generalizing st ret done with
  | nil => exact .inl rfl
  | cons o opts ih =>
    -- one handler first: it keeps the state, or it fetches an address
    have hfetch {st₁ : IpcpState} {r : OptState}
        (heq : (ipcpTable alloc).recvConfReq st o = some (st₁, r)) : st₁ = st ∨
        st.ipv4 = none ∧ ∃ ip, (alloc = .ok ip ∨ alloc = .refused ip) ∧ st₁.ipv4 = some ip := by
      obtain ⟨k, -, hres⟩ := Option.map_eq_some_iff.mp heq
      rcases ipcpOptRecvConfReq_cases hres with
        ⟨-, hst, -⟩ | ⟨-, hnone, ⟨-, hst, -⟩ | ⟨ip, hip, hbad | hgood⟩⟩
      · exact .inl hst
      · exact .inl hst
      · exact .inr ⟨hnone, ip, .inr hbad.1, hip⟩
      · exact .inr ⟨hnone, ip, .inl hgood.1, hip⟩
    rw [recvConfReqLoop]
    split
    · exact ih st .rej _
    · next heq => exact hfetch heq
    · next heq => exact hfetch heq
    next st₁ r _ _ heq =>
    split
    · exact hfetch heq
    rcases hfetch heq with rfl | ⟨hnone, ip, halloc, hip⟩
    · exact ih _ _ _
    · rcases ih st₁ (r.worst ret) (done ++ [(o, r)]) with hsame | ⟨hnone', -⟩
      · exact .inr ⟨hnone, ip, halloc, by rw [hsame, hip]⟩
      · rw [hip] at hnone'
        cases hnone'

end Verdict

end Ipcp

end AccelPpp.Ppp
