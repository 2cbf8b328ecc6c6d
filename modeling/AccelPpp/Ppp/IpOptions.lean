import AccelPpp.Ppp.Ncp

/-!
# The options of IPCP and IPv6CP

IPCP registers five options of six bytes each (the peer's address, two name servers, two NBNS
servers), IPv6CP one of ten bytes (the interface identifier). The tables are instances of
`Ncp.OptTable`; addresses and identifiers are numbers, the value of the bytes in network order.

The handlers may allocate an address for the session (`alloc_ip`). What the address pool answers,
and whether the address is then refused, is an argument of the table. An address that is refused
stays in the session, and the next option no longer allocates.

`ipcp_nakReply_fits_iff` and `ipv6cp_nakReply_fits_iff`, on the size of a Configure-Nak, are
`Ncp.Judges.nakReply_fits_iff` at these tables: how many options of the request ask for something
other than what the server wants to see.
-/

namespace AccelPpp.Ppp.Ncp

open List Option

/-! ### IPCP -/

/-- `ses.ipv4` -/
structure Ipv4 where
  addr : Nat
  peerAddr : Nat
  deriving DecidableEq

/-- What `alloc_ip` finds: nothing in the pools, an address that it refuses (inside a tunnel
range, or in use), or an address. -/
inductive Alloc (α : Type)
  | empty
  | refused (ip : α)
  | ok (ip : α)
  deriving DecidableEq

/-- The local options of IPCP; an address of 0 is not configured. -/
structure IpcpState where
  ipv4 : Option Ipv4
  dns1 : Nat
  dns2 : Nat
  wins1 : Nat
  wins2 : Nat
  deriving DecidableEq

/-- The end of `ipaddr_recv_conf_req`, with the address at hand. -/
def ipaddrJudge (ip : Ipv4) (o : RecvOpt) : OptState :=
  if o.len ≠ 6 then .rej else if ip.peerAddr = o.val then .ack else .nak

section

variable (alloc : Alloc Ipv4) (st : IpcpState)

/-- `ipaddr_recv_conf_req` of `ipcp_opt_ipaddr.c`. -/
def ipaddrRecvConfReq (o : RecvOpt) : IpcpState × OptState :=
  match st.ipv4 with
  | some ip => (st, ipaddrJudge ip o)
  | none =>
    match alloc with
    | .empty => (st, .close)
    | .refused ip => ({ st with ipv4 := some ip }, .fail)
    | .ok ip => ({ st with ipv4 := some ip }, ipaddrJudge ip o)

/-- `dns_recv_conf_req` and `wins_recv_conf_req`, with the local address. -/
def serverRecvConfReq (addr : Nat) (o : RecvOpt) : OptState :=
  if o.len ≠ 6 then .rej else if addr = 0 then .rej else if addr = o.val then .ack else .nak

/-- The five options of IPCP. -/
inductive IpcpOpt
  | addr
  | dns1
  | wins1
  | dns2
  | wins2
  deriving DecidableEq

/-- `CI_ADDR`, `CI_DNS1`, `CI_WINS1`, `CI_DNS2`, `CI_WINS2`. -/
def IpcpOpt.ofId (id : UInt8) : Option IpcpOpt :=
  match id.toNat with
  | 3 => some .addr
  | 129 => some .dns1
  | 130 => some .wins1
  | 131 => some .dns2
  | 132 => some .wins2
  | _ => none

/-- The configured address of a server option. -/
def IpcpState.server : IpcpOpt → Nat
  | .dns1 => st.dns1
  | .wins1 => st.wins1
  | .dns2 => st.dns2
  | .wins2 => st.wins2
  | .addr => 0

/-- `recv_conf_req` of one local option. -/
def ipcpOptRecvConfReq (o : RecvOpt) : IpcpOpt → IpcpState × OptState
  | .addr => ipaddrRecvConfReq alloc st o
  | k => (st, serverRecvConfReq (st.server k) o)

/-- The value `send_conf_nak` of one local option writes. -/
def IpcpState.nakValue : IpcpOpt → Nat
  | .addr => (st.ipv4.map Ipv4.peerAddr).getD 0
  | k => st.server k

/-- The table of IPCP. -/
def ipcpTable : OptTable IpcpState where
  recvConfReq st o := (IpcpOpt.ofId o.id).map (ipcpOptRecvConfReq alloc st o)
  sendConfNak st id := [id, 6] ++ natBytes 4 (((IpcpOpt.ofId id).map st.nakValue).getD 0)
  lens := [6, 6, 6, 6, 6]
  proto := 0x8021

/-- The peer address in effect once an address option has been judged. -/
def ipcpPeerAddr : Option Nat :=
  match st.ipv4, alloc with
  | some ip, _ => some ip.peerAddr
  | none, .ok ip => some ip.peerAddr
  | none, _ => none

/-- **What the server wants to see** for an option, if it has an answer to it at all. -/
def ipcpWants (id : UInt8) : Option Nat :=
  match IpcpOpt.ofId id with
  | none => none
  | some .addr => ipcpPeerAddr alloc st
  | some k => if st.server k = 0 then none else some (st.server k)

/-- The verdict of the local state on an option, taken by itself. -/
def ipcpJudge (o : RecvOpt) : OptState :=
  match IpcpOpt.ofId o.id with
  | none => .rej
  | some k => (ipcpOptRecvConfReq alloc st o k).2

/-- The states the handlers leave behind while they acknowledge and nak. -/
def IpcpReached (st st' : IpcpState) : Prop :=
  st' = st ∨ st.ipv4 = none ∧ ∃ ip, alloc = .ok ip ∧ st' = { st with ipv4 := some ip }

end

variable {o : RecvOpt}

lemma ipaddrJudge_ne_none {ip : Ipv4} : ipaddrJudge ip o ≠ .none := by
  rw [ipaddrJudge]
  repeat' split
  all_goals simp

lemma serverRecvConfReq_ne_none {addr : Nat} : serverRecvConfReq addr o ≠ .none := by
  rw [serverRecvConfReq]
  repeat' split
  all_goals simp

variable {alloc : Alloc Ipv4} {st : IpcpState}

/-- A local option judges the same way in every state reached. -/
lemma ipcpOptRecvConfReq_reached {st' : IpcpState} (h : IpcpReached alloc st st') {k : IpcpOpt} :
    (ipcpOptRecvConfReq alloc st' o k).2 = (ipcpOptRecvConfReq alloc st o k).2 ∧
      (ipcpOptRecvConfReq alloc st' o k).2 ≠ .none ∧
      (Mild (ipcpOptRecvConfReq alloc st' o k).2 →
        IpcpReached alloc st (ipcpOptRecvConfReq alloc st' o k).1) := by
  cases k with
  | addr =>
    simp only [ipcpOptRecvConfReq, ipaddrRecvConfReq]
    rcases h with rfl | ⟨hst, ip, rfl, rfl⟩
    · cases hst : st'.ipv4 with
      | some ip => exact ⟨rfl, ipaddrJudge_ne_none, fun _ ↦ .inl rfl⟩
      | none =>
        cases alloc with
        | empty | refused ip => simp [Mild]
        | ok ip => exact ⟨rfl, ipaddrJudge_ne_none, fun _ ↦ .inr ⟨hst, ip, rfl, rfl⟩⟩
    · simp only [hst]
      exact ⟨trivial, ipaddrJudge_ne_none, fun _ ↦ .inr ⟨hst, ip, rfl, rfl⟩⟩
  | _ =>
    have hserver : st'.server = st.server := by
      rcases h with rfl | ⟨-, ip, -, rfl⟩ <;> rfl
    simp only [ipcpOptRecvConfReq, hserver]
    exact ⟨trivial, serverRecvConfReq_ne_none, fun _ ↦ h⟩

variable {alloc : Alloc Ipv4}

lemma ipcp_judges {st : IpcpState} :
    Judges (ipcpTable alloc) (IpcpReached alloc st) (ipcpJudge alloc st) where
  unknown {st' o} _ hnone := by
    have hid : IpcpOpt.ofId o.id = none := map_eq_none_iff.mp hnone
    simp [ipcpJudge, hid]
  known {st' o st'' r} hI hsome := by
    obtain ⟨k, hid, hk⟩ := map_eq_some_iff.mp hsome
    obtain ⟨hsame, hnone, hreach⟩ := ipcpOptRecvConfReq_reached hI
    rw [hk] at hsame hnone hreach
    simp only [ipcpJudge, hid]
    exact ⟨hsame.symm, hnone, hreach⟩

lemma ipaddrJudge_eq (ip : Ipv4) (o : RecvOpt) : ipaddrJudge ip o =
    if o.len = 6 then if ip.peerAddr = o.val then .ack else .nak else .rej := by
  rw [ipaddrJudge]
  split <;> simp_all

/-- **The verdict on an option** is about its length and about what the server wants to see;
where it has no answer, the verdict is worse than Nak. -/
theorem ipcpJudge_cases (alloc : Alloc Ipv4) (st : IpcpState) (o : RecvOpt) :
    (∃ v, o.len = 6 ∧ ipcpWants alloc st o.id = some v ∧
        ipcpJudge alloc st o = if v = o.val then .ack else .nak) ∨
      (¬ (o.len = 6 ∧ (ipcpWants alloc st o.id).isSome = true) ∧
        ¬ Mild (ipcpJudge alloc st o)) := by
  rw [ipcpJudge, ipcpWants]
  cases IpcpOpt.ofId o.id with
  | none => exact .inr (by simp [Mild])
  | some k =>
    cases k with
    | addr =>
      simp only [ipcpOptRecvConfReq, ipaddrRecvConfReq, ipcpPeerAddr]
      cases st.ipv4 with
      | some ip => by_cases hlen : o.len = 6 <;> simp [ipaddrJudge_eq, hlen, Mild]
      | none =>
        cases alloc with
        | empty | refused ip => simp [Mild]
        | ok ip => by_cases hlen : o.len = 6 <;> simp [ipaddrJudge_eq, hlen, Mild]
    | _ =>
      simp only [ipcpOptRecvConfReq, serverRecvConfReq]
      by_cases hlen : o.len = 6
      · split <;> simp_all [Mild]
      · simp [hlen, Mild]

lemma mild_ipcpJudge_iff :
    Mild (ipcpJudge alloc st o) ↔ o.len = 6 ∧ (ipcpWants alloc st o.id).isSome = true := by
  rcases ipcpJudge_cases alloc st o with ⟨v, hlen, hv, hj⟩ | ⟨hno, hharsh⟩
  · refine iff_of_true ?_ ⟨hlen, by simp [hv]⟩
    rw [hj]
    split
    · exact .inl rfl
    · exact .inr rfl
  · exact iff_of_false hharsh hno

/-- **IPCP.** The Configure-Nak fits its buffer exactly when the session is being stopped, or the
request is malformed or has an option the server has no answer to, or at most five of its options
differ from what the server wants to see. -/
theorem ipcp_nakReply_fits_iff (alloc : Alloc Ipv4) (stopTime : Bool) (recvId : UInt8)
    (st : IpcpState) (data : List UInt8) :
    (∀ reply, nakReply (ipcpTable alloc) stopTime recvId st data = some reply →
        reply.length ≤ (ipcpTable alloc).confReqLen) ↔
      (stopTime = false → ∀ opts, parseOpts data = some opts →
        (∀ o ∈ opts, o.len = 6 ∧ (ipcpWants alloc st o.id).isSome = true) →
        (opts.countP fun o ↦ ipcpWants alloc st o.id ≠ some o.val) ≤ 5) := by
  cases stopTime with
  | true => simp [nakReply_stopped]
  | false =>
    rw [ipcp_judges.nakReply_fits_iff (fun _ _ ↦ show _ = 6 by simp [ipcpTable]) (.inl rfl)]
    have hroom : (ipcpTable alloc).confReqLen = 36 := rfl
    simp only [mild_ipcpJudge_iff, hroom, forall_const]
    refine forall₃_congr fun opts _ hmild ↦ ?_
    have hcount : (opts.countP fun o ↦ ipcpJudge alloc st o = .nak) =
        opts.countP fun o ↦ ipcpWants alloc st o.id ≠ some o.val := by
      refine countP_congr fun o ho ↦ ?_
      rcases ipcpJudge_cases alloc st o with ⟨v, hlen, hv, hj⟩ | ⟨-, hharsh⟩
      · rw [hj]
        split <;> simp_all
      · exact absurd (mild_ipcpJudge_iff.mpr (hmild o ho)) hharsh
    rw [hdrLen]
    omega

/-! ### IPv6CP -/

/-- The interface identifiers of `ses.ipv6`. -/
structure Ipv6 where
  intfId : Nat
  peerIntfId : Nat
  deriving DecidableEq

/-- The local option of IPv6CP. -/
structure Ipv6cpState where
  ipv6 : Option Ipv6
  deriving DecidableEq

/-- What the handler of IPv6CP depends on besides the session. -/
structure Ipv6cpEnv where
  /-- What `alloc_ip` finds. -/
  alloc : Alloc Ipv6
  /-- `conf_accept_peer_intf_id` -/
  accept : Bool
  /-- What `generate_peer_intf_id` returns. -/
  gen : Nat
  deriving DecidableEq

section

variable (env : Ipv6cpEnv) (ip : Ipv6) (o : RecvOpt)

/-- The peer's identifier after the middle part of `ipaddr_recv_conf_req`; 0 if there is none. -/
def settlePeer : Nat :=
  if env.accept ∧ o.val ≠ 0 then o.val
  else if ip.peerIntfId = 0 then env.gen
  else ip.peerIntfId

/-- `ipaddr_recv_conf_req` of `ipv6cp_opt_intfid.c` once there is an address. -/
def intfidJudge : Ipv6 × OptState :=
  let ip : Ipv6 := { ip with peerIntfId := settlePeer env ip o }
  if ip.peerIntfId = 0 then (ip, .termAck)
  else if o.val ≠ 0 ∧ ip.peerIntfId = o.val ∧ o.val ≠ ip.intfId then (ip, .ack)
  else (ip, .nak)

/-- `ipaddr_recv_conf_req` of `ipv6cp_opt_intfid.c`. Unlike the one of IPCP it looks at the length
first. -/
def intfidRecvConfReq (st : Ipv6cpState) (o : RecvOpt) : Ipv6cpState × OptState :=
  let judge (ip : Ipv6) := (Ipv6cpState.mk (some (intfidJudge env ip o).1),
    (intfidJudge env ip o).2)
  if o.len ≠ 10 then (st, .rej)
  else
    match st.ipv6 with
    | some ip => judge ip
    | none =>
      match env.alloc with
      | .empty => (st, .close)
      | .refused ip => (⟨some ip⟩, .fail)
      | .ok ip => judge ip

/-- The table of IPv6CP: `CI_INTFID`. -/
def ipv6cpTable : OptTable Ipv6cpState where
  recvConfReq st o := if o.id = 1 then some (intfidRecvConfReq env st o) else none
  sendConfNak st id := [id, 10] ++ natBytes 8 ((st.ipv6.map Ipv6.peerIntfId).getD 0)
  lens := [10]
  proto := 0x8057

/-- The identifiers in effect once an option has been judged. -/
def ipv6cpAddr (st : Ipv6cpState) : Option Ipv6 :=
  match st.ipv6, env.alloc with
  | some ip, _ => some ip
  | none, .ok ip => some ip
  | none, _ => none

/-- The identifier the server wants the peer to have, when it does not accept the peer's own. -/
def ipv6cpWants : Nat :=
  if ip.peerIntfId = 0 then env.gen else ip.peerIntfId

/-- **What the server does not accept**: no identifier, its own, or, unless it lets the peer
choose, one that is not the one it wants to see. -/
def ipv6cpDiffers : Bool :=
  o.val = 0 || o.val = ip.intfId || (!env.accept && o.val ≠ ipv6cpWants env ip)

/-- The verdict on an option when there are identifiers `ip` to be had. -/
def ipv6cpJudge : OptState :=
  if o.id = 1 ∧ o.len = 10 then if ipv6cpDiffers env ip o then .nak else .ack else .rej

/-- There is an identifier for the peer before any option is looked at. -/
def PeerKnown : Prop :=
  ip.peerIntfId ≠ 0 ∨ env.gen ≠ 0

/-- The peer's identifier `q` while the handler acknowledges and naks, starting from `ip`. -/
def PeerSettled (q : Nat) : Prop :=
  q ≠ 0 ∧ (env.accept = false → q = ipv6cpWants env ip)

/-- The states the handler leaves behind while it acknowledges and naks. -/
def Ipv6cpReached (st : Ipv6cpState) : Prop :=
  ipv6cpAddr env st = some ip ∨ ∃ q, st.ipv6 = some ⟨ip.intfId, q⟩ ∧ PeerSettled env ip q

end

section Intfid

variable {env : Ipv6cpEnv} {ip : Ipv6} {st st' : Ipv6cpState} {o : RecvOpt} {r : OptState}

/-- The handler when there are identifiers to be had. -/
lemma intfidRecvConfReq_of_addr (hip : ipv6cpAddr env st = some ip) (hlen : o.len = 10) :
    intfidRecvConfReq env st o = (⟨some (intfidJudge env ip o).1⟩, (intfidJudge env ip o).2) := by
  rw [ipv6cpAddr] at hip
  rw [intfidRecvConfReq]
  cases hst : st.ipv6 with
  | some ip' => simp_all
  | none => cases halloc : env.alloc <;> simp_all

/-- The only option with a handler. -/
lemma intfid_of_recv (h : (ipv6cpTable env).recvConfReq st o = some (st', r)) :
    o.id = 1 ∧ intfidRecvConfReq env st o = (st', r) := by
  by_cases hid : o.id = 1
  · exact ⟨hid, by simpa [ipv6cpTable, hid] using h⟩
  · simp [ipv6cpTable, hid] at h

lemma intfidJudge_fst (env : Ipv6cpEnv) (ip : Ipv6) (o : RecvOpt) :
    (intfidJudge env ip o).1 = ⟨ip.intfId, settlePeer env ip o⟩ := by
  rw [intfidJudge]
  repeat' split
  all_goals rfl

lemma Ipv6cpReached.addr (h : Ipv6cpReached env ip st) :
    ∃ q, ipv6cpAddr env st = some ⟨ip.intfId, q⟩ ∧ (q = ip.peerIntfId ∨ PeerSettled env ip q) := by
  rcases h with h | ⟨q, hst, hq⟩
  · exact ⟨ip.peerIntfId, h, .inl rfl⟩
  · exact ⟨q, by simp [ipv6cpAddr, hst], .inr hq⟩

lemma mild_ipv6cpJudge_iff : Mild (ipv6cpJudge env ip o) ↔ o.id = 1 ∧ o.len = 10 := by
  rw [ipv6cpJudge]
  split
  · next h => exact iff_of_true (by split <;> simp [Mild]) h
  · next h => exact iff_of_false (by simp [Mild]) h

section

variable (hk : PeerKnown env ip)

include hk

lemma settlePeer_settled {q : Nat} (hq : q = ip.peerIntfId ∨ PeerSettled env ip q) {o : RecvOpt} :
    PeerSettled env ip (settlePeer env ⟨ip.intfId, q⟩ o) := by
  rw [settlePeer]
  by_cases hacc : env.accept ∧ o.val ≠ 0
  · rw [if_pos hacc]
    exact ⟨hacc.2, fun hno ↦ by simp [hno] at hacc⟩
  rw [if_neg hacc]
  by_cases hq0 : q = 0
  · -- only the first option can find no identifier, and then one is generated
    rcases hq with rfl | hset
    · have hgen : env.gen ≠ 0 := hk.resolve_left (not_not.mpr hq0)
      rw [if_pos hq0]
      exact ⟨hgen, fun _ ↦ by simp [ipv6cpWants, hq0]⟩
    · exact absurd hq0 hset.1
  · rw [if_neg hq0]
    refine ⟨hq0, fun hno ↦ ?_⟩
    rcases hq with rfl | hset
    · simp [ipv6cpWants, hq0]
    · exact hset.2 hno

/-- The verdict of the handler, whatever options it has judged before. -/
lemma intfidJudge_snd {q : Nat} (hq : q = ip.peerIntfId ∨ PeerSettled env ip q) (o : RecvOpt) :
    (intfidJudge env ⟨ip.intfId, q⟩ o).2 = if ipv6cpDiffers env ip o then .nak else .ack := by
  obtain ⟨hne, hwants⟩ := settlePeer_settled hk hq
  have hval : env.accept = true → o.val ≠ 0 → settlePeer env ⟨ip.intfId, q⟩ o = o.val := by
    intro hacc h0
    simp [settlePeer, hacc, h0]
  rw [intfidJudge]
  rw [if_neg hne]
  by_cases h0 : o.val = 0
  · simp [ipv6cpDiffers, h0]
  by_cases hintf : o.val = ip.intfId
  · simp [ipv6cpDiffers, hintf]
  · cases hacc : env.accept with
    | true => simp [ipv6cpDiffers, h0, hintf, hacc, hval hacc h0]
    | false =>
      rw [hwants hacc]
      by_cases hw : o.val = ipv6cpWants env ip
      · simp [ipv6cpDiffers, h0, hintf, hacc, ← hw]
      · simp [ipv6cpDiffers, h0, hintf, hacc, hw, Ne.symm hw]

lemma ipv6cp_judges : Judges (ipv6cpTable env) (Ipv6cpReached env ip) (ipv6cpJudge env ip) where
  unknown {st o} _ hnone := by
    have hid : o.id ≠ 1 := by
      intro hid
      simp [ipv6cpTable, hid] at hnone
    simp [ipv6cpJudge, hid]
  known {st o st' r} hI hsome := by
    obtain ⟨hid, hrecv⟩ := intfid_of_recv hsome
    by_cases hlen : o.len = 10
    · obtain ⟨q, hip, hq⟩ := hI.addr
      rw [intfidRecvConfReq_of_addr hip hlen, intfidJudge_fst, intfidJudge_snd hk hq] at hrecv
      obtain ⟨rfl, rfl⟩ := Prod.mk.inj hrecv
      refine ⟨by simp [ipv6cpJudge, hid, hlen], by split <;> simp, fun _ ↦ ?_⟩
      exact .inr ⟨_, rfl, settlePeer_settled hk hq⟩
    · obtain ⟨rfl, rfl⟩ : st = st' ∧ .rej = r := by
        simpa [intfidRecvConfReq, hlen] using hrecv
      simp [ipv6cpJudge, hlen, Mild]

/-- The bound when there is an identifier for the peer before any option is looked at. -/
lemma ipv6cp_fits_iff_of_known
    (hI : Ipv6cpReached env ip st) (recvId : UInt8) (data : List UInt8) :
    (∀ reply, nakReply (ipv6cpTable env) false recvId st data = some reply →
        reply.length ≤ (ipv6cpTable env).confReqLen) ↔
      ∀ opts, parseOpts data = some opts → (∀ o ∈ opts, o.id = 1 ∧ o.len = 10) →
        opts.countP (ipv6cpDiffers env ip) ≤ 1 := by
  rw [(ipv6cp_judges hk).nakReply_fits_iff (fun _ _ ↦ show _ = 10 by simp [ipv6cpTable]) hI]
  have hroom : (ipv6cpTable env).confReqLen = 16 := rfl
  simp only [mild_ipv6cpJudge_iff, hroom]
  refine forall₃_congr fun opts _ hwf ↦ ?_
  have hcount : (opts.countP fun o ↦ ipv6cpJudge env ip o = .nak) =
      opts.countP (ipv6cpDiffers env ip) := by
    refine countP_congr fun o ho ↦ ?_
    simp [ipv6cpJudge, hwf o ho]
  rw [hdrLen]
  omega

end

/-- With an identifier neither in the session nor to be generated, the first option decides: it
must bring one that the server lets the peer choose. -/
lemma ipv6cp_head_not_known (hip : ipv6cpAddr env st = some ip) (hk : ¬ PeerKnown env ip)
    (ho : o.id = 1 ∧ o.len = 10) (hval : ¬ (env.accept = true ∧ o.val ≠ 0)) :
    (ipv6cpTable env).recvConfReq st o = some (⟨some ⟨ip.intfId, 0⟩⟩, .termAck) := by
  have hpeer : ip.peerIntfId = 0 ∧ env.gen = 0 := by simpa [PeerKnown] using hk
  have hsettle : settlePeer env ip o = 0 := by simp [settlePeer, hval, hpeer]
  have hjudge : intfidJudge env ip o = (⟨ip.intfId, 0⟩, .termAck) := by
    simp [intfidJudge, hsettle]
  simp [ipv6cpTable, ho.1, intfidRecvConfReq_of_addr hip ho.2, hjudge]

/-- An identifier the server lets the peer choose is as good as one known before. -/
lemma ipv6cp_head_accepted (hip : ipv6cpAddr env st = some ip) (ho : o.id = 1 ∧ o.len = 10)
    (hval : env.accept = true ∧ o.val ≠ 0) :
    (ipv6cpTable env).recvConfReq st o =
      some (⟨some (intfidJudge env ⟨ip.intfId, o.val⟩ o).1⟩,
        (intfidJudge env ⟨ip.intfId, o.val⟩ o).2) := by
  simp only [ipv6cpTable, ho.1, if_pos, intfidRecvConfReq_of_addr hip ho.2, intfidJudge,
    settlePeer, if_pos hval]

/-- The first option when it is malformed, or there is no address to be had. -/
lemma ipv6cp_head_harsh (h : o.id = 1 ∧ o.len = 10 → ipv6cpAddr env st = none)
    (hrecv : (ipv6cpTable env).recvConfReq st o = some (st', r)) : Harsh r := by
  obtain ⟨hid, hrecv⟩ := intfid_of_recv hrecv
  have hr : (intfidRecvConfReq env st o).2 = r := by rw [hrecv]
  rw [← hr, intfidRecvConfReq]
  split
  · show Harsh .rej
    decide
  next hlen =>
  have hip := h ⟨hid, not_not.mp hlen⟩
  rw [ipv6cpAddr] at hip
  cases hst : st.ipv6 with
  | some ip => simp [hst] at hip
  | none =>
    cases halloc : env.alloc with
    | ok ip => simp [hst, halloc] at hip
    | empty | refused ip =>
      dsimp only
      decide

/-- **IPv6CP.** The Configure-Nak fits its buffer exactly when the request has an option that is not
a well-formed interface identifier, or there is no address or no identifier for the peer, or at most
one of its options is not accepted. -/
theorem ipv6cp_fits_iff_of_parse {recvId : UInt8}
    {data : List UInt8} {opts : List RecvOpt} (hparse : parseOpts data = some opts) :
    (∀ reply, nakReply (ipv6cpTable env) false recvId st data = some reply →
        reply.length ≤ (ipv6cpTable env).confReqLen) ↔
      ((∀ o ∈ opts, o.id = 1 ∧ o.len = 10) → ∀ ip, ipv6cpAddr env st = some ip →
        (PeerKnown env ip ∨ env.accept = true ∧ ∃ o, opts.head? = some o ∧ o.val ≠ 0) →
        opts.countP (ipv6cpDiffers env ip) ≤ 1) := by
  cases opts with
  | nil => exact iff_of_true (by simp [nakReply_of_nil hparse]) (by simp)
  | cons o opts =>
    by_cases ho : o.id = 1 ∧ o.len = 10
    swap
    · -- the first option is refused, and no Configure-Nak is sent
      refine iff_of_true ?_ fun hwf ↦ absurd (hwf o (by simp)) ho
      simp [nakReply_of_head hparse fun _ _ hrecv ↦ .inr (ipv6cp_head_harsh (absurd · ho) hrecv)]
    cases hip : ipv6cpAddr env st with
    | none =>
      refine iff_of_true ?_ (by simp)
      simp [nakReply_of_head hparse fun _ _ hrecv ↦ .inr (ipv6cp_head_harsh (fun _ ↦ hip) hrecv)]
    | some ip =>
      simp only [some.injEq, forall_eq', head?_cons, exists_eq_left']
      by_cases hk : PeerKnown env ip
      · rw [ipv6cp_fits_iff_of_known hk (.inl hip), hparse]
        simp [hk]
      by_cases hval : env.accept = true ∧ o.val ≠ 0
      · -- the first option settles the identifier, as if it had been there before
        have hknown : PeerKnown env ⟨ip.intfId, o.val⟩ := .inl hval.2
        have hdiff : ipv6cpDiffers env ⟨ip.intfId, o.val⟩ = ipv6cpDiffers env ip := by
          funext o'
          simp [ipv6cpDiffers, hval.1]
        have hsettled : ipv6cpAddr env ⟨some ⟨ip.intfId, o.val⟩⟩ = some ⟨ip.intfId, o.val⟩ := rfl
        have hagain := ipv6cp_head_accepted hsettled ho hval
        rw [nakReply_congr_head hparse (ipv6cp_head_accepted hip ho hval) hagain,
          ipv6cp_fits_iff_of_known hknown (.inl rfl), hparse, hdiff]
        simp [hval.1, hval.2]
      · -- there is no identifier to propose, and a Terminate-Ack is sent instead
        refine iff_of_true ?_ fun _ hor ↦ absurd hor (not_or.mpr ⟨hk, hval⟩)
        have hterm := ipv6cp_head_not_known hip hk ho hval
        have hnone : nakReply (ipv6cpTable env) false recvId st data = none :=
          nakReply_of_head hparse fun st' r hrecv ↦ by
            obtain ⟨-, rfl⟩ := Prod.mk.inj (mem_unique hterm hrecv)
            exact .inr (by decide)
        simp [hnone]

end Intfid

/-! ### Both protocols -/

/-- **The buffer of a Configure-Nak**: the reply fits exactly when the request is not answered with
a Configure-Nak or does not ask for more changes than there are local options, five for IPCP and one
for IPv6CP. -/
theorem conf_nak_fits_buffer_iff (alloc : Alloc Ipv4) (env : Ipv6cpEnv) (stopTime : Bool)
    (recvId : UInt8) (st₄ : IpcpState) (st₆ : Ipv6cpState) (data : List UInt8) :
    ((∀ reply, nakReply (ipcpTable alloc) stopTime recvId st₄ data = some reply →
        reply.length ≤ (ipcpTable alloc).confReqLen) ↔
      (stopTime = false → ∀ opts, parseOpts data = some opts →
        (∀ o ∈ opts, o.len = 6 ∧ (ipcpWants alloc st₄ o.id).isSome = true) →
        (opts.countP fun o ↦ ipcpWants alloc st₄ o.id ≠ some o.val) ≤ 5)) ∧
    ((∀ reply, nakReply (ipv6cpTable env) stopTime recvId st₆ data = some reply →
        reply.length ≤ (ipv6cpTable env).confReqLen) ↔
      (stopTime = false → ∀ opts, parseOpts data = some opts →
        (∀ o ∈ opts, o.id = 1 ∧ o.len = 10) → ∀ ip, ipv6cpAddr env st₆ = some ip →
        (PeerKnown env ip ∨ env.accept = true ∧ ∃ o, opts.head? = some o ∧ o.val ≠ 0) →
        opts.countP (ipv6cpDiffers env ip) ≤ 1)) := by
  refine ⟨ipcp_nakReply_fits_iff alloc stopTime recvId st₄ data, ?_⟩
  cases stopTime with
  | true => simp [nakReply_stopped]
  | false =>
    simp only [forall_const]
    cases hparse : parseOpts data with
    | none => simp [nakReply, recvConfReq, hparse]
    | some opts =>
      simp only [some.injEq, forall_eq']
      exact ipv6cp_fits_iff_of_parse hparse

/-- A peer that asks for the address 0.0.0.0 six times in one request has 42 bytes written into
the 36 allocated ones. -/
theorem six_address_options_overflow :
    let addr : List UInt8 := [3, 6, 0, 0, 0, 0]
    let st : IpcpState := ⟨some ⟨0x0a000001, 0x0a000002⟩, 0, 0, 0, 0⟩
    (nakReply (ipcpTable .empty) false 1 st (addr ++ addr ++ addr ++ addr ++ addr ++ addr)).map
        length = some 42 ∧
      (ipcpTable .empty).confReqLen = 36 := by
  decide

end AccelPpp.Ppp.Ncp
