import Mathlib

/-!
# Whom an IPoE DHCP packet disturbs

An IPoE server in **shared** mode keeps one list of sessions for many subscribers. A DHCPDISCOVER or
DHCPREQUEST is matched against it by the client's MAC address, and by what the relay agent says
about the port the client is on (Option 82: circuit id, remote id and link selection).
`ipoe_session_lookup` returns the session with the MAC and, through `opt82_ses`, one with the
Option 82 identity; the handler then decides whether the client has moved to another port, or
another client has appeared on a port, and terminates sessions accordingly.

The first pass goes over the list up to the first session with the MAC. It computes `opt82_match`
afresh for each session and remembers the **last** that matched. When it has met none, a second pass
looks for the identity in the whole list, with the same comparisons guarded by `opt82_match`. But
that is still 0 from the first pass (`lookupLoop_spec`), so only the first comparison, which has no
guard, is made: the second pass takes the **first session that has a circuit id** when the packet
has one, and the very first session of the list when it has none (`opt82Pick_false`).

`disturbs_only_own_iff` is the condition on list and packet under which the handler terminates only
sessions of the packet's subscriber and recognises every port change. Sessions are named by their
position in the list, which stands for the pointer.
-/

open List Nat Option

namespace AccelPpp.Ipoe

/-- What Option 82 says: the sub-options, each a string with its length in front. -/
structure Opt82 where
  circuitId : Option (List UInt8)
  remoteId : Option (List UInt8)
  linkSelection : Option (List UInt8)
deriving DecidableEq

/-- No sub-option at all: three null pointers. -/
def Opt82.empty : Opt82 := ⟨none, none, none⟩

/-- The loop of `dhcpv4_parse_opt82`; `none` is the result -1. Each round takes at least two bytes,
so the number of bytes is fuel enough. -/
def parseOpt82Aux : ℕ → List UInt8 → Opt82 → Option Opt82
  | _, [], acc => some acc
  | 0, _ :: _, _ => none
  | _ + 1, [_], _ => none
  | fuel + 1, type :: len :: rest, acc =>
    if rest.length < len.toNat then none
    else
      let value := rest.take len.toNat
      let acc :=
        if type = 1 then { acc with circuitId := some value }
        else if type = 2 then { acc with remoteId := some value }
        else if type = 5 then { acc with linkSelection := some value }
        else acc
      parseOpt82Aux fuel (rest.drop len.toNat) acc

/-- `dhcpv4_parse_opt82`. -/
def dhcpv4ParseOpt82 (data : List UInt8) : Option Opt82 :=
  parseOpt82Aux data.length data .empty

/-- An `ipoe_session` on the server's list, as far as DHCP packets look at it. -/
structure IpoeSession where
  hwaddr : BitVec 48
  agentCircuitId : Option (List UInt8)
  agentRemoteId : Option (List UInt8)
  linkSelection : Option (List UInt8)
  /-- `ses->terminate`: the session has been terminated and only waits for a packet. -/
  terminate : Bool
  xid : UInt32
  weight : ℕ
  siaddr : UInt32
  yiaddr : UInt32
deriving DecidableEq

/-- The Option 82 identity the session was created with. -/
def IpoeSession.opt82 (ses : IpoeSession) : Opt82 :=
  ⟨ses.agentCircuitId, ses.agentRemoteId, ses.linkSelection⟩

/-- The messages that the handler distinguishes. -/
inductive MsgType where
  | discover | request | decline | release
deriving DecidableEq

/-- `struct dhcpv4_packet`, as far as the handler reads it. -/
structure DhcpPacket where
  msgType : MsgType
  chaddr : BitVec 48
  xid : UInt32
  ciaddr : UInt32
  srcAddr : UInt32
  /-- 0 when the option is missing. -/
  serverId : UInt32
  /-- 0 when the option is missing. -/
  requestIp : UInt32
  /-- The data of Option 82. -/
  relayAgent : Option (List UInt8)
  /-- The data of Option 43, in which servers tell each other their weight. -/
  vendor : Option (List UInt8)
deriving DecidableEq

/-- `struct ipoe_serv`, as far as the handler reads it. -/
structure IpoeServ where
  optShared : Bool
  optCheckMacChange : Bool
  hwaddr : BitVec 48
  sessions : List IpoeSession
deriving DecidableEq

section

variable (serv : IpoeServ) (pack : DhcpPacket)

/-- What `ipoe_session_lookup` compares with: nothing when the check is off or the option is
malformed. -/
def packOpt82 : Opt82 :=
  if serv.optCheckMacChange then
    match pack.relayAgent with
    | some data => (dhcpv4ParseOpt82 data).getD .empty
    | none => .empty
  else .empty

/-- The comparison of one sub-option that both sides have, by length and then by content. -/
def sameValue (a b : Option (List UInt8)) : Bool :=
  match a, b with
  | some x, some y => x.length == y.length && x == y
  | _, _ => true

/-- `opt82_match` as the first pass computes it for one session. -/
def opt82Match (ses : IpoeSession) : Bool :=
  let id := packOpt82 serv pack
  let m := serv.optCheckMacChange && pack.relayAgent.isSome
  let m := if id.circuitId.isSome && ses.agentCircuitId.isNone then false else m
  let m := if m && id.remoteId.isSome && ses.agentRemoteId.isNone then false else m
  let m := if m && id.linkSelection.isSome && ses.linkSelection.isNone then false else m
  let m := if m && id.circuitId.isNone && ses.agentCircuitId.isSome then false else m
  let m := if m && id.remoteId.isNone && ses.agentRemoteId.isSome then false else m
  let m := if m && id.linkSelection.isNone && ses.linkSelection.isSome then false else m
  let m := if m && id.circuitId.isSome then sameValue id.circuitId ses.agentCircuitId else m
  let m := if m && id.remoteId.isSome then sameValue id.remoteId ses.agentRemoteId else m
  if m && id.linkSelection.isSome then sameValue id.linkSelection ses.linkSelection else m

/-- The body of the second pass: whether the session is taken, given the value `m` that
`opt82_match` still has. -/
def opt82Pick (m : Bool) (id : Opt82) (ses : IpoeSession) : Bool :=
  if id.circuitId.isSome && ses.agentCircuitId.isNone then false
  else if m && id.remoteId.isSome && ses.agentRemoteId.isNone then false
  else if m && id.linkSelection.isSome && ses.linkSelection.isNone then false
  else if m && id.circuitId.isNone && ses.agentCircuitId.isSome then false
  else if m && id.remoteId.isNone && ses.agentRemoteId.isSome then false
  else if m && id.linkSelection.isNone && ses.linkSelection.isSome then false
  else if m && id.circuitId.isSome && !sameValue id.circuitId ses.agentCircuitId then false
  else if m && id.remoteId.isSome && !sameValue id.remoteId ses.agentRemoteId then false
  else if m && id.linkSelection.isSome && !sameValue id.linkSelection ses.linkSelection then false
  else true

/-- What the first pass leaves behind. -/
structure PassResult where
  /-- The session with the MAC. -/
  res : Option ℕ
  /-- `*opt82_ses`. -/
  opt82Ses : Option ℕ
  /-- `opt82_match`. -/
  opt82Match : Bool

/-- The first pass, from position `i` on: `mac` and `same` are the two comparisons. -/
def lookupLoop (mac same : IpoeSession → Bool) :
    List IpoeSession → ℕ → Option ℕ → Bool → PassResult
  | [], _, opt82Ses, m => ⟨none, opt82Ses, m⟩
  | ses :: rest, i, opt82Ses, _ =>
    let m := same ses
    let opt82Ses := if m then some i else opt82Ses
    if mac ses then ⟨some i, opt82Ses, m⟩ else lookupLoop mac same rest (i + 1) opt82Ses m

/-- `ipoe_session_lookup` with a non-null `opt82_ses`: the session found and `*opt82_ses`. -/
def ipoeSessionLookup : Option ℕ × Option ℕ :=
  if serv.sessions.isEmpty then (none, none)
  else if !serv.optShared then (some 0, some 0)
  else
    let r := lookupLoop (fun ses ↦ ses.hwaddr == pack.chaddr) (opt82Match serv pack)
      serv.sessions 0 none false
    if r.res.isNone || pack.relayAgent.isNone || r.opt82Ses.isSome then (r.res, r.opt82Ses)
    else (r.res, serv.sessions.findIdx? (opt82Pick r.opt82Match (packOpt82 serv pack)))

/-! ### The handler -/

/-- What the handler sets off. -/
inductive Action where
  /-- `port_change_detected` on the session's context. -/
  | portChange (ses : ℕ)
  /-- `mac_change_detected` on the session's context. -/
  | macChange (ses : ℕ)
  /-- `__ipoe_session_terminate`. -/
  | ipoeSessionTerminate (ses : ℕ)
  /-- `__terminate`. -/
  | terminate (ses : ℕ)
  /-- `ipoe_session_terminated`: the last step of a terminated session. -/
  | sessionTerminated (ses : ℕ)
  /-- `ipoe_drop_sessions`. -/
  | dropSessions (skip : Option ℕ)
  /-- `ipoe_ses_recv_dhcpv4_discover`. -/
  | recvDiscover (ses : ℕ)
  /-- `ipoe_ses_recv_dhcpv4_request`. -/
  | recvRequest (ses : ℕ)
  /-- `ipoe_session_decline`. -/
  | decline (ses : ℕ)
  | nak (err : String)
  /-- `ipoe_serv_add_disc`: the discover is answered later. -/
  | delay
  /-- `ipoe_session_create_dhcpv4`. -/
  | create
deriving DecidableEq

/-- What the handler asks of its surroundings. -/
structure DhcpEnv where
  /-- `connlimit_check` refuses. -/
  connlimit : Bool
  apShutdown : Bool
  /-- `get_offer_delay`, in milliseconds; -1 for no offer at all. -/
  offerDelay : ℤ
  force : Bool
  /-- `disc_list`: the delayed discovers, by `xid` and client. -/
  discList : List (UInt32 × BitVec 48)
  /-- `ipoe_serv_request_check`. -/
  requestCheck : Bool
  /-- `conf_gw_addr`. -/
  gwAddr : List UInt32

/-- A number in network byte order. -/
def beNat (bytes : List UInt8) : ℕ :=
  bytes.foldl (fun n b ↦ 256 * n + b.toNat) 0

/-- `check_notify`: whether the packet is another server's message, and what follows from it. -/
def checkNotify : Option (List Action) :=
  match pack.vendor with
  | none => none
  | some data =>
    if data.length ≠ 14 then none
    else if beNat (data.take 4) ≠ 0xfd56b60a then none
    else
      let w := beNat ((data.drop 4).take 4)
      match serv.sessions.findIdx? fun ses ↦ ses.xid == pack.xid && ses.hwaddr == pack.chaddr with
      | none => some []
      | some i =>
        match serv.sessions[i]? with
        | none => some []
        | some ses =>
          if w < ses.weight || ses.weight == 0 ||
              (w == ses.weight && decide (serv.hwaddr.toNat < beNat (data.drop 8))) then
            some [.terminate i]
          else some []

/-- The two tests made on a session that was found, and what follows when neither objects. -/
def onFound (i : ℕ) (ses : IpoeSession) (opt82Ses : Option ℕ) (other : List Action) : List Action :=
  if serv.optCheckMacChange then
    if (opt82Ses.isSome && opt82Ses != some i) || (opt82Ses.isNone && pack.relayAgent.isSome) then
      .portChange i :: (match opt82Ses with
        | some j => [.ipoeSessionTerminate j]
        | none => [])
    else if ses.hwaddr ≠ pack.chaddr then [.macChange i]
    else other
  else other

/-- No session has the MAC: drop all sessions, or tell the one on this port. -/
def onMissing (opt82Ses : Option ℕ) : List Action :=
  if !serv.optShared then [.dropSessions none]
  else match opt82Ses with
    | some j => [.macChange j]
    | none => []

/-- The part of `__ipoe_recv_dhcpv4` for a DHCPDISCOVER. -/
def recvDiscover (env : DhcpEnv) (serv : IpoeServ) (pack : DhcpPacket) : List Action :=
  match checkNotify serv pack with
  | some actions => actions
  | none =>
    let (res, opt82Ses) := ipoeSessionLookup serv pack
    match res.bind fun i ↦ (serv.sessions[i]?).map (i, ·) with
    | none =>
      onMissing serv opt82Ses ++
        (if env.apShutdown then []
        else if env.offerDelay = -1 then []
        else if env.offerDelay ≠ 0 && !env.force then [.delay]
        else [.create])
    | some (i, ses) =>
      if ses.terminate then [.sessionTerminated i]
      else onFound serv pack i ses opt82Ses [.recvDiscover i]

/-- The part of `__ipoe_recv_dhcpv4` for a DHCPREQUEST. -/
def recvRequest (env : DhcpEnv) (serv : IpoeServ) (pack : DhcpPacket) : List Action :=
  if (pack.xid, pack.chaddr) ∈ env.discList then []
  else
    let (res, opt82Ses) := ipoeSessionLookup serv pack
    match res.bind fun i ↦ (serv.sessions[i]?).map (i, ·) with
    | none =>
      if pack.srcAddr ≠ 0 then [.nak "Session dosn't exist"]
      else if pack.serverId ≠ 0 ∧ pack.serverId ∈ env.gwAddr then [.nak "Wrong server id"]
      else
        onMissing serv opt82Ses ++
          (if !env.apShutdown && env.requestCheck then [.nak "Session doesn't exist"] else [])
    | some (i, ses) =>
      if ses.terminate then [.nak "Session was terminated", .sessionTerminated i]
      else
        onFound serv pack i ses opt82Ses
          ((if !serv.optShared then [.dropSessions (some i)] else []) ++ [.recvRequest i])

/-- `__ipoe_recv_dhcpv4`. -/
def ipoeRecvDhcpv4 (env : DhcpEnv) (serv : IpoeServ) (pack : DhcpPacket) : List Action :=
  if env.connlimit && pack.msgType == .discover then []
  else match pack.msgType with
    | .discover => recvDiscover env serv pack
    | .request => recvRequest env serv pack
    | .decline | .release =>
      match (ipoeSessionLookup serv pack).1 with
      | some i => [.decline i]
      | none => []

/-- The test of `ipoe_ses_recv_dhcpv4_request` after which the session is terminated: the client
talks to another server or about another address. -/
def wrongSession (ses : IpoeSession) : Bool :=
  (pack.serverId ≠ 0 && (pack.serverId != ses.siaddr || pack.requestIp != ses.yiaddr)) ||
    (pack.ciaddr ≠ 0 && pack.ciaddr != ses.yiaddr)

/-- Whether the action terminates session `i` of the list. -/
def Action.Terminates (i : ℕ) : Action → Prop
  | .portChange j | .macChange j | .ipoeSessionTerminate j | .terminate j
  | .sessionTerminated j | .decline j => i = j
  | .dropSessions skip => i < serv.sessions.length ∧ some i ≠ skip
  | .recvRequest j => i = j ∧ ∃ ses, serv.sessions[j]? = some ses ∧ wrongSession pack ses = true
  | .recvDiscover _ | .nak _ | .delay | .create => False

end

/-! ### The two passes -/

/-- A sub-option agrees when both sides lack it or both have it with the same value. -/
lemma sameValue_some (x y : List UInt8) : sameValue (some x) (some y) = decide (y = x) := by
  rw [sameValue, Bool.eq_iff_iff]
  simp only [Bool.and_eq_true, beq_iff_eq, decide_eq_true_iff]
  exact ⟨fun h ↦ h.2.symm, fun h ↦ ⟨congrArg length h.symm, h.symm⟩⟩

/-- **The first pass compares the whole identity.** -/
theorem opt82Match_eq {serv : IpoeServ} {pack : DhcpPacket} (ses : IpoeSession) :
    opt82Match serv pack ses =
      (serv.optCheckMacChange && pack.relayAgent.isSome && decide (ses.opt82 = packOpt82 serv pack))
    := by
  unfold opt82Match
  cases serv.optCheckMacChange && pack.relayAgent.isSome with
  | false => simp
  | true =>
    obtain ⟨mac, c, r, l, -, -, -, -, -⟩ := ses
    obtain ⟨c', r', l'⟩ := packOpt82 serv pack
    rcases c with - | c <;> rcases c' with - | c' <;> rcases r with - | r <;>
      rcases r' with - | r' <;> rcases l with - | l <;> rcases l' with - | l' <;>
      simp [IpoeSession.opt82, sameValue_some]
    by_cases hc : c = c' <;> by_cases hr : r = r' <;> simp [hc, hr]

/-- **What is left of the comparison in the second pass**, with the flag down. -/
theorem opt82Pick_false (id : Opt82) (ses : IpoeSession) :
    opt82Pick false id ses = (id.circuitId.isNone || ses.agentCircuitId.isSome) := by
  rcases id with ⟨- | c, r, l⟩ <;> rcases h : ses.agentCircuitId <;> simp [opt82Pick, h]

section Loop

variable {mac same : IpoeSession → Bool}

/-- The last position, counted from `i`, of a session that matches; `o` when there is none. -/
def lastSame (same : IpoeSession → Bool) : List IpoeSession → ℕ → Option ℕ → Option ℕ
  | [], _, o => o
  | ses :: rest, i, o => lastSame same rest (i + 1) (if same ses then some i else o)

variable {l : List IpoeSession}

lemma lastSame_spec (l : List IpoeSession) (i : ℕ) (o : Option ℕ) :
    (lastSame same l i o = o ∧ ∀ ses ∈ l, same ses = false) ∨
      ∃ j ses, l[j]? = some ses ∧ same ses = true ∧ lastSame same l i o = some (i + j) := by
  induction l generalizing i o with
  | nil => exact .inl ⟨rfl, nofun⟩
  | cons ses rest ih =>
    rw [lastSame]
    rcases ih (i + 1) (if same ses then some i else o) with ⟨h, hrest⟩ | ⟨j, ses', hj, hsame, h⟩
    · rcases hs : same ses with - | -
      · rw [hs] at h
        exact .inl ⟨h, forall_mem_cons.mpr ⟨hs, hrest⟩⟩
      · rw [hs] at h
        exact .inr ⟨0, ses, rfl, hs, h⟩
    · refine .inr ⟨j + 1, ses', hj, hsame, ?_⟩
      rw [h, Nat.add_assoc, Nat.add_comm 1 j]

/-- What is remembered matched, and nothing is remembered only when nothing matched. -/
lemma lastSame_cases (l : List IpoeSession) :
    (lastSame same l 0 none = none ∧ ∀ ses ∈ l, same ses = false) ∨
      ∃ j ses, l[j]? = some ses ∧ same ses = true ∧ lastSame same l 0 none = some j := by
  simpa only [Nat.zero_add] using lastSame_spec l 0 none

/-- Without a session to stop at, the first pass goes through the whole list. -/
lemma lookupLoop_missing (h : ∀ ses ∈ l, mac ses = false) (i : ℕ) (o : Option ℕ) (m : Bool) :
    (lookupLoop mac same l i o m).res = none ∧
      (lookupLoop mac same l i o m).opt82Ses = lastSame same l i o := by
  induction l generalizing i o m with
  | nil => exact ⟨rfl, rfl⟩
  | cons ses rest ih =>
    have hhead : mac ses = false := h ses mem_cons_self
    simp only [lookupLoop, hhead, lastSame]
    exact ih (fun x hx ↦ h x (mem_cons_of_mem _ hx)) (i + 1) _ _

/-- **The first pass stops at the first session with the MAC**, with the flag of that session. -/
theorem lookupLoop_spec {pre post : List IpoeSession} {ses : IpoeSession}
    (hpre : ∀ x ∈ pre, mac x = false) (hses : mac ses = true) (i : ℕ) (o : Option ℕ) (m : Bool) :
    lookupLoop mac same (pre ++ ses :: post) i o m =
      ⟨some (i + pre.length),
        if same ses then some (i + pre.length) else lastSame same pre i o, same ses⟩ := by
  induction pre generalizing i o m with
  | nil =>
    rw [nil_append, lookupLoop]
    simp only [hses, if_true]
    rfl
  | cons x rest ih =>
    have hx : mac x = false := hpre x mem_cons_self
    rw [cons_append, lookupLoop]
    simp only [hx, lastSame]
    rw [if_neg Bool.false_ne_true, ih (fun y hy ↦ hpre y (mem_cons_of_mem _ hy)),
      length_cons, Nat.add_assoc, Nat.add_comm 1 rest.length]

end Loop

/-! ### The results of a lookup -/

variable (env : DhcpEnv) (serv : IpoeServ) (pack : DhcpPacket)

/-- The client's session: the first of the list with the packet's MAC. -/
structure ClientSession (i : ℕ) (ses : IpoeSession) : Prop where
  get : serv.sessions[i]? = some ses
  mac : ses.hwaddr = pack.chaddr
  first : ∀ j < i, ∀ ses', serv.sessions[j]? = some ses' → ses'.hwaddr ≠ pack.chaddr

/-- Position `i` holds a session with exactly the packet's Option 82 identity. -/
def SameOpt82 (i : ℕ) : Prop :=
  ∃ ses, serv.sessions[i]? = some ses ∧ ses.opt82 = packOpt82 serv pack

/-- The session the second pass takes: the first with a circuit id if the packet has one, and
otherwise the first of the list. -/
def secondPass : Option ℕ :=
  serv.sessions.findIdx? fun ses ↦
    (packOpt82 serv pack).circuitId.isNone || ses.agentCircuitId.isSome

/-- **What `opt82_ses` is** when the client's session is at position `i`. -/
inductive Opt82Result (i : ℕ) : Option ℕ → Prop where
  | noOption : pack.relayAgent = none → Opt82Result i none
  | own : pack.relayAgent.isSome = true → SameOpt82 serv pack i → Opt82Result i (some i)
  | earlier (j : ℕ) : pack.relayAgent.isSome = true → ¬ SameOpt82 serv pack i → j < i →
      SameOpt82 serv pack j → Opt82Result i (some j)
  | second : pack.relayAgent.isSome = true → (∀ j ≤ i, ¬ SameOpt82 serv pack j) →
      Opt82Result i (secondPass serv pack)

variable {serv pack} {i : ℕ} {ses : IpoeSession}

section

variable (h : ClientSession serv pack i ses)

include h

/-- A client's session cuts the list in two. -/
lemma ClientSession.split :
    ∃ pre post, serv.sessions = pre ++ ses :: post ∧ pre.length = i ∧
      ∀ x ∈ pre, (x.hwaddr == pack.chaddr) = false := by
  obtain ⟨hi, hget⟩ := List.getElem?_eq_some_iff.mp h.get
  refine ⟨serv.sessions.take i, serv.sessions.drop (i + 1), ?_, ?_, ?_⟩
  · rw [← hget, List.getElem_cons_drop hi, List.take_append_drop]
  · exact length_take_of_le (le_of_lt hi)
  intro x hx
  obtain ⟨j, hj, rfl⟩ := mem_iff_getElem.mp hx
  have hji : j < i := lt_of_lt_of_le hj (length_take_le _ _)
  rw [beq_eq_false_iff_ne]
  refine h.first j hji _ ?_
  rw [getElem?_eq_getElem (lt_trans hji hi), getElem_take]

lemma ClientSession.sameOpt82_iff : SameOpt82 serv pack i ↔ ses.opt82 = packOpt82 serv pack := by
  rw [SameOpt82, h.get]
  simp only [some.injEq, exists_eq_left']

lemma sessions_ne_nil : serv.sessions.isEmpty = false := by
  obtain ⟨hi, -⟩ := List.getElem?_eq_some_iff.mp h.get
  rw [List.isEmpty_eq_false_iff, ← List.length_pos_iff]
  omega

end

section

variable (hshared : serv.optShared = true) (hcheck : serv.optCheckMacChange = true)

include hcheck

lemma opt82Match_eq_true_iff :
    opt82Match serv pack ses = true ↔
      pack.relayAgent.isSome = true ∧ ses.opt82 = packOpt82 serv pack := by
  rw [opt82Match_eq, hcheck, Bool.true_and, Bool.and_eq_true, decide_eq_true_iff]

include hshared

/-- **A lookup that finds the client's session.** -/
theorem lookup_found (h : ClientSession serv pack i ses) :
    ∃ o, ipoeSessionLookup serv pack = (some i, o) ∧ Opt82Result serv pack i o := by
  obtain ⟨pre, post, hsplit, hlen, hpre⟩ := h.split
  have hloop := @lookupLoop_spec _ (opt82Match serv pack) pre post ses hpre
    (beq_iff_eq.mpr h.mac) 0 none false
  rw [← hsplit, Nat.zero_add, hlen] at hloop
  rw [ipoeSessionLookup]
  rw [sessions_ne_nil h, hshared, hloop]
  dsimp only
  rcases hr : pack.relayAgent with - | data
  · -- without Option 82 nothing matches, and there is no second pass
    have hno (x : IpoeSession) : opt82Match serv pack x = false := by
      rw [← Bool.not_eq_true, opt82Match_eq_true_iff hcheck, hr]
      exact fun hx ↦ Bool.false_ne_true hx.1
    rw [hno]
    rcases @lastSame_cases (opt82Match serv pack) pre with ⟨hlast, -⟩ | ⟨j, x, -, hx, -⟩
    · rw [hlast]
      exact ⟨none, rfl, .noOption hr⟩
    · nomatch (hno x).symm.trans hx
  · have hsome : pack.relayAgent.isSome = true := by rw [hr]; rfl
    by_cases hown : ses.opt82 = packOpt82 serv pack
    · rw [(opt82Match_eq_true_iff hcheck).mpr ⟨hsome, hown⟩]
      exact ⟨some i, rfl, .own hsome (h.sameOpt82_iff.mpr hown)⟩
    have hflag : opt82Match serv pack ses = false := by
      rw [← Bool.not_eq_true, opt82Match_eq_true_iff hcheck]
      exact fun hx ↦ hown hx.2
    have hgetpre (j : ℕ) (hj : j < i) : serv.sessions[j]? = pre[j]? := by
      rw [hsplit, getElem?_append_left (hlen.symm ▸ hj)]
    rw [hflag]
    -- the flag is down now, and with it every comparison of the second pass but one
    rcases @lastSame_cases (opt82Match serv pack) pre with ⟨hlast, hno⟩ | ⟨j, x, hx, hxsame, hlast⟩
    · rw [hlast]
      refine ⟨secondPass serv pack, ?_, .second hsome ?_⟩
      · have hpick : opt82Pick false (packOpt82 serv pack) = fun ses ↦
            (packOpt82 serv pack).circuitId.isNone || ses.agentCircuitId.isSome :=
          funext (opt82Pick_false _)
        rw [hpick]
        rfl
      · rintro j hj ⟨x, hx, hxsame⟩
        rcases Nat.lt_or_eq_of_le hj with hlt | rfl
        · rw [hgetpre j hlt] at hx
          nomatch (hno x (mem_of_getElem? hx)).symm.trans
            ((opt82Match_eq_true_iff hcheck).mpr ⟨hsome, hxsame⟩)
        · rw [h.get] at hx
          exact hown (Option.some.inj hx ▸ hxsame)
    · rw [hlast]
      have hlt : j < i := hlen ▸ (List.getElem?_eq_some_iff.mp hx).1
      have hnot : ¬ SameOpt82 serv pack i := fun hs ↦ hown (h.sameOpt82_iff.mp hs)
      refine ⟨some j, rfl, .earlier j hsome hnot hlt ⟨x, ?_, ?_⟩⟩
      · rw [hgetpre j hlt, hx]
      · exact ((opt82Match_eq_true_iff hcheck).mp hxsame).2

/-- **A lookup that finds no session of the client**: the one it reports is on the same port. -/
theorem lookup_missing (h : ∀ i ses, ¬ ClientSession serv pack i ses) :
    ∃ o, ipoeSessionLookup serv pack = (none, o) ∧
      ∀ j, o = some j → pack.relayAgent.isSome = true ∧ SameOpt82 serv pack j := by
  have hmac : ∀ ses ∈ serv.sessions, (ses.hwaddr == pack.chaddr) = false := by
    intro ses hses
    by_contra hne
    rw [Bool.not_eq_false] at hne
    -- the first session with the MAC would be the client's
    have hlt := findIdx_lt_length_of_exists (p := (·.hwaddr == pack.chaddr)) ⟨ses, hses, hne⟩
    refine h _ _ ⟨getElem?_eq_getElem hlt, beq_iff_eq.mp (findIdx_getElem (w := hlt)), ?_⟩
    intro j hj y hy hyx
    obtain ⟨hj', rfl⟩ := List.getElem?_eq_some_iff.mp hy
    exact beq_eq_false_iff_ne.mp (not_of_lt_findIdx hj) hyx
  rw [ipoeSessionLookup]
  by_cases hempty : serv.sessions.isEmpty = true
  · rw [if_pos hempty]
    exact ⟨none, rfl, fun j hj ↦ absurd hj.symm (some_ne_none j)⟩
  obtain ⟨hres, hopt⟩ := @lookupLoop_missing _ (opt82Match serv pack) _ hmac 0 none false
  refine ⟨lastSame (opt82Match serv pack) serv.sessions 0 none, ?_, fun j hj ↦ ?_⟩
  · rw [if_neg hempty, hshared, Bool.not_true]
    dsimp only
    rw [hres, hopt]
    rfl
  rcases @lastSame_cases (opt82Match serv pack) serv.sessions with ⟨hlast, -⟩ |
    ⟨k, x, hx, hxsame, hlast⟩
  · nomatch hlast.symm.trans hj
  · obtain rfl : k = j := mem_unique hlast hj
    obtain ⟨hsome, hsame⟩ := (opt82Match_eq_true_iff hcheck).mp hxsame
    exact ⟨hsome, x, hx, hsame⟩

end

/-! ### What the handler does with them -/

variable (serv pack)

/-- The packet gets as far as the lookup: it is not refused by `connlimit`, not another server's
message, and not the second half of a discover that is still delayed. -/
def LooksUp : Prop :=
  match pack.msgType with
  | .discover => env.connlimit = false ∧ checkNotify serv pack = none
  | .request => (pack.xid, pack.chaddr) ∉ env.discList
  | .decline | .release => False

/-- Session `i` belongs to the packet's subscriber: by the MAC, or by exactly the Option 82
identity. -/
def Own (i : ℕ) : Prop :=
  (∃ ses, serv.sessions[i]? = some ses ∧ ses.hwaddr = pack.chaddr) ∨
    (pack.relayAgent.isSome = true ∧ SameOpt82 serv pack i)

/-- **The packet disturbs its own subscriber only, and every change of port is seen.** -/
def DisturbsOnlyOwn : Prop :=
  (∀ a ∈ ipoeRecvDhcpv4 env serv pack, ∀ i, a.Terminates serv pack i → Own serv pack i) ∧
  ∀ i ses, ClientSession serv pack i ses → ses.opt82 ≠ packOpt82 serv pack →
    .portChange i ∈ ipoeRecvDhcpv4 env serv pack

/-- **The condition on list and packet.** If the client's session has another identity than the
packet, then the packet has Option 82 and gets as far as the lookup, the session is still there, and
a second pass finds no session, or one further down the list that is the subscriber's. -/
def MoveSafe : Prop :=
  ∀ i ses, ClientSession serv pack i ses → ses.opt82 ≠ packOpt82 serv pack →
    (LooksUp env serv pack ∧ ses.terminate = false ∧ pack.relayAgent.isSome = true) ∧
    ((∀ j < i, ¬ SameOpt82 serv pack j) → ∀ p, secondPass serv pack = some p →
      i < p ∧ Own serv pack p)

variable {env serv pack}

lemma ClientSession.own (h : ClientSession serv pack i ses) : Own serv pack i :=
  .inl ⟨ses, h.get, h.mac⟩

variable {a : Action} {o : Option ℕ} {j p : ℕ}

/-- The action ends the subscriber's sessions only, and is not about a change of port. -/
def Quiet (serv : IpoeServ) (pack : DhcpPacket) (a : Action) : Prop :=
  (∀ j, a.Terminates serv pack j → Own serv pack j) ∧ ∀ k, a ≠ .portChange k

/-- A message of another server is about the client's session only. -/
lemma quiet_of_checkNotify {actions : List Action} (h : checkNotify serv pack = some actions)
    (ha : a ∈ actions) : Quiet serv pack a := by
  have hcases : actions = [] ∨ ∃ k, actions = [.terminate k] ∧ serv.sessions.findIdx?
      (fun ses ↦ ses.xid == pack.xid && ses.hwaddr == pack.chaddr) = some k := by
    unfold checkNotify at h
    grind
  rcases hcases with rfl | ⟨k, rfl, hfind⟩
  · nomatch ha
  · obtain rfl := mem_singleton.mp ha
    obtain ⟨hk, hmatch, -⟩ := findIdx?_eq_some_iff_getElem.mp hfind
    have hmac := beq_iff_eq.mp (Bool.and_eq_true_iff.mp hmatch).2
    exact ⟨fun j hj ↦ .inl ⟨_, hj ▸ getElem?_eq_getElem hk, hmac⟩, nofun⟩

/-- The handler, once the client's session has been found and is not terminated yet. -/
lemma actions_found (hlook : LooksUp env serv pack) (hshared : serv.optShared = true)
    (hres : ipoeSessionLookup serv pack = (some i, o)) (hget : serv.sessions[i]? = some ses)
    (hterm : ses.terminate = false) :
    ∃ a, (a = .recvDiscover i ∨ a = .recvRequest i) ∧
      ipoeRecvDhcpv4 env serv pack = onFound serv pack i ses o [a] := by
  rw [LooksUp] at hlook
  rw [ipoeRecvDhcpv4]
  rcases hmsg : pack.msgType with - | - | - | - <;> simp only [hmsg] at hlook
  · refine ⟨.recvDiscover i, .inl rfl, ?_⟩
    simp [recvDiscover, hlook, hres, hget, hterm]
  · refine ⟨.recvRequest i, .inr rfl, ?_⟩
    simp [recvRequest, hlook, hres, hget, hterm, hshared]

section

variable (ha : a ∈ ipoeRecvDhcpv4 env serv pack)

include ha

/-- The handler, when the session found has been terminated already. -/
lemma quiet_terminated (hlook : LooksUp env serv pack) (h : ClientSession serv pack i ses)
    (hres : ipoeSessionLookup serv pack = (some i, o)) (hterm : ses.terminate = true) :
    Quiet serv pack a := by
  have hown : Quiet serv pack (.sessionTerminated i) := ⟨fun j hj ↦ hj ▸ h.own, nofun⟩
  rw [LooksUp] at hlook
  rw [ipoeRecvDhcpv4] at ha
  rcases hmsg : pack.msgType with - | - | - | - <;> simp only [hmsg] at hlook ha
  · simp [recvDiscover, hlook, hres, h.get, hterm] at ha
    exact ha ▸ hown
  · simp [recvRequest, hlook, hres, h.get, hterm] at ha
    rcases ha with rfl | rfl
    · exact ⟨nofun, nofun⟩
    · exact hown

/-- Before the lookup, only the client's own session is concerned. -/
lemma quiet_of_not_looksUp (hlook : ¬ LooksUp env serv pack)
    (hmsg : pack.msgType = .discover ∨ pack.msgType = .request) : Quiet serv pack a := by
  rw [LooksUp] at hlook
  rw [ipoeRecvDhcpv4] at ha
  rcases hmsg with hmsg | hmsg <;>
    simp only [hmsg, reduceCtorEq, beq_iff_eq, Bool.and_eq_true, and_false, if_false] at hlook ha
  · rcases hconn : env.connlimit with - | -
    · rw [hconn, recvDiscover] at ha
      rcases hnote : checkNotify serv pack with - | actions
      · exact absurd ⟨hconn, hnote⟩ hlook
      · rw [hnote] at ha
        exact quiet_of_checkNotify hnote ha
    · rw [hconn] at ha
      nomatch ha
  · rw [recvRequest, if_pos (not_not.mp hlook)] at ha
    nomatch ha

/-- The handler, when no session has the MAC. -/
lemma actions_missing (hj : a.Terminates serv pack j) (hlook : LooksUp env serv pack)
    (hshared : serv.optShared = true) (hres : ipoeSessionLookup serv pack = (none, o)) :
    o = some j := by
  have hmissing : a ∈ onMissing serv o → o = some j := by
    unfold onMissing
    rw [hshared, Bool.not_true]
    rcases o with - | k
    · exact fun h ↦ absurd h not_mem_nil
    · intro h
      obtain rfl := mem_singleton.mp h
      exact congrArg some (Eq.symm hj)
  have hnak {err : String} (ha : a ∈ [Action.nak err]) : o = some j := by
    rw [mem_singleton.mp ha] at hj
    exact hj.elim
  rw [LooksUp] at hlook
  rw [ipoeRecvDhcpv4] at ha
  rcases hmsg : pack.msgType with - | - | - | - <;> simp only [hmsg] at hlook ha
  · simp only [hlook, Bool.false_and, Bool.false_eq_true, if_false, recvDiscover, hres,
      bind_none] at ha
    rcases mem_append.mp ha with ha | ha
    · exact hmissing ha
    · repeat' split at ha
      all_goals first
        | exact absurd ha not_mem_nil
        | (rw [mem_singleton.mp ha] at hj; exact hj.elim)
  · simp only [recvRequest, if_neg hlook, hres, bind_none, reduceCtorEq, beq_iff_eq,
      Bool.and_eq_true, and_false, if_false] at ha
    split at ha
    · exact hnak ha
    split at ha
    · exact hnak ha
    rcases mem_append.mp ha with ha | ha
    · exact hmissing ha
    · split at ha
      · exact hnak ha
      · nomatch ha

end

/-- The client has one session. -/
lemma ClientSession.forall_iff (h : ClientSession serv pack i ses) {P : ℕ → IpoeSession → Prop} :
    (∀ j x, ClientSession serv pack j x → P j x) ↔ P i ses := by
  refine ⟨fun hall ↦ hall i ses h, fun hi j x hx ↦ ?_⟩
  obtain rfl : i = j := by
    rcases lt_trichotomy i j with hlt | heq | hgt
    · exact absurd h.mac (hx.first i hlt ses h.get)
    · exact heq
    · exact absurd hx.mac (h.first j hgt x hx.get)
  exact mem_unique h.get hx.get ▸ hi

/-- The two demands on what the handler sets off, for the client's session at position `i`: only the
subscriber's sessions are terminated, and a changed port is reported. -/
def OnlyOwnAt (serv : IpoeServ) (pack : DhcpPacket) (i : ℕ) (actions : List Action) : Prop :=
  (∀ a ∈ actions, ∀ j, a.Terminates serv pack j → Own serv pack j) ∧
    (¬ SameOpt82 serv pack i → .portChange i ∈ actions)

/-- The second pass is not made, or does no harm. -/
def SafeAt (serv : IpoeServ) (pack : DhcpPacket) (i : ℕ) : Prop :=
  ¬ SameOpt82 serv pack i → pack.relayAgent.isSome = true ∧
    ((∀ j < i, ¬ SameOpt82 serv pack j) → ∀ p, secondPass serv pack = some p →
      i < p ∧ Own serv pack p)

/-- Both the client's session and session `p` are terminated, the first for its changed port. -/
lemma ClientSession.onlyOwnAt_pair_iff (h : ClientSession serv pack i ses) :
    OnlyOwnAt serv pack i [.portChange i, .ipoeSessionTerminate p] ↔ Own serv pack p := by
  constructor
  · exact fun hown ↦ hown.1 (.ipoeSessionTerminate p)
      (mem_cons_of_mem _ (mem_singleton_self _)) p rfl
  refine fun hown ↦ ⟨?_, fun _ ↦ mem_cons_self⟩
  rw [forall_mem_cons, forall_mem_singleton]
  exact ⟨fun _ hk ↦ hk ▸ h.own, fun _ hk ↦ hk ▸ hown⟩

section

variable (hcheck : serv.optCheckMacChange = true)

include hcheck

/-- When `opt82_ses` is the session itself or there is no Option 82, the packet is handed on. -/
lemma onFound_accept (hmac : ses.hwaddr = pack.chaddr)
    (h : o = some i ∨ o = none ∧ pack.relayAgent = none) (other : List Action) :
    onFound serv pack i ses o other = other := by
  rcases h with rfl | ⟨rfl, hr⟩
  · simp [onFound, hcheck, hmac]
  · simp [onFound, hcheck, hmac, hr]

/-- When `opt82_ses` is another session, both are terminated. -/
lemma onFound_other (hp : p ≠ i) (other : List Action) :
    onFound serv pack i ses (some p) other = [.portChange i, .ipoeSessionTerminate p] := by
  simp [onFound, hcheck, hp]

variable (h : ClientSession serv pack i ses)

include h

/-- **After the second pass.** -/
theorem ClientSession.second_iff (hr : pack.relayAgent.isSome = true)
    (hnone : ∀ j ≤ i, ¬ SameOpt82 serv pack j) {b : Action} (hb : .portChange i ≠ b) :
    OnlyOwnAt serv pack i (onFound serv pack i ses (secondPass serv pack) [b]) ↔
      SafeAt serv pack i := by
  have hsafe : SafeAt serv pack i ↔ ∀ p, secondPass serv pack = some p →
      i < p ∧ Own serv pack p := by
    rw [SafeAt, forall_prop_of_true (hnone i (le_refl i)), and_iff_right hr]
    exact forall_prop_of_true fun j hj ↦ hnone j (le_of_lt hj)
  rw [hsafe]
  rcases secondPass serv pack with - | p
  · rw [show onFound serv pack i ses none [b] = [.portChange i] by simp [onFound, hcheck, hr]]
    exact iff_of_true ⟨forall_mem_singleton.mpr fun _ hk ↦ hk ▸ h.own, fun _ ↦ mem_cons_self⟩ nofun
  · simp only [some.injEq, forall_eq']
    by_cases hpi : p = i
    · -- the second pass takes the client's own session for the one on the port
      subst hpi
      rw [onFound_accept hcheck h.mac (.inl rfl)]
      refine iff_of_false (fun hown ↦ ?_) fun hlt ↦ lt_irrefl p hlt.1
      exact hb (mem_singleton.mp (hown.2 (hnone p (le_refl p))))
    · rw [onFound_other hcheck hpi, h.onlyOwnAt_pair_iff]
      refine ⟨fun hown ↦ ⟨?_, hown⟩, fun hown ↦ hown.2⟩
      by_contra hge
      -- nothing before the client's session has its MAC
      rcases hown with ⟨x, hget, hmac⟩ | ⟨-, hs⟩
      · exact h.first p (by omega) x hget hmac
      · exact hnone p (by omega) hs

/-- **The client's session was found**: the demands and the condition, for each value of
`opt82_ses`. -/
theorem ClientSession.found_iff (ho : Opt82Result serv pack i o) {b : Action}
    (hb : .portChange i ≠ b) (hown : ∀ j, b.Terminates serv pack j → Own serv pack j) :
    OnlyOwnAt serv pack i (onFound serv pack i ses o [b]) ↔ SafeAt serv pack i := by
  have hhanded : ∀ a ∈ [b], ∀ j, a.Terminates serv pack j → Own serv pack j :=
    forall_mem_singleton.mpr hown
  rcases ho with hr | ⟨hr, hsame⟩ | ⟨j, hr, hsame, hlt, hj⟩ | ⟨hr, hnone⟩
  -- no Option 82, the client's own port, a port with an earlier session, and the second pass
  · rw [onFound_accept hcheck h.mac (.inr ⟨rfl, hr⟩), OnlyOwnAt, and_iff_right hhanded, SafeAt]
    refine forall_congr' fun _ ↦ iff_of_false (fun hmem ↦ hb (mem_singleton.mp hmem)) fun hs ↦ ?_
    rw [hr] at hs
    nomatch hs.1
  · rw [onFound_accept hcheck h.mac (.inl rfl)]
    exact iff_of_true ⟨hhanded, fun hs ↦ absurd hsame hs⟩ fun hs ↦ absurd hsame hs
  · rw [onFound_other hcheck (Nat.ne_of_lt hlt), h.onlyOwnAt_pair_iff]
    exact iff_of_true (.inr ⟨hr, hj⟩) fun _ ↦ ⟨hr, fun hs ↦ absurd hj (hs j hlt)⟩
  · exact h.second_iff hcheck hr hnone hb

end

/-- **Whom a packet disturbs**: in shared mode, with the check for changed MACs on, a discover or
request disturbs its own subscriber only and every change of port is seen, if and only if the client
has not moved or its move is safe. -/
theorem disturbs_only_own_iff (env : DhcpEnv) (serv : IpoeServ) (pack : DhcpPacket)
    (hshared : serv.optShared = true) (hcheck : serv.optCheckMacChange = true)
    (hmsg : pack.msgType = .discover ∨ pack.msgType = .request) :
    DisturbsOnlyOwn env serv pack ↔ MoveSafe env serv pack := by
  by_cases hc : ∃ i ses, ClientSession serv pack i ses
  swap
  · -- a client without a session can only end the one that holds its port
    have hno : ∀ i ses, ¬ ClientSession serv pack i ses := fun i ses h ↦ hc ⟨i, ses, h⟩
    obtain ⟨o, hres, ho⟩ := lookup_missing hshared hcheck hno
    refine iff_of_true ⟨fun a ha i hi ↦ ?_, fun i ses h ↦ absurd h (hno i ses)⟩
      fun i ses h ↦ absurd h (hno i ses)
    by_cases hlook : LooksUp env serv pack
    · exact .inr (ho i (actions_missing ha hi hlook hshared hres))
    · exact (quiet_of_not_looksUp ha hlook hmsg).1 i hi
  obtain ⟨i, ses, hcs⟩ := hc
  obtain ⟨o, hres, ho⟩ := lookup_found hshared hcheck hcs
  rw [DisturbsOnlyOwn, MoveSafe, hcs.forall_iff, hcs.forall_iff, ne_eq, ← hcs.sameOpt82_iff]
  by_cases hgoes : LooksUp env serv pack ∧ ses.terminate = false
  · obtain ⟨hlook, hterm⟩ := hgoes
    obtain ⟨b, hb, hactions⟩ := actions_found hlook hshared hres hcs.get hterm
    rw [hactions, and_iff_right hlook, and_iff_right hterm]
    refine hcs.found_iff hcheck ho ?_ fun j hj ↦ ?_
    · rcases hb with rfl | rfl <;> exact Action.noConfusion
    rcases hb with rfl | rfl
    · exact hj.elim
    · rw [hj.1]
      exact hcs.own
  · -- before the lookup, or when the session is on its way out, no change of port is seen
    have hquiet : ∀ a ∈ ipoeRecvDhcpv4 env serv pack, Quiet serv pack a := fun a ha ↦ by
      by_cases hlook : LooksUp env serv pack
      · refine quiet_terminated ha hlook hcs hres ?_
        rw [← Bool.not_eq_false]
        exact fun hterm ↦ hgoes ⟨hlook, hterm⟩
      · exact quiet_of_not_looksUp ha hlook hmsg
    refine ⟨fun h hs ↦ absurd rfl ((hquiet _ (h.2 hs)).2 i), fun h ↦ ⟨fun a ha ↦ (hquiet a ha).1,
      fun hs ↦ ?_⟩⟩
    obtain ⟨⟨hlook, hterm, -⟩, -⟩ := h hs
    exact absurd ⟨hlook, hterm⟩ hgoes

/-- A session on port `port` with client address `mac`, for the concrete lists below. -/
def portSession (mac : BitVec 48) (port : UInt8) : IpoeSession where
  hwaddr := mac
  agentCircuitId := some [port]
  agentRemoteId := none
  linkSelection := none
  terminate := false
  xid := 0
  weight := 1
  siaddr := 0x0a000001
  yiaddr := 0x0a000002

/-- A discover of client `mac` that the relay agent has received on port `port`. -/
def portDiscover (mac : BitVec 48) (port : UInt8) : DhcpPacket where
  msgType := .discover
  chaddr := mac
  xid := 7
  ciaddr := 0
  srcAddr := 0
  serverId := 0
  requestIp := 0
  relayAgent := some [1, 1, port]
  vendor := none

def sharedServ (sessions : List IpoeSession) : IpoeServ where
  optShared := true
  optCheckMacChange := true
  hwaddr := 0xaa
  sessions := sessions

def plainEnv : DhcpEnv where
  connlimit := false
  apShutdown := false
  offerDelay := 0
  force := false
  discList := []
  requestCheck := false
  gwAddr := []

/-- A client that comes back on the port of its session: no second pass, and nothing is disturbed.
-/
theorem disturbs_only_own_same_port :
    (sharedServ [portSession 1 1, portSession 2 2]).optShared = true ∧
      (sharedServ [portSession 1 1, portSession 2 2]).optCheckMacChange = true ∧
      DisturbsOnlyOwn plainEnv (sharedServ [portSession 1 1, portSession 2 2])
        (portDiscover 2 2) := by
  refine ⟨rfl, rfl, (disturbs_only_own_iff plainEnv _ _ rfl rfl (.inl rfl)).mpr ?_⟩
  have hclient : ClientSession (sharedServ [portSession 1 1, portSession 2 2]) (portDiscover 2 2) 1
      (portSession 2 2) := by
    refine ⟨rfl, rfl, fun j hj ses' hget ↦ ?_⟩
    obtain rfl : j = 0 := by omega
    obtain rfl : portSession 1 1 = ses' := some.inj hget
    decide
  exact hclient.forall_iff.mpr fun hmoved ↦ absurd (by decide) hmoved

/-- **Client 2 moves** from port 2 to port 3, where nobody is: the session of client 1 on port 1 is
terminated. When its own session is the first of the list, or the packet has no Option 82, the move
is not noticed. -/
theorem moved_client_disturbs_stranger :
    ¬ DisturbsOnlyOwn plainEnv (sharedServ [portSession 1 1, portSession 2 2]) (portDiscover 2 3) ∧
      ¬ DisturbsOnlyOwn plainEnv (sharedServ [portSession 2 2]) (portDiscover 2 3) ∧
      ¬ DisturbsOnlyOwn plainEnv (sharedServ [portSession 2 2])
        { portDiscover 2 3 with relayAgent := none } := by
  refine ⟨?_, ?_, ?_⟩
  · rintro ⟨hown, -⟩
    have hmem : Action.ipoeSessionTerminate 0 ∈ ipoeRecvDhcpv4 plainEnv
        (sharedServ [portSession 1 1, portSession 2 2]) (portDiscover 2 3) := by decide
    rcases hown _ hmem 0 rfl with ⟨ses, hget, hmac⟩ | ⟨-, ses, hget, hsame⟩
    · obtain rfl : portSession 1 1 = ses := some.inj hget
      exact absurd hmac (by decide)
    · obtain rfl : portSession 1 1 = ses := some.inj hget
      exact absurd hsame (by decide)
  all_goals
    rintro ⟨-, hport⟩
    have hmem := hport 0 (portSession 2 2) ⟨rfl, rfl, nofun⟩ (by decide)
    exact absurd hmem (by decide)

end AccelPpp.Ipoe
