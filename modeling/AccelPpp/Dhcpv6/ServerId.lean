import AccelPpp.Dhcpv6.WellFormed
import AccelPpp.Lib.Run

/-!
# Which server a message is for

In a Request, a Renew, a Release or a Decline a client puts the Server-ID of the server it has
chosen. A server must not touch what is meant for another one, and puts its own Server-ID into
everything it sends (`Identified`).

Solicit, Rebind and Confirm are refused if they name any server, and a Renew is compared with the
configured Server-ID. A Request is not: `dhcpv6_recv_request` wants a Server-ID to be there and
looks no further, so it binds the client and answers in the name of the other server
(`request_for_other_server`). An Information-Request is answered whatever it names. And of several
Server-ID options only the last one is looked at. Messages that are not of these kinds are treated
rightly (`always_identified`).
-/

open List Option Tlv

namespace AccelPpp.Dhcpv6

open Transition

section

variable (conf : Conf) (b : Bound) (g : Datagram)

/-- The message names a server other than this one. -/
def NamesOther (req : Packet) : Prop :=
  ∃ opt ∈ req.opts, opt.code = Code.serverid ∧ opt.data ≠ conf.serverid.toList

/-- The message names no server. -/
def NamesNone (req : Packet) : Prop :=
  ∀ opt ∈ req.opts, opt.code ≠ Code.serverid

/-- The messages that must name a server. -/
def MsgType.mustName : MsgType → Bool
  | .request | .renew | .release | .decline => true
  | _ => false

/-- The datagram is not answered, and nothing that is bound changes. -/
def Ignored : Prop :=
  (read conf b g).1 = none ∧ (read conf b g).2.pd = b.pd ∧ (read conf b g).2.ses = b.ses

/-- A datagram is treated as its Server-ID demands. -/
structure Identified : Prop where
  other : ∀ req, packetParse g.buf = some req → NamesOther conf req → Ignored conf b g
  none : ∀ req, packetParse g.buf = some req → req.type.mustName = true → NamesNone req →
    Ignored conf b g
  reply : ∀ bytes, (read conf b g).1 = some bytes →
    ∃ m, parseReply (bytes.length + 1) bytes = some m ∧
    m.opts.filter (fun opt ↦ opt.code = Code.serverid) = [⟨Code.serverid, conf.serverid.toList, []⟩]

/-- What is bound after a datagram. -/
def Bound.step : Bound :=
  ⟨(read conf b g).2.pd, (read conf b g).2.ses⟩

/-- The datagram is not a Request or an Information-Request that names another server, nor a Renew
that does so besides naming this one last. -/
def Addressed : Prop :=
  ∀ req, packetParse g.buf = some req → NamesOther conf req → req.type ≠ .request ∧
    req.type ≠ .informationRequest ∧
    (req.type = .renew → req.serverid ≠ some conf.serverid.toList)

end

/-! ### What the parser notes -/

lemma Packet.scan_spec {pkt req : Packet} {seen : Bool} {opts : List Item}
    (h : pkt.scan seen opts = some req) : req.opts = pkt.opts ∧
      (req.serverid = pkt.serverid ∧ (∀ opt ∈ opts, opt.code ≠ Code.serverid) ∨
        ∃ opt ∈ opts, opt.code = Code.serverid ∧ req.serverid = some opt.data) := by
  induction opts generalizing pkt seen with
  | nil =>
    obtain rfl := some.inj h
    exact ⟨rfl, .inl ⟨rfl, nofun⟩⟩
  | cons opt opts ih =>
    -- an option that is no Server-ID leaves the field as it is
    have hother : ∀ {p : Packet} {seen' : Bool}, p.scan seen' opts = some req → p.opts = pkt.opts →
        p.serverid = pkt.serverid → opt.code ≠ Code.serverid → req.opts = pkt.opts ∧
          (req.serverid = pkt.serverid ∧ (∀ opt' ∈ opt :: opts, opt'.code ≠ Code.serverid) ∨
            ∃ opt' ∈ opt :: opts, opt'.code = Code.serverid ∧ req.serverid = some opt'.data) := by
      intro p seen' hp hopts hsid hcode
      obtain ⟨ho, hcases⟩ := ih hp
      refine ⟨ho.trans hopts, ?_⟩
      rcases hcases with ⟨hs, hnone⟩ | ⟨opt', hmem, hcode', hs⟩
      · exact .inl ⟨hs.trans hsid, forall_mem_cons.mpr ⟨hcode, hnone⟩⟩
      · exact .inr ⟨opt', .tail _ hmem, hcode', hs⟩
    rw [Packet.scan] at h
    split at h
    next hcode => exact hother h rfl rfl (by rw [hcode]; decide)
    split at h
    next hcode =>
      obtain ⟨ho, hcases⟩ := ih h
      refine ⟨ho, .inr ?_⟩
      rcases hcases with ⟨hs, -⟩ | ⟨opt', hmem, hcode', hs⟩
      · exact ⟨opt, .head _, hcode, hs⟩
      · exact ⟨opt', .tail _ hmem, hcode', hs⟩
    next hcode =>
      split at h
      · split at h
        · nomatch h
        · exact hother h rfl rfl hcode
      split at h
      · split at h
        · nomatch h
        · exact hother h rfl rfl hcode
      · exact hother h rfl rfl hcode

/-- The Server-ID that is noted is one of those in the message, if there are any. -/
lemma packetParse_serverid {buf : List UInt8} {req : Packet} (h : packetParse buf = some req) :
    (req.serverid = none ∧ NamesNone req) ∨
      ∃ opt ∈ req.opts, opt.code = Code.serverid ∧ req.serverid = some opt.data := by
  unfold packetParse at h
  split at h
  · nomatch h
  split at h
  · nomatch h
  split at h
  · nomatch h
  next opts _ =>
    obtain ⟨hopts, hcases⟩ := Packet.scan_spec h
    unfold NamesNone
    rw [hopts]
    exact hcases

/-! ### Messages that are ignored -/

variable {conf : Conf} {b : Bound} {g : Datagram} {req : Packet}

lemma ignored_of_fail (hparse : packetParse g.buf = some req)
    (hfail : ∀ s, recvPacket (g.surroundings conf req) s = (none, s)) : Ignored conf b g := by
  unfold Ignored read
  cases g.fromClient with
  | false => exact ⟨rfl, rfl, rfl⟩
  | true =>
    rw [hparse]
    dsimp only [Bool.not_true, Bool.false_eq_true, if_false]
    rw [hfail]
    exact ⟨rfl, rfl, rfl⟩

variable {env : Env}

/-- A message that names a server, and not this one, is dropped by all handlers that look. -/
lemma recvPacket_of_isSome (hsid : env.req.serverid.isSome = true)
    (hrequest : env.req.type ≠ .request) (hinfo : env.req.type ≠ .informationRequest)
    (hrenew : env.req.type = .renew → env.req.serverid ≠ some env.conf.serverid.toList) (s : St) :
    recvPacket env s = (none, s) := by
  unfold recvPacket
  cases env.req.clientid with
  | none => rfl
  | some clientid =>
    dsimp only
    cases htype : env.req.type with
    | solicit => rw [recvSolicit, if_pos hsid]; rfl
    | request => exact absurd htype hrequest
    | renew =>
      obtain ⟨serverid, hserverid⟩ := isSome_iff_exists.mp hsid
      have hne : serverid ≠ env.conf.serverid.toList := fun he ↦
        hrenew htype (hserverid.trans (congrArg some he))
      rw [recvRenew, hserverid]
      dsimp only
      rw [if_neg hne]
      rfl
    | rebind => rw [recvRebind, if_pos hsid]; rfl
    | confirm => rw [recvConfirm, if_pos hsid]; rfl
    | informationRequest => exact absurd htype hinfo
    | _ => rfl

/-- A message that must name a server and does not is dropped. -/
lemma recvPacket_of_none (hsid : env.req.serverid = none) (hmust : env.req.type.mustName = true)
    (s : St) : recvPacket env s = (none, s) := by
  unfold recvPacket
  cases env.req.clientid with
  | none => rfl
  | some clientid =>
    cases htype : env.req.type with
    | request => dsimp only; rw [recvRequest, hsid]; rfl
    | renew => dsimp only; rw [recvRenew, hsid]; rfl
    | solicit | rebind | confirm | informationRequest => rw [htype] at hmust; nomatch hmust
    | _ => rfl

/-! ### All sequences of messages -/

/-- The Server-ID of a reply. -/
lemma read_serverid (haddr : Addressed conf g) {bytes : List UInt8}
    (hread : (read conf b g).1 = some bytes) :
    ∃ m, parseReply (bytes.length + 1) bytes = some m ∧
      m.opts.filter (fun opt ↦ opt.code = Code.serverid) =
        [⟨Code.serverid, conf.serverid.toList, []⟩] := by
  unfold read at hread
  split at hread
  · nomatch hread
  cases hparse : packetParse g.buf with
  | none => rw [hparse] at hread; nomatch hread
  | some req =>
    rw [hparse] at hread
    dsimp only at hread
    have hspec := @recvPacket_spec (g.surroundings conf req)
      { reply := { mem := g.garbage }, pd := b.pd, ses := b.ses } rfl
    generalize recvPacket (g.surroundings conf req)
      { reply := { mem := g.garbage }, pd := b.pd, ses := b.ses } = r at hspec hread
    obtain ⟨sent, s⟩ := r
    obtain rfl : sent = some bytes := hread
    obtain ⟨⟨type, clientid, -, opts, hallowed, hm⟩, -, -⟩ := hspec
    refine ⟨_, hm, ?_⟩
    have hsid : repliedServerid (g.surroundings conf req) = conf.serverid.toList := by
      unfold repliedServerid
      split
      next serverid htype hserverid =>
        -- a Request brings its Server-ID back, so it must not have brought another's
        rcases packetParse_serverid hparse with ⟨hnone, -⟩ | ⟨opt, hmem, hcode, hs⟩
        · nomatch hserverid.symm.trans hnone
        · have heq : opt.data = serverid := mem_unique hs hserverid
          by_contra hne
          exact (haddr req hparse ⟨opt, hmem, hcode, heq ▸ hne⟩).1 htype
      next => rfl
    have hrest : opts.filter (fun opt ↦ opt.code = Code.serverid) = [] :=
      filter_eq_nil_iff.mpr fun opt hopt hcode ↦
        (hallowed opt hopt).1 (of_decide_eq_true hcode)
    rw [hsid]
    exact congrArg (cons _) hrest

lemma Addressed.identified (haddr : Addressed conf g) : Identified conf b g where
  other req hparse hother := by
    obtain ⟨hrequest, hinfo, hrenew⟩ := haddr req hparse hother
    refine ignored_of_fail hparse (recvPacket_of_isSome ?_ hrequest hinfo hrenew)
    obtain ⟨opt, hmem, hcode, -⟩ := hother
    rcases packetParse_serverid hparse with ⟨-, hnone⟩ | ⟨opt', -, -, hs⟩
    · exact absurd hcode (hnone opt hmem)
    · exact isSome_iff_exists.mpr ⟨_, hs⟩
  none req hparse hmust hnone := by
    refine ignored_of_fail hparse (recvPacket_of_none ?_ hmust)
    rcases packetParse_serverid hparse with ⟨hs, -⟩ | ⟨opt, hmem, hcode, -⟩
    · exact hs
    · exact absurd hcode (hnone opt hmem)
  reply _ hread := read_serverid haddr hread

/-- **Only what is meant for this server is answered or binds**, in every sequence of datagrams of
which each is addressed rightly, whatever is bound at the beginning. -/
theorem always_identified (conf : Conf) (b : Bound) (gs : List Datagram)
    (haddr : ∀ g ∈ gs, Addressed conf g) : Along (Bound.step conf) (Identified conf) b gs := by
  induction gs generalizing b with
  | nil => trivial
  | cons g gs ih => exact ⟨(haddr g (.head _)).identified, ih _ fun g' hg ↦ haddr g' (.tail _ hg)⟩

/-! ### A Request for another server -/

def thisServer : Conf where
  serverid := #v[0, 3, 0, 27, 0, 0, 0, 0, 0, 0, 0, 1]

/-- A session with one address. -/
def fresh : Bound where
  pd := {}
  ses := {
    addrs := [⟨#v[32, 1, 13, 184, 0, 0, 0, 0, 0, 0, 0, 0, 0, 0, 0, 0], 64⟩]
    peerIntfId := #v[0, 0, 0, 0, 0, 0, 0, 2] }

/-- A message with a Client-ID, the given Server-ID and an IA_NA. -/
def naming (type : UInt8) (serverid : List UInt8) : Datagram where
  buf := [type, 1, 2, 3] ++ encodeAll [⟨Code.clientid, [0, 3, 0, 1, 9], []⟩,
    ⟨Code.serverid, serverid, []⟩, ⟨Code.iaNa, [0, 0, 0, 7, 0, 0, 0, 0, 0, 0, 0, 0], []⟩]

/-- A Request for this server is answered, and then a Renew for another one is ignored. -/
theorem always_identified_renew :
    let gs := [naming 3 thisServer.serverid.toList, naming 5 [0, 3, 0, 27, 9]]
    (∀ g ∈ gs, Addressed thisServer g) ∧
      gs.map (fun g ↦ (read thisServer fresh g).1.isSome) = [true, false] ∧
      Along (Bound.step thisServer) (Identified thisServer) fresh gs := by
  intro gs
  have hparsed : ∀ g ∈ gs, ∀ req ∈ packetParse g.buf,
      (∃ opt ∈ req.opts, opt.code = Code.serverid ∧ opt.data ≠ thisServer.serverid.toList) →
      req.type = .renew ∧ req.serverid = some [0, 3, 0, 27, 9] := by
    decide +kernel
  have haddr : ∀ g ∈ gs, Addressed thisServer g := by
    intro g hg req hparse hother
    obtain ⟨htype, hserverid⟩ := hparsed g hg req hparse hother
    rw [htype, hserverid]
    exact ⟨nofun, nofun, fun _ ↦ by decide⟩
  exact ⟨haddr, by decide +kernel, always_identified thisServer fresh _ haddr⟩

/-- A Request for another server is answered with the Server-ID of that server, and binds the
client. -/
theorem request_for_other_server :
    (packetParse (naming 3 [0, 3, 0, 27, 9]).buf).map (fun req ↦ (req.type, req.serverid)) =
        some (.request, some [0, 3, 0, 27, 9]) ∧
      ([0, 3, 0, 27, 9] : List UInt8) ≠ thisServer.serverid.toList ∧
      ((read thisServer fresh (naming 3 [0, 3, 0, 27, 9])).1.bind fun bytes ↦
        (parseReply (bytes.length + 1) bytes).map fun m ↦ m.opts.map fun opt ↦
          (opt.code, opt.data.length)) =
          some [(2, 5), (1, 5), (3, 12), (7, 1)] ∧
      (read thisServer fresh (naming 3 [0, 3, 0, 27, 9])).2.pd =
        { clientid := some [0, 3, 0, 1, 9], addrIaid := #v[0, 0, 0, 7] } := by
  decide +kernel

end AccelPpp.Dhcpv6
