import AccelPpp.L2tp.Tunnel
import AccelPpp.Lib.Run

/-!
# No call before the tunnel is authenticated

A tunnel with a secret must not set up a call for its peer, nor answer one, before the peer has
returned the right Challenge Response to the challenge this tunnel has issued.

The tunnel becomes established in two places only, the end of `l2tp_recv_SCCRP` and the end of
`l2tp_recv_SCCCN`, and both stand behind `l2tp_tunnel_checkchallresp`. So it is enough that calls
are accepted on established tunnels only. The two handlers test for that with `state != STATE_ESTB
&& lns_mode` (ICRQ) and `state != STATE_ESTB && !lns_mode` (OCRQ): each lets the message through on
an unestablished tunnel in the other role.

* `Grows c c'`: what every function but the start function and the two handlers that establish the
  tunnel does. The records only grow, and the state and the challenge are as before unless the
  tunnel is closing.
* `Quiet c c'`: moreover no session was created for the peer and no call answered.
* `AuthInv`: a waiting tunnel holds a challenge it has issued, and an established one has an
  authenticated peer.
* `CallsInRole`: the condition on a step.
-/

namespace AccelPpp.L2tp

open Bool List Transition

/-! ### What is claimed -/

/-- The peer has returned the right response to a challenge this tunnel has issued. -/
def PeerAuthenticated (md5 : Md5) (c : Conn) : Prop :=
  ∃ chall ∈ c.issued, ∃ r ∈ c.responses, r.2 = compChapMd5 md5 r.1 c.secret chall

/-- The message answers a call request. -/
def Msg.isCallReply : Msg → Bool
  | .icrp _ | .ocrp _ => true
  | _ => false

/-- The answers to call requests among what was sent. -/
def Conn.replies (c : Conn) : List Msg :=
  c.out.filter Msg.isCallReply

/-- **One step**: when it creates a session for the peer or answers a call, the tunnel was
established and the peer authenticated before. -/
def CallAuthenticated (md5 : Md5) (c : Conn) (e : TunnelEvent) : Prop :=
  (tunnelStep md5 c e).created ≠ c.created ∨ (tunnelStep md5 c e).replies ≠ c.replies →
    c.state = .estb ∧ PeerAuthenticated md5 c

/-- The tunnels of a server: opened by a peer, from the command line or towards a switch target. -/
inductive Opened (secret : List UInt8) : Conn → Prop where
  | sccrq (env : Env) (attrs : List Attr) {c : Conn} :
      recvSCCRQ env secret attrs = some c → Opened secret c
  | cli (lnsMode : Bool) : Opened secret (createTunnel lnsMode secret)
  | target : Opened secret (targetConnect secret)

/-- The message is a request to the tunnel of the given type. -/
def Packet.asks (pack : Packet) (type : ℕ) : Bool :=
  pack.sid == 0 && (pack.attrs.head?.any fun a ↦ a.id == .messageType && a.uint16.toNat == type)

/-- **The condition on a step**: no OCRQ on an unestablished tunnel in LNS mode, and no ICRQ on an
unestablished tunnel in LAC mode, a switch target's tunnel apart. -/
def CallsInRole (c : Conn) : TunnelEvent → Prop
  | .recv pack _ =>
    c.state ≠ .estb → c.switchTarget = false → c.closing = false →
      (pack.asks 7 = true → c.lnsMode = false) ∧ (pack.asks 10 = true → c.lnsMode = true)
  | _ => True

instance (c : Conn) (e : TunnelEvent) : Decidable (CallsInRole c e) := by
  cases e <;> dsimp only [CallsInRole] <;> infer_instance

/-! ### What the functions do to the records -/

/-- The records grow; state and challenge are as before, unless the tunnel is closing. -/
structure Grows (c c' : Conn) : Prop where
  secret : c'.secret = c.secret
  issued : c.issued ⊆ c'.issued
  responses : c.responses ⊆ c'.responses
  state : (c'.state = c.state ∧ c'.challenge = c.challenge) ∨ c'.closing = true

/-- Moreover no session is created for the peer and no call answered. -/
structure Quiet (c c' : Conn) : Prop extends Grows c c' where
  created : c'.created = c.created
  replies : c'.replies = c.replies

section

variable {md5 : Md5} {c c' c'' : Conn} {env : Env} {msg : Msg} {sid peerSid res err : UInt16}
  {attrs : List Attr}

lemma Grows.refl : Grows c c :=
  ⟨rfl, fun _ h ↦ h, fun _ h ↦ h, .inl ⟨rfl, rfl⟩⟩

lemma Grows.trans (h : Grows c c') (h' : Grows c' c'') : Grows c c'' := by
  refine ⟨h'.secret.trans h.secret, fun _ hx ↦ h'.issued (h.issued hx),
    fun _ hx ↦ h'.responses (h.responses hx), ?_⟩
  rcases h'.state with ⟨hs', hc'⟩ | hclosing
  · rcases h.state with ⟨hs, hc⟩ | hclosing
    · exact .inl ⟨hs'.trans hs, hc'.trans hc⟩
    · right
      rwa [Conn.closing, hs']
  · exact .inr hclosing

lemma Quiet.refl : Quiet c c :=
  ⟨.refl, rfl, rfl⟩

lemma Quiet.trans (h : Quiet c c') (h' : Quiet c' c'') : Quiet c c'' :=
  ⟨h.toGrows.trans h'.toGrows, h'.created.trans h.created, h'.replies.trans h.replies⟩

lemma grows_tunnelSend : Grows c (tunnelSend msg c) := by
  rw [tunnelSend]
  split
  · exact .refl
  · exact ⟨rfl, fun _ h ↦ h, fun _ h ↦ h, .inl ⟨rfl, rfl⟩⟩

/-- A message that answers no call leaves the replies alone. -/
lemma quiet_tunnelSend (msg : Msg) (hmsg : msg.isCallReply = false) :
    Quiet c (tunnelSend msg c) := by
  refine ⟨grows_tunnelSend, ?_, ?_⟩
  · rw [tunnelSend]
    split <;> rfl
  rw [tunnelSend]
  split
  · rfl
  · show (c.out ++ [msg]).filter _ = _
    rw [filter_append, filter_singleton, hmsg]
    exact append_nil _

/-- A change that touches none of the records, nor state and challenge unless the tunnel closes. -/
lemma quiet_of_eq (hst : (c'.state = c.state ∧ c'.challenge = c.challenge) ∨ c'.closing = true)
    (hs : c'.secret = c.secret) (hi : c'.issued = c.issued) (hr : c'.responses = c.responses)
    (hcr : c'.created = c.created) (ho : c'.out = c.out) : Quiet c c' :=
  ⟨⟨hs, fun _ h ↦ hi ▸ h, fun _ h ↦ hr ▸ h, hst⟩, hcr, by rw [Conn.replies, ho, Conn.replies]⟩

lemma quiet_tunnelFree : Quiet c (tunnelFree c) := by
  rw [tunnelFree]
  split
  · exact .refl
  · exact quiet_of_eq (.inr rfl) rfl rfl rfl rfl rfl

lemma quiet_tunnelDisconnect : Quiet c (tunnelDisconnect env res err c) := by
  rw [tunnelDisconnect]
  split
  · exact .refl
  split
  · refine (quiet_tunnelSend (.stopCcn res err) rfl).trans ?_
    exact quiet_of_eq (.inr rfl) rfl rfl rfl rfl rfl
  · have hfin : Quiet c { c with state := .fin } := quiet_of_eq (.inr rfl) rfl rfl rfl rfl rfl
    exact hfin.trans quiet_tunnelFree

lemma quiet_tunnelFinwait : Quiet c (tunnelFinwait env c) := by
  have hwait : Quiet c { c with state := .finWait, sessions := [] } :=
    quiet_of_eq (.inr rfl) rfl rfl rfl rfl rfl
  rw [tunnelFinwait]
  split <;> first
    | exact .refl
    | (split
       · exact hwait
       · exact hwait.trans quiet_tunnelFree)

lemma quiet_sessionFree : Quiet c (sessionFree env sid c) := by
  rw [sessionFree]
  have hremove : Quiet c { c with sessions := c.sessions.filter fun s ↦ s.1 != sid } :=
    quiet_of_eq (.inl ⟨rfl, rfl⟩) rfl rfl rfl rfl rfl
  split
  · exact hremove.trans quiet_tunnelDisconnect
  · exact hremove

lemma quiet_tunnelSendCDN : Quiet c (tunnelSendCDN env sid peerSid res err c) := by
  rw [tunnelSendCDN]
  split
  · exact quiet_tunnelSend _ rfl
  · exact .refl

lemma quiet_recvStopCCN : Quiet c (recvStopCCN env attrs c) := by
  rw [recvStopCCN]
  split
  · exact .refl
  refine Quiet.trans ?_ quiet_tunnelFinwait
  split
  · split
    · exact quiet_of_eq (.inl ⟨rfl, rfl⟩) rfl rfl rfl rfl rfl
    · exact .refl
  · exact .refl

lemma quiet_placeCall : Quiet c (tunnelStep md5 c (.placeCall env)) := by
  rw [tunnelStep]
  split
  · next sid _ _ =>
    have hnew : Quiet c { c with sessions := c.sessions ++ [(sid, 0)] } :=
      quiet_of_eq (.inl ⟨rfl, rfl⟩) rfl rfl rfl rfl rfl
    split
    · exact hnew.trans quiet_sessionFree
    have hsend := hnew.trans (quiet_tunnelSend (.callRequest sid) rfl)
    split
    · exact hsend
    · exact hsend.trans quiet_sessionFree
  · exact .refl

lemma closing_tunnelFree : (tunnelFree c).closing = true := by
  rw [tunnelFree]
  split
  · next h =>
    rw [Conn.closing, h]
    rfl
  · rfl

lemma closing_tunnelDisconnect : (tunnelDisconnect env res err c).closing = true := by
  rw [tunnelDisconnect]
  split
  · assumption
  split
  · rfl
  · exact closing_tunnelFree

/-- Setting up a call for the peer is not quiet, but it touches neither state nor challenge. -/
lemma grows_acceptCall {known : List AttrId} {switched : Option (UInt16 × UInt16)}
    {reply : UInt16 → Conn → Bool × Conn} (hreply : ∀ sid c, Grows c (reply sid c).2) :
    Grows c (acceptCall env known switched reply attrs c) := by
  rw [acceptCall]
  split
  · exact .refl
  split
  · exact quiet_tunnelSendCDN.toGrows
  next peer _ =>
  split
  · exact quiet_tunnelSendCDN.toGrows
  next sid _ =>
  have hnew : Grows c { c with
      sessions := c.sessions ++ [(sid, peer.uint16)], created := c.created ++ [sid] } :=
    ⟨rfl, fun _ h ↦ h, fun _ h ↦ h, .inl ⟨rfl, rfl⟩⟩
  have hrefuse (res err : UInt16) (c : Conn) :
      Grows c (sessionFree env sid (tunnelSendCDN env sid peer.uint16 res err c)) :=
    (quiet_tunnelSendCDN.trans quiet_sessionFree).toGrows
  dsimp only
  split
  · exact hnew.trans (hrefuse _ _ _)
  split
  · exact hnew.trans (hrefuse _ _ _)
  split
  · exact hnew.trans (hreply sid _)
  · exact (hnew.trans (hreply sid _)).trans (hrefuse _ _ _)

lemma grows_incallReply (sid : UInt16) (c : Conn) : Grows c (incallReply env sid c).2 := by
  rw [incallReply]
  split
  · exact .refl
  · exact grows_tunnelSend

lemma grows_outcallReply (sid : UInt16) (c : Conn) : Grows c (outcallReply env sid c).2 := by
  rw [outcallReply]
  split
  · exact .refl
  split
  · exact grows_tunnelSend
  · exact grows_tunnelSend.trans grows_tunnelSend

end

/-! ### The invariant -/

/-- **A waiting tunnel holds a challenge it has issued, and an established one has an authenticated
peer.** -/
structure AuthInv (md5 : Md5) (secret : List UInt8) (c : Conn) : Prop where
  secret_eq : c.secret = secret
  waiting : c.state = .waitSccrp ∨ c.state = .waitScccn →
    ∃ chall ∈ c.issued, c.challenge = some chall
  estb : c.state = .estb → PeerAuthenticated md5 c

/-- Nothing was done for a call of the peer. -/
def NoCall (c c' : Conn) : Prop :=
  c'.created = c.created ∧ c'.replies = c.replies

section

variable {md5 : Md5} {secret : List UInt8} {c c' : Conn} {env : Env} {attrs : List Attr}

lemma Quiet.noCall (h : Quiet c c') : NoCall c c' :=
  ⟨h.created, h.replies⟩

lemma NoCall.trans {c'' : Conn} (h : NoCall c c') (h' : NoCall c' c'') : NoCall c c'' :=
  ⟨h'.1.trans h.1, h'.2.trans h.2⟩

lemma PeerAuthenticated.mono (h : PeerAuthenticated md5 c) (hs : c'.secret = c.secret)
    (hi : c.issued ⊆ c'.issued) (hr : c.responses ⊆ c'.responses) : PeerAuthenticated md5 c' := by
  obtain ⟨chall, hchall, r, hresp, heq⟩ := h
  exact ⟨chall, hi hchall, r, hr hresp, hs ▸ heq⟩

lemma AuthInv.of_closing (hs : c.secret = secret) (h : c.closing = true) :
    AuthInv md5 secret c := by
  refine ⟨hs, ?_, ?_⟩
  · rintro (hst | hst) <;> rw [Conn.closing, hst] at h <;> nomatch h
  · intro hst
    rw [Conn.closing, hst] at h
    nomatch h

lemma AuthInv.grows (h : AuthInv md5 secret c) (hg : Grows c c') : AuthInv md5 secret c' := by
  -- the state and the challenge are as before, or the tunnel is on its way out
  rcases hg.state with ⟨hst, hch⟩ | hclosing
  · refine ⟨hg.secret.trans h.secret_eq, fun hw ↦ ?_, fun he ↦ ?_⟩
    · obtain ⟨chall, hmem, heq⟩ := h.waiting (hst ▸ hw)
      exact ⟨chall, hg.issued hmem, hch.trans heq⟩
    · exact (h.estb (hst ▸ he)).mono hg.secret hg.issued hg.responses
  · exact .of_closing (hg.secret.trans h.secret_eq) hclosing

/-- **What a step must do**: keep the invariant, and leave calls alone unless the tunnel was
established before. -/
def StepKeeps (md5 : Md5) (secret : List UInt8) (c c' : Conn) : Prop :=
  AuthInv md5 secret c' ∧ (NoCall c c' ∨ c.state = .estb)

lemma AuthInv.quiet (h : AuthInv md5 secret c) (hq : Quiet c c') : StepKeeps md5 secret c c' :=
  ⟨h.grows hq.toGrows, .inl hq.noCall⟩

/-! ### Opening and establishing the tunnel -/

variable {env : Env}

/-- With a secret set, a challenge that could be made is one the tunnel has issued. -/
lemma tunnelGenchall_spec (hs : c.secret ≠ []) :
    (tunnelGenchall env c).2.secret = c.secret ∧ NoCall c (tunnelGenchall env c).2 ∧
      ((tunnelGenchall env c).1 = true →
        ∃ chall ∈ (tunnelGenchall env c).2.issued,
          (tunnelGenchall env c).2.challenge = some chall) := by
  rw [tunnelGenchall]
  rw [if_neg (by rwa [List.isEmpty_iff])]
  split
  · exact ⟨rfl, ⟨rfl, rfl⟩, nofun⟩
  · next chall _ =>
    exact ⟨rfl, ⟨rfl, rfl⟩, fun _ ↦ ⟨chall, List.mem_append_right _ (List.mem_singleton_self _),
      rfl⟩⟩

/-- The common end of the two messages that carry a challenge: the tunnel waits for the response,
or is freed. -/
lemma keeps_sendChallenge {msg : Option (List UInt8) → Msg} {st : TunnelState}
    (hmsg : ∀ chall, (msg chall).isCallReply = false) (hst : st ≠ .estb)
    (hsecret : c.secret = secret) (hs : secret ≠ []) :
    StepKeeps md5 secret c
      (let (ok, c) := tunnelGenchall env c
       if !ok then tunnelFree c
       else
         let c := tunnelSend (msg c.challenge) c
         if !env.push then tunnelFree c else { c with state := st }) := by
  obtain ⟨hsec, hno, hchall⟩ := tunnelGenchall_spec (hsecret ▸ hs : c.secret ≠ [])
  generalize tunnelGenchall env c = g at hsec hno hchall ⊢
  obtain ⟨ok, d⟩ := g
  have hfree {d' : Conn} (hq : Quiet d d') : StepKeeps md5 secret c (tunnelFree d') := by
    have hq' := hq.trans quiet_tunnelFree
    exact ⟨.of_closing (hq'.secret.trans (hsec.trans hsecret)) closing_tunnelFree,
      .inl (hno.trans hq'.noCall)⟩
  cases ok with
  | false => exact hfree .refl
  | true =>
    have hq := quiet_tunnelSend (c := d) _ (hmsg d.challenge)
    cases env.push with
    | false => exact hfree hq
    | true =>
      -- `tunnelSend` leaves the challenge alone, whether it sends or not
      have hsame : (tunnelSend (msg d.challenge) d).challenge = d.challenge := by
        rw [tunnelSend]
        split <;> rfl
      obtain ⟨chall, hmem, heq⟩ := hchall rfl
      refine ⟨⟨hq.secret.trans (hsec.trans hsecret), fun _ ↦ ?_, fun he ↦ absurd he hst⟩,
        .inl (hno.trans hq.noCall)⟩
      exact ⟨chall, hq.issued hmem, hsame.trans heq⟩

/-- **The check accepts only the right response** to the challenge the tunnel holds. -/
theorem peerAuthenticated_of_check {ident : UInt8} {resp : Option (List UInt8)} {chall : List UInt8}
    (hs : c.secret ≠ []) (hmem : chall ∈ c.issued) (hchall : c.challenge = some chall)
    (hcheck : tunnelCheckchallresp md5 ident (noteResponse ident resp c) resp = true) :
    PeerAuthenticated md5 (noteResponse ident resp c) := by
  unfold tunnelCheckchallresp at hcheck
  rw [if_neg (by rw [List.isEmpty_iff]; exact hs)] at hcheck
  rw [show (noteResponse ident resp c).challenge = some chall from hchall] at hcheck
  cases resp with
  | none => nomatch hcheck
  | some r =>
    have heq := eq_of_beq ((and_eq_true _ _ ▸ hcheck).2)
    exact ⟨chall, hmem, (ident, r), List.mem_append_right _ (List.mem_singleton_self _), heq.symm⟩

lemma tunnelStorechall_spec {chall : Option (List UInt8)} {c : Conn} :
    ∃ ch, (tunnelStorechall env chall c).2 = { c with challenge := ch } := by
  unfold tunnelStorechall
  split
  · exact ⟨none, rfl⟩
  · split
    · exact ⟨none, rfl⟩
    · exact ⟨_, rfl⟩

/-- `l2tp_send_SCCCN` forgets the challenge and otherwise only sends. -/
lemma sendSCCCN_spec {md5 : Md5} (c : Conn) :
    ∃ ch, Quiet { c with challenge := ch } (sendSCCCN md5 env c).2 := by
  rw [sendSCCCN]
  split
  · exact ⟨c.challenge, .refl⟩
  split
  · exact ⟨c.challenge, .refl⟩
  · next resp _ => exact ⟨none, quiet_tunnelSend _ rfl⟩

section

variable {res err : UInt16} (hsecret : c'.secret = secret) (hno : NoCall c c')

include hsecret hno

lemma keeps_disconnect : StepKeeps md5 secret c (tunnelDisconnect env res err c') := by
  have hq : Quiet c' (tunnelDisconnect env res err c') := quiet_tunnelDisconnect
  exact ⟨.of_closing (hq.secret.trans hsecret) closing_tunnelDisconnect, .inl (hno.trans hq.noCall)⟩

lemma keeps_tunnelConnect (hpeer : PeerAuthenticated md5 c') :
    StepKeeps md5 secret c
      (let (ok, c) := tunnelConnect env c'
       if !ok then tunnelDisconnect env res err c else c) := by
  rw [tunnelConnect]
  cases env.connect with
  | true =>
    refine ⟨⟨hsecret, fun hw ↦ ?_, fun _ ↦ hpeer⟩, .inl hno⟩
    rcases hw with hw | hw <;> nomatch hw
  | false => exact keeps_disconnect hsecret hno

end

lemma keeps_finishSCCRP {chall : List UInt8} (hsecret : c.secret = secret) (hs : secret ≠ [])
    (hmem : chall ∈ c.issued) (hchall : c.challenge = some chall) :
    StepKeeps md5 secret c (finishSCCRP md5 env attrs c) := by
  rw [finishSCCRP]
  generalize (lastAttr .challengeResponse attrs).map Attr.octets = resp
  generalize (lastAttr .challenge attrs).map Attr.octets = peerChall
  have hnote : NoCall c (noteResponse 2 resp c) := ⟨rfl, rfl⟩
  dsimp only
  split
  · exact keeps_disconnect hsecret hnote
  next hcheck =>
  rw [Bool.not_eq_true, Bool.not_eq_eq_eq_not] at hcheck
  have hpeer := peerAuthenticated_of_check (hsecret ▸ hs) hmem hchall hcheck
  -- from here on the tunnel holds the peer's challenge; what it has issued itself stays on record
  obtain ⟨ch, hstore⟩ := tunnelStorechall_spec
  generalize tunnelStorechall env peerChall (noteResponse 2 resp c) = g at hstore ⊢
  obtain ⟨ok, d⟩ := g
  obtain rfl : d = _ := hstore
  split
  · exact keeps_disconnect hsecret hnote
  obtain ⟨ch', hsend⟩ := sendSCCCN_spec { noteResponse 2 resp c with challenge := ch }
  generalize sendSCCCN md5 env { noteResponse 2 resp c with challenge := ch } = g at hsend ⊢
  obtain ⟨ok', d⟩ := g
  have hsecret' : d.secret = secret := hsend.secret.trans hsecret
  have hno : NoCall c d := hnote.trans hsend.noCall
  split
  · exact keeps_disconnect hsecret' hno
  · exact keeps_tunnelConnect hsecret' hno (hpeer.mono hsend.secret hsend.issued hsend.responses)

/-! ### Calls, and one step -/

/-- **A call request keeps the invariant** unless it meets an unestablished tunnel in the role in
which the test of its handler does not discard it. -/
theorem keeps_callRequest {discards : Bool} {known : List AttrId}
    {switched : Option (UInt16 × UInt16)} {reply : UInt16 → Conn → Bool × Conn}
    (hreply : ∀ sid c, Grows c (reply sid c).2) (h : AuthInv md5 secret c)
    (hrole : c.state ≠ .estb → c.switchTarget = false → discards = true) :
    StepKeeps md5 secret c
      (if c.switchTarget then rejectOnTarget env attrs c
       else if c.state ≠ .estb && discards then c
       else acceptCall env known switched reply attrs c) := by
  split
  · exact h.quiet quiet_tunnelSendCDN
  next htarget =>
  split
  · exact h.quiet .refl
  next hguard =>
  -- past the test the tunnel is established, since the condition rules the other role out
  have hst : c.state = .estb := by
    by_contra hne
    exact hguard (by simp [hne, hrole hne (eq_false_iff.mpr htarget)])
  exact ⟨h.grows (grows_acceptCall hreply), .inr hst⟩

variable (h : AuthInv md5 secret c) (hs : secret ≠ [])
include h hs

lemma keeps_tunnelStart : StepKeeps md5 secret c (tunnelStart md5 env c) := by
  rw [tunnelStart]
  split
  · exact h.quiet .refl
  have hstarted : Quiet c { c with started := true } :=
    quiet_of_eq (.inl ⟨rfl, rfl⟩) rfl rfl rfl rfl rfl
  have hfree : StepKeeps md5 secret c (tunnelFree { c with started := true }) :=
    h.quiet (hstarted.trans quiet_tunnelFree)
  dsimp only
  split
  · rw [sendSCCRP]
    split
    · exact hfree
    split
    · exact hfree
    · exact keeps_sendChallenge (fun _ ↦ rfl) (by decide) h.secret_eq hs
  · rw [sendSCCRQ]
    split
    · exact hfree
    · exact keeps_sendChallenge (fun _ ↦ rfl) (by decide) h.secret_eq hs

lemma keeps_recvSCCRP : StepKeeps md5 secret c (recvSCCRP md5 env attrs c) := by
  rw [recvSCCRP]
  split
  · exact h.quiet .refl
  next hst =>
  obtain ⟨chall, hmem, hchall⟩ := h.waiting (.inl (not_not.mp hst))
  split
  · exact h.quiet quiet_tunnelDisconnect
  next tid _ =>
  have hdisc (res err : UInt16) :
      StepKeeps md5 secret c (tunnelDisconnect env res err { c with peerTid := tid.uint16 }) :=
    keeps_disconnect h.secret_eq ⟨rfl, rfl⟩
  -- the attributes that are missing or not supported, in the order of the tests
  split
  · exact hdisc 2 8
  split
  · exact hdisc 2 0
  split
  · exact hdisc 2 0
  split
  · exact hdisc 5 0
  split
  · exact hdisc 2 3
  · exact keeps_finishSCCRP h.secret_eq hs hmem hchall

lemma keeps_recvSCCCN : StepKeeps md5 secret c (recvSCCCN md5 env attrs c) := by
  rw [recvSCCCN]
  split
  · exact h.quiet .refl
  next hst =>
  obtain ⟨chall, hmem, hchall⟩ := h.waiting (.inr (not_not.mp hst))
  split
  · exact h.quiet quiet_tunnelDisconnect
  dsimp only
  split
  · exact keeps_disconnect h.secret_eq ⟨rfl, rfl⟩
  next hcheck =>
  rw [Bool.not_eq_true, Bool.not_eq_eq_eq_not] at hcheck
  have hpeer := peerAuthenticated_of_check (h.secret_eq ▸ hs) hmem hchall hcheck
  exact keeps_tunnelConnect h.secret_eq ⟨rfl, rfl⟩ (hpeer.mono rfl (fun _ h ↦ h) fun _ h ↦ h)

lemma keeps_tunnelRecv {msgType : UInt16} {mandatory : Bool}
    (hocrq : msgType.toNat = 7 → c.state ≠ .estb → c.switchTarget = false → c.lnsMode = false)
    (hicrq : msgType.toNat = 10 → c.state ≠ .estb → c.switchTarget = false → c.lnsMode = true) :
    StepKeeps md5 secret c (tunnelRecv md5 env msgType mandatory attrs c) := by
  have hsame : StepKeeps md5 secret c c := h.quiet .refl
  rw [tunnelRecv]
  -- the two messages that establish a tunnel, its end, and the two call requests
  split
  · exact keeps_recvSCCRP h hs
  · exact keeps_recvSCCCN h hs
  · exact h.quiet quiet_recvStopCCN
  · next htype =>
    refine keeps_callRequest grows_outcallReply h fun hst htarget ↦ ?_
    rw [hocrq htype hst htarget, Bool.not_false]
  · next htype =>
    exact keeps_callRequest grows_incallReply h (hicrq htype)
  -- the nine message types that change nothing, and last the unknown ones
  all_goals try exact hsame
  · split
    · exact h.quiet quiet_tunnelDisconnect
    · exact hsame

lemma keeps_processMessage {pack : Packet} (hrole : CallsInRole c (.recv pack env)) :
    StepKeeps md5 secret c (processMessage md5 env pack c) := by
  have hsame : StepKeeps md5 secret c c := h.quiet .refl
  rw [processMessage]
  split
  · exact hsame
  next hclosing =>
  split
  · exact hsame
  next first rest hattrs =>
  split
  · exact hsame
  next hfirst =>
  split
  · split
    · exact h.quiet quiet_sessionFree
    · exact hsame
  next hsid =>
  have hasks {n : ℕ} (hn : first.uint16.toNat = n) : pack.asks n = true := by
    rw [Packet.asks, hattrs, not_not.mp hsid, head?_cons, Option.any_some, not_not.mp hfirst, hn]
    exact beq_self_eq_true n
  have hopen : c.closing = false := eq_false_iff.mpr hclosing
  exact keeps_tunnelRecv h hs (fun htype hst htarget ↦ (hrole hst htarget hopen).1 (hasks htype))
    (fun htype hst htarget ↦ (hrole hst htarget hopen).2 (hasks htype))

variable {e : TunnelEvent}

/-- **One step**, whatever happens to the tunnel. -/
theorem keeps_tunnelStep (hrole : CallsInRole c e) :
    StepKeeps md5 secret c (tunnelStep md5 c e) := by
  cases e with
  | start env => exact keeps_tunnelStart h hs
  | recv pack env =>
    have hkeeps := keeps_processMessage h hs hrole
    unfold tunnelStep
    dsimp only
    split
    · exact hkeeps
    · exact ⟨hkeeps.1.grows quiet_tunnelFree.toGrows,
        hkeeps.2.imp_left fun hn ↦ hn.trans quiet_tunnelFree.noCall⟩
  | timeout env => exact h.quiet quiet_tunnelDisconnect
  | shutdown env => exact h.quiet quiet_tunnelDisconnect
  | free => exact h.quiet quiet_tunnelFree
  | placeCall env => exact h.quiet quiet_placeCall
  | hello => exact h.quiet (quiet_tunnelSend _ rfl)

lemma AuthInv.callAuthenticated (hrole : CallsInRole c e) : CallAuthenticated md5 c e := by
  intro hcall
  rcases (keeps_tunnelStep h hs hrole).2 with hno | hst
  · exact absurd hcall (not_or.mpr ⟨not_not.mpr hno.1, not_not.mpr hno.2⟩)
  · exact ⟨hst, h.estb hst⟩

omit h hs

lemma Opened.state_init (h : Opened secret c) : c.secret = secret ∧ c.state = .init := by
  cases h with
  | cli lnsMode | target => exact ⟨rfl, rfl⟩
  | sccrq env attrs hopen =>
    rw [recvSCCRQ] at hopen
    split at hopen
    · nomatch hopen
    split at hopen
    · nomatch hopen
    split at hopen
    · split at hopen
      · nomatch hopen
      split at hopen
      · nomatch hopen
      obtain ⟨ch, hstore⟩ := tunnelStorechall_spec
      dsimp only at hopen
      rw [hstore] at hopen
      split at hopen
      · rw [← Option.some.inj hopen]
        exact ⟨rfl, rfl⟩
      · nomatch hopen
    · nomatch hopen

lemma Opened.authInv (h : Opened secret c) : AuthInv md5 secret c := by
  obtain ⟨hsecret, hst⟩ := h.state_init
  refine ⟨hsecret, ?_, ?_⟩
  · rw [hst]
    rintro (hw | hw) <;> exact absurd hw (by decide)
  · rw [hst]
    exact nofun

end

/-- **No call before authentication.** On a tunnel with a secret, however it was opened and whatever
happens to it, a step creates a session for the peer or answers its call only when the tunnel is
established and the peer has answered a challenge of it, provided no call request meets the
unestablished tunnel in the role its handler does not guard. -/
theorem no_call_before_auth (md5 : Md5) {secret : List UInt8} (hs : secret ≠ []) {c : Conn}
    (hc : Opened secret c) (es : List TunnelEvent) (h : Along (tunnelStep md5) CallsInRole c es) :
    Along (tunnelStep md5) (CallAuthenticated md5) c es :=
  Along.along (P := AuthInv md5 secret) (fun _ _ hinv hrole ↦ (keeps_tunnelStep hinv hs hrole).1)
    (fun _ _ hinv hrole ↦ hinv.callAuthenticated hs hrole) hc.authInv h

/-! ### Two runs of a tunnel the peer has opened -/

/-- Everything succeeds; the next challenge and the next session id are as given. -/
def Env.granting (random : List UInt8) (session : UInt16) : Env where
  apShutdown := false
  maxStarting := false
  maxSessions := false
  connlimit := false
  session := some session
  random := some random
  memory := true
  timer := true
  packet := true
  icrp := true
  ocrp := true
  occn := true
  cdn := true
  stopCcn := true
  push := true
  connect := true
  sessConnect := true
  switchBegin := true
  sessFreed := false
  linger := false

/-- A message to the tunnel: its type, and one more attribute. -/
def Packet.ofType (type : UInt16) (attr : Attr) : Packet where
  sid := 0
  attrs := [⟨.messageType, true, type, []⟩, attr]

/-- A tunnel that a peer's SCCRQ, without a challenge, has opened at a server with the secret. -/
def openedBySccrq (secret : List UInt8) (peerTid : UInt16) : Conn :=
  { tunnelAlloc true false true secret with peerTid := peerTid }

lemma opened_openedBySccrq (secret : List UInt8) (peerTid : UInt16) :
    Opened secret (openedBySccrq secret peerTid) :=
  .sccrq (Env.granting [] 0) [⟨.messageType, true, 1, []⟩, ⟨.protocolVersion, true, protocolV2, []⟩,
    ⟨.framingCapabilities, true, 0, []⟩, ⟨.assignedTunnelId, true, peerTid, []⟩] rfl

/-- A stand-in for MD5 that returns sixteen bytes. -/
def firstSixteen : Md5 :=
  fun bytes ↦ (bytes ++ replicate 16 0).take 16

/-- The peer answers the challenge and then places an incoming call, which is set up. -/
theorem no_call_before_auth_incoming_call :
    let es : List TunnelEvent := [.start (.granting [7] 0),
      .recv (.ofType 3 ⟨.challengeResponse, true, 0, firstSixteen [3, 1, 7]⟩) (.granting [] 0),
      .recv (.ofType 10 ⟨.assignedSessionId, true, 40, []⟩) (.granting [] 5)]
    Along (tunnelStep firstSixteen) (CallAuthenticated firstSixteen) (openedBySccrq [1] 9) es ∧
      (run (tunnelStep firstSixteen) (openedBySccrq [1] 9) es).created = [5] :=
  ⟨no_call_before_auth firstSixteen (by decide) (opened_openedBySccrq [1] 9) _ (by decide),
    by decide⟩

/-- **An outgoing call request before SCCCN.** The server has sent its challenge; instead of the
response comes OCRQ. A session is created and OCRP sent. -/
theorem ocrq_before_scccn :
    Opened [1] (openedBySccrq [1] 9) ∧ ∀ md5 : Md5,
      ¬ Along (tunnelStep md5) (CallAuthenticated md5) (openedBySccrq [1] 9)
        [.start (.granting [7] 0),
          .recv (.ofType 7 ⟨.assignedSessionId, true, 40, []⟩) (.granting [] 5)] := by
  refine ⟨opened_openedBySccrq [1] 9, fun md5 h ↦ ?_⟩
  obtain ⟨-, hcall, -⟩ := h
  have hcreated : (tunnelStep md5 (tunnelStep md5 (openedBySccrq [1] 9) (.start (.granting [7] 0)))
      (.recv (.ofType 7 ⟨.assignedSessionId, true, 40, []⟩) (.granting [] 5))).created = [5] := rfl
  have hestb := (hcall (.inl (by rw [hcreated]; exact cons_ne_nil 5 []))).1
  have hwaits : (tunnelStep md5 (openedBySccrq [1] 9) (.start (.granting [7] 0))).state =
      .waitScccn := rfl
  exact absurd (hwaits.symm.trans hestb) (by decide)

end AccelPpp.L2tp
