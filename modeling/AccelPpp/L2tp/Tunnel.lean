import Mathlib

/-!
# The control connection of an L2TP tunnel

One tunnel (`l2tp_conn_t`), from the moment it exists: its state, the challenge it has sent or
stored, its sessions, and every control message the peer may send on it. The reliable delivery
underneath decides only **which** messages are processed and in which order, and has a model of its
own. A run here is any sequence of processed messages and local events.

A tunnel is opened by a peer's SCCRQ (`recvSCCRQ`), from the command line (`createTunnel`) or
towards a switch target (`targetConnect`). In the first case the server is the LNS, in the last the
LAC, and the command line may choose. `lns_mode` stays what it was at the start.

Peers are authenticated with a challenge. Each side sends one, in SCCRQ or SCCRP, and wants
`MD5(message type, secret, challenge)` back in the next message of the other side. The field
`challenge` of the tunnel holds the peer's challenge until it is answered **and** the own challenge
until it is checked, at different times.

Memory, timers, the kernel, random bytes and the configured limits are answers in `Env`, one record
for each event, so that every combination of failures is a run. Three fields record what has
happened and are not in the source: `issued`, the challenges put into a message; `responses`, the
Challenge Responses received while one was awaited; and `created`, the sessions set up because the
peer asked. What was sent is `out`.
-/

namespace AccelPpp.L2tp

/-- MD5 over the bytes given to it. -/
abbrev Md5 := List UInt8 → List UInt8

inductive TunnelState where
  | init | waitSccrp | waitScccn | estb | fin | finWait | close
deriving DecidableEq

/-- The attribute types the handlers know. -/
inductive AttrId where
  | messageType | resultCode | protocolVersion | framingCapabilities | bearerCapabilities
  | firmwareRevision | hostName | vendorName | assignedTunnelId | recvWindowSize | challenge
  | challengeResponse | assignedSessionId | callSerialNumber | minimumBps | maximumBps | bearerType
  | framingType | calledNumber | callingNumber | subAddress | physicalChannelId | randomVector
  | messageDigest | assignedConnectionId | routerId
  | other (n : ℕ)
deriving DecidableEq

/-- An attribute of a message; which of the two values counts depends on its type. -/
structure Attr where
  id : AttrId
  /-- The mandatory bit. -/
  m : Bool
  uint16 : UInt16
  octets : List UInt8
deriving DecidableEq

/-- A control message as received. -/
structure Packet where
  /-- The session id of the header, 0 for the tunnel itself. -/
  sid : UInt16
  attrs : List Attr
deriving DecidableEq

/-- The messages the tunnel sends. -/
inductive Msg where
  | sccrq (challenge : Option (List UInt8))
  | sccrp (response challenge : Option (List UInt8))
  | scccn (response : Option (List UInt8))
  | stopCcn (res err : UInt16)
  | cdn (sid peerSid res err : UInt16)
  | icrp (sid : UInt16)
  | ocrp (sid : UInt16)
  | occn (sid : UInt16)
  /-- ICRQ or OCRQ for a call placed from here. -/
  | callRequest (sid : UInt16)
  | hello
deriving DecidableEq

structure Conn where
  state : TunnelState
  lnsMode : Bool
  /-- The tunnel belongs to a switch target. -/
  switchTarget : Bool
  /-- The tunnel was opened by the peer, so that it starts with SCCRP and not with SCCRQ. -/
  incoming : Bool
  /-- The start function has run. -/
  started : Bool
  /-- Empty when no secret is set. -/
  secret : List UInt8
  challenge : Option (List UInt8)
  peerTid : UInt16
  /-- The sessions, with the session id each side uses. -/
  sessions : List (UInt16 × UInt16)
  out : List Msg
  issued : List (List UInt8)
  responses : List (UInt8 × List UInt8)
  created : List UInt16
deriving DecidableEq

/-- What the surroundings answer during one event. -/
structure Env where
  apShutdown : Bool
  maxStarting : Bool
  maxSessions : Bool
  connlimit : Bool
  /-- `l2tp_tunnel_alloc_session`: the new session's id. -/
  session : Option UInt16
  /-- The random challenge; `none` when there are no random bytes or no memory. -/
  random : Option (List UInt8)
  /-- Memory for a received challenge. -/
  memory : Bool
  /-- Timers can be set. -/
  timer : Bool
  /-- The SCCRQ, SCCRP or SCCCN can be built. -/
  packet : Bool
  icrp : Bool
  ocrp : Bool
  occn : Bool
  cdn : Bool
  stopCcn : Bool
  /-- `l2tp_tunnel_push_sendqueue`. -/
  push : Bool
  /-- The kernel side of `l2tp_tunnel_connect`. -/
  connect : Bool
  /-- `l2tp_session_connect`. -/
  sessConnect : Bool
  /-- `l2tp_switch_starting_begin`, for a call that matches a switch rule. -/
  switchBegin : Bool
  /-- A message to a session ends the session. -/
  sessFreed : Bool
  /-- A target's tunnel is kept although it has no session left. -/
  linger : Bool

/-! ### Sending and closing -/

section

variable (md5 : Md5) (ident : UInt8) (env : Env) (attrs : List Attr) (c : Conn)

/-- The tunnel is on its way out: nothing is sent any more and nothing received is looked at. -/
def Conn.closing : Bool :=
  c.state == .fin || c.state == .finWait || c.state == .close

/-- `l2tp_tunnel_send`. -/
def tunnelSend (msg : Msg) (c : Conn) : Conn :=
  if c.closing then c else { c with out := c.out ++ [msg] }

/-- `l2tp_tunnel_free`. -/
def tunnelFree : Conn :=
  if c.state = .close then c else { c with state := .close, sessions := [] }

/-- `l2tp_tunnel_disconnect`. -/
def tunnelDisconnect (res err : UInt16) (c : Conn) : Conn :=
  if c.closing then c
  else if env.stopCcn then
    { tunnelSend (.stopCcn res err) c with state := .fin, sessions := [] }
  else tunnelFree { c with state := .fin }

/-- `l2tp_tunnel_finwait`. -/
def tunnelFinwait : Conn :=
  match c.state with
  | .waitSccrp | .waitScccn | .estb | .fin =>
    if env.timer then { c with state := .finWait, sessions := [] }
    else tunnelFree { c with state := .finWait, sessions := [] }
  | .init | .finWait | .close => c

/-- `l2tp_session_free`: the last session takes the tunnel with it. -/
def sessionFree (sid : UInt16) (c : Conn) : Conn :=
  let c := { c with sessions := c.sessions.filter fun s ↦ s.1 != sid }
  if c.sessions.isEmpty && !(c.switchTarget && env.linger) && c.state == .estb then
    tunnelDisconnect env 1 0 c
  else c

/-- `l2tp_tunnel_send_CDN`. -/
def tunnelSendCDN (sid peerSid res err : UInt16) (c : Conn) : Conn :=
  if env.cdn then tunnelSend (.cdn sid peerSid res err) c else c

/-! ### Challenges -/

/-- `comp_chap_md5`. -/
def compChapMd5 (secret chall : List UInt8) : List UInt8 :=
  md5 (ident :: secret ++ chall)

/-- `l2tp_tunnel_genchall`: whether it succeeded, and the tunnel after it. -/
def tunnelGenchall : Bool × Conn :=
  if c.secret.isEmpty then (true, { c with challenge := none })
  else match env.random with
    | none => (false, { c with challenge := none })
    | some chall => (true, { c with challenge := some chall, issued := c.issued ++ [chall] })

/-- `l2tp_tunnel_storechall`. -/
def tunnelStorechall (chall : Option (List UInt8)) (c : Conn) : Bool × Conn :=
  match chall with
  | none => (true, { c with challenge := none })
  | some octets =>
    if c.secret.isEmpty || !env.memory then (false, { c with challenge := none })
    else (true, { c with challenge := some octets })

/-- `l2tp_tunnel_genchallresp`: `none` is failure, `some none` no response at all. -/
def tunnelGenchallresp : Option (Option (List UInt8)) :=
  match c.challenge with
  | none => some none
  | some chall =>
    if c.secret.isEmpty then none else some (some (compChapMd5 md5 ident c.secret chall))

/-- `l2tp_tunnel_checkchallresp`: whether the peer is accepted. -/
def tunnelCheckchallresp (challresp : Option (List UInt8)) : Bool :=
  if c.secret.isEmpty then true
  else match c.challenge, challresp with
    | some chall, some resp =>
      resp.length == 16 && compChapMd5 md5 ident c.secret chall == resp
    | _, _ => false

/-! ### Opening -/

/-- The last attribute of a type, which is the one a handler's loop is left with. -/
def lastAttr (id : AttrId) (attrs : List Attr) : Option Attr :=
  (attrs.filter fun a ↦ a.id == id).getLast?

/-- Some attribute is mandatory and unknown to the handler. -/
def unknownAttr (known : List AttrId) (attrs : List Attr) : Bool :=
  attrs.any fun a ↦ a.m && !known.contains a.id

/-- `L2TP_V2_PROTOCOL_VERSION`. -/
def protocolV2 : UInt16 := 0x0100

/-- A Receive Window Size the handlers refuse. -/
def badWindow : Bool :=
  match lastAttr .recvWindowSize attrs with
  | some a => a.uint16 == 0 || decide (a.uint16 > 32768)
  | none => false

/-- `l2tp_tunnel_alloc`. -/
def tunnelAlloc (lnsMode switchTarget incoming : Bool) (secret : List UInt8) : Conn where
  state := .init
  lnsMode := lnsMode
  switchTarget := switchTarget
  incoming := incoming
  started := false
  secret := secret
  challenge := none
  peerTid := 0
  sessions := []
  out := []
  issued := []
  responses := []
  created := []

/-- `l2tp_recv_SCCRQ`: the tunnel it opens, if it does. -/
def recvSCCRQ (confSecret : List UInt8) (attrs : List Attr) : Option Conn :=
  if env.apShutdown || env.maxStarting || env.maxSessions || env.connlimit then none
  else if (lastAttr .messageDigest attrs).isSome then none
  else match lastAttr .assignedTunnelId attrs, lastAttr .protocolVersion attrs,
      lastAttr .framingCapabilities attrs with
    | some tid, some version, some _ =>
      if version.uint16 ≠ protocolV2 then none
      else if badWindow attrs then none
      else
        let (ok, c) := tunnelStorechall env ((lastAttr .challenge attrs).map Attr.octets)
          (tunnelAlloc true false true confSecret)
        if ok then some { c with peerTid := tid.uint16 } else none
    | _, _, _ => none

/-- `l2tp_create_tunnel_exec`: a tunnel from the command line, in the mode given there. -/
def createTunnel (lnsMode : Bool) (secret : List UInt8) : Conn :=
  tunnelAlloc lnsMode false false secret

/-- `l2tp_switch_target_connect`. -/
def targetConnect (secret : List UInt8) : Conn :=
  tunnelAlloc false true false secret

/-- `l2tp_send_SCCRQ`. -/
def sendSCCRQ : Conn :=
  if !env.packet then tunnelFree c
  else
    let (ok, c) := tunnelGenchall env c
    if !ok then tunnelFree c
    else
      let c := tunnelSend (.sccrq c.challenge) c
      if !env.push then tunnelFree c else { c with state := .waitSccrp }

/-- `l2tp_send_SCCRP`: the peer's challenge is answered, and replaced by the own one. -/
def sendSCCRP : Conn :=
  if !env.packet then tunnelFree c
  else match tunnelGenchallresp md5 2 c with
    | none => tunnelFree c
    | some resp =>
      let (ok, c) := tunnelGenchall env c
      if !ok then tunnelFree c
      else
        let c := tunnelSend (.sccrp resp c.challenge) c
        if !env.push then tunnelFree c else { c with state := .waitScccn }

/-- The start function `l2tp_tunnel_start` has put on the tunnel's context; it runs once. -/
def tunnelStart : Conn :=
  if c.started || c.state == .close then c
  else
    let c := { c with started := true }
    if c.incoming then sendSCCRP md5 env c else sendSCCRQ env c

/-! ### Control messages of the tunnel -/

/-- A Challenge Response has arrived while one was awaited. -/
def noteResponse (resp : Option (List UInt8)) (c : Conn) : Conn :=
  { c with responses := c.responses ++ (resp.map (ident, ·)).toList }

/-- `l2tp_tunnel_connect`. -/
def tunnelConnect : Bool × Conn :=
  if env.connect then (true, { c with state := .estb }) else (false, c)

/-- `l2tp_send_SCCCN`: the peer's challenge is answered and forgotten. -/
def sendSCCCN : Bool × Conn :=
  if !env.packet then (false, c)
  else match tunnelGenchallresp md5 3 c with
    | none => (false, c)
    | some resp => (true, tunnelSend (.scccn resp) { c with challenge := none })

/-- The last part of `l2tp_recv_SCCRP`, once the message is well formed. -/
def finishSCCRP : Conn :=
  let resp := (lastAttr .challengeResponse attrs).map Attr.octets
  let c := noteResponse 2 resp c
  if !tunnelCheckchallresp md5 2 c resp then tunnelDisconnect env 4 0 c
  else
    let (ok, c) := tunnelStorechall env ((lastAttr .challenge attrs).map Attr.octets) c
    if !ok then tunnelDisconnect env 2 4 c
    else
      let (ok, c) := sendSCCCN md5 env c
      if !ok then tunnelDisconnect env 2 0 c
      else
        let (ok, c) := tunnelConnect env c
        if !ok then tunnelDisconnect env 2 0 c else c

/-- `l2tp_recv_SCCRP`. -/
def recvSCCRP : Conn :=
  if c.state ≠ .waitSccrp then c
  else match lastAttr .assignedTunnelId attrs with
    | none => tunnelDisconnect env 2 0 c
    | some tid =>
      let c := { c with peerTid := tid.uint16 }
      if unknownAttr [.messageType, .randomVector, .hostName, .bearerCapabilities,
          .firmwareRevision, .vendorName, .protocolVersion, .framingCapabilities,
          .assignedTunnelId, .recvWindowSize, .challenge, .challengeResponse] attrs then
        tunnelDisconnect env 2 8 c
      else if (lastAttr .framingCapabilities attrs).isNone then tunnelDisconnect env 2 0 c
      else match lastAttr .protocolVersion attrs with
        | none => tunnelDisconnect env 2 0 c
        | some version =>
          if version.uint16 ≠ protocolV2 then tunnelDisconnect env 5 0 c
          else if badWindow attrs then tunnelDisconnect env 2 3 c
          else finishSCCRP md5 env attrs c

/-- `l2tp_recv_SCCCN`. -/
def recvSCCCN : Conn :=
  if c.state ≠ .waitScccn then c
  else if unknownAttr [.messageType, .hostName, .vendorName, .bearerCapabilities, .recvWindowSize,
      .protocolVersion, .framingCapabilities, .assignedTunnelId, .randomVector,
      .challengeResponse] attrs then tunnelDisconnect env 2 8 c
  else
    let resp := (lastAttr .challengeResponse attrs).map Attr.octets
    let c := noteResponse 3 resp c
    if !tunnelCheckchallresp md5 3 c resp then tunnelDisconnect env 4 0 c
    else
      let (ok, c) := tunnelConnect env { c with challenge := none }
      if !ok then tunnelDisconnect env 2 0 c else c

/-- `l2tp_recv_StopCCN`. -/
def recvStopCCN : Conn :=
  if c.state = .close ∨ c.state = .finWait then c
  else
    let c := match lastAttr .assignedTunnelId attrs with
      | some tid => if c.peerTid = 0 then { c with peerTid := tid.uint16 } else c
      | none => c
    tunnelFinwait env c

/-! ### Calls the peer asks for -/

/-- `l2tp_session_incall_reply`: whether it succeeded. -/
def incallReply (sid : UInt16) (c : Conn) : Bool × Conn :=
  if !env.timer || !env.icrp then (false, c) else (true, tunnelSend (.icrp sid) c)

/-- `l2tp_session_outcall_reply`. -/
def outcallReply (sid : UInt16) (c : Conn) : Bool × Conn :=
  if !env.timer || !env.ocrp then (false, c)
  else
    let c := tunnelSend (.ocrp sid) c
    if !env.occn then (false, c)
    else (env.sessConnect, tunnelSend (.occn sid) c)

/-- What ICRQ and OCRQ have in common, after the test whether the message is expected: the limits,
the attributes, the new session, and `reply`. `switched` is the result and error code with which
the switch refuses a call, if it does. -/
def acceptCall (known : List AttrId) (switched : Option (UInt16 × UInt16))
    (reply : UInt16 → Conn → Bool × Conn) (attrs : List Attr) (c : Conn) : Conn :=
  if env.apShutdown || env.maxStarting || env.maxSessions || env.connlimit then c
  else match lastAttr .assignedSessionId attrs with
    | none => tunnelSendCDN env 0 0 2 6 c
    | some peer =>
      match env.session with
      | none => tunnelSendCDN env 0 peer.uint16 2 4 c
      | some sid =>
        let c := { c with
          sessions := c.sessions ++ [(sid, peer.uint16)], created := c.created ++ [sid] }
        let refuse (res err : UInt16) (c : Conn) : Conn :=
          sessionFree env sid (tunnelSendCDN env sid peer.uint16 res err c)
        match switched with
        | some (res, err) => refuse res err c
        | none =>
          if unknownAttr known attrs then refuse 2 8 c
          else
            let (ok, c) := reply sid c
            if ok then c else refuse 2 4 c

/-- `l2tp_reject_on_target_tunnel`, when the tunnel is a target's. -/
def rejectOnTarget : Conn :=
  let peerSid := ((attrs.find? fun a ↦ a.id == .assignedSessionId).map Attr.uint16).getD 0
  tunnelSendCDN env 0 peerSid 2 6 c

/-- `l2tp_recv_ICRQ`. -/
def recvICRQ : Conn :=
  if c.switchTarget then rejectOnTarget env attrs c
  else if c.state ≠ .estb && c.lnsMode then c
  else
    acceptCall env [.assignedSessionId, .messageType, .randomVector, .callSerialNumber, .bearerType,
        .callingNumber, .calledNumber, .subAddress, .physicalChannelId]
      (if env.switchBegin then none else some (3, 0)) (incallReply env) attrs c

/-- `l2tp_recv_OCRQ`. -/
def recvOCRQ : Conn :=
  if c.switchTarget then rejectOnTarget env attrs c
  else if c.state ≠ .estb && !c.lnsMode then c
  else
    acceptCall env [.messageType, .randomVector, .callSerialNumber, .minimumBps, .maximumBps,
        .bearerType, .framingType, .calledNumber, .subAddress, .assignedSessionId]
      none (outcallReply env) attrs c

/-! ### Dispatch -/

/-- `l2tp_tunnel_recv`, by the number of the message type. -/
def tunnelRecv (msgType : UInt16) (mandatory : Bool) (attrs : List Attr) (c : Conn) : Conn :=
  match msgType.toNat with
  | 2 => recvSCCRP md5 env attrs c
  | 3 => recvSCCCN md5 env attrs c
  | 4 => recvStopCCN env attrs c
  | 7 => recvOCRQ env attrs c
  | 10 => recvICRQ env attrs c
  -- SCCRQ, HELLO, CDN without a session and the messages of sessions change nothing
  | 1 | 6 | 14 | 8 | 9 | 11 | 12 | 15 | 16 => c
  | _ => if mandatory then tunnelDisconnect env 2 8 c else c

/-- The body of the loop in `l2tp_tunnel_reply`: one message taken from the reception queue. -/
def processMessage (pack : Packet) (c : Conn) : Conn :=
  if c.closing then c
  else match pack.attrs with
    | [] => c
    | first :: _ =>
      if first.id ≠ .messageType then c
      else if pack.sid ≠ 0 then
        -- a message to a session may end it, and does not open another
        if c.sessions.any (fun s ↦ s.1 == pack.sid) && env.sessFreed then
          sessionFree env pack.sid c
        else c
      else tunnelRecv md5 env first.uint16 first.m pack.attrs c

/-- What can happen to a tunnel. -/
inductive TunnelEvent where
  /-- The start function runs. -/
  | start (env : Env)
  /-- A message of the peer is processed, and the send queue is pushed. -/
  | recv (pack : Packet) (env : Env)
  /-- `l2tp_tunnel_timeout`: the tunnel was not established in time. -/
  | timeout (env : Env)
  /-- The tunnel is closed from here. -/
  | shutdown (env : Env)
  /-- `l2tp_rtimeout` and the other places that give the tunnel up. -/
  | free
  /-- `l2tp_tunnel_create_session`: a call placed from here. -/
  | placeCall (env : Env)
  /-- `l2tp_send_HELLO`. -/
  | hello

def tunnelStep : TunnelEvent → Conn
  | .start env => tunnelStart md5 env c
  | .recv pack env =>
    let c := processMessage md5 env pack c
    if env.push then c else tunnelFree c
  | .timeout env => tunnelDisconnect env 1 0 c
  | .shutdown env => tunnelDisconnect env 0 0 c
  | .free => tunnelFree c
  | .placeCall env =>
    match c.state, env.session with
    | .estb, some sid =>
      let c := { c with sessions := c.sessions ++ [(sid, 0)] }
      if !env.timer || !env.packet then sessionFree env sid c
      else
        let c := tunnelSend (.callRequest sid) c
        if env.push then c else sessionFree env sid c
    | _, _ => c
  | .hello => tunnelSend .hello c

end

end AccelPpp.L2tp
