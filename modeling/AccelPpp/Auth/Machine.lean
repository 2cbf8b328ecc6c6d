import AccelPpp.Auth.Pap
import AccelPpp.Auth.Chap
import AccelPpp.Lib.Run

/-!
# The authentication phase of a session

One session authenticates its peer with one of the three protocols. A run is any sequence of frames,
late answers of a password database, and timers. Timers fire only while they are armed, frames reach
a handler only while it is registered, and a database answers only what it was asked. When the
session is terminated, the protocol is finished and the open queries are withdrawn.
-/

namespace AccelPpp.Auth

open ByteReader

inductive AuthEvent where
  /-- A frame of the protocol is read from the channel. -/
  | frame (f : Frame) (env : Env)
  /-- A database answers a query it was asked before. -/
  | answer (q : Query) (ok : Bool) (env : Env)
  /-- The timeout timer fires. -/
  | timeout
  /-- CHAP's interval timer fires. -/
  | interval (env : Env)
  /-- `ppp_auth_restart`, at the end of a session timeout with RADIUS-Request as its action. -/
  | restart (env : Env)
  /-- The session is terminated from elsewhere. -/
  | terminate

def papStep (cfg : Config) (p : Pap) : AuthEvent → Pap
  | .frame f env => (papRecv cfg env f.size p).result f.mem
  | .answer q ok env =>
    if q ∈ p.asked then papAuthResult env ok { p with toSes := p.toSes.answered q ok } else p
  | .timeout => if p.timeout then papTimeout p else p
  | .interval _ => p
  -- PAP has no restart function, so that the session ends instead
  | .restart _ | .terminate => papTerminate p

/-- The receive function of one of the two CHAP protocols. -/
abbrev ChapHandler := Config → Env → Chap → ℕ → Reader Chap

/-- `chap_recv`, for a handler that is registered. -/
def chapRecv (recvResponse : ChapHandler) (cfg : Config) (env : Env) (size : ℕ) (c : Chap) :
    Reader Chap :=
  if c.registered then recv 2 (recvResponse cfg env c) size c else pure c

def chapStep (recvResponse : ChapHandler) (cfg : Config) (c : Chap) : AuthEvent → Chap
  | .frame f env => (chapRecv recvResponse cfg env f.size c).result f.mem
  | .answer q ok env =>
    if q ∈ c.asked then chapAuthResult cfg env ok { c with toSes := c.toSes.answered q ok } else c
  | .timeout => if c.timeout then chapTimeoutTimer cfg c else c
  | .interval env => if c.interval then chapRestart cfg env c else c
  | .restart env => if c.terminating then c else chapRestart cfg env c
  | .terminate => chapTerminate c

/-- The protocol that was negotiated, with its state. -/
inductive AuthData where
  | pap (p : Pap)
  | chapMd5 (c : Chap)
  | mschapV2 (c : Chap)
deriving DecidableEq

/-- The receive function of the protocol. -/
def AuthData.recv (H : Crypto) (cfg : Config) (env : Env) (size : ℕ) : AuthData → Reader AuthData
  | .pap p => .pap <$> papRecv cfg env size p
  | .chapMd5 c => .chapMd5 <$> chapRecv (chapMd5RecvResponse H) cfg env size c
  | .mschapV2 c => .mschapV2 <$> chapRecv (mschapV2RecvResponse H) cfg env size c

def authStep (H : Crypto) (cfg : Config) : AuthData → AuthEvent → AuthData
  | .pap p, e => .pap (papStep cfg p e)
  | .chapMd5 c, e => .chapMd5 (chapStep (chapMd5RecvResponse H) cfg c e)
  | .mschapV2 c, e => .mschapV2 (chapStep (mschapV2RecvResponse H) cfg c e)

/-- The session of an authentication. -/
def AuthData.ses : AuthData → Ses
  | .pap p => p.toSes
  | .chapMd5 c | .mschapV2 c => c.toSes

/-- `auth_layer_start`: the protocol has just been started. -/
inductive Begun (cfg : Config) : AuthData → Prop where
  | pap : Begun cfg (.pap (papStart Pap.init))
  | chapMd5 (random : List UInt8) : Begun cfg (.chapMd5 (chapStart cfg random Chap.init))
  | mschapV2 (random : List UInt8) : Begun cfg (.mschapV2 (chapStart cfg random Chap.init))

end AccelPpp.Auth
