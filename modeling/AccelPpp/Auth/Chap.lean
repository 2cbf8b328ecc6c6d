import AccelPpp.Auth.Session

/-!
# CHAP-MD5 and MS-CHAPv2

`auth_chap_md5.c` and `auth_mschap_v2.c`. The two differ in the layout of the response, the digest,
and in what becomes of a response that is not good: only CHAP-MD5 knows `any-login`, and only
CHAP-MD5 merely answers Failure when no password is known for the name.

A challenge is sent under the current identifier, which is counted up after each success. It stays
the same when a new challenge is made (`interval`, restart), and after a success `val` is still the
old challenge while `id` is already the next identifier.

Like PAP, both delete the timer before they look at a response. The length of the name is computed
in `size_t`, so that a frame shorter than the fixed part has a name of almost `2 ^ 64` bytes.
-/

namespace AccelPpp.Auth

open ByteReader

/-- `struct chap_auth_data`, with the session. -/
structure Chap extends Ses where
  /-- The handler is registered. -/
  registered : Bool
  id : UInt8
  val : List UInt8
  /-- The timeout timer is armed. -/
  timeout : Bool
  /-- The interval timer is armed. -/
  interval : Bool
  failure : ℕ
  /-- The name whose answer is awaited. -/
  name : Option Name
  started : Bool
deriving DecidableEq

/-- The hash functions and the block cipher; `desEncrypt` has the input first, then the 7-byte key.
-/
structure Crypto where
  md5 : List UInt8 → List UInt8
  md4 : List UInt8 → List UInt8
  sha1 : List UInt8 → List UInt8
  desEncrypt : List UInt8 → List UInt8 → List UInt8

/-! ### Common to both -/

/-- `auth_data_init`. -/
def Chap.init : Chap where
  toSes := Ses.fresh
  registered := false
  id := 0
  val := []
  timeout := false
  interval := false
  failure := 0
  name := none
  started := false

section

variable (H : Crypto) (cfg : Config) (env : Env) (name : Name) (c : Chap)

/-- `chap_send_challenge`; a new challenge is made from the bytes given. -/
def chapSendChallenge (new : Option (List UInt8)) (c : Chap) : Chap :=
  let val := new.getD c.val
  { c with
    toSes := c.toSes.send (.challenge c.id val)
    val := val
    timeout := c.timeout || cfg.timeout != 0 }

/-- `chap_start`. -/
def chapStart (random : List UInt8) (c : Chap) : Chap :=
  chapSendChallenge cfg (some random) { c with id := 1, name := none, registered := true }

/-- `chap_finish`. The name is freed; the pointer to it stays, but is not looked at any more. -/
def chapFinish : Chap :=
  { c with timeout := false, interval := false, name := none, registered := false }

/-- `ap_session_terminate`, which finishes the protocol. -/
def chapTerminate : Chap :=
  if c.terminating then c else chapFinish { c with toSes := c.toSes.terminate }

/-- `ppp_auth_failed`. -/
def chapAuthFailed (name : Option Name) (c : Chap) : Chap :=
  chapTerminate { c with toSes := c.toSes.noteFailed name }

/-- `chap_send_failure`. -/
def chapSendFailure : Chap :=
  { c with toSes := c.toSes.send (.failure c.id) }

/-- `chap_send_success`. -/
def chapSendSuccess (id : UInt8) (c : Chap) : Chap :=
  { c with toSes := c.toSes.send (.success id) }

/-- Giving up without a name: `ap_session_terminate` once the protocol has started the session, and
`ppp_auth_failed` before. -/
def chapGiveUp : Chap :=
  if c.started then chapTerminate c else chapAuthFailed none c

/-- `chap_timeout_timer`. -/
def chapTimeoutTimer : Chap :=
  let c := { c with failure := c.failure + 1 }
  if c.failure = cfg.maxFailure then chapGiveUp c else chapSendChallenge cfg none c

/-- `chap_restart_timer` and `chap_restart`. -/
def chapRestart : Chap :=
  chapSendChallenge cfg (some env.random) c

/-- What follows a success, at once or later. The session hears of the first one only, and the name
of a later one is dropped. -/
def chapGrant : Chap :=
  let c :=
    if c.started then chapSendSuccess c.id c
    else match pppAuthSucceeded env name c.toSes with
      | (false, ses) => chapTerminate (chapSendFailure { c with toSes := ses })
      | (true, ses) =>
        { chapSendSuccess c.id { c with toSes := ses } with
          started := true, interval := cfg.interval != 0 }
  { c with id := c.id + 1 }

/-- What follows a denial. -/
def chapDeny : Chap :=
  let c := chapSendFailure c
  if c.started then chapTerminate c else chapAuthFailed (some name) c

/-- `auth_result`: the answer that was awaited. -/
def chapAuthResult (ok : Bool) (c : Chap) : Chap :=
  match c.name with
  | none => c
  | some name =>
    let c := { c with name := none }
    if ok then chapGrant cfg env name c
    else
      let c := chapDeny name c
      { c with id := c.id + 1 }

/-- A response with a value of the wrong size. -/
def chapBadSize : Chap :=
  chapGiveUp (chapSendFailure c)

/-- The query is put to a database and will be answered later. -/
def chapAsk (q : Query) (c : Chap) : Chap :=
  { c with name := some q.name, asked := c.asked ++ [q] }

/-- The query has been accepted. -/
def chapAccept (q : Query) (c : Chap) : Chap :=
  chapGrant cfg env q.name { c with toSes := c.toSes.accept q }

/-- What happens to a response before its contents matter: the timer is deleted, a response to the
challenge before the current one is answered as before, and everything is ignored while an answer is
awaited or if it has another identifier. -/
def chapResponse (print : Reader Unit) (c : Chap) (body : Chap → Reader Chap) : Reader Chap := do
  let c := { c with timeout := false }
  print
  let id ← Reader.byte 3
  if c.started && id.toNat + 1 == c.id.toNat then return chapSendSuccess id c
  else if c.name.isSome then return c
  else if id ≠ c.id then return c
  else body c

/-! ### CHAP-MD5 -/

/-- The log line of a CHAP-MD5 response: its value as long as it says it is, and the name. -/
def chapMd5Print (len : ℕ) : Reader Unit :=
  if cfg.verbose then do
    let valSize ← Reader.byte 6
    let _ ← Reader.bytes 7 valSize.toNat
    -- the length of the name is an `int` here, and below zero nothing is printed
    let _ ← Reader.bytes 23 (len - 21)
    return ()
  else pure ()

/-- `any-login` in CHAP-MD5. -/
def chapAnyLogin : Chap :=
  match pppAuthSucceeded env name c.toSes with
  | (false, ses) => chapTerminate (chapSendFailure { c with toSes := ses })
  | (true, ses) =>
    { chapSendSuccess c.id { c with toSes := ses } with started := true, id := c.id + 1 }

/-- The part of CHAP-MD5's `chap_recv_response` from `pwdb_check` on. -/
def chapMd5Check (value : List UInt8) (c : Chap) : Chap :=
  let q : Query := { name := name, id := c.id, challenge := c.val, response := .chapMd5 value }
  match pwdbCheck env q with
  | .wait => chapAsk q c
  | .noImpl =>
    match pwdbGetPasswd env name with
    | none => chapSendFailure c
    | some passwd =>
      if H.md5 (c.id :: passwd ++ c.val) = value then chapAccept cfg env q c else chapDeny name c
  | .denied => chapDeny name c
  | .success => chapAccept cfg env q c

/-- CHAP-MD5's `chap_recv_response`. -/
def chapMd5RecvResponse (len : ℕ) : Reader Chap :=
  chapResponse (chapMd5Print cfg len) c fun c ↦ do
    let valSize ← Reader.byte 6
    if valSize ≠ 16 then return chapBadSize c
    else
      let name ← Reader.str 23 (sizeDiff len 21)
      if cfg.anyLogin then return chapAnyLogin env name c
      else
        let value ← Reader.bytes 7 16
        return chapMd5Check H cfg env name value c

/-! ### MS-CHAPv2 -/

/-- The log line of an MS-CHAPv2 response. -/
def mschapV2Print (len : ℕ) : Reader Unit :=
  if cfg.verbose then do
    let _ ← Reader.bytes 7 16
    let _ ← Reader.bytes 31 24
    let _ ← Reader.byte 55
    let _ ← Reader.bytes 56 (len - 54)
    return ()
  else pure ()

/-- The NT response that `chap_check_response` computes. -/
def mschapV2NtHash (passwd peerChallenge val : List UInt8) (name : Name) : List UInt8 :=
  let uPasswd := passwd.flatMap fun b ↦ [b, 0]
  let cHash := (H.sha1 (peerChallenge ++ val ++ name)).take 8
  let zHash := H.md4 uPasswd ++ List.replicate 5 0
  H.desEncrypt cHash (zHash.take 7) ++ H.desEncrypt cHash ((zHash.drop 7).take 7) ++
    H.desEncrypt cHash ((zHash.drop 14).take 7)

/-- The part of MS-CHAPv2's `chap_recv_response` from `pwdb_check` on. -/
def mschapV2Check (peerChallenge reserved ntHash : List UInt8) (flags : UInt8) (c : Chap) : Chap :=
  let q : Query :=
    { name := name, id := c.id, challenge := c.val
      response := .mschapV2 peerChallenge reserved ntHash flags }
  match pwdbCheck env q with
  | .wait => chapAsk q c
  | .noImpl =>
    match pwdbGetPasswd env name with
    | none => chapDeny name c
    | some passwd =>
      if mschapV2NtHash H passwd peerChallenge c.val name = ntHash then chapAccept cfg env q c
      else chapDeny name c
  | .denied => chapDeny name c
  | .success => chapAccept cfg env q c

/-- MS-CHAPv2's `chap_recv_response`. -/
def mschapV2RecvResponse (len : ℕ) : Reader Chap :=
  chapResponse (mschapV2Print cfg len) c fun c ↦ do
    let valSize ← Reader.byte 6
    if valSize ≠ 49 then return chapBadSize c
    else
      let name ← Reader.str 56 (sizeDiff len 54)
      if !env.memory then return chapGiveUp c
      else
        let peerChallenge ← Reader.bytes 7 16
        let reserved ← Reader.bytes 23 8
        let ntHash ← Reader.bytes 31 24
        let flags ← Reader.byte 55
        return mschapV2Check H cfg env name peerChallenge reserved ntHash flags c

end

end AccelPpp.Auth
