import AccelPpp.Auth.Session

/-!
# PAP

`auth_pap.c`: one kind of frame, the request with name and password, answered with Ack or Nak. While
a database has not answered, the name is kept in `peer_id` and further requests are ignored; after
success every request is acknowledged.

The timer is deleted as soon as a request arrives, **before** the request is looked at. Both tests
on the lengths in a request are made in `size_t`, where `len - 5` and `len - 6 - peer_id_len` wrap
below zero.
-/

namespace AccelPpp.Auth

open ByteReader

/-- `struct pap_auth_data`, with the session. -/
structure Pap extends Ses where
  /-- The name whose answer is awaited. -/
  peerId : Option Name
  /-- The identifier of that request. -/
  reqId : UInt8
  started : Bool
  active : Bool
  /-- The timeout timer is armed. -/
  timeout : Bool
deriving DecidableEq

/-- `auth_data_init`. -/
def Pap.init : Pap where
  toSes := Ses.fresh
  peerId := none
  reqId := 0
  started := false
  active := false
  timeout := false

section

variable (env : Env) (id : UInt8) (name : Name) (p : Pap)

/-- `pap_start`. -/
def papStart : Pap :=
  { p with timeout := true, active := true }

/-- `pap_finish`. The name is freed; the pointer to it stays, but is not looked at any more. -/
def papFinish : Pap :=
  { p with active := false, timeout := false, peerId := none }

/-- `ap_session_terminate`, which finishes the protocol. -/
def papTerminate : Pap :=
  if p.terminating then p else papFinish { p with toSes := p.toSes.terminate }

/-- `ppp_auth_failed`. -/
def papAuthFailed (name : Option Name) (p : Pap) : Pap :=
  papTerminate { p with toSes := p.toSes.noteFailed name }

/-- `pap_timeout`. -/
def papTimeout : Pap :=
  papAuthFailed none p

/-- `pap_send_ack`. -/
def papSendAck : Pap :=
  { p with toSes := p.toSes.send (.papAck id) }

/-- `pap_send_nak`. -/
def papSendNak : Pap :=
  { p with toSes := p.toSes.send (.papNak id) }

/-- What follows a success, at once or later: the session may still refuse. -/
def papGrant : Pap :=
  match pppAuthSucceeded env name p.toSes with
  | (false, ses) => papTerminate (papSendNak id { p with toSes := ses })
  | (true, ses) => { papSendAck id { p with toSes := ses } with started := true }

/-- What follows a denial. -/
def papDeny : Pap :=
  let p := papSendNak id p
  if p.started then papTerminate p else papAuthFailed (some name) p

/-- `pap_auth_result`: the answer that was awaited. -/
def papAuthResult (ok : Bool) (p : Pap) : Pap :=
  match p.peerId with
  | none => p
  | some name =>
    let p := { p with peerId := none }
    if ok then papGrant env p.reqId name p else papDeny p.reqId name p

/-- The part of `pap_recv_req` from `pwdb_check` on. -/
def papCheck (passwd : List UInt8) (p : Pap) : Pap :=
  let q : Query := { name := name, id := id, challenge := [], response := .pap passwd }
  match pwdbCheck env q with
  | .wait => { p with peerId := some name, reqId := id, asked := p.asked ++ [q] }
  | .noImpl =>
    match pwdbGetPasswd env name with
    | none => papDeny id name p
    | some passwd2 =>
      if passwd2 = passwd then papGrant env id name { p with toSes := p.toSes.accept q }
      else papDeny id name p
  | .denied => papDeny id name p
  | .success => papGrant env id name { p with toSes := p.toSes.accept q }

end

/-- `pap_recv_req`. -/
def papRecvReq (cfg : Config) (env : Env) (p : Pap) (len : ℕ) : Reader Pap :=
  if !p.active then pure p
  else do
    let p := { p with timeout := false }
    let id ← Reader.byte 3
    if p.started then return papSendAck id p
    else if p.peerId.isSome then return p
    else
      let peerIdLen ← Reader.byte 6
      if sizeDiff len 5 < peerIdLen.toNat then return p
      else
        let passwdLen ← Reader.byte (7 + peerIdLen.toNat)
        if sizeDiff len (6 + peerIdLen.toNat) < passwdLen.toNat then return p
        else
          let peerId ← Reader.str 7 peerIdLen.toNat
          if cfg.anyLogin then return papGrant env id peerId p
          else
            let passwd ← Reader.str (8 + peerIdLen.toNat) passwdLen.toNat
            return papCheck env id peerId passwd p

/-- `pap_recv`. -/
def papRecv (cfg : Config) (env : Env) (size : ℕ) (p : Pap) : Reader Pap :=
  recv 1 (papRecvReq cfg env p) size p

end AccelPpp.Auth
