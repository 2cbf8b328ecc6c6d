import AccelPpp.Radius.Packet

/-!
# The reply to a RADIUS request (`rad_req_read` of `radius/req.c`)

The socket of a request is watched for edges: when it becomes readable `rad_req_read` is called
once, and what it leaves on the socket waits for the next datagram to arrive. It reads on past
datagrams of another identifier and past forged ones. But `rad_packet_recv` returns 1 for a datagram
that it refuses, as it does when nothing is left to be read, and the reading ends there.

The hash is a parameter, and memory does not run out.
-/

namespace AccelPpp.Radius.Reply

open List

/-- A datagram on the socket, with what the buffer holds that it will be read into. -/
structure Datagram where
  bytes : List UInt8
  old : ℕ → UInt8

/-- The buffer after the read. -/
def Datagram.buf (d : Datagram) (i : ℕ) : UInt8 := d.bytes.getD i (d.old i)

/-- What `read` returns; `REQ_LENGTH_MAX` bytes are asked for. -/
def Datagram.count (d : Datagram) : ℕ := min d.bytes.length 4096

/-- The part of `struct rad_req_t` that replies are held against. -/
structure Request where
  /-- `pack->id` -/
  id : ℕ
  /-- The Request Authenticator, `pack->buf + 4`. -/
  authenticator : List UInt8
  /-- `pack->secret`, up to its NUL. -/
  secret : List UInt8
  deriving DecidableEq

variable (md5 : List UInt8 → List UInt8) (dict : Dict) (req : Request)

/-- `rad_packet_recv` on the next datagram; `none` when it is refused. -/
def packetRecv (d : Datagram) : Option RadPacket := radPacketRecv dict d.buf d.count

/-- `verify_response_authenticator`; it is true when that returns 0. -/
def verifyResponseAuthenticator (d : Datagram) (pack : RadPacket) : Bool :=
  md5 (bytesAt d.buf 0 4 ++ req.authenticator ++ bytesAt d.buf 20 (pack.len - 20) ++ req.secret) =
    bytesAt d.buf 4 16

/-- The loop of `rad_req_read` over the datagrams that wait: what is delivered, and what still waits
after the call. -/
def radReqRead : List Datagram → Option Datagram × List Datagram
  | [] => (none, [])
  | d :: queue =>
    match packetRecv dict d with
    | none => (none, queue)
    | some pack =>
      if pack.id ≠ req.id ∨ ¬ verifyResponseAuthenticator md5 req d pack then radReqRead queue
      else (some d, queue)

/-- The datagram is a packet with the identifier of the request and a valid Response
Authenticator. -/
def genuine (d : Datagram) : Bool :=
  (packetRecv dict d).any fun pack ↦
    pack.id = req.id ∧ verifyResponseAuthenticator md5 req d pack

/-- The first genuine datagram is delivered. -/
def Delivers (queue : List Datagram) : Prop :=
  (radReqRead md5 dict req queue).1 = queue.find? (genuine md5 dict req)

/-- What one datagram does to the reading. -/
lemma radReqRead_cons (d : Datagram) (queue : List Datagram) :
    radReqRead md5 dict req (d :: queue) =
      if packetRecv dict d = none then (none, queue)
      else if genuine md5 dict req d then (some d, queue)
      else radReqRead md5 dict req queue := by
  rw [radReqRead, genuine]
  cases packetRecv dict d with
  | none => rfl
  | some pack =>
    by_cases h : pack.id = req.id ∧ verifyResponseAuthenticator md5 req d pack
    · simp [h]
    · simp only [not_and_or.mp h, Option.any_some, decide_eq_true_eq, h, if_true, if_false,
        reduceCtorEq]

/-- **A reply is not masked** exactly if no datagram that is refused comes before the first genuine
one. -/
theorem delivers_iff (queue : List Datagram) :
    Delivers md5 dict req queue ↔ (queue.any (genuine md5 dict req) →
      ∀ d ∈ queue.takeWhile fun d ↦ ¬ genuine md5 dict req d, packetRecv dict d ≠ none) := by
  induction queue with
  | nil => simp [Delivers, radReqRead]
  | cons d queue ih =>
    rw [Delivers, radReqRead_cons, find?_cons, any_cons, takeWhile_cons]
    by_cases hg : genuine md5 dict req d
    · have hrecv : packetRecv dict d ≠ none := by
        intro hnone
        simp [genuine, hnone] at hg
      simp [hg, hrecv]
    by_cases hrecv : packetRecv dict d = none
    · -- the reading ends here, and is right only if there is nothing to find
      rw [if_pos hrecv, Bool.eq_false_iff.mpr hg]
      show none = queue.find? (genuine md5 dict req) ↔ _
      rw [eq_comm]
      simp [hrecv]
    · simpa [hg, hrecv, Delivers] using ih

/-- A reply of twenty bytes whose authenticator is all zeros, as is every hash here. -/
def accept : Datagram := ⟨[2, 7, 0, 20] ++ replicate 16 0, fun _ ↦ 0⟩

/-- One byte is enough to mask the reply behind it, which stays on the socket. -/
theorem reply_masked :
    let md5 : List UInt8 → List UInt8 := fun _ ↦ replicate 16 0
    let req : Request := ⟨7, replicate 16 1, [115]⟩
    genuine md5 ⟨[], []⟩ req accept = true ∧
      (radReqRead md5 ⟨[], []⟩ req [⟨[0], fun _ ↦ 0⟩, accept]).1.isNone ∧
      (radReqRead md5 ⟨[], []⟩ req [⟨[0], fun _ ↦ 0⟩, accept]).2.length = 1 := by
  decide

end AccelPpp.Radius.Reply
