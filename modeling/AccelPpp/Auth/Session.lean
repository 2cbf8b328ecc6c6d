import AccelPpp.Lib.ByteReader

/-!
# What the authentication protocols share

PAP, CHAP-MD5 and MS-CHAPv2 stand between the peer's frames, the password databases and the PPP
session. This file has what surrounds them: the databases as `pwdb.c` asks them, the session's part
in `ppp_auth.c`, the buffer a frame is read from, and the test on lengths that the three receive
functions have in common.

A frame is read into a buffer that is used again and again. `Frame.mem` is the whole buffer, of
which the first `Frame.size` bytes have been received; what lies behind was left there by earlier
frames. The handlers are `Reader` programs over it, so that every byte they look at is on record.

Three fields of `Ses` are not in the source: `authorized`, the names for which the authentication
layer reported success; `asked`, the queries to which a database has still to give its answer; and
`accepted`, the queries a database (or the digest computed here) has accepted. What was sent is
`out`.
-/

namespace AccelPpp.Auth

open ByteReader

/-- A C string without its NUL. -/
abbrev Name := List UInt8

/-! ### Password databases -/

/-- `PWDB_SUCCESS`, `PWDB_DENIED`, `PWDB_WAIT`, `PWDB_NO_IMPL`. -/
inductive Answer where
  | success | denied | wait | noImpl
deriving DecidableEq

/-- What the peer has given as proof. -/
inductive Response where
  | pap (passwd : List UInt8)
  | chapMd5 (value : List UInt8)
  | mschapV2 (peerChallenge reserved ntHash : List UInt8) (flags : UInt8)
deriving DecidableEq

/-- One question to the databases: a name and a response. -/
structure Query where
  name : Name
  /-- The identifier of the frame. For PAP it is not part of the question. -/
  id : UInt8
  /-- The challenge the response is checked against; none for PAP. -/
  challenge : List UInt8
  response : Response
deriving DecidableEq

/-- `struct pwdb_t`: either function may be missing. -/
structure Pwdb where
  check : Option (Query → Answer)
  getPasswd : Option (Name → Option (List UInt8))

/-- What the surroundings answer during one event. -/
structure Env where
  pwdb : List Pwdb
  /-- `ap_check_username`: a second session of that name is refused. -/
  checkUsername : Name → Bool
  /-- `ap_session_set_username` refuses the name. -/
  setUsername : Name → Bool
  /-- `connect_ppp_channel` succeeds. -/
  connect : Bool
  /-- The bytes read for a new challenge. -/
  random : List UInt8
  /-- There is memory for a name. -/
  memory : Bool

/-- The loop of `pwdb_check` over the databases, with the answer so far. -/
def pwdbCheckLoop (q : Query) (res : Answer) : List Pwdb → Answer
  | [] => res
  | pwdb :: rest =>
    match pwdb.check with
    | none => pwdbCheckLoop q res rest
    | some check =>
      match check q with
      | .noImpl => pwdbCheckLoop q res rest
      | .denied => pwdbCheckLoop q .denied rest
      | .success => .success
      | .wait => .wait

section

variable (f : Frame) (env : Env) (q : Query)

/-- `pwdb_check`. -/
def pwdbCheck : Answer :=
  if env.checkUsername q.name then .denied else pwdbCheckLoop q .noImpl env.pwdb

/-- `pwdb_get_passwd`: the first password any database has. -/
def pwdbGetPasswd (name : Name) : Option (List UInt8) :=
  env.pwdb.findSome? fun pwdb ↦ pwdb.getPasswd.bind fun get ↦ get name

/-! ### The session -/

/-- The frames the protocols send. -/
inductive Msg where
  | papAck (id : UInt8)
  | papNak (id : UInt8)
  | challenge (id : UInt8) (val : List UInt8)
  | success (id : UInt8)
  | failure (id : UInt8)
deriving DecidableEq

structure Ses where
  /-- The name recorded in the session. -/
  username : Option Name
  /-- `ap_session_terminate` was called. -/
  terminating : Bool
  out : List Msg
  authorized : List Name
  asked : List Query
  accepted : List Query
deriving DecidableEq

/-- The session when its authentication layer starts. -/
def Ses.fresh : Ses where
  username := none
  terminating := false
  out := []
  authorized := []
  asked := []
  accepted := []

/-- `ppp_auth_succeeded`: whether it succeeded, and the session after it. -/
def pppAuthSucceeded (name : Name) (s : Ses) : Bool × Ses :=
  if env.setUsername name then (false, s)
  else if !env.connect then (false, { s with username := some name })
  else (true, { s with username := some name, authorized := s.authorized ++ [name] })

/-- The first part of `ppp_auth_failed`: a name is recorded if the session has none. -/
def Ses.noteFailed (name : Option Name) (s : Ses) : Ses :=
  { s with username := s.username.or name }

/-- What `ap_session_terminate` does to the session: the queries still open are withdrawn. -/
def Ses.terminate (s : Ses) : Ses :=
  { s with terminating := true, asked := [] }

/-- The query has been accepted. -/
def Ses.accept (s : Ses) : Ses :=
  { s with accepted := s.accepted ++ [q] }

def Ses.send (msg : Msg) (s : Ses) : Ses :=
  { s with out := s.out ++ [msg] }

/-- A database gives its answer to a query it was asked. -/
def Ses.answered (ok : Bool) (s : Ses) : Ses :=
  { s with asked := s.asked.erase q, accepted := if ok then s.accepted ++ [q] else s.accepted }

/-- The options of section `auth`. -/
structure Config where
  /-- `conf_ppp_verbose`. -/
  verbose : Bool
  anyLogin : Bool
  timeout : ℕ
  interval : ℕ
  maxFailure : ℕ
  /-- The default is 5, and `load_config` takes positive values only. -/
  timeout_pos : 0 < timeout

/-- The options where the configuration file has none. -/
def Config.default : Config where
  verbose := false
  anyLogin := false
  timeout := 5
  interval := 0
  maxFailure := 3
  timeout_pos := by decide

/-! ### Frames -/

structure Frame where
  /-- The buffer. -/
  mem : ℕ → UInt8
  /-- How many bytes of it the frame has. -/
  size : ℕ
  /-- The buffer has `PPP_BUF_SIZE` bytes. -/
  size_le : size ≤ 8192

/-- `ntohs(hdr->len)`. -/
def Frame.len : ℕ :=
  (f.mem 4).toNat * 256 + (f.mem 5).toNat

/-- The frame is at least a header, its length field is not below the header's and not above what
was received, and it has the code. -/
def Frame.Accepted (code : UInt8) : Prop :=
  6 ≤ f.size ∧ 4 ≤ f.len ∧ f.len + 2 ≤ f.size ∧ f.mem 2 = code

instance (code : UInt8) : Decidable (f.Accepted code) :=
  inferInstanceAs (Decidable (_ ∧ _ ∧ _ ∧ _))

end

/-- `a - b` in `size_t`. -/
def sizeDiff (a b : ℕ) : ℕ :=
  (a + 2 ^ 64 - b) % 2 ^ 64

/-- `pap_recv` and both `chap_recv`: the test on lengths, and `handler` for the one code they know.
-/
def recv {σ : Type} (code : UInt8) (handler : ℕ → Reader σ) (size : ℕ) (s : σ) : Reader σ :=
  if size < 6 then pure s
  else do
    let hi ← Reader.byte 4
    let lo ← Reader.byte 5
    let len := hi.toNat * 256 + lo.toNat
    if len < 4 ∨ size - 2 < len then return s
    else
      let c ← Reader.byte 2
      if c = code then handler len else return s

section

variable {σ : Type} {code : UInt8} {handler : ℕ → Reader σ} {f : Frame} {s : σ}

lemma sizeDiff_of_le {a b : ℕ} (ha : a < 2 ^ 64) (h : b ≤ a) : sizeDiff a b = a - b := by
  rw [sizeDiff]
  omega

lemma sizeDiff_of_lt {a b : ℕ} (hb : b < 2 ^ 64) (h : a < b) : sizeDiff a b = a + 2 ^ 64 - b := by
  rw [sizeDiff]
  omega

/-- Only a difference that has not wrapped around is below a small number. -/
lemma sizeDiff_lt_iff {a b n : ℕ} (ha : a < 2 ^ 16) (hb : b < 2 ^ 16) (hn : n < 2 ^ 16) :
    sizeDiff a b < n ↔ b ≤ a ∧ a < b + n := by
  rcases Nat.lt_or_ge a b with hlt | hle
  · rw [sizeDiff_of_lt (by omega) hlt]
    omega
  · rw [sizeDiff_of_le (by omega) hle]
    omega

lemma Frame.len_lt (f : Frame) : f.len < 2 ^ 16 := by
  have hhi := (f.mem 4).toNat_lt
  have hlo := (f.mem 5).toNat_lt
  rw [Frame.len]
  omega

lemma result_recv :
    (recv code handler f.size s).result f.mem =
      if f.Accepted code then (handler f.len).result f.mem else s := by
  rw [recv]
  split
  · next hsize => exact (if_neg fun h ↦ absurd h.1 (by omega)).symm
  change (if f.len < 4 ∨ f.size - 2 < f.len then _ else _ : Reader σ).result f.mem = _
  split
  · next hlen => exact (if_neg fun h ↦ by have := h.2; omega).symm
  rw [Reader.result_bind]
  split
  · next hcode => exact (if_pos ⟨by omega, by omega, by omega, hcode⟩).symm
  · next hcode => exact (if_neg fun h ↦ hcode h.2.2.2).symm

lemma within_recv :
    (recv code handler f.size s).Within f.mem f.size ↔
      (f.Accepted code → (handler f.len).Within f.mem f.size) := by
  rw [recv, Reader.within_ite_not, Reader.within_bind, Reader.within_byte, Reader.within_bind,
    Reader.within_byte, Reader.result_byte]
  change (_ → _ ∧ _ ∧ (if f.len < 4 ∨ f.size - 2 < f.len then _ else _ : Reader σ).Within _ _) ↔ _
  rw [Reader.within_ite_not, Reader.within_bind, Reader.within_byte, Reader.within_ite]
  refine ⟨fun h ⟨hsize, hlen, hfits, hcode⟩ ↦ ((h (by omega)).2.2 (by omega)).2 hcode, fun h hsize ↦
    ⟨by omega, by omega, fun hlen ↦ ⟨by omega, fun hcode ↦ h ⟨?_, ?_, ?_, hcode⟩⟩⟩⟩ <;> omega

end

end AccelPpp.Auth
