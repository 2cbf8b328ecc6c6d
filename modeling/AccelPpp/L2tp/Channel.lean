import AccelPpp.L2tp.Tunnel
import AccelPpp.Lib.RingBuffer
import AccelPpp.Lib.Run

/-!
# The reliable control channel of an L2TP tunnel

The sequence numbers of a tunnel and what is kept because of them: messages that arrived before
their turn (`recv_queue`), messages that wait for the peer's window to open (`send_queue`), and
messages that have been sent and not been acknowledged (`rtms_queue`), with the timer that sends the
first of these again. What the messages say is not looked at: attributes are of any type `α`, and
what the handler of a message does to the channel is an input (`Action`).

Sequence numbers are compared by `nsnr_cmp`. It is not antisymmetric: of two numbers that are half
the sequence space apart each is greater than the other.

* `l2tp_conn_read` is one step: it stores what the socket holds, drops what has been acknowledged,
  processes the messages whose turn it is, and sends. Datagrams for another tunnel are not part of
  the batch.
* What the surroundings decide (a transmission fails, a timer cannot be started, the peer is
  unreachable) is an input.
* A tunnel that has been freed (`close`) is not called any more.
* `processed` records the messages that have been taken out of the reception queue and is not in the
  source. A message that is taken out while the tunnel disconnects, or that does not begin with a
  message type, is dropped without having been handled.

Left out are the length of the retransmission interval and `send_queue_len`.
-/

namespace AccelPpp.L2tp

/-- `uint16_t`, as a sequence number. -/
abbrev Seq := BitVec 16

/-- `nsnr_cmp` -/
def nsnrCmp (ns nr : Seq) : ℤ :=
  let sub := ns - nr
  let ref : Seq := -32767
  (if sub ≠ 0 ∧ sub < ref then 1 else 0) - (if ref ≤ sub then 1 else 0)

lemma nsnrCmp_eq (a b : Seq) :
    nsnrCmp a b = if (a - b).toNat = 0 then 0 else if (a - b).toNat ≤ 32768 then 1 else -1 := by
  rw [nsnrCmp]
  simp only [BitVec.lt_def, BitVec.le_def, ne_eq, ← BitVec.toNat_inj]
  rw [show (-32767 : Seq).toNat = 32769 from rfl, show (0 : Seq).toNat = 0 from rfl]
  split <;> split <;> split <;> try split
  all_goals omega

lemma nsnrCmp_neg_iff {a b : Seq} : nsnrCmp a b < 0 ↔ 32769 ≤ (a - b).toNat := by
  rw [nsnrCmp_eq]
  split <;> try split
  all_goals omega

lemma nsnrCmp_pos_iff {a b : Seq} :
    0 < nsnrCmp a b ↔ 0 < (a - b).toNat ∧ (a - b).toNat ≤ 32768 := by
  rw [nsnrCmp_eq]
  split <;> try split
  all_goals omega

/-- A control message, with the fields of its header that the channel uses. -/
structure CtrlMsg (α : Type) where
  ns : Seq
  nr : Seq
  attrs : List α
deriving DecidableEq

/-- `l2tp_packet_is_ZLB` -/
def CtrlMsg.isZLB {α : Type} (p : CtrlMsg α) : Bool := p.attrs.isEmpty

/-- The part of `l2tp_conn_t` that the channel consists of. -/
structure Channel (α : Type) where
  state : TunnelState
  ns : Seq
  nr : Seq
  peerNr : Seq
  sendQueue : List (CtrlMsg α)
  rtmsQueue : List (CtrlMsg α)
  /-- `recv_queue`, `recv_queue_sz` and `recv_queue_offt` -/
  recvQueue : RingBuffer (CtrlMsg α)
  peerRcvWndSz : Seq
  /-- `rtimeout_timer.tpd` is not NULL. -/
  rtimeoutTimer : Bool
  retransmit : ℕ
  maxRetransmit : ℕ
  processed : List (CtrlMsg α)

/-- What happens in `l2tp_tunnel_push_sendqueue`: which of its transmissions fails, if one does, and
whether the timer can be started. -/
structure PushEnv where
  failAt : Option ℕ
  timer : Bool
deriving DecidableEq

/-- What a handler, a timer or a command can do to the channel. -/
inductive Action (α : Type)
  /-- `l2tp_tunnel_send` -/
  | send (p : CtrlMsg α)
  /-- `l2tp_tunnel_push_sendqueue`; when it fails, some callers free the tunnel and others do not.
  -/
  | push (env : PushEnv) (free : Bool)
  /-- Messages are taken out of the send queue, as by `l2tp_session_clear_sendqueue`. -/
  | discard (keep : CtrlMsg α → Bool)
  /-- The state changes, to any but `close`. -/
  | setState (state : TunnelState)
  /-- The Receive Window Size of an SCCRP. -/
  | window (size : Seq)
  /-- `l2tp_tunnel_free` -/
  | free

/-- What the surroundings decide during `l2tp_conn_read`. -/
structure ReadEnv (α : Type) where
  unreachable : Bool
  /-- The timer can be set in `l2tp_tunnel_clean_rtmsqueue`. -/
  cleanTimer : Bool
  /-- What the handling of the messages does, by their place among those processed in this step. -/
  handlers : ℕ → List (Action α)
  push : PushEnv
  /-- The ZLB can be sent. -/
  zlb : Bool

namespace Channel

variable {α : Type}

/-- `RECV_WINDOW_SIZE_MAX` -/
def recvWindowSizeMax : ℕ := 32768

/-- `DEFAULT_PEER_RECV_WINDOW_SIZE` -/
def defaultPeerRecvWindowSize : Seq := 4

/-! ### Receiving -/

/-- `l2tp_tunnel_store_msg`, with `need_ack` -/
def storeMsg (c : Channel α) (pack : CtrlMsg α) : Channel α × Bool :=
  if nsnrCmp c.ns pack.nr < 0 then (c, false)
  else
    let c := { c with peerNr := if 0 < nsnrCmp pack.nr c.peerNr then pack.nr else c.peerNr }
    if pack.isZLB then (c, false)
    else if nsnrCmp pack.ns c.nr < 0 then (c, true)
    else
      let indx := (pack.ns - c.nr).toNat
      if c.recvQueue.size ≤ indx then (c, true)
      else if (c.recvQueue.slot indx).isSome then (c, true)
      else ({ c with recvQueue := c.recvQueue.put indx pack }, true)

/-- The acknowledgement is noted. -/
def noteAck (c : Channel α) (pack : CtrlMsg α) : Channel α :=
  { c with peerNr := if 0 < nsnrCmp pack.nr c.peerNr then pack.nr else c.peerNr }

/-- What becomes of a datagram. -/
lemma storeMsg_cases {c : Channel α} {p : CtrlMsg α} :
    (c.storeMsg p).1 = c ∧ nsnrCmp c.ns p.nr < 0 ∨
    (c.storeMsg p).1 = c.noteAck p ∧ (p.isZLB = true ∨ nsnrCmp p.ns c.nr < 0 ∨
      c.recvQueue.size ≤ (p.ns - c.nr).toNat ∨
      (c.recvQueue.slot (p.ns - c.nr).toNat).isSome = true) ∨
    (c.storeMsg p).1 = { c.noteAck p with
        recvQueue := c.recvQueue.put (p.ns - c.nr).toNat p } ∧ p.isZLB = false ∧
      (p.ns - c.nr).toNat < c.recvQueue.size ∧
      c.recvQueue.slot (p.ns - c.nr).toNat = none := by
  rw [storeMsg]
  split
  · next h => exact .inl ⟨rfl, h⟩
  refine .inr ?_
  dsimp only
  split
  · next h => exact .inl ⟨rfl, .inl h⟩
  next hzlb =>
  split
  · next h => exact .inl ⟨rfl, .inr (.inl h)⟩
  split
  · next h => exact .inl ⟨rfl, .inr (.inr (.inl h))⟩
  split
  · next h => exact .inl ⟨rfl, .inr (.inr (.inr h))⟩
  · next hsize hslot =>
    exact .inr ⟨rfl, Bool.eq_false_iff.mpr hzlb, Nat.lt_of_not_le hsize,
      Option.not_isSome_iff_eq_none.mp hslot⟩

/-- The loop of `l2tp_conn_read`, with `need_ack` -/
def storeAll (c : Channel α) : List (CtrlMsg α) → Channel α × Bool
  | [] => (c, false)
  | pack :: batch =>
    let (c, needAck) := c.storeMsg pack
    let (c, needAck') := c.storeAll batch
    (c, needAck || needAck')

section

variable (c : Channel α)

/-- `l2tp_tunnel_clean_rtmsqueue`; it is false when it returns -1. -/
def cleanRtmsqueue (timer : Bool) : Channel α × Bool :=
  let rest := c.rtmsQueue.dropWhile fun pack ↦ nsnrCmp pack.ns c.peerNr < 0
  if rest.length = c.rtmsQueue.length then (c, true)
  else
    let c := { c with rtmsQueue := rest, retransmit := 0 }
    if rest.isEmpty then ({ c with rtimeoutTimer := false }, true)
    else if timer then ({ c with rtimeoutTimer := true }, true)
    else (c, false)

/-! ### Sending -/

/-- `l2tp_tunnel_send` -/
def tunnelSend (pack : CtrlMsg α) : Channel α :=
  if c.state = .fin ∨ c.state = .finWait ∨ c.state = .close then c
  else { c with sendQueue := c.sendQueue ++ [pack] }

/-- The loop of `l2tp_tunnel_push_sendqueue` over the send queue, with the number of messages sent
and whether it has not failed. -/
def pushLoop (nrMax : Seq) (failAt : Option ℕ) (c : Channel α) (sent : ℕ) :
    List (CtrlMsg α) → Channel α × ℕ × Bool
  | [] => ({ c with sendQueue := [] }, sent, true)
  | pack :: queue =>
    if 0 ≤ nsnrCmp c.ns nrMax then ({ c with sendQueue := pack :: queue }, sent, true)
    else if failAt = some sent then ({ c with sendQueue := pack :: queue }, sent, false)
    else
      pushLoop nrMax failAt
        { c with
          rtmsQueue := c.rtmsQueue ++ [{ pack with ns := c.ns, nr := c.nr }]
          ns := c.ns + 1 }
        (sent + 1) queue

/-- `l2tp_tunnel_push_sendqueue` -/
def pushSendqueue (env : PushEnv) : Channel α × ℤ :=
  let (c, sent, ok) := pushLoop (c.peerNr + c.peerRcvWndSz) env.failAt c 0 c.sendQueue
  if ¬ ok then (c, -1)
  else if sent = 0 then (c, 0)
  else if c.rtimeoutTimer then (c, 1)
  else if env.timer then ({ c with rtimeoutTimer := true }, 1)
  else (c, -1)

/-! ### What is done to the channel -/

/-- `l2tp_tunnel_free` -/
def tunnelFree : Channel α :=
  if c.state = .close then c
  else
    { c with
      state := .close
      sendQueue := []
      rtmsQueue := []
      recvQueue := .empty c.recvQueue.size
      rtimeoutTimer := false }

/-- The window the peer announces, or the default if it is not valid. -/
def checkWindow (size : Seq) : Seq :=
  if size = 0 ∨ recvWindowSizeMax < size.toNat then defaultPeerRecvWindowSize else size

/-- One action; there is none on a tunnel that has been freed. -/
def act (a : Action α) : Channel α :=
  if c.state = .close then c
  else
    match a with
    | .send pack => c.tunnelSend pack
    | .push env free =>
      let (c, res) := c.pushSendqueue env
      if res < 0 ∧ free then c.tunnelFree else c
    | .discard keep => { c with sendQueue := c.sendQueue.filter keep }
    | .setState state => if state = .close then c else { c with state := state }
    | .window size => { c with peerRcvWndSz := checkWindow size }
    | .free => c.tunnelFree

/-- The handling of a message: nothing while the tunnel disconnects. -/
def handleMsg (actions : List (Action α)) : Channel α :=
  if c.state = .fin ∨ c.state = .finWait then c else Transition.run act c actions

/-- A message is taken out of a slot of the reception queue. -/
def takeMsg (id : ℕ) (pack : CtrlMsg α) : Channel α :=
  { c with
    recvQueue := c.recvQueue.erase id
    nr := c.nr + 1
    processed := c.processed ++ [pack] }

/-- The loop of `l2tp_tunnel_reply`, from the slot `id` on, with the number of messages processed.
It ends after at most `recv_queue_sz` turns, when it has come to its first slot again. -/
def replyLoop (handlers : ℕ → List (Action α)) :
    ℕ → Channel α → ℕ → ℕ → Channel α × ℕ
  | 0, c, _, count => (c, count)
  | turns + 1, c, id, count =>
    match c.recvQueue.slots id with
    | none => (c, count)
    | some pack =>
      if c.state = .close then (c, count)
      else
        let c := (c.takeMsg id pack).handleMsg (handlers count)
        let id := (id + 1) % c.recvQueue.size
        if id = c.recvQueue.head then (c, count + 1)
        else replyLoop handlers turns c id (count + 1)

/-- `l2tp_tunnel_reply` -/
def tunnelReply (needAck : Bool) (env : ReadEnv α) : Channel α × ℤ :=
  let (c, count) := replyLoop env.handlers c.recvQueue.size c c.recvQueue.head 0
  let c := { c with recvQueue := c.recvQueue.advance count }
  let (c, res) := c.pushSendqueue env.push
  if res = 0 ∧ needAck then (c, if env.zlb then 0 else -1) else (c, res)

/-- `l2tp_conn_read` -/
def connRead (batch : List (CtrlMsg α)) (env : ReadEnv α) : Channel α :=
  let (c, needAck) := c.storeAll batch
  if env.unreachable then c.tunnelFree
  else
    let (c, ok) := c.cleanRtmsqueue env.cleanTimer
    if ¬ ok then c.tunnelFree
    else
      let (c, res) := c.tunnelReply needAck env
      if res < 0 then c.tunnelFree
      else if c.state = .fin ∧ c.sendQueue.isEmpty ∧ c.rtmsQueue.isEmpty then c.tunnelFree
      else c

/-- `l2tp_rtimeout`, for a timer that is running: the first message is sent again, if the
transmission succeeds and the timer can be set. -/
def rtimeout (send timer : Bool) : Channel α :=
  match c.rtmsQueue with
  | [] => c
  | pack :: queue =>
    let c := { c with retransmit := c.retransmit + 1 }
    if c.maxRetransmit < c.retransmit then c.tunnelFree
    else if send ∧ timer then { c with rtmsQueue := { pack with nr := c.nr } :: queue }
    else c.tunnelFree

end

/-! ### One change at a time

All that is done to a channel besides receiving and processing messages is made of a few changes.
-/

/-- One change. -/
inductive Change (c : Channel α) : Channel α → Prop
  | sendQueue (queue : List (CtrlMsg α)) : Change c { c with sendQueue := queue }
  | sent (pack : CtrlMsg α) (h : nsnrCmp c.ns (c.peerNr + c.peerRcvWndSz) < 0) :
    Change c { c with rtmsQueue := c.rtmsQueue ++ [pack], ns := c.ns + 1 }
  | rtmsQueue (queue : List (CtrlMsg α)) : Change c { c with rtmsQueue := queue }
  | rtimeoutTimer (armed : Bool) : Change c { c with rtimeoutTimer := armed }
  | retransmit (n : ℕ) : Change c { c with retransmit := n }
  | state (state : TunnelState) (h : c.state ≠ .close) : Change c { c with state := state }
  | window (size : Seq) : Change c { c with peerRcvWndSz := checkWindow size }
  | free : Change c c.tunnelFree

/-- Any number of changes. -/
abbrev Changes : Channel α → Channel α → Prop := Relation.ReflTransGen Change

variable {c : Channel α}

lemma pushLoop_changes (failAt : Option ℕ) (sent : ℕ) (queue : List (CtrlMsg α)) :
    Changes c (pushLoop (c.peerNr + c.peerRcvWndSz) failAt c sent queue).1 := by
  induction queue generalizing c sent with
  | nil => exact .single (.sendQueue [])
  | cons pack queue ih =>
    rw [pushLoop]
    split
    · exact .single (.sendQueue _)
    · next hroom =>
      split
      · exact .single (.sendQueue _)
      · exact .head (.sent _ (Int.lt_of_not_ge hroom)) (ih (sent + 1))

lemma pushSendqueue_changes (env : PushEnv) : Changes c (c.pushSendqueue env).1 := by
  have hloop := pushLoop_changes (c := c) env.failAt 0 c.sendQueue
  rw [pushSendqueue]
  generalize pushLoop (c.peerNr + c.peerRcvWndSz) env.failAt c 0 c.sendQueue = r at *
  obtain ⟨c₁, sent, ok⟩ := r
  dsimp only at *
  split
  · exact hloop
  split
  · exact hloop
  · split
    · exact hloop
    · split
      · exact hloop.tail (.rtimeoutTimer true)
      · exact hloop

lemma act_changes {a : Action α} : Changes c (c.act a) := by
  rw [act.eq_def]
  split
  · exact .refl
  next hopen =>
  cases a with
  | send pack =>
    show Changes c (c.tunnelSend pack)
    rw [tunnelSend]
    split
    · exact .refl
    · exact .single (.sendQueue _)
  | push env free =>
    dsimp only
    split
    · exact (pushSendqueue_changes env).tail .free
    · exact pushSendqueue_changes env
  | discard keep => exact .single (.sendQueue _)
  | setState state =>
    dsimp only
    split
    · exact .refl
    · exact .single (.state state hopen)
  | window size => exact .single (.window size)
  | free => exact .single .free

lemma run_act_changes {actions : List (Action α)} : Changes c (Transition.run act c actions) := by
  exact List.foldlRecOn actions act (motive := Changes c) .refl fun _ h a _ ↦ h.trans act_changes

lemma handleMsg_changes (actions : List (Action α)) : Changes c (c.handleMsg actions) := by
  rw [handleMsg]
  split
  · exact .refl
  · exact run_act_changes

lemma cleanRtmsqueue_changes (timer : Bool) : Changes c (c.cleanRtmsqueue timer).1 := by
  rw [cleanRtmsqueue]
  generalize c.rtmsQueue.dropWhile _ = rest
  have hrest : Changes c { c with rtmsQueue := rest, retransmit := 0 } :=
    .tail (.single (.rtmsQueue rest)) (.retransmit 0)
  split
  · exact .refl
  split
  · exact hrest.tail (.rtimeoutTimer false)
  · split
    · exact hrest.tail (.rtimeoutTimer true)
    · exact hrest

lemma rtimeout_changes {send timer : Bool} : Changes c (c.rtimeout send timer) := by
  have hcount : Changes c { c with retransmit := c.retransmit + 1 } := .single (.retransmit _)
  rw [rtimeout]
  split
  · exact .refl
  dsimp only
  split
  · exact hcount.tail .free
  · split
    · exact hcount.tail (.rtmsQueue _)
    · exact hcount.tail .free

end Channel

/-! ### Events -/

/-- What the context of a tunnel handles. -/
inductive ChannelEvent (α : Type)
  | read (batch : List (CtrlMsg α)) (env : ReadEnv α)
  /-- A timer, a command, or a call from elsewhere. -/
  | act (actions : List (Action α))
  | rtimeout (send timer : Bool)

namespace Channel

variable {α : Type}

/-- One event. -/
def step (c : Channel α) (e : ChannelEvent α) : Channel α :=
  if c.state = .close then c
  else
    match e with
    | .read batch env => c.connRead batch env
    | .act actions => Transition.run act c actions
    | .rtimeout send timer => if c.rtimeoutTimer then c.rtimeout send timer else c

/-- What a tunnel starts with: the size of its reception queue, the peer's window, and the number of
the first message it expects, which is 1 after an SCCRQ of the peer. -/
structure Setup where
  recvQueueSz : ℕ
  peerRcvWndSz : Seq
  nr : ℕ
  maxRetransmit : ℕ
  size_pos : 0 < recvQueueSz
  size_le : recvQueueSz ≤ recvWindowSizeMax
  window_pos : 0 < peerRcvWndSz.toNat
  window_le : peerRcvWndSz.toNat ≤ recvWindowSizeMax

/-- `l2tp_tunnel_alloc` -/
def tunnelAlloc (s : Setup) : Channel α where
  state := .init
  ns := 0
  nr := .ofNat 16 s.nr
  peerNr := 0
  sendQueue := []
  rtmsQueue := []
  recvQueue := .empty s.recvQueueSz
  peerRcvWndSz := s.peerRcvWndSz
  rtimeoutTimer := false
  retransmit := 0
  maxRetransmit := s.maxRetransmit
  processed := []

/-- The tunnel of a peer that has sent an SCCRQ. -/
def answering : Setup := ⟨4, 4, 1, 5, by decide, by decide, by decide, by decide⟩

/-- Nothing fails, and no handler does anything. -/
def quiet : ReadEnv α := ⟨false, true, fun _ ↦ [], ⟨none, true⟩, true⟩

end Channel

end AccelPpp.L2tp
