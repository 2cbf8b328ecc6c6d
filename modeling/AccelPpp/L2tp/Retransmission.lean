import AccelPpp.L2tp.Acks

/-!
# The retransmission queue

What has been sent and not been acknowledged waits in the retransmission queue, with consecutive Ns
up to the one before Ns; a timer runs as long as there is something in it.

Three things can disturb this. A datagram moves `peer_Nr` out of range (`HalfAway`). A transmission
or the start of the timer fails in `l2tp_tunnel_push_sendqueue`, after messages have been moved to
the queue and before the timer has been started, and the caller goes on (`PushFit`), as those do
that create or disconnect a session. And the window that an SCCRP announces is smaller than what is
on its way, or so large that half the sequence space may come to be on its way, which
`l2tp_tunnel_clean_rtmsqueue` cannot tell from none (`Fit`).

The proof follows `l2tp_conn_read`. While datagrams are stored the queue may hold what has been
acknowledged (`Queued`); cleaning the queue leaves what is on its way and nothing else (`Tidy`).
-/

open Int List Nat Option

namespace AccelPpp.L2tp

namespace Channel

open Transition

variable {α : Type} {c c' : Channel α} {p : CtrlMsg α} {env : PushEnv}

/-! ### Consecutive numbers -/

/-- The `n` sequence numbers from `a` on. -/
def seqs (a : Seq) (n : ℕ) : List Seq := (List.range n).map fun i ↦ a + .ofNat 16 i

lemma seqs_succ (a : Seq) (n : ℕ) : seqs a (n + 1) = seqs a n ++ [a + .ofNat 16 n] := by
  rw [seqs, range_succ, map_append]
  rfl

lemma drop_seqs (a : Seq) (n k : ℕ) : (seqs a n).drop k = seqs (a + .ofNat 16 k) (n - k) := by
  refine ext_getElem (by simp [seqs]) fun i _ _ ↦ ?_
  simp only [seqs, getElem_drop, getElem_map, getElem_range]
  rw [BitVec.ofNat_add, BitVec.add_assoc]

/-! ### The queue -/

/-- The queue holds consecutive numbers up to the one before Ns, among them all that have not been
acknowledged, and no more than the window. -/
structure Queued (c : Channel α) : Prop where
  consecutive : c.rtmsQueue.map CtrlMsg.ns =
    seqs (c.ns - .ofNat 16 c.rtmsQueue.length) c.rtmsQueue.length
  outstanding_le : c.outstanding ≤ c.rtmsQueue.length
  window : c.rtmsQueue.length ≤ c.peerRcvWndSz.toNat
  half : c.peerRcvWndSz.toNat = 32768 → c.rtmsQueue = []
  bounded : Bounded c

/-- The queue holds what has not been acknowledged and nothing else. -/
structure Tidy (c : Channel α) : Prop extends Queued c where
  length_le : c.rtmsQueue.length ≤ c.outstanding

/-- The timer runs if and only if there is something in the queue. -/
def Armed (c : Channel α) : Prop := c.rtimeoutTimer = true ↔ c.rtmsQueue ≠ []

section

variable (h : Queued c)

include h

/-- The queue is shorter than half the sequence space. -/
lemma Queued.length_lt : c.rtmsQueue.length < 32768 := by
  have hwindow := h.window
  have hle := h.bounded.window_le
  by_cases hhalf : c.peerRcvWndSz.toNat = 32768
  · rw [h.half hhalf, length_nil]
    omega
  · omega

/-! ### Storing and cleaning -/

lemma Queued.store (hp : ¬ HalfAway c p) : Queued (c.store p) := by
  have hrange := inRange_iff.mpr hp
  have hdist := toNat_sub_of_outstanding c (c.store p).peerNr
  have hle := h.outstanding_le
  have hbounded := h.bounded.store (p := p)
  obtain ⟨hns, hwindow, hqueue, -⟩ := store_same c p
  rw [InRange] at hrange
  refine ⟨by rw [hqueue, hns]; exact h.consecutive, ?_, by rw [hqueue, hwindow]; exact h.window,
    by rw [hqueue, hwindow]; exact h.half, hbounded⟩
  rw [hqueue, outstanding, hns]
  omega

/-- The message at index `i` of the queue, seen from `peer_Nr`. -/
lemma Queued.acked_iff {i : ℕ} (hi : i < c.rtmsQueue.length) :
    nsnrCmp c.rtmsQueue[i].ns c.peerNr < 0 ↔ i < c.rtmsQueue.length - c.outstanding := by
  have hns : c.rtmsQueue[i].ns = c.ns - .ofNat 16 c.rtmsQueue.length + .ofNat 16 i := by
    have hget := congrArg (·[i]?) h.consecutive
    simp only [seqs, getElem?_map, getElem?_eq_getElem hi, getElem?_range hi,
      map_some, some_inj] at hget
    exact hget
  have hlt := h.length_lt
  have hle := h.outstanding_le
  have hdist : c.rtmsQueue[i].ns - c.peerNr =
      (c.ns - c.peerNr) - .ofNat 16 (c.rtmsQueue.length - i) := by
    have hsplit : (BitVec.ofNat 16 c.rtmsQueue.length : Seq) =
        .ofNat 16 (c.rtmsQueue.length - i) + .ofNat 16 i := by
      rw [← BitVec.ofNat_add, Nat.sub_add_cancel hi.le]
    rw [hns]
    grind
  rw [nsnrCmp_neg_iff, hdist, BitVec.toNat_sub, BitVec.toNat_ofNat]
  rw [outstanding] at *
  omega

/-- What has been acknowledged is at the front. -/
lemma Queued.dropWhile_eq :
    (c.rtmsQueue.dropWhile fun pack ↦ nsnrCmp pack.ns c.peerNr < 0) =
      c.rtmsQueue.drop (c.rtmsQueue.length - c.outstanding) := by
  generalize hk : c.rtmsQueue.length - c.outstanding = k at *
  conv_lhs => rw [← take_append_drop k c.rtmsQueue]
  rw [dropWhile_append_of_pos, dropWhile_eq_self_iff]
  · intro hpos
    rw [length_drop] at hpos
    have hacked := h.acked_iff (i := k) (by omega)
    rw [getElem_drop, decide_eq_true_iff]
    simp only [add_zero]
    omega
  · intro pack hpack
    obtain ⟨i, hi, rfl⟩ := getElem_of_mem hpack
    rw [length_take] at hi
    have hacked := h.acked_iff (i := i) (by omega)
    rw [getElem_take, decide_eq_true_iff]
    omega

lemma Queued.drop (timer : Bool) (n : ℕ) :
    Tidy { c with
      rtmsQueue := c.rtmsQueue.drop (c.rtmsQueue.length - c.outstanding)
      retransmit := n
      rtimeoutTimer := timer } := by
  have hle := h.outstanding_le
  have hwindow := h.window
  have hlength : (c.rtmsQueue.drop (c.rtmsQueue.length - c.outstanding)).length =
      c.outstanding := by
    rw [length_drop]
    omega
  refine ⟨⟨?_, hlength.ge, ?_, fun hhalf ↦ ?_, ?_⟩, hlength.le⟩
  · rw [hlength, map_drop, h.consecutive, drop_seqs, Nat.sub_sub_self hle]
    congr 1
    have hsplit : (BitVec.ofNat 16 c.rtmsQueue.length : Seq) =
        .ofNat 16 (c.rtmsQueue.length - c.outstanding) + .ofNat 16 c.outstanding := by
      rw [← BitVec.ofNat_add, Nat.sub_add_cancel hle]
    grind
  · dsimp only
    omega
  · rw [h.half hhalf, drop_nil]
  · exact ⟨h.bounded.outstanding_le, h.bounded.window_pos, h.bounded.window_le⟩

/-- **`l2tp_tunnel_clean_rtmsqueue`** -/
theorem Queued.cleanRtmsqueue (ha : Armed c) {timer : Bool}
    (hok : (c.cleanRtmsqueue timer).2 = true) :
    Tidy (c.cleanRtmsqueue timer).1 ∧ Armed (c.cleanRtmsqueue timer).1 := by
  rw [Channel.cleanRtmsqueue, h.dropWhile_eq] at *
  split
  · next hnone =>
    rw [length_drop] at hnone
    exact ⟨⟨h, by dsimp only; omega⟩, ha⟩
  next hsome =>
  rw [if_neg hsome] at hok
  split
  · next hempty =>
    refine ⟨h.drop false 0, ?_⟩
    rw [List.isEmpty_iff] at hempty
    exact ⟨Bool.noConfusion, fun hne ↦ (hne hempty).elim⟩
  next hrest =>
  rw [if_neg hrest] at hok
  split
  · refine ⟨h.drop true 0, fun _ hempty ↦ hrest (isEmpty_iff.mpr hempty), fun _ ↦ rfl⟩
  · next hfail =>
    rw [if_neg hfail] at hok
    cases hok

end

/-! ### Sending -/

/-- One message is sent. -/
lemma Tidy.sent (h : Tidy c) (hroom : nsnrCmp c.ns (c.peerNr + c.peerRcvWndSz) < 0)
    (hp : p.ns = c.ns) : Tidy { c with rtmsQueue := c.rtmsQueue ++ [p], ns := c.ns + 1 } := by
  obtain ⟨hlt, hwindow⟩ := h.bounded.room hroom
  have hle := h.bounded.window_le
  have heq := le_antisymm h.length_le h.outstanding_le
  have hmore := outstanding_sent (c := c) (by omega) (c.rtmsQueue ++ [p])
  have hlength : (c.rtmsQueue ++ [p]).length = c.rtmsQueue.length + 1 := length_append
  refine ⟨⟨?_, by dsimp only; omega, by dsimp only; omega, fun hhalf ↦ ?_, ?_⟩,
    by dsimp only; omega⟩
  · rw [hlength, seqs_succ, map_append, h.consecutive, map_singleton, hp, BitVec.ofNat_add]
    have hfirst : c.ns + 1 - (BitVec.ofNat 16 c.rtmsQueue.length + BitVec.ofNat 16 1) =
        c.ns - .ofNat 16 c.rtmsQueue.length := by grind
    rw [hfirst, BitVec.sub_add_cancel]
  · -- a window of half the sequence space is never used from empty
    have hempty := h.half hhalf
    rw [hempty, length_nil] at heq
    dsimp only at hhalf
    omega
  · exact (Change.sent p hroom).sameAck.bounded h.bounded

/-- What the queue and the timer do not depend on may change. -/
lemma Tidy.congr (h : Tidy c)
    (hq : c'.rtmsQueue.map CtrlMsg.ns = c.rtmsQueue.map CtrlMsg.ns := by rfl)
    (hns : c'.ns = c.ns := by rfl) (hnr : c'.peerNr = c.peerNr := by rfl)
    (hw : c'.peerRcvWndSz = c.peerRcvWndSz := by rfl) : Tidy c' := by
  have hout : c'.outstanding = c.outstanding := by rw [outstanding, hns, hnr, outstanding]
  have hlen : c'.rtmsQueue.length = c.rtmsQueue.length := by simpa using congrArg length hq
  have hb := h.bounded
  refine ⟨⟨by rw [hq, hlen, hns]; exact h.consecutive, by rw [hlen, hout]; exact h.outstanding_le,
    by rw [hlen, hw]; exact h.window, fun hhalf ↦ ?_,
    ⟨by rw [hout]; exact hb.outstanding_le, by rw [hw]; exact hb.window_pos,
      by rw [hw]; exact hb.window_le⟩⟩, by rw [hlen, hout]; exact h.length_le⟩
  rw [← length_eq_zero_iff, hlen, h.half (hw ▸ hhalf), length_nil]

/-- **The loop of `l2tp_tunnel_push_sendqueue`**, by induction on the send queue. -/
theorem Tidy.pushLoop (failAt : Option ℕ) (h : Tidy c) (sent : ℕ) (queue : List (CtrlMsg α)) :
    let r := Channel.pushLoop (c.peerNr + c.peerRcvWndSz) failAt c sent queue
    Tidy r.1 ∧ r.1.state = c.state ∧ r.1.rtimeoutTimer = c.rtimeoutTimer ∧ sent ≤ r.2.1 ∧
      (r.2.1 = sent ∧ r.1.rtmsQueue = c.rtmsQueue ∨ sent < r.2.1 ∧ r.1.rtmsQueue ≠ []) ∧
      (r.2.2 = false → failAt = some r.2.1) := by
  have hqueue : ∀ queue, Tidy { c with sendQueue := queue } := fun _ ↦ h.congr
  induction queue generalizing c sent with
  | nil => exact ⟨hqueue [], rfl, rfl, le_rfl, .inl ⟨rfl, rfl⟩, nofun⟩
  | cons pack queue ih =>
    rw [Channel.pushLoop]
    split
    · exact ⟨hqueue _, rfl, rfl, le_rfl, .inl ⟨rfl, rfl⟩, Bool.noConfusion⟩
    next hroom =>
    split
    · next hfail => exact ⟨hqueue _, rfl, rfl, le_rfl, .inl ⟨rfl, rfl⟩, fun _ ↦ hfail⟩
    have hsent := h.sent (p := { pack with ns := c.ns, nr := c.nr }) (lt_of_not_ge hroom)
      rfl
    obtain ⟨htidy, hstate, htimer, hle, hrest, hfail⟩ := ih hsent (sent + 1) fun _ ↦
      hsent.congr
    refine ⟨htidy, hstate, htimer, le_of_succ_le hle, .inr ⟨hle, ?_⟩, hfail⟩
    rcases hrest with ⟨-, hsame⟩ | ⟨-, hne⟩
    · rw [hsame]
      exact append_ne_nil_of_right_ne_nil _ (cons_ne_nil _ _)
    · exact hne

/-- The tunnel has been freed. -/
structure Gone (c : Channel α) : Prop where
  state : c.state = .close
  sendQueue : c.sendQueue = []
  rtmsQueue : c.rtmsQueue = []
  rtimeoutTimer : c.rtimeoutTimer = false

/-- The queue and the timer are as they should be, or the tunnel has been freed. -/
def Good (c : Channel α) : Prop := Gone c ∨ c.state ≠ .close ∧ Tidy c ∧ Armed c

lemma gone_tunnelFree (h : c.state ≠ .close) : Gone c.tunnelFree := by
  rw [tunnelFree, if_neg h]
  exact ⟨rfl, rfl, rfl, rfl⟩

section

variable (h : Good c)

include h

lemma Good.tunnelFree : Good c.tunnelFree := by
  rcases h with hgone | ⟨hopen, -⟩
  · rw [Channel.tunnelFree, if_pos hgone.state]
    exact .inl hgone
  · exact .inl (gone_tunnelFree hopen)

/-- The timer runs already, or it can be started, and no transmission fails after another has
succeeded. -/
def PushFit (c : Channel α) (env : PushEnv) : Prop :=
  c.rtimeoutTimer = true ∨ (env.failAt = none ∨ env.failAt = some 0) ∧ env.timer = true

instance : Decidable (PushFit c env) := inferInstanceAs (Decidable (_ ∨ _))

/-- **`l2tp_tunnel_push_sendqueue`** -/
theorem Good.pushSendqueue {env : PushEnv} :
    let r := c.pushSendqueue env
    (0 ≤ r.2 ∨ PushFit c env → Good r.1) ∧ Good r.1.tunnelFree := by
  rcases h with hgone | ⟨hopen, htidy, harmed⟩
  · have hpush : c.pushSendqueue env = ({ c with sendQueue := [] }, 0) := by
      rw [Channel.pushSendqueue, hgone.sendQueue]
      rfl
    have hgood : Good { c with sendQueue := [] } :=
      .inl { hgone with sendQueue := rfl }
    rw [hpush]
    exact ⟨fun _ ↦ hgood, hgood.tunnelFree⟩
  · obtain ⟨htidy', hstate, htimer, -, hsent, hfail⟩ := htidy.pushLoop env.failAt 0 c.sendQueue
    rw [Channel.pushSendqueue]
    generalize Channel.pushLoop (c.peerNr + c.peerRcvWndSz) env.failAt c 0 c.sendQueue = r at *
    obtain ⟨c₁, sent, ok⟩ := r
    dsimp only at *
    have hopen₁ : c₁.state ≠ .close := fun hc ↦ hopen (hstate ▸ hc)
    have hfree := gone_tunnelFree hopen₁
    -- the timer that was running before still runs for a reason
    have hgood : c₁.rtmsQueue = c.rtmsQueue ∨ c₁.rtimeoutTimer = true ∧ c₁.rtmsQueue ≠ [] →
        Good c₁ := by
      rintro (hsame | ⟨hrun, hne⟩)
      · exact .inr ⟨hopen₁, htidy', by rw [Armed, htimer, hsame]; exact harmed⟩
      · exact .inr ⟨hopen₁, htidy', fun _ ↦ hne, fun _ ↦ hrun⟩
    have hrunning : c₁.rtimeoutTimer = true → Good c₁ := fun hrun ↦ hgood <| by
      rcases hsent with ⟨-, hsame⟩ | ⟨-, hne⟩
      · exact .inl hsame
      · exact .inr ⟨hrun, hne⟩
    split
    · next hok =>
      refine ⟨fun hfit ↦ ?_, .inl hfree⟩
      rcases hfit with hres | hrun | ⟨hfirst, -⟩
      · exact ((negSucc_not_nonneg 0).mp hres).elim
      · exact hrunning (htimer.trans hrun)
      have hat := hfail (Bool.eq_false_iff.mpr hok)
      rcases hsent with ⟨-, hsame⟩ | ⟨hlt, -⟩
      · exact hgood (.inl hsame)
      · rcases hfirst with hnone | hzero
        · cases hnone.symm.trans hat
        · exact absurd (mem_unique hzero hat) (Nat.ne_of_lt hlt)
    · split
      · next hzero =>
        have hsame := (hsent.resolve_right fun hf ↦ absurd hzero (ne_of_gt hf.1)).2
        exact ⟨fun _ ↦ hgood (.inl hsame), .inl hfree⟩
      · next hpos =>
        have hne := (hsent.resolve_left fun hf ↦ hpos hf.1).2
        split
        · next hrun => exact ⟨fun _ ↦ hrunning hrun, .inl hfree⟩
        next hstopped =>
        split
        · have hstarted : Good { c₁ with rtimeoutTimer := true } :=
            .inr ⟨hopen₁, htidy'.congr, fun _ ↦ hne, fun _ ↦ rfl⟩
          exact ⟨fun _ ↦ hstarted, hstarted.tunnelFree⟩
        next hfails =>
        refine ⟨fun hfit ↦ ?_, .inl hfree⟩
        rcases hfit with hres | hrun | ⟨-, hstart⟩
        · exact ((negSucc_not_nonneg 0).mp hres).elim
        · exact absurd (htimer.trans hrun) hstopped
        · exact absurd hstart hfails

/-! ### Events -/

/-- An action that does not disturb the queue: a push whose failure frees the tunnel or does no
harm, and a window that holds what is on its way. -/
def Fit (c : Channel α) : Action α → Prop
  | .push env free => c.state = .close ∨ free = true ∨ PushFit c env
  | .window size => c.state = .close ∨ c.outstanding ≤ (checkWindow size).toNat ∧
      ((checkWindow size).toNat = 32768 → c.outstanding = 0)
  | _ => True

instance (a : Action α) : Decidable (Fit c a) := by
  cases a <;> dsimp only [Fit] <;> infer_instance

/-- **One action.** -/
theorem Good.act {a : Action α} (ha : Fit c a) : Good (c.act a) := by
  rw [act.eq_def]
  split
  · exact h
  next hopen =>
  obtain ⟨-, htidy, harmed⟩ := h.resolve_left fun hgone ↦ hopen hgone.state
  cases a with
  | send pack =>
    show Good (c.tunnelSend pack)
    rw [tunnelSend]
    split
    · exact h
    · exact .inr ⟨hopen, htidy.congr, harmed⟩
  | push env free =>
    obtain ⟨hgood, hfree⟩ := h.pushSendqueue
    dsimp only
    split
    · exact hfree
    next hgo =>
    refine hgood ?_
    by_cases hres : 0 ≤ (c.pushSendqueue env).2
    · exact .inl hres
    · refine .inr ((ha.resolve_left hopen).resolve_left fun hf ↦
        hgo ⟨lt_of_not_ge hres, hf⟩)
  | discard keep => exact .inr ⟨hopen, htidy.congr, harmed⟩
  | setState state =>
    dsimp only
    split
    · exact h
    · next hstate => exact .inr ⟨hstate, htidy.congr, harmed⟩
  | window size =>
    obtain ⟨hle, hhalf⟩ := ha.resolve_left hopen
    obtain ⟨hpos, hmax⟩ := checkWindow_bounds size
    refine .inr ⟨hopen, ⟨{ htidy with
      window := htidy.length_le.trans hle
      half := fun hsize ↦ ?_
      bounded := ⟨htidy.bounded.outstanding_le, hpos, hmax⟩ }, htidy.length_le⟩, harmed⟩
    exact eq_nil_of_length_eq_zero (eq_zero_of_le_zero (hhalf hsize ▸ htidy.length_le))
  | free => exact h.tunnelFree

/-- What has been received does not matter. -/
lemma Good.received {queue : RingBuffer (CtrlMsg α)} {nr : Seq}
    {processed : List (CtrlMsg α)} :
    Good { c with recvQueue := queue, nr := nr, processed := processed } := by
  rcases h with hgone | ⟨hopen, htidy, harmed⟩
  · exact .inl { hgone with }
  · exact .inr ⟨hopen, htidy.congr, harmed⟩

/-- The actions of a handler are fit, if it is called. -/
def HandlerFit (c : Channel α) (actions : List (Action α)) : Prop :=
  (c.state = .fin ∨ c.state = .finWait) ∨ Along act Fit c actions

instance {actions : List (Action α)} : Decidable (HandlerFit c actions) :=
  inferInstanceAs (Decidable (_ ∨ _))

lemma Good.handleMsg {actions : List (Action α)} (hfit : HandlerFit c actions) :
    Good (c.handleMsg actions) := by
  rw [Channel.handleMsg]
  split
  · exact h
  · next hgo => exact Along.inv (fun _ _ hg hf ↦ hg.act hf) h (hfit.resolve_left hgo)

/-- The handlers that the loop of `l2tp_tunnel_reply` calls are fit, each in the state in which it
is called. -/
def LoopFit (handlers : ℕ → List (Action α)) : ℕ → Channel α → ℕ → ℕ → Prop
  | 0, _, _, _ => True
  | turns + 1, c, id, k =>
    match c.recvQueue.slots id with
    | none => True
    | some pack =>
      c.state = .close ∨ HandlerFit (c.takeMsg id pack) (handlers k) ∧
        LoopFit handlers turns ((c.takeMsg id pack).handleMsg (handlers k))
          ((id + 1) % ((c.takeMsg id pack).handleMsg (handlers k)).recvQueue.size) (k + 1)

instance decidableLoopFit (handlers : ℕ → List (Action α)) :
    ∀ turns c id count, Decidable (LoopFit handlers turns c id count)
  | 0, _, _, _ => .isTrue trivial
  | turns + 1, c, id, k => by
    have := decidableLoopFit handlers turns
    dsimp only [LoopFit]
    split <;> infer_instance

/-- **The loop of `l2tp_tunnel_reply`**, by induction on its turns. -/
theorem Good.replyLoop (handlers : ℕ → List (Action α)) {turns id count : ℕ}
    (hfit : LoopFit handlers turns c id count) :
    Good (Channel.replyLoop handlers turns c id count).1 := by
  induction turns generalizing c id count with
  | zero => exact h
  | succ turns ih =>
    rw [Channel.replyLoop]
    rw [LoopFit] at hfit
    split
    · exact h
    next pack hpack =>
    rw [hpack] at hfit
    split
    · exact h
    next hopen =>
    obtain ⟨hhandler, hrest⟩ := hfit.resolve_left hopen
    have hnow := Good.handleMsg h.received hhandler
    dsimp only
    split
    · exact hnow
    · exact ih hnow hrest

/-- **`l2tp_tunnel_reply`** -/
theorem Good.tunnelReply (needAck : Bool) (env : ReadEnv α)
    (hfit : LoopFit env.handlers c.recvQueue.size c c.recvQueue.head 0) :
    (0 ≤ (c.tunnelReply needAck env).2 → Good (c.tunnelReply needAck env).1) ∧
      Good (c.tunnelReply needAck env).1.tunnelFree := by
  have hloop := h.replyLoop env.handlers hfit
  rw [Channel.tunnelReply]
  generalize Channel.replyLoop env.handlers c.recvQueue.size c c.recvQueue.head 0 = r at *
  obtain ⟨c₁, count⟩ := r
  have hadvance : Good { c₁ with recvQueue := c₁.recvQueue.advance count } :=
    hloop.received
  obtain ⟨hgood, hfree⟩ := hadvance.pushSendqueue
  dsimp only
  split
  · next hzero => exact ⟨fun _ ↦ hgood (.inl hzero.1.ge), hfree⟩
  · exact ⟨fun hres ↦ hgood (.inl hres), hfree⟩

end

/-- Nothing in an event disturbs the queue. -/
def Undisturbed (c : Channel α) : ChannelEvent α → Prop
  | .read batch env => c.state = .close ∨ Along store (fun c p ↦ ¬ HalfAway c p) c batch ∧
      (env.unreachable = true ∨
        let c := ((c.storeAll batch).1.cleanRtmsqueue env.cleanTimer).1
        LoopFit env.handlers c.recvQueue.size c c.recvQueue.head 0)
  | .act actions => Along act Fit c actions
  | .rtimeout _ _ => True

instance : ∀ e, Decidable (Undisturbed c e)
  | .read batch env =>
    inferInstanceAs (Decidable (c.state = .close ∨
      Along store (fun c p ↦ ¬ HalfAway c p) c batch ∧ (env.unreachable = true ∨
        LoopFit env.handlers _ ((c.storeAll batch).1.cleanRtmsqueue env.cleanTimer).1 _ 0)))
  | .act actions => inferInstanceAs (Decidable (Along act Fit c actions))
  | .rtimeout _ _ => inferInstanceAs (Decidable True)

lemma cleanRtmsqueue_state (timer : Bool) : (c.cleanRtmsqueue timer).1.state = c.state := by
  rw [cleanRtmsqueue]
  repeat' split
  all_goals rfl

/-- **`l2tp_conn_read`** -/
theorem Good.connRead {batch : List (CtrlMsg α)} {env : ReadEnv α} (h : Good c)
    (hopen : c.state ≠ .close) (hacks : Along store (fun c p ↦ ¬ HalfAway c p) c batch)
    (hfit : env.unreachable = true ∨
      let c := ((c.storeAll batch).1.cleanRtmsqueue env.cleanTimer).1
      LoopFit env.handlers c.recvQueue.size c c.recvQueue.head 0) :
    Good (c.connRead batch env) := by
  obtain ⟨-, htidy, harmed⟩ := h.resolve_left fun hgone ↦ hopen hgone.state
  -- while the datagrams are stored only `peer_Nr` moves
  have hstored : (c.storeAll batch).1.state ≠ .close ∧ Queued (c.storeAll batch).1 ∧
      Armed (c.storeAll batch).1 := by
    rw [storeAll_eq]
    refine Along.inv (P := fun c : Channel α ↦ c.state ≠ .close ∧ Queued c ∧ Armed c)
      (fun c p hc hp ↦ ?_) ⟨hopen, htidy.toQueued, harmed⟩ hacks
    obtain ⟨-, -, hqueue, htimer, hstate⟩ := store_same c p
    exact ⟨hstate ▸ hc.1, hc.2.1.store hp, by rw [Armed, hqueue, htimer]; exact hc.2.2⟩
  obtain ⟨hopen₁, hqueued, harmed₁⟩ := hstored
  rw [Channel.connRead]
  generalize c.storeAll batch = r at *
  dsimp only
  split
  · exact .inl (gone_tunnelFree hopen₁)
  next hreach =>
  have hstate := cleanRtmsqueue_state (c := r.1) env.cleanTimer
  have hopen₂ : (r.1.cleanRtmsqueue env.cleanTimer).1.state ≠ .close := by
    rw [hstate]
    exact hopen₁
  split
  · exact .inl (gone_tunnelFree hopen₂)
  next hok =>
  obtain ⟨htidy₂, harmed₂⟩ := hqueued.cleanRtmsqueue harmed₁ (not_not.mp hok)
  have hgood₂ : Good (r.1.cleanRtmsqueue env.cleanTimer).1 := .inr ⟨hopen₂, htidy₂, harmed₂⟩
  obtain ⟨hreply, hfree⟩ := hgood₂.tunnelReply r.2 env (hfit.resolve_left hreach)
  split
  · exact hfree
  · next hres =>
    split
    · exact hfree
    · exact hreply (not_lt.mp hres)

/-- **`l2tp_rtimeout`** -/
theorem Good.rtimeout {send timer : Bool} (h : Good c) (hopen : c.state ≠ .close) :
    Good (c.rtimeout send timer) := by
  obtain ⟨-, htidy, harmed⟩ := h.resolve_left fun hgone ↦ hopen hgone.state
  rw [Channel.rtimeout]
  split
  · exact h
  next pack queue hqueue =>
  dsimp only
  split
  · exact .inl (gone_tunnelFree hopen)
  split
  · have hns : ({ pack with nr := c.nr } :: queue).map CtrlMsg.ns =
        c.rtmsQueue.map CtrlMsg.ns := by
      rw [hqueue]
      rfl
    exact .inr ⟨hopen, htidy.congr hns, fun _ ↦ cons_ne_nil _ _,
      fun _ ↦ harmed.mpr fun hempty ↦ cons_ne_nil _ _ (hqueue.symm.trans hempty)⟩
  · exact .inl (gone_tunnelFree hopen)

/-- **One event.** -/
theorem Good.step {e : ChannelEvent α} (h : Good c) (he : Undisturbed c e) : Good (c.step e) := by
  rw [step.eq_def]
  split
  · exact h
  next hopen =>
  cases e with
  | read batch env =>
    obtain ⟨hacks, hfit⟩ := he.resolve_left hopen
    exact h.connRead hopen hacks hfit
  | act actions => exact Along.inv (fun _ _ hg hf ↦ hg.act hf) h he
  | rtimeout send timer =>
    dsimp only
    split
    · exact h.rtimeout hopen
    · exact h

lemma good_tunnelAlloc {s : Setup} : Good (tunnelAlloc s : Channel α) :=
  .inr ⟨nofun, ⟨⟨rfl, outstanding_tunnelAlloc.le, zero_le _, fun _ ↦ rfl,
    bounded_tunnelAlloc s⟩, zero_le _⟩, nofun, fun hf ↦ (hf rfl).elim⟩

/-- The retransmission queue holds messages with consecutive Ns, the last of them the one before Ns
and the first not before `peer_Nr`; it is within the peer's window, and the timer runs if and only
if it is not empty. -/
structure Consistent (c : Channel α) : Prop where
  consecutive : c.rtmsQueue.map CtrlMsg.ns =
    seqs (c.ns - .ofNat 16 c.rtmsQueue.length) c.rtmsQueue.length
  start : c.rtmsQueue.length ≤ (c.ns - c.peerNr).toNat
  window : c.rtmsQueue.length ≤ c.peerRcvWndSz.toNat
  timer : c.rtimeoutTimer = true ↔ c.rtmsQueue ≠ []

lemma Good.consistent (h : Good c) : Consistent c := by
  rcases h with hgone | ⟨-, htidy, harmed⟩
  · have hlength : c.rtmsQueue.length = 0 := by rw [hgone.rtmsQueue]; rfl
    refine ⟨?_, by omega, by omega, ?_⟩
    · rw [hgone.rtmsQueue]
      rfl
    · rw [hgone.rtimeoutTimer, hgone.rtmsQueue]
      exact ⟨nofun, fun hf ↦ (hf rfl).elim⟩
  · exact ⟨htidy.consecutive, htidy.length_le, htidy.window, harmed⟩

/-- **The retransmission queue**: along a run in which nothing disturbs it, it is always consistent
with Ns, `peer_Nr`, the window and the timer. -/
theorem rtmsQueue_consistent (s : Setup) {es : List (ChannelEvent α)}
    (hes : Along step Undisturbed (tunnelAlloc s) es) :
    Always step Consistent (tunnelAlloc s) es := by
  have hgood : Always step Good (tunnelAlloc s) es :=
    Along.always (fun _ _ h he ↦ h.step he) good_tunnelAlloc hes
  exact fun pre hpre ↦ (hgood pre hpre).consistent

/-- Two messages are sent, the first is sent again and acknowledged, and the handler of the message
that acknowledges it sends another. -/
def acknowledged : List (ChannelEvent ℕ) :=
  [.act [.send ⟨0, 0, [2]⟩, .send ⟨0, 0, [6]⟩, .push ⟨none, true⟩ true], .rtimeout true true,
    .read [⟨1, 1, [3]⟩] { (quiet : ReadEnv ℕ) with handlers := fun _ ↦ [.send ⟨0, 0, [11]⟩] }]

theorem rtmsQueue_consistent_acknowledged :
    Along step Undisturbed (tunnelAlloc answering) acknowledged ∧
      Always step Consistent (tunnelAlloc answering) acknowledged ∧
      (run step (tunnelAlloc answering) acknowledged).rtmsQueue =
        [⟨1, 1, [6]⟩, ⟨2, 2, [11]⟩] :=
  have hes : Along step Undisturbed (tunnelAlloc answering) acknowledged := by decide +kernel
  ⟨hes, rtmsQueue_consistent answering hes, by decide +kernel⟩

/-- The SCCRQ is answered with an SCCRP, and the SCCCN establishes the tunnel. The ICRQ of a session
is sent when there is no file descriptor left for the timer. -/
def unarmed : List (ChannelEvent ℕ) :=
  [.act [.send ⟨0, 0, [2]⟩, .push ⟨none, true⟩ true, .setState .waitScccn],
    .read [⟨1, 1, [3]⟩] { (quiet : ReadEnv ℕ) with handlers := fun _ ↦ [.setState .estb] },
    .act [.send ⟨0, 0, [10]⟩, .push ⟨none, false⟩ false]]

/-- The ICRQ waits for its acknowledgement, and the timer does not run. -/
theorem unarmed_waits :
    let c := run step (tunnelAlloc answering) unarmed
    Along step (Stores fun c p ↦ ¬ HalfAway c p) (tunnelAlloc answering) unarmed ∧
      c.state = .estb ∧ c.rtmsQueue = [⟨1, 2, [10]⟩] ∧ c.rtimeoutTimer = false ∧
      ¬ Always step Consistent (tunnelAlloc answering) unarmed := by
  refine ⟨by decide +kernel, by decide +kernel, by decide +kernel, by decide +kernel, fun h ↦ ?_⟩
  have htimer := h.last.timer
  exact absurd htimer (by decide +kernel)

end Channel

end AccelPpp.L2tp
