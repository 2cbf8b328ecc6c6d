import AccelPpp.L2tp.Channel

/-!
# Acknowledgements

`peer_Nr` says how far the peer has acknowledged the messages of the tunnel, and Ns is the number of
the next one. A datagram may move `peer_Nr` forward, at most to Ns: `l2tp_tunnel_store_msg` asks
that Nr is not after Ns, and that it is after `peer_Nr`.

No more messages are on their way than the peer's window holds, which is half the sequence space at
most (`Bounded`). Within that, the comparisons decide rightly unless all messages have been
acknowledged and Nr is half the sequence space from Ns. Then Nr counts as before Ns and as after
`peer_Nr`, which are the same number, and `peer_Nr` moves (`HalfAway`).
-/

namespace AccelPpp.L2tp

namespace Channel

open Nat Transition

variable {α : Type} {c c' c'' : Channel α} {p : CtrlMsg α}

/-! ### The messages on their way -/

/-- How many messages have been sent and not been acknowledged. -/
def outstanding (c : Channel α) : ℕ := (c.ns - c.peerNr).toNat

/-- Not more than half the sequence space is on its way. -/
structure Bounded (c : Channel α) : Prop where
  outstanding_le : c.outstanding ≤ 32768
  window_pos : 0 < c.peerRcvWndSz.toNat
  window_le : c.peerRcvWndSz.toNat ≤ 32768

lemma checkWindow_bounds (size : Seq) :
    0 < (checkWindow size).toNat ∧ (checkWindow size).toNat ≤ 32768 := by
  rw [checkWindow]
  split
  · decide
  · next h =>
    rw [not_or, not_lt, ← BitVec.toNat_inj] at h
    exact ⟨Nat.pos_of_ne_zero h.1, h.2⟩

/-- What the comparison with the end of the window decides. -/
lemma room_iff (h : c.peerRcvWndSz.toNat ≤ 32768) :
    nsnrCmp c.ns (c.peerNr + c.peerRcvWndSz) < 0 ↔
      c.outstanding < c.peerRcvWndSz.toNat ∧ c.peerRcvWndSz.toNat < c.outstanding + 32768 ∨
        c.peerRcvWndSz.toNat + 32768 < c.outstanding := by
  rw [nsnrCmp_neg_iff, ← BitVec.sub_sub, BitVec.toNat_sub, outstanding]
  omega

/-- A message is sent only if the window has room for it. -/
lemma Bounded.room (h : Bounded c) (hroom : nsnrCmp c.ns (c.peerNr + c.peerRcvWndSz) < 0) :
    c.outstanding < c.peerRcvWndSz.toNat ∧ c.peerRcvWndSz.toNat < c.outstanding + 32768 := by
  have hle := h.outstanding_le
  rcases (room_iff h.window_le).mp hroom with hroom | hfar
  · exact hroom
  · omega

lemma outstanding_sent (h : c.outstanding < 32768) (queue : List (CtrlMsg α)) :
    outstanding { c with rtmsQueue := queue, ns := c.ns + 1 } = c.outstanding + 1 := by
  rw [outstanding, outstanding] at *
  have hadd : c.ns + 1 - c.peerNr = (c.ns - c.peerNr) + 1 := by grind
  rw [hadd, BitVec.toNat_add, show (1 : Seq).toNat = 1 from rfl]
  omega

/-- `peer_Nr` is left alone, and no more is sent than the window holds. -/
structure SameAck (c c' : Channel α) : Prop where
  peerNr : c'.peerNr = c.peerNr
  bounded : Bounded c → Bounded c'

lemma SameAck.refl : SameAck c c := ⟨rfl, id⟩

lemma SameAck.trans (h : SameAck c c') (h' : SameAck c' c'') : SameAck c c'' :=
  ⟨h'.peerNr.trans h.peerNr, fun hb ↦ h'.bounded (h.bounded hb)⟩

lemma tunnelFree_sameAck : SameAck c c.tunnelFree := by
  rw [tunnelFree]
  split
  · exact .refl
  · exact ⟨rfl, fun h ↦ { h with }⟩

lemma Change.sameAck (h : Change c c') : SameAck c c' := by
  cases h with
  | sent pack hroom =>
    refine ⟨rfl, fun h ↦ ⟨?_, h.window_pos, h.window_le⟩⟩
    have hlt := (h.room hroom).1
    have hle := h.window_le
    rw [outstanding_sent (by omega)]
    omega
  | window size =>
    obtain ⟨hpos, hle⟩ := checkWindow_bounds size
    exact ⟨rfl, fun h ↦ ⟨h.outstanding_le, hpos, hle⟩⟩
  | free => exact tunnelFree_sameAck
  | _ => exact ⟨rfl, fun h ↦ { h with }⟩

lemma Changes.sameAck (h : Changes c c') : SameAck c c' := by
  induction h with
  | refl => exact .refl
  | tail _ hlast ih => exact ih.trans hlast.sameAck

/-! ### One datagram -/

/-- `l2tp_tunnel_store_msg`, as a step. -/
def store (c : Channel α) (pack : CtrlMsg α) : Channel α := (c.storeMsg pack).1

lemma storeAll_eq (batch : List (CtrlMsg α)) : (c.storeAll batch).1 = run store c batch := by
  induction batch generalizing c with
  | nil => rfl
  | cons pack batch ih =>
    rw [run_cons, ← ih]
    rfl

lemma store_peerNr (c : Channel α) (p : CtrlMsg α) :
    (c.store p).peerNr =
      if ¬ nsnrCmp c.ns p.nr < 0 ∧ 0 < nsnrCmp p.nr c.peerNr then p.nr else c.peerNr := by
  rw [store, storeMsg]
  by_cases hunsent : nsnrCmp c.ns p.nr < 0
  · rw [if_pos hunsent, if_neg fun h ↦ h.1 hunsent]
  · rw [if_neg hunsent]
    simp only [hunsent, not_false_eq_true, true_and]
    repeat' split
    all_goals rfl

/-- What a datagram leaves as it is. -/
lemma store_same (c : Channel α) (p : CtrlMsg α) :
    (c.store p).ns = c.ns ∧ (c.store p).peerRcvWndSz = c.peerRcvWndSz ∧
      (c.store p).rtmsQueue = c.rtmsQueue ∧ (c.store p).rtimeoutTimer = c.rtimeoutTimer ∧
      (c.store p).state = c.state := by
  rw [store]
  rcases storeMsg_cases with ⟨heq, -⟩ | ⟨heq, -⟩ | ⟨heq, -⟩
  all_goals
    rw [heq]
    exact ⟨rfl, rfl, rfl, rfl, rfl⟩

/-- `peer_Nr` moves forward if at all, and not beyond Ns: what it moves over has been sent. -/
def InRange (c : Channel α) (p : CtrlMsg α) : Prop :=
  ((c.store p).peerNr - c.peerNr).toNat ≤ c.outstanding

instance : Decidable (InRange c p) := inferInstanceAs (Decidable (_ ≤ _))

/-- All messages have been acknowledged, and Nr is half the sequence space from Ns. -/
def HalfAway (c : Channel α) (p : CtrlMsg α) : Prop := c.peerNr = c.ns ∧ p.nr = c.ns + 32768

instance : Decidable (HalfAway c p) := inferInstanceAs (Decidable (_ ∧ _))

/-- The distances from `peer_Nr` to Nr and on to Ns. -/
lemma toNat_sub_of_outstanding (c : Channel α) (n : Seq) :
    (c.ns - n).toNat = (c.outstanding + 65536 - (n - c.peerNr).toNat) % 65536 := by
  have hsub : c.ns - n = (c.ns - c.peerNr) - (n - c.peerNr) := by grind
  rw [hsub, BitVec.toNat_sub, outstanding]
  omega

lemma halfAway_iff : HalfAway c p ↔ c.outstanding = 0 ∧ (p.nr - c.peerNr).toNat = 32768 := by
  have hzero : c.outstanding = 0 ↔ c.peerNr = c.ns := by
    rw [outstanding, show 0 = (0 : Seq).toNat from rfl, BitVec.toNat_inj]
    grind
  have hhalf : (p.nr - c.peerNr).toNat = 32768 ↔ p.nr = c.peerNr + 32768 := by
    rw [show 32768 = (32768 : Seq).toNat from rfl, BitVec.toNat_inj]
    grind
  rw [hzero, hhalf]
  exact and_congr_right fun hns ↦ by rw [hns]

/-- **One datagram.** -/
theorem inRange_iff : InRange c p ↔ ¬ HalfAway c p := by
  have hdist := toNat_sub_of_outstanding c p.nr
  rw [halfAway_iff, InRange, store_peerNr]
  simp only [nsnrCmp_neg_iff, nsnrCmp_pos_iff]
  split
  · omega
  · rw [BitVec.sub_self, BitVec.toNat_zero]
    omega

lemma Bounded.store (h : Bounded c) : Bounded (c.store p) := by
  obtain ⟨hns, hwindow, -⟩ := store_same c p
  refine ⟨?_, hwindow ▸ h.window_pos, hwindow ▸ h.window_le⟩
  have hle := h.outstanding_le
  rw [outstanding, hns, store_peerNr]
  simp only [nsnrCmp_neg_iff]
  split
  · omega
  · exact hle

/-! ### Runs -/

lemma takeMsg_sameAck {id : ℕ} : SameAck c (c.takeMsg id p) :=
  ⟨rfl, fun h ↦ { h with }⟩

/-- **The loop of `l2tp_tunnel_reply`**, by induction on its turns. -/
theorem replyLoop_sameAck (handlers : ℕ → List (Action α)) (turns : ℕ) (c : Channel α)
    (id count : ℕ) : SameAck c (replyLoop handlers turns c id count).1 := by
  induction turns generalizing c id count with
  | zero => exact .refl
  | succ turns ih =>
    rw [replyLoop]
    split
    · exact .refl
    next p _ =>
    split
    · exact .refl
    have hhandle : SameAck c ((c.takeMsg id p).handleMsg (handlers count)) :=
      takeMsg_sameAck.trans (handleMsg_changes _).sameAck
    dsimp only
    split
    · exact hhandle
    · exact hhandle.trans (ih _ _ _)

lemma tunnelReply_sameAck (needAck : Bool) (env : ReadEnv α) :
    SameAck c (c.tunnelReply needAck env).1 := by
  have hloop := replyLoop_sameAck env.handlers c.recvQueue.size c c.recvQueue.head 0
  rw [tunnelReply]
  generalize replyLoop env.handlers c.recvQueue.size c c.recvQueue.head 0 = r at *
  obtain ⟨c₁, count⟩ := r
  have hadvance : SameAck c₁ { c₁ with recvQueue := c₁.recvQueue.advance count } :=
    ⟨rfl, fun h ↦ { h with }⟩
  have hpush := hloop.trans (hadvance.trans (pushSendqueue_changes env.push).sameAck)
  dsimp only
  split
  · exact hpush
  · exact hpush

/-- The channel when the datagrams of an event have been stored. -/
def stored (c : Channel α) : ChannelEvent α → Channel α
  | .read batch _ => if c.state = .close then c else run store c batch
  | _ => c

/-- **`l2tp_conn_read`** moves `peer_Nr` when it stores, and not afterwards. -/
theorem connRead_sameAck {batch : List (CtrlMsg α)} {env : ReadEnv α} :
    SameAck (run store c batch) (c.connRead batch env) := by
  rw [connRead, ← storeAll_eq]
  dsimp only
  split
  · exact tunnelFree_sameAck
  have hclean := (cleanRtmsqueue_changes (c := (c.storeAll batch).1) env.cleanTimer).sameAck
  split
  · exact hclean.trans tunnelFree_sameAck
  have hreply := hclean.trans (tunnelReply_sameAck (c.storeAll batch).2 env)
  split
  · exact hreply.trans tunnelFree_sameAck
  · split
    · exact hreply.trans tunnelFree_sameAck
    · exact hreply

lemma step_sameAck {e : ChannelEvent α} : SameAck (c.stored e) (c.step e) := by
  cases e with
  | read batch env =>
    rw [stored, step.eq_def]
    split
    · exact .refl
    · exact connRead_sameAck
  | act actions =>
    rw [step.eq_def]
    split
    · exact .refl
    · exact run_act_changes.sameAck
  | rtimeout send timer =>
    rw [step.eq_def]
    split
    · exact .refl
    · dsimp only
      split
      · exact rtimeout_changes.sameAck
      · exact .refl

/-- Every datagram that an event stores is as `P` says. -/
def Stores (P : Channel α → CtrlMsg α → Prop) (c : Channel α) : ChannelEvent α → Prop
  | .read batch _ => c.state = .close ∨ Along store P c batch
  | _ => True

instance {P : Channel α → CtrlMsg α → Prop} [∀ c p, Decidable (P c p)] (e : ChannelEvent α) :
    Decidable (Stores P c e) := by
  cases e <;> dsimp only [Stores] <;> infer_instance

lemma outstanding_tunnelAlloc {s : Setup} : (tunnelAlloc s : Channel α).outstanding = 0 := by
  show (0 - 0 : Seq).toNat = 0
  decide

lemma bounded_tunnelAlloc (s : Setup) : Bounded (tunnelAlloc s : Channel α) :=
  ⟨by rw [outstanding_tunnelAlloc]; decide, s.window_pos, s.window_le⟩

/-- `peer_Nr` moves only by the datagrams an event stores, and each moves it in range. -/
def AcksInRange (c : Channel α) (e : ChannelEvent α) : Prop :=
  Stores InRange c e ∧ (c.step e).peerNr = (c.stored e).peerNr

/-- **Acknowledgements stay in range** along a run if and only if no datagram comes whose Nr is half
the sequence space from Ns when all messages have been acknowledged. -/
theorem acksInRange_iff (s : Setup) (es : List (ChannelEvent α)) :
    Along step AcksInRange (tunnelAlloc s) es ↔
      Along step (Stores fun c p ↦ ¬ HalfAway c p) (tunnelAlloc s) es := by
  have hrange : (InRange : Channel α → _ → Prop) = fun c p ↦ ¬ HalfAway c p :=
    funext₂ fun _ _ ↦ propext inRange_iff
  have hstep : AcksInRange = Stores fun (c : Channel α) p ↦ ¬ HalfAway c p := by
    funext c e
    rw [AcksInRange, hrange, and_iff_left step_sameAck.peerNr]
  rw [hstep]

/-- **Never more than half the sequence space is on its way**, whatever the peer sends and whatever
fails, and the window is valid. -/
theorem always_bounded (s : Setup) (es : List (ChannelEvent α)) :
    Always step Bounded (tunnelAlloc s) es := by
  refine fun pre _ ↦ List.foldlRecOn pre step (bounded_tunnelAlloc s) fun c h e _ ↦ ?_
  refine step_sameAck.bounded ?_
  cases e with
  | read batch env =>
    rw [stored]
    split
    · exact h
    · exact List.foldlRecOn batch store h fun _ h _ _ ↦ h.store
  | act actions | rtimeout send timer => exact h

/-- The tunnel sends its SCCRP, which the peer acknowledges. Then there is a ZLB whose Nr is half
the sequence space ahead. -/
def halfAway : List (ChannelEvent ℕ) :=
  [.act [.send ⟨0, 0, [2]⟩, .push ⟨none, true⟩ true], .read [⟨1, 1, [3]⟩] quiet,
    .read [⟨2, 32769, []⟩] quiet]

/-- One message has been sent, and 32769 have been acknowledged. -/
theorem halfAway_acknowledges :
    let c := run step (tunnelAlloc answering) halfAway
    ¬ Along step AcksInRange (tunnelAlloc answering) halfAway ∧ c.ns = 1 ∧ c.peerNr = 32769 := by
  refine ⟨fun h ↦ ?_, by decide +kernel, by decide +kernel⟩
  have hstores : Along step (Stores InRange) (tunnelAlloc answering) halfAway :=
    h.mono fun _ _ he ↦ he.1
  exact absurd hstores (by decide +kernel)

/-! ### The window -/

/-- `l2tp_tunnel_push_sendqueue` transmits something if there is something, the window has room and
the transmission does not fail; and what it transmits is within the window. -/
structure UsesWindow (c : Channel α) (env : PushEnv) : Prop where
  live : c.outstanding < c.peerRcvWndSz.toNat → c.sendQueue ≠ [] → env.failAt ≠ some 0 →
    c.rtmsQueue.length < (c.pushSendqueue env).1.rtmsQueue.length
  within : c.rtmsQueue.length < (c.pushSendqueue env).1.rtmsQueue.length →
    c.outstanding < c.peerRcvWndSz.toNat ∧
      (c.pushSendqueue env).1.outstanding ≤ c.peerRcvWndSz.toNat

lemma pushSendqueue_same {env : PushEnv} :
    let c' := (pushLoop (c.peerNr + c.peerRcvWndSz) env.failAt c 0 c.sendQueue).1
    (c.pushSendqueue env).1.rtmsQueue = c'.rtmsQueue ∧
      (c.pushSendqueue env).1.outstanding = c'.outstanding := by
  rw [pushSendqueue]
  dsimp only
  split <;> try split <;> try split <;> try split
  all_goals exact ⟨rfl, rfl⟩

/-- The loop adds to the messages on their way, up to the window. -/
lemma pushLoop_within (h : c.peerRcvWndSz.toNat ≤ 32768) (failAt : Option ℕ) (sent : ℕ)
    (queue : List (CtrlMsg α)) :
    let c' := (pushLoop (c.peerNr + c.peerRcvWndSz) failAt c sent queue).1
    c.rtmsQueue.length ≤ c'.rtmsQueue.length ∧
      (c.outstanding ≤ c.peerRcvWndSz.toNat → c'.outstanding ≤ c.peerRcvWndSz.toNat) := by
  induction queue generalizing c sent with
  | nil => exact ⟨le_refl _, id⟩
  | cons pack queue ih =>
    rw [pushLoop]
    split
    · exact ⟨le_refl _, id⟩
    next hroom =>
    split
    · exact ⟨le_refl _, id⟩
    obtain ⟨hlen, hle⟩ := ih (c := { c with
      rtmsQueue := c.rtmsQueue ++ [{ pack with ns := c.ns, nr := c.nr }], ns := c.ns + 1 })
      h (sent + 1)
    refine ⟨le_trans (by simp) hlen, fun hd ↦ hle ?_⟩
    have hroom := (room_iff h).mp (Int.lt_of_not_ge hroom)
    rw [outstanding_sent (by omega)]
    show c.outstanding + 1 ≤ c.peerRcvWndSz.toNat
    omega

/-- Something is transmitted exactly if the first message is. -/
lemma transmits_iff (h : c.peerRcvWndSz.toNat ≤ 32768) (env : PushEnv) :
    c.rtmsQueue.length < (c.pushSendqueue env).1.rtmsQueue.length ↔
      c.sendQueue ≠ [] ∧ env.failAt ≠ some 0 ∧
        nsnrCmp c.ns (c.peerNr + c.peerRcvWndSz) < 0 := by
  rw [pushSendqueue_same.1]
  cases hq : c.sendQueue with
  | nil => simp [pushLoop]
  | cons pack queue =>
    rw [pushLoop]
    split
    · next hfull => simp [Int.not_lt.mpr hfull]
    next hroom =>
    split
    · next hfail => simp [hfail]
    next hok =>
    refine iff_of_true ?_ ⟨List.cons_ne_nil _ _, hok, Int.lt_of_not_ge hroom⟩
    exact lt_of_lt_of_le (by simp) (pushLoop_within h env.failAt 1 queue
      (c := { c with rtmsQueue := c.rtmsQueue ++ [{ pack with ns := c.ns, nr := c.nr }],
                     ns := c.ns + 1 })).1

/-- **The window is used** exactly if, when there is something to transmit, it is not half the
sequence space with no message on its way, and not so far exceeded that its end seems to be ahead.
-/
theorem usesWindow_iff (c : Channel α) (size : Seq) (env : PushEnv) :
    UsesWindow { c with peerRcvWndSz := checkWindow size } env ↔
      (c.sendQueue ≠ [] → env.failAt ≠ some 0 →
        ¬ (c.outstanding = 0 ∧ checkWindow size = 32768) ∧
          c.outstanding ≤ (checkWindow size).toNat + 32768) := by
  have hle := (checkWindow_bounds size).2
  generalize checkWindow size = w at hle ⊢
  let c₀ := { c with peerRcvWndSz := w }
  have hsent := transmits_iff (c := c₀) hle env
  have hroom : nsnrCmp c.ns (c.peerNr + w) < 0 ↔
      c.outstanding < w.toNat ∧ w.toNat < c.outstanding + 32768 ∨ w.toNat + 32768 < c.outstanding :=
    room_iff (c := c₀) hle
  have hhalf : w = 32768 ↔ w.toNat = 32768 := by
    rw [← BitVec.toNat_inj]
    rfl
  rw [hhalf]
  constructor
  · intro h hq hok
    refine ⟨fun hd ↦ ?_, Nat.le_of_not_lt fun hfar ↦ ?_⟩
    · have hlt : c.outstanding < w.toNat := by omega
      have := hroom.mp (hsent.mp (h.live hlt hq hok)).2.2
      omega
    · have hlt : c.outstanding < w.toNat :=
        (h.within (hsent.mpr ⟨hq, hok, hroom.mpr (.inr hfar)⟩)).1
      omega
  · intro h
    refine ⟨fun hlt hq hok ↦ ?_, fun hgrew ↦ ?_⟩
    · have hcond := (h hq hok).1
      exact hsent.mpr ⟨hq, hok, hroom.mpr (.inl ⟨hlt, by omega⟩)⟩
    obtain ⟨hq, hok, hneg⟩ := hsent.mp hgrew
    have hcond := (h hq hok).2
    rcases hroom.mp hneg with ⟨hlt, -⟩ | hfar
    · refine ⟨hlt, ?_⟩
      rw [pushSendqueue_same.2]
      exact (pushLoop_within (c := c₀) hle env.failAt 0 c₀.sendQueue).2 hlt.le
    · omega

/-- The peer announces the largest window that is accepted. The first message, with none on its way,
is not transmitted. -/
theorem largest_window_blocks :
    let c := run act (tunnelAlloc answering : Channel ℕ) [.window 32768, .send ⟨0, 0, [1]⟩]
    c.peerRcvWndSz = 32768 ∧ c.outstanding < c.peerRcvWndSz.toNat ∧ c.sendQueue ≠ [] ∧
      (c.pushSendqueue ⟨none, true⟩).1.rtmsQueue = [] ∧ (c.pushSendqueue ⟨none, true⟩).2 = 0 := by
  decide +kernel

end Channel

end AccelPpp.L2tp
