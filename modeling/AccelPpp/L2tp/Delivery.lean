import AccelPpp.L2tp.Channel

/-!
# In order, and once

The messages a tunnel processes are those of the peer, in order, each once, however the datagrams
that carry them are delayed, repeated or lost.

A message has a **number**, which counts without end, and its Ns is the number modulo `2 ^ 16`. The
numbers are not in the source: `num` says which message of the peer a datagram carries. As
attributes are of any type, they can be taken to hold the number. No datagram is older than the
sequence space minus the window when it arrives, and none is a whole sequence space ahead
(`Timely`). For a datagram that is not late at all any Ns will do, as one of the next `2 ^ 16`
numbers has it.

The invariant is about the reception queue. At offset `i` there is nothing, or the message whose
turn comes after `i` others; while the loop of `l2tp_tunnel_reply` runs, the offsets before `k`, the
number of messages it has processed, are empty (`InOrder`).
-/

open List Nat

namespace AccelPpp.L2tp

namespace Channel

open Transition RingBuffer

variable {α : Type} {num : CtrlMsg α → ℕ} {n₀ k n : ℕ} {c c' c'' : Channel α} {p : CtrlMsg α}

/-! ### What leaves the reception queue alone -/

/-- Nothing is received and nothing processed, unless the tunnel is freed. -/
structure SameRecv (c c' : Channel α) : Prop where
  nr : c'.nr = c.nr
  processed : c'.processed = c.processed
  closed : c.state = .close → c'.state = .close
  queue : c'.recvQueue = c.recvQueue ∨
    c'.state = .close ∧ c'.recvQueue = .empty c.recvQueue.size

lemma SameRecv.refl : SameRecv c c := ⟨rfl, rfl, id, .inl rfl⟩

lemma SameRecv.size (h : SameRecv c c') : c'.recvQueue.size = c.recvQueue.size := by
  rcases h.queue with hq | ⟨-, hq⟩ <;> rw [hq]
  rfl

lemma SameRecv.trans (h : SameRecv c c') (h' : SameRecv c' c'') : SameRecv c c'' := by
  refine ⟨h'.nr.trans h.nr, h'.processed.trans h.processed, fun hc ↦ h'.closed (h.closed hc), ?_⟩
  rcases h'.queue with hq' | ⟨hc, hq'⟩
  · rcases h.queue with hq | ⟨hc, hq⟩
    · exact .inl (hq'.trans hq)
    · exact .inr ⟨h'.closed hc, hq'.trans hq⟩
  · exact .inr ⟨hc, by rw [hq', h.size]⟩

lemma tunnelFree_sameRecv : SameRecv c c.tunnelFree := by
  rw [tunnelFree]
  split
  · exact .refl
  · exact ⟨rfl, rfl, fun _ ↦ rfl, .inr ⟨rfl, rfl⟩⟩

lemma Change.sameRecv (h : Change c c') : SameRecv c c' := by
  cases h with
  | state state hopen => exact ⟨rfl, rfl, fun hc ↦ (hopen hc).elim, .inl rfl⟩
  | free => exact tunnelFree_sameRecv
  | _ => exact ⟨rfl, rfl, id, .inl rfl⟩

lemma Changes.sameRecv (h : Changes c c') : SameRecv c c' := by
  induction h with
  | refl => exact .refl
  | tail _ hlast ih => exact ih.trans hlast.sameRecv

/-! ### The invariant -/

/-- The number of the message whose turn it is. -/
def next (n₀ : ℕ) (c : Channel α) : ℕ := n₀ + c.processed.length

/-- What has been processed is in order, and what is stored will be. The loop has processed `k`
messages and not moved the head of the queue yet. -/
structure InOrder (num : CtrlMsg α → ℕ) (n₀ k : ℕ) (c : Channel α) : Prop where
  size_le : c.recvQueue.size ≤ recvWindowSizeMax
  head_lt : c.recvQueue.head < c.recvQueue.size
  nums : c.processed.map num = List.range' n₀ c.processed.length
  ns : ∀ p ∈ c.processed, p.ns = .ofNat 16 (num p)
  nr : c.nr = .ofNat 16 (next n₀ c)
  slots : ∀ i < c.recvQueue.size, ∀ p, c.recvQueue.slot i = some p →
    k ≤ i ∧ p.ns = .ofNat 16 (num p) ∧ num p = next n₀ c + (i - k)

/-- The message has been processed, or it is stored, or the tunnel is gone. -/
def Kept (num : CtrlMsg α → ℕ) (n : ℕ) (c : Channel α) : Prop :=
  c.state = .close ∨ (∃ p ∈ c.processed, num p = n) ∨
    ∃ i < c.recvQueue.size, ∃ p, c.recvQueue.slot i = some p ∧ num p = n

lemma InOrder.same (h : InOrder num n₀ k c) (hs : SameRecv c c') : InOrder num n₀ k c' := by
  have hnext : next n₀ c' = next n₀ c := by rw [next, next, hs.processed]
  have hpos := zero_lt_of_lt h.head_lt
  refine ⟨hs.size ▸ h.size_le, ?_, hs.processed ▸ h.nums, hs.processed ▸ h.ns,
    by rw [hs.nr, hnext, h.nr], fun i hi p hp ↦ ?_⟩
  · rcases hs.queue with hq | ⟨-, hq⟩ <;> rw [hq]
    · exact h.head_lt
    · exact hpos
  rcases hs.queue with hq | ⟨-, hq⟩
  · rw [hq] at hi hp
    rw [hnext]
    exact h.slots i hi p hp
  · rw [hq] at hp
    nomatch hp

lemma Kept.same (h : Kept num n c) (hs : SameRecv c c') : Kept num n c' := by
  rcases h with hc | hp | hslot
  · exact .inl (hs.closed hc)
  · exact .inr (.inl (hs.processed ▸ hp))
  · rcases hs.queue with hq | ⟨hc, -⟩
    · exact .inr (.inr (hq ▸ hslot))
    · exact .inl hc

/-! ### Storing -/

/-- The distance between two sequence numbers, by the numbers they stand for. -/
lemma toNat_sub_ofNat_of_le {a b : ℕ} (h : b ≤ a) (h' : a < b + 65536) :
    (BitVec.ofNat 16 a - BitVec.ofNat 16 b : Seq).toNat = a - b := by
  rw [BitVec.toNat_sub, BitVec.toNat_ofNat, BitVec.toNat_ofNat]
  omega

/-- A datagram arrives in time: it is not older than the sequence space minus the window, and not a
whole sequence space ahead. -/
structure InTime (num : CtrlMsg α → ℕ) (n₀ : ℕ) (c : Channel α) (p : CtrlMsg α) : Prop where
  ns : p.ns = .ofNat 16 (num p)
  late : next n₀ c + c.recvQueue.size ≤ num p + 65536
  early : num p < next n₀ c + 65536

instance : Decidable (InTime num n₀ c p) :=
  decidable_of_iff (p.ns = .ofNat 16 (num p) ∧ next n₀ c + c.recvQueue.size ≤ num p + 65536 ∧
      num p < next n₀ c + 65536)
    ⟨fun ⟨hns, hlate, hearly⟩ ↦ ⟨hns, hlate, hearly⟩, fun h ↦ ⟨h.ns, h.late, h.early⟩⟩

lemma noteAck_sameRecv : SameRecv c (c.noteAck p) := ⟨rfl, rfl, id, .inl rfl⟩

section

variable (h : InOrder num n₀ 0 c)

include h

/-- What is found to be in the window is. -/
lemma InOrder.offset (hp : InTime num n₀ c p)
    (hlt : (p.ns - c.nr).toNat < c.recvQueue.size) : num p = next n₀ c + (p.ns - c.nr).toNat := by
  have hlate := hp.late
  have hearly := hp.early
  have hsize := h.size_le
  rw [hp.ns, h.nr] at hlt ⊢
  by_cases hnum : next n₀ c ≤ num p
  · rw [toNat_sub_ofNat_of_le hnum hearly]
    omega
  · rw [BitVec.toNat_sub, BitVec.toNat_ofNat, BitVec.toNat_ofNat] at hlt
    omega

/-- A message is stored at its offset. -/
lemma InOrder.put (hp : InTime num n₀ c p) (hlt : (p.ns - c.nr).toNat < c.recvQueue.size) :
    InOrder num n₀ 0 { c.noteAck p with recvQueue := c.recvQueue.put (p.ns - c.nr).toNat p } := by
  refine { h with slots := fun i hi q hq ↦ ?_ }
  have hslot := slot_put (a := p) hlt hi
  rw [hslot] at hq
  split at hq
  · next hiq =>
    obtain rfl := Option.some.inj hq
    exact ⟨zero_le i, hp.ns, hiq ▸ h.offset hp hlt⟩
  · exact h.slots i hi q hq

/-- **`l2tp_tunnel_store_msg`**: the queue stays in order, and what is in it stays. -/
theorem InOrder.storeMsg (hp : p.isZLB = false → InTime num n₀ c p) :
    InOrder num n₀ 0 (c.storeMsg p).1 ∧ ∀ n, Kept num n c → Kept num n (c.storeMsg p).1 := by
  rcases storeMsg_cases with ⟨heq, -⟩ | ⟨heq, -⟩ | ⟨heq, hzlb, hlt, hempty⟩
  · rw [heq]
    exact ⟨h, fun _ hn ↦ hn⟩
  · rw [heq]
    exact ⟨h.same noteAck_sameRecv, fun _ hn ↦ hn.same noteAck_sameRecv⟩
  rw [heq]
  refine ⟨h.put (hp hzlb) hlt, fun n hn ↦ ?_⟩
  rcases hn with hc | hproc | ⟨i, hi, q, hq, hqn⟩
  · exact .inl hc
  · exact .inr (.inl hproc)
  refine .inr (.inr ⟨i, hi, q, ?_, hqn⟩)
  have hne : i ≠ (p.ns - c.nr).toNat := by
    rintro rfl
    nomatch hempty.symm.trans hq
  exact (slot_put hlt hi).trans ((if_neg hne).trans hq)

/-- A message in the window is stored, unless it is there already. -/
lemma InOrder.kept_storeMsg (hp : InTime num n₀ c p)
    (hack : 0 ≤ nsnrCmp c.ns p.nr) (hzlb : p.isZLB = false) (hle : next n₀ c ≤ num p)
    (hlt : num p < next n₀ c + c.recvQueue.size) : Kept num (num p) (c.storeMsg p).1 := by
  have hsize := h.size_le
  rw [recvWindowSizeMax] at hsize
  have hdist : (p.ns - c.nr).toNat = num p - next n₀ c := by
    rw [hp.ns, h.nr, toNat_sub_ofNat_of_le hle hp.early]
  have hoff : (p.ns - c.nr).toNat < c.recvQueue.size := by omega
  rcases storeMsg_cases with ⟨-, hneg⟩ | ⟨heq, hdrop⟩ | ⟨heq, -, -, -⟩
  · exact absurd hneg (not_lt.mpr hack)
  · rw [heq]
    rcases hdrop with hz | hneg | hfar | hsome
    · nomatch hzlb.symm.trans hz
    · rw [nsnrCmp_neg_iff] at hneg
      omega
    · omega
    · obtain ⟨q, hq⟩ := Option.isSome_iff_exists.mp hsome
      obtain ⟨-, -, hnum⟩ := h.slots _ hoff q hq
      exact .inr (.inr ⟨_, hoff, q, hq, by omega⟩)
  · rw [heq]
    exact .inr (.inr ⟨_, hoff, p, (slot_put hoff hoff).trans (if_pos rfl), rfl⟩)

end

/-- A datagram changes neither what has been processed nor the numbers it is judged by. -/
lemma storeMsg_next {n₀ : ℕ} {c : Channel α} {p : CtrlMsg α} :
    next n₀ (c.storeMsg p).1 = next n₀ c ∧
      (c.storeMsg p).1.recvQueue.size = c.recvQueue.size ∧ (c.storeMsg p).1.ns = c.ns := by
  rcases storeMsg_cases with ⟨heq, -⟩ | ⟨heq, -⟩ | ⟨heq, -⟩ <;> rw [heq] <;>
    exact ⟨rfl, rfl, rfl⟩

lemma InTime.storeMsg {q : CtrlMsg α} (hp : InTime num n₀ c p) :
    InTime num n₀ (c.storeMsg q).1 p := by
  obtain ⟨hnext, hsize, -⟩ := storeMsg_next
  exact ⟨hp.ns, by rw [hnext, hsize]; exact hp.late, by rw [hnext]; exact hp.early⟩

/-- A datagram of the batch whose number is in the window, and that does not acknowledge what has
not been sent. -/
structure Acceptable (num : CtrlMsg α → ℕ) (n₀ : ℕ) (c : Channel α) (p : CtrlMsg α) : Prop where
  notZLB : p.isZLB = false
  ack : 0 ≤ nsnrCmp c.ns p.nr
  le : next n₀ c ≤ num p
  lt : num p < next n₀ c + c.recvQueue.size

variable {batch : List (CtrlMsg α)}

/-- **The loop of `l2tp_conn_read`**, by induction on the datagrams. -/
theorem InOrder.storeAll (h : InOrder num n₀ 0 c)
    (hb : ∀ p ∈ batch, p.isZLB = false → InTime num n₀ c p) :
    InOrder num n₀ 0 (c.storeAll batch).1 ∧
      (∀ n, Kept num n c → Kept num n (c.storeAll batch).1) ∧
      ∀ p ∈ batch, Acceptable num n₀ c p → Kept num (num p) (c.storeAll batch).1 := by
  induction batch generalizing c with
  | nil => exact ⟨h, fun _ hn ↦ hn, nofun⟩
  | cons p batch ih =>
    obtain ⟨hstore, hkept⟩ := h.storeMsg (hb p mem_cons_self)
    obtain ⟨hnext, hsize, hns⟩ := storeMsg_next
    obtain ⟨hrest, hkept', haccept⟩ := ih hstore fun q hq hz ↦
      (hb q (mem_cons_of_mem p hq) hz).storeMsg
    refine ⟨hrest, fun n hn ↦ hkept' n (hkept n hn), fun q hq hacc ↦ ?_⟩
    rcases mem_cons.mp hq with rfl | hq
    · exact hkept' _ (h.kept_storeMsg (hb q mem_cons_self hacc.notZLB) hacc.ack hacc.notZLB
        hacc.le hacc.lt)
    · exact haccept q hq ⟨hacc.notZLB, by rw [hns]; exact hacc.ack, by rw [hnext]; exact hacc.le,
        by rw [hnext, hsize]; exact hacc.lt⟩

/-! ### Processing -/

/-- A message is taken out of the slot at offset `k`. -/
lemma InOrder.takeMsg (h : InOrder num n₀ k c) (hk : k < c.recvQueue.size)
    (hp : c.recvQueue.slot k = some p) :
    InOrder num n₀ (k + 1) (c.takeMsg (c.recvQueue.index k) p) ∧
      ∀ n, Kept num n c → Kept num n (c.takeMsg (c.recvQueue.index k) p) := by
  obtain ⟨-, hns, hnum⟩ := h.slots k hk p hp
  rw [Nat.sub_self] at hnum
  have hnext : next n₀ (c.takeMsg (c.recvQueue.index k) p) = next n₀ c + 1 := by
    show n₀ + (c.processed ++ [p]).length = n₀ + c.processed.length + 1
    rw [length_append, length_singleton, add_assoc]
  refine ⟨⟨h.size_le, h.head_lt, ?_, fun q hq ↦ ?_, ?_, fun i hi q hq ↦ ?_⟩, fun n hn ↦ ?_⟩
  · show (c.processed ++ [p]).map num = range' n₀ (c.processed ++ [p]).length
    rw [map_append, h.nums, length_append, length_singleton, range'_concat,
      map_singleton, hnum, one_mul]
    rfl
  · rcases mem_append.mp hq with hq | hq
    · exact h.ns q hq
    · rw [mem_singleton.mp hq]
      exact hns
  · rw [hnext]
    show c.nr + 1 = _
    rw [h.nr, BitVec.ofNat_add]
    rfl
  · have hslot := slot_erase hk hi
    rw [show (c.takeMsg (c.recvQueue.index k) p).recvQueue =
      c.recvQueue.erase (c.recvQueue.index k) from rfl, hslot] at hq
    split at hq
    · nomatch hq
    · next hik =>
      obtain ⟨hle, hqns, hqnum⟩ := h.slots i hi q hq
      exact ⟨by omega, hqns, by omega⟩
  · rcases hn with hc | ⟨q, hq, hqn⟩ | ⟨i, hi, q, hq, hqn⟩
    · exact .inl hc
    · exact .inr (.inl ⟨q, mem_append_left _ hq, hqn⟩)
    · by_cases hik : i = k
      · obtain rfl := Option.mem_unique hp (hik ▸ hq)
        exact .inr (.inl ⟨p, mem_append_right _ (mem_singleton_self p), hqn⟩)
      · exact .inr (.inr ⟨i, hi, q, (slot_erase hk hi).trans ((if_neg hik).trans hq),
          hqn⟩)

/-- Nothing is processed once the tunnel is gone. -/
lemma replyLoop_closed {handlers : ℕ → List (Action α)} {turns id count : ℕ}
    (hc : c.state = .close) : replyLoop handlers turns c id count = (c, count) := by
  cases turns with
  | zero => rfl
  | succ turns =>
    rw [replyLoop]
    split
    · rfl
    · rw [if_pos hc]

/-- **The loop of `l2tp_tunnel_reply`**, by induction on its turns: it stops at an empty slot, or
when it has been round. -/
theorem InOrder.replyLoop (handlers : ℕ → List (Action α)) {turns : ℕ} (h : InOrder num n₀ k c)
    (hturns : k + turns = c.recvQueue.size) :
    let r := Channel.replyLoop handlers turns c (c.recvQueue.index k) k
    InOrder num n₀ r.2 r.1 ∧ r.2 ≤ r.1.recvQueue.size ∧
      (r.1.state ≠ .close → r.2 = r.1.recvQueue.size ∨ r.1.recvQueue.slot r.2 = none) ∧
      ∀ n, Kept num n c → Kept num n r.1 := by
  induction turns generalizing c k with
  | zero => exact ⟨h, le_of_eq hturns, fun _ ↦ .inl hturns, fun _ hn ↦ hn⟩
  | succ turns ih =>
    have hk : k < c.recvQueue.size := by omega
    rw [Channel.replyLoop]
    split
    · next hnone => exact ⟨h, hk.le, fun _ ↦ .inr hnone, fun _ hn ↦ hn⟩
    next p hp =>
    split
    · next hclose => exact ⟨h, hk.le, fun hf ↦ (hf hclose).elim, fun _ hn ↦ hn⟩
    obtain ⟨htake, hkept⟩ := h.takeMsg hk hp
    have hsame := (handleMsg_changes (c := c.takeMsg (c.recvQueue.index k) p)
      (handlers k)).sameRecv
    have hsize : (c.takeMsg (c.recvQueue.index k) p).recvQueue.size = c.recvQueue.size := rfl
    have hindex : (c.recvQueue.index k + 1) % c.recvQueue.size =
        (c.takeMsg (c.recvQueue.index k) p).recvQueue.index (k + 1) := index_succ
    generalize c.takeMsg (c.recvQueue.index k) p = c₁ at *
    generalize hc₂ : c₁.handleMsg (handlers k) = c₂ at *
    have hnow := htake.same hsame
    have hall : ∀ n, Kept num n c → Kept num n c₂ := fun n hn ↦ (hkept n hn).same hsame
    have hsize₂ := hsame.size.trans hsize
    dsimp only
    by_cases hclose : c₂.state = .close
    · rw [replyLoop_closed hclose, ite_self]
      exact ⟨hnow, by rw [hsize₂]; exact hk, fun hf ↦ (hf hclose).elim, hall⟩
    have hqueue : c₂.recvQueue = c₁.recvQueue := hsame.queue.resolve_right fun hf ↦
      hclose hf.1
    rw [hsize₂, hindex, ← hqueue]
    split
    · next hhead =>
      refine ⟨hnow, by rw [hsize₂]; exact hk, fun _ ↦ .inl ?_, hall⟩
      dsimp only
      -- the first slot comes again after as many turns as there are slots
      rw [← index_zero hnow.head_lt] at hhead
      by_contra hne
      nomatch index_inj (by omega) (by omega) hhead
    · obtain ⟨hloop, hle, hstop, hkept'⟩ := ih hnow (by omega)
      exact ⟨hloop, hle, hstop, fun n hn ↦ hkept' n (hall n hn)⟩

/-- The head of the queue moves behind what has been processed. -/
lemma InOrder.advance (h : InOrder num n₀ k c) (hk : k ≤ c.recvQueue.size) :
    InOrder num n₀ 0 { c with recvQueue := c.recvQueue.advance k } ∧
      ∀ n, Kept num n c → Kept num n { c with recvQueue := c.recvQueue.advance k } := by
  have hpos := zero_lt_of_lt h.head_lt
  refine ⟨⟨h.size_le, mod_lt _ hpos, h.nums, h.ns, h.nr, fun i hi p hp ↦ ?_⟩, fun n hn ↦ ?_⟩
  · have hi : i < c.recvQueue.size := hi
    rw [slot_advance] at hp
    by_cases hwrap : i + k < c.recvQueue.size
    · obtain ⟨-, hns, hnum⟩ := h.slots (i + k) hwrap p hp
      rw [Nat.add_sub_cancel] at hnum
      exact ⟨Nat.zero_le i, hns, hnum⟩
    -- behind the end the slots that have been emptied come again
    obtain ⟨j, hj⟩ := Nat.exists_eq_add_of_le' (Nat.le_of_not_lt hwrap)
    rw [hj, slot_add_size] at hp
    obtain ⟨hle, -, -⟩ := h.slots j (by omega) p hp
    omega
  · rcases hn with hc | hproc | ⟨i, hi, q, hq, hqn⟩
    · exact .inl hc
    · exact .inr (.inl hproc)
    · obtain ⟨hle, -, -⟩ := h.slots i hi q hq
      refine .inr (.inr ⟨i - k, Nat.lt_of_le_of_lt (Nat.sub_le i k) hi, q, ?_, hqn⟩)
      rw [slot_advance, Nat.sub_add_cancel hle]
      exact hq

/-- Nothing whose turn it is has been left in the queue. -/
def Drained (c : Channel α) : Prop := c.state ≠ .close → c.recvQueue.slot 0 = none

lemma Drained.same (h : Drained c) (hs : SameRecv c c') : Drained c' := by
  intro hopen
  rcases hs.queue with hq | ⟨hc, -⟩
  · rw [hq]
    exact h fun hc ↦ hopen (hs.closed hc)
  · exact (hopen hc).elim

/-- **`l2tp_tunnel_reply`** -/
theorem InOrder.tunnelReply (needAck : Bool) (env : ReadEnv α) (h : InOrder num n₀ 0 c) :
    InOrder num n₀ 0 (c.tunnelReply needAck env).1 ∧ Drained (c.tunnelReply needAck env).1 ∧
      ∀ n, Kept num n c → Kept num n (c.tunnelReply needAck env).1 := by
  have hloop := h.replyLoop env.handlers (zero_add c.recvQueue.size)
  rw [index_zero h.head_lt] at hloop
  rw [Channel.tunnelReply]
  generalize Channel.replyLoop env.handlers c.recvQueue.size c c.recvQueue.head 0 = r at *
  obtain ⟨c₁, count⟩ := r
  obtain ⟨horder, hle, hstop, hkept⟩ := hloop
  dsimp only at *
  obtain ⟨hadv, hkept'⟩ := horder.advance hle
  have hdrained : Drained { c₁ with recvQueue := c₁.recvQueue.advance count } := by
    intro hopen
    show (c₁.recvQueue.advance count).slot 0 = none
    rw [slot_advance]
    rcases hstop hopen with hall | hnone
    · rw [hall, slot_add_size]
      rcases hslot : c₁.recvQueue.slot 0 with _ | p
      · rfl
      · have hpos := zero_lt_of_lt horder.head_lt
        have hfirst := (horder.slots 0 hpos p hslot).1
        omega
    · rw [zero_add]
      exact hnone
  have hpush := (pushSendqueue_changes (c := { c₁ with recvQueue := c₁.recvQueue.advance count })
    env.push).sameRecv
  split <;>
    exact ⟨hadv.same hpush, hdrained.same hpush, fun n hn ↦ (hkept' n (hkept n hn)).same hpush⟩

lemma drained_tunnelFree : Drained c.tunnelFree := by
  intro hopen
  rw [tunnelFree] at hopen
  split at hopen
  · next hc => exact (hopen hc).elim
  · exact (hopen rfl).elim

/-- **`l2tp_conn_read`** -/
theorem InOrder.connRead (env : ReadEnv α) (h : InOrder num n₀ 0 c)
    (hb : ∀ p ∈ batch, p.isZLB = false → InTime num n₀ c p) :
    InOrder num n₀ 0 (c.connRead batch env) ∧ Drained (c.connRead batch env) ∧
      (∀ n, Kept num n c → Kept num n (c.connRead batch env)) ∧
      ∀ p ∈ batch, Acceptable num n₀ c p → Kept num (num p) (c.connRead batch env) := by
  obtain ⟨hstore, hkept, haccept⟩ := h.storeAll hb
  -- all that follows keeps what has been stored
  suffices hrest : InOrder num n₀ 0 (c.connRead batch env) ∧ Drained (c.connRead batch env) ∧
      ∀ n, Kept num n (c.storeAll batch).1 → Kept num n (c.connRead batch env) from
    ⟨hrest.1, hrest.2.1, fun n hn ↦ hrest.2.2 n (hkept n hn),
      fun p hp hacc ↦ hrest.2.2 _ (haccept p hp hacc)⟩
  have hfree : ∀ {c₁ : Channel α}, InOrder num n₀ 0 c₁ →
      InOrder num n₀ 0 c₁.tunnelFree ∧ Drained c₁.tunnelFree ∧
        ∀ n, Kept num n c₁ → Kept num n c₁.tunnelFree := fun h₁ ↦
    ⟨h₁.same tunnelFree_sameRecv, drained_tunnelFree, fun n hn ↦ hn.same tunnelFree_sameRecv⟩
  rw [Channel.connRead]
  dsimp only
  split
  · exact hfree hstore
  have hclean := (cleanRtmsqueue_changes (c := (c.storeAll batch).1) env.cleanTimer).sameRecv
  have hstore' := hstore.same hclean
  split
  · obtain ⟨hin, hdr, hk⟩ := hfree hstore'
    exact ⟨hin, hdr, fun n hn ↦ hk n (hn.same hclean)⟩
  obtain ⟨hin, hdr, hk⟩ := hstore'.tunnelReply (c.storeAll batch).2 env
  obtain ⟨hin', hdr', hk'⟩ := hfree hin
  split
  · exact ⟨hin', hdr', fun n hn ↦ hk' n (hk n (hn.same hclean))⟩
  · split
    · exact ⟨hin', hdr', fun n hn ↦ hk' n (hk n (hn.same hclean))⟩
    · exact ⟨hin, hdr, fun n hn ↦ hk n (hn.same hclean)⟩

/-! ### Runs -/

/-- The datagrams of an event arrive in time. -/
def Timely (num : CtrlMsg α → ℕ) (n₀ : ℕ) (c : Channel α) : ChannelEvent α → Prop
  | .read batch _ => ∀ p ∈ batch, p.isZLB = false → InTime num n₀ c p
  | _ => True

instance : ∀ e, Decidable (Timely num n₀ c e)
  | .read batch _ =>
    inferInstanceAs (Decidable (∀ p ∈ batch, p.isZLB = false → InTime num n₀ c p))
  | .act _ => inferInstanceAs (Decidable True)
  | .rtimeout _ _ => inferInstanceAs (Decidable True)

variable {e : ChannelEvent α}

/-- **One event.** -/
theorem step_inOrder (h : InOrder num n₀ 0 c ∧ Drained c) (he : Timely num n₀ c e) :
    (InOrder num n₀ 0 (c.step e) ∧ Drained (c.step e)) ∧
      ∀ n, Kept num n c → Kept num n (c.step e) := by
  have hsame {c' : Channel α} (hs : SameRecv c c') : (InOrder num n₀ 0 c' ∧ Drained c') ∧
      ∀ n, Kept num n c → Kept num n c' :=
    ⟨⟨h.1.same hs, h.2.same hs⟩, fun n hn ↦ hn.same hs⟩
  rw [step.eq_def]
  split
  · exact hsame .refl
  cases e with
  | read batch env =>
    obtain ⟨hin, hdr, hk, -⟩ := h.1.connRead env he
    exact ⟨⟨hin, hdr⟩, hk⟩
  | act actions => exact hsame run_act_changes.sameRecv
  | rtimeout send timer =>
    dsimp only
    split
    · exact hsame rtimeout_changes.sameRecv
    · exact hsame .refl

/-- The messages that have been processed are those numbered from `n₀` on, in order and each once,
and so are their Ns. At offset `i` of the reception queue there is nothing, or the message whose Ns
is `i` more than Nr; at offset 0 there is nothing. -/
structure Delivered (num : CtrlMsg α → ℕ) (n₀ : ℕ) (c : Channel α) : Prop where
  nums : c.processed.map num = List.range' n₀ c.processed.length
  ns : c.processed.map CtrlMsg.ns = (List.range' n₀ c.processed.length).map (.ofNat 16)
  slots : ∀ i < c.recvQueue.size, ∀ p, c.recvQueue.slot i = some p →
    p.ns = c.nr + .ofNat 16 i ∧ num p = next n₀ c + i
  drained : c.state ≠ .close → c.recvQueue.slot 0 = none

lemma InOrder.delivered (h : InOrder num n₀ 0 c) (hd : Drained c) : Delivered num n₀ c := by
  refine ⟨h.nums, ?_, fun i hi p hp ↦ ?_, hd⟩
  · rw [← h.nums, map_map]
    exact map_congr_left h.ns
  · obtain ⟨-, hns, hnum⟩ := h.slots i hi p hp
    rw [Nat.sub_zero] at hnum
    refine ⟨?_, hnum⟩
    rw [hns, hnum, h.nr, BitVec.ofNat_add]

/-- **In order, once, and without loss.** If the datagrams arrive in time, what has been processed
at any moment is in order and without repetition, and every message that has come into the window is
among it or will be when its turn comes, as long as the tunnel is there. -/
theorem delivered_in_order (s : Setup) (num : CtrlMsg α → ℕ) {es : List (ChannelEvent α)}
    (hes : Along step (Timely num s.nr) (tunnelAlloc s) es) :
    Always step (Delivered num s.nr) (tunnelAlloc s) es ∧
      ∀ pre batch env post, es = pre ++ .read batch env :: post →
        ∀ p ∈ batch, Acceptable num s.nr (run step (tunnelAlloc s) pre) p →
          Kept num (num p) (run step (tunnelAlloc s) es) := by
  have hinv : Always step (fun c ↦ InOrder num s.nr 0 c ∧ Drained c) (tunnelAlloc s) es :=
    Along.always (fun _ _ h he ↦ (step_inOrder h he).1) ⟨⟨s.size_le, s.size_pos, rfl,
      nofun, rfl, nofun⟩, fun _ ↦ rfl⟩ hes
  refine ⟨fun pre hpre ↦ (hinv pre hpre).1.delivered (hinv pre hpre).2, ?_⟩
  rintro pre batch env post rfl p hp hacc
  obtain ⟨-, hread, hpost⟩ := along_append.mp hes
  have hpre := hinv pre ⟨_, rfl⟩
  rw [run_append]
  -- from the read on, what has been kept stays kept
  have hstep := step_inOrder hpre hread
  refine (Along.inv (P := fun c ↦ (InOrder num s.nr 0 c ∧ Drained c) ∧ Kept num (num p) c)
    (fun c e h he ↦ ?_) ⟨hstep.1, ?_⟩ hpost).2
  · obtain ⟨hin, hk⟩ := step_inOrder h.1 he
    exact ⟨hin, hk _ h.2⟩
  · rw [step.eq_def]
    split
    · next hc => exact .inl hc
    · exact (hpre.1.connRead env hread).2.2.2 p hp hacc

/-- A message of the peer, with its number as its only attribute. -/
def numbered (n : ℕ) : CtrlMsg ℕ := ⟨.ofNat 16 n, 0, [n]⟩

/-- The second message comes first, and both come again. -/
def swapped : List (ChannelEvent ℕ) :=
  [.read [numbered 2, numbered 2] quiet, .read [numbered 1] quiet,
    .read [numbered 1, numbered 2] quiet]

theorem delivered_in_order_swapped :
    Along step (Timely (fun p ↦ p.attrs.headD 0) 1) (tunnelAlloc answering) swapped ∧
      Always step (Delivered (fun p ↦ p.attrs.headD 0) 1) (tunnelAlloc answering) swapped ∧
      (run step (tunnelAlloc answering) swapped).processed = [numbered 1, numbered 2] :=
  have htimely : Along step (Timely (fun p ↦ p.attrs.headD 0) 1) (tunnelAlloc answering)
    swapped := by
    decide +kernel
  ⟨htimely, (delivered_in_order answering _ htimely).1, by decide +kernel⟩

end Channel

end AccelPpp.L2tp
