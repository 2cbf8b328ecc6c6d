import AccelPpp.Lib.Run

/-!
# Frames between flags

A stream of octets carries frames: each frame ends with a **flag**, and an octet of the frame that
must not appear as it is is replaced by an **escape** and the translated octet. The receiver goes
through the stream octet by octet, and keeps whatever comes between two flags.

`Stuffing.receive` takes one octet, and `Transition.run` lifts it to streams, so that it does not
matter how a stream is cut into pieces. `Stuffing.run_receive_frame` says that what was stuffed
comes back, `Stuffing.along_frame` what is true at each octet on the way, and
`Stuffing.length_stuff_le` and `Stuffing.Escapes.flag_notMem` what a frame looks like.
-/

open List Transition

/-- The octets with a meaning of their own, and the translation of escaped octets. -/
structure Stuffing (α : Type*) where
  flag : α
  esc : α
  trans : α → α
  trans_trans : ∀ b, trans (trans b) = b
  esc_ne_flag : esc ≠ flag

namespace Stuffing

variable {α : Type*} (c : Stuffing α)

/-- The octet has a meaning of its own. -/
def Special (b : α) : Prop := b = c.flag ∨ b = c.esc

/-- The octets of a frame, with those that `mustEscape` replaced. -/
def stuff (mustEscape : α → Bool) (data : List α) : List α :=
  data.flatMap fun b ↦ if mustEscape b then [c.esc, c.trans b] else [b]

lemma stuff_cons (mustEscape : α → Bool) (b : α) (data : List α) :
    c.stuff mustEscape (b :: data) =
      (if mustEscape b then [c.esc, c.trans b] else [b]) ++ c.stuff mustEscape data :=
  flatMap_cons

lemma length_stuff_le (mustEscape : α → Bool) (data : List α) :
    (c.stuff mustEscape data).length ≤ data.length * 2 := by
  induction data with
  | nil => exact le_rfl
  | cons b data ih =>
    have hone : (if mustEscape b then [c.esc, c.trans b] else [b]).length ≤ 2 := by
      split <;> simp
    rw [stuff_cons, length_append, length_cons]
    omega

/-- Flags, the octets of a frame, and the flag that ends it. -/
def frame (mustEscape : α → Bool) (flags : ℕ) (data : List α) : List α :=
  List.replicate flags c.flag ++ (c.stuff mustEscape data ++ [c.flag])

/-- Each octet with a meaning of its own is replaced, by one that has none. -/
structure Escapes (mustEscape : α → Bool) : Prop where
  special : ∀ b, c.Special b → mustEscape b = true
  trans : ∀ b, mustEscape b = true → ¬ c.Special (c.trans b)

variable {c} in
lemma Escapes.flag_notMem {mustEscape : α → Bool} (h : c.Escapes mustEscape) (data : List α) :
    c.flag ∉ c.stuff mustEscape data := by
  rw [stuff, mem_flatMap]
  rintro ⟨b, -, hmem⟩
  split at hmem
  · next hb =>
    rcases mem_pair.mp hmem with hf | hf
    · exact c.esc_ne_flag hf.symm
    · exact h.trans b hb (.inl hf.symm)
  · next hb => exact hb (h.special b (.inl (mem_singleton.mp hmem).symm))

variable [DecidableEq α]

instance (b : α) : Decidable (c.Special b) := inferInstanceAs (Decidable (_ ∨ _))

/-- What the receiver has of the current frame, and the frames before it. -/
structure Receiver (α : Type*) where
  acc : List α := []
  escaped : Bool := false
  frames : List (List α) := []

/-- The receiver takes an octet. A flag behind an escape aborts the frame. -/
def receive (r : Receiver α) (b : α) : Receiver α :=
  if b = c.flag then { frames := if r.escaped then r.frames else r.frames ++ [r.acc] }
  else if b = c.esc ∧ r.escaped = false then { r with escaped := true }
  else { r with acc := r.acc ++ [if r.escaped then c.trans b else b], escaped := false }

variable {c} {mustEscape : α → Bool} {r : Receiver α} {b : α} {data : List α}

lemma receive_flag (h : r.escaped = false) :
    c.receive r c.flag = { frames := r.frames ++ [r.acc] } := by
  rw [receive, if_pos rfl, if_neg (by rw [h]; exact Bool.false_ne_true)]

lemma receive_esc (h : r.escaped = false) : c.receive r c.esc = { r with escaped := true } := by
  rw [receive, if_neg c.esc_ne_flag, if_pos ⟨rfl, h⟩]

/-- **An octet without a meaning of its own** is added to the frame. -/
theorem receive_ordinary (h : ¬ c.Special b) :
    c.receive r b =
      { r with acc := r.acc ++ [if r.escaped then c.trans b else b], escaped := false } := by
  rw [receive, if_neg (fun hf ↦ h (.inl hf)), if_neg (fun hf ↦ h (.inr hf.1))]

/-- A run of such octets, of which only the first can be an escaped one. -/
lemma run_receive_ordinary {w : List α} (h : ∀ b ∈ w, ¬ c.Special b) (hr : r.escaped = false) :
    run c.receive r w = { r with acc := r.acc ++ w } := by
  induction w generalizing r with
  | nil => rw [run_nil, append_nil]
  | cons b w ih =>
    rw [run_cons, receive_ordinary (h b mem_cons_self), hr,
      ih (fun b' hb' ↦ h b' (mem_cons_of_mem b hb')) rfl, append_assoc]
    rfl

/-- The length of the current frame does not exceed `cap`, and no escape is escaped. -/
def Calm (c : Stuffing α) (cap : ℕ) (r : Receiver α) (b : α) : Prop :=
  r.acc.length ≤ cap ∧ (r.escaped = true → b ≠ c.esc)

lemma run_receive_flags (flags : ℕ) (fs : List (List α)) :
    run c.receive { frames := fs } (List.replicate flags c.flag) =
      { frames := fs ++ List.replicate flags [] } := by
  induction flags generalizing fs with
  | zero => rw [replicate_zero, replicate_zero, run_nil, append_nil]
  | succ flags ih =>
    rw [replicate_succ, run_cons, receive_flag rfl, ih, append_assoc]
    rfl

lemma along_flags (flags : ℕ) (fs : List (List α)) (cap : ℕ) :
    Along c.receive (c.Calm cap) { frames := fs } (List.replicate flags c.flag) := by
  induction flags generalizing fs with
  | zero => trivial
  | succ flags ih =>
    rw [replicate_succ, along_cons, receive_flag rfl]
    exact ⟨⟨Nat.zero_le cap, nofun⟩, ih _⟩

variable (h : c.Escapes mustEscape)

include h

/-- **What was stuffed comes back.** -/
theorem run_receive_stuff (hr : r.escaped = false) (data : List α) :
    run c.receive r (c.stuff mustEscape data) = { r with acc := r.acc ++ data } := by
  induction data generalizing r with
  | nil => rw [stuff, flatMap_nil, run_nil, append_nil]
  | cons b data ih =>
    have hone : run c.receive r (if mustEscape b then [c.esc, c.trans b] else [b]) =
        { r with acc := r.acc ++ [b] } := by
      split
      · next hb =>
        rw [run_cons, run_cons, run_nil, receive_esc hr, receive_ordinary (h.trans b hb)]
        rw [if_pos rfl, c.trans_trans, hr]
      · next hb =>
        rw [run_cons, run_nil, receive_ordinary fun hf ↦ hb (h.special b hf), hr,
          if_neg Bool.false_ne_true]
    rw [stuff_cons, run_append, hone, ih (r := { r with acc := r.acc ++ [b] }) hr, append_assoc]
    rfl

/-- On the way through what was stuffed, the frame is never longer than at the end. -/
lemma along_stuff (hr : r.escaped = false) {cap : ℕ} (hcap : r.acc.length + data.length ≤ cap) :
    Along c.receive (c.Calm cap) r (c.stuff mustEscape data) := by
  induction data generalizing r with
  | nil => trivial
  | cons b data ih =>
    rw [length_cons] at hcap
    have hlen : r.acc.length ≤ cap := by omega
    have hcalm : c.Calm cap r b := ⟨hlen, hr ▸ nofun⟩
    rw [stuff_cons, along_append]
    refine ⟨?_, ?_⟩
    · split
      · next hb =>
        rw [along_cons, receive_esc hr]
        refine ⟨⟨hlen, hr ▸ nofun⟩, ⟨hlen, fun _ hf ↦ ?_⟩, trivial⟩
        exact h.trans b hb (.inr hf)
      · exact ⟨hcalm, trivial⟩
    · have hone := run_receive_stuff h hr [b]
      rw [stuff_cons, stuff, flatMap_nil, append_nil] at hone
      rw [hone]
      refine ih hr ?_
      rw [length_append, length_singleton]
      omega

/-- **A frame comes back**, with an empty one for each flag before it. -/
theorem run_receive_frame (flags : ℕ) (data : List α) (fs : List (List α)) :
    run c.receive { frames := fs } (c.frame mustEscape flags data) =
      { frames := fs ++ (List.replicate flags [] ++ [data]) } := by
  rw [frame, run_append, run_receive_flags, run_append, run_receive_stuff h rfl, run_cons, run_nil,
    receive_flag rfl, nil_append, append_assoc]

lemma along_frame (flags : ℕ) {cap : ℕ} (hcap : data.length ≤ cap) (fs : List (List α)) :
    Along c.receive (c.Calm cap) { frames := fs } (c.frame mustEscape flags data) := by
  rw [frame, along_append, along_append, run_receive_flags, run_receive_stuff h rfl]
  refine ⟨along_flags flags fs cap, along_stuff h rfl ?_, ⟨hcap, nofun⟩, trivial⟩
  rw [length_nil, Nat.zero_add]
  exact hcap

end Stuffing
