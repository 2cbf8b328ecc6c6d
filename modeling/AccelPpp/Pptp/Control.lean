import AccelPpp.Lib.BigEndian
import AccelPpp.Lib.Run

/-!
# The control connection of PPTP (`ctrl/pptp/pptp.c`)

`pptp_read` collects bytes until a control message is complete, checks its header and processes it.
It does so once for each `read`: if a read brings the end of one message and all of the next, the
next one stays in the buffer until something more is read. A client whose reads bring one message
at a time has its messages processed as they lie in the stream (`always_processed`).

`post_msg` writes a message and keeps what could not be written for `pptp_write`. Nothing is lost or
repeated in this (`Posted`), but `pptp_write` repeats a write that would block, so it stays in its
loop until the client has taken everything or the connection fails (`returns_iff`).
-/

namespace AccelPpp.Pptp

open BigEndian List Transition

/-! ### Reading -/

/-- `PPTP_CTRL_SIZE`, by the type of a control message. -/
def ctrlSize : ℕ → ℕ
  | 1 | 2 => 156
  | 3 | 4 | 5 | 12 => 16
  | 6 => 20
  | 7 => 168
  | 8 => 32
  | 9 => 220
  | 10 | 15 => 24
  | 11 => 28
  | 13 => 148
  | 14 => 40
  | _ => 0

/-- `PPTP_CTRL_SIZE_MAX` -/
def ctrlSizeMax : ℕ := 220

/-- A field of the header. -/
def field (off n : ℕ) (buf : List UInt8) : ℕ :=
  ofBytes ((buf.drop off).take n)

/-- What stands at the beginning of the buffer: the beginning of a message, something that is none,
or a message and what follows it. -/
inductive Front
  | wait
  | bad
  | msg (m rest : List UInt8)
deriving DecidableEq

/-- The checks of `pptp_read`. -/
def front (buf : List UInt8) : Front :=
  let length := field 0 2 buf
  if buf.length < 12 then .wait
  else if field 4 4 buf ≠ 0x1A2B3C4D ∨ length < 12 ∨ ctrlSizeMax ≤ length then .bad
  else if buf.length < length then .wait
  else if length ≠ ctrlSize (field 8 2 buf) then .bad
  else .msg (buf.take length) (buf.drop length)

/-- The receiving half of `struct pptp_conn_t`, with all that was received. -/
structure In where
  inBuf : List UInt8 := []
  processed : List (List UInt8) := []
  disconnected : Bool := false
  received : List UInt8 := []

/-- What `read` returns; `closed` is the end of the stream or an error. -/
inductive Read
  | data (bytes : List UInt8)
  | eintr
  | eagain
  | closed

/-- `process_packet` accepts the last one of the messages. -/
abbrev Process := List (List UInt8) → Bool

section

variable (process : Process)

/-- What `pptp_read` does with a result of `read`. -/
def pptpRead (c : In) (r : Read) : In :=
  if c.disconnected then c
  else match r with
    | .eintr | .eagain => c
    | .closed => { c with disconnected := true }
    | .data bytes =>
      let c := { c with inBuf := c.inBuf ++ bytes, received := c.received ++ bytes }
      match front c.inBuf with
      | .wait => c
      | .bad => { c with disconnected := true }
      | .msg m rest =>
        let c := { c with processed := c.processed ++ [m] }
        if process c.processed then { c with inBuf := rest } else { c with disconnected := true }

end

variable {process : Process} {buf m rest : List UInt8}

lemma front_eq_msg (h : front buf = .msg m rest) :
    12 ≤ field 0 2 buf ∧ field 0 2 buf ≤ buf.length ∧ m = buf.take (field 0 2 buf) ∧
      rest = buf.drop (field 0 2 buf) := by
  unfold front at h
  dsimp only at h
  split_ifs at h with hshort hbad hwait hsize
  obtain ⟨rfl, rfl⟩ := Front.msg.inj h
  rw [not_or, not_or] at hbad
  exact ⟨not_lt.mp hbad.2.1, not_lt.mp hwait, rfl, rfl⟩

lemma field_append {off n : ℕ} (h : off + n ≤ buf.length) (x : List UInt8) :
    field off n (buf ++ x) = field off n buf := by
  rw [field, field, drop_append_of_le_length (by omega), take_append_of_le_length]
  rw [length_drop]
  omega

/-- What comes behind a message does not change it. -/
lemma front_append (h : front buf = .msg m rest) (x : List UInt8) :
    front (buf ++ x) = .msg m (rest ++ x) := by
  obtain ⟨hlow, hlen, rfl, rfl⟩ := front_eq_msg h
  unfold front at h ⊢
  dsimp only at h ⊢
  rw [field_append (by omega), field_append (by omega), field_append (by omega)]
  split_ifs at h with hshort hbad hwait hsize
  rw [if_neg, if_neg hbad, if_neg, if_neg hsize, take_append_of_le_length hlen,
    drop_append_of_le_length hlen]
  all_goals
    rw [length_append]
    omega

/-- **The messages of a stream**, in order, with those already processed before them. -/
def messages (process : Process) (done : List (List UInt8)) (stream : List UInt8) :
    List (List UInt8) :=
  match h : front stream with
  | .msg m rest =>
    if process (done ++ [m]) then
      have : rest.length < stream.length := by
        obtain ⟨hlow, hlen, -, hrest⟩ := front_eq_msg h
        rw [hrest, length_drop]
        omega
      messages process (done ++ [m]) rest
    else done ++ [m]
  | _ => done
termination_by stream.length

/-- The read does not bring the end of a message and all of another one. -/
def OneMessage (process : Process) (c : In) : Read → Prop
  | .data bytes => ∀ m rest, front (c.inBuf ++ bytes) = .msg m rest →
    process (c.processed ++ [m]) = true → ∀ m' rest', front rest ≠ .msg m' rest'
  | _ => True

variable {done : List (List UInt8)} {c : In} {r : Read}

lemma messages_of_msg (h : front buf = .msg m rest) :
    messages process done buf =
      if process (done ++ [m]) then messages process (done ++ [m]) rest else done ++ [m] := by
  rw [messages]
  split
  · next heq =>
    obtain ⟨rfl, rfl⟩ := Front.msg.inj (heq.symm.trans h)
    rfl
  · next hno => exact absurd h (hno m rest)

lemma messages_of_no_msg (h : ∀ m rest, front buf ≠ .msg m rest) :
    messages process done buf = done := by
  rw [messages]
  split
  · next heq => exact absurd heq (h _ _)
  · rfl

/-- The messages processed are those of what was received, and what is received next continues what
is in the buffer. -/
structure Framed (process : Process) (c : In) : Prop where
  processed : c.processed = messages process [] c.received
  next : c.disconnected = false → ∀ x,
    messages process [] (c.received ++ x) = messages process c.processed (c.inBuf ++ x)

lemma framed_pptpRead (c : In) (r : Read) (h : Framed process c) (hone : OneMessage process c r) :
    Framed process (pptpRead process c r) := by
  unfold pptpRead
  split_ifs with hc
  · exact h
  cases r with
  | eintr | eagain => exact h
  | closed => exact ⟨h.processed, nofun⟩
  | data bytes =>
    have hnext := h.next (eq_false_of_ne_true hc)
    have hnow := hnext bytes
    dsimp only
    split
    · next hwait =>
      refine ⟨?_, fun _ x ↦ by simpa using hnext (bytes ++ x)⟩
      rw [hnow, messages_of_no_msg (by rw [hwait]; nofun)]
    · next hbad =>
      refine ⟨?_, nofun⟩
      rw [hnow, messages_of_no_msg (by rw [hbad]; nofun)]
    · next m rest hmsg =>
      split_ifs with hp
      · refine ⟨?_, fun _ x ↦ ?_⟩
        · rw [hnow, messages_of_msg hmsg, if_pos hp, messages_of_no_msg (hone m rest hmsg hp)]
        · rw [append_assoc, hnext, ← append_assoc, messages_of_msg (front_append hmsg x), if_pos hp]
      · refine ⟨?_, nofun⟩
        rw [hnow, messages_of_msg hmsg, if_neg hp]

/-- **Messages are processed as they lie in the stream**, whatever the reads are, if no read brings
the end of a message and all of the next. -/
theorem always_processed (process : Process) (rs : List Read)
    (h : Along (pptpRead process) (OneMessage process) {} rs) :
    Always (pptpRead process) (fun c ↦ c.processed = messages process [] c.received) {} rs := by
  have hnil : messages process [] [] = [] := messages_of_no_msg nofun
  have hinit : Framed process {} := ⟨hnil.symm, fun _ _ ↦ rfl⟩
  exact fun pre hp ↦ (h.always framed_pptpRead hinit pre hp).processed

/-- An Echo-Request. -/
def echoRqst : List UInt8 :=
  [0, 16, 0, 1, 0x1A, 0x2B, 0x3C, 0x4D, 0, 5, 0, 0, 0, 0, 0, 1]

theorem always_processed_echo :
    Always (pptpRead fun _ ↦ true) (fun c ↦ c.processed = messages (fun _ ↦ true) [] c.received) {}
      [.data (echoRqst.take 3), .eagain, .data (echoRqst.drop 3), .eagain] := by
  refine always_processed _ _ ⟨?_, trivial, ?_, trivial, trivial⟩ <;> intro m rest hmsg
  · nomatch hmsg
  · obtain ⟨-, rfl⟩ := Front.msg.inj ((show .msg echoRqst [] = _ by decide).trans hmsg)
    exact nofun

/-- Two messages in one read: the second one is complete, and waits in the buffer. -/
theorem second_message_waits :
    let c := run (pptpRead fun _ ↦ true) {} [.data (echoRqst ++ echoRqst), .eagain]
    let c' := run (pptpRead fun _ ↦ true) {} [.data echoRqst, .data echoRqst, .eagain]
    c.received = c'.received ∧ c.processed = [echoRqst] ∧ front c.inBuf = .msg echoRqst [] ∧
      c'.processed = [echoRqst, echoRqst] := by
  decide

/-! ### Writing -/

/-- What `write` returns. -/
inductive Written
  | moved (n : ℕ)
  | eintr
  | eagain
  | failed

/-- In no function, in the loop of `post_msg` or in that of `pptp_write`, or disconnected. -/
inductive Phase
  | idle
  | posting (msg : List UInt8)
  | writing
  | disconnected
deriving DecidableEq

/-- The sending half of `struct pptp_conn_t`: `out_buf` from `out_pos` to `out_size`, and what was
sent of the last message posted and of those before it. -/
structure Out where
  outBuf : List UInt8 := []
  writeEnabled : Bool := false
  phase : Phase := .idle
  before : List UInt8 := []
  last : List UInt8 := []
  sent : List UInt8 := []

namespace Out

/-- The end of `post_msg`: `n` bytes were written. -/
def post (o : Out) (msg : List UInt8) (n : ℕ) : Out :=
  let o := { o with
    sent := o.sent ++ msg.take n, before := o.before ++ o.last, last := msg, phase := .idle }
  if n < msg.length then { o with outBuf := msg.drop n, writeEnabled := true } else o

/-- The end of a turn of `pptp_write`: `n` bytes were written. -/
def advance (o : Out) (n : ℕ) : Out :=
  let o := { o with sent := o.sent ++ o.outBuf.take n, outBuf := o.outBuf.drop n }
  if o.outBuf = [] then { o with writeEnabled := false, phase := .idle } else o

/-- The result of a `write`, in the function that called it. -/
def wrote (o : Out) (r : Written) : Out :=
  match o.phase, r with
  | .posting msg, .moved n => o.post msg n
  | .posting msg, .eagain => o.post msg 0
  | .posting _, .failed => { o with phase := .idle }
  | .writing, .moved n => o.advance n
  | .writing, .eagain => o.advance 0
  | .writing, .failed => { o with phase := .disconnected }
  | _, _ => o

end Out

/-- A message is posted, the client can be written to, or a `write` returns. -/
inductive Event
  | post (msg : List UInt8)
  | writable
  | wrote (r : Written)

def Out.step (o : Out) : Event → Out
  | .post msg =>
    if o.phase = .idle ∧ o.outBuf = [] then { o with phase := .posting msg } else o
  | .writable => if o.phase = .idle ∧ o.writeEnabled then { o with phase := .writing } else o
  | .wrote r => o.wrote r

/-- **What is sent of a message is always its beginning**, all of it once another one is posted, and
`pptp_write` is called for the rest. -/
structure Posted (o : Out) : Prop where
  sent : ∃ w, o.sent = o.before ++ w ∧ w ++ o.outBuf = o.last
  enabled : o.writeEnabled = true ↔ o.outBuf ≠ []

/-- The function that `o` is in is left at some time, if `write` returns `results`. -/
def Returns (o : Out) (results : ℕ → Written) : Prop :=
  ∃ n, (run Out.wrote o ((range n).map results)).phase ≠ o.phase

/-- The bytes that a `write` takes. -/
def Written.bytes : Written → ℕ
  | .moved n => n
  | _ => 0

/-- `post_msg` is not interrupted for ever; under `pptp_write` the connection fails, or the client
takes everything that is left. -/
def Finishes (o : Out) (results : ℕ → Written) : Prop :=
  match o.phase with
  | .posting _ => ∃ n, results n ≠ .eintr
  | .writing => ∃ n, .failed ∈ (range n).map results ∨
    o.outBuf.length ≤ (((range n).map results).map Written.bytes).sum
  | _ => False

structure Out.Inv (o : Out) : Prop extends Posted o where
  posting : ∀ msg, o.phase = .posting msg → o.outBuf = []
  writing : o.phase = .writing → o.outBuf ≠ []

variable {o : Out} {n : ℕ} {msg : List UInt8}

lemma inv_post (h : o.Inv) (hphase : o.phase = .posting msg) : (o.post msg n).Inv := by
  obtain ⟨⟨⟨w, hsent, hw⟩, henabled⟩, hposting, -⟩ := h
  have hbuf := hposting msg hphase
  rw [hbuf, append_nil] at hw
  unfold Out.post
  split_ifs with hlt
  · exact ⟨⟨⟨msg.take n, by rw [hsent, hw], take_append_drop n msg⟩,
      iff_of_true rfl (by simpa using hlt)⟩, nofun, nofun⟩
  · rw [take_of_length_le (not_lt.mp hlt)]
    exact ⟨⟨⟨msg, by rw [hsent, hw], by rw [hbuf, append_nil]⟩, henabled⟩, nofun, nofun⟩

lemma inv_advance (h : o.Inv) (hphase : o.phase = .writing) : (o.advance n).Inv := by
  obtain ⟨⟨⟨w, hsent, hw⟩, henabled⟩, -, hwriting⟩ := h
  have hsent' : o.sent ++ o.outBuf.take n = o.before ++ (w ++ o.outBuf.take n) := by
    rw [hsent, append_assoc]
  have hw' : w ++ o.outBuf.take n ++ o.outBuf.drop n = o.last := by
    rw [append_assoc, take_append_drop, hw]
  unfold Out.advance
  dsimp only
  split_ifs with hnil
  · exact ⟨⟨⟨_, hsent', hw'⟩, iff_of_false nofun (not_not_intro hnil)⟩, nofun, nofun⟩
  · exact ⟨⟨⟨_, hsent', hw'⟩, iff_of_true (henabled.mpr (hwriting hphase)) hnil⟩,
      hphase ▸ nofun, fun _ ↦ hnil⟩

lemma inv_step (h : o.Inv) (e : Event) : (o.step e).Inv := by
  cases e <;> rw [Out.step]
  case post msg =>
    split_ifs with hidle
    · exact ⟨⟨h.sent, h.enabled⟩, fun _ _ ↦ hidle.2, nofun⟩
    · exact h
  case writable =>
    split_ifs with hidle
    · exact ⟨⟨h.sent, h.enabled⟩, nofun, fun _ ↦ h.enabled.mp hidle.2⟩
    · exact h
  case wrote r =>
    unfold Out.wrote
    split
    · exact inv_post h ‹_›
    · exact inv_post h ‹_›
    · exact ⟨⟨h.sent, h.enabled⟩, nofun, nofun⟩
    · exact inv_advance h ‹_›
    · exact inv_advance h ‹_›
    · exact ⟨⟨h.sent, h.enabled⟩, nofun, nofun⟩
    · exact h

/-- A function that has returned stays so. -/
lemma run_wrote_of_returned {rs : List Written} (h : o.phase = .idle ∨ o.phase = .disconnected) :
    run Out.wrote o rs = o := by
  induction rs with
  | nil => rfl
  | cons r rs ih =>
    have hsame : o.wrote r = o := by
      rcases h with h | h <;> simp only [Out.wrote, h]
    rw [run_cons, hsame, ih]

/-- `pptp_write` goes on until the connection fails or nothing is left. -/
lemma writing_run {rs : List Written} (hphase : o.phase = .writing) (hne : o.outBuf ≠ []) :
    (run Out.wrote o rs).phase = .writing ↔
      .failed ∉ rs ∧ (rs.map Written.bytes).sum < o.outBuf.length := by
  induction rs generalizing o with
  | nil => simpa [hphase] using length_pos_iff.mpr hne
  | cons r rs ih =>
    rw [run_cons, map_cons, sum_cons, mem_cons, not_or]
    by_cases hfailed : r = .failed
    · have hdone : o.wrote r = { o with phase := .disconnected } := by
        simp only [hfailed, Out.wrote, hphase]
      rw [hdone, run_wrote_of_returned (.inr rfl)]
      exact iff_of_false nofun fun hf ↦ hf.1.1 hfailed.symm
    have hwrote : o.wrote r = o.advance r.bytes := by
      cases r with
      | moved n | eagain => simp only [Out.wrote, hphase, Written.bytes]
      | eintr =>
        have hzero : o.advance 0 = o := by simp [Out.advance, hne]
        simp only [Written.bytes, hzero, Out.wrote, hphase]
      | failed => exact absurd rfl hfailed
    rw [hwrote, Out.advance]
    split_ifs with hnil
    · rw [run_wrote_of_returned (.inl rfl)]
      refine iff_of_false nofun fun hf ↦ ?_
      have hle : o.outBuf.length ≤ r.bytes := by simpa using hnil
      omega
    · have hleft := @ih { o with
        sent := o.sent ++ o.outBuf.take r.bytes, outBuf := o.outBuf.drop r.bytes } hphase hnil
      rw [hleft, length_drop]
      have hr : .failed ≠ r := Ne.symm hfailed
      simp only [hr, not_false_iff, true_and]
      exact and_congr_right fun _ ↦ by omega

lemma posting_run {rs : List Written} (hphase : o.phase = .posting msg) :
    (run Out.wrote o rs).phase = .posting msg ↔ ∀ r ∈ rs, r = .eintr := by
  induction rs with
  | nil => simp [hphase]
  | cons r rs ih =>
    rw [run_cons, forall_mem_cons]
    by_cases hr : r = .eintr
    · have hsame : o.wrote r = o := by simp only [hr, Out.wrote, hphase]
      rw [hsame, ih, and_iff_right hr]
    have hidle : (o.wrote r).phase = .idle := by
      unfold Out.wrote Out.post
      rw [hphase]
      cases r with
      | eintr => exact absurd rfl hr
      | failed => rfl
      | moved n | eagain => dsimp only; split_ifs <;> rfl
    rw [run_wrote_of_returned (.inl hidle), hidle]
    exact iff_of_false nofun fun hf ↦ hr hf.1

lemma inv_run (es : List Event) : (run Out.step {} es).Inv :=
  foldlRecOn es Out.step ⟨⟨⟨[], rfl, rfl⟩, iff_of_false nofun fun hf ↦ hf rfl⟩, nofun, nofun⟩
    fun _ h e _ ↦ inv_step h e

/-- **What is posted is sent in order, and the functions return if and only if** they are not
interrupted for ever and the client takes everything or the connection fails. -/
theorem returns_iff (es : List Event) (results : ℕ → Written) :
    Posted (run Out.step {} es) ∧
      (Returns (run Out.step {} es) results ↔ Finishes (run Out.step {} es) results) := by
  have hinv := inv_run es
  refine ⟨hinv.toPosted, ?_⟩
  generalize run Out.step {} es = o at hinv
  unfold Returns Finishes
  rcases hphase : o.phase with _ | msg | _ | _
  · simp [run_wrote_of_returned (.inl hphase), hphase]
  · simp only [Ne, posting_run hphase, forall_mem_map, mem_range, not_forall, exists_prop]
    exact ⟨fun ⟨_, k, _, hk⟩ ↦ ⟨k, hk⟩, fun ⟨k, hk⟩ ↦ ⟨k + 1, k, k.lt_succ_self, hk⟩⟩
  · simp only [Ne, writing_run hphase (hinv.writing hphase), not_and_or, not_not, not_lt]
  · simp [run_wrote_of_returned (.inr hphase), hphase]

/-- A client that stops reading: `pptp_write` never returns. -/
theorem pptp_write_spins :
    let o := run Out.step {} [.post [1, 2], .wrote (.moved 1), .writable]
    o.outBuf = [2] ∧ ¬ Returns o fun _ ↦ .eagain := by
  refine ⟨rfl, fun ⟨n, hn⟩ ↦ hn ((writing_run rfl (by decide)).mpr ⟨by simp, ?_⟩)⟩
  rw [show (((range n).map _).map Written.bytes).sum = 0 by simp [Written.bytes]]
  decide

end AccelPpp.Pptp
