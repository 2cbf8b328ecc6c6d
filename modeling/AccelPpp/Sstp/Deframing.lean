import AccelPpp.Lib.ByteStuffing

/-!
# PPP frames from the pty

`ppp_read_pty` of `sstp.c` reads what pppd's end of a pty sends as asynchronous frames (RFC 1662),
and passes the payloads on as SSTP data packets. It goes from one byte with a meaning of its own to
the next: it copies the run before such a byte at once, and then looks at the byte behind the run.
Where a read ends within a run, that byte is not one of those just read.

`pppbuf` is a local variable: behind the bytes of a read it has what an earlier read of the same
call has left there, or whatever the stack holds. A byte is always read from it, so the array's own
end is not modelled. The connection is in one of its two connected states.
-/

open List Nat

namespace AccelPpp.Sstp

open Transition

/-- `PPP_FLAG` -/
def pppFlag : UInt8 := 0x7e

/-- `PPP_ESCAPE` -/
def pppEscape : UInt8 := 0x7d

/-- `PPP_TRANS` -/
def pppTrans : UInt8 := 0x20

/-- `PPP_FCSLEN` -/
def pppFcslen : ℕ := 2

/-- `SSTP_MAX_PACKET_SIZE` -/
def sstpMaxPacketSize : ℕ := 4095

/-- `sizeof(struct sstp_hdr)` -/
def sizeofSstpHdr : ℕ := 4

/-- The room in a buffer for the bytes of a frame, behind what is reserved for the header. -/
def capacity : ℕ := sstpMaxPacketSize + pppFcslen - sizeofSstpHdr

/-! ### The sender -/

/-- The FCS lookup table. -/
def fcstab : Array UInt16 :=
  #[0x0000, 0x1189, 0x2312, 0x329b, 0x4624, 0x57ad, 0x6536, 0x74bf,
    0x8c48, 0x9dc1, 0xaf5a, 0xbed3, 0xca6c, 0xdbe5, 0xe97e, 0xf8f7,
    0x1081, 0x0108, 0x3393, 0x221a, 0x56a5, 0x472c, 0x75b7, 0x643e,
    0x9cc9, 0x8d40, 0xbfdb, 0xae52, 0xdaed, 0xcb64, 0xf9ff, 0xe876,
    0x2102, 0x308b, 0x0210, 0x1399, 0x6726, 0x76af, 0x4434, 0x55bd,
    0xad4a, 0xbcc3, 0x8e58, 0x9fd1, 0xeb6e, 0xfae7, 0xc87c, 0xd9f5,
    0x3183, 0x200a, 0x1291, 0x0318, 0x77a7, 0x662e, 0x54b5, 0x453c,
    0xbdcb, 0xac42, 0x9ed9, 0x8f50, 0xfbef, 0xea66, 0xd8fd, 0xc974,
    0x4204, 0x538d, 0x6116, 0x709f, 0x0420, 0x15a9, 0x2732, 0x36bb,
    0xce4c, 0xdfc5, 0xed5e, 0xfcd7, 0x8868, 0x99e1, 0xab7a, 0xbaf3,
    0x5285, 0x430c, 0x7197, 0x601e, 0x14a1, 0x0528, 0x37b3, 0x263a,
    0xdecd, 0xcf44, 0xfddf, 0xec56, 0x98e9, 0x8960, 0xbbfb, 0xaa72,
    0x6306, 0x728f, 0x4014, 0x519d, 0x2522, 0x34ab, 0x0630, 0x17b9,
    0xef4e, 0xfec7, 0xcc5c, 0xddd5, 0xa96a, 0xb8e3, 0x8a78, 0x9bf1,
    0x7387, 0x620e, 0x5095, 0x411c, 0x35a3, 0x242a, 0x16b1, 0x0738,
    0xffcf, 0xee46, 0xdcdd, 0xcd54, 0xb9eb, 0xa862, 0x9af9, 0x8b70,
    0x8408, 0x9581, 0xa71a, 0xb693, 0xc22c, 0xd3a5, 0xe13e, 0xf0b7,
    0x0840, 0x19c9, 0x2b52, 0x3adb, 0x4e64, 0x5fed, 0x6d76, 0x7cff,
    0x9489, 0x8500, 0xb79b, 0xa612, 0xd2ad, 0xc324, 0xf1bf, 0xe036,
    0x18c1, 0x0948, 0x3bd3, 0x2a5a, 0x5ee5, 0x4f6c, 0x7df7, 0x6c7e,
    0xa50a, 0xb483, 0x8618, 0x9791, 0xe32e, 0xf2a7, 0xc03c, 0xd1b5,
    0x2942, 0x38cb, 0x0a50, 0x1bd9, 0x6f66, 0x7eef, 0x4c74, 0x5dfd,
    0xb58b, 0xa402, 0x9699, 0x8710, 0xf3af, 0xe226, 0xd0bd, 0xc134,
    0x39c3, 0x284a, 0x1ad1, 0x0b58, 0x7fe7, 0x6e6e, 0x5cf5, 0x4d7c,
    0xc60c, 0xd785, 0xe51e, 0xf497, 0x8028, 0x91a1, 0xa33a, 0xb2b3,
    0x4a44, 0x5bcd, 0x6956, 0x78df, 0x0c60, 0x1de9, 0x2f72, 0x3efb,
    0xd68d, 0xc704, 0xf59f, 0xe416, 0x90a9, 0x8120, 0xb3bb, 0xa232,
    0x5ac5, 0x4b4c, 0x79d7, 0x685e, 0x1ce1, 0x0d68, 0x3ff3, 0x2e7a,
    0xe70e, 0xf687, 0xc41c, 0xd595, 0xa12a, 0xb0a3, 0x8238, 0x93b1,
    0x6b46, 0x7acf, 0x4854, 0x59dd, 0x2d62, 0x3ceb, 0x0e70, 0x1ff9,
    0xf78f, 0xe606, 0xd49d, 0xc514, 0xb1ab, 0xa022, 0x92b9, 0x8330,
    0x7bc7, 0x6a4e, 0x58d5, 0x495c, 0x3de3, 0x2c6a, 0x1ef1, 0x0f78]

/-- One bit of the FCS, by the polynomial of RFC 1662. -/
def fcsBit (fcs : ℕ) : ℕ :=
  if fcs % 2 = 1 then fcs / 2 ^^^ 0x8408 else fcs / 2

/-- **The table is that of RFC 1662**: each entry is what the eight bits of its index give. -/
theorem fcstab_eq : fcstab.toList.map UInt16.toNat = (List.range 256).map fcsBit^[8] := by
  decide +kernel

/-- The FCS of a payload, as `sstp_recv_data_packet` computes it. -/
def fcsOf (payload : List UInt8) : UInt16 :=
  payload.foldl
    (fun (fcs : UInt16) byte ↦ (fcs >>> 8) ^^^ fcstab.getD ((fcs ^^^ byte.toUInt16) &&& 0xff).toNat
      0)
    0xffff ^^^ 0xffff

/-- `sstp_recv_data_packet`: what is written to the pty for a payload that is not empty. -/
def sstpRecvDataPacket (payload : List UInt8) : List UInt8 :=
  let fcs := fcsOf payload
  pppFlag :: ((payload ++ [fcs.toUInt8, (fcs >>> 8).toUInt8]).flatMap fun byte ↦
    if byte < 0x20 ∨ byte = pppFlag ∨ byte = pppEscape then [pppEscape, byte ^^^ pppTrans]
    else [byte]) ++ [pppFlag]

/-! ### The receiver -/

/-- The part of a connection that `ppp_read_pty` uses. -/
structure Pty where
  /-- `PPP_F_ESCAPE` in `ppp_flags` -/
  escape : Bool := false
  /-- `PPP_F_TOSS` in `ppp_flags` -/
  toss : Bool := false
  /-- The bytes of `ppp_in`, behind what is reserved for the header. -/
  buf : List UInt8 := []
  /-- The payloads of the data packets that have been queued for the client. -/
  queue : List (List UInt8) := []
  pppbuf : ℕ → UInt8 := fun _ ↦ 0
  /-- A byte behind those just read has been examined. -/
  outside : Bool := false

namespace Pty

/-- `buf_tailroom` -/
def bufTailroom (s : Pty) : ℕ := capacity - s.buf.length

/-- The bytes up to the next one with a meaning of its own, and what is behind them. -/
def splitRun (s : Pty) : List UInt8 → List UInt8 × List UInt8
  | [] => ([], [])
  | b :: src =>
    if s.escape ∧ b = pppEscape then ([b], src)
    else (b :: src).span fun b ↦ b ≠ pppEscape ∧ b ≠ pppFlag

/-- The first byte of a run is an escaped one. -/
def unescape : List UInt8 → List UInt8
  | [] => []
  | b :: w => (b ^^^ pppTrans) :: w

/-- The run is copied, if it fits. -/
def putRun (s : Pty) (w : List UInt8) : Pty :=
  if 0 < w.length ∧ s.toss = false then
    if w.length ≤ s.bufTailroom then
      { s with buf := s.buf ++ (if s.escape then unescape w else w), escape := false }
    else { s with toss := true }
  else s

/-- The byte behind a run. -/
def handle (s : Pty) (byte : UInt8) : Pty :=
  if byte = pppFlag then
    if s.buf.length ≤ pppFcslen ∨ s.escape ∨ s.toss then
      -- An idle flag, or a malformed packet.
      if s.buf.length = 0 ∧ s.escape = false ∧ s.toss = false then s
      else { s with buf := [], escape := false, toss := false }
    else { s with queue := s.queue ++ [s.buf.take (s.buf.length - pppFcslen)], buf := [] }
  else if byte = pppEscape then { s with escape := true }
  else s

/-- The loop over the bytes of a read, of which at most `n` are left. -/
def drain (after : UInt8) : ℕ → Pty → List UInt8 → Pty
  | _, s, [] => s
  | 0, s, _ => s
  | n + 1, s, src =>
    let s' := s.putRun (s.splitRun src).1
    match (s.splitRun src).2 with
    | byte :: src => drain after n (s'.handle byte) src
    | [] => { s'.handle after with outside := true }

end Pty

/-- What happens to the connection. -/
inductive PtyEvent
  /-- `ppp_read_pty` is called, with this on the stack. -/
  | enter (pppbuf : ℕ → UInt8)
  /-- `read` returns at least one byte. -/
  | read (first : UInt8) (rest : List UInt8)

/-- The bytes that have been read. -/
def PtyEvent.bytes : PtyEvent → List UInt8
  | .enter _ => []
  | .read first rest => first :: rest

namespace Pty

/-- One step. -/
def step (s : Pty) : PtyEvent → Pty
  | .enter pppbuf => { s with pppbuf }
  | .read first rest =>
    let src := first :: rest
    let s := { s with pppbuf := fun i ↦ src[i]?.getD (s.pppbuf i) }
    s.drain (s.pppbuf src.length) src.length src

end Pty

/-! ### The streams -/

/-- RFC 1662: the flag, the escape, and the translation of escaped octets. -/
def async : Stuffing UInt8 where
  flag := pppFlag
  esc := pppEscape
  trans b := b ^^^ pppTrans
  trans_trans _ := xor_cancel_right _ _
  esc_ne_flag := by decide

/-- The octets that are escaped: those with a meaning of their own, and the control characters that
the sender's map contains. -/
def mustEscape (accm : UInt8 → Bool) (b : UInt8) : Bool :=
  decide (b = pppFlag) || decide (b = pppEscape) || (decide (b < 0x20) && accm b)

/-- A payload with a check sequence. -/
def withFcs (fcs : List UInt8 → UInt8 × UInt8) (payload : List UInt8) : List UInt8 :=
  payload ++ [(fcs payload).1, (fcs payload).2]

/-- Frames one after the other, each behind any number of flags. -/
def stream (accm : UInt8 → Bool) (fcs : List UInt8 → UInt8 × UInt8)
    (frames : List (ℕ × List UInt8)) : List UInt8 :=
  frames.flatMap fun f ↦ async.frame (mustEscape accm) f.1 (withFcs fcs f.2)

/-! ### The receiver against the octet-by-octet one -/

namespace Pty

variable {s : Pty} {r : Stuffing.Receiver UInt8} {b after : UInt8} {w src : List UInt8} {n : ℕ}

/-- The payload of what came between two flags, if it is passed on. -/
def passed (data : List UInt8) : Option (List UInt8) :=
  if pppFcslen < data.length ∧ data.length ≤ capacity
  then some (data.take (data.length - pppFcslen)) else none

/-- **The state of the connection is that of the octet-by-octet receiver**, but for a frame that has
turned out to be too long. -/
structure Sim (s : Pty) (r : Stuffing.Receiver UInt8) : Prop where
  queue : s.queue = r.frames.filterMap passed
  frame : (s.toss = false ∧ s.buf = r.acc ∧ s.escape = r.escaped ∧ r.acc.length ≤ capacity) ∨
    (s.toss = true ∧ capacity < r.acc.length)

lemma special_iff : async.Special b ↔ ¬ (b ≠ pppEscape ∧ b ≠ pppFlag) := by
  show (b = pppFlag ∨ b = pppEscape) ↔ _
  tauto

/-- A frame that is too long only gets longer until the next flag. -/
lemma Sim.receive_tossed (h : Sim s r) (htoss : s.toss = true) (hb : b ≠ pppFlag) (e : Bool) :
    Sim { s with escape := e } (async.receive r b) := by
  have hlong : capacity < r.acc.length := by
    rcases h.frame with hf | hf
    · nomatch hf.1.symm.trans htoss
    · exact hf.2
  have hreceive : (async.receive r b).frames = r.frames ∧
      capacity < (async.receive r b).acc.length := by
    rw [Stuffing.receive, if_neg (show ¬ b = async.flag from hb)]
    split
    · exact ⟨rfl, hlong⟩
    · rw [length_append]
      exact ⟨rfl, Nat.lt_add_right _ hlong⟩
  exact ⟨by rw [hreceive.1]; exact h.queue, .inr ⟨htoss, hreceive.2⟩⟩

/-- **A flag ends the frame**, whatever its length is. -/
theorem Sim.handle_flag (h : Sim s r) : Sim (s.handle pppFlag) (async.receive r pppFlag) := by
  have hreceive : async.receive r pppFlag =
      { frames := if r.escaped then r.frames else r.frames ++ [r.acc] } := if_pos rfl
  rw [hreceive, handle, if_pos rfl]
  have hempty : ∀ fs : List (List UInt8), s.queue = fs.filterMap passed →
      Sim { s with buf := [], escape := false, toss := false } { frames := fs } :=
    fun fs hfs ↦ ⟨hfs, .inl ⟨rfl, rfl, rfl, zero_le capacity⟩⟩
  -- Nothing is passed on if the frame is dropped on both sides.
  have hdropped : (r.escaped = false → passed r.acc = none) → s.queue =
      (if r.escaped then r.frames else r.frames ++ [r.acc]).filterMap passed := fun hnone ↦ by
    split
    · exact h.queue
    · next hesc =>
      rw [filterMap_append, filterMap_cons, hnone (Bool.not_eq_true _ ▸ hesc), h.queue]
      exact (append_nil _).symm
  rcases h.frame with ⟨htoss, hbuf, hescape, hlen⟩ | ⟨htoss, hlong⟩
  · split
    · next hmalformed =>
      have hnone : r.escaped = false → passed r.acc = none := fun hesc ↦ by
        rcases hmalformed with hshort | hf | hf
        · rw [hbuf] at hshort
          exact if_neg fun hf ↦ Nat.not_lt_of_le hshort hf.1
        · rw [hescape, hesc] at hf
          nomatch hf
        · rw [htoss] at hf
          nomatch hf
      split
      · next hidle =>
        refine ⟨hdropped hnone, .inl ⟨htoss, ?_, hidle.2.1, zero_le capacity⟩⟩
        exact eq_nil_of_length_eq_zero hidle.1
      · exact hempty _ (hdropped hnone)
    · next hgood =>
      rw [not_or, not_or, hbuf, hescape] at hgood
      obtain ⟨hshort, hesc, -⟩ := hgood
      rw [if_neg hesc]
      refine ⟨?_, .inl ⟨htoss, rfl, ?_, zero_le capacity⟩⟩
      · rw [filterMap_append, filterMap_cons, passed,
          if_pos ⟨Nat.lt_of_not_le hshort, hlen⟩, ← h.queue, ← hbuf]
        rfl
      · rw [hescape]
        exact Bool.not_eq_true _ ▸ hesc
  · rw [if_pos (.inr (.inr htoss)), if_neg fun hf ↦ nomatch hf.2.2.symm.trans htoss]
    exact hempty _ (hdropped fun _ ↦ if_neg fun hf ↦ Nat.not_le_of_lt hlong hf.2)

/-- An escape, unless an escape is to be escaped. -/
lemma Sim.handle_escape (h : Sim s r) (hr : s.toss = false → r.escaped = false) :
    Sim (s.handle pppEscape) (async.receive r pppEscape) := by
  have hhandle : s.handle pppEscape = { s with escape := true } := by
    rw [handle, if_neg (by decide), if_pos rfl]
  rw [hhandle]
  rcases h.frame with ⟨htoss, hbuf, -, hlen⟩ | ⟨htoss, -⟩
  · have hreceive := Stuffing.receive_esc (c := async) (hr htoss)
    rw [show async.receive r pppEscape = _ from hreceive]
    exact ⟨h.queue, .inl ⟨htoss, hbuf, rfl, hlen⟩⟩
  · exact h.receive_tossed htoss (by decide) true

/-- **A run is copied**, or the frame is too long. -/
theorem Sim.putRun (h : Sim s r) (hw : ∀ b ∈ w, ¬ async.Special b) :
    Sim (s.putRun w) (run async.receive r w) := by
  cases w with
  | nil =>
    rw [Pty.putRun]
    exact h
  | cons b w =>
    rw [run_cons, Stuffing.receive_ordinary (hw b mem_cons_self), Stuffing.run_receive_ordinary
      (fun b' hb' ↦ hw b' (mem_cons_of_mem b hb')) rfl, append_assoc, singleton_append]
    rcases h.frame with ⟨htoss, hbuf, hescape, hlen⟩ | ⟨htoss, hlong⟩
    · rw [Pty.putRun, if_pos ⟨succ_pos _, htoss⟩, bufTailroom, hbuf, hescape]
      have hrun : r.acc ++ (if r.escaped then unescape (b :: w) else b :: w) =
          r.acc ++ (if r.escaped then async.trans b else b) :: w := by
        cases r.escaped with
        | false => rfl
        | true => rfl
      have hlength : (r.acc ++ (if r.escaped then async.trans b else b) :: w).length =
          r.acc.length + (b :: w).length := by
        rw [length_append, length_cons, length_cons]
      split
      · next hfits =>
        refine ⟨h.queue, .inl ⟨htoss, hrun, rfl, ?_⟩⟩
        rw [hlength]
        omega
      · next hlong =>
        refine ⟨h.queue, .inr ⟨rfl, ?_⟩⟩
        rw [hlength]
        omega
    · rw [Pty.putRun, if_neg fun hf ↦ nomatch hf.2.symm.trans htoss]
      refine ⟨h.queue, .inr ⟨htoss, ?_⟩⟩
      rw [length_append]
      exact Nat.lt_add_right _ hlong

/-- One turn of the loop: a run and the byte behind it. -/
lemma Sim.turn (h : Sim s r) (hw : ∀ b ∈ w, ¬ async.Special b) (hb : async.Special b)
    (hproper : (run async.receive r w).escaped = true → b ≠ pppEscape) :
    Sim ((s.putRun w).handle b) (async.receive (run async.receive r w) b) := by
  have hput := h.putRun hw
  rcases hb with rfl | rfl
  · exact hput.handle_flag
  · refine hput.handle_escape fun _ ↦ ?_
    exact Bool.not_eq_true _ ▸ fun hf ↦ hproper hf rfl

/-- What `splitRun` does, unless an escape is to be escaped. -/
lemma splitRun_spec (s : Pty) (src : List UInt8)
    (hsrc : ∀ b ∈ src.head?, ¬ (s.escape = true ∧ b = pppEscape)) :
    (s.splitRun src).1 ++ (s.splitRun src).2 = src ∧
      (∀ b ∈ (s.splitRun src).1, ¬ async.Special b) ∧
      ∀ b ∈ (s.splitRun src).2.head?, async.Special b := by
  cases src with
  | nil => exact ⟨rfl, nofun, nofun⟩
  | cons b' src =>
    have hsplit : s.splitRun (b' :: src) =
        (b' :: src).span fun b ↦ decide (b ≠ pppEscape ∧ b ≠ pppFlag) :=
      if_neg (hsrc b' rfl)
    rw [hsplit, span_eq_takeWhile_dropWhile]
    refine ⟨takeWhile_append_dropWhile, fun b hb ↦ ?_, fun b hb ↦ ?_⟩
    · rw [special_iff, not_not]
      exact of_decide_eq_true
        (mem_takeWhile_imp (p := fun b ↦ decide (b ≠ pppEscape ∧ b ≠ pppFlag)) hb)
    rw [special_iff]
    have hhead := head?_dropWhile_not (fun b ↦ decide (b ≠ pppEscape ∧ b ≠ pppFlag))
      (b' :: src)
    rw [show (dropWhile _ (b' :: src)).head? = some b from hb] at hhead
    exact of_decide_eq_false hhead

lemma length_rest_le {rest : List UInt8} {byte : UInt8} (h : w ++ byte :: rest = b :: src)
    (hn : (b :: src).length ≤ n + 1) : rest.length ≤ n := by
  rw [← h, length_append, length_cons] at hn
  omega

/-- No escape is escaped. -/
def Proper (r : Stuffing.Receiver UInt8) (b : UInt8) : Prop := r.escaped = true → b ≠ pppEscape

/-- **A read that is not left behind** is taken as the octet-by-octet receiver takes it. -/
theorem Sim.drain (h : Sim s r) (hn : src.length ≤ n) (hproper : Along async.receive Proper r src)
    (hin : (s.drain after n src).outside = false) :
    Sim (s.drain after n src) (run async.receive r src) := by
  induction n generalizing s r src with
  | zero =>
    obtain rfl := eq_nil_of_length_eq_zero (le_zero.mp hn)
    exact h
  | succ n ih =>
    cases src with
    | nil => exact h
    | cons b src =>
      by_cases hstuck : s.escape = true ∧ b = pppEscape
      · -- This happens only in a frame that is too long.
        have htoss : s.toss = true := by
          rcases h.frame with ⟨-, -, hescape, -⟩ | hf
          · exact absurd hstuck.2 (hproper.1 (hescape.symm.trans hstuck.1))
          · exact hf.1
        have hsplit : s.splitRun (b :: src) = ([b], src) := if_pos hstuck
        have hput : s.putRun [b] = s := if_neg fun hf ↦ nomatch hf.2.symm.trans htoss
        have hskip := h.receive_tossed htoss (b := b) (by rw [hstuck.2]; decide) s.escape
        simp only [Pty.drain, hsplit, hput] at hin ⊢
        cases src with
        | nil => nomatch hin
        | cons byte src =>
          rw [run_cons]
          refine ih ?_ (by simpa using le_of_succ_le (le_of_succ_le_succ hn))
            hproper.2.2 hin
          by_cases hflag : byte = pppFlag
          · rw [hflag]
            exact hskip.handle_flag
          by_cases hesc : byte = pppEscape
          · rw [hesc]
            exact hskip.handle_escape fun hf ↦ nomatch hf.symm.trans htoss
          · rw [handle, if_neg hflag, if_neg hesc]
            exact hskip.receive_tossed htoss hflag s.escape
      · obtain ⟨happend, hrun, hbyte⟩ := splitRun_spec s (b :: src) (by rintro _ ⟨⟩; exact hstuck)
        simp only [Pty.drain] at hin ⊢
        generalize s.splitRun (b :: src) = p at happend hrun hbyte hin
        obtain ⟨w, rest⟩ := p
        cases rest with
        | nil => nomatch hin
        | cons byte rest =>
          rw [← happend, along_append] at hproper
          have hlen := length_rest_le happend hn
          rw [← happend, run_append]
          exact ih (h.turn hrun (hbyte byte rfl) hproper.2.1) hlen hproper.2.2 hin

lemma outside_putRun : (s.putRun w).outside = s.outside := by
  rw [putRun]
  split
  · split
    · rfl
    · rfl
  · rfl

lemma outside_handle : (s.handle b).outside = s.outside := by
  rw [handle]
  split
  · split
    · split
      · rfl
      · rfl
    · rfl
  · split
    · rfl
    · rfl

/-- What has been examined stays so. -/
lemma outside_drain (h : s.outside = true) : (s.drain after n src).outside = true := by
  induction n generalizing s src with
  | zero =>
    cases src with
    | nil => exact h
    | cons b src => exact h
  | succ n ih =>
    cases src with
    | nil => exact h
    | cons b src =>
      simp only [drain]
      split
      · refine ih ?_
        rw [outside_handle, outside_putRun]
        exact h
      · rfl

/-- **A byte behind the read is examined** unless the last byte of the read has a meaning of its
own. -/
theorem Sim.outside_drain_iff (h : Sim s r) (hn : (b :: src).length ≤ n)
    (hcalm : Along async.receive (async.Calm capacity) r (b :: src)) (hin : s.outside = false) :
    (s.drain after n (b :: src)).outside = false ↔
      async.Special ((b :: src).getLast (cons_ne_nil b src)) := by
  induction n generalizing s r b src with
  | zero => exact absurd hn (not_succ_le_zero _)
  | succ n ih =>
    have hescape : s.escape = r.escaped := by
      rcases h.frame with hf | hf
      · exact hf.2.2.1
      · exact absurd hf.2 (Nat.not_lt_of_le hcalm.1.1)
    have hstuck : ¬ (s.escape = true ∧ b = pppEscape) := fun hf ↦
      hcalm.1.2 (hescape.symm.trans hf.1) hf.2
    obtain ⟨happend, hrun, hbyte⟩ := splitRun_spec s (b :: src) (by rintro _ ⟨⟩; exact hstuck)
    simp only [Pty.drain]
    generalize s.splitRun (b :: src) = p at happend hrun hbyte
    obtain ⟨w, rest⟩ := p
    cases rest with
    | nil =>
      -- The run goes on to the end of the read.
      rw [append_nil] at happend
      refine iff_of_false nofun (hrun _ ?_)
      rw [happend]
      exact getLast_mem _
    | cons byte rest =>
      have hcalm' := hcalm
      rw [← happend, along_append] at hcalm'
      have hsim := h.turn hrun (hbyte byte rfl) hcalm'.2.1.2
      have hout : ((s.putRun w).handle byte).outside = false := by
        rw [outside_handle, outside_putRun]
        exact hin
      cases rest with
      | nil =>
        refine iff_of_true ?_ ?_
        · cases n with
          | zero | succ n => exact hout
        · simp only [← happend, getLast_append_of_ne_nil _ (cons_ne_nil _ _)]
          exact hbyte byte rfl
      | cons b' rest =>
        rw [ih hsim (length_rest_le happend hn) hcalm'.2.2 hout]
        simp only [← happend, getLast_append_of_ne_nil _ (cons_ne_nil _ _), getLast_cons_cons]

/-! ### Whole runs -/

lemma outside_step (h : s.outside = true) {e : PtyEvent} : (s.step e).outside = true := by
  cases e with
  | enter pppbuf => exact h
  | read first rest => exact outside_drain h

lemma outside_run (h : s.outside = true) (es : List PtyEvent) : (run step s es).outside = true :=
  foldlRecOn (motive := fun s ↦ s.outside = true) es step h fun _ h _ _ ↦ outside_step h

lemma Sim.step (h : Sim s r) (e : PtyEvent) (hproper : Along async.receive Proper r e.bytes)
    (hin : (s.step e).outside = false) : Sim (s.step e) (run async.receive r e.bytes) := by
  cases e with
  | enter pppbuf => exact { h with }
  | read first rest => exact Sim.drain { h with } le_rfl hproper hin

lemma Sim.run (h : Sim s r) (es : List PtyEvent)
    (hproper : Along async.receive Proper r (es.flatMap PtyEvent.bytes))
    (hin : (run Pty.step s es).outside = false) :
    Sim (run Pty.step s es) (run async.receive r (es.flatMap PtyEvent.bytes)) := by
  induction es generalizing s r with
  | nil => exact h
  | cons e es ih =>
    rw [flatMap_cons, along_append] at hproper
    rw [flatMap_cons, run_append]
    refine ih (h.step e hproper.1 ?_) hproper.2 hin
    by_contra hf
    nomatch hin.symm.trans (outside_run (Bool.not_eq_false _ ▸ hf) es)

/-- Nothing but the bytes just read is examined if and only if each read ends with a byte that has a
meaning of its own. -/
lemma Sim.outside_run_iff (h : Sim s r) {es : List PtyEvent}
    (hcalm : Along async.receive (async.Calm capacity) r (es.flatMap PtyEvent.bytes))
    (hin : s.outside = false) :
    (Transition.run Pty.step s es).outside = false ↔
      ∀ e ∈ es, ∀ b ∈ e.bytes.getLast?, async.Special b := by
  induction es generalizing s r with
  | nil => exact iff_of_true hin nofun
  | cons e es ih =>
    rw [flatMap_cons, along_append] at hcalm
    rw [forall_mem_cons, run_cons]
    have hstep : (s.step e).outside = false ↔ ∀ b ∈ e.bytes.getLast?, async.Special b := by
      cases e with
      | enter pppbuf => exact iff_of_true hin nofun
      | read first rest =>
        have hsim : Sim { s with pppbuf := fun i ↦ (first :: rest)[i]?.getD (s.pppbuf i) } r :=
          { h with }
        refine (hsim.outside_drain_iff le_rfl hcalm.1 hin).trans ?_
        rw [PtyEvent.bytes]
        exact ⟨fun hlast b hb ↦ Option.mem_some.mp hb ▸ hlast, fun hall ↦ hall _ rfl⟩
    by_cases hout : (s.step e).outside = false
    · have hproper : Along async.receive Proper r e.bytes := hcalm.1.mono fun _ _ hf ↦ hf.2
      rw [ih (h.step e hproper hout) hcalm.2 hout]
      exact (and_iff_right (hstep.mp hout)).symm
    · refine iff_of_false (fun hf ↦ ?_) fun hf ↦ hout (hstep.mpr hf.1)
      nomatch hf.symm.trans (outside_run (Bool.not_eq_false _ ▸ hout) es)

end Pty

/-! ### The frames of a stream -/

lemma escapes (accm : UInt8 → Bool) : async.Escapes (mustEscape accm) where
  special b hb := by
    rcases hb with rfl | rfl
    · rfl
    · rfl
  trans b hb := by
    have hback : ∀ x, async.trans b = x → b = x ^^^ pppTrans := fun x hx ↦ by
      rw [← hx]
      exact (async.trans_trans b).symm
    rintro (hf | hf)
    · rw [hback _ hf] at hb
      nomatch hb
    · rw [hback _ hf] at hb
      nomatch hb

variable {accm : UInt8 → Bool} {fcs : List UInt8 → UInt8 × UInt8} {frames : List (ℕ × List UInt8)}

/-- What the octet-by-octet receiver makes of a stream. -/
lemma run_receive_stream (fs : List (List UInt8)) :
    run async.receive { frames := fs } (stream accm fcs frames) =
      { frames := fs ++ frames.flatMap fun f ↦ List.replicate f.1 [] ++ [withFcs fcs f.2] } := by
  induction frames generalizing fs with
  | nil => rw [stream, flatMap_nil, flatMap_nil, run_nil, append_nil]
  | cons f frames ih =>
    rw [stream, flatMap_cons, run_append, Stuffing.run_receive_frame (escapes accm)]
    refine (ih _).trans ?_
    rw [flatMap_cons, append_assoc]

/-- What is true along each frame is true along the stream. -/
lemma along_stream {C : Stuffing.Receiver UInt8 → UInt8 → Prop}
    (hC : ∀ f ∈ frames, ∀ fs, Along async.receive C { frames := fs }
      (async.frame (mustEscape accm) f.1 (withFcs fcs f.2)))
    (fs : List (List UInt8)) :
    Along async.receive C { frames := fs } (stream accm fcs frames) := by
  induction frames generalizing fs with
  | nil => trivial
  | cons f frames ih =>
    rw [forall_mem_cons] at hC
    rw [stream, flatMap_cons, along_append, Stuffing.run_receive_frame (escapes accm)]
    exact ⟨hC.1 fs, ih hC.2 _⟩

/-- The payload can be passed on. -/
def Fits (payload : List UInt8) : Prop :=
  0 < payload.length ∧ payload.length + sizeofSstpHdr ≤ sstpMaxPacketSize

instance (payload : List UInt8) : Decidable (Fits payload) := inferInstanceAs (Decidable (_ ∧ _))

lemma length_withFcs (payload : List UInt8) :
    (withFcs fcs payload).length = payload.length + 2 := by
  rw [withFcs, length_append]
  rfl

lemma passed_withFcs (payload : List UInt8) :
    Pty.passed (withFcs fcs payload) = if Fits payload then some payload else none := by
  have hiff : (pppFcslen < (withFcs fcs payload).length ∧
      (withFcs fcs payload).length ≤ capacity) ↔ Fits payload := by
    rw [length_withFcs, Fits, capacity, pppFcslen]
    omega
  have htake : (withFcs fcs payload).take (payload.length + 2 - pppFcslen) = payload :=
    take_left
  rw [Pty.passed, if_congr hiff rfl rfl, length_withFcs, htake]

/-- The payloads that are passed on, of a stream. -/
lemma filterMap_passed :
    (frames.flatMap fun f ↦ List.replicate f.1 [] ++ [withFcs fcs f.2]).filterMap Pty.passed =
      (frames.map Prod.snd).filter fun p ↦ decide (Fits p) := by
  have hflags : ∀ flags : ℕ, (replicate flags []).filterMap Pty.passed = [] := fun flags ↦ by
    rw [filterMap_replicate_of_none rfl]
  induction frames with
  | nil => rfl
  | cons f frames ih =>
    rw [flatMap_cons, filterMap_append, ih, filterMap_append, hflags,
      filterMap_cons, passed_withFcs, map_cons, filter_cons]
    by_cases hfit : Fits f.2
    · rw [if_pos hfit, if_pos (decide_eq_true hfit)]
      rfl
    · rw [if_neg hfit, if_neg (by rw [decide_eq_true_eq]; exact hfit)]
      rfl

/-! ### The frames of the sender -/

/-- The check sequence of `sstp_recv_data_packet`. -/
def fcsBytes (payload : List UInt8) : UInt8 × UInt8 :=
  ((fcsOf payload).toUInt8, (fcsOf payload >>> 8).toUInt8)

lemma sstpRecvDataPacket_eq (payload : List UInt8) : sstpRecvDataPacket payload =
    async.frame (mustEscape fun _ ↦ true) 1 (withFcs fcsBytes payload) := by
  have hmust (b : UInt8) : (b < 0x20 ∨ b = pppFlag ∨ b = pppEscape) ↔
      mustEscape (fun _ ↦ true) b = true := by
    simp only [mustEscape, Bool.or_eq_true, decide_eq_true_eq, Bool.and_true]
    tauto
  simp only [sstpRecvDataPacket, hmust]
  rfl

/-- One octet in the check of RFC 1662, with the table. -/
def fcsStep (fcs : UInt16) (byte : UInt8) : UInt16 :=
  (fcs >>> 8) ^^^ fcstab.getD ((fcs ^^^ byte.toUInt16) &&& 0xff).toNat 0

/-- **The two octets of the sequence** lead from any value to the good one. -/
theorem fcsStep_fcsStep (fcs : UInt16) :
    fcsStep (fcsStep fcs (fcs ^^^ 0xffff).toUInt8) ((fcs ^^^ 0xffff) >>> 8).toUInt8 = 0xf0b8 := by
  have hbits {a b : UInt16} (h : ∀ i < 16, a.toBitVec.getLsbD i = b.toBitVec.getLsbD i) : a = b :=
    UInt16.toBitVec_inj.mp (BitVec.eq_of_getLsbD_eq h)
  have hlow : (fcs ^^^ (fcs ^^^ 0xffff).toUInt8.toUInt16) &&& 0xff = 0xff := by
    refine hbits fun i hi ↦ ?_
    interval_cases i <;> simp [-UInt16.toUInt16_toUInt8]
  have hhigh : (fcs >>> 8 ^^^ (0x0f78 : UInt16) ^^^
      ((fcs ^^^ 0xffff) >>> 8).toUInt8.toUInt16) &&& 0xff = 0x87 := by
    refine hbits fun i hi ↦ ?_
    interval_cases i <;> simp [-UInt16.toUInt16_toUInt8]
  have hgood : (fcs >>> 8 ^^^ 0x0f78) >>> 8 ^^^ 0xf0b7 = 0xf0b8 := by
    refine hbits fun i hi ↦ ?_
    interval_cases i <;> simp
  have hfirst : fcsStep fcs (fcs ^^^ 0xffff).toUInt8 = fcs >>> 8 ^^^ 0x0f78 := by
    rw [fcsStep, hlow, show fcstab.getD (0xff : UInt16).toNat 0 = 0x0f78 by decide +kernel]
  rw [hfirst, fcsStep, hhigh, show fcstab.getD (0x87 : UInt16).toNat 0 = 0xf0b7 by decide +kernel,
    hgood]

/-- **The frame for a payload** fits into the buffer that is allocated for it, has flags only at its
ends, and carries the payload with a sequence for which the check is good. -/
theorem frame_checks (payload : List UInt8) :
    (sstpRecvDataPacket payload).length ≤ (payload.length + pppFcslen) * 2 + 2 ∧
      (∃ body, sstpRecvDataPacket payload = pppFlag :: (body ++ [pppFlag]) ∧ pppFlag ∉ body) ∧
      ∃ fcs, run async.receive {} (sstpRecvDataPacket payload) =
          { frames := [[], payload ++ fcs] } ∧
        fcs.length = pppFcslen ∧ (payload ++ fcs).foldl fcsStep 0xffff = 0xf0b8 := by
  have hesc := escapes fun _ ↦ true
  rw [sstpRecvDataPacket_eq]
  refine ⟨?_, ⟨_, rfl, hesc.flag_notMem _⟩, _, Stuffing.run_receive_frame hesc 1 _ [], rfl, ?_⟩
  · have hle := async.length_stuff_le (mustEscape fun _ ↦ true) (withFcs fcsBytes payload)
    rw [length_withFcs] at hle
    simp only [Stuffing.frame, length_append, length_replicate, length_singleton, pppFcslen]
    omega
  · rw [foldl_append]
    exact fcsStep_fcsStep _

/-! ### All frames -/

/-- **Exactly the payloads are passed on, and nothing but the bytes just read is examined**, if and
only if each payload fits into a data packet and each read ends with a flag or an escape. -/
theorem passedOn_iff (accm : UInt8 → Bool) (fcs : List UInt8 → UInt8 × UInt8)
    (frames : List (ℕ × List UInt8)) (es : List PtyEvent)
    (hes : es.flatMap PtyEvent.bytes = stream accm fcs frames) :
    ((run Pty.step {} es).queue = frames.map Prod.snd ∧ (run Pty.step {} es).outside = false) ↔
      (∀ f ∈ frames, Fits f.2) ∧
        ∀ e ∈ es, ∀ b ∈ e.bytes.getLast?, b = pppFlag ∨ b = pppEscape := by
  have hinit : Pty.Sim {} {} := ⟨rfl, .inl ⟨rfl, rfl, rfl, zero_le _⟩⟩
  have hproper : Along async.receive Pty.Proper {} (es.flatMap PtyEvent.bytes) := by
    rw [hes]
    refine along_stream (fun f _ fs ↦ ?_) []
    exact (Stuffing.along_frame (escapes accm) f.1 le_rfl fs).mono fun _ _ hf ↦ hf.2
  -- What is passed on if nothing else is examined.
  have hqueue : (run Pty.step {} es).outside = false → (run Pty.step {} es).queue =
      (frames.map Prod.snd).filter fun p ↦ decide (Fits p) := fun hin ↦ by
    rw [(hinit.run es hproper hin).queue, hes, run_receive_stream, nil_append, filterMap_passed]
  have hall : ((frames.map Prod.snd).filter fun p ↦ decide (Fits p)) = frames.map Prod.snd ↔
      ∀ f ∈ frames, Fits f.2 := by
    rw [filter_eq_self, forall_mem_map]
    exact forall₂_congr fun f _ ↦ decide_eq_true_iff
  have hreads : (∀ f ∈ frames, Fits f.2) → ((run Pty.step {} es).outside = false ↔
      ∀ e ∈ es, ∀ b ∈ e.bytes.getLast?, b = pppFlag ∨ b = pppEscape) := fun hfits ↦ by
    refine hinit.outside_run_iff ?_ rfl
    rw [hes]
    refine along_stream (fun f hf ↦ Stuffing.along_frame (escapes accm) f.1 ?_) []
    have hfit := (hfits f hf).2
    rw [length_withFcs, capacity, pppFcslen]
    omega
  constructor
  · rintro ⟨hpassed, hin⟩
    have hfits := hall.mp ((hqueue hin).symm.trans hpassed)
    exact ⟨hfits, (hreads hfits).mp hin⟩
  · rintro ⟨hfits, hlast⟩
    have hin := (hreads hfits).mpr hlast
    exact ⟨(hqueue hin).trans (hall.mpr hfits), hin⟩

/-- Two frames as `sstp_recv_data_packet` sends them, in four reads of which each ends with a flag
or an escape. -/
theorem passedOn_iff_goodCuts :
    let fcs := fun p ↦ ((fcsOf p).toUInt8, (fcsOf p >>> 8).toUInt8)
    let es := [.enter fun _ ↦ 0x7e, .read 0x7e [], .read 0x41 [0xf5, 0xa3, 0x7e, 0x7e],
      .read 0x42 [0x43, 0x44, 0x2c, 0x7d], .read 0x3d [0x7e]]
    es.flatMap PtyEvent.bytes = stream (fun _ ↦ true) fcs [(1, [0x41]), (1, [0x42, 0x43, 0x44])] ∧
      (run Pty.step {} es).queue = [[0x41], [0x42, 0x43, 0x44]] ∧
      (run Pty.step {} es).outside = false := by
  intro fcs es
  have hes : es.flatMap PtyEvent.bytes =
      stream (fun _ ↦ true) fcs [(1, [0x41]), (1, [0x42, 0x43, 0x44])] := by decide +kernel
  refine ⟨hes, (passedOn_iff _ _ _ _ hes).mpr ⟨by decide, ?_⟩⟩
  simp [es, PtyEvent.bytes, pppFlag, pppEscape]

/-- **A payload is cut short.** The same frames, the first in a read of five bytes and the second in
two reads of four. The byte behind the second read is the flag that the first one has left. -/
theorem payload_cut_short :
    let es := [.enter fun _ ↦ 0, .read 0x7e [0x41, 0xf5, 0xa3, 0x7e],
      .read 0x7e [0x42, 0x43, 0x44], .read 0x2c [0x7d, 0x3d, 0x7e]]
    es.flatMap PtyEvent.bytes =
        sstpRecvDataPacket [0x41] ++ sstpRecvDataPacket [0x42, 0x43, 0x44] ∧
      (run Pty.step {} es).queue = [[0x41], [0x42]] ∧ (run Pty.step {} es).outside = true := by
  decide +kernel

end AccelPpp.Sstp
