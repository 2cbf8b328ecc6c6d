import AccelPpp.Auth.Machine

/-!
# Frames are read within their bounds, when they are

The receive functions test the length field once, against what was received. After that PAP trusts
two length bytes, which it compares in `size_t`, and the CHAP protocols trust that the frame holds
their fixed part. The bytes read lie within the received frame **exactly** if:

* `PapSafe`: the byte behind the name is there, and the password, which is compared with a length
  that wraps when the frame ends with the name, ends before the frame does;
* `ChapSafe`: the fixed part is there. A name of wrapped length is read up to a NUL, which the frame
  may happen to contain in what follows its length field's end.

With verbose logging the CHAP protocols also print what they have not tested yet.
-/

namespace AccelPpp.Auth

open ByteReader Reader

/-- A NUL at the offset or behind it, within the frame. -/
def Frame.EndsIn (f : Frame) (off : ℕ) : Prop :=
  ∃ o, off ≤ o ∧ o < f.size ∧ f.mem o = 0

/-- The request that PAP would look at is refused for its name, or has its second length byte and a
password that ends within the frame. -/
def PapSafe (cfg : Config) (p : Pap) (f : Frame) : Prop :=
  f.Accepted 1 → p.active = true → p.started = false → p.peerId = none →
    7 ≤ f.size ∧
      (5 ≤ f.len ∧ f.len < 5 + (f.mem 6).toNat ∨
        7 + (f.mem 6).toNat < f.size ∧
          (6 + (f.mem 6).toNat ≤ f.len ∨ cfg.anyLogin = true ∨
            8 + (f.mem 6).toNat + (f.mem (7 + (f.mem 6).toNat)).toNat ≤ f.size ∨
            f.EndsIn (8 + (f.mem 6).toNat)))

/-- The log line needs `logged` bytes of a response. If the response is looked at it has its size
byte, and if that is right, the frame's length covers the fixed part of `fixed` bytes, or there is
a NUL behind it. -/
def ChapSafe (fixed : ℕ) (valueSize : UInt8) (logged : ℕ) (cfg : Config) (c : Chap) (f : Frame) :
    Prop :=
  c.registered = true → f.Accepted 2 →
    (cfg.verbose = true → logged ≤ f.size) ∧
      (c.name = none → f.mem 3 = c.id →
        7 ≤ f.size ∧ (f.mem 6 = valueSize → fixed ≤ f.len + 2 ∨ f.EndsIn fixed))

/-- **The condition on a frame**, for the protocol that receives it. -/
def FrameSafe (cfg : Config) (a : AuthData) (f : Frame) : Prop :=
  match a with
  | .pap p => PapSafe cfg p f
  | .chapMd5 c => ChapSafe 23 16 (7 + (f.mem 6).toNat) cfg c f
  | .mschapV2 c => ChapSafe 56 49 56 cfg c f

section

variable {H : Crypto} {cfg : Config} {env : Env} {f : Frame} {off : ℕ} {c : Chap}

/-- A string whose length was computed as `len - k` in `size_t`. -/
lemma within_str_sizeDiff {k : ℕ} (hk : k < 2 ^ 16) (hoff : off = k + 2)
    (hlen : f.len + 2 ≤ f.size) :
    (str off (sizeDiff f.len k)).Within f.mem f.size ↔ off ≤ f.len + 2 ∨ f.EndsIn off := by
  have hsize := f.size_le
  rw [within_str]
  by_cases hle : k ≤ f.len
  · rw [sizeDiff_of_le (by omega) hle]
    exact iff_of_true (.inr (.inl (by omega))) (.inl (by omega))
  -- the length has wrapped: the bound is far beyond every buffer
  rw [sizeDiff_of_lt (by omega) (by omega)]
  constructor
  · rintro (h | h | h)
    · omega
    · omega
    · exact .inr h
  · rintro (h | h)
    · omega
    · exact .inr (.inr h)

/-! ### PAP -/

lemma within_papRecvReq {p : Pap} :
    (f.Accepted 1 → (papRecvReq cfg env p f.len).Within f.mem f.size) ↔ PapSafe cfg p f := by
  refine forall_congr' fun ⟨hsize, hlen, hfits, _⟩ ↦ ?_
  have hlt := f.len_lt
  have ha := (f.mem 6).toNat_lt
  rw [papRecvReq, within_ite_not, within_bind, within_byte,
    and_iff_right (by omega), within_ite_not, within_ite_not]
  refine imp_congr (by simp) (imp_congr (by simp) (imp_congr (by simp) ?_))
  rw [within_bind, within_byte, result_byte]
  refine and_congr Iff.rfl ?_
  generalize (f.mem 6).toNat = a at ha ⊢
  split
  · next hshort =>
    rw [sizeDiff_lt_iff hlt (by omega) (by omega)] at hshort
    exact iff_of_true trivial (.inl hshort)
  next hname =>
  rw [sizeDiff_lt_iff hlt (by omega) (by omega)] at hname
  rw [or_iff_right hname, within_bind, within_byte, result_byte]
  refine and_congr_right fun hbyte ↦ ?_
  have hb := (f.mem (7 + a)).toNat_lt
  split
  · next hshort =>
    rw [sizeDiff_lt_iff hlt (by omega) (by omega)] at hshort
    exact iff_of_true trivial (.inl hshort.1)
  next hpass =>
  rw [sizeDiff_lt_iff hlt (by omega) (by omega)] at hpass
  rw [within_bind, within_str, and_iff_right (.inr (.inl (by omega)))]
  split
  · next hany => exact iff_of_true trivial (.inr (.inl hany))
  next hany =>
  rw [within_bind, within_pure, and_true, within_str, or_iff_right hany]
  -- the length field covers the password's length byte, so the test above bounds the password
  exact (or_iff_right_of_imp fun h ↦ .inl (by omega)).trans
    (or_iff_right_of_imp fun h ↦ .inl (by omega)).symm

lemma within_papRecv {p : Pap} :
    (papRecv cfg env f.size p).Within f.mem f.size ↔ PapSafe cfg p f :=
  within_recv.trans within_papRecvReq

/-! ### CHAP -/

/-- The part of a response both protocols read alike: the log line, and the identifier. -/
lemma within_chapResponse {print : Reader Unit} {body : Chap → Reader Chap} (hsize : 6 ≤ f.size) :
    (chapResponse print c body).Within f.mem f.size ↔
      print.Within f.mem f.size ∧ (c.name = none → f.mem 3 = c.id →
        (body { c with timeout := false }).Within f.mem f.size) := by
  rw [chapResponse, within_bind, within_bind, within_byte, and_iff_right (show 3 < f.size by omega)]
  refine and_congr_right fun _ ↦ ?_
  rw [within_ite_not, within_ite_not, within_ite_not, not_not]
  refine ⟨fun h hnone hid ↦ h (by simp [hid]) (by simp [hnone]) hid, fun h _ hnone ↦ h ?_⟩
  simpa using hnone

lemma within_chapMd5Print (hlen : f.len + 2 ≤ f.size) :
    (chapMd5Print cfg f.len).Within f.mem f.size ↔
      (cfg.verbose = true → 7 + (f.mem 6).toNat ≤ f.size) := by
  rw [chapMd5Print, within_ite, within_bind, within_byte, result_byte, within_bind, within_bytes,
    within_bind, within_bytes, within_pure, and_true]
  refine forall_congr' fun _ ↦ ?_
  omega

lemma within_mschapV2Print (hlen : f.len + 2 ≤ f.size) :
    (mschapV2Print cfg f.len).Within f.mem f.size ↔ (cfg.verbose = true → 56 ≤ f.size) := by
  simp only [mschapV2Print, within_ite, within_bind, within_byte,
    within_bytes, within_pure, and_true]
  refine forall_congr' fun _ ↦ ?_
  omega

/-- The size byte and the name, and then whatever lies within the fixed part. -/
lemma within_sizedName {α : Type} {valueSize : UInt8} {k : ℕ} {bad : α}
    {rest : List UInt8 → Reader α} (hk : k < 2 ^ 16) (hoff : off = k + 2)
    (hlen : f.len + 2 ≤ f.size) (hrest : off ≤ f.size → ∀ name, (rest name).Within f.mem f.size) :
    (do
      let valSize ← byte 6
      if valSize ≠ valueSize then return bad
      else
        let name ← str off (sizeDiff f.len k)
        rest name : Reader α).Within f.mem f.size ↔
      7 ≤ f.size ∧ (f.mem 6 = valueSize → off ≤ f.len + 2 ∨ f.EndsIn off) := by
  rw [within_bind, within_byte]
  rw [within_ite_not, not_not, within_bind, within_str_sizeDiff hk hoff hlen]
  refine and_congr_right fun _ ↦ forall_congr' fun _ ↦ ?_
  refine and_iff_left_of_imp fun h ↦ hrest ?_ _
  rcases h with h | ⟨o, hle, hlt, -⟩ <;> omega

lemma within_chapRecv {recvResponse : ChapHandler} {P : Prop}
    (h : 6 ≤ f.size → f.len + 2 ≤ f.size →
      ((recvResponse cfg env c f.len).Within f.mem f.size ↔ P)) :
    (chapRecv recvResponse cfg env f.size c).Within f.mem f.size ↔
      (c.registered = true → f.Accepted 2 → P) := by
  rw [chapRecv, within_ite, within_recv]
  exact forall_congr' fun _ ↦ forall_congr' fun hacc ↦ h hacc.1 hacc.2.2.1

lemma within_chapMd5Recv :
    (chapRecv (chapMd5RecvResponse H) cfg env f.size c).Within f.mem f.size ↔
      ChapSafe 23 16 (7 + (f.mem 6).toNat) cfg c f := by
  refine within_chapRecv fun hsize hlen ↦ ?_
  rw [chapMd5RecvResponse, within_chapResponse hsize, within_chapMd5Print hlen]
  refine and_congr_right fun _ ↦ forall_congr' fun _ ↦ forall_congr' fun _ ↦ ?_
  refine within_sizedName (by decide) rfl hlen fun hfixed name ↦ ?_
  split
  · trivial
  · rw [within_bind, within_bytes, within_pure, and_true]
    omega

lemma within_mschapV2Recv :
    (chapRecv (mschapV2RecvResponse H) cfg env f.size c).Within f.mem f.size ↔
      ChapSafe 56 49 56 cfg c f := by
  refine within_chapRecv fun hsize hlen ↦ ?_
  rw [mschapV2RecvResponse, within_chapResponse hsize, within_mschapV2Print hlen]
  refine and_congr_right fun _ ↦ forall_congr' fun _ ↦ forall_congr' fun _ ↦ ?_
  refine within_sizedName (by decide) rfl hlen fun hfixed name ↦ ?_
  split
  · trivial
  · simp only [within_bind, within_byte, within_bytes, within_pure, and_true]
    omega

end

/-- **When a frame is read within its bounds**: all bytes that are read have been received, and the
outcome does not depend on what the buffer holds behind them, exactly when the frame meets the
condition. -/
theorem frame_confined_iff (H : Crypto) (cfg : Config) (env : Env) (a : AuthData) (f : Frame) :
    (a.recv H cfg env f.size).Confined f.mem f.size ↔ FrameSafe cfg a f := by
  rw [confined_iff]
  cases a with
  | pap p => exact (within_map _ _).trans within_papRecv
  | chapMd5 c => exact (within_map _ _).trans within_chapMd5Recv
  | mschapV2 c => exact (within_map _ _).trans within_mschapV2Recv

/-- A PAP request of seven bytes whose name, of length 0, is the last thing in it. -/
def requestWithoutPassword : Frame where
  mem := fun o ↦ [0xc0, 0x23, 1, 1, 0, 5, 0].getD o 0
  size := 7
  size_le := by decide

/-- **The password of an earlier frame.** The length of the password is read behind the frame, and
is accepted whatever it is. -/
theorem password_read_behind_frame :
    ¬ ∃ (H : Crypto) (cfg : Config) (env : Env),
      ((AuthData.pap (papStart Pap.init)).recv H cfg env requestWithoutPassword.size).Confined
        requestWithoutPassword.mem requestWithoutPassword.size := by
  rintro ⟨H, cfg, env, h⟩
  have hsafe : PapSafe cfg (papStart Pap.init) requestWithoutPassword :=
    within_papRecv.mp ((within_map _ _).mp h.1)
  obtain ⟨-, hname | hpass⟩ := hsafe (by decide) rfl rfl rfl
  · exact absurd hname (by decide)
  · exact absurd hpass.1 (by decide)

end AccelPpp.Auth
