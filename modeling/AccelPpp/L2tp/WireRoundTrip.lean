import AccelPpp.L2tp.Wire

/-!
# Control packets come back

What `l2tp_recv` makes of a packet that `l2tp_packet_send` has sent, compared with what the calls
that made the packet were given.

A packet comes back if it is laid out from the values that were stored and if each hidden attribute
is deciphered with the random vector it was enciphered with. `l2tp_recv` takes the last
Random-Vector attribute before it; `encode_attr` takes the one the packet got when an attribute was
first hidden, also when a call has added another Random-Vector since (`AttrOk`). A hidden string of
`2 ^ 16` bytes or more loses all but the rest of its length modulo `2 ^ 16`.

The comparison is for every MD5 at once, since for one MD5 two random vectors may lead to the same
key. That a packet comes back whatever MD5 is, is then a property of the calls alone (`Alike`).
-/

open Nat UInt8
open Option (bind_eq_some_iff map_eq_some_iff some.inj)

namespace AccelPpp.L2tp.Wire

open ChainCipher BigEndian

section

open List

variable {md5 md5' : Digest} {d : Dict} {secret : List UInt8} {a : OutAttr}
  {rv : Option (List UInt8)}
  {val : List UInt8} {permissive : Bool}

/-! ### One AVP -/

lemma ofBytes_toBytes_two {v : ℕ} (hv : v < 65536) :
    ofBytes [.ofNat (v / 256 ^ 1), .ofNat (v / 256 ^ 0)] = v :=
  (ofBytes_toBytes 2 v).trans (mod_eq_of_lt hv)

/-- The flags of a header, taken apart. -/
lemma flags_eq {M H : Bool} {len : ℕ} (hlen : len < 1024) :
    let flags := (if M then 32768 else 0) + (if H then 16384 else 0) + len % 1024
    flags < 65536 ∧ flags % 1024 = len ∧ decide (flags / 32768 % 2 = 1) = M ∧
      decide (flags / 16384 % 2 = 1) = H := by
  cases M <;> cases H <;> simp only [decide_eq_true_eq, decide_eq_false_iff_not] <;>
    refine ⟨?_, ?_, ?_, ?_⟩ <;> simp <;> omega

/-- The AVP at the front is the one that was laid out there. -/
lemma cutAvp_layout (hid : a.attr.id < 65536) (hlen : avpSize + a.length ≤ avpLenMask)
    (hval : val.length = a.length) (rest : List UInt8) :
    cutAvp (avpHeader a ++ val ++ rest) = some (⟨a.M, a.H, 0, .ofNat a.attr.id, val⟩, rest) := by
  rw [avpSize] at hlen
  obtain ⟨hflags, hlow, hM, hH⟩ := flags_eq (lt_succ_of_le hlen)
  rw [avpHeader, avpLenMask, avpSize]
  generalize (if a.M then 32768 else 0) + (if a.H then 16384 else 0) + (6 + a.length) % (1023 + 1) =
    flags at *
  show cutAvp (ofNat (flags / 256 ^ 1) :: ofNat (flags / 256 ^ 0) ::
    ofNat (0 / 256 ^ 1) :: ofNat (0 / 256 ^ 0) :: ofNat (a.attr.id / 256 ^ 1) ::
    ofNat (a.attr.id / 256 ^ 0) :: (val ++ rest)) = _
  rw [cutAvp, ofBytes_toBytes_two hflags, ofBytes_toBytes_two hid,
    ofBytes_toBytes_two (by decide), avpLenMask, avpSize, hlow,
    if_neg (by omega), if_neg (by simp only [length_cons, length_append]; omega),
    Nat.add_sub_cancel_left, ← hval, take_left, drop_left]
  exact congrArg some (Prod.ext (by rw [← hM, ← hH]) rfl)

/-! ### What the calls make -/

/-- The bytes of a stored value, in network byte order. -/
def OutVal.toList : OutVal → List UInt8
  | .int16 v => toBytes 2 v.toNat
  | .int32 v => toBytes 4 v.toNat
  | .int64 v => toBytes 8 v.toNat
  | .bytes b => b

/-- The part of a value that is enciphered. -/
def hiddenPart (given : List UInt8) : List UInt8 := given.take (given.length % 65536)

variable {given : List UInt8} {type : AttrType} {attrs : List OutAttr} {p q : Pack} {id : ℕ}
  {M : Bool}

lemma hiddenPart_eq (h : given.length < 65536) : hiddenPart given = given := by
  rw [hiddenPart, mod_eq_of_lt h, take_length]

/-- An attribute as the calls make it. -/
structure Made (md5 : Digest) (d : Dict) (secret : List UInt8) (a : OutAttr) : Prop where
  found : d.findAttrById a.attr.id = some a.attr
  M : ∀ m, a.attr.M = some m → a.M = m
  H : ∀ h, a.attr.H = some h → a.H = h
  clear : a.H = false → a.val.toList = a.given ∧ a.length = a.given.length
  hidden : a.H = true → secret ≠ [] ∧ ∃ rv pad octets, a.hiddenWith = some rv ∧
    a.val = .bytes octets ∧ a.length = octets.length ∧ octets.length ≤ avpLenMask - avpSize ∧
    octets = encipher md5 secret rv (.ofNat a.attr.id)
      (toBytes 2 (hiddenPart a.given).length ++ hiddenPart a.given ++ pad)

lemma length_clearBytes {v : OutVal} (h : clearBytes type v.toList.length v = some val) :
    val.length = v.toList.length := by
  cases type <;> cases v <;> cases h <;> simp [OutVal.toList]

section

variable (h : Made md5 d secret a)

include h

lemma Made.mem : a.attr ∈ d.items := mem_of_find?_eq_some h.found

lemma Made.id_lt : a.attr.id < 65536 := d.id_lt a.attr h.mem

lemma Made.valueBytes_hidden (hH : a.H = true) : valueBytes a = some a.val.toList := by
  obtain ⟨-, rv, pad, octets, -, hoctets, -⟩ := h.hidden hH
  rw [valueBytes, if_pos hH, hoctets]
  rfl

lemma length_valueBytes (hval : valueBytes a = some val) : val.length = a.length := by
  rcases hH : a.H with _ | _
  · obtain ⟨hlist, hlength⟩ := h.clear hH
    rw [valueBytes, hH, hlength, ← hlist] at hval
    rw [hlength, ← hlist]
    exact length_clearBytes hval
  · obtain ⟨-, rv, pad, octets, -, hoctets, hlength, -⟩ := h.hidden hH
    rw [h.valueBytes_hidden hH, hoctets] at hval
    obtain rfl := some.inj hval
    exact hlength.symm

end

/-! ### One attribute -/

/-- What the type asks of a value. -/
def Takes : AttrType → List UInt8 → Prop
  | .none, val => val = []
  | .int16, val => val.length = 2
  | .int32, val => val.length = 4
  | .int64, val => val.length = 8
  | .octets, _ | .string, _ => True

/-- An attribute as it was given to a call. -/
def OutAttr.view (a : OutAttr) : DictAttr × Bool × ℕ × List UInt8 :=
  (a.attr, a.M, a.given.length, a.given)

/-- An attribute as it was received. -/
def InAttr.view (a : InAttr) : DictAttr × Bool × ℕ × List UInt8 :=
  (a.attr, a.M, a.length, a.val.toList)

variable {v : List UInt8}

/-- A number of `n` bytes is received as it was sent. -/
lemma recvInt_iff {n : ℕ} (mk : ℕ → InVal) (hmk : ∀ k, (mk k).toList = toBytes n (k % 256 ^ n)) :
    (∃ x, (if v.length = n then some (mk (ofBytes v)) else none) = some x ∧
      v.length = given.length ∧ x.toList = given) ↔ v = given ∧ given.length = n := by
  have hback : v.length = n → (mk (ofBytes v)).toList = v := by
    rintro rfl
    rw [hmk, mod_eq_of_lt (ofBytes_lt v), toBytes_ofBytes]
  constructor
  · rintro ⟨x, hx, -, hlist⟩
    split at hx
    · next hv =>
      obtain rfl := some.inj hx
      obtain rfl : v = given := (hback hv).symm.trans hlist
      exact ⟨rfl, hv⟩
    · nomatch hx
  · rintro ⟨rfl, hv⟩
    exact ⟨_, if_pos hv, rfl, hback hv⟩

/-- A value that is received is the one that was sent if and only if its bytes are and the type
takes them. -/
lemma recvValue_iff :
    (∃ x, recvValue type v = some x ∧ v.length = given.length ∧ x.toList = given) ↔
      v = given ∧ Takes type given := by
  cases type with
  | none =>
    constructor
    · rintro ⟨x, hx, hlength, hlist⟩
      obtain rfl := some.inj hx
      rw [← hlist] at hlength ⊢
      exact ⟨eq_nil_of_length_eq_zero hlength, rfl⟩
    · rintro ⟨rfl, rfl⟩
      exact ⟨.none, rfl, rfl, rfl⟩
  | int16 => exact recvInt_iff (fun k ↦ .int16 (.ofNat k)) fun _ ↦ rfl
  | int32 => exact recvInt_iff (fun k ↦ .int32 (.ofNat k)) fun _ ↦ rfl
  | int64 => exact recvInt_iff (fun k ↦ .int64 (.ofNat k)) fun _ ↦ rfl
  | octets | string =>
    exact ⟨fun ⟨_, hx, _, hlist⟩ ↦ ⟨by cases hx; exact hlist, trivial⟩,
      fun ⟨h, _⟩ ↦ ⟨_, rfl, by rw [h], h⟩⟩

/-- The AVP of an attribute. -/
def OutAttr.avp (a : OutAttr) (val : List UInt8) : Avp := ⟨a.M, a.H, 0, .ofNat a.attr.id, val⟩

/-- The dictionary that the attribute was made with finds nothing wrong with it. -/
lemma recvAvp_made (h : Made md5 d secret a) (permissive : Bool) :
    recvAvp md5 d permissive secret rv (a.avp val) =
      (avpValue md5 secret rv (a.avp val)).bind fun v ↦
        (recvValue a.attr.type v).map fun x ↦ some ⟨a.attr, a.M, v.length, x⟩ := by
  have hid : (UInt16.ofNat a.attr.id).toNat = a.attr.id :=
    (UInt16.toNat_ofNat').trans (mod_eq_of_lt h.id_lt)
  have hflags : ¬ (a.attr.M = some (!a.M) ∨ a.attr.H = some (!a.H)) := by
    rintro (hM | hH)
    · exact Bool.not_ne_self a.M (h.M _ hM).symm
    · exact Bool.not_ne_self a.H (h.H _ hH).symm
  rw [recvAvp, OutAttr.avp, if_neg (fun hf ↦ hf rfl)]
  rw [hid, h.found]
  dsimp only
  rw [if_neg fun hf ↦ hflags hf.2]
  cases avpValue md5 secret rv ⟨a.M, a.H, 0, .ofNat a.attr.id, val⟩ <;> rfl

/-- The attribute is received as it was given to the call: its value comes out of the AVP, and the
type takes it. -/
def Comes (md5 : Digest) (secret : List UInt8) (rv : Option (List UInt8)) (a : OutAttr) : Prop :=
  ((valueBytes a).bind fun val ↦ avpValue md5 secret rv (a.avp val)) = some a.given ∧
    Takes a.attr.type a.given

/-- **One attribute.** -/
theorem comes_iff (h : Made md5 d secret a) {permissive : Bool} :
    (∃ val x, valueBytes a = some val ∧
      recvAvp md5 d permissive secret rv (a.avp val) = some (some x) ∧ x.view = a.view) ↔
      Comes md5 secret rv a := by
  constructor
  · rintro ⟨val, x, hval, hx, hview⟩
    rw [recvAvp_made h, bind_eq_some_iff] at hx
    obtain ⟨v, hv, hx⟩ := hx
    obtain ⟨y, hy, hxy⟩ := map_eq_some_iff.mp hx
    obtain rfl := some.inj hxy
    obtain ⟨-, -, hlength, hlist⟩ : _ ∧ _ ∧ v.length = a.given.length ∧ y.toList = a.given := by
      simpa only [InAttr.view, OutAttr.view, Prod.mk.injEq] using hview
    obtain ⟨rfl, htakes⟩ := recvValue_iff.mp ⟨y, hy, hlength, hlist⟩
    exact ⟨by rw [hval]; exact hv, htakes⟩
  · rintro ⟨hcomes, htakes⟩
    obtain ⟨val, hval, hv⟩ := bind_eq_some_iff.mp hcomes
    obtain ⟨y, hy, hlength, hlist⟩ := recvValue_iff.mpr ⟨rfl, htakes⟩
    refine ⟨val, ⟨a.attr, a.M, a.given.length, y⟩, hval, ?_, ?_⟩
    · rw [recvAvp_made h, hv]
      show (recvValue a.attr.type a.given).map _ = _
      rw [hy]
      rfl
    · rw [InAttr.view, OutAttr.view, hlist]

/-! ### All attributes -/

/-- The layout of some attributes. -/
def layout : List OutAttr → Option (List UInt8)
  | [] => some []
  | a :: attrs => (valueBytes a).bind fun val ↦ (layout attrs).map fun avps ↦
      avpHeader a ++ val ++ avps

/-- The random vector that holds for what comes after an attribute. -/
def nextRv (rv : Option (List UInt8)) (a : OutAttr) : Option (List UInt8) :=
  if a.attr.id = randomVector then some a.given else rv

lemma nextRv_eq {x : InAttr} (h : x.view = a.view) :
    (if x.attr.id = randomVector then some x.val.toList else rv) = nextRv rv a := by
  obtain ⟨hattr, -, -, hlist⟩ : x.attr = a.attr ∧ _ ∧ _ ∧ x.val.toList = a.given := by
    simpa only [InAttr.view, OutAttr.view, Prod.mk.injEq] using h
  rw [nextRv, hattr, hlist]

/-- `P` holds of each attribute, with the random vector that holds for it. -/
def Each (P : Option (List UInt8) → OutAttr → Prop) : Option (List UInt8) → List OutAttr → Prop
  | _, [] => True
  | rv, a :: attrs => P rv a ∧ Each P (nextRv rv a) attrs

/-- One turn of the loop of `l2tp_recv`. -/
lemma recvLoop_layout (h : Made md5 d secret a) (hlen : avpSize + a.length ≤ avpLenMask)
    (hval : valueBytes a = some val) (permissive : Bool) (turns : ℕ) (avps : List UInt8) :
    recvLoop md5 d permissive secret (turns + 1) rv (avpHeader a ++ val ++ avps) =
      (recvAvp md5 d permissive secret rv (a.avp val)).bind fun x ↦
        match x with
        | none => recvLoop md5 d permissive secret turns rv avps
        | some x => (recvLoop md5 d permissive secret turns
            (if x.attr.id = randomVector then some x.val.toList else rv) avps).map fun attrs ↦
              x :: attrs := by
  rw [recvLoop, cutAvp_layout h.id_lt hlen (length_valueBytes h hval)]
  dsimp only
  rw [OutAttr.avp]
  cases recvAvp md5 d permissive secret rv ⟨a.M, a.H, 0, .ofNat a.attr.id, val⟩ with
  | none => rfl
  | some x => cases x <;> rfl

/-- **The loop of `l2tp_recv`**, by induction on the attributes: they are all received as they were
given to the calls if and only if each is. -/
theorem recvLoop_iff (rv : Option (List UInt8)) (hmade : ∀ a ∈ attrs, Made md5 d secret a)
    (hfit : ∀ a ∈ attrs, avpSize + a.length ≤ avpLenMask) (permissive : Bool) {turns : ℕ}
    (hturns : attrs.length ≤ turns) :
    (∃ avps ins, layout attrs = some avps ∧
      recvLoop md5 d permissive secret turns rv avps = some ins ∧
      ins.map InAttr.view = attrs.map OutAttr.view) ↔ Each (Comes md5 secret) rv attrs := by
  induction attrs generalizing rv turns with
  | nil =>
    refine ⟨fun _ ↦ trivial, fun _ ↦ ⟨[], [], rfl, ?_, rfl⟩⟩
    cases turns <;> rw [recvLoop, if_pos rfl]
  | cons a attrs ih =>
    obtain ⟨turns, rfl⟩ := Nat.exists_eq_add_of_le' (Nat.lt_of_lt_of_le (Nat.zero_lt_succ _) hturns)
    obtain ⟨ha, hmade⟩ := forall_mem_cons.mp hmade
    obtain ⟨hlen, hfit⟩ := forall_mem_cons.mp hfit
    have hrest := ih (nextRv rv a) hmade hfit (Nat.le_of_succ_le_succ hturns)
    rw [Each, ← comes_iff ha, ← hrest, layout]
    constructor
    · rintro ⟨bytes, ins, hlayout, hrecv, hview⟩
      obtain ⟨val, hval, hrest⟩ := bind_eq_some_iff.mp hlayout
      obtain ⟨avps, havps, rfl⟩ := map_eq_some_iff.mp hrest
      rw [recvLoop_layout ha hlen hval, bind_eq_some_iff] at hrecv
      obtain ⟨x, hx, hloop⟩ := hrecv
      cases x with
      | none =>
        rw [recvAvp_made ha] at hx
        obtain ⟨v, -, hv⟩ := bind_eq_some_iff.mp hx
        obtain ⟨y, -, hy⟩ := map_eq_some_iff.mp hv
        nomatch hy
      | some x =>
        obtain ⟨ins, hins, rfl⟩ := map_eq_some_iff.mp hloop
        obtain ⟨hhead, htail⟩ := cons.inj hview
        rw [nextRv_eq hhead] at hins
        exact ⟨⟨val, x, hval, hx, hhead⟩, avps, ins, havps, hins, htail⟩
    · rintro ⟨⟨val, x, hval, hx, hview⟩, avps, ins, havps, hloop, hviews⟩
      refine ⟨avpHeader a ++ val ++ avps, x :: ins, by rw [hval, havps]; rfl, ?_, ?_⟩
      · rw [recvLoop_layout ha hlen hval, hx]
        show Option.map _ _ = _
        rw [nextRv_eq hview, hloop]
        rfl
      · rw [map_cons, map_cons, hview, hviews]

/-! ### The packet -/

/-- The AVPs and the packet are within their limits. -/
def Fits (attrs : List OutAttr) (len : ℕ) : Prop :=
  (∀ a ∈ attrs, avpSize + a.length ≤ avpLenMask) ∧ len + avpsSize attrs < maxPacketSize

instance (attrs : List OutAttr) (len : ℕ) : Decidable (Fits attrs len) :=
  inferInstanceAs (Decidable (_ ∧ _))

lemma avpsSize_cons : avpsSize (a :: attrs) = avpSize + a.length + avpsSize attrs :=
  sum_cons

/-- **The loop of `l2tp_packet_send`** lays out what fits and refuses what does not. -/
theorem sendLoop_eq {attrs : List OutAttr} {len : ℕ} (hlen : len < maxPacketSize) :
    sendLoop attrs len =
      if Fits attrs len then (layout attrs).elim .garbled .datagram else .refused := by
  induction attrs generalizing len with
  | nil => exact (if_pos ⟨nofun, hlen⟩).symm
  | cons a attrs ih =>
    rw [sendLoop]
    split
    · next hbig =>
      refine (if_neg fun hfit ↦ ?_).symm
      have hlt := hfit.2
      rw [avpsSize_cons] at hlt
      omega
    next hsmall =>
    split
    · next hlong =>
      exact (if_neg fun hfit ↦ Nat.not_le_of_lt hlong (hfit.1 a mem_cons_self)).symm
    next hshort =>
    have hiff : Fits (a :: attrs) len ↔ Fits attrs (len + avpSize + a.length) := by
      rw [Fits, forall_mem_cons, avpsSize_cons, and_iff_right (Nat.le_of_not_lt hshort)]
      refine and_congr_right fun _ ↦ ?_
      rw [← add_assoc, ← add_assoc]
    rw [ih (Nat.lt_of_not_le hsmall)]
    by_cases hfit : Fits attrs (len + avpSize + a.length)
    · rw [if_pos hfit, if_pos (hiff.mpr hfit), layout]
      cases layout attrs <;> cases valueBytes a <;> rfl
    · rw [if_neg hfit, if_neg fun hf ↦ hfit (hiff.mp hf)]

variable {avps : List UInt8}

lemma length_layout (hmade : ∀ a ∈ attrs, Made md5 d secret a) (h : layout attrs = some avps) :
    avps.length = avpsSize attrs := by
  induction attrs generalizing avps with
  | nil =>
    obtain rfl := some.inj h
    rfl
  | cons a attrs ih =>
    obtain ⟨val, hval, hrest⟩ := bind_eq_some_iff.mp h
    obtain ⟨avps, havps, rfl⟩ := map_eq_some_iff.mp hrest
    obtain ⟨ha, hmade⟩ := forall_mem_cons.mp hmade
    rw [length_append, length_append, length_valueBytes ha hval, ih hmade havps]
    rfl

/-- **The header** of a packet says where the AVPs are. -/
theorem recv_header {pack : Pack} (hlength : avps.length = avpsSize pack.attrs)
    (hfit : hdrSize + avpsSize pack.attrs < maxPacketSize) :
    recv md5 d permissive secret (header pack ++ avps) =
      if pack.ver % 16 = 2 ∨ pack.ver % 16 = 3 then
        (recvLoop md5 d permissive secret (hdrSize + avpsSize pack.attrs) none avps).map
          fun attrs ↦ (pack.ids.toList, attrs)
      else none := by
  have hids : pack.ids.toList.length = 8 := Vector.length_toList
  have hver := mod_lt pack.ver (show 0 < 16 by decide)
  rw [← hlength] at hfit
  rw [header, hdrSize, ← hlength]
  generalize pack.ver % 16 = v at *
  generalize pack.ids.toList = ids at *
  have hver' : ofBytes (toBytes 2 (32768 + 16384 + 2048 + v)) = 51200 + v := by
    rw [ofBytes_toBytes]
    exact mod_eq_of_lt (by omega)
  have hlen : ofBytes (toBytes 2 (12 + avps.length)) = 12 + avps.length := by
    rw [ofBytes_toBytes]
    exact mod_eq_of_lt hfit
  have htwo := length_toBytes 2 (32768 + 16384 + 2048 + v)
  have htwo' := length_toBytes 2 (12 + avps.length)
  generalize toBytes 2 (32768 + 16384 + 2048 + v) = flags at *
  generalize toBytes 2 (12 + avps.length) = size at *
  -- the fields of the header
  have hfour : (flags ++ size).length = 4 := by rw [length_append, htwo, htwo']
  have hflags : ofBytes ((flags ++ size ++ ids ++ avps).take 2) = 51200 + v := by
    rw [append_assoc, append_assoc, take_left' htwo, hver']
  have hsize : ofBytes (((flags ++ size ++ ids ++ avps).drop 2).take 2) = 12 + avps.length := by
    rw [append_assoc, append_assoc, drop_left' htwo, take_left' htwo', hlen]
  have hrest : (flags ++ size ++ ids ++ avps).drop 12 = avps :=
    drop_left' (by rw [length_append, hfour, hids])
  have hcopied : ((flags ++ size ++ ids ++ avps).drop 4).take 8 = ids := by
    rw [append_assoc, drop_left' hfour, take_left' hids]
  have htotal : (flags ++ size ++ ids ++ avps).length = 12 + avps.length := by
    rw [length_append, length_append, hfour, hids]
  rw [recv, hdrSize]
  rw [hsize, hrest, hcopied, if_neg (by omega), if_neg (by omega),
    Nat.add_sub_cancel_left, take_length]
  by_cases hv : v = 2 ∨ v = 3
  · rw [if_neg (by omega), if_neg (by omega), if_pos hv]
  · rw [if_pos (by omega), if_neg hv]

/-- What is sent comes back: the header's fields that are copied, and the attributes as they were
given to the calls, in the same order. -/
def RoundTrips (md5 : Digest) (d : Dict) (permissive : Bool) (pack : Pack) : Prop :=
  match packetSend pack with
  | .refused => True
  | .garbled => False
  | .datagram bytes => ∃ attrs,
      recv md5 d permissive pack.secret bytes = some (pack.ids.toList, attrs) ∧
        attrs.map InAttr.view = pack.attrs.map OutAttr.view

lemma length_le_avpsSize (attrs : List OutAttr) : attrs.length ≤ avpsSize attrs := by
  induction attrs with
  | nil => exact le_rfl
  | cons a attrs ih =>
    rw [avpsSize_cons, length_cons, avpSize]
    omega

/-- **A packet.** -/
theorem roundTrips_iff_comes {pack : Pack} (hmade : ∀ a ∈ pack.attrs, Made md5 d pack.secret a) :
    RoundTrips md5 d permissive pack ↔ (Fits pack.attrs hdrSize →
      (pack.ver % 16 = 2 ∨ pack.ver % 16 = 3) ∧ Each (Comes md5 pack.secret) none pack.attrs) := by
  rw [RoundTrips, packetSend, sendLoop_eq (show hdrSize < maxPacketSize by decide)]
  by_cases hfit : Fits pack.attrs hdrSize
  · rw [if_pos hfit, forall_prop_of_true hfit]
    have hloop := recvLoop_iff none hmade hfit.1 permissive
      ((length_le_avpsSize pack.attrs).trans (le_add_left _ hdrSize))
    rcases hlayout : layout pack.attrs with _ | avps
    · -- something is sent that is not known
      refine ⟨nofun, fun ⟨_, heach⟩ ↦ ?_⟩
      obtain ⟨avps, -, havps, -⟩ := hloop.mpr heach
      nomatch hlayout.symm.trans havps
    show (∃ attrs, recv md5 d permissive pack.secret (header pack ++ avps) = _ ∧ _) ↔ _
    rw [recv_header (length_layout hmade hlayout) hfit.2, ← hloop]
    by_cases hver : pack.ver % 16 = 2 ∨ pack.ver % 16 = 3
    · rw [if_pos hver, and_iff_right hver]
      constructor
      · rintro ⟨attrs, hrecv, hview⟩
        obtain ⟨ins, hins, heq⟩ := map_eq_some_iff.mp hrecv
        obtain rfl := (Prod.mk.inj heq).2
        exact ⟨avps, ins, hlayout, hins, hview⟩
      · rintro ⟨avps', ins, havps, hins, hview⟩
        obtain rfl := Option.mem_unique hlayout havps
        exact ⟨ins, by rw [hins]; rfl, hview⟩
    · rw [if_neg hver]
      exact ⟨fun ⟨_, hf, _⟩ ↦ (nomatch hf), fun hf ↦ (hver hf.1).elim⟩
  · rw [if_neg hfit]
    exact ⟨fun _ hf ↦ (hfit hf).elim, fun _ ↦ trivial⟩

/-! ### What the calls have to see to -/

/-- The value is stored through the member that belongs to the type. -/
def Stored : AttrType → OutVal → Prop
  | .none, .bytes b => b = []
  | .int16, .int16 _ | .int32, .int32 _ | .int64, .int64 _ => True
  | .octets, .bytes _ | .string, .bytes _ => True
  | _, _ => False

/-- A hidden attribute is hidden with the random vector that holds for it, has less than `2 ^ 16`
bytes, and its type takes them; any other is stored as its type wants it. -/
def AttrOk (rv : Option (List UInt8)) (a : OutAttr) : Prop :=
  if a.H then a.hiddenWith = rv ∧ a.given.length < 65536 ∧ Takes a.attr.type a.given
  else Stored a.attr.type a.val

lemma clearBytes_iff {v : OutVal} :
    clearBytes type v.toList.length v = some v.toList ∧ Takes type v.toList ↔ Stored type v := by
  cases type <;> cases v <;>
    simp [clearBytes, Takes, Stored, OutVal.toList, toBytes]
  rintro rfl
  rfl

lemma comes_clear_iff (h : Made md5 d secret a) (hH : a.H = false) :
    Comes md5 secret rv a ↔ AttrOk rv a := by
  obtain ⟨hlist, hlength⟩ := h.clear hH
  have hvalue : ((valueBytes a).bind fun val ↦ avpValue md5 secret rv (a.avp val)) =
      clearBytes a.attr.type a.val.toList.length a.val := by
    rw [valueBytes, hH, hlength, hlist]
    show (clearBytes a.attr.type a.given.length a.val).bind _ = _
    simp only [avpValue, OutAttr.avp, hH]
    cases clearBytes a.attr.type a.given.length a.val <;> rfl
  rw [Comes, hvalue, AttrOk, hH, ← hlist]
  exact clearBytes_iff

lemma comes_of_attrOk (h : Made md5 d secret a) (hH : a.H = true) (hok : AttrOk rv a) :
    Comes md5 secret rv a := by
  rw [AttrOk, if_pos hH] at hok
  obtain ⟨hrv, hlt, htakes⟩ := hok
  obtain ⟨hsecret, r, pad, octets, hwith, hval, -, -, hoctets⟩ := h.hidden hH
  rw [hiddenPart_eq hlt] at hoctets
  obtain ⟨body, hdecode, -, hbody⟩ :=
    decodeAvp_encipher md5 secret r (.ofNat a.attr.id) a.given hlt pad
  refine ⟨?_, htakes⟩
  rw [h.valueBytes_hidden hH, hval, ← hrv, hwith]
  show avpValue md5 secret (some r) (a.avp octets) = _
  rw [avpValue, OutAttr.avp, if_pos hH]
  rw [if_neg hsecret, hoctets, hdecode]
  exact congrArg some hbody

/-- An MD5 that tells one input from all others. -/
def telling (input : List UInt8) : Digest := fun x ↦
  if x = input then Vector.replicate 16 1 else Vector.replicate 16 0

/-- What MD5 gets for the first block of an attribute. -/
abbrev firstInput (attr : DictAttr) (secret rv : List UInt8) : List UInt8 :=
  toBytes 2 (UInt16.ofNat attr.id).toNat ++ secret ++ rv

lemma digest_telling {input x : List UInt8} :
    digest (telling input) x 0 = if x = input then 1 else 0 := by
  rw [digest, telling]
  split
  · decide
  · decide

/-- **A hidden attribute that comes**, for an MD5 that tells the random vector that holds for it
from all others, is in order. -/
theorem attrOk_of_comes {r : List UInt8} (hH : a.H = true)
    (hmd5 : telling (firstInput a.attr secret r) = md5) (h : Made md5 d secret a)
    (hcomes : Comes md5 secret (some r) a) : AttrOk (some r) a := by
  obtain ⟨hvalue, htakes⟩ := hcomes
  obtain ⟨hsecret, r₀, pad, octets, hwith, hval, -, hmax, hoctets⟩ := h.hidden hH
  rw [h.valueBytes_hidden hH, hval] at hvalue
  replace hvalue : avpValue _ secret (some r) (a.avp octets) = some a.given := hvalue
  rw [avpValue, OutAttr.avp, if_pos hH] at hvalue
  dsimp only at hvalue
  rw [if_neg hsecret] at hvalue
  obtain ⟨⟨n, body⟩, hdecode, hgiven⟩ := map_eq_some_iff.mp hvalue
  obtain ⟨hn, hbody⟩ := length_le_of_decodeAvp hdecode
  have hlength : a.given.length = n := by
    rw [← hgiven, length_take, length_drop, hbody]
    omega
  have hlt : a.given.length < 65536 := by
    rw [avpLenMask] at hmax
    omega
  rw [hiddenPart_eq hlt] at hoctets
  rw [AttrOk, if_pos hH, hwith]
  refine ⟨congrArg some (by_contra fun hne ↦ ?_), hlt, htakes⟩
  -- another vector leaves the first byte as it is, and the length comes out with another high byte
  have hkey : firstKey md5 secret r (.ofNat a.attr.id) 0 = 1 :=
    hmd5 ▸ digest_telling.trans (if_pos rfl)
  have hkey₀ : firstKey md5 secret r₀ (.ofNat a.attr.id) 0 = 0 :=
    hmd5 ▸ digest_telling.trans (if_neg fun hf ↦ hne (append_cancel_left hf))
  have hfirst := (encipher_ciphered md5 secret r₀ (.ofNat a.attr.id)
    (toBytes 2 a.given.length ++ a.given ++ pad)).first 0 (by decide) (zero_lt_succ _)
  rw [hkey₀, UInt8.xor_zero, ← hoctets] at hfirst
  have hhigh := high_of_decodeAvp hdecode
  rw [hkey, hfirst, hlength] at hhigh
  have hbyte : UInt8.ofNat (n / 256) = UInt8.ofNat (n / 256) ^^^ 1 := by
    conv_lhs => rw [hhigh]
    exact UInt8.ofNat_toNat
  exact absurd ((UInt8.xor_right_inj _).mp ((UInt8.xor_zero).trans hbyte)) (by decide)

/-! ### The same calls with another MD5 -/

/-- An attribute without the bytes that depend on MD5. -/
def OutAttr.erase (a : OutAttr) : OutAttr :=
  { a with val := if a.H then .bytes [] else a.val }

lemma attrOk_erase : AttrOk rv a.erase ↔ AttrOk rv a := by
  rw [AttrOk, AttrOk, OutAttr.erase]
  split
  · exact Iff.rfl
  · exact Iff.rfl

/-- If not every attribute is in order, there is an MD5 for which the attributes do not come back.
-/
lemma exists_not_comes {d : Dict} {secret : List UInt8} (hnot : ¬ Each AttrOk rv attrs) :
    ∃ md5, ∀ attrs' : List OutAttr, attrs'.map OutAttr.erase = attrs.map OutAttr.erase →
      (∀ a ∈ attrs', Made md5 d secret a) → ¬ Each (Comes md5 secret) rv attrs' := by
  induction attrs generalizing rv with
  | nil => exact (hnot trivial).elim
  | cons a attrs ih =>
    by_cases hok : AttrOk rv a
    · obtain ⟨md5, hmd5⟩ := ih fun htail ↦ hnot ⟨hok, htail⟩
      refine ⟨md5, fun attrs' heq hmade heach ↦ ?_⟩
      obtain ⟨a', attrs', rfl, ha, hattrs⟩ := map_eq_cons_iff.mp heq
      have hnext : nextRv rv a' = nextRv rv a := by
        show nextRv rv a'.erase = nextRv rv a.erase
        rw [ha]
      rw [Each, hnext] at heach
      exact hmd5 attrs' hattrs (forall_mem_cons.mp hmade).2 heach.2
    · -- the first attribute fails for an MD5 that tells the random vector
      refine ⟨telling (firstInput a.attr secret (rv.getD [])), fun attrs' heq hmade heach ↦
        hok ?_⟩
      obtain ⟨a', attrs', rfl, ha, -⟩ := map_eq_cons_iff.mp heq
      have hmade := hmade a' mem_cons_self
      rw [← attrOk_erase, ← ha, attrOk_erase]
      rcases hH : a'.H with _ | _
      · exact (comes_clear_iff hmade hH).mp heach.1
      have hid : a'.erase.attr = a.erase.attr := congrArg OutAttr.attr ha
      replace hid : a'.attr = a.attr := hid
      rw [← hid] at hmade heach
      cases rv with
      | none =>
        -- a hidden attribute needs a random vector
        obtain ⟨hvalue, -⟩ := heach.1
        rw [hmade.valueBytes_hidden hH, Option.bind_some, avpValue, OutAttr.avp,
          if_pos hH] at hvalue
        nomatch hvalue
      | some r => exact attrOk_of_comes hH rfl hmade heach.1

/-- Packets that differ at most in the bytes that depend on MD5. -/
structure Alike (p q : Pack) : Prop where
  ver : q.ver = p.ver
  ids : q.ids = p.ids
  lastRV : q.lastRV = p.lastRV
  secret : q.secret = p.secret
  hideAvps : q.hideAvps = p.hideAvps
  attrs : q.attrs.map OutAttr.erase = p.attrs.map OutAttr.erase

lemma Alike.refl (p : Pack) : Alike p p := ⟨rfl, rfl, rfl, rfl, rfl, rfl⟩

/-- An attribute is added to each. -/
lemma map_erase_append {as bs : List OutAttr} {a b : OutAttr}
    (h : bs.map OutAttr.erase = as.map OutAttr.erase) (hab : b.erase = a.erase) :
    (bs ++ [b]).map OutAttr.erase = (as ++ [a]).map OutAttr.erase := by
  rw [map_append, map_append, h, map_singleton, map_singleton, hab]

variable {md5' : Digest}

lemma addAttr_alike {p' : Pack} {env : CallEnv} {hidden : List UInt8}
    {clear : Option (ℕ × OutVal)} (h : Alike p q)
    (hp : addAttr md5 d p env id M given hidden clear = some p') :
    ∃ q', addAttr md5' d q env id M given hidden clear = some q' ∧ Alike p' q' := by
  unfold addAttr at hp ⊢
  rw [h.hideAvps, h.lastRV]
  split at hp
  · nomatch hp
  · next da M' halloc =>
    split at hp
    · nomatch hp
    next p₁ hp₁ =>
    -- the random vector is the same
    obtain ⟨q₁, hq₁, h₁⟩ : ∃ q₁, (if p.lastRV = none then addRandomVector d q env.rv else some q) =
        some q₁ ∧ Alike p₁ q₁ := by
      split at hp₁
      · next hnone =>
        rw [if_pos hnone]
        unfold addRandomVector at hp₁ ⊢
        split at hp₁
        · obtain rfl := some.inj hp₁
          exact ⟨_, rfl, h.ver, h.ids, rfl, h.secret, h.hideAvps, map_erase_append h.attrs rfl⟩
        · nomatch hp₁
      · next hsome =>
        obtain rfl := some.inj hp₁
        exact ⟨q, if_neg hsome, h⟩
    rw [hq₁]
    dsimp only
    obtain ⟨octets, hoctets, rfl⟩ := map_eq_some_iff.mp hp
    obtain ⟨⟨rv, text⟩, htext, rfl⟩ := map_eq_some_iff.mp hoctets
    rw [encodeAttr, h₁.secret, h₁.lastRV, htext]
    refine ⟨_, rfl, h₁.ver, h₁.ids, rfl, rfl, h₁.hideAvps, map_erase_append h₁.attrs ?_⟩
    simp only [OutAttr.erase, length_encipher, if_true]
  · obtain ⟨⟨length, val⟩, hclear, rfl⟩ := map_eq_some_iff.mp hp
    rw [hclear]
    exact ⟨_, rfl, h.ver, h.ids, rfl, h.secret, rfl, map_erase_append h.attrs rfl⟩

/-- **Another MD5** makes the same packet, except for the bytes of hidden values. -/
theorem calls_alike {p' : Pack} {cs : List (Call × Bool × CallEnv)} (h : Alike p q)
    (hp : calls md5 d p cs = some p') : ∃ q', calls md5' d q cs = some q' ∧ Alike p' q' := by
  induction cs generalizing p q with
  | nil =>
    obtain rfl := some.inj hp
    exact ⟨q, rfl, h⟩
  | cons c cs ih =>
    obtain ⟨c, M, env⟩ := c
    obtain ⟨p₁, hp₁, hrest⟩ := bind_eq_some_iff.mp hp
    obtain ⟨q₁, hq₁, h₁⟩ : ∃ q₁, call md5' d q env M c = some q₁ ∧ Alike p₁ q₁ := by
      cases c with
      | int16 id v | int32 id v | int64 id v | string id s => exact addAttr_alike h hp₁
      | octets id val =>
        rw [call, addOctets] at hp₁ ⊢
        split at hp₁
        · nomatch hp₁
        · next hlen =>
          rw [if_neg hlen]
          exact addAttr_alike h hp₁
    obtain ⟨q', hq', h'⟩ := ih h₁ hrest
    exact ⟨q', by rw [calls, hq₁]; exact hq', h'⟩

/-! ### All that the calls make is `Made` -/

lemma attrAlloc_eq_some {H memory M' H' : Bool} {da : DictAttr}
    (h : attrAlloc d id M H memory = some (da, M', H')) :
    d.findAttrById da.id = some da ∧ da ∈ d.items ∧ da.id = id ∧ M' = da.M.getD M ∧
      H' = da.H.getD H := by
  unfold attrAlloc at h
  split at h
  · nomatch h
  next da' hfind =>
  split at h
  · obtain ⟨rfl, hflags⟩ := Prod.mk.inj (some.inj h)
    obtain ⟨rfl, rfl⟩ := Prod.mk.inj hflags
    have hid := find?_some hfind
    obtain rfl : da'.id = id := of_decide_eq_true hid
    exact ⟨hfind, mem_of_find?_eq_some hfind, rfl, rfl, rfl⟩
  · nomatch h

/-- The fields of a packet that no call changes. -/
def SamePack (p q : Pack) : Prop := q.ver = p.ver ∧ q.ids = p.ids ∧ q.secret = p.secret

lemma getD_eq {o : Option Bool} {b m : Bool} (h : o = some m) : o.getD b = m := by rw [h]; rfl

section

variable (hp : ∀ a ∈ p.attrs, Made md5 d p.secret a)

include hp

lemma addRandomVector_made {env : RvEnv} (h : addRandomVector d p env = some q) :
    (∀ a ∈ q.attrs, Made md5 d q.secret a) ∧ SamePack p q := by
  unfold addRandomVector at h
  split at h
  · next da M H rand bytes halloc _ _ _ =>
    obtain rfl := some.inj h
    obtain ⟨hfound, hmem, hid, rfl, rfl⟩ := attrAlloc_eq_some halloc
    obtain ⟨-, hclear⟩ := d.rv da hmem hid
    refine ⟨forall_mem_append.mpr ⟨hp, forall_mem_singleton.mpr ⟨hfound,
      fun _ hM ↦ getD_eq hM, fun _ hH ↦ getD_eq hH, fun _ ↦ ⟨rfl, rfl⟩, fun hH ↦ ?_⟩⟩,
      rfl, rfl, rfl⟩
    nomatch (getD_eq hclear).symm.trans hH
  · nomatch h

lemma addAttr_made {env : CallEnv} {hidden : List UInt8} {clear : Option (ℕ × OutVal)}
    (hhidden : hidden = hiddenPart given) (hclear : ∀ length val, clear = some (length, val) →
      val.toList = given ∧ length = given.length)
    (h : addAttr md5 d p env id M given hidden clear = some q) :
    (∀ a ∈ q.attrs, Made md5 d q.secret a) ∧ SamePack p q := by
  subst hhidden
  unfold addAttr at h
  split at h
  · nomatch h
  · next da M' halloc =>
    obtain ⟨hfound, -, -, rfl, hH⟩ := attrAlloc_eq_some halloc
    split at h
    · nomatch h
    next p₁ hp₁ =>
    obtain ⟨hmade, hsame⟩ : (∀ a ∈ p₁.attrs, Made md5 d p₁.secret a) ∧ SamePack p p₁ := by
      split at hp₁
      · exact addRandomVector_made hp hp₁
      · obtain rfl := some.inj hp₁
        exact ⟨hp, rfl, rfl, rfl⟩
    obtain ⟨octets, hoctets, rfl⟩ := map_eq_some_iff.mp h
    obtain ⟨⟨rv, text⟩, htext, rfl⟩ := map_eq_some_iff.mp hoctets
    obtain ⟨hrv, hsecret, -, hmax, pad, rfl⟩ := hiddenSubformat_eq_some htext
    exact ⟨forall_mem_append.mpr ⟨hmade, forall_mem_singleton.mpr ⟨hfound,
      fun _ hM ↦ getD_eq hM, fun _ hh ↦ hH.trans (getD_eq hh), nofun, fun _ ↦ ⟨hsecret, rv, pad, _,
        hrv, rfl, rfl, (length_encipher _ _ _ _ _).trans_le hmax, rfl⟩⟩⟩, hsame⟩
  · next da M' halloc =>
    obtain ⟨hfound, -, -, rfl, hH⟩ := attrAlloc_eq_some halloc
    obtain ⟨⟨length, val⟩, hval, rfl⟩ := map_eq_some_iff.mp h
    exact ⟨forall_mem_append.mpr ⟨hp, forall_mem_singleton.mpr ⟨hfound,
      fun _ hM ↦ getD_eq hM, fun _ hh ↦ hH.trans (getD_eq hh), fun _ ↦ hclear length val hval,
      nofun⟩⟩, rfl, rfl, rfl⟩

/-- **The calls**, by induction. -/
theorem calls_made {cs : List (Call × Bool × CallEnv)} (h : calls md5 d p cs = some q) :
    (∀ a ∈ q.attrs, Made md5 d q.secret a) ∧ SamePack p q := by
  induction cs generalizing p with
  | nil =>
    obtain rfl := some.inj h
    exact ⟨hp, rfl, rfl, rfl⟩
  | cons c cs ih =>
    obtain ⟨c, M, env⟩ := c
    obtain ⟨p₁, hp₁, hrest⟩ := bind_eq_some_iff.mp h
    obtain ⟨hmade, hver, hids, hsecret⟩ : (∀ a ∈ p₁.attrs, Made md5 d p₁.secret a) ∧
        SamePack p p₁ := by
      cases c with
      | int16 id v | int32 id v | int64 id v =>
        refine addAttr_made hp (hiddenPart_eq ?_).symm (fun _ _ hf ↦ ?_) hp₁
        · rw [length_toBytes]
          decide
        · cases hf
          exact ⟨rfl, (length_toBytes ..).symm⟩
      | string id s =>
        refine addAttr_made hp rfl (fun _ _ hf ↦ ?_) hp₁
        split at hf
        · cases hf
          exact ⟨rfl, rfl⟩
        · nomatch hf
      | octets id val =>
        rw [call, addOctets] at hp₁
        split at hp₁
        · nomatch hp₁
        next hlen =>
        rw [avpLenMask] at hlen
        refine addAttr_made hp (hiddenPart_eq (by omega)).symm (fun _ _ hf ↦ ?_) hp₁
        split at hf
        · cases hf
          exact ⟨rfl, rfl⟩
        · nomatch hf
    obtain ⟨hq, hver', hids', hsecret'⟩ := ih hmade hrest
    exact ⟨hq, hver'.trans hver, hids'.trans hids, hsecret'.trans hsecret⟩

end

/-! ### The comparison -/

lemma packetSend_eq_refused_iff (pack : Pack) :
    packetSend pack = .refused ↔ ¬ Fits pack.attrs hdrSize := by
  rw [packetSend, sendLoop_eq (show hdrSize < maxPacketSize by decide)]
  by_cases hfit : Fits pack.attrs hdrSize
  · rw [if_pos hfit]
    refine ⟨fun hf ↦ ?_, fun hf ↦ (hf hfit).elim⟩
    cases hlayout : layout pack.attrs <;> rw [hlayout] at hf <;> nomatch hf
  · rw [if_neg hfit]
    exact ⟨fun _ ↦ hfit, fun _ ↦ rfl⟩

/-- What was given to the calls can be sent: the length of an AVP has 10 bits, that of the packet
16. -/
def Representable (pack : Pack) : Prop :=
  (∀ a ∈ pack.attrs, avpSize + (if a.H then 2 else 0) + a.given.length ≤ avpLenMask) ∧
    hdrSize + avpsSize pack.attrs < maxPacketSize

/-- What is sent comes back, and what cannot be sent is refused. -/
def Faithful (md5 : Digest) (d : Dict) (permissive : Bool) (pack : Pack) : Prop :=
  RoundTrips md5 d permissive pack ∧ (¬ Representable pack → packetSend pack = .refused)

lemma Each.mono {P Q : Option (List UInt8) → OutAttr → Prop}
    (hPQ : ∀ rv, ∀ a ∈ attrs, P rv a → Q rv a) (h : Each P rv attrs) : Each Q rv attrs := by
  induction attrs generalizing rv with
  | nil => trivial
  | cons a attrs ih =>
    exact ⟨hPQ rv a mem_cons_self h.1, ih (fun rv b hb ↦ hPQ rv b (mem_cons_of_mem a hb)) h.2⟩

lemma Each.exists_of_mem {P : Option (List UInt8) → OutAttr → Prop} (h : Each P rv attrs)
    (ha : a ∈ attrs) : ∃ rv, P rv a := by
  induction attrs generalizing rv with
  | nil => nomatch ha
  | cons b attrs ih =>
    rcases mem_cons.mp ha with rfl | ha
    · exact ⟨rv, h.1⟩
    · exact ih h.2 ha

/-- An attribute that is in order, and whose AVP fits, has been given a value that fits. -/
lemma representable_of_attrOk (h : Made md5 d secret a) (hok : AttrOk rv a)
    (hlen : avpSize + a.length ≤ avpLenMask) :
    avpSize + (if a.H then 2 else 0) + a.given.length ≤ avpLenMask := by
  rcases hH : a.H with _ | _
  · rw [(h.clear hH).2] at hlen
    exact hlen
  obtain ⟨-, r, pad, octets, -, -, hlength, -, hoctets⟩ := h.hidden hH
  rw [AttrOk, if_pos hH] at hok
  rw [hiddenPart_eq hok.2.1] at hoctets
  rw [hlength, hoctets, length_encipher, length_append, length_append, length_toBytes] at hlen
  show avpSize + 2 + a.given.length ≤ avpLenMask
  omega

lemma Alike.fits (h : Alike p q) (hfit : Fits p.attrs hdrSize) : Fits q.attrs hdrSize := by
  have hlengths : q.attrs.map OutAttr.length = p.attrs.map OutAttr.length := by
    have := congrArg (map OutAttr.length) h.attrs
    rwa [map_map, map_map] at this
  refine ⟨fun b hb ↦ ?_, ?_⟩
  · obtain ⟨a, ha, hab⟩ := mem_map.mp (hlengths ▸ mem_map_of_mem hb)
    rw [← hab]
    exact hfit.1 a ha
  have hsum : ∀ attrs : List OutAttr,
      avpsSize attrs = ((attrs.map OutAttr.length).map fun n ↦ avpSize + n).sum := fun attrs ↦ by
    rw [map_map]
    rfl
  rw [hsum, hlengths, ← hsum]
  exact hfit.2

end

/-- **Control packets come back**, whatever MD5 is, if and only if each packet that is not refused
has version 2 or 3, its values are stored as their types want them, and its hidden attributes are
hidden with the random vector that holds for them, have values that their types take, and strings
below `2 ^ 16` bytes. -/
theorem faithful_iff (d : Dict) (permissive : Bool) (ver : ℕ) (ids : Vector UInt8 8)
    (secret : List UInt8) (hideAvps : Bool) (cs : List (Call × Bool × CallEnv)) :
    (∀ md5 pack, calls md5 d (newPack ver ids secret hideAvps) cs = some pack →
      Faithful md5 d permissive pack) ↔
    ∀ md5 pack, calls md5 d (newPack ver ids secret hideAvps) cs = some pack →
      Fits pack.attrs hdrSize → (ver % 16 = 2 ∨ ver % 16 = 3) ∧ Each AttrOk none pack.attrs := by
  have hmade : ∀ {md5 pack}, calls md5 d (newPack ver ids secret hideAvps) cs = some pack →
      (∀ a ∈ pack.attrs, Made md5 d pack.secret a) ∧
        SamePack (newPack ver ids secret hideAvps) pack := fun h ↦
    calls_made nofun h
  constructor
  · intro hall md5 pack hpack hfit
    obtain ⟨hpack', hver, -, -⟩ := hmade hpack
    obtain ⟨hver', -⟩ := (roundTrips_iff_comes hpack').mp (hall md5 pack hpack).1 hfit
    rw [hver] at hver'
    refine ⟨hver', by_contra fun hnot ↦ ?_⟩
    obtain ⟨md5', hmd5'⟩ := exists_not_comes hnot
    obtain ⟨q, hq, halike⟩ := calls_alike (Alike.refl _) hpack
    obtain ⟨hmadeq, -⟩ := hmade hq
    obtain ⟨-, hcomes⟩ := (roundTrips_iff_comes hmadeq).mp (hall md5' q hq).1 (halike.fits hfit)
    rw [halike.secret] at hmadeq hcomes
    exact hmd5' q.attrs halike.attrs hmadeq hcomes
  · intro hall md5 pack hpack
    obtain ⟨hpack', hver, -, -⟩ := hmade hpack
    refine ⟨(roundTrips_iff_comes hpack').mpr fun hfit ↦ ?_, fun hnot ↦ ?_⟩
    · obtain ⟨hver', hok⟩ := hall md5 pack hpack hfit
      rw [hver]
      refine ⟨hver', hok.mono fun rv a ha hok ↦ ?_⟩
      rcases hH : a.H with _ | _
      · exact (comes_clear_iff (hpack' a ha) hH).mpr hok
      · exact comes_of_attrOk (hpack' a ha) hH hok
    · rw [packetSend_eq_refused_iff]
      intro hfit
      obtain ⟨-, hok⟩ := hall md5 pack hpack hfit
      refine hnot ⟨fun a ha ↦ ?_, hfit.2⟩
      obtain ⟨rv, hrv⟩ := hok.exists_of_mem ha
      exact representable_of_attrOk (hpack' a ha) hrv (hfit.1 a ha)

/-- The Random-Vector, the Message-Type, the Vendor-Name and the Assigned-Tunnel-ID. -/
def someDict : Dict where
  items := [⟨36, .octets, some true, some false⟩, ⟨0, .int16, none, some false⟩,
    ⟨8, .string, some false, none⟩, ⟨9, .int16, some true, none⟩]
  id_lt := by decide
  rv := by decide

/-- There is memory, and sixteen bytes are drawn each time. -/
def granting : CallEnv := ⟨true, true, ⟨true, some 0, true, some fun i ↦ .ofNat i⟩, padded⟩

/-- An SCCRQ with an Assigned-Tunnel-ID and a Vendor-Name, both hidden. -/
def someCalls : List (Call × Bool × CallEnv) :=
  [(.int16 messageType 1, true, granting), (.int16 9 77, true, granting),
    (.string 8 [97, 98, 99], false, granting)]

theorem faithful_iff_someCalls :
    ∃ pack, calls sumDigest someDict (newPack 2 (Vector.replicate 8 0) [1, 2] true) someCalls =
        some pack ∧ Fits pack.attrs hdrSize ∧ pack.attrs.map OutAttr.H =
          [false, false, true, true] ∧
      Faithful sumDigest someDict false pack := by
  have hok : ∀ md5 pack, calls md5 someDict (newPack 2 (Vector.replicate 8 0) [1, 2] true)
      someCalls = some pack → Fits pack.attrs hdrSize →
        (2 % 16 = 2 ∨ 2 % 16 = 3) ∧ Each AttrOk none pack.attrs := by
    intro md5 pack hpack _
    obtain rfl := some.inj hpack
    have hid : 2 < 65536 := by decide
    have hname : 3 < 65536 := by decide
    exact ⟨.inl rfl, trivial, trivial, ⟨rfl, hid, rfl⟩, ⟨rfl, hname, trivial⟩, trivial⟩
  refine ⟨_, rfl, by decide +kernel, rfl, ?_⟩
  exact (faithful_iff someDict false 2 (Vector.replicate 8 0) [1, 2] true someCalls).mpr hok _ _ rfl

/-- What a packet with a hidden Vendor-Name of three bytes is sent as. -/
def threeBytes : List UInt8 :=
  match (addAttr sumDigest someDict (newPack 2 (Vector.replicate 8 0) [1, 2] true) granting 8 false
    [97, 97, 97] [97, 97, 97] none).map packetSend with
  | some (.datagram bytes) => bytes
  | _ => []

open List

/-- **A hidden name of 65539 bytes** is sent as one of three bytes. -/
theorem longName_cut :
    ∃ pack attrs, calls sumDigest someDict (newPack 2 (Vector.replicate 8 0) [1, 2] true)
        [(.string 8 (List.replicate 65539 97), false, granting)] = some pack ∧
      pack.attrs.map (fun a ↦ a.given.length) = [16, 65539] ∧
      packetSend pack = .datagram threeBytes ∧
      recv sumDigest someDict false [1, 2] threeBytes = some (List.replicate 8 0, attrs) ∧
      attrs.map InAttr.length = [16, 3] ∧ ¬ Representable pack := by
  -- `encode_attr` sees three bytes only, so what is sent does not depend on the rest.
  have hcut : ∀ (given : List UInt8) (clear : Option (ℕ × OutVal)), ∃ pack,
      addAttr sumDigest someDict (newPack 2 (Vector.replicate 8 0) [1, 2] true) granting 8 false
        given [97, 97, 97] clear = some pack ∧
      pack.attrs.map OutAttr.given = [block (fun i ↦ .ofNat i) 0 16, given] ∧
      packetSend pack = .datagram threeBytes := fun given clear ↦ ⟨_, rfl, rfl, rfl⟩
  have hname : (replicate 65539 (97 : UInt8)).takeWhile (· ≠ 0) = replicate 65539 97 :=
    takeWhile_eq_self_iff.mpr fun x hx ↦ by
      rw [eq_of_mem_replicate hx]
      rfl
  have hthree : (replicate 65539 (97 : UInt8)).take
      ((replicate 65539 (97 : UInt8)).length % 65536) = [97, 97, 97] := by
    rw [length_replicate]
    rfl
  have hrecv : (recv sumDigest someDict false [1, 2] threeBytes).map
      (Prod.map id (map InAttr.length)) = some (replicate 8 0, [16, 3]) := by
    decide +kernel
  obtain ⟨⟨ids, attrs⟩, hrecv, hr⟩ := map_eq_some_iff.mp hrecv
  obtain ⟨rfl, hattrs⟩ := Prod.mk.inj hr
  obtain ⟨pack, hpack, hgiven, hsent⟩ :=
    hcut (replicate 65539 97) (some (65539, .bytes (replicate 65539 97)))
  refine ⟨pack, attrs, ?_, ?_, hsent, hrecv, hattrs, fun h ↦ ?_⟩
  · rw [calls, call, addString, hname, hthree, length_replicate,
      if_pos (show granting.value = true from rfl), hpack]
    rfl
  · have := congrArg (map length) hgiven
    rw [map_map] at this
    rw [show (fun a : OutAttr ↦ a.given.length) = length ∘ OutAttr.given from rfl, this,
      map_cons, map_cons, length_replicate]
    rfl
  · have hmem : replicate 65539 97 ∈ pack.attrs.map OutAttr.given := by
      rw [hgiven]
      exact mem_cons_of_mem _ mem_cons_self
    obtain ⟨a, ha, hgiven⟩ := mem_map.mp hmem
    have := h.1 a ha
    rw [hgiven, length_replicate, avpLenMask] at this
    omega

end AccelPpp.L2tp.Wire
