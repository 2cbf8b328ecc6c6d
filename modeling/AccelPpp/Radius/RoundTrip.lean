import AccelPpp.Radius.Build
import AccelPpp.Radius.Framing

/-!
# Building and parsing

`RoundTrips` says that every attribute of a packet is read back by `rad_packet_recv`, in order and
with its value, from the bytes in which `rad_packet_build` has laid it out; the buffer beyond the
datagram may hold anything.

`roundTrips_iff` says which packets do, one attribute at a time: the value must have bytes
(`encodeValue`), the frame around it must be read as it was written (`FrameOk`), the dictionary must
find the attribute by its number (`findAttrId`), and the bytes must be read as the value
(`ValueOk`). The layout cuts lengths to a byte, so a value of more than 253 bytes, or 247 with a
vendor, is not read back.
-/

open UInt8
open Option (bind_eq_some_iff map_eq_some_iff some.inj)

namespace AccelPpp.Radius

/-! ### What is read back -/

/-- The bytes an attribute takes. -/
def attrSize (a : OutAttr) : ℕ := headerLen a.vendor + a.len

/-- The attributes laid out from an offset on, as items. -/
def layout : ℕ → List OutAttr → List Item
  | _, [] => []
  | off, a :: as =>
    ⟨a.vendor, a.attr.id, off + headerLen a.vendor, a.len⟩ :: layout (off + attrSize a) as

/-- The value as the parser would store it. -/
def storedValue (a : OutAttr) : Value :=
  match a.val with
  | .int v => if a.attr.type = .ipaddr then .addr (hostBytes v) else .integer v.toNat
  | .bytes b => if a.attr.type = .string then .string b else .octets b
  | .ifid b => .addr b.toList
  | .net len b => .prefix6 len.toNat b.toList

/-- An attribute without its place. -/
def RadAttr.view (r : RadAttr) : Option Vendor × DictAttr × ℕ × Value :=
  (r.vendor, r.attr, r.len, r.val)

/-- An attribute as it should be read back. -/
def OutAttr.view (a : OutAttr) : Option Vendor × DictAttr × ℕ × Value :=
  (a.vendor, a.attr, a.len, storedValue a)

/-- The memory holds these bytes from an offset on. -/
def At (mem : ℕ → UInt8) (off : ℕ) (bytes : List UInt8) : Prop :=
  ∀ i < bytes.length, mem (off + i) = bytes.getD i 0

/-- **The packet is read back**: it can be laid out, and whatever the buffer holds beyond it, the
parser finds its attributes where they are, and returns them with their values. -/
def RoundTrips (dict : Dict) (pack : Pack) (ra : Vector UInt8 16) : Prop :=
  ∃ d, radPacketBuild pack ra = some d ∧ ∀ mem, At mem 0 d →
    ∃ p, radPacketRecv dict mem d.length = some p ∧ p.items = layout 20 pack.attrs ∧
      p.attrs.map RadAttr.view = pack.attrs.map OutAttr.view

section

open List

/-! ### When it is -/

/-- What the parser sees of a sub-attribute: its header, its value and the byte that follows. -/
def subBytes (a : OutAttr) (b : List UInt8) (next : UInt8) : ℕ → UInt8 := fun i ↦
  ([ofNat a.attr.id, ofNat (a.len + 2)] ++ b ++ [next]).getD i 0

/-- The frame is read as it was written. Without a vendor, number and length fit into their bytes,
and the attribute is not taken for a vendor-specific one. With a vendor, it is found by its number,
the length around the sub-attribute fits, and the two bytes before the value are, in the vendor's
format, the number and the length. -/
def FrameOk (dict : Dict) (a : OutAttr) (b : List UInt8) (next : UInt8) : Prop :=
  match a.vendor with
  | none => a.attr.id < 256 ∧ a.len + 2 < 256 ∧ (a.attr.id = 26 → 4 ≤ a.len ∧
      dict.findVendorId (UInt32.ofNat (be32 (fun i ↦ b.getD i 0) 0)) = none)
  | some v => dict.findVendorId v.id = some v ∧ v.tag + v.len = 2 ∧ 8 ≤ (a.len + 8) % 256 ∧
      readField (subBytes a b next) 0 v.tag = a.attr.id ∧
      readField (subBytes a b next) v.tag v.len = a.len + 2

/-- The bytes are read as the value: the attribute is not an array, numbers and addresses have the
size the dictionary gives them, and a network has a length that networks have. -/
def ValueOk (a : OutAttr) : Prop :=
  a.attr.array = false ∧
    match a.attr.type, a.val with
    | .integer, _ => a.attr.size = 4
    | .ipaddr, _ => a.attr.size = 4
    | .ifid, _ => a.attr.size = 8
    | .prefix6, .net len _ => len.toNat ≤ 128
    | _, _ => True

/-- The first byte of what follows; beyond the datagram nothing is known, and 0 stands for it. -/
def firstByte : List OutAttr → UInt8
  | [] => 0
  | a :: _ => (header a).headD 0

/-- Every attribute reads back. -/
def ReadsBack (dict : Dict) : List OutAttr → Prop
  | [] => True
  | a :: as =>
    (∃ b, encodeValue a = some b ∧ FrameOk dict a b (firstByte as) ∧
      dict.findAttrId a.vendor a.attr.id = some a.attr ∧ ValueOk a) ∧ ReadsBack dict as

/-! ### Bytes in memory -/

section Memory

variable {mem : ℕ → UInt8} {off : ℕ} {xs ys : List UInt8}

@[simp] lemma length_bytesAt (len : ℕ) : (bytesAt mem off len).length = len := by
  rw [bytesAt, length_map, length_range]

lemma bytesAt_add (m n : ℕ) :
    bytesAt mem off (m + n) = bytesAt mem off m ++ bytesAt mem (off + m) n := by
  rw [bytesAt, range_add, map_append, map_map]
  show _ ++ (range n).map (fun i ↦ mem (off + (m + i))) = _
  simp only [← Nat.add_assoc]
  rfl

/-- The bytes in memory are what is read from it. -/
lemma at_iff_bytesAt : At mem off xs ↔ bytesAt mem off xs.length = xs := by
  constructor
  · intro h
    refine ext_getElem (length_bytesAt _) fun i _ hi ↦ ?_
    rw [← getD_eq_getElem xs 0 hi, ← h i hi]
    simp [bytesAt]
  · intro h i hi
    have hget : (bytesAt mem off xs.length).getD i 0 = xs.getD i 0 := by rw [h]
    rw [← hget]
    simp [bytesAt, hi]

lemma At.bytesAt (h : At mem off xs) : bytesAt mem off xs.length = xs := at_iff_bytesAt.mp h

lemma at_append : At mem off (xs ++ ys) ↔ At mem off xs ∧ At mem (off + xs.length) ys := by
  rw [at_iff_bytesAt, at_iff_bytesAt, at_iff_bytesAt, length_append, bytesAt_add]
  constructor
  · intro h
    exact append_inj h (length_bytesAt _)
  · rintro ⟨hx, hy⟩
    rw [hx, hy]

/-- The first number of a value, at its place or by itself. -/
lemma At.be32_congr (h : At mem off xs) (hxs : 4 ≤ xs.length) :
    be32 mem off = be32 (fun i ↦ xs.getD i 0) 0 := by
  have h0 : mem off = xs.getD 0 0 := h 0 (by omega)
  have h1 : mem (off + 1) = xs.getD 1 0 := h 1 (by omega)
  have h2 : mem (off + 2) = xs.getD 2 0 := h 2 (by omega)
  have h3 : mem (off + 2 + 1) = xs.getD 3 0 := h 3 (by omega)
  rw [be32, be32, be16, be16, be16, be16, h0, h1, h2, h3]

/-- The four bytes of a number are read as the number. -/
lemma At.be32 {v : UInt32} (h : At mem off (beBytes v)) : be32 mem off = v.toNat := by
  have hlt : v.toNat < 2 ^ 32 := v.toNat_lt
  rw [h.be32_congr (show 4 ≤ 4 by decide)]
  simp [Radius.be32, be16, beBytes]
  omega

end Memory

/-! ### Values -/

section Values

variable {mem : ℕ → UInt8} {off : ℕ} {a : OutAttr} {b : List UInt8}

lemma length_encodeValue (h : encodeValue a = some b) : b.length = a.len := by
  obtain ⟨-, hlen⟩ := Option.filter_eq_some_iff.mp h
  simpa using hlen

/-- **Bytes are read as the value** exactly when they should be. By cases on the type, the member
the value is stored through being the one that belongs to it. -/
theorem decodeValue_iff (h : encodeValue a = some b) (hmem : At mem off b) :
    decodeValue mem a.attr off a.len = storedValue a ↔ ValueOk a := by
  have hlen := length_encodeValue h
  have hbytes : bytesAt mem off a.len = b := hlen ▸ hmem.bytesAt
  obtain ⟨vendor, ⟨name, id, type, array, size, values⟩, len, val⟩ := a
  obtain ⟨hsome, -⟩ := Option.filter_eq_some_iff.mp h
  cases array with
  | true => cases val <;> simp [decodeValue, storedValue, ValueOk] <;> split <;> simp
  | false =>
    cases type <;> cases val <;> simp only [reduceCtorEq, Option.some.injEq] at hsome
    case integer.int v | date.int v =>
      subst hsome
      have hfour : len = 4 := hlen.symm
      subst hfour
      simp [decodeValue, storedValue, ValueOk, hmem.be32, eq_comm]
    case ipaddr.int v =>
      subst hsome
      have hfour : len = 4 := hlen.symm
      subst hfour
      simp [decodeValue, storedValue, ValueOk, hbytes, eq_comm]
    case string.bytes s | octets.bytes s =>
      subst hsome
      simp [decodeValue, storedValue, ValueOk, hbytes]
    case ifid.ifid s =>
      subst hsome
      have height : len = 8 := by simpa using hlen.symm
      subst height
      simp [decodeValue, storedValue, ValueOk, hbytes, eq_comm]
    case prefix6.net l s =>
      subst hsome
      have hsize : len = 18 := by simpa using hlen.symm
      subst hsize
      have hl : mem (off + 1) = l := hmem 1 (by simp)
      have hs : bytesAt mem (off + 2) 16 = s.toList := by
        have hat := (at_append.mp (show At mem off ([0, l] ++ s.toList) from hmem)).2.bytesAt
        rw [Vector.length_toList] at hat
        exact hat
      simp [decodeValue, storedValue, ValueOk, hl, hs]

end Values

/-! ### Frames -/

section Frames

variable {dict : Dict} {mem : ℕ → UInt8} {fuel off n k : ℕ} {a : OutAttr} {b : List UInt8}
  {it : Item} {v : Vendor}

/-- An item ends where the turn does. -/
lemma Turn.ends (h : Turn dict mem off n it k) : it.off + it.len = off + k := by
  cases h with
  | plain hle hn hplain =>
    show off + 2 + ((mem (off + 1)).toNat - 2) = off + (mem (off + 1)).toNat
    omega
  | vendor v hid hle hn hv htotal hfit =>
    show off + 6 + (v.tag + v.len) + (readField mem (off + 6 + v.tag) v.len - (v.tag + v.len)) = _
    omega

/-- A turn is what the loop does, when something is left. -/
lemma recvLoop_turn (hn : n ≠ 0) (h : Turn dict mem off n it k) :
    recvLoop dict mem (fuel + 1) off n =
      (recvLoop dict mem fuel (off + k) (n - k)).map (it :: ·) := by
  cases h with
  | plain hle hn' hplain =>
    have hstep : off + 2 + ((mem (off + 1)).toNat - 2) = off + (mem (off + 1)).toNat := by omega
    have hleft : n - (2 + ((mem (off + 1)).toNat - 2)) = n - (mem (off + 1)).toNat := by omega
    rw [recvLoop, if_neg hn, if_neg (by omega), if_neg (by omega)]
    rw [if_neg (by omega), hstep, hleft]
    split
    · next hid =>
      obtain ⟨hsix, hnone⟩ := hplain hid
      rw [if_neg (by omega), hnone, hid]
    · rfl
  | vendor v hid hle hn' hv htotal hfit =>
    rw [recvLoop, if_neg hn, if_neg (by omega), if_neg (by omega)]
    rw [if_neg (by omega), if_pos hid, if_neg (by omega), hv]
    dsimp only
    rw [if_neg (by omega), if_neg (by omega), if_neg (by omega),
      Nat.add_assoc off 6 (readField mem (off + 6 + v.tag) v.len)]

lemma length_header (a : OutAttr) : (header a).length = headerLen a.vendor := by
  rw [header]
  cases a.vendor <;> rfl

lemma attrSize_pos (a : OutAttr) : 2 ≤ attrSize a := by
  rw [attrSize, headerLen]
  split <;> omega

/-- The bytes of an attribute without a vendor. -/
lemma header_none (ha : a.vendor = none) (hmem : At mem off (header a)) :
    (mem off).toNat = a.attr.id % 256 ∧ (mem (off + 1)).toNat = (a.len + 2) % 256 := by
  have hheader : header a = [ofNat a.attr.id, ofNat (a.len + 2)] := by
    rw [header, ha]
    rfl
  rw [hheader] at hmem
  have h0 : mem off = ofNat a.attr.id := hmem 0 (show 0 < 2 by decide)
  have h1 : mem (off + 1) = ofNat (a.len + 2) := hmem 1 (show 1 < 2 by decide)
  rw [h0, h1, toNat_ofNat']
  exact ⟨rfl, rfl⟩

/-- The bytes of an attribute with a vendor. -/
lemma header_some (ha : a.vendor = some v) (hmem : At mem off (header a)) :
    (mem off).toNat = 26 ∧ (mem (off + 1)).toNat = (a.len + 8) % 256 ∧
      UInt32.ofNat (be32 mem (off + 2)) = v.id ∧ mem (off + 6) = ofNat a.attr.id ∧
      mem (off + 7) = ofNat (a.len + 2) := by
  have hheader : header a = [26, ofNat (a.len + 8)] ++ (beBytes v.id ++
      [ofNat a.attr.id, ofNat (a.len + 2)]) := by
    rw [header, ha]
    rfl
  rw [hheader] at hmem
  obtain ⟨hfirst, hrest⟩ := at_append.mp hmem
  obtain ⟨hid, hlast⟩ := at_append.mp hrest
  have h0 : mem off = 26 := hfirst 0 (show 0 < 2 by decide)
  have h1 : mem (off + 1) = ofNat (a.len + 8) := hfirst 1 (show 1 < 2 by decide)
  have h6 : mem (off + 6) = ofNat a.attr.id := hlast 0 (show 0 < 2 by decide)
  have h7 : mem (off + 7) = ofNat (a.len + 2) := hlast 1 (show 1 < 2 by decide)
  have hbe : be32 mem (off + 2) = v.id.toNat := hid.be32
  rw [h0, h1, hbe, UInt32.ofNat_toNat]
  exact ⟨rfl, rfl, rfl, h6, h7⟩

section

variable (hlen : b.length = a.len) (hmem : At mem off (header a ++ b)) (hn : attrSize a ≤ n)

include hlen hmem hn

/-- A frame without a vendor. -/
lemma turn_none_iff (dict : Dict) (ha : a.vendor = none) :
    (∃ k, Turn dict mem off n ⟨none, a.attr.id, off + 2, a.len⟩ k) ↔ FrameOk dict a b 0 := by
  obtain ⟨hheader, hvalue⟩ := at_append.mp hmem
  obtain ⟨h0, h1⟩ := header_none ha hheader
  rw [length_header, ha] at hvalue
  have hsize : attrSize a = 2 + a.len := by rw [attrSize, ha]; rfl
  have hbe : 4 ≤ a.len → Radius.be32 mem (off + 2) = Radius.be32 (fun i ↦ b.getD i 0) 0 :=
    fun h4 ↦ At.be32_congr hvalue (hlen ▸ h4)
  rw [FrameOk, ha]
  constructor
  · rintro ⟨k, hturn⟩
    generalize hit : (⟨none, a.attr.id, off + 2, a.len⟩ : Item) = it at hturn
    cases hturn with
    | plain hle hn' hplain =>
      obtain ⟨-, hid, -, hl⟩ := Item.mk.inj hit
      refine ⟨by omega, by omega, fun h26 ↦ ?_⟩
      obtain ⟨hsix, hnone⟩ := hplain (by omega)
      have h4 : 4 ≤ a.len := by omega
      exact ⟨h4, hbe h4 ▸ hnone⟩
    | vendor v => nomatch (Item.mk.inj hit).1
  · rintro ⟨hid, hl, hplain⟩
    have hid' : (mem off).toNat = a.attr.id := by omega
    have hl' : (mem (off + 1)).toNat = a.len + 2 := by omega
    have hturn := @Turn.plain dict mem off n (by omega) (by omega) fun h26 ↦ by
      obtain ⟨h4, hnone⟩ := hplain (by omega)
      exact ⟨by omega, (hbe h4).symm ▸ hnone⟩
    rw [hid', hl'] at hturn
    exact ⟨_, hturn⟩

/-- A frame with a vendor; `next` is the byte that follows. -/
lemma turn_some_iff {next : UInt8} (ha : a.vendor = some v)
    (hnext : v.tag = 2 → b = [] → mem (off + 8) = next) :
    (∃ k, Turn dict mem off n ⟨some v, a.attr.id, off + 8, a.len⟩ k) ↔ FrameOk dict a b next := by
  obtain ⟨hheader, hvalue⟩ := at_append.mp hmem
  obtain ⟨h0, h1, hv, h6, h7⟩ := header_some ha hheader
  rw [length_header, ha] at hvalue
  have hsize : attrSize a = 8 + a.len := by rw [attrSize, ha]; rfl
  have hthird : v.tag = 2 → mem (off + 6 + 2) = subBytes a b next 2 := fun ht ↦ by
    cases b with
    | nil => exact hnext ht rfl
    | cons x xs => exact hvalue 0 (Nat.succ_pos _)
  have hfields : v.tag + v.len = 2 →
      readField mem (off + 6) v.tag = readField (subBytes a b next) 0 v.tag ∧
        readField mem (off + 6 + v.tag) v.len = readField (subBytes a b next) v.tag v.len :=
    fun htl ↦ by
      obtain ⟨ht, hl⟩ | ⟨ht, hl⟩ | ⟨ht, hl⟩ :
          (v.tag = 0 ∧ v.len = 2) ∨ (v.tag = 1 ∧ v.len = 1) ∨ (v.tag = 2 ∧ v.len = 0) := by omega
      · simp [readField, be16, ht, hl, h6, h7, subBytes]
      · simp [readField, ht, hl, h6, h7, subBytes]
      · simp [readField, be16, ht, hl, h6, h7, hthird ht, subBytes]
  rw [FrameOk, ha]
  constructor
  · rintro ⟨k, hturn⟩
    generalize hit : (⟨some v, a.attr.id, off + 8, a.len⟩ : Item) = it at hturn
    cases hturn with
    | plain => nomatch (Item.mk.inj hit).1
    | vendor v' hid hle hn' hv' htotal hfit =>
      obtain ⟨hvv, hattr, hoff, hl⟩ := Item.mk.inj hit
      obtain rfl := some.inj hvv
      have htl : v.tag + v.len = 2 := by omega
      obtain ⟨hf, hf'⟩ := hfields htl
      exact ⟨hv ▸ hv', htl, by omega, hf ▸ hattr.symm, by omega⟩
  · rintro ⟨hfind, htl, houter, hattr, htotal⟩
    obtain ⟨hf, hf'⟩ := hfields htl
    have hturn := @Turn.vendor dict mem off n v h0 (by omega) (by omega) (hv.symm ▸ hfind)
      (by omega) (by omega)
    rw [hf, hattr, hf', htotal, htl] at hturn
    exact ⟨_, hturn⟩

/-- **A frame is read as it was written** exactly when it should be. -/
theorem turn_iff {next : UInt8}
    (hnext : ∀ v, a.vendor = some v → v.tag = 2 → b = [] → mem (off + attrSize a) = next) :
    (∃ k, Turn dict mem off n ⟨a.vendor, a.attr.id, off + headerLen a.vendor, a.len⟩ k) ↔
      FrameOk dict a b next := by
  cases ha : a.vendor with
  | none =>
    have hiff := turn_none_iff hlen hmem hn dict ha
    rw [FrameOk, ha] at hiff ⊢
    exact hiff
  | some v =>
    refine turn_some_iff hlen hmem hn ha fun htag hb ↦ ?_
    have hsize : attrSize a = 8 := by rw [attrSize, ← hlen, ha, hb]; rfl
    exact hsize ▸ hnext v ha htag hb

end

lemma Turn.eq_attrSize
    (h : Turn dict mem off n ⟨a.vendor, a.attr.id, off + headerLen a.vendor, a.len⟩ k) :
    k = attrSize a := by
  have hends : off + headerLen a.vendor + a.len = off + k := h.ends
  rw [attrSize]
  omega

end Frames

/-! ### Attributes one after the other -/

section Attributes

variable {dict : Dict} {mem : ℕ → UInt8} {fuel off : ℕ} {a : OutAttr} {b d : List UInt8}
  {attrs : List OutAttr}

/-- An attribute is returned as it was added when it is found by its number, with the value the
bytes are read as. -/
lemma view_decodeItem_iff (dict : Dict) {o : ℕ} (h : encodeValue a = some b) (hmem : At mem o b) :
    (decodeItem dict mem ⟨a.vendor, a.attr.id, o, a.len⟩).map RadAttr.view = some a.view ↔
      dict.findAttrId a.vendor a.attr.id = some a.attr ∧ ValueOk a := by
  rw [decodeItem, ← decodeValue_iff h hmem]
  cases dict.findAttrId a.vendor a.attr.id with
  | none => simp
  | some da =>
    simp only [Option.map_some, RadAttr.view, OutAttr.view, Option.some.injEq, Prod.mk.injEq,
      true_and]
    exact and_congr_right fun hda ↦ by rw [hda]

lemma encodeAttrs_cons (h : encodeAttrs (a :: attrs) = some d) :
    ∃ b rest, encodeValue a = some b ∧ encodeAttrs attrs = some rest ∧
      d = header a ++ b ++ rest := by
  obtain ⟨b, hb, h⟩ := bind_eq_some_iff.mp h
  obtain ⟨rest, hrest, rfl⟩ := map_eq_some_iff.mp h
  exact ⟨b, rest, hb, hrest, rfl⟩

lemma length_frame (h : encodeValue a = some b) : (header a ++ b).length = attrSize a := by
  rw [length_append, length_header, length_encodeValue h, attrSize]

lemma length_encodeAttrs (h : encodeAttrs attrs = some d) :
    d.length = (attrs.map attrSize).sum := by
  induction attrs generalizing d with
  | nil =>
    obtain rfl := some.inj h
    rfl
  | cons a attrs ih =>
    obtain ⟨b, rest, hb, hrest, rfl⟩ := encodeAttrs_cons h
    rw [length_append, length_frame hb, ih hrest, map_cons, sum_cons]

lemma length_layout : (layout off attrs).length = attrs.length := by
  induction attrs generalizing off with
  | nil => rfl
  | cons a attrs ih => rw [layout, length_cons, length_cons, ih]

/-- The byte after an attribute is the first of the next. -/
lemma firstByte_of_cons (h : encodeAttrs (a :: attrs) = some d) (hmem : At mem off d) :
    mem off = firstByte (a :: attrs) := by
  obtain ⟨b, rest, hb, -, rfl⟩ := encodeAttrs_cons h
  obtain ⟨x, xs, hx⟩ : ∃ x xs, header a = x :: xs := by
    rw [header]
    cases a.vendor <;> exact ⟨_, _, rfl⟩
  have hhead := (at_append.mp (at_append.mp hmem).1).1
  rw [hx] at hhead
  rw [firstByte, hx]
  exact hhead 0 (Nat.succ_pos _)

lemma firstByte_eq (h : encodeAttrs attrs = some d) (hmem : At mem off d)
    (hend : mem (off + d.length) = 0) : mem off = firstByte attrs := by
  cases attrs with
  | nil =>
    obtain rfl := some.inj h
    exact hend
  | cons a attrs => exact firstByte_of_cons h hmem

/-- An empty value of a vendor whose format has no length is not read back at the end. -/
lemma FrameOk.ne_nil {v : Vendor} (h : FrameOk dict a b 0) (ha : a.vendor = some v)
    (hv : v.tag = 2) : b ≠ [] := by
  rintro rfl
  rw [FrameOk, ha] at h
  obtain ⟨-, htl, -, -, htotal⟩ := h
  have hl : v.len = 0 := by omega
  rw [hv, hl] at htotal
  nomatch htotal

/-- What is read back from these bytes, with a zero after them, reads back. -/
lemma readsBack_of_recv (hd : encodeAttrs attrs = some d) (hmem : At mem off d)
    (hend : mem (off + d.length) = 0)
    (hloop : recvLoop dict mem fuel off d.length = some (layout off attrs))
    (hviews : ((layout off attrs).filterMap (decodeItem dict mem)).map RadAttr.view =
      attrs.map OutAttr.view) : ReadsBack dict attrs := by
  induction attrs generalizing off d fuel with
  | nil => trivial
  | cons a attrs ih =>
    obtain ⟨b, rest, hb, hrest, rfl⟩ := encodeAttrs_cons hd
    obtain ⟨hframe, hmem'⟩ := at_append.mp hmem
    have hvalue := (at_append.mp hframe).2
    rw [length_append, length_frame hb] at hloop hend
    rw [length_frame hb] at hmem'
    rw [length_header] at hvalue
    rw [← Nat.add_assoc] at hend
    obtain ⟨fuel, rfl⟩ : ∃ f, fuel = f + 1 := by
      cases fuel with
      | zero =>
        rw [recvLoop, if_neg (by have := attrSize_pos a; omega)] at hloop
        cases hloop
      | succ f => exact ⟨f, rfl⟩
    rcases recvLoop_cases hloop with ⟨h0, -⟩ | ⟨it, k, more, hmore, hturn, hrec⟩
    · have := attrSize_pos a
      omega
    obtain ⟨rfl, rfl⟩ := cons.inj hmore
    -- The item ends with the frame, so the loop goes on where the next one begins.
    obtain rfl := hturn.eq_attrSize
    rw [Nat.add_sub_cancel_left] at hrec
    have hok : FrameOk dict a b (firstByte attrs) := by
      refine (turn_iff (length_encodeValue hb) hframe (Nat.le_add_right ..) ?_).mp ⟨_, hturn⟩
      exact fun _ _ _ _ ↦ firstByte_eq hrest hmem' hend
    rw [layout, filterMap_cons] at hviews
    have hitem := view_decodeItem_iff dict hb hvalue
    cases hdec : decodeItem dict mem ⟨a.vendor, a.attr.id, off + headerLen a.vendor, a.len⟩ with
    | none =>
      -- Without this attribute there are too few.
      rw [hdec] at hviews
      have hlen := congrArg length hviews
      have hle := length_filterMap_le (decodeItem dict mem) (layout (off + attrSize a) attrs)
      simp only [length_map, length_cons, length_layout] at hlen hle
      omega
    | some r =>
      rw [hdec] at hviews hitem
      obtain ⟨hview, hviews⟩ := cons.inj hviews
      obtain ⟨hfind, hval⟩ := hitem.mp (congrArg some hview)
      exact ⟨⟨b, hb, hok, hfind, hval⟩, ih hrest hmem' hend hrec hviews⟩

/-- What reads back is read back, whatever follows. -/
lemma recv_of_readsBack (hd : encodeAttrs attrs = some d) (hmem : At mem off d)
    (hok : ReadsBack dict attrs) (hfuel : d.length ≤ fuel) :
    recvLoop dict mem fuel off d.length = some (layout off attrs) ∧
      ((layout off attrs).filterMap (decodeItem dict mem)).map RadAttr.view =
        attrs.map OutAttr.view := by
  induction attrs generalizing off d fuel with
  | nil =>
    obtain rfl := some.inj hd
    exact ⟨by cases fuel <;> rfl, rfl⟩
  | cons a attrs ih =>
    obtain ⟨b, rest, hb, hrest, rfl⟩ := encodeAttrs_cons hd
    obtain ⟨hframe, hmem'⟩ := at_append.mp hmem
    have hvalue := (at_append.mp hframe).2
    have hpos := attrSize_pos a
    rw [length_append, length_frame hb] at hfuel ⊢
    rw [length_frame hb] at hmem'
    rw [length_header] at hvalue
    obtain ⟨⟨b', hb', hok, hfind, hval⟩, hoks⟩ := hok
    obtain rfl := Option.mem_unique hb hb'
    obtain ⟨fuel, rfl⟩ : ∃ f, fuel = f + 1 := ⟨fuel - 1, by omega⟩
    obtain ⟨hloop, hviews⟩ := ih hrest hmem' hoks (show rest.length ≤ fuel by omega)
    obtain ⟨k, hturn⟩ : ∃ k, Turn dict mem off (attrSize a + rest.length)
        ⟨a.vendor, a.attr.id, off + headerLen a.vendor, a.len⟩ k := by
      refine (turn_iff (length_encodeValue hb) hframe (Nat.le_add_right ..) ?_).mpr hok
      rintro v hv htag rfl
      cases attrs with
      | nil => exact (hok.ne_nil hv htag rfl).elim
      | cons a' attrs => exact firstByte_of_cons hrest hmem'
    obtain rfl := hturn.eq_attrSize
    have hitem := (view_decodeItem_iff dict hb hvalue).mpr ⟨hfind, hval⟩
    obtain ⟨r, hr, hview⟩ := map_eq_some_iff.mp hitem
    constructor
    · rw [recvLoop_turn (by omega) hturn, Nat.add_sub_cancel_left, hloop]
      rfl
    · rw [layout, filterMap_cons, hr, map_cons, map_cons, hview, hviews]

/-- What reads back can be laid out. -/
lemma encodeAttrs_of_readsBack (hok : ReadsBack dict attrs) :
    ∃ d, encodeAttrs attrs = some d := by
  induction attrs with
  | nil => exact ⟨[], rfl⟩
  | cons a attrs ih =>
    obtain ⟨⟨b, hb, -⟩, hoks⟩ := hok
    obtain ⟨rest, hrest⟩ := ih hoks
    exact ⟨header a ++ b ++ rest, by rw [encodeAttrs, hb, hrest]; rfl⟩

end Attributes

/-! ### Calls -/

section Calls

variable {dict : Dict} {pack pack' : Pack} {vn : Option String} {name : String}

/-- The length of a packet is that of its attributes and the header, and there is room for it. -/
def Sized (pack : Pack) : Prop :=
  pack.len = 20 + (pack.attrs.map attrSize).sum ∧ pack.len < reqLengthMax

lemma findNamed_headerLen {va : Option Vendor × DictAttr} (h : findNamed dict vn name = some va) :
    headerLen va.1 = headerLen vn := by
  cases vn with
  | none =>
    obtain ⟨a, -, rfl⟩ := map_eq_some_iff.mp h
    rfl
  | some vn =>
    obtain ⟨v, -, h⟩ := bind_eq_some_iff.mp h
    obtain ⟨a, -, rfl⟩ := map_eq_some_iff.mp h
    rfl

lemma addAttr_sized {len : ℕ} {val : DictAttr → Option OutVal} (hs : Sized pack)
    (h : addAttr dict pack vn name len val = some pack') : Sized pack' := by
  rw [addAttr] at h
  split at h
  · nomatch h
  next hroom =>
  obtain ⟨va, hva, h⟩ := bind_eq_some_iff.mp h
  obtain ⟨v, -, rfl⟩ := map_eq_some_iff.mp h
  refine ⟨?_, Nat.lt_of_not_ge hroom⟩
  rw [map_append, sum_append, map_singleton, sum_singleton, hs.1, attrSize, findNamed_headerLen hva]
  dsimp only
  omega

variable {attrs : List OutAttr}

/-- One attribute changed, the sum changes by as much. -/
lemma sum_attrSize_modify {i : ℕ} {a : OutAttr} (f : OutAttr → OutAttr) (h : attrs[i]? = some a) :
    ((attrs.modify i f).map attrSize).sum + attrSize a =
      (attrs.map attrSize).sum + attrSize (f a) := by
  induction attrs generalizing i with
  | nil => nomatch h
  | cons x attrs ih =>
    cases i with
    | zero =>
      obtain rfl := some.inj h
      rw [modify_zero_cons, map_cons, map_cons, sum_cons, sum_cons]
      omega
    | succ i =>
      have := ih h
      rw [modify_succ_cons, map_cons, map_cons, sum_cons, sum_cons]
      omega

/-- A value changed, the attribute takes as many bytes. -/
lemma map_attrSize_modify {i : ℕ} {val : OutVal} :
    (attrs.modify i fun a ↦ { a with val := val }).map attrSize = attrs.map attrSize := by
  induction attrs generalizing i with
  | nil => cases i <;> rfl
  | cons x attrs ih =>
    cases i with
    | zero => rfl
    | succ i => rw [modify_succ_cons, map_cons, map_cons, ih]

lemma changeBytes_sized {b : List UInt8} (hs : Sized pack)
    (h : changeBytes dict pack vn name b = some pack') : Sized pack' := by
  obtain ⟨i, -, h⟩ := bind_eq_some_iff.mp h
  obtain ⟨a, ha, h⟩ := bind_eq_some_iff.mp h
  have hsum := sum_attrSize_modify (fun a ↦ { a with len := b.length, val := .bytes b }) ha
  have hle : attrSize a ≤ (pack.attrs.map attrSize).sum :=
    le_sum_of_mem (mem_map_of_mem (mem_of_getElem? ha))
  obtain ⟨hlen, hroom⟩ := hs
  rw [attrSize, attrSize] at hsum
  rw [attrSize] at hle
  dsimp only at hsum
  cases hval : a.val with
  | bytes b₀ =>
    rw [hval] at h
    dsimp only at h
    split at h
    · nomatch h
    next hfit =>
    obtain rfl := some.inj h
    constructor
    · dsimp only
      omega
    · show pack.len - a.len + b.length < reqLengthMax
      by_cases heq : a.len = b.length
      · omega
      · exact Nat.lt_of_not_ge fun hge ↦ hfit ⟨heq, hge⟩
  | int v | ifid v | net l v => rw [hval] at h; nomatch h

/-- **A call keeps the length**. -/
theorem call_sized {c : Call} (hs : Sized pack) (h : call dict pack c = some pack') :
    Sized pack' := by
  cases c with
  | addInt | addOctets | addStr | addVal | addIfid | addNet =>
    simp only [call, addInt, addOctets, addStr, addVal, addIfid, addNet] at h
    exact addAttr_sized hs h
  | changeInt vn name v =>
    obtain ⟨i, -, rfl⟩ := map_eq_some_iff.mp h
    rw [Sized, map_attrSize_modify]
    exact hs
  | changeVal vn name val =>
    obtain ⟨i, -, h⟩ := bind_eq_some_iff.mp h
    obtain ⟨a, -, h⟩ := bind_eq_some_iff.mp h
    obtain ⟨v, -, rfl⟩ := map_eq_some_iff.mp h
    rw [Sized, map_attrSize_modify]
    exact hs
  | changeBytes vn name b => exact changeBytes_sized hs h

/-- Calls keep the length. -/
lemma calls_sized {cs : List Call} (hs : Sized pack) (h : calls dict pack cs = some pack') :
    Sized pack' := by
  induction cs generalizing pack with
  | nil =>
    obtain rfl := some.inj h
    exact hs
  | cons c cs ih =>
    obtain ⟨pack₁, hc, h⟩ := bind_eq_some_iff.mp h
    exact ih (call_sized hs hc) h

end Calls

end

/-! ### The round trip -/

section RoundTrip

variable {dict : Dict} {pack : Pack} {ra : Vector UInt8 16} {mem : ℕ → UInt8} {d : List UInt8}

/-- A packet of the right length is read attribute by attribute. -/
lemma radPacketRecv_of_build {dict : Dict} (hs : Sized pack)
    (hbuild : radPacketBuild pack ra = some d) (hmem : At mem 0 d) :
    ∃ b, encodeAttrs pack.attrs = some b ∧ d.length = 20 + b.length ∧ At mem 20 b ∧
      radPacketRecv dict mem d.length = (recvLoop dict mem b.length 20 b.length).map fun items ↦
        ⟨pack.code.toNat, pack.id.toNat, d.length, items,
          items.filterMap (decodeItem dict mem)⟩ := by
  obtain ⟨b, hb, rfl⟩ := map_eq_some_iff.mp hbuild
  obtain ⟨hlen, hroom⟩ := hs
  rw [← length_encodeAttrs hb] at hlen
  have hsize : ([pack.code, pack.id, ofNat (pack.len / 256), ofNat pack.len] ++
      ra.toList ++ b).length = 20 + b.length := by
    rw [List.length_append, List.length_append, Vector.length_toList]
    rfl
  obtain ⟨hhead, hbody⟩ := at_append.mp hmem
  obtain ⟨hfirst, -⟩ := at_append.mp hhead
  have hbody' : At mem 20 b := by simpa using hbody
  have h0 : mem 0 = pack.code := hfirst 0 (show 0 < 4 by decide)
  have h1 : mem 1 = pack.id := hfirst 1 (show 1 < 4 by decide)
  have h2 : mem 2 = ofNat (pack.len / 256) := hfirst 2 (show 2 < 4 by decide)
  have h3 : mem 3 = ofNat pack.len := hfirst 3 (show 3 < 4 by decide)
  have hbe : be16 mem 2 = 20 + b.length := by
    rw [be16, h2, h3, toNat_ofNat', toNat_ofNat']
    have : reqLengthMax = 4096 := rfl
    omega
  refine ⟨b, hb, hsize, hbody', ?_⟩
  rw [hsize, radPacketRecv, if_neg (by omega)]
  rw [hbe, if_neg (by omega), Nat.add_sub_cancel_left, h0, h1]

/-- **Packets that are read back.** A packet made by successful calls is laid out and read back,
attribute by attribute and with the same values, exactly when each attribute reads back. -/
theorem roundTrips_iff (dict : Dict) (code : UInt8) (cs : List Call) (pack : Pack)
    (ra : Vector UInt8 16) (hcs : calls dict (radPacketAlloc code) cs = some pack) :
    RoundTrips dict pack ra ↔ ReadsBack dict pack.attrs := by
  have hs := calls_sized ⟨rfl, show 20 < 4096 by decide⟩ hcs
  constructor
  · rintro ⟨d, hbuild, hall⟩
    -- Beyond the datagram, zeros.
    have hmem : At (received d) 0 d := fun i _ ↦ by rw [received, Nat.zero_add]
    obtain ⟨b, hb, hsize, hbody, hrecv⟩ := radPacketRecv_of_build hs hbuild hmem
    obtain ⟨p, hp, hitems, hviews⟩ := hall _ hmem
    rw [hrecv] at hp
    obtain ⟨items, hloop, rfl⟩ := map_eq_some_iff.mp hp
    obtain rfl : items = layout 20 pack.attrs := hitems
    have hend : received d (20 + b.length) = 0 :=
      List.getD_eq_default _ _ (Nat.le_of_eq hsize)
    exact readsBack_of_recv hb hbody hend hloop hviews
  · intro hok
    obtain ⟨b, hb⟩ := encodeAttrs_of_readsBack hok
    obtain ⟨d, hbuild⟩ : ∃ d, radPacketBuild pack ra = some d :=
      ⟨_, map_eq_some_iff.mpr ⟨b, hb, rfl⟩⟩
    refine ⟨d, hbuild, fun mem hmem ↦ ?_⟩
    obtain ⟨b, hb, -, hbody, hrecv⟩ := radPacketRecv_of_build hs hbuild hmem
    obtain ⟨hloop, hviews⟩ := recv_of_readsBack hb hbody hok (Nat.le_refl _)
    rw [hloop] at hrecv
    exact ⟨_, hrecv, rfl, hviews⟩

/-- The authenticator of the examples. -/
def zeroRa : Vector UInt8 16 := Vector.replicate 16 0

/-- A name, and a value for a vendor's attribute that is then changed for a longer one. -/
def nameAndPair : List Call :=
  [.addStr none "User-Name" [0x61], .addStr (some "Cisco") "Cisco-AVPair" [0x62],
    .changeBytes (some "Cisco") "Cisco-AVPair" [0x63, 0x64]]

/-- The attributes they make. -/
def nameAndPairAttrs : List OutAttr :=
  [⟨none, ⟨"User-Name", 1, .string, false, 0, []⟩, 1, .bytes [0x61]⟩,
    ⟨smallDict.vendors.head?, ⟨"Cisco-AVPair", 1, .string, false, 0, []⟩, 2, .bytes [0x63, 0x64]⟩]

theorem roundTrips_iff_nameAndPair :
    ∃ pack, calls smallDict (radPacketAlloc 1) nameAndPair = some pack ∧
      pack.attrs = nameAndPairAttrs ∧ RoundTrips smallDict pack zeroRa := by
  obtain ⟨pack, hpack⟩ := Option.isSome_iff_exists.mp (show
    (calls smallDict (radPacketAlloc 1) nameAndPair).isSome = true by decide +kernel)
  have hattrs : (calls smallDict (radPacketAlloc 1) nameAndPair).map Pack.attrs =
      some nameAndPairAttrs := by decide +kernel
  rw [hpack] at hattrs
  have hattrs : pack.attrs = nameAndPairAttrs := some.inj hattrs
  have hok : ReadsBack smallDict pack.attrs := by
    rw [hattrs]
    refine ⟨⟨[0x61], rfl, ⟨by decide, by decide, nofun⟩, rfl, rfl, trivial⟩,
      ⟨[0x63, 0x64], rfl, ⟨rfl, rfl, by decide, rfl, rfl⟩, rfl, rfl, trivial⟩, trivial⟩
  exact ⟨pack, hpack, hattrs, (roundTrips_iff smallDict 1 nameAndPair pack zeroRa hpack).mpr hok⟩

/-- A name of 254 letters. -/
def longName : List Call := [.addStr none "User-Name" (List.replicate 254 0x61)]

/-- The name is added, and the packet laid out, but the length of the attribute, 256, is written as
0, and the datagram is refused. -/
theorem longName_refused :
    ∃ pack d, calls smallDict (radPacketAlloc 1) longName = some pack ∧
      radPacketBuild pack zeroRa = some d ∧ d.length = 276 ∧
      radPacketRecv smallDict (received d) d.length = none ∧
      ¬ RoundTrips smallDict pack zeroRa := by
  obtain ⟨pack, hpack⟩ := Option.isSome_iff_exists.mp (show
    (calls smallDict (radPacketAlloc 1) longName).isSome = true by decide +kernel)
  have hbuild : ((calls smallDict (radPacketAlloc 1) longName).bind fun pack ↦
      radPacketBuild pack zeroRa).map (fun d ↦
        (d.length, radPacketRecv smallDict (received d) d.length)) = some (276, none) := by
    decide +kernel
  rw [hpack] at hbuild
  obtain ⟨d, hd, hrecv⟩ := map_eq_some_iff.mp hbuild
  obtain ⟨hlen, hnone⟩ := Prod.mk.inj hrecv
  refine ⟨pack, d, hpack, hd, hlen, hnone, ?_⟩
  rintro ⟨d', hd', hall⟩
  obtain rfl := Option.mem_unique hd hd'
  obtain ⟨p, hp, -⟩ := hall (received d) fun i _ ↦ by rw [received, Nat.zero_add]
  nomatch hnone.symm.trans hp

end RoundTrip

end AccelPpp.Radius
