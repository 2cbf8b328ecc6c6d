import AccelPpp.L2tp.Hidden

/-!
# L2TP control packets on the wire (`l2tp/packet.c`, `l2tp/dict.c`)

A packet is made by calls that add attributes (`l2tp_packet_add_*`), laid out by `l2tp_packet_send`
and read by `l2tp_recv`. A call that adds an attribute looks it up in the dictionary and stores the
value through one member of the union `l2tp_value_t`; the layout reads the member that belongs to
the type the dictionary gives the attribute. Where the two are not the same member, what is sent is
not a value that was stored (it may be part of a pointer), and the model has no bytes for it
(`garbled`). An attribute that is to be hidden is enciphered when it is added, with the random
vector that the packet got when the first attribute was hidden.

* The dictionary is one in which identifiers have 16 bits and the Random-Vector is a sequence of
  octets that is not hidden, as in the dictionaries that come with the program.
* A string has no NUL in it, as `strlen` sees it, and less than `2 ^ 31` bytes: its length is kept
  in an `int`.
* The bits of a header field are added, as no two of the parts have a bit in common.
* The Tunnel ID, the Session ID, Ns and Nr are copied as they are, in network byte order (`ids`).
* A call that returns an error is `none`; what `u_randbuf` and the allocators do is an input.
* `l2tp_recv` finds the memory it asks for, and its buffer is the datagram.

Two fields of an attribute are not in the source: `given`, the value as it was given to the call, in
network byte order, and `hiddenWith`, the random vector it was enciphered with.
-/

namespace AccelPpp.L2tp.Wire

open ChainCipher BigEndian

/-! ### The dictionary -/

/-- `ATTR_TYPE_*` -/
inductive AttrType
  | none | int16 | int32 | int64 | octets | string
deriving DecidableEq

/-- `struct l2tp_dict_attr_t`; M and H are -1 if the attribute may have either value. -/
structure DictAttr where
  id : ℕ
  type : AttrType
  M : Option Bool
  H : Option Bool
deriving DecidableEq

/-- `Message_Type` -/
def messageType : ℕ := 0

/-- `Random_Vector` -/
def randomVector : ℕ := 36

/-- `struct l2tp_dict_t` -/
structure Dict where
  items : List DictAttr
  id_lt : ∀ da ∈ items, da.id < 65536
  rv : ∀ da ∈ items, da.id = randomVector → da.type = .octets ∧ da.H = some false

section

variable (md5 : Digest) (d : Dict) (pack : Pack) (env : CallEnv) (id : ℕ)

/-- `l2tp_dict_find_attr_by_id` -/
def Dict.findAttrById : Option DictAttr := d.items.find? fun da ↦ da.id = id

/-! ### Packets as they are made -/

/-- A stored value, by the member of `l2tp_value_t` it is stored through. -/
inductive OutVal
  | int16 (v : UInt16)
  | int32 (v : UInt32)
  | int64 (v : UInt64)
  /-- `octets` or `string`: what is pointed to. -/
  | bytes (b : List UInt8)
deriving DecidableEq

/-- `struct l2tp_attr_t`, as it is added. -/
structure OutAttr where
  attr : DictAttr
  M : Bool
  H : Bool
  length : ℕ
  val : OutVal
  given : List UInt8
  hiddenWith : Option (List UInt8)
deriving DecidableEq

/-- `struct l2tp_packet_t`, as it is made. -/
structure Pack where
  ver : ℕ
  ids : Vector UInt8 8
  attrs : List OutAttr
  /-- The value of `last_RV`. -/
  lastRV : Option (List UInt8)
  secret : List UInt8
  hideAvps : Bool

/-- What happens in `l2tp_packet_add_random_vector`. -/
structure RvEnv where
  attr : Bool
  len : Option UInt16
  memory : Bool
  octets : Option (ℕ → UInt8)

/-- What happens in a call: the memory for the attribute and for a value that is copied, the random
vector, and what `encode_attr` meets with. -/
structure CallEnv where
  attr : Bool
  value : Bool
  rv : RvEnv
  hide : HideEnv

/-- `attr_alloc`, with the attribute's M and H. -/
def attrAlloc (M H memory : Bool) : Option (DictAttr × Bool × Bool) :=
  match d.findAttrById id with
  | none => none
  | some da => if memory then some (da, da.M.getD M, da.H.getD H) else none

/-- `l2tp_packet_add_random_vector` -/
def addRandomVector (env : RvEnv) : Option Pack :=
  match attrAlloc d randomVector true false env.attr, env.len, env.memory, env.octets with
  | some (da, M, H), some rand, true, some bytes =>
    let octets := block bytes 0 (rand.toNat % 128 + 16)
    some
      { pack with
        attrs := pack.attrs ++ [⟨da, M, H, octets.length, .bytes octets, octets, none⟩]
        lastRV := some octets }
  | _, _, _, _ => none

/-- What the `l2tp_packet_add_*` have in common. The value is enciphered as the bytes `hidden`, or
stored as `clear`, with its length, unless there is no memory for that. -/
def addAttr (M : Bool) (given hidden : List UInt8) (clear : Option (ℕ × OutVal)) : Option Pack :=
  match attrAlloc d id M pack.hideAvps env.attr with
  | none => none
  | some (da, M, true) =>
    match if pack.lastRV = none then addRandomVector d pack env.rv else some pack with
    | none => none
    | some pack =>
      (encodeAttr md5 pack.secret pack.lastRV (.ofNat da.id) env.hide hidden).map fun octets ↦
        { pack with
          attrs := pack.attrs ++ [⟨da, M, true, octets.length, .bytes octets, given, pack.lastRV⟩] }
  | some (da, M, false) =>
    clear.map fun (length, val) ↦
      { pack with attrs := pack.attrs ++ [⟨da, M, false, length, val, given, none⟩] }

/-- `l2tp_packet_add_int16` -/
def addInt16 (v : UInt16) (M : Bool) : Option Pack :=
  addAttr md5 d pack env id M (toBytes 2 v.toNat) (toBytes 2 v.toNat) (some (2, .int16 v))

/-- `l2tp_packet_add_int32` -/
def addInt32 (v : UInt32) (M : Bool) : Option Pack :=
  addAttr md5 d pack env id M (toBytes 4 v.toNat) (toBytes 4 v.toNat) (some (4, .int32 v))

/-- `l2tp_packet_add_int64` -/
def addInt64 (v : UInt64) (M : Bool) : Option Pack :=
  addAttr md5 d pack env id M (toBytes 8 v.toNat) (toBytes 8 v.toNat) (some (8, .int64 v))

/-- `l2tp_packet_add_string`. `encode_attr` takes the length as a `uint16_t`. -/
def addString (s : List UInt8) (M : Bool) : Option Pack :=
  let val := s.takeWhile (· ≠ 0)
  addAttr md5 d pack env id M val (val.take (val.length % 65536))
    (if env.value then some (val.length, .bytes val) else none)

/-- `l2tp_packet_add_octets` -/
def addOctets (val : List UInt8) (M : Bool) : Option Pack :=
  if avpLenMask < val.length then none
  else
    addAttr md5 d pack env id M val val
      (if val = [] ∨ env.value then some (val.length, .bytes val) else none)

/-- The calls. -/
inductive Call
  | int16 (id : ℕ) (v : UInt16)
  | int32 (id : ℕ) (v : UInt32)
  | int64 (id : ℕ) (v : UInt64)
  | string (id : ℕ) (s : List UInt8)
  | octets (id : ℕ) (val : List UInt8)

/-- One call. -/
def call (M : Bool) : Call → Option Pack
  | .int16 id v => addInt16 md5 d pack env id v M
  | .int32 id v => addInt32 md5 d pack env id v M
  | .int64 id v => addInt64 md5 d pack env id v M
  | .string id s => addString md5 d pack env id s M
  | .octets id val => addOctets md5 d pack env id val M

/-- Calls one after the other, all of them successful. -/
def calls (md5 : Digest) (d : Dict) (pack : Pack) : List (Call × Bool × CallEnv) → Option Pack
  | [] => some pack
  | (c, M, env) :: cs => (call md5 d pack env M c).bind fun pack ↦ calls md5 d pack cs

/-- A packet without attributes, as `l2tp_packet_alloc` makes it. If it is given a message type, it
adds it by `l2tp_packet_add_int16`. -/
def newPack (ver : ℕ) (ids : Vector UInt8 8) (secret : List UInt8) (hideAvps : Bool) : Pack :=
  ⟨ver, ids, [], none, secret, hideAvps⟩

/-! ### The layout -/

/-- `L2TP_MAX_PACKET_SIZE` -/
def maxPacketSize : ℕ := 65536

/-- `sizeof(struct l2tp_hdr_t)` -/
def hdrSize : ℕ := 12

/-- The `switch` over the type: the bytes of a value, through the member that belongs to the type.
The buffer is filled with zeros before. -/
def clearBytes (type : AttrType) (length : ℕ) (val : OutVal) : Option (List UInt8) :=
  match type, val with
  | .int16, .int16 v => some (toBytes 2 v.toNat)
  | .int32, .int32 v => some (toBytes 4 v.toNat)
  | .int64, .int64 v => some (toBytes 8 v.toNat)
  | .string, .bytes b => some b
  | .octets, .bytes b => some b
  | .none, _ => some (List.replicate length 0)
  | _, _ => none

/-- The bytes of an attribute's value; those of a hidden one are `octets`. -/
def valueBytes (a : OutAttr) : Option (List UInt8) :=
  if a.H then
    match a.val with
    | .bytes b => some b
    | _ => none
  else clearBytes a.attr.type a.length a.val

/-- The header of an AVP: the flags with the length, no vendor, and the type. -/
def avpHeader (a : OutAttr) : List UInt8 :=
  toBytes 2 ((if a.M then 32768 else 0) + (if a.H then 16384 else 0) +
    (avpSize + a.length) % (avpLenMask + 1)) ++ toBytes 2 0 ++ toBytes 2 a.attr.id

/-- What becomes of a packet. -/
inductive Sent
  | refused
  /-- Something is sent that the model does not know. -/
  | garbled
  | datagram (bytes : List UInt8)
deriving DecidableEq

/-- The loop of `l2tp_packet_send` over the attributes. -/
def sendLoop : List OutAttr → ℕ → Sent
  | [], _ => .datagram []
  | a :: attrs, len =>
    if maxPacketSize ≤ len + avpSize + a.length then .refused
    else if avpLenMask < avpSize + a.length then .refused
    else
      match sendLoop attrs (len + avpSize + a.length), valueBytes a with
      | .refused, _ => .refused
      | .datagram avps, some val => .datagram (avpHeader a ++ val ++ avps)
      | _, _ => .garbled

/-- The size of the AVPs of some attributes. -/
def avpsSize (attrs : List OutAttr) : ℕ := (attrs.map fun a ↦ avpSize + a.length).sum

/-- The header of a packet: the flags T, L and S with the version, the length, and the rest. -/
def header : List UInt8 :=
  toBytes 2 (32768 + 16384 + 2048 + pack.ver % 16) ++
    toBytes 2 (hdrSize + avpsSize pack.attrs) ++ pack.ids.toList

/-- `l2tp_packet_send` -/
def packetSend : Sent :=
  match sendLoop pack.attrs hdrSize with
  | .datagram avps => .datagram (header pack ++ avps)
  | r => r

/-! ### Packets as they are received -/

/-- A received value. -/
inductive InVal
  | none
  | int16 (v : UInt16)
  | int32 (v : UInt32)
  | int64 (v : UInt64)
  /-- `octets` or `string`, without the NUL that is put behind it. -/
  | bytes (b : List UInt8)
deriving DecidableEq

/-- The bytes of a received value, in network byte order. -/
def InVal.toList : InVal → List UInt8
  | .none => []
  | .int16 v => toBytes 2 v.toNat
  | .int32 v => toBytes 4 v.toNat
  | .int64 v => toBytes 8 v.toNat
  | .bytes b => b

/-- `struct l2tp_attr_t`, as it is received. -/
structure InAttr where
  attr : DictAttr
  M : Bool
  length : ℕ
  val : InVal
deriving DecidableEq

/-- `struct l2tp_avp_t`, with the bits of its flags that are used. -/
structure Avp where
  M : Bool
  H : Bool
  vendor : ℕ
  type : UInt16
  val : List UInt8
deriving DecidableEq

/-- The AVP at the front. -/
def cutAvp (bytes : List UInt8) : Option (Avp × List UInt8) :=
  match bytes with
  | f₀ :: f₁ :: v₀ :: v₁ :: t₀ :: t₁ :: rest =>
    let flags := ofBytes [f₀, f₁]
    let avpLen := flags % (avpLenMask + 1)
    if avpLen < avpSize then none
    else if bytes.length < avpLen then none
    else
      some (⟨flags / 32768 % 2 = 1, flags / 16384 % 2 = 1, ofBytes [v₀, v₁],
        .ofNat (ofBytes [t₀, t₁]), rest.take (avpLen - avpSize)⟩, rest.drop (avpLen - avpSize))
  | _ => none

/-- The `switch` over the type. -/
def recvValue (type : AttrType) (val : List UInt8) : Option InVal :=
  match type with
  | .none => some .none
  | .int16 => if val.length = 2 then some (.int16 (.ofNat (ofBytes val))) else none
  | .int32 => if val.length = 4 then some (.int32 (.ofNat (ofBytes val))) else none
  | .int64 => if val.length = 8 then some (.int64 (.ofNat (ofBytes val))) else none
  | .octets | .string => some (.bytes val)

/-- The value of an AVP, deciphered if it is hidden. Its length is `orig_attr_len`. -/
def avpValue (secret : List UInt8) (rv : Option (List UInt8)) (avp : Avp) : Option (List UInt8) :=
  if avp.H then
    match rv with
    | none => none
    | some rv =>
      if secret = [] then none
      else (decodeAvp md5 secret rv avp.type avp.val).map fun (n, body) ↦ (body.drop 2).take n
  else some avp.val

/-- The body of the loop of `l2tp_recv`. It fails, skips the AVP, or has an attribute. -/
def recvAvp (permissive : Bool) (secret : List UInt8) (rv : Option (List UInt8)) (avp : Avp) :
    Option (Option InAttr) :=
  if avp.vendor ≠ 0 then some none
  else
    match d.findAttrById avp.type.toNat with
    | none => if avp.M ∧ ¬ permissive then none else some none
    | some da =>
      if ¬ permissive ∧ (da.M = some (!avp.M) ∨ da.H = some (!avp.H)) then none
      else
        match avpValue md5 secret rv avp with
        | none => none
        | some val => (recvValue da.type val).map fun v ↦ some ⟨da, avp.M, val.length, v⟩

/-- The loop of `l2tp_recv`; an AVP takes at least one turn of the bytes it has. -/
def recvLoop (md5 : Digest) (d : Dict) (permissive : Bool) (secret : List UInt8) :
    ℕ → Option (List UInt8) → List UInt8 → Option (List InAttr)
  | 0, _, bytes => if bytes = [] then some [] else none
  | turns + 1, rv, bytes =>
    if bytes = [] then some []
    else
      match cutAvp bytes with
      | none => none
      | some (avp, rest) =>
        match recvAvp md5 d permissive secret rv avp with
        | none => none
        | some none => recvLoop md5 d permissive secret turns rv rest
        | some (some a) =>
          let rv := if a.attr.id = randomVector then some a.val.toList else rv
          (recvLoop md5 d permissive secret turns rv rest).map fun attrs ↦ a :: attrs

/-- `l2tp_recv`, with the part of the header that it copies. -/
def recv (permissive : Bool) (secret : List UInt8) (buf : List UInt8) : Option
    (List UInt8 × List InAttr) :=
  if buf.length < hdrSize then none
  else
    let flags := ofBytes (buf.take 2)
    let length := ofBytes ((buf.drop 2).take 2)
    if flags / 32768 % 2 = 0 ∨ flags / 16384 % 2 = 0 ∨ flags / 2048 % 2 = 0 then none
    else if ¬ (flags % 16 = 2 ∧ flags / 512 % 2 = 0 ∨ flags % 16 = 3) then none
    else if length < hdrSize ∨ buf.length < length then none
    else
      (recvLoop md5 d permissive secret length none
          ((buf.drop hdrSize).take (length - hdrSize))).map fun attrs ↦
        ((buf.drop 4).take 8, attrs)

end

end AccelPpp.L2tp.Wire
