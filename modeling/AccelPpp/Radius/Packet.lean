import Mathlib

/-!
# RADIUS packets as they are received (`radius/dict.c`, `radius/packet.c`)

A datagram is received into a buffer, here a memory `mem : ℕ → UInt8` with the number of bytes that
were received. Bytes beyond that are whatever the buffer held before, and the parser does look at
one of them when the dictionary gives a vendor no length field.

`recvLoop` is the loop of `rad_packet_recv`. On a vendor-specific attribute of a vendor that the
dictionary knows, the identifier and the length of the sub-attribute take the place of those of the
attribute itself, and the cursor moves on by them. Each turn interprets some bytes as an attribute,
an `Item`; the attributes that are returned are the items the dictionary has an entry for.
-/

namespace AccelPpp.Radius

/-! ### The dictionary -/

/-- `ATTR_TYPE_*` -/
inductive AttrType
  | integer
  | string
  | octets
  | date
  | ipaddr
  | ifid
  | ipv6addr
  /-- `ATTR_TYPE_IPV6PREFIX` -/
  | prefix6
  | ether
  | tlv
  deriving DecidableEq

/-- The value of a `VALUE` line: a number, or the text of one for an attribute of strings. -/
inductive DictVal
  | integer (v : UInt32)
  | string (bytes : List UInt8)
  deriving DecidableEq

/-- `struct rad_dict_attr_t` -/
structure DictAttr where
  name : String
  id : ℕ
  type : AttrType
  array : Bool
  size : ℕ
  /-- The named values. -/
  values : List (String × DictVal) := []
  deriving DecidableEq

/-- `struct rad_dict_vendor_t`; `tag` and `len` are the widths of the two fields that begin a
sub-attribute. -/
structure Vendor where
  id : UInt32
  tag : ℕ
  len : ℕ
  name : String
  items : List DictAttr
  deriving DecidableEq

/-- `struct rad_dict_t` -/
structure Dict where
  items : List DictAttr
  vendors : List Vendor
  deriving DecidableEq

section

variable (dict : Dict) (mem : ℕ → UInt8)

/-- `rad_dict_find_vendor_id` -/
def Dict.findVendorId (id : UInt32) : Option Vendor :=
  dict.vendors.find? fun v ↦ v.id = id

/-- `rad_dict_find_attr_id` -/
def Dict.findAttrId (vendor : Option Vendor) (id : ℕ) : Option DictAttr :=
  (match vendor with
    | some v => v.items
    | none => dict.items).find? fun a ↦ a.id = id

/-! ### Reading -/

/-- `u_read_be16` -/
def be16 (off : ℕ) : ℕ :=
  (mem off).toNat * 256 + (mem (off + 1)).toNat

/-- `u_read_be32` -/
def be32 (off : ℕ) : ℕ :=
  be16 mem off * 65536 + be16 mem (off + 2)

/-- `len` bytes from an offset on. -/
def bytesAt (off len : ℕ) : List UInt8 :=
  (List.range len).map fun i ↦ mem (off + i)

/-- A field at the beginning of a sub-attribute: two bytes when its width is 2, and one byte
otherwise. -/
def readField (off width : ℕ) : ℕ :=
  if width = 2 then be16 mem off else (mem off).toNat

/-! ### Attributes -/

/-- `rad_value_t`, by what has been stored in it; `unset` when nothing has. -/
inductive Value
  | unset
  | integer (v : ℕ)
  | string (bytes : List UInt8)
  | octets (bytes : List UInt8)
  /-- An address, as its bytes. -/
  | addr (bytes : List UInt8)
  | prefix6 (len : ℕ) (bytes : List UInt8)
  deriving DecidableEq

/-- What the parser takes for an attribute: `off` is where its value begins. -/
structure Item where
  vendor : Option Vendor
  id : ℕ
  off : ℕ
  len : ℕ
  deriving DecidableEq

/-- `struct rad_attr_t`; `raw` is the offset of the value. -/
structure RadAttr where
  vendor : Option Vendor
  attr : DictAttr
  len : ℕ
  raw : ℕ
  val : Value
  deriving DecidableEq

/-- The value of an attribute by its type. A value of the wrong length is left unset, with a
warning. -/
def decodeValue (da : DictAttr) (off len : ℕ) : Value :=
  if da.array then .unset
  else
    match da.type with
    | .string => .string (bytesAt mem off len)
    | .octets | .ether | .tlv => .octets (bytesAt mem off len)
    | .integer =>
      if len ≠ da.size then .unset
      else if len = 4 then .integer (be32 mem off)
      else if len = 2 then .integer (be16 mem off)
      else if len = 1 then .integer (mem off).toNat
      else .unset
    | .date => if len = 4 then .integer (be32 mem off) else .unset
    | .ipaddr | .ifid | .ipv6addr =>
      if len = da.size then .addr (bytesAt mem off len) else .unset
    | .prefix6 =>
      if len < 2 ∨ len > 18 then .unset
      else if (mem (off + 1)).toNat > 128 then .unset
      else
        .prefix6 (mem (off + 1)).toNat
          (bytesAt mem (off + 2) (len - 2) ++ List.replicate (18 - len) 0)

/-- The attribute an item is returned as, if the dictionary has it. -/
def decodeItem (it : Item) : Option RadAttr :=
  (dict.findAttrId it.vendor it.id).map fun da ↦
    ⟨it.vendor, da, it.len, it.off, decodeValue mem da it.off it.len⟩

/-! ### The parser -/

/-- The loop of `rad_packet_recv`, from offset `off` with `n` bytes left. Every turn takes at least
two bytes, so `n` turns are enough. -/
def recvLoop (dict : Dict) (mem : ℕ → UInt8) : ℕ → ℕ → ℕ → Option (List Item)
  | 0, _, n => if n = 0 then some [] else none
  | fuel + 1, off, n =>
    if n = 0 then some []
    else if n < 2 then none
    else if (mem (off + 1)).toNat < 2 then none
    else
      let len := (mem (off + 1)).toNat - 2
      if 2 + len > n then none
      else if (mem off).toNat = 26 then
        if len < 4 then none
        else
          match dict.findVendorId (UInt32.ofNat (be32 mem (off + 2))) with
          | some v =>
            if len < 4 + v.tag + v.len then none
            else
              let id := readField mem (off + 6) v.tag
              let total := readField mem (off + 6 + v.tag) v.len
              if total < v.tag + v.len then none
              else
                let sub := total - (v.tag + v.len)
                -- The bound is on what is left of the packet, not of the attribute.
                if 2 + sub > n - (4 + v.tag + v.len) then none
                else
                  (recvLoop dict mem fuel (off + 6 + total) (n - (6 + total))).map
                    (⟨some v, id, off + 6 + (v.tag + v.len), sub⟩ :: ·)
          | none =>
            (recvLoop dict mem fuel (off + 2 + len) (n - (2 + len))).map
              (⟨none, 26, off + 2, len⟩ :: ·)
      else
        (recvLoop dict mem fuel (off + 2 + len) (n - (2 + len))).map
          (⟨none, (mem off).toNat, off + 2, len⟩ :: ·)

/-- `struct rad_packet_t`, as it is returned, with the items it was made from. -/
structure RadPacket where
  code : ℕ
  id : ℕ
  len : ℕ
  items : List Item
  attrs : List RadAttr
  deriving DecidableEq

/-- `rad_packet_recv` on `n` bytes that have been read; `none` when it refuses them. -/
def radPacketRecv (n : ℕ) : Option RadPacket :=
  if n < 20 then none
  else
    let len := be16 mem 2
    if len < 20 ∨ len > n then none
    else
      (recvLoop dict mem (len - 20) 20 (len - 20)).map fun items ↦
        ⟨(mem 0).toNat, (mem 1).toNat, len, items, items.filterMap (decodeItem dict mem)⟩

end

end AccelPpp.Radius
