import AccelPpp.Radius.Packet

/-!
# RADIUS packets as they are built (`radius/packet.c`)

A packet is made by calls that add attributes and change their values, and then laid out in a buffer
by `rad_packet_build`. A call looks an attribute up by name and stores a value through one member of
the union `rad_value_t`; the layout reads the member that belongs to the type the dictionary gives
the attribute. Where the two are not the same member, what is laid out is not a value that was
stored (it may be the bytes of a pointer), and the model has no bytes for it.

* A number has 32 bits, and an address that is stored as one has the bytes the number has in
  memory, lowest first.
* A string has no NUL in it, as `strlen` sees it.
* A call that returns an error, or crashes, is `none`.
-/

namespace AccelPpp.Radius

open UInt8

/-! ### Lookup by name -/

/-- `rad_dict_find_vendor_name` -/
def Dict.findVendorName (dict : Dict) (name : String) : Option Vendor :=
  dict.vendors.find? fun v ↦ v.name = name

/-- `rad_dict_find_attr`, `rad_dict_find_vendor_attr` -/
def Dict.findAttr (dict : Dict) (vendor : Option Vendor) (name : String) : Option DictAttr :=
  (match vendor with
    | some v => v.items
    | none => dict.items).find? fun a ↦ a.name = name

/-- `rad_dict_find_val_name` -/
def DictAttr.findValName (a : DictAttr) (name : String) : Option DictVal :=
  (a.values.find? fun v ↦ v.1 = name).map Prod.snd

/-! ### Packets -/

/-- A stored value, by the member of `rad_value_t` it is stored through. -/
inductive OutVal
  /-- `integer` -/
  | int (v : UInt32)
  /-- `string` or `octets`: what is pointed to. -/
  | bytes (b : List UInt8)
  /-- `ifid`, as its bytes. -/
  | ifid (b : Vector UInt8 8)
  /-- A network: its length and its address. -/
  | net (len : UInt8) (b : Vector UInt8 16)
  deriving DecidableEq

/-- `struct rad_attr_t`, as it is added. -/
structure OutAttr where
  vendor : Option Vendor
  attr : DictAttr
  len : ℕ
  val : OutVal
  deriving DecidableEq

/-- `struct rad_packet_t`, as it is made. -/
structure Pack where
  code : UInt8
  id : UInt8
  len : ℕ
  attrs : List OutAttr
  deriving DecidableEq

/-- `rad_packet_alloc` -/
def radPacketAlloc (code : UInt8) : Pack := ⟨code, 1, 20, []⟩

/-- `REQ_LENGTH_MAX` -/
def reqLengthMax : ℕ := 4096

/-- The bytes before the value, with or without a vendor. -/
def headerLen {β : Type} (vendor : Option β) : ℕ := if vendor.isSome then 8 else 2

section

variable (dict : Dict) (pack : Pack) (vendorName : Option String) (name : String)

/-- The vendor and the attribute that a call names. -/
def findNamed : Option (Option Vendor × DictAttr) :=
  match vendorName with
  | some vn =>
    (dict.findVendorName vn).bind fun v ↦ (dict.findAttr (some v) name).map fun a ↦ (some v, a)
  | none => (dict.findAttr none name).map fun a ↦ (none, a)

/-- What the `rad_packet_add_*` have in common: the room that is left, the lookup, and the new
attribute at the end. -/
def addAttr (len : ℕ) (val : DictAttr → Option OutVal) : Option Pack :=
  if pack.len + headerLen vendorName + len ≥ reqLengthMax then none
  else
    (findNamed dict vendorName name).bind fun va ↦ (val va.2).map fun v ↦
      { pack with
        attrs := pack.attrs ++ [⟨va.1, va.2, len, v⟩]
        len := pack.len + headerLen vendorName + len }

/-- A value of the dictionary as it is stored. A string is pointed to, with its NUL, and as many
bytes of it are used as the attribute has. -/
def DictVal.stored (len : ℕ) : DictVal → OutVal
  | .integer v => .int v
  | .string b => .bytes ((b ++ [0]).take len)

/-- `rad_packet_add_int`, and `rad_packet_add_ipaddr`, which is the same. -/
def addInt (v : UInt32) : Option Pack :=
  addAttr dict pack vendorName name 4 fun _ ↦ some (.int v)

/-- `rad_packet_add_octets` -/
def addOctets (b : List UInt8) : Option Pack :=
  addAttr dict pack vendorName name b.length fun _ ↦ some (.bytes b)

/-- `rad_packet_add_str` -/
def addStr (s : List UInt8) : Option Pack :=
  let b := s.takeWhile (· ≠ 0)
  addAttr dict pack vendorName name b.length fun _ ↦ some (.bytes b)

/-- `rad_packet_add_val` -/
def addVal (val : String) : Option Pack :=
  addAttr dict pack vendorName name 4 fun a ↦ (a.findValName val).map (DictVal.stored 4)

/-- `rad_packet_add_ifid` -/
def addIfid (ifid : Vector UInt8 8) : Option Pack :=
  addAttr dict pack vendorName name 8 fun _ ↦ some (.ifid ifid)

/-- `rad_packet_add_ipv6prefix`; the length is stored in a byte. -/
def addNet (b : Vector UInt8 16) (len : ℕ) : Option Pack :=
  addAttr dict pack vendorName name 18 fun _ ↦ some (.net (ofNat len) b)

/-- `rad_packet_find_attr`: without a vendor's name, an attribute of any vendor will do. -/
def findOut : Option ℕ :=
  match vendorName with
  | some vn =>
    (dict.findVendorName vn).bind fun v ↦
      pack.attrs.findIdx? fun a ↦ a.vendor = some v ∧ a.attr.name = name
  | none => pack.attrs.findIdx? fun a ↦ a.attr.name = name

/-- `rad_packet_change_int` -/
def changeInt (v : UInt32) : Option Pack :=
  (findOut dict pack vendorName name).map fun i ↦
    { pack with attrs := pack.attrs.modify i fun a ↦ { a with val := .int v } }

/-- `rad_packet_change_val`: the length stays. -/
def changeVal (val : String) : Option Pack :=
  (findOut dict pack vendorName name).bind fun i ↦ (pack.attrs[i]?).bind fun a ↦
    (a.attr.findValName val).map fun v ↦
      { pack with attrs := pack.attrs.modify i ({ · with val := v.stored a.len }) }

/-- `rad_packet_change_octets`, `rad_packet_change_str`: the value must be one that is pointed to,
or there is nothing to copy into. -/
def changeBytes (b : List UInt8) : Option Pack :=
  (findOut dict pack vendorName name).bind fun i ↦ (pack.attrs[i]?).bind fun a ↦
    match a.val with
    | .bytes _ =>
      if a.len ≠ b.length ∧ pack.len - a.len + b.length ≥ reqLengthMax then none
      else
        some { pack with
          attrs := pack.attrs.modify i fun a ↦ { a with len := b.length, val := .bytes b }
          len := pack.len - a.len + b.length }
    | _ => none

end

/-- The calls. -/
inductive Call
  | addInt (vendorName : Option String) (name : String) (v : UInt32)
  | addOctets (vendorName : Option String) (name : String) (b : List UInt8)
  | addStr (vendorName : Option String) (name : String) (s : List UInt8)
  | addVal (vendorName : Option String) (name val : String)
  | addIfid (vendorName : Option String) (name : String) (ifid : Vector UInt8 8)
  | addNet (vendorName : Option String) (name : String) (b : Vector UInt8 16) (len : ℕ)
  | changeInt (vendorName : Option String) (name : String) (v : UInt32)
  | changeVal (vendorName : Option String) (name val : String)
  | changeBytes (vendorName : Option String) (name : String) (b : List UInt8)

/-- One call. -/
def call (dict : Dict) (pack : Pack) : Call → Option Pack
  | .addInt vn name v => addInt dict pack vn name v
  | .addOctets vn name b => addOctets dict pack vn name b
  | .addStr vn name s => addStr dict pack vn name s
  | .addVal vn name val => addVal dict pack vn name val
  | .addIfid vn name ifid => addIfid dict pack vn name ifid
  | .addNet vn name b len => addNet dict pack vn name b len
  | .changeInt vn name v => changeInt dict pack vn name v
  | .changeVal vn name val => changeVal dict pack vn name val
  | .changeBytes vn name b => changeBytes dict pack vn name b

/-- Calls one after the other, all of them successful. -/
def calls (dict : Dict) (pack : Pack) : List Call → Option Pack
  | [] => some pack
  | c :: cs => (call dict pack c).bind fun pack ↦ calls dict pack cs

/-! ### The layout -/

/-- `u_write_be32` -/
def beBytes (v : UInt32) : List UInt8 :=
  [ofNat (v.toNat / 2 ^ 24), ofNat (v.toNat / 2 ^ 16), ofNat (v.toNat / 2 ^ 8),
    ofNat v.toNat]

/-- A number as it is in memory. -/
def hostBytes (v : UInt32) : List UInt8 := (beBytes v).reverse

/-- The bytes of a value, through the member that belongs to the type; `none` when the value was not
stored through it or has another length than the attribute, and for the types that
`rad_packet_build` aborts on. -/
def encodeValue (a : OutAttr) : Option (List UInt8) :=
  let bytes := match a.attr.type, a.val with
    | .integer, .int v => some (beBytes v)
    | .date, .int v => some (beBytes v)
    | .ipaddr, .int v => some (hostBytes v)
    | .string, .bytes b => some b
    | .octets, .bytes b => some b
    | .ifid, .ifid b => some b.toList
    | .prefix6, .net len b => some (0 :: len :: b.toList)
    | _, _ => none
  bytes.filter fun b ↦ b.length = a.len

/-- What stands before the value. Lengths and the identifier are cut to a byte, and the fields of a
sub-attribute have a byte each, whatever the format of the vendor. -/
def header (a : OutAttr) : List UInt8 :=
  (match a.vendor with
    | some v =>
      [26, ofNat (a.len + 8)] ++ beBytes v.id
    | none => []) ++
    [ofNat a.attr.id, ofNat (a.len + 2)]

/-- The attributes one after the other. -/
def encodeAttrs : List OutAttr → Option (List UInt8)
  | [] => some []
  | a :: as =>
    (encodeValue a).bind fun b ↦ (encodeAttrs as).map fun rest ↦ header a ++ b ++ rest

/-- `rad_packet_build`: the datagram, with the authenticator `ra`. -/
def radPacketBuild (pack : Pack) (ra : Vector UInt8 16) : Option (List UInt8) :=
  (encodeAttrs pack.attrs).map fun b ↦
    [pack.code, pack.id, ofNat (pack.len / 256), ofNat pack.len] ++ ra.toList ++ b

end AccelPpp.Radius
