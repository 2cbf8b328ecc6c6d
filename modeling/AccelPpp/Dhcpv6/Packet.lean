import AccelPpp.Lib.Tlv

/-!
# DHCPv6 packets

A datagram is a message, or a message inside of relay headers: each relay agent on the way has put
what it got into an option of a message of its own. A message is a type, a transaction identifier
and options, and some options have options in them. `packetParse` takes a datagram apart; everything
that is not well formed is refused.

`parseReply` is not in the source, and says what it means that a reply is well formed. Here a relay
header has nothing but the relayed message behind it, and each length must be exactly that of what
it stands before.
-/

open BigEndian Tlv

namespace AccelPpp.Dhcpv6

/-- `struct in6_addr` -/
abbrev In6Addr := Vector UInt8 16

/-! ### Types and codes -/

inductive MsgType
  | solicit | advertise | request | confirm | renew | rebind | reply | release | decline
  | reconfigure | informationRequest | relayForw | relayRepl
  | other (b : UInt8)
deriving DecidableEq

def MsgType.ofByte : UInt8 → MsgType
  | 1 => .solicit
  | 2 => .advertise
  | 3 => .request
  | 4 => .confirm
  | 5 => .renew
  | 6 => .rebind
  | 7 => .reply
  | 8 => .release
  | 9 => .decline
  | 10 => .reconfigure
  | 11 => .informationRequest
  | 12 => .relayForw
  | 13 => .relayRepl
  | b => .other b

/-- The types of the messages that the server sends. -/
inductive ReplyType
  | advertise
  | reply
deriving DecidableEq

def ReplyType.toByte : ReplyType → UInt8
  | .advertise => 2
  | .reply => 7

namespace Code

def clientid : ℕ := 1
def serverid : ℕ := 2
def iaNa : ℕ := 3
def iaTa : ℕ := 4
def iaAddr : ℕ := 5
def oro : ℕ := 6
def preference : ℕ := 7
def relayMsg : ℕ := 9
def statusCode : ℕ := 13
def rapidCommit : ℕ := 14
def dnsServers : ℕ := 23
def domainList : ℕ := 24
def iaPd : ℕ := 25
def iaPrefix : ℕ := 26
def aftrName : ℕ := 64

end Code

/-- `struct dict_option`, without the name and the printing. -/
structure DictOption where
  code : ℕ
  minLen : ℕ
  nested : Bool

def knownOptions : List DictOption :=
  [⟨1, 2, false⟩, ⟨2, 2, false⟩, ⟨3, 12, true⟩, ⟨4, 4, true⟩, ⟨5, 24, true⟩, ⟨6, 0, false⟩,
    ⟨7, 1, false⟩, ⟨8, 2, false⟩, ⟨9, 4, false⟩, ⟨11, 0, false⟩, ⟨12, 16, false⟩, ⟨13, 2, false⟩,
    ⟨14, 0, false⟩, ⟨15, 0, false⟩, ⟨16, 0, false⟩, ⟨17, 0, false⟩, ⟨18, 0, false⟩, ⟨19, 1, false⟩,
    ⟨20, 0, false⟩, ⟨23, 0, false⟩, ⟨24, 0, false⟩, ⟨25, 12, true⟩, ⟨26, 25, true⟩, ⟨64, 0, false⟩]

/-- The entry of a code; the last one of the table is for all others. -/
def dictOption (code : ℕ) : DictOption :=
  (knownOptions.find? (·.code = code)).getD ⟨0, 0, false⟩

/-- The options that have options in them, and after how many bytes. -/
def nest (code : ℕ) : Option ℕ :=
  if (dictOption code).nested then some (dictOption code).minLen else none

/-- The labels of a DNS name, which must end with the empty label; `first` at the beginning. -/
def aftrLabels : ℕ → Bool → List UInt8 → Bool
  | fuel + 1, first, b :: rest =>
    if b = 0 then !first && rest.isEmpty
    else if 63 < b || rest.length < b.toNat then false
    else aftrLabels fuel false (rest.drop b.toNat)
  | _, _, _ => false

/-- `validate_aftr_name` -/
def validateAftrName (data : List UInt8) : Bool :=
  3 < data.length && data.length ≤ 255 && aftrLabels data.length true data

/-- What `parse_option` asks of an option besides its being complete. -/
def optionOk (code : ℕ) (value : List UInt8) : Bool :=
  (code != Code.aftrName || validateAftrName value) && (dictOption code).minLen ≤ value.length

/-! ### Requests -/

/-- The `n` bytes at the offset `off`. -/
def bytesAt (bytes : List UInt8) (off n : ℕ) : Vector UInt8 n :=
  Vector.ofFn fun i ↦ bytes.getD (off + i) 0

/-- `struct dhcpv6_relay` -/
structure Relay where
  hopCnt : UInt8
  linkAddr : In6Addr
  peerAddr : In6Addr
deriving DecidableEq

/-- What a relay header says. -/
def relayAt (bytes : List UInt8) : Relay :=
  ⟨bytes.getD 1 0, bytesAt bytes 2 16, bytesAt bytes 18 16⟩

/-- `struct dhcpv6_packet`, of a request. -/
structure Packet where
  relays : List Relay
  type : MsgType
  transId : Vector UInt8 3
  opts : List Item := []
  /-- The values of the last Client-ID and the last Server-ID option. -/
  clientid : Option (List UInt8) := none
  serverid : Option (List UInt8) := none
  rapidCommit : Bool := false

/-- The relayed message among the options of a relay header; there must be exactly one. -/
def relayMsg : ℕ → List UInt8 → Option (List UInt8) → Option (List UInt8)
  | _, [], inner => inner
  | 0, _ :: _, _ => none
  | fuel + 1, b :: bytes, inner =>
    match cut (b :: bytes) with
    | none => none
    | some (code, value, rest) =>
      if code = Code.relayMsg then
        if inner.isSome || value.length < 4 then none else relayMsg fuel rest (some value)
      else relayMsg fuel rest inner

/-- The relay headers, of which there may be `limit`, and the message. -/
def relayHeaders : ℕ → List UInt8 → Option (List Relay × List UInt8)
  | 0, bytes => if bytes.head? = some 12 then none else some ([], bytes)
  | limit + 1, bytes =>
    if bytes.head? = some 12 then
      if bytes.length < 34 then none
      else match relayMsg bytes.length (bytes.drop 34) none with
        | none => none
        | some inner =>
          (relayHeaders limit inner).map fun (relays, msg) ↦ (relayAt bytes :: relays, msg)
    else some ([], bytes)

/-- `DHCPV6_HOP_COUNT_LIMIT` -/
def hopCountLimit : ℕ := 8

/-- What the loop over the options notes; `aftrNameSeen` is its local variable. -/
def Packet.scan (pkt : Packet) (aftrNameSeen : Bool) : List Item → Option Packet
  | [] => some pkt
  | opt :: opts =>
    if opt.code = Code.clientid then
      { pkt with clientid := some opt.data }.scan aftrNameSeen opts
    else if opt.code = Code.serverid then
      { pkt with serverid := some opt.data }.scan aftrNameSeen opts
    else if opt.code = Code.aftrName then
      if aftrNameSeen then none else pkt.scan true opts
    else if opt.code = Code.rapidCommit then
      if pkt.rapidCommit || !opt.data.isEmpty then none
      else { pkt with rapidCommit := true }.scan aftrNameSeen opts
    else pkt.scan aftrNameSeen opts

/-- `dhcpv6_packet_parse` -/
def packetParse (buf : List UInt8) : Option Packet :=
  if buf.length < 4 then none
  else match relayHeaders hopCountLimit buf with
    | none => none
    | some (relays, msg) =>
      match decode nest optionOk msg.length (msg.drop 4) with
      | none => none
      | some opts =>
        { relays, type := .ofByte (msg.headD 0), transId := bytesAt msg 1 3, opts : Packet }.scan
          false opts

/-! ### Replies, as they are read -/

/-- A reply: the relay headers around it, the outermost first, and the message. -/
structure Message where
  relays : List Relay
  type : UInt8
  transId : Vector UInt8 3
  opts : List Item

/-- The type of a relayed reply. -/
def relayRepl : UInt8 := 13

/-- **A well-formed reply**, taken apart. -/
def parseReply : ℕ → List UInt8 → Option Message
  | 0, _ => none
  | fuel + 1, bytes =>
    if bytes.length < 4 then none
    else if bytes.head? = some relayRepl then
      if bytes.length < 34 then none
      else match cut (bytes.drop 34) with
        | some (code, inner, []) =>
          if code = Code.relayMsg then
            (parseReply fuel inner).map fun m ↦ { m with relays := relayAt bytes :: m.relays }
          else none
        | _ => none
    else (decode nest (fun _ _ ↦ true) bytes.length (bytes.drop 4)).map fun opts ↦
      { relays := [], type := bytes.headD 0, transId := bytesAt bytes 1 3, opts }

end AccelPpp.Dhcpv6
