import Mathlib

/-!
# Control packets and their option lists

LCP, CCP, IPCP and IPv6CP cut the body of a Configure packet into options with the same loop: an
option is an identifier, a length that counts these two bytes, and a value. The loop stops with an
error when fewer than two bytes are left or when a length is less than two or more than what is
left.

`scanOpts` is that loop and `parseOpts` its successful outcome: it accepts exactly the
concatenations of well-formed options (`parseOpts_eq_some_iff`). A `RecvOpt` carries the proof that
its length byte counts its bytes.

`OptState` is the verdict on one option, `XXX_OPT_*` in the sources, and `OptState.val` the negative
number by which the sources compare verdicts.
-/

namespace AccelPpp.Ppp

open List

/-- A received option. -/
structure RecvOpt where
  /-- `hdr->id` -/
  id : UInt8
  /-- `hdr->len` -/
  len : UInt8
  /-- The bytes after the header. -/
  data : List UInt8
  /-- The length counts the header and the value. -/
  len_eq : len.toNat = data.length + 2
  deriving DecidableEq

/-- The bytes of an option. -/
def RecvOpt.bytes (o : RecvOpt) : List UInt8 :=
  o.id :: o.len :: o.data

/-- The big-endian value of an option; `ntohl(opt32->val)` for one of four bytes. -/
def RecvOpt.val (o : RecvOpt) : Nat :=
  o.data.foldl (fun n b ↦ n * 256 + b.toNat) 0

/-- The `k` low bytes of `n`, in network order. -/
def natBytes : Nat → Nat → List UInt8
  | 0, _ => []
  | k + 1, n => natBytes k (n / 256) ++ [.ofNat n]

@[simp] lemma length_natBytes (k n : Nat) : (natBytes k n).length = k := by
  induction k generalizing n with
  | zero => rfl
  | succ k ih => simp [natBytes, ih]

/-- The parsing loop: the options up to the first malformed one, and whether there was none. The
fuel bounds the number of options. -/
def scanOptsAux : Nat → List UInt8 → List RecvOpt × Bool
  | _, [] => ([], true)
  | 0, _ :: _ => ([], false)
  | _ + 1, [_] => ([], false)
  | fuel + 1, id :: len :: rest =>
    if h : 2 ≤ len.toNat ∧ len.toNat ≤ rest.length + 2 then
      let o : RecvOpt := ⟨id, len, rest.take (len.toNat - 2), by
        rw [length_take]
        omega⟩
      let tail := scanOptsAux fuel (rest.drop (len.toNat - 2))
      (o :: tail.1, tail.2)
    else ([], false)

/-- `scanOptsAux` with enough fuel. -/
def scanOpts (data : List UInt8) : List RecvOpt × Bool :=
  scanOptsAux data.length data

/-- The options of a Configure packet with body `data`, or `none` if the body is malformed. -/
def parseOpts (data : List UInt8) : Option (List RecvOpt) :=
  if (scanOpts data).2 then some (scanOpts data).1 else none

variable {opts : List RecvOpt}

lemma scanOptsAux_bytes {fuel : Nat} (hf : (opts.flatMap RecvOpt.bytes).length ≤ fuel) :
    scanOptsAux fuel (opts.flatMap RecvOpt.bytes) = (opts, true) := by
  induction opts generalizing fuel with
  | nil => simp [scanOptsAux]
  | cons o opts ih =>
    obtain ⟨id, len, data, hlen⟩ := o
    have hdata : len.toNat - 2 = data.length := by omega
    simp only [flatMap_cons, RecvOpt.bytes, cons_append, length_cons, length_append] at hf ⊢
    obtain ⟨fuel, rfl⟩ : ∃ k, fuel = k + 1 := ⟨fuel - 1, by omega⟩
    have hok : 2 ≤ len.toNat ∧
        len.toNat ≤ (data ++ opts.flatMap RecvOpt.bytes).length + 2 := by
      rw [length_append]
      omega
    have htail : scanOptsAux fuel (opts.flatMap RecvOpt.bytes) = (opts, true) := ih (by omega)
    rw [scanOptsAux, dif_pos hok]
    simp [hdata, htail]

variable {data : List UInt8}

lemma bytes_of_scanOptsAux {fuel : Nat} (h : (scanOptsAux fuel data).2 = true) :
    (scanOptsAux fuel data).1.flatMap RecvOpt.bytes = data := by
  induction fuel, data using scanOptsAux.induct with
  | case1 fuel => simp [scanOptsAux]
  | case2 | case3 => simp [scanOptsAux] at h
  | case4 fuel id len rest hok ih =>
    simp only [scanOptsAux, dif_pos hok] at h ⊢
    simp only [flatMap_cons, ih h, RecvOpt.bytes, cons_append, take_append_drop]
  | case5 fuel id len rest hbad => simp [scanOptsAux, hbad] at h

/-- **What the loop accepts** is exactly a concatenation of well-formed options, and it finds the
options it was made of. -/
theorem parseOpts_eq_some_iff : parseOpts data = some opts ↔ data = opts.flatMap RecvOpt.bytes := by
  constructor
  · intro h
    rw [parseOpts] at h
    split at h
    · rename_i hok
      obtain rfl := Option.some.inj h
      exact (bytes_of_scanOptsAux hok).symm
    · simp at h
  · rintro rfl
    have hscan : scanOpts (opts.flatMap RecvOpt.bytes) = (opts, true) :=
      scanOptsAux_bytes (Nat.le_refl _)
    simp [parseOpts, hscan]

@[simp] lemma parseOpts_nil : parseOpts [] = some [] := rfl

/-! ### Packets -/

/-- The codes of a control packet. -/
inductive CpCode
  | confReq
  | confAck
  | confNak
  | confRej
  | termReq
  | termAck
  | codeRej
  | unknown
  deriving DecidableEq

/-- The code byte; what comes after `CODEREJ` is only known to LCP. -/
def CpCode.ofByte (b : UInt8) : CpCode :=
  match b.toNat with
  | 1 => .confReq
  | 2 => .confAck
  | 3 => .confNak
  | 4 => .confRej
  | 5 => .termReq
  | 6 => .termAck
  | 7 => .codeRej
  | _ => .unknown

/-- The codes whose identifier has to be the one of our last request. -/
def CpCode.isAnswer (c : CpCode) : Bool :=
  c = .confAck || c = .confNak || c = .confRej

/-- A control packet that has passed the length checks. -/
structure CpPacket where
  code : CpCode
  id : UInt8
  /-- The bytes the length field covers, without the header. -/
  body : List UInt8
  deriving DecidableEq

/-- The checks at the head of `ccp_recv`, `ipcp_recv` and `ipv6cp_recv`: at least six bytes
(protocol, code, identifier, length), and a length of at least four and at most what follows the
protocol field. -/
def readPacket : List UInt8 → Option CpPacket
  | _ :: _ :: code :: id :: hi :: lo :: rest =>
    let len := hi.toNat * 256 + lo.toNat
    if len < 4 ∨ len > rest.length + 4 then none
    else some ⟨.ofByte code, id, rest.take (len - 4)⟩
  | _ => none

/-! ### Verdicts -/

/-- The verdict on an option: `LCP_OPT_*`, `CCP_OPT_*`, `IPCP_OPT_*`, `IPV6CP_OPT_*`. -/
inductive OptState
  | none
  | ack
  | nak
  | rej
  | close
  | termAck
  | fail
  deriving DecidableEq

/-- The numbers of `ppp_ipcp.h`. LCP and CCP, which have neither `CLOSE` nor `TERMACK`, use `-3`
for `FAIL`; the order is the same. -/
def OptState.val : OptState → Int
  | .none => 0
  | .ack => 1
  | .nak => -1
  | .rej => -2
  | .close => -3
  | .termAck => -4
  | .fail => -5

/-- `if (r < ret) ret = r`. -/
def OptState.worst (r ret : OptState) : OptState :=
  if r.val < ret.val then r else ret

lemma OptState.worst_eq_ack {r ret : OptState} : r.worst ret = .ack ↔ r = .ack ∧ ret = .ack := by
  cases r <;> cases ret <;> decide

/-- The worst of the verdicts on the received options; a request without options is acceptable. -/
def worstOf (ropts : List (RecvOpt × OptState)) : OptState :=
  ropts.foldl (fun ret ro ↦ ro.2.worst ret) .ack

@[simp] lemma worstOf_nil : worstOf [] = .ack := rfl

@[simp] lemma worstOf_snoc (ropts : List (RecvOpt × OptState)) (o : RecvOpt) (r : OptState) :
    worstOf (ropts ++ [(o, r)]) = r.worst (worstOf ropts) := by
  simp [worstOf]

end AccelPpp.Ppp
