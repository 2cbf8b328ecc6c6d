import AccelPpp.Lib.BigEndian

/-!
# The checksums of a raw DHCPv4 packet (`ctrl/ipoe/dhcpv4.c`)

`dhcpv4_send_raw` takes the UDP checksum while the IP header has nothing but what the pseudo header
has, and fills in the rest of it afterwards.
-/

open BigEndian List

namespace AccelPpp.Ipoe.Raw

/-- The sum of the 16-bit words of a buffer on a little-endian machine; a last byte is a word of its
own. -/
def wordSum : List UInt8 → ℕ
  | x :: y :: buf => x.toNat + 256 * y.toNat + wordSum buf
  | [x] => x.toNat
  | [] => 0

/-- The carries of a sum are added to its low 16 bits until there are none. -/
def fold (n : ℕ) : ℕ :=
  if n / 65536 = 0 then n else fold (n % 65536 + n / 65536)
decreasing_by omega

/-- `ip_csum`, with a `uint32_t` for the sum. -/
def ipCsum (buf : List UInt8) : ℕ :=
  65535 - fold (wordSum buf % 2 ^ 32)

section

variable (check : ℕ)

/-- `struct iphdr` of a UDP packet; the checksum is in the byte order of the machine. -/
def ipHdr (version tos ttl : UInt8) (totLen saddr daddr : ℕ) : List UInt8 :=
  [version, tos] ++ toBytes 2 totLen ++ [0, 0, 0, 0, ttl, 17, .ofNat check, .ofNat (check / 256)] ++
    toBytes 4 saddr ++ toBytes 4 daddr

/-- `struct udphdr`, and the data. -/
def udpHdr (dport : ℕ) (data : List UInt8) : List UInt8 :=
  toBytes 2 67 ++ toBytes 2 dport ++ toBytes 2 (8 + data.length) ++
    [.ofNat check, .ofNat (check / 256)] ++ data

end

/-- `dhcpv4_send_raw`: the IP header and what follows it. -/
def dhcpv4SendRaw (pack : List UInt8) (saddr daddr dport : ℕ) : List UInt8 × List UInt8 :=
  let data := pack ++ replicate (300 - pack.length) 0
  let len := 8 + data.length
  let daddr := if 128 ≤ pack.getD 10 0 then 0xffffffff else daddr
  let ip check := ipHdr check 0x45 0x10 128 (20 + len) saddr daddr
  (ip (ipCsum (ip 0)),
    udpHdr (ipCsum (ipHdr 0 0 0 0 len saddr daddr ++ udpHdr 0 dport data)) dport data)

lemma fold_spec (n : ℕ) :
    fold n ≤ 65535 ∧ fold n ≤ n ∧ fold n % 65535 = n % 65535 ∧ (fold n = 0 → n = 0) := by
  fun_induction fold n with
  | case1 n h => exact ⟨by omega, le_rfl, rfl, id⟩
  | case2 n h ih => omega

lemma wordSum_le (buf : List UInt8) : wordSum buf ≤ 65535 * buf.length := by
  fun_induction wordSum buf with
  | case1 x y buf ih =>
    have hx := x.toNat_lt
    have hy := y.toNat_lt
    rw [length_cons, length_cons]
    omega
  | case2 x =>
    have hx := x.toNat_lt
    rw [length_singleton]
    omega
  | case3 => exact le_rfl

/-- **A checksum verifies** in a buffer with the words of the one it was taken over. -/
theorem fold_ipCsum {zero : List UInt8} {b : ℕ → List UInt8} (hlen : zero.length < 65536)
    (h : ∀ c ≤ 65535, wordSum (b c) = wordSum zero + c) :
    fold (wordSum (b (ipCsum zero))) = 65535 := by
  have hsum := wordSum_le zero
  have hb := h (ipCsum zero) (Nat.sub_le ..)
  have hfold := fold_spec (wordSum (b (ipCsum zero)))
  have hzero := fold_spec (wordSum zero)
  rw [ipCsum, Nat.mod_eq_of_lt (by omega)] at hb hfold ⊢
  omega

/-- **Both checksums verify**: the ones-complement sums over the IP header, and over the pseudo
header and the UDP packet, are all ones. -/
theorem checksums_verify (pack : { data : List UInt8 // data.length ≤ 65507 })
    (saddr daddr dport : ℕ) :
    let (ip, udp) := dhcpv4SendRaw pack saddr daddr dport
    fold (wordSum ip) = 65535 ∧
      fold (wordSum (ip.drop 12 ++ [0, 17] ++ toBytes 2 udp.length ++ udp)) = 65535 := by
  obtain ⟨pack, hpack⟩ := pack
  have hlen : (pack ++ replicate (300 - pack.length) 0).length ≤ 65507 := by
    simp
    omega
  dsimp only [dhcpv4SendRaw]
  generalize pack ++ replicate (300 - pack.length) 0 = data at hlen ⊢
  constructor
  · refine fold_ipCsum (b := fun c ↦ ipHdr c ..) (by simp [ipHdr]) fun c hc ↦ ?_
    simp [ipHdr, wordSum, toBytes]
    omega
  · refine fold_ipCsum (b := fun c ↦ _ ++ toBytes 2 (udpHdr c ..).length ++ udpHdr c ..) ?_
      fun c hc ↦ ?_
    · simp [ipHdr, udpHdr]
      omega
    · simp [ipHdr, udpHdr, wordSum, toBytes]
      omega

end AccelPpp.Ipoe.Raw
