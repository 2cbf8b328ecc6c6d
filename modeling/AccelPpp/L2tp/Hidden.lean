import AccelPpp.Lib.BigEndian
import AccelPpp.Lib.ChainCipher

/-!
# Hidden AVPs (`l2tp/packet.c`)

An attribute that is hidden is sent as its length in two bytes, its value and some padding,
enciphered in blocks of 16 bytes: the first is combined with `MD5(type, secret, random vector)`,
each other with `MD5(secret, ciphered block before it)`.

`encode_attr` enciphers from the first block on. `decode_avp` takes the first block into a buffer of
its own, reads the length there, and then deciphers in place as many bytes as the length says, from
the last block back to the second, since each is needed as it was received for the one after it.

MD5 is any function to 16 bytes. What `u_randbuf` and `_malloc` do is an input (`HideEnv`).
-/

namespace AccelPpp.L2tp

/-- MD5 over the bytes given to it, with a digest of `MD5_DIGEST_LENGTH` bytes. -/
abbrev Digest := List UInt8 → Vector UInt8 16

open BigEndian ChainCipher List Nat Option

/-- `L2TP_AVP_LEN_MASK` -/
def avpLenMask : ℕ := 1023

/-- `sizeof(struct l2tp_avp_t)` -/
def avpSize : ℕ := 6

section

variable (md5 : Digest)

/-- The bytes of a digest, by their places. -/
def digest (input : List UInt8) : ℕ → UInt8 := load (md5 input).toList

/-- `MD5(type, secret, random vector)` -/
def firstKey (secret rv : List UInt8) (type : UInt16) : ℕ → UInt8 :=
  digest md5 (toBytes 2 type.toNat ++ secret ++ rv)

/-- `MD5(secret, block)` -/
def nextKey (secret block : List UInt8) : ℕ → UInt8 := digest md5 (secret ++ block)

/-- `memxor` -/
abbrev memxor : (ℕ → UInt8) → ℕ → ℕ → (ℕ → UInt8) → ℕ → UInt8 := mix (· ^^^ ·)

/-- `memcpy`, to the beginning. -/
def memcpy (m : ℕ → UInt8) (src : ℕ → UInt8) (n : ℕ) : ℕ → UInt8 := fun i ↦
  if i < n then src i else m i

/-! ### Hiding -/

/-- The cipher at the end of `encode_attr`. -/
def encipher (secret rv : List UInt8) (type : UInt16) (octets : List UInt8) : List UInt8 :=
  let length := octets.length
  if length ≤ 16 then
    block (memxor (load octets) 0 length (firstKey md5 secret rv type)) 0 length
  else
    let m := memxor (load octets) 0 16 (firstKey md5 secret rv type)
    let blocksLeft := length / 16 - 1
    let lastBlockLen := length % 16
    let m := forward (· ^^^ ·) (nextKey md5 secret) 16 blocksLeft m 0
    -- where `u8_ptr` is when the loop has ended
    let ptr := blocksLeft * 16
    let m :=
      if lastBlockLen ≠ 0 then
        memxor m (ptr + 16) lastBlockLen (nextKey md5 secret (block m ptr 16))
      else m
    block m 0 length

/-- What happens in `encode_attr`: the random number for the amount of padding, whether there is
memory, and the padding. -/
structure HideEnv where
  padLen : Option UInt16
  memory : Bool
  padding : Option (ℕ → UInt8)

/-- The first half of `encode_attr`: the random vector that is used, and the Hidden AVP Subformat,
that is the value with its length in two bytes before it and padding behind it. -/
def hiddenSubformat (secret : List UInt8) (lastRV : Option (List UInt8)) (env : HideEnv)
    (val : List UInt8) : Option (List UInt8 × List UInt8) :=
  if secret = [] then none
  else
    match lastRV, env.padLen with
    | some rv, some rand =>
      let padLen := rand.toNat % 128 + 16
      let maxLen := avpLenMask - avpSize
      if maxLen < 2 + val.length + 16 then none
      else
        let padLen := if maxLen < 2 + val.length + padLen then maxLen - 2 - val.length else padLen
        match env.memory, env.padding with
        | true, some pad => some (rv, toBytes 2 val.length ++ val ++ block pad 0 padLen)
        | _, _ => none
    | _, _ => none

/-- `encode_attr` -/
def encodeAttr (secret : List UInt8) (lastRV : Option (List UInt8)) (id : UInt16) (env : HideEnv)
    (val : List UInt8) : Option (List UInt8) :=
  (hiddenSubformat secret lastRV env val).map fun (rv, text) ↦ encipher md5 secret rv id text

/-! ### Deciphering -/

/-- The end of `decode_avp`: the length is read once more, and checked. -/
def checkLen (attrLen : ℕ) (m : ℕ → UInt8) : Option (ℕ × List UInt8) :=
  let origAttrLen := ofBytes (block m 0 2)
  if attrLen - 2 < origAttrLen then none else some (origAttrLen, block m 0 attrLen)

/-- `decode_avp`, with the original length and the body of the AVP as it leaves it. -/
def decodeAvp (secret rv : List UInt8) (type : UInt16) (val : List UInt8) : Option (ℕ × List UInt8)
    :=
  let attrLen := val.length
  let m := load val
  if attrLen < 2 then none
  else if attrLen ≤ 16 then checkLen attrLen (memxor m 0 attrLen (firstKey md5 secret rv type))
  else
    let p1 := memxor (firstKey md5 secret rv type) 0 16 m
    let origAttrLen := ofBytes (block p1 0 2)
    if origAttrLen ≤ 14 then checkLen attrLen (memcpy m p1 16)
    else if attrLen - 2 < origAttrLen then none
    else
      let bytesLeft := origAttrLen + 2 - 16
      let lastBlockLen := bytesLeft % 16
      let blocksLeft := bytesLeft / 16
      let prevBlock := blocksLeft * 16
      let m :=
        if lastBlockLen ≠ 0 then
          memxor m (prevBlock + 16) lastBlockLen (nextKey md5 secret (block m prevBlock 16))
        else m
      let m := backward (· ^^^ ·) (nextKey md5 secret) 16 blocksLeft m
      checkLen attrLen (memcpy m p1 16)

end

/-! ### The ciphered text -/

variable {md5 : Digest} {secret rv : List UInt8} {type : UInt16} {val octets : List UInt8}

/-- A last block of no length needs no case of its own. -/
lemma ite_memxor (m : ℕ → UInt8) (off n : ℕ) (key : ℕ → UInt8) :
    (if n ≠ 0 then memxor m off n key else m) = memxor m off n key := by
  split
  · rfl
  · next h => rw [not_not.mp h, memxor, mix_zero]

/-- **What `encode_attr` leaves** is the text ciphered. -/
theorem encipher_ciphered (md5 : Digest) (secret rv : List UInt8) (type : UInt16)
    (octets : List UInt8) :
    Ciphered (· ^^^ ·) (nextKey md5 secret) 16 (firstKey md5 secret rv type) (load octets)
      (load (encipher md5 secret rv type octets)) octets.length := by
  rw [encipher]
  split
  · next hle =>
    refine Ciphered.congr ⟨fun r hr hlen ↦ ?_, fun j r hr hlen ↦ ?_⟩ fun i hi ↦ load_block hi
    · have hin : memxor (load octets) 0 octets.length (firstKey md5 secret rv type) (0 + r) =
          load octets (0 + r) ^^^ firstKey md5 secret rv type r := mix_inside hlen
      rwa [zero_add] at hin
    · omega
  · next hlt =>
    dsimp only
    rw [ite_memxor]
    have hlen : octets.length = (octets.length / 16 - 1) * 16 + 16 + octets.length % 16 := by omega
    have hall := ciphered_forward (· ^^^ ·) (nextKey md5 secret) 16 (octets.length / 16 - 1)
      (mod_lt octets.length (by decide)) (firstKey md5 secret rv type) (load octets)
    rw [← hlen] at hall
    exact hall.congr fun i hi ↦ load_block hi

lemma length_encipher (md5 : Digest) (secret rv : List UInt8) (type : UInt16)
    (octets : List UInt8) : (encipher md5 secret rv type octets).length = octets.length := by
  rw [encipher]
  split
  · exact length_block
  · exact length_block

/-- The end of `decode_avp` is reached with a text that begins as the clear one. -/
lemma checkLen_eq {clear m : ℕ → UInt8} {len : ℕ} (hlen : ofBytes (block clear 0 2) + 2 ≤ len)
    (h : ∀ i < ofBytes (block clear 0 2) + 2, m i = clear i) :
    checkLen len m = some (ofBytes (block clear 0 2), block m 0 len) := by
  have hblock : block m 0 2 = block clear 0 2 := block_congr fun i hi ↦ by
    rw [zero_add]
    exact h i (by omega)
  rw [checkLen, hblock]
  exact if_neg (by omega)

/-- **`decode_avp`** on a text that has been ciphered: the length and the bytes it covers are as
they were. -/
theorem decodeAvp_ciphered {clear : ℕ → UInt8}
    (h : Ciphered (· ^^^ ·) (nextKey md5 secret) 16 (firstKey md5 secret rv type) clear (load val)
      val.length) (hlen : ofBytes (block clear 0 2) + 2 ≤ val.length) :
    ∃ m, decodeAvp md5 secret rv type val =
        some (ofBytes (block clear 0 2), block m 0 val.length) ∧
      ∀ i < ofBytes (block clear 0 2) + 2, m i = clear i := by
  rw [decodeAvp]
  dsimp only
  generalize firstKey md5 secret rv type = key at h ⊢
  rw [if_neg (by omega)]
  split
  · next hle =>
    -- one block, deciphered where it is
    have hclear : ∀ i < ofBytes (block clear 0 2) + 2,
        memxor (load val) 0 val.length key i = clear i := fun i hi ↦ by
      have hin : memxor (load val) 0 val.length key (0 + i) = load val (0 + i) ^^^ key i :=
        mix_inside (by omega)
      rw [zero_add] at hin
      rw [hin, h.first i (by omega) (by omega), xor_cancel_right]
    exact ⟨_, checkLen_eq hlen hclear, hclear⟩
  · next hlt =>
    have hp1 : ∀ i < 16, memxor key 0 16 (load val) i = clear i := fun i hi ↦ by
      have hin : memxor key 0 16 (load val) (0 + i) = key (0 + i) ^^^ load val i := mix_inside hi
      rw [zero_add] at hin
      rw [hin, h.first i hi (by omega), UInt8.xor_comm, xor_cancel_right]
    generalize memxor key 0 16 (load val) = p1 at *
    have hblock : block p1 0 2 = block clear 0 2 := block_congr fun i hi ↦ by
      rw [zero_add]
      exact hp1 i (by omega)
    rw [hblock]
    generalize hn : ofBytes (block clear 0 2) = n at *
    split
    · have hclear : ∀ i < n + 2, memcpy (load val) p1 16 i = clear i := fun i hi ↦ by
        rw [memcpy, if_pos (by omega), hp1 i (by omega)]
      subst hn
      exact ⟨_, checkLen_eq hlen hclear, hclear⟩
    rw [if_neg (by omega), ite_memxor]
    have hback := h.backward xor_cancel_right (mod_lt (n + 2 - 16) (by decide))
      (n := (n + 2 - 16) / 16) (by omega)
    generalize backward (· ^^^ ·) (nextKey md5 secret) 16 ((n + 2 - 16) / 16) _ = d at *
    have hclear : ∀ i < n + 2, memcpy d p1 16 i = clear i := fun i hi ↦ by
      rw [memcpy]
      split
      · next hfirst => exact hp1 i hfirst
      · next hrest =>
        have hi' : i = (i / 16 - 1) * 16 + 16 + i % 16 := by omega
        rw [hi']
        exact hback _ _ (by omega) (by omega)
    subst hn
    exact ⟨_, checkLen_eq hlen hclear, hclear⟩

/-- **Deciphering what has been enciphered** in the format of a hidden AVP. -/
theorem decodeAvp_encipher (md5 : Digest) (secret rv : List UInt8) (type : UInt16)
    (val : List UInt8) (hval : val.length < 65536) (pad : List UInt8) :
    ∃ body, decodeAvp md5 secret rv type
          (encipher md5 secret rv type (toBytes 2 val.length ++ val ++ pad)) =
        some (val.length, body) ∧
      body.length = (toBytes 2 val.length ++ val ++ pad).length ∧
      (body.drop 2).take val.length = val := by
  generalize hoctets : toBytes 2 val.length ++ val ++ pad = octets
  have hlength : octets.length = 2 + val.length + pad.length := by
    rw [← hoctets, length_append, length_append, length_toBytes]
  have hfirst : ofBytes (block (load octets) 0 2) = val.length := by
    have hblock := block_load_append (toBytes 2 val.length) (val ++ pad)
    rw [length_toBytes, ← append_assoc, hoctets] at hblock
    rw [hblock, ofBytes_toBytes]
    exact mod_eq_of_lt hval
  have hciphered := encipher_ciphered md5 secret rv type octets
  have hsame := length_encipher md5 secret rv type octets
  rw [← hsame] at hciphered
  obtain ⟨m, hdecode, hclear⟩ := decodeAvp_ciphered hciphered (by omega)
  rw [hfirst] at hdecode hclear
  refine ⟨_, hdecode, length_block.trans hsame, ?_⟩
  -- the bytes that the length covers are those of the clear text
  have htake : (block m 0 octets.length).take (2 + val.length) =
      (block (load octets) 0 octets.length).take (2 + val.length) :=
    take_block_congr fun i hi ↦ by
      rw [zero_add]
      exact hclear i (by omega)
  rw [hsame, take_drop, htake, block_load, ← hoctets, append_assoc, ← take_drop,
    drop_left' (length_toBytes 2 val.length), take_left]

/-- What `encode_attr` enciphers. -/
lemma hiddenSubformat_eq_some {lastRV : Option (List UInt8)} {env : HideEnv} {text : List UInt8}
    (h : hiddenSubformat secret lastRV env val = some (rv, text)) :
    lastRV = some rv ∧ secret ≠ [] ∧ val.length + 18 ≤ avpLenMask - avpSize ∧
      text.length ≤ avpLenMask - avpSize ∧
      ∃ pad, text = toBytes 2 val.length ++ val ++ pad := by
  unfold hiddenSubformat at h
  split at h
  · nomatch h
  next hsecret =>
  split at h
  · next _ _ rv' rand hrand =>
    dsimp only at h
    split at h
    · nomatch h
    next hroom =>
    split at h
    · next _ _ pad hpad =>
      obtain ⟨rfl, rfl⟩ := Prod.mk.inj (some.inj h)
      refine ⟨rfl, hsecret, by omega, ?_, _, rfl⟩
      rw [length_append, length_append, length_toBytes, length_block]
      split
      · omega
      · omega
    · nomatch h
  · nomatch h

variable {n : ℕ} {body : List UInt8}

lemma checkLen_eq_some {len : ℕ} {m : ℕ → UInt8} (h : checkLen len m = some (n, body)) :
    n ≤ len - 2 ∧ n = ofBytes (block m 0 2) ∧ body.length = len := by
  rw [checkLen] at h
  split at h
  · nomatch h
  · next hle =>
    obtain ⟨rfl, rfl⟩ := Prod.mk.inj (some.inj h)
    exact ⟨Nat.le_of_not_lt hle, rfl, length_block⟩

section

variable (h : decodeAvp md5 secret rv type val = some (n, body))

include h

/-- Whichever way an AVP is deciphered, the end is reached with its first byte combined with that of
the key. -/
lemma decodeAvp_eq_some :
    2 ≤ val.length ∧ ∃ m, checkLen val.length m = some (n, body) ∧
      m 0 = load val 0 ^^^ firstKey md5 secret rv type 0 := by
  have hp1 : ∀ m, memcpy m (memxor (firstKey md5 secret rv type) 0 16 (load val)) 16 0 =
      load val 0 ^^^ firstKey md5 secret rv type 0 := fun m ↦ by
    rw [memcpy, if_pos (by decide), UInt8.xor_comm]
    exact mix_inside (r := 0) (by decide)
  rw [decodeAvp] at h
  dsimp only at h
  split at h
  · nomatch h
  next hlen =>
  refine ⟨Nat.le_of_not_lt hlen, ?_⟩
  split at h
  · exact ⟨_, h, mix_inside (r := 0) (by omega)⟩
  split at h
  · exact ⟨_, h, hp1 _⟩
  · split at h
    · nomatch h
    · exact ⟨_, h, hp1 _⟩

/-- The length has been checked. -/
lemma length_le_of_decodeAvp : n + 2 ≤ val.length ∧ body.length = val.length := by
  obtain ⟨hlen, m, hm, -⟩ := decodeAvp_eq_some h
  obtain ⟨hle, -, hbody⟩ := checkLen_eq_some hm
  exact ⟨by omega, hbody⟩

/-- The high byte of the length is the first byte. -/
lemma high_of_decodeAvp : n / 256 = (load val 0 ^^^ firstKey md5 secret rv type 0).toNat := by
  obtain ⟨-, m, hm, hfirst⟩ := decodeAvp_eq_some h
  have hn : n = (m 0).toNat * 256 + (m 1).toNat := (checkLen_eq_some hm).2.1.trans (by
    simp [block, range_succ, ofBytes])
  have hlow := (m 1).toNat_lt
  rw [← hfirst]
  omega

end

/-- **Hidden AVPs come back.** What `encode_attr` hides is deciphered to the same length and value;
and the length that `decode_avp` returns for any body fits into it. -/
theorem decodeAvp_encodeAttr (md5 : Digest) (secret rv : List UInt8) (type : UInt16) :
    (∀ env val octets, encodeAttr md5 secret (some rv) type env val = some octets →
      ∃ body, decodeAvp md5 secret rv type octets = some (val.length, body) ∧
        body.length = octets.length ∧ (body.drop 2).take val.length = val) ∧
      ∀ body n body', decodeAvp md5 secret rv type body = some (n, body') →
        n + 2 ≤ body.length := by
  refine ⟨fun env val octets h ↦ ?_, fun body n body' h ↦ (length_le_of_decodeAvp h).1⟩
  obtain ⟨⟨rv', text⟩, hsub, rfl⟩ := map_eq_some_iff.mp h
  obtain ⟨hrv, -, hroom, -, pad, rfl⟩ := hiddenSubformat_eq_some hsub
  obtain rfl := some.inj hrv
  rw [avpLenMask] at hroom
  obtain ⟨body, hdecode, hlength, hval⟩ :=
    decodeAvp_encipher md5 secret rv type val (by omega) pad
  exact ⟨body, hdecode, hlength.trans (length_encipher md5 secret rv type _).symm, hval⟩

/-- A digest that can be computed by hand. -/
def sumDigest : Digest := fun input ↦
  Vector.ofFn fun i ↦ input.foldl (fun a b ↦ 31 * a + b) 7 + .ofNat i

/-- Twenty bytes of padding. -/
def padded : HideEnv := ⟨some 4, true, some fun i ↦ .ofNat i⟩

/-- A value that goes beyond the second block. -/
theorem decodeAvp_encodeAttr_threeBlocks :
    let val := replicate 33 5
    ∃ octets body, encodeAttr sumDigest [1, 2] (some [9, 9]) 7 padded val = some octets ∧
      octets.take 4 ≠ [0, 33, 5, 5] ∧
      decodeAvp sumDigest [1, 2] [9, 9] 7 octets = some (33, body) ∧
      (body.drop 2).take 33 = val := by
  have henc : encodeAttr sumDigest [1, 2] (some [9, 9]) 7 padded (replicate 33 5) =
      some (encipher sumDigest [1, 2] [9, 9] 7
        (toBytes 2 33 ++ replicate 33 5 ++ block (fun i ↦ .ofNat i) 0 20)) := by
    decide +kernel
  obtain ⟨body, hdecode, -, hval⟩ :=
    (decodeAvp_encodeAttr sumDigest [1, 2] [9, 9] 7).1 _ _ _ henc
  exact ⟨_, body, henc, by decide +kernel, hdecode, hval⟩

end AccelPpp.L2tp
