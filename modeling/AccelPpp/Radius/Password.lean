import AccelPpp.Lib.ChainCipher

/-!
# The password in an Access-Request (`radius/auth.c`)

`encrypt_password` pads the password with zeros to whole blocks of 16 bytes and combines each with
`MD5(secret, ciphered block before it)`, the first with `MD5(secret, request authenticator)`. The
reader of RFC 2865 recovers each block from itself and the one before it (`decryptPassword`).

An empty password is not padded to a block but sent as an empty attribute, so there the reader does
not find 16 zeros. MD5 is any function to 16 bytes.
-/

namespace AccelPpp.Radius

/-- MD5 over the bytes given to it. -/
abbrev Md5 := List UInt8 → Vector UInt8 16

open ChainCipher List Nat

/-- `MD5(secret, block)`, by the places of its bytes. -/
def passwordKey (md5 : Md5) (secret block : List UInt8) : ℕ → UInt8 :=
  load (md5 (secret ++ block)).toList

/-- The loop of `encrypt_password`, from the `i`-th block on, with `n` blocks left. -/
def encryptLoop (md5 : Md5) (secret : List UInt8) :
    ℕ → ℕ → (ℕ → UInt8) → List UInt8 → ℕ → UInt8
  | 0, _, epasswd, _ => epasswd
  | n + 1, i, epasswd, c =>
    let epasswd := mix (· ^^^ ·) epasswd (i * 16) 16 (passwordKey md5 secret c)
    encryptLoop md5 secret n (i + 1) epasswd (block epasswd (i * 16) 16)

/-- `encrypt_password`, where `memory` says whether `_malloc` succeeds. -/
def encryptPassword (md5 : Md5) (passwd secret ra : List UInt8) (memory : Bool) :
    Option (List UInt8) :=
  if passwd.length = 0 then some []
  else
    let chunkCnt := (passwd.length - 1) / 16 + 1
    if memory then
      let epasswd := load (passwd ++ replicate (chunkCnt * 16 - passwd.length) 0)
      some (block (encryptLoop md5 secret chunkCnt 0 epasswd ra) 0 (chunkCnt * 16))
    else none

/-- **What RFC 2865 has the reader do**: each byte is combined with the one of
`MD5(secret, block before its own)`, where the first block follows the request authenticator. -/
def decryptPassword (md5 : Md5) (secret ra text : List UInt8) : List UInt8 :=
  (range text.length).map fun i ↦
    let prev := if i < 16 then ra else block (load text) (i / 16 * 16 - 16) 16
    load text i ^^^ passwordKey md5 secret prev (i % 16)

/-- The password with zeros behind it, up to the end of its last block, or of the first one. -/
def padded (passwd : List UInt8) : List UInt8 :=
  passwd ++ replicate (((passwd.length - 1) / 16 + 1) * 16 - passwd.length) 0

variable {md5 : Md5} {passwd secret ra : List UInt8}

/-- After the first block the loop chains the ciphered blocks. -/
lemma encryptLoop_eq_forward (n i : ℕ) (m : ℕ → UInt8) :
    encryptLoop md5 secret n (i + 1) m (block m (i * 16) 16) =
      forward (· ^^^ ·) (passwordKey md5 secret) 16 n m (i * 16) := by
  induction n generalizing i m with
  | zero => rfl
  | succ n ih => rw [encryptLoop, forward, ih, succ_mul]

lemma length_padded : (padded passwd).length = (passwd.length - 1) / 16 * 16 + 16 := by
  rw [padded, length_append, length_replicate]
  omega

/-- **Each byte comes back**: the one at `i` is in block `i / 16`. -/
theorem decryptPassword_of_ciphered {text : List UInt8} {c : ℕ → UInt8}
    (h : Ciphered (· ^^^ ·) (passwordKey md5 secret) 16 (passwordKey md5 secret ra) (load text) c
      text.length) :
    decryptPassword md5 secret ra (block c 0 text.length) = text := by
  refine ext_getElem (by simp [decryptPassword]) fun i hi hi' ↦ ?_
  have htext : load text i = text[i] := getD_eq_getElem _ _ hi'
  simp only [decryptPassword, getElem_map, getElem_range]
  rw [load_block hi', ← htext]
  rcases lt_or_ge i 16 with hlt | hge
  · rw [if_pos hlt, mod_eq_of_lt hlt, h.first i hlt hi', xor_cancel_right]
  · rw [if_neg (Nat.not_lt_of_le hge)]
    have hplace : (i / 16 - 1) * 16 + 16 + i % 16 = i := by omega
    have hchain := h.chained (i / 16 - 1) (i % 16) (mod_lt _ (by decide)) (by omega)
    have hprev : block (load (block c 0 text.length)) (i / 16 * 16 - 16) 16 =
        block c ((i / 16 - 1) * 16) 16 := by
      rw [show i / 16 * 16 - 16 = (i / 16 - 1) * 16 by omega]
      exact block_congr fun r hr ↦ load_block (by omega)
    rw [hplace] at hchain
    rw [hprev, hchain, xor_cancel_right]

/-- **Hiding a password can be undone** unless it is empty: what RFC 2865 recovers from the
attribute is the password padded with zeros to whole blocks, of which there is at least one. -/
theorem decrypt_encrypt_iff (md5 : Md5) (passwd secret ra : List UInt8) :
    (encryptPassword md5 passwd secret ra true).map (decryptPassword md5 secret ra) =
      some (padded passwd) ↔ passwd ≠ [] := by
  refine ⟨fun h hnil ↦ ?_, fun h ↦ ?_⟩
  · rw [hnil] at h
    nomatch congrArg (Option.map length) h
  rw [encryptPassword, if_neg (by rwa [length_eq_zero_iff]), if_pos rfl, Option.map_some]
  have hlen : ((passwd.length - 1) / 16 + 1) * 16 = (padded passwd).length := by
    rw [length_padded, succ_mul]
  have hciphered := ciphered_forward (· ^^^ ·) (passwordKey md5 secret) 16
    ((passwd.length - 1) / 16) (show 0 < 16 by decide) (passwordKey md5 secret ra)
    (load (padded passwd))
  dsimp only at hciphered
  rw [mix_zero, ← length_padded] at hciphered
  rw [encryptLoop, ← padded, hlen, encryptLoop_eq_forward, decryptPassword_of_ciphered hciphered]

/-- An empty password is sent as no bytes at all, where 16 zeros would be ciphered. -/
theorem empty_password_unpadded :
    let md5 : Md5 := fun _ ↦ Vector.replicate 16 0
    encryptPassword md5 [] [] [] true = some [] ∧ decryptPassword md5 [] [] [] = [] ∧
      padded [] = replicate 16 0 := by
  decide

end AccelPpp.Radius
