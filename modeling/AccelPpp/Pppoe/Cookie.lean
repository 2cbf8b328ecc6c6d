import AccelPpp.Lib.Blocks

/-!
# The PPPoE AC-Cookie

The server sends a cookie with every PADO and wants it back in the PADR, so that it need not
remember who it has answered. The cookie is 24 bytes, three blocks of eight:

* bytes 0–15: the MD5 hash of the server's secret, the two MAC addresses and the relay's session id;
* bytes 16–19: four bytes folded out of a hash of the client's Host-Uniq tag, or zeros;
* bytes 20–23: the time at which the cookie expires, as a 32-bit number of seconds.

The whole is encrypted **block by block**, with a key made of the MAC addresses and then with the
server's own key. `check_cookie` decrypts, looks at the expiry and compares the hash.

DES is any family of permutations of the 8-byte blocks, one for each key; MD5 is any function from
byte strings to 16 bytes. That it has no collisions cannot be assumed outright, since no such
function is injective; where it matters (`padrAccepts_iff`) the statement names the two strings that
would have to collide.

Nothing in the cookie links one block to another. The first two blocks hold the hash and the third
the expiry, so `check_cookie` recognises the first two (`head_decrypt_eq_iff`) and believes whatever
expiry the third one decrypts to (`checkCookie_accepts_iff`): a string the server has never issued
gets in (`spliced_cookie_accepted`).
-/

open List UInt8

namespace AccelPpp.Pppoe

open Blocks

/-- `n` bytes. -/
abbrev Bytes (n : ℕ) := Fin n → UInt8

/-- The union of `DES_cblock b[3]` and `uint8_t raw[24]`. -/
abbrev CookieRaw := Bytes (3 * 8)

/-- What the cookie needs of a server. -/
structure PppoeServ where
  hwaddr : Bytes 6
  secret : Bytes 16
  /-- The key behind `des_ks`. -/
  desKey : Bytes 8

/-- DES under each key: `DES_ENCRYPT` is the permutation and `DES_DECRYPT` its inverse. -/
abbrev Des := Bytes 8 → Equiv.Perm (Bytes 8)

/-- MD5 of all the bytes given to `MD5_Update` between `MD5_Init` and `MD5_Final`. -/
abbrev Md5 := List UInt8 → Bytes 16

section

variable (des : Des) (md5 : Md5) (serv : PppoeServ) (src : Bytes 6)

/-- The key of the inner encryption: the server's address and the last two bytes of the client's. -/
def cookieKey : Bytes 8 :=
  fun i ↦ if h : i.val < 6 then serv.hwaddr ⟨i, h⟩ else if i.val = 6 then src 4 else src 5

/-- What the first hash is taken of; a missing Relay-Session-Id adds nothing. -/
def cookieInput (relaySid : Option (List UInt8)) : List UInt8 :=
  List.ofFn serv.secret ++ List.ofFn serv.hwaddr ++ List.ofFn src ++ relaySid.getD []

/-- The four bytes folded out of the hash of Host-Uniq, zeros without the tag. -/
def hostUniqBytes (hostUniq : Option (List UInt8)) : Bytes 4 :=
  hostUniq.elim (fun _ ↦ 0) fun tag ↦
    let buf := md5 (List.ofFn serv.secret ++ tag)
    fun i ↦ buf ⟨i, by omega⟩ ^^^ buf ⟨i + 4, by omega⟩ ^^^ buf ⟨i + 8, by omega⟩ ^^^
      buf ⟨i + 12, by omega⟩

/-- The bytes of a `uint32_t` in memory. -/
def uint32Bytes (n : ℕ) : Bytes 4 :=
  fun i ↦ ofNat (n / 256 ^ i.val)

/-- A `uint32_t` read from memory. -/
def uint32Read (b : Bytes 4) : ℕ :=
  (b 0).toNat + 256 * (b 1).toNat + 65536 * (b 2).toNat + 16777216 * (b 3).toNat

/-- `uint32_t expires = ts.tv_sec + conf_cookie_timeout`. -/
def expiresAt (now cookieTimeout : ℤ) : ℕ :=
  ((now + cookieTimeout) % 2 ^ 32).toNat

/-- The cookie before encryption. -/
def cookiePlain (digest : Bytes 16) (hostUniq expires : Bytes 4) : CookieRaw :=
  fun k ↦
    if h : k.val < 16 then digest ⟨k, h⟩
    else if h' : k.val < 20 then hostUniq ⟨k - 16, by omega⟩
    else expires ⟨k - 20, by omega⟩

/-- The two rounds of `DES_ecb_encrypt` with `DES_ENCRYPT`. -/
def encryptCookie (u : CookieRaw) : CookieRaw :=
  mapBlocks (des serv.desKey) (mapBlocks (des (cookieKey serv src)) u)

/-- The two rounds of `DES_ecb_encrypt` with `DES_DECRYPT`. -/
def decryptCookie (u : CookieRaw) : CookieRaw :=
  mapBlocks (des (cookieKey serv src)).symm (mapBlocks (des serv.desKey).symm u)

/-- The first 16 bytes. -/
def cookieHead (u : CookieRaw) : Bytes 16 :=
  fun i ↦ u ⟨i, by omega⟩

/-- Bytes 20–23. -/
def cookieExpires (u : CookieRaw) : Bytes 4 :=
  fun i ↦ u ⟨20 + i, by omega⟩

/-- `generate_cookie`, at time `now`. -/
def generateCookie (cookieTimeout : ℤ) (serv : PppoeServ) (src : Bytes 6)
    (hostUniq relaySid : Option (List UInt8)) (now : ℤ) : CookieRaw :=
  encryptCookie des serv src
    (cookiePlain (md5 (cookieInput serv src relaySid)) (hostUniqBytes md5 serv hostUniq)
      (uint32Bytes (expiresAt now cookieTimeout)))

/-- `check_cookie`, at time `now`: whether its result is **non-zero**, which is how it refuses. -/
def checkCookie (cookie : CookieRaw) (relaySid : Option (List UInt8)) (now : ℤ) : Bool :=
  let u := decryptCookie des serv src cookie
  if (uint32Read (cookieExpires u) : ℤ) < now then true
  else decide (cookieHead u ≠ md5 (cookieInput serv src relaySid))

/-- The two tests `pppoe_recv_PADR` puts to the AC-Cookie tag: its length, then `check_cookie`. -/
def padrAccepts (acCookie : List UInt8) (relaySid : Option (List UInt8)) (now : ℤ) : Bool :=
  if h : acCookie.length = 3 * 8 then
    !checkCookie des md5 serv src (fun i ↦ acCookie.get (i.cast h.symm)) relaySid now
  else false

end

/-! ### Numbers in memory -/

lemma uint32Read_uint32Bytes {n : ℕ} (h : n < 2 ^ 32) : uint32Read (uint32Bytes n) = n := by
  have h0 : (uint32Bytes n 0).toNat = n / 1 % 256 := toNat_ofNat'
  have h1 : (uint32Bytes n 1).toNat = n / 256 % 256 := toNat_ofNat'
  have h2 : (uint32Bytes n 2).toNat = n / 65536 % 256 := toNat_ofNat'
  have h3 : (uint32Bytes n 3).toNat = n / 16777216 % 256 := toNat_ofNat'
  rw [uint32Read]
  omega

/-! ### The blocks of a cookie -/

section

variable (des : Des) (md5 : Md5) (cookieTimeout : ℤ) (serv : PppoeServ) (src : Bytes 6)

variable (u cookie : CookieRaw)

@[simp] lemma decryptCookie_encryptCookie :
    decryptCookie des serv src (encryptCookie des serv src u) = u := by
  rw [decryptCookie, encryptCookie, mapBlocks_symm_mapBlocks, mapBlocks_symm_mapBlocks]

lemma block_decryptCookie (i : Fin 3) :
    block (decryptCookie des serv src u) i =
      (des (cookieKey serv src)).symm ((des serv.desKey).symm (block u i)) := by
  rw [decryptCookie, block_mapBlocks, block_mapBlocks]

@[simp] lemma cookieHead_cookiePlain (digest : Bytes 16) (hostUniq expires : Bytes 4) :
    cookieHead (cookiePlain digest hostUniq expires) = digest := by
  funext i
  exact dif_pos i.isLt

@[simp] lemma cookieExpires_cookiePlain (digest : Bytes 16) (hostUniq expires : Bytes 4) :
    cookieExpires (cookiePlain digest hostUniq expires) = expires := by
  funext i
  have h16 : ¬ 20 + i.val < 16 := by omega
  have h20 : ¬ 20 + i.val < 20 := by omega
  have hi : (⟨20 + i.val - 20, by omega⟩ : Fin 4) = i := Fin.ext (Nat.add_sub_cancel_left 20 i)
  rw [cookieExpires, cookiePlain, dif_neg h16, dif_neg h20, hi]

variable {u v : CookieRaw}

/-- The first 16 bytes are the first two blocks. -/
lemma cookieHead_eq_iff :
    cookieHead u = cookieHead v ↔ block u 0 = block v 0 ∧ block u 1 = block v 1 := by
  constructor
  · intro h
    refine ⟨funext fun j ↦ ?_, funext fun j ↦ ?_⟩
    · exact congrFun h (finProdFinEquiv ((0 : Fin 2), j))
    · exact congrFun h (finProdFinEquiv ((1 : Fin 2), j))
  rintro ⟨h0, h1⟩
  funext i
  rcases Nat.lt_or_ge i.val 8 with hi | hi
  · exact congrFun h0 ⟨i, hi⟩
  have hk (w : CookieRaw) : cookieHead w i = block w 1 ⟨i - 8, by omega⟩ := by
    refine congrArg w (Fin.ext ?_)
    show i.val = i.val - 8 + 8 * 1
    omega
  rw [hk, hk, h1]

/-- The expiry lies in the third block. -/
lemma cookieExpires_eq_block : cookieExpires u = fun i : Fin 4 ↦ block u 2 ⟨4 + i, by omega⟩ := by
  funext i
  refine congrArg u (Fin.ext ?_)
  show 20 + i.val = 4 + i.val + 8 * 2
  omega

/-- **Decryption keeps the first 16 bytes apart from the rest**: they decrypt to the same bytes
exactly when they are the same. -/
theorem head_decrypt_eq_iff :
    cookieHead (decryptCookie des serv src u) = cookieHead (decryptCookie des serv src v) ↔
      cookieHead u = cookieHead v := by
  simp only [cookieHead_eq_iff, block_decryptCookie, EmbeddingLike.apply_eq_iff_eq]

/-- The expiry time that an encrypted block stands for: the second half of what it decrypts to. -/
def blockExpiry (b : Bytes 8) : ℕ :=
  let plain := (des (cookieKey serv src)).symm ((des serv.desKey).symm b)
  uint32Read fun i : Fin 4 ↦ plain ⟨4 + i, by omega⟩

/-- The expiry `check_cookie` looks at is that of the third block. -/
lemma read_expires_decrypt :
    uint32Read (cookieExpires (decryptCookie des serv src cookie)) =
      blockExpiry des serv src (block cookie 2) := by
  rw [cookieExpires_eq_block, block_decryptCookie, blockExpiry]

variable (hostUniq relaySid : Option (List UInt8))

include hostUniq relaySid

lemma decrypt_generateCookie (now : ℤ) :
    decryptCookie des serv src
        (generateCookie des md5 cookieTimeout serv src hostUniq relaySid now) =
      cookiePlain (md5 (cookieInput serv src relaySid)) (hostUniqBytes md5 serv hostUniq)
        (uint32Bytes (expiresAt now cookieTimeout)) :=
  decryptCookie_encryptCookie des serv src _

lemma checkCookie_accepts_iff (issued now : ℤ) :
    checkCookie des md5 serv src cookie relaySid now = false ↔
      cookieHead cookie =
          cookieHead (generateCookie des md5 cookieTimeout serv src hostUniq relaySid issued) ∧
        now ≤ blockExpiry des serv src (block cookie 2) := by
  rw [checkCookie, read_expires_decrypt, ← head_decrypt_eq_iff des serv src, decrypt_generateCookie]
  split
  · next h => simp [h]
  · next h => simp [Int.not_lt.mp h]

/-- A cookie is accepted until the expiry written into it, as a 32-bit number. -/
lemma checkCookie_generateCookie {issued now : ℤ} :
    checkCookie des md5 serv src
        (generateCookie des md5 cookieTimeout serv src hostUniq relaySid issued) relaySid now =
      false ↔ now ≤ (issued + cookieTimeout) % 2 ^ 32 := by
  rw [checkCookie_accepts_iff des md5 cookieTimeout serv src _ hostUniq relaySid issued,
    ← read_expires_decrypt, decrypt_generateCookie, cookieExpires_cookiePlain, expiresAt,
    uint32Read_uint32Bytes (by omega), and_iff_right rfl]
  omega

end

/-! ### The tag as received -/

lemma padrAccepts_ofFn {des : Des} {md5 : Md5} {serv : PppoeServ} (src : Bytes 6)
    (cookie : CookieRaw) (relaySid : Option (List UInt8)) (now : ℤ) :
    padrAccepts des md5 serv src (List.ofFn cookie) relaySid now =
      !checkCookie des md5 serv src cookie relaySid now := by
  have hget : (fun i : Fin (3 * 8) ↦ (ofFn cookie).get (i.cast length_ofFn.symm)) =
      cookie := by
    funext i
    rw [get_ofFn]
    rfl
  rw [padrAccepts, dif_pos length_ofFn, hget]

/-- **What the AC-Cookie proves.**

* A string is accepted exactly when it is 24 bytes long, its first 16 bytes are those of the cookies
  the server generates for this client and relay id (at any time and for any Host-Uniq), and its
  third block decrypts to an expiry that has not passed.
* A cookie the server has generated is accepted exactly until its expiry, kept in 32 bits.
* The first 16 bytes belong to one client and one relay id, among the clients with the same key and
  as long as MD5 does not collide on the strings hashed for them. -/
theorem padrAccepts_iff (des : Des) (md5 : Md5) (cookieTimeout : ℤ) (serv : PppoeServ)
    (src : Bytes 6) (relaySid : Option (List UInt8)) :
    (∀ (acCookie : List UInt8) (now : ℤ) (hostUniq : Option (List UInt8)) (issued : ℤ),
      padrAccepts des md5 serv src acCookie relaySid now = true ↔
        ∃ cookie : CookieRaw, acCookie = List.ofFn cookie ∧
          cookieHead cookie =
            cookieHead (generateCookie des md5 cookieTimeout serv src hostUniq relaySid issued) ∧
          now ≤ blockExpiry des serv src (block cookie 2)) ∧
    (∀ (hostUniq : Option (List UInt8)) (issued now : ℤ),
      padrAccepts des md5 serv src
          (List.ofFn (generateCookie des md5 cookieTimeout serv src hostUniq relaySid issued))
          relaySid now = true ↔ now ≤ (issued + cookieTimeout) % 2 ^ 32) ∧
    (∀ (src' : Bytes 6) (hostUniq hostUniq' relaySid' : Option (List UInt8)) (issued issued' : ℤ),
      cookieKey serv src = cookieKey serv src' →
      cookieHead (generateCookie des md5 cookieTimeout serv src hostUniq relaySid issued) =
        cookieHead (generateCookie des md5 cookieTimeout serv src' hostUniq' relaySid' issued') →
      (src = src' ∧ relaySid.getD [] = relaySid'.getD []) ∨
        (cookieInput serv src relaySid ≠ cookieInput serv src' relaySid' ∧
          md5 (cookieInput serv src relaySid) = md5 (cookieInput serv src' relaySid'))) := by
  refine ⟨fun acCookie now hostUniq issued ↦ ?_, fun hostUniq issued now ↦ ?_,
    fun src' hostUniq hostUniq' relaySid' issued issued' hkey hhead ↦ ?_⟩
  · have hiff (cookie : CookieRaw) :=
      checkCookie_accepts_iff des md5 cookieTimeout serv src cookie hostUniq relaySid issued now
    constructor
    · intro h
      obtain ⟨cookie, rfl⟩ : ∃ cookie : CookieRaw, acCookie = List.ofFn cookie := by
        by_cases hlen : acCookie.length = 3 * 8
        · exact ⟨_, (ofFn_get acCookie).symm.trans (ofFn_congr hlen _)⟩
        · rw [padrAccepts, dif_neg hlen] at h
          nomatch h
      rw [padrAccepts_ofFn, Bool.not_eq_true'] at h
      exact ⟨cookie, rfl, (hiff cookie).mp h⟩
    · rintro ⟨cookie, rfl, h⟩
      rw [padrAccepts_ofFn, Bool.not_eq_true']
      exact (hiff cookie).mpr h
  · rw [padrAccepts_ofFn, Bool.not_eq_true']
    exact checkCookie_generateCookie des md5 cookieTimeout serv src hostUniq relaySid
  · have hdec (u : CookieRaw) : decryptCookie des serv src u = decryptCookie des serv src' u := by
      rw [decryptCookie, decryptCookie, hkey]
    -- equal first blocks decrypt, under the one key, to equal digests
    rw [← head_decrypt_eq_iff des serv src, decrypt_generateCookie, hdec, decrypt_generateCookie,
      cookieHead_cookiePlain, cookieHead_cookiePlain] at hhead
    by_cases hin : cookieInput serv src relaySid = cookieInput serv src' relaySid'
    · -- the hashed string tells the client and the relay id
      unfold cookieInput at hin
      rw [append_assoc, append_assoc _ (ofFn src')] at hin
      have htail := append_cancel_left hin
      obtain ⟨hsrc, hrelay⟩ := append_inj htail (by rw [length_ofFn, length_ofFn])
      exact .inl ⟨ofFn_injective hsrc, hrelay⟩
    · exact .inr ⟨hin, hhead⟩

/-! ### What the AC-Cookie does not prove -/

/-- A cookie the server has sent in a PADO. -/
structure CookieIssue where
  src : Bytes 6
  hostUniq : Option (List UInt8)
  relaySid : Option (List UInt8)
  /-- The time of sending. -/
  time : ℤ

def CookieIssue.cookie (des : Des) (md5 : Md5) (cookieTimeout : ℤ) (serv : PppoeServ)
    (i : CookieIssue) : List UInt8 :=
  List.ofFn (generateCookie des md5 cookieTimeout serv i.src i.hostUniq i.relaySid i.time)

/-- Full integrity, for a server that has sent the cookies of `history`: only those are accepted, by
the client and with the relay id they were sent for and until `cookie-timeout` after, and all of
them are accepted for that long. -/
def CookieIntegrity (des : Des) (md5 : Md5) (cookieTimeout : ℤ) (serv : PppoeServ)
    (history : List CookieIssue) : Prop :=
  (∀ src acCookie relaySid now, padrAccepts des md5 serv src acCookie relaySid now = true →
    ∃ i ∈ history, acCookie = i.cookie des md5 cookieTimeout serv ∧ i.src = src ∧
      i.relaySid = relaySid ∧ i.time ≤ now ∧ now ≤ i.time + cookieTimeout) ∧
  ∀ i ∈ history, ∀ now, i.time ≤ now → now ≤ i.time + cookieTimeout →
    padrAccepts des md5 serv i.src (i.cookie des md5 cookieTimeout serv) i.relaySid now = true

/-- **Whatever the cipher and the hash**: a cookie is sent at time 0 with a timeout of five seconds.
At time 100 the string of its first two blocks and a third block that decrypts to a later expiry is
accepted. -/
theorem spliced_cookie_accepted :
    ¬ ∃ (des : Des) (md5 : Md5), CookieIntegrity des md5 5
        { hwaddr := ![2, 0, 0, 0, 0, 1], secret := fun _ ↦ 7, desKey := fun _ ↦ 1 }
        [{ src := ![2, 0, 0, 0, 0, 2], hostUniq := none, relaySid := none, time := 0 }] := by
  rintro ⟨des, md5, hsound, -⟩
  generalize PppoeServ.mk ![2, 0, 0, 0, 0, 1] (fun _ ↦ 7) (fun _ ↦ 1) = serv at hsound
  -- what the server would send at time 1000 has the same first two blocks
  have hlater := (padrAccepts_ofFn ![2, 0, 0, 0, 0, 2]
    (generateCookie des md5 5 serv ![2, 0, 0, 0, 0, 2] none none 1000) none 100).trans
    (congrArg not ((checkCookie_generateCookie des md5 5 serv _ none none).mpr
      (by decide)))
  obtain ⟨i, hi, -, -, -, -, hlate⟩ := hsound _ _ _ _ hlater
  rw [mem_singleton.mp hi] at hlate
  exact absurd hlate (by decide)

end AccelPpp.Pppoe
