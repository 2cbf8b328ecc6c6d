import AccelPpp.Radius.Packet

/-!
# The framing of attributes

The attributes of a datagram are cut at their lengths (`cutTop`), and the value of a vendor-specific
attribute, after the number of the vendor, at the lengths of the sub-attributes in it (`cutSub`).
`cut` is both, and says nothing when some length does not fit into what contains it.

The parser has one level only. After the first sub-attribute of a vendor-specific attribute it goes
on as if the attribute had ended there, so it agrees with the cut exactly when every vendor-specific
attribute of a known vendor is filled by one sub-attribute (`framed_iff`).
-/

open List Nat Option

namespace AccelPpp.Radius

/-! ### The two levels -/

section

variable (dict : Dict) (mem : ℕ → UInt8)

/-- A number of `width` bytes, the first being the highest. -/
def beNat (off width : ℕ) : ℕ :=
  (bytesAt mem off width).foldl (fun acc b ↦ acc * 256 + b.toNat) 0

/-- A top-level attribute, with the place of its value. -/
structure Top where
  id : ℕ
  off : ℕ
  len : ℕ
  deriving DecidableEq

/-- The bytes cut at the lengths of the attributes. -/
def cutTop (mem : ℕ → UInt8) : ℕ → ℕ → ℕ → Option (List Top)
  | 0, _, n => if n = 0 then some [] else none
  | fuel + 1, off, n =>
    if n = 0 then some []
    else if n < 2 then none
    else if (mem (off + 1)).toNat < 2 ∨ (mem (off + 1)).toNat > n then none
    else
      (cutTop mem fuel (off + (mem (off + 1)).toNat) (n - (mem (off + 1)).toNat)).map
        (⟨(mem off).toNat, off + 2, (mem (off + 1)).toNat - 2⟩ :: ·)

/-- The length of the sub-attribute at `off`, with its header: what its length field says, or all
that is left when there is none. -/
def subTotal (v : Vendor) (mem : ℕ → UInt8) (off n : ℕ) : ℕ :=
  if v.len = 0 then n else beNat mem (off + v.tag) v.len

/-- The value of a vendor-specific attribute cut at the lengths of its sub-attributes. -/
def cutSub (v : Vendor) (mem : ℕ → UInt8) : ℕ → ℕ → ℕ → Option (List Item)
  | 0, _, n => if n = 0 then some [] else none
  | fuel + 1, off, n =>
    if n = 0 then some []
    else if n < v.tag + v.len then none
    else if subTotal v mem off n < v.tag + v.len ∨ subTotal v mem off n > n then none
    else
      (cutSub v mem fuel (off + subTotal v mem off n) (n - subTotal v mem off n)).map
        (⟨some v, beNat mem off v.tag, off + (v.tag + v.len),
          subTotal v mem off n - (v.tag + v.len)⟩ :: ·)

/-- What a top-level attribute contains. -/
def expand (t : Top) : Option (List Item) :=
  if t.id = 26 then
    if t.len < 4 then none
    else
      match dict.findVendorId (UInt32.ofNat (be32 mem t.off)) with
      | some v => cutSub v mem (t.len - 4) (t.off + 4) (t.len - 4)
      | none => some [⟨none, 26, t.off, t.len⟩]
  else some [⟨none, t.id, t.off, t.len⟩]

/-- What a list of top-level attributes contains. -/
def expandAll (dict : Dict) (mem : ℕ → UInt8) : List Top → Option (List Item)
  | [] => some []
  | t :: ts => (expand dict mem t).bind fun items ↦ (expandAll dict mem ts).map (items ++ ·)

/-- The attributes of `n` bytes from `off` on, by both levels. -/
def cut (off n : ℕ) : Option (List Item) :=
  (cutTop mem n off n).bind (expandAll dict mem)

/-! ### Filled attributes -/

/-- A vendor-specific attribute of a known vendor is filled by one sub-attribute: there are bytes
after the number of the vendor, the length in the header there is that of all of them, and the
fields of the header have widths the parser reads. -/
def Filled (t : Top) : Prop :=
  t.id = 26 → ∀ v, dict.findVendorId (UInt32.ofNat (be32 mem t.off)) = some v →
    4 < t.len ∧ readField mem (t.off + 4) v.tag = beNat mem (t.off + 4) v.tag ∧
      readField mem (t.off + 4 + v.tag) v.len = t.len - 4 ∧
      subTotal v mem (t.off + 4) (t.len - 4) = t.len - 4

/-- The attributes can be cut, and the vendor-specific ones among them are filled. -/
def AllFilled (off n : ℕ) : Prop :=
  ∃ ts, cutTop mem n off n = some ts ∧ ∀ t ∈ ts, Filled dict mem t

/-- The packet was framed right: it is returned with the attributes it contains. -/
def Framed (p : RadPacket) : Prop :=
  ∃ items, cut dict mem 20 (p.len - 20) = some items ∧ p.items = items ∧
    p.attrs = items.filterMap (decodeItem dict mem)

end

section Heads

variable {dict : Dict} {mem : ℕ → UInt8} {v : Vendor} {fuel off n : ℕ} {it : Item}
  {items : List Item} {ts : List Top}

/-- Enough turns are enough. -/
lemma cutTop_fuel {fuel' : ℕ} (h : n ≤ fuel) (h' : n ≤ fuel') :
    cutTop mem fuel off n = cutTop mem fuel' off n := by
  induction fuel generalizing fuel' off n with
  | zero =>
    obtain rfl : n = 0 := le_zero.mp h
    cases fuel' <;> rfl
  | succ fuel ih =>
    cases fuel' with
    | zero =>
      obtain rfl : n = 0 := le_zero.mp h'
      rfl
    | succ fuel' =>
      rw [cutTop, cutTop]
      split
      · rfl
      split
      · rfl
      · split
        · rfl
        · exact congrArg _ (ih (by omega) (by omega))

/-- What the cut of a vendor-specific attribute is: nothing, or a sub-attribute and the rest. -/
lemma cutSub_cases (h : cutSub v mem fuel off n = some items) :
    n = 0 ∧ items = [] ∨ n ≠ 0 ∧ fuel ≠ 0 ∧ v.tag + v.len ≤ subTotal v mem off n ∧
      subTotal v mem off n ≤ n ∧ ∃ rest,
        cutSub v mem (fuel - 1) (off + subTotal v mem off n) (n - subTotal v mem off n) =
          some rest ∧
        items = ⟨some v, beNat mem off v.tag, off + (v.tag + v.len),
          subTotal v mem off n - (v.tag + v.len)⟩ :: rest := by
  cases fuel with
  | zero =>
    rw [cutSub] at h
    split at h
    · next hn => exact .inl ⟨hn, (some.inj h).symm⟩
    · nomatch h
  | succ fuel =>
    rw [cutSub] at h
    split at h
    · next hn => exact .inl ⟨hn, (some.inj h).symm⟩
    split at h
    · nomatch h
    split at h
    · nomatch h
    · next hn _ hsub =>
      obtain ⟨rest, hrest, rfl⟩ := map_eq_some_iff.mp h
      exact .inr ⟨hn, succ_ne_zero fuel, by omega, by omega, rest, hrest, rfl⟩

/-- One turn of the parser's loop: the item it makes, and the number of bytes it takes. -/
inductive Turn (dict : Dict) (mem : ℕ → UInt8) (off n : ℕ) : Item → ℕ → Prop
  /-- An attribute that is taken as it is. -/
  | plain (hle : 2 ≤ (mem (off + 1)).toNat) (hn : (mem (off + 1)).toNat ≤ n)
      (hplain : (mem off).toNat = 26 → 6 ≤ (mem (off + 1)).toNat ∧
        dict.findVendorId (UInt32.ofNat (be32 mem (off + 2))) = none) :
      Turn dict mem off n ⟨none, (mem off).toNat, off + 2, (mem (off + 1)).toNat - 2⟩
        (mem (off + 1)).toNat
  /-- The first sub-attribute of a known vendor. -/
  | vendor (v : Vendor) (hid : (mem off).toNat = 26)
      (hle : 6 + (v.tag + v.len) ≤ (mem (off + 1)).toNat) (hn : (mem (off + 1)).toNat ≤ n)
      (hv : dict.findVendorId (UInt32.ofNat (be32 mem (off + 2))) = some v)
      (htotal : v.tag + v.len ≤ readField mem (off + 6 + v.tag) v.len)
      (hfit : 6 + readField mem (off + 6 + v.tag) v.len ≤ n) :
      Turn dict mem off n
        ⟨some v, readField mem (off + 6) v.tag, off + 6 + (v.tag + v.len),
          readField mem (off + 6 + v.tag) v.len - (v.tag + v.len)⟩
        (6 + readField mem (off + 6 + v.tag) v.len)

/-- What the loop does when it accepts: nothing is left, or it makes a turn and goes on. -/
lemma recvLoop_cases (h : recvLoop dict mem (fuel + 1) off n = some items) :
    (n = 0 ∧ items = []) ∨ ∃ it k rest, items = it :: rest ∧ Turn dict mem off n it k ∧
      recvLoop dict mem fuel (off + k) (n - k) = some rest := by
  rw [recvLoop] at h
  dsimp only at h
  split at h
  · next hn => exact .inl ⟨hn, (some.inj h).symm⟩
  refine .inr ?_
  split at h
  · nomatch h
  split at h
  · nomatch h
  next hn2 hlen =>
  split at h
  · nomatch h
  next hfit =>
  have hstep : off + 2 + ((mem (off + 1)).toNat - 2) = off + (mem (off + 1)).toNat := by omega
  have hleft : n - (2 + ((mem (off + 1)).toNat - 2)) = n - (mem (off + 1)).toNat := by omega
  split at h
  · next hid =>
    split at h
    · nomatch h
    next hlen4 =>
    split at h
    · next v hv =>
      split at h
      · nomatch h
      split at h
      · nomatch h
      split at h
      · nomatch h
      · obtain ⟨rest, hrest, rfl⟩ := map_eq_some_iff.mp h
        refine ⟨_, _, rest, rfl, .vendor v hid (by omega) (by omega) hv (by omega) (by omega), ?_⟩
        rw [← Nat.add_assoc]
        exact hrest
    · next hv =>
      obtain ⟨rest, hrest, rfl⟩ := map_eq_some_iff.mp h
      rw [hstep, hleft] at hrest
      refine ⟨_, _, rest, ?_, .plain (by omega) (by omega) fun _ ↦ ⟨by omega, hv⟩, hrest⟩
      rw [hid]
  · next hid =>
    obtain ⟨rest, hrest, rfl⟩ := map_eq_some_iff.mp h
    rw [hstep, hleft] at hrest
    exact ⟨_, _, rest, rfl, .plain (by omega) (by omega) fun h26 ↦ (hid h26).elim, hrest⟩

/-- What the parser takes for a sub-attribute begins after two headers. -/
lemma recvLoop_head (h : recvLoop dict mem fuel off n = some (it :: items))
    (hv : it.vendor = some v) : it.off = off + 6 + (v.tag + v.len) := by
  cases fuel with
  | zero =>
    rw [recvLoop] at h
    split at h <;> nomatch h
  | succ fuel =>
    rcases recvLoop_cases h with ⟨-, hnil⟩ | ⟨it', k, rest, heq, hturn, -⟩
    · nomatch hnil
    obtain ⟨rfl, -⟩ := cons.inj heq
    cases hturn with
    | plain => nomatch hv
    | vendor v' =>
      obtain rfl := some.inj hv
      rfl

/-! ### One attribute at a time -/

section

variable {len : ℕ} (hlen : (mem (off + 1)).toNat = len) (hle : 2 ≤ len) (hn : len ≤ n)

include hlen hle hn

lemma cutTop_step :
    cutTop mem n off n = (cutTop mem (n - len) (off + len) (n - len)).map
      (⟨(mem off).toNat, off + 2, len - 2⟩ :: ·) := by
  obtain ⟨m, rfl⟩ : ∃ m, n = m + 1 := ⟨n - 1, by omega⟩
  rw [cutTop, hlen, if_neg (by omega), if_neg (by omega), if_neg (by omega)]
  exact congrArg _ (cutTop_fuel (by omega) (Nat.le_refl _))

lemma cut_step :
    cut dict mem off n =
      (expand dict mem ⟨(mem off).toNat, off + 2, len - 2⟩).bind fun is ↦
        (cut dict mem (off + len) (n - len)).map (is ++ ·) := by
  rw [cut, cutTop_step hlen hle hn, cut]
  cases cutTop mem (n - len) (off + len) (n - len) with
  | none => cases expand dict mem ⟨(mem off).toNat, off + 2, len - 2⟩ <;> rfl
  | some ts => rfl

lemma allFilled_step :
    AllFilled dict mem off n ↔ Filled dict mem ⟨(mem off).toNat, off + 2, len - 2⟩ ∧
      AllFilled dict mem (off + len) (n - len) := by
  rw [AllFilled, cutTop_step hlen hle hn]
  constructor
  · rintro ⟨ts, hts, hall⟩
    obtain ⟨ts', hts', rfl⟩ := map_eq_some_iff.mp hts
    exact ⟨hall _ (mem_cons_self ..), ts', hts', fun t ht ↦ hall t (mem_cons_of_mem _ ht)⟩
  rintro ⟨hfilled, ts, hts, hall⟩
  exact ⟨_, map_eq_some_iff.mpr ⟨ts, hts, rfl⟩, forall_mem_cons.mpr ⟨hfilled, hall⟩⟩

end

/-- A filled attribute is one sub-attribute. -/
lemma cutSub_of_filled (hn : n ≠ 0) (hle : v.tag + v.len ≤ n)
    (htotal : subTotal v mem off n = n) :
    cutSub v mem n off n =
      some [⟨some v, beNat mem off v.tag, off + (v.tag + v.len), n - (v.tag + v.len)⟩] := by
  obtain ⟨m, rfl⟩ : ∃ m, n = m + 1 := ⟨n - 1, by omega⟩
  rw [cutSub, if_neg hn, if_neg (by omega), if_neg (by rw [htotal]; omega), htotal, Nat.sub_self]
  cases m <;> rfl

/-! ### Where items begin -/

lemma le_off_of_mem_cutSub (h : cutSub v mem fuel off n = some items) (hit : it ∈ items) :
    off ≤ it.off := by
  induction fuel generalizing off n items with
  | zero =>
    rcases cutSub_cases h with ⟨-, rfl⟩ | ⟨-, hf, -⟩
    · nomatch hit
    · exact absurd rfl hf
  | succ fuel ih =>
    rcases cutSub_cases h with ⟨-, rfl⟩ | ⟨-, -, -, -, rest, hrest, rfl⟩
    · nomatch hit
    rcases mem_cons.mp hit with rfl | hit
    · exact le_add_right off _
    · exact Nat.le_trans (Nat.le_add_right off _) (ih hrest hit)

lemma le_off_of_mem_expand {t : Top} (h : expand dict mem t = some items) (hit : it ∈ items) :
    t.off ≤ it.off := by
  rw [expand] at h
  split at h
  · split at h
    · nomatch h
    split at h
    · exact Nat.le_trans (Nat.le_add_right t.off 4) (le_off_of_mem_cutSub h hit)
    · obtain rfl := some.inj h
      obtain rfl := mem_singleton.mp hit
      exact Nat.le_refl _
  · obtain rfl := some.inj h
    obtain rfl := mem_singleton.mp hit
    exact Nat.le_refl _

lemma le_off_of_mem_cutTop {t : Top} (h : cutTop mem fuel off n = some ts) (ht : t ∈ ts) :
    off + 2 ≤ t.off := by
  induction fuel generalizing off n ts with
  | zero =>
    rw [cutTop] at h
    split at h
    · obtain rfl := some.inj h
      nomatch ht
    · nomatch h
  | succ fuel ih =>
    rw [cutTop] at h
    split at h
    · obtain rfl := some.inj h
      nomatch ht
    split at h
    · nomatch h
    split at h
    · nomatch h
    obtain ⟨rest, hrest, rfl⟩ := map_eq_some_iff.mp h
    rcases mem_cons.mp ht with rfl | ht
    · exact Nat.le_refl _
    · have := ih hrest ht
      omega

lemma le_off_of_mem_expandAll {b : ℕ} (hb : ∀ t ∈ ts, b ≤ t.off)
    (h : expandAll dict mem ts = some items) (hit : it ∈ items) : b ≤ it.off := by
  induction ts generalizing items with
  | nil =>
    obtain rfl := some.inj h
    nomatch hit
  | cons t ts ih =>
    obtain ⟨is, his, hrest⟩ := bind_eq_some_iff.mp h
    obtain ⟨more, hmore, rfl⟩ := map_eq_some_iff.mp hrest
    rcases mem_append.mp hit with hit | hit
    · exact Nat.le_trans (hb t (mem_cons_self ..)) (le_off_of_mem_expand his hit)
    · exact ih (fun t ht ↦ hb t (mem_cons_of_mem _ ht)) hmore hit

end Heads

/-! ### The parser and the cut -/

section Agreement

variable {dict : Dict} {mem : ℕ → UInt8} {v : Vendor} {fuel off n : ℕ} {rest : List Item}

lemma cut_zero : cut dict mem off 0 = some [] := rfl

lemma allFilled_zero : AllFilled dict mem off 0 := ⟨[], rfl, nofun⟩

/-- An attribute that is taken as it is contains itself, and there is nothing to fill. -/
lemma expand_plain {t : Top} (hplain : t.id = 26 → 4 ≤ t.len ∧
      dict.findVendorId (UInt32.ofNat (be32 mem t.off)) = none) :
    expand dict mem t = some [⟨none, t.id, t.off, t.len⟩] ∧ Filled dict mem t := by
  constructor
  · rw [expand]
    split
    · next hid =>
      obtain ⟨hle, hnone⟩ := hplain hid
      rw [if_neg (Nat.not_lt.mpr hle), hnone, hid]
    · rfl
  · intro hid v hv
    nomatch (hplain hid).2.symm.trans hv

/-- The parser's item begins the cut of a vendor-specific attribute only if it is all of it. -/
lemma filled_of_head {L m : ℕ} {subs more : List Item} (hle : v.tag + v.len ≤ L)
    (htotal : v.tag + v.len ≤ m) (hfit : 6 + L ≤ n)
    (hrest : recvLoop dict mem fuel (off + (6 + m)) (n - (6 + m)) = some rest)
    (hsubs : cutSub v mem L (off + 6) L = some subs)
    (hmore : cut dict mem (off + (6 + L)) (n - (6 + L)) = some more)
    (heq : (⟨some v, readField mem (off + 6) v.tag, off + 6 + (v.tag + v.len),
      m - (v.tag + v.len)⟩ : Item) :: rest = subs ++ more) :
    L ≠ 0 ∧ readField mem (off + 6) v.tag = beNat mem (off + 6) v.tag ∧ m = L ∧
      subTotal v mem (off + 6) L = L ∧ rest = more := by
  rcases cutSub_cases hsubs with ⟨rfl, rfl⟩ | ⟨hne, -, hsub, hL, subs', hsubs', rfl⟩
  · -- Nothing is cut here, so the item would be one of those that follow; they begin later.
    obtain ⟨ts, hts, hall⟩ := bind_eq_some_iff.mp hmore
    have hmem := le_off_of_mem_expandAll (fun t ht ↦ le_off_of_mem_cutTop hts ht) hall
      (heq ▸ mem_cons_self ..)
    have hoff : off + (6 + 0) + 2 ≤ off + 6 + (v.tag + v.len) := hmem
    omega
  obtain ⟨hitem, rfl⟩ := cons.inj heq
  obtain ⟨-, hbe, -, hlen⟩ := Item.mk.inj hitem
  have hread : m = subTotal v mem (off + 6) L := by omega
  rcases cutSub_cases hsubs' with ⟨hzero, rfl⟩ | ⟨hsecond, -, -, -, subs₂, -, rfl⟩
  · have hall : subTotal v mem (off + 6) L = L := by omega
    exact ⟨hne, hbe, hread.trans hall, hall, rfl⟩
  · -- There is a second sub-attribute. Where it begins, the parser reads another attribute.
    have hoff : off + 6 + subTotal v mem (off + 6) L + (v.tag + v.len) = _ :=
      recvLoop_head hrest rfl
    omega

/-- **The loop agrees with the cut** exactly when the vendor-specific attributes are filled. By
induction on the turns: one over a filled attribute takes all its bytes, and one over another shows
in the next item. -/
theorem recvLoop_framed_iff {items : List Item} (h : recvLoop dict mem fuel off n = some items) :
    cut dict mem off n = some items ↔ AllFilled dict mem off n := by
  induction fuel generalizing off n items with
  | zero =>
    rw [recvLoop] at h
    split at h
    · next hn =>
      subst hn
      obtain rfl := some.inj h
      exact iff_of_true cut_zero allFilled_zero
    · nomatch h
  | succ fuel ih =>
    rcases recvLoop_cases h with ⟨rfl, rfl⟩ | ⟨it, k, rest, rfl, hturn, hrest⟩
    · exact iff_of_true cut_zero allFilled_zero
    cases hturn with
    | plain hle hn hplain =>
      obtain ⟨hexpand, hfilled⟩ := expand_plain
        (t := ⟨(mem off).toNat, off + 2, (mem (off + 1)).toNat - 2⟩)
        fun hid ↦ (hplain hid).imp_left (Nat.sub_le_sub_right · 2)
      rw [cut_step rfl hle hn, allFilled_step rfl hle hn, hexpand, ← ih hrest]
      simp [hfilled]
    | vendor v hid hle hn hv htotal hfit =>
      obtain ⟨len, hlen⟩ : ∃ len, (mem (off + 1)).toNat = len := ⟨_, rfl⟩
      rw [hlen] at hle hn
      have hL : 6 + (len - 2 - 4) = len := by omega
      have hle2 : 2 ≤ len := by omega
      rw [cut_step hlen hle2 hn, allFilled_step hlen hle2 hn, expand, if_pos hid,
        if_neg (show ¬ len - 2 < 4 by omega), hv]
      dsimp only
      constructor
      · intro hcut
        obtain ⟨subs, hsubs, hcut⟩ := bind_eq_some_iff.mp hcut
        obtain ⟨more, hmore, heq⟩ := map_eq_some_iff.mp hcut
        obtain ⟨hne, hbe, hread, hsub, rfl⟩ := filled_of_head (by omega) htotal (by omega) hrest
          hsubs (by rw [hL]; exact hmore) heq.symm
        rw [hread, hL] at hrest
        refine ⟨fun _ v' hv' ↦ ?_, (ih hrest).mp hmore⟩
        obtain rfl : v = v' := mem_unique hv hv'
        exact ⟨show 4 < len - 2 by omega, hbe, hread, hsub⟩
      · rintro ⟨hfilled, hall⟩
        obtain ⟨hlt, hbe, hread, hsub⟩ := hfilled hid v hv
        have hlt : 4 < len - 2 := hlt
        have hread : readField mem (off + 6 + v.tag) v.len = len - 2 - 4 := hread
        have hbe : readField mem (off + 6) v.tag = beNat mem (off + 6) v.tag := hbe
        have hsub : subTotal v mem (off + 6) (len - 2 - 4) = len - 2 - 4 := hsub
        rw [hread, hL] at hrest
        rw [cutSub_of_filled (by omega) (by omega) hsub, (ih hrest).mpr hall, hread, hbe]
        rfl

end Agreement

/-- **The packet is framed right exactly when its vendor-specific attributes of known vendors are
filled**, for every datagram that is accepted. -/
theorem framed_iff (dict : Dict) (mem : ℕ → UInt8) (n : ℕ) (p : RadPacket)
    (h : radPacketRecv dict mem n = some p) :
    Framed dict mem p ↔ AllFilled dict mem 20 (p.len - 20) := by
  rw [radPacketRecv] at h
  dsimp only at h
  split at h
  · nomatch h
  split at h
  · nomatch h
  obtain ⟨items, hitems, rfl⟩ := map_eq_some_iff.mp h
  rw [← recvLoop_framed_iff hitems]
  constructor
  · rintro ⟨items', hcut, heq, -⟩
    obtain rfl : items = items' := heq
    exact hcut
  · intro hcut
    exact ⟨items, hcut, rfl, rfl⟩

/-! ### A vendor-specific attribute with two sub-attributes -/

/-- A dictionary with one attribute, `User-Name`, and one vendor with one attribute. -/
def smallDict : Dict where
  items := [⟨"User-Name", 1, .string, false, 0, []⟩]
  vendors := [⟨9, 1, 1, "Cisco", [⟨"Cisco-AVPair", 1, .string, false, 0, []⟩]⟩]

/-- The buffer after a datagram has been received into it. -/
def received (bytes : List UInt8) : ℕ → UInt8 := fun i ↦ bytes.getD i 0

/-- An Access-Accept with one vendor-specific attribute, of Cisco, that has the given value. -/
def vendorPacket (value : List UInt8) : List UInt8 :=
  [2, 7, 0, UInt8.ofNat (26 + value.length)] ++ List.replicate 16 0 ++
    [26, UInt8.ofNat (6 + value.length), 0, 0, 0, 9] ++ value

/-- One sub-attribute, `a`. -/
def onePair : List UInt8 := vendorPacket [1, 3, 0x61]

/-- Two sub-attributes, `a` and `b`. -/
def twoPairs : List UInt8 := vendorPacket [1, 3, 0x61, 1, 3, 0x62]

/-- A field of the packet that is returned. -/
lemma field_of_recv {β : Type} {dict : Dict} {mem : ℕ → UInt8} {n : ℕ} {p : RadPacket}
    (hp : radPacketRecv dict mem n = some p) {f : RadPacket → β} {b : β}
    (h : (radPacketRecv dict mem n).map f = some b) : f p = b := by
  rw [hp] at h
  exact some.inj h

theorem framed_iff_onePair :
    ∃ p, radPacketRecv smallDict (received onePair) onePair.length = some p ∧
      AllFilled smallDict (received onePair) 20 (p.len - 20) ∧
      Framed smallDict (received onePair) p := by
  obtain ⟨p, hp⟩ := isSome_iff_exists.mp (show
    (radPacketRecv smallDict (received onePair) onePair.length).isSome = true by decide +kernel)
  have hlen : p.len = 29 := field_of_recv hp (by decide +kernel)
  have hfilled : AllFilled smallDict (received onePair) 20 (p.len - 20) := by
    rw [hlen]
    refine ⟨[⟨26, 22, 7⟩], by decide +kernel, fun t ht ↦ ?_⟩
    obtain rfl := mem_singleton.mp ht
    intro _ v hv
    have hvendor : smallDict.vendors.head? = some v := by
      rw [← hv]
      decide +kernel
    obtain rfl := some.inj hvendor
    decide +kernel
  exact ⟨p, hp, hfilled, (framed_iff smallDict _ _ p hp).mpr hfilled⟩

/-- The second of two sub-attributes is returned as the user's name: the bytes `1 3 b` inside the
vendor-specific attribute are read as a top-level attribute. -/
theorem second_pair_is_userName :
    ∃ p, radPacketRecv smallDict (received twoPairs) twoPairs.length = some p ∧
      p.attrs.map (fun a ↦ (a.attr.name, a.val)) =
        [("Cisco-AVPair", .string [0x61]), ("User-Name", .string [0x62])] ∧
      (cut smallDict (received twoPairs) 20 (p.len - 20)).map
          (fun items ↦ (items.filterMap (decodeItem smallDict (received twoPairs))).map
            fun a ↦ (a.attr.name, a.val)) =
        some [("Cisco-AVPair", .string [0x61]), ("Cisco-AVPair", .string [0x62])] ∧
      ¬ Framed smallDict (received twoPairs) p := by
  obtain ⟨p, hp⟩ := isSome_iff_exists.mp (show
    (radPacketRecv smallDict (received twoPairs) twoPairs.length).isSome = true by decide +kernel)
  have hlen : p.len = 32 := field_of_recv hp (by decide +kernel)
  have hattrs : p.attrs.map (fun a ↦ (a.attr.name, a.val)) =
      [("Cisco-AVPair", .string [0x61]), ("User-Name", .string [0x62])] :=
    field_of_recv hp (f := fun p ↦ p.attrs.map fun a ↦ (a.attr.name, a.val)) (by decide +kernel)
  have hcuts : (cut smallDict (received twoPairs) 20 (p.len - 20)).map
      (fun items ↦ (items.filterMap (decodeItem smallDict (received twoPairs))).map
        fun a ↦ (a.attr.name, a.val)) =
      some [("Cisco-AVPair", .string [0x61]), ("Cisco-AVPair", .string [0x62])] := by
    rw [hlen]
    decide +kernel
  refine ⟨p, hp, hattrs, hcuts, ?_⟩
  rintro ⟨items, hcut, -, hdecoded⟩
  rw [hcut, map_some, ← hdecoded, hattrs] at hcuts
  revert hcuts
  decide

end AccelPpp.Radius
