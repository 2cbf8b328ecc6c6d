import AccelPpp.Lib.BigEndian
import AccelPpp.Lib.Memory

/-!
# Items with a code, a length and a value

An item is a code and a length, of two bytes each, and as many bytes as the length says. The codes
in `nest` are those of items whose value goes on with further items, after so many bytes.

`decode` takes a sequence of bytes apart; it succeeds only if every length is exactly that of what
it stands before (`decode_encodeAll` is the round trip).

Often such items are put together **in place**: the header of an item is written first, and each
item that is added to it changes its length and the length of everything around it. `Open` is what
holds of the memory meanwhile, and the lemmas about it are the rules of adding and finishing an
item.
-/

open BigEndian List Memory Nat

namespace Tlv

inductive Item where
  | mk (code : ℕ) (data : List UInt8) (subs : List Item)

def Item.code : Item → ℕ
  | ⟨code, _, _⟩ => code

/-- The value, as far as it has no items in it. -/
def Item.data : Item → List UInt8
  | ⟨_, data, _⟩ => data

def Item.subs : Item → List Item
  | ⟨_, _, subs⟩ => subs

mutual

def Item.encode : Item → List UInt8
  | ⟨code, data, subs⟩ =>
    toBytes 2 code ++ toBytes 2 (data.length + (encodeAll subs).length) ++ (data ++ encodeAll subs)

def encodeAll : List Item → List UInt8
  | [] => []
  | item :: items => item.encode ++ encodeAll items

end

/-- The first item: its code and its value, and what follows. -/
def cut (bytes : List UInt8) : Option (ℕ × List UInt8 × List UInt8) :=
  if bytes.length < 4 then none
  else
    let len := ofBytes ((bytes.drop 2).take 2)
    let rest := bytes.drop 4
    if rest.length < len then none
    else some (ofBytes (bytes.take 2), rest.take len, rest.drop len)

/-- Take a sequence of items apart. Each must be one that `ok` accepts. -/
def decode (nest : ℕ → Option ℕ) (ok : ℕ → List UInt8 → Bool) :
    ℕ → List UInt8 → Option (List Item)
  | _, [] => some []
  | 0, _ :: _ => none
  | fuel + 1, b :: bytes =>
    match cut (b :: bytes) with
    | none => none
    | some (code, value, rest) =>
      if !ok code value then none
      else match nest code with
        | none => (decode nest ok fuel rest).map (⟨code, value, []⟩ :: ·)
        | some d =>
          if value.length < d then none
          else match decode nest ok fuel (value.drop d), decode nest ok fuel rest with
            | some subs, some items => some (⟨code, value.take d, subs⟩ :: items)
            | _, _ => none

/-- The item has the shape that its code asks for, and its lengths can be written. -/
inductive Fits (nest : ℕ → Option ℕ) : Item → Prop
  | leaf {code data} : code < 65536 → data.length < 65536 → nest code = none →
      Fits nest ⟨code, data, []⟩
  | node {code data subs} : code < 65536 → data.length + (encodeAll subs).length < 65536 →
      nest code = some data.length → (∀ item ∈ subs, Fits nest item) → Fits nest ⟨code, data, subs⟩

/-! ### The round trip -/

lemma encodeAll_append (items more : List Item) :
    encodeAll (items ++ more) = encodeAll items ++ encodeAll more := by
  induction items with
  | nil => rfl
  | cons item items ih => rw [cons_append, encodeAll, encodeAll, ih, append_assoc]

lemma encodeAll_singleton (item : Item) : encodeAll [item] = item.encode := by
  rw [encodeAll, encodeAll, append_nil]

lemma ofBytes_toBytes_two {v : ℕ} (hv : v < 65536) : ofBytes (toBytes 2 v) = v := by
  rw [ofBytes_toBytes]
  exact mod_eq_of_lt hv

lemma cut_append {code : ℕ} {value : List UInt8} (hcode : code < 65536)
    (hvalue : value.length < 65536) (rest : List UInt8) :
    cut (toBytes 2 code ++ toBytes 2 value.length ++ value ++ rest) = some (code, value, rest) := by
  generalize htext : toBytes 2 code ++ toBytes 2 value.length ++ value ++ rest = text
  have hdrop2 : text.drop 2 = toBytes 2 value.length ++ (value ++ rest) :=
    htext ▸ drop_left' (length_toBytes ..)
  have hdrop4 : text.drop 4 = value ++ rest := by
    rw [← htext, append_assoc _ value]
    exact drop_left' (by simp)
  have htake : text.take 2 = toBytes 2 code := htext ▸ take_left' (length_toBytes ..)
  have hlen : (toBytes 2 value.length ++ (value ++ rest)).take 2 = toBytes 2 value.length :=
    take_left' (length_toBytes ..)
  rw [cut, if_neg (by simp [← htext]; omega), hdrop2, hdrop4, htake, hlen,
    ofBytes_toBytes_two hcode, ofBytes_toBytes_two hvalue]
  rw [if_neg (by simp), take_left' rfl, drop_left' rfl]

variable {nest : ℕ → Option ℕ}

lemma Fits.small {code : ℕ} {data : List UInt8} {subs : List Item}
    (h : Fits nest ⟨code, data, subs⟩) :
    code < 65536 ∧ (data ++ encodeAll subs).length < 65536 := by
  cases h with
  | leaf hcode hdata => exact ⟨hcode, by rwa [encodeAll, append_nil]⟩
  | node hcode hlen => exact ⟨hcode, by rwa [length_append]⟩

/-- **What was encoded is found again.** -/
theorem decode_encodeAll {fuel : ℕ} {items : List Item} (hfuel : (encodeAll items).length ≤ fuel)
    (hfits : ∀ item ∈ items, Fits nest item) :
    decode nest (fun _ _ ↦ true) fuel (encodeAll items) = some items := by
  induction fuel generalizing items with
  | zero =>
    cases items with
    | nil => rfl
    | cons item items =>
      obtain ⟨code, data, subs⟩ := item
      simp [encodeAll, Item.encode] at hfuel
  | succ fuel ih =>
    cases items with
    | nil => rfl
    | cons item items =>
      have hrest : ∀ item ∈ items, Fits nest item := fun i hi ↦ hfits i (.tail _ hi)
      have hitem := hfits item (.head _)
      obtain ⟨code, data, subs⟩ := item
      have hbytes : toBytes 2 code ++ toBytes 2 (data ++ encodeAll subs).length ++
          (data ++ encodeAll subs) ++ encodeAll items =
          encodeAll (⟨code, data, subs⟩ :: items) := by
        rw [length_append, encodeAll, Item.encode]
      have hcut := cut_append hitem.small.1 hitem.small.2 (encodeAll items)
      rw [hbytes] at hcut
      rw [← hbytes] at hfuel
      simp only [length_append, length_toBytes] at hfuel
      generalize encodeAll (⟨code, data, subs⟩ :: items) = text at hcut
      cases text with
      | nil => nomatch hcut
      | cons b text =>
        rw [decode, hcut]
        cases hitem with
        | leaf _ _ hnest =>
          have hle : (encodeAll items).length ≤ fuel := by omega
          simp only [hnest, encodeAll, append_nil, ih hle hrest]
          rfl
        | node _ _ hnest hsubs =>
          simp only [hnest]
          rw [if_neg (by decide), if_neg (by simp), drop_left' rfl, take_left' rfl,
            ih (by omega) hsubs, ih (by omega) hrest]

/-! ### Items in memory -/

/-- The items from the address `a` to the address `b`, with codes that `allowed` admits. -/
def Holds (nest : ℕ → Option ℕ) (allowed : ℕ → Prop) (m : ℕ → UInt8) (a b : ℕ)
    (items : List Item) : Prop :=
  a ≤ b ∧ slice m a (b - a) = encodeAll items ∧
    ∀ item ∈ items, Fits nest item ∧ allowed item.code

/-- The memory from the address `a` on, while the items that begin at the addresses in `path` (the
innermost first) are not finished; it is filled up to `e`, and each of these has its length as if it
ended at `b`. -/
def Open (nest : ℕ → Option ℕ) (allowed : ℕ → Prop) (m : ℕ → UInt8) (a b : ℕ) :
    List ℕ → ℕ → Prop
  | [], e => ∃ items, Holds nest allowed m a e items
  | o :: path, e => Open nest allowed m a b path o ∧ ∃ code d items, code < 65536 ∧ allowed code ∧
      nest code = some d ∧ slice m o 2 = toBytes 2 code ∧
      slice m (o + 2) 2 = toBytes 2 (b - (o + 4)) ∧ Holds nest allowed m (o + 4 + d) e items

variable {allowed : ℕ → Prop} {m m' : ℕ → UInt8} {a b e e' o : ℕ} {path : List ℕ}
  {items : List Item}

lemma Holds.congr (h : Holds nest allowed m a b items)
    (hm : ∀ i, a ≤ i → i < b → m i = m' i) : Holds nest allowed m' a b items := by
  refine ⟨h.1, ?_, h.2.2⟩
  rw [← h.2.1]
  exact (slice_congr fun i hi hib ↦ hm i hi (by omega)).symm

lemma Holds.append {more : List Item} (h : Holds nest allowed m a b items)
    (h' : Holds nest allowed m b e more) : Holds nest allowed m a e (items ++ more) := by
  obtain ⟨hab, hs, hf⟩ := h
  obtain ⟨hbe, hs', hf'⟩ := h'
  refine ⟨le_trans hab hbe, ?_, fun item hi ↦ ?_⟩
  · rw [show e - a = (b - a) + (e - b) by omega, slice_add, Nat.add_sub_cancel' hab, hs, hs',
      encodeAll_append]
  · exact (mem_append.mp hi).elim (hf item) (hf' item)

section

variable (h : Open nest allowed m a b path e)

include h

lemma Open.le : a ≤ e := by
  induction path generalizing e with
  | nil =>
    obtain ⟨items, h⟩ := h
    exact h.1
  | cons o path ih =>
    obtain ⟨hpath, code, d, items, -, -, -, -, -, hitems⟩ := h
    have := ih hpath
    have := hitems.1
    omega

/-- The headers of the unfinished items are in the memory that is filled. -/
lemma Open.header_le (ho : o ∈ path) : o + 4 ≤ e := by
  induction path generalizing e with
  | nil => nomatch ho
  | cons o' path ih =>
    obtain ⟨hpath, code, d, items, -, -, -, -, -, hitems⟩ := h
    have hle := hitems.1
    rcases mem_cons.mp ho with rfl | ho
    · omega
    · have := ih hpath ho
      omega

/-- Only the memory that is filled matters. -/
lemma Open.congr (hm : ∀ i, a ≤ i → i < e → m i = m' i) : Open nest allowed m' a b path e := by
  induction path generalizing e with
  | nil =>
    obtain ⟨items, h⟩ := h
    exact ⟨items, h.congr hm⟩
  | cons o path ih =>
    obtain ⟨hpath, code, d, items, hcode, hallowed, hnest, hhead, hlen, hitems⟩ := h
    have hao := Open.le hpath
    have hle := hitems.1
    refine ⟨ih hpath fun i hi hio ↦ hm i hi (by omega), code, d, items, hcode, hallowed, hnest, ?_,
      ?_,
      hitems.congr fun i hi hie ↦ hm i (by omega) hie⟩
    · rw [← hhead]
      exact (slice_congr fun i hi hio ↦ hm i (by omega) (by omega)).symm
    · rw [← hlen]
      exact (slice_congr fun i hi hio ↦ hm i (by omega) (by omega)).symm

/-- More items follow within the innermost unfinished one. -/
lemma Open.extend (hitems : Holds nest allowed m e e' items) :
    Open nest allowed m a b path e' := by
  cases path with
  | nil =>
    obtain ⟨before, h⟩ := h
    exact ⟨before ++ items, h.append hitems⟩
  | cons o path =>
    obtain ⟨hpath, code, d, before, hcode, hallowed, hnest, hhead, hlen, hbefore⟩ := h
    exact ⟨hpath, code, d, before ++ items, hcode, hallowed, hnest, hhead, hlen,
      hbefore.append hitems⟩

end

/-- **The innermost item is finished** when everything is filled up to the end that its length is
for. -/
theorem Open.close (h : Open nest allowed m a b (o :: path) b) (hb : b < 65536) :
    Open nest allowed m a b path b := by
  obtain ⟨hpath, code, d, items, hcode, hallowed, hnest, hhead, hlen, hitems⟩ := h
  have hle := hitems.1
  have hsize : (encodeAll items).length = b - (o + 4 + d) := by rw [← hitems.2.1, length_slice]
  suffices hitem : Holds nest allowed m o b [⟨code, slice m (o + 4) d, items⟩] from
    hpath.extend hitem
  refine ⟨by omega, ?_, fun item hi ↦ ?_⟩
  · have hlen' : (slice m (o + 4) d).length + (encodeAll items).length = b - (o + 4) := by
      rw [length_slice]
      omega
    rw [encodeAll_singleton, Item.encode, hlen', ← hhead, ← hlen, ← hitems.2.1,
      show b - o = 2 + 2 + (d + (b - (o + 4 + d))) by omega, slice_add, slice_add, slice_add m _ d]
  · obtain rfl := mem_singleton.mp hi
    refine ⟨.node hcode ?_ (by rwa [length_slice]) fun item hi ↦ (hitems.2.2 item hi).1, hallowed⟩
    rw [length_slice, hsize]
    omega

/-! ### Adding an item -/

/-- All lengths on the path grow. -/
def patch (extra : ℕ) : (ℕ → UInt8) → List ℕ → ℕ → UInt8
  | m, [] => m
  | m, o :: path =>
    patch extra (write m (o + 2) (toBytes 2 (ofBytes (slice m (o + 2) 2) + extra))) path

lemma Open.patch {extra : ℕ} (h : Open nest allowed m a b path e) (he : e ≤ b) (hb : b < 65536) :
    Open nest allowed (patch extra m path) a (b + extra) path e ∧
      ∀ i, i < a ∨ e ≤ i → Tlv.patch extra m path i = m i := by
  induction path generalizing m e with
  | nil => exact ⟨h, fun _ _ ↦ rfl⟩
  | cons o path ih =>
    obtain ⟨hpath, code, d, items, hcode, hallowed, hnest, hhead, hlen, hitems⟩ := h
    have hao := Open.le hpath
    have hle := hitems.1
    have hnew : ofBytes (slice m (o + 2) 2) + extra = b + extra - (o + 4) := by
      rw [hlen, ofBytes_toBytes_two (by omega)]
      omega
    rw [Tlv.patch, hnew]
    -- the item's own length is written first; nothing before the item is touched by that
    have hwrite : ∀ i, i < o + 2 ∨ o + 4 ≤ i →
        write m (o + 2) (toBytes 2 (b + extra - (o + 4))) i = m i := fun i hi ↦
      write_outside (by rw [length_toBytes]; exact hi)
    obtain ⟨hopen, hsame⟩ := ih (hpath.congr fun i _ hi ↦ (hwrite i (.inl (by omega))).symm)
      (by omega)
    have hrest : ∀ i, o + 4 ≤ i →
        Tlv.patch extra (write m (o + 2) (toBytes 2 (b + extra - (o + 4)))) path i = m i :=
      fun i hi ↦ (hsame i (.inr (by omega))).trans (hwrite i (.inr hi))
    refine ⟨⟨hopen, code, d, items, hcode, hallowed, hnest, ?_, ?_,
      hitems.congr fun i hi _ ↦ (hrest i (by omega)).symm⟩, fun i hi ↦ ?_⟩
    · rw [← hhead]
      exact slice_congr fun i hi hio ↦ (hsame i (.inr hi)).trans (hwrite i (.inl (by omega)))
    · exact (slice_congr fun i hi _ ↦ hsame i (.inr (by omega))).trans
        (slice_write_of_length (length_toBytes ..))
    · rcases hi with hi | hi
      · exact (hsame i (.inl hi)).trans (hwrite i (.inl (by omega)))
      · exact hrest i (by omega)

/-- An item is added at the end `b`, within the items on the path: its header is written, the
lengths around it grow, and then its value is written. -/
def add (m : ℕ → UInt8) (b : ℕ) (path : List ℕ) (code : ℕ) (data : List UInt8) : ℕ → UInt8 :=
  write (patch (4 + data.length) (write m b (toBytes 2 code ++ toBytes 2 data.length)) path) (b + 4)
    data

variable {code : ℕ} {data : List UInt8} (h : Open nest allowed m a b path b)

include h

lemma Open.add (hb : b < 65536) (code : ℕ) (data : List UInt8) :
    Open nest allowed (add m b path code data) a (b + (4 + data.length)) path b ∧
      slice (Tlv.add m b path code data) b 2 = toBytes 2 code ∧
      slice (Tlv.add m b path code data) (b + 2) 2 = toBytes 2 data.length ∧
      slice (Tlv.add m b path code data) (b + 4) data.length = data ∧
      ∀ i < a, Tlv.add m b path code data i = m i := by
  have hab := h.le
  have hhdr : (toBytes 2 code ++ toBytes 2 data.length).length = 4 := by
    rw [length_append, length_toBytes, length_toBytes]
  have hwrite : ∀ i < b, write m b (toBytes 2 code ++ toBytes 2 data.length) i = m i :=
    fun i hi ↦ write_before hi
  obtain ⟨hopen, hsame⟩ := Open.patch (h.congr fun i _ hi ↦ (hwrite i hi).symm) (le_refl b) hb
  have hadd : ∀ i < b + 4, Tlv.add m b path code data i = Tlv.patch (4 + data.length)
      (write m b (toBytes 2 code ++ toBytes 2 data.length)) path i := fun i hi ↦ write_before hi
  have hhead : slice (Tlv.add m b path code data) b (2 + 2) = toBytes 2 code ++
    toBytes 2 data.length :=
    (slice_congr fun i hi hib ↦ (hadd i (by omega)).trans (hsame i (.inr hi))).trans
      (slice_write_of_length hhdr)
  rw [slice_add] at hhead
  obtain ⟨hcode, hlen⟩ := append_inj hhead (by rw [length_slice, length_toBytes])
  refine ⟨hopen.congr fun i _ hi ↦ (hadd i (by omega)).symm, hcode, hlen, slice_write_self .., ?_⟩
  exact fun i hi ↦ (hadd i (by omega)).trans ((hsame i (.inl hi)).trans (hwrite i (by omega)))

/-- **An item without items in it is added.** -/
theorem Open.add_leaf (hb : b + (4 + data.length) < 65536)
    (hcode : code < 65536) (hallowed : allowed code) (hnest : nest code = none) :
    Open nest allowed (Tlv.add m b path code data) a (b + (4 + data.length)) path
      (b + (4 + data.length)) := by
  obtain ⟨hopen, hhead, hlen, hdata, -⟩ := h.add (by omega) code data
  suffices hitem : Holds nest allowed (Tlv.add m b path code data) b (b + (4 + data.length))
      [⟨code, data, []⟩] from hopen.extend hitem
  refine ⟨by omega, ?_, fun item hi ↦ ?_⟩
  · rw [encodeAll_singleton, Item.encode, encodeAll, append_nil, length_nil, add_zero,
      Nat.add_sub_cancel_left, slice_add _ b 4, slice_add _ b 2 2, hhead, hlen, hdata]
  · obtain rfl := mem_singleton.mp hi
    exact ⟨.leaf hcode (by omega) hnest, hallowed⟩

/-- **An item that is to have items in it is added**, and is not finished. -/
theorem Open.add_node (hb : b + (4 + data.length) < 65536)
    (hcode : code < 65536) (hallowed : allowed code) (hnest : nest code = some data.length) :
    Open nest allowed (Tlv.add m b path code data) a (b + (4 + data.length)) (b :: path)
      (b + (4 + data.length)) := by
  obtain ⟨hopen, hhead, hlen, -, -⟩ := h.add (by omega) code data
  refine ⟨hopen, code, data.length, [], hcode, hallowed, hnest, hhead, ?_, by omega, ?_, nofun⟩
  · rw [hlen, ← Nat.add_assoc, Nat.add_sub_cancel_left]
  · rw [Nat.add_assoc, Nat.sub_self]
    rfl

end Tlv
