import AccelPpp.Pool.Ipv4

/-!
# The addresses of an IPoE range (`ctrl/ipoe/dhcpv4.c`)

A range has one bit for each of its addresses, which is set while the address is free. `parse_range`
leaves out the network's address, the router's and the broadcast address. `dhcpv4_get_ip` takes the
first free address from the word on in which it found the last one, and then looks once more from
the first word on. Addresses are numbers in host order.

As long as only addresses that are held are put back, a request gets an address that can be given
out and is not held, or all of them are held (`get_usable`).
-/

open List Nat Transition BitPool

namespace AccelPpp.Ipoe.Range

open Pool.Ipv4 (quad quad_lt)

/-- `struct dhcpv4_iprange`; `len` is the length of `free`. -/
structure IpRange where
  routerip : ℕ
  startip : ℕ
  mask : ℕ
  pos : ℕ
  free : List (BitVec 64)

/-- The bits that `parse_range` leaves set; `last` is the last address that can be given out. -/
def fresh (last : ℕ) : List (BitVec 64) :=
  let free := replicate (last / 64 + 1) (BitVec.allOnes 64)
  let free := free.set (last / 64)
    (free.getD (last / 64) 0 &&& ((1#64 <<< (last % 64 + 1)) - 1#64))
  free.set 0 (free.getD 0 0 &&& ~~~3#64)

/-- `parse_range`, when `sscanf` has found five numbers. -/
def parseRange (f1 f2 f3 f4 m : ℕ) : Option IpRange :=
  if f1 > 255 ∨ f2 > 255 ∨ f3 > 255 ∨ f4 > 255 then none
  else if m = 0 ∨ m > 30 then none
  else
    let host := 2 ^ (32 - m) - 1
    let start := quad f1 f2 f3 f4 &&& (2 ^ 32 - 1 - host)
    some ⟨start + 1, start, m, 0, fresh ((start ||| host) - start - 1)⟩

/-- The `for` loop: the first word from `pos` on with a free bit, and the lowest such bit. -/
def IpRange.scan (r : IpRange) : Option (ℕ × ℕ) :=
  (range' r.pos (r.free.length - r.pos)).findSome? fun i ↦
    (lowestSet (r.free.getD i 0)).map fun k ↦ (i, k)

/-- `dhcpv4_get_ip`, with `yiaddr`, `siaddr` and `mask`. -/
def getIp (r : IpRange) : IpRange × Option (ℕ × ℕ × ℕ) :=
  match r.scan with
  | some (i, k) =>
    ({ r with free := clear r.free (i * 64 + k), pos := i },
      some ((r.startip + (i * 64 + k)) % 2 ^ 32, r.routerip, r.mask))
  | none => if r.pos = 0 then (r, none) else getIp { r with pos := 0 }
termination_by r.pos
decreasing_by exact Nat.pos_of_ne_zero ‹_›

/-- `dhcpv4_put_ip`; the `int` is negative from `2 ^ 31` on. -/
def putIp (r : IpRange) (ip : ℕ) : IpRange :=
  let n := (ip + 2 ^ 32 - r.startip) % 2 ^ 32
  if n = 0 ∨ 2 ^ 31 ≤ n ∨ r.free.length ≤ n / 64 then r else { r with free := set r.free n }

/-- The range, and the addresses that are held. -/
structure State where
  range : IpRange
  held : List ℕ

inductive Event
  | get
  | put (ip : ℕ)

/-- One call. -/
def step (s : State) : Event → State
  | .get => ⟨(getIp s.range).1, ((getIp s.range).2.map Prod.fst).toList ++ s.held⟩
  | .put ip => ⟨putIp s.range ip, s.held.erase ip⟩

/-- Only what is held is put back. -/
def PutsHeld (s : State) : Event → Prop
  | .get => True
  | .put ip => ip ∈ s.held

/-- One of the `size` addresses from the network's on, and neither that one nor the router's, which
comes next, nor the broadcast address, which is the last. -/
def Usable (network size a : ℕ) : Prop :=
  ∃ x, (2 ≤ x ∧ x + 1 < size) ∧ network + x = a

/-- What a request gets can be given out and is not held, or it gets nothing and all are held. -/
def Right (network size : ℕ) (s : State) : Prop :=
  match (getIp s.range).2 with
  | some (yiaddr, _) => Usable network size yiaddr ∧ yiaddr ∉ s.held
  | none => ∀ a, Usable network size a → a ∈ s.held

/-- A bit is set exactly when its address can be given out and is not held. -/
structure Inv (network size : ℕ) (s : State) : Prop where
  startip : s.range.startip = network
  small : size ≤ 2 ^ 31
  fits : network + size ≤ 2 ^ 32
  room : size ≤ s.range.free.length * 64 + 1
  free : ∀ x, test s.range.free x = true ↔ (2 ≤ x ∧ x + 1 < size) ∧ network + x ∉ s.held
  held : ∀ a ∈ s.held, Usable network size a
  nodup : s.held.Nodup

/-! ### A new range -/

lemma and_mask {x k : ℕ} (hx : x < 2 ^ 32) (hk : k ≤ 32) :
    x &&& (2 ^ 32 - 1 - (2 ^ k - 1)) = 2 ^ k * (x / 2 ^ k) := by
  have hlt := (sub_one_lt (Nat.two_pow_pos k).ne').trans_le
    (Nat.pow_le_pow_right (by decide) hk)
  refine eq_of_testBit_eq fun i ↦ ?_
  have hhigh : 32 ≤ i → x.testBit i = false := fun hi ↦
    testBit_lt_two_pow (hx.trans_le (Nat.pow_le_pow_right (by decide) hi))
  rw [Nat.sub_sub, Nat.add_comm 1, testBit_and, testBit_two_pow_sub_succ hlt]
  grind [testBit_two_pow_sub_one, testBit_div_two_pow]

/-- Bits are cleared in a word. -/
lemma test_and {bm : List (BitVec 64)} {i x : ℕ} (hi : i < bm.length) (v : BitVec 64) :
    test (bm.set i (bm.getD i 0 &&& v)) x = (test bm x && (x / 64 ≠ i || v.getLsbD (x % 64))) := by
  have hdiv : i * 64 / 64 = i := Nat.mul_div_cancel i (by decide)
  have hwrite := test_write (i := i * 64) (j := x) (hdiv.symm ▸ hi) (bm.getD i 0 &&& v)
  rw [hdiv] at hwrite
  rw [hwrite]
  split
  · next h => simp [test, h]
  · next h => simp [h]

lemma test_fresh {last x : ℕ} (hlast : last % 64 + 1 < 64) :
    test (fresh last) x = true ↔ 2 ≤ x ∧ x ≤ last := by
  have hmod := mod_lt x (show 0 < 64 by decide)
  have hthree : ∀ b < 64, (~~~3#64).getLsbD b = decide (2 ≤ b) := by decide
  have hones : test (replicate (last / 64 + 1) (BitVec.allOnes 64)) x =
      decide (x / 64 < last / 64 + 1) := by
    rw [test, getD_eq_getElem?_getD, getElem?_replicate]
    split
    · next h => rw [Option.getD_some, BitVec.getLsbD_allOnes, decide_eq_true hmod, decide_eq_true h]
    · next h => simp [h]
  rw [fresh, test_and (by simp), test_and (by simp), hones, hthree _ hmod, getLsbD_below hlast hmod]
  simp only [Bool.and_eq_true, Bool.or_eq_true, decide_eq_true_eq]
  omega

/-- A range that is accepted. -/
lemma inv_parseRange {f1 f2 f3 f4 m : ℕ} {r : IpRange} (h : parseRange f1 f2 f3 f4 m = some r) :
    Inv (2 ^ (32 - m) * (quad f1 f2 f3 f4 / 2 ^ (32 - m))) (2 ^ (32 - m)) ⟨r, []⟩ := by
  rw [parseRange] at h
  split at h
  · nomatch h
  next hquad =>
  split at h
  · nomatch h
  next hm =>
  have hquad := quad_lt hquad
  have hsmall : 2 ^ (32 - m) ≤ 2 ^ 31 := Nat.pow_le_pow_right (by decide) (by omega)
  have hsize : 2 ^ (32 - m) = 4 * 2 ^ (30 - m) := by
    rw [show 32 - m = 30 - m + 2 by omega, Nat.pow_add, Nat.mul_comm]
  have hpos := Nat.two_pow_pos (30 - m)
  have hend := or_lt_two_pow (n := 32) ((mul_div_le _ (2 ^ (32 - m))).trans_lt hquad)
    (show 2 ^ (32 - m) - 1 < 2 ^ 32 by omega)
  dsimp only at h
  rw [and_mask hquad (Nat.sub_le 32 m)] at h
  rw [← two_pow_add_eq_or_of_lt (by omega)] at h hend
  rw [Nat.add_sub_cancel_left] at h
  obtain rfl := Option.some.inj h
  refine ⟨rfl, hsmall, by omega, ?_, fun x ↦ ?_, nofun, nodup_nil⟩
  · simp [fresh]
    omega
  · rw [test_fresh (by omega)]
    simp
    omega

/-! ### Calls -/

section Calls

variable {r : IpRange} {i k x network size : ℕ} {s : State}

lemma test_of_scan (h : r.scan = some (i, k)) :
    i * 64 + k < r.free.length * 64 ∧ test r.free (i * 64 + k) = true := by
  obtain ⟨i, hi, h⟩ := exists_of_findSome?_eq_some h
  obtain ⟨k, hlow, h⟩ := Option.map_eq_some_iff.mp h
  obtain ⟨rfl, rfl⟩ := Prod.mk.inj h
  have hk := lt_of_lowestSet hlow
  obtain ⟨hle, hi⟩ := mem_range'_1.mp hi
  rw [test, show (i * 64 + k) / 64 = i by omega, show (i * 64 + k) % 64 = k by omega]
  exact ⟨by omega, getLsbD_of_lowestSet hlow⟩

lemma test_of_scan_none (h : r.scan = none) (hpos : r.pos = 0) : test r.free x = false := by
  rw [test]
  rcases lt_or_ge (x / 64) r.free.length with hlt | hge
  · have hnone := findSome?_eq_none_iff.mp h (x / 64) (mem_range'_1.mpr ⟨by omega, by omega⟩)
    exact getLsbD_of_lowestSet_none (Option.map_eq_none_iff.mp hnone)
  · rw [getD_eq_getElem?_getD, getElem?_eq_none hge]
    exact BitVec.getLsbD_zero

/-- **What a request gets**, by the turns of the `while` loop. -/
theorem getIp_cases (r : IpRange) :
    (∃ x pos, x < r.free.length * 64 ∧ test r.free x = true ∧
      getIp r = ({ r with free := clear r.free x, pos },
        some ((r.startip + x) % 2 ^ 32, r.routerip, r.mask))) ∨
    ∃ pos, getIp r = ({ r with pos }, none) ∧ ∀ x, test r.free x = false := by
  fun_induction getIp r with
  | case1 r i k hscan => exact .inl ⟨_, i, (test_of_scan hscan).1, (test_of_scan hscan).2, rfl⟩
  | case2 r hscan hpos => exact .inr ⟨r.pos, rfl, fun x ↦ test_of_scan_none hscan hpos⟩
  | case3 r hscan hpos ih => exact ih

/-- **A request** keeps the invariant, and what it gets is right. -/
theorem Inv.get (h : Inv network size s) :
    Inv network size (step s .get) ∧ Right network size s := by
  rw [step, Right]
  rcases getIp_cases s.range with ⟨x, pos, hx, htest, hget⟩ | ⟨pos, hget, hnone⟩
  · obtain ⟨husable, hfree⟩ := (h.free x).mp htest
    have haddr : (s.range.startip + x) % 2 ^ 32 = network + x := by
      rw [h.startip]
      have := h.fits
      exact mod_eq_of_lt (by omega)
    rw [hget, haddr]
    refine ⟨{ h with room := ?_, free := fun y ↦ ?_, held := ?_, nodup := ?_ },
      ⟨x, husable, rfl⟩, hfree⟩
    · rw [length_clear]
      exact h.room
    · rw [test_clear (by decide) hx, Bool.and_eq_true, h.free]
      simp
      tauto
    · exact forall_mem_cons.mpr ⟨⟨x, husable, rfl⟩, h.held⟩
    · exact nodup_cons.mpr ⟨hfree, h.nodup⟩
  · rw [hget]
    refine ⟨{ h with }, fun a ⟨x, hx, ha⟩ ↦ by_contra fun hheld ↦ ?_⟩
    nomatch (hnone x).symm.trans ((h.free x).mpr ⟨hx, ha ▸ hheld⟩)

/-- **An address that is held is put back.** -/
theorem Inv.put (h : Inv network size s) {ip : ℕ} (hip : ip ∈ s.held) :
    Inv network size (step s (.put ip)) := by
  obtain ⟨x, hx, rfl⟩ := h.held ip hip
  have hsmall := h.small
  have hroom := h.room
  have hn : (network + x + 2 ^ 32 - s.range.startip) % 2 ^ 32 = x := by
    rw [h.startip]
    omega
  rw [step, putIp, hn, if_neg (by omega)]
  refine { h with
    room := ?_, free := fun y ↦ ?_, held := fun a ha ↦ h.held a (mem_of_mem_erase ha)
    nodup := h.nodup.erase _ }
  · rw [BitPool.length_set]
    exact hroom
  · rw [test_set (by decide) (by omega), Bool.or_eq_true, h.free, h.nodup.mem_erase_iff]
    by_cases hyx : y = x
    · simp [hyx, hx]
    · simp [hyx]

end Calls

/-- **Only free addresses are given out**, and all of them, in every run that puts back only what is
held. -/
theorem get_usable (f1 f2 f3 f4 m : ℕ) (r : IpRange) (hr : parseRange f1 f2 f3 f4 m = some r)
    (es : List Event) (hes : Along step PutsHeld ⟨r, []⟩ es) :
    Right (2 ^ (32 - m) * (quad f1 f2 f3 f4 / 2 ^ (32 - m))) (2 ^ (32 - m))
      (run step ⟨r, []⟩ es) := by
  have hinv := hes.inv (P := Inv _ _) (fun s e h he ↦ by
    cases e with
    | get => exact h.get.1
    | put ip => exact h.put he) (inv_parseRange hr)
  exact hinv.get.2

/-- In 10.0.0.0/30 the one address is given out and put back. -/
theorem get_usable_again : ∃ r, parseRange 10 0 0 0 30 = some r ∧
    Right 0x0a000000 4 (run step ⟨r, []⟩ [.get, .put 0x0a000002]) := by
  refine ⟨_, rfl, get_usable 10 0 0 0 30 _ rfl _ ⟨trivial, ?_, trivial⟩⟩
  show _ ∈ (step _ .get).held
  rw [step, getIp]
  decide

end AccelPpp.Ipoe.Range
