import Mathlib

/-!
# Numbers as bytes, the most significant first
-/

namespace BigEndian

open Nat UInt8

/-- The `n` low bytes of a number. -/
def toBytes : ℕ → ℕ → List UInt8
  | 0, _ => []
  | n + 1, v => .ofNat (v / 256 ^ n) :: toBytes n v

/-- The number that some bytes stand for. -/
def ofBytes : List UInt8 → ℕ
  | [] => 0
  | b :: l => b.toNat * 256 ^ l.length + ofBytes l

@[simp] lemma length_toBytes (n v : ℕ) : (toBytes n v).length = n := by
  induction n with
  | zero => rfl
  | succ n ih => rw [toBytes, List.length_cons, ih]

lemma ofBytes_lt (l : List UInt8) : ofBytes l < 256 ^ l.length := by
  induction l with
  | nil => exact one_pos
  | cons b l ih =>
    have hb := b.toNat_lt
    rw [List.length_cons]
    calc b.toNat * 256 ^ l.length + ofBytes l
        < b.toNat * 256 ^ l.length + 256 ^ l.length := Nat.add_lt_add_left ih _
      _ = (b.toNat + 1) * 256 ^ l.length := (succ_mul _ _).symm
      _ ≤ 256 * 256 ^ l.length := mul_le_mul_right _ hb
      _ = 256 ^ l.length * 256 := mul_comm _ _

/-- Only the low bytes count. -/
lemma toBytes_mod (n v : ℕ) : toBytes n (v % 256 ^ n) = toBytes n v := by
  induction n generalizing v with
  | zero => rfl
  | succ n ih =>
    have hlow : v % 256 ^ (n + 1) % 256 ^ n = v % 256 ^ n :=
      mod_mod_of_dvd _ (pow_dvd_pow 256 n.le_succ)
    have hhigh : v % 256 ^ (n + 1) / 256 ^ n = v / 256 ^ n % 256 := by
      rw [pow_succ, mod_mul_right_div_self]
    have hbyte : ofNat (v / 256 ^ n % 256) = ofNat (v / 256 ^ n) :=
      ofNat_mod_size
    rw [toBytes, toBytes, hhigh, hbyte, ← ih (v % 256 ^ (n + 1)), hlow, ih]

lemma ofBytes_toBytes (n v : ℕ) : ofBytes (toBytes n v) = v % 256 ^ n := by
  induction n with
  | zero => rw [toBytes, ofBytes, pow_zero, mod_one]
  | succ n ih =>
    have hbyte : (ofNat (v / 256 ^ n)).toNat = v / 256 ^ n % 256 := toNat_ofNat'
    rw [toBytes, ofBytes, ih, length_toBytes, hbyte, pow_succ, mod_mul,
      mul_comm (256 ^ n), add_comm]

lemma toBytes_ofBytes (l : List UInt8) : toBytes l.length (ofBytes l) = l := by
  induction l with
  | nil => rfl
  | cons b l ih =>
    have hlt := ofBytes_lt l
    have hpos : 0 < 256 ^ l.length := Nat.pow_pos (by decide)
    have hhigh : (b.toNat * 256 ^ l.length + ofBytes l) / 256 ^ l.length = b.toNat := by
      rw [Nat.add_comm, Nat.add_mul_div_right _ _ hpos, Nat.div_eq_of_lt hlt, Nat.zero_add]
    have hlow : (b.toNat * 256 ^ l.length + ofBytes l) % 256 ^ l.length = ofBytes l := by
      rw [add_comm, add_mul_mod_self_right, mod_eq_of_lt hlt]
    rw [ofBytes, List.length_cons, toBytes, hhigh, UInt8.ofNat_toNat, ← toBytes_mod, hlow, ih]

end BigEndian
