import Mathlib.Tactic.Ring
import MeteredLedger.Bytes

/-!
# Digits of numbers

A string of digits stays below the power of its width, and reading back the digits of a number gives
the number modulo that power.  The digits at a smaller width are the least significant ones.
-/

namespace MeteredLedger.Bytes

theorem ofLeBytes_lt (bs : Bytes) : ofLeBytes bs < 256 ^ bs.length := by
  induction bs with
  | nil => simp [ofLeBytes]
  | cons b bs ih =>
    have hb : b.toNat < 256 := b.toNat_lt
    simp only [ofLeBytes, List.length_cons, Nat.pow_succ]
    omega

theorem ofBeBytes_lt (bs : Bytes) : ofBeBytes bs < 256 ^ bs.length := by
  simpa [ofBeBytes] using ofLeBytes_lt bs.reverse

theorem ofLeBytes_leBytes (width n : Nat) : ofLeBytes (leBytes width n) = n % 256 ^ width := by
  induction width generalizing n with
  | zero => simp [leBytes, ofLeBytes, Nat.mod_one]
  | succ width ih =>
    have hb : (UInt8.ofNat n).toNat = n % 256 := UInt8.toNat_ofNat'
    rw [leBytes, ofLeBytes, ih, hb, Nat.pow_succ, Nat.mul_comm (256 ^ width) 256, Nat.mod_mul]

theorem ofBeBytes_beBytes (width n : Nat) : ofBeBytes (beBytes width n) = n % 256 ^ width := by
  simp [ofBeBytes, beBytes, ofLeBytes_leBytes]

theorem leBytes_inj {width m n : Nat} (hm : m < 256 ^ width) (hn : n < 256 ^ width)
    (h : leBytes width m = leBytes width n) : m = n := by
  have hread := congrArg ofLeBytes h
  rwa [ofLeBytes_leBytes, ofLeBytes_leBytes, Nat.mod_eq_of_lt hm, Nat.mod_eq_of_lt hn] at hread

theorem ofLeBytes_concat (bs : Bytes) (b : UInt8) :
    ofLeBytes (bs ++ [b]) = ofLeBytes bs + 256 ^ bs.length * b.toNat := by
  induction bs with
  | nil => simp [ofLeBytes]
  | cons c bs ih =>
    simp only [List.cons_append, ofLeBytes, ih, List.length_cons, Nat.pow_succ]
    ring

theorem ofBeBytes_cons (b : UInt8) (bs : Bytes) :
    ofBeBytes (b :: bs) = ofBeBytes bs + 256 ^ bs.length * b.toNat := by
  simp [ofBeBytes, ofLeBytes_concat]

theorem beBytes_mod (width n : Nat) : beBytes width (n % 256 ^ width) = beBytes width n := by
  have h := beBytes_ofBeBytes (beBytes width n)
  rwa [length_beBytes, ofBeBytes_beBytes] at h

theorem take_leBytes (width extra n : Nat) :
    (leBytes (width + extra) n).take width = leBytes width n := by
  induction width generalizing n with
  | zero => rfl
  | succ width ih => rw [Nat.succ_add, leBytes, leBytes, List.take_succ_cons, ih]

theorem drop_beBytes (width extra n : Nat) :
    (beBytes (width + extra) n).drop extra = beBytes width n := by
  rw [beBytes, beBytes, List.drop_reverse, length_leBytes, Nat.add_sub_cancel, take_leBytes]

end MeteredLedger.Bytes
