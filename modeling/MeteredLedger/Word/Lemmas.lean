import MeteredLedger.Bytes.Lemmas
import MeteredLedger.Word

/-!
# Words and their bytes

An address or word is recovered from its bytes, and a string of the right length is recovered from
the address or word that it spells.  The address in a word is its last twenty bytes.
-/

namespace MeteredLedger

namespace Address

@[simp] theorem ofBytes_toBytes (a : Address) : ofBytes (toBytes a) = a := by
  have h : (256 : Nat) ^ 20 = 2 ^ 160 := by decide
  apply BitVec.eq_of_toNat_eq
  simp [ofBytes, toBytes, Bytes.ofBeBytes_beBytes, h, Nat.mod_eq_of_lt a.isLt]

theorem toBytes_ofBytes {bs : Bytes} (h : bs.length = 20) : toBytes (ofBytes bs) = bs := by
  have hlt : Bytes.ofBeBytes bs < 2 ^ 160 := by
    have := Bytes.ofBeBytes_lt bs
    rwa [h, show (256 : Nat) ^ 20 = 2 ^ 160 by decide] at this
  rw [toBytes, ofBytes, BitVec.toNat_ofNat, Nat.mod_eq_of_lt hlt, ← h, Bytes.beBytes_ofBeBytes]

theorem toBytes_inj {a b : Address} (h : a.toBytes = b.toBytes) : a = b := by
  rw [← ofBytes_toBytes a, h, ofBytes_toBytes]

end Address

namespace Word

@[simp] theorem ofBytes_toBytes (w : Word) : ofBytes (toBytes w) = w := by
  have h : (256 : Nat) ^ 32 = 2 ^ 256 := by decide
  apply BitVec.eq_of_toNat_eq
  simp [ofBytes, toBytes, Bytes.ofBeBytes_beBytes, h, Nat.mod_eq_of_lt w.isLt]

theorem toBytes_ofBytes {bs : Bytes} (h : bs.length = 32) : toBytes (ofBytes bs) = bs := by
  have hlt : Bytes.ofBeBytes bs < 2 ^ 256 := by
    have := Bytes.ofBeBytes_lt bs
    rwa [h, show (256 : Nat) ^ 32 = 2 ^ 256 by decide] at this
  rw [toBytes, ofBytes, BitVec.toNat_ofNat, Nat.mod_eq_of_lt hlt, ← h, Bytes.beBytes_ofBeBytes]

theorem toBytes_inj {v w : Word} (h : v.toBytes = w.toBytes) : v = w := by
  rw [← ofBytes_toBytes v, h, ofBytes_toBytes]

theorem toBytes_toAddress (w : Word) : w.toAddress.toBytes = w.toBytes.drop 12 := by
  have hwidth : (256 : Nat) ^ 20 = 2 ^ 160 := by decide
  rw [Address.toBytes, toAddress, toBytes, BitVec.toNat_ofNat, ← hwidth, Bytes.beBytes_mod,
    Bytes.drop_beBytes]

end Word

end MeteredLedger
