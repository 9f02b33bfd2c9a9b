import MeteredLedger.Bytes

/-!
# Words of the ledger

Addresses, storage words and digests are bit vectors read as big-endian numbers, so their numeric
order is the lexicographic order of their bytes. Amounts of wei have 128 bits; gas and nonces are
64-bit machine words. Addition and subtraction of amounts stop at the ends of the range.
-/

namespace MeteredLedger

abbrev Address := BitVec 160

/-- A 256-bit word: a storage key or value. -/
abbrev Word := BitVec 256

abbrev Hash := Word

abbrev Wei := BitVec 128

abbrev Gas := UInt64

/-- An account's transaction counter. -/
abbrev Nonce := UInt64

instance Bytes.instTransOrd : Std.TransOrd Bytes := inferInstanceAs (Std.TransOrd (List UInt8))

instance Address.instTransOrd : Std.TransOrd Address := inferInstanceAs (Std.TransOrd (BitVec 160))

instance Word.instTransOrd : Std.TransOrd Word := inferInstanceAs (Std.TransOrd (BitVec 256))

namespace Address

/-- The twenty bytes of an address, most significant first. -/
def toBytes (a : Address) : Bytes := Bytes.beBytes 20 a.toNat

/-- The address spelled by the given bytes; of a longer string the last twenty bytes count. -/
def ofBytes (bs : Bytes) : Address := BitVec.ofNat 160 (Bytes.ofBeBytes bs)

/-- The address as a word, aligned to the right. -/
def toWord (a : Address) : Word := BitVec.ofNat 256 a.toNat

@[simp] theorem length_toBytes (a : Address) : (toBytes a).length = 20 := by simp [toBytes]

end Address

namespace Word

/-- The thirty-two bytes of a word, most significant first. -/
def toBytes (w : Word) : Bytes := Bytes.beBytes 32 w.toNat

/-- The word spelled by the given bytes; of a longer string the last thirty-two bytes count. -/
def ofBytes (bs : Bytes) : Word := BitVec.ofNat 256 (Bytes.ofBeBytes bs)

/-- The low 160 bits of a word. -/
def toAddress (w : Word) : Address := BitVec.ofNat 160 w.toNat

@[simp] theorem length_toBytes (w : Word) : (toBytes w).length = 32 := by simp [toBytes]

end Word

namespace Wei

def maxNat : Nat := 0xffffffffffffffffffffffffffffffff

/-- The amount equal to a number, if it is in range. -/
def ofNat? (n : Nat) : Option Wei := if n ≤ maxNat then some (BitVec.ofNat 128 n) else none

/-- The amount nearest to a number: the largest one when the number is out of range. -/
def clamp (n : Nat) : Wei := BitVec.ofNat 128 (min n maxNat)

/-- The sum, or the largest amount when the sum is out of range. -/
def addClamped (a b : Wei) : Wei := clamp (a.toNat + b.toNat)

/-- The difference, or zero when more is taken than there is. -/
def subClamped (a b : Wei) : Wei := clamp (a.toNat - b.toNat)

/-- The amount as a word. -/
def toWord (a : Wei) : Word := BitVec.ofNat 256 a.toNat

theorem toNat_le_maxNat (a : Wei) : a.toNat ≤ maxNat := by
  have := a.isLt
  simp only [maxNat]
  omega

@[simp] theorem toNat_clamp (n : Nat) : (clamp n).toNat = min n maxNat := by
  have h : min n maxNat < 2 ^ 128 := by simp only [maxNat]; omega
  rw [clamp, BitVec.toNat_ofNat, Nat.mod_eq_of_lt h]

@[simp] theorem toNat_addClamped (a b : Wei) :
    (addClamped a b).toNat = min (a.toNat + b.toNat) maxNat := by
  simp [addClamped]

@[simp] theorem toNat_subClamped (a b : Wei) : (subClamped a b).toNat = a.toNat - b.toNat := by
  have := toNat_le_maxNat a
  simp only [subClamped, toNat_clamp]
  omega

theorem ofNat?_eq_some_iff {n : Nat} {a : Wei} : ofNat? n = some a ↔ a.toNat = n := by
  unfold ofNat?
  split
  · rename_i h
    have hn : n < 2 ^ 128 := by simp only [maxNat] at h; omega
    rw [Option.some.injEq]
    constructor
    · rintro rfl
      rw [BitVec.toNat_ofNat, Nat.mod_eq_of_lt hn]
    · rintro rfl
      exact BitVec.ofNat_toNat 128 a ▸ BitVec.setWidth_eq a
  · rename_i h
    constructor
    · intro hf
      cases hf
    · rintro rfl
      exact absurd (toNat_le_maxNat a) h

end Wei

namespace Gas

def maxNat : Nat := 0xffffffffffffffff

/-- The amount of gas equal to a number, if it is in range. -/
def ofNat? (n : Nat) : Option Gas := if n ≤ maxNat then some (UInt64.ofNat n) else none

/-- The amount of gas nearest to a number: the largest one when the number is out of range. -/
def clamp (n : Nat) : Gas := UInt64.ofNat (min n maxNat)

/-- The price of an amount of gas, or the largest amount of wei when it is out of range. -/
def costClamped (gas : Gas) (price : Wei) : Wei := Wei.clamp (gas.toNat * price.toNat)

@[simp] theorem toNat_clamp (n : Nat) : (clamp n).toNat = min n maxNat := by
  have h : min n maxNat < 2 ^ 64 := by simp only [maxNat]; omega
  simp only [clamp, UInt64.toNat_ofNat']
  exact Nat.mod_eq_of_lt h

end Gas

namespace Nonce

def largest : Nonce := 0xffffffffffffffff

/-- The next nonce, if there is one. -/
def next? (n : Nonce) : Option Nonce := if n = largest then none else some (n + 1)

end Nonce

end MeteredLedger
