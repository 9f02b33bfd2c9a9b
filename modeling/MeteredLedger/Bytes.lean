/-!
# Byte strings

A byte string is a list of bytes. Numbers enter and leave byte strings through fixed-width base-256
digits, least significant first (`leBytes`) or most significant first (`beBytes`), and both
directions are inverse to each other on strings of the right width.
-/

namespace MeteredLedger

abbrev Bytes := List UInt8

namespace Bytes

/-- The `width` low base-256 digits of a number, least significant first. -/
def leBytes : (width : Nat) → Nat → Bytes
  | 0, _ => []
  | width + 1, n => UInt8.ofNat n :: leBytes width (n / 256)

/-- The number whose base-256 digits, least significant first, are the given bytes. -/
def ofLeBytes : Bytes → Nat
  | [] => 0
  | b :: bs => b.toNat + 256 * ofLeBytes bs

/-- The `width` low base-256 digits of a number, most significant first. -/
def beBytes (width n : Nat) : Bytes := (leBytes width n).reverse

/-- The number whose base-256 digits, most significant first, are the given bytes. -/
def ofBeBytes (bs : Bytes) : Nat := ofLeBytes bs.reverse

@[simp] theorem length_leBytes (width n : Nat) : (leBytes width n).length = width := by
  induction width generalizing n with
  | zero => rfl
  | succ width ih => simp [leBytes, ih]

@[simp] theorem length_beBytes (width n : Nat) : (beBytes width n).length = width := by
  simp [beBytes]

theorem leBytes_ofLeBytes (bs : Bytes) : leBytes bs.length (ofLeBytes bs) = bs := by
  induction bs with
  | nil => rfl
  | cons b bs ih =>
    have hb : b.toNat < 256 := b.toNat_lt
    have hq : (b.toNat + 256 * ofLeBytes bs) / 256 = ofLeBytes bs := by omega
    have hd : UInt8.ofNat (b.toNat + 256 * ofLeBytes bs) = b := by
      apply UInt8.toNat_inj.mp
      simp only [UInt8.toNat_ofNat']
      omega
    simp only [List.length_cons, leBytes, ofLeBytes, hq, hd, ih]

theorem beBytes_ofBeBytes (bs : Bytes) : beBytes bs.length (ofBeBytes bs) = bs := by
  have h := leBytes_ofLeBytes bs.reverse
  rw [List.length_reverse] at h
  simp [beBytes, ofBeBytes, h]

/-- The digits of a number without leading zeros, most significant first; zero has none. At most
`width` digits are kept. -/
def minimalBeBytes (width n : Nat) : Bytes := (beBytes width n).dropWhile (· == 0)

def hexDigit (n : Nat) : Char :=
  if n < 10 then Char.ofNat (48 + n) else Char.ofNat (87 + n)

def hexPair (b : UInt8) : List Char := [hexDigit (b.toNat / 16), hexDigit (b.toNat % 16)]

def toHex (bs : Bytes) : String :=
  String.ofList ('0' :: 'x' :: bs.flatMap hexPair)

/-- The value of a hexadecimal digit of either case. -/
def hexValue? (c : Char) : Option Nat :=
  if '0' ≤ c ∧ c ≤ '9' then some (c.toNat - 48)
  else if 'a' ≤ c ∧ c ≤ 'f' then some (c.toNat - 87)
  else if 'A' ≤ c ∧ c ≤ 'F' then some (c.toNat - 55)
  else none

def ofHexDigits? : List Char → Option Bytes
  | [] => some []
  | a :: b :: rest => do
    let byte := UInt8.ofNat (16 * (← hexValue? a) + (← hexValue? b))
    return byte :: (← ofHexDigits? rest)
  | [_] => none

/-- The bytes as a bracketed list of two-digit hexadecimal numbers. -/
def hexList (bs : Bytes) : String :=
  "[" ++ ", ".intercalate (bs.map fun b => String.ofList (hexPair b)) ++ "]"

/-- The bytes as a bracketed list of decimal numbers. -/
def decimalList (bs : Bytes) : String :=
  "[" ++ ", ".intercalate (bs.map fun b => toString b.toNat) ++ "]"

end Bytes

end MeteredLedger
