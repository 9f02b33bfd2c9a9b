import MeteredLedger.Bytes

/-!
# Byte strings as machine words

The digests work on 32-bit and 64-bit words. A byte string is cut into words of four or eight bytes
in either byte order; an incomplete word at the end is dropped, since every digest pads its input to
whole blocks first.
-/

namespace MeteredLedger.Digest

def rotl32 (x n : UInt32) : UInt32 := (x <<< n) ||| (x >>> (32 - n))

def rotr32 (x n : UInt32) : UInt32 := (x >>> n) ||| (x <<< (32 - n))

def rotl64 (x n : UInt64) : UInt64 := (x <<< n) ||| (x >>> (64 - n))

def rotr64 (x n : UInt64) : UInt64 := (x >>> n) ||| (x <<< (64 - n))

/-- The 32-bit words of a byte string, most significant byte first. -/
def wordsBE32 : Bytes → List UInt32
  | a :: b :: c :: d :: rest =>
    (a.toUInt32 <<< 24 ||| b.toUInt32 <<< 16 ||| c.toUInt32 <<< 8 ||| d.toUInt32) :: wordsBE32 rest
  | _ => []

/-- The 32-bit words of a byte string, least significant byte first. -/
def wordsLE32 : Bytes → List UInt32
  | a :: b :: c :: d :: rest =>
    (d.toUInt32 <<< 24 ||| c.toUInt32 <<< 16 ||| b.toUInt32 <<< 8 ||| a.toUInt32) :: wordsLE32 rest
  | _ => []

def joinHalves (high low : UInt32) : UInt64 := high.toUInt64 <<< 32 ||| low.toUInt64

def pairHighFirst : List UInt32 → List UInt64
  | high :: low :: rest => joinHalves high low :: pairHighFirst rest
  | _ => []

def pairLowFirst : List UInt32 → List UInt64
  | low :: high :: rest => joinHalves high low :: pairLowFirst rest
  | _ => []

/-- The 64-bit words of a byte string, most significant byte first. -/
def wordsBE64 (bs : Bytes) : List UInt64 := pairHighFirst (wordsBE32 bs)

/-- The 64-bit words of a byte string, least significant byte first. -/
def wordsLE64 (bs : Bytes) : List UInt64 := pairLowFirst (wordsLE32 bs)

def bytesBE32 (w : UInt32) : Bytes := Bytes.beBytes 4 w.toNat

def bytesLE32 (w : UInt32) : Bytes := Bytes.leBytes 4 w.toNat

def bytesBE64 (w : UInt64) : Bytes := Bytes.beBytes 8 w.toNat

def bytesLE64 (w : UInt64) : Bytes := Bytes.leBytes 8 w.toNat

/-- The number of zero bytes that bring a message, its closing mark and a length field of `field`
bytes to a whole number of blocks. -/
def paddingZeros (block field size : Nat) : Nat :=
  (block - (size + 1 + field) % block) % block

/-- A chaining value folded over the first `count` blocks of `size` bytes. -/
def foldBlocks {σ : Type} (compress : σ → Bytes → σ) (size : Nat) : (count : Nat) → Bytes → σ → σ
  | 0, _, state => state
  | count + 1, bs, state =>
    foldBlocks compress size count (bs.drop size) (compress state (bs.take size))

end MeteredLedger.Digest
