import MeteredLedger.Digest.Words

/-!
# RIPEMD-160

Two lines of eighty steps run over each block of sixty-four bytes, with their own word orders,
rotations and constants, and are joined at the end of the block.
-/

namespace MeteredLedger.Digest.Ripemd160

/-- The five-word chaining value. -/
structure State where
  a : UInt32
  b : UInt32
  c : UInt32
  d : UInt32
  e : UInt32

def State.toList (s : State) : List UInt32 := [s.a, s.b, s.c, s.d, s.e]

def start : State := ⟨0x67452301, 0xefcdab89, 0x98badcfe, 0x10325476, 0xc3d2e1f0⟩

/-- The boolean function of each of the five groups of sixteen steps. -/
def mix : Nat → UInt32 → UInt32 → UInt32 → UInt32
  | 0, x, y, z => x ^^^ y ^^^ z
  | 1, x, y, z => (x &&& y) ||| (~~~ x &&& z)
  | 2, x, y, z => (x ||| ~~~ y) ^^^ z
  | 3, x, y, z => (x &&& z) ||| (y &&& ~~~ z)
  | _, x, y, z => x ^^^ (y ||| ~~~ z)

/-- One group of steps: its boolean function, its constant, and the word and rotation of each step. -/
structure Group where
  function : Nat
  constant : UInt32
  words : List Nat
  rotations : List UInt32

def leftLine : List Group := [
    ⟨0, 0x00000000,
      [0, 1, 2, 3, 4, 5, 6, 7, 8, 9, 10, 11, 12, 13, 14, 15],
      [11, 14, 15, 12, 5, 8, 7, 9, 11, 13, 14, 15, 6, 7, 9, 8]⟩,
    ⟨1, 0x5a827999,
      [7, 4, 13, 1, 10, 6, 15, 3, 12, 0, 9, 5, 2, 14, 11, 8],
      [7, 6, 8, 13, 11, 9, 7, 15, 7, 12, 15, 9, 11, 7, 13, 12]⟩,
    ⟨2, 0x6ed9eba1,
      [3, 10, 14, 4, 9, 15, 8, 1, 2, 7, 0, 6, 13, 11, 5, 12],
      [11, 13, 6, 7, 14, 9, 13, 15, 14, 8, 13, 6, 5, 12, 7, 5]⟩,
    ⟨3, 0x8f1bbcdc,
      [1, 9, 11, 10, 0, 8, 12, 4, 13, 3, 7, 15, 14, 5, 6, 2],
      [11, 12, 14, 15, 14, 15, 9, 8, 9, 14, 5, 6, 8, 6, 5, 12]⟩,
    ⟨4, 0xa953fd4e,
      [4, 0, 5, 9, 7, 12, 2, 10, 14, 1, 3, 8, 11, 6, 15, 13],
      [9, 15, 5, 11, 6, 8, 13, 12, 5, 12, 13, 14, 11, 8, 5, 6]⟩]

def rightLine : List Group := [
    ⟨4, 0x50a28be6,
      [5, 14, 7, 0, 9, 2, 11, 4, 13, 6, 15, 8, 1, 10, 3, 12],
      [8, 9, 9, 11, 13, 15, 15, 5, 7, 7, 8, 11, 14, 14, 12, 6]⟩,
    ⟨3, 0x5c4dd124,
      [6, 11, 3, 7, 0, 13, 5, 10, 14, 15, 8, 12, 4, 9, 1, 2],
      [9, 13, 15, 7, 12, 8, 9, 11, 7, 7, 12, 7, 6, 15, 13, 11]⟩,
    ⟨2, 0x6d703ef3,
      [15, 5, 1, 3, 7, 14, 6, 9, 11, 8, 12, 2, 10, 0, 4, 13],
      [9, 7, 15, 11, 8, 6, 6, 14, 12, 13, 5, 14, 13, 13, 7, 5]⟩,
    ⟨1, 0x7a6d76e9,
      [8, 6, 4, 1, 3, 11, 15, 0, 5, 12, 2, 13, 9, 7, 10, 14],
      [15, 5, 8, 11, 14, 14, 6, 14, 6, 9, 12, 9, 12, 5, 15, 8]⟩,
    ⟨0, 0x00000000,
      [12, 15, 10, 4, 1, 5, 8, 7, 6, 2, 13, 14, 0, 3, 9, 11],
      [8, 5, 12, 9, 12, 5, 14, 6, 8, 13, 6, 5, 15, 13, 11, 11]⟩]

def step (f : Nat) (k : UInt32) (block : Array UInt32) (s : State) (word : Nat) (rotation : UInt32) :
    State :=
  let t := rotl32 (s.a + mix f s.b s.c s.d + block.getD word 0 + k) rotation + s.e
  ⟨s.e, t, s.b, rotl32 s.c 10, s.d⟩

def Group.run (block : Array UInt32) (s : State) (g : Group) : State :=
  (g.words.zip g.rotations).foldl (fun s wr => step g.function g.constant block s wr.1 wr.2) s

def compress (s : State) (bytes : Bytes) : State :=
  let block := (wordsLE32 bytes).toArray
  let l := leftLine.foldl (Group.run block) s
  let r := rightLine.foldl (Group.run block) s
  ⟨s.b + l.c + r.d, s.c + l.d + r.e, s.d + l.e + r.a, s.e + l.a + r.b, s.a + l.b + r.c⟩

/-- A message, a closing mark, zeros up to whole blocks, and the length in bits. -/
def pad (bs : Bytes) : Bytes :=
  bs ++ 0x80 :: (List.replicate (paddingZeros 64 8 bs.length) 0 ++ Bytes.leBytes 8 (8 * bs.length))

end MeteredLedger.Digest.Ripemd160

namespace MeteredLedger

open Digest Ripemd160 in
/-- The twenty bytes of the RIPEMD-160 digest of a byte string. -/
def ripemd160 (bs : Bytes) : Bytes :=
  let padded := pad bs
  let s := foldBlocks compress 64 (padded.length / 64) padded start
  s.toList.flatMap bytesLE32

end MeteredLedger
