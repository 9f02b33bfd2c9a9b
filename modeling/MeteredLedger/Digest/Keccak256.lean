import MeteredLedger.Digest.Words
import MeteredLedger.Word

/-!
# Keccak-256

The sponge over the 1600-bit permutation with a rate of 136 bytes and the closing bits `0x01 … 0x80`.
Lane `(x, y)` of the state stands at position `x + 5 * y`, and coordinates count modulo five.
-/

namespace MeteredLedger.Digest.Keccak256

abbrev State := Vector UInt64 25

/-- The lane at a column and row, both taken modulo five. -/
def lane {α : Type} (s : Vector α 25) (x y : Nat) : α := s[x % 5 + 5 * (y % 5)]

def offsets : Vector UInt64 25 := #v[
    0, 1, 62, 28, 27,
    36, 44, 6, 55, 20,
    3, 10, 43, 25, 39,
    41, 45, 15, 21, 8,
    18, 2, 61, 56, 14]

/-- One constant for each of the twenty-four rounds. -/
def roundConstants : List UInt64 := [
    0x0000000000000001, 0x0000000000008082, 0x800000000000808a, 0x8000000080008000,
    0x000000000000808b, 0x0000000080000001, 0x8000000080008081, 0x8000000000008009,
    0x000000000000008a, 0x0000000000000088, 0x0000000080008009, 0x000000008000000a,
    0x000000008000808b, 0x800000000000008b, 0x8000000000008089, 0x8000000000008003,
    0x8000000000008002, 0x8000000000000080, 0x000000000000800a, 0x800000008000000a,
    0x8000000080008081, 0x8000000000008080, 0x0000000080000001, 0x8000000080008008]

/-- The parity of each column. -/
def parities (s : State) : Vector UInt64 5 :=
  Vector.ofFn fun x => lane s x 0 ^^^ lane s x 1 ^^^ lane s x 2 ^^^ lane s x 3 ^^^ lane s x 4

/-- Each lane is mixed with the parities of the two neighbouring columns. -/
def theta (s : State) : State :=
  let parity := parities s
  Vector.ofFn fun i =>
    s[i] ^^^ parity[(i.val + 4) % 5] ^^^ rotl64 parity[(i.val + 1) % 5] 1

/-- Lanes are rotated by their offsets and moved to new places. -/
def rhoPi (s : State) : State :=
  Vector.ofFn fun i =>
    let x := i.val % 5
    let y := i.val / 5
    rotl64 (lane s (x + 3 * y) x) (lane offsets (x + 3 * y) x)

/-- The nonlinear step, along each row. -/
def chi (s : State) : State :=
  Vector.ofFn fun i =>
    let x := i.val % 5
    let y := i.val / 5
    s[i] ^^^ (~~~ lane s (x + 1) y &&& lane s (x + 2) y)

/-- One round: the linear steps, the nonlinear step and the round constant on the first lane. -/
def round (s : State) (rc : UInt64) : State :=
  let t := chi (rhoPi (theta s))
  t.set 0 (t[0] ^^^ rc)

/-- The permutation. -/
def permute (s : State) : State := roundConstants.foldl round s

def absorb (s : State) (block : Bytes) : State :=
  let ws := (wordsLE64 block).toArray
  permute (Vector.ofFn fun i => s[i] ^^^ ws.getD i 0)

def rate : Nat := 136

/-- A message filled up to whole blocks: a first closing bit, zeros, a last closing bit. -/
def pad (bs : Bytes) : Bytes :=
  let gap := rate - bs.length % rate
  if gap = 1 then bs ++ [0x81] else bs ++ 0x01 :: (List.replicate (gap - 2) 0 ++ [0x80])

end MeteredLedger.Digest.Keccak256

namespace MeteredLedger

open Digest Keccak256 in
def keccak256 (bs : Bytes) : Hash :=
  let padded := pad bs
  let s := foldBlocks absorb rate (padded.length / rate) padded (Vector.replicate 25 0)
  Word.ofBytes ((s.toList.take 4).flatMap bytesLE64)

end MeteredLedger
