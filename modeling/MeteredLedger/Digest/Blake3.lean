import MeteredLedger.Digest.Words
import MeteredLedger.Word

/-!
# BLAKE3

A message is cut into chunks of 1024 bytes, a chunk into blocks of 64. Chunks are the leaves of a
binary tree in which every left subtree is full and as large as it can be. The last compression of a
chunk or parent is kept as a `Node`, because only the root of the whole tree is finished with the
root flag.
-/

namespace MeteredLedger.Digest.Blake3

abbrev Chain := Vector UInt32 8

/-- The key of the plain hash mode. -/
def key : Chain := #v[
    0x6a09e667, 0xbb67ae85, 0x3c6ef372, 0xa54ff53a,
    0x510e527f, 0x9b05688c, 0x1f83d9ab, 0x5be0cd19]

def chunkStart : UInt32 := 1

def chunkEnd : UInt32 := 2

def parent : UInt32 := 4

def root : UInt32 := 8

/-- Where each message word of the next round is taken from. -/
def permutation : Vector (Fin 16) 16 := #v[2, 6, 3, 10, 7, 0, 4, 13, 1, 11, 12, 5, 9, 14, 15, 8]

/-- The quarter round on four words of the state with two message words. -/
def quarter (v : Vector UInt32 16) (a b c d : Fin 16) (x y : UInt32) : Vector UInt32 16 :=
  let va := v[a] + v[b] + x
  let vd := rotr32 (v[d] ^^^ va) 16
  let vc := v[c] + vd
  let vb := rotr32 (v[b] ^^^ vc) 12
  let va := va + vb + y
  let vd := rotr32 (vd ^^^ va) 8
  let vc := vc + vd
  let vb := rotr32 (vb ^^^ vc) 7
  (((v.set a va).set b vb).set c vc).set d vd

/-- One round: the four columns, then the four diagonals. -/
def round (v m : Vector UInt32 16) : Vector UInt32 16 :=
  let v := quarter v 0 4 8 12 m[0] m[1]
  let v := quarter v 1 5 9 13 m[2] m[3]
  let v := quarter v 2 6 10 14 m[4] m[5]
  let v := quarter v 3 7 11 15 m[6] m[7]
  let v := quarter v 0 5 10 15 m[8] m[9]
  let v := quarter v 1 6 11 12 m[10] m[11]
  let v := quarter v 2 7 8 13 m[12] m[13]
  quarter v 3 4 9 14 m[14] m[15]

/-- The message words in the order of the next round. -/
def permute (m : Vector UInt32 16) : Vector UInt32 16 := permutation.map fun i => m[i]

/-- The given number of rounds, with the message permuted between them. -/
def rounds : Nat → Vector UInt32 16 → Vector UInt32 16 → Vector UInt32 16
  | 0, v, _ => v
  | n + 1, v, m => rounds n (round v m) (permute m)

/-- A compression that has not been carried out yet. -/
structure Node where
  chain : Chain
  block : Bytes
  counter : Nat
  flags : UInt32

/-- The sixteen message words of a block, filled up with zeros. -/
def words (block : Bytes) : Vector UInt32 16 :=
  let ws := (wordsLE32 (block ++ List.replicate (64 - block.length) 0)).toArray
  Vector.ofFn fun i => ws.getD i 0

def Node.compress (n : Node) : Chain :=
  let h := n.chain
  let v := #v[
    h[0], h[1], h[2], h[3], h[4], h[5], h[6], h[7],
    key[0], key[1], key[2], key[3],
    UInt32.ofNat n.counter, UInt32.ofNat (n.counter >>> 32),
    UInt32.ofNat n.block.length, n.flags]
  let v := rounds 7 v (words n.block)
  Vector.ofFn fun i => v[i.val] ^^^ v[i.val + 8]

/-- The last compression of a chunk whose remaining bytes span `more` full blocks and one last
block. -/
def chunkFrom (counter : Nat) : (more : Nat) → UInt32 → Chain → Bytes → Node
  | 0, flags, chain, bs => ⟨chain, bs, counter, flags ||| chunkEnd⟩
  | more + 1, flags, chain, bs =>
    chunkFrom counter more 0 (Node.compress ⟨chain, bs.take 64, counter, flags⟩) (bs.drop 64)

/-- The last compression of the chunk with the given number. -/
def chunk (counter : Nat) (bs : Bytes) : Node :=
  chunkFrom counter ((bs.length - 1) / 64) chunkStart key bs

def join (left right : Node) : Node :=
  ⟨key, (left.compress.toList ++ right.compress.toList).flatMap bytesLE32, 0, parent⟩

/-- The top of a tree of at most `2 ^ height` chunks, of which the first has the given number. -/
def tree : (height counter : Nat) → Bytes → Node
  | 0, counter, bs => chunk counter bs
  | height + 1, counter, bs =>
    let left := 1024 <<< height
    if bs.length ≤ left then tree height counter bs
    else join (tree height counter (bs.take left)) (tree height (counter + 1 <<< height) (bs.drop left))

end MeteredLedger.Digest.Blake3

namespace MeteredLedger

open Digest Blake3 in
def blake3 (bs : Bytes) : Hash :=
  let top := tree (bs.length.log2 - 9) 0 bs
  Word.ofBytes (Node.compress { top with flags := top.flags ||| root }
    |>.toList.flatMap bytesLE32)

end MeteredLedger
