import MeteredLedger.Digest.Blake3
import Std.Data.ExtTreeMap

/-!
# Merkle trees over sorted entries

A tree commits to a map from keys to values. Its leaves are the entries in the order of their keys;
level by level neighbours are joined, and an odd one at the end is carried up as it is, until one
digest is left. Leaves and inner nodes are told apart by their first byte.
-/

namespace MeteredLedger

/-- A commitment to a map of byte strings. -/
structure MerkleTree where
  entries : Std.ExtTreeMap Bytes Bytes := ∅

namespace MerkleTree

/-- The bytes hashed for an entry. The key is preceded by its length. -/
def leafBytes (key value : Bytes) : Bytes :=
  0x00 :: (Bytes.leBytes 4 key.length ++ key ++ value)

/-- The bytes hashed for an inner node. -/
def innerBytes (left right : Hash) : Bytes := 0x01 :: (left.toBytes ++ right.toBytes)

def leaf (key value : Bytes) : Hash := blake3 (leafBytes key value)

def inner (left right : Hash) : Hash := blake3 (innerBytes left right)

/-- The next level: neighbours are joined and an odd last one is carried up. -/
def joinPairs : List Hash → List Hash
  | left :: right :: rest => inner left right :: joinPairs rest
  | level => level

/-- The digest left when the level has been joined the given number of times. -/
def climb : Nat → List Hash → Hash
  | 0, level => level.headD 0
  | rounds + 1, level => climb rounds (joinPairs level)

/-- The digest at the top of a list of leaves; zero when there are none. A level of `n` digests is
down to one after at most `n` rounds, and further rounds leave a single digest alone. -/
def rootOf (leaves : List Hash) : Hash := climb leaves.length leaves

def insert (t : MerkleTree) (key value : Bytes) : MerkleTree := ⟨t.entries.insert key value⟩

/-- The tree of a list of entries; the last value of a key counts. -/
def ofList (entries : List (Bytes × Bytes)) : MerkleTree :=
  entries.foldl (fun t e => t.insert e.1 e.2) {}

def size (t : MerkleTree) : Nat := t.entries.size

def root (t : MerkleTree) : Hash := rootOf (t.entries.toList.map fun e => leaf e.1 e.2)

end MerkleTree

end MeteredLedger
