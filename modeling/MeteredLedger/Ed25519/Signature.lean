import MeteredLedger.Digest.Sha512
import MeteredLedger.Ed25519.Curve

/-!
# Ed25519 signatures

Deterministic signing from a 32-byte seed, and verification without the cofactor: a signature is
valid when its scalar is below the group order and the commitment computed from it is spelled by
exactly the first half of the signature.
-/

namespace MeteredLedger

abbrev PublicKey := Vector UInt8 32

abbrev Signature := Vector UInt8 64

abbrev Seed := Vector UInt8 32

namespace Ed25519

def bytes32 (n : Nat) : Vector UInt8 32 := ⟨(Bytes.leBytes 32 n).toArray, by simp⟩

/-- The secret scalar of a seed: the low half of its digest with the cofactor cleared and the top
bit fixed. -/
def scalar (seed : Seed) : Nat :=
  let low := Bytes.ofLeBytes ((sha512 seed.toList).take 32)
  low % (1 <<< 254) / 8 * 8 + (1 <<< 254)

def publicKey (seed : Seed) : PublicKey := bytes32 (Point.smul (scalar seed) Point.base).encode

/-- The scalar that binds a commitment, a key and a message. -/
def challenge (commitment key message : Bytes) : Nat :=
  Bytes.ofLeBytes (sha512 (commitment ++ key ++ message)) % order

def sign (seed : Seed) (message : Bytes) : Signature :=
  let blind := (sha512 seed.toList).drop 32
  let r := Bytes.ofLeBytes (sha512 (blind ++ message)) % order
  let commitment := bytes32 (Point.smul r Point.base).encode
  let k := challenge commitment.toList (publicKey seed).toList message
  commitment ++ bytes32 ((r + k * scalar seed) % order)

def verify (key : PublicKey) (message : Bytes) (signature : Signature) : Bool :=
  let commitment := signature.toList.take 32
  let s := Bytes.ofLeBytes (signature.toList.drop 32)
  match Point.decode? (Bytes.ofLeBytes key.toList) with
  | none => false
  | some a =>
    let k := challenge commitment key.toList message
    let r := (Point.smul s Point.base).add (Point.smul k a.neg)
    decide (s < order) && decide (Bytes.leBytes 32 r.encode = commitment)

end Ed25519

end MeteredLedger
