import MeteredLedger.Digest.Keccak256
import MeteredLedger.Ed25519.Signature

/-!
# Derived addresses

The address of a created contract is the tail of the digest of its creator and the creator's nonce,
written as a two-item list in the recursive length format. The address of a key is the tail of the
key's digest.
-/

namespace MeteredLedger

/-- A short byte string in the recursive length format: a single small byte stands for itself, and
any other string of fewer than 56 bytes follows a byte that gives its length. -/
def itemBytes : Bytes → Bytes
  | [b] => if b < 0x80 then [b] else [0x81, b]
  | bs => UInt8.ofNat (0x80 + bs.length) :: bs

/-- A creator and its nonce as a list in the recursive length format. -/
def creationPreimage (creator : Address) (nonce : Nonce) : Bytes :=
  let body := itemBytes creator.toBytes ++ itemBytes (Bytes.minimalBeBytes 8 nonce.toNat)
  UInt8.ofNat (0xc0 + body.length) :: body

namespace Address

def ofCreation (creator : Address) (nonce : Nonce) : Address :=
  (keccak256 (creationPreimage creator nonce)).toAddress

def ofPublicKey (key : PublicKey) : Address := (keccak256 key.toList).toAddress

end Address

end MeteredLedger
