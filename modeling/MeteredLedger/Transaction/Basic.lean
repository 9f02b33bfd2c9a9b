import MeteredLedger.Derivation
import MeteredLedger.Digest.Sha256
import MeteredLedger.Rejection
import MeteredLedger.Transaction.Wire

/-!
# Signing and identifying transactions

A transaction is identified by the digest of its wire form. Its signature covers a payload that opens
with a domain label and the chain's identifier, so that it is worth nothing on another chain.
-/

namespace MeteredLedger

/-- What a transaction asks for once its sender is known. A message without a target creates a
contract from its data. -/
structure Message where
  sender : Address
  target : Option Address
  nonce : Nonce
  value : Wei
  gasLimit : Gas
  gasPrice : Wei
  data : Bytes
  checkNonce : Bool := true
  deriving DecidableEq, Repr

def Message.isCreation (msg : Message) : Bool := msg.target.isNone

namespace Transaction

/-- The label that opens every signed payload. -/
def domain : Bytes := [0x63, 0x6f, 0x72, 0x65, 0x76, 0x6d, 0x2d, 0x74, 0x78]

def signingPayload (tx : Transaction) (chainId : UInt64) : Bytes :=
  domain ++ (Bytes.leBytes 8 chainId.toNat ++ tx.bodyBytes)

def hash (tx : Transaction) : Hash := sha256 tx.toBytes

def isCreation (tx : Transaction) : Bool := tx.target.isNone

def sign (tx : Transaction) (chainId : UInt64) (seed : Seed) : Transaction :=
  { tx with
    publicKey := Ed25519.publicKey seed
    signature := Ed25519.sign seed (tx.signingPayload chainId) }

/-- What a transaction asks for in the name of a sender. -/
def messageFrom (tx : Transaction) (sender : Address) : Message where
  sender := sender
  target := tx.target
  nonce := tx.nonce
  value := tx.value
  gasLimit := tx.gasLimit
  gasPrice := tx.gasPrice
  data := tx.data

/-- The message of a transaction, if the signature verifies on the chain. -/
def toMessage (tx : Transaction) (chainId : UInt64) : Except Rejection Message :=
  if Ed25519.verify tx.publicKey (tx.signingPayload chainId) tx.signature then
    .ok (tx.messageFrom (Address.ofPublicKey tx.publicKey))
  else .error .invalidSignature

end Transaction

end MeteredLedger
