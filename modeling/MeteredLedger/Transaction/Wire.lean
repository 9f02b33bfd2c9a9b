import MeteredLedger.Ed25519.Signature
import MeteredLedger.Word

/-!
# The wire form of transactions

Fields follow each other in a fixed order: numbers least significant byte first, an optional target
behind a flag byte, data behind its length, then the key and the signature. Reading takes the fields
in the same order and refuses leftovers.
-/

namespace MeteredLedger

/-- A signed transaction. Without a target it creates a contract from its data. -/
structure Transaction where
  nonce : Nonce
  gasPrice : Wei
  gasLimit : Gas
  target : Option Address
  value : Wei
  data : Bytes
  publicKey : PublicKey
  signature : Signature
  deriving DecidableEq, Repr

/-- Why bytes are no wire form. -/
inductive WireError where
  | unexpectedEnd
  | invalidFlag (field : String) (value : UInt8)
  | lengthOverflow (length : UInt64)
  | trailingBytes (count : Nat)
  deriving DecidableEq, Repr

namespace WireError

def kind : WireError → String
  | unexpectedEnd => "UnexpectedEnd"
  | invalidFlag _ _ => "InvalidFlag"
  | lengthOverflow _ => "LengthOverflow"
  | trailingBytes _ => "TrailingBytes"

def message : WireError → String
  | unexpectedEnd => "unexpected end of data"
  | invalidFlag field value => s!"invalid {field} flag: {value}"
  | lengthOverflow length => s!"length prefix too large: {length}"
  | trailingBytes count => s!"{count} trailing bytes"

end WireError

namespace Wire

/-- Takes a value off the front of a byte string. -/
abbrev Reader := StateT Bytes (Except WireError)

def bytes (n : Nat) : Reader Bytes := fun bs =>
  if n ≤ bs.length then .ok (bs.take n, bs.drop n) else .error .unexpectedEnd

def vector (n : Nat) : Reader (Vector UInt8 n) := fun bs =>
  if h : n ≤ bs.length then .ok (⟨(bs.take n).toArray, by simp [h]⟩, bs.drop n)
  else .error .unexpectedEnd

/-- The next `width` bytes as a number, least significant first. -/
def number (width : Nat) : Reader Nat := do
  let bs ← bytes width
  return Bytes.ofLeBytes bs

/-- The largest length that can be addressed. -/
def maxLength : Nat := 0xffffffffffffffff

/-- The length of a field that follows, if it can be addressed. -/
def length : Reader Nat := do
  let n ← number 8
  if n ≤ maxLength then return n else throw (.lengthOverflow (UInt64.ofNat n))

def targetBytes : Option Address → Bytes
  | none => [0]
  | some a => 1 :: a.toBytes

def target : Reader (Option Address) := do
  let flag ← bytes 1
  match flag.headD 0 with
  | 0 => return none
  | 1 => return some (Address.ofBytes (← bytes 20))
  | value => throw (.invalidFlag "to" value)

end Wire

namespace Transaction

/-- The fields that the signature covers. -/
def bodyBytes (tx : Transaction) : Bytes :=
  Bytes.leBytes 8 tx.nonce.toNat ++ (Bytes.leBytes 16 tx.gasPrice.toNat ++
    (Bytes.leBytes 8 tx.gasLimit.toNat ++ (Wire.targetBytes tx.target ++
      (Bytes.leBytes 16 tx.value.toNat ++ (Bytes.leBytes 8 tx.data.length ++ tx.data)))))

/-- The wire form. -/
def toBytes (tx : Transaction) : Bytes :=
  tx.bodyBytes ++ (tx.publicKey.toList ++ tx.signature.toList)

def read : Wire.Reader Transaction := do
  let nonce ← Wire.number 8
  let gasPrice ← Wire.number 16
  let gasLimit ← Wire.number 8
  let target ← Wire.target
  let value ← Wire.number 16
  let length ← Wire.length
  let data ← Wire.bytes length
  let publicKey ← Wire.vector 32
  let signature ← Wire.vector 64
  return {
    nonce := UInt64.ofNat nonce
    gasPrice := BitVec.ofNat 128 gasPrice
    gasLimit := UInt64.ofNat gasLimit
    target := target
    value := BitVec.ofNat 128 value
    data := data
    publicKey := publicKey
    signature := signature }

/-- The transaction that a byte string spells. -/
def ofBytes (bs : Bytes) : Except WireError Transaction := do
  let (tx, rest) ← read.run bs
  if rest.isEmpty then return tx else throw (.trailingBytes rest.length)

end Transaction

end MeteredLedger
