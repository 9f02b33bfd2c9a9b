import MeteredLedger.Receipt
import MeteredLedger.Transaction.Basic

/-!
# Blocks

A header fixes a block's place and limits and, once sealed, what its execution gave. It is identified
by the digest of its encoding. A block adds the transactions.
-/

namespace MeteredLedger

/-- The header of a block. -/
structure Header where
  parentHash : Hash
  number : UInt64
  coinbase : Address
  gasLimit : Gas
  gasUsed : Gas
  timestamp : UInt64
  difficulty : Wei
  stateRoot : Hash
  bloom : Bloom
  deriving DecidableEq, Repr

/-- A header with its transactions. -/
structure Block where
  header : Header
  transactions : List Transaction
  deriving DecidableEq, Repr

/-- Why a block was refused. -/
inductive BlockError where
  | invalidHeader (reason : String)
  | transaction (index : Nat) (cause : Rejection)
  | gasUsedMismatch (header computed : Gas)
  | bloomMismatch
  | stateRootMismatch (header computed : Hash)
  deriving DecidableEq, Repr

namespace BlockError

def kind : BlockError → String
  | invalidHeader _ => "InvalidHeader"
  | transaction _ _ => "Transaction"
  | gasUsedMismatch _ _ => "GasUsedMismatch"
  | bloomMismatch => "BloomMismatch"
  | stateRootMismatch _ _ => "StateRootMismatch"

def message : BlockError → String
  | invalidHeader reason => "invalid header: " ++ reason
  | transaction index cause => s!"could not apply tx {index}: " ++ cause.message
  | gasUsedMismatch header computed =>
    s!"invalid gas used: header {header}, computed {computed}"
  | bloomMismatch => "invalid bloom"
  | stateRootMismatch header computed =>
    "invalid state root: header " ++ Bytes.hexList header.toBytes ++ ", computed " ++
      Bytes.hexList computed.toBytes

end BlockError

namespace Header

/-- The encoding of a header. -/
def toBytes (h : Header) : Bytes :=
  h.parentHash.toBytes ++ (Bytes.leBytes 8 h.number.toNat ++ (h.coinbase.toBytes ++
    (Bytes.leBytes 8 h.gasLimit.toNat ++ (Bytes.leBytes 8 h.gasUsed.toNat ++
      (Bytes.leBytes 8 h.timestamp.toNat ++ (Bytes.leBytes 16 h.difficulty.toNat ++
        (h.stateRoot.toBytes ++ h.bloom.toBytes)))))))

def hash (h : Header) : Hash := sha256 h.toBytes

/-- Whether a header is consistent in itself: it allows some gas and claims no more than that. -/
def validate (h : Header) : Except BlockError Unit :=
  if h.gasLimit = 0 then .error (.invalidHeader "gas_limit must be > 0")
  else if h.gasLimit < h.gasUsed then
    .error (.invalidHeader s!"gas_used {h.gasUsed} exceeds gas_limit {h.gasLimit}")
  else .ok ()

end Header

def Block.hash (b : Block) : Hash := b.header.hash

end MeteredLedger
