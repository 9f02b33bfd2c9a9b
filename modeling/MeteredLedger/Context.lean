import MeteredLedger.Block.Basic
import MeteredLedger.World.Basic

/-!
# Execution context

What code may learn about the block and the message it runs for, and the policies by which values
move.
-/

namespace MeteredLedger

abbrev History := Std.ExtTreeMap UInt64 Hash

/-- How it is decided whether a caller can pay. -/
inductive FundsPolicy where
  | balance
  | always
  | never
  deriving DecidableEq, Repr

/-- What a transfer does. -/
inductive TransferPolicy where
  | move
  | keep
  deriving DecidableEq, Repr

def FundsPolicy.allows (p : FundsPolicy) (w : World) (a : Address) (amount : Wei) : Bool :=
  match p with
  | .balance => w.canPay a amount
  | .always => true
  | .never => false

/-- Carries a transfer out. -/
def TransferPolicy.apply (p : TransferPolicy) (w : World) (sender receiver : Address)
    (amount : Wei) : World :=
  match p with
  | .move => w.transfer sender receiver amount
  | .keep => w

/-- The block and message that code runs for. -/
structure Context where
  origin : Address
  gasPrice : Wei
  coinbase : Address
  gasLimit : Gas
  blockNumber : UInt64
  time : UInt64
  difficulty : Wei
  history : History := ∅
  funds : FundsPolicy := .balance
  transfers : TransferPolicy := .move

namespace Context

/-- The context of a message in a block. An author, if named, is paid in place of the header's
beneficiary. -/
def ofMessage (msg : Message) (header : Header) (history : History) (author : Option Address) :
    Context where
  origin := msg.sender
  gasPrice := msg.gasPrice
  coinbase := author.getD header.coinbase
  gasLimit := header.gasLimit
  blockNumber := header.number
  time := header.timestamp
  difficulty := header.difficulty
  history := history

/-- The digest of an earlier block; zero when it is unknown or not earlier. -/
def blockHash (c : Context) (number : UInt64) : Hash :=
  if c.blockNumber ≤ number then 0 else c.history[number]?.getD 0

def text (c : Context) : String :=
  "ExecutionContext \x7b origin: " ++ Bytes.decimalList c.origin.toBytes ++
    s!", gas_price: {c.gasPrice.toNat}, coinbase: " ++ Bytes.decimalList c.coinbase.toBytes ++
    s!", gas_limit: {c.gasLimit}, block_number: {c.blockNumber}, time: {c.time}, " ++
    s!"difficulty: {c.difficulty.toNat}, .. \x7d"

end Context

end MeteredLedger
