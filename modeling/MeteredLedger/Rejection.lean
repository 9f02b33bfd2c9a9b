import MeteredLedger.GasPool

/-!
# Rejected transactions

The causes for which a transaction is refused before its code runs. A rejection ends the block that
the transaction stands in.
-/

namespace MeteredLedger

/-- Why a transaction was refused. -/
inductive Rejection where
  | invalidSignature
  | nonceTooLow (state tx : Nonce)
  | nonceTooHigh (state tx : Nonce)
  | nonceMax (address : Address) (nonce : Nonce)
  | insufficientFunds (held want : Wei)
  | gasPoolExhausted (cause : PoolError)
  | intrinsicGas (held want : Gas)
  | gasOverflow
  deriving DecidableEq, Repr

namespace Rejection

def kind : Rejection → String
  | invalidSignature => "InvalidSignature"
  | nonceTooLow _ _ => "NonceTooLow"
  | nonceTooHigh _ _ => "NonceTooHigh"
  | nonceMax _ _ => "NonceMax"
  | insufficientFunds _ _ => "InsufficientFunds"
  | gasPoolExhausted _ => "GasPoolExhausted"
  | intrinsicGas _ _ => "IntrinsicGas"
  | gasOverflow => "GasOverflow"

def message : Rejection → String
  | invalidSignature => "invalid transaction signature"
  | nonceTooLow state tx => s!"nonce too low: state {state}, tx {tx}"
  | nonceTooHigh state tx => s!"nonce too high: state {state}, tx {tx}"
  | nonceMax address nonce =>
    "nonce has max value: address " ++ Bytes.hexList address.toBytes ++ s!", nonce {nonce}"
  | insufficientFunds held want =>
    s!"insufficient funds for gas * price + value: have {held.toNat}, want {want.toNat}"
  | gasPoolExhausted cause => "block gas pool exhausted: " ++ cause.message
  | intrinsicGas held want => s!"intrinsic gas too low: have {held}, want {want}"
  | gasOverflow => "gas arithmetic overflow"

end Rejection

end MeteredLedger
