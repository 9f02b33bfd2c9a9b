import MeteredLedger.Bytes

/-!
# Faults of a frame

The causes for which a single frame fails. A fault is settled where it arises, by taking the frame's
changes back; only an explicit revert hands the unused gas to the caller.
-/

namespace MeteredLedger

/-- Why a frame failed. -/
inductive Fault where
  | depthExceeded
  | insufficientBalance
  | addressCollision
  | outOfGas
  | codeStoreOutOfGas
  | maxCodeSizeExceeded
  | writeProtection
  | cancelled
  | reverted (data : Bytes)
  | nonceOverflow
  | interpreter (reason : String)
  deriving DecidableEq, Repr

namespace Fault

def message : Fault → String
  | depthExceeded => "max call depth exceeded"
  | insufficientBalance => "insufficient balance for transfer"
  | addressCollision => "contract address collision"
  | outOfGas => "out of gas"
  | codeStoreOutOfGas => "contract creation code storage out of gas"
  | maxCodeSizeExceeded => "max code size exceeded"
  | writeProtection => "write protection"
  | cancelled => "execution cancelled"
  | reverted _ => "execution reverted"
  | nonceOverflow => "nonce has max value"
  | interpreter reason => "interpreter error: " ++ reason

def kind : Fault → String
  | depthExceeded => "DepthExceeded"
  | insufficientBalance => "InsufficientBalance"
  | addressCollision => "AddressCollision"
  | outOfGas => "OutOfGas"
  | codeStoreOutOfGas => "CodeStoreOutOfGas"
  | maxCodeSizeExceeded => "MaxCodeSizeExceeded"
  | writeProtection => "WriteProtection"
  | cancelled => "Cancelled"
  | reverted _ => "Reverted"
  | nonceOverflow => "NonceOverflow"
  | interpreter _ => "Interpreter"

/-- The fault of a given name, with the data of a revert and the reason of a failure of the code. -/
def ofKind? (kind : String) (data : Bytes) (reason : String) : Option Fault :=
  [depthExceeded, insufficientBalance, addressCollision, outOfGas, codeStoreOutOfGas,
    maxCodeSizeExceeded, writeProtection, cancelled, reverted data, nonceOverflow,
    interpreter reason].find? fun fault => fault.kind == kind

def isRevert : Fault → Bool
  | reverted _ => true
  | _ => false

end Fault

end MeteredLedger
