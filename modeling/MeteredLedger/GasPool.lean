import MeteredLedger.Word

/-!
# Gas schedule and gas pool

What a transaction costs before anything runs, and the pool of gas that a block's transactions share.
-/

namespace MeteredLedger

namespace Gas

def txBase : Nat := 21000

/-- The cost of a creating transaction under the homestead rules. -/
def txCreation : Nat := 53000

def zeroByte : Nat := 4

def nonZeroByte : Nat := 68

def codeByte : Nat := 200

/-- What a transaction costs before it runs; nothing when the cost is out of range. -/
def intrinsic? (data : Bytes) (creation homestead : Bool) : Option Gas :=
  let base := if creation && homestead then txCreation else txBase
  let zeros := data.countP (· == 0)
  let others := data.countP (· != 0)
  ofNat? (base + others * nonZeroByte + zeros * zeroByte)

def codeDeposit (size : Nat) : Gas := clamp (size * codeByte)

end Gas

/-- Why the pool refused. -/
inductive PoolError where
  | exhausted (available requested : Gas)
  | overflow
  deriving DecidableEq, Repr

namespace PoolError

def kind : PoolError → String
  | exhausted _ _ => "Exhausted"
  | overflow => "Overflow"

def message : PoolError → String
  | exhausted available requested =>
    s!"gas limit reached: available {available}, requested {requested}"
  | overflow => "gas pool overflow"

end PoolError

/-- The gas left for the transactions of a block. -/
structure GasPool where
  gas : Gas
  deriving DecidableEq, Repr

namespace GasPool

def take (p : GasPool) (amount : Gas) : Except PoolError GasPool :=
  if p.gas < amount then .error (.exhausted p.gas amount) else .ok ⟨p.gas - amount⟩

def give (p : GasPool) (amount : Gas) : Except PoolError GasPool :=
  match Gas.ofNat? (p.gas.toNat + amount.toNat) with
  | some gas => .ok ⟨gas⟩
  | none => .error .overflow

def text (p : GasPool) : String := toString p.gas.toNat

end GasPool

end MeteredLedger
