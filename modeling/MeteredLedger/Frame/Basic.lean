import MeteredLedger.Fault
import MeteredLedger.World.Basic

/-!
# Frames

A frame is one activation of code: who called it, on whose account it works, what code it runs and
with how much gas. A request asks for a frame, and an outcome says how it ended.
-/

namespace MeteredLedger

/-- One activation of code. -/
structure Frame where
  caller : Address
  /-- The account that the frame works on. -/
  address : Address
  /-- Where the code came from. -/
  codeAddress : Option Address := none
  code : Bytes := []
  codeHash : Hash := emptyCodeHash
  value : Wei
  gas : Gas
  /-- Whether the frame stands in for its parent. -/
  delegate : Bool := false
  deriving DecidableEq, Repr

namespace Frame

/-- Pays gas; nothing when the frame holds less. -/
def pay? (f : Frame) (gas : Gas) : Option Frame :=
  if f.gas < gas then none else some { f with gas := f.gas - gas }

/-- The frame with caller and value of a parent that it stands in for. -/
def onBehalfOf (f parent : Frame) : Frame :=
  { f with delegate := true, caller := parent.caller, value := parent.value }

def withCode (f : Frame) (codeAddress : Address) (codeHash : Hash) (code : Bytes) : Frame :=
  { f with codeAddress := some codeAddress, codeHash := codeHash, code := code }

/-- Where the code came from: the frame's own account unless said otherwise. -/
def codeOrigin (f : Frame) : Address := f.codeAddress.getD f.address

end Frame

/-- The ways to ask for a frame. -/
inductive CallKind where
  | call
  | callCode
  | delegateCall
  | staticCall
  | create
  deriving DecidableEq, Repr

/-- A frame asked for. -/
inductive Request where
  | call (caller target : Address) (input : Bytes) (gas : Gas) (value : Wei)
  | callCode (caller target : Address) (input : Bytes) (gas : Gas) (value : Wei)
  | delegateCall (parent : Frame) (target : Address) (input : Bytes) (gas : Gas)
  | staticCall (caller target : Address) (input : Bytes) (gas : Gas)
  | create (caller : Address) (initCode : Bytes) (gas : Gas) (value : Wei)

namespace Request

def gas : Request → Gas
  | call _ _ _ gas _ => gas
  | callCode _ _ _ gas _ => gas
  | delegateCall _ _ _ gas => gas
  | staticCall _ _ _ gas => gas
  | create _ _ gas _ => gas

def isCreate : Request → Bool
  | create .. => true
  | _ => false

/-- The payment whose cover is checked before the frame starts. -/
def payment? : Request → Option (Address × Wei)
  | call caller _ _ _ value => some (caller, value)
  | callCode caller _ _ _ value => some (caller, value)
  | create caller _ _ value => some (caller, value)
  | _ => none

/-- Whether the request itself changes the state. -/
def writes : Request → Bool
  | call _ _ _ _ value => decide (value ≠ 0)
  | create .. => true
  | _ => false

end Request

/-- How a frame ended. -/
structure Outcome where
  result : Except Fault Bytes
  gasLeft : Gas
  created : Option Address := none

/-- What a result hands to the caller: the output, or the data of a revert. -/
def resultOutput : Except Fault Bytes → Bytes
  | .ok output => output
  | .error (.reverted data) => data
  | .error _ => []

def resultFault? : Except Fault Bytes → Option Fault
  | .ok _ => none
  | .error fault => some fault

namespace Outcome

def succeeded (o : Outcome) : Bool := (resultFault? o.result).isNone

def output (o : Outcome) : Bytes := resultOutput o.result

def fault? (o : Outcome) : Option Fault := resultFault? o.result

end Outcome

end MeteredLedger
