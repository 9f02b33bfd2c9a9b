import MeteredLedger.Frame.Basic

/-!
# Operations

Code names a script: a list of operations. A reporting script has further operations that tell what
they see, and can reach into other accounts.
-/

namespace MeteredLedger

/-- An operation of a script.  A call hands on the input of its frame; `output`, `revert` and `fail`
end the script. -/
inductive Op where
  | burn (gas : Gas)
  | store (key value : Word)
  | storeDepth (key : Word)
  | storeCaller (key : Word)
  | storeValue (key : Word)
  | log (topics : List Word) (data : Bytes)
  | refund (gas : Gas)
  | call (kind : CallKind) (target : Address) (gas : Gas) (value : Wei)
  | callSelf (gas : Gas)
  | create (initCode : Bytes) (gas : Gas) (value : Wei)
  | output (data : Bytes)
  | revert (data : Bytes)
  | fail
  deriving DecidableEq, Repr

/-- An operation of a script that also reports what it sees.  An attempt goes on after
a fault of the operation that it runs. -/
inductive ProbeOp where
  | plain (op : Op)
  | callWith (kind : CallKind) (target : Address) (gas : Gas) (value : Wei) (input : Bytes)
  | use (gas : Gas)
  | storeAt (address : Address) (key value : Word)
  | attempt (op : ProbeOp)
  | view (address : Address)
  | load (address : Address) (key : Word)
  | context
  | blockHash (number : UInt64)
  | cancel
  | raise (fault : Fault)
  deriving DecidableEq, Repr

/-- How code is run: it ends at once with empty output, or it names a script. -/
inductive Interpreter where
  | noop
  | script (table : Std.ExtTreeMap Bytes (List Op))
  | probe (table : Std.ExtTreeMap Bytes (List ProbeOp))

end MeteredLedger
