import MeteredLedger.Frame.Basic

/-!
# Traces

A record of the frames that were entered from outside, one entry each: what was asked and, once the
frame has ended, how it ended.
-/

namespace MeteredLedger

/-- A recorded frame. -/
structure TraceEntry where
  caller : Address
  target : Address
  create : Bool
  input : Bytes
  gas : Gas
  value : Wei
  output : Bytes := []
  gasUsed : Gas := 0
  fault : Option Fault := none
  deriving DecidableEq, Repr

abbrev Trace := Array TraceEntry

namespace Trace

def start (t : Trace) (entry : TraceEntry) : Trace := t.push entry

/-- Completes the last entry; nothing happens when there is none. -/
def finish (t : Trace) (output : Bytes) (gasUsed : Gas) (fault : Option Fault) : Trace :=
  match t.back? with
  | some entry => t.pop.push { entry with output := output, gasUsed := gasUsed, fault := fault }
  | none => t

end Trace

end MeteredLedger
