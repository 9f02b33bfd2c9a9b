import MeteredLedger.Derivation
import MeteredLedger.Machine.Script

/-!
# Answering requests for frames

`answer` is one frame from admission to settlement, for any way of running code: it checks the
request, takes a snapshot, runs the code, and on a fault goes back to the snapshot. `dispatchWithin`
ties the knot. Each level of nesting uses up one level of an allowance, and since no frame starts
deeper than the configured limit, the limit bounds the nesting whatever the gas is.
-/

namespace MeteredLedger

namespace Outcome

def skipped (gas : Gas) : Outcome := ⟨.ok [], gas, none⟩

def failed (fault : Fault) (gasLeft : Gas) : Outcome := ⟨.error fault, gasLeft, none⟩

end Outcome

namespace Machine

/-- Opens an entry of the trace for a frame entered from outside. -/
def traceStart (s : Setting) (m : Machine) (entry : TraceEntry) : Machine :=
  if m.depth = 0 ∧ s.env.traced then
    { m with monitor := { m.monitor with trace := m.monitor.trace.start entry } }
  else m

/-- Completes the entry of the trace for a frame entered from outside. -/
def traceEnd (s : Setting) (m : Machine) (result : Except Fault Bytes) (gas gasLeft : Gas) :
    Machine :=
  if m.depth = 0 ∧ s.env.traced then
    let used := Gas.clamp (gas.toNat - gasLeft.toNat)
    let trace := m.monitor.trace.finish (resultOutput result) used (resultFault? result)
    { m with monitor := { m.monitor with trace := trace } }
  else m

end Machine

/-- Whether a request is settled before a frame starts, and how. -/
def refuse? (s : Setting) (m : Machine) (request : Request) : Option Outcome :=
  let unpaid := match request.payment? with
    | some (caller, value) => !s.context.funds.allows m.world caller value
    | none => false
  if s.env.limits.noRecursion && decide (0 < m.depth) && !request.isCreate then
    some (.skipped request.gas)
  else if s.env.limits.maxCallDepth < m.depth then some (.failed .depthExceeded request.gas)
  else if unpaid then some (.failed .insufficientBalance request.gas)
  else if m.readOnly && request.writes then some (.failed .writeProtection 0)
  else none

/-- Runs a frame: a precompiled contract in place of code, nothing for empty code, the code
otherwise. -/
def runFrame (s : Setting) (exec : Exec) : Exec := fun f input m =>
  if m.monitor.cancelled then ⟨.error .cancelled, f, m⟩
  else
    match f.codeAddress.bind fun a => s.env.precompiles[a]? with
    | some precompile =>
      let (result, f) := precompile.run input f
      ⟨result, f, m⟩
    | none => if f.code.isEmpty then ⟨.ok [], f, m⟩ else exec f input m

/-- The gas that a frame hands back: on a fault only an explicit revert keeps any. -/
def settledGas (result : Except Fault Bytes) (gas : Gas) : Gas :=
  match result with
  | .ok _ => gas
  | .error fault => if fault.isRevert then gas else 0

/-- Runs the target's code in a frame that is set up, and settles it: a fault goes back to the
snapshot. -/
def enter (s : Setting) (exec : Exec) (snapshot : Nat) (frame : Frame) (target : Address)
    (entry : TraceEntry) (static : Bool) (m : Machine) : Outcome × Machine :=
  let f := frame.withCode target (m.world.codeHash target) (m.world.code target)
  let m := m.traceStart s entry
  let run := runFrame s exec f entry.input { m with readOnly := m.readOnly || static }
  let m := { run.machine with readOnly := m.readOnly }
  let m := match run.result with
    | .ok _ => m
    | .error _ => { m with world := m.world.revert snapshot }
  let gasLeft := settledGas run.result run.frame.gas
  (⟨run.result, gasLeft, none⟩, m.traceEnd s run.result entry.gas gasLeft)

/-- A call: the value moves to the target, which is created if need be, and its code runs. A call
without value to nobody ends at once. -/
def enterCall (s : Setting) (exec : Exec) (caller target : Address) (input : Bytes) (gas : Gas)
    (value : Wei) (m : Machine) : Outcome × Machine :=
  let (snapshot, w) := m.world.snapshot
  let m := { m with world := w }
  let entry : TraceEntry := { caller, target, create := false, input, gas, value }
  if !w.hasAccount target && !s.env.precompiles.contains target && decide (value = 0) then
    (.skipped gas, (m.traceStart s entry).traceEnd s (.ok []) gas gas)
  else
    let w := if w.hasAccount target then w else w.createAccount target
    let w := s.context.transfers.apply w caller target value
    enter s exec snapshot { caller, address := target, value, gas } target entry false
      { m with world := w }

/-- A call that moves nothing: its frame is given. -/
def enterBorrowed (s : Setting) (exec : Exec) (frame : Frame) (entry : TraceEntry) (static : Bool)
    (m : Machine) : Outcome × Machine :=
  let (snapshot, w) := m.world.snapshot
  enter s exec snapshot frame entry.target entry static { m with world := w }

/-- Whether an address is taken: it has sent transactions or has code. -/
def World.isTaken (w : World) (a : Address) : Bool :=
  decide (w.nonce a ≠ 0) || (decide (w.codeHash a ≠ 0) && decide (w.codeHash a ≠ emptyCodeHash))

/-- What becomes of the code that initial code returned: it is stored if it is small enough and paid
for. -/
def deposit (s : Setting) (address : Address) (run : Run) : Run :=
  match run.result with
  | .error _ => run
  | .ok code =>
    if s.env.limits.maxCodeSize < code.length then { run with result := .error .maxCodeSizeExceeded }
    else
      match run.frame.pay? (Gas.codeDeposit code.length) with
      | some f =>
        let m := run.machine
        ⟨.ok code, f, { m with world := m.world.setCode address code }⟩
      | none => { run with result := .error .codeStoreOutOfGas }

/-- Whether a creation that ended so keeps its account and gas: a success does, and before homestead
so does one that cannot pay for its code. -/
def keepsCreation (rules : Rules) : Except Fault Bytes → Bool
  | .ok _ => true
  | .error .codeStoreOutOfGas => !rules.homestead
  | .error _ => false

/-- A creation: the creator's nonce goes up for good, a fresh account gets the value, and the initial
code runs and returns the account's code. -/
def enterCreate (s : Setting) (exec : Exec) (caller : Address) (initCode : Bytes) (gas : Gas)
    (value : Wei) (m : Machine) : Outcome × Machine :=
  let nonce := m.world.nonce caller
  match nonce.next? with
  | none => (.failed .nonceOverflow gas, m)
  | some next =>
    let w := m.world.setNonce caller next
    let address := Address.ofCreation caller nonce
    if w.isTaken address then (.failed .addressCollision 0, { m with world := w })
    else
      let (snapshot, w) := w.snapshot
      let w := (w.createAccount address).setNonce address 1
      let m := { m with world := s.context.transfers.apply w caller address value }
      if s.env.limits.noRecursion && decide (0 < m.depth) then
        ({ Outcome.skipped gas with created := some address }, m)
      else
        let m := m.traceStart s
          { caller, target := address, create := true, input := initCode, gas, value }
        let f : Frame := { caller, address, value, gas }
        let run := runFrame s exec (f.withCode address (keccak256 initCode) initCode) [] m
        let run := deposit s address run
        let m := run.machine
        let (gasLeft, m) :=
          if keepsCreation s.rules run.result then (run.frame.gas, m)
          else
            (settledGas run.result run.frame.gas, { m with world := m.world.revert snapshot })
        (⟨run.result, gasLeft, some address⟩, m.traceEnd s run.result gas gasLeft)

/-- One frame from admission to settlement, with a way to run code. -/
def answer (s : Setting) (exec : Exec) : Dispatcher := fun request m =>
  match refuse? s m request with
  | some outcome => (outcome, m)
  | none =>
    match request with
    | .call caller target input gas value => enterCall s exec caller target input gas value m
    | .callCode caller target input gas value =>
      enterBorrowed s exec { caller, address := caller, value, gas }
        { caller, target, create := false, input, gas, value } false m
    | .delegateCall parent target input gas =>
      let caller := parent.address
      let value := parent.value
      let f : Frame := { caller, address := caller, value, gas }
      enterBorrowed s exec (f.onBehalfOf parent)
        { caller, target, create := false, input, gas, value } false m
    | .staticCall caller target input gas =>
      enterBorrowed s exec { caller, address := target, value := 0, gas }
        { caller, target, create := false, input, gas, value := 0 } true m
    | .create caller initCode gas value => enterCreate s exec caller initCode gas value m

/-- Runs code one level deeper. -/
def deeper (exec : Exec) : Exec := fun f input m =>
  let run := exec f input { m with depth := m.depth + 1 }
  { run with machine := { run.machine with depth := run.machine.depth - 1 } }

/-- Answers a request with an engine whose runs are nested at most `levels` deep. -/
def dispatchWithin (s : Setting) (engine : Engine) : (levels : Nat) → Dispatcher
  | 0 => answer s fun f _ m => ⟨.error .depthExceeded, f, m⟩
  | levels + 1 => answer s (deeper (engine (dispatchWithin s engine levels)))

def dispatchWith (s : Setting) (engine : Engine) : Dispatcher := fun request m =>
  dispatchWithin s engine (s.env.limits.maxCallDepth + 1 - m.depth) request m

def dispatch (s : Setting) : Dispatcher := dispatchWith s (s.env.interpreter.engine s)

end MeteredLedger
