import MeteredLedger.Machine.Basic

/-!
# Scripts

A script is a list of operations, run in order until one of them stops the frame. Cancellation is
looked at before each operation. Nested frames are answered by a dispatcher given from outside, so a
script's meaning does not depend on how deep it runs.
-/

namespace MeteredLedger

/-- What one operation leads to. -/
inductive Step where
  | next (frame : Frame) (machine : Machine)
  | stop (result : Except Fault Bytes) (frame : Frame) (machine : Machine)

namespace Step

/-- A write that goes on unless it was refused. -/
def ofWrite (f : Frame) (m : Machine) : Except Fault Machine → Step
  | .ok m => next f m
  | .error fault => stop (.error fault) f m

end Step

def runOps {ω : Type} (step : ω → Frame → Machine → Step) : List ω → Frame → Machine → Run
  | [], f, m => ⟨.ok [], f, m⟩
  | op :: ops, f, m =>
    if m.monitor.cancelled then ⟨.error .cancelled, f, m⟩
    else
      match step op f m with
      | .next f m => runOps step ops f m
      | .stop result f m => ⟨result, f, m⟩

namespace Frame

/-- Hands gas, as far as the frame has it, to a nested frame and takes back what is left. -/
def nest (f : Frame) (nested : Dispatcher) (gas : Gas) (request : Frame → Gas → Request)
    (m : Machine) : Step :=
  let allowance := min gas f.gas
  let f := { f with gas := f.gas - allowance }
  let (outcome, m) := nested (request f allowance) m
  .next { f with gas := f.gas + outcome.gasLeft } m

def request (kind : CallKind) (target : Address) (value : Wei) (input : Bytes) (f : Frame)
    (gas : Gas) : Request :=
  match kind with
  | .call => .call f.address target input gas value
  | .callCode => .callCode f.address target input gas value
  | .delegateCall => .delegateCall f target input gas
  | .staticCall => .staticCall f.address target input gas
  | .create => .create f.address input gas value

end Frame

def Op.step (nested : Dispatcher) (input : Bytes) (op : Op) (f : Frame) (m : Machine) : Step :=
  match op with
  | burn gas =>
    match f.pay? gas with
    | some f => .next f m
    | none => .stop (.error .outOfGas) f m
  | store key value => .ofWrite f m (m.setStorage f.address key value)
  | storeDepth key => .ofWrite f m (m.setStorage f.address key (BitVec.ofNat 256 m.depth))
  | storeCaller key => .ofWrite f m (m.setStorage f.address key f.caller.toWord)
  | storeValue key => .ofWrite f m (m.setStorage f.address key f.value.toWord)
  | log topics data => .ofWrite f m (m.emitLog { address := f.address, topics, data })
  | refund gas => .ofWrite f m (m.addRefund gas)
  | call kind target gas value => f.nest nested gas (Frame.request kind target value input) m
  | callSelf gas => f.nest nested gas (Frame.request .call f.address 0 input) m
  | create initCode gas value => f.nest nested gas (Frame.request .create f.address value initCode) m
  | output data => .stop (.ok data) f m
  | revert data => .stop (.error (.reverted data)) f m
  | fail => .stop (.error (.interpreter "invalid opcode")) f m

/-- Looks a script up by the code of a frame and runs it. -/
def runTable {ω : Type} (table : Std.ExtTreeMap Bytes (List ω))
    (step : ω → Frame → Machine → Step) (f : Frame) (m : Machine) : Run :=
  match table[f.code]? with
  | some ops => runOps step ops f m
  | none => ⟨.error (.interpreter "unknown code"), f, m⟩

/-- The machine's answer to a request, reported. -/
def Dispatcher.reported (nested : Dispatcher) : Dispatcher := fun request m =>
  let (outcome, m) := nested request m
  (outcome, m.report (.outcome outcome m.depth m.readOnly))

def ProbeOp.step (s : Setting) (nested : Dispatcher) (input : Bytes) :
    ProbeOp → Frame → Machine → Step
  | plain op, f, m => op.step nested.reported input f m
  | callWith kind target gas value own, f, m =>
    f.nest nested.reported gas (Frame.request kind target value own) m
  | use gas, f, m =>
    match f.pay? gas with
    | some f => .next f (m.report (.use true f.gas))
    | none => .next f (m.report (.use false f.gas))
  | storeAt a key value, f, m => .ofWrite f m (m.setStorage a key value)
  | attempt op, f, m =>
    match op.step s nested input f m with
    | .next f m => .next f (m.report (.attempt none))
    | .stop (.error fault) f m => .next f (m.report (.attempt (some fault)))
    | .stop (.ok data) f m => .stop (.ok data) f m
  | view a, f, m =>
    let w := m.world
    .next f (m.report (.view (w.hasAccount a) (w.isEmptyAt a) (w.balance a) (w.nonce a)
      (w.code a).length (w.codeHash a) w.refund w.stateRoot))
  | load a key, f, m => .next f (m.report (.load (m.world.storageAt a key)))
  | context, f, m => .next f (m.report (.context s.context s.rules s.env.limits))
  | blockHash number, f, m => .next f (m.report (.blockHash (s.context.blockHash number)))
  | cancel, f, m => .next f { m with monitor := { m.monitor with cancelled := true } }
  | raise fault, f, m => .stop (.error fault) f m

/-- Runs a reporting script between reports of its start and end. -/
def runProbe (table : Std.ExtTreeMap Bytes (List ProbeOp)) (s : Setting) (nested : Dispatcher)
    (f : Frame) (input : Bytes) (m : Machine) : Run :=
  let m := m.report (.enter f m.depth m.readOnly input)
  let run := runTable table (ProbeOp.step s nested input) f m
  let m := run.machine
  { run with machine := m.report (.exit m.depth m.readOnly run.frame.gas run.result) }

def Interpreter.engine (i : Interpreter) (s : Setting) : Engine := fun nested f input m =>
  match i with
  | noop => ⟨.ok [], f, m⟩
  | script table => runTable table (Op.step nested input) f m
  | probe table => runProbe table s nested f input m

end MeteredLedger
