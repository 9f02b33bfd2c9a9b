import MeteredLedger.Config.Basic
import MeteredLedger.Context
import MeteredLedger.Frame.Precompile
import MeteredLedger.Frame.Trace
import MeteredLedger.Machine.Op

/-!
# The machine

The machine is what frames act on: the world, the depth of the frame at hand, whether it may write,
and the monitor. The setting is what stays fixed meanwhile.
-/

namespace MeteredLedger

/-- The environment that frames of a chain run in. -/
structure Env where
  chain : ChainConfig := {}
  limits : Limits := {}
  precompiles : PrecompileSet := PrecompileSet.standard
  interpreter : Interpreter := .noop
  /-- Whether frames entered from outside are recorded. -/
  traced : Bool := false

def Env.text (env : Env) (cancelled : Bool) : String :=
  "EvmEnv \x7b chain: " ++ env.chain.text ++ ", vm: " ++ env.limits.text ++ ", precompiles: " ++
    env.precompiles.text ++ s!", cancelled: {cancelled}, traced: {env.traced}, .. \x7d"

/-- What stays fixed while a frame runs. -/
structure Setting where
  env : Env
  context : Context

def Setting.rules (s : Setting) : Rules := s.env.chain.rules s.context.blockNumber

/-- What a reporting script sees. -/
inductive Event where
  | enter (frame : Frame) (depth : Nat) (readOnly : Bool) (input : Bytes)
  | exit (depth : Nat) (readOnly : Bool) (gas : Gas) (result : Except Fault Bytes)
  | outcome (outcome : Outcome) (depth : Nat) (readOnly : Bool)
  | use (paid : Bool) (gas : Gas)
  | attempt (fault : Option Fault)
  | view (present isEmpty : Bool) (balance : Wei) (nonce : Nonce) (codeSize : Nat)
    (codeHash : Hash) (refund : Gas) (root : Hash)
  | load (value : Word)
  | context (context : Context) (rules : Rules) (limits : Limits)
  | blockHash (value : Hash)

/-- What outlives single frames: the cancel flag, the trace and the reports. -/
structure Monitor where
  cancelled : Bool := false
  trace : Trace := #[]
  events : Array Event := #[]

/-- The state that frames act on. -/
structure Machine where
  world : World
  monitor : Monitor := {}
  /-- The number of scripts being run. -/
  depth : Nat := 0
  readOnly : Bool := false

namespace Machine

/-- Changes the world, unless the frame may not write. -/
def write (m : Machine) (f : World → World) : Except Fault Machine :=
  if m.readOnly then .error .writeProtection else .ok { m with world := f m.world }

def setStorage (m : Machine) (a : Address) (key value : Word) : Except Fault Machine :=
  m.write (·.setStorage a key value)

def emitLog (m : Machine) (log : Log) : Except Fault Machine := m.write (·.addLog log)

def addRefund (m : Machine) (gas : Gas) : Except Fault Machine := m.write (·.addRefund gas)

def report (m : Machine) (event : Event) : Machine :=
  { m with monitor := { m.monitor with events := m.monitor.events.push event } }

end Machine

/-- How code ended: its result, and the frame and machine it left. -/
structure Run where
  result : Except Fault Bytes
  frame : Frame
  machine : Machine

/-- A way to run the code of a frame on an input. -/
abbrev Exec := Frame → Bytes → Machine → Run

/-- A way to answer requests for frames. -/
abbrev Dispatcher := Request → Machine → Outcome × Machine

/-- A way to run code, given a way to answer its requests for nested frames. -/
abbrev Engine := Dispatcher → Exec

end MeteredLedger
