import Mathlib.Logic.Relation
import MeteredLedger.Machine.Dispatch
import MeteredLedger.Proofs.LedgerOps

/-!
# What a frame and an operation can do

The dispatcher is opened up once, here.  `refuse?_refusal` lists the ways in which a request can be
turned away, `answer_conduct` lists the ways in which it can be answered, with the world each of
them leaves, and `Op.step_effect` lists what one operation of a script can do to its frame and
machine.  Later modules split on these lists and do not unfold the dispatcher again.
-/

namespace MeteredLedger

open Std

/-! ## Operations -/

namespace Step

def frame : Step → Frame
  | next f _ => f
  | stop _ f _ => f

def machine : Step → Machine
  | next _ m => m
  | stop _ _ m => m

end Step

namespace Request

/-- The account on whose behalf a frame is asked for. -/
def caller : Request → Address
  | call caller _ _ _ _ => caller
  | callCode caller _ _ _ _ => caller
  | delegateCall parent _ _ _ => parent.address
  | staticCall caller _ _ _ => caller
  | create caller _ _ _ => caller

def isStatic : Request → Bool
  | staticCall .. => true
  | _ => false

end Request

/-- What one operation can do to its frame and machine.  Logs are only written to worlds with `room`
for them. -/
inductive Effect (room : World → Prop) (nested : Dispatcher) (f : Frame) (m : Machine) :
    Frame → Machine → Prop
  | pay (gas : Gas) (hgas : gas ≤ f.gas) : Effect room nested f m { f with gas := gas } m
  | store (key value : Word) (hwrite : m.readOnly = false) :
      Effect room nested f m f { m with world := m.world.setStorage f.address key value }
  | log (log : Log) (hwrite : m.readOnly = false) (hroom : room m.world) :
      Effect room nested f m f { m with world := m.world.addLog log }
  | refund (gas : Gas) (hwrite : m.readOnly = false) :
      Effect room nested f m f { m with world := m.world.addRefund gas }
  | halt : Effect room nested f m f
      { m with monitor := { m.monitor with cancelled := true } }
  | nest (request : Request) (hgas : request.gas ≤ f.gas) (hcaller : request.caller = f.address) :
      Effect room nested f m
        { f with gas := f.gas - request.gas + (nested request m).1.gasLeft } (nested request m).2

section Operations

variable {room : World → Prop} {nested : Dispatcher} {f : Frame} {m : Machine}

theorem Effect.idle : Effect room nested f m f m := Effect.pay f.gas (UInt64.le_refl _)

theorem Effect.ofWrite {update : World → World}
    (h : m.readOnly = false → Effect room nested f m f { m with world := update m.world }) :
    Effect room nested f m (Step.ofWrite f m (m.write update)).frame
      (Step.ofWrite f m (m.write update)).machine := by
  by_cases hro : m.readOnly = true
  · rw [Machine.write, if_pos hro]
    exact Effect.idle
  · rw [Machine.write, if_neg hro]
    exact h (by simpa using hro)

theorem Frame.request_gas (kind : CallKind) (target : Address) (value : Wei) (input : Bytes)
    (f : Frame) (gas : Gas) : (Frame.request kind target value input f gas).gas = gas := by
  cases kind <;> rfl

theorem Frame.request_caller (kind : CallKind) (target : Address) (value : Wei) (input : Bytes)
    (f : Frame) (gas : Gas) :
    (Frame.request kind target value input f gas).caller = f.address := by
  cases kind <;> rfl

theorem Effect.ofNest (gas : Gas) (kind : CallKind) (target : Address) (value : Wei)
    (input : Bytes) :
    Effect room nested f m
      (f.nest nested gas (Frame.request kind target value input) m).frame
      (f.nest nested gas (Frame.request kind target value input) m).machine := by
  -- The nested frame gets the allowance and is asked for by the frame that gave it up.
  let allowance := min gas f.gas
  let request := Frame.request kind target value input { f with gas := f.gas - allowance } allowance
  have hgas : request.gas = allowance := Frame.request_gas _ _ _ _ _ _
  have hle : request.gas ≤ f.gas := by
    rw [hgas]
    exact Std.min_le_right
  have hcaller : request.caller = f.address := Frame.request_caller _ _ _ _ _ _
  have hnest : Effect room nested f m _ _ := Effect.nest request hle hcaller
  rw [hgas] at hnest
  exact hnest

theorem Frame.pay?_eq_some {f f' : Frame} {gas : Gas} (h : f.pay? gas = some f') :
    gas ≤ f.gas ∧ f' = { f with gas := f.gas - gas } := by
  unfold Frame.pay? at h
  split at h
  · cases h
  · rename_i hlt
    exact ⟨UInt64.not_lt.mp hlt, (Option.some.inj h).symm⟩

theorem Op.step_effect {op : Op} (hroom : ∀ topics data, op = .log topics data →
    m.readOnly = false → room m.world) (input : Bytes) :
    Effect room nested f m (Op.step nested input op f m).frame
      (Op.step nested input op f m).machine := by
  cases op with
  | burn gas =>
      simp only [Op.step]
      cases hpay : f.pay? gas with
      | none => exact Effect.idle
      | some f' =>
          obtain ⟨hle, rfl⟩ := Frame.pay?_eq_some hpay
          exact Effect.pay _ (UInt64.sub_le hle)
  | store key value => exact Effect.ofWrite fun hro ↦ Effect.store _ _ hro
  | storeDepth key => exact Effect.ofWrite fun hro ↦ Effect.store _ _ hro
  | storeCaller key => exact Effect.ofWrite fun hro ↦ Effect.store _ _ hro
  | storeValue key => exact Effect.ofWrite fun hro ↦ Effect.store _ _ hro
  | log topics data => exact Effect.ofWrite fun hro ↦ Effect.log _ hro (hroom topics data rfl hro)
  | refund gas => exact Effect.ofWrite fun hro ↦ Effect.refund gas hro
  | call kind target gas value => exact Effect.ofNest gas kind target value input
  | callSelf gas => exact Effect.ofNest gas .call f.address 0 input
  | create initCode gas value => exact Effect.ofNest gas .create f.address value initCode
  | output data => exact Effect.idle
  | revert data => exact Effect.idle
  | fail => exact Effect.idle

end Operations

/-! ## Scripts -/

/-- The frame and machine that effects lead to, one after another. -/
def Effects (room : World → Prop) (nested : Dispatcher) :
    Frame × Machine → Frame × Machine → Prop :=
  Relation.ReflTransGen fun x y ↦ Effect room nested x.1 x.2 y.1 y.2

/-- An engine all of whose runs are made of effects. -/
def Engine.IsEffectful (room : World → Prop) (engine : Engine) : Prop :=
  ∀ nested f input m, Effects room nested (f, m)
    ((engine nested f input m).frame, (engine nested f input m).machine)

/-- The engine that looks scripts up in a table. -/
def scriptEngine (table : ExtTreeMap Bytes (List Op)) : Engine := fun nested f input m ↦
  runTable table (Op.step nested input) f m

theorem dispatch_eq_script {s : Setting} {table : ExtTreeMap Bytes (List Op)}
    (hs : s.env.interpreter = .script table) :
    dispatch s = dispatchWith s (scriptEngine table) := by
  unfold dispatch scriptEngine
  rw [hs]
  rfl

/-- A plain setting for the scripts of a table. -/
def scriptSetting (table : ExtTreeMap Bytes (List Op)) : Setting where
  env := { interpreter := .script table }
  context :=
    { origin := 9, gasPrice := 1, coinbase := 8, gasLimit := 1000000, blockNumber := 1, time := 1,
      difficulty := 1 }

section Scripts

variable {room : World → Prop} {nested : Dispatcher} {step : Op → Frame → Machine → Step}

theorem runOps_effects
    (hstep : ∀ op f m, Effect room nested f m (step op f m).frame (step op f m).machine)
    (ops : List Op) (f : Frame) (m : Machine) :
    Effects room nested (f, m) ((runOps step ops f m).frame, (runOps step ops f m).machine) := by
  induction ops generalizing f m with
  | nil => exact .refl
  | cons op ops ih =>
      have hop := hstep op f m
      simp only [runOps]
      split
      · exact .refl
      · cases hres : step op f m with
        | next f' m' =>
            rw [hres] at hop
            exact .head hop (ih f' m')
        | stop result f' m' =>
            rw [hres] at hop
            exact .single hop

theorem runTable_effects (table : ExtTreeMap Bytes (List Op))
    (hstep : ∀ op f m, Effect room nested f m (step op f m).frame (step op f m).machine)
    (f : Frame) (m : Machine) :
    Effects room nested (f, m)
      ((runTable table step f m).frame, (runTable table step f m).machine) := by
  unfold runTable
  split
  · exact runOps_effects hstep _ f m
  · exact .refl

theorem scriptEngine_isEffectful (table : ExtTreeMap Bytes (List Op)) :
    (scriptEngine table).IsEffectful fun _ ↦ True := by
  intro nested f input m
  apply runTable_effects
  intro op f m
  exact Op.step_effect (fun _ _ _ _ ↦ trivial) input

end Scripts

/-! ## Frames -/

namespace Machine

variable (s : Setting) (m : Machine)

@[simp] theorem traceStart_world (entry : TraceEntry) :
    (m.traceStart s entry).world = m.world := by
  unfold traceStart
  split <;> rfl

@[simp] theorem traceStart_readOnly (entry : TraceEntry) :
    (m.traceStart s entry).readOnly = m.readOnly := by
  unfold traceStart
  split <;> rfl

@[simp] theorem traceStart_depth (entry : TraceEntry) :
    (m.traceStart s entry).depth = m.depth := by
  unfold traceStart
  split <;> rfl

@[simp] theorem traceStart_cancelled (entry : TraceEntry) :
    (m.traceStart s entry).monitor.cancelled = m.monitor.cancelled := by
  unfold traceStart
  split <;> rfl

@[simp] theorem traceEnd_world (result : Except Fault Bytes) (gas gasLeft : Gas) :
    (m.traceEnd s result gas gasLeft).world = m.world := by
  unfold traceEnd
  split <;> rfl

@[simp] theorem traceEnd_readOnly (result : Except Fault Bytes) (gas gasLeft : Gas) :
    (m.traceEnd s result gas gasLeft).readOnly = m.readOnly := by
  unfold traceEnd
  split <;> rfl

@[simp] theorem traceEnd_depth (result : Except Fault Bytes) (gas gasLeft : Gas) :
    (m.traceEnd s result gas gasLeft).depth = m.depth := by
  unfold traceEnd
  split <;> rfl

@[simp] theorem traceEnd_cancelled (result : Except Fault Bytes) (gas gasLeft : Gas) :
    (m.traceEnd s result gas gasLeft).monitor.cancelled = m.monitor.cancelled := by
  unfold traceEnd
  split <;> rfl

end Machine

/-- The ways in which a request is settled before a frame starts. -/
inductive Refusal (s : Setting) (m : Machine) (request : Request) : Outcome → Prop
  | skipped (hrecursion : s.env.limits.noRecursion = true) (hdepth : 0 < m.depth)
      (hcall : request.isCreate = false) : Refusal s m request (.skipped request.gas)
  | tooDeep (hdepth : s.env.limits.maxCallDepth < m.depth) :
      Refusal s m request (.failed .depthExceeded request.gas)
  | unpaid {caller : Address} {value : Wei} (hpayment : request.payment? = some (caller, value))
      (hfunds : s.context.funds.allows m.world caller value = false) :
      Refusal s m request (.failed .insufficientBalance request.gas)
  | guarded (hro : m.readOnly = true) (hwrites : request.writes = true) :
      Refusal s m request (.failed .writeProtection 0)

theorem refuse?_refusal {s : Setting} {m : Machine} {request : Request} {outcome : Outcome}
    (h : refuse? s m request = some outcome) : Refusal s m request outcome := by
  simp only [refuse?, ite_eq_iff, Option.some.injEq, reduceCtorEq, and_false, or_false] at h
  rcases h with ⟨hskip, rfl⟩ | ⟨-, ⟨hdeep, rfl⟩ | ⟨-, ⟨hunpaid, rfl⟩ | ⟨-, hguard, rfl⟩⟩⟩
  · simp only [Bool.and_eq_true, decide_eq_true_eq, Bool.not_eq_true'] at hskip
    exact .skipped hskip.1.1 hskip.1.2 hskip.2
  · exact .tooDeep hdeep
  · cases hpayment : request.payment? with
    | none => simp [hpayment] at hunpaid
    | some payment => exact .unpaid hpayment (by simpa [hpayment] using hunpaid)
  · rw [Bool.and_eq_true] at hguard
    exact .guarded hguard.1 hguard.2

theorem answer_of_refusal {s : Setting} {exec : Exec} {request : Request} {m : Machine}
    {outcome : Outcome} (h : refuse? s m request = some outcome) :
    answer s exec request m = (outcome, m) := by
  simp only [answer, h]

theorem Nonce.next?_eq_some_iff {n next : Nonce} :
    n.next? = some next ↔ n ≠ Nonce.largest ∧ next = n + 1 := by
  unfold Nonce.next?
  split
  · rename_i hlargest
    simp [hlargest]
  · rename_i hsmall
    simp [hsmall, eq_comm]

theorem Nonce.toNat_succ {n : Nonce} (h : n ≠ Nonce.largest) : (n + 1).toNat = n.toNat + 1 := by
  have hlargest : n.toNat ≠ Nonce.largest.toNat := fun heq ↦ h (UInt64.toNat_inj.mp heq)
  have hlt := n.toNat_lt
  have hmax : Nonce.largest.toNat = 2 ^ 64 - 1 := rfl
  rw [UInt64.toNat_add, UInt64.toNat_one, Nat.mod_eq_of_lt (by omega)]

theorem Nonce.lt_of_next? {n next : Nonce} (h : n.next? = some next) : n < next := by
  obtain ⟨hsmall, rfl⟩ := Nonce.next?_eq_some_iff.mp h
  rw [UInt64.lt_iff_toNat_lt, Nonce.toNat_succ hsmall]
  exact Nat.lt_succ_self _

theorem Outcome.result_eq_error_iff {outcome : Outcome} {fault : Fault} :
    outcome.result = .error fault ↔ outcome.fault? = some fault := by
  unfold fault? resultFault?
  split <;> simp_all

/-- A frame leaves the machine alone unless its code runs, which is not empty then. -/
theorem runFrame_cases (s : Setting) (exec : Exec) (f : Frame) (input : Bytes) (m : Machine) :
    ((runFrame s exec f input m).machine = m ∧ (runFrame s exec f input m).frame.gas ≤ f.gas) ∨
      (f.code ≠ [] ∧ runFrame s exec f input m = exec f input m) := by
  unfold runFrame
  split
  · exact .inl ⟨rfl, UInt64.le_refl _⟩
  · split
    · rename_i precompile _
      refine .inl ⟨rfl, ?_⟩
      simp only [Precompile.run]
      cases hpay : f.pay? (precompile.requiredGas input) with
      | none => exact UInt64.le_refl _
      | some f' =>
          obtain ⟨hle, rfl⟩ := Frame.pay?_eq_some hpay
          exact UInt64.sub_le hle
    · split
      · exact .inl ⟨rfl, UInt64.le_refl _⟩
      · rename_i hcode
        exact .inr ⟨by simpa using hcode, rfl⟩

/-- A creation ends with a fault that touches nothing, or with code that is paid for and stored. -/
theorem deposit_cases (s : Setting) (address : Address) (run : Run) :
    (∃ fault, deposit s address run = ⟨.error fault, run.frame, run.machine⟩) ∨
      ∃ code f, run.result = .ok code ∧ code.length ≤ s.env.limits.maxCodeSize ∧
        run.frame.pay? (Gas.codeDeposit code.length) = some f ∧
        deposit s address run =
          ⟨.ok code, f, { run.machine with world := run.machine.world.setCode address code }⟩ := by
  obtain ⟨result, frame, machine⟩ := run
  cases result with
  | error fault => exact .inl ⟨fault, rfl⟩
  | ok code =>
      simp only [deposit]
      split
      · exact .inl ⟨_, rfl⟩
      · rename_i hsize
        cases hpay : frame.pay? (Gas.codeDeposit code.length) with
        | none => exact .inl ⟨_, rfl⟩
        | some f => exact .inr ⟨code, f, rfl, Nat.not_lt.mp hsize, hpay, rfl⟩

/-- The world in which a called account's code starts. -/
def callWorld (s : Setting) (w : World) (caller target : Address) (value : Wei) : World :=
  s.context.transfers.apply
    (if w.hasAccount target then w.snapshot.2 else w.snapshot.2.createAccount target)
    caller target value

/-- The world in which the initial code of a new account starts. -/
def creationWorld (s : Setting) (w : World) (caller address : Address) (value : Wei) : World :=
  s.context.transfers.apply ((w.snapshot.2.createAccount address).setNonce address 1)
    caller address value

/-- The frame in which the initial code of a new account runs. -/
def creationFrame (caller address : Address) (initCode : Bytes) (gas : Gas) (value : Wei) : Frame :=
  ({ caller, address, value, gas } : Frame).withCode address (keccak256 initCode) initCode

/-- The frame that a request which is no creation opens, the account whose code it runs, whether it
may not write, and the world that the code starts in. -/
inductive Opens (s : Setting) (w : World) : Request → Frame → Address → Bool → World → Prop
  | call {caller target : Address} {input : Bytes} {gas : Gas} {value : Wei}
      (hreal : w.hasAccount target = true ∨ s.env.precompiles.contains target = true ∨ value ≠ 0) :
      Opens s w (.call caller target input gas value) { caller, address := target, value, gas }
        target false (callWorld s w caller target value)
  | callCode {caller target : Address} {input : Bytes} {gas : Gas} {value : Wei} :
      Opens s w (.callCode caller target input gas value)
        { caller, address := caller, value, gas } target false w.snapshot.2
  | delegateCall {parent : Frame} {target : Address} {input : Bytes} {gas : Gas} :
      Opens s w (.delegateCall parent target input gas)
        { caller := parent.caller, address := parent.address, value := parent.value, gas,
          delegate := true } target false w.snapshot.2
  | staticCall {caller target : Address} {input : Bytes} {gas : Gas} :
      Opens s w (.staticCall caller target input gas)
        { caller, address := target, value := 0, gas } target true w.snapshot.2

/-- The world after a run: as the run left it, or on a fault as it was at the snapshot. -/
def Run.settle (run : Run) (snapshot : Nat) : World :=
  match run.result with
  | .ok _ => run.machine.world
  | .error _ => run.machine.world.revert snapshot

/-- The ways in which a request is answered. -/
inductive Conduct (s : Setting) (exec : Exec) (m : Machine) : Request → Outcome → Machine → Prop
  | refused {request : Request} {outcome : Outcome}
      (hrefuse : refuse? s m request = some outcome) : Conduct s exec m request outcome m
  /-- A call of nobody without value. -/
  | idle {caller target : Address} {input : Bytes} {gas : Gas} {m' : Machine}
      (hentry : refuse? s m (.call caller target input gas 0) = none)
      (hworld : m'.world = m.world.snapshot.2) (hro : m'.readOnly = m.readOnly)
      (hdepth : m'.depth = m.depth) :
      Conduct s exec m (.call caller target input gas 0) (.skipped gas) m'
  /-- A frame other than a creation. -/
  | called {request : Request} {frame : Frame} {target : Address} {static : Bool} {w : World}
      {input : Bytes} {start : Machine} {run : Run} {m' : Machine}
      (hentry : refuse? s m request = none) (hopen : Opens s m.world request frame target static w)
      (hstart : start.world = w) (hstartRo : start.readOnly = (m.readOnly || static))
      (hstartDepth : start.depth = m.depth)
      (hrun : run = runFrame s exec (frame.withCode target (w.codeHash target) (w.code target))
        input start)
      (hworld : m'.world = run.settle m.world.snapshot.1) (hro : m'.readOnly = m.readOnly)
      (hdepth : m'.depth = run.machine.depth) :
      Conduct s exec m request ⟨run.result, settledGas run.result run.frame.gas, none⟩ m'
  /-- A creation by an account that has no next nonce. -/
  | spent {caller : Address} {initCode : Bytes} {gas : Gas} {value : Wei}
      (hentry : refuse? s m (.create caller initCode gas value) = none)
      (hnext : (m.world.nonce caller).next? = none) :
      Conduct s exec m (.create caller initCode gas value) (.failed .nonceOverflow gas) m
  /-- A creation at an address that is taken. -/
  | collided {caller : Address} {initCode : Bytes} {gas : Gas} {value : Wei} {next : Nonce}
      {m' : Machine} (hentry : refuse? s m (.create caller initCode gas value) = none)
      (hnext : (m.world.nonce caller).next? = some next)
      (hworld : m'.world = m.world.setNonce caller next) (hro : m'.readOnly = m.readOnly)
      (hdepth : m'.depth = m.depth) :
      Conduct s exec m (.create caller initCode gas value) (.failed .addressCollision 0) m'
  /-- A creation that is set up and not run. -/
  | reserved {caller address : Address} {initCode : Bytes} {gas : Gas} {value : Wei} {next : Nonce}
      {m' : Machine} (hentry : refuse? s m (.create caller initCode gas value) = none)
      (hnext : (m.world.nonce caller).next? = some next)
      (haddress : address = Address.ofCreation caller (m.world.nonce caller))
      (hfree : (m.world.setNonce caller next).isTaken address = false)
      (hworld : m'.world = creationWorld s (m.world.setNonce caller next) caller address value)
      (hro : m'.readOnly = m.readOnly) (hdepth : m'.depth = m.depth)
      (hskip : s.env.limits.noRecursion = true ∧ 0 < m.depth) :
      Conduct s exec m (.create caller initCode gas value)
        { Outcome.skipped gas with created := some address } m'
  /-- A creation whose initial code runs. -/
  | created {caller address : Address} {initCode : Bytes} {gas : Gas} {value : Wei} {next : Nonce}
      {start : Machine} {run done : Run} {gasLeft : Gas} {m' : Machine}
      (hentry : refuse? s m (.create caller initCode gas value) = none)
      (hnext : (m.world.nonce caller).next? = some next)
      (haddress : address = Address.ofCreation caller (m.world.nonce caller))
      (hfree : (m.world.setNonce caller next).isTaken address = false)
      (hstart : start.world = creationWorld s (m.world.setNonce caller next) caller address value)
      (hstartRo : start.readOnly = m.readOnly) (hstartDepth : start.depth = m.depth)
      (hstartCancelled : start.monitor.cancelled = m.monitor.cancelled)
      (hrun : run = runFrame s exec (creationFrame caller address initCode gas value) [] start)
      (hdone : done = deposit s address run)
      (hgas : gasLeft = if keepsCreation s.rules done.result then done.frame.gas
        else settledGas done.result done.frame.gas)
      (hworld : m'.world = if keepsCreation s.rules done.result then done.machine.world
        else done.machine.world.revert (m.world.setNonce caller next).snapshot.1)
      (hro : m'.readOnly = done.machine.readOnly) (hdepth : m'.depth = done.machine.depth) :
      Conduct s exec m (.create caller initCode gas value)
        ⟨done.result, gasLeft, some address⟩ m'

/-- A call that does not end at once is of somebody, of a precompiled contract, or with value. -/
theorem real_of_not_idle {there precompiled : Bool} {value : Wei}
    (h : ¬(!there && !precompiled && decide (value = 0)) = true) :
    there = true ∨ precompiled = true ∨ value ≠ 0 := by
  cases there <;> cases precompiled <;> simp_all

section Answers

variable (s : Setting) (exec : Exec) {m : Machine}

theorem enter_conduct {request : Request} {frame : Frame} {target : Address} {static : Bool}
    {w : World} {entry : TraceEntry} (hentry : refuse? s m request = none)
    (hopen : Opens s m.world request frame target static w) :
    Conduct s exec m request
      (enter s exec m.world.snapshot.1 frame target entry static { m with world := w }).1
      (enter s exec m.world.snapshot.1 frame target entry static { m with world := w }).2 := by
  simp only [enter]
  generalize hrun : runFrame s exec
    (frame.withCode target (w.codeHash target) (w.code target)) entry.input _ = run
  refine Conduct.called hentry hopen ?_ ?_ ?_ hrun.symm ?_ ?_ ?_
  · simp
  · simp
  · simp
  · cases hres : run.result <;> simp [Run.settle, hres]
  · cases hres : run.result <;> simp
  · cases hres : run.result <;> simp

theorem enterCall_conduct {caller target : Address} {input : Bytes} {gas : Gas} {value : Wei}
    (hentry : refuse? s m (.call caller target input gas value) = none) :
    Conduct s exec m (.call caller target input gas value)
      (enterCall s exec caller target input gas value m).1
      (enterCall s exec caller target input gas value m).2 := by
  have hhas : m.world.snapshot.2.hasAccount target = m.world.hasAccount target := rfl
  simp only [enterCall, hhas]
  split
  · -- Nobody is there and nothing is moved.
    rename_i hidle
    have hvalue : value = 0 := by
      simp only [Bool.and_eq_true, decide_eq_true_eq] at hidle
      exact hidle.2
    subst hvalue
    refine Conduct.idle hentry ?_ ?_ ?_ <;> simp
  · rename_i hreal
    apply enter_conduct s exec hentry
    exact Opens.call (real_of_not_idle hreal)

theorem enterCreate_conduct {caller : Address} {initCode : Bytes} {gas : Gas} {value : Wei}
    (hentry : refuse? s m (.create caller initCode gas value) = none) :
    Conduct s exec m (.create caller initCode gas value)
      (enterCreate s exec caller initCode gas value m).1
      (enterCreate s exec caller initCode gas value m).2 := by
  cases hnext : (m.world.nonce caller).next? with
  | none =>
      simp only [enterCreate, hnext]
      exact Conduct.spent hentry hnext
  | some next =>
      simp only [enterCreate, hnext]
      split
      · exact Conduct.collided hentry hnext rfl rfl rfl
      · rename_i hfree
        rw [Bool.not_eq_true] at hfree
        split
        · rename_i hskip
          rw [Bool.and_eq_true, decide_eq_true_eq] at hskip
          exact Conduct.reserved hentry hnext rfl hfree rfl rfl rfl hskip
        · generalize hrun : runFrame s exec (({ caller, address := _, value, gas } :
            Frame).withCode _ (keccak256 initCode) initCode) [] _ = run
          generalize hdone : deposit s _ run = done
          refine Conduct.created hentry hnext rfl hfree ?_ ?_ ?_ ?_ hrun.symm hdone.symm ?_ ?_ ?_ ?_
          · rw [Machine.traceStart_world]
            rfl
          · rw [Machine.traceStart_readOnly]
          · rw [Machine.traceStart_depth]
          · rw [Machine.traceStart_cancelled]
          · split <;> rfl
          · rw [Machine.traceEnd_world]
            split <;> rfl
          · rw [Machine.traceEnd_readOnly]
            split <;> rfl
          · rw [Machine.traceEnd_depth]
            split <;> rfl

theorem answer_conduct (request : Request) :
    Conduct s exec m request (answer s exec request m).1 (answer s exec request m).2 := by
  unfold answer
  cases hrefuse : refuse? s m request with
  | some outcome => exact Conduct.refused hrefuse
  | none =>
      cases request with
      | call caller target input gas value => exact enterCall_conduct s exec hrefuse
      | callCode caller target input gas value => exact enter_conduct s exec hrefuse .callCode
      | delegateCall parent target input gas => exact enter_conduct s exec hrefuse .delegateCall
      | staticCall caller target input gas => exact enter_conduct s exec hrefuse .staticCall
      | create caller initCode gas value => exact enterCreate_conduct s exec hrefuse

end Answers

/-- How the code of a frame runs when its runs may be nested `levels` deep. -/
def codeRunner (s : Setting) (engine : Engine) : (levels : Nat) → Exec
  | 0 => fun f _ m ↦ ⟨.error .depthExceeded, f, m⟩
  | levels + 1 => deeper (engine (dispatchWithin s engine levels))

theorem dispatchWithin_eq_answer (s : Setting) (engine : Engine) (levels : Nat) :
    dispatchWithin s engine levels = answer s (codeRunner s engine levels) := by
  cases levels <;> rfl

end MeteredLedger
