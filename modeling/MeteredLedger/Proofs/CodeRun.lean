import MeteredLedger.Proofs.FrameConduct

/-!
# The code that a request runs

A request that is let through sets a frame up, and the frame runs its code at most once.
`Request.codeRun?` says whether it does, and on which machine.  How code is run is of no importance to
the answer anywhere else (`answer_congr`), and a fault that the code ends with decides the answer
(`answer_of_faulted_code`).
-/

namespace MeteredLedger

open Std

/-! ## Operations that ask for frames -/

/-- The request for a nested frame that gets gas as far as the frame has it. -/
def Frame.ask (f : Frame) (gas : Gas) (request : Frame → Gas → Request) : Request :=
  request { f with gas := f.gas - min gas f.gas } (min gas f.gas)

/-- The request that an operation makes, if it makes one. -/
def Op.request? (input : Bytes) (f : Frame) : Op → Option Request
  | call kind target gas value => some (f.ask gas (Frame.request kind target value input))
  | callSelf gas => some (f.ask gas (Frame.request .call f.address 0 input))
  | create initCode gas value => some (f.ask gas (Frame.request .create f.address value initCode))
  | _ => none

section Scripts

variable {input : Bytes} {f : Frame} {m : Machine} {op : Op}

theorem Frame.ask_gas (f : Frame) (gas : Gas) (kind : CallKind) (target : Address) (value : Wei)
    (input : Bytes) : (f.ask gas (Frame.request kind target value input)).gas = min gas f.gas :=
  Frame.request_gas _ _ _ _ _ _

/-- An operation that asks for a frame hands over gas and takes back what is left. -/
theorem Op.step_request {request : Request} (h : op.request? input f = some request)
    (nested : Dispatcher) :
    op.step nested input f m =
      .next { f with gas := f.gas - request.gas + (nested request m).1.gasLeft }
        (nested request m).2 := by
  cases op with
  | call kind target gas value =>
      cases h
      rw [Frame.ask_gas]
      rfl
  | callSelf gas =>
      cases h
      rw [Frame.ask_gas]
      rfl
  | create initCode gas value =>
      cases h
      rw [Frame.ask_gas]
      rfl
  | _ => cases h

/-- Any other operation does not depend on how frames are answered. -/
theorem Op.step_plain (h : op.request? input f = none) (nested nested' : Dispatcher) :
    op.step nested input f m = op.step nested' input f m := by
  cases op with
  | call kind target gas value => cases h
  | callSelf gas => cases h
  | create initCode gas value => cases h
  | _ => rfl

theorem Op.step_congr {d d' : Dispatcher} (h : ∀ request, d request m = d' request m)
    (input : Bytes) (op : Op) : op.step d input f m = op.step d' input f m := by
  cases hrequest : op.request? input f with
  | none => exact Op.step_plain hrequest d d'
  | some request => rw [Op.step_request hrequest, Op.step_request hrequest, h request]

/-- Two ways to run operations that agree on the machines a run meets give the same run. -/
theorem runOps_congr {ω : Type} {step step' : ω → Frame → Machine → Step} {P : Machine → Prop}
    (hstep : ∀ op f m, P m → step op f m = step' op f m ∧ P (step' op f m).machine)
    (ops : List ω) (f : Frame) {m : Machine} (hm : P m) :
    runOps step ops f m = runOps step' ops f m := by
  induction ops generalizing f m with
  | nil => rfl
  | cons op ops ih =>
      obtain ⟨hsame, hnext⟩ := hstep op f m hm
      simp only [runOps, hsame]
      split
      · rfl
      · cases hres : step' op f m with
        | next f' m' =>
            rw [hres] at hnext
            exact ih f' hnext
        | stop result f' m' => rfl

theorem scriptEngine_congr {d d' : Dispatcher} {P : Machine → Prop}
    (h : ∀ request m, P m → d request m = d' request m)
    (hstable : ∀ f f' m m', Effect (fun _ ↦ True) d' f m f' m' → P m → P m')
    (table : ExtTreeMap Bytes (List Op)) (f : Frame) (input : Bytes) (hm : P m) :
    scriptEngine table d f input m = scriptEngine table d' f input m := by
  unfold scriptEngine runTable
  split
  · apply runOps_congr ?_ _ f hm
    intro op f m hm
    exact ⟨Op.step_congr (fun request ↦ h request m hm) input op,
      hstable _ _ _ _ (Op.step_effect (fun _ _ _ _ ↦ trivial) input) hm⟩
  · rfl

end Scripts

/-! ## Frames that run code -/

/-- A frame with the code of its target, its input, and the machine that the code starts on. -/
def Frame.start (s : Setting) (frame : Frame) (target : Address) (entry : TraceEntry)
    (static : Bool) (m : Machine) : Frame × Bytes × Machine :=
  let start := m.traceStart s entry
  (frame.withCode target (m.world.codeHash target) (m.world.code target), entry.input,
    { start with readOnly := start.readOnly || static })

/-- The frame that runs for a request which is let through, with its input and the machine that it
starts on; none if no code is looked at. -/
def Request.opening? (s : Setting) (m : Machine) : Request → Option (Frame × Bytes × Machine)
  | call caller target input gas value =>
    if !m.world.hasAccount target && !s.env.precompiles.contains target && decide (value = 0) then
      none
    else
      some (Frame.start s { caller, address := target, value, gas } target
        { caller, target, create := false, input, gas, value } false
        { m with world := callWorld s m.world caller target value })
  | callCode caller target input gas value =>
    some (Frame.start s { caller, address := caller, value, gas } target
      { caller, target, create := false, input, gas, value } false
      { m with world := m.world.snapshot.2 })
  | delegateCall parent target input gas =>
    let f : Frame := { caller := parent.address, address := parent.address, value := parent.value, gas }
    some (Frame.start s (f.onBehalfOf parent) target
      { caller := parent.address, target, create := false, input, gas, value := parent.value } false
      { m with world := m.world.snapshot.2 })
  | staticCall caller target input gas =>
    some (Frame.start s { caller, address := target, value := 0, gas } target
      { caller, target, create := false, input, gas, value := 0 } true
      { m with world := m.world.snapshot.2 })
  | create caller initCode gas value =>
    match (m.world.nonce caller).next? with
    | none => none
    | some next =>
      let w := m.world.setNonce caller next
      let address := Address.ofCreation caller (m.world.nonce caller)
      if w.isTaken address || (s.env.limits.noRecursion && decide (0 < m.depth)) then none
      else
        some (creationFrame caller address initCode gas value, [],
          ({ m with world := creationWorld s w caller address value } : Machine).traceStart s
            { caller, target := address, create := true, input := initCode, gas, value })

/-- Whether the frame of a request that ended so keeps its changes. -/
def Request.keeps (rules : Rules) (request : Request) (result : Except Fault Bytes) : Bool :=
  if request.isCreate then keepsCreation rules result else result.isOk

theorem Request.keeps_create (rules : Rules) (caller : Address) (initCode : Bytes) (gas : Gas)
    (value : Wei) (result : Except Fault Bytes) :
    (create caller initCode gas value).keeps rules result = keepsCreation rules result := rfl

/-- Whether a frame gets as far as its code: execution is not cancelled, no precompiled contract runs
in place of the code, and there is code. -/
def Frame.runsCode (s : Setting) (f : Frame) (m : Machine) : Bool :=
  !m.monitor.cancelled && (f.codeAddress.bind fun a ↦ s.env.precompiles[a]?).isNone &&
    !f.code.isEmpty

/-- The frame whose code runs for a request, with its input and the machine that the code starts on;
none if no code runs. -/
def Request.codeRun? (s : Setting) (m : Machine) (request : Request) :
    Option (Frame × Bytes × Machine) :=
  match refuse? s m request with
  | some _ => none
  | none => (request.opening? s m).filter fun (f, _, start) ↦ f.runsCode s start

section Frames

variable {s : Setting} {exec exec' : Exec} {f : Frame} {input : Bytes} {m start : Machine}
  {request : Request}

theorem runFrame_of_runsCode (h : f.runsCode s m = true) :
    runFrame s exec f input m = exec f input m := by
  simp only [Frame.runsCode, Bool.and_eq_true, Bool.not_eq_true', Option.isNone_iff_eq_none] at h
  obtain ⟨⟨hgo, hprecompile⟩, hcode⟩ := h
  simp only [runFrame, hgo, hprecompile, hcode, Bool.false_eq_true, if_false]

theorem runFrame_congr (h : f.runsCode s m = true → exec f input m = exec' f input m) :
    runFrame s exec f input m = runFrame s exec' f input m := by
  cases hruns : f.runsCode s m with
  | true => rw [runFrame_of_runsCode hruns, runFrame_of_runsCode hruns, h hruns]
  | false =>
      simp only [Frame.runsCode, Bool.and_eq_false_iff, Bool.not_eq_false'] at hruns
      unfold runFrame
      split
      · rfl
      · rename_i hgo
        split
        · rfl
        · rename_i hprecompile
          have hempty : f.code.isEmpty = true := by simpa [hgo, hprecompile] using hruns
          rw [if_pos hempty, if_pos hempty]

theorem Request.codeRun?_eq_some_iff :
    request.codeRun? s m = some (f, input, start) ↔
      refuse? s m request = none ∧ request.opening? s m = some (f, input, start) ∧
        f.runsCode s start = true := by
  unfold codeRun?
  cases hrefuse : refuse? s m request with
  | some outcome => simp
  | none => simp [Option.filter_eq_some_iff]

theorem Request.opening?_create {caller : Address} {initCode : Bytes} {gas : Gas} {value : Wei}
    {next : Nonce} {w : World} {address : Address} (hnext : (m.world.nonce caller).next? = some next)
    (hw : w = m.world.setNonce caller next)
    (haddress : address = Address.ofCreation caller (m.world.nonce caller))
    (hfree : w.isTaken address = false)
    (hnested : (s.env.limits.noRecursion && decide (0 < m.depth)) = false) :
    (create caller initCode gas value).opening? s m =
      some (creationFrame caller address initCode gas value, [],
        ({ m with world := creationWorld s w caller address value } : Machine).traceStart s
          { caller, target := address, create := true, input := initCode, gas, value }) := by
  subst hw haddress
  simp only [opening?, hnext, hfree, hnested, Bool.or_self, Bool.false_eq_true, if_false]

/-- The frame of a creation is set up only where it may run. -/
theorem Request.exists_of_opening?_create {caller : Address} {initCode : Bytes} {gas : Gas}
    {value : Wei} (h : (create caller initCode gas value).opening? s m = some (f, input, start)) :
    ∃ next, (m.world.nonce caller).next? = some next ∧
      (m.world.setNonce caller next).isTaken
        (Address.ofCreation caller (m.world.nonce caller)) = false ∧
      (s.env.limits.noRecursion && decide (0 < m.depth)) = false := by
  simp only [opening?] at h
  cases hnext : (m.world.nonce caller).next? with
  | none => simp [hnext] at h
  | some next =>
      simp only [hnext] at h
      split at h
      · cases h
      · rename_i hopen
        rw [Bool.not_eq_true, Bool.or_eq_false_iff] at hopen
        exact ⟨next, rfl, hopen⟩

theorem Request.opening?_machine (h : request.opening? s m = some (f, input, start)) :
    start.depth = m.depth ∧ (m.readOnly = true → start.readOnly = true) := by
  cases request with
  | call caller target input gas value =>
      simp only [opening?] at h
      split at h
      · cases h
      · cases h
        simp
  | create caller initCode gas value =>
      obtain ⟨next, hnext, hfree, hnested⟩ := exists_of_opening?_create h
      rw [opening?_create hnext rfl rfl hfree hnested] at h
      cases h
      simp
  | _ =>
      cases h
      simp

theorem enter_congr {snapshot : Nat} {frame : Frame} {target : Address} {entry : TraceEntry}
    {static : Bool} (h : ∀ f input start, frame.start s target entry static m = (f, input, start) →
      runFrame s exec f input start = runFrame s exec' f input start) :
    enter s exec snapshot frame target entry static m =
      enter s exec' snapshot frame target entry static m := by
  have hrun := h _ _ _ rfl
  simp only [enter, hrun]

/-- The answer to a request depends on how code is run at one place only. -/
theorem answer_congr (h : ∀ f input start, request.codeRun? s m = some (f, input, start) →
    exec f input start = exec' f input start) :
    answer s exec request m = answer s exec' request m := by
  cases hrefuse : refuse? s m request with
  | some outcome => rw [answer_of_refusal hrefuse, answer_of_refusal hrefuse]
  | none =>
      have hrun : ∀ f input start, request.opening? s m = some (f, input, start) →
          runFrame s exec f input start = runFrame s exec' f input start := by
        intro f input start hopening
        apply runFrame_congr
        intro hruns
        exact h f input start (Request.codeRun?_eq_some_iff.mpr ⟨hrefuse, hopening, hruns⟩)
      simp only [answer, hrefuse]
      cases request with
      | call caller target input gas value =>
          have hhas : m.world.snapshot.2.hasAccount target = m.world.hasAccount target := rfl
          simp only [enterCall, hhas]
          split
          · rfl
          · rename_i hreal
            apply enter_congr
            intro f input start hstart
            exact hrun f input start ((if_neg hreal).trans (congrArg some hstart))
      | callCode caller target input gas value =>
          exact enter_congr fun f input start hstart ↦ hrun f input start (congrArg some hstart)
      | delegateCall parent target input gas =>
          exact enter_congr fun f input start hstart ↦ hrun f input start (congrArg some hstart)
      | staticCall caller target input gas =>
          exact enter_congr fun f input start hstart ↦ hrun f input start (congrArg some hstart)
      | create caller initCode gas value =>
          simp only [enterCreate]
          cases hnext : (m.world.nonce caller).next? with
          | none => rfl
          | some next =>
              simp only
              split
              · rfl
              · rename_i hfree
                split
                · rfl
                · rename_i hnested
                  rw [Bool.not_eq_true] at hfree hnested
                  have hsame := hrun _ _ _ (Request.opening?_create hnext rfl rfl hfree hnested)
                  simp only [creationFrame, creationWorld] at hsame
                  simp only [hsame]

/-- Code runs no deeper than the limit and, where frames may not nest, for outer requests only. -/
theorem Request.codeRun?_depth (h : request.codeRun? s m = some (f, input, start)) :
    start.depth = m.depth ∧ m.depth ≤ s.env.limits.maxCallDepth ∧
      (s.env.limits.noRecursion = true → m.depth = 0) := by
  obtain ⟨hentry, hopening, -⟩ := codeRun?_eq_some_iff.mp h
  refine ⟨(opening?_machine hopening).1, ?_⟩
  simp only [refuse?, ite_eq_iff, reduceCtorEq, and_false, false_or, and_true] at hentry
  obtain ⟨hflat, hdepth, -⟩ := hentry
  refine ⟨Nat.not_lt.mp hdepth, ?_⟩
  intro hrecursion
  -- The dispatcher turns nested calls away itself; nested creations are set up without a frame.
  cases request with
  | create caller initCode gas value =>
      obtain ⟨next, -, -, hnested⟩ := exists_of_opening?_create hopening
      simpa [hrecursion] using hnested
  | _ => simpa [hrecursion, Request.isCreate] using hflat

end Frames

/-! ## How a frame is settled -/

theorem enter_settled (s : Setting) (exec : Exec) (snapshot : Nat) (frame : Frame)
    (target : Address) (entry : TraceEntry) (static : Bool) (m : Machine) {run : Run}
    (hrun : run = runFrame s exec (frame.start s target entry static m).1
      (frame.start s target entry static m).2.1 (frame.start s target entry static m).2.2) :
    (enter s exec snapshot frame target entry static m).1.result = run.result ∧
      (enter s exec snapshot frame target entry static m).1.gasLeft =
        settledGas run.result run.frame.gas ∧
      (enter s exec snapshot frame target entry static m).2.world =
        if run.result.isOk then run.machine.world else run.machine.world.revert snapshot := by
  simp only [Frame.start] at hrun
  refine ⟨?_, ?_, ?_⟩
  · rw [hrun]
    rfl
  · rw [hrun]
    rfl
  · simp only [enter, ← hrun, Machine.traceEnd_world]
    cases run.result <;> rfl

theorem enterCreate_settled (s : Setting) (exec : Exec) {m : Machine} {caller : Address}
    {initCode : Bytes} {gas : Gas} {value : Wei} {next : Nonce} {w : World} {address : Address}
    {done : Run} (hnext : (m.world.nonce caller).next? = some next)
    (hw : w = m.world.setNonce caller next)
    (haddress : address = Address.ofCreation caller (m.world.nonce caller))
    (hfree : w.isTaken address = false)
    (hrun : (s.env.limits.noRecursion && decide (0 < m.depth)) = false)
    (hdone : done = deposit s address (runFrame s exec
      (creationFrame caller address initCode gas value) []
      (({ m with world := creationWorld s w caller address value } : Machine).traceStart s
        { caller, target := address, create := true, input := initCode, gas, value }))) :
    (enterCreate s exec caller initCode gas value m).1.result = done.result ∧
      (enterCreate s exec caller initCode gas value m).1.gasLeft =
        (if keepsCreation s.rules done.result then done.frame.gas
        else settledGas done.result done.frame.gas) ∧
      (enterCreate s exec caller initCode gas value m).2.world =
        if keepsCreation s.rules done.result then done.machine.world
        else done.machine.world.revert w.snapshot.1 := by
  subst hw haddress
  simp only [creationFrame, creationWorld] at hdone
  simp only [enterCreate, hnext, hfree, hrun, Bool.false_eq_true, if_false, ← hdone,
    Machine.traceEnd_world, true_and]
  split
  · exact ⟨rfl, rfl⟩
  · exact ⟨rfl, rfl⟩

/-- The world that a frame which does not keep its changes goes back to: for a creation, the one in
which the creator's nonce is counted up. -/
def Request.base (w : World) : Request → World
  | create caller _ _ _ => w.setNonce caller (w.nonce caller + 1)
  | _ => w

theorem Request.keeps_error_of_call {request : Request} (h : request.isCreate = false)
    (rules : Rules) (fault : Fault) : request.keeps rules (.error fault) = false := by
  rw [keeps, h]
  rfl

/-- A request that is no creation and sets a frame up. -/
theorem answer_eq_enter {s : Setting} {m start : Machine} {request : Request} {f : Frame}
    {input : Bytes} (hentry : refuse? s m request = none) (hcall : request.isCreate = false)
    (hopening : request.opening? s m = some (f, input, start)) :
    ∃ frame target entry static m', frame.start s target entry static m' = (f, input, start) ∧
      ∀ exec, answer s exec request m =
        enter s exec m.world.snapshot.1 frame target entry static m' := by
  cases request with
  | call caller target input gas value =>
      have hhas : m.world.snapshot.2.hasAccount target = m.world.hasAccount target := rfl
      simp only [Request.opening?] at hopening
      split at hopening
      · cases hopening
      · rename_i hreal
        refine ⟨_, _, _, _, _, Option.some.inj hopening, fun exec ↦ ?_⟩
        simp only [answer, hentry, enterCall, hhas, if_neg hreal]
        rfl
  | create caller initCode gas value => cases hcall
  | _ =>
      refine ⟨_, _, _, _, _, Option.some.inj hopening, fun exec ↦ ?_⟩
      simp only [answer, hentry, enterBorrowed]

/-- A fault that code ends with is the answer's, whatever the fault is.  What becomes of gas and world
hangs on whether the request keeps its changes. -/
theorem answer_of_faulted_code {s : Setting} {exec : Exec} {m start : Machine} {request : Request}
    {f : Frame} {input : Bytes} {fault : Fault} {run : Run}
    (hcode : request.codeRun? s m = some (f, input, start)) (hrun : run = exec f input start)
    (hfault : run.result = .error fault) :
    (answer s exec request m).1.result = .error fault ∧
      (answer s exec request m).1.gasLeft =
        (if request.keeps s.rules (.error fault) then run.frame.gas
        else settledGas (.error fault) run.frame.gas) ∧
      (answer s exec request m).2.world =
        if request.keeps s.rules (.error fault) then run.machine.world
        else run.machine.world.revert (request.base m.world).snapshot.1 := by
  obtain ⟨hentry, hopening, hruns⟩ := Request.codeRun?_eq_some_iff.mp hcode
  cases hcreate : request.isCreate with
  | false =>
      obtain ⟨frame, target, entry, static, m', hstart, hanswer⟩ :=
        answer_eq_enter hentry hcreate hopening
      have hcalled : run = runFrame s exec (frame.start s target entry static m').1
          (frame.start s target entry static m').2.1 (frame.start s target entry static m').2.2 := by
        rw [hstart, runFrame_of_runsCode hruns, hrun]
      obtain ⟨hresult, hgas, hworld⟩ :=
        enter_settled s exec m.world.snapshot.1 frame target entry static m' hcalled
      have hbase : request.base m.world = m.world := by
        cases request <;> first | rfl | cases hcreate
      rw [hanswer, hresult, hgas, hworld, hfault, Request.keeps_error_of_call hcreate, hbase]
      exact ⟨rfl, rfl, rfl⟩
  | true =>
      cases request with
      | create caller initCode gas value =>
          -- A fault of the initial code leaves nothing to deposit.
          have hdone : run = deposit s (Address.ofCreation caller (m.world.nonce caller))
              (runFrame s exec f input start) := by
            rw [runFrame_of_runsCode hruns, ← hrun, deposit, hfault]
          obtain ⟨next, hnext, hfree, hnested⟩ := Request.exists_of_opening?_create hopening
          rw [Request.opening?_create hnext rfl rfl hfree hnested] at hopening
          cases hopening
          obtain ⟨-, rfl⟩ := Nonce.next?_eq_some_iff.mp hnext
          obtain ⟨hresult, hgas, hworld⟩ :=
            enterCreate_settled s exec hnext rfl rfl hfree hnested hdone
          simp only [answer, hentry]
          rw [hresult, hgas, hworld, hfault, Request.keeps_create]
          exact ⟨rfl, rfl, rfl⟩
      | _ => cases hcreate

/-! ## From the opening of a frame to its close -/

/-- What is done once the code of a request has run: a creation deposits its code, what the frame
does not keep is taken back, and the trace is completed. -/
def Request.close (s : Setting) (m : Machine) (request : Request) (run : Run) : Outcome × Machine :=
  match request with
  | create caller initCode gas value =>
    let address := Address.ofCreation caller (m.world.nonce caller)
    let done := deposit s address run
    let w := (Request.create caller initCode gas value).base m.world
    let (gasLeft, m) :=
      if keepsCreation s.rules done.result then (done.frame.gas, done.machine)
      else
        (settledGas done.result done.frame.gas,
          { done.machine with world := done.machine.world.revert w.snapshot.1 })
    (⟨done.result, gasLeft, some address⟩, m.traceEnd s done.result gas gasLeft)
  | _ =>
    let gasLeft := settledGas run.result run.frame.gas
    let m := { run.machine with readOnly := m.readOnly, world := run.settle m.world.snapshot.1 }
    (⟨run.result, gasLeft, none⟩, m.traceEnd s run.result request.gas gasLeft)

theorem enter_eq_close {s : Setting} {exec : Exec} {m m' : Machine} {request : Request}
    {frame : Frame} {target : Address} {entry : TraceEntry} {static : Bool}
    (hcall : request.isCreate = false) (hgas : entry.gas = request.gas)
    (hro : m'.readOnly = m.readOnly) :
    enter s exec m.world.snapshot.1 frame target entry static m' =
      request.close s m (runFrame s exec (frame.start s target entry static m').1
        (frame.start s target entry static m').2.1 (frame.start s target entry static m').2.2) := by
  simp only [Frame.start, enter]
  generalize runFrame s exec _ _ _ = run
  obtain ⟨result, frame, machine⟩ := run
  cases request with
  | create caller initCode gas value => cases hcall
  | _ => cases result <;> simp [Request.close, Run.settle, hgas, hro]

/-- A request that sets a frame up is answered by running the frame and closing it. -/
theorem answer_eq_close {s : Setting} {m start : Machine} {request : Request} {f : Frame}
    {input : Bytes} (exec : Exec) (hentry : refuse? s m request = none)
    (hopening : request.opening? s m = some (f, input, start)) :
    answer s exec request m = request.close s m (runFrame s exec f input start) := by
  cases request with
  | call caller target input gas value =>
      have hhas : m.world.snapshot.2.hasAccount target = m.world.hasAccount target := rfl
      simp only [Request.opening?] at hopening
      split at hopening
      · cases hopening
      · rename_i hreal
        cases hopening
        simp only [answer, hentry, enterCall, hhas, if_neg hreal]
        exact enter_eq_close rfl rfl rfl
  | create caller initCode gas value =>
      obtain ⟨next, hnext, hfree, hnested⟩ := Request.exists_of_opening?_create hopening
      rw [Request.opening?_create hnext rfl rfl hfree hnested] at hopening
      cases hopening
      obtain ⟨-, rfl⟩ := Nonce.next?_eq_some_iff.mp hnext
      simp only [answer, hentry, enterCreate, hnext, hfree, hnested, Bool.false_eq_true, if_false]
      rfl
  | _ =>
      cases hopening
      simp only [answer, hentry, enterBorrowed]
      exact enter_eq_close rfl rfl rfl

/-- A call that is let through and sets no frame up is skipped, and stands in the trace. -/
theorem answer_of_unopened_call {s : Setting} {m : Machine} {caller target : Address} {input : Bytes}
    {gas : Gas} {value : Wei} (exec : Exec)
    (hentry : refuse? s m (.call caller target input gas value) = none)
    (hopening : (Request.call caller target input gas value).opening? s m = none) :
    answer s exec (.call caller target input gas value) m =
      (.skipped gas, (({ m with world := m.world.snapshot.2 } : Machine).traceStart s
        { caller, target, create := false, input, gas, value }).traceEnd s (.ok []) gas gas) := by
  have hhas : m.world.snapshot.2.hasAccount target = m.world.hasAccount target := rfl
  simp only [Request.opening?, ite_eq_left_iff, reduceCtorEq, imp_false, not_not] at hopening
  simp only [answer, hentry, enterCall, hhas, if_pos hopening]

end MeteredLedger
