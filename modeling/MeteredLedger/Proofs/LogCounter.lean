import MeteredLedger.Proofs.FrameConduct
import MeteredLedger.Proofs.Rewind

/-!
# Runs in which the log counter does not go round

The counter of logs has 32 bits.  A log that meets a full counter turns it over, and going back past
that log does not restore it.  Whether this happens depends on the run.  The checked engine runs
scripts in the same way as the plain one and cancels all execution at the first log that meets a
full counter.  A run in which it never cancels is the run of the plain engine.
-/

namespace MeteredLedger

open Std

def Op.isLog : Op → Bool
  | log .. => true
  | _ => false

/-- One operation; a log that has no number left cancels all execution. -/
def Op.stepChecked (nested : Dispatcher) (input : Bytes) (op : Op) (f : Frame) (m : Machine) :
    Step :=
  if op.isLog = true ∧ m.readOnly = false ∧ ¬m.world.HasLogRoom then
    .stop (.error .cancelled) f { m with monitor := { m.monitor with cancelled := true } }
  else op.step nested input f m

def checkedEngine (table : ExtTreeMap Bytes (List Op)) : Engine := fun nested f input m ↦
  runTable table (Op.stepChecked nested input) f m

/-- No log of the run that answers the request meets a full counter. -/
def LogCounterFits (s : Setting) (table : ExtTreeMap Bytes (List Op)) (request : Request)
    (m : Machine) : Prop :=
  (dispatchWith s (checkedEngine table) request m).2.monitor.cancelled = m.monitor.cancelled

instance (s : Setting) (table : ExtTreeMap Bytes (List Op)) (request : Request) (m : Machine) :
    Decidable (LogCounterFits s table request m) := inferInstanceAs (Decidable (_ = _))

theorem checkedEngine_isEffectful (table : ExtTreeMap Bytes (List Op)) :
    (checkedEngine table).IsEffectful fun w ↦ w.HasLogRoom := by
  intro nested f input m
  apply runTable_effects
  intro op f m
  unfold Op.stepChecked
  split
  · exact Effect.halt
  · rename_i hgo
    apply Op.step_effect
    rintro topics data rfl hwrite
    by_contra hfull
    exact hgo ⟨rfl, hwrite, hfull⟩

/-! ## The checked engine against the plain one -/

/-- The first way to run code ends as the second one, or cancels. -/
def Exec.Checks (checked plain : Exec) : Prop :=
  ∀ f input m, checked f input m = plain f input m ∨
    m.monitor.cancelled = false ∧ (checked f input m).machine.monitor.cancelled = true

def Dispatcher.Checks (checked plain : Dispatcher) : Prop :=
  ∀ request m, checked request m = plain request m ∨
    m.monitor.cancelled = false ∧ (checked request m).2.monitor.cancelled = true

section Operations

variable {checked plain : Dispatcher}

theorem Frame.nest_checks (h : checked.Checks plain) (f : Frame) (gas : Gas)
    (request : Frame → Gas → Request) (m : Machine) :
    f.nest checked gas request m = f.nest plain gas request m ∨
      (f.nest checked gas request m).machine.monitor.cancelled = true := by
  rcases h (request { f with gas := f.gas - min gas f.gas } (min gas f.gas)) m with hsame | hcut
  · left
    simp only [Frame.nest, hsame]
  · right
    exact hcut.2

theorem Op.stepChecked_checks (h : checked.Checks plain) (input : Bytes) (op : Op) (f : Frame)
    (m : Machine) :
    op.stepChecked checked input f m = op.step plain input f m ∨
      (op.stepChecked checked input f m).machine.monitor.cancelled = true := by
  unfold Op.stepChecked
  split
  · exact .inr rfl
  · cases op with
    | call kind target gas value => exact Frame.nest_checks h _ _ _ _
    | callSelf gas => exact Frame.nest_checks h _ _ _ _
    | create initCode gas value => exact Frame.nest_checks h _ _ _ _
    | _ => exact .inl rfl

theorem runOps_cancelled {ω : Type} {step : ω → Frame → Machine → Step} {m : Machine}
    (h : m.monitor.cancelled = true) (ops : List ω) (f : Frame) :
    (runOps step ops f m).machine = m := by
  cases ops with
  | nil => rfl
  | cons op ops => simp only [runOps, h, if_true]

theorem runOps_checks (h : checked.Checks plain) (input : Bytes) (ops : List Op) (f : Frame)
    (m : Machine) :
    runOps (Op.stepChecked checked input) ops f m = runOps (Op.step plain input) ops f m ∨
      m.monitor.cancelled = false ∧
        (runOps (Op.stepChecked checked input) ops f m).machine.monitor.cancelled = true := by
  induction ops generalizing f m with
  | nil => exact .inl rfl
  | cons op ops ih =>
      simp only [runOps]
      cases hm : m.monitor.cancelled with
      | true => exact .inl rfl
      | false =>
          rcases Op.stepChecked_checks h input op f m with hsame | hcut
          · rw [hsame]
            cases op.step plain input f m with
            | next f' m' => exact (ih f' m').imp id fun hcut ↦ ⟨rfl, hcut.2⟩
            | stop result f' m' => exact .inl rfl
          · -- Once cancelled, the rest of the script does nothing.
            refine .inr ⟨rfl, ?_⟩
            cases hstep : op.stepChecked checked input f m with
            | next f' m' =>
                have hm' : m'.monitor.cancelled = true := by
                  rw [hstep] at hcut
                  exact hcut
                simp only [Bool.false_eq_true, if_false, runOps_cancelled hm', hm']
            | stop result f' m' =>
                rw [hstep] at hcut
                exact hcut

theorem checkedEngine_checks (h : checked.Checks plain) (table : ExtTreeMap Bytes (List Op)) :
    Exec.Checks (checkedEngine table checked) (scriptEngine table plain) := by
  intro f input m
  unfold checkedEngine scriptEngine runTable
  split
  · exact runOps_checks h input _ f m
  · exact .inl rfl

end Operations

theorem deposit_cancelled (s : Setting) (address : Address) (run : Run) :
    (deposit s address run).machine.monitor.cancelled = run.machine.monitor.cancelled := by
  rcases deposit_cases s address run with ⟨fault, hdone⟩ | ⟨code, f, -, -, -, hdone⟩ <;> rw [hdone]

namespace Exec.Checks

variable {checked plain : Exec}

theorem deeper (h : checked.Checks plain) :
    (deeper checked).Checks (MeteredLedger.deeper plain) := by
  intro f input m
  rcases h f input { m with depth := m.depth + 1 } with hsame | hcut
  · left
    simp only [MeteredLedger.deeper, hsame]
  · exact .inr hcut

theorem runFrame (h : checked.Checks plain) (s : Setting) :
    (runFrame s checked).Checks (MeteredLedger.runFrame s plain) := by
  intro f input m
  unfold MeteredLedger.runFrame
  split
  · exact .inl rfl
  · split
    · exact .inl rfl
    · split
      · exact .inl rfl
      · exact h f input m

theorem enter (h : checked.Checks plain) (s : Setting) (snapshot : Nat) (frame : Frame)
    (target : Address) (entry : TraceEntry) (static : Bool) (m : Machine) :
    enter s checked snapshot frame target entry static m =
        MeteredLedger.enter s plain snapshot frame target entry static m ∨
      m.monitor.cancelled = false ∧
        (MeteredLedger.enter s checked snapshot frame target entry static m).2.monitor.cancelled =
          true := by
  unfold MeteredLedger.enter
  rcases h.runFrame s (frame.withCode target (m.world.codeHash target) (m.world.code target))
    entry.input
    { m.traceStart s entry with readOnly := (m.traceStart s entry).readOnly || static } with
    hsame | ⟨hgo, hcut⟩
  · left
    simp only [hsame]
  · right
    refine ⟨by simpa using hgo, ?_⟩
    rw [Machine.traceEnd_cancelled]
    split <;> exact hcut

theorem enterCreate (h : checked.Checks plain) (s : Setting) (caller : Address)
    (initCode : Bytes) (gas : Gas) (value : Wei) (m : Machine) :
    enterCreate s checked caller initCode gas value m =
        MeteredLedger.enterCreate s plain caller initCode gas value m ∨
      m.monitor.cancelled = false ∧
        (MeteredLedger.enterCreate s checked caller initCode gas value m).2.monitor.cancelled =
          true := by
  cases hnext : (m.world.nonce caller).next? with
  | none =>
      left
      simp only [MeteredLedger.enterCreate, hnext]
  | some next =>
      simp only [MeteredLedger.enterCreate, hnext]
      split
      · exact .inl rfl
      · split
        · exact .inl rfl
        · generalize hstart : Machine.traceStart s _ _ = start
          generalize Frame.withCode _ _ _ _ = f
          rcases h.runFrame s f [] start with hsame | ⟨hgo, hcut⟩
          · left
            simp only [hsame]
          · right
            refine ⟨by simpa [← hstart] using hgo, ?_⟩
            rw [Machine.traceEnd_cancelled]
            split <;> simpa [deposit_cancelled] using hcut

theorem answer (h : checked.Checks plain) (s : Setting) :
    (answer s checked).Checks (MeteredLedger.answer s plain) := by
  intro request m
  unfold MeteredLedger.answer
  split
  · exact .inl rfl
  · cases request with
    | call caller target input gas value =>
        simp only [enterCall]
        split
        · exact .inl rfl
        · exact h.enter s _ _ _ _ _ _
    | callCode caller target input gas value => exact h.enter s _ _ _ _ _ _
    | delegateCall parent target input gas => exact h.enter s _ _ _ _ _ _
    | staticCall caller target input gas => exact h.enter s _ _ _ _ _ _
    | create caller initCode gas value => exact h.enterCreate s caller initCode gas value m

end Exec.Checks

theorem dispatchWithin_checks (s : Setting) (table : ExtTreeMap Bytes (List Op)) (levels : Nat) :
    (dispatchWithin s (checkedEngine table) levels).Checks
      (dispatchWithin s (scriptEngine table) levels) := by
  induction levels with
  | zero => exact fun _ _ ↦ .inl rfl
  | succ levels ih => exact (checkedEngine_checks ih table).deeper.answer s

/-- Where the counter does not go round, the checked engine gives the answer. -/
theorem LogCounterFits.dispatch_eq {s : Setting} {table : ExtTreeMap Bytes (List Op)}
    {request : Request} {m : Machine} (h : LogCounterFits s table request m)
    (hs : s.env.interpreter = .script table) :
    dispatch s request m = dispatchWith s (checkedEngine table) request m := by
  rw [dispatch_eq_script hs]
  rcases dispatchWithin_checks s table (s.env.limits.maxCallDepth + 1 - m.depth) request m with
    hsame | ⟨hgo, hcut⟩
  · exact hsame.symm
  · have hcancelled : m.monitor.cancelled = true := h.symm.trans hcut
    rw [hgo] at hcancelled
    cases hcancelled

end MeteredLedger
