import MeteredLedger.Proofs.CodeRun

/-!
# Runs without a trace

Nothing looks at the trace, so a run that keeps none is the same run.  One way to run code shadows
another if it does on a machine without trace what the other one does on the machine.  A dispatcher
that shadows another passes this on to the scripts that ask it for frames, and scripts pass it on to
the dispatcher of the level above.
-/

namespace MeteredLedger

open Std

def Env.untraced (env : Env) : Env := { env with traced := false }

def Setting.untraced (s : Setting) : Setting := { s with env := s.env.untraced }

def Machine.untraced (m : Machine) : Machine :=
  { m with monitor := { m.monitor with trace := #[] } }

def Run.untraced (run : Run) : Run := { run with machine := run.machine.untraced }

def Step.untraced : Step → Step
  | next f m => next f m.untraced
  | stop result f m => stop result f m.untraced

/-- The first way to run code does without a trace what the second one does. -/
def Exec.Shadows (plain exec : Exec) : Prop :=
  ∀ f input m, plain f input m.untraced = (exec f input m).untraced

def Dispatcher.Shadows (plain d : Dispatcher) : Prop :=
  ∀ request m, plain request m.untraced = ((d request m).1, (d request m).2.untraced)

/-! ## Operations and scripts -/

section Operations

variable {plain d : Dispatcher} (h : plain.Shadows d) (input : Bytes) (f : Frame) (m : Machine)

theorem Step.ofWrite_untraced (update : World → World) :
    Step.ofWrite f m.untraced (m.untraced.write update) =
      (Step.ofWrite f m (m.write update)).untraced := by
  have hro : m.untraced.readOnly = m.readOnly := rfl
  simp only [Machine.write, hro]
  split <;> rfl

include h

theorem Op.step_untraced (op : Op) :
    op.step plain input f m.untraced = (op.step d input f m).untraced := by
  cases hrequest : op.request? input f with
  | some request =>
      rw [Op.step_request hrequest, Op.step_request hrequest, h request m]
      rfl
  | none =>
      cases op with
      | burn gas =>
          simp only [Op.step]
          cases f.pay? gas <;> rfl
      | call kind target gas value => cases hrequest
      | callSelf gas => cases hrequest
      | create initCode gas value => cases hrequest
      | output data => rfl
      | revert data => rfl
      | fail => rfl
      | _ => exact Step.ofWrite_untraced f m _

theorem runOps_untraced (ops : List Op) :
    runOps (Op.step plain input) ops f m.untraced =
      (runOps (Op.step d input) ops f m).untraced := by
  induction ops generalizing f m with
  | nil => rfl
  | cons op ops ih =>
      have hcancelled : m.untraced.monitor.cancelled = m.monitor.cancelled := rfl
      simp only [runOps, hcancelled, Op.step_untraced h]
      split
      · rfl
      · cases op.step d input f m with
        | next f' m' => exact ih f' m'
        | stop result f' m' => rfl

theorem scriptEngine_shadows (table : ExtTreeMap Bytes (List Op)) :
    Exec.Shadows (scriptEngine table plain) (scriptEngine table d) := by
  intro f input m
  unfold scriptEngine runTable
  split
  · exact runOps_untraced h input f m _
  · rfl

end Operations

/-! ## Frames -/

namespace Machine

variable (s : Setting) (m : Machine)

@[simp] theorem untraced_traceStart (entry : TraceEntry) :
    (m.traceStart s entry).untraced = m.untraced := by
  unfold traceStart
  split <;> rfl

@[simp] theorem untraced_traceEnd (result : Except Fault Bytes) (gas gasLeft : Gas) :
    (m.traceEnd s result gas gasLeft).untraced = m.untraced := by
  unfold traceEnd
  split <;> rfl

@[simp] theorem traceStart_untraced (entry : TraceEntry) :
    m.traceStart s.untraced entry = m := by
  simp [traceStart, Setting.untraced, Env.untraced]

@[simp] theorem traceEnd_untraced (result : Except Fault Bytes) (gas gasLeft : Gas) :
    m.traceEnd s.untraced result gas gasLeft = m := by
  simp [traceEnd, Setting.untraced, Env.untraced]

end Machine

theorem Frame.start_untraced {s : Setting} {m m' start : Machine} {frame f : Frame}
    {target : Address} {entry : TraceEntry} {static : Bool} {input : Bytes}
    (h : frame.start s target entry static m = (f, input, start)) (hm : m' = m.untraced) :
    frame.start s.untraced target entry static m' = (f, input, start.untraced) := by
  subst hm
  cases h
  simp only [Frame.start, Machine.traceStart_untraced]
  unfold Machine.traceStart
  split <;> rfl

section Requests

variable {s : Setting} {m start : Machine} {request : Request} {f : Frame} {input : Bytes}

theorem Request.opening?_untraced (h : request.opening? s m = some (f, input, start)) :
    request.opening? s.untraced m.untraced = some (f, input, start.untraced) := by
  cases request with
  | call caller target input gas value =>
      simp only [opening?] at h
      split at h
      · cases h
      · rename_i hreal
        exact (if_neg hreal).trans
          (congrArg some (Frame.start_untraced (Option.some.inj h) rfl))
  | create caller initCode gas value =>
      obtain ⟨next, hnext, hfree, hnested⟩ := Request.exists_of_opening?_create h
      rw [Request.opening?_create hnext rfl rfl hfree hnested] at h
      cases h
      refine (Request.opening?_create (s := s.untraced) (m := m.untraced) hnext rfl rfl hfree
        hnested).trans ?_
      rw [Machine.traceStart_untraced, Machine.untraced_traceStart]
      rfl
  | _ => exact congrArg some (Frame.start_untraced (Option.some.inj h) rfl)

theorem refuse?_untraced : refuse? s.untraced m.untraced request = refuse? s m request := rfl

theorem deposit_untraced (address : Address) (run : Run) :
    deposit s.untraced address run.untraced = (deposit s address run).untraced := by
  obtain ⟨result, frame, machine⟩ := run
  cases result with
  | error fault => rfl
  | ok code =>
      have hsize : s.untraced.env.limits.maxCodeSize = s.env.limits.maxCodeSize := rfl
      simp only [deposit, Run.untraced, hsize]
      split
      · rfl
      · cases frame.pay? (Gas.codeDeposit code.length) <;> rfl

theorem Request.close_untraced (run : Run) :
    request.close s.untraced m.untraced run.untraced =
      ((request.close s m run).1, (request.close s m run).2.untraced) := by
  cases request with
  | create caller initCode gas value =>
      have hrules : s.untraced.rules = s.rules := rfl
      have hworld : m.untraced.world = m.world := rfl
      simp only [close, deposit_untraced, hrules, hworld, Machine.traceEnd_untraced,
        Machine.untraced_traceEnd]
      generalize deposit s _ run = done
      have hresult : done.untraced.result = done.result := rfl
      rw [hresult]
      split <;> rfl
  | _ =>
      simp only [close, Machine.traceEnd_untraced, Machine.untraced_traceEnd]
      obtain ⟨result, frame, machine⟩ := run
      cases result <;> rfl

theorem answer_untraced_of_unopened (plain exec : Exec) (hentry : refuse? s m request = none)
    (hopening : request.opening? s m = none) :
    answer s.untraced plain request m.untraced =
      ((answer s exec request m).1, (answer s exec request m).2.untraced) := by
  cases request with
  | call caller target input gas value =>
      have hopening' : (Request.call caller target input gas value).opening? s.untraced m.untraced =
          none := by
        simp only [Request.opening?, ite_eq_left_iff, reduceCtorEq, imp_false] at hopening ⊢
        exact hopening
      rw [answer_of_unopened_call exec hentry hopening, answer_of_unopened_call plain
        (refuse?_untraced.trans hentry) hopening', Machine.traceEnd_untraced,
        Machine.traceStart_untraced, Machine.untraced_traceEnd, Machine.untraced_traceStart]
      rfl
  | create caller initCode gas value =>
      have hnonce : m.untraced.world = m.world := rfl
      have hlimits : s.untraced.env.limits = s.env.limits := rfl
      have hdepth : m.untraced.depth = m.depth := rfl
      simp only [Request.opening?] at hopening
      simp only [answer, refuse?_untraced, hentry, enterCreate, hnonce]
      cases hnext : (m.world.nonce caller).next? with
      | none => rfl
      | some next =>
          simp only [hnext] at hopening ⊢
          split
          · rfl
          · rename_i hfree
            have hskip : (s.env.limits.noRecursion && decide (0 < m.depth)) = true := by
              simpa [hfree, Nat.pos_iff_ne_zero] using hopening
            simp only [hlimits, hdepth, hskip, if_true]
            rfl
  | _ => cases hopening

end Requests

/-! ## Dispatchers -/

namespace Exec.Shadows

variable {plain exec : Exec}

theorem deeper (h : plain.Shadows exec) : (deeper plain).Shadows (MeteredLedger.deeper exec) := by
  intro f input m
  have hrun : plain f input { m.untraced with depth := m.untraced.depth + 1 } = _ :=
    h f input { m with depth := m.depth + 1 }
  simp only [MeteredLedger.deeper, hrun]
  rfl

theorem runFrame (h : plain.Shadows exec) (s : Setting) :
    (runFrame s.untraced plain).Shadows (MeteredLedger.runFrame s exec) := by
  intro f input m
  have hcancelled : m.untraced.monitor.cancelled = m.monitor.cancelled := rfl
  have hprecompiles : s.untraced.env.precompiles = s.env.precompiles := rfl
  simp only [MeteredLedger.runFrame, hcancelled, hprecompiles]
  split
  · rfl
  · split
    · rfl
    · split
      · rfl
      · exact h f input m

theorem answer (h : plain.Shadows exec) (s : Setting) :
    (answer s.untraced plain).Shadows (MeteredLedger.answer s exec) := by
  intro request m
  cases hentry : refuse? s m request with
  | some outcome => rw [answer_of_refusal hentry, answer_of_refusal (refuse?_untraced.trans hentry)]
  | none =>
      cases hopening : request.opening? s m with
      | none => exact answer_untraced_of_unopened plain exec hentry hopening
      | some x =>
          obtain ⟨f, input, start⟩ := x
          rw [answer_eq_close exec hentry hopening, answer_eq_close plain
            (refuse?_untraced.trans hentry) (Request.opening?_untraced hopening),
            h.runFrame s, Request.close_untraced]

end Exec.Shadows

theorem dispatchWithin_shadows (s : Setting) (table : ExtTreeMap Bytes (List Op)) (levels : Nat) :
    (dispatchWithin s.untraced (scriptEngine table) levels).Shadows
      (dispatchWithin s (scriptEngine table) levels) := by
  induction levels with
  | zero => exact Exec.Shadows.answer (fun _ _ _ ↦ rfl) s
  | succ levels ih => exact (scriptEngine_shadows ih table).deeper.answer s

theorem dispatch_shadows {s : Setting} {table : ExtTreeMap Bytes (List Op)}
    (hs : s.env.interpreter = .script table) : (dispatch s.untraced).Shadows (dispatch s) := by
  intro request m
  rw [dispatch_eq_script hs, dispatch_eq_script (s := s.untraced) hs]
  exact dispatchWithin_shadows s table _ request m

end MeteredLedger
