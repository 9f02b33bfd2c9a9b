import MeteredLedger.Proofs.CodeRun
import MeteredLedger.Proofs.Permanence

/-!
# Evaluation ends, and how deep it goes

The dispatcher is defined with an allowance of levels, so that it ends by definition; this module says
that the allowance is never what ends it.  `Evaluates` is evaluation without an allowance, as a
relation: a request is answered by the run of its code one level deeper, a script runs its operations
in order, and an operation that asks for a frame waits for the answer.  A derivation is finite, and
with it stand the depths at which scripts were run.  Every request has a derivation, by induction on
the levels that are left below the limit and, within a level, on the operations that are left of a
script; gas plays no part.  What is derived is what the dispatcher answers.
-/

namespace MeteredLedger

open Std

/-! ## The dispatcher without its allowance -/

section Levels

variable {s : Setting} {table : ExtTreeMap Bytes (List Op)}

theorem dispatch_kept (hs : s.env.interpreter = .script table) (request : Request) (m : Machine) :
    Kept (fun _ ↦ World.Advances) m (dispatch s request m).2 := by
  rw [dispatch_eq_script hs]
  exact (frameRelation_advances s).dispatchWith (scriptEngine_isEffectful table) request m
    (.inr trivial)

theorem Effect.depth {room : World → Prop} {nested : Dispatcher} {f f' : Frame} {m m' : Machine}
    (hnested : ∀ request, (nested request m).2.depth = m.depth) (h : Effect room nested f m f' m') :
    m'.depth = m.depth := by
  cases h with
  | nest request hgas hcaller => exact hnested request
  | _ => rfl

/-- The dispatcher answers a request by running its code one level deeper, with itself to answer what
the code asks for. -/
theorem dispatch_eq_answer (hs : s.env.interpreter = .script table) (request : Request)
    (m : Machine) :
    dispatch s request m = answer s (deeper (scriptEngine table (dispatch s))) request m := by
  rw [dispatch_eq_script hs, dispatchWith, dispatchWithin_eq_answer]
  apply answer_congr
  intro f input start hcode
  obtain ⟨hdepth, hlimit, -⟩ := Request.codeRun?_depth hcode
  have hlevels : s.env.limits.maxCallDepth + 1 - m.depth =
      (s.env.limits.maxCallDepth - m.depth) + 1 := by omega
  rw [hlevels, codeRunner]
  simp only [deeper]
  -- The script meets machines of its own depth only, where the allowance is what is left of it.
  rw [scriptEngine_congr (P := fun m' ↦ m'.depth = m.depth + 1) _ _ table f input
    (congrArg (· + 1) hdepth)]
  · intro request' m' hm'
    rw [dispatchWith, hm', Nat.add_sub_add_right]
  · intro f f' m₁ m₂ heffect hm₁
    rw [← dispatch_eq_script hs] at heffect
    rw [heffect.depth fun request ↦ (dispatch_kept hs request m₁).depth, hm₁]

end Levels

/-! ## Derivations -/

/-- What is evaluated: a request, the code of a frame on an input, or the rest of a script. -/
inductive Task where
  | request (request : Request)
  | code (f : Frame) (input : Bytes)
  | ops (ops : List Op) (f : Frame) (input : Bytes)

/-- What evaluation gives. -/
inductive Value where
  | answered (answer : Outcome × Machine)
  | ran (run : Run)

/-- A run as it looks one level further out. -/
def Run.ascend (run : Run) : Run :=
  { run with machine := { run.machine with depth := run.machine.depth - 1 } }

/-- Evaluation of a task on a machine, with the depths at which code was run on the way. -/
inductive Evaluates (s : Setting) (table : ExtTreeMap Bytes (List Op)) :
    Task → Machine → Value → List Nat → Prop
  /-- A request for which no code runs, so that it is no matter how code would be run. -/
  | settled {request : Request} {m : Machine} (hcode : request.codeRun? s m = none) (exec : Exec) :
      Evaluates s table (.request request) m (.answered (answer s exec request m)) []
  | entered {request : Request} {m start : Machine} {f : Frame} {input : Bytes} {run : Run}
      {depths : List Nat} (hcode : request.codeRun? s m = some (f, input, start))
      (hrun : Evaluates s table (.code f input) { start with depth := start.depth + 1 } (.ran run)
        depths) :
      Evaluates s table (.request request) m
        (.answered (answer s (fun _ _ _ ↦ run.ascend) request m)) depths
  | unknown {f : Frame} {input : Bytes} {m : Machine} (hops : table[f.code]? = none) :
      Evaluates s table (.code f input) m (.ran ⟨.error (.interpreter "unknown code"), f, m⟩)
        [m.depth]
  | known {f : Frame} {input : Bytes} {m : Machine} {ops : List Op} {run : Run} {depths : List Nat}
      (hops : table[f.code]? = some ops)
      (hrun : Evaluates s table (.ops ops f input) m (.ran run) depths) :
      Evaluates s table (.code f input) m (.ran run) (m.depth :: depths)
  | done {f : Frame} {input : Bytes} {m : Machine} :
      Evaluates s table (.ops [] f input) m (.ran ⟨.ok [], f, m⟩) []
  | cancelled {op : Op} {ops : List Op} {f : Frame} {input : Bytes} {m : Machine}
      (hcancelled : m.monitor.cancelled = true) :
      Evaluates s table (.ops (op :: ops) f input) m (.ran ⟨.error .cancelled, f, m⟩) []
  | stopped {op : Op} {ops : List Op} {f f' : Frame} {input : Bytes} {m m' : Machine}
      {result : Except Fault Bytes} (hgo : m.monitor.cancelled = false)
      (hstep : ∀ nested, op.step nested input f m = .stop result f' m') :
      Evaluates s table (.ops (op :: ops) f input) m (.ran ⟨result, f', m'⟩) []
  | stepped {op : Op} {ops : List Op} {f f' : Frame} {input : Bytes} {m m' : Machine} {run : Run}
      {depths : List Nat} (hgo : m.monitor.cancelled = false)
      (hstep : ∀ nested, op.step nested input f m = .next f' m')
      (hrest : Evaluates s table (.ops ops f' input) m' (.ran run) depths) :
      Evaluates s table (.ops (op :: ops) f input) m (.ran run) depths
  | nested {op : Op} {ops : List Op} {f : Frame} {input : Bytes} {m m' : Machine} {request : Request}
      {outcome : Outcome} {run : Run} {depths depths' : List Nat} (hgo : m.monitor.cancelled = false)
      (hrequest : op.request? input f = some request)
      (hanswer : Evaluates s table (.request request) m (.answered (outcome, m')) depths)
      (hrest : Evaluates s table
        (.ops ops { f with gas := f.gas - request.gas + outcome.gasLeft } input) m' (.ran run)
        depths') :
      Evaluates s table (.ops (op :: ops) f input) m (.ran run) (depths ++ depths')

/-- What the dispatcher and the scripts that it runs make of a task. -/
def Task.value (s : Setting) (table : ExtTreeMap Bytes (List Op)) : Task → Machine → Value
  | .request asked, m => .answered (dispatch s asked m)
  | .code f input, m => .ran (scriptEngine table (dispatch s) f input m)
  | .ops rest f input, m => .ran (runOps (Op.step (dispatch s) input) rest f m)

section Derivations

variable {s : Setting} {table : ExtTreeMap Bytes (List Op)} {task : Task} {m : Machine}
  {value : Value} {depths : List Nat}

theorem Evaluates.value_eq (hs : s.env.interpreter = .script table)
    (h : Evaluates s table task m value depths) : value = task.value s table m := by
  induction h with
  | settled hcode exec =>
      rw [Task.value, dispatch_eq_answer hs]
      refine congrArg Value.answered (answer_congr fun f input start hsome ↦ ?_)
      rw [hcode] at hsome
      cases hsome
  | entered hcode hrun ih =>
      rw [Task.value, dispatch_eq_answer hs]
      refine congrArg Value.answered (answer_congr fun f input start hsome ↦ ?_)
      cases hcode.symm.trans hsome
      cases ih
      rfl
  | unknown hops => simp only [Task.value, scriptEngine, runTable, hops]
  | known hops hrun ih => simpa only [Task.value, scriptEngine, runTable, hops] using ih
  | done => rfl
  | cancelled hcancelled => simp only [Task.value, runOps, hcancelled, if_true]
  | stopped hgo hstep => simp only [Task.value, runOps, hgo, hstep, Bool.false_eq_true, if_false]
  | stepped hgo hstep hrest ih =>
      simpa only [Task.value, runOps, hgo, hstep, Bool.false_eq_true, if_false] using ih
  | nested hgo hrequest hanswer hrest ihanswer ihrest =>
      have hanswered := Value.answered.inj ihanswer
      simpa only [Task.value, runOps, hgo, Op.step_request hrequest, ← hanswered,
        Bool.false_eq_true, if_false] using ihrest

theorem Evaluates.answer_eq (hs : s.env.interpreter = .script table) {request : Request}
    {answer : Outcome × Machine} (h : Evaluates s table (.request request) m (.answered answer) depths) :
    answer = dispatch s request m := by
  cases h.value_eq hs
  rfl

theorem Evaluates.answer_depth (hs : s.env.interpreter = .script table) {request : Request}
    {outcome : Outcome} {m' : Machine}
    (h : Evaluates s table (.request request) m (.answered (outcome, m')) depths) :
    m'.depth = m.depth := by
  have hkept := (dispatch_kept hs request m).depth
  rwa [← h.answer_eq hs] at hkept

/-- An operation that asks for nothing stays at its depth. -/
theorem Op.step_depth {op : Op} {f : Frame} {input : Bytes} {step : Step}
    (h : ∀ nested, op.step nested input f m = step) : step.machine.depth = m.depth := by
  -- Any dispatcher will do, so take one that leaves the machine alone.
  have heffect : Effect (fun _ ↦ True) (fun request m ↦ (.skipped request.gas, m)) f m step.frame
      step.machine := by
    rw [← h fun request m ↦ (.skipped request.gas, m)]
    exact Op.step_effect (fun _ _ _ _ ↦ trivial) input
  exact heffect.depth fun _ ↦ rfl

/-! ## Depths -/

/-- Where code may run: no deeper than the limit and, where frames may not nest, at the outermost
level. -/
structure Setting.RunsAt (s : Setting) (depth : Nat) : Prop where
  limit : depth ≤ s.env.limits.maxCallDepth + 1
  flat : s.env.limits.noRecursion = true → depth = 1

/-- The least depth at which a task can run code. -/
def Task.lowest : Task → Machine → Nat
  | .request _, m => m.depth + 1
  | .code _ _, m => m.depth
  | .ops _ _ _, m => m.depth + 1

/-- The tasks of a script belong to code that runs already. -/
def Task.Fits (s : Setting) : Task → Machine → Prop
  | .request _, _ => True
  | .code _ _, m => s.RunsAt m.depth
  | .ops _ _ _, m => s.RunsAt m.depth

theorem Evaluates.runsAt (hs : s.env.interpreter = .script table)
    (h : Evaluates s table task m value depths) (hfits : task.Fits s m) :
    ∀ depth ∈ depths, task.lowest m ≤ depth ∧ s.RunsAt depth := by
  induction h with
  | settled hcode exec => simp
  | @entered _ m start f input _ _ hcode hrun ih =>
      obtain ⟨hdepth, hlimit, hflat⟩ := Request.codeRun?_depth hcode
      have hruns : s.RunsAt (start.depth + 1) := by
        rw [hdepth]
        exact ⟨Nat.succ_le_succ hlimit, fun hrecursion ↦ by rw [hflat hrecursion]⟩
      intro depth hmem
      have hbound := ih hruns depth hmem
      rw [Task.lowest, hdepth] at hbound
      exact hbound
  | unknown hops =>
      intro depth hmem
      cases List.mem_singleton.mp hmem
      exact ⟨Nat.le_refl _, hfits⟩
  | known hops hrun ih =>
      intro depth hmem
      rcases List.mem_cons.mp hmem with rfl | hrest
      · exact ⟨Nat.le_refl _, hfits⟩
      · obtain ⟨hlow, hruns⟩ := ih hfits depth hrest
        exact ⟨Nat.le_of_succ_le hlow, hruns⟩
  | done => simp
  | cancelled hcancelled => simp
  | stopped hgo hstep => simp
  | @stepped _ _ _ _ _ m m' _ _ hgo hstep hrest ih =>
      have hdepth : m'.depth = m.depth := Op.step_depth hstep
      simp only [Task.Fits, Task.lowest, hdepth] at ih
      exact ih hfits
  | @nested _ _ _ _ m m' request _ _ _ _ hgo hrequest hanswer hrest ihanswer ihrest =>
      have hdepth : m'.depth = m.depth := hanswer.answer_depth hs
      simp only [Task.Fits, Task.lowest, hdepth] at ihrest
      intro depth hmem
      rcases List.mem_append.mp hmem with hfirst | hsecond
      · exact ihanswer trivial depth hfirst
      · exact ihrest hfits depth hsecond

/-! ## Termination -/

/-- A script ends if the requests that it makes are answered. -/
theorem exists_evaluates_ops (hs : s.env.interpreter = .script table)
    (hrequests : ∀ request (m' : Machine), m'.depth = m.depth →
      ∃ answer depths, Evaluates s table (.request request) m' (.answered answer) depths)
    (ops : List Op) (f : Frame) (input : Bytes) :
    ∃ run depths, Evaluates s table (.ops ops f input) m (.ran run) depths := by
  induction ops generalizing f m with
  | nil => exact ⟨_, _, .done⟩
  | cons op ops ih =>
      cases hgo : m.monitor.cancelled with
      | true => exact ⟨_, _, .cancelled hgo⟩
      | false =>
          cases hrequest : op.request? input f with
          | some request =>
              obtain ⟨⟨outcome, m'⟩, depths, hanswer⟩ := hrequests request m rfl
              rw [← hanswer.answer_depth hs] at hrequests
              obtain ⟨run, depths', hrest⟩ := ih hrequests
                { f with gas := f.gas - request.gas + outcome.gasLeft }
              exact ⟨run, _, .nested hgo hrequest hanswer hrest⟩
          | none =>
              have hplain : ∀ nested, op.step nested input f m =
                  op.step (dispatch s) input f m := fun nested ↦ Op.step_plain hrequest _ _
              cases hstep : op.step (dispatch s) input f m with
              | stop result f' m' =>
                  rw [hstep] at hplain
                  exact ⟨_, _, .stopped hgo hplain⟩
              | next f' m' =>
                  rw [hstep] at hplain
                  rw [← (Op.step_depth hplain : m'.depth = m.depth)] at hrequests
                  obtain ⟨run, depths, hrest⟩ := ih hrequests f'
                  exact ⟨run, depths, .stepped hgo hplain hrest⟩

theorem exists_evaluates_code (hs : s.env.interpreter = .script table)
    (hrequests : ∀ request (m' : Machine), m'.depth = m.depth →
      ∃ answer depths, Evaluates s table (.request request) m' (.answered answer) depths)
    (f : Frame) (input : Bytes) :
    ∃ run depths, Evaluates s table (.code f input) m (.ran run) depths := by
  cases hops : table[f.code]? with
  | none => exact ⟨_, _, .unknown hops⟩
  | some ops =>
      obtain ⟨run, depths, hrun⟩ := exists_evaluates_ops hs hrequests ops f input
      exact ⟨run, _, .known hops hrun⟩

theorem exists_evaluates_request (hs : s.env.interpreter = .script table) (request : Request)
    (m : Machine) :
    ∃ answer depths, Evaluates s table (.request request) m (.answered answer) depths := by
  -- The induction is on the levels that are left; below the limit no code runs.
  induction hlevels : s.env.limits.maxCallDepth + 1 - m.depth using Nat.strongRecOn
    generalizing request m with
  | ind levels ih =>
      cases hcode : request.codeRun? s m with
      | none => exact ⟨_, _, .settled hcode fun f _ m ↦ ⟨.ok [], f, m⟩⟩
      | some code =>
          obtain ⟨f, input, start⟩ := code
          obtain ⟨hdepth, hlimit, -⟩ := Request.codeRun?_depth hcode
          have hrequests : ∀ request (m' : Machine), m'.depth = start.depth + 1 →
              ∃ answer depths, Evaluates s table (.request request) m' (.answered answer) depths := by
            intro request m' hm'
            exact ih _ (by omega) request m' rfl
          obtain ⟨run, depths, hrun⟩ := exists_evaluates_code
            (m := { start with depth := start.depth + 1 }) hs hrequests f input
          exact ⟨_, _, .entered hcode hrun⟩

end Derivations

/-- Evaluation ends, at a bounded depth.  Every request has a derivation, whatever gas there is, and
the only answer that can be derived is the dispatcher's.  Every run of a script is nested below the
request and at most one level deeper than the limit; where frames may not nest, it is at depth one.
The machine comes back at the depth and with the leave to write that it had. -/
theorem evaluation_ends_within_depth {s : Setting} {table : ExtTreeMap Bytes (List Op)}
    (hs : s.env.interpreter = .script table) (request : Request) (m : Machine) :
    (∃ depths, Evaluates s table (.request request) m (.answered (dispatch s request m)) depths) ∧
    (∀ value depths, Evaluates s table (.request request) m value depths →
      value = .answered (dispatch s request m) ∧
      ∀ depth ∈ depths, m.depth < depth ∧ depth ≤ s.env.limits.maxCallDepth + 1 ∧
        (s.env.limits.noRecursion = true → depth = 1)) ∧
    (dispatch s request m).2.depth = m.depth ∧ (dispatch s request m).2.readOnly = m.readOnly := by
  refine ⟨?_, ?_, ?_⟩
  · obtain ⟨answer, depths, h⟩ := exists_evaluates_request hs request m
    rw [h.answer_eq hs] at h
    exact ⟨depths, h⟩
  · intro value depths h
    refine ⟨h.value_eq hs, ?_⟩
    intro depth hmem
    obtain ⟨hlow, hruns⟩ := h.runsAt hs trivial depth hmem
    exact ⟨hlow, hruns.limit, hruns.flat⟩
  · have hkept := dispatch_kept hs request m
    exact ⟨hkept.depth, hkept.readOnly⟩

/-- Account 1 notes how deep it is and calls itself, at no cost. -/
def delvingTable : ExtTreeMap Bytes (List Op) :=
  (∅ : ExtTreeMap Bytes (List Op)).insert [1] [.storeDepth 1, .callSelf 0]

def delvingSetting : Setting :=
  { scriptSetting delvingTable with
    env := { (scriptSetting delvingTable).env with
      limits := { noRecursion := false, maxCallDepth := 2, maxCodeSize := 100 } } }

def delvingMachine : Machine where
  world := ({} : World).placeAccount 1 { code := [1] }

theorem delving_call_reaches_limit :
    (dispatch delvingSetting (.call 9 1 [] 0 0) delvingMachine).2.world.storageAt 1 1 = 3 ∧
      ∃ depths, Evaluates delvingSetting delvingTable (.request (.call 9 1 [] 0 0)) delvingMachine
          (.answered (dispatch delvingSetting (.call 9 1 [] 0 0) delvingMachine)) depths ∧
        ∀ depth ∈ depths, 1 ≤ depth ∧ depth ≤ 3 := by
  have hdeepest : (dispatch delvingSetting (.call 9 1 [] 0 0) delvingMachine).2.world.storageAt 1 1 =
      3 := by
    decide +kernel
  obtain ⟨⟨depths, hends⟩, hbound, -⟩ := @evaluation_ends_within_depth delvingSetting delvingTable rfl
    (.call 9 1 [] 0 0) delvingMachine
  refine ⟨hdeepest, depths, hends, ?_⟩
  intro depth hmem
  obtain ⟨hlow, hlimit, -⟩ := (hbound _ depths hends).2 depth hmem
  exact ⟨hlow, hlimit⟩

end MeteredLedger
