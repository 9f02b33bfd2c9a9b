import Mathlib.Algebra.Ring.Nat
import MeteredLedger.Proofs.CodeRun
import MeteredLedger.Proofs.LogBook

/-!
# The logs that a run emits

Each run emits logs, some of which are taken back because a frame around them is.  Both lists are
computed here beside the machine, which is asked where a step leads and how a frame ends but not for
its book: a script emits what its operations emit, one after another, and the logs of a frame that
does not keep its changes are emitted and not kept.  The book then holds exactly the logs that are
kept, if there are numbers for all that are emitted.
-/

namespace MeteredLedger

open Std

/-- The logs of a run in order: all that were emitted, and those that were not taken back. -/
structure Emissions where
  emitted : List Log
  kept : List Log
  kept_sublist : kept.Sublist emitted

namespace Emissions

def empty : Emissions := ⟨[], [], .refl []⟩

def single (log : Log) : Emissions := ⟨[log], [log], .refl [log]⟩

def append (e e' : Emissions) : Emissions :=
  ⟨e.emitted ++ e'.emitted, e.kept ++ e'.kept, e.kept_sublist.append e'.kept_sublist⟩

/-- The emissions of a frame that keeps its changes or does not. -/
def settle (e : Emissions) (keeps : Bool) : Emissions :=
  if keeps then e else ⟨e.emitted, [], List.nil_sublist _⟩

theorem emitted_settle (e : Emissions) (keeps : Bool) : (e.settle keeps).emitted = e.emitted := by
  unfold settle
  split <;> rfl

end Emissions

/-- The emissions of the code of a frame. -/
abbrev CodeTally := Frame → Bytes → Machine → Emissions

/-- The emissions of the frame that answers a request. -/
abbrev RequestTally := Request → Machine → Emissions

/-! ## Scripts -/

def Op.emissions (tally : RequestTally) (input : Bytes) (op : Op) (f : Frame) (m : Machine) :
    Emissions :=
  match op with
  | log topics data => if m.readOnly then .empty else .single { address := f.address, topics, data }
  | call kind target gas value => tally (f.ask gas (Frame.request kind target value input)) m
  | callSelf gas => tally (f.ask gas (Frame.request .call f.address 0 input)) m
  | create initCode gas value =>
    tally (f.ask gas (Frame.request .create f.address value initCode)) m
  | _ => .empty

def opsEmissions (nested : Dispatcher) (tally : RequestTally) (input : Bytes) :
    List Op → Frame → Machine → Emissions
  | [], _, _ => .empty
  | op :: ops, f, m =>
    if m.monitor.cancelled then .empty
    else
      (op.emissions tally input f m).append
        (match op.step nested input f m with
        | .next f m => opsEmissions nested tally input ops f m
        | .stop _ _ _ => .empty)

def scriptEmissions (table : ExtTreeMap Bytes (List Op)) (nested : Dispatcher)
    (tally : RequestTally) : CodeTally := fun f input m ↦
  match table[f.code]? with
  | some ops => opsEmissions nested tally input ops f m
  | none => .empty

/-! ## Frames -/

def frameEmissions (s : Setting) (tally : CodeTally) : CodeTally := fun f input m ↦
  if m.monitor.cancelled then .empty
  else
    match f.codeAddress.bind fun a ↦ s.env.precompiles[a]? with
    | some _ => .empty
    | none => if f.code.isEmpty then .empty else tally f input m

def answerEmissions (s : Setting) (exec : Exec) (tally : CodeTally) : RequestTally :=
  fun request m ↦
    match refuse? s m request with
    | some _ => .empty
    | none =>
      match request.opening? s m with
      | none => .empty
      | some (f, input, start) =>
        (frameEmissions s tally f input start).settle
          (request.keeps s.rules (answer s exec request m).1.result)

/-- What code emits whose runs may be nested `levels` deep. -/
def codeEmissions (s : Setting) (table : ExtTreeMap Bytes (List Op)) : (levels : Nat) → CodeTally
  | 0 => fun _ _ _ ↦ .empty
  | levels + 1 => fun f input m ↦
    scriptEmissions table (dispatchWithin s (scriptEngine table) levels)
      (answerEmissions s (codeRunner s (scriptEngine table) levels) (codeEmissions s table levels))
      f input { m with depth := m.depth + 1 }

/-- What is emitted while a request is answered. -/
def requestEmissions (s : Setting) (table : ExtTreeMap Bytes (List Op)) : RequestTally :=
  fun request m ↦
    let levels := s.env.limits.maxCallDepth + 1 - m.depth
    answerEmissions s (codeRunner s (scriptEngine table) levels) (codeEmissions s table levels)
      request m

/-! ## The book agrees -/

/-- The way to run code leaves the logs that the tally keeps, if all that are emitted have a
number. -/
def Exec.LogsAs (exec : Exec) (tally : CodeTally) : Prop :=
  ∀ f input m, m.world.logCount.toNat + (tally f input m).emitted.length < 2 ^ 32 →
    World.Recorded (tally f input m).kept m.world (exec f input m).machine.world

def Dispatcher.LogsAs (d : Dispatcher) (tally : RequestTally) : Prop :=
  ∀ request m, m.world.logCount.toNat + (tally request m).emitted.length < 2 ^ 32 →
    World.Recorded (tally request m).kept m.world (d request m).2.world

section Scripts

variable {nested : Dispatcher} {tally : RequestTally}

theorem Step.recorded_ofWrite {update : World → World}
    (h : ∀ w, World.Recorded [] w (update w)) (f : Frame) (m : Machine) :
    World.Recorded [] m.world (Step.ofWrite f m (m.write update)).machine.world := by
  unfold Machine.write
  split
  · exact .refl _
  · exact h m.world

theorem Op.step_logs (h : nested.LogsAs tally) {input : Bytes} {op : Op} {f : Frame} {m : Machine}
    (hroom : m.world.logCount.toNat + (op.emissions tally input f m).emitted.length < 2 ^ 32) :
    World.Recorded (op.emissions tally input f m).kept m.world
      (op.step nested input f m).machine.world := by
  cases op with
  | burn gas =>
      simp only [Op.step]
      split <;> exact .refl _
  | store key value => exact Step.recorded_ofWrite (fun w ↦ w.recorded_setStorage _ _ _) f m
  | storeDepth key => exact Step.recorded_ofWrite (fun w ↦ w.recorded_setStorage _ _ _) f m
  | storeCaller key => exact Step.recorded_ofWrite (fun w ↦ w.recorded_setStorage _ _ _) f m
  | storeValue key => exact Step.recorded_ofWrite (fun w ↦ w.recorded_setStorage _ _ _) f m
  | log topics data =>
      simp only [Op.step, Op.emissions, Machine.emitLog, Machine.write] at hroom ⊢
      split
      · exact .refl _
      · rename_i hwrite
        rw [if_neg hwrite] at hroom
        exact World.recorded_addLog hroom _
  | refund gas => exact Step.recorded_ofWrite (fun w ↦ w.recorded_setRefund _) f m
  | call kind target gas value => exact h _ m hroom
  | callSelf gas => exact h _ m hroom
  | create initCode gas value => exact h _ m hroom
  | output data => exact .refl _
  | revert data => exact .refl _
  | fail => exact .refl _

theorem runOps_logs (h : nested.LogsAs tally) {input : Bytes} (ops : List Op) (f : Frame)
    (m : Machine) (hroom : m.world.logCount.toNat +
      (opsEmissions nested tally input ops f m).emitted.length < 2 ^ 32) :
    World.Recorded (opsEmissions nested tally input ops f m).kept m.world
      (runOps (Op.step nested input) ops f m).machine.world := by
  induction ops generalizing f m with
  | nil => exact .refl _
  | cons op ops ih =>
      simp only [runOps, opsEmissions] at hroom ⊢
      split
      · exact .refl _
      · rename_i hgo
        rw [if_neg hgo] at hroom
        simp only [Emissions.append, List.length_append] at hroom ⊢
        have hop : World.Recorded (op.emissions tally input f m).kept m.world
            (op.step nested input f m).machine.world := Op.step_logs h (by omega)
        cases hstep : op.step nested input f m with
        | next f' m' =>
            rw [hstep] at hop hroom
            have hkept := (op.emissions tally input f m).kept_sublist.length_le
            have hcount : m'.world.logCount.toNat = _ := hop.count
            refine hop.trans (ih f' m' ?_)
            simp only at hroom
            omega
        | stop result f' m' =>
            rw [hstep] at hop
            exact hop.trans (.refl _)

theorem scriptEngine_logs (h : nested.LogsAs tally) (table : ExtTreeMap Bytes (List Op)) :
    Exec.LogsAs (scriptEngine table nested) (scriptEmissions table nested tally) := by
  intro f input m hroom
  unfold scriptEmissions at hroom ⊢
  unfold scriptEngine runTable
  cases hops : table[f.code]? with
  | none => exact .refl _
  | some ops =>
      rw [hops] at hroom
      exact runOps_logs h ops f m hroom

end Scripts

section Frames

variable {s : Setting} {exec : Exec} {tally : CodeTally}

theorem runFrame_logs (h : exec.LogsAs tally) :
    Exec.LogsAs (runFrame s exec) (frameEmissions s tally) := by
  intro f input m hroom
  unfold frameEmissions at hroom ⊢
  unfold runFrame
  split
  · exact .refl _
  · rename_i hgo
    rw [if_neg hgo] at hroom
    cases hprecompile : f.codeAddress.bind fun a ↦ s.env.precompiles[a]? with
    | some precompile => exact .refl _
    | none =>
        simp only [hprecompile] at hroom ⊢
        split
        · exact .refl _
        · rename_i hcode
          rw [if_neg hcode] at hroom
          exact h f input m hroom

/-- A frame that goes back to its snapshot unless it keeps its changes. -/
theorem World.Recorded.settle {e : Emissions} {w w' : World} (h : Recorded e.kept w.snapshot.2 w')
    (keeps : Bool) :
    Recorded (e.settle keeps).kept w (if keeps then w' else w'.revert w.snapshot.1) := by
  cases keeps with
  | true => exact w.recorded_snapshot.trans h
  | false => exact h.revert

/-- A request that is no creation, answered by a frame that was set up after a snapshot. -/
theorem answer_logs_of_enter (h : exec.LogsAs tally) {request : Request} {m start : Machine}
    {frame : Frame} {target : Address} {entry : TraceEntry} {static : Bool}
    (hentry : refuse? s m request = none) (hcall : request.isCreate = false)
    (hopening : request.opening? s m = some (frame.start s target entry static start))
    (hopened : World.Recorded [] m.world.snapshot.2 start.world)
    (hanswer : answer s exec request m =
      enter s exec m.world.snapshot.1 frame target entry static start)
    (hroom : m.world.logCount.toNat + (answerEmissions s exec tally request m).emitted.length <
      2 ^ 32) :
    World.Recorded (answerEmissions s exec tally request m).kept m.world
      (answer s exec request m).2.world := by
  obtain ⟨hresult, -, hworld⟩ :=
    enter_settled s exec m.world.snapshot.1 frame target entry static start rfl
  have hstart : (frame.start s target entry static start).2.2.world = start.world :=
    Machine.traceStart_world s start entry
  have hcount : start.world.logCount.toNat = m.world.logCount.toNat := hopened.count
  simp only [answerEmissions, hentry, hopening, hanswer, Request.keeps, hcall, Bool.false_eq_true,
    if_false, Emissions.emitted_settle] at hroom ⊢
  have hrun := runFrame_logs (s := s) h (frame.start s target entry static start).1
    (frame.start s target entry static start).2.1 (frame.start s target entry static start).2.2
    (by rwa [hstart, hcount])
  rw [hstart] at hrun
  rw [hresult, hworld]
  exact World.Recorded.settle (hopened.trans hrun) _

theorem deposit_logs {w : World} {logs : List Log} (address : Address) {run : Run}
    (h : World.Recorded logs w run.machine.world) :
    World.Recorded logs w (deposit s address run).machine.world := by
  rcases deposit_cases s address run with ⟨fault, hdone⟩ | ⟨code, f, -, -, -, hdone⟩
  · rw [hdone]
    exact h
  · rw [hdone, ← List.append_nil logs]
    exact h.trans (World.recorded_setCode _ _ _)

theorem enterCreate_logs (h : exec.LogsAs tally) {m : Machine} {caller : Address}
    {initCode : Bytes} {gas : Gas} {value : Wei}
    (hentry : refuse? s m (.create caller initCode gas value) = none)
    (hroom : m.world.logCount.toNat + (answerEmissions s exec tally
      (.create caller initCode gas value) m).emitted.length < 2 ^ 32) :
    World.Recorded (answerEmissions s exec tally (.create caller initCode gas value) m).kept m.world
      (answer s exec (.create caller initCode gas value) m).2.world := by
  cases hnext : (m.world.nonce caller).next? with
  | none =>
      simp only [answerEmissions, hentry, Request.opening?, hnext]
      simp only [answer, hentry, enterCreate, hnext]
      exact .refl _
  | some next =>
      have hcounted := m.world.recorded_setNonce caller next
      by_cases htaken : (m.world.setNonce caller next).isTaken
          (Address.ofCreation caller (m.world.nonce caller)) = true
      · simp only [answerEmissions, hentry, Request.opening?, hnext, htaken, Bool.true_or, if_true]
        simp only [answer, hentry, enterCreate, hnext, htaken, if_true]
        exact hcounted
      · by_cases hreserved : (s.env.limits.noRecursion && decide (0 < m.depth)) = true
        · simp only [answerEmissions, hentry, Request.opening?, hnext, hreserved, Bool.or_true,
            if_true]
          simp only [answer, hentry, enterCreate, hnext, if_neg htaken, hreserved, if_true]
          exact (hcounted.trans (World.recorded_snapshot _)).trans
            (World.recorded_creationWorld s _ _ _ _)
        · rw [Bool.not_eq_true] at htaken hreserved
          simp only [answerEmissions, hentry, Request.opening?, hnext, htaken, hreserved, Bool.or_self,
            Bool.false_eq_true, if_false, Emissions.emitted_settle] at hroom ⊢
          obtain ⟨hresult, -, hworld⟩ :=
            enterCreate_settled s exec hnext rfl rfl htaken hreserved rfl
          simp only [answer, hentry]
          rw [hresult, hworld, Request.keeps_create]
          generalize hstart : Machine.traceStart s _ _ = start at hroom ⊢
          have hopened : World.Recorded [] (m.world.setNonce caller next).snapshot.2 start.world := by
            rw [← hstart, Machine.traceStart_world]
            exact World.recorded_creationWorld s _ _ _ _
          have hcount : start.world.logCount.toNat = m.world.logCount.toNat :=
            hopened.count.trans hcounted.count
          have hrun := runFrame_logs (s := s) h _ [] start (hcount ▸ hroom)
          exact hcounted.trans (World.Recorded.settle (hopened.trans (deposit_logs _ hrun)) _)

theorem answer_logs (h : exec.LogsAs tally) :
    (answer s exec).LogsAs (answerEmissions s exec tally) := by
  intro request m hroom
  cases hrefuse : refuse? s m request with
  | some outcome =>
      simp only [answerEmissions, hrefuse, answer_of_refusal hrefuse]
      exact .refl _
  | none =>
      cases request with
      | call caller target input gas value =>
          have hhas : m.world.snapshot.2.hasAccount target = m.world.hasAccount target := rfl
          by_cases hidle : (!m.world.hasAccount target && !s.env.precompiles.contains target &&
              decide (value = 0)) = true
          · simp only [answerEmissions, hrefuse, Request.opening?, if_pos hidle]
            simp only [answer, hrefuse, enterCall, hhas, if_pos hidle, Machine.traceEnd_world,
              Machine.traceStart_world]
            exact m.world.recorded_snapshot
          · refine answer_logs_of_enter h hrefuse rfl (if_neg hidle)
              (World.recorded_callWorld s _ _ _ _) ?_ hroom
            simp only [answer, hrefuse, enterCall, hhas, if_neg hidle]
            rfl
      | callCode caller target input gas value =>
          refine answer_logs_of_enter h hrefuse rfl rfl (.refl _) ?_ hroom
          simp only [answer, hrefuse, enterBorrowed]
      | delegateCall parent target input gas =>
          refine answer_logs_of_enter h hrefuse rfl rfl (.refl _) ?_ hroom
          simp only [answer, hrefuse, enterBorrowed]
      | staticCall caller target input gas =>
          refine answer_logs_of_enter h hrefuse rfl rfl (.refl _) ?_ hroom
          simp only [answer, hrefuse, enterBorrowed]
      | create caller initCode gas value => exact enterCreate_logs h hrefuse hroom

end Frames

theorem codeRunner_logs (s : Setting) (table : ExtTreeMap Bytes (List Op)) (levels : Nat) :
    (codeRunner s (scriptEngine table) levels).LogsAs (codeEmissions s table levels) := by
  induction levels with
  | zero => exact fun _ _ _ _ ↦ .refl _
  | succ levels ih =>
      intro f input m hroom
      have hnested := answer_logs (s := s) ih
      rw [← dispatchWithin_eq_answer] at hnested
      exact scriptEngine_logs hnested table f input { m with depth := m.depth + 1 } hroom

/-- Whatever is asked for, the book holds the logs that are kept afterwards. -/
theorem dispatch_logs {s : Setting} {table : ExtTreeMap Bytes (List Op)}
    (hs : s.env.interpreter = .script table) :
    (dispatch s).LogsAs (requestEmissions s table) := by
  intro request m hroom
  rw [dispatch_eq_script hs, dispatchWith, dispatchWithin_eq_answer]
  exact answer_logs (codeRunner_logs s table _) request m hroom

end MeteredLedger
