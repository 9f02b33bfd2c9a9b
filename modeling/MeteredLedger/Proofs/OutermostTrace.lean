import Mathlib.Data.List.Forall2
import MeteredLedger.Proofs.FrameGas
import MeteredLedger.Proofs.Untraced

/-!
# The trace of the outermost frames

A frame that is entered from outside opens an entry of the trace before its code runs, and completes
the last entry afterwards.  That the two are one entry rests on nothing being written in between:
code runs above depth zero, where frames leave the trace alone.  So `answer_trace` says in one
equation what becomes of the trace at any depth, and a sequence of requests adds the entries of those
that were not turned away.
-/

namespace MeteredLedger

open Std

/-! ## What is recorded -/

namespace Request

def input : Request → Bytes
  | call _ _ input _ _ => input
  | callCode _ _ input _ _ => input
  | delegateCall _ _ input _ => input
  | staticCall _ _ input _ => input
  | create _ initCode _ _ => initCode

def value : Request → Wei
  | call _ _ _ _ value => value
  | callCode _ _ _ _ value => value
  | delegateCall parent _ _ _ => parent.value
  | staticCall .. => 0
  | create _ _ _ value => value

/-- The account whose code is asked for; a creation has none yet. -/
def target? : Request → Option Address
  | call _ target _ _ _ => some target
  | callCode _ target _ _ _ => some target
  | delegateCall _ target _ _ => some target
  | staticCall _ target _ _ => some target
  | create .. => none

/-- The entry that is opened for a request. -/
def entry (w : World) (request : Request) : TraceEntry where
  caller := request.caller
  target := request.target?.getD (Address.ofCreation request.caller (w.nonce request.caller))
  create := request.isCreate
  input := request.input
  gas := request.gas
  value := request.value

/-- The entry of a request once its frame has ended. -/
def closedEntry (w : World) (request : Request) (outcome : Outcome) : TraceEntry :=
  { request.entry w with
    output := outcome.output
    gasUsed := Gas.clamp (request.gas.toNat - outcome.gasLeft.toNat)
    fault := outcome.fault? }

/-- How a creation is answered whose creator has no next nonce or whose address is taken. -/
def barred? (w : World) : Request → Option Outcome
  | create caller _ gas _ =>
    if w.nonce caller = Nonce.largest then some (.failed .nonceOverflow gas)
    else if (w.setNonce caller (w.nonce caller + 1)).isTaken
        (Address.ofCreation caller (w.nonce caller)) then
      some (.failed .addressCollision 0)
    else none
  | _ => none

/-- How a request is answered for which no frame is entered. -/
def turnedAway? (s : Setting) (m : Machine) (request : Request) : Option Outcome :=
  (refuse? s m request).or (request.barred? m.world)

end Request

theorem Trace.finish_push (t : Trace) (entry : TraceEntry) (output : Bytes) (gasUsed : Gas)
    (fault : Option Fault) :
    Trace.finish (t.push entry) output gasUsed fault =
      t.push { entry with output := output, gasUsed := gasUsed, fault := fault } := by
  simp [Trace.finish]

/-- Whether frames entered on the machine are recorded. -/
abbrev Setting.Records (s : Setting) (m : Machine) : Prop := m.depth = 0 ∧ s.env.traced = true

namespace Machine

variable (s : Setting) (m : Machine)

theorem traceStart_trace (entry : TraceEntry) :
    (m.traceStart s entry).monitor.trace =
      if s.Records m then m.monitor.trace.push entry else m.monitor.trace := by
  by_cases h : s.Records m
  · rw [if_pos h, traceStart, if_pos h]
    rfl
  · rw [if_neg h, traceStart, if_neg h]

theorem traceEnd_trace (result : Except Fault Bytes) (gas gasLeft : Gas) :
    (m.traceEnd s result gas gasLeft).monitor.trace =
      if s.Records m then
        m.monitor.trace.finish (resultOutput result) (Gas.clamp (gas.toNat - gasLeft.toNat))
          (resultFault? result)
      else m.monitor.trace := by
  by_cases h : s.Records m
  · rw [if_pos h, traceEnd, if_pos h]
  · rw [if_neg h, traceEnd, if_neg h]

/-- Nothing was recorded on the way from one machine to another of the same depth. -/
structure Quiet (m m' : Machine) : Prop where
  depth : m'.depth = m.depth
  trace : m'.monitor.trace = m.monitor.trace

theorem Quiet.refl : m.Quiet m := ⟨rfl, rfl⟩

variable {m}

theorem Quiet.trans {m₁ m₂ : Machine} (h₁ : m.Quiet m₁) (h₂ : m₁.Quiet m₂) : m.Quiet m₂ :=
  ⟨h₂.depth.trans h₁.depth, h₂.trace.trans h₁.trace⟩

end Machine

def Exec.IsQuiet (exec : Exec) : Prop := ∀ f input (m : Machine), m.Quiet (exec f input m).machine

section Answers

variable {s : Setting} {exec : Exec} {m start : Machine} {request : Request} {f : Frame}
  {input : Bytes}

theorem Exec.IsQuiet.runFrame (h : exec.IsQuiet) : (runFrame s exec).IsQuiet := by
  intro f input m
  rcases runFrame_cases s exec f input m with ⟨hmachine, -⟩ | ⟨-, hcode⟩
  · rw [hmachine]
    exact .refl m
  · rw [hcode]
    exact h f input m

theorem deposit_quiet (s : Setting) (address : Address) (run : Run) :
    run.machine.Quiet (deposit s address run).machine := by
  rcases deposit_cases s address run with ⟨fault, h⟩ | ⟨code, f, -, -, -, h⟩
  · rw [h]
    exact .refl _
  · rw [h]
    exact ⟨rfl, rfl⟩

theorem Frame.start_trace {m' : Machine} {frame : Frame} {target : Address} {entry : TraceEntry}
    {static : Bool} (h : frame.start s target entry static m' = (f, input, start))
    (hquiet : m.Quiet m') :
    start.monitor.trace =
      if s.Records m then m.monitor.trace.push entry else m.monitor.trace := by
  cases h
  refine (m'.traceStart_trace s entry).trans ?_
  simp only [Setting.Records, hquiet.depth, hquiet.trace]

theorem Request.opening?_trace (h : request.opening? s m = some (f, input, start)) :
    start.monitor.trace =
      if s.Records m then m.monitor.trace.push (request.entry m.world) else m.monitor.trace := by
  cases request with
  | call caller target input gas value =>
      simp only [opening?] at h
      split at h
      · cases h
      · exact Frame.start_trace (Option.some.inj h) ⟨rfl, rfl⟩
  | create caller initCode gas value =>
      obtain ⟨next, hnext, hfree, hnested⟩ := exists_of_opening?_create h
      rw [opening?_create hnext rfl rfl hfree hnested] at h
      cases h
      exact Machine.traceStart_trace s _ _
  | _ => exact Frame.start_trace (Option.some.inj h) ⟨rfl, rfl⟩

theorem Request.close_trace (request : Request) (m : Machine) (run : Run) :
    (request.close s m run).2.depth = run.machine.depth ∧
      (request.close s m run).2.monitor.trace =
        if s.Records run.machine then
          run.machine.monitor.trace.finish (request.close s m run).1.output
            (Gas.clamp (request.gas.toNat - (request.close s m run).1.gasLeft.toNat))
            (request.close s m run).1.fault?
        else run.machine.monitor.trace := by
  cases request with
  | create caller initCode gas value =>
      have hquiet := deposit_quiet s (Address.ofCreation caller (m.world.nonce caller)) run
      simp only [close, Machine.traceEnd_depth, Machine.traceEnd_trace]
      generalize deposit s _ run = done at hquiet
      obtain ⟨hdepth, htrace⟩ := hquiet
      split <;> simp only [Setting.Records, hdepth, htrace, Request.gas, true_and] <;> rfl
  | _ =>
      simp only [close, Machine.traceEnd_depth, Machine.traceEnd_trace, true_and]
      rfl

theorem Request.barred?_create {caller : Address} {initCode : Bytes} {gas : Gas} {value : Wei}
    {w : World} (h : (create caller initCode gas value).barred? w = none) :
    (w.nonce caller).next? = some (w.nonce caller + 1) ∧
      (w.setNonce caller (w.nonce caller + 1)).isTaken
        (Address.ofCreation caller (w.nonce caller)) = false := by
  simp only [barred?] at h
  by_cases hnonce : w.nonce caller = Nonce.largest
  · simp [hnonce] at h
  · exact ⟨Nonce.next?_eq_some_iff.mpr ⟨hnonce, rfl⟩, by simpa [hnonce] using h⟩

theorem answer_of_turnedAway (exec : Exec) {outcome : Outcome}
    (h : request.turnedAway? s m = some outcome) :
    (answer s exec request m).1 = outcome ∧ m.Quiet (answer s exec request m).2 := by
  cases hentry : refuse? s m request with
  | some refusal =>
      rw [Request.turnedAway?, hentry, Option.some_or] at h
      cases h
      rw [answer_of_refusal hentry]
      exact ⟨rfl, .refl m⟩
  | none =>
      rw [Request.turnedAway?, hentry, Option.none_or] at h
      cases request with
      | create caller initCode gas value =>
          simp only [Request.barred?] at h
          split at h
          · rename_i hnonce
            cases h
            have hnext : (m.world.nonce caller).next? = none := by simp [Nonce.next?, hnonce]
            simp only [answer, hentry, enterCreate, hnext, true_and]
            exact .refl m
          · rename_i hnonce
            rw [Option.ite_none_right_eq_some] at h
            obtain ⟨htaken, houtcome⟩ := h
            cases houtcome
            have hnext := Nonce.next?_eq_some_iff.mpr ⟨hnonce, rfl⟩
            simp only [answer, hentry, enterCreate, hnext, htaken, if_true, true_and]
            exact ⟨rfl, rfl⟩
      | _ => cases h

theorem Request.turnedAway?_eq_none_iff :
    request.turnedAway? s m = none ↔
      refuse? s m request = none ∧ request.barred? m.world = none :=
  Option.or_eq_none_iff

/-- A request that is let through without a frame being set up is a call of nobody, or a creation by
code that may not enter frames. -/
theorem answer_trace_of_unopened (exec : Exec) (haway : request.turnedAway? s m = none)
    (hopening : request.opening? s m = none) :
    (answer s exec request m).2.depth = m.depth ∧
      (answer s exec request m).2.monitor.trace =
        if s.Records m then
          m.monitor.trace.push (request.closedEntry m.world (answer s exec request m).1)
        else m.monitor.trace := by
  obtain ⟨hentry, hbarred⟩ := Request.turnedAway?_eq_none_iff.mp haway
  cases request with
  | call caller target input gas value =>
      simp only [answer_of_unopened_call exec hentry hopening, Machine.traceEnd_depth,
        Machine.traceStart_depth, Machine.traceEnd_trace, Machine.traceStart_trace, Setting.Records,
        true_and]
      split
      · exact Trace.finish_push _ _ _ _ _
      · rfl
  | create caller initCode gas value =>
      obtain ⟨hnext, hfree⟩ := Request.barred?_create hbarred
      have hskip : (s.env.limits.noRecursion && decide (0 < m.depth)) = true := by
        simpa [Request.opening?, hnext, hfree, Nat.pos_iff_ne_zero] using hopening
      have hinner : ¬ s.Records m := by
        simp only [Bool.and_eq_true, decide_eq_true_eq] at hskip
        exact fun h ↦ Nat.ne_of_gt hskip.2 h.1
      simp only [answer, hentry, enterCreate, hnext, hfree, hskip, if_true, Bool.false_eq_true,
        if_false, true_and, if_neg hinner]
  | _ => cases hopening

/-- A frame that is entered from outside leaves one complete entry; what is turned away, and what is
entered by code, leaves none. -/
theorem answer_trace (hexec : exec.IsQuiet) (request : Request) (m : Machine) :
    (answer s exec request m).2.depth = m.depth ∧
      (answer s exec request m).2.monitor.trace =
        if s.Records m ∧ request.turnedAway? s m = none then
          m.monitor.trace.push (request.closedEntry m.world (answer s exec request m).1)
        else m.monitor.trace := by
  cases haway : request.turnedAway? s m with
  | some outcome =>
      obtain ⟨-, hdepth, htrace⟩ := answer_of_turnedAway exec haway
      exact ⟨hdepth, by simp [htrace]⟩
  | none =>
      simp only [and_true]
      cases hopening : request.opening? s m with
      | none => exact answer_trace_of_unopened exec haway hopening
      | some x =>
          obtain ⟨f, input, start⟩ := x
          have hstart := (Request.opening?_machine hopening).1
          have hquiet := hexec.runFrame (s := s) f input start
          rw [answer_eq_close exec (Request.turnedAway?_eq_none_iff.mp haway).1 hopening]
          obtain ⟨hdepth, htrace⟩ := request.close_trace (s := s) m (runFrame s exec f input start)
          refine ⟨hdepth.trans (hquiet.depth.trans hstart), ?_⟩
          -- The entry that was opened is still the last one when the frame is closed.
          rw [htrace, hquiet.trace, Request.opening?_trace hopening]
          simp only [Setting.Records, hquiet.depth, hstart]
          split
          · exact Trace.finish_push _ _ _ _ _
          · rfl

/-- The account that an entered frame is for: the target, or the account that it creates. -/
theorem answer_target (exec : Exec) (haway : request.turnedAway? s m = none) :
    request.target?.or (answer s exec request m).1.created =
      some (request.entry m.world).target := by
  obtain ⟨hentry, hbarred⟩ := Request.turnedAway?_eq_none_iff.mp haway
  cases request with
  | create caller initCode gas value =>
      obtain ⟨hnext, hfree⟩ := Request.barred?_create hbarred
      simp only [answer, hentry, enterCreate, hnext, hfree, Bool.false_eq_true, if_false]
      split <;> rfl
  | _ => rfl

end Answers

/-! ## Nested frames -/

section Nested

variable {s : Setting} {room : World → Prop} {engine : Engine}

theorem Effect.quiet {nested : Dispatcher} {f f' : Frame} {m m' : Machine}
    (hnested : ∀ request, m.Quiet (nested request m).2) (h : Effect room nested f m f' m') :
    m.Quiet m' := by
  cases h with
  | nest request hgas hcaller => exact hnested request
  | _ => exact ⟨rfl, rfl⟩

theorem Effects.quiet {nested : Dispatcher} {x y : Frame × Machine}
    (hnested : ∀ request (m : Machine), 0 < m.depth → m.Quiet (nested request m).2)
    (hdepth : 0 < x.2.depth) (h : Effects room nested x y) : x.2.Quiet y.2 := by
  induction h with
  | refl => exact .refl _
  | tail hrun heffect ih =>
      exact ih.trans (heffect.quiet fun request ↦ hnested request _ (ih.depth ▸ hdepth))

theorem codeRunner_isQuiet (hengine : engine.IsEffectful room) (levels : Nat) :
    (codeRunner s engine levels).IsQuiet := by
  induction levels with
  | zero => exact fun _ _ m ↦ .refl m
  | succ levels ih =>
      intro f input m
      -- Code runs above depth zero, and so does everything that it asks for.
      have hnested : ∀ request (m : Machine), 0 < m.depth →
          m.Quiet (dispatchWithin s engine levels request m).2 := by
        intro request m hdepth
        rw [dispatchWithin_eq_answer]
        obtain ⟨hkept, htrace⟩ := answer_trace ih request m
        refine ⟨hkept, htrace.trans (if_neg ?_)⟩
        exact fun h ↦ Nat.ne_of_gt hdepth h.1.1
      obtain ⟨hdepth, htrace⟩ :=
        Effects.quiet hnested (Nat.succ_pos _) (hengine _ f input { m with depth := m.depth + 1 })
      exact ⟨congrArg (· - 1) hdepth, htrace⟩

end Nested

theorem dispatch_trace {s : Setting} {table : ExtTreeMap Bytes (List Op)}
    (hs : s.env.interpreter = .script table) (request : Request) (m : Machine) :
    (dispatch s request m).2.depth = m.depth ∧
      (dispatch s request m).2.monitor.trace =
        if s.Records m ∧ request.turnedAway? s m = none then
          m.monitor.trace.push (request.closedEntry m.world (dispatch s request m).1)
        else m.monitor.trace := by
  rw [dispatch_eq_script hs, dispatchWith, dispatchWithin_eq_answer]
  exact answer_trace (codeRunner_isQuiet (scriptEngine_isEffectful table) _) request m

/-! ## Sequences of requests from outside -/

/-- A request that was dispatched, with what it met and how it was answered. -/
structure Exchange where
  setting : Setting
  request : Request
  machine : Machine
  outcome : Outcome

namespace Exchange

def turnedAway? (x : Exchange) : Option Outcome := x.request.turnedAway? x.setting x.machine

def untraced (x : Exchange) : Exchange :=
  { x with setting := x.setting.untraced, machine := x.machine.untraced }

/-- The entry tells what was asked and what was answered. -/
structure RecordedAs (x : Exchange) (entry : TraceEntry) : Prop where
  caller : entry.caller = x.request.caller
  target : x.request.target?.or x.outcome.created = some entry.target
  create : entry.create = x.request.isCreate
  input : entry.input = x.request.input
  gas : entry.gas = x.request.gas
  value : entry.value = x.request.value
  output : entry.output = x.outcome.output
  fault : entry.fault = x.outcome.fault?
  gasUsed : entry.gasUsed.toNat + x.outcome.gasLeft.toNat = x.request.gas.toNat

end Exchange

/-- Dispatches requests one after another, each in a context of its own. -/
def dispatchAll (env : Env) : List (Context × Request) → Machine → List Exchange × Machine
  | [], m => ([], m)
  | (context, request) :: rest, m =>
    let s : Setting := { env, context }
    let (outcome, next) := dispatch s request m
    let (exchanges, last) := dispatchAll env rest next
    (⟨s, request, m, outcome⟩ :: exchanges, last)

section Sequences

variable {env : Env} {table : ExtTreeMap Bytes (List Op)}

theorem dispatch_of_turnedAway {s : Setting} (hs : s.env.interpreter = .script table)
    {request : Request} {m : Machine} {outcome : Outcome}
    (h : request.turnedAway? s m = some outcome) : (dispatch s request m).1 = outcome := by
  rw [dispatch_eq_script hs, dispatchWith, dispatchWithin_eq_answer]
  exact (answer_of_turnedAway _ h).1

theorem closedEntry_records {s : Setting} (hs : s.env.interpreter = .script table)
    {request : Request} {m : Machine} (haway : request.turnedAway? s m = none) :
    Exchange.RecordedAs ⟨s, request, m, (dispatch s request m).1⟩
      (request.closedEntry m.world (dispatch s request m).1) := by
  refine ⟨rfl, ?_, rfl, rfl, rfl, rfl, rfl, rfl, ?_⟩
  · rw [dispatch_eq_script hs, dispatchWith, dispatchWithin_eq_answer]
    exact answer_target _ haway
  · have hle : (dispatch s request m).1.gasLeft.toNat ≤ request.gas.toNat := by
      rw [dispatch_eq_script hs]
      exact dispatchWith_spendsGas (scriptEngine_isEffectful table) request m
    have hlt : request.gas.toNat < 2 ^ 64 := UInt64.toNat_lt _
    simp only [Request.closedEntry, Gas.toNat_clamp, Gas.maxNat]
    omega

theorem dispatchAll_untraced (hs : env.interpreter = .script table)
    (requests : List (Context × Request)) (m : Machine) :
    dispatchAll env.untraced requests m.untraced =
      ((dispatchAll env requests m).1.map Exchange.untraced,
        (dispatchAll env requests m).2.untraced) := by
  induction requests generalizing m with
  | nil => rfl
  | cons x rest ih =>
      obtain ⟨context, request⟩ := x
      have hanswer := dispatch_shadows (s := { env, context }) hs request m
      simp only [Setting.untraced] at hanswer
      simp only [dispatchAll, hanswer, ih, List.map_cons]
      rfl

theorem dispatchAll_exchanges {requests : List (Context × Request)} {m : Machine} {x : Exchange}
    (hx : x ∈ (dispatchAll env requests m).1) :
    x.setting.env = env ∧ x.outcome = (dispatch x.setting x.request x.machine).1 := by
  induction requests generalizing m with
  | nil => cases hx
  | cons head rest ih =>
      obtain ⟨context, request⟩ := head
      simp only [dispatchAll, List.mem_cons] at hx
      rcases hx with rfl | hrest
      · exact ⟨rfl, rfl⟩
      · exact ih hrest

theorem dispatchAll_trace (hs : env.interpreter = .script table) (htraced : env.traced = true)
    (requests : List (Context × Request)) {m : Machine} (hdepth : m.depth = 0) :
    ∃ recorded : List TraceEntry,
      (dispatchAll env requests m).2.monitor.trace.toList = m.monitor.trace.toList ++ recorded ∧
        List.Forall₂ Exchange.RecordedAs
          ((dispatchAll env requests m).1.filter (·.turnedAway?.isNone)) recorded := by
  induction requests generalizing m with
  | nil => exact ⟨[], by simp [dispatchAll], .nil⟩
  | cons x rest ih =>
      obtain ⟨context, request⟩ := x
      let s : Setting := { env, context }
      obtain ⟨hkept, htrace⟩ := dispatch_trace (s := s) hs request m
      obtain ⟨recorded, hgrown, hrecorded⟩ := ih (hkept.trans hdepth)
      let first : Exchange := ⟨s, request, m, (dispatch s request m).1⟩
      simp only [dispatchAll]
      cases haway : first.turnedAway? with
      | some outcome =>
          rw [if_neg fun h ↦ Option.some_ne_none _ (haway.symm.trans h.2)] at htrace
          rw [List.filter_cons_of_neg (a := first) (by simp [haway])]
          exact ⟨recorded, by rw [hgrown, htrace], hrecorded⟩
      | none =>
          rw [if_pos ⟨⟨hdepth, htraced⟩, haway⟩] at htrace
          rw [List.filter_cons_of_pos (a := first) (by simp [haway])]
          refine ⟨request.closedEntry m.world first.outcome :: recorded, ?_, ?_⟩
          · rw [hgrown, htrace, Array.toList_push, List.append_assoc, List.singleton_append]
          · exact .cons (closedEntry_records hs haway) hrecorded

end Sequences

/-- The trace tells of the frames that were entered from outside, and nothing can be told from it.
It grows by one entry for each request that is not turned away, in order, and the entry says what was
asked and what was answered.  Without a trace the same requests meet the same machines and get the
same answers. -/
theorem trace_is_faithful_and_unseen {env : Env} {table : ExtTreeMap Bytes (List Op)}
    (hs : env.interpreter = .script table) (htraced : env.traced = true)
    (requests : List (Context × Request)) {m : Machine} (hdepth : m.depth = 0) :
    (∃ recorded : List TraceEntry,
      (dispatchAll env requests m).2.monitor.trace.toList = m.monitor.trace.toList ++ recorded ∧
        List.Forall₂ Exchange.RecordedAs
          ((dispatchAll env requests m).1.filter (·.turnedAway?.isNone)) recorded) ∧
      (∀ x ∈ (dispatchAll env requests m).1, ∀ outcome, x.turnedAway? = some outcome →
        x.outcome = outcome) ∧
      dispatchAll env.untraced requests m.untraced =
        ((dispatchAll env requests m).1.map Exchange.untraced,
          (dispatchAll env requests m).2.untraced) := by
  refine ⟨dispatchAll_trace hs htraced requests hdepth, ?_, dispatchAll_untraced hs requests m⟩
  intro x hx outcome haway
  obtain ⟨henv, houtcome⟩ := dispatchAll_exchanges hx
  rw [houtcome]
  exact dispatch_of_turnedAway (henv ▸ hs) haway

/-- Account 20 calls account 21, which reverts, and goes on to an output. -/
def tracedEnv : Env where
  interpreter := .script (((∅ : ExtTreeMap Bytes (List Op)).insert [1]
    [.burn 10, .call .call 21 50 0, .output [7]]).insert [2] [.burn 5, .revert [9]])
  traced := true

/-- Account 40 has used up its nonces. -/
def tracedMachine : Machine where
  world :=
    (((({} : World).placeAccount 20 { code := [1] }).placeAccount 21
      { code := [2] }).placeAccount 30 { balance := 3 }).placeAccount 40 { nonce := Nonce.largest }

/-- A call with a nested one, a payment that is not covered, a call that reverts, a call of nobody,
and a creation by the account without a next nonce. -/
def tracedRequests : List (Context × Request) :=
  [Request.call 30 20 [5] 1000 2, .call 30 20 [] 100 2, .staticCall 30 21 [] 100,
    .call 30 50 [] 70 0, .create 40 [1] 100 0].map ((scriptSetting ∅).context, ·)

theorem traced_requests_leave_three_entries :
    ((dispatchAll tracedEnv tracedRequests tracedMachine).2.monitor.trace.toList.map
        fun entry ↦ (entry.target, entry.output, entry.gasUsed)) =
      [(20, [7], 15), (21, [9], 5), (50, [], 0)] ∧
    List.Forall₂ Exchange.RecordedAs
      ((dispatchAll tracedEnv tracedRequests tracedMachine).1.filter (·.turnedAway?.isNone))
      (dispatchAll tracedEnv tracedRequests tracedMachine).2.monitor.trace.toList ∧
    dispatchAll tracedEnv.untraced tracedRequests tracedMachine.untraced =
      ((dispatchAll tracedEnv tracedRequests tracedMachine).1.map Exchange.untraced,
        (dispatchAll tracedEnv tracedRequests tracedMachine).2.untraced) := by
  have hs : tracedEnv.interpreter = .script _ := rfl
  obtain ⟨⟨recorded, hgrown, hrecorded⟩, -, hunseen⟩ :=
    trace_is_faithful_and_unseen hs rfl tracedRequests (m := tracedMachine) rfl
  refine ⟨by decide +kernel, ?_, hunseen⟩
  rw [hgrown]
  exact hrecorded

end MeteredLedger
