import MeteredLedger.Proofs.CodeRun
import MeteredLedger.Proofs.DeployedCode
import MeteredLedger.Proofs.FrameAtomicity

/-!
# Faults of the interpreter

An interpreter gets a frame and the machine, and changes the machine only by what it is offered: it
stores, logs and earns refunds where writing is allowed, and asks for frames.  Whatever it does with
that, and however it ends, a fault that it reports is the fault of its frame; the frame is taken back,
and unless the fault is a revert its gas is gone.  There is one exception.  Before homestead, a
creation that cannot pay for its code keeps account and gas, and the dispatcher tells this case by the
fault alone.  An interpreter that reports the same fault by itself is treated alike.
-/

namespace MeteredLedger

open Std

/-! ## What an interpreter can do -/

/-- What an interpreter can do to the machine.  Logs are only written to worlds with `room` for them.
The monitor is open to everyone. -/
inductive Access (room : World → Prop) (nested : Dispatcher) (m : Machine) : Machine → Prop
  | store (a : Address) (key value : Word) (hwrite : m.readOnly = false) :
      Access room nested m { m with world := m.world.setStorage a key value }
  | log (log : Log) (hwrite : m.readOnly = false) (hroom : room m.world) :
      Access room nested m { m with world := m.world.addLog log }
  | refund (gas : Gas) (hwrite : m.readOnly = false) :
      Access room nested m { m with world := m.world.addRefund gas }
  | watch (monitor : Monitor) : Access room nested m { m with monitor := monitor }
  | nest (request : Request) : Access room nested m (nested request m).2

def Accesses (room : World → Prop) (nested : Dispatcher) : Machine → Machine → Prop :=
  Relation.ReflTransGen (Access room nested)

/-- An engine that changes the machine by accesses.  Frame and result are its own business. -/
def Engine.IsInterpreter (room : World → Prop) (engine : Engine) : Prop :=
  ∀ nested f input m, Accesses room nested m (engine nested f input m).machine

section Interpreters

variable {room : World → Prop} {nested : Dispatcher} {m m' : Machine}

theorem Effect.accesses {f f' : Frame} (h : Effect room nested f m f' m') :
    Accesses room nested m m' := by
  cases h with
  | pay gas hgas => exact .refl
  | store key value hwrite => exact .single (.store _ key value hwrite)
  | log log hwrite hroom => exact .single (.log log hwrite hroom)
  | refund gas hwrite => exact .single (.refund gas hwrite)
  | halt => exact .single (.watch _)
  | nest request hgas hcaller => exact .single (.nest request)

theorem Effects.accesses {x y : Frame × Machine} (h : Effects room nested x y) :
    Accesses room nested x.2 y.2 := by
  induction h with
  | refl => exact .refl
  | tail _ heffect ih => exact ih.trans heffect.accesses

theorem Engine.IsEffectful.isInterpreter {engine : Engine} (h : engine.IsEffectful room) :
    engine.IsInterpreter room :=
  fun nested f input m ↦ (h nested f input m).accesses

/-- To report an answer is to ask and then to watch. -/
theorem Accesses.ofReported (h : Accesses room nested.reported m m') :
    Accesses room nested m m' := by
  induction h with
  | refl => exact .refl
  | tail _ haccess ih =>
      cases haccess with
      | store a key value hwrite => exact ih.tail (.store a key value hwrite)
      | log log hwrite hroom => exact ih.tail (.log log hwrite hroom)
      | refund gas hwrite => exact ih.tail (.refund gas hwrite)
      | watch monitor => exact ih.tail (.watch monitor)
      | nest request => exact (ih.tail (.nest request)).tail (.watch _)

theorem Accesses.report (h : Accesses room nested m m') (event : Event) :
    Accesses room nested m (m'.report event) :=
  h.tail (.watch _)

theorem ProbeOp.step_accesses (s : Setting) (input : Bytes) (op : ProbeOp) (f : Frame)
    (m : Machine) :
    Accesses (fun _ ↦ True) nested m (op.step s nested input f m).machine := by
  induction op with
  | plain op => exact (Op.step_effect (fun _ _ _ _ ↦ trivial) input).accesses.ofReported
  | callWith kind target gas value own =>
      exact (Effect.ofNest gas kind target value own).accesses.ofReported
  | use gas =>
      simp only [ProbeOp.step]
      split
      · exact Accesses.report .refl _
      · exact Accesses.report .refl _
  | storeAt a key value =>
      simp only [ProbeOp.step, Machine.setStorage, Machine.write]
      split
      · exact .refl
      · rename_i hwrite
        exact .single (.store a key value (by simpa using hwrite))
  | attempt op ih =>
      simp only [ProbeOp.step]
      cases hstep : op.step s nested input f m with
      | next f' m' =>
          rw [hstep] at ih
          exact ih.report _
      | stop result f' m' =>
          rw [hstep] at ih
          cases result with
          | error fault => exact ih.report _
          | ok data => exact ih
  | view a => exact Accesses.report .refl _
  | load a key => exact Accesses.report .refl _
  | context => exact Accesses.report .refl _
  | blockHash number => exact Accesses.report .refl _
  | cancel => exact .single (.watch _)
  | raise fault => exact .refl

theorem runOps_accesses {ω : Type} {step : ω → Frame → Machine → Step}
    (hstep : ∀ op f m, Accesses room nested m (step op f m).machine) (ops : List ω) (f : Frame)
    (m : Machine) : Accesses room nested m (runOps step ops f m).machine := by
  induction ops generalizing f m with
  | nil => exact .refl
  | cons op ops ih =>
      have hop := hstep op f m
      simp only [runOps]
      split
      · exact .refl
      · cases hres : step op f m with
        | next f' m' =>
            rw [hres] at hop
            exact hop.trans (ih f' m')
        | stop result f' m' =>
            rw [hres] at hop
            exact hop

theorem runTable_accesses {ω : Type} {step : ω → Frame → Machine → Step}
    (hstep : ∀ op f m, Accesses room nested m (step op f m).machine)
    (table : ExtTreeMap Bytes (List ω)) (f : Frame) (m : Machine) :
    Accesses room nested m (runTable table step f m).machine := by
  unfold runTable
  split
  · exact runOps_accesses hstep _ f m
  · exact .refl

theorem Interpreter.engine_isInterpreter (i : Interpreter) (s : Setting) :
    (i.engine s).IsInterpreter fun _ ↦ True := by
  cases i with
  | noop => exact fun _ _ _ _ ↦ .refl
  | script table => exact (scriptEngine_isEffectful table).isInterpreter
  | probe table =>
      intro nested f input m
      have hstep := @ProbeOp.step_accesses nested s input
      have hran := runTable_accesses hstep table f (m.report (.enter f m.depth m.readOnly input))
      exact Accesses.report ((Accesses.report .refl _).trans hran) _

end Interpreters

/-! ## Relations that interpreters respect -/

namespace FrameRelation

variable {s : Setting} {room : World → Prop} {R : Bool → World → World → Prop}

theorem access (h : FrameRelation s room (fun _ _ _ ↦ True) R) {nested : Dispatcher}
    (hnested : nested.Keeps (fun _ _ _ ↦ True) R) {m m' : Machine}
    (haccess : Access room nested m m') : Kept R m m' := by
  cases haccess with
  | store a key value hwrite =>
      refine ⟨?_, rfl, rfl⟩
      rw [hwrite]
      exact h.store key value trivial
  | log log hwrite hroom =>
      refine ⟨?_, rfl, rfl⟩
      rw [hwrite]
      exact h.log log hroom
  | refund gas hwrite =>
      refine ⟨?_, rfl, rfl⟩
      rw [hwrite]
      exact h.refund m.world gas
  | watch monitor => exact ⟨h.refl _ _, rfl, rfl⟩
  | nest request => exact hnested request m (.inr trivial)

theorem accesses (h : FrameRelation s room (fun _ _ _ ↦ True) R) {nested : Dispatcher}
    (hnested : nested.Keeps (fun _ _ _ ↦ True) R) {m m' : Machine}
    (haccesses : Accesses room nested m m') : Kept R m m' := by
  induction haccesses with
  | refl => exact ⟨h.refl _ _, rfl, rfl⟩
  | tail _ haccess ih =>
      have hstep := h.access hnested haccess
      refine ⟨?_, hstep.readOnly.trans ih.readOnly, hstep.depth.trans ih.depth⟩
      exact h.trans ih.world (ih.readOnly ▸ hstep.world)

theorem interpreterRunner (h : FrameRelation s room (fun _ _ _ ↦ True) R) {engine : Engine}
    (hengine : engine.IsInterpreter room) (levels : Nat) :
    (MeteredLedger.codeRunner s engine levels).Keeps (fun _ _ _ ↦ True) R := by
  induction levels with
  | zero => exact fun _ _ _ _ ↦ ⟨h.refl _ _, rfl, rfl⟩
  | succ levels ih =>
      intro f input m _
      have hnested := h.answer ih
      rw [← dispatchWithin_eq_answer] at hnested
      have hkept := h.accesses hnested (hengine _ f input { m with depth := m.depth + 1 })
      refine ⟨hkept.world, hkept.readOnly, ?_⟩
      have hdepth := hkept.depth
      simp only [MeteredLedger.codeRunner, MeteredLedger.deeper] at hdepth ⊢
      omega

variable {R : World → World → Prop}

/-- From the world that a frame may have to go back to, to the one in which its code starts. -/
theorem opening (h : FrameRelation s room (fun _ _ _ ↦ True) fun _ ↦ R) {m start : Machine}
    {request : Request} {f : Frame} {input : Bytes} (hentry : refuse? s m request = none)
    (hopening : request.opening? s m = some (f, input, start)) :
    R (request.base m.world).snapshot.2 start.world := by
  obtain ⟨hfunds, hwrites⟩ := admitted hentry
  cases request with
  | call caller target input gas value =>
      simp only [Request.opening?] at hopening
      split at hopening
      · cases hopening
      · rename_i hreal
        cases hopening
        rw [Machine.traceStart_world]
        have hvalue : m.readOnly = true → value = 0 := by
          intro hro
          simpa [Request.writes] using hwrites hro
        exact FrameRelation.callWorld (R := fun _ ↦ R) h trivial (hfunds _ _ rfl) hvalue
          (real_of_not_idle hreal)
  | create caller initCode gas value =>
      obtain ⟨next, hnext, hfree, hnested⟩ := Request.exists_of_opening?_create hopening
      rw [Request.opening?_create hnext rfl rfl hfree hnested] at hopening
      cases hopening
      obtain ⟨-, rfl⟩ := Nonce.next?_eq_some_iff.mp hnext
      rw [Machine.traceStart_world]
      exact (h.creationWorld trivial (hfunds _ _ rfl) hnext hfree).2
  | _ =>
      cases hopening
      rw [Machine.traceStart_world]
      exact h.refl false _

/-- From the world that a frame may have to go back to, to the one that its code leaves. -/
theorem codeRun (h : FrameRelation s room (fun _ _ _ ↦ True) fun _ ↦ R) {exec : Exec}
    (hexec : exec.Keeps (fun _ _ _ ↦ True) fun _ ↦ R) {m start : Machine} {request : Request}
    {f : Frame} {input : Bytes} (hcode : request.codeRun? s m = some (f, input, start)) :
    R (request.base m.world).snapshot.2 (exec f input start).machine.world := by
  obtain ⟨hentry, hopening, -⟩ := Request.codeRun?_eq_some_iff.mp hcode
  exact @FrameRelation.trans s room _ (fun _ ↦ R) h false _ _ _ (h.opening hentry hopening)
    (hexec f input start trivial).world

end FrameRelation

/-! ## Going back but for the counter of logs -/

/-- Two ledgers that agree but for the counter of logs. -/
structure Ledger.AlikeButCount (l₁ l₂ : Ledger) : Prop where
  accounts : l₁.accounts = l₂.accounts
  refund : l₁.refund = l₂.refund
  logs : l₁.logs = l₂.logs

namespace Ledger

theorem AlikeButCount.modifyAccount {l₁ l₂ : Ledger} (h : AlikeButCount l₁ l₂) (a : Address)
    (f : Account → Account) : AlikeButCount (l₁.modifyAccount a f) (l₂.modifyAccount a f) := by
  unfold Ledger.modifyAccount
  rw [h.accounts]
  split
  · exact ⟨rfl, h.refund, h.logs⟩
  · exact h

theorem AlikeButCount.dropLog {l₁ l₂ : Ledger} (h : AlikeButCount l₁ l₂) (txHash : Hash) :
    AlikeButCount (l₁.dropLog txHash) (l₂.dropLog txHash) := by
  refine ⟨h.accounts, h.refund, ?_⟩
  simp only [Ledger.dropLog, h.logs]

theorem rewindable_alikeButCount : Rewindable AlikeButCount where
  refl _ := ⟨rfl, rfl, rfl⟩
  trans h h' := ⟨h.accounts.trans h'.accounts, h.refund.trans h'.refund, h.logs.trans h'.logs⟩
  apply undo l₁ l₂ h := by
    cases undo with
    | account a previous =>
        cases previous with
        | none => exact ⟨congrArg (·.erase a) h.accounts, h.refund, h.logs⟩
        | some acct => exact ⟨congrArg (·.insert a acct) h.accounts, h.refund, h.logs⟩
    | balance a previous => exact h.modifyAccount a _
    | nonce a previous => exact h.modifyAccount a _
    | code a previous previousHash => exact h.modifyAccount a _
    | storage a key previous => exact h.modifyAccount a _
    | refund previous => exact ⟨h.accounts, rfl, h.logs⟩
    | log txHash => exact h.dropLog txHash

theorem AlikeButCount.sound {l₁ l₂ : Ledger} (h : AlikeButCount l₁ l₂) (hsound : l₂.Sound) :
    l₁.Sound := by
  refine ⟨?_, ?_⟩
  · intro a acct hget
    rw [h.accounts] at hget
    exact hsound.slots a acct hget
  · intro txHash
    rw [h.logs]
    exact hsound.logs txHash

end Ledger

namespace World

/-- What is done to a sound world leaves it sound, and can be taken back but for the counter. -/
def SteadyButCount (w w' : World) : Prop :=
  w.Sound → w'.Sound ∧ Follows Ledger.AlikeButCount w w'

namespace SteadyButCount

open Ledger (rewindable_alikeButCount)

variable {w w' w₁ w₂ w₃ : World}

theorem ofSteady (h : w.Steady w') : w.SteadyButCount w' := by
  intro hsound
  obtain ⟨hsound', es, ms, hextends⟩ := h hsound
  refine ⟨hsound', es, ms, hextends.entries, hextends.marks, ?_, hextends.txHash, hextends.txIndex⟩
  rw [hextends.rewind]
  exact rewindable_alikeButCount.refl _

theorem trans (h : w₁.SteadyButCount w₂) (h' : w₂.SteadyButCount w₃) : w₁.SteadyButCount w₃ := by
  intro hsound
  obtain ⟨hsound₂, hfollows⟩ := h hsound
  obtain ⟨hsound₃, hfollows'⟩ := h' hsound₂
  exact ⟨hsound₃, hfollows.trans rewindable_alikeButCount hfollows'⟩

theorem addLog (w : World) (log : Log) : w.SteadyButCount (w.addLog log) := by
  intro hsound
  refine ⟨hsound.addLog _ _ log, [.log w.txHash], [], ?_, ?_, ?_, rfl, rfl⟩
  · simp [World.addLog, record, Journal.record_entries]
  · simp [World.addLog, record, Journal.record_marks]
  · exact ⟨rfl, rfl, Ledger.logs_dropLog_addLog hsound.logs _ _ _⟩

theorem alike (h : w.snapshot.2.SteadyButCount w') (hsound : w.Sound) :
    Ledger.AlikeButCount (w'.revert w.snapshot.1).toLedger w.toLedger :=
  (extends_revert (h hsound).2).rewind

theorem revert (h : w.snapshot.2.SteadyButCount w') :
    w.SteadyButCount (w'.revert w.snapshot.1) :=
  fun hsound ↦ ⟨(h.alike hsound).sound hsound, [], [], extends_revert (h hsound).2⟩

end SteadyButCount

end World

theorem frameRelation_steadyButCount (s : Setting) :
    FrameRelation s (fun _ ↦ True) (fun _ _ _ ↦ True) (fun _ ↦ World.SteadyButCount) :=
  have hsteady := frameRelation_steady s
  { refl := fun ro w ↦ .ofSteady (hsteady.refl ro w)
    trans := World.SteadyButCount.trans
    relax := id
    own := fun _ _ ↦ trivial
    ownCode := fun _ ↦ trivial
    store := fun key value hown ↦ .ofSteady (hsteady.store key value hown)
    log := fun log _ ↦ .addLog _ log
    refund := fun w gas ↦ .ofSteady (hsteady.refund w gas)
    snapshot := fun ro w ↦ .ofSteady (hsteady.snapshot ro w)
    revert := World.SteadyButCount.revert
    materialise := fun hmissing hpre ↦ .ofSteady (hsteady.materialise hmissing hpre)
    transfer := fun hown hthere hfunds hvalue ↦
      .ofSteady (hsteady.transfer hown hthere hfunds hvalue)
    nonce := fun hown hnext ↦ .ofSteady (hsteady.nonce hown hnext)
    creation := fun hown hfree hfunds ↦ .ofSteady (hsteady.creation hown hfree hfunds)
    ownCreation := fun _ _ _ _ ↦ trivial
    deposited := fun code _ hopened hran ↦
      hopened.trans (hran.trans (.ofSteady (World.Steady.edit _ (.setCode _ code) (by simp)))) }

/-! ## The contract -/

/-- A fault of the interpreter that the dispatcher takes for one of its own. -/
def Request.Mistakes (s : Setting) (request : Request) (fault : Fault) : Prop :=
  request.isCreate = true ∧ fault = .codeStoreOutOfGas ∧ s.rules.homestead = false

theorem Request.keeps_error_iff {s : Setting} {request : Request} {fault : Fault} :
    request.keeps s.rules (.error fault) = true ↔ request.Mistakes s fault := by
  unfold keeps Mistakes
  cases request.isCreate with
  | false => simp [Except.isOk, Except.toBool]
  | true => simp [keepsCreation_error]

theorem Request.base_sound {w : World} (h : w.Sound) (request : Request) :
    (request.base w).Sound := by
  cases request with
  | create caller initCode gas value =>
      exact (World.Steady.edit w (.setNonce caller _) (by simp) h).1
  | _ => exact h

/-- Where no log turns the counter over, a frame whose code faults goes back to the letter. -/
theorem answer_of_fault_restores {s : Setting} {exec : Exec} {m start : Machine} {request : Request}
    {f : Frame} {input : Bytes} {fault : Fault}
    (hexec : exec.Keeps (fun _ _ _ ↦ True) fun _ ↦ World.Steady) (hsound : m.world.Sound)
    (hcode : request.codeRun? s m = some (f, input, start))
    (hfault : (answer s exec request m).1.result = .error fault)
    (hproper : ¬request.Mistakes s fault) :
    (answer s exec request m).2.world = request.base m.world := by
  obtain ⟨hentry, hopening, -⟩ := Request.codeRun?_eq_some_iff.mp hcode
  cases request with
  | create caller initCode gas value =>
      obtain ⟨next, hnext, -⟩ := Request.exists_of_opening?_create hopening
      obtain ⟨hnonce, -⟩ := Nonce.next?_eq_some_iff.mp hnext
      exact failed_creation_rolls_back hexec hsound hentry hnonce hfault fun h ↦ hproper ⟨rfl, h⟩
  | _ => exact failed_call_rolls_back hexec hsound rfl hfault

/-- The error contract of interpreters.  Whatever an interpreter does, a fault that its run for a frame
ends with is the fault of the frame.  A revert keeps the gas that the frame has left, any other fault
leaves none.  Accounts, refund and logs are taken back, and the counter of logs too if no log turned
it over, so that an interpreter which stops short of that gives the same answer.  Of a creation the
creator's nonce stays counted up.  But if a creation before homestead ends with the fault of code that
cannot be paid for, gas and changes are kept, although there was nothing to pay for yet. -/
theorem interpreter_faults_undo_frame {s : Setting} {engine : Engine}
    (hengine : engine.IsInterpreter fun _ ↦ True) {m : Machine} (hreach : m.world.Reachable)
    (hslots : m.world.NoZeroSlots) {request : Request} {f : Frame} {input : Bytes} {start : Machine}
    (hcode : request.codeRun? s m = some (f, input, start)) {run : Run}
    (hrun : run = engine (dispatchWithin s engine (s.env.limits.maxCallDepth - m.depth)) f input
      { start with depth := start.depth + 1 })
    {fault : Fault} (hfault : run.result = .error fault) :
    (dispatchWith s engine request m).1.result = .error fault ∧
    (¬request.Mistakes s fault →
      (dispatchWith s engine request m).1.gasLeft = (if fault.isRevert then run.frame.gas else 0) ∧
      Ledger.AlikeButCount (dispatchWith s engine request m).2.world.toLedger
        (request.base m.world).toLedger ∧
      (∀ checked : Engine, checked.IsInterpreter (fun w ↦ w.HasLogRoom) →
        dispatchWith s checked request m = dispatchWith s engine request m →
        (dispatchWith s engine request m).2.world = request.base m.world)) ∧
    (request.Mistakes s fault →
      (dispatchWith s engine request m).1.gasLeft = run.frame.gas ∧
      (dispatchWith s engine request m).2.world = run.machine.world) := by
  have hsound : m.world.Sound := ⟨hslots, hreach.noEmptyLogs⟩
  obtain ⟨-, hlimit, -⟩ := Request.codeRun?_depth hcode
  have hlevels : s.env.limits.maxCallDepth + 1 - m.depth =
      s.env.limits.maxCallDepth - m.depth + 1 := by omega
  have hplain : ∀ engine : Engine, dispatchWith s engine request m =
      answer s (codeRunner s engine (s.env.limits.maxCallDepth - m.depth + 1)) request m := by
    intro engine
    rw [dispatchWith, dispatchWithin_eq_answer, hlevels]
  -- Seen from its frame, the run differs by the depth that it comes back at.
  have hran : (codeRunner s engine (s.env.limits.maxCallDepth - m.depth + 1) f input start).result =
      .error fault := by
    rw [hrun] at hfault
    exact hfault
  obtain ⟨hresult, hgas, hworld⟩ := answer_of_faulted_code hcode rfl hran
  rw [← hplain engine] at hresult hgas hworld
  refine ⟨hresult, ?_, ?_⟩
  · intro hproper
    refine ⟨?_, ?_, ?_⟩
    · rw [hgas, if_neg (mt Request.keeps_error_iff.mp hproper), hrun]
      rfl
    · have hrelation := frameRelation_steadyButCount s
      have hkeeps := hrelation.interpreterRunner hengine (s.env.limits.maxCallDepth - m.depth + 1)
      rw [hworld, if_neg (mt Request.keeps_error_iff.mp hproper)]
      exact (hrelation.codeRun hkeeps hcode).alike (Request.base_sound hsound request)
    · intro checked hchecked hsame
      rw [← hsame, hplain checked] at hresult ⊢
      have hkeeps := (frameRelation_steady s).interpreterRunner hchecked
        (s.env.limits.maxCallDepth - m.depth + 1)
      exact answer_of_fault_restores hkeeps hsound hcode hresult hproper
  · intro hmistaken
    rw [hgas, hworld, if_pos (Request.keeps_error_iff.mpr hmistaken),
      if_pos (Request.keeps_error_iff.mpr hmistaken), hrun]
    exact ⟨rfl, rfl⟩

/-- Code 3 overwrites a slot, logs and fails. -/
def botchingTable : ExtTreeMap Bytes (List Op) :=
  (∅ : ExtTreeMap Bytes (List Op)).insert [3] [.store 1 8, .log [] [4], .fail]

def botchingSetting : Setting := scriptSetting botchingTable

def botchingMachine : Machine where
  world := (({} : World).placeAccount 21 { code := [3] }).placeAccount 20
    { storage := Storage.write ∅ 1 7 }

theorem botching_code_undoes_frame :
    (dispatch botchingSetting (.callCode 20 21 [] 20000 0) botchingMachine).1.result =
        .error (.interpreter "invalid opcode") ∧
      (dispatch botchingSetting (.callCode 20 21 [] 20000 0) botchingMachine).1.gasLeft = 0 ∧
      (dispatch botchingSetting (.callCode 20 21 [] 20000 0) botchingMachine).2.world =
        botchingMachine.world := by
  have hreach : botchingMachine.world.Reachable := (World.Reachable.empty.place _ _).place _ _
  have hslots : botchingMachine.world.NoZeroSlots :=
    (Ledger.noZeroSlots_empty.setAccount 21 Storage.noZero_empty).setAccount 20
      (Storage.noZero_empty.write 1 7)
  have hlogs : LogCounterFits botchingSetting botchingTable (.callCode 20 21 [] 20000 0)
      botchingMachine := by
    decide +kernel
  have hcode : (Request.callCode 20 21 [] 20000 0).codeRun? botchingSetting botchingMachine =
      some (_, _, _) := Request.codeRun?_eq_some_iff.mpr ⟨by decide, rfl, by decide⟩
  obtain ⟨hresult, hundone, -⟩ := interpreter_faults_undo_frame
    (botchingSetting.env.interpreter.engine_isInterpreter botchingSetting) hreach hslots hcode rfl
    rfl
  obtain ⟨hgas, -, hexact⟩ := hundone fun h ↦ Bool.noConfusion h.1
  exact ⟨hresult, hgas, hexact (checkedEngine botchingTable)
    (checkedEngine_isEffectful botchingTable).isInterpreter (hlogs.dispatch_eq rfl).symm⟩

/-- Initial code 1 gives up with the fault of code that cannot be paid for. -/
def pretendingTable : ExtTreeMap Bytes (List ProbeOp) :=
  (∅ : ExtTreeMap Bytes (List ProbeOp)).insert [1] [.raise .codeStoreOutOfGas]

/-- Homestead never starts. -/
def pretendingSetting : Setting :=
  { scriptSetting ∅ with
    env := { chain := { homesteadBlock := none }, interpreter := .probe pretendingTable } }

def pretendingMachine : Machine where
  world := ({} : World).placeAccount 17 { balance := 5 }

/-- How code is run for requests from outside. -/
def pretendingExec : Exec :=
  codeRunner pretendingSetting (pretendingSetting.env.interpreter.engine pretendingSetting) 1025

theorem pretended_fault_keeps_gas_and_account :
    pretendingMachine.world.Reachable ∧ pretendingMachine.world.NoZeroSlots ∧
    ∃ f input start,
      (Request.create 17 [1] 50000 0).codeRun? pretendingSetting pretendingMachine =
          some (f, input, start) ∧
        (pretendingExec f input start).result = .error .codeStoreOutOfGas ∧
        (dispatch pretendingSetting (.create 17 [1] 50000 0) pretendingMachine).1.gasLeft = 50000 ∧
        (dispatch pretendingSetting (.create 17 [1] 50000 0)
          pretendingMachine).2.world.hasAccount contestedAddress = true := by
  have hnonce : pretendingMachine.world.nonce 17 = 0 := by decide
  have haddress : contestedAddress =
      Address.ofCreation 17 (pretendingMachine.world.nonce 17) := by
    rw [hnonce, ofCreation_contested]
  have hnext : (pretendingMachine.world.nonce 17).next? = some 1 := by
    rw [hnonce]
    rfl
  have hcode : (Request.create 17 [1] 50000 0).codeRun? pretendingSetting pretendingMachine =
      some (_, _, _) :=
    Request.codeRun?_eq_some_iff.mpr
      ⟨by decide, Request.opening?_create hnext rfl haddress (by decide) rfl, by decide⟩
  have hanswer : dispatch pretendingSetting (.create 17 [1] 50000 0) pretendingMachine =
      answer pretendingSetting pretendingExec (.create 17 [1] 50000 0) pretendingMachine := by
    rw [dispatch, dispatchWith, dispatchWithin_eq_answer]
    rfl
  obtain ⟨-, hgas, hworld⟩ := @answer_of_faulted_code _ pretendingExec _ _ _ _ _
    .codeStoreOutOfGas _ hcode rfl rfl
  have hslots : pretendingMachine.world.NoZeroSlots :=
    Ledger.noZeroSlots_empty.setAccount 17 Storage.noZero_empty
  refine ⟨World.Reachable.empty.place _ _, hslots, _, _, _, hcode, rfl, ?_⟩
  rw [hanswer, hgas, hworld]
  decide

end MeteredLedger
