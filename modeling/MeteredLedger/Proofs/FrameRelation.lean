import MeteredLedger.Proofs.FrameConduct

/-!
# Relations that frames respect

One induction over the nesting of frames serves every statement of the form "whatever a frame does,
the world afterwards stands in this relation to the world before".  The relation may depend on
whether the frame may write.  `FrameRelation` lists what has to be shown of it: that it holds for
the single changes of the world, and that it survives going back to a snapshot.  The account that
code works on is tracked by a second predicate, since only that account is written to.
-/

namespace MeteredLedger

open Std

/-- What a relation between worlds has to satisfy to be respected by every frame. -/
structure FrameRelation (s : Setting) (room : World → Prop) (Own : Bool → World → Address → Prop)
    (R : Bool → World → World → Prop) : Prop where
  refl : ∀ ro w, R ro w w
  trans : ∀ {ro w₁ w₂ w₃}, R ro w₁ w₂ → R ro w₂ w₃ → R ro w₁ w₃
  relax : ∀ {w₁ w₂}, R true w₁ w₂ → R false w₁ w₂
  own : ∀ {ro w₁ w₂ a}, Own ro w₁ a → R ro w₁ w₂ → Own ro w₂ a
  ownCode : ∀ {ro w a}, w.code a ≠ [] → Own ro w a
  store : ∀ {w a} key value, Own false w a → R false w (w.setStorage a key value)
  log : ∀ {w} log, room w → R false w (w.addLog log)
  refund : ∀ w gas, R false w (w.addRefund gas)
  snapshot : ∀ ro w, R ro w w.snapshot.2
  revert : ∀ {ro w w'}, R ro w.snapshot.2 w' → R ro w (w'.revert w.snapshot.1)
  materialise : ∀ {ro w a}, w.hasAccount a = false →
    (ro = true → s.env.precompiles.contains a = true) → R ro w (w.createAccount a)
  transfer : ∀ {ro w caller target value}, Own ro w caller → w.hasAccount target = true →
    s.context.funds.allows w caller value = true → (ro = true → value = 0) →
    R ro w (s.context.transfers.apply w caller target value)
  nonce : ∀ {w caller next}, Own false w caller → (w.nonce caller).next? = some next →
    R false w (w.setNonce caller next)
  creation : ∀ {w caller address value}, Own false w caller → w.isTaken address = false →
    s.context.funds.allows w caller value = true →
    R false w.snapshot.2 (creationWorld s w caller address value)
  ownCreation : ∀ w caller address value,
    Own false (creationWorld s w caller address value) address
  deposited : ∀ {w caller address value w'} code, w.isTaken address = false →
    R false w.snapshot.2 (creationWorld s w caller address value) →
    R false (creationWorld s w caller address value) w' →
    R false w.snapshot.2 (w'.setCode address code)

/-- A machine after something was done on it: its world is related to the one before, and depth and
leave to write are the same. -/
structure Kept (R : Bool → World → World → Prop) (m m' : Machine) : Prop where
  world : R m.readOnly m.world m'.world
  readOnly : m'.readOnly = m.readOnly
  depth : m'.depth = m.depth

def Exec.Keeps (Own : Bool → World → Address → Prop) (R : Bool → World → World → Prop)
    (exec : Exec) : Prop :=
  ∀ f input m, Own m.readOnly m.world f.address → Kept R m (exec f input m).machine

def Dispatcher.Keeps (Own : Bool → World → Address → Prop) (R : Bool → World → World → Prop)
    (d : Dispatcher) : Prop :=
  ∀ request m, request.isStatic = true ∨ Own m.readOnly m.world request.caller →
    Kept R m (d request m).2

namespace FundsPolicy

/-- Whether a caller can pay depends on its balance only. -/
theorem allows_congr (p : FundsPolicy) {w w' : World} {a : Address} (amount : Wei)
    (h : w'.balance a = w.balance a) : p.allows w' a amount = p.allows w a amount := by
  cases p <;> simp [allows, World.canPay, h]

end FundsPolicy

/-- A request that is let through is covered by the caller, and writes only where it may. -/
theorem admitted {s : Setting} {m : Machine} {request : Request}
    (h : refuse? s m request = none) :
    (∀ caller value, request.payment? = some (caller, value) →
      s.context.funds.allows m.world caller value = true) ∧
    (m.readOnly = true → request.writes = false) := by
  simp only [refuse?, ite_eq_iff, reduceCtorEq, and_false, false_or, and_true] at h
  obtain ⟨-, -, hpaid, hwrites⟩ := h
  constructor
  · intro caller value hpayment
    simpa [hpayment] using hpaid
  · intro hro
    simpa [hro] using hwrites

/-- Creations are only let through where writing is allowed. -/
theorem mayCreate {s : Setting} {m : Machine} {caller : Address} {initCode : Bytes} {gas : Gas}
    {value : Wei} (h : refuse? s m (.create caller initCode gas value) = none) :
    m.readOnly = false := by
  rw [← Bool.not_eq_true]
  intro hro
  cases (admitted h).2 hro

namespace FrameRelation

variable {s : Setting} {room : World → Prop} {Own : Bool → World → Address → Prop}
  {R : Bool → World → World → Prop}

theorem ofStatic (h : FrameRelation s room Own R) {ro static : Bool} {w₁ w₂ : World}
    (hrel : R (ro || static) w₁ w₂) : R ro w₁ w₂ := by
  cases ro with
  | true => exact hrel
  | false =>
      cases static with
      | true => exact h.relax hrel
      | false => exact hrel

/-- One effect of an operation, given frames that keep the relation. -/
theorem effect (h : FrameRelation s room Own R) {nested : Dispatcher} (hnested : nested.Keeps Own R)
    {f f' : Frame} {m m' : Machine} (heffect : Effect room nested f m f' m')
    (hown : Own m.readOnly m.world f.address) : Kept R m m' ∧ f'.address = f.address := by
  cases heffect with
  | pay gas hgas => exact ⟨⟨h.refl _ _, rfl, rfl⟩, rfl⟩
  | store key value hwrite =>
      rw [hwrite] at hown
      refine ⟨⟨?_, rfl, rfl⟩, rfl⟩
      rw [hwrite]
      exact h.store key value hown
  | log log hwrite hroom =>
      refine ⟨⟨?_, rfl, rfl⟩, rfl⟩
      rw [hwrite]
      exact h.log log hroom
  | refund gas hwrite =>
      refine ⟨⟨?_, rfl, rfl⟩, rfl⟩
      rw [hwrite]
      exact h.refund m.world gas
  | halt => exact ⟨⟨h.refl _ _, rfl, rfl⟩, rfl⟩
  | nest request hgas hcaller =>
      rw [← hcaller] at hown
      exact ⟨hnested request m (.inr hown), rfl⟩

theorem effects (h : FrameRelation s room Own R) {nested : Dispatcher}
    (hnested : nested.Keeps Own R) {f : Frame} {m : Machine} {y : Frame × Machine}
    (heffects : Effects room nested (f, m) y) (hown : Own m.readOnly m.world f.address) :
    Kept R m y.2 ∧ y.1.address = f.address := by
  induction heffects with
  | refl => exact ⟨⟨h.refl _ _, rfl, rfl⟩, rfl⟩
  | tail _ heffect ih =>
      obtain ⟨hkept, haddress⟩ := ih
      have hownNow := h.own hown hkept.world
      rw [← haddress, ← hkept.readOnly] at hownNow
      obtain ⟨hstep, haddress'⟩ := h.effect hnested heffect hownNow
      refine ⟨⟨?_, hstep.readOnly.trans hkept.readOnly, hstep.depth.trans hkept.depth⟩,
        haddress'.trans haddress⟩
      exact h.trans hkept.world (hkept.readOnly ▸ hstep.world)

theorem deeper (h : FrameRelation s room Own R) {engine : Engine}
    (hengine : engine.IsEffectful room) {nested : Dispatcher} (hnested : nested.Keeps Own R) :
    (deeper (engine nested)).Keeps Own R := by
  intro f input m hown
  have heffects := hengine nested f input { m with depth := m.depth + 1 }
  obtain ⟨hkept, -⟩ := h.effects hnested heffects hown
  refine ⟨hkept.world, hkept.readOnly, ?_⟩
  have hdepth := hkept.depth
  simp only [MeteredLedger.deeper] at hdepth ⊢
  omega

theorem runFrame (h : FrameRelation s room Own R) {exec : Exec} (hexec : exec.Keeps Own R)
    {f : Frame} {m : Machine} (input : Bytes)
    (hown : f.code ≠ [] → Own m.readOnly m.world f.address) :
    Kept R m (runFrame s exec f input m).machine := by
  rcases runFrame_cases s exec f input m with ⟨hmachine, -⟩ | ⟨hcode, hrun⟩
  · rw [hmachine]
    exact ⟨h.refl _ _, rfl, rfl⟩
  · rw [hrun]
    exact hexec f input m (hown hcode)

/-- The world in which a called account's code starts. -/
theorem callWorld (h : FrameRelation s room Own R) {ro : Bool} {w : World}
    {caller target : Address} {value : Wei} (hown : Own ro w caller)
    (hfunds : s.context.funds.allows w caller value = true) (hvalue : ro = true → value = 0)
    (hreal : w.hasAccount target = true ∨ s.env.precompiles.contains target = true ∨ value ≠ 0) :
    R ro w.snapshot.2 (callWorld s w caller target value) := by
  have hownNow := h.own hown (h.snapshot ro w)
  unfold MeteredLedger.callWorld
  split
  · rename_i hthere
    exact h.transfer hownNow hthere hfunds hvalue
  · rename_i hmissing
    have hnobody : w.snapshot.2.hasAccount target = false := Bool.eq_false_iff.mpr hmissing
    have hplace : R ro w.snapshot.2 (w.snapshot.2.createAccount target) := by
      apply h.materialise hnobody
      intro hro
      rcases hreal with hthere | hpre | hpays
      · exact absurd hthere hmissing
      · exact hpre
      · exact absurd (hvalue hro) hpays
    refine h.trans hplace (h.transfer (h.own hownNow hplace) ?_ ?_ hvalue)
    · exact World.hasAccount_createAccount _ target
    · rw [FundsPolicy.allows_congr _ _ (World.balance_createAccount _ target caller)]
      exact hfunds

/-- The world and the frame that a request which is no creation starts with. -/
theorem opens (h : FrameRelation s room Own R) {m : Machine} {request : Request} {frame : Frame}
    {target : Address} {static : Bool} {w : World} (hentry : refuse? s m request = none)
    (hopen : Opens s m.world request frame target static w)
    (hown : request.isStatic = true ∨ Own m.readOnly m.world request.caller) :
    R m.readOnly m.world.snapshot.2 w ∧
      (w.code target ≠ [] → Own (m.readOnly || static) w frame.address) := by
  obtain ⟨hfunds, hwrites⟩ := admitted hentry
  cases hopen with
  | call hreal =>
      have hcaller := hown.resolve_left (by simp [Request.isStatic])
      refine ⟨h.callWorld hcaller (hfunds _ _ rfl) ?_ hreal, h.ownCode⟩
      intro hro
      simpa [Request.writes] using hwrites hro
  | callCode =>
      have hcaller := hown.resolve_left (by simp [Request.isStatic])
      refine ⟨h.refl _ _, fun _ ↦ ?_⟩
      rw [Bool.or_false]
      exact h.own hcaller (h.snapshot _ _)
  | delegateCall =>
      have hcaller := hown.resolve_left (by simp [Request.isStatic])
      refine ⟨h.refl _ _, fun _ ↦ ?_⟩
      rw [Bool.or_false]
      exact h.own hcaller (h.snapshot _ _)
  | staticCall => exact ⟨h.refl _ _, h.ownCode⟩

/-- Up to the start of its initial code, a creation. -/
theorem creationWorld (h : FrameRelation s room Own R) {w : World} {caller address : Address}
    {value : Wei} {next : Nonce} (hown : Own false w caller)
    (hfunds : s.context.funds.allows w caller value = true)
    (hnext : (w.nonce caller).next? = some next)
    (hfree : (w.setNonce caller next).isTaken address = false) :
    R false w (w.setNonce caller next) ∧
      R false (w.setNonce caller next).snapshot.2
        (creationWorld s (w.setNonce caller next) caller address value) := by
  have hnonce := h.nonce hown hnext
  refine ⟨hnonce, h.creation (h.own hown hnonce) hfree ?_⟩
  rw [FundsPolicy.allows_congr _ _ (World.balance_setNonce w caller caller next)]
  exact hfunds

/-- From the start of its initial code to its end, a creation. -/
theorem creationRun (h : FrameRelation s room Own R) {exec : Exec} (hexec : exec.Keeps Own R)
    {w : World} {caller address : Address} {value : Wei} {f : Frame} {input : Bytes}
    {start : Machine} {run done : Run} (hfree : w.isTaken address = false)
    (hopened : R false w.snapshot.2 (MeteredLedger.creationWorld s w caller address value))
    (hstart : start.world = MeteredLedger.creationWorld s w caller address value)
    (hro : start.readOnly = false) (hrun : run = MeteredLedger.runFrame s exec f input start)
    (haddress : f.address = address) (hdone : done = deposit s address run) :
    R false w.snapshot.2 done.machine.world ∧ done.machine.readOnly = false ∧
      done.machine.depth = start.depth := by
  have hkept : Kept R start run.machine := by
    rw [hrun]
    apply h.runFrame hexec
    intro _
    rw [hro, hstart, haddress]
    exact h.ownCreation w caller address value
  have hran := hkept.world
  rw [hro, hstart] at hran
  rcases deposit_cases s address run with ⟨fault, hkeep⟩ | ⟨code, f', -, -, -, hstore⟩
  · rw [hdone, hkeep]
    exact ⟨h.trans hopened hran, hkept.readOnly.trans hro, hkept.depth⟩
  · rw [hdone, hstore]
    exact ⟨h.deposited code hfree hopened hran, hkept.readOnly.trans hro, hkept.depth⟩

/-- From its snapshot to its end, a frame that is no creation. -/
theorem calledRun (h : FrameRelation s room Own R) {exec : Exec} (hexec : exec.Keeps Own R)
    {m start : Machine} {request : Request} {frame : Frame} {target : Address} {static : Bool}
    {w : World} {input : Bytes} {run : Run}
    (hown : request.isStatic = true ∨ Own m.readOnly m.world request.caller)
    (hentry : refuse? s m request = none) (hopen : Opens s m.world request frame target static w)
    (hstart : start.world = w) (hstartRo : start.readOnly = (m.readOnly || static))
    (hrun : run = MeteredLedger.runFrame s exec
      (frame.withCode target (w.codeHash target) (w.code target)) input start) :
    R m.readOnly m.world.snapshot.2 run.machine.world ∧ run.machine.depth = start.depth := by
  obtain ⟨hopened, hownFrame⟩ := h.opens hentry hopen hown
  have hkept : Kept R start run.machine := by
    rw [hrun]
    apply h.runFrame hexec
    rw [hstart, hstartRo]
    exact hownFrame
  have hran := hkept.world
  rw [hstart, hstartRo] at hran
  exact ⟨h.trans hopened (h.ofStatic hran), hkept.depth⟩

/-- From the creator's new nonce to its end, a creation that is let through. -/
theorem counted (h : FrameRelation s room Own R) {exec : Exec} (hexec : exec.Keeps Own R)
    {m m' : Machine} {caller : Address} {initCode : Bytes} {gas : Gas} {value : Wei} {next : Nonce}
    {outcome : Outcome} (hown : Own m.readOnly m.world caller)
    (hentry : refuse? s m (.create caller initCode gas value) = none)
    (hnext : (m.world.nonce caller).next? = some next)
    (hconduct : Conduct s exec m (.create caller initCode gas value) outcome m') :
    R false m.world (m.world.setNonce caller next) ∧
      R false (m.world.setNonce caller next) m'.world ∧ m'.readOnly = m.readOnly ∧
      m'.depth = m.depth := by
  have hwrite := mayCreate hentry
  rw [hwrite] at hown
  refine ⟨h.nonce hown hnext, ?_⟩
  cases hconduct with
  | refused hrefuse =>
      rw [hentry] at hrefuse
      cases hrefuse
  | called _ hopen => cases hopen
  | spent _ hnone =>
      rw [hnext] at hnone
      cases hnone
  | collided _ hsame hworld hro hdepth =>
      cases hnext.symm.trans hsame
      exact ⟨hworld ▸ h.refl _ _, hro, hdepth⟩
  | reserved _ hsame haddress hfree hworld hro hdepth =>
      cases hnext.symm.trans hsame
      obtain ⟨-, hopened⟩ := h.creationWorld hown ((admitted hentry).1 _ _ rfl) hnext hfree
      refine ⟨?_, hro, hdepth⟩
      rw [hworld]
      exact h.trans (h.snapshot _ _) hopened
  | created _ hsame haddress hfree hstart hstartRo hstartDepth hstartCancelled hrun hdone hgas hworld
      hro hdepth =>
      cases hnext.symm.trans hsame
      obtain ⟨-, hopened⟩ := h.creationWorld hown ((admitted hentry).1 _ _ rfl) hnext hfree
      obtain ⟨hran, hranRo, hranDepth⟩ :=
        h.creationRun hexec hfree hopened hstart (hstartRo.trans hwrite) hrun rfl hdone
      refine ⟨?_, (hro.trans hranRo).trans hwrite.symm, (hdepth.trans hranDepth).trans hstartDepth⟩
      rw [hworld]
      split
      · exact h.trans (h.snapshot _ _) hran
      · exact h.revert hran

theorem answer (h : FrameRelation s room Own R) {exec : Exec} (hexec : exec.Keeps Own R) :
    (answer s exec).Keeps Own R := by
  intro request m hown
  have hconduct := answer_conduct s exec (m := m) request
  generalize MeteredLedger.answer s exec request m = result at hconduct ⊢
  obtain ⟨outcome, m'⟩ := result
  have hcreation : ∀ {caller initCode gas value next},
      request = .create caller initCode gas value →
      refuse? s m (.create caller initCode gas value) = none →
      (m.world.nonce caller).next? = some next → Kept R m m' := by
    rintro caller initCode gas value next rfl hentry hnext
    have hcaller := hown.resolve_left (by simp [Request.isStatic])
    obtain ⟨hnonce, hrest, hro, hdepth⟩ := h.counted hexec hcaller hentry hnext hconduct
    refine ⟨?_, hro, hdepth⟩
    rw [mayCreate hentry]
    exact h.trans hnonce hrest
  cases hconduct with
  | refused hrefuse => exact ⟨h.refl _ _, rfl, rfl⟩
  | idle hentry hworld hro hdepth =>
      refine ⟨?_, hro, hdepth⟩
      rw [hworld]
      exact h.snapshot _ _
  | called hentry hopen hstart hstartRo hstartDepth hrun hworld hro hdepth =>
      obtain ⟨hran, hranDepth⟩ := h.calledRun hexec hown hentry hopen hstart hstartRo hrun
      refine ⟨?_, hro, (hdepth.trans hranDepth).trans hstartDepth⟩
      rw [hworld, Run.settle]
      split
      · exact h.trans (h.snapshot _ _) hran
      · exact h.revert hran
  | spent hentry hnext => exact ⟨h.refl _ _, rfl, rfl⟩
  | collided hentry hnext => exact hcreation rfl hentry hnext
  | reserved hentry hnext => exact hcreation rfl hentry hnext
  | created hentry hnext => exact hcreation rfl hentry hnext

theorem codeRunner (h : FrameRelation s room Own R) {engine : Engine}
    (hengine : engine.IsEffectful room) (levels : Nat) :
    (codeRunner s engine levels).Keeps Own R := by
  induction levels with
  | zero => exact fun _ _ _ _ ↦ ⟨h.refl _ _, rfl, rfl⟩
  | succ levels ih =>
      apply h.deeper hengine
      rw [dispatchWithin_eq_answer]
      exact h.answer ih

/-- Whatever a script asks for and does, the answer keeps the relation. -/
theorem dispatchWith (h : FrameRelation s room Own R) {engine : Engine}
    (hengine : engine.IsEffectful room) : (dispatchWith s engine).Keeps Own R := by
  intro request m hown
  rw [MeteredLedger.dispatchWith, dispatchWithin_eq_answer]
  exact h.answer (h.codeRunner hengine _) request m hown

end FrameRelation

end MeteredLedger
