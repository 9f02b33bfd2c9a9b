import MeteredLedger.Proofs.FrameGas

/-!
# What frames and failures cost

Gas goes down to nested frames and comes back up, so whether the sums are exact depends on every
frame below.  The exact engine runs scripts in the same way as the plain one and stops at the first
difference or sum of gas that goes round; since no frame hands back more than it got, it never does.
A failure costs all the gas of its frame, apart from an explicit revert, the checks made before the
frame starts, and code that cannot be paid for under the old rules.
-/

namespace MeteredLedger

open Std

/-! ## Exact sums -/

theorem Frame.pay?_exact {f f' : Frame} {gas : Gas} (h : f.pay? gas = some f') :
    f'.gas.toNat + gas.toNat = f.gas.toNat := by
  obtain ⟨hle, rfl⟩ := Frame.pay?_eq_some h
  have hsub := UInt64.toNat_sub_of_le f.gas gas hle
  rw [UInt64.le_iff_toNat_le] at hle
  simp only
  omega

/-- Hands gas to a nested frame and takes back what is left; where the difference or the sum goes
round, `trap` takes over. -/
def Frame.nestExact (trap : Frame → Machine → Step) (f : Frame) (nested : Dispatcher) (gas : Gas)
    (request : Frame → Gas → Request) (m : Machine) : Step :=
  let allowance := min gas f.gas
  if (f.gas - allowance).toNat + allowance.toNat ≠ f.gas.toNat then trap f m
  else
    let f := { f with gas := f.gas - allowance }
    let (outcome, m) := nested (request f allowance) m
    if (f.gas + outcome.gasLeft).toNat ≠ f.gas.toNat + outcome.gasLeft.toNat then trap f m
    else .next { f with gas := f.gas + outcome.gasLeft } m

def Op.stepExact (trap : Frame → Machine → Step) (nested : Dispatcher) (input : Bytes) (op : Op)
    (f : Frame) (m : Machine) : Step :=
  match op with
  | call kind target gas value =>
    f.nestExact trap nested gas (Frame.request kind target value input) m
  | callSelf gas => f.nestExact trap nested gas (Frame.request .call f.address 0 input) m
  | create initCode gas value =>
    f.nestExact trap nested gas (Frame.request .create f.address value initCode) m
  | op => op.step nested input f m

/-- The engine that runs scripts with exact sums of gas. -/
def exactEngine (trap : Frame → Machine → Step) (table : ExtTreeMap Bytes (List Op)) : Engine :=
  fun nested f input m ↦ runTable table (Op.stepExact trap nested input) f m

theorem Frame.nestExact_eq {nested : Dispatcher} (h : nested.SpendsGas)
    (trap : Frame → Machine → Step) (f : Frame) (gas : Gas) (kind : CallKind) (target : Address)
    (value : Wei) (input : Bytes) (m : Machine) :
    f.nestExact trap nested gas (Frame.request kind target value input) m =
      f.nest nested gas (Frame.request kind target value input) m := by
  have hgiven : min gas f.gas ≤ f.gas := Std.min_le_right
  have hleft := h (Frame.request kind target value input
    { f with gas := f.gas - min gas f.gas } (min gas f.gas)) m
  rw [Frame.request_gas] at hleft
  have hdown : (f.gas - min gas f.gas).toNat + (min gas f.gas).toNat = f.gas.toNat := by
    rw [UInt64.toNat_sub_of_le _ _ hgiven, Nat.sub_add_cancel (UInt64.le_iff_toNat_le.mp hgiven)]
  have hup := Gas.toNat_handBack hgiven hleft
  simp only [Frame.nestExact, Frame.nest, hdown, hup, ne_eq, not_true_eq_false, if_false]

theorem Op.stepExact_eq {nested : Dispatcher} (h : nested.SpendsGas)
    (trap : Frame → Machine → Step) (input : Bytes) :
    Op.stepExact trap nested input = Op.step nested input := by
  funext op f m
  cases op with
  | call kind target gas value => exact Frame.nestExact_eq h trap f gas kind target value input m
  | callSelf gas => exact Frame.nestExact_eq h trap f gas .call f.address 0 input m
  | create initCode gas value =>
      exact Frame.nestExact_eq h trap f gas .create f.address value initCode m
  | _ => rfl

/-- No frame, however deep, gets to the trap. -/
theorem dispatchWithin_exact (s : Setting) (trap : Frame → Machine → Step)
    (table : ExtTreeMap Bytes (List Op)) (levels : Nat) :
    dispatchWithin s (exactEngine trap table) levels =
      dispatchWithin s (scriptEngine table) levels := by
  induction levels with
  | zero => rfl
  | succ levels ih =>
      have hspends := dispatchWithin_spendsGas (s := s) (scriptEngine_isEffectful table) levels
      have hengine : exactEngine trap table (dispatchWithin s (scriptEngine table) levels) =
          scriptEngine table (dispatchWithin s (scriptEngine table) levels) := by
        funext f input m
        simp only [exactEngine, scriptEngine, Op.stepExact_eq hspends]
      rw [dispatchWithin, dispatchWithin, ih, hengine]

/-! ## Failures -/

/-- Whether a frame that failed so may hand gas back. -/
def Fault.mayKeepGas (rules : Rules) : Fault → Bool
  | reverted _ => true
  | depthExceeded => true
  | insufficientBalance => true
  | nonceOverflow => true
  | codeStoreOutOfGas => !rules.homestead
  | _ => false

theorem settledGas_of_fault {result : Except Fault Bytes} {fault : Fault} {rules : Rules}
    (hfault : result = .error fault) (hcost : fault.mayKeepGas rules = false) (gas : Gas) :
    settledGas result gas = 0 := by
  subst hfault
  cases fault with
  | reverted data => cases hcost
  | _ => rfl

theorem answer_fault_gas (s : Setting) (exec : Exec) {request : Request} {m : Machine}
    {fault : Fault} (hfault : (answer s exec request m).1.result = .error fault)
    (hcost : fault.mayKeepGas s.rules = false) : (answer s exec request m).1.gasLeft = 0 := by
  have hconduct := answer_conduct s exec (m := m) request
  generalize answer s exec request m = answered at hconduct hfault ⊢
  obtain ⟨outcome, m'⟩ := answered
  cases hconduct with
  | refused hrefuse =>
      cases refuse?_refusal hrefuse with
      | skipped hrecursion hdepth hcall => cases hfault
      | guarded hro hwrites => rfl
      | _ =>
          cases hfault
          cases hcost
  | idle hentry hworld hro hdepth => cases hfault
  | called hentry hopen hstart hstartRo hstartDepth hrun hworld hro hdepth =>
      exact settledGas_of_fault hfault hcost _
  | spent hentry hnext =>
      cases hfault
      cases hcost
  | collided hentry hnext hworld hro hdepth => rfl
  | reserved hentry hnext haddress hfree hworld hro hdepth => cases hfault
  | created hentry hnext haddress hfree hstart hstartRo hstartDepth hstartCancelled hrun hdone hgas
      hworld hro hdepth =>
      simp only at hfault ⊢
      -- A creation that keeps its gas has succeeded, or could not pay for its code before homestead.
      have hdrops : keepsCreation s.rules (.error fault) = false := by
        cases fault with
        | codeStoreOutOfGas => exact hcost
        | _ => rfl
      rw [hgas, hfault, hdrops]
      exact settledGas_of_fault rfl hcost _

/-! ## Refusals -/

/-- Whether the switch against recursion answers the request. -/
def Request.isSkipped (request : Request) (s : Setting) (m : Machine) : Bool :=
  s.env.limits.noRecursion && decide (0 < m.depth) && !request.isCreate

def Request.isUnpaid (request : Request) (s : Setting) (m : Machine) : Bool :=
  match request.payment? with
  | some (caller, value) => !s.context.funds.allows m.world caller value
  | none => false

/-- What is left of the gas of a request that one of the checks turns away. -/
structure RefusalsCharged (s : Setting) (m : Machine) (request : Request) (outcome : Outcome) :
    Prop where
  depth : request.isSkipped s m = false → s.env.limits.maxCallDepth < m.depth →
    outcome = .failed .depthExceeded request.gas
  funds : request.isSkipped s m = false → m.depth ≤ s.env.limits.maxCallDepth →
    request.isUnpaid s m = true → outcome = .failed .insufficientBalance request.gas
  writes : request.isSkipped s m = false → m.depth ≤ s.env.limits.maxCallDepth →
    request.isUnpaid s m = false → m.readOnly = true → request.writes = true →
    outcome = .failed .writeProtection 0
  nonce : ∀ caller initCode gas value, request = .create caller initCode gas value →
    refuse? s m request = none → m.world.nonce caller = Nonce.largest →
    outcome = .failed .nonceOverflow request.gas
  collision : ∀ caller initCode gas value, request = .create caller initCode gas value →
    refuse? s m request = none → m.world.nonce caller ≠ Nonce.largest →
    (m.world.setNonce caller (m.world.nonce caller + 1)).isTaken
      (Address.ofCreation caller (m.world.nonce caller)) = true →
    outcome = .failed .addressCollision 0

theorem answer_refusalsCharged (s : Setting) (exec : Exec) (request : Request) (m : Machine) :
    RefusalsCharged s m request (answer s exec request m).1 := by
  have hchecks : refuse? s m request =
      if request.isSkipped s m then some (.skipped request.gas)
      else if s.env.limits.maxCallDepth < m.depth then some (.failed .depthExceeded request.gas)
      else if request.isUnpaid s m then some (.failed .insufficientBalance request.gas)
      else if m.readOnly && request.writes then some (.failed .writeProtection 0)
      else none := rfl
  refine ⟨?_, ?_, ?_, ?_, ?_⟩
  · intro hgo hdeep
    rw [answer_of_refusal]
    rw [hchecks, if_neg (by simp [hgo]), if_pos hdeep]
  · intro hgo hdepth hunpaid
    rw [answer_of_refusal]
    rw [hchecks, if_neg (by simp [hgo]), if_neg (by omega), if_pos hunpaid]
  · intro hgo hdepth hpaid hro hwrites
    rw [answer_of_refusal]
    rw [hchecks, if_neg (by simp [hgo]), if_neg (by omega), if_neg (by simp [hpaid]),
      if_pos (by simp [hro, hwrites])]
  · rintro caller initCode gas value rfl hentry hnonce
    have hnext : (m.world.nonce caller).next? = none := by simp [Nonce.next?, hnonce]
    simp only [answer, hentry, enterCreate, hnext, Request.gas]
  · rintro caller initCode gas value rfl hentry hnonce htaken
    have hnext : (m.world.nonce caller).next? = some (m.world.nonce caller + 1) := by
      simp [Nonce.next?, hnonce]
    simp only [answer, hentry, enterCreate, hnext, htaken, if_true]

/-- Gas is never created, and failures are expensive.  An answer leaves no more gas than was asked
for; every payment is exact, and so is every sum of gas in a script, nested as deep as may be, since
the answer does not depend on what is done where one goes round.  A frame that fails leaves nothing,
unless it fails in one of the ways that may keep gas; the checks made before a frame starts leave
all or nothing. -/
theorem gas_is_never_created {s : Setting} {table : ExtTreeMap Bytes (List Op)}
    (hs : s.env.interpreter = .script table) (request : Request) (m : Machine) :
    (dispatch s request m).1.gasLeft ≤ request.gas ∧
      (∀ (f f' : Frame) (gas : Gas), f.pay? gas = some f' →
        f'.gas.toNat + gas.toNat = f.gas.toNat) ∧
      (∀ trap, dispatchWith s (exactEngine trap table) request m = dispatch s request m) ∧
      (∀ fault, (dispatch s request m).1.result = .error fault →
        fault.mayKeepGas s.rules = false → (dispatch s request m).1.gasLeft = 0) ∧
      RefusalsCharged s m request (dispatch s request m).1 := by
  rw [dispatch_eq_script hs]
  refine ⟨?_, ?_, ?_, ?_, ?_⟩
  · exact dispatchWith_spendsGas (scriptEngine_isEffectful table) request m
  · intro f f' gas hpay
    exact Frame.pay?_exact hpay
  · intro trap
    rw [dispatchWith, dispatchWith, dispatchWithin_exact]
  · intro fault hfault hcost
    rw [dispatchWith, dispatchWithin_eq_answer] at hfault ⊢
    exact answer_fault_gas s _ hfault hcost
  · rw [dispatchWith, dispatchWithin_eq_answer]
    exact answer_refusalsCharged s _ request m

/-- Account 1 calls itself with all its gas until it is too deep, and then pays more than it has. -/
def sinkingTable : ExtTreeMap Bytes (List Op) :=
  (∅ : ExtTreeMap Bytes (List Op)).insert [1]
    [.burn 10, .callSelf 0xffffffffffffffff, .call .call 4 100 0, .burn 950]

def sinkingSetting : Setting :=
  { scriptSetting sinkingTable with
    env := { (scriptSetting sinkingTable).env with
      limits := { noRecursion := false, maxCallDepth := 3, maxCodeSize := 100 } } }

def sinkingMachine : Machine where
  world := ({} : World).placeAccount 1 { code := [1] }

theorem sinking_call_leaves_no_gas :
    (dispatch sinkingSetting (.call 1 1 [] 1000 0) sinkingMachine).1.result = .error .outOfGas ∧
      (dispatch sinkingSetting (.call 1 1 [] 1000 0) sinkingMachine).1.gasLeft = 0 := by
  have hs : sinkingSetting.env.interpreter = .script sinkingTable := rfl
  have hfault : (dispatch sinkingSetting (.call 1 1 [] 1000 0) sinkingMachine).1.result =
      .error .outOfGas := Outcome.result_eq_error_iff.mpr (by decide +kernel)
  obtain ⟨-, -, -, hcosts, -⟩ := gas_is_never_created hs (.call 1 1 [] 1000 0) sinkingMachine
  exact ⟨hfault, hcosts .outOfGas hfault rfl⟩

end MeteredLedger
