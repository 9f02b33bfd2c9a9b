import Mathlib.Algebra.Ring.Nat
import MeteredLedger.Proofs.DeployedCode
import MeteredLedger.Proofs.MessageStart
import MeteredLedger.Proofs.ReplayProtection

/-!
# What a creation that succeeds leaves behind

The address of a new contract is fixed before its initial code runs, from the creator and the nonce
that the creator had then.  The initial code may do what it likes in between: call the creator back,
call the account under construction, or create further contracts.  No nonce goes down in the
meantime, so nobody else gets that address, and at the end the code is stored there and paid for.
The receipt of a creating transaction computes the address anew from the nonce that was signed.
-/

namespace MeteredLedger

open Std

/-! ## Stored code -/

/-- The account under construction has a nonce before any of its code runs. -/
theorem one_le_nonce_creationWorld (s : Setting) (w : World) (caller address : Address)
    (value : Wei) : 1 ≤ (creationWorld s w caller address value).nonce address := by
  have hle := (World.grows_transfer s.context.transfers
    ((w.snapshot.2.createAccount address).setNonce address 1) caller address value).nonce_le address
  rwa [World.nonce_setNonce] at hle

theorem Gas.toNat_codeDeposit {size : Nat} (h : size < 2 ^ 56) :
    (codeDeposit size).toNat = 200 * size := by
  have hmax : maxNat = 2 ^ 64 - 1 := rfl
  rw [codeDeposit, toNat_clamp, codeByte, hmax]
  omega

theorem deposit_eq_ok {s : Setting} {address : Address} {run : Run} {code : Bytes}
    (h : (deposit s address run).result = .ok code) :
    code.length ≤ s.env.limits.maxCodeSize ∧
      ∃ f, run.frame.pay? (Gas.codeDeposit code.length) = some f ∧ deposit s address run =
        ⟨.ok code, f, { run.machine with world := run.machine.world.setCode address code }⟩ := by
  rcases deposit_cases s address run with ⟨fault, hfault⟩ | ⟨code', f, -, hsize, hpay, hstored⟩
  · rw [hfault] at h
    cases h
  · rw [hstored] at h
    cases h
    exact ⟨hsize, f, hpay, hstored⟩

/-! ## Creations -/

/-- What holds once a creation by `caller` with `gas`, started on the machine `m`, has deployed code
at an address and left the world `w`. -/
structure Deploys (s : Setting) (caller : Address) (gas : Gas) (m : Machine) (deployed : Bytes)
    (outcome : Outcome) (w : World) (a : Address) : Prop where
  address : a = Address.ofCreation caller (m.world.nonce caller)
  created : outcome.created = some a
  code : w.code a = deployed
  codeHash : w.codeHash a = keccak256 deployed
  size : deployed.length ≤ s.env.limits.maxCodeSize
  nonce : 1 ≤ w.nonce a
  counted : (m.world.nonce caller).toNat + 1 ≤ (w.nonce caller).toNat
  paid : deployed.length < 2 ^ 56 → outcome.gasLeft.toNat + 200 * deployed.length ≤ gas.toNat

theorem Deploys.taken {s : Setting} {caller : Address} {gas : Gas} {m : Machine} {deployed : Bytes}
    {outcome : Outcome} {w : World} {a : Address}
    (h : Deploys s caller gas m deployed outcome w a) : w.isTaken a = true := by
  refine World.isTaken_iff.mpr (.inl fun hzero ↦ ?_)
  have hone := h.nonce
  rw [hzero] at hone
  exact absurd hone (by decide)

theorem refuse?_created {s : Setting} {m : Machine} {request : Request} {outcome : Outcome}
    (h : refuse? s m request = some outcome) : outcome.created = none := by
  cases refuse?_refusal h <;> rfl

section Conducts

variable {s : Setting} {exec : Exec} {m m' : Machine} {caller : Address} {initCode : Bytes}
  {gas : Gas} {value : Wei} {outcome : Outcome}

/-- The only address that a creation reports is the one fixed at its start. -/
theorem Conduct.created_address {a : Address}
    (h : Conduct s exec m (.create caller initCode gas value) outcome m')
    (hcreated : outcome.created = some a) :
    a = Address.ofCreation caller (m.world.nonce caller) := by
  cases h with
  | refused hrefuse =>
      rw [refuse?_created hrefuse] at hcreated
      cases hcreated
  | called hentry hopen => cases hopen
  | spent hentry hnext => cases hcreated
  | collided hentry hnext => cases hcreated
  | reserved hentry hnext haddress =>
      cases hcreated
      exact haddress
  | created hentry hnext haddress =>
      cases hcreated
      exact haddress

/-- While its initial code runs, the account under construction keeps a nonce. -/
theorem one_le_nonce_of_run {w : World} {address : Address} {start : Machine}
    (hkeeps : exec.Keeps (fun _ _ _ ↦ True) fun _ ↦ World.Advances)
    (hstart : start.world = creationWorld s w caller address value) (f : Frame) (input : Bytes) :
    1 ≤ (runFrame s exec f input start).machine.world.nonce address := by
  have hgrows := ((frameRelation_advances s).runFrame (f := f) (m := start) hkeeps input
    fun _ ↦ trivial).world.grows
  have hone := one_le_nonce_creationWorld s w caller address value
  rw [← hstart] at hone
  exact UInt64.le_trans hone (hgrows.nonce_le address)

/-- Whatever its initial code does, a creation that runs and succeeds deploys the code it returns. -/
theorem Conduct.deploys {code : Bytes} (hkeeps : exec.Keeps (fun _ _ _ ↦ True) fun _ ↦ World.Advances)
    (hspends : exec.SpendsGas) (hrun : ¬(s.env.limits.noRecursion = true ∧ 0 < m.depth))
    (h : Conduct s exec m (.create caller initCode gas value) outcome m')
    (hok : outcome.result = .ok code) :
    ∃ a, Deploys s caller gas m code outcome m'.world a := by
  have hconduct := h
  cases h with
  | refused hrefuse =>
      cases refuse?_refusal hrefuse with
      | skipped hrecursion hdepth hcall => cases hcall
      | tooDeep => cases hok
      | unpaid => cases hok
      | guarded => cases hok
  | called hentry hopen => cases hopen
  | spent hentry hnext => cases hok
  | collided hentry hnext => cases hok
  | reserved _ _ _ _ _ _ _ hskip => exact absurd hskip hrun
  | @created _ address _ _ _ next start run done gasLeft _ hentry hnext haddress hfree hstart
      hstartRo hstartDepth hstartCancelled hruns hdone hgas hworld =>
      simp only at hok
      rw [hok, keepsCreation, if_pos rfl] at hgas hworld
      rw [hdone] at hok
      obtain ⟨hsize, f, hpay, hstored⟩ := deposit_eq_ok hok
      rw [hdone, hstored] at hgas hworld
      have hspent : run.frame.gas ≤ gas := by
        rw [hruns]
        exact hspends.runFrame _ _ _
      refine ⟨address, haddress, rfl, ?_, ?_, hsize, ?_, ?_, ?_⟩
      · rw [hworld, World.code_setCode]
      · rw [hworld, World.codeHash_setCode]
      · rw [hworld, World.nonce_setCode, hruns]
        exact one_le_nonce_of_run hkeeps hstart _ _
      · -- The creator counted up before the address was looked at, and never counts down.
        obtain ⟨-, hrest, -⟩ := (frameRelation_advances s).counted hkeeps trivial hentry hnext hconduct
        have hle := hrest.grows.nonce_le caller
        rw [World.nonce_setNonce, UInt64.le_iff_toNat_le] at hle
        exact Nat.le_trans (UInt64.lt_iff_toNat_lt.mp (Nonce.lt_of_next? hnext)) hle
      · intro hshort
        have hexact := Frame.pay?_exact hpay
        rw [Gas.toNat_codeDeposit hshort] at hexact
        rw [UInt64.le_iff_toNat_le] at hspent
        simp only [hgas]
        omega

end Conducts

theorem dispatch_conduct {s : Setting} {table : ExtTreeMap Bytes (List Op)}
    (hs : s.env.interpreter = .script table) (request : Request) (m : Machine) :
    ∃ exec, exec.Keeps (fun _ _ _ ↦ True) (fun _ ↦ World.Advances) ∧ exec.SpendsGas ∧
      Conduct s exec m request (dispatch s request m).1 (dispatch s request m).2 := by
  rw [dispatch_eq_script hs, dispatchWith, dispatchWithin_eq_answer]
  have heffectful := scriptEngine_isEffectful table
  exact ⟨_, (frameRelation_advances s).codeRunner heffectful _, codeRunner_spendsGas heffectful _,
    answer_conduct s _ request⟩

/-! ## Transactions -/

/-- A message without a target asks for a creation, by a sender whose nonce is not counted up yet. -/
theorem Message.Starts.creation {env : Env} {context : Context} {msg : Message} {t : Session}
    {request : Request} {start : Machine} (h : msg.Starts env context t request start)
    (hcreation : msg.target = none) :
    ∃ gas, request = .create msg.sender msg.data gas msg.value ∧
      start.world.nonce msg.sender = t.world.nonce msg.sender := by
  cases h with
  | intro haccept hintrinsic hcovered hstart =>
      rcases Message.start_cases hstart with ⟨-, rfl, rfl⟩ | ⟨target, next, htarget, -⟩
      · exact ⟨_, rfl, World.nonce_subBalance _ _ _ _⟩
      · rw [hcreation] at htarget
        cases htarget

theorem applyTransaction_creation {venue : Venue} {header : Header} {tx : Transaction}
    {t : Session} {receipt : Receipt}
    (hok : (applyTransaction venue header tx t).1 = .ok receipt)
    (hcreation : tx.target = none) :
    let msg := tx.messageFrom tx.sender
    let context := Context.ofMessage msg header venue.history venue.author
    ∃ gas start, msg.Starts venue.env context { t with world := t.world.snapshot.2 }
        (.create tx.sender tx.data gas tx.value) start ∧
      start.world.nonce tx.sender = t.world.nonce tx.sender ∧
      receipt.contractAddress = some (Address.ofCreation tx.sender (t.world.nonce tx.sender)) ∧
      (dispatch ⟨venue.env, context⟩ (.create tx.sender tx.data gas tx.value) start).2.world.Grows
        (applyTransaction venue header tx t).2.world := by
  have hconduct := applyTransaction_conduct venue header tx t
  generalize applyTransaction venue header tx t = applied at hconduct hok ⊢
  cases hconduct with
  | unsigned hmsg => cases hok
  | rejected hmsg happlied => cases hok
  | applied hmsg happlied =>
      cases hok
      obtain rfl := Transaction.toMessage_eq_ok hmsg
      obtain ⟨pool, outcome, m, hruns, -, -, -, hworld⟩ := applyMessage_eq_ok happlied
      obtain ⟨request, start, hstarts, hdispatch⟩ := hruns.starts
      obtain ⟨hnonce, -⟩ := hstarts.nonce rfl
      have hsettled := hworld ▸ Message.settledWorld_grows _ _ outcome m.world
      have hend : m = (dispatch _ request start).2 := (congrArg Prod.snd hdispatch).symm
      rw [hend] at hsettled
      obtain ⟨gas, rfl, hsame⟩ := hstarts.creation hcreation
      refine ⟨gas, start, hstarts, hsame, ?_, hsettled.trans (World.grows_of_accounts rfl)⟩
      have hcreates : (tx.messageFrom tx.sender).isCreation = true := by
        simp [Message.isCreation, Transaction.messageFrom, hcreation]
      simp only [Transaction.receipt, hcreates, if_true]
      exact congrArg (fun nonce ↦ some (Address.ofCreation tx.sender nonce)) hnonce

/-- A creation that succeeds leaves the code that its initial code returned at the address fixed by
the creator and the nonce that it had before, whatever the initial code did in the meantime: the code
is no longer than allowed and paid for, the new account has a nonce, and the creator's has gone up.
The receipt of a creating transaction names the address that the creation reported, and the code is
still there when the transaction is settled. -/
theorem successful_creation_deploys_code (table : ExtTreeMap Bytes (List Op)) :
    (∀ (s : Setting) (caller : Address) (initCode : Bytes) (gas : Gas) (value : Wei) (m : Machine)
      (code : Bytes), s.env.interpreter = .script table →
      ¬(s.env.limits.noRecursion = true ∧ 0 < m.depth) →
      (dispatch s (.create caller initCode gas value) m).1.result = .ok code →
      ∃ a, Deploys s caller gas m code (dispatch s (.create caller initCode gas value) m).1
        (dispatch s (.create caller initCode gas value) m).2.world a) ∧
    (∀ (venue : Venue) (header : Header) (tx : Transaction) (t : Session)
      (receipt : Receipt), venue.env.interpreter = .script table → tx.target = none →
      (applyTransaction venue header tx t).1 = .ok receipt →
      ∃ gas start, (tx.messageFrom tx.sender).Starts venue.env
          (Context.ofMessage (tx.messageFrom tx.sender) header venue.history venue.author)
          { t with world := t.world.snapshot.2 } (.create tx.sender tx.data gas tx.value) start ∧
        ∀ outcome m' a, dispatch
            ⟨venue.env,
              Context.ofMessage (tx.messageFrom tx.sender) header venue.history venue.author⟩
            (.create tx.sender tx.data gas tx.value) start = (outcome, m') →
          outcome.created = some a →
          receipt.contractAddress = some a ∧
            a = Address.ofCreation tx.sender (t.world.nonce tx.sender) ∧
            ∀ code, outcome.result = .ok code →
              (applyTransaction venue header tx t).2.world.code a = code) := by
  refine ⟨?_, ?_⟩
  · intro s caller initCode gas value m code hs hrun hok
    obtain ⟨exec, hkeeps, hspends, hconduct⟩ := dispatch_conduct hs
      (.create caller initCode gas value) m
    exact hconduct.deploys hkeeps hspends hrun hok
  · intro venue header tx t receipt hs htarget hok
    obtain ⟨gas, start, hstarts, hsame, hreceipt, hgrows⟩ := applyTransaction_creation hok htarget
    refine ⟨gas, start, hstarts, ?_⟩
    intro outcome m' a hdispatch hcreated
    obtain ⟨exec, hkeeps, hspends, hconduct⟩ := dispatch_conduct (s := ⟨venue.env, _⟩) hs
      (.create tx.sender tx.data gas tx.value) start
    rw [hdispatch] at hconduct hgrows
    have haddress := hconduct.created_address hcreated
    rw [hsame] at haddress
    refine ⟨haddress ▸ hreceipt, haddress, ?_⟩
    intro code hcode
    have houter : start.depth = 0 := by
      cases hstarts
      rfl
    obtain ⟨b, hdeploys⟩ := hconduct.deploys hkeeps hspends (by omega) hcode
    cases hcreated.symm.trans hdeploys.created
    have htaken : m'.world.isTaken a = true := hdeploys.taken
    exact (hgrows.kept a htaken).code.trans hdeploys.code

theorem Outcome.result_eq_ok_iff {outcome : Outcome} {data : Bytes} :
    outcome.result = .ok data ↔ outcome.result.toOption = some data := by
  cases outcome.result <;> simp [Except.toOption]

/-- Initial code that calls its creator back, calls the account under construction and creates a
further contract before it returns. -/
def restlessTable : ExtTreeMap Bytes (List Op) :=
  (((∅ : ExtTreeMap Bytes (List Op)).insert [1]
    [.call .call 17 1000 0, .callSelf 1000, .create [2] 20000 0, .output [7, 7]]).insert [2]
    [.output [9]]).insert [3] [.store 1 1, .burn 100]

def restlessMachine : Machine where
  world := ({} : World).placeAccount 17 { balance := 5, code := [3] }

theorem restless_creation_deploys_code :
    (dispatch (scriptSetting restlessTable) (.create 17 [1] 50000 1) restlessMachine).1.result =
        .ok [7, 7] ∧
      ∃ a, Deploys (scriptSetting restlessTable) 17 50000 restlessMachine [7, 7]
        (dispatch (scriptSetting restlessTable) (.create 17 [1] 50000 1) restlessMachine).1
        (dispatch (scriptSetting restlessTable) (.create 17 [1] 50000 1) restlessMachine).2.world
        a := by
  have hok := Outcome.result_eq_ok_iff.mpr
    (by decide +kernel : (dispatch (scriptSetting restlessTable) (.create 17 [1] 50000 1)
      restlessMachine).1.result.toOption = some [7, 7])
  have hrun : ¬((scriptSetting restlessTable).env.limits.noRecursion = true ∧
      0 < restlessMachine.depth) := by decide
  obtain ⟨hdeploys, -⟩ := successful_creation_deploys_code restlessTable
  exact ⟨hok, hdeploys _ 17 [1] 50000 1 restlessMachine _ rfl hrun hok⟩

end MeteredLedger
