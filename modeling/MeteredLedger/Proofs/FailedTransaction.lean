import MeteredLedger.Proofs.Conservation
import MeteredLedger.Proofs.FrameAtomicity
import MeteredLedger.Proofs.MessageStart

/-!
# A failed transaction only pays

A transaction pays for all its gas, counts the sender's nonce up and opens a frame.  If the frame
fails, everything done in it is taken back, the refund counter included, so that what is settled is
the gas that the frame hands back and nothing more.  Payment, repayment and fee then come down to one
transfer of the fee from the sender to the beneficiary.
-/

namespace MeteredLedger

open Std

namespace Wei

variable {a b cost back fee : Wei}

theorem addClamped_eq_add (h : a.toNat + b.toNat ≤ maxNat) : addClamped a b = a + b := by
  have hlt : a.toNat + b.toNat < 2 ^ 128 := by
    rw [maxNat] at h
    omega
  apply BitVec.eq_of_toNat_eq
  rw [toNat_addClamped, BitVec.toNat_add_of_lt hlt, Nat.min_eq_left h]

/-- A payment of which part is paid back is a payment of the rest. -/
theorem addClamped_subClamped (hsplit : back.toNat + fee.toNat = cost.toNat)
    (hcovered : cost.toNat ≤ a.toNat) : addClamped (subClamped a cost) back = a - fee := by
  have hmax := toNat_le_maxNat a
  have hfee : fee ≤ a := by
    rw [BitVec.le_def]
    omega
  apply BitVec.eq_of_toNat_eq
  rw [toNat_addClamped, toNat_subClamped, BitVec.toNat_sub_of_le hfee]
  omega

end Wei

/-! ## Fees -/

namespace Ledger

/-- The second ledger is the first one after a fee.  Payer and payee have accounts there; the payer's
nonce is one higher, the fee has gone from one balance to the other, and nothing else differs.  Where
payer and payee are the same the balance is too. -/
structure OnlyPays (l l' : Ledger) (payer payee : Address) (fee : Nat) : Prop where
  others : ∀ a, a ≠ payer → a ≠ payee → l'.accounts[a]? = l.accounts[a]?
  present : ∀ a, a = payer ∨ a = payee →
    ∃ nonce balance, l'.accounts[a]? = some { l.accountAt a with nonce, balance }
  nonce : ∀ a, (l'.accountAt a).nonce.toNat =
    (l.accountAt a).nonce.toNat + if a = payer then 1 else 0
  balance : ∀ a, (l'.accountAt a).balance.toNat + (if a = payer then fee else 0) =
    (l.accountAt a).balance.toNat + if a = payee then fee else 0
  refund : l'.refund = l.refund
  logs : l'.logs = l.logs
  logCount : l'.logCount = l.logCount

variable {l : Ledger} {payer payee : Address} {cost back fee : Wei}

/-- The payer's account after a fee. -/
def payerAfter (l : Ledger) (payer : Address) (fee : Wei) : Account :=
  { l.accountAt payer with
    nonce := (l.accountAt payer).nonce + 1
    balance := (l.accountAt payer).balance - fee }

/-- Counts the payer's nonce up and moves a fee from the payer to the payee. -/
def charge (l : Ledger) (payer payee : Address) (fee : Wei) : Ledger :=
  (l.setAccount payer (l.payerAfter payer fee)).update payee
    fun acct ↦ { acct with balance := acct.balance + fee }

/-- A fee that the payer covers can be credited to anyone if the sum of all balances is in range. -/
theorem credit_in_range (hcovered : fee ≤ (l.accountAt payer).balance)
    (htotal : l.totalBalance ≤ Wei.maxNat) :
    ((l.setAccount payer (l.payerAfter payer fee)).accountAt payee).balance.toNat + fee.toNat ≤
      Wei.maxNat := by
  have hle := balance_le_totalBalance (l.setAccount payer (l.payerAfter payer fee)) payee
  have hsum := totalBalance_setAccount l payer (l.payerAfter payer fee)
  simp only [payerAfter, BitVec.toNat_sub_of_le hcovered] at hle hsum ⊢
  rw [BitVec.le_def] at hcovered
  omega

theorem charge_present {a : Address} (h : a = payer ∨ a = payee) :
    (l.charge payer payee fee).accounts[a]? = some ((l.charge payer payee fee).accountAt a) := by
  obtain ⟨acct, hget⟩ : ∃ acct, (l.charge payer payee fee).accounts[a]? = some acct := by
    simp only [charge, update, setAccount_accounts]
    by_cases hpayee : payee = a
    · rw [if_pos hpayee]
      exact ⟨_, rfl⟩
    · have hpayer : a = payer := h.resolve_right (Ne.symm hpayee)
      rw [if_neg hpayee, if_pos hpayer.symm]
      exact ⟨_, rfl⟩
  rw [hget, accountAt_of_present hget]

theorem accountAt_charge (l : Ledger) (payer payee : Address) (fee : Wei) (a : Address) :
    (l.charge payer payee fee).accountAt a =
      { l.accountAt a with
        nonce := if a = payer then (l.accountAt a).nonce + 1 else (l.accountAt a).nonce
        balance := (if a = payer then (l.accountAt a).balance - fee else (l.accountAt a).balance) +
          if a = payee then fee else 0 } := by
  simp only [charge, update, accountAt_setAccount, payerAfter]
  by_cases hpayee : payee = a
  · subst hpayee
    by_cases hpayer : payer = payee
    · simp [hpayer]
    · simp [hpayer, Ne.symm hpayer]
  · by_cases hpayer : payer = a
    · subst hpayer
      simp [hpayee, Ne.symm hpayee]
    · simp [hpayee, Ne.symm hpayee, hpayer, Ne.symm hpayer]

theorem charge_onlyPays (hnonce : (l.accountAt payer).nonce ≠ Nonce.largest)
    (hcovered : fee ≤ (l.accountAt payer).balance) (htotal : l.totalBalance ≤ Wei.maxNat) :
    l.OnlyPays (l.charge payer payee fee) payer payee fee.toNat := by
  refine ⟨?_, ?_, ?_, ?_, rfl, rfl, rfl⟩
  · intro a hpayer hpayee
    simp [charge, update, setAccount_accounts, Ne.symm hpayer, Ne.symm hpayee]
  · intro a ha
    rw [charge_present ha, accountAt_charge]
    exact ⟨_, _, rfl⟩
  · intro a
    rw [accountAt_charge]
    by_cases hpayer : a = payer
    · subst hpayer
      simp only [if_true]
      exact Nonce.toNat_succ hnonce
    · simp only [hpayer, if_false, Nat.add_zero]
  · intro a
    rw [accountAt_charge]
    have hdebit := BitVec.toNat_sub_of_le hcovered
    have hroom : ((l.setAccount payer (l.payerAfter payer fee)).accountAt payee).balance.toNat +
        fee.toNat < 2 ^ 128 := Nat.lt_succ_of_le (credit_in_range hcovered htotal)
    rw [BitVec.le_def] at hcovered
    by_cases hpayer : a = payer
    · subst hpayer
      by_cases hpayee : a = payee
      · simp only [hpayee, if_true, BitVec.sub_add_cancel]
      · simp only [hpayee, if_true, if_false, BitVec.ofNat_eq_ofNat, BitVec.add_zero]
        omega
    · by_cases hpayee : a = payee
      · subst hpayee
        rw [accountAt_setAccount, if_neg (Ne.symm hpayer)] at hroom
        simp only [hpayer, if_true, if_false, BitVec.toNat_add_of_lt hroom, Nat.add_zero]
      · simp only [hpayer, hpayee, if_false, BitVec.ofNat_eq_ofNat, BitVec.add_zero, Nat.add_zero]

/-- The gas is paid for, the nonce counted up, part of the price paid back and the rest credited: in
all, a fee. -/
theorem settle_eq_charge (hsplit : back.toNat + fee.toNat = cost.toNat)
    (hcovered : cost.toNat ≤ (l.accountAt payer).balance.toNat)
    (htotal : l.totalBalance ≤ Wei.maxNat) {counted repaid : Ledger}
    (hcounted : counted = (l.setBalance payer
      (Wei.subClamped (l.accountAt payer).balance cost)).setNonce payer
        ((l.accountAt payer).nonce + 1))
    (hrepaid : repaid = counted.setBalance payer
      (Wei.addClamped (counted.accountAt payer).balance back)) :
    repaid.setBalance payee (Wei.addClamped (repaid.accountAt payee).balance fee) =
      l.charge payer payee fee := by
  have hfee : fee ≤ (l.accountAt payer).balance := by
    rw [BitVec.le_def]
    omega
  have hpayer : repaid = l.setAccount payer (l.payerAfter payer fee) := by
    subst hcounted
    rw [hrepaid]
    simp only [setBalance, setNonce, update, payerAfter, accountAt_setAccount, if_true,
      setAccount_setAccount, Wei.addClamped_subClamped hsplit hcovered]
  rw [hpayer, charge, setBalance, Wei.addClamped_eq_add (credit_in_range hfee htotal)]
  rfl

end Ledger

/-! ## The frame of a message that fails -/

section Frames

variable {env : Env} {context : Context} {table : ExtTreeMap Bytes (List Op)} {msg : Message}
  {t : Session} {request : Request} {start : Machine} {fault : Fault}

/-- Whatever the frame of a message did, if it fails the world is the one in which the message has
paid and the sender's nonce is counted up. -/
theorem Message.Starts.failed_world (hs : env.interpreter = .script table)
    (hfunds : context.funds = .balance) (hcheck : msg.checkNonce = true)
    (hfork : env.chain.isHomestead context.blockNumber = true) (hsound : t.world.Sound)
    (h : msg.Starts env context t request start)
    (hfits : LogCounterFits ⟨env, context⟩ table request start)
    (hfault : (dispatch ⟨env, context⟩ request start).1.result = .error fault) :
    ∃ cost pool, msg.accept t.world t.pool = .ok (cost, pool) ∧
      (dispatch ⟨env, context⟩ request start).2.world =
        (t.world.subBalance msg.sender cost).setNonce msg.sender
          (t.world.nonce msg.sender + 1) := by
  have hentry := h.admitted hfunds
  obtain ⟨-, hnext⟩ := h.nonce hcheck
  have hexec := (frameRelation_steady ⟨env, context⟩).codeRunner (checkedEngine_isEffectful table)
    (env.limits.maxCallDepth + 1 - start.depth)
  have hchecked : dispatch ⟨env, context⟩ request start =
      answer ⟨env, context⟩ (codeRunner ⟨env, context⟩ (checkedEngine table)
        (env.limits.maxCallDepth + 1 - start.depth)) request start := by
    rw [hfits.dispatch_eq hs, dispatchWith, dispatchWithin_eq_answer]
  rw [hchecked] at hfault ⊢
  cases h with
  | @intro cost pool intrinsic request w haccept hintrinsic hcovered hstart =>
      refine ⟨cost, pool, haccept, ?_⟩
      have hpaid : (t.world.subBalance msg.sender cost).Sound := by
        rw [World.subBalance_toLedger]
        exact hsound.setBalance _ _
      rw [← World.nonce_subBalance t.world msg.sender msg.sender cost] at hnext ⊢
      rcases Message.start_cases hstart with ⟨-, rfl, rfl⟩ | ⟨target, next, -, rfl, hsame, rfl⟩
      · apply failed_creation_rolls_back hexec hpaid hentry
          (Nonce.next?_eq_some_iff.mp hnext).1 hfault
        rintro ⟨-, hold⟩
        rw [Setting.rules, ChainConfig.rules, hfork] at hold
        cases hold
      · cases hnext.symm.trans hsame
        apply failed_call_rolls_back hexec _ rfl hfault
        rw [World.setNonce_toLedger]
        exact hpaid.setNonce _ _

/-- Once it is let in, a frame that fails without a revert hands back no gas. -/
theorem answer_gas_of_failure {s : Setting} {exec : Exec} {m : Machine}
    (hentry : refuse? s m request = none) (hfork : s.rules.homestead = true)
    (hnext : request.isCreate = true → (m.world.nonce request.caller).next? ≠ none)
    (hfault : (answer s exec request m).1.result = .error fault) (hrevert : fault.isRevert = false) :
    (answer s exec request m).1.gasLeft = 0 := by
  have hsettled : ∀ gas, settledGas (.error fault) gas = 0 := by
    intro gas
    simp [settledGas, hrevert]
  have hconduct := answer_conduct s exec (m := m) request
  generalize answer s exec request m = answered at hconduct hfault ⊢
  obtain ⟨outcome, m'⟩ := answered
  cases hconduct with
  | refused hrefuse =>
      rw [hentry] at hrefuse
      cases hrefuse
  | idle => cases hfault
  | called =>
      simp only at hfault ⊢
      rw [hfault]
      exact hsettled _
  | spent _ hnone => exact absurd hnone (hnext rfl)
  | collided => rfl
  | reserved => cases hfault
  | created _ _ _ _ _ _ _ _ _ _ hgas =>
      simp only at hfault ⊢
      have hdrops : keepsCreation s.rules (.error fault) ≠ true := by
        intro hkeeps
        rw [(keepsCreation_error.mp hkeeps).2] at hfork
        cases hfork
      rw [hgas, hfault, if_neg hdrops]
      exact hsettled _

/-- The creation that a message asks for finds a next nonce. -/
theorem Message.Starts.creation_next (hcheck : msg.checkNonce = true)
    (h : msg.Starts env context t request start) (hcreate : request.isCreate = true) :
    (start.world.nonce request.caller).next? ≠ none := by
  obtain ⟨-, hnext⟩ := h.nonce hcheck
  cases h with
  | intro haccept hintrinsic hcovered hstart =>
      rcases Message.start_cases hstart with ⟨-, rfl, rfl⟩ | ⟨target, next, -, rfl, -, -⟩
      · rw [Request.caller, World.nonce_subBalance, hnext]
        exact Option.some_ne_none _
      · cases hcreate

end Frames

/-! ## Settlement -/

section Settlement

variable {msg : Message} {t : Session} {cost : Wei} {pool : GasPool} {outcome : Outcome} {w : World}

/-- What is settled where the world is back at the one in which the message has paid and the sender's
nonce is counted up: nothing is refunded, and all in all a fee is charged. -/
theorem Message.settledWorld_eq_charge (haccept : msg.accept t.world t.pool = .ok (cost, pool))
    (htotal : t.world.totalBalance ≤ Wei.maxNat) (hrefund : t.world.refund = 0)
    (hleft : outcome.gasLeft ≤ msg.gasLimit)
    (hw : w = (t.world.subBalance msg.sender cost).setNonce msg.sender
      (t.world.nonce msg.sender + 1)) (coinbase : Address) :
    msg.gasBack outcome w = outcome.gasLeft ∧
      (msg.settledWorld coinbase outcome w).toLedger = t.world.toLedger.charge msg.sender coinbase
        (Gas.costClamped (msg.gasLimit - outcome.gasLeft) msg.gasPrice) := by
  have hledger : w.toLedger = (t.world.toLedger.setBalance msg.sender
      (Wei.subClamped (t.world.toLedger.accountAt msg.sender).balance cost)).setNonce msg.sender
        ((t.world.toLedger.accountAt msg.sender).nonce + 1) := by
    rw [hw, World.setNonce_toLedger, World.subBalance_toLedger, World.nonce_eq]
  have hback : msg.gasBack outcome w = outcome.gasLeft := by
    apply Message.gasBack_of_no_refund
    rw [hledger]
    exact hrefund
  obtain ⟨-, hgasCost, -⟩ := Message.accept_eq_ok haccept
  obtain ⟨hcost, hpays⟩ := Message.gasCost_eq_ok hgasCost
  rw [World.balance_eq] at hpays
  refine ⟨hback, ?_⟩
  rw [Message.settledWorld, hback, World.addBalance_toLedger, World.addBalance_toLedger]
  exact Ledger.settle_eq_charge (Gas.costClamped_add hleft hcost) (by omega) htotal hledger rfl

/-- A message whose frame fails is charged for the gas that the frame does not hand back, and that is
all of it unless the frame ended in a revert. -/
theorem Message.Runs.failed_onlyPays {env : Env} {context : Context}
    {table : ExtTreeMap Bytes (List Op)} (hs : env.interpreter = .script table)
    (hfunds : context.funds = .balance) (hcheck : msg.checkNonce = true)
    (hfork : env.chain.isHomestead context.blockNumber = true) (hsound : t.world.Sound)
    (htotal : t.world.totalBalance ≤ Wei.maxNat) (hrefund : t.world.refund = 0) {m : Machine}
    (h : msg.Runs env context t pool outcome m)
    (hfits : ∀ request start, msg.Starts env context t request start →
      LogCounterFits ⟨env, context⟩ table request start)
    {fault : Fault} (hfault : outcome.result = .error fault) (coinbase : Address) :
    t.world.OnlyPays (msg.settledWorld coinbase outcome m.world).toLedger msg.sender coinbase
        ((msg.gasLimit - msg.gasBack outcome m.world).toNat * msg.gasPrice.toNat) ∧
      (fault.isRevert = false → msg.gasBack outcome m.world = 0) := by
  have hleft := h.gasLeft_le hs
  obtain ⟨request, start, hstarts, hdispatch⟩ := h.starts
  have hresult : (dispatch ⟨env, context⟩ request start).1.result = .error fault := by
    rw [hdispatch]
    exact hfault
  obtain ⟨cost, pool', haccept, hworld⟩ := hstarts.failed_world hs hfunds hcheck hfork hsound
    (hfits request start hstarts) hresult
  rw [hdispatch] at hworld
  obtain ⟨hback, hcharge⟩ :=
    Message.settledWorld_eq_charge haccept htotal hrefund hleft hworld coinbase
  rw [hback, hcharge]
  refine ⟨?_, ?_⟩
  · obtain ⟨-, hnext⟩ := hstarts.nonce hcheck
    obtain ⟨-, hgasCost, -⟩ := Message.accept_eq_ok haccept
    obtain ⟨hcost, hpays⟩ := Message.gasCost_eq_ok hgasCost
    have hfee := Gas.toNat_costClamped (UInt64.sub_le hleft) hcost
    have hsplit := Gas.costClamped_add hleft hcost
    rw [World.nonce_eq] at hnext
    rw [World.balance_eq] at hpays
    rw [← hfee]
    apply Ledger.charge_onlyPays (Nonce.next?_eq_some_iff.mp hnext).1 _ htotal
    rw [BitVec.le_def]
    omega
  · intro hrevert
    have hplain : dispatch ⟨env, context⟩ request start = answer ⟨env, context⟩
        (codeRunner ⟨env, context⟩ (scriptEngine table)
          (env.limits.maxCallDepth + 1 - start.depth)) request start := by
      rw [dispatch_eq_script hs, dispatchWith, dispatchWithin_eq_answer]
    have hgas := answer_gas_of_failure (hstarts.admitted hfunds) hfork
      (hstarts.creation_next hcheck) (hplain ▸ hresult) hrevert
    rw [← hplain, hdispatch] at hgas
    exact hgas

end Settlement

/-! ## Transactions -/

/-- No log of the frame that a transaction opens meets a full counter. -/
def Transaction.LogsFit (tx : Transaction) (venue : Venue) (table : ExtTreeMap Bytes (List Op))
    (header : Header) (t : Session) : Prop :=
  ∀ msg request start, tx.toMessage venue.env.chain.chainId = .ok msg →
    msg.Starts venue.env (Context.ofMessage msg header venue.history venue.author)
      { t with world := t.world.snapshot.2 } request start →
    LogCounterFits ⟨venue.env, Context.ofMessage msg header venue.history venue.author⟩ table request
      start

/-- A failed transaction only pays.  Where the homestead rules hold, nothing is to be refunded, no
slot holds a zero and the sum of all balances is in range, a transaction whose receipt says that it
failed leaves the ledger as it was but for the sender's nonce and a fee, the price of the gas used,
from the sender to the beneficiary.  Unless its frame ended in a revert, it has used all its gas. -/
theorem failed_transaction_only_pays {venue : Venue} {table : ExtTreeMap Bytes (List Op)}
    (hs : venue.env.interpreter = .script table) {header : Header}
    (hfork : venue.env.chain.isHomestead header.number = true) {tx : Transaction}
    {t t' : Session} (hreach : t.world.Reachable) (hslots : t.world.NoZeroSlots)
    (hrefund : t.world.refund = 0) (htotal : t.world.totalBalance ≤ Wei.maxNat)
    (hlogs : tx.LogsFit venue table header t) {receipt : Receipt}
    (hok : applyTransaction venue header tx t = (.ok receipt, t'))
    (hfailed : receipt.succeeded = false) :
    t.world.OnlyPays t'.world.toLedger tx.sender (venue.author.getD header.coinbase)
        (receipt.gasUsed.toNat * tx.gasPrice.toNat) ∧
      ∃ msg execution u fault, tx.toMessage venue.env.chain.chainId = .ok msg ∧
        applyMessage venue.env (Context.ofMessage msg header venue.history venue.author) msg
          { t with world := t.world.snapshot.2 } = (.ok execution, u) ∧
        execution.fault = some fault ∧
        (fault.isRevert = false → receipt.gasUsed = tx.gasLimit) := by
  obtain ⟨msg, execution, u, hmsg, hran, rfl, rfl⟩ := applyTransaction_eq_ok hok
  obtain rfl := Transaction.toMessage_eq_ok hmsg
  obtain ⟨pool, outcome, m, hruns, -, hused, hfaulted, hworld⟩ := applyMessage_eq_ok hran
  obtain ⟨fault, hfault⟩ : ∃ fault, execution.fault = some fault :=
    Option.ne_none_iff_exists'.mp fun hnone ↦ by
      simp [Transaction.receipt, hnone] at hfailed
  have hsound : ({ t with world := t.world.snapshot.2 } : Session).world.Sound :=
    ⟨hslots, hreach.noEmptyLogs⟩
  obtain ⟨hpays, hgas⟩ := hruns.failed_onlyPays hs rfl rfl hfork hsound htotal hrefund
    (fun request start hstarts ↦ hlogs _ request start hmsg hstarts)
    (Outcome.result_eq_error_iff.mpr (hfaulted.symm.trans hfault))
    (venue.author.getD header.coinbase)
  rw [← hused] at hpays
  refine ⟨?_, _, execution, u, fault, hmsg, hran, hfault, ?_⟩
  · -- The refund counter is zero already, so settling the world for good changes no account.
    rw [show u.world = _ from hworld]
    exact ⟨hpays.others, hpays.present, hpays.nonce, hpays.balance, hrefund.symm, hpays.logs,
      hpays.logCount⟩
  · intro hrevert
    simp only [Transaction.receipt]
    rw [hused, hgas hrevert, UInt64.sub_zero]
    rfl

/-- Account 17 writes, logs, earns a refund and passes money on before it fails. -/
def stumblingTable : ExtTreeMap Bytes (List Op) :=
  (∅ : ExtTreeMap Bytes (List Op)).insert [1]
    [.store 1 5, .log [3] [4], .refund 4800, .call .call 5 900 1, .fail]

def stumblingVenue : Venue where
  env := { interpreter := .script stumblingTable }

def stumblingSession : Session where
  world := (({} : World).placeAccount 17 { code := [1] }).placeAccount sampleSender
    { balance := 200000 }
  pool := ⟨100000⟩

theorem stumbling_transaction_only_pays :
    ∃ receipt t', applyTransaction stumblingVenue sampleHeader sampleTransaction
        stumblingSession = (.ok receipt, t') ∧
      receipt.succeeded = false ∧ receipt.gasUsed = 60000 ∧
      stumblingSession.world.OnlyPays t'.world.toLedger sampleSender 8 (60000 * 2) := by
  have hmsg : sampleTransaction.toMessage stumblingVenue.env.chain.chainId =
      .ok (sampleTransaction.messageFrom sampleSender) := sampleTransaction_toMessage
  have hreach : stumblingSession.world.Reachable := (World.Reachable.empty.place _ _).place _ _
  have hslots : stumblingSession.world.NoZeroSlots :=
    (Ledger.noZeroSlots_empty.setAccount 17 Storage.noZero_empty).setAccount sampleSender
      Storage.noZero_empty
  have hlogs : sampleTransaction.LogsFit stumblingVenue stumblingTable sampleHeader
      stumblingSession := by
    intro msg request start hother hstarts
    cases hmsg.symm.trans hother
    obtain ⟨rfl, rfl⟩ := hstarts.unique (.intro rfl rfl (by decide) rfl)
    decide +kernel
  have hreport : gasReport (applyTransaction stumblingVenue sampleHeader sampleTransaction
      stumblingSession).1 = some (60000, 60000) := by
    rw [applyTransaction_of_message hmsg]
    decide +kernel
  obtain ⟨receipt, hok, hused, -⟩ := exists_receipt_of_gasReport hreport
  have hfailed : receipt.succeeded = false := by
    have hstatus : (applyTransaction stumblingVenue sampleHeader sampleTransaction
        stumblingSession).1.toOption.map (·.succeeded) = some false := by
      rw [applyTransaction_of_message hmsg]
      decide +kernel
    rw [hok] at hstatus
    exact Option.some.inj hstatus
  obtain ⟨hpays, -⟩ := failed_transaction_only_pays rfl rfl hreach hslots rfl (by decide +kernel)
    hlogs hok hfailed
  refine ⟨receipt, _, hok, hfailed, hused, ?_⟩
  rw [hused, Transaction.sender, show sampleTransaction.publicKey = sampleKey from rfl,
    ofPublicKey_sampleKey] at hpays
  exact hpays

end MeteredLedger
