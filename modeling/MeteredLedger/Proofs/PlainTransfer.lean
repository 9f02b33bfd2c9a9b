import MeteredLedger.Proofs.CodeRun
import MeteredLedger.Proofs.MessageStart
import MeteredLedger.Proofs.Movement
import MeteredLedger.Proofs.SignedTransaction

/-!
# Plain transfers

A call of an account without code runs nothing.  The message that asks for it pays for its gas, passes
its value on, gets back the gas above the cost before execution and pays the beneficiary for the
rest, and all of this is one movement that the message alone determines.  Whether an account is there
already, and who is paid first, decides which account is made at which step, but not what is there in
the end.  So two transactions of this kind that are accepted in either order lead to the same ledger.
-/

namespace MeteredLedger

open Std

/-! ## The frame -/

section Frames

variable {s : Setting} {m : Machine} {caller target : Address} {input : Bytes} {gas : Gas}
  {value : Wei}

theorem runFrame_of_empty (exec : Exec) {f : Frame} (hgo : m.monitor.cancelled = false)
    (hprecompile : (f.codeAddress.bind fun a ↦ s.env.precompiles[a]?) = none) (hcode : f.code = []) :
    runFrame s exec f input m = ⟨.ok [], f, m⟩ := by
  simp [runFrame, hgo, hprecompile, hcode]

/-- A call of an account without code succeeds with all its gas.  It is skipped, or it leaves the
world in which the value has moved. -/
theorem dispatch_codeless_call
    (hentry : refuse? s m (.call caller target input gas value) = none)
    (hcode : (callWorld s m.world caller target value).code target = [])
    (hprecompile : s.env.precompiles.contains target = false)
    (hgo : m.monitor.cancelled = false) :
    ∃ m', dispatch s (.call caller target input gas value) m = (.skipped gas, m') ∧
      m'.monitor.cancelled = false ∧
      (m'.world = m.world.snapshot.2 ∧ value = 0 ∨
        m'.world = callWorld s m.world caller target value ∧
          (m.world.hasAccount target = true ∨ value ≠ 0)) := by
  have hnone : s.env.precompiles[target]? = none := by
    simpa [← ExtTreeMap.contains_iff_mem] using hprecompile
  rw [dispatch, dispatchWith, dispatchWithin_eq_answer]
  generalize codeRunner s _ _ = exec
  cases hopening : (Request.call caller target input gas value).opening? s m with
  | none =>
      rw [answer_of_unopened_call exec hentry hopening]
      refine ⟨_, rfl, by simpa using hgo, .inl ⟨by simp, ?_⟩⟩
      simp only [Request.opening?, ite_eq_left_iff, reduceCtorEq, imp_false, not_not,
        Bool.and_eq_true, decide_eq_true_eq] at hopening
      exact hopening.2
  | some opened =>
      obtain ⟨f, given, start⟩ := opened
      rw [answer_eq_close exec hentry hopening]
      simp only [Request.opening?] at hopening
      split at hopening
      · cases hopening
      · rename_i hreal
        have hreal := real_of_not_idle hreal
        rw [hprecompile] at hreal
        have hidle : runFrame s exec f given start = ⟨.ok [], f, start⟩ := by
          cases hopening
          exact runFrame_of_empty exec (by simpa using hgo) hnone hcode
        rw [hidle]
        cases hopening
        refine ⟨_, rfl, ?_, .inr ⟨?_, by simpa using hreal⟩⟩
        · simpa using hgo
        · simp [Run.settle]

theorem callWorld_moves {w : World} (target : Address) (htransfers : s.context.transfers = .move)
    (hfunds : value ≤ w.balance caller) (htotal : w.totalBalance ≤ Wei.maxNat) :
    w.toLedger.Moves (callWorld s w caller target value).toLedger
      (.single caller 0 (-value.toNat) + .single target 0 value.toNat) := by
  rw [callWorld, htransfers, TransferPolicy.apply]
  cases hthere : w.hasAccount target with
  | true => exact World.moves_transfer (w := w.snapshot.2) target hfunds htotal
  | false =>
      have hmissing : w.snapshot.2.accounts[target]? = none :=
        Option.isNone_iff_eq_none.mp (Option.isSome_eq_false_iff.mp hthere)
      have hcreate := World.moves_createAccount hmissing
      have hstill : value ≤ (w.snapshot.2.createAccount target).balance caller := by
        rw [World.balance_createAccount]
        exact hfunds
      have hsum : (w.snapshot.2.createAccount target).totalBalance ≤ Wei.maxNat :=
        hcreate.total_le (Int.le_refl 0) htotal
      have hboth := hcreate.trans (World.moves_transfer target hstill hsum)
      rw [Movement.single_zero_add] at hboth
      exact hboth

/-- Where the caller has an account, a call of an account without code moves its value. -/
theorem codeless_call_moves (htransfers : s.context.transfers = .move)
    (hentry : refuse? s m (.call caller target input gas value) = none)
    (hcode : m.world.code target = []) (hprecompile : s.env.precompiles.contains target = false)
    (hgo : m.monitor.cancelled = false) (hcaller : m.world.accounts[caller]?.isSome)
    (hfunds : value ≤ m.world.balance caller) (htotal : m.world.totalBalance ≤ Wei.maxNat) :
    ∃ m', dispatch s (.call caller target input gas value) m = (.skipped gas, m') ∧
      m'.monitor.cancelled = false ∧
      m.world.Moves m'.world.toLedger (.transfer caller target value.toNat) := by
  have hmoved := callWorld_moves target htransfers hfunds htotal
  have hstill : (callWorld s m.world caller target value).code target = [] :=
    (World.code_of_moves hmoved target).trans hcode
  obtain ⟨m', hdispatch, hgo', hworld⟩ := dispatch_codeless_call hentry hstill hprecompile hgo
  refine ⟨m', hdispatch, hgo', ?_⟩
  rcases hworld with ⟨hworld, rfl⟩ | ⟨hworld, hreal⟩
  · rw [hworld]
    exact (Movement.transfer_zero caller target).symm ▸ Ledger.Moves.refl m.world.toLedger
  · rw [hworld]
    refine hmoved.transfer hcaller (hreal.imp id ?_)
    simp [BitVec.toNat_eq]

end Frames

/-! ## The message -/

/-- What a message that runs nothing moves: it is counted, its value goes to the target and the fee to
the beneficiary. -/
def Message.movement (msg : Message) (target coinbase : Address) (fee : Nat) : Movement :=
  .single msg.sender 1 (-fee) + .transfer msg.sender target msg.value.toNat + .single coinbase 0 fee

/-- Nothing is to be refunded, the sum of all balances is in range, and execution is not cancelled. -/
structure Session.Unhindered (s : Session) : Prop where
  refund : s.world.refund = 0
  total : s.world.totalBalance ≤ Wei.maxNat
  go : s.monitor.cancelled = false

section Messages

variable {env : Env} {context : Context} {msg : Message} {s t : Session} {target : Address}

namespace Message

theorem charged_moves {w : World} {pool pool' : GasPool} {cost : Wei} {next : Nonce}
    (haccept : msg.accept w pool = .ok (cost, pool'))
    (hnext : ((w.subBalance msg.sender cost).nonce msg.sender).next? = some next) :
    w.toLedger.Moves ((w.subBalance msg.sender cost).setNonce msg.sender next).toLedger
      (.single msg.sender 0 (-cost.toNat) + .single msg.sender 1 0) := by
  obtain ⟨-, hgasCost, -⟩ := accept_eq_ok haccept
  obtain ⟨-, hcovers⟩ := gasCost_eq_ok hgasCost
  have hpays : cost ≤ w.balance msg.sender := by
    rw [BitVec.le_def]
    omega
  exact (World.moves_subBalance hpays).trans (World.moves_setNonce hnext)

/-- A message to an account without code passes its value on and uses the cost before execution. -/
theorem Runs.plain (hfunds : context.funds = .balance) (htransfers : context.transfers = .move)
    (hs : s.Unhindered) (htarget : msg.target = some target) (hcode : s.world.code target = [])
    (hprecompile : env.precompiles.contains target = false) {pool : GasPool} {outcome : Outcome}
    {m : Machine} (h : msg.Runs env context s pool outcome m) :
    ∃ (cost : Wei) (intrinsic : Gas), cost.toNat = msg.gasLimit.toNat * msg.gasPrice.toNat ∧
      Gas.intrinsic? msg.data msg.isCreation (env.chain.isHomestead context.blockNumber) =
        some intrinsic ∧
      intrinsic ≤ msg.gasLimit ∧ outcome.gasLeft = msg.gasLimit - intrinsic ∧
      outcome.fault? = none ∧ m.monitor.cancelled = false ∧
      s.world.Moves m.world.toLedger
        (.single msg.sender 0 (-cost.toNat) + .single msg.sender 1 0 +
          .transfer msg.sender target msg.value.toNat) := by
  cases h with
  | @intro cost pool intrinsic request w outcome m haccept hintrinsic hcovered hstart hdispatch =>
      have hstarts : msg.Starts env context s request { world := w, monitor := s.monitor } :=
        .intro haccept hintrinsic hcovered hstart
      have hentry := hstarts.admitted hfunds
      obtain ⟨-, hpaid⟩ := hstarts.payment
      obtain ⟨-, hgasCost, -⟩ := accept_eq_ok haccept
      obtain ⟨hcost, -⟩ := gasCost_eq_ok hgasCost
      rcases start_cases hstart with ⟨hnobody, -, -⟩ | ⟨target', next, hsame, rfl, hnext, rfl⟩
      · cases htarget.symm.trans hnobody
      · cases htarget.symm.trans hsame
        have hcharged := charged_moves haccept hnext
        have hthere := (hcharged.present msg.sender).mpr
          (.inr (by simp [Movement.add_def, Movement.single]))
        have htotal : ((s.world.subBalance msg.sender cost).setNonce msg.sender next).totalBalance ≤
            Wei.maxNat := by
          refine hcharged.total_le ?_ hs.total
          simp only [Movement.add_def, Movement.single]
          omega
        have hempty : ((s.world.subBalance msg.sender cost).setNonce msg.sender next).code target =
            [] := (World.code_of_moves hcharged target).trans hcode
        obtain ⟨m', hplain, hgo, hframe⟩ := codeless_call_moves htransfers hentry hempty hprecompile
          hs.go hthere hpaid htotal
        cases hdispatch.symm.trans hplain
        exact ⟨cost, intrinsic, hcost, hintrinsic, hcovered, rfl, rfl, hgo, hcharged.trans hframe⟩

theorem settledWorld_moves {w : World} {o : Outcome} {cost : Wei} (coinbase : Address)
    (hcost : cost.toNat = msg.gasLimit.toNat * msg.gasPrice.toNat) (hrefund : w.refund = 0)
    (hleft : o.gasLeft ≤ msg.gasLimit) (htotal : w.totalBalance + cost.toNat ≤ Wei.maxNat) :
    w.toLedger.Moves (msg.settledWorld coinbase o w).toLedger
      (.single msg.sender 0 ↑(o.gasLeft.toNat * msg.gasPrice.toNat) +
        .single coinbase 0 ↑((msg.gasLimit - o.gasLeft).toNat * msg.gasPrice.toNat)) := by
  have hsplit := Gas.costClamped_add hleft hcost
  have hback := Gas.toNat_costClamped hleft hcost
  have hfee := Gas.toNat_costClamped (UInt64.sub_le hleft) hcost
  rw [settledWorld, gasBack_of_no_refund msg o hrefund, ← hback, ← hfee]
  have hrepaid := World.moves_addBalance w msg.sender
    (Gas.costClamped o.gasLeft msg.gasPrice) (by omega)
  have hsum := hrepaid.total
  simp only [Movement.single] at hsum
  exact hrepaid.trans (World.moves_addBalance _ coinbase _ (by omega))

end Message

theorem Gas.sub_sub_cancel (limit used : Gas) : limit - (limit - used) = used := by
  grind

theorem applyMessage_plain (hfunds : context.funds = .balance)
    (htransfers : context.transfers = .move) (hs : s.Unhindered)
    (htarget : msg.target = some target) (hcode : s.world.code target = [])
    (hprecompile : env.precompiles.contains target = false) {execution : Execution}
    (h : applyMessage env context msg s = (.ok execution, t)) :
    Gas.intrinsic? msg.data msg.isCreation (env.chain.isHomestead context.blockNumber) =
        some execution.usedGas ∧
      execution.fault = none ∧
      s.world.Moves t.world.toLedger
        (msg.movement target context.coinbase (execution.usedGas.toNat * msg.gasPrice.toNat)) ∧
      t.pool.gas.toNat + execution.usedGas.toNat = s.pool.gas.toNat ∧
      t.monitor.cancelled = false := by
  obtain ⟨_, pool, _, _, _, outcome, m, haccept, hbefore, hcovers, hstart, hdispatch, hsettle⟩ :=
    applyMessage_settles h
  have hruns : msg.Runs env context s pool outcome m :=
    .intro haccept hbefore hcovers hstart hdispatch
  have htake := GasPool.take_eq_ok hruns.take_eq
  obtain ⟨cost, intrinsic, hcost, hintrinsic, hcovered, hleft, hfault, hgo, hran⟩ :=
    hruns.plain hfunds htransfers hs htarget hcode hprecompile
  have hnone : m.world.refund = 0 := hran.refund.trans hs.refund
  have htotal : m.world.totalBalance + cost.toNat ≤ Wei.maxNat := by
    have hsum := hran.total
    have hrange := hs.total
    simp only [Movement.add_def, Movement.single, Movement.transfer] at hsum
    omega
  have hback : msg.gasBack outcome m.world = msg.gasLimit - intrinsic :=
    (Message.gasBack_of_no_refund msg outcome hnone).trans hleft
  have hsettled := Message.settledWorld_moves context.coinbase hcost hnone
    (hleft ▸ UInt64.sub_le hcovered) htotal
  have hsub := UInt64.toNat_sub_of_le _ _ hcovered
  rw [hleft, Gas.sub_sub_cancel] at hsettled
  rcases settle_cases msg context.coinbase outcome
      { s with world := m.world, pool := pool, monitor := m.monitor } with
    ⟨e, -, herror⟩ | ⟨pool', hgive, hdone⟩
  · cases herror.symm.trans hsettle
  · cases hdone.symm.trans hsettle
    have hgiven := GasPool.give_eq_ok hgive
    simp only [hback, Gas.sub_sub_cancel] at hgiven ⊢
    rw [UInt64.le_iff_toNat_le] at hcovered
    refine ⟨hintrinsic, hfault, ?_, by omega, hgo⟩
    have hsplit : (msg.gasLimit - intrinsic).toNat * msg.gasPrice.toNat +
        intrinsic.toNat * msg.gasPrice.toNat = cost.toNat := by
      rw [hcost, hsub, ← Nat.add_mul, Nat.sub_add_cancel hcovered]
    have hall := hran.trans hsettled
    rw [Movement.prepaid_eq _ _ _ hsplit, Message.settledWorld, hback, Gas.sub_sub_cancel] at hall
    exact hall

end Messages

/-! ## The transaction -/

/-- A transaction is a call of an account that has no code and is not precompiled. -/
structure Transaction.CallsCodeless (tx : Transaction) (venue : Venue) (w : World)
    (target : Address) : Prop where
  calls : tx.target = some target
  code : w.code target = []
  precompile : venue.env.precompiles.contains target = false

/-- How such a transaction is applied, whatever ledger it finds. -/
structure Transaction.Passes (tx : Transaction) (venue : Venue) (header : Header) (target : Address)
    (s t : Session) (receipt : Receipt) : Prop where
  intrinsic : Gas.intrinsic? tx.data tx.isCreation (venue.env.chain.isHomestead header.number) =
    some receipt.gasUsed
  succeeded : receipt.succeeded = true
  cumulative : receipt.cumulativeGasUsed = s.used + receipt.gasUsed
  counted : t.used = receipt.cumulativeGasUsed
  moves : s.world.Moves t.world.toLedger ((tx.messageFrom tx.sender).movement target
    (venue.author.getD header.coinbase) (receipt.gasUsed.toNat * tx.gasPrice.toNat))
  pool : t.pool.gas.toNat + receipt.gasUsed.toNat = s.pool.gas.toNat
  unhindered : t.Unhindered

section Transactions

variable {venue : Venue} {header : Header} {tx tx' : Transaction} {target target' : Address}
  {s t t' : Session} {receipt receipt' : Receipt}

theorem Message.minted_movement (msg : Message) (target coinbase : Address) (fee : Nat) :
    (msg.movement target coinbase fee).minted = 0 := by
  simp only [movement, Movement.add_def, Movement.single, Movement.transfer]
  omega

theorem applyTransaction_plain (hs : s.Unhindered) (hcall : tx.CallsCodeless venue s.world target)
    (h : applyTransaction venue header tx s = (.ok receipt, t)) :
    tx.Passes venue header target s t receipt := by
  obtain ⟨msg, execution, u, hmsg, hran, rfl, rfl⟩ := applyTransaction_eq_ok h
  obtain rfl := Transaction.toMessage_eq_ok hmsg
  have hsnapshot : Session.Unhindered { s with world := s.world.snapshot.2 } :=
    ⟨hs.refund, hs.total, hs.go⟩
  obtain ⟨hintrinsic, hfault, hmoves, hpool, hgo⟩ :=
    applyMessage_plain rfl rfl hsnapshot hcall.calls hcall.code hcall.precompile hran
  have htotal : u.world.totalBalance ≤ Wei.maxNat :=
    hmoves.total_le (Int.le_of_eq (Message.minted_movement _ _ _ _)) hs.total
  refine ⟨hintrinsic, ?_, rfl, rfl, ?_, hpool, rfl, htotal, hgo⟩
  · simp [Transaction.receipt, hfault]
  · -- The refund counter is zero already, so settling the world for good changes no reading.
    exact ⟨hmoves.present, hmoves.account, hmoves.nonce, hmoves.balance, hmoves.total,
      hs.refund.symm, hmoves.logs, hmoves.logCount⟩

theorem Transaction.CallsCodeless.moves {w w' : World} {δ : Movement}
    (h : tx.CallsCodeless venue w target) (hmoves : w.Moves w'.toLedger δ) :
    tx.CallsCodeless venue w' target :=
  ⟨h.calls, (World.code_of_moves hmoves target).trans h.code, h.precompile⟩

/-- A transaction passes with the same gas wherever it passes. -/
theorem Transaction.Passes.gasUsed_eq {s' : Session}
    (h : tx.Passes venue header target s t receipt)
    (h' : tx.Passes venue header target s' t' receipt') :
    receipt.gasUsed = receipt'.gasUsed :=
  Option.some.inj (h.intrinsic.symm.trans h'.intrinsic)

end Transactions

/-- Two calls of accounts without code that are accepted in either order.  Nothing is to be refunded,
the sum of all balances is in range and execution is not cancelled; callers, targets and beneficiary
may be the same or not, and accounts may be there or not.  Both orders end in the same ledger, and so
with the same state root, with the same pool and the same gas used in all, and each transaction has
used the same gas and has the same status in both. -/
theorem plain_transfers_commute {venue : Venue} {header : Header} {tx₁ tx₂ : Transaction}
    {target₁ target₂ : Address} {s s₁ s₁₂ s₂ s₂₁ : Session}
    {receipt₁ receipt₁' receipt₂ receipt₂' : Receipt} (hrefund : s.world.refund = 0)
    (htotal : s.world.totalBalance ≤ Wei.maxNat) (hgo : s.monitor.cancelled = false)
    (hcall₁ : tx₁.CallsCodeless venue s.world target₁)
    (hcall₂ : tx₂.CallsCodeless venue s.world target₂)
    (h₁ : applyTransaction venue header tx₁ s = (.ok receipt₁, s₁))
    (h₁₂ : applyTransaction venue header tx₂ s₁ = (.ok receipt₂, s₁₂))
    (h₂ : applyTransaction venue header tx₂ s = (.ok receipt₂', s₂))
    (h₂₁ : applyTransaction venue header tx₁ s₂ = (.ok receipt₁', s₂₁)) :
    s₁₂.world.toLedger = s₂₁.world.toLedger ∧ s₁₂.world.stateRoot = s₂₁.world.stateRoot ∧
      s₁₂.pool = s₂₁.pool ∧ receipt₂.cumulativeGasUsed = receipt₁'.cumulativeGasUsed ∧
      (receipt₁.gasUsed = receipt₁'.gasUsed ∧ receipt₁.succeeded = receipt₁'.succeeded) ∧
      (receipt₂.gasUsed = receipt₂'.gasUsed ∧ receipt₂.succeeded = receipt₂'.succeeded) := by
  have hs : s.Unhindered := ⟨hrefund, htotal, hgo⟩
  have hpass₁ := applyTransaction_plain hs hcall₁ h₁
  have hpass₂ := applyTransaction_plain hs hcall₂ h₂
  have hpass₁₂ := applyTransaction_plain hpass₁.unhindered (hcall₂.moves hpass₁.moves) h₁₂
  have hpass₂₁ := applyTransaction_plain hpass₂.unhindered (hcall₁.moves hpass₂.moves) h₂₁
  have hgas₁ := hpass₁.gasUsed_eq hpass₂₁
  have hgas₂ := hpass₁₂.gasUsed_eq hpass₂
  have hledger : s₁₂.world.toLedger = s₂₁.world.toLedger := by
    have hthere := hpass₁.moves.trans hpass₁₂.moves
    have hback := hpass₂.moves.trans hpass₂₁.moves
    rw [Movement.add_comm, ← hgas₁, ← hgas₂] at hback
    exact hthere.unique hback
  have hpool : s₁₂.pool = s₂₁.pool := by
    have hthere := hpass₁.pool
    have hback := hpass₂.pool
    have hthere' := hpass₁₂.pool
    have hback' := hpass₂₁.pool
    rw [← hgas₁] at hback'
    rw [hgas₂] at hthere'
    have hsame : s₁₂.pool.gas = s₂₁.pool.gas := by
      rw [← UInt64.toNat_inj]
      omega
    exact congrArg GasPool.mk hsame
  have hsum : receipt₂.cumulativeGasUsed = receipt₁'.cumulativeGasUsed := by
    rw [hpass₁₂.cumulative, hpass₁.counted, hpass₁.cumulative, hpass₂₁.cumulative, hpass₂.counted,
      hpass₂.cumulative, hgas₁, hgas₂, UInt64.add_assoc, UInt64.add_assoc,
      UInt64.add_comm receipt₁'.gasUsed]
  exact ⟨hledger, congrArg Ledger.stateRoot hledger, hpool, hsum,
    ⟨hgas₁, hpass₁.succeeded.trans hpass₂₁.succeeded.symm⟩,
    ⟨hgas₂, hpass₁₂.succeeded.trans hpass₂.succeeded.symm⟩⟩

/-- The public key of the seed that repeats the byte nine. -/
def otherKey : PublicKey :=
  Ed25519.bytes32 0x18f6e935c8ea02d78ec5136bf7ebfd91d9a12f60cd78fb645bc7a05a382417fd

def otherSender : Address := 0xad952064b0191a34edd69833f7e44dd7580c6b87

/-- A call of account 17 without value. -/
def otherTransaction : Transaction where
  nonce := 0
  gasPrice := 1
  gasLimit := 30000
  target := some 17
  value := 0
  data := [0, 5]
  publicKey := otherKey
  signature :=
    Ed25519.bytes32 0x43c8968fe207354c33f459a50bdf99159bf2d988f4aa832553a6e326c7e76146 ++
      Ed25519.bytes32 0xe8447c72eb08401b197a7ef004fbc0476d8e4c6c1cddc4ace1073944ac37b4a

theorem otherTransaction_toMessage :
    otherTransaction.toMessage 1 = .ok (otherTransaction.messageFrom otherSender) := by
  have hverify : Ed25519.verify otherTransaction.publicKey (otherTransaction.signingPayload 1)
      otherTransaction.signature = true := by
    decide +kernel
  have hsender : Address.ofPublicKey otherKey = otherSender := by decide +kernel
  rw [Transaction.toMessage, if_pos hverify, show otherTransaction.publicKey = otherKey from rfl,
    hsender]

/-- The second sender is the beneficiary. -/
def crossingVenue : Venue where
  author := some otherSender

def crossingSession : Session where
  world := (({} : World).placeAccount sampleSender { balance := 200000 }).placeAccount otherSender
    { balance := 50000 }
  pool := ⟨100000⟩

def crossingRun (tx : Transaction) (sender : Address) (s : Session) :
    Except Rejection Receipt × Session :=
  applySigned crossingVenue sampleHeader tx (tx.messageFrom sender) s

/-- Account 17 is missing.  The first transaction pays it and the second one calls it without value,
so that the second one is skipped if it comes first. -/
theorem crossing_transfers_commute :
    ∃ receipt₁ receipt₂ receipt₁' receipt₂' s₁ s₁₂ s₂ s₂₁,
      applyTransaction crossingVenue sampleHeader sampleTransaction crossingSession =
        (.ok receipt₁, s₁) ∧
      applyTransaction crossingVenue sampleHeader otherTransaction s₁ = (.ok receipt₂, s₁₂) ∧
      applyTransaction crossingVenue sampleHeader otherTransaction crossingSession =
        (.ok receipt₂', s₂) ∧
      applyTransaction crossingVenue sampleHeader sampleTransaction s₂ = (.ok receipt₁', s₂₁) ∧
      s₁₂.world.toLedger = s₂₁.world.toLedger ∧ s₁₂.pool = s₂₁.pool ∧
      receipt₂.cumulativeGasUsed = receipt₁'.cumulativeGasUsed := by
  have hother : otherTransaction.toMessage crossingVenue.env.chain.chainId =
      .ok (otherTransaction.messageFrom otherSender) := otherTransaction_toMessage
  let afterSample := crossingRun sampleTransaction sampleSender crossingSession
  let afterOther := crossingRun otherTransaction otherSender crossingSession
  let sampleLast := crossingRun sampleTransaction sampleSender afterOther.2
  let otherLast := crossingRun otherTransaction otherSender afterSample.2
  obtain ⟨receipt₁, h₁, -, -⟩ : ∃ receipt, afterSample = (.ok receipt, afterSample.2) ∧
      receipt.gasUsed = 21000 ∧ receipt.cumulativeGasUsed = 21000 :=
    exists_receipt_of_gasReport (by decide +kernel)
  obtain ⟨receipt₂, h₁₂, -, -⟩ : ∃ receipt, otherLast = (.ok receipt, otherLast.2) ∧
      receipt.gasUsed = 21072 ∧ receipt.cumulativeGasUsed = 42072 :=
    exists_receipt_of_gasReport (by decide +kernel)
  obtain ⟨receipt₂', h₂, -, -⟩ : ∃ receipt, afterOther = (.ok receipt, afterOther.2) ∧
      receipt.gasUsed = 21072 ∧ receipt.cumulativeGasUsed = 21072 :=
    exists_receipt_of_gasReport (by decide +kernel)
  obtain ⟨receipt₁', h₂₁, -, -⟩ : ∃ receipt, sampleLast = (.ok receipt, sampleLast.2) ∧
      receipt.gasUsed = 21000 ∧ receipt.cumulativeGasUsed = 42072 :=
    exists_receipt_of_gasReport (by decide +kernel)
  have hfirst := (applyTransaction_sample rfl sampleHeader crossingSession).trans h₁
  have hsecond := (applyTransaction_of_message hother sampleHeader afterSample.2).trans h₁₂
  have hfirst' := (applyTransaction_of_message hother sampleHeader crossingSession).trans h₂
  have hsecond' := (applyTransaction_sample rfl sampleHeader afterOther.2).trans h₂₁
  have hcall : sampleTransaction.CallsCodeless crossingVenue crossingSession.world 17 :=
    ⟨rfl, by decide +kernel, by decide +kernel⟩
  have hcall' : otherTransaction.CallsCodeless crossingVenue crossingSession.world 17 :=
    ⟨rfl, hcall.code, hcall.precompile⟩
  obtain ⟨hledger, -, hpool, hsum, -, -⟩ := plain_transfers_commute rfl (by decide +kernel) rfl hcall
    hcall' hfirst hsecond hfirst' hsecond'
  exact ⟨_, _, _, _, _, _, _, _, hfirst, hsecond, hfirst', hsecond', hledger, hpool, hsum⟩

end MeteredLedger
