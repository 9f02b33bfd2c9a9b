import Mathlib.Algebra.Ring.Nat
import MeteredLedger.Proofs.BlockRun
import MeteredLedger.Proofs.FrameCost
import MeteredLedger.Proofs.SignedTransaction
import MeteredLedger.Proofs.TransactionConduct

/-!
# Gas in a block

The pool of a block gives out the gas limit of each transaction and takes back what the transaction
does not use, while the gas used is added up apart from it.  What is in the pool and what was used
make up the block's gas limit after every transaction, so no sum on the way goes round.
-/

namespace MeteredLedger

open Std

/-! ## One transaction -/

/-- How the gas of an applied transaction is settled.  What its frame has left and what is refunded
go back to the pool, and the rest is used; each of the sums is exact. -/
structure GasSettled (venue : Venue) (header : Header) (tx : Transaction) (s : Session)
    (receipt : Receipt) (t : Session) : Prop where
  hash : receipt.txHash = tx.hash
  used_le : receipt.gasUsed ≤ tx.gasLimit
  cumulative : receipt.cumulativeGasUsed.toNat = s.used.toNat + receipt.gasUsed.toNat
  counted : t.used = receipt.cumulativeGasUsed
  shares : ∃ msg pool outcome m, tx.toMessage venue.env.chain.chainId = .ok msg ∧
    msg.Runs venue.env (Context.ofMessage msg header venue.history venue.author)
      { s with world := s.world.snapshot.2 } pool outcome m ∧
    (msg.gasBack outcome m.world).toNat = outcome.gasLeft.toNat +
      (min ((tx.gasLimit - outcome.gasLeft) / 2) m.world.refund).toNat ∧
    (msg.gasBack outcome m.world).toNat + receipt.gasUsed.toNat = tx.gasLimit.toNat ∧
    pool.gas.toNat + tx.gasLimit.toNat = s.pool.gas.toNat ∧
    t.pool.gas.toNat = pool.gas.toNat + (msg.gasBack outcome m.world).toNat

/-- If the pool and the gas used make up a limit before a transaction, they do so after it. -/
theorem applyTransaction_gasSettled {venue : Venue} {table : ExtTreeMap Bytes (List Op)}
    (hs : venue.env.interpreter = .script table) {header : Header} {tx : Transaction} {limit : Gas}
    {s t : Session} {receipt : Receipt}
    (h : applyTransaction venue header tx s = (.ok receipt, t))
    (hbefore : s.pool.gas.toNat + s.used.toNat = limit.toNat) :
    GasSettled venue header tx s receipt t ∧ t.pool.gas.toNat + t.used.toNat = limit.toNat := by
  obtain ⟨msg, execution, u, hmsg, hran, rfl, rfl⟩ := applyTransaction_eq_ok h
  obtain ⟨pool, outcome, m, hruns, hgive, hused, -, -⟩ := applyMessage_eq_ok hran
  have hlimit := Transaction.gasLimit_of_toMessage hmsg
  obtain ⟨hback, hbackLe⟩ := Message.toNat_gasBack (w := m.world) (hruns.gasLeft_le hs)
  have htaken := GasPool.take_eq_ok hruns.take_eq
  have hgiven := GasPool.give_eq_ok hgive
  have hrest := UInt64.toNat_sub_of_le _ _ hbackLe
  rw [hlimit] at hback hbackLe htaken hrest hused
  rw [← hused] at hrest
  rw [UInt64.le_iff_toNat_le] at hbackLe
  simp only at htaken
  -- The pool and the gas used never exceed the limit together, so the limit bounds the sum.
  have hlt := limit.toNat_lt
  have hsum : (s.used + execution.usedGas).toNat = s.used.toNat + execution.usedGas.toNat := by
    rw [UInt64.toNat_add, Nat.mod_eq_of_lt (by omega)]
  refine ⟨⟨rfl, ?_, hsum, rfl, msg, pool, outcome, m, hmsg, hruns, hback, ?_, htaken, hgiven⟩, ?_⟩
  · rw [UInt64.le_iff_toNat_le]
    simp only [Transaction.receipt]
    omega
  · simp only [Transaction.receipt]
    omega
  · simp only
    omega

/-! ## A whole block -/

namespace BlockRun

variable {venue : Venue} {table : ExtTreeMap Bytes (List Op)} {header : Header} {index : Nat}
  {limit : Gas} {s t : Session} {txs : List Transaction} {receipts : List Receipt}

theorem gas (hs : venue.env.interpreter = .script table)
    (h : BlockRun venue header index s txs receipts t)
    (hbefore : s.pool.gas.toNat + s.used.toNat = limit.toNat) :
    t.pool.gas.toNat + t.used.toNat = limit.toNat ∧
      t.used.toNat = s.used.toNat + (receipts.map (·.gasUsed.toNat)).sum := by
  induction h with
  | nil => exact ⟨hbefore, rfl⟩
  | cons hfirst hrest ih =>
      obtain ⟨hsettled, hpool⟩ := applyTransaction_gasSettled hs hfirst hbefore
      obtain ⟨hafter, hsum⟩ := ih hpool
      refine ⟨hafter, ?_⟩
      rw [List.map_cons, List.sum_cons, hsum, hsettled.counted, hsettled.cumulative, Nat.add_assoc]

/-- From the start of a block, pool and gas used make up the limit, and the gas used is what the
receipts add up to. -/
theorem gas_of_fresh (hs : venue.env.interpreter = .script table) {w : World} {monitor : Monitor}
    (h : BlockRun venue header index (header.freshSession w monitor) txs receipts t) :
    t.pool.gas.toNat + t.used.toNat = header.gasLimit.toNat ∧
      t.used.toNat = (receipts.map (·.gasUsed.toNat)).sum := by
  have hstart : (header.freshSession w monitor).pool.gas.toNat +
      (header.freshSession w monitor).used.toNat = header.gasLimit.toNat := rfl
  obtain ⟨hpool, hsum⟩ := h.gas hs hstart
  exact ⟨hpool, hsum.trans (Nat.zero_add _)⟩

theorem used_le (hs : venue.env.interpreter = .script table) {w : World} {monitor : Monitor}
    (h : BlockRun venue header index (header.freshSession w monitor) txs receipts t) :
    t.used ≤ header.gasLimit := by
  obtain ⟨hpool, -⟩ := h.gas_of_fresh hs
  rw [UInt64.le_iff_toNat_le]
  omega

end BlockRun

/-- The gas of an executed block adds up.  There is one receipt for each transaction, in order; the
gas used is the sum over the receipts and within the limit of the block.  Each transaction is applied
to what the ones before it leave: it uses no more than its own limit, its receipt says what it and
the ones before it have used, and with what is then in the pool this makes up the limit of the block.
No sum of gas goes round, in the settlement or in a frame. -/
theorem block_gas_adds_up {venue : Venue} {table : ExtTreeMap Bytes (List Op)}
    (hs : venue.env.interpreter = .script table) {b : Block} {consensus : Consensus} {w : World}
    {monitor : Monitor} {outcome : BlockOutcome}
    (hok : (b.executeUnder venue consensus w monitor).1 = .ok outcome) :
    outcome.receipts.length = b.transactions.length ∧
      outcome.gasUsed.toNat = (outcome.receipts.map (·.gasUsed.toNat)).sum ∧
      outcome.gasUsed ≤ b.header.gasLimit ∧
      (∀ i tx, b.transactions[i]? = some tx → ∃ receipt before after,
        outcome.receipts[i]? = some receipt ∧
        applyTransactions venue b.header 0 {} (b.transactions.take i)
          (b.header.freshSession w monitor) =
            (.ok ⟨outcome.receipts.take i, (outcome.receipts.take i).flatMap (·.logs)⟩, before) ∧
        applyTransaction venue b.header tx
          { before with world := before.world.prepare tx.hash i } = (.ok receipt, after) ∧
        GasSettled venue b.header tx
          { before with world := before.world.prepare tx.hash i } receipt after ∧
        receipt.cumulativeGasUsed.toNat =
          ((outcome.receipts.take (i + 1)).map (·.gasUsed.toNat)).sum ∧
        after.pool.gas.toNat + receipt.cumulativeGasUsed.toNat = b.header.gasLimit.toNat) ∧
      (∀ context request m trap,
        dispatchWith ⟨venue.env, context⟩ (exactEngine trap table) request m =
          dispatch ⟨venue.env, context⟩ request m) := by
  obtain ⟨-, t, hrun, -, hused, -⟩ := Block.executeUnder_eq_ok_iff.mp hok
  obtain ⟨-, hsum⟩ := hrun.gas_of_fresh hs
  refine ⟨hrun.length_eq, hused ▸ hsum, hused ▸ hrun.used_le hs, ?_, ?_⟩
  · intro i tx htx
    obtain ⟨receipt, before, after, hreceipt, hbefore, happlied⟩ := hrun.step_at htx
    rw [Nat.zero_add] at happlied
    obtain ⟨hmid, hmidSum⟩ := hbefore.gas_of_fresh hs
    obtain ⟨hsettled, hafter⟩ := applyTransaction_gasSettled hs happlied hmid
    refine ⟨receipt, before, after, hreceipt, hbefore.applyTransactions_eq, happlied, hsettled, ?_,
      hsettled.counted ▸ hafter⟩
    rw [List.take_add_one, hreceipt, List.map_append, List.sum_append, hsettled.cumulative, hmidSum]
    simp
  · intro context request m trap
    rw [dispatch_eq_script (s := ⟨venue.env, context⟩) hs, dispatchWith, dispatchWith,
      dispatchWithin_exact]

/-- Account 17 wastes gas, earns a refund, and calls itself with too little gas. -/
def pairedTable : ExtTreeMap Bytes (List Op) :=
  (∅ : ExtTreeMap Bytes (List Op)).insert [1] [.burn 9000, .refund 4800, .call .call 17 500 0]

def pairedVenue : Venue where
  env := { interpreter := .script pairedTable }

def wastefulTransaction : Transaction where
  nonce := 0
  gasPrice := 0
  gasLimit := 60000
  target := some 17
  value := 0
  data := []
  publicKey := sampleKey
  signature :=
    Ed25519.bytes32 0xa17d9d32502320511353e009d155a485b379bee02326378f52b7a422f5a7dceb ++
      Ed25519.bytes32 0x71757df142f40bb7dc75d6c8a378f8bf84c09a1e093e3850bf5dd6c37a20dab

def pairedBlock : Block where
  header := sampleHeader
  transactions := [wastefulTransaction, idleTransaction]

def pairedWorld : World :=
  ({} : World).placeAccount 17 { code := [1] }

def wastefulRun : Except Rejection Receipt × Session :=
  applySigned pairedVenue sampleHeader wastefulTransaction
    (wastefulTransaction.messageFrom sampleSender)
    (sampleHeader.freshSession (pairedWorld.prepare wastefulTransaction.hash 0) {})

def idleRun : Except Rejection Receipt × Session :=
  applySigned pairedVenue sampleHeader idleTransaction (idleTransaction.messageFrom sampleSender)
    { wastefulRun.2 with world := wastefulRun.2.world.prepare idleTransaction.hash 1 }

theorem paired_block_gas_adds_up :
    ∃ outcome, (pairedBlock.executeUnder pairedVenue (Consensus.reward none) pairedWorld {}).1 =
        .ok outcome ∧
      outcome.receipts.map (·.gasUsed) = [25700, 21000] ∧
      outcome.gasUsed.toNat = (outcome.receipts.map (·.gasUsed.toNat)).sum ∧
      outcome.gasUsed ≤ sampleHeader.gasLimit := by
  have hwasteful : Ed25519.verify wastefulTransaction.publicKey
      (wastefulTransaction.signingPayload pairedVenue.env.chain.chainId)
      wastefulTransaction.signature = true := by
    decide +kernel
  obtain ⟨first, hfirst, hfirstUsed, -⟩ :
      ∃ receipt, wastefulRun = (.ok receipt, wastefulRun.2) ∧ receipt.gasUsed = 25700 ∧
        receipt.cumulativeGasUsed = 25700 :=
    exists_receipt_of_gasReport (by decide +kernel)
  obtain ⟨second, hsecond, hsecondUsed, -⟩ :
      ∃ receipt, idleRun = (.ok receipt, idleRun.2) ∧ receipt.gasUsed = 21000 ∧
        receipt.cumulativeGasUsed = 46700 :=
    exists_receipt_of_gasReport (by decide +kernel)
  have hrun : BlockRun pairedVenue pairedBlock.header 0
      (pairedBlock.header.freshSession pairedWorld {}) pairedBlock.transactions [first, second]
      idleRun.2 := by
    apply BlockRun.cons
    · rw [applyTransaction_of_message (toMessage_sampleKey rfl hwasteful)]
      exact hfirst
    · apply BlockRun.cons
      · rw [applyTransaction_idle rfl]
        exact hsecond
      · exact .nil
  have hok : (pairedBlock.executeUnder pairedVenue (Consensus.reward none) pairedWorld {}).1 = .ok _ :=
    congrArg Prod.fst (Block.executeUnder_of_run rfl hrun)
  have hs : pairedVenue.env.interpreter = .script pairedTable := rfl
  obtain ⟨-, hsum, hle, -, -⟩ := block_gas_adds_up hs hok
  refine ⟨_, hok, ?_, hsum, hle⟩
  simp only [List.map_cons, List.map_nil, hfirstUsed, hsecondUsed]

end MeteredLedger
