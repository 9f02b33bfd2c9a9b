import MeteredLedger.Proofs.BlockGas
import MeteredLedger.Proofs.MessageOpening

/-!
# A block stops at the first rejected transaction

The transactions before the rejected one are applied for good and make up a block of their own under
the same header.  The rejected one leaves no trace, so that the accounts are left as that shorter
block leaves them.  The two runs do not meet the rejected transaction in the same world: a block ends
by settling its world, which matters where no transaction came before.  Whether a transaction is
rejected does not depend on what settling changes, nor on how the pool is arrived at.
-/

namespace MeteredLedger

open Std

theorem applyTransactions_eq_error_iff {venue : Venue} {header : Header} {index : Nat}
    {record : BlockRecord} {s t : Session} {txs : List Transaction} {error : BlockError} :
    applyTransactions venue header index record txs s = (.error error, t) ↔
      ∃ n tx receipts mid e, txs[n]? = some tx ∧
        BlockRun venue header index s (txs.take n) receipts mid ∧
        applyTransaction venue header tx
          { mid with world := mid.world.prepare tx.hash (index + n) } = (.error e, t) ∧
        error = .transaction (index + n) e := by
  constructor
  · intro h
    induction txs generalizing index record s with
    | nil => cases h
    | cons tx txs ih =>
        simp only [applyTransactions] at h
        split at h
        · rename_i e u hfirst
          cases h
          exact ⟨0, tx, [], s, e, rfl, .nil, hfirst, rfl⟩
        · rename_i receipt u hfirst
          obtain ⟨n, tx', receipts, mid, e, htx, hrun, hrejected, herror⟩ := ih h
          have hindex : index + 1 + n = index + (n + 1) := by omega
          rw [hindex] at hrejected herror
          exact ⟨n + 1, tx', receipt :: receipts, mid, e, htx, .cons hfirst hrun, hrejected, herror⟩
  · rintro ⟨n, tx, receipts, mid, e, htx, hrun, hrejected, rfl⟩
    induction txs generalizing index record s n receipts with
    | nil => cases htx
    | cons tx' txs ih =>
        cases n with
        | zero =>
            cases htx
            cases hrun
            rw [Nat.add_zero] at hrejected ⊢
            simp only [applyTransactions, hrejected]
        | succ n =>
            cases hrun with
            | cons hfirst hrest =>
                have hindex : index + (n + 1) = index + 1 + n := by omega
                rw [hindex] at hrejected ⊢
                simp only [applyTransactions, hfirst, ih n _ htx hrest hrejected]

namespace Block

/-- The block of the first transactions under the same header. -/
def upTo (b : Block) (count : Nat) : Block := { b with transactions := b.transactions.take count }

/-- The header passes its check, the transactions before an index make up a block that executes
without a reward and reaches a world, and in that world the transaction at the index is rejected. -/
inductive StopsAt (b : Block) (venue : Venue) (w : World) (monitor : Monitor) :
    Nat → Rejection → World → Prop
  | intro {i : Nat} {tx : Transaction} {outcome : BlockOutcome} {reached : World}
      {monitor' : Monitor} {e : Rejection} (hvalid : b.header.validate = .ok ())
      (htx : b.transactions[i]? = some tx)
      (hbefore : (b.upTo i).execute venue none w monitor = (.ok outcome, reached, monitor'))
      (hrejected : (applyTransaction venue b.header tx
        ⟨reached.prepare tx.hash i, ⟨b.header.gasLimit - outcome.gasUsed⟩, outcome.gasUsed,
          monitor'⟩).1 = .error e) : StopsAt b venue w monitor i e reached

theorem executeUnder_eq_ok {b : Block} {venue : Venue} {consensus : Consensus} {w w' : World}
    {monitor monitor' : Monitor} {outcome : BlockOutcome}
    (h : b.executeUnder venue consensus w monitor = (.ok outcome, w', monitor')) :
    ∃ t, BlockRun venue b.header 0 (b.header.freshSession w monitor) b.transactions
        outcome.receipts t ∧
      outcome.gasUsed = t.used ∧ w' = (consensus b outcome.receipts t.world).finalise ∧
      monitor' = t.monitor := by
  obtain ⟨hvalid, t, hrun⟩ := exists_run_of_executeUnder (congrArg Prod.fst h)
  rw [executeUnder_of_run hvalid hrun, Prod.mk.injEq, Except.ok.injEq, Prod.mk.injEq] at h
  obtain ⟨houtcome, hworld, hmonitor⟩ := h
  exact ⟨t, hrun, (congrArg BlockOutcome.gasUsed houtcome).symm, hworld.symm, hmonitor.symm⟩

end Block

/-- The pool holds what the transactions before have not used. -/
theorem BlockRun.pool_eq {venue : Venue} {table : ExtTreeMap Bytes (List Op)}
    (hs : venue.env.interpreter = .script table) {header : Header} {index : Nat} {w : World}
    {monitor : Monitor} {txs : List Transaction} {receipts : List Receipt} {mid : Session}
    (h : BlockRun venue header index (header.freshSession w monitor) txs receipts mid) :
    mid.pool = ⟨header.gasLimit - mid.used⟩ := by
  have hle := h.used_le hs
  obtain ⟨hsum, -⟩ := h.gas_of_fresh hs
  have hgas : mid.pool.gas = header.gasLimit - mid.used := by
    rw [← UInt64.toNat_inj, UInt64.toNat_sub_of_le _ _ hle]
    omega
  rw [← hgas]

section Stops

variable {venue : Venue} {table : ExtTreeMap Bytes (List Op)}
  (hs : venue.env.interpreter = .script table) {b : Block} {w : World} {monitor : Monitor} {i : Nat}
  {tx : Transaction} {receipts : List Receipt} {mid : Session} {e : Rejection}

include hs

/-- The run of the transactions before the rejected one, in place of their block. -/
theorem Block.stopsAt_iff {reached : World} :
    b.StopsAt venue w monitor i e reached ↔
      b.header.validate = .ok () ∧ ∃ tx receipts mid, b.transactions[i]? = some tx ∧
        BlockRun venue b.header 0 (b.header.freshSession w monitor) (b.transactions.take i) receipts
          mid ∧
        (applyTransaction venue b.header tx
          { mid with world := mid.world.prepare tx.hash i }).1 = .error e ∧
        reached = mid.world.finalise := by
  -- Settling a world and preparing it for a transaction both leave its accounts alone.
  have haccounts : ∀ (v : World) (tx : Transaction),
      (v.finalise.prepare tx.hash i).accounts = (v.prepare tx.hash i).accounts := by
    intro v tx
    rw [World.prepare_accounts, World.prepare_accounts]
    rfl
  constructor
  · rintro ⟨hvalid, htx, hbefore, hrejected⟩
    obtain ⟨mid, hrun, hused, rfl, rfl⟩ := executeUnder_eq_ok hbefore
    refine ⟨hvalid, _, _, mid, htx, hrun, ?_, rfl⟩
    rw [hused] at hrejected
    refine (applyTransaction_eq_error_congr hs ?_ ?_).mp hrejected
    · exact haccounts mid.world _
    · exact (hrun.pool_eq hs).symm
  · rintro ⟨hvalid, tx, receipts, mid, htx, hrun, hrejected, rfl⟩
    have hbefore : (b.upTo i).execute venue none w monitor =
        (.ok ⟨receipts, receipts.flatMap (·.logs), mid.used, mid.world.finalise.stateRoot⟩,
          mid.world.finalise, mid.monitor) := executeUnder_of_run hvalid hrun
    refine .intro hvalid htx hbefore ((applyTransaction_eq_error_congr hs ?_ ?_).mpr hrejected)
    · exact haccounts mid.world tx
    · exact (hrun.pool_eq hs).symm

theorem Block.executeUnder_of_rejected (consensus : Consensus)
    (hvalid : b.header.validate = .ok ()) (htx : b.transactions[i]? = some tx)
    (hrun : BlockRun venue b.header 0 (b.header.freshSession w monitor) (b.transactions.take i)
      receipts mid)
    (hrejected : (applyTransaction venue b.header tx
      { mid with world := mid.world.prepare tx.hash i }).1 = .error e) :
    b.executeUnder venue consensus w monitor =
      (.error (.transaction i e), mid.world.prepare tx.hash i, mid.monitor) := by
  have hsame := applyTransaction_of_error hs hrejected
  have happlied : applyTransaction venue b.header tx
      { mid with world := mid.world.prepare tx.hash (0 + i) } =
        (.error e, { mid with world := mid.world.prepare tx.hash i }) := by
    rw [Nat.zero_add]
    exact Prod.ext hrejected hsame
  have herror : applyTransactions venue b.header 0 {} b.transactions
      (b.header.freshSession w monitor) = (.error (.transaction (0 + i) e), _) :=
    applyTransactions_eq_error_iff.mpr ⟨i, tx, _, mid, e, htx, hrun, happlied, rfl⟩
  simp only [executeUnder, hvalid, herror, Nat.zero_add]

end Stops

theorem Block.executeUnder_eq_error {b : Block} {venue : Venue} {consensus : Consensus} {w : World}
    {monitor : Monitor} {i : Nat} {e : Rejection}
    (h : (b.executeUnder venue consensus w monitor).1 = .error (.transaction i e)) :
    b.header.validate = .ok () ∧ ∃ tx receipts mid, b.transactions[i]? = some tx ∧
      BlockRun venue b.header 0 (b.header.freshSession w monitor) (b.transactions.take i) receipts
        mid ∧
      (applyTransaction venue b.header tx
        { mid with world := mid.world.prepare tx.hash i }).1 = .error e := by
  unfold executeUnder at h
  split at h
  · rename_i error hinvalid
    cases h
    unfold Header.validate at hinvalid
    split at hinvalid
    · cases hinvalid
    · split at hinvalid <;> cases hinvalid
  · rename_i hvalid
    split at h
    · rename_i error t hrun
      cases h
      obtain ⟨n, tx, receipts, mid, e', htx, hbefore, hrejected, herror⟩ :=
        applyTransactions_eq_error_iff.mp hrun
      rw [Nat.zero_add] at hrejected herror
      cases herror
      exact ⟨hvalid, tx, receipts, mid, htx, hbefore, congrArg Prod.fst hrejected⟩
    · cases h

/-- A block is given up for a rejected transaction exactly when the transactions before it make up a
block that executes, and the rejected one is rejected in the world which that block reaches, with what
it leaves of the gas limit.  The accounts are then left as that block leaves them, whatever the
consensus rule is. -/
theorem block_stops_at_rejected_transaction {venue : Venue} {table : ExtTreeMap Bytes (List Op)}
    (hs : venue.env.interpreter = .script table) (b : Block) (consensus : Consensus) (w : World)
    (monitor : Monitor) (i : Nat) (e : Rejection) :
    ((b.executeUnder venue consensus w monitor).1 = .error (.transaction i e) ↔
      ∃ reached, b.StopsAt venue w monitor i e reached) ∧
    (∀ reached, b.StopsAt venue w monitor i e reached →
      (b.executeUnder venue consensus w monitor).2.1.accounts = reached.accounts) := by
  refine ⟨⟨?_, ?_⟩, ?_⟩
  · intro h
    obtain ⟨hvalid, tx, receipts, mid, htx, hrun, hrejected⟩ := Block.executeUnder_eq_error h
    exact ⟨_, (Block.stopsAt_iff hs).mpr ⟨hvalid, tx, receipts, mid, htx, hrun, hrejected, rfl⟩⟩
  · rintro ⟨reached, hstops⟩
    obtain ⟨hvalid, tx, receipts, mid, htx, hrun, hrejected, -⟩ :=
      (Block.stopsAt_iff hs).mp hstops
    rw [Block.executeUnder_of_rejected hs consensus hvalid htx hrun hrejected]
  · intro reached hstops
    obtain ⟨hvalid, tx, receipts, mid, htx, hrun, hrejected, rfl⟩ :=
      (Block.stopsAt_iff hs).mp hstops
    rw [Block.executeUnder_of_rejected hs consensus hvalid htx hrun hrejected]
    exact World.prepare_accounts mid.world tx.hash i

/-- A block that holds the same payment twice. -/
def stutteringBlock : Block where
  header := sampleHeader
  transactions := [sampleTransaction, sampleTransaction]

def stutteringVenue : Venue where
  env := { interpreter := .script ∅ }

def stutteringWorld : World := ({} : World).placeAccount sampleSender { balance := 200000 }

/-- The first payment in its block. -/
def stutteringRun : Except Rejection Receipt × Session :=
  applySigned stutteringVenue sampleHeader sampleTransaction
    (sampleTransaction.messageFrom sampleSender)
    (sampleHeader.freshSession (stutteringWorld.prepare sampleTransaction.hash 0) {})

theorem stuttering_block_stops_at_repetition :
    (stutteringBlock.executeUnder stutteringVenue (Consensus.reward (some 5)) stutteringWorld {}).1 =
        .error (.transaction 1 (.nonceTooLow 1 0)) ∧
      ∃ reached, stutteringBlock.StopsAt stutteringVenue stutteringWorld {} 1 (.nonceTooLow 1 0)
          reached ∧
        (stutteringBlock.executeUnder stutteringVenue (Consensus.reward (some 5)) stutteringWorld
          {}).2.1.accounts = reached.accounts := by
  have hs : stutteringVenue.env.interpreter = .script ∅ := rfl
  have hmsg : sampleTransaction.toMessage stutteringVenue.env.chain.chainId =
      .ok (sampleTransaction.messageFrom sampleSender) := sampleTransaction_toMessage
  obtain ⟨receipt, hfirst, -, -⟩ : ∃ receipt, stutteringRun = (.ok receipt, stutteringRun.2) ∧
      receipt.gasUsed = 21000 ∧ receipt.cumulativeGasUsed = 21000 :=
    exists_receipt_of_gasReport (by decide +kernel)
  have hrun : BlockRun stutteringVenue stutteringBlock.header 0
      (stutteringBlock.header.freshSession stutteringWorld {}) (stutteringBlock.transactions.take 1)
      [receipt] stutteringRun.2 := by
    refine .cons ?_ .nil
    rw [applyTransaction_of_message hmsg]
    exact hfirst
  have hnonce : (stutteringRun.2.world.prepare sampleTransaction.hash 1).nonce sampleSender = 1 := by
    decide +kernel
  have hrejected : (applyTransaction stutteringVenue stutteringBlock.header sampleTransaction
      { stutteringRun.2 with world := stutteringRun.2.world.prepare sampleTransaction.hash 1 }).1 =
        .error (.nonceTooLow 1 0) := by
    rw [applyTransaction_eq_error_iff hs]
    refine .inr ⟨_, hmsg, ?_⟩
    generalize stutteringRun.2.world.prepare sampleTransaction.hash 1 = v at hnonce ⊢
    simp [Message.opening, Message.accept, Message.checkNonceIn, Transaction.messageFrom, hnonce,
      sampleTransaction]
  have hstops := (Block.stopsAt_iff hs).mpr
    ⟨rfl, sampleTransaction, _, _, rfl, hrun, hrejected, rfl⟩
  obtain ⟨hiff, haccounts⟩ := block_stops_at_rejected_transaction hs stutteringBlock
    (Consensus.reward (some 5)) stutteringWorld {} 1 (.nonceTooLow 1 0)
  exact ⟨hiff.mpr ⟨_, hstops⟩, _, hstops, haccounts _ hstops⟩

end MeteredLedger
