import MeteredLedger.Proofs.BlockGas

/-!
# A sealed block executes as before

A header is sealed by writing into it what the execution of its block gave: the gas used, the bloom
of the receipts and the state root.  Nothing on the way from a transaction to its receipt reads these
three fields, so a sealed block runs as the open one did.  Only the check of the header looks at the
gas used, and a block never uses more than its limit.
-/

namespace MeteredLedger

open Std

/-- The headers differ at most in what sealing writes. -/
structure Header.SameTerms (h h' : Header) : Prop where
  parentHash : h'.parentHash = h.parentHash
  number : h'.number = h.number
  coinbase : h'.coinbase = h.coinbase
  gasLimit : h'.gasLimit = h.gasLimit
  timestamp : h'.timestamp = h.timestamp
  difficulty : h'.difficulty = h.difficulty

structure Block.SameTerms (b b' : Block) : Prop where
  header : b.header.SameTerms b'.header
  transactions : b'.transactions = b.transactions

/-- The block with an outcome written into its header. -/
def Block.sealWith (b : Block) (o : BlockOutcome) : Block where
  header := { b.header with
    gasUsed := o.gasUsed
    stateRoot := o.stateRoot
    bloom := Bloom.ofReceipts o.receipts }
  transactions := b.transactions

theorem Header.validate_eq_ok_iff {h : Header} :
    h.validate = .ok () ↔ h.gasLimit ≠ 0 ∧ h.gasUsed ≤ h.gasLimit := by
  rw [← UInt64.not_lt]
  simp only [validate]
  split
  · simp [*]
  · split <;> simp [*]

theorem Block.validateOutcome_eq_ok_iff {b : Block} {o : BlockOutcome} :
    b.validateOutcome o = .ok () ↔ b.header.gasUsed = o.gasUsed ∧
      b.header.bloom = Bloom.ofReceipts o.receipts ∧ b.header.stateRoot = o.stateRoot := by
  simp only [validateOutcome]
  split
  · simp [*]
  · split
    · simp [*]
    · split <;> simp_all

theorem Block.SameTerms.refl (b : Block) : b.SameTerms b :=
  ⟨⟨rfl, rfl, rfl, rfl, rfl, rfl⟩, rfl⟩

theorem Block.sameTerms_sealWith (b : Block) (o : BlockOutcome) : b.SameTerms (b.sealWith o) :=
  ⟨⟨rfl, rfl, rfl, rfl, rfl, rfl⟩, rfl⟩

/-! ## Two runs -/

section Runs

variable {header header' : Header} (h : header.SameTerms header')

include h

theorem Context.ofMessage_sameTerms (msg : Message) (history : History) (author : Option Address) :
    Context.ofMessage msg header' history author = Context.ofMessage msg header history author := by
  simp only [Context.ofMessage, h.number, h.coinbase, h.gasLimit, h.timestamp, h.difficulty]

theorem Transaction.receipt_sameTerms (tx : Transaction) (msg : Message) (execution : Execution)
    (used : Gas) (w : World) :
    tx.receipt msg header' execution used w = tx.receipt msg header execution used w := by
  simp only [Transaction.receipt, h.number]

theorem applyTransaction_sameTerms (venue : Venue) (tx : Transaction) (s : Session) :
    applyTransaction venue header' tx s = applyTransaction venue header tx s := by
  unfold applyTransaction
  simp only [applySigned, Context.ofMessage_sameTerms h, Transaction.receipt_sameTerms h]

theorem applyTransactions_sameTerms (venue : Venue) (index : Nat) (record : BlockRecord)
    (txs : List Transaction) (s : Session) :
    applyTransactions venue header' index record txs s =
      applyTransactions venue header index record txs s := by
  induction txs generalizing index record s with
  | nil => rfl
  | cons tx txs ih => simp only [applyTransactions, applyTransaction_sameTerms h, ih]

end Runs

/-- Blocks of the same terms execute alike if both headers pass their check and the consensus rule
does not read what sealing writes. -/
theorem Block.SameTerms.executeUnder {b b' : Block} (h : b.SameTerms b')
    (hvalid : b.header.validate = .ok ()) (hvalid' : b'.header.validate = .ok ()) (venue : Venue)
    {consensus : Consensus} (hrule : consensus b' = consensus b) (w : World) (monitor : Monitor) :
    b'.executeUnder venue consensus w monitor = b.executeUnder venue consensus w monitor := by
  simp only [Block.executeUnder, hvalid, hvalid', hrule, h.transactions, Header.freshSession,
    h.header.gasLimit, applyTransactions_sameTerms h.header]

theorem Consensus.reward_sameTerms {b b' : Block} (h : b.SameTerms b') (amount : Option Wei) :
    Consensus.reward amount b' = Consensus.reward amount b := by
  funext receipts w
  simp only [Consensus.reward, h.header.coinbase]

/-! ## Sealing -/

section Sealing

variable {b : Block} {o : BlockOutcome}

theorem Block.SameTerms.eq_sealWith {b' : Block} (h : b.SameTerms b')
    (hvalidated : b'.validateOutcome o = .ok ()) : b' = b.sealWith o := by
  obtain ⟨⟨hparent, hnumber, hcoinbase, hlimit, htime, hdifficulty⟩, htxs⟩ := h
  obtain ⟨hused, hbloom, hroot⟩ := Block.validateOutcome_eq_ok_iff.mp hvalidated
  obtain ⟨header', txs'⟩ := b'
  cases header'
  cases hparent
  cases hnumber
  cases hcoinbase
  cases hlimit
  cases htime
  cases hdifficulty
  cases htxs
  cases hused
  cases hbloom
  cases hroot
  rfl

end Sealing

/-- A block sealed with its own outcome passes the check of its header, executes to that outcome
again with the same world at the end, and agrees with it.  Among the blocks that differ at most in
what sealing writes, it is the only one that agrees. -/
theorem sealed_block_executes_again {venue : Venue} {table : ExtTreeMap Bytes (List Op)}
    (hs : venue.env.interpreter = .script table) (b : Block) (reward : Option Wei) (w : World)
    (monitor : Monitor) {o : BlockOutcome} (hok : (b.execute venue reward w monitor).1 = .ok o) :
    (b.sealWith o).header.validate = .ok () ∧
      (b.sealWith o).execute venue reward w monitor = b.execute venue reward w monitor ∧
      (b.sealWith o).validateOutcome o = .ok () ∧
      (∀ b', b.SameTerms b' → b'.validateOutcome o = .ok () → b' = b.sealWith o) := by
  obtain ⟨hvalid, t, hrun, -, hgas, -⟩ := Block.executeUnder_eq_ok_iff.mp hok
  have hsame := b.sameTerms_sealWith o
  have hused : o.gasUsed ≤ b.header.gasLimit := hgas ▸ hrun.used_le hs
  have hsealed : (b.sealWith o).header.validate = .ok () :=
    Header.validate_eq_ok_iff.mpr ⟨(Header.validate_eq_ok_iff.mp hvalid).1, hused⟩
  refine ⟨hsealed, ?_, ?_, ?_⟩
  · exact hsame.executeUnder hvalid hsealed venue (Consensus.reward_sameTerms hsame reward) w monitor
  · exact Block.validateOutcome_eq_ok_iff.mpr ⟨rfl, rfl, rfl⟩
  · intro b' hb' hvalidated
    exact hb'.eq_sealWith hvalidated

/-- Account 17 logs what it is told and burns gas. -/
def loggingTable : ExtTreeMap Bytes (List Op) :=
  (∅ : ExtTreeMap Bytes (List Op)).insert [1] [.log [3] [4], .burn 700]

/-- The fees go to an author of its own. -/
def loggingVenue : Venue where
  env := { interpreter := .script loggingTable }
  author := some 6

def loggingBlock : Block where
  header := sampleHeader
  transactions := [sampleTransaction]

def loggingWorld : World :=
  (({} : World).placeAccount 17 { code := [1] }).placeAccount sampleSender { balance := 200000 }

theorem logging_block_executes_again :
    ∃ o, (loggingBlock.execute loggingVenue (some 5) loggingWorld {}).1 = .ok o ∧
      o.gasUsed = 21700 ∧
      ((loggingBlock.sealWith o).execute loggingVenue (some 5) loggingWorld {}).1 = .ok o ∧
      (loggingBlock.sealWith o).validateOutcome o = .ok () ∧
      loggingBlock.validateOutcome o ≠ .ok () := by
  have hreport : gasReport (applyTransaction loggingVenue loggingBlock.header sampleTransaction
      (sampleHeader.freshSession (loggingWorld.prepare sampleTransaction.hash 0) {})).1 =
        some (21700, 21700) := by
    rw [applyTransaction_sample rfl]
    decide +kernel
  obtain ⟨receipt, hfirst, -, hsum⟩ := exists_receipt_of_gasReport hreport
  -- The session that is left is not looked into any further.
  obtain ⟨t, hrun, hused⟩ : ∃ t, BlockRun loggingVenue loggingBlock.header 0
      (loggingBlock.header.freshSession loggingWorld {}) loggingBlock.transactions [receipt] t ∧
      t.used = 21700 := ⟨_, .cons hfirst .nil, (applyTransaction_used hfirst).trans hsum⟩
  have hok : (loggingBlock.execute loggingVenue (some 5) loggingWorld {}).1 = .ok _ :=
    congrArg Prod.fst (Block.executeUnder_of_run rfl hrun)
  obtain ⟨-, hagain, hvalidated, honly⟩ := sealed_block_executes_again rfl loggingBlock (some 5)
    loggingWorld {} hok
  refine ⟨_, hok, hused, hagain ▸ hok, hvalidated, ?_⟩
  intro hopen
  -- The open header says that no gas was used.
  have hsealed := congrArg (·.header.gasUsed) (honly loggingBlock (.refl loggingBlock) hopen)
  simp only [Block.sealWith, hused] at hsealed
  exact absurd hsealed (by decide)

end MeteredLedger
