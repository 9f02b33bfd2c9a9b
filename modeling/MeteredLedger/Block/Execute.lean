import MeteredLedger.Transaction.Apply

/-!
# Executing and validating blocks

The transactions of a block are applied in order against one gas pool, then the consensus rule has
its turn, which pays the block reward. The first rejected transaction ends the block. A sealed header
is compared with what the execution gave.
-/

namespace MeteredLedger

/-- What the execution of a block gave. -/
structure BlockOutcome where
  receipts : List Receipt
  logs : List Log
  gasUsed : Gas
  stateRoot : Hash

/-- The receipts and logs of the transactions applied so far. -/
structure BlockRecord where
  receipts : List Receipt := []
  logs : List Log := []

def BlockRecord.add (r : BlockRecord) (receipt : Receipt) : BlockRecord where
  receipts := r.receipts ++ [receipt]
  logs := r.logs ++ receipt.logs

/-- Where the transactions of a block start: all of its gas is in the pool. -/
def Header.freshSession (h : Header) (w : World) (monitor : Monitor) : Session where
  world := w
  pool := ⟨h.gasLimit⟩
  monitor := monitor

/-- Applies transactions in order, the first of which has the given index, and adds to the record. -/
def applyTransactions (venue : Venue) (header : Header) :
    (index : Nat) → BlockRecord → List Transaction → Session →
      Except BlockError BlockRecord × Session
  | _, record, [], s => (.ok record, s)
  | index, record, tx :: txs, s =>
    match applyTransaction venue header tx { s with world := s.world.prepare tx.hash index } with
    | (.error e, s) => (.error (.transaction index e), s)
    | (.ok receipt, s) => applyTransactions venue header (index + 1) (record.add receipt) txs s

/-- A consensus rule: what is done to the world after the transactions of a block. -/
abbrev Consensus := Block → List Receipt → World → World

/-- Pays a fixed reward, if there is one, to the header's beneficiary. -/
def Consensus.reward (amount : Option Wei) : Consensus := fun b _ w =>
  match amount with
  | some amount => w.addBalance b.header.coinbase amount
  | none => w

namespace Block

/-- Executes a block under a consensus rule. -/
def executeUnder (b : Block) (venue : Venue) (consensus : Consensus) (w : World)
    (monitor : Monitor) : Except BlockError BlockOutcome × World × Monitor :=
  match b.header.validate with
  | .error e => (.error e, w, monitor)
  | .ok () =>
    match applyTransactions venue b.header 0 {} b.transactions (b.header.freshSession w monitor) with
    | (.error e, s) => (.error e, s.world, s.monitor)
    | (.ok record, s) =>
      let w := (consensus b record.receipts s.world).finalise
      (.ok ⟨record.receipts, record.logs, s.used, w.stateRoot⟩, w, s.monitor)

/-- Executes a block, and pays the reward, if there is one, to the header's beneficiary. -/
def execute (b : Block) (venue : Venue) (reward : Option Wei) (w : World) (monitor : Monitor) :
    Except BlockError BlockOutcome × World × Monitor :=
  b.executeUnder venue (Consensus.reward reward) w monitor

/-- Compares a header with the outcome of its block. -/
def validateOutcome (b : Block) (o : BlockOutcome) : Except BlockError Unit :=
  let h := b.header
  if h.gasUsed ≠ o.gasUsed then .error (.gasUsedMismatch h.gasUsed o.gasUsed)
  else if h.bloom ≠ Bloom.ofReceipts o.receipts then .error .bloomMismatch
  else if h.stateRoot ≠ o.stateRoot then .error (.stateRootMismatch h.stateRoot o.stateRoot)
  else .ok ()

end Block

end MeteredLedger
