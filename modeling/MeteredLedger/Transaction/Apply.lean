import MeteredLedger.Machine.Dispatch

/-!
# Applying messages and transactions

A message is accepted, pays for all its gas in advance, runs in one frame, and is settled: unused gas
goes back to sender and pool, and the beneficiary is paid for the rest. A message that is refused
after it has paid does not get its payment back; a transaction does, because it goes back to where it
started.
-/

namespace MeteredLedger

/-- The state that the transactions of a block act on: `used` is the gas that the ones before have
used. -/
structure Session where
  world : World
  pool : GasPool
  used : Gas := 0
  monitor : Monitor := {}

/-- What became of a message that ran. -/
structure Execution where
  usedGas : Gas
  fault : Option Fault
  output : Bytes
  contractAddress : Option Address

namespace Message

/-- Checks the nonce against the sender's, where the message asks for it. -/
def checkNonceIn (msg : Message) (w : World) : Except Rejection Unit :=
  let state := w.nonce msg.sender
  if !msg.checkNonce then .ok ()
  else if state < msg.nonce then .error (.nonceTooHigh state msg.nonce)
  else if msg.nonce < state then .error (.nonceTooLow state msg.nonce)
  else if state = Nonce.largest then .error (.nonceMax msg.sender state)
  else .ok ()

/-- The price of all gas, if it and the value are in range and covered by the sender. -/
def gasCost (msg : Message) (w : World) : Except Rejection Wei :=
  let cost := msg.gasLimit.toNat * msg.gasPrice.toNat
  let balance := w.balance msg.sender
  match Wei.ofNat? cost, Wei.ofNat? (cost + msg.value.toNat) with
  | some cost, some want =>
    if balance < want then .error (.insufficientFunds balance want) else .ok cost
  | _, _ => .error .gasOverflow

/-- Accepts a message: its nonce fits, the sender can pay, and the pool has the gas. -/
def accept (msg : Message) (w : World) (pool : GasPool) : Except Rejection (Wei × GasPool) :=
  match msg.checkNonceIn w with
  | .error e => .error e
  | .ok () =>
    match msg.gasCost w with
    | .error e => .error e
    | .ok cost =>
      match pool.take msg.gasLimit with
      | .error e => .error (.gasPoolExhausted e)
      | .ok pool => .ok (cost, pool)

/-- The frame that a message asks for, and the world it starts in. A call counts the sender's nonce
up here; a creation does so in its frame. -/
def start (msg : Message) (gas : Gas) (w : World) : Except Rejection (Request × World) :=
  match msg.target with
  | none => .ok (.create msg.sender msg.data gas msg.value, w)
  | some target =>
    let nonce := w.nonce msg.sender
    match nonce.next? with
    | none => .error (.nonceMax msg.sender nonce)
    | some next =>
      .ok (.call msg.sender target msg.data gas msg.value, w.setNonce msg.sender next)

end Message

/-- Settles a message that ran: up to half of the used gas is refunded, the sender gets the unused
gas back, and the beneficiary is paid for the rest. -/
def settle (msg : Message) (coinbase : Address) (outcome : Outcome) (s : Session) :
    Except Rejection Execution × Session :=
  let refund := min ((msg.gasLimit - outcome.gasLeft) / 2) s.world.refund
  let gas := outcome.gasLeft + refund
  let s := { s with world := s.world.addBalance msg.sender (Gas.costClamped gas msg.gasPrice) }
  match s.pool.give gas with
  | .error e => (.error (.gasPoolExhausted e), s)
  | .ok pool =>
    let used := msg.gasLimit - gas
    let w := s.world.addBalance coinbase (Gas.costClamped used msg.gasPrice)
    (.ok ⟨used, outcome.fault?, outcome.output, outcome.created⟩, { s with world := w, pool := pool })

/-- Applies a message. A refusal after acceptance leaves the payment taken. -/
def applyMessage (env : Env) (context : Context) (msg : Message) (s : Session) :
    Except Rejection Execution × Session :=
  match msg.accept s.world s.pool with
  | .error e => (.error e, s)
  | .ok (cost, pool) =>
    let s := { s with world := s.world.subBalance msg.sender cost, pool := pool }
    match Gas.intrinsic? msg.data msg.isCreation (env.chain.isHomestead context.blockNumber) with
    | none => (.error .gasOverflow, s)
    | some intrinsic =>
      if msg.gasLimit < intrinsic then (.error (.intrinsicGas msg.gasLimit intrinsic), s)
      else
        match msg.start (msg.gasLimit - intrinsic) s.world with
        | .error e => (.error e, s)
        | .ok (request, w) =>
          let (outcome, m) := dispatch ⟨env, context⟩ request { world := w, monitor := s.monitor }
          settle msg context.coinbase outcome { s with world := m.world, monitor := m.monitor }

/-- Where transactions are applied: the environment, the earlier blocks, and who is paid if not the
header's beneficiary. -/
structure Venue where
  env : Env := {}
  history : History := ∅
  author : Option Address := none

/-- The receipt of a transaction that was applied, in the world that it left and with the gas that it
and the ones before have used. -/
def Transaction.receipt (tx : Transaction) (msg : Message) (header : Header) (execution : Execution)
    (used : Gas) (w : World) : Receipt :=
  let txHash := tx.hash
  let logs := (w.logsOf txHash).map fun log => { log with blockNumber := header.number }
  { succeeded := execution.fault.isNone
    cumulativeGasUsed := used
    gasUsed := execution.usedGas
    logs := logs
    bloom := Bloom.ofLogs logs
    txHash := txHash
    contractAddress :=
      if msg.isCreation then some (Address.ofCreation msg.sender tx.nonce) else none }

/-- Applies a transaction whose message is known. A rejection leaves world and pool as they were;
otherwise the gas used in the block grows. -/
def applySigned (venue : Venue) (header : Header) (tx : Transaction) (msg : Message) (s : Session) :
    Except Rejection Receipt × Session :=
  let context := Context.ofMessage msg header venue.history venue.author
  let (snapshot, w) := s.world.snapshot
  match applyMessage venue.env context msg { s with world := w } with
  | (.error e, t) => (.error e, { t with world := t.world.revert snapshot, pool := s.pool })
  | (.ok execution, t) =>
    let w := t.world.finalise
    let used := t.used + execution.usedGas
    (.ok (tx.receipt msg header execution used w), { t with world := w, used := used })

-- Sealed, so that opening a block does not evaluate signatures.
/-- Applies a transaction, if its signature verifies. -/
@[irreducible] def applyTransaction (venue : Venue) (header : Header) (tx : Transaction)
    (s : Session) : Except Rejection Receipt × Session :=
  match tx.toMessage venue.env.chain.chainId with
  | .error e => (.error e, s)
  | .ok msg => applySigned venue header tx msg s

end MeteredLedger
