import MeteredLedger.Transaction.Apply

/-!
# Signed transactions

A transaction speaks for the address of the key that it names, once the signature verifies under that
key.  What is applied is then the message of that sender, and no further look is taken at key and
signature.  At the end stand two transactions signed with one key, for the runs of later modules.
-/

namespace MeteredLedger

namespace Transaction

variable {tx : Transaction} {chainId : UInt64} {msg : Message}

/-- The address of the key that a transaction names. -/
def sender (tx : Transaction) : Address := Address.ofPublicKey tx.publicKey

theorem toMessage_eq_ok_iff :
    tx.toMessage chainId = .ok msg ↔
      Ed25519.verify tx.publicKey (tx.signingPayload chainId) tx.signature = true ∧
        msg = tx.messageFrom tx.sender := by
  unfold toMessage
  split
  · rename_i hverify
    rw [Except.ok.injEq, eq_comm]
    exact (and_iff_right hverify).symm
  · rename_i hverify
    simp [hverify]

theorem toMessage_eq_ok (h : tx.toMessage chainId = .ok msg) : msg = tx.messageFrom tx.sender :=
  (toMessage_eq_ok_iff.mp h).2

theorem gasLimit_of_toMessage (h : tx.toMessage chainId = .ok msg) :
    msg.gasLimit = tx.gasLimit := by
  rw [toMessage_eq_ok h]
  rfl

end Transaction

theorem applyTransaction_of_message {venue : Venue} {tx : Transaction} {msg : Message}
    (h : tx.toMessage venue.env.chain.chainId = .ok msg) (header : Header) (s : Session) :
    applyTransaction venue header tx s = applySigned venue header tx msg s := by
  unfold applyTransaction
  rw [h]

/-- What the receipt of a transaction says of gas, if it was applied. -/
def gasReport : Except Rejection Receipt → Option (Gas × Gas)
  | .ok receipt => some (receipt.gasUsed, receipt.cumulativeGasUsed)
  | .error _ => none

theorem exists_receipt_of_gasReport {r : Except Rejection Receipt × Session} {used total : Gas}
    (h : gasReport r.1 = some (used, total)) :
    ∃ receipt, r = (.ok receipt, r.2) ∧ receipt.gasUsed = used ∧
      receipt.cumulativeGasUsed = total := by
  obtain ⟨result, t⟩ := r
  cases result with
  | error e => cases h
  | ok receipt =>
      cases h
      exact ⟨receipt, rfl, rfl, rfl⟩

/-! ## Samples -/

/-- The public key of the seed that repeats the byte seven. -/
def sampleKey : PublicKey :=
  Ed25519.bytes32 0x2cd2461469ea1e42927bbebeae764795f9c52e137b50f5be0a529ce2636c4aea

def sampleSender : Address := 0x9aea038cd4255baac26eac5a74e58a07ed2f1975

theorem ofPublicKey_sampleKey : Address.ofPublicKey sampleKey = sampleSender := by decide +kernel

theorem toMessage_sampleKey {tx : Transaction} {chainId : UInt64} (hkey : tx.publicKey = sampleKey)
    (hverify : Ed25519.verify tx.publicKey (tx.signingPayload chainId) tx.signature = true) :
    tx.toMessage chainId = .ok (tx.messageFrom sampleSender) := by
  rw [Transaction.toMessage, if_pos hverify, hkey, ofPublicKey_sampleKey]

/-- A payment to account 17 that offers a price for its gas. -/
def sampleTransaction : Transaction where
  nonce := 0
  gasPrice := 2
  gasLimit := 60000
  target := some 17
  value := 3
  data := []
  publicKey := sampleKey
  signature :=
    Ed25519.bytes32 0x6f7bc9d074fd138e7e050570c5b38806b37af33bb3ac7b1e666b243cc97f8b2a ++
      Ed25519.bytes32 0x6b393477afb1572f52b910d79a276cc071500f8d024f28f652823c7cc002975

theorem sampleTransaction_toMessage :
    sampleTransaction.toMessage 1 = .ok (sampleTransaction.messageFrom sampleSender) :=
  toMessage_sampleKey rfl (by decide +kernel)

theorem applyTransaction_sample {venue : Venue} (h : venue.env.chain.chainId = 1) (header : Header)
    (s : Session) :
    applyTransaction venue header sampleTransaction s = applySigned venue header sampleTransaction
      (sampleTransaction.messageFrom sampleSender) s :=
  applyTransaction_of_message (h ▸ sampleTransaction_toMessage) header s

/-- A call of account 18 that comes second and pays nothing. -/
def idleTransaction : Transaction where
  nonce := 1
  gasPrice := 0
  gasLimit := 30000
  target := some 18
  value := 0
  data := []
  publicKey := sampleKey
  signature :=
    Ed25519.bytes32 0xb5be9c828840dcce6f3077f801b536a419f27db5d1512b9fdc181f8f700659bc ++
      Ed25519.bytes32 0xced1fefa3ccc9c31c761cd786e16732df8a8be8c29e0c64a826fdfdf6b86bac

theorem idleTransaction_toMessage :
    idleTransaction.toMessage 1 = .ok (idleTransaction.messageFrom sampleSender) :=
  toMessage_sampleKey rfl (by decide +kernel)

theorem applyTransaction_idle {venue : Venue} (h : venue.env.chain.chainId = 1) (header : Header)
    (s : Session) :
    applyTransaction venue header idleTransaction s = applySigned venue header idleTransaction
      (idleTransaction.messageFrom sampleSender) s :=
  applyTransaction_of_message (h ▸ idleTransaction_toMessage) header s

def sampleHeader : Header where
  parentHash := 0
  number := 1
  coinbase := 8
  gasLimit := 100000
  gasUsed := 0
  timestamp := 1
  difficulty := 1
  stateRoot := 0
  bloom := .empty

end MeteredLedger
