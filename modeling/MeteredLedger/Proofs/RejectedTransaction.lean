import MeteredLedger.Proofs.SignedTransaction
import MeteredLedger.Proofs.TransactionConduct

/-!
# A rejected transaction leaves no trace

A transaction takes a snapshot before its message is looked at.  The message may have been charged
for its gas by the time it is rejected, and its sender may have been placed for that; both are
recorded, so that going back restores world and journal to the letter, with all older snapshots still
live.
-/

namespace MeteredLedger

open Std

/-- A transaction that is rejected, at whatever stage and for whatever reason, leaves everything as
it was: accounts, refund counter and logs, the journal with its entries and live snapshots, the gas
pool, and the gas counted so far. -/
theorem rejected_transaction_leaves_no_trace {venue : Venue} {table : ExtTreeMap Bytes (List Op)}
    (hs : venue.env.interpreter = .script table) (header : Header) (tx : Transaction)
    (s : Session) {e : Rejection}
    (hrejected : (applyTransaction venue header tx s).1 = .error e) :
    (applyTransaction venue header tx s).2 = s ∧
      (applyTransaction venue header tx s).2.used = s.used := by
  have hsame := applyTransaction_of_error hs hrejected
  exact ⟨hsame, congrArg Session.used hsame⟩

/-- A transfer whose gas limit does not cover the cost before execution, at no price. -/
def hastyTransaction : Transaction where
  nonce := 0
  gasPrice := 0
  gasLimit := 20000
  target := some 5
  value := 0
  data := []
  publicKey := sampleKey
  signature :=
    Ed25519.bytes32 0xfbdca0abfb96afa19fdc88a69e59927e4e9f9558316b08d07183e2a30825ecb6 ++
      Ed25519.bytes32 0x364333a4676589b398bb2b1d63d54479dd22e404202df043c38c437bf15cd9a

def hastyVenue : Venue where
  env := { interpreter := .script ∅ }

/-- A session with a recorded change under a live snapshot, in which the sender has no account and
gas was used before. -/
def hastySession : Session where
  world := (({} : World).setStorage 3 1 1).snapshot.2
  pool := ⟨90000⟩
  used := 7

theorem hasty_transaction_leaves_no_trace :
    (applyTransaction hastyVenue sampleHeader hastyTransaction hastySession).1 =
        .error (.intrinsicGas 20000 21000) ∧
      (applyTransaction hastyVenue sampleHeader hastyTransaction hastySession).2 =
        hastySession := by
  have hverify : Ed25519.verify hastyTransaction.publicKey
      (hastyTransaction.signingPayload hastyVenue.env.chain.chainId)
      hastyTransaction.signature = true := by
    decide +kernel
  have hrejected : (applyTransaction hastyVenue sampleHeader hastyTransaction hastySession).1 =
      .error (.intrinsicGas 20000 21000) := by
    rw [applyTransaction_of_message (toMessage_sampleKey rfl hverify)]
    rfl
  exact ⟨hrejected, (rejected_transaction_leaves_no_trace rfl sampleHeader hastyTransaction
    hastySession hrejected).1⟩

end MeteredLedger
