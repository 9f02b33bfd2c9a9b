import MeteredLedger.Proofs.FrameAtomicity

/-!
# What every state keeps to

An account carries its code and the digest of its code, its storage holds no zeros, and a transaction
without logs has no place in the book of logs.  No single change breaks this, but taking back puts
earlier parts of accounts, or whole accounts, in the place of what is there.  So the entries that
wait in the journal have to keep to it as well: what they put back was part of an account that did.
-/

namespace MeteredLedger

open Std

structure Account.Intact (acct : Account) : Prop where
  codeHash : acct.codeHash = keccak256 acct.code
  storage : acct.storage.NoZero

structure Ledger.Intact (l : Ledger) : Prop where
  accounts : ∀ (a : Address) (acct : Account), l.accounts[a]? = some acct → acct.Intact
  logs : l.NoEmptyLogs

/-- What an entry puts back is intact.  Where it is put back is of no importance. -/
def Undo.Intact : Undo → Prop
  | .account _ (some previous) => previous.Intact
  | .code _ previous previousHash => previousHash = keccak256 previous
  | _ => True

/-- The ledger is intact and stays so whatever is taken back. -/
structure World.Consistent (w : World) : Prop where
  ledger : w.toLedger.Intact
  pending : ∀ undo ∈ w.journal.entries.toList, undo.Intact

/-- The world after actions, one after another. -/
def World.performAll (w : World) (actions : List Action) : World :=
  actions.foldl (fun w action ↦ (w.perform action).2) w

theorem Account.Intact.fresh (balance : Wei) : Account.Intact { balance } :=
  ⟨emptyCodeHash_eq, Storage.noZero_empty⟩

/-! ## Taking back -/

namespace Ledger.Intact

variable {l : Ledger}

theorem setAccount (h : l.Intact) (a : Address) {acct : Account} (hacct : acct.Intact) :
    (l.setAccount a acct).Intact := by
  refine ⟨?_, h.logs⟩
  intro b other hother
  rw [setAccount_accounts] at hother
  split at hother
  · cases hother
    exact hacct
  · exact h.accounts b other hother

theorem accountAt (h : l.Intact) (a : Address) : (l.accountAt a).Intact := by
  cases hget : l.accounts[a]? with
  | none =>
      rw [accountAt_of_missing hget]
      exact Account.Intact.fresh 0
  | some acct =>
      rw [accountAt_of_present hget]
      exact h.accounts a acct hget

theorem erase (h : l.Intact) (a : Address) :
    Ledger.Intact { l with accounts := l.accounts.erase a } := by
  refine ⟨?_, h.logs⟩
  intro b acct hacct
  rw [ExtTreeMap.getElem?_erase] at hacct
  split at hacct
  · cases hacct
  · exact h.accounts b acct hacct

theorem modifyAccount (h : l.Intact) (a : Address) {f : Account → Account}
    (hf : ∀ acct, acct.Intact → (f acct).Intact) : (l.modifyAccount a f).Intact := by
  unfold Ledger.modifyAccount
  split
  · rename_i acct hacct
    exact h.setAccount a (hf acct (h.accounts a acct hacct))
  · exact h

theorem apply (h : l.Intact) {undo : Undo} (hundo : undo.Intact) : (undo.apply l).Intact := by
  cases undo with
  | account a previous =>
      cases previous with
      | none => exact h.erase a
      | some previous => exact h.setAccount a hundo
  | balance a previous => exact h.modifyAccount a fun acct hacct ↦ ⟨hacct.codeHash, hacct.storage⟩
  | nonce a previous => exact h.modifyAccount a fun acct hacct ↦ ⟨hacct.codeHash, hacct.storage⟩
  | code a previous previousHash => exact h.modifyAccount a fun acct hacct ↦ ⟨hundo, hacct.storage⟩
  | storage a key previous =>
      exact h.modifyAccount a fun acct hacct ↦ ⟨hacct.codeHash, hacct.storage.write key previous⟩
  | refund previous => exact ⟨h.accounts, h.logs⟩
  | log txHash => exact ⟨h.accounts, h.logs.dropLog txHash⟩

theorem rewind (h : l.Intact) {entries : List Undo} (hentries : ∀ undo ∈ entries, undo.Intact) :
    (l.rewind entries).Intact := by
  induction entries with
  | nil => exact h
  | cons undo entries ih =>
      rw [List.forall_mem_cons] at hentries
      exact (ih hentries.2).apply hentries.1

end Ledger.Intact

/-! ## Actions -/

namespace World.Consistent

variable {w : World}

theorem record (h : w.Consistent) {undo : Undo} (hundo : undo.Intact) :
    (w.record undo).Consistent := by
  refine ⟨h.ledger, ?_⟩
  intro other hother
  rw [World.record, Journal.record_entries, List.mem_append, List.mem_singleton] at hother
  rcases hother with hold | rfl
  · exact h.pending other hold
  · exact hundo

theorem placeAccount (h : w.Consistent) (a : Address) {acct : Account} (hacct : acct.Intact) :
    (w.placeAccount a acct).Consistent :=
  ⟨h.ledger.setAccount a hacct, h.pending⟩

theorem touch (h : w.Consistent) (a : Address) : (w.touch a).Consistent := by
  unfold World.touch
  split
  · exact h
  · have hundo : (Undo.account a none).Intact := trivial
    exact (h.record hundo).placeAccount a (Account.Intact.fresh 0)

/-- A change is harmless if it leaves an intact account intact and its entry puts back part of one. -/
theorem change (h : w.Consistent) (a : Address) {f : Account → Account} {undo : Account → Undo}
    (hf : ∀ acct, acct.Intact → (f acct).Intact)
    (hundo : ∀ acct, acct.Intact → (undo acct).Intact) : (w.change a f undo).Consistent := by
  have htouched := h.touch a
  have hacct : ((w.touch a).accountAt a).Intact := htouched.ledger.accountAt a
  exact (htouched.record (hundo _ hacct)).placeAccount a (hf _ hacct)

theorem createAccount (h : w.Consistent) (a : Address) : (w.createAccount a).Consistent := by
  have hprevious : (Undo.account a (w.account? a)).Intact := by
    cases hget : w.account? a with
    | none => trivial
    | some acct => exact h.ledger.accounts a acct hget
  exact (h.record hprevious).placeAccount a (Account.Intact.fresh _)

theorem setBalance (h : w.Consistent) (a : Address) (balance : Wei) :
    (w.setBalance a balance).Consistent :=
  h.change a (fun _ hacct ↦ ⟨hacct.codeHash, hacct.storage⟩) fun _ _ ↦ trivial

theorem setNonce (h : w.Consistent) (a : Address) (nonce : Nonce) :
    (w.setNonce a nonce).Consistent :=
  h.change a (fun _ hacct ↦ ⟨hacct.codeHash, hacct.storage⟩) fun _ _ ↦ trivial

theorem setCode (h : w.Consistent) (a : Address) (code : Bytes) : (w.setCode a code).Consistent :=
  h.change a (fun _ hacct ↦ ⟨rfl, hacct.storage⟩) fun _ hacct ↦ hacct.codeHash

theorem setStorage (h : w.Consistent) (a : Address) (key value : Word) :
    (w.setStorage a key value).Consistent :=
  h.change a (fun _ hacct ↦ ⟨hacct.codeHash, hacct.storage.write key value⟩) fun _ _ ↦ trivial

theorem setRefund (h : w.Consistent) (gas : Gas) : (w.setRefund gas).Consistent := by
  have hundo : (Undo.refund w.refund).Intact := trivial
  exact ⟨⟨h.ledger.accounts, h.ledger.logs⟩, (h.record hundo).pending⟩

theorem addLog (h : w.Consistent) (log : Log) : (w.addLog log).Consistent := by
  have hundo : (Undo.log w.txHash).Intact := trivial
  exact ⟨⟨h.ledger.accounts, h.ledger.logs.addLog w.txHash w.txIndex log⟩, (h.record hundo).pending⟩

theorem edit (h : w.Consistent) (e : Edit) : (w.edit e).Consistent := by
  cases e with
  | createAccount a => exact h.createAccount a
  | setBalance a balance => exact h.setBalance a balance
  | addBalance a amount => exact h.setBalance a _
  | subBalance a amount => exact h.setBalance a _
  | setNonce a nonce => exact h.setNonce a nonce
  | setCode a code => exact h.setCode a code
  | setStorage a key value => exact h.setStorage a key value
  | addRefund gas => exact h.setRefund _
  | subRefund gas => exact h.setRefund _
  | addLog log => exact h.addLog log

theorem revert (h : w.Consistent) (name : Nat) : (w.revert name).Consistent := by
  cases hmark : w.journal.marks[name]? with
  | none =>
      rw [World.revert_of_dead (by simpa using hmark)]
      exact h
  | some mark =>
      rw [World.revert_of_mark hmark]
      refine ⟨h.ledger.rewind fun undo hundo ↦ h.pending undo (List.mem_of_mem_drop hundo), ?_⟩
      intro undo hundo
      rw [Journal.toList_take] at hundo
      exact h.pending undo (List.mem_of_mem_take hundo)

theorem prepare (h : w.Consistent) (txHash : Hash) (txIndex : Nat) :
    (w.prepare txHash txIndex).Consistent := by
  unfold World.prepare
  split
  · -- The logs are gone while entries that would take them back may still wait.
    exact ⟨⟨h.ledger.accounts, fun other ↦ by simp⟩, h.pending⟩
  · exact ⟨h.ledger, h.pending⟩

theorem finalise (h : w.Consistent) : w.finalise.Consistent :=
  ⟨⟨h.ledger.accounts, h.ledger.logs⟩, fun _ hundo ↦ absurd hundo List.not_mem_nil⟩

theorem perform (h : w.Consistent) (action : Action) : (w.perform action).2.Consistent := by
  cases action with
  | edit e => exact h.edit e
  | snapshot => exact ⟨h.ledger, h.pending⟩
  | revert name => exact h.revert name
  | finalise => exact h.finalise
  | prepare txHash txIndex => exact h.prepare txHash txIndex

theorem performAll (h : w.Consistent) (actions : List Action) :
    (w.performAll actions).Consistent := by
  induction actions generalizing w with
  | nil => exact h
  | cons action actions ih => exact ih (h.perform action)

end World.Consistent

/-- From an intact ledger with nothing to take back, every sequence of actions leads to an intact
ledger: the digest of every account is that of its code, no storage holds a zero and no transaction
has an empty list of logs.  Names gone back to may be stale, and a block may start at any time. -/
theorem representation_is_kept (w : World) (hledger : w.toLedger.Intact)
    (hjournal : w.journal = {}) (actions : List Action) :
    (w.performAll actions).toLedger.Intact := by
  have hstart : w.Consistent := by
    refine ⟨hledger, ?_⟩
    rw [hjournal]
    exact fun _ hundo ↦ absurd hundo List.not_mem_nil
  exact (hstart.performAll actions).ledger

/-- Code is replaced and an account started afresh under snapshots, a block starts before the log of
the last one is taken back, and a stale name hits a newer snapshot. -/
def restlessActions : List Action :=
  [.prepare 3 1, .snapshot, .edit (.setCode 1 [7, 8]), .edit (.addLog ⟨1, [], [], 0, 0, 0, 0⟩),
    .snapshot, .edit (.createAccount 1), .edit (.setStorage 1 1 0), .edit (.setStorage 2 5 6),
    .prepare 4 0, .revert 1, .edit (.setStorage 1 1 0), .revert 0, .edit (.setCode 1 []), .snapshot,
    .edit (.createAccount 1), .edit (.subBalance 9 3), .revert 0, .finalise]

def restlessAccount : Account where
  balance := 5
  code := [1]
  codeHash := keccak256 [1]
  storage := Storage.write ∅ 1 7

def restlessWorld : World := ({} : World).placeAccount 1 restlessAccount

theorem restless_world_stays_intact :
    restlessWorld.toLedger.Intact ∧ restlessWorld.journal = {} ∧
      (restlessWorld.performAll restlessActions).toLedger.Intact := by
  have hledger : restlessWorld.toLedger.Intact := by
    have hempty : Ledger.Intact {} := ⟨by simp, fun _ ↦ by simp⟩
    have hacct : restlessAccount.Intact := ⟨by simp only [restlessAccount], Storage.noZero_empty.write 1 7⟩
    exact hempty.setAccount 1 hacct
  exact ⟨hledger, rfl, representation_is_kept restlessWorld hledger rfl restlessActions⟩

end MeteredLedger
