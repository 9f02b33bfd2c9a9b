import Mathlib.Data.Option.Basic
import MeteredLedger.World.Basic

/-!
# Changes of the ledger

Every change of the world does two things: it changes the observable ledger and it adds entries to
the journal.  This module gives the first half on its own, as functions of the ledger that know
nothing of journals, and shows that the changes of the world act on the ledger exactly so.
-/

namespace MeteredLedger

open Std

/-- An account without code has the digest of no code. -/
theorem emptyCodeHash_eq : emptyCodeHash = keccak256 [] := by
  decide +kernel

namespace Storage

theorem read_write (s : Storage) (key value k : Word) :
    (s.write key value).read k = if k = key then value else s.read k := by
  unfold write read
  split <;> grind

/-- No key holds a stored zero. -/
def NoZero (s : Storage) : Prop := ∀ key : Word, s[key]? ≠ some 0

theorem noZero_empty : NoZero ∅ := by
  intro key
  simp

theorem NoZero.write {s : Storage} (hs : s.NoZero) (key value : Word) :
    (s.write key value).NoZero := by
  intro k
  have hk := hs k
  unfold Storage.write
  split <;> grind

/-- Writing back what was read restores a storage that holds no zero. -/
theorem NoZero.write_read {s : Storage} (hs : s.NoZero) (key value : Word) :
    (s.write key value).write key (s.read key) = s := by
  have hkey := hs key
  ext k v
  cases hread : s[key]? with
  | none => by_cases hv : value = 0 <;> simp [Storage.write, read, hread, hv] <;> grind
  | some old =>
      have hold : old ≠ 0 := by rintro rfl; exact hkey hread
      by_cases hv : value = 0 <;> simp [Storage.write, read, hread, hv] <;> grind

end Storage

namespace Ledger

/-- The account at an address, or a fresh one. -/
def accountAt (l : Ledger) (a : Address) : Account := l.accounts[a]?.getD {}

def logsOf (l : Ledger) (txHash : Hash) : List Log := l.logs[txHash]?.getD []

def setAccount (l : Ledger) (a : Address) (acct : Account) : Ledger :=
  { l with accounts := l.accounts.insert a acct }

/-- Changes an account, which is there afterwards. -/
def update (l : Ledger) (a : Address) (f : Account → Account) : Ledger :=
  l.setAccount a (f (l.accountAt a))

def createAccount (l : Ledger) (a : Address) : Ledger :=
  l.setAccount a { balance := (l.accountAt a).balance }

def setBalance (l : Ledger) (a : Address) (balance : Wei) : Ledger :=
  l.update a fun acct ↦ { acct with balance := balance }

def setNonce (l : Ledger) (a : Address) (nonce : Nonce) : Ledger :=
  l.update a fun acct ↦ { acct with nonce := nonce }

def setCode (l : Ledger) (a : Address) (code : Bytes) : Ledger :=
  l.update a fun acct ↦ { acct with code := code, codeHash := keccak256 code }

def setStorage (l : Ledger) (a : Address) (key value : Word) : Ledger :=
  l.update a fun acct ↦ { acct with storage := acct.storage.write key value }

/-- Adds a log of a transaction, numbered by the logs before it. -/
def addLog (l : Ledger) (txHash : Hash) (txIndex : UInt32) (log : Log) : Ledger :=
  let numbered := { log with txHash := txHash, txIndex := txIndex, logIndex := l.logCount }
  { l with
    logs := l.logs.insert txHash (l.logsOf txHash ++ [numbered])
    logCount := l.logCount + 1 }

theorem setAccount_accounts (l : Ledger) (a b : Address) (acct : Account) :
    (l.setAccount a acct).accounts[b]? = if a = b then some acct else l.accounts[b]? := by
  simp [setAccount, ExtTreeMap.getElem?_insert]

@[simp] theorem setAccount_setAccount (l : Ledger) (a : Address) (x y : Account) :
    (l.setAccount a x).setAccount a y = l.setAccount a y := by
  have h : (l.accounts.insert a x).insert a y = l.accounts.insert a y := by
    ext
    grind
  simp [setAccount, h]

theorem setAccount_of_present {l : Ledger} {a : Address} {acct : Account}
    (h : l.accounts[a]? = some acct) : l.setAccount a acct = l := by
  have hmap : l.accounts.insert a acct = l.accounts := by
    ext
    grind
  simp [setAccount, hmap]

theorem accountAt_of_present {l : Ledger} {a : Address} {acct : Account}
    (h : l.accounts[a]? = some acct) : l.accountAt a = acct := by
  simp [accountAt, h]

theorem accountAt_of_missing {l : Ledger} {a : Address} (h : l.accounts[a]? = none) :
    l.accountAt a = {} := by
  simp [accountAt, h]

theorem accountAt_setAccount (l : Ledger) (a b : Address) (acct : Account) :
    (l.setAccount a acct).accountAt b = if a = b then acct else l.accountAt b := by
  simp only [accountAt, setAccount_accounts]
  split <;> rfl

/-- An account that was placed where there was none is away once it is erased. -/
theorem erase_setAccount {l : Ledger} {a : Address} (h : l.accounts[a]? = none)
    (acct : Account) :
    { l.setAccount a acct with accounts := (l.setAccount a acct).accounts.erase a } = l := by
  have hmap : (l.accounts.insert a acct).erase a = l.accounts := by
    ext
    grind
  simp [setAccount, hmap]

theorem modifyAccount_setAccount (l : Ledger) (a : Address) (acct : Account)
    (f : Account → Account) :
    (l.setAccount a acct).modifyAccount a f = l.setAccount a (f acct) := by
  have hget : (l.setAccount a acct).accounts[a]? = some acct := by simp [setAccount_accounts]
  rw [modifyAccount, hget]
  exact setAccount_setAccount l a acct (f acct)

theorem modifyAccount_accounts (l : Ledger) (a b : Address) (f : Account → Account) :
    (l.modifyAccount a f).accounts[b]? =
      if a = b then l.accounts[b]?.map f else l.accounts[b]? := by
  unfold modifyAccount
  cases h : l.accounts[a]? with
  | none => by_cases hab : a = b <;> simp_all
  | some acct => by_cases hab : a = b <;> simp_all [ExtTreeMap.getElem?_insert]

theorem modifyAccount_logs (l : Ledger) (a : Address) (f : Account → Account) :
    (l.modifyAccount a f).logs = l.logs := by
  unfold modifyAccount
  split <;> rfl

end Ledger

namespace World

variable (w : World) (a : Address)

theorem balance_eq : w.balance a = (w.toLedger.accountAt a).balance := by
  unfold balance account? Ledger.accountAt
  cases w.accounts[a]? <;> rfl

theorem nonce_eq : w.nonce a = (w.toLedger.accountAt a).nonce := by
  unfold nonce account? Ledger.accountAt
  cases w.accounts[a]? <;> rfl

theorem code_eq : w.code a = (w.toLedger.accountAt a).code := by
  unfold code account? Ledger.accountAt
  cases w.accounts[a]? <;> rfl

theorem storageAt_eq (key : Word) :
    w.storageAt a key = (w.toLedger.accountAt a).storage.read key := by
  unfold storageAt account? Ledger.accountAt
  cases w.accounts[a]? with
  | none => simp [Storage.read]
  | some acct => rfl

theorem hasAccount_eq : w.hasAccount a = w.accounts[a]?.isSome := rfl

theorem hasAccount_iff {w : World} {a : Address} :
    w.hasAccount a = true ↔ ∃ acct, w.accounts[a]? = some acct := by
  rw [hasAccount_eq, Option.isSome_iff_exists]

theorem accounts_of_missing {w : World} {a : Address} (h : w.hasAccount a = false) :
    w.accounts[a]? = none := by
  rwa [hasAccount_eq, Option.isSome_eq_false_iff, Option.isNone_iff_eq_none] at h

theorem change_toLedger (f : Account → Account) (undo : Account → Undo) :
    (w.change a f undo).toLedger = w.toLedger.update a f := by
  unfold change touch account? Ledger.update
  cases h : w.accounts[a]? with
  | some acct =>
      rw [Ledger.accountAt_of_present h]
      simp [h, placeAccount, record, Ledger.setAccount]
  | none =>
      rw [Ledger.accountAt_of_missing h]
      -- The account is placed twice here: once fresh, once changed.
      have htwice := Ledger.setAccount_setAccount w.toLedger a {} (f {})
      simpa [placeAccount, record, Ledger.setAccount] using htwice

theorem createAccount_toLedger :
    (w.createAccount a).toLedger = w.toLedger.createAccount a := by
  rw [createAccount, balance_eq]
  rfl

theorem setBalance_toLedger (balance : Wei) :
    (w.setBalance a balance).toLedger = w.toLedger.setBalance a balance :=
  change_toLedger w a _ _

theorem setNonce_toLedger (nonce : Nonce) :
    (w.setNonce a nonce).toLedger = w.toLedger.setNonce a nonce :=
  change_toLedger w a _ _

theorem setCode_toLedger (code : Bytes) :
    (w.setCode a code).toLedger = w.toLedger.setCode a code :=
  change_toLedger w a _ _

theorem setStorage_toLedger (key value : Word) :
    (w.setStorage a key value).toLedger = w.toLedger.setStorage a key value :=
  change_toLedger w a _ _

theorem addBalance_toLedger (amount : Wei) :
    (w.addBalance a amount).toLedger =
      w.toLedger.setBalance a (Wei.addClamped (w.toLedger.accountAt a).balance amount) := by
  rw [addBalance, setBalance_toLedger, balance_eq]

theorem subBalance_toLedger (amount : Wei) :
    (w.subBalance a amount).toLedger =
      w.toLedger.setBalance a (Wei.subClamped (w.toLedger.accountAt a).balance amount) := by
  rw [subBalance, setBalance_toLedger, balance_eq]

theorem addLog_toLedger (log : Log) :
    (w.addLog log).toLedger = w.toLedger.addLog w.txHash w.txIndex log := rfl

theorem prepare_accounts (txHash : Hash) (txIndex : Nat) :
    (w.prepare txHash txIndex).accounts = w.accounts := by
  unfold prepare
  split <;> rfl

theorem prepare_txHash (txHash : Hash) (txIndex : Nat) :
    (w.prepare txHash txIndex).txHash = txHash := by
  unfold prepare
  split <;> rfl

theorem prepare_txIndex (txHash : Hash) (txIndex : Nat) :
    (w.prepare txHash txIndex).txIndex = UInt32.ofNat txIndex := by
  unfold prepare
  split <;> rfl

/-! ## Readings after a change -/

section Readings

variable (b : Address)

/-- A field that the account placed has in common with the one before reads as before everywhere. -/
theorem field_of_setAccount {α : Type} (field : Account → α) {w w' : World} {a : Address}
    {acct : Account} (h : w'.toLedger = w.toLedger.setAccount a acct)
    (hacct : field acct = field (w.accountAt a)) (b : Address) :
    field (w'.accountAt b) = field (w.accountAt b) := by
  rw [h, Ledger.accountAt_setAccount]
  split
  · rename_i hab
    rw [hacct, hab]
  · rfl

theorem hasAccount_createAccount : (w.createAccount a).hasAccount a = true := by
  simp [hasAccount, account?, createAccount, placeAccount]

theorem balance_createAccount : (w.createAccount a).balance b = w.balance b := by
  rw [balance_eq, balance_eq]
  exact field_of_setAccount Account.balance (createAccount_toLedger w a) rfl b

theorem balance_setNonce (nonce : Nonce) : (w.setNonce a nonce).balance b = w.balance b := by
  rw [balance_eq, balance_eq]
  exact field_of_setAccount Account.balance (setNonce_toLedger w a nonce) rfl b

theorem balance_subBalance (amount : Wei) :
    (w.subBalance a amount).balance a = Wei.subClamped (w.balance a) amount := by
  rw [balance_eq, subBalance_toLedger, Ledger.setBalance, Ledger.update, Ledger.accountAt_setAccount,
    if_pos rfl, balance_eq]

theorem nonce_subBalance (amount : Wei) : (w.subBalance a amount).nonce b = w.nonce b := by
  rw [nonce_eq, nonce_eq]
  exact field_of_setAccount Account.nonce (subBalance_toLedger w a amount) rfl b

theorem nonce_setNonce (nonce : Nonce) : (w.setNonce a nonce).nonce a = nonce := by
  rw [nonce_eq, setNonce_toLedger, Ledger.setNonce, Ledger.update, Ledger.accountAt_setAccount,
    if_pos rfl]

theorem nonce_setCode (code : Bytes) : (w.setCode a code).nonce b = w.nonce b := by
  rw [nonce_eq, nonce_eq]
  exact field_of_setAccount Account.nonce (setCode_toLedger w a code) rfl b

theorem code_setCode (code : Bytes) : (w.setCode a code).code a = code := by
  rw [code_eq, setCode_toLedger, Ledger.setCode, Ledger.update, Ledger.accountAt_setAccount,
    if_pos rfl]

theorem codeHash_setCode (code : Bytes) : (w.setCode a code).codeHash a = keccak256 code := by
  simp [codeHash, account?, setCode_toLedger, Ledger.setCode, Ledger.update,
    Ledger.setAccount_accounts]

/-- Writing the balance that is there changes nothing. -/
theorem setBalance_balance {w : World} {a : Address} (h : w.hasAccount a = true) :
    (w.setBalance a (w.balance a)).toLedger = w.toLedger := by
  obtain ⟨acct, hacct⟩ := hasAccount_iff.mp h
  rw [setBalance_toLedger, balance_eq, Ledger.setBalance, Ledger.update,
    Ledger.accountAt_of_present hacct]
  exact Ledger.setAccount_of_present hacct

end Readings

end World

end MeteredLedger
