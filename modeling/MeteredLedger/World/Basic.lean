import MeteredLedger.Journal
import MeteredLedger.MerkleTree
import MeteredLedger.Receipt

/-!
# The world state

The observable part of the state is a `Ledger`: accounts, the refund counter and the logs. A `World`
adds the journal and the transaction at hand. Every change records how to take it back, and going
back to a snapshot applies those entries newest first.
-/

namespace MeteredLedger

open Std

/-- The digest of no code. -/
def emptyCodeHash : Hash := 0xc5d2460186f7233c927e7db2dcc703c0e500b653ca82273b7bfad8045d85a470

/-- The storage of an account. A key that is not there holds zero. -/
abbrev Storage := ExtTreeMap Word Word

namespace Storage

def read (s : Storage) (key : Word) : Word := s[key]?.getD 0

/-- Sets the word under a key; a zero is not kept. -/
def write (s : Storage) (key value : Word) : Storage :=
  if value = 0 then s.erase key else s.insert key value

def root (s : Storage) : Hash :=
  (MerkleTree.ofList (s.toList.map fun e => (e.1.toBytes, e.2.toBytes))).root

end Storage

/-- An account. -/
structure Account where
  balance : Wei := 0
  nonce : Nonce := 0
  code : Bytes := []
  codeHash : Hash := emptyCodeHash
  storage : Storage := ∅

namespace Account

/-- Whether an account is as good as missing: no transactions, no funds, no code. -/
def isEmpty (a : Account) : Bool :=
  decide (a.nonce = 0) && decide (a.balance = 0) && decide (a.codeHash = emptyCodeHash)

/-- The bytes that commit to an account with the given commitment to its storage. -/
def leafBytes (nonce : Nonce) (balance : Wei) (codeHash storageRoot : Hash) : Bytes :=
  Bytes.leBytes 8 nonce.toNat ++ (Bytes.leBytes 16 balance.toNat ++
    (codeHash.toBytes ++ storageRoot.toBytes))

def toLeaf (a : Account) : Bytes := leafBytes a.nonce a.balance a.codeHash a.storage.root

end Account

/-- The observable content of the state. -/
structure Ledger where
  accounts : ExtTreeMap Address Account := ∅
  refund : Gas := 0
  /-- The logs of each transaction of the current block. -/
  logs : ExtTreeMap Hash (List Log) := ∅
  /-- The number of logs in the current block. -/
  logCount : UInt32 := 0

/-- How to take one change back. -/
inductive Undo where
  | account (address : Address) (previous : Option Account)
  | balance (address : Address) (previous : Wei)
  | nonce (address : Address) (previous : Nonce)
  | code (address : Address) (previous : Bytes) (previousHash : Hash)
  | storage (address : Address) (key previous : Word)
  | refund (previous : Gas)
  | log (txHash : Hash)

namespace Ledger

/-- Changes an account, if it is there. -/
def modifyAccount (l : Ledger) (a : Address) (f : Account → Account) : Ledger :=
  match l.accounts[a]? with
  | some acct => { l with accounts := l.accounts.insert a (f acct) }
  | none => l

/-- Drops the last log of a transaction, if there is one, and counts it off. -/
def dropLog (l : Ledger) (txHash : Hash) : Ledger :=
  let logs := match l.logs[txHash]? with
    | some logs =>
      if logs.dropLast.isEmpty then l.logs.erase txHash else l.logs.insert txHash logs.dropLast
    | none => l.logs
  { l with logs := logs, logCount := if l.logCount = 0 then 0 else l.logCount - 1 }

def stateRoot (l : Ledger) : Hash :=
  (MerkleTree.ofList (l.accounts.toList.map fun e => (e.1.toBytes, e.2.toLeaf))).root

end Ledger

def Undo.apply (l : Ledger) : Undo → Ledger
  | .account a none => { l with accounts := l.accounts.erase a }
  | .account a (some previous) => { l with accounts := l.accounts.insert a previous }
  | .balance a previous => l.modifyAccount a fun acct => { acct with balance := previous }
  | .nonce a previous => l.modifyAccount a fun acct => { acct with nonce := previous }
  | .code a previous previousHash =>
    l.modifyAccount a fun acct => { acct with code := previous, codeHash := previousHash }
  | .storage a key previous =>
    l.modifyAccount a fun acct => { acct with storage := acct.storage.write key previous }
  | .refund previous => { l with refund := previous }
  | .log txHash => l.dropLog txHash

/-- The state with its journal and the transaction at hand. -/
structure World extends Ledger where
  journal : Journal Undo := {}
  txHash : Hash := 0
  txIndex : UInt32 := 0

namespace World

def account? (w : World) (a : Address) : Option Account := w.accounts[a]?

def hasAccount (w : World) (a : Address) : Bool := (w.account? a).isSome

/-- Whether the account at an address is empty or missing. -/
def isEmptyAt (w : World) (a : Address) : Bool :=
  match w.account? a with
  | some acct => acct.isEmpty
  | none => true

def balance (w : World) (a : Address) : Wei :=
  match w.account? a with
  | some acct => acct.balance
  | none => 0

def nonce (w : World) (a : Address) : Nonce :=
  match w.account? a with
  | some acct => acct.nonce
  | none => 0

def code (w : World) (a : Address) : Bytes :=
  match w.account? a with
  | some acct => acct.code
  | none => []

/-- The digest of the code at an address; zero when there is no account. -/
def codeHash (w : World) (a : Address) : Hash :=
  match w.account? a with
  | some acct => acct.codeHash
  | none => 0

def storageAt (w : World) (a : Address) (key : Word) : Word :=
  match w.account? a with
  | some acct => acct.storage.read key
  | none => 0

def logsOf (w : World) (txHash : Hash) : List Log := w.logs[txHash]?.getD []

def record (w : World) (undo : Undo) : World := { w with journal := w.journal.record undo }

/-- Places an account without a record of it. -/
def placeAccount (w : World) (a : Address) (acct : Account) : World :=
  { w with accounts := w.accounts.insert a acct }

/-- Makes sure that there is an account at an address. -/
def touch (w : World) (a : Address) : World :=
  match w.account? a with
  | some _ => w
  | none => (w.record (.account a none)).placeAccount a {}

/-- Changes an account after making sure that it is there, and records how to take that back. -/
def change (w : World) (a : Address) (f : Account → Account) (undo : Account → Undo) : World :=
  let w := w.touch a
  let acct := (w.account? a).getD {}
  (w.record (undo acct)).placeAccount a (f acct)

/-- Starts an account afresh; only its funds stay. -/
def createAccount (w : World) (a : Address) : World :=
  (w.record (.account a (w.account? a))).placeAccount a { balance := w.balance a }

def setBalance (w : World) (a : Address) (balance : Wei) : World :=
  w.change a (fun acct => { acct with balance := balance }) fun acct => .balance a acct.balance

def addBalance (w : World) (a : Address) (amount : Wei) : World :=
  w.setBalance a (Wei.addClamped (w.balance a) amount)

def subBalance (w : World) (a : Address) (amount : Wei) : World :=
  w.setBalance a (Wei.subClamped (w.balance a) amount)

def setNonce (w : World) (a : Address) (nonce : Nonce) : World :=
  w.change a (fun acct => { acct with nonce := nonce }) fun acct => .nonce a acct.nonce

def setCode (w : World) (a : Address) (code : Bytes) : World :=
  w.change a (fun acct => { acct with code := code, codeHash := keccak256 code })
    fun acct => .code a acct.code acct.codeHash

def setStorage (w : World) (a : Address) (key value : Word) : World :=
  w.change a (fun acct => { acct with storage := acct.storage.write key value })
    fun acct => .storage a key (acct.storage.read key)

def setRefund (w : World) (gas : Gas) : World :=
  { w.record (.refund w.refund) with refund := gas }

def addRefund (w : World) (gas : Gas) : World :=
  w.setRefund (Gas.clamp (w.refund.toNat + gas.toNat))

def subRefund (w : World) (gas : Gas) : World :=
  w.setRefund (Gas.clamp (w.refund.toNat - gas.toNat))

/-- Adds a log to the transaction at hand. -/
def addLog (w : World) (log : Log) : World :=
  let log := { log with txHash := w.txHash, txIndex := w.txIndex, logIndex := w.logCount }
  { w.record (.log w.txHash) with
    logs := w.logs.insert w.txHash (w.logsOf w.txHash ++ [log])
    logCount := w.logCount + 1 }

/-- Takes a snapshot and gives its name. -/
def snapshot (w : World) : Nat × World :=
  let (name, journal) := w.journal.snapshot
  (name, { w with journal := journal })

/-- Goes back to a snapshot; a name that is not live changes nothing. -/
def revert (w : World) (snapshot : Nat) : World :=
  match w.journal.revert? snapshot with
  | some (undone, journal) =>
    { w with toLedger := undone.foldl Undo.apply w.toLedger, journal := journal }
  | none => w

/-- Turns to a transaction. The first transaction of a block drops the logs of the block before. -/
def prepare (w : World) (txHash : Hash) (txIndex : Nat) : World :=
  let w := { w with txHash := txHash, txIndex := UInt32.ofNat txIndex }
  if txIndex = 0 then { w with logs := ∅, logCount := 0 } else w

/-- Settles all changes for good. -/
def finalise (w : World) : World := { w with journal := {}, refund := 0 }

def canPay (w : World) (a : Address) (amount : Wei) : Bool := decide (amount ≤ w.balance a)

def transfer (w : World) (sender receiver : Address) (amount : Wei) : World :=
  (w.subBalance sender amount).addBalance receiver amount

end World

end MeteredLedger
