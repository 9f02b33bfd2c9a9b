import MeteredLedger.Proofs.LedgerOps

/-!
# Going back in the journal

A world extends another one when its journal continues the other's and taking the new entries back
leads to the other's ledger.  "Leads to" is meant up to a relation between ledgers that taking back
respects: equality in a world without stored zeros and empty log lists, and agreement of all reads
in any world at all.  Every change of the world extends it, and going back to a snapshot from any
extension of the snapshot gives the world that the snapshot was taken in.
-/

namespace MeteredLedger

open Std

namespace Journal

variable {α : Type} (j : Journal α)

theorem record_entries (entry : α) :
    (j.record entry).entries.toList = j.entries.toList ++ [entry] := by
  simp [record]

theorem record_marks (entry : α) : (j.record entry).marks = j.marks := rfl

theorem snapshot_marks :
    j.snapshot.2.marks.toList = j.marks.toList ++ [j.entries.size] := by
  simp [snapshot]

theorem toList_take (xs : Array α) (n : Nat) : (xs.take n).toList = xs.toList.take n := by
  simp [Array.take, List.extract_eq_take_drop]

theorem ext_toList {j k : Journal α} (hentries : j.entries.toList = k.entries.toList)
    (hmarks : j.marks.toList = k.marks.toList) : j = k := by
  cases j
  cases k
  simp only [Array.toList_inj] at hentries hmarks
  rw [hentries, hmarks]

theorem revert?_of_mark {snapshot mark : Nat} (h : j.marks[snapshot]? = some mark) :
    j.revert? snapshot = some ((j.entries.toList.drop mark).reverse,
      { entries := j.entries.take mark, marks := j.marks.take snapshot }) := by
  simp [revert?, h]

end Journal

namespace Ledger

/-- Takes changes back, the newest first.  The entries stand oldest first, as in the journal. -/
def rewind (l : Ledger) (entries : List Undo) : Ledger :=
  entries.foldr (fun undo l ↦ undo.apply l) l

@[simp] theorem rewind_nil (l : Ledger) : l.rewind [] = l := rfl

@[simp] theorem rewind_cons (l : Ledger) (undo : Undo) (entries : List Undo) :
    l.rewind (undo :: entries) = undo.apply (l.rewind entries) := rfl

theorem rewind_append (l : Ledger) (xs ys : List Undo) :
    l.rewind (xs ++ ys) = (l.rewind ys).rewind xs := by
  simp [rewind]

theorem foldl_reverse_apply (l : Ledger) (entries : List Undo) :
    entries.reverse.foldl Undo.apply l = l.rewind entries := by
  simp [rewind]

/-- The accounts hold no stored zero. -/
def NoZeroSlots (l : Ledger) : Prop :=
  ∀ (a : Address) (acct : Account), l.accounts[a]? = some acct → acct.storage.NoZero

/-- No transaction has an empty list of logs. -/
def NoEmptyLogs (l : Ledger) : Prop := ∀ txHash : Hash, l.logs[txHash]? ≠ some []

/-- The ledger is in the form that taking back restores to the letter. -/
structure Sound (l : Ledger) : Prop where
  slots : l.NoZeroSlots
  logs : l.NoEmptyLogs

theorem noZeroSlots_empty : NoZeroSlots {} := by
  intro a acct hacct
  simp at hacct

theorem NoZeroSlots.accountAt {l : Ledger} (h : l.NoZeroSlots) (a : Address) :
    (l.accountAt a).storage.NoZero := by
  cases hget : l.accounts[a]? with
  | none =>
      rw [accountAt_of_missing hget]
      exact Storage.noZero_empty
  | some acct =>
      rw [accountAt_of_present hget]
      exact h a acct hget

theorem NoZeroSlots.setAccount {l : Ledger} (h : l.NoZeroSlots) (a : Address) {acct : Account}
    (hacct : acct.storage.NoZero) : (l.setAccount a acct).NoZeroSlots := by
  intro b x hx
  rw [setAccount_accounts] at hx
  split at hx
  · cases hx
    exact hacct
  · exact h b x hx

theorem Sound.setAccount {l : Ledger} (h : l.Sound) (a : Address) {acct : Account}
    (hacct : acct.storage.NoZero) : (l.setAccount a acct).Sound :=
  ⟨h.slots.setAccount a hacct, h.logs⟩

theorem Sound.createAccount {l : Ledger} (h : l.Sound) (a : Address) :
    (l.createAccount a).Sound :=
  h.setAccount a Storage.noZero_empty

theorem Sound.setBalance {l : Ledger} (h : l.Sound) (a : Address) (balance : Wei) :
    (l.setBalance a balance).Sound :=
  h.setAccount a (h.slots.accountAt a)

theorem Sound.setNonce {l : Ledger} (h : l.Sound) (a : Address) (nonce : Nonce) :
    (l.setNonce a nonce).Sound :=
  h.setAccount a (h.slots.accountAt a)

theorem Sound.setCode {l : Ledger} (h : l.Sound) (a : Address) (code : Bytes) :
    (l.setCode a code).Sound :=
  h.setAccount a (h.slots.accountAt a)

theorem Sound.setStorage {l : Ledger} (h : l.Sound) (a : Address) (key value : Word) :
    (l.setStorage a key value).Sound :=
  h.setAccount a ((h.slots.accountAt a).write key value)

theorem NoEmptyLogs.addLog {l : Ledger} (h : l.NoEmptyLogs) (txHash : Hash) (txIndex : UInt32)
    (log : Log) : (l.addLog txHash txIndex log).NoEmptyLogs := by
  intro other
  have hother := h other
  simp only [Ledger.addLog, ExtTreeMap.getElem?_insert]
  split <;> simp_all

theorem Sound.addLog {l : Ledger} (h : l.Sound) (txHash : Hash) (txIndex : UInt32) (log : Log) :
    (l.addLog txHash txIndex log).Sound :=
  ⟨h.slots, h.logs.addLog txHash txIndex log⟩

/-- One more log can be counted. -/
def HasLogRoom (l : Ledger) : Prop := l.logCount.toNat + 1 < UInt32.size

instance (l : Ledger) : Decidable l.HasLogRoom := inferInstanceAs (Decidable (_ < _))

/-- Dropping the log just added restores the book. -/
theorem logs_dropLog_addLog {l : Ledger} (hlogs : l.NoEmptyLogs) (txHash : Hash) (txIndex : UInt32)
    (log : Log) : ((l.addLog txHash txIndex log).dropLog txHash).logs = l.logs := by
  have hempty := hlogs txHash
  have hmap : (l.addLog txHash txIndex log).logs[txHash]? =
      some (l.logsOf txHash ++
        [{ log with txHash := txHash, txIndex := txIndex, logIndex := l.logCount }]) := by
    simp [Ledger.addLog]
  simp only [dropLog, hmap, List.dropLast_concat]
  cases hget : l.logs[txHash]? with
  | none =>
      have hnil : l.logsOf txHash = [] := by simp [logsOf, hget]
      simp only [hnil, List.isEmpty_nil, if_true, Ledger.addLog]
      ext
      grind
  | some logs =>
      have hlist : l.logsOf txHash = logs := by simp [logsOf, hget]
      have hne : logs.isEmpty = false := by
        cases logs with
        | nil => exact absurd hget hempty
        | cons _ _ => rfl
      simp only [hlist, hne, Ledger.addLog]
      ext
      grind

/-- Dropping the log just added restores the ledger, as long as the counter does not go round. -/
theorem dropLog_addLog {l : Ledger} (hlogs : l.NoEmptyLogs) (hroom : l.HasLogRoom)
    (txHash : Hash) (txIndex : UInt32) (log : Log) :
    (l.addLog txHash txIndex log).dropLog txHash = l := by
  have hpos : l.logCount + 1 ≠ 0 := by
    intro hzero
    have htoNat := congrArg UInt32.toNat hzero
    rw [UInt32.toNat_add, UInt32.toNat_one, UInt32.toNat_zero] at htoNat
    have hlt : l.logCount.toNat + 1 < 2 ^ 32 := hroom
    omega
  have hcount : ((l.addLog txHash txIndex log).dropLog txHash).logCount = l.logCount := by
    simp [dropLog, Ledger.addLog, hpos]
  calc (l.addLog txHash txIndex log).dropLog txHash
      = { l with
          logs := ((l.addLog txHash txIndex log).dropLog txHash).logs
          logCount := ((l.addLog txHash txIndex log).dropLog txHash).logCount } := rfl
    _ = l := by rw [logs_dropLog_addLog hlogs, hcount]

end Ledger

/-- A relation between ledgers that taking back respects. -/
structure Rewindable (E : Ledger → Ledger → Prop) : Prop where
  refl : ∀ l, E l l
  trans : ∀ {l₁ l₂ l₃}, E l₁ l₂ → E l₂ l₃ → E l₁ l₃
  apply : ∀ (undo : Undo) {l₁ l₂}, E l₁ l₂ → E (undo.apply l₁) (undo.apply l₂)

theorem rewindable_eq : Rewindable Eq :=
  ⟨fun _ ↦ rfl, Eq.trans, fun _ _ _ h ↦ h ▸ rfl⟩

theorem Rewindable.rewind {E : Ledger → Ledger → Prop} (hE : Rewindable E) {l₁ l₂ : Ledger}
    (h : E l₁ l₂) (entries : List Undo) : E (l₁.rewind entries) (l₂.rewind entries) := by
  induction entries with
  | nil => exact h
  | cons undo entries ih => exact hE.apply undo ih

namespace World

variable {E : Ledger → Ledger → Prop} {w w₁ w₂ : World}

/-- A world whose journal continues another one's by the given entries and marks, and whose ledger
goes back to the other's when those entries are taken back. -/
structure Extends (E : Ledger → Ledger → Prop) (w₁ w₂ : World) (es : List Undo) (ms : List Nat) :
    Prop where
  entries : w₂.journal.entries.toList = w₁.journal.entries.toList ++ es
  marks : w₂.journal.marks.toList = w₁.journal.marks.toList ++ ms
  rewind : E (w₂.toLedger.rewind es) w₁.toLedger
  txHash : w₂.txHash = w₁.txHash
  txIndex : w₂.txIndex = w₁.txIndex

theorem Extends.refl (hE : Rewindable E) (w : World) : Extends E w w [] [] :=
  ⟨by simp, by simp, hE.refl _, rfl, rfl⟩

theorem Extends.trans (hE : Rewindable E) {w₃ : World} {es es' : List Undo} {ms ms' : List Nat}
    (h : Extends E w₁ w₂ es ms) (h' : Extends E w₂ w₃ es' ms') :
    Extends E w₁ w₃ (es ++ es') (ms ++ ms') where
  entries := by rw [h'.entries, h.entries, List.append_assoc]
  marks := by rw [h'.marks, h.marks, List.append_assoc]
  rewind := by
    rw [Ledger.rewind_append]
    exact hE.trans (hE.rewind h'.rewind es) h.rewind
  txHash := h'.txHash.trans h.txHash
  txIndex := h'.txIndex.trans h.txIndex

/-- A world that extends another one, whatever was recorded and marked on the way. -/
def Follows (E : Ledger → Ledger → Prop) (w₁ w₂ : World) : Prop :=
  ∃ es ms, Extends E w₁ w₂ es ms

/-- A world that extends another one without a new snapshot. -/
def Records (E : Ledger → Ledger → Prop) (w₁ w₂ : World) : Prop := ∃ es, Extends E w₁ w₂ es []

theorem Follows.refl (hE : Rewindable E) (w : World) : Follows E w w :=
  ⟨[], [], Extends.refl hE w⟩

theorem Follows.trans (hE : Rewindable E) {w₃ : World} (h : Follows E w₁ w₂)
    (h' : Follows E w₂ w₃) : Follows E w₁ w₃ := by
  obtain ⟨es, ms, h⟩ := h
  obtain ⟨es', ms', h'⟩ := h'
  exact ⟨es ++ es', ms ++ ms', h.trans hE h'⟩

theorem Records.follows (h : Records E w₁ w₂) : Follows E w₁ w₂ := by
  obtain ⟨es, h⟩ := h
  exact ⟨es, [], h⟩

theorem Records.trans (hE : Rewindable E) {w₃ : World} (h : Records E w₁ w₂)
    (h' : Records E w₂ w₃) : Records E w₁ w₃ := by
  obtain ⟨es, h⟩ := h
  obtain ⟨es', h'⟩ := h'
  exact ⟨es ++ es', h.trans hE h'⟩

theorem Records.mono (hE : ∀ l, E l l) (h : Records Eq w₁ w₂) : Records E w₁ w₂ := by
  obtain ⟨es, h⟩ := h
  exact ⟨es, h.entries, h.marks, h.rewind ▸ hE _, h.txHash, h.txIndex⟩

/-- A change of an account is recorded if its entry takes the account back to what it was. -/
theorem records_change (hE : Rewindable E) (w : World) (a : Address) (f : Account → Account)
    (undo : Account → Undo)
    (hundo : ∀ l : Ledger, E ((undo (w.accountAt a)).apply (l.setAccount a (f (w.accountAt a))))
      (l.setAccount a (w.accountAt a))) :
    Records E w (w.change a f undo) := by
  have hledger := change_toLedger w a f undo
  cases h : w.accounts[a]? with
  | some acct =>
      rw [Ledger.accountAt_of_present h] at hundo
      have hback := hundo w.toLedger
      rw [Ledger.setAccount_of_present h] at hback
      refine ⟨[undo acct], ?_, ?_, ?_, ?_, ?_⟩
      · simp [change, touch, account?, h, record, placeAccount, Journal.record_entries]
      · simp [change, touch, account?, h, record, placeAccount, Journal.record_marks]
      · rw [hledger, Ledger.update, Ledger.accountAt_of_present h]
        exact hback
      · simp [change, touch, account?, h, record, placeAccount]
      · simp [change, touch, account?, h, record, placeAccount]
  | none =>
      -- The account was made for the change, so its own entry goes last and takes it away.
      rw [Ledger.accountAt_of_missing h] at hundo
      have hback := hE.apply (.account a none) (hundo w.toLedger)
      simp only [Undo.apply, Ledger.erase_setAccount h] at hback
      refine ⟨[.account a none, undo {}], ?_, ?_, ?_, ?_, ?_⟩
      · simp [change, touch, account?, h, record, placeAccount, Journal.record_entries]
      · simp [change, touch, account?, h, record, placeAccount, Journal.record_marks]
      · rw [hledger, Ledger.update, Ledger.accountAt_of_missing h]
        exact hback
      · simp [change, touch, account?, h, record, placeAccount]
      · simp [change, touch, account?, h, record, placeAccount]

theorem records_setBalance (w : World) (a : Address) (balance : Wei) :
    Records Eq w (w.setBalance a balance) :=
  records_change rewindable_eq w a _ _ fun l ↦ Ledger.modifyAccount_setAccount l a _ _

theorem records_setNonce (w : World) (a : Address) (nonce : Nonce) :
    Records Eq w (w.setNonce a nonce) :=
  records_change rewindable_eq w a _ _ fun l ↦ Ledger.modifyAccount_setAccount l a _ _

theorem records_setCode (w : World) (a : Address) (code : Bytes) :
    Records Eq w (w.setCode a code) :=
  records_change rewindable_eq w a _ _ fun l ↦ Ledger.modifyAccount_setAccount l a _ _

theorem records_setStorage (hw : w.NoZeroSlots) (a : Address) (key value : Word) :
    Records Eq w (w.setStorage a key value) := by
  apply records_change rewindable_eq
  intro l
  have hback := (hw.accountAt a).write_read key value
  simp only [Undo.apply, Ledger.modifyAccount_setAccount, hback]

theorem records_addBalance (w : World) (a : Address) (amount : Wei) :
    Records Eq w (w.addBalance a amount) :=
  records_setBalance w a _

theorem records_subBalance (w : World) (a : Address) (amount : Wei) :
    Records Eq w (w.subBalance a amount) :=
  records_setBalance w a _

theorem records_transfer (w : World) (sender receiver : Address) (amount : Wei) :
    Records Eq w (w.transfer sender receiver amount) :=
  (records_subBalance w sender amount).trans rewindable_eq (records_addBalance _ receiver amount)

theorem records_createAccount (w : World) (a : Address) : Records Eq w (w.createAccount a) := by
  refine ⟨[.account a (w.account? a)], ?_, ?_, ?_, rfl, rfl⟩
  · simp [createAccount, record, placeAccount, Journal.record_entries]
  · simp [createAccount, record, placeAccount, Journal.record_marks]
  · rw [createAccount_toLedger]
    unfold account?
    cases h : w.accounts[a]? with
    | none => exact Ledger.erase_setAccount h _
    | some acct =>
        have hback := Ledger.setAccount_setAccount w.toLedger a
          { balance := (w.accountAt a).balance } acct
        rw [Ledger.setAccount_of_present h] at hback
        exact hback

theorem records_setRefund (w : World) (gas : Gas) : Records Eq w (w.setRefund gas) :=
  ⟨[.refund w.refund], by simp [setRefund, record, Journal.record_entries],
    by simp [setRefund, record, Journal.record_marks], rfl, rfl, rfl⟩

theorem records_addLog (hlogs : w.NoEmptyLogs) (hroom : w.HasLogRoom) (log : Log) :
    Records Eq w (w.addLog log) := by
  refine ⟨[.log w.txHash], ?_, ?_, ?_, rfl, rfl⟩
  · simp [addLog, record, Journal.record_entries]
  · simp [addLog, record, Journal.record_marks]
  · rw [addLog_toLedger]
    exact Ledger.dropLog_addLog hlogs hroom _ _ _

theorem extends_snapshot (w : World) :
    Extends Eq w w.snapshot.2 [] [w.journal.entries.size] :=
  ⟨by simp [snapshot, Journal.snapshot], by simp [snapshot, Journal.snapshot], rfl, rfl, rfl⟩

theorem follows_snapshot (hE : ∀ l, E l l) (w : World) : Follows E w w.snapshot.2 := by
  have h := extends_snapshot w
  exact ⟨[], _, h.entries, h.marks, hE _, rfl, rfl⟩

theorem revert_of_mark {i mark : Nat} (h : w.journal.marks[i]? = some mark) :
    w.revert i =
      { w with
        toLedger := w.toLedger.rewind (w.journal.entries.toList.drop mark)
        journal :=
          { entries := w.journal.entries.take mark, marks := w.journal.marks.take i } } := by
  rw [revert, Journal.revert?_of_mark _ h]
  simp only [Ledger.foldl_reverse_apply]

theorem revert_of_dead {i : Nat} (h : w.journal.marks.size ≤ i) : w.revert i = w := by
  have hnone : w.journal.marks[i]? = none := by simpa using h
  simp [revert, Journal.revert?, hnone]

/-- Going back to a snapshot from any extension of it leads to where it was taken. -/
theorem extends_revert (h : Follows E w.snapshot.2 w₂) :
    Extends E w (w₂.revert w.snapshot.1) [] [] := by
  obtain ⟨es, ms, h⟩ := h
  have hentries : w₂.journal.entries.toList = w.journal.entries.toList ++ es := h.entries
  have hmarks : w₂.journal.marks.toList =
      w.journal.marks.toList ++ w.journal.entries.size :: ms := by
    have hms := h.marks
    simp only [snapshot, Journal.snapshot_marks, List.append_assoc, List.cons_append,
      List.nil_append] at hms
    exact hms
  have hmark : w₂.journal.marks[w.journal.marks.size]? = some w.journal.entries.size := by
    rw [← Array.getElem?_toList, hmarks]
    simp
  have hname : w.snapshot.1 = w.journal.marks.size := rfl
  have hlength : w.journal.entries.size = w.journal.entries.toList.length := by simp
  rw [hname, revert_of_mark hmark]
  refine ⟨?_, ?_, ?_, h.txHash, h.txIndex⟩
  · rw [Journal.toList_take, hentries, hlength, List.take_left, List.append_nil]
  · rw [Journal.toList_take, hmarks, ← Array.length_toList, List.take_left, List.append_nil]
  · have hdrop : w₂.journal.entries.toList.drop w.journal.entries.size = es := by
      rw [hentries, hlength, List.drop_left]
    simp only [hdrop]
    exact h.rewind

theorem eq_of_extends_nil (h : Extends Eq w₁ w₂ [] []) : w₂ = w₁ := by
  have hjournal : w₂.journal = w₁.journal :=
    Journal.ext_toList (by simpa using h.entries) (by simpa using h.marks)
  have hledger : w₂.toLedger = w₁.toLedger := h.rewind
  have htx := h.txHash
  have hindex := h.txIndex
  cases w₁
  cases w₂
  simp_all

theorem revert_snapshot (h : Follows Eq w.snapshot.2 w₂) : w₂.revert w.snapshot.1 = w :=
  eq_of_extends_nil (extends_revert h)

end World

/-! ## Worlds with stored zeros -/

/-- What can be read of an account. -/
structure Account.View where
  balance : Wei
  nonce : Nonce
  code : Bytes
  codeHash : Hash
  read : Word → Word

def Account.view (acct : Account) : Account.View :=
  ⟨acct.balance, acct.nonce, acct.code, acct.codeHash, acct.storage.read⟩

/-- Two ledgers with the same accounts, as far as reading them can tell. -/
def Ledger.ReadAlike (l₁ l₂ : Ledger) : Prop :=
  ∀ a : Address, l₁.accounts[a]?.map Account.view = l₂.accounts[a]?.map Account.view

namespace Ledger

theorem ReadAlike.modifyAccount {l₁ l₂ : Ledger} (h : ReadAlike l₁ l₂) (a : Address)
    {f : Account → Account} (g : Account.View → Account.View)
    (hf : ∀ acct, (f acct).view = g acct.view) :
    ReadAlike (l₁.modifyAccount a f) (l₂.modifyAccount a f) := by
  have hmap : ∀ x : Option Account, (x.map f).map Account.view = (x.map Account.view).map g := by
    intro x
    cases x <;> simp [hf]
  intro b
  rw [modifyAccount_accounts, modifyAccount_accounts]
  split
  · rw [hmap, hmap, h b]
  · exact h b

theorem rewindable_readAlike : Rewindable ReadAlike where
  refl _ _ := rfl
  trans h₁ h₂ a := (h₁ a).trans (h₂ a)
  apply undo l₁ l₂ h := by
    cases undo with
    | account a previous =>
        intro b
        cases previous <;> simp only [Undo.apply, ExtTreeMap.getElem?_erase,
          ExtTreeMap.getElem?_insert] <;> split <;> simp [h b]
    | balance a previous =>
        exact h.modifyAccount a (fun v ↦ { v with balance := previous }) fun _ ↦ rfl
    | nonce a previous =>
        exact h.modifyAccount a (fun v ↦ { v with nonce := previous }) fun _ ↦ rfl
    | code a previous previousHash =>
        exact h.modifyAccount a
          (fun v ↦ { v with code := previous, codeHash := previousHash }) fun _ ↦ rfl
    | storage a key previous =>
        apply h.modifyAccount a
          (fun v ↦ { v with read := fun k ↦ if k = key then previous else v.read k })
        intro acct
        simp only [Account.view, Account.View.mk.injEq, true_and]
        funext k
        exact Storage.read_write acct.storage key previous k
    | refund previous => exact h
    | log txHash => exact h

theorem ReadAlike.setAccount (l : Ledger) (a : Address) {x y : Account} (h : x.view = y.view) :
    ReadAlike (l.setAccount a x) (l.setAccount a y) := by
  intro b
  rw [setAccount_accounts, setAccount_accounts]
  split <;> simp [h]

end Ledger

namespace World

theorem records_setStorage_readAlike (w : World) (a : Address) (key value : Word) :
    Records Ledger.ReadAlike w (w.setStorage a key value) := by
  apply records_change Ledger.rewindable_readAlike
  intro l
  simp only [Undo.apply, Ledger.modifyAccount_setAccount]
  apply Ledger.ReadAlike.setAccount
  simp only [Account.view, Account.View.mk.injEq, true_and]
  funext k
  simp only [Storage.read_write]
  split <;> simp_all

theorem records_addLog_readAlike (w : World) (log : Log) :
    Records Ledger.ReadAlike w (w.addLog log) := by
  refine ⟨[.log w.txHash], ?_, ?_, ?_, rfl, rfl⟩
  · simp [addLog, record, Journal.record_entries]
  · simp [addLog, record, Journal.record_marks]
  · intro a
    rfl

end World

end MeteredLedger
