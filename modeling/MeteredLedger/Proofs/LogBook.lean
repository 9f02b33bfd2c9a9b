import MeteredLedger.Proofs.FrameConduct
import MeteredLedger.Proofs.Rewind

/-!
# The book of logs

What can be read of the logs is the list of each transaction and the counter.  Taking a change back
restores both, as long as the counter does not go round; whether a transaction without logs has an
empty list or none does not matter.  `World.Records` speaks about the journal; `World.Recorded` adds
what became of the book: the given logs stand at the end of the list of the transaction at hand, with
their numbers, and nothing else has changed.
-/

namespace MeteredLedger

open Std

namespace Ledger

/-- The logs of every transaction and their number are the same. -/
structure SameLogs (l₁ l₂ : Ledger) : Prop where
  lists : ∀ txHash : Hash, l₁.logsOf txHash = l₂.logsOf txHash
  count : l₁.logCount = l₂.logCount

theorem SameLogs.refl (l : Ledger) : l.SameLogs l := ⟨fun _ ↦ rfl, rfl⟩

theorem SameLogs.trans {l₁ l₂ l₃ : Ledger} (h : l₁.SameLogs l₂) (h' : l₂.SameLogs l₃) :
    l₁.SameLogs l₃ :=
  ⟨fun txHash ↦ (h.lists txHash).trans (h'.lists txHash), h.count.trans h'.count⟩

theorem sameLogs_modifyAccount (l : Ledger) (a : Address) (f : Account → Account) :
    (l.modifyAccount a f).SameLogs l := by
  unfold modifyAccount
  split
  · exact ⟨fun _ ↦ rfl, rfl⟩
  · exact .refl l

theorem SameLogs.modifyAccount {l₁ l₂ : Ledger} (h : l₁.SameLogs l₂) (a : Address)
    (f : Account → Account) : (l₁.modifyAccount a f).SameLogs (l₂.modifyAccount a f) := by
  refine ⟨fun txHash ↦ ?_, ?_⟩
  · rw [(sameLogs_modifyAccount l₁ a f).lists, (sameLogs_modifyAccount l₂ a f).lists, h.lists]
  · rw [(sameLogs_modifyAccount l₁ a f).count, (sameLogs_modifyAccount l₂ a f).count, h.count]

theorem logsOf_dropLog (l : Ledger) (txHash other : Hash) :
    (l.dropLog txHash).logsOf other =
      if txHash = other then (l.logsOf other).dropLast else l.logsOf other := by
  simp only [dropLog, logsOf]
  cases hget : l.logs[txHash]? with
  | none =>
      by_cases hother : txHash = other
      · subst hother
        simp [hget]
      · simp [hother]
  | some logs =>
      by_cases hother : txHash = other
      · subst hother
        cases hlast : logs.dropLast <;> simp [hget, hlast]
      · cases hlast : logs.dropLast <;>
          simp [hlast, hother, ExtTreeMap.getElem?_erase, ExtTreeMap.getElem?_insert]

theorem rewindable_sameLogs : Rewindable SameLogs where
  refl := SameLogs.refl
  trans := SameLogs.trans
  apply undo l₁ l₂ h := by
    cases undo with
    | account a previous => cases previous <;> exact ⟨h.lists, h.count⟩
    | balance a previous => exact h.modifyAccount a _
    | nonce a previous => exact h.modifyAccount a _
    | code a previous previousHash => exact h.modifyAccount a _
    | storage a key previous => exact h.modifyAccount a _
    | refund previous => exact ⟨h.lists, h.count⟩
    | log txHash =>
        refine ⟨fun other ↦ ?_, ?_⟩
        · simp only [Undo.apply, logsOf_dropLog, h.lists]
        · simp only [Undo.apply, dropLog, h.count]

theorem logsOf_addLog (l : Ledger) (txHash other : Hash) (txIndex : UInt32) (log : Log) :
    (l.addLog txHash txIndex log).logsOf other = if txHash = other then l.logsOf other ++
      [{ log with txHash := txHash, txIndex := txIndex, logIndex := l.logCount }]
      else l.logsOf other := by
  simp only [addLog, logsOf, ExtTreeMap.getElem?_insert, Std.compare_eq_iff_eq]
  split
  · rename_i hsame
    rw [hsame, Option.getD_some]
  · rfl

theorem toNat_logCount_addLog {l : Ledger} (hroom : l.HasLogRoom) (txHash : Hash)
    (txIndex : UInt32) (log : Log) :
    (l.addLog txHash txIndex log).logCount.toNat = l.logCount.toNat + 1 := by
  simp only [addLog, UInt32.toNat_add, UInt32.toNat_one]
  exact Nat.mod_eq_of_lt hroom

theorem sameLogs_dropLog_addLog {l : Ledger} (hroom : l.HasLogRoom) (txHash : Hash)
    (txIndex : UInt32) (log : Log) : ((l.addLog txHash txIndex log).dropLog txHash).SameLogs l := by
  refine ⟨fun other ↦ ?_, ?_⟩
  · rw [logsOf_dropLog, logsOf_addLog]
    split
    · rw [List.dropLast_concat]
    · rfl
  · have hcount := toNat_logCount_addLog hroom txHash txIndex log
    have hpos : (l.addLog txHash txIndex log).logCount ≠ 0 := by
      intro hzero
      rw [hzero] at hcount
      cases hcount
    simp only [dropLog, if_neg hpos]
    simp [addLog]

end Ledger

/-- Logs as they stand in the list of a transaction, the first one with the given number. -/
def Log.place (txHash : Hash) (txIndex : UInt32) (first : Nat) (logs : List Log) : List Log :=
  logs.mapIdx fun j log ↦
    { log with txHash := txHash, txIndex := txIndex, logIndex := UInt32.ofNat (first + j) }

theorem Log.place_append (txHash : Hash) (txIndex : UInt32) (first : Nat) (xs ys : List Log) :
    Log.place txHash txIndex first (xs ++ ys) =
      Log.place txHash txIndex first xs ++ Log.place txHash txIndex (first + xs.length) ys := by
  simp only [Log.place, List.mapIdx_append, Nat.add_assoc, Nat.add_comm xs.length]

namespace World

variable {logs logs' : List Log} {w w' w'' : World}

/-- The given logs were added for the transaction at hand, and the book is the same otherwise. -/
structure Logged (logs : List Log) (w w' : World) : Prop where
  own : w'.logsOf w.txHash =
    w.logsOf w.txHash ++ Log.place w.txHash w.txIndex w.logCount.toNat logs
  other : ∀ txHash, txHash ≠ w.txHash → w'.logsOf txHash = w.logsOf txHash
  count : w'.logCount.toNat = w.logCount.toNat + logs.length
  txHash : w'.txHash = w.txHash
  txIndex : w'.txIndex = w.txIndex

/-- The given logs were added, and going back drops them again. -/
structure Recorded (logs : List Log) (w w' : World) : Prop extends Logged logs w w' where
  follows : Follows Ledger.SameLogs w w'

theorem Logged.ofSameLogs (h : w'.toLedger.SameLogs w.toLedger) (htxHash : w'.txHash = w.txHash)
    (htxIndex : w'.txIndex = w.txIndex) : Logged [] w w' where
  own := by rw [Log.place, List.mapIdx_nil, List.append_nil]; exact h.lists w.txHash
  other txHash _ := h.lists txHash
  count := by rw [h.count]; rfl
  txHash := htxHash
  txIndex := htxIndex

theorem Logged.trans (h : Logged logs w w') (h' : Logged logs' w' w'') :
    Logged (logs ++ logs') w w'' where
  own := by
    have hown := h'.own
    rw [h.txHash, h.txIndex, h.own, h.count] at hown
    rw [hown, Log.place_append, List.append_assoc]
  other txHash hne := by rw [h'.other txHash (h.txHash ▸ hne), h.other txHash hne]
  count := by rw [h'.count, h.count, List.length_append, Nat.add_assoc]
  txHash := h'.txHash.trans h.txHash
  txIndex := h'.txIndex.trans h.txIndex

theorem Recorded.trans (h : Recorded logs w w') (h' : Recorded logs' w' w'') :
    Recorded (logs ++ logs') w w'' :=
  ⟨h.toLogged.trans h'.toLogged, h.follows.trans Ledger.rewindable_sameLogs h'.follows⟩

/-- A change of the world that leaves the book alone. -/
theorem Recorded.quiet (h : Follows Ledger.SameLogs w w') (hsame : w'.toLedger.SameLogs w.toLedger) :
    Recorded [] w w' := by
  obtain ⟨es, ms, hextends⟩ := h
  exact ⟨.ofSameLogs hsame hextends.txHash hextends.txIndex, es, ms, hextends⟩

theorem Recorded.refl (w : World) : Recorded [] w w :=
  .quiet (.refl Ledger.rewindable_sameLogs w) (.refl _)

theorem recorded_change (w : World) (a : Address) (f : Account → Account) (undo : Account → Undo)
    (hundo : ∀ acct l, ((undo acct).apply l).SameLogs l) : Recorded [] w (w.change a f undo) := by
  refine .quiet ?_ ?_
  · refine (records_change Ledger.rewindable_sameLogs w a f undo fun l ↦ ?_).follows
    exact (hundo _ _).trans ⟨fun _ ↦ rfl, rfl⟩
  · rw [change_toLedger]
    exact ⟨fun _ ↦ rfl, rfl⟩

theorem recorded_setBalance (w : World) (a : Address) (balance : Wei) :
    Recorded [] w (w.setBalance a balance) :=
  recorded_change w a _ _ fun _ l ↦ l.sameLogs_modifyAccount a _

theorem recorded_setNonce (w : World) (a : Address) (nonce : Nonce) :
    Recorded [] w (w.setNonce a nonce) :=
  recorded_change w a _ _ fun _ l ↦ l.sameLogs_modifyAccount a _

theorem recorded_setCode (w : World) (a : Address) (code : Bytes) :
    Recorded [] w (w.setCode a code) :=
  recorded_change w a _ _ fun _ l ↦ l.sameLogs_modifyAccount a _

theorem recorded_setStorage (w : World) (a : Address) (key value : Word) :
    Recorded [] w (w.setStorage a key value) :=
  recorded_change w a _ _ fun _ l ↦ l.sameLogs_modifyAccount a _

theorem recorded_createAccount (w : World) (a : Address) : Recorded [] w (w.createAccount a) :=
  .quiet ((records_createAccount w a).mono Ledger.SameLogs.refl).follows ⟨fun _ ↦ rfl, rfl⟩

theorem recorded_setRefund (w : World) (gas : Gas) : Recorded [] w (w.setRefund gas) :=
  .quiet ((records_setRefund w gas).mono Ledger.SameLogs.refl).follows ⟨fun _ ↦ rfl, rfl⟩

theorem recorded_snapshot (w : World) : Recorded [] w w.snapshot.2 :=
  .quiet (follows_snapshot Ledger.SameLogs.refl w) ⟨fun _ ↦ rfl, rfl⟩

theorem recorded_addLog (hroom : w.HasLogRoom) (log : Log) : Recorded [log] w (w.addLog log) where
  own := by
    have hadded := Ledger.logsOf_addLog w.toLedger w.txHash w.txHash w.txIndex log
    rw [if_pos rfl] at hadded
    refine hadded.trans ?_
    simp only [Log.place, List.mapIdx_cons, List.mapIdx_nil, Nat.add_zero, UInt32.ofNat_toNat]
    rfl
  other txHash hne := by
    have hadded := Ledger.logsOf_addLog w.toLedger w.txHash txHash w.txIndex log
    rwa [if_neg hne.symm] at hadded
  count := Ledger.toNat_logCount_addLog hroom _ _ _
  txHash := rfl
  txIndex := rfl
  follows := by
    refine ⟨[.log w.txHash], [], ?_, ?_, ?_, rfl, rfl⟩
    · simp [addLog, record, Journal.record_entries]
    · simp [addLog, record, Journal.record_marks]
    · rw [addLog_toLedger]
      exact Ledger.sameLogs_dropLog_addLog hroom _ _ _

/-- Going back to a snapshot drops the logs added since. -/
theorem Recorded.revert (h : Recorded logs w.snapshot.2 w') :
    Recorded [] w (w'.revert w.snapshot.1) := by
  have hback := extends_revert h.follows
  exact .quiet ⟨[], [], hback⟩ hback.rewind

theorem recorded_transfer (w : World) (policy : TransferPolicy) (sender receiver : Address)
    (amount : Wei) : Recorded [] w (policy.apply w sender receiver amount) := by
  cases policy with
  | move => exact (recorded_setBalance _ _ _).trans (recorded_setBalance _ _ _)
  | keep => exact .refl w

theorem recorded_callWorld (s : Setting) (w : World) (caller target : Address) (value : Wei) :
    Recorded [] w.snapshot.2 (callWorld s w caller target value) := by
  unfold callWorld
  split
  · exact recorded_transfer _ _ _ _ _
  · exact (recorded_createAccount _ _).trans (recorded_transfer _ _ _ _ _)

theorem recorded_creationWorld (s : Setting) (w : World) (caller address : Address) (value : Wei) :
    Recorded [] w.snapshot.2 (creationWorld s w caller address value) :=
  ((recorded_createAccount _ _).trans (recorded_setNonce _ _ _)).trans (recorded_transfer _ _ _ _ _)

end World

end MeteredLedger
