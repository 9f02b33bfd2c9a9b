import MeteredLedger.Proofs.Rewind

/-!
# The journal against a stack of copies

The plainest state with snapshots keeps a full copy of the ledger for each live snapshot and puts a
copy back when it is asked to.  This module compares the journalled world with it, action by action.
The invariant ties every live mark to the copy at its place: taking back the entries recorded since
the mark leads to that copy.
-/

namespace MeteredLedger

open Std

/-- A change of the ledger that the journal can take back. -/
inductive Edit where
  | createAccount (a : Address)
  | setBalance (a : Address) (balance : Wei)
  | addBalance (a : Address) (amount : Wei)
  | subBalance (a : Address) (amount : Wei)
  | setNonce (a : Address) (nonce : Nonce)
  | setCode (a : Address) (code : Bytes)
  | setStorage (a : Address) (key value : Word)
  | addRefund (gas : Gas)
  | subRefund (gas : Gas)
  | addLog (log : Log)

/-- What can be asked of a state with snapshots. -/
inductive Action where
  | edit (e : Edit)
  | snapshot
  | revert (name : Nat)
  | finalise
  | prepare (txHash : Hash) (txIndex : Nat)

namespace World

def edit (w : World) : Edit → World
  | .createAccount a => w.createAccount a
  | .setBalance a balance => w.setBalance a balance
  | .addBalance a amount => w.addBalance a amount
  | .subBalance a amount => w.subBalance a amount
  | .setNonce a nonce => w.setNonce a nonce
  | .setCode a code => w.setCode a code
  | .setStorage a key value => w.setStorage a key value
  | .addRefund gas => w.addRefund gas
  | .subRefund gas => w.subRefund gas
  | .addLog log => w.addLog log

/-- Performs an action and gives the name of the snapshot, if it took one. -/
def perform (w : World) : Action → Option Nat × World
  | .edit e => (none, w.edit e)
  | .snapshot => (some w.snapshot.1, w.snapshot.2)
  | .revert name => (none, w.revert name)
  | .finalise => (none, w.finalise)
  | .prepare txHash txIndex => (none, w.prepare txHash txIndex)

end World

/-- A change of the ledger while the given transaction is at hand. -/
def Ledger.edit (l : Ledger) (txHash : Hash) (txIndex : UInt32) : Edit → Ledger
  | .createAccount a => l.createAccount a
  | .setBalance a balance => l.setBalance a balance
  | .addBalance a amount => l.setBalance a (Wei.addClamped (l.accountAt a).balance amount)
  | .subBalance a amount => l.setBalance a (Wei.subClamped (l.accountAt a).balance amount)
  | .setNonce a nonce => l.setNonce a nonce
  | .setCode a code => l.setCode a code
  | .setStorage a key value => l.setStorage a key value
  | .addRefund gas => { l with refund := Gas.clamp (l.refund.toNat + gas.toNat) }
  | .subRefund gas => { l with refund := Gas.clamp (l.refund.toNat - gas.toNat) }
  | .addLog log => l.addLog txHash txIndex log

/-- A ledger with a full copy of itself for each live snapshot, oldest first.  The transaction at
hand is no part of a copy. -/
structure CopyStack where
  ledger : Ledger
  copies : List Ledger := []
  txHash : Hash := 0
  txIndex : UInt32 := 0

namespace CopyStack

def perform (c : CopyStack) : Action → Option Nat × CopyStack
  | .edit e => (none, { c with ledger := c.ledger.edit c.txHash c.txIndex e })
  | .snapshot => (some c.copies.length, { c with copies := c.copies ++ [c.ledger] })
  | .revert name =>
    match c.copies[name]? with
    | some copy => (none, { c with ledger := copy, copies := c.copies.take name })
    | none => (none, c)
  | .finalise => (none, { c with ledger := { c.ledger with refund := 0 }, copies := [] })
  | .prepare txHash txIndex =>
    let ledger := if txIndex = 0 then { c.ledger with logs := ∅, logCount := 0 } else c.ledger
    (none, { c with ledger, txHash, txIndex := UInt32.ofNat txIndex })

/-- Whether an action is in order: a log has a number left, and a block starts under no snapshot. -/
def Admits (c : CopyStack) : Action → Prop
  | .edit (.addLog _) => c.ledger.HasLogRoom
  | .prepare _ txIndex => txIndex = 0 → c.copies = []
  | _ => True

def AdmitsAll (c : CopyStack) : List Action → Prop
  | [] => True
  | action :: rest => c.Admits action ∧ (c.perform action).2.AdmitsAll rest

end CopyStack

/-- The name given by each action and the ledger after it. -/
def observations {σ : Type} (perform : σ → Action → Option Nat × σ) (ledger : σ → Ledger) :
    σ → List Action → List (Option Nat × Ledger)
  | _, [] => []
  | s, action :: rest =>
    ((perform s action).1, ledger (perform s action).2) ::
      observations perform ledger (perform s action).2 rest

/-! ## One change -/

namespace Ledger

theorem Sound.edit {l : Ledger} (h : l.Sound) (txHash : Hash) (txIndex : UInt32) (e : Edit) :
    (l.edit txHash txIndex e).Sound := by
  cases e with
  | createAccount a => exact h.createAccount a
  | setBalance a balance => exact h.setBalance a balance
  | addBalance a amount => exact h.setBalance a _
  | subBalance a amount => exact h.setBalance a _
  | setNonce a nonce => exact h.setNonce a nonce
  | setCode a code => exact h.setCode a code
  | setStorage a key value => exact h.setStorage a key value
  | addRefund gas => exact ⟨h.slots, h.logs⟩
  | subRefund gas => exact ⟨h.slots, h.logs⟩
  | addLog log => exact h.addLog txHash txIndex log

end Ledger

namespace World

theorem edit_toLedger (w : World) (e : Edit) :
    (w.edit e).toLedger = w.toLedger.edit w.txHash w.txIndex e := by
  cases e with
  | createAccount a => exact createAccount_toLedger w a
  | setBalance a balance => exact setBalance_toLedger w a balance
  | addBalance a amount => exact addBalance_toLedger w a amount
  | subBalance a amount => exact subBalance_toLedger w a amount
  | setNonce a nonce => exact setNonce_toLedger w a nonce
  | setCode a code => exact setCode_toLedger w a code
  | setStorage a key value => exact setStorage_toLedger w a key value
  | addRefund gas => rfl
  | subRefund gas => rfl
  | addLog log => rfl

theorem records_edit {w : World} (h : w.Sound) (e : Edit)
    (hroom : ∀ log, e = .addLog log → w.HasLogRoom) : Records Eq w (w.edit e) := by
  cases e with
  | createAccount a => exact records_createAccount w a
  | setBalance a balance => exact records_setBalance w a balance
  | addBalance a amount => exact records_addBalance w a amount
  | subBalance a amount => exact records_subBalance w a amount
  | setNonce a nonce => exact records_setNonce w a nonce
  | setCode a code => exact records_setCode w a code
  | setStorage a key value => exact records_setStorage h.slots a key value
  | addRefund gas => exact records_setRefund w _
  | subRefund gas => exact records_setRefund w _
  | addLog log => exact records_addLog h.logs (hroom log rfl) log

end World

/-! ## The simulation -/

/-- The world and the copies are at the same place, and every live mark leads to its copy. -/
structure Tracks (w : World) (c : CopyStack) : Prop where
  ledger : w.toLedger = c.ledger
  txHash : w.txHash = c.txHash
  txIndex : w.txIndex = c.txIndex
  sound : c.ledger.Sound
  height : w.journal.marks.toList.length = c.copies.length
  sorted : ∀ i j mark mark' : Nat, i ≤ j → w.journal.marks.toList[i]? = some mark →
    w.journal.marks.toList[j]? = some mark' → mark ≤ mark'
  bounded : ∀ i mark : Nat, w.journal.marks.toList[i]? = some mark →
    mark ≤ w.journal.entries.toList.length
  copies : ∀ (i mark : Nat) (copy : Ledger), w.journal.marks.toList[i]? = some mark →
    c.copies[i]? = some copy →
    c.ledger.rewind (w.journal.entries.toList.drop mark) = copy ∧ copy.Sound

namespace Tracks

variable {w : World} {c : CopyStack}

theorem edit (h : Tracks w c) (e : Edit) (hadm : c.Admits (.edit e)) :
    Tracks (w.edit e) (c.perform (.edit e)).2 := by
  have hsound : w.Sound := h.ledger ▸ h.sound
  have hroom : ∀ log, e = .addLog log → w.HasLogRoom := by
    rintro log rfl
    rw [h.ledger]
    exact hadm
  have hedit : (w.edit e).toLedger = c.ledger.edit c.txHash c.txIndex e := by
    rw [World.edit_toLedger, h.ledger, h.txHash, h.txIndex]
  obtain ⟨es, hext⟩ := World.records_edit hsound e hroom
  have hmarks : (w.edit e).journal.marks.toList = w.journal.marks.toList := by
    simpa using hext.marks
  have hback : (c.ledger.edit c.txHash c.txIndex e).rewind es = c.ledger := by
    rw [← hedit, hext.rewind, h.ledger]
  refine ⟨hedit, hext.txHash.trans h.txHash, hext.txIndex.trans h.txIndex, h.sound.edit _ _ e,
    ?_, ?_, ?_, ?_⟩
  · rw [hmarks]
    exact h.height
  · rw [hmarks]
    exact h.sorted
  · intro i mark hmark
    rw [hmarks] at hmark
    have hle := h.bounded i mark hmark
    rw [hext.entries, List.length_append]
    omega
  · intro i mark copy hmark hcopy
    rw [hmarks] at hmark
    obtain ⟨hrewind, hcopySound⟩ := h.copies i mark copy hmark hcopy
    refine ⟨?_, hcopySound⟩
    -- The new entries are the newest, so they are taken back first.
    rw [hext.entries, List.drop_append_of_le_length (h.bounded i mark hmark),
      Ledger.rewind_append]
    simp only [CopyStack.perform]
    rw [hback, hrewind]

theorem snapshot (h : Tracks w c) : Tracks w.snapshot.2 (c.perform .snapshot).2 := by
  have hext := World.extends_snapshot w
  have hmarks : w.snapshot.2.journal.marks.toList =
      w.journal.marks.toList ++ [w.journal.entries.toList.length] := by
    simpa using hext.marks
  have hentries : w.snapshot.2.journal.entries.toList = w.journal.entries.toList := by
    simpa using hext.entries
  refine ⟨h.ledger, h.txHash, h.txIndex, h.sound, ?_, ?_, ?_, ?_⟩
  · rw [hmarks]
    simp [CopyStack.perform, h.height]
  · intro i j mark mark' hij hmark hmark'
    rw [hmarks] at hmark hmark'
    have hsorted := h.sorted i j mark mark' hij
    have hbounded := h.bounded i mark
    grind
  · intro i mark hmark
    rw [hmarks] at hmark
    have hbounded := h.bounded i mark
    grind
  · intro i mark copy hmark hcopy
    rw [hmarks] at hmark
    rw [hentries]
    simp only [CopyStack.perform] at hcopy ⊢
    by_cases hi : i < w.journal.marks.toList.length
    · rw [List.getElem?_append_left hi] at hmark
      rw [List.getElem?_append_left (h.height ▸ hi)] at hcopy
      exact h.copies i mark copy hmark hcopy
    · -- The mark just set: nothing is recorded since.
      have hi' : i = w.journal.marks.toList.length := by
        have hlt := (List.getElem?_eq_some_iff.mp hmark).1
        simp only [List.length_append, List.length_cons, List.length_nil] at hlt
        omega
      subst hi'
      simp only [List.getElem?_concat_length, Option.some.injEq] at hmark
      rw [h.height] at hcopy
      simp only [List.getElem?_concat_length, Option.some.injEq] at hcopy
      subst hmark hcopy
      rw [List.drop_length]
      exact ⟨rfl, h.sound⟩

theorem revert (h : Tracks w c) (name : Nat) :
    Tracks (w.revert name) (c.perform (.revert name)).2 := by
  cases hmark : w.journal.marks.toList[name]? with
  | none =>
      have hdead : w.journal.marks.toList.length ≤ name := by simpa using hmark
      have hnone : c.copies[name]? = none := by simpa [← h.height] using hdead
      rw [World.revert_of_dead (by simpa using hdead)]
      simpa [CopyStack.perform, hnone] using h
  | some mark =>
      have hlt : name < c.copies.length := by
        rw [← h.height]
        exact (List.getElem?_eq_some_iff.mp hmark).1
      have hcopy : c.copies[name]? = some c.copies[name] := List.getElem?_eq_getElem hlt
      obtain ⟨hrewind, hcopySound⟩ := h.copies name mark _ hmark hcopy
      have hbound := h.bounded name mark hmark
      rw [World.revert_of_mark (by simpa using hmark)]
      simp only [CopyStack.perform, hcopy]
      refine ⟨by simpa [h.ledger] using hrewind, h.txHash, h.txIndex, hcopySound, ?_, ?_, ?_, ?_⟩
      · simp only [Journal.toList_take, List.length_take, h.height]
      · intro i j m m' hij hm hm'
        simp only [Journal.toList_take] at hm hm'
        have hsorted := h.sorted i j m m' hij
        grind
      · intro i m hm
        simp only [Journal.toList_take] at hm ⊢
        have hsorted := h.sorted i name m mark
        grind
      · intro i m copy hm hcopy'
        simp only [Journal.toList_take] at hm ⊢
        obtain ⟨hi, hm⟩ : i < name ∧ w.journal.marks.toList[i]? = some m := by grind
        have hle : m ≤ mark := h.sorted i name m mark (Nat.le_of_lt hi) hm hmark
        have hcopies := h.copies i m copy hm (by grind)
        refine ⟨?_, hcopies.2⟩
        -- From the copy at `name` the way back goes on through the entries that stayed.
        have hsplit : w.journal.entries.toList.drop m =
            (w.journal.entries.toList.take mark).drop m ++ w.journal.entries.toList.drop mark := by
          rw [← List.drop_append_of_le_length (by rw [List.length_take]; omega),
            List.take_append_drop]
        rw [← hrewind, ← Ledger.rewind_append, ← hsplit]
        exact hcopies.1

theorem finalise (h : Tracks w c) : Tracks w.finalise (c.perform .finalise).2 := by
  refine ⟨?_, h.txHash, h.txIndex, ⟨h.sound.slots, h.sound.logs⟩, rfl, ?_, ?_, ?_⟩
  · simp [World.finalise, CopyStack.perform, h.ledger]
  all_goals simp [World.finalise]

theorem prepare (h : Tracks w c) (txHash : Hash) (txIndex : Nat)
    (hadm : c.Admits (.prepare txHash txIndex)) :
    Tracks (w.prepare txHash txIndex) (c.perform (.prepare txHash txIndex)).2 := by
  by_cases hzero : txIndex = 0
  · have hcopies : c.copies = [] := hadm hzero
    have hmarks : w.journal.marks.toList = [] := by
      rw [← List.length_eq_zero_iff, h.height, hcopies, List.length_nil]
    simp only [World.prepare, CopyStack.perform, hzero, if_true]
    refine ⟨?_, rfl, rfl, ⟨h.sound.slots, ?_⟩, h.height, h.sorted, h.bounded, ?_⟩
    · simp [← h.ledger]
    · intro hash
      simp
    · simp [hmarks]
  · simp only [World.prepare, CopyStack.perform, hzero, if_false]
    exact ⟨h.ledger, rfl, rfl, h.sound, h.height, h.sorted, h.bounded, h.copies⟩

/-- Both states answer an action alike and stay at the same place. -/
theorem perform (h : Tracks w c) (action : Action) (hadm : c.Admits action) :
    (w.perform action).1 = (c.perform action).1 ∧
      Tracks (w.perform action).2 (c.perform action).2 := by
  cases action with
  | edit e => exact ⟨rfl, h.edit e hadm⟩
  | snapshot =>
      have hname : w.snapshot.1 = c.copies.length := by
        rw [← h.height, Array.length_toList]
        rfl
      exact ⟨congrArg some hname, h.snapshot⟩
  | revert name =>
      refine ⟨?_, h.revert name⟩
      simp only [World.perform, CopyStack.perform]
      split <;> rfl
  | finalise => exact ⟨rfl, h.finalise⟩
  | prepare txHash txIndex => exact ⟨rfl, h.prepare txHash txIndex hadm⟩

theorem observations_eq (h : Tracks w c) (actions : List Action) (hadm : c.AdmitsAll actions) :
    observations World.perform World.toLedger w actions =
      observations CopyStack.perform CopyStack.ledger c actions := by
  induction actions generalizing w c with
  | nil => rfl
  | cons action rest ih =>
      obtain ⟨hname, hnext⟩ := h.perform action hadm.1
      simp only [observations]
      rw [hname, hnext.ledger, ih hnext hadm.2]

theorem start {accounts : ExtTreeMap Address Account}
    (haccounts : Ledger.NoZeroSlots { accounts := accounts }) :
    Tracks { accounts := accounts } { ledger := { accounts := accounts } } := by
  refine ⟨rfl, rfl, rfl, ⟨haccounts, ?_⟩, rfl, ?_, ?_, ?_⟩
  · intro txHash
    simp
  all_goals simp

end Tracks

/-- From accounts without stored zeros, the journalled world and the stack of copies give the same
names and the same ledgers after every action, however snapshots nest and whatever names, live or
stale, are gone back to. -/
theorem journal_refines_copies (accounts : ExtTreeMap Address Account)
    (haccounts : Ledger.NoZeroSlots { accounts := accounts }) (actions : List Action)
    (hadm : CopyStack.AdmitsAll { ledger := { accounts := accounts } } actions) :
    observations World.perform World.toLedger { accounts := accounts } actions =
      observations CopyStack.perform CopyStack.ledger { ledger := { accounts := accounts } }
        actions :=
  (Tracks.start haccounts).observations_eq actions hadm

/-- Snapshots nest, a slot is cleared, a missing account is debited, and both a live and two stale
names are gone back to. -/
def nestedActions : List Action :=
  [.prepare 3 0, .snapshot, .edit (.setStorage 1 1 0), .edit (.addLog ⟨1, [], [], 0, 0, 0, 0⟩),
    .snapshot, .edit (.subBalance 2 9), .snapshot, .edit (.addRefund 4), .revert 1, .revert 2,
    .snapshot, .edit (.createAccount 1), .revert 7, .revert 0,
    .edit (.addLog ⟨2, [5], [6], 0, 0, 0, 0⟩), .finalise]

def nestedAccounts : ExtTreeMap Address Account :=
  (∅ : ExtTreeMap Address Account).insert 1 { balance := 5, storage := Storage.write ∅ 1 7 }

theorem journal_refines_copies_nested :
    observations World.perform World.toLedger { accounts := nestedAccounts } nestedActions =
      observations CopyStack.perform CopyStack.ledger { ledger := { accounts := nestedAccounts } }
        nestedActions := by
  apply journal_refines_copies
  · exact Ledger.noZeroSlots_empty.setAccount 1 (Storage.noZero_empty.write 1 7)
  · simp only [nestedActions, CopyStack.AdmitsAll, CopyStack.Admits, true_and, and_true]
    decide +kernel

end MeteredLedger
