import Mathlib.Data.Set.Insert
import Mathlib.Tactic.SplitIfs
import Mathlib.Tactic.Tauto
import MeteredLedger.Proofs.Conservation

/-!
# Movements of funds

Counting nonces up and moving funds, as long as no balance meets an end of its range, changes a
ledger in a way that does not depend on the ledger: some addresses have accounts afterwards, some
nonces are so much higher, some balances so much higher or lower.  Such movements add up, and they do
so in any order.
-/

namespace MeteredLedger

open Std

/-- The addresses that a movement places accounts at, how far it counts nonces up, and by how much it
changes balances and their sum. -/
@[ext] structure Movement where
  placed : Set Address
  counted : Address → Nat
  paid : Address → Int
  minted : Int

namespace Movement

instance : Zero Movement := ⟨⟨∅, fun _ ↦ 0, fun _ ↦ 0, 0⟩⟩

instance : Add Movement where
  add δ ε :=
    ⟨δ.placed ∪ ε.placed, fun a ↦ δ.counted a + ε.counted a, fun a ↦ δ.paid a + ε.paid a,
      δ.minted + ε.minted⟩

/-- The movement that counts the nonce of one account up and changes its balance. -/
def single (a : Address) (count : Nat) (amount : Int) : Movement where
  placed := {a}
  counted b := if b = a then count else 0
  paid b := if b = a then amount else 0
  minted := amount

/-- The movement of an amount from one account to another.  Nothing at all places no account. -/
def transfer (sender receiver : Address) (amount : Nat) : Movement where
  placed := {a | a = receiver ∧ amount ≠ 0}
  counted _ := 0
  paid a := (if a = receiver then amount else 0) - if a = sender then amount else 0
  minted := 0

theorem zero_def : (0 : Movement) = ⟨∅, fun _ ↦ 0, fun _ ↦ 0, 0⟩ := rfl

theorem add_def (δ ε : Movement) :
    δ + ε = ⟨δ.placed ∪ ε.placed, fun a ↦ δ.counted a + ε.counted a, fun a ↦ δ.paid a + ε.paid a,
      δ.minted + ε.minted⟩ := rfl

theorem add_comm (δ ε : Movement) : δ + ε = ε + δ := by
  simp only [add_def, Set.union_comm, Nat.add_comm, Int.add_comm]

theorem transfer_zero (sender receiver : Address) : transfer sender receiver 0 = 0 := by
  rw [zero_def]
  ext a <;> simp [transfer]

/-- Placing an account that is paid afterwards. -/
theorem single_zero_add (a b : Address) (x y : Int) :
    single a 0 0 + (single b 0 x + single a 0 y) = single b 0 x + single a 0 y := by
  ext c <;> simp [add_def, single, or_comm]

/-- A price paid in advance of which part is paid back comes down to the rest of it. -/
theorem prepaid_eq (payer payee : Address) (δ : Movement) {price back fee : Nat}
    (h : back + fee = price) :
    single payer 0 (-price) + single payer 1 0 + δ + (single payer 0 back + single payee 0 fee) =
      single payer 1 (-fee) + δ + single payee 0 fee := by
  subst h
  ext a
  · simp only [add_def, single, Set.mem_union, Set.mem_singleton_iff]
    tauto
  · simp only [add_def, single]
    split_ifs <;> omega
  · simp only [add_def, single]
    split_ifs <;> omega
  · simp only [add_def, single]
    omega

end Movement

namespace Ledger

/-- The second ledger is the first one after a movement; nothing else differs. -/
structure Moves (l l' : Ledger) (δ : Movement) : Prop where
  present : ∀ a : Address, l'.accounts[a]?.isSome ↔ l.accounts[a]?.isSome ∨ a ∈ δ.placed
  account : ∀ a : Address, l'.accountAt a =
    { l.accountAt a with nonce := (l'.accountAt a).nonce, balance := (l'.accountAt a).balance }
  nonce : ∀ a : Address,
    (l'.accountAt a).nonce.toNat = (l.accountAt a).nonce.toNat + δ.counted a
  balance : ∀ a : Address,
    ((l'.accountAt a).balance.toNat : Int) = (l.accountAt a).balance.toNat + δ.paid a
  total : (l'.totalBalance : Int) = l.totalBalance + δ.minted
  refund : l'.refund = l.refund
  logs : l'.logs = l.logs
  logCount : l'.logCount = l.logCount

namespace Moves

variable {l l' l₁ l₂ l₃ : Ledger} {δ ε : Movement}

theorem refl (l : Ledger) : l.Moves l 0 := by
  rw [Movement.zero_def]
  constructor <;> simp

theorem trans (h : l₁.Moves l₂ δ) (h' : l₂.Moves l₃ ε) : l₁.Moves l₃ (δ + ε) where
  present a := by rw [h'.present, h.present, Movement.add_def, Set.mem_union, or_assoc]
  account a := by
    have hsecond := h'.account a
    rw [h.account a] at hsecond
    exact hsecond
  nonce a := by rw [h'.nonce, h.nonce, Movement.add_def, Nat.add_assoc]
  balance a := by rw [h'.balance, h.balance, Movement.add_def, Int.add_assoc]
  total := by rw [h'.total, h.total, Movement.add_def, Int.add_assoc]
  refund := h'.refund.trans h.refund
  logs := h'.logs.trans h.logs
  logCount := h'.logCount.trans h.logCount

theorem total_le (h : l.Moves l' δ) (hminted : δ.minted ≤ 0) {bound : Nat}
    (hle : l.totalBalance ≤ bound) : l'.totalBalance ≤ bound := by
  have hsum := h.total
  omega

/-- Where there is an account, a movement need not say that it places one. -/
theorem congr_placed (h : l.Moves l' δ)
    (hplaced : ∀ a, l.accounts[a]? = none → (a ∈ δ.placed ↔ a ∈ ε.placed))
    (hcounted : δ.counted = ε.counted) (hpaid : δ.paid = ε.paid) (hminted : δ.minted = ε.minted) :
    l.Moves l' ε where
  present a := by
    rw [h.present]
    cases hget : l.accounts[a]? with
    | none => simp [hplaced a hget]
    | some acct => simp
  account := h.account
  nonce := hcounted ▸ h.nonce
  balance := hpaid ▸ h.balance
  total := hminted ▸ h.total
  refund := h.refund
  logs := h.logs
  logCount := h.logCount

/-- A debit and a credit of the same amount are a transfer, where the payer has an account and so has
the payee unless there is something to credit. -/
theorem transfer {sender receiver : Address} {amount : Nat}
    (h : l.Moves l' (.single sender 0 (-amount) + .single receiver 0 amount))
    (hsender : l.accounts[sender]?.isSome)
    (hreceiver : l.accounts[receiver]?.isSome ∨ amount ≠ 0) :
    l.Moves l' (.transfer sender receiver amount) := by
  refine h.congr_placed ?_ ?_ ?_ ?_
  · intro a hmissing
    have hother : a ≠ sender := by
      rintro rfl
      simp [hmissing] at hsender
    have hamount : a = receiver → amount ≠ 0 := by
      rintro rfl
      simpa [hmissing] using hreceiver
    simpa [Movement.add_def, Movement.single, Movement.transfer, hother] using hamount
  · simp [Movement.add_def, Movement.single, Movement.transfer]
  · funext a
    simp only [Movement.add_def, Movement.single, Movement.transfer]
    split_ifs <;> omega
  · simp only [Movement.add_def, Movement.single, Movement.transfer]
    omega

theorem account_unique (h : l.Moves l₁ δ) (h' : l.Moves l₂ δ) (a : Address) :
    l₁.accountAt a = l₂.accountAt a := by
  have hnonce : (l₁.accountAt a).nonce = (l₂.accountAt a).nonce := by
    rw [← UInt64.toNat_inj, h.nonce, h'.nonce]
  have hbalance : (l₁.accountAt a).balance = (l₂.accountAt a).balance := by
    have hfirst := h.balance a
    have hsecond := h'.balance a
    apply BitVec.eq_of_toNat_eq
    omega
  rw [h.account a, h'.account a, hnonce, hbalance]

theorem getElem?_eq (l : Ledger) (a : Address) :
    l.accounts[a]? = if l.accounts[a]?.isSome then some (l.accountAt a) else none := by
  cases hget : l.accounts[a]? with
  | none => rfl
  | some acct => rw [accountAt_of_present hget]; rfl

/-- A movement leads to one ledger only. -/
theorem unique (h : l.Moves l₁ δ) (h' : l.Moves l₂ δ) : l₁ = l₂ := by
  have haccounts : l₁.accounts = l₂.accounts := by
    apply ExtTreeMap.ext_getElem?
    intro a
    have hpresent : l₁.accounts[a]?.isSome = l₂.accounts[a]?.isSome := by
      rw [Bool.eq_iff_iff, h.present, h'.present]
    rw [getElem?_eq l₁, getElem?_eq l₂, hpresent, h.account_unique h' a]
  have hrefund := h.refund.trans h'.refund.symm
  have hlogs := h.logs.trans h'.logs.symm
  have hcount := h.logCount.trans h'.logCount.symm
  cases l₁
  cases l₂
  simp_all

theorem setAccount (l : Ledger) (a : Address) {acct : Account} {count : Nat} {amount : Int}
    (hsame : acct = { l.accountAt a with nonce := acct.nonce, balance := acct.balance })
    (hnonce : acct.nonce.toNat = (l.accountAt a).nonce.toNat + count)
    (hbalance : (acct.balance.toNat : Int) = (l.accountAt a).balance.toNat + amount) :
    l.Moves (l.setAccount a acct) (.single a count amount) where
  present b := by
    rw [setAccount_accounts, Movement.single, Set.mem_singleton_iff]
    by_cases hab : a = b
    · simp [hab]
    · simp [hab, Ne.symm hab]
  account b := by
    rw [accountAt_setAccount]
    split
    · rename_i hab
      rw [← hab]
      exact hsame
    · rfl
  nonce b := by
    rw [accountAt_setAccount, Movement.single]
    by_cases hab : a = b
    · simp [← hab, hnonce]
    · simp [hab, Ne.symm hab]
  balance b := by
    rw [accountAt_setAccount, Movement.single]
    by_cases hab : a = b
    · simp [← hab, hbalance]
    · simp [hab, Ne.symm hab]
  total := by
    have hsum := totalBalance_setAccount l a acct
    simp only [Movement.single]
    omega
  refund := rfl
  logs := rfl
  logCount := rfl

end Moves

end Ledger

/-! ## Single changes -/

namespace World

variable {w : World} {a : Address} {amount : Wei}

theorem code_of_moves {w' : World} {δ : Movement} (h : w.toLedger.Moves w'.toLedger δ) (a : Address) :
    w'.code a = w.code a := by
  rw [code_eq, code_eq, h.account a]

theorem moves_subBalance (h : amount ≤ w.balance a) :
    w.toLedger.Moves (w.subBalance a amount).toLedger (.single a 0 (-amount.toNat)) := by
  rw [balance_eq, BitVec.le_def] at h
  rw [subBalance_toLedger]
  refine Ledger.Moves.setAccount w.toLedger a rfl rfl ?_
  rw [Wei.toNat_subClamped]
  omega

/-- A credit that the sum of all balances leaves room for. -/
theorem moves_addBalance (w : World) (a : Address) (amount : Wei)
    (h : w.totalBalance + amount.toNat ≤ Wei.maxNat) :
    w.toLedger.Moves (w.addBalance a amount).toLedger (.single a 0 amount.toNat) := by
  have hle := w.balance_le_totalBalance a
  rw [addBalance_toLedger]
  refine Ledger.Moves.setAccount w.toLedger a rfl rfl ?_
  rw [Wei.toNat_addClamped]
  omega

theorem moves_setNonce {next : Nonce} (h : (w.nonce a).next? = some next) :
    w.toLedger.Moves (w.setNonce a next).toLedger (.single a 1 0) := by
  rw [nonce_eq, Nonce.next?_eq_some_iff] at h
  obtain ⟨hsmall, rfl⟩ := h
  rw [setNonce_toLedger]
  exact Ledger.Moves.setAccount w.toLedger a rfl (Nonce.toNat_succ hsmall) (by simp)

theorem moves_createAccount (h : w.accounts[a]? = none) :
    w.toLedger.Moves (w.createAccount a).toLedger (.single a 0 0) := by
  have hfresh := Ledger.accountAt_of_missing h
  rw [createAccount_toLedger]
  refine Ledger.Moves.setAccount w.toLedger a ?_ ?_ ?_ <;> simp [hfresh]

theorem moves_transfer {sender : Address} (receiver : Address) (hfunds : amount ≤ w.balance sender)
    (htotal : w.totalBalance ≤ Wei.maxNat) :
    w.toLedger.Moves (w.transfer sender receiver amount).toLedger
      (.single sender 0 (-amount.toNat) + .single receiver 0 amount.toNat) := by
  have hsum := totalBalance_subBalance hfunds
  exact (moves_subBalance hfunds).trans (moves_addBalance _ receiver amount (by omega))

end World

end MeteredLedger
