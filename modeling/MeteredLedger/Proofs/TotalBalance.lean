import Mathlib.Algebra.Ring.Nat
import Mathlib.Data.List.Perm.Basic
import MeteredLedger.Proofs.Rewind

/-!
# The sum of all balances

Placing an account changes the sum of all balances by the difference between the new balance at its
address and the old one, and the sum depends on nothing but what can be read of the accounts.  What
the changes of the ledger do to the sum follows from these two facts.
-/

namespace MeteredLedger

open Std

/-! ## Sums over amounts by address -/

section Amounts

variable {m : ExtTreeMap Address Wei} {a : Address}

def sumOfAmounts (m : ExtTreeMap Address Wei) : Nat := (m.toList.map fun e ↦ e.2.toNat).sum

theorem nodup_toList (m : ExtTreeMap Address Wei) : m.toList.Nodup := by
  apply ExtTreeMap.distinct_keys_toList.imp
  rintro x y hkeys rfl
  exact hkeys ReflCmp.compare_self

theorem toList_insert_perm (h : m[a]? = none) (v : Wei) :
    (m.insert a v).toList.Perm ((a, v) :: m.toList) := by
  have hnew : (a, v) ∉ m.toList := by
    rw [ExtTreeMap.mem_toList_iff_getElem?_eq_some, h]
    simp
  rw [List.perm_ext_iff_of_nodup (nodup_toList _) (List.nodup_cons.mpr ⟨hnew, nodup_toList m⟩)]
  rintro ⟨b, x⟩
  rw [List.mem_cons, ExtTreeMap.mem_toList_iff_getElem?_eq_some,
    ExtTreeMap.mem_toList_iff_getElem?_eq_some, ExtTreeMap.getElem?_insert]
  by_cases hab : a = b
  · subst hab
    simp [h, eq_comm]
  · simp [hab, Ne.symm hab]

theorem sumOfAmounts_insert_missing (h : m[a]? = none) (v : Wei) :
    sumOfAmounts (m.insert a v) = v.toNat + sumOfAmounts m := by
  have hperm := ((toList_insert_perm h v).map fun e ↦ e.2.toNat).sum_nat
  simpa [sumOfAmounts] using hperm

/-- The amount at an address is replaced in the sum. -/
theorem sumOfAmounts_insert (m : ExtTreeMap Address Wei) (a : Address) (v : Wei) :
    sumOfAmounts (m.insert a v) + (m[a]?.getD (0 : Wei)).toNat = sumOfAmounts m + v.toNat := by
  have hgone : (m.erase a)[a]? = none := by simp
  have hinsert : m.insert a v = (m.erase a).insert a v := by
    ext
    grind
  rw [hinsert, sumOfAmounts_insert_missing hgone]
  cases hget : m[a]? with
  | none =>
      have herase : m.erase a = m := by
        ext
        grind
      simp [herase, Nat.add_comm]
  | some old =>
      have hback : (m.erase a).insert a old = m := by
        ext
        grind
      have hold := sumOfAmounts_insert_missing hgone old
      rw [hback] at hold
      simp only [Option.getD_some]
      omega

end Amounts

/-! ## The total of a ledger -/

namespace Ledger

/-- The sum of the balances of all accounts. -/
def totalBalance (l : Ledger) : Nat := (l.accounts.toList.map fun e ↦ e.2.balance.toNat).sum

theorem totalBalance_eq (l : Ledger) :
    l.totalBalance = sumOfAmounts (l.accounts.map fun _ acct ↦ acct.balance) := by
  simp only [totalBalance, sumOfAmounts, ExtTreeMap.toList_map, List.map_map]
  rfl

theorem totalBalance_setAccount (l : Ledger) (a : Address) (acct : Account) :
    (l.setAccount a acct).totalBalance + (l.accountAt a).balance.toNat =
      l.totalBalance + acct.balance.toNat := by
  have hmap : ((l.setAccount a acct).accounts.map fun _ x ↦ x.balance) =
      (l.accounts.map fun _ x ↦ x.balance).insert a acct.balance := by
    apply ExtTreeMap.ext_getElem?
    intro b
    rw [ExtTreeMap.getElem?_map, setAccount_accounts, ExtTreeMap.getElem?_insert,
      ExtTreeMap.getElem?_map]
    by_cases hab : a = b <;> simp [hab]
  have hold : ((l.accounts.map fun _ x ↦ x.balance)[a]?.getD 0) = (l.accountAt a).balance := by
    rw [ExtTreeMap.getElem?_map, accountAt]
    cases l.accounts[a]? <;> rfl
  rw [totalBalance_eq, totalBalance_eq, hmap, ← hold]
  exact sumOfAmounts_insert _ a acct.balance

theorem totalBalance_setAccount_of_balance {l : Ledger} {a : Address} {acct : Account}
    (h : acct.balance = (l.accountAt a).balance) :
    (l.setAccount a acct).totalBalance = l.totalBalance := by
  have hsum := totalBalance_setAccount l a acct
  rw [h] at hsum
  omega

theorem balance_le_totalBalance (l : Ledger) (a : Address) :
    (l.accountAt a).balance.toNat ≤ l.totalBalance := by
  have hsum := totalBalance_setAccount l a { balance := 0 }
  have hzero : (0 : Wei).toNat = 0 := rfl
  rw [hzero] at hsum
  omega

theorem ReadAlike.totalBalance_eq {l₁ l₂ : Ledger} (h : ReadAlike l₁ l₂) :
    l₁.totalBalance = l₂.totalBalance := by
  have hmap : (l₁.accounts.map fun _ x ↦ x.balance) = l₂.accounts.map fun _ x ↦ x.balance := by
    apply ExtTreeMap.ext_getElem?
    intro a
    have hview := congrArg (Option.map Account.View.balance) (h a)
    simpa [ExtTreeMap.getElem?_map, Option.map_map, Function.comp_def, Account.view] using hview
  rw [Ledger.totalBalance_eq, Ledger.totalBalance_eq, hmap]

end Ledger

end MeteredLedger
