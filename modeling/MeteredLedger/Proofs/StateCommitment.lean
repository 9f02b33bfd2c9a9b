import MeteredLedger.Proofs.MerkleBinding
import MeteredLedger.World.Basic

/-!
# The state root commits to the accounts

The leaf of an account spells its nonce, its balance, its code hash and the root of its storage, each
in a fixed number of bytes.  So the state root is a function of these four for every address, and it
can be opened twice: the root gives the leaves, and the storage root in a leaf gives the slots.
-/

namespace MeteredLedger

open Std

theorem Storage.ext_of_toBytes {s s' : Storage}
    (h : ∀ key : Word, s[key]?.map Word.toBytes = s'[key]?.map Word.toBytes) : s = s' := by
  apply ExtTreeMap.ext_getElem?
  intro key
  exact Option.map_injective (fun _ _ ↦ Word.toBytes_inj) (h key)

/-- The tree over the slots. -/
def Storage.tree (s : Storage) : MerkleTree :=
  MerkleTree.ofList (s.toList.map fun e ↦ (e.1.toBytes, e.2.toBytes))

/-- The tree over the leaves of the accounts. -/
def Ledger.accountTree (l : Ledger) : MerkleTree :=
  MerkleTree.ofList (l.accounts.toList.map fun e ↦ (e.1.toBytes, e.2.toLeaf))

/-- All strings hashed while the state root and the storage roots under it are computed. -/
def Ledger.rootInputs (l : Ledger) : List Bytes :=
  l.accountTree.inputs ++ l.accounts.toList.flatMap fun e ↦ e.2.storage.tree.inputs

/-- All of an account but the code behind the code hash. -/
def Account.content (a : Account) : Nonce × Wei × Hash × Storage :=
  (a.nonce, a.balance, a.codeHash, a.storage)

namespace Account

theorem leafBytes_inj {nonce nonce' : Nonce} {balance balance' : Wei}
    {codeHash codeHash' root root' : Hash}
    (h : leafBytes nonce balance codeHash root = leafBytes nonce' balance' codeHash' root') :
    nonce = nonce' ∧ balance = balance' ∧ codeHash = codeHash' ∧ root = root' := by
  obtain ⟨hnonce, h⟩ := List.append_inj h (by simp)
  obtain ⟨hbalance, h⟩ := List.append_inj h (by simp)
  obtain ⟨hcode, hroot⟩ := List.append_inj h (by simp)
  refine ⟨?_, ?_, Word.toBytes_inj hcode, Word.toBytes_inj hroot⟩
  · exact UInt64.toNat_inj.mp (Bytes.leBytes_inj nonce.toNat_lt nonce'.toNat_lt hnonce)
  · exact BitVec.eq_of_toNat_eq (Bytes.leBytes_inj balance.isLt balance'.isLt hbalance)

theorem toLeaf_eq : toLeaf = (fun c ↦ leafBytes c.1 c.2.1 c.2.2.1 c.2.2.2.root) ∘ content := rfl

end Account

/-! ## Opening the roots -/

theorem Ledger.mem_rootInputs_of_storage {l : Ledger} {a : Address} {acct : Account}
    (ha : l.accounts[a]? = some acct) : ∀ x ∈ acct.storage.tree.inputs, x ∈ l.rootInputs := by
  intro x hx
  have hmem : (a, acct) ∈ l.accounts.toList := ExtTreeMap.mem_toList_iff_getElem?_eq_some.mpr ha
  exact List.mem_append_right _ (List.mem_flatMap.mpr ⟨_, hmem, hx⟩)

section Opening

variable {S : Set Bytes} (hinj : Set.InjOn blake3 S) (hzero : ∀ x ∈ S, blake3 x ≠ 0)

include hinj hzero

theorem Storage.eq_of_root_eq {s s' : Storage} (hs : ∀ x ∈ s.tree.inputs, x ∈ S)
    (hs' : ∀ x ∈ s'.tree.inputs, x ∈ S) (h : s.root = s'.root) : s = s' := by
  apply Storage.ext_of_toBytes
  exact MerkleTree.map_eq_of_root_eq hinj hzero (fun _ _ ↦ Word.toBytes_inj) (by simp) hs hs' h

theorem Account.content_eq_of_toLeaf_eq {a a' : Account} (ha : ∀ x ∈ a.storage.tree.inputs, x ∈ S)
    (ha' : ∀ x ∈ a'.storage.tree.inputs, x ∈ S) (h : a.toLeaf = a'.toLeaf) :
    a.content = a'.content := by
  obtain ⟨hnonce, hbalance, hcode, hroot⟩ := Account.leafBytes_inj h
  have hstorage := Storage.eq_of_root_eq hinj hzero ha ha' hroot
  simp only [content, hnonce, hbalance, hcode, hstorage]

theorem Ledger.content_eq_of_stateRoot_eq {l l' : Ledger} (hl : ∀ x ∈ l.rootInputs, x ∈ S)
    (hl' : ∀ x ∈ l'.rootInputs, x ∈ S) (h : l.stateRoot = l'.stateRoot) (a : Address) :
    l.accounts[a]?.map Account.content = l'.accounts[a]?.map Account.content := by
  have hleaf : l.accounts[a]?.map Account.toLeaf = l'.accounts[a]?.map Account.toLeaf :=
    MerkleTree.map_eq_of_root_eq hinj hzero (fun _ _ ↦ Address.toBytes_inj) (by simp)
      (fun x hx ↦ hl x (List.mem_append_left _ hx)) (fun x hx ↦ hl' x (List.mem_append_left _ hx)) h a
  cases ha : l.accounts[a]? with
  | none =>
      cases ha' : l'.accounts[a]? with
      | none => rfl
      | some acct' => simp [ha, ha'] at hleaf
  | some acct =>
      cases ha' : l'.accounts[a]? with
      | none => simp [ha, ha'] at hleaf
      | some acct' =>
          simp only [ha, ha', Option.map_some, Option.some.injEq] at hleaf ⊢
          exact Account.content_eq_of_toLeaf_eq hinj hzero
            (fun x hx ↦ hl x (Ledger.mem_rootInputs_of_storage ha x hx))
            (fun x hx ↦ hl' x (Ledger.mem_rootInputs_of_storage ha' x hx)) hleaf

end Opening

theorem Ledger.stateRoot_congr {l l' : Ledger}
    (h : ∀ a : Address, l.accounts[a]?.map Account.content = l'.accounts[a]?.map Account.content) :
    l.stateRoot = l'.stateRoot := by
  have hleaf : ∀ a : Address,
      l.accounts[a]?.map Account.toLeaf = l'.accounts[a]?.map Account.toLeaf := by
    intro a
    rw [Account.toLeaf_eq, ← Option.map_map, ← Option.map_map, h a]
  have htree : l.accountTree = l'.accountTree :=
    (MerkleTree.ofList_map_eq_iff fun _ _ ↦ Address.toBytes_inj).mpr hleaf
  exact congrArg MerkleTree.root htree

/-- The state root is a function of the nonce, the balance, the code hash and the storage at every
address.  If the digest tells apart what is hashed for the roots of two states and maps none of it to
the root of an empty tree, states with the same root have the same addresses with the same nonce,
balance, code hash and storage. -/
theorem state_root_commits_to_accounts (w w' : World) :
    ((∀ a, (w.account? a).map Account.content = (w'.account? a).map Account.content) →
      w.stateRoot = w'.stateRoot) ∧
    (Set.InjOn blake3 {x | x ∈ w.rootInputs ∨ x ∈ w'.rootInputs} →
      (∀ x, x ∈ w.rootInputs ∨ x ∈ w'.rootInputs → blake3 x ≠ 0) →
      w.stateRoot = w'.stateRoot →
      ∀ a, (w.account? a).map Account.content = (w'.account? a).map Account.content) := by
  constructor
  · exact Ledger.stateRoot_congr
  · intro hinj hzero hroot
    exact Ledger.content_eq_of_stateRoot_eq hinj hzero (fun _ ↦ .inl) (fun _ ↦ .inr) hroot

def slottedAccount : Account where
  nonce := 1
  balance := 5
  codeHash := 7
  storage := (∅ : Storage).insert 1 2

def plainAccount : Account where
  balance := 6
  codeHash := 8

def settledWorld : World :=
  (({} : World).placeAccount 17 slottedAccount).placeAccount 18 plainAccount

/-- The same accounts with code, reached another way, in the middle of a transaction. -/
def busyWorld : World :=
  ((({ refund := 3, txIndex := 2 } : World).placeAccount 18
    { plainAccount with code := [1] }).placeAccount 17 slottedAccount).addLog
      { address := 17, topics := [], data := [4] }

theorem settledWorld_digests : settledWorld.rootInputs.map blake3 =
    [MerkleTree.leaf (17 : Address).toBytes slottedAccount.toLeaf,
      MerkleTree.leaf (18 : Address).toBytes plainAccount.toLeaf,
      MerkleTree.inner (MerkleTree.leaf (17 : Address).toBytes slottedAccount.toLeaf)
        (MerkleTree.leaf (18 : Address).toBytes plainAccount.toLeaf),
      MerkleTree.leaf (1 : Word).toBytes (2 : Word).toBytes] := rfl

theorem settledWorld_distinct : (0 :: settledWorld.rootInputs.map blake3).Nodup := by
  have hslot : MerkleTree.leaf (1 : Word).toBytes (2 : Word).toBytes =
      0x95b4e0b4e3292a6ee759ae880bb5eb5a4ead4dc2e5c52e54f59ff6ae8397fb44 := by decide +kernel
  have hleaf : slottedAccount.toLeaf = Account.leafBytes 1 5 7
      (MerkleTree.leaf (1 : Word).toBytes (2 : Word).toBytes) := rfl
  have hslotted : MerkleTree.leaf (17 : Address).toBytes (Account.leafBytes 1 5 7
      0x95b4e0b4e3292a6ee759ae880bb5eb5a4ead4dc2e5c52e54f59ff6ae8397fb44) =
      0xd70bb55200ca7cf4d16524c046300109bc4b10ad4eca6ad1091422ce16023023 := by decide +kernel
  have hplain : MerkleTree.leaf (18 : Address).toBytes plainAccount.toLeaf =
      0xbd09d7904786db00d7e3d85741f9822635eac62c05589810fc48617c7eccccfa := by decide +kernel
  have htop : MerkleTree.inner 0xd70bb55200ca7cf4d16524c046300109bc4b10ad4eca6ad1091422ce16023023
      0xbd09d7904786db00d7e3d85741f9822635eac62c05589810fc48617c7eccccfa =
      0x9131a00c8b67ca5a3fb053ea8f547348c1f81a46e781ca99f2b3bbee4198d94f := by decide +kernel
  rw [settledWorld_digests, hleaf, hslot, hslotted, hplain, htop]
  decide

theorem busy_world_has_the_settled_root :
    settledWorld.stateRoot = busyWorld.stateRoot ∧ settledWorld.rootInputs.length = 4 ∧
      ∀ a, (settledWorld.account? a).map Account.content =
        (busyWorld.account? a).map Account.content := by
  obtain ⟨hforward, hback⟩ := state_root_commits_to_accounts settledWorld busyWorld
  have hroot : settledWorld.stateRoot = busyWorld.stateRoot := by
    apply hforward
    intro a
    simp only [World.account?, settledWorld, busyWorld, World.addLog, World.record,
      World.placeAccount, ExtTreeMap.getElem?_insert, Std.compare_eq_iff_eq]
    by_cases hslotted : 17 = a
    · subst hslotted
      rfl
    · simp only [hslotted, if_false]
      split <;> rfl
  have hinputs : busyWorld.rootInputs = settledWorld.rootInputs := rfl
  obtain ⟨hinj, hzero⟩ := MerkleTree.injOn_of_distinct settledWorld_distinct
  refine ⟨hroot, rfl, hback ?_ ?_ hroot⟩
  · simpa only [hinputs, or_self] using hinj
  · simpa only [hinputs, or_self] using hzero

end MeteredLedger
