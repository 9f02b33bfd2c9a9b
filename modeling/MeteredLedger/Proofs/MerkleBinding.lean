import Mathlib.Data.List.Induction
import Mathlib.Data.List.Nodup
import Mathlib.Data.Set.Function
import MeteredLedger.MerkleTree
import MeteredLedger.Word.Lemmas

/-!
# What a root commits to

A root is computed level by level, but every digest on the way is the digest of a tree of joined
leaves, and the leaves of that tree, read from left to right, are a stretch of the entries.  So the
whole computation is one tree with all entries at its leaves.  If the digest tells apart the strings
that are hashed, two such trees with the same digest are the same tree, whatever their shapes: leaves
and inner nodes differ in their first byte, a leaf spells its key and value, and an inner node the
digests below it.
-/

namespace MeteredLedger

namespace MerkleTree

/-! ## What is hashed -/

/-- The strings hashed to make the next level. -/
def joinInputs : List Hash → List Bytes
  | left :: right :: rest => innerBytes left right :: joinInputs rest
  | _ => []

/-- The strings hashed while a level is joined the given number of times. -/
def climbInputs : Nat → List Hash → List Bytes
  | 0, _ => []
  | rounds + 1, level => joinInputs level ++ climbInputs rounds (joinPairs level)

def leaves (t : MerkleTree) : List Hash := t.entries.toList.map fun e ↦ leaf e.1 e.2

/-- All strings hashed while the root is computed. -/
def inputs (t : MerkleTree) : List Bytes :=
  t.entries.toList.map (fun e ↦ leafBytes e.1 e.2) ++ climbInputs t.leaves.length t.leaves

theorem leafBytes_inj {key key' value value' : Bytes} (hkey : key.length < 2 ^ 32)
    (hkey' : key'.length < 2 ^ 32) (h : leafBytes key value = leafBytes key' value') :
    key = key' ∧ value = value' := by
  simp only [leafBytes, List.cons.injEq, true_and, List.append_assoc] at h
  obtain ⟨hlength, hrest⟩ := List.append_inj h (by simp)
  exact List.append_inj hrest (Bytes.leBytes_inj hkey hkey' hlength)

theorem innerBytes_inj {left left' right right' : Hash}
    (h : innerBytes left right = innerBytes left' right') : left = left' ∧ right = right' := by
  simp only [innerBytes, List.cons.injEq, true_and] at h
  obtain ⟨hleft, hright⟩ := List.append_inj h (by simp)
  exact ⟨Word.toBytes_inj hleft, Word.toBytes_inj hright⟩

theorem leafBytes_ne_innerBytes (key value : Bytes) (left right : Hash) :
    leafBytes key value ≠ innerBytes left right := by
  simp [leafBytes, innerBytes]

theorem length_joinPairs (level : List Hash) :
    (joinPairs level).length = (level.length + 1) / 2 := by
  induction level using List.twoStepInduction with
  | nil => rfl
  | singleton last => simp [joinPairs]
  | cons_cons left right rest ih _ =>
      simp only [joinPairs, List.length_cons, ih]
      omega

/-! ## Trees of digests -/

/-- A digest by the way it was made. -/
inductive Node where
  | leaf (key value : Bytes)
  | inner (left right : Node)

namespace Node

def digest : Node → Hash
  | leaf key value => MerkleTree.leaf key value
  | inner left right => MerkleTree.inner left.digest right.digest

/-- The entries at the leaves, from left to right. -/
def entries : Node → List (Bytes × Bytes)
  | leaf key value => [(key, value)]
  | inner left right => left.entries ++ right.entries

/-- All strings hashed for the node are among the given ones. -/
def Within (S : Set Bytes) : Node → Prop
  | leaf key value => leafBytes key value ∈ S
  | inner left right => innerBytes left.digest right.digest ∈ S ∧ left.Within S ∧ right.Within S

variable {S : Set Bytes}

theorem exists_digest_eq {n : Node} (h : n.Within S) : ∃ x ∈ S, n.digest = blake3 x := by
  cases n with
  | leaf key value => exact ⟨_, h, rfl⟩
  | inner left right => exact ⟨_, h.1, rfl⟩

theorem eq_of_digest_eq (hinj : Set.InjOn blake3 S) {n n' : Node} (hn : n.Within S)
    (hn' : n'.Within S) (hkeys : ∀ e ∈ n.entries, e.1.length < 2 ^ 32)
    (hkeys' : ∀ e ∈ n'.entries, e.1.length < 2 ^ 32) (h : n.digest = n'.digest) : n = n' := by
  induction n generalizing n' with
  | leaf key value =>
      cases n' with
      | leaf key' value' =>
          obtain ⟨rfl, rfl⟩ := leafBytes_inj (hkeys (key, value) List.mem_cons_self)
            (hkeys' (key', value') List.mem_cons_self) (hinj hn hn' h)
          rfl
      | inner left' right' =>
          exact absurd (hinj hn hn'.1 h) (leafBytes_ne_innerBytes _ _ _ _)
  | inner left right ihleft ihright =>
      cases n' with
      | leaf key' value' =>
          exact absurd (hinj hn.1 hn' h).symm (leafBytes_ne_innerBytes _ _ _ _)
      | inner left' right' =>
          obtain ⟨hleft, hright⟩ := innerBytes_inj (hinj hn.1 hn'.1 h)
          simp only [entries, List.forall_mem_append] at hkeys hkeys'
          rw [ihleft hn.2.1 hn'.2.1 hkeys.1 hkeys'.1 hleft,
            ihright hn.2.2 hn'.2.2 hkeys.2 hkeys'.2 hright]

/-- The next level: neighbours are joined and an odd last one is carried up. -/
def joinPairs : List Node → List Node
  | [] => []
  | [last] => [last]
  | left :: right :: rest => inner left right :: joinPairs rest

theorem map_digest_joinPairs (level : List Node) :
    (joinPairs level).map digest = MerkleTree.joinPairs (level.map digest) := by
  fun_induction joinPairs level with
  | case1 => rfl
  | case2 last => rfl
  | case3 left right rest ih => simp [MerkleTree.joinPairs, digest, ih]

theorem entries_joinPairs (level : List Node) :
    (joinPairs level).flatMap entries = level.flatMap entries := by
  fun_induction joinPairs level with
  | case1 => rfl
  | case2 last => rfl
  | case3 left right rest ih => simp [entries, ih]

theorem length_joinPairs (level : List Node) :
    (joinPairs level).length = (level.length + 1) / 2 := by
  rw [← List.length_map digest, map_digest_joinPairs, MerkleTree.length_joinPairs, List.length_map]

theorem within_joinPairs {level : List Node} (hlevel : ∀ n ∈ level, n.Within S)
    (hinputs : ∀ x ∈ joinInputs (level.map digest), x ∈ S) : ∀ n ∈ joinPairs level, n.Within S := by
  fun_induction joinPairs level with
  | case1 => exact hlevel
  | case2 last => exact hlevel
  | case3 left right rest ih =>
      simp only [List.forall_mem_cons] at hlevel
      simp only [List.map_cons, joinInputs, List.forall_mem_cons] at hinputs
      simp only [List.forall_mem_cons]
      exact ⟨⟨hinputs.1, hlevel.1, hlevel.2.1⟩, ih hlevel.2.2 hinputs.2⟩

/-- The digest at the top of a level is that of one tree with the same entries. -/
theorem exists_digest_eq_climb (rounds : Nat) (level : List Node) (hne : level ≠ [])
    (hlength : level.length ≤ rounds + 1) (hlevel : ∀ n ∈ level, n.Within S)
    (hinputs : ∀ x ∈ climbInputs rounds (level.map digest), x ∈ S) :
    ∃ n : Node, n.Within S ∧ n.entries = level.flatMap entries ∧
      n.digest = climb rounds (level.map digest) := by
  induction rounds generalizing level with
  | zero =>
      obtain ⟨n, rfl⟩ : ∃ n, level = [n] := by
        rw [← List.length_eq_one_iff]
        have hpos := List.length_pos_iff.mpr hne
        omega
      exact ⟨n, hlevel n List.mem_cons_self, by simp, rfl⟩
  | succ rounds ih =>
      simp only [climbInputs, List.forall_mem_append, ← map_digest_joinPairs] at hinputs
      have hpos := List.length_pos_iff.mpr hne
      have hshorter := length_joinPairs level
      have hne' : joinPairs level ≠ [] := by
        rw [← List.length_pos_iff]
        omega
      obtain ⟨n, hn, hentries, hdigest⟩ := ih _ hne' (by omega)
        (within_joinPairs hlevel hinputs.1) hinputs.2
      refine ⟨n, hn, hentries.trans (entries_joinPairs level), ?_⟩
      rw [hdigest, climb, map_digest_joinPairs]

end Node

/-! ## Roots -/

section Roots

variable {t t' : MerkleTree} {S : Set Bytes}

theorem eq_of_getElem?_eq (h : ∀ key : Bytes, t.entries[key]? = t'.entries[key]?) : t = t' :=
  congrArg MerkleTree.mk (Std.ExtTreeMap.ext_getElem? h)

theorem root_of_isEmpty (h : t.entries.toList = []) : t.root = 0 := by
  rw [root, h]
  rfl

theorem exists_digest_eq_root (hne : t.entries.toList ≠ []) (hinputs : ∀ x ∈ t.inputs, x ∈ S) :
    ∃ n : Node, n.Within S ∧ n.entries = t.entries.toList ∧ n.digest = t.root := by
  obtain ⟨hleafInputs, hclimbInputs⟩ := List.forall_mem_append.mp hinputs
  have hleaves : (t.entries.toList.map fun e ↦ Node.leaf e.1 e.2).map Node.digest = t.leaves := by
    rw [List.map_map]
    rfl
  have hwithin : ∀ n ∈ t.entries.toList.map (fun e ↦ Node.leaf e.1 e.2), n.Within S :=
    List.forall_mem_map.mpr (fun e he ↦ hleafInputs _ (List.mem_map_of_mem he))
  rw [← hleaves, List.length_map] at hclimbInputs
  obtain ⟨n, hn, hentries, hdigest⟩ := Node.exists_digest_eq_climb _ _
    (mt List.map_eq_nil_iff.mp hne) (Nat.le_succ _) hwithin hclimbInputs
  refine ⟨n, hn, ?_, ?_⟩
  · simp [hentries, List.flatMap_map, Node.entries]
  · rw [hdigest, hleaves, root, rootOf]
    simp [leaves]

/-- Only the empty tree has the root zero. -/
theorem root_eq_zero_iff (hzero : ∀ x ∈ t.inputs, blake3 x ≠ 0) :
    t.root = 0 ↔ t.entries.toList = [] := by
  refine ⟨?_, root_of_isEmpty⟩
  intro hroot
  by_contra hne
  obtain ⟨n, hn, -, hdigest⟩ := exists_digest_eq_root (S := {x | x ∈ t.inputs}) hne fun _ h ↦ h
  obtain ⟨x, hx, hblake⟩ := Node.exists_digest_eq hn
  exact hzero x hx (hblake.symm.trans (hdigest.trans hroot))

/-- Trees with the same root are the same, if the digest tells apart what is hashed for them. -/
theorem eq_of_root_eq (hinj : Set.InjOn blake3 S) (hzero : ∀ x ∈ S, blake3 x ≠ 0)
    (ht : ∀ x ∈ t.inputs, x ∈ S) (ht' : ∀ x ∈ t'.inputs, x ∈ S)
    (hkeys : ∀ e ∈ t.entries.toList, e.1.length < 2 ^ 32)
    (hkeys' : ∀ e ∈ t'.entries.toList, e.1.length < 2 ^ 32) (h : t.root = t'.root) : t = t' := by
  have hempty : t.entries.toList = [] ↔ t'.entries.toList = [] := by
    rw [← root_eq_zero_iff fun x hx ↦ hzero x (ht x hx),
      ← root_eq_zero_iff fun x hx ↦ hzero x (ht' x hx), h]
  have hentries : t.entries.toList = t'.entries.toList := by
    by_cases hne : t.entries.toList = []
    · rw [hne, hempty.mp hne]
    · obtain ⟨n, hn, hentries, hdigest⟩ := exists_digest_eq_root hne ht
      obtain ⟨n', hn', hentries', hdigest'⟩ := exists_digest_eq_root (mt hempty.mpr hne) ht'
      rw [← hentries] at hkeys ⊢
      rw [← hentries'] at hkeys' ⊢
      rw [Node.eq_of_digest_eq hinj hn hn' hkeys hkeys' (by rw [hdigest, h, hdigest'])]
  exact congrArg MerkleTree.mk (Std.ExtTreeMap.toList_inj.mp hentries)

end Roots

/-- Strings whose digests differ from each other and from zero. -/
theorem injOn_of_distinct {inputs : List Bytes} (h : (0 :: inputs.map blake3).Nodup) :
    Set.InjOn blake3 {x | x ∈ inputs} ∧ ∀ x ∈ inputs, blake3 x ≠ 0 := by
  obtain ⟨hzero, hdistinct⟩ := List.nodup_cons.mp h
  refine ⟨List.inj_on_of_nodup_map hdistinct, ?_⟩
  intro x hx hdigest
  exact hzero (List.mem_map.mpr ⟨x, hx, hdigest⟩)

/-! ## Trees of encoded maps -/

section Maps

variable {α β : Type} [Ord α] [Std.TransOrd α] [Std.LawfulEqOrd α]

theorem getElem?_ofList {entries : List (Bytes × Bytes)} (hkeys : (entries.map (·.1)).Nodup)
    {key value : Bytes} : (ofList entries).entries[key]? = some value ↔ (key, value) ∈ entries := by
  induction entries using List.reverseRecOn with
  | nil => simp [ofList]
  | append_singleton entries e ih =>
      have hlast : ofList (entries ++ [e]) = (ofList entries).insert e.1 e.2 := by simp [ofList]
      rw [List.map_append, List.nodup_append] at hkeys
      obtain ⟨hentries, -, hfresh⟩ := hkeys
      rw [hlast, insert, Std.ExtTreeMap.getElem?_insert]
      split
      · rename_i hkey
        obtain rfl := Std.LawfulEqOrd.eq_of_compare hkey
        have hother : (e.1, value) ∉ entries := by
          intro hmem
          exact hfresh e.1 (List.mem_map.mpr ⟨_, hmem, rfl⟩) e.1 (by simp) rfl
        simp [hother, Prod.ext_iff, eq_comm]
      · rename_i hkey
        have hne : (key, value) ≠ e := by
          rintro rfl
          exact hkey Std.ReflOrd.compare_self
        simp [ih hentries, hne]

/-- The tree of a map holds the encoded entries of the map and nothing else. -/
theorem getElem?_ofList_map {f : α → Bytes} (hf : Function.Injective f) {g : β → Bytes}
    {m : Std.ExtTreeMap α β} {key value : Bytes} :
    (ofList (m.toList.map fun e ↦ (f e.1, g e.2))).entries[key]? = some value ↔
      ∃ a : α, f a = key ∧ m[a]?.map g = some value := by
  have hkeys : ((m.toList.map fun e ↦ (f e.1, g e.2)).map (·.1)).Nodup := by
    rw [List.map_map, List.nodup_iff_pairwise_ne, List.pairwise_map]
    refine Std.ExtTreeMap.distinct_keys_toList.imp ?_
    intro e e' hdistinct heq
    exact hdistinct (Std.compare_eq_iff_eq.mpr (hf heq))
  rw [getElem?_ofList hkeys]
  constructor
  · intro hmem
    obtain ⟨e, he, heq⟩ := List.mem_map.mp hmem
    cases heq
    have hvalue := Std.ExtTreeMap.mem_toList_iff_getElem?_eq_some.mp he
    exact ⟨e.1, rfl, congrArg (Option.map g) hvalue⟩
  · rintro ⟨a, rfl, hvalue⟩
    obtain ⟨b, hb, rfl⟩ := Option.map_eq_some_iff.mp hvalue
    exact List.mem_map.mpr ⟨(a, b), Std.ExtTreeMap.mem_toList_iff_getElem?_eq_some.mpr hb, rfl⟩

/-- Maps have the same tree if and only if the encoded values are the same everywhere. -/
theorem ofList_map_eq_iff {f : α → Bytes} (hf : Function.Injective f) {g : β → Bytes}
    {m m' : Std.ExtTreeMap α β} :
    ofList (m.toList.map fun e ↦ (f e.1, g e.2)) = ofList (m'.toList.map fun e ↦ (f e.1, g e.2)) ↔
      ∀ a : α, m[a]?.map g = m'[a]?.map g := by
  constructor
  · intro h a
    apply Option.ext
    intro value
    have hentry : ∀ n : Std.ExtTreeMap α β, n[a]?.map g = some value ↔
        (ofList (n.toList.map fun e ↦ (f e.1, g e.2))).entries[f a]? = some value := by
      intro n
      simp only [getElem?_ofList_map hf, hf.eq_iff, exists_eq_left]
    rw [hentry m, hentry m', h]
  · intro h
    apply eq_of_getElem?_eq
    intro key
    apply Option.ext
    intro value
    rw [getElem?_ofList_map hf, getElem?_ofList_map hf]
    simp only [h]

/-- Maps whose trees have the same root have the same encoded values everywhere, if the digest tells
apart what is hashed for them. -/
theorem map_eq_of_root_eq {S : Set Bytes} (hinj : Set.InjOn blake3 S) (hzero : ∀ x ∈ S, blake3 x ≠ 0)
    {f : α → Bytes} (hf : Function.Injective f) (hlength : ∀ a, (f a).length < 2 ^ 32)
    {g : β → Bytes} {m m' : Std.ExtTreeMap α β}
    (hm : ∀ x ∈ (ofList (m.toList.map fun e ↦ (f e.1, g e.2))).inputs, x ∈ S)
    (hm' : ∀ x ∈ (ofList (m'.toList.map fun e ↦ (f e.1, g e.2))).inputs, x ∈ S)
    (h : (ofList (m.toList.map fun e ↦ (f e.1, g e.2))).root =
      (ofList (m'.toList.map fun e ↦ (f e.1, g e.2))).root) :
    ∀ a : α, m[a]?.map g = m'[a]?.map g := by
  have hkeys : ∀ n : Std.ExtTreeMap α β, ∀ e ∈ (ofList (n.toList.map fun e ↦
      (f e.1, g e.2))).entries.toList, e.1.length < 2 ^ 32 := by
    intro n e he
    obtain ⟨a, ha, -⟩ := (getElem?_ofList_map hf).mp
      (Std.ExtTreeMap.mem_toList_iff_getElem?_eq_some.mp he)
    rw [← ha]
    exact hlength a
  exact (ofList_map_eq_iff hf).mp (eq_of_root_eq hinj hzero hm hm' (hkeys m) (hkeys m') h)

end Maps

/-- Two trees with the same root hold the same entries, whatever the lengths of their keys and
values and however many they are, if the digest tells apart what is hashed for the two roots and maps
none of it to the root of the empty tree. -/
theorem equal_roots_hold_equal_entries {t t' : MerkleTree}
    (hkeys : ∀ key ∈ t.entries, key.length < 2 ^ 32)
    (hkeys' : ∀ key ∈ t'.entries, key.length < 2 ^ 32)
    (hinj : Set.InjOn blake3 {x | x ∈ t.inputs ∨ x ∈ t'.inputs})
    (hzero : ∀ x, x ∈ t.inputs ∨ x ∈ t'.inputs → blake3 x ≠ 0) (hroot : t.root = t'.root) :
    ∀ key : Bytes, t.entries[key]? = t'.entries[key]? := by
  intro key
  have hlist : ∀ {n : MerkleTree}, (∀ key ∈ n.entries, key.length < 2 ^ 32) →
      ∀ e ∈ n.entries.toList, e.1.length < 2 ^ 32 := by
    intro n hn e he
    exact hn e.1 (Std.ExtTreeMap.mem_iff_isSome_getElem?.mpr
      (Option.isSome_of_eq_some (Std.ExtTreeMap.mem_toList_iff_getElem?_eq_some.mp he)))
  rw [eq_of_root_eq hinj hzero (fun _ ↦ .inl) (fun _ ↦ .inr) (hlist hkeys) (hlist hkeys') hroot]

/-- Keys that begin alike, with values that continue the shorter key like the longer one. -/
def tangledTree : MerkleTree := ofList [([1, 0], [7]), ([], []), ([1], [0, 7])]

/-- The same entries, one of which was changed on the way. -/
def mendedTree : MerkleTree := ofList [([1], [2]), ([], []), ([1], [0, 7]), ([1, 0], [7])]

theorem tangledTree_digests : tangledTree.inputs.map blake3 =
    [leaf [] [], leaf [1] [0, 7], leaf [1, 0] [7], inner (leaf [] []) (leaf [1] [0, 7]),
      inner (inner (leaf [] []) (leaf [1] [0, 7])) (leaf [1, 0] [7])] := rfl

theorem tangledTree_distinct : (0 :: tangledTree.inputs.map blake3).Nodup := by
  have hempty : leaf [] [] =
      0xcdc96eca844d7912acdbb3dca677757d0db5747a1df61166339cfc7156d4880f := by
    decide +kernel
  have hshort : leaf [1] [0, 7] =
      0x490e0493682d54f518f032cee04623d1e6ed991b14b68a00c720388d42d7b25c := by
    decide +kernel
  have hlong : leaf [1, 0] [7] =
      0xb29b6310bfaf049a7e2a94989208e0e0a63654fe7ea84e4875be34093ae10a9a := by
    decide +kernel
  have hpair : inner 0xcdc96eca844d7912acdbb3dca677757d0db5747a1df61166339cfc7156d4880f
      0x490e0493682d54f518f032cee04623d1e6ed991b14b68a00c720388d42d7b25c =
      0xad739d30b9c6b0bfda2f1817b55d815d234f695220e3aa11537e5ebd51fda625 := by
    decide +kernel
  have htop : inner 0xad739d30b9c6b0bfda2f1817b55d815d234f695220e3aa11537e5ebd51fda625
      0xb29b6310bfaf049a7e2a94989208e0e0a63654fe7ea84e4875be34093ae10a9a =
      0x35dd730ed06cf06708a877b8f9454e1bfdbb20ce46d876deefcf7536dcf57b55 := by
    decide +kernel
  rw [tangledTree_digests, hempty, hshort, hlong, hpair, htop]
  decide

theorem mended_tree_holds_the_tangled_entries :
    tangledTree.root = mendedTree.root ∧ tangledTree.inputs.length = 5 ∧
      ∀ key : Bytes, tangledTree.entries[key]? = mendedTree.entries[key]? := by
  have hinputs : mendedTree.inputs = tangledTree.inputs := rfl
  have hroot : tangledTree.root = mendedTree.root := rfl
  have hkeys : ∀ {n : MerkleTree}, n.entries.keys = [[], [1], [1, 0]] →
      ∀ key ∈ n.entries, key.length < 2 ^ 32 := by
    intro n hn key hkey
    rw [← Std.ExtTreeMap.mem_keys, hn] at hkey
    have hshort : ∀ key ∈ ([[], [1], [1, 0]] : List Bytes), key.length < 2 ^ 32 := by decide
    exact hshort key hkey
  obtain ⟨hinj, hzero⟩ := injOn_of_distinct tangledTree_distinct
  refine ⟨hroot, rfl, equal_roots_hold_equal_entries (hkeys rfl) (hkeys rfl) ?_ ?_ hroot⟩
  · simpa only [hinputs, or_self] using hinj
  · simpa only [hinputs, or_self] using hzero

end MerkleTree

end MeteredLedger
