import Mathlib.Data.Nat.Log
import Mathlib.Logic.Function.Iterate
import Mathlib.Order.Bounds.Defs
import MeteredLedger.Proofs.MerkleBinding

/-!
# The root as a recursion

A root is computed from below: each round joins neighbours, and a digest without a neighbour is
carried up as it is, possibly through several rounds.  Read from above, the same root is a
recursion: a list of entries is cut at the largest power of two below its length, and the digests of
the two parts are joined.  A stretch of `2 ^ j` digests and what follows it are treated apart for `j`
rounds, which leave one digest of the stretch and one of the shorter rest.
-/

namespace MeteredLedger

open Std

theorem Bytes.compare_eq_lt_iff {a b : Bytes} : compare a b = .lt ↔ a < b := by
  induction a generalizing b with
  | nil => cases b <;> simp
  | cons x a ih =>
      cases b with
      | nil => simp
      | cons y b =>
          simp [List.compare_cons_cons, List.cons_lt_cons_iff, Ordering.then_eq_lt, ih,
            Std.compare_eq_lt]

namespace MerkleTree

/-! ## Cutting at a power of two -/

/-- The largest power of two below a number above one. -/
def splitPoint (n : Nat) : Nat := 2 ^ Nat.log 2 (n - 1)

theorem splitPoint_eq {j n : Nat} (hlow : 2 ^ j < n) (hhigh : n ≤ 2 ^ (j + 1)) :
    splitPoint n = 2 ^ j := by
  have hpos := Nat.two_pow_pos j
  have hlog : Nat.log 2 (n - 1) = j := by
    rw [Nat.log_eq_iff (.inr ⟨Nat.one_lt_two, by omega⟩)]
    omega
  rw [splitPoint, hlog]

theorem splitPoint_pos (n : Nat) : 0 < splitPoint n := Nat.two_pow_pos _

theorem splitPoint_lt {n : Nat} (h : 1 < n) : splitPoint n < n := by
  have hle := Nat.pow_log_le_self 2 (x := n - 1) (by omega)
  rw [splitPoint]
  omega

theorem eq_splitPoint_of_isGreatest {n k : Nat}
    (h : IsGreatest {k | k < n ∧ ∃ j, k = 2 ^ j} k) : k = splitPoint n := by
  obtain ⟨⟨hlt, j, rfl⟩, hmax⟩ := h
  refine (splitPoint_eq hlt ?_).symm
  by_contra hnext
  have hle := hmax ⟨Nat.lt_of_not_le hnext, j + 1, rfl⟩
  rw [Nat.pow_succ] at hle
  have hpos := Nat.two_pow_pos j
  omega

/-- The digest of a list of entries, each part of which is cut at the largest power of two below its
length. -/
def splitHash : List (Bytes × Bytes) → Hash
  | [] => 0
  | [e] => leaf e.1 e.2
  | e :: e' :: rest =>
    inner (splitHash ((e :: e' :: rest).take (splitPoint (rest.length + 2))))
      (splitHash ((e :: e' :: rest).drop (splitPoint (rest.length + 2))))
termination_by entries => entries.length
decreasing_by
  · have hlt := splitPoint_lt (n := rest.length + 2) (by omega)
    simp only [List.length_take, List.length_cons]
    omega
  · have hpos := splitPoint_pos (rest.length + 2)
    simp only [List.length_drop, List.length_cons]
    omega

theorem splitHash_nil : splitHash [] = 0 := by rw [splitHash]

theorem splitHash_singleton (e : Bytes × Bytes) : splitHash [e] = leaf e.1 e.2 := by rw [splitHash]

theorem splitHash_of_one_lt {entries : List (Bytes × Bytes)} (h : 1 < entries.length) :
    splitHash entries = inner (splitHash (entries.take (splitPoint entries.length)))
      (splitHash (entries.drop (splitPoint entries.length))) := by
  match entries, h with
  | e :: e' :: rest, _ =>
      rw [splitHash]
      rfl

/-- A digest of lists of entries that cuts a list at the largest power of two below its length. -/
structure CutsAtPowers (digest : List (Bytes × Bytes) → Hash) : Prop where
  nil : digest [] = 0
  singleton : ∀ e, digest [e] = leaf e.1 e.2
  cut : ∀ {entries k}, IsGreatest {k | k < entries.length ∧ ∃ j, k = 2 ^ j} k →
    digest entries = inner (digest (entries.take k)) (digest (entries.drop k))

theorem cutsAtPowers_splitHash : CutsAtPowers splitHash where
  nil := splitHash_nil
  singleton := splitHash_singleton
  cut h := by
    have hmem := h.1
    obtain ⟨hlt, j, hj⟩ := hmem
    have hpos := Nat.two_pow_pos j
    rw [splitHash_of_one_lt (by omega), ← eq_splitPoint_of_isGreatest h]

/-! ## Rounds of joining -/

section Rounds

theorem joinPairs_append {xs : List Hash} (ys : List Hash) (h : 2 ∣ xs.length) :
    joinPairs (xs ++ ys) = joinPairs xs ++ joinPairs ys := by
  induction xs using List.twoStepInduction with
  | nil => rfl
  | singleton last => simp at h
  | cons_cons left right rest ih _ =>
      have hrest : 2 ∣ rest.length := by
        simp only [List.length_cons] at h
        omega
      simp [joinPairs, ih hrest]

/-- Rounds that pair the digests of a stretch among themselves do not mix it with what follows. -/
theorem joinPairs_iterate_append {rounds : Nat} {xs : List Hash} (ys : List Hash)
    (h : 2 ^ rounds ∣ xs.length) :
    joinPairs^[rounds] (xs ++ ys) = joinPairs^[rounds] xs ++ joinPairs^[rounds] ys := by
  induction rounds generalizing xs ys with
  | zero => rfl
  | succ rounds ih =>
      obtain ⟨k, hk⟩ := h
      have heven : xs.length = 2 * (2 ^ rounds * k) := by
        rw [hk, Nat.pow_succ]
        ring
      have hnext : 2 ^ rounds ∣ (joinPairs xs).length := by
        refine ⟨k, ?_⟩
        rw [length_joinPairs]
        omega
      simp only [Function.iterate_succ_apply]
      rw [joinPairs_append ys ⟨_, heven⟩, ih _ hnext]

/-- More than one digest is left after some rounds exactly if there were more than `2 ^ rounds`. -/
theorem one_lt_length_iterate {rounds : Nat} {level : List Hash} :
    1 < (joinPairs^[rounds] level).length ↔ 2 ^ rounds < level.length := by
  induction rounds generalizing level with
  | zero => rfl
  | succ rounds ih =>
      rw [Function.iterate_succ_apply, ih, length_joinPairs, Nat.pow_succ]
      omega

/-- Rounds enough for so many digests leave the digest of the recursion. -/
theorem iterate_leaves_eq_splitHash {rounds : Nat} {entries : List (Bytes × Bytes)}
    (hne : entries ≠ []) (hlength : entries.length ≤ 2 ^ rounds) :
    joinPairs^[rounds] (entries.map fun e ↦ leaf e.1 e.2) = [splitHash entries] := by
  induction rounds generalizing entries with
  | zero =>
      obtain ⟨e, rfl⟩ : ∃ e, entries = [e] := by
        rw [← List.length_eq_one_iff]
        have hpos := List.length_pos_iff.mpr hne
        omega
      rw [splitHash_singleton]
      rfl
  | succ rounds ih =>
      rw [Function.iterate_succ_apply']
      by_cases hshort : entries.length ≤ 2 ^ rounds
      · rw [ih hne hshort]
        rfl
      · -- The cut is at `2 ^ rounds`, and so many rounds leave one digest on either side of it.
        have hpos := Nat.two_pow_pos rounds
        have hcut := splitPoint_eq (Nat.lt_of_not_le hshort) hlength
        have hleft : (entries.take (2 ^ rounds)).length = 2 ^ rounds := by
          rw [List.length_take]
          omega
        have hright : (entries.drop (2 ^ rounds)).length ≤ 2 ^ rounds := by
          rw [List.length_drop]
          rw [Nat.pow_succ] at hlength
          omega
        have hparts : entries.map (fun e ↦ leaf e.1 e.2) =
            (entries.take (2 ^ rounds)).map (fun e ↦ leaf e.1 e.2) ++
              (entries.drop (2 ^ rounds)).map (fun e ↦ leaf e.1 e.2) := by
          rw [← List.map_append, List.take_append_drop]
        have hleftNe : entries.take (2 ^ rounds) ≠ [] := by
          rw [← List.length_pos_iff, hleft]
          exact hpos
        have hrightNe : entries.drop (2 ^ rounds) ≠ [] := by
          rw [ne_eq, List.drop_eq_nil_iff]
          exact hshort
        have hjoined : splitHash entries = inner (splitHash (entries.take (2 ^ rounds)))
            (splitHash (entries.drop (2 ^ rounds))) := by
          rw [splitHash_of_one_lt (by omega), hcut]
        rw [hparts, joinPairs_iterate_append _ (by rw [List.length_map, hleft]),
          ih hleftNe hleft.le, ih hrightNe hright, hjoined]
        rfl

theorem climb_eq_iterate (rounds : Nat) (level : List Hash) :
    climb rounds level = (joinPairs^[rounds] level).headD 0 := by
  induction rounds generalizing level with
  | zero => rfl
  | succ rounds ih => rw [climb, ih, Function.iterate_succ_apply]

theorem root_eq_splitHash (t : MerkleTree) : t.root = splitHash t.entries.toList := by
  rw [root, rootOf, climb_eq_iterate]
  by_cases hne : t.entries.toList = []
  · rw [hne, splitHash_nil]
    rfl
  · rw [List.length_map, iterate_leaves_eq_splitHash hne Nat.lt_two_pow_self.le]
    rfl

theorem length_leaves (t : MerkleTree) : t.leaves.length = t.size := by
  rw [leaves, List.length_map, ExtTreeMap.length_toList, size]

theorem iterate_leaves_eq_root {t : MerkleTree} (h : t.size ≠ 0) :
    joinPairs^[Nat.clog 2 t.size] t.leaves = [t.root] := by
  have hlength : t.entries.toList.length = t.size := ExtTreeMap.length_toList
  have hne : t.entries.toList ≠ [] := by
    rw [← List.length_pos_iff, hlength]
    exact Nat.pos_of_ne_zero h
  rw [root_eq_splitHash, leaves, iterate_leaves_eq_splitHash hne]
  rw [hlength]
  exact Nat.le_pow_clog Nat.one_lt_two _

end Rounds

/-! ## What insertions leave -/

/-- The entries that a sequence of insertions leaves: in the order of their keys, each key with the
value that it was given last. -/
structure Settles (inserted entries : List (Bytes × Bytes)) : Prop where
  ordered : entries.Pairwise fun e e' ↦ e.1 < e'.1
  mem_iff : ∀ key value, (key, value) ∈ entries ↔ inserted.reverse.lookup key = some value

theorem getElem?_ofList_eq_lookup (inserted : List (Bytes × Bytes)) (key : Bytes) :
    (ofList inserted).entries[key]? = inserted.reverse.lookup key := by
  induction inserted using List.reverseRecOn with
  | nil => simp [ofList]
  | append_singleton inserted e ih =>
      have hlast : ofList (inserted ++ [e]) = (ofList inserted).insert e.1 e.2 := by simp [ofList]
      rw [hlast, insert, ExtTreeMap.getElem?_insert, List.reverse_append, List.reverse_singleton,
        List.singleton_append, List.lookup_cons, ih]
      by_cases hkey : key = e.1
      · simp [hkey]
      · have hother : ¬e.1 = key := fun h ↦ hkey h.symm
        simp [hother, beq_false_of_ne hkey]

theorem settles_toList (inserted : List (Bytes × Bytes)) :
    Settles inserted (ofList inserted).entries.toList where
  ordered := ExtTreeMap.ordered_keys_toList.imp fun h ↦ Bytes.compare_eq_lt_iff.mp h
  mem_iff key value := by
    rw [ExtTreeMap.mem_toList_iff_getElem?_eq_some, getElem?_ofList_eq_lookup]

theorem Settles.unique {inserted entries entries' : List (Bytes × Bytes)}
    (h : Settles inserted entries) (h' : Settles inserted entries') : entries = entries' := by
  have hnodup : ∀ {es : List (Bytes × Bytes)}, es.Pairwise (fun e e' ↦ e.1 < e'.1) → es.Nodup := by
    intro es hes
    refine List.nodup_iff_pairwise_ne.mpr (hes.imp ?_)
    rintro e e' hlt rfl
    exact List.lt_irrefl _ hlt
  refine List.Perm.eq_of_pairwise ?_ h.ordered h'.ordered ?_
  · intro e e' _ _ hlt hgt
    exact absurd (List.lt_trans hlt hgt) (List.lt_irrefl _)
  · rw [List.perm_ext_iff_of_nodup (hnodup h.ordered) (hnodup h'.ordered)]
    rintro ⟨key, value⟩
    rw [h.mem_iff, h'.mem_iff]

theorem ofList_eq_of_lookup_eq {inserted inserted' : List (Bytes × Bytes)}
    (h : ∀ key, inserted.reverse.lookup key = inserted'.reverse.lookup key) :
    ofList inserted = ofList inserted' := by
  apply eq_of_getElem?_eq
  intro key
  rw [getElem?_ofList_eq_lookup, getElem?_ofList_eq_lookup, h key]

theorem ofList_eq_of_perm {inserted inserted' : List (Bytes × Bytes)}
    (hperm : inserted.Perm inserted') (hkeys : (inserted.map (·.1)).Nodup) :
    ofList inserted = ofList inserted' := by
  have hkeys' : (inserted'.map (·.1)).Nodup := (hperm.map _).nodup_iff.mp hkeys
  apply eq_of_getElem?_eq
  intro key
  apply Option.ext
  intro value
  rw [getElem?_ofList hkeys, getElem?_ofList hkeys', hperm.mem_iff]

end MerkleTree

open MerkleTree in
/-- The root of a tree that was filled by insertions is the digest of the recursion over the entries
that are left, and a function of the last value of each key.  It is reached by joining until one
digest is left, after as many rounds as it takes to double one up to the number of entries. -/
theorem root_is_recursive_digest (inserted : List (Bytes × Bytes)) :
    CutsAtPowers splitHash ∧
    (∃ entries, Settles inserted entries ∧
      (∀ entries', Settles inserted entries' → entries' = entries) ∧
      (ofList inserted).root = splitHash entries) ∧
    (∀ round, 1 < (joinPairs^[round] (ofList inserted).leaves).length ↔
      round < Nat.clog 2 (ofList inserted).size) ∧
    ((ofList inserted).size ≠ 0 →
      joinPairs^[Nat.clog 2 (ofList inserted).size] (ofList inserted).leaves =
        [(ofList inserted).root]) ∧
    (∀ inserted' : List (Bytes × Bytes),
      (∀ key, inserted.reverse.lookup key = inserted'.reverse.lookup key) →
        (ofList inserted).root = (ofList inserted').root) ∧
    ∀ inserted' : List (Bytes × Bytes), inserted.Perm inserted' → (inserted.map (·.1)).Nodup →
      (ofList inserted).root = (ofList inserted').root := by
  have hsettles := settles_toList inserted
  refine ⟨cutsAtPowers_splitHash, ⟨_, hsettles, fun _ h ↦ h.unique hsettles, root_eq_splitHash _⟩,
    ?_, ?_, ?_, ?_⟩
  · intro round
    rw [one_lt_length_iterate, length_leaves, Nat.lt_clog_iff_pow_lt Nat.one_lt_two]
  · exact iterate_leaves_eq_root
  · intro inserted' hlast
    rw [ofList_eq_of_lookup_eq hlast]
  · intro inserted' hperm hkeys
    rw [ofList_eq_of_perm hperm hkeys]

open MerkleTree in
-- The last of three entries has no neighbour in the first round.
example (a b c : Bytes) : (ofList [([3], c), ([1], b), ([2], b), ([1], a)]).root =
    inner (inner (leaf [1] a) (leaf [2] b)) (leaf [3] c) := rfl

end MeteredLedger
