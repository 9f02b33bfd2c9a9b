import Mathlib.Data.Nat.Bitwise
import MeteredLedger.Proofs.BlockLogs

/-!
# Blooms are unions

Whatever is added to a bloom only sets bits: three for an item, three for each item of a log, and
those of a bloom that is merged into it.  So the bits of a bloom are the union of the bits of what
was added, and neither the order nor the grouping of the additions can be seen in it.  The bloom of a
block is folded from all logs anew, and agrees with the blooms of its receipts for this reason.

A bit is set by a mask in one of 256 bytes, the bytes counted from the far end.  The first part leads
this back to the bits themselves, and nothing after it looks into the bytes.
-/

namespace MeteredLedger

namespace Bloom

/-! ## Reference -/

/-- A bit of the bytes of a bloom.  The lowest one is the low bit of the last byte. -/
def bitAt (bytes : Bytes) (i : Nat) : Bool := (bytes.getD (255 - i / 8) 0).toNat.testBit (i % 8)

/-- The bit that the digest of an item gives in its bytes `2 * k` and `2 * k + 1`. -/
def digestBit (item : Bytes) (k : Nat) : Nat :=
  let h := (keccak256 item).toBytes
  ((h.getD (2 * k) 0).toNat <<< 8 ||| (h.getD (2 * k + 1) 0).toNat) &&& 2047

/-- What can be added to a bloom. -/
inductive Addition where
  | item (item : Bytes)
  | log (log : Log)
  | bloom (other : Bloom)

/-- The items of a log: its address and its topics. -/
def itemsOf (log : Log) : List Bytes := log.address.toBytes :: log.topics.map Word.toBytes

namespace Addition

def addTo (b : Bloom) : Addition → Bloom
  | item x => b.accrue x
  | log l => b.accrueLog l
  | bloom c => b.union c

def items : Addition → List Bytes
  | item x => [x]
  | log l => itemsOf l
  | bloom _ => []

/-- The addition sets the bit: it is one of the three of an item, or a bit of a merged bloom. -/
def Sets (a : Addition) (i : Nat) : Prop :=
  (∃ x ∈ a.items, ∃ k < 3, i = digestBit x k) ∨ ∃ c, a = bloom c ∧ c.hasBit i = true

end Addition

/-- The bloom of a sequence of additions. -/
def ofAdditions (additions : List Addition) : Bloom := additions.foldl Addition.addTo empty

/-! ## Masks -/

section Masks

variable {r : Nat}

theorem toNat_mask (h : r < 8) : ((1 : UInt8) <<< UInt8.ofNat r).toNat = 2 ^ r := by
  revert r
  decide

theorem testBit_or_mask (byte : UInt8) (h : r < 8) (j : Nat) :
    (byte ||| 1 <<< UInt8.ofNat r).toNat.testBit j = true ↔ byte.toNat.testBit j = true ∨ r = j := by
  rw [UInt8.toNat_or, toNat_mask h, Nat.testBit_or, Nat.testBit_two_pow, Bool.or_eq_true,
    decide_eq_true_eq]

theorem and_mask_beq (byte : UInt8) (h : r < 8) :
    (byte &&& 1 <<< UInt8.ofNat r == 1 <<< UInt8.ofNat r) = byte.toNat.testBit r := by
  have hpos : 0 < 2 ^ r := Nat.two_pow_pos r
  rw [Bool.eq_iff_iff, beq_iff_eq, ← UInt8.toNat_inj, UInt8.toNat_and, toNat_mask h, Nat.and_two_pow]
  cases byte.toNat.testBit r with
  | false => simp [hpos.ne]
  | true => simp

end Masks

/-! ## Bits -/

section Bits

variable {i : Nat}

theorem bitAt_toBytes (b : Bloom) (i : Nat) : bitAt b.toBytes i = b.hasBit i := by
  have hbyte : 255 - i / 8 < b.bytes.toList.length := by
    rw [Vector.length_toList]
    omega
  rw [bitAt, toBytes, List.getD_eq_getElem _ _ hbyte, Vector.getElem_toList]
  rfl

theorem hasBit_empty (i : Nat) : empty.hasBit i = false := by
  simp [hasBit, empty]

/-- Byte and mask of a bit. -/
def slotOf (bit : Nat) : Fin 256 × UInt8 := (byteOf bit, 1 <<< UInt8.ofNat (bit % 8))

/-- A mask in a byte sets one bit. -/
theorem hasBit_mark (b : Bloom) {bit : Nat} (hbit : bit < 2048) (hi : i < 2048) :
    (b.mark (slotOf bit)).hasBit i = true ↔ b.hasBit i = true ∨ i = bit := by
  have hlow : bit % 8 < 8 := Nat.mod_lt _ (by decide)
  simp only [hasBit, mark, slotOf, Fin.getElem_fin, Vector.getElem_set]
  split
  · rename_i hbyte
    simp only [byteOf] at hbyte
    have hsame : bit % 8 = i % 8 ↔ i = bit := by omega
    simp only [testBit_or_mask _ hlow, hsame, byteOf, hbyte]
  · rename_i hbyte
    have hother : i ≠ bit := by
      rintro rfl
      exact hbyte rfl
    simp only [hother, or_false]

theorem digestBit_lt (x : Bytes) (k : Nat) : digestBit x k < 2048 :=
  Nat.lt_succ_of_le Nat.and_le_right

theorem slotsOf_eq (x : Bytes) : slotsOf x = ((List.range 3).map (digestBit x)).map slotOf := by
  rw [List.map_map]
  rfl

theorem hasBit_foldl_mark {bits : List Nat} (hbits : ∀ bit ∈ bits, bit < 2048) (b : Bloom)
    (hi : i < 2048) :
    ((bits.map slotOf).foldl mark b).hasBit i = true ↔ b.hasBit i = true ∨ i ∈ bits := by
  induction bits generalizing b with
  | nil => simp
  | cons bit bits ih =>
      have hrest : ∀ bit ∈ bits, bit < 2048 := fun other hother ↦
        hbits other (List.mem_cons_of_mem bit hother)
      rw [List.map_cons, List.foldl_cons, ih hrest, hasBit_mark b (hbits bit List.mem_cons_self) hi,
        or_assoc, List.mem_cons]

/-- An item sets three bits. -/
theorem hasBit_accrue (b : Bloom) (x : Bytes) (hi : i < 2048) :
    (b.accrue x).hasBit i = true ↔ b.hasBit i = true ∨ ∃ k < 3, i = digestBit x k := by
  have hbits : ∀ bit ∈ (List.range 3).map (digestBit x), bit < 2048 := by
    intro bit hbit
    obtain ⟨k, -, rfl⟩ := List.mem_map.mp hbit
    exact digestBit_lt x k
  rw [accrue, slotsOf_eq, hasBit_foldl_mark hbits b hi]
  simp only [List.mem_map, List.mem_range, eq_comm]

theorem hasBit_union (b c : Bloom) (i : Nat) :
    (b.union c).hasBit i = (b.hasBit i || c.hasBit i) := by
  simp only [hasBit, union, Fin.getElem_fin, Vector.getElem_zipWith, UInt8.toNat_or, Nat.testBit_or]

theorem mayContain_iff {b : Bloom} {x : Bytes} :
    b.mayContain x = true ↔ ∀ k < 3, b.hasBit (digestBit x k) = true := by
  have hslot : ∀ bit, (b.bytes[(slotOf bit).1] &&& (slotOf bit).2 == (slotOf bit).2) =
      b.hasBit bit := fun bit ↦ and_mask_beq _ (Nat.mod_lt bit (by decide))
  simp only [mayContain, slotsOf_eq, List.all_map, Function.comp_def, hslot, List.all_eq_true,
    List.mem_range]

/-- Every bit of every byte has its number. -/
theorem hasBit_place (b : Bloom) {j r : Nat} (hj : j < 256) (hr : r < 8) :
    b.hasBit (8 * (255 - j) + r) = (b.bytes[j]).toNat.testBit r := by
  have hbyte : 255 - (8 * (255 - j) + r) / 8 = j := by omega
  have hrest : (8 * (255 - j) + r) % 8 = r := by omega
  simp only [hasBit, byteOf, Fin.getElem_fin, hbyte, hrest]

theorem eq_of_hasBit {b c : Bloom}
    (h : ∀ i < 2048, b.hasBit i = true ↔ c.hasBit i = true) : b = c := by
  suffices hbytes : b.bytes = c.bytes by
    cases b
    cases c
    exact congrArg Bloom.mk hbytes
  apply Vector.ext
  intro j hj
  apply UInt8.toNat_inj.mp
  apply Nat.eq_of_testBit_eq
  intro r
  by_cases hr : r < 8
  · rw [← hasBit_place b hj hr, ← hasBit_place c hj hr, Bool.eq_iff_iff]
    exact h _ (by omega)
  · have hhigh : ∀ byte : UInt8, byte.toNat.testBit r = false := fun byte ↦
      Nat.testBit_lt_two_pow (Nat.lt_of_lt_of_le byte.toNat_lt
        (Nat.pow_le_pow_right (by decide) (Nat.not_lt.mp hr)))
    rw [hhigh, hhigh]

end Bits

/-! ## Additions -/

section Additions

variable {i : Nat}

theorem hasBit_foldl_accrue (items : List Bytes) (b : Bloom) (hi : i < 2048) :
    (items.foldl accrue b).hasBit i = true ↔
      b.hasBit i = true ∨ ∃ x ∈ items, ∃ k < 3, i = digestBit x k := by
  induction items generalizing b with
  | nil => simp
  | cons x items ih =>
      rw [List.foldl_cons, ih, hasBit_accrue b x hi, or_assoc]
      simp only [List.mem_cons, exists_eq_or_imp]

theorem accrueLog_eq_foldl (b : Bloom) (log : Log) :
    b.accrueLog log = (itemsOf log).foldl accrue b := by
  rw [accrueLog, itemsOf, List.foldl_cons, List.foldl_map]

/-- One addition keeps the bits that are set and sets its own. -/
theorem hasBit_addTo (b : Bloom) (a : Addition) (hi : i < 2048) :
    (a.addTo b).hasBit i = true ↔ b.hasBit i = true ∨ a.Sets i := by
  cases a with
  | item x => simp [Addition.addTo, Addition.Sets, Addition.items, hasBit_accrue b x hi]
  | log l =>
      simp [Addition.addTo, Addition.Sets, Addition.items, accrueLog_eq_foldl,
        hasBit_foldl_accrue _ b hi]
  | bloom c => simp [Addition.addTo, Addition.Sets, Addition.items, hasBit_union]

theorem hasBit_foldl_addTo (additions : List Addition) (b : Bloom) (hi : i < 2048) :
    (additions.foldl Addition.addTo b).hasBit i = true ↔
      b.hasBit i = true ∨ ∃ a ∈ additions, a.Sets i := by
  induction additions generalizing b with
  | nil => simp
  | cons a additions ih =>
      rw [List.foldl_cons, ih, hasBit_addTo b a hi, or_assoc]
      simp only [List.mem_cons, exists_eq_or_imp]

theorem hasBit_ofAdditions (additions : List Addition) (hi : i < 2048) :
    (ofAdditions additions).hasBit i = true ↔ ∃ a ∈ additions, a.Sets i := by
  rw [ofAdditions, hasBit_foldl_addTo additions empty hi, hasBit_empty]
  simp only [Bool.false_eq_true, false_or]

end Additions

section Unions

variable {additions additions' : List Addition}

theorem ofAdditions_eq_of_sets
    (h : ∀ i, (∃ a ∈ additions, a.Sets i) ↔ ∃ a ∈ additions', a.Sets i) :
    ofAdditions additions = ofAdditions additions' := by
  apply eq_of_hasBit
  intro i hi
  rw [hasBit_ofAdditions additions hi, hasBit_ofAdditions additions' hi, h i]

theorem exists_sets_iff {i : Nat} :
    (∃ a ∈ additions, a.Sets i) ↔
      (∃ x ∈ additions.flatMap Addition.items, ∃ k < 3, i = digestBit x k) ∨
        ∃ c, Addition.bloom c ∈ additions ∧ c.hasBit i = true := by
  simp only [Addition.Sets, List.mem_flatMap]
  grind

theorem sets_bloom {c : Bloom} {i : Nat} : (Addition.bloom c).Sets i ↔ c.hasBit i = true := by
  simp [Addition.Sets, Addition.items]

/-- The bloom into which others are merged one after another. -/
def merge (blooms : List Bloom) : Bloom := blooms.foldl union empty

theorem merge_eq_ofAdditions (blooms : List Bloom) :
    merge blooms = ofAdditions (blooms.map .bloom) := by
  rw [ofAdditions, List.foldl_map]
  rfl

/-- Groups can be folded apart and merged. -/
theorem merge_groups (groups : List (List Addition)) :
    merge (groups.map ofAdditions) = ofAdditions groups.flatten := by
  rw [merge_eq_ofAdditions, List.map_map]
  apply eq_of_hasBit
  intro i hi
  rw [hasBit_ofAdditions _ hi, hasBit_ofAdditions _ hi]
  constructor
  · rintro ⟨_, hmem, hsets⟩
    obtain ⟨group, hgroup, rfl⟩ := List.mem_map.mp hmem
    obtain ⟨a, ha, hsets⟩ := (hasBit_ofAdditions group hi).mp (sets_bloom.mp hsets)
    exact ⟨a, List.mem_flatten.mpr ⟨group, hgroup, ha⟩, hsets⟩
  · rintro ⟨a, hmem, hsets⟩
    obtain ⟨group, hgroup, ha⟩ := List.mem_flatten.mp hmem
    refine ⟨_, List.mem_map_of_mem hgroup, sets_bloom.mpr ?_⟩
    exact (hasBit_ofAdditions group hi).mpr ⟨a, ha, hsets⟩

theorem mayContain_append {x : Bytes} (h : (ofAdditions additions).mayContain x = true)
    (more : List Addition) : (ofAdditions (additions ++ more)).mayContain x = true := by
  rw [mayContain_iff] at h ⊢
  intro k hk
  obtain ⟨a, ha, hsets⟩ := (hasBit_ofAdditions additions (digestBit_lt x k)).mp (h k hk)
  exact (hasBit_ofAdditions _ (digestBit_lt x k)).mpr ⟨a, List.mem_append_left _ ha, hsets⟩

theorem mayContain_of_mem {x : Bytes} (h : x ∈ additions.flatMap Addition.items) :
    (ofAdditions additions).mayContain x = true := by
  rw [mayContain_iff]
  intro k hk
  rw [hasBit_ofAdditions _ (digestBit_lt x k), exists_sets_iff]
  exact .inl ⟨x, h, k, hk, rfl⟩

end Unions

/-! ## Logs, receipts and blocks -/

theorem ofLogs_eq_ofAdditions (logs : List Log) : ofLogs logs = ofAdditions (logs.map .log) := by
  rw [ofAdditions, List.foldl_map]
  rfl

theorem ofReceipts_eq_ofAdditions (receipts : List Receipt) :
    ofReceipts receipts = ofAdditions (receipts.map fun r ↦ r.logs.map .log).flatten := by
  rw [ofAdditions, List.foldl_flatten, List.foldl_map]
  simp only [List.foldl_map]
  rfl

theorem ofReceipts_eq_ofLogs (receipts : List Receipt) :
    ofReceipts receipts = ofLogs (receipts.flatMap (·.logs)) := by
  rw [ofReceipts_eq_ofAdditions, ofLogs_eq_ofAdditions, List.map_flatMap, List.flatMap_def]

theorem ofReceipts_eq_merge (receipts : List Receipt) :
    ofReceipts receipts = merge (receipts.map fun r ↦ ofLogs r.logs) := by
  rw [ofReceipts_eq_ofAdditions, ← merge_groups, List.map_map]
  simp only [Function.comp_def, ofLogs_eq_ofAdditions]

end Bloom

theorem applyTransaction_bloom {venue : Venue} {header : Header} {tx : Transaction}
    {s t : Session} {receipt : Receipt}
    (h : applyTransaction venue header tx s = (.ok receipt, t)) :
    receipt.bloom = Bloom.ofLogs receipt.logs := by
  obtain ⟨msg, execution, u, -, -, rfl, -⟩ := applyTransaction_eq_ok h
  rfl

theorem BlockRun.map_bloom {venue : Venue} {header : Header} {index : Nat} {s t : Session}
    {txs : List Transaction} {receipts : List Receipt}
    (h : BlockRun venue header index s txs receipts t) :
    receipts.map (·.bloom) = receipts.map fun r ↦ Bloom.ofLogs r.logs := by
  induction h with
  | nil => rfl
  | cons hfirst hrest ih => rw [List.map_cons, List.map_cons, ih, applyTransaction_bloom hfirst]

open Bloom in
/-- The bits of a bloom, as they stand in its bytes, are the union of the three bits of each item that
was added and of the bits of the blooms that were merged into it.  So a bloom depends on these alone,
and groups of additions can be folded apart and merged.  An item may be contained exactly if its three
bits are set, so an item that was added is, and what may be contained stays so.  The bloom of a list
of receipts is that of all their logs and the merger of the blooms of each receipt's logs, which are
the blooms that the receipts of an executed block carry. -/
theorem blooms_are_unions (additions : List Addition) :
    (∀ i < 2048, bitAt (ofAdditions additions).toBytes i = true ↔
      (∃ x ∈ additions.flatMap Addition.items, ∃ k < 3, i = digestBit x k) ∨
        ∃ c, .bloom c ∈ additions ∧ bitAt c.toBytes i = true) ∧
    (∀ additions' : List Addition,
      (∀ x, x ∈ additions.flatMap Addition.items ↔ x ∈ additions'.flatMap Addition.items) →
      (∀ c, .bloom c ∈ additions ↔ .bloom c ∈ additions') →
      ofAdditions additions = ofAdditions additions') ∧
    (∀ groups : List (List Addition), groups.flatten = additions →
      merge (groups.map ofAdditions) = ofAdditions additions) ∧
    (∀ (b : Bloom) (x : Bytes), b.mayContain x = true ↔
      ∀ k < 3, bitAt b.toBytes (digestBit x k) = true) ∧
    (∀ (x : Bytes) (more : List Addition),
      x ∈ additions.flatMap Addition.items ∨ (ofAdditions additions).mayContain x = true →
      (ofAdditions (additions ++ more)).mayContain x = true) ∧
    (∀ receipts : List Receipt,
      ofReceipts receipts = ofLogs (receipts.flatMap (·.logs)) ∧
        ofReceipts receipts = merge (receipts.map fun r ↦ ofLogs r.logs)) ∧
    ∀ (block : Block) (venue : Venue) (consensus : Consensus) (w : World) (monitor : Monitor)
      (o : BlockOutcome), (block.executeUnder venue consensus w monitor).1 = .ok o →
      ofReceipts o.receipts = merge (o.receipts.map (·.bloom)) := by
  refine ⟨?_, ?_, ?_, ?_, ?_, ?_, ?_⟩
  · intro i hi
    simp only [bitAt_toBytes]
    rw [hasBit_ofAdditions additions hi, exists_sets_iff]
  · intro additions' hitems hblooms
    apply ofAdditions_eq_of_sets
    intro i
    simp only [exists_sets_iff, hitems, hblooms]
  · rintro groups rfl
    exact merge_groups groups
  · intro b x
    simp only [bitAt_toBytes]
    exact mayContain_iff
  · rintro x more (hitem | hcontained)
    · exact mayContain_append (mayContain_of_mem hitem) more
    · exact mayContain_append hcontained more
  · intro receipts
    exact ⟨ofReceipts_eq_ofLogs receipts, ofReceipts_eq_merge receipts⟩
  · intro block venue consensus w monitor o hok
    obtain ⟨-, t, hrun, -⟩ := Block.executeUnder_eq_ok_iff.mp hok
    rw [ofReceipts_eq_merge, hrun.map_bloom]

/-- An item stays in a bloom that others are merged into, and the bloom of a block with two receipts
is the merger of theirs. -/
theorem layered_block_bloom_is_merged :
    (Bloom.ofAdditions
        [.item [1], .bloom (Bloom.empty.accrue [3]), .item [2]]).mayContain [1] = true ∧
      ∃ o, (layeredBlock.executeUnder layeredVenue (Consensus.reward none) layeredWorld {}).1 =
          .ok o ∧
        o.receipts.length = 2 ∧
        Bloom.ofReceipts o.receipts = Bloom.merge (o.receipts.map (·.bloom)) := by
  obtain ⟨first, second, -, -, hrun⟩ := layeredBlock_runs
  have hok : (layeredBlock.executeUnder layeredVenue (Consensus.reward none) layeredWorld {}).1 =
      .ok _ := congrArg Prod.fst (Block.executeUnder_of_run rfl hrun)
  obtain ⟨-, -, -, -, hcontains, -, hblock⟩ :=
    blooms_are_unions [.item [1], .bloom (Bloom.empty.accrue [3])]
  refine ⟨hcontains [1] [.item [2]] (.inl ?_), _, hok, rfl, hblock _ _ _ _ _ _ hok⟩
  exact List.mem_cons_self

end MeteredLedger
