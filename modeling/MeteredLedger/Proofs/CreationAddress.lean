import MeteredLedger.Derivation
import MeteredLedger.Word.Lemmas

/-!
# What the address of a new contract is made from

The string hashed for a new contract is a list of two items in the recursive length format: the bytes
of the creator, and the digits of its nonce without leading zeros.  The first byte of an item tells
whether the item is a byte that stands for itself, a string or a list, and how much follows.  So no
item is the beginning of another one, and an item is known from what is written for it.  A number is
known from its digits, and these from the number only because leading zeros are left out.
-/

namespace MeteredLedger

/-! ## Digits without leading zeros -/

namespace Bytes

/-- The digits of a number, most significant first; the first one is not zero, so zero has none. -/
structure Spells (bs : Bytes) (n : Nat) : Prop where
  value : ofBeBytes bs = n
  minimal : bs.head? ≠ some 0

theorem ofBeBytes_dropWhile_zero (bs : Bytes) :
    ofBeBytes (bs.dropWhile (· == 0)) = ofBeBytes bs := by
  induction bs with
  | nil => rfl
  | cons b bs ih =>
      by_cases hb : b = 0
      · subst hb
        simp [ofBeBytes_cons, ih]
      · simp [hb]

theorem spells_minimalBeBytes {width n : Nat} (h : n < 256 ^ width) :
    (minimalBeBytes width n).Spells n where
  value := by
    rw [minimalBeBytes, ofBeBytes_dropWhile_zero, ofBeBytes_beBytes, Nat.mod_eq_of_lt h]
  minimal := by
    intro hzero
    have hfirst := List.head?_dropWhile_not (· == 0) (beBytes width n)
    rw [← minimalBeBytes, hzero] at hfirst
    simp at hfirst

theorem length_minimalBeBytes_le (width n : Nat) : (minimalBeBytes width n).length ≤ width := by
  have h := (List.dropWhile_suffix (l := beBytes width n) (· == 0)).length_le
  rwa [length_beBytes] at h

theorem Spells.length_le {bs bs' : Bytes} {n : Nat} (h : bs.Spells n) (h' : ofBeBytes bs' = n) :
    bs.length ≤ bs'.length := by
  obtain ⟨hvalue, hminimal⟩ := h
  cases bs with
  | nil => exact Nat.zero_le _
  | cons b bs =>
      have hb : 0 < b.toNat := by
        refine Nat.pos_of_ne_zero fun hzero ↦ hminimal ?_
        rw [List.head?_cons, UInt8.toNat_inj.mp (hzero.trans UInt8.toNat_zero.symm)]
      have hlow : 256 ^ bs.length ≤ n := by
        rw [← hvalue, ofBeBytes_cons]
        exact Nat.le_add_left_of_le (Nat.le_mul_of_pos_right _ hb)
      have hhigh : n < 256 ^ bs'.length := h' ▸ ofBeBytes_lt bs'
      exact (Nat.pow_lt_pow_iff_right (by decide)).mp (Nat.lt_of_le_of_lt hlow hhigh)

theorem Spells.unique {bs bs' : Bytes} {n : Nat} (h : bs.Spells n) (h' : bs'.Spells n) :
    bs = bs' := by
  have hlength := Nat.le_antisymm (h.length_le h'.value) (h'.length_le h.value)
  rw [← beBytes_ofBeBytes bs, ← beBytes_ofBeBytes bs', hlength, h.value, h'.value]

theorem spells_iff {bs : Bytes} {width n : Nat} (h : n < 256 ^ width) :
    bs.Spells n ↔ bs = minimalBeBytes width n :=
  ⟨fun hbs ↦ hbs.unique (spells_minimalBeBytes h), fun hbs ↦ hbs ▸ spells_minimalBeBytes h⟩

end Bytes

/-! ## The recursive length format -/

/-- What the recursive length format writes. -/
inductive Item where
  | string (bs : Bytes)
  | list (items : List Item)

namespace Item

/-- What the first byte says of the length of a payload: the length, or for 56 bytes and more the
number of the digits of the length. -/
def lengthTag (n : Nat) : Nat := if n < 56 then n else 55 + (Bytes.minimalBeBytes 8 n).length

def lengthDigits (n : Nat) : Bytes := if n < 56 then [] else Bytes.minimalBeBytes 8 n

/-- The bytes ahead of a payload. -/
def head (base n : Nat) : Bytes := UInt8.ofNat (base + lengthTag n) :: lengthDigits n

/-- A single byte below `0x80` is written without a head. -/
def standsAlone (bs : Bytes) : Bool := bs.length == 1 && bs.all (· < 0x80)

mutual

def write : Item → Bytes
  | string bs => if standsAlone bs then bs else head 0x80 bs.length ++ bs
  | list items => head 0xc0 (writeAll items).length ++ writeAll items

def writeAll : List Item → Bytes
  | [] => []
  | item :: items => item.write ++ writeAll items

end

def base : Item → Nat
  | string _ => 0x80
  | list _ => 0xc0

def payload : Item → Bytes
  | string bs => bs
  | list items => writeAll items

theorem base_eq (a : Item) : a.base = 0x80 ∨ a.base = 0xc0 := by
  cases a with
  | string bs => exact .inl rfl
  | list items => exact .inr rfl

theorem lengthTag_lt (n : Nat) : lengthTag n < 64 := by
  have h := Bytes.length_minimalBeBytes_le 8 n
  unfold lengthTag
  split <;> omega

theorem standsAlone_iff {bs : Bytes} : standsAlone bs = true ↔ ∃ b, bs = [b] ∧ b < 0x80 := by
  rw [standsAlone, Bool.and_eq_true, beq_iff_eq, List.length_eq_one_iff]
  constructor
  · rintro ⟨⟨b, rfl⟩, hall⟩
    exact ⟨b, rfl, by simpa using hall⟩
  · rintro ⟨b, rfl, hb⟩
    exact ⟨⟨b, rfl⟩, by simpa using hb⟩

theorem write_cases (a : Item) :
    (∃ b : UInt8, b < 0x80 ∧ a = string [b] ∧ a.write = [b]) ∨
      a.write = head a.base a.payload.length ++ a.payload := by
  cases a with
  | string bs =>
      by_cases halone : standsAlone bs = true
      · obtain ⟨b, rfl, hb⟩ := standsAlone_iff.mp halone
        exact .inl ⟨b, hb, rfl, by rw [write, if_pos halone]⟩
      · exact .inr (by rw [write, if_neg halone, base, payload])
  | list items => exact .inr (by rw [write, base, payload])

theorem length_payload_le (a : Item) : a.payload.length ≤ a.write.length := by
  rcases a.write_cases with ⟨b, -, rfl, hwrite⟩ | hwrite
  · rw [hwrite, payload]
  · rw [hwrite, List.length_append]
    exact Nat.le_add_left _ _

theorem write_ne_nil (a : Item) : a.write ≠ [] := by
  rcases a.write_cases with ⟨b, -, -, hwrite⟩ | hwrite
  · simp [hwrite]
  · simp [hwrite, head]

theorem lengthTag_lt_iff {n : Nat} (h : n < 256 ^ 8) : lengthTag n < 56 ↔ n < 56 := by
  unfold lengthTag
  split
  · rfl
  · rename_i hlong
    have hdigits : (Bytes.minimalBeBytes 8 n).length ≠ 0 := by
      intro hnone
      have hzero := (Bytes.spells_minimalBeBytes h).value
      rw [List.length_eq_zero_iff.mp hnone] at hzero
      exact hlong (hzero ▸ by decide)
    omega

theorem lengthDigits_append_inj {n n' : Nat} {s t : Bytes} (hn : n < 256 ^ 8) (hn' : n' < 256 ^ 8)
    (htag : lengthTag n = lengthTag n') (h : lengthDigits n ++ s = lengthDigits n' ++ t) :
    n = n' ∧ s = t := by
  have hsame : n < 56 ↔ n' < 56 := by rw [← lengthTag_lt_iff hn, htag, lengthTag_lt_iff hn']
  by_cases hshort : n < 56
  · have hshort' := hsame.mp hshort
    simp only [lengthTag, lengthDigits, hshort, hshort', if_true, List.nil_append] at htag h
    exact ⟨htag, h⟩
  · have hlong' := mt hsame.mpr hshort
    simp only [lengthTag, lengthDigits, hshort, hlong', if_false] at htag h
    obtain ⟨hdigits, hrest⟩ := List.append_inj h (by omega)
    have hvalue := (Bytes.spells_minimalBeBytes hn).value
    rw [hdigits, (Bytes.spells_minimalBeBytes hn').value] at hvalue
    exact ⟨hvalue.symm, hrest⟩

theorem toNat_first (a : Item) (n : Nat) :
    (UInt8.ofNat (a.base + lengthTag n)).toNat = a.base + lengthTag n := by
  have htag := lengthTag_lt n
  rw [UInt8.toNat_ofNat']
  rcases a.base_eq with hbase | hbase <;> omega

theorem head_append_inj {a b : Item} {n n' : Nat} {s t : Bytes} (hn : n < 256 ^ 8)
    (hn' : n' < 256 ^ 8) (h : head a.base n ++ s = head b.base n' ++ t) :
    a.base = b.base ∧ n = n' ∧ s = t := by
  obtain ⟨hfirst, hrest⟩ := List.cons.inj h
  have hsum : a.base + lengthTag n = b.base + lengthTag n' := by
    rw [← toNat_first a n, ← toNat_first b n', hfirst]
  have htag := lengthTag_lt n
  have htag' := lengthTag_lt n'
  have hbase : a.base = b.base := by
    rcases a.base_eq with ha | ha <;> rcases b.base_eq with hb | hb <;> omega
  exact ⟨hbase, lengthDigits_append_inj hn hn' (by omega) hrest⟩

theorem head_append_ne_small {a : Item} {n : Nat} {s t : Bytes} {b : UInt8} (hb : b < 0x80) :
    head a.base n ++ s ≠ b :: t := by
  intro h
  obtain ⟨hfirst, -⟩ := List.cons.inj h
  have hsmall : b.toNat < 128 := UInt8.lt_iff_toNat_lt.mp hb
  rw [← hfirst, toNat_first] at hsmall
  rcases a.base_eq with ha | ha <;> omega

/-- What is written for an item gives its kind and its payload, whatever follows. -/
theorem payload_of_write_append {a b : Item} {s t : Bytes} (ha : a.payload.length < 256 ^ 8)
    (hb : b.payload.length < 256 ^ 8) (h : a.write ++ s = b.write ++ t) :
    a.base = b.base ∧ a.payload = b.payload ∧ s = t := by
  rcases a.write_cases with ⟨x, hx, rfl, hwrite⟩ | hwrite
  · rcases b.write_cases with ⟨y, -, rfl, hwrite'⟩ | hwrite'
    · rw [hwrite, hwrite'] at h
      obtain ⟨rfl, rfl⟩ := List.cons.inj h
      exact ⟨rfl, rfl, rfl⟩
    · rw [hwrite, hwrite', List.append_assoc] at h
      exact absurd h.symm (head_append_ne_small hx)
  · rcases b.write_cases with ⟨y, hy, rfl, hwrite'⟩ | hwrite'
    · rw [hwrite, hwrite', List.append_assoc] at h
      exact absurd h (head_append_ne_small hy)
    · rw [hwrite, hwrite', List.append_assoc, List.append_assoc] at h
      obtain ⟨hbase, hlength, hrest⟩ := head_append_inj ha hb h
      obtain ⟨hpayload, hend⟩ := List.append_inj hrest hlength
      exact ⟨hbase, hpayload, hend⟩

-- The recursion follows the nesting of lists: a list is known from its payload, and a payload from
-- its items, read off one after the other.
mutual

theorem eq_of_payload_eq : ∀ (a b : Item), a.payload.length < 256 ^ 8 → a.base = b.base →
    a.payload = b.payload → a = b
  | string _, string _, _, _, hpayload => congrArg string hpayload
  | string _, list _, _, hbase, _ => absurd hbase (by simp [base])
  | list _, string _, _, hbase, _ => absurd hbase (by simp [base])
  | list xs, list ys, hlength, _, hpayload => congrArg list (eq_of_writeAll_eq xs ys hlength hpayload)

theorem eq_of_writeAll_eq : ∀ (xs ys : List Item), (writeAll xs).length < 256 ^ 8 →
    writeAll xs = writeAll ys → xs = ys
  | [], [], _, _ => rfl
  | [], y :: ys, _, h => absurd (List.append_eq_nil_iff.mp h.symm).1 y.write_ne_nil
  | x :: xs, [], _, h => absurd (List.append_eq_nil_iff.mp h).1 x.write_ne_nil
  | x :: xs, y :: ys, hlength, h => by
      have hlength' := hlength
      rw [h] at hlength'
      simp only [writeAll, List.length_append] at h hlength hlength'
      have hx := x.length_payload_le
      have hy := y.length_payload_le
      obtain ⟨hbase, hpayload, hrest⟩ := payload_of_write_append (by omega) (by omega) h
      rw [eq_of_payload_eq x y (by omega) hbase hpayload, eq_of_writeAll_eq xs ys (by omega) hrest]

end

theorem write_inj {a b : Item} (ha : a.write.length < 256 ^ 8) (h : a.write = b.write) : a = b := by
  have hpayload := a.length_payload_le
  have hpayload' := b.length_payload_le
  rw [← h] at hpayload'
  obtain ⟨hbase, hsame, -⟩ := payload_of_write_append (by omega) (by omega)
    (congrArg (· ++ []) h)
  exact eq_of_payload_eq a b (by omega) hbase hsame

theorem length_itemBytes_le (bs : Bytes) : (itemBytes bs).length ≤ bs.length + 1 := by
  fun_cases itemBytes bs with
  | case1 b hb => exact Nat.le_succ 1
  | case2 b hb => exact Nat.le_refl 2
  | case3 bs hbs => exact Nat.le_refl _

theorem itemBytes_eq_write {bs : Bytes} (h : bs.length < 56) : itemBytes bs = (string bs).write := by
  fun_cases itemBytes bs with
  | case1 b hb => rw [write, if_pos (standsAlone_iff.mpr ⟨b, rfl, hb⟩)]
  | case2 b hb =>
      have halone : ¬standsAlone [b] = true := by simpa [standsAlone_iff] using hb
      rw [write, if_neg halone]
      rfl
  | case3 bs hbs =>
      have halone : ¬standsAlone bs = true := by
        intro halone
        obtain ⟨b, rfl, -⟩ := standsAlone_iff.mp halone
        exact hbs b rfl
      rw [write, if_neg halone, head, lengthTag, lengthDigits, if_pos h, if_pos h]
      rfl

end Item

/-! ## Creations -/

theorem length_creationPreimage_le (creator : Address) (nonce : Nonce) :
    (creationPreimage creator nonce).length ≤ 31 := by
  have hcreator := Item.length_itemBytes_le creator.toBytes
  have hnonce := Item.length_itemBytes_le (Bytes.minimalBeBytes 8 nonce.toNat)
  have hdigits := Bytes.length_minimalBeBytes_le 8 nonce.toNat
  rw [Address.length_toBytes] at hcreator
  simp only [creationPreimage, List.length_cons, List.length_append]
  omega

theorem creationPreimage_eq_write (creator : Address) (nonce : Nonce) :
    creationPreimage creator nonce =
      (Item.list [.string creator.toBytes, .string (Bytes.minimalBeBytes 8 nonce.toNat)]).write := by
  have hcreator := creator.length_toBytes
  have hdigits := Bytes.length_minimalBeBytes_le 8 nonce.toNat
  have hbody : (itemBytes creator.toBytes ++
      itemBytes (Bytes.minimalBeBytes 8 nonce.toNat)).length < 56 :=
    Nat.lt_of_lt_of_le (length_creationPreimage_le creator nonce) (by decide)
  rw [Item.write, Item.writeAll, Item.writeAll, Item.writeAll, List.append_nil,
    ← Item.itemBytes_eq_write (by omega), ← Item.itemBytes_eq_write (by omega), Item.head,
    Item.lengthTag, Item.lengthDigits, if_pos hbody, if_pos hbody]
  rfl

/-- The string hashed for a creation is the written form of one item only. -/
theorem write_eq_creationPreimage_iff (item : Item) (creator : Address) (nonce : Nonce) :
    item.write = creationPreimage creator nonce ↔
      ∃ digits : Bytes, digits.Spells nonce.toNat ∧
        item = .list [.string creator.toBytes, .string digits] := by
  have hlength : (creationPreimage creator nonce).length < 256 ^ 8 :=
    Nat.lt_of_le_of_lt (length_creationPreimage_le creator nonce) (by decide)
  have hspells : ∀ digits : Bytes, digits.Spells nonce.toNat ↔
      digits = Bytes.minimalBeBytes 8 nonce.toNat := fun _ ↦ Bytes.spells_iff nonce.toNat_lt
  simp only [hspells, exists_eq_left]
  constructor
  · intro h
    rw [← h] at hlength
    rw [creationPreimage_eq_write] at h
    exact Item.write_inj hlength h
  · rintro rfl
    exact (creationPreimage_eq_write creator nonce).symm

example : ([0, 0x7f, 0x80, 0xff, 0x100].map fun n ↦ (creationPreimage 17 n).drop 22) =
    [[0x80], [0x7f], [0x81, 0x80], [0x81, 0xff], [0x82, 1, 0]] := by decide

theorem creationPreimage_inj {creator creator' : Address} {nonce nonce' : Nonce}
    (h : creationPreimage creator nonce = creationPreimage creator' nonce') :
    creator = creator' ∧ nonce = nonce' := by
  have hwrite := creationPreimage_eq_write creator nonce
  rw [h, eq_comm, write_eq_creationPreimage_iff] at hwrite
  obtain ⟨digits, hspells', hitem⟩ := hwrite
  simp only [Item.list.injEq, List.cons.injEq, Item.string.injEq, and_true] at hitem
  obtain ⟨hcreator, rfl⟩ := hitem
  have hspells : (Bytes.minimalBeBytes 8 nonce.toNat).Spells nonce.toNat :=
    Bytes.spells_minimalBeBytes nonce.toNat_lt
  exact ⟨Address.toBytes_inj hcreator, UInt64.toNat_inj.mp (hspells.value.symm.trans hspells'.value)⟩

theorem Address.toBytes_ofCreation (creator : Address) (nonce : Nonce) :
    (ofCreation creator nonce).toBytes =
      (keccak256 (creationPreimage creator nonce)).toBytes.drop 12 :=
  Word.toBytes_toAddress _

/-- Two different strings whose digests end in the same twenty bytes. -/
def AddressCollision (x y : Bytes) : Prop :=
  x ≠ y ∧ (keccak256 x).toBytes.drop 12 = (keccak256 y).toBytes.drop 12

/-- Creator and nonce are known from the string that is hashed for the address of a new contract.
That string is what the recursive length format writes for the list of the creator and the digits of
the nonce, and for no other item; it is the same for two creations only if they have the same creator
at the same nonce.  So the addresses of two creations with different creators or nonces are the same
only if the digests of two different strings end alike. -/
theorem creation_preimages_are_unique (creator creator' : Address) (nonce nonce' : Nonce) :
    (∀ item : Item, item.write = creationPreimage creator nonce ↔
      ∃ digits : Bytes, digits.Spells nonce.toNat ∧
        item = .list [.string creator.toBytes, .string digits]) ∧
    (creationPreimage creator nonce = creationPreimage creator' nonce' ↔
      creator = creator' ∧ nonce = nonce') ∧
    (Address.ofCreation creator nonce = Address.ofCreation creator' nonce' ↔
      (creator = creator' ∧ nonce = nonce') ∨
        AddressCollision (creationPreimage creator nonce) (creationPreimage creator' nonce')) := by
  have hunique : creationPreimage creator nonce = creationPreimage creator' nonce' ↔
      creator = creator' ∧ nonce = nonce' := by
    refine ⟨creationPreimage_inj, ?_⟩
    rintro ⟨rfl, rfl⟩
    rfl
  refine ⟨fun item ↦ write_eq_creationPreimage_iff item creator nonce, hunique, ?_⟩
  have hshared : Address.ofCreation creator nonce = Address.ofCreation creator' nonce' ↔
      (keccak256 (creationPreimage creator nonce)).toBytes.drop 12 =
        (keccak256 (creationPreimage creator' nonce')).toBytes.drop 12 := by
    rw [← Address.toBytes_ofCreation, ← Address.toBytes_ofCreation]
    exact ⟨congrArg _, Address.toBytes_inj⟩
  rw [hshared, ← hunique]
  constructor
  · intro hdigest
    by_cases hsame : creationPreimage creator nonce = creationPreimage creator' nonce'
    · exact .inl hsame
    · exact .inr ⟨hsame, hdigest⟩
  · rintro (hsame | ⟨-, hdigest⟩)
    · rw [hsame]
    · exact hdigest

end MeteredLedger
