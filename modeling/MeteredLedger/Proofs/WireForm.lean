import MeteredLedger.Transaction.Wire
import MeteredLedger.Word.Lemmas

/-!
# The wire form is canonical

Each reader takes one field off the front of a byte string, and it does so exactly when the string
opens with a form of that field; what it leaves is the rest.  Every field has one form only: numbers
have a fixed width, the flag of a target has two values, and the length of the data is the one that
is written before it.  A sequence of readers therefore accepts exactly the fields written one after
another, and a transaction is read from its own wire form and from nothing else.
-/

namespace MeteredLedger

/-! ## Readers -/

namespace Wire

variable {α β : Type} {bs rest : Bytes}

theorem bind_eq_ok_iff {x : Reader α} {f : α → Reader β} {b : β} :
    (x >>= f) bs = .ok (b, rest) ↔ ∃ a mid, x bs = .ok (a, mid) ∧ f a mid = .ok (b, rest) := by
  change (x bs >>= fun p ↦ f p.1 p.2) = _ ↔ _
  cases hx : x bs with
  | error e =>
      constructor
      · intro h
        cases h
      · rintro ⟨a, mid, h, -⟩
        cases h
  | ok p =>
      constructor
      · intro h
        exact ⟨p.1, p.2, rfl, h⟩
      · rintro ⟨a, mid, h, hf⟩
        cases h
        exact hf

theorem pure_eq_ok_iff {a b : α} :
    (pure a : Reader α) bs = .ok (b, rest) ↔ a = b ∧ bs = rest := by
  change (.ok (a, bs) : Except WireError (α × Bytes)) = _ ↔ _
  simp

theorem bytes_eq_ok_iff {n : Nat} {front : Bytes} :
    bytes n bs = .ok (front, rest) ↔ front.length = n ∧ bs = front ++ rest := by
  unfold bytes
  constructor
  · intro h
    split at h
    · rename_i hle
      cases h
      exact ⟨List.length_take_of_le hle, (List.take_append_drop n bs).symm⟩
    · cases h
  · rintro ⟨rfl, rfl⟩
    simp

theorem vector_eq_ok_iff {n : Nat} {v : Vector UInt8 n} :
    vector n bs = .ok (v, rest) ↔ bs = v.toList ++ rest := by
  unfold vector
  constructor
  · intro h
    split at h
    · cases h
      exact (List.take_append_drop n bs).symm
    · cases h
  · rintro rfl
    have hlength : n ≤ (v.toList ++ rest).length := by simp
    rw [dif_pos hlength]
    have hfront : (v.toList ++ rest).take n = v.toList := List.take_left' v.length_toList
    have hrest : (v.toList ++ rest).drop n = rest := List.drop_left' v.length_toList
    simp only [hfront, hrest]
    rfl

theorem number_eq_ok_iff {width n : Nat} :
    number width bs = .ok (n, rest) ↔ n < 256 ^ width ∧ bs = Bytes.leBytes width n ++ rest := by
  simp only [number, bind_eq_ok_iff, bytes_eq_ok_iff, pure_eq_ok_iff]
  constructor
  · rintro ⟨front, mid, ⟨rfl, rfl⟩, rfl, rfl⟩
    exact ⟨Bytes.ofLeBytes_lt front, by rw [Bytes.leBytes_ofLeBytes]⟩
  · rintro ⟨hlt, rfl⟩
    refine ⟨_, rest, ⟨Bytes.length_leBytes width n, rfl⟩, ?_, rfl⟩
    rw [Bytes.ofLeBytes_leBytes, Nat.mod_eq_of_lt hlt]

theorem number_eq_ok_iff_uint64 {n : Nat} :
    number 8 bs = .ok (n, rest) ↔
      ∃ x : UInt64, x.toNat = n ∧ bs = Bytes.leBytes 8 x.toNat ++ rest := by
  rw [number_eq_ok_iff]
  constructor
  · rintro ⟨hlt, hbs⟩
    have hx : (UInt64.ofNat n).toNat = n := UInt64.toNat_ofNat_of_lt' hlt
    exact ⟨UInt64.ofNat n, hx, by rw [hx, hbs]⟩
  · rintro ⟨x, rfl, hbs⟩
    exact ⟨x.toNat_lt, hbs⟩

theorem number_eq_ok_iff_wei {n : Nat} :
    number 16 bs = .ok (n, rest) ↔
      ∃ x : Wei, x.toNat = n ∧ bs = Bytes.leBytes 16 x.toNat ++ rest := by
  rw [number_eq_ok_iff]
  constructor
  · rintro ⟨hlt, hbs⟩
    have hx : (BitVec.ofNat 128 n).toNat = n := by
      rw [BitVec.toNat_ofNat]
      exact Nat.mod_eq_of_lt hlt
    exact ⟨BitVec.ofNat 128 n, hx, by rw [hx, hbs]⟩
  · rintro ⟨x, rfl, hbs⟩
    exact ⟨x.isLt, hbs⟩

/-- Every number of eight bytes can be addressed. -/
theorem length_eq_number : length = number 8 := by
  funext bs
  change (number 8 bs >>= fun p ↦ (if p.1 ≤ maxLength then pure p.1 else throw _ : Reader Nat) p.2) = _
  cases hn : number 8 bs with
  | error e => rfl
  | ok p =>
      have hle : p.1 ≤ maxLength := Nat.le_of_lt_succ (number_eq_ok_iff.mp hn).1
      change (if p.1 ≤ maxLength then pure p.1 else throw _ : Reader Nat) p.2 = _
      rw [if_pos hle]
      rfl

theorem target_eq_ok_iff {t : Option Address} :
    target bs = .ok (t, rest) ↔ bs = targetBytes t ++ rest := by
  simp only [target, bind_eq_ok_iff, bytes_eq_ok_iff]
  constructor
  · rintro ⟨flag, mid, ⟨hlength, rfl⟩, h⟩
    obtain ⟨b, rfl⟩ := List.length_eq_one_iff.mp hlength
    simp only [List.headD_cons] at h
    split at h
    · obtain ⟨rfl, rfl⟩ := pure_eq_ok_iff.mp h
      rfl
    · simp only [bind_eq_ok_iff, bytes_eq_ok_iff, pure_eq_ok_iff] at h
      obtain ⟨front, mid', ⟨hfront, rfl⟩, rfl, rfl⟩ := h
      simp [targetBytes, Address.toBytes_ofBytes hfront]
    · cases h
  · rintro rfl
    cases t with
    | none => exact ⟨[0], rest, ⟨rfl, rfl⟩, rfl⟩
    | some a =>
        refine ⟨[1], a.toBytes ++ rest, ⟨rfl, rfl⟩, ?_⟩
        simp only [List.headD_cons, bind_eq_ok_iff, bytes_eq_ok_iff, pure_eq_ok_iff]
        exact ⟨a.toBytes, rest, ⟨a.length_toBytes, rfl⟩, by rw [Address.ofBytes_toBytes], rfl⟩

end Wire

/-! ## Transactions -/

namespace Transaction

variable {tx : Transaction} {bs rest : Bytes}

theorem read_eq_ok_iff :
    read bs = .ok (tx, rest) ↔ tx.data.length < 2 ^ 64 ∧ bs = tx.toBytes ++ rest := by
  simp only [read, Wire.bind_eq_ok_iff, Wire.number_eq_ok_iff_uint64, Wire.number_eq_ok_iff_wei,
    Wire.length_eq_number, Wire.target_eq_ok_iff, Wire.bytes_eq_ok_iff, Wire.vector_eq_ok_iff,
    Wire.pure_eq_ok_iff]
  constructor
  · rintro ⟨_, _, ⟨nonce, rfl, rfl⟩, _, _, ⟨gasPrice, rfl, rfl⟩, _, _, ⟨gasLimit, rfl, rfl⟩, target,
      _, rfl, _, _, ⟨value, rfl, rfl⟩, _, _, ⟨length, rfl, rfl⟩, data, _, ⟨hdata, rfl⟩, publicKey, _,
      rfl, signature, _, rfl, rfl, rfl⟩
    refine ⟨?_, ?_⟩
    · rw [hdata]
      exact length.toNat_lt
    · simp [toBytes, bodyBytes, hdata]
  · rintro ⟨hdata, rfl⟩
    have hlength : (UInt64.ofNat tx.data.length).toNat = tx.data.length :=
      UInt64.toNat_ofNat_of_lt' hdata
    refine ⟨_, _, ⟨tx.nonce, rfl, ?_⟩, _, _, ⟨tx.gasPrice, rfl, rfl⟩, _, _, ⟨tx.gasLimit, rfl, rfl⟩,
      tx.target, _, rfl, _, _, ⟨tx.value, rfl, rfl⟩, _, _, ⟨UInt64.ofNat tx.data.length, rfl, rfl⟩,
      tx.data, _, ⟨hlength.symm, rfl⟩, tx.publicKey, _, rfl, tx.signature, rest, rfl, ?_, rfl⟩
    · simp [toBytes, bodyBytes, hlength]
    · simp

theorem ofBytes_eq_ok_iff :
    ofBytes bs = .ok tx ↔ tx.data.length < 2 ^ 64 ∧ tx.toBytes = bs := by
  unfold ofBytes
  change (read bs >>= fun p ↦ if p.2.isEmpty then pure p.1 else throw _) = _ ↔ _
  constructor
  · intro h
    cases hbs : read bs with
    | error e =>
        rw [hbs] at h
        cases h
    | ok p =>
        rw [hbs] at h
        obtain ⟨tx', rest⟩ := p
        cases rest with
        | nil =>
            cases h
            obtain ⟨hdata, rfl⟩ := read_eq_ok_iff.mp hbs
            exact ⟨hdata, by simp⟩
        | cons b rest => cases h
  · rintro ⟨hdata, rfl⟩
    have hbs : read tx.toBytes = .ok (tx, []) := read_eq_ok_iff.mpr ⟨hdata, by simp⟩
    rw [hbs]
    rfl

end Transaction

/-- The wire form is canonical: a transaction whose data can be measured is read back from its own
wire form, whatever bytes are read as a transaction are its wire form, and so no transaction has two
forms that are accepted. -/
theorem wire_form_is_canonical :
    (∀ tx : Transaction, tx.data.length < 2 ^ 64 → Transaction.ofBytes tx.toBytes = .ok tx) ∧
      (∀ (bs : Bytes) (tx : Transaction), Transaction.ofBytes bs = .ok tx → tx.toBytes = bs) ∧
      (∀ (bs bs' : Bytes) (tx : Transaction), Transaction.ofBytes bs = .ok tx →
        Transaction.ofBytes bs' = .ok tx → bs = bs') := by
  have hform : ∀ {bs : Bytes} {tx : Transaction}, Transaction.ofBytes bs = .ok tx →
      tx.toBytes = bs := fun h ↦ (Transaction.ofBytes_eq_ok_iff.mp h).2
  refine ⟨?_, ?_, ?_⟩
  · intro tx hdata
    exact Transaction.ofBytes_eq_ok_iff.mpr ⟨hdata, rfl⟩
  · intro bs tx h
    exact hform h
  · intro bs bs' tx h h'
    exact (hform h).symm.trans (hform h')

/-- A call with data, whose key and signature are of no account here. -/
def wiredTransaction : Transaction where
  nonce := 7
  gasPrice := 3
  gasLimit := 100000
  target := some 0xaaaaaaaaaaaaaaaaaaaaaaaaaaaaaaaaaaaaaaaa
  value := 1000
  data := [1, 2, 3, 4]
  publicKey := Vector.replicate 32 0x11
  signature := Vector.replicate 64 0x22

theorem wired_transaction_has_one_form :
    Transaction.ofBytes wiredTransaction.toBytes = .ok wiredTransaction ∧
      ∀ bs, Transaction.ofBytes bs = .ok wiredTransaction → bs = wiredTransaction.toBytes := by
  obtain ⟨hread, -, hsame⟩ := wire_form_is_canonical
  have hok := hread wiredTransaction (by decide)
  exact ⟨hok, fun bs h ↦ hsame bs _ wiredTransaction h hok⟩

end MeteredLedger
