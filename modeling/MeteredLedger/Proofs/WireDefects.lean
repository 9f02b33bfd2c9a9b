import Mathlib.Logic.ExistsUnique
import MeteredLedger.Proofs.WireForm

/-!
# What is wrong with bytes that are no wire form

A byte string that is no wire form is refused for one of three reasons, and which one it is can be
told from the string alone: its flag byte has no meaning, or it goes on after a wire form, or it ends
before one does.  That the last two exclude each other is where it matters that no wire form opens
another.  That there is no fourth reason is where it matters that a reader which runs out of bytes can
always be given more, whatever length it was told: `Reader.Resumable` says so, field by field.
-/

namespace MeteredLedger

/-! ## Readers that run out of bytes -/

namespace Wire

variable {α β : Type} {bs rest : Bytes}

theorem bind_eq_error_iff {x : Reader α} {f : α → Reader β} {e : WireError} :
    (x >>= f) bs = .error e ↔
      x bs = .error e ∨ ∃ a mid, x bs = .ok (a, mid) ∧ f a mid = .error e := by
  change (x bs >>= fun p ↦ f p.1 p.2) = _ ↔ _
  cases hx : x bs with
  | error e' =>
      constructor
      · intro h
        cases h
        exact .inl rfl
      · rintro (h | ⟨a, mid, h, -⟩)
        · cases h
          rfl
        · cases h
  | ok p =>
      constructor
      · intro h
        exact .inr ⟨p.1, p.2, rfl, h⟩
      · rintro (h | ⟨a, mid, h, hf⟩)
        · cases h
        · cases h
          exact hf

theorem pure_ne_error {a : α} {e : WireError} : (pure a : Reader α) bs ≠ .error e := by
  intro h
  cases h

theorem bytes_eq_error_iff {n : Nat} {e : WireError} :
    bytes n bs = .error e ↔ bs.length < n ∧ e = .unexpectedEnd := by
  unfold bytes
  split
  · rename_i hle
    simp [Nat.not_lt.mpr hle]
  · rename_i hlt
    simp [Nat.not_le.mp hlt, eq_comm]

theorem vector_eq_error_iff {n : Nat} {e : WireError} :
    vector n bs = .error e ↔ bs.length < n ∧ e = .unexpectedEnd := by
  unfold vector
  split
  · rename_i hle
    simp [Nat.not_lt.mpr hle]
  · rename_i hlt
    simp [Nat.not_le.mp hlt, eq_comm]

theorem number_eq_error_iff {width : Nat} {e : WireError} :
    number width bs = .error e ↔ bs.length < width ∧ e = .unexpectedEnd := by
  simp only [number, bind_eq_error_iff, bytes_eq_error_iff, pure_ne_error, and_false, exists_false,
    or_false]

theorem target_eq_error {flag : UInt8} (hzero : flag ≠ 0) (hone : flag ≠ 1) (tail : Bytes) :
    target (flag :: tail) = .error (.invalidFlag "to" flag) := by
  refine bind_eq_error_iff.mpr (.inr ⟨[flag], tail, rfl, ?_⟩)
  simp only [List.headD_cons]
  rfl

theorem target_eq_error_iff {e : WireError} :
    target bs = .error e ↔
      (e = .unexpectedEnd ∧ (bs = [] ∨ ∃ tail, bs = 1 :: tail ∧ tail.length < 20)) ∨
        ∃ value tail, bs = value :: tail ∧ value ≠ 0 ∧ value ≠ 1 ∧ e = .invalidFlag "to" value := by
  cases bs with
  | nil =>
      constructor
      · intro h
        cases h
        exact .inl ⟨rfl, .inl rfl⟩
      · rintro (⟨rfl, -⟩ | ⟨value, tail, h, -⟩)
        · rfl
        · cases h
  | cons flag tail =>
      by_cases hzero : flag = 0
      · subst hzero
        have hread : target (0 :: tail) = .ok (none, tail) := rfl
        simp [hread]
      by_cases hone : flag = 1
      · subst hone
        have hread : target (1 :: tail) = (do return some (Address.ofBytes (← bytes 20))) tail := rfl
        simp only [hread, bind_eq_error_iff, bytes_eq_error_iff, pure_ne_error, and_false,
          exists_false, or_false]
        simp [and_comm]
      · rw [target_eq_error hzero hone]
        simp [hzero, hone, eq_comm]

/-- A reader that takes no notice of what follows, and that can be given the rest wherever the bytes
end too soon for it. -/
structure Reader.Resumable (x : Reader α) : Prop where
  append : ∀ {bs a rest} (more : Bytes), x bs = .ok (a, rest) → x (bs ++ more) = .ok (a, rest ++ more)
  resume : ∀ {bs}, x bs = .error .unexpectedEnd → ∃ more a, x (bs ++ more) = .ok (a, [])
  satisfied : ∃ bs a, x bs = .ok (a, [])

namespace Reader.Resumable

theorem pure (a : α) : Resumable (Pure.pure a : Reader α) where
  append more h := by
    obtain ⟨rfl, rfl⟩ := pure_eq_ok_iff.mp h
    rfl
  resume h := absurd h pure_ne_error
  satisfied := ⟨[], a, rfl⟩

theorem bind {x : Reader α} {f : α → Reader β} (hx : x.Resumable) (hf : ∀ a, (f a).Resumable) :
    (x >>= f).Resumable where
  append more h := by
    obtain ⟨a, mid, hfirst, hsecond⟩ := bind_eq_ok_iff.mp h
    exact bind_eq_ok_iff.mpr ⟨a, _, hx.append more hfirst, (hf a).append more hsecond⟩
  resume h := by
    rcases bind_eq_error_iff.mp h with hfirst | ⟨a, mid, hfirst, hsecond⟩
    · -- The second reader gets bytes of its own after those that the first one lacks.
      obtain ⟨more, a, hresumed⟩ := hx.resume hfirst
      obtain ⟨own, b, hown⟩ := (hf a).satisfied
      refine ⟨more ++ own, b, bind_eq_ok_iff.mpr ⟨a, own, ?_, hown⟩⟩
      rw [← List.append_assoc]
      exact hx.append own hresumed
    · obtain ⟨more, b, hresumed⟩ := (hf a).resume hsecond
      exact ⟨more, b, bind_eq_ok_iff.mpr ⟨a, mid ++ more, hx.append more hfirst, hresumed⟩⟩
  satisfied := by
    obtain ⟨first, a, hfirst⟩ := hx.satisfied
    obtain ⟨own, b, hown⟩ := (hf a).satisfied
    exact ⟨first ++ own, b, bind_eq_ok_iff.mpr ⟨a, own, hx.append own hfirst, hown⟩⟩

theorem bytes (n : Nat) : (Wire.bytes n).Resumable where
  append more h := by
    obtain ⟨hlength, rfl⟩ := bytes_eq_ok_iff.mp h
    exact bytes_eq_ok_iff.mpr ⟨hlength, List.append_assoc _ _ _⟩
  resume {bs} h := by
    obtain ⟨hshort, -⟩ := bytes_eq_error_iff.mp h
    refine ⟨List.replicate (n - bs.length) 0, bs ++ List.replicate (n - bs.length) 0, ?_⟩
    rw [bytes_eq_ok_iff, List.length_append, List.length_replicate, List.append_nil]
    exact ⟨by omega, rfl⟩
  satisfied := ⟨List.replicate n 0, List.replicate n 0, bytes_eq_ok_iff.mpr (by simp)⟩

theorem vector (n : Nat) : (Wire.vector n).Resumable where
  append more h := by
    obtain rfl := vector_eq_ok_iff.mp h
    exact vector_eq_ok_iff.mpr (List.append_assoc _ _ _)
  resume {bs} h := by
    obtain ⟨hshort, -⟩ := vector_eq_error_iff.mp h
    have hfull : (bs ++ List.replicate (n - bs.length) 0).toArray.size = n := by
      rw [List.size_toArray, List.length_append, List.length_replicate]
      omega
    refine ⟨List.replicate (n - bs.length) 0, ⟨_, hfull⟩, vector_eq_ok_iff.mpr ?_⟩
    simp
  satisfied := ⟨List.replicate n 0, Vector.replicate n 0, vector_eq_ok_iff.mpr (by simp)⟩

theorem number (width : Nat) : (Wire.number width).Resumable :=
  bind (bytes width) fun _ ↦ pure _

theorem length : Wire.length.Resumable := by
  rw [length_eq_number]
  exact number 8

theorem target : Wire.target.Resumable where
  append more h := by
    obtain rfl := target_eq_ok_iff.mp h
    exact target_eq_ok_iff.mpr (List.append_assoc _ _ _)
  resume h := by
    rcases target_eq_error_iff.mp h with ⟨-, rfl | ⟨tail, rfl, hshort⟩⟩ | ⟨value, tail, -, -, -, hflag⟩
    · exact ⟨[0], none, rfl⟩
    · have hfull : (tail ++ List.replicate (20 - tail.length) 0).length = 20 := by
        rw [List.length_append, List.length_replicate]
        omega
      refine ⟨List.replicate (20 - tail.length) 0,
        some (Address.ofBytes (tail ++ List.replicate (20 - tail.length) 0)), target_eq_ok_iff.mpr ?_⟩
      rw [targetBytes, Address.toBytes_ofBytes hfull, List.append_nil, List.cons_append]
    · cases hflag
  satisfied := ⟨[0], none, rfl⟩

end Reader.Resumable

end Wire

/-! ## Transactions -/

namespace Transaction

variable {tx : Transaction} {bs : Bytes} {e : WireError}

theorem read_resumable : read.Resumable := by
  unfold read
  apply (Wire.Reader.Resumable.number 8).bind
  intro nonce
  apply (Wire.Reader.Resumable.number 16).bind
  intro gasPrice
  apply (Wire.Reader.Resumable.number 8).bind
  intro gasLimit
  apply Wire.Reader.Resumable.target.bind
  intro target
  apply (Wire.Reader.Resumable.number 16).bind
  intro value
  apply Wire.Reader.Resumable.length.bind
  intro length
  apply (Wire.Reader.Resumable.bytes length).bind
  intro data
  apply (Wire.Reader.Resumable.vector 32).bind
  intro publicKey
  apply (Wire.Reader.Resumable.vector 64).bind
  intro signature
  exact .pure _

/-- Three numbers of 32 bytes together stand before the target. -/
theorem getElem?_after_numbers (nonce gasPrice gasLimit : Nat) (flag : UInt8) (tail : Bytes) :
    (Bytes.leBytes 8 nonce ++ (Bytes.leBytes 16 gasPrice ++ (Bytes.leBytes 8 gasLimit ++
      flag :: tail)))[32]? = some flag := by
  simp [List.getElem?_append]

theorem toBytes_flag (tx : Transaction) (rest : Bytes) :
    ∃ flag, (tx.toBytes ++ rest)[32]? = some flag ∧ (flag = 0 ∨ flag = 1) := by
  cases htarget : tx.target with
  | none =>
      refine ⟨0, ?_, .inl rfl⟩
      simp only [toBytes, bodyBytes, htarget, Wire.targetBytes, List.append_assoc, List.cons_append,
        getElem?_after_numbers]
  | some a =>
      refine ⟨1, ?_, .inr rfl⟩
      simp only [toBytes, bodyBytes, htarget, Wire.targetBytes, List.append_assoc, List.cons_append,
        getElem?_after_numbers]

/-- Reading fails because the bytes end too soon or because of the flag, which is looked at only once
the numbers before it are there. -/
theorem read_eq_error (h : read bs = .error e) :
    e = .unexpectedEnd ∨
      ∃ flag, e = .invalidFlag "to" flag ∧ bs[32]? = some flag ∧ flag ≠ 0 ∧ flag ≠ 1 := by
  simp only [read, Wire.bind_eq_error_iff, Wire.number_eq_error_iff, Wire.length_eq_number,
    Wire.bytes_eq_error_iff, Wire.vector_eq_error_iff, Wire.pure_ne_error, and_false, exists_false,
    or_false] at h
  rcases h with h | ⟨nonce, _, hnonce, h | ⟨gasPrice, _, hprice, h | ⟨gasLimit, _, hlimit, h⟩⟩⟩
  · exact .inl h.2
  · exact .inl h.2
  · exact .inl h.2
  obtain ⟨-, rfl⟩ := Wire.number_eq_ok_iff.mp hnonce
  obtain ⟨-, rfl⟩ := Wire.number_eq_ok_iff.mp hprice
  obtain ⟨-, rfl⟩ := Wire.number_eq_ok_iff.mp hlimit
  rcases h with h | ⟨target, _, -, h⟩
  · rcases Wire.target_eq_error_iff.mp h with ⟨hend, -⟩ | ⟨flag, tail, rfl, hzero, hone, hflag⟩
    · exact .inl hend
    · exact .inr ⟨flag, hflag, getElem?_after_numbers .., hzero, hone⟩
  · left
    rcases h with h | ⟨value, _, -, h | ⟨length, _, -, h | ⟨data, _, -, h | ⟨publicKey, _, -, h⟩⟩⟩⟩
    all_goals exact h.2

/-- The wire form of a transaction whose data can be measured. -/
def IsWireForm (bs : Bytes) : Prop := ∃ tx : Transaction, tx.data.length < 2 ^ 64 ∧ tx.toBytes = bs

/-- What a byte string can be to a reader of transactions. -/
inductive Verdict where
  | whole (tx : Transaction)
  | badFlag (flag : UInt8)
  | overlong (excess : Nat)
  | cutShort

namespace Verdict

def Describes (bs : Bytes) : Verdict → Prop
  | whole tx => tx.data.length < 2 ^ 64 ∧ tx.toBytes = bs
  | badFlag flag => bs[32]? = some flag ∧ flag ≠ 0 ∧ flag ≠ 1
  | overlong excess =>
    0 < excess ∧ ∃ form rest, IsWireForm form ∧ bs = form ++ rest ∧ rest.length = excess
  | cutShort => ∃ form rest, IsWireForm form ∧ form = bs ++ rest ∧ rest ≠ []

def answer : Verdict → Except WireError Transaction
  | whole tx => .ok tx
  | badFlag flag => .error (.invalidFlag "to" flag)
  | overlong excess => .error (.trailingBytes excess)
  | cutShort => .error .unexpectedEnd

theorem answer_inj {v v' : Verdict} (h : v.answer = v'.answer) : v = v' := by
  cases v <;> cases v' <;> simp_all [answer]

end Verdict

theorem ofBytes_of_read_ok {rest : Bytes} (h : read bs = .ok (tx, rest)) :
    ofBytes bs = if rest.isEmpty then .ok tx else .error (.trailingBytes rest.length) := by
  unfold ofBytes
  change (read bs >>= fun p ↦ if p.2.isEmpty then pure p.1 else throw _) = _
  rw [h]
  rfl

theorem ofBytes_of_read_error (h : read bs = .error e) : ofBytes bs = .error e := by
  unfold ofBytes
  change (read bs >>= fun p ↦ if p.2.isEmpty then pure p.1 else throw _) = _
  rw [h]
  rfl

/-- A byte string with a flag of no meaning neither opens with a wire form nor opens one. -/
theorem flag_of_form {form rest : Bytes} {flag : UInt8} (hform : IsWireForm form)
    (hflag : (form ++ rest)[32]? = some flag) : flag = 0 ∨ flag = 1 := by
  obtain ⟨tx, -, rfl⟩ := hform
  obtain ⟨flag', hflag', hmeaning⟩ := tx.toBytes_flag rest
  rw [hflag'] at hflag
  cases hflag
  exact hmeaning

/-- Where the bytes end too soon for reading, they open a wire form. -/
theorem exists_form_of_read_end (h : read bs = .error .unexpectedEnd) :
    ∃ form rest, IsWireForm form ∧ form = bs ++ rest ∧ rest ≠ [] := by
  obtain ⟨more, tx, hread⟩ := read_resumable.resume h
  obtain ⟨hdata, hform⟩ := read_eq_ok_iff.mp hread
  rw [List.append_nil] at hform
  refine ⟨bs ++ more, more, ⟨tx, hdata, hform.symm⟩, rfl, ?_⟩
  rintro rfl
  rw [List.append_nil, h] at hread
  cases hread

/-- Every byte string has a verdict that describes it and that reading agrees with. -/
theorem exists_verdict (bs : Bytes) :
    ∃ verdict : Verdict, verdict.Describes bs ∧ ofBytes bs = verdict.answer := by
  cases hread : read bs with
  | ok p =>
      obtain ⟨tx, rest⟩ := p
      obtain ⟨hdata, hbs⟩ := read_eq_ok_iff.mp hread
      have hanswer := ofBytes_of_read_ok hread
      cases rest with
      | nil =>
          rw [List.append_nil] at hbs
          exact ⟨.whole tx, ⟨hdata, hbs.symm⟩, hanswer⟩
      | cons b rest =>
          exact ⟨.overlong (b :: rest).length,
            ⟨Nat.succ_pos _, tx.toBytes, b :: rest, ⟨tx, hdata, rfl⟩, hbs, rfl⟩, hanswer⟩
  | error e =>
      have hanswer := ofBytes_of_read_error hread
      rcases read_eq_error hread with rfl | ⟨flag, rfl, hflag⟩
      · exact ⟨.cutShort, exists_form_of_read_end hread, hanswer⟩
      · exact ⟨.badFlag flag, hflag, hanswer⟩

/-- No wire form opens another. -/
theorem form_append_inj {form form' rest rest' : Bytes} (hform : IsWireForm form)
    (hform' : IsWireForm form') (h : form ++ rest = form' ++ rest') : form = form' ∧ rest = rest' := by
  obtain ⟨tx, hdata, rfl⟩ := hform
  obtain ⟨tx', hdata', rfl⟩ := hform'
  have hread : read (tx.toBytes ++ rest) = .ok (tx, rest) := read_eq_ok_iff.mpr ⟨hdata, rfl⟩
  have hread' : read (tx.toBytes ++ rest) = .ok (tx', rest') := read_eq_ok_iff.mpr ⟨hdata', h⟩
  rw [hread] at hread'
  cases hread'
  exact ⟨rfl, rfl⟩

namespace Verdict

variable {v v' : Verdict}

theorem Describes.flag_ne (h : v.Describes bs) {flag : UInt8} (hflag : bs[32]? = some flag)
    (hmeaning : flag ≠ 0 ∧ flag ≠ 1) : v = .badFlag flag := by
  have hlt := (List.getElem?_eq_some_iff.mp hflag).1
  -- The byte is the flag of a wire form in all other cases.
  have habsurd : ∀ {form rest : Bytes}, IsWireForm form → (form ++ rest)[32]? ≠ some flag := by
    intro form rest hform hbyte
    rcases flag_of_form hform hbyte with hzero | hone
    · exact hmeaning.1 hzero
    · exact hmeaning.2 hone
  cases v with
  | whole tx =>
      rw [← List.append_nil bs] at hflag
      exact absurd hflag (habsurd ⟨tx, h.1, h.2⟩)
  | badFlag flag' =>
      obtain ⟨hflag', -⟩ := h
      rw [hflag] at hflag'
      cases hflag'
      rfl
  | overlong excess =>
      obtain ⟨-, form, rest, hform, rfl, -⟩ := h
      exact absurd hflag (habsurd hform)
  | cutShort =>
      obtain ⟨form, rest, hform, rfl, -⟩ := h
      rw [← List.getElem?_append_left hlt, ← List.append_nil (bs ++ rest)] at hflag
      exact absurd hflag (habsurd hform)

theorem Describes.answer_eq (h : v.Describes bs) : ofBytes bs = v.answer := by
  cases v with
  | whole tx => exact ofBytes_eq_ok_iff.mpr h
  | overlong excess =>
      obtain ⟨hpos, form, rest, ⟨tx, hdata, rfl⟩, rfl, rfl⟩ := h
      have hrest : ¬rest.isEmpty = true := by simpa using List.ne_nil_of_length_pos hpos
      rw [ofBytes_of_read_ok (read_eq_ok_iff.mpr ⟨hdata, rfl⟩), if_neg hrest]
      rfl
  | badFlag flag =>
      obtain ⟨v', hv', hanswer⟩ := exists_verdict bs
      rw [hanswer, hv'.flag_ne h.1 h.2]
  | cutShort =>
      have hcut := h
      obtain ⟨form, more, hform, rfl, hmore⟩ := hcut
      have hopens : ∀ {form' rest' : Bytes}, IsWireForm form' → bs ≠ form' ++ rest' := by
        rintro form' rest' hform' rfl
        have hsplit : form' ++ rest' ++ more ++ [] = form' ++ (rest' ++ more) := by simp
        obtain ⟨-, hnil⟩ := form_append_inj hform hform' hsplit
        exact hmore (List.append_eq_nil_iff.mp hnil.symm).2
      obtain ⟨v', hv', hanswer⟩ := exists_verdict bs
      cases v' with
      | whole tx => exact absurd (List.append_nil bs).symm (hopens ⟨tx, hv'.1, hv'.2⟩)
      | badFlag flag => cases h.flag_ne hv'.1 hv'.2
      | overlong excess =>
          obtain ⟨-, form', rest', hform', hbs, -⟩ := hv'
          exact absurd hbs (hopens hform')
      | cutShort => exact hanswer

theorem describes_iff : v.Describes bs ↔ ofBytes bs = v.answer := by
  constructor
  · exact Describes.answer_eq
  · intro h
    obtain ⟨v', hv', hanswer⟩ := exists_verdict bs
    rwa [answer_inj (h.symm.trans hanswer)]

end Verdict

end Transaction

/-- Bytes that cannot be read are classified.  Exactly one verdict describes a byte string: it is the
wire form of a transaction, or its flag byte has no meaning, or some bytes follow a wire form, or it
ends inside one.  The answer of reading is that of the verdict, so no length is ever found to be out
of range. -/
theorem unreadable_bytes_are_classified (bs : Bytes) :
    (∃! verdict : Transaction.Verdict, verdict.Describes bs) ∧
      (∀ verdict : Transaction.Verdict,
        verdict.Describes bs ↔ Transaction.ofBytes bs = verdict.answer) ∧
      ∀ length, Transaction.ofBytes bs ≠ .error (.lengthOverflow length) := by
  obtain ⟨verdict, hdescribes, hanswer⟩ := Transaction.exists_verdict bs
  refine ⟨⟨verdict, hdescribes, ?_⟩, fun _ ↦ Transaction.Verdict.describes_iff, ?_⟩
  · intro other hother
    exact Transaction.Verdict.answer_inj (hother.answer_eq.symm.trans hanswer)
  · intro length hlength
    rw [hanswer] at hlength
    cases verdict <;> cases hlength

end MeteredLedger
