import MeteredLedger.Proofs.SignedTransaction
import MeteredLedger.Proofs.WireForm

/-!
# What a signature covers

A signature is made over a payload and not over the transaction itself.  The payload spells the chain
and every field but key and signature, one after another and without marks between them, so that it
has to be shown that no field can lend bytes to the next: all have a fixed width but the target, whose
width is told by its first byte, and the data, which come last.  The payload leaves out key and
signature, so it is the same before and after signing, which is why a signed transaction verifies and
why signing twice changes nothing.
-/

namespace MeteredLedger

/-- The signature that a key makes over a message verifies under that key's public half. -/
def Ed25519.AcceptsOwn (seed : Seed) (message : Bytes) : Prop :=
  verify (publicKey seed) message (sign seed message) = true

namespace Wire

theorem targetBytes_append_inj {t t' : Option Address} {rest rest' : Bytes}
    (h : targetBytes t ++ rest = targetBytes t' ++ rest') : t = t' ∧ rest = rest' := by
  have hread : target (targetBytes t ++ rest) = .ok (t, rest) := target_eq_ok_iff.mpr rfl
  have hread' : target (targetBytes t ++ rest) = .ok (t', rest') := target_eq_ok_iff.mpr h
  rw [hread] at hread'
  cases hread'
  exact ⟨rfl, rfl⟩

theorem uint64_append_inj {n n' : UInt64} {rest rest' : Bytes}
    (h : Bytes.leBytes 8 n.toNat ++ rest = Bytes.leBytes 8 n'.toNat ++ rest') :
    n = n' ∧ rest = rest' := by
  obtain ⟨hn, hrest⟩ := List.append_inj h (by simp)
  exact ⟨UInt64.toNat_inj.mp (Bytes.leBytes_inj n.toNat_lt n'.toNat_lt hn), hrest⟩

theorem wei_append_inj {n n' : Wei} {rest rest' : Bytes}
    (h : Bytes.leBytes 16 n.toNat ++ rest = Bytes.leBytes 16 n'.toNat ++ rest') :
    n = n' ∧ rest = rest' := by
  obtain ⟨hn, hrest⟩ := List.append_inj h (by simp)
  exact ⟨BitVec.eq_of_toNat_eq (Bytes.leBytes_inj n.isLt n'.isLt hn), hrest⟩

end Wire

namespace Transaction

variable {tx tx' : Transaction} {chainId chainId' : UInt64} {seed : Seed}

/-- Two transactions that differ at most in key and signature. -/
structure SameBody (tx tx' : Transaction) : Prop where
  nonce : tx.nonce = tx'.nonce
  gasPrice : tx.gasPrice = tx'.gasPrice
  gasLimit : tx.gasLimit = tx'.gasLimit
  target : tx.target = tx'.target
  value : tx.value = tx'.value
  data : tx.data = tx'.data

theorem SameBody.bodyBytes_eq (h : tx.SameBody tx') : tx.bodyBytes = tx'.bodyBytes := by
  simp only [bodyBytes, h.nonce, h.gasPrice, h.gasLimit, h.target, h.value, h.data]

theorem sameBody_of_bodyBytes (h : tx.bodyBytes = tx'.bodyBytes) : tx.SameBody tx' := by
  unfold bodyBytes at h
  obtain ⟨hnonce, h⟩ := Wire.uint64_append_inj h
  obtain ⟨hprice, h⟩ := Wire.wei_append_inj h
  obtain ⟨hlimit, h⟩ := Wire.uint64_append_inj h
  obtain ⟨htarget, h⟩ := Wire.targetBytes_append_inj h
  obtain ⟨hvalue, h⟩ := Wire.wei_append_inj h
  -- The length has a fixed width; that it is the length of what follows is not needed here.
  obtain ⟨-, hdata⟩ := List.append_inj h (by simp)
  exact ⟨hnonce, hprice, hlimit, htarget, hvalue, hdata⟩

theorem signingPayload_eq_iff :
    tx.signingPayload chainId = tx'.signingPayload chainId' ↔
      chainId = chainId' ∧ tx.SameBody tx' := by
  constructor
  · intro h
    obtain ⟨hchain, hbody⟩ := Wire.uint64_append_inj (List.append_cancel_left h)
    exact ⟨hchain, sameBody_of_bodyBytes hbody⟩
  · rintro ⟨rfl, hbody⟩
    rw [signingPayload, signingPayload, hbody.bodyBytes_eq]

theorem sameBody_sign (tx : Transaction) (chainId : UInt64) (seed : Seed) :
    (tx.sign chainId seed).SameBody tx :=
  ⟨rfl, rfl, rfl, rfl, rfl, rfl⟩

theorem SameBody.sign_eq (h : tx.SameBody tx') (chainId : UInt64) (seed : Seed) :
    tx.sign chainId seed = tx'.sign chainId seed := by
  have hpayload := signingPayload_eq_iff.mpr ⟨(rfl : chainId = chainId), h⟩
  simp only [sign, hpayload, h.nonce, h.gasPrice, h.gasLimit, h.target, h.value, h.data]

/-- The payload that is verified is the one that was signed. -/
theorem acceptsOwn_iff :
    Ed25519.AcceptsOwn seed (tx.signingPayload chainId) ↔
      Ed25519.verify (tx.sign chainId seed).publicKey ((tx.sign chainId seed).signingPayload chainId)
        (tx.sign chainId seed).signature = true := by
  have hpayload : (tx.sign chainId seed).signingPayload chainId = tx.signingPayload chainId :=
    signingPayload_eq_iff.mpr ⟨rfl, sameBody_sign tx chainId seed⟩
  rw [hpayload]
  exact Iff.rfl

theorem toMessage_sign (h : Ed25519.AcceptsOwn seed (tx.signingPayload chainId)) :
    (tx.sign chainId seed).toMessage chainId =
      .ok (tx.messageFrom (Address.ofPublicKey (Ed25519.publicKey seed))) := by
  exact toMessage_eq_ok_iff.mpr ⟨acceptsOwn_iff.mp h, rfl⟩

end Transaction

/-- Signatures bind the chain and the whole body.  Two payloads are equal exactly if the chains are
and the transactions differ at most in key and signature.  So a transaction signed with a key that
accepts its own signature is sent by the address of that key and asks for what the unsigned one does,
whatever key and signature were there before; and signing it again with the same key gives the same
transaction. -/
theorem signatures_bind_chain_and_body :
    (∀ (tx tx' : Transaction) (chainId chainId' : UInt64),
      tx.signingPayload chainId = tx'.signingPayload chainId' ↔
        chainId = chainId' ∧ tx.SameBody tx') ∧
    (∀ (tx : Transaction) (chainId : UInt64) (seed : Seed),
      Ed25519.AcceptsOwn seed (tx.signingPayload chainId) →
      (tx.sign chainId seed).toMessage chainId =
        .ok (tx.messageFrom (Address.ofPublicKey (Ed25519.publicKey seed)))) ∧
    (∀ (tx tx' : Transaction) (chainId : UInt64) (seed : Seed), tx.SameBody tx' →
      tx.sign chainId seed = tx'.sign chainId seed) ∧
    ∀ (tx : Transaction) (chainId : UInt64) (seed : Seed),
      (tx.sign chainId seed).sign chainId seed = tx.sign chainId seed := by
  refine ⟨?_, ?_, ?_, ?_⟩
  · intro tx tx' chainId chainId'
    exact Transaction.signingPayload_eq_iff
  · intro tx chainId seed hkey
    exact Transaction.toMessage_sign hkey
  · intro tx tx' chainId seed hbody
    exact hbody.sign_eq chainId seed
  · intro tx chainId seed
    exact (Transaction.sameBody_sign tx chainId seed).sign_eq chainId seed

def sampleSeed : Seed := Vector.replicate 32 7

/-- The sample transaction before it was signed. -/
def unsignedTransaction : Transaction :=
  { sampleTransaction with
    publicKey := Vector.replicate 32 0
    signature := Vector.replicate 64 0 }

theorem sign_unsignedTransaction : unsignedTransaction.sign 1 sampleSeed = sampleTransaction := by
  decide +kernel

theorem unsigned_transaction_gets_its_sender :
    Ed25519.AcceptsOwn sampleSeed (unsignedTransaction.signingPayload 1) ∧
      (unsignedTransaction.sign 1 sampleSeed).toMessage 1 =
        .ok (unsignedTransaction.messageFrom sampleSender) := by
  have hkey : Ed25519.publicKey sampleSeed = sampleKey :=
    congrArg Transaction.publicKey sign_unsignedTransaction
  have haccepts : Ed25519.AcceptsOwn sampleSeed (unsignedTransaction.signingPayload 1) := by
    rw [Transaction.acceptsOwn_iff, sign_unsignedTransaction]
    exact (Transaction.toMessage_eq_ok_iff.mp sampleTransaction_toMessage).1
  obtain ⟨-, hsender, -, -⟩ := signatures_bind_chain_and_body
  have hmessage := hsender unsignedTransaction 1 sampleSeed haccepts
  rw [hkey, ofPublicKey_sampleKey] at hmessage
  exact ⟨haccepts, hmessage⟩

end MeteredLedger
