import MeteredLedger.Proofs.BlockRun
import MeteredLedger.Proofs.FrameCost
import MeteredLedger.Proofs.Permanence

/-!
# Deployed code is immutable

What frames and transactions do not lose, a block does not lose either, whether it is executed to its
end or stops at a transaction that is rejected.  So an account that has sent a transaction or has
code keeps both the account and the code, whatever creations aim at its address.
-/

namespace MeteredLedger

open Std

/-! ## Relations that blocks respect -/

/-- What a relation between worlds has to satisfy to be respected by the blocks of a venue. -/
structure BlockRelation (venue : Venue) (R : World → World → Prop) : Prop where
  refl : ∀ w, R w w
  trans : ∀ {w₁ w₂ w₃}, R w₁ w₂ → R w₂ w₃ → R w₁ w₃
  accounts : ∀ {w w'}, w'.accounts = w.accounts → R w w'
  pay : ∀ w a balance, R w (w.setBalance a balance)
  transaction : ∀ header tx (t : Session),
    R t.world (applyTransaction venue header tx t).2.world

namespace BlockRelation

variable {venue : Venue} {R : World → World → Prop}

theorem reward (h : BlockRelation venue R) (amount : Option Wei) (b : Block)
    (receipts : List Receipt) (w : World) : R w (Consensus.reward amount b receipts w) := by
  cases amount with
  | none => exact h.refl w
  | some amount => exact h.pay w b.header.coinbase _

theorem execute (h : BlockRelation venue R) (b : Block) (reward : Option Wei) (w : World)
    (monitor : Monitor) : R w (b.execute venue reward w monitor).2.1 := by
  have htxs : R w (applyTransactions venue b.header 0 {} b.transactions
      (b.header.freshSession w monitor)).2.world :=
    applyTransactions_respects h.refl h.trans
      (fun w txHash index ↦ h.accounts (World.prepare_accounts w txHash index))
      (h.transaction b.header) 0 {} b.transactions (b.header.freshSession w monitor)
  unfold Block.execute Block.executeUnder
  split
  · exact h.refl w
  · split
    · rename_i e t happlied
      rw [happlied] at htxs
      exact htxs
    · rename_i record t happlied
      rw [happlied] at htxs
      have hreward := h.trans htxs (h.reward reward b record.receipts t.world)
      exact h.trans hreward (h.accounts rfl)

end BlockRelation

theorem blockRelation_grows {venue : Venue} {table : ExtTreeMap Bytes (List Op)}
    (hs : venue.env.interpreter = .script table) : BlockRelation venue World.Grows where
  refl := World.Grows.refl
  trans := World.Grows.trans
  accounts := World.grows_of_accounts
  pay := World.grows_setBalance
  transaction := applyTransaction_grows hs

theorem Block.execute_grows {venue : Venue} {table : ExtTreeMap Bytes (List Op)}
    (hs : venue.env.interpreter = .script table) (b : Block) (reward : Option Wei) (w : World)
    (monitor : Monitor) : w.Grows (b.execute venue reward w monitor).2.1 :=
  (blockRelation_grows hs).execute b reward w monitor

/-- Deployed code is immutable.  An address that has a nonce, or a code digest other than zero and
that of no code, keeps its account, its code and the digest: through every frame, at any depth and
whether it may write or not; through every transaction, accepted or not; and through every block,
executed or not. -/
theorem deployed_code_is_immutable (table : ExtTreeMap Bytes (List Op)) (a : Address) :
    (∀ (s : Setting) (request : Request) (m : Machine), s.env.interpreter = .script table →
      m.world.nonce a ≠ 0 ∨ m.world.codeHash a ≠ 0 ∧ m.world.codeHash a ≠ emptyCodeHash →
      m.world.KeepsCode (dispatch s request m).2.world a) ∧
    (∀ (venue : Venue) (header : Header) (tx : Transaction) (t : Session),
      venue.env.interpreter = .script table →
      t.world.nonce a ≠ 0 ∨ t.world.codeHash a ≠ 0 ∧ t.world.codeHash a ≠ emptyCodeHash →
      t.world.KeepsCode (applyTransaction venue header tx t).2.world a) ∧
    (∀ (venue : Venue) (b : Block) (reward : Option Wei) (w : World) (monitor : Monitor),
      venue.env.interpreter = .script table →
      w.nonce a ≠ 0 ∨ w.codeHash a ≠ 0 ∧ w.codeHash a ≠ emptyCodeHash →
      w.KeepsCode (b.execute venue reward w monitor).2.1 a) := by
  refine ⟨?_, ?_, ?_⟩
  · intro s request m hs ha
    exact (dispatch_advances hs request m).grows.kept a (World.isTaken_iff.mpr ha)
  · intro venue header tx t hs ha
    exact (applyTransaction_grows hs header tx t).kept a (World.isTaken_iff.mpr ha)
  · intro venue b reward w monitor hs ha
    exact (b.execute_grows hs reward w monitor).kept a (World.isTaken_iff.mpr ha)

/-- The address of the first contract that account 17 creates. -/
def contestedAddress : Address := 0x4c66c29c71b4e37ca83d63b77302c65969062320

theorem ofCreation_contested : Address.ofCreation 17 0 = contestedAddress := by decide +kernel

def contestedTable : ExtTreeMap Bytes (List Op) :=
  (∅ : ExtTreeMap Bytes (List Op)).insert [2] [.output [9]]

def contestedSetting : Setting := scriptSetting contestedTable

def contestedMachine : Machine where
  world := (({} : World).placeAccount 17 { balance := 5 }).placeAccount contestedAddress
    { nonce := 1, code := [3] }

theorem contested_address_keeps_code :
    (dispatch contestedSetting (.create 17 [2] 50000 1) contestedMachine).1 =
        .failed .addressCollision 0 ∧
      contestedMachine.world.nonce contestedAddress ≠ 0 ∧
      contestedMachine.world.KeepsCode
        (dispatch contestedSetting (.create 17 [2] 50000 1) contestedMachine).2.world
        contestedAddress := by
  have hs : contestedSetting.env.interpreter = .script contestedTable := rfl
  have hnonce : contestedMachine.world.nonce 17 = 0 := by decide
  have hcollides : (dispatch contestedSetting (.create 17 [2] 50000 1) contestedMachine).1 =
      .failed .addressCollision 0 := by
    rw [dispatch_eq_script hs, dispatchWith, dispatchWithin_eq_answer]
    apply (answer_refusalsCharged _ _ _ _).collision 17 [2] 50000 1 rfl rfl
    · rw [hnonce]
      decide
    · rw [hnonce, ofCreation_contested]
      rfl
  have htaken : contestedMachine.world.nonce contestedAddress ≠ 0 := by decide
  obtain ⟨hframe, -, -⟩ := deployed_code_is_immutable contestedTable contestedAddress
  exact ⟨hcollides, htaken, hframe contestedSetting _ contestedMachine hs (.inl htaken)⟩

end MeteredLedger
