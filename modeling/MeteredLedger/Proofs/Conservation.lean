import MeteredLedger.Proofs.BlockRun
import MeteredLedger.Proofs.FrameRelation
import MeteredLedger.Proofs.SignedTransaction
import MeteredLedger.Proofs.TotalBalance
import MeteredLedger.Proofs.TransactionConduct

/-!
# Conservation of value

Balances stop at the largest amount, so a credit can be cut short, and then value is lost.  Nothing
else changes the sum of all balances: a frame moves what its caller has, a message gets back and
pays on exactly what it paid for its gas, and what fails is taken back.  `Mints` states this for a
change that is meant to add an amount; while the sum stays in range nothing is cut short, since a
single balance is never more than the sum.
-/

namespace MeteredLedger

open Std

namespace Ledger

/-- The second ledger holds at most the given amount more than the first one, and exactly that much
more if this is in range. -/
def Mints (l l' : Ledger) (amount : Nat) : Prop :=
  l'.totalBalance ≤ l.totalBalance + amount ∧
    (l.totalBalance + amount ≤ Wei.maxNat → l'.totalBalance = l.totalBalance + amount)

variable {l l₁ l₂ l₃ : Ledger}

theorem Mints.ofEq (h : l₂.totalBalance = l₁.totalBalance) : l₁.Mints l₂ 0 := by
  rw [Mints, h]
  exact ⟨Nat.le_refl _, fun _ ↦ rfl⟩

theorem Mints.trans {x y : Nat} (h : l₁.Mints l₂ x) (h' : l₂.Mints l₃ y) :
    l₁.Mints l₃ (x + y) := by
  obtain ⟨hle, heq⟩ := h
  obtain ⟨hle', heq'⟩ := h'
  refine ⟨by omega, ?_⟩
  intro hrange
  have hfirst := heq (by omega)
  rw [heq' (by omega), hfirst]
  omega

/-- A debit that is credited again. -/
theorem Mints.ofDebit {x : Nat} (hdebit : l₁.totalBalance + x = l.totalBalance)
    (hcredit : l₁.Mints l₂ x) : l.Mints l₂ 0 := by
  obtain ⟨hle, heq⟩ := hcredit
  rw [hdebit] at hle heq
  exact ⟨hle, heq⟩

theorem totalBalance_setBalance (l : Ledger) (a : Address) (balance : Wei) :
    (l.setBalance a balance).totalBalance + (l.accountAt a).balance.toNat =
      l.totalBalance + balance.toNat :=
  totalBalance_setAccount l a _

end Ledger

namespace World

open Ledger (ReadAlike rewindable_readAlike)

theorem totalBalance_subBalance {w : World} {a : Address} {amount : Wei}
    (h : amount ≤ w.balance a) :
    (w.subBalance a amount).totalBalance + amount.toNat = w.totalBalance := by
  rw [balance_eq, BitVec.le_def] at h
  have hsum := w.totalBalance_setBalance a
    (Wei.subClamped (w.accountAt a).balance amount)
  have hle := w.balance_le_totalBalance a
  rw [Wei.toNat_subClamped] at hsum
  rw [subBalance_toLedger]
  omega

theorem mints_addBalance (w : World) (a : Address) (amount : Wei) :
    w.Mints (w.addBalance a amount).toLedger amount.toNat := by
  have hsum := w.totalBalance_setBalance a
    (Wei.addClamped (w.accountAt a).balance amount)
  have hle := w.balance_le_totalBalance a
  rw [Wei.toNat_addClamped] at hsum
  rw [addBalance_toLedger]
  refine ⟨by omega, ?_⟩
  intro hrange
  omega

/-- A change that can be taken back, as far as reading can tell, and adds nothing. -/
structure Conserves (w w' : World) : Prop where
  follows : Follows ReadAlike w w'
  mints : w.Mints w'.toLedger 0

namespace Conserves

theorem refl (w : World) : w.Conserves w :=
  ⟨Follows.refl rewindable_readAlike w, Ledger.Mints.ofEq rfl⟩

theorem trans {w₁ w₂ w₃ : World} (h : w₁.Conserves w₂) (h' : w₂.Conserves w₃) :
    w₁.Conserves w₃ :=
  ⟨h.follows.trans rewindable_readAlike h'.follows, h.mints.trans h'.mints⟩

theorem ofRecords {w w' : World} (h : Records Eq w w')
    (htotal : w'.totalBalance = w.totalBalance) : w.Conserves w' :=
  ⟨(h.mono rewindable_readAlike.refl).follows, Ledger.Mints.ofEq htotal⟩

theorem snapshot (w : World) : w.Conserves w.snapshot.2 :=
  ⟨follows_snapshot rewindable_readAlike.refl w, Ledger.Mints.ofEq rfl⟩

theorem revert {w w' : World} (h : Follows ReadAlike w.snapshot.2 w') :
    w.Conserves (w'.revert w.snapshot.1) := by
  have hback := extends_revert h
  exact ⟨⟨[], [], hback⟩, Ledger.Mints.ofEq hback.rewind.totalBalance_eq⟩

theorem setStorage (w : World) (a : Address) (key value : Word) :
    w.Conserves (w.setStorage a key value) := by
  refine ⟨(records_setStorage_readAlike w a key value).follows, Ledger.Mints.ofEq ?_⟩
  rw [setStorage_toLedger]
  exact Ledger.totalBalance_setAccount_of_balance rfl

theorem setNonce (w : World) (a : Address) (nonce : Nonce) :
    w.Conserves (w.setNonce a nonce) := by
  apply ofRecords (records_setNonce w a nonce)
  rw [setNonce_toLedger]
  exact Ledger.totalBalance_setAccount_of_balance rfl

theorem setCode (w : World) (a : Address) (code : Bytes) : w.Conserves (w.setCode a code) := by
  apply ofRecords (records_setCode w a code)
  rw [setCode_toLedger]
  exact Ledger.totalBalance_setAccount_of_balance rfl

theorem createAccount (w : World) (a : Address) : w.Conserves (w.createAccount a) := by
  apply ofRecords (records_createAccount w a)
  rw [createAccount_toLedger]
  exact Ledger.totalBalance_setAccount_of_balance rfl

theorem transfer {w : World} {sender : Address} {amount : Wei} (h : amount ≤ w.balance sender)
    (receiver : Address) : w.Conserves (w.transfer sender receiver amount) where
  follows := ((records_transfer w sender receiver amount).mono rewindable_readAlike.refl).follows
  mints := Ledger.Mints.ofDebit (totalBalance_subBalance h) (mints_addBalance _ receiver amount)

end Conserves

end World

/-! ## Frames -/

section Frames

variable {s : Setting}

theorem creationWorld_conserves (htransfers : s.context.transfers = .move) {w : World}
    {caller address : Address} {value : Wei} (hfunds : value ≤ w.balance caller) :
    w.snapshot.2.Conserves (creationWorld s w caller address value) := by
  have hcreate := World.Conserves.createAccount w.snapshot.2 address
  have hnonce := World.Conserves.setNonce (w.snapshot.2.createAccount address) address 1
  -- Neither the new account nor its nonce touches what the caller has.
  have hstill : value ≤
      ((w.snapshot.2.createAccount address).setNonce address 1).balance caller := by
    rw [World.balance_setNonce, World.balance_createAccount]
    exact hfunds
  rw [creationWorld, htransfers]
  exact hcreate.trans (hnonce.trans (World.Conserves.transfer hstill address))

theorem frameRelation_conserves (hfunds : s.context.funds = .balance)
    (htransfers : s.context.transfers = .move) :
    FrameRelation s (fun _ ↦ True) (fun _ _ _ ↦ True) (fun _ ↦ World.Conserves) where
  refl _ := World.Conserves.refl
  trans := World.Conserves.trans
  relax := id
  own _ _ := trivial
  ownCode _ := trivial
  store key value _ := World.Conserves.setStorage _ _ key value
  log log _ := ⟨(World.records_addLog_readAlike _ log).follows, Ledger.Mints.ofEq rfl⟩
  refund w _ := World.Conserves.ofRecords (World.records_setRefund w _) rfl
  snapshot _ := World.Conserves.snapshot
  revert h := World.Conserves.revert h.follows
  materialise _ _ := World.Conserves.createAccount _ _
  transfer _ _ hallowed _ := by
    rw [hfunds] at hallowed
    rw [htransfers]
    exact World.Conserves.transfer (of_decide_eq_true hallowed) _
  nonce _ _ := World.Conserves.setNonce _ _ _
  creation _ _ hallowed := by
    rw [hfunds] at hallowed
    exact creationWorld_conserves htransfers (of_decide_eq_true hallowed)
  ownCreation _ _ _ _ := trivial
  deposited code _ hopened hran := hopened.trans (hran.trans (World.Conserves.setCode _ _ code))

theorem dispatch_conserves {table : ExtTreeMap Bytes (List Op)}
    (hs : s.env.interpreter = .script table) (hfunds : s.context.funds = .balance)
    (htransfers : s.context.transfers = .move) (request : Request) (m : Machine) :
    m.world.Conserves (dispatch s request m).2.world := by
  rw [dispatch_eq_script hs]
  have hkept := (frameRelation_conserves hfunds htransfers).dispatchWith
    (scriptEngine_isEffectful table) request m (.inr trivial)
  exact hkept.world

end Frames

/-! ## Messages -/

theorem Gas.toNat_costClamped {gas limit : Gas} {price cost : Wei} (hle : gas ≤ limit)
    (hcost : cost.toNat = limit.toNat * price.toNat) :
    (Gas.costClamped gas price).toNat = gas.toNat * price.toNat := by
  rw [Gas.costClamped, Wei.toNat_clamp, Nat.min_eq_left]
  calc gas.toNat * price.toNat ≤ limit.toNat * price.toNat :=
        Nat.mul_le_mul_right _ (UInt64.le_iff_toNat_le.mp hle)
    _ = cost.toNat := hcost.symm
    _ ≤ Wei.maxNat := Wei.toNat_le_maxNat cost

/-- What is paid back for some of the gas and paid on for the rest is what all of it cost. -/
theorem Gas.costClamped_add {back limit : Gas} {price cost : Wei} (hle : back ≤ limit)
    (hcost : cost.toNat = limit.toNat * price.toNat) :
    (Gas.costClamped back price).toNat + (Gas.costClamped (limit - back) price).toNat =
      cost.toNat := by
  have hrest : limit - back ≤ limit := UInt64.sub_le hle
  have hsub := UInt64.toNat_sub_of_le _ _ hle
  rw [UInt64.le_iff_toNat_le] at hle
  rw [Gas.toNat_costClamped (UInt64.le_iff_toNat_le.mpr hle) hcost,
    Gas.toNat_costClamped hrest hcost, hsub, ← Nat.add_mul, hcost]
  congr 1
  omega

section Messages

variable {env : Env} {context : Context} {table : ExtTreeMap Bytes (List Op)}

/-- From the world in which a message has paid for its gas to the one that its frame leaves. -/
theorem ran_conserves (hs : env.interpreter = .script table) (hfunds : context.funds = .balance)
    (htransfers : context.transfers = .move) {msg : Message} {gas : Gas} {w w' : World}
    {request : Request} {monitor : Monitor} {outcome : Outcome} {m : Machine}
    (hstart : msg.start gas w = .ok (request, w'))
    (hdispatch : dispatch ⟨env, context⟩ request { world := w', monitor } = (outcome, m)) :
    w.Conserves m.world ∧ outcome.gasLeft ≤ gas := by
  obtain ⟨-, -, hnonce⟩ := Message.start_eq_ok hstart
  have hframe := dispatch_conserves (s := ⟨env, context⟩) hs hfunds htransfers request
    { world := w', monitor }
  rw [hdispatch] at hframe
  refine ⟨?_, Message.gasLeft_le_of_start hs hstart hdispatch⟩
  rcases hnonce with rfl | ⟨next, -, rfl⟩
  · exact hframe
  · exact (World.Conserves.setNonce w msg.sender next).trans hframe

theorem settle_follows (msg : Message) (coinbase : Address) (outcome : Outcome) (t : Session) :
    World.Follows Ledger.ReadAlike t.world (settle msg coinbase outcome t).2.world := by
  have hadd : ∀ w a amount, World.Follows Ledger.ReadAlike w (w.addBalance a amount) := by
    intro w a amount
    exact ((World.records_addBalance w a amount).mono Ledger.rewindable_readAlike.refl).follows
  rcases settle_cases msg coinbase outcome t with ⟨e, -, hsettle⟩ | ⟨pool, -, hsettle⟩
  · rw [hsettle]
    exact hadd _ _ _
  · rw [hsettle]
    exact (hadd _ _ _).trans Ledger.rewindable_readAlike (hadd _ _ _)

/-- Whatever becomes of a message, its payment included, can be taken back. -/
theorem applyMessage_follows (hs : env.interpreter = .script table)
    (hfunds : context.funds = .balance) (htransfers : context.transfers = .move) (msg : Message)
    (t : Session) :
    World.Follows Ledger.ReadAlike t.world (applyMessage env context msg t).2.world := by
  have hE := Ledger.rewindable_readAlike
  have hsub : ∀ w a amount, World.Follows Ledger.ReadAlike w (w.subBalance a amount) := by
    intro w a amount
    exact ((World.records_subBalance w a amount).mono hE.refl).follows
  have hconduct := applyMessage_conduct env context msg t
  generalize applyMessage env context msg t = applied at hconduct ⊢
  cases hconduct with
  | rejected haccept => exact World.Follows.refl hE _
  | charged haccept => exact hsub _ _ _
  | @ran cost pool intrinsic request w outcome m haccept hintrinsic hcovered hstart hdispatch =>
      obtain ⟨hran, -⟩ := ran_conserves hs hfunds htransfers hstart hdispatch
      have hsettled := settle_follows msg context.coinbase outcome
        { t with world := m.world, pool := pool, monitor := m.monitor }
      exact (hsub _ _ _).trans hE (hran.follows.trans hE hsettled)

/-- A message that is settled has paid its gas to itself and to the beneficiary. -/
theorem applyMessage_mints (hs : env.interpreter = .script table)
    (hfunds : context.funds = .balance) (htransfers : context.transfers = .move) (msg : Message)
    (t : Session) {execution : Execution}
    (hok : (applyMessage env context msg t).1 = .ok execution) :
    t.world.Mints (applyMessage env context msg t).2.world.toLedger 0 := by
  have hconduct := applyMessage_conduct env context msg t
  generalize applyMessage env context msg t = applied at hconduct hok ⊢
  cases hconduct with
  | rejected haccept => cases hok
  | charged haccept => cases hok
  | @ran cost pool intrinsic request w outcome m haccept hintrinsic hcovered hstart hdispatch =>
      obtain ⟨hran, hleft⟩ := ran_conserves hs hfunds htransfers hstart hdispatch
      obtain ⟨-, hgasCost, -⟩ := Message.accept_eq_ok haccept
      obtain ⟨hcost, hpays⟩ := Message.gasCost_eq_ok hgasCost
      have hdebit : (t.world.subBalance msg.sender cost).totalBalance + cost.toNat =
          t.world.totalBalance := by
        apply World.totalBalance_subBalance
        rw [BitVec.le_def]
        omega
      have hback : msg.gasBack outcome m.world ≤ msg.gasLimit := by
        apply Message.gasBack_le
        exact UInt64.le_trans hleft (UInt64.sub_le hcovered)
      rcases settle_cases msg context.coinbase outcome
          { t with world := m.world, pool := pool, monitor := m.monitor } with
        ⟨e, -, hsettle⟩ | ⟨pool', -, hsettle⟩
      · rw [hsettle] at hok
        cases hok
      · rw [hsettle]
        have hcredit := (World.mints_addBalance m.world msg.sender
          (Gas.costClamped (msg.gasBack outcome m.world) msg.gasPrice)).trans
          (World.mints_addBalance _ context.coinbase
            (Gas.costClamped (msg.gasLimit - msg.gasBack outcome m.world) msg.gasPrice))
        rw [Gas.costClamped_add hback hcost] at hcredit
        have hall := hran.mints.trans hcredit
        rw [Nat.zero_add] at hall
        exact Ledger.Mints.ofDebit hdebit hall

end Messages

/-! ## Transactions and blocks -/

theorem applyTransaction_mints {venue : Venue} {table : ExtTreeMap Bytes (List Op)}
    (hs : venue.env.interpreter = .script table) (header : Header) (tx : Transaction)
    (t : Session) : t.world.Mints (applyTransaction venue header tx t).2.world.toLedger 0 := by
  have hconduct := applyTransaction_conduct venue header tx t
  generalize applyTransaction venue header tx t = applied at hconduct ⊢
  cases hconduct with
  | unsigned hmsg => exact Ledger.Mints.ofEq rfl
  | @rejected msg e u hmsg happlied =>
      have hfunds : (Context.ofMessage msg header venue.history venue.author).funds = .balance := rfl
      have hfollows := applyMessage_follows hs hfunds rfl msg { t with world := t.world.snapshot.2 }
      rw [happlied] at hfollows
      exact (World.Conserves.revert hfollows).mints
  | @applied msg execution u hmsg happlied =>
      have hmints := applyMessage_mints hs rfl rfl msg { t with world := t.world.snapshot.2 }
        (congrArg Prod.fst happlied)
      rw [happlied] at hmints
      exact hmints

theorem World.mints_prepare (w : World) (txHash : Hash) (index : Nat) :
    w.Mints (w.prepare txHash index).toLedger 0 := by
  apply Ledger.Mints.ofEq
  rw [Ledger.totalBalance, World.prepare_accounts]
  rfl

theorem execute_mints {venue : Venue} {table : ExtTreeMap Bytes (List Op)}
    (hs : venue.env.interpreter = .script table) {b : Block} {reward : Option Wei} {w : World}
    {monitor : Monitor} {outcome : BlockOutcome}
    (hok : (b.execute venue reward w monitor).1 = .ok outcome) :
    w.Mints (b.execute venue reward w monitor).2.1.toLedger (reward.elim 0 BitVec.toNat) := by
  have htxs : w.Mints (applyTransactions venue b.header 0 {} b.transactions
      (b.header.freshSession w monitor)).2.world.toLedger 0 :=
    applyTransactions_respects (R := fun w w' ↦ w.Mints w'.toLedger 0)
      (fun _ ↦ Ledger.Mints.ofEq rfl) Ledger.Mints.trans World.mints_prepare
      (applyTransaction_mints hs b.header) 0 {} b.transactions _
  unfold Block.execute Block.executeUnder at hok ⊢
  split at hok
  · cases hok
  · split at hok
    · cases hok
    · rename_i record t happlied
      rw [happlied] at htxs
      cases reward with
      | none => exact htxs
      | some amount =>
          have hreward := htxs.trans (World.mints_addBalance t.world b.header.coinbase amount)
          rw [Nat.zero_add] at hreward
          exact hreward

/-- Value is conserved.  A frame, whether it succeeds or not, and a transaction, whether it is
accepted or not, never add to the sum of all balances, and keep it as long as it is in range.  A
block that is executed adds its reward to the sum, or less if that is out of range. -/
theorem value_is_conserved (table : ExtTreeMap Bytes (List Op)) :
    (∀ (s : Setting) (request : Request) (m : Machine), s.env.interpreter = .script table →
      s.context.funds = .balance → s.context.transfers = .move →
      m.world.Mints (dispatch s request m).2.world.toLedger 0) ∧
    (∀ (venue : Venue) (header : Header) (tx : Transaction) (t : Session),
      venue.env.interpreter = .script table →
      t.world.Mints (applyTransaction venue header tx t).2.world.toLedger 0) ∧
    (∀ (venue : Venue) (b : Block) (reward : Option Wei) (w : World) (monitor : Monitor)
      (outcome : BlockOutcome), venue.env.interpreter = .script table →
      (b.execute venue reward w monitor).1 = .ok outcome →
      w.Mints (b.execute venue reward w monitor).2.1.toLedger (reward.elim 0 BitVec.toNat)) := by
  refine ⟨?_, ?_, ?_⟩
  · intro s request m hs hfunds htransfers
    exact (dispatch_conserves hs hfunds htransfers request m).mints
  · intro venue header tx t hs
    exact applyTransaction_mints hs header tx t
  · intro venue b reward w monitor outcome hs hok
    exact execute_mints hs hok

/-- Account 17 passes part of what it gets on to a stranger. -/
def payingTable : ExtTreeMap Bytes (List Op) :=
  (∅ : ExtTreeMap Bytes (List Op)).insert [1] [.call .call 18 100 3, .output []]

def payingSetting : Setting := scriptSetting payingTable

def payingVenue : Venue where
  env := payingSetting.env

def payingWorld : World :=
  ((({} : World).placeAccount 17 { balance := 5, code := [1] }).placeAccount 9
    { balance := 7 }).placeAccount sampleSender { balance := 200000 }

def payingBlock : Block where
  header := sampleHeader
  transactions := [sampleTransaction]

/-- The session in which the block applies its transaction. -/
def payingSession : Session :=
  sampleHeader.freshSession (payingWorld.prepare sampleTransaction.hash 0) {}

theorem paying_call_keeps_the_sum :
    payingWorld.totalBalance = 200012 ∧
      (dispatch payingSetting (.call 9 17 [] 5000 4) { world := payingWorld }).2.world.totalBalance =
        200012 ∧
      ∃ receipt t, applyTransaction payingVenue sampleHeader sampleTransaction payingSession =
          (.ok receipt, t) ∧
        receipt.gasUsed = 21000 ∧ t.world.balance 18 = 3 ∧ t.world.totalBalance = 200012 ∧
        ∃ outcome, (payingBlock.execute payingVenue (some 7) payingWorld {}).1 = .ok outcome ∧
          outcome.receipts = [receipt] ∧
          (payingBlock.execute payingVenue (some 7) payingWorld {}).2.1.totalBalance = 200019 := by
  have hsum : payingWorld.totalBalance = 200012 := by decide +kernel
  have hstart : payingSession.world.totalBalance = 200012 := by
    rw [Ledger.totalBalance, show payingSession.world.accounts = payingWorld.accounts from
      World.prepare_accounts _ _ _]
    exact hsum
  have hreport : gasReport (applyTransaction payingVenue sampleHeader sampleTransaction
      payingSession).1 = some (21000, 21000) := by
    rw [applyTransaction_sample rfl]
    decide +kernel
  have hstranger : (applyTransaction payingVenue sampleHeader sampleTransaction
      payingSession).2.world.balance 18 = 3 := by
    rw [applyTransaction_sample rfl]
    decide +kernel
  obtain ⟨receipt, happlied, hused, -⟩ := exists_receipt_of_gasReport hreport
  have hrun : BlockRun payingVenue sampleHeader 0 (sampleHeader.freshSession payingWorld {})
      [sampleTransaction] [receipt] _ := .cons happlied .nil
  have hok : (payingBlock.execute payingVenue (some 7) payingWorld {}).1 = .ok _ :=
    congrArg Prod.fst (Block.executeUnder_of_run rfl hrun)
  obtain ⟨hframe, htransaction, hblock⟩ := value_is_conserved payingTable
  have hcall := hframe payingSetting (.call 9 17 [] 5000 4) { world := payingWorld } rfl rfl rfl
  have htx := htransaction payingVenue sampleHeader sampleTransaction payingSession rfl
  have hreward := hblock payingVenue payingBlock (some 7) payingWorld {} _ rfl hok
  refine ⟨hsum, ?_, receipt, _, happlied, hused, hstranger, ?_, _, hok, rfl, ?_⟩
  · rw [hcall.2 (by rw [hsum]; decide), hsum]
  · rw [htx.2 (by rw [hstart]; decide), hstart]
  · rw [hreward.2 (by rw [hsum]; decide), hsum]
    rfl

end MeteredLedger
