import MeteredLedger.Proofs.Acceptance
import MeteredLedger.Proofs.Conservation

/-!
# How the gas of a message is settled

Settling a message takes differences and sums of 64-bit gas that may go round, products with a price
that stop at the end of the range, and gives gas back to a pool that may refuse it.  None of this
happens.  `settleChecked` settles in the same way but gives up at the first number that is out of
range; a frame never leaves more gas than the message has after the cost of its data, and the price of
all gas was paid before, so that it never gives up.  What the numbers are is then read off from the
checked sums.
-/

namespace MeteredLedger

open Std

/-! ## Checked sums -/

namespace Gas

variable {a b c : Gas}

/-- The difference, unless more is taken than there is. -/
def sub? (a b : Gas) : Option Gas := if b ≤ a then some (a - b) else none

/-- The sum, unless it is out of range. -/
def add? (a b : Gas) : Option Gas := ofNat? (a.toNat + b.toNat)

/-- The price of an amount of gas, unless it is out of range. -/
def cost? (gas : Gas) (price : Wei) : Option Wei := Wei.ofNat? (gas.toNat * price.toNat)

theorem sub?_eq_some_iff : sub? a b = some c ↔ c.toNat + b.toNat = a.toNat := by
  unfold sub?
  split
  · rename_i hle
    have hsub := UInt64.toNat_sub_of_le _ _ hle
    rw [UInt64.le_iff_toNat_le] at hle
    rw [Option.some.injEq, ← UInt64.toNat_inj, hsub]
    omega
  · rename_i hlt
    rw [UInt64.le_iff_toNat_le] at hlt
    constructor
    · intro h
      cases h
    · intro h
      omega

theorem add?_eq_some_iff : add? a b = some c ↔ c.toNat = a.toNat + b.toNat :=
  ofNat?_eq_some_iff

theorem cost?_eq_some_iff {gas : Gas} {price cost : Wei} :
    cost? gas price = some cost ↔ cost.toNat = gas.toNat * price.toNat :=
  Wei.ofNat?_eq_some_iff

end Gas

/-- Settles a message with every difference, sum and product checked. -/
def settleChecked (msg : Message) (coinbase : Address) (outcome : Outcome) (s : Session) :
    Option (Execution × Session) := do
  let gross ← Gas.sub? msg.gasLimit outcome.gasLeft
  let gas ← Gas.add? outcome.gasLeft (min (gross / 2) s.world.refund)
  let credit ← Gas.cost? gas msg.gasPrice
  let pool ← (s.pool.give gas).toOption
  let used ← Gas.sub? msg.gasLimit gas
  let fee ← Gas.cost? used msg.gasPrice
  let w := (s.world.addBalance msg.sender credit).addBalance coinbase fee
  return (⟨used, outcome.fault?, outcome.output, outcome.created⟩,
    { s with world := w, pool := pool })

/-- The shares of a message's gas, and what is paid for them: its frame left `left`, with the refund
counter at `refund`. -/
structure Message.GasShares (msg : Message) (intrinsic left refund used : Gas)
    (before after : GasPool) (credit fee : Wei) : Prop where
  left_le : left.toNat ≤ msg.gasLimit.toNat
  intrinsic_le_gross : intrinsic.toNat ≤ msg.gasLimit.toNat - left.toNat
  used_eq : used.toNat = (msg.gasLimit.toNat - left.toNat) -
    min ((msg.gasLimit.toNat - left.toNat) / 2) refund.toNat
  intrinsic_le_used : intrinsic.toNat ≤ 2 * used.toNat
  used_le : used.toNat ≤ msg.gasLimit.toNat
  pool_eq : after.gas.toNat + used.toNat = before.gas.toNat
  credit_eq : credit.toNat = (msg.gasLimit.toNat - used.toNat) * msg.gasPrice.toNat
  fee_eq : fee.toNat = used.toNat * msg.gasPrice.toNat
  payments_eq : credit.toNat + fee.toNat = msg.gasLimit.toNat * msg.gasPrice.toNat

section Settlement

variable {msg : Message} {coinbase : Address} {outcome : Outcome} {s t : Session}
  {execution : Execution}

/-- Where a message could pay for all its gas and its frame left no more than that, nothing goes out
of range. -/
theorem settleChecked_of_settle {cost : Wei} (hleft : outcome.gasLeft ≤ msg.gasLimit)
    (hcost : cost.toNat = msg.gasLimit.toNat * msg.gasPrice.toNat)
    (h : settle msg coinbase outcome s = (.ok execution, t)) :
    settleChecked msg coinbase outcome s = some (execution, t) := by
  obtain ⟨hsum, hback⟩ := Message.toNat_gasBack (w := s.world) hleft
  have hgross : Gas.sub? msg.gasLimit outcome.gasLeft = some (msg.gasLimit - outcome.gasLeft) :=
    if_pos hleft
  have hgas : Gas.add? outcome.gasLeft (min ((msg.gasLimit - outcome.gasLeft) / 2) s.world.refund) =
      some (msg.gasBack outcome s.world) := Gas.add?_eq_some_iff.mpr hsum
  have hused : Gas.sub? msg.gasLimit (msg.gasBack outcome s.world) =
      some (msg.gasLimit - msg.gasBack outcome s.world) := if_pos hback
  have hprice : ∀ gas : Gas, gas ≤ msg.gasLimit →
      Gas.cost? gas msg.gasPrice = some (Gas.costClamped gas msg.gasPrice) := fun gas hle ↦
    Gas.cost?_eq_some_iff.mpr (Gas.toNat_costClamped hle hcost)
  rcases settle_cases msg coinbase outcome s with ⟨e, -, hsettle⟩ | ⟨pool, hgive, hsettle⟩
  · rw [hsettle] at h
    cases h
  · rw [hsettle] at h
    cases h
    simp only [settleChecked, hgross, hgas, hused, hprice _ hback, hprice _ (UInt64.sub_le hback),
      hgive, Option.bind_eq_bind, Option.bind_some, Except.toOption, Option.pure_def]

/-- What a settlement comes to in which nothing goes out of range. -/
theorem exists_gasShares_of_settleChecked {intrinsic : Gas} {before : GasPool}
    (hintrinsic : intrinsic.toNat + outcome.gasLeft.toNat ≤ msg.gasLimit.toNat)
    (htaken : Gas.sub? before.gas msg.gasLimit = some s.pool.gas)
    (h : settleChecked msg coinbase outcome s = some (execution, t)) :
    ∃ credit fee, t.world = (s.world.addBalance msg.sender credit).addBalance coinbase fee ∧
      msg.GasShares intrinsic outcome.gasLeft s.world.refund execution.usedGas before t.pool credit
        fee := by
  simp only [settleChecked, Option.bind_eq_bind, Option.bind_eq_some_iff, Option.pure_def,
    Option.some.injEq, Prod.mk.injEq, Gas.sub?_eq_some_iff, Gas.add?_eq_some_iff,
    Gas.cost?_eq_some_iff] at h htaken
  obtain ⟨gross, hgross, gas, hgas, credit, hcredit, pool, hgive, used, hused, fee, hfee, rfl, rfl⟩ := h
  have htwo : UInt64.toNat 2 = 2 := rfl
  rw [UInt64.toNat_min, UInt64.toNat_div, htwo] at hgas
  have hgiven : pool.gas.toNat = s.pool.gas.toNat + gas.toNat := by
    cases hpool : s.pool.give gas with
    | error e =>
        rw [hpool] at hgive
        cases hgive
    | ok pool' =>
        rw [hpool] at hgive
        cases hgive
        exact GasPool.give_eq_ok hpool
  have hgrossEq : msg.gasLimit.toNat - outcome.gasLeft.toNat = gross.toNat := by omega
  have hbackEq : msg.gasLimit.toNat - used.toNat = gas.toNat := by omega
  have hshares : msg.GasShares intrinsic outcome.gasLeft s.world.refund used before pool credit fee :=
    { left_le := by omega
      intrinsic_le_gross := by omega
      used_eq := by
        rw [hgrossEq]
        omega
      intrinsic_le_used := by omega
      used_le := by omega
      pool_eq := by omega
      credit_eq := by rw [hbackEq, hcredit]
      fee_eq := hfee
      payments_eq := by rw [hcredit, hfee, ← Nat.add_mul, Nat.add_comm, hused] }
  exact ⟨credit, fee, rfl, hshares⟩

end Settlement

/-- The gas of a message is settled exactly.  Every difference of gas, every sum and every product
with the price is in range, in the pool as well; the frame has used at least the cost of the data; at
most half of what was used is refunded, so that at least half of that cost stays used; the pool ends
with what the message has not used; and what sender and beneficiary are paid is together the price of
all gas. -/
theorem message_gas_is_settled {env : Env} {table : ExtTreeMap Bytes (List Op)}
    (hs : env.interpreter = .script table) {context : Context} {msg : Message} {s t : Session}
    {execution : Execution} (h : applyMessage env context msg s = (.ok execution, t)) :
    ∃ intrinsic request start outcome m pool credit fee,
      Gas.intrinsic? msg.data msg.isCreation (env.chain.isHomestead context.blockNumber) =
        some intrinsic ∧
      msg.Starts env context s request start ∧
      dispatch ⟨env, context⟩ request start = (outcome, m) ∧
      Gas.sub? s.pool.gas msg.gasLimit = some pool.gas ∧
      Gas.sub? msg.gasLimit intrinsic = some request.gas ∧
      settleChecked msg context.coinbase outcome
        { s with world := m.world, pool := pool, monitor := m.monitor } = some (execution, t) ∧
      t.world = (m.world.addBalance msg.sender credit).addBalance context.coinbase fee ∧
      msg.GasShares intrinsic outcome.gasLeft m.world.refund execution.usedGas s.pool t.pool credit
        fee := by
  obtain ⟨cost, pool, intrinsic, request, w, outcome, m, haccept, hintrinsic, hcovered, hstart,
    hdispatch, hsettle⟩ := applyMessage_settles h
  obtain ⟨-, hgasCost, htake⟩ := Message.accept_eq_ok haccept
  obtain ⟨hcost, -⟩ := Message.gasCost_eq_ok hgasCost
  have hleft := Message.gasLeft_le_of_start hs hstart hdispatch
  have hallowance := UInt64.toNat_sub_of_le _ _ hcovered
  have htaken : Gas.sub? s.pool.gas msg.gasLimit = some pool.gas :=
    Gas.sub?_eq_some_iff.mpr (GasPool.take_eq_ok htake)
  have hrequest : Gas.sub? msg.gasLimit intrinsic = some request.gas := by
    rw [(Message.start_eq_ok hstart).1]
    exact if_pos hcovered
  have hchecked := settleChecked_of_settle (UInt64.le_trans hleft (UInt64.sub_le hcovered)) hcost
    hsettle
  have hspent : intrinsic.toNat + outcome.gasLeft.toNat ≤ msg.gasLimit.toNat := by
    have hle := UInt64.le_iff_toNat_le.mp hcovered
    rw [UInt64.le_iff_toNat_le] at hleft
    omega
  obtain ⟨credit, fee, hworld, hshares⟩ := exists_gasShares_of_settleChecked hspent htaken hchecked
  exact ⟨intrinsic, request, _, outcome, m, pool, credit, fee, hintrinsic,
    .intro haccept hintrinsic hcovered hstart, hdispatch, htaken, hrequest, hchecked, hworld, hshares⟩

/-- Account 17 spends 9000 and asks for more of it back than it has used. -/
def reclaimingEnv : Env where
  interpreter := .script
    ((∅ : ExtTreeMap Bytes (List Op)).insert [1] [.burn 9000, .refund 100000])

def reclaimingMessage : Message where
  sender := 9
  target := some 17
  nonce := 0
  value := 0
  gasLimit := 50000
  gasPrice := 3
  data := []

def reclaimingSession : Session where
  world := (({} : World).placeAccount 17 { code := [1] }).placeAccount 9 { balance := 1000000 }
  pool := ⟨100000⟩

theorem reclaiming_message_keeps_half :
    ∃ execution t, applyMessage reclaimingEnv scrapingContext reclaimingMessage reclaimingSession =
        (.ok execution, t) ∧
      execution.usedGas = 15000 ∧ t.pool.gas.toNat + 15000 = 100000 ∧
      ∃ (w : World) (credit fee : Wei),
        t.world = (w.addBalance 9 credit).addBalance scrapingContext.coinbase fee ∧
        fee.toNat = 45000 ∧ credit.toNat + fee.toNat = 150000 := by
  have hgas : (applyMessage reclaimingEnv scrapingContext reclaimingMessage
      reclaimingSession).1.toOption.map (·.usedGas) = some 15000 := by decide +kernel
  rcases hrun : applyMessage reclaimingEnv scrapingContext reclaimingMessage reclaimingSession with
    ⟨result, t⟩
  rw [hrun] at hgas
  cases result with
  | error e => cases hgas
  | ok execution =>
      have hused : execution.usedGas = 15000 := Option.some.inj hgas
      have hs : reclaimingEnv.interpreter = .script _ := rfl
      obtain ⟨_, _, _, _, m, _, credit, fee, -, -, -, -, -, -, hworld, hshares⟩ :=
        message_gas_is_settled hs hrun
      have hpool := hshares.pool_eq
      have hfee := hshares.fee_eq
      rw [hused] at hpool hfee
      exact ⟨execution, t, rfl, hused, hpool, m.world, credit, fee, hworld, hfee,
        hshares.payments_eq⟩

end MeteredLedger
