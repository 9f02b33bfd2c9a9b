import MeteredLedger.Proofs.FrameGas
import MeteredLedger.Transaction.Apply

/-!
# What applying a message can do

`applyMessage_conduct` lists the ways in which a message is applied: it is not accepted, it is
rejected after it has paid for its gas, or it runs and is settled.  Later modules split on them.
-/

namespace MeteredLedger

open Std

namespace Message

variable {msg : Message} {w w' : World}

theorem gasCost_eq_ok {cost : Wei} (h : msg.gasCost w = .ok cost) :
    cost.toNat = msg.gasLimit.toNat * msg.gasPrice.toNat ∧
      cost.toNat + msg.value.toNat ≤ (w.balance msg.sender).toNat := by
  simp only [gasCost] at h
  split at h
  · rename_i exact want hexact hwant
    split at h
    · cases h
    · rename_i hcovered
      cases h
      rw [Wei.ofNat?_eq_some_iff] at hexact hwant
      have hle : want.toNat ≤ (w.balance msg.sender).toNat :=
        BitVec.le_def.mp (BitVec.not_lt.mp hcovered)
      refine ⟨hexact, ?_⟩
      omega
  · cases h

/-- The nonce of an accepted message fits, its price is covered, and the pool has its gas. -/
theorem accept_eq_ok {pool pool' : GasPool} {cost : Wei}
    (h : msg.accept w pool = .ok (cost, pool')) :
    msg.checkNonceIn w = .ok () ∧ msg.gasCost w = .ok cost ∧
      pool.take msg.gasLimit = .ok pool' := by
  unfold accept at h
  split at h
  · cases h
  · rename_i hnonce
    split at h
    · cases h
    · rename_i hcost
      split at h
      · cases h
      · rename_i hpool
        cases h
        exact ⟨hnonce, hcost, hpool⟩

/-- A message starts a creation in the world it finds, or a call after the sender's nonce was counted
up. -/
theorem start_cases {gas : Gas} {request : Request} (h : msg.start gas w = .ok (request, w')) :
    (msg.target = none ∧ request = .create msg.sender msg.data gas msg.value ∧ w' = w) ∨
      ∃ target next, msg.target = some target ∧
        request = .call msg.sender target msg.data gas msg.value ∧
        (w.nonce msg.sender).next? = some next ∧ w' = w.setNonce msg.sender next := by
  simp only [start] at h
  split at h
  · rename_i htarget
    cases h
    exact .inl ⟨htarget, rfl, rfl⟩
  · rename_i target htarget
    split at h
    · cases h
    · rename_i next hnext
      cases h
      exact .inr ⟨target, next, htarget, rfl, hnext, rfl⟩

/-- The frame that a message starts is asked for by the sender with the given gas, and only the
sender's nonce is counted up before. -/
theorem start_eq_ok {gas : Gas} {request : Request} (h : msg.start gas w = .ok (request, w')) :
    request.gas = gas ∧ request.caller = msg.sender ∧
      (w' = w ∨ ∃ next, (w.nonce msg.sender).next? = some next ∧
        w' = w.setNonce msg.sender next) := by
  rcases start_cases h with ⟨-, rfl, rfl⟩ | ⟨target, next, -, rfl, hnext, rfl⟩
  · exact ⟨rfl, rfl, .inl rfl⟩
  · exact ⟨rfl, rfl, .inr ⟨next, hnext, rfl⟩⟩

/-- The frame that a message starts hands back no more gas than it was given. -/
theorem gasLeft_le_of_start {env : Env} {context : Context} {table : ExtTreeMap Bytes (List Op)}
    (hs : env.interpreter = .script table) {gas : Gas} {request : Request} {monitor : Monitor}
    {outcome : Outcome} {m : Machine} (hstart : msg.start gas w = .ok (request, w'))
    (hdispatch : dispatch ⟨env, context⟩ request { world := w', monitor } = (outcome, m)) :
    outcome.gasLeft ≤ gas := by
  obtain ⟨hgas, -, -⟩ := start_eq_ok hstart
  have hleft := dispatchWith_spendsGas (s := ⟨env, context⟩) (scriptEngine_isEffectful table)
    request { world := w', monitor }
  rwa [← dispatch_eq_script (s := ⟨env, context⟩) hs, hdispatch, hgas] at hleft

/-- The gas that a message gets back: what its frame left, and up to half of what it used. -/
def gasBack (msg : Message) (outcome : Outcome) (w : World) : Gas :=
  outcome.gasLeft + min ((msg.gasLimit - outcome.gasLeft) / 2) w.refund

theorem toNat_gasBack {outcome : Outcome} (h : outcome.gasLeft ≤ msg.gasLimit) :
    (msg.gasBack outcome w).toNat = outcome.gasLeft.toNat +
        (min ((msg.gasLimit - outcome.gasLeft) / 2) w.refund).toNat ∧
      msg.gasBack outcome w ≤ msg.gasLimit := by
  have hsub := UInt64.toNat_sub_of_le _ _ h
  have hmin : (min ((msg.gasLimit - outcome.gasLeft) / 2) w.refund).toNat ≤
      (msg.gasLimit.toNat - outcome.gasLeft.toNat) / 2 := by
    have hle : min ((msg.gasLimit - outcome.gasLeft) / 2) w.refund ≤
        (msg.gasLimit - outcome.gasLeft) / 2 := Std.min_le_left
    rw [UInt64.le_iff_toNat_le, UInt64.toNat_div, hsub] at hle
    exact hle
  have hlt := msg.gasLimit.toNat_lt
  rw [UInt64.le_iff_toNat_le] at h ⊢
  rw [gasBack, UInt64.toNat_add, Nat.mod_eq_of_lt (by omega)]
  refine ⟨rfl, ?_⟩
  omega

theorem gasBack_of_no_refund (msg : Message) (outcome : Outcome) (h : w.refund = 0) :
    msg.gasBack outcome w = outcome.gasLeft := by
  rw [gasBack, h, UInt64.le_zero_iff.mp Std.min_le_right, UInt64.add_zero]

theorem gasBack_le {outcome : Outcome} (h : outcome.gasLeft ≤ msg.gasLimit) :
    msg.gasBack outcome w ≤ msg.gasLimit :=
  (toNat_gasBack h).2

/-- The world once a message is settled: the sender has got the price of the gas that it gets back,
and the beneficiary that of the rest. -/
def settledWorld (msg : Message) (coinbase : Address) (outcome : Outcome) (w : World) : World :=
  (w.addBalance msg.sender (Gas.costClamped (msg.gasBack outcome w) msg.gasPrice)).addBalance coinbase
    (Gas.costClamped (msg.gasLimit - msg.gasBack outcome w) msg.gasPrice)

end Message

/-- A settled message pays the sender back; if the pool takes the gas back, the beneficiary is paid
for the rest. -/
theorem settle_cases (msg : Message) (coinbase : Address) (outcome : Outcome) (t : Session) :
    let paid := t.world.addBalance msg.sender
      (Gas.costClamped (msg.gasBack outcome t.world) msg.gasPrice)
    (∃ e, t.pool.give (msg.gasBack outcome t.world) = .error e ∧
      settle msg coinbase outcome t =
        (.error (.gasPoolExhausted e), { t with world := paid })) ∨
    ∃ pool, t.pool.give (msg.gasBack outcome t.world) = .ok pool ∧
      settle msg coinbase outcome t =
        (.ok ⟨msg.gasLimit - msg.gasBack outcome t.world, outcome.fault?, outcome.output,
          outcome.created⟩,
          { t with
            world := paid.addBalance coinbase
              (Gas.costClamped (msg.gasLimit - msg.gasBack outcome t.world) msg.gasPrice)
            pool := pool }) := by
  simp only [settle, Message.gasBack]
  split
  · rename_i e hgive
    exact .inl ⟨e, hgive, rfl⟩
  · rename_i pool hgive
    exact .inr ⟨pool, hgive, rfl⟩

/-- The ways in which a message is applied. -/
inductive MessageConduct (env : Env) (context : Context) (msg : Message) (s : Session) :
    Except Rejection Execution × Session → Prop
  | rejected {e : Rejection} (haccept : msg.accept s.world s.pool = .error e) :
      MessageConduct env context msg s (.error e, s)
  /-- Rejected after the gas was paid for. -/
  | charged {cost : Wei} {pool : GasPool} {e : Rejection}
      (haccept : msg.accept s.world s.pool = .ok (cost, pool)) :
      MessageConduct env context msg s
        (.error e, { s with world := s.world.subBalance msg.sender cost, pool := pool })
  | ran {cost : Wei} {pool : GasPool} {intrinsic : Gas} {request : Request} {w : World}
      {outcome : Outcome} {m : Machine} (haccept : msg.accept s.world s.pool = .ok (cost, pool))
      (hintrinsic : Gas.intrinsic? msg.data msg.isCreation
        (env.chain.isHomestead context.blockNumber) = some intrinsic)
      (hcovered : intrinsic ≤ msg.gasLimit)
      (hstart : msg.start (msg.gasLimit - intrinsic) (s.world.subBalance msg.sender cost) =
        .ok (request, w))
      (hdispatch : dispatch ⟨env, context⟩ request { world := w, monitor := s.monitor } =
        (outcome, m)) :
      MessageConduct env context msg s
        (settle msg context.coinbase outcome
          { s with world := m.world, pool := pool, monitor := m.monitor })

theorem applyMessage_conduct (env : Env) (context : Context) (msg : Message) (s : Session) :
    MessageConduct env context msg s (applyMessage env context msg s) := by
  unfold applyMessage
  split
  · rename_i e haccept
    exact .rejected haccept
  · rename_i cost pool haccept
    simp only
    split
    · exact .charged haccept
    · rename_i intrinsic hintrinsic
      split
      · exact .charged haccept
      · rename_i hcovered
        split
        · exact .charged haccept
        · rename_i request w hstart
          exact .ran haccept hintrinsic (UInt64.not_lt.mp hcovered) hstart rfl

/-- A message does not count the gas of its block. -/
theorem applyMessage_used (env : Env) (context : Context) (msg : Message) (s : Session) :
    (applyMessage env context msg s).2.used = s.used := by
  have hconduct := applyMessage_conduct env context msg s
  generalize applyMessage env context msg s = applied at hconduct ⊢
  cases hconduct with
  | rejected haccept => rfl
  | charged haccept => rfl
  | @ran cost pool intrinsic request w outcome m =>
      rcases settle_cases msg context.coinbase outcome
          { s with world := m.world, pool := pool, monitor := m.monitor } with
        ⟨e, -, hsettle⟩ | ⟨pool', -, hsettle⟩
      · rw [hsettle]
      · rw [hsettle]

end MeteredLedger
