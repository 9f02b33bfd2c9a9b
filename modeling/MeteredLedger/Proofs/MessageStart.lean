import MeteredLedger.Proofs.FrameRelation
import MeteredLedger.Proofs.TransactionConduct

/-!
# The frame of a message

A message that is accepted and has paid for its gas asks for one frame, from outside and with leave
to write.  What the dispatcher checks before it starts a frame holds already: the sender was asked
for the value and for the price of the gas together, so the value is still covered once the gas is
paid for, and a message that checks its nonce is not accepted from a sender without a next one.
-/

namespace MeteredLedger

open Std

namespace Message

variable {env : Env} {context : Context} {msg : Message} {s : Session}

/-- The frame that a message asks for once it has paid for its gas, and the machine that the frame
starts on. -/
inductive Starts (env : Env) (context : Context) (msg : Message) (s : Session) :
    Request → Machine → Prop
  | intro {cost : Wei} {pool : GasPool} {intrinsic : Gas} {request : Request} {w : World}
      (haccept : msg.accept s.world s.pool = .ok (cost, pool))
      (hintrinsic : Gas.intrinsic? msg.data msg.isCreation
        (env.chain.isHomestead context.blockNumber) = some intrinsic)
      (hcovered : intrinsic ≤ msg.gasLimit)
      (hstart : msg.start (msg.gasLimit - intrinsic) (s.world.subBalance msg.sender cost) =
        .ok (request, w)) :
      Starts env context msg s request { world := w, monitor := s.monitor }

theorem Runs.starts {pool : GasPool} {outcome : Outcome} {m : Machine}
    (h : msg.Runs env context s pool outcome m) :
    ∃ request start, msg.Starts env context s request start ∧
      dispatch ⟨env, context⟩ request start = (outcome, m) := by
  cases h with
  | intro haccept hintrinsic hcovered hstart hdispatch =>
      exact ⟨_, _, .intro haccept hintrinsic hcovered hstart, hdispatch⟩

/-- A message asks for one frame only. -/
theorem Starts.unique {request request' : Request} {m m' : Machine}
    (h : msg.Starts env context s request m) (h' : msg.Starts env context s request' m') :
    request = request' ∧ m = m' := by
  cases h with
  | intro haccept hintrinsic hcovered hstart =>
      cases h' with
      | intro haccept' hintrinsic' hcovered' hstart' =>
          cases haccept.symm.trans haccept'
          cases hintrinsic.symm.trans hintrinsic'
          cases hstart.symm.trans hstart'
          exact ⟨rfl, rfl⟩

theorem checkNonceIn_eq_ok {w : World} (hcheck : msg.checkNonce = true)
    (h : msg.checkNonceIn w = .ok ()) :
    msg.nonce = w.nonce msg.sender ∧ w.nonce msg.sender ≠ Nonce.largest := by
  simp only [checkNonceIn, hcheck, Bool.not_true, Bool.false_eq_true, if_false] at h
  split at h
  · cases h
  · rename_i hhigh
    split at h
    · cases h
    · rename_i hlow
      split at h
      · cases h
      · rename_i hlargest
        exact ⟨UInt64.le_antisymm (UInt64.not_lt.mp hhigh) (UInt64.not_lt.mp hlow), hlargest⟩

/-- The nonce that a message carries is the sender's, and there is a next one. -/
theorem Starts.nonce {request : Request} {m : Machine} (h : msg.Starts env context s request m)
    (hcheck : msg.checkNonce = true) :
    msg.nonce = s.world.nonce msg.sender ∧
      (s.world.nonce msg.sender).next? = some (s.world.nonce msg.sender + 1) := by
  cases h with
  | intro haccept hintrinsic hcovered hstart =>
      obtain ⟨hnonce, hlargest⟩ := checkNonceIn_eq_ok hcheck (accept_eq_ok haccept).1
      exact ⟨hnonce, Nonce.next?_eq_some_iff.mpr ⟨hlargest, rfl⟩⟩

theorem Starts.payment {request : Request} {m : Machine} (h : msg.Starts env context s request m) :
    request.payment? = some (msg.sender, msg.value) ∧ msg.value ≤ m.world.balance msg.sender := by
  cases h with
  | @intro cost _ _ _ w haccept hintrinsic hcovered hstart =>
      obtain ⟨-, hcost, -⟩ := accept_eq_ok haccept
      obtain ⟨-, hpays⟩ := gasCost_eq_ok hcost
      have hpaid : msg.value ≤ (s.world.subBalance msg.sender cost).balance msg.sender := by
        rw [World.balance_subBalance, BitVec.le_def, Wei.toNat_subClamped]
        omega
      rcases start_cases hstart with ⟨-, rfl, rfl⟩ | ⟨target, next, -, rfl, -, rfl⟩
      · exact ⟨rfl, hpaid⟩
      · exact ⟨rfl, by rwa [World.balance_setNonce]⟩

/-- The frame of a message is never turned away. -/
theorem Starts.admitted {request : Request} {m : Machine} (h : msg.Starts env context s request m)
    (hfunds : context.funds = .balance) : refuse? ⟨env, context⟩ m request = none := by
  obtain ⟨hpayment, hpaid⟩ := h.payment
  have houter : m.depth = 0 ∧ m.readOnly = false := by
    cases h
    exact ⟨rfl, rfl⟩
  cases hrefuse : refuse? ⟨env, context⟩ m request with
  | none => rfl
  | some outcome =>
      exfalso
      cases refuse?_refusal hrefuse with
      | skipped hrecursion hdepth hcall => omega
      | tooDeep hdepth => omega
      | unpaid hother hunpaid =>
          cases hpayment.symm.trans hother
          rw [hfunds, FundsPolicy.allows, World.canPay] at hunpaid
          exact of_decide_eq_false hunpaid hpaid
      | guarded hro hwrites =>
          rw [houter.2] at hro
          cases hro

end Message

end MeteredLedger
