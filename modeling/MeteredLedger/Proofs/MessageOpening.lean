import MeteredLedger.Proofs.MessageStart

/-!
# How a message opens

Whether a message is rejected is settled before its frame starts.  `Message.opening` computes it: the
frame that the message asks for, or why there is none.  It reads nothing of the world but the nonce
and the balance of the sender, so two worlds with the same accounts reject the same messages, whatever
their journals, logs and refunds are.
-/

namespace MeteredLedger

open Std

/-- The frame that a message asks for and the world that it starts in, once the message has paid for
its gas, or why it is rejected. -/
def Message.opening (msg : Message) (env : Env) (context : Context) (w : World) (pool : GasPool) :
    Except Rejection (Request × World) :=
  match msg.accept w pool with
  | .error e => .error e
  | .ok (cost, _) =>
    match Gas.intrinsic? msg.data msg.isCreation (env.chain.isHomestead context.blockNumber) with
    | none => .error .gasOverflow
    | some intrinsic =>
      if msg.gasLimit < intrinsic then .error (.intrinsicGas msg.gasLimit intrinsic)
      else msg.start (msg.gasLimit - intrinsic) (w.subBalance msg.sender cost)

namespace Message

variable {env : Env} {context : Context} {msg : Message} {s : Session} {w w' : World}
  {pool : GasPool} {e : Rejection}

theorem opening_eq_ok_iff {request : Request} :
    msg.opening env context s.world s.pool = .ok (request, w) ↔
      msg.Starts env context s request { world := w, monitor := s.monitor } := by
  constructor
  · intro h
    unfold opening at h
    split at h
    · cases h
    · rename_i cost pool haccept
      split at h
      · cases h
      · rename_i intrinsic hintrinsic
        split at h
        · cases h
        · rename_i hcovered
          exact .intro haccept hintrinsic (UInt64.not_lt.mp hcovered) h
  · intro h
    cases h with
    | intro haccept hintrinsic hcovered hstart =>
        simp only [opening, haccept, hintrinsic, if_neg (UInt64.not_lt.mpr hcovered), hstart]

theorem start_eq_error_iff {gas : Gas} :
    msg.start gas w = .error e ↔ msg.target ≠ none ∧ (w.nonce msg.sender).next? = none ∧
      e = .nonceMax msg.sender (w.nonce msg.sender) := by
  cases htarget : msg.target with
  | none => simp [start, htarget]
  | some target =>
      cases hnext : (w.nonce msg.sender).next? with
      | none => simp [start, htarget, hnext, eq_comm]
      | some next => simp [start, htarget, hnext]

section SameAccounts

variable (h : w'.accounts = w.accounts)

include h

theorem accept_congr : msg.accept w' pool = msg.accept w pool := by
  have hnonce : w'.nonce msg.sender = w.nonce msg.sender := by
    simp only [World.nonce, World.account?, h]
  have hbalance : w'.balance msg.sender = w.balance msg.sender := by
    simp only [World.balance, World.account?, h]
  simp only [accept, checkNonceIn, gasCost, hnonce, hbalance]

/-- A message is rejected alike in worlds with the same accounts. -/
theorem opening_eq_error_congr :
    msg.opening env context w' pool = .error e ↔ msg.opening env context w pool = .error e := by
  have hnonce : w'.nonce msg.sender = w.nonce msg.sender := by
    simp only [World.nonce, World.account?, h]
  unfold opening
  rw [accept_congr h]
  split
  · rfl
  · split
    · rfl
    · split
      · rfl
      · simp only [start_eq_error_iff, World.nonce_subBalance, hnonce]

end SameAccounts

end Message

/-! ## Rejections -/

section Rejections

variable {env : Env} {context : Context} {table : ExtTreeMap Bytes (List Op)} {msg : Message}
  {s : Session} {e : Rejection}

theorem applyMessage_of_opening_error (h : msg.opening env context s.world s.pool = .error e) :
    (applyMessage env context msg s).1 = .error e := by
  unfold Message.opening at h
  split at h
  · rename_i haccept
    cases h
    simp only [applyMessage, haccept]
  · rename_i cost pool haccept
    split at h
    · rename_i hintrinsic
      cases h
      simp only [applyMessage, haccept, hintrinsic]
    · rename_i intrinsic hintrinsic
      split at h
      · rename_i hshort
        cases h
        simp only [applyMessage, haccept, hintrinsic, if_pos hshort]
      · rename_i hcovered
        simp only [applyMessage, haccept, hintrinsic, if_neg hcovered, h]

/-- A message whose frame starts is settled. -/
theorem Message.Starts.applied (hs : env.interpreter = .script table) {request : Request}
    {start : Machine} (h : msg.Starts env context s request start) :
    ∃ execution, (applyMessage env context msg s).1 = .ok execution := by
  cases h with
  | @intro cost pool intrinsic request w haccept hintrinsic hcovered hstart =>
      have hruns : msg.Runs env context s pool
          (dispatch ⟨env, context⟩ request { world := w, monitor := s.monitor }).1
          (dispatch ⟨env, context⟩ request { world := w, monitor := s.monitor }).2 :=
        .intro haccept hintrinsic hcovered hstart rfl
      simp only [applyMessage, haccept, hintrinsic, if_neg (UInt64.not_lt.mpr hcovered), hstart]
      generalize dispatch ⟨env, context⟩ request { world := w, monitor := s.monitor } = answered
        at hruns ⊢
      rcases settle_cases msg context.coinbase answered.1
          { s with world := answered.2.world, pool := pool, monitor := answered.2.monitor } with
        ⟨e, hgive, -⟩ | ⟨pool', -, hsettle⟩
      · exact absurd hgive
          (GasPool.give_ne_error hruns.take_eq (Message.gasBack_le (hruns.gasLeft_le hs)))
      · exact ⟨_, congrArg Prod.fst hsettle⟩

theorem applyMessage_eq_error_iff (hs : env.interpreter = .script table) :
    (applyMessage env context msg s).1 = .error e ↔
      msg.opening env context s.world s.pool = .error e := by
  constructor
  · intro h
    cases hopening : msg.opening env context s.world s.pool with
    | error e' =>
        rw [applyMessage_of_opening_error hopening] at h
        cases h
        rfl
    | ok opened =>
        obtain ⟨execution, hok⟩ := (Message.opening_eq_ok_iff.mp hopening).applied hs
        rw [hok] at h
        cases h
  · exact applyMessage_of_opening_error

end Rejections

section Transactions

variable {venue : Venue} {table : ExtTreeMap Bytes (List Op)}
  (hs : venue.env.interpreter = .script table) {header : Header} {tx : Transaction}
  {s : Session} {e : Rejection}

include hs

theorem applyTransaction_eq_error_iff :
    (applyTransaction venue header tx s).1 = .error e ↔
      tx.toMessage venue.env.chain.chainId = .error e ∨
        ∃ msg, tx.toMessage venue.env.chain.chainId = .ok msg ∧
          msg.opening venue.env (Context.ofMessage msg header venue.history venue.author) s.world
            s.pool = .error e := by
  have hconduct := applyTransaction_conduct venue header tx s
  generalize applyTransaction venue header tx s = applied at hconduct ⊢
  -- The message is applied after a snapshot, which leaves the accounts alone.
  have hopening : ∀ msg : Message,
      (applyMessage venue.env (Context.ofMessage msg header venue.history venue.author) msg
        { s with world := s.world.snapshot.2 }).1 = .error e ↔
      msg.opening venue.env (Context.ofMessage msg header venue.history venue.author) s.world
        s.pool = .error e := fun msg ↦
    (applyMessage_eq_error_iff hs).trans (Message.opening_eq_error_congr rfl)
  cases hconduct with
  | unsigned hmsg => simp [hmsg]
  | @rejected msg e' t hmsg happlied => simpa [hmsg, happlied] using hopening msg
  | @applied msg execution t hmsg happlied => simpa [hmsg, happlied] using hopening msg

/-- A transaction is rejected alike where accounts and pool are the same. -/
theorem applyTransaction_eq_error_congr {s' : Session}
    (haccounts : s'.world.accounts = s.world.accounts) (hpool : s'.pool = s.pool) :
    (applyTransaction venue header tx s').1 = .error e ↔
      (applyTransaction venue header tx s).1 = .error e := by
  simp only [applyTransaction_eq_error_iff hs, hpool, Message.opening_eq_error_congr haccounts]

end Transactions

end MeteredLedger
