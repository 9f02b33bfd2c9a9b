import MeteredLedger.Proofs.MessageConduct
import MeteredLedger.Proofs.Rewind

/-!
# What applying a transaction can do

A transaction is not signed, or its message is rejected and the world goes back to where it was, or
its message runs and the world is settled; `applyTransaction_conduct` lists the three.  A message
that runs is never rejected afterwards: its frame leaves no more gas than it got, so the pool can
take back what the message does not use.
-/

namespace MeteredLedger

open Std

/-! ## The pool -/

theorem Gas.ofNat?_eq_some_iff {n : Nat} {gas : Gas} : Gas.ofNat? n = some gas ↔ gas.toNat = n := by
  have hlt := gas.toNat_lt
  unfold Gas.ofNat? Gas.maxNat
  split
  · rename_i hle
    have hsize : n < UInt64.size := by
      rw [UInt64.size]
      omega
    rw [Option.some.injEq, ← UInt64.toNat_inj, UInt64.toNat_ofNat_of_lt' hsize]
    exact eq_comm
  · rename_i hgt
    constructor
    · intro hnone
      cases hnone
    · intro heq
      omega

namespace GasPool

variable {p p' : GasPool} {amount : Gas}

theorem take_eq_ok (h : p.take amount = .ok p') : p'.gas.toNat + amount.toNat = p.gas.toNat := by
  unfold take at h
  split at h
  · cases h
  · rename_i hle
    cases h
    rw [UInt64.not_lt] at hle
    rw [UInt64.toNat_sub_of_le _ _ hle, Nat.sub_add_cancel (UInt64.le_iff_toNat_le.mp hle)]

theorem give_eq_ok (h : p.give amount = .ok p') : p'.gas.toNat = p.gas.toNat + amount.toNat := by
  unfold give at h
  split at h
  · rename_i gas hgas
    cases h
    exact Gas.ofNat?_eq_some_iff.mp hgas
  · cases h

/-- Gas that was taken can be given back. -/
theorem give_ne_error {q : GasPool} {back : Gas} {e : PoolError} (htake : q.take amount = .ok p)
    (hback : back ≤ amount) : p.give back ≠ .error e := by
  have hsum := take_eq_ok htake
  have hlt := q.gas.toNat_lt
  rw [UInt64.le_iff_toNat_le] at hback
  intro herror
  unfold give Gas.ofNat? Gas.maxNat at herror
  rw [if_pos (by omega)] at herror
  cases herror

end GasPool

/-! ## Messages that run -/

/-- A message that is accepted, has paid for its gas and covers the cost before execution; its frame
ends with an outcome on a machine, while the pool is left without its gas. -/
inductive Message.Runs (env : Env) (context : Context) (msg : Message) (s : Session) :
    GasPool → Outcome → Machine → Prop
  | intro {cost : Wei} {pool : GasPool} {intrinsic : Gas} {request : Request} {w : World}
      {outcome : Outcome} {m : Machine} (haccept : msg.accept s.world s.pool = .ok (cost, pool))
      (hintrinsic : Gas.intrinsic? msg.data msg.isCreation
        (env.chain.isHomestead context.blockNumber) = some intrinsic)
      (hcovered : intrinsic ≤ msg.gasLimit)
      (hstart : msg.start (msg.gasLimit - intrinsic) (s.world.subBalance msg.sender cost) =
        .ok (request, w))
      (hdispatch : dispatch ⟨env, context⟩ request { world := w, monitor := s.monitor } =
        (outcome, m)) : Runs env context msg s pool outcome m

section Messages

variable {env : Env} {context : Context} {table : ExtTreeMap Bytes (List Op)} {msg : Message}
  {s : Session}

theorem Message.Runs.take_eq {pool : GasPool} {outcome : Outcome} {m : Machine}
    (h : msg.Runs env context s pool outcome m) : s.pool.take msg.gasLimit = .ok pool := by
  cases h with
  | intro haccept hintrinsic hcovered hstart hdispatch => exact (Message.accept_eq_ok haccept).2.2

theorem Message.Runs.gasLeft_le (hs : env.interpreter = .script table) {pool : GasPool}
    {outcome : Outcome} {m : Machine} (h : msg.Runs env context s pool outcome m) :
    outcome.gasLeft ≤ msg.gasLimit := by
  cases h with
  | intro haccept hintrinsic hcovered hstart hdispatch =>
      have hleft := Message.gasLeft_le_of_start hs hstart hdispatch
      exact UInt64.le_trans hleft (UInt64.sub_le hcovered)

/-- A message is rejected as it came or after it has paid, and in no other way. -/
theorem applyMessage_eq_error (hs : env.interpreter = .script table) {e : Rejection} {t : Session}
    (h : applyMessage env context msg s = (.error e, t)) :
    World.Records Eq s.world t.world ∧ t.monitor = s.monitor ∧ t.used = s.used := by
  have hconduct := applyMessage_conduct env context msg s
  rw [h] at hconduct
  generalize happlied : ((.error e, t) : Except Rejection Execution × Session) = applied at hconduct
  cases hconduct with
  | rejected haccept =>
      cases happlied
      exact ⟨⟨[], World.Extends.refl rewindable_eq _⟩, rfl, rfl⟩
  | charged haccept =>
      cases happlied
      exact ⟨World.records_subBalance _ _ _, rfl, rfl⟩
  | @ran cost pool intrinsic request w outcome m haccept hintrinsic hcovered hstart hdispatch =>
      have hruns : msg.Runs env context s pool outcome m :=
        .intro haccept hintrinsic hcovered hstart hdispatch
      rcases settle_cases msg context.coinbase outcome
          { s with world := m.world, pool := pool, monitor := m.monitor } with
        ⟨e', hgive, -⟩ | ⟨pool', -, hsettle⟩
      · exact absurd hgive
          (GasPool.give_ne_error hruns.take_eq (Message.gasBack_le (hruns.gasLeft_le hs)))
      · rw [hsettle] at happlied
        cases happlied

/-- A message that succeeds was accepted, its frame was run, and it was settled. -/
theorem applyMessage_settles {execution : Execution} {t : Session}
    (h : applyMessage env context msg s = (.ok execution, t)) :
    ∃ cost pool intrinsic request w outcome m, msg.accept s.world s.pool = .ok (cost, pool) ∧
      Gas.intrinsic? msg.data msg.isCreation (env.chain.isHomestead context.blockNumber) =
        some intrinsic ∧
      intrinsic ≤ msg.gasLimit ∧
      msg.start (msg.gasLimit - intrinsic) (s.world.subBalance msg.sender cost) =
        .ok (request, w) ∧
      dispatch ⟨env, context⟩ request { world := w, monitor := s.monitor } = (outcome, m) ∧
      settle msg context.coinbase outcome
        { s with world := m.world, pool := pool, monitor := m.monitor } = (.ok execution, t) := by
  have hconduct := applyMessage_conduct env context msg s
  generalize applyMessage env context msg s = applied at hconduct h
  cases hconduct with
  | rejected haccept => cases h
  | charged haccept => cases h
  | ran haccept hintrinsic hcovered hstart hdispatch =>
      exact ⟨_, _, _, _, _, _, _, haccept, hintrinsic, hcovered, hstart, hdispatch, h⟩

/-- A message that is settled has run, the pool has taken back what it did not use, and its gas is
paid for. -/
theorem applyMessage_eq_ok {execution : Execution} {t : Session}
    (h : applyMessage env context msg s = (.ok execution, t)) :
    ∃ pool outcome m, msg.Runs env context s pool outcome m ∧
      pool.give (msg.gasBack outcome m.world) = .ok t.pool ∧
      execution.usedGas = msg.gasLimit - msg.gasBack outcome m.world ∧
      execution.fault = outcome.fault? ∧
      t.world = msg.settledWorld context.coinbase outcome m.world := by
  obtain ⟨cost, pool, intrinsic, request, w, outcome, m, haccept, hintrinsic, hcovered, hstart,
    hdispatch, happlied⟩ := applyMessage_settles h
  refine ⟨pool, outcome, m, .intro haccept hintrinsic hcovered hstart hdispatch, ?_⟩
  rcases settle_cases msg context.coinbase outcome
      { s with world := m.world, pool := pool, monitor := m.monitor } with
    ⟨e, -, hsettle⟩ | ⟨pool', hgive, hsettle⟩
  · rw [hsettle] at happlied
    cases happlied
  · rw [hsettle] at happlied
    cases happlied
    exact ⟨hgive, rfl, rfl, rfl⟩

end Messages

/-! ## Transactions -/

/-- The ways in which a transaction is applied. -/
inductive TransactionConduct (venue : Venue) (header : Header) (tx : Transaction) (s : Session) :
    Except Rejection Receipt × Session → Prop
  | unsigned {e : Rejection} (hmsg : tx.toMessage venue.env.chain.chainId = .error e) :
      TransactionConduct venue header tx s (.error e, s)
  | rejected {msg : Message} {e : Rejection} {t : Session}
      (hmsg : tx.toMessage venue.env.chain.chainId = .ok msg)
      (happlied : applyMessage venue.env
        (Context.ofMessage msg header venue.history venue.author) msg
        { s with world := s.world.snapshot.2 } = (.error e, t)) :
      TransactionConduct venue header tx s
        (.error e, { t with world := t.world.revert s.world.snapshot.1, pool := s.pool })
  | applied {msg : Message} {execution : Execution} {t : Session}
      (hmsg : tx.toMessage venue.env.chain.chainId = .ok msg)
      (happlied : applyMessage venue.env
        (Context.ofMessage msg header venue.history venue.author) msg
        { s with world := s.world.snapshot.2 } = (.ok execution, t)) :
      TransactionConduct venue header tx s
        (.ok (tx.receipt msg header execution (s.used + execution.usedGas) t.world.finalise),
          { t with world := t.world.finalise, used := s.used + execution.usedGas })

theorem applyTransaction_conduct (venue : Venue) (header : Header) (tx : Transaction)
    (s : Session) :
    TransactionConduct venue header tx s (applyTransaction venue header tx s) := by
  unfold applyTransaction
  split
  · rename_i e hmsg
    exact .unsigned hmsg
  · rename_i msg hmsg
    simp only [applySigned]
    split
    · rename_i e t happlied
      exact .rejected hmsg happlied
    · rename_i execution t happlied
      have hused := applyMessage_used venue.env
        (Context.ofMessage msg header venue.history venue.author) msg
        { s with world := s.world.snapshot.2 }
      rw [happlied] at hused
      simp only at hused
      rw [hused]
      exact .applied hmsg happlied

/-- A transaction that is rejected changes nothing. -/
theorem applyTransaction_of_error {venue : Venue} {table : ExtTreeMap Bytes (List Op)}
    (hs : venue.env.interpreter = .script table) {header : Header} {tx : Transaction}
    {s : Session} {e : Rejection} (h : (applyTransaction venue header tx s).1 = .error e) :
    (applyTransaction venue header tx s).2 = s := by
  have hconduct := applyTransaction_conduct venue header tx s
  generalize applyTransaction venue header tx s = applied at hconduct h ⊢
  cases hconduct with
  | unsigned hmsg => rfl
  | rejected hmsg happlied =>
      obtain ⟨hrecords, hmonitor, hused⟩ := applyMessage_eq_error hs happlied
      simp only [World.revert_snapshot hrecords.follows, hmonitor, hused]
  | applied hmsg happlied => cases h

/-- A transaction that is applied has a message that ran and was settled, and its gas is counted. -/
theorem applyTransaction_eq_ok {venue : Venue} {header : Header} {tx : Transaction} {s t : Session}
    {receipt : Receipt} (h : applyTransaction venue header tx s = (.ok receipt, t)) :
    ∃ msg execution u, tx.toMessage venue.env.chain.chainId = .ok msg ∧
      applyMessage venue.env (Context.ofMessage msg header venue.history venue.author) msg
        { s with world := s.world.snapshot.2 } = (.ok execution, u) ∧
      receipt = tx.receipt msg header execution (s.used + execution.usedGas) u.world.finalise ∧
      t = { u with world := u.world.finalise, used := s.used + execution.usedGas } := by
  have hconduct := applyTransaction_conduct venue header tx s
  rw [h] at hconduct
  generalize happlied : ((.ok receipt, t) : Except Rejection Receipt × Session) = applied
    at hconduct
  cases hconduct with
  | unsigned hmsg => cases happlied
  | rejected hmsg hrejected => cases happlied
  | applied hmsg hran =>
      cases happlied
      exact ⟨_, _, _, hmsg, hran, rfl, rfl⟩

theorem applyTransaction_used {venue : Venue} {header : Header} {tx : Transaction} {s t : Session}
    {receipt : Receipt} (h : applyTransaction venue header tx s = (.ok receipt, t)) :
    t.used = receipt.cumulativeGasUsed := by
  obtain ⟨msg, execution, u, -, -, rfl, rfl⟩ := applyTransaction_eq_ok h
  rfl

end MeteredLedger
