import MeteredLedger.Proofs.MessageStart
import MeteredLedger.Proofs.Permanence
import MeteredLedger.Proofs.SignedTransaction

/-!
# Replay protection

A transaction is accepted only with the nonce that its sender has, and an accepted one leaves the
sender with a larger nonce.  A call counts the nonce up before its frame; a creation does so in its
frame, which is let through whenever the transaction is accepted.  Since no nonce ever goes down,
a nonce that was used is not accepted from the same sender again, however long the history is.
-/

namespace MeteredLedger

open Std

/-! ## One transaction -/

section Messages

variable {env : Env} {context : Context} {table : ExtTreeMap Bytes (List Op)} {msg : Message}
  {t : Session}

/-- Nothing is lost from the world in which the sender's nonce is counted up, whether this is done
before the frame or in it. -/
theorem Message.Starts.grows_counted (hs : env.interpreter = .script table)
    (hfunds : context.funds = .balance) (hcheck : msg.checkNonce = true) {request : Request}
    {start : Machine} (h : msg.Starts env context t request start) :
    ∃ cost, ((t.world.subBalance msg.sender cost).setNonce msg.sender
      (t.world.nonce msg.sender + 1)).Grows (dispatch ⟨env, context⟩ request start).2.world := by
  have hentry := h.admitted hfunds
  obtain ⟨-, hnext⟩ := h.nonce hcheck
  cases h with
  | @intro cost pool intrinsic request w haccept hintrinsic hcovered hstart =>
      refine ⟨cost, ?_⟩
      rw [← World.nonce_subBalance t.world msg.sender msg.sender cost] at hnext ⊢
      rcases Message.start_cases hstart with ⟨-, rfl, rfl⟩ | ⟨target, next, -, rfl, hsame, rfl⟩
      · exact (dispatch_create_advances (s := ⟨env, context⟩) hs hentry hnext).grows
      · cases hnext.symm.trans hsame
        have hframe := dispatch_advances (s := ⟨env, context⟩) hs
          (.call msg.sender target msg.data (msg.gasLimit - intrinsic) msg.value)
          { world := (t.world.subBalance msg.sender cost).setNonce msg.sender
              ((t.world.subBalance msg.sender cost).nonce msg.sender + 1)
            monitor := t.monitor }
        exact hframe.grows

theorem Message.Runs.nonce_lt (hs : env.interpreter = .script table)
    (hfunds : context.funds = .balance) (hcheck : msg.checkNonce = true) {pool : GasPool}
    {outcome : Outcome} {m : Machine} (h : msg.Runs env context t pool outcome m) :
    msg.nonce = t.world.nonce msg.sender ∧
      t.world.nonce msg.sender < m.world.nonce msg.sender := by
  obtain ⟨request, start, hstarts, hdispatch⟩ := h.starts
  obtain ⟨hnonce, hnext⟩ := hstarts.nonce hcheck
  obtain ⟨cost, hgrows⟩ := hstarts.grows_counted hs hfunds hcheck
  have hle := hgrows.nonce_le msg.sender
  rw [World.nonce_setNonce, hdispatch] at hle
  exact ⟨hnonce, UInt64.lt_of_lt_of_le (Nonce.lt_of_next? hnext) hle⟩

end Messages

theorem applyTransaction_nonce {venue : Venue} {table : ExtTreeMap Bytes (List Op)}
    (hs : venue.env.interpreter = .script table) {header : Header} {tx : Transaction}
    {t : Session} {receipt : Receipt}
    (hok : (applyTransaction venue header tx t).1 = .ok receipt) :
    tx.nonce = t.world.nonce tx.sender ∧ t.world.nonce tx.sender <
      (applyTransaction venue header tx t).2.world.nonce tx.sender := by
  have hconduct := applyTransaction_conduct venue header tx t
  generalize applyTransaction venue header tx t = applied at hconduct hok ⊢
  cases hconduct with
  | unsigned hmsg => cases hok
  | rejected hmsg happlied => cases hok
  | applied hmsg happlied =>
      obtain rfl := Transaction.toMessage_eq_ok hmsg
      obtain ⟨pool, outcome, m, hruns, -, -, -, hworld⟩ := applyMessage_eq_ok happlied
      obtain ⟨hnonce, hlt⟩ := hruns.nonce_lt hs rfl rfl
      have hsettled := hworld ▸ Message.settledWorld_grows _ _ outcome m.world
      exact ⟨hnonce, UInt64.lt_of_lt_of_le hlt (hsettled.nonce_le tx.sender)⟩

/-! ## Histories -/

/-- A transaction that is handed in, with all that it is applied under. -/
structure Submission where
  venue : Venue
  header : Header
  tx : Transaction
  pool : GasPool
  used : Gas := 0
  monitor : Monitor := {}

namespace Submission

def apply (c : Submission) (w : World) : Except Rejection Receipt × Session :=
  applyTransaction c.venue c.header c.tx ⟨w, c.pool, c.used, c.monitor⟩

def Accepted (c : Submission) (w : World) : Prop := ∃ receipt, (c.apply w).1 = .ok receipt

/-- The submission is applied where code names scripts. -/
def IsScripted (c : Submission) : Prop := ∃ table, c.venue.env.interpreter = .script table

end Submission

namespace World

/-- The world after a history of submissions, some accepted and some not. -/
def submitAll (w : World) (history : List Submission) : World :=
  history.foldl (fun w c ↦ (c.apply w).2.world) w

variable {w : World} {history : List Submission}

theorem submitAll_append (w : World) (before after : List Submission) :
    w.submitAll (before ++ after) = (w.submitAll before).submitAll after := by
  simp [submitAll]

theorem grows_submitAll (hscripts : ∀ c ∈ history, c.IsScripted) (w : World) :
    w.Grows (w.submitAll history) := by
  induction history generalizing w with
  | nil => exact Grows.refl w
  | cons c history ih =>
      obtain ⟨table, hs⟩ := hscripts c List.mem_cons_self
      have hfirst : w.Grows (c.apply w).2.world :=
        applyTransaction_grows hs c.header c.tx ⟨w, c.pool, c.used, c.monitor⟩
      exact hfirst.trans (ih (fun d hd ↦ hscripts d (List.mem_cons_of_mem c hd)) _)

theorem submitAll_take_succ {i : Nat} {c : Submission} (hc : history[i]? = some c) :
    w.submitAll (history.take (i + 1)) = (c.apply (w.submitAll (history.take i))).2.world := by
  rw [List.take_add_one, hc, submitAll_append]
  rfl

/-- From one point of a history to a later one. -/
theorem grows_submitAll_take (hscripts : ∀ c ∈ history, c.IsScripted) {i j : Nat} (hij : i ≤ j) :
    (w.submitAll (history.take i)).Grows (w.submitAll (history.take j)) := by
  have hsplit := List.take_append_drop i (history.take j)
  rw [List.take_take, Nat.min_eq_left hij] at hsplit
  rw [← hsplit, submitAll_append]
  apply grows_submitAll
  intro c hc
  exact hscripts c (List.mem_of_mem_take (List.mem_of_mem_drop hc))

end World

/-- A transaction cannot be replayed.  Along any history of submissions no nonce goes down; each
accepted transaction carries the nonce that its sender has at that point, and its sender has a larger
one afterwards.  So of two accepted transactions with the same sender the later one has the larger
nonce, and no transaction is accepted twice. -/
theorem accepted_transaction_is_not_replayed (w : World) (history : List Submission)
    (hscripts : ∀ c ∈ history, c.IsScripted) :
    (∀ (i : Nat) (c : Submission), history[i]? = some c →
      (∀ a, (w.submitAll (history.take i)).nonce a ≤
        (w.submitAll (history.take (i + 1))).nonce a) ∧
      (c.Accepted (w.submitAll (history.take i)) →
        c.tx.nonce = (w.submitAll (history.take i)).nonce c.tx.sender ∧
        (w.submitAll (history.take i)).nonce c.tx.sender <
          (w.submitAll (history.take (i + 1))).nonce c.tx.sender)) ∧
    (∀ (i j : Nat) (c d : Submission), i < j → history[i]? = some c → history[j]? = some d →
      c.Accepted (w.submitAll (history.take i)) → d.Accepted (w.submitAll (history.take j)) →
      (c.tx.sender = d.tx.sender → c.tx.nonce < d.tx.nonce) ∧ c.tx ≠ d.tx) := by
  have hstep : ∀ (i : Nat) (c : Submission), history[i]? = some c →
      c.Accepted (w.submitAll (history.take i)) →
      c.tx.nonce = (w.submitAll (history.take i)).nonce c.tx.sender ∧
      (w.submitAll (history.take i)).nonce c.tx.sender <
        (w.submitAll (history.take (i + 1))).nonce c.tx.sender := by
    rintro i c hc ⟨receipt, hok⟩
    obtain ⟨table, hs⟩ := hscripts c (List.mem_of_getElem? hc)
    rw [World.submitAll_take_succ hc]
    exact applyTransaction_nonce hs hok
  refine ⟨?_, ?_⟩
  · intro i c hc
    refine ⟨?_, hstep i c hc⟩
    exact (World.grows_submitAll_take hscripts (Nat.le_succ i)).nonce_le
  · intro i j c d hij hc hd hcok hdok
    have hlater : c.tx.sender = d.tx.sender → c.tx.nonce < d.tx.nonce := by
      intro hsender
      obtain ⟨hcnonce, hclt⟩ := hstep i c hc hcok
      obtain ⟨hdnonce, -⟩ := hstep j d hd hdok
      have hle := (World.grows_submitAll_take (w := w) hscripts (Nat.succ_le_of_lt hij)).nonce_le
        c.tx.sender
      rw [hcnonce, hdnonce, ← hsender]
      exact UInt64.lt_of_lt_of_le hclt hle
    refine ⟨hlater, ?_⟩
    intro hsame
    rw [hsame] at hlater
    exact UInt64.lt_irrefl _ (hlater rfl)

def repeatedSubmission : Submission where
  venue := { env := { interpreter := .script ∅ } }
  header := sampleHeader
  tx := sampleTransaction
  pool := ⟨100000⟩

def wealthyWorld : World := ({} : World).placeAccount sampleSender { balance := 200000 }

theorem repeated_transaction_is_refused :
    repeatedSubmission.Accepted wealthyWorld ∧
      ¬repeatedSubmission.Accepted (wealthyWorld.submitAll [repeatedSubmission]) := by
  have hscripts : ∀ c ∈ [repeatedSubmission, repeatedSubmission], c.IsScripted := by
    intro c hc
    have hsame : c = repeatedSubmission := by simpa using hc
    rw [hsame]
    exact ⟨∅, rfl⟩
  have hmsg : repeatedSubmission.tx.toMessage repeatedSubmission.venue.env.chain.chainId =
      .ok (sampleTransaction.messageFrom sampleSender) := sampleTransaction_toMessage
  have hreport : gasReport (repeatedSubmission.apply wealthyWorld).1 = some (21000, 21000) := by
    rw [Submission.apply, applyTransaction_of_message hmsg]
    decide +kernel
  have hfirst : repeatedSubmission.Accepted wealthyWorld := by
    obtain ⟨receipt, hok, -⟩ := exists_receipt_of_gasReport hreport
    exact ⟨receipt, congrArg Prod.fst hok⟩
  refine ⟨hfirst, ?_⟩
  intro hsecond
  obtain ⟨-, hpairs⟩ := accepted_transaction_is_not_replayed wealthyWorld
    [repeatedSubmission, repeatedSubmission] hscripts
  obtain ⟨-, hdifferent⟩ := hpairs 0 1 repeatedSubmission repeatedSubmission Nat.zero_lt_one rfl rfl
    hfirst hsecond
  exact hdifferent rfl

end MeteredLedger
