import Mathlib.Algebra.Ring.Nat
import MeteredLedger.Proofs.MessageOpening

/-!
# Which messages are accepted

Whether a message is accepted depends on the nonce and the balance of its sender, on the gas in the
pool and on the cost of its data.  The checks are made one after another, the last of them on a world
in which the gas is paid for already; here each of them is turned into a condition on the world that
the message finds.  What follows the checks can no longer reject: the dispatcher makes some of them
again and finds them met, and the pool takes back gas that came from it.
-/

namespace MeteredLedger

open Std

/-! ## The cost before execution -/

namespace Gas

def byteCost (b : UInt8) : Nat := if b = 0 then 4 else 68

/-- What a transaction costs before it runs, in range or not. -/
def intrinsicCost (data : Bytes) (creation homestead : Bool) : Nat :=
  (if creation && homestead then 53000 else 21000) + (data.map byteCost).sum

theorem sum_byteCost (data : Bytes) :
    (data.map byteCost).sum = data.countP (· != 0) * 68 + data.countP (· == 0) * 4 := by
  induction data with
  | nil => rfl
  | cons b data ih =>
      by_cases hb : b = 0
      · simp [byteCost, hb, ih]
        omega
      · simp [byteCost, hb, ih]
        omega

theorem intrinsic?_eq_some_iff {data : Bytes} {creation homestead : Bool} {gas : Gas} :
    intrinsic? data creation homestead = some gas ↔
      gas.toNat = intrinsicCost data creation homestead := by
  have hbase : (if creation && homestead then txCreation else txBase) =
      if creation && homestead then 53000 else 21000 := rfl
  rw [intrinsic?, ofNat?_eq_some_iff, intrinsicCost, sum_byteCost, hbase, nonZeroByte, zeroByte,
    Nat.add_assoc]

theorem exists_intrinsic?_iff {data : Bytes} {creation homestead : Bool} :
    (∃ gas, intrinsic? data creation homestead = some gas) ↔
      intrinsicCost data creation homestead ≤ maxNat := by
  constructor
  · rintro ⟨gas, h⟩
    rw [← intrinsic?_eq_some_iff.mp h]
    exact Nat.le_of_lt_succ gas.toNat_lt
  · intro h
    refine ⟨clamp (intrinsicCost data creation homestead), ?_⟩
    rw [intrinsic?_eq_some_iff, toNat_clamp, Nat.min_eq_left h]

end Gas

/-! ## The checks, one by one -/

namespace Message

variable {msg : Message} {w : World}

theorem checkNonceIn_eq_ok_iff :
    msg.checkNonceIn w = .ok () ↔ (msg.checkNonce = true →
      w.nonce msg.sender = msg.nonce ∧ w.nonce msg.sender ≠ Nonce.largest) := by
  constructor
  · intro h hcheck
    obtain ⟨hnonce, hlargest⟩ := checkNonceIn_eq_ok hcheck h
    exact ⟨hnonce.symm, hlargest⟩
  · intro h
    cases hcheck : msg.checkNonce with
    | false => simp [checkNonceIn, hcheck]
    | true =>
        obtain ⟨hnonce, hlargest⟩ := h hcheck
        rw [hnonce] at hlargest
        simp [checkNonceIn, hcheck, hnonce, hlargest]

theorem exists_gasCost_iff :
    (∃ cost, msg.gasCost w = .ok cost) ↔
      msg.gasLimit.toNat * msg.gasPrice.toNat + msg.value.toNat ≤
        (w.balance msg.sender).toNat := by
  constructor
  · rintro ⟨cost, h⟩
    obtain ⟨hcost, hcovered⟩ := gasCost_eq_ok h
    rwa [hcost] at hcovered
  · intro hcovered
    have hrange := (w.balance msg.sender).toNat_le_maxNat
    -- Price and sum are in range because the balance is.
    have hcost : Wei.ofNat? (msg.gasLimit.toNat * msg.gasPrice.toNat) =
        some (Wei.clamp (msg.gasLimit.toNat * msg.gasPrice.toNat)) := by
      rw [Wei.ofNat?_eq_some_iff, Wei.toNat_clamp]
      omega
    have hwant : Wei.ofNat? (msg.gasLimit.toNat * msg.gasPrice.toNat + msg.value.toNat) =
        some (Wei.clamp (msg.gasLimit.toNat * msg.gasPrice.toNat + msg.value.toNat)) := by
      rw [Wei.ofNat?_eq_some_iff, Wei.toNat_clamp]
      omega
    have hpays : ¬w.balance msg.sender <
        Wei.clamp (msg.gasLimit.toNat * msg.gasPrice.toNat + msg.value.toNat) := by
      rw [BitVec.lt_def, Wei.toNat_clamp]
      omega
    exact ⟨Wei.clamp (msg.gasLimit.toNat * msg.gasPrice.toNat), by
      simp only [gasCost, hcost, hwant, if_neg hpays]⟩

theorem exists_take_iff {pool : GasPool} {amount : Gas} :
    (∃ rest, pool.take amount = .ok rest) ↔ amount ≤ pool.gas := by
  rw [← UInt64.not_lt]
  by_cases hshort : pool.gas < amount <;> simp [GasPool.take, hshort]

theorem exists_accept_iff {pool : GasPool} :
    (∃ accepted, msg.accept w pool = .ok accepted) ↔
      msg.checkNonceIn w = .ok () ∧ (∃ cost, msg.gasCost w = .ok cost) ∧
        ∃ rest, pool.take msg.gasLimit = .ok rest := by
  constructor
  · rintro ⟨⟨cost, rest⟩, h⟩
    obtain ⟨hnonce, hcost, hpool⟩ := accept_eq_ok h
    exact ⟨hnonce, ⟨cost, hcost⟩, rest, hpool⟩
  · rintro ⟨hnonce, ⟨cost, hcost⟩, rest, hpool⟩
    exact ⟨(cost, rest), by simp only [accept, hnonce, hcost, hpool]⟩

theorem exists_start_iff {gas : Gas} :
    (∃ started, msg.start gas w = .ok started) ↔
      (msg.target ≠ none → w.nonce msg.sender ≠ Nonce.largest) := by
  cases hstart : msg.start gas w with
  | ok started =>
      rcases start_cases hstart with ⟨hcreates, -, -⟩ | ⟨target, next, -, -, hnext, -⟩
      · simp [hcreates]
      · simp [(Nonce.next?_eq_some_iff.mp hnext).1]
  | error e =>
      obtain ⟨htarget, hnext, -⟩ := start_eq_error_iff.mp hstart
      have hlargest : w.nonce msg.sender = Nonce.largest := by
        by_contra hsmall
        rw [Nonce.next?_eq_some_iff.mpr ⟨hsmall, rfl⟩] at hnext
        cases hnext
      simp [htarget, hlargest]

end Message

/-! ## All checks together -/

/-- The conditions on which a message is accepted in the world and from the pool that it finds. -/
structure Message.Acceptable (msg : Message) (homestead : Bool) (w : World) (pool : GasPool) :
    Prop where
  nonce : msg.checkNonce = true →
    w.nonce msg.sender = msg.nonce ∧ w.nonce msg.sender ≠ Nonce.largest
  priceInRange : msg.gasLimit.toNat * msg.gasPrice.toNat + msg.value.toNat ≤ Wei.maxNat
  price : msg.gasLimit.toNat * msg.gasPrice.toNat + msg.value.toNat ≤ (w.balance msg.sender).toNat
  pool : msg.gasLimit ≤ pool.gas
  costInRange : Gas.intrinsicCost msg.data msg.isCreation homestead ≤ Gas.maxNat
  cost : Gas.intrinsicCost msg.data msg.isCreation homestead ≤ msg.gasLimit.toNat
  next : msg.target ≠ none → w.nonce msg.sender ≠ Nonce.largest

namespace Message

variable {msg : Message} {w : World} {pool : GasPool} {env : Env} {context : Context}

theorem acceptable_of_opening {opened : Request × World}
    (h : msg.opening env context w pool = .ok opened) :
    msg.Acceptable (env.chain.isHomestead context.blockNumber) w pool := by
  unfold opening at h
  split at h
  · cases h
  · rename_i cost rest haccept
    split at h
    · cases h
    · rename_i intrinsic hintrinsic
      split at h
      · cases h
      · rename_i hcovered
        obtain ⟨hnonce, hcost, hpool⟩ := exists_accept_iff.mp ⟨_, haccept⟩
        have hprice := exists_gasCost_iff.mp hcost
        have hbalance := (w.balance msg.sender).toNat_le_maxNat
        have hnext := exists_start_iff.mp ⟨opened, h⟩
        rw [World.nonce_subBalance] at hnext
        have hrange := Gas.exists_intrinsic?_iff.mp ⟨intrinsic, hintrinsic⟩
        rw [UInt64.not_lt, UInt64.le_iff_toNat_le,
          Gas.intrinsic?_eq_some_iff.mp hintrinsic] at hcovered
        exact
          { nonce := checkNonceIn_eq_ok_iff.mp hnonce
            priceInRange := Nat.le_trans hprice hbalance
            price := hprice
            pool := exists_take_iff.mp hpool
            costInRange := hrange
            cost := hcovered
            next := hnext }

theorem Acceptable.opening
    (h : msg.Acceptable (env.chain.isHomestead context.blockNumber) w pool) :
    ∃ opened, msg.opening env context w pool = .ok opened := by
  obtain ⟨⟨cost, rest⟩, haccept⟩ := exists_accept_iff.mpr
    ⟨checkNonceIn_eq_ok_iff.mpr h.nonce, exists_gasCost_iff.mpr h.price, exists_take_iff.mpr h.pool⟩
  obtain ⟨intrinsic, hintrinsic⟩ := Gas.exists_intrinsic?_iff.mpr h.costInRange
  have hcovered : ¬msg.gasLimit < intrinsic := by
    rw [UInt64.not_lt, UInt64.le_iff_toNat_le, Gas.intrinsic?_eq_some_iff.mp hintrinsic]
    exact h.cost
  have hnext : msg.target ≠ none →
      (w.subBalance msg.sender cost).nonce msg.sender ≠ Nonce.largest := by
    rw [World.nonce_subBalance]
    exact h.next
  have hstart : ∃ opened, msg.start (msg.gasLimit - intrinsic) (w.subBalance msg.sender cost) =
      .ok opened := exists_start_iff.mpr hnext
  simpa only [Message.opening, haccept, hintrinsic, if_neg hcovered] using hstart

end Message

theorem applyMessage_accepts_iff {env : Env} {table : ExtTreeMap Bytes (List Op)}
    (hs : env.interpreter = .script table) (context : Context) (msg : Message) (t : Session) :
    (∃ execution, (applyMessage env context msg t).1 = .ok execution) ↔
      msg.Acceptable (env.chain.isHomestead context.blockNumber) t.world t.pool := by
  constructor
  · rintro ⟨execution, hok⟩
    cases hopening : msg.opening env context t.world t.pool with
    | ok opened => exact Message.acceptable_of_opening hopening
    | error e =>
        rw [applyMessage_of_opening_error hopening] at hok
        cases hok
  · intro h
    obtain ⟨opened, hopening⟩ := h.opening
    exact (Message.opening_eq_ok_iff.mp hopening).applied hs

/-- Acceptance is decided before execution.  A message is accepted exactly if its nonce, where it is
to be checked, is the sender's and not the largest; if the price of all its gas and its value
together are in range and covered; if the pool has its gas; if the cost of its data is in range and
covered by its gas; and if the sender of a call has a next nonce.  So it makes no difference which
scripts, precompiled contracts and limits there are or whether execution is cancelled, and how the
frame ends is only reported; the dispatcher never turns that frame away. -/
theorem acceptance_is_decided_before_execution {env : Env} {table : ExtTreeMap Bytes (List Op)}
    (hs : env.interpreter = .script table) {context : Context} (hfunds : context.funds = .balance)
    (msg : Message) (t : Session) :
    ((∃ execution, (applyMessage env context msg t).1 = .ok execution) ↔
      msg.Acceptable (env.chain.isHomestead context.blockNumber) t.world t.pool) ∧
    (∀ (other : Env) (scripts : ExtTreeMap Bytes (List Op)) (monitor : Monitor),
      other.interpreter = .script scripts → other.chain = env.chain →
      ((∃ execution, (applyMessage other context msg { t with monitor := monitor }).1 =
          .ok execution) ↔
        ∃ execution, (applyMessage env context msg t).1 = .ok execution)) ∧
    (∀ execution, (applyMessage env context msg t).1 = .ok execution →
      ∃ request start, msg.Starts env context t request start ∧
        refuse? ⟨env, context⟩ start request = none ∧
        execution.fault = (dispatch ⟨env, context⟩ request start).1.fault?) := by
  refine ⟨applyMessage_accepts_iff hs context msg t, ?_, ?_⟩
  · intro other scripts monitor hscripts hchain
    rw [applyMessage_accepts_iff hscripts, applyMessage_accepts_iff hs, hchain]
  · intro execution hok
    obtain ⟨pool, outcome, m, hruns, -, -, hfault, -⟩ :=
      applyMessage_eq_ok (Prod.ext hok rfl : applyMessage env context msg t = (.ok execution, _))
    obtain ⟨request, start, hstarts, hdispatch⟩ := hruns.starts
    refine ⟨request, start, hstarts, hstarts.admitted hfunds, ?_⟩
    rw [hfault, hdispatch]

/-- Sent from account 9 with the last of its money. -/
def scrapingMessage : Message where
  sender := 9
  target := some 17
  nonce := 3
  value := 1
  gasLimit := 21072
  gasPrice := 2
  data := [0, 5]

def scrapingEnv : Env where
  interpreter := .script ((∅ : ExtTreeMap Bytes (List Op)).insert [1] [.store 1 5, .fail])

def scrapingContext : Context where
  origin := 9
  gasPrice := 2
  coinbase := 5
  gasLimit := 100000
  blockNumber := 0
  time := 0
  difficulty := 0

def scrapingSession : Session where
  world := (({} : World).placeAccount 17 { code := [1] }).placeAccount 9
    { nonce := 3, balance := 42145 }
  pool := ⟨21072⟩

theorem scraping_message_is_accepted :
    scrapingMessage.Acceptable true scrapingSession.world scrapingSession.pool ∧
      ∃ execution, (applyMessage scrapingEnv scrapingContext scrapingMessage scrapingSession).1 =
          .ok execution ∧
        execution.fault = some (.interpreter "invalid opcode") := by
  have hacceptable : scrapingMessage.Acceptable true scrapingSession.world scrapingSession.pool :=
    { nonce := by decide
      priceInRange := by decide
      price := by decide
      pool := by decide
      costInRange := by decide
      cost := by decide
      next := by decide }
  have hfault : ((applyMessage scrapingEnv scrapingContext scrapingMessage
      scrapingSession).1.toOption.bind (·.fault)) = some (.interpreter "invalid opcode") := by
    decide +kernel
  obtain ⟨hiff, -, -⟩ := @acceptance_is_decided_before_execution scrapingEnv _ rfl scrapingContext
    rfl scrapingMessage scrapingSession
  obtain ⟨execution, hok⟩ := hiff.mpr hacceptable
  rw [hok] at hfault
  exact ⟨hacceptable, execution, hok, hfault⟩

end MeteredLedger
