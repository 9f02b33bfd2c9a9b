import MeteredLedger.Proofs.CodeRun
import MeteredLedger.Proofs.ReadOnly

/-!
# Requests made where nothing may be written

Any request can reach the dispatcher while the machine is read-only, also one on behalf of an
account that does not exist.  Such a caller is placed when it transfers nothing, as a precompiled
contract is when it is called; both come out empty, so that no balance, nonce, code or stored word
reads differently afterwards.  Creations are turned away at every depth: a run that starts read-only
stays the same whatever is made to happen after a creation that succeeds.
-/

namespace MeteredLedger

open Std

/-- The second world reads as the first one.  Accounts stay as they are, and an account that only the
second world has is an empty one. -/
structure World.ReadsAs (w w' : World) : Prop where
  balance : ∀ a, w'.balance a = w.balance a
  nonce : ∀ a, w'.nonce a = w.nonce a
  code : ∀ a, w'.code a = w.code a
  storage : ∀ a key, w'.storageAt a key = w.storageAt a key
  logs : ∀ txHash, w'.logsOf txHash = w.logsOf txHash
  logCount : w'.logCount = w.logCount
  refund : w'.refund = w.refund
  present : ∀ a acct, w.account? a = some acct → w'.account? a = some acct
  placed : ∀ a acct, w.account? a = none → w'.account? a = some acct → acct = {}

namespace World.Untouched

variable {places : PrecompileSet} {w w' : World}

/-- An empty account reads as none. -/
theorem accountAt_eq (h : Untouched places w w') (a : Address) :
    w'.toLedger.accountAt a = w.toLedger.accountAt a := by
  rcases h.accounts a with hsame | ⟨hnone, -, hplaced⟩
  · rw [Ledger.accountAt, Ledger.accountAt, hsame]
  · rw [Ledger.accountAt_of_missing hnone, Ledger.accountAt_of_present hplaced]

theorem readsAs (h : Untouched places w w') : w.ReadsAs w' where
  balance a := by rw [balance_eq, balance_eq, h.accountAt_eq]
  nonce a := by rw [nonce_eq, nonce_eq, h.accountAt_eq]
  code a := by rw [code_eq, code_eq, h.accountAt_eq]
  storage a key := by rw [storageAt_eq, storageAt_eq, h.accountAt_eq]
  logs txHash := by rw [logsOf, logsOf, h.logs]
  logCount := h.logCount
  refund := h.refund
  present a acct hacct := by
    rcases h.accounts a with hsame | ⟨hnone, -, -⟩
    · exact hsame.trans hacct
    · rw [account?, hnone] at hacct
      cases hacct
  placed a acct hnone hacct := by
    rcases h.accounts a with hsame | ⟨-, -, hplaced⟩
    · rw [account?, hsame] at hacct
      rw [account?, hacct] at hnone
      cases hnone
    · rw [account?, hplaced] at hacct
      cases hacct
      rfl

end World.Untouched

/-- Whatever a read-only request leads to, it leaves the machine read-only at the same depth, and
places at most empty accounts of precompiled contracts and of the caller. -/
theorem dispatchWithin_readOnly (s : Setting) (table : ExtTreeMap Bytes (List Op)) (levels : Nat)
    (request : Request) {m : Machine} (hro : m.readOnly = true) :
    World.Untouched (s.env.precompiles.insert request.caller .identity) m.world
        (dispatchWithin s (scriptEngine table) levels request m).2.world ∧
      (dispatchWithin s (scriptEngine table) levels request m).2.readOnly = true ∧
      (dispatchWithin s (scriptEngine table) levels request m).2.depth = m.depth := by
  have hplaces : ∀ a, s.env.precompiles.contains a = true →
      (s.env.precompiles.insert request.caller .identity).contains a = true := by
    intro a hpre
    simp [hpre]
  have hrelation := frameRelation_guarded s hplaces
  have hexec := hrelation.codeRunner (scriptEngine_isEffectful table) levels
  have hkept := hrelation.answer hexec request m (.inr fun _ ↦ .inr ExtTreeMap.contains_insert_self)
  rw [dispatchWithin_eq_answer]
  exact ⟨(hkept.world hro).2, hkept.readOnly.trans hro, hkept.depth⟩

/-! ## Creations -/

/-- Answers as before, but lets `react` change the answer once a creation has succeeded. -/
def Dispatcher.onCreation (d : Dispatcher) (react : Outcome × Machine → Outcome × Machine) :
    Dispatcher := fun request m ↦
  if request.isCreate && (d request m).1.succeeded then react (d request m) else d request m

/-- Runs code as before, with all its requests answered under `react`. -/
def Engine.onCreation (engine : Engine) (react : Outcome × Machine → Outcome × Machine) : Engine :=
  fun nested ↦ engine (nested.onCreation react)

theorem answer_creation_readOnly (s : Setting) (exec : Exec) {request : Request} {m : Machine}
    (hcreate : request.isCreate = true) (hro : m.readOnly = true) :
    (answer s exec request m).1.succeeded = false := by
  cases hrefuse : refuse? s m request with
  | none =>
      cases request with
      | create caller initCode gas value =>
          rw [mayCreate hrefuse] at hro
          cases hro
      | _ => cases hcreate
  | some outcome =>
      rw [answer_of_refusal hrefuse]
      cases refuse?_refusal hrefuse with
      | skipped hrecursion hdepth hcall =>
          rw [hcreate] at hcall
          cases hcall
      | _ => rfl

def Exec.AgreesReadOnly (exec exec' : Exec) : Prop :=
  ∀ f input m, m.readOnly = true → exec f input m = exec' f input m

def Dispatcher.AgreesReadOnly (d d' : Dispatcher) : Prop :=
  ∀ request m, m.readOnly = true → d request m = d' request m

theorem Effect.readOnly {room : World → Prop} {nested : Dispatcher} {f f' : Frame} {m m' : Machine}
    (hnested : ∀ request, (nested request m).2.readOnly = true) (hro : m.readOnly = true)
    (h : Effect room nested f m f' m') : m'.readOnly = true := by
  cases h with
  | nest request hgas hcaller => exact hnested request
  | _ => exact hro

namespace Dispatcher.AgreesReadOnly

variable {d d' : Dispatcher}

theorem scriptEngine (h : d.AgreesReadOnly d')
    (hstay : ∀ request m, m.readOnly = true → (d' request m).2.readOnly = true)
    (table : ExtTreeMap Bytes (List Op)) :
    Exec.AgreesReadOnly (scriptEngine table d) (MeteredLedger.scriptEngine table d') := by
  intro f input m hro
  apply scriptEngine_congr h _ table f input hro
  intro f f' m m' heffect hro
  exact heffect.readOnly (fun request ↦ hstay request m hro) hro

end Dispatcher.AgreesReadOnly

namespace Exec.AgreesReadOnly

variable {exec exec' : Exec}

theorem deeper (h : exec.AgreesReadOnly exec') :
    (deeper exec).AgreesReadOnly (MeteredLedger.deeper exec') := by
  intro f input m hro
  simp only [MeteredLedger.deeper, h f input { m with depth := m.depth + 1 } hro]

theorem answer (h : exec.AgreesReadOnly exec') (s : Setting) :
    (answer s exec).AgreesReadOnly (MeteredLedger.answer s exec') := by
  intro request m hro
  apply answer_congr
  intro f input start hcode
  obtain ⟨-, hopening, -⟩ := Request.codeRun?_eq_some_iff.mp hcode
  exact h f input start ((Request.opening?_machine hopening).2 hro)

end Exec.AgreesReadOnly

theorem dispatchWithin_onCreation (s : Setting) (table : ExtTreeMap Bytes (List Op))
    (react : Outcome × Machine → Outcome × Machine) (levels : Nat) :
    (dispatchWithin s ((scriptEngine table).onCreation react) levels).AgreesReadOnly
      (dispatchWithin s (scriptEngine table) levels) := by
  induction levels with
  | zero => exact fun _ _ _ ↦ rfl
  | succ levels ih =>
      have hreact : ((dispatchWithin s ((scriptEngine table).onCreation react) levels).onCreation
          react).AgreesReadOnly (dispatchWithin s (scriptEngine table) levels) := by
        intro request m hro
        have hfails : request.isCreate = true →
            (dispatchWithin s (scriptEngine table) levels request m).1.succeeded = false := by
          intro hcreate
          rw [dispatchWithin_eq_answer]
          exact answer_creation_readOnly s _ hcreate hro
        rw [Dispatcher.onCreation, ih request m hro, if_neg]
        intro hsucceeds
        rw [Bool.and_eq_true] at hsucceeds
        rw [hfails hsucceeds.1] at hsucceeds
        cases hsucceeds.2
      exact (hreact.scriptEngine (fun request m hro ↦
        (dispatchWithin_readOnly s table levels request hro).2.1) table).deeper.answer s

/-- A request made while nothing may be written, of any kind and on behalf of any account, changes
nothing that can be read of the world, whatever the frames nested in it do: at most it places empty
accounts.  A creation fails, and so does every creation asked for on the way, since the answer does
not depend on what is done after a creation that succeeds.  The machine stays read-only and at the
same depth. -/
theorem read_only_request_changes_no_reads {s : Setting} {table : ExtTreeMap Bytes (List Op)}
    (hs : s.env.interpreter = .script table) (request : Request) {m : Machine}
    (hro : m.readOnly = true) :
    m.world.ReadsAs (dispatch s request m).2.world ∧
      (request.isCreate = true → (dispatch s request m).1.succeeded = false) ∧
      (∀ react, dispatchWith s ((scriptEngine table).onCreation react) request m =
        dispatch s request m) ∧
      (dispatch s request m).2.readOnly = true ∧ (dispatch s request m).2.depth = m.depth := by
  rw [dispatch_eq_script hs, dispatchWith]
  obtain ⟨huntouched, hstays, hdepth⟩ := dispatchWithin_readOnly s table
    (s.env.limits.maxCallDepth + 1 - m.depth) request hro
  refine ⟨huntouched.readsAs, ?_, ?_, hstays, hdepth⟩
  · intro hcreate
    rw [dispatchWithin_eq_answer]
    exact answer_creation_readOnly s _ hcreate hro
  · intro react
    exact dispatchWithin_onCreation s table react _ request m hro

/-- Account 17 calls a precompiled contract, tries to create an account and to pay account 18, and
runs the code of account 18, which tries to store a word. -/
def snoopingTable : ExtTreeMap Bytes (List Op) :=
  ((∅ : ExtTreeMap Bytes (List Op)).insert [1]
    [.call .call 4 1000 0, .create [2] 900 0, .call .call 18 900 1, .call .callCode 18 900 0,
      .output [5]]).insert [2] [.store 1 1]

def snoopingSetting : Setting := scriptSetting snoopingTable

def snoopingMachine : Machine where
  world := (({} : World).placeAccount 17 { balance := 3, code := [1] }).placeAccount 18
    { balance := 7, code := [2] }
  depth := 2
  readOnly := true

theorem snooping_call_changes_no_reads :
    snoopingMachine.readOnly = true ∧
      (dispatch snoopingSetting (.call 9 17 [] 50000 0) snoopingMachine).1.succeeded = true ∧
      snoopingMachine.world.hasAccount 9 = false ∧
      (dispatch snoopingSetting (.call 9 17 [] 50000 0) snoopingMachine).2.world.hasAccount 9 =
        true ∧
      snoopingMachine.world.ReadsAs
        (dispatch snoopingSetting (.call 9 17 [] 50000 0) snoopingMachine).2.world := by
  have hs : snoopingSetting.env.interpreter = .script snoopingTable := rfl
  refine ⟨rfl, by decide +kernel, by decide +kernel, by decide +kernel, ?_⟩
  exact (read_only_request_changes_no_reads hs (.call 9 17 [] 50000 0) rfl).1

end MeteredLedger
