import MeteredLedger.Proofs.FrameRelation
import MeteredLedger.Proofs.Rewind

/-!
# Frames that may not write

A frame that may not write is refused every write of its own and every nested request that moves
value or creates an account.  What remains are calls without value.  They debit and credit nothing,
but a call of a precompiled contract at whose address there is no account places an empty account
there, and nothing asks whether the frame may write.  This is the only change that gets through.
-/

namespace MeteredLedger

open Std

namespace World

variable {w w₁ w₂ w₃ : World} {a : Address}

theorem subBalance_zero (h : w.hasAccount a = true) : (w.subBalance a 0).toLedger = w.toLedger := by
  have hzero : Wei.subClamped (w.balance a) 0 = w.balance a := by
    apply BitVec.eq_of_toNat_eq
    simp
  rw [subBalance, hzero, setBalance_balance h]

theorem addBalance_zero (h : w.hasAccount a = true) : (w.addBalance a 0).toLedger = w.toLedger := by
  have hmax := Wei.toNat_le_maxNat (w.balance a)
  have hzero : Wei.addClamped (w.balance a) 0 = w.balance a := by
    apply BitVec.eq_of_toNat_eq
    rw [Wei.toNat_addClamped]
    exact Nat.min_eq_left hmax
  rw [addBalance, hzero, setBalance_balance h]

/-- Nothing has changed but that empty accounts may have been placed at addresses of precompiled
contracts where there were none. -/
structure Untouched (precompiles : PrecompileSet) (w w' : World) : Prop where
  refund : w'.refund = w.refund
  logs : w'.logs = w.logs
  logCount : w'.logCount = w.logCount
  accounts : ∀ a : Address, w'.accounts[a]? = w.accounts[a]? ∨
    w.accounts[a]? = none ∧ precompiles.contains a = true ∧ w'.accounts[a]? = some {}

namespace Untouched

variable {precompiles : PrecompileSet}

theorem ofEq (h : w₂.toLedger = w₁.toLedger) : Untouched precompiles w₁ w₂ := by
  refine ⟨?_, ?_, ?_, ?_⟩
  · rw [h]
  · rw [h]
  · rw [h]
  · intro a
    rw [h]
    exact .inl rfl

theorem trans (h : Untouched precompiles w₁ w₂) (h' : Untouched precompiles w₂ w₃) :
    Untouched precompiles w₁ w₃ := by
  refine ⟨h'.refund.trans h.refund, h'.logs.trans h.logs, h'.logCount.trans h.logCount, ?_⟩
  intro a
  rcases h'.accounts a with hsame' | ⟨hnone', hpre, hplaced'⟩
  · rw [hsame']
    exact h.accounts a
  · rcases h.accounts a with hsame | ⟨-, -, hplaced⟩
    · exact .inr ⟨hsame.symm.trans hnone', hpre, hplaced'⟩
    · rw [hplaced] at hnone'
      cases hnone'

theorem hasAccount (h : Untouched precompiles w₁ w₂) (hthere : w₁.hasAccount a = true) :
    w₂.hasAccount a = true := by
  rw [hasAccount_eq] at hthere ⊢
  rcases h.accounts a with hsame | ⟨hnone, -, -⟩
  · rw [hsame]
    exact hthere
  · rw [hnone] at hthere
    cases hthere

/-- An empty account placed where there was none. -/
theorem place (hmissing : w₁.hasAccount a = false) (hpre : precompiles.contains a = true)
    (hledger : w₂.toLedger = w₁.toLedger.setAccount a {}) : Untouched precompiles w₁ w₂ := by
  refine ⟨?_, ?_, ?_, ?_⟩
  · rw [hledger]
    rfl
  · rw [hledger]
    rfl
  · rw [hledger]
    rfl
  · intro b
    rw [hledger, Ledger.setAccount_accounts]
    split
    · rename_i hab
      subst hab
      exact .inr ⟨accounts_of_missing hmissing, hpre, rfl⟩
    · exact .inl rfl

theorem createAccount (hmissing : w.hasAccount a = false)
    (hpre : precompiles.contains a = true) : Untouched precompiles w (w.createAccount a) := by
  apply place hmissing hpre
  rw [createAccount_toLedger, Ledger.createAccount,
    Ledger.accountAt_of_missing (accounts_of_missing hmissing)]

/-- Nothing is taken from an account, which is placed for that if it is missing. -/
theorem subBalance_zero (h : w.hasAccount a = true ∨ precompiles.contains a = true) :
    Untouched precompiles w (w.subBalance a 0) := by
  by_cases hthere : w.hasAccount a = true
  · exact ofEq (World.subBalance_zero hthere)
  · rw [Bool.not_eq_true] at hthere
    have hpre := h.resolve_left (by simp [hthere])
    apply place hthere hpre
    rw [subBalance_toLedger, Ledger.setBalance, Ledger.update,
      Ledger.accountAt_of_missing (accounts_of_missing hthere)]
    rfl

theorem transfer_zero {sender receiver : Address}
    (hsender : w.hasAccount sender = true ∨ precompiles.contains sender = true)
    (hreceiver : w.hasAccount receiver = true) :
    Untouched precompiles w (w.transfer sender receiver 0) := by
  have hsub := subBalance_zero hsender
  exact hsub.trans (ofEq (addBalance_zero (hsub.hasAccount hreceiver)))

/-- The change is none at all exactly if no empty account was placed. -/
theorem toLedger_eq_iff (h : Untouched precompiles w₁ w₂) :
    w₂.toLedger = w₁.toLedger ↔
      ∀ a, precompiles.contains a = true → w₁.hasAccount a = false → w₂.hasAccount a = false := by
  constructor
  · intro hledger a _ hmissing
    rw [hasAccount_eq, hledger]
    exact hmissing
  · intro hnobody
    have haccounts : w₂.accounts = w₁.accounts := by
      apply ExtTreeMap.ext_getElem?
      intro a
      rcases h.accounts a with hsame | ⟨hnone, hpre, hplaced⟩
      · exact hsame
      · have hgone := hnobody a hpre (by simp [hasAccount_eq, hnone])
        simp [hasAccount_eq, hplaced] at hgone
    have hrefund := h.refund
    have hlogs := h.logs
    have hcount := h.logCount
    cases hw₁ : w₁.toLedger
    cases hw₂ : w₂.toLedger
    simp_all

end Untouched

end World

/-! ## Read-only frames -/

/-- What a frame does when it may not write; nothing is said of one that may. -/
def World.Guarded (precompiles : PrecompileSet) (readOnly : Bool) (w w' : World) : Prop :=
  readOnly = true → World.Follows Eq w w' ∧ World.Untouched precompiles w w'

theorem World.Guarded.ofLedger {precompiles : PrecompileSet} {readOnly : Bool} {w w' : World}
    (hfollows : World.Follows Eq w w') (hledger : w'.toLedger = w.toLedger) :
    World.Guarded precompiles readOnly w w' :=
  fun _ ↦ ⟨hfollows, World.Untouched.ofEq hledger⟩

theorem World.Guarded.ofWrite {precompiles : PrecompileSet} {w w' : World} :
    World.Guarded precompiles false w w' := by
  intro hro
  cases hro

/-- An account that a read-only frame works on exists or may be placed, so that a transfer of nothing
places no other one. -/
def World.PresentOrPlaced (places : PrecompileSet) (readOnly : Bool) (w : World) (a : Address) :
    Prop :=
  readOnly = true → w.hasAccount a = true ∨ places.contains a = true

theorem frameRelation_guarded (s : Setting) {places : PrecompileSet}
    (hplaces : ∀ a, s.env.precompiles.contains a = true → places.contains a = true) :
    FrameRelation s (fun _ ↦ True) (World.PresentOrPlaced places) (World.Guarded places) where
  refl _ w := .ofLedger (World.Follows.refl rewindable_eq w) rfl
  trans h h' := by
    intro hro
    obtain ⟨hfollows, huntouched⟩ := h hro
    obtain ⟨hfollows', huntouched'⟩ := h' hro
    exact ⟨hfollows.trans rewindable_eq hfollows', huntouched.trans huntouched'⟩
  relax _ := .ofWrite
  own hown h := by
    intro hro
    exact (hown hro).imp_left (h hro).2.hasAccount
  ownCode {ro w a} hcode _ := by
    left
    rw [World.hasAccount_eq]
    cases hget : w.accounts[a]? with
    | some acct => rfl
    | none =>
        rw [World.code_eq, Ledger.accountAt_of_missing hget] at hcode
        exact absurd rfl hcode
  store _ _ _ := .ofWrite
  log _ _ := .ofWrite
  refund _ _ := .ofWrite
  snapshot _ w := .ofLedger (World.follows_snapshot (fun _ ↦ rfl) w) rfl
  revert {ro w w'} h := by
    intro hro
    rw [World.revert_snapshot (h hro).1]
    exact ⟨World.Follows.refl rewindable_eq w, .ofEq rfl⟩
  materialise {ro w a} hmissing hpre := by
    intro hro
    exact ⟨(World.records_createAccount w a).follows,
      .createAccount hmissing (hplaces a (hpre hro))⟩
  transfer {ro w caller target value} hown htarget _ hvalue := by
    intro hro
    rw [hvalue hro]
    cases s.context.transfers with
    | move =>
        exact ⟨(World.records_transfer w caller target 0).follows,
          .transfer_zero (hown hro) htarget⟩
    | keep => exact ⟨World.Follows.refl rewindable_eq w, .ofEq rfl⟩
  nonce _ _ := .ofWrite
  creation _ _ _ := .ofWrite
  ownCreation _ _ _ _ hro := by cases hro
  deposited _ _ _ _ := .ofWrite

/-- A static call is read-only even where its caller may write. -/
theorem answer_static {s : Setting} {exec : Exec}
    (hexec : exec.Keeps (World.PresentOrPlaced s.env.precompiles)
      (World.Guarded s.env.precompiles)) (caller target : Address) (input : Bytes) (gas : Gas)
    (m : Machine) :
    World.Untouched s.env.precompiles m.world
        (answer s exec (.staticCall caller target input gas) m).2.world ∧
      ∀ fault, (answer s exec (.staticCall caller target input gas) m).1.result = .error fault →
        (answer s exec (.staticCall caller target input gas) m).2.world = m.world := by
  have hconduct := answer_conduct s exec (m := m) (.staticCall caller target input gas)
  generalize answer s exec (.staticCall caller target input gas) m = answered at hconduct ⊢
  obtain ⟨outcome, m'⟩ := answered
  cases hconduct with
  | refused hrefuse => exact ⟨.ofEq rfl, fun _ _ ↦ rfl⟩
  | @called _ frame _ _ w input start run _ hentry hopen hstart hstartRo hstartDepth hrun hworld hro
      hdepth =>
      cases hopen
      have hrelation := frameRelation_guarded s fun _ hpre ↦ hpre
      have hreadOnly : start.readOnly = true := by rw [hstartRo, Bool.or_true]
      have hkept : Kept (World.Guarded s.env.precompiles) start run.machine := by
        rw [hrun]
        apply hrelation.runFrame hexec
        rw [hstart]
        exact hrelation.ownCode
      obtain ⟨hfollows, huntouched⟩ := hkept.world hreadOnly
      rw [hstart] at hfollows huntouched
      have hback := World.revert_snapshot hfollows
      rw [hworld, Run.settle]
      cases hresult : run.result with
      | ok output =>
          have hsame : World.Untouched s.env.precompiles m.world m.world.snapshot.2 := .ofEq rfl
          refine ⟨hsame.trans huntouched, ?_⟩
          intro fault hfault
          cases hfault
      | error fault =>
          refine ⟨?_, fun _ _ ↦ hback⟩
          apply World.Untouched.ofEq
          exact congrArg World.toLedger hback

theorem dispatch_static {s : Setting} {table : ExtTreeMap Bytes (List Op)}
    (hs : s.env.interpreter = .script table) (caller target : Address) (input : Bytes) (gas : Gas)
    (m : Machine) :
    World.Untouched s.env.precompiles m.world
        (dispatch s (.staticCall caller target input gas) m).2.world ∧
      ∀ fault, (dispatch s (.staticCall caller target input gas) m).1.result = .error fault →
        (dispatch s (.staticCall caller target input gas) m).2.world = m.world := by
  rw [dispatch_eq_script hs, dispatchWith, dispatchWithin_eq_answer]
  have hexec := (frameRelation_guarded s fun _ hpre ↦ hpre).codeRunner
    (scriptEngine_isEffectful table) (s.env.limits.maxCallDepth + 1 - m.depth)
  exact answer_static hexec caller target input gas m

/-- A static call leaves the refund counter and the logs alone, and of the accounts it can only
place empty ones at addresses of precompiled contracts where there were none.  It changes nothing if
it fails, and if it succeeds, it changes nothing exactly if it placed no such account; in particular
it changes nothing where every precompiled contract has an account. -/
theorem static_call_places_only_empty_precompiles {s : Setting}
    {table : ExtTreeMap Bytes (List Op)} (hs : s.env.interpreter = .script table)
    (caller target : Address) (input : Bytes) (gas : Gas) (m : Machine) :
    World.Untouched s.env.precompiles m.world
        (dispatch s (.staticCall caller target input gas) m).2.world ∧
    (∀ fault, (dispatch s (.staticCall caller target input gas) m).1.result = .error fault →
      (dispatch s (.staticCall caller target input gas) m).2.world.toLedger = m.world.toLedger) ∧
    ((dispatch s (.staticCall caller target input gas) m).2.world.toLedger = m.world.toLedger ∧
        (dispatch s (.staticCall caller target input gas) m).2.world.stateRoot = m.world.stateRoot ↔
      ∀ a, s.env.precompiles.contains a = true → m.world.hasAccount a = false →
        (dispatch s (.staticCall caller target input gas) m).2.world.hasAccount a = false) ∧
    ((∀ a, s.env.precompiles.contains a = true → m.world.hasAccount a = true) →
      (dispatch s (.staticCall caller target input gas) m).2.world.toLedger = m.world.toLedger ∧
        (dispatch s (.staticCall caller target input gas) m).2.world.stateRoot =
          m.world.stateRoot) := by
  obtain ⟨huntouched, hfailed⟩ := dispatch_static hs caller target input gas m
  have hexact := huntouched.toLedger_eq_iff
  refine ⟨huntouched, ?_, ⟨?_, ?_⟩, ?_⟩
  · intro fault hfault
    rw [hfailed fault hfault]
  · rintro ⟨hledger, -⟩
    exact hexact.mp hledger
  · intro hnobody
    have hledger := hexact.mpr hnobody
    exact ⟨hledger, congrArg Ledger.stateRoot hledger⟩
  · intro hall
    have hledger := hexact.mpr fun a hpre hmissing ↦ by
      rw [hall a hpre] at hmissing
      cases hmissing
    exact ⟨hledger, congrArg Ledger.stateRoot hledger⟩

/-- Account 17 calls the precompiled contract at address 4 without value. -/
def lookingTable : ExtTreeMap Bytes (List Op) :=
  (∅ : ExtTreeMap Bytes (List Op)).insert [1] [.call .call 4 1000 0, .output [5]]

def lookingSetting : Setting := scriptSetting lookingTable

def lookingWorld : World := ({} : World).placeAccount 17 { code := [1] }

/-- The same world with accounts for all precompiled contracts. -/
def placedWorld : World :=
  ((lookingWorld.placeAccount 2 {}).placeAccount 3 {}).placeAccount 4 { balance := 6 }

theorem static_call_of_placed_precompile :
    (∀ a, lookingSetting.env.precompiles.contains a = true → placedWorld.hasAccount a = true) ∧
      (dispatch lookingSetting (.staticCall 9 17 [] 50000)
        { world := placedWorld }).2.world.toLedger = placedWorld.toLedger := by
  have hall : ∀ a, lookingSetting.env.precompiles.contains a = true →
      placedWorld.hasAccount a = true := by
    intro a hpre
    simp only [lookingSetting, scriptSetting, PrecompileSet.standard, ExtTreeMap.contains_insert,
      ExtTreeMap.contains_empty, Bool.or_false, Bool.or_eq_true, beq_iff_eq,
      Std.compare_eq_iff_eq] at hpre
    rcases hpre with rfl | rfl | rfl <;> decide +kernel
  have hs : lookingSetting.env.interpreter = .script lookingTable := rfl
  obtain ⟨-, -, -, hunchanged⟩ :=
    static_call_places_only_empty_precompiles hs 9 17 [] 50000 { world := placedWorld }
  exact ⟨hall, (hunchanged hall).1⟩

/-- A static call that succeeds and places an account. -/
theorem static_call_places_account :
    lookingWorld.NoZeroSlots ∧
      (dispatch lookingSetting (.staticCall 9 17 [] 50000)
        { world := lookingWorld }).1.fault? = none ∧
      (dispatch lookingSetting (.staticCall 9 17 [] 50000)
        { world := lookingWorld }).2.world.toLedger ≠ lookingWorld.toLedger := by
  refine ⟨?_, by decide +kernel, ?_⟩
  · exact Ledger.noZeroSlots_empty.setAccount 17 Storage.noZero_empty
  · intro hledger
    have hbefore : lookingWorld.hasAccount 4 = false := by decide +kernel
    have hafter : (dispatch lookingSetting (.staticCall 9 17 [] 50000)
        { world := lookingWorld }).2.world.hasAccount 4 = true := by
      decide +kernel
    rw [World.hasAccount_eq, hledger, ← World.hasAccount_eq, hbefore] at hafter
    cases hafter

end MeteredLedger
