import MeteredLedger.Proofs.CopyStack
import MeteredLedger.Proofs.FrameRelation
import MeteredLedger.Proofs.LogCounter

/-!
# A frame that fails leaves nothing behind

Frames nest, and each of them marks the journal when it starts.  A nested frame that succeeds leaves
its mark behind, and one that fails takes its own mark away.  In a sound world all of this extends
the world in which the outer frame set its mark, so the outer frame, if it fails in turn, goes back
to exactly that world.  For a creation the mark is set after the creator's nonce was counted up,
which therefore stays.
-/

namespace MeteredLedger

open Std

/-! ## Worlds that can be built -/

/-- Worlds built from the empty one by placing accounts and by actions. -/
inductive World.Reachable : World → Prop
  | empty : Reachable {}
  | place {w : World} (h : Reachable w) (a : Address) (acct : Account) :
      Reachable (w.placeAccount a acct)
  | perform {w : World} (h : Reachable w) (action : Action) : Reachable (w.perform action).2

namespace Ledger

theorem NoEmptyLogs.dropLog {l : Ledger} (h : l.NoEmptyLogs) (txHash : Hash) :
    (l.dropLog txHash).NoEmptyLogs := by
  intro other
  have hother := h other
  cases hlogs : l.logs[txHash]? with
  | none => simpa [Ledger.dropLog, hlogs] using hother
  | some logs =>
      by_cases hlast : logs.dropLast = []
      · simp only [Ledger.dropLog, hlogs, hlast, List.isEmpty_nil, if_true,
          ExtTreeMap.getElem?_erase]
        split <;> simp_all
      · have hkept : logs.dropLast.isEmpty = false := by simpa using hlast
        simp only [Ledger.dropLog, hlogs, hkept, Bool.false_eq_true, if_false,
          ExtTreeMap.getElem?_insert]
        split <;> simp_all

theorem NoEmptyLogs.apply {l : Ledger} (h : l.NoEmptyLogs) (undo : Undo) :
    (undo.apply l).NoEmptyLogs := by
  have hmodify : ∀ a f, (l.modifyAccount a f).NoEmptyLogs := by
    intro a f txHash
    rw [modifyAccount_logs]
    exact h txHash
  cases undo with
  | account a previous => cases previous <;> exact h
  | balance a previous => exact hmodify _ _
  | nonce a previous => exact hmodify _ _
  | code a previous previousHash => exact hmodify _ _
  | storage a key previous => exact hmodify _ _
  | refund previous => exact h
  | log txHash => exact h.dropLog txHash

theorem NoEmptyLogs.rewind {l : Ledger} (h : l.NoEmptyLogs) (entries : List Undo) :
    (l.rewind entries).NoEmptyLogs := by
  induction entries with
  | nil => exact h
  | cons undo entries ih => exact ih.apply undo

theorem NoEmptyLogs.edit {l : Ledger} (h : l.NoEmptyLogs) (txHash : Hash) (txIndex : UInt32)
    (e : Edit) : (l.edit txHash txIndex e).NoEmptyLogs := by
  cases e with
  | addLog log => exact h.addLog txHash txIndex log
  | _ => exact h

end Ledger

theorem World.Reachable.noEmptyLogs {w : World} (h : w.Reachable) : w.NoEmptyLogs := by
  induction h with
  | empty =>
      intro txHash
      simp
  | place _ a acct ih => exact ih
  | @perform w _ action ih =>
      cases action with
      | edit e =>
          simp only [World.perform]
          rw [World.edit_toLedger]
          exact ih.edit _ _ e
      | snapshot => exact ih
      | revert name =>
          cases hmark : w.journal.marks[name]? with
          | none =>
              have hdead : w.journal.marks.size ≤ name := by simpa using hmark
              simpa only [World.perform, World.revert_of_dead hdead] using ih
          | some mark =>
              simp only [World.perform, World.revert_of_mark hmark]
              exact ih.rewind _
      | finalise => exact ih
      | prepare txHash txIndex =>
          simp only [World.perform, World.prepare]
          split
          · intro other
            simp
          · exact ih

/-! ## Sound worlds are extended by every frame -/

/-- What is done to a sound world leaves it sound, and can be taken back. -/
def World.Steady (w w' : World) : Prop := w.Sound → w'.Sound ∧ World.Follows Eq w w'

namespace World.Steady

theorem refl (w : World) : w.Steady w := fun h ↦ ⟨h, Follows.refl rewindable_eq w⟩

theorem trans {w₁ w₂ w₃ : World} (h : w₁.Steady w₂) (h' : w₂.Steady w₃) : w₁.Steady w₃ := by
  intro hsound
  obtain ⟨hsound₂, hfollows⟩ := h hsound
  obtain ⟨hsound₃, hfollows'⟩ := h' hsound₂
  exact ⟨hsound₃, hfollows.trans rewindable_eq hfollows'⟩

theorem edit (w : World) (e : Edit) (hroom : ∀ log, e = .addLog log → w.HasLogRoom) :
    w.Steady (w.edit e) := by
  intro hsound
  refine ⟨?_, (records_edit hsound e hroom).follows⟩
  rw [edit_toLedger]
  exact hsound.edit _ _ e

theorem snapshot (w : World) : w.Steady w.snapshot.2 :=
  fun h ↦ ⟨h, follows_snapshot (fun _ ↦ rfl) w⟩

theorem revert_eq {w w' : World} (h : w.snapshot.2.Steady w') (hsound : w.Sound) :
    w'.revert w.snapshot.1 = w :=
  revert_snapshot (h hsound).2

theorem transfer (p : TransferPolicy) (w : World) (sender receiver : Address) (amount : Wei) :
    w.Steady (p.apply w sender receiver amount) := by
  cases p with
  | move =>
      have hsub := edit w (.subBalance sender amount) (by simp)
      have hadd := edit (w.subBalance sender amount) (.addBalance receiver amount) (by simp)
      exact hsub.trans hadd
  | keep => exact refl w

theorem creation (s : Setting) (w : World) (caller address : Address) (value : Wei) :
    w.snapshot.2.Steady (creationWorld s w caller address value) := by
  have hcreate := edit w.snapshot.2 (.createAccount address) (by simp)
  have hnonce := edit (w.snapshot.2.createAccount address) (.setNonce address 1) (by simp)
  exact hcreate.trans (hnonce.trans (transfer _ _ _ _ _))

end World.Steady

theorem frameRelation_steady (s : Setting) :
    FrameRelation s (fun w ↦ w.HasLogRoom) (fun _ _ _ ↦ True) (fun _ ↦ World.Steady) where
  refl _ := World.Steady.refl
  trans := World.Steady.trans
  relax := id
  own _ _ := trivial
  ownCode _ := trivial
  store key value _ := World.Steady.edit _ (.setStorage _ key value) (by simp)
  log log hroom := World.Steady.edit _ (.addLog log) fun _ _ ↦ hroom
  refund w gas := World.Steady.edit w (.addRefund gas) (by simp)
  snapshot _ := World.Steady.snapshot
  revert h hsound := by
    rw [h.revert_eq hsound]
    exact World.Steady.refl _ hsound
  materialise _ _ := World.Steady.edit _ (.createAccount _) (by simp)
  transfer _ _ _ _ := World.Steady.transfer _ _ _ _ _
  nonce _ _ := World.Steady.edit _ (.setNonce _ _) (by simp)
  creation _ _ _ := World.Steady.creation _ _ _ _ _
  ownCreation _ _ _ _ := trivial
  deposited code _ hopened hran :=
    hopened.trans (hran.trans (World.Steady.edit _ (.setCode _ code) (by simp)))

/-! ## Frames that fail -/

theorem keepsCreation_error {rules : Rules} {fault : Fault} :
    keepsCreation rules (.error fault) = true ↔
      fault = .codeStoreOutOfGas ∧ rules.homestead = false := by
  cases fault <;> simp [keepsCreation]

/-- The machine on which the initial code of a creation starts: the creator's nonce is counted up,
and the new account is there and has got its value. -/
structure IsCreationStart (s : Setting) (m : Machine) (caller : Address) (value : Wei)
    (start : Machine) : Prop where
  world : start.world =
    creationWorld s (m.world.setNonce caller (m.world.nonce caller + 1)) caller
      (Address.ofCreation caller (m.world.nonce caller)) value
  readOnly : start.readOnly = m.readOnly
  depth : start.depth = m.depth
  cancelled : start.monitor.cancelled = m.monitor.cancelled

section Failures

variable {s : Setting} {exec : Exec} {m : Machine} {fault : Fault}

theorem answer_of_refused {request : Request} (h : (refuse? s m request).isSome = true) :
    (answer s exec request m).2 = m := by
  obtain ⟨outcome, houtcome⟩ := Option.isSome_iff_exists.mp h
  rw [answer_of_refusal houtcome]

theorem failed_call_rolls_back {request : Request}
    (hexec : exec.Keeps (fun _ _ _ ↦ True) fun _ ↦ World.Steady) (hsound : m.world.Sound)
    (hcall : request.isCreate = false)
    (hfault : (answer s exec request m).1.result = .error fault) :
    (answer s exec request m).2.world = m.world := by
  have hconduct := answer_conduct s exec (m := m) request
  generalize answer s exec request m = answered at hconduct hfault ⊢
  obtain ⟨outcome, m'⟩ := answered
  cases hconduct with
  | refused hrefuse => rfl
  | idle hentry hworld hro hdepth => cases hfault
  | called hentry hopen hstart hstartRo hstartDepth hrun hworld hro hdepth =>
      obtain ⟨hran, -⟩ := (frameRelation_steady s).calledRun hexec (.inr trivial) hentry hopen
        hstart hstartRo hrun
      simp only at hfault
      rw [hworld, Run.settle, hfault]
      exact hran.revert_eq hsound
  | spent hentry hnext => cases hcall
  | collided hentry hnext hworld hro hdepth => cases hcall
  | reserved hentry hnext haddress hfree hworld hro hdepth => cases hcall
  | created hentry hnext haddress hfree hstart hstartRo hstartDepth hstartCancelled hrun hdone hgas
      hworld hro hdepth => cases hcall

variable {caller : Address} {initCode : Bytes} {gas : Gas} {value : Wei}

/-- A creator whose nonce is the largest one creates nothing and keeps it. -/
theorem creation_without_nonce (hnonce : m.world.nonce caller = Nonce.largest) :
    (answer s exec (.create caller initCode gas value) m).2 = m := by
  cases hrefuse : refuse? s m (.create caller initCode gas value) with
  | some outcome => exact answer_of_refused (by simp [hrefuse])
  | none =>
      have hnext : (m.world.nonce caller).next? = none := by simp [Nonce.next?, hnonce]
      simp only [answer, hrefuse, enterCreate, hnext]

theorem failed_creation_rolls_back
    (hexec : exec.Keeps (fun _ _ _ ↦ True) fun _ ↦ World.Steady) (hsound : m.world.Sound)
    (hentry : refuse? s m (.create caller initCode gas value) = none)
    (hnonce : m.world.nonce caller ≠ Nonce.largest)
    (hfault : (answer s exec (.create caller initCode gas value) m).1.result = .error fault)
    (hdrop : ¬(fault = .codeStoreOutOfGas ∧ s.rules.homestead = false)) :
    (answer s exec (.create caller initCode gas value) m).2.world =
      m.world.setNonce caller (m.world.nonce caller + 1) := by
  have hconduct := answer_conduct s exec (m := m) (.create caller initCode gas value)
  generalize answer s exec (.create caller initCode gas value) m = answered at hconduct hfault ⊢
  obtain ⟨outcome, m'⟩ := answered
  cases hconduct with
  | refused hrefuse =>
      rw [hentry] at hrefuse
      cases hrefuse
  | called hentry hopen hstart hstartRo hstartDepth hrun hworld hro hdepth => cases hopen
  | spent hentry hnext => simp [Nonce.next?, hnonce] at hnext
  | collided hentry hnext hworld hro hdepth =>
      obtain ⟨-, rfl⟩ := Nonce.next?_eq_some_iff.mp hnext
      exact hworld
  | reserved hentry hnext haddress hfree hworld hro hdepth => cases hfault
  | created hentry hnext haddress hfree hstart hstartRo hstartDepth hstartCancelled hrun hdone hgas
      hworld hro hdepth =>
      obtain ⟨-, rfl⟩ := Nonce.next?_eq_some_iff.mp hnext
      have hrelation := frameRelation_steady s
      have hwrite := mayCreate hentry
      obtain ⟨-, hopened⟩ :=
        hrelation.creationWorld trivial ((admitted hentry).1 _ _ rfl) hnext hfree
      obtain ⟨hran, -⟩ :=
        hrelation.creationRun hexec hfree hopened hstart (hstartRo.trans hwrite) hrun rfl hdone
      have hnonceSound : (m.world.setNonce caller (m.world.nonce caller + 1)).Sound :=
        (World.Steady.edit m.world (.setNonce caller _) (by simp) hsound).1
      simp only at hfault
      rw [hworld, hfault, if_neg (by rwa [keepsCreation_error])]
      exact hran.revert_eq hnonceSound

/-- Before homestead, a creation that cannot pay for its code stays as its initial code left it. -/
theorem unpaid_creation_stays
    (hentry : refuse? s m (.create caller initCode gas value) = none)
    (hnonce : m.world.nonce caller ≠ Nonce.largest)
    (hfault : (answer s exec (.create caller initCode gas value) m).1.result =
      .error .codeStoreOutOfGas) (hold : s.rules.homestead = false) :
    ∃ start, IsCreationStart s m caller value start ∧
      (answer s exec (.create caller initCode gas value) m).2.world =
        (runFrame s exec (creationFrame caller (Address.ofCreation caller (m.world.nonce caller))
          initCode gas value) [] start).machine.world := by
  have hconduct := answer_conduct s exec (m := m) (.create caller initCode gas value)
  generalize answer s exec (.create caller initCode gas value) m = answered at hconduct hfault ⊢
  obtain ⟨outcome, m'⟩ := answered
  cases hconduct with
  | refused hrefuse =>
      rw [hentry] at hrefuse
      cases hrefuse
  | called hentry hopen hstart hstartRo hstartDepth hrun hworld hro hdepth => cases hopen
  | spent hentry hnext => simp [Nonce.next?, hnonce] at hnext
  | collided hentry hnext hworld hro hdepth => cases hfault
  | reserved hentry hnext haddress hfree hworld hro hdepth => cases hfault
  | created hentry hnext haddress hfree hstart hstartRo hstartDepth hstartCancelled hrun hdone hgas
      hworld hro hdepth =>
      obtain ⟨-, rfl⟩ := Nonce.next?_eq_some_iff.mp hnext
      subst haddress
      refine ⟨_, ⟨hstart, hstartRo, hstartDepth, hstartCancelled⟩, ?_⟩
      simp only at hfault
      rw [hworld, hfault, if_pos (keepsCreation_error.mpr ⟨rfl, hold⟩), ← hrun]
      rcases deposit_cases s _ _ with ⟨fault, hkeep⟩ | ⟨code, f, -, -, -, hstore⟩
      · rw [hdone, hkeep]
      · rw [hdone, hstore] at hfault
        cases hfault

end Failures

/-- A frame that fails leaves the ledger as it was, whatever was done in it and in the frames nested
in it.  Of a creation that got as far as an address, the creator's nonce stays counted up; and if it
fails for want of gas to store its code while the homestead rules are not in force, everything that
its initial code did stays. -/
theorem failed_frame_leaves_no_trace {s : Setting} {table : ExtTreeMap Bytes (List Op)}
    (hs : s.env.interpreter = .script table) {m : Machine} (hreach : m.world.Reachable)
    (hslots : m.world.NoZeroSlots) {request : Request} (hlogs : LogCounterFits s table request m)
    {fault : Fault} (hfault : (dispatch s request m).1.result = .error fault) :
    (request.isCreate = false → (dispatch s request m).2.world.toLedger = m.world.toLedger) ∧
    ∀ caller initCode gas value, request = .create caller initCode gas value →
      ((refuse? s m request).isSome = true ∨ m.world.nonce caller = Nonce.largest →
        (dispatch s request m).2.world.toLedger = m.world.toLedger) ∧
      (refuse? s m request = none → m.world.nonce caller ≠ Nonce.largest →
        (¬(fault = .codeStoreOutOfGas ∧ s.rules.homestead = false) →
          (dispatch s request m).2.world.toLedger =
            m.world.toLedger.setNonce caller (m.world.nonce caller + 1)) ∧
        (fault = .codeStoreOutOfGas → s.rules.homestead = false →
          ∃ start, IsCreationStart s m caller value start ∧
            (dispatch s request m).2.world =
              (runFrame s
                (codeRunner s (scriptEngine table) (s.env.limits.maxCallDepth + 1 - m.depth))
                (creationFrame caller (Address.ofCreation caller (m.world.nonce caller)) initCode
                  gas value) [] start).machine.world)) := by
  have hsound : m.world.Sound := ⟨hslots, hreach.noEmptyLogs⟩
  have hplain : dispatch s request m = answer s
      (codeRunner s (scriptEngine table) (s.env.limits.maxCallDepth + 1 - m.depth)) request m := by
    rw [dispatch_eq_script hs, dispatchWith, dispatchWithin_eq_answer]
  -- The checked engine gives the same answer, and none of its logs turns the counter over.
  have hchecked : dispatch s request m = answer s
      (codeRunner s (checkedEngine table) (s.env.limits.maxCallDepth + 1 - m.depth)) request m := by
    rw [hlogs.dispatch_eq hs, dispatchWith, dispatchWithin_eq_answer]
  have hexec := (frameRelation_steady s).codeRunner (checkedEngine_isEffectful table)
    (s.env.limits.maxCallDepth + 1 - m.depth)
  refine ⟨?_, ?_⟩
  · intro hcall
    rw [hchecked] at hfault ⊢
    rw [failed_call_rolls_back hexec hsound hcall hfault]
  · rintro caller initCode gas value rfl
    refine ⟨?_, ?_⟩
    · rintro (hrefuse | hnonce)
      · rw [hplain, answer_of_refused hrefuse]
      · rw [hplain, creation_without_nonce hnonce]
    · intro hentry hnonce
      refine ⟨?_, ?_⟩
      · intro hdrop
        rw [hchecked] at hfault ⊢
        rw [failed_creation_rolls_back hexec hsound hentry hnonce hfault hdrop,
          World.setNonce_toLedger]
      · rintro rfl hold
        rw [hplain] at hfault ⊢
        exact unpaid_creation_stays hentry hnonce hfault hold

/-- Account 17 clears a slot, logs, pays a stranger, pays account 18, which writes and logs, and
borrows the code of account 19, which fails, before it gives up. -/
def entangledTable : ExtTreeMap Bytes (List Op) :=
  (((∅ : ExtTreeMap Bytes (List Op)).insert [1]
    [.store 1 0, .log [3] [4], .refund 9, .call .call 5 900 1, .call .call 18 900 1,
      .call .delegateCall 19 900 0, .revert [7]]).insert [2]
    [.store 5 6, .log [] [1], .output [8]]).insert [3] [.store 1 8, .log [] [], .fail]

def entangledSetting : Setting := scriptSetting entangledTable

def entangledMachine : Machine where
  world :=
    ((({} : World).placeAccount 19 { code := [3] }).placeAccount 18 { code := [2] }).placeAccount 17
      { balance := 5, code := [1], storage := Storage.write ∅ 1 7 }

theorem entangled_call_leaves_no_trace :
    (dispatch entangledSetting (.call 17 17 [] 200000 0) entangledMachine).1.result =
        .error (.reverted [7]) ∧
      (dispatch entangledSetting (.call 17 17 [] 200000 0) entangledMachine).2.world.toLedger =
        entangledMachine.world.toLedger := by
  have hreach : entangledMachine.world.Reachable :=
    ((World.Reachable.empty.place _ _).place _ _).place _ _
  have hslots : entangledMachine.world.NoZeroSlots :=
    ((Ledger.noZeroSlots_empty.setAccount 19 Storage.noZero_empty).setAccount 18
      Storage.noZero_empty).setAccount 17 (Storage.noZero_empty.write 1 7)
  have hlogs : LogCounterFits entangledSetting entangledTable (.call 17 17 [] 200000 0)
      entangledMachine := by
    decide +kernel
  have hfault : (dispatch entangledSetting (.call 17 17 [] 200000 0) entangledMachine).1.result =
      .error (.reverted [7]) := Outcome.result_eq_error_iff.mpr (by decide +kernel)
  exact ⟨hfault, (failed_frame_leaves_no_trace rfl hreach hslots hlogs hfault).1 rfl⟩

end MeteredLedger
