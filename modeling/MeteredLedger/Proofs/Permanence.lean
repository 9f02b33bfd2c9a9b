import MeteredLedger.Proofs.FrameRelation
import MeteredLedger.Proofs.TransactionConduct

/-!
# What no frame takes away

Nonces only go up, and an address that is taken keeps its account and its code.  The two hold each
other up.  A creation starts an account afresh, nonce and all, but only at an address that is free;
an address with code is never free, and one that has ever counted up its nonce is not free again as
long as no nonce goes down.  Going back to a snapshot restores every nonce and all code, so it loses
nothing that was there at the snapshot.
-/

namespace MeteredLedger

open Std

namespace World

variable {w w' w₁ w₂ w₃ : World} {a : Address}

/-! ## Taken addresses -/

theorem isTaken_iff : w.isTaken a = true ↔
    w.nonce a ≠ 0 ∨ w.codeHash a ≠ 0 ∧ w.codeHash a ≠ emptyCodeHash := by
  simp [isTaken]

theorem nonce_of_free (h : w.isTaken a = false) : w.nonce a = 0 := by
  by_contra hnonce
  rw [isTaken_iff.mpr (.inl hnonce)] at h
  cases h

theorem exists_account_of_taken (h : w.isTaken a = true) :
    ∃ acct, w.accounts[a]? = some acct := by
  cases hget : w.accounts[a]? with
  | some acct => exact ⟨acct, rfl⟩
  | none => simp [isTaken, nonce, codeHash, account?, hget] at h

/-- At a taken address the digest of the code is read off the account. -/
theorem codeHash_of_taken (h : w.isTaken a = true) :
    w.codeHash a = (w.toLedger.accountAt a).codeHash := by
  obtain ⟨acct, hget⟩ := exists_account_of_taken h
  rw [Ledger.accountAt_of_present hget]
  simp [codeHash, account?, hget]

/-! ## Growing worlds -/

/-- The second world has an account at the address, with the code that the first one has there. -/
structure KeepsCode (w w' : World) (a : Address) : Prop where
  present : w'.hasAccount a = true
  code : w'.code a = w.code a
  codeHash : w'.codeHash a = w.codeHash a

/-- No nonce goes down, and what stands at a taken address stays. -/
structure Grows (w w' : World) : Prop where
  nonce_le : ∀ a, w.nonce a ≤ w'.nonce a
  kept : ∀ a, w.isTaken a = true → w.KeepsCode w' a

theorem Grows.taken (h : w.Grows w') (ha : w.isTaken a = true) : w'.isTaken a = true := by
  rw [isTaken_iff] at ha ⊢
  rcases ha with hnonce | hcode
  · left
    intro hzero
    have hle := h.nonce_le a
    rw [hzero] at hle
    exact hnonce (UInt64.le_zero_iff.mp hle)
  · right
    rw [(h.kept a (isTaken_iff.mpr (.inr hcode))).codeHash]
    exact hcode

theorem Grows.trans (h : w₁.Grows w₂) (h' : w₂.Grows w₃) : w₁.Grows w₃ where
  nonce_le a := UInt64.le_trans (h.nonce_le a) (h'.nonce_le a)
  kept a ha := by
    have hfirst := h.kept a ha
    have hsecond := h'.kept a (h.taken ha)
    exact ⟨hsecond.present, hsecond.code.trans hfirst.code,
      hsecond.codeHash.trans hfirst.codeHash⟩

theorem grows_of_readAlike (h : w'.toLedger.ReadAlike w.toLedger) : w.Grows w' := by
  refine ⟨?_, ?_⟩
  · intro b
    have hview := h b
    unfold nonce account?
    cases hget : w.accounts[b]? <;> cases hget' : w'.accounts[b]? <;> simp_all [Account.view]
  · intro b hb
    have hview := h b
    obtain ⟨acct, hget⟩ := exists_account_of_taken hb
    cases hget' : w'.accounts[b]? with
    | none => simp [hget, hget'] at hview
    | some acct' =>
        simp only [hget, hget', Option.map_some, Option.some.injEq, Account.view,
          Account.View.mk.injEq] at hview
        obtain ⟨-, -, hcode, hhash, -⟩ := hview
        refine ⟨?_, ?_, ?_⟩
        · simp [hasAccount, account?, hget']
        · simp [World.code, account?, hget, hget', hcode]
        · simp [World.codeHash, account?, hget, hget', hhash]

theorem grows_of_accounts (h : w'.accounts = w.accounts) : w.Grows w' := by
  apply grows_of_readAlike
  intro b
  rw [h]

theorem Grows.refl (w : World) : w.Grows w := grows_of_accounts rfl

/-- An account may be placed if its nonce is no lower than at the start, and if it has the code that
was there at the start unless the address was free. -/
theorem Grows.setAccount {acct : Account} (h : w₁.Grows w₂)
    (hplace : w₃.toLedger = w₂.toLedger.setAccount a acct) (hnonce : w₁.nonce a ≤ acct.nonce)
    (hcode : w₁.isTaken a = true → acct.code = w₁.code a ∧ acct.codeHash = w₁.codeHash a) :
    w₁.Grows w₃ := by
  have hget : ∀ b, w₃.accounts[b]? = if a = b then some acct else w₂.accounts[b]? := by
    intro b
    rw [hplace, Ledger.setAccount_accounts]
  refine ⟨?_, ?_⟩
  · intro b
    by_cases hab : a = b
    · subst hab
      simpa [nonce, account?, hget] using hnonce
    · have hother := h.nonce_le b
      simpa [nonce, account?, hget, hab] using hother
  · intro b hb
    by_cases hab : a = b
    · subst hab
      obtain ⟨hsame, hsameHash⟩ := hcode hb
      refine ⟨?_, ?_, ?_⟩
      · simp [hasAccount, account?, hget]
      · simpa [World.code, account?, hget] using hsame
      · simpa [World.codeHash, account?, hget] using hsameHash
    · obtain ⟨hpresent, hsame, hsameHash⟩ := h.kept b hb
      refine ⟨?_, ?_, ?_⟩
      · simpa [hasAccount, account?, hget, hab] using hpresent
      · simpa [World.code, account?, hget, hab] using hsame
      · simpa [World.codeHash, account?, hget, hab] using hsameHash

/-- A change of an account that leaves its code alone and does not lower its nonce. -/
theorem grows_of_update {f : Account → Account} (h : w'.toLedger = w.toLedger.update a f)
    (hnonce : w.nonce a ≤ (f (w.toLedger.accountAt a)).nonce)
    (hcode : (f (w.toLedger.accountAt a)).code = (w.toLedger.accountAt a).code)
    (hhash : (f (w.toLedger.accountAt a)).codeHash = (w.toLedger.accountAt a).codeHash) :
    w.Grows w' := by
  apply (Grows.refl w).setAccount h hnonce
  intro ha
  rw [code_eq, codeHash_of_taken ha]
  exact ⟨hcode, hhash⟩

theorem grows_setBalance (w : World) (a : Address) (balance : Wei) :
    w.Grows (w.setBalance a balance) := by
  apply grows_of_update (setBalance_toLedger w a balance) _ rfl rfl
  rw [nonce_eq]
  exact UInt64.le_refl _

theorem grows_setStorage (w : World) (a : Address) (key value : Word) :
    w.Grows (w.setStorage a key value) := by
  apply grows_of_update (setStorage_toLedger w a key value) _ rfl rfl
  rw [nonce_eq]
  exact UInt64.le_refl _

theorem grows_setNonce {nonce : Nonce} (h : w.nonce a ≤ nonce) : w.Grows (w.setNonce a nonce) :=
  grows_of_update (setNonce_toLedger w a nonce) h rfl rfl

theorem grows_createAccount (h : w.isTaken a = false) : w.Grows (w.createAccount a) := by
  apply (Grows.refl w).setAccount (createAccount_toLedger w a)
  · rw [nonce_of_free h]
    exact UInt64.le_refl _
  · intro ha
    rw [h] at ha
    cases ha

/-- Code may be stored at an address that was free at the start. -/
theorem Grows.setCode (h : w.Grows w') (hfree : w.isTaken a = false) (code : Bytes) :
    w.Grows (w'.setCode a code) := by
  apply h.setAccount (setCode_toLedger w' a code)
  · rw [nonce_of_free hfree]
    exact UInt64.zero_le
  · intro ha
    rw [hfree] at ha
    cases ha

theorem grows_transfer (p : TransferPolicy) (w : World) (sender receiver : Address) (amount : Wei) :
    w.Grows (p.apply w sender receiver amount) := by
  cases p with
  | move => exact (grows_setBalance w sender _).trans (grows_setBalance _ receiver _)
  | keep => exact Grows.refl w

/-- A change that can be taken back, as far as reading can tell, and loses nothing. -/
structure Advances (w w' : World) : Prop where
  follows : Follows Ledger.ReadAlike w w'
  grows : w.Grows w'

namespace Advances

open Ledger (rewindable_readAlike)

theorem refl (w : World) : w.Advances w := ⟨Follows.refl rewindable_readAlike w, Grows.refl w⟩

theorem trans (h : w₁.Advances w₂) (h' : w₂.Advances w₃) : w₁.Advances w₃ :=
  ⟨h.follows.trans rewindable_readAlike h'.follows, h.grows.trans h'.grows⟩

theorem ofRecords (h : Records Eq w w') (hgrows : w.Grows w') : w.Advances w' :=
  ⟨(h.mono rewindable_readAlike.refl).follows, hgrows⟩

theorem snapshot (w : World) : w.Advances w.snapshot.2 :=
  ⟨follows_snapshot rewindable_readAlike.refl w, grows_of_accounts rfl⟩

theorem revert (h : w.snapshot.2.Advances w') : w.Advances (w'.revert w.snapshot.1) := by
  have hback := extends_revert h.follows
  exact ⟨⟨[], [], hback⟩, grows_of_readAlike hback.rewind⟩

theorem setNonce {next : Nonce} (h : (w.nonce a).next? = some next) :
    w.Advances (w.setNonce a next) :=
  ofRecords (records_setNonce w a next) (grows_setNonce (UInt64.le_of_lt (Nonce.lt_of_next? h)))

theorem createAccount (h : w.isTaken a = false) : w.Advances (w.createAccount a) :=
  ofRecords (records_createAccount w a) (grows_createAccount h)

theorem setStorage (w : World) (a : Address) (key value : Word) :
    w.Advances (w.setStorage a key value) :=
  ⟨(records_setStorage_readAlike w a key value).follows, grows_setStorage w a key value⟩

theorem addLog (w : World) (log : Log) : w.Advances (w.addLog log) :=
  ⟨(records_addLog_readAlike w log).follows, grows_of_accounts rfl⟩

theorem addRefund (w : World) (gas : Gas) : w.Advances (w.addRefund gas) :=
  ofRecords (records_setRefund w _) (grows_of_accounts rfl)

/-- Code may be stored at an address that was free at the start. -/
theorem setCode (h : w.Advances w') (hfree : w.isTaken a = false) (code : Bytes) :
    w.Advances (w'.setCode a code) := by
  have hstored := (records_setCode w' a code).mono rewindable_readAlike.refl
  exact ⟨h.follows.trans rewindable_readAlike hstored.follows, h.grows.setCode hfree code⟩

theorem transfer (p : TransferPolicy) (w : World) (sender receiver : Address) (amount : Wei) :
    w.Advances (p.apply w sender receiver amount) := by
  have hgrows := grows_transfer p w sender receiver amount
  cases p with
  | move => exact ofRecords (records_transfer w sender receiver amount) hgrows
  | keep => exact refl w

theorem creation (s : Setting) {caller address : Address} {value : Wei}
    (hfree : w.isTaken address = false) :
    w.snapshot.2.Advances (creationWorld s w caller address value) := by
  have hcreate : w.snapshot.2.Advances (w.snapshot.2.createAccount address) := createAccount hfree
  -- The nonce of the fresh account is zero, so that one is the next.
  have hzero : (w.snapshot.2.createAccount address).nonce address = 0 := by
    rw [nonce_eq, createAccount_toLedger, Ledger.createAccount, Ledger.accountAt_setAccount,
      if_pos rfl]
  have hnonce : (w.snapshot.2.createAccount address).Advances
      ((w.snapshot.2.createAccount address).setNonce address 1) := by
    apply setNonce
    rw [hzero]
    rfl
  exact hcreate.trans (hnonce.trans (transfer _ _ _ _ _))

end Advances

end World

/-! ## Frames -/

theorem World.isTaken_of_missing {w : World} {a : Address} (h : w.hasAccount a = false) :
    w.isTaken a = false := by
  rw [Bool.eq_false_iff]
  intro ha
  obtain ⟨acct, hget⟩ := exists_account_of_taken ha
  rw [hasAccount_iff.mpr ⟨acct, hget⟩] at h
  cases h

theorem frameRelation_advances (s : Setting) :
    FrameRelation s (fun _ ↦ True) (fun _ _ _ ↦ True) (fun _ ↦ World.Advances) where
  refl _ := World.Advances.refl
  trans := World.Advances.trans
  relax := id
  own _ _ := trivial
  ownCode _ := trivial
  store key value _ := World.Advances.setStorage _ _ key value
  log log _ := World.Advances.addLog _ log
  refund := World.Advances.addRefund
  snapshot _ := World.Advances.snapshot
  revert := World.Advances.revert
  materialise hmissing _ := World.Advances.createAccount (World.isTaken_of_missing hmissing)
  transfer _ _ _ _ := World.Advances.transfer _ _ _ _ _
  nonce _ hnext := World.Advances.setNonce hnext
  creation _ hfree _ := World.Advances.creation s hfree
  ownCreation _ _ _ _ := trivial
  deposited code hfree hopened hran := (hopened.trans hran).setCode hfree code

theorem dispatch_advances {s : Setting} {table : ExtTreeMap Bytes (List Op)}
    (hs : s.env.interpreter = .script table) (request : Request) (m : Machine) :
    m.world.Advances (dispatch s request m).2.world := by
  rw [dispatch_eq_script hs]
  have hkept := (frameRelation_advances s).dispatchWith (scriptEngine_isEffectful table) request m
    (.inr trivial)
  exact hkept.world

/-- A creation that is let through counts the creator's nonce up for good. -/
theorem dispatch_create_advances {s : Setting} {table : ExtTreeMap Bytes (List Op)}
    (hs : s.env.interpreter = .script table) {m : Machine} {caller : Address} {initCode : Bytes}
    {gas : Gas} {value : Wei} {next : Nonce}
    (hentry : refuse? s m (.create caller initCode gas value) = none)
    (hnext : (m.world.nonce caller).next? = some next) :
    (m.world.setNonce caller next).Advances
      (dispatch s (.create caller initCode gas value) m).2.world := by
  have hrelation := frameRelation_advances s
  rw [dispatch_eq_script hs, dispatchWith, dispatchWithin_eq_answer]
  obtain ⟨-, hrest, -⟩ := hrelation.counted
    (hrelation.codeRunner (scriptEngine_isEffectful table) _) trivial hentry hnext
    (answer_conduct s _ _)
  exact hrest

/-! ## Messages and transactions -/

theorem Message.Runs.grows {env : Env} {context : Context} {table : ExtTreeMap Bytes (List Op)}
    (hs : env.interpreter = .script table) {msg : Message} {t : Session} {pool : GasPool}
    {outcome : Outcome} {m : Machine} (h : msg.Runs env context t pool outcome m) :
    t.world.Grows m.world := by
  cases h with
  | @intro cost _ intrinsic request w _ _ haccept hintrinsic hcovered hstart hdispatch =>
      have hpaid := World.grows_setBalance t.world msg.sender
        (Wei.subClamped (t.world.balance msg.sender) cost)
      have hframe := (dispatch_advances (s := ⟨env, context⟩) hs request
        { world := w, monitor := t.monitor }).grows
      rw [hdispatch] at hframe
      rcases Message.start_cases hstart with ⟨-, -, rfl⟩ | ⟨target, next, -, -, hnext, rfl⟩
      · exact hpaid.trans hframe
      · exact hpaid.trans ((World.Advances.setNonce hnext).grows.trans hframe)

theorem Message.settledWorld_grows (msg : Message) (coinbase : Address) (outcome : Outcome)
    (w : World) : w.Grows (msg.settledWorld coinbase outcome w) :=
  (World.grows_setBalance w msg.sender _).trans (World.grows_setBalance _ coinbase _)

theorem applyTransaction_grows {venue : Venue} {table : ExtTreeMap Bytes (List Op)}
    (hs : venue.env.interpreter = .script table) (header : Header) (tx : Transaction)
    (t : Session) :
    t.world.Grows (applyTransaction venue header tx t).2.world := by
  have hconduct := applyTransaction_conduct venue header tx t
  generalize applyTransaction venue header tx t = applied at hconduct ⊢
  cases hconduct with
  | unsigned hmsg => exact World.Grows.refl _
  | rejected hmsg happlied =>
      obtain ⟨hrecords, -⟩ := applyMessage_eq_error hs happlied
      simp only [World.revert_snapshot hrecords.follows]
      exact World.Grows.refl _
  | applied hmsg happlied =>
      obtain ⟨pool, outcome, m, hruns, -, -, -, hworld⟩ := applyMessage_eq_ok happlied
      have hsnapshot := (World.Advances.snapshot t.world).grows
      have hsettled := hworld ▸ Message.settledWorld_grows _ _ outcome m.world
      have hall := hsnapshot.trans ((hruns.grows hs).trans hsettled)
      exact hall.trans (World.grows_of_accounts rfl)

end MeteredLedger
