import MeteredLedger.Proofs.DeployedCode
import MeteredLedger.Proofs.SignedTransaction

/-!
# Accounts without code keep their storage

Only code that works on an account writes its storage, and code works on an account in three ways: as
the account's own code, as code that a frame of the account borrows, or as the initial code of the
account.  An account that has sent a transaction and has no code is out of reach of all three: it has
nothing to run, so no frame of it can borrow, and its address is taken.  So the induction over the
nesting of frames goes through for frames that work on another account, from worlds in which the
account is of that kind; and it stays of that kind.
-/

namespace MeteredLedger

open Std

/-! ## Ledgers -/

/-- Two ledgers that store the same at an address. -/
def Ledger.StoresAlike (a : Address) (l₁ l₂ : Ledger) : Prop :=
  l₁.accounts[a]?.map Account.storage = l₂.accounts[a]?.map Account.storage

namespace Ledger

variable {a b : Address} {l l₁ l₂ : Ledger}

theorem StoresAlike.modifyAccount (h : StoresAlike a l₁ l₂) (b : Address) {f : Account → Account}
    (g : Storage → Storage) (hf : ∀ acct, (f acct).storage = g acct.storage) :
    StoresAlike a (l₁.modifyAccount b f) (l₂.modifyAccount b f) := by
  have hmap : ∀ x : Option Account, (x.map f).map Account.storage = (x.map Account.storage).map g := by
    intro x
    cases x <;> simp [hf]
  unfold StoresAlike
  rw [modifyAccount_accounts, modifyAccount_accounts]
  split
  · rw [hmap, hmap, h]
  · exact h

theorem rewindable_storesAlike (a : Address) : Rewindable (StoresAlike a) where
  refl _ := rfl
  trans := Eq.trans
  apply undo l₁ l₂ h := by
    cases undo with
    | account b previous =>
        unfold StoresAlike at h ⊢
        cases previous <;> simp only [Undo.apply, ExtTreeMap.getElem?_erase,
          ExtTreeMap.getElem?_insert] <;> split <;> simp [h]
    | balance b previous => exact h.modifyAccount b id fun _ ↦ rfl
    | nonce b previous => exact h.modifyAccount b id fun _ ↦ rfl
    | code b previous previousHash => exact h.modifyAccount b id fun _ ↦ rfl
    | storage b key previous => exact h.modifyAccount b (·.write key previous) fun _ ↦ rfl
    | refund previous => exact h
    | log txHash => exact h

theorem storesAlike_setAccount (hb : b ≠ a) (acct : Account) :
    StoresAlike a (l.setAccount b acct) l := by
  rw [StoresAlike, setAccount_accounts, if_neg hb]

/-- A change of an account that leaves its storage alone. -/
theorem storesAlike_update (ha : ∃ acct, l.accounts[a]? = some acct) {f : Account → Account}
    (hf : ∀ acct, (f acct).storage = acct.storage) : StoresAlike a (l.update b f) l := by
  obtain ⟨acct, hget⟩ := ha
  by_cases hb : b = a
  · subst hb
    rw [StoresAlike, update, setAccount_accounts, if_pos rfl, accountAt_of_present hget, hget]
    simp [hf]
  · exact storesAlike_setAccount hb _

end Ledger

/-! ## Worlds -/

namespace World

variable {w w' w₁ w₂ w₃ : World} {a b : Address}

/-- The account has sent a transaction or was created, and has no code. -/
structure Codeless (w : World) (a : Address) : Prop where
  nonce : w.nonce a ≠ 0
  code : w.code a = []

namespace Codeless

theorem taken (h : w.Codeless a) : w.isTaken a = true := isTaken_iff.mpr (.inl h.nonce)

theorem present (h : w.Codeless a) : ∃ acct, w.accounts[a]? = some acct :=
  exists_account_of_taken h.taken

theorem ne_of_free (h : w.Codeless a) (hfree : w.isTaken b = false) : b ≠ a := by
  rintro rfl
  rw [h.taken] at hfree
  cases hfree

theorem ne_of_code (h : w.Codeless a) (hcode : w.code b ≠ []) : b ≠ a := by
  rintro rfl
  exact hcode h.code

theorem grows (h : w.Codeless a) (hgrows : w.Grows w') : w'.Codeless a where
  nonce hzero := by
    have hle := hgrows.nonce_le a
    rw [hzero] at hle
    exact h.nonce (UInt64.le_zero_iff.mp hle)
  code := (hgrows.kept a h.taken).code.trans h.code

end Codeless

/-- A change that can be taken back and loses nothing, and neither it nor taking it back touches the
storage of the account. -/
structure Spares (a : Address) (w w' : World) : Prop where
  advances : w.Advances w'
  follows : Follows (Ledger.StoresAlike a) w w'
  storage : Ledger.StoresAlike a w'.toLedger w.toLedger

theorem Codeless.spared (h : w.Codeless a) (hspares : Spares a w w') : w'.Codeless a :=
  h.grows hspares.advances.grows

namespace Spares

open Ledger (rewindable_storesAlike)

theorem refl (a : Address) (w : World) : Spares a w w :=
  ⟨Advances.refl w, Follows.refl (rewindable_storesAlike a) w, rfl⟩

theorem trans (h : Spares a w₁ w₂) (h' : Spares a w₂ w₃) : Spares a w₁ w₃ :=
  ⟨h.advances.trans h'.advances, h.follows.trans (rewindable_storesAlike a) h'.follows,
    h'.storage.trans h.storage⟩

theorem ofRecords (h : Records Eq w w') (hgrows : w.Grows w')
    (hstorage : Ledger.StoresAlike a w'.toLedger w.toLedger) : Spares a w w' :=
  ⟨.ofRecords h hgrows, (h.mono (rewindable_storesAlike a).refl).follows, hstorage⟩

theorem snapshot (a : Address) (w : World) : Spares a w w.snapshot.2 :=
  ⟨.snapshot w, follows_snapshot (rewindable_storesAlike a).refl w, rfl⟩

theorem revert (h : Spares a w.snapshot.2 w') : Spares a w (w'.revert w.snapshot.1) := by
  have hback := extends_revert h.follows
  exact ⟨h.advances.revert, ⟨[], [], hback⟩, hback.rewind⟩

theorem setBalance (ha : w.Codeless a) (b : Address) (balance : Wei) :
    Spares a w (w.setBalance b balance) := by
  apply ofRecords (records_setBalance w b balance) (grows_setBalance w b balance)
  rw [setBalance_toLedger]
  exact Ledger.storesAlike_update ha.present fun _ ↦ rfl

theorem setNonce (ha : w.Codeless a) {next : Nonce} (hnext : (w.nonce b).next? = some next) :
    Spares a w (w.setNonce b next) := by
  apply ofRecords (records_setNonce w b next) (Advances.setNonce hnext).grows
  rw [setNonce_toLedger]
  exact Ledger.storesAlike_update ha.present fun _ ↦ rfl

theorem setStorage (hb : b ≠ a) (w : World) (key value : Word) :
    Spares a w (w.setStorage b key value) := by
  have hrecords : Records (Ledger.StoresAlike a) w (w.setStorage b key value) := by
    apply records_change (rewindable_storesAlike a)
    intro l
    simp only [Undo.apply, Ledger.modifyAccount_setAccount]
    exact (Ledger.storesAlike_setAccount hb _).trans (Ledger.storesAlike_setAccount hb _).symm
  refine ⟨.setStorage w b key value, hrecords.follows, ?_⟩
  rw [setStorage_toLedger]
  exact Ledger.storesAlike_setAccount hb _

theorem addLog (a : Address) (w : World) (log : Log) : Spares a w (w.addLog log) := by
  have hrecords : Records (Ledger.StoresAlike a) w (w.addLog log) :=
    ⟨[.log w.txHash], by simp [World.addLog, record, Journal.record_entries],
      by simp [World.addLog, record, Journal.record_marks], rfl, rfl, rfl⟩
  exact ⟨.addLog w log, hrecords.follows, rfl⟩

theorem addRefund (a : Address) (w : World) (gas : Gas) : Spares a w (w.addRefund gas) :=
  ofRecords (records_setRefund w _) (grows_of_accounts rfl) rfl

theorem createAccount (ha : w.Codeless a) (hfree : w.isTaken b = false) :
    Spares a w (w.createAccount b) := by
  apply ofRecords (records_createAccount w b) (grows_createAccount hfree)
  rw [createAccount_toLedger]
  exact Ledger.storesAlike_setAccount (ha.ne_of_free hfree) _

/-- Code may be stored at an address that was free at the start. -/
theorem setCode (h : Spares a w w') (ha : w.Codeless a) (hfree : w.isTaken b = false)
    (code : Bytes) : Spares a w (w'.setCode b code) := by
  have hstored := (records_setCode w' b code).mono (rewindable_storesAlike a).refl
  refine ⟨h.advances.setCode hfree code,
    h.follows.trans (rewindable_storesAlike a) hstored.follows, ?_⟩
  rw [setCode_toLedger]
  exact (Ledger.storesAlike_setAccount (ha.ne_of_free hfree) _).trans h.storage

theorem transfer (ha : w.Codeless a) (p : TransferPolicy) (sender receiver : Address)
    (amount : Wei) : Spares a w (p.apply w sender receiver amount) := by
  cases p with
  | move =>
      have htaken := setBalance ha sender (Wei.subClamped (w.balance sender) amount)
      exact htaken.trans (setBalance (ha.spared htaken) receiver _)
  | keep => exact refl a w

theorem callWorld (ha : w.Codeless a) (s : Setting) (caller target : Address) (value : Wei) :
    Spares a w.snapshot.2 (callWorld s w caller target value) := by
  have hthere := ha.spared (snapshot a w)
  unfold MeteredLedger.callWorld
  split
  · exact transfer hthere _ _ _ _
  · rename_i hmissing
    have hfree : w.snapshot.2.isTaken target = false :=
      isTaken_of_missing (Bool.eq_false_iff.mpr hmissing)
    have hplace := createAccount hthere hfree
    exact hplace.trans (transfer (hthere.spared hplace) _ _ _ _)

theorem creationWorld (ha : w.Codeless a) (s : Setting) (caller : Address) {address : Address}
    (value : Wei) (hfree : w.isTaken address = false) :
    Spares a w.snapshot.2 (creationWorld s w caller address value) := by
  have hthere := ha.spared (snapshot a w)
  have hcreate : Spares a w.snapshot.2 (w.snapshot.2.createAccount address) :=
    createAccount hthere hfree
  have hzero : (w.snapshot.2.createAccount address).nonce address = 0 := by
    rw [nonce_eq, createAccount_toLedger, Ledger.createAccount, Ledger.accountAt_setAccount,
      if_pos rfl]
  have hnonce : Spares a (w.snapshot.2.createAccount address)
      ((w.snapshot.2.createAccount address).setNonce address 1) := by
    apply setNonce (hthere.spared hcreate)
    rw [hzero]
    rfl
  have hboth := hcreate.trans hnonce
  exact hboth.trans (transfer (hthere.spared hboth) _ _ _ _)

end Spares

end World

/-! ## Frames -/

/-- The frame asked for does not work on the account with code that the account borrows. -/
def Request.Avoids (a : Address) : Request → Prop
  | callCode caller _ _ _ _ => caller ≠ a
  | delegateCall parent _ _ _ => parent.address ≠ a
  | _ => True

def Exec.Spares (a : Address) (exec : Exec) : Prop :=
  ∀ f input m, m.world.Codeless a → f.address ≠ a →
    World.Spares a m.world (exec f input m).machine.world

def Dispatcher.Spares (a : Address) (d : Dispatcher) : Prop :=
  ∀ request m, m.world.Codeless a → request.Avoids a → World.Spares a m.world (d request m).2.world

section Frames

variable {s : Setting} {room : World → Prop} {a : Address} {nested : Dispatcher} {exec : Exec}

theorem Request.avoids_of_caller {request : Request} (h : request.caller ≠ a) :
    request.Avoids a := by
  cases request <;> first | exact h | trivial

theorem Effect.spares (hnested : nested.Spares a) {f f' : Frame} {m m' : Machine}
    (h : Effect room nested f m f' m') (ha : m.world.Codeless a) (hf : f.address ≠ a) :
    World.Spares a m.world m'.world ∧ f'.address = f.address := by
  cases h with
  | pay gas hgas => exact ⟨.refl a _, rfl⟩
  | store key value hwrite => exact ⟨.setStorage hf _ key value, rfl⟩
  | log log hwrite hroom => exact ⟨.addLog a _ log, rfl⟩
  | refund gas hwrite => exact ⟨.addRefund a _ gas, rfl⟩
  | halt => exact ⟨.refl a _, rfl⟩
  | nest request hgas hcaller =>
      rw [← hcaller] at hf
      exact ⟨hnested request m ha (Request.avoids_of_caller hf), rfl⟩

theorem Effects.spares (hnested : nested.Spares a) {f : Frame} {m : Machine}
    {y : Frame × Machine} (h : Effects room nested (f, m) y) (ha : m.world.Codeless a)
    (hf : f.address ≠ a) : World.Spares a m.world y.2.world ∧ y.1.address = f.address := by
  induction h with
  | refl => exact ⟨.refl a _, rfl⟩
  | tail _ heffect ih =>
      obtain ⟨hspares, haddress⟩ := ih
      rw [← haddress] at hf
      obtain ⟨hstep, haddress'⟩ := heffect.spares hnested (ha.spared hspares) hf
      exact ⟨hspares.trans hstep, haddress'.trans haddress⟩

theorem runFrame_spares (hexec : exec.Spares a) {f : Frame} (input : Bytes) {m : Machine}
    (ha : m.world.Codeless a) (hf : f.code ≠ [] → f.address ≠ a) :
    World.Spares a m.world (runFrame s exec f input m).machine.world := by
  rcases runFrame_cases s exec f input m with ⟨hmachine, -⟩ | ⟨hcode, hrun⟩
  · rw [hmachine]
    exact .refl a _
  · rw [hrun]
    exact hexec f input m ha (hf hcode)

/-- The account has no code of its own, so that a frame which works on it has borrowed code or none
at all. -/
theorem Opens.spares {w w' : World} {request : Request} {frame : Frame} {target : Address}
    {static : Bool} (h : Opens s w request frame target static w') (ha : w.Codeless a)
    (havoids : request.Avoids a) :
    World.Spares a w.snapshot.2 w' ∧ (w'.code target ≠ [] → frame.address ≠ a) := by
  have hthere := ha.spared (.snapshot a w)
  cases h with
  | @call caller target _ _ value hreal =>
      have hcall := World.Spares.callWorld ha s caller target value
      exact ⟨hcall, (hthere.spared hcall).ne_of_code⟩
  | callCode => exact ⟨.refl a _, fun _ ↦ havoids⟩
  | delegateCall => exact ⟨.refl a _, fun _ ↦ havoids⟩
  | staticCall => exact ⟨.refl a _, hthere.ne_of_code⟩

theorem creationRun_spares (hexec : exec.Spares a) {w : World} {caller address : Address}
    {initCode : Bytes} {gas : Gas} {value : Wei} {start : Machine} {run done : Run}
    (ha : w.Codeless a) (hfree : w.isTaken address = false)
    (hstart : start.world = creationWorld s w caller address value)
    (hrun : run = runFrame s exec (creationFrame caller address initCode gas value) [] start)
    (hdone : done = deposit s address run) :
    World.Spares a w.snapshot.2 done.machine.world := by
  have hthere := ha.spared (.snapshot a w)
  have hopened := World.Spares.creationWorld ha s caller value hfree
  rw [← hstart] at hopened
  have hran : World.Spares a w.snapshot.2 run.machine.world := by
    rw [hrun]
    exact hopened.trans (runFrame_spares hexec [] (hthere.spared hopened)
      fun _ ↦ ha.ne_of_free hfree)
  rcases deposit_cases s address run with ⟨fault, hkeep⟩ | ⟨code, f', -, -, -, hstore⟩
  · rw [hdone, hkeep]
    exact hran
  · rw [hdone, hstore]
    exact hran.setCode hthere hfree code

theorem answer_spares (hexec : exec.Spares a) : (answer s exec).Spares a := by
  intro request m ha havoids
  have hsnapshot := World.Spares.snapshot a m.world
  have hconduct := answer_conduct s exec (m := m) request
  generalize answer s exec request m = result at hconduct ⊢
  obtain ⟨outcome, m'⟩ := result
  cases hconduct with
  | refused hrefuse => exact .refl a _
  | idle hentry hworld =>
      rw [hworld]
      exact hsnapshot
  | @called _ frame target static w input start run _ hentry hopen hstart hstartRo hstartDepth hrun
      hworld =>
      obtain ⟨hopened, hframe⟩ := hopen.spares ha havoids
      rw [← hstart] at hopened hframe hrun
      have hran : World.Spares a m.world.snapshot.2 run.machine.world := by
        rw [hrun]
        exact hopened.trans (runFrame_spares hexec input
          ((ha.spared hsnapshot).spared hopened) hframe)
      rw [hworld, Run.settle]
      split
      · exact hsnapshot.trans hran
      · exact hran.revert
  | spent hentry hnext => exact .refl a _
  | collided hentry hnext hworld =>
      rw [hworld]
      exact .setNonce ha hnext
  | reserved hentry hnext haddress hfree hworld =>
      have hcounted := World.Spares.setNonce ha hnext
      rw [hworld]
      exact hcounted.trans ((World.Spares.snapshot a _).trans
        (.creationWorld (ha.spared hcounted) s _ _ hfree))
  | created hentry hnext haddress hfree hstart hstartRo hstartDepth hstartCancelled hrun hdone hgas
      hworld =>
      have hcounted := World.Spares.setNonce ha hnext
      have hran := creationRun_spares hexec (ha.spared hcounted) hfree hstart hrun hdone
      rw [hworld]
      split
      · exact hcounted.trans ((World.Spares.snapshot a _).trans hran)
      · exact hcounted.trans hran.revert

theorem codeRunner_spares {engine : Engine} (hengine : engine.IsEffectful room) (levels : Nat) :
    (codeRunner s engine levels).Spares a := by
  induction levels with
  | zero => exact fun _ _ _ _ _ ↦ .refl a _
  | succ levels ih =>
      intro f input m ha hf
      have heffects := hengine (dispatchWithin s engine levels) f input
        { m with depth := m.depth + 1 }
      have hnested : (dispatchWithin s engine levels).Spares a := by
        rw [dispatchWithin_eq_answer]
        exact answer_spares ih
      exact (heffects.spares hnested ha hf).1

theorem dispatch_spares {table : ExtTreeMap Bytes (List Op)}
    (hs : s.env.interpreter = .script table) : (dispatch s).Spares a := by
  intro request m ha havoids
  rw [dispatch_eq_script hs, dispatchWith, dispatchWithin_eq_answer]
  exact answer_spares (codeRunner_spares (scriptEngine_isEffectful table) _) request m ha havoids

end Frames

/-! ## Messages, transactions and blocks -/

theorem Message.Runs.spares {env : Env} {context : Context} {table : ExtTreeMap Bytes (List Op)}
    (hs : env.interpreter = .script table) {a : Address} {msg : Message} {t : Session}
    {pool : GasPool} {outcome : Outcome} {m : Machine} (ha : t.world.Codeless a)
    (h : msg.Runs env context t pool outcome m) : World.Spares a t.world m.world := by
  cases h with
  | @intro cost _ intrinsic request w _ _ haccept hintrinsic hcovered hstart hdispatch =>
      have hpaid : World.Spares a t.world (t.world.subBalance msg.sender cost) := .setBalance ha _ _
      have hframe := dispatch_spares (a := a) (s := ⟨env, context⟩) hs request
        { world := w, monitor := t.monitor }
      rw [hdispatch] at hframe
      -- The sender may well be the account: neither a call nor a creation borrows its caller.
      rcases Message.start_cases hstart with ⟨-, rfl, rfl⟩ | ⟨target, next, -, rfl, hnext, rfl⟩
      · exact hpaid.trans (hframe (ha.spared hpaid) trivial)
      · have hcounted := hpaid.trans (.setNonce (ha.spared hpaid) hnext)
        exact hcounted.trans (hframe (ha.spared hcounted) trivial)

theorem Message.settledWorld_spares (msg : Message) {a : Address} {w : World} (ha : w.Codeless a)
    (coinbase : Address) (outcome : Outcome) :
    World.Spares a w (msg.settledWorld coinbase outcome w) := by
  have hback : World.Spares a w (w.addBalance msg.sender
    (Gas.costClamped (msg.gasBack outcome w) msg.gasPrice)) := .setBalance ha _ _
  exact hback.trans (.setBalance (ha.spared hback) coinbase _)

/-- An account without code has none in the second world either, and stores the same. -/
def World.LeavesCodeless (a : Address) (w w' : World) : Prop :=
  w.Codeless a → w'.Codeless a ∧ Ledger.StoresAlike a w'.toLedger w.toLedger

namespace World.LeavesCodeless

variable {w w' w₁ w₂ w₃ : World} {a : Address}

theorem ofSpares (h : w.Codeless a → Spares a w w') : LeavesCodeless a w w' :=
  fun ha ↦ ⟨ha.spared (h ha), (h ha).storage⟩

theorem trans (h : LeavesCodeless a w₁ w₂) (h' : LeavesCodeless a w₂ w₃) :
    LeavesCodeless a w₁ w₃ := by
  intro ha
  obtain ⟨hbetween, hstorage⟩ := h ha
  obtain ⟨hafter, hstorage'⟩ := h' hbetween
  exact ⟨hafter, hstorage'.trans hstorage⟩

theorem ofAccounts (h : w'.accounts = w.accounts) : LeavesCodeless a w w' := by
  intro ha
  refine ⟨ha.grows (grows_of_accounts h), ?_⟩
  rw [Ledger.StoresAlike, h]

end World.LeavesCodeless

theorem applyTransaction_leavesCodeless {venue : Venue} {table : ExtTreeMap Bytes (List Op)}
    (hs : venue.env.interpreter = .script table) (a : Address) (header : Header) (tx : Transaction)
    (t : Session) :
    World.LeavesCodeless a t.world (applyTransaction venue header tx t).2.world := by
  have hconduct := applyTransaction_conduct venue header tx t
  generalize applyTransaction venue header tx t = applied at hconduct ⊢
  cases hconduct with
  | unsigned hmsg => exact .ofAccounts rfl
  | rejected hmsg happlied =>
      obtain ⟨hrecords, -⟩ := applyMessage_eq_error hs happlied
      simp only [World.revert_snapshot hrecords.follows]
      exact .ofAccounts rfl
  | @applied msg execution u hmsg happlied =>
      obtain ⟨pool, outcome, m, hruns, -, -, -, hworld⟩ := applyMessage_eq_ok happlied
      have hall : World.LeavesCodeless a t.world u.world := by
        apply World.LeavesCodeless.ofSpares
        intro ha
        have hsnapshot := World.Spares.snapshot a t.world
        have hran := hsnapshot.trans (hruns.spares hs (ha.spared hsnapshot))
        rw [hworld]
        exact hran.trans (msg.settledWorld_spares (ha.spared hran) _ outcome)
      exact hall.trans (.ofAccounts rfl)

theorem blockRelation_leavesCodeless {venue : Venue} {table : ExtTreeMap Bytes (List Op)}
    (hs : venue.env.interpreter = .script table) (a : Address) :
    BlockRelation venue (World.LeavesCodeless a) where
  refl _ := .ofAccounts rfl
  trans := World.LeavesCodeless.trans
  accounts := .ofAccounts
  pay _ b balance := .ofSpares fun ha ↦ .setBalance ha b balance
  transaction := applyTransaction_leavesCodeless hs a

/-- The account is still there, still has no code, and its storage is the same map as before. -/
structure World.KeepsStorage (w w' : World) (a : Address) : Prop where
  present : w'.hasAccount a = true
  code : w'.code a = []
  storage : (w'.account? a).map Account.storage = (w.account? a).map Account.storage

theorem World.LeavesCodeless.keepsStorage {w w' : World} {a : Address}
    (h : World.LeavesCodeless a w w') (hnonce : w.nonce a ≠ 0) (hcode : w.code a = []) :
    w.KeepsStorage w' a := by
  obtain ⟨hafter, hstorage⟩ := h ⟨hnonce, hcode⟩
  exact ⟨hasAccount_iff.mpr hafter.present, hafter.code, hstorage⟩

/-- Accounts without code keep their storage.  An account with a nonce and without code stores what it
stored and gets no code: through every transaction, accepted or not, and every block, executed or
not, whether it is the sender, the recipient or the beneficiary; and through every frame, at any
depth, that does not start by borrowing code for it. -/
theorem codeless_accounts_keep_storage (table : ExtTreeMap Bytes (List Op)) (a : Address) :
    (∀ (venue : Venue) (header : Header) (tx : Transaction) (t : Session),
      venue.env.interpreter = .script table → t.world.nonce a ≠ 0 → t.world.code a = [] →
      t.world.KeepsStorage (applyTransaction venue header tx t).2.world a) ∧
    (∀ (venue : Venue) (b : Block) (reward : Option Wei) (w : World) (monitor : Monitor),
      venue.env.interpreter = .script table → w.nonce a ≠ 0 → w.code a = [] →
      w.KeepsStorage (b.execute venue reward w monitor).2.1 a) ∧
    (∀ (s : Setting) (request : Request) (m : Machine), s.env.interpreter = .script table →
      m.world.nonce a ≠ 0 → m.world.code a = [] → request.Avoids a →
      m.world.KeepsStorage (dispatch s request m).2.world a) := by
  refine ⟨?_, ?_, ?_⟩
  · intro venue header tx t hs hnonce hcode
    exact (applyTransaction_leavesCodeless hs a header tx t).keepsStorage hnonce hcode
  · intro venue b reward w monitor hs hnonce hcode
    have hblock := (blockRelation_leavesCodeless hs a).execute b reward w monitor
    exact hblock.keepsStorage hnonce hcode
  · intro s request m hs hnonce hcode havoids
    have hframe : World.LeavesCodeless a m.world (dispatch s request m).2.world :=
      .ofSpares fun ha ↦ dispatch_spares hs request m ha havoids
    exact hframe.keepsStorage hnonce hcode

/-- Account 17 calls account 5, whose storage it cannot reach, and borrows the code of account 6, with
which it writes to its own. -/
def reachingTable : ExtTreeMap Bytes (List Op) :=
  ((∅ : ExtTreeMap Bytes (List Op)).insert [1]
    [.call .call 5 900 1, .call .staticCall 5 900 0, .call .callCode 5 900 0,
      .call .delegateCall 6 900 0, .call .call 6 900 1]).insert [2] [.store 1 9]

def reachingVenue : Venue where
  env := { interpreter := .script reachingTable }
  author := some 5

def reachingSession : Session where
  world := (((({} : World).placeAccount 17 { code := [1] }).placeAccount 6 { code := [2] }).placeAccount
    5 { nonce := 4, storage := (∅ : Storage).insert 1 7 }).placeAccount sampleSender
    { balance := 200000 }
  pool := ⟨100000⟩

theorem unreached_account_keeps_storage :
    reachingSession.world.nonce 5 ≠ 0 ∧ reachingSession.world.code 5 = [] ∧
      ∃ receipt t, applyTransaction reachingVenue sampleHeader sampleTransaction reachingSession =
          (.ok receipt, t) ∧
        receipt.succeeded = true ∧ t.world.storageAt 17 1 = 9 ∧
        (t.world.account? 5).map Account.storage = some ((∅ : Storage).insert 1 7) := by
  have hnonce : reachingSession.world.nonce 5 ≠ 0 := by decide
  have hcode : reachingSession.world.code 5 = [] := by decide
  have hstatus : (applyTransaction reachingVenue sampleHeader sampleTransaction
      reachingSession).1.toOption.map (·.succeeded) = some true := by
    rw [applyTransaction_sample rfl]
    decide +kernel
  have hwritten : (applyTransaction reachingVenue sampleHeader sampleTransaction
      reachingSession).2.world.storageAt 17 1 = 9 := by
    rw [applyTransaction_sample rfl]
    decide +kernel
  obtain ⟨htransaction, -, -⟩ := codeless_accounts_keep_storage reachingTable 5
  have hkept := htransaction reachingVenue sampleHeader sampleTransaction reachingSession rfl
    hnonce hcode
  rcases happlied : applyTransaction reachingVenue sampleHeader sampleTransaction reachingSession with
    ⟨result, t⟩
  rw [happlied] at hstatus hwritten hkept
  cases result with
  | error e => cases hstatus
  | ok receipt =>
      exact ⟨hnonce, hcode, receipt, t, rfl, Option.some.inj hstatus, hwritten, hkept.storage⟩

end MeteredLedger
