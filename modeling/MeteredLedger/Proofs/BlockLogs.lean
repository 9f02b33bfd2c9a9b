import Mathlib.Data.List.Nodup
import MeteredLedger.Proofs.BlockGas
import MeteredLedger.Proofs.EmittedLogs
import MeteredLedger.Proofs.MessageOpening
import MeteredLedger.Proofs.ReplayProtection

/-!
# Logs of a block

The first transaction of a block empties the book, and every transaction finds its own list empty: a
transaction is applied only once, since its nonce is used up, so no earlier one wrote under its hash.
What is found there afterwards are the logs that its frames keep, numbered from the number of logs
that the transactions before it have kept.
-/

namespace MeteredLedger

open Std

/-! ## Reference -/

/-- What the frame of a message emits; nothing if the message is rejected. -/
def Message.emissions (msg : Message) (env : Env) (context : Context)
    (table : ExtTreeMap Bytes (List Op)) (s : Session) : Emissions :=
  match msg.opening env context s.world s.pool with
  | .error _ => .empty
  | .ok (request, w) =>
    requestEmissions ⟨env, context⟩ table request { world := w, monitor := s.monitor }

def Transaction.emissions (tx : Transaction) (venue : Venue) (header : Header)
    (table : ExtTreeMap Bytes (List Op)) (s : Session) : Emissions :=
  match tx.toMessage venue.env.chain.chainId with
  | .error _ => .empty
  | .ok msg =>
    msg.emissions venue.env (Context.ofMessage msg header venue.history venue.author) table
      { s with world := s.world.snapshot.2 }

/-- What each transaction emits, up to the first one that is rejected. -/
def emissionsOf (venue : Venue) (header : Header) (table : ExtTreeMap Bytes (List Op)) :
    (index : Nat) → List Transaction → Session → List Emissions
  | _, [], _ => []
  | index, tx :: txs, s =>
    let before : Session := { s with world := s.world.prepare tx.hash index }
    tx.emissions venue header table before ::
      match applyTransaction venue header tx before with
      | (.error _, _) => []
      | (.ok _, after) => emissionsOf venue header table (index + 1) txs after

def Block.emissions (b : Block) (venue : Venue) (table : ExtTreeMap Bytes (List Op)) (w : World)
    (monitor : Monitor) : List Emissions :=
  emissionsOf venue b.header table 0 b.transactions (b.header.freshSession w monitor)

/-- What the code that emitted a log gave. -/
def Log.content (log : Log) : Address × List Word × Bytes := (log.address, log.topics, log.data)

/-! ## One transaction -/

theorem World.logged_addBalance (w : World) (a : Address) (amount : Wei) :
    World.Logged [] w (w.addBalance a amount) :=
  (w.recorded_setBalance a _).toLogged

theorem World.logged_finalise (w : World) : World.Logged [] w w.finalise :=
  .ofSameLogs ⟨fun _ ↦ rfl, rfl⟩ rfl rfl

section Transactions

variable {table : ExtTreeMap Bytes (List Op)}

theorem Message.Runs.logs {env : Env} {context : Context} {msg : Message} {s : Session}
    (hs : env.interpreter = .script table) {pool : GasPool} {outcome : Outcome} {m : Machine}
    (h : msg.Runs env context s pool outcome m) (hroom : s.world.logCount.toNat +
      (msg.emissions env context table s).emitted.length < 2 ^ 32) :
    World.Logged (msg.emissions env context table s).kept s.world m.world := by
  cases h with
  | @intro cost _ _ request w _ _ haccept hintrinsic hcovered hstart hdispatch =>
      have hopening := Message.opening_eq_ok_iff.mpr (.intro haccept hintrinsic hcovered hstart)
      have hpaid : World.Logged [] s.world (s.world.subBalance msg.sender cost) :=
        (s.world.recorded_setBalance msg.sender _).toLogged
      have hstarted : World.Logged [] s.world w := by
        rcases Message.start_cases hstart with ⟨-, -, rfl⟩ | ⟨target, next, -, -, -, rfl⟩
        · exact hpaid
        · exact hpaid.trans (World.recorded_setNonce _ _ _).toLogged
      have hcount : w.logCount.toNat = s.world.logCount.toNat := hstarted.count
      simp only [Message.emissions, hopening] at hroom ⊢
      have hframe := dispatch_logs (s := ⟨env, context⟩) hs request
        { world := w, monitor := s.monitor } (hcount ▸ hroom)
      rw [hdispatch] at hframe
      exact hstarted.trans hframe.toLogged

theorem Transaction.emissions_of_message {venue : Venue} {tx : Transaction} {msg : Message}
    (hmsg : tx.toMessage venue.env.chain.chainId = .ok msg) (header : Header) (s : Session) :
    tx.emissions venue header table s =
      msg.emissions venue.env (Context.ofMessage msg header venue.history venue.author) table
        { s with world := s.world.snapshot.2 } := by
  unfold Transaction.emissions
  rw [hmsg]

/-- An applied transaction leaves the logs that its frames keep, and its receipt shows the list that
is found under its hash. -/
theorem applyTransaction_logs {venue : Venue} {header : Header}
    (hs : venue.env.interpreter = .script table) {tx : Transaction} {s t : Session}
    {receipt : Receipt} (hok : applyTransaction venue header tx s = (.ok receipt, t))
    (hroom : s.world.logCount.toNat +
      (tx.emissions venue header table s).emitted.length < 2 ^ 32) :
    World.Logged (tx.emissions venue header table s).kept s.world t.world ∧
      receipt.logs = (t.world.logsOf tx.hash).map
        fun log ↦ { log with blockNumber := header.number } := by
  obtain ⟨msg, execution, after, hmsg, hran, rfl, rfl⟩ := applyTransaction_eq_ok hok
  refine ⟨?_, rfl⟩
  obtain ⟨pool, outcome, m, hruns, -, -, -, hworld⟩ := applyMessage_eq_ok hran
  rw [Transaction.emissions_of_message hmsg] at hroom ⊢
  have hsnapshot := s.world.recorded_snapshot.toLogged
  have hframe := hsnapshot.trans (hruns.logs hs hroom)
  have hsettled : World.Logged [] m.world after.world := by
    rw [hworld]
    exact (World.logged_addBalance _ _ _).trans (World.logged_addBalance _ _ _)
  have hend := hframe.trans (hsettled.trans (World.logged_finalise _))
  rwa [List.nil_append, List.nil_append, List.append_nil] at hend

end Transactions

/-! ## Transactions are applied once -/

namespace BlockRun

variable {venue : Venue} {header : Header} {table : ExtTreeMap Bytes (List Op)} {index : Nat}
  {s t : Session} {txs : List Transaction} {receipts : List Receipt}

theorem nonce_le (hs : venue.env.interpreter = .script table)
    (h : BlockRun venue header index s txs receipts t) :
    ∀ tx ∈ txs, s.world.nonce tx.sender ≤ tx.nonce := by
  induction h with
  | nil =>
      intro tx htx
      cases htx
  | @cons index s t u tx txs receipt receipts hfirst hrest ih =>
      have hprepare : ∀ a, (s.world.prepare tx.hash index).nonce a = s.world.nonce a := by
        intro a
        simp only [World.nonce, World.account?, World.prepare_accounts]
      have hgrows := applyTransaction_grows hs header tx
        { s with world := s.world.prepare tx.hash index }
      rw [hfirst] at hgrows
      have hnonce := (applyTransaction_nonce hs (congrArg Prod.fst hfirst)).1
      intro tx' htx'
      rcases List.mem_cons.mp htx' with rfl | hlater
      · rw [hnonce]
        exact UInt64.le_of_eq (hprepare tx'.sender).symm
      · have hle := hgrows.nonce_le tx'.sender
        simp only [hprepare] at hle
        exact UInt64.le_trans hle (ih tx' hlater)

/-- No transaction is applied twice. -/
theorem nodup (hs : venue.env.interpreter = .script table)
    (h : BlockRun venue header index s txs receipts t) : txs.Nodup := by
  induction h with
  | nil => exact List.nodup_nil
  | @cons index s t u tx txs receipt receipts hfirst hrest ih =>
      refine List.nodup_cons.mpr ⟨?_, ih⟩
      intro hagain
      obtain ⟨hnonce, hlt⟩ := applyTransaction_nonce hs (congrArg Prod.fst hfirst)
      rw [← hnonce, hfirst] at hlt
      exact UInt64.not_lt.mpr (hrest.nonce_le hs tx hagain) hlt

end BlockRun

/-! ## A whole block -/

/-- The receipt of a transaction shows the given logs, each with its place in the block. -/
structure Receipt.Attributes (header : Header) (tx : Transaction) (index first : Nat)
    (kept : List Log) (receipt : Receipt) : Prop where
  content : receipt.logs.map Log.content = kept.map Log.content
  place : ∀ log ∈ receipt.logs, log.txHash = tx.hash ∧ log.txIndex.toNat = index ∧
    log.blockNumber = header.number
  number : ∀ (j : Nat) (log : Log), receipt.logs[j]? = some log → log.logIndex.toNat = first + j

theorem Receipt.attributes_of_logs {header : Header} {tx : Transaction} {index first : Nat}
    {kept : List Log} {receipt : Receipt} (hindex : index < 2 ^ 32)
    (hroom : first + kept.length < 2 ^ 32)
    (hlogs : receipt.logs = (Log.place tx.hash (UInt32.ofNat index) first kept).map
      fun log ↦ { log with blockNumber := header.number }) :
    receipt.Attributes header tx index first kept where
  content := by
    apply List.ext_getElem?
    intro j
    simp only [hlogs, Log.place, List.getElem?_map, List.getElem?_mapIdx, Option.map_map]
    rfl
  place := by
    intro log hlog
    rw [hlogs] at hlog
    obtain ⟨placed, hplaced, rfl⟩ := List.mem_map.mp hlog
    obtain ⟨j, hj, rfl⟩ := List.mem_mapIdx.mp hplaced
    exact ⟨rfl, UInt32.toNat_ofNat_of_lt' hindex, rfl⟩
  number := by
    intro j log hlog
    simp only [hlogs, Log.place, List.getElem?_map, List.getElem?_mapIdx, Option.map_map,
      Option.map_eq_some_iff] at hlog
    obtain ⟨bare, hbare, rfl⟩ := hlog
    obtain ⟨hj, -⟩ := List.getElem?_eq_some_iff.mp hbare
    have hlt : first + j < 2 ^ 32 := by omega
    exact UInt32.toNat_ofNat_of_lt' hlt

section Blocks

variable {venue : Venue} {header : Header} {table : ExtTreeMap Bytes (List Op)}

/-- The transactions ahead find their lists empty and the given number of logs in the book. -/
structure Session.Ready (s : Session) (index first : Nat) (txs : List Transaction) : Prop where
  lists : ∀ txHash, ∀ tx ∈ txs, (s.world.prepare txHash index).logsOf tx.hash = []
  count : ∀ txHash, (s.world.prepare txHash index).logCount.toNat = first

theorem Session.ready_start (s : Session) (txs : List Transaction) : s.Ready 0 0 txs where
  lists _ _ _ := by simp [World.prepare, World.logsOf]
  count _ := rfl

/-- What one transaction of a run shows in its receipt, and what it leaves to the next ones. -/
theorem Session.Ready.step (hs : venue.env.interpreter = .script table) {s t : Session}
    {index first : Nat} {tx : Transaction} {txs : List Transaction} {receipt : Receipt}
    (h : s.Ready index first (tx :: txs)) (hhash : ∀ tx' ∈ txs, tx'.hash ≠ tx.hash)
    (hindex : index < 2 ^ 32) {e : Emissions}
    (he : e = tx.emissions venue header table { s with world := s.world.prepare tx.hash index })
    (hroom : first + e.emitted.length < 2 ^ 32)
    (hok : applyTransaction venue header tx
      { s with world := s.world.prepare tx.hash index } = (.ok receipt, t)) :
    receipt.Attributes header tx index first e.kept ∧
      t.Ready (index + 1) (first + e.kept.length) txs := by
  have hcount := h.count tx.hash
  obtain ⟨hlogged, hlogs⟩ := applyTransaction_logs hs hok (by rwa [← he, hcount])
  rw [← he] at hlogged
  have hkept := e.kept_sublist.length_le
  refine ⟨Receipt.attributes_of_logs hindex (by omega) ?_, ?_, ?_⟩
  · have hown := hlogged.own
    simp only [World.prepare_txHash, World.prepare_txIndex, hcount,
      h.lists tx.hash tx List.mem_cons_self, List.nil_append] at hown
    rw [hlogs, hown]
  · -- Turning to a later transaction leaves the book alone.
    intro txHash tx' htx'
    have hne : tx'.hash ≠ (s.world.prepare tx.hash index).txHash := by
      rw [World.prepare_txHash]
      exact hhash tx' htx'
    exact (hlogged.other tx'.hash hne).trans (h.lists tx.hash tx' (List.mem_cons_of_mem tx htx'))
  · intro txHash
    have htotal := hlogged.count
    rw [hcount] at htotal
    exact htotal

theorem emissionsOf_cons {index : Nat} {s t : Session} {tx : Transaction}
    {receipt : Receipt} (table : ExtTreeMap Bytes (List Op)) (txs : List Transaction)
    (hok : applyTransaction venue header tx
      { s with world := s.world.prepare tx.hash index } = (.ok receipt, t)) :
    emissionsOf venue header table index (tx :: txs) s =
      tx.emissions venue header table { s with world := s.world.prepare tx.hash index } ::
        emissionsOf venue header table (index + 1) txs t := by
  simp only [emissionsOf, hok]

/-- What the receipts of a run show. -/
theorem BlockRun.logs (hs : venue.env.interpreter = .script table) {index first : Nat}
    {s t : Session} {txs : List Transaction} {receipts : List Receipt}
    (h : BlockRun venue header index s txs receipts t) (hready : s.Ready index first txs)
    (hhash : (txs.map (·.hash)).Nodup) (hindex : index + txs.length ≤ 2 ^ 32)
    (hroom : first + ((emissionsOf venue header table index txs s).flatMap
      (·.emitted)).length < 2 ^ 32) :
    (∀ (j : Nat) (log : Log), (receipts.flatMap (·.logs))[j]? = some log →
      log.logIndex.toNat = first + j) ∧
    (∀ (i : Nat) (tx : Transaction) (receipt : Receipt), txs[i]? = some tx →
      receipts[i]? = some receipt → ∀ log ∈ receipt.logs, log.txHash = tx.hash ∧
        log.txIndex.toNat = index + i ∧ log.blockNumber = header.number) ∧
    receipts.map (fun receipt ↦ receipt.logs.map Log.content) =
      (emissionsOf venue header table index txs s).map fun e ↦ e.kept.map Log.content := by
  induction h generalizing first with
  | nil => simp [emissionsOf]
  | @cons index s t u tx txs receipt receipts hfirst hrest ih =>
      have hemissions := emissionsOf_cons table txs hfirst
      generalize hfirstEmissions : tx.emissions venue header table
        { s with world := s.world.prepare tx.hash index } = e at hemissions
      rw [hemissions, List.flatMap_cons, List.length_append] at hroom
      rw [List.length_cons] at hindex
      obtain ⟨hfresh, hdistinct⟩ := List.nodup_cons.mp hhash
      have hkept := e.kept_sublist.length_le
      have hothers : ∀ tx' ∈ txs, tx'.hash ≠ tx.hash := by
        intro tx' htx' hsame
        exact hfresh (List.mem_map.mpr ⟨tx', htx', hsame⟩)
      obtain ⟨hattributes, hnext⟩ := hready.step hs hothers (by omega) hfirstEmissions.symm
        (by omega) hfirst
      obtain ⟨hnumber, hplace, hcontent⟩ := ih hnext hdistinct (by omega) (by omega)
      have hlength : receipt.logs.length = e.kept.length := by
        simpa using congrArg List.length hattributes.content
      refine ⟨?_, ?_, ?_⟩
      · intro j log hlog
        rw [List.flatMap_cons, List.getElem?_append] at hlog
        split at hlog
        · exact hattributes.number j log hlog
        · have hlater := hnumber _ log hlog
          omega
      · intro i tx' receipt' htx hreceipt
        cases i with
        | zero =>
            cases htx
            cases hreceipt
            exact hattributes.place
        | succ i =>
            have hlater := hplace i tx' receipt' htx hreceipt
            rwa [Nat.add_assoc, Nat.add_comm 1] at hlater
      · rw [hemissions, List.map_cons, List.map_cons, hattributes.content, hcontent]

end Blocks

/-- The logs that a block gathers are those of its receipts in order, numbered from zero on without a
gap.  The logs of each receipt carry the hash and the index of their transaction and the number of the block,
and they are the logs that the transaction emits without those of frames that were gone back on.
What the book held before the block does not matter. -/
theorem block_logs_are_attributed {venue : Venue} {table : ExtTreeMap Bytes (List Op)}
    (hs : venue.env.interpreter = .script table) (b : Block) (consensus : Consensus) (w : World)
    (monitor : Monitor) {o : BlockOutcome} (hlength : b.transactions.length < 2 ^ 32)
    (hhash : ∀ tx ∈ b.transactions, ∀ tx' ∈ b.transactions, tx.hash = tx'.hash → tx = tx')
    (hroom : ((b.emissions venue table w monitor).flatMap (·.emitted)).length < 2 ^ 32)
    (hok : (b.executeUnder venue consensus w monitor).1 = .ok o) :
    o.logs = o.receipts.flatMap (·.logs) ∧
    (∀ (j : Nat) (log : Log), o.logs[j]? = some log → log.logIndex.toNat = j) ∧
    o.receipts.length = b.transactions.length ∧
    (∀ (i : Nat) (tx : Transaction) (receipt : Receipt), b.transactions[i]? = some tx →
      o.receipts[i]? = some receipt → ∀ log ∈ receipt.logs, log.txHash = tx.hash ∧
        log.txIndex.toNat = i ∧ log.blockNumber = b.header.number) ∧
    o.receipts.map (fun receipt ↦ receipt.logs.map Log.content) =
      (b.emissions venue table w monitor).map fun e ↦ e.kept.map Log.content := by
  obtain ⟨-, t, hrun, hlogs, -, -⟩ := Block.executeUnder_eq_ok_iff.mp hok
  have hdistinct : (b.transactions.map (·.hash)).Nodup := by
    rw [List.nodup_map_iff_inj_on (hrun.nodup hs)]
    exact hhash
  have hready := Session.ready_start (b.header.freshSession w monitor) b.transactions
  obtain ⟨hnumber, hplace, hcontent⟩ := hrun.logs hs hready hdistinct (by omega)
    ((Nat.zero_add _).symm ▸ hroom)
  simp only [Nat.zero_add] at hnumber hplace
  exact ⟨hlogs, hlogs ▸ hnumber, hrun.length_eq, hplace, hcontent⟩

/-- Account 17 logs, calls account 19, which logs in vain, and logs again; account 18 logs once. -/
def layeredTable : ExtTreeMap Bytes (List Op) :=
  (((∅ : ExtTreeMap Bytes (List Op)).insert [1]
    [.log [5] [], .call .call 19 5000 0, .log [7] [1]]).insert [2] [.log [8] []]).insert [3]
      [.log [6] [], .revert []]

def layeredVenue : Venue where
  env := { interpreter := .script layeredTable }

def layeredBlock : Block where
  header := sampleHeader
  transactions := [sampleTransaction, idleTransaction]

/-- A book that is not empty, with a log under the hash of a transaction to come. -/
def layeredLedger : Ledger where
  logs := (∅ : ExtTreeMap Hash (List Log)).insert sampleTransaction.hash
    [{ address := 9, topics := [], data := [] }]
  logCount := 12

def layeredWorld : World :=
  (((({ layeredLedger with } : World).placeAccount 17 { code := [1] }).placeAccount 18
    { code := [2] }).placeAccount 19 { code := [3] }).placeAccount sampleSender { balance := 200000 }

def layeredStart : Session :=
  sampleHeader.freshSession (layeredWorld.prepare sampleTransaction.hash 0) {}

def layeredRun : Except Rejection Receipt × Session :=
  applySigned layeredVenue sampleHeader sampleTransaction
    (sampleTransaction.messageFrom sampleSender) layeredStart

def layeredNext : Session :=
  { layeredRun.2 with world := layeredRun.2.world.prepare idleTransaction.hash 1 }

def layeredLast : Except Rejection Receipt × Session :=
  applySigned layeredVenue sampleHeader idleTransaction (idleTransaction.messageFrom sampleSender)
    layeredNext

theorem sampleTransaction_emissions :
    (sampleTransaction.emissions layeredVenue sampleHeader layeredTable layeredStart).emitted.length =
        3 ∧
      (sampleTransaction.emissions layeredVenue sampleHeader layeredTable layeredStart).kept.map
        Log.content = [(17, [5], []), (17, [7], [1])] := by
  have hmsg : sampleTransaction.toMessage layeredVenue.env.chain.chainId =
      .ok (sampleTransaction.messageFrom sampleSender) := sampleTransaction_toMessage
  rw [Transaction.emissions_of_message hmsg]
  decide +kernel

theorem idleTransaction_emissions :
    (idleTransaction.emissions layeredVenue sampleHeader layeredTable layeredNext).emitted.length =
        1 ∧
      (idleTransaction.emissions layeredVenue sampleHeader layeredTable layeredNext).kept.map
        Log.content = [(18, [8], [])] := by
  have hmsg : idleTransaction.toMessage layeredVenue.env.chain.chainId =
      .ok (idleTransaction.messageFrom sampleSender) := idleTransaction_toMessage
  rw [Transaction.emissions_of_message hmsg]
  decide +kernel

/-- Both transactions are applied, the second one to what the first one leaves. -/
theorem layeredBlock_runs :
    ∃ first second, applyTransaction layeredVenue sampleHeader sampleTransaction layeredStart =
        (.ok first, layeredRun.2) ∧
      applyTransaction layeredVenue sampleHeader idleTransaction layeredNext =
        (.ok second, layeredLast.2) ∧
      BlockRun layeredVenue layeredBlock.header 0 (layeredBlock.header.freshSession layeredWorld {})
        layeredBlock.transactions [first, second] layeredLast.2 := by
  obtain ⟨first, hfirst, -, -⟩ : ∃ receipt, layeredRun = (.ok receipt, layeredRun.2) ∧
      receipt.gasUsed = 21000 ∧ receipt.cumulativeGasUsed = 21000 :=
    exists_receipt_of_gasReport (by decide +kernel)
  obtain ⟨second, hsecond, -, -⟩ : ∃ receipt, layeredLast = (.ok receipt, layeredLast.2) ∧
      receipt.gasUsed = 21000 ∧ receipt.cumulativeGasUsed = 42000 :=
    exists_receipt_of_gasReport (by decide +kernel)
  have happlied := (applyTransaction_sample rfl sampleHeader layeredStart).trans hfirst
  have happliedNext := (applyTransaction_idle rfl sampleHeader layeredNext).trans hsecond
  exact ⟨first, second, happlied, happliedNext, .cons happlied (.cons happliedNext .nil)⟩

theorem layeredBlock_distinct : ∀ tx ∈ layeredBlock.transactions,
    ∀ tx' ∈ layeredBlock.transactions, tx.hash = tx'.hash → tx = tx' := by
  have hhash : sampleTransaction.hash ≠ idleTransaction.hash := by decide +kernel
  intro tx htx tx' htx' hsame
  simp only [layeredBlock, List.mem_cons, List.not_mem_nil, or_false] at htx htx'
  rcases htx with rfl | rfl <;> rcases htx' with rfl | rfl
  · rfl
  · exact absurd hsame hhash
  · exact absurd hsame.symm hhash
  · rfl

/-- Four logs are emitted, one of them in a frame that reverts. -/
theorem layered_block_logs_are_attributed :
    ∃ o, (layeredBlock.executeUnder layeredVenue (Consensus.reward none) layeredWorld {}).1 = .ok o ∧
      ((layeredBlock.emissions layeredVenue layeredTable layeredWorld {}).flatMap
        (·.emitted)).length = 4 ∧
      o.logs.map Log.content = [(17, [5], []), (17, [7], [1]), (18, [8], [])] ∧
      o.receipts.map (fun receipt ↦ receipt.logs.map Log.content) =
        [[(17, [5], []), (17, [7], [1])], [(18, [8], [])]] ∧
      ∀ (j : Nat) (log : Log), o.logs[j]? = some log → log.logIndex.toNat = j := by
  have hs : layeredVenue.env.interpreter = .script layeredTable := rfl
  obtain ⟨first, second, happlied, happliedNext, hrun⟩ := layeredBlock_runs
  have hok : (layeredBlock.executeUnder layeredVenue (Consensus.reward none) layeredWorld {}).1 =
      .ok _ := congrArg Prod.fst (Block.executeUnder_of_run rfl hrun)
  have hemissions : layeredBlock.emissions layeredVenue layeredTable layeredWorld {} =
      [sampleTransaction.emissions layeredVenue sampleHeader layeredTable layeredStart,
        idleTransaction.emissions layeredVenue sampleHeader layeredTable layeredNext] :=
    (emissionsOf_cons layeredTable [idleTransaction] happlied).trans
      (congrArg _ (emissionsOf_cons layeredTable [] happliedNext))
  have hlength : ((layeredBlock.emissions layeredVenue layeredTable layeredWorld {}).flatMap
      (·.emitted)).length = 4 := by
    rw [hemissions, List.flatMap_cons, List.flatMap_cons, List.flatMap_nil, List.append_nil,
      List.length_append, sampleTransaction_emissions.1, idleTransaction_emissions.1]
  obtain ⟨hlogs, hnumber, -, -, hkept⟩ := block_logs_are_attributed hs layeredBlock
    (Consensus.reward none) layeredWorld {} (by decide) layeredBlock_distinct (by omega) hok
  have hcontent : [first, second].map (fun receipt ↦ receipt.logs.map Log.content) =
      [[(17, [5], []), (17, [7], [1])], [(18, [8], [])]] := by
    rw [hkept, hemissions, List.map_cons, List.map_cons, sampleTransaction_emissions.2,
      idleTransaction_emissions.2]
    rfl
  refine ⟨_, hok, hlength, ?_, hcontent, hnumber⟩
  rw [hlogs, List.map_flatMap, List.flatMap_def, hcontent]
  rfl

end MeteredLedger
