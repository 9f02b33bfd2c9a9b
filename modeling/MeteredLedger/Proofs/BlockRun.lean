import MeteredLedger.Block.Execute

/-!
# Runs of transactions

A block hands its session from one transaction to the next and gathers receipts and logs on the way.
`BlockRun` says the same without the gathering: which receipts the transactions give one after
another, and which session they leave.  Later modules argue by induction on it.
-/

namespace MeteredLedger

/-- A run of transactions all of which are applied: the index of the first one and the session, then
the receipts and the session that is left. -/
inductive BlockRun (venue : Venue) (header : Header) :
    Nat → Session → List Transaction → List Receipt → Session → Prop
  | nil {index : Nat} {s : Session} : BlockRun venue header index s [] [] s
  | cons {index : Nat} {s t u : Session} {tx : Transaction} {txs : List Transaction}
      {receipt : Receipt} {receipts : List Receipt}
      (hfirst : applyTransaction venue header tx
        { s with world := s.world.prepare tx.hash index } = (.ok receipt, t))
      (hrest : BlockRun venue header (index + 1) t txs receipts u) :
      BlockRun venue header index s (tx :: txs) (receipt :: receipts) u

/-- Receipts are recorded in order, and so are the logs of each. -/
theorem BlockRecord.foldl_add (record : BlockRecord) (receipts : List Receipt) :
    receipts.foldl add record =
      ⟨record.receipts ++ receipts, record.logs ++ receipts.flatMap (·.logs)⟩ := by
  induction receipts generalizing record with
  | nil => simp only [List.foldl_nil, List.flatMap_nil, List.append_nil]
  | cons receipt receipts ih =>
      rw [List.foldl_cons, ih]
      simp only [add, List.append_assoc, List.cons_append, List.nil_append, List.flatMap_cons]

section Runs

variable {venue : Venue} {header : Header} {index : Nat} {s t : Session} {txs : List Transaction}
  {receipts : List Receipt} {record record' : BlockRecord}

theorem applyTransactions_eq_ok_iff :
    applyTransactions venue header index record txs s = (.ok record', t) ↔
      ∃ receipts, BlockRun venue header index s txs receipts t ∧
        record' = receipts.foldl BlockRecord.add record := by
  constructor
  · intro h
    induction txs generalizing index record s with
    | nil =>
        cases h
        exact ⟨[], .nil, rfl⟩
    | cons tx txs ih =>
        simp only [applyTransactions] at h
        split at h
        · cases h
        · rename_i receipt u hfirst
          obtain ⟨receipts, hrest, hrecord⟩ := ih h
          exact ⟨receipt :: receipts, .cons hfirst hrest, hrecord⟩
  · rintro ⟨receipts, hrun, rfl⟩
    induction hrun generalizing record with
    | nil => rfl
    | cons hfirst hrest ih => simp only [applyTransactions, hfirst, ih, List.foldl_cons]

/-- What transactions and their preparation respect, a run of them respects as well, whether it comes
to its end or not. -/
theorem applyTransactions_respects {R : World → World → Prop} (hrefl : ∀ w, R w w)
    (htrans : ∀ {w₁ w₂ w₃}, R w₁ w₂ → R w₂ w₃ → R w₁ w₃)
    (hprepare : ∀ w txHash index, R w (w.prepare txHash index))
    (htransaction : ∀ tx (s : Session), R s.world (applyTransaction venue header tx s).2.world)
    (index : Nat) (record : BlockRecord) (txs : List Transaction) (s : Session) :
    R s.world (applyTransactions venue header index record txs s).2.world := by
  induction txs generalizing index record s with
  | nil => exact hrefl _
  | cons tx txs ih =>
      have hfirst := htrans (hprepare s.world tx.hash index)
        (htransaction tx { s with world := s.world.prepare tx.hash index })
      rw [applyTransactions]
      generalize applyTransaction venue header tx _ = applied at hfirst ⊢
      obtain ⟨result, t⟩ := applied
      cases result with
      | error e => exact hfirst
      | ok receipt => exact htrans hfirst (ih (index + 1) (record.add receipt) t)

namespace BlockRun

/-- What a block has gathered after a run from its start. -/
theorem applyTransactions_eq (h : BlockRun venue header index s txs receipts t) :
    applyTransactions venue header index {} txs s =
      (.ok ⟨receipts, receipts.flatMap (·.logs)⟩, t) :=
  applyTransactions_eq_ok_iff.mpr ⟨receipts, h, (BlockRecord.foldl_add {} receipts).symm⟩

theorem length_eq (h : BlockRun venue header index s txs receipts t) :
    receipts.length = txs.length := by
  induction h with
  | nil => rfl
  | cons hfirst hrest ih => simp only [List.length_cons, ih]

/-- A run can be cut after any number of transactions. -/
theorem split (h : BlockRun venue header index s txs receipts t) (n : Nat) :
    ∃ mid, BlockRun venue header index s (txs.take n) (receipts.take n) mid ∧
      BlockRun venue header (index + n) mid (txs.drop n) (receipts.drop n) t := by
  induction h generalizing n with
  | @nil index s => exact ⟨s, by simpa using .nil, by simpa using .nil⟩
  | @cons index s t u tx txs receipt receipts hfirst hrest ih =>
      cases n with
      | zero => exact ⟨s, .nil, .cons hfirst hrest⟩
      | succ n =>
          obtain ⟨mid, hbefore, hafter⟩ := ih n
          rw [Nat.add_right_comm] at hafter
          exact ⟨mid, .cons hfirst hbefore, hafter⟩

/-- A transaction of a run is applied to what the ones before it leave. -/
theorem step_at (h : BlockRun venue header index s txs receipts t) {i : Nat}
    {tx : Transaction} (htx : txs[i]? = some tx) :
    ∃ receipt before after, receipts[i]? = some receipt ∧
      BlockRun venue header index s (txs.take i) (receipts.take i) before ∧
      applyTransaction venue header tx
        { before with world := before.world.prepare tx.hash (index + i) } = (.ok receipt, after) := by
  obtain ⟨before, hbefore, hafter⟩ := h.split i
  obtain ⟨hlt, hget⟩ := List.getElem?_eq_some_iff.mp htx
  rw [List.drop_eq_getElem_cons hlt, hget] at hafter
  generalize hrest : receipts.drop i = rest at hafter
  cases hafter with
  | @cons _ _ after _ _ _ receipt _ hfirst hrest' =>
      refine ⟨receipt, before, after, ?_, hbefore, hfirst⟩
      rw [← Nat.add_zero i, ← List.getElem?_drop, hrest]
      rfl

end BlockRun

end Runs

namespace Block

variable {b : Block} {venue : Venue} {consensus : Consensus} {w : World} {monitor : Monitor}

theorem executeUnder_of_run {receipts : List Receipt} {t : Session}
    (hvalid : b.header.validate = .ok ())
    (hrun : BlockRun venue b.header 0 (b.header.freshSession w monitor) b.transactions receipts t) :
    b.executeUnder venue consensus w monitor =
      (.ok ⟨receipts, receipts.flatMap (·.logs), t.used,
        (consensus b receipts t.world).finalise.stateRoot⟩,
        (consensus b receipts t.world).finalise, t.monitor) := by
  simp only [executeUnder, hvalid, hrun.applyTransactions_eq]

theorem exists_run_of_executeUnder {outcome : BlockOutcome}
    (h : (b.executeUnder venue consensus w monitor).1 = .ok outcome) :
    b.header.validate = .ok () ∧ ∃ t, BlockRun venue b.header 0 (b.header.freshSession w monitor)
      b.transactions outcome.receipts t := by
  unfold executeUnder at h
  split at h
  · cases h
  · rename_i hvalid
    split at h
    · cases h
    · rename_i record t happlied
      cases h
      obtain ⟨receipts, hrun, rfl⟩ := applyTransactions_eq_ok_iff.mp happlied
      rw [BlockRecord.foldl_add]
      exact ⟨hvalid, t, hrun⟩

/-- A block is executed if its header is valid and all of its transactions are applied. -/
theorem executeUnder_eq_ok_iff {outcome : BlockOutcome} :
    (b.executeUnder venue consensus w monitor).1 = .ok outcome ↔
      b.header.validate = .ok () ∧ ∃ t,
        BlockRun venue b.header 0 (b.header.freshSession w monitor) b.transactions
          outcome.receipts t ∧
        outcome.logs = outcome.receipts.flatMap (·.logs) ∧ outcome.gasUsed = t.used ∧
        outcome.stateRoot = (consensus b outcome.receipts t.world).finalise.stateRoot := by
  constructor
  · intro h
    obtain ⟨hvalid, t, hrun⟩ := exists_run_of_executeUnder h
    rw [executeUnder_of_run hvalid hrun, Except.ok.injEq] at h
    refine ⟨hvalid, t, hrun, ?_⟩
    rw [← h]
    exact ⟨rfl, rfl, rfl⟩
  · rintro ⟨hvalid, t, hrun, hlogs, hused, hroot⟩
    rw [executeUnder_of_run hvalid hrun, ← hlogs, ← hused, ← hroot]

end Block

end MeteredLedger
