import Ckb.Shared.ChainStatePool
import Ckb.Lib.Except

/-!
# Runs of the transaction pool

What the pool promises the block assembler, and where its operations break
it.  `ProposedCommittable` says every transaction of the proposed pool has
its own short id in the proposal table; `ParentsFirst` that `txs_iter` lists
a transaction after the pool transactions whose outputs it spends;
`SpendsOnce` that no two pool transactions spend one out-point; and the
accounting of `total_tx_size` is exact when it equals `heldSize`.

`try_proposed_orphan_by_ancestor` tries a released orphan on the proposed
pool when the table holds the id of the ancestor, not of the orphan.
`add_tx` appends a transaction and marks its outputs unspent, so a parent
taken back from a detached block comes after the child already spending its
output, and that output reads live again.  `proposed_tx` puts a transaction
that waits for unknown cells into the orphan pool, and `add_tx_to_pool` then
counts it nowhere.  A transaction that uses an output as a dep before the
transaction creating it joins the pool counts nothing for it, and the switch
that commits the creator panics in `dec_ref`.
-/

namespace Ckb

/-- Every transaction of the proposed pool has its own proposal short id in
the set of the proposal table. -/
def ProposedCommittable (context : TxPoolContext) (txPool : TxPool) : Prop :=
  ∀ entry ∈ txPool.proposed.txsIter,
    context.proposalIds.contains entry.transaction.proposalShortId = true

instance (context : TxPoolContext) (txPool : TxPool) :
    Decidable (ProposedCommittable context txPool) :=
  inferInstanceAs (Decidable (∀ entry ∈ txPool.proposed.txsIter, _))

namespace ProposedPool

/-- `txs_iter` lists every transaction after each pool transaction whose
output it spends. -/
def ParentsFirst (pool : ProposedPool) : Prop :=
  ∀ earlier later, [earlier, later].Sublist pool.txsIter →
    ∀ outPoint ∈ earlier.transaction.inputPts, outPoint ∉ later.transaction.outputPts

/-- No two transactions of the pool spend one out-point. -/
def SpendsOnce (pool : ProposedPool) : Prop :=
  ∀ earlier later, [earlier, later].Sublist pool.txsIter →
    ∀ outPoint ∈ earlier.transaction.inputPts, outPoint ∉ later.transaction.inputPts

end ProposedPool

section Samples

def sampleWindow : ProposalWindow := ⟨1, 1, le_refl 1⟩

def sampleConfig : TxPoolConfig := ⟨20000000, 200000000000, 100000⟩

def sampleOutput : CellOutput := ⟨⟨100⟩, [], ⟨[], ⟨0⟩⟩, none⟩

/-- A transaction with one output that spends the given out-points; its
hash is its proposal short id shifted into place. -/
def spendingTx (shortId : Nat) (spent : List OutPoint) : Transaction :=
  ⟨0, [], spent.map fun outPoint => ⟨outPoint, 0⟩, [sampleOutput], [[]], ⟨shortId * 2 ^ 176⟩⟩

def sampleCellbase (number : Nat) : Transaction :=
  ⟨0, [], [⟨OutPoint.null, UInt64.ofNat number⟩], [sampleOutput], [[]], ⟨(20 + number) * 2 ^ 176⟩⟩

def fundingPoint : OutPoint := OutPoint.newCell ⟨7 * 2 ^ 176⟩ 0

def parentTx : Transaction := spendingTx 1 [fundingPoint]

def childTx : Transaction := spendingTx 2 [OutPoint.newCell parentTx.hash 0]

/-- A second spender of the parent's output. -/
def rivalTx : Transaction := spendingTx 3 [OutPoint.newCell parentTx.hash 0]

/-- A chain whose live cells are the given out-points, each holding the
sample output. -/
def chainCells (live : List OutPoint) (outPoint : OutPoint) : CellStatus :=
  match outPoint.cell with
  | none => .unspecified
  | some cellOutPoint =>
    if outPoint ∈ live then .live (CellMeta.fromCellOutput sampleOutput cellOutPoint) else .unknown

/-- A chain state with the given table and live cells, whose verifiers
accept every transaction, at no cycles and no fee. -/
def acceptingContext (proposalIds : TxProposalTable) (live : List OutPoint) : TxPoolContext :=
  ⟨proposalIds, chainCells live, fun _ => .unspecified, fun _ => .ok (), fun _ => .ok 0,
    fun _ => some ⟨0⟩⟩

end Samples

/-! ## Accounting -/

/-- A proposed transaction that spends an output only the pending queue
holds resolves in `add_tx_to_pool` but waits for that output in
`proposed_tx`: it becomes an orphan, and the statistics never count it. -/
theorem addTxToPool_leaves_orphan_uncounted {context : TxPoolContext} {txPool : TxPool}
    {tx : Transaction} {cycles : Nat} {unknown : List OutPoint}
    (belowLimits : (txPool.reachSizeLimit tx.serializedSize || txPool.reachCyclesLimit cycles) = false)
    (resolvedInPool : ∃ rtx, ChainState.resolveTxFromPendingAndProposed context txPool tx = .ok rtx ∧
      context.contextualVerify rtx = .ok ())
    (proposed : ChainState.containsProposalId context tx.proposalShortId = true)
    (waiting : ChainState.resolveTxFromProposed context txPool tx = .error (.unknown unknown))
    (fresh : txPool.orphan.containsKey tx.proposalShortId = false)
    (exact : txPool.heldSize = txPool.totalTxSize) :
    ∃ txPool', ChainState.addTxToPool context txPool tx cycles =
        .ok (txPool', .error (.unresolvableTransaction (.unknown unknown))) ∧
      txPool'.heldSize = txPool'.totalTxSize + tx.serializedSize := by
  obtain ⟨rtx, resolved, verified⟩ := resolvedInPool
  have orphaned : ChainState.addTxToPool context txPool tx cycles =
      .ok ((txPool.addOrphan (some cycles) tx.serializedSize tx unknown).1,
        .error (.unresolvableTransaction (.unknown unknown))) := by
    simp only [ChainState.addTxToPool, belowLimits, Bool.false_eq_true, if_false, resolved,
      ChainState.verifyRtx, verified, Except.ok_bind, proposed, if_true,
      ChainState.proposedTxAndDescendants, ChainState.proposedTx_of_unknown waiting fresh]
    rfl
  refine ⟨_, orphaned, ?_⟩
  rw [TxPool.heldSize_addOrphan fresh, exact]
  rfl

/-- The child is proposed at tip 1; the parent is not. -/
def childProposedTable : TxProposalTable :=
  (((TxProposalTable.new sampleWindow).insert 1 [childTx.proposalShortId]).1.finalize 1).1

def childProposedContext : TxPoolContext := acceptingContext childProposedTable [fundingPoint]

/-- The pool a call of the pool methods leaves when it does not panic, and
the pool it was given otherwise. -/
def poolAfter {α : Type} (txPool : TxPool) : Except String (TxPool × α) → TxPool
  | .ok (txPool', _) => txPool'
  | .error _ => txPool

/-- The parent, not proposed, waits in the pending queue. -/
def parentPendingPool : TxPool :=
  poolAfter (TxPool.new sampleConfig)
    (ChainState.addTxToPool childProposedContext (TxPool.new sampleConfig) parentTx 0)

/-- The child spends the parent's pending output and becomes an orphan. -/
def childOrphanedPool : TxPool :=
  poolAfter parentPendingPool (ChainState.addTxToPool childProposedContext parentPendingPool childTx 0)

/-- From a new pool, the parent is counted, and the orphaned child is held
but not counted. -/
theorem childOrphan_uncounted :
    ChainState.addTxToPool childProposedContext (TxPool.new sampleConfig) parentTx 0 =
        .ok (parentPendingPool, .ok 0) ∧
      parentPendingPool.heldSize = parentPendingPool.totalTxSize ∧
      ∃ childOrphaned, ChainState.addTxToPool childProposedContext parentPendingPool childTx 0 =
          .ok (childOrphaned,
            .error (.unresolvableTransaction (.unknown [OutPoint.newCell parentTx.hash 0]))) ∧
        childOrphaned.heldSize = childOrphaned.totalTxSize + childTx.serializedSize :=
  ⟨rfl, by decide, @addTxToPool_leaves_orphan_uncounted childProposedContext parentPendingPool
    childTx 0 [OutPoint.newCell parentTx.hash 0] (by decide) ⟨_, rfl, rfl⟩ (by decide) rfl
    (by decide) (by decide)⟩

/-! ## Orphans released by a proposed ancestor -/

/-- An orphan released by a transaction whose id the table holds is tried on
the proposed pool, whether or not the table holds the orphan's own id; once
it resolves and verifies there, the proposed pool holds a transaction the
table does not. -/
theorem tryProposedOrphanByAncestor_admits_unproposed {context : TxPoolContext} {txPool : TxPool}
    {tx : Transaction} {orphan : OrphanPool} {entry : DefectEntry} {accepted : Nat}
    (released : txPool.orphan.removeByAncestor tx = .ok (orphan, [entry]))
    (ancestorProposed : ChainState.containsProposalId context tx.proposalShortId = true)
    (orphanUnproposed :
      ChainState.containsProposalId context entry.transaction.proposalShortId = false)
    (admitted : (ChainState.proposedTx context { txPool with orphan } entry.cycles entry.size
      entry.transaction).2 = .ok accepted) :
    ∃ txPool', ChainState.tryProposedOrphanByAncestor context txPool tx = .ok txPool' ∧
      ¬ProposedCommittable context txPool' := by
  have tried : ChainState.tryProposedOrphanByAncestor context txPool tx =
      .ok (ChainState.proposedTx context { txPool with orphan } entry.cycles entry.size
        entry.transaction).1 := by
    simp only [ChainState.tryProposedOrphanByAncestor, released, Except.ok_bind, List.foldl_cons,
      List.foldl_nil, ancestorProposed, if_true]
    cases result : ChainState.proposedTx context { txPool with orphan } entry.cycles entry.size
        entry.transaction with
    | mk pool answer =>
        rw [result] at admitted
        cases admitted
        rfl
  refine ⟨_, tried, fun committable => ?_⟩
  obtain ⟨proposedEntry, member, same⟩ := ChainState.proposedTx_ok_mem admitted
  have listed := committable proposedEntry member
  rw [same] at listed
  exact absurd listed (by simpa [ChainState.containsProposalId] using orphanUnproposed)

/-- At tip 2 the block proposes the parent, and the child's proposal has
left the window. -/
def parentProposedStep : TxProposalTable × List ProposalShortId :=
  (childProposedTable.insert 2 [parentTx.proposalShortId]).1.finalize 2

def parentProposedContext : TxPoolContext :=
  acceptingContext parentProposedStep.1 [fundingPoint]

def tipTwoBlock : Block :=
  ⟨⟨2, 0, 2, 1, ⟨1⟩, ⟨2⟩⟩, [], [sampleCellbase 2], [parentTx.proposalShortId]⟩

/-- The switch to tip 2 moves the parent from the pending queue to the
proposed pool, and the orphaned child follows it. -/
def childAdmittedPool : TxPool :=
  poolAfter childOrphanedPool (ChainState.updateTxPoolForReorg parentProposedContext
    childOrphanedPool [] [tipTwoBlock] parentProposedStep.2 [] 0)

/-- The pool as the switch has it when the parent has joined the proposed
pool. -/
def parentAdmittedPool : TxPool :=
  { childOrphanedPool with
    pending := .new
    proposed := childOrphanedPool.proposed.addTx 0 ⟨0⟩ parentTx.serializedSize parentTx }

/-- From a new pool, the switch to tip 2 leaves the child in the proposed
pool although the table no longer holds its id, as releasing it from the
orphan pool does. -/
theorem childAdmitted_unproposed :
    (∃ cache, ChainState.updateTxPoolForReorg parentProposedContext childOrphanedPool []
        [tipTwoBlock] parentProposedStep.2 [] 0 = .ok (childAdmittedPool, cache)) ∧
      childAdmittedPool.proposed.txsIter.map ProposedEntry.transaction = [parentTx, childTx] ∧
      ¬ProposedCommittable parentProposedContext childAdmittedPool ∧
      ∃ txPool', ChainState.tryProposedOrphanByAncestor parentProposedContext parentAdmittedPool
          parentTx = .ok txPool' ∧ ¬ProposedCommittable parentProposedContext txPool' :=
  ⟨⟨_, rfl⟩, by decide, by decide,
    @tryProposedOrphanByAncestor_admits_unproposed parentProposedContext parentAdmittedPool parentTx
      ⟨[], []⟩ ⟨childTx, 0, some 0, childTx.serializedSize⟩ 0 rfl (by decide) (by decide) rfl⟩

/-! ## A parent taken back from a detached block -/

/-- A transaction joining the proposed pool after a pool transaction that
spends one of its outputs is listed after it, and the spent output reads
live again. -/
theorem addTx_parent_after_spender {pool : ProposedPool} {spender : ProposedEntry}
    {parent : Transaction} {cycles size index : Nat} {fee : Capacity} {output : CellOutput}
    (held : spender ∈ pool.txsIter)
    (spends : OutPoint.newCell parent.hash index ∈ spender.transaction.inputPts)
    (created : parent.outputs[index]? = some output)
    (fresh : pool.containsKey parent.proposalShortId = false) :
    ¬(pool.addTx cycles fee size parent).ParentsFirst ∧
      (pool.addTx cycles fee size parent).cell (OutPoint.newCell parent.hash index) =
        .live (CellMeta.fromCellOutput output ⟨parent.hash, index⟩) := by
  refine ⟨?_, ProposedPool.addTx_cell_output created⟩
  have outputListed : OutPoint.newCell parent.hash index ∈ parent.outputPts := by
    have below : index < parent.outputs.length := by
      rw [List.getElem?_eq_some_iff] at created
      exact created.1
    exact List.mem_map.mpr ⟨index, List.mem_range.mpr below, rfl⟩
  obtain ⟨refsCount, appended⟩ := @ProposedPool.addTx_txsIter pool cycles size fee parent fresh
  have ordered : [spender, ⟨parent, refsCount, cycles, fee, size⟩].Sublist
      (pool.addTx cycles fee size parent).txsIter := by
    rw [appended]
    exact (List.singleton_sublist.mpr held).append (List.Sublist.refl _)
  intro parentsFirst
  exact parentsFirst _ _ ordered _ spends outputListed

/-- The parent, the child and the rival are all proposed at tip 1. -/
def allProposedTable : TxProposalTable :=
  (((TxProposalTable.new sampleWindow).insert 1
    [parentTx.proposalShortId, childTx.proposalShortId, rivalTx.proposalShortId]).1.finalize 1).1

/-- The chain before the switch: its block at height 1 holds the parent. -/
def parentOnChainContext : TxPoolContext :=
  acceptingContext allProposedTable [OutPoint.newCell parentTx.hash 0]

/-- The chain after the switch to a block at height 1 without the parent:
the cell the parent spent is live again. -/
def parentDetachedContext : TxPoolContext := acceptingContext allProposedTable [fundingPoint]

def parentBlock : Block :=
  ⟨⟨1, 0, 1, 1, ⟨0⟩, ⟨1⟩⟩, [], [sampleCellbase 1, parentTx],
    [parentTx.proposalShortId, childTx.proposalShortId, rivalTx.proposalShortId]⟩

def siblingBlock : Block :=
  ⟨⟨1, 0, 1, 2, ⟨0⟩, ⟨3⟩⟩, [], [sampleCellbase 3],
    [parentTx.proposalShortId, childTx.proposalShortId, rivalTx.proposalShortId]⟩

/-- The child spends the parent's output on the chain and is proposed. -/
def childProposedPool : TxPool :=
  poolAfter (TxPool.new sampleConfig)
    (ChainState.addTxToPool parentOnChainContext (TxPool.new sampleConfig) childTx 0)

/-- The switch detaches the parent's block; the parent is taken back. -/
def parentReaddedPool : TxPool :=
  poolAfter childProposedPool (ChainState.updateTxPoolForReorg parentDetachedContext
    childProposedPool [parentBlock] [siblingBlock] [] [] 0)

/-- The rival then spends the same output. -/
def rivalAddedPool : TxPool :=
  poolAfter parentReaddedPool (ChainState.addTxToPool parentDetachedContext parentReaddedPool rivalTx 0)

/-- From a new pool: after the switch `txs_iter` lists the child before the
parent whose output it spends, and the rival then joins the proposed pool
spending that output a second time. -/
theorem parentReadded_after_child :
    (∃ cache, ChainState.updateTxPoolForReorg parentDetachedContext childProposedPool
        [parentBlock] [siblingBlock] [] [] 0 = .ok (parentReaddedPool, cache)) ∧
      parentReaddedPool.proposed.txsIter =
        (childProposedPool.proposed.addTx 0 ⟨0⟩ parentTx.serializedSize parentTx).txsIter ∧
      ¬(childProposedPool.proposed.addTx 0 ⟨0⟩ parentTx.serializedSize parentTx).ParentsFirst ∧
      ChainState.addTxToPool parentDetachedContext parentReaddedPool rivalTx 0 =
        .ok (rivalAddedPool, .ok 0) ∧
      rivalAddedPool.proposed.txsIter.map ProposedEntry.transaction = [childTx, parentTx, rivalTx] ∧
      ¬rivalAddedPool.proposed.SpendsOnce :=
  ⟨⟨_, rfl⟩, by decide,
    (@addTx_parent_after_spender childProposedPool.proposed
      ⟨childTx, 0, 0, ⟨0⟩, childTx.serializedSize⟩ parentTx 0 parentTx.serializedSize 0 ⟨0⟩
      sampleOutput (by decide) (by decide) rfl (by decide)).1,
    rfl, by decide,
    fun spendsOnce => spendsOnce ⟨childTx, 0, 0, ⟨0⟩, childTx.serializedSize⟩
      ⟨rivalTx, 1, 0, ⟨0⟩, rivalTx.serializedSize⟩ (by decide) (OutPoint.newCell parentTx.hash 0)
      (by decide) (by decide)⟩

/-! ## A dep user taken in before its dep's creator -/

def secondFundingPoint : OutPoint := OutPoint.newCell ⟨8 * 2 ^ 176⟩ 0

/-- Spends a second chain cell and uses the parent's output as a dep. -/
def depUserTx : Transaction :=
  ⟨0, [OutPoint.newCell parentTx.hash 0], [⟨secondFundingPoint, 0⟩], [sampleOutput], [[]],
    ⟨6 * 2 ^ 176⟩⟩

/-- The parent and the dep user are proposed at tip 1. -/
def depProposedTable : TxProposalTable :=
  (((TxProposalTable.new sampleWindow).insert 1
    [parentTx.proposalShortId, depUserTx.proposalShortId]).1.finalize 1).1

/-- The chain with the parent's block at height 1. -/
def depOnChainContext : TxPoolContext :=
  acceptingContext depProposedTable [OutPoint.newCell parentTx.hash 0, secondFundingPoint]

/-- The chain after a switch to a block at height 1 without the parent. -/
def depDetachedContext : TxPoolContext :=
  acceptingContext depProposedTable [fundingPoint, secondFundingPoint]

/-- The dep user joins the proposed pool, the parent's output a chain cell. -/
def depUserProposedPool : TxPool :=
  poolAfter (TxPool.new sampleConfig)
    (ChainState.addTxToPool depOnChainContext (TxPool.new sampleConfig) depUserTx 0)

/-- The switch detaches the parent's block, and the parent joins the proposed
pool after its dep user. -/
def depParentReaddedPool : TxPool :=
  poolAfter depUserProposedPool (ChainState.updateTxPoolForReorg depDetachedContext
    depUserProposedPool [parentBlock] [siblingBlock] [] [] 0)

/-- From a new pool: the dep user joins the proposed pool while the parent is
on the chain, and a switch that detaches the parent's block takes the parent
back after it.  A switch back to the parent's block then commits the parent,
and `update_tx_pool_for_reorg` panics in `dec_ref` of the dep user. -/
theorem depUser_commit_panics :
    ChainState.addTxToPool depOnChainContext (TxPool.new sampleConfig) depUserTx 0 =
        .ok (depUserProposedPool, .ok 0) ∧
      (∃ cache, ChainState.updateTxPoolForReorg depDetachedContext depUserProposedPool
        [parentBlock] [siblingBlock] [] [] 0 = .ok (depParentReaddedPool, cache)) ∧
      depParentReaddedPool.proposed.removeCommittedTx parentTx =
        .error "attempt to subtract with overflow" ∧
      ChainState.updateTxPoolForReorg depOnChainContext depParentReaddedPool [siblingBlock]
        [parentBlock] [] [] 0 = .error "attempt to subtract with overflow" :=
  ⟨rfl, ⟨_, rfl⟩,
    @ProposedPool.removeCommittedTx_underflow depParentReaddedPool.proposed depUserTx.proposalShortId
      ⟨depUserTx, 0, 0, ⟨0⟩, depUserTx.serializedSize⟩ parentTx (OutPoint.newCell parentTx.hash 0)
      ⟨parentTx, 0, 0, ⟨0⟩, parentTx.serializedSize⟩ (by decide) (by decide) (by decide) (by decide)
      (by decide) rfl,
    rfl⟩

/-! ## A child taken out of the proposed pool -/

/-- The parent, then its child, join an empty proposed pool. -/
def parentChildPool : ProposedPool :=
  (ProposedPool.new.addTx 0 ⟨0⟩ parentTx.serializedSize parentTx).addTx 0 ⟨0⟩
    childTx.serializedSize childTx

/-- From an empty proposed pool: the parent joins, then the child, which
spends the parent's output while the pool holds it unspent, and `remove`
takes the child out again.  The parent stays and nothing in the pool spends
its output, yet the output reads unknown, not live. -/
theorem childRemoved_parentOutput_unknown :
    LinkedMap.get? (ProposedPool.new.addTx 0 ⟨0⟩ parentTx.serializedSize parentTx).edges.inner
        (OutPoint.newCell parentTx.hash 0) = some none ∧
      (parentChildPool.remove childTx.proposalShortId).1.txsIter.map ProposedEntry.transaction =
        [parentTx] ∧
      (parentChildPool.remove childTx.proposalShortId).1.getOutput
        (OutPoint.newCell parentTx.hash 0) = some sampleOutput ∧
      (parentChildPool.remove childTx.proposalShortId).1.cell
        (OutPoint.newCell parentTx.hash 0) = .unknown ∧
      ∀ cellMeta, (parentChildPool.remove childTx.proposalShortId).1.cell
        (OutPoint.newCell parentTx.hash 0) ≠ .live cellMeta :=
  ⟨by decide, by decide, by decide, by decide,
    (@ProposedPool.remove_forgets_spent_output parentChildPool childTx.proposalShortId
      ⟨childTx, 1, 0, ⟨0⟩, childTx.serializedSize⟩ (by decide) _ (by decide)).2⟩

end Ckb
