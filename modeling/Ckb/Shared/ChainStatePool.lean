import Ckb.Shared.TxPool
import Ckb.Shared.ProposalTable

/-!
# The chain state's pool operations

A model of the methods of `ChainState` (`shared/src/chain_state.rs`) that
move transactions through the pool: `add_tx_to_pool`, `proposed_tx` and
`proposed_tx_and_descendants`, `try_proposed_orphan_by_ancestor`,
`update_tx_pool_for_reorg` and `get_proposed_txs`.

What these methods read of the chain state besides the pool is collected in
`TxPoolContext`: the proposal table, the chain's cell and header providers,
the two transaction verifiers and the fee calculation.  The verifiers and the
fee are outside this model; `verify_rtx` is modelled over them.  The
timestamp `last_txs_updated_at` is not modelled.
-/

namespace Ckb

inductive PoolError where
  | unresolvableTransaction (error : UnresolvableError)
  /-- An error of a transaction verifier. -/
  | invalidTx
  | limitReached
  | timeOut
  | invalidBlockNumber
  | duplicate
  | txFee
  deriving DecidableEq, Repr

/-- What the pool methods of `ChainState` read of it besides the pool. -/
structure TxPoolContext where
  proposalIds : TxProposalTable
  /-- The chain state as a cell provider. -/
  cell : OutPoint → CellStatus
  /-- The chain state as a header provider. -/
  header : OutPoint → HeaderStatus
  /-- `ContextualTransactionVerifier::verify` at the next block. -/
  contextualVerify : ResolvedTransaction → Except PoolError Unit
  /-- `TransactionVerifier::verify` at the next block, with its cycles. -/
  verify : ResolvedTransaction → Except PoolError Nat
  /-- `calculate_transaction_fee`. -/
  transactionFee : ResolvedTransaction → Option Capacity

namespace ChainState

variable (context : TxPoolContext)

def containsProposalId (id : ProposalShortId) : Bool :=
  context.proposalIds.contains id

def containsGap (id : ProposalShortId) : Bool :=
  context.proposalIds.containsGap id

/-- `verify_rtx`: with known cycles only the contextual checks run. -/
def verifyRtx (rtx : ResolvedTransaction) : Option Nat → Except PoolError Nat
  | some cycles => do
    context.contextualVerify rtx
    pure cycles
  | none => context.verify rtx

/-- `resolve_tx_from_pending_and_proposed`: the pending queue over the gap
over the proposed pool over the chain. -/
def resolveTxFromPendingAndProposed (txPool : TxPool) (tx : Transaction) :
    Except UnresolvableError ResolvedTransaction :=
  let proposedProvider := overlayCell txPool.proposed.cell context.cell
  let gapAndProposedProvider := overlayCell txPool.gap.cell proposedProvider
  let pendingAndProposedProvider := overlayCell txPool.pending.cell gapAndProposedProvider
  (resolveTransaction pendingAndProposedProvider context.header tx []).2

/-- `resolve_tx_from_proposed`: the proposed pool over the chain. -/
def resolveTxFromProposed (txPool : TxPool) (tx : Transaction) :
    Except UnresolvableError ResolvedTransaction :=
  (resolveTransaction (overlayCell txPool.proposed.cell context.cell) context.header tx []).2

/-- `proposed_tx`: a transaction that resolves against the proposed pool and
passes verification joins it.  One that spends a dead cell goes to the
conflict cache, one that waits for unknown cells to the orphan pool; each
failure takes the transaction out of the statistics, except where it was put
into a cache or pool that did not hold its id. -/
def proposedTx (txPool : TxPool) (cycles : Option Nat) (size : Nat) (tx : Transaction) :
    TxPool × Except PoolError Nat :=
  let shortId := tx.proposalShortId
  match resolveTxFromProposed context txPool tx with
  | .ok rtx =>
    match verifyRtx context rtx cycles with
    | .ok cycles =>
      match context.transactionFee rtx with
      | some fee => (txPool.addProposed cycles fee size tx, .ok cycles)
      | none => (txPool.updateStaticsForRemoveTx size cycles, .error .txFee)
    | .error e => (txPool.updateStaticsForRemoveTx size (cycles.getD 0), .error e)
  | .error err =>
    let txPool := match err with
      | .dead _ =>
        let (conflict, old) := LinkedMap.insertLru txPool.config.maxVerfifyCacheSize
          txPool.conflict shortId ⟨tx, 0, cycles, size⟩
        let txPool := { txPool with conflict }
        if old.isSome then txPool.updateStaticsForRemoveTx size (cycles.getD 0) else txPool
      | .unknown outPoints =>
        let (txPool, old) := txPool.addOrphan cycles size tx outPoints
        if old.isSome then txPool.updateStaticsForRemoveTx size (cycles.getD 0) else txPool
      | _ => txPool.updateStaticsForRemoveTx size (cycles.getD 0)
    (txPool, .error (.unresolvableTransaction err))

/-- `try_proposed_orphan_by_ancestor`: the orphans the transaction releases
are tried on the proposed pool when the proposal table holds the id of the
transaction, and go to the pending queue otherwise. -/
def tryProposedOrphanByAncestor (txPool : TxPool) (tx : Transaction) : Except String TxPool := do
  let (orphan, entries) ← txPool.orphan.removeByAncestor tx
  pure (entries.foldl (fun txPool entry =>
    if containsProposalId context tx.proposalShortId then
      match proposedTx context txPool entry.cycles entry.size entry.transaction with
      | (txPool, .ok _) => txPool
      | (txPool, .error _) => txPool.updateStaticsForRemoveTx entry.size (entry.cycles.getD 0)
    else (txPool.enqueueTx entry.cycles entry.size entry.transaction).1) { txPool with orphan })

def proposedTxAndDescendants (txPool : TxPool) (cycles : Option Nat) (size : Nat)
    (tx : Transaction) : Except String (TxPool × Except PoolError Nat) :=
  match proposedTx context txPool cycles size tx with
  | (txPool, .ok cycles) => do
    let txPool ← tryProposedOrphanByAncestor context txPool tx
    pure (txPool, .ok cycles)
  | (txPool, .error e) => pure (txPool, .error e)

/-- `add_tx_to_pool`: a verified transaction joins the proposed pool when it
is proposed and the pending queue otherwise, and is counted in the
statistics when it got there. -/
def addTxToPool (txPool : TxPool) (tx : Transaction) (cycles : Nat) :
    Except String (TxPool × Except PoolError Nat) :=
  let shortId := tx.proposalShortId
  let txSize := tx.serializedSize
  if txPool.reachSizeLimit txSize || txPool.reachCyclesLimit cycles then
    pure (txPool, .error .limitReached)
  else
    match resolveTxFromPendingAndProposed context txPool tx with
    | .error err => pure (txPool, .error (.unresolvableTransaction err))
    | .ok rtx =>
      match verifyRtx context rtx (some cycles) with
      | .error e => pure (txPool, .error e)
      | .ok cycles =>
        if containsProposalId context shortId then do
          match ← proposedTxAndDescendants context txPool (some cycles) txSize tx with
          | (txPool, .error e) => pure (txPool, .error e)
          | (txPool, .ok _) => pure (txPool.updateStaticsForAddTx txSize cycles, .ok cycles)
        else
          let (txPool, added) := txPool.enqueueTx (some cycles) txSize tx
          pure (if added then txPool.updateStaticsForAddTx txSize cycles else txPool, .ok cycles)

/-- One transaction of a detached block that no attached block holds:
proposed, in the gap, or pending, as the proposal table says; the verify
cache remembers the cycles of a transaction it did not know. -/
def retainTx (cacheCapacity : Nat) (state : TxPool × List (H256 × Nat)) (tx : Transaction) :
    Except String (TxPool × List (H256 × Nat)) :=
  let (txPool, txsVerifyCache) := state
  let cachedCycles := LinkedMap.get? txsVerifyCache tx.hash
  let txShortId := tx.proposalShortId
  let txSize := tx.serializedSize
  if containsProposalId context txShortId then do
    match ← proposedTxAndDescendants context txPool cachedCycles txSize tx with
    | (txPool, .ok cycles) =>
      let txsVerifyCache := if cachedCycles.isNone then
          (LinkedMap.insertLru cacheCapacity txsVerifyCache tx.hash cycles).1
        else txsVerifyCache
      pure (txPool.updateStaticsForAddTx txSize cycles, txsVerifyCache)
    | (txPool, .error _) => pure (txPool, txsVerifyCache)
  else if containsGap context txShortId then
    match txPool.addGap cachedCycles txSize tx with
    | (txPool, true) =>
      pure (txPool.updateStaticsForAddTx txSize (cachedCycles.getD 0), txsVerifyCache)
    | (txPool, false) => pure (txPool, txsVerifyCache)
  else
    match txPool.enqueueTx cachedCycles txSize tx with
    | (txPool, true) =>
      pure (txPool.updateStaticsForAddTx txSize (cachedCycles.getD 0), txsVerifyCache)
    | (txPool, false) => pure (txPool, txsVerifyCache)

/-- `update_tx_pool_for_reorg`: after the switch the pool drops what the
attached blocks committed, takes back what only the detached blocks held,
releases the orphans of committed transactions, and moves the gap, pending
and conflict entries that the proposal table now admits. -/
def updateTxPoolForReorg (txPool : TxPool) (detachedBlocks attachedBlocks : List Block)
    (detachedProposalId : List ProposalShortId) (txsVerifyCache : List (H256 × Nat))
    (cacheCapacity : Nat) : Except String (TxPool × List (H256 × Nat)) := do
  let detached := detachedBlocks.foldl (fun set blk => LinkedSet.extend set (blk.transactions.drop 1)) []
  let attached := attachedBlocks.foldl (fun set blk => LinkedSet.extend set (blk.transactions.drop 1)) []
  let retain := detached.filter (· ∉ attached)
  let txPool := txPool.removeExpired detachedProposalId
  let txPool ← txPool.removeCommittedTxsFromProposed attached
  let (txPool, txsVerifyCache) ←
    retain.foldlM (retainTx context cacheCapacity) (txPool, txsVerifyCache)
  let txPool ← attached.foldlM (tryProposedOrphanByAncestor context) txPool
  -- pending ---> gap ----> proposed
  let (gap, fromGap) := LinkedMap.extract txPool.gap.inner (containsProposalId context)
  let (pending, fromPending) := LinkedMap.extract txPool.pending.inner (containsProposalId context)
  let (pending, gapFromPending) := LinkedMap.extract pending (containsGap context)
  let (conflict, fromConflict) := LinkedMap.extract txPool.conflict (containsProposalId context)
  let (conflict, gapFromConflict) := LinkedMap.extract conflict (containsGap context)
  let entries := (fromGap ++ fromPending).map (fun entry => (entry.cycles, entry.size, entry.transaction)) ++
    fromConflict.map fun entry => (entry.cycles, entry.size, entry.transaction)
  let gaps := gapFromPending.map (fun entry => (entry.cycles, entry.size, entry.transaction)) ++
    gapFromConflict.map fun entry => (entry.cycles, entry.size, entry.transaction)
  let txPool := { txPool with gap := ⟨gap⟩, pending := ⟨pending⟩, conflict }
  let txPool ← entries.foldlM (fun txPool entry => do
    let (txPool, _) ← proposedTxAndDescendants context txPool entry.1 entry.2.1 entry.2.2
    pure txPool) txPool
  let txPool := gaps.foldl (fun txPool entry => (txPool.addGap entry.1 entry.2.1 entry.2.2).1) txPool
  pure (txPool, txsVerifyCache)

/-- The `take_while` of `get_proposed_txs`: the running totals include the
first entry refused. -/
def takeProposed (txsSizeLimit cyclesLimit : Nat) :
    List ProposedEntry → Nat → Nat → List ProposedEntry × Nat × Nat
  | [], size, cycles => ([], size, cycles)
  | entry :: rest, size, cycles =>
    let cycles := cycles + entry.cycles
    let size := size + entry.size
    if size < txsSizeLimit ∧ cycles < cyclesLimit then
      let (taken, size, cycles) := takeProposed txsSizeLimit cyclesLimit rest size cycles
      (entry :: taken, size, cycles)
    else ([], size, cycles)

/-- `get_proposed_txs`: the proposed pool in order, while the totals stay
below the limits. -/
def getProposedTxs (txPool : TxPool) (txsSizeLimit cyclesLimit : Nat) :
    List ProposedEntry × Nat × Nat :=
  takeProposed txsSizeLimit cyclesLimit txPool.proposed.txsIter 0 0

section Lemmas

variable {context : TxPoolContext} {txPool : TxPool} {cycles : Option Nat} {size : Nat}
  {tx : Transaction}

theorem proposedTx_ok_mem {accepted : Nat}
    (success : (proposedTx context txPool cycles size tx).2 = .ok accepted) :
    ∃ entry ∈ (proposedTx context txPool cycles size tx).1.proposed.txsIter,
      entry.transaction = tx := by
  unfold proposedTx at success ⊢
  cases resolved : resolveTxFromProposed context txPool tx with
  | error err =>
      simp only [resolved] at success
      cases success
  | ok rtx =>
      cases verified : verifyRtx context rtx cycles with
      | error e =>
          simp only [resolved, verified] at success
          cases success
      | ok verifiedCycles =>
          cases charged : context.transactionFee rtx with
          | none =>
              simp only [resolved, verified, charged] at success
              cases success
          | some fee =>
              simp only [verified, charged]
              obtain ⟨refsCount, member⟩ :=
                @ProposedPool.mem_addTx_txsIter txPool.proposed verifiedCycles size fee tx
              exact ⟨_, member, rfl⟩

/-- A transaction that waits for unknown cells, and is not an orphan yet,
becomes one, and nothing else of the pool changes. -/
theorem proposedTx_of_unknown {outPoints : List OutPoint}
    (waiting : resolveTxFromProposed context txPool tx = .error (.unknown outPoints))
    (fresh : txPool.orphan.containsKey tx.proposalShortId = false) :
    proposedTx context txPool cycles size tx =
      ((txPool.addOrphan cycles size tx outPoints).1,
        .error (.unresolvableTransaction (.unknown outPoints))) := by
  have noOld : (txPool.addOrphan cycles size tx outPoints).2 = none :=
    LinkedMap.get?_eq_none_of_contains_eq_false fresh
  unfold proposedTx
  rw [waiting]
  simp only [noOld, Option.isSome_none]
  rfl

end Lemmas

end ChainState

end Ckb
