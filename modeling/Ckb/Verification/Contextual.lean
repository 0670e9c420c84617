import Ckb.Reward.Calculator
import Ckb.Core.BlockResolution

/-!
# The contextual block verifier

A model of `verification/src/contextual_block_verifier.rs`: the checks a
block passes against the chain before `reconcile_main_chain` attaches it.
`CommitVerifier` and `RewardVerifier` read the committed store through the
shared provider, and are embedded.  The uncles verifier, the verifier of the
block's transactions, the fee of a transaction and the providers through which
transactions are resolved against a fork are not: `BlockChecks` takes them as
functions of what the source passes them.  Cycles are only logged and are
left out.
-/

namespace Ckb

inductive CommitError where
  | ancestorNotFound
  | invalid
  deriving DecidableEq, Repr

inductive CellbaseError where
  | invalidRewardAmount
  | invalidRewardTarget
  deriving DecidableEq, Repr

/-- The errors of the contextual checks, and a panic with its message. -/
inductive VerifyError where
  | unknownParent (hash : H256)
  | uncles
  | commit (error : CommitError)
  | cellbase (error : CellbaseError)
  | capacityOverflow
  | cannotFetchBlockReward
  | feeCalculation
  | transactions
  | panic (message : String)
  deriving DecidableEq, Repr

/-- `finalize_block_reward(..).map_err(|_| Error::CannotFetchBlockReward)`:
every error of the calculator becomes `CannotFetchBlockReward`, but a panic
stays a panic. -/
def VerifyError.ofReward : RewardError → VerifyError
  | .panic message => .panic message
  | _ => .cannotFetchBlockReward

/-- `ForkContext`: the blocks of a chain switch attached before the block
being verified, and the blocks it detaches. -/
structure ForkContext where
  attachedBlocks : List Block
  detachedBlocks : List Block

/-- The checks of block processing whose code the model does not embed, each
a function of what the source passes it. -/
structure BlockChecks where
  /-- `BlockVerifier::verify`, the checks of a block on its own. -/
  verifyBlock : Block → Bool
  /-- `ChainCellSetOverlay::cell`: the cell set of the tip with the fork's
  diff applied. -/
  cellProvider : ChainStore → ForkContext → OutPoint → CellStatus
  /-- `OverlayHeaderProvider::header` over the fork's headers and the chain. -/
  headerProvider : ChainStore → ForkContext → Block → OutPoint → HeaderStatus
  /-- `UnclesVerifier::verify`. -/
  verifyUncles : ChainStore → ForkContext → EpochExt → Block → Bool
  /-- `BlockTxsVerifier::verify`. -/
  verifyTransactions : ChainStore → ForkContext → Block → List ResolvedTransaction → Bool
  /-- `calculate_transaction_fee` over the store's data loader. -/
  transactionFee : ChainStore → ResolvedTransaction → Option Capacity

section Verifiers

variable (consensus : Consensus) (store : ChainStore) (checks : BlockChecks)

namespace CommitVerifier

/-- The `while` loop of `CommitVerifier::verify`: the proposals of the
blocks from `blockHash` down, one per height from `proposalEnd` down to
`proposalStart`, stopping at the genesis block. -/
def collectProposals (proposalStart : Nat) :
    Nat → H256 → List ProposalShortId → Except VerifyError (List ProposalShortId)
  | proposalEnd, blockHash, proposalTxsIds =>
    if proposalEnd ≥ proposalStart then do
      let header ← (store.getBlockHeader blockHash).getDM (.error (.commit .ancestorNotFound))
      if header.isGenesis then return proposalTxsIds
      let proposalTxsIds := proposalTxsIds ++ store.getProposalIdsByHash blockHash
      match proposalEnd with
      | 0 => .error (.panic "attempt to subtract with overflow")
      | proposalEnd + 1 => collectProposals proposalStart proposalEnd header.parentHash proposalTxsIds
    else
      .ok proposalTxsIds

/-- `CommitVerifier::verify`: every transaction the block commits, the
cellbase apart, was proposed in its window on the block's chain. -/
def verify (block : Block) : Except VerifyError Unit := do
  if block.isGenesis then return ()
  let blockNumber := block.header.number
  let proposalWindow := consensus.txProposalWindow
  let proposalStart := blockNumber - proposalWindow.farthest
  let proposalEnd := blockNumber - proposalWindow.closest
  let blockHash ← ((store.getAncestor block.header.parentHash proposalEnd).map Header.hash).getDM
    (.error (.commit .ancestorNotFound))
  let proposalTxsIds ← collectProposals store proposalStart proposalEnd blockHash []
  let committedIds := (block.transactions.drop 1).map Transaction.proposalShortId
  if committedIds.any fun id => !proposalTxsIds.contains id then .error (.commit .invalid)

end CommitVerifier

/-- The error of `resolved[0]` and `outputs()[0]` on an empty list. -/
def indexPanic : String := "index out of bounds: the len is 0 but the index is 0"

/-- `RewardVerifier::verify`: the cellbase pays the finalize target's reward
to the target's lock (the genesis epoch's reward to the bootstrap lock while
no block is finalized yet); the fees of the other transactions are the
result. -/
def RewardVerifier.verify (resolved : List ResolvedTransaction) (parent : Header) :
    Except VerifyError (List Capacity) := do
  let cellbase ← resolved.head?.getDM (.error (.panic indexPanic))
  if parent.number + 1 > consensus.reserveNumber then
    let (targetLock, blockReward) ←
      (RewardCalculator.blockReward consensus store parent).mapError VerifyError.ofReward
    let outputsCapacity ← cellbase.transaction.outputsCapacity.mapError fun _ => .capacityOverflow
    if outputsCapacity ≠ blockReward then .error (.cellbase .invalidRewardAmount)
    let output ← cellbase.transaction.outputs.head?.getDM (.error (.panic indexPanic))
    if output.lock ≠ targetLock then .error (.cellbase .invalidRewardTarget)
  else
    let outputsCapacity ← cellbase.transaction.outputsCapacity.mapError fun _ => .capacityOverflow
    let blockReward ← (consensus.genesisEpochExt.blockRewardAt (parent.number + 1)).mapError
      fun
        | .capacity _ => .cannotFetchBlockReward
        | .panic message => .panic message
    if outputsCapacity ≠ blockReward then .error (.cellbase .invalidRewardAmount)
    let output ← cellbase.transaction.outputs.head?.getDM (.error (.panic indexPanic))
    if output.lock ≠ consensus.bootstrapLock then .error (.cellbase .invalidRewardTarget)
  (resolved.drop 1).mapM fun tx => (checks.transactionFee store tx).getDM (.error .feeCalculation)

/-- `prepare_epoch_ext`: the epoch of the block that follows `parent`. -/
def prepareEpochExt (parent : Header) : Except VerifyError EpochExt := do
  let parentExt ← (store.blockEpoch parent.hash).getDM (.error (.unknownParent parent.hash))
  let nextEpoch ← (store.nextEpochExt consensus parentExt parent).mapError .panic
  pure (nextEpoch.getD parentExt)

/-- `ContextualBlockVerifier::verify`, returning the fees `RewardVerifier`
computed. -/
def ContextualBlockVerifier.verify (context : ForkContext) (resolved : List ResolvedTransaction)
    (block : Block) : Except VerifyError (List Capacity) := do
  let parentHash := block.header.parentHash
  let parent ← (store.getBlockHeader parentHash).getDM (.error (.unknownParent parentHash))
  let epochExt ← (if block.isGenesis then pure consensus.genesisEpochExt
    else prepareEpochExt consensus store parent)
  if !checks.verifyUncles store context epochExt block then .error .uncles
  CommitVerifier.verify consensus store block
  let txsFees ← RewardVerifier.verify consensus store checks resolved parent
  if !checks.verifyTransactions store context block resolved then .error .transactions
  pure txsFees

end Verifiers

section Lemmas

variable {consensus : Consensus} {store : ChainStore} {checks : BlockChecks}

/-- Once blocks are finalized, `RewardVerifier` passes only if the cellbase
pays the calculator's reward to the lock it names. -/
theorem RewardVerifier.verify_ok {resolved : List ResolvedTransaction} {parent : Header}
    {txsFees : List Capacity}
    (success : RewardVerifier.verify consensus store checks resolved parent = .ok txsFees)
    (finalized : consensus.reserveNumber < parent.number + 1) :
    ∃ cellbase targetLock blockReward output, resolved.head? = some cellbase ∧
      RewardCalculator.blockReward consensus store parent = .ok (targetLock, blockReward) ∧
      cellbase.transaction.outputsCapacity = .ok blockReward ∧
      cellbase.transaction.outputs.head? = some output ∧ output.lock = targetLock := by
  simp only [RewardVerifier.verify, gt_iff_lt, if_pos finalized, Except.bind_eq_ok,
    Except.getDM_error_eq_ok, Except.ite_error_eq_ok, Except.error_bind, Except.mapError_eq_ok,
    Prod.exists, not_not] at success
  obtain ⟨cellbase, first, targetLock, blockReward, rewarded, outputs, summed, paid, output,
    head, locked, -⟩ := success
  exact ⟨cellbase, targetLock, blockReward, output, first, rewarded, paid ▸ summed, head, locked⟩

theorem ContextualBlockVerifier.verify_ok {context : ForkContext}
    {resolved : List ResolvedTransaction} {block : Block} {txsFees : List Capacity}
    (success : ContextualBlockVerifier.verify consensus store checks context resolved block =
      .ok txsFees) :
    ∃ parent, store.getBlockHeader block.header.parentHash = some parent ∧
      CommitVerifier.verify consensus store block = .ok () ∧
      RewardVerifier.verify consensus store checks resolved parent = .ok txsFees := by
  simp only [ContextualBlockVerifier.verify, Except.bind_eq_ok, Except.getDM_error_eq_ok,
    Except.ite_error_eq_ok, Except.error_bind, Except.pure_eq_ok] at success
  obtain ⟨parent, stored, -, -, -, ⟨⟩, committed, fees, rewarded, -, rfl⟩ := success
  exact ⟨parent, stored, committed, rewarded⟩

/-- A block at a height up to `closest` can commit nothing: its window ends
at the genesis block, where the walk stops with no proposal. -/
theorem CommitVerifier.verify_before_window {block : Block} {genesis : Header}
    (started : block.header.number ≠ 0)
    (beforeWindow : block.header.number ≤ consensus.txProposalWindow.closest)
    (ancestor : store.getAncestor block.header.parentHash 0 = some genesis)
    (genesisStored : store.getBlockHeader genesis.hash = some genesis)
    (isGenesis : genesis.number = 0) (commits : block.transactions.drop 1 ≠ []) :
    CommitVerifier.verify consensus store block = .error (.commit .invalid) := by
  have closeBelow := consensus.txProposalWindow.ordered
  have startZero : block.header.number - consensus.txProposalWindow.farthest = 0 := by omega
  have endZero : block.header.number - consensus.txProposalWindow.closest = 0 := by omega
  have collected : CommitVerifier.collectProposals store 0 0 genesis.hash [] = .ok [] := by
    simp [CommitVerifier.collectProposals, genesisStored, Header.isGenesis, isGenesis]
  -- one committed transaction is enough for the empty window to reject the block
  obtain ⟨tx, member⟩ := List.exists_mem_of_ne_nil _ commits
  simp only [CommitVerifier.verify, Block.isGenesis, Header.isGenesis, startZero, endZero,
    ancestor]
  simp only [beq_iff_eq, started, if_false, Option.map_some, Option.getDM, pure_bind,
    List.any_eq_true]
  rw [collected, Except.ok_bind, if_pos ⟨tx.proposalShortId, List.mem_map_of_mem member, rfl⟩]

end Lemmas

end Ckb
