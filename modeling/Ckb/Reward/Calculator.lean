import Ckb.Store.ChainStore
import Ckb.Script.Verify

/-!
# The block reward calculator

A model of `util/reward-calculator/src/lib.rs`.  The block at height `n`
pays the reward of its finalize target, the block at `n - (farthest + 1)`
on its chain: the base reward of the target's epoch, the committer's part of
the fees the target committed, and the proposer's part of the fees of the
transactions that the target proposed first and that the blocks up to the
parent committed.

Every read goes to the store the calculator is given: the target's fees come
from its stored `BlockExt`, and the competing proposals of earlier heights
come through the main-chain number index.  Hash sets are lists; `remove` and
`contains` keep their set meaning.  A panic is an error that carries the
source's message.
-/

namespace Ckb

/-- `Script::from_witness`: the first argument is the code hash, the rest are
the arguments. -/
def Script.fromWitness (witness : Witness) : Option Script :=
  match witness with
  | [] => none
  | codeHash :: args => (H256.fromSlice codeHash).map fun codeHash => ⟨args, codeHash⟩

/-- The errors of the calculator: `Error::Target`, `Error::Script`, a
capacity overflow, and a panic. -/
inductive RewardError where
  | target (blockNumber : Nat)
  | script (hash : H256)
  | capacity (error : CapacityError)
  | panic (message : String)
  deriving DecidableEq, Repr

def RewardError.ofBlockReward : BlockRewardError → RewardError
  | .capacity error => .capacity error
  | .panic message => .panic message

namespace RewardCalculator

variable (consensus : Consensus) (store : ChainStore)

/-- The committer's part of one fee: what the proposer's ratio leaves. -/
def minerFee (txFee : Capacity) : Except CapacityError Capacity := do
  let proposer ← txFee.safeMulRatio consensus.proposerRewardRatio
  txFee.safeSub proposer

/-- `txs_fees`: the committer's parts of the fees stored with the target. -/
def txsFees (target : Header) : Except RewardError Capacity := do
  let targetExt ← (store.getBlockExt target.hash).getDM (.error (.panic "block body stored"))
  (targetExt.txsFees.foldlM (fun acc txFee => minerFee consensus txFee >>= acc.safeAdd)
    Capacity.zero).mapError .capacity

/-- The commits of a stored block: the hashes of its transactions after the
cellbase, as proposal ids, zipped with the fees of its ext. -/
def blockCommits (hash : H256) : Except RewardError (List (ProposalShortId × Capacity)) := do
  let txsHashes ← (store.getBlockTxsHashes hash).getDM (.error (.panic "block body stored"))
  let ext ← (store.getBlockExt hash).getDM (.error (.panic "block body stored"))
  pure (((txsHashes.drop 1).map ProposalShortId.fromTxHash).zip ext.txsFees)

/-- The `for` loop of `proposal_reward` over the commits of one block.  A
commit is taken out of the target's proposals (`remove`); it earns the
proposer's ratio of its fee when it was there and no competing proposal in
`proposed` has it.  The loop over the parent's commits is this loop with no
competing proposals. -/
def rewardCommits (proposed : List ProposalShortId) :
    List (ProposalShortId × Capacity) → List ProposalShortId → Capacity →
      Except RewardError (List ProposalShortId × Capacity)
  | [], targetProposals, reward => .ok (targetProposals, reward)
  | (id, txFee) :: commits, targetProposals, reward =>
    let removed := targetProposals.contains id
    let remaining := targetProposals.filter (· != id)
    if removed && !proposed.contains id then do
      let share ← (txFee.safeMulRatio consensus.proposerRewardRatio).mapError .capacity
      let reward ← (reward.safeAdd share).mapError .capacity
      rewardCommits proposed commits remaining reward
    else
      rewardCommits proposed commits remaining reward

/-- The `while` loop of `proposal_reward`: from `index` down to
`competingCommitStart`, one parent per step, each step adding the proposals
of the height `competing_proposal_start` of the main chain to `proposed`
before it reads the commits of the new `index`.  It runs at most `fuel` times;
`proposal_reward` gives it the parent's number, which suffices when every
stored parent is one height below its child. -/
def competingRewards (competingCommitStart : Nat) :
    Nat → Header → List ProposalShortId → List ProposalShortId → Capacity →
      Except RewardError Capacity
  | 0, _, _, _, reward => .ok reward
  | fuel + 1, index, proposed, targetProposals, reward =>
    if index.number > competingCommitStart then do
      let index ← (store.getBlockHeader index.parentHash).getDM (.error (.panic "header stored"))
      let competingProposalStart := max (index.number - consensus.txProposalWindow.farthest) 1
      let hash ← (store.blockHash competingProposalStart).getDM
        (.error (.panic "finalize target exist"))
      let proposed := proposed ++ store.getProposalIdsByHash hash
      let commits ← blockCommits store index.hash
      let (targetProposals, reward) ←
        rewardCommits consensus proposed commits targetProposals reward
      competingRewards competingCommitStart fuel index proposed targetProposals reward
    else
      .ok reward

/-- `proposal_reward`: the proposer's parts earned by the target's
proposals among the commits from the parent down to the first height that
can commit them. -/
def proposalReward (parent target : Header) : Except RewardError Capacity := do
  let targetProposals := store.getProposalIdsByHash target.hash
  let proposalWindow := consensus.txProposalWindow
  let blockNumber := parent.number + 1
  let competingCommitStart :=
    max (blockNumber - proposalWindow.length) (1 + proposalWindow.closest)
  let commits ← blockCommits store parent.hash
  let (targetProposals, reward) ←
    rewardCommits consensus [] commits targetProposals Capacity.zero
  competingRewards consensus store competingCommitStart parent.number parent [] targetProposals
    reward

/-- `base_block_reward`: the reward of the target's epoch, the epoch that
follows the target's parent. -/
def baseBlockReward (target : Header) : Except RewardError Capacity := do
  let targetParentEpoch ← (store.blockEpoch target.parentHash).getDM
    (.error (.panic "target parent exist"))
  let targetParent ← (store.getBlockHeader target.parentHash).getDM
    (.error (.panic "target parent exist"))
  let nextEpoch ← (store.nextEpochExt consensus targetParentEpoch targetParent).mapError .panic
  let epoch := nextEpoch.getD targetParentEpoch
  (epoch.blockRewardAt target.number).mapError RewardError.ofBlockReward

/-- `block_reward`: the lock of the finalize target's cellbase and the
reward it is owed, for the block that follows `parent`. -/
def blockReward (parent : Header) : Except RewardError (Script × Capacity) := do
  let blockNumber := parent.number + 1
  let targetNumber ← (consensus.finalizeTarget blockNumber).getDM (.error (.target blockNumber))
  let target ← (store.getAncestor parent.hash targetNumber).getDM (.error (.target blockNumber))
  let cellbase ← (store.getCellbase target.hash).mapError .panic
  let cellbase ← cellbase.getDM (.error (.panic "target cellbase exist"))
  let witness ← cellbase.witnesses.head?.getDM
    (.error (.panic "index out of bounds: the len is 0 but the index is 0"))
  let targetLock ← (Script.fromWitness witness).getDM (.error (.script target.hash))
  let txsFees ← txsFees consensus store target
  let proposalReward ← proposalReward consensus store parent target
  let baseBlockReward ← baseBlockReward consensus store target
  let reward ← (txsFees.safeAdd proposalReward >>= fun reward =>
    reward.safeAdd baseBlockReward).mapError .capacity
  pure (targetLock, reward)

section Lemmas

variable {consensus : Consensus} {store : ChainStore}

/-- The proposer's part of a fee of `fee` shannons: `safe_mul_ratio` with
the proposer's ratio. -/
def proposerShare (consensus : Consensus) (fee : Nat) : Nat :=
  fee * consensus.proposerRewardRatio.numer / consensus.proposerRewardRatio.denom

end Lemmas

end RewardCalculator

end Ckb
