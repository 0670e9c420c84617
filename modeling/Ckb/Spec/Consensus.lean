import Ckb.Core.Block

/-!
# Consensus parameters

The parameters of `spec/src/consensus.rs` that the reward calculator, the
contextual block verifier and the chain service read: the proposal window,
the proposer's share of a fee, the genesis epoch and the bootstrap lock.

The epoch transition `next_epoch_ext` adjusts difficulty and epoch length
from the headers of the last epoch; `Spec.Epoch` embeds its code over the
fields of `EpochConsensus`, and the chain store runs it on its own headers
and uncle counts.
-/

namespace Ckb

structure EpochExt where
  number : Nat
  blockReward : Capacity
  remainderReward : Capacity
  lastBlockHashInPreviousEpoch : H256
  startNumber : Nat
  length : Nat
  difficulty : Nat
  deriving DecidableEq, Repr

/-- The failures of `EpochExt::block_reward`: the overflow of the reward,
which it returns, and the panic of its `u64` sum. -/
inductive BlockRewardError where
  | capacity (error : CapacityError)
  | panic (message : String)
  deriving DecidableEq, Repr

/-- `EpochExt::block_reward`: the first `remainder_reward` blocks of the epoch
are paid one shannon more.  The end of those blocks is a `u64` sum, reached
only for a block at or after the start. -/
def EpochExt.blockRewardAt (epoch : EpochExt) (number : Nat) : Except BlockRewardError Capacity :=
  if epoch.startNumber ≤ number then do
    let remainderEnd ← (Checked.addOrPanic u64Bound epoch.startNumber
      epoch.remainderReward.shannons).mapError .panic
    if number < remainderEnd then (epoch.blockReward.safeAdd ⟨1⟩).mapError .capacity
    else pure epoch.blockReward
  else pure epoch.blockReward

/-- While the end of the remainder blocks is a `u64`, `block_reward` is the
plain comparison with it. -/
theorem EpochExt.blockRewardAt_of_lt {epoch : EpochExt}
    (fits : epoch.startNumber + epoch.remainderReward.shannons < u64Bound) (number : Nat) :
    epoch.blockRewardAt number =
      if epoch.startNumber ≤ number ∧ number < epoch.startNumber + epoch.remainderReward.shannons
      then (epoch.blockReward.safeAdd ⟨1⟩).mapError .capacity
      else pure epoch.blockReward := by
  have summed : Checked.addOrPanic u64Bound epoch.startNumber epoch.remainderReward.shannons =
      .ok (epoch.startNumber + epoch.remainderReward.shannons) :=
    Checked.addOrPanic_eq_ok_iff.mpr ⟨rfl, fits⟩
  unfold EpochExt.blockRewardAt
  by_cases started : epoch.startNumber ≤ number
  · simp only [started, summed, Except.mapError_ok, Except.ok_bind, true_and, if_true]
  · simp only [started, false_and, if_false]

/-- `ProposalWindow(closest, farthest)`.  `length` subtracts `closest` from
`farthest` in `u64`, so a window out of order would panic there; the windows
of a consensus keep the order. -/
structure ProposalWindow where
  closest : Nat
  farthest : Nat
  ordered : closest ≤ farthest

def ProposalWindow.length (window : ProposalWindow) : Nat :=
  window.farthest - window.closest + 1

/-- The fields of `Consensus` that the epoch transition reads: the genesis
header, whose difficulty is the minimum, and the reward of an epoch, a `u64`
amount. -/
structure EpochConsensus where
  genesisHeader : Header
  epochReward : Capacity
  epochRewardFits : epochReward.shannons < u64Bound

/-- `Consensus`: the genesis epoch ext is a field of its own, which
`ChainSpec::build_consensus` sets to the epoch it derives from the epoch
reward. -/
structure Consensus extends EpochConsensus where
  txProposalWindow : ProposalWindow
  proposerRewardRatio : Ratio
  secondaryEpochReward : Capacity
  genesisEpochExt : EpochExt
  bootstrapLock : Script

namespace Consensus

variable (consensus : Consensus)

def finalizationDelayLength : Nat :=
  consensus.txProposalWindow.farthest + 1

def reserveNumber : Nat :=
  consensus.finalizationDelayLength

/-- `Consensus::finalize_target`: the block whose reward the block at
`blockNumber` pays; the genesis block is never rewarded. -/
def finalizeTarget (blockNumber : Nat) : Option Nat :=
  if blockNumber < consensus.finalizationDelayLength then none
  else
    let finalizeTarget := blockNumber - consensus.finalizationDelayLength
    if finalizeTarget < 1 then none else some finalizeTarget

end Consensus

end Ckb
