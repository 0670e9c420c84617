import Ckb.Shared.ProposalTable
import Ckb.Chain.Service

/-!
# The proposal table against the commit check

The transaction pool asks the proposal table whether a transaction can be
committed by the next block; `CommitVerifier` decides whether the next block
may commit it.  The table's window for the tip `n` is the heights from
`n - farthest + 1` to `n - closest + 1`, with `u64` subtraction saturating at
zero; the verifier's window for the block at `n + 1` is the heights from
`n + 1 - farthest` to `n + 1 - closest` on the block's chain, the genesis
block excluded.  Once the tip reaches `closest` the two are one window.
Before that the verifier's window is empty, but the table's still holds
height 1.
-/

namespace Ckb

/-- While the tip is below `closest`, the table `init_proposal_ids` builds
lists what the block at height 1 proposed as committable, but the verifier
rejects every next block that commits it. -/
theorem initProposalIds_admits_uncommittable {consensus : Consensus} {store : ChainStore}
    {tipNumber : Nat} {hash : H256} {id : ProposalShortId} {block : Block} {genesis : Header}
    (started : 1 ≤ tipNumber) (beforeWindow : tipNumber < consensus.txProposalWindow.closest)
    (indexed : store.blockHash 1 = some hash) (proposed : id ∈ store.getProposalIdsByHash hash)
    (next : block.header.number = tipNumber + 1)
    (ancestor : store.getAncestor block.header.parentHash 0 = some genesis)
    (genesisStored : store.getBlockHeader genesis.hash = some genesis)
    (isGenesis : genesis.number = 0)
    (commits : id ∈ (block.transactions.drop 1).map Transaction.proposalShortId) :
    (ChainState.initProposalIds store consensus.txProposalWindow tipNumber).contains id = true ∧
      CommitVerifier.verify consensus store block = .error (.commit .invalid) := by
  have committing : block.transactions.drop 1 ≠ [] := by
    intro none
    rw [none] at commits
    cases commits
  refine ⟨ChainState.initProposalIds_contains_first started beforeWindow indexed proposed, ?_⟩
  exact CommitVerifier.verify_before_window (by omega) (by omega) ancestor genesisStored isGenesis
    committing

section Samples

/-- The samples' consensus with the window `(2, 10)` of the source's test of
`finalize`. -/
def earlyWindowConsensus : Consensus :=
  { shortWindowConsensus with txProposalWindow := ⟨2, 10, by decide⟩ }

/-- The genesis block and the new branch's first block, which proposes
`feePayer`, by `process_block` with verification. -/
def earlyWindowChain : Except String ChainService := do
  let service ← ChainService.init earlyWindowConsensus genesisBlock
  ChainService.processBlocks earlyWindowConsensus acceptingChecks true service [newBranchBlock 1]

def earlyWindowStore : ChainStore :=
  match earlyWindowChain with
  | .ok service => service.store
  | .error _ => ChainStore.empty

end Samples

/-- With the tip at height 1, which proposed `feePayer`, the table lists it
as committable while the second block of the new branch, which commits it,
is rejected. -/
theorem earlyWindow_admits_feePayer :
    earlyWindowChain.map (·.tip.hash) = .ok (newBranchBlock 1).header.hash ∧
      (ChainState.initProposalIds earlyWindowStore earlyWindowConsensus.txProposalWindow 1).contains
          feePayer.proposalShortId = true ∧
        CommitVerifier.verify earlyWindowConsensus earlyWindowStore (newBranchBlock 2) =
          .error (.commit .invalid) :=
  ⟨by decide +kernel, @initProposalIds_admits_uncommittable earlyWindowConsensus earlyWindowStore 1
    (newBranchBlock 1).header.hash feePayer.proposalShortId (newBranchBlock 2) genesisBlock.header
    (by decide +kernel) (by decide +kernel) (by decide +kernel) (by decide +kernel) (by decide +kernel) (by decide +kernel) (by decide +kernel)
    (by decide +kernel) (by decide +kernel)⟩

end Ckb
