import Ckb.Spec.Epoch
import Ckb.Script.Verify

/-!
# Issuance and the DAO rate

`calculate_g2` and `calculate_dao_data` (`util/dao/src/lib.rs`), which
`insert_block` runs on the parent of every new block, and the DAO stats that
`ChainKVStore::init` (`store/src/store.rs`) writes for the genesis block.

Each block issues the primary reward `block_reward` and the secondary reward
`calculate_g2`, the secondary epoch reward split over the epoch with the whole
remainder paid to its first block.  Over an epoch that the genesis spec or
`next_epoch_ext` opens, both add up to their epoch rewards exactly
(`epoch_issuance_exact`).

The accumulated rate grows by the share of the secondary reward in the
accumulated capacity.  The `u128` product of two `u64` values cannot overflow,
and `as u64` keeps the low 64 bits of the quotient, so the rate is exact only
while the quotient fits.  A genesis block that issues no cells leaves the
capacity at zero, and the first rate is then the whole rate times the
secondary reward, far above `2 ^ 64`.
-/

namespace Ckb

/-- `DEFAULT_ACCUMULATED_RATE`: one, scaled by `10 ^ 16`. -/
def defaultAccumulatedRate : Nat := 10000000000000000

/-- The errors of `calculate_g2` and `calculate_dao_data`: an overflow of a
capacity sum, and a panic of the source with its message. -/
inductive DaoError where
  | capacity (error : CapacityError)
  | panic (message : String)
  deriving DecidableEq, Repr

def DaoError.ofBlockReward : BlockRewardError → DaoError
  | .capacity error => .capacity error
  | .panic message => .panic message

def calculateG2 (blockNumber : Nat) (currentEpochExt : EpochExt) (secondaryEpochReward : Capacity) :
    Except DaoError Capacity :=
  let epochLength := currentEpochExt.length
  if epochLength = 0 then .error (.panic "attempt to divide by zero")
  else
    let g2 : Capacity := ⟨secondaryEpochReward.shannons / epochLength⟩
    if currentEpochExt.startNumber = blockNumber then
      (g2.safeAdd ⟨secondaryEpochReward.shannons % epochLength⟩).mapError .capacity
    else pure g2

/-- `calculate_dao_data`: the accumulated rate and capacity of a block from
its parent's. -/
def calculateDaoData (parentBlockNumber : Nat) (parentBlockEpochExt : EpochExt)
    (parentDaoStats : DaoStats) (secondaryEpochReward : Capacity) :
    Except DaoError (Nat × Capacity) := do
  let parentC : Capacity := ⟨parentDaoStats.accumulatedCapacity⟩
  let parentG2 ← calculateG2 parentBlockNumber parentBlockEpochExt secondaryEpochReward
  let parentBlockReward ←
    (parentBlockEpochExt.blockRewardAt parentBlockNumber).mapError DaoError.ofBlockReward
  let parentG ← (parentBlockReward.safeAdd parentG2).mapError .capacity
  let currentC ← (parentC.safeAdd parentG).mapError .capacity
  let parentAr := parentDaoStats.accumulatedRate
  let grownC ← (parentC.safeAdd parentG2).mapError .capacity
  let currentAr := parentAr * grownC.shannons / max parentC.shannons 1
  pure (currentAr % u64Bound, currentC)

/-- The DAO stats of the genesis block's ext: the rate one, and the capacity
of the genesis cellbase's outputs after the first. -/
def genesisDaoStats (genesis : Block) : Except String DaoStats := do
  let accumulatedCapacity ←
    match genesis.transactions.head? with
    | none => pure Capacity.zero
    | some cellbase =>
      ((cellbase.outputs.drop 1).foldlM
        (fun (capacity : Capacity) output => capacity.safeAdd output.capacity)
        Capacity.zero).mapError fun _ => "accumulated capacity in genesis block should not overflow"
  pure ⟨defaultAccumulatedRate, accumulatedCapacity.shannons⟩

theorem quotient_add_remainder_le (reward : Nat) {length : Nat} (positive : 0 < length) :
    reward / length + reward % length ≤ reward := by
  have split := Nat.div_add_mod reward length
  have scaled : reward / length ≤ length * (reward / length) := Nat.le_mul_of_pos_left _ positive
  omega

section Issuance

variable {epoch : EpochExt} {secondaryEpochReward : Capacity}

/-- `calculate_g2` in an epoch of positive length: the quotient of the
secondary epoch reward by the length, with the remainder at the start
block. -/
theorem calculateG2_eq (fits : secondaryEpochReward.shannons < u64Bound)
    (positive : 0 < epoch.length) (blockNumber : Nat) :
    calculateG2 blockNumber epoch secondaryEpochReward =
      pure ⟨secondaryEpochReward.shannons / epoch.length +
        if epoch.startNumber = blockNumber then secondaryEpochReward.shannons % epoch.length
        else 0⟩ := by
  have whole := quotient_add_remainder_le secondaryEpochReward.shannons positive
  unfold calculateG2
  rw [if_neg (Nat.pos_iff_ne_zero.mp positive)]
  by_cases start : epoch.startNumber = blockNumber
  · have added : (⟨secondaryEpochReward.shannons / epoch.length⟩ : Capacity).safeAdd
        ⟨secondaryEpochReward.shannons % epoch.length⟩ =
        .ok ⟨secondaryEpochReward.shannons / epoch.length +
          secondaryEpochReward.shannons % epoch.length⟩ :=
      Capacity.safeAdd_eq_ok_iff.mpr ⟨rfl, by dsimp only; omega⟩
    simp only [if_pos start, added, Except.mapError_ok]
    rfl
  · simp only [if_neg start, Nat.add_zero]

theorem calculateG2_sum (fits : secondaryEpochReward.shannons < u64Bound)
    (positive : 0 < epoch.length) :
    ∃ g2s, (List.range' epoch.startNumber epoch.length).mapM
        (fun number => calculateG2 number epoch secondaryEpochReward) = .ok g2s ∧
      (g2s.map Capacity.shannons).sum = secondaryEpochReward.shannons := by
  refine ⟨_, List.mapM_eq_pure_map fun number _ => calculateG2_eq fits positive number, ?_⟩
  obtain ⟨rest, lengthEq⟩ : ∃ rest, epoch.length = rest + 1 := ⟨epoch.length - 1, by omega⟩
  have split := Nat.div_add_mod secondaryEpochReward.shannons epoch.length
  rw [List.map_map]
  rw [lengthEq] at split ⊢
  have later : ∀ number ∈ List.range' (epoch.startNumber + 1) rest,
      (Capacity.shannons ∘ fun number => (⟨secondaryEpochReward.shannons / (rest + 1) +
        if epoch.startNumber = number then secondaryEpochReward.shannons % (rest + 1)
        else 0⟩ : Capacity)) number = secondaryEpochReward.shannons / (rest + 1) := by
    intro number member
    rw [List.mem_range'_1] at member
    simp only [Function.comp_apply, if_neg (show epoch.startNumber ≠ number by omega),
      Nat.add_zero]
  rw [List.range'_succ, List.map_cons, List.sum_cons, List.map_congr_left later, List.map_const',
    List.sum_replicate, List.length_range', smul_eq_mul]
  simp only [Function.comp_apply]
  calc secondaryEpochReward.shannons / (rest + 1) + secondaryEpochReward.shannons % (rest + 1) +
        rest * (secondaryEpochReward.shannons / (rest + 1))
      = (rest + 1) * (secondaryEpochReward.shannons / (rest + 1)) +
          secondaryEpochReward.shannons % (rest + 1) := by ring
    _ = secondaryEpochReward.shannons := split

end Issuance

/-- Over every epoch that the genesis spec or `next_epoch_ext` opens, from any
last epoch and header, `block_reward` pays exactly the epoch reward and
`calculate_g2` exactly the secondary epoch reward, and neither fails, as long
as the end of the blocks paid the remainder is a `u64`. -/
theorem epoch_issuance_exact (consensus : EpochConsensus) {epoch : EpochExt}
    (produced : epoch = consensus.genesisEpochExt ∨
      ∃ lastEpoch header getBlockHeader totalUnclesCount,
        consensus.nextEpochExt lastEpoch header getBlockHeader totalUnclesCount = .ok (some epoch))
    (secondaryEpochReward : Capacity) (fits : secondaryEpochReward.shannons < u64Bound)
    (remainderEndFits : epoch.startNumber + epoch.remainderReward.shannons < u64Bound) :
    (∃ rewards, (List.range' epoch.startNumber epoch.length).mapM epoch.blockRewardAt =
        .ok rewards ∧ (rewards.map Capacity.shannons).sum = consensus.epochReward.shannons) ∧
      ∃ g2s, (List.range' epoch.startNumber epoch.length).mapM
          (fun number => calculateG2 number epoch secondaryEpochReward) = .ok g2s ∧
        (g2s.map Capacity.shannons).sum = secondaryEpochReward.shannons := by
  have splits : consensus.SplitsReward epoch := by
    rcases produced with rfl | ⟨lastEpoch, header, getBlockHeader, totalUnclesCount, next⟩
    · exact EpochConsensus.genesisEpochExt_splitsReward
    · exact EpochConsensus.nextEpochExt_splitsReward next
  exact ⟨splits.blockRewards remainderEndFits, calculateG2_sum fits splits.length_pos⟩

/-- The dev chain's genesis epoch, with its secondary epoch reward of 600,000
bytes. -/
theorem devGenesisEpoch_issuance_exact :
    (∃ rewards, (List.range' devEpochConsensus.genesisEpochExt.startNumber
        devEpochConsensus.genesisEpochExt.length).mapM
          devEpochConsensus.genesisEpochExt.blockRewardAt = .ok rewards ∧
        (rewards.map Capacity.shannons).sum = devEpochConsensus.epochReward.shannons) ∧
      ∃ g2s, (List.range' devEpochConsensus.genesisEpochExt.startNumber
          devEpochConsensus.genesisEpochExt.length).mapM
            (fun number => calculateG2 number devEpochConsensus.genesisEpochExt
              ⟨60000000000000⟩) = .ok g2s ∧
        (g2s.map Capacity.shannons).sum = 60000000000000 :=
  epoch_issuance_exact devEpochConsensus (.inl rfl) ⟨60000000000000⟩ (by decide) (by decide)

/-- The last epoch of the dev chain's numbers: it ends with the block at
`2 ^ 64 - 2`. -/
def lastDevEpoch : EpochExt :=
  ⟨7, ⟨69444444444⟩, ⟨800⟩, ⟨5⟩, u64Bound - 1 - maxEpochLength, maxEpochLength, 0x100⟩

def lastDevClosingHeader : Header :=
  ⟨u64Bound - 2, 7, 5000000, 0x100, ⟨6⟩, ⟨8⟩⟩

/-- Closed with no uncles, that epoch opens one at block `2 ^ 64 - 1` with a
remainder of 800 shannons, and `block_reward` of its first block panics on the
`u64` sum `start_number + remainder_reward`. -/
theorem lastDevEpoch_reward_panics :
    ∃ epoch, devEpochConsensus.nextEpochExt lastDevEpoch lastDevClosingHeader
        (fun _ => some devEpochConsensus.genesisHeader) (fun _ => some 0) = .ok (some epoch) ∧
      epoch.startNumber = u64Bound - 1 ∧ epoch.remainderReward = ⟨800⟩ ∧
      (List.range' epoch.startNumber epoch.length).mapM epoch.blockRewardAt =
        .error (.panic "attempt to add with overflow") := by
  refine ⟨devEpochConsensus.epochAfter lastDevEpoch lastDevClosingHeader maxEpochLength 0x100,
    ?_, ?_, ?_, ?_⟩ <;> decide +kernel

section Rate

variable {parentBlockNumber : Nat} {parentBlockEpochExt : EpochExt} {parentDaoStats : DaoStats}
  {secondaryEpochReward : Capacity} {rate : Nat} {capacity : Capacity}

end Rate

/-- A genesis block with no transactions, as `Consensus::default` builds it. -/
def emptyGenesisBlock : Block :=
  ⟨devEpochConsensus.genesisHeader, [], [], []⟩

/-- From a genesis block that issues no cells, the first block's rate is the
exact rate `10 ^ 16 * 48,000,000,000` cut to its low 64 bits; with a secondary
epoch reward of `1250 * 2 ^ 48` shannons the cut rate is zero. -/
theorem emptyGenesis_dao_rate_truncated :
    genesisDaoStats emptyGenesisBlock = .ok ⟨defaultAccumulatedRate, 0⟩ ∧
      calculateG2 0 devEpochConsensus.genesisEpochExt ⟨60000000000000⟩ = .ok ⟨48000000000⟩ ∧
      calculateDaoData 0 devEpochConsensus.genesisEpochExt ⟨defaultAccumulatedRate, 0⟩
          ⟨60000000000000⟩ = .ok (2576126666413703168, ⟨148000000000⟩) ∧
      2576126666413703168 ≠ defaultAccumulatedRate * (0 + 48000000000) / max 0 1 ∧
      calculateDaoData 0 devEpochConsensus.genesisEpochExt ⟨defaultAccumulatedRate, 0⟩
          ⟨1250 * 2 ^ 48⟩ = .ok (0, ⟨281574976710656⟩) := by
  decide +kernel

end Ckb
