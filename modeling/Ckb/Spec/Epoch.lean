import Ckb.Spec.Consensus

/-!
# The epoch transition

`Consensus::next_epoch_ext` (`spec/src/consensus.rs`): when a header closes
its epoch, the length and the difficulty of the next epoch are adjusted from
the uncles and the duration of the epoch it closes, and the epoch reward is
split over the blocks of the next epoch.  The genesis epoch is the one
`ChainSpec::build_consensus` (`spec/src/lib.rs`) builds.

Headers and uncle counts come from the store through the two closures of the
source, `get_block_header` and `total_uncles_count`.  The `u64` arithmetic is
checked, as the release profile's `overflow-checks` makes it; difficulties are
`U256` values, unbounded here, whose division by zero panics.  Block and epoch
numbers stay below `2 ^ 64 - 1`, and their successors are not checked, as
elsewhere in the model.  `epoch_duration_target` and
`orphan_rate_target_recip` are fields of `Consensus` that no code sets after
`Consensus::default`, so they are the constants below; the fields that are set
are those of `EpochConsensus`.

A chain passes `EpochVerifier`, so the header that closes an epoch carries the
epoch's difficulty.  Along such chains every epoch is between the minimum and
the maximum length and no easier than the genesis block
(`reached_epochs_bounded`).  The clamp `revision_epoch_difficulty` alone does
not give the lower bound: it returns twice the last difficulty before it
compares with the minimum, and a header easier than half the minimum opens an
epoch below it.
-/

namespace Ckb

def maxBlockInterval : Nat := 60 * 1000

def minBlockInterval : Nat := 8 * 1000

/-- `EPOCH_DURATION_TARGET`: four hours, in milliseconds. -/
def epochDurationTarget : Nat := 4 * 60 * 60 * 1000

def maxEpochLength : Nat := epochDurationTarget / minBlockInterval

def minEpochLength : Nat := epochDurationTarget / maxBlockInterval

def genesisEpochLength : Nat := 1250

def orphanRateTargetRecip : Nat := 20

def EpochExt.isGenesis (epoch : EpochExt) : Bool :=
  0 == epoch.number

namespace EpochConsensus

variable (consensus : EpochConsensus)

def minDifficulty : Nat :=
  consensus.genesisHeader.difficulty

/-- The genesis epoch of `ChainSpec::build_consensus`. -/
def genesisEpochExt : EpochExt :=
  ⟨0, ⟨consensus.epochReward.shannons / genesisEpochLength⟩,
    ⟨consensus.epochReward.shannons % genesisEpochLength⟩, ⟨0⟩, 0, genesisEpochLength,
    consensus.genesisHeader.difficulty⟩

def revisionEpochLength (raw : Nat) : Nat :=
  max (min maxEpochLength raw) minEpochLength

def revisionEpochDifficulty (last raw : Nat) : Nat :=
  let minDifficulty := max consensus.minDifficulty (last / 2)
  let maxDifficulty := last * 2
  if raw > maxDifficulty then maxDifficulty
  else if raw < minDifficulty then minDifficulty
  else raw

/-- The `EpochExt::new` that both branches of `next_epoch_ext` end with: the
epoch after the one `header` closes, with the epoch reward split over its
length. -/
def epochAfter (lastEpoch : EpochExt) (header : Header) (nextEpochLength difficulty : Nat) :
    EpochExt :=
  ⟨lastEpoch.number + 1, ⟨consensus.epochReward.shannons / nextEpochLength⟩,
    ⟨consensus.epochReward.shannons % nextEpochLength⟩, header.hash, header.number + 1,
    nextEpochLength, difficulty⟩

/-- The branch of `next_epoch_ext` for an epoch with uncles: length and
difficulty scaled by the uncle rate and the duration of the last epoch. -/
def adjustedEpoch (lastEpoch : EpochExt) (header : Header) (lastUnclesCount lastEpochDuration : Nat) :
    Except String EpochExt := do
  let lastEpochLength := lastEpoch.length
  let unclesAndLength ← Checked.addOrPanic u64Bound lastUnclesCount lastEpochLength
  let scaled ← Checked.mulOrPanic u64Bound unclesAndLength epochDurationTarget
  let numerator ← Checked.mulOrPanic u64Bound scaled lastEpochLength
  let rate ← Checked.mulOrPanic u64Bound (orphanRateTargetRecip + 1) lastUnclesCount
  let denominator ← Checked.mulOrPanic u64Bound rate lastEpochDuration
  let rawNextEpochLength := numerator / denominator
  let nextEpochLength := revisionEpochLength rawNextEpochLength
  -- the `U256` quotient by the last epoch's length
  if lastEpochLength = 0 then .error "attempt to divide by zero"
  else
    let rawDifficulty :=
      header.difficulty * lastUnclesCount * orphanRateTargetRecip / lastEpochLength
    let difficulty := consensus.revisionEpochDifficulty header.difficulty rawDifficulty
    pure (consensus.epochAfter lastEpoch header nextEpochLength difficulty)

/-- `Consensus::next_epoch_ext`: the epoch that follows `lastEpoch` when
`header` is its last block, `none` when it is not, when the last block of the
previous epoch is not stored, or when no time passed over an epoch with
uncles. -/
def nextEpochExt (lastEpoch : EpochExt) (header : Header) (getBlockHeader : H256 → Option Header)
    (totalUnclesCount : H256 → Option Nat) : Except String (Option EpochExt) := do
  let epochEnd ← Checked.addOrPanic u64Bound lastEpoch.startNumber lastEpoch.length
  let lastNumber ← Checked.subOrPanic epochEnd 1
  if header.number ≠ lastNumber then pure none
  else
    let previous :=
      if lastEpoch.isGenesis then some consensus.genesisHeader
      else getBlockHeader lastEpoch.lastBlockHashInPreviousEpoch
    match previous with
    | none => pure none
    | some lastBlockHeaderInPreviousEpoch => do
      let startTotalUnclesCount ←
        (totalUnclesCount lastBlockHeaderInPreviousEpoch.hash).getDM (.error "block_ext exist")
      let lastTotalUnclesCount ← (totalUnclesCount header.hash).getDM (.error "block_ext exist")
      let lastUnclesCount ← Checked.subOrPanic lastTotalUnclesCount startTotalUnclesCount
      if lastUnclesCount > 0 then
        -- `saturating_sub`
        let lastEpochDuration := header.timestamp - lastBlockHeaderInPreviousEpoch.timestamp
        if lastEpochDuration = 0 then pure none
        else some <$> consensus.adjustedEpoch lastEpoch header lastUnclesCount lastEpochDuration
      else
        pure (some (consensus.epochAfter lastEpoch header maxEpochLength
          (max consensus.minDifficulty (header.difficulty / 2))))

section Lemmas

variable {consensus : EpochConsensus}

theorem revisionEpochLength_mem (raw : Nat) :
    minEpochLength ≤ revisionEpochLength raw ∧ revisionEpochLength raw ≤ maxEpochLength := by
  have ordered : minEpochLength ≤ maxEpochLength := by decide
  unfold revisionEpochLength
  omega

theorem revisionEpochDifficulty_mem {last : Nat} (raw : Nat)
    (reachable : consensus.minDifficulty ≤ last * 2) :
    max consensus.minDifficulty (last / 2) ≤ consensus.revisionEpochDifficulty last raw ∧
      consensus.revisionEpochDifficulty last raw ≤ last * 2 := by
  simp only [revisionEpochDifficulty]
  split_ifs <;> omega

theorem adjustedEpoch_eq_ok {lastEpoch epoch : EpochExt} {header : Header}
    {lastUnclesCount lastEpochDuration : Nat}
    (adjusted : consensus.adjustedEpoch lastEpoch header lastUnclesCount lastEpochDuration =
      .ok epoch) :
    ∃ rawNextEpochLength rawDifficulty, epoch = consensus.epochAfter lastEpoch header
      (revisionEpochLength rawNextEpochLength)
      (consensus.revisionEpochDifficulty header.difficulty rawDifficulty) := by
  simp only [adjustedEpoch, Except.bind_eq_ok, Except.ite_error_eq_ok, Except.pure_eq_ok]
    at adjusted
  obtain ⟨_, -, _, -, _, -, _, -, _, -, -, rfl⟩ := adjusted
  exact ⟨_, _, rfl⟩

/-- What `next_epoch_ext` opens, from any last epoch and header: the epoch
after the header, of a length between the bounds, with the clamped difficulty
of an epoch with uncles or the halved one of an epoch without. -/
theorem nextEpochExt_eq_some {lastEpoch epoch : EpochExt} {header : Header}
    {getBlockHeader : H256 → Option Header} {totalUnclesCount : H256 → Option Nat}
    (next : consensus.nextEpochExt lastEpoch header getBlockHeader totalUnclesCount =
      .ok (some epoch)) :
    header.number + 1 = lastEpoch.startNumber + lastEpoch.length ∧
      ∃ nextEpochLength difficulty,
        epoch = consensus.epochAfter lastEpoch header nextEpochLength difficulty ∧
        minEpochLength ≤ nextEpochLength ∧ nextEpochLength ≤ maxEpochLength ∧
        ((∃ raw, difficulty = consensus.revisionEpochDifficulty header.difficulty raw) ∨
          difficulty = max consensus.minDifficulty (header.difficulty / 2)) := by
  simp only [nextEpochExt, Except.bind_eq_ok, Checked.addOrPanic_eq_ok_iff,
    Checked.subOrPanic_eq_ok_iff] at next
  obtain ⟨_, ⟨rfl, -⟩, _, ⟨rfl, nonempty⟩, next⟩ := next
  split at next
  · cases next
  rename_i closes
  refine ⟨by omega, ?_⟩
  split at next
  · cases next
  simp only [Except.bind_eq_ok, Checked.subOrPanic_eq_ok_iff] at next
  obtain ⟨_, -, _, -, lastUnclesCount, -, next⟩ := next
  split at next
  · -- an epoch with uncles
    split at next
    · cases next
    obtain ⟨opened, adjusted, same⟩ := Except.map_eq_ok.mp next
    cases same
    obtain ⟨raw, rawDifficulty, rfl⟩ := adjustedEpoch_eq_ok adjusted
    exact ⟨_, _, rfl, (revisionEpochLength_mem raw).1, (revisionEpochLength_mem raw).2,
      .inl ⟨rawDifficulty, rfl⟩⟩
  · -- an epoch without uncles
    simp only [Except.pure_eq_ok, Option.some.injEq] at next
    subst next
    exact ⟨_, _, rfl, by decide, le_refl _, .inr rfl⟩

end Lemmas

/-! ## Verified chains of epochs -/

/-- What holds of every epoch of a verified chain: the genesis epoch has the
genesis length, every later one a length between the bounds, and none is
easier than the genesis block. -/
structure Bounded (epoch : EpochExt) : Prop where
  genesis_length : epoch.number = 0 → epoch.length = genesisEpochLength
  length_mem : epoch.number ≠ 0 → minEpochLength ≤ epoch.length ∧ epoch.length ≤ maxEpochLength
  minDifficulty_le : consensus.minDifficulty ≤ epoch.difficulty

/-- What one transition changes: the number by one, the start past the last
epoch, and the difficulty to within a factor two of the last one. -/
structure Adjusts (lastEpoch epoch : EpochExt) : Prop where
  number_eq : epoch.number = lastEpoch.number + 1
  startNumber_eq : epoch.startNumber = lastEpoch.startNumber + lastEpoch.length
  difficulty_ge : max consensus.minDifficulty (lastEpoch.difficulty / 2) ≤ epoch.difficulty
  difficulty_le : epoch.difficulty ≤ lastEpoch.difficulty * 2

/-- A transition of a chain that passes `EpochVerifier`: the header that
closes the last epoch carries that epoch's difficulty. -/
def VerifiedTransition (lastEpoch epoch : EpochExt) : Prop :=
  ∃ header getBlockHeader totalUnclesCount, header.difficulty = lastEpoch.difficulty ∧
    consensus.nextEpochExt lastEpoch header getBlockHeader totalUnclesCount = .ok (some epoch)

/-- The epochs of verified chains, from the genesis epoch. -/
def Reached (epoch : EpochExt) : Prop :=
  Relation.ReflTransGen consensus.VerifiedTransition consensus.genesisEpochExt epoch

section Chains

variable {consensus : EpochConsensus}

theorem Bounded.length_pos {epoch : EpochExt} (bounded : consensus.Bounded epoch) :
    0 < epoch.length := by
  by_cases genesis : epoch.number = 0
  · rw [bounded.genesis_length genesis]
    decide
  · have above := (bounded.length_mem genesis).1
    have positive : 0 < minEpochLength := by decide
    omega

theorem genesisEpochExt_bounded : consensus.Bounded consensus.genesisEpochExt :=
  ⟨fun _ => rfl, fun numbered => absurd rfl numbered, le_refl _⟩

theorem VerifiedTransition.adjusts {lastEpoch epoch : EpochExt}
    (bounded : consensus.Bounded lastEpoch) (step : consensus.VerifiedTransition lastEpoch epoch) :
    consensus.Adjusts lastEpoch epoch ∧ consensus.Bounded epoch := by
  obtain ⟨header, _, _, verified, next⟩ := step
  obtain ⟨closes, nextEpochLength, difficulty, rfl, lengthAbove, lengthBelow, clamped⟩ :=
    nextEpochExt_eq_some next
  -- the closing header is no easier than the minimum, so the clamp's window is not empty
  have reachable : consensus.minDifficulty ≤ header.difficulty * 2 := by
    have atLeast := bounded.minDifficulty_le
    omega
  have window : max consensus.minDifficulty (header.difficulty / 2) ≤ difficulty ∧
      difficulty ≤ header.difficulty * 2 := by
    rcases clamped with ⟨raw, rfl⟩ | rfl
    · exact revisionEpochDifficulty_mem raw reachable
    · omega
  rw [verified] at window
  constructor
  · constructor
    · rfl
    · simp only [epochAfter]
      omega
    · exact window.1
    · exact window.2
  · constructor
    · intro numbered
      simp [epochAfter] at numbered
    · intro _
      exact ⟨lengthAbove, lengthBelow⟩
    · have above := window.1
      simp only [epochAfter]
      omega

theorem Reached.bounded {epoch : EpochExt} (reached : consensus.Reached epoch) :
    consensus.Bounded epoch := by
  induction reached with
  | refl => exact genesisEpochExt_bounded
  | tail _ step induction => exact (step.adjusts induction).2

end Chains

/-- Along the chains that pass `EpochVerifier`, every epoch has a positive
length, the genesis length or one between the bounds, and a difficulty no
lower than the genesis block's; each transition numbers the next epoch after
the last, starts it after the last, and keeps its difficulty between the
minimum, half the last difficulty and twice it. -/
theorem reached_epochs_bounded (consensus : EpochConsensus) :
    (∀ epoch, consensus.Reached epoch → consensus.Bounded epoch ∧ 0 < epoch.length) ∧
      ∀ lastEpoch epoch, consensus.Reached lastEpoch →
        consensus.VerifiedTransition lastEpoch epoch → consensus.Adjusts lastEpoch epoch := by
  constructor
  · intro epoch reached
    exact ⟨reached.bounded, reached.bounded.length_pos⟩
  · intro lastEpoch epoch reached step
    exact (step.adjusts reached.bounded).1

/-! ## The split of the epoch reward -/

/-- An epoch whose blocks share the consensus's epoch reward: each is paid
the quotient by the length, and the remainder goes one shannon at a time to
the first blocks. -/
structure SplitsReward (epoch : EpochExt) : Prop where
  length_pos : 0 < epoch.length
  blockReward_eq : epoch.blockReward.shannons = consensus.epochReward.shannons / epoch.length
  remainderReward_eq :
    epoch.remainderReward.shannons = consensus.epochReward.shannons % epoch.length

section Issuance

variable {consensus : EpochConsensus}

theorem genesisEpochExt_splitsReward : consensus.SplitsReward consensus.genesisEpochExt :=
  ⟨show 0 < genesisEpochLength by decide, rfl, rfl⟩

theorem nextEpochExt_splitsReward {lastEpoch epoch : EpochExt} {header : Header}
    {getBlockHeader : H256 → Option Header} {totalUnclesCount : H256 → Option Nat}
    (next : consensus.nextEpochExt lastEpoch header getBlockHeader totalUnclesCount =
      .ok (some epoch)) :
    consensus.SplitsReward epoch := by
  obtain ⟨-, nextEpochLength, difficulty, rfl, lengthAbove, -, -⟩ := nextEpochExt_eq_some next
  have positive : 0 < minEpochLength := by decide
  exact ⟨by simp only [epochAfter]; omega, rfl, rfl⟩

theorem sum_range'_paid_more (start count extra base : Nat) (within : extra ≤ count) :
    ((List.range' start count).map fun number =>
      if number < start + extra then base + 1 else base).sum = count * base + extra := by
  have split : List.range' start count =
      List.range' start extra ++ List.range' (start + extra) (count - extra) := by
    rw [List.range'_append_1, Nat.add_sub_cancel' within]
  have early : ∀ number ∈ List.range' start extra,
      (if number < start + extra then base + 1 else base) = base + 1 := by
    intro number member
    rw [List.mem_range'_1] at member
    rw [if_pos member.2]
  have late : ∀ number ∈ List.range' (start + extra) (count - extra),
      (if number < start + extra then base + 1 else base) = base := by
    intro number member
    rw [List.mem_range'_1] at member
    rw [if_neg (Nat.not_lt.mpr member.1)]
  rw [split, List.map_append, List.map_congr_left early, List.map_congr_left late,
    List.map_const', List.map_const', List.sum_append, List.sum_replicate, List.sum_replicate,
    List.length_range', List.length_range', smul_eq_mul, smul_eq_mul]
  calc extra * (base + 1) + (count - extra) * base
      = (extra + (count - extra)) * base + extra := by ring
    _ = count * base + extra := by rw [Nat.add_sub_cancel' within]

theorem quotient_succ_lt {reward length : Nat} (fits : reward < u64Bound)
    (leftOver : 0 < reward % length) : reward / length + 1 < u64Bound := by
  unfold u64Bound at fits ⊢
  rcases length with _ | _ | length
  · rw [Nat.div_zero]
    omega
  · rw [Nat.zero_add, Nat.mod_one] at leftOver
    omega
  · have halved : reward / (length + 1 + 1) ≤ reward / 2 :=
      Nat.div_le_div_left (by omega) (by decide)
    omega

/-- Over the blocks of an epoch that splits the reward, `block_reward` never
fails and pays the whole epoch reward, while the end of the remainder blocks
is a `u64`. -/
theorem SplitsReward.blockRewards {epoch : EpochExt} (splits : consensus.SplitsReward epoch)
    (fits : epoch.startNumber + epoch.remainderReward.shannons < u64Bound) :
    ∃ rewards, (List.range' epoch.startNumber epoch.length).mapM epoch.blockRewardAt =
      .ok rewards ∧ (rewards.map Capacity.shannons).sum = consensus.epochReward.shannons := by
  have paid : ∀ number ∈ List.range' epoch.startNumber epoch.length,
      epoch.blockRewardAt number =
        pure ⟨if number < epoch.startNumber + epoch.remainderReward.shannons
          then epoch.blockReward.shannons + 1 else epoch.blockReward.shannons⟩ := by
    intro number member
    rw [List.mem_range'_1] at member
    rw [EpochExt.blockRewardAt_of_lt fits]
    by_cases early : number < epoch.startNumber + epoch.remainderReward.shannons
    · -- a remainder is left, so the quotient plus one fits in a `u64`
      have leftOver : 0 < consensus.epochReward.shannons % epoch.length := by
        rw [← splits.remainderReward_eq]
        omega
      have succFits := quotient_succ_lt consensus.epochRewardFits leftOver
      rw [if_pos ⟨member.1, early⟩, if_pos early]
      have added : epoch.blockReward.safeAdd ⟨1⟩ = .ok ⟨epoch.blockReward.shannons + 1⟩ :=
        Capacity.safeAdd_eq_ok_iff.mpr ⟨rfl, by rw [splits.blockReward_eq]; exact succFits⟩
      rw [added, Except.mapError_ok]
      rfl
    · rw [if_neg fun both => early both.2, if_neg early]
  refine ⟨_, List.mapM_eq_pure_map paid, ?_⟩
  have below : epoch.remainderReward.shannons ≤ epoch.length := by
    rw [splits.remainderReward_eq]
    exact (Nat.mod_lt _ splits.length_pos).le
  rw [List.map_map]
  calc ((List.range' epoch.startNumber epoch.length).map fun number =>
        if number < epoch.startNumber + epoch.remainderReward.shannons
        then epoch.blockReward.shannons + 1 else epoch.blockReward.shannons).sum
      = epoch.length * epoch.blockReward.shannons + epoch.remainderReward.shannons :=
        sum_range'_paid_more _ _ _ _ below
    _ = consensus.epochReward.shannons := by
        rw [splits.blockReward_eq, splits.remainderReward_eq, Nat.div_add_mod]

end Issuance

end EpochConsensus

section Samples

/-- The dev chain's consensus: a genesis block of difficulty `0x100` and an
epoch reward of 1,250,000 bytes. -/
def devEpochConsensus : EpochConsensus :=
  ⟨⟨0, 0, 0, 0x100, ⟨0⟩, ⟨1⟩⟩, ⟨125000000000000⟩, by decide⟩

/-- The last block of the dev chain's genesis epoch, at the genesis
difficulty. -/
def devClosingHeader : Header :=
  ⟨1249, 0, 5000000, 0x100, ⟨2⟩, ⟨3⟩⟩

/-- A consensus whose genesis block has difficulty ten. -/
def tenDifficultyConsensus : EpochConsensus :=
  ⟨⟨0, 0, 0, 10, ⟨0⟩, ⟨1⟩⟩, ⟨125000000000000⟩, by decide⟩

/-- A header that closes the genesis epoch at difficulty one, a second after
the genesis block. -/
def easyClosingHeader : Header :=
  ⟨1249, 0, 1000, 1, ⟨2⟩, ⟨3⟩⟩

/-- A thousand uncles in the genesis epoch. -/
def thousandUncles (hash : H256) : Option Nat :=
  if hash = easyClosingHeader.hash then some 1000 else some 0

end Samples

/-- On the dev chain the genesis epoch, closed with no uncles, opens an epoch
of the maximum length at the genesis difficulty. -/
theorem devGenesis_transition_adjusts :
    devEpochConsensus.VerifiedTransition devEpochConsensus.genesisEpochExt
        (devEpochConsensus.epochAfter devEpochConsensus.genesisEpochExt devClosingHeader
          maxEpochLength 0x100) ∧
      devEpochConsensus.Adjusts devEpochConsensus.genesisEpochExt
        (devEpochConsensus.epochAfter devEpochConsensus.genesisEpochExt devClosingHeader
          maxEpochLength 0x100) :=
  have step : devEpochConsensus.VerifiedTransition devEpochConsensus.genesisEpochExt
      (devEpochConsensus.epochAfter devEpochConsensus.genesisEpochExt devClosingHeader
        maxEpochLength 0x100) :=
    ⟨devClosingHeader, fun _ => none, fun _ => some 0, rfl, by decide⟩
  ⟨step, (EpochConsensus.reached_epochs_bounded devEpochConsensus).2 _ _ .refl step⟩

/-- A header that is not checked against its epoch's difficulty: the clamp
returns twice its difficulty before it looks at the minimum, and the next
epoch is easier than the genesis block. -/
theorem easyHeader_opens_epoch_below_minimum :
    (tenDifficultyConsensus.nextEpochExt tenDifficultyConsensus.genesisEpochExt
        easyClosingHeader (fun _ => none) thousandUncles).map (Option.map EpochExt.difficulty) =
      .ok (some 2) ∧
      2 < tenDifficultyConsensus.minDifficulty := by
  decide +kernel

end Ckb
