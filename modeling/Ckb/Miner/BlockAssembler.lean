import Mathlib
import Ckb.Core.Builder
import Ckb.Script.Syscalls
import Ckb.Verification.Contextual
import Ckb.Verification.TransactionVerifier

/-!
# The block assembler's cellbase

`BlockAssembler::build_cellbase` (`miner/src/block_assembler.rs`).  The
cellbase of the block after `tip` has one input, the cellbase input of the
block's number, one witness, the miner's lock, and one output: before the
reserve number the genesis epoch's reward to the bootstrap lock, after it
the finalize target's reward to the target's lock.  `custom_output` then
puts the configured data in that output, cut to the capacity the reward
leaves.

The cut is measured in shannons, while a byte of data occupies
`Capacity::bytes(1)` = 10^8 shannons; so a reward that leaves some room, but
less than the configured data occupies, yields an output that cannot hold
its data.
-/

namespace Ckb

/-- `BlockAssemblerConfig`: the miner's lock and the data of its cellbase. -/
structure BlockAssemblerConfig where
  codeHash : H256
  args : List (List UInt8)
  data : List UInt8
  deriving DecidableEq, Repr

/-- `failure::Error` as the assembler raises it. -/
inductive FailureError where
  | capacity (error : CapacityError)
  | reward (error : RewardError)
  | transaction (error : TransactionError)
  | panic (message : String)
  deriving DecidableEq, Repr

def FailureError.ofBlockReward : BlockRewardError → FailureError
  | .capacity error => .capacity error
  | .panic message => .panic message

/-- `Script::into_witness`: the code hash, then the arguments. -/
def Script.intoWitness (script : Script) : Witness :=
  script.codeHash.asBytes :: script.args

def CellInput.newCellbaseInput (blockNumber : Nat) : CellInput :=
  ⟨OutPoint.null, UInt64.ofNat blockNumber⟩

namespace BlockAssembler

variable (consensus : Consensus) (store : ChainStore) (config : BlockAssemblerConfig)
  (hashers : Hashers)

/-- The lock of `get_block_template`'s cellbase. -/
def cellbaseLock : Script :=
  ⟨config.args, config.codeHash⟩

/-- `custom_output`: the configured data, cut to `reward - occupied` bytes,
where both are in shannons. -/
def customOutput (reward : Capacity) (output : CellOutput) : Except FailureError CellOutput := do
  let occupiedCapacity ← output.occupiedCapacity.mapError .capacity
  if reward.shannons < occupiedCapacity.shannons then
    throw (.transaction .insufficientCellCapacity)
  let data := config.data
  if !data.isEmpty then
    let dataMaxLen := reward.shannons - occupiedCapacity.shannons
    pure { output with data := data.take dataMaxLen }
  else
    pure output

/-- The one-output cellbase both branches build. -/
def cellbase (candidateNumber : Nat) (lock : Script) (output : CellOutput) : Transaction :=
  TransactionBuilder.build hashers txVersion [] [CellInput.newCellbaseInput candidateNumber]
    [output] [lock.intoWitness]

def bootstrapCellbase (candidateNumber : Nat) (lock : Script) :
    Except FailureError Transaction := do
  let blockReward ← (consensus.genesisEpochExt.blockRewardAt candidateNumber).mapError
    FailureError.ofBlockReward
  let rawOutput : CellOutput := ⟨blockReward, [], consensus.bootstrapLock, none⟩
  let output ← customOutput config blockReward rawOutput
  pure (cellbase hashers candidateNumber lock output)

def ordinaryCellbase (tip : Header) (lock : Script) : Except FailureError Transaction := do
  let candidateNumber := tip.number + 1
  let (targetLock, blockReward) ←
    (RewardCalculator.blockReward consensus store tip).mapError .reward
  let rawOutput : CellOutput := ⟨blockReward, [], targetLock, none⟩
  let output ← customOutput config blockReward rawOutput
  pure (cellbase hashers candidateNumber lock output)

/-- `build_cellbase`: the cellbase and its serialized size. -/
def buildCellbase (tip : Header) (lock : Script) : Except FailureError (Transaction × Nat) := do
  let candidateNumber := tip.number + 1
  let tx ← if candidateNumber > consensus.reserveNumber then
      ordinaryCellbase consensus store config hashers tip lock
    else
      bootstrapCellbase consensus config hashers candidateNumber lock
  pure (tx, tx.serializedSize)

section Lemmas

variable {consensus : Consensus} {store : ChainStore} {config : BlockAssemblerConfig}
  {hashers : Hashers}

theorem room_lt_take_bytes {room : Nat} {data : List UInt8} (roomLeft : 0 < room)
    (tooLong : room < data.length * Capacity.byteShannons) :
    room < (data.take room).length * Capacity.byteShannons := by
  rw [List.length_take]
  have manyShannons : 1 < Capacity.byteShannons := by decide
  by_cases fewer : room ≤ data.length
  · -- the cut keeps `room` bytes, each worth more than a shannon
    rw [Nat.min_eq_left fewer]
    exact (Nat.lt_mul_iff_one_lt_right roomLeft).mpr manyShannons
  · rw [Nat.min_eq_right (Nat.le_of_not_le fewer)]
    exact tooLong

theorem customOutput_eq_ok {reward : Capacity} {output output' : CellOutput}
    (success : customOutput config reward output = .ok output') :
    ∃ occupied : Capacity, output.occupiedCapacity = .ok occupied ∧
      occupied.shannons ≤ reward.shannons ∧
      output' = if config.data.isEmpty then output
        else { output with data := config.data.take (reward.shannons - occupied.shannons) } := by
  simp only [customOutput, Except.bind_eq_ok, Except.mapError_eq_ok] at success
  obtain ⟨occupied, occupiedOk, rest⟩ := success
  refine ⟨occupied, occupiedOk, ?_⟩
  by_cases short : reward.shannons < occupied.shannons
  · rw [if_pos short] at rest
    cases rest
  · rw [if_neg short] at rest
    refine ⟨Nat.le_of_not_lt short, ?_⟩
    cases empty : config.data.isEmpty with
    | true =>
        simp only [empty, Bool.not_true, Bool.false_eq_true, if_false, Except.pure_eq_ok] at rest
        simp only [if_true]
        exact rest.symm
    | false =>
        simp only [empty, Bool.not_false, if_true, Except.pure_eq_ok] at rest
        simp only [Bool.false_eq_true, if_false]
        exact rest.symm

theorem buildCellbase_eq_ok {tip : Header} {lock : Script} {tx : Transaction} {size : Nat}
    (success : buildCellbase consensus store config hashers tip lock = .ok (tx, size)) :
    size = tx.serializedSize ∧
    ∃ reward targetLock output,
      ((tip.number + 1 > consensus.reserveNumber ∧
          RewardCalculator.blockReward consensus store tip = .ok (targetLock, reward)) ∨
        (¬tip.number + 1 > consensus.reserveNumber ∧
          consensus.genesisEpochExt.blockRewardAt (tip.number + 1) = .ok reward ∧
          targetLock = consensus.bootstrapLock)) ∧
      customOutput config reward ⟨reward, [], targetLock, none⟩ = .ok output ∧
      tx = cellbase hashers (tip.number + 1) lock output := by
  dsimp only [buildCellbase] at success
  split at success
  case isTrue late =>
    simp only [ordinaryCellbase, Except.bind_eq_ok, Except.mapError_eq_ok, Prod.exists,
      Except.pure_eq_ok, Prod.mk.injEq] at success
    obtain ⟨built, ⟨targetLock, reward, rewarded, output, custom, rfl⟩, rfl, rfl⟩ := success
    exact ⟨rfl, reward, targetLock, output, .inl ⟨late, rewarded⟩, custom, rfl⟩
  case isFalse early =>
    simp only [bootstrapCellbase, Except.bind_eq_ok, Except.mapError_eq_ok,
      Except.pure_eq_ok, Prod.mk.injEq] at success
    obtain ⟨built, ⟨reward, rewarded, output, custom, rfl⟩, rfl, rfl⟩ := success
    exact ⟨rfl, reward, consensus.bootstrapLock, output, .inr ⟨early, rewarded, rfl⟩, custom,
      rfl⟩

/-- A cellbase whose reward leaves some room beyond its empty output, but
less than the configured data occupies, fails `CapacityVerifier`: the cut
keeps a byte per shannon of room, and each byte occupies 10^8. -/
theorem buildCellbase_data_exceeds_capacity {tip : Header} {lock : Script} {tx : Transaction}
    {size : Nat} {output : CellOutput} {occupied : Capacity}
    (built : buildCellbase consensus store config hashers tip lock = .ok (tx, size))
    (member : output ∈ tx.outputs)
    (emptyOccupied : { output with data := [] }.occupiedCapacity = .ok occupied)
    (room : occupied.shannons < output.capacity.shannons)
    (tooLong : output.capacity.shannons <
      occupied.shannons + config.data.length * Capacity.byteShannons) :
    CapacityVerifier.verify ⟨tx, [], []⟩ ≠ .ok () := by
  obtain ⟨-, reward, targetLock, customized, -, custom, rfl⟩ := buildCellbase_eq_ok built
  obtain ⟨rawOccupied, rawOk, -, shaped⟩ := customOutput_eq_ok custom
  have single : output = customized := by
    simpa [cellbase, TransactionBuilder.build] using member
  subst single
  have someData : config.data.isEmpty = false := by
    have occupying : 0 < config.data.length * Capacity.byteShannons := by omega
    rw [List.isEmpty_eq_false_iff, ← List.length_pos_iff]
    exact Nat.pos_of_ne_zero fun empty => by simp [empty] at occupying
  simp only [someData, Bool.false_eq_true, if_false] at shaped
  subst shaped
  rw [rawOk, Except.ok.injEq] at emptyOccupied
  subst emptyOccupied
  intro verified
  obtain ⟨dataOccupied, dataOk, fits⟩ := CellOutput.isLackOfCapacity_eq_ok_false
    ((CapacityVerifier.verify_ok verified).2 _ member)
  have shifted := CellOutput.occupiedCapacity_data rawOk dataOk
  dsimp only at room tooLong
  have cut : reward.shannons - rawOccupied.shannons <
      (config.data.take (reward.shannons - rawOccupied.shannons)).length *
        Capacity.byteShannons :=
    room_lt_take_bytes (Nat.sub_pos_of_lt room) (by omega)
  simp only [List.length_nil, zero_mul, add_zero] at shifted fits
  omega

end Lemmas

section Samples

def genesisTip : Header := ⟨0, 0, 0, 0, ⟨0⟩, ⟨0⟩⟩

/-- A consensus whose genesis epoch pays 41 CKBytes a block to a bootstrap
lock of no arguments, which with its capacity field occupies 40. -/
def tightConsensus : Consensus where
  genesisHeader := genesisTip
  epochReward := ⟨4100000000 * 1250⟩
  epochRewardFits := by decide
  txProposalWindow := ⟨1, 1, Nat.le_refl 1⟩
  proposerRewardRatio := ⟨4, 10⟩
  secondaryEpochReward := ⟨0⟩
  genesisEpochExt := ⟨0, ⟨4100000000⟩, ⟨0⟩, ⟨0⟩, 0, 1250, 1⟩
  bootstrapLock := ⟨[], ⟨0⟩⟩

/-- Two bytes of cellbase data. -/
def twoBytesConfig : BlockAssemblerConfig := ⟨⟨0⟩, [], [1, 2]⟩

def constantHashers : Hashers :=
  ⟨fun _ _ _ _ => ⟨0⟩, fun _ => ⟨0⟩, fun _ _ => ⟨0⟩, fun _ => ⟨0⟩, fun _ => ⟨0⟩, fun _ => ⟨0⟩,
    fun _ => ⟨0⟩⟩

/-- The output the bootstrap cellbase of block 1 gets: 41 CKBytes, both bytes
of data, the bootstrap lock. -/
def overfullOutput : CellOutput := ⟨⟨4100000000⟩, [1, 2], ⟨[], ⟨0⟩⟩, none⟩

def overfullCellbase : Transaction :=
  cellbase constantHashers 1 (cellbaseLock twoBytesConfig) overfullOutput

theorem overfullCellbase_rejected :
    buildCellbase tightConsensus ChainStore.empty twoBytesConfig constantHashers genesisTip
        (cellbaseLock twoBytesConfig) = .ok (overfullCellbase, overfullCellbase.serializedSize) ∧
      overfullOutput ∈ overfullCellbase.outputs ∧
      { overfullOutput with data := [] }.occupiedCapacity = .ok ⟨4000000000⟩ ∧
      4000000000 < overfullOutput.capacity.shannons ∧
      overfullOutput.capacity.shannons <
        4000000000 + twoBytesConfig.data.length * Capacity.byteShannons ∧
      CapacityVerifier.verify ⟨overfullCellbase, [], []⟩ ≠ .ok () := by
  have built : buildCellbase tightConsensus ChainStore.empty twoBytesConfig constantHashers
      genesisTip (cellbaseLock twoBytesConfig) =
        .ok (overfullCellbase, overfullCellbase.serializedSize) := rfl
  have emptyOccupied : { overfullOutput with data := [] }.occupiedCapacity = .ok ⟨4000000000⟩ := by
    decide
  have room : 4000000000 < overfullOutput.capacity.shannons := by decide
  have tooLong : overfullOutput.capacity.shannons <
      4000000000 + twoBytesConfig.data.length * Capacity.byteShannons := by decide
  exact ⟨built, List.mem_singleton_self _, emptyOccupied, room, tooLong,
    buildCellbase_data_exceeds_capacity built (List.mem_singleton_self _) emptyOccupied room
      tooLong⟩

end Samples

end BlockAssembler

end Ckb
