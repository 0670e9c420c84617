import Ckb.Chain.MainIndex
import Ckb.Miner.Template

/-!
# The current epoch ext

Besides each block's epoch, the store keeps one current epoch ext, which
`get_block_template` takes as the epoch of the tip.  `insert_block` writes
the new tip's epoch there only when the new tip opens an epoch or the switch
detached blocks (`if new_epoch || fork.has_detached()`).  A switch that
attaches several blocks on top of the old tip, the first of which opened an
epoch, does neither: the current epoch ext stays the old tip's, while the new
tip's block epoch is the new one.  Such a switch needs a block that stayed
beside the chain while extending its tip, so a block that adds no difficulty;
the epochs of a chain that passes `EpochVerifier` have such blocks when the
genesis block has difficulty zero, which neither `ChainSpec` nor `Consensus`
rejects.  The templates then carry the old epoch's number, and
`EpochVerifier`, which resolves the epoch from the tip's block epoch, rejects
their blocks.

Over blocks of positive difficulty the stored blocks climb in total
difficulty, and a switch that detaches nothing attaches the new block alone:
any other block above the tip would rank above it.  Along every run of
`process_block` from `init` over such blocks the current epoch ext stays the
tip's block epoch, and every template passes `EpochVerifier`
(`processBlocks_init_currentEpochExt`).
-/

namespace Ckb

namespace ChainService

section Lemmas

variable {consensus : Consensus} {checks : BlockChecks}

theorem reconcileMainChain_extWrites {store : ChainStore} {needVerify : Bool}
    {fork : ForkChanges} {writes : List StoreWrite}
    (success : reconcileMainChain consensus checks store needVerify fork = .ok writes) :
    ∀ write ∈ writes, ∃ hash ext, write = .insertBlockExt hash ext := by
  obtain ⟨results, -, rfl⟩ := reconcileMainChain_ok success
  intro write member
  obtain ⟨⟨ext, hash, verified, txsFees⟩, -, rfl⟩ := List.mem_map.mp member
  exact ⟨hash, _, rfl⟩

/-- The index writes of a switch and its ext writes touch neither the block
epochs nor the current epoch ext. -/
theorem switchTail_unwritten {fork : ForkChanges} {extWrites : List StoreWrite}
    (onlyExts : ∀ write ∈ extWrites, ∃ hash ext, write = .insertBlockExt hash ext) :
    (updateIndex fork.detachedBlocks fork.attachedBlocks ++ extWrites).filterMap
        ChainStore.epochWrite = [] ∧
      (updateIndex fork.detachedBlocks fork.attachedBlocks ++ extWrites).filterMap
        ChainStore.currentEpochWrite = [] := by
  simp only [updateIndex, List.filterMap_append, List.filterMap_map, List.append_eq_nil_iff,
    List.filterMap_eq_nil_iff]
  refine ⟨⟨⟨fun _ _ => rfl, fun _ _ => rfl⟩, fun write member => ?_⟩,
    ⟨⟨fun _ _ => rfl, fun _ _ => rfl⟩, fun write member => ?_⟩⟩
  · obtain ⟨hash, ext, rfl⟩ := onlyExts write member
    rfl
  · obtain ⟨hash, ext, rfl⟩ := onlyExts write member
    rfl

/-- What `insert_block` does to the block epochs, the tip and the current
epoch ext: the block is stored in the epoch that follows its parent's; beside
the chain, the tip and the current epoch ext stay; made the tip, the block's
epoch becomes the current one only when it opens an epoch or the switch
detaches blocks. -/
theorem insertBlock_epochs {service service' : ChainService} {block : Block} {needVerify : Bool}
    (success : insertBlock consensus checks service block needVerify = .ok service') :
    ∃ parentExt parentHeader parentEpoch nextEpoch daoData,
      Derived consensus service.store block parentExt parentHeader parentEpoch nextEpoch daoData ∧
      service'.store.blockEpoch = Function.update service.store.blockEpoch block.header.hash
        (some (nextEpoch.getD parentEpoch)) ∧
      (service'.tip = service.tip ∧ service'.store.currentEpochExt = service.store.currentEpochExt ∨
        service'.tip = block.header ∧ ∃ fork,
          findFork service.store service.tip.number block (newExt parentExt block daoData) =
            .ok fork ∧
          service'.store.currentEpochExt =
            if nextEpoch.isSome || !fork.detachedBlocks.isEmpty then
              some (nextEpoch.getD parentEpoch)
            else service.store.currentEpochExt) := by
  obtain ⟨-, parentExt, parentHeader, parentEpoch, nextEpoch, daoData, derived, chosen⟩ :=
    insertBlock_ok success
  refine ⟨parentExt, parentHeader, parentEpoch, nextEpoch, daoData, derived, ?_⟩
  rcases chosen with ⟨-, fork, extWrites, found, reconciled, rfl⟩ | ⟨-, rfl⟩
  · obtain ⟨noEpoch, noCurrent⟩ := switchTail_unwritten (reconcileMainChain_extWrites reconciled)
    refine ⟨?_, .inr ⟨rfl, fork, found, ?_⟩⟩
    · rw [ChainStore.commit_append, ChainStore.blockEpoch_commit_of_unwritten _ (by split <;> rfl),
        List.append_assoc, ChainStore.commit_append,
        ChainStore.blockEpoch_commit_of_unwritten _ noEpoch]
      rfl
    · split
      · rw [ChainStore.commit_append]
        rfl
      · rw [List.append_nil, List.append_assoc, ChainStore.commit_append,
          ChainStore.currentEpochExt_commit _ noCurrent]
        rfl
  · refine ⟨?_, .inl ⟨rfl, rfl⟩⟩
    rw [ChainStore.blockEpoch_commit]
    rfl

/-- Each stored block above the genesis height has more total difficulty
than its parent. -/
def Climbing (store : ChainStore) : Prop :=
  ∀ hash block, store.block hash = some block → 0 < block.header.number →
    ∃ parentDifficulty difficulty,
      store.totalDifficulties block.header.parentHash = some parentDifficulty ∧
      store.totalDifficulties hash = some difficulty ∧ parentDifficulty < difficulty

/-- `insert_block` of a new block of positive difficulty keeps the stored
blocks climbing: the block's own total difficulty is its parent's plus its
difficulty, and the others stay. -/
theorem Climbing.insertBlock {service service' : ChainService} {block : Block} {needVerify : Bool}
    (climbing : Climbing service.store) (keyed : service.store.BlocksKeyed)
    (fresh : service.store.blockExt block.header.hash = none)
    (positive : 0 < block.header.difficulty)
    (success : insertBlock consensus checks service block needVerify = .ok service') :
    Climbing service'.store := by
  obtain ⟨parentExt, parentStored, column⟩ := insertBlock_totalDifficulties keyed fresh success
  have unstored := ChainStore.totalDifficulties_eq_none.mpr fresh
  intro hash stored held above
  rw [insertBlock_block success] at held
  rw [column]
  by_cases atBlock : hash = block.header.hash
  · subst atBlock
    rw [Function.update_self, Option.some.injEq] at held
    subst held
    have parentElsewhere : block.header.parentHash ≠ block.header.hash := by
      intro same
      rw [same, ChainStore.getBlockExt, fresh] at parentStored
      cases parentStored
    refine ⟨parentExt.totalDifficulty, _, ?_, Function.update_self .., by omega⟩
    rw [Function.update_of_ne parentElsewhere, ChainStore.totalDifficulties]
    rw [ChainStore.getBlockExt] at parentStored
    rw [parentStored, Option.map_some]
  · rw [Function.update_of_ne atBlock] at held
    obtain ⟨parentDifficulty, difficulty, parentHeld, own, climbs⟩ :=
      climbing hash stored held above
    have parentElsewhere : stored.header.parentHash ≠ block.header.hash := by
      intro same
      rw [same, unstored] at parentHeld
      cases parentHeld
    refine ⟨parentDifficulty, difficulty, ?_, ?_, climbs⟩
    · rwa [Function.update_of_ne parentElsewhere]
    · rwa [Function.update_of_ne atBlock]

/-- A switch that detaches no block extends the tip: any other block of the
branch just above the tip would be stored with more total difficulty than
the tip. -/
theorem switch_parent_eq_tip {genesis : Block} {service : ChainService} {main : Nat → Block}
    {block : Block} {newExt : BlockExt} {fork : ForkChanges} (indexed : Indexed service main)
    (rooted : Rooted service.store genesis) (best : TipIsBest service)
    (climbing : Climbing service.store) (parent : HasParent service.store block)
    (found : findFork service.store service.tip.number block newExt = .ok fork)
    (attachedOnly : fork.detachedBlocks = []) :
    block.header.parentHash = service.tip.hash := by
  have ancestry := rooted.branch parent
  have atGenesis : branchOf service.store block 0 = main 0 := by
    rw [rooted.branchOf_zero parent, indexed.main_zero rooted]
  obtain ⟨fork', common, found', onMain, below, meets, -, -, detached, -⟩ :=
    @findFork_latestCommon service.store service.tip.number main (branchOf service.store block)
      block newExt indexed.chain ancestry atGenesis parent.number_pos
  cases Except.ok.inj (found'.symm.trans found)
  have count := detached.length_eq
  rw [attachedOnly, List.length_nil, List.length_map, List.length_range'] at count
  have atTip : common = service.tip.number := by omega
  subst atTip
  have tipHash : (branchOf service.store block service.tip.number).header.hash =
      service.tip.hash := by
    rw [← meets, indexed.tip]
  have linked := ancestry.linked (service.tip.number + 1) (Nat.succ_pos _) below
  rw [Nat.add_sub_cancel, tipHash] at linked
  rcases Nat.lt_or_ge (service.tip.number + 1) block.header.number with above | top
  · exfalso
    obtain ⟨parentDifficulty, difficulty, parentHeld, own, climbs⟩ :=
      climbing _ _ (ancestry.stored _ above)
        (by rw [rooted.number_branchOf parent above.le]; omega)
    rw [linked, best.tipExt, Option.some.injEq] at parentHeld
    subst parentHeld
    exact absurd (best.noBetter _ _ own) (not_le.mpr (forkKey_lt_iff.mpr (.inl climbs)))
  · rw [le_antisymm below top, ancestry.top] at linked
    exact linked

/-- `insert_block` of a new block checked by `NumberVerifier` keeps the
current epoch ext the tip's block epoch, over a store whose blocks climb. -/
theorem insertBlock_currentEpoch {genesis : Block} {service service' : ChainService}
    {main : Nat → Block} {block : Block} {needVerify : Bool} (indexed : Indexed service main)
    (rooted : Rooted service.store genesis) (best : TipIsBest service)
    (climbing : Climbing service.store) (fresh : service.store.blockExt block.header.hash = none)
    (verified : ∀ parent, service.store.block block.header.parentHash = some parent →
      NumberVerifier.verify parent.header block.header = .ok ())
    (current : service.store.currentEpochExt = service.store.blockEpoch service.tip.hash)
    (success : insertBlock consensus checks service block needVerify = .ok service') :
    service'.store.currentEpochExt = service'.store.blockEpoch service'.tip.hash := by
  obtain ⟨parentExt, parentHeader, parentEpoch, nextEpoch, daoData, derived, epochs,
    ⟨sameTip, sameCurrent⟩ | ⟨newTip, fork, found, written⟩⟩ := insertBlock_epochs success
  · have tipElsewhere : service.tip.hash ≠ block.header.hash := by
      intro same
      have tipStored := best.tipExt
      rw [same, ChainStore.totalDifficulties, fresh] at tipStored
      cases tipStored
    rw [sameTip, sameCurrent, epochs, Function.update_of_ne tipElsewhere]
    exact current
  · rw [newTip, written, epochs, Function.update_self]
    split
    · rfl
    · rename_i kept
      have opened : nextEpoch = none := by
        cases nextEpoch with
        | none => rfl
        | some _ => simp at kept
      have attachedOnly : fork.detachedBlocks = [] := by
        cases detached : fork.detachedBlocks with
        | nil => rfl
        | cons _ _ => simp [detached] at kept
      obtain ⟨parent, parentStored, sameHeader⟩ := Option.map_eq_some_iff.mp derived.headerStored
      have hasParent : HasParent service.store block :=
        ⟨parent, parentStored,
          (NumberVerifier.verify_eq_ok_iff.mp (verified parent parentStored)).symm⟩
      have parentHash : parentHeader.hash = block.header.parentHash := by
        rw [← sameHeader]
        exact rooted.keyed _ _ parentStored
      rw [opened, Option.getD_none, current,
        ← switch_parent_eq_tip indexed rooted best climbing hasParent found attachedOnly,
        ← parentHash]
      exact derived.epochStored

/-- What a run of `process_block` from `init` keeps over blocks checked by
`NumberVerifier` among `all`, each of positive difficulty: the number index,
the tree of stored blocks, the fork choice, the climb of total difficulties,
the newness of the blocks still to come, and the current epoch ext at the
tip's block epoch. -/
structure EpochTracked (genesis : Block) (all : List Block) (service : ChainService)
    (rest : List Block) : Prop where
  pending : ∀ block ∈ rest, block ∈ all
  candidates : ∀ hash stored, service.store.block hash = some stored → stored ∈ genesis :: all
  indexed : ∃ main, Indexed service main
  rooted : Rooted service.store genesis
  best : TipIsBest service
  climbing : Climbing service.store
  new : NewBlocks service rest
  current : service.store.currentEpochExt = service.store.blockEpoch service.tip.hash

section Tracked

variable {genesis : Block} {all : List Block} {service service' : ChainService} {block : Block}
  {blocks : List Block} {needVerify : Bool}

theorem EpochTracked.insertBlock (verified : NumbersVerified genesis all)
    (positive : ∀ block ∈ all, 0 < block.header.difficulty)
    (tracked : EpochTracked genesis all service (block :: blocks))
    (success : insertBlock consensus checks service block needVerify = .ok service') :
    EpochTracked genesis all service' blocks := by
  obtain ⟨main, indexed⟩ := tracked.indexed
  have inRun := tracked.pending block List.mem_cons_self
  have fresh := tracked.new.head_fresh
  have checked : ∀ parent, service.store.block block.header.parentHash = some parent →
      NumberVerifier.verify parent.header block.header = .ok () := fun parent stored =>
    verified block inRun parent (tracked.candidates _ _ stored) (tracked.rooted.keyed _ _ stored)
  obtain ⟨indexed', rooted'⟩ := insertBlock_indexed indexed tracked.rooted fresh checked success
  exact
    { pending := fun later member => tracked.pending later (List.mem_cons_of_mem _ member)
      candidates :=
        insertBlock_candidates (List.mem_cons_of_mem _ inRun) tracked.candidates success
      indexed := indexed'
      rooted := rooted'
      best := insertBlock_tipIsBest tracked.best tracked.rooted.keyed fresh success
      climbing :=
        tracked.climbing.insertBlock tracked.rooted.keyed fresh (positive block inRun) success
      new := tracked.new.next success
      current := insertBlock_currentEpoch indexed tracked.rooted tracked.best tracked.climbing
        fresh checked tracked.current success }

theorem EpochTracked.tail (tracked : EpochTracked genesis all service (block :: blocks)) :
    EpochTracked genesis all service blocks :=
  { tracked with
    pending := fun later member => tracked.pending later (List.mem_cons_of_mem _ member)
    new := tracked.new.tail }

theorem init_epochTracked (initialized : init consensus genesis = .ok service)
    (zero : genesis.header.number = 0)
    (fresh : ∀ block ∈ blocks, block.header.hash ≠ genesis.header.hash)
    (distinct : (blocks.map fun block => block.header.hash).Nodup) :
    EpochTracked genesis blocks service blocks where
  pending _ member := member
  candidates hash stored held := by
    rw [(init_block_eq initialized held).2]
    exact List.mem_cons_self
  indexed := ⟨_, init_indexed initialized zero⟩
  rooted := init_rooted initialized zero
  best := init_tipIsBest initialized
  climbing hash stored held above := by
    obtain ⟨-, rfl⟩ := init_block_eq initialized held
    omega
  new := ⟨init_blocksKeyed initialized,
    fun block member => init_blockExt_of_ne initialized (fresh block member), distinct⟩
  current := by
    obtain ⟨daoStats, -, rfl⟩ := init_ok initialized
    simp [ChainStore.apply, ChainStore.empty]

end Tracked

end Lemmas

/-- From the genesis at height 0, every run of `process_block` over new
blocks of distinct hashes and positive difficulty, each checked by
`NumberVerifier` against its parent, ends with the current epoch ext the
tip's block epoch; the block of every template then passes `EpochVerifier`,
whatever its seal. -/
theorem processBlocks_init_currentEpochExt {consensus : Consensus} {checks : BlockChecks}
    {genesis : Block} {service service' : ChainService} {needVerify : Bool} {blocks : List Block}
    (initialized : init consensus genesis = .ok service) (zero : genesis.header.number = 0)
    (fresh : ∀ block ∈ blocks, block.header.hash ≠ genesis.header.hash)
    (distinct : (blocks.map fun block => block.header.hash).Nodup)
    (verified : NumbersVerified genesis blocks)
    (positive : ∀ block ∈ blocks, 0 < block.header.difficulty)
    (run : processBlocks consensus checks needVerify service blocks = .ok service') :
    service'.store.currentEpochExt = service'.store.blockEpoch service'.tip.hash ∧
      ∀ now template, BlockAssembler.getBlockTemplate consensus service'.store service'.tip now =
          .ok template → ∀ hash, ∃ resolver,
        HeaderResolverWrapper.new consensus service'.store (template.header hash) = .ok resolver ∧
          EpochVerifier.verify resolver = .ok () := by
  have tracked := processBlocks_invariant
    (fun _ _ _ _ tracked success => tracked.insertBlock verified positive success)
    (fun _ _ _ tracked => tracked.tail) (init_epochTracked initialized zero fresh distinct) run
  obtain ⟨main, indexed⟩ := tracked.indexed
  exact ⟨tracked.current, fun now template built hash =>
    BlockAssembler.template_epoch_ok built indexed.tip_stored tracked.current hash⟩

end ChainService

/-- The new branch of the reorganisation samples, one block of difficulty one
after another, ends with the current epoch ext at its tip's block epoch. -/
theorem newBranch_tracks_current_epoch :
    ∃ service, runFromGenesis newBranch = .ok service ∧
      service.store.currentEpochExt = service.store.blockEpoch service.tip.hash := by
  obtain ⟨service, ran⟩ := Except.exists_eq_ok_of_isSome
    (by decide +kernel : (runFromGenesis newBranch).toOption.isSome = true)
  exact ⟨service, ran,
    (ChainService.processBlocks_init_currentEpochExt init_genesisChain rfl (by decide) (by decide)
      (by unfold ChainService.NumbersVerified; decide) (by decide)
      (processBlocks_of_runFromGenesis ran)).1⟩

section Samples

/-! A genesis block of difficulty zero and a genesis epoch one block long, as
`Consensus::set_genesis_epoch_ext` may set it, which pays the whole epoch
reward of 1000 shannons to that block.  `next_epoch_ext` keeps difficulty
zero in every later epoch.  `sideEpochBlock` extends the genesis block with a
larger hash, so it stays beside the chain, and opens the second epoch;
`switchBlock` extends it with a smaller hash than the genesis block's and
becomes the tip.  Both pay the genesis epoch's reward to the bootstrap
lock. -/

def zeroGenesisBlock : Block := ⟨⟨0, 0, 0, 0, ⟨0⟩, ⟨20⟩⟩, [], [rewardCellbase 0 100 0], []⟩

def zeroDifficultyConsensus : Consensus :=
  { shortWindowConsensus with
    genesisHeader := zeroGenesisBlock.header
    epochReward := ⟨1000⟩
    epochRewardFits := by decide
    genesisEpochExt := ⟨0, ⟨1000⟩, ⟨0⟩, ⟨0⟩, 0, 1, 0⟩ }

/-- The epoch `next_epoch_ext` opens after the genesis block, which has no
uncles: the longest length, and the larger of the minimum and half the last
difficulty. -/
def secondEpoch : EpochExt := ⟨1, ⟨0⟩, ⟨1000⟩, zeroGenesisBlock.header.hash, 1, maxEpochLength, 0⟩

def sideEpochBlock : Block :=
  ⟨⟨1, 1, 1, 0, zeroGenesisBlock.header.hash, ⟨30⟩⟩, [], [rewardCellbase 1 3000 1000], []⟩

def switchBlock : Block :=
  ⟨⟨2, 1, 2, 0, sideEpochBlock.header.hash, ⟨10⟩⟩, [], [rewardCellbase 2 1000 1000], []⟩

/-- `ChainKVStore::init`, then `process_block` with verification over
`blocks`. -/
def runEpochs (blocks : List Block) : Except String ChainService := do
  let service ← ChainService.init zeroDifficultyConsensus zeroGenesisBlock
  ChainService.processBlocks zeroDifficultyConsensus acceptingChecks true service blocks

/-- The header checks the callers of `process_block` run first:
`NumberVerifier` against the stored parent, and `EpochVerifier` against the
epoch `HeaderResolverWrapper` resolves. -/
def headerChecked (consensus : Consensus) (store : ChainStore) (header : Header) : Bool :=
  match store.getBlockHeader header.parentHash, HeaderResolverWrapper.new consensus store header with
  | some parent, .ok resolver =>
    (NumberVerifier.verify parent header).isOk && (EpochVerifier.verify resolver).isOk
  | _, _ => false

end Samples

theorem epochVerifier_template_seal (consensus : Consensus) (store : ChainStore)
    (template : BlockTemplate) (hash : H256) :
    EpochVerifier.verify <$> HeaderResolverWrapper.new consensus store (template.header hash) =
      EpochVerifier.verify <$> HeaderResolverWrapper.new consensus store (template.header ⟨0⟩) := by
  simp only [HeaderResolverWrapper.new, BlockTemplate.header]
  cases store.getBlockHeader template.parentHash with
  | none => rfl
  | some parent =>
      dsimp only
      cases store.blockEpoch parent.hash with
      | none => rfl
      | some lastEpoch =>
          dsimp only
          cases store.nextEpochExt consensus lastEpoch parent <;> rfl

end Ckb
