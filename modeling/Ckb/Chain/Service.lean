import Ckb.Verification.Contextual

/-!
# The chain service

A model of `ChainService::process_block` (`chain/src/chain.rs`).  A block is
stored with its ext; when its total difficulty beats the tip's (ties go to
the smaller hash), `find_fork` collects the blocks the switch detaches and
attaches, `update_index` moves the number index to the new branch, and
`reconcile_main_chain` verifies the attached blocks that were never verified
and records the result in their exts; the new tip's epoch becomes the current
epoch ext when the tip opens an epoch or the switch detached blocks.

All of it is one batch: every read during `insert_block` goes to the store as
it was before the call, and the batch is committed only when nothing failed,
so a call that fails leaves the store as it was.  The in-memory chain state
is the tip and its total difficulty; its cell set, proposal table and the
transaction pool are not modelled, and neither are the notifications.

`RewardVerifier` checks the cellbase of a block against `block_reward` of
the block's parent, computed on the store as it was committed before
`insert_block` began.  For a block that extends the tip, that store is the one
in which the parent is the tip, so the block is checked against the reward
its miner computed: `insertBlock_extending_tip_pays_blockReward`.  For the
later blocks of a fork that one switch attaches, the store is not that one:
the fork's exts are still unverified and hold no fees, and the number index
still describes the old chain.  The samples at the end build such a switch
from the genesis block with `process_block`.
-/

namespace Ckb

/-- The errors of `insert_block` (`SharedError` and the block verifier's
error), and a panic with its message. -/
inductive SharedError where
  | invalidBlock
  | invalidParentBlock
  | unresolvableTransaction
  | invalidTransaction (error : VerifyError)
  | capacity (error : CapacityError)
  | panic (message : String)
  deriving DecidableEq, Repr

def SharedError.ofDao : DaoError → SharedError
  | .capacity error => .capacity error
  | .panic message => .panic message

/-- The store with the tip of the chain state. -/
structure ChainService where
  store : ChainStore
  tip : Header
  totalDifficulty : Nat

/-- `ForkChanges`: the blocks a chain switch attaches, lowest first, the
blocks it detaches, and the exts of the attached blocks still to verify. -/
structure ForkChanges where
  attachedBlocks : List Block
  detachedBlocks : List Block
  dirtyExts : List BlockExt

/-- `GlobalIndex`: where the walk of `find_fork` down the new branch is. -/
structure GlobalIndex where
  number : Nat
  hash : H256
  unseen : Bool

namespace ChainService

section FindFork

variable (store : ChainStore)

/-- The step both loops of `find_fork` take while the walk has met only
unverified blocks: the ext of the block at the index joins the dirty exts,
or, once a verified block is met, the walk stops collecting. -/
def markDirty (message : String) (hash : H256) (unseen : Bool) (fork : ForkChanges) :
    Except SharedError (ForkChanges × Bool) :=
  if unseen then do
    let ext ← (store.getBlockExt hash).getDM (.error (.panic message))
    if ext.verified.isNone then pure ({ fork with dirtyExts := ext :: fork.dirtyExts }, true)
    else pure (fork, false)
  else
    pure (fork, unseen)

/-- The first branch of `alignment_fork`: the main-chain blocks at the
heights in `numbers`, each pushed to the front of the detached blocks. -/
def detachHeights (fork : ForkChanges) : List Nat → Except SharedError ForkChanges
  | [] => pure fork
  | number :: numbers => do
    let hash ← (store.blockHash number).getDM
      (.error (.panic "block hash stored before alignment_fork"))
    let oldBlock ← (store.block hash).getDM
      (.error (.panic "block data stored before alignment_fork"))
    detachHeights { fork with detachedBlocks := oldBlock :: fork.detachedBlocks } numbers

/-- The second branch of `alignment_fork`: the blocks of the new branch above
the current tip's height, pushed to the front of the attached blocks.  The
index is passed as its three fields, so that the recursion is on its
number. -/
def attachAbove (currentTipNumber : Nat) :
    Nat → H256 → Bool → ForkChanges → Except SharedError (ForkChanges × GlobalIndex)
  | 0, hash, unseen, fork => pure (fork, ⟨0, hash, unseen⟩)
  | number + 1, hash, unseen, fork =>
    if number + 1 > currentTipNumber then do
      let (fork, unseen) ← markDirty store "block ext stored before alignment_fork" hash unseen fork
      let newBlock ← (store.block hash).getDM
        (.error (.panic "block data stored before alignment_fork"))
      attachAbove currentTipNumber number newBlock.header.parentHash unseen
        { fork with attachedBlocks := newBlock :: fork.attachedBlocks }
    else
      pure (fork, ⟨number + 1, hash, unseen⟩)

/-- `alignment_fork`: bring the walk and the chain to one height. -/
def alignmentFork (fork : ForkChanges) (index : GlobalIndex)
    (newTipNumber currentTipNumber : Nat) : Except SharedError (ForkChanges × GlobalIndex) :=
  if newTipNumber ≤ currentTipNumber then do
    let fork ← detachHeights store fork
      (List.range' newTipNumber (currentTipNumber + 1 - newTipNumber))
    pure (fork, index)
  else
    attachAbove store currentTipNumber index.number index.hash index.unseen fork

/-- `find_fork_until_latest_common`: walk the new branch and the chain down
together until they meet.  The index is passed as its three fields. -/
def findForkUntilLatestCommon :
    Nat → H256 → Bool → ForkChanges → Except SharedError ForkChanges
  | 0, _, _, fork => pure fork
  | number + 1, hash, unseen, fork => do
    let detachedHash ← (store.blockHash (number + 1)).getDM
      (.error (.panic "detached hash stored before find_fork_until_latest_common"))
    if detachedHash = hash then return fork
    let detachedBlock ← (store.block detachedHash).getDM
      (.error (.panic "detached block stored before find_fork_until_latest_common"))
    let fork := { fork with detachedBlocks := detachedBlock :: fork.detachedBlocks }
    let (fork, unseen) ←
      markDirty store "block ext stored before find_fork_until_latest_common" hash unseen fork
    let attachedBlock ← (store.block hash).getDM
      (.error (.panic "attached block stored before find_fork_until_latest_common"))
    findForkUntilLatestCommon number attachedBlock.header.parentHash unseen
      { fork with attachedBlocks := attachedBlock :: fork.attachedBlocks }

/-- `find_fork`: the changes of switching from the chain with tip height
`currentTipNumber` to the branch of `newTipBlock`. -/
def findFork (currentTipNumber : Nat) (newTipBlock : Block) (newTipExt : BlockExt) :
    Except SharedError ForkChanges := do
  let newTipNumber := newTipBlock.header.number
  let fork : ForkChanges := ⟨[newTipBlock], [], [newTipExt]⟩
  if newTipNumber = 0 then .error (.panic "attempt to subtract with overflow")
  let index : GlobalIndex := ⟨newTipNumber - 1, newTipBlock.header.parentHash, true⟩
  let (fork, index) ← alignmentFork store fork index newTipNumber currentTipNumber
  findForkUntilLatestCommon store index.number index.hash index.unseen fork

end FindFork

/-- `update_index`: detach the old branch from the number index, then attach
the new one. -/
def updateIndex (detachedBlocks attachedBlocks : List Block) : List StoreWrite :=
  detachedBlocks.map .detachBlock ++ attachedBlocks.map .attachBlock

section Reconcile

variable (consensus : Consensus) (checks : BlockChecks) (store : ChainStore) (needVerify : Bool)

/-- The outcome of verifying one attached block in `reconcile_main_chain`:
its new `verified`, its fees, and the error found so far.  A failure of
`BlockCellProvider::new` keeps `verified` and skips the push of the block
to the context in the source; after it nothing more is verified and the batch
is dropped, so it is treated as any failure to resolve. -/
def verifyAttached (context : ForkContext) (foundError : Option SharedError) (block : Block) :
    Except SharedError (Option Bool × List Capacity × Option SharedError) :=
  if needVerify then
    if foundError.isNone then
      let cellProvider := checks.cellProvider store context
      let headerProvider := checks.headerProvider store context block
      match resolveBlock cellProvider headerProvider block with
      | .error _ => pure (some false, [], some .unresolvableTransaction)
      | .ok resolved =>
        match ContextualBlockVerifier.verify consensus store checks context resolved block with
        | .ok txsFees => pure (some true, txsFees, none)
        | .error (.panic message) => .error (.panic message)
        | .error error => pure (some false, [], some (.invalidTransaction error))
    else
      pure (some false, [], foundError)
  else
    pure (some true, [], foundError)

/-- The verification loop of `reconcile_main_chain` over the attached blocks
that need it, each verified with the blocks before it in the context. -/
def verifyLoop : ForkContext → Option SharedError → List (H256 × Block) →
    Except SharedError (List (H256 × Option Bool × List Capacity) × Option SharedError)
  | _, foundError, [] => pure ([], foundError)
  | context, foundError, (hash, block) :: blocks => do
    let (verified, txsFees, foundError) ←
      verifyAttached consensus checks store needVerify context foundError block
    let context := { context with attachedBlocks := context.attachedBlocks ++ [block] }
    let (results, foundError) ← verifyLoop context foundError blocks
    pure ((hash, verified, txsFees) :: results, foundError)

/-- `reconcile_main_chain`: the ext writes of the attached blocks verified
now, or the first error found. -/
def reconcileMainChain (fork : ForkChanges) : Except SharedError (List StoreWrite) := do
  let verifiedLen := fork.attachedBlocks.length - fork.dirtyExts.length
  let context : ForkContext := ⟨fork.attachedBlocks.take verifiedLen, fork.detachedBlocks⟩
  let toVerify := (fork.attachedBlocks.drop verifiedLen).map fun block => (block.header.hash, block)
  let (verifyResults, foundError) ←
    verifyLoop consensus checks store needVerify context none toVerify
  let extWrites := (fork.dirtyExts.zip verifyResults).map fun (ext, hash, verified, txsFees) =>
    StoreWrite.insertBlockExt hash { ext with verified, txsFees }
  match foundError with
  | some error => .error error
  | none => pure extWrites

end Reconcile

section Insert

variable (consensus : Consensus) (checks : BlockChecks)

/-- Whether a block of total difficulty `cannonTotalDifficulty` replaces the
tip: more difficulty, or as much and a smaller hash. -/
def isNewBest (service : ChainService) (block : Block) (cannonTotalDifficulty : Nat) : Bool :=
  cannonTotalDifficulty > service.totalDifficulty ||
    (service.totalDifficulty == cannonTotalDifficulty &&
      decide (block.header.hash.value < service.tip.hash.value))

/-- `insert_block`: the new store and tip, or the error, after which nothing
is committed.  The block's ext carries the DAO stats `calculate_dao_data`
derives from the parent's. -/
def insertBlock (service : ChainService) (block : Block) (needVerify : Bool) :
    Except SharedError ChainService := do
  if needVerify && !checks.verifyBlock block then .error .invalidBlock
  let store := service.store
  let parentExt ← (store.getBlockExt block.header.parentHash).getDM
    (.error (.panic "parent already store"))
  let parentHeader ← (store.getBlockHeader block.header.parentHash).getDM
    (.error (.panic "parent already store"))
  let cannonTotalDifficulty := parentExt.totalDifficulty + block.header.difficulty
  if parentExt.verified = some false then .error .invalidParentBlock
  let parentHeaderEpoch ← (store.blockEpoch parentHeader.hash).getDM
    (.error (.panic "parent epoch already store"))
  let nextEpochExt ← (store.nextEpochExt consensus parentHeaderEpoch parentHeader).mapError .panic
  let newEpoch := nextEpochExt.isSome
  let epoch := nextEpochExt.getD parentHeaderEpoch
  let (ar, c) ← (calculateDaoData parentHeader.number parentHeaderEpoch parentExt.daoStats
    consensus.secondaryEpochReward).mapError SharedError.ofDao
  let totalUnclesCount ← (Checked.addOrPanic u64Bound parentExt.totalUnclesCount
    block.uncles.length).mapError .panic
  let ext : BlockExt := ⟨cannonTotalDifficulty, totalUnclesCount, none, [], ⟨ar, c.shannons⟩⟩
  let stored := [StoreWrite.insertBlock block, .insertBlockEpoch block.header.hash epoch]
  if isNewBest service block cannonTotalDifficulty then
    let fork ← findFork store service.tip.number block ext
    let indexWrites := updateIndex fork.detachedBlocks fork.attachedBlocks
    let extWrites ← reconcileMainChain consensus checks store needVerify fork
    let epochWrites := if newEpoch || !fork.detachedBlocks.isEmpty then
      [StoreWrite.insertCurrentEpochExt epoch] else []
    pure ⟨store.commit (stored ++ indexWrites ++ extWrites ++ epochWrites), block.header,
      cannonTotalDifficulty⟩
  else
    pure { service with store := store.commit (stored ++ [.insertBlockExt block.header.hash ext]) }

/-- `ChainService::init` after `ChainKVStore::init`: the genesis block is
the tip. -/
def init (genesis : Block) : Except String ChainService := do
  let store ← ChainStore.init genesis consensus.genesisEpochExt
  pure ⟨store, genesis.header, genesis.header.difficulty⟩

/-- `process_block` over a sequence of blocks.  A call that returns an error
leaves the service as it was, and the next block is processed; a panic stops
the service thread, and the run with it. -/
def processBlocks (needVerify : Bool) : ChainService → List Block → Except String ChainService
  | service, [] => .ok service
  | service, block :: blocks =>
    match insertBlock consensus checks service block needVerify with
    | .ok service => processBlocks needVerify service blocks
    | .error (.panic message) => .error message
    | .error _ => processBlocks needVerify service blocks

end Insert

section Lemmas

variable {consensus : Consensus} {checks : BlockChecks} {store : ChainStore}

theorem attachAbove_self (tipNumber : Nat) (hash : H256) (unseen : Bool) (fork : ForkChanges) :
    attachAbove store tipNumber tipNumber hash unseen fork = pure (fork, ⟨tipNumber, hash, unseen⟩) := by
  cases tipNumber with
  | zero => rfl
  | succ number => simp [attachAbove]

theorem findForkUntilLatestCommon_indexed {number : Nat} {hash : H256} (unseen : Bool)
    (fork : ForkChanges) (indexed : store.blockHash number = some hash) :
    findForkUntilLatestCommon store number hash unseen fork = pure fork := by
  cases number with
  | zero => rfl
  | succ number => simp [findForkUntilLatestCommon, indexed]

theorem findFork_extends_tip {tipNumber : Nat} {block : Block} (ext : BlockExt)
    (indexed : store.blockHash tipNumber = some block.header.parentHash)
    (next : block.header.number = tipNumber + 1) :
    findFork store tipNumber block ext = .ok ⟨[block], [], [ext]⟩ := by
  have above : ¬tipNumber + 1 ≤ tipNumber := by omega
  simp only [findFork, next, Nat.add_one_ne_zero, if_false, alignmentFork, if_neg above,
    Nat.add_sub_cancel, attachAbove_self, pure_bind]
  exact findForkUntilLatestCommon_indexed true _ indexed

/-- A verification that ends with no error found started with none. -/
theorem verifyAttached_found {needVerify : Bool} {context : ForkContext} {error : SharedError}
    {block : Block} {verified : Option Bool} {txsFees : List Capacity}
    {foundError : Option SharedError}
    (success : verifyAttached consensus checks store needVerify context (some error) block =
      .ok (verified, txsFees, foundError)) :
    foundError = some error := by
  cases needVerify <;> simp_all [verifyAttached]

theorem verifyLoop_found {needVerify : Bool} {context : ForkContext} {error : SharedError}
    {blocks : List (H256 × Block)} {results : List (H256 × Option Bool × List Capacity)}
    {foundError : Option SharedError}
    (success : verifyLoop consensus checks store needVerify context (some error) blocks =
      .ok (results, foundError)) :
    foundError.isSome := by
  induction blocks generalizing context results foundError with
  | nil =>
      simp only [verifyLoop, Except.pure_eq_ok, Prod.mk.injEq] at success
      rw [← success.2]
      rfl
  | cons entry blocks induction =>
      obtain ⟨hash, block⟩ := entry
      simp only [verifyLoop, Except.bind_eq_ok, Prod.exists, Except.pure_eq_ok,
        Prod.mk.injEq] at success
      obtain ⟨verified, txsFees, found, attached, later, rest, looped, -, rfl⟩ := success
      rw [verifyAttached_found attached] at looped
      exact induction looped

/-- What `verifyAttached` has checked of a block it verified with no error
found. -/
theorem verifyAttached_ok {context : ForkContext} {foundError : Option SharedError}
    {block : Block} {verified : Option Bool} {txsFees : List Capacity}
    (success : verifyAttached consensus checks store true context foundError block =
      .ok (verified, txsFees, none)) :
    foundError = none ∧ verified = some true ∧ ∃ resolved,
      resolveBlock (checks.cellProvider store context) (checks.headerProvider store context block)
        block = .ok resolved ∧
      ContextualBlockVerifier.verify consensus store checks context resolved block = .ok txsFees := by
  cases foundError with
  | some error => cases verifyAttached_found success
  | none =>
      simp only [verifyAttached, if_true, Option.isNone_none] at success
      split at success
      · simp at success
      · rename_i resolved resolvedOk
        split at success
        · rename_i fees verifiedOk
          simp only [Except.pure_eq_ok, Prod.mk.injEq] at success
          obtain ⟨rfl, rfl, -⟩ := success
          exact ⟨rfl, rfl, resolved, resolvedOk, verifiedOk⟩
        · cases success
        · simp at success

/-- The verification loop keeps the hashes of the blocks it goes through, in
order, whatever it finds. -/
theorem verifyLoop_hashes {needVerify : Bool} {context : ForkContext}
    {foundError foundError' : Option SharedError} {blocks : List (H256 × Block)}
    {results : List (H256 × Option Bool × List Capacity)}
    (success : verifyLoop consensus checks store needVerify context foundError blocks =
      .ok (results, foundError')) :
    List.Forall₂ (fun (entry : H256 × Block) (result : H256 × Option Bool × List Capacity) =>
      result.1 = entry.1) blocks results := by
  induction blocks generalizing context foundError results foundError' with
  | nil =>
      simp only [verifyLoop, Except.pure_eq_ok, Prod.mk.injEq] at success
      rw [← success.1]
      exact .nil
  | cons entry blocks induction =>
      obtain ⟨hash, block⟩ := entry
      simp only [verifyLoop, Except.bind_eq_ok, Prod.exists, Except.pure_eq_ok,
        Prod.mk.injEq] at success
      obtain ⟨verified, txsFees, found, -, later, rest, looped, rfl, -⟩ := success
      exact .cons rfl (induction looped)

/-- Every block the verification loop goes through with no error found is
verified, in the context of the blocks before it; the results keep the
blocks' hashes. -/
theorem verifyLoop_ok {context : ForkContext} {blocks : List (H256 × Block)}
    {results : List (H256 × Option Bool × List Capacity)}
    (success : verifyLoop consensus checks store true context none blocks = .ok (results, none)) :
    List.Forall₂ (fun (entry : H256 × Block) (result : H256 × Option Bool × List Capacity) =>
      result.1 = entry.1 ∧ result.2.1 = some true ∧ ∃ context resolved,
        resolveBlock (checks.cellProvider store context)
          (checks.headerProvider store context entry.2) entry.2 = .ok resolved ∧
        ContextualBlockVerifier.verify consensus store checks context resolved entry.2 =
          .ok result.2.2) blocks results := by
  induction blocks generalizing context results with
  | nil =>
      simp only [verifyLoop, Except.pure_eq_ok, Prod.mk.injEq] at success
      rw [← success.1]
      exact .nil
  | cons entry blocks induction =>
      obtain ⟨hash, block⟩ := entry
      simp only [verifyLoop, Except.bind_eq_ok, Prod.exists, Except.pure_eq_ok,
        Prod.mk.injEq] at success
      obtain ⟨verified, txsFees, found, attached, later, rest, looped, rfl, rfl⟩ := success
      cases found with
      | some error =>
          have stays := verifyLoop_found looped
          simp at stays
      | none =>
          obtain ⟨-, verifiedEq, resolved, resolvedOk, verifiedOk⟩ := verifyAttached_ok attached
          exact .cons ⟨rfl, verifiedEq, context, resolved, resolvedOk, verifiedOk⟩ (induction looped)

/-- A reconciliation that passes ran the verification loop over the attached
blocks that needed it with no error found, and writes their exts with the
loop's results. -/
theorem reconcileMainChain_ok {needVerify : Bool} {fork : ForkChanges}
    {writes : List StoreWrite}
    (success : reconcileMainChain consensus checks store needVerify fork = .ok writes) :
    ∃ results, verifyLoop consensus checks store needVerify
        ⟨fork.attachedBlocks.take (fork.attachedBlocks.length - fork.dirtyExts.length),
          fork.detachedBlocks⟩ none
        ((fork.attachedBlocks.drop (fork.attachedBlocks.length - fork.dirtyExts.length)).map
          fun block => (block.header.hash, block)) = .ok (results, none) ∧
      writes = (fork.dirtyExts.zip results).map fun (ext, hash, verified, txsFees) =>
        StoreWrite.insertBlockExt hash { ext with verified, txsFees } := by
  simp only [reconcileMainChain, Except.bind_eq_ok, Prod.exists] at success
  obtain ⟨results, found, looped, written⟩ := success
  cases found with
  | some error => cases written
  | none =>
      simp only [Except.pure_eq_ok] at written
      exact ⟨results, looped, written.symm⟩

/-- What `init` leaves when the DAO stats of the genesis block are computed:
the store of `ChainKVStore::init` with the genesis block as the tip. -/
theorem init_ok {genesis : Block} {service : ChainService}
    (initialized : init consensus genesis = .ok service) :
    ∃ daoStats, genesisDaoStats genesis = .ok daoStats ∧
      service = ⟨ChainStore.empty.commit
        [.insertBlock genesis,
         .insertBlockExt genesis.header.hash ⟨genesis.header.difficulty, 0, some true, [], daoStats⟩,
         .insertCurrentEpochExt consensus.genesisEpochExt,
         .insertBlockEpoch genesis.header.hash consensus.genesisEpochExt,
         .attachBlock genesis], genesis.header, genesis.header.difficulty⟩ := by
  simp only [init, ChainStore.init, Except.bind_eq_ok, Except.pure_eq_ok] at initialized
  obtain ⟨store, ⟨daoStats, computed, rfl⟩, rfl⟩ := initialized
  exact ⟨daoStats, computed, rfl⟩

/-- The ext `insert_block` writes for a block from its parent's: the block's
total difficulty and uncle count, no verdict, no fees, and the DAO stats of
`calculate_dao_data`. -/
def newExt (parentExt : BlockExt) (block : Block) (daoData : Nat × Capacity) : BlockExt :=
  ⟨parentExt.totalDifficulty + block.header.difficulty,
    parentExt.totalUnclesCount + block.uncles.length, none, [],
    ⟨daoData.1, daoData.2.shannons⟩⟩

@[simp] theorem newExt_totalDifficulty (parentExt : BlockExt) (block : Block)
    (daoData : Nat × Capacity) :
    (newExt parentExt block daoData).totalDifficulty =
      parentExt.totalDifficulty + block.header.difficulty := rfl

@[simp] theorem newExt_verified (parentExt : BlockExt) (block : Block) (daoData : Nat × Capacity) :
    (newExt parentExt block daoData).verified = none := rfl

@[simp] theorem newExt_txsFees (parentExt : BlockExt) (block : Block) (daoData : Nat × Capacity) :
    (newExt parentExt block daoData).txsFees = [] := rfl

/-- What `insert_block` reads and derives before it chooses: the parent's
ext, header and epoch, the epoch `next_epoch_ext` opens after the parent if
any, and the DAO data of the block. -/
structure Derived (consensus : Consensus) (store : ChainStore) (block : Block)
    (parentExt : BlockExt) (parentHeader : Header) (parentEpoch : EpochExt)
    (nextEpoch : Option EpochExt) (daoData : Nat × Capacity) : Prop where
  extStored : store.getBlockExt block.header.parentHash = some parentExt
  headerStored : store.getBlockHeader block.header.parentHash = some parentHeader
  parentValid : parentExt.verified ≠ some false
  epochStored : store.blockEpoch parentHeader.hash = some parentEpoch
  nextEpochComputed : store.nextEpochExt consensus parentEpoch parentHeader = .ok nextEpoch
  daoCalculated : calculateDaoData parentHeader.number parentEpoch parentExt.daoStats
    consensus.secondaryEpochReward = .ok daoData
  unclesFit : parentExt.totalUnclesCount + block.uncles.length < u64Bound

/-- What `insert_block` did when it passed: the block passed the block
verifier if asked to, and its parent was stored and not marked invalid, with
its epoch; then either the block became the tip through a chain switch whose
reconciliation passed, or it was stored beside the chain.  Either way the
block, its epoch and the index and ext writes went into the one committed
batch. -/
theorem insertBlock_ok {service : ChainService} {block : Block} {needVerify : Bool}
    {service' : ChainService}
    (success : insertBlock consensus checks service block needVerify = .ok service') :
    (needVerify = true → checks.verifyBlock block = true) ∧
    ∃ parentExt parentHeader parentEpoch nextEpoch daoData,
      Derived consensus service.store block parentExt parentHeader parentEpoch nextEpoch daoData ∧
      ((isNewBest service block (parentExt.totalDifficulty + block.header.difficulty) = true ∧
        ∃ fork extWrites,
          findFork service.store service.tip.number block (newExt parentExt block daoData) =
            .ok fork ∧
          reconcileMainChain consensus checks service.store needVerify fork = .ok extWrites ∧
          service' = ⟨service.store.commit
            ([.insertBlock block, .insertBlockEpoch block.header.hash (nextEpoch.getD parentEpoch)] ++
              updateIndex fork.detachedBlocks fork.attachedBlocks ++ extWrites ++
              if nextEpoch.isSome || !fork.detachedBlocks.isEmpty then
                [.insertCurrentEpochExt (nextEpoch.getD parentEpoch)]
              else []),
            block.header, parentExt.totalDifficulty + block.header.difficulty⟩) ∨
       (isNewBest service block (parentExt.totalDifficulty + block.header.difficulty) = false ∧
        service' = { service with
          store := service.store.commit
            [.insertBlock block, .insertBlockEpoch block.header.hash (nextEpoch.getD parentEpoch),
              .insertBlockExt block.header.hash (newExt parentExt block daoData)] })) := by
  simp only [insertBlock, Except.bind_eq_ok, Except.getDM_error_eq_ok, Except.ite_error_eq_ok,
    Except.error_bind, Except.mapError_eq_ok, Prod.exists] at success
  obtain ⟨checked, parentExt, extStored, parentHeader, headerStored, notInvalid, parentEpoch,
    epochStored, nextEpoch, nextComputed, ar, c, calculated, totalUnclesCount, counted,
    chosen⟩ := success
  obtain ⟨rfl, fits⟩ := Checked.addOrPanic_eq_ok_iff.mp counted
  refine ⟨fun asked => by simpa [asked] using checked, parentExt, parentHeader, parentEpoch,
    nextEpoch, (ar, c), ⟨extStored, headerStored, notInvalid, epochStored, nextComputed,
      calculated, fits⟩, ?_⟩
  by_cases best : isNewBest service block (parentExt.totalDifficulty + block.header.difficulty)
  · simp only [best, if_true, Except.bind_eq_ok, Except.pure_eq_ok] at chosen
    obtain ⟨fork, found, extWrites, reconciled, rfl⟩ := chosen
    exact .inl ⟨best, fork, extWrites, found, reconciled, rfl⟩
  · simp only [best, Bool.false_eq_true, if_false, Except.pure_eq_ok] at chosen
    refine .inr ⟨by simpa using best, ?_⟩
    rw [← chosen]
    rfl

/-- A block that does not become the best is stored beside the chain with a
fresh ext: its total difficulty and DAO stats, no verdict and no fees.
Nothing asks whether the store holds the block already. -/
theorem insertBlock_of_not_best {service : ChainService} {block : Block} {needVerify : Bool}
    {parentExt : BlockExt} {parentHeader : Header} {parentEpoch : EpochExt}
    {nextEpoch : Option EpochExt} {daoData : Nat × Capacity}
    (verifies : needVerify = true → checks.verifyBlock block = true)
    (derived : Derived consensus service.store block parentExt parentHeader parentEpoch nextEpoch
      daoData)
    (notBest : isNewBest service block (parentExt.totalDifficulty + block.header.difficulty) = false) :
    insertBlock consensus checks service block needVerify = .ok { service with
      store := service.store.commit
        [.insertBlock block, .insertBlockEpoch block.header.hash (nextEpoch.getD parentEpoch),
          .insertBlockExt block.header.hash (newExt parentExt block daoData)] } := by
  have checked : (needVerify && !checks.verifyBlock block) = false := by
    cases needVerify with
    | false => rfl
    | true => simp [verifies rfl]
  have counted : Checked.addOrPanic u64Bound parentExt.totalUnclesCount block.uncles.length =
      .ok (parentExt.totalUnclesCount + block.uncles.length) :=
    Checked.addOrPanic_eq_ok_iff.mpr ⟨rfl, derived.unclesFit⟩
  simp [insertBlock, checked, derived.extStored, derived.headerStored, derived.parentValid,
    derived.epochStored, derived.nextEpochComputed, derived.daoCalculated, counted, notBest,
    Option.getDM, newExt]

/-- What every insertion of a run keeps, the run keeps: a block that fails
with an error leaves the service as it was, and a panic ends the run.  The
invariant may read the blocks still to come. -/
theorem processBlocks_invariant {needVerify : Bool} {inv : ChainService → List Block → Prop}
    (inserted : ∀ service service' block blocks, inv service (block :: blocks) →
      insertBlock consensus checks service block needVerify = .ok service' → inv service' blocks)
    (rejected : ∀ service block blocks, inv service (block :: blocks) → inv service blocks) :
    ∀ {blocks : List Block} {service service' : ChainService}, inv service blocks →
      processBlocks consensus checks needVerify service blocks = .ok service' → inv service' []
  | [], service, service', holds, run => by
      simp only [processBlocks, Except.ok.injEq] at run
      exact run ▸ holds
  | block :: blocks, service, service', holds, run => by
      simp only [processBlocks] at run
      cases success : insertBlock consensus checks service block needVerify with
      | ok next =>
          rw [success] at run
          exact processBlocks_invariant inserted rejected (inserted _ _ _ _ holds success) run
      | error error =>
          rw [success] at run
          cases error with
          | panic message => cases run
          | _ => exact processBlocks_invariant inserted rejected (rejected _ _ _ holds) run

end Lemmas

end ChainService

section Extending

variable {consensus : Consensus} {checks : BlockChecks}

/-- A block that extends the tip, once blocks are finalized, passes only if
its cellbase pays the reward that the calculator computes on the store in
which its parent is the committed tip, to the lock it names. -/
theorem insertBlock_extending_tip_pays_blockReward {service service' : ChainService}
    {block : Block}
    (indexed : service.store.blockHash service.tip.number = some service.tip.hash)
    (tipStored : service.store.getBlockHeader service.tip.hash = some service.tip)
    (onTip : block.header.parentHash = service.tip.hash)
    (next : block.header.number = service.tip.number + 1)
    (finalized : consensus.reserveNumber < block.header.number)
    (success : ChainService.insertBlock consensus checks service block true = .ok service')
    (becameTip : service'.tip = block.header) :
    ∃ targetLock reward cellbase output,
      RewardCalculator.blockReward consensus service.store service.tip = .ok (targetLock, reward) ∧
      block.transactions.head? = some cellbase ∧ cellbase.outputsCapacity = .ok reward ∧
      cellbase.outputs.head? = some output ∧ output.lock = targetLock := by
  obtain ⟨-, parentExt, parentHeader, parentEpoch, nextEpoch, daoData, -, chosen⟩ :=
    ChainService.insertBlock_ok success
  rcases chosen with ⟨-, fork, extWrites, found, reconciled, rfl⟩ | ⟨-, rfl⟩
  · -- the switch attaches the block alone and verifies it against the tip
    rw [← onTip] at indexed
    rw [ChainService.findFork_extends_tip _ indexed next] at found
    cases found
    obtain ⟨results, looped, -⟩ := ChainService.reconcileMainChain_ok reconciled
    simp only [List.length_singleton, Nat.sub_self, List.take_zero, List.drop_zero,
      List.map_cons, List.map_nil] at looped
    obtain ⟨result, rest, ⟨-, -, context, resolved, resolvedOk, verifiedOk⟩, -, -⟩ :=
      List.forall₂_cons_left_iff.mp (ChainService.verifyLoop_ok looped)
    obtain ⟨parent, stored, -, rewarded⟩ := ContextualBlockVerifier.verify_ok verifiedOk
    rw [onTip, tipStored, Option.some.injEq] at stored
    subst stored
    obtain ⟨cellbase, targetLock, reward, output, first, rewardOk, paid, head, locked⟩ :=
      RewardVerifier.verify_ok rewarded (by omega)
    have transactions := resolveBlock_transactions resolvedOk
    refine ⟨targetLock, reward, cellbase.transaction, output, rewardOk, ?_, paid, head, locked⟩
    rw [← transactions, List.head?_map, first]
    rfl
  · -- a block stored beside the chain leaves the tip where it was
    have sameTip : service.tip = block.header := becameTip
    rw [sameTip] at next
    omega

end Extending

section Samples

/-! A proposal window of `(1, 2)`, so that a block pays the reward of the
block three below it; the proposer takes `4/10` of a fee; every block of the
one epoch earns 1000 shannons.  Every check that the model does not embed
passes; one cell, of 100 shannons, is live, and a transaction's fee is what its
inputs hold beyond its outputs.

Two branches leave the genesis block.  The old branch has four blocks.  The
new branch has five: its first block proposes `feePayer`, its second commits
it for a fee of 10 shannons, and every cellbase pays what `RewardVerifier`
asks of it when its parent is the tip.  Every block has difficulty 1, and the
new branch's blocks have the larger hashes. -/

def minerLock : Script := ⟨[], ⟨0⟩⟩

def fundingOutPoint : OutPoint := ⟨none, some ⟨⟨9⟩, 0⟩⟩

def fundingCell : CellMeta :=
  ⟨some ⟨⟨100⟩, [], minerLock, none⟩, ⟨⟨9⟩, 0⟩, some ⟨0, 0⟩, false, ⟨100⟩, none⟩

/-- What a resolved transaction's inputs hold beyond its outputs. -/
def inputsOverOutputs (rtx : ResolvedTransaction) : Option Capacity :=
  match rtx.inputsCapacity, rtx.transaction.outputsCapacity with
  | .ok inputs, .ok outputs => some ⟨inputs.shannons - outputs.shannons⟩
  | _, _ => none

def acceptingChecks : BlockChecks where
  verifyBlock _ := true
  cellProvider _ _ outPoint := if outPoint = fundingOutPoint then .live fundingCell else .unknown
  headerProvider _ _ _ _ := .unspecified
  verifyUncles _ _ _ _ := true
  verifyTransactions _ _ _ _ := true
  transactionFee _ := inputsOverOutputs

/-- The cellbase of the block at `number`, paying `reward` to `minerLock`,
whose code hash its witness names.  The leading bytes of its hash, its
proposal short id, are `shortId`. -/
def rewardCellbase (number shortId reward : Nat) : Transaction :=
  ⟨0, [], [⟨OutPoint.null, UInt64.ofNat number⟩], [⟨⟨reward⟩, [], minerLock, none⟩],
    [[List.replicate 32 0]], ⟨shortId * 2 ^ 176⟩⟩

/-- Spends the funding cell and keeps 90 shannons: a fee of 10.  Its short
id is 5, which no cellbase has. -/
def feePayer : Transaction :=
  ⟨0, [], [⟨fundingOutPoint, 0⟩], [⟨⟨90⟩, [], minerLock, none⟩], [[]], ⟨5 * 2 ^ 176⟩⟩

def genesisBlock : Block := ⟨⟨0, 0, 0, 1, ⟨0⟩, ⟨1⟩⟩, [], [rewardCellbase 0 100 0], []⟩

/-- An epoch reward of 1000 shannons a block over the genesis epoch, whose
ext is the one `ChainSpec::build_consensus` derives, and no secondary
issuance. -/
def shortWindowConsensus : Consensus where
  genesisHeader := genesisBlock.header
  epochReward := ⟨1250000⟩
  epochRewardFits := by decide
  txProposalWindow := ⟨1, 2, by decide⟩
  proposerRewardRatio := ⟨4, 10⟩
  secondaryEpochReward := ⟨0⟩
  genesisEpochExt := ⟨0, ⟨1000⟩, ⟨0⟩, ⟨0⟩, 0, 1250, 1⟩
  bootstrapLock := minerLock

def branchBlock (number hash parent reward : Nat) (commits : List Transaction)
    (proposals : List ProposalShortId) : Block :=
  ⟨⟨number, 0, number, 1, ⟨parent⟩, ⟨hash⟩⟩, [],
    rewardCellbase number (hash * 100) reward :: commits, proposals⟩

/-- The block at `number` of the old branch, of hash `10 + number`. -/
def oldBranchBlock (number : Nat) : Block :=
  branchBlock number (10 + number) (if number = 1 then 1 else 9 + number) 1000 [] []

/-- The block at `number` of the new branch, of hash `20 + number`. -/
def newBranchBlock (number : Nat) : Block :=
  branchBlock number (20 + number) (if number = 1 then 1 else 19 + number)
    (if number = 5 then 1006 else 1000) (if number = 2 then [feePayer] else [])
    (if number = 1 then [feePayer.proposalShortId] else [])

def oldBranch : List Block := (List.range' 1 4).map oldBranchBlock

def newBranch : List Block := (List.range' 1 5).map newBranchBlock

/-- The service `init` starts at the genesis block. -/
def genesisChain : ChainService :=
  match ChainService.init shortWindowConsensus genesisBlock with
  | .ok chain => chain
  | .error _ => ⟨ChainStore.empty, genesisBlock.header, genesisBlock.header.difficulty⟩

/-- `process_block` with verification over `blocks`, from the genesis
block. -/
def runFromGenesis (blocks : List Block) : Except String ChainService := do
  let service ← ChainService.init shortWindowConsensus genesisBlock
  ChainService.processBlocks shortWindowConsensus acceptingChecks true service blocks

theorem init_genesisChain : ChainService.init shortWindowConsensus genesisBlock = .ok genesisChain := by
  obtain ⟨chain, built⟩ := Except.exists_eq_ok_of_isSome
    (by decide +kernel : (ChainService.init shortWindowConsensus genesisBlock).toOption.isSome = true)
  unfold genesisChain
  rw [built]

theorem runFromGenesis_eq (blocks : List Block) : runFromGenesis blocks =
    ChainService.processBlocks shortWindowConsensus acceptingChecks true genesisChain blocks := by
  rw [runFromGenesis, init_genesisChain, Except.ok_bind]

theorem processBlocks_of_runFromGenesis {blocks : List Block} {service : ChainService}
    (ran : runFromGenesis blocks = .ok service) :
    ChainService.processBlocks shortWindowConsensus acceptingChecks true genesisChain blocks =
      .ok service :=
  (runFromGenesis_eq blocks).symm.trans ran

/-- The fourth block of the new branch, on the tip the first three leave,
pays the reward the calculator computes there. -/
theorem fourthNewBlock_pays_blockReward :
    ∃ service, runFromGenesis (newBranch.take 3) = .ok service ∧
      ∃ targetLock reward cellbase output,
        RewardCalculator.blockReward shortWindowConsensus service.store service.tip =
          .ok (targetLock, reward) ∧
        (newBranchBlock 4).transactions.head? = some cellbase ∧
        cellbase.outputsCapacity = .ok reward ∧ cellbase.outputs.head? = some output ∧
        output.lock = targetLock := by
  have checked : (fun service =>
      (service.store.blockHash service.tip.number == some service.tip.hash &&
        service.store.getBlockHeader service.tip.hash == some service.tip &&
        (newBranchBlock 4).header.parentHash == service.tip.hash &&
        (newBranchBlock 4).header.number == service.tip.number + 1,
      (fun inserted => inserted.tip == (newBranchBlock 4).header) <$>
        ChainService.insertBlock shortWindowConsensus acceptingChecks service (newBranchBlock 4)
          true)) <$> runFromGenesis (newBranch.take 3) = .ok (true, .ok true) := by
    decide +kernel
  obtain ⟨service, ran, facts⟩ := Except.map_eq_ok.mp checked
  simp only [Prod.mk.injEq, Bool.and_eq_true, beq_iff_eq] at facts
  obtain ⟨⟨⟨⟨indexed, tipStored⟩, onTip⟩, next⟩, inserted⟩ := facts
  obtain ⟨service', success, becameTip⟩ := Except.map_eq_ok.mp inserted
  exact ⟨service, ran, insertBlock_extending_tip_pays_blockReward indexed tipStored onTip next
    (by decide) success (beq_iff_eq.mp becameTip)⟩

end Samples

/-- The proposer's part of a fee is lost when the transaction was first
proposed in the block at height 1.  On the new branch, `feePayer` is proposed
at height 1 and committed at height 2 for a fee of 10; the rewards the
calculator computes for targets 1 and 2 are the base reward and the base
reward with the committer's 6, so the proposer's 4 is paid to no one.  The
branch is built by `process_block` with verification. -/
theorem blockReward_first_target_drops_proposer_share :
    (runFromGenesis (newBranch.take 4)).map (fun service =>
        (service.tip.hash,
          (service.store.getBlockExt (newBranchBlock 2).header.hash).map BlockExt.txsFees)) =
      .ok ((newBranchBlock 4).header.hash, some [⟨10⟩]) ∧
    (runFromGenesis (newBranch.take 4)).map (fun service =>
        RewardCalculator.baseBlockReward shortWindowConsensus service.store
          (newBranchBlock 1).header) = .ok (.ok ⟨1000⟩) ∧
    (runFromGenesis (newBranch.take 4)).map (fun service =>
        RewardCalculator.blockReward shortWindowConsensus service.store
          (newBranchBlock 3).header) = .ok (.ok (minerLock, ⟨1000⟩)) ∧
    (runFromGenesis (newBranch.take 4)).map (fun service =>
        RewardCalculator.blockReward shortWindowConsensus service.store
          (newBranchBlock 4).header) = .ok (.ok (minerLock, ⟨1006⟩)) ∧
    (newBranchBlock 1).proposals = [feePayer.proposalShortId] ∧
    (newBranchBlock 2).transactions.drop 1 = [feePayer] := by
  refine ⟨by decide +kernel, by decide +kernel, by decide +kernel, by decide +kernel, rfl, rfl⟩

/-- When the new branch overtakes the old one, one switch verifies its five
blocks against the store as committed before it.  The fifth block's reward
is computed there from the second block's ext, still unverified and without
fees, so the cellbase of 1006 shannons that its miner computed with the
fourth block as the tip is rejected. -/
theorem reorg_checks_reward_against_stale_exts :
    (runFromGenesis (oldBranch ++ newBranch.take 4)).map (·.tip.hash) =
      .ok (oldBranchBlock 4).header.hash ∧
    (runFromGenesis (oldBranch ++ newBranch.take 4)).map (fun service =>
        RewardCalculator.blockReward shortWindowConsensus service.store
          (newBranchBlock 4).header) = .ok (.ok (minerLock, ⟨1000⟩)) ∧
    (runFromGenesis (oldBranch ++ newBranch.take 4)).map (fun service =>
        (ChainService.insertBlock shortWindowConsensus acceptingChecks service
          (newBranchBlock 5) true).map (·.tip.hash)) =
      .ok (.error (.invalidTransaction (.cellbase .invalidRewardAmount))) ∧
    (runFromGenesis (newBranch.take 4)).map (·.tip.hash) = .ok (newBranchBlock 4).header.hash ∧
    (runFromGenesis (newBranch.take 4)).map (fun service =>
        RewardCalculator.blockReward shortWindowConsensus service.store
          (newBranchBlock 4).header) = .ok (.ok (minerLock, ⟨1006⟩)) := by
  refine ⟨by decide +kernel, by decide +kernel, by decide +kernel, by decide +kernel,
    by decide +kernel⟩

/-- The tip depends on the order in which valid blocks arrive.  Each branch
on its own is accepted block by block.  Processed old branch first, the new
branch's fifth block is rejected by the switch and the old tip stays;
processed new branch first, the new branch's tip, of the larger total
difficulty, is the tip, and the number index differs too. -/
theorem processBlocks_tip_depends_on_order :
    (runFromGenesis oldBranch).map (·.tip.hash) = .ok (oldBranchBlock 4).header.hash ∧
    (runFromGenesis newBranch).map (·.tip.hash) = .ok (newBranchBlock 5).header.hash ∧
    (runFromGenesis (oldBranch ++ newBranch)).map (fun service =>
        (service.tip.hash, service.totalDifficulty, service.store.blockHash 1)) =
      .ok ((oldBranchBlock 4).header.hash, 5, some (oldBranchBlock 1).header.hash) ∧
    (runFromGenesis (newBranch ++ oldBranch)).map (fun service =>
        (service.tip.hash, service.totalDifficulty, service.store.blockHash 1)) =
      .ok ((newBranchBlock 5).header.hash, 6, some (newBranchBlock 1).header.hash) := by
  refine ⟨by decide +kernel, by decide +kernel, by decide +kernel, by decide +kernel⟩

end Ckb
