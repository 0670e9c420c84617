import Ckb.Chain.Service
import Ckb.Lib.Forall2
import Mathlib.Data.Prod.Lex

/-!
# The fork choice of the chain service

`insert_block` makes a block the tip when it ranks above the tip: more total
difficulty, or as much and a smaller hash.  That ranking is the
lexicographic order `forkKey`.  `TipIsBest` says that the tip's ext is stored
with the chain state's total difficulty and that no stored ext ranks above
the tip; every successful `insert_block` of a new block keeps it, and so does
every run of `process_block` over new blocks.

The step that needs care is the chain switch: `reconcile_main_chain` writes
the exts that `find_fork` collected back under the hashes of the attached
blocks.  `ForkShape` is what the walk of `find_fork` keeps: the collected exts
lie against the top of the attached blocks, the new tip last, and each is the
one stored for its block; so every ext a switch writes keeps its block's
total difficulty.
-/

namespace Ckb

/-- The rank of a block in the fork choice: its total difficulty, then the
reverse of its hash. -/
def forkKey (totalDifficulty : Nat) (hash : H256) : Nat ×ₗ Natᵒᵈ :=
  toLex (totalDifficulty, OrderDual.toDual hash.value)

theorem forkKey_inj {difficulty difficulty' : Nat} {hash hash' : H256}
    (same : forkKey difficulty hash = forkKey difficulty' hash') :
    difficulty = difficulty' ∧ hash = hash' := by
  simp only [forkKey, toLex_inj, Prod.mk.injEq, OrderDual.toDual_inj] at same
  obtain ⟨difficulties, values⟩ := same
  cases hash
  cases hash'
  exact ⟨difficulties, congrArg H256.mk values⟩

theorem forkKey_lt_iff {difficulty difficulty' : Nat} {hash hash' : H256} :
    forkKey difficulty hash < forkKey difficulty' hash' ↔
      difficulty < difficulty' ∨ difficulty = difficulty' ∧ hash'.value < hash.value := by
  rw [forkKey, forkKey, Prod.Lex.toLex_lt_toLex]
  rfl

/-- The total difficulties the ext column holds: all that the fork choice
reads of it. -/
def ChainStore.totalDifficulties (store : ChainStore) (hash : H256) : Option Nat :=
  (store.blockExt hash).map BlockExt.totalDifficulty

theorem ChainStore.totalDifficulties_eq_none {store : ChainStore} {hash : H256} :
    store.totalDifficulties hash = none ↔ store.blockExt hash = none :=
  Option.map_eq_none_iff

namespace ChainService

theorem isNewBest_iff {service : ChainService} {block : Block} {cannonTotalDifficulty : Nat} :
    isNewBest service block cannonTotalDifficulty = true ↔
      forkKey service.totalDifficulty service.tip.hash <
        forkKey cannonTotalDifficulty block.header.hash := by
  rw [forkKey_lt_iff]
  simp only [isNewBest, Bool.or_eq_true, decide_eq_true_eq, Bool.and_eq_true, beq_iff_eq,
    gt_iff_lt]

section Shape

variable {consensus : Consensus} {checks : BlockChecks} {store : ChainStore} {newTip : Block}
  {newExt : BlockExt}

/-- The ext that `find_fork` collected for an attached block: the new tip's
own, or the one the store holds for the block. -/
def ExtOf (store : ChainStore) (newTip : Block) (newExt : BlockExt) (ext : BlockExt)
    (block : Block) : Prop :=
  (block = newTip ∧ ext = newExt) ∨ store.blockExt block.header.hash = some ext

/-- What the walk of `find_fork` keeps: the new tip is the last attached
block, and the collected exts are those of the top attached blocks, all of
them while the walk has met only unverified blocks. -/
structure ForkShape (store : ChainStore) (newTip : Block) (newExt : BlockExt)
    (fork : ForkChanges) (unseen : Bool) : Prop where
  tipLast : ∃ lower, fork.attachedBlocks = lower ++ [newTip]
  dirtyPos : 0 < fork.dirtyExts.length
  dirtyLe : fork.dirtyExts.length ≤ fork.attachedBlocks.length
  allDirty : unseen = true → fork.dirtyExts.length = fork.attachedBlocks.length
  aligned : List.Forall₂ (ExtOf store newTip newExt) fork.dirtyExts
    (fork.attachedBlocks.drop (fork.attachedBlocks.length - fork.dirtyExts.length))

theorem ForkShape.of_eq {fork fork' : ForkChanges} {unseen : Bool}
    (shape : ForkShape store newTip newExt fork unseen)
    (attached : fork'.attachedBlocks = fork.attachedBlocks)
    (dirty : fork'.dirtyExts = fork.dirtyExts) :
    ForkShape store newTip newExt fork' unseen := by
  obtain ⟨attachedBlocks, detachedBlocks, dirtyExts⟩ := fork
  obtain ⟨attachedBlocks', detachedBlocks', dirtyExts'⟩ := fork'
  dsimp only at attached dirty
  subst attached dirty
  exact ⟨shape.tipLast, shape.dirtyPos, shape.dirtyLe, shape.allDirty, shape.aligned⟩

theorem ForkShape.start : ForkShape store newTip newExt ⟨[newTip], [], [newExt]⟩ true :=
  ⟨⟨[], rfl⟩, by simp, by simp, fun _ => rfl, .cons (.inl ⟨rfl, rfl⟩) .nil⟩

/-- `markDirty` either keeps the fork and stops collecting, or collects the
stored ext of the block at the index while the walk has met only unverified
blocks. -/
theorem markDirty_ok {message : String} {hash : H256} {unseen unseen' : Bool}
    {fork fork' : ForkChanges}
    (marked : markDirty store message hash unseen fork = .ok (fork', unseen')) :
    (fork' = fork ∧ unseen' = false) ∨
      (unseen = true ∧ unseen' = true ∧ ∃ ext, store.blockExt hash = some ext ∧
        fork' = { fork with dirtyExts := ext :: fork.dirtyExts }) := by
  unfold markDirty at marked
  cases unseen with
  | false =>
      simp only [Bool.false_eq_true, if_false, Except.pure_eq_ok, Prod.mk.injEq] at marked
      exact .inl ⟨marked.1.symm, marked.2.symm⟩
  | true =>
      simp only [if_true, Except.bind_eq_ok, Except.getDM_error_eq_ok, ChainStore.getBlockExt]
        at marked
      obtain ⟨ext, stored, chosen⟩ := marked
      by_cases unverified : ext.verified.isNone = true
      · simp only [unverified, if_true, Except.pure_eq_ok, Prod.mk.injEq] at chosen
        exact .inr ⟨rfl, chosen.2.symm, ext, stored, chosen.1.symm⟩
      · simp only [unverified, Bool.false_eq_true, if_false, Except.pure_eq_ok,
          Prod.mk.injEq] at chosen
        exact .inl ⟨chosen.1.symm, chosen.2.symm⟩

/-- One step of either walk of `find_fork` keeps the shape: the block at the
index is pushed below the attached blocks, its ext below the dirty exts if
the walk still collects. -/
theorem ForkShape.push {fork fork' : ForkChanges} {unseen unseen' : Bool} {message : String}
    {hash : H256} {block : Block} (shape : ForkShape store newTip newExt fork unseen)
    (keyed : store.BlocksKeyed)
    (marked : markDirty store message hash unseen fork = .ok (fork', unseen'))
    (fetched : store.block hash = some block) :
    ForkShape store newTip newExt { fork' with attachedBlocks := block :: fork'.attachedBlocks }
      unseen' := by
  obtain ⟨lower, tipLast⟩ := shape.tipLast
  have shorter := shape.dirtyLe
  rcases markDirty_ok marked with ⟨same, rfl⟩ | ⟨rfl, rfl, ext, stored, rfl⟩
  · -- nothing collected: the dirty exts stay against the top
    rw [same]
    have skip : (block :: fork.attachedBlocks).length - fork.dirtyExts.length =
        fork.attachedBlocks.length - fork.dirtyExts.length + 1 := by
      simp only [List.length_cons]
      omega
    refine ⟨⟨block :: lower, by simp [tipLast]⟩, shape.dirtyPos, ?_, nofun, ?_⟩
    · simp only [List.length_cons]
      omega
    · simp only [skip, List.drop_succ_cons]
      exact shape.aligned
  · -- the block's ext joins the dirty exts, which cover every attached block
    have equal := shape.allDirty rfl
    have alignedAll : List.Forall₂ (ExtOf store newTip newExt) fork.dirtyExts
        fork.attachedBlocks := by
      simpa [equal] using shape.aligned
    have own : ExtOf store newTip newExt ext block := by
      right
      rw [keyed hash block fetched]
      exact stored
    refine ⟨⟨block :: lower, by simp [tipLast]⟩, by simp, by simp [equal], fun _ => by
      simp [equal], ?_⟩
    simpa [equal] using List.Forall₂.cons own alignedAll

theorem attachAbove_shape (keyed : store.BlocksKeyed) {tipNumber number : Nat} {hash : H256}
    {unseen : Bool} {fork : ForkChanges} {result : ForkChanges × GlobalIndex}
    (shape : ForkShape store newTip newExt fork unseen)
    (success : attachAbove store tipNumber number hash unseen fork = .ok result) :
    ForkShape store newTip newExt result.1 result.2.unseen := by
  -- induction on the walk's height, one block per step
  induction number generalizing hash unseen fork with
  | zero =>
      simp only [attachAbove, Except.pure_eq_ok] at success
      subst success
      exact shape
  | succ number induction =>
      simp only [attachAbove] at success
      split at success
      · simp only [Except.bind_eq_ok, Prod.exists, Except.getDM_error_eq_ok] at success
        obtain ⟨fork', unseen', marked, block, fetched, rest⟩ := success
        exact induction (shape.push keyed marked fetched) rest
      · simp only [Except.pure_eq_ok] at success
        subst success
        exact shape

theorem detachHeights_keeps {fork fork' : ForkChanges} {numbers : List Nat}
    (success : detachHeights store fork numbers = .ok fork') :
    fork'.attachedBlocks = fork.attachedBlocks ∧ fork'.dirtyExts = fork.dirtyExts := by
  induction numbers generalizing fork with
  | nil =>
      simp only [detachHeights, Except.pure_eq_ok] at success
      subst success
      exact ⟨rfl, rfl⟩
  | cons number numbers induction =>
      simp only [detachHeights, Except.bind_eq_ok, Except.getDM_error_eq_ok] at success
      obtain ⟨hash, -, oldBlock, -, rest⟩ := success
      obtain ⟨attached, dirty⟩ := induction rest
      exact ⟨attached, dirty⟩

theorem findForkUntilLatestCommon_shape (keyed : store.BlocksKeyed) {number : Nat}
    {hash : H256} {unseen : Bool} {fork result : ForkChanges}
    (shape : ForkShape store newTip newExt fork unseen)
    (success : findForkUntilLatestCommon store number hash unseen fork = .ok result) :
    ∃ unseen', ForkShape store newTip newExt result unseen' := by
  -- induction on the height of the walk down both chains
  induction number generalizing hash unseen fork with
  | zero =>
      simp only [findForkUntilLatestCommon, Except.pure_eq_ok] at success
      subst success
      exact ⟨unseen, shape⟩
  | succ number induction =>
      simp only [findForkUntilLatestCommon, Except.bind_eq_ok, Except.getDM_error_eq_ok]
        at success
      obtain ⟨detachedHash, -, rest⟩ := success
      split at rest
      · simp only [Except.pure_eq_ok] at rest
        subst rest
        exact ⟨unseen, shape⟩
      · simp only [Except.bind_eq_ok, Prod.exists, Except.getDM_error_eq_ok] at rest
        obtain ⟨detachedBlock, -, fork', unseen', marked, block, fetched, rest⟩ := rest
        have detached : ForkShape store newTip newExt
            { fork with detachedBlocks := detachedBlock :: fork.detachedBlocks } unseen :=
          shape.of_eq rfl rfl
        exact induction (detached.push keyed marked fetched) rest

theorem findFork_shape (keyed : store.BlocksKeyed) {tipNumber : Nat} {fork : ForkChanges}
    (success : findFork store tipNumber newTip newExt = .ok fork) :
    ∃ unseen, ForkShape store newTip newExt fork unseen := by
  simp only [findFork, Except.bind_eq_ok, Except.ite_error_eq_ok, Except.error_bind,
    Prod.exists] at success
  obtain ⟨-, aligned, index, found, rest⟩ := success
  unfold alignmentFork at found
  split at found
  · simp only [Except.bind_eq_ok, Except.pure_eq_ok, Prod.mk.injEq] at found
    obtain ⟨detached, detachedOk, rfl, rfl⟩ := found
    obtain ⟨sameAttached, sameDirty⟩ := detachHeights_keeps detachedOk
    exact findForkUntilLatestCommon_shape keyed
      (ForkShape.start.of_eq sameAttached sameDirty) rest
  · exact findForkUntilLatestCommon_shape keyed (attachAbove_shape keyed ForkShape.start found)
      rest

theorem ForkShape.tip_mem {fork : ForkChanges} {unseen : Bool}
    (shape : ForkShape store newTip newExt fork unseen) :
    newTip ∈ fork.attachedBlocks.drop (fork.attachedBlocks.length - fork.dirtyExts.length) := by
  obtain ⟨lower, tipLast⟩ := shape.tipLast
  have positive := shape.dirtyPos
  have lengths : fork.attachedBlocks.length = lower.length + 1 := by simp [tipLast]
  have within : fork.attachedBlocks.length - fork.dirtyExts.length ≤ lower.length := by omega
  generalize fork.attachedBlocks.length - fork.dirtyExts.length = skipped at within ⊢
  rw [tipLast, List.drop_append_of_le_length within]
  exact List.mem_append_right _ (List.mem_singleton_self newTip)

/-- The write of a chain switch for an attached block: the block's collected
ext, with its total difficulty and the verification's result, under the
block's hash. -/
def SwitchWrite (store : ChainStore) (newTip : Block) (newExt : BlockExt) (write : StoreWrite)
    (block : Block) : Prop :=
  ∃ ext written, ExtOf store newTip newExt ext block ∧
    written.totalDifficulty = ext.totalDifficulty ∧
    write = .insertBlockExt block.header.hash written

theorem reconcileMainChain_writes {fork : ForkChanges} {unseen needVerify : Bool}
    {writes : List StoreWrite} (shape : ForkShape store newTip newExt fork unseen)
    (success : reconcileMainChain consensus checks store needVerify fork = .ok writes) :
    List.Forall₂ (SwitchWrite store newTip newExt)
      writes (fork.attachedBlocks.drop (fork.attachedBlocks.length - fork.dirtyExts.length)) := by
  obtain ⟨results, looped, rfl⟩ := reconcileMainChain_ok success
  have hashes := List.forall₂_map_left_iff.mp (verifyLoop_hashes looped)
  refine (shape.aligned.zip_map hashes _).imp ?_
  rintro write block ⟨ext, ⟨hash, verified, txsFees⟩, own, sameHash, rfl⟩
  dsimp only at sameHash
  subst sameHash
  exact ⟨ext, { ext with verified, txsFees }, own, rfl, rfl⟩

theorem SwitchWrite.of_mem_extWrites {writes : List StoreWrite} {blocks : List Block}
    (switched : List.Forall₂ (SwitchWrite store newTip newExt) writes blocks)
    {write : KeyValue.Write H256 BlockExt} (member : write ∈ writes.filterMap ChainStore.extWrite) :
    ∃ block ext written, ExtOf store newTip newExt ext block ∧
      written.totalDifficulty = ext.totalDifficulty ∧ write = .put block.header.hash written := by
  obtain ⟨source, sourceMember, made⟩ := List.mem_filterMap.mp member
  obtain ⟨block, -, ext, written, own, same, rfl⟩ := switched.exists_of_mem_left sourceMember
  simp only [ChainStore.extWrite, Option.some.injEq] at made
  exact ⟨block, ext, written, own, same, made.symm⟩

/-- A chain switch changes the total difficulties of the store only by adding
the new tip's: the ext of every other attached block is written back with the
total difficulty it had. -/
theorem switch_totalDifficulties {fork : ForkChanges} {unseen : Bool}
    {writes : List StoreWrite} (fresh : store.blockExt newTip.header.hash = none)
    (shape : ForkShape store newTip newExt fork unseen)
    (switched : List.Forall₂ (SwitchWrite store newTip newExt)
      writes (fork.attachedBlocks.drop (fork.attachedBlocks.length - fork.dirtyExts.length)))
    {before after : List StoreWrite} (noExt : before.filterMap ChainStore.extWrite = [])
    (noExtAfter : after.filterMap ChainStore.extWrite = []) :
    (store.commit (before ++ writes ++ after)).totalDifficulties =
      Function.update store.totalDifficulties newTip.header.hash
        (some newExt.totalDifficulty) := by
  have column : (store.commit (before ++ writes ++ after)).blockExt =
      KeyValue.commit store.blockExt (writes.filterMap ChainStore.extWrite) := by
    rw [ChainStore.blockExt_commit, List.filterMap_append, List.filterMap_append, noExt,
      noExtAfter, List.nil_append, List.append_nil]
  funext hash
  unfold ChainStore.totalDifficulties
  rw [column]
  by_cases atTip : hash = newTip.header.hash
  · -- the switch writes the new tip's ext, and nothing else is stored under its hash
    subst atTip
    obtain ⟨source, sourceMember, ext, written, -, -, rfl⟩ :=
      switched.exists_of_mem_right shape.tip_mem
    have member : KeyValue.Write.put newTip.header.hash written ∈
        writes.filterMap ChainStore.extWrite := List.mem_filterMap.mpr ⟨_, sourceMember, rfl⟩
    obtain ⟨last, lastMember, sameKey, value⟩ := KeyValue.commit_of_mem store.blockExt member
    obtain ⟨block, ext', written', own, same, rfl⟩ := SwitchWrite.of_mem_extWrites switched lastMember
    simp only [KeyValue.Write.key, KeyValue.Write.value] at sameKey value
    rw [value, Function.update_self, Option.map_some, same]
    rcases own with ⟨-, rfl⟩ | stored
    · rfl
    · rw [sameKey, fresh] at stored
      cases stored
  · -- any other hash keeps its total difficulty
    rw [Function.update_of_ne atTip]
    rcases KeyValue.commit_cases store.blockExt (writes.filterMap ChainStore.extWrite) hash with
      kept | ⟨write, member, sameKey, value⟩
    · rw [kept]
    · obtain ⟨block, ext, written, own, same, rfl⟩ := SwitchWrite.of_mem_extWrites switched member
      simp only [KeyValue.Write.key] at sameKey
      rw [value]
      rcases own with ⟨rfl, -⟩ | stored
      · exact absurd sameKey.symm atTip
      · rw [sameKey] at stored
        rw [stored, KeyValue.Write.value, Option.map_some, Option.map_some, same]

end Shape

section Invariant

variable {consensus : Consensus} {checks : BlockChecks}

theorem switchIndex_extWrites (block : Block) (hash : H256) (epoch : EpochExt)
    (detachedBlocks attachedBlocks : List Block) :
    ([StoreWrite.insertBlock block, .insertBlockEpoch hash epoch] ++
      updateIndex detachedBlocks attachedBlocks).filterMap ChainStore.extWrite = [] := by
  simp only [updateIndex, List.filterMap_append, List.filterMap_map, List.append_eq_nil_iff,
    List.filterMap_eq_nil_iff]
  refine ⟨?_, fun _ _ => rfl, fun _ _ => rfl⟩
  simp [ChainStore.extWrite]

theorem side_totalDifficulties (store : ChainStore) (block : Block) (hash : H256)
    (epoch : EpochExt) (ext : BlockExt) :
    (store.commit [.insertBlock block, .insertBlockEpoch hash epoch,
        .insertBlockExt block.header.hash ext]).totalDifficulties =
      Function.update store.totalDifficulties block.header.hash (some ext.totalDifficulty) := by
  funext other
  by_cases atBlock : other = block.header.hash
  · subst atBlock
    simp [ChainStore.totalDifficulties, ChainStore.apply]
  · simp [ChainStore.totalDifficulties, ChainStore.apply, Function.update_of_ne atBlock]

/-- `insert_block` of a block not yet stored changes the total difficulties
of the store only by adding the block's own: its parent's and its
difficulty. -/
theorem insertBlock_totalDifficulties {service service' : ChainService} {block : Block}
    {needVerify : Bool} (keyed : service.store.BlocksKeyed)
    (fresh : service.store.blockExt block.header.hash = none)
    (success : insertBlock consensus checks service block needVerify = .ok service') :
    ∃ parentExt, service.store.getBlockExt block.header.parentHash = some parentExt ∧
      service'.store.totalDifficulties = Function.update service.store.totalDifficulties
        block.header.hash (some (parentExt.totalDifficulty + block.header.difficulty)) := by
  obtain ⟨-, parentExt, parentHeader, parentEpoch, nextEpoch, daoData, derived, chosen⟩ :=
    insertBlock_ok success
  refine ⟨parentExt, derived.extStored, ?_⟩
  rcases chosen with ⟨-, fork, extWrites, found, reconciled, rfl⟩ | ⟨-, rfl⟩
  · obtain ⟨unseen, shape⟩ := findFork_shape keyed found
    exact switch_totalDifficulties fresh shape (reconcileMainChain_writes shape reconciled)
      (switchIndex_extWrites _ _ _ _ _) (by split <;> rfl)
  · exact side_totalDifficulties _ _ _ _ _

theorem insertBlock_store {service service' : ChainService} {block : Block} {needVerify : Bool}
    (success : insertBlock consensus checks service block needVerify = .ok service') :
    ∃ batch, service'.store = service.store.commit batch := by
  obtain ⟨-, parentExt, parentHeader, parentEpoch, nextEpoch, daoData, -, chosen⟩ :=
    insertBlock_ok success
  rcases chosen with ⟨-, -, -, -, -, rfl⟩ | ⟨-, rfl⟩
  · exact ⟨_, rfl⟩
  · exact ⟨_, rfl⟩

/-- The fork choice's invariant: the tip's total difficulty is the one stored
for it, and no block stored with its total difficulty ranks above the tip. -/
structure TipIsBest (service : ChainService) : Prop where
  tipExt : service.store.totalDifficulties service.tip.hash = some service.totalDifficulty
  noBetter : ∀ hash difficulty, service.store.totalDifficulties hash = some difficulty →
    forkKey difficulty hash ≤ forkKey service.totalDifficulty service.tip.hash

theorem noBetter_update {column : H256 → Option Nat} {top : Nat ×ₗ Natᵒᵈ}
    (before : ∀ hash difficulty, column hash = some difficulty → forkKey difficulty hash ≤ top)
    {hash : H256} {difficulty : Nat} (added : forkKey difficulty hash ≤ top) :
    ∀ hash' difficulty', Function.update column hash (some difficulty) hash' = some difficulty' →
      forkKey difficulty' hash' ≤ top := by
  intro other stored found
  by_cases atBlock : other = hash
  · subst atBlock
    rw [Function.update_self, Option.some.injEq] at found
    subst found
    exact added
  · rw [Function.update_of_ne atBlock] at found
    exact before other stored found

/-- Every successful `insert_block` of a block not yet stored keeps the tip
the best stored block: a switch makes the block the tip only when it ranks
above the old tip, and otherwise it ranks below. -/
theorem insertBlock_tipIsBest {service service' : ChainService} {block : Block}
    {needVerify : Bool} (best : TipIsBest service) (keyed : service.store.BlocksKeyed)
    (fresh : service.store.blockExt block.header.hash = none)
    (success : insertBlock consensus checks service block needVerify = .ok service') :
    TipIsBest service' := by
  obtain ⟨parentExt, parentStored, column⟩ := insertBlock_totalDifficulties keyed fresh success
  obtain ⟨-, parentExt', parentHeader, parentEpoch, nextEpoch, daoData, derived, chosen⟩ :=
    insertBlock_ok success
  have sameParent := derived.extStored
  rw [parentStored, Option.some.injEq] at sameParent
  subst sameParent
  have tipElsewhere : service.tip.hash ≠ block.header.hash := by
    intro same
    have tipStored := best.tipExt
    rw [same, ChainStore.totalDifficulties, fresh] at tipStored
    cases tipStored
  rcases chosen with ⟨newBest, fork, extWrites, -, -, rfl⟩ | ⟨notBest, rfl⟩
  · -- the block became the tip, ranking above the old tip and so above every stored block
    rw [isNewBest_iff] at newBest
    constructor
    · exact column ▸ Function.update_self ..
    · rw [column]
      exact noBetter_update (fun hash difficulty stored =>
        (best.noBetter hash difficulty stored).trans newBest.le) le_rfl
  · -- the block was stored beside the chain, ranking at most the tip
    have below : forkKey (parentExt.totalDifficulty + block.header.difficulty) block.header.hash ≤
        forkKey service.totalDifficulty service.tip.hash := by
      rw [← not_lt, ← isNewBest_iff, notBest]
      exact Bool.false_ne_true
    constructor
    · rw [column, Function.update_of_ne tipElsewhere]
      exact best.tipExt
    · rw [column]
      exact noBetter_update best.noBetter below

/-- Blocks of distinct hashes, none of them stored, over a store that keeps
every block under its hash: what a run needs for each insertion to be of a
new block. -/
structure NewBlocks (service : ChainService) (blocks : List Block) : Prop where
  keyed : service.store.BlocksKeyed
  fresh : ∀ block ∈ blocks, service.store.blockExt block.header.hash = none
  distinct : (blocks.map fun block => block.header.hash).Nodup

section NewBlocks

variable {service : ChainService} {block : Block} {blocks : List Block}

theorem NewBlocks.head_fresh (new : NewBlocks service (block :: blocks)) :
    service.store.blockExt block.header.hash = none :=
  new.fresh block List.mem_cons_self

theorem NewBlocks.tail (new : NewBlocks service (block :: blocks)) : NewBlocks service blocks :=
  ⟨new.keyed, fun later member => new.fresh later (List.mem_cons_of_mem _ member),
    (List.nodup_cons.mp new.distinct).2⟩

theorem NewBlocks.next {service' : ChainService} {needVerify : Bool}
    (new : NewBlocks service (block :: blocks))
    (success : insertBlock consensus checks service block needVerify = .ok service') :
    NewBlocks service' blocks := by
  obtain ⟨batch, committed⟩ := insertBlock_store success
  obtain ⟨parentExt, -, column⟩ := insertBlock_totalDifficulties new.keyed new.head_fresh success
  have notLater := (List.nodup_cons.mp new.distinct).1
  refine ⟨committed ▸ new.keyed.commit batch, ?_, new.tail.distinct⟩
  intro later member
  have other : later.header.hash ≠ block.header.hash :=
    fun same => notLater (List.mem_map.mpr ⟨later, member, same⟩)
  rw [← ChainStore.totalDifficulties_eq_none, column, Function.update_of_ne other,
    ChainStore.totalDifficulties_eq_none]
  exact new.tail.fresh later member

end NewBlocks

/-- A run of `process_block` over new blocks keeps the tip the best stored
block: a block that fails leaves the store, and a block that passes is a new
block. -/
theorem processBlocks_tipIsBest {needVerify : Bool} {blocks : List Block}
    {service service' : ChainService} (best : TipIsBest service) (new : NewBlocks service blocks)
    (run : processBlocks consensus checks needVerify service blocks = .ok service') :
    TipIsBest service' := by
  -- induction on the blocks, with the invariant and the newness of the rest
  induction blocks generalizing service with
  | nil =>
      simp only [processBlocks, Except.ok.injEq] at run
      exact run ▸ best
  | cons block blocks induction =>
      simp only [processBlocks] at run
      cases success : insertBlock consensus checks service block needVerify with
      | ok inserted =>
          rw [success] at run
          exact induction (insertBlock_tipIsBest best new.keyed new.head_fresh success)
            (new.next success) run
      | error error =>
          -- a panic ends the run; any other error leaves the service as it was
          rw [success] at run
          cases error with
          | panic message => cases run
          | _ => exact induction best new.tail run

variable {consensus : Consensus} {genesis : Block} {service : ChainService}

theorem init_blockExt_of_ne (initialized : init consensus genesis = .ok service) {hash : H256}
    (other : hash ≠ genesis.header.hash) : service.store.blockExt hash = none := by
  obtain ⟨daoStats, -, rfl⟩ := init_ok initialized
  simp [ChainStore.apply, ChainStore.empty, other]

theorem init_totalDifficulties (initialized : init consensus genesis = .ok service) :
    service.store.totalDifficulties =
      Function.update (fun _ => none) genesis.header.hash (some genesis.header.difficulty) := by
  funext hash
  by_cases atGenesis : hash = genesis.header.hash
  · subst atGenesis
    obtain ⟨daoStats, -, rfl⟩ := init_ok initialized
    simp [ChainStore.totalDifficulties, ChainStore.apply]
  · rw [Function.update_of_ne atGenesis, ChainStore.totalDifficulties_eq_none]
    exact init_blockExt_of_ne initialized atGenesis

theorem init_tipIsBest (initialized : init consensus genesis = .ok service) :
    TipIsBest service := by
  have tip : service.tip = genesis.header ∧ service.totalDifficulty = genesis.header.difficulty := by
    obtain ⟨daoStats, -, rfl⟩ := init_ok initialized
    exact ⟨rfl, rfl⟩
  constructor
  · rw [init_totalDifficulties initialized, tip.1, tip.2, Function.update_self]
  · rw [init_totalDifficulties initialized, tip.1, tip.2]
    exact noBetter_update (fun _ _ stored => by cases stored) le_rfl

theorem init_blocksKeyed (initialized : init consensus genesis = .ok service) :
    service.store.BlocksKeyed := by
  obtain ⟨daoStats, -, rfl⟩ := init_ok initialized
  exact ChainStore.BlocksKeyed.commit (fun _ _ stored => by cases stored) _

/-- From the genesis block, every run of `process_block` over new blocks of
distinct hashes ends with the best stored block as its tip. -/
theorem processBlocks_init_tipIsBest {needVerify : Bool} {blocks : List Block}
    {service' : ChainService} (initialized : init consensus genesis = .ok service)
    (fresh : ∀ block ∈ blocks, block.header.hash ≠ genesis.header.hash)
    (distinct : (blocks.map fun block => block.header.hash).Nodup)
    (run : processBlocks consensus checks needVerify service blocks = .ok service') :
    TipIsBest service' :=
  processBlocks_tipIsBest (init_tipIsBest initialized)
    ⟨init_blocksKeyed initialized,
      fun block member => init_blockExt_of_ne initialized (fresh block member), distinct⟩ run

end Invariant

end ChainService

/-- Both branches of the samples, the old one first, end at a best tip,
though the switch to the new branch is rejected. -/
theorem bothBranches_tipIsBest :
    ∃ service, runFromGenesis (oldBranch ++ newBranch) = .ok service ∧
      ChainService.TipIsBest service := by
  obtain ⟨service, ran⟩ := Except.exists_eq_ok_of_isSome
    (by decide +kernel : (runFromGenesis (oldBranch ++ newBranch)).toOption.isSome = true)
  exact ⟨service, ran, ChainService.processBlocks_init_tipIsBest init_genesisChain (by decide)
    (by decide) (processBlocks_of_runFromGenesis ran)⟩

end Ckb
