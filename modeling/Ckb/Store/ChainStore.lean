import Ckb.Dao.Calculation
import Ckb.Lib.KeyValue

/-!
# The chain store

The columns of `ChainKVStore` (`store/src/store.rs`) that the chain service,
`Shared::get_ancestor`, the reward calculator and the contextual block
verifier read, and the batch writes through which `ChainService` changes
them.

A column is a function from keys to optional values.  The header, uncles,
proposals and body of a block are written together by `insert_block` and
read together, so they are one column of blocks here; the column of epoch
indices and the column of epochs are likewise one column from a block to its
epoch.  `COLUMN_INDEX` holds two maps: from a main-chain number to its hash
and back.  Of `COLUMN_META`, the current epoch ext is kept.

Reads go to the committed columns only: a batch is a list of writes that
nothing reads before `commit` applies it, in order.
-/

namespace Ckb

/-- `BlockExt`, without `received_at`, which no modelled code reads. -/
structure BlockExt where
  totalDifficulty : Nat
  totalUnclesCount : Nat
  verified : Option Bool
  txsFees : List Capacity
  daoStats : DaoStats
  deriving DecidableEq, Repr

structure ChainStore where
  block : H256 → Option Block
  blockExt : H256 → Option BlockExt
  blockEpoch : H256 → Option EpochExt
  blockHash : Nat → Option H256
  blockNumber : H256 → Option Nat
  currentEpochExt : Option EpochExt

namespace ChainStore

variable (store : ChainStore)

def getBlockHeader (hash : H256) : Option Header :=
  (store.block hash).map Block.header

def getBlockTxsHashes (hash : H256) : Option (List H256) :=
  (store.block hash).map fun block => block.transactions.map Transaction.hash

def getBlockExt (hash : H256) : Option BlockExt :=
  store.blockExt hash

/-- `Shared::next_epoch_ext`: `Consensus::next_epoch_ext` on the headers and
the uncle counts of the store. -/
def nextEpochExt (consensus : Consensus) (lastEpoch : EpochExt) (header : Header) :
    Except String (Option EpochExt) :=
  consensus.toEpochConsensus.nextEpochExt lastEpoch header store.getBlockHeader
    fun hash => (store.getBlockExt hash).map BlockExt.totalUnclesCount

/-- `get_cellbase`: the first transaction of a stored block; the source
expects every stored body to have one. -/
def getCellbase (hash : H256) : Except String (Option Transaction) :=
  match store.block hash with
  | none => .ok none
  | some block =>
    match block.transactions.head? with
    | none => .error "cellbase address should exist"
    | some cellbase => .ok (some cellbase)

/-- `get_proposal_ids_by_hash` of the reward calculator: the proposals of a
stored block and of its uncles. -/
def getProposalIdsByHash (hash : H256) : List ProposalShortId :=
  match store.block hash with
  | none => []
  | some block => block.unionProposalIds

/-- The `while` loop of `get_ancestor` for a base off the main chain: one
parent per step, `steps` times. -/
def walkParents : Nat → Header → Option Header
  | 0, header => some header
  | steps + 1, header =>
    (store.getBlockHeader header.parentHash).bind (walkParents steps)

/-- `Shared::get_ancestor`: through the number index for a base on the main
chain, and by walking parents otherwise. -/
def getAncestor (base : H256) (number : Nat) : Option Header :=
  match store.blockNumber base with
  | some baseNumber =>
    if number > baseNumber then none
    else (store.blockHash number).bind store.getBlockHeader
  | none =>
    match store.getBlockHeader base with
    | none => none
    | some header =>
      if number > header.number then none
      else store.walkParents (header.number - number) header

end ChainStore

/-- A write of a `StoreBatch`.  `insertBlockEpoch` stands for
`insert_block_epoch_index` with `insert_epoch_ext` of the same epoch. -/
inductive StoreWrite where
  | insertBlock (block : Block)
  | insertBlockExt (hash : H256) (ext : BlockExt)
  | insertBlockEpoch (hash : H256) (epoch : EpochExt)
  | attachBlock (block : Block)
  | detachBlock (block : Block)
  | insertCurrentEpochExt (epoch : EpochExt)
  deriving Repr

namespace ChainStore

/-- What one write does to the columns: `attach_block` puts both entries of
the number index for the block, `detach_block` deletes both. -/
def apply (store : ChainStore) : StoreWrite → ChainStore
  | .insertBlock block =>
    { store with block := Function.update store.block block.header.hash (some block) }
  | .insertBlockExt hash ext =>
    { store with blockExt := Function.update store.blockExt hash (some ext) }
  | .insertBlockEpoch hash epoch =>
    { store with blockEpoch := Function.update store.blockEpoch hash (some epoch) }
  | .attachBlock block =>
    { store with
      blockHash := Function.update store.blockHash block.header.number (some block.header.hash)
      blockNumber := Function.update store.blockNumber block.header.hash (some block.header.number) }
  | .detachBlock block =>
    { store with
      blockHash := Function.update store.blockHash block.header.number none
      blockNumber := Function.update store.blockNumber block.header.hash none }
  | .insertCurrentEpochExt epoch => { store with currentEpochExt := some epoch }

def commit (store : ChainStore) (batch : List StoreWrite) : ChainStore :=
  batch.foldl apply store

@[simp] theorem commit_nil (store : ChainStore) : store.commit [] = store := rfl

@[simp] theorem commit_cons (store : ChainStore) (write : StoreWrite) (batch : List StoreWrite) :
    store.commit (write :: batch) = (store.apply write).commit batch := rfl

theorem commit_append (store : ChainStore) (first second : List StoreWrite) :
    store.commit (first ++ second) = (store.commit first).commit second :=
  List.foldl_append

/-! A batch seen from one column: the writes it makes there, committed in
order as a batch of the key-value library. -/

/-- What a write does to the ext column, if anything. -/
def extWrite : StoreWrite → Option (KeyValue.Write H256 BlockExt)
  | .insertBlockExt hash ext => some (.put hash ext)
  | _ => none

/-- What a write does to the block column, if anything. -/
def blockWrite : StoreWrite → Option (KeyValue.Write H256 Block)
  | .insertBlock block => some (.put block.header.hash block)
  | _ => none

theorem blockExt_commit (store : ChainStore) (batch : List StoreWrite) :
    (store.commit batch).blockExt =
      KeyValue.commit store.blockExt (batch.filterMap extWrite) := by
  induction batch generalizing store with
  | nil => rfl
  | cons write batch induction =>
      rw [commit_cons, induction]
      cases write <;> rfl

theorem block_commit (store : ChainStore) (batch : List StoreWrite) :
    (store.commit batch).block = KeyValue.commit store.block (batch.filterMap blockWrite) := by
  induction batch generalizing store with
  | nil => rfl
  | cons write batch induction =>
      rw [commit_cons, induction]
      cases write <;> rfl

/-- What a write does to the index from heights to hashes, if anything. -/
def hashWrite : StoreWrite → Option (KeyValue.Write Nat H256)
  | .attachBlock block => some (.put block.header.number block.header.hash)
  | .detachBlock block => some (.delete block.header.number)
  | _ => none

/-- What a write does to the index from hashes to heights, if anything. -/
def numberWrite : StoreWrite → Option (KeyValue.Write H256 Nat)
  | .attachBlock block => some (.put block.header.hash block.header.number)
  | .detachBlock block => some (.delete block.header.hash)
  | _ => none

theorem blockHash_commit (store : ChainStore) (batch : List StoreWrite) :
    (store.commit batch).blockHash =
      KeyValue.commit store.blockHash (batch.filterMap hashWrite) := by
  induction batch generalizing store with
  | nil => rfl
  | cons write batch induction =>
      rw [commit_cons, induction]
      cases write <;> rfl

theorem blockNumber_commit (store : ChainStore) (batch : List StoreWrite) :
    (store.commit batch).blockNumber =
      KeyValue.commit store.blockNumber (batch.filterMap numberWrite) := by
  induction batch generalizing store with
  | nil => rfl
  | cons write batch induction =>
      rw [commit_cons, induction]
      cases write <;> rfl

/-- What a write does to the column of block epochs, if anything. -/
def epochWrite : StoreWrite → Option (KeyValue.Write H256 EpochExt)
  | .insertBlockEpoch hash epoch => some (.put hash epoch)
  | _ => none

theorem blockEpoch_commit (store : ChainStore) (batch : List StoreWrite) :
    (store.commit batch).blockEpoch =
      KeyValue.commit store.blockEpoch (batch.filterMap epochWrite) := by
  induction batch generalizing store with
  | nil => rfl
  | cons write batch induction =>
      rw [commit_cons, induction]
      cases write <;> rfl

theorem blockEpoch_commit_of_unwritten (store : ChainStore) {batch : List StoreWrite}
    (unwritten : batch.filterMap epochWrite = []) :
    (store.commit batch).blockEpoch = store.blockEpoch := by
  rw [blockEpoch_commit, unwritten]
  rfl

/-- What a write does to the current epoch ext, if anything. -/
def currentEpochWrite : StoreWrite → Option EpochExt
  | .insertCurrentEpochExt epoch => some epoch
  | _ => none

theorem currentEpochExt_commit (store : ChainStore) {batch : List StoreWrite}
    (unwritten : batch.filterMap currentEpochWrite = []) :
    (store.commit batch).currentEpochExt = store.currentEpochExt := by
  induction batch generalizing store with
  | nil => rfl
  | cons write batch induction =>
      cases write with
      | insertCurrentEpochExt epoch => simp [currentEpochWrite] at unwritten
      | _ => exact induction _ unwritten

/-- Every stored block is stored under its own hash. -/
def BlocksKeyed (store : ChainStore) : Prop :=
  ∀ hash block, store.block hash = some block → block.header.hash = hash

theorem BlocksKeyed.commit {store : ChainStore} (keyed : store.BlocksKeyed)
    (batch : List StoreWrite) : (store.commit batch).BlocksKeyed := by
  intro hash block stored
  rw [block_commit] at stored
  rcases KeyValue.commit_cases store.block (batch.filterMap blockWrite) hash with
    kept | ⟨write, member, sameKey, written⟩
  · rw [kept] at stored
    exact keyed hash block stored
  · obtain ⟨source, -, made⟩ := List.mem_filterMap.mp member
    cases source with
    | insertBlock inserted =>
        simp only [blockWrite, Option.some.injEq] at made
        subst made
        rw [written] at stored
        simp only [KeyValue.Write.value, Option.some.injEq] at stored
        subst stored
        exact sameKey
    | _ => cases made

def empty : ChainStore :=
  ⟨fun _ => none, fun _ => none, fun _ => none, fun _ => none, fun _ => none, none⟩

/-- `ChainKVStore::init`: the genesis block, verified, attached to the index,
in the genesis epoch, which is the current one; it panics when the genesis
cellbase's outputs overflow. -/
def init (genesis : Block) (epoch : EpochExt) : Except String ChainStore := do
  let daoStats ← genesisDaoStats genesis
  pure (empty.commit
    [.insertBlock genesis,
     .insertBlockExt genesis.header.hash ⟨genesis.header.difficulty, 0, some true, [], daoStats⟩,
     .insertCurrentEpochExt epoch,
     .insertBlockEpoch genesis.header.hash epoch,
     .attachBlock genesis])

end ChainStore

end Ckb
