import Ckb.Core.Block
import Ckb.Lib.Entries
import Ckb.Lib.BucketRelease

/-!
# The orphan block pool

`OrphanBlockPool` (`sync/src/synchronizer/block_pool.rs`) keeps the blocks
whose parent is not known yet, in sets keyed by the parent's hash.  Once a
block is accepted, `remove_blocks_by_parent` takes out, breadth first, the
blocks that descend from it through the pool, for the synchronizer to process
in turn.

A set of blocks is a list.  Two blocks are equal when their header hashes are
(`impl PartialEq for Block`), so a set holds one block per hash.  The loop of
`remove_blocks_by_parent` is `Buckets.release`, with a block's header hash as
the key its children wait under.
-/

namespace Ckb

structure OrphanBlockPool where
  blocks : List (H256 × List Block)

namespace OrphanBlockPool

/-- `OrphanBlockPool::with_capacity`: the capacity only sizes the map. -/
def withCapacity (_capacity : Nat) : OrphanBlockPool := ⟨[]⟩

/-- `FnvHashSet<Block>::insert`: a block whose hash the set holds is not added. -/
def insertIntoSet (set : List Block) (block : Block) : List Block :=
  if set.any (fun other => other.header.hash == block.header.hash) then set else set ++ [block]

def insert (pool : OrphanBlockPool) (block : Block) : OrphanBlockPool :=
  ⟨Entries.upsert block.header.parentHash [] (insertIntoSet · block) pool.blocks⟩

/-- `remove_blocks_by_parent`, with fuel for one round per block and one more. -/
def removeBlocksByParent (pool : OrphanBlockPool) (hash : H256) : OrphanBlockPool × List Block :=
  let (blocks, removed) := Buckets.release (fun block : Block => block.header.hash)
    ((Buckets.items pool.blocks).length + 1) pool.blocks [hash] []
  (⟨blocks⟩, removed)

/-- `OrphanBlockPool::contains`: whether blocks wait under the block's parent
hash, whether or not the block is one of them. -/
def contains (pool : OrphanBlockPool) (block : Block) : Bool :=
  LinkedMap.contains pool.blocks block.header.parentHash

/-- The blocks of the pool that descend from `hash` through blocks of the pool. -/
def Descends (pool : OrphanBlockPool) (hash : H256) (block : Block) : Prop :=
  Buckets.Descends (·.header.parentHash) (·.header.hash) (Buckets.items pool.blocks) hash block

/-- Each parent hash has one set, each block waits in the set of its parent's
hash, and a set holds a block once. -/
def Filed (pool : OrphanBlockPool) : Prop :=
  Buckets.Filed (·.header.parentHash) pool.blocks

section Insert

theorem mem_insertIntoSet {set : List Block} {block other : Block}
    (member : other ∈ insertIntoSet set block) : other ∈ set ∨ other = block := by
  unfold insertIntoSet at member
  split at member
  · exact Or.inl member
  · rcases List.mem_append.mp member with held | added
    · exact Or.inl held
    · exact Or.inr (List.mem_singleton.mp added)

theorem insertIntoSet_nodup {set : List Block} (nodup : set.Nodup) (block : Block) :
    (insertIntoSet set block).Nodup := by
  unfold insertIntoSet
  split
  · exact nodup
  · next absent =>
      have fresh : block ∉ set := by
        intro member
        apply absent
        exact List.any_eq_true.mpr ⟨block, member, beq_self_eq_true _⟩
      rw [List.nodup_append]
      refine ⟨nodup, List.nodup_singleton block, ?_⟩
      intro other member added addedMember
      rw [List.mem_singleton] at addedMember
      subst addedMember
      intro same
      subst same
      exact fresh member

theorem insert_filed {pool : OrphanBlockPool} (filed : pool.Filed) (block : Block) :
    (pool.insert block).Filed := by
  constructor
  · exact Entries.keys_upsert_nodup filed.keys_nodup
  · apply Entries.forall_mem_upsert
    · intro other member
      have added : other ∈ insertIntoSet [] block := member
      rcases mem_insertIntoSet added with held | added
      · cases held
      · rw [added]
    · intro set parents other member
      rcases mem_insertIntoSet member with held | added
      · exact parents other held
      · rw [added]
    · exact filed.parent_eq
  · apply Entries.forall_mem_upsert
    · exact insertIntoSet_nodup List.nodup_nil block
    · intro set nodup
      exact insertIntoSet_nodup nodup block
    · exact filed.bucket_nodup

theorem foldl_insert_filed {pool : OrphanBlockPool} (filed : pool.Filed) :
    ∀ inserted : List Block, (inserted.foldl insert pool).Filed
  | [] => filed
  | block :: rest => foldl_insert_filed (insert_filed filed block) rest

theorem withCapacity_filed (capacity : Nat) : (withCapacity capacity).Filed := by
  constructor
  · exact List.nodup_nil
  · intro entry member
    cases member
  · intro entry member
    cases member

end Insert

theorem removeBlocksByParent_invariant {pool : OrphanBlockPool} (filed : pool.Filed) (hash : H256) :
    Buckets.Invariant (·.header.parentHash) (·.header.hash) pool.blocks hash
      (pool.removeBlocksByParent hash).1.blocks [] (pool.removeBlocksByParent hash).2 :=
  Buckets.Invariant.release filed ((Buckets.items pool.blocks).length + 1) pool.blocks [hash] []
    Buckets.Invariant.initial (by simp [Nat.add_comm])

theorem removeBlocksByParent_filed {pool : OrphanBlockPool} (filed : pool.Filed) (hash : H256) :
    (pool.removeBlocksByParent hash).1.Filed :=
  Buckets.Filed.sublist filed (removeBlocksByParent_invariant filed hash).sublist

theorem mem_removeBlocksByParent {pool : OrphanBlockPool} (filed : pool.Filed) {hash key : H256}
    {bucket : List Block} (member : (key, bucket) ∈ (pool.removeBlocksByParent hash).1.blocks) :
    (key, bucket) ∈ pool.blocks ∧ key ≠ hash ∧
      ∀ block ∈ (pool.removeBlocksByParent hash).2, block.header.hash ≠ key := by
  have final := removeBlocksByParent_invariant filed hash
  have found : LinkedMap.get? (pool.removeBlocksByParent hash).1.blocks key = some bucket :=
    (LinkedMap.mem_iff_get?_of_nodup (removeBlocksByParent_filed filed hash).keys_nodup).mp member
  -- the loop ends with no bucket under the root or a released block's hash
  have cleared : ∀ next, (next = hash ∨
      ∃ block ∈ (pool.removeBlocksByParent hash).2, block.header.hash = next) → next ≠ key := by
    intro next reached same
    subst same
    rcases final.closed next reached with queued | gone
    · cases queued
    · rw [found] at gone
      cases gone
  refine ⟨final.sublist.subset member, fun same => cleared key (Or.inl same) rfl, ?_⟩
  intro block returned same
  exact cleared _ (Or.inr ⟨block, returned, rfl⟩) same

theorem removeBlocksByParent_of_absent {pool : OrphanBlockPool} {hash : H256}
    (absent : LinkedMap.get? pool.blocks hash = none) :
    pool.removeBlocksByParent hash = (pool, []) := by
  have popped : ∀ fuel, Buckets.release (fun block : Block => block.header.hash) (fuel + 1)
      pool.blocks [hash] [] = (pool.blocks, []) := by
    intro fuel
    cases fuel with
    | zero => simp [Buckets.release, LinkedMap.remove, absent]
    | succ fuel => simp [Buckets.release, LinkedMap.remove, absent]
  unfold removeBlocksByParent
  rw [popped]

theorem contains_eq_false {pool : OrphanBlockPool} {block : Block}
    (absent : ∀ entry ∈ pool.blocks, entry.1 ≠ block.header.parentHash) :
    pool.contains block = false := by
  simp only [contains, LinkedMap.contains, List.any_eq_false, beq_iff_eq]
  exact absent

/-- From every pool built by `insert`, `remove_blocks_by_parent(hash)` returns
each block that descends from `hash` through the pool, once; a block after its
parent when the parent is returned too, its hash is not `hash` and no other
returned block has it; and the pool keeps exactly the blocks not returned. -/
theorem removeBlocksByParent_releases_descendants (capacity : Nat) (inserted : List Block)
    (hash : H256) :
    let pool := inserted.foldl insert (withCapacity capacity)
    let result := pool.removeBlocksByParent hash
    (∀ block, block ∈ result.2 ↔ pool.Descends hash block) ∧ result.2.Nodup ∧
      (∀ block ∈ result.2, ∀ parent ∈ result.2, parent.header.hash = block.header.parentHash →
        parent.header.hash ≠ hash →
        (∀ other ∈ result.2, other.header.hash = parent.header.hash → other = parent) →
        result.2.idxOf parent < result.2.idxOf block) ∧
      ∀ block, block ∈ Buckets.items result.1.blocks ↔
        block ∈ Buckets.items pool.blocks ∧ block ∉ result.2 := by
  intro pool result
  have filed : pool.Filed := foldl_insert_filed (withCapacity_filed capacity) inserted
  have final := removeBlocksByParent_invariant filed hash
  refine ⟨fun block => ⟨final.descends block, final.mem_of_descends filed⟩, final.nodup, ?_,
    final.mem_items⟩
  intro block member parent parentMember link notRoot unique
  exact final.follows.idxOf_lt member parentMember link notRoot unique

end OrphanBlockPool

end Ckb
