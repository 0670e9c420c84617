import Ckb.Chain.FindFork
import Ckb.Chain.ForkChoice
import Ckb.Verification.HeaderVerifier

/-!
# The number index follows the main chain

`attach_block` and `detach_block` keep two indexes of the main chain: from
heights to hashes and from hashes to heights.  `find_fork` reads the first
and trusts it to name, at each height up to the tip, the tip's ancestor there
(`MainChain`).  `Indexed` says that both indexes are exactly such a chain of
stored blocks, one at each height from the genesis to the tip; `Rooted` says
that the stored blocks form a tree below the genesis, each stored with its ext
and, above the genesis, with its parent one height below.

One `insert_block` of a block one height above its parent keeps both
(`insertBlock_indexed`).  Stored beside the chain, the block changes no index.
Made the tip, its ancestors down to the genesis are a `Branch`, so `find_fork`
attaches the branch above the latest common ancestor and detaches the main
chain above it, and the indexes then name the branch.  A run of
`process_block` from `init` over blocks that passed `NumberVerifier` keeps
both (`processBlocks_init_indexed`): every state a run reaches is one where
`find_fork` finds the fork exactly.
-/

namespace Ckb

namespace ChainService

/-- A block whose parent is stored, one height below it. -/
def HasParent (store : ChainStore) (block : Block) : Prop :=
  ∃ parent, store.block block.header.parentHash = some parent ∧
    parent.header.number + 1 = block.header.number

/-- The stored blocks form a tree below the genesis: each is stored under its
hash with its ext, each above height 0 has its parent stored, and the genesis
is the only one at height 0. -/
structure Rooted (store : ChainStore) (genesis : Block) : Prop where
  keyed : store.BlocksKeyed
  extStored : ∀ hash block, store.block hash = some block → (store.blockExt hash).isSome
  parentStored : ∀ hash block, store.block hash = some block → 0 < block.header.number →
    HasParent store block
  genesisOnly : ∀ hash block, store.block hash = some block → block.header.number = 0 →
    block = genesis

/-- The stored parent of a block, or the block itself where none is stored. -/
def parentOf (store : ChainStore) (block : Block) : Block :=
  (store.block block.header.parentHash).getD block

/-- The ancestors of `block`: at each height up to its own, the block that
many parents below it. -/
def branchOf (store : ChainStore) (block : Block) (number : Nat) : Block :=
  (parentOf store)^[block.header.number - number] block

section Rooted

variable {store : ChainStore} {genesis block : Block}

theorem parentOf_eq {parent : Block} (stored : store.block block.header.parentHash = some parent) :
    parentOf store block = parent := by
  rw [parentOf, stored, Option.getD_some]

/-- Below a block whose parent is stored, each step down the parents meets a
stored parent one height lower, down to height 0. -/
theorem Rooted.iterate_parentOf (rooted : Rooted store genesis) (parent : HasParent store block) :
    ∀ steps ≤ block.header.number,
      ((parentOf store)^[steps] block).header.number + steps = block.header.number ∧
      (steps < block.header.number → HasParent store ((parentOf store)^[steps] block))
  | 0, _ => ⟨rfl, fun _ => parent⟩
  | steps + 1, within => by
      obtain ⟨number, hasParent⟩ :=
        rooted.iterate_parentOf parent steps (Nat.le_of_succ_le within)
      obtain ⟨above, aboveStored, aboveNumber⟩ := hasParent (Nat.lt_of_succ_le within)
      rw [Function.iterate_succ_apply', parentOf_eq aboveStored]
      refine ⟨by omega, fun higher => ?_⟩
      apply rooted.parentStored _ _ aboveStored
      omega

theorem Rooted.parent_iterate (rooted : Rooted store genesis) (parent : HasParent store block)
    {steps : Nat} (below : steps < block.header.number) :
    store.block ((parentOf store)^[steps] block).header.parentHash =
      some ((parentOf store)^[steps + 1] block) := by
  obtain ⟨above, aboveStored, -⟩ := (rooted.iterate_parentOf parent steps below.le).2 below
  rw [Function.iterate_succ_apply', parentOf_eq aboveStored]
  exact aboveStored

theorem Rooted.number_branchOf (rooted : Rooted store genesis) (parent : HasParent store block)
    {number : Nat} (within : number ≤ block.header.number) :
    (branchOf store block number).header.number = number := by
  have walked := (rooted.iterate_parentOf parent (block.header.number - number) (Nat.sub_le _ _)).1
  rw [branchOf]
  omega

theorem Rooted.branch (rooted : Rooted store genesis) (parent : HasParent store block) :
    Branch store block (branchOf store block) := by
  have linked : ∀ number, 0 < number → number ≤ block.header.number →
      store.block (branchOf store block number).header.parentHash =
        some (branchOf store block (number - 1)) := by
    intro number positive within
    have steps : block.header.number - (number - 1) = block.header.number - number + 1 := by omega
    rw [branchOf, branchOf, steps]
    exact rooted.parent_iterate parent (by omega)
  have stored : ∀ number < block.header.number,
      store.block (branchOf store block number).header.hash =
        some (branchOf store block number) := by
    intro number below
    have link := linked (number + 1) (Nat.succ_pos number) below
    rw [Nat.add_sub_cancel] at link
    rw [rooted.keyed _ _ link]
    exact link
  constructor
  · simp only [branchOf, Nat.sub_self, Function.iterate_zero, id]
  · exact stored
  · intro number below
    exact rooted.extStored _ _ (stored number below)
  · intro number positive within
    exact (rooted.keyed _ _ (linked number positive within)).symm

theorem Rooted.branchOf_zero (rooted : Rooted store genesis) (parent : HasParent store block) :
    branchOf store block 0 = genesis := by
  have positive : 0 < block.header.number := by
    obtain ⟨above, -, aboveNumber⟩ := parent
    omega
  apply rooted.genesisOnly _ _ ((rooted.branch parent).stored 0 positive)
  exact rooted.number_branchOf parent (Nat.zero_le _)

theorem HasParent.number_pos (parent : HasParent store block) : 0 < block.header.number := by
  obtain ⟨above, -, aboveNumber⟩ := parent
  omega

theorem Rooted.block_eq_none (rooted : Rooted store genesis) {hash : H256}
    (fresh : store.blockExt hash = none) : store.block hash = none := by
  cases stored : store.block hash with
  | none => rfl
  | some block =>
      have extStored := rooted.extStored hash block stored
      rw [fresh] at extStored
      cases extStored

/-- Storing a new block with its ext, its parent stored one height below,
keeps the tree. -/
theorem Rooted.insert (rooted : Rooted store genesis) (parent : HasParent store block)
    (fresh : store.block block.header.hash = none) {store' : ChainStore} {difficulty : Nat}
    (blocks : store'.block = Function.update store.block block.header.hash (some block))
    (exts : store'.totalDifficulties =
      Function.update store.totalDifficulties block.header.hash (some difficulty)) :
    Rooted store' genesis := by
  have found : ∀ hash stored, store'.block hash = some stored →
      hash = block.header.hash ∧ stored = block ∨ store.block hash = some stored := by
    intro hash stored held
    rw [blocks] at held
    by_cases atBlock : hash = block.header.hash
    · subst atBlock
      rw [Function.update_self, Option.some.injEq] at held
      exact .inl ⟨rfl, held.symm⟩
    · rw [Function.update_of_ne atBlock] at held
      exact .inr held
  have grown : KeyValue.Extends store.block store'.block :=
    blocks ▸ KeyValue.extends_update_of_none fresh block
  have parentGrown : ∀ child, HasParent store child → HasParent store' child := by
    rintro child ⟨above, aboveStored, aboveNumber⟩
    exact ⟨above, grown _ _ aboveStored, aboveNumber⟩
  constructor
  · intro hash stored held
    rcases found hash stored held with ⟨rfl, rfl⟩ | old
    · rfl
    · exact rooted.keyed hash stored old
  · intro hash stored held
    have sameSome : (store'.blockExt hash).isSome = (store'.totalDifficulties hash).isSome := by
      simp [ChainStore.totalDifficulties]
    rw [sameSome, exts]
    rcases found hash stored held with ⟨rfl, -⟩ | old
    · rw [Function.update_self]
      rfl
    · have other : hash ≠ block.header.hash := by
        rintro rfl
        rw [fresh] at old
        cases old
      rw [Function.update_of_ne other]
      simpa [ChainStore.totalDifficulties] using rooted.extStored hash stored old
  · intro hash stored held positive
    rcases found hash stored held with ⟨-, rfl⟩ | old
    · exact parentGrown _ parent
    · exact parentGrown _ (rooted.parentStored hash stored old positive)
  · intro hash stored held zero
    rcases found hash stored held with ⟨-, rfl⟩ | old
    · have positive := parent.number_pos
      omega
    · exact rooted.genesisOnly hash stored old zero

end Rooted

/-- The number index is the main chain: `main` names a stored block at each
height from the genesis to the tip, at its own height, with the tip on top;
the index from heights names those blocks and no height above the tip, and
the index from hashes gives a hash a height exactly when it is the hash of
the block there. -/
structure Indexed (service : ChainService) (main : Nat → Block) : Prop where
  chain : MainChain service.store service.tip.number main
  numbered : ∀ number ≤ service.tip.number, (main number).header.number = number
  tip : (main service.tip.number).header = service.tip
  above : ∀ number, service.tip.number < number → service.store.blockHash number = none
  blockNumber : ∀ hash number, service.store.blockNumber hash = some number ↔
    number ≤ service.tip.number ∧ (main number).header.hash = hash

section Indexed

variable {service : ChainService} {main : Nat → Block}

theorem Indexed.eq_of_hash_eq (indexed : Indexed service main) {number number' : Nat}
    (onMain : number ≤ service.tip.number) (onMain' : number' ≤ service.tip.number)
    (same : (main number).header.hash = (main number').header.hash) : number = number' := by
  have stored := indexed.chain.stored number onMain
  rw [same, indexed.chain.stored number' onMain'] at stored
  calc number = (main number).header.number := (indexed.numbered number onMain).symm
    _ = (main number').header.number := by rw [Option.some.inj stored]
    _ = number' := indexed.numbered number' onMain'

theorem Indexed.tip_stored (indexed : Indexed service main) :
    service.store.getBlockHeader service.tip.hash = some service.tip := by
  have stored := indexed.chain.stored service.tip.number le_rfl
  rw [indexed.tip] at stored
  rw [ChainStore.getBlockHeader, stored, Option.map_some, indexed.tip]

theorem Indexed.main_zero {genesis : Block} (indexed : Indexed service main)
    (rooted : Rooted service.store genesis) : main 0 = genesis :=
  rooted.genesisOnly _ _ (indexed.chain.stored 0 (Nat.zero_le _))
    (indexed.numbered 0 (Nat.zero_le _))

theorem Indexed.of_extends (indexed : Indexed service main) {service' : ChainService}
    (tip : service'.tip = service.tip) (hashes : service'.store.blockHash = service.store.blockHash)
    (numbers : service'.store.blockNumber = service.store.blockNumber)
    (blocks : KeyValue.Extends service.store.block service'.store.block) :
    Indexed service' main := by
  constructor
  · constructor
    · intro number within
      rw [hashes]
      exact indexed.chain.indexed number (tip ▸ within)
    · intro number within
      exact blocks _ _ (indexed.chain.stored number (tip ▸ within))
    · intro number positive within
      exact indexed.chain.linked number positive (tip ▸ within)
  · intro number within
    exact indexed.numbered number (tip ▸ within)
  · rw [tip]
    exact indexed.tip
  · intro number higher
    rw [hashes]
    exact indexed.above number (tip ▸ higher)
  · intro hash number
    rw [numbers, tip]
    exact indexed.blockNumber hash number

end Indexed

section Branch

variable {store : ChainStore} {newTip : Block} {branch : Nat → Block}

theorem Branch.hash_ne_top (ancestry : Branch store newTip branch)
    (fresh : store.block newTip.header.hash = none) {number : Nat}
    (below : number < newTip.header.number) :
    (branch number).header.hash ≠ newTip.header.hash := by
  intro same
  have stored := ancestry.stored number below
  rw [same, fresh] at stored
  cases stored

theorem Branch.eq_of_hash_eq (ancestry : Branch store newTip branch)
    (numbered : ∀ number ≤ newTip.header.number, (branch number).header.number = number)
    (fresh : store.block newTip.header.hash = none) {number number' : Nat}
    (within : number ≤ newTip.header.number) (within' : number' ≤ newTip.header.number)
    (same : (branch number).header.hash = (branch number').header.hash) : number = number' := by
  rcases Nat.lt_or_ge number newTip.header.number with below | top
  · rcases Nat.lt_or_ge number' newTip.header.number with below' | top'
    · have stored := ancestry.stored number below
      rw [same, ancestry.stored number' below'] at stored
      calc number = (branch number).header.number := (numbered number within).symm
        _ = (branch number').header.number := by rw [Option.some.inj stored]
        _ = number' := numbered number' within'
    · -- the higher one is the new block
      have atTop : number' = newTip.header.number := by omega
      rw [atTop, ancestry.top] at same
      exact absurd same (ancestry.hash_ne_top fresh below)
  · rcases Nat.lt_or_ge number' newTip.header.number with below' | top'
    · have atTop : number = newTip.header.number := by omega
      rw [atTop, ancestry.top] at same
      exact absurd same.symm (ancestry.hash_ne_top fresh below')
    · omega

end Branch

theorem mem_map_range' {α : Type} (f : Nat → α) {common top : Nat} {item : α} :
    item ∈ (List.range' (common + 1) (top - common)).map f ↔
      ∃ number, common < number ∧ number ≤ top ∧ f number = item := by
  simp only [List.mem_map, List.mem_range'_1]
  constructor
  · rintro ⟨number, ⟨lower, upper⟩, rfl⟩
    exact ⟨number, by omega, by omega, rfl⟩
  · rintro ⟨number, lower, upper, rfl⟩
    exact ⟨number, ⟨by omega, by omega⟩, rfl⟩

/-- A chain switch to the branch of a new block: the index is the main
chain; the branch's blocks below the new block are stored, each at its
height, and the new block is not; the two chains meet at `common`, below both
tips; and `detached` is the main chain above `common`, in some order. -/
structure ForkPoint (service : ChainService) (main branch : Nat → Block) (block : Block)
    (common : Nat) (detached : List Block) : Prop where
  indexed : Indexed service main
  ancestry : Branch service.store block branch
  numbered : ∀ number ≤ block.header.number, (branch number).header.number = number
  fresh : service.store.block block.header.hash = none
  onMain : common ≤ service.tip.number
  below : common < block.header.number
  meets : main common = branch common
  detached : detached.Perm ((List.range' (common + 1) (service.tip.number - common)).map main)

section ForkPoint

variable {service : ChainService} {main branch : Nat → Block} {block : Block} {common : Nat}
  {detached : List Block}

theorem ForkPoint.eq_below (fork : ForkPoint service main branch block common detached)
    {number : Nat} (lower : number ≤ common) : main number = branch number :=
  fork.indexed.chain.eq_below fork.ancestry fork.onMain fork.below fork.meets number lower

theorem ForkPoint.attached_number (fork : ForkPoint service main branch block common detached)
    {item : Block}
    (member : item ∈ (List.range' (common + 1) (block.header.number - common)).map branch) :
    common < item.header.number ∧ item.header.number ≤ block.header.number := by
  obtain ⟨number, lower, upper, rfl⟩ := (mem_map_range' branch).mp member
  rw [fork.numbered number upper]
  exact ⟨lower, upper⟩

theorem ForkPoint.detached_number (fork : ForkPoint service main branch block common detached)
    {item : Block} (member : item ∈ detached) :
    common < item.header.number ∧ item.header.number ≤ service.tip.number ∧
      main item.header.number = item := by
  obtain ⟨number, lower, upper, rfl⟩ :=
    (mem_map_range' main).mp (fork.detached.mem_iff.mp member)
  rw [fork.indexed.numbered number upper]
  exact ⟨lower, upper, rfl⟩

theorem ForkPoint.main_mem_detached (fork : ForkPoint service main branch block common detached)
    {number : Nat} (lower : common < number) (upper : number ≤ service.tip.number) :
    main number ∈ detached :=
  fork.detached.mem_iff.mpr ((mem_map_range' main).mpr ⟨number, lower, upper, rfl⟩)

theorem ForkPoint.mem_detached_heights (fork : ForkPoint service main branch block common detached)
    {number : Nat} :
    number ∈ detached.map (·.header.number) ↔
      common < number ∧ number ≤ service.tip.number := by
  constructor
  · intro member
    obtain ⟨item, itemMember, rfl⟩ := List.mem_map.mp member
    obtain ⟨lower, upper, -⟩ := fork.detached_number itemMember
    exact ⟨lower, upper⟩
  · rintro ⟨lower, upper⟩
    exact List.mem_map.mpr
      ⟨main number, fork.main_mem_detached lower upper, fork.indexed.numbered number upper⟩

theorem ForkPoint.heights_nodup (fork : ForkPoint service main branch block common detached) :
    (((List.range' (common + 1) (block.header.number - common)).map branch).map
      (·.header.number)).Nodup := by
  rw [List.map_map]
  apply List.Nodup.map_on _ (List.nodup_range' 1 Nat.one_pos)
  intro number member number' member' same
  rw [List.mem_range'_1] at member member'
  simp only [Function.comp_apply, fork.numbered number (by omega),
    fork.numbered number' (by omega)] at same
  exact same

theorem ForkPoint.hashes_nodup (fork : ForkPoint service main branch block common detached) :
    (((List.range' (common + 1) (block.header.number - common)).map branch).map
      (·.header.hash)).Nodup := by
  rw [List.map_map]
  apply List.Nodup.map_on _ (List.nodup_range' 1 Nat.one_pos)
  intro number member number' member' same
  rw [List.mem_range'_1] at member member'
  exact fork.ancestry.eq_of_hash_eq fork.numbered fork.fresh (by omega) (by omega) same

/-- After the switch, the index from heights names the branch up to the new
block and no height above it. -/
theorem ForkPoint.blockHash (fork : ForkPoint service main branch block common detached)
    (number : Nat) :
    KeyValue.commit service.store.blockHash
        (detached.map (fun block => KeyValue.Write.delete block.header.number) ++
          ((List.range' (common + 1) (block.header.number - common)).map branch).map
            fun block => KeyValue.Write.put block.header.number block.header.hash) number =
      if number ≤ block.header.number then some (branch number).header.hash else none := by
  by_cases attached : common < number ∧ number ≤ block.header.number
  · -- the attached block at this height is written last
    have member :
        branch number ∈ (List.range' (common + 1) (block.header.number - common)).map branch :=
      (mem_map_range' branch).mpr ⟨number, attached.1, attached.2, rfl⟩
    have put := KeyValue.commit_deletes_puts_of_put (fun item : Block => item.header.number)
      (fun item : Block => item.header.hash) service.store.blockHash detached fork.heights_nodup
      member
    rw [fork.numbered number attached.2] at put
    rw [put, if_pos attached.2]
  · have notPut :
        ∀ item ∈ (List.range' (common + 1) (block.header.number - common)).map branch,
          item.header.number ≠ number := by
      intro item member same
      exact attached (same ▸ fork.attached_number member)
    rcases Nat.lt_or_ge common number with higher | lower
    · -- above the new block: the main chain's block there, if any, is detached
      rw [if_neg (by omega)]
      by_cases onMain : number ≤ service.tip.number
      · exact KeyValue.commit_deletes_puts_of_deleted (fun item : Block => item.header.number)
          (fun item : Block => item.header.hash) service.store.blockHash notPut
          (fork.mem_detached_heights.mpr ⟨higher, onMain⟩)
      · rw [KeyValue.commit_deletes_puts_of_untouched (fun item : Block => item.header.number)
          (fun item : Block => item.header.hash) service.store.blockHash notPut
          (fun member => onMain (fork.mem_detached_heights.mp member).2)]
        exact fork.indexed.above number (by omega)
    · -- at or below the fork point nothing is written, and both chains agree
      have within : number ≤ block.header.number := le_of_lt (lt_of_le_of_lt lower fork.below)
      rw [KeyValue.commit_deletes_puts_of_untouched (fun item : Block => item.header.number)
          (fun item : Block => item.header.hash) service.store.blockHash notPut (fun member => by
            have := (fork.mem_detached_heights.mp member).1
            omega),
        if_pos within, fork.indexed.chain.indexed number (le_trans lower fork.onMain),
        fork.eq_below lower]

/-- After the switch, the index from hashes gives a hash a height exactly
when it is the hash of the branch's block there. -/
theorem ForkPoint.blockNumber (fork : ForkPoint service main branch block common detached)
    (hash : H256) (number : Nat) :
    KeyValue.commit service.store.blockNumber
        (detached.map (fun block => KeyValue.Write.delete block.header.hash) ++
          ((List.range' (common + 1) (block.header.number - common)).map branch).map
            fun block => KeyValue.Write.put block.header.hash block.header.number) hash = some number ↔
      number ≤ block.header.number ∧ (branch number).header.hash = hash := by
  by_cases attached : ∃ height, common < height ∧ height ≤ block.header.number ∧
      (branch height).header.hash = hash
  · -- the attached block with this hash is written last
    obtain ⟨height, lower, upper, rfl⟩ := attached
    have member :
        branch height ∈ (List.range' (common + 1) (block.header.number - common)).map branch :=
      (mem_map_range' branch).mpr ⟨height, lower, upper, rfl⟩
    rw [KeyValue.commit_deletes_puts_of_put (fun item : Block => item.header.hash)
      (fun item : Block => item.header.number) _ detached fork.hashes_nodup member,
      fork.numbered height upper, Option.some.injEq]
    constructor
    · rintro rfl
      exact ⟨upper, rfl⟩
    · rintro ⟨within, same⟩
      exact fork.ancestry.eq_of_hash_eq fork.numbered fork.fresh upper within same.symm
  · have notPut :
        ∀ item ∈ (List.range' (common + 1) (block.header.number - common)).map branch,
          item.header.hash ≠ hash := by
      intro item member same
      obtain ⟨height, lower, upper, rfl⟩ := (mem_map_range' branch).mp member
      exact attached ⟨height, lower, upper, same⟩
    have onBranch : number ≤ block.header.number ∧ (branch number).header.hash = hash ↔
        number ≤ common ∧ (main number).header.hash = hash := by
      constructor
      · rintro ⟨within, same⟩
        have lower : number ≤ common := by
          by_contra higher
          exact attached ⟨number, by omega, within, same⟩
        exact ⟨lower, by rw [fork.eq_below lower]; exact same⟩
      · rintro ⟨lower, same⟩
        refine ⟨le_of_lt (lt_of_le_of_lt lower fork.below), ?_⟩
        rw [← fork.eq_below lower]
        exact same
    rw [onBranch]
    by_cases deleted : hash ∈ detached.map (·.header.hash)
    · -- a detached hash names a block above the fork point, and no longer any height
      rw [KeyValue.commit_deletes_puts_of_deleted (fun item : Block => item.header.hash)
        (fun item : Block => item.header.number) _ notPut deleted]
      obtain ⟨item, itemMember, rfl⟩ := List.mem_map.mp deleted
      obtain ⟨lower, upper, atHeight⟩ := fork.detached_number itemMember
      refine iff_of_false (fun found => by cases found) ?_
      rintro ⟨below, same⟩
      have equal := fork.indexed.eq_of_hash_eq (le_trans below fork.onMain) upper
        (same.trans (congrArg (·.header.hash) atHeight).symm)
      omega
    · rw [KeyValue.commit_deletes_puts_of_untouched (fun item : Block => item.header.hash)
          (fun item : Block => item.header.number) _ notPut deleted,
        fork.indexed.blockNumber]
      constructor
      · rintro ⟨onMain, same⟩
        have lower : number ≤ common := by
          by_contra higher
          exact deleted
            (List.mem_map.mpr ⟨main number, fork.main_mem_detached (by omega) onMain, same⟩)
        exact ⟨lower, same⟩
      · rintro ⟨lower, same⟩
        exact ⟨le_trans lower fork.onMain, same⟩

end ForkPoint

section Insert

variable {consensus : Consensus} {checks : BlockChecks}

/-- The index writes of `updateIndex`, seen from the block column and the two
indexes. -/
theorem updateIndex_writes (detached attached : List Block) :
    (updateIndex detached attached).filterMap ChainStore.blockWrite = [] ∧
    (updateIndex detached attached).filterMap ChainStore.hashWrite =
      detached.map (fun block => KeyValue.Write.delete block.header.number) ++
        attached.map (fun block => KeyValue.Write.put block.header.number block.header.hash) ∧
    (updateIndex detached attached).filterMap ChainStore.numberWrite =
      detached.map (fun block => KeyValue.Write.delete block.header.hash) ++
        attached.map (fun block => KeyValue.Write.put block.header.hash block.header.number) := by
  refine ⟨?_, ?_, ?_⟩ <;>
    simp [updateIndex, List.filterMap_append, List.filterMap_map, ChainStore.blockWrite,
      ChainStore.hashWrite, ChainStore.numberWrite, Function.comp_def]

/-- After its index writes, a switch writes exts and the current epoch ext
only: `reconcile_main_chain` writes exts. -/
theorem switchTail_of_reconcile {store : ChainStore} {needVerify : Bool} {fork : ForkChanges}
    {extWrites : List StoreWrite}
    (reconciled : reconcileMainChain consensus checks store needVerify fork = .ok extWrites)
    (newEpoch : Bool) (epoch : EpochExt) :
    ∀ write ∈ extWrites ++ (if newEpoch then [StoreWrite.insertCurrentEpochExt epoch] else []),
      (∃ hash ext, write = .insertBlockExt hash ext) ∨
        ∃ epoch, write = .insertCurrentEpochExt epoch := by
  obtain ⟨results, -, rfl⟩ := reconcileMainChain_ok reconciled
  intro write member
  rcases List.mem_append.mp member with isExt | isEpoch
  · obtain ⟨⟨ext, hash, verified, txsFees⟩, -, rfl⟩ := List.mem_map.mp isExt
    exact .inl ⟨hash, _, rfl⟩
  · split at isEpoch
    · exact .inr ⟨epoch, List.mem_singleton.mp isEpoch⟩
    · cases isEpoch

/-- The batch of a chain switch writes the new block, and both indexes as
`updateIndex` writes them. -/
theorem switchBatch_columns (store : ChainStore) (block : Block) (hash : H256) (epoch : EpochExt)
    (detached attached : List Block) {extWrites epochWrites : List StoreWrite}
    (tail : ∀ write ∈ extWrites ++ epochWrites,
      (∃ hash ext, write = .insertBlockExt hash ext) ∨
        ∃ epoch, write = .insertCurrentEpochExt epoch) :
    (store.commit ([StoreWrite.insertBlock block, .insertBlockEpoch hash epoch] ++
        updateIndex detached attached ++ extWrites ++ epochWrites)).block =
      Function.update store.block block.header.hash (some block) ∧
    (store.commit ([StoreWrite.insertBlock block, .insertBlockEpoch hash epoch] ++
        updateIndex detached attached ++ extWrites ++ epochWrites)).blockHash =
      KeyValue.commit store.blockHash
        (detached.map (fun block => KeyValue.Write.delete block.header.number) ++
        attached.map fun block => KeyValue.Write.put block.header.number block.header.hash) ∧
    (store.commit ([StoreWrite.insertBlock block, .insertBlockEpoch hash epoch] ++
        updateIndex detached attached ++ extWrites ++ epochWrites)).blockNumber =
      KeyValue.commit store.blockNumber
        (detached.map (fun block => KeyValue.Write.delete block.header.hash) ++
        attached.map fun block => KeyValue.Write.put block.header.hash block.header.number) := by
  have untouched : ∀ write ∈ extWrites ++ epochWrites, ChainStore.blockWrite write = none ∧
      ChainStore.hashWrite write = none ∧ ChainStore.numberWrite write = none := by
    intro write member
    rcases tail write member with ⟨hash, ext, rfl⟩ | ⟨epoch, rfl⟩
    · exact ⟨rfl, rfl, rfl⟩
    · exact ⟨rfl, rfl, rfl⟩
  obtain ⟨indexBlocks, indexHashes, indexNumbers⟩ := updateIndex_writes detached attached
  have headHashes : [StoreWrite.insertBlock block, .insertBlockEpoch hash epoch].filterMap
      ChainStore.hashWrite = [] := rfl
  have headNumbers : [StoreWrite.insertBlock block, .insertBlockEpoch hash epoch].filterMap
      ChainStore.numberWrite = [] := rfl
  rw [List.append_assoc _ extWrites]
  refine ⟨?_, ?_, ?_⟩
  · rw [ChainStore.block_commit, List.filterMap_append, List.filterMap_append, indexBlocks,
      List.filterMap_eq_nil_iff.mpr fun write member => (untouched write member).1]
    rfl
  · rw [ChainStore.blockHash_commit, List.filterMap_append, List.filterMap_append, headHashes,
      indexHashes, List.filterMap_eq_nil_iff.mpr fun write member => (untouched write member).2.1,
      List.nil_append, List.append_nil]
  · rw [ChainStore.blockNumber_commit, List.filterMap_append, List.filterMap_append, headNumbers,
      indexNumbers, List.filterMap_eq_nil_iff.mpr fun write member => (untouched write member).2.2,
      List.nil_append, List.append_nil]

theorem insertBlock_block {service service' : ChainService} {block : Block} {needVerify : Bool}
    (success : insertBlock consensus checks service block needVerify = .ok service') :
    service'.store.block = Function.update service.store.block block.header.hash (some block) := by
  obtain ⟨-, parentExt, parentHeader, parentEpoch, nextEpoch, daoData, -, chosen⟩ :=
    insertBlock_ok success
  rcases chosen with ⟨-, fork, extWrites, -, reconciled, rfl⟩ | ⟨-, rfl⟩
  · exact (switchBatch_columns _ _ _ _ _ _ (switchTail_of_reconcile reconciled _ _)).1
  · rw [ChainStore.block_commit]
    rfl

/-- After a switch whose batch wrote the indexes as `updateIndex` does, the
index is the new block's branch, with the new block as the tip. -/
theorem ForkPoint.switched {service : ChainService} {main branch : Nat → Block} {block : Block}
    {common : Nat} {detached : List Block}
    (fork : ForkPoint service main branch block common detached)
    {store : ChainStore} (totalDifficulty : Nat) {attachedBlocks : List Block}
    (attached :
      attachedBlocks = (List.range' (common + 1) (block.header.number - common)).map branch)
    (blocks : store.block = Function.update service.store.block block.header.hash (some block))
    (hashes : store.blockHash = KeyValue.commit service.store.blockHash
      (detached.map (fun block => KeyValue.Write.delete block.header.number) ++
        attachedBlocks.map fun block => KeyValue.Write.put block.header.number block.header.hash))
    (numbers : store.blockNumber = KeyValue.commit service.store.blockNumber
      (detached.map (fun block => KeyValue.Write.delete block.header.hash) ++
        attachedBlocks.map fun block => KeyValue.Write.put block.header.hash block.header.number)) :
    Indexed ⟨store, block.header, totalDifficulty⟩ branch := by
  subst attached
  constructor
  · constructor
    · intro number within
      show store.blockHash number = _
      rw [hashes, fork.blockHash, if_pos within]
    · intro number within
      show store.block _ = _
      rw [blocks]
      rcases Nat.lt_or_ge number block.header.number with below | top
      · rw [Function.update_of_ne (fork.ancestry.hash_ne_top fork.fresh below)]
        exact fork.ancestry.stored number below
      · have atTop : number = block.header.number := le_antisymm within top
        rw [atTop, fork.ancestry.top, Function.update_self]
    · exact fork.ancestry.linked
  · exact fork.numbered
  · show (branch block.header.number).header = block.header
    rw [fork.ancestry.top]
  · intro number higher
    show store.blockHash number = none
    rw [hashes, fork.blockHash, if_neg (Nat.not_le_of_lt higher)]
  · intro hash number
    show store.blockNumber hash = some number ↔ _
    rw [numbers]
    exact fork.blockNumber hash number

/-- `insert_block` of a new block whose number passed `NumberVerifier`
against its stored parent keeps the number index a main chain, ending at the
tip, and the stored blocks a tree below the genesis. -/
theorem insertBlock_indexed {genesis : Block} {service service' : ChainService}
    {main : Nat → Block} {block : Block} {needVerify : Bool} (indexed : Indexed service main)
    (rooted : Rooted service.store genesis)
    (fresh : service.store.blockExt block.header.hash = none)
    (verified : ∀ parent, service.store.block block.header.parentHash = some parent →
      NumberVerifier.verify parent.header block.header = .ok ())
    (success : insertBlock consensus checks service block needVerify = .ok service') :
    (∃ main', Indexed service' main') ∧ Rooted service'.store genesis := by
  obtain ⟨-, parentExt, parentHeader, parentEpoch, nextEpoch, daoData, derived, chosen⟩ :=
    insertBlock_ok success
  obtain ⟨parent, parentStored, -⟩ := Option.map_eq_some_iff.mp derived.headerStored
  have hasParent : HasParent service.store block :=
    ⟨parent, parentStored,
      (NumberVerifier.verify_eq_ok_iff.mp (verified parent parentStored)).symm⟩
  have unstored := rooted.block_eq_none fresh
  have blocks := insertBlock_block success
  obtain ⟨newParentExt, -, exts⟩ := insertBlock_totalDifficulties rooted.keyed fresh success
  refine ⟨?_, rooted.insert hasParent unstored blocks exts⟩
  rcases chosen with ⟨-, fork, extWrites, found, reconciled, rfl⟩ | ⟨-, rfl⟩
  · -- a switch: the block's ancestors become the main chain
    have ancestry := rooted.branch hasParent
    have atGenesis : branchOf service.store block 0 = main 0 := by
      rw [rooted.branchOf_zero hasParent, indexed.main_zero rooted]
    obtain ⟨fork', common, found', onMain, below, meets, -, attached, detached, -⟩ :=
      @findFork_latestCommon service.store service.tip.number main (branchOf service.store block)
        block (newExt parentExt block daoData) indexed.chain ancestry
        atGenesis hasParent.number_pos
    have same : fork' = fork := Except.ok.inj (found'.symm.trans found)
    subst same
    have point : ForkPoint service main (branchOf service.store block) block common
        fork'.detachedBlocks :=
      ⟨indexed, ancestry, fun _ within => rooted.number_branchOf hasParent within, unstored, onMain,
        below, meets, detached⟩
    obtain ⟨-, hashes, numbers⟩ := switchBatch_columns service.store block _ _ fork'.detachedBlocks
      fork'.attachedBlocks (switchTail_of_reconcile reconciled _ _)
    exact ⟨branchOf service.store block, point.switched _ attached blocks hashes numbers⟩
  · -- stored beside the chain: the tip and both indexes stay
    refine ⟨main, indexed.of_extends rfl ?_ ?_ ?_⟩
    · rw [ChainStore.blockHash_commit]
      rfl
    · rw [ChainStore.blockNumber_commit]
      rfl
    · rw [blocks]
      exact KeyValue.extends_update_of_none unstored block

theorem insertBlock_candidates {service service' : ChainService} {block : Block}
    {needVerify : Bool} {candidates : List Block} (member : block ∈ candidates)
    (stored : ∀ hash held, service.store.block hash = some held → held ∈ candidates)
    (success : insertBlock consensus checks service block needVerify = .ok service') :
    ∀ hash held, service'.store.block hash = some held → held ∈ candidates := by
  intro hash held found
  rw [insertBlock_block success] at found
  by_cases atBlock : hash = block.header.hash
  · subst atBlock
    rw [Function.update_self, Option.some.injEq] at found
    exact found ▸ member
  · rw [Function.update_of_ne atBlock] at found
    exact stored hash held found

/-- Each block of a run passed `NumberVerifier` against each block of the run,
or the genesis, with its parent's hash: the header verifier checks a block's
number against its parent's before the chain service sees the block. -/
def NumbersVerified (genesis : Block) (blocks : List Block) : Prop :=
  ∀ block ∈ blocks, ∀ parent ∈ genesis :: blocks, parent.header.hash = block.header.parentHash →
    NumberVerifier.verify parent.header block.header = .ok ()

/-- A run of `process_block` over new blocks keeps the index a main chain and
the stored blocks a tree, while every stored block is the genesis or one of
the blocks the headers were checked among. -/
theorem processBlocks_indexed {genesis : Block} {all : List Block}
    (verified : NumbersVerified genesis all) {needVerify : Bool} :
    ∀ {blocks : List Block} {service service' : ChainService} {main : Nat → Block},
      (∀ block ∈ blocks, block ∈ all) →
      (∀ hash stored, service.store.block hash = some stored → stored ∈ genesis :: all) →
      Indexed service main → Rooted service.store genesis → NewBlocks service blocks →
      processBlocks consensus checks needVerify service blocks = .ok service' →
      ∃ main', Indexed service' main' ∧ Rooted service'.store genesis
  | [], service, service', main, _, _, indexed, rooted, _, run => by
      simp only [processBlocks, Except.ok.injEq] at run
      exact run ▸ ⟨main, indexed, rooted⟩
  | block :: blocks, service, service', main, inRun, candidates, indexed, rooted, new, run => by
      have rest : ∀ later ∈ blocks, later ∈ all :=
        fun later member => inRun later (List.mem_cons_of_mem _ member)
      simp only [processBlocks] at run
      cases success : insertBlock consensus checks service block needVerify with
      | ok inserted =>
          rw [success] at run
          have checked : ∀ parent, service.store.block block.header.parentHash = some parent →
              NumberVerifier.verify parent.header block.header = .ok () := by
            intro parent stored
            exact verified block (inRun block List.mem_cons_self) parent (candidates _ _ stored)
              (rooted.keyed _ _ stored)
          obtain ⟨⟨main', indexed'⟩, rooted'⟩ :=
            insertBlock_indexed indexed rooted new.head_fresh checked success
          exact processBlocks_indexed verified rest
            (insertBlock_candidates (List.mem_cons_of_mem _ (inRun block List.mem_cons_self))
              candidates success) indexed' rooted' (new.next success) run
      | error error =>
          -- a panic ends the run; any other error leaves the service as it was
          rw [success] at run
          cases error with
          | panic message => cases run
          | _ => exact processBlocks_indexed verified rest candidates indexed rooted new.tail run

end Insert

section Init

variable {consensus : Consensus} {checks : BlockChecks} {genesis : Block} {service : ChainService}

/-- The columns `init` leaves: the genesis block alone, as the whole main
chain and the tip. -/
theorem init_columns (initialized : init consensus genesis = .ok service) :
    service.store.block = Function.update (fun _ => none) genesis.header.hash (some genesis) ∧
    service.store.blockHash =
      Function.update (fun _ => none) genesis.header.number (some genesis.header.hash) ∧
    service.store.blockNumber =
      Function.update (fun _ => none) genesis.header.hash (some genesis.header.number) ∧
    (service.store.blockExt genesis.header.hash).isSome ∧ service.tip = genesis.header := by
  obtain ⟨daoStats, -, rfl⟩ := init_ok initialized
  exact ⟨rfl, rfl, rfl, by simp [ChainStore.apply], rfl⟩

theorem init_indexed (initialized : init consensus genesis = .ok service)
    (zero : genesis.header.number = 0) :
    Indexed service (fun _ => genesis) := by
  obtain ⟨blocks, hashes, numbers, -, tip⟩ := init_columns initialized
  constructor
  · constructor
    · intro number within
      rw [tip, zero, Nat.le_zero] at within
      rw [hashes, within, ← zero, Function.update_self]
    · intro number _
      rw [blocks, Function.update_self]
    · intro number positive within
      rw [tip, zero] at within
      omega
  · intro number within
    rw [tip, zero] at within
    omega
  · exact tip.symm
  · intro number higher
    rw [tip] at higher
    rw [hashes, Function.update_of_ne (Nat.ne_of_gt higher)]
  · intro hash number
    rw [numbers, tip]
    by_cases atGenesis : hash = genesis.header.hash
    · subst atGenesis
      rw [Function.update_self, Option.some.injEq]
      constructor
      · rintro rfl
        exact ⟨le_rfl, rfl⟩
      · rintro ⟨within, -⟩
        omega
    · rw [Function.update_of_ne atGenesis]
      exact iff_of_false (fun found => by cases found) fun ⟨_, same⟩ => atGenesis same.symm

theorem init_block_eq (initialized : init consensus genesis = .ok service) {hash : H256}
    {stored : Block} (held : service.store.block hash = some stored) :
    hash = genesis.header.hash ∧ stored = genesis := by
  rw [(init_columns initialized).1] at held
  by_cases atGenesis : hash = genesis.header.hash
  · subst atGenesis
    rw [Function.update_self, Option.some.injEq] at held
    exact ⟨rfl, held.symm⟩
  · rw [Function.update_of_ne atGenesis] at held
    cases held

theorem init_rooted (initialized : init consensus genesis = .ok service)
    (zero : genesis.header.number = 0) :
    Rooted service.store genesis := by
  constructor
  · exact init_blocksKeyed initialized
  · intro hash stored held
    obtain ⟨rfl, -⟩ := init_block_eq initialized held
    exact (init_columns initialized).2.2.2.1
  · intro hash stored held positive
    obtain ⟨-, rfl⟩ := init_block_eq initialized held
    omega
  · intro hash stored held _
    exact (init_block_eq initialized held).2

/-- From the genesis at height 0, every run of `process_block` over new
blocks of distinct hashes, each checked by `NumberVerifier` against its
parent, ends with the number index a main chain from the genesis to the tip,
and the stored blocks a tree below the genesis. -/
theorem processBlocks_init_indexed {needVerify : Bool} {blocks : List Block}
    {service' : ChainService} (initialized : init consensus genesis = .ok service)
    (zero : genesis.header.number = 0)
    (fresh : ∀ block ∈ blocks, block.header.hash ≠ genesis.header.hash)
    (distinct : (blocks.map fun block => block.header.hash).Nodup)
    (verified : NumbersVerified genesis blocks)
    (run : processBlocks consensus checks needVerify service blocks = .ok service') :
    ∃ main, Indexed service' main ∧ main 0 = genesis ∧ Rooted service'.store genesis := by
  have candidates : ∀ hash stored, service.store.block hash = some stored →
      stored ∈ genesis :: blocks := by
    intro hash stored held
    rw [(init_block_eq initialized held).2]
    exact List.mem_cons_self
  have new : NewBlocks service blocks :=
    ⟨init_blocksKeyed initialized,
      fun block member => init_blockExt_of_ne initialized (fresh block member), distinct⟩
  obtain ⟨main, indexed, rooted⟩ :=
    processBlocks_indexed verified (fun _ member => member) candidates
      (init_indexed initialized zero) (init_rooted initialized zero) new run
  exact ⟨main, indexed, indexed.main_zero rooted, rooted⟩

/-- In every state such a run reaches, `find_fork` of a block whose parent is
stored one height below ends at the latest common ancestor of the block and
the tip: it attaches the block's ancestors above it and detaches the main
chain above it. -/
theorem processBlocks_init_findFork {needVerify : Bool} {blocks : List Block}
    {service' : ChainService} (initialized : init consensus genesis = .ok service)
    (zero : genesis.header.number = 0)
    (fresh : ∀ block ∈ blocks, block.header.hash ≠ genesis.header.hash)
    (distinct : (blocks.map fun block => block.header.hash).Nodup)
    (verified : NumbersVerified genesis blocks)
    (run : processBlocks consensus checks needVerify service blocks = .ok service')
    {newBlock : Block} (parent : HasParent service'.store newBlock) (newExt : BlockExt) :
    ∃ main fork common, Indexed service' main ∧
      findFork service'.store service'.tip.number newBlock newExt = .ok fork ∧
      common ≤ service'.tip.number ∧ common < newBlock.header.number ∧
      main common = branchOf service'.store newBlock common ∧
      (∀ height, common < height → height ≤ service'.tip.number →
        height < newBlock.header.number →
          main height ≠ branchOf service'.store newBlock height) ∧
      fork.attachedBlocks = (List.range' (common + 1) (newBlock.header.number - common)).map
        (branchOf service'.store newBlock) ∧
      fork.detachedBlocks.Perm
        ((List.range' (common + 1) (service'.tip.number - common)).map main) := by
  obtain ⟨main, indexed, atGenesis, rooted⟩ :=
    processBlocks_init_indexed initialized zero fresh distinct verified run
  have meetsAtGenesis : branchOf service'.store newBlock 0 = main 0 := by
    rw [rooted.branchOf_zero parent, atGenesis]
  obtain ⟨fork, common, found, onMain, below, meets, apart, attached, detached, -⟩ :=
    @findFork_latestCommon service'.store service'.tip.number main
      (branchOf service'.store newBlock) newBlock newExt indexed.chain (rooted.branch parent)
      meetsAtGenesis parent.number_pos
  exact ⟨main, fork, common, indexed, found, onMain, below, meets, apart, attached, detached⟩

end Init

end ChainService

/-- With the old branch as the main chain and four blocks of the new branch
beside it, the new branch's fifth block forks off below its parent: the
blocks of its branch above the common ancestor are attached. -/
theorem newBranch_fifth_block_finds_fork :
    ∃ service, runFromGenesis (oldBranch ++ newBranch.take 4) = .ok service ∧
      ∃ fork common, ChainService.findFork service.store service.tip.number (newBranchBlock 5)
          ⟨6, 0, none, [], ⟨0, 0⟩⟩ = .ok fork ∧ common < 5 ∧
        fork.attachedBlocks = (List.range' (common + 1) (5 - common)).map
          (ChainService.branchOf service.store (newBranchBlock 5)) := by
  obtain ⟨service, ran⟩ := Except.exists_eq_ok_of_isSome
    (by decide +kernel : (runFromGenesis (oldBranch ++ newBranch.take 4)).toOption.isSome = true)
  have stored : (runFromGenesis (oldBranch ++ newBranch.take 4)).map
      (fun service => service.store.block (newBranchBlock 5).header.parentHash) =
        .ok (some (newBranchBlock 4)) := by decide +kernel
  rw [ran] at stored
  obtain ⟨main, fork, common, -, found, -, below, -, -, attached, -⟩ :=
    ChainService.processBlocks_init_findFork init_genesisChain rfl (by decide) (by decide)
      (by unfold ChainService.NumbersVerified; decide) (processBlocks_of_runFromGenesis ran)
      ⟨newBranchBlock 4, Except.ok.inj stored, rfl⟩ ⟨6, 0, none, [], ⟨0, 0⟩⟩
  exact ⟨service, ran, fork, common, found, below, attached⟩

end Ckb
