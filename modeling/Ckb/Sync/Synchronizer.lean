import Mathlib
import Ckb.Sync.BlockFetcher
import Ckb.Sync.OrphanBlockPool
import Ckb.Chain.MainIndex

/-!
# Blocks received by the synchronizer

How a block reaches the chain through the sync protocol
(`sync/src/synchronizer/mod.rs`).  A headers message marks each header it
accepts `VALID_MASK` in the block status map (`HeaderAcceptor::accept`,
`sync/src/synchronizer/headers_process.rs`).  A block whose status is
`VALID_MASK` goes to the chain service if the store holds its parent, and
waits in the orphan block pool otherwise (`process_new_block`,
`insert_new_block`); once a block is accepted, the orphans that descend from
it are released and accepted in turn.  The relay protocol hands the blocks it
reconstructs to the same chain service (`Relayer::accept_block`,
`sync/src/relayer/mod.rs`), past the orphan block pool.

The chain service is `ChainService.insertBlock` with verification.  The header
map, the epoch cache and the misbehaviour scores, which the handlers also
write, are not kept: no handler here reads them.  The verdict of the header
verifier and of `version_check` comes with each header.

Two results.  Along every run from an empty orphan block pool, the pool waits
only on parents the store does not hold, unless the relayer stored them.  And
`duplicate_check` is commented out: a headers message that repeats a stored
block's header marks it `VALID_MASK` again, after which the block, sent again,
is inserted again, and the chain overwrites its ext with one that has no
verdict and no fees.
-/

namespace Ckb

/-- What the block handlers of the synchronizer and the relayer share: the
chain service behind `ChainController::process_block`, the synchronizer's
orphan block pool, the block status map of `SyncSharedState`, and the peers. -/
structure Synchronizer where
  chain : ChainService
  orphanBlockPool : OrphanBlockPool
  blockStatusMap : H256 → Option Nat
  peers : Peers

namespace Synchronizer

def insertBlockStatus (sync : Synchronizer) (hash : H256) (status : Nat) : Synchronizer :=
  { sync with blockStatusMap := Function.update sync.blockStatusMap hash (some status) }

/-- `get_block_status`: the recorded status; else `BLOCK_HAVE_MASK` for a
block whose header the store holds, which the map then records, or
`UNKNOWN`. -/
def getBlockStatus (sync : Synchronizer) (hash : H256) : Nat × Synchronizer :=
  match sync.blockStatusMap hash with
  | some status => (status, sync)
  | none =>
    if (sync.chain.store.getBlockHeader hash).isSome then
      (BlockStatus.blockHaveMask, sync.insertBlockStatus hash BlockStatus.blockHaveMask)
    else (BlockStatus.unknown, sync)

/-! ### Headers -/

/-- `HeadersProcess::is_continuous`: each header names the one before it as
its parent. -/
def isContinuous : List Header → Bool
  | parent :: header :: rest => header.parentHash == parent.hash && isContinuous (header :: rest)
  | _ => true

/-- `HeaderAcceptor::accept`, with `verified` the verdict of
`non_contextual_check` and `version_check`.  `duplicate_check` is commented
out in the source and passes every header.  A header is marked `FAILED_MASK`
when its parent's status lies within the failed flags (`UNKNOWN` does) or the
verifier rejects it, and `VALID_MASK` otherwise. -/
def acceptHeader (sync : Synchronizer) (header : Header) (verified : Bool) : Bool × Synchronizer :=
  let read := sync.getBlockStatus header.parentHash
  if read.1 &&& BlockStatus.failedMask = read.1 then
    (false, read.2.insertBlockStatus header.hash BlockStatus.failedMask)
  else if verified then
    (true, read.2.insertBlockStatus header.hash BlockStatus.validMask)
  else
    (false, read.2.insertBlockStatus header.hash BlockStatus.failedMask)

/-- The loop of `HeadersProcess::execute`: `accept_first`, then each window,
until a header is invalid. -/
def acceptHeaders (sync : Synchronizer) : List (Header × Bool) → Synchronizer
  | [] => sync
  | (header, verified) :: rest =>
    match sync.acceptHeader header verified with
    | (true, accepted) => acceptHeaders accepted rest
    | (false, rejected) => rejected

/-- `HeadersProcess::execute` on the block statuses: a message of more than
`MAX_HEADERS_LEN` headers, or whose headers do not follow one another, is
dropped. -/
def headersReceived (sync : Synchronizer) (headers : List (Header × Bool)) : Synchronizer :=
  if maxHeadersLen < headers.length then sync
  else if isContinuous (headers.map Prod.fst) then sync.acceptHeaders headers
  else sync

/-! ### Blocks -/

section Blocks

variable (consensus : Consensus) (checks : BlockChecks)

/-- `ChainController::process_block(block, true)`: `insert_block` with
verification.  A panic of the chain service's thread makes the call panic in
its caller; another error is returned, here as `none`. -/
def processBlock (chain : ChainService) (block : Block) : Except String (Option ChainService) :=
  match ChainService.insertBlock consensus checks chain block true with
  | .ok chain => .ok (some chain)
  | .error (.panic _) => .error "process_block() failed"
  | .error _ => .ok none

/-- `accept_block`: once the chain takes the block, its status becomes
`BLOCK_HAVE_MASK` (`mark_block_stored`) and it is the peer's last common
header.  `none` is the error that `process_block` returns. -/
def acceptBlock (sync : Synchronizer) (peer : PeerIndex) (block : Block) :
    Except String (Option Synchronizer) := do
  match ← processBlock consensus checks sync.chain block with
  | none => pure none
  | some chain =>
    pure (some (({ sync with chain, peers := sync.peers.setLastCommonHeader peer block.header }
      : Synchronizer).insertBlockStatus block.header.hash BlockStatus.blockHaveMask))

/-- The closure `known_parent` of `insert_new_block`. -/
def knownParent (sync : Synchronizer) (block : Block) : Bool :=
  (sync.chain.store.getBlockHeader block.header.parentHash).isSome

/-- The loop of `insert_new_block` over the descendants released from the
orphan block pool: one whose parent the store does not hold is dropped, and
one that the chain refuses is passed over. -/
def acceptDescendants (peer : PeerIndex) : Synchronizer → List Block → Except String Synchronizer
  | sync, [] => pure sync
  | sync, block :: rest =>
    if knownParent sync block then do
      match ← acceptBlock consensus checks sync peer block with
      | some accepted => acceptDescendants peer accepted rest
      | none => acceptDescendants peer sync rest
    else acceptDescendants peer sync rest

/-- `insert_new_block`: a block whose parent the store does not hold waits in
the orphan block pool; otherwise it is accepted, and then the orphans that
descend from it, in the order `remove_blocks_by_parent` releases them. -/
def insertNewBlock (sync : Synchronizer) (peer : PeerIndex) (block : Block) :
    Except String Synchronizer :=
  if knownParent sync block then do
    match ← acceptBlock consensus checks sync peer block with
    | none => pure sync
    | some accepted =>
      let released := accepted.orphanBlockPool.removeBlocksByParent block.header.hash
      acceptDescendants consensus checks peer { accepted with orphanBlockPool := released.1 }
        released.2
  else pure { sync with orphanBlockPool := sync.orphanBlockPool.insert block }

/-- `process_new_block`: a block is dropped when blocks wait in the orphan
block pool under its parent's hash, or when its status is not `VALID_MASK`. -/
def processNewBlock (sync : Synchronizer) (peer : PeerIndex) (block : Block) :
    Except String Synchronizer :=
  if sync.orphanBlockPool.contains block then pure sync
  else
    let read := sync.getBlockStatus block.header.hash
    if read.1 = BlockStatus.validMask then insertNewBlock consensus checks read.2 peer block
    else pure read.2

end Blocks

end Synchronizer

namespace Relayer

/-- `Relayer::accept_block`: the chain takes a reconstructed compact block;
the orphan block pool and the block statuses are not touched. -/
def acceptBlock (consensus : Consensus) (checks : BlockChecks) (sync : Synchronizer)
    (block : Block) : Except String Synchronizer := do
  match ← Synchronizer.processBlock consensus checks sync.chain block with
  | none => pure sync
  | some chain => pure { sync with chain }

end Relayer

namespace Synchronizer

/-- The messages that bring headers and blocks: a headers message with the
verifier's verdict on each header, a block from a peer, and a block that the
relayer reconstructed from a compact block. -/
inductive Event where
  | headers (headers : List (Header × Bool))
  | block (peer : PeerIndex) (block : Block)
  | compactBlock (block : Block)

section Run

variable (consensus : Consensus) (checks : BlockChecks)

def step (sync : Synchronizer) : Event → Except String Synchronizer
  | .headers headers => pure (sync.headersReceived headers)
  | .block peer block => processNewBlock consensus checks sync peer block
  | .compactBlock block => Relayer.acceptBlock consensus checks sync block

def run (sync : Synchronizer) (events : List Event) : Except String Synchronizer :=
  events.foldlM (step consensus checks) sync

end Run

/-! ### What the header handlers change -/

section Statuses

theorem getBlockStatus_statuses (sync : Synchronizer) (hash : H256) :
    ∃ statuses, (sync.getBlockStatus hash).2 = { sync with blockStatusMap := statuses } := by
  unfold getBlockStatus
  split
  · exact ⟨sync.blockStatusMap, rfl⟩
  · split
    · exact ⟨_, rfl⟩
    · exact ⟨sync.blockStatusMap, rfl⟩

theorem acceptHeader_statuses (sync : Synchronizer) (header : Header) (verified : Bool) :
    ∃ statuses, (sync.acceptHeader header verified).2 = { sync with blockStatusMap := statuses } := by
  obtain ⟨statuses, read⟩ := sync.getBlockStatus_statuses header.parentHash
  unfold acceptHeader
  dsimp only
  split_ifs <;> exact ⟨_, by rw [read]; rfl⟩

theorem acceptHeaders_statuses :
    ∀ (sync : Synchronizer) (headers : List (Header × Bool)),
      ∃ statuses, sync.acceptHeaders headers = { sync with blockStatusMap := statuses }
  | sync, [] => ⟨sync.blockStatusMap, rfl⟩
  | sync, (header, verified) :: rest => by
      obtain ⟨statuses, accepted⟩ := sync.acceptHeader_statuses header verified
      unfold acceptHeaders
      rcases outcome : sync.acceptHeader header verified with ⟨valid, next⟩
      rw [outcome] at accepted
      simp only at accepted
      subst accepted
      cases valid with
      | true =>
          obtain ⟨later, rest⟩ := acceptHeaders_statuses { sync with blockStatusMap := statuses } rest
          exact ⟨later, rest⟩
      | false => exact ⟨statuses, rfl⟩

theorem headersReceived_statuses (sync : Synchronizer) (headers : List (Header × Bool)) :
    ∃ statuses, sync.headersReceived headers = { sync with blockStatusMap := statuses } := by
  unfold headersReceived
  split_ifs
  · exact ⟨sync.blockStatusMap, rfl⟩
  · exact sync.acceptHeaders_statuses headers
  · exact ⟨sync.blockStatusMap, rfl⟩

theorem blockHaveMask_ne_validMask : BlockStatus.blockHaveMask ≠ BlockStatus.validMask := by
  decide +kernel

theorem getBlockStatus_not_failed {sync : Synchronizer} {hash : H256}
    (stored : (sync.chain.store.getBlockHeader hash).isSome)
    (recorded : ∀ status, sync.blockStatusMap hash = some status →
      status &&& BlockStatus.failedMask ≠ status) :
    (sync.getBlockStatus hash).1 &&& BlockStatus.failedMask ≠ (sync.getBlockStatus hash).1 := by
  unfold getBlockStatus
  cases held : sync.blockStatusMap hash with
  | some status => exact recorded status held
  | none =>
      simp only [stored, if_true]
      decide +kernel

/-- A headers message of one header that the verifier passes marks it
`VALID_MASK`, whatever its status was, when its parent does not read as
failed. -/
theorem headersReceived_single {sync : Synchronizer} {header : Header}
    (parentFine : (sync.getBlockStatus header.parentHash).1 &&& BlockStatus.failedMask ≠
      (sync.getBlockStatus header.parentHash).1) :
    sync.headersReceived [(header, true)] =
      (sync.getBlockStatus header.parentHash).2.insertBlockStatus header.hash
        BlockStatus.validMask := by
  simp [headersReceived, acceptHeaders, acceptHeader, isContinuous, maxHeadersLen, parentFine]

end Statuses

/-! ### What the chain takes -/

section Chain

variable {consensus : Consensus} {checks : BlockChecks}

theorem getBlockHeader_of_block_update {store store' : ChainStore} {block : Block}
    (updated : store'.block = Function.update store.block block.header.hash (some block))
    {hash : H256} (other : hash ≠ block.header.hash) :
    store'.getBlockHeader hash = store.getBlockHeader hash := by
  simp only [ChainStore.getBlockHeader, updated, Function.update_of_ne other]

theorem processBlock_eq_ok_some {chain chain' : ChainService} {block : Block}
    (accepted : processBlock consensus checks chain block = .ok (some chain')) :
    chain'.store.block = Function.update chain.store.block block.header.hash (some block) := by
  unfold processBlock at accepted
  cases inserted : ChainService.insertBlock consensus checks chain block true with
  | ok stored =>
      rw [inserted] at accepted
      cases accepted
      exact ChainService.insertBlock_block inserted
  | error error =>
      rw [inserted] at accepted
      cases error <;> cases accepted

theorem acceptBlock_eq_ok_some {sync accepted : Synchronizer} {peer : PeerIndex} {block : Block}
    (success : acceptBlock consensus checks sync peer block = .ok (some accepted)) :
    accepted.orphanBlockPool = sync.orphanBlockPool ∧
      accepted.chain.store.block =
        Function.update sync.chain.store.block block.header.hash (some block) := by
  unfold acceptBlock at success
  rw [Except.bind_eq_ok] at success
  obtain ⟨result, processed, taken⟩ := success
  cases result with
  | none => cases taken
  | some chain =>
      cases taken
      exact ⟨rfl, processBlock_eq_ok_some processed⟩

/-- The loop over released descendants keeps the orphan block pool, and adds
to the store only headers of the blocks it is given. -/
theorem acceptDescendants_eq_ok {peer : PeerIndex} :
    ∀ {blocks : List Block} {sync final : Synchronizer},
      acceptDescendants consensus checks peer sync blocks = .ok final →
      final.orphanBlockPool = sync.orphanBlockPool ∧
        ∀ hash, sync.chain.store.getBlockHeader hash = none →
          (∀ block ∈ blocks, block.header.hash ≠ hash) →
            final.chain.store.getBlockHeader hash = none
  | [], sync, final, ran => by
      cases ran
      exact ⟨rfl, fun _ absent _ => absent⟩
  | block :: rest, sync, final, ran => by
      have others : ∀ hash, (∀ other ∈ block :: rest, other.header.hash ≠ hash) →
          ∀ other ∈ rest, other.header.hash ≠ hash :=
        fun _ differs other member => differs other (List.mem_cons_of_mem block member)
      unfold acceptDescendants at ran
      split at ran
      · rw [Except.bind_eq_ok] at ran
        obtain ⟨result, taken, later⟩ := ran
        cases result with
        | none =>
            obtain ⟨samePool, kept⟩ := acceptDescendants_eq_ok later
            exact ⟨samePool, fun hash absent differs => kept hash absent (others hash differs)⟩
        | some accepted =>
            obtain ⟨samePool, kept⟩ := acceptDescendants_eq_ok later
            obtain ⟨poolKept, updated⟩ := acceptBlock_eq_ok_some taken
            refine ⟨samePool.trans poolKept, fun hash absent differs => ?_⟩
            apply kept hash _ (others hash differs)
            rw [getBlockHeader_of_block_update updated (differs block List.mem_cons_self).symm]
            exact absent
      · obtain ⟨samePool, kept⟩ := acceptDescendants_eq_ok ran
        exact ⟨samePool, fun hash absent differs => kept hash absent (others hash differs)⟩

theorem acceptBlock_of_processBlock {sync : Synchronizer} (peer : PeerIndex) {block : Block}
    {chain : ChainService}
    (processed : processBlock consensus checks sync.chain block = .ok (some chain)) :
    acceptBlock consensus checks sync peer block =
      .ok (some (({ sync with chain, peers := sync.peers.setLastCommonHeader peer block.header }
        : Synchronizer).insertBlockStatus block.header.hash BlockStatus.blockHaveMask)) := by
  simp [acceptBlock, processed]

theorem insertNewBlock_of_childless {sync accepted : Synchronizer} {peer : PeerIndex}
    {block : Block} (parent : knownParent sync block = true)
    (took : acceptBlock consensus checks sync peer block = .ok (some accepted))
    (childless : LinkedMap.get? accepted.orphanBlockPool.blocks block.header.hash = none) :
    insertNewBlock consensus checks sync peer block = .ok accepted := by
  simp only [insertNewBlock, parent, if_true, took, Except.ok_bind,
    OrphanBlockPool.removeBlocksByParent_of_absent childless]
  rfl

theorem processNewBlock_of_valid {sync : Synchronizer} {peer : PeerIndex} {block : Block}
    (noSibling : sync.orphanBlockPool.contains block = false)
    (valid : sync.blockStatusMap block.header.hash = some BlockStatus.validMask) :
    processNewBlock consensus checks sync peer block =
      insertNewBlock consensus checks sync peer block := by
  simp [processNewBlock, noSibling, getBlockStatus, valid]

end Chain

/-! ### The orphan block pool waits on unknown parents -/

/-- The orphan block pool waits only under parent hashes that the store does
not hold, or that are `relayed`: hashes of blocks that reached the chain past
the pool. -/
structure Waiting (relayed : H256 → Prop) (sync : Synchronizer) : Prop where
  filed : sync.orphanBlockPool.Filed
  unknown : ∀ entry ∈ sync.orphanBlockPool.blocks,
    sync.chain.store.getBlockHeader entry.1 = none ∨ relayed entry.1

section Waiting

variable {consensus : Consensus} {checks : BlockChecks} {relayed : H256 → Prop}
  {sync final : Synchronizer} {peer : PeerIndex} {block : Block}

theorem Waiting.mono {relayed' : H256 → Prop} (waiting : Waiting relayed sync)
    (more : ∀ hash, relayed hash → relayed' hash) : Waiting relayed' sync :=
  ⟨waiting.filed, fun entry member => (waiting.unknown entry member).imp_right (more entry.1)⟩

theorem Waiting.withStatuses (waiting : Waiting relayed sync) (statuses : H256 → Option Nat) :
    Waiting relayed { sync with blockStatusMap := statuses } :=
  ⟨waiting.filed, waiting.unknown⟩

theorem waiting_withCapacity (chain : ChainService) (capacity : Nat)
    (statuses : H256 → Option Nat) (peers : Peers) :
    Waiting relayed ⟨chain, OrphanBlockPool.withCapacity capacity, statuses, peers⟩ :=
  ⟨OrphanBlockPool.withCapacity_filed capacity, fun _ member => by cases member⟩

theorem Waiting.insert (waiting : Waiting relayed sync) (orphan : knownParent sync block = false) :
    Waiting relayed { sync with orphanBlockPool := sync.orphanBlockPool.insert block } := by
  constructor
  · exact OrphanBlockPool.insert_filed waiting.filed block
  · show ∀ entry ∈ Entries.upsert block.header.parentHash []
        (OrphanBlockPool.insertIntoSet · block) sync.orphanBlockPool.blocks,
      sync.chain.store.getBlockHeader entry.1 = none ∨ relayed entry.1
    refine Entries.forall_mem_upsert ?_ ?_ waiting.unknown
    · left
      simpa [knownParent] using orphan
    · intro _ held
      exact held

/-- Once the chain takes `block`, `remove_blocks_by_parent` leaves no bucket
under its hash, nor under the hash of a block it released; those are the
only headers the store gains while the released blocks are accepted. -/
theorem Waiting.release {accepted : Synchronizer} (waiting : Waiting relayed sync)
    (took : acceptBlock consensus checks sync peer block = .ok (some accepted))
    (ran : acceptDescendants consensus checks peer
      { accepted with
        orphanBlockPool := (accepted.orphanBlockPool.removeBlocksByParent block.header.hash).1 }
      (accepted.orphanBlockPool.removeBlocksByParent block.header.hash).2 = .ok final) :
    Waiting relayed final := by
  obtain ⟨poolKept, updated⟩ := acceptBlock_eq_ok_some took
  obtain ⟨finalPool, stored⟩ := acceptDescendants_eq_ok ran
  have filed : accepted.orphanBlockPool.Filed := poolKept ▸ waiting.filed
  constructor
  · rw [finalPool]
    exact OrphanBlockPool.removeBlocksByParent_filed filed _
  · rintro ⟨key, bucket⟩ member
    rw [finalPool] at member
    obtain ⟨held, notRoot, notReleased⟩ := OrphanBlockPool.mem_removeBlocksByParent filed member
    rw [poolKept] at held
    rcases waiting.unknown _ held with absent | passed
    · left
      apply stored key _ notReleased
      rw [getBlockHeader_of_block_update updated notRoot]
      exact absent
    · exact Or.inr passed

theorem Waiting.insertNewBlock (waiting : Waiting relayed sync)
    (inserted : insertNewBlock consensus checks sync peer block = .ok final) :
    Waiting relayed final := by
  unfold Synchronizer.insertNewBlock at inserted
  split at inserted
  · rw [Except.bind_eq_ok] at inserted
    obtain ⟨result, took, rest⟩ := inserted
    cases result with
    | none =>
        cases rest
        exact waiting
    | some accepted => exact waiting.release took rest
  · next orphan =>
      cases inserted
      exact waiting.insert (by simpa using orphan)

theorem Waiting.processNewBlock (waiting : Waiting relayed sync)
    (processed : processNewBlock consensus checks sync peer block = .ok final) :
    Waiting relayed final := by
  unfold Synchronizer.processNewBlock at processed
  obtain ⟨statuses, read⟩ := sync.getBlockStatus_statuses block.header.hash
  have waitingRead : Waiting relayed (sync.getBlockStatus block.header.hash).2 := by
    rw [read]
    exact waiting.withStatuses statuses
  split at processed
  · cases processed
    exact waiting
  · dsimp only at processed
    split at processed
    · exact waitingRead.insertNewBlock processed
    · cases processed
      exact waitingRead

theorem Waiting.relayerAcceptBlock (waiting : Waiting relayed sync)
    (accepted : Relayer.acceptBlock consensus checks sync block = .ok final) :
    Waiting (fun hash => relayed hash ∨ hash = block.header.hash) final := by
  unfold Relayer.acceptBlock at accepted
  rw [Except.bind_eq_ok] at accepted
  obtain ⟨result, processed, taken⟩ := accepted
  cases result with
  | none =>
      cases taken
      exact waiting.mono fun _ held => Or.inl held
  | some chain =>
      cases taken
      have updated := processBlock_eq_ok_some processed
      refine ⟨waiting.filed, fun entry member => ?_⟩
      by_cases same : entry.1 = block.header.hash
      · exact Or.inr (Or.inr same)
      · rcases waiting.unknown entry member with absent | passed
        · left
          rw [getBlockHeader_of_block_update updated same]
          exact absent
        · exact Or.inr (Or.inl passed)

/-- The hashes of the blocks that the compact-block events of `events` carry. -/
def relayedBy (events : List Event) (hash : H256) : Prop :=
  ∃ block, Event.compactBlock block ∈ events ∧ block.header.hash = hash

theorem Waiting.step {done : List Event} {event : Event}
    (waiting : Waiting (relayedBy done) sync)
    (stepped : step consensus checks sync event = .ok final) :
    Waiting (relayedBy (done ++ [event])) final := by
  have grown : ∀ hash, relayedBy done hash → relayedBy (done ++ [event]) hash := by
    rintro hash ⟨relayedBlock, member, same⟩
    exact ⟨relayedBlock, List.mem_append_left _ member, same⟩
  cases event with
  | headers headers =>
      cases stepped
      obtain ⟨statuses, read⟩ := sync.headersReceived_statuses headers
      rw [read]
      exact (waiting.withStatuses statuses).mono grown
  | block peer block => exact (waiting.processNewBlock stepped).mono grown
  | compactBlock block =>
      apply (waiting.relayerAcceptBlock stepped).mono
      rintro hash (earlier | rfl)
      · exact grown hash earlier
      · exact ⟨block, List.mem_append_right _ (List.mem_singleton_self _), rfl⟩

theorem Waiting.ne_of_stored (waiting : Waiting (fun _ => False) sync) {hash : H256}
    (stored : (sync.chain.store.getBlockHeader hash).isSome) :
    ∀ entry ∈ sync.orphanBlockPool.blocks, entry.1 ≠ hash := by
  intro entry member same
  rcases waiting.unknown entry member with absent | never
  · rw [← same, absent] at stored
    cases stored
  · exact never

end Waiting

section Runs

variable {consensus : Consensus} {checks : BlockChecks}

/-- Along every run of headers messages, blocks and relayed compact blocks
from an empty orphan block pool, each block the pool keeps has a parent that
the store does not hold, unless the relayer took that parent: the synchronizer
releases the orphans of every block it accepts, and the relayer releases
none. -/
theorem orphans_wait_for_unknown_parents {chain : ChainService} {capacity : Nat}
    {statuses : H256 → Option Nat} {peers : Peers} {events : List Event} {final : Synchronizer}
    (ran : run consensus checks ⟨chain, OrphanBlockPool.withCapacity capacity, statuses, peers⟩
      events = .ok final) :
    final.orphanBlockPool.Filed ∧
      ∀ block ∈ Buckets.items final.orphanBlockPool.blocks,
        final.chain.store.getBlockHeader block.header.parentHash = none ∨
          ∃ relayed, Event.compactBlock relayed ∈ events ∧
            relayed.header.hash = block.header.parentHash := by
  have waiting : Waiting (relayedBy ([] ++ events)) final :=
    @Except.foldlM_invariant String Event Synchronizer (step consensus checks)
      (fun done sync => Waiting (relayedBy done) sync)
      (fun _ _ _ _ holds stepped => holds.step stepped) events [] _ final
      (waiting_withCapacity chain capacity statuses peers) ran
  rw [List.nil_append] at waiting
  refine ⟨waiting.filed, fun block member => ?_⟩
  obtain ⟨⟨key, bucket⟩, entry, held⟩ := Buckets.mem_items.mp member
  rw [waiting.filed.parent_eq _ entry block held]
  exact waiting.unknown _ entry

end Runs

section Samples

/-- A node at the genesis block of the reward samples of `Chain.Service`, with
an empty orphan block pool and no status recorded. -/
def genesisSync : Synchronizer :=
  ⟨genesisChain, OrphanBlockPool.withCapacity 1024, fun _ => none, ⟨[]⟩⟩

/-- The headers of the old branch's first two blocks, then the second block
before the first. -/
def outOfOrderEvents : List Event :=
  [.headers [((oldBranchBlock 1).header, true), ((oldBranchBlock 2).header, true)],
    .block 7 (oldBranchBlock 2), .block 7 (oldBranchBlock 1)]

/-- The second block waits in the orphan block pool until the first one
arrives; both then reach the chain. -/
theorem outOfOrder_blocks_reach_tip :
    ∃ final, run shortWindowConsensus acceptingChecks genesisSync outOfOrderEvents = .ok final ∧
      final.chain.tip = (oldBranchBlock 2).header ∧
      final.orphanBlockPool.Filed ∧
      ∀ block ∈ Buckets.items final.orphanBlockPool.blocks,
        final.chain.store.getBlockHeader block.header.parentHash = none ∨
          ∃ relayed, Event.compactBlock relayed ∈ outOfOrderEvents ∧
            relayed.header.hash = block.header.parentHash := by
  have tip : (run shortWindowConsensus acceptingChecks genesisSync outOfOrderEvents).map
      (·.chain.tip) = .ok (oldBranchBlock 2).header := by
    decide +kernel
  cases ran : run shortWindowConsensus acceptingChecks genesisSync outOfOrderEvents with
  | error message =>
      rw [ran] at tip
      cases tip
  | ok final =>
      rw [ran] at tip
      exact ⟨final, rfl, Except.ok.inj tip, orphans_wait_for_unknown_parents ran⟩

end Samples

section Resent

variable {consensus : Consensus} {checks : BlockChecks} {sync : Synchronizer}

/-- A stored block sent again alone is dropped.  After a headers message that
repeats its header (`duplicate_check` is commented out) it reaches
`insert_block` again, and beside the tip it is stored with a fresh ext, whose
fees the reward calculator reads as none. -/
theorem reannounced_block_reinserted {peer : PeerIndex} {block : Block}
    {parentExt : BlockExt} {parentHeader : Header} {parentEpoch : EpochExt}
    {nextEpoch : Option EpochExt} {daoData : Nat × Capacity}
    (waiting : Waiting (fun _ => False) sync)
    (stored : (sync.chain.store.getBlockHeader block.header.hash).isSome)
    (markedStored : sync.blockStatusMap block.header.hash = some BlockStatus.blockHaveMask)
    (parentStatus : ∀ status, sync.blockStatusMap block.header.parentHash = some status →
      status &&& BlockStatus.failedMask ≠ status)
    (verifies : checks.verifyBlock block = true)
    (derived : ChainService.Derived consensus sync.chain.store block parentExt parentHeader
      parentEpoch nextEpoch daoData)
    (notBest :
      sync.chain.isNewBest block (parentExt.totalDifficulty + block.header.difficulty) = false) :
    processNewBlock consensus checks sync peer block = .ok sync ∧
      ∃ final, run consensus checks sync [.headers [(block.header, true)], .block peer block] =
          .ok final ∧
        final.chain.store.getBlockExt block.header.hash =
          some (ChainService.newExt parentExt block daoData) ∧
        RewardCalculator.txsFees consensus final.chain.store block.header = .ok Capacity.zero := by
  have parentKnown : (sync.chain.store.getBlockHeader block.header.parentHash).isSome := by
    rw [derived.headerStored]
    rfl
  have alone : processNewBlock consensus checks sync peer block = .ok sync := by
    unfold processNewBlock
    split
    · rfl
    · simp [getBlockStatus, markedStored, blockHaveMask_ne_validMask]
  refine ⟨alone, ?_⟩
  obtain ⟨statuses, read⟩ := sync.getBlockStatus_statuses block.header.parentHash
  have headersStep := headersReceived_single (getBlockStatus_not_failed parentKnown parentStatus)
  rw [read] at headersStep
  set marked : Synchronizer := ({ sync with blockStatusMap := statuses } : Synchronizer).insertBlockStatus
    block.header.hash BlockStatus.validMask with markedDef
  have markedValid : marked.blockStatusMap block.header.hash = some BlockStatus.validMask := by
    simp [markedDef, insertBlockStatus]
  have noSibling : marked.orphanBlockPool.contains block = false :=
    OrphanBlockPool.contains_eq_false (waiting.ne_of_stored parentKnown)
  set chain' : ChainService := { sync.chain with
    store := sync.chain.store.commit
      [.insertBlock block, .insertBlockEpoch block.header.hash (nextEpoch.getD parentEpoch),
        .insertBlockExt block.header.hash (ChainService.newExt parentExt block daoData)] }
    with chainDef
  have inserted : ChainService.insertBlock consensus checks sync.chain block true = .ok chain' :=
    ChainService.insertBlock_of_not_best (fun _ => verifies) derived notBest
  have processed : processBlock consensus checks marked.chain block = .ok (some chain') := by
    simp [processBlock, markedDef, insertBlockStatus, inserted]
  have took := acceptBlock_of_processBlock peer processed
  have childless : LinkedMap.get? sync.orphanBlockPool.blocks block.header.hash = none := by
    cases found : LinkedMap.get? sync.orphanBlockPool.blocks block.header.hash with
    | none => rfl
    | some bucket =>
        exact absurd rfl (waiting.ne_of_stored stored _ (LinkedMap.mem_of_get?_eq_some found))
  have extFinal : chain'.store.getBlockExt block.header.hash =
      some (ChainService.newExt parentExt block daoData) := by
    rw [chainDef, ChainStore.getBlockExt, ChainStore.blockExt_commit]
    simp [List.filterMap, ChainStore.extWrite, KeyValue.commit]
  have accepted := insertNewBlock_of_childless (show knownParent marked block = true from parentKnown)
    took childless
  refine ⟨({ marked with chain := chain', peers := marked.peers.setLastCommonHeader peer block.header }
    : Synchronizer).insertBlockStatus block.header.hash BlockStatus.blockHaveMask, ?_, extFinal, ?_⟩
  · simp only [run, List.foldlM_cons, List.foldlM_nil, step, headersStep, pure_bind, bind_pure,
      processNewBlock_of_valid noSibling markedValid, accepted]
  · show RewardCalculator.txsFees consensus chain'.store block.header = .ok Capacity.zero
    simp only [RewardCalculator.txsFees, extFinal, Option.getDM]
    rfl

/-- The chain of the reward samples after the first four blocks of the new
branch, the second of which commits `feePayer`. -/
def fourBlockChain : ChainService :=
  match runFromGenesis (newBranch.take 4) with
  | .ok chain => chain
  | .error _ => genesisChain

/-- A node that synced those four blocks, each marked stored. -/
def fourBlockSync : Synchronizer :=
  ⟨fourBlockChain, OrphanBlockPool.withCapacity 1024,
    fun hash => if hash ∈ (newBranch.take 4).map (·.header.hash) then some BlockStatus.blockHaveMask
      else none, ⟨[]⟩⟩

/-- The second block's committer share of 6 shannons is lost once its header
and then the block are sent again; the fifth block of the new branch, whose
cellbase claims that share, is then refused. -/
theorem feeBlock_resent_loses_fees :
    RewardCalculator.txsFees shortWindowConsensus fourBlockSync.chain.store
        (newBranchBlock 2).header = .ok ⟨6⟩ ∧
      (processNewBlock shortWindowConsensus acceptingChecks fourBlockSync 7 (newBranchBlock 2) =
          .ok fourBlockSync ∧
        ∃ final, run shortWindowConsensus acceptingChecks fourBlockSync
            [.headers [((newBranchBlock 2).header, true)], .block 7 (newBranchBlock 2)] = .ok final ∧
          final.chain.store.getBlockExt (newBranchBlock 2).header.hash =
            some ⟨3, 0, none, [], ⟨0, 2000⟩⟩ ∧
          RewardCalculator.txsFees shortWindowConsensus final.chain.store (newBranchBlock 2).header =
            .ok Capacity.zero) ∧
      (run shortWindowConsensus acceptingChecks fourBlockSync
          [.headers [((newBranchBlock 2).header, true)], .block 7 (newBranchBlock 2)]).map
        (fun final => (ChainService.insertBlock shortWindowConsensus acceptingChecks final.chain
          (newBranchBlock 5) true).map (·.tip.hash)) =
        .ok (.error (.invalidTransaction (.cellbase .invalidRewardAmount))) := by
  have parentMarked : fourBlockSync.blockStatusMap (newBranchBlock 2).header.parentHash =
      some BlockStatus.blockHaveMask := by
    decide
  have parentStatus : ∀ status,
      fourBlockSync.blockStatusMap (newBranchBlock 2).header.parentHash = some status →
        status &&& BlockStatus.failedMask ≠ status := by
    intro status held
    rw [parentMarked] at held
    cases held
    decide +kernel
  have derived : ChainService.Derived shortWindowConsensus fourBlockSync.chain.store
      (newBranchBlock 2) ⟨2, 0, some true, [], ⟨0, 1000⟩⟩ (newBranchBlock 1).header
      shortWindowConsensus.genesisEpochExt none (0, ⟨2000⟩) :=
    ⟨by decide +kernel, by decide +kernel, by decide, by decide +kernel, by decide +kernel,
      by decide +kernel, by decide⟩
  refine ⟨by decide +kernel,
    reannounced_block_reinserted (waiting_withCapacity _ _ _ _) (by decide +kernel) (by decide)
      parentStatus (show acceptingChecks.verifyBlock (newBranchBlock 2) = true from rfl) derived
      (by decide +kernel),
    by decide +kernel⟩

end Resent

end Synchronizer

end Ckb
