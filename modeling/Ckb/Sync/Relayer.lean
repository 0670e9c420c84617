import Ckb.Core.Builder
import Ckb.Lib.LinkedMap
import Ckb.Script.Syscalls

/-!
# Compact blocks

A compact block (`sync/src/relayer/compact_block.rs`) carries a block's
header, uncles and proposals, some of its transactions with their indexes,
and for each other transaction a six-byte short id: SipHash, under keys drawn
from the header's nonce and a random nonce, of its witness hash.

`CompactBlock::build` (`protocol/src/builder.rs`) prefills the cellbase and
the chosen indexes; `CompactBlockVerifier` checks that the cellbase is
prefilled, the indexes rise and stay in range, and the short ids are distinct
and miss every prefilled transaction; `Relayer::reconstruct_block`
(`sync/src/relayer/mod.rs`) gives the short ids back their transactions,
first from the supplied list and then from the proposed pool, and fills the
gaps between the prefilled ones in order.

Hash sets and maps are lists; the set of short ids is the list without
repeats, the map of found transactions a `LinkedMap`.  A `usize` subtraction
that would wrap panics, as the release profile checks overflow.
-/

namespace Ckb

/-- `ShortTransactionID`: six bytes. -/
structure ShortTransactionID where
  bytes : List UInt8
  six : bytes.length = 6
  deriving DecidableEq

structure IndexTransaction where
  index : Nat
  transaction : Transaction
  deriving DecidableEq, Repr

structure CompactBlock where
  header : Core.Header
  uncles : List Core.UncleBlock
  nonce : UInt64
  shortIds : List ShortTransactionID
  prefilledTransactions : List IndexTransaction
  proposals : List ProposalShortId
  deriving DecidableEq

/-- The keyed hashing of short ids: `short_transaction_id_keys`, the two
little-endian words of blake2b over the two nonces, and SipHash-2-4. -/
structure ShortIdHashers where
  keys : UInt64 → UInt64 → UInt64 × UInt64
  sipHash : UInt64 → UInt64 → List UInt8 → UInt64

variable (hashers : Hashers) (sip : ShortIdHashers)

/-- `short_transaction_id`: the first six bytes of the little-endian SipHash
of the witness hash. -/
def shortTransactionId (key0 key1 : UInt64) (witnessHash : H256) : ShortTransactionID :=
  ⟨(LittleEndian.encode (sip.sipHash key0 key1 witnessHash.asBytes).toNat 8).take 6, by simp⟩

/-- A transaction's short id under a compact block's keys. -/
def CompactBlock.shortIdOf (compactBlock : CompactBlock) (tx : Transaction) :
    ShortTransactionID :=
  let (key0, key1) := sip.keys compactBlock.header.seal_.nonce compactBlock.nonce
  shortTransactionId sip key0 key1 (tx.witnessHash hashers)

/-- `CompactBlock::build`: the cellbase and the transactions at the chosen
indexes are prefilled, the others go by their short ids. -/
def CompactBlock.build (block : Core.Block) (prefilledTransactionsIndexes : List Nat)
    (nonce : UInt64) : CompactBlock :=
  let (key0, key1) := sip.keys block.header.seal_.nonce nonce
  let prefilled := fun (entry : Transaction × Nat) =>
    decide (entry.2 ∈ prefilledTransactionsIndexes) || entry.1.isCellbase
  let indexed := block.transactions.zipIdx
  ⟨block.header, block.uncles, nonce,
    (indexed.filter fun entry => !prefilled entry).map fun entry =>
      shortTransactionId sip key0 key1 (entry.1.witnessHash hashers),
    (indexed.filter prefilled).map fun entry => ⟨entry.2, entry.1⟩,
    block.proposals⟩

/-- The errors of `CompactBlockVerifier`. -/
inductive CompactBlockError where
  | cellbaseNotPrefilled
  | duplicatedShortIds
  | unorderedPrefilledTransactions
  | overflowPrefilledTransactions
  | intersectedPrefilledTransactions
  deriving DecidableEq, Repr

namespace CompactBlockVerifier

/-- Some index of the list is not above the one before it. -/
def unordered : List IndexTransaction → Bool
  | first :: second :: rest => decide (second.index ≤ first.index) || unordered (second :: rest)
  | _ => false

def verifyPrefilled (block : CompactBlock) : Except CompactBlockError Unit := do
  let prefilledTransactions := block.prefilledTransactions
  let txsLen := prefilledTransactions.length + block.shortIds.length
  match prefilledTransactions.head? with
  | none => throw .cellbaseNotPrefilled
  | some first => if first.index ≠ 0 then throw .cellbaseNotPrefilled
  if unordered prefilledTransactions then throw .unorderedPrefilledTransactions
  match prefilledTransactions.getLast? with
  | some last => if last.index ≥ txsLen then throw .overflowPrefilledTransactions
  | none => pure ()

def verifyShortIds (block : CompactBlock) : Except CompactBlockError Unit := do
  let shortIdsSet := block.shortIds.dedup
  if block.shortIds.length ≠ shortIdsSet.length then throw .duplicatedShortIds
  let isIntersect := block.prefilledTransactions.any fun prefilled =>
    decide (block.shortIdOf hashers sip prefilled.transaction ∈ shortIdsSet)
  if isIntersect then throw .intersectedPrefilledTransactions

def verify (block : CompactBlock) : Except CompactBlockError Unit := do
  verifyPrefilled block
  verifyShortIds hashers sip block

end CompactBlockVerifier

/-- What `reconstruct_block` returns when it cannot build the block: the
indexes with no transaction found, or a panic with its message. -/
inductive ReconstructError where
  | missing (indexes : List Nat)
  | panic (message : String)
  deriving DecidableEq, Repr

namespace Relayer

variable (key0 key1 : UInt64)

/-- The `filter_map` over the supplied transactions: one whose short id is
still in the set leaves the set and goes into the map. -/
def matchTransactions : List Transaction → List ShortTransactionID →
    List (ShortTransactionID × Transaction) →
      List ShortTransactionID × List (ShortTransactionID × Transaction)
  | [], shortIdsSet, txsMap => (shortIdsSet, txsMap)
  | tx :: rest, shortIdsSet, txsMap =>
    let shortId := shortTransactionId sip key0 key1 (tx.witnessHash hashers)
    if shortId ∈ shortIdsSet then
      matchTransactions rest (shortIdsSet.erase shortId) (LinkedMap.insert txsMap shortId tx).1
    else
      matchTransactions rest shortIdsSet txsMap

/-- The loop over the proposed pool, with its early exit once the set is
empty. -/
def matchProposed : List Transaction → List ShortTransactionID →
    List (ShortTransactionID × Transaction) →
      List ShortTransactionID × List (ShortTransactionID × Transaction)
  | [], shortIdsSet, txsMap => (shortIdsSet, txsMap)
  | tx :: rest, shortIdsSet, txsMap =>
    let shortId := shortTransactionId sip key0 key1 (tx.witnessHash hashers)
    if shortId ∈ shortIdsSet then
      let shortIdsSet := shortIdsSet.erase shortId
      let txsMap := (LinkedMap.insert txsMap shortId tx).1
      if shortIdsSet.isEmpty then (shortIdsSet, txsMap)
      else matchProposed rest shortIdsSet txsMap
    else
      matchProposed rest shortIdsSet txsMap

/-- Each short id in turn pushes what the map holds for it, which leaves the
map. -/
def pushShortIds : List ShortTransactionID → List (Option Transaction) →
    List (ShortTransactionID × Transaction) →
      List (Option Transaction) × List (ShortTransactionID × Transaction)
  | [], blockTransactions, txsMap => (blockTransactions, txsMap)
  | shortId :: rest, blockTransactions, txsMap =>
    let (txsMap, found) := LinkedMap.remove txsMap shortId
    pushShortIds rest (blockTransactions ++ [found]) txsMap

/-- The `for_each` over the prefilled transactions: the short ids of the gap
up to each one's index, then the prefilled transaction itself. -/
def fillGaps : List IndexTransaction → List (Option Transaction) → List ShortTransactionID →
    List (ShortTransactionID × Transaction) →
      Except ReconstructError (List (Option Transaction) × List ShortTransactionID ×
        List (ShortTransactionID × Transaction))
  | [], blockTransactions, shortIds, txsMap => pure (blockTransactions, shortIds, txsMap)
  | pt :: rest, blockTransactions, shortIds, txsMap => do
    if pt.index < blockTransactions.length then
      throw (.panic "attempt to subtract with overflow")
    let gap := pt.index - blockTransactions.length
    let (blockTransactions, txsMap) :=
      if gap > 0 then pushShortIds (shortIds.take gap) blockTransactions txsMap
      else (blockTransactions, txsMap)
    fillGaps rest (blockTransactions ++ [some pt.transaction]) (shortIds.drop gap) txsMap

end Relayer

/-- `Relayer::reconstruct_block`, with the transactions of the proposed pool
in its order. -/
def Relayer.reconstructBlock (proposed : List Transaction) (compactBlock : CompactBlock)
    (transactions : List Transaction) : Except ReconstructError Core.Block := do
  let (key0, key1) := sip.keys compactBlock.header.seal_.nonce compactBlock.nonce
  let (shortIdsSet, txsMap) :=
    Relayer.matchTransactions hashers sip key0 key1 transactions compactBlock.shortIds.dedup []
  let (_, txsMap) :=
    if shortIdsSet.isEmpty then
      Relayer.matchProposed hashers sip key0 key1 proposed shortIdsSet txsMap
    else (shortIdsSet, txsMap)
  let (blockTransactions, shortIds, txsMap) ←
    Relayer.fillGaps compactBlock.prefilledTransactions [] compactBlock.shortIds txsMap
  let (blockTransactions, _) := Relayer.pushShortIds shortIds blockTransactions txsMap
  if blockTransactions.any Option.isNone then
    throw (.missing (blockTransactions.zipIdx.filterMap fun entry =>
      if entry.1.isNone then some entry.2 else none))
  pure (BlockBuilder.build hashers compactBlock.header.raw compactBlock.header.seal_
    compactBlock.uncles (blockTransactions.filterMap id) compactBlock.proposals)

namespace Relayer

section Lemmas

variable {hashers : Hashers} {sip : ShortIdHashers} {key0 key1 : UInt64}

theorem matchProposed_empty (pool : List Transaction)
    (txsMap : List (ShortTransactionID × Transaction)) :
    matchProposed hashers sip key0 key1 pool [] txsMap = ([], txsMap) := by
  induction pool with
  | nil => rfl
  | cons tx rest induction =>
      simp only [matchProposed, List.not_mem_nil, if_false]
      exact induction

/-- A short id that no supplied transaction has stays in the set and out of
the map. -/
theorem matchTransactions_unmatched {shortId : ShortTransactionID} :
    ∀ (transactions : List Transaction) (shortIdsSet : List ShortTransactionID)
      (txsMap : List (ShortTransactionID × Transaction)),
      shortId ∈ shortIdsSet → LinkedMap.get? txsMap shortId = none →
      (∀ tx ∈ transactions, shortTransactionId sip key0 key1 (tx.witnessHash hashers) ≠ shortId) →
      shortId ∈ (matchTransactions hashers sip key0 key1 transactions shortIdsSet txsMap).1 ∧
        LinkedMap.get? (matchTransactions hashers sip key0 key1 transactions shortIdsSet txsMap).2
          shortId = none := by
  intro transactions
  induction transactions with
  | nil =>
      intro shortIdsSet txsMap listed absent _
      exact ⟨listed, absent⟩
  | cons tx rest induction =>
      intro shortIdsSet txsMap listed absent unsupplied
      have differs := unsupplied tx List.mem_cons_self
      have later := fun other member => unsupplied other (List.mem_cons_of_mem tx member)
      simp only [matchTransactions]
      split
      · -- the transaction's own short id leaves the set and enters the map
        apply induction _ _ ((List.mem_erase_of_ne (Ne.symm differs)).mpr listed) _ later
        rw [LinkedMap.get?_insert_of_ne (Ne.symm differs)]
        exact absent
      · exact induction _ _ listed absent later

/-- Pushing short ids keeps a short id the map lacks out of it, and pushes
nothing for it if it is among them. -/
theorem pushShortIds_unmatched {shortId : ShortTransactionID} :
    ∀ (shortIds : List ShortTransactionID) (blockTransactions : List (Option Transaction))
      (txsMap : List (ShortTransactionID × Transaction)),
      LinkedMap.get? txsMap shortId = none →
      (shortId ∈ shortIds ∨ none ∈ blockTransactions) →
      none ∈ (pushShortIds shortIds blockTransactions txsMap).1 := by
  intro shortIds
  induction shortIds with
  | nil =>
      intro blockTransactions txsMap _ found
      rcases found with listed | pushed
      · cases listed
      · exact pushed
  | cons first rest induction =>
      intro blockTransactions txsMap absent found
      simp only [pushShortIds]
      apply induction _ _ (LinkedMap.get?_remove_of_none absent)
      · by_cases atFirst : first = shortId
        · -- the lookup of the missing short id pushes nothing
          right
          subst atFirst
          have lookedUp : (LinkedMap.remove txsMap first).2 = none := absent
          rw [lookedUp]
          exact List.mem_append_right _ (List.mem_singleton_self _)
        · rcases found with listed | pushed
          · left
            exact (List.mem_cons.mp listed).resolve_left (Ne.symm atFirst)
          · right
            exact List.mem_append_left _ pushed

theorem pushShortIds_absent {shortId : ShortTransactionID} :
    ∀ (shortIds : List ShortTransactionID) (blockTransactions : List (Option Transaction))
      (txsMap : List (ShortTransactionID × Transaction)),
      LinkedMap.get? txsMap shortId = none →
      LinkedMap.get? (pushShortIds shortIds blockTransactions txsMap).2 shortId = none := by
  intro shortIds
  induction shortIds with
  | nil => exact fun _ _ absent => absent
  | cons first rest induction =>
      intro blockTransactions txsMap absent
      exact induction _ _ (LinkedMap.get?_remove_of_none absent)

/-- Filling the gaps keeps a short id the map lacks out of it, and either
pushes nothing for it or leaves it among the short ids still to push. -/
theorem fillGaps_unmatched {shortId : ShortTransactionID} :
    ∀ (prefilled : List IndexTransaction) (blockTransactions : List (Option Transaction))
      (shortIds : List ShortTransactionID) (txsMap : List (ShortTransactionID × Transaction))
      {result : List (Option Transaction) × List ShortTransactionID ×
        List (ShortTransactionID × Transaction)},
      fillGaps prefilled blockTransactions shortIds txsMap = .ok result →
      LinkedMap.get? txsMap shortId = none →
      (shortId ∈ shortIds ∨ none ∈ blockTransactions) →
      (shortId ∈ result.2.1 ∨ none ∈ result.1) ∧ LinkedMap.get? result.2.2 shortId = none := by
  intro prefilled
  induction prefilled with
  | nil =>
      intro blockTransactions shortIds txsMap result filled absent found
      simp only [fillGaps, Except.pure_eq_ok] at filled
      subst filled
      exact ⟨found, absent⟩
  | cons pt rest induction =>
      intro blockTransactions shortIds txsMap result filled absent found
      simp only [fillGaps] at filled
      by_cases underflow : pt.index < blockTransactions.length
      · rw [if_pos underflow] at filled
        cases filled
      rw [if_neg underflow] at filled
      generalize pt.index - blockTransactions.length = gap at filled
      -- a gap of no short ids pushes none, as the source's test for it says
      have pushing : (if gap > 0 then pushShortIds (shortIds.take gap) blockTransactions txsMap
          else (blockTransactions, txsMap)) =
            pushShortIds (shortIds.take gap) blockTransactions txsMap := by
        split
        next => rfl
        next empty =>
          rw [Nat.eq_zero_of_not_pos empty, List.take_zero]
          rfl
      rw [pushing] at filled
      apply induction _ _ _ filled (pushShortIds_absent _ _ _ absent)
      by_cases inGap : shortId ∈ shortIds.take gap
      · right
        exact List.mem_append_left _ (pushShortIds_unmatched _ _ _ absent (.inl inGap))
      · rcases found with listed | pushed
        · left
          rw [← List.take_append_drop gap shortIds] at listed
          exact (List.mem_append.mp listed).resolve_left inGap
        · right
          exact List.mem_append_left _ (pushShortIds_unmatched _ _ _ absent (.inr pushed))

theorem matchProposed_when_empty (pool : List Transaction) (shortIdsSet : List ShortTransactionID)
    (txsMap : List (ShortTransactionID × Transaction)) :
    (if shortIdsSet.isEmpty then matchProposed hashers sip key0 key1 pool shortIdsSet txsMap
      else (shortIdsSet, txsMap)) = (shortIdsSet, txsMap) := by
  split
  next empty =>
    rw [List.isEmpty_iff.mp empty, matchProposed_empty]
  next => rfl

theorem reconstructBlock_ignores_proposed (proposed : List Transaction)
    (compactBlock : CompactBlock) (transactions : List Transaction) :
    reconstructBlock hashers sip proposed compactBlock transactions =
      reconstructBlock hashers sip [] compactBlock transactions := by
  simp only [reconstructBlock, matchProposed_when_empty]

/-- A short id that none of the supplied transactions has leaves
`reconstruct_block` without a block, whatever the proposed pool holds. -/
theorem reconstructBlock_unmatched_not_ok {proposed transactions : List Transaction}
    {compactBlock : CompactBlock} {shortId : ShortTransactionID}
    (listed : shortId ∈ compactBlock.shortIds)
    (unsupplied : ∀ tx ∈ transactions, compactBlock.shortIdOf hashers sip tx ≠ shortId)
    (block : Core.Block) :
    reconstructBlock hashers sip proposed compactBlock transactions ≠ .ok block := by
  unfold CompactBlock.shortIdOf at unsupplied
  simp only [reconstructBlock, matchProposed_when_empty]
  rcases keyed : sip.keys compactBlock.header.seal_.nonce compactBlock.nonce with ⟨key0, key1⟩
  rw [keyed] at unsupplied
  simp only [keyed]
  obtain ⟨-, absent⟩ := matchTransactions_unmatched transactions compactBlock.shortIds.dedup []
    (List.mem_dedup.mpr listed) rfl unsupplied
  intro reconstructed
  rw [Except.bind_eq_ok] at reconstructed
  obtain ⟨filled, fillOk, rest⟩ := reconstructed
  obtain ⟨pending, stillAbsent⟩ := fillGaps_unmatched _ _ _ _ fillOk absent (.inl listed)
  have missing := pushShortIds_unmatched _ _ _ stillAbsent pending
  have anyMissing : (pushShortIds filled.2.1 filled.1 filled.2.2).1.any Option.isNone = true :=
    List.any_eq_true.mpr ⟨none, missing, rfl⟩
  rw [if_pos anyMissing] at rest
  cases rest

end Lemmas

end Relayer

section Samples

/-- Witness hashes that are the transactions' own hashes, and a SipHash that
sums the bytes it reads, so that distinct small hashes get distinct short
ids. -/
def relayHashers : Hashers :=
  ⟨fun _ _ _ _ => ⟨0⟩, fun tx => tx.hash, fun _ _ => ⟨0⟩, fun _ => ⟨0⟩, fun _ => ⟨0⟩,
    fun _ => ⟨0⟩, fun _ => ⟨0⟩⟩

def summingSip : ShortIdHashers :=
  ⟨fun _ _ => (0, 0), fun _ _ bytes => UInt64.ofNat (bytes.map UInt8.toNat).sum⟩

def relayedCellbase : Transaction :=
  ⟨0, [], [⟨OutPoint.null, 1⟩], [⟨⟨100⟩, [], ⟨[], ⟨0⟩⟩, none⟩], [[]], ⟨1⟩⟩

/-- A transaction of the proposed pool, which the block commits. -/
def proposedTransaction : Transaction :=
  ⟨0, [], [⟨⟨none, some ⟨⟨5⟩, 0⟩⟩, 0⟩], [⟨⟨100⟩, [], ⟨[], ⟨0⟩⟩, none⟩], [], ⟨2⟩⟩

def relayedBlock : Core.Block :=
  BlockBuilder.build relayHashers ⟨0, ⟨0⟩, 0, 1, ⟨0⟩, ⟨0⟩, ⟨0⟩, 0, ⟨0⟩, 0, 0⟩ ⟨0, []⟩ []
    [relayedCellbase, proposedTransaction] []

/-- The block relayed with only its cellbase prefilled. -/
def relayedCompactBlock : CompactBlock :=
  CompactBlock.build relayHashers summingSip relayedBlock [] 0

/-- The compact block passes the verifier and the pool holds its one
transaction that is not prefilled, yet `reconstruct_block` with no supplied
transactions, as `CompactBlockProcess` calls it, does not rebuild the
block. -/
theorem proposedTransaction_not_reconstructed :
    CompactBlockVerifier.verify relayHashers summingSip relayedCompactBlock = .ok () ∧
      relayedCompactBlock.shortIds =
        [relayedCompactBlock.shortIdOf relayHashers summingSip proposedTransaction] ∧
      ∀ block, Relayer.reconstructBlock relayHashers summingSip [proposedTransaction]
        relayedCompactBlock [] ≠ .ok block := by
  have listed : relayedCompactBlock.shortIdOf relayHashers summingSip proposedTransaction ∈
      relayedCompactBlock.shortIds := by
    decide
  exact ⟨by decide, by decide, Relayer.reconstructBlock_unmatched_not_ok listed nofun⟩

end Samples

end Ckb
