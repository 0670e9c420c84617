import Ckb.Store.ChainStore

/-!
# The proposal table of the chain state

A model of `shared/src/tx_proposal_table.rs` and of the two ways the chain
state keeps its table: rebuilt from the number index by
`ChainState::init_proposal_ids`, or kept by `insert_proposal_ids` and
`remove_proposal_ids` for the blocks a chain switch attaches and detaches,
then `proposal_ids_finalize` at the new tip.

The `BTreeMap` from heights to proposal ids is a list of entries with one
entry per height; only which heights it holds is read, never their order.
A hash set of ids is a list read through `contains`.  `finalize` keeps the
heights from `proposal_start` on, and splits them at `proposal_end` into the
ids a block at the next height can commit and the ids still in the gap.
-/

namespace Ckb

structure TxProposalTable where
  table : List (Nat × List ProposalShortId)
  gap : List ProposalShortId
  set : List ProposalShortId
  proposalWindow : ProposalWindow

namespace TxProposalTable

def new (proposalWindow : ProposalWindow) : TxProposalTable :=
  ⟨[], [], [], proposalWindow⟩

/-- `insert`: the ids of a height replace those it had; `true` when it had
none. -/
def insert (self : TxProposalTable) (number : Nat) (ids : List ProposalShortId) :
    TxProposalTable × Bool :=
  ({ self with table := self.table.filter (·.1 != number) ++ [(number, ids)] },
    !self.table.any (·.1 == number))

def remove (self : TxProposalTable) (number : Nat) :
    TxProposalTable × Option (List ProposalShortId) :=
  ({ self with table := self.table.filter (·.1 != number) },
    (self.table.find? (·.1 == number)).map Prod.snd)

def contains (self : TxProposalTable) (id : ProposalShortId) : Bool :=
  self.set.contains id

def containsGap (self : TxProposalTable) (id : ProposalShortId) : Bool :=
  self.gap.contains id

/-- `finalize`: the table after `finalize(number)` and the ids that left the
set.  Heights below `proposal_start` are dropped for good. -/
def finalize (self : TxProposalTable) (number : Nat) :
    TxProposalTable × List ProposalShortId :=
  let proposalStart := number - self.proposalWindow.farthest + 1
  let proposalEnd := number - self.proposalWindow.closest + 1
  let table := self.table.filter fun entry => proposalStart ≤ entry.1
  let newIds := (table.filter fun entry => entry.1 ≤ proposalEnd).flatMap Prod.snd
  let gap := (table.filter fun entry => proposalEnd < entry.1).flatMap Prod.snd
  let removedIds := self.set.filter fun id => !newIds.contains id
  (⟨table, gap, newIds, self.proposalWindow⟩, removedIds)

section Lemmas

variable {self : TxProposalTable}

theorem mem_insert_table {number : Nat} {ids : List ProposalShortId}
    {entry : Nat × List ProposalShortId} :
    entry ∈ (self.insert number ids).1.table ↔
      (entry ∈ self.table ∧ entry.1 ≠ number) ∨ entry = (number, ids) := by
  simp [insert, List.mem_filter]

@[simp] theorem insert_proposalWindow (number : Nat) (ids : List ProposalShortId) :
    (self.insert number ids).1.proposalWindow = self.proposalWindow := rfl

theorem finalize_contains_iff {number : Nat} {id : ProposalShortId} :
    (self.finalize number).1.contains id = true ↔
      ∃ entry ∈ self.table, number - self.proposalWindow.farthest + 1 ≤ entry.1 ∧
        entry.1 ≤ number - self.proposalWindow.closest + 1 ∧ id ∈ entry.2 := by
  simp only [finalize, contains, List.contains_iff_mem, List.mem_flatMap, List.mem_filter,
    decide_eq_true_eq, and_assoc]

end Lemmas

end TxProposalTable

namespace ChainState

/-- One turn of the loop of `init_proposal_ids`: the proposals of the
main-chain block at `bn`, with its uncles' proposals, if the index has one. -/
def loadHeight (store : ChainStore) (proposalIds : TxProposalTable) (bn : Nat) :
    TxProposalTable :=
  match store.blockHash bn with
  | some hash => (proposalIds.insert bn (store.getProposalIdsByHash hash)).1
  | none => proposalIds

/-- `ChainState::init_proposal_ids`: the proposals of the main-chain blocks
from `tip_number - farthest` to the tip, then `finalize(tip_number)`. -/
def initProposalIds (store : ChainStore) (proposalWindow : ProposalWindow)
    (tipNumber : Nat) : TxProposalTable :=
  let proposalStart := tipNumber - proposalWindow.farthest
  let table := (List.range' proposalStart (tipNumber + 1 - proposalStart)).foldl
    (loadHeight store) (TxProposalTable.new proposalWindow)
  (table.finalize tipNumber).1

def insertProposalIds (proposalIds : TxProposalTable) (block : Block) : TxProposalTable :=
  (proposalIds.insert block.header.number block.unionProposalIds).1

def removeProposalIds (proposalIds : TxProposalTable) (block : Block) : TxProposalTable :=
  (proposalIds.remove block.header.number).1

/-- `update_proposal_ids` of the chain service for one switch, then
`proposal_ids_finalize` at the new tip: the table and the ids that left the
set. -/
def updateProposalIds (proposalIds : TxProposalTable) (detachedBlocks attachedBlocks : List Block)
    (tipNumber : Nat) : TxProposalTable × List ProposalShortId :=
  let proposalIds := detachedBlocks.foldl removeProposalIds proposalIds
  let proposalIds := attachedBlocks.foldl insertProposalIds proposalIds
  proposalIds.finalize tipNumber

section Lemmas

variable {store : ChainStore}

theorem foldl_loadHeight_keeps {heights : List Nat} {proposalIds : TxProposalTable}
    {entry : Nat × List ProposalShortId} (kept : entry ∈ proposalIds.table)
    (unvisited : entry.1 ∉ heights) :
    entry ∈ (heights.foldl (loadHeight store) proposalIds).table := by
  induction heights generalizing proposalIds with
  | nil => exact kept
  | cons bn heights induction =>
      rw [List.mem_cons, not_or] at unvisited
      apply induction _ unvisited.2
      unfold loadHeight
      split
      · exact TxProposalTable.mem_insert_table.mpr (.inl ⟨kept, unvisited.1⟩)
      · exact kept

theorem foldl_loadHeight_mem {heights : List Nat} (distinct : heights.Nodup)
    {proposalIds : TxProposalTable} {bn : Nat} {hash : H256} (member : bn ∈ heights)
    (indexed : store.blockHash bn = some hash) :
    (bn, store.getProposalIdsByHash hash) ∈ (heights.foldl (loadHeight store) proposalIds).table := by
  induction heights generalizing proposalIds with
  | nil => cases member
  | cons first heights induction =>
      rw [List.nodup_cons] at distinct
      rcases List.mem_cons.mp member with rfl | later
      · -- the height is loaded here and no later turn visits it again
        have loaded : (bn, store.getProposalIdsByHash hash) ∈
            (loadHeight store proposalIds bn).table := by
          rw [loadHeight, indexed]
          exact TxProposalTable.mem_insert_table.mpr (.inr rfl)
        rw [List.foldl_cons]
        exact foldl_loadHeight_keeps loaded distinct.1
      · exact induction distinct.2 later

theorem foldl_loadHeight_proposalWindow (heights : List Nat)
    (proposalIds : TxProposalTable) :
    (heights.foldl (loadHeight store) proposalIds).proposalWindow =
      proposalIds.proposalWindow := by
  induction heights generalizing proposalIds with
  | nil => rfl
  | cons bn heights induction =>
      rw [List.foldl_cons, induction]
      unfold loadHeight
      split <;> rfl

/-- The table `init_proposal_ids` builds holds the proposals of every height
of the index from `tip_number - farthest` to the tip, before `finalize`. -/
theorem initProposalIds_contains_iff {proposalWindow : ProposalWindow} {tipNumber : Nat}
    {id : ProposalShortId} :
    (initProposalIds store proposalWindow tipNumber).contains id = true ↔
      ∃ entry ∈ ((List.range' (tipNumber - proposalWindow.farthest)
          (tipNumber + 1 - (tipNumber - proposalWindow.farthest))).foldl (loadHeight store)
          (TxProposalTable.new proposalWindow)).table,
        tipNumber - proposalWindow.farthest + 1 ≤ entry.1 ∧
          entry.1 ≤ tipNumber - proposalWindow.closest + 1 ∧ id ∈ entry.2 := by
  rw [initProposalIds, TxProposalTable.finalize_contains_iff, foldl_loadHeight_proposalWindow]
  rfl

theorem initProposalIds_contains_first {proposalWindow : ProposalWindow} {tipNumber : Nat}
    {hash : H256} {id : ProposalShortId} (started : 1 ≤ tipNumber)
    (beforeWindow : tipNumber < proposalWindow.closest) (indexed : store.blockHash 1 = some hash)
    (proposed : id ∈ store.getProposalIdsByHash hash) :
    (initProposalIds store proposalWindow tipNumber).contains id = true := by
  have closeBelow := proposalWindow.ordered
  have startZero : tipNumber - proposalWindow.farthest = 0 := by omega
  have endOne : tipNumber - proposalWindow.closest + 1 = 1 := by omega
  have visited : 1 ∈ List.range' (tipNumber - proposalWindow.farthest)
      (tipNumber + 1 - (tipNumber - proposalWindow.farthest)) := by
    rw [List.mem_range'_1]
    omega
  rw [initProposalIds_contains_iff]
  refine ⟨_, foldl_loadHeight_mem List.nodup_range' visited indexed, ?_, ?_, proposed⟩
  · rw [startZero]
  · rw [endOne]

end Lemmas

end ChainState

end Ckb
