import Mathlib.Data.List.AList
import Ckb.Core.Block
import Ckb.Core.TransactionMeta

/-!
# The cell set

A model of `shared/src/cell_set.rs`: the in-memory set of transactions with
live outputs, the diff that a chain switch builds from the blocks it detaches
and attaches, and the overlay through which fork blocks are verified before
the diff is applied.

A hash map keyed by transaction hash is a function to `Option`; the hash sets
of the diff are lists kept free of duplicates by `List.insert`, and its map
of new outputs is an `AList`.  The iteration order of a hash set or map is
unspecified in the source; the model iterates in list order.
-/

namespace Ckb

/-- The value `push_new` records for each attached transaction:
`(number, epoch, cellbase, outputs_len)`. -/
structure NewOutputs where
  number : Nat
  epoch : Nat
  cellbase : Bool
  outputsLen : Nat
  deriving DecidableEq, Repr

structure CellSetDiff where
  oldInputs : List OutPoint
  oldOutputs : List H256
  newInputs : List OutPoint
  newOutputs : AList fun _ : H256 => NewOutputs

namespace CellSetDiff

def empty : CellSetDiff :=
  ⟨[], [], [], ∅⟩

/-- `extend` of a hash set by a sequence of out-points. -/
def extendSet (set : List OutPoint) (outPoints : List OutPoint) : List OutPoint :=
  outPoints.foldl (fun set outPoint => set.insert outPoint) set

def pushNew (diff : CellSetDiff) (block : Block) : CellSetDiff :=
  block.transactions.foldl
    (fun diff tx =>
      { diff with
        newInputs := extendSet diff.newInputs tx.inputPts
        newOutputs := diff.newOutputs.insert tx.hash
          ⟨block.header.number, block.header.epoch, tx.isCellbase, tx.outputs.length⟩ })
    diff

def pushOld (diff : CellSetDiff) (block : Block) : CellSetDiff :=
  block.transactions.foldl
    (fun diff tx =>
      { diff with
        oldInputs := extendSet diff.oldInputs tx.inputPts
        oldOutputs := diff.oldOutputs.insert tx.hash })
    diff

end CellSetDiff

structure CellSet where
  inner : H256 → Option TransactionMeta

inductive CellSetOpr where
  | delete
  | update (txMeta : TransactionMeta)
  deriving DecidableEq, Repr

namespace CellSet

def new : CellSet :=
  ⟨fun _ => none⟩

def get (cellSet : CellSet) (hash : H256) : Option TransactionMeta :=
  cellSet.inner hash

def put (cellSet : CellSet) (txHash : H256) (txMeta : TransactionMeta) : CellSet :=
  ⟨Function.update cellSet.inner txHash (some txMeta)⟩

/-- `insert_cell`: a transaction brought back from the store with all its
outputs dead but the one named. -/
def insertCell (cellSet : CellSet) (cell : CellOutPoint) (number epoch : Nat) (cellbase : Bool)
    (outputsLen : Nat) : CellSet × TransactionMeta :=
  let txMeta := (TransactionMeta.ofOutputs number epoch cellbase outputsLen true).unsetDead cell.index
  (cellSet.put cell.txHash txMeta, txMeta)

def insertTransaction (cellSet : CellSet) (txHash : H256) (number epoch : Nat) (cellbase : Bool)
    (outputsLen : Nat) : CellSet × TransactionMeta :=
  let txMeta := TransactionMeta.ofOutputs number epoch cellbase outputsLen false
  (cellSet.put txHash txMeta, txMeta)

def remove (cellSet : CellSet) (txHash : H256) : CellSet × Option TransactionMeta :=
  (⟨Function.update cellSet.inner txHash none⟩, cellSet.inner txHash)

/-- `mark_dead`: the meta stays in the set even when its last output dies;
only the answer says `Delete`. -/
def markDead (cellSet : CellSet) (cell : CellOutPoint) : CellSet × Option CellSetOpr :=
  match cellSet.inner cell.txHash with
  | none => (cellSet, none)
  | some txMeta =>
    let txMeta := txMeta.setDead cell.index
    (cellSet.put cell.txHash txMeta, some (if txMeta.allDead then .delete else .update txMeta))

def tryMarkLive (cellSet : CellSet) (cell : CellOutPoint) : CellSet × Option TransactionMeta :=
  match cellSet.inner cell.txHash with
  | none => (cellSet, none)
  | some txMeta =>
    let txMeta := txMeta.unsetDead cell.index
    (cellSet.put cell.txHash txMeta, some txMeta)

@[simp] theorem inner_put (cellSet : CellSet) (txHash : H256) (txMeta : TransactionMeta) :
    (cellSet.put txHash txMeta).inner = Function.update cellSet.inner txHash (some txMeta) := rfl

theorem markDead_of_none {cellSet : CellSet} {cell : CellOutPoint}
    (absent : cellSet.inner cell.txHash = none) : cellSet.markDead cell = (cellSet, none) := by
  simp [markDead, absent]

theorem markDead_of_some {cellSet : CellSet} {cell : CellOutPoint} {txMeta : TransactionMeta}
    (present : cellSet.inner cell.txHash = some txMeta) :
    cellSet.markDead cell =
      (cellSet.put cell.txHash (txMeta.setDead cell.index),
        some (if (txMeta.setDead cell.index).allDead then .delete
          else .update (txMeta.setDead cell.index))) := by
  simp [markDead, present]

theorem tryMarkLive_eq {cellSet cellSet' : CellSet} {cell : CellOutPoint}
    {answer : Option TransactionMeta} (marked : cellSet.tryMarkLive cell = (cellSet', answer)) :
    (answer = none ∧ cellSet' = cellSet) ∨
      ∃ txMeta, answer = some txMeta ∧ cellSet' = cellSet.put cell.txHash txMeta := by
  unfold tryMarkLive at marked
  cases present : cellSet.inner cell.txHash with
  | none =>
      simp only [present, Prod.mk.injEq] at marked
      exact .inl ⟨marked.2.symm, marked.1.symm⟩
  | some txMeta =>
      simp only [present, Prod.mk.injEq] at marked
      exact .inr ⟨_, marked.2.symm, marked.1.symm⟩

end CellSet

structure CellSetOverlay where
  origin : H256 → Option TransactionMeta
  new : H256 → Option TransactionMeta
  removed : List H256

def CellSetOverlay.get (overlay : CellSetOverlay) (hash : H256) : Option TransactionMeta :=
  if hash ∈ overlay.removed then none else (overlay.new hash).or (overlay.origin hash)

/-- The two input loops of `new_overlay`: for an input whose transaction is in
`origin`, the overlay's entry (a copy of the origin's meta when it has none
yet) is changed at the input's index.  Inputs of transactions not in
`origin` are skipped. -/
def overlayInputs (origin : H256 → Option TransactionMeta)
    (change : TransactionMeta → Nat → TransactionMeta) (new : H256 → Option TransactionMeta)
    (inputs : List OutPoint) : H256 → Option TransactionMeta :=
  inputs.foldl
    (fun new input =>
      match input.cell with
      | none => new
      | some cell =>
        match origin cell.txHash with
        | none => new
        | some txMeta =>
          Function.update new cell.txHash (some (change ((new cell.txHash).getD txMeta) cell.index)))
    new

/-- The overlay entries of the attached transactions, and the removed set
with their hashes taken out. -/
def overlayOutputs (entries : List (Σ _ : H256, NewOutputs))
    (start : (H256 → Option TransactionMeta) × List H256) :
    (H256 → Option TransactionMeta) × List H256 :=
  entries.foldl
    (fun (new, removed) entry =>
      (Function.update new entry.1 (some (TransactionMeta.ofOutputs entry.2.number entry.2.epoch
        entry.2.cellbase entry.2.outputsLen false)), removed.erase entry.1))
    start

def CellSet.newOverlay (cellSet : CellSet) (diff : CellSetDiff) : CellSetOverlay :=
  let removed := diff.oldOutputs.foldl
    (fun removed hash => if (cellSet.inner hash).isSome then removed.insert hash else removed) []
  let (new, removed) := overlayOutputs diff.newOutputs.entries (fun _ => none, removed)
  let new := overlayInputs cellSet.inner TransactionMeta.unsetDead new diff.oldInputs
  let new := overlayInputs cellSet.inner TransactionMeta.setDead new diff.newInputs
  ⟨cellSet.inner, new, removed⟩

end Ckb
