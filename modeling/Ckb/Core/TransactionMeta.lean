import Ckb.Core.Types

/-!
# Transaction metas

A model of `core/src/transaction_meta.rs`: what the cell set records of a
transaction, with one dead bit for each output.  The bit vector is a list of
booleans; `set_dead` and `unset_dead` ignore an index past its end, and
`is_dead` answers `None` there.
-/

namespace Ckb

structure TransactionMeta where
  blockNumber : Nat
  epochNumber : Nat
  cellbase : Bool
  deadCell : List Bool
  deriving DecidableEq, Repr

namespace TransactionMeta

def new (blockNumber epochNumber outputsCount : Nat) (allDead : Bool) : TransactionMeta :=
  ⟨blockNumber, epochNumber, false, List.replicate outputsCount allDead⟩

def newCellbase (blockNumber epochNumber outputsCount : Nat) (allDead : Bool) :
    TransactionMeta :=
  { new blockNumber epochNumber outputsCount allDead with cellbase := true }

def isCellbase (txMeta : TransactionMeta) : Bool :=
  txMeta.cellbase

def len (txMeta : TransactionMeta) : Nat :=
  txMeta.deadCell.length

def isDead (txMeta : TransactionMeta) (index : Nat) : Option Bool :=
  txMeta.deadCell[index]?

def allDead (txMeta : TransactionMeta) : Bool :=
  txMeta.deadCell.all id

def setDead (txMeta : TransactionMeta) (index : Nat) : TransactionMeta :=
  if index < txMeta.len then { txMeta with deadCell := txMeta.deadCell.set index true }
  else txMeta

def unsetDead (txMeta : TransactionMeta) (index : Nat) : TransactionMeta :=
  if index < txMeta.len then { txMeta with deadCell := txMeta.deadCell.set index false }
  else txMeta

/-- The meta `new` or `new_cellbase` builds, as the cell set chooses between
them by the cellbase flag. -/
def ofOutputs (blockNumber epochNumber : Nat) (cellbase : Bool) (outputsCount : Nat)
    (allDead : Bool) : TransactionMeta :=
  if cellbase then newCellbase blockNumber epochNumber outputsCount allDead
  else new blockNumber epochNumber outputsCount allDead

private theorem set_length (txMeta : TransactionMeta) (index : Nat) (bit : Bool) :
    (txMeta.deadCell.set index bit).length = txMeta.len := by
  simp [len]

theorem allDead_setDead {txMeta : TransactionMeta} (dead : txMeta.allDead = true)
    (index : Nat) :
    (txMeta.setDead index).allDead = true := by
  unfold setDead
  split
  · simp only [allDead, List.all_eq_true, id_eq] at dead ⊢
    intro bit member
    rcases List.mem_or_eq_of_mem_set member with old | rfl
    · exact dead bit old
    · rfl
  · exact dead

theorem isDead_of_allDead {txMeta : TransactionMeta} (dead : txMeta.allDead = true)
    (index : Nat) :
    txMeta.isDead index ≠ some false := by
  intro live
  simp only [allDead, List.all_eq_true, id_eq] at dead
  have member : false ∈ txMeta.deadCell := List.mem_of_getElem? live
  exact Bool.false_ne_true (dead false member)

end TransactionMeta

end Ckb
