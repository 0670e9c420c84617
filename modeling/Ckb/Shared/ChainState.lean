import Ckb.Lib.KeyValue
import Ckb.Core.Cell
import Ckb.Shared.CellSet

/-!
# The chain state's cell set and its store

A model of `ChainState::update_tip`, `ChainState::init_cell_set` and the
chain state's cell provider (`shared/src/chain_state.rs`).

`update_tip` applies a `CellSetDiff` to the in-memory cell set in four
loops (revive the old inputs, remove the old outputs, insert the new outputs,
mark the new inputs dead) and writes what each loop changed to one store
batch.  The store is the parts of it these functions read, with the cell-set
column as a key-value column; `init_cell_set` reads that column back on a
restart.  A panic is an error carrying the source's message.
-/

namespace Ckb

/-- The store as the modelled functions see it. -/
structure Store where
  getTransaction : H256 → Option (Transaction × H256)
  getBlock : H256 → Option Block
  getCellMeta : H256 → Nat → Option CellMeta
  cellSet : H256 → Option TransactionMeta

abbrev BatchOp := KeyValue.Write H256 TransactionMeta

def Store.commit (store : Store) (batch : List BatchOp) : Store :=
  { store with cellSet := KeyValue.commit store.cellSet batch }

def initCellSet (store : Store) : CellSet :=
  ⟨store.cellSet⟩

structure ChainState where
  store : Store
  tipHeader : Header
  totalDifficulty : Nat
  cellSet : CellSet

/-- One old input of `update_tip`: its transaction is marked live again at
the input's index, or, once it has left the cell set, read back from the
store with every other output dead. -/
def reviveCell (store : Store) (cellSet : CellSet) (cell : CellOutPoint) :
    Except String (CellSet × TransactionMeta) :=
  match cellSet.tryMarkLive cell with
  | (cellSet, some txMeta) => .ok (cellSet, txMeta)
  | (cellSet, none) =>
    match store.getTransaction cell.txHash with
    | none => .error "we should have this transaction"
    | some (tx, blockHash) =>
      match store.getBlock blockHash with
      | none => .error "we should have this block"
      | some block =>
        match block.transactions.head? with
        | none => .error "index out of bounds: the len is 0 but the index is 0"
        | some first =>
          .ok (cellSet.insertCell cell block.header.number block.header.epoch
            (first.hash == tx.hash) tx.outputs.length)

def reviveOldInputs (store : Store) :
    CellSet → List OutPoint → Except String (CellSet × List (H256 × TransactionMeta))
  | cellSet, [] => .ok (cellSet, [])
  | cellSet, outPoint :: rest =>
    match outPoint.cell with
    | none => reviveOldInputs store cellSet rest
    | some cell =>
      match reviveCell store cellSet cell with
      | .error message => .error message
      | .ok (cellSet, txMeta) =>
        match reviveOldInputs store cellSet rest with
        | .error message => .error message
        | .ok (cellSet, updated) => .ok (cellSet, (cell.txHash, txMeta) :: updated)

def removeOldOutputs : CellSet → List H256 → CellSet × List H256
  | cellSet, [] => (cellSet, [])
  | cellSet, txHash :: rest =>
    let (cellSet, removed) := cellSet.remove txHash
    let (cellSet, later) := removeOldOutputs cellSet rest
    (cellSet, if removed.isSome then txHash :: later else later)

/-- The meta `insert_transaction` builds for an entry of `new_outputs`. -/
def entryMeta (entry : Σ _ : H256, NewOutputs) : TransactionMeta :=
  TransactionMeta.ofOutputs entry.2.number entry.2.epoch entry.2.cellbase entry.2.outputsLen false

def insertNewOutputs : CellSet → List (Σ _ : H256, NewOutputs) →
    CellSet × List (H256 × TransactionMeta)
  | cellSet, [] => (cellSet, [])
  | cellSet, entry :: rest =>
    let (cellSet, txMeta) := cellSet.insertTransaction entry.1 entry.2.number entry.2.epoch
      entry.2.cellbase entry.2.outputsLen
    let (cellSet, inserted) := insertNewOutputs cellSet rest
    (cellSet, (entry.1, txMeta) :: inserted)

/-- The new-input loop: the metas it updates, and the hashes whose meta it
reports all dead. -/
def markNewInputs : CellSet → List OutPoint →
    CellSet × List (H256 × TransactionMeta) × List H256
  | cellSet, [] => (cellSet, [], [])
  | cellSet, outPoint :: rest =>
    match outPoint.cell with
    | none => markNewInputs cellSet rest
    | some cell =>
      let (cellSet, opr) := cellSet.markDead cell
      let (cellSet, updated, removed) := markNewInputs cellSet rest
      match opr with
      | none => (cellSet, updated, removed)
      | some .delete => (cellSet, updated, cell.txHash :: removed)
      | some (.update txMeta) => (cellSet, (cell.txHash, txMeta) :: updated, removed)

/-- The batch of `update_tip`, in the order of its five write loops. -/
def updateTipBatch (updatedOldInputs : List (H256 × TransactionMeta))
    (removedOldOutputs : List H256) (insertedNewOutputs : List (H256 × TransactionMeta))
    (updatedNewInputs : List (H256 × TransactionMeta)) (removedNewInputs : List H256) :
    List BatchOp :=
  updatedOldInputs.map (fun entry => .put entry.1 entry.2) ++
    removedOldOutputs.map .delete ++
    insertedNewOutputs.map (fun entry => .put entry.1 entry.2) ++
    updatedNewInputs.map (fun entry => .put entry.1 entry.2) ++
    removedNewInputs.map .delete

def ChainState.updateTip (chainState : ChainState) (header : Header) (totalDifficulty : Nat)
    (txoDiff : CellSetDiff) : Except String ChainState :=
  match reviveOldInputs chainState.store chainState.cellSet txoDiff.oldInputs with
  | .error message => .error message
  | .ok (cellSet, updatedOldInputs) =>
    let (cellSet, removedOldOutputs) := removeOldOutputs cellSet txoDiff.oldOutputs
    let (cellSet, insertedNewOutputs) := insertNewOutputs cellSet txoDiff.newOutputs.entries
    let (cellSet, updatedNewInputs, removedNewInputs) := markNewInputs cellSet txoDiff.newInputs
    .ok { store := chainState.store.commit (updateTipBatch updatedOldInputs removedOldOutputs
            insertedNewOutputs updatedNewInputs removedNewInputs)
          tipHeader := header
          totalDifficulty := totalDifficulty
          cellSet := cellSet }

/-- The chain state's `CellProvider::cell`. -/
def ChainState.cell (chainState : ChainState) (outPoint : OutPoint) : Except String CellStatus :=
  match outPoint.cell with
  | none => .ok .unspecified
  | some cell =>
    match chainState.cellSet.get cell.txHash with
    | none => .ok .unknown
    | some txMeta =>
      match txMeta.isDead cell.index with
      | some false =>
        match chainState.store.getCellMeta cell.txHash cell.index with
        | some cellMeta => .ok (.live cellMeta)
        | none => .error "store should be consistent with cell_set"
      | some true => .ok .dead
      | none => .ok .unknown

/-- The chain state after a restart: its cell set is read back from the
store. -/
def ChainState.restart (chainState : ChainState) : ChainState :=
  { chainState with cellSet := initCellSet chainState.store }

/-! ## The store against the memory

`mark_dead` keeps a meta whose outputs are all dead in memory while the batch
deletes it from the store, so the two do not stay equal.  They differ in that
way only: the store holds what the memory holds, or nothing where the memory
holds an all-dead meta. -/

def CellSetAgrees (cellSet : CellSet) (column : H256 → Option TransactionMeta) : Prop :=
  ∀ txHash, column txHash = cellSet.inner txHash ∨
    (column txHash = none ∧ ∃ txMeta, cellSet.inner txHash = some txMeta ∧ txMeta.allDead = true)

section Agreement

variable {cellSet : CellSet} {column : H256 → Option TransactionMeta}

theorem CellSetAgrees.put (agrees : CellSetAgrees cellSet column) (txHash : H256)
    (txMeta : TransactionMeta) :
    CellSetAgrees (cellSet.put txHash txMeta) (Function.update column txHash (some txMeta)) := by
  intro other
  by_cases same : other = txHash
  · subst same
    simp
  · simpa [same] using agrees other

theorem CellSetAgrees.put_allDead (agrees : CellSetAgrees cellSet column) (txHash : H256)
    {txMeta : TransactionMeta} (dead : txMeta.allDead = true) :
    CellSetAgrees (cellSet.put txHash txMeta) (Function.update column txHash none) := by
  intro other
  by_cases same : other = txHash
  · subst same
    simp [dead]
  · simpa [same] using agrees other

theorem CellSetAgrees.remove (agrees : CellSetAgrees cellSet column) (txHash : H256) :
    CellSetAgrees (cellSet.remove txHash).1 (Function.update column txHash none) := by
  intro other
  by_cases same : other = txHash
  · subst same
    simp [CellSet.remove]
  · simpa [CellSet.remove, same] using agrees other

theorem CellSetAgrees.column_eq_none (agrees : CellSetAgrees cellSet column) {txHash : H256}
    (absent : cellSet.inner txHash = none) : column txHash = none := by
  rcases agrees txHash with same | ⟨missing, _⟩
  · rw [same, absent]
  · exact missing

end Agreement

section Loops

theorem reviveCell_ok {store : Store} {cellSet cellSet' : CellSet} {cell : CellOutPoint}
    {txMeta : TransactionMeta} (revived : reviveCell store cellSet cell = .ok (cellSet', txMeta)) :
    cellSet' = cellSet.put cell.txHash txMeta := by
  unfold reviveCell at revived
  cases marked : cellSet.tryMarkLive cell with
  | mk markedSet answer =>
      rw [marked] at revived
      rcases CellSet.tryMarkLive_eq marked with ⟨rfl, rfl⟩ | ⟨liveMeta, rfl, rfl⟩
      · -- the transaction had left the cell set: it is read back from the store
        cases transaction : store.getTransaction cell.txHash with
        | none => simp [transaction] at revived
        | some found =>
            obtain ⟨tx, blockHash⟩ := found
            cases blockFound : store.getBlock blockHash with
            | none => simp [transaction, blockFound] at revived
            | some block =>
                cases firstTx : block.transactions.head? with
                | none => simp [transaction, blockFound, firstTx] at revived
                | some first =>
                    simp only [transaction, blockFound, firstTx, CellSet.insertCell,
                      Except.ok.injEq, Prod.mk.injEq] at revived
                    obtain ⟨rfl, rfl⟩ := revived
                    rfl
      · simp only [Except.ok.injEq, Prod.mk.injEq] at revived
        obtain ⟨rfl, rfl⟩ := revived
        rfl

/-- One turn of the old-input loop. -/
theorem reviveOldInputs_cons {store : Store} {cellSet cellSet' : CellSet} {outPoint : OutPoint}
    {rest : List OutPoint} {updated : List (H256 × TransactionMeta)}
    (revived : reviveOldInputs store cellSet (outPoint :: rest) = .ok (cellSet', updated)) :
    (outPoint.cell = none ∧ reviveOldInputs store cellSet rest = .ok (cellSet', updated)) ∨
    ∃ cell txMeta tailUpdated, outPoint.cell = some cell ∧
      reviveOldInputs store (cellSet.put cell.txHash txMeta) rest = .ok (cellSet', tailUpdated) ∧
      updated = (cell.txHash, txMeta) :: tailUpdated := by
  rw [reviveOldInputs] at revived
  cases cellEq : outPoint.cell with
  | none =>
      simp only [cellEq] at revived
      exact .inl ⟨rfl, revived⟩
  | some cell =>
      simp only [cellEq] at revived
      cases first : reviveCell store cellSet cell with
      | error message => simp [first] at revived
      | ok result =>
          obtain ⟨middle, txMeta⟩ := result
          have middleEq := reviveCell_ok first
          subst middleEq
          cases later : reviveOldInputs store (cellSet.put cell.txHash txMeta) rest with
          | error message => simp [first, later] at revived
          | ok tailResult =>
              obtain ⟨final, tailUpdated⟩ := tailResult
              simp only [first, later, Except.ok.injEq, Prod.mk.injEq] at revived
              obtain ⟨rfl, rfl⟩ := revived
              exact .inr ⟨cell, txMeta, tailUpdated, rfl, later, rfl⟩

/-- One turn of the new-input loop: an input whose transaction is in the set
is marked dead there, and reported as an update or, once all outputs are
dead, as a deletion. -/
theorem markNewInputs_cons {cellSet cellSet' : CellSet} {outPoint : OutPoint}
    {rest : List OutPoint} {updated : List (H256 × TransactionMeta)} {removed : List H256}
    (marked : markNewInputs cellSet (outPoint :: rest) = (cellSet', updated, removed)) :
    (markNewInputs cellSet rest = (cellSet', updated, removed) ∧
      ∀ cell, outPoint.cell = some cell → cellSet.inner cell.txHash = none) ∨
    ∃ cell txMeta tailUpdated tailRemoved, outPoint.cell = some cell ∧
      cellSet.inner cell.txHash = some txMeta ∧
      markNewInputs (cellSet.put cell.txHash (txMeta.setDead cell.index)) rest =
        (cellSet', tailUpdated, tailRemoved) ∧
      ((txMeta.setDead cell.index).allDead = true ∧ updated = tailUpdated ∧
          removed = cell.txHash :: tailRemoved ∨
        (txMeta.setDead cell.index).allDead = false ∧
          updated = (cell.txHash, txMeta.setDead cell.index) :: tailUpdated ∧
          removed = tailRemoved) := by
  rw [markNewInputs] at marked
  cases cellEq : outPoint.cell with
  | none =>
      simp only [cellEq] at marked
      exact .inl ⟨marked, by simp⟩
  | some cell =>
      simp only [cellEq] at marked
      cases present : cellSet.inner cell.txHash with
      | none =>
          rw [CellSet.markDead_of_none present] at marked
          exact .inl ⟨marked, by simp [present]⟩
      | some txMeta =>
          rw [CellSet.markDead_of_some present] at marked
          cases tail : markNewInputs (cellSet.put cell.txHash (txMeta.setDead cell.index)) rest with
          | mk final tailLists =>
              obtain ⟨tailUpdated, tailRemoved⟩ := tailLists
              rw [tail] at marked
              cases dead : (txMeta.setDead cell.index).allDead
              · simp only [dead, Bool.false_eq_true, if_false, Prod.mk.injEq] at marked
                obtain ⟨rfl, rfl, rfl⟩ := marked
                exact .inr ⟨cell, txMeta, tailUpdated, tailRemoved, rfl, present, tail,
                  .inr ⟨dead, rfl, rfl⟩⟩
              · simp only [dead, if_true, Prod.mk.injEq] at marked
                obtain ⟨rfl, rfl, rfl⟩ := marked
                exact .inr ⟨cell, txMeta, tailUpdated, tailRemoved, rfl, present, tail,
                  .inl ⟨dead, rfl, rfl⟩⟩

theorem removeOldOutputs_cons (cellSet : CellSet) (txHash : H256) (rest : List H256) :
    removeOldOutputs cellSet (txHash :: rest) =
      ((removeOldOutputs (cellSet.remove txHash).1 rest).1,
        if (cellSet.inner txHash).isSome then
          txHash :: (removeOldOutputs (cellSet.remove txHash).1 rest).2
        else (removeOldOutputs (cellSet.remove txHash).1 rest).2) := rfl

theorem insertNewOutputs_cons (cellSet : CellSet) (entry : Σ _ : H256, NewOutputs)
    (rest : List (Σ _ : H256, NewOutputs)) :
    insertNewOutputs cellSet (entry :: rest) =
      ((insertNewOutputs (cellSet.put entry.1 (entryMeta entry)) rest).1,
        (entry.1, entryMeta entry) :: (insertNewOutputs (cellSet.put entry.1 (entryMeta entry)) rest).2) :=
  rfl

/-- The new-input loop only sets dead bits, so a meta that is all dead stays
in the set, all dead. -/
theorem markNewInputs_keeps_allDead {cellSet cellSet' : CellSet} {inputs : List OutPoint}
    {updated : List (H256 × TransactionMeta)} {removed : List H256} {txHash : H256}
    {txMeta : TransactionMeta}
    (marked : markNewInputs cellSet inputs = (cellSet', updated, removed))
    (present : cellSet.inner txHash = some txMeta) (dead : txMeta.allDead = true) :
    ∃ txMeta', cellSet'.inner txHash = some txMeta' ∧ txMeta'.allDead = true := by
  induction inputs generalizing cellSet txMeta updated removed with
  | nil =>
      simp only [markNewInputs, Prod.mk.injEq] at marked
      obtain ⟨rfl, -, -⟩ := marked
      exact ⟨txMeta, present, dead⟩
  | cons outPoint rest induction =>
      rcases markNewInputs_cons marked with ⟨tail, -⟩ |
        ⟨cell, marking, tailUpdated, tailRemoved, -, markingPresent, tail, -⟩
      · exact induction tail present dead
      · by_cases same : cell.txHash = txHash
        · -- the input is of this transaction: one more dead bit
          subst same
          rw [present, Option.some.injEq] at markingPresent
          subst markingPresent
          apply induction tail (by simp) (TransactionMeta.allDead_setDead dead cell.index)
        · have unchanged : (cellSet.put cell.txHash (marking.setDead cell.index)).inner txHash =
              some txMeta := by
            simp [Function.update_of_ne (Ne.symm same), present]
          exact induction tail unchanged dead

section Phases

theorem reviveOldInputs_agrees {store : Store} {cellSet cellSet' : CellSet}
    {column : H256 → Option TransactionMeta} {inputs : List OutPoint}
    {updated : List (H256 × TransactionMeta)}
    (revived : reviveOldInputs store cellSet inputs = .ok (cellSet', updated))
    (agrees : CellSetAgrees cellSet column) :
    CellSetAgrees cellSet'
      (KeyValue.commit column (updated.map fun entry => .put entry.1 entry.2)) := by
  induction inputs generalizing cellSet column updated with
  | nil =>
      simp only [reviveOldInputs, Except.ok.injEq, Prod.mk.injEq] at revived
      obtain ⟨rfl, rfl⟩ := revived
      exact agrees
  | cons outPoint rest induction =>
      rcases reviveOldInputs_cons revived with ⟨-, tail⟩ | ⟨cell, txMeta, tailUpdated, -, tail, rfl⟩
      · exact induction tail agrees
      · rw [List.map_cons, KeyValue.commit_cons, KeyValue.apply_put]
        exact induction tail (agrees.put cell.txHash txMeta)

theorem removeOldOutputs_agrees {cellSet cellSet' : CellSet}
    {column : H256 → Option TransactionMeta} {hashes removed : List H256}
    (removing : removeOldOutputs cellSet hashes = (cellSet', removed))
    (agrees : CellSetAgrees cellSet column) :
    CellSetAgrees cellSet' (KeyValue.commit column (removed.map .delete)) := by
  induction hashes generalizing cellSet column removed with
  | nil =>
      simp only [removeOldOutputs, Prod.mk.injEq] at removing
      obtain ⟨rfl, rfl⟩ := removing
      exact agrees
  | cons txHash rest induction =>
      rw [removeOldOutputs_cons] at removing
      generalize tailEq : removeOldOutputs (cellSet.remove txHash).1 rest = tail at removing
      obtain ⟨final, later⟩ := tail
      simp only [Prod.mk.injEq] at removing
      obtain ⟨rfl, rfl⟩ := removing
      have tailAgrees := induction tailEq (agrees.remove txHash)
      by_cases present : (cellSet.inner txHash).isSome
      · rw [if_pos present]
        exact tailAgrees
      · -- nothing was removed: the store had nothing under the hash either
        rw [if_neg present]
        have absent : cellSet.inner txHash = none := Option.not_isSome_iff_eq_none.mp present
        have unchanged : Function.update column txHash none = column :=
          Function.update_eq_self_iff.mpr (agrees.column_eq_none absent).symm
        rwa [unchanged] at tailAgrees

theorem insertNewOutputs_agrees {cellSet cellSet' : CellSet}
    {column : H256 → Option TransactionMeta} {entries : List (Σ _ : H256, NewOutputs)}
    {inserted : List (H256 × TransactionMeta)}
    (inserting : insertNewOutputs cellSet entries = (cellSet', inserted))
    (agrees : CellSetAgrees cellSet column) :
    CellSetAgrees cellSet'
      (KeyValue.commit column (inserted.map fun entry => .put entry.1 entry.2)) := by
  induction entries generalizing cellSet column inserted with
  | nil =>
      simp only [insertNewOutputs, Prod.mk.injEq] at inserting
      obtain ⟨rfl, rfl⟩ := inserting
      exact agrees
  | cons entry rest induction =>
      rw [insertNewOutputs_cons] at inserting
      generalize tailEq : insertNewOutputs (cellSet.put entry.1 (entryMeta entry)) rest = tail
        at inserting
      obtain ⟨final, later⟩ := tail
      simp only [Prod.mk.injEq] at inserting
      obtain ⟨rfl, rfl⟩ := inserting
      rw [List.map_cons, KeyValue.commit_cons, KeyValue.apply_put]
      exact induction tailEq (agrees.put _ _)

/-- The new-input loop with its two write loops: the updates are written
first and the deletions after them, while the memory interleaves them; a
deletion is of a meta that stays all dead, so the order does not matter. -/
theorem markNewInputs_agrees {cellSet cellSet' : CellSet}
    {column : H256 → Option TransactionMeta} {inputs : List OutPoint}
    {updated : List (H256 × TransactionMeta)} {removed : List H256}
    (marked : markNewInputs cellSet inputs = (cellSet', updated, removed))
    (agrees : CellSetAgrees cellSet column) :
    CellSetAgrees cellSet'
      (KeyValue.commit (KeyValue.commit column (updated.map fun entry => .put entry.1 entry.2))
        (removed.map .delete)) := by
  induction inputs generalizing cellSet column updated removed with
  | nil =>
      simp only [markNewInputs, Prod.mk.injEq] at marked
      obtain ⟨rfl, rfl, rfl⟩ := marked
      exact agrees
  | cons outPoint rest induction =>
      rcases markNewInputs_cons marked with ⟨tail, -⟩ |
        ⟨cell, txMeta, tailUpdated, tailRemoved, -, present, tail, step⟩
      · exact induction tail agrees
      · rcases step with ⟨dead, updatedEq, removedEq⟩ | ⟨-, rfl, rfl⟩
        · rw [updatedEq, removedEq]
          have tailAgrees := induction tail (agrees.put_allDead cell.txHash dead)
          intro txHash
          by_cases same : txHash = cell.txHash
          · -- deleted from the store, kept all dead in memory
            subst same
            refine .inr ⟨KeyValue.commit_delete_of_mem _ List.mem_cons_self, ?_⟩
            exact markNewInputs_keeps_allDead tail (by simp) dead
          · have skipped : KeyValue.commit
                  (KeyValue.commit column (tailUpdated.map fun entry => .put entry.1 entry.2))
                  ((cell.txHash :: tailRemoved).map .delete) txHash =
                KeyValue.commit (KeyValue.commit (Function.update column cell.txHash none)
                  (tailUpdated.map fun entry => .put entry.1 entry.2))
                  (tailRemoved.map .delete) txHash := by
              rw [List.map_cons, KeyValue.commit_cons_of_ne _ (Ne.symm same)]
              apply KeyValue.commit_congr
              apply KeyValue.commit_congr
              simp [same]
            rw [skipped]
            exact tailAgrees txHash
        · rw [List.map_cons, KeyValue.commit_cons, KeyValue.apply_put]
          exact induction tail (agrees.put cell.txHash (txMeta.setDead cell.index))

end Phases

end Loops

theorem ChainState.updateTip_agrees {chainState chainState' : ChainState} {header : Header}
    {totalDifficulty : Nat} {txoDiff : CellSetDiff}
    (updated : chainState.updateTip header totalDifficulty txoDiff = .ok chainState')
    (agrees : CellSetAgrees chainState.cellSet chainState.store.cellSet) :
    CellSetAgrees chainState'.cellSet chainState'.store.cellSet := by
  unfold ChainState.updateTip at updated
  cases revived : reviveOldInputs chainState.store chainState.cellSet txoDiff.oldInputs with
  | error message => simp [revived] at updated
  | ok result =>
      obtain ⟨afterOld, updatedOld⟩ := result
      simp only [revived] at updated
      generalize removing : removeOldOutputs afterOld txoDiff.oldOutputs = removal at updated
      obtain ⟨afterRemoval, removedOld⟩ := removal
      generalize inserting : insertNewOutputs afterRemoval txoDiff.newOutputs.entries = insertion
        at updated
      obtain ⟨afterInsertion, insertedNew⟩ := insertion
      generalize marking : markNewInputs afterInsertion txoDiff.newInputs = marks at updated
      obtain ⟨final, updatedNew, removedNew⟩ := marks
      simp only [Except.ok.injEq] at updated
      subst updated
      simp only [Store.commit, updateTipBatch, KeyValue.commit_append]
      have afterOldAgrees := reviveOldInputs_agrees revived agrees
      have afterRemovalAgrees := removeOldOutputs_agrees removing afterOldAgrees
      have afterInsertionAgrees := insertNewOutputs_agrees inserting afterRemovalAgrees
      exact markNewInputs_agrees marking afterInsertionAgrees

/-- `update_tip` called once for each element of `updates`, in order. -/
def ChainState.updateTips (chainState : ChainState) (updates : List (Header × Nat × CellSetDiff)) :
    Except String ChainState :=
  updates.foldlM (fun state update => state.updateTip update.1 update.2.1 update.2.2) chainState

theorem ChainState.updateTips_agrees {chainState chainState' : ChainState}
    {updates : List (Header × Nat × CellSetDiff)}
    (run : chainState.updateTips updates = .ok chainState')
    (agrees : CellSetAgrees chainState.cellSet chainState.store.cellSet) :
    CellSetAgrees chainState'.cellSet chainState'.store.cellSet := by
  induction updates generalizing chainState with
  | nil =>
      simp only [ChainState.updateTips, List.foldlM_nil] at run
      cases run
      exact agrees
  | cons update rest induction =>
      simp only [ChainState.updateTips, List.foldlM_cons] at run
      cases first : chainState.updateTip update.1 update.2.1 update.2.2 with
      | error message =>
          rw [first] at run
          cases run
      | ok middle =>
          simp only [first] at run
          exact induction run (ChainState.updateTip_agrees first agrees)

theorem ChainState.cell_restart {chainState : ChainState}
    (agrees : CellSetAgrees chainState.cellSet chainState.store.cellSet) (outPoint : OutPoint) :
    chainState.restart.cell outPoint = chainState.cell outPoint ∨
      (chainState.cell outPoint = .ok .dead ∧ chainState.restart.cell outPoint = .ok .unknown) := by
  cases cellEq : outPoint.cell with
  | none =>
      left
      simp [ChainState.cell, cellEq]
  | some cell =>
      rcases agrees cell.txHash with same | ⟨missing, txMeta, present, dead⟩
      · left
        simp [ChainState.cell, ChainState.restart, initCellSet, CellSet.get, cellEq, same]
      · -- the memory holds an all-dead meta the store has deleted
        have restarted : chainState.restart.cell outPoint = .ok .unknown := by
          simp [ChainState.cell, ChainState.restart, initCellSet, CellSet.get, cellEq, missing]
        cases deadBit : txMeta.isDead cell.index with
        | none =>
            left
            rw [restarted]
            simp [ChainState.cell, CellSet.get, cellEq, present, deadBit]
        | some bit =>
            cases bit with
            | false => exact absurd deadBit (TransactionMeta.isDead_of_allDead dead cell.index)
            | true =>
                right
                refine ⟨?_, restarted⟩
                simp [ChainState.cell, CellSet.get, cellEq, present, deadBit]

/-- After any run of `update_tip` from a cell set loaded by `init_cell_set`,
a restart changes the status of an out-point at most from dead to unknown:
in particular every live cell stays live. -/
theorem ChainState.updateTips_restart_cell {store : Store} {header : Header}
    {totalDifficulty : Nat} {updates : List (Header × Nat × CellSetDiff)}
    {chainState' : ChainState}
    (run : ChainState.updateTips ⟨store, header, totalDifficulty, initCellSet store⟩ updates =
      .ok chainState')
    (outPoint : OutPoint) :
    chainState'.restart.cell outPoint = chainState'.cell outPoint ∨
      (chainState'.cell outPoint = .ok .dead ∧ chainState'.restart.cell outPoint = .ok .unknown) := by
  have loaded : CellSetAgrees (initCellSet store) store.cellSet := fun _ => .inl rfl
  exact ChainState.cell_restart (ChainState.updateTips_agrees run loaded) outPoint

section Samples

private def storedOutput : CellOutput := ⟨⟨0⟩, [], ⟨[], ⟨0⟩⟩, none⟩

private def heightHeader (number : Nat) : Header := ⟨number, 0, 0, 0, ⟨0⟩, ⟨number⟩⟩

/-- The one output of the transaction with hash `1`. -/
private def firstOutput : OutPoint := ⟨none, some ⟨⟨1⟩, 0⟩⟩

private def creatingBlock : Block :=
  ⟨heightHeader 1, [], [⟨txVersion, [], [], [storedOutput], [], ⟨1⟩⟩], []⟩

private def spendingBlock : Block :=
  ⟨heightHeader 2, [], [⟨txVersion, [], [⟨firstOutput, 0⟩], [storedOutput], [], ⟨2⟩⟩], []⟩

private def storeOf (column : H256 → Option TransactionMeta) : Store :=
  ⟨fun _ => none, fun _ => none, fun _ _ => none, column⟩

/-- A store whose cell set holds the transaction `1` with its one output live. -/
private def storeWithFirst : Store :=
  storeOf fun txHash => if txHash = ⟨1⟩ then some (TransactionMeta.new 1 0 1 false) else none

/-- Spending the only live output of a transaction and restarting: the
out-point goes from dead to unknown, the one change a restart may make. -/
theorem spentOutput_restart_dead_or_same :
    ∃ chainState', ChainState.updateTips
        ⟨storeWithFirst, heightHeader 1, 1, initCellSet storeWithFirst⟩
        [(heightHeader 2, 2, CellSetDiff.empty.pushNew spendingBlock)] = .ok chainState' ∧
      (chainState'.restart.cell firstOutput = chainState'.cell firstOutput ∨
        (chainState'.cell firstOutput = .ok .dead ∧
          chainState'.restart.cell firstOutput = .ok .unknown)) := by
  obtain ⟨chainState', ran⟩ := Except.exists_eq_ok_of_isSome (by decide :
    (ChainState.updateTips ⟨storeWithFirst, heightHeader 1, 1, initCellSet storeWithFirst⟩
      [(heightHeader 2, 2, CellSetDiff.empty.pushNew spendingBlock)]).toOption.isSome = true)
  exact ⟨chainState', ran, ChainState.updateTips_restart_cell ran firstOutput⟩

/-- Spending the only live output of a transaction: the memory keeps its meta,
all dead, and answers dead; the store deletes it, and after a restart the
out-point is unknown. -/
theorem updateTip_spent_meta_dead_then_unknown :
    ((ChainState.updateTip ⟨storeWithFirst, heightHeader 1, 1, initCellSet storeWithFirst⟩
        (heightHeader 2) 2 (CellSetDiff.empty.pushNew spendingBlock)).bind
        fun chainState => chainState.cell firstOutput) = .ok .dead ∧
    ((ChainState.updateTip ⟨storeWithFirst, heightHeader 1, 1, initCellSet storeWithFirst⟩
        (heightHeader 2) 2 (CellSetDiff.empty.pushNew spendingBlock)).bind
        fun chainState => chainState.restart.cell firstOutput) = .ok .unknown :=
  ⟨by decide, by decide⟩

/-- Two attached blocks, the second spending the output the first creates:
the overlay used to verify the next fork block still has the output live,
where `update_tip` marks it dead. -/
theorem newOverlay_spent_attached_output_live :
    (((initCellSet (storeOf fun _ => none)).newOverlay
        ((CellSetDiff.empty.pushNew creatingBlock).pushNew spendingBlock)).get ⟨1⟩).bind
        (fun txMeta => txMeta.isDead 0) = some false ∧
    ((ChainState.updateTip
        ⟨storeOf (fun _ => none), heightHeader 0, 0, initCellSet (storeOf fun _ => none)⟩
        (heightHeader 2) 2 ((CellSetDiff.empty.pushNew creatingBlock).pushNew spendingBlock)).map
        fun chainState => (chainState.cellSet.get ⟨1⟩).bind fun txMeta => txMeta.isDead 0) =
      .ok (some true) :=
  ⟨by decide, by decide⟩

end Samples

end Ckb
