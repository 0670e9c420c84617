import Ckb.Lib.LinkedMap
import Ckb.Lib.Entries
import Ckb.Core.Cell
import Ckb.Lib.Checked

/-!
# The transaction pool

A model of `shared/src/tx_pool`: the pending queue and the gap (linked hash
maps from proposal short ids to entries), the proposed pool with its edges
from out-points to the transactions that spend or use them, the orphan pool
with its edges from the unknown out-points to the orphans waiting for them,
the conflict cache, and the size and cycle statistics of `TxPool`.

Every hash map is a list of entries (`LinkedMap`); the order is read only for
the linked maps.  The loops of `remove_vertex`, `recursion_remove` and
`remove_by_ancestor` run on a queue; each is given as fuel the number of ids
its edges can still hand to the queue, one more than it needs.  A refs
count is a `usize`, and the release profile keeps `overflow-checks`: a
decrement below zero, in `dec_ref` or in `remove_by_ancestor`, is a panic.
-/

namespace Ckb

structure PendingEntry where
  transaction : Transaction
  cycles : Option Nat
  size : Nat
  deriving DecidableEq, Repr

/-- A conflict or orphan entry. -/
structure DefectEntry where
  transaction : Transaction
  refsCount : Nat
  cycles : Option Nat
  size : Nat
  deriving DecidableEq, Repr

structure ProposedEntry where
  transaction : Transaction
  refsCount : Nat
  cycles : Nat
  fee : Capacity
  size : Nat
  deriving DecidableEq, Repr

def OutPoint.newCell (txHash : H256) (index : Nat) : OutPoint :=
  ⟨none, some ⟨txHash, index⟩⟩

def Transaction.outputPts (tx : Transaction) : List OutPoint :=
  (List.range tx.outputs.length).map (OutPoint.newCell tx.hash)

/-- `CellMetaBuilder::from_cell_output(output).out_point(out_point).build()`. -/
def CellMeta.fromCellOutput (output : CellOutput) (outPoint : CellOutPoint) : CellMeta :=
  ⟨some output, outPoint, none, false, output.capacity, none⟩

/-- The cell a pool answers for an out-point of one of its transactions. -/
def poolCell (txs : List (ProposalShortId × Transaction)) (outPoint : OutPoint) : CellStatus :=
  match outPoint.cell with
  | none => .unspecified
  | some cellOutPoint =>
    match LinkedMap.get? txs (ProposalShortId.fromTxHash cellOutPoint.txHash) with
    | none => .unknown
    | some tx =>
      match tx.outputs[cellOutPoint.index]? with
      | some output => .live (CellMeta.fromCellOutput output cellOutPoint)
      | none => .unknown

/-! ## The pending queue and the gap -/

structure PendingQueue where
  inner : List (ProposalShortId × PendingEntry)

namespace PendingQueue

def new : PendingQueue := ⟨[]⟩

/-- `add_tx`: the entry it replaced, if any. -/
def addTx (self : PendingQueue) (cycles : Option Nat) (size : Nat) (tx : Transaction) :
    PendingQueue × Option PendingEntry :=
  let (inner, old) := LinkedMap.insert self.inner tx.proposalShortId ⟨tx, cycles, size⟩
  (⟨inner⟩, old)

def containsKey (self : PendingQueue) (id : ProposalShortId) : Bool :=
  LinkedMap.contains self.inner id

def remove (self : PendingQueue) (id : ProposalShortId) : PendingQueue × Option PendingEntry :=
  let (inner, entry) := LinkedMap.remove self.inner id
  (⟨inner⟩, entry)

/-- `PendingQueue` as a cell provider. -/
def cell (self : PendingQueue) (outPoint : OutPoint) : CellStatus :=
  poolCell (self.inner.map fun entry => (entry.1, entry.2.transaction)) outPoint

end PendingQueue

/-! ## The proposed pool -/

/-- The edges of the proposed pool: `inner` holds the outputs of pool
transactions, with the pool transaction that spends each; `outer` the other
out-points pool transactions spend; `deps` the pool transactions using each
out-point as a dep. -/
structure Edges where
  inner : List (OutPoint × Option ProposalShortId)
  outer : List (OutPoint × Option ProposalShortId)
  deps : List (OutPoint × List ProposalShortId)

namespace Edges

def insertOuter (self : Edges) (key : OutPoint) (value : ProposalShortId) : Edges :=
  { self with outer := (LinkedMap.insert self.outer key (some value)).1 }

def removeOuter (self : Edges) (key : OutPoint) : Edges × Option ProposalShortId :=
  let (outer, value) := LinkedMap.remove self.outer key
  ({ self with outer }, value.getD none)

def removeInner (self : Edges) (key : OutPoint) : Edges × Option ProposalShortId :=
  let (inner, value) := LinkedMap.remove self.inner key
  ({ self with inner }, value.getD none)

def markInpool (self : Edges) (key : OutPoint) : Edges :=
  { self with inner := (LinkedMap.insert self.inner key none).1 }

def containsKey (self : Edges) (key : OutPoint) : Bool :=
  LinkedMap.contains self.inner key

def insertDeps (self : Edges) (key : OutPoint) (value : ProposalShortId) : Edges :=
  let deps := Entries.upsert key [] (fun ids => if value ∈ ids then ids else ids ++ [value]) self.deps
  { self with deps }

def removeDeps (self : Edges) (key : OutPoint) : Edges × Option (List ProposalShortId) :=
  let (deps, ids) := LinkedMap.remove self.deps key
  ({ self with deps }, ids)

def deleteValueInDeps (self : Edges) (key : OutPoint) (value : ProposalShortId) : Edges :=
  match LinkedMap.get? self.deps key with
  | none => self
  | some ids =>
    let ids := ids.filter (· != value)
    if ids.isEmpty then { self with deps := (LinkedMap.remove self.deps key).1 }
    else { self with deps := LinkedMap.modify self.deps key fun _ => ids }

/-- The input loop of `remove_vertex`: the input's entry goes from `inner`
if it has one there, else from `outer`. -/
def removeInput (self : Edges) (key : OutPoint) : Edges :=
  match LinkedMap.remove self.inner key with
  | (_, none) => (self.removeOuter key).1
  | (inner, some _) => { self with inner }

section Inner

variable {edges : Edges} {key other : OutPoint}

theorem get?_removeInput_inner :
    LinkedMap.get? (edges.removeInput key).inner other =
      if key = other then none else LinkedMap.get? edges.inner other := by
  have removed : LinkedMap.remove edges.inner key =
      ((LinkedMap.remove edges.inner key).1, LinkedMap.get? edges.inner key) := rfl
  rw [removeInput, removed]
  cases found : LinkedMap.get? edges.inner key with
  | none =>
      show LinkedMap.get? edges.inner other = _
      by_cases same : key = other
      · rw [if_pos same, ← same, found]
      · rw [if_neg same]
  | some spender => exact LinkedMap.get?_remove

theorem get?_foldl_removeInput_inner (inputs : List OutPoint) (edges : Edges) :
    LinkedMap.get? (inputs.foldl removeInput edges).inner other =
      if other ∈ inputs then none else LinkedMap.get? edges.inner other := by
  induction inputs generalizing edges with
  | nil => simp
  | cons input rest induction =>
      rw [List.foldl_cons, induction, get?_removeInput_inner]
      by_cases later : other ∈ rest
      · simp [later]
      · by_cases same : input = other
        · simp [same]
        · simp [later, same, Ne.symm same]

@[simp] theorem deleteValueInDeps_inner (value : ProposalShortId) :
    (edges.deleteValueInDeps key value).inner = edges.inner := by
  unfold deleteValueInDeps
  split
  · rfl
  · dsimp only
    split <;> rfl

@[simp] theorem removeDeps_inner : (edges.removeDeps key).1.inner = edges.inner := rfl

@[simp] theorem removeInner_inner :
    (edges.removeInner key).1.inner = (LinkedMap.remove edges.inner key).1 := rfl

end Inner

end Edges

structure ProposedPool where
  vertices : List (ProposalShortId × ProposedEntry)
  edges : Edges

namespace ProposedPool

def new : ProposedPool := ⟨[], ⟨[], [], []⟩⟩

def containsKey (self : ProposedPool) (id : ProposalShortId) : Bool :=
  LinkedMap.contains self.vertices id

def getOutput (self : ProposedPool) (outPoint : OutPoint) : Option CellOutput :=
  outPoint.cell.bind fun cellOutPoint =>
    (LinkedMap.get? self.vertices (ProposalShortId.fromTxHash cellOutPoint.txHash)).bind
      fun entry => entry.transaction.outputs[cellOutPoint.index]?

/-- `ProposedPool` as a cell provider: an output of a pool transaction is
live until a pool transaction spends it, and an out-point a pool transaction
spends is dead.  The output an `inner` entry names is always there; where it
is not, the source's `expect` would panic, and the model answers unknown. -/
def cell (self : ProposedPool) (outPoint : OutPoint) : CellStatus :=
  match outPoint.cell with
  | none => .unspecified
  | some cellOutPoint =>
    match LinkedMap.get? self.edges.inner outPoint with
    | some (some _) => .dead
    | some none =>
      match self.getOutput outPoint with
      | some output => .live (CellMeta.fromCellOutput output cellOutPoint)
      | none => .unknown
    | none => if LinkedMap.contains self.edges.outer outPoint then .dead else .unknown

/-- The output loop of `remove_vertex`: each output's spender and the users
of it as a dep join the queue. -/
def removeOutputs (edges : Edges) : List OutPoint → Edges × List ProposalShortId
  | [] => (edges, [])
  | outPoint :: rest =>
    let (edges, child) := edges.removeInner outPoint
    let (edges, users) := edges.removeDeps outPoint
    let (edges, later) := removeOutputs edges rest
    (edges, child.toList ++ users.getD [] ++ later)

/-- The queue of `remove_vertex`: each removed transaction takes its
spenders and dep users with it. -/
def removeVertexLoop : Nat → ProposedPool → List ProposalShortId → List ProposedEntry →
    ProposedPool × List ProposedEntry
  | 0, pool, _, removed => (pool, removed)
  | _, pool, [], removed => (pool, removed)
  | fuel + 1, pool, id :: queue, removed =>
    match LinkedMap.remove pool.vertices id with
    | (_, none) => removeVertexLoop fuel pool queue removed
    | (vertices, some entry) =>
      let tx := entry.transaction
      let edges := tx.inputPts.foldl Edges.removeInput pool.edges
      let edges := tx.deps.foldl (fun edges dep => edges.deleteValueInDeps dep id) edges
      let (edges, children) := removeOutputs edges tx.outputPts
      removeVertexLoop fuel ⟨vertices, edges⟩ (queue ++ children) (removed ++ [entry])

def removeVertex (self : ProposedPool) (id : ProposalShortId) : ProposedPool × List ProposedEntry :=
  removeVertexLoop (self.edges.inner.length + (self.edges.deps.map fun entry => entry.2.length).sum + 1)
    self [id] []

def remove (self : ProposedPool) (id : ProposalShortId) : ProposedPool × List ProposedEntry :=
  self.removeVertex id

/-- `add_tx`: an input that is an output of a pool transaction is marked
spent by this one, any other goes to `outer`; its deps are recorded; its own
outputs are marked in the pool.  The refs count is the number of inputs and
deps that are outputs of pool transactions. -/
def addTx (self : ProposedPool) (cycles : Nat) (fee : Capacity) (size : Nat) (tx : Transaction) :
    ProposedPool :=
  let id := tx.proposalShortId
  let (edges, count) := tx.inputPts.foldl (fun (edges, count) input =>
    if LinkedMap.contains edges.inner input then
      ({ edges with inner := LinkedMap.modify edges.inner input fun _ => some id }, count + 1)
    else (edges.insertOuter input id, count)) (self.edges, 0)
  let (edges, count) := tx.deps.foldl (fun (edges, count) dep =>
    (edges.insertDeps dep id, if edges.containsKey dep then count + 1 else count)) (edges, count)
  let edges := tx.outputPts.foldl Edges.markInpool edges
  ⟨(LinkedMap.insert self.vertices id ⟨tx, count, cycles, fee, size⟩).1, edges⟩

/-- `resolve_conflict`: the pool transactions spending, or using as a dep,
an input of a committed transaction that was not in the pool. -/
def resolveConflict (self : ProposedPool) (tx : Transaction) : ProposedPool × List ProposedEntry :=
  tx.inputPts.foldl (fun (pool, removed) input =>
    let (edges, spender) := pool.edges.removeOuter input
    let (pool, removed) := match spender with
      | some id =>
        let (pool, entries) := ProposedPool.remove { pool with edges } id
        (pool, removed ++ entries)
      | none => ({ pool with edges }, removed)
    let (edges, users) := pool.edges.removeDeps input
    (users.getD []).foldl (fun (pool, removed) id =>
      let (pool, entries) := pool.remove id
      (pool, removed ++ entries)) ({ pool with edges }, removed)) (self, [])

/-- `dec_ref`: the entry waits on one pool transaction fewer. -/
def decRef (self : ProposedPool) (id : ProposalShortId) : Except String ProposedPool :=
  match LinkedMap.get? self.vertices id with
  | none => pure self
  | some entry => do
    let refsCount ← Checked.subOrPanic entry.refsCount 1
    pure { self with vertices := LinkedMap.modify self.vertices id fun entry => { entry with refsCount } }

/-- The spender of a committed output now spends a chain cell and waits on
one pool transaction fewer. -/
def releaseSpender (pool : ProposedPool) (output : OutPoint) : Except String ProposedPool :=
  match pool.edges.removeInner output with
  | (edges, some child) => do
    let pool ← ({ pool with edges } : ProposedPool).decRef child
    pure { pool with edges := pool.edges.insertOuter output child }
  | (edges, none) => pure { pool with edges }

/-- The output loop of `remove_committed_tx`: the spender of the output, and
each pool transaction using the output as a dep, waits on one pool
transaction fewer. -/
def releaseCommittedOutput (pool : ProposedPool) (output : OutPoint) : Except String ProposedPool := do
  let pool ← pool.releaseSpender output
  ((LinkedMap.get? pool.edges.deps output).getD []).foldlM decRef pool

/-- `remove_committed_tx`: a committed pool transaction leaves, its
spenders now spend a chain cell; a committed transaction from elsewhere
takes its conflicts with it. -/
def removeCommittedTx (self : ProposedPool) (tx : Transaction) :
    Except String (ProposedPool × List ProposedEntry) :=
  let id := tx.proposalShortId
  match LinkedMap.remove self.vertices id with
  | (_, none) => pure (self.resolveConflict tx)
  | (vertices, some entry) => do
    let pool ← tx.outputPts.foldlM releaseCommittedOutput ⟨vertices, self.edges⟩
    let edges := tx.inputPts.foldl (fun edges input => (edges.removeOuter input).1) pool.edges
    let edges := tx.deps.foldl (fun edges dep => edges.deleteValueInDeps dep id) edges
    pure (⟨pool.vertices, edges⟩, [entry])

def txsIter (self : ProposedPool) : List ProposedEntry :=
  self.vertices.map Prod.snd

section Lemmas

variable {pool : ProposedPool} {cycles size : Nat} {fee : Capacity} {tx : Transaction}

theorem mem_addTx_txsIter :
    ∃ refsCount, ⟨tx, refsCount, cycles, fee, size⟩ ∈ (pool.addTx cycles fee size tx).txsIter := by
  simp only [txsIter, addTx]
  exact ⟨_, List.mem_map_of_mem (LinkedMap.mem_of_get?_eq_some LinkedMap.get?_insert_self)⟩

theorem addTx_txsIter (fresh : pool.containsKey tx.proposalShortId = false) :
    ∃ refsCount, (pool.addTx cycles fee size tx).txsIter =
      pool.txsIter ++ [⟨tx, refsCount, cycles, fee, size⟩] := by
  simp only [txsIter, addTx, LinkedMap.insert_of_contains_eq_false fresh, List.map_append,
    List.map_cons, List.map_nil]
  exact ⟨_, rfl⟩

theorem foldl_markInpool_inner (outputs : List OutPoint) (edges : Edges) :
    (outputs.foldl Edges.markInpool edges).inner =
      outputs.foldl (fun inner output => (LinkedMap.insert inner output none).1) edges.inner := by
  induction outputs generalizing edges with
  | nil => rfl
  | cons output rest induction => exact induction _

theorem addTx_cell_output {index : Nat} {output : CellOutput}
    (created : tx.outputs[index]? = some output) :
    (pool.addTx cycles fee size tx).cell (OutPoint.newCell tx.hash index) =
      .live (CellMeta.fromCellOutput output ⟨tx.hash, index⟩) := by
  have listed : OutPoint.newCell tx.hash index ∈ tx.outputPts := by
    have below : index < tx.outputs.length := by
      rw [List.getElem?_eq_some_iff] at created
      exact created.1
    exact List.mem_map.mpr ⟨index, List.mem_range.mpr below, rfl⟩
  have marked : LinkedMap.get? (pool.addTx cycles fee size tx).edges.inner
      (OutPoint.newCell tx.hash index) = some none := by
    simp only [addTx, foldl_markInpool_inner]
    exact LinkedMap.get?_foldl_insert listed _
  have found : (pool.addTx cycles fee size tx).getOutput (OutPoint.newCell tx.hash index) = some output := by
    simp only [getOutput, OutPoint.newCell, Option.bind_some, addTx]
    rw [show ProposalShortId.fromTxHash tx.hash = tx.proposalShortId from rfl,
      LinkedMap.get?_insert_self]
    exact created
  simp only [cell, marked, found]
  rfl

end Lemmas

/-! ## Refs counts

`remove_committed_tx` takes one off the count of the spender of each output
of the committed transaction and of each pool transaction using the output
as a dep.  A transaction that joined the pool before the transaction whose
output it uses counted nothing for it, and the decrement then panics. -/

section RefsCount

variable {pool pool' : ProposedPool} {id user : ProposalShortId} {entry : ProposedEntry}

theorem decRef_error {message : String} (failed : pool.decRef id = .error message) :
    message = "attempt to subtract with overflow" := by
  unfold decRef at failed
  split at failed
  · cases failed
  · rename_i found _
    cases decremented : Checked.subOrPanic found.refsCount 1 with
    | error first =>
        rw [decremented, Except.error_bind, Except.error.injEq] at failed
        rw [← failed]
        exact Checked.subOrPanic_error decremented
    | ok refsCount =>
        rw [decremented, Except.ok_bind] at failed
        cases failed

theorem decRef_of_zero (found : LinkedMap.get? pool.vertices id = some entry)
    (zero : entry.refsCount = 0) :
    pool.decRef id = .error "attempt to subtract with overflow" := by
  simp only [decRef, found, zero, Checked.subOrPanic_of_lt Nat.zero_lt_one, Except.error_bind]

theorem decRef_ok (decremented : pool.decRef id = .ok pool') :
    pool'.edges = pool.edges ∧ ∀ other, other ≠ id →
      LinkedMap.get? pool'.vertices other = LinkedMap.get? pool.vertices other := by
  unfold decRef at decremented
  split at decremented
  · cases decremented
    exact ⟨rfl, fun _ _ => rfl⟩
  · rw [Except.bind_eq_ok] at decremented
    obtain ⟨refsCount, -, done⟩ := decremented
    cases done
    exact ⟨rfl, fun other differs => by rw [LinkedMap.get?_modify, if_neg differs]⟩

/-- The entry `user` is in the pool with a count of zero. -/
def Stuck (user : ProposalShortId) (entry : ProposedEntry) (pool : ProposedPool) : Prop :=
  LinkedMap.get? pool.vertices user = some entry ∧ entry.refsCount = 0

theorem Stuck.decRef (stuck : Stuck user entry pool) (decremented : pool.decRef id = .ok pool') :
    Stuck user entry pool' := by
  have differs : user ≠ id := by
    rintro rfl
    rw [decRef_of_zero stuck.1 stuck.2] at decremented
    cases decremented
  exact ⟨((decRef_ok decremented).2 user differs).trans stuck.1, stuck.2⟩

theorem foldlM_decRef_error {ids : List ProposalShortId} {message : String}
    (failed : ids.foldlM decRef pool = .error message) :
    message = "attempt to subtract with overflow" :=
  Except.foldlM_error_of_steps (fun _ _ _ failed => decRef_error failed) failed

theorem foldlM_decRef_edges {ids : List ProposalShortId}
    (decremented : ids.foldlM decRef pool = .ok pool') : pool'.edges = pool.edges := by
  have kept := @Except.foldlM_invariant String ProposalShortId ProposedPool decRef
    (fun _ current => current.edges = pool.edges)
    (fun _ _ _ _ same stepped => ((decRef_ok stepped).1).trans same) ids [] pool pool' rfl
    decremented
  exact kept

theorem releaseSpender_error {output : OutPoint} {message : String}
    (failed : pool.releaseSpender output = .error message) :
    message = "attempt to subtract with overflow" := by
  unfold releaseSpender at failed
  split at failed
  · rw [Except.bind_eq_error] at failed
    rcases failed with decremented | ⟨_, -, done⟩
    · exact decRef_error decremented
    · cases done
  · cases failed

theorem releaseSpender_ok {output : OutPoint} (stuck : Stuck user entry pool)
    (released : pool.releaseSpender output = .ok pool') :
    Stuck user entry pool' ∧ pool'.edges.deps = pool.edges.deps := by
  have removedDeps : (pool.edges.removeInner output).1.deps = pool.edges.deps := rfl
  unfold releaseSpender at released
  cases removal : pool.edges.removeInner output with
  | mk edges spender =>
      rw [removal] at released removedDeps
      have stuckEdges : Stuck user entry ({ pool with edges } : ProposedPool) := stuck
      cases spender with
      | none =>
          cases released
          exact ⟨stuckEdges, removedDeps⟩
      | some child =>
          rw [Except.bind_eq_ok] at released
          obtain ⟨decremented, stepped, done⟩ := released
          cases done
          have stuckDecremented := stuckEdges.decRef stepped
          exact ⟨⟨stuckDecremented.1, stuckDecremented.2⟩,
            (congrArg Edges.deps (decRef_ok stepped).1).trans removedDeps⟩

theorem releaseCommittedOutput_error {output : OutPoint} {message : String}
    (failed : pool.releaseCommittedOutput output = .error message) :
    message = "attempt to subtract with overflow" := by
  unfold releaseCommittedOutput at failed
  rw [Except.bind_eq_error] at failed
  rcases failed with first | ⟨_, -, loop⟩
  · exact releaseSpender_error first
  · exact foldlM_decRef_error loop

theorem releaseCommittedOutput_ok {output : OutPoint} (stuck : Stuck user entry pool)
    (released : pool.releaseCommittedOutput output = .ok pool') :
    Stuck user entry pool' ∧ pool'.edges.deps = pool.edges.deps := by
  unfold releaseCommittedOutput at released
  rw [Except.bind_eq_ok] at released
  obtain ⟨child, spent, loop⟩ := released
  obtain ⟨stuckChild, sameDeps⟩ := releaseSpender_ok stuck spent
  have kept := @Except.foldlM_invariant String ProposalShortId ProposedPool decRef
    (fun _ current => Stuck user entry current)
    (fun _ _ _ _ holds stepped => holds.decRef stepped) _ [] child pool' stuckChild loop
  exact ⟨kept, (congrArg Edges.deps (foldlM_decRef_edges loop)).trans sameDeps⟩

theorem releaseCommittedOutput_stuck {output : OutPoint} (stuck : Stuck user entry pool)
    (uses : user ∈ (LinkedMap.get? pool.edges.deps output).getD []) :
    pool.releaseCommittedOutput output = .error "attempt to subtract with overflow" := by
  unfold releaseCommittedOutput
  cases spent : pool.releaseSpender output with
  | error message => rw [Except.error_bind, releaseSpender_error spent]
  | ok child =>
      obtain ⟨stuckChild, sameDeps⟩ := releaseSpender_ok stuck spent
      rw [Except.ok_bind]
      exact @Except.foldlM_eq_error_of_mem String ProposalShortId ProposedPool decRef
        (Stuck user entry) "attempt to subtract with overflow" user
        (fun _ _ _ holds stepped => holds.decRef stepped)
        (fun _ holds => decRef_of_zero holds.1 holds.2) (fun _ _ _ failed => decRef_error failed) _
        child (by rw [sameDeps]; exact uses) stuckChild

/-- Committing a pool transaction panics when a pool transaction that uses one
of its outputs as a dep has a refs count of zero, as one that joined the pool
before it has. -/
theorem removeCommittedTx_underflow {tx : Transaction} {output : OutPoint}
    {committedEntry : ProposedEntry}
    (committed : LinkedMap.get? pool.vertices tx.proposalShortId = some committedEntry)
    (created : output ∈ tx.outputPts)
    (uses : user ∈ (LinkedMap.get? pool.edges.deps output).getD [])
    (differs : user ≠ tx.proposalShortId) (found : LinkedMap.get? pool.vertices user = some entry)
    (unreferenced : entry.refsCount = 0) :
    pool.removeCommittedTx tx = .error "attempt to subtract with overflow" := by
  have removed : LinkedMap.remove pool.vertices tx.proposalShortId =
      ((LinkedMap.remove pool.vertices tx.proposalShortId).1, some committedEntry) := by
    rw [← committed]
    rfl
  -- the committed entry leaves first; the stuck one stays
  have stuck : Stuck user entry ⟨(LinkedMap.remove pool.vertices tx.proposalShortId).1,
      pool.edges⟩ :=
    ⟨LinkedMap.get?_remove.trans ((if_neg (Ne.symm differs)).trans found), unreferenced⟩
  have looped := @Except.foldlM_eq_error_of_mem String OutPoint ProposedPool releaseCommittedOutput
    (fun current => Stuck user entry current ∧
      user ∈ (LinkedMap.get? current.edges.deps output).getD [])
    "attempt to subtract with overflow" output
    (fun _ _ _ holds stepped => by
      obtain ⟨stuck', sameDeps⟩ := releaseCommittedOutput_ok holds.1 stepped
      exact ⟨stuck', by rw [sameDeps]; exact holds.2⟩)
    (fun _ holds => releaseCommittedOutput_stuck holds.1 holds.2)
    (fun _ _ _ failed => releaseCommittedOutput_error failed) tx.outputPts _ created ⟨stuck, uses⟩
  unfold removeCommittedTx
  dsimp only
  rw [removed]
  dsimp only
  rw [looped]
  rfl

end RefsCount

/-! ## What `remove_vertex` forgets -/

/-- No input of the transactions taken out keeps an `inner` entry. -/
def Forgets (pool : ProposedPool) (removed : List ProposedEntry) : Prop :=
  ∀ entry ∈ removed, ∀ input ∈ entry.transaction.inputPts,
    LinkedMap.get? pool.edges.inner input = none

section Remove

theorem removeOutputs_inner_of_none {outputs : List OutPoint} {edges : Edges} {other : OutPoint}
    (absent : LinkedMap.get? edges.inner other = none) :
    LinkedMap.get? (removeOutputs edges outputs).1.inner other = none := by
  induction outputs generalizing edges with
  | nil => exact absent
  | cons output rest induction => exact induction (LinkedMap.get?_remove_of_none absent)

theorem foldl_deleteValueInDeps_inner (deps : List OutPoint) (edges : Edges)
    (id : ProposalShortId) :
    (deps.foldl (fun edges dep => edges.deleteValueInDeps dep id) edges).inner = edges.inner := by
  induction deps generalizing edges with
  | nil => rfl
  | cons dep rest induction => rw [List.foldl_cons, induction, Edges.deleteValueInDeps_inner]

/-- A transaction taken out by the loop: its inputs join what `inner` has
forgotten, and the outputs it removes are forgotten too. -/
theorem Forgets.step {pool : ProposedPool} {removed : List ProposedEntry}
    (forgotten : Forgets pool removed) (vertices : List (ProposalShortId × ProposedEntry))
    (id : ProposalShortId) (entry : ProposedEntry) :
    Forgets ⟨vertices, (removeOutputs (entry.transaction.deps.foldl
      (fun edges dep => edges.deleteValueInDeps dep id)
      (entry.transaction.inputPts.foldl Edges.removeInput pool.edges))
      entry.transaction.outputPts).1⟩ (removed ++ [entry]) := by
  intro taken member input spent
  apply removeOutputs_inner_of_none
  rw [foldl_deleteValueInDeps_inner, Edges.get?_foldl_removeInput_inner]
  split
  · rfl
  · rename_i notSpent
    rcases List.mem_append.mp member with earlier | now
    · exact forgotten taken earlier input spent
    · rw [List.mem_singleton.mp now] at spent
      exact absurd spent notSpent

theorem removeVertexLoop_forgets {fuel : Nat} {pool : ProposedPool}
    {queue : List ProposalShortId} {removed : List ProposedEntry}
    (forgotten : Forgets pool removed) :
    Forgets (removeVertexLoop fuel pool queue removed).1
      (removeVertexLoop fuel pool queue removed).2 := by
  induction fuel generalizing pool queue removed with
  | zero => exact forgotten
  | succ fuel induction =>
      cases queue with
      | nil => exact forgotten
      | cons id queue =>
          simp only [removeVertexLoop]
          split
          · exact induction forgotten
          · rename_i vertices entry _
            exact induction (forgotten.step vertices id entry)

theorem cell_ne_live_of_inner_none {pool : ProposedPool} {outPoint : OutPoint}
    (absent : LinkedMap.get? pool.edges.inner outPoint = none) (cellMeta : CellMeta) :
    pool.cell outPoint ≠ .live cellMeta := by
  unfold cell
  split
  · exact fun same => by cases same
  · simp only [absent]
    split <;> exact fun same => by cases same

/-- `remove_vertex` deletes the `inner` entry of each input of a transaction
it takes out, where it should only clear the spender: the out-point no longer
reads live, though it may be an output of a transaction still in the pool. -/
theorem remove_forgets_spent_output {pool : ProposedPool} {id : ProposalShortId}
    {entry : ProposedEntry} (taken : entry ∈ (pool.remove id).2) {input : OutPoint}
    (spent : input ∈ entry.transaction.inputPts) :
    LinkedMap.get? (pool.remove id).1.edges.inner input = none ∧
      ∀ cellMeta, (pool.remove id).1.cell input ≠ .live cellMeta := by
  have forgotten : Forgets (pool.remove id).1 (pool.remove id).2 :=
    removeVertexLoop_forgets fun _ member => absurd member List.not_mem_nil
  have absent := forgotten entry taken input spent
  exact ⟨absent, cell_ne_live_of_inner_none absent⟩

end Remove

end ProposedPool

/-! ## The orphan pool -/

structure OrphanPool where
  vertices : List (ProposalShortId × DefectEntry)
  edges : List (OutPoint × List ProposalShortId)

namespace OrphanPool

def new : OrphanPool := ⟨[], []⟩

def containsKey (self : OrphanPool) (id : ProposalShortId) : Bool :=
  LinkedMap.contains self.vertices id

/-- `add_tx`: the orphan waits for each unknown out-point; the entry it
replaced, if any. -/
def addTx (self : OrphanPool) (cycles : Option Nat) (size : Nat) (tx : Transaction)
    (unknown : List OutPoint) : OrphanPool × Option DefectEntry :=
  let shortId := tx.proposalShortId
  let edges := unknown.foldl (fun edges outPoint =>
    Entries.upsert outPoint [] (fun ids => ids ++ [shortId]) edges) self.edges
  let (vertices, old) := LinkedMap.insert self.vertices shortId ⟨tx, unknown.length, cycles, size⟩
  (⟨vertices, edges⟩, old)

/-- The queue of `recursion_remove`: an orphan leaves with every orphan
waiting for one of its outputs. -/
def recursionRemoveLoop : Nat → OrphanPool → List ProposalShortId → OrphanPool
  | 0, pool, _ => pool
  | _, pool, [] => pool
  | fuel + 1, pool, id :: queue =>
    match LinkedMap.remove pool.vertices id with
    | (_, none) => recursionRemoveLoop fuel pool queue
    | (vertices, some entry) =>
      let (edges, waiting) := entry.transaction.outputPts.foldl (fun (edges, waiting) outPoint =>
        let (edges, ids) := LinkedMap.remove edges outPoint
        (edges, waiting ++ ids.getD [])) (pool.edges, [])
      recursionRemoveLoop fuel ⟨vertices, edges⟩ (queue ++ waiting)

def recursionRemove (self : OrphanPool) (id : ProposalShortId) : OrphanPool :=
  recursionRemoveLoop ((self.edges.map fun entry => entry.2.length).sum + 1) self [id]

/-- `remove_conflict`: the orphans waiting for an input of the transaction
leave, with their own waiting orphans. -/
def removeConflict (self : OrphanPool) (tx : Transaction) : OrphanPool :=
  tx.inputPts.foldl (fun pool input =>
    let (edges, ids) := LinkedMap.remove pool.edges input
    (ids.getD []).foldl recursionRemove { pool with edges }) self

/-- The step of `remove_by_ancestor` for one orphan waiting for a known
out-point. -/
def releaseId (state : OrphanPool × List DefectEntry) (cid : ProposalShortId) :
    Except String (OrphanPool × List DefectEntry) :=
  let (pool, released) := state
  match LinkedMap.get? pool.vertices cid with
  | none => pure (pool, released)
  | some entry => do
    let refsCount ← Checked.subOrPanic entry.refsCount 1
    let entry := { entry with refsCount }
    if entry.refsCount = 0 then
      pure ({ pool with vertices := (LinkedMap.remove pool.vertices cid).1 }, released ++ [entry])
    else pure ({ pool with vertices := LinkedMap.modify pool.vertices cid fun _ => entry }, released)

/-- One out-point of `remove_by_ancestor` becomes known: each orphan waiting
for it waits for one fewer, and those waiting for none are released. -/
def releaseOutput (state : OrphanPool × List DefectEntry) (outPoint : OutPoint) :
    Except String (OrphanPool × List DefectEntry) :=
  let (pool, released) := state
  let (edges, ids) := LinkedMap.remove pool.edges outPoint
  (ids.getD []).foldlM releaseId ({ pool with edges }, released)

/-- The queue of `remove_by_ancestor`: the outputs of each released orphan
become known in turn. -/
def removeByAncestorLoop : Nat → OrphanPool → List (List OutPoint) → List DefectEntry →
    Except String (OrphanPool × List DefectEntry)
  | 0, pool, _, txs => pure (pool, txs)
  | _, pool, [], txs => pure (pool, txs)
  | fuel + 1, pool, outputs :: queue, txs => do
    let (pool, released) ← outputs.foldlM releaseOutput (pool, [])
    removeByAncestorLoop fuel pool (queue ++ released.map fun entry => entry.transaction.outputPts)
      (txs ++ released)

/-- `remove_by_ancestor`: the orphans a transaction conflicts with leave,
and the orphans it releases, directly or through released orphans, are
taken out in the order of release. -/
def removeByAncestor (self : OrphanPool) (tx : Transaction) :
    Except String (OrphanPool × List DefectEntry) :=
  let pool := self.removeConflict tx
  removeByAncestorLoop (pool.vertices.length + 1) pool [tx.outputPts] []

end OrphanPool

/-! ## The pool -/

structure TxPoolConfig where
  maxMemSize : Nat
  maxCycles : Nat
  maxVerfifyCacheSize : Nat
  deriving DecidableEq, Repr

structure TxPool where
  config : TxPoolConfig
  pending : PendingQueue
  gap : PendingQueue
  proposed : ProposedPool
  orphan : OrphanPool
  conflict : List (ProposalShortId × DefectEntry)
  totalTxSize : Nat
  totalTxCycles : Nat

namespace TxPool

def new (config : TxPoolConfig) : TxPool :=
  ⟨config, .new, .new, .new, .new, [], 0, 0⟩

def reachSizeLimit (self : TxPool) (txSize : Nat) : Bool :=
  self.config.maxMemSize < self.totalTxSize + txSize

def reachCyclesLimit (self : TxPool) (cycles : Nat) : Bool :=
  self.config.maxCycles < self.totalTxCycles + cycles

def updateStaticsForAddTx (self : TxPool) (txSize cycles : Nat) : TxPool :=
  { self with totalTxSize := self.totalTxSize + txSize, totalTxCycles := self.totalTxCycles + cycles }

/-- `update_statics_for_remove_tx`: a subtraction that would go below zero
gives zero instead. -/
def updateStaticsForRemoveTx (self : TxPool) (txSize cycles : Nat) : TxPool :=
  { self with totalTxSize := self.totalTxSize - txSize, totalTxCycles := self.totalTxCycles - cycles }

/-- `enqueue_tx`: refused while the gap holds the id; `true` when the
pending queue did not hold it. -/
def enqueueTx (self : TxPool) (cycles : Option Nat) (size : Nat) (tx : Transaction) :
    TxPool × Bool :=
  if self.gap.containsKey tx.proposalShortId then (self, false)
  else
    let (pending, old) := self.pending.addTx cycles size tx
    ({ self with pending }, old.isNone)

def addGap (self : TxPool) (cycles : Option Nat) (size : Nat) (tx : Transaction) : TxPool × Bool :=
  let (gap, old) := self.gap.addTx cycles size tx
  ({ self with gap }, old.isNone)

def addOrphan (self : TxPool) (cycles : Option Nat) (size : Nat) (tx : Transaction)
    (unknowns : List OutPoint) : TxPool × Option DefectEntry :=
  let (orphan, old) := self.orphan.addTx cycles size tx unknowns
  ({ self with orphan }, old)

def addProposed (self : TxPool) (cycles : Nat) (fee : Capacity) (size : Nat) (tx : Transaction) :
    TxPool :=
  { self with proposed := self.proposed.addTx cycles fee size tx }

def removeCommittedTxsFromProposed (self : TxPool) (txs : List Transaction) : Except String TxPool :=
  txs.foldlM (fun pool tx => do
    let (proposed, removed) ← pool.proposed.removeCommittedTx tx
    pure (removed.foldl (fun pool entry => pool.updateStaticsForRemoveTx entry.size entry.cycles)
      { pool with proposed })) self

/-- `remove_expired`: the transactions of ids that left the proposal window
go back to the pending queue, from the gap and from the proposed pool with
their descendants. -/
def removeExpired (self : TxPool) (ids : List ProposalShortId) : TxPool :=
  ids.foldl (fun pool id =>
    let (gap, entry) := pool.gap.remove id
    let pool := { pool with gap }
    let pool := match entry with
      | some entry => (pool.enqueueTx entry.cycles entry.size entry.transaction).1
      | none => pool
    let (proposed, entries) := pool.proposed.remove id
    entries.foldl (fun pool entry => (pool.enqueueTx (some entry.cycles) entry.size entry.transaction).1)
      { pool with proposed }) self

/-- The sizes of all the entries the pool holds, in the pending queue, the
gap, the proposed pool, the orphan pool and the conflict cache. -/
def heldSize (self : TxPool) : Nat :=
  (self.pending.inner.map fun entry => entry.2.size).sum +
    (self.gap.inner.map fun entry => entry.2.size).sum +
    (self.proposed.vertices.map fun entry => entry.2.size).sum +
    (self.orphan.vertices.map fun entry => entry.2.size).sum +
    (self.conflict.map fun entry => entry.2.size).sum

theorem heldSize_addOrphan {self : TxPool} {cycles : Option Nat} {size : Nat} {tx : Transaction}
    {unknowns : List OutPoint} (fresh : self.orphan.containsKey tx.proposalShortId = false) :
    (self.addOrphan cycles size tx unknowns).1.heldSize = self.heldSize + size := by
  simp only [heldSize, addOrphan, OrphanPool.addTx, LinkedMap.insert_of_contains_eq_false fresh,
    List.map_append, List.sum_append, List.map_cons, List.map_nil, List.sum_cons, List.sum_nil]
  omega

end TxPool

end Ckb
