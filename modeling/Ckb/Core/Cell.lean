import Ckb.Core.Block

/-!
# Cell resolution

A model of `core/src/cell.rs`: the statuses a cell or header provider
answers, the overlay of two providers, the provider of a block's own outputs,
and `resolve_transaction`.

A provider is a function from out-points to statuses.  `seen_inputs`, the
hash set threaded through the resolution of all transactions of one block, is
a list: `insert` reports whether the out-point was new and, if so, puts it in
front.  `resolve_transaction` mutates the set even when it fails, so the model
returns the set beside the result.
-/

namespace Ckb

structure BlockInfo where
  number : Nat
  epoch : Nat
  deriving DecidableEq, Repr

structure CellMeta where
  cellOutput : Option CellOutput
  outPoint : CellOutPoint
  blockInfo : Option BlockInfo
  cellbase : Bool
  capacity : Capacity
  dataHash : Option H256
  deriving DecidableEq, Repr

inductive CellStatus where
  | live (cellMeta : CellMeta)
  | dead
  | unknown
  | unspecified
  deriving DecidableEq, Repr

inductive HeaderStatus where
  | live (header : Header)
  | inclusionFaliure
  | unknown
  | unspecified
  deriving DecidableEq, Repr

inductive ResolvedCell where
  | cell (cellMeta : CellMeta)
  | issuingDaoInput
  | null
  deriving DecidableEq, Repr

def ResolvedCell.cellMeta : ResolvedCell → Option CellMeta
  | .cell cellMeta => some cellMeta
  | _ => none

def ResolvedCell.isIssuingDaoInput : ResolvedCell → Bool
  | .issuingDaoInput => true
  | _ => false

structure ResolvedOutPoint where
  cell : ResolvedCell
  header : Option Header
  deriving DecidableEq, Repr

namespace ResolvedOutPoint

def issuingDao : ResolvedOutPoint := ⟨.issuingDaoInput, none⟩

def cellOnly (cellMeta : CellMeta) : ResolvedOutPoint := ⟨.cell cellMeta, none⟩

def headerOnly (header : Header) : ResolvedOutPoint := ⟨.null, some header⟩

def cellAndHeader (cellMeta : CellMeta) (header : Header) : ResolvedOutPoint :=
  ⟨.cell cellMeta, some header⟩

end ResolvedOutPoint

structure ResolvedTransaction where
  transaction : Transaction
  resolvedDeps : List ResolvedOutPoint
  resolvedInputs : List ResolvedOutPoint
  deriving DecidableEq, Repr

namespace ResolvedTransaction

/-- `ResolvedTransaction::is_cellbase`: a cellbase is resolved with no inputs. -/
def isCellbase (rtx : ResolvedTransaction) : Bool :=
  rtx.resolvedInputs.isEmpty

def inputsCapacity (rtx : ResolvedTransaction) : Except CapacityError Capacity :=
  Capacity.sum (rtx.resolvedInputs.map fun input =>
    (input.cell.cellMeta.map CellMeta.capacity).getD Capacity.zero)

theorem inputsCapacity_eq_ok {rtx : ResolvedTransaction} {total : Capacity}
    (summed : rtx.inputsCapacity = .ok total) :
    total.shannons = ((rtx.resolvedInputs.filterMap fun input => input.cell.cellMeta).map
      fun cellMeta => cellMeta.capacity.shannons).sum := by
  rw [inputsCapacity, Capacity.sum_eq_ok_iff, List.map_map] at summed
  rw [summed.1]
  clear summed
  induction rtx.resolvedInputs with
  | nil => rfl
  | cons input rest induction =>
      cases isCell : input.cell.cellMeta with
      | none => simp [isCell, induction]
      | some cellMeta => simp [isCell, induction]

end ResolvedTransaction

/-- `OverlayCellProvider::cell`: the overlay decides, except that an out-point
it does not know is asked of the underlying provider. -/
def overlayCell (overlay cellProvider : OutPoint → CellStatus) (outPoint : OutPoint) :
    CellStatus :=
  match overlay outPoint with
  | .live cellMeta => .live cellMeta
  | .dead => .dead
  | .unknown => cellProvider outPoint
  | .unspecified => .unspecified

def overlayHeader (overlay headerProvider : OutPoint → HeaderStatus) (outPoint : OutPoint) :
    HeaderStatus :=
  match overlay outPoint with
  | .live header => .live header
  | .inclusionFaliure => .inclusionFaliure
  | .unknown => headerProvider outPoint
  | .unspecified => .unspecified

inductive UnresolvableError where
  | empty
  | unspecifiedInputCell (outPoint : OutPoint)
  | invalidHeader (outPoint : OutPoint)
  | dead (outPoint : OutPoint)
  | unknown (outPoints : List OutPoint)
  | outOfOrder (outPoint : OutPoint)
  deriving DecidableEq, Repr

/-- `BlockCellProvider::output_indices`: the position of the last transaction
with the given hash (a later insertion overwrites an earlier one). -/
def outputIndices : List Transaction → H256 → Option Nat
  | [], _ => none
  | tx :: rest, hash =>
    match outputIndices rest hash with
    | some position => some (position + 1)
    | none => if tx.hash = hash then some 0 else none

/-- The out-points a transaction at position `position` refers to that name
an output of a transaction at `position` or later, deps first. -/
def outOfOrderRefs (transactions : List Transaction) (position : Nat) (tx : Transaction) :
    List OutPoint :=
  (tx.deps ++ tx.inputPts).filter fun outPoint =>
    match outPoint.cell with
    | some cell =>
      match outputIndices transactions cell.txHash with
      | some outputIndex => decide (position ≤ outputIndex)
      | none => false
    | none => false

/-- The check of `BlockCellProvider::new`: the first out-of-order reference,
transaction by transaction, is the error. -/
def BlockCellProvider.new (block : Block) : Except UnresolvableError Block :=
  match (block.transactions.zipIdx.flatMap fun entry =>
      outOfOrderRefs block.transactions entry.2 entry.1).head? with
  | some outPoint => .error (.outOfOrder outPoint)
  | none => .ok block

def BlockCellProvider.cell (block : Block) (outPoint : OutPoint) : CellStatus :=
  match outPoint.cell with
  | none => .unspecified
  | some cell =>
    match outputIndices block.transactions cell.txHash with
    | none => .unknown
    | some position =>
      match block.transactions[position]?.bind fun tx => tx.outputs[cell.index]? with
      | none => .unknown
      | some output =>
        .live ⟨some output, cell, some ⟨block.header.number, block.header.epoch⟩,
          position == 0, output.capacity, none⟩

/-- `seen_inputs.insert(out_point)`: whether the out-point was new, and the set. -/
def insertSeen (seen : List OutPoint) (outPoint : OutPoint) : Bool × List OutPoint :=
  if outPoint ∈ seen then (false, seen) else (true, outPoint :: seen)

section Resolve

variable (cellProvider : OutPoint → CellStatus) (headerProvider : OutPoint → HeaderStatus)

/-- The input loop of `resolve_transaction`: unknown out-points are
collected, any other failure returns at once. -/
def resolveInputs : List OutPoint → List OutPoint → List OutPoint → List ResolvedOutPoint →
    List OutPoint × Except UnresolvableError (List OutPoint × List ResolvedOutPoint)
  | seen, [], unknown, resolved => (seen, .ok (unknown, resolved))
  | seen, outPoint :: rest, unknown, resolved =>
    if outPoint.isIssuingDao then
      resolveInputs seen rest unknown (resolved ++ [ResolvedOutPoint.issuingDao])
    else
      let (fresh, seen) := insertSeen seen outPoint
      let statuses : CellStatus × HeaderStatus :=
        if fresh then (cellProvider outPoint, headerProvider outPoint) else (.dead, .unknown)
      match statuses with
      | (.dead, _) => (seen, .error (.dead outPoint))
      | (.unknown, _) => resolveInputs seen rest (unknown ++ [outPoint]) resolved
      | (.unspecified, _) => (seen, .error (.unspecifiedInputCell outPoint))
      | (.live _, .unknown) => (seen, .error (.invalidHeader outPoint))
      | (.live _, .inclusionFaliure) => (seen, .error (.invalidHeader outPoint))
      | (.live cellMeta, .live header) =>
        resolveInputs seen rest unknown (resolved ++ [.cellAndHeader cellMeta header])
      | (.live cellMeta, .unspecified) =>
        resolveInputs seen rest unknown (resolved ++ [.cellOnly cellMeta])

/-- The dep loop of `resolve_transaction`; a live dep already spent as an
input of this block is reported dead. -/
def resolveDeps (seen : List OutPoint) : List OutPoint → List OutPoint → List ResolvedOutPoint →
    Except UnresolvableError (List OutPoint × List ResolvedOutPoint)
  | [], unknown, resolved => .ok (unknown, resolved)
  | outPoint :: rest, unknown, resolved =>
    match cellProvider outPoint, headerProvider outPoint with
    | .dead, _ => .error (.dead outPoint)
    | .unknown, _ => resolveDeps seen rest (unknown ++ [outPoint]) resolved
    | _, .unknown => .error (.invalidHeader outPoint)
    | _, .inclusionFaliure => .error (.invalidHeader outPoint)
    | .live cellMeta, headerStatus =>
      if outPoint ∈ seen then .error (.dead outPoint)
      else
        match headerStatus with
        | .live header => resolveDeps seen rest unknown (resolved ++ [.cellAndHeader cellMeta header])
        | _ => resolveDeps seen rest unknown (resolved ++ [.cellOnly cellMeta])
    | .unspecified, .live header => resolveDeps seen rest unknown (resolved ++ [.headerOnly header])
    | .unspecified, _ => .error .empty

/-- `resolve_transaction`, returning the updated `seen_inputs` beside the
result.  The inputs of a cellbase are not resolved. -/
def resolveTransaction (transaction : Transaction) (seen : List OutPoint) :
    List OutPoint × Except UnresolvableError ResolvedTransaction :=
  let (seen, inputs) :=
    if transaction.isCellbase then (seen, .ok ([], []))
    else resolveInputs cellProvider headerProvider seen transaction.inputPts [] []
  match inputs with
  | .error error => (seen, .error error)
  | .ok (unknown, resolvedInputs) =>
    match resolveDeps cellProvider headerProvider seen transaction.deps unknown [] with
    | .error error => (seen, .error error)
    | .ok (unknown, resolvedDeps) =>
      if unknown.isEmpty then (seen, .ok ⟨transaction, resolvedDeps, resolvedInputs⟩)
      else (seen, .error (.unknown unknown))

/-- `transactions.iter().map(resolve_transaction).collect::<Result<Vec<_>, _>>()`
with one shared `seen_inputs`: the first failure stops the iteration. -/
def resolveTransactions : List Transaction → List OutPoint →
    List OutPoint × Except UnresolvableError (List ResolvedTransaction)
  | [], seen => (seen, .ok [])
  | transaction :: rest, seen =>
    match resolveTransaction cellProvider headerProvider transaction seen with
    | (seen, .error error) => (seen, .error error)
    | (seen, .ok resolved) =>
      match resolveTransactions rest seen with
      | (seen, .error error) => (seen, .error error)
      | (seen, .ok later) => (seen, .ok (resolved :: later))

end Resolve

end Ckb
