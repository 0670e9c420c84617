import Ckb.Lib.Checked
import Ckb.Lib.Except

/-!
# Core data: capacities, scripts, out-points and transactions

A model of the data types of `core/src/transaction.rs`, `core/src/script.rs`
and `util/occupied-capacity`.  A `Capacity` is a `u64` amount of shannons; its
`safe_*` operations are the checked operations of `Checked` at the bound
`2 ^ 64`.  Hashes are opaque 256-bit values: the model never computes a hash,
so a transaction carries its hash as a field, as the source caches it.

`OccupiedCapacity` is derived field by field in the source; the instances for
`CellOutput`, `Script`, byte strings and words are written out here in the
same order of checked additions.
-/

namespace Ckb

structure H256 where
  value : Nat
  deriving DecidableEq, Repr

/-- `DAO_CODE_HASH`: "NERVOSDAOCODE0001" in hex. -/
def daoCodeHash : H256 := ⟨0x4e4552564f5344414f434f444530303031⟩

/-- `ISSUING_DAO_HASH`: "NERVOSDAOINPUT0001" in hex. -/
def issuingDaoHash : H256 := ⟨0x4e4552564f5344414f494e50555430303031⟩

def u64Bound : Nat := 2 ^ 64

inductive CapacityError where
  | overflow
  deriving DecidableEq, Repr

/-- `Capacity`: an amount of shannons. -/
structure Capacity where
  shannons : Nat
  deriving DecidableEq, Repr

structure Ratio where
  numer : Nat
  denom : Nat
  deriving DecidableEq, Repr

namespace Capacity

def zero : Capacity := ⟨0⟩

@[simp] theorem shannons_zero : zero.shannons = 0 := rfl

/-- Shannons in a byte (`BYTE_SHANNONS`). -/
def byteShannons : Nat := 100000000

private def ofChecked : Option Nat → Except CapacityError Capacity
  | some shannons => .ok ⟨shannons⟩
  | none => .error .overflow

def bytes (count : Nat) : Except CapacityError Capacity :=
  ofChecked (Checked.mul u64Bound count byteShannons)

def safeAdd (self rhs : Capacity) : Except CapacityError Capacity :=
  ofChecked (Checked.add u64Bound self.shannons rhs.shannons)

def safeSub (self rhs : Capacity) : Except CapacityError Capacity :=
  ofChecked (Checked.sub self.shannons rhs.shannons)

/-- `Capacity::safe_mul_ratio`: multiply, then divide (a zero denominator is
the `checked_div` failure). -/
def safeMulRatio (self : Capacity) (ratio : Ratio) : Except CapacityError Capacity :=
  ofChecked ((Checked.mul u64Bound self.shannons ratio.numer).bind fun product =>
    if ratio.denom = 0 then none else some (product / ratio.denom))

def sum (capacities : List Capacity) : Except CapacityError Capacity :=
  ofChecked (Checked.sum u64Bound 0 (capacities.map shannons))

private theorem ofChecked_eq_ok_iff {result : Option Nat} {capacity : Capacity} :
    ofChecked result = .ok capacity ↔ result = some capacity.shannons := by
  cases result with
  | none => simp [ofChecked]
  | some shannons =>
      cases capacity
      simp [ofChecked]

theorem sum_eq_ok_iff {capacities : List Capacity} {total : Capacity} :
    sum capacities = .ok total ↔
      total.shannons = (capacities.map shannons).sum ∧
        (capacities.map shannons).sum < u64Bound := by
  have zeroBelow : 0 < u64Bound := by decide
  rw [sum, ofChecked_eq_ok_iff, Checked.sum_eq_some_iff zeroBelow]
  simp

theorem safeAdd_eq_ok_iff {self rhs total : Capacity} :
    self.safeAdd rhs = .ok total ↔
      total.shannons = self.shannons + rhs.shannons ∧
        self.shannons + rhs.shannons < u64Bound := by
  rw [safeAdd, ofChecked_eq_ok_iff, Checked.add_eq_some_iff]

end Capacity

structure Script where
  args : List (List UInt8)
  codeHash : H256
  deriving DecidableEq, Repr

structure CellOutPoint where
  txHash : H256
  index : Nat
  deriving DecidableEq, Repr

/-- `OutPoint`: an optional block hash and an optional cell. -/
structure OutPoint where
  blockHash : Option H256
  cell : Option CellOutPoint
  deriving DecidableEq, Repr

namespace OutPoint

def null : OutPoint := ⟨none, none⟩

def newIssuingDao : OutPoint := ⟨none, some ⟨issuingDaoHash, 0⟩⟩

def isNull (outPoint : OutPoint) : Bool :=
  outPoint.cell.isNone && outPoint.blockHash.isNone

def isIssuingDao (outPoint : OutPoint) : Bool :=
  outPoint.blockHash.isNone &&
    (outPoint.cell.map fun cell => cell.txHash == issuingDaoHash && cell.index == 0).getD false

end OutPoint

structure CellInput where
  previousOutput : OutPoint
  since : UInt64
  deriving DecidableEq, Repr

structure CellOutput where
  capacity : Capacity
  data : List UInt8
  lock : Script
  type_ : Option Script
  deriving DecidableEq, Repr

abbrev Witness := List (List UInt8)

/-- `Transaction`, with its cached hash. -/
structure Transaction where
  version : Nat
  deps : List OutPoint
  inputs : List CellInput
  outputs : List CellOutput
  witnesses : List Witness
  hash : H256
  deriving DecidableEq, Repr

def txVersion : Nat := 0

namespace Transaction

/-- `Transaction::is_cellbase`: one input, one output, one witness, and the
input spends the null out-point. -/
def isCellbase (tx : Transaction) : Bool :=
  tx.inputs.length == 1 && tx.outputs.length == 1 && tx.witnesses.length == 1 &&
    (tx.inputs.head?.map fun input => input.previousOutput.isNull).getD false

def isWithdrawingFromDao (tx : Transaction) : Bool :=
  tx.inputs.any fun input => input.previousOutput.isIssuingDao

def inputPts (tx : Transaction) : List OutPoint :=
  tx.inputs.map CellInput.previousOutput

def isEmpty (tx : Transaction) : Bool :=
  tx.inputs.isEmpty || tx.outputs.isEmpty

def outputsCapacity (tx : Transaction) : Except CapacityError Capacity :=
  Capacity.sum (tx.outputs.map CellOutput.capacity)

end Transaction

/-! ## Serialized sizes and occupied capacities -/

def Script.serializedSize (script : Script) : Nat :=
  (script.args.map List.length).sum + 32

def OutPoint.serializedSize (outPoint : OutPoint) : Nat :=
  (if outPoint.cell.isSome then 36 else 0) + (if outPoint.blockHash.isSome then 32 else 0)

def CellOutput.serializedSize (output : CellOutput) : Nat :=
  8 + output.data.length + output.lock.serializedSize +
    (output.type_.map Script.serializedSize).getD 0

def Transaction.serializedSize (tx : Transaction) : Nat :=
  4 + (tx.deps.map OutPoint.serializedSize).sum +
    (tx.inputs.map fun input => input.previousOutput.serializedSize + 8).sum +
    (tx.outputs.map CellOutput.serializedSize).sum +
    (tx.witnesses.map fun witness => (witness.map List.length).sum).sum

/-- The derived `occupied_capacity` of a structure: a checked sum, from zero,
of its fields' occupied capacities, each of which may itself fail. -/
def occupiedOfFields (fields : List (Except CapacityError Capacity)) :
    Except CapacityError Capacity :=
  fields.foldlM (fun total field => field >>= total.safeAdd) Capacity.zero

/-- `<Script as OccupiedCapacity>`: the arguments (a vector of byte strings),
then the 32-byte code hash. -/
def Script.occupiedCapacity (script : Script) : Except CapacityError Capacity :=
  occupiedOfFields
    [occupiedOfFields (script.args.map fun arg => Capacity.bytes arg.length),
      Capacity.bytes 32]

/-- `<CellOutput as OccupiedCapacity>`: the 8-byte capacity, the data, the
lock and the optional type script. -/
def CellOutput.occupiedCapacity (output : CellOutput) : Except CapacityError Capacity :=
  occupiedOfFields
    [Capacity.bytes 8, Capacity.bytes output.data.length, output.lock.occupiedCapacity,
      (output.type_.map Script.occupiedCapacity).getD (.ok Capacity.zero)]

def CellOutput.isLackOfCapacity (output : CellOutput) : Except CapacityError Bool :=
  output.occupiedCapacity.map fun occupied => decide (output.capacity.shannons < occupied.shannons)

theorem Capacity.bytes_eq_ok {count : Nat} {capacity : Capacity}
    (success : Capacity.bytes count = .ok capacity) :
    capacity.shannons = count * Capacity.byteShannons := by
  unfold Capacity.bytes at success
  cases product : Checked.mul u64Bound count Capacity.byteShannons with
  | none =>
      rw [product] at success
      cases success
  | some shannons =>
      rw [product] at success
      obtain ⟨rfl, -⟩ := Checked.mul_eq_some_iff.mp product
      cases success
      rfl

private theorem foldlM_safeAdd_eq_ok {fields : List (Except CapacityError Capacity)}
    {start total : Capacity}
    (success : fields.foldlM (fun total field => field >>= total.safeAdd) start = .ok total) :
    ∃ values : List Capacity, fields = values.map .ok ∧
      total.shannons = start.shannons + (values.map Capacity.shannons).sum := by
  -- induction on the fields, the running total generalized
  induction fields generalizing start with
  | nil =>
      cases success
      exact ⟨[], rfl, by simp⟩
  | cons field rest induction =>
      rw [List.foldlM_cons, Except.bind_eq_ok] at success
      obtain ⟨subtotal, added, later⟩ := success
      rw [Except.bind_eq_ok] at added
      obtain ⟨value, fieldOk, summed⟩ := added
      obtain ⟨values, restOk, total⟩ := induction later
      have subtotalSum := (Capacity.safeAdd_eq_ok_iff.mp summed).1
      refine ⟨value :: values, by rw [fieldOk, restOk]; rfl, ?_⟩
      rw [total, subtotalSum, List.map_cons, List.sum_cons]
      omega

theorem occupiedOfFields_eq_ok {fields : List (Except CapacityError Capacity)} {total : Capacity}
    (success : occupiedOfFields fields = .ok total) :
    ∃ values : List Capacity, fields = values.map .ok ∧
      total.shannons = (values.map Capacity.shannons).sum := by
  obtain ⟨values, fieldsOk, summed⟩ := foldlM_safeAdd_eq_ok success
  exact ⟨values, fieldsOk, by simpa using summed⟩

theorem CellOutput.occupiedCapacity_eq_ok {output : CellOutput} {occupied : Capacity}
    (success : output.occupiedCapacity = .ok occupied) :
    ∃ lockOccupied typeOccupied : Capacity, output.lock.occupiedCapacity = .ok lockOccupied ∧
      (output.type_.map Script.occupiedCapacity).getD (.ok Capacity.zero) = .ok typeOccupied ∧
      occupied.shannons = (8 + output.data.length) * Capacity.byteShannons +
        lockOccupied.shannons + typeOccupied.shannons := by
  obtain ⟨values, fieldsOk, summed⟩ := occupiedOfFields_eq_ok success
  match values, fieldsOk with
  | [], fieldsOk | [_], fieldsOk | [_, _], fieldsOk | [_, _, _], fieldsOk
  | _ :: _ :: _ :: _ :: _ :: _, fieldsOk => simp at fieldsOk
  | [capacityField, dataField, lockField, typeField], fieldsOk =>
      simp only [List.map_cons, List.map_nil, List.cons.injEq] at fieldsOk
      obtain ⟨capacityOk, dataOk, lockOk, typeOk, -⟩ := fieldsOk
      refine ⟨lockField, typeField, lockOk, typeOk, ?_⟩
      have capacityBytes := Capacity.bytes_eq_ok capacityOk
      have dataBytes := Capacity.bytes_eq_ok dataOk
      simp only [List.map_cons, List.map_nil, List.sum_cons, List.sum_nil] at summed
      rw [capacityBytes, dataBytes] at summed
      calc occupied.shannons
          = 8 * Capacity.byteShannons + (output.data.length * Capacity.byteShannons +
              (lockField.shannons + (typeField.shannons + 0))) := summed
        _ = (8 + output.data.length) * Capacity.byteShannons + lockField.shannons +
              typeField.shannons := by ring

theorem CellOutput.occupiedCapacity_data {output : CellOutput} {data : List UInt8}
    {occupied dataOccupied : Capacity} (before : output.occupiedCapacity = .ok occupied)
    (after : { output with data }.occupiedCapacity = .ok dataOccupied) :
    dataOccupied.shannons + output.data.length * Capacity.byteShannons =
      occupied.shannons + data.length * Capacity.byteShannons := by
  obtain ⟨lockOccupied, typeOccupied, lockOk, typeOk, occupiedSum⟩ :=
    CellOutput.occupiedCapacity_eq_ok before
  obtain ⟨lockOccupied', typeOccupied', lockOk', typeOk', dataSum⟩ :=
    CellOutput.occupiedCapacity_eq_ok after
  rw [lockOk, Except.ok.injEq] at lockOk'
  rw [typeOk, Except.ok.injEq] at typeOk'
  rw [occupiedSum, dataSum, ← lockOk', ← typeOk']
  ring

theorem CellOutput.isLackOfCapacity_eq_ok_false {output : CellOutput}
    (fits : output.isLackOfCapacity = .ok false) :
    ∃ occupied : Capacity, output.occupiedCapacity = .ok occupied ∧
      occupied.shannons ≤ output.capacity.shannons := by
  unfold CellOutput.isLackOfCapacity at fits
  cases occupiedOk : output.occupiedCapacity with
  | error error =>
      rw [occupiedOk] at fits
      cases fits
  | ok occupied =>
      rw [occupiedOk] at fits
      simp only [Except.map, Except.ok.injEq, decide_eq_false_iff_not, not_lt] at fits
      exact ⟨occupied, rfl, fits⟩

end Ckb
