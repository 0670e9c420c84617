import Ckb.Lib.Bits
import Ckb.Script.Dao

/-!
# The transaction verifier

A model of `verification/src/transaction_verifier.rs`: the checks a resolved
transaction passes before it enters a block, in the order
`TransactionVerifier::verify` runs them, and the since locks of RFC 0017.

The median time context is the function `blockMedianTime`: the median time
before the main-chain block at a height, `0` where the number index has no
block (the source's `unwrap_or(0)`); its cache changes no answer.  The store
behind the script verifier is the `ScriptContext` of `Script.Verify`.  A
panic, including an arithmetic overflow under `overflow-checks`, is the error
`panic` with its message.
-/

namespace Ckb

inductive TransactionError where
  | capacityOverflow
  | insufficientCellCapacity
  | duplicateDeps
  | empty
  | outputsSumOverflow
  | invalidScript
  | scriptFailure (error : ScriptError)
  | invalidSignature
  | version
  | immature
  | invalidSince
  | cellbaseImmaturity
  | exceededMaximumBlockBytes
  /-- A panic of the source, with its message. -/
  | panic (message : String)
  deriving DecidableEq, Repr

def TransactionError.ofCapacity : CapacityError → TransactionError
  | .overflow => .capacityOverflow

/-- `map_err(TransactionError::ScriptFailure)`; a panic inside the script
verifier stays a panic. -/
def TransactionError.ofScript : ScriptError → TransactionError
  | .panic message => .panic message
  | error => .scriptFailure error

def VersionVerifier.verify (transaction : Transaction) : Except TransactionError Unit :=
  if transaction.version ≠ txVersion then .error .version else pure ()

def SizeVerifier.verify (transaction : Transaction) (blockBytesLimit : Nat) :
    Except TransactionError Unit :=
  if transaction.serializedSize ≤ blockBytesLimit then pure () else .error .exceededMaximumBlockBytes

def EmptyVerifier.verify (transaction : Transaction) : Except TransactionError Unit :=
  if transaction.isEmpty then .error .empty else pure ()

structure MaturityVerifier where
  transaction : ResolvedTransaction
  blockNumber : Nat
  cellbaseMaturity : Nat

namespace MaturityVerifier

variable (verifier : MaturityVerifier)

/-- The closure `cellbase_immature`; `&&` does not look at the block info of
a cell that is not a cellbase. -/
def cellbaseImmature (cellMeta : CellMeta) : Except TransactionError Bool :=
  if cellMeta.cellbase then do
    let blockInfo ← cellMeta.blockInfo.getDM
      (.error (.panic "cell meta should have block number when transaction verify"))
    if u64Bound ≤ blockInfo.number + verifier.cellbaseMaturity then
      .error (.panic "attempt to add with overflow")
    pure (decide (verifier.blockNumber < blockInfo.number + verifier.cellbaseMaturity))
  else pure false

/-- `input_immature_spend() || dep_immature_spend()`: the deps are looked at
only when no input is immature. -/
def verify : Except TransactionError Unit := do
  let inputImmatureSpend ← (verifier.transaction.resolvedInputs.filterMap
    fun resolved => resolved.cell.cellMeta).anyM verifier.cellbaseImmature
  if inputImmatureSpend then .error .cellbaseImmaturity
  let depImmatureSpend ← (verifier.transaction.resolvedDeps.filterMap
    fun resolved => resolved.cell.cellMeta).anyM verifier.cellbaseImmature
  if depImmatureSpend then .error .cellbaseImmaturity

end MaturityVerifier

/-- `seen.insert(id)` over the deps, stopping at the first that was seen:
`deps().iter().all(|id| seen.insert(id))`. -/
def allInserted : List OutPoint → List OutPoint → Bool
  | _, [] => true
  | seen, dep :: rest =>
    let (fresh, seen) := insertSeen seen dep
    fresh && allInserted seen rest

def DuplicateDepsVerifier.verify (transaction : Transaction) : Except TransactionError Unit :=
  if allInserted [] transaction.deps then pure () else .error .duplicateDeps

namespace CapacityVerifier

/-- The sum check, which the source skips for resolved cellbases and DAO
withdrawals. -/
def verifySum (rtx : ResolvedTransaction) : Except TransactionError Unit := do
  let inputsTotal ← rtx.inputsCapacity.mapError TransactionError.ofCapacity
  let outputsTotal ← rtx.transaction.outputsCapacity.mapError TransactionError.ofCapacity
  if inputsTotal.shannons < outputsTotal.shannons then .error .outputsSumOverflow

def verifyOutput (output : CellOutput) : Except TransactionError Unit := do
  let lack ← output.isLackOfCapacity.mapError TransactionError.ofCapacity
  if lack then .error .insufficientCellCapacity

def verify (rtx : ResolvedTransaction) : Except TransactionError Unit := do
  if !(rtx.isCellbase || rtx.transaction.isWithdrawingFromDao) then verifySum rtx
  rtx.transaction.outputs.forM verifyOutput

end CapacityVerifier

/-! ## Since -/

def lockTypeFlag : UInt64 := (1 : UInt64) <<< 63

def metricTypeFlagMask : UInt64 := 0x6000000000000000

def valueMask : UInt64 := 0x00ffffffffffffff

def remainFlagsBits : UInt64 := 0x1f00000000000000

inductive SinceMetric where
  | blockNumber (value : Nat)
  | epochNumber (value : Nat)
  | timestamp (value : Nat)
  deriving DecidableEq, Repr

/-- The since field of an input read as RFC 0017 flags and a value. -/
structure Since where
  value : UInt64
  deriving DecidableEq, Repr

namespace Since

def isAbsolute (since : Since) : Bool :=
  since.value &&& lockTypeFlag == 0

def isRelative (since : Since) : Bool :=
  !since.isAbsolute

def flagsIsValid (since : Since) : Bool :=
  (since.value &&& remainFlagsBits == 0) &&
    (since.value &&& metricTypeFlagMask != (0b01100000 : UInt64) <<< 56)

/-- `extract_metric`; the product `value * 1000` of a timestamp is checked. -/
def extractMetric (since : Since) : Except TransactionError (Option SinceMetric) :=
  let value := (since.value &&& valueMask).toNat
  let metric := since.value &&& metricTypeFlagMask
  if metric = 0x0000000000000000 then pure (some (.blockNumber value))
  else if metric = 0x2000000000000000 then pure (some (.epochNumber value))
  else if metric = 0x4000000000000000 then
    if u64Bound ≤ value * 1000 then .error (.panic "attempt to multiply with overflow")
    else pure (some (.timestamp (value * 1000)))
  else pure none

end Since

structure SinceVerifier where
  rtx : ResolvedTransaction
  /-- `block_median_time`: the median time before the main-chain block at a
  height, `0` where there is none. -/
  blockMedianTime : Nat → Nat
  blockNumber : Nat
  epochNumber : Nat

namespace SinceVerifier

variable (verifier : SinceVerifier)

/-- Fail with `immature` when the lock's threshold is above what it is
compared with. -/
def immatureIf (unmet : Prop) [Decidable unmet] : Except TransactionError Unit :=
  if unmet then .error .immature else pure ()

def verifyAbsoluteLock (since : Since) : Except TransactionError Unit :=
  if since.isAbsolute then
    since.extractMetric >>= fun
      | some (.blockNumber blockNumber) => immatureIf (verifier.blockNumber < blockNumber)
      | some (.epochNumber epochNumber) => immatureIf (verifier.epochNumber < epochNumber)
      | some (.timestamp timestamp) =>
        let tipTimestamp := verifier.blockMedianTime (verifier.blockNumber - 1)
        immatureIf (tipTimestamp < timestamp)
      | none => .error .invalidSince
  else pure ()

/-- A threshold of a relative lock: the cell's own number, epoch or median
time plus the since value, a checked `u64` sum. -/
def relativeThreshold (start value : Nat) : Except TransactionError Nat :=
  if u64Bound ≤ start + value then .error (.panic "attempt to add with overflow")
  else pure (start + value)

def verifyRelativeLock (since : Since) (cellMeta : CellMeta) : Except TransactionError Unit :=
  if since.isRelative then do
    -- a cell still in the pool has no block info
    let blockInfo ← cellMeta.blockInfo.getDM (.error .immature)
    let metric ← since.extractMetric
    match metric with
    | some (.blockNumber blockNumber) =>
      let threshold ← relativeThreshold blockInfo.number blockNumber
      immatureIf (verifier.blockNumber < threshold)
    | some (.epochNumber epochNumber) =>
      let threshold ← relativeThreshold blockInfo.epoch epochNumber
      immatureIf (verifier.epochNumber < threshold)
    | some (.timestamp timestamp) =>
      let cellMedianTimestamp := verifier.blockMedianTime (blockInfo.number - 1)
      let currentMedianTime := verifier.blockMedianTime (verifier.blockNumber - 1)
      let threshold ← relativeThreshold cellMedianTimestamp timestamp
      immatureIf (currentMedianTime < threshold)
    | none => .error .invalidSince
  else pure ()

/-- The check of one input: a resolved cell with a non-zero since. -/
def verifyInput (resolvedOutPoint : ResolvedOutPoint) (input : CellInput) :
    Except TransactionError Unit :=
  match resolvedOutPoint.cell.cellMeta with
  | none => pure ()
  | some cellMeta =>
    -- ignore empty since
    if input.since = 0 then pure ()
    else
      let since : Since := ⟨input.since⟩
      if !since.flagsIsValid then .error .invalidSince
      else do
        verifier.verifyAbsoluteLock since
        verifier.verifyRelativeLock since cellMeta

def verify : Except TransactionError Unit :=
  (verifier.rtx.resolvedInputs.zip verifier.rtx.transaction.inputs).forM fun pair =>
    verifier.verifyInput pair.1 pair.2

end SinceVerifier

/-- `ScriptVerifier::verify`: build the scripts verifier, then run it. -/
def ScriptVerifier.verify (context : ScriptContext) (rtx : ResolvedTransaction) (maxCycles : Nat) :
    Except TransactionError Nat :=
  (TransactionScriptsVerifier.new context rtx >>= fun verifier =>
    verifier.verify context maxCycles).mapError TransactionError.ofScript

/-- What `TransactionVerifier::new` is given. -/
structure TransactionVerifier where
  rtx : ResolvedTransaction
  blockMedianTime : Nat → Nat
  blockNumber : Nat
  epochNumber : Nat
  /-- `Consensus::max_block_bytes`. -/
  maxBlockBytes : Nat
  /-- `Consensus::cellbase_maturity`. -/
  cellbaseMaturity : Nat
  scriptContext : ScriptContext

namespace TransactionVerifier

variable (verifier : TransactionVerifier)

def maturity : MaturityVerifier :=
  ⟨verifier.rtx, verifier.blockNumber, verifier.cellbaseMaturity⟩

def since : SinceVerifier :=
  ⟨verifier.rtx, verifier.blockMedianTime, verifier.blockNumber, verifier.epochNumber⟩

def verify (maxCycles : Nat) : Except TransactionError Nat := do
  VersionVerifier.verify verifier.rtx.transaction
  SizeVerifier.verify verifier.rtx.transaction verifier.maxBlockBytes
  EmptyVerifier.verify verifier.rtx.transaction
  verifier.maturity.verify
  CapacityVerifier.verify verifier.rtx
  DuplicateDepsVerifier.verify verifier.rtx.transaction
  verifier.since.verify
  ScriptVerifier.verify verifier.scriptContext verifier.rtx maxCycles

/-- The eight checks `verify` runs, each of which has passed. -/
structure Passes (maxCycles cycles : Nat) : Prop where
  version : VersionVerifier.verify verifier.rtx.transaction = .ok ()
  size : SizeVerifier.verify verifier.rtx.transaction verifier.maxBlockBytes = .ok ()
  empty : EmptyVerifier.verify verifier.rtx.transaction = .ok ()
  maturity : verifier.maturity.verify = .ok ()
  capacity : CapacityVerifier.verify verifier.rtx = .ok ()
  duplicateDeps : DuplicateDepsVerifier.verify verifier.rtx.transaction = .ok ()
  since : verifier.since.verify = .ok ()
  script : ScriptVerifier.verify verifier.scriptContext verifier.rtx maxCycles = .ok cycles

variable {verifier}

theorem verify_ok {maxCycles cycles : Nat} (success : verifier.verify maxCycles = .ok cycles) :
    verifier.Passes maxCycles cycles := by
  simp only [verify, Except.bind_eq_ok] at success
  obtain ⟨⟨⟩, version, ⟨⟩, size, ⟨⟩, empty, ⟨⟩, maturity, ⟨⟩, capacity, ⟨⟩, duplicateDeps, ⟨⟩,
    since, script⟩ := success
  exact ⟨version, size, empty, maturity, capacity, duplicateDeps, since, script⟩

end TransactionVerifier

/-! ## What each check establishes -/

theorem EmptyVerifier.verify_ok {transaction : Transaction}
    (success : EmptyVerifier.verify transaction = .ok ()) :
    transaction.inputs ≠ [] ∧ transaction.outputs ≠ [] := by
  unfold EmptyVerifier.verify at success
  by_cases empty : transaction.isEmpty = true
  · simp [empty] at success
  · simpa [Transaction.isEmpty] using empty

namespace CapacityVerifier

theorem verifySum_ok {rtx : ResolvedTransaction} (success : verifySum rtx = .ok ()) :
    ∃ inputs outputs, rtx.inputsCapacity = .ok inputs ∧
      rtx.transaction.outputsCapacity = .ok outputs ∧ outputs.shannons ≤ inputs.shannons := by
  simp only [verifySum, Except.bind_eq_ok, Except.mapError_eq_ok, Except.ite_error_eq_ok,
    not_lt] at success
  obtain ⟨inputs, summedInputs, outputs, summedOutputs, covered, -⟩ := success
  exact ⟨inputs, outputs, summedInputs, summedOutputs, covered⟩

theorem verifyOutput_ok {output : CellOutput} (success : verifyOutput output = .ok ()) :
    output.isLackOfCapacity = .ok false := by
  simp only [verifyOutput, Except.bind_eq_ok, Except.mapError_eq_ok] at success
  obtain ⟨lack, lacking, fits⟩ := success
  cases lack with
  | true => simp at fits
  | false => exact lacking

theorem verify_ok {rtx : ResolvedTransaction} (success : verify rtx = .ok ()) :
    ((rtx.isCellbase || rtx.transaction.isWithdrawingFromDao) = false →
      ∃ inputs outputs, rtx.inputsCapacity = .ok inputs ∧
        rtx.transaction.outputsCapacity = .ok outputs ∧ outputs.shannons ≤ inputs.shannons) ∧
    ∀ output ∈ rtx.transaction.outputs, output.isLackOfCapacity = .ok false := by
  unfold verify at success
  by_cases skipped : (rtx.isCellbase || rtx.transaction.isWithdrawingFromDao) = true
  · rw [if_neg (by simp [skipped])] at success
    refine ⟨fun notSkipped => absurd skipped (by simp [notSkipped]), ?_⟩
    intro output member
    exact verifyOutput_ok (Except.forM_eq_ok.mp success output member)
  · have checked : (!(rtx.isCellbase || rtx.transaction.isWithdrawingFromDao)) = true := by
      simpa using skipped
    rw [if_pos checked, Except.bind_eq_ok] at success
    obtain ⟨⟨⟩, summed, outputsChecked⟩ := success
    refine ⟨fun _ => verifySum_ok summed, ?_⟩
    intro output member
    exact verifyOutput_ok (Except.forM_eq_ok.mp outputsChecked output member)

end CapacityVerifier

theorem SinceVerifier.verify_ok {verifier : SinceVerifier} (success : verifier.verify = .ok ()) :
    ∀ resolvedOutPoint input,
      (resolvedOutPoint, input) ∈ verifier.rtx.resolvedInputs.zip verifier.rtx.transaction.inputs →
      verifier.verifyInput resolvedOutPoint input = .ok () :=
  fun _ _ member => Except.forM_eq_ok.mp success _ member

theorem ScriptVerifier.verify_ok {context : ScriptContext} {rtx : ResolvedTransaction}
    {maxCycles cycles : Nat} (success : ScriptVerifier.verify context rtx maxCycles = .ok cycles) :
    ∃ scripts, TransactionScriptsVerifier.new context rtx = .ok scripts ∧
      scripts.verify context maxCycles = .ok cycles := by
  simp only [ScriptVerifier.verify, Except.mapError_eq_ok, Except.bind_eq_ok] at success
  exact success

/-! ## Since values with clear flags -/

namespace Since

theorem isAbsolute_of_lt {since : Since} (small : since.value.toNat < 2 ^ 56) :
    since.isAbsolute = true := by
  have cleared : since.value &&& lockTypeFlag = 0 := by
    apply UInt64.toNat_inj.mp
    rw [UInt64.toNat_and, UInt64.toNat_zero]
    exact Bits.land_eq_zero_of_lt small (by decide)
  simp [isAbsolute, cleared]

theorem extractMetric_of_lt {since : Since} (small : since.value.toNat < 2 ^ 56) :
    since.extractMetric = pure (some (.blockNumber since.value.toNat)) := by
  have blockMetric : since.value &&& metricTypeFlagMask = 0 := by
    apply UInt64.toNat_inj.mp
    rw [UInt64.toNat_and, UInt64.toNat_zero]
    exact Bits.land_eq_zero_of_lt small (by decide)
  have lowBits : valueMask.toNat = 2 ^ 56 - 1 := by decide
  have wholeValue : (since.value &&& valueMask).toNat = since.value.toNat := by
    rw [UInt64.toNat_and, lowBits]
    exact Bits.land_low_of_lt small
  simp only [extractMetric, blockMetric, wholeValue, if_true]

end Since

/-- A non-zero since below `2 ^ 56` is an absolute block-number lock: the
since verifier passes it only at a height of at least its value. -/
theorem SinceVerifier.verifyInput_block_number {verifier : SinceVerifier}
    {resolvedOutPoint : ResolvedOutPoint} {input : CellInput} {cellMeta : CellMeta}
    (success : verifier.verifyInput resolvedOutPoint input = .ok ())
    (isCell : resolvedOutPoint.cell.cellMeta = some cellMeta)
    (nonzero : input.since ≠ 0) (small : input.since.toNat < 2 ^ 56) :
    input.since.toNat ≤ verifier.blockNumber := by
  have absolute : (⟨input.since⟩ : Since).isAbsolute = true := Since.isAbsolute_of_lt small
  have metric := Since.extractMetric_of_lt (show (⟨input.since⟩ : Since).value.toNat < 2 ^ 56 from small)
  simp only [verifyInput, isCell, if_neg nonzero] at success
  by_cases valid : (⟨input.since⟩ : Since).flagsIsValid = true
  · simp only [valid, Bool.not_true, Bool.false_eq_true, if_false, Except.bind_eq_ok] at success
    obtain ⟨⟨⟩, absoluteLock, -⟩ := success
    simp only [verifyAbsoluteLock, absolute, if_true, metric, pure_bind, immatureIf,
      Except.ite_error_eq_ok, not_lt] at absoluteLock
    exact absoluteLock.1
  · simp [valid] at success

/-- An absolute timestamp lock whose value in milliseconds leaves `u64`:
`extract_metric` multiplies before any comparison, and the product
overflows. -/
theorem SinceVerifier.verifyInput_timestamp_overflow {verifier : SinceVerifier}
    {resolvedOutPoint : ResolvedOutPoint} {input : CellInput} {cellMeta : CellMeta}
    (isCell : resolvedOutPoint.cell.cellMeta = some cellMeta)
    (absolute : input.since &&& lockTypeFlag = 0)
    (timestamp : input.since &&& metricTypeFlagMask = 0x4000000000000000)
    (reserved : input.since &&& remainFlagsBits = 0)
    (large : u64Bound ≤ (input.since &&& valueMask).toNat * 1000) :
    verifier.verifyInput resolvedOutPoint input =
      .error (.panic "attempt to multiply with overflow") := by
  have nonzero : input.since ≠ 0 := by
    intro zero
    rw [zero, UInt64.zero_and] at timestamp
    exact absurd timestamp (by decide)
  have valid : (⟨input.since⟩ : Since).flagsIsValid = true := by
    simp only [Since.flagsIsValid, reserved, timestamp]
    decide
  have overflows : (⟨input.since⟩ : Since).extractMetric =
      .error (.panic "attempt to multiply with overflow") := by
    simp only [Since.extractMetric, timestamp]
    rw [if_neg (by decide), if_neg (by decide), if_pos trivial, if_pos large]
  have isAbsolute : (⟨input.since⟩ : Since).isAbsolute = true := by
    simp [Since.isAbsolute, absolute]
  simp only [verifyInput, isCell, if_neg nonzero, valid, Bool.not_true, Bool.false_eq_true,
    if_false, verifyAbsoluteLock, isAbsolute, if_true, overflows, Except.error_bind]

/-- A transaction whose first input is such a lock makes the since verifier
panic. -/
theorem SinceVerifier.verify_timestamp_overflow_panics {verifier : SinceVerifier}
    {resolvedOutPoint : ResolvedOutPoint} {input : CellInput} {cellMeta : CellMeta}
    {rest : List (ResolvedOutPoint × CellInput)}
    (first : verifier.rtx.resolvedInputs.zip verifier.rtx.transaction.inputs =
      (resolvedOutPoint, input) :: rest)
    (isCell : resolvedOutPoint.cell.cellMeta = some cellMeta)
    (absolute : input.since &&& lockTypeFlag = 0)
    (timestamp : input.since &&& metricTypeFlagMask = 0x4000000000000000)
    (reserved : input.since &&& remainFlagsBits = 0)
    (large : u64Bound ≤ (input.since &&& valueMask).toNat * 1000) :
    verifier.verify = .error (.panic "attempt to multiply with overflow") := by
  rw [SinceVerifier.verify, first]
  simp only [List.forM,
    SinceVerifier.verifyInput_timestamp_overflow isCell absolute timestamp reserved large,
    Except.error_bind]

section Samples

/-- A cell committed in the genesis block. -/
def genesisCellMeta : CellMeta :=
  ⟨none, ⟨⟨0⟩, 0⟩, some ⟨0, 0⟩, false, ⟨0⟩, none⟩

/-- An input locked until the largest timestamp a since value can name. -/
def farTimestampInput : CellInput :=
  ⟨⟨none, some ⟨⟨0⟩, 0⟩⟩, 0x40ffffffffffffff⟩

/-- The since check of a transaction spending that cell with that input, at
height one. -/
def farTimestampVerifier : SinceVerifier :=
  ⟨⟨⟨0, [], [farTimestampInput], [], [], ⟨1⟩⟩, [], [.cellOnly genesisCellMeta]⟩,
    fun _ => 0, 1, 0⟩

end Samples

/-- The since value `0x40ff_ffff_ffff_ffff`, an absolute timestamp lock with
valid flags, makes `SinceVerifier::verify` panic. -/
theorem farTimestamp_since_panics :
    u64Bound ≤ (farTimestampInput.since &&& valueMask).toNat * 1000 ∧
      farTimestampVerifier.verify = .error (.panic "attempt to multiply with overflow") :=
  ⟨by decide, SinceVerifier.verify_timestamp_overflow_panics rfl rfl (by decide) (by decide)
    (by decide) (by decide)⟩

end Ckb
