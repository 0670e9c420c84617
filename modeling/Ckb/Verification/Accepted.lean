import Ckb.Core.BlockResolution
import Ckb.Verification.TransactionVerifier
import Ckb.Lib.Forall2

/-!
# What an accepted transaction guarantees

A transaction resolved by `resolve_transaction` and accepted by
`TransactionVerifier::verify` creates no capacity: the capacity verifier
bounds the outputs of an ordinary transaction by its input cells, and for a
DAO withdrawal, which it skips, `verify_dao` bounds them by the maximum
withdraws of a DAO lock group.  The VM runs of the other scripts are the
arbitrary functions of the `ScriptContext`.

The lock period of a DAO withdrawal is checked by `verify_dao` against the raw
since of the input.  The since verifier reads the same field as flags and a
value, and enforces it as an absolute block number only when the flags are
clear; a relative since passes both checks long before the period ends.
-/

namespace Ckb

/-- The resolved inputs of a transaction that passed the checks include the
cell of a DAO-locked input, whenever some input is the issuing-DAO marker. -/
theorem TransactionScriptsVerifier.daoLocked_of_issuingDao {context : ScriptContext}
    {scripts : TransactionScriptsVerifier} {maxCycles cycles : Nat}
    (passed : scripts.verify context maxCycles = .ok cycles)
    (issuing : ResolvedOutPoint.issuingDao ∈ scripts.rtx.resolvedInputs) :
    ∃ (index : Nat) (resolvedInput : ResolvedOutPoint) (cellMeta : CellMeta) (output : CellOutput),
      scripts.rtx.resolvedInputs[index]? = some resolvedInput ∧
      resolvedInput.cell.cellMeta = some cellMeta ∧
      context.lazyLoadCellOutput cellMeta = .ok output ∧ output.lock.codeHash = daoCodeHash := by
  have checked := checkResolvedInputs_ok (verify_ok passed).1 _ issuing
  have valid : validDaoWithdrawTransaction context scripts.rtx.resolvedInputs = .ok true := by
    rcases checked with isCell | ⟨-, valid⟩
    · simp [ResolvedOutPoint.issuingDao, ResolvedCell.cellMeta] at isCell
    · exact valid
  obtain ⟨resolvedInput, member, cellMeta, output, isCell, loaded, daoLocked⟩ :=
    validDaoWithdrawTransaction_eq_true valid
  obtain ⟨index, found⟩ := List.mem_iff_getElem?.mp member
  exact ⟨index, resolvedInput, cellMeta, output, found, isCell, loaded, daoLocked⟩

/-- What an accepted transaction guarantees of its capacity: the outputs'
capacity sum succeeds; if no input is the issuing-DAO marker, it is at most
the capacity of the resolved input cells; and if one is, some DAO lock group
has inputs, each a DAO-locked cell counted at `calculate_maximum_withdraw` of
its deposit and withdraw stats, and their sum bounds the outputs. -/
def TransactionVerifier.CreatesNoCapacity (verifier : TransactionVerifier) : Prop :=
  ∃ outputs, verifier.rtx.transaction.outputsCapacity = .ok outputs ∧
    (verifier.rtx.transaction.isWithdrawingFromDao = false →
      outputs.shannons ≤ ((verifier.rtx.resolvedInputs.filterMap fun input =>
        input.cell.cellMeta).map fun cellMeta => cellMeta.capacity.shannons).sum) ∧
    (verifier.rtx.transaction.isWithdrawingFromDao = true →
      ∃ scripts, TransactionScriptsVerifier.new verifier.scriptContext verifier.rtx = .ok scripts ∧
        ∃ entry ∈ scripts.lockGroups, entry.2.script.codeHash = daoCodeHash ∧
          entry.2.inputIndices ≠ [] ∧
          ∃ maxima, List.Forall₂ (TransactionScriptsVerifier.DaoInput verifier.scriptContext scripts)
              entry.2.inputIndices maxima ∧
            outputs.shannons ≤ (maxima.map Capacity.shannons).sum)

/-- No transaction creates capacity: a non-cellbase transaction resolved by
`resolve_transaction` and accepted by `TransactionVerifier::verify`, under a
blake2b free of collisions. -/
theorem verify_creates_no_capacity {cellProvider : OutPoint → CellStatus}
    {headerProvider : OutPoint → HeaderStatus} {tx : Transaction} {seen seen' : List OutPoint}
    {verifier : TransactionVerifier} {maxCycles cycles : Nat}
    (resolved : resolveTransaction cellProvider headerProvider tx seen = (seen', .ok verifier.rtx))
    (notCellbase : tx.isCellbase = false)
    (collisionFree : Function.Injective (Function.uncurry verifier.scriptContext.blake2b))
    (accepted : verifier.verify maxCycles = .ok cycles) :
    verifier.CreatesNoCapacity := by
  have passes := TransactionVerifier.verify_ok accepted
  have fromTx : verifier.rtx.transaction = tx := (resolveTransaction_ok resolved).transaction_eq
  obtain ⟨sameLength, markerResolved⟩ := resolveTransaction_resolvedInputs notCellbase resolved
  obtain ⟨sumChecked, -⟩ := CapacityVerifier.verify_ok passes.capacity
  obtain ⟨scripts, built, passed⟩ := ScriptVerifier.verify_ok passes.script
  unfold TransactionVerifier.CreatesNoCapacity
  cases withdrawing : verifier.rtx.transaction.isWithdrawingFromDao with
  | false =>
      -- the capacity verifier checks the sum: the transaction has inputs
      have hasInputs : verifier.rtx.isCellbase = false := by
        have nonempty := (EmptyVerifier.verify_ok passes.empty).1
        rw [fromTx, ← List.length_pos_iff, ← sameLength, List.length_pos_iff] at nonempty
        simpa [ResolvedTransaction.isCellbase] using nonempty
      have notSkipped : (verifier.rtx.isCellbase || verifier.rtx.transaction.isWithdrawingFromDao) =
          false := by
        rw [hasInputs, withdrawing]
        rfl
      obtain ⟨inputs, outputs, inputsSummed, outputsSummed, covered⟩ := sumChecked notSkipped
      refine ⟨outputs, outputsSummed, fun _ => ?_, fun never => (by cases never)⟩
      rw [← ResolvedTransaction.inputsCapacity_eq_ok inputsSummed]
      exact covered
  | true =>
      -- the marker needs a DAO-locked input, whose group `verify_dao` checks
      have sameRtx : scripts.rtx = verifier.rtx := (TransactionScriptsVerifier.new_ok built).1
      have issuing : ResolvedOutPoint.issuingDao ∈ scripts.rtx.resolvedInputs := by
        rw [sameRtx]
        rw [fromTx] at withdrawing
        exact markerResolved withdrawing
      obtain ⟨index, resolvedInput, cellMeta, output, found, isCell, loaded, daoLocked⟩ :=
        TransactionScriptsVerifier.daoLocked_of_issuingDao passed issuing
      rw [sameRtx] at found
      obtain ⟨group, member, ownCode, counted, maxima, outputs, withdraws, outputsSummed, covered⟩ :=
        TransactionScriptsVerifier.verify_daoLocked_input collisionFree built passed found isCell
          loaded daoLocked
      have daoGroup : group.script.codeHash = daoCodeHash := by
        rw [ownCode]
        exact daoLocked
      refine ⟨outputs, outputsSummed, fun never => (by cases never), fun _ => ?_⟩
      exact ⟨scripts, built, _, member, daoGroup, List.ne_nil_of_mem counted, maxima, withdraws,
        covered⟩

section Samples

/-- A hasher without collisions: the code hash paired with an encoding of
the bytes. -/
def pairedBlake2b (codeHash : H256) (bytes : List UInt8) : H256 :=
  ⟨Nat.pair codeHash.value (Encodable.encode (bytes.map UInt8.toNat))⟩

theorem pairedBlake2b_injective : Function.Injective (Function.uncurry pairedBlake2b) := by
  rintro ⟨⟨code⟩, bytes⟩ ⟨⟨code'⟩, bytes'⟩ same
  simp only [Function.uncurry_apply_pair, pairedBlake2b, H256.mk.injEq, Nat.pair_eq_pair,
    Encodable.encode_inj] at same
  obtain ⟨rfl, sameBytes⟩ := same
  rw [List.map_injective_iff.mpr (fun _ _ => UInt8.toNat_inj.mp) sameBytes]

/-- A deposit of 100 CKBytes locked by the NervosDAO with a one-byte pubkey
hash, made at height 1 and withdrawn against the header at height 2. -/
def daoLock : Script := ⟨[[0]], daoCodeHash⟩

def depositHeader : Header := ⟨1, 0, 0, 0, ⟨0⟩, ⟨1⟩⟩

def withdrawHeader : Header := ⟨2, 0, 0, 0, ⟨1⟩, ⟨2⟩⟩

def depositOutPoint : OutPoint := ⟨some ⟨1⟩, some ⟨⟨7⟩, 0⟩⟩

def depositCellMeta : CellMeta :=
  ⟨some ⟨⟨10000000000⟩, [], daoLock, none⟩, ⟨⟨7⟩, 0⟩, some ⟨1, 0⟩, false, ⟨10000000000⟩, none⟩

/-- The dep that brings the withdraw header into the block data. -/
def withdrawHeaderDep : OutPoint := ⟨some ⟨2⟩, none⟩

/-- The withdrawal: the deposit and the issuing-DAO marker as inputs, one
output of the whole 100 CKBytes, and a witness whose third argument is the
withdraw header's hash. -/
def daoWithdrawal (since : UInt64) : Transaction :=
  ⟨0, [withdrawHeaderDep], [⟨depositOutPoint, since⟩, ⟨OutPoint.newIssuingDao, 0⟩],
    [⟨⟨10000000000⟩, [], ⟨[], ⟨0⟩⟩, none⟩], [[[0], [0], List.replicate 31 0 ++ [2]], []], ⟨9⟩⟩

def depositCell (outPoint : OutPoint) : CellStatus :=
  if outPoint = depositOutPoint then .live depositCellMeta else .unspecified

def depositHeaders (outPoint : OutPoint) : HeaderStatus :=
  if outPoint = depositOutPoint then .live depositHeader
  else if outPoint = withdrawHeaderDep then .live withdrawHeader
  else .unspecified

/-- The store and VM behind the samples: every header has the same DAO rate,
and the default lock passes at no cost. -/
def daoContext : ScriptContext :=
  ⟨pairedBlake2b, fun _ => ⟨0⟩, fun _ _ => none, fun _ => some ⟨10000000000000000, 0⟩,
    fun _ _ _ => .error .vmError, fun _ _ => .ok 0⟩

/-- The withdrawal as `resolve_transaction` resolves it, verified at a height. -/
def withdrawalVerifier (since : UInt64) (blockNumber : Nat) : TransactionVerifier :=
  ⟨⟨daoWithdrawal since, [⟨.null, some withdrawHeader⟩],
      [⟨.cell depositCellMeta, some depositHeader⟩, .issuingDao]⟩,
    fun _ => 0, blockNumber, 0, 1000000, 0, daoContext⟩

end Samples

theorem daoWithdrawal_creates_no_capacity :
    resolveTransaction depositCell depositHeaders (daoWithdrawal 8) [] =
        ([depositOutPoint], .ok (withdrawalVerifier 8 8).rtx) ∧
      (daoWithdrawal 8).isCellbase = false ∧
      Function.Injective (Function.uncurry (withdrawalVerifier 8 8).scriptContext.blake2b) ∧
      (withdrawalVerifier 8 8).verify 1000000 = .ok 5000 ∧
      (withdrawalVerifier 8 8).CreatesNoCapacity := by
  have resolved : resolveTransaction depositCell depositHeaders (daoWithdrawal 8) [] =
      ([depositOutPoint], .ok (withdrawalVerifier 8 8).rtx) := by decide
  have notCellbase : (daoWithdrawal 8).isCellbase = false := by decide
  have accepted : (withdrawalVerifier 8 8).verify 1000000 = .ok 5000 := by decide
  exact ⟨resolved, notCellbase, pairedBlake2b_injective, accepted,
    verify_creates_no_capacity resolved notCellbase pairedBlake2b_injective accepted⟩


/-- The input at `index` waits out its lock period: the deposit header of its
resolved cell and the withdraw header its witness names, by their block data,
give a `minimal_since` that the block's height reaches. -/
def TransactionVerifier.KeepsLockPeriod (verifier : TransactionVerifier) (index : Nat) : Prop :=
  ∃ (resolvedInput : ResolvedOutPoint) (depositHeader : Header) (witness : Witness)
    (withdrawHeaderHash : H256) (depositBlockNumber withdrawBlockNumber : Nat)
    (depositDaoStats withdrawDaoStats : DaoStats),
    verifier.rtx.resolvedInputs[index]? = some resolvedInput ∧
    resolvedInput.header = some depositHeader ∧
    verifier.scriptContext.blockData (verifier.rtx.resolvedInputs ++ verifier.rtx.resolvedDeps)
      depositHeader.hash = some (depositBlockNumber, depositDaoStats) ∧
    verifier.rtx.transaction.witnesses[index]? = some witness ∧
    H256.fromSlice (witness.getD 2 []) = some withdrawHeaderHash ∧
    verifier.scriptContext.blockData (verifier.rtx.resolvedInputs ++ verifier.rtx.resolvedDeps)
      withdrawHeaderHash = some (withdrawBlockNumber, withdrawDaoStats) ∧
    minimalSince depositBlockNumber withdrawBlockNumber ≤ verifier.blockNumber

/-- A DAO-locked input whose since has every flag clear keeps the lock period:
`verify_dao` compares the raw since with `minimal_since`, and the since
verifier reads such a since as an absolute block number, which the block's
height reaches. -/
theorem verify_keeps_lock_period_of_block_number_since {verifier : TransactionVerifier}
    {maxCycles cycles : Nat}
    (collisionFree : Function.Injective (Function.uncurry verifier.scriptContext.blake2b))
    (accepted : verifier.verify maxCycles = .ok cycles)
    {index : Nat} {resolvedInput : ResolvedOutPoint} {cellMeta : CellMeta} {output : CellOutput}
    (found : verifier.rtx.resolvedInputs[index]? = some resolvedInput)
    (isCell : resolvedInput.cell.cellMeta = some cellMeta)
    (loaded : verifier.scriptContext.lazyLoadCellOutput cellMeta = .ok output)
    (daoLocked : output.lock.codeHash = daoCodeHash)
    {input : CellInput} (spent : verifier.rtx.transaction.inputs[index]? = some input)
    (blockNumberSince : input.since.toNat < 2 ^ 56) :
    verifier.KeepsLockPeriod index := by
  have passes := TransactionVerifier.verify_ok accepted
  obtain ⟨scripts, built, passed⟩ := ScriptVerifier.verify_ok passes.script
  obtain ⟨sameRtx, sameData, -, -⟩ := TransactionScriptsVerifier.new_ok built
  obtain ⟨group, -, -, counted, maxima, -, withdraws, -, -⟩ :=
    TransactionScriptsVerifier.verify_daoLocked_input collisionFree built passed found isCell loaded
      daoLocked
  obtain ⟨maximum, -, daoInput⟩ := withdraws.exists_of_mem_left counted
  rcases daoInput with ⟨witnessed, -, named, withdrawn, spentAgain, resolvedAgain, -, -, -,
    depositedIn, deposited, -, locked, -⟩
  rw [sameRtx, spent, Option.some.injEq] at spentAgain
  rw [sameRtx, found, Option.some.injEq] at resolvedAgain
  subst spentAgain resolvedAgain
  rw [sameRtx] at witnessed
  rw [sameData] at deposited withdrawn
  -- the since verifier has read the same since as an absolute block number
  have paired : (resolvedInput, input) ∈
      verifier.since.rtx.resolvedInputs.zip verifier.since.rtx.transaction.inputs :=
    List.mem_of_getElem? (List.getElem?_zip_eq_some.mpr ⟨found, spent⟩)
  have sinceChecked := SinceVerifier.verify_ok passes.since resolvedInput input paired
  have nonzero : input.since ≠ 0 := by
    intro zero
    rw [zero] at locked
    simp [minimalSince] at locked
  have reached := SinceVerifier.verifyInput_block_number sinceChecked isCell nonzero blockNumberSince
  exact ⟨_, _, _, _, _, _, _, _, found, depositedIn, deposited, witnessed, named, withdrawn,
    le_trans locked reached⟩

theorem daoWithdrawal_keeps_lock_period :
    Function.Injective (Function.uncurry (withdrawalVerifier 8 8).scriptContext.blake2b) ∧
      (withdrawalVerifier 8 8).verify 1000000 = .ok 5000 ∧
      (withdrawalVerifier 8 8).rtx.resolvedInputs[0]? =
        some ⟨.cell depositCellMeta, some depositHeader⟩ ∧
      (withdrawalVerifier 8 8).scriptContext.lazyLoadCellOutput depositCellMeta =
        .ok ⟨⟨10000000000⟩, [], daoLock, none⟩ ∧
      daoLock.codeHash = daoCodeHash ∧
      (withdrawalVerifier 8 8).rtx.transaction.inputs[0]? = some ⟨depositOutPoint, 8⟩ ∧
      (8 : UInt64).toNat < 2 ^ 56 ∧
      (withdrawalVerifier 8 8).KeepsLockPeriod 0 := by
  have accepted : (withdrawalVerifier 8 8).verify 1000000 = .ok 5000 := by decide
  have found : (withdrawalVerifier 8 8).rtx.resolvedInputs[0]? =
      some ⟨.cell depositCellMeta, some depositHeader⟩ := rfl
  have loaded : (withdrawalVerifier 8 8).scriptContext.lazyLoadCellOutput depositCellMeta =
      .ok ⟨⟨10000000000⟩, [], daoLock, none⟩ := rfl
  have spent : (withdrawalVerifier 8 8).rtx.transaction.inputs[0]? = some ⟨depositOutPoint, 8⟩ :=
    rfl
  have small : (8 : UInt64).toNat < 2 ^ 56 := by decide
  exact ⟨pairedBlake2b_injective, accepted, found, loaded, rfl, spent, small,
    verify_keeps_lock_period_of_block_number_since pairedBlake2b_injective accepted found rfl
      loaded rfl spent small⟩

/-- A DAO withdrawal whose since is `0x8000000000000000`, a relative lock of
zero blocks after the deposit cell, passes every check at height 3: its
deposit is at height 1 and its withdraw header at height 2, so its lock
period ends at `minimal_since = 8`. -/
theorem verify_accepts_relative_since_before_lock_period :
    resolveTransaction depositCell depositHeaders (daoWithdrawal 0x8000000000000000) [] =
        ([depositOutPoint], .ok (withdrawalVerifier 0x8000000000000000 3).rtx) ∧
      ((TransactionScriptsVerifier.new daoContext
          (withdrawalVerifier 0x8000000000000000 3).rtx).map fun scripts =>
        scripts.lockGroups.map Prod.snd) = .ok [⟨daoLock, [0], []⟩] ∧
      (withdrawalVerifier 0x8000000000000000 3).verify 1000000 = .ok 5000 ∧
      (withdrawalVerifier 0x8000000000000000 3).blockNumber <
        minimalSince depositHeader.number withdrawHeader.number :=
  ⟨by decide, by decide, by decide, by decide⟩

end Ckb
