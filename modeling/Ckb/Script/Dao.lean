import Ckb.Script.Verify

/-!
# The NervosDAO lock of the script verifier

`verify_dao` lets the outputs of a transaction hold no more than the sum of
the maximum withdraws of the inputs of the DAO lock group it runs for.
`DaoInput` is what it has checked of one input before it counts that input's
maximum withdraw, read off `daoWithdraw` step by step.

Under a hasher without collisions, every DAO-locked input cell lies in a lock
group whose script has the DAO code hash, so `verify` runs `verify_dao` for it:
`verify_daoLocked_input` is that fact, from which the capacity bound of DAO
withdrawals follows.  The group's script need not be the cell's own lock:
`Script::hash` does not tell apart scripts that split their arguments
differently.
-/

namespace Ckb

namespace TransactionScriptsVerifier

/-- What `verify_dao` has checked of the input at `inputIndex` when it counts
`maximumWithdraw` for it. -/
inductive DaoInput (context : ScriptContext) (verifier : TransactionScriptsVerifier)
    (inputIndex : Nat) (maximumWithdraw : Capacity) : Prop
  | intro {witness : Witness} {withdrawHeaderHash : H256} {withdrawBlockNumber : Nat}
      {withdrawDaoStats : DaoStats} {input : CellInput} {resolvedInput : ResolvedOutPoint}
      {cellMeta : CellMeta} {output : CellOutput} {depositHeader : Header}
      {depositBlockNumber : Nat} {depositDaoStats : DaoStats}
      (witnessed : verifier.rtx.transaction.witnesses[inputIndex]? = some witness)
      (threeArguments : witness.length = 3)
      (named : H256.fromSlice (witness.getD 2 []) = some withdrawHeaderHash)
      (withdrawn : verifier.blockData withdrawHeaderHash =
        some (withdrawBlockNumber, withdrawDaoStats))
      (spent : verifier.rtx.transaction.inputs[inputIndex]? = some input)
      (resolved : verifier.rtx.resolvedInputs[inputIndex]? = some resolvedInput)
      (isCell : resolvedInput.cell.cellMeta = some cellMeta)
      (loaded : context.lazyLoadCellOutput cellMeta = .ok output)
      (daoLocked : output.lock.codeHash = daoCodeHash)
      (depositedIn : resolvedInput.header = some depositHeader)
      (deposited : verifier.blockData depositHeader.hash =
        some (depositBlockNumber, depositDaoStats))
      (ordered : depositBlockNumber < withdrawBlockNumber)
      (locked : minimalSince depositBlockNumber withdrawBlockNumber ≤ input.since.toNat)
      (calculated : calculateMaximumWithdraw output depositDaoStats withdrawDaoStats =
        .ok maximumWithdraw) :
      DaoInput context verifier inputIndex maximumWithdraw

variable {context : ScriptContext} {verifier : TransactionScriptsVerifier}

theorem daoWithdraw_ok {inputIndex : Nat} {maximumWithdraw : Capacity}
    (success : daoWithdraw context verifier inputIndex = .ok maximumWithdraw) :
    DaoInput context verifier inputIndex maximumWithdraw := by
  simp only [daoWithdraw, Except.bind_eq_ok, Except.getDM_error_eq_ok, Except.ite_error_eq_ok,
    Except.error_bind, Except.mapError_eq_ok, Except.pure_eq_ok, Prod.exists, not_not, not_le,
    not_lt] at success
  obtain ⟨witness, witnessed, threeArguments, withdrawHeaderHash, named, withdrawBlockNumber,
    withdrawDaoStats, withdrawn, input, spent, resolvedInput, resolved, cellMeta, isCell, output,
    loaded, daoLocked, depositHeader, depositedIn, depositBlockNumber, depositDaoStats, deposited,
    ordered, -, locked, maximum, calculated, -, rfl⟩ := success
  exact ⟨witnessed, threeArguments, named, withdrawn, spent, resolved, isCell, loaded, daoLocked,
    depositedIn, deposited, ordered, locked, calculated⟩

theorem maximumOutputCapacities_ok {indices : List Nat} {start total : Capacity}
    (success : maximumOutputCapacities context verifier indices start = .ok total) :
    ∃ maxima, List.Forall₂ (fun inputIndex maximum =>
        daoWithdraw context verifier inputIndex = .ok maximum) indices maxima ∧
      total.shannons = start.shannons + (maxima.map Capacity.shannons).sum := by
  induction indices generalizing start with
  | nil =>
      simp only [maximumOutputCapacities, Except.ok.injEq] at success
      subst success
      exact ⟨[], .nil, by simp⟩
  | cons inputIndex rest induction =>
      simp only [maximumOutputCapacities, Except.bind_eq_ok, Except.mapError_eq_ok] at success
      obtain ⟨maximum, withdrawn, next, added, tail⟩ := success
      obtain ⟨maxima, withdraws, total⟩ := induction tail
      have nextShannons : next.shannons = start.shannons + maximum.shannons :=
        (Capacity.safeAdd_eq_ok_iff.mp added).1
      refine ⟨maximum :: maxima, .cons withdrawn withdraws, ?_⟩
      rw [total, nextShannons, List.map_cons, List.sum_cons]
      omega

theorem verifyDao_ok {group : ScriptGroup} {maxCycles cycles : Nat}
    (success : verifyDao context verifier group maxCycles = .ok cycles) :
    ∃ maxima outputs, List.Forall₂ (DaoInput context verifier) group.inputIndices maxima ∧
      verifier.rtx.transaction.outputsCapacity = .ok outputs ∧
      outputs.shannons ≤ (maxima.map Capacity.shannons).sum := by
  simp only [verifyDao, outputCapacities, Except.bind_eq_ok, Except.ite_error_eq_ok,
    Except.error_bind, Except.mapError_eq_ok, Except.pure_eq_ok, not_lt] at success
  obtain ⟨-, lockCycles, -, -, -, maximum, counted, outputs, summed, covered, -⟩ := success
  obtain ⟨maxima, withdraws, total⟩ := maximumOutputCapacities_ok counted
  refine ⟨maxima, outputs, withdraws.imp fun _ _ withdrawn => daoWithdraw_ok withdrawn, summed, ?_⟩
  have fromZero : maximum.shannons = (maxima.map Capacity.shannons).sum := by
    rw [total]
    simp [Capacity.zero]
  rw [← fromZero]
  exact covered

/-- A DAO-locked input cell of a transaction whose scripts pass is counted in
a lock group that `verify_dao` has checked: the group's script has the cell's
code hash, and the outputs' capacity is at most the sum of the maximum
withdraws of the group's inputs.  The hasher is assumed free of collisions, as
the source assumes of blake2b. -/
theorem verify_daoLocked_input
    (collisionFree : Function.Injective (Function.uncurry context.blake2b))
    {rtx : ResolvedTransaction} {maxCycles cycles : Nat}
    (built : new context rtx = .ok verifier) (passed : verify context verifier maxCycles = .ok cycles)
    {index : Nat} {resolvedInput : ResolvedOutPoint} {cellMeta : CellMeta} {output : CellOutput}
    (found : rtx.resolvedInputs[index]? = some resolvedInput)
    (isCell : resolvedInput.cell.cellMeta = some cellMeta)
    (loaded : context.lazyLoadCellOutput cellMeta = .ok output)
    (daoLocked : output.lock.codeHash = daoCodeHash) :
    ∃ group, (context.scriptHash output.lock, group) ∈ verifier.lockGroups ∧
      group.script.codeHash = output.lock.codeHash ∧ index ∈ group.inputIndices ∧
      ∃ maxima outputs, List.Forall₂ (DaoInput context verifier) group.inputIndices maxima ∧
        rtx.transaction.outputsCapacity = .ok outputs ∧
        outputs.shannons ≤ (maxima.map Capacity.shannons).sum := by
  obtain ⟨sameRtx, -, keyed, grouped⟩ := new_ok built
  obtain ⟨group, member, counted⟩ := grouped index resolvedInput cellMeta output found isCell loaded
  have ownCode : group.script.codeHash = output.lock.codeHash :=
    ScriptContext.codeHash_eq_of_scriptHash collisionFree (keyed _ member)
  have listed : group ∈ (verifier.lockGroups ++ verifier.typeGroups).map Prod.snd :=
    List.mem_map.mpr ⟨_, List.mem_append_left _ member, rfl⟩
  obtain ⟨cycle, verified⟩ := (verify_ok passed).2 group listed
  have daoGroup : group.script.codeHash = daoCodeHash := by
    rw [ownCode]
    exact daoLocked
  rw [verifyGroup, if_pos daoGroup] at verified
  rw [← sameRtx]
  exact ⟨group, member, ownCode, counted, verifyDao_ok verified⟩

end TransactionScriptsVerifier

end Ckb
