import Ckb.Lib.Except
import Ckb.Lib.Entries
import Ckb.Core.Cell

/-!
# Script verification

A model of `TransactionScriptsVerifier` (`script/src/verify.rs`) and of
`calculate_maximum_withdraw` (`util/dao/src/lib.rs`).

The verifier groups the inputs by lock script and the inputs and outputs by
type script, checks that every resolved input is a cell or an issuing-DAO
input of a transaction that withdraws from the DAO, and runs each group: the
NervosDAO lock in the verifier itself (`verify_dao`), every other script in
the VM.  The VM, the hashes and the reads from the store are outside this
model and are the parameters collected in `ScriptContext`: a VM run is any
function from the program, the group and the cycle limit to a cycle count or
an error.

A panic of the source is the error `panic` with its message.  Hash maps are
functions where they are only read, and lists of entries in first-insertion
order where they are iterated.
-/

namespace Ckb

/-- The DAO fields of a `BlockExt`. -/
structure DaoStats where
  accumulatedRate : Nat
  accumulatedCapacity : Nat
  deriving DecidableEq, Repr

/-- `calculate_maximum_withdraw`: the counted part of the capacity grows by
the ratio of the accumulated rates; the `u128` product cannot overflow and
`as u64` truncates the quotient.  The division comes after the two checked
steps; at a zero deposit rate Lean's quotient is zero where the source
panics, and `daoWithdraw` raises that panic once this has succeeded. -/
def calculateMaximumWithdraw (output : CellOutput) (depositDaoStats withdrawDaoStats : DaoStats) :
    Except CapacityError Capacity := do
  let occupiedCapacity ← output.occupiedCapacity
  let countedCapacity ← output.capacity.safeSub occupiedCapacity
  let withdrawCountedCapacity :=
    countedCapacity.shannons * withdrawDaoStats.accumulatedRate / depositDaoStats.accumulatedRate
  Capacity.safeAdd ⟨withdrawCountedCapacity % u64Bound⟩ occupiedCapacity

inductive ScriptError where
  | noScript
  | invalidReferenceIndex
  | argumentError
  | validationFailure (code : Int8)
  | vmError
  | exceededMaximumCycles
  | invalidIssuingDaoInput
  | ioError
  | invalidDaoDepositHeader
  | invalidDaoWithdrawHeader
  | capacityOverflow
  | interestCalculation
  | invalidSince
  | invalidInterest
  | invalidPubkeyHash
  | secp
  | argumentNumber
  | noWitness
  /-- A panic of the source, with its message. -/
  | panic (message : String)
  deriving DecidableEq, Repr

structure ScriptGroup where
  script : Script
  inputIndices : List Nat
  outputIndices : List Nat
  deriving DecidableEq, Repr

/-- What the script verifier reads from outside the transaction. -/
structure ScriptContext where
  /-- The blake2b hasher of `Script::hash`, fed the 32 bytes of a code hash
  and then more bytes. -/
  blake2b : H256 → List UInt8 → H256
  /-- `CellOutput::data_hash`. -/
  dataHash : List UInt8 → H256
  /-- `ChainStore::get_cell_output`. -/
  getCellOutput : H256 → Nat → Option CellOutput
  /-- The DAO stats of `DataLoader::get_block_ext`. -/
  getBlockExt : H256 → Option DaoStats
  /-- A VM run of a program for a script group, under a cycle limit. -/
  run : List UInt8 → ScriptGroup → Nat → Except ScriptError Nat
  /-- `verify_default_lock`: the VM run of the bundled
  `secp256k1_blake160_sighash_all` program. -/
  runDefaultLock : ScriptGroup → Nat → Except ScriptError Nat

def daoLockPeriodBlocks : Nat := 10

def daoMaturityBlocks : Nat := 5

def systemDaoCycles : Nat := 5000

/-- `minimal_since` of `verify_dao`: the first block after the maturity
period that follows the withdraw header, cut short at the end of the lock
period the deposit is in. -/
def minimalSince (depositBlockNumber withdrawBlockNumber : Nat) : Nat :=
  let windowleft :=
    daoLockPeriodBlocks - (withdrawBlockNumber - depositBlockNumber) % daoLockPeriodBlocks
  withdrawBlockNumber + min daoMaturityBlocks windowleft + 1

/-- `H256::from_slice`: exactly 32 bytes, read big-endian. -/
def H256.fromSlice (bytes : List UInt8) : Option H256 :=
  if bytes.length = 32 then some ⟨bytes.foldl (fun value byte => value * 256 + byte.toNat) 0⟩
  else none

namespace ScriptContext

variable (context : ScriptContext)

/-- `Script::hash`: the arguments are fed to the hasher one after another,
with no length between them, so scripts that split the same bytes into
arguments differently share their hash. -/
def scriptHash (script : Script) : H256 :=
  context.blake2b script.codeHash script.args.flatten

theorem codeHash_eq_of_scriptHash {context : ScriptContext}
    (collisionFree : Function.Injective (Function.uncurry context.blake2b)) {script script' : Script}
    (same : context.scriptHash script = context.scriptHash script') :
    script.codeHash = script'.codeHash :=
  (Prod.mk.inj (collisionFree same)).1

def lazyLoadCellOutput (cellMeta : CellMeta) : Except ScriptError CellOutput :=
  match cellMeta.cellOutput with
  | some output => .ok output
  | none =>
    match context.getCellOutput cellMeta.outPoint.txHash cellMeta.outPoint.index with
    | some output => .ok output
    | none => .error (.panic "lazy load cell output from store")

/-- `entry(hash).or_insert_with(|| ScriptGroup::new(script))` followed by
`change` of the entry. -/
def addToGroup (hash : H256) (script : Script) (change : ScriptGroup → ScriptGroup)
    (groups : List (H256 × ScriptGroup)) : List (H256 × ScriptGroup) :=
  Entries.upsert hash ⟨script, [], []⟩ change groups

def pushInput (index : Nat) (group : ScriptGroup) : ScriptGroup :=
  { group with inputIndices := group.inputIndices ++ [index] }

def pushOutput (index : Nat) (group : ScriptGroup) : ScriptGroup :=
  { group with outputIndices := group.outputIndices ++ [index] }

/-- The input loop of `TransactionScriptsVerifier::new`: each resolved cell
joins the group of its lock and the group of its type script. -/
def groupInputs (lockGroups typeGroups : List (H256 × ScriptGroup)) :
    List (Nat × ResolvedOutPoint) →
      Except ScriptError (List (H256 × ScriptGroup) × List (H256 × ScriptGroup))
  | [] => .ok (lockGroups, typeGroups)
  | (index, resolvedInput) :: rest =>
    match resolvedInput.cell.cellMeta with
    | none => groupInputs lockGroups typeGroups rest
    | some cellMeta => do
      let output ← context.lazyLoadCellOutput cellMeta
      let typeGroups := match output.type_ with
        | none => typeGroups
        | some typeScript =>
          addToGroup (context.scriptHash typeScript) typeScript (pushInput index) typeGroups
      groupInputs (addToGroup (context.scriptHash output.lock) output.lock (pushInput index) lockGroups)
        typeGroups rest

/-- The output loop of `new`: each output with a type script joins its group. -/
def groupOutputs (typeGroups : List (H256 × ScriptGroup)) (outputs : List (Nat × CellOutput)) :
    List (H256 × ScriptGroup) :=
  outputs.foldl
    (fun typeGroups entry =>
      match entry.2.type_ with
      | none => typeGroups
      | some typeScript =>
        addToGroup (context.scriptHash typeScript) typeScript (pushOutput entry.1) typeGroups)
    typeGroups

/-- `binary_index`: each dep cell under the hash of its data; a later dep
with the same hash replaces an earlier one. -/
def binaryIndex (resolvedDeps : List ResolvedOutPoint) :
    Except ScriptError (H256 → Option Nat) :=
  resolvedDeps.zipIdx.foldlM
    (fun index entry =>
      match entry.1.cell.cellMeta with
      | none => .ok index
      | some cellMeta =>
        match cellMeta.dataHash with
        | some hash => .ok (Function.update index hash (some entry.2))
        | none =>
          (context.lazyLoadCellOutput cellMeta).map fun output =>
            Function.update index (context.dataHash output.data) (some entry.2))
    fun _ => none

/-- `block_data`: the headers of the resolved inputs, then of the deps, whose
block ext the store has. -/
def blockData (resolved : List ResolvedOutPoint) : H256 → Option (Nat × DaoStats) :=
  resolved.foldl
    (fun data resolvedOutPoint =>
      match resolvedOutPoint.header with
      | none => data
      | some header =>
        match context.getBlockExt header.hash with
        | none => data
        | some blockExt => Function.update data header.hash (some (header.number, blockExt)))
    fun _ => none

end ScriptContext

/-- `TransactionScriptsVerifier` after `new`: the resolved transaction and
what `new` computes from it. -/
structure TransactionScriptsVerifier where
  rtx : ResolvedTransaction
  /-- `binary_index`: the dep holding a program, by the hash of its data. -/
  binaryIndex : H256 → Option Nat
  /-- `block_data`: the number and DAO stats of a header, by its hash. -/
  blockData : H256 → Option (Nat × DaoStats)
  lockGroups : List (H256 × ScriptGroup)
  typeGroups : List (H256 × ScriptGroup)

def TransactionScriptsVerifier.new (context : ScriptContext) (rtx : ResolvedTransaction) :
    Except ScriptError TransactionScriptsVerifier := do
  let binaryIndex ← context.binaryIndex rtx.resolvedDeps
  let (lockGroups, typeGroups) ← context.groupInputs [] [] (rtx.resolvedInputs.zipIdx.map Prod.swap)
  let typeGroups := context.groupOutputs typeGroups (rtx.transaction.outputs.zipIdx.map Prod.swap)
  pure ⟨rtx, binaryIndex, context.blockData (rtx.resolvedInputs ++ rtx.resolvedDeps), lockGroups,
    typeGroups⟩

namespace TransactionScriptsVerifier

variable (context : ScriptContext) (verifier : TransactionScriptsVerifier)

/-- `valid_dao_withdraw_transaction`: some resolved input is a cell locked by
the NervosDAO. -/
def validDaoWithdrawTransaction : List ResolvedOutPoint → Except ScriptError Bool
  | [] => .ok false
  | resolvedInput :: rest =>
    match resolvedInput.cell.cellMeta with
    | none => validDaoWithdrawTransaction rest
    | some cellMeta => do
      let output ← context.lazyLoadCellOutput cellMeta
      if output.lock.codeHash = daoCodeHash then .ok true else validDaoWithdrawTransaction rest

/-- The first loop of `verify`: an issuing-DAO input needs a DAO-locked input
beside it, and every other resolved input must be a cell. -/
def checkResolvedInputs : List ResolvedOutPoint → Except ScriptError Unit
  | [] => .ok ()
  | resolvedInput :: rest =>
    if resolvedInput.cell.isIssuingDaoInput then
      match validDaoWithdrawTransaction context verifier.rtx.resolvedInputs with
      | .error error => .error error
      | .ok false => .error .invalidIssuingDaoInput
      | .ok true => checkResolvedInputs rest
    else if resolvedInput.cell.cellMeta.isNone then .error .noScript
    else checkResolvedInputs rest

/-- `extract_script`: the data of the dep cell whose data hash is the
script's code hash. -/
def extractScript (script : Script) : Except ScriptError (List UInt8) :=
  match (verifier.binaryIndex script.codeHash).bind fun index =>
      (verifier.rtx.resolvedDeps[index]?).bind fun dep => dep.cell.cellMeta with
  | none => .error .invalidReferenceIndex
  | some cellMeta => (context.lazyLoadCellOutput cellMeta).map CellOutput.data

/-- The body of the input loop of `verify_dao`: the most a DAO input may
withdraw, once its witness names a withdraw header and its since is at least
the end of the lock period. -/
def daoWithdraw (inputIndex : Nat) : Except ScriptError Capacity := do
  let witness ← verifier.rtx.transaction.witnesses[inputIndex]?.getDM (.error .noWitness)
  if witness.length ≠ 3 then .error .argumentNumber
  let withdrawHeaderHash ← (H256.fromSlice (witness.getD 2 [])).getDM (.error .ioError)
  let (withdrawBlockNumber, withdrawBlockExt) ←
    (verifier.blockData withdrawHeaderHash).getDM (.error .invalidDaoWithdrawHeader)
  let input ← verifier.rtx.transaction.inputs[inputIndex]?.getDM (.error .argumentError)
  let resolvedInput ← verifier.rtx.resolvedInputs[inputIndex]?.getDM (.error .argumentError)
  let cellMeta ← resolvedInput.cell.cellMeta.getDM (.error .argumentError)
  let output ← context.lazyLoadCellOutput cellMeta
  if output.lock.codeHash ≠ daoCodeHash then .error .argumentError
  let depositHeader ← resolvedInput.header.getDM (.error .invalidDaoDepositHeader)
  let (depositBlockNumber, depositBlockExt) ←
    (verifier.blockData depositHeader.hash).getDM (.error .invalidDaoDepositHeader)
  if withdrawBlockNumber ≤ depositBlockNumber then .error .invalidDaoWithdrawHeader
  let minimalSince := minimalSince depositBlockNumber withdrawBlockNumber
  if u64Bound ≤ minimalSince then .error (.panic "attempt to add with overflow")
  if input.since.toNat < minimalSince then .error .invalidSince
  let maximumWithdraw ← (calculateMaximumWithdraw output depositBlockExt withdrawBlockExt).mapError
    fun _ => .interestCalculation
  if depositBlockExt.accumulatedRate = 0 then .error (.panic "attempt to divide by zero")
  pure maximumWithdraw

/-- The input loop of `verify_dao`: the sum of the maximum withdraws. -/
def maximumOutputCapacities : List Nat → Capacity → Except ScriptError Capacity
  | [], total => .ok total
  | inputIndex :: rest, total => do
    let maximumWithdraw ← daoWithdraw context verifier inputIndex
    let total ← (total.safeAdd maximumWithdraw).mapError fun _ => .capacityOverflow
    maximumOutputCapacities rest total

/-- `try_fold(Capacity::zero(), Capacity::safe_add)` over the capacities of
the output metas, which `new` copies from the outputs. -/
def outputCapacities : Except ScriptError Capacity :=
  verifier.rtx.transaction.outputsCapacity.mapError fun _ => .capacityOverflow

def verifyDao (group : ScriptGroup) (maxCycles : Nat) : Except ScriptError Nat := do
  if group.script.args.length ≠ 1 then .error .argumentNumber
  let lockCycles ← context.runDefaultLock group maxCycles
  if u64Bound ≤ lockCycles + systemDaoCycles then .error .exceededMaximumCycles
  let cycles := lockCycles + systemDaoCycles
  if maxCycles < cycles then .error .exceededMaximumCycles
  let maximum ← maximumOutputCapacities context verifier group.inputIndices Capacity.zero
  let outputs ← outputCapacities verifier
  if maximum.shannons < outputs.shannons then .error .invalidInterest
  pure cycles

/-- One script group: the NervosDAO lock in the verifier, any other script in
the VM. -/
def verifyGroup (group : ScriptGroup) (maxCycles : Nat) : Except ScriptError Nat :=
  if group.script.codeHash = daoCodeHash then verifyDao context verifier group maxCycles
  else (extractScript context verifier group.script).bind fun program =>
    context.run program group maxCycles

/-- The group loop of `verify`, with the cycles spent so far. -/
def runGroups (maxCycles : Nat) : List ScriptGroup → Nat → Except ScriptError Nat
  | [], cycles => .ok cycles
  | group :: rest, cycles => do
    let cycle ← verifyGroup context verifier group maxCycles
    if u64Bound ≤ cycles + cycle then .error .exceededMaximumCycles
    if maxCycles < cycles + cycle then .error .exceededMaximumCycles
    runGroups maxCycles rest (cycles + cycle)

def verify (maxCycles : Nat) : Except ScriptError Nat := do
  checkResolvedInputs context verifier verifier.rtx.resolvedInputs
  runGroups context verifier maxCycles
    ((verifier.lockGroups ++ verifier.typeGroups).map Prod.snd) 0

end TransactionScriptsVerifier

/-! ## Script groups

The lock groups that `new` builds are stored under the hash of their own
script, and every resolved input cell is counted in the group of its lock. -/

/-- The group under `hash` counts the input at `index`. -/
def GroupHasInput (groups : List (H256 × ScriptGroup)) (hash : H256) (index : Nat) : Prop :=
  ∃ group, (hash, group) ∈ groups ∧ index ∈ group.inputIndices

namespace ScriptContext

variable (context : ScriptContext)

/-- Every group is stored under the hash of its script. -/
def GroupsKeyed (groups : List (H256 × ScriptGroup)) : Prop :=
  ∀ entry ∈ groups, context.scriptHash entry.2.script = entry.1

@[simp] theorem script_pushInput (index : Nat) (group : ScriptGroup) :
    (pushInput index group).script = group.script := rfl

@[simp] theorem inputIndices_pushInput (index : Nat) (group : ScriptGroup) :
    (pushInput index group).inputIndices = group.inputIndices ++ [index] := rfl

@[simp] theorem script_pushOutput (index : Nat) (group : ScriptGroup) :
    (pushOutput index group).script = group.script := rfl

variable {context}

theorem GroupsKeyed.addToGroup {groups : List (H256 × ScriptGroup)}
    (keyed : context.GroupsKeyed groups) (script : Script) {change : ScriptGroup → ScriptGroup}
    (keeps : ∀ group, (change group).script = group.script) :
    context.GroupsKeyed (addToGroup (context.scriptHash script) script change groups) := by
  unfold GroupsKeyed ScriptContext.addToGroup
  apply Entries.forall_mem_upsert
  · simp [keeps]
  · intro group keyedGroup
    rw [keeps]
    exact keyedGroup
  · exact keyed

theorem groupHasInput_addToGroup (hash : H256) (script : Script) (index : Nat)
    (groups : List (H256 × ScriptGroup)) :
    GroupHasInput (addToGroup hash script (pushInput index) groups) hash index := by
  obtain ⟨group, member⟩ := Entries.exists_mem_upsert hash ⟨script, [], []⟩ (pushInput index) groups
  exact ⟨_, member, by simp⟩

theorem GroupHasInput.addToGroup {groups : List (H256 × ScriptGroup)} {hash : H256} {index : Nat}
    (has : GroupHasInput groups hash index) (other : H256) (script : Script)
    (otherIndex : Nat) :
    GroupHasInput (addToGroup other script (pushInput otherIndex) groups) hash index := by
  obtain ⟨group, member, counted⟩ := has
  rcases Entries.exists_mem_upsert_of_mem member with kept | changed
  · exact ⟨group, kept, counted⟩
  · exact ⟨_, changed, by simp [counted]⟩

/-- What the input loop of `new` guarantees of the lock groups. -/
structure InputsGrouped (context : ScriptContext) (entries : List (Nat × ResolvedOutPoint))
    (lockGroups lockGroups' : List (H256 × ScriptGroup)) : Prop where
  keyed : context.GroupsKeyed lockGroups → context.GroupsKeyed lockGroups'
  kept : ∀ hash index, GroupHasInput lockGroups hash index →
    GroupHasInput lockGroups' hash index
  grouped : ∀ index resolvedInput, (index, resolvedInput) ∈ entries →
    ∀ cellMeta output, resolvedInput.cell.cellMeta = some cellMeta →
      context.lazyLoadCellOutput cellMeta = .ok output →
      GroupHasInput lockGroups' (context.scriptHash output.lock) index

theorem groupInputs_ok {lockGroups typeGroups lockGroups' typeGroups' : List (H256 × ScriptGroup)}
    {entries : List (Nat × ResolvedOutPoint)}
    (success : context.groupInputs lockGroups typeGroups entries = .ok (lockGroups', typeGroups')) :
    InputsGrouped context entries lockGroups lockGroups' := by
  induction entries generalizing lockGroups typeGroups with
  | nil =>
      simp only [groupInputs, Except.ok.injEq, Prod.mk.injEq] at success
      obtain ⟨rfl, rfl⟩ := success
      exact ⟨id, fun _ _ has => has, by simp⟩
  | cons entry rest induction =>
      obtain ⟨index, resolvedInput⟩ := entry
      cases isCell : resolvedInput.cell.cellMeta with
      | none =>
          simp only [groupInputs, isCell] at success
          have later := induction success
          refine ⟨later.keyed, later.kept, ?_⟩
          intro otherIndex other member cellMeta output otherCell loaded
          rcases List.mem_cons.mp member with same | tail
          · cases same
            rw [isCell] at otherCell
            cases otherCell
          · exact later.grouped otherIndex other tail cellMeta output otherCell loaded
      | some cellMeta =>
          simp only [groupInputs, isCell, Except.bind_eq_ok] at success
          obtain ⟨output, loaded, tail⟩ := success
          have later := induction tail
          refine ⟨?_, ?_, ?_⟩
          · intro keyed
            exact later.keyed (keyed.addToGroup output.lock fun _ => rfl)
          · intro hash otherIndex has
            exact later.kept _ _ (GroupHasInput.addToGroup has _ _ _)
          · intro otherIndex other member otherMeta otherOutput otherCell otherLoaded
            rcases List.mem_cons.mp member with same | tail
            · cases same
              rw [isCell] at otherCell
              cases otherCell
              rw [loaded] at otherLoaded
              cases otherLoaded
              exact later.kept _ _ (groupHasInput_addToGroup _ _ _ _)
            · exact later.grouped otherIndex other tail otherMeta otherOutput otherCell otherLoaded

end ScriptContext

namespace TransactionScriptsVerifier

/-- What `new` builds: the lock groups are keyed by their scripts' hashes and
count every resolved input cell under the hash of its lock. -/
theorem new_ok {context : ScriptContext} {rtx : ResolvedTransaction}
    {verifier : TransactionScriptsVerifier} (success : new context rtx = .ok verifier) :
    verifier.rtx = rtx ∧
      verifier.blockData = context.blockData (rtx.resolvedInputs ++ rtx.resolvedDeps) ∧
      context.GroupsKeyed verifier.lockGroups ∧
      ∀ index resolvedInput cellMeta output, rtx.resolvedInputs[index]? = some resolvedInput →
        resolvedInput.cell.cellMeta = some cellMeta →
        context.lazyLoadCellOutput cellMeta = .ok output →
        GroupHasInput verifier.lockGroups (context.scriptHash output.lock) index := by
  simp only [new, Except.bind_eq_ok, Except.pure_eq_ok, Prod.exists] at success
  obtain ⟨binaryIndex, -, lockGroups, typeGroups, grouped, rfl⟩ := success
  have loop := ScriptContext.groupInputs_ok grouped
  refine ⟨rfl, rfl, loop.keyed (by simp [ScriptContext.GroupsKeyed]), ?_⟩
  intro index resolvedInput cellMeta output found isCell loaded
  have member : (index, resolvedInput) ∈ rtx.resolvedInputs.zipIdx.map Prod.swap := by
    rw [List.mem_map]
    exact ⟨(resolvedInput, index), List.mem_zipIdx_iff_getElem?.mpr found, rfl⟩
  exact loop.grouped index resolvedInput member cellMeta output isCell loaded

variable {context : ScriptContext} {verifier : TransactionScriptsVerifier}

theorem validDaoWithdrawTransaction_eq_true {inputs : List ResolvedOutPoint}
    (success : validDaoWithdrawTransaction context inputs = .ok true) :
    ∃ resolvedInput ∈ inputs, ∃ cellMeta output, resolvedInput.cell.cellMeta = some cellMeta ∧
      context.lazyLoadCellOutput cellMeta = .ok output ∧ output.lock.codeHash = daoCodeHash := by
  induction inputs with
  | nil => simp [validDaoWithdrawTransaction] at success
  | cons resolvedInput rest induction =>
      have later : validDaoWithdrawTransaction context rest = .ok true →
          ∃ found ∈ resolvedInput :: rest, ∃ cellMeta output, found.cell.cellMeta = some cellMeta ∧
            context.lazyLoadCellOutput cellMeta = .ok output ∧
            output.lock.codeHash = daoCodeHash := by
        intro tail
        obtain ⟨found, member, rest⟩ := induction tail
        exact ⟨found, List.mem_cons_of_mem _ member, rest⟩
      cases isCell : resolvedInput.cell.cellMeta with
      | none =>
          simp only [validDaoWithdrawTransaction, isCell] at success
          exact later success
      | some cellMeta =>
          simp only [validDaoWithdrawTransaction, isCell, Except.bind_eq_ok] at success
          obtain ⟨output, loaded, answer⟩ := success
          by_cases daoLocked : output.lock.codeHash = daoCodeHash
          · exact ⟨resolvedInput, List.mem_cons_self, cellMeta, output, isCell, loaded, daoLocked⟩
          · rw [if_neg daoLocked] at answer
            exact later answer

theorem checkResolvedInputs_ok {inputs : List ResolvedOutPoint}
    (success : checkResolvedInputs context verifier inputs = .ok ()) :
    ∀ resolvedInput ∈ inputs, resolvedInput.cell.cellMeta.isSome ∨
      (resolvedInput.cell.isIssuingDaoInput = true ∧
        validDaoWithdrawTransaction context verifier.rtx.resolvedInputs = .ok true) := by
  induction inputs with
  | nil => simp
  | cons resolvedInput rest induction =>
      intro found member
      unfold checkResolvedInputs at success
      by_cases issuing : resolvedInput.cell.isIssuingDaoInput = true
      · rw [if_pos issuing] at success
        have valid : validDaoWithdrawTransaction context verifier.rtx.resolvedInputs = .ok true := by
          revert success
          cases validDaoWithdrawTransaction context verifier.rtx.resolvedInputs with
          | error error => simp
          | ok answer => cases answer <;> simp
        simp only [valid] at success
        rcases List.mem_cons.mp member with rfl | tail
        · exact .inr ⟨issuing, valid⟩
        · exact induction success found tail
      · rw [if_neg issuing] at success
        by_cases notCell : resolvedInput.cell.cellMeta.isNone = true
        · simp [notCell] at success
        · rw [if_neg notCell] at success
          rcases List.mem_cons.mp member with rfl | tail
          · left
            rw [Option.isSome_iff_ne_none]
            simpa using notCell
          · exact induction success found tail

theorem runGroups_ok {maxCycles cycles total : Nat} {groups : List ScriptGroup}
    (success : runGroups context verifier maxCycles groups cycles = .ok total) :
    ∀ group ∈ groups, ∃ cycle, verifyGroup context verifier group maxCycles = .ok cycle := by
  induction groups generalizing cycles with
  | nil => simp
  | cons group rest induction =>
      simp only [runGroups, Except.bind_eq_ok, Except.error_bind, Except.ite_error_eq_ok] at success
      obtain ⟨cycle, verified, -, -, tail⟩ := success
      intro found member
      rcases List.mem_cons.mp member with rfl | later
      · exact ⟨cycle, verified⟩
      · exact induction tail found later

theorem verify_ok {maxCycles cycles : Nat}
    (success : verify context verifier maxCycles = .ok cycles) :
    checkResolvedInputs context verifier verifier.rtx.resolvedInputs = .ok () ∧
      ∀ group ∈ (verifier.lockGroups ++ verifier.typeGroups).map Prod.snd,
        ∃ cycle, verifyGroup context verifier group maxCycles = .ok cycle := by
  simp only [verify, Except.bind_eq_ok] at success
  obtain ⟨⟨⟩, checked, groups⟩ := success
  exact ⟨checked, runGroups_ok groups⟩

end TransactionScriptsVerifier

end Ckb
