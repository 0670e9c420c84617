import Ckb.Lib.Memory
import Ckb.Script.Verify

/-!
# The system calls of the script VM

A model of `script/src/syscalls`: the handlers `LoadTxHash`,
`LoadScriptHash`, `LoadWitness`, `LoadHeader`, `LoadInput`, `LoadCell` and
`LoadCode`, and `store_data`, which copies a byte string into the memory of
the machine at the address, size and offset that the script put in its
registers.

The machine is a register file of 64-bit words, a memory of any type with the
interface `VmMemory` and a cycle count.  A handler answers `Ok(false)` when
the call is not its own, `Ok(true)` when it handled it (its answer code in
`A0`), an error of the VM, or a panic of the node: the release profile has
`overflow-checks`, so an arithmetic overflow on a `usize` or `u64` is a panic
with the message Rust gives it.  The flatbuffers encodings the handlers copy
out are outside this model and collected in `Encodings`.
-/

namespace Ckb

/-- The errors of the VM a handler returns. -/
inductive VmError where
  | memory (error : MemoryError)
  | parseError
  | invalidCycles
  deriving DecidableEq, Repr

/-- How a handler fails: an error returned to the VM, or a panic of the
node with its message. -/
inductive SyscallFault where
  | vm (error : VmError)
  | panic (message : String)
  deriving DecidableEq, Repr

def success : UInt8 := 0
def indexOutOfBound : UInt8 := 1
def itemMissing : UInt8 := 2
def sliceOutOfBound : UInt8 := 3

def loadTxHashSyscallNumber : UInt64 := 2061
def loadScriptHashSyscallNumber : UInt64 := 2062
def loadCellSyscallNumber : UInt64 := 2071
def loadHeaderSyscallNumber : UInt64 := 2072
def loadInputSyscallNumber : UInt64 := 2073
def loadWitnessSyscallNumber : UInt64 := 2074
def loadCellByFieldSyscallNumber : UInt64 := 2081
def loadInputByFieldSyscallNumber : UInt64 := 2083
def loadCodeSyscallNumber : UInt64 := 2091

/-- The page flags `LoadCode` asks for. -/
def flagFreezed : UInt8 := 1
def flagExecutable : UInt8 := 2

namespace Registers

def a0 : Fin 32 := 10
def a1 : Fin 32 := 11
def a2 : Fin 32 := 12
def a3 : Fin 32 := 13
def a4 : Fin 32 := 14
def a5 : Fin 32 := 15
def a7 : Fin 32 := 17

end Registers

open Registers

/-- `H256::as_bytes`: the 32 bytes, most significant first, that
`H256::from_slice` reads. -/
def H256.asBytes (hash : H256) : List UInt8 :=
  (LittleEndian.encode hash.value 32).reverse

/-- The flatbuffers encodings the handlers copy out. -/
structure Encodings where
  cellOutput : CellOutput → List UInt8
  script : Script → List UInt8
  header : Header → List UInt8
  witness : Witness → List UInt8
  cellInput : CellInput → List UInt8
  outPoint : OutPoint → List UInt8

/-! ## Sources -/

inductive SourceEntry where
  | input
  | output
  | dep
  deriving DecidableEq, Repr

inductive Source where
  | transaction (entry : SourceEntry)
  | group (entry : SourceEntry)
  deriving DecidableEq, Repr

def sourceGroupFlag : UInt64 := 0x0100000000000000
def sourceGroupMask : UInt64 := 0xFF00000000000000
def sourceEntryMask : UInt64 := 0x00FFFFFFFFFFFFFF

def SourceEntry.toU64 : SourceEntry → UInt64
  | .input => 1
  | .output => 2
  | .dep => 3

def SourceEntry.parseFromU64 (i : UInt64) : Except VmError SourceEntry :=
  if i = 1 then .ok .input
  else if i = 2 then .ok .output
  else if i = 3 then .ok .dep
  else .error .parseError

def Source.toU64 : Source → UInt64
  | .transaction entry => entry.toU64
  | .group entry => sourceGroupFlag ||| entry.toU64

def Source.parseFromU64 (i : UInt64) : Except VmError Source := do
  let entry ← SourceEntry.parseFromU64 (i &&& sourceEntryMask)
  if i &&& sourceGroupMask = sourceGroupFlag then pure (.group entry)
  else pure (.transaction entry)

theorem Source.parseFromU64_toU64 (source : Source) :
    Source.parseFromU64 source.toU64 = .ok source := by
  cases source with
  | transaction entry => cases entry <;> decide
  | group entry => cases entry <;> decide

inductive CellField where
  | capacity
  | data
  | dataHash
  | lock
  | lockHash
  | type_
  | typeHash
  deriving DecidableEq, Repr

def CellField.parseFromU64 (i : UInt64) : Except VmError CellField :=
  if i = 0 then .ok .capacity
  else if i = 1 then .ok .data
  else if i = 2 then .ok .dataHash
  else if i = 3 then .ok .lock
  else if i = 4 then .ok .lockHash
  else if i = 5 then .ok .type_
  else if i = 6 then .ok .typeHash
  else .error .parseError

inductive InputField where
  | outPoint
  | since
  deriving DecidableEq, Repr

def InputField.parseFromU64 (i : UInt64) : Except VmError InputField :=
  if i = 0 then .ok .outPoint
  else if i = 1 then .ok .since
  else .error .parseError

/-! ## The machine -/

structure Machine (M : Type) where
  registers : Fin 32 → UInt64
  memory : M
  cycles : Nat
  maxCycles : Nat

/-- A memory access of the VM; its error is returned to the VM. -/
def vmMemory {α : Type} (result : Except MemoryError α) : Except SyscallFault α :=
  result.mapError fun error => .vm (.memory error)

def vmError {α : Type} (result : Except VmError α) : Except SyscallFault α :=
  result.mapError .vm

/-- `len as u64 * factor`, a checked multiplication. -/
def cyclesFor (len factor : Nat) : Except SyscallFault Nat :=
  if u64Bound ≤ len * factor then .error (.panic "attempt to multiply with overflow")
  else .ok (len * factor)

namespace Machine

variable {M : Type}

def register (machine : Machine M) (index : Fin 32) : UInt64 :=
  machine.registers index

def setRegister (machine : Machine M) (index : Fin 32) (value : UInt64) : Machine M :=
  { machine with registers := Function.update machine.registers index value }

/-- `add_cycles` of the VM: the count, a `u64`, grows by a checked addition
and may not pass the limit. -/
def addCycles (machine : Machine M) (cycles : Nat) : Except SyscallFault (Machine M) :=
  let newCycles := machine.cycles + cycles
  if newCycles < u64Bound ∧ newCycles ≤ machine.maxCycles then
    .ok { machine with cycles := newCycles }
  else .error (.vm .invalidCycles)

@[simp] theorem register_setRegister_self (machine : Machine M) (index : Fin 32)
    (value : UInt64) : (machine.setRegister index value).register index = value := by
  simp [register, setRegister]

@[simp] theorem setRegister_memory (machine : Machine M) (index : Fin 32) (value : UInt64) :
    (machine.setRegister index value).memory = machine.memory := rfl

end Machine

variable {M : Type} [VmMemory M]

open VmMemory

/-! ## `store_data` -/

/-- `store_data`: the size word at `A1` says how many bytes the script has
room for; it is overwritten with the length of the data from the offset
`A2` on, and as many of those bytes as there is room for are stored at
`A0`.  The length is a `usize` subtraction, made before any check. -/
def storeData (machine : Machine M) (data : List UInt8) : Except SyscallFault (Machine M) := do
  let addr := (machine.register a0).toNat
  let sizeAddr := (machine.register a1).toNat
  let offset := (machine.register a2).toNat
  let size := (← vmMemory (load64 machine.memory sizeAddr)).toNat
  if data.length < offset then throw (.panic "attempt to subtract with overflow")
  let fullSize := data.length - offset
  let realSize := min size fullSize
  let memory ← vmMemory (store64 machine.memory sizeAddr (UInt64.ofNat fullSize))
  let memory ← vmMemory (storeBytes memory addr ((data.drop offset).take realSize))
  pure { machine with memory }

/-! ## The handlers -/

/-- The handler shape of `LoadTxHash` and `LoadScriptHash`: one fixed byte
string, copied out by `store_data`. -/
def loadBytesEcall (syscallNumber : UInt64) (bytes : List UInt8) (machine : Machine M) :
    Except SyscallFault (Bool × Machine M) := do
  if machine.register a7 ≠ syscallNumber then return (false, machine)
  let machine ← storeData machine bytes
  let machine := machine.setRegister a0 success.toUInt64
  let machine ← machine.addCycles (← cyclesFor bytes.length 10)
  pure (true, machine)

structure LoadTxHash where
  txHash : List UInt8

def LoadTxHash.ecall (self : LoadTxHash) (machine : Machine M) :
    Except SyscallFault (Bool × Machine M) :=
  loadBytesEcall loadTxHashSyscallNumber self.txHash machine

structure LoadScriptHash where
  hash : List UInt8

def LoadScriptHash.ecall (self : LoadScriptHash) (machine : Machine M) :
    Except SyscallFault (Bool × Machine M) :=
  loadBytesEcall loadScriptHashSyscallNumber self.hash machine

structure LoadWitness where
  witnesses : List Witness
  groupInputs : List Nat

def LoadWitness.fetchWitness (self : LoadWitness) : Source → Nat → Option Witness
  | .group .input, index => self.groupInputs[index]?.bind fun actualIndex => self.witnesses[actualIndex]?
  | .transaction .input, index => self.witnesses[index]?
  | _, _ => none

def LoadWitness.ecall (self : LoadWitness) (encodings : Encodings) (machine : Machine M) :
    Except SyscallFault (Bool × Machine M) := do
  if machine.register a7 ≠ loadWitnessSyscallNumber then return (false, machine)
  let index := (machine.register a3).toNat
  let source ← vmError (Source.parseFromU64 (machine.register a4))
  match self.fetchWitness source index with
  | none => pure (true, machine.setRegister a0 indexOutOfBound.toUInt64)
  | some witness =>
    let data := encodings.witness witness
    let machine ← storeData machine data
    let machine := machine.setRegister a0 success.toUInt64
    let machine ← machine.addCycles (← cyclesFor data.length 10)
    pure (true, machine)

structure LoadHeader where
  resolvedInputs : List ResolvedOutPoint
  resolvedDeps : List ResolvedOutPoint
  groupInputs : List Nat

def LoadHeader.fetchHeader (self : LoadHeader) : Source → Nat → Except UInt8 Header
  | .transaction .input, index => do
    let resolved ← self.resolvedInputs[index]?.getDM (.error indexOutOfBound)
    resolved.header.getDM (.error itemMissing)
  | .transaction .output, _ => .error indexOutOfBound
  | .transaction .dep, index => do
    let resolved ← self.resolvedDeps[index]?.getDM (.error indexOutOfBound)
    resolved.header.getDM (.error itemMissing)
  | .group .input, index => do
    let actualIndex ← self.groupInputs[index]?.getDM (.error indexOutOfBound)
    let resolved ← self.resolvedInputs[actualIndex]?.getDM (.error indexOutOfBound)
    resolved.header.getDM (.error itemMissing)
  | .group .output, _ => .error indexOutOfBound
  | .group .dep, _ => .error indexOutOfBound

def LoadHeader.ecall (self : LoadHeader) (encodings : Encodings) (machine : Machine M) :
    Except SyscallFault (Bool × Machine M) := do
  if machine.register a7 ≠ loadHeaderSyscallNumber then return (false, machine)
  let index := (machine.register a3).toNat
  let source ← vmError (Source.parseFromU64 (machine.register a4))
  match self.fetchHeader source index with
  | .error code => pure (true, machine.setRegister a0 code.toUInt64)
  | .ok header =>
    let data := encodings.header header
    let machine ← storeData machine data
    let machine := machine.setRegister a0 success.toUInt64
    let machine ← machine.addCycles (← cyclesFor data.length 10)
    pure (true, machine)

structure LoadInput where
  inputs : List CellInput
  groupInputs : List Nat

def LoadInput.fetchInput (self : LoadInput) : Source → Nat → Except UInt8 CellInput
  | .transaction .input, index => self.inputs[index]?.getDM (.error indexOutOfBound)
  | .group .input, index => do
    let actualIndex ← self.groupInputs[index]?.getDM (.error indexOutOfBound)
    self.inputs[actualIndex]?.getDM (.error indexOutOfBound)
  | _, _ => .error indexOutOfBound

/-- `store_data` of one byte string, answering its length. -/
def storeDataLength (machine : Machine M) (data : List UInt8) :
    Except SyscallFault (Nat × Machine M) := do
  let machine ← storeData machine data
  pure (data.length, machine)

def LoadInput.loadFull (encodings : Encodings) (machine : Machine M) (input : CellInput) :
    Except SyscallFault (Nat × Machine M) :=
  storeDataLength machine (encodings.cellInput input)

def LoadInput.loadByField (encodings : Encodings) (machine : Machine M) (input : CellInput) :
    Except SyscallFault (Nat × Machine M) := do
  match ← vmError (InputField.parseFromU64 (machine.register a5)) with
  | .outPoint => storeDataLength machine (encodings.outPoint input.previousOutput)
  | .since => storeDataLength machine (LittleEndian.encode input.since.toNat 8)

def LoadInput.ecall (self : LoadInput) (encodings : Encodings) (machine : Machine M) :
    Except SyscallFault (Bool × Machine M) := do
  let selector := machine.register a7
  if selector ≠ loadInputSyscallNumber ∧ selector ≠ loadInputByFieldSyscallNumber then
    return (false, machine)
  let loadByField := selector = loadInputByFieldSyscallNumber
  let cycleFactor := if loadByField then 10 else 100
  let index := (machine.register a3).toNat
  let source ← vmError (Source.parseFromU64 (machine.register a4))
  match self.fetchInput source index with
  | .error code => pure (true, machine.setRegister a0 code.toUInt64)
  | .ok input =>
    let (len, machine) ← if loadByField then LoadInput.loadByField encodings machine input
      else LoadInput.loadFull encodings machine input
    let machine ← machine.addCycles (← cyclesFor len cycleFactor)
    pure (true, machine.setRegister a0 success.toUInt64)

/-- The cells a script group can load: what `LoadCell` and `LoadCode` hold
besides the data loader. -/
structure CellSources where
  outputs : List CellMeta
  resolvedInputs : List ResolvedOutPoint
  resolvedDeps : List ResolvedOutPoint
  groupInputs : List Nat
  groupOutputs : List Nat

/-- `fetch_cell`, the same in `LoadCell` and `LoadCode`. -/
def CellSources.fetchCell (self : CellSources) : Source → Nat → Except UInt8 CellMeta
  | .transaction .input, index => do
    let resolved ← self.resolvedInputs[index]?.getDM (.error indexOutOfBound)
    resolved.cell.cellMeta.getDM (.error itemMissing)
  | .transaction .output, index => self.outputs[index]?.getDM (.error indexOutOfBound)
  | .transaction .dep, index => do
    let resolved ← self.resolvedDeps[index]?.getDM (.error indexOutOfBound)
    resolved.cell.cellMeta.getDM (.error itemMissing)
  | .group .input, index => do
    let actualIndex ← self.groupInputs[index]?.getDM (.error indexOutOfBound)
    let resolved ← self.resolvedInputs[actualIndex]?.getDM (.error indexOutOfBound)
    resolved.cell.cellMeta.getDM (.error itemMissing)
  | .group .output, index => do
    let actualIndex ← self.groupOutputs[index]?.getDM (.error indexOutOfBound)
    self.outputs[actualIndex]?.getDM (.error indexOutOfBound)
  | .group .dep, _ => .error indexOutOfBound

/-- `lazy_load_cell_output` of the data loader, whose one failure is its
`expect`. -/
def loadCellOutput (dataLoader : ScriptContext) (cell : CellMeta) :
    Except SyscallFault CellOutput :=
  match dataLoader.lazyLoadCellOutput cell with
  | .ok output => .ok output
  | .error _ => .error (.panic "lazy load cell output from store")

structure LoadCell where
  dataLoader : ScriptContext
  sources : CellSources

def LoadCell.fetchCell (self : LoadCell) (source : Source) (index : Nat) : Except UInt8 CellMeta :=
  self.sources.fetchCell source index

def LoadCell.loadFull (encodings : Encodings) (machine : Machine M) (output : CellOutput) :
    Except SyscallFault (UInt8 × Nat × Machine M) := do
  let (len, machine) ← storeDataLength machine (encodings.cellOutput output)
  pure (success, len, machine)

def LoadCell.loadByField (self : LoadCell) (encodings : Encodings) (machine : Machine M)
    (output : CellOutput) : Except SyscallFault (UInt8 × Nat × Machine M) := do
  let stored (data : List UInt8) : Except SyscallFault (UInt8 × Nat × Machine M) := do
    let (len, machine) ← storeDataLength machine data
    pure (success, len, machine)
  match ← vmError (CellField.parseFromU64 (machine.register a5)) with
  | .capacity => stored (LittleEndian.encode output.capacity.shannons 8)
  | .data => stored output.data
  | .dataHash => stored (self.dataLoader.dataHash output.data).asBytes
  | .lock => stored (encodings.script output.lock)
  | .lockHash => stored (self.dataLoader.scriptHash output.lock).asBytes
  | .type_ =>
    match output.type_ with
    | some type_ => stored (encodings.script type_)
    | none => pure (itemMissing, 0, machine)
  | .typeHash =>
    match output.type_ with
    | some type_ => stored (self.dataLoader.scriptHash type_).asBytes
    | none => pure (itemMissing, 0, machine)

def LoadCell.ecall (self : LoadCell) (encodings : Encodings) (machine : Machine M) :
    Except SyscallFault (Bool × Machine M) := do
  let selector := machine.register a7
  if selector ≠ loadCellSyscallNumber ∧ selector ≠ loadCellByFieldSyscallNumber then
    return (false, machine)
  let loadByField := selector = loadCellByFieldSyscallNumber
  let cycleFactor := if loadByField then 10 else 100
  let index := (machine.register a3).toNat
  let source ← vmError (Source.parseFromU64 (machine.register a4))
  match self.fetchCell source index with
  | .error code => pure (true, machine.setRegister a0 code.toUInt64)
  | .ok cell =>
    let output ← loadCellOutput self.dataLoader cell
    let (returnCode, len, machine) ← if loadByField then self.loadByField encodings machine output
      else LoadCell.loadFull encodings machine output
    let machine ← machine.addCycles (← cyclesFor len cycleFactor)
    pure (true, machine.setRegister a0 returnCode.toUInt64)

structure LoadCode where
  dataLoader : ScriptContext
  sources : CellSources

def LoadCode.fetchCell (self : LoadCode) (source : Source) (index : Nat) : Except UInt8 CellMeta :=
  self.sources.fetchCell source index

/-- `LoadCode::ecall`: the content range of the cell's data is loaded into
fresh executable pages at `A0`.  The three range checks short-circuit in
order, and the end of the range is a `usize` addition. -/
def LoadCode.ecall (self : LoadCode) (machine : Machine M) :
    Except SyscallFault (Bool × Machine M) := do
  if machine.register a7 ≠ loadCodeSyscallNumber then return (false, machine)
  let addr := (machine.register a0).toNat
  let memorySize := (machine.register a1).toNat
  let contentOffset := (machine.register a2).toNat
  let contentSize := (machine.register a3).toNat
  let index := (machine.register a4).toNat
  let source ← vmError (Source.parseFromU64 (machine.register a5))
  match self.fetchCell source index with
  | .error code => pure (true, machine.setRegister a0 code.toUInt64)
  | .ok cell =>
    let output ← loadCellOutput self.dataLoader cell
    if output.data.length ≤ contentOffset then
      return (true, machine.setRegister a0 sliceOutOfBound.toUInt64)
    if u64Bound ≤ contentOffset + contentSize then throw (.panic "attempt to add with overflow")
    if output.data.length < contentOffset + contentSize ∨ memorySize < contentSize then
      return (true, machine.setRegister a0 sliceOutOfBound.toUInt64)
    let memory ← vmMemory (initPages machine.memory addr memorySize
      (flagExecutable ||| flagFreezed) (some ((output.data.drop contentOffset).take contentSize)) 0)
    let machine ← { machine with memory }.addCycles (← cyclesFor output.data.length 10)
    pure (true, machine.setRegister a0 success.toUInt64)

section Lemmas

theorem vmMemory_ok {α : Type} (value : α) : vmMemory (.ok value : Except MemoryError α) = .ok value := rfl

theorem storeData_offset_past_end {machine : Machine M} {data : List UInt8} {size : UInt64}
    (sizeReadable : load64 machine.memory (machine.register a1).toNat = .ok size)
    (pastEnd : data.length < (machine.register a2).toNat) :
    storeData machine data = .error (.panic "attempt to subtract with overflow") := by
  simp only [storeData, sizeReadable, vmMemory_ok, Except.ok_bind, if_pos pastEnd]
  rfl

/-- What a successful `store_data` did: read the size word, find the offset
within the data, store the length word and then the bytes, and change
nothing else of the machine. -/
theorem storeData_ok {machine machine' : Machine M} {data : List UInt8}
    (stored : storeData machine data = .ok machine') :
    ∃ size sized, load64 machine.memory (machine.register a1).toNat = .ok size ∧
      (machine.register a2).toNat ≤ data.length ∧
      store64 machine.memory (machine.register a1).toNat
        (UInt64.ofNat (data.length - (machine.register a2).toNat)) = .ok sized ∧
      storeBytes sized (machine.register a0).toNat
        ((data.drop (machine.register a2).toNat).take
          (min size.toNat (data.length - (machine.register a2).toNat))) = .ok machine'.memory ∧
      machine'.registers = machine.registers ∧ machine'.cycles = machine.cycles := by
  unfold storeData at stored
  simp only [Except.bind_eq_ok, vmMemory, Except.mapError_eq_ok] at stored
  obtain ⟨size, sizeRead, rest⟩ := stored
  have within : ¬data.length < (machine.register a2).toNat := by
    intro pastEnd
    rw [if_pos pastEnd] at rest
    cases rest
  rw [if_neg within] at rest
  simp only [Except.bind_eq_ok, Except.mapError_eq_ok, Except.pure_eq_ok] at rest
  obtain ⟨sized, sizedStored, memory, bytesStored, rfl⟩ := rest
  exact ⟨size, sized, sizeRead, Nat.le_of_not_lt within, sizedStored, bytesStored, rfl, rfl⟩

/-- Eight bytes of room at address 16, with the size word at address 0. -/
def windowMachine : Machine FlatMemory :=
  ⟨fun index => if index = a0 then 16 else 0, ⟨8 :: List.replicate 31 0⟩, 0, 1000000⟩

theorem vmError_ok {α : Type} (value : α) : vmError (.ok value : Except VmError α) = .ok value := rfl

end Lemmas

section LoadCode

variable {self : LoadCode} {machine : Machine M} {source : Source} {cell : CellMeta}
  {output : CellOutput}

/-- The call `LoadCode` is asked for, with a source that parses, a cell the
source has, and the cell's output loaded. -/
structure LoadCode.Names (self : LoadCode) (machine : Machine M) (output : CellOutput) : Prop where
  selected : machine.register a7 = loadCodeSyscallNumber
  parsed : ∃ source, Source.parseFromU64 (machine.register a5) = .ok source ∧
    ∃ cell, self.fetchCell source (machine.register a4).toNat = .ok cell ∧
      loadCellOutput self.dataLoader cell = .ok output

/-- `LoadCode` on a named cell, down to its range checks; past them it loads
the range, and a loaded range answers `SUCCESS`. -/
theorem LoadCode.ecall_of_names (names : self.Names machine output) :
    ∃ loading : Except SyscallFault (Bool × Machine M),
      (∀ answered, loading = .ok answered → answered.2.register a0 = success.toUInt64) ∧
      self.ecall machine =
        if output.data.length ≤ (machine.register a2).toNat then
          .ok (true, machine.setRegister a0 sliceOutOfBound.toUInt64)
        else if u64Bound ≤ (machine.register a2).toNat + (machine.register a3).toNat then
          .error (.panic "attempt to add with overflow")
        else if output.data.length < (machine.register a2).toNat + (machine.register a3).toNat ∨
            (machine.register a1).toNat < (machine.register a3).toNat then
          .ok (true, machine.setRegister a0 sliceOutOfBound.toUInt64)
        else loading := by
  obtain ⟨selected, source, parsed, cell, fetched, loaded⟩ := names
  refine ⟨?loading, ?answers, ?unfolded⟩
  case unfolded =>
    simp only [LoadCode.ecall, selected, ne_eq, not_true_eq_false, if_false, parsed, vmError_ok,
      Except.ok_bind, fetched, loaded]
    by_cases before : output.data.length ≤ (machine.register a2).toNat
    · simp only [before, if_true]
      rfl
    · by_cases overflow : u64Bound ≤ (machine.register a2).toNat + (machine.register a3).toNat
      · simp only [before, overflow, if_true, if_false]
        rfl
      · simp only [before, overflow, if_false]
        rfl
  case answers =>
    intro answered loadedAnswer
    simp only [Except.bind_eq_ok, Except.pure_eq_ok] at loadedAnswer
    obtain ⟨memory, -, cycles, -, loadedMachine, -, rfl⟩ := loadedAnswer
    exact Machine.register_setRegister_self _ _ _

/-- `LoadCode` panics when the content range starts inside the data and its
end passes the largest `usize`. -/
theorem LoadCode.ecall_content_end_overflow (names : self.Names machine output)
    (inside : (machine.register a2).toNat < output.data.length)
    (overflow : u64Bound ≤ (machine.register a2).toNat + (machine.register a3).toNat) :
    self.ecall machine = .error (.panic "attempt to add with overflow") := by
  obtain ⟨loading, -, unfolded⟩ := LoadCode.ecall_of_names names
  rw [unfolded, if_neg (Nat.not_le.mpr inside), if_pos overflow]

/-- A data loader with nothing in store, for cells that carry their output. -/
def emptyDataLoader : ScriptContext :=
  ⟨fun _ _ => ⟨0⟩, fun _ => ⟨0⟩, fun _ _ => none, fun _ => none, fun _ _ _ => .ok 0,
    fun _ _ => .ok 0⟩

def threeByteOutput : CellOutput := ⟨⟨0⟩, [1, 2, 3], ⟨[], ⟨0⟩⟩, none⟩

/-- A transaction whose one output holds three bytes of code. -/
def threeByteCode : LoadCode :=
  ⟨emptyDataLoader, ⟨[⟨some threeByteOutput, ⟨⟨0⟩, 0⟩, none, false, ⟨0⟩, none⟩], [], [], [], []⟩⟩

/-- A machine asking `LoadCode` for the first output's data from offset 1,
with the largest content size a register holds. -/
def contentPastMaxMachine : Machine FlatMemory :=
  ⟨fun index => if index = a7 then loadCodeSyscallNumber
    else if index = a2 then 1
    else if index = a3 then 0xFFFFFFFFFFFFFFFF
    else if index = a5 then Source.toU64 (.transaction .output) else 0,
    ⟨List.replicate 16 0⟩, 0, 1000000⟩

theorem largestContentSize_panics :
    threeByteCode.ecall contentPastMaxMachine = .error (.panic "attempt to add with overflow") :=
  @LoadCode.ecall_content_end_overflow FlatMemory _ threeByteCode contentPastMaxMachine threeByteOutput
    ⟨rfl, ⟨_, Source.parseFromU64_toU64 (.transaction .output), _, rfl, rfl⟩⟩ (by decide) (by decide)

end LoadCode

theorem loadTxHash_offset_past_end_panics (self : LoadTxHash) (machine : Machine M) {size : UInt64}
    (selected : machine.register a7 = loadTxHashSyscallNumber)
    (sizeReadable : load64 machine.memory (machine.register a1).toNat = .ok size)
    (pastEnd : self.txHash.length < (machine.register a2).toNat) :
    self.ecall machine = .error (.panic "attempt to subtract with overflow") := by
  simp only [LoadTxHash.ecall, loadBytesEcall, selected, ne_eq, not_true_eq_false, if_false,
    storeData_offset_past_end sizeReadable pastEnd]
  rfl

/-- A machine over sixteen zero bytes of flat memory that asks `LoadTxHash`
for the hash from offset 33 on, with its size word at address 0. -/
def offsetPastHashMachine : Machine FlatMemory :=
  ⟨fun index => if index = a7 then loadTxHashSyscallNumber else if index = a2 then 33 else 0,
    ⟨List.replicate 16 0⟩, 0, 1000000⟩

/-- The transaction hash is 32 bytes; offset 33 panics the node. -/
theorem offsetPastHash_panics :
    (H256.asBytes ⟨7⟩).length = 32 ∧
      (LoadTxHash.mk (H256.asBytes ⟨7⟩)).ecall offsetPastHashMachine =
        .error (.panic "attempt to subtract with overflow") :=
  ⟨by decide, @loadTxHash_offset_past_end_panics FlatMemory _ ⟨H256.asBytes ⟨7⟩⟩
    offsetPastHashMachine 0 rfl rfl (by decide)⟩

end Ckb
