import Mathlib

/-!
# Byte memories of a virtual machine

The memory a machine offers its system calls: 64-bit little-endian loads and
stores, byte loads, stores of byte strings and page initialisation, each of
which may fail with a memory error.  A `LawfulVmMemory` reads back the word it
was given, leaves the words outside a store alone and reads back every byte
of a store; `FlatMemory`, one byte string with a bound check on every access,
is one.
-/

namespace LittleEndian

/-- The `width` low bytes of a number, least significant first. -/
def encode : Nat → Nat → List UInt8
  | _, 0 => []
  | value, width + 1 => UInt8.ofNat value :: encode (value / 256) width

/-- The number whose least significant byte comes first. -/
def decode (bytes : List UInt8) : Nat :=
  bytes.foldr (fun byte value => byte.toNat + 256 * value) 0

@[simp] theorem length_encode (value width : Nat) : (encode value width).length = width := by
  induction width generalizing value with
  | zero => rfl
  | succ width induction => simp [encode, induction]

theorem decode_encode_eq_mod (value width : Nat) :
    decode (encode value width) = value % 256 ^ width := by
  induction width generalizing value with
  | zero => simp [encode, decode, Nat.mod_one]
  | succ width induction =>
      have step : decode (encode value (width + 1)) =
          value % 256 + 256 * decode (encode (value / 256) width) := by
        simp [encode, decode, UInt8.toNat_ofNat']
      rw [step, induction, Nat.pow_succ', Nat.mod_mul]

end LittleEndian

/-- The errors of a memory access. -/
inductive MemoryError where
  | outOfBound
  | invalidPermission
  | unaligned
  deriving DecidableEq, Repr

/-- The memory interface of a machine; addresses and sizes are numbers. -/
class VmMemory (M : Type) where
  load8 : M → Nat → Except MemoryError UInt8
  load64 : M → Nat → Except MemoryError UInt64
  store64 : M → Nat → UInt64 → Except MemoryError M
  storeBytes : M → Nat → List UInt8 → Except MemoryError M
  /-- Initialise the pages of a range with flags, from an optional source
  placed at an offset into the range. -/
  initPages : M → Nat → Nat → UInt8 → Option (List UInt8) → Nat → Except MemoryError M

open VmMemory

/-- A memory whose accesses mean what they say. -/
class LawfulVmMemory (M : Type) [VmMemory M] : Prop where
  load64_store64 {memory memory' : M} {address : Nat} {value : UInt64} :
    store64 memory address value = .ok memory' → load64 memory' address = .ok value
  load64_storeBytes_of_disjoint {memory memory' : M} {start address : Nat} {bytes : List UInt8} :
    storeBytes memory start bytes = .ok memory' →
      start + bytes.length ≤ address ∨ address + 8 ≤ start →
        load64 memory' address = load64 memory address
  load8_storeBytes {memory memory' : M} {start : Nat} {bytes : List UInt8} :
    storeBytes memory start bytes = .ok memory' →
      ∀ index (inside : index < bytes.length), load8 memory' (start + index) = .ok bytes[index]

/-- A memory of one byte string; every access out of it is `outOfBound`, and
page flags are not kept. -/
structure FlatMemory where
  bytes : List UInt8
  deriving DecidableEq, Repr

namespace FlatMemory

/-- The byte string with `written` laid over it from `start` on. -/
def write (bytes : List UInt8) (start : Nat) (written : List UInt8) : List UInt8 :=
  bytes.take start ++ written ++ bytes.drop (start + written.length)

/-- The `count` bytes from `start` on. -/
def read (bytes : List UInt8) (start count : Nat) : List UInt8 :=
  (bytes.drop start).take count

def load8 (memory : FlatMemory) (address : Nat) : Except MemoryError UInt8 :=
  match memory.bytes[address]? with
  | some byte => .ok byte
  | none => .error .outOfBound

def load64 (memory : FlatMemory) (address : Nat) : Except MemoryError UInt64 :=
  if address + 8 ≤ memory.bytes.length then
    .ok (UInt64.ofNat (LittleEndian.decode (read memory.bytes address 8)))
  else .error .outOfBound

def storeBytes (memory : FlatMemory) (start : Nat) (written : List UInt8) :
    Except MemoryError FlatMemory :=
  if start + written.length ≤ memory.bytes.length then .ok ⟨write memory.bytes start written⟩
  else .error .outOfBound

def store64 (memory : FlatMemory) (address : Nat) (value : UInt64) :
    Except MemoryError FlatMemory :=
  memory.storeBytes address (LittleEndian.encode value.toNat 8)

/-- Zeros up to the offset, then the source, then zeros to the end of the
range, cut to the range. -/
def initPages (memory : FlatMemory) (address size : Nat) (_flags : UInt8)
    (source : Option (List UInt8)) (offsetFromAddr : Nat) : Except MemoryError FlatMemory :=
  let filled := List.replicate offsetFromAddr 0 ++ source.getD []
  memory.storeBytes address (filled.take size ++ List.replicate (size - filled.length) 0)

instance : VmMemory FlatMemory where
  load8 := load8
  load64 := load64
  store64 := store64
  storeBytes := storeBytes
  initPages := initPages

section Lemmas

variable {bytes written : List UInt8} {start : Nat}

theorem length_write (fits : start + written.length ≤ bytes.length) :
    (write bytes start written).length = bytes.length := by
  simp only [write, List.length_append, List.length_take, List.length_drop]
  omega

theorem getElem?_write (fits : start + written.length ≤ bytes.length) (index : Nat) :
    (write bytes start written)[index]? =
      if start ≤ index ∧ index < start + written.length then written[index - start]?
      else bytes[index]? := by
  have before : (bytes.take start).length = start := by
    rw [List.length_take]
    omega
  have front : (bytes.take start ++ written).length = start + written.length := by
    rw [List.length_append, before]
  unfold write
  by_cases below : index < start
  · rw [List.getElem?_append_left (by omega), List.getElem?_append_left (by omega),
      List.getElem?_take, if_pos below, if_neg (by omega)]
  · by_cases inside : index < start + written.length
    · rw [List.getElem?_append_left (by omega), List.getElem?_append_right (by omega), before,
        if_pos ⟨by omega, inside⟩]
    · rw [List.getElem?_append_right (by omega), front, List.getElem?_drop, if_neg (by omega)]
      congr 1
      omega

theorem read_write_same (fits : start + written.length ≤ bytes.length) :
    read (write bytes start written) start written.length = written := by
  apply List.ext_getElem?
  intro index
  rw [read, List.getElem?_take, List.getElem?_drop, getElem?_write fits]
  by_cases inside : index < written.length
  · simp [inside]
  · simp only [inside, if_false]
    exact (List.getElem?_eq_none (by omega)).symm

theorem read_write_of_disjoint {address count : Nat}
    (fits : start + written.length ≤ bytes.length)
    (disjoint : start + written.length ≤ address ∨ address + count ≤ start) :
    read (write bytes start written) address count = read bytes address count := by
  apply List.ext_getElem?
  intro index
  rw [read, read, List.getElem?_take, List.getElem?_take, List.getElem?_drop,
    List.getElem?_drop, getElem?_write fits]
  by_cases within : index < count
  · simp only [within, if_true]
    rw [if_neg (by omega)]
  · simp only [within, if_false]

theorem storeBytes_eq_ok {memory memory' : FlatMemory} :
    memory.storeBytes start written = .ok memory' ↔
      start + written.length ≤ memory.bytes.length ∧ memory' = ⟨write memory.bytes start written⟩ := by
  by_cases fits : start + written.length ≤ memory.bytes.length
  · rw [storeBytes, if_pos fits, Except.ok.injEq]
    exact ⟨fun stored => ⟨fits, stored.symm⟩, fun stored => stored.2.symm⟩
  · rw [storeBytes, if_neg fits]
    constructor
    · intro failed
      cases failed
    · intro stored
      exact absurd stored.1 fits

end Lemmas

instance : LawfulVmMemory FlatMemory where
  load64_store64 {memory memory' address value} stored := by
    obtain ⟨fits, rfl⟩ := storeBytes_eq_ok.mp stored
    rw [LittleEndian.length_encode] at fits
    have readBack :=
      @read_write_same memory.bytes (LittleEndian.encode value.toNat 8) address (by simpa using fits)
    rw [LittleEndian.length_encode] at readBack
    show load64 _ _ = _
    rw [load64, if_pos (by rw [length_write (by simpa using fits)]; exact fits), readBack,
      LittleEndian.decode_encode_eq_mod, Nat.mod_eq_of_lt (by simpa using value.toNat_lt),
      UInt64.ofNat_toNat]
  load64_storeBytes_of_disjoint {memory memory' start address bytes} stored disjoint := by
    obtain ⟨fits, rfl⟩ := storeBytes_eq_ok.mp stored
    show load64 _ _ = load64 _ _
    simp only [load64, length_write fits, read_write_of_disjoint fits disjoint]
  load8_storeBytes {memory memory' start bytes} stored index inside := by
    obtain ⟨fits, rfl⟩ := storeBytes_eq_ok.mp stored
    show load8 _ _ = _
    rw [load8, getElem?_write fits, if_pos (by omega), Nat.add_sub_cancel_left,
      List.getElem?_eq_getElem inside]

end FlatMemory
