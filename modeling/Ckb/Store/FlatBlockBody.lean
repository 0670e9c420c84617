import Ckb.Core.Builder
import Ckb.Lib.Codec

/-!
# The flat block body

`store/src/flat_block_body.rs`: a block body is stored as the bincode
encodings of its transactions' fields laid end to end, with addresses that
let the store read back one transaction, or one output of it, from a range
of the bytes.  Each transaction begins with a header of nine words: its total
size, then where each of its fields begins.

`bincode::config()` encodes a `usize` as eight little-endian bytes, so the
header of a transaction is always 72 bytes, whatever its words; that is why
`serialized_transaction_size` may take its size from a header of zeros.  The
other fields go through the `Codec`s of a `Bincode`, whose law is the one the
flat layout relies on: a value reads back from its own bytes followed by
anything.  `serialized_size` is the length of what `serialize_into` writes,
so it cannot fail here.  A range index out of bounds panics in the source;
here it is the error `outOfRange`.
-/

namespace Ckb

def transactionFieldsSize : Nat := 9

def transactionTotalSizeIndex : Nat := 0

def transactionOutputsIndex : Nat := 4

def transactionHashIndex : Nat := 6

structure CellOutputAddress where
  offset : Nat
  length : Nat
  deriving DecidableEq, Repr

/-- `TransactionAddressInner`; its header is the `[usize; 9]` of the
transaction. -/
structure TransactionAddressInner where
  index : Nat
  offset : Nat
  length : Nat
  header : List Nat
  outputsAddresses : List CellOutputAddress
  deriving DecidableEq, Repr

/-- A transaction as `build_unchecked` makes it: with the hash and the witness
hash it is given, which it does not compute. -/
structure BuiltTransaction where
  transaction : Transaction
  witnessHash : H256
  deriving DecidableEq, Repr

/-- How a flat read ends without a value: bincode returns an error, or a range
index is out of bounds, on which the source panics. -/
inductive FlatError (ε : Type) where
  | bincode (error : ε)
  | outOfRange
  deriving DecidableEq, Repr

/-- The bincode encodings of the fields of a transaction, and the error bincode
returns when its input ends early. -/
structure Bincode (ε : Type) where
  unexpectedEof : ε
  version : Codec ε Nat
  deps : Codec ε (List OutPoint)
  inputs : Codec ε (List CellInput)
  output : Codec ε CellOutput
  witnesses : Codec ε (List Witness)
  hash : Codec ε H256

section Serialize

variable {ε : Type} (bincode : Bincode ε) (hashers : Hashers)

/-- `config.serialize` of a `[usize; 9]`: eight bytes a word. -/
def headerBytes (header : List Nat) : List UInt8 :=
  LittleEndian.encodeWords 8 header

/-- `config.deserialize` of a `[usize; 9]` from the front of the bytes. -/
def readHeader (tx : List UInt8) : Except (FlatError ε) (List Nat) :=
  (LittleEndian.decodeWords 8 transactionFieldsSize tx).getDM
    (.error (.bincode bincode.unexpectedEof))

/-- The fold of `serialized_transaction_size` over the sizes of the outputs:
each output's address, from the first output on. -/
def outputAddressStep (placed : Nat × List CellOutputAddress) (size : Nat) :
    Nat × List CellOutputAddress :=
  (placed.1 + size, placed.2 ++ [⟨placed.1, size⟩])

/-- One pass of the loop over the sizes of the fields: the field after `idx`
begins where field `idx` ends, and the total grows by the size. -/
def headerStep (header : List Nat) (entry : Nat × Nat) : List Nat :=
  let (size, idx) := entry
  let header := header.set (idx + 1) (header.getD idx 0 + size)
  header.set transactionTotalSizeIndex (header.getD transactionTotalSizeIndex 0 + size)

def serializedTransactionSize (tx : Transaction) : List Nat × List CellOutputAddress :=
  let header := List.replicate transactionFieldsSize 0
  let sizeHeader := (headerBytes header).length
  let sizeVersion := (bincode.version.serialize tx.version).length
  let sizeDeps := (bincode.deps.serialize tx.deps).length
  let sizeInputs := (bincode.inputs.serialize tx.inputs).length
  let (sizeOutputs, outputAddresses) :=
    (tx.outputs.map fun output => (bincode.output.serialize output).length).foldl
      outputAddressStep (0, [])
  let sizeWitnesses := (bincode.witnesses.serialize tx.witnesses).length
  let sizeHash := (bincode.hash.serialize tx.hash).length
  let sizeWitnessHash := (bincode.hash.serialize (tx.witnessHash hashers)).length
  let header :=
    [sizeHeader, sizeVersion, sizeDeps, sizeInputs, sizeOutputs, sizeWitnesses, sizeHash,
      sizeWitnessHash].zipIdx.foldl headerStep header
  let outputAddresses := outputAddresses.map fun address =>
    { address with offset := address.offset + header.getD transactionOutputsIndex 0 }
  (header, outputAddresses)

/-- The fold of `serialize_block_body_size`: each transaction's address at
the running offset, which then moves past the transaction's total size. -/
def transactionAddressStep (placed : Nat × List TransactionAddressInner)
    (entry : Nat × List Nat × List CellOutputAddress) : Nat × List TransactionAddressInner :=
  let (index, header, outputsAddresses) := entry
  (placed.1 + header.getD transactionTotalSizeIndex 0,
    placed.2 ++
      [⟨index, placed.1, header.getD transactionTotalSizeIndex 0, header, outputsAddresses⟩])

def serializeBlockBodySize (txs : List Transaction) : Nat × List TransactionAddressInner :=
  let txIndexes := txs.zipIdx.map fun (tx, idx) => (idx, serializedTransactionSize bincode hashers tx)
  txIndexes.foldl transactionAddressStep (0, [])

/-- What the loop of `serialize_block_body` writes for one transaction. -/
def serializeTransaction (header : List Nat) (tx : Transaction) : List UInt8 :=
  headerBytes header ++ bincode.version.serialize tx.version ++ bincode.deps.serialize tx.deps ++
    bincode.inputs.serialize tx.inputs ++ tx.outputs.flatMap bincode.output.serialize ++
    bincode.witnesses.serialize tx.witnesses ++ bincode.hash.serialize tx.hash ++
    bincode.hash.serialize (tx.witnessHash hashers)

/-- One pass of the loop of `serialize_block_body`: the transaction at `idx`,
with the header of the address at `idx`. -/
def serializeBlockBodyStep (txAddresses : List TransactionAddressInner) (bytes : List UInt8)
    (entry : Transaction × Nat) : Except (FlatError ε) (List UInt8) := do
  let (tx, idx) := entry
  let address ← txAddresses[idx]?.getDM (.error .outOfRange)
  pure (bytes ++ serializeTransaction bincode hashers address.header tx)

/-- The total size of the block only reserves the capacity of the bytes. -/
def serializeBlockBody (txs : List Transaction) :
    Except (FlatError ε) (List UInt8 × List TransactionAddressInner) := do
  let txAddresses := (serializeBlockBodySize bincode hashers txs).2
  let bytes ← txs.zipIdx.foldlM (serializeBlockBodyStep bincode hashers txAddresses) []
  pure (bytes, txAddresses)

end Serialize

section Deserialize

variable {ε : Type} (bincode : Bincode ε)

/-- `config.deserialize(&tx[start..])`. -/
def deserializeFrom {α : Type} (codec : Codec ε α) (tx : List UInt8) (start : Nat) :
    Except (FlatError ε) α := do
  let bytes ← (tx.sliceFrom start).getDM (.error .outOfRange)
  (codec.deserialize bytes).mapError .bincode

/-- `config.deserialize(&tx[start..stop])`. -/
def deserializeRange {α : Type} (codec : Codec ε α) (tx : List UInt8) (start stop : Nat) :
    Except (FlatError ε) α := do
  let bytes ← (tx.sliceRange start stop).getDM (.error .outOfRange)
  (codec.deserialize bytes).mapError .bincode

def deserializeTransaction (tx : List UInt8) (outputAddresses : List CellOutputAddress) :
    Except (FlatError ε) BuiltTransaction := do
  let header ← readHeader bincode tx
  let version ← deserializeFrom bincode.version tx (header.getD 1 0)
  let deps ← deserializeFrom bincode.deps tx (header.getD 2 0)
  let inputs ← deserializeFrom bincode.inputs tx (header.getD 3 0)
  let outputs ← outputAddresses.mapM fun address =>
    deserializeRange bincode.output tx address.offset (address.offset + address.length)
  let witnesses ← deserializeFrom bincode.witnesses tx (header.getD 5 0)
  let hash ← deserializeFrom bincode.hash tx (header.getD transactionHashIndex 0)
  let witnessHash ← deserializeFrom bincode.hash tx (header.getD 7 0)
  pure ⟨⟨version, deps, inputs, outputs, witnesses, hash⟩, witnessHash⟩

def deserializeTransactionHash (tx : List UInt8) : Except (FlatError ε) H256 := do
  let header ← readHeader bincode tx
  deserializeFrom bincode.hash tx (header.getD transactionHashIndex 0)

def deserializeBlockBody (bytes : List UInt8) (txAddresses : List TransactionAddressInner) :
    Except (FlatError ε) (List BuiltTransaction) :=
  txAddresses.mapM fun address => do
    let tx ← (bytes.sliceRange address.offset (address.offset + address.length)).getDM
      (.error .outOfRange)
    deserializeTransaction bincode tx address.outputsAddresses

def deserializeBlockBodyForHashesOnly (bytes : List UInt8)
    (txAddresses : List TransactionAddressInner) : Except (FlatError ε) (List H256) :=
  txAddresses.mapM fun address => do
    let tx ← (bytes.sliceRange address.offset (address.offset + address.length)).getDM
      (.error .outOfRange)
    deserializeTransactionHash bincode tx

end Deserialize

/-! ## The header loop

After the loop has passed the sizes of the first fields, the header holds
their sum as its total and, at each later index, where the field there
begins; the indexes past them still hold zeros. -/

/-- The header once the loop has passed the first `passed` sizes. -/
structure HeaderAfter (sizes : List Nat) (passed : Nat) (header : List Nat) : Prop where
  length : header.length = transactionFieldsSize
  total : header.getD transactionTotalSizeIndex 0 = (sizes.take passed).sum
  starts : ∀ idx, 0 < idx → idx < transactionFieldsSize →
    header.getD idx 0 = if idx ≤ passed then (sizes.take idx).sum else 0

namespace HeaderAfter

variable {sizes : List Nat}

theorem zeros (sizes : List Nat) :
    HeaderAfter sizes 0 (List.replicate transactionFieldsSize 0) where
  length := List.length_replicate
  total := rfl
  starts idx positive inside := by
    rw [if_neg (by omega), List.getD_eq_getElem?_getD, List.getElem?_replicate, if_pos inside]
    rfl

theorem getD_passed {passed : Nat} {header : List Nat} (after : HeaderAfter sizes passed header)
    (inside : passed < transactionFieldsSize) : header.getD passed 0 = (sizes.take passed).sum := by
  rcases Nat.eq_zero_or_pos passed with zero | positive
  · subst zero
    exact after.total
  · rw [after.starts passed positive inside, if_pos (Nat.le_refl _)]

theorem step {passed : Nat} {header : List Nat} (after : HeaderAfter sizes passed header)
    (inside : passed + 1 < transactionFieldsSize) (measured : passed < sizes.length) :
    HeaderAfter sizes (passed + 1) (headerStep header (sizes[passed], passed)) := by
  have grown : (sizes.take (passed + 1)).sum = (sizes.take passed).sum + sizes[passed] := by
    rw [List.take_add_one, List.getElem?_eq_getElem measured, Option.toList_some, List.sum_append,
      List.sum_singleton]
  have reads := after.getD_passed (by omega)
  -- the pass writes where the next field begins, and then the total, which
  -- the first write leaves as it was
  have within : passed + 1 < header.length := by
    rw [after.length]
    exact inside
  have ended : (header.set (passed + 1) (header.getD passed 0 + sizes[passed])).getD
      transactionTotalSizeIndex 0 = (sizes.take passed).sum := by
    rw [List.getD_set_of_lt within, if_neg (by unfold transactionTotalSizeIndex; omega)]
    exact after.total
  have totalWithin : transactionTotalSizeIndex <
      (header.set (passed + 1) (header.getD passed 0 + sizes[passed])).length := by
    rw [List.length_set, after.length]
    decide
  constructor
  · simp only [headerStep, List.length_set]
    exact after.length
  · simp only [headerStep]
    rw [List.getD_set_of_lt totalWithin, if_pos rfl, ended, grown]
  · intro idx positive bound
    simp only [headerStep]
    rw [List.getD_set_of_lt totalWithin, if_neg (by unfold transactionTotalSizeIndex; omega),
      List.getD_set_of_lt within]
    by_cases written : passed + 1 = idx
    · subst written
      rw [if_pos rfl, if_pos (Nat.le_refl _), reads, grown]
    · rw [if_neg written, after.starts idx positive bound]
      by_cases before : idx ≤ passed
      · rw [if_pos before, if_pos (by omega)]
      · rw [if_neg before, if_neg (by omega)]

/-- The loop over the first `passed` sizes, by induction on `passed`. -/
theorem foldl_take (fits : sizes.length < transactionFieldsSize) :
    ∀ passed ≤ sizes.length, HeaderAfter sizes passed
      ((sizes.take passed).zipIdx.foldl headerStep (List.replicate transactionFieldsSize 0))
  | 0, _ => zeros sizes
  | passed + 1, measured => by
    have before := foldl_take fits passed (by omega)
    rw [List.take_add_one, List.getElem?_eq_getElem (by omega), Option.toList_some,
      List.zipIdx_append, List.foldl_append, List.length_take_of_le (by omega)]
    simp only [List.zipIdx_cons, List.zipIdx_nil, Nat.zero_add, List.foldl_cons, List.foldl_nil]
    exact before.step (by omega) (by omega)

theorem foldl (fits : sizes.length < transactionFieldsSize) :
    HeaderAfter sizes sizes.length
      (sizes.zipIdx.foldl headerStep (List.replicate transactionFieldsSize 0)) := by
  have loop := foldl_take fits sizes.length (Nat.le_refl _)
  rwa [List.take_length] at loop

theorem le_total {header : List Nat} (after : HeaderAfter sizes sizes.length header) :
    ∀ word ∈ header, word ≤ header.getD transactionTotalSizeIndex 0 := by
  intro word member
  obtain ⟨idx, inside, rfl⟩ := List.mem_iff_getElem.mp member
  have read : header[idx] = header.getD idx 0 := by
    rw [List.getD_eq_getElem?_getD, List.getElem?_eq_getElem inside]
    rfl
  have prefixSum : (sizes.take idx).sum ≤ sizes.sum := by
    conv_rhs => rw [← List.take_append_drop idx sizes]
    rw [List.sum_append]
    omega
  have total : header.getD transactionTotalSizeIndex 0 = sizes.sum := by
    rw [after.total, List.take_length]
  rw [read, total]
  rcases Nat.eq_zero_or_pos idx with zero | positive
  · subst zero
    exact Nat.le_of_eq total
  · rw [after.starts idx positive (by rw [← after.length]; exact inside)]
    split
    · exact prefixSum
    · exact Nat.zero_le _

end HeaderAfter

/-! ## One transaction

The bytes of a transaction are its parts laid end to end: the header, then
the encoding of each field, the outputs one after another.  The header the
loop writes holds where each part begins, so each field reads back from
there; each output reads back from the range of its address. -/

section Transaction

variable {ε : Type} (bincode : Bincode ε) (hashers : Hashers)

/-- The parts `serialize_block_body` writes for a transaction, in order. -/
def transactionParts (header : List Nat) (tx : Transaction) : List (List UInt8) :=
  [headerBytes header, bincode.version.serialize tx.version, bincode.deps.serialize tx.deps,
    bincode.inputs.serialize tx.inputs, tx.outputs.flatMap bincode.output.serialize,
    bincode.witnesses.serialize tx.witnesses, bincode.hash.serialize tx.hash,
    bincode.hash.serialize (tx.witnessHash hashers)]

theorem serializeTransaction_eq_flatten (header : List Nat) (tx : Transaction) :
    serializeTransaction bincode hashers header tx =
      (transactionParts bincode hashers header tx).flatten := by
  simp [serializeTransaction, transactionParts]

/-- The sizes `serialized_transaction_size` measures, with the header of
zeros it starts from. -/
def fieldSizes (tx : Transaction) : List Nat :=
  (transactionParts bincode hashers (List.replicate transactionFieldsSize 0) tx).map List.length

theorem map_length_transactionParts {header : List Nat}
    (nine : header.length = transactionFieldsSize) (tx : Transaction) :
    (transactionParts bincode hashers header tx).map List.length = fieldSizes bincode hashers tx := by
  simp [fieldSizes, transactionParts, headerBytes, nine]

theorem serializedTransactionSize_eq (tx : Transaction) :
    serializedTransactionSize bincode hashers tx =
      ((fieldSizes bincode hashers tx).zipIdx.foldl headerStep (List.replicate transactionFieldsSize 0),
        (List.withOffsets (fun output => (bincode.output.serialize output).length) 0 tx.outputs).map
          fun entry => ⟨entry.1 + ((fieldSizes bincode hashers tx).zipIdx.foldl headerStep
            (List.replicate transactionFieldsSize 0)).getD transactionOutputsIndex 0,
            (bincode.output.serialize entry.2).length⟩) := by
  have outputs := @List.foldl_placing CellOutput CellOutputAddress
    (fun output => (bincode.output.serialize output).length)
    (fun offset output => ⟨offset, (bincode.output.serialize output).length⟩)
    (fun placed output => outputAddressStep placed (bincode.output.serialize output).length)
    (fun _ _ _ => rfl) tx.outputs 0 []
  simp only [serializedTransactionSize, List.foldl_map]
  rw [outputs]
  simp [fieldSizes, transactionParts, List.length_flatMap]

theorem serializedTransactionSize_fst (tx : Transaction) :
    (serializedTransactionSize bincode hashers tx).1 =
      (fieldSizes bincode hashers tx).zipIdx.foldl headerStep (List.replicate transactionFieldsSize 0) := by
  rw [serializedTransactionSize_eq]

theorem serializedTransactionSize_header (tx : Transaction) :
    HeaderAfter (fieldSizes bincode hashers tx) (fieldSizes bincode hashers tx).length
      (serializedTransactionSize bincode hashers tx).1 := by
  have eight : (fieldSizes bincode hashers tx).length < transactionFieldsSize := by
    simp only [fieldSizes, transactionParts, List.length_map, List.length_cons, List.length_nil]
    decide
  rw [serializedTransactionSize_fst]
  exact HeaderAfter.foldl eight

theorem serializedTransactionSize_outputs (tx : Transaction) :
    (serializedTransactionSize bincode hashers tx).2 =
      (List.withOffsets (fun output => (bincode.output.serialize output).length) 0 tx.outputs).map
        fun entry => ⟨entry.1 + (serializedTransactionSize bincode hashers tx).1.getD
          transactionOutputsIndex 0, (bincode.output.serialize entry.2).length⟩ := by
  rw [serializedTransactionSize_eq]

theorem layout (tx : Transaction) :
    let header := (serializedTransactionSize bincode hashers tx).1
    header.length = transactionFieldsSize ∧
      header.getD transactionTotalSizeIndex 0 =
        (serializeTransaction bincode hashers header tx).length ∧
      ∀ idx, 0 < idx → idx < transactionFieldsSize →
        header.getD idx 0 = List.partOffset (transactionParts bincode hashers header tx) idx := by
  intro header
  have after := serializedTransactionSize_header bincode hashers tx
  have sizes := map_length_transactionParts bincode hashers after.length tx
  refine ⟨after.length, ?_, ?_⟩
  · rw [after.total, List.take_length, serializeTransaction_eq_flatten, List.length_flatten, sizes]
  · intro idx positive inside
    have measured : idx ≤ (fieldSizes bincode hashers tx).length := by
      simp only [fieldSizes, transactionParts, List.length_map, List.length_cons, List.length_nil]
      unfold transactionFieldsSize at inside
      omega
    rw [after.starts idx positive inside, if_pos measured, List.partOffset, List.map_take, sizes]

theorem header_fits (tx : Transaction)
    (fits : (serializedTransactionSize bincode hashers tx).1.getD transactionTotalSizeIndex 0 < 2 ^ 64) :
    ∀ word ∈ (serializedTransactionSize bincode hashers tx).1, word < 2 ^ 64 := fun word member =>
  Nat.lt_of_le_of_lt ((serializedTransactionSize_header bincode hashers tx).le_total word member) fits

theorem readHeader_headerBytes {header : List Nat} (nine : header.length = transactionFieldsSize)
    (fits : ∀ word ∈ header, word < 2 ^ 64) (rest : List UInt8) :
    readHeader bincode (headerBytes header ++ rest) = .ok header := by
  have wide : ∀ word ∈ header, word < 256 ^ 8 := fits
  rw [readHeader, headerBytes, ← nine, LittleEndian.decodeWords_encodeWords wide]
  rfl

theorem readHeader_serializeTransaction {header : List Nat} (tx : Transaction)
    (nine : header.length = transactionFieldsSize) (fits : ∀ word ∈ header, word < 2 ^ 64) :
    readHeader bincode (serializeTransaction bincode hashers header tx) = .ok header := by
  simp only [serializeTransaction, List.append_assoc]
  exact readHeader_headerBytes bincode nine fits _

theorem deserializeFrom_flatten {α : Type} {codec : Codec ε α} {parts : List (List UInt8)}
    {index : Nat} (inside : index < parts.length) {value : α}
    (written : parts[index] = codec.serialize value) :
    deserializeFrom codec parts.flatten (List.partOffset parts index) = .ok value := by
  rw [deserializeFrom, List.sliceFrom_flatten inside, written]
  simp [Option.getDM, codec.deserialize_serialize]

theorem deserializeRange_of_sliceRange {α : Type} {codec : Codec ε α} {bytes : List UInt8}
    {start stop : Nat} {value : α} (sliced : bytes.sliceRange start stop = some (codec.serialize value)) :
    deserializeRange codec bytes start stop = .ok value := by
  have read := codec.deserialize_serialize value []
  rw [List.append_nil] at read
  simp [deserializeRange, sliced, Option.getDM, read]

theorem sliceRange_outputAddress (tx : Transaction) {index : Nat} {address : CellOutputAddress}
    (located : (serializedTransactionSize bincode hashers tx).2[index]? = some address) :
    ∃ output, tx.outputs[index]? = some output ∧
      (serializeTransaction bincode hashers (serializedTransactionSize bincode hashers tx).1 tx).sliceRange
        address.offset (address.offset + address.length) = some (bincode.output.serialize output) := by
  obtain ⟨-, -, starts⟩ := layout bincode hashers tx
  rw [serializedTransactionSize_outputs, List.getElem?_map, List.getElem?_withOffsets,
    Option.map_map] at located
  obtain ⟨output, found, rfl⟩ := Option.map_eq_some_iff.mp located
  obtain ⟨inside, rfl⟩ := List.getElem?_eq_some_iff.mp found
  refine ⟨_, found, ?_⟩
  -- the outputs are one part of the transaction, and pieces laid end to end
  -- within it
  set parts := transactionParts bincode hashers (serializedTransactionSize bincode hashers tx).1 tx
  set pieces := tx.outputs.map bincode.output.serialize
  have outputsInside : transactionOutputsIndex < parts.length := by
    simp [parts, transactionParts, transactionOutputsIndex]
  have piecesInside : index < pieces.length := by
    rw [List.length_map]
    exact inside
  have part : parts[transactionOutputsIndex] = pieces.flatten := List.flatMap_def
  have within : List.partOffset pieces index + pieces[index].length ≤
      parts[transactionOutputsIndex].length := by
    rw [part]
    exact List.partOffset_add_length_le piecesInside
  have sliced := @List.sliceRange_flatten_within UInt8 parts transactionOutputsIndex outputsInside
    (List.partOffset pieces index) (List.partOffset pieces index + pieces[index].length) within
  rw [part, List.sliceRange_flatten piecesInside, List.getElem_map] at sliced
  have offset : ((tx.outputs.take index).map fun output => (bincode.output.serialize output).length).sum =
      List.partOffset pieces index := by
    rw [List.partOffset, ← List.map_take, List.map_map, Function.comp_def]
  dsimp only [Function.comp_apply]
  rw [serializeTransaction_eq_flatten, Nat.zero_add, offset,
    starts transactionOutputsIndex (by decide) (by decide), Nat.add_comm _ (List.partOffset parts _),
    Nat.add_assoc]
  exact sliced

theorem length_outputAddresses (tx : Transaction) :
    (serializedTransactionSize bincode hashers tx).2.length = tx.outputs.length := by
  rw [serializedTransactionSize_outputs, List.length_map, List.length_withOffsets]

theorem mapM_outputAddresses (tx : Transaction) :
    ((serializedTransactionSize bincode hashers tx).2.mapM fun address =>
        deserializeRange bincode.output
          (serializeTransaction bincode hashers (serializedTransactionSize bincode hashers tx).1 tx)
          address.offset (address.offset + address.length)) = .ok tx.outputs := by
  apply List.mapM_eq_pure_of_getElem? (length_outputAddresses bincode hashers tx)
  intro index address output located found
  obtain ⟨stored, stored_found, sliced⟩ := sliceRange_outputAddress bincode hashers tx located
  rw [found, Option.some.injEq] at stored_found
  rw [← stored_found] at sliced
  exact deserializeRange_of_sliceRange sliced

section Starts

variable {header : List Nat} {tx : Transaction}
  (starts : ∀ idx, 0 < idx → idx < transactionFieldsSize →
    header.getD idx 0 = List.partOffset (transactionParts bincode hashers header tx) idx)
include starts

theorem deserializeFrom_field {α : Type} {codec : Codec ε α} {value : α} {idx : Nat}
    (positive : 0 < idx) (inside : idx < transactionFieldsSize)
    (written : (transactionParts bincode hashers header tx)[idx]? = some (codec.serialize value)) :
    deserializeFrom codec (serializeTransaction bincode hashers header tx) (header.getD idx 0) =
      .ok value := by
  obtain ⟨within, stored⟩ := List.getElem?_eq_some_iff.mp written
  rw [serializeTransaction_eq_flatten, starts idx positive inside]
  exact deserializeFrom_flatten within stored

variable (nine : header.length = transactionFieldsSize) (fits : ∀ word ∈ header, word < 2 ^ 64)
include nine fits

/-- A transaction reads back from its bytes, given a header that holds where
each of its fields begins and output addresses from which its outputs read
back. -/
theorem deserializeTransaction_of_starts {outputAddresses : List CellOutputAddress}
    (outputs : (outputAddresses.mapM fun address =>
        deserializeRange bincode.output (serializeTransaction bincode hashers header tx)
          address.offset (address.offset + address.length)) = .ok tx.outputs) :
    deserializeTransaction bincode (serializeTransaction bincode hashers header tx) outputAddresses =
      .ok ⟨tx, tx.witnessHash hashers⟩ := by
  simp only [deserializeTransaction, readHeader_serializeTransaction bincode hashers tx nine fits,
    Except.ok_bind, outputs,
    deserializeFrom_field bincode hashers starts (by decide : 0 < 1) (by decide) rfl,
    deserializeFrom_field bincode hashers starts (by decide : 0 < 2) (by decide) rfl,
    deserializeFrom_field bincode hashers starts (by decide : 0 < 3) (by decide) rfl,
    deserializeFrom_field bincode hashers starts (by decide : 0 < 5) (by decide) rfl,
    deserializeFrom_field bincode hashers starts (by decide : 0 < transactionHashIndex) (by decide) rfl,
    deserializeFrom_field bincode hashers starts (by decide : 0 < 7) (by decide) rfl]
  rfl

theorem deserializeTransactionHash_of_starts :
    deserializeTransactionHash bincode (serializeTransaction bincode hashers header tx) = .ok tx.hash := by
  simp only [deserializeTransactionHash, readHeader_serializeTransaction bincode hashers tx nine fits,
    Except.ok_bind,
    deserializeFrom_field bincode hashers starts (by decide : 0 < transactionHashIndex) (by decide) rfl]

end Starts

/-- A transaction reads back from the bytes and the output addresses that
`serialized_transaction_size` lays out, when its size fits a `usize`. -/
theorem deserializeTransaction_serializeTransaction (tx : Transaction)
    (fits : (serializedTransactionSize bincode hashers tx).1.getD transactionTotalSizeIndex 0 < 2 ^ 64) :
    deserializeTransaction bincode
        (serializeTransaction bincode hashers (serializedTransactionSize bincode hashers tx).1 tx)
        (serializedTransactionSize bincode hashers tx).2 =
      .ok ⟨tx, tx.witnessHash hashers⟩ := by
  obtain ⟨nine, -, starts⟩ := layout bincode hashers tx
  exact deserializeTransaction_of_starts bincode hashers starts nine
    (header_fits bincode hashers tx fits) (mapM_outputAddresses bincode hashers tx)

theorem deserializeTransactionHash_serializeTransaction (tx : Transaction)
    (fits : (serializedTransactionSize bincode hashers tx).1.getD transactionTotalSizeIndex 0 < 2 ^ 64) :
    deserializeTransactionHash bincode
        (serializeTransaction bincode hashers (serializedTransactionSize bincode hashers tx).1 tx) =
      .ok tx.hash := by
  obtain ⟨nine, -, starts⟩ := layout bincode hashers tx
  exact deserializeTransactionHash_of_starts bincode hashers starts nine
    (header_fits bincode hashers tx fits)

end Transaction

/-! ## The block

The body is the transactions' bytes laid end to end, and each address
`serialize_block_body_size` gives holds where its transaction begins and how
long it is. -/

section Block

variable {ε : Type} (bincode : Bincode ε) (hashers : Hashers)

/-- The entries `serialize_block_body_size` folds over: each transaction's
index, header and output addresses. -/
def transactionEntries (txs : List Transaction) : List (Nat × List Nat × List CellOutputAddress) :=
  txs.zipIdx.map fun (tx, idx) => (idx, serializedTransactionSize bincode hashers tx)

theorem map_size_transactionEntries (txs : List Transaction) :
    (transactionEntries bincode hashers txs).map
        (fun entry => entry.2.1.getD transactionTotalSizeIndex 0) =
      txs.map fun tx => (serializedTransactionSize bincode hashers tx).1.getD transactionTotalSizeIndex 0 := by
  conv_rhs => rw [← List.zipIdx_map_fst 0 txs]
  simp only [transactionEntries, List.map_map]
  rfl

/-- `serialize_block_body_size` places each transaction at the running offset. -/
theorem serializeBlockBodySize_eq (txs : List Transaction) :
    serializeBlockBodySize bincode hashers txs =
      ((txs.map fun tx =>
          (serializedTransactionSize bincode hashers tx).1.getD transactionTotalSizeIndex 0).sum,
        (List.withOffsets (fun entry => entry.2.1.getD transactionTotalSizeIndex 0) 0
          (transactionEntries bincode hashers txs)).map fun placed =>
            ⟨placed.2.1, placed.1, placed.2.2.1.getD transactionTotalSizeIndex 0, placed.2.2.1,
              placed.2.2.2⟩) := by
  have placed := @List.foldl_placing (Nat × List Nat × List CellOutputAddress) TransactionAddressInner
    (fun entry => entry.2.1.getD transactionTotalSizeIndex 0)
    (fun offset entry =>
      ⟨entry.1, offset, entry.2.1.getD transactionTotalSizeIndex 0, entry.2.1, entry.2.2⟩)
    transactionAddressStep (fun _ _ _ => rfl) (transactionEntries bincode hashers txs) 0 []
  rw [serializeBlockBodySize, ← transactionEntries, placed, Nat.zero_add, List.nil_append,
    map_size_transactionEntries]

theorem serializeBlockBodySize_fst (txs : List Transaction) :
    (serializeBlockBodySize bincode hashers txs).1 =
      (txs.map fun tx =>
        (serializedTransactionSize bincode hashers tx).1.getD transactionTotalSizeIndex 0).sum := by
  rw [serializeBlockBodySize_eq]

theorem length_serializeBlockBodySize (txs : List Transaction) :
    (serializeBlockBodySize bincode hashers txs).2.length = txs.length := by
  rw [serializeBlockBodySize_eq, List.length_map, List.length_withOffsets, transactionEntries,
    List.length_map, List.length_zipIdx]

/-- The address of the transaction at `index`: its index, the sizes of the
transactions before it, its size, its header and its output addresses. -/
theorem getElem?_serializeBlockBodySize (txs : List Transaction) (index : Nat) :
    (serializeBlockBodySize bincode hashers txs).2[index]? =
      txs[index]?.map fun tx => ⟨index,
        ((txs.take index).map fun tx =>
          (serializedTransactionSize bincode hashers tx).1.getD transactionTotalSizeIndex 0).sum,
        (serializedTransactionSize bincode hashers tx).1.getD transactionTotalSizeIndex 0,
        (serializedTransactionSize bincode hashers tx).1,
        (serializedTransactionSize bincode hashers tx).2⟩ := by
  have entry : (transactionEntries bincode hashers txs)[index]? =
      txs[index]?.map fun tx => (index, serializedTransactionSize bincode hashers tx) := by
    simp only [transactionEntries, List.getElem?_map, List.getElem?_zipIdx, Option.map_map,
      Nat.zero_add]
    rfl
  rw [serializeBlockBodySize_eq, List.getElem?_map, List.getElem?_withOffsets, entry, List.map_take,
    map_size_transactionEntries, ← List.map_take, Option.map_map, Option.map_map, Nat.zero_add]
  rfl

theorem fits_of_mem {txs : List Transaction}
    (fits : (serializeBlockBodySize bincode hashers txs).1 < 2 ^ 64) {tx : Transaction}
    (member : tx ∈ txs) :
    (serializedTransactionSize bincode hashers tx).1.getD transactionTotalSizeIndex 0 < 2 ^ 64 := by
  rw [serializeBlockBodySize_fst] at fits
  have counted : (serializedTransactionSize bincode hashers tx).1.getD transactionTotalSizeIndex 0 ∈
      txs.map fun tx => (serializedTransactionSize bincode hashers tx).1.getD transactionTotalSizeIndex 0 :=
    List.mem_map_of_mem member
  exact Nat.lt_of_le_of_lt (List.le_sum_of_mem counted) fits

/-- The transactions' bytes, in order, as `serialize_block_body` writes them. -/
def bodyParts (txs : List Transaction) : List (List UInt8) :=
  txs.map fun tx => serializeTransaction bincode hashers (serializedTransactionSize bincode hashers tx).1 tx

theorem sum_take_eq_partOffset (txs : List Transaction) (index : Nat) :
    ((txs.take index).map fun tx =>
        (serializedTransactionSize bincode hashers tx).1.getD transactionTotalSizeIndex 0).sum =
      List.partOffset (bodyParts bincode hashers txs) index := by
  have same : ∀ tx ∈ txs.take index,
      (serializedTransactionSize bincode hashers tx).1.getD transactionTotalSizeIndex 0 =
        (serializeTransaction bincode hashers (serializedTransactionSize bincode hashers tx).1 tx).length :=
    fun tx _ => (layout bincode hashers tx).2.1
  rw [List.map_congr_left same, List.partOffset, bodyParts, ← List.map_take, List.map_map,
    Function.comp_def]

/-- The loop writes each transaction of a run with the header of its
address. -/
theorem foldlM_serializeBlockBodyStep {txAddresses : List TransactionAddressInner}
    (entries : List (Transaction × Nat))
    (found : ∀ entry ∈ entries, ∃ address, txAddresses[entry.2]? = some address ∧
      address.header = (serializedTransactionSize bincode hashers entry.1).1)
    (bytes : List UInt8) :
    entries.foldlM (serializeBlockBodyStep bincode hashers txAddresses) bytes =
      .ok (bytes ++ (entries.map fun entry => serializeTransaction bincode hashers
        (serializedTransactionSize bincode hashers entry.1).1 entry.1).flatten) := by
  induction entries generalizing bytes with
  | nil => simp
  | cons entry entries induction =>
      rw [List.forall_mem_cons] at found
      obtain ⟨address, stored, header⟩ := found.1
      have step : serializeBlockBodyStep bincode hashers txAddresses bytes entry =
          .ok (bytes ++ serializeTransaction bincode hashers
            (serializedTransactionSize bincode hashers entry.1).1 entry.1) := by
        simp [serializeBlockBodyStep, stored, header, Option.getDM]
      rw [List.foldlM_cons, step, Except.ok_bind, induction found.2, List.map_cons,
        List.flatten_cons, List.append_assoc]

/-- `serialize_block_body` never reaches its index panic: it lays the
transactions' bytes end to end, with the addresses of
`serialize_block_body_size`. -/
theorem serializeBlockBody_eq_ok (txs : List Transaction) :
    serializeBlockBody bincode hashers txs =
      .ok ((bodyParts bincode hashers txs).flatten, (serializeBlockBodySize bincode hashers txs).2) := by
  have found : ∀ entry ∈ txs.zipIdx, ∃ address,
      (serializeBlockBodySize bincode hashers txs).2[entry.2]? = some address ∧
        address.header = (serializedTransactionSize bincode hashers entry.1).1 := by
    rintro ⟨tx, idx⟩ member
    obtain ⟨-, inside, stored⟩ := List.mem_zipIdx member
    have lookup : txs[idx]? = some tx := by
      rw [List.getElem?_eq_some_iff]
      exact ⟨by omega, by simp [stored]⟩
    have stored := getElem?_serializeBlockBodySize bincode hashers txs idx
    rw [lookup, Option.map_some] at stored
    exact ⟨_, stored, by with_reducible rfl⟩
  have written : (txs.zipIdx.map fun entry => serializeTransaction bincode hashers
      (serializedTransactionSize bincode hashers entry.1).1 entry.1) = bodyParts bincode hashers txs := by
    conv_rhs => rw [bodyParts, ← List.zipIdx_map_fst 0 txs]
    rw [List.map_map]
    rfl
  rw [serializeBlockBody, foldlM_serializeBlockBodyStep bincode hashers _ found, Except.ok_bind,
    List.nil_append, written]
  rfl

/-- Each address finds its transaction's bytes in the body, with the header
and the output addresses of the transaction. -/
theorem read_address {txs : List Transaction} {index : Nat} {address : TransactionAddressInner}
    (stored : (serializeBlockBodySize bincode hashers txs).2[index]? = some address) :
    ∃ tx, txs[index]? = some tx ∧
      (bodyParts bincode hashers txs).flatten.sliceRange address.offset
          (address.offset + address.length) =
        some (serializeTransaction bincode hashers (serializedTransactionSize bincode hashers tx).1 tx) ∧
      address.outputsAddresses = (serializedTransactionSize bincode hashers tx).2 := by
  rw [getElem?_serializeBlockBodySize] at stored
  obtain ⟨tx, found, rfl⟩ := Option.map_eq_some_iff.mp stored
  obtain ⟨inside, rfl⟩ := List.getElem?_eq_some_iff.mp found
  refine ⟨_, found, ?_, rfl⟩
  have sliced := List.sliceRange_flatten (by rw [bodyParts, List.length_map]; exact inside :
    index < (bodyParts bincode hashers txs).length)
  rw [← sum_take_eq_partOffset] at sliced
  simp only [bodyParts, List.getElem_map] at sliced ⊢
  rw [← (layout bincode hashers _).2.1] at sliced
  exact sliced

theorem read_address_of_getElem? {txs : List Transaction} {index : Nat}
    {address : TransactionAddressInner}
    (stored : (serializeBlockBodySize bincode hashers txs).2[index]? = some address) {tx : Transaction}
    (found : txs[index]? = some tx) :
    (bodyParts bincode hashers txs).flatten.sliceRange address.offset
        (address.offset + address.length) =
      some (serializeTransaction bincode hashers (serializedTransactionSize bincode hashers tx).1 tx) ∧
    address.outputsAddresses = (serializedTransactionSize bincode hashers tx).2 := by
  obtain ⟨listed, listed_found, sliced, outputs⟩ := read_address bincode hashers stored
  rw [found, Option.some.injEq] at listed_found
  subst listed_found
  exact ⟨sliced, outputs⟩

/-- Each output's range, past its transaction's offset, holds the output's
bytes. -/
theorem read_output_address {txs : List Transaction} {index : Nat} {address : TransactionAddressInner}
    (stored : (serializeBlockBodySize bincode hashers txs).2[index]? = some address) {tx : Transaction}
    (found : txs[index]? = some tx) {outputIndex : Nat} {output : CellOutput}
    (produced : tx.outputs[outputIndex]? = some output) :
    ∃ outputAddress, address.outputsAddresses[outputIndex]? = some outputAddress ∧
      (bodyParts bincode hashers txs).flatten.sliceRange (address.offset + outputAddress.offset)
          (address.offset + outputAddress.offset + outputAddress.length) =
        some (bincode.output.serialize output) := by
  obtain ⟨sliced, outputs⟩ := read_address_of_getElem? bincode hashers stored found
  have addressed : outputIndex < (serializedTransactionSize bincode hashers tx).2.length := by
    rw [length_outputAddresses]
    exact (List.getElem?_eq_some_iff.mp produced).1
  have located := List.getElem?_eq_getElem addressed
  obtain ⟨same, same_found, inner⟩ := sliceRange_outputAddress bincode hashers tx located
  rw [produced, Option.some.injEq] at same_found
  subst same_found
  refine ⟨_, by rw [outputs]; exact located, ?_⟩
  rw [Nat.add_assoc, List.sliceRange_of_sliceRange sliced (List.le_length_of_sliceRange_eq_some inner)]
  exact inner

/-- Reading each address's range of the body with `read` gives, in order,
what each transaction's own bytes read as. -/
theorem mapM_read_addresses {β : Type} {txs : List Transaction}
    (read : List UInt8 → List CellOutputAddress → Except (FlatError ε) β) (value : Transaction → β)
    (reads : ∀ tx ∈ txs,
      read (serializeTransaction bincode hashers (serializedTransactionSize bincode hashers tx).1 tx)
        (serializedTransactionSize bincode hashers tx).2 = .ok (value tx)) :
    ((serializeBlockBodySize bincode hashers txs).2.mapM fun address => do
      let tx ← ((bodyParts bincode hashers txs).flatten.sliceRange address.offset
        (address.offset + address.length)).getDM (Except.error FlatError.outOfRange)
      read tx address.outputsAddresses) = .ok (txs.map value) := by
  apply List.mapM_eq_pure_of_getElem?
  · rw [length_serializeBlockBodySize, List.length_map]
  · intro index address result stored listed
    obtain ⟨tx, found, sliced, outputs⟩ := read_address bincode hashers stored
    rw [List.getElem?_map, found, Option.map_some, Option.some.injEq] at listed
    simp only [sliced, ← listed, outputs, Option.getDM, pure_bind]
    exact reads tx (List.mem_of_getElem? found)

theorem deserializeBlockBody_serializeBlockBody (txs : List Transaction)
    (fits : (serializeBlockBodySize bincode hashers txs).1 < 2 ^ 64) :
    deserializeBlockBody bincode (bodyParts bincode hashers txs).flatten
        (serializeBlockBodySize bincode hashers txs).2 =
      .ok (txs.map fun tx => ⟨tx, tx.witnessHash hashers⟩) := by
  apply mapM_read_addresses bincode hashers (deserializeTransaction bincode)
  intro tx member
  exact deserializeTransaction_serializeTransaction bincode hashers tx
    (fits_of_mem bincode hashers fits member)

theorem deserializeBlockBodyForHashesOnly_serializeBlockBody (txs : List Transaction)
    (fits : (serializeBlockBodySize bincode hashers txs).1 < 2 ^ 64) :
    deserializeBlockBodyForHashesOnly bincode (bodyParts bincode hashers txs).flatten
        (serializeBlockBodySize bincode hashers txs).2 =
      .ok (txs.map Transaction.hash) := by
  apply mapM_read_addresses bincode hashers fun tx _ => deserializeTransactionHash bincode tx
  intro tx member
  exact deserializeTransactionHash_serializeTransaction bincode hashers tx
    (fits_of_mem bincode hashers fits member)

/-- What the store reads back from a flat body and its addresses: the whole
body (`get_block_body`), the hashes alone (`get_block_txs_hashes`), each
transaction from its range (`get_transaction`, `get_cellbase`) and each output
from the range past its transaction's offset (`get_cell_output`). -/
structure ReadsBack (txs : List Transaction) (bytes : List UInt8)
    (txAddresses : List TransactionAddressInner) : Prop where
  body : deserializeBlockBody bincode bytes txAddresses =
    .ok (txs.map fun tx => ⟨tx, tx.witnessHash hashers⟩)
  hashes : deserializeBlockBodyForHashesOnly bincode bytes txAddresses = .ok (txs.map Transaction.hash)
  transactions : ∀ (index : Nat) tx, txs[index]? = some tx →
    ∃ address : TransactionAddressInner, txAddresses[index]? = some address ∧
    ∃ slice, bytes.sliceRange address.offset (address.offset + address.length) = some slice ∧
      deserializeTransaction bincode slice address.outputsAddresses = .ok ⟨tx, tx.witnessHash hashers⟩
  outputs : ∀ (index : Nat) tx (address : TransactionAddressInner), txs[index]? = some tx →
    txAddresses[index]? = some address →
    ∀ (outputIndex : Nat) output, tx.outputs[outputIndex]? = some output →
      ∃ outputAddress : CellOutputAddress, address.outputsAddresses[outputIndex]? = some outputAddress ∧
        ∃ slice, bytes.sliceRange (address.offset + outputAddress.offset)
            (address.offset + outputAddress.offset + outputAddress.length) = some slice ∧
          bincode.output.deserialize slice = .ok output

/-- The flat encoding of a block body reads back at every granularity the
store reads it at, from the addresses `attach_block` stores. -/
theorem serializeBlockBody_reads_back (txs : List Transaction)
    (fits : (serializeBlockBodySize bincode hashers txs).1 < 2 ^ 64) :
    ∃ bytes, serializeBlockBody bincode hashers txs =
        .ok (bytes, (serializeBlockBodySize bincode hashers txs).2) ∧
      ReadsBack bincode hashers txs bytes (serializeBlockBodySize bincode hashers txs).2 := by
  refine ⟨_, serializeBlockBody_eq_ok bincode hashers txs, ?_⟩
  constructor
  · exact deserializeBlockBody_serializeBlockBody bincode hashers txs fits
  · exact deserializeBlockBodyForHashesOnly_serializeBlockBody bincode hashers txs fits
  · intro index tx found
    have stored := getElem?_serializeBlockBodySize bincode hashers txs index
    rw [found, Option.map_some] at stored
    obtain ⟨sliced, outputs⟩ := read_address_of_getElem? bincode hashers stored found
    refine ⟨_, stored, _, sliced, ?_⟩
    rw [outputs]
    exact deserializeTransaction_serializeTransaction bincode hashers tx
      (fits_of_mem bincode hashers fits (List.mem_of_getElem? found))
  · intro index tx address found stored outputIndex output produced
    obtain ⟨outputAddress, located, sliced⟩ :=
      read_output_address bincode hashers stored found produced
    refine ⟨outputAddress, located, _, sliced, ?_⟩
    simpa using bincode.output.deserialize_serialize output []

end Block

/-! ## An encoding with the law -/

/-- Every field as varints, tag bytes and lists of them: an encoding of the
fields of a transaction with the law of a `Bincode`, whatever the sizes of
their numbers. -/
def varintBincode {ε : Type} (eof : ε) : Bincode ε :=
  let nat := Format.varint eof
  let bytes := Format.list eof (Format.byte eof)
  let hash := nat.map H256.mk H256.value fun _ => rfl
  let script := ((Format.list eof bytes).pair hash).map (fun (args, codeHash) => ⟨args, codeHash⟩)
    (fun script => (script.args, script.codeHash)) fun _ => rfl
  let cellOutPoint := (hash.pair nat).map (fun (txHash, index) => ⟨txHash, index⟩)
    (fun cell => (cell.txHash, cell.index)) fun _ => rfl
  let outPoint := ((Format.option eof hash).pair (Format.option eof cellOutPoint)).map
    (fun (blockHash, cell) => ⟨blockHash, cell⟩) (fun outPoint => (outPoint.blockHash, outPoint.cell))
    fun _ => rfl
  let since := nat.map UInt64.ofNat UInt64.toNat fun _ => UInt64.ofNat_toNat
  let input := (outPoint.pair since).map (fun (previousOutput, since) => ⟨previousOutput, since⟩)
    (fun input => (input.previousOutput, input.since)) fun _ => rfl
  let capacity := nat.map Capacity.mk Capacity.shannons fun _ => rfl
  let output := (capacity.pair (bytes.pair (script.pair (Format.option eof script)))).map
    (fun (capacity, data, lock, type_) => ⟨capacity, data, lock, type_⟩)
    (fun output => (output.capacity, output.data, output.lock, output.type_)) fun _ => rfl
  ⟨eof, nat.codec, (Format.list eof outPoint).codec, (Format.list eof input).codec, output.codec,
    (Format.list eof (Format.list eof bytes)).codec, hash.codec⟩

/-- Digests that are all zero. -/
def zeroHashers : Hashers :=
  ⟨fun _ _ _ _ => ⟨0⟩, fun _ => ⟨0⟩, fun _ _ => ⟨0⟩, fun _ => ⟨0⟩, fun _ => ⟨0⟩, fun _ => ⟨0⟩,
    fun _ => ⟨0⟩⟩

/-- A transaction with one input and two outputs, one of them typed. -/
def twoOutputTx : Transaction :=
  ⟨0, [], [⟨OutPoint.null, 5⟩],
    [⟨⟨300⟩, [1, 2], ⟨[], ⟨7⟩⟩, none⟩, ⟨⟨1⟩, [], ⟨[[3]], ⟨9⟩⟩, some ⟨[], ⟨1⟩⟩⟩], [[[4]]], ⟨200⟩⟩

theorem twoOutputTx_reads_back :
    (serializeBlockBodySize (varintBincode ()) zeroHashers [twoOutputTx]).1 < 2 ^ 64 ∧
      ∃ bytes, serializeBlockBody (varintBincode ()) zeroHashers [twoOutputTx] =
          .ok (bytes, (serializeBlockBodySize (varintBincode ()) zeroHashers [twoOutputTx]).2) ∧
        ReadsBack (varintBincode ()) zeroHashers [twoOutputTx] bytes
          (serializeBlockBodySize (varintBincode ()) zeroHashers [twoOutputTx]).2 :=
  ⟨by decide, serializeBlockBody_reads_back _ _ _ (by decide)⟩

end Ckb
