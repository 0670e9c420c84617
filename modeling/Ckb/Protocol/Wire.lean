import Ckb.Lib.Except
import Ckb.Sync.Relayer

/-!
# Flatbuffers messages and their conversions

The tables of `protocol.fbs` as their readers return them, the builders of
`protocol/src/builder.rs` that write them, and the `TryFrom` conversions of
`protocol/src/convert.rs` and `sync/src/relayer/compact_block.rs` that read
them back.  A table or vector field that a buffer may lack is an `Option`; a
scalar field reads as its default when absent, so it is a plain value.  The
buffer and the flatbuffers verifier are not modelled: a table here is what
the readers of an accepted buffer return.

A missing field fails as `Malformed` (the `cast!` macro), and the hashes and
the little-endian difficulty fail as their `from_slice` and
`from_little_endian` do.  The one panic of these conversions is the
`copy_from_slice` of a short id into six bytes.
-/

namespace Ckb

/-- The errors the conversions propagate with `?`. -/
inductive ProtocolError where
  | malformed
  | fixedHash
  | fixedUint
  deriving DecidableEq, Repr

/-- `cast!`: a missing field is malformed. -/
def Protocol.cast {α : Type} : Option α → Except ProtocolError α
  | some value => .ok value
  | none => .error .malformed

/-! ## Fixed-width values -/

/-- `struct H256`: thirty-two bytes. -/
structure FbsH256 where
  bytes : List UInt8
  thirtyTwo : bytes.length = 32
  deriving DecidableEq

/-- `struct ProposalShortId`: ten bytes. -/
structure FbsProposalShortId where
  bytes : List UInt8
  ten : bytes.length = 10
  deriving DecidableEq

def FbsH256.ofH256 (hash : H256) : FbsH256 :=
  ⟨hash.asBytes, by simp [H256.asBytes]⟩

def H256.tryFrom (hash : FbsH256) : Except ProtocolError H256 :=
  (H256.fromSlice hash.bytes).getDM (.error .fixedHash)

/-- The ten bytes of a proposal id, in the order `from_tx_hash` takes them
from the transaction hash. -/
def ProposalShortId.bytes (id : ProposalShortId) : List UInt8 :=
  (LittleEndian.encode id.value 10).reverse

/-- `ProposalShortId::from_slice`: exactly ten bytes, read big-endian. -/
def ProposalShortId.fromSlice (bytes : List UInt8) : Option ProposalShortId :=
  if bytes.length = 10 then some ⟨bytes.foldl (fun value byte => value * 256 + byte.toNat) 0⟩
  else none

def FbsProposalShortId.ofProposalShortId (id : ProposalShortId) : FbsProposalShortId :=
  ⟨id.bytes, by simp [ProposalShortId.bytes]⟩

def ProposalShortId.tryFrom (id : FbsProposalShortId) : Except ProtocolError ProposalShortId :=
  Protocol.cast (ProposalShortId.fromSlice id.bytes)

/-- `uint_to_bytes`: the thirty-two little-endian bytes of a `U256`. -/
def uintToBytes (uint : Nat) : List UInt8 :=
  LittleEndian.encode uint 32

/-- `U256::from_little_endian`: at most thirty-two bytes, least significant
first. -/
def U256.fromLittleEndian (bytes : List UInt8) : Except ProtocolError Nat :=
  if bytes.length ≤ 32 then .ok (LittleEndian.decode bytes) else .error .fixedUint

/-! ## Tables -/

structure FbsBytes where
  seq : Option (List UInt8)
  deriving DecidableEq, Repr

structure FbsOutPoint where
  blockHash : Option FbsH256
  txHash : Option FbsH256
  index : UInt32
  deriving DecidableEq

structure FbsCellInput where
  blockHash : Option FbsH256
  txHash : Option FbsH256
  index : UInt32
  since : UInt64
  deriving DecidableEq

structure FbsScript where
  args : Option (List FbsBytes)
  codeHash : Option FbsH256
  deriving DecidableEq

structure FbsCellOutput where
  capacity : UInt64
  data : Option FbsBytes
  lock : Option FbsScript
  type_ : Option FbsScript
  deriving DecidableEq

structure FbsWitness where
  data : Option (List FbsBytes)
  deriving DecidableEq

structure FbsTransaction where
  version : UInt32
  deps : Option (List FbsOutPoint)
  inputs : Option (List FbsCellInput)
  outputs : Option (List FbsCellOutput)
  witnesses : Option (List FbsWitness)
  deriving DecidableEq

structure FbsHeader where
  version : UInt32
  parentHash : Option FbsH256
  timestamp : UInt64
  number : UInt64
  transactionsRoot : Option FbsH256
  witnessesRoot : Option FbsH256
  proposalsHash : Option FbsH256
  difficulty : Option FbsBytes
  nonce : UInt64
  proof : Option FbsBytes
  unclesHash : Option FbsH256
  unclesCount : UInt32
  epoch : UInt64
  deriving DecidableEq

structure FbsUncleBlock where
  header : Option FbsHeader
  proposals : Option (List FbsProposalShortId)
  deriving DecidableEq

structure FbsBlock where
  header : Option FbsHeader
  uncles : Option (List FbsUncleBlock)
  transactions : Option (List FbsTransaction)
  proposals : Option (List FbsProposalShortId)
  deriving DecidableEq

structure FbsIndexTransaction where
  index : UInt32
  transaction : Option FbsTransaction
  deriving DecidableEq

structure FbsCompactBlock where
  header : Option FbsHeader
  nonce : UInt64
  shortIds : Option (List FbsBytes)
  prefilledTransactions : Option (List FbsIndexTransaction)
  uncles : Option (List FbsUncleBlock)
  proposals : Option (List FbsProposalShortId)
  deriving DecidableEq

/-! ## Builders -/

def FbsBytes.build (seq : List UInt8) : FbsBytes :=
  ⟨some seq⟩

/-- The `block_hash`, `tx_hash` and `index` that `FbsOutPoint::build` and
`FbsCellInput::build` write for an out point; an index left out reads as
zero. -/
def OutPoint.fbsParts (outPoint : OutPoint) : Option FbsH256 × Option FbsH256 × UInt32 :=
  (outPoint.blockHash.map FbsH256.ofH256, outPoint.cell.map fun cell => .ofH256 cell.txHash,
    (outPoint.cell.map fun cell => UInt32.ofNat cell.index).getD 0)

def FbsOutPoint.build (outPoint : OutPoint) : FbsOutPoint :=
  let (blockHash, txHash, index) := outPoint.fbsParts
  ⟨blockHash, txHash, index⟩

def FbsCellInput.build (cellInput : CellInput) : FbsCellInput :=
  let (blockHash, txHash, index) := cellInput.previousOutput.fbsParts
  ⟨blockHash, txHash, index, cellInput.since⟩

def FbsScript.build (script : Script) : FbsScript :=
  ⟨some (script.args.map FbsBytes.build), some (.ofH256 script.codeHash)⟩

def FbsWitness.build (witness : Witness) : FbsWitness :=
  ⟨some (witness.map FbsBytes.build)⟩

def FbsCellOutput.build (cellOutput : CellOutput) : FbsCellOutput :=
  ⟨UInt64.ofNat cellOutput.capacity.shannons, some (FbsBytes.build cellOutput.data),
    some (FbsScript.build cellOutput.lock), cellOutput.type_.map FbsScript.build⟩

def FbsTransaction.build (transaction : Transaction) : FbsTransaction :=
  ⟨UInt32.ofNat transaction.version, some (transaction.deps.map FbsOutPoint.build),
    some (transaction.inputs.map FbsCellInput.build),
    some (transaction.outputs.map FbsCellOutput.build),
    some (transaction.witnesses.map FbsWitness.build)⟩

def FbsHeader.build (header : Core.Header) : FbsHeader :=
  { version := header.raw.version
    parentHash := some (.ofH256 header.raw.parentHash)
    timestamp := header.raw.timestamp
    number := header.raw.number
    transactionsRoot := some (.ofH256 header.raw.transactionsRoot)
    witnessesRoot := some (.ofH256 header.raw.witnessesRoot)
    proposalsHash := some (.ofH256 header.raw.proposalsHash)
    difficulty := some (FbsBytes.build (uintToBytes header.raw.difficulty))
    nonce := header.seal_.nonce
    proof := some (FbsBytes.build header.seal_.proof)
    unclesHash := some (.ofH256 header.raw.unclesHash)
    unclesCount := header.raw.unclesCount
    epoch := header.raw.epoch }

def FbsUncleBlock.build (uncle : Core.UncleBlock) : FbsUncleBlock :=
  ⟨some (FbsHeader.build uncle.header), some (uncle.proposals.map .ofProposalShortId)⟩

def FbsBlock.build (block : Core.Block) : FbsBlock :=
  ⟨some (FbsHeader.build block.header), some (block.uncles.map FbsUncleBlock.build),
    some (block.transactions.map FbsTransaction.build),
    some (block.proposals.map .ofProposalShortId)⟩

variable (hashers : Hashers) (sip : ShortIdHashers)

/-- `CompactBlock::build` of `protocol/src/builder.rs`, with its random nonce
as an argument: the cellbase and the chosen indexes are written whole with
their index as a `u32`, every other transaction as the bytes of its short
id. -/
def FbsCompactBlock.build (block : Core.Block) (prefilledTransactionsIndexes : List Nat)
    (nonce : UInt64) : FbsCompactBlock :=
  let (key0, key1) := sip.keys block.header.seal_.nonce nonce
  let prefilled := fun (entry : Transaction × Nat) =>
    decide (entry.2 ∈ prefilledTransactionsIndexes) || entry.1.isCellbase
  let indexed := block.transactions.zipIdx
  { header := some (FbsHeader.build block.header)
    nonce
    shortIds := some ((indexed.filter fun entry => !prefilled entry).map fun entry =>
      FbsBytes.build (shortTransactionId sip key0 key1 (entry.1.witnessHash hashers)).bytes)
    prefilledTransactions := some ((indexed.filter prefilled).map fun entry =>
      ⟨UInt32.ofNat entry.2, some (FbsTransaction.build entry.1)⟩)
    uncles := some (block.uncles.map FbsUncleBlock.build)
    proposals := some (block.proposals.map .ofProposalShortId) }

/-! ## Conversions -/

/-- The out point that `TryFrom<OutPoint>` and `TryFrom<CellInput>` both read
from a `block_hash`, a `tx_hash` and an `index`: there is a cell only where
there is a transaction hash. -/
def OutPoint.ofFbsParts (blockHash txHash : Option FbsH256) (index : UInt32) :
    Except ProtocolError OutPoint := do
  let cell ← txHash.mapM fun txHash => do
    let txHash ← H256.tryFrom txHash
    pure (⟨txHash, index.toNat⟩ : CellOutPoint)
  let blockHash ← blockHash.mapM H256.tryFrom
  pure ⟨blockHash, cell⟩

def OutPoint.tryFrom (outPoint : FbsOutPoint) : Except ProtocolError OutPoint :=
  OutPoint.ofFbsParts outPoint.blockHash outPoint.txHash outPoint.index

def CellInput.tryFrom (cellInput : FbsCellInput) : Except ProtocolError CellInput := do
  let previousOutput ← OutPoint.ofFbsParts cellInput.blockHash cellInput.txHash cellInput.index
  pure ⟨previousOutput, cellInput.since⟩

def Script.tryFrom (script : FbsScript) : Except ProtocolError Script := do
  let args := (← Protocol.cast script.args).mapM FbsBytes.seq
  let codeHash ← script.codeHash.mapM H256.tryFrom
  pure ⟨← Protocol.cast args, ← Protocol.cast codeHash⟩

def Witness.tryFrom (witness : FbsWitness) : Except ProtocolError Witness := do
  let data := (← Protocol.cast witness.data).mapM FbsBytes.seq
  Protocol.cast data

def CellOutput.tryFrom (cellOutput : FbsCellOutput) : Except ProtocolError CellOutput := do
  let lock ← Protocol.cast cellOutput.lock
  let type_ ← cellOutput.type_.mapM Script.tryFrom
  let data ← Protocol.cast (cellOutput.data.bind FbsBytes.seq)
  let lock ← Script.tryFrom lock
  pure ⟨⟨cellOutput.capacity.toNat⟩, data, lock, type_⟩

/-- `TryFrom<Transaction>`: the transaction is built again, so its hash is
the one `TransactionBuilder` computes. -/
def Transaction.tryFrom (transaction : FbsTransaction) : Except ProtocolError Transaction := do
  let deps := (← Protocol.cast transaction.deps).mapM OutPoint.tryFrom
  let inputs := (← Protocol.cast transaction.inputs).mapM CellInput.tryFrom
  let outputs := (← Protocol.cast transaction.outputs).mapM CellOutput.tryFrom
  let witnesses := (← Protocol.cast transaction.witnesses).mapM Witness.tryFrom
  pure (TransactionBuilder.build hashers transaction.version.toNat (← deps) (← inputs) (← outputs)
    (← witnesses))

def Core.Header.tryFrom (header : FbsHeader) : Except ProtocolError Core.Header := do
  let parentHash ← Protocol.cast header.parentHash
  let transactionsRoot ← Protocol.cast header.transactionsRoot
  let witnessesRoot ← Protocol.cast header.witnessesRoot
  let proposalsHash ← Protocol.cast header.proposalsHash
  let unclesHash ← Protocol.cast header.unclesHash
  -- the builder's arguments, in the order the source passes them
  let parentHash ← H256.tryFrom parentHash
  let transactionsRoot ← H256.tryFrom transactionsRoot
  let witnessesRoot ← H256.tryFrom witnessesRoot
  let proposalsHash ← H256.tryFrom proposalsHash
  let difficulty ← U256.fromLittleEndian (← Protocol.cast (header.difficulty.bind FbsBytes.seq))
  let unclesHash ← H256.tryFrom unclesHash
  let proof ← Protocol.cast (header.proof.bind FbsBytes.seq)
  pure (HeaderBuilder.build hashers
    { version := header.version, parentHash, timestamp := header.timestamp,
      number := header.number, transactionsRoot, proposalsHash, witnessesRoot, difficulty,
      unclesHash, unclesCount := header.unclesCount, epoch := header.epoch }
    ⟨header.nonce, proof⟩)

def Core.UncleBlock.tryFrom (uncle : FbsUncleBlock) : Except ProtocolError Core.UncleBlock := do
  let proposals := (← Protocol.cast uncle.proposals).mapM ProposalShortId.tryFrom
  let header ← Protocol.cast uncle.header
  pure ⟨← Core.Header.tryFrom hashers header, ← proposals⟩

/-- `TryFrom<Block>`: the block is built again from its decoded parts, so its
header carries the roots `BlockBuilder` computes. -/
def Core.Block.tryFrom (block : FbsBlock) : Except ProtocolError Core.Block := do
  let transactions := (← Protocol.cast block.transactions).mapM (Transaction.tryFrom hashers)
  let uncles := (← Protocol.cast block.uncles).mapM (Core.UncleBlock.tryFrom hashers)
  let proposals := (← Protocol.cast block.proposals).mapM ProposalShortId.tryFrom
  let header ← Protocol.cast block.header
  let header ← Core.Header.tryFrom hashers header
  pure (BlockBuilder.build hashers header.raw header.seal_ (← uncles) (← transactions)
    (← proposals))

def IndexTransaction.tryFrom (indexTransaction : FbsIndexTransaction) :
    Except ProtocolError IndexTransaction := do
  let transaction ← Protocol.cast indexTransaction.transaction
  pure ⟨indexTransaction.index.toNat, ← Transaction.tryFrom hashers transaction⟩

/-- What converting a compact block ends in when it gives no compact block:
the error of a conversion it propagates, or a panic with its message. -/
inductive ConvertError where
  | failure (error : ProtocolError)
  | panic (message : String)
  deriving DecidableEq, Repr

/-- The short ids' `map(..).collect::<Option<Vec<_>>>()`: a missing byte
vector ends the collect with `None`, and `copy_from_slice` panics on one whose
length is not six. -/
def copyShortIds : List FbsBytes → Except String (Option (List ShortTransactionID))
  | [] => .ok (some [])
  | bytes :: rest =>
    match bytes.seq with
    | none => .ok none
    | some seq =>
      if six : seq.length = 6 then do
        let shortIds ← copyShortIds rest
        pure (shortIds.map (⟨seq, six⟩ :: ·))
      else .error "destination and source slices have different lengths"

/-- `TryFrom<ckb_protocol::CompactBlock>`: the fields are read in the order
of the source's struct literal, after the casts of its `let`s. -/
def CompactBlock.tryFrom (block : FbsCompactBlock) : Except ConvertError CompactBlock := do
  let header ← (Protocol.cast block.header).mapError .failure
  let shortIds ← (Protocol.cast block.shortIds).mapError .failure
  let prefilledTransactions := (← (Protocol.cast block.prefilledTransactions).mapError .failure).mapM
    (IndexTransaction.tryFrom hashers)
  let uncles := (← (Protocol.cast block.uncles).mapError .failure).mapM
    (Core.UncleBlock.tryFrom hashers)
  let proposals := (← (Protocol.cast block.proposals).mapError .failure).mapM
    ProposalShortId.tryFrom
  let header ← (Core.Header.tryFrom hashers header).mapError .failure
  let shortIds ← (copyShortIds shortIds).mapError .panic
  let shortIds ← (Protocol.cast shortIds).mapError .failure
  let prefilledTransactions ← prefilledTransactions.mapError .failure
  let uncles ← uncles.mapError .failure
  let proposals ← proposals.mapError .failure
  pure ⟨header, uncles, block.nonce, shortIds, prefilledTransactions, proposals⟩

/-! ## The panic of a short id -/

section Panic

@[simp] theorem Protocol.cast_some {α : Type} (value : α) : Protocol.cast (some value) = .ok value :=
  rfl

theorem copyShortIds_panics {before after : List FbsBytes} {seq : List UInt8}
    (copied : ∀ bytes ∈ before, ∃ seq, bytes.seq = some seq ∧ seq.length = 6)
    (notSix : seq.length ≠ 6) :
    copyShortIds (before ++ FbsBytes.build seq :: after) =
      .error "destination and source slices have different lengths" := by
  induction before with
  | nil => simp [copyShortIds, FbsBytes.build, notSix]
  | cons bytes rest induction =>
      rw [List.forall_mem_cons] at copied
      obtain ⟨⟨first, present, six⟩, later⟩ := copied
      rw [List.cons_append, copyShortIds, present]
      simp only [six, dite_true, induction later]
      rfl

theorem CompactBlock.tryFrom_short_id_length_panics {block : FbsCompactBlock} {header : FbsHeader}
    {decoded : Core.Header} {prefilled : List FbsIndexTransaction} {uncles : List FbsUncleBlock}
    {proposals : List FbsProposalShortId} {before after : List FbsBytes} {seq : List UInt8}
    (headerPresent : block.header = some header)
    (headerDecodes : Core.Header.tryFrom hashers header = .ok decoded)
    (vectorsPresent : block.prefilledTransactions = some prefilled ∧ block.uncles = some uncles ∧
      block.proposals = some proposals)
    (listed : block.shortIds = some (before ++ FbsBytes.build seq :: after))
    (copied : ∀ bytes ∈ before, ∃ seq, bytes.seq = some seq ∧ seq.length = 6)
    (notSix : seq.length ≠ 6) :
    CompactBlock.tryFrom hashers block =
      .error (.panic "destination and source slices have different lengths") := by
  obtain ⟨prefilledPresent, unclesPresent, proposalsPresent⟩ := vectorsPresent
  simp only [CompactBlock.tryFrom, headerPresent, listed, prefilledPresent, unclesPresent,
    proposalsPresent, Protocol.cast_some, Except.mapError_ok, Except.ok_bind, headerDecodes,
    copyShortIds_panics copied notSix, Except.mapError_error, Except.error_bind]

/-- A compact block whose one short id is five bytes long. -/
def fiveByteShortId : FbsCompactBlock :=
  { header := some (FbsHeader.build relayedBlock.header), nonce := 0,
    shortIds := some [FbsBytes.build [1, 2, 3, 4, 5]], prefilledTransactions := some [],
    uncles := some [], proposals := some [] }

theorem fiveByteShortId_panics :
    CompactBlock.tryFrom relayHashers fiveByteShortId =
      .error (.panic "destination and source slices have different lengths") := by
  have decodes : Core.Header.tryFrom relayHashers (FbsHeader.build relayedBlock.header) =
      .ok relayedBlock.header := by
    decide
  have listed : fiveByteShortId.shortIds = some ([] ++ FbsBytes.build [1, 2, 3, 4, 5] :: []) :=
    rfl
  exact CompactBlock.tryFrom_short_id_length_panics relayHashers rfl decodes ⟨rfl, rfl, rfl⟩ listed
    (by simp) (by decide)

end Panic

end Ckb
