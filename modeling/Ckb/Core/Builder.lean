import Ckb.Core.Block

/-!
# The core builders

`TransactionBuilder`, `HeaderBuilder` and `BlockBuilder` (`core/src`).  A
built value carries digests its builder computes: the hash of a transaction
and of a header (blake2b over their serialization), the witness hash, and the
roots a block header commits to.  The digests are the functions of
`Hashers`; which digest each builder computes and where it puts it is
embedded.

The chain model reads a projection of the header, `Header`.  The full header
of the source, a `RawHeader` with its `Seal` and its hash, is `Core.Header`,
and `Core.Header.view` is the projection.  Scalars keep the source's widths.
-/

namespace Ckb

/-- `Seal`: the proof-of-work nonce and proof. -/
structure Seal where
  nonce : UInt64
  proof : List UInt8
  deriving DecidableEq, Repr

/-- `RawHeader`: every field of a header but its seal.  `difficulty` is the
number its `U256` denotes. -/
structure RawHeader where
  version : UInt32
  parentHash : H256
  timestamp : UInt64
  number : UInt64
  transactionsRoot : H256
  proposalsHash : H256
  witnessesRoot : H256
  difficulty : Nat
  unclesHash : H256
  unclesCount : UInt32
  epoch : UInt64
  deriving DecidableEq, Repr

namespace Core

/-- `ckb_core::header::Header`, with the hash `HeaderBuilder::build`
caches. -/
structure Header where
  raw : RawHeader
  seal_ : Seal
  hash : H256
  deriving DecidableEq, Repr

/-- `ckb_core::uncle::UncleBlock`. -/
structure UncleBlock where
  header : Core.Header
  proposals : List ProposalShortId
  deriving DecidableEq, Repr

/-- `ckb_core::block::Block`. -/
structure Block where
  header : Core.Header
  uncles : List Core.UncleBlock
  transactions : List Transaction
  proposals : List ProposalShortId
  deriving DecidableEq, Repr

end Core

/-- The digests the builders compute: blake2b over a serialized transaction
(without its witnesses, and with them) and over a raw header and seal, and
the roots of a block's transactions, witnesses, proposals and uncles. -/
structure Hashers where
  transaction : Nat → List OutPoint → List CellInput → List CellOutput → H256
  witness : Transaction → H256
  header : RawHeader → Seal → H256
  transactionsRoot : List Transaction → H256
  witnessesRoot : List Transaction → H256
  proposalsHash : List ProposalShortId → H256
  unclesHash : List Core.UncleBlock → H256

variable (hashers : Hashers)

/-- `TransactionBuilder::build`: the hash covers everything but the
witnesses. -/
def TransactionBuilder.build (version : Nat) (deps : List OutPoint) (inputs : List CellInput)
    (outputs : List CellOutput) (witnesses : List Witness) : Transaction :=
  ⟨version, deps, inputs, outputs, witnesses, hashers.transaction version deps inputs outputs⟩

def Transaction.witnessHash (tx : Transaction) : H256 :=
  hashers.witness tx

def HeaderBuilder.build (raw : RawHeader) (seal_ : Seal) : Core.Header :=
  ⟨raw, seal_, hashers.header raw seal_⟩

/-- `BlockBuilder::build`: the header gets the roots of the body and the
number of uncles, and is then built. -/
def BlockBuilder.build (raw : RawHeader) (seal_ : Seal) (uncles : List Core.UncleBlock)
    (transactions : List Transaction) (proposals : List ProposalShortId) : Core.Block :=
  let raw := { raw with
    transactionsRoot := hashers.transactionsRoot transactions
    witnessesRoot := hashers.witnessesRoot transactions
    proposalsHash := hashers.proposalsHash proposals
    unclesHash := hashers.unclesHash uncles
    unclesCount := UInt32.ofNat uncles.length }
  ⟨HeaderBuilder.build hashers raw seal_, uncles, transactions, proposals⟩

namespace Core

/-- The header the chain model reads. -/
def Header.view (header : Core.Header) : Ckb.Header :=
  ⟨header.raw.number.toNat, header.raw.epoch.toNat, header.raw.timestamp.toNat,
    header.raw.difficulty, header.raw.parentHash, header.hash⟩

def UncleBlock.view (uncle : Core.UncleBlock) : Ckb.UncleBlock :=
  ⟨uncle.header.view, uncle.proposals⟩

def Block.view (block : Core.Block) : Ckb.Block :=
  ⟨block.header.view, block.uncles.map UncleBlock.view, block.transactions, block.proposals⟩

end Core

end Ckb
