import Ckb.Core.Types

/-!
# Headers and blocks

The parts of `core/src/header.rs`, `core/src/uncle.rs` and `core/src/block.rs`
that the modelled verification, storage and reward code read.  A header is
the fields those functions use, together with its cached hash; the seal,
roots and version are left out.  Difficulties are the numbers the `U256`
values denote.
-/

namespace Ckb

structure Header where
  number : Nat
  epoch : Nat
  timestamp : Nat
  difficulty : Nat
  parentHash : H256
  hash : H256
  deriving DecidableEq, Repr

def Header.isGenesis (header : Header) : Bool :=
  header.number == 0

/-- `ProposalShortId`: the first ten bytes of a transaction hash. -/
structure ProposalShortId where
  value : Nat
  deriving DecidableEq, Repr

def ProposalShortId.fromTxHash (hash : H256) : ProposalShortId :=
  ⟨hash.value / 2 ^ (8 * 22) % 2 ^ (8 * 10)⟩

def Transaction.proposalShortId (tx : Transaction) : ProposalShortId :=
  ProposalShortId.fromTxHash tx.hash

structure UncleBlock where
  header : Header
  proposals : List ProposalShortId
  deriving DecidableEq, Repr

def UncleBlock.hash (uncle : UncleBlock) : H256 :=
  uncle.header.hash

structure Block where
  header : Header
  uncles : List UncleBlock
  transactions : List Transaction
  proposals : List ProposalShortId
  deriving DecidableEq, Repr

namespace Block

def isGenesis (block : Block) : Bool :=
  block.header.isGenesis

/-- `Block::union_proposal_ids`, as a list: the block's proposals, then those
of each uncle. -/
def unionProposalIds (block : Block) : List ProposalShortId :=
  block.proposals ++ block.uncles.flatMap UncleBlock.proposals

end Block

end Ckb
