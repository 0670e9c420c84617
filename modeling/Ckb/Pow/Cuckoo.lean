import Mathlib

/-!
# Cuckatoo proof verification

A model of `pow/src/cuckoo.rs`.  `CuckooSip` is the SipHash-2-4 edge generator
of the Cuckoo Cycle specification; `Cuckoo.verifyEdges` is `Cuckoo::verify`
once the hasher is fixed: it checks that a proof lists `cycle_length`
increasing edge indices whose edges, read as a bipartite multigraph between
upper and lower endpoints, have every endpoint of degree two, and then walks
the cycle through the proof's first edge.

The walk is an unbounded `loop` in the source.  Here it runs on explicit fuel
(the proof length, more than the walk ever needs), and running out of fuel is
an error of its own, distinct from the two `expect` panics.  A panic of the
source is an `Except.error` carrying its message.
-/

namespace Ckb.Pow

structure CuckooSip where
  key0 : UInt64
  key1 : UInt64
  key2 : UInt64
  key3 : UInt64

structure SipState where
  v0 : UInt64
  v1 : UInt64
  v2 : UInt64
  v3 : UInt64

def rotateLeft (value : UInt64) (amount : UInt64) : UInt64 :=
  (value <<< amount) ||| (value >>> (64 - amount))

namespace CuckooSip

def sipround (state : SipState) : SipState :=
  let v0 := state.v0 + state.v1
  let v2 := state.v2 + state.v3
  let v1 := rotateLeft state.v1 13
  let v3 := rotateLeft state.v3 16
  let v1 := v1 ^^^ v0
  let v3 := v3 ^^^ v2
  let v0 := rotateLeft v0 32
  let v2 := v2 + v1
  let v0 := v0 + v3
  let v1 := rotateLeft v1 17
  let v3 := rotateLeft v3 21
  let v1 := v1 ^^^ v2
  let v3 := v3 ^^^ v0
  let v2 := rotateLeft v2 32
  ⟨v0, v1, v2, v3⟩

def hash (sip : CuckooSip) (value : UInt64) : UInt64 :=
  let state := sipround (sipround ⟨sip.key0, sip.key1, sip.key2, sip.key3 ^^^ value⟩)
  let state := { state with v0 := state.v0 ^^^ value, v2 := state.v2 ^^^ 0xff }
  let state := sipround (sipround (sipround (sipround state)))
  state.v0 ^^^ state.v1 ^^^ state.v2 ^^^ state.v3

def edge (sip : CuckooSip) (value edgeMask : Nat) : Nat × Nat :=
  let shifted := UInt64.ofNat value <<< 1
  ((sip.hash shifted &&& UInt64.ofNat edgeMask).toNat,
    (sip.hash (shifted + 1) &&& UInt64.ofNat edgeMask).toNat)

/-- `CuckooSip::message_to_keys`: the four little-endian words of the
message's BLAKE2b-256 digest.  The digest function is outside the repository
and is a parameter. -/
def messageToKeys (blake2b256 : List UInt8 → List UInt8) (message : List UInt8) :
    CuckooSip :=
  let digest := blake2b256 message
  let word (offset : Nat) : UInt64 :=
    ((List.range 8).map fun index =>
      (digest.getD (offset + index) 0).toUInt64 <<< (8 * index.toUInt64)).foldl
      (· ||| ·) 0
  ⟨word 0, word 8, word 16, word 24⟩

end CuckooSip

def windowPairs {α : Type} : List α → List (α × α)
  | first :: second :: rest => (first, second) :: windowPairs (second :: rest)
  | _ => []

/-- `Cuckoo`: the parameters of one graph.  `Cuckoo::new` asserts a positive
cycle length, which the structure keeps as a field. -/
structure Cuckoo where
  maxEdge : Nat
  edgeMask : Nat
  cycleLength : Nat
  cycleLength_pos : 0 < cycleLength

/-- `Cuckoo::new`: the assertion, then the two `u64` shifts, which overflow
(and panic under `overflow-checks`) from 64 edge bits on. -/
def Cuckoo.new (edgeBits cycleLength : Nat) : Except String Cuckoo :=
  if positive : 0 < cycleLength then
    if edgeBits < 64 then
      .ok ⟨2 ^ edgeBits, 2 ^ edgeBits - 1, cycleLength, positive⟩
    else
      .error "attempt to shift left with overflow"
  else
    .error "cycle_length must be larger than 0"

theorem Cuckoo.new_maxEdge {edgeBits cycleLength : Nat} {cuckoo : Cuckoo}
    (built : Cuckoo.new edgeBits cycleLength = .ok cuckoo) :
    cuckoo.maxEdge = cuckoo.edgeMask + 1 := by
  unfold Cuckoo.new at built
  split_ifs at built
  cases built
  have positive := Nat.two_pow_pos edgeBits
  show 2 ^ edgeBits = 2 ^ edgeBits - 1 + 1
  omega

/-- The values `verify` pushes under `key` into `from_upper` (for the pairs
`(upper, lower)`) or into `from_lower` (for the swapped pairs), in proof
order. -/
def pushed (pairs : List (Nat × Nat)) (key : Nat) : List Nat :=
  pairs.filterMap fun pair => if pair.1 = key then some pair.2 else none

/-- `map[&key]` on the adjacency `HashMap`: the pushed list, and a panic for
a key that was never inserted. -/
def lookup (pairs : List (Nat × Nat)) (key : Nat) : Except String (List Nat) :=
  if pairs.any (·.1 == key) then .ok (pushed pairs key)
  else .error "key not found in HashMap"

def someDegreeNotTwo (pairs : List (Nat × Nat)) : Bool :=
  pairs.any fun pair => (pushed pairs pair.1).length != 2

/-- The cycle walk of `verify`: from the current edge `(upper, lower)` go to
another lower neighbour of `upper`, then to another upper neighbour of that
lower node, adding two to the length, until the walk is back at the upper
node it started from. -/
def walk (upperPairs lowerPairs : List (Nat × Nat)) (start : Nat) :
    Nat → Nat × Nat → Nat → Except String Nat
  | 0, _, _ => .error "loop did not return to its start within the fuel"
  | fuel + 1, current, length =>
    match lookup upperPairs current.1 with
    | .error message => .error message
    | .ok lowers =>
      match lowers.find? (· != current.2) with
      | none => .error "next_lower should be found"
      | some nextLower =>
        match lookup lowerPairs nextLower with
        | .error message => .error message
        | .ok uppers =>
          match uppers.find? (· != current.1) with
          | none => .error "next_upper should be found"
          | some nextUpper =>
            if start = nextUpper then .ok (length + 2)
            else walk upperPairs lowerPairs start fuel (nextUpper, nextLower) (length + 2)

/-- `Cuckoo::verify` for the hasher `edge` (`hasher.edge(·, edge_mask)`). -/
def Cuckoo.verifyEdges (cuckoo : Cuckoo) (edge : Nat → Nat × Nat) (proof : List Nat) :
    Except String Bool :=
  if proof.length ≠ cuckoo.cycleLength then .ok false
  -- `proof[cycle_length - 1]` is in bounds: the length is `cycle_length > 0`
  else if cuckoo.edgeMask < proof.getD (cuckoo.cycleLength - 1) 0 then .ok false
  else if !(windowPairs proof).all (fun window => decide (window.1 < window.2)) then .ok false
  else
    let upperPairs := proof.map edge
    let lowerPairs := upperPairs.map Prod.swap
    if someDegreeNotTwo upperPairs then .ok false
    else if someDegreeNotTwo lowerPairs then .ok false
    else
      let first := edge (proof.getD 0 0)
      match walk upperPairs lowerPairs first.1 proof.length first 0 with
      | .error message => .error message
      | .ok length => .ok (length == cuckoo.cycleLength)

def Cuckoo.verify (cuckoo : Cuckoo) (blake2b256 : List UInt8 → List UInt8)
    (message : List UInt8) (proof : List Nat) : Except String Bool :=
  cuckoo.verifyEdges
    (fun value => (CuckooSip.messageToKeys blake2b256 message).edge value cuckoo.edgeMask)
    proof

/-- Two proof indices whose hashes are the same edge give every endpoint
degree two, so the degree checks pass; the walk then finds no second lower
neighbour of the upper node, and the first `expect` panics. -/
theorem verifyEdges_duplicate_edge_panics :
    (Cuckoo.new 1 2 >>= fun cuckoo => cuckoo.verifyEdges (fun _ => (1, 1)) [0, 1]) =
      .error "next_lower should be found" := by
  decide

end Ckb.Pow
