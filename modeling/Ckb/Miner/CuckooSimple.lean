import Ckb.Pow.Cuckoo

/-!
# The simple Cuckoo solver

A model of `miner/src/worker/cuckoo_simple.rs`.  `CuckooSimple::solve` keeps a
forest in the flat array `graph` (node `0` is the root sentinel: every edge
with upper node `0` is skipped), adds the edges one by one, and when both
endpoints of an edge already share a root it recovers the cycle from the two
root paths and rescans every edge index to name the cycle's edges.

The `graph` array becomes a function from nodes to parents; `path`'s `loop`
runs on fuel (the array length), and running out of it is an error.  The
proofs that `solve` sends on `seal_tx` are collected, in order, as lists of
edge indices: the little-endian byte encoding is left out, except for the
length check of `write_u32_into`, which panics unless exactly
`cycle_length` indices were found.
-/

namespace Ckb.Miner

open Ckb.Pow

/-- The loop of `path` after its first node: the nodes met following `graph`
pointers from `node`, up to the sentinel `0`; `none` when the fuel runs out. -/
def pathFrom (graph : Nat → Nat) : Nat → Nat → Option (List Nat)
  | 0, _ => none
  | fuel + 1, node =>
    if graph node ≠ 0 then (pathFrom graph fuel (graph node)).map (graph node :: ·)
    else some []

def path (graph : Nat → Nat) (fuel start : Nat) : Option (List Nat) :=
  (pathFrom graph fuel start).map (start :: ·)

def edgeNodes (edge : Nat → Nat × Nat) (index : Nat) : Nat × Nat :=
  ((edge index).1 * 2, (edge index).2 * 2 + 1)

def commonSuffix (pathU pathV : List Nat) : Nat :=
  ((pathU.reverse.zip pathV.reverse).takeWhile fun pair => pair.1 == pair.2).length

def cycleEdges (pathU pathV : List Nat) (common u : Nat) : List (Nat × Nat) :=
  windowPairs (pathU.take (pathU.length - common + 1) ++ pathV.reverse.drop common ++ [u])

def removeMatching (current : Nat × Nat) : List (Nat × Nat) → Option (List (Nat × Nat))
  | [] => none
  | cycleEdge :: rest =>
    if cycleEdge = current ∨ cycleEdge.swap = current then some rest
    else (removeMatching current rest).map (cycleEdge :: ·)

/-- The rescan `for n in 0..max_edge`: each index whose edge matches a cycle
edge still left is pushed to `result`, and that cycle edge is removed. -/
def recover (edge : Nat → Nat × Nat) : List Nat → List (Nat × Nat) → List Nat → List Nat
  | [], _, result => result
  | index :: indices, cycle, result =>
    match removeMatching (edgeNodes edge index) cycle with
    | some rest => recover edge indices rest (result ++ [index])
    | none => recover edge indices cycle result

def reverseLinks (graph : Nat → Nat) (nodes : List Nat) : Nat → Nat :=
  (windowPairs nodes).foldl (fun graph link => Function.update graph link.2 link.1) graph

structure SolveState where
  graph : Nat → Nat
  sent : List (List Nat)

def sealOf (cuckoo : Cuckoo) (edge : Nat → Nat × Nat) (pathU pathV : List Nat)
    (u : Nat) : List Nat :=
  recover edge (List.range cuckoo.maxEdge)
    (cycleEdges pathU pathV (commonSuffix pathU pathV) u) []

def solveStep (cuckoo : Cuckoo) (edge : Nat → Nat × Nat) (state : SolveState)
    (index : Nat) : Except String SolveState :=
  let u := (edgeNodes edge index).1
  let v := (edgeNodes edge index).2
  if u = 0 then .ok state
  else
    match path state.graph (2 * cuckoo.maxEdge) u,
        path state.graph (2 * cuckoo.maxEdge) v with
    | some pathU, some pathV =>
      if pathU.getLast?.isSome ∧ pathU.getLast? = pathV.getLast? then
        let common := commonSuffix pathU pathV
        if (pathU.length - common) + (pathV.length - common) + 1 = cuckoo.cycleLength then
          let result := sealOf cuckoo edge pathU pathV u
          if result.length = cuckoo.cycleLength then
            .ok { state with sent := state.sent ++ [result] }
          else .error "destination length does not match source in write_u32_into"
        else .ok state
      else if pathU.length < pathV.length then
        .ok { state with graph := Function.update (reverseLinks state.graph pathU) u v }
      else
        .ok { state with graph := Function.update (reverseLinks state.graph pathV) v u }
    | _, _ => .error "path loop did not reach the root within the fuel"

/-- `CuckooSimple::solve`: the proofs sent on `seal_tx`, in order. -/
def solve (cuckoo : Cuckoo) (edge : Nat → Nat × Nat) : Except String (List (List Nat)) :=
  ((List.range cuckoo.maxEdge).foldlM (solveStep cuckoo edge) ⟨fun _ => 0, []⟩).map
    SolveState.sent

/-- A hasher that maps both edge indices of a one-bit graph to the same edge
makes `solve` close a cycle of length two from the duplicate, and send a
proof on which `verify` panics. -/
theorem solve_sends_unverifiable_duplicate :
    (Cuckoo.new 1 2 >>= fun cuckoo => solve cuckoo fun _ => (1, 1)) = .ok [[0, 1]] ∧
    (Cuckoo.new 1 2 >>= fun cuckoo => cuckoo.verifyEdges (fun _ => (1, 1)) [0, 1]) =
      .error "next_lower should be found" :=
  ⟨by decide, by decide⟩

end Ckb.Miner
