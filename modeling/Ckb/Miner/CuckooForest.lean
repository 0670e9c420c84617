import Ckb.Miner.CuckooSimple
import Ckb.Lib.Except

/-!
# The forest of the simple Cuckoo solver

The `graph` array of `CuckooSimple::solve` is a forest of parent pointers
with the sentinel `0` as the mark of a root.  A walk of `path` that ends is a
`Chain`; the solver keeps every walk finite, so with the array length as fuel
`path` always returns, without repeats, the way from a node to its root.

Adding an edge `(u, v)` between two trees turns the shorter root path around
(`reverseLinks`) and hangs it below the other endpoint.  The step lemma
`Forest.step` shows that this keeps the forest, and `Forest.foldlM` carries
it along the main loop.
-/

namespace Ckb.Miner

open Ckb.Pow

/-- A walk of `path` that ends: the nodes met following `graph` from `node`
up to the first one whose pointer is the sentinel `0`. -/
inductive Chain (graph : Nat → Nat) : Nat → List Nat → Prop
  | root {node : Nat} : graph node = 0 → Chain graph node [node]
  | step {node : Nat} {rest : List Nat} : graph node ≠ 0 → Chain graph (graph node) rest →
      Chain graph node (node :: rest)

section Chain

variable {graph graph' : Nat → Nat} {node : Nat} {nodes : List Nat}

theorem Chain.head_eq (chain : Chain graph node nodes) : ∃ rest, nodes = node :: rest := by
  cases chain with
  | root _ => exact ⟨[], rfl⟩
  | step _ _ => exact ⟨_, rfl⟩

theorem Chain.unique (chain : Chain graph node nodes) {other : List Nat}
    (chain' : Chain graph node other) : nodes = other := by
  induction chain generalizing other with
  | root atRoot =>
      cases chain' with
      | root _ => rfl
      | step moved _ => exact absurd atRoot moved
  | step moved _ induction =>
      cases chain' with
      | root atRoot => exact absurd atRoot moved
      | step _ rest => rw [induction rest]

theorem Chain.suffix (chain : Chain graph node nodes) {other : Nat} (member : other ∈ nodes) :
    ∃ tail, Chain graph other tail ∧ tail <:+ nodes := by
  induction chain with
  | root atRoot =>
      rw [List.mem_singleton] at member
      subst member
      exact ⟨_, .root atRoot, List.suffix_refl _⟩
  | step moved rest induction =>
      rcases List.mem_cons.mp member with rfl | later
      · exact ⟨_, .step moved rest, List.suffix_refl _⟩
      · obtain ⟨tail, chain, suffix⟩ := induction later
        exact ⟨tail, chain, suffix.trans (List.suffix_cons _ _)⟩

theorem Chain.nodup (chain : Chain graph node nodes) : nodes.Nodup := by
  induction chain with
  | root _ => exact List.nodup_singleton _
  | step moved rest induction =>
      refine List.nodup_cons.mpr ⟨fun member => ?_, induction⟩
      -- a node met again below itself would start a walk longer than its own rest
      obtain ⟨tail, again, suffix⟩ := rest.suffix member
      have shorter := suffix.length_le
      rw [again.unique (.step moved rest), List.length_cons] at shorter
      omega

theorem Chain.getLast (chain : Chain graph node nodes) :
    ∃ root, nodes.getLast? = some root ∧ graph root = 0 := by
  induction chain with
  | root atRoot => exact ⟨_, List.getLast?_singleton, atRoot⟩
  | step _ rest induction =>
      obtain ⟨root, last, atRoot⟩ := induction
      obtain ⟨tail, rfl⟩ := rest.head_eq
      exact ⟨root, by rw [List.getLast?_cons_cons, last], atRoot⟩

theorem Chain.getLast?_of_mem (chain : Chain graph node nodes) {other : Nat} {tail : List Nat}
    (member : other ∈ nodes) (chain' : Chain graph other tail) :
    tail.getLast? = nodes.getLast? := by
  obtain ⟨tail', below, suffix⟩ := chain.suffix member
  obtain ⟨first, rfl⟩ := suffix
  obtain ⟨rest, rfl⟩ := below.head_eq
  rw [chain'.unique below, List.getLast?_append, List.getLast?_cons]
  rfl

theorem Chain.not_mem_of_getLast?_ne {other : Nat} {others : List Nat}
    (chain : Chain graph node nodes) (chain' : Chain graph other others)
    (apart : nodes.getLast? ≠ others.getLast?) {shared : Nat} (member : shared ∈ others) :
    shared ∉ nodes := by
  intro member'
  obtain ⟨tail, below, -⟩ := chain'.suffix member
  exact apart ((chain.getLast?_of_mem member' below).symm.trans
    (chain'.getLast?_of_mem member below))

theorem Chain.forall_mem {P : Nat → Prop} (chain : Chain graph node nodes) (first : P node)
    (next : ∀ other, graph other ≠ 0 → P other → P (graph other)) : ∀ other ∈ nodes, P other := by
  induction chain with
  | root _ =>
      intro other member
      rw [List.mem_singleton.mp member]
      exact first
  | @step node rest moved _ induction =>
      intro other member
      rcases List.mem_cons.mp member with rfl | later
      · exact first
      · exact induction (next node moved first) other later

theorem Chain.ne_zero (chain : Chain graph node nodes) (start : node ≠ 0) :
    ∀ other ∈ nodes, other ≠ 0 :=
  chain.forall_mem start fun _ moved _ => moved

theorem Chain.frame (chain : Chain graph node nodes)
    (same : ∀ other ∈ nodes, graph' other = graph other) : Chain graph' node nodes := by
  induction chain with
  | root atRoot =>
      refine .root ?_
      rw [same _ (List.mem_singleton_self _), atRoot]
  | @step node rest moved _ induction =>
      have here := same node List.mem_cons_self
      refine .step (by rw [here]; exact moved) ?_
      rw [here]
      exact induction fun other member => same other (List.mem_cons_of_mem _ member)

theorem Chain.pathFrom_eq (chain : Chain graph node nodes) {fuel : Nat}
    (enough : nodes.length ≤ fuel) : pathFrom graph fuel node = some nodes.tail := by
  induction chain generalizing fuel with
  | root atRoot =>
      cases fuel with
      | zero => simp at enough
      | succ fuel => simp [pathFrom, atRoot]
  | step moved rest induction =>
      cases fuel with
      | zero => simp at enough
      | succ fuel =>
          have below := induction (show _ ≤ fuel by simpa using enough)
          obtain ⟨tail, rfl⟩ := rest.head_eq
          simp [pathFrom, moved, below]

theorem Chain.path_eq (chain : Chain graph node nodes) {fuel : Nat}
    (enough : nodes.length ≤ fuel) : path graph fuel node = some nodes := by
  obtain ⟨rest, rfl⟩ := chain.head_eq
  rw [path, chain.pathFrom_eq enough]
  rfl

theorem chain_of_pathFrom {fuel : Nat} {tail : List Nat}
    (walked : pathFrom graph fuel node = some tail) : Chain graph node (node :: tail) := by
  induction fuel generalizing node tail with
  | zero => cases walked
  | succ fuel induction =>
      by_cases atRoot : graph node = 0
      · rw [pathFrom, if_neg (not_not_intro atRoot)] at walked
        cases walked
        exact .root atRoot
      · rw [pathFrom, if_pos atRoot] at walked
        obtain ⟨rest, below, rfl⟩ := Option.map_eq_some_iff.mp walked
        exact .step atRoot (induction below)

theorem chain_of_path {fuel : Nat} (walked : path graph fuel node = some nodes) :
    Chain graph node nodes := by
  obtain ⟨tail, below, rfl⟩ := Option.map_eq_some_iff.mp walked
  exact chain_of_pathFrom below

theorem Chain.getElem_zero (chain : Chain graph node nodes) (nonempty : 0 < nodes.length) :
    nodes[0] = node := by
  obtain ⟨rest, rfl⟩ := chain.head_eq
  rfl

theorem Chain.graph_getElem (chain : Chain graph node nodes) {i : Nat}
    (within : i + 1 < nodes.length) : graph nodes[i] = nodes[i + 1] := by
  induction chain generalizing i with
  | root _ => simp at within
  | step _ rest induction =>
      cases i with
      | zero =>
          obtain ⟨tail, rfl⟩ := rest.head_eq
          rfl
      | succ i => exact induction (by simpa using within)

end Chain

/-! ## Turning a root path around -/

section Reroot

variable {graph : Nat → Nat}

theorem reverseLinks_cons_cons (first second : Nat) (rest : List Nat) :
    reverseLinks graph (first :: second :: rest) =
      reverseLinks (Function.update graph second first) (second :: rest) := rfl

theorem reverseLinks_of_not_mem_tail {nodes : List Nat} {node : Nat} (absent : node ∉ nodes.tail) :
    reverseLinks graph nodes node = graph node := by
  induction nodes generalizing graph with
  | nil => rfl
  | cons first rest induction =>
      cases rest with
      | nil => rfl
      | cons second rest =>
          have apart : node ≠ second := fun same => absent (same ▸ List.mem_cons_self)
          rw [reverseLinks_cons_cons,
            induction fun member => absent (List.mem_cons_of_mem _ member),
            Function.update_of_ne apart]

theorem reverseLinks_getElem {nodes : List Nat} (distinct : nodes.Nodup) {i : Nat}
    (within : i + 1 < nodes.length) : reverseLinks graph nodes nodes[i + 1] = nodes[i] := by
  induction nodes generalizing graph i with
  | nil => simp at within
  | cons first rest induction =>
      cases rest with
      | nil => simp at within
      | cons second rest =>
          have tailDistinct := (List.nodup_cons.mp distinct).2
          rw [reverseLinks_cons_cons]
          cases i with
          | zero =>
              have fresh : second ∉ (second :: rest).tail := (List.nodup_cons.mp tailDistinct).1
              rw [List.getElem_cons_succ, List.getElem_cons_zero, List.getElem_cons_zero,
                reverseLinks_of_not_mem_tail fresh]
              exact Function.update_self _ _ _
          | succ i => exact induction tailDistinct (by simpa using within)

variable {a b : Nat} {pathA pathB : List Nat}

theorem Chain.reroot_getElem (chainA : Chain graph a pathA) {i : Nat}
    (within : i + 1 < pathA.length) :
    Function.update (reverseLinks graph pathA) a b pathA[i + 1] = pathA[i] := by
  have distinct := chainA.nodup
  have apart : pathA[i + 1] ≠ a := by
    rw [← chainA.getElem_zero (by omega)]
    exact fun same => by simpa using (List.Nodup.getElem_inj_iff distinct).mp same
  rw [Function.update_of_ne apart, reverseLinks_getElem distinct within]

theorem Chain.reroot_of_not_mem (chainA : Chain graph a pathA) {node : Nat}
    (absent : node ∉ pathA) : Function.update (reverseLinks graph pathA) a b node = graph node := by
  obtain ⟨rest, rfl⟩ := chainA.head_eq
  have apart : node ≠ a := fun same => absent (same ▸ List.mem_cons_self)
  rw [Function.update_of_ne apart,
    reverseLinks_of_not_mem_tail fun member => absent (List.mem_cons_of_mem _ member)]

section Apart

variable (chainA : Chain graph a pathA) (chainB : Chain graph b pathB)
  (apart : pathA.getLast? ≠ pathB.getLast?) (start : a ≠ 0) (positive : b ≠ 0)
include chainA chainB apart start positive

theorem Chain.reroot_chain_getElem {k : Nat} (within : k < pathA.length) :
    Chain (Function.update (reverseLinks graph pathA) a b) pathA[k]
      ((pathA.take (k + 1)).reverse ++ pathB) := by
  induction k with
  | zero =>
      -- the walk of `b` lies outside the root path of `a`, where nothing changed
      have kept : Chain (Function.update (reverseLinks graph pathA) a b) b pathB :=
        chainB.frame fun other member =>
          chainA.reroot_of_not_mem (chainA.not_mem_of_getLast?_ne chainB apart member)
      obtain ⟨rest, rfl⟩ := chainA.head_eq
      refine .step ?_ ?_
      · rw [List.getElem_cons_zero, Function.update_self]
        exact positive
      · rw [List.getElem_cons_zero, Function.update_self]
        exact kept
  | succ k induction =>
      have back := induction (by omega)
      have moved := chainA.reroot_getElem (b := b) within
      rw [List.take_succ_eq_append_getElem within, List.reverse_append, List.reverse_singleton,
        List.singleton_append, List.cons_append]
      refine .step ?_ ?_
      · rw [moved]
        exact chainA.ne_zero start _ (List.getElem_mem _)
      · rw [moved]
        exact back

theorem Chain.reroot_finite {node : Nat} {nodes : List Nat} (chain : Chain graph node nodes) :
    ∃ other, Chain (Function.update (reverseLinks graph pathA) a b) node other := by
  -- from the turned path the walk goes back to `a` and on along the walk of `b`;
  -- off it, the old walk is followed until it meets the path or its root
  have turned : ∀ node ∈ pathA, ∃ other,
      Chain (Function.update (reverseLinks graph pathA) a b) node other := by
    intro node member
    obtain ⟨k, within, rfl⟩ := List.getElem_of_mem member
    exact ⟨_, chainA.reroot_chain_getElem chainB apart start positive within⟩
  induction chain with
  | @root node atRoot =>
      by_cases member : node ∈ pathA
      · exact turned node member
      · refine ⟨_, .root ?_⟩
        rw [chainA.reroot_of_not_mem member]
        exact atRoot
  | @step node rest moved _ induction =>
      by_cases member : node ∈ pathA
      · exact turned node member
      · obtain ⟨other, below⟩ := induction
        refine ⟨node :: other, .step ?_ ?_⟩
        · rw [chainA.reroot_of_not_mem member]
          exact moved
        · rw [chainA.reroot_of_not_mem member]
          exact below

end Apart

end Reroot

/-! ## The forest invariant -/

/-- The pointer from `node` to `parent` lies along a processed edge whose upper
node is not the sentinel, one way or the other. -/
def Joins (edge : Nat → Nat × Nat) (processed : List Nat) (node parent : Nat) : Prop :=
  ∃ index ∈ processed, (edgeNodes edge index).1 ≠ 0 ∧
    ((node, parent) = edgeNodes edge index ∨ (parent, node) = edgeNodes edge index)

/-- What `solve` keeps of `graph` after the edges `processed`: the sentinel
points nowhere, every pointer lies along a processed edge, and every walk
ends. -/
structure Forest (edge : Nat → Nat × Nat) (processed : List Nat) (graph : Nat → Nat) : Prop where
  sentinel : graph 0 = 0
  linked : ∀ node, graph node ≠ 0 → Joins edge processed node (graph node)
  finite : ∀ node, ∃ nodes, Chain graph node nodes

section Forest

variable {edge : Nat → Nat × Nat} {processed processed' : List Nat} {node parent : Nat}

theorem Joins.symm (joined : Joins edge processed node parent) : Joins edge processed parent node := by
  obtain ⟨index, member, upper, same⟩ := joined
  exact ⟨index, member, upper, same.symm⟩

theorem Joins.mono (joined : Joins edge processed node parent) (more : processed ⊆ processed') :
    Joins edge processed' node parent := by
  obtain ⟨index, member, upper, same⟩ := joined
  exact ⟨index, more member, upper, same⟩

theorem Forest.empty : Forest edge [] fun _ => 0 where
  sentinel := rfl
  linked _ moved := absurd rfl moved
  finite _ := ⟨_, .root rfl⟩

theorem Forest.mono {graph : Nat → Nat} (forest : Forest edge processed graph)
    (more : processed ⊆ processed') : Forest edge processed' graph where
  sentinel := forest.sentinel
  linked node moved := (forest.linked node moved).mono more
  finite := forest.finite

/-- Joining two trees along a processed edge `(a, b)` keeps the forest. -/
theorem Forest.reroot {graph : Nat → Nat} {a b : Nat} {pathA pathB : List Nat}
    (forest : Forest edge processed graph) (chainA : Chain graph a pathA)
    (chainB : Chain graph b pathB) (apart : pathA.getLast? ≠ pathB.getLast?) (start : a ≠ 0)
    (positive : b ≠ 0) (joined : Joins edge processed' a b) (more : processed ⊆ processed') :
    Forest edge processed' (Function.update (reverseLinks graph pathA) a b) where
  sentinel := by
    have absent : 0 ∉ pathA := fun member => chainA.ne_zero start 0 member rfl
    rw [chainA.reroot_of_not_mem absent]
    exact forest.sentinel
  linked node moved := by
    by_cases member : node ∈ pathA
    · obtain ⟨k, within, rfl⟩ := List.getElem_of_mem member
      cases k with
      | zero =>
          rw [chainA.getElem_zero within, Function.update_self]
          exact joined
      | succ k =>
          rw [chainA.reroot_getElem within]
          have old := chainA.graph_getElem within
          have oldMoved : graph pathA[k] ≠ 0 := by
            rw [old]
            exact chainA.ne_zero start _ (List.getElem_mem _)
          have oldJoined := forest.linked _ oldMoved
          rw [old] at oldJoined
          exact (oldJoined.mono more).symm
    · rw [chainA.reroot_of_not_mem member] at moved ⊢
      exact (forest.linked node moved).mono more
  finite node := by
    obtain ⟨nodes, chain⟩ := forest.finite node
    exact chainA.reroot_finite chainB apart start positive chain

end Forest

/-! ## One iteration of the main loop -/

/-- What an iteration of `solve` can do to `graph`: nothing, or join the trees
of the two endpoints of a non-skipped edge whose root paths end apart. -/
theorem solveStep_graph {cuckoo : Cuckoo} {edge : Nat → Nat × Nat} {state state' : SolveState}
    {index : Nat} (stepped : solveStep cuckoo edge state index = .ok state') :
    state'.graph = state.graph ∨
    ∃ pathU pathV, (edgeNodes edge index).1 ≠ 0 ∧
      path state.graph (2 * cuckoo.maxEdge) (edgeNodes edge index).1 = some pathU ∧
      path state.graph (2 * cuckoo.maxEdge) (edgeNodes edge index).2 = some pathV ∧
      ¬(pathU.getLast?.isSome ∧ pathU.getLast? = pathV.getLast?) ∧
      (state'.graph = Function.update (reverseLinks state.graph pathU)
          (edgeNodes edge index).1 (edgeNodes edge index).2 ∨
        state'.graph = Function.update (reverseLinks state.graph pathV)
          (edgeNodes edge index).2 (edgeNodes edge index).1) := by
  simp only [solveStep] at stepped
  by_cases skipped : (edgeNodes edge index).1 = 0
  · rw [if_pos skipped] at stepped
    cases stepped
    exact .inl rfl
  rw [if_neg skipped] at stepped
  split at stepped
  · rename_i pathU pathV walkedU walkedV
    by_cases closed : pathU.getLast?.isSome ∧ pathU.getLast? = pathV.getLast?
    · -- closing a cycle sends a proof, or not, and leaves the graph as it was
      rw [if_pos closed] at stepped
      left
      split_ifs at stepped <;> cases stepped <;> rfl
    · rw [if_neg closed] at stepped
      refine .inr ⟨pathU, pathV, skipped, walkedU, walkedV, closed, ?_⟩
      split_ifs at stepped <;> cases stepped
      · exact .inl rfl
      · exact .inr rfl
  · cases stepped

section Step

variable {cuckoo : Cuckoo} {edge : Nat → Nat × Nat} {done : List Nat} {state state' : SolveState}
  {index : Nat}

theorem Forest.step (forest : Forest edge done state.graph)
    (stepped : solveStep cuckoo edge state index = .ok state') :
    Forest edge (done ++ [index]) state'.graph := by
  have more : done ⊆ done ++ [index] := List.subset_append_left _ _
  rcases solveStep_graph stepped with same | ⟨pathU, pathV, skipped, walkedU, walkedV, closed, turned⟩
  · rw [same]
    exact forest.mono more
  · have chainU := chain_of_path walkedU
    have chainV := chain_of_path walkedV
    have apart : pathU.getLast? ≠ pathV.getLast? := by
      obtain ⟨rest, rfl⟩ := chainU.head_eq
      exact fun same => closed ⟨by simp, same⟩
    have current : Joins edge (done ++ [index]) (edgeNodes edge index).1 (edgeNodes edge index).2 :=
      ⟨index, List.mem_append_right _ (List.mem_singleton_self _), skipped, .inl rfl⟩
    have odd : (edgeNodes edge index).2 ≠ 0 := by simp [edgeNodes]
    rcases turned with turned | turned <;> rw [turned]
    · exact forest.reroot chainU chainV apart skipped odd current more
    · exact forest.reroot chainV chainU (Ne.symm apart) odd skipped current.symm more

end Step

/-! ## Inside the array -/

section Bounded

variable {cuckoo : Cuckoo} {edge : Nat → Nat × Nat}
  (bounded : ∀ index, (edge index).1 < cuckoo.maxEdge ∧ (edge index).2 < cuckoo.maxEdge)
include bounded

theorem edgeNodes_lt (index : Nat) :
    (edgeNodes edge index).1 < 2 * cuckoo.maxEdge ∧ (edgeNodes edge index).2 < 2 * cuckoo.maxEdge := by
  have within := bounded index
  simp only [edgeNodes]
  omega

theorem Joins.lt {processed : List Nat} {node parent : Nat}
    (joined : Joins edge processed node parent) :
    node < 2 * cuckoo.maxEdge ∧ parent < 2 * cuckoo.maxEdge := by
  obtain ⟨index, -, -, same | same⟩ := joined
  · have within := edgeNodes_lt bounded index
    rw [← same] at within
    exact within
  · have within := edgeNodes_lt bounded index
    rw [← same] at within
    exact ⟨within.2, within.1⟩

variable {processed : List Nat} {graph : Nat → Nat} {node : Nat} {nodes : List Nat}

theorem Forest.chain_lt (forest : Forest edge processed graph) (chain : Chain graph node nodes)
    (below : node < 2 * cuckoo.maxEdge) : ∀ other ∈ nodes, other < 2 * cuckoo.maxEdge :=
  chain.forall_mem below fun other moved _ => ((forest.linked other moved).lt bounded).2

theorem Forest.chain_length_le (forest : Forest edge processed graph)
    (chain : Chain graph node nodes) (below : node < 2 * cuckoo.maxEdge) :
    nodes.length ≤ 2 * cuckoo.maxEdge := by
  have inside : nodes ⊆ List.range (2 * cuckoo.maxEdge) := fun other member =>
    List.mem_range.mpr (forest.chain_lt bounded chain below other member)
  simpa using (chain.nodup.subperm inside).length_le

theorem Forest.path_eq (forest : Forest edge processed graph) (below : node < 2 * cuckoo.maxEdge) :
    ∃ nodes, Chain graph node nodes ∧ path graph (2 * cuckoo.maxEdge) node = some nodes := by
  obtain ⟨nodes, chain⟩ := forest.finite node
  exact ⟨nodes, chain, chain.path_eq (forest.chain_length_le bounded chain below)⟩

theorem Forest.solveStep_ne_error {state : SolveState} (forest : Forest edge processed state.graph)
    (index : Nat) :
    solveStep cuckoo edge state index ≠ .error "path loop did not reach the root within the fuel" := by
  obtain ⟨belowU, belowV⟩ := edgeNodes_lt bounded index
  obtain ⟨pathU, -, walkedU⟩ := forest.path_eq bounded belowU
  obtain ⟨pathV, -, walkedV⟩ := forest.path_eq bounded belowV
  simp only [solveStep, walkedU, walkedV]
  split_ifs <;> simp

/-- The main loop over `indices`, from a forest: every state it reaches is a
forest over what it processed, and `path` never runs out of fuel on the way. -/
theorem Forest.foldlM {state : SolveState} (forest : Forest edge processed state.graph)
    (indices : List Nat) :
    (∀ state', indices.foldlM (solveStep cuckoo edge) state = .ok state' →
      Forest edge (processed ++ indices) state'.graph) ∧
    indices.foldlM (solveStep cuckoo edge) state ≠
      .error "path loop did not reach the root within the fuel" := by
  induction indices generalizing processed state with
  | nil =>
      refine ⟨fun state' finished => ?_, fun failed => by cases failed⟩
      cases finished
      simpa using forest
  | cons index rest induction =>
      rw [List.foldlM_cons]
      cases stepped : solveStep cuckoo edge state index with
      | error message =>
          rw [Except.error_bind]
          refine ⟨fun state' failed => (by cases failed), ?_⟩
          rw [← stepped]
          exact forest.solveStep_ne_error bounded index
      | ok next =>
          obtain ⟨kept, total⟩ := induction (forest.step stepped)
          rw [Except.ok_bind]
          refine ⟨fun state' finished => ?_, total⟩
          simpa using kept state' finished

end Bounded

/-! ## The main loop of `solve` -/

/-- Along the main loop of `solve`, for every hasher (its edges are masked by
the `edge_mask` of `Cuckoo::new`): no iteration runs `path` out of fuel; after
each one, every pointer of `graph` lies inside the array along a processed edge
whose upper node is not the sentinel, and `path` returns from every node of the
array the way to its root, without repeats. -/
theorem solve_graph_forest {edgeBits cycleLength : Nat} {cuckoo : Cuckoo}
    (built : Cuckoo.new edgeBits cycleLength = .ok cuckoo) {edge : Nat → Nat × Nat}
    (masked : ∀ index, (edge index).1 ≤ cuckoo.edgeMask ∧ (edge index).2 ≤ cuckoo.edgeMask)
    (processed : Nat) :
    (List.range processed).foldlM (solveStep cuckoo edge) ⟨fun _ => 0, []⟩ ≠
      .error "path loop did not reach the root within the fuel" ∧
    ∀ state, (List.range processed).foldlM (solveStep cuckoo edge) ⟨fun _ => 0, []⟩ = .ok state →
      (∀ node, state.graph node ≠ 0 →
        Joins edge (List.range processed) node (state.graph node) ∧
          node < 2 * cuckoo.maxEdge ∧ state.graph node < 2 * cuckoo.maxEdge) ∧
      ∀ node < 2 * cuckoo.maxEdge, ∃ nodes,
        path state.graph (2 * cuckoo.maxEdge) node = some nodes ∧ nodes.Nodup ∧
          nodes.length ≤ 2 * cuckoo.maxEdge ∧ (∀ other ∈ nodes, other < 2 * cuckoo.maxEdge) ∧
          ∃ root, nodes.getLast? = some root ∧ state.graph root = 0 := by
  have bounded : ∀ index, (edge index).1 < cuckoo.maxEdge ∧ (edge index).2 < cuckoo.maxEdge := by
    intro index
    have within := masked index
    rw [Cuckoo.new_maxEdge built]
    omega
  have start : Forest edge [] (SolveState.graph ⟨fun _ => 0, []⟩) := Forest.empty
  obtain ⟨kept, total⟩ := start.foldlM bounded (List.range processed)
  refine ⟨total, fun state finished => ?_⟩
  have forest := kept state finished
  rw [List.nil_append] at forest
  refine ⟨fun node moved => ?_, fun node below => ?_⟩
  · have joined := forest.linked node moved
    exact ⟨joined, joined.lt bounded⟩
  · obtain ⟨nodes, chain, walked⟩ := forest.path_eq bounded below
    obtain ⟨root, last, atRoot⟩ := chain.getLast
    exact ⟨nodes, walked, chain.nodup, forest.chain_length_le bounded chain below,
      forest.chain_lt bounded chain below, root, last, atRoot⟩

/-- The one-bit graph whose edge `0` has the sentinel as upper node and whose
edge `1` joins the nodes `2` and `3`. -/
theorem oneBit_graph_forest :
    Cuckoo.new 1 2 = .ok ⟨2, 1, 2, Nat.two_pos⟩ ∧
    (∀ index, (index % 2, 1).1 ≤ 1 ∧ (index % 2, 1).2 ≤ 1) ∧
    (List.range 2).foldlM (solveStep ⟨2, 1, 2, Nat.two_pos⟩ fun index => (index % 2, 1))
        ⟨fun _ => 0, []⟩ ≠ .error "path loop did not reach the root within the fuel" ∧
    ∀ state, (List.range 2).foldlM (solveStep ⟨2, 1, 2, Nat.two_pos⟩ fun index => (index % 2, 1))
        ⟨fun _ => 0, []⟩ = .ok state →
      (∀ node, state.graph node ≠ 0 →
        Joins (fun index => (index % 2, 1)) (List.range 2) node (state.graph node) ∧
          node < 2 * 2 ∧ state.graph node < 2 * 2) ∧
      ∀ node < 2 * 2, ∃ nodes, path state.graph (2 * 2) node = some nodes ∧ nodes.Nodup ∧
        nodes.length ≤ 2 * 2 ∧ (∀ other ∈ nodes, other < 2 * 2) ∧
        ∃ root, nodes.getLast? = some root ∧ state.graph root = 0 := by
  have built : Cuckoo.new 1 2 = .ok ⟨2, 1, 2, Nat.two_pos⟩ := rfl
  have masked : ∀ index, (index % 2, 1).1 ≤ 1 ∧ (index % 2, 1).2 ≤ 1 := fun index =>
    ⟨Nat.le_of_lt_succ (Nat.mod_lt index Nat.two_pos), le_refl 1⟩
  exact ⟨built, masked, solve_graph_forest built masked 2⟩

end Ckb.Miner
