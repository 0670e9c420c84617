import Ckb.Core.Types
import Ckb.Lib.LinkedMap

/-!
# Blocks in flight

`InflightBlocks` (`sync/src/types.rs`) records which peers each block was
requested from, twice over: the set of blocks asked of each peer, and for each
block an `InflightState` with the peers it was asked of and the time it was
first asked.  `insert` asks one more peer of a block, at most
`MAX_PEERS_PER_BLOCK` of them; `remove_by_peer` forgets a peer,
`remove_by_block` a block, and `prune` the blocks asked too long ago.

The states are iterated by `prune` and counted by `total_inflight_count`, so
they are a list of entries; the blocks of a peer are only read and replaced,
so they are a function.  A hash set is a list without repeats.  The clock
`unix_time_as_millis()` is the argument `now` of the operations that read it.

Along every run from the empty record the two indexes describe one relation
and no block is asked of more than two peers (`Consistent.run`).  The count of
blocks in flight is another matter: `remove_by_peer` takes the peer out of its
blocks' states but keeps the states, which the count still counts
(`removeByPeer_strands_state`).
-/

namespace Ckb

/-- `PeerIndex`: the session number of a peer. -/
abbrev PeerIndex := Nat

def maxPeersPerBlock : Nat := 2

/-- `BLOCK_DOWNLOAD_TIMEOUT`, in milliseconds. -/
def blockDownloadTimeout : Nat := 30 * 1000

structure InflightState where
  peers : List PeerIndex
  timestamp : Nat
  deriving DecidableEq, Repr

def InflightState.remove (state : InflightState) (peer : PeerIndex) : InflightState :=
  { state with peers := state.peers.filter (· != peer) }

structure InflightBlocks where
  blocks : PeerIndex → Option (List H256)
  states : List (H256 × InflightState)

namespace InflightBlocks

def default : InflightBlocks := ⟨fun _ => none, []⟩

def totalInflightCount (inflight : InflightBlocks) : Nat := inflight.states.length

def peerInflightCount (inflight : InflightBlocks) (peer : PeerIndex) : Nat :=
  ((inflight.blocks peer).map List.length).getD 0

/-- The blocks asked of a peer, none for a peer without a set. -/
def requestedBy (inflight : InflightBlocks) (peer : PeerIndex) : List H256 :=
  (inflight.blocks peer).getD []

/-- The peers a block was asked of, none for a block without a state. -/
def peersOf (inflight : InflightBlocks) (hash : H256) : List PeerIndex :=
  ((LinkedMap.get? inflight.states hash).map InflightState.peers).getD []

/-- `block.get_mut(peer).map(|set| set.remove(hash))`. -/
def removeFrom (blocks : PeerIndex → Option (List H256)) (peer : PeerIndex) (hash : H256) :
    PeerIndex → Option (List H256) :=
  match blocks peer with
  | some set => Function.update blocks peer (some (set.filter (· != hash)))
  | none => blocks

/-- `states.entry(hash).or_insert_with(InflightState::default)`: a block
without a state gets an empty one stamped `now`. -/
def withState (states : List (H256 × InflightState)) (hash : H256) (now : Nat) :
    List (H256 × InflightState) :=
  if LinkedMap.contains states hash then states else (LinkedMap.insert states hash ⟨[], now⟩).1

def insert (inflight : InflightBlocks) (now : Nat) (peer : PeerIndex) (hash : H256) :
    InflightBlocks × Bool :=
  let states := withState inflight.states hash now
  let state := (LinkedMap.get? states hash).getD ⟨[], now⟩
  if maxPeersPerBlock ≤ state.peers.length then (⟨inflight.blocks, states⟩, false)
  else
    -- `blocks.entry(peer).or_insert_with(FnvHashSet::default)`, then `insert(hash)`
    let set := inflight.requestedBy peer
    let blocks := Function.update inflight.blocks peer (some (LinkedSet.insert set hash))
    if set.contains hash then (⟨blocks, states⟩, false)
    else
      (⟨blocks, LinkedMap.modify states hash fun state =>
        { state with peers := LinkedSet.insert state.peers peer }⟩, true)

def removeByPeer (inflight : InflightBlocks) (peer : PeerIndex) : InflightBlocks × Bool :=
  match inflight.blocks peer with
  | none => (inflight, false)
  | some set =>
      (⟨Function.update inflight.blocks peer none,
        set.foldl (fun states block => LinkedMap.modify states block (·.remove peer))
          inflight.states⟩, true)

def removeByBlock (inflight : InflightBlocks) (hash : H256) : InflightBlocks × Bool :=
  match LinkedMap.get? inflight.states hash with
  | none => (inflight, false)
  | some state =>
      (⟨state.peers.foldl (fun blocks peer => removeFrom blocks peer hash) inflight.blocks,
        (LinkedMap.remove inflight.states hash).1⟩, true)

/-- `(v.timestamp + BLOCK_DOWNLOAD_TIMEOUT) < now`. -/
def outdated (now : Nat) (state : InflightState) : Bool :=
  state.timestamp + blockDownloadTimeout < now

/-- `prune`: the loop of `retain` takes each outdated block out of its peers'
sets, and `retain` keeps the states that are not outdated. -/
def prune (inflight : InflightBlocks) (now : Nat) : InflightBlocks :=
  ⟨inflight.states.foldl (fun blocks entry =>
      if outdated now entry.2 then
        entry.2.peers.foldl (fun blocks peer => removeFrom blocks peer entry.1) blocks
      else blocks) inflight.blocks,
    inflight.states.filter fun entry => !outdated now entry.2⟩

/-- The calls the synchronizer makes on the record. -/
inductive Operation where
  | insert (now : Nat) (peer : PeerIndex) (hash : H256)
  | removeByPeer (peer : PeerIndex)
  | removeByBlock (hash : H256)
  | prune (now : Nat)
  deriving DecidableEq, Repr

def step (inflight : InflightBlocks) : Operation → InflightBlocks
  | .insert now peer hash => (inflight.insert now peer hash).1
  | .removeByPeer peer => (inflight.removeByPeer peer).1
  | .removeByBlock hash => (inflight.removeByBlock hash).1
  | .prune now => inflight.prune now

def run (inflight : InflightBlocks) (operations : List Operation) : InflightBlocks :=
  operations.foldl step inflight

section Lemmas

theorem InflightState.remove_remove (state : InflightState) (peer : PeerIndex) :
    (state.remove peer).remove peer = state.remove peer := by
  simp [InflightState.remove, List.filter_filter]

theorem mem_removeFrom {blocks : PeerIndex → Option (List H256)} {peer other : PeerIndex}
    {hash block : H256} :
    block ∈ (removeFrom blocks peer hash other).getD [] ↔
      block ∈ (blocks other).getD [] ∧ ¬(other = peer ∧ block = hash) := by
  unfold removeFrom
  by_cases same : other = peer
  · subst same
    cases found : blocks other <;> simp [found]
  · cases blocks peer <;> simp [same]

theorem mem_foldl_removeFrom {hash block : H256} {other : PeerIndex} (peers : List PeerIndex)
    (blocks : PeerIndex → Option (List H256)) :
    block ∈ ((peers.foldl (fun blocks peer => removeFrom blocks peer hash) blocks) other).getD [] ↔
      block ∈ (blocks other).getD [] ∧ ¬(other ∈ peers ∧ block = hash) := by
  induction peers generalizing blocks with
  | nil => simp
  | cons peer rest induction =>
      rw [List.foldl_cons, induction, mem_removeFrom, List.mem_cons, or_and_right, not_or,
        and_assoc]

/-- The loop of `prune` takes each outdated block out of the sets of its peers. -/
theorem mem_prune_blocks {now : Nat} {block : H256} {other : PeerIndex}
    (entries : List (H256 × InflightState)) (blocks : PeerIndex → Option (List H256)) :
    block ∈ ((entries.foldl (fun blocks entry =>
        if outdated now entry.2 then
          entry.2.peers.foldl (fun blocks peer => removeFrom blocks peer entry.1) blocks
        else blocks) blocks) other).getD [] ↔
      block ∈ (blocks other).getD [] ∧
        ∀ entry ∈ entries, outdated now entry.2 = true → other ∈ entry.2.peers → block ≠ entry.1 := by
  induction entries generalizing blocks with
  | nil => simp
  | cons entry rest induction =>
      rw [List.foldl_cons, induction, List.forall_mem_cons]
      by_cases old : outdated now entry.2 = true
      · rw [if_pos old, mem_foldl_removeFrom]
        simp only [old, forall_const, ne_eq, not_and, and_assoc]
      · rw [if_neg old]
        have vacuous : outdated now entry.2 = true → other ∈ entry.2.peers → block ≠ entry.1 :=
          fun outdatedNow => absurd outdatedNow old
        rw [and_iff_right vacuous]

/-- The loop of `remove_by_peer` over the peer's set. -/
theorem get?_foldl_remove (peer : PeerIndex) (set : List H256)
    (states : List (H256 × InflightState)) (hash : H256) :
    LinkedMap.get? (set.foldl (fun states block => LinkedMap.modify states block (·.remove peer))
        states) hash =
      if hash ∈ set then (LinkedMap.get? states hash).map (·.remove peer)
      else LinkedMap.get? states hash := by
  induction set generalizing states with
  | nil => simp
  | cons block rest induction =>
      rw [List.foldl_cons, induction, LinkedMap.get?_modify]
      by_cases atBlock : hash = block
      · subst atBlock
        simp [Option.map_map, Function.comp_def, InflightState.remove_remove]
      · by_cases later : hash ∈ rest
        · simp [atBlock, later]
        · simp [atBlock, later]

theorem keys_foldl_remove (peer : PeerIndex) (set : List H256)
    (states : List (H256 × InflightState)) :
    (set.foldl (fun states block => LinkedMap.modify states block (·.remove peer)) states).map
      Prod.fst = states.map Prod.fst := by
  induction set generalizing states with
  | nil => rfl
  | cons block rest induction => rw [List.foldl_cons, induction, LinkedMap.keys_modify]

theorem get?_withState {states : List (H256 × InflightState)} {hash other : H256} {now : Nat} :
    LinkedMap.get? (withState states hash now) other =
      if other = hash then some ((LinkedMap.get? states hash).getD ⟨[], now⟩)
      else LinkedMap.get? states other := by
  unfold withState
  by_cases held : LinkedMap.contains states hash = true
  · rw [if_pos held]
    obtain ⟨state, found⟩ := Option.isSome_iff_exists.mp (LinkedMap.isSome_get?.trans held)
    by_cases atHash : other = hash
    · subst atHash
      rw [if_pos rfl, found]
      rfl
    · rw [if_neg atHash]
  · rw [if_neg held]
    have absent := LinkedMap.get?_eq_none_of_contains_eq_false (Bool.eq_false_iff.mpr held)
    by_cases atHash : other = hash
    · subst atHash
      rw [if_pos rfl, LinkedMap.get?_insert_self, absent]
      rfl
    · rw [if_neg atHash, LinkedMap.get?_insert_of_ne atHash]

theorem keys_withState_nodup {states : List (H256 × InflightState)} {hash : H256} {now : Nat}
    (nodup : (states.map Prod.fst).Nodup) : ((withState states hash now).map Prod.fst).Nodup := by
  unfold withState
  split
  · exact nodup
  · exact LinkedMap.keys_insert_nodup nodup

theorem requestedBy_update {inflight : InflightBlocks} {peer other : PeerIndex}
    {set : Option (List H256)} {states : List (H256 × InflightState)} :
    (⟨Function.update inflight.blocks peer set, states⟩ : InflightBlocks).requestedBy other =
      if other = peer then set.getD [] else inflight.requestedBy other := by
  unfold requestedBy
  by_cases same : other = peer
  · subst same
    simp
  · simp [same]

end Lemmas

/-! ### The branches of `insert` -/

section Insert

variable {inflight : InflightBlocks} {now : Nat} {peer : PeerIndex} {hash : H256}

theorem peersOf_withState {blocks : PeerIndex → Option (List H256)} {other : H256} :
    (⟨blocks, withState inflight.states hash now⟩ : InflightBlocks).peersOf other =
      inflight.peersOf other := by
  unfold peersOf
  rw [get?_withState]
  by_cases atHash : other = hash
  · subst atHash
    rw [if_pos rfl]
    cases LinkedMap.get? inflight.states other <;> rfl
  · rw [if_neg atHash]

theorem statePeers_withState :
    ((LinkedMap.get? (withState inflight.states hash now) hash).getD ⟨[], now⟩).peers =
      inflight.peersOf hash := by
  rw [get?_withState, if_pos rfl, Option.getD_some, peersOf]
  cases LinkedMap.get? inflight.states hash <;> rfl

theorem insert_of_full (full : maxPeersPerBlock ≤ (inflight.peersOf hash).length) :
    inflight.insert now peer hash = (⟨inflight.blocks, withState inflight.states hash now⟩, false) := by
  unfold insert
  simp only [statePeers_withState, if_pos full]

/-- A block asked of this peer already is refused, the peer's set kept. -/
theorem insert_of_requested (room : (inflight.peersOf hash).length < maxPeersPerBlock)
    (requested : hash ∈ inflight.requestedBy peer) :
    inflight.insert now peer hash =
      (⟨Function.update inflight.blocks peer
          (some (LinkedSet.insert (inflight.requestedBy peer) hash)),
        withState inflight.states hash now⟩, false) := by
  have held : (inflight.requestedBy peer).contains hash = true := List.contains_iff_mem.mpr requested
  unfold insert
  simp only [statePeers_withState, if_neg (Nat.not_le.mpr room), held, if_true]

theorem insert_of_fresh (room : (inflight.peersOf hash).length < maxPeersPerBlock)
    (fresh : hash ∉ inflight.requestedBy peer) :
    inflight.insert now peer hash =
      (⟨Function.update inflight.blocks peer
          (some (LinkedSet.insert (inflight.requestedBy peer) hash)),
        LinkedMap.modify (withState inflight.states hash now) hash fun state =>
          { state with peers := LinkedSet.insert state.peers peer }⟩, true) := by
  have held : (inflight.requestedBy peer).contains hash = false := by
    rw [Bool.eq_false_iff, ne_eq, List.contains_iff_mem]
    exact fresh
  unfold insert
  simp only [statePeers_withState, if_neg (Nat.not_le.mpr room), held, Bool.false_eq_true,
    if_false]

theorem peersOf_addPeer {blocks : PeerIndex → Option (List H256)} {other : H256} :
    (⟨blocks, LinkedMap.modify (withState inflight.states hash now) hash fun state =>
        { state with peers := LinkedSet.insert state.peers peer }⟩ : InflightBlocks).peersOf other =
      if other = hash then LinkedSet.insert (inflight.peersOf hash) peer
      else inflight.peersOf other := by
  unfold peersOf
  rw [LinkedMap.get?_modify, get?_withState]
  by_cases atHash : other = hash
  · subst atHash
    rw [if_pos rfl, if_pos rfl, if_pos rfl]
    cases LinkedMap.get? inflight.states other <;> rfl
  · rw [if_neg atHash, if_neg atHash, get?_withState, if_neg atHash]

end Insert

/-! ### The invariant -/

/-- The two indexes describe one relation between peers and blocks, a set
holds no repeats, and no block is asked of more than `MAX_PEERS_PER_BLOCK`
peers. -/
structure Consistent (inflight : InflightBlocks) : Prop where
  keys_nodup : (inflight.states.map Prod.fst).Nodup
  peers_nodup : ∀ hash, (inflight.peersOf hash).Nodup
  mem_requestedBy : ∀ peer hash, hash ∈ inflight.requestedBy peer ↔ peer ∈ inflight.peersOf hash
  peers_le : ∀ hash, (inflight.peersOf hash).length ≤ maxPeersPerBlock

section Invariant

variable {inflight : InflightBlocks}

theorem default_consistent : default.Consistent := by
  constructor
  · exact List.nodup_nil
  · intro hash
    exact List.nodup_nil
  · intro peer hash
    simp [requestedBy, peersOf, default, LinkedMap.get?]
  · intro hash
    simp [peersOf, default, LinkedMap.get?, maxPeersPerBlock]

theorem Consistent.of_agree {changed : InflightBlocks} (consistent : inflight.Consistent)
    (nodup : (changed.states.map Prod.fst).Nodup)
    (requested : ∀ peer hash, hash ∈ changed.requestedBy peer ↔ hash ∈ inflight.requestedBy peer)
    (peers : ∀ hash, changed.peersOf hash = inflight.peersOf hash) : changed.Consistent := by
  constructor
  · exact nodup
  · intro hash
    rw [peers]
    exact consistent.peers_nodup hash
  · intro peer hash
    rw [requested, peers]
    exact consistent.mem_requestedBy peer hash
  · intro hash
    rw [peers]
    exact consistent.peers_le hash

theorem Consistent.insert (consistent : inflight.Consistent) (now : Nat) (peer : PeerIndex)
    (hash : H256) : (inflight.insert now peer hash).1.Consistent := by
  have nodup : ((withState inflight.states hash now).map Prod.fst).Nodup :=
    keys_withState_nodup consistent.keys_nodup
  by_cases full : maxPeersPerBlock ≤ (inflight.peersOf hash).length
  · rw [insert_of_full full]
    apply consistent.of_agree nodup
    · intro other block
      rfl
    · intro block
      exact peersOf_withState
  have room := Nat.lt_of_not_le full
  by_cases requested : hash ∈ inflight.requestedBy peer
  · rw [insert_of_requested room requested]
    apply consistent.of_agree nodup
    · intro other block
      rw [requestedBy_update]
      by_cases same : other = peer
      · subst same
        by_cases atHash : block = hash
        · simp [atHash, requested]
        · simp [atHash]
      · rw [if_neg same]
    · intro block
      exact peersOf_withState
  rw [insert_of_fresh room requested]
  constructor
  · rw [LinkedMap.keys_modify]
    exact nodup
  · intro block
    rw [peersOf_addPeer]
    split
    · exact LinkedSet.nodup_insert (consistent.peers_nodup hash) peer
    · exact consistent.peers_nodup block
  · intro other block
    rw [requestedBy_update, peersOf_addPeer]
    by_cases same : other = peer
    · by_cases atHash : block = hash
      · simp [same, atHash]
      · simp [same, atHash, consistent.mem_requestedBy]
    · by_cases atHash : block = hash
      · subst atHash
        simp [same, consistent.mem_requestedBy]
      · simp [same, atHash, consistent.mem_requestedBy]
  · intro block
    rw [peersOf_addPeer]
    split
    · calc (LinkedSet.insert (inflight.peersOf hash) peer).length
          ≤ (inflight.peersOf hash).length + 1 := LinkedSet.length_insert_le _ _
        _ ≤ maxPeersPerBlock := room
    · exact consistent.peers_le block

/-- Once a peer's set is gone, its blocks' states forget the peer; the other
states never held it, so every block's peers lose exactly that peer. -/
theorem peersOf_removeByPeer (consistent : inflight.Consistent) {peer : PeerIndex}
    {set : List H256} (found : inflight.blocks peer = some set)
    (blocks : PeerIndex → Option (List H256)) (block : H256) :
    (⟨blocks, set.foldl (fun states block => LinkedMap.modify states block (·.remove peer))
        inflight.states⟩ : InflightBlocks).peersOf block =
      (inflight.peersOf block).filter (· != peer) := by
  by_cases member : block ∈ set
  · simp only [peersOf, get?_foldl_remove, if_pos member]
    cases LinkedMap.get? inflight.states block <;> rfl
  · have notAsked : peer ∉ inflight.peersOf block := by
      rw [← consistent.mem_requestedBy, requestedBy, found]
      exact member
    have kept : (inflight.peersOf block).filter (· != peer) = inflight.peersOf block := by
      apply List.filter_eq_self.mpr
      intro other asked
      have differs : other ≠ peer := fun same => notAsked (same ▸ asked)
      simpa using differs
    rw [kept]
    simp only [peersOf, get?_foldl_remove, if_neg member]

theorem Consistent.removeByPeer (consistent : inflight.Consistent) (peer : PeerIndex) :
    (inflight.removeByPeer peer).1.Consistent := by
  unfold InflightBlocks.removeByPeer
  split
  next => exact consistent
  next set found =>
    have peers := peersOf_removeByPeer consistent found (Function.update inflight.blocks peer none)
    constructor
    · rw [keys_foldl_remove]
      exact consistent.keys_nodup
    · intro block
      rw [peers]
      exact (consistent.peers_nodup block).filter _
    · intro other block
      rw [peers, requestedBy_update]
      by_cases same : other = peer
      · subst same
        simp
      · simp [same, consistent.mem_requestedBy]
    · intro block
      rw [peers]
      exact (List.length_filter_le _ _).trans (consistent.peers_le block)

theorem peersOf_removeState {blocks : PeerIndex → Option (List H256)} {hash block : H256} :
    (⟨blocks, (LinkedMap.remove inflight.states hash).1⟩ : InflightBlocks).peersOf block =
      if block = hash then [] else inflight.peersOf block := by
  unfold peersOf
  rw [LinkedMap.get?_remove]
  by_cases atHash : block = hash
  · subst atHash
    simp
  · simp [atHash, Ne.symm atHash]

theorem Consistent.removeByBlock (consistent : inflight.Consistent) (hash : H256) :
    (inflight.removeByBlock hash).1.Consistent := by
  unfold InflightBlocks.removeByBlock
  split
  next => exact consistent
  next state found =>
    have statePeers : state.peers = inflight.peersOf hash := by
      rw [peersOf, found]
      rfl
    have requested : ∀ other block,
        block ∈ (⟨state.peers.foldl (fun blocks peer => removeFrom blocks peer hash) inflight.blocks,
          (LinkedMap.remove inflight.states hash).1⟩ : InflightBlocks).requestedBy other ↔
        block ∈ inflight.requestedBy other ∧ ¬(other ∈ state.peers ∧ block = hash) :=
      fun other block => mem_foldl_removeFrom state.peers inflight.blocks
    constructor
    · exact LinkedMap.keys_remove_nodup consistent.keys_nodup
    · intro block
      rw [peersOf_removeState]
      split
      · exact List.nodup_nil
      · exact consistent.peers_nodup block
    · intro other block
      rw [requested, peersOf_removeState, statePeers]
      by_cases atHash : block = hash
      · subst atHash
        simp [consistent.mem_requestedBy]
      · simp [atHash, consistent.mem_requestedBy]
    · intro block
      rw [peersOf_removeState]
      split
      · exact Nat.zero_le _
      · exact consistent.peers_le block

theorem peersOf_prune (consistent : inflight.Consistent) (now : Nat) (block : H256) :
    (inflight.prune now).peersOf block =
      if (LinkedMap.get? inflight.states block).any (outdated now) then []
      else inflight.peersOf block := by
  have kept : LinkedMap.get? (inflight.states.filter fun entry => !outdated now entry.2) block =
      (LinkedMap.get? inflight.states block).filter fun state => !outdated now state :=
    @LinkedMap.get?_filter_of_nodup _ _ _ inflight.states block (fun state => !outdated now state)
      consistent.keys_nodup
  unfold peersOf InflightBlocks.prune
  rw [kept]
  cases LinkedMap.get? inflight.states block with
  | none => rfl
  | some state =>
      by_cases old : outdated now state = true
      · simp [Option.filter, old]
      · simp [Option.filter, old]

theorem Consistent.prune (consistent : inflight.Consistent) (now : Nat) :
    (inflight.prune now).Consistent := by
  have requested : ∀ other block, block ∈ (inflight.prune now).requestedBy other ↔
      block ∈ inflight.requestedBy other ∧ ∀ entry ∈ inflight.states,
        outdated now entry.2 = true → other ∈ entry.2.peers → block ≠ entry.1 :=
    fun other block => mem_prune_blocks inflight.states inflight.blocks
  constructor
  · exact LinkedMap.keys_filter_nodup consistent.keys_nodup
  · intro block
    rw [peersOf_prune consistent]
    split
    · exact List.nodup_nil
    · exact consistent.peers_nodup block
  · intro other block
    rw [requested, peersOf_prune consistent]
    by_cases old : (LinkedMap.get? inflight.states block).any (outdated now) = true
    · -- an outdated block leaves the sets of all its peers
      rw [if_pos old]
      obtain ⟨state, found, stale⟩ := (Option.any_eq_true _ _).mp old
      have member : (block, state) ∈ inflight.states :=
        (LinkedMap.mem_iff_get?_of_nodup consistent.keys_nodup).mpr found
      simp only [List.not_mem_nil, iff_false, not_and]
      intro asked fresh
      have asker : other ∈ state.peers := by
        rw [consistent.mem_requestedBy, peersOf, found] at asked
        exact asked
      exact fresh (block, state) member stale asker rfl
    · -- a block still waited for keeps its peers, and no outdated entry names it
      rw [if_neg old, ← consistent.mem_requestedBy]
      constructor
      · exact And.left
      · intro asked
        refine ⟨asked, ?_⟩
        rintro ⟨key, state⟩ member stale _ same
        have found : LinkedMap.get? inflight.states block = some state := by
          rw [same]
          exact (LinkedMap.mem_iff_get?_of_nodup consistent.keys_nodup).mp member
        rw [found] at old
        exact old stale
  · intro block
    rw [peersOf_prune consistent]
    split
    · exact Nat.zero_le _
    · exact consistent.peers_le block

theorem Consistent.step (consistent : inflight.Consistent) :
    ∀ operation, (inflight.step operation).Consistent
  | .insert now peer hash => consistent.insert now peer hash
  | .removeByPeer peer => consistent.removeByPeer peer
  | .removeByBlock hash => consistent.removeByBlock hash
  | .prune now => consistent.prune now

theorem Consistent.run (consistent : inflight.Consistent) (operations : List Operation) :
    (inflight.run operations).Consistent := by
  induction operations generalizing inflight with
  | nil => exact consistent
  | cons operation rest induction => exact induction (consistent.step operation)

theorem insert_eq_true_iff (consistent : inflight.Consistent) (now : Nat) (peer : PeerIndex)
    (hash : H256) :
    (inflight.insert now peer hash).2 = true ↔
      peer ∉ inflight.peersOf hash ∧ peer ∈ (inflight.insert now peer hash).1.peersOf hash := by
  by_cases full : maxPeersPerBlock ≤ (inflight.peersOf hash).length
  · simp only [insert_of_full full, peersOf_withState]
    simp
  have room := Nat.lt_of_not_le full
  by_cases requested : hash ∈ inflight.requestedBy peer
  · simp only [insert_of_requested room requested, peersOf_withState]
    simp
  · have notAsked : peer ∉ inflight.peersOf hash := by
      rwa [← consistent.mem_requestedBy]
    simp only [insert_of_fresh room requested, peersOf_addPeer]
    simp [notAsked]

end Invariant

/-! ### What the count of blocks in flight counts -/

/-- Forgetting the only peer a block was asked of leaves the block's state,
with no peers: the block is asked of nobody, yet the count of blocks in flight
does not drop. -/
theorem removeByPeer_strands_state {inflight : InflightBlocks} (consistent : inflight.Consistent)
    {peer : PeerIndex} {hash : H256} (only : inflight.peersOf hash = [peer]) :
    (inflight.removeByPeer peer).1.totalInflightCount = inflight.totalInflightCount ∧
      hash ∈ (inflight.removeByPeer peer).1.states.map Prod.fst ∧
      ∀ other, hash ∉ (inflight.removeByPeer peer).1.requestedBy other := by
  have asked : hash ∈ inflight.requestedBy peer := by
    rw [consistent.mem_requestedBy, only]
    exact List.mem_singleton_self peer
  obtain ⟨set, found⟩ : ∃ set, inflight.blocks peer = some set := by
    cases held : inflight.blocks peer with
    | none =>
        rw [requestedBy, held] at asked
        cases asked
    | some set => exact ⟨set, rfl⟩
  have removed : (inflight.removeByPeer peer).1 =
      ⟨Function.update inflight.blocks peer none,
        set.foldl (fun states block => LinkedMap.modify states block (·.remove peer))
          inflight.states⟩ := by
    unfold InflightBlocks.removeByPeer
    rw [found]
  have keys := keys_foldl_remove peer set inflight.states
  have stateHeld : hash ∈ inflight.states.map Prod.fst := by
    cases held : LinkedMap.get? inflight.states hash with
    | none =>
        rw [peersOf, held] at only
        cases only
    | some state =>
        exact List.mem_map.mpr
          ⟨(hash, state), (LinkedMap.mem_iff_get?_of_nodup consistent.keys_nodup).mpr held, rfl⟩
  refine ⟨?_, ?_, ?_⟩
  · have lengths := congrArg List.length keys
    rw [List.length_map, List.length_map] at lengths
    rw [removed]
    exact lengths
  · rw [removed]
    exact keys ▸ stateHeld
  · intro other
    rw [(consistent.removeByPeer peer).mem_requestedBy, removed,
      peersOf_removeByPeer consistent found _, only]
    simp

theorem forgottenPeer_block_still_counted :
    (default.run [.insert 0 1 ⟨1⟩, .removeByPeer 1]).totalInflightCount = 1 ∧
      ∀ other, (⟨1⟩ : H256) ∉ (default.run [.insert 0 1 ⟨1⟩, .removeByPeer 1]).requestedBy other := by
  have only : (default.run [.insert 0 1 ⟨1⟩]).peersOf ⟨1⟩ = [1] := by decide
  obtain ⟨count, _, unasked⟩ :=
    removeByPeer_strands_state (default_consistent.run [.insert 0 1 ⟨1⟩]) only
  have before : (default.run [.insert 0 1 ⟨1⟩]).totalInflightCount = 1 := by decide
  exact ⟨count.trans before, unasked⟩

end InflightBlocks

end Ckb
