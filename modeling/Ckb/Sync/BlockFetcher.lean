import Mathlib
import Ckb.Sync.Locator
import Ckb.Sync.PeerSync

/-!
# Fetching blocks from a peer

`BlockFetcher::fetch` (`sync/src/synchronizer/block_fetcher.rs`) picks the
blocks to ask a peer for.  It takes the peer's best known header when that has
at least our total difficulty and lies on the chain of the shared best header,
finds where it leaves the chain we last knew the peer to share
(`last_common_header`, corrected by `SyncSharedState::last_common_ancestor`),
and walks up the peer's chain from there, at most `PER_FETCH_BLOCK_LIMIT`
heights, asking for each block whose status is `VALID_MASK` and that the
in-flight record takes, until the peer has `MAX_BLOCKS_IN_TRANSIT_PER_PEER`
blocks in flight.

`last_common_ancestor` walks two headers of one height down their parents in
lockstep until they meet.  In a `SkipTree` it returns the highest common
ancestor of the two, and when they have none it panics on the `u64`
subtraction at height zero (`lastCommonAncestor_cases`), which a tree with one
genesis never reaches (`lastCommonAncestor_highest`).  What `fetch` asks for are ancestors of the peer's best
known header at increasing heights above that highest common ancestor and
within the window, each with a valid status and not yet asked of this peer
(`fetch_requests_window`).
-/

namespace Ckb

def maxBlocksInTransitPerPeer : Nat := 16

def blockDownloadWindow : Nat := 1024

def perFetchBlockLimit : Nat := 128

/-! The bits of `BlockStatus` that `get_block_status` and `fetch` read. -/

namespace BlockStatus

def unknown : Nat := 0

def validHeader : Nat := 1

def validTree : Nat := 2

def validTransactions : Nat := 3

def validChain : Nat := 4

def validScripts : Nat := 5

def validMask : Nat := validHeader ||| validTree ||| validTransactions ||| validChain ||| validScripts

def blockHaveData : Nat := 8

def blockHaveUndo : Nat := 16

def blockHaveMask : Nat := blockHaveData ||| blockHaveUndo

def failedValid : Nat := 32

def failedChild : Nat := 64

def failedMask : Nat := failedValid ||| failedChild

end BlockStatus

namespace SyncSharedState

variable (state : SyncSharedState)

/-- `get_header`: the header of the view in the header map, else the store's. -/
def getHeader (hash : H256) : Option Header :=
  ((state.headerMap hash).map HeaderView.inner).or (state.store.getBlockHeader hash)

/-- `get_block_status`: the status recorded for the block, else
`BLOCK_HAVE_MASK` for a block whose header the store holds, else `UNKNOWN`. -/
def getBlockStatus (blockStatusMap : H256 → Option Nat) (hash : H256) : Nat :=
  (blockStatusMap hash).getD
    (if (state.store.getBlockHeader hash).isSome then BlockStatus.blockHaveMask else BlockStatus.unknown)

/-- The loop of `last_common_ancestor`: while the two headers differ, each
steps to its ancestor one height lower (`number() - 1` panics at zero), and a
walk that finds none ends the search.  The fuel is one round per height. -/
def lastCommonAncestorLoop : Nat → Header → Header → Except String (Option Header)
  | 0, left, _ => pure (some left)
  | fuel + 1, left, right =>
    if left = right then pure (some left)
    else do
      match ← state.getAncestor left.hash (← Checked.subOrPanic left.number 1) with
      | none => pure none
      | some left =>
        match ← state.getAncestor right.hash (← Checked.subOrPanic right.number 1) with
        | none => pure none
        | some right => lastCommonAncestorLoop fuel left right

/-- `last_common_ancestor`: the ancestor of the best known header at the
height of the last common header, when that is the header itself; else the
two walk down together from there. -/
def lastCommonAncestor (lastCommonHeader bestKnownHeader : Header) :
    Except String (Option Header) := do
  match ← state.getAncestor bestKnownHeader.hash lastCommonHeader.number with
  | none => pure none
  | some right =>
    if right = lastCommonHeader then pure (some right)
    else
      match state.getHeader lastCommonHeader.hash with
      | none => pure none
      | some left => state.lastCommonAncestorLoop (left.number + 1) left right

end SyncSharedState

/-- A `BlockFetcher`: the peer, and the tip and total difficulty of our chain
when it was made. -/
structure BlockFetcher where
  peer : PeerIndex
  tipHeader : Header
  totalDifficulty : Nat

namespace BlockFetcher

variable (fetcher : BlockFetcher) (shared : SyncSharedState)

def reachedInflightLimit (inflight : InflightBlocks) : Bool :=
  decide (maxBlocksInTransitPerPeer ≤ inflight.peerInflightCount fetcher.peer)

def isBetterChain (header : ScoredView) : Bool :=
  decide (fetcher.totalDifficulty ≤ header.totalDifficulty)

/-- The header `last_common_header` starts from: the one recorded for the
peer, else our main-chain block at the best known header's height when that is
below our tip, else our tip. -/
def lastCommonCandidate (peers : Peers) (best : ScoredView) : Option Header :=
  match peers.getLastCommonHeader fetcher.peer with
  | some header => some header
  | none =>
    if best.number < fetcher.tipHeader.number then
      (shared.store.blockHash best.number).bind shared.store.getBlockHeader
    else some fetcher.tipHeader

/-- `last_common_header`: the candidate corrected by `last_common_ancestor`,
recorded for the peer when the correction changed it. -/
def lastCommonHeader (peers : Peers) (best : ScoredView) : Except String (Peers × Option Header) :=
  match fetcher.lastCommonCandidate shared peers best with
  | none => pure (peers, none)
  | some lastCommon => do
    match ← shared.lastCommonAncestor lastCommon best.inner with
    | none => pure (peers, none)
    | some fixed =>
      pure (if fixed ≠ lastCommon then peers.setLastCommonHeader fetcher.peer fixed else peers,
        some fixed)

/-- `is_known_best`: the header lies on the chain of the shared best header. -/
def isKnownBest (sharedBest header : ScoredView) : Except String Bool := do
  match ← shared.getAncestor sharedBest.hash header.number with
  | some ancestor => pure (decide (ancestor = header.inner))
  | none => pure false

/-- One round of the loop of `fetch`: the block is asked of the peer when its
status is `VALID_MASK` and the record takes the ask. -/
def fetchRound (status : H256 → Nat) (now : Nat) (toFetch : Header) (inflight : InflightBlocks)
    (fetch : List H256) : InflightBlocks × List H256 :=
  if status toFetch.hash = BlockStatus.validMask then
    let (inflight, inserted) := inflight.insert now fetcher.peer toFetch.hash
    (inflight, if inserted then fetch ++ [toFetch.hash] else fetch)
  else (inflight, fetch)

/-- The loop of `fetch` from `index_height` up to `max_height` while fewer than
`count` blocks are asked, with fuel for one round per height.  A height the
walk down from `max_height_header` does not reach ends `fetch` with nothing,
and the asks made stay in the record. -/
def fetchLoop (status : H256 → Nat) (now maxHeight count : Nat) (maxHeightHeader : Header) :
    Nat → Nat → InflightBlocks → List H256 → Except String (InflightBlocks × Option (List H256))
  | 0, _, inflight, fetch => pure (inflight, some fetch)
  | fuel + 1, indexHeight, inflight, fetch =>
    if indexHeight < maxHeight ∧ fetch.length < count then do
      match ← shared.getAncestor maxHeightHeader.hash (indexHeight + 1) with
      | none => pure (inflight, none)
      | some toFetch =>
        let (inflight, fetch) := fetcher.fetchRound status now toFetch inflight fetch
        fetchLoop status now maxHeight count maxHeightHeader fuel (indexHeight + 1) inflight fetch
    else pure (inflight, some fetch)

/-- The part of `fetch` above the fixed last common header: the heights up to
the end of the download window and one more, no higher than the best known
header and at most `PER_FETCH_BLOCK_LIMIT` of them, while the peer has room for
blocks in flight. -/
def fetchWindow (blockStatusMap : H256 → Option Nat) (now : Nat) (best : ScoredView) (fixed : Header)
    (inflight : InflightBlocks) : Except String (InflightBlocks × Option (List H256)) := do
  let windowEnd := fixed.number + blockDownloadWindow
  let maxHeight := min (windowEnd + 1) best.number
  let indexHeight := fixed.number
  let maxHeight := min maxHeight (indexHeight + perFetchBlockLimit)
  let count := maxBlocksInTransitPerPeer - inflight.peerInflightCount fetcher.peer
  match ← shared.getAncestor best.hash maxHeight with
  | none => pure (inflight, none)
  | some maxHeightHeader =>
    fetcher.fetchLoop shared (shared.getBlockStatus blockStatusMap) now maxHeight count
      maxHeightHeader (maxHeight - indexHeight) indexHeight inflight []

/-- `BlockFetcher::fetch`: the records of the peers and of the blocks in
flight it leaves, and the hashes to ask the peer for. -/
def fetch (sharedBest : ScoredView) (blockStatusMap : H256 → Option Nat) (now : Nat) (peers : Peers)
    (inflight : InflightBlocks) : Except String (Peers × InflightBlocks × Option (List H256)) :=
  if fetcher.reachedInflightLimit inflight then pure (peers, inflight, none)
  else
    match peers.getBestKnownHeader fetcher.peer with
    | none => pure (peers, inflight, none)
    | some best =>
      if !fetcher.isBetterChain best then pure (peers, inflight, none)
      else do
        if !(← isKnownBest shared sharedBest best) then pure (peers, inflight, none)
        else
          let (peers, fixed) ← fetcher.lastCommonHeader shared peers best
          match fixed with
          | none => pure (peers, inflight, none)
          | some fixed =>
            if fixed = best.inner then pure (peers, inflight, none)
            else do
              let (inflight, fetched) ← fetcher.fetchWindow shared blockStatusMap now best fixed inflight
              pure (peers, inflight, fetched)

end BlockFetcher

/-! ### Ancestors in a tree of views -/

/-- `ancestor` is reached from `view` by walking parents, at most its height
down. -/
def IsAncestor (getHeaderView : H256 → Option HeaderView) (ancestor view : HeaderView) : Prop :=
  ∃ steps ≤ view.number, parentWalk getHeaderView steps view = some ancestor

/-- `common` is an ancestor of both views, and every ancestor of both is one
of it. -/
structure HighestCommon (getHeaderView : H256 → Option HeaderView) (common left right : HeaderView) :
    Prop where
  ofLeft : IsAncestor getHeaderView common left
  ofRight : IsAncestor getHeaderView common right
  greatest : ∀ other, IsAncestor getHeaderView other left → IsAncestor getHeaderView other right →
    IsAncestor getHeaderView other common

section Ancestors

variable {getHeaderView : H256 → Option HeaderView} {ancestor lower higher view : HeaderView}

theorem IsAncestor.refl (view : HeaderView) : IsAncestor getHeaderView view view :=
  ⟨0, Nat.zero_le _, rfl⟩

theorem SkipTree.isAncestor_spec (tree : SkipTree getHeaderView)
    (stored : getHeaderView view.hash = some view) (below : IsAncestor getHeaderView ancestor view) :
    getHeaderView ancestor.hash = some ancestor ∧ ancestor.number ≤ view.number ∧
      parentWalk getHeaderView (view.number - ancestor.number) view = some ancestor := by
  obtain ⟨steps, enough, walk⟩ := below
  obtain ⟨above, reached, lower, aboveStored⟩ := tree.parentWalk_spec steps stored enough
  rw [walk, Option.some.injEq] at reached
  subst reached
  refine ⟨aboveStored, by omega, ?_⟩
  rw [show view.number - ancestor.number = steps by omega]
  exact walk

theorem SkipTree.isAncestor_trans (tree : SkipTree getHeaderView)
    (stored : getHeaderView view.hash = some view) (first : IsAncestor getHeaderView lower higher)
    (second : IsAncestor getHeaderView higher view) : IsAncestor getHeaderView lower view := by
  obtain ⟨steps, enough, walk⟩ := first
  obtain ⟨-, higherLe, higherWalk⟩ := tree.isAncestor_spec stored second
  refine ⟨(view.number - higher.number) + steps, by omega, ?_⟩
  rw [parentWalk_add, higherWalk, Option.bind_some]
  exact walk

theorem SkipTree.isAncestor_of_le (tree : SkipTree getHeaderView)
    (stored : getHeaderView view.hash = some view) (lowerBelow : IsAncestor getHeaderView lower view)
    (higherBelow : IsAncestor getHeaderView higher view) (le : lower.number ≤ higher.number) :
    IsAncestor getHeaderView lower higher := by
  obtain ⟨-, -, lowerWalk⟩ := tree.isAncestor_spec stored lowerBelow
  obtain ⟨-, higherLe, higherWalk⟩ := tree.isAncestor_spec stored higherBelow
  refine ⟨higher.number - lower.number, Nat.sub_le _ _, ?_⟩
  have split : view.number - lower.number =
      (view.number - higher.number) + (higher.number - lower.number) := by omega
  rw [split, parentWalk_add, higherWalk, Option.bind_some] at lowerWalk
  exact lowerWalk

theorem SkipTree.eq_of_isAncestor (tree : SkipTree getHeaderView)
    (stored : getHeaderView view.hash = some view) (first : IsAncestor getHeaderView lower view)
    (second : IsAncestor getHeaderView higher view) (same : lower.number = higher.number) :
    lower = higher := by
  obtain ⟨-, -, firstWalk⟩ := tree.isAncestor_spec stored first
  obtain ⟨-, -, secondWalk⟩ := tree.isAncestor_spec stored second
  rw [same, secondWalk] at firstWalk
  exact (Option.some.inj firstWalk).symm

theorem stored_eq_of_inner_eq
    (first : getHeaderView lower.hash = some lower) (second : getHeaderView higher.hash = some higher)
    (same : lower.inner = higher.inner) : lower = higher := by
  have hashes : lower.hash = higher.hash := congrArg Header.hash same
  rw [hashes, second] at first
  exact (Option.some.inj first).symm

theorem SkipTree.parent_spec (tree : SkipTree getHeaderView)
    (stored : getHeaderView view.hash = some view) (positive : 0 < view.number) :
    ∃ parent, getHeaderView parent.hash = some parent ∧ parent.number + 1 = view.number ∧
      IsAncestor getHeaderView parent view ∧
      ∀ other, IsAncestor getHeaderView other view → other ≠ view → IsAncestor getHeaderView other parent := by
  obtain ⟨parent, found, link⟩ := tree.parent _ _ stored positive
  refine ⟨parent, tree.stored found, link, ⟨1, by omega, ?_⟩, ?_⟩
  · rw [parentWalk, found, Option.bind_some]
    rfl
  · rintro other ⟨steps, enough, walk⟩ differs
    cases steps with
    | zero => exact absurd (Option.some.inj walk).symm differs
    | succ steps =>
        rw [parentWalk, found, Option.bind_some] at walk
        exact ⟨steps, by omega, walk⟩

/-- Two different stored views of one height have the same common ancestors
as their parents. -/
theorem SkipTree.common_parents_iff (tree : SkipTree getHeaderView) {left right leftParent rightParent : HeaderView}
    (leftStored : getHeaderView left.hash = some left) (rightStored : getHeaderView right.hash = some right)
    (same : left.number = right.number) (differ : left ≠ right)
    (leftUp : IsAncestor getHeaderView leftParent left)
    (leftDown : ∀ other, IsAncestor getHeaderView other left → other ≠ left →
      IsAncestor getHeaderView other leftParent)
    (rightUp : IsAncestor getHeaderView rightParent right)
    (rightDown : ∀ other, IsAncestor getHeaderView other right → other ≠ right →
      IsAncestor getHeaderView other rightParent) (other : HeaderView) :
    (IsAncestor getHeaderView other left ∧ IsAncestor getHeaderView other right) ↔
      (IsAncestor getHeaderView other leftParent ∧ IsAncestor getHeaderView other rightParent) := by
  constructor
  · rintro ⟨ofLeft, ofRight⟩
    -- a common ancestor at the views' own height would make them one view
    have notLeft : other ≠ left := by
      rintro rfl
      exact differ (tree.eq_of_isAncestor rightStored ofRight (IsAncestor.refl right) same)
    have notRight : other ≠ right := by
      rintro rfl
      exact differ (tree.eq_of_isAncestor leftStored (IsAncestor.refl left) ofLeft same)
    exact ⟨leftDown other ofLeft notLeft, rightDown other ofRight notRight⟩
  · rintro ⟨ofLeft, ofRight⟩
    exact ⟨tree.isAncestor_trans leftStored ofLeft leftUp, tree.isAncestor_trans rightStored ofRight rightUp⟩

end Ancestors

/-! ### The highest common ancestor -/

section LastCommonAncestor

variable {state : SyncSharedState} {ancestor view left right : HeaderView}

theorem SkipTree.getAncestor_of_isAncestor (tree : SkipTree state.getHeaderView)
    (stored : state.getHeaderView view.hash = some view)
    (below : IsAncestor state.getHeaderView ancestor view) :
    state.getAncestor view.hash ancestor.number = .ok (some ancestor.inner) := by
  obtain ⟨-, le, walk⟩ := tree.isAncestor_spec stored below
  unfold SyncSharedState.getAncestor
  rw [stored]
  dsimp only
  rw [tree.getAncestor_eq stored, if_pos le, walk]
  rfl

theorem SyncSharedState.getHeader_of_getHeaderView {hash : H256}
    (found : state.getHeaderView hash = some view) : state.getHeader hash = some view.inner := by
  unfold SyncSharedState.getHeaderView at found
  unfold SyncSharedState.getHeader
  cases mapped : state.headerMap hash with
  | some inMap =>
      rw [mapped, Option.some_or] at found
      rw [Option.map_some, Option.some_or, Option.some.inj found]
  | none =>
      rw [mapped, Option.none_or] at found
      rw [Option.map_none, Option.none_or]
      obtain ⟨header, stored, extended⟩ := Option.bind_eq_some_iff.mp found
      obtain ⟨_, -, rfl⟩ := Option.map_eq_some_iff.mp extended
      exact stored

/-- Two views of one height that differ above height zero step to their
parents. -/
theorem lastCommonAncestorLoop_parents (tree : SkipTree state.getHeaderView)
    (leftStored : state.getHeaderView left.hash = some left)
    (rightStored : state.getHeaderView right.hash = some right) (differ : left ≠ right)
    {leftParent rightParent : HeaderView} (leftUp : IsAncestor state.getHeaderView leftParent left)
    (leftLink : leftParent.number + 1 = left.number)
    (rightUp : IsAncestor state.getHeaderView rightParent right)
    (rightLink : rightParent.number + 1 = right.number) (fuel : Nat) :
    state.lastCommonAncestorLoop (fuel + 1) left.inner right.inner =
      state.lastCommonAncestorLoop fuel leftParent.inner rightParent.inner := by
  have headers : left.inner ≠ right.inner := fun same =>
    differ (stored_eq_of_inner_eq leftStored rightStored same)
  have leftPred : Checked.subOrPanic left.inner.number 1 = .ok leftParent.number :=
    Checked.subOrPanic_eq_ok_iff.mpr ⟨by simp only [HeaderView.number] at leftLink ⊢; omega,
      by simp only [HeaderView.number] at leftLink ⊢; omega⟩
  have rightPred : Checked.subOrPanic right.inner.number 1 = .ok rightParent.number :=
    Checked.subOrPanic_eq_ok_iff.mpr ⟨by simp only [HeaderView.number] at rightLink ⊢; omega,
      by simp only [HeaderView.number] at rightLink ⊢; omega⟩
  have leftFound : state.getAncestor left.inner.hash leftParent.number = .ok (some leftParent.inner) :=
    tree.getAncestor_of_isAncestor leftStored leftUp
  have rightFound : state.getAncestor right.inner.hash rightParent.number =
      .ok (some rightParent.inner) :=
    tree.getAncestor_of_isAncestor rightStored rightUp
  rw [SyncSharedState.lastCommonAncestorLoop, if_neg headers]
  simp only [leftPred, rightPred, leftFound, rightFound, Except.ok_bind]

/-- Two different views at height zero: the subtraction of the next round
panics. -/
theorem lastCommonAncestorLoop_of_zero
    (leftStored : state.getHeaderView left.hash = some left)
    (rightStored : state.getHeaderView right.hash = some right) (differ : left ≠ right)
    (zero : left.number = 0) (fuel : Nat) :
    state.lastCommonAncestorLoop (fuel + 1) left.inner right.inner =
      .error "attempt to subtract with overflow" := by
  have headers : left.inner ≠ right.inner := fun same =>
    differ (stored_eq_of_inner_eq leftStored rightStored same)
  have zero' : left.inner.number = 0 := zero
  rw [SyncSharedState.lastCommonAncestorLoop, if_neg headers, zero']
  rfl

/-- From two stored views of one height, the lockstep walk returns their
highest common ancestor, or panics at height zero when they have none.  The
induction is on the fuel, which the height stays below. -/
theorem lastCommonAncestorLoop_spec (tree : SkipTree state.getHeaderView) :
    ∀ (fuel : Nat) {left right : HeaderView}, state.getHeaderView left.hash = some left →
      state.getHeaderView right.hash = some right → left.number = right.number →
      left.number < fuel →
      (∃ common, state.lastCommonAncestorLoop fuel left.inner right.inner = .ok (some common.inner) ∧
          HighestCommon state.getHeaderView common left right) ∨
        ((∀ other, IsAncestor state.getHeaderView other left →
            ¬IsAncestor state.getHeaderView other right) ∧
          state.lastCommonAncestorLoop fuel left.inner right.inner =
            .error "attempt to subtract with overflow")
  | 0, _, _, _, _, _, below => absurd below (Nat.not_lt_zero _)
  | fuel + 1, left, right, leftStored, rightStored, same, below => by
      by_cases meet : left = right
      · -- the walks have met
        subst meet
        refine .inl ⟨left, ?_, IsAncestor.refl left, IsAncestor.refl left, fun _ ofLeft _ => ofLeft⟩
        rw [SyncSharedState.lastCommonAncestorLoop, if_pos rfl]
        rfl
      rcases Nat.eq_zero_or_pos left.number with zero | positive
      · -- apart at height zero, where a common ancestor would be both views
        refine .inr ⟨?_, lastCommonAncestorLoop_of_zero leftStored rightStored meet zero fuel⟩
        intro other ofLeft ofRight
        have lowLeft := (tree.isAncestor_spec leftStored ofLeft).2.1
        have lowRight := (tree.isAncestor_spec rightStored ofRight).2.1
        have isLeft := tree.eq_of_isAncestor leftStored ofLeft (IsAncestor.refl left) (by omega)
        have isRight := tree.eq_of_isAncestor rightStored ofRight (IsAncestor.refl right) (by omega)
        exact meet (isLeft.symm.trans isRight)
      · obtain ⟨leftParent, leftParentStored, leftLink, leftUp, leftDown⟩ :=
          tree.parent_spec leftStored positive
        obtain ⟨rightParent, rightParentStored, rightLink, rightUp, rightDown⟩ :=
          tree.parent_spec rightStored (same ▸ positive)
        have commons := tree.common_parents_iff leftStored rightStored same meet leftUp leftDown
          rightUp rightDown
        rw [lastCommonAncestorLoop_parents tree leftStored rightStored meet leftUp leftLink rightUp
          rightLink fuel]
        rcases lastCommonAncestorLoop_spec tree fuel leftParentStored rightParentStored (by omega)
            (by omega) with ⟨common, found, highest⟩ | ⟨disjoint, failed⟩
        · refine .inl ⟨common, found, tree.isAncestor_trans leftStored highest.ofLeft leftUp,
            tree.isAncestor_trans rightStored highest.ofRight rightUp, ?_⟩
          intro other ofLeft ofRight
          obtain ⟨ofLeftParent, ofRightParent⟩ := (commons other).mp ⟨ofLeft, ofRight⟩
          exact highest.greatest other ofLeftParent ofRightParent
        · refine .inr ⟨?_, failed⟩
          intro other ofLeft ofRight
          obtain ⟨ofLeftParent, ofRightParent⟩ := (commons other).mp ⟨ofLeft, ofRight⟩
          exact disjoint other ofLeftParent ofRightParent

/-- `last_common_ancestor` of two stored headers, the first no higher than the
second, returns their highest common ancestor; when they have none, the walk
reaches height zero apart and panics on the subtraction. -/
theorem lastCommonAncestor_cases (tree : SkipTree state.getHeaderView)
    {lastCommon best : HeaderView}
    (lastCommonStored : state.getHeaderView lastCommon.hash = some lastCommon)
    (bestStored : state.getHeaderView best.hash = some best) (below : lastCommon.number ≤ best.number) :
    (∃ common, state.lastCommonAncestor lastCommon.inner best.inner = .ok (some common.inner) ∧
        HighestCommon state.getHeaderView common lastCommon best) ∨
      ((∀ other, IsAncestor state.getHeaderView other lastCommon →
          ¬IsAncestor state.getHeaderView other best) ∧
        state.lastCommonAncestor lastCommon.inner best.inner =
          .error "attempt to subtract with overflow") := by
  obtain ⟨right, walk, rightLink, rightStored⟩ :=
    tree.parentWalk_spec (best.number - lastCommon.number) bestStored (Nat.sub_le _ _)
  have rightUp : IsAncestor state.getHeaderView right best := ⟨_, Nat.sub_le _ _, walk⟩
  have height : right.number = lastCommon.number := by omega
  have found : state.getAncestor best.inner.hash lastCommon.inner.number = .ok (some right.inner) := by
    have reached := tree.getAncestor_of_isAncestor bestStored rightUp
    rwa [height] at reached
  have commons : ∀ other, (IsAncestor state.getHeaderView other lastCommon ∧
      IsAncestor state.getHeaderView other right) ↔
        (IsAncestor state.getHeaderView other lastCommon ∧
          IsAncestor state.getHeaderView other best) := by
    intro other
    constructor
    · rintro ⟨ofLeft, ofRight⟩
      exact ⟨ofLeft, tree.isAncestor_trans bestStored ofRight rightUp⟩
    · rintro ⟨ofLeft, ofBest⟩
      have low := (tree.isAncestor_spec lastCommonStored ofLeft).2.1
      exact ⟨ofLeft, tree.isAncestor_of_le bestStored ofBest rightUp (by omega)⟩
  unfold SyncSharedState.lastCommonAncestor
  rw [found, Except.ok_bind]
  dsimp only
  by_cases meet : right.inner = lastCommon.inner
  · -- the last common header is an ancestor of the best one
    have same := stored_eq_of_inner_eq rightStored lastCommonStored meet
    subst same
    rw [if_pos rfl]
    exact .inl ⟨right, rfl, IsAncestor.refl right, rightUp, fun _ ofLeft _ => ofLeft⟩
  have header : state.getHeader lastCommon.inner.hash = some lastCommon.inner :=
    SyncSharedState.getHeader_of_getHeaderView lastCommonStored
  rw [if_neg meet, header]
  dsimp only
  rcases lastCommonAncestorLoop_spec tree (lastCommon.inner.number + 1) lastCommonStored rightStored
      height.symm (Nat.lt_succ_self _) with ⟨common, looped, highest⟩ | ⟨disjoint, failed⟩
  · refine .inl ⟨common, looped, highest.ofLeft,
      tree.isAncestor_trans bestStored highest.ofRight rightUp, ?_⟩
    intro other ofLeft ofBest
    obtain ⟨-, ofRight⟩ := (commons other).mpr ⟨ofLeft, ofBest⟩
    exact highest.greatest other ofLeft ofRight
  · refine .inr ⟨?_, failed⟩
    intro other ofLeft ofBest
    exact disjoint other ofLeft ((commons other).mpr ⟨ofLeft, ofBest⟩).2

/-- In a tree whose views at height zero are all the genesis, two stored views
have the genesis as a common ancestor. -/
theorem SkipTree.exists_common_of_genesis (tree : SkipTree state.getHeaderView)
    (genesis : ∀ hash view, state.getHeaderView hash = some view → view.number = 0 →
      view.hash = state.genesisHash)
    (leftStored : state.getHeaderView left.hash = some left)
    (rightStored : state.getHeaderView right.hash = some right) :
    ∃ common, IsAncestor state.getHeaderView common left ∧ IsAncestor state.getHeaderView common right := by
  obtain ⟨leftRoot, leftWalk, leftLink, leftRootStored⟩ :=
    tree.parentWalk_spec left.number leftStored le_rfl
  obtain ⟨rightRoot, rightWalk, rightLink, rightRootStored⟩ :=
    tree.parentWalk_spec right.number rightStored le_rfl
  have sameHash : leftRoot.hash = rightRoot.hash := by
    rw [genesis _ _ leftRootStored (by omega), genesis _ _ rightRootStored (by omega)]
  have same : leftRoot = rightRoot := by
    rw [sameHash, rightRootStored] at leftRootStored
    exact (Option.some.inj leftRootStored).symm
  subst same
  exact ⟨leftRoot, ⟨_, le_rfl, leftWalk⟩, ⟨_, le_rfl, rightWalk⟩⟩

end LastCommonAncestor

section Samples

/-- A side branch off the peer's chain of `forkPeer`: blocks of hashes 202
and 203 above the block of hash 11 at height one. -/
def sideHeader (height : Nat) : Header :=
  ⟨height, 0, 0, 1, if height = 2 then ⟨11⟩ else ⟨200 + height - 1⟩, ⟨200 + height⟩⟩

def sideView (height : Nat) : HeaderView := ⟨sideHeader height, none⟩

def forkTreeViews : List HeaderView := (List.range 12).map forkView ++ [sideView 2, sideView 3]

/-- The header map of both branches. -/
def forkTree : SyncSharedState where
  headerMap hash := forkTreeViews.find? fun view => view.hash == hash
  store := ChainStore.empty
  genesisHash := ⟨1⟩

theorem forkTree_getHeaderView_eq_some {hash : H256} {view : HeaderView}
    (found : forkTree.getHeaderView hash = some view) : view ∈ forkTreeViews ∧ view.hash = hash := by
  have lookup : forkTree.getHeaderView hash = forkTreeViews.find? fun view => view.hash == hash :=
    Option.or_none
  rw [lookup] at found
  have hit := List.find?_some found
  exact ⟨List.mem_of_find?_eq_some found, beq_iff_eq.mp hit⟩

theorem forkTree_skipTree : SkipTree forkTree.getHeaderView := by
  have parents : ∀ view ∈ forkTreeViews, 0 < view.number →
      (forkTree.getHeaderView view.parentHash).map (·.number + 1) = some view.number := by
    decide
  constructor
  · intro hash view found
    exact (forkTree_getHeaderView_eq_some found).2
  · intro hash view found
    have low : ∀ view ∈ forkTreeViews, view.number < 2 ^ 63 := by decide
    exact low view (forkTree_getHeaderView_eq_some found).1
  · intro hash view found positive
    have linked := parents view (forkTree_getHeaderView_eq_some found).1 positive
    obtain ⟨parent, stored, link⟩ := Option.map_eq_some_iff.mp linked
    exact ⟨parent, stored, link⟩
  · intro hash view skip found _ pointer
    have none : ∀ view ∈ forkTreeViews, view.skipHash = none := by decide
    rw [none view (forkTree_getHeaderView_eq_some found).1] at pointer
    cases pointer

theorem forkTree_genesis : ∀ hash view, forkTree.getHeaderView hash = some view → view.number = 0 →
    view.hash = forkTree.genesisHash := by
  have roots : ∀ view ∈ forkTreeViews, view.number = 0 → view.hash = ⟨1⟩ := by decide
  intro hash view found zero
  exact roots view (forkTree_getHeaderView_eq_some found).1 zero

end Samples

/-- In a tree of views with one genesis, `last_common_ancestor` of two stored
headers, the first no higher than the second, returns their highest common
ancestor: the lockstep walk never reaches the subtraction below zero. -/
theorem lastCommonAncestor_highest {state : SyncSharedState} (tree : SkipTree state.getHeaderView)
    (genesis : ∀ hash view, state.getHeaderView hash = some view → view.number = 0 →
      view.hash = state.genesisHash)
    {lastCommon best : HeaderView}
    (lastCommonStored : state.getHeaderView lastCommon.hash = some lastCommon)
    (bestStored : state.getHeaderView best.hash = some best) (below : lastCommon.number ≤ best.number) :
    ∃ common, state.lastCommonAncestor lastCommon.inner best.inner = .ok (some common.inner) ∧
      HighestCommon state.getHeaderView common lastCommon best := by
  rcases lastCommonAncestor_cases tree lastCommonStored bestStored below with found | ⟨disjoint, -⟩
  · exact found
  · obtain ⟨root, ofLastCommon, ofBest⟩ :=
      tree.exists_common_of_genesis genesis lastCommonStored bestStored
    exact absurd ofBest (disjoint root ofLastCommon)

/-- The tip of the side branch and the peer's block at height eleven meet at
their highest common ancestor. -/
theorem sideBranch_meets_peer_chain :
    ∃ common, forkTree.lastCommonAncestor (sideView 3).inner (forkView 11).inner =
        .ok (some common.inner) ∧
      HighestCommon forkTree.getHeaderView common (sideView 3) (forkView 11) :=
  lastCommonAncestor_highest forkTree_skipTree forkTree_genesis (by decide) (by decide) (by decide)


/-! ### What `fetch` asks for -/

/-- A header whose view the map holds. -/
def KnownHeader (getHeaderView : H256 → Option HeaderView) (header : Header) : Prop :=
  ∃ view, getHeaderView header.hash = some view ∧ view.inner = header

section GetAncestor

variable {state : SyncSharedState}

theorem SkipTree.getAncestor_eq_some (tree : SkipTree state.getHeaderView) {base : H256}
    {number : Nat} {header : Header} (found : state.getAncestor base number = .ok (some header)) :
    ∃ view baseView, state.getHeaderView base = some baseView ∧
      state.getHeaderView view.hash = some view ∧ view.inner = header ∧ view.number = number ∧
      IsAncestor state.getHeaderView view baseView := by
  unfold SyncSharedState.getAncestor at found
  cases atBase : state.getHeaderView base with
  | none =>
      rw [atBase] at found
      cases found
  | some baseView =>
      rw [atBase] at found
      dsimp only at found
      have stored := tree.stored atBase
      rw [tree.getAncestor_eq stored] at found
      have reached := Except.ok.inj found
      split at reached
      · rename_i reaches
        obtain ⟨view, walk, rfl⟩ := Option.map_eq_some_iff.mp reached
        obtain ⟨above, aboveWalk, link, aboveStored⟩ :=
          tree.parentWalk_spec (baseView.number - number) stored (Nat.sub_le _ _)
        rw [walk, Option.some.injEq] at aboveWalk
        subst aboveWalk
        exact ⟨view, baseView, rfl, aboveStored, rfl, by omega, ⟨_, Nat.sub_le _ _, walk⟩⟩
      · cases reached

theorem lastCommonAncestor_below (tree : SkipTree state.getHeaderView) {start best : HeaderView}
    (bestStored : state.getHeaderView best.hash = some best) {fixed : Header}
    (found : state.lastCommonAncestor start.inner best.inner = .ok (some fixed)) :
    start.number ≤ best.number := by
  unfold SyncSharedState.lastCommonAncestor at found
  obtain ⟨right?, ran, rest⟩ := Except.bind_eq_ok.mp found
  cases right? with
  | none => cases rest
  | some right =>
      obtain ⟨view, base, atBase, -, -, height, up⟩ := tree.getAncestor_eq_some ran
      have sameBase : base = best := by
        have atBest : state.getHeaderView best.inner.hash = some best := bestStored
        rw [atBest] at atBase
        exact (Option.some.inj atBase).symm
      subst sameBase
      have low := (tree.isAncestor_spec bestStored up).2.1
      have height' : view.number = start.number := height
      omega

end GetAncestor

namespace BlockFetcher

variable {fetcher : BlockFetcher} {shared : SyncSharedState}

/-- The candidate of `last_common_header` is known when our tip, the headers of
our store and the header recorded for the peer are. -/
theorem lastCommonCandidate_known {peers : Peers} {best : ScoredView} {start : Header}
    (tipKnown : KnownHeader shared.getHeaderView fetcher.tipHeader)
    (storeKnown : ∀ hash header, shared.store.getBlockHeader hash = some header →
      KnownHeader shared.getHeaderView header)
    (recordedKnown : ∀ header, peers.getLastCommonHeader fetcher.peer = some header →
      KnownHeader shared.getHeaderView header)
    (found : fetcher.lastCommonCandidate shared peers best = some start) :
    KnownHeader shared.getHeaderView start := by
  unfold lastCommonCandidate at found
  cases recorded : peers.getLastCommonHeader fetcher.peer with
  | some header =>
      rw [recorded] at found
      cases found
      exact recordedKnown _ recorded
  | none =>
      rw [recorded] at found
      dsimp only at found
      split at found
      · obtain ⟨hash, -, stored⟩ := Option.bind_eq_some_iff.mp found
        exact storeKnown hash start stored
      · cases found
        exact tipKnown

/-- What a `fetch` that asks for blocks went through: the peer's best known
header, on the shared best chain; the fixed last common header, below it; and
the window above that. -/
theorem fetch_eq_ok_some {sharedBest : ScoredView} {blockStatusMap : H256 → Option Nat} {now : Nat}
    {peers peers' : Peers} {inflight inflight' : InflightBlocks} {hashes : List H256}
    (fetched : fetcher.fetch shared sharedBest blockStatusMap now peers inflight =
      .ok (peers', inflight', some hashes)) :
    ∃ best fixed, peers.getBestKnownHeader fetcher.peer = some best ∧
      isKnownBest shared sharedBest best = .ok true ∧
      fetcher.lastCommonHeader shared peers best = .ok (peers', some fixed) ∧ fixed ≠ best.inner ∧
      fetcher.fetchWindow shared blockStatusMap now best fixed inflight = .ok (inflight', some hashes) := by
  unfold fetch at fetched
  split at fetched
  · cases fetched
  split at fetched
  · cases fetched
  rename_i best found
  split at fetched
  · cases fetched
  obtain ⟨known, knownRan, rest⟩ := Except.bind_eq_ok.mp fetched
  split at rest
  · cases rest
  rename_i isKnown
  have knownTrue : known = true := by simpa using isKnown
  subst knownTrue
  obtain ⟨⟨peersFixed, fixed⟩, headerRan, rest⟩ := Except.bind_eq_ok.mp rest
  dsimp only at rest
  cases fixed with
  | none => cases rest
  | some fixed =>
      dsimp only at rest
      split at rest
      · cases rest
      rename_i differs
      obtain ⟨⟨inflightWindow, window⟩, windowRan, rest⟩ := Except.bind_eq_ok.mp rest
      cases Except.pure_eq_ok.mp rest
      exact ⟨best, fixed, found, knownRan, headerRan, differs, windowRan⟩

theorem lastCommonHeader_eq_ok_some {peers peers' : Peers} {best : ScoredView} {fixed : Header}
    (corrected : fetcher.lastCommonHeader shared peers best = .ok (peers', some fixed)) :
    ∃ start, fetcher.lastCommonCandidate shared peers best = some start ∧
      shared.lastCommonAncestor start best.inner = .ok (some fixed) := by
  unfold lastCommonHeader at corrected
  split at corrected
  · cases corrected
  rename_i start found
  obtain ⟨fixed?, ran, rest⟩ := Except.bind_eq_ok.mp corrected
  cases fixed? with
  | none => cases rest
  | some fixed' =>
      dsimp only at rest
      cases Except.pure_eq_ok.mp rest
      exact ⟨start, found, ran⟩

theorem isKnownBest_eq_ok_true {sharedBest best : ScoredView}
    (known : isKnownBest shared sharedBest best = .ok true) :
    shared.getAncestor sharedBest.hash best.number = .ok (some best.inner) := by
  unfold isKnownBest at known
  obtain ⟨ancestor?, ran, rest⟩ := Except.bind_eq_ok.mp known
  cases ancestor? with
  | none => cases rest
  | some ancestor =>
      dsimp only at rest
      have same : ancestor = best.inner := by simpa using Except.pure_eq_ok.mp rest
      rw [ran, same]

theorem fetchWindow_eq_ok_some {blockStatusMap : H256 → Option Nat} {now : Nat} {best : ScoredView}
    {fixed : Header} {inflight inflight' : InflightBlocks} {hashes : List H256}
    (window : fetcher.fetchWindow shared blockStatusMap now best fixed inflight =
      .ok (inflight', some hashes)) :
    ∃ maxHeightHeader, shared.getAncestor best.hash
        (min (min (fixed.number + blockDownloadWindow + 1) best.number)
          (fixed.number + perFetchBlockLimit)) = .ok (some maxHeightHeader) ∧
      fetcher.fetchLoop shared (shared.getBlockStatus blockStatusMap) now
        (min (min (fixed.number + blockDownloadWindow + 1) best.number)
          (fixed.number + perFetchBlockLimit))
        (maxBlocksInTransitPerPeer - inflight.peerInflightCount fetcher.peer) maxHeightHeader
        (min (min (fixed.number + blockDownloadWindow + 1) best.number)
          (fixed.number + perFetchBlockLimit) - fixed.number) fixed.number inflight [] =
        .ok (inflight', some hashes) := by
  unfold fetchWindow at window
  obtain ⟨top?, ran, rest⟩ := Except.bind_eq_ok.mp window
  cases top? with
  | none => cases rest
  | some top => exact ⟨top, ran, rest⟩

/-- One round either leaves the record and the asks, or makes the ask of the
record and keeps the block when the record took it. -/
theorem fetchRound_eq {status : H256 → Nat} {now : Nat} {toFetch : Header}
    {inflight : InflightBlocks} {fetch : List H256} :
    fetcher.fetchRound status now toFetch inflight fetch = (inflight, fetch) ∨
      (status toFetch.hash = BlockStatus.validMask ∧
        fetcher.fetchRound status now toFetch inflight fetch =
          ((inflight.insert now fetcher.peer toFetch.hash).1,
            if (inflight.insert now fetcher.peer toFetch.hash).2 then fetch ++ [toFetch.hash]
            else fetch)) := by
  unfold fetchRound
  split
  · rename_i valid
    exact .inr ⟨valid, rfl⟩
  · exact .inl rfl

/-- An invariant of the height reached, the record and the asks, kept by every
round, holds where the loop of `fetch` ends; the asks it returns are the ones
the invariant holds of.  The induction is on the fuel. -/
theorem fetchLoop_invariant {status : H256 → Nat} {now maxHeight count : Nat}
    {maxHeightHeader : Header} (inv : Nat → InflightBlocks → List H256 → Prop)
    (round : ∀ indexHeight inflight fetch toFetch, inv indexHeight inflight fetch →
      indexHeight < maxHeight → fetch.length < count →
      shared.getAncestor maxHeightHeader.hash (indexHeight + 1) = .ok (some toFetch) →
      inv (indexHeight + 1) (fetcher.fetchRound status now toFetch inflight fetch).1
        (fetcher.fetchRound status now toFetch inflight fetch).2) :
    ∀ fuel indexHeight inflight fetch {final : InflightBlocks} {result : Option (List H256)},
      inv indexHeight inflight fetch →
      fetcher.fetchLoop shared status now maxHeight count maxHeightHeader fuel indexHeight inflight
        fetch = .ok (final, result) →
      ∃ indexHeight' fetch', inv indexHeight' final fetch' ∧
        ∀ fetched, result = some fetched → fetched = fetch'
  | 0, indexHeight, inflight, fetch, final, result, holds, ran => by
      cases ran
      exact ⟨indexHeight, fetch, holds, fun _ same => (Option.some.inj same).symm⟩
  | fuel + 1, indexHeight, inflight, fetch, final, result, holds, ran => by
      unfold fetchLoop at ran
      split at ran
      · rename_i guard
        obtain ⟨toFetch?, found, rest⟩ := Except.bind_eq_ok.mp ran
        cases toFetch? with
        | none =>
            cases rest
            exact ⟨indexHeight, fetch, holds, fun _ same => nomatch same⟩
        | some toFetch =>
            exact fetchLoop_invariant inv round fuel (indexHeight + 1) _ _
              (round indexHeight inflight fetch toFetch holds guard.1 guard.2 found) rest
      · cases ran
        exact ⟨indexHeight, fetch, holds, fun _ same => (Option.some.inj same).symm⟩

end BlockFetcher

theorem InflightBlocks.peersOf_insert_of_ne {inflight : InflightBlocks} {now : Nat}
    {peer : PeerIndex} {hash other : H256} (differ : other ≠ hash) :
    (inflight.insert now peer hash).1.peersOf other = inflight.peersOf other := by
  by_cases full : maxPeersPerBlock ≤ (inflight.peersOf hash).length
  · rw [InflightBlocks.insert_of_full full]
    exact InflightBlocks.peersOf_withState
  have room := Nat.lt_of_not_le full
  by_cases requested : hash ∈ inflight.requestedBy peer
  · rw [InflightBlocks.insert_of_requested room requested]
    exact InflightBlocks.peersOf_withState
  · rw [InflightBlocks.insert_of_fresh room requested, InflightBlocks.peersOf_addPeer, if_neg differ]

/-- What the loop of `fetch` has asked so far, walking up to `indexHeight` in
the chain below `top`: blocks of that chain above `floor`, at increasing
heights, each valid and newly asked of the peer; and the blocks above
`indexHeight` have the peers they had before. -/
structure Asked (getHeaderView : H256 → Option HeaderView) (status : H256 → Nat) (peer : PeerIndex)
    (floor : Nat) (top : HeaderView) (before : InflightBlocks) (indexHeight : Nat)
    (inflight : InflightBlocks) (fetch : List H256) : Prop where
  consistent : inflight.Consistent
  above : floor ≤ indexHeight
  views : ∃ views : List HeaderView, fetch = views.map HeaderView.hash ∧
    views.Pairwise (fun lower higher => lower.number < higher.number) ∧
    ∀ view ∈ views, IsAncestor getHeaderView view top ∧ floor < view.number ∧
      view.number ≤ indexHeight ∧ status view.hash = BlockStatus.validMask ∧
      peer ∉ before.peersOf view.hash ∧ peer ∈ inflight.peersOf view.hash
  untouched : ∀ view, IsAncestor getHeaderView view top → indexHeight < view.number →
    inflight.peersOf view.hash = before.peersOf view.hash

namespace Asked

variable {getHeaderView : H256 → Option HeaderView} {status : H256 → Nat} {peer : PeerIndex}
  {floor : Nat} {top : HeaderView} {before : InflightBlocks}

theorem start (consistent : before.Consistent) :
    Asked getHeaderView status peer floor top before floor before [] :=
  ⟨consistent, le_rfl, ⟨[], rfl, List.Pairwise.nil, fun _ member => nomatch member⟩, fun _ _ _ => rfl⟩

theorem skip {indexHeight : Nat} {inflight : InflightBlocks} {fetch : List H256}
    (asked : Asked getHeaderView status peer floor top before indexHeight inflight fetch) :
    Asked getHeaderView status peer floor top before (indexHeight + 1) inflight fetch := by
  obtain ⟨consistent, above, ⟨views, listed, increasing, each⟩, untouched⟩ := asked
  refine ⟨consistent, by omega, ⟨views, listed, increasing, ?_⟩, ?_⟩
  · intro view member
    obtain ⟨up, higher, lower, valid, fresh, nowAsked⟩ := each view member
    exact ⟨up, higher, by omega, valid, fresh, nowAsked⟩
  · intro view up higher
    exact untouched view up (by omega)

end Asked

theorem hash_ne_of_number_ne {getHeaderView : H256 → Option HeaderView} {first second : HeaderView}
    (firstStored : getHeaderView first.hash = some first)
    (secondStored : getHeaderView second.hash = some second) (differ : first.number ≠ second.number) :
    first.hash ≠ second.hash := by
  intro same
  rw [same, secondStored] at firstStored
  exact differ (congrArg HeaderView.number (Option.some.inj firstStored)).symm

namespace BlockFetcher

variable {fetcher : BlockFetcher} {shared : SyncSharedState}

/-- One round of the loop asks for the block one height up the chain below
`top`: the record takes it as a block newly asked of the peer, or the asks stay
as they were; the blocks above keep their peers. -/
theorem Asked.round (tree : SkipTree shared.getHeaderView) {status : H256 → Nat} {now floor : Nat}
    {top : HeaderView} (topStored : shared.getHeaderView top.hash = some top)
    {before inflight : InflightBlocks} {indexHeight : Nat} {fetch : List H256} {toFetch : Header}
    (asked : Asked shared.getHeaderView status fetcher.peer floor top before indexHeight inflight fetch)
    (found : shared.getAncestor top.inner.hash (indexHeight + 1) = .ok (some toFetch)) :
    Asked shared.getHeaderView status fetcher.peer floor top before (indexHeight + 1)
      (fetcher.fetchRound status now toFetch inflight fetch).1
      (fetcher.fetchRound status now toFetch inflight fetch).2 := by
  obtain ⟨view, base, atBase, viewStored, rfl, height, up⟩ := tree.getAncestor_eq_some found
  have sameBase : base = top := by
    have atTop : shared.getHeaderView top.inner.hash = some top := topStored
    rw [atTop] at atBase
    exact (Option.some.inj atBase).symm
  rw [sameBase] at up
  rcases @fetchRound_eq fetcher status now view.inner inflight fetch with same | ⟨valid, asking⟩
  · rw [same]
    exact asked.skip
  have asking' : fetcher.fetchRound status now view.inner inflight fetch =
      ((inflight.insert now fetcher.peer view.hash).1,
        if (inflight.insert now fetcher.peer view.hash).2 then fetch ++ [view.hash] else fetch) :=
    asking
  rw [asking']
  obtain ⟨consistent, above, ⟨views, listed, increasing, each⟩, untouched⟩ := asked
  have others : ∀ other, shared.getHeaderView other.hash = some other → other.number ≠ view.number →
      (inflight.insert now fetcher.peer view.hash).1.peersOf other.hash = inflight.peersOf other.hash :=
    fun other otherStored differ => InflightBlocks.peersOf_insert_of_ne
      (hash_ne_of_number_ne otherStored viewStored differ)
  have kept : ∀ other ∈ views, fetcher.peer ∈ (inflight.insert now fetcher.peer view.hash).1.peersOf other.hash := by
    intro other member
    obtain ⟨otherUp, -, lower, -, -, nowAsked⟩ := each other member
    rw [others other (tree.isAncestor_spec topStored otherUp).1 (by omega)]
    exact nowAsked
  have untouched' : ∀ other, IsAncestor shared.getHeaderView other top → indexHeight + 1 < other.number →
      (inflight.insert now fetcher.peer view.hash).1.peersOf other.hash = before.peersOf other.hash := by
    intro other otherUp higher
    rw [others other (tree.isAncestor_spec topStored otherUp).1 (by omega)]
    exact untouched other otherUp (by omega)
  have consistent' := consistent.insert now fetcher.peer view.hash
  cases inserted : (inflight.insert now fetcher.peer view.hash).2 with
  | false =>
      refine ⟨consistent', by omega, ⟨views, listed, increasing, ?_⟩, untouched'⟩
      intro other member
      obtain ⟨otherUp, higher, lower, otherValid, fresh, -⟩ := each other member
      exact ⟨otherUp, higher, by omega, otherValid, fresh, kept other member⟩
  | true =>
      -- the record took the ask: the peer is new to the block, which no earlier round touched
      have fresh := (InflightBlocks.insert_eq_true_iff consistent now fetcher.peer view.hash).mp inserted
      have beforeView : inflight.peersOf view.hash = before.peersOf view.hash :=
        untouched view up (by omega)
      refine ⟨consistent', by omega, ⟨views ++ [view], ?_, ?_, ?_⟩, untouched'⟩
      · rw [listed, List.map_append]
        rfl
      · refine List.pairwise_append.mpr ⟨increasing, List.pairwise_singleton _ _, ?_⟩
        intro other member last lastMember
        rw [List.mem_singleton.mp lastMember]
        have lower := (each other member).2.2.1
        omega
      · intro other member
        rcases List.mem_append.mp member with old | new
        · obtain ⟨otherUp, higher, lower, otherValid, otherFresh, -⟩ := each other old
          exact ⟨otherUp, higher, by omega, otherValid, otherFresh, kept other old⟩
        · rw [List.mem_singleton.mp new]
          refine ⟨up, by omega, by omega, valid, ?_, fresh.2⟩
          rw [← beforeView]
          exact fresh.1

/-- In a tree of views, when our tip, the headers of our store and the header
recorded for the peer are known, a `fetch` that asks for blocks asks for
ancestors of the peer's best known header at increasing heights, above the
highest common ancestor of that header and the candidate of
`last_common_header`, and at most `PER_FETCH_BLOCK_LIMIT` above it; each has
the status `VALID_MASK`, was not asked of this peer before, and is now. -/
theorem fetch_requests_window (tree : SkipTree shared.getHeaderView)
    (tipKnown : KnownHeader shared.getHeaderView fetcher.tipHeader)
    (storeKnown : ∀ hash header, shared.store.getBlockHeader hash = some header →
      KnownHeader shared.getHeaderView header)
    {peers peers' : Peers}
    (recordedKnown : ∀ header, peers.getLastCommonHeader fetcher.peer = some header →
      KnownHeader shared.getHeaderView header)
    {inflight inflight' : InflightBlocks} (consistent : inflight.Consistent)
    {sharedBest : ScoredView} {blockStatusMap : H256 → Option Nat} {now : Nat} {hashes : List H256}
    (fetched : fetcher.fetch shared sharedBest blockStatusMap now peers inflight =
      .ok (peers', inflight', some hashes)) :
    ∃ best bestView start fixed, peers.getBestKnownHeader fetcher.peer = some best ∧
      shared.getHeaderView bestView.hash = some bestView ∧ bestView.inner = best.inner ∧
      fetcher.lastCommonCandidate shared peers best = some start.inner ∧
      HighestCommon shared.getHeaderView fixed start bestView ∧
      ∃ views : List HeaderView, hashes = views.map HeaderView.hash ∧
        views.Pairwise (fun lower higher => lower.number < higher.number) ∧
        ∀ view ∈ views, IsAncestor shared.getHeaderView view bestView ∧ fixed.number < view.number ∧
          view.number ≤ fixed.number + perFetchBlockLimit ∧
          shared.getBlockStatus blockStatusMap view.hash = BlockStatus.validMask ∧
          fetcher.peer ∉ inflight.peersOf view.hash ∧ fetcher.peer ∈ inflight'.peersOf view.hash := by
  obtain ⟨best, fixedHeader, found, known, corrected, -, window⟩ := fetch_eq_ok_some fetched
  obtain ⟨bestView, -, -, bestStored, bestInner, -, -⟩ :=
    tree.getAncestor_eq_some (isKnownBest_eq_ok_true known)
  obtain ⟨start, candidate, ancestorFound⟩ := lastCommonHeader_eq_ok_some corrected
  obtain ⟨startView, startStored, rfl⟩ :=
    lastCommonCandidate_known tipKnown storeKnown recordedKnown candidate
  rw [← bestInner] at ancestorFound
  have below := lastCommonAncestor_below tree bestStored ancestorFound
  obtain ⟨fixed, fixedFound, highest⟩ : ∃ fixed,
      shared.lastCommonAncestor startView.inner bestView.inner = .ok (some fixed.inner) ∧
        HighestCommon shared.getHeaderView fixed startView bestView := by
    rcases lastCommonAncestor_cases tree startStored bestStored below with found | ⟨-, failed⟩
    · exact found
    · rw [failed] at ancestorFound
      cases ancestorFound
  have fixedInner : fixedHeader = fixed.inner := by
    rw [fixedFound] at ancestorFound
    exact (Option.some.inj (Except.ok.inj ancestorFound)).symm
  subst fixedInner
  obtain ⟨topHeader, topFound, loop⟩ := fetchWindow_eq_ok_some window
  have topFound' : shared.getAncestor bestView.hash
      (min (min (fixed.inner.number + blockDownloadWindow + 1) best.number)
        (fixed.inner.number + perFetchBlockLimit)) = .ok (some topHeader) := by
    rw [show bestView.hash = best.hash from congrArg Header.hash bestInner]
    exact topFound
  obtain ⟨top, base, atBase, topStored, rfl, topNumber, topUp⟩ := tree.getAncestor_eq_some topFound'
  rw [bestStored, Option.some.injEq] at atBase
  subst atBase
  obtain ⟨reached, asks, asked, result⟩ := fetchLoop_invariant
    (Asked shared.getHeaderView (shared.getBlockStatus blockStatusMap) fetcher.peer fixed.inner.number
      top inflight)
    (fun _ _ _ _ holds _ _ found => Asked.round tree topStored holds found) _ _ _ _
    (Asked.start consistent) loop
  cases result hashes rfl
  obtain ⟨-, -, ⟨views, listed, increasing, each⟩, -⟩ := asked
  refine ⟨best, bestView, startView, fixed, found, bestStored, bestInner, candidate, highest, views,
    listed, increasing, ?_⟩
  intro view member
  obtain ⟨up, higher, -, valid, fresh, nowAsked⟩ := each view member
  have low := (tree.isAncestor_spec topStored up).2.1
  have topLow : top.number ≤ fixed.number + perFetchBlockLimit := by
    rw [topNumber]
    exact min_le_right _ _
  exact ⟨tree.isAncestor_trans bestStored up topUp, higher, by omega, valid, fresh, nowAsked⟩

/-- A peer whose best known header is the block of height four on the peer's
chain of `forkTree`, and no last common header recorded yet. -/
def samplePeers : Peers :=
  ⟨[(7, { PeerState.new true ChainSyncState.default none with
    syncStarted := true, bestKnownHeader := some ⟨forkView 4, 50, 0⟩ })]⟩

def sampleFetcher : BlockFetcher := ⟨7, sideHeader 3, 10⟩

/-- With our tip on the side branch, the peer is asked for its blocks at
heights two to four, above the block of height one the two chains share. -/
theorem sideTip_fetches_peer_blocks :
    ∃ peers' inflight', sampleFetcher.fetch forkTree ⟨forkView 11, 60, 0⟩
        (fun _ => some BlockStatus.validMask) 0 samplePeers InflightBlocks.default =
          .ok (peers', inflight', some [⟨102⟩, ⟨103⟩, ⟨104⟩]) ∧
      ∃ best bestView start fixed, samplePeers.getBestKnownHeader sampleFetcher.peer = some best ∧
        forkTree.getHeaderView bestView.hash = some bestView ∧ bestView.inner = best.inner ∧
        sampleFetcher.lastCommonCandidate forkTree samplePeers best = some start.inner ∧
        HighestCommon forkTree.getHeaderView fixed start bestView ∧
        ∃ views : List HeaderView, [⟨102⟩, ⟨103⟩, ⟨104⟩] = views.map HeaderView.hash ∧
          views.Pairwise (fun lower higher => lower.number < higher.number) ∧
          ∀ view ∈ views, IsAncestor forkTree.getHeaderView view bestView ∧
            fixed.number < view.number ∧ view.number ≤ fixed.number + perFetchBlockLimit ∧
            forkTree.getBlockStatus (fun _ => some BlockStatus.validMask) view.hash =
              BlockStatus.validMask ∧
            sampleFetcher.peer ∉ InflightBlocks.default.peersOf view.hash ∧
            sampleFetcher.peer ∈ inflight'.peersOf view.hash := by
  have computed : ((sampleFetcher.fetch forkTree ⟨forkView 11, 60, 0⟩
      (fun _ => some BlockStatus.validMask) 0 samplePeers InflightBlocks.default).toOption.map
        fun result => result.2.2) = some (some [⟨102⟩, ⟨103⟩, ⟨104⟩]) := by
    decide +kernel
  have unrecorded : samplePeers.getLastCommonHeader sampleFetcher.peer = none := by decide
  cases ran : sampleFetcher.fetch forkTree ⟨forkView 11, 60, 0⟩ (fun _ => some BlockStatus.validMask) 0
      samplePeers InflightBlocks.default with
  | error message =>
      rw [ran] at computed
      cases computed
  | ok result =>
      obtain ⟨peers', inflight', asked⟩ := result
      rw [ran] at computed
      cases Option.some.inj computed
      exact ⟨peers', inflight', rfl, fetch_requests_window forkTree_skipTree ⟨sideView 3, by decide, rfl⟩
        (fun _ _ found => nomatch found) (fun _ found => nomatch unrecorded.symm.trans found)
        InflightBlocks.default_consistent ran⟩

end BlockFetcher

end Ckb
