import Ckb.Sync.SkipList
import Ckb.Store.ChainStore

/-!
# Block locators

A node asks a peer for headers with a locator (`sync/src/types.rs`):
`get_locator` lists the hashes of ancestors of a header, one height apart for
the first ten entries and twice as far at each entry after, with the genesis
hash last.  The peer's `locate_latest_common_block` takes the first entry
on its own main chain and, when the entry before it is a header it has
stored, walks that header's parents down to the first block of its main chain.

In a `SkipTree`, the locator of a header lists its ancestors at strictly
decreasing heights, from its own down to the genesis (`getLocator_eq`).
Against a store whose number index is a main chain from the same genesis,
such a locator locates a height at most the last one the two chains share and
at least that of every entry on the main chain; it is the shared height
itself when the entry before the first main-chain entry is stored, unless
that first entry is the genesis, which is returned at once
(`locateLatestCommonBlock_eq`).
-/

namespace Ckb

/-- The part of `SyncSharedState` that locators read: the header views it
keeps, the store, and the genesis hash. -/
structure SyncSharedState where
  headerMap : H256 → Option HeaderView
  store : ChainStore
  genesisHash : H256

namespace SyncSharedState

variable (state : SyncSharedState)

/-- `get_header_view`: the view of the header map, or a view without skip
pointer of a header the store holds with its ext. -/
def getHeaderView (hash : H256) : Option HeaderView :=
  (state.headerMap hash).or ((state.store.getBlockHeader hash).bind fun header =>
    (state.store.getBlockExt hash).map fun _ => ⟨header, none⟩)

def getAncestor (base : H256) (number : Nat) : Except String (Option Header) :=
  match state.getHeaderView base with
  | none => pure none
  | some view => view.getAncestor number state.getHeaderView

/-- The loop of `get_locator`, with fuel for one round per height.  The step
is a `u64` shifted left. -/
def getLocatorLoop : Nat → Nat → Nat → H256 → List H256 → Except String (List H256)
  | 0, _, _, _, locator => pure locator
  | fuel + 1, step, index, base, locator => do
    let header ← (← state.getAncestor base index).getDM
      (.error "index calculated in get_locator")
    let locator := locator ++ [header.hash]
    let step := if 10 ≤ locator.length then (step <<< 1) % 2 ^ 64 else step
    if index < step then
      pure (if index ≠ 0 then locator ++ [state.genesisHash] else locator)
    else
      getLocatorLoop fuel step (index - step) header.hash locator

def getLocator (start : Header) : Except String (List H256) :=
  state.getLocatorLoop (start.number + 1) 1 start.number start.hash []

/-- The walk of `locate_latest_common_block` down the parents of a stored
header to the first block of the main chain, with fuel for one round per
height. -/
def locateParents (latestCommon : Option Nat) : Nat → H256 → Option Nat
  | 0, _ => latestCommon
  | fuel + 1, blockHash =>
    match state.store.getBlockHeader blockHash with
    | none => latestCommon
    | some blockHeader =>
      match state.store.blockNumber blockHash with
      | some blockNumber => some blockNumber
      | none => locateParents latestCommon fuel blockHeader.parentHash

/-- `locate_latest_common_block`; the position of the first entry the store
numbers stands for the `enumerate().find()` of the source. -/
def locateLatestCommonBlock (_hashStop : H256) (locator : List H256) :
    Except String (Option Nat) :=
  match locator.getLast? with
  | none => pure none
  | some last =>
    if last ≠ state.genesisHash then pure none
    else
      match locator.findIdx? fun hash => (state.store.blockNumber hash).isSome with
      | none => .error "locator last checked"
      | some index =>
        let latestCommon := (locator[index]?).bind state.store.blockNumber
        if index = 0 ∨ latestCommon = some 0 then pure latestCommon
        else
          match (locator[index - 1]?).bind state.store.getBlockHeader with
          | some header => pure (state.locateParents latestCommon header.number header.parentHash)
          | none => pure latestCommon

end SyncSharedState

/-! ### The locator of a header -/

/-- The views of the ancestors of `start`, by height: each is reached from
`start` by walking parents down to its height. -/
def Ancestry (getHeaderView : H256 → Option HeaderView) (start : HeaderView)
    (chain : Nat → HeaderView) : Prop :=
  ∀ height ≤ start.number, parentWalk getHeaderView (start.number - height) start = some (chain height)

section Ancestry

variable {getHeaderView : H256 → Option HeaderView} {start : HeaderView} {chain : Nat → HeaderView}

theorem Ancestry.top (ancestry : Ancestry getHeaderView start chain) : chain start.number = start := by
  have walk := ancestry start.number le_rfl
  rw [Nat.sub_self] at walk
  exact (Option.some.inj walk).symm

theorem Ancestry.number_eq (tree : SkipTree getHeaderView)
    (stored : getHeaderView start.hash = some start) (ancestry : Ancestry getHeaderView start chain)
    {height : Nat} (below : height ≤ start.number) :
    (chain height).number = height ∧ getHeaderView (chain height).hash = some (chain height) := by
  obtain ⟨above, walk, number, aboveStored⟩ :=
    tree.parentWalk_spec (start.number - height) stored (Nat.sub_le _ _)
  rw [ancestry height below] at walk
  cases walk
  exact ⟨by omega, aboveStored⟩

theorem Ancestry.parentWalk_eq (ancestry : Ancestry getHeaderView start chain) {height base : Nat}
    (le : height ≤ base) (below : base ≤ start.number) :
    parentWalk getHeaderView (base - height) (chain base) = some (chain height) := by
  have split : start.number - height = (start.number - base) + (base - height) := by omega
  have walk := ancestry height (le.trans below)
  rw [split, parentWalk_add, ancestry base below, Option.bind_some] at walk
  exact walk

theorem Ancestry.parentHash_eq (tree : SkipTree getHeaderView)
    (ancestry : Ancestry getHeaderView start chain)
    {height : Nat} (positive : 0 < height) (below : height ≤ start.number) :
    (chain height).parentHash = (chain (height - 1)).hash := by
  have walk := ancestry.parentWalk_eq (Nat.sub_le height 1) below
  rw [show height - (height - 1) = 0 + 1 by omega, parentWalk] at walk
  cases found : getHeaderView (chain height).parentHash with
  | none =>
      rw [found] at walk
      cases walk
  | some parent =>
      rw [found, Option.bind_some, parentWalk] at walk
      cases walk
      exact (tree.hash_eq _ _ found).symm

end Ancestry

section Locator

variable {state : SyncSharedState} {start : HeaderView} {chain : Nat → HeaderView}

theorem Ancestry.getAncestor (tree : SkipTree state.getHeaderView)
    (stored : state.getHeaderView start.hash = some start)
    (ancestry : Ancestry state.getHeaderView start chain) {height base : Nat} (le : height ≤ base)
    (below : base ≤ start.number) :
    state.getAncestor (chain base).hash height = .ok (some (chain height).inner) := by
  obtain ⟨number, baseStored⟩ := ancestry.number_eq tree stored below
  unfold SyncSharedState.getAncestor
  rw [baseStored]
  dsimp only
  rw [tree.getAncestor_eq baseStored, number, if_pos le, ancestry.parentWalk_eq le below]
  rfl

theorem doubled_pos {step : Nat} (positive : 0 < step) (below : step < 2 ^ 63) :
    0 < (step <<< 1) % 2 ^ 64 := by
  rw [Nat.shiftLeft_eq, Nat.mod_eq_of_lt (by omega)]
  omega

/-- The loop of `get_locator` from the ancestor at `base`, at an `index` at
most it: it appends the hashes of ancestors at strictly decreasing heights,
from `index` down to the genesis. -/
theorem getLocatorLoop_eq (tree : SkipTree state.getHeaderView)
    (stored : state.getHeaderView start.hash = some start)
    (ancestry : Ancestry state.getHeaderView start chain) (genesis : (chain 0).hash = state.genesisHash) :
    ∀ (fuel step index base : Nat) (locator : List H256), index ≤ base → base ≤ start.number →
      index < fuel → 0 < step → step < 2 ^ 63 →
      ∃ heights : List Nat, state.getLocatorLoop fuel step index (chain base).hash locator =
          .ok (locator ++ heights.map fun height => (chain height).hash) ∧
        heights.head? = some index ∧ heights.getLast? = some 0 ∧ heights.Pairwise (· > ·) ∧
        ∀ height ∈ heights, height ≤ index
  | 0, _, _, _, _, _, _, short, _, _ => absurd short (Nat.not_lt_zero _)
  | fuel + 1, step, index, base, locator, le, below, enough, positive, bounded => by
      have found := ancestry.getAncestor tree stored le below
      have limit : index < 2 ^ 63 := by
        have := tree.below _ _ stored
        omega
      rw [SyncSharedState.getLocatorLoop, found]
      simp only [Except.ok_bind, Option.getDM_some, pure_bind]
      rw [show (chain index).inner.hash = (chain index).hash from rfl]
      -- the step of the next round: doubled once ten hashes are listed
      set step' := if 10 ≤ (locator ++ [(chain index).hash]).length then (step <<< 1) % 2 ^ 64
        else step with stepped
      have positive' : 0 < step' := by
        rw [stepped]
        split
        · exact doubled_pos positive bounded
        · exact positive
      by_cases last : index < step'
      · -- the last round: the genesis closes the locator unless this was it
        rw [if_pos last]
        by_cases atGenesis : index = 0
        · refine ⟨[index], ?_, rfl, by rw [atGenesis]; rfl, List.pairwise_singleton _ _, ?_⟩
          · simp [atGenesis]
          · simp
        · refine ⟨[index, 0], ?_, rfl, rfl, ?_, ?_⟩
          · simp [atGenesis, genesis]
          · exact List.pairwise_pair.mpr (Nat.pos_of_ne_zero atGenesis)
          · simp
      · rw [if_neg last]
        obtain ⟨heights, loop, first, final, decreasing, bound⟩ :=
          getLocatorLoop_eq tree stored ancestry genesis fuel step' (index - step') index
            (locator ++ [(chain index).hash]) (Nat.sub_le _ _) (le.trans below) (by omega)
            positive' (by omega)
        refine ⟨index :: heights, ?_, rfl, ?_, ?_, ?_⟩
        · rw [loop]
          simp
        · rw [List.getLast?_cons, final]
          rfl
        · refine List.Pairwise.cons ?_ decreasing
          intro height member
          have := bound height member
          omega
        · intro height member
          rcases List.mem_cons.mp member with same | later
          · omega
          · have := bound height later
            omega

/-- In a `SkipTree`, the locator of a stored header lists the hashes of its
ancestors at strictly decreasing heights, its own first and the genesis
last. -/
theorem getLocator_eq (tree : SkipTree state.getHeaderView)
    (stored : state.getHeaderView start.hash = some start)
    (ancestry : Ancestry state.getHeaderView start chain) (genesis : (chain 0).hash = state.genesisHash) :
    ∃ heights : List Nat, state.getLocator start.inner = .ok (heights.map fun height => (chain height).hash) ∧
      heights.head? = some start.number ∧ heights.getLast? = some 0 ∧
      heights.Pairwise (· > ·) := by
  have run := getLocatorLoop_eq tree stored ancestry genesis (start.number + 1) 1 start.number
    start.number [] le_rfl le_rfl (Nat.lt_succ_self _) Nat.one_pos (by norm_num)
  rw [ancestry.top] at run
  obtain ⟨heights, loop, first, final, decreasing, -⟩ := run
  exact ⟨heights, loop, first, final, decreasing⟩

end Locator

/-! ### The fork point -/

/-- Headers by height up to `top`, each at its height and the parent of the
next. -/
structure HeaderChain (chain : Nat → Header) (top : Nat) : Prop where
  number_eq : ∀ height ≤ top, (chain height).number = height
  linked : ∀ height, 0 < height → height ≤ top →
    (chain height).parentHash = (chain (height - 1)).hash

/-- The main chain of a store up to its tip: its headers are stored, and the
number index numbers exactly their hashes. -/
structure NumberIndex (store : ChainStore) (tip : Nat) (main : Nat → Header) : Prop where
  chain : HeaderChain main tip
  stored : ∀ number ≤ tip, store.getBlockHeader (main number).hash = some (main number)
  blockNumber_eq_some : ∀ hash number,
    store.blockNumber hash = some number ↔ number ≤ tip ∧ (main number).hash = hash

/-- The store holds the parent of every header it holds above the genesis. -/
def ParentsStored (store : ChainStore) : Prop :=
  ∀ hash header, store.getBlockHeader hash = some header → 0 < header.number →
    (store.getBlockHeader header.parentHash).isSome

/-- What the store holds under the hash of a header of the chain is that
header. -/
def Known (store : ChainStore) (chain : Nat → Header) (top : Nat) : Prop :=
  ∀ height ≤ top, ∀ header, store.getBlockHeader (chain height).hash = some header →
    header = chain height

/-- The height of the last block two chains share below both their tops. -/
structure LastCommon (chain main : Nat → Header) (top tip common : Nat) : Prop where
  le_top : common ≤ top
  le_tip : common ≤ tip
  shared : (chain common).hash = (main common).hash
  apart : ∀ height, common < height → height ≤ top → height ≤ tip →
    (chain height).hash ≠ (main height).hash

section ForkPoint

variable {store : ChainStore} {tip top common : Nat} {main chain : Nat → Header}

theorem NumberIndex.blockNumber_chain (index : NumberIndex store tip main)
    (peer : HeaderChain chain top) (known : Known store chain top) {height number : Nat}
    (below : height ≤ top) (numbered : store.blockNumber (chain height).hash = some number) :
    number = height ∧ height ≤ tip ∧ chain height = main height := by
  obtain ⟨onMain, same⟩ := (index.blockNumber_eq_some _ _).mp numbered
  have held := index.stored number onMain
  rw [same] at held
  have equal := known height below _ held
  have numbers := index.chain.number_eq number onMain
  rw [equal, peer.number_eq height below] at numbers
  subst numbers
  exact ⟨rfl, onMain, equal.symm⟩

/-- Two chains that share a block share every block below it. -/
theorem NumberIndex.shared_of_le (index : NumberIndex store tip main)
    (peer : HeaderChain chain top) (known : Known store chain top) :
    ∀ {height : Nat}, height ≤ top → height ≤ tip → (chain height).hash = (main height).hash →
      ∀ lower ≤ height, (chain lower).hash = (main lower).hash
  | 0, _, _, shared, lower, le => by
      rw [Nat.le_zero.mp le]
      exact shared
  | height + 1, onTop, onTip, shared, lower, le => by
      have held := index.stored (height + 1) onTip
      rw [← shared] at held
      have equal := known (height + 1) onTop _ held
      have parents : (chain height).hash = (main height).hash := by
        have chainParent := peer.linked (height + 1) (Nat.succ_pos _) onTop
        have mainParent := index.chain.linked (height + 1) (Nat.succ_pos _) onTip
        rw [equal, chainParent, Nat.add_sub_cancel] at mainParent
        exact mainParent
      rcases Nat.lt_or_ge lower (height + 1) with lower' | top'
      · exact index.shared_of_le peer known (Nat.le_of_succ_le onTop) (Nat.le_of_succ_le onTip)
          parents lower (Nat.le_of_lt_succ lower')
      · rw [Nat.le_antisymm le top']
        exact shared

theorem lastCommon_exists (genesis : (chain 0).hash = (main 0).hash) :
    ∃ common, LastCommon chain main top tip common := by
  refine ⟨Nat.findGreatest (fun height => (chain height).hash = (main height).hash) (min top tip),
    ?_, ?_, ?_, ?_⟩
  · exact (Nat.findGreatest_le _).trans (min_le_left _ _)
  · exact (Nat.findGreatest_le _).trans (min_le_right _ _)
  · exact @Nat.findGreatest_spec 0 (fun height => (chain height).hash = (main height).hash) _ _
      (Nat.zero_le _) genesis
  · intro height above onTop onTip
    exact Nat.findGreatest_is_greatest above (le_min onTop onTip)

theorem LastCommon.blockNumber_of_le (last : LastCommon chain main top tip common)
    (index : NumberIndex store tip main) (peer : HeaderChain chain top) (known : Known store chain top)
    {height : Nat} (le : height ≤ common) : store.blockNumber (chain height).hash = some height := by
  have shared := index.shared_of_le peer known last.le_top last.le_tip last.shared height le
  exact (index.blockNumber_eq_some _ _).mpr ⟨le.trans last.le_tip, shared.symm⟩

theorem LastCommon.blockNumber_of_lt (last : LastCommon chain main top tip common)
    (index : NumberIndex store tip main) (peer : HeaderChain chain top) (known : Known store chain top)
    {height : Nat} (above : common < height) (below : height ≤ top) :
    store.blockNumber (chain height).hash = none := by
  cases numbered : store.blockNumber (chain height).hash with
  | none => rfl
  | some number =>
      obtain ⟨-, onTip, equal⟩ := index.blockNumber_chain peer known below numbered
      exact absurd (congrArg Header.hash equal) (last.apart height above below onTip)

/-- Split at the last common height, a locator of decreasing heights has every
entry the store numbers at or below its first entry below that height. -/
theorem LastCommon.numbered_le (last : LastCommon chain main top tip common)
    (index : NumberIndex store tip main) (peer : HeaderChain chain top) (known : Known store chain top)
    {above rest : List Nat} {first : Nat} (bounded : ∀ height ∈ above ++ first :: rest, height ≤ top)
    (high : ∀ height ∈ above, common < height) (decreasing : (above ++ first :: rest).Pairwise (· > ·))
    {height number : Nat} (member : height ∈ above ++ first :: rest)
    (numbered : store.blockNumber (chain height).hash = some number) : number ≤ first := by
  obtain ⟨rfl, onTip, equal⟩ := index.blockNumber_chain peer known (bounded height member) numbered
  have notAbove : ¬common < number := fun above =>
    last.apart number above (bounded number member) onTip (congrArg Header.hash equal)
  rcases List.mem_append.mp member with inAbove | inRest
  · exact absurd (high number inAbove) notAbove
  · rcases List.mem_cons.mp inRest with same | later
    · exact same.le
    · have ordered := (List.pairwise_append.mp decreasing).2.1
      exact ((List.pairwise_cons.mp ordered).1 number later).le

theorem Known.parentHeld (known : Known store chain top) (peer : HeaderChain chain top)
    (parents : ParentsStored store) {height : Nat} {header : Header} (positive : 0 < height)
    (below : height ≤ top) (held : store.getBlockHeader (chain height).hash = some header) :
    header = chain height ∧ header.parentHash = (chain (height - 1)).hash ∧
      (store.getBlockHeader (chain (height - 1)).hash).isSome := by
  have equal := known height below header held
  subst equal
  have parentHeld := parents _ _ held (by rw [peer.number_eq height below]; exact positive)
  rw [peer.linked height positive below] at parentHeld
  exact ⟨rfl, peer.linked height positive below, parentHeld⟩

end ForkPoint

section Locate

variable {state : SyncSharedState} {tip top common : Nat} {main chain : Nat → Header}

/-- From a stored header of the chain at or above the last common height, the
walk down its parents stops there. -/
theorem LastCommon.locateParents_eq (last : LastCommon chain main top tip common)
    (index : NumberIndex state.store tip main) (peer : HeaderChain chain top)
    (known : Known state.store chain top) (parents : ParentsStored state.store)
    (latestCommon : Option Nat) :
    ∀ (fuel height : Nat), common ≤ height → height ≤ top → height - common < fuel →
      (state.store.getBlockHeader (chain height).hash).isSome →
      state.locateParents latestCommon fuel (chain height).hash = some common
  | 0, _, _, _, short, _ => absurd short (Nat.not_lt_zero _)
  | fuel + 1, height, le, below, enough, held => by
      obtain ⟨header, found⟩ := Option.isSome_iff_exists.mp held
      rw [SyncSharedState.locateParents, found]
      dsimp only
      rcases Nat.eq_or_lt_of_le le with atCommon | above
      · -- the last common block is on the main chain
        subst atCommon
        rw [last.blockNumber_of_le index peer known le_rfl]
      · -- above it the walk goes on to the parent, which the store holds
        rw [last.blockNumber_of_lt index peer known above below]
        dsimp only
        obtain ⟨-, parentHash, parentHeld⟩ := known.parentHeld peer parents (by omega) below found
        rw [parentHash]
        exact last.locateParents_eq index peer known parents latestCommon fuel (height - 1)
          (by omega) (by omega) (by omega) parentHeld

/-- The locator of heights split at the last common height: the store numbers
no entry above it and the first entry below it. -/
theorem LastCommon.findIdx?_eq (last : LastCommon chain main top tip common)
    (index : NumberIndex state.store tip main) (peer : HeaderChain chain top)
    (known : Known state.store chain top) {above rest : List Nat} {first : Nat}
    (bounded : ∀ height ∈ above ++ first :: rest, height ≤ top) (high : ∀ height ∈ above, common < height)
    (low : first ≤ common) :
    ((above ++ first :: rest).map fun height => (chain height).hash).findIdx?
        (fun hash => (state.store.blockNumber hash).isSome) = some above.length := by
  have skipped : (above.map fun height => (chain height).hash).findIdx?
      (fun hash => (state.store.blockNumber hash).isSome) = none := by
    rw [List.findIdx?_eq_none_iff]
    intro hash member
    obtain ⟨height, aboveMember, rfl⟩ := List.mem_map.mp member
    rw [last.blockNumber_of_lt index peer known (high height aboveMember)
      (bounded height (List.mem_append_left _ aboveMember))]
    rfl
  rw [List.map_append, List.findIdx?_append, skipped, Option.none_or, List.map_cons,
    List.findIdx?_cons, last.blockNumber_of_le index peer known low]
  simp

/-- From a stored entry above the last common height, the walk of
`locate_latest_common_block` from its parent stops at that height. -/
theorem LastCommon.locateParents_entry (last : LastCommon chain main top tip common)
    (index : NumberIndex state.store tip main) (peer : HeaderChain chain top)
    (known : Known state.store chain top) (parents : ParentsStored state.store)
    (latestCommon : Option Nat) {entry : Nat} {header : Header} (above : common < entry)
    (below : entry ≤ top) (held : state.store.getBlockHeader (chain entry).hash = some header) :
    state.locateParents latestCommon header.number header.parentHash = some common := by
  obtain ⟨equal, parentHash, parentHeld⟩ := known.parentHeld peer parents (by omega) below held
  rw [parentHash, equal, peer.number_eq entry below]
  exact last.locateParents_eq index peer known parents latestCommon entry (entry - 1) (by omega)
    (by omega) (by omega) parentHeld

/-- A locator split at the last common height locates its first entry at or
below that height, or the height itself, which it does when the entry above
is stored and the first below is not the genesis. -/
theorem LastCommon.locate_of_split (last : LastCommon chain main top tip common)
    (index : NumberIndex state.store tip main) (peer : HeaderChain chain top)
    (known : Known state.store chain top) (parents : ParentsStored state.store)
    (genesis : (chain 0).hash = state.genesisHash) (hashStop : H256) {above rest : List Nat}
    {first : Nat} (bounded : ∀ height ∈ above ++ first :: rest, height ≤ top)
    (high : ∀ height ∈ above, common < height) (low : first ≤ common)
    (toGenesis : (above ++ first :: rest).getLast? = some 0) :
    ∃ located, state.locateLatestCommonBlock hashStop
        ((above ++ first :: rest).map fun height => (chain height).hash) = .ok (some located) ∧
      (located = first ∨ located = common) ∧
      ∀ init entry, above = init ++ [entry] → 0 < first →
        (state.store.getBlockHeader (chain entry).hash).isSome → located = common := by
  have lastHash : ((above ++ first :: rest).map fun height => (chain height).hash).getLast? =
      some state.genesisHash := by
    rw [List.getLast?_map, toGenesis, Option.map_some, genesis]
  have latest : (((above ++ first :: rest).map fun height => (chain height).hash)[above.length]?).bind
      state.store.blockNumber = some first := by
    simp [last.blockNumber_of_le index peer known low]
  unfold SyncSharedState.locateLatestCommonBlock
  rw [lastHash]
  simp only [ne_eq, not_true_eq_false, if_false]
  rw [last.findIdx?_eq index peer known bounded high low]
  simp only
  rw [latest]
  by_cases shortcut : above.length = 0 ∨ some first = some 0
  · -- the first entry, or the genesis, is returned at once
    rw [if_pos shortcut]
    refine ⟨first, rfl, .inl rfl, ?_⟩
    intro init entry split positive _
    rcases shortcut with empty | zero
    · simp [split] at empty
    · cases zero
      exact absurd positive (Nat.lt_irrefl 0)
  · rw [if_neg shortcut]
    have nonempty : above ≠ [] := fun empty => shortcut (.inl (by rw [empty]; rfl))
    obtain ⟨init, entry, split⟩ := (List.eq_nil_or_concat above).resolve_left nonempty
    rw [List.concat_eq_append] at split
    subst split
    have entryAbove := high entry (List.mem_append_right _ (List.mem_singleton_self _))
    have entryBelow := bounded entry (by simp)
    have lookup : (((init ++ [entry] ++ first :: rest).map fun height => (chain height).hash)[
        (init ++ [entry]).length - 1]?) = some (chain entry).hash := by
      simp
    rw [lookup, Option.bind_some]
    cases held : state.store.getBlockHeader (chain entry).hash with
    | none =>
        -- the entry above is not stored: its main-chain neighbour below is returned
        refine ⟨first, rfl, .inl rfl, ?_⟩
        intro init' entry' split' _ stored
        have same : entry' = entry := (List.singleton_inj.mp (List.append_inj' split' rfl).2).symm
        rw [same, held] at stored
        cases stored
    | some header =>
        refine ⟨common, ?_, .inr rfl, fun _ _ _ _ _ => rfl⟩
        simp only
        rw [last.locateParents_entry index peer known parents _ entryAbove entryBelow held]
        rfl

/-- Where an entry above the last common height is stored and the next entry
lies at or below it, above the genesis, the locator locates that height. -/
theorem LastCommon.locate_of_adjacent (last : LastCommon chain main top tip common)
    (index : NumberIndex state.store tip main) (peer : HeaderChain chain top)
    (known : Known state.store chain top) (parents : ParentsStored state.store)
    (genesis : (chain 0).hash = state.genesisHash) (hashStop : H256) {heights : List Nat}
    (bounded : ∀ height ∈ heights, height ≤ top) (decreasing : heights.Pairwise (· > ·))
    (toGenesis : heights.getLast? = some 0) {entry next : Nat} (adjacent : [entry, next] <:+: heights)
    (entryAbove : common < entry) (nextLow : next ≤ common) (positive : 0 < next)
    (stored : (state.store.getBlockHeader (chain entry).hash).isSome) :
    state.locateLatestCommonBlock hashStop (heights.map fun height => (chain height).hash) =
      .ok (some common) := by
  obtain ⟨before, after, rfl⟩ := adjacent
  have ordered : ∀ height ∈ before, entry < height := by
    have pairs := (List.pairwise_append.mp decreasing).1
    exact fun height member => (List.pairwise_append.mp pairs).2.2 height member entry (by simp)
  have split : before ++ [entry, next] ++ after = (before ++ [entry]) ++ next :: after := by simp
  rw [split] at bounded toGenesis ⊢
  obtain ⟨located, located_eq, -, exact⟩ :=
    last.locate_of_split index peer known parents genesis hashStop bounded
      (fun height member => by
        rcases List.mem_append.mp member with inBefore | atEntry
        · exact entryAbove.trans (ordered height inBefore)
        · rw [List.mem_singleton.mp atEntry]
          exact entryAbove)
      nextLow toGenesis
  rw [located_eq, exact before entry rfl positive stored]

/-- A list of heights with one at most `common` splits before the first such. -/
theorem exists_split_at_le (common : Nat) :
    ∀ {heights : List Nat}, (∃ height ∈ heights, height ≤ common) →
      ∃ above first rest, heights = above ++ first :: rest ∧ (∀ height ∈ above, common < height) ∧
        first ≤ common
  | [], ⟨_, member, _⟩ => absurd member List.not_mem_nil
  | height :: later, reaches => by
      by_cases low : height ≤ common
      · exact ⟨[], height, later, rfl, nofun, low⟩
      · obtain ⟨lower, member, lowerLow⟩ := reaches
        have inLater : lower ∈ later := by
          rcases List.mem_cons.mp member with same | inLater
          · exact absurd (same ▸ lowerLow) low
          · exact inLater
        obtain ⟨above, first, rest, split, high, firstLow⟩ :=
          exists_split_at_le common ⟨lower, inLater, lowerLow⟩
        refine ⟨height :: above, first, rest, by rw [split]; rfl, ?_, firstLow⟩
        intro other member
        rcases List.mem_cons.mp member with same | inAbove
        · rw [same]
          exact Nat.lt_of_not_le low
        · exact high other inAbove

/-- A locator of hashes of the chain at strictly decreasing heights ending at
the genesis locates a height at most the last common one and at least that of
every entry the store numbers; the last common height itself when the entry
before the first main-chain entry is stored and that entry is not the
genesis. -/
theorem locateLatestCommonBlock_eq (index : NumberIndex state.store tip main)
    (parents : ParentsStored state.store) (peer : HeaderChain chain top)
    (known : Known state.store chain top) (genesis : (chain 0).hash = state.genesisHash)
    (sameGenesis : (main 0).hash = state.genesisHash) (hashStop : H256) {heights : List Nat}
    (bounded : ∀ height ∈ heights, height ≤ top) (decreasing : heights.Pairwise (· > ·))
    (toGenesis : heights.getLast? = some 0) :
    ∃ common located, LastCommon chain main top tip common ∧
      state.locateLatestCommonBlock hashStop (heights.map fun height => (chain height).hash) =
        .ok (some located) ∧
      located ≤ common ∧
      (∀ hash ∈ heights.map fun height => (chain height).hash, ∀ number,
        state.store.blockNumber hash = some number → number ≤ located) ∧
      ∀ entry next, [entry, next] <:+: heights → common < entry → next ≤ common → 0 < next →
        (state.store.getBlockHeader (chain entry).hash).isSome → located = common := by
  have shared : ∃ common, LastCommon chain main top tip common :=
    lastCommon_exists (genesis.trans sameGenesis.symm)
  obtain ⟨common, last⟩ := shared
  have reaches : ∃ height ∈ heights, height ≤ common :=
    ⟨0, List.mem_of_getLast? toGenesis, Nat.zero_le _⟩
  obtain ⟨above, first, rest, split, high, low⟩ := exists_split_at_le common reaches
  subst split
  obtain ⟨located, located_eq, choice, exact⟩ :=
    last.locate_of_split index peer known parents genesis hashStop bounded high low toGenesis
  refine ⟨common, located, last, located_eq, ?_, ?_, ?_⟩
  · rcases choice with same | same <;> omega
  · -- the numbered entries lie at or below the first entry at the last common height
    intro hash member number numbered
    obtain ⟨height, heightMember, rfl⟩ := List.mem_map.mp member
    have belowFirst := last.numbered_le index peer known bounded high decreasing heightMember numbered
    rcases choice with same | same <;> omega
  · intro entry next adjacent entryAbove nextLow positive stored
    have common_eq := last.locate_of_adjacent index peer known parents genesis hashStop bounded
      decreasing toGenesis adjacent entryAbove nextLow positive stored
    rw [located_eq] at common_eq
    cases common_eq
    rfl

end Locate

/-- The locator a peer builds for a header of its chain lists the header's
ancestors at strictly decreasing heights, from its own down to the genesis.
Against a store whose number index is a main chain from that genesis, any
such locator locates a height at most the last one the chains share and at
least that of every entry on the main chain; it is that shared height when
the entry before the first main-chain entry is stored and that entry is not
the genesis. -/
theorem locator_bounds_fork_point {peer ours : SyncSharedState} {start : HeaderView}
    {views : Nat → HeaderView} {tip : Nat} {main : Nat → Header}
    (tree : SkipTree peer.getHeaderView) (stored : peer.getHeaderView start.hash = some start)
    (ancestry : Ancestry peer.getHeaderView start views)
    (peerGenesis : (views 0).hash = peer.genesisHash) (index : NumberIndex ours.store tip main)
    (parents : ParentsStored ours.store)
    (known : Known ours.store (fun height => (views height).inner) start.number)
    (genesis : (views 0).hash = ours.genesisHash) (sameGenesis : (main 0).hash = ours.genesisHash)
    (hashStop : H256) :
    (∃ heights : List Nat,
      peer.getLocator start.inner = .ok (heights.map fun height => (views height).hash) ∧
      heights.head? = some start.number ∧ heights.getLast? = some 0 ∧
      heights.Pairwise (· > ·)) ∧
    ∀ heights : List Nat, (∀ height ∈ heights, height ≤ start.number) →
      heights.Pairwise (· > ·) → heights.getLast? = some 0 →
      ∃ common located,
        LastCommon (fun height => (views height).inner) main start.number tip common ∧
        ours.locateLatestCommonBlock hashStop (heights.map fun height => (views height).hash) =
          .ok (some located) ∧
        located ≤ common ∧
        (∀ hash ∈ heights.map fun height => (views height).hash, ∀ number,
          ours.store.blockNumber hash = some number → number ≤ located) ∧
        ∀ entry next, [entry, next] <:+: heights → common < entry → next ≤ common → 0 < next →
          (ours.store.getBlockHeader (views entry).hash).isSome → located = common := by
  have chain : HeaderChain (fun height => (views height).inner) start.number :=
    ⟨fun _ below => (ancestry.number_eq tree stored below).1,
      fun _ positive below => ancestry.parentHash_eq tree positive below⟩
  refine ⟨getLocator_eq tree stored ancestry peerGenesis, ?_⟩
  intro heights bounded decreasing toGenesis
  exact locateLatestCommonBlock_eq index parents chain known genesis sameGenesis hashStop bounded
    decreasing toGenesis

section Samples

/-- The peer's chain: the genesis of hash 1, a block of hash 11 that our main
chain shares, then blocks of hashes 102 to 111. -/
def forkHash (height : Nat) : H256 :=
  ⟨if height = 0 then 1 else if height = 1 then 11 else 100 + height⟩

def forkHeader (height : Nat) : Header :=
  ⟨height, 0, 0, 1, if height = 0 then ⟨0⟩ else forkHash (height - 1), forkHash height⟩

def forkView (height : Nat) : HeaderView := ⟨forkHeader height, none⟩

def forkPeer : SyncSharedState where
  headerMap hash := ((List.range 12).find? fun height => forkHash height == hash).map forkView
  store := ChainStore.empty
  genesisHash := ⟨1⟩

/-- Our main chain: the genesis, the shared block, and a block of hash 202. -/
def ourMain (height : Nat) : Header :=
  if height = 2 then ⟨2, 0, 0, 1, ⟨11⟩, ⟨202⟩⟩ else forkHeader height

/-- The headers of our store: the main chain and the peer's blocks above the
shared one. -/
def ourHeaders : List Header := (List.range 3).map ourMain ++ (List.range' 2 10).map forkHeader

def ourStore : ChainStore where
  block hash := (ourHeaders.find? fun header => header.hash == hash).map fun header =>
    ⟨header, [], [], []⟩
  blockExt _ := none
  blockEpoch _ := none
  blockHash height := if height ≤ 2 then some (ourMain height).hash else none
  blockNumber hash := (List.range 3).find? fun height => (ourMain height).hash == hash
  currentEpochExt := none

def ourState : SyncSharedState := ⟨fun _ => none, ourStore, ⟨1⟩⟩

theorem forkPeer_getHeaderView_eq_some {hash : H256} {view : HeaderView}
    (found : forkPeer.getHeaderView hash = some view) :
    ∃ height < 12, view = forkView height ∧ forkHash height = hash := by
  have lookup : forkPeer.getHeaderView hash =
      ((List.range 12).find? fun height => forkHash height == hash).map forkView :=
    Option.or_none
  rw [lookup, Option.map_eq_some_iff] at found
  obtain ⟨height, first, rfl⟩ := found
  have hit := List.find?_some first
  exact ⟨height, List.mem_range.mp (List.mem_of_find?_eq_some first), rfl, beq_iff_eq.mp hit⟩

theorem forkPeer_skipTree : SkipTree forkPeer.getHeaderView := by
  have parents : ∀ height < 12, 0 < height →
      forkPeer.getHeaderView (forkView height).parentHash = some (forkView (height - 1)) := by
    decide
  constructor
  · intro hash view found
    obtain ⟨height, -, rfl, hashed⟩ := forkPeer_getHeaderView_eq_some found
    exact hashed
  · intro hash view found
    obtain ⟨height, below, rfl, -⟩ := forkPeer_getHeaderView_eq_some found
    show height < 2 ^ 63
    omega
  · intro hash view found positive
    obtain ⟨height, below, rfl, -⟩ := forkPeer_getHeaderView_eq_some found
    have positive' : 0 < height := positive
    refine ⟨forkView (height - 1), parents height below positive', ?_⟩
    show height - 1 + 1 = height
    omega
  · intro hash view skip found _ pointer
    obtain ⟨height, -, rfl, -⟩ := forkPeer_getHeaderView_eq_some found
    cases pointer

theorem forkPeer_ancestry : Ancestry forkPeer.getHeaderView (forkView 11) forkView := by
  show ∀ height ≤ 11, parentWalk forkPeer.getHeaderView (11 - height) (forkView 11) =
    some (forkView height)
  decide +kernel

theorem ourStore_getBlockHeader_eq_some {hash : H256} {header : Header}
    (found : ourStore.getBlockHeader hash = some header) : header ∈ ourHeaders := by
  have lookup : ourStore.getBlockHeader hash = ourHeaders.find? fun header => header.hash == hash := by
    rw [ChainStore.getBlockHeader, ourStore, Option.map_map]
    exact Option.map_id'
  rw [lookup] at found
  exact List.mem_of_find?_eq_some found

theorem ourStore_numberIndex : NumberIndex ourStore 2 ourMain := by
  have first : ∀ number ≤ 2,
      (List.range 3).find? (fun height => (ourMain height).hash == (ourMain number).hash) =
        some number := by
    decide
  refine ⟨⟨by decide, ?_⟩, by decide, ?_⟩
  · intro height positive below
    interval_cases height <;> rfl
  · intro hash number
    constructor
    · intro found
      have found' : (List.range 3).find? (fun height => (ourMain height).hash == hash) =
          some number := found
      have hit := List.find?_some found'
      exact ⟨Nat.le_of_lt_succ (List.mem_range.mp (List.mem_of_find?_eq_some found')),
        beq_iff_eq.mp hit⟩
    · rintro ⟨onMain, rfl⟩
      exact first number onMain

theorem ourStore_parentsStored : ParentsStored ourStore := by
  have parents : ∀ header ∈ ourHeaders, 0 < header.number →
      (ourStore.getBlockHeader header.parentHash).isSome := by
    decide
  intro hash header found positive
  exact parents header (ourStore_getBlockHeader_eq_some found) positive

theorem ourStore_known : Known ourStore (fun height => (forkView height).inner) 11 := by
  have table : ∀ height ≤ 11, ourStore.getBlockHeader (forkHeader height).hash = none ∨
      ourStore.getBlockHeader (forkHeader height).hash = some (forkHeader height) := by
    decide
  intro height below header found
  change ourStore.getBlockHeader (forkHeader height).hash = some header at found
  change header = forkHeader height
  rcases table height below with absent | present
  · rw [absent] at found
    cases found
  · rw [present] at found
    exact (Option.some.inj found).symm

end Samples

/-- The peer's locator for its block at height 11 skips from height 2 to the
genesis.  Our store holds the block at height 2, the entry before the genesis,
and the chains share height 1; yet the genesis entry is returned at once. -/
theorem genesis_entry_skips_fork_point :
    forkPeer.getLocator (forkHeader 11) =
        .ok (([11, 10, 9, 8, 7, 6, 5, 4, 3, 2, 0] : List Nat).map forkHash) ∧
      ourState.locateLatestCommonBlock ⟨0⟩
        (([11, 10, 9, 8, 7, 6, 5, 4, 3, 2, 0] : List Nat).map forkHash) = .ok (some 0) ∧
      (ourStore.getBlockHeader (forkHash 2)).isSome ∧ ourStore.blockNumber (forkHash 1) = some 1 ∧
      (forkHeader 1).hash = (ourMain 1).hash :=
  ⟨by decide +kernel, by decide +kernel, by decide, by decide, by decide⟩

/-- The peer's locator for its block at height 11, read by our store. -/
theorem forkPeer_locator_bounds_fork :
    (∃ heights : List Nat,
      forkPeer.getLocator (forkView 11).inner = .ok (heights.map fun height => (forkView height).hash) ∧
      heights.head? = some (forkView 11).number ∧ heights.getLast? = some 0 ∧
      heights.Pairwise (· > ·)) ∧
    ∀ heights : List Nat, (∀ height ∈ heights, height ≤ (forkView 11).number) →
      heights.Pairwise (· > ·) → heights.getLast? = some 0 →
      ∃ common located,
        LastCommon (fun height => (forkView height).inner) ourMain (forkView 11).number 2 common ∧
        ourState.locateLatestCommonBlock ⟨0⟩ (heights.map fun height => (forkView height).hash) =
          .ok (some located) ∧
        located ≤ common ∧
        (∀ hash ∈ heights.map fun height => (forkView height).hash, ∀ number,
          ourState.store.blockNumber hash = some number → number ≤ located) ∧
        ∀ entry next, [entry, next] <:+: heights → common < entry → next ≤ common → 0 < next →
          (ourState.store.getBlockHeader (forkView entry).hash).isSome → located = common :=
  locator_bounds_fork_point forkPeer_skipTree (by decide) forkPeer_ancestry rfl ourStore_numberIndex
    ourStore_parentsStored ourStore_known rfl rfl ⟨0⟩

end Ckb
