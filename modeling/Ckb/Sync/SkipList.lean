import Mathlib.Data.Int.Bitwise
import Ckb.Core.Block
import Ckb.Lib.Checked
import Ckb.Lib.KeyValue

/-!
# Skip pointers of header views

A `HeaderView` of the synchronizer (`sync/src/types.rs`) carries, besides its
header, the hash of one further ancestor: `build_skip` sets it when the view is
inserted, to the ancestor at height `get_skip_height(number)`, and
`get_ancestor` walks down to a height taking either the parent or that
pointer, whichever the heights say is no worse.

`get_skip_height` computes in i64: `height as i64` reads a u64 in two's
complement, and `n & (n - 1)` clears the lowest set bit.  Below `2 ^ 63` this
is the arithmetic of naturals and the skip height is lower than the height
(`getSkipHeight_eq`, `skipHeight_lt`); at `2 ^ 63` the subtraction leaves the
i64 range and panics.

The map of views is the lookup `get_header_view`, a function from hashes.
Where every view sits under its hash, knows its parent one height lower, and
points to the ancestor its skip height names (`SkipTree`), `get_ancestor`
returns the view reached by walking parents (`getAncestor_eq_parentWalk`);
and `insert_header_view` keeps a map a `SkipTree` (`SkipTree.insertHeaderView`).
-/

namespace Ckb

/-! ### Skip heights -/

def i64Min : Int := -2 ^ 63

/-- `value as i64`: a u64 read in two's complement. -/
def asI64 (value : Nat) : Int := if value < 2 ^ 63 then value else (value : Int) - 2 ^ 64

def asU64 (value : Int) : Nat := (value % 2 ^ 64).toNat

/-- `value - 1` in i64, which panics below `i64::MIN`. -/
def i64Pred (value : Int) : Except String Int :=
  if value - 1 < i64Min then .error "attempt to subtract with overflow" else pure (value - 1)

/-- `invert_lowest_one`: `n & (n - 1)` turns the lowest one bit into a zero. -/
def invertLowestOne (n : Int) : Except String Int := do
  let below ← i64Pred n
  pure (Int.land n below)

def getSkipHeight (height : Nat) : Except String Nat :=
  if height < 2 then pure 0
  else if height &&& 1 > 0 then do
    let below ← i64Pred (asI64 height)
    let once ← invertLowestOne below
    let twice ← invertLowestOne once
    Checked.addOrPanic u64Bound (asU64 twice) 1
  else do
    let cleared ← invertLowestOne (asI64 height)
    pure (asU64 cleared)

/-- `n & (n - 1)` on naturals. -/
def clearLowest (n : Nat) : Nat := n &&& (n - 1)

/-- The skip height, as `get_skip_height` computes it below `2 ^ 63`. -/
def skipHeight (height : Nat) : Nat :=
  if height < 2 then 0
  else if height % 2 = 1 then clearLowest (clearLowest (height - 1)) + 1
  else clearLowest height

theorem clearLowest_le (n : Nat) : clearLowest n ≤ n := Nat.and_le_left

theorem clearLowest_lt {n : Nat} (positive : 0 < n) : clearLowest n < n :=
  Nat.lt_of_le_of_lt Nat.and_le_right (Nat.sub_lt positive Nat.one_pos)

theorem skipHeight_lt {height : Nat} (positive : 0 < height) : skipHeight height < height := by
  unfold skipHeight
  split
  · exact positive
  · split
    · -- an odd height: two bits cleared below the even height under it, then one up
      have cleared := clearLowest_lt (show 0 < height - 1 by omega)
      have twice := clearLowest_le (clearLowest (height - 1))
      omega
    · exact clearLowest_lt positive

theorem invertLowestOne_natCast {n : Nat} (below : n < 2 ^ 63) :
    invertLowestOne n = .ok (clearLowest n : Nat) := by
  have inRange : ¬((n : Int) - 1 < i64Min) := by
    unfold i64Min
    omega
  simp only [invertLowestOne, i64Pred, if_neg inRange]
  cases n with
  | zero =>
      -- `0 & -1` is the set difference of nothing with nothing
      have cleared : Int.land ((0 : Nat) : Int) (((0 : Nat) : Int) - 1) = 0 := by
        show ((Nat.ldiff 0 0 : Nat) : Int) = 0
        rw [Nat.ldiff, Nat.bitwise_zero]
        rfl
      show Except.ok (Int.land ((0 : Nat) : Int) (((0 : Nat) : Int) - 1)) = _
      rw [cleared]
      rfl
  | succ m =>
      have pred : ((m + 1 : Nat) : Int) - 1 = (m : Int) := by omega
      rw [pred]
      rfl

theorem asI64_natCast {n : Nat} (below : n < 2 ^ 63) : asI64 n = n := by
  rw [asI64, if_pos below]

theorem asU64_natCast {n : Nat} (below : n < 2 ^ 64) : asU64 n = n := by
  unfold asU64
  omega

theorem getSkipHeight_eq {height : Nat} (below : height < 2 ^ 63) :
    getSkipHeight height = .ok (skipHeight height) := by
  unfold getSkipHeight skipHeight
  by_cases low : height < 2
  · rw [if_pos low, if_pos low]
    rfl
  rw [if_neg low, if_neg low, Nat.and_one_is_mod]
  by_cases odd : height % 2 = 1
  · rw [if_pos (by omega), if_pos odd]
    have pred : i64Pred (asI64 height) = .ok ((height - 1 : Nat) : Int) := by
      rw [asI64_natCast below, i64Pred, if_neg (by unfold i64Min; omega)]
      congr 1
      omega
    have onceBelow : clearLowest (height - 1) < 2 ^ 63 :=
      Nat.lt_of_le_of_lt (clearLowest_le _) (by omega)
    have twiceBelow : clearLowest (clearLowest (height - 1)) < 2 ^ 63 :=
      Nat.lt_of_le_of_lt (clearLowest_le _) onceBelow
    simp only [pred, invertLowestOne_natCast (show height - 1 < 2 ^ 63 by omega),
      invertLowestOne_natCast onceBelow, Except.ok_bind,
      asU64_natCast (show clearLowest (clearLowest (height - 1)) < 2 ^ 64 by omega)]
    rw [Checked.addOrPanic_eq_ok_iff]
    unfold u64Bound
    omega
  · rw [if_neg (by omega), if_neg odd]
    simp only [asI64_natCast below, invertLowestOne_natCast below, Except.ok_bind]
    rw [asU64_natCast (Nat.lt_of_le_of_lt (clearLowest_le _) (by omega))]
    rfl

/-- At `2 ^ 63` the height reads as `i64::MIN`, and `n - 1` panics. -/
theorem skipHeight_of_two_pow_63_panics :
    getSkipHeight (2 ^ 63) = .error "attempt to subtract with overflow" := by
  decide

/-! ### Header views -/

/-- A `HeaderView`: the header and the hash of its skip ancestor. -/
structure HeaderView where
  inner : Header
  skipHash : Option H256
  deriving DecidableEq, Repr

namespace HeaderView

def number (view : HeaderView) : Nat := view.inner.number

def hash (view : HeaderView) : H256 := view.inner.hash

def parentHash (view : HeaderView) : H256 := view.inner.parentHash

/-- The guard of `get_ancestor`: the skip pointer is taken when it lands on the
target height, or above it where the parent's skip would not land lower and
still above it. -/
def followsSkip (number numberSkip numberSkipPrev : Nat) : Bool :=
  numberSkip == number ||
    (number < numberSkip && !(numberSkipPrev + 2 < numberSkip && number ≤ numberSkipPrev))

/-- The loop of `get_ancestor`, with fuel for one round per height it walks
down.  `number_skip_prev + 2` does not overflow: a skip height is below its
height. -/
def getAncestorLoop (getHeaderView : H256 → Option HeaderView) (number : Nat) :
    Nat → HeaderView → Nat → Except String (Option HeaderView)
  | 0, current, _ => pure (some current)
  | fuel + 1, current, numberWalk =>
    if number < numberWalk then do
      let numberSkip ← getSkipHeight numberWalk
      let numberSkipPrev ← getSkipHeight (numberWalk - 1)
      match current.skipHash.filter fun _ => followsSkip number numberSkip numberSkipPrev with
      | some hash =>
        match getHeaderView hash with
        | none => pure none
        | some view => getAncestorLoop getHeaderView number fuel view numberSkip
      | none =>
        match getHeaderView current.parentHash with
        | none => pure none
        | some view => getAncestorLoop getHeaderView number fuel view (numberWalk - 1)
    else pure (some current)

def getAncestor (view : HeaderView) (number : Nat) (getHeaderView : H256 → Option HeaderView) :
    Except String (Option Header) :=
  if view.number < number then pure none
  else (Option.map inner) <$>
    getAncestorLoop getHeaderView number (view.number - number + 1) view view.number

def buildSkip (view : HeaderView) (getHeaderView : H256 → Option HeaderView) :
    Except String HeaderView := do
  let skipHash ← match getHeaderView view.parentHash with
    | none => pure none
    | some parent => do
      let height ← getSkipHeight view.number
      let ancestor ← parent.getAncestor height getHeaderView
      pure (ancestor.map Header.hash)
  pure { view with skipHash }

end HeaderView

/-- `SyncSharedState::insert_header_view`: the view gets its skip pointer
from the views already known, and joins them under its hash. -/
def insertHeaderView (getHeaderView : H256 → Option HeaderView) (hash : H256)
    (view : HeaderView) : Except String (H256 → Option HeaderView) := do
  let view ← view.buildSkip getHeaderView
  pure (Function.update getHeaderView hash (some view))

/-! ### Walking parents -/

/-- The view reached from `view` by following parent hashes `steps` times. -/
def parentWalk (getHeaderView : H256 → Option HeaderView) : Nat → HeaderView → Option HeaderView
  | 0, view => some view
  | steps + 1, view => (getHeaderView view.parentHash).bind (parentWalk getHeaderView steps)

section Walk

variable {getHeaderView : H256 → Option HeaderView}

theorem parentWalk_add (first second : Nat) (view : HeaderView) :
    parentWalk getHeaderView (first + second) view =
      (parentWalk getHeaderView first view).bind (parentWalk getHeaderView second) := by
  induction first generalizing view with
  | zero => rw [Nat.zero_add]; rfl
  | succ first induction =>
      rw [Nat.succ_add, parentWalk, parentWalk, Option.bind_assoc]
      simp only [induction]

theorem parentWalk_parentHash_congr {first second : HeaderView}
    (same : first.parentHash = second.parentHash) {steps : Nat} (positive : 0 < steps) :
    parentWalk getHeaderView steps first = parentWalk getHeaderView steps second := by
  cases steps with
  | zero => cases positive
  | succ steps => rw [parentWalk, parentWalk, same]

/-- A walk through a map stays a walk through every map that extends it. -/
theorem parentWalk_extends {extended : H256 → Option HeaderView}
    (grows : KeyValue.Extends getHeaderView extended) :
    ∀ (steps : Nat) {view above : HeaderView}, parentWalk getHeaderView steps view = some above →
      parentWalk extended steps view = some above
  | 0, _, _, walk => walk
  | steps + 1, view, above, walk => by
      rw [parentWalk] at walk ⊢
      cases found : getHeaderView view.parentHash with
      | none =>
          rw [found] at walk
          cases walk
      | some parent =>
          rw [found, Option.bind_some] at walk
          rw [grows _ _ found, Option.bind_some]
          exact parentWalk_extends grows steps walk

end Walk

/-- A map of views where every view sits under its hash below height `2 ^ 63`,
a view above height zero has its parent one height lower, and its skip
pointer, if any, names the view its skip height lies at. -/
structure SkipTree (getHeaderView : H256 → Option HeaderView) : Prop where
  hash_eq : ∀ hash view, getHeaderView hash = some view → view.hash = hash
  below : ∀ hash view, getHeaderView hash = some view → view.number < 2 ^ 63
  parent : ∀ hash view, getHeaderView hash = some view → 0 < view.number →
    ∃ parent, getHeaderView view.parentHash = some parent ∧ parent.number + 1 = view.number
  skip_eq : ∀ hash view skip, getHeaderView hash = some view → 0 < view.number →
    view.skipHash = some skip →
      getHeaderView skip = parentWalk getHeaderView (view.number - skipHeight view.number) view

section Tree

variable {getHeaderView : H256 → Option HeaderView}

theorem SkipTree.empty : SkipTree fun _ => none := by
  constructor
  · intro hash view found
    cases found
  · intro hash view found
    cases found
  · intro hash view found
    cases found
  · intro hash view skip found
    cases found

theorem SkipTree.stored (tree : SkipTree getHeaderView) {hash : H256} {view : HeaderView}
    (found : getHeaderView hash = some view) : getHeaderView view.hash = some view := by
  rw [tree.hash_eq hash view found]
  exact found

/-- Walking down at most a view's height reaches a stored view that many
heights lower. -/
theorem SkipTree.parentWalk_spec (tree : SkipTree getHeaderView) :
    ∀ (steps : Nat) {view : HeaderView}, getHeaderView view.hash = some view →
      steps ≤ view.number → ∃ above, parentWalk getHeaderView steps view = some above ∧
        above.number + steps = view.number ∧ getHeaderView above.hash = some above
  | 0, view, stored, _ => ⟨view, rfl, rfl, stored⟩
  | steps + 1, view, stored, enough => by
      obtain ⟨parent, found, link⟩ := tree.parent _ _ stored (by omega)
      obtain ⟨above, walk, lower, aboveStored⟩ :=
        tree.parentWalk_spec steps (tree.stored found) (by omega)
      refine ⟨above, ?_, by omega, aboveStored⟩
      rw [parentWalk, found, Option.bind_some]
      exact walk

/-- From a stored view at a height above the target, the loop of
`get_ancestor` ends at the view the parent walk reaches. -/
theorem SkipTree.getAncestorLoop_eq (tree : SkipTree getHeaderView) {number : Nat} :
    ∀ (fuel : Nat) (current : HeaderView), getHeaderView current.hash = some current →
      number ≤ current.number → current.number - number < fuel →
        HeaderView.getAncestorLoop getHeaderView number fuel current current.number =
          .ok (parentWalk getHeaderView (current.number - number) current)
  | 0, _, _, _, short => absurd short (Nat.not_lt_zero _)
  | fuel + 1, current, stored, reaches, enough => by
      have below := tree.below _ _ stored
      rw [HeaderView.getAncestorLoop]
      by_cases higher : number < current.number
      · rw [if_pos higher, getSkipHeight_eq below, getSkipHeight_eq (by omega)]
        simp only [Except.ok_bind]
        cases follow : current.skipHash.filter
            (fun _ => HeaderView.followsSkip number (skipHeight current.number)
              (skipHeight (current.number - 1))) with
        | some skip =>
            -- the pointer lands on the ancestor at the skip height, at or above the target
            obtain ⟨pointer, taken⟩ := Option.filter_eq_some_iff.mp follow
            have landing : number ≤ skipHeight current.number := by
              simp only [HeaderView.followsSkip, Bool.or_eq_true, beq_iff_eq, Bool.and_eq_true,
                decide_eq_true_eq] at taken
              omega
            have lower := skipHeight_lt (show 0 < current.number by omega)
            obtain ⟨above, walk, aboveNumber, aboveStored⟩ :=
              tree.parentWalk_spec (current.number - skipHeight current.number) stored (by omega)
            simp only
            rw [tree.skip_eq _ _ _ stored (by omega) pointer, walk]
            simp only
            have atSkip : skipHeight current.number = above.number := by omega
            rw [atSkip, tree.getAncestorLoop_eq fuel above aboveStored (by omega) (by omega),
              show current.number - number =
                (current.number - above.number) + (above.number - number) by omega,
              parentWalk_add, ← atSkip, walk, Option.bind_some]
        | none =>
            obtain ⟨parent, found, link⟩ := tree.parent _ _ stored (by omega)
            simp only
            rw [found]
            simp only
            rw [show current.number - 1 = parent.number by omega,
              tree.getAncestorLoop_eq fuel parent (tree.stored found) (by omega) (by omega),
              show current.number - number = (parent.number - number) + 1 by omega, parentWalk,
              found, Option.bind_some]
      · rw [if_neg higher, show current.number - number = 0 by omega]
        rfl

theorem SkipTree.getAncestor_eq (tree : SkipTree getHeaderView) {view : HeaderView}
    (stored : getHeaderView view.hash = some view) (number : Nat) :
    view.getAncestor number getHeaderView =
      .ok (if number ≤ view.number then
        (parentWalk getHeaderView (view.number - number) view).map HeaderView.inner else none) := by
  unfold HeaderView.getAncestor
  by_cases reaches : number ≤ view.number
  · rw [if_neg (Nat.not_lt.mpr reaches), if_pos reaches,
      tree.getAncestorLoop_eq _ view stored reaches (by omega)]
    rfl
  · rw [if_pos (Nat.lt_of_not_le reaches), if_neg reaches]
    rfl

/-- In a `SkipTree`, `build_skip` of a view whose parent, if it has a height,
is stored one height lower, points it at a stored view that the parent walk
reaches at its skip height. -/
theorem SkipTree.buildSkip_eq (tree : SkipTree getHeaderView) {view : HeaderView}
    (below : view.number < 2 ^ 63)
    (linked : 0 < view.number →
      ∃ parent, getHeaderView view.parentHash = some parent ∧ parent.number + 1 = view.number) :
    ∃ skipHash, view.buildSkip getHeaderView = .ok { view with skipHash } ∧
      (0 < view.number → ∀ skip, skipHash = some skip →
        getHeaderView skip = parentWalk getHeaderView (view.number - skipHeight view.number) view) := by
  unfold HeaderView.buildSkip
  cases found : getHeaderView view.parentHash with
  | none =>
      refine ⟨none, rfl, ?_⟩
      intro _ skip pointer
      cases pointer
  | some parent =>
      simp only [getSkipHeight_eq below, tree.getAncestor_eq (tree.stored found), Except.ok_bind]
      by_cases positive : 0 < view.number
      · obtain ⟨known, knownFound, link⟩ := linked positive
        rw [found] at knownFound
        have same := Option.some.inj knownFound
        subst same
        have lower := skipHeight_lt positive
        obtain ⟨above, walk, aboveNumber, aboveStored⟩ :=
          tree.parentWalk_spec (parent.number - skipHeight view.number) (tree.stored found) (by omega)
        refine ⟨some above.hash, ?_, ?_⟩
        · rw [if_pos (by omega), walk]
          rfl
        · intro _ skip pointer
          cases pointer
          rw [aboveStored, show view.number - skipHeight view.number =
              (parent.number - skipHeight view.number) + 1 by omega, parentWalk, found,
            Option.bind_some, walk]
      · refine ⟨_, rfl, ?_⟩
        intro positive'
        exact absurd positive' positive

theorem SkipTree.insertHeaderView (tree : SkipTree getHeaderView) {view : HeaderView}
    (fresh : getHeaderView view.hash = none) (below : view.number < 2 ^ 63)
    (linked : 0 < view.number →
      ∃ parent, getHeaderView view.parentHash = some parent ∧ parent.number + 1 = view.number) :
    ∃ built, insertHeaderView getHeaderView view.hash view = .ok built ∧ SkipTree built := by
  obtain ⟨skipHash, built, pointsRight⟩ := tree.buildSkip_eq below linked
  refine ⟨_, by rw [Ckb.insertHeaderView, built]; rfl, ?_⟩
  have grows := KeyValue.extends_update_of_none fresh { view with skipHash }
  have cases : ∀ {hash stored}, Function.update getHeaderView view.hash
      (some { view with skipHash }) hash = some stored →
      (hash = view.hash ∧ stored = { view with skipHash }) ∨ getHeaderView hash = some stored := by
    intro hash stored found
    by_cases atView : hash = view.hash
    · subst atView
      rw [Function.update_self] at found
      exact Or.inl ⟨rfl, (Option.some.inj found).symm⟩
    · rw [Function.update_of_ne atView] at found
      exact Or.inr found
  constructor
  · intro hash stored found
    rcases cases found with ⟨rfl, rfl⟩ | old
    · rfl
    · exact tree.hash_eq hash stored old
  · intro hash stored found
    rcases cases found with ⟨rfl, rfl⟩ | old
    · exact below
    · exact tree.below hash stored old
  · intro hash stored found positive
    rcases cases found with ⟨rfl, rfl⟩ | old
    · obtain ⟨parent, parentFound, link⟩ := linked positive
      exact ⟨parent, grows _ _ parentFound, link⟩
    · obtain ⟨parent, parentFound, link⟩ := tree.parent hash stored old positive
      exact ⟨parent, grows _ _ parentFound, link⟩
  · intro hash stored skip found positive pointer
    rcases cases found with ⟨rfl, rfl⟩ | old
    · -- the new pointer, read through the larger map
      have positive : 0 < view.number := positive
      have lower := skipHeight_lt positive
      obtain ⟨parent, parentFound, link⟩ := linked positive
      obtain ⟨above, walk, _, _⟩ :=
        tree.parentWalk_spec (parent.number - skipHeight view.number) (tree.stored parentFound)
          (by omega)
      have reached : parentWalk getHeaderView (view.number - skipHeight view.number) view =
          some above := by
        rw [show view.number - skipHeight view.number =
            (parent.number - skipHeight view.number) + 1 by omega,
          parentWalk, parentFound, Option.bind_some]
        exact walk
      have target := pointsRight positive skip pointer
      rw [reached] at target
      show _ = parentWalk _ (view.number - skipHeight view.number) { view with skipHash }
      have sameParent : ({ view with skipHash } : HeaderView).parentHash = view.parentHash := rfl
      rw [grows _ _ target, parentWalk_parentHash_congr sameParent (by omega)]
      exact (parentWalk_extends grows _ reached).symm
    · -- an old pointer, unchanged
      obtain ⟨above, walk, _, _⟩ := tree.parentWalk_spec
        (stored.number - skipHeight stored.number) (tree.stored old) (Nat.sub_le _ _)
      have target := tree.skip_eq hash stored skip old positive pointer
      rw [walk] at target
      rw [grows _ _ target, parentWalk_extends grows _ walk]

end Tree

/-! ### Header trees built by insertion -/

/-- The maps of views that `insert_header_view` builds from the empty map:
each view inserted once, after its parent, one height above it, and below
height `2 ^ 63`. -/
inductive Built : (H256 → Option HeaderView) → Prop
  | empty : Built fun _ => none
  | insert {getHeaderView built : H256 → Option HeaderView} {view : HeaderView} :
      Built getHeaderView → getHeaderView view.hash = none → view.number < 2 ^ 63 →
      (0 < view.number →
        ∃ parent, getHeaderView view.parentHash = some parent ∧ parent.number + 1 = view.number) →
      insertHeaderView getHeaderView view.hash view = .ok built → Built built

theorem Built.skipTree {getHeaderView : H256 → Option HeaderView} (built : Built getHeaderView) :
    SkipTree getHeaderView := by
  induction built with
  | empty => exact SkipTree.empty
  | insert _ fresh below linked inserted tree =>
      obtain ⟨result, computed, resultTree⟩ := tree.insertHeaderView fresh below linked
      rw [inserted] at computed
      cases computed
      exact resultTree

/-- In a header tree built by `insert_header_view` below height `2 ^ 63`,
`get_ancestor` from a view returns, for a height at most the view's, the
header reached by walking that many parents down, and nothing above it; and
every skip height below `2 ^ 63` is lower than its height. -/
theorem Built.getAncestor_walks_parents {getHeaderView : H256 → Option HeaderView}
    (built : Built getHeaderView) {view : HeaderView}
    (stored : getHeaderView view.hash = some view) (number : Nat) :
    (number ≤ view.number → ∃ ancestor,
      parentWalk getHeaderView (view.number - number) view = some ancestor ∧
        ancestor.number = number ∧ view.getAncestor number getHeaderView = .ok (some ancestor.inner)) ∧
      (view.number < number → view.getAncestor number getHeaderView = .ok none) ∧
      ∀ height, 0 < height → height < 2 ^ 63 →
        ∃ skip, getSkipHeight height = .ok skip ∧ skip < height := by
  have tree := built.skipTree
  refine ⟨?_, ?_, ?_⟩
  · intro reaches
    obtain ⟨ancestor, walk, number', _⟩ :=
      tree.parentWalk_spec (view.number - number) stored (Nat.sub_le _ _)
    refine ⟨ancestor, walk, by omega, ?_⟩
    rw [tree.getAncestor_eq stored, if_pos reaches, walk]
    rfl
  · intro above
    rw [tree.getAncestor_eq stored, if_neg (Nat.not_le.mpr above)]
  · intro height positive below
    exact ⟨skipHeight height, getSkipHeight_eq below, skipHeight_lt positive⟩

/-- A genesis header and two headers above it. -/
def genesisView : HeaderView := ⟨⟨0, 0, 0, 0, ⟨0⟩, ⟨1⟩⟩, none⟩

def firstView : HeaderView := ⟨⟨1, 0, 0, 0, ⟨1⟩, ⟨2⟩⟩, none⟩

def secondView : HeaderView := ⟨⟨2, 0, 0, 0, ⟨2⟩, ⟨3⟩⟩, none⟩

def genesisMap : H256 → Option HeaderView :=
  Function.update (fun _ => none) ⟨1⟩ (some genesisView)

def firstMap : H256 → Option HeaderView :=
  Function.update genesisMap ⟨2⟩ (some { firstView with skipHash := some ⟨1⟩ })

def secondMap : H256 → Option HeaderView :=
  Function.update firstMap ⟨3⟩ (some { secondView with skipHash := some ⟨1⟩ })

theorem secondMap_built : Built secondMap := by
  have genesisBuilt : Built genesisMap :=
    @Built.insert _ _ genesisView .empty rfl (by decide)
      (fun positive => absurd positive (by decide)) rfl
  have firstBuilt : Built firstMap :=
    @Built.insert _ _ firstView genesisBuilt (by decide) (by decide)
      (fun _ => ⟨genesisView, by decide, rfl⟩) rfl
  exact @Built.insert _ _ secondView firstBuilt (by decide) (by decide)
    (fun _ => ⟨{ firstView with skipHash := some ⟨1⟩ }, by decide, rfl⟩) rfl

/-- From the second header, height zero is the genesis header, two parents down. -/
theorem secondView_ancestor_is_genesis :
    ∃ ancestor, parentWalk secondMap 2 { secondView with skipHash := some ⟨1⟩ } = some ancestor ∧
      ancestor.number = 0 ∧
      ({ secondView with skipHash := some ⟨1⟩ } : HeaderView).getAncestor 0 secondMap =
        .ok (some ancestor.inner) :=
  (@Built.getAncestor_walks_parents secondMap secondMap_built
    { secondView with skipHash := some ⟨1⟩ } (by decide) 0).1 (Nat.zero_le _)

end Ckb
