import Ckb.Chain.Service

/-!
# What `find_fork` finds

`find_fork` walks down the new block's branch and the main chain until they
meet.  On a store whose number index is the main chain from the genesis to
the tip (`MainChain`), for a new block whose ancestors down to the genesis
are stored (`Branch`), the walk ends at the latest common ancestor: the
attached blocks are the branch above it in ascending order, the new block
last; the detached blocks are the main chain above it, up to the tip; and the
dirty exts are those of the run of unverified blocks just below the new block,
its own ext last (`findFork_exact`).

The two loops are described by their closed forms in the height the walk has
reached (`attachAbove_eq`, `findForkUntilLatestCommon_eq`); the dirty exts by
`DirtyShape`, which one call of `markDirty` and a push keeps.
-/

namespace Ckb

namespace ChainService

/-- The main chain of a store up to the tip's height: the block the number
index names at each height, stored under its hash at its height, each the
parent of the next. -/
structure MainChain (store : ChainStore) (tipNumber : Nat) (main : Nat → Block) : Prop where
  indexed : ∀ number ≤ tipNumber, store.blockHash number = some (main number).header.hash
  stored : ∀ number ≤ tipNumber, store.block (main number).header.hash = some (main number)
  linked : ∀ number, 0 < number → number ≤ tipNumber →
    (main number).header.parentHash = (main (number - 1)).header.hash

/-- The ancestry of a new block: the block at each height below it is stored
under its hash with its ext, and each is the parent of the next, the new
block on top. -/
structure Branch (store : ChainStore) (newTip : Block) (branch : Nat → Block) : Prop where
  top : branch newTip.header.number = newTip
  stored : ∀ number < newTip.header.number,
    store.block (branch number).header.hash = some (branch number)
  extStored : ∀ number < newTip.header.number, (store.blockExt (branch number).header.hash).isSome
  linked : ∀ number, 0 < number → number ≤ newTip.header.number →
    (branch number).header.parentHash = (branch (number - 1)).header.hash

/-- An ext `find_fork` collects: the stored ext of a block that was never verified. -/
def UnverifiedExt (store : ChainStore) (ext : BlockExt) (block : Block) : Prop :=
  store.blockExt block.header.hash = some ext ∧ ext.verified = none

/-- The dirty exts against the attached blocks: below the new tip a run of
unverified blocks whose exts were collected, the new tip's ext last; the walk
collects as long as nothing precedes the run, and what precedes it ends with a
verified block. -/
def DirtyShape (store : ChainStore) (newTip : Block) (newExt : BlockExt) (fork : ForkChanges)
    (unseen : Bool) : Prop :=
  ∃ older unverified exts, fork.attachedBlocks = older ++ unverified ++ [newTip] ∧
    List.Forall₂ (UnverifiedExt store) exts unverified ∧ fork.dirtyExts = exts ++ [newExt] ∧
    (unseen = true ↔ older = []) ∧
    ∀ block ∈ older.getLast?, ∃ ext, store.blockExt block.header.hash = some ext ∧
      ext.verified.isSome

section Walk

variable {store : ChainStore} {newTip : Block} {newExt : BlockExt}

theorem DirtyShape.start : DirtyShape store newTip newExt ⟨[newTip], [], [newExt]⟩ true :=
  ⟨[], [], [], rfl, .nil, rfl, iff_of_true rfl rfl, nofun⟩

theorem markDirty_eq {message : String} {hash : H256} {ext : BlockExt} (fork : ForkChanges)
    (stored : store.blockExt hash = some ext) (unseen : Bool) :
    markDirty store message hash unseen fork =
      .ok (if unseen then
        (if ext.verified.isNone then ({ fork with dirtyExts := ext :: fork.dirtyExts }, true)
          else (fork, false))
        else (fork, unseen)) := by
  cases unseen with
  | false => rfl
  | true =>
      simp only [markDirty, if_true, ChainStore.getBlockExt, stored, Option.getDM_some, pure_bind]
      split <;> rfl

/-- Pushing the block at the index below the attached blocks, after
`markDirty`, keeps the shape of the dirty exts. -/
theorem DirtyShape.push {fork : ForkChanges} {unseen : Bool} {block : Block} {ext : BlockExt}
    (shape : DirtyShape store newTip newExt fork unseen)
    (stored : store.blockExt block.header.hash = some ext) (message : String) :
    ∃ fork' unseen', markDirty store message block.header.hash unseen fork = .ok (fork', unseen') ∧
      fork'.attachedBlocks = fork.attachedBlocks ∧ fork'.detachedBlocks = fork.detachedBlocks ∧
      DirtyShape store newTip newExt { fork' with attachedBlocks := block :: fork'.attachedBlocks }
        unseen' := by
  obtain ⟨older, unverified, exts, attached, collected, dirty, fresh, boundary⟩ := shape
  rw [markDirty_eq fork stored]
  cases unseen with
  | false =>
      -- the walk has stopped collecting: the block joins the older blocks
      have nonempty : older ≠ [] := fun empty => Bool.false_ne_true (fresh.mpr empty)
      refine ⟨fork, false, rfl, rfl, rfl, block :: older, unverified, exts, ?_, collected, dirty,
        ?_, ?_⟩
      · rw [attached]
        rfl
      · exact iff_of_false Bool.false_ne_true (List.cons_ne_nil block older)
      · obtain ⟨last, rest, split⟩ := List.exists_cons_of_ne_nil nonempty
        rw [split, List.getLast?_cons_cons, ← split]
        exact boundary
  | true =>
      have empty := fresh.mp rfl
      subst empty
      by_cases unverifiedExt : ext.verified = none
      · -- the block's ext is collected and the run grows
        have isNone : ext.verified.isNone = true := Option.isNone_iff_eq_none.mpr unverifiedExt
        refine ⟨{ fork with dirtyExts := ext :: fork.dirtyExts }, true, by simp [isNone], rfl, rfl,
          [], block :: unverified, ext :: exts, ?_, .cons ⟨stored, unverifiedExt⟩ collected, ?_,
          iff_of_true rfl rfl, nofun⟩
        · simp [attached]
        · simp [dirty]
      · -- the first verified block: the walk stops collecting
        have isNone : ext.verified.isNone = false :=
          Bool.eq_false_iff.mpr fun none => unverifiedExt (Option.isNone_iff_eq_none.mp none)
        refine ⟨fork, false, by simp [isNone], rfl, rfl, [block], unverified, exts, ?_, collected,
          dirty, iff_of_false Bool.false_ne_true (List.cons_ne_nil block []), ?_⟩
        · simp [attached]
        · intro last member
          rw [List.getLast?_singleton, Option.mem_some_iff] at member
          subst member
          exact ⟨ext, stored, Option.ne_none_iff_isSome.mp unverifiedExt⟩

theorem DirtyShape.aligned {fork : ForkChanges} {unseen : Bool}
    (shape : DirtyShape store newTip newExt fork unseen) :
    fork.dirtyExts.length ≤ fork.attachedBlocks.length ∧
      List.Forall₂ (fun ext block => UnverifiedExt store ext block ∨ ext = newExt ∧ block = newTip)
        fork.dirtyExts (fork.attachedBlocks.drop (fork.attachedBlocks.length - fork.dirtyExts.length)) := by
  obtain ⟨older, unverified, exts, attached, collected, dirty, -, -⟩ := shape
  have sameLength := collected.length_eq
  have skipped : fork.attachedBlocks.length - fork.dirtyExts.length = older.length := by
    simp only [attached, dirty, List.length_append, List.length_singleton]
    omega
  refine ⟨by simp only [attached, dirty, List.length_append, List.length_singleton]; omega, ?_⟩
  rw [skipped, attached, List.append_assoc, List.drop_left' rfl, dirty]
  exact List.rel_append (collected.imp fun _ _ => Or.inl) (.cons (.inr ⟨rfl, rfl⟩) .nil)

end Walk

/-- Where the walk down both chains from `number` stops: the highest height
at most `number` with one block on both, or the genesis. -/
structure LatestCommon (main branch : Nat → Block) (number common : Nat) : Prop where
  le : common ≤ number
  meets : common = 0 ∨ main common = branch common
  apart : ∀ height, common < height → height ≤ number → main height ≠ branch height

theorem LatestCommon.here {main branch : Nat → Block} {number : Nat}
    (meets : number = 0 ∨ main number = branch number) : LatestCommon main branch number number :=
  ⟨le_rfl, meets, fun _ above below => absurd below (Nat.not_le_of_lt above)⟩

theorem LatestCommon.succ {main branch : Nat → Block} {number common : Nat}
    (common' : LatestCommon main branch number common) (differs : main (number + 1) ≠ branch (number + 1)) :
    LatestCommon main branch (number + 1) common := by
  refine ⟨Nat.le_succ_of_le common'.le, common'.meets, ?_⟩
  intro height above below
  rcases Nat.lt_or_ge height (number + 1) with lower | top
  · exact common'.apart height above (Nat.le_of_lt_succ lower)
  · rw [Nat.le_antisymm below top]
    exact differs

section Closed

variable {store : ChainStore} {tipNumber : Nat} {main branch : Nat → Block} {newTip : Block}
  {newExt : BlockExt}

theorem map_range'_cons {α : Type} (f : Nat → α) {number top : Nat} (below : number < top) :
    f (number + 1) :: (List.range' (number + 1 + 1) (top - (number + 1))).map f =
      (List.range' (number + 1) (top - number)).map f := by
  have count : top - number = top - (number + 1) + 1 := by omega
  rw [count, List.range'_succ, List.map_cons]

theorem map_range'_append_cons {α : Type} (f : Nat → α) {common number : Nat}
    (le : common ≤ number) (rest : List α) :
    (List.range' (common + 1) (number - common)).map f ++ f (number + 1) :: rest =
      (List.range' (common + 1) (number + 1 - common)).map f ++ rest := by
  have count : number + 1 - common = number - common + 1 := by omega
  have last : common + 1 + (number - common) = number + 1 := by omega
  rw [count, List.range'_1_concat, List.map_append, List.append_assoc, last]
  rfl

theorem Branch.parentHash_eq (ancestry : Branch store newTip branch) {number : Nat}
    (below : number < newTip.header.number) :
    (branch (number + 1)).header.parentHash = (branch number).header.hash :=
  ancestry.linked (number + 1) (Nat.succ_pos number) below

/-- One round of either walk at the branch's block at `number + 1`: its
ext is looked at, and the block joins the attached blocks above it. -/
theorem Branch.push (ancestry : Branch store newTip branch) {number : Nat} {unseen : Bool}
    {fork : ForkChanges} (below : number + 1 < newTip.header.number)
    (shape : DirtyShape store newTip newExt fork unseen)
    (attached : fork.attachedBlocks =
      (List.range' (number + 1 + 1) (newTip.header.number - (number + 1))).map branch)
    (message : String) :
    ∃ marked unseen', markDirty store message (branch (number + 1)).header.hash unseen fork =
        .ok (marked, unseen') ∧ marked.detachedBlocks = fork.detachedBlocks ∧
      DirtyShape store newTip newExt
        { marked with attachedBlocks := branch (number + 1) :: marked.attachedBlocks } unseen' ∧
      branch (number + 1) :: marked.attachedBlocks =
        (List.range' (number + 1) (newTip.header.number - number)).map branch := by
  obtain ⟨ext, extStored⟩ := Option.isSome_iff_exists.mp (ancestry.extStored _ below)
  obtain ⟨marked, unseen', dirty, sameAttached, sameDetached, shape'⟩ :=
    shape.push extStored message
  refine ⟨marked, unseen', dirty, sameDetached, shape', ?_⟩
  rw [sameAttached, attached, map_range'_cons branch (Nat.lt_of_succ_lt below)]

theorem MainChain.eq_of_hash_eq (chain : MainChain store tipNumber main)
    (ancestry : Branch store newTip branch) {number : Nat} (onMain : number ≤ tipNumber)
    (below : number < newTip.header.number)
    (same : (main number).header.hash = (branch number).header.hash) : main number = branch number := by
  have mainStored := chain.stored number onMain
  rw [same, ancestry.stored number below] at mainStored
  exact (Option.some.inj mainStored).symm

theorem MainChain.eq_below (chain : MainChain store tipNumber main)
    (ancestry : Branch store newTip branch) {common : Nat} (onMain : common ≤ tipNumber)
    (below : common < newTip.header.number) (meets : main common = branch common) :
    ∀ number ≤ common, main number = branch number := by
  -- induction on the distance below `common`
  have down : ∀ gap ≤ common, main (common - gap) = branch (common - gap) := by
    intro gap
    induction gap with
    | zero =>
        intro _
        exact meets
    | succ gap induction =>
        intro within
        have upper := induction (Nat.le_of_succ_le within)
        have positive : 0 < common - gap := by omega
        have lower : common - (gap + 1) = common - gap - 1 := by omega
        have parents : (main (common - (gap + 1))).header.hash =
            (branch (common - (gap + 1))).header.hash := by
          rw [lower, ← chain.linked _ positive (by omega), ← ancestry.linked _ positive (by omega),
            upper]
        exact chain.eq_of_hash_eq ancestry (by omega) (by omega) parents
  intro number within
  have bottom := down (common - number) (Nat.sub_le _ _)
  rwa [Nat.sub_sub_self within] at bottom

theorem detachHeights_eq (chain : MainChain store tipNumber main) :
    ∀ {numbers : List Nat} (fork : ForkChanges), (∀ number ∈ numbers, number ≤ tipNumber) →
      detachHeights store fork numbers =
        .ok { fork with detachedBlocks := (numbers.map main).reverse ++ fork.detachedBlocks }
  | [], fork, _ => rfl
  | number :: numbers, fork, below => by
      rw [List.forall_mem_cons] at below
      simp only [detachHeights, chain.indexed number below.1, chain.stored number below.1,
        Option.getDM_some, pure_bind, detachHeights_eq chain _ below.2]
      simp

/-- The walk above the tip's height: from `number` down to the tip's height,
each block of the branch is pushed below the attached blocks, and the index
ends at the branch's block at the tip's height. -/
theorem attachAbove_eq (ancestry : Branch store newTip branch) :
    ∀ {number : Nat} {unseen : Bool} {fork : ForkChanges}, tipNumber ≤ number →
      number < newTip.header.number → DirtyShape store newTip newExt fork unseen →
      fork.attachedBlocks = (List.range' (number + 1) (newTip.header.number - number)).map branch →
      ∃ fork' unseen', attachAbove store tipNumber number (branch number).header.hash unseen fork =
          .ok (fork', ⟨tipNumber, (branch tipNumber).header.hash, unseen'⟩) ∧
        fork'.attachedBlocks =
          (List.range' (tipNumber + 1) (newTip.header.number - tipNumber)).map branch ∧
        fork'.detachedBlocks = fork.detachedBlocks ∧ DirtyShape store newTip newExt fork' unseen'
  | 0, unseen, fork, above, _, shape, attached => by
      have zero : tipNumber = 0 := Nat.le_zero.mp above
      subst zero
      exact ⟨fork, unseen, rfl, attached, rfl, shape⟩
  | number + 1, unseen, fork, above, below, shape, attached => by
      rcases Nat.lt_or_ge tipNumber (number + 1) with higher | reached
      · -- a block above the tip's height: its ext is looked at, then it is attached
        obtain ⟨marked, unseen', dirty, sameDetached, shape', pushed⟩ :=
          ancestry.push below shape attached "block ext stored before alignment_fork"
        obtain ⟨result, unseen'', run, resultAttached, resultDetached, resultShape⟩ :=
          attachAbove_eq ancestry (Nat.le_of_lt_succ higher) (Nat.lt_of_succ_lt below) shape' pushed
        refine ⟨result, unseen'', ?_, resultAttached, resultDetached.trans sameDetached, resultShape⟩
        simp only [attachAbove, if_pos higher, dirty, ancestry.stored _ below, Option.getDM_some,
          pure_bind, Except.ok_bind, ancestry.parentHash_eq (Nat.lt_of_succ_lt below)]
        exact run
      · -- the walk has come down to the tip's height
        have top : tipNumber = number + 1 := Nat.le_antisymm above reached
        subst top
        refine ⟨fork, unseen, ?_, attached, rfl, shape⟩
        simp only [attachAbove, gt_iff_lt, lt_self_iff_false, if_false]
        rfl

/-- The walk down both chains from `number`: it stops at their latest common
height, pushing the branch's blocks above it below the attached blocks and the
main chain's below the detached ones. -/
theorem findForkUntilLatestCommon_eq (chain : MainChain store tipNumber main)
    (ancestry : Branch store newTip branch) :
    ∀ {number : Nat} {unseen : Bool} {fork : ForkChanges}, number ≤ tipNumber →
      number < newTip.header.number → DirtyShape store newTip newExt fork unseen →
      fork.attachedBlocks = (List.range' (number + 1) (newTip.header.number - number)).map branch →
      ∃ common, LatestCommon main branch number common ∧ ∃ fork' unseen',
        findForkUntilLatestCommon store number (branch number).header.hash unseen fork = .ok fork' ∧
        fork'.attachedBlocks =
          (List.range' (common + 1) (newTip.header.number - common)).map branch ∧
        fork'.detachedBlocks =
          (List.range' (common + 1) (number - common)).map main ++ fork.detachedBlocks ∧
        DirtyShape store newTip newExt fork' unseen'
  | 0, unseen, fork, _, _, shape, attached =>
      ⟨0, .here (.inl rfl), fork, unseen, rfl, attached, rfl, shape⟩
  | number + 1, unseen, fork, onMain, below, shape, attached => by
      by_cases same : (main (number + 1)).header.hash = (branch (number + 1)).header.hash
      · -- the chains meet here
        refine ⟨number + 1, .here (.inr (chain.eq_of_hash_eq ancestry onMain below same)), fork,
          unseen, ?_, attached, by simp, shape⟩
        simp only [findForkUntilLatestCommon, chain.indexed _ onMain, Option.getDM_some,
          pure_bind, same, if_true]
        rfl
      · -- the main chain's block is detached, the branch's attached
        obtain ⟨marked, unseen', dirty, sameDetached, shape', pushed⟩ :=
          ancestry.push below
            (show DirtyShape store newTip newExt
              { fork with detachedBlocks := main (number + 1) :: fork.detachedBlocks } unseen
            from shape) attached "block ext stored before find_fork_until_latest_common"
        obtain ⟨common, latest, result, unseen'', run, resultAttached, resultDetached,
          resultShape⟩ :=
          findForkUntilLatestCommon_eq chain ancestry (Nat.le_of_succ_le onMain)
            (Nat.lt_of_succ_lt below) shape' pushed
        refine ⟨common, latest.succ fun equal => same (congrArg (·.header.hash) equal), result,
          unseen'', ?_, resultAttached, ?_, resultShape⟩
        · simp only [findForkUntilLatestCommon, chain.indexed _ onMain, chain.stored _ onMain,
            ancestry.stored _ below, Option.getDM_some, pure_bind, same, if_false, dirty,
            Except.ok_bind, ancestry.parentHash_eq (Nat.lt_of_succ_lt below)]
          exact run
        · rw [resultDetached, sameDetached, map_range'_append_cons main latest.le]

theorem start_attached {newTip : Block} (positive : 0 < newTip.header.number) {branch : Nat → Block}
    (top : branch newTip.header.number = newTip) :
    [newTip] = (List.range' (newTip.header.number - 1 + 1)
      (newTip.header.number - (newTip.header.number - 1))).map branch := by
  have count : newTip.header.number - (newTip.header.number - 1) = 1 := by omega
  rw [count, Nat.sub_add_cancel positive, List.range'_one, List.map_singleton, top]

/-- `alignment_fork` brings the walk to the lower of the two heights: below
a new tip at most as high as the tip, the main chain from the new tip's height
up is detached; above it, the branch down to the tip's height is attached. -/
theorem alignmentFork_eq (chain : MainChain store tipNumber main)
    (ancestry : Branch store newTip branch) (positive : 0 < newTip.header.number) :
    ∃ fork number unseen, alignmentFork store ⟨[newTip], [], [newExt]⟩
        ⟨newTip.header.number - 1, (branch (newTip.header.number - 1)).header.hash, true⟩
        newTip.header.number tipNumber = .ok (fork, ⟨number, (branch number).header.hash, unseen⟩) ∧
      number = min tipNumber (newTip.header.number - 1) ∧
      fork.attachedBlocks = (List.range' (number + 1) (newTip.header.number - number)).map branch ∧
      fork.detachedBlocks.Perm ((List.range' (number + 1) (tipNumber - number)).map main) ∧
      DirtyShape store newTip newExt fork unseen := by
  have attached := start_attached positive ancestry.top
  unfold alignmentFork
  split
  · next lower =>
      have heights : ∀ number ∈ List.range' newTip.header.number
          (tipNumber + 1 - newTip.header.number), number ≤ tipNumber := by
        intro number member
        rw [List.mem_range'_1] at member
        omega
      refine ⟨⟨[newTip], ((List.range' newTip.header.number
          (tipNumber + 1 - newTip.header.number)).map main).reverse ++ [], [newExt]⟩,
        newTip.header.number - 1, true, ?_, by omega, attached, ?_, DirtyShape.start⟩
      · rw [detachHeights_eq chain _ heights]
        rfl
      · have first : newTip.header.number - 1 + 1 = newTip.header.number := by omega
        have count : tipNumber - (newTip.header.number - 1) =
            tipNumber + 1 - newTip.header.number := by omega
        rw [first, count, List.append_nil]
        exact List.reverse_perm _
  · next higher =>
      have above : tipNumber ≤ newTip.header.number - 1 := by omega
      have last : newTip.header.number - 1 < newTip.header.number := by omega
      obtain ⟨fork, unseen, run, attached', detached, shape⟩ :=
        attachAbove_eq ancestry above last DirtyShape.start attached
      refine ⟨fork, tipNumber, unseen, run, by omega, attached', ?_, shape⟩
      rw [detached, Nat.sub_self, List.range'_zero, List.map_nil]

end Closed

/-- `find_fork` ends at the latest common ancestor below the new tip: the
branch above it is attached, the main chain above it detached. -/
theorem findFork_latestCommon {store : ChainStore} {tipNumber : Nat} {main branch : Nat → Block}
    {newTip : Block} {newExt : BlockExt} (chain : MainChain store tipNumber main)
    (ancestry : Branch store newTip branch) (genesis : branch 0 = main 0)
    (positive : 0 < newTip.header.number) :
    ∃ fork common, findFork store tipNumber newTip newExt = .ok fork ∧
      common ≤ tipNumber ∧ common < newTip.header.number ∧ main common = branch common ∧
      (∀ height, common < height → height ≤ tipNumber → height < newTip.header.number →
        main height ≠ branch height) ∧
      fork.attachedBlocks = (List.range' (common + 1) (newTip.header.number - common)).map branch ∧
      fork.detachedBlocks.Perm ((List.range' (common + 1) (tipNumber - common)).map main) ∧
      ∃ unseen, DirtyShape store newTip newExt fork unseen := by
  have parent : newTip.header.parentHash = (branch (newTip.header.number - 1)).header.hash := by
    have linked := ancestry.linked _ positive le_rfl
    rwa [ancestry.top] at linked
  obtain ⟨aligned, number, unseen, alignment, atMin, alignedAttached, alignedDetached,
    alignedShape⟩ := @alignmentFork_eq store tipNumber main branch newTip newExt chain ancestry positive
  have onMain : number ≤ tipNumber := atMin ▸ min_le_left _ _
  have below : number < newTip.header.number := by omega
  obtain ⟨common, latest, fork, unseen', run, attached, detached, shape⟩ :=
    findForkUntilLatestCommon_eq chain ancestry onMain below alignedShape alignedAttached
  have meets : main common = branch common := by
    rcases latest.meets with zero | equal
    · rw [zero, genesis]
    · exact equal
  refine ⟨fork, common, ?_, latest.le.trans onMain, lt_of_le_of_lt latest.le below, meets, ?_,
    attached, ?_, unseen', shape⟩
  · simp only [findFork, if_neg (Nat.pos_iff_ne_zero.mp positive), parent, alignment,
      Except.ok_bind]
    exact run
  · intro height above onMain' below'
    exact latest.apart height above (by omega)
  · -- the walk's detached blocks lie below those of the alignment
    have walked := latest.le
    have split : (List.range' (common + 1) (tipNumber - common)).map main =
        (List.range' (common + 1) (number - common)).map main ++
          (List.range' (number + 1) (tipNumber - number)).map main := by
      have start : common + 1 + 1 * (number - common) = number + 1 := by omega
      have count : tipNumber - common = number - common + (tipNumber - number) := by omega
      rw [← List.map_append, ← start, List.range'_append, count]
    rw [detached, split]
    exact alignedDetached.append_left _

theorem findFork_exact {store : ChainStore} {tipNumber : Nat} {main branch : Nat → Block}
    {newTip : Block} {newExt : BlockExt} (chain : MainChain store tipNumber main)
    (ancestry : Branch store newTip branch) (genesis : branch 0 = main 0)
    (positive : 0 < newTip.header.number) :
    ∃ fork common, findFork store tipNumber newTip newExt = .ok fork ∧
      common ≤ tipNumber ∧ common < newTip.header.number ∧ main common = branch common ∧
      (∀ height, common < height → height ≤ tipNumber → height < newTip.header.number →
        main height ≠ branch height) ∧
      fork.attachedBlocks = (List.range' (common + 1) (newTip.header.number - common)).map branch ∧
      fork.detachedBlocks.Perm ((List.range' (common + 1) (tipNumber - common)).map main) ∧
      (∃ unseen, DirtyShape store newTip newExt fork unseen) ∧
      fork.dirtyExts.length ≤ fork.attachedBlocks.length ∧
      List.Forall₂ (fun ext block => UnverifiedExt store ext block ∨ ext = newExt ∧ block = newTip)
        fork.dirtyExts (fork.attachedBlocks.drop (fork.attachedBlocks.length - fork.dirtyExts.length)) := by
  obtain ⟨fork, common, found, onMain, below, meets, apart, attached, detached, unseen, shape⟩ :=
    @findFork_latestCommon store tipNumber main branch newTip newExt chain ancestry genesis positive
  exact ⟨fork, common, found, onMain, below, meets, apart, attached, detached, ⟨unseen, shape⟩,
    shape.aligned⟩

section Samples

/-- A block of the samples' tree, with the number, hash and parent hash given. -/
def treeBlock (number hash parent : Nat) : Block := ⟨⟨number, 0, 0, 1, ⟨parent⟩, ⟨hash⟩⟩, [], [], []⟩

/-- The main chain: the genesis of hash 1, then blocks of hashes 11 and 12. -/
def treeMain (number : Nat) : Block :=
  [treeBlock 0 1 0, treeBlock 1 11 1, treeBlock 2 12 11].getD number (treeBlock 0 1 0)

/-- A branch off the main chain's first block, of hashes 22 and 23. -/
def treeBranch (number : Nat) : Block :=
  [treeBlock 0 1 0, treeBlock 1 11 1, treeBlock 2 22 11, treeBlock 3 23 22].getD number
    (treeBlock 0 1 0)

/-- The store before the branch's tip is switched to: the main chain verified,
the branch's second block stored but never verified. -/
def treeStore : ChainStore where
  block hash := ([0, 1, 2].map treeMain ++ [treeBranch 2]).find? (·.header.hash == hash)
  blockExt hash :=
    if hash = ⟨22⟩ then some ⟨3, 0, none, [], ⟨0, 0⟩⟩
    else if hash ∈ [⟨1⟩, ⟨11⟩, ⟨12⟩] then some ⟨hash.value, 0, some true, [], ⟨0, 0⟩⟩ else none
  blockEpoch _ := none
  blockHash number := ([0, 1, 2].map fun height => (treeMain height).header.hash)[number]?
  blockNumber _ := none
  currentEpochExt := none

theorem treeStore_mainChain : MainChain treeStore 2 treeMain := by
  refine ⟨by decide, by decide, ?_⟩
  intro number positive below
  interval_cases number <;> rfl

theorem treeStore_branch : Branch treeStore (treeBranch 3) treeBranch := by
  refine ⟨rfl, by decide, by decide, ?_⟩
  intro number positive below
  have bounded : number ≤ 3 := below
  interval_cases number <;> rfl

end Samples

/-- Switching to the branch's tip at height 3 from the tip at height 2: the
walk meets the main chain at height 1, attaches the branch above it, detaches
the main chain's second block, and collects the unverified block's ext. -/
theorem treeBranch_fork_above_first :
    ∃ fork common, findFork treeStore 2 (treeBranch 3) ⟨4, 0, none, [], ⟨0, 0⟩⟩ = .ok fork ∧
      common ≤ 2 ∧ common < (treeBranch 3).header.number ∧ treeMain common = treeBranch common ∧
      (∀ height, common < height → height ≤ 2 → height < (treeBranch 3).header.number →
        treeMain height ≠ treeBranch height) ∧
      fork.attachedBlocks =
        (List.range' (common + 1) ((treeBranch 3).header.number - common)).map treeBranch ∧
      fork.detachedBlocks.Perm ((List.range' (common + 1) (2 - common)).map treeMain) ∧
      (∃ unseen, DirtyShape treeStore (treeBranch 3) ⟨4, 0, none, [], ⟨0, 0⟩⟩ fork unseen) ∧
      fork.dirtyExts.length ≤ fork.attachedBlocks.length ∧
      List.Forall₂ (fun ext block => UnverifiedExt treeStore ext block ∨
          ext = ⟨4, 0, none, [], ⟨0, 0⟩⟩ ∧ block = treeBranch 3)
        fork.dirtyExts (fork.attachedBlocks.drop (fork.attachedBlocks.length - fork.dirtyExts.length)) :=
  findFork_exact treeStore_mainChain treeStore_branch rfl (by decide)

end ChainService

end Ckb
