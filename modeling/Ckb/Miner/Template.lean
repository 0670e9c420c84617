import Ckb.Verification.HeaderVerifier

/-!
# The header of a block template

The header fields of `BlockAssembler::get_block_template`
(`miner/src/block_assembler.rs`) and the header that `Client::notify_new_work`
(`miner/src/client.rs`) builds from them.  The template takes its epoch from
the store's current epoch ext, where `HeaderResolverWrapper` takes the epoch
from the tip's block epoch; `EpochVerifier` accepts the template exactly when
the two agree, and in particular whenever the current epoch ext is the tip's
block epoch.
-/

namespace Ckb

/-- The header fields of a `BlockTemplate`. -/
structure BlockTemplate where
  difficulty : Nat
  currentTime : Nat
  number : Nat
  epoch : Nat
  parentHash : H256
  deriving DecidableEq, Repr

namespace BlockAssembler

/-- The header part of `get_block_template` at the time `now`, after a miss
of the template cache: the epoch that follows the current epoch ext at the
tip. -/
def getBlockTemplate (consensus : Consensus) (store : ChainStore) (tip : Header) (now : Nat) :
    Except String BlockTemplate := do
  let lastEpoch ← store.currentEpochExt.getDM (.error "current epoch ext")
  let nextEpochExt ← store.nextEpochExt consensus lastEpoch tip
  let currentEpoch := nextEpochExt.getD lastEpoch
  pure ⟨currentEpoch.difficulty, max now (tip.timestamp + 1), tip.number + 1, currentEpoch.number,
    tip.hash⟩

end BlockAssembler

/-- The header `notify_new_work` builds from a template, once the block is
sealed under the hash `hash`. -/
def BlockTemplate.header (template : BlockTemplate) (hash : H256) : Header :=
  ⟨template.number, template.epoch, template.currentTime, template.difficulty,
    template.parentHash, hash⟩

namespace BlockAssembler

section Lemmas

variable {consensus : Consensus} {store : ChainStore} {tip : Header} {now : Nat}
  {template : BlockTemplate}

theorem getBlockTemplate_eq_ok (built : getBlockTemplate consensus store tip now = .ok template) :
    ∃ lastEpoch nextEpoch, store.currentEpochExt = some lastEpoch ∧
      store.nextEpochExt consensus lastEpoch tip = .ok nextEpoch ∧
      template = ⟨(nextEpoch.getD lastEpoch).difficulty, max now (tip.timestamp + 1),
        tip.number + 1, (nextEpoch.getD lastEpoch).number, tip.hash⟩ := by
  simp only [getBlockTemplate, Except.bind_eq_ok, Except.getDM_error_eq_ok,
    Except.pure_eq_ok] at built
  obtain ⟨lastEpoch, current, nextEpoch, computed, rfl⟩ := built
  exact ⟨lastEpoch, nextEpoch, current, computed, rfl⟩

/-- What `EpochVerifier` says of a template's block: it resolves the epoch
that follows the tip's block epoch, and the template carries the one that
follows the current epoch ext. -/
theorem template_epochVerifier {tipEpoch : EpochExt} {tipNext : Option EpochExt}
    (built : getBlockTemplate consensus store tip now = .ok template)
    (tipStored : store.getBlockHeader tip.hash = some tip)
    (tipEpochStored : store.blockEpoch tip.hash = some tipEpoch)
    (tipNextComputed : store.nextEpochExt consensus tipEpoch tip = .ok tipNext) (hash : H256) :
    ∃ lastEpoch nextEpoch, store.currentEpochExt = some lastEpoch ∧
      store.nextEpochExt consensus lastEpoch tip = .ok nextEpoch ∧
      HeaderResolverWrapper.new consensus store (template.header hash) =
        .ok ⟨template.header hash, some tip, some (tipNext.getD tipEpoch)⟩ ∧
      (EpochVerifier.verify ⟨template.header hash, some tip, some (tipNext.getD tipEpoch)⟩ =
        .ok () ↔
      (nextEpoch.getD lastEpoch).number = (tipNext.getD tipEpoch).number ∧
        (tipNext.getD tipEpoch).difficulty = (nextEpoch.getD lastEpoch).difficulty) := by
  obtain ⟨lastEpoch, nextEpoch, current, computed, shape⟩ := getBlockTemplate_eq_ok built
  have onTip : store.getBlockHeader (template.header hash).parentHash = some tip := by
    rw [shape]
    exact tipStored
  refine ⟨lastEpoch, nextEpoch, current, computed,
    HeaderResolverWrapper.new_epoch onTip tipEpochStored tipNextComputed, ?_⟩
  rw [EpochVerifier.verify_eq_ok_iff]
  subst shape
  constructor
  · rintro ⟨epoch, same, sameNumber, sameDifficulty⟩
    rw [Option.some.injEq] at same
    subst same
    exact ⟨sameNumber, sameDifficulty⟩
  · rintro ⟨sameNumber, sameDifficulty⟩
    exact ⟨_, rfl, sameNumber, sameDifficulty⟩

theorem template_epoch_ok (built : getBlockTemplate consensus store tip now = .ok template)
    (tipStored : store.getBlockHeader tip.hash = some tip)
    (current : store.currentEpochExt = store.blockEpoch tip.hash) (hash : H256) :
    ∃ resolver, HeaderResolverWrapper.new consensus store (template.header hash) = .ok resolver ∧
      EpochVerifier.verify resolver = .ok () := by
  obtain ⟨lastEpoch, nextEpoch, stored, computed, -⟩ := getBlockTemplate_eq_ok built
  obtain ⟨lastEpoch', nextEpoch', stored', computed', resolved, agrees⟩ :=
    template_epochVerifier built tipStored (current.symm.trans stored) computed hash
  rw [stored, Option.some.injEq] at stored'
  subst stored'
  rw [computed, Except.ok.injEq] at computed'
  subst computed'
  exact ⟨_, resolved, agrees.mpr ⟨rfl, rfl⟩⟩

end Lemmas

end BlockAssembler

end Ckb
