import Ckb.Store.ChainStore

/-!
# Header checks against the parent

`NumberVerifier` and `EpochVerifier` of `verification/src/header_verifier.rs`,
and the `HeaderResolverWrapper` of `verification/src/block_verifier.rs` that
gives `EpochVerifier` the epoch a header must carry: the epoch that follows
its parent, from the parent's block epoch in the store.
-/

namespace Ckb

inductive EpochError where
  | ancestorNotFound
  | numberMismatch (expected actual : Nat)
  | difficultyMismatch (expected actual : Nat)
  deriving DecidableEq, Repr

structure NumberError where
  expected : Nat
  actual : Nat
  deriving DecidableEq, Repr

def NumberVerifier.verify (parent header : Header) : Except NumberError Unit :=
  if header.number ≠ parent.number + 1 then .error ⟨parent.number + 1, header.number⟩
  else pure ()

theorem NumberVerifier.verify_eq_ok_iff {parent header : Header} :
    NumberVerifier.verify parent header = .ok () ↔ header.number = parent.number + 1 := by
  unfold NumberVerifier.verify
  by_cases above : header.number = parent.number + 1
  · rw [if_neg (not_not_intro above)]
    exact iff_of_true rfl above
  · rw [if_pos above]
    exact iff_of_false (fun failed => by cases failed) above

/-- `HeaderResolverWrapper`: a header with its stored parent and the epoch
that follows the parent. -/
structure HeaderResolverWrapper where
  header : Header
  parent : Option Header
  epoch : Option EpochExt

/-- `HeaderResolverWrapper::new`, which panics where `next_epoch_ext` does. -/
def HeaderResolverWrapper.new (consensus : Consensus) (store : ChainStore) (header : Header) :
    Except String HeaderResolverWrapper := do
  let parent := store.getBlockHeader header.parentHash
  let epoch ← match parent with
    | none => pure none
    | some parent =>
      match store.blockEpoch parent.hash with
      | none => pure none
      | some lastEpoch => do
        let nextEpoch ← store.nextEpochExt consensus lastEpoch parent
        pure (some (nextEpoch.getD lastEpoch))
  pure ⟨header, parent, epoch⟩

def EpochVerifier.verify (target : HeaderResolverWrapper) : Except EpochError Unit := do
  let epoch ← target.epoch.getDM (.error .ancestorNotFound)
  let actualEpochNumber := target.header.epoch
  if actualEpochNumber ≠ epoch.number then
    .error (.numberMismatch epoch.number actualEpochNumber)
  let actualDifficulty := target.header.difficulty
  if epoch.difficulty ≠ actualDifficulty then
    .error (.difficultyMismatch epoch.difficulty actualDifficulty)

section Lemmas

variable {consensus : Consensus} {store : ChainStore}

/-- The epoch the wrapper resolves for a header whose parent is stored with
its block epoch. -/
theorem HeaderResolverWrapper.new_epoch {header parent : Header} {lastEpoch : EpochExt}
    {nextEpoch : Option EpochExt}
    (parentStored : store.getBlockHeader header.parentHash = some parent)
    (parentEpoch : store.blockEpoch parent.hash = some lastEpoch)
    (nextComputed : store.nextEpochExt consensus lastEpoch parent = .ok nextEpoch) :
    HeaderResolverWrapper.new consensus store header =
      .ok ⟨header, some parent, some (nextEpoch.getD lastEpoch)⟩ := by
  simp [HeaderResolverWrapper.new, parentStored, parentEpoch, nextComputed]

theorem EpochVerifier.verify_eq_ok_iff {target : HeaderResolverWrapper} :
    EpochVerifier.verify target = .ok () ↔ ∃ epoch, target.epoch = some epoch ∧
      target.header.epoch = epoch.number ∧ epoch.difficulty = target.header.difficulty := by
  cases resolved : target.epoch with
  | none => simp [EpochVerifier.verify, resolved, Option.getDM]
  | some epoch =>
      by_cases sameNumber : target.header.epoch = epoch.number
      · by_cases sameDifficulty : epoch.difficulty = target.header.difficulty
        · simp [EpochVerifier.verify, resolved, Option.getDM, sameNumber, sameDifficulty]
        · simp [EpochVerifier.verify, resolved, Option.getDM, sameNumber, sameDifficulty]
      · simp [EpochVerifier.verify, resolved, Option.getDM, sameNumber]

end Lemmas

end Ckb
