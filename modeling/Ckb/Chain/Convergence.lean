import Ckb.Chain.ForkChoice

/-!
# Runs that accept every block

A run of `process_block` in which `insert_block` accepts every block.  Each
block is stored with its parent's total difficulty plus its own, and no
insertion changes a total difficulty already stored; so two runs that accept
the same new blocks, in any two orders, leave the same total difficulties.
The tip is the best of them in both (`TipIsBest`), so both runs end at the
same tip.  Where the order of arrival changes the tip, one of the runs
rejected a block.
-/

namespace Ckb

namespace ChainService

/-- A run of `process_block` in which `insert_block` accepts every block. -/
inductive AcceptedRun (consensus : Consensus) (checks : BlockChecks) (needVerify : Bool) :
    ChainService → List Block → ChainService → Prop where
  | nil (service : ChainService) : AcceptedRun consensus checks needVerify service [] service
  | cons {service inserted service' : ChainService} {block : Block} {blocks : List Block} :
      insertBlock consensus checks service block needVerify = .ok inserted →
      AcceptedRun consensus checks needVerify inserted blocks service' →
      AcceptedRun consensus checks needVerify service (block :: blocks) service'

section Accepted

variable {consensus : Consensus} {checks : BlockChecks} {needVerify : Bool}
  {service service' : ChainService} {blocks : List Block}

theorem AcceptedRun.processBlocks_eq
    (run : AcceptedRun consensus checks needVerify service blocks service') :
    processBlocks consensus checks needVerify service blocks = .ok service' := by
  induction run with
  | nil service => rfl
  | cons inserted _ induction =>
      simp only [processBlocks, inserted]
      exact induction

theorem NewBlocks.perm {blocks' : List Block} (new : NewBlocks service blocks)
    (reordered : blocks.Perm blocks') : NewBlocks service blocks' :=
  ⟨new.keyed, fun block member => new.fresh block (reordered.mem_iff.mpr member),
    (reordered.map _).nodup_iff.mp new.distinct⟩

/-- One accepted insertion, seen in the total difficulties: the parent's is
stored, and the block's, its parent's plus its own, is added. -/
theorem insertBlock_parentDifficulty {inserted : ChainService} {block : Block}
    (new : NewBlocks service (block :: blocks))
    (success : insertBlock consensus checks service block needVerify = .ok inserted) :
    ∃ difficulty, service.store.totalDifficulties block.header.parentHash = some difficulty ∧
      inserted.store.totalDifficulties = Function.update service.store.totalDifficulties
        block.header.hash (some (difficulty + block.header.difficulty)) := by
  obtain ⟨parentExt, parentStored, column⟩ :=
    insertBlock_totalDifficulties new.keyed new.head_fresh success
  refine ⟨parentExt.totalDifficulty, ?_, column⟩
  rw [ChainStore.totalDifficulties, show service.store.blockExt block.header.parentHash =
    some parentExt from parentStored]
  rfl

theorem AcceptedRun.extends (run : AcceptedRun consensus checks needVerify service blocks service')
    (new : NewBlocks service blocks) :
    KeyValue.Extends service.store.totalDifficulties service'.store.totalDifficulties := by
  induction run with
  | nil service => exact fun _ _ stored => stored
  | @cons service inserted service' block blocks success rest induction =>
      obtain ⟨difficulty, -, column⟩ := insertBlock_parentDifficulty new success
      have added : KeyValue.Extends service.store.totalDifficulties
          inserted.store.totalDifficulties := by
        rw [column]
        exact KeyValue.extends_update_of_none
          (ChainStore.totalDifficulties_eq_none.mpr new.head_fresh) _
      exact added.trans (induction (new.next success))

/-- Every block of an accepted run ends stored with its parent's total
difficulty plus its own. -/
theorem AcceptedRun.totalDifficulty_of_mem
    (run : AcceptedRun consensus checks needVerify service blocks service')
    (new : NewBlocks service blocks) {block : Block} (member : block ∈ blocks) :
    ∃ difficulty, service'.store.totalDifficulties block.header.parentHash = some difficulty ∧
      service'.store.totalDifficulties block.header.hash =
        some (difficulty + block.header.difficulty) := by
  induction run with
  | nil service => cases member
  | @cons service inserted service' first blocks success rest induction =>
      rcases List.mem_cons.mp member with rfl | later
      · -- the block's entry and its parent's are made here and kept to the end
        obtain ⟨difficulty, parentStored, column⟩ := insertBlock_parentDifficulty new success
        have parentElsewhere : block.header.parentHash ≠ block.header.hash := by
          intro same
          rw [same, ChainStore.totalDifficulties_eq_none.mpr new.head_fresh] at parentStored
          cases parentStored
        have kept := rest.extends (new.next success)
        refine ⟨difficulty, kept _ _ ?_, kept _ _ ?_⟩
        · rw [column, Function.update_of_ne parentElsewhere]
          exact parentStored
        · rw [column, Function.update_self]
      · exact induction (new.next success) later

/-- The total difficulties an accepted run leaves are within any column that
extends the run's start and holds every block of the run with its parent's
total difficulty plus its own. -/
theorem AcceptedRun.extends_of_parents
    (run : AcceptedRun consensus checks needVerify service blocks service')
    (new : NewBlocks service blocks) {column : H256 → Option Nat}
    (within : KeyValue.Extends service.store.totalDifficulties column)
    (parents : ∀ block ∈ blocks, ∃ difficulty, column block.header.parentHash = some difficulty ∧
      column block.header.hash = some (difficulty + block.header.difficulty)) :
    KeyValue.Extends service'.store.totalDifficulties column := by
  -- induction on the run; the column takes each insertion as the run makes it
  induction run with
  | nil service => exact within
  | @cons service inserted service' block blocks success rest induction =>
      obtain ⟨difficulty, parentStored, column'⟩ := insertBlock_parentDifficulty new success
      obtain ⟨difficulty', parentHeld, blockHeld⟩ := parents block List.mem_cons_self
      have sameParent : difficulty' = difficulty := by
        rw [within _ _ parentStored, Option.some.injEq] at parentHeld
        exact parentHeld.symm
      subst sameParent
      have step : KeyValue.Extends inserted.store.totalDifficulties column := by
        rw [column']
        exact within.update blockHeld
      exact induction (new.next success) step
        fun later member => parents later (List.mem_cons_of_mem _ member)

/-- Two runs that accept the same new blocks, in any two orders, leave the
same total difficulties. -/
theorem acceptedRun_totalDifficulties_perm {blocks' : List Block}
    {service₁ service₂ : ChainService} (new : NewBlocks service blocks)
    (reordered : blocks.Perm blocks')
    (run : AcceptedRun consensus checks needVerify service blocks service₁)
    (run' : AcceptedRun consensus checks needVerify service blocks' service₂) :
    service₁.store.totalDifficulties = service₂.store.totalDifficulties := by
  have new' := new.perm reordered
  apply KeyValue.Extends.antisymm
  · exact run.extends_of_parents new (run'.extends new') fun block member =>
      run'.totalDifficulty_of_mem new' (reordered.mem_iff.mp member)
  · exact run'.extends_of_parents new' (run.extends new) fun block member =>
      run.totalDifficulty_of_mem new (reordered.mem_iff.mpr member)

/-- Two runs that accept the same new blocks, in any two orders, end at the
same tip with the same total difficulty. -/
theorem acceptedRun_tip_perm {blocks' : List Block} {service₁ service₂ : ChainService}
    (best : TipIsBest service) (new : NewBlocks service blocks)
    (reordered : blocks.Perm blocks')
    (run : AcceptedRun consensus checks needVerify service blocks service₁)
    (run' : AcceptedRun consensus checks needVerify service blocks' service₂) :
    service₁.tip.hash = service₂.tip.hash ∧
      service₁.totalDifficulty = service₂.totalDifficulty := by
  have same := acceptedRun_totalDifficulties_perm new reordered run run'
  have best₁ := processBlocks_tipIsBest best new run.processBlocks_eq
  have best₂ := processBlocks_tipIsBest best (new.perm reordered) run'.processBlocks_eq
  -- each tip is stored in the other run's store, so neither ranks above the other
  have tip₁ := best₁.tipExt
  have tip₂ := best₂.tipExt
  rw [same] at tip₁
  rw [← same] at tip₂
  have below₁ := best₁.noBetter _ _ tip₂
  have below₂ := best₂.noBetter _ _ tip₁
  obtain ⟨difficulties, hashes⟩ := forkKey_inj (le_antisymm below₁ below₂)
  exact ⟨hashes.symm, difficulties.symm⟩

end Accepted

end ChainService

/-- The first blocks of the two branches of the samples are accepted in
either order and end at one tip. -/
theorem firstBlocks_either_order_same_tip :
    ∃ service₁ service₂,
      ChainService.AcceptedRun shortWindowConsensus acceptingChecks true genesisChain
        [oldBranchBlock 1, newBranchBlock 1] service₁ ∧
      ChainService.AcceptedRun shortWindowConsensus acceptingChecks true genesisChain
        [newBranchBlock 1, oldBranchBlock 1] service₂ ∧
      service₁.tip.hash = service₂.tip.hash ∧
        service₁.totalDifficulty = service₂.totalDifficulty := by
  obtain ⟨oldFirst, oldInserted⟩ := Except.exists_eq_ok_of_isSome (by decide +kernel :
    (ChainService.insertBlock shortWindowConsensus acceptingChecks genesisChain (oldBranchBlock 1)
      true).toOption.isSome = true)
  obtain ⟨newFirst, newInserted⟩ := Except.exists_eq_ok_of_isSome (by decide +kernel :
    (ChainService.insertBlock shortWindowConsensus acceptingChecks genesisChain (newBranchBlock 1)
      true).toOption.isSome = true)
  have oldThenNew : (ChainService.insertBlock shortWindowConsensus acceptingChecks genesisChain
      (oldBranchBlock 1) true >>= fun service => ChainService.insertBlock shortWindowConsensus
        acceptingChecks service (newBranchBlock 1) true).toOption.isSome = true := by decide +kernel
  have newThenOld : (ChainService.insertBlock shortWindowConsensus acceptingChecks genesisChain
      (newBranchBlock 1) true >>= fun service => ChainService.insertBlock shortWindowConsensus
        acceptingChecks service (oldBranchBlock 1) true).toOption.isSome = true := by decide +kernel
  rw [oldInserted, Except.ok_bind] at oldThenNew
  rw [newInserted, Except.ok_bind] at newThenOld
  obtain ⟨service₁, newSecond⟩ := Except.exists_eq_ok_of_isSome oldThenNew
  obtain ⟨service₂, oldSecond⟩ := Except.exists_eq_ok_of_isSome newThenOld
  have run₁ : ChainService.AcceptedRun shortWindowConsensus acceptingChecks true genesisChain
      [oldBranchBlock 1, newBranchBlock 1] service₁ := .cons oldInserted (.cons newSecond (.nil _))
  have run₂ : ChainService.AcceptedRun shortWindowConsensus acceptingChecks true genesisChain
      [newBranchBlock 1, oldBranchBlock 1] service₂ := .cons newInserted (.cons oldSecond (.nil _))
  have fresh : ∀ block ∈ [oldBranchBlock 1, newBranchBlock 1],
      block.header.hash ≠ genesisBlock.header.hash := by decide
  have new : ChainService.NewBlocks genesisChain [oldBranchBlock 1, newBranchBlock 1] :=
    ⟨ChainService.init_blocksKeyed init_genesisChain,
      fun block member => ChainService.init_blockExt_of_ne init_genesisChain (fresh block member),
      by decide⟩
  exact ⟨service₁, service₂, run₁, run₂, ChainService.acceptedRun_tip_perm
    (ChainService.init_tipIsBest init_genesisChain) new (.swap _ _ _) run₁ run₂⟩

end Ckb
