import Ckb.Core.Cell

/-!
# Resolving the transactions of one block

`reconcile_main_chain` resolves every transaction of a block in order, with
one `seen_inputs` set shared by all of them, against the overlay of the
block's own outputs on the chain's cell provider, after
`BlockCellProvider::new` has checked that no transaction refers to an output
of itself or of a later transaction.

The results here say what a successful resolution of a whole block
guarantees: every input but the issuing-DAO marker of a non-cellbase
transaction is spent once, no dep names an input spent by its own or an
earlier transaction, no reference points forward, and every resolved input
cell was live in the provider.  Cellbase inputs are not resolved at all, and
two cellbase-shaped transactions of one block both spend the null out-point.
-/

namespace Ckb

/-- The inputs an input loop marks as seen: all but the issuing-DAO marker. -/
def spendable (outPoints : List OutPoint) : List OutPoint :=
  outPoints.filter fun outPoint => !outPoint.isIssuingDao

/-- The out-points a transaction spends when its block is resolved. -/
def spentOf (tx : Transaction) : List OutPoint :=
  if tx.isCellbase then [] else spendable tx.inputPts

/-- The resolution of a block's transactions in `reconcile_main_chain`. -/
def resolveBlock (chainCell : OutPoint → CellStatus) (headerProvider : OutPoint → HeaderStatus)
    (block : Block) : Except UnresolvableError (List ResolvedTransaction) :=
  match BlockCellProvider.new block with
  | .error error => .error error
  | .ok block =>
    (resolveTransactions (overlayCell (BlockCellProvider.cell block) chainCell) headerProvider
      block.transactions []).2

@[simp] theorem spendable_nil : spendable [] = [] := rfl

theorem spendable_cons (outPoint : OutPoint) (rest : List OutPoint) :
    spendable (outPoint :: rest) =
      if outPoint.isIssuingDao then spendable rest else outPoint :: spendable rest := by
  by_cases marker : outPoint.isIssuingDao <;> simp [spendable, marker]

section Loops

variable {cellProvider : OutPoint → CellStatus} {headerProvider : OutPoint → HeaderStatus}

/-- One successful turn of the input loop: the marker is skipped; any other
input was not seen before and is either unknown or live. -/
theorem resolveInputs_cons_ok {seen rest unknown seen' : List OutPoint} {outPoint : OutPoint}
    {resolved : List ResolvedOutPoint} {result : List OutPoint × List ResolvedOutPoint}
    (success : resolveInputs cellProvider headerProvider seen (outPoint :: rest) unknown resolved =
      (seen', .ok result)) :
    (outPoint.isIssuingDao = true ∧
      resolveInputs cellProvider headerProvider seen rest unknown
        (resolved ++ [.issuingDao]) = (seen', .ok result)) ∨
    (outPoint.isIssuingDao = false ∧ outPoint ∉ seen ∧
      ((cellProvider outPoint = .unknown ∧
        resolveInputs cellProvider headerProvider (outPoint :: seen) rest (unknown ++ [outPoint])
          resolved = (seen', .ok result)) ∨
      (∃ (cellMeta : CellMeta) (entry : ResolvedOutPoint), cellProvider outPoint = .live cellMeta ∧
          entry.cell = .cell cellMeta ∧
        resolveInputs cellProvider headerProvider (outPoint :: seen) rest unknown
          (resolved ++ [entry]) = (seen', .ok result)))) := by
  rw [resolveInputs] at success
  by_cases marker : outPoint.isIssuingDao = true
  · rw [if_pos marker] at success
    exact .inl ⟨marker, success⟩
  · rw [if_neg marker] at success
    have notMarker : outPoint.isIssuingDao = false := by simpa using marker
    by_cases member : outPoint ∈ seen
    · simp [insertSeen, member] at success
    · simp only [insertSeen, if_neg member, if_true] at success
      refine .inr ⟨notMarker, member, ?_⟩
      cases cellStatus : cellProvider outPoint with
      | dead => simp [cellStatus] at success
      | unspecified => simp [cellStatus] at success
      | unknown =>
          simp only [cellStatus] at success
          exact .inl ⟨rfl, success⟩
      | live cellMeta =>
          cases headerStatus : headerProvider outPoint with
          | unknown => simp [cellStatus, headerStatus] at success
          | inclusionFaliure => simp [cellStatus, headerStatus] at success
          | live header =>
              simp only [cellStatus, headerStatus] at success
              exact .inr ⟨cellMeta, _, rfl, rfl, success⟩
          | unspecified =>
              simp only [cellStatus, headerStatus] at success
              exact .inr ⟨cellMeta, _, rfl, rfl, success⟩

/-- What a successful input loop guarantees about the inputs it marks. -/
structure InputLoop (cellProvider : OutPoint → CellStatus) (outPoints : List OutPoint)
    (seen unknown : List OutPoint) (resolved : List ResolvedOutPoint)
    (seen' unknown' : List OutPoint) (resolved' : List ResolvedOutPoint) : Prop where
  seen_eq : seen' = (spendable outPoints).reverse ++ seen
  fresh : ∀ outPoint ∈ spendable outPoints, outPoint ∉ seen
  nodup : (spendable outPoints).Nodup
  liveOrUnknown : ∀ outPoint ∈ spendable outPoints,
    (∃ cellMeta, cellProvider outPoint = .live cellMeta) ∨ outPoint ∈ unknown'
  unknown_subset : unknown ⊆ unknown'
  resolvedCells : ∀ entry ∈ resolved', entry ∈ resolved ∨
    ∀ cellMeta, entry.cell = .cell cellMeta →
      ∃ outPoint ∈ outPoints, cellProvider outPoint = .live cellMeta

/-- An input the loop spends, put in front of the loop that went on from it:
the input is fresh, and whether it was live or unknown is recorded. -/
theorem InputLoop.cons_spent {outPoint : OutPoint}
    {rest seen unknown unknown₁ seen' unknown' : List OutPoint}
    {resolved resolved₁ resolved' : List ResolvedOutPoint}
    (notMarker : outPoint.isIssuingDao = false) (member : outPoint ∉ seen)
    (later : InputLoop cellProvider rest (outPoint :: seen) unknown₁ resolved₁ seen' unknown'
      resolved')
    (grown : unknown ⊆ unknown₁)
    (status : (∃ cellMeta, cellProvider outPoint = .live cellMeta) ∨ outPoint ∈ unknown')
    (entries : ∀ entry ∈ resolved₁, entry ∈ resolved ∨ ∀ cellMeta, entry.cell = .cell cellMeta →
      ∃ source ∈ outPoint :: rest, cellProvider source = .live cellMeta) :
    InputLoop cellProvider (outPoint :: rest) seen unknown resolved seen' unknown' resolved' := by
  have spendableEq : spendable (outPoint :: rest) = outPoint :: spendable rest := by
    simp [spendable_cons, notMarker]
  refine ⟨?_, ?_, ?_, ?_, List.Subset.trans grown later.unknown_subset, ?_⟩
  · rw [spendableEq, later.seen_eq]
    simp
  · intro candidate candidateMember
    rw [spendableEq] at candidateMember
    rcases List.mem_cons.mp candidateMember with rfl | tailMember
    · exact member
    · exact fun seenMember => later.fresh candidate tailMember (List.mem_cons_of_mem _ seenMember)
  · rw [spendableEq]
    refine List.nodup_cons.mpr ⟨?_, later.nodup⟩
    intro tailMember
    exact later.fresh outPoint tailMember List.mem_cons_self
  · intro candidate candidateMember
    rw [spendableEq] at candidateMember
    rcases List.mem_cons.mp candidateMember with rfl | tailMember
    · exact status
    · exact later.liveOrUnknown candidate tailMember
  · intro entry entryMember
    rcases later.resolvedCells entry entryMember with earlier | cells
    · exact entries entry earlier
    · right
      intro cellMeta cellEq
      obtain ⟨source, sourceMember, live⟩ := cells cellMeta cellEq
      exact ⟨source, List.mem_cons_of_mem _ sourceMember, live⟩

/-- The marker, put in front of the loop that went on from it: nothing is
marked, and its entry holds no cell. -/
theorem InputLoop.cons_marker {outPoint : OutPoint}
    {rest seen unknown seen' unknown' : List OutPoint} {resolved resolved' : List ResolvedOutPoint}
    (marker : outPoint.isIssuingDao = true)
    (later : InputLoop cellProvider rest seen unknown (resolved ++ [.issuingDao]) seen' unknown'
      resolved') :
    InputLoop cellProvider (outPoint :: rest) seen unknown resolved seen' unknown' resolved' := by
  have spendableEq : spendable (outPoint :: rest) = spendable rest := by
    simp [spendable_cons, marker]
  refine ⟨?_, ?_, ?_, ?_, later.unknown_subset, ?_⟩
  · rw [spendableEq]
    exact later.seen_eq
  · rw [spendableEq]
    exact later.fresh
  · rw [spendableEq]
    exact later.nodup
  · rw [spendableEq]
    exact later.liveOrUnknown
  · intro entry entryMember
    rcases later.resolvedCells entry entryMember with earlier | cells
    · rcases List.mem_append.mp earlier with old | new
      · exact .inl old
      · -- the marker's entry holds no cell
        right
        intro cellMeta cellEq
        rw [List.mem_singleton.mp new] at cellEq
        cases cellEq
    · right
      intro cellMeta cellEq
      obtain ⟨source, sourceMember, live⟩ := cells cellMeta cellEq
      exact ⟨source, List.mem_cons_of_mem _ sourceMember, live⟩

theorem resolveInputs_ok {outPoints seen unknown seen' unknown' : List OutPoint}
    {resolved resolved' : List ResolvedOutPoint}
    (success : resolveInputs cellProvider headerProvider seen outPoints unknown resolved =
      (seen', .ok (unknown', resolved'))) :
    InputLoop cellProvider outPoints seen unknown resolved seen' unknown' resolved' := by
  induction outPoints generalizing seen unknown resolved with
  | nil =>
      simp only [resolveInputs, Prod.mk.injEq, Except.ok.injEq] at success
      obtain ⟨rfl, rfl, rfl⟩ := success
      exact ⟨by simp, by simp, by simp, by simp, fun _ member => member,
        fun entry member => .inl member⟩
  | cons outPoint rest induction =>
      rcases resolveInputs_cons_ok success with ⟨marker, tail⟩ | ⟨notMarker, member, step⟩
      · exact (induction tail).cons_marker marker
      · rcases step with ⟨-, tail⟩ | ⟨cellMeta, entry, liveStatus, entryCell, tail⟩
        · -- an unknown input is recorded as unknown
          have later := induction tail
          exact later.cons_spent notMarker member (List.subset_append_left _ _)
            (.inr (later.unknown_subset (by simp))) fun entry member => .inl member
        · -- a live input's entry holds its live cell
          refine (induction tail).cons_spent notMarker member (List.Subset.refl _)
            (.inl ⟨cellMeta, liveStatus⟩) ?_
          intro resolvedEntry entryMember
          rcases List.mem_append.mp entryMember with old | new
          · exact .inl old
          · right
            intro otherMeta cellEq
            rw [List.mem_singleton.mp new, entryCell] at cellEq
            cases cellEq
            exact ⟨outPoint, List.mem_cons_self, liveStatus⟩

theorem resolveDeps_unknown_subset {seen deps unknown unknown' : List OutPoint}
    {resolved resolved' : List ResolvedOutPoint}
    (success : resolveDeps cellProvider headerProvider seen deps unknown resolved =
      .ok (unknown', resolved')) :
    unknown ⊆ unknown' := by
  induction deps generalizing unknown resolved with
  | nil =>
      simp only [resolveDeps, Except.ok.injEq, Prod.mk.injEq] at success
      rw [success.1]
      exact List.Subset.refl _
  | cons dep rest induction =>
      rw [resolveDeps] at success
      cases cellStatus : cellProvider dep with
      | dead => simp [cellStatus] at success
      | unknown =>
          simp only [cellStatus] at success
          exact List.Subset.trans (List.subset_append_left _ _) (induction success)
      | live depMeta =>
          cases headerStatus : headerProvider dep with
          | unknown => simp [cellStatus, headerStatus] at success
          | inclusionFaliure => simp [cellStatus, headerStatus] at success
          | live header =>
              by_cases depSeen : dep ∈ seen
              · simp [cellStatus, headerStatus, depSeen] at success
              · simp only [cellStatus, headerStatus, if_neg depSeen] at success
                exact induction success
          | unspecified =>
              by_cases depSeen : dep ∈ seen
              · simp [cellStatus, headerStatus, depSeen] at success
              · simp only [cellStatus, headerStatus, if_neg depSeen] at success
                exact induction success
      | unspecified =>
          cases headerStatus : headerProvider dep with
          | live header =>
              simp only [cellStatus, headerStatus] at success
              exact induction success
          | unknown => simp [cellStatus, headerStatus] at success
          | inclusionFaliure => simp [cellStatus, headerStatus] at success
          | unspecified => simp [cellStatus, headerStatus] at success

theorem resolveDeps_ok {seen deps unknown unknown' : List OutPoint}
    {resolved resolved' : List ResolvedOutPoint}
    (success : resolveDeps cellProvider headerProvider seen deps unknown resolved =
      .ok (unknown', resolved')) :
    ∀ dep ∈ deps, ∀ cellMeta, cellProvider dep = .live cellMeta → dep ∉ seen := by
  induction deps generalizing unknown resolved with
  | nil => simp
  | cons dep rest induction =>
      intro candidate candidateMember cellMeta live
      rw [resolveDeps] at success
      rcases List.mem_cons.mp candidateMember with rfl | tailMember
      · rw [live] at success
        intro seenMember
        cases headerStatus : headerProvider candidate <;>
          simp [headerStatus, seenMember] at success
      · cases cellStatus : cellProvider dep with
        | dead => simp [cellStatus] at success
        | unknown =>
            simp only [cellStatus] at success
            exact induction success candidate tailMember cellMeta live
        | live depMeta =>
            by_cases depSeen : dep ∈ seen
            · cases headerStatus : headerProvider dep <;>
                simp [cellStatus, headerStatus, depSeen] at success
            · cases headerStatus : headerProvider dep with
              | unknown => simp [cellStatus, headerStatus] at success
              | inclusionFaliure => simp [cellStatus, headerStatus] at success
              | live header =>
                  simp only [cellStatus, headerStatus, if_neg depSeen] at success
                  exact induction success candidate tailMember cellMeta live
              | unspecified =>
                  simp only [cellStatus, headerStatus, if_neg depSeen] at success
                  exact induction success candidate tailMember cellMeta live
        | unspecified =>
            cases headerStatus : headerProvider dep with
            | live header =>
                simp only [cellStatus, headerStatus] at success
                exact induction success candidate tailMember cellMeta live
            | unknown => simp [cellStatus, headerStatus] at success
            | inclusionFaliure => simp [cellStatus, headerStatus] at success
            | unspecified => simp [cellStatus, headerStatus] at success

/-- What a successful `resolve_transaction` guarantees. -/
structure TransactionResolved (cellProvider : OutPoint → CellStatus) (tx : Transaction)
    (seen seen' : List OutPoint) (rtx : ResolvedTransaction) : Prop where
  seen_eq : seen' = (spentOf tx).reverse ++ seen
  fresh : ∀ outPoint ∈ spentOf tx, outPoint ∉ seen
  nodup : (spentOf tx).Nodup
  spentLive : ∀ outPoint ∈ spentOf tx, ∃ cellMeta, cellProvider outPoint = .live cellMeta
  depsUnspent : ∀ dep ∈ tx.deps, ∀ cellMeta, cellProvider dep = .live cellMeta → dep ∉ seen'
  transaction_eq : rtx.transaction = tx
  inputsLive : ∀ entry ∈ rtx.resolvedInputs, ∀ cellMeta, entry.cell = .cell cellMeta →
    ∃ outPoint ∈ tx.inputPts, cellProvider outPoint = .live cellMeta

/-- A successful `resolve_transaction`, step by step: the input loop (none for
a cellbase) and then the dep loop passed, and no out-point is left unknown. -/
theorem resolveTransaction_cases {tx : Transaction} {seen seen' : List OutPoint}
    {rtx : ResolvedTransaction}
    (success : resolveTransaction cellProvider headerProvider tx seen = (seen', .ok rtx)) :
    rtx.transaction = tx ∧
      resolveDeps cellProvider headerProvider seen' tx.deps [] [] = .ok ([], rtx.resolvedDeps) ∧
      ((tx.isCellbase = true ∧ seen' = seen ∧ rtx.resolvedInputs = []) ∨
        (tx.isCellbase = false ∧ resolveInputs cellProvider headerProvider seen tx.inputPts [] [] =
          (seen', .ok ([], rtx.resolvedInputs)))) := by
  unfold resolveTransaction at success
  by_cases cellbase : tx.isCellbase = true
  · simp only [cellbase, if_true] at success
    rcases deps : resolveDeps cellProvider headerProvider seen tx.deps [] [] with
      _ | ⟨unknownAll, resolvedDeps⟩
    · simp [deps] at success
    · by_cases noUnknown : unknownAll.isEmpty = true
      · simp only [deps, noUnknown, if_true, Prod.mk.injEq, Except.ok.injEq] at success
        obtain ⟨rfl, rfl⟩ := success
        rw [List.isEmpty_iff.mp noUnknown] at deps
        exact ⟨rfl, deps, .inl ⟨cellbase, rfl, rfl⟩⟩
      · simp [deps, noUnknown] at success
  · have notCellbase : tx.isCellbase = false := by simpa using cellbase
    simp only [notCellbase, Bool.false_eq_true, if_false] at success
    rcases inputs : resolveInputs cellProvider headerProvider seen tx.inputPts [] [] with
      ⟨inputSeen, _ | ⟨unknownInputs, resolvedInputs⟩⟩
    · simp [inputs] at success
    · simp only [inputs] at success
      rcases deps : resolveDeps cellProvider headerProvider inputSeen tx.deps unknownInputs [] with
        _ | ⟨unknownAll, resolvedDeps⟩
      · simp [deps] at success
      · simp only [deps] at success
        by_cases noUnknown : unknownAll.isEmpty = true
        · simp only [noUnknown, if_true, Prod.mk.injEq, Except.ok.injEq] at success
          obtain ⟨rfl, rfl⟩ := success
          have unknownNil : unknownAll = [] := List.isEmpty_iff.mp noUnknown
          have inputsKnown : unknownInputs = [] := by
            by_contra nonempty
            obtain ⟨first, firstMember⟩ := List.exists_mem_of_ne_nil _ nonempty
            have kept := resolveDeps_unknown_subset deps firstMember
            simp [unknownNil] at kept
          subst inputsKnown unknownNil
          exact ⟨rfl, deps, .inr ⟨notCellbase, rfl⟩⟩
        · simp [noUnknown] at success

theorem resolveTransaction_ok {tx : Transaction} {seen seen' : List OutPoint}
    {rtx : ResolvedTransaction}
    (success : resolveTransaction cellProvider headerProvider tx seen = (seen', .ok rtx)) :
    TransactionResolved cellProvider tx seen seen' rtx := by
  obtain ⟨transactionEq, deps, chosen⟩ := resolveTransaction_cases success
  rcases chosen with ⟨cellbase, rfl, noInputs⟩ | ⟨notCellbase, inputs⟩
  · -- a cellbase spends nothing
    have spentNil : spentOf tx = [] := by simp [spentOf, cellbase]
    exact ⟨by simp [spentNil], by simp [spentNil], by simp [spentNil], by simp [spentNil],
      resolveDeps_ok deps, transactionEq, by simp [noInputs]⟩
  · have spentEq : spentOf tx = spendable tx.inputPts := by simp [spentOf, notCellbase]
    have loop := resolveInputs_ok inputs
    refine ⟨?_, ?_, ?_, ?_, resolveDeps_ok deps, transactionEq, ?_⟩
    · rw [spentEq]
      exact loop.seen_eq
    · rw [spentEq]
      exact loop.fresh
    · rw [spentEq]
      exact loop.nodup
    · intro outPoint member
      rw [spentEq] at member
      rcases loop.liveOrUnknown outPoint member with live | unknownMember
      · exact live
      · cases unknownMember
    · intro entry entryMember cellMeta cellEq
      rcases loop.resolvedCells entry entryMember with empty | cells
      · cases empty
      · exact cells cellMeta cellEq

/-- The input loop keeps one resolved entry or one unknown out-point for each
input, and resolves the issuing-DAO marker to `issuingDao`. -/
theorem resolveInputs_entries {outPoints seen unknown seen' unknown' : List OutPoint}
    {resolved resolved' : List ResolvedOutPoint}
    (success : resolveInputs cellProvider headerProvider seen outPoints unknown resolved =
      (seen', .ok (unknown', resolved'))) :
    resolved'.length + unknown'.length = resolved.length + unknown.length + outPoints.length ∧
      (∀ entry ∈ resolved, entry ∈ resolved') ∧
      ∀ outPoint ∈ outPoints, outPoint.isIssuingDao = true →
        ResolvedOutPoint.issuingDao ∈ resolved' := by
  induction outPoints generalizing seen unknown resolved with
  | nil =>
      simp only [resolveInputs, Prod.mk.injEq, Except.ok.injEq] at success
      obtain ⟨rfl, rfl, rfl⟩ := success
      exact ⟨by simp, fun _ member => member, by simp⟩
  | cons outPoint rest induction =>
      rcases resolveInputs_cons_ok success with ⟨marker, tail⟩ | ⟨notMarker, -, step⟩
      · -- the marker is resolved in place
        obtain ⟨lengths, kept, markers⟩ := induction tail
        refine ⟨?_, fun found member => kept found (List.mem_append_left _ member), ?_⟩
        · simp only [List.length_append, List.length_cons, List.length_nil] at lengths ⊢
          omega
        · intro found member isMarker
          rcases List.mem_cons.mp member with rfl | later
          · exact kept _ (List.mem_append_right _ (List.mem_singleton.mpr rfl))
          · exact markers found later isMarker
      · -- any other input is not the marker, so the markers are among the rest
        have markersLater : ∀ found ∈ outPoint :: rest, found.isIssuingDao = true →
            found ∈ rest := by
          intro found member isMarker
          rcases List.mem_cons.mp member with rfl | later
          · rw [notMarker] at isMarker
            cases isMarker
          · exact later
        rcases step with ⟨-, tail⟩ | ⟨cellMeta, entry, -, -, tail⟩
        · -- an unknown input is collected
          obtain ⟨lengths, kept, markers⟩ := induction tail
          refine ⟨?_, kept, fun found member isMarker =>
            markers found (markersLater found member isMarker) isMarker⟩
          simp only [List.length_append, List.length_cons, List.length_nil] at lengths ⊢
          omega
        · -- a live input is resolved
          obtain ⟨lengths, kept, markers⟩ := induction tail
          refine ⟨?_, fun found member => kept found (List.mem_append_left _ member),
            fun found member isMarker => markers found (markersLater found member isMarker) isMarker⟩
          simp only [List.length_append, List.length_cons, List.length_nil] at lengths ⊢
          omega

theorem resolveTransaction_inputs_eq {tx : Transaction} {seen seen' : List OutPoint}
    {rtx : ResolvedTransaction} (notCellbase : tx.isCellbase = false)
    (success : resolveTransaction cellProvider headerProvider tx seen = (seen', .ok rtx)) :
    resolveInputs cellProvider headerProvider seen tx.inputPts [] [] =
      (seen', .ok ([], rtx.resolvedInputs)) := by
  obtain ⟨-, -, ⟨cellbase, -, -⟩ | ⟨-, inputs⟩⟩ := resolveTransaction_cases success
  · rw [notCellbase] at cellbase
    cases cellbase
  · exact inputs

theorem resolveTransaction_resolvedInputs {tx : Transaction} {seen seen' : List OutPoint}
    {rtx : ResolvedTransaction} (notCellbase : tx.isCellbase = false)
    (success : resolveTransaction cellProvider headerProvider tx seen = (seen', .ok rtx)) :
    rtx.resolvedInputs.length = tx.inputs.length ∧
      (tx.isWithdrawingFromDao = true → ResolvedOutPoint.issuingDao ∈ rtx.resolvedInputs) := by
  obtain ⟨lengths, -, markers⟩ := resolveInputs_entries (resolveTransaction_inputs_eq notCellbase success)
  refine ⟨by simpa [Transaction.inputPts] using lengths, ?_⟩
  intro withdrawing
  obtain ⟨input, member, marker⟩ := List.any_eq_true.mp withdrawing
  exact markers input.previousOutput (List.mem_map_of_mem member) marker

theorem resolveTransactions_cons_ok {tx : Transaction} {rest : List Transaction}
    {seen seen' : List OutPoint} {rtxs : List ResolvedTransaction}
    (success : resolveTransactions cellProvider headerProvider (tx :: rest) seen =
      (seen', .ok rtxs)) :
    ∃ middle rtx later,
      resolveTransaction cellProvider headerProvider tx seen = (middle, .ok rtx) ∧
      resolveTransactions cellProvider headerProvider rest middle = (seen', .ok later) ∧
      rtxs = rtx :: later := by
  rw [resolveTransactions] at success
  rcases first : resolveTransaction cellProvider headerProvider tx seen with ⟨middle, _ | rtx⟩
  · simp [first] at success
  · rcases tail : resolveTransactions cellProvider headerProvider rest middle with
      ⟨final, _ | later⟩
    · simp [first, tail] at success
    · simp only [first, tail, Prod.mk.injEq, Except.ok.injEq] at success
      obtain ⟨rfl, rfl⟩ := success
      exact ⟨middle, rtx, later, rfl, tail, rfl⟩

/-- What a successful resolution of a list of transactions with one shared
`seen_inputs`, started from `seen`, guarantees. -/
structure TransactionsResolved (cellProvider : OutPoint → CellStatus) (txs : List Transaction)
    (seen seen' : List OutPoint) (rtxs : List ResolvedTransaction) : Prop where
  seen_eq : seen' = (txs.flatMap spentOf).reverse ++ seen
  fresh : ∀ outPoint ∈ txs.flatMap spentOf, outPoint ∉ seen
  nodup : (txs.flatMap spentOf).Nodup
  spentLive : ∀ outPoint ∈ txs.flatMap spentOf, ∃ cellMeta, cellProvider outPoint = .live cellMeta
  depsUnspent : ∀ earlier tx later, txs = earlier ++ tx :: later →
    ∀ dep ∈ tx.deps, ∀ cellMeta, cellProvider dep = .live cellMeta →
      dep ∉ seen ∧ dep ∉ (earlier ++ [tx]).flatMap spentOf
  transactions_eq : rtxs.map ResolvedTransaction.transaction = txs
  inputsLive : ∀ rtx ∈ rtxs, ∀ entry ∈ rtx.resolvedInputs, ∀ cellMeta,
    entry.cell = .cell cellMeta →
      ∃ outPoint ∈ rtx.transaction.inputPts, cellProvider outPoint = .live cellMeta

theorem resolveTransactions_ok {txs : List Transaction} {seen seen' : List OutPoint}
    {rtxs : List ResolvedTransaction}
    (success : resolveTransactions cellProvider headerProvider txs seen = (seen', .ok rtxs)) :
    TransactionsResolved cellProvider txs seen seen' rtxs := by
  -- induction on the block's transactions: each one starts from the set its
  -- predecessors left, which `TransactionResolved.seen_eq` describes
  induction txs generalizing seen rtxs with
  | nil =>
      simp only [resolveTransactions, Prod.mk.injEq, Except.ok.injEq] at success
      obtain ⟨rfl, rfl⟩ := success
      refine ⟨by simp, by simp, by simp, by simp, ?_, rfl, by simp⟩
      intro earlier tx later split
      simp at split
  | cons tx rest induction =>
      obtain ⟨middle, rtx, later, first, tail, rfl⟩ := resolveTransactions_cons_ok success
      have head := resolveTransaction_ok first
      have tailResolved := induction tail
      have middleEq := head.seen_eq
      refine ⟨?_, ?_, ?_, ?_, ?_, ?_, ?_⟩
      · rw [tailResolved.seen_eq, middleEq]
        simp
      · intro outPoint member
        rw [List.flatMap_cons, List.mem_append] at member
        rcases member with own | others
        · exact head.fresh outPoint own
        · intro seenMember
          exact tailResolved.fresh outPoint others (by rw [middleEq]; simp [seenMember])
      · rw [List.flatMap_cons, List.nodup_append]
        refine ⟨head.nodup, tailResolved.nodup, ?_⟩
        intro outPoint own other others sameOutPoint
        subst sameOutPoint
        exact tailResolved.fresh outPoint others (by rw [middleEq]; simp [own])
      · intro outPoint member
        rw [List.flatMap_cons, List.mem_append] at member
        rcases member with own | others
        · exact head.spentLive outPoint own
        · exact tailResolved.spentLive outPoint others
      · intro earlier current remaining split dep depMember cellMeta live
        cases earlier with
        | nil =>
            simp only [List.nil_append, List.cons.injEq] at split
            obtain ⟨rfl, rfl⟩ := split
            have unspent := head.depsUnspent dep depMember cellMeta live
            rw [middleEq] at unspent
            simp only [List.mem_append, List.mem_reverse, not_or] at unspent
            refine ⟨unspent.2, ?_⟩
            simpa using unspent.1
        | cons first earlier =>
            simp only [List.cons_append, List.cons.injEq] at split
            obtain ⟨rfl, restSplit⟩ := split
            have unspent := tailResolved.depsUnspent earlier current remaining restSplit dep
              depMember cellMeta live
            rw [middleEq] at unspent
            simp only [List.mem_append, List.mem_reverse, not_or] at unspent
            simp only [List.cons_append, List.flatMap_cons, List.mem_append, not_or]
            exact ⟨unspent.1.2, unspent.1.1, unspent.2⟩
      · simp [head.transaction_eq, tailResolved.transactions_eq]
      · intro resolved member
        rcases List.mem_cons.mp member with rfl | others
        · rw [head.transaction_eq]
          exact head.inputsLive
        · exact tailResolved.inputsLive resolved others

end Loops

section BlockProvider

theorem outputIndices_isSome_of_mem {txs : List Transaction} {tx : Transaction} {hash : H256}
    (member : tx ∈ txs) (hashEq : tx.hash = hash) :
    ∃ position, outputIndices txs hash = some position := by
  induction txs with
  | nil => simp at member
  | cons head rest induction =>
      cases restIndex : outputIndices rest hash with
      | some position => exact ⟨position + 1, by simp [outputIndices, restIndex]⟩
      | none =>
          rcases List.mem_cons.mp member with rfl | restMember
          · exact ⟨0, by simp [outputIndices, restIndex, hashEq]⟩
          · obtain ⟨position, found⟩ := induction restMember
            simp [restIndex] at found

theorem outputIndices_append (earlier : List Transaction) {later : List Transaction} {hash : H256} {position : Nat}
    (found : outputIndices later hash = some position) :
    outputIndices (earlier ++ later) hash = some (earlier.length + position) := by
  induction earlier with
  | nil => simpa using found
  | cons head rest induction =>
      simp only [List.cons_append, outputIndices, induction, List.length_cons, Option.some.injEq]
      omega

/-- A block accepted by `BlockCellProvider::new` has no transaction that
refers to an output of itself or of a later one: the last transaction with
the named hash would be at the referring position or after it. -/
theorem BlockCellProvider.new_ok {block block' : Block}
    (success : BlockCellProvider.new block = .ok block') :
    block' = block ∧ ∀ (earlier : List Transaction) (tx : Transaction) later,
      block.transactions = earlier ++ tx :: later →
      ∀ ref ∈ tx.deps ++ tx.inputPts, ∀ cell : CellOutPoint, ref.cell = some cell →
        ∀ other ∈ tx :: later, other.hash ≠ cell.txHash := by
  unfold BlockCellProvider.new at success
  split at success
  · cases success
  · rename_i noneFound
    cases success
    refine ⟨rfl, ?_⟩
    intro earlier tx later split ref refMember cell cellEq other otherMember hashEq
    have noRefs := List.flatMap_eq_nil_iff.mp (List.head?_eq_none_iff.mp noneFound)
      (tx, earlier.length) (List.mem_zipIdx_iff_getElem?.mpr (by simp [split]))
    obtain ⟨position, found⟩ := outputIndices_isSome_of_mem otherMember hashEq
    have located := outputIndices_append earlier found
    rw [← split] at located
    have kept := List.filter_eq_nil_iff.mp noRefs ref refMember
    simp [cellEq, located] at kept

theorem resolveBlock_transactions {chainCell : OutPoint → CellStatus}
    {headerProvider : OutPoint → HeaderStatus} {block : Block} {rtxs : List ResolvedTransaction}
    (success : resolveBlock chainCell headerProvider block = .ok rtxs) :
    rtxs.map ResolvedTransaction.transaction = block.transactions := by
  unfold resolveBlock at success
  split at success
  · cases success
  · rename_i provided accepted
    obtain ⟨rfl, -⟩ := BlockCellProvider.new_ok accepted
    rcases whole : resolveTransactions (overlayCell (BlockCellProvider.cell provided) chainCell)
      headerProvider provided.transactions [] with ⟨finalSeen, result⟩
    rw [whole] at success
    subst success
    exact (resolveTransactions_ok whole).transactions_eq

end BlockProvider

/-- What a block resolved by `reconcile_main_chain` satisfies: the inputs of
its non-cellbase transactions, the issuing-DAO marker apart, are spent once;
no dep names one of them spent by its own or an earlier transaction; no
reference points at the outputs of its own or a later transaction; and every
resolved input cell was live in the overlay provider. -/
structure SpendsOnce (chainCell : OutPoint → CellStatus) (block : Block)
    (rtxs : List ResolvedTransaction) : Prop where
  transactions_eq : rtxs.map ResolvedTransaction.transaction = block.transactions
  spentNodup : (block.transactions.flatMap spentOf).Nodup
  depsUnspent : ∀ earlier tx later, block.transactions = earlier ++ tx :: later →
    ∀ dep ∈ tx.deps, dep ∉ (earlier ++ [tx]).flatMap spentOf
  noForwardRefs : ∀ earlier tx later, block.transactions = earlier ++ tx :: later →
    ∀ ref ∈ tx.deps ++ tx.inputPts, ∀ cell, ref.cell = some cell →
      ∀ other ∈ tx :: later, other.hash ≠ cell.txHash
  inputsLive : ∀ rtx ∈ rtxs, ∀ entry ∈ rtx.resolvedInputs, ∀ cellMeta,
    entry.cell = .cell cellMeta → ∃ outPoint ∈ rtx.transaction.inputPts,
      overlayCell (BlockCellProvider.cell block) chainCell outPoint = .live cellMeta

theorem resolveBlock_spends_once (chainCell : OutPoint → CellStatus)
    (headerProvider : OutPoint → HeaderStatus) (block : Block) {rtxs : List ResolvedTransaction}
    (success : resolveBlock chainCell headerProvider block = .ok rtxs) :
    SpendsOnce chainCell block rtxs := by
  unfold resolveBlock at success
  split at success
  · cases success
  · rename_i provided accepted
    obtain ⟨rfl, noForwardRefs⟩ := BlockCellProvider.new_ok accepted
    rcases whole : resolveTransactions (overlayCell (BlockCellProvider.cell provided) chainCell)
      headerProvider provided.transactions [] with ⟨finalSeen, result⟩
    rw [whole] at success
    subst success
    have resolved := resolveTransactions_ok whole
    refine ⟨resolved.transactions_eq, resolved.nodup, ?_, noForwardRefs, resolved.inputsLive⟩
    intro earlier tx later split dep depMember spent
    -- every spent out-point is live, so a dep equal to one is a live dep,
    -- which the dep loop rejects once it is in seen_inputs
    have spentInBlock : dep ∈ provided.transactions.flatMap spentOf := by
      obtain ⟨spender, spenderMember, spends⟩ := List.mem_flatMap.mp spent
      refine List.mem_flatMap.mpr ⟨spender, ?_, spends⟩
      rw [split]
      simp only [List.mem_append, List.mem_cons] at spenderMember ⊢
      tauto
    obtain ⟨cellMeta, live⟩ := resolved.spentLive dep spentInBlock
    exact (resolved.depsUnspent earlier tx later split dep depMember cellMeta live).2 spent

section Samples

private def plainOutput : CellOutput := ⟨⟨0⟩, [], ⟨[], ⟨0⟩⟩, none⟩

private def sampleHeader : Header := ⟨1, 0, 0, 0, ⟨0⟩, ⟨1⟩⟩

/-- A cellbase-shaped transaction: one null input, one output, one witness. -/
def nullSpender (hash : H256) : Transaction :=
  ⟨txVersion, [], [⟨OutPoint.null, 0⟩], [plainOutput], [[]], hash⟩

private def chainOutPoint : OutPoint := ⟨some ⟨1⟩, some ⟨⟨3⟩, 0⟩⟩

private def chainMeta : CellMeta := ⟨some plainOutput, ⟨⟨3⟩, 0⟩, none, false, ⟨0⟩, none⟩

private def chainCell (outPoint : OutPoint) : CellStatus :=
  if outPoint = chainOutPoint then .live chainMeta else .unknown

private def chainSpender : Transaction :=
  ⟨txVersion, [], [⟨chainOutPoint, 0⟩], [plainOutput], [], ⟨2⟩⟩

theorem cellbaseAndSpender_spendsOnce :
    resolveBlock chainCell (fun _ => .unspecified)
        ⟨sampleHeader, [], [nullSpender ⟨1⟩, chainSpender], []⟩ =
      .ok [⟨nullSpender ⟨1⟩, [], []⟩, ⟨chainSpender, [], [.cellOnly chainMeta]⟩] ∧
    SpendsOnce chainCell ⟨sampleHeader, [], [nullSpender ⟨1⟩, chainSpender], []⟩
      [⟨nullSpender ⟨1⟩, [], []⟩, ⟨chainSpender, [], [.cellOnly chainMeta]⟩] :=
  ⟨by decide, resolveBlock_spends_once chainCell (fun _ => .unspecified) _ (by decide)⟩

/-- The inputs of cellbase-shaped transactions are never looked up, so a block
of two of them resolves although both spend the null out-point. -/
theorem twoCellbases_spend_null_twice :
    resolveBlock (fun _ => .unknown) (fun _ => .unspecified)
        ⟨sampleHeader, [], [nullSpender ⟨1⟩, nullSpender ⟨2⟩], []⟩ =
      .ok [⟨nullSpender ⟨1⟩, [], []⟩, ⟨nullSpender ⟨2⟩, [], []⟩] ∧
    ¬ ([nullSpender ⟨1⟩, nullSpender ⟨2⟩].flatMap fun tx => spendable tx.inputPts).Nodup :=
  ⟨by decide, by decide⟩

end Samples

end Ckb
