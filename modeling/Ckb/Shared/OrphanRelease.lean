import Ckb.Shared.PoolRuns

/-!
# Refs counts of the orphan pool

`OrphanPool::add_tx` sets an orphan's `refs_count` to the number of its
unknown out-points and appends its id to the edge of each; when an out-point
becomes known, `remove_by_ancestor` takes one off the count of each id its
edge lists and releases the orphans that reach zero.  The count is meant to
be the number of times the edges list the orphan.

`vertices.insert` replaces an orphan added again, count included, while the
edges keep the ids of the first addition: an orphan added twice is listed
twice under each out-point it waits for, and one of them becoming known
takes its count down twice (`addTx_twice_releases_early`).  A count taken
below zero panics; it does not while every orphan the edge lists is listed no
more often than its count (`Counted`).
-/

namespace Ckb

namespace OrphanPool

section Release

/-- The lists the edges hold for an out-point, none for an out-point without
an edge. -/
def waitingOn (pool : OrphanPool) (outPoint : OutPoint) : List ProposalShortId :=
  (LinkedMap.get? pool.edges outPoint).getD []

theorem waitingOn_addTx (pool : OrphanPool) (cycles : Option Nat) (size : Nat) (tx : Transaction)
    (unknown : List OutPoint) (outPoint : OutPoint) (id : ProposalShortId) :
    ((pool.addTx cycles size tx unknown).1.waitingOn outPoint).count id =
      (pool.waitingOn outPoint).count id +
        if tx.proposalShortId = id then unknown.count outPoint else 0 := by
  unfold addTx waitingOn
  simp only
  -- the loop of `add_tx` over the unknown out-points, from any edges
  induction unknown generalizing pool with
  | nil => simp
  | cons first rest induction =>
      rw [List.foldl_cons]
      have step := induction ⟨pool.vertices,
        Entries.upsert first [] (fun ids => ids ++ [tx.proposalShortId]) pool.edges⟩
      simp only at step
      rw [step, Entries.get?_upsert]
      by_cases atFirst : outPoint = first
      · subst atFirst
        by_cases same : tx.proposalShortId = id
        · simp [same]
          omega
        · simp [same]
      · by_cases same : tx.proposalShortId = id
        · simp [atFirst, same, Ne.symm atFirst]
        · simp [atFirst, same]

theorem get?_vertices_addTx (pool : OrphanPool) (cycles : Option Nat) (size : Nat)
    (tx : Transaction) (unknown : List OutPoint) :
    LinkedMap.get? (pool.addTx cycles size tx unknown).1.vertices tx.proposalShortId =
      some ⟨tx, unknown.length, cycles, size⟩ := by
  simp [addTx]

variable {state state' : OrphanPool × List DefectEntry} {id cid : ProposalShortId}

theorem releaseId_of_absent (absent : LinkedMap.get? state.1.vertices cid = none) :
    releaseId state cid = .ok state := by
  simp [releaseId, absent]

theorem releaseId_of_present {entry : DefectEntry}
    (found : LinkedMap.get? state.1.vertices cid = some entry) (waiting : 0 < entry.refsCount) :
    releaseId state cid = .ok (if entry.refsCount - 1 = 0 then
        ({ state.1 with vertices := (LinkedMap.remove state.1.vertices cid).1 },
          state.2 ++ [{ entry with refsCount := entry.refsCount - 1 }])
      else ({ state.1 with vertices := (LinkedMap.modify state.1.vertices cid
          fun _ => { entry with refsCount := entry.refsCount - 1 }) }, state.2)) := by
  have decremented : Checked.subOrPanic entry.refsCount 1 = .ok (entry.refsCount - 1) :=
    Checked.subOrPanic_eq_ok_iff.mpr ⟨rfl, waiting⟩
  simp only [releaseId, found, decremented, Except.ok_bind]
  split <;> rfl

/-- Every orphan but those `except` names is listed in `ids` no more often
than its count says. -/
def Counted (except : ProposalShortId → Prop) (ids : List ProposalShortId)
    (state : OrphanPool × List DefectEntry) : Prop :=
  ∀ other entry, ¬except other → LinkedMap.get? state.1.vertices other = some entry →
    ids.count other ≤ entry.refsCount

/-- The step on a counted orphan does not panic, only adds to what was
released, leaves the other orphans as they were, and keeps the rest of the
list counted. -/
theorem Counted.step {except : ProposalShortId → Prop} {ids : List ProposalShortId}
    (counted : Counted except (cid :: ids) state) (uncounted : ¬except cid) :
    ∃ state', releaseId state cid = .ok state' ∧ (∃ more, state'.2 = state.2 ++ more) ∧
      (∀ other, other ≠ cid →
        LinkedMap.get? state'.1.vertices other = LinkedMap.get? state.1.vertices other) ∧
      Counted except ids state' := by
  cases found : LinkedMap.get? state.1.vertices cid with
  | none =>
      refine ⟨state, releaseId_of_absent found, ⟨[], by simp⟩, fun _ _ => rfl,
        fun other entry excepted held => ?_⟩
      exact List.count_le_count_cons.trans (counted other entry excepted held)
  | some entry =>
      have listed := counted cid entry uncounted found
      rw [List.count_cons_self] at listed
      have framed : ∀ other, other ≠ cid →
          LinkedMap.get? (if entry.refsCount - 1 = 0 then
            ({ state.1 with vertices := (LinkedMap.remove state.1.vertices cid).1 },
              state.2 ++ [{ entry with refsCount := entry.refsCount - 1 }])
          else ({ state.1 with vertices := (LinkedMap.modify state.1.vertices cid
              fun _ => { entry with refsCount := entry.refsCount - 1 }) }, state.2)).1.vertices other =
            LinkedMap.get? state.1.vertices other := by
        intro other differs
        split
        · exact LinkedMap.get?_remove.trans (if_neg (Ne.symm differs))
        · rw [LinkedMap.get?_modify, if_neg differs]
      refine ⟨_, releaseId_of_present found (by omega), ?_, framed,
        fun other entry' excepted held => ?_⟩
      · split
        · exact ⟨_, rfl⟩
        · exact ⟨[], by simp⟩
      · by_cases same : other = cid
        · -- the orphan just handled: one listing and one count fewer, or gone
          subst same
          split at held
          · simp [LinkedMap.get?_remove] at held
          · rw [LinkedMap.get?_modify, if_pos rfl, found, Option.map_some, Option.some.injEq] at held
            subst held
            simp only
            omega
        · rw [framed other same] at held
          exact List.count_le_count_cons.trans (counted other entry' excepted held)

/-- The loop over the ids of one edge never panics while every orphan is
counted, and only adds to what was released. -/
theorem foldlM_releaseId_ok :
    ∀ (ids : List ProposalShortId) (state : OrphanPool × List DefectEntry),
      Counted (fun _ => False) ids state →
      ∃ result, ids.foldlM releaseId state = .ok result ∧ ∃ more, result.2 = state.2 ++ more
  | [], state, _ => ⟨state, rfl, [], by simp⟩
  | cid :: rest, state, counted => by
      obtain ⟨state', stepped, ⟨first, kept⟩, -, counted'⟩ := counted.step not_false
      obtain ⟨result, folded, later, keptLater⟩ := foldlM_releaseId_ok rest state' counted'
      refine ⟨result, ?_, first ++ later, ?_⟩
      · rw [List.foldlM_cons, stepped, Except.ok_bind, folded]
      · rw [keptLater, kept, List.append_assoc]

/-- An orphan listed at least as often as its count, among orphans otherwise
counted, is released by the loop, which does not panic. -/
theorem foldlM_releaseId_releases {entry : DefectEntry} :
    ∀ (ids : List ProposalShortId) (state : OrphanPool × List DefectEntry),
      Counted (· = id) ids state → LinkedMap.get? state.1.vertices id = some entry →
      0 < entry.refsCount → entry.refsCount ≤ ids.count id →
      ∃ result, ids.foldlM releaseId state = .ok result ∧
        entry.transaction ∈ result.2.map DefectEntry.transaction
  | [], _, _, _, waiting, enough => by
      simp at enough
      omega
  | cid :: rest, state, others, found, waiting, enough => by
      by_cases atId : cid = id
      · subst cid
        rw [List.count_cons_self] at enough
        rw [List.foldlM_cons, releaseId_of_present found waiting, Except.ok_bind]
        by_cases last : entry.refsCount - 1 = 0
        · -- released here; the rest of the loop only adds to the released entries
          rw [if_pos last]
          have counted : Counted (fun _ => False) rest ({ state.1 with
              vertices := (LinkedMap.remove state.1.vertices id).1 },
              state.2 ++ [{ entry with refsCount := entry.refsCount - 1 }]) := by
            intro other entry' _ held
            by_cases same : other = id
            · subst other
              simp [LinkedMap.get?_remove] at held
            · rw [show LinkedMap.get? (LinkedMap.remove state.1.vertices id).1 other =
                LinkedMap.get? state.1.vertices other from
                  LinkedMap.get?_remove.trans (if_neg (Ne.symm same))] at held
              have listed := others other entry' same held
              rwa [List.count_cons_of_ne (Ne.symm same)] at listed
          obtain ⟨result, folded, more, kept⟩ := foldlM_releaseId_ok rest _ counted
          refine ⟨result, folded, ?_⟩
          rw [kept, List.map_append, List.map_append]
          exact List.mem_append_left _ (List.mem_append_right _ (List.mem_singleton_self _))
        · -- still waiting, with one fewer
          rw [if_neg last]
          refine @foldlM_releaseId_releases { entry with refsCount := entry.refsCount - 1 } rest _
            (fun other entry' differs held => ?_) ?_ (Nat.pos_of_ne_zero last)
            (show entry.refsCount - 1 ≤ rest.count id by omega)
          · rw [LinkedMap.get?_modify, if_neg differs] at held
            have listed := others other entry' differs held
            rwa [List.count_cons_of_ne (Ne.symm differs)] at listed
          · rw [LinkedMap.get?_modify, if_pos rfl, found]
            rfl
      · obtain ⟨state', stepped, -, framed, counted'⟩ := others.step atId
        rw [List.foldlM_cons, stepped, Except.ok_bind]
        exact foldlM_releaseId_releases rest state' counted' ((framed id (Ne.symm atId)).trans found)
          waiting (by rwa [List.count_cons_of_ne atId] at enough)

/-- One out-point of `remove_by_ancestor` becoming known releases every orphan
its edge lists at least as many times as the orphan's count, when the other
orphans it lists are counted. -/
theorem releaseOutput_releases {pool : OrphanPool} {released : List DefectEntry}
    {outPoint : OutPoint} {entry : DefectEntry}
    (others : ∀ other entry', other ≠ id → LinkedMap.get? pool.vertices other = some entry' →
      (pool.waitingOn outPoint).count other ≤ entry'.refsCount)
    (found : LinkedMap.get? pool.vertices id = some entry) (waiting : 0 < entry.refsCount)
    (enough : entry.refsCount ≤ (pool.waitingOn outPoint).count id) :
    ∃ result, releaseOutput (pool, released) outPoint = .ok result ∧
      entry.transaction ∈ result.2.map DefectEntry.transaction :=
  foldlM_releaseId_releases _ _ others found waiting enough

/-- An orphan added twice, waiting for at most two out-points, is released
as soon as any one of them becomes known, among other orphans that are
counted. -/
theorem addTx_twice_releases_early (pool : OrphanPool) (cycles : Option Nat) (size : Nat)
    (tx : Transaction) {unknown : List OutPoint} {outPoint : OutPoint} (member : outPoint ∈ unknown)
    (few : unknown.length ≤ 2) (released : List DefectEntry)
    (counted : ∀ other entry, other ≠ tx.proposalShortId →
      LinkedMap.get? pool.vertices other = some entry →
      (pool.waitingOn outPoint).count other ≤ entry.refsCount) :
    ∃ result, releaseOutput (((pool.addTx cycles size tx unknown).1.addTx cycles size tx
        unknown).1, released) outPoint = .ok result ∧
      tx ∈ result.2.map DefectEntry.transaction := by
  have first := waitingOn_addTx pool cycles size tx unknown outPoint tx.proposalShortId
  have second := waitingOn_addTx (pool.addTx cycles size tx unknown).1 cycles size tx unknown
    outPoint tx.proposalShortId
  rw [if_pos rfl] at first second
  have once : 0 < unknown.count outPoint := List.count_pos_iff.mpr member
  have waiting : 0 < unknown.length := List.length_pos_of_mem member
  refine releaseOutput_releases (fun other entry differs held => ?_)
    (get?_vertices_addTx _ cycles size tx unknown) waiting ?_
  · -- the other orphans keep their entries and their listings
    have kept : ∀ (pool' : OrphanPool), LinkedMap.get? (pool'.addTx cycles size tx unknown).1.vertices
        other = LinkedMap.get? pool'.vertices other := fun pool' =>
      LinkedMap.get?_insert_of_ne differs
    rw [kept, kept] at held
    rw [waitingOn_addTx, waitingOn_addTx, if_neg (Ne.symm differs), Nat.add_zero]
    exact counted other entry differs held
  · show unknown.length ≤ _
    rw [second, first]
    omega

end Release

/-- The parent's output, and the output of a transaction the pool has never
seen. -/
def twoParentUnknown : List OutPoint :=
  [OutPoint.newCell parentTx.hash 0, OutPoint.newCell rivalTx.hash 0]

/-- An orphan waiting for both. -/
def twoParentTx : Transaction := spendingTx 4 twoParentUnknown

def twoParentOnce : OrphanPool := (new.addTx none 0 twoParentTx twoParentUnknown).1

def twoParentTwice : OrphanPool := (twoParentOnce.addTx none 0 twoParentTx twoParentUnknown).1

/-- Added once, the orphan stays when the parent arrives; added twice, the
parent alone releases it, the other output still unknown. -/
theorem reAddedOrphan_released_by_one_parent :
    (∃ result, releaseOutput (twoParentTwice, []) (OutPoint.newCell parentTx.hash 0) = .ok result ∧
        twoParentTx ∈ result.2.map DefectEntry.transaction) ∧
      (twoParentOnce.removeByAncestor parentTx).map Prod.snd = .ok [] ∧
      (twoParentTwice.removeByAncestor parentTx).map (fun result =>
        result.2.map DefectEntry.transaction) = .ok [twoParentTx] :=
  ⟨addTx_twice_releases_early new none 0 twoParentTx (by decide) (by decide) []
      (fun _ _ _ held => by cases held), by decide, by decide⟩

end OrphanPool

end Ckb
