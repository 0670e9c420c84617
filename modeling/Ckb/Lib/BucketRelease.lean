import Mathlib.Data.List.Basic
import Ckb.Lib.LinkedMap

/-!
# Breadth-first release of buckets

Items wait in buckets, one bucket per key, each item in the bucket of its
parent's key.  Releasing a key pops it from a queue, takes its bucket out,
and queues the keys of the bucket's items, until the queue is empty: the
items released are those that descend from the first key through waiting
items, each once, each after an item holding its parent's key, and the
buckets keep the others.

The loop runs on fuel.  One round lowers the queue's length plus the number
of items waiting by one, so that sum is enough fuel (`Invariant.release`).
-/

namespace Buckets

variable {K α : Type} [DecidableEq K]

/-- All the items waiting in the buckets. -/
def items (buckets : List (K × List α)) : List α := buckets.flatMap Prod.snd

/-- Pop a key, take its bucket out, and queue the keys of its items. -/
def release (key : α → K) : Nat → List (K × List α) → List K → List α → List (K × List α) × List α
  | 0, buckets, _, released => (buckets, released)
  | _ + 1, buckets, [], released => (buckets, released)
  | fuel + 1, buckets, next :: queue, released =>
    match LinkedMap.remove buckets next with
    | (_, none) => release key fuel buckets queue released
    | (rest, some bucket) => release key fuel rest (queue ++ bucket.map key) (released ++ bucket)

/-- Each key has one bucket, and each item waits once, in the bucket of its
parent's key. -/
structure Filed (parent : α → K) (buckets : List (K × List α)) : Prop where
  keys_nodup : (buckets.map Prod.fst).Nodup
  parent_eq : ∀ entry ∈ buckets, ∀ item ∈ entry.2, parent item = entry.1
  bucket_nodup : ∀ entry ∈ buckets, entry.2.Nodup

/-- The items of a list that descend from the key `root` through items of the list. -/
inductive Descends (parent key : α → K) (items : List α) (root : K) : α → Prop
  | child {item : α} : item ∈ items → parent item = root → Descends parent key items root item
  | grandchild {item above : α} : Descends parent key items root above → item ∈ items →
      parent item = key above → Descends parent key items root item

/-- Each item follows an item holding its parent's key, unless its parent's
key is the root. -/
def FollowsParent (parent key : α → K) (root : K) (released : List α) : Prop :=
  ∀ n (bound : n < released.length),
    parent released[n] = root ∨ ∃ above ∈ released.take n, key above = parent released[n]

section Filed

variable {parent : α → K} {buckets : List (K × List α)}

omit [DecidableEq K] in
theorem mem_items {item : α} : item ∈ items buckets ↔ ∃ entry ∈ buckets, item ∈ entry.2 :=
  List.mem_flatMap

omit [DecidableEq K] in
theorem Filed.sublist {smaller : List (K × List α)} (filed : Filed parent buckets)
    (sub : smaller.Sublist buckets) : Filed parent smaller := by
  constructor
  · exact filed.keys_nodup.sublist (sub.map Prod.fst)
  · intro entry member
    exact filed.parent_eq entry (sub.subset member)
  · intro entry member
    exact filed.bucket_nodup entry (sub.subset member)

theorem Filed.mem_get?_iff (filed : Filed parent buckets) {next : K} {item : α} :
    item ∈ (LinkedMap.get? buckets next).getD [] ↔ item ∈ items buckets ∧ parent item = next := by
  constructor
  · intro member
    cases found : LinkedMap.get? buckets next with
    | none =>
        rw [found] at member
        cases member
    | some bucket =>
        rw [found, Option.getD_some] at member
        have entry := (LinkedMap.mem_iff_get?_of_nodup filed.keys_nodup).mpr found
        exact ⟨mem_items.mpr ⟨_, entry, member⟩, filed.parent_eq _ entry item member⟩
  · rintro ⟨held, rfl⟩
    obtain ⟨⟨entryKey, bucket⟩, entry, member⟩ := mem_items.mp held
    rw [filed.parent_eq _ entry item member,
      (LinkedMap.mem_iff_get?_of_nodup filed.keys_nodup).mp entry]
    exact member

theorem Filed.mem_items_remove (filed : Filed parent buckets) {next : K} {item : α} :
    item ∈ items (LinkedMap.remove buckets next).1 ↔ item ∈ items buckets ∧ parent item ≠ next := by
  simp only [LinkedMap.remove, mem_items, List.mem_filter, bne_iff_ne, ne_eq]
  constructor
  · rintro ⟨entry, ⟨member, differs⟩, held⟩
    refine ⟨⟨entry, member, held⟩, ?_⟩
    rw [filed.parent_eq entry member item held]
    exact differs
  · rintro ⟨⟨entry, member, held⟩, differs⟩
    refine ⟨entry, ⟨member, ?_⟩, held⟩
    rw [← filed.parent_eq entry member item held]
    exact differs

theorem length_items_remove (nodup : (buckets.map Prod.fst).Nodup) (next : K) :
    (items buckets).length =
      (items (LinkedMap.remove buckets next).1).length +
        ((LinkedMap.get? buckets next).getD []).length := by
  induction buckets with
  | nil => rfl
  | cons entry rest induction =>
      obtain ⟨entryKey, bucket⟩ := entry
      rw [List.map_cons, List.nodup_cons] at nodup
      by_cases atKey : entryKey = next
      · subst atKey
        have kept : rest.filter (fun entry => entry.1 != entryKey) = rest := by
          apply List.filter_eq_self.mpr
          intro entry member
          have differs : entry.1 ≠ entryKey := by
            intro same
            apply nodup.1
            rw [← same]
            exact List.mem_map.mpr ⟨entry, member, rfl⟩
          simpa using differs
        simp only [items, LinkedMap.remove, List.filter_cons, bne_self_eq_false, Bool.false_eq_true,
          if_false, kept, LinkedMap.get?_cons, if_true, Option.getD_some, List.flatMap_cons,
          List.length_append]
        omega
      · have shorter := induction nodup.2
        simp only [items, LinkedMap.remove] at shorter
        simp only [items, LinkedMap.remove, List.filter_cons, bne_iff_ne, ne_eq, atKey,
          not_false_eq_true, if_true, LinkedMap.get?_cons, if_false,
          List.flatMap_cons, List.length_append]
        omega

end Filed

/-! ### The loop -/

section Loop

variable {parent key : α → K} {start : List (K × List α)} {root : K}

/-- What the loop keeps, for the buckets `start` it began from and its first
key `root`: the buckets lose exactly the released items, each released item
descends from the root, each queued key is the root's or a released item's,
and each such key is queued or its bucket is gone. -/
structure Invariant (parent key : α → K) (start : List (K × List α)) (root : K)
    (buckets : List (K × List α)) (queue : List K) (released : List α) : Prop where
  sublist : buckets.Sublist start
  mem_items : ∀ item, item ∈ items buckets ↔ item ∈ items start ∧ item ∉ released
  nodup : released.Nodup
  descends : ∀ item ∈ released, Descends parent key (items start) root item
  queued : ∀ next ∈ queue, next = root ∨ ∃ item ∈ released, key item = next
  closed : ∀ next, (next = root ∨ ∃ item ∈ released, key item = next) →
    next ∈ queue ∨ LinkedMap.get? buckets next = none
  follows : FollowsParent parent key root released

theorem Invariant.initial : Invariant parent key start root start [root] [] := by
  constructor
  · exact List.Sublist.refl start
  · intro item
    simp
  · exact List.nodup_nil
  · intro item member
    cases member
  · intro next member
    exact Or.inl (List.mem_singleton.mp member)
  · rintro next (rfl | ⟨item, member, _⟩)
    · exact Or.inl (List.mem_singleton_self next)
    · cases member
  · intro n bound
    cases bound

variable {buckets : List (K × List α)} {next : K} {queue : List K} {released : List α}

theorem Invariant.skip (invariant : Invariant parent key start root buckets (next :: queue) released)
    (absent : LinkedMap.get? buckets next = none) :
    Invariant parent key start root buckets queue released := by
  constructor
  · exact invariant.sublist
  · exact invariant.mem_items
  · exact invariant.nodup
  · exact invariant.descends
  · intro other member
    exact invariant.queued other (List.mem_cons_of_mem next member)
  · intro other reached
    rcases invariant.closed other reached with queued | gone
    · rcases List.mem_cons.mp queued with rfl | later
      · exact Or.inr absent
      · exact Or.inl later
    · exact Or.inr gone
  · exact invariant.follows

theorem closed_after_pop {other : K} {rest : List K}
    (before : other ∈ next :: queue ∨ LinkedMap.get? buckets other = none) :
    other ∈ queue ++ rest ∨ LinkedMap.get? (LinkedMap.remove buckets next).1 other = none := by
  rcases before with queued | gone
  · rcases List.mem_cons.mp queued with same | later
    · rw [same]
      exact Or.inr (LinkedMap.get?_remove.trans (if_pos rfl))
    · exact Or.inl (List.mem_append_left _ later)
  · exact Or.inr (LinkedMap.get?_remove_of_none gone)

theorem Invariant.take (filed : Filed parent start)
    (invariant : Invariant parent key start root buckets (next :: queue) released)
    {bucket : List α} (found : LinkedMap.get? buckets next = some bucket) :
    Invariant parent key start root (LinkedMap.remove buckets next).1 (queue ++ bucket.map key)
      (released ++ bucket) := by
  have filedNow := filed.sublist invariant.sublist
  -- the bucket holds exactly the waiting items whose parent has the popped key
  have inBucket : ∀ item, item ∈ bucket ↔ item ∈ items buckets ∧ parent item = next := by
    intro item
    rw [← filedNow.mem_get?_iff, found, Option.getD_some]
  have origin := invariant.queued next List.mem_cons_self
  constructor
  · exact List.filter_sublist.trans invariant.sublist
  · intro item
    rw [filedNow.mem_items_remove, invariant.mem_items, List.mem_append, inBucket,
      invariant.mem_items]
    tauto
  · rw [List.nodup_append]
    refine ⟨invariant.nodup, filedNow.bucket_nodup _
      ((LinkedMap.mem_iff_get?_of_nodup filedNow.keys_nodup).mpr found), ?_⟩
    intro item member other otherMember same
    subst same
    exact ((invariant.mem_items item).mp ((inBucket item).mp otherMember).1).2 member
  · intro item member
    rcases List.mem_append.mp member with earlier | taken
    · exact invariant.descends item earlier
    · obtain ⟨waiting, parentKey⟩ := (inBucket item).mp taken
      have held := ((invariant.mem_items item).mp waiting).1
      rcases origin with rfl | ⟨above, aboveMember, rfl⟩
      · exact .child held parentKey
      · exact .grandchild (invariant.descends above aboveMember) held parentKey
  · intro other member
    rcases List.mem_append.mp member with queued | pushed
    · rcases invariant.queued other (List.mem_cons_of_mem next queued) with rfl | ⟨item, held, rfl⟩
      · exact Or.inl rfl
      · exact Or.inr ⟨item, List.mem_append_left _ held, rfl⟩
    · obtain ⟨item, taken, rfl⟩ := List.mem_map.mp pushed
      exact Or.inr ⟨item, List.mem_append_right _ taken, rfl⟩
  · rintro other (rfl | ⟨item, member, rfl⟩)
    · exact closed_after_pop (invariant.closed _ (Or.inl rfl))
    · rcases List.mem_append.mp member with earlier | taken
      · exact closed_after_pop (invariant.closed _ (Or.inr ⟨item, earlier, rfl⟩))
      · exact Or.inl (List.mem_append_right _ (List.mem_map_of_mem taken))
  · intro n bound
    by_cases old : n < released.length
    · rw [List.getElem_append_left old, List.take_append_of_le_length (Nat.le_of_lt old)]
      exact invariant.follows n old
    · -- a newly released item waited under the popped key
      have taken : (released ++ bucket)[n] ∈ bucket := by
        rw [List.getElem_append_right (Nat.le_of_not_lt old)]
        exact List.getElem_mem _
      have parentKey := ((inBucket _).mp taken).2
      rcases origin with rootKey | ⟨above, aboveMember, aboveKey⟩
      · exact Or.inl (parentKey.trans rootKey)
      · refine Or.inr ⟨above, ?_, aboveKey.trans parentKey.symm⟩
        rw [List.take_append, List.take_of_length_le (Nat.le_of_not_lt old)]
        exact List.mem_append_left _ aboveMember

/-- With fuel for every round, the loop ends with an empty queue. -/
theorem Invariant.release (filed : Filed parent start) :
    ∀ (fuel : Nat) (buckets : List (K × List α)) (queue : List K) (released : List α),
      Invariant parent key start root buckets queue released →
        queue.length + (items buckets).length ≤ fuel →
          Invariant parent key start root (Buckets.release key fuel buckets queue released).1 []
            (Buckets.release key fuel buckets queue released).2
  | 0, buckets, queue, released, invariant, enough => by
      have empty : queue = [] := List.eq_nil_of_length_eq_zero (by omega)
      subst empty
      exact invariant
  | fuel + 1, buckets, [], released, invariant, _ => invariant
  | fuel + 1, buckets, next :: queue, released, invariant, enough => by
      have nodup := (filed.sublist invariant.sublist).keys_nodup
      have lengths := length_items_remove nodup next
      cases found : LinkedMap.get? buckets next with
      | none =>
          simp only [Buckets.release, LinkedMap.remove, found]
          refine Invariant.release filed fuel buckets queue released (invariant.skip found) ?_
          rw [List.length_cons] at enough
          omega
      | some bucket =>
          simp only [Buckets.release, LinkedMap.remove, found]
          refine Invariant.release filed fuel _ _ _ (invariant.take filed found) ?_
          rw [found, Option.getD_some] at lengths
          simp only [LinkedMap.remove] at lengths
          rw [List.length_cons] at enough
          rw [List.length_append, List.length_map]
          omega

theorem Invariant.mem_of_descends (filed : Filed parent start)
    (invariant : Invariant parent key start root buckets [] released) {item : α}
    (descends : Descends parent key (items start) root item) : item ∈ released := by
  have filedNow := filed.sublist invariant.sublist
  have gone : ∀ {item}, item ∈ items start → LinkedMap.get? buckets (parent item) = none →
      item ∈ released := by
    intro item held absent
    by_contra missing
    have waiting := (invariant.mem_items item).mpr ⟨held, missing⟩
    have inBucket := filedNow.mem_get?_iff.mpr ⟨waiting, rfl⟩
    rw [absent] at inBucket
    cases inBucket
  induction descends with
  | child held rootParent =>
      apply gone held
      rw [rootParent]
      exact (invariant.closed _ (Or.inl rfl)).resolve_left List.not_mem_nil
  | grandchild _ held keyParent above =>
      apply gone held
      rw [keyParent]
      exact (invariant.closed _ (Or.inr ⟨_, above, rfl⟩)).resolve_left List.not_mem_nil

end Loop

omit [DecidableEq K] in
theorem FollowsParent.idxOf_lt [DecidableEq α] {parent key : α → K} {root : K}
    {released : List α} (follows : FollowsParent parent key root released) {item above : α}
    (member : item ∈ released) (aboveMember : above ∈ released) (link : key above = parent item)
    (notRoot : key above ≠ root) (unique : ∀ other ∈ released, key other = key above → other = above) :
    released.idxOf above < released.idxOf item := by
  have bound := List.idxOf_lt_length_of_mem member
  have atIndex : released[released.idxOf item] = item := List.getElem_idxOf bound
  rcases follows _ bound with rootParent | ⟨earlier, earlierMember, earlierKey⟩
  · rw [atIndex, ← link] at rootParent
    exact absurd rootParent notRoot
  · rw [atIndex, ← link] at earlierKey
    have same := unique earlier (List.mem_of_mem_take earlierMember) earlierKey
    rw [same] at earlierMember
    exact (List.mem_take_iff_idxOf_lt aboveMember).mp earlierMember

end Buckets
