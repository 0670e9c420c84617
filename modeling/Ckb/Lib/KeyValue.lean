import Mathlib.Logic.Function.Basic
import Mathlib.Data.List.Basic

/-!
# Write batches over a key-value column

A column of a key-value store is a function from keys to optional values.  A
batch is a list of writes, each of which puts a value under a key or deletes
the key, and committing it applies the writes in order.  What a committed
column holds under a key is decided by the last write to that key alone:
`commit_apply` says so, and the other lemmas compute that last write for
batches built by appending and mapping.
-/

namespace KeyValue

variable {K V : Type} [DecidableEq K]

inductive Write (K V : Type) where
  | put (key : K) (value : V)
  | delete (key : K)
  deriving DecidableEq, Repr

namespace Write

def key : Write K V → K
  | put key _ => key
  | delete key => key

/-- What the write leaves under its key. -/
def value : Write K V → Option V
  | put _ value => some value
  | delete _ => none

end Write

def apply (column : K → Option V) (write : Write K V) : K → Option V :=
  Function.update column write.key write.value

def commit (column : K → Option V) (batch : List (Write K V)) : K → Option V :=
  batch.foldl apply column

/-- What the last write of the batch to `key` leaves there, if there is one. -/
def lastWrite : List (Write K V) → K → Option (Option V)
  | [], _ => none
  | write :: rest, key =>
    (lastWrite rest key).or (if write.key = key then some write.value else none)

@[simp] theorem lastWrite_nil (key : K) : lastWrite ([] : List (Write K V)) key = none := rfl

theorem commit_cons (column : K → Option V) (write : Write K V) (batch : List (Write K V)) :
    commit column (write :: batch) = commit (apply column write) batch := rfl

@[simp] theorem apply_put (column : K → Option V) (key : K) (value : V) :
    apply column (.put key value) = Function.update column key (some value) := rfl

@[simp] theorem apply_delete (column : K → Option V) (key : K) :
    apply column (.delete key) = Function.update column key none := rfl

theorem commit_apply (column : K → Option V) (batch : List (Write K V)) (key : K) :
    commit column batch key = (lastWrite batch key).getD (column key) := by
  induction batch generalizing column with
  | nil => rfl
  | cons write rest induction =>
      rw [commit_cons, induction]
      cases later : lastWrite rest key with
      | some value => simp [lastWrite, later]
      | none =>
          by_cases written : write.key = key
          · subst written
            simp [lastWrite, later, apply]
          · simp [lastWrite, later, written, apply, Function.update_of_ne (Ne.symm written)]

theorem commit_append (column : K → Option V) (first second : List (Write K V)) :
    commit column (first ++ second) = commit (commit column first) second := by
  simp [commit, List.foldl_append]

theorem lastWrite_append (first second : List (Write K V)) (key : K) :
    lastWrite (first ++ second) key = (lastWrite second key).or (lastWrite first key) := by
  induction first with
  | nil => simp
  | cons write rest induction =>
      simp only [List.cons_append, lastWrite, induction, Option.or_assoc]

theorem lastWrite_map_delete (keys : List K) (key : K) :
    lastWrite (keys.map fun deleted => (Write.delete deleted : Write K V)) key =
      if key ∈ keys then some none else none := by
  induction keys with
  | nil => simp
  | cons first rest induction =>
      simp only [List.map_cons, lastWrite, induction, Write.key, Write.value, List.mem_cons]
      by_cases later : key ∈ rest
      · simp [later]
      · by_cases same : first = key
        · simp [later, same]
        · simp [later, same, Ne.symm same]

theorem commit_cons_of_ne (column : K → Option V) {write : Write K V} {key : K}
    (other : write.key ≠ key) (batch : List (Write K V)) :
    commit column (write :: batch) key = commit column batch key := by
  rw [commit_apply, commit_apply]
  simp [lastWrite, other]

theorem commit_delete_of_mem (column : K → Option V) {keys : List K} {key : K}
    (deleted : key ∈ keys) :
    commit column (keys.map fun deleted => (Write.delete deleted : Write K V)) key = none := by
  rw [commit_apply, lastWrite_map_delete, if_pos deleted]
  rfl

theorem lastWrite_eq_some {batch : List (Write K V)} {key : K} {value : Option V}
    (found : lastWrite batch key = some value) :
    ∃ write ∈ batch, write.key = key ∧ write.value = value := by
  induction batch with
  | nil => simp at found
  | cons write rest induction =>
      cases later : lastWrite rest key with
      | some laterValue =>
          rw [lastWrite, later, Option.some_or] at found
          obtain ⟨other, member, sameKey, sameValue⟩ := induction (found ▸ later)
          exact ⟨other, List.mem_cons_of_mem _ member, sameKey, sameValue⟩
      | none =>
          rw [lastWrite, later, Option.none_or] at found
          by_cases written : write.key = key
          · rw [if_pos written, Option.some.injEq] at found
            exact ⟨write, List.mem_cons_self, written, found⟩
          · rw [if_neg written] at found
            cases found

theorem lastWrite_isSome_of_mem {batch : List (Write K V)} {write : Write K V}
    (member : write ∈ batch) : (lastWrite batch write.key).isSome := by
  induction batch with
  | nil => simp at member
  | cons first rest induction =>
      rcases List.mem_cons.mp member with rfl | later
      · cases lastWrite rest write.key <;> simp [lastWrite]
      · have found := induction later
        rw [Option.isSome_iff_exists] at found
        obtain ⟨value, found⟩ := found
        simp [lastWrite, found]

theorem commit_cases (column : K → Option V) (batch : List (Write K V)) (key : K) :
    commit column batch key = column key ∨
      ∃ write ∈ batch, write.key = key ∧ commit column batch key = write.value := by
  rw [commit_apply]
  cases found : lastWrite batch key with
  | none => exact .inl rfl
  | some value =>
      obtain ⟨write, member, sameKey, sameValue⟩ := lastWrite_eq_some found
      exact .inr ⟨write, member, sameKey, sameValue.symm⟩

theorem commit_of_mem (column : K → Option V) {batch : List (Write K V)} {write : Write K V}
    (member : write ∈ batch) :
    ∃ write' ∈ batch, write'.key = write.key ∧ commit column batch write.key = write'.value := by
  have found := lastWrite_isSome_of_mem member
  rw [Option.isSome_iff_exists] at found
  obtain ⟨value, found⟩ := found
  obtain ⟨write', member', sameKey, sameValue⟩ := lastWrite_eq_some found
  refine ⟨write', member', sameKey, ?_⟩
  rw [commit_apply, found, sameValue]
  rfl

theorem commit_congr {column column' : K → Option V} {key : K}
    (same : column key = column' key) (batch : List (Write K V)) :
    commit column batch key = commit column' batch key := by
  rw [commit_apply, commit_apply, same]

/-! ### Deleting some items' keys, then putting others' -/

section Replace

variable {α : Type} (key : α → K) (value : α → V)

theorem lastWrite_map_put_of_ne {items : List α} {target : K}
    (absent : ∀ item ∈ items, key item ≠ target) :
    lastWrite (items.map fun item => Write.put (key item) (value item)) target = none := by
  induction items with
  | nil => rfl
  | cons first rest induction =>
      rw [List.forall_mem_cons] at absent
      simp only [List.map_cons, lastWrite, induction absent.2, Write.key, Option.none_or]
      exact if_neg absent.1

theorem lastWrite_map_put {items : List α} (distinct : (items.map key).Nodup) {item : α}
    (member : item ∈ items) :
    lastWrite (items.map fun item => Write.put (key item) (value item)) (key item) =
      some (some (value item)) := by
  induction items with
  | nil => cases member
  | cons first rest induction =>
      have parts := List.nodup_cons.mp distinct
      rcases List.mem_cons.mp member with rfl | later
      · -- no later put has the item's key
        have absent : ∀ other ∈ rest, key other ≠ key item :=
          fun other otherMember same => parts.1 (List.mem_map.mpr ⟨other, otherMember, same⟩)
        simp [lastWrite, lastWrite_map_put_of_ne key value absent, Write.key, Write.value]
      · simp only [List.map_cons, lastWrite, induction parts.2 later, Option.some_or]

theorem commit_deletes_puts_of_put (column : K → Option V) (deleted : List α) {put : List α}
    (distinct : (put.map key).Nodup) {item : α} (member : item ∈ put) :
    commit column (deleted.map (fun item => Write.delete (key item)) ++
      put.map fun item => Write.put (key item) (value item)) (key item) = some (value item) := by
  rw [commit_apply, lastWrite_append, lastWrite_map_put key value distinct member, Option.some_or]
  rfl

theorem lastWrite_map_delete_key (deleted : List α) (target : K) :
    lastWrite (deleted.map fun item => (Write.delete (key item) : Write K V)) target =
      if target ∈ deleted.map key then some none else none := by
  rw [← lastWrite_map_delete (deleted.map key) target, List.map_map]
  rfl

theorem commit_deletes_puts_of_deleted (column : K → Option V) {deleted put : List α}
    {target : K} (notPut : ∀ item ∈ put, key item ≠ target) (wasDeleted : target ∈ deleted.map key) :
    commit column (deleted.map (fun item => Write.delete (key item)) ++
      put.map fun item => Write.put (key item) (value item)) target = none := by
  rw [commit_apply, lastWrite_append, lastWrite_map_put_of_ne key value notPut, Option.none_or,
    lastWrite_map_delete_key, if_pos wasDeleted]
  rfl

theorem commit_deletes_puts_of_untouched (column : K → Option V) {deleted put : List α}
    {target : K} (notPut : ∀ item ∈ put, key item ≠ target) (notDeleted : target ∉ deleted.map key) :
    commit column (deleted.map (fun item => Write.delete (key item)) ++
      put.map fun item => Write.put (key item) (value item)) target = column target := by
  rw [commit_apply, lastWrite_append, lastWrite_map_put_of_ne key value notPut, Option.none_or,
    lastWrite_map_delete_key, if_neg notDeleted]
  rfl

end Replace

/-! ### Columns that only grow -/

/-- Everything `column` holds, `column'` holds too. -/
def Extends (column column' : K → Option V) : Prop :=
  ∀ key value, column key = some value → column' key = some value

omit [DecidableEq K] in
theorem Extends.trans {column column' column'' : K → Option V} (first : Extends column column')
    (second : Extends column' column'') : Extends column column'' :=
  fun key value stored => second key value (first key value stored)

omit [DecidableEq K] in
theorem Extends.antisymm {column column' : K → Option V} (forward : Extends column column')
    (backward : Extends column' column) : column = column' := by
  funext key
  cases stored : column key with
  | none =>
      cases stored' : column' key with
      | none => rfl
      | some value =>
          rw [backward key value stored'] at stored
          cases stored
  | some value => exact (forward key value stored).symm

theorem extends_update_of_none {column : K → Option V} {key : K} (fresh : column key = none)
    (value : V) : Extends column (Function.update column key (some value)) := by
  intro other stored found
  have different : other ≠ key := by
    rintro rfl
    rw [fresh] at found
    cases found
  rw [Function.update_of_ne different]
  exact found

theorem Extends.update {column column' : K → Option V} (within : Extends column column')
    {key : K} {value : V} (put : column' key = some value) :
    Extends (Function.update column key (some value)) column' := by
  intro other stored found
  by_cases atKey : other = key
  · subst atKey
    rw [Function.update_self] at found
    rw [← found]
    exact put
  · rw [Function.update_of_ne atKey] at found
    exact within other stored found

end KeyValue
