import Mathlib.Data.List.Basic

/-!
# Linked hash maps and LRU caches

A `LinkedHashMap` is a hash map that remembers the order of its entries: a
list of entries, one per key.  `insert` on a key it holds replaces the value
and moves the entry to the back, as the most recently inserted; `remove` and
`modify` keep the order of the others.  An `LruCache` of capacity `n` is such
a map that drops its front entry, the least recently used, once an insertion
takes it past `n` entries.  A `LinkedHashSet` is the list of its keys.  A hash map that is not linked is modelled the same
way; its order is then never read.
-/

namespace LinkedMap

variable {K V : Type} [DecidableEq K]

def get? (entries : List (K × V)) (key : K) : Option V :=
  (entries.find? fun entry => entry.1 == key).map Prod.snd

def contains (entries : List (K × V)) (key : K) : Bool :=
  entries.any fun entry => entry.1 == key

/-- `insert`: the key's entry moves to the back with the new value; the old
value is returned. -/
def insert (entries : List (K × V)) (key : K) (value : V) : List (K × V) × Option V :=
  (entries.filter (fun entry => entry.1 != key) ++ [(key, value)], get? entries key)

def remove (entries : List (K × V)) (key : K) : List (K × V) × Option V :=
  (entries.filter fun entry => entry.1 != key, get? entries key)

/-- `get_mut(key)` and a change in place. -/
def modify (entries : List (K × V)) (key : K) (change : V → V) : List (K × V) :=
  entries.map fun entry => if entry.1 = key then (entry.1, change entry.2) else entry

/-- `LruCache::insert`: an insertion that takes the cache past its capacity
drops the front entry. -/
def insertLru (capacity : Nat) (entries : List (K × V)) (key : K) (value : V) :
    List (K × V) × Option V :=
  let (entries, old) := insert entries key value
  (if capacity < entries.length then entries.drop 1 else entries, old)

/-- A loop over the entries that removes those whose key is picked: the
entries left, and the values removed in order. -/
def extract (entries : List (K × V)) (pick : K → Bool) : List (K × V) × List V :=
  (entries.filter fun entry => !pick entry.1, (entries.filter fun entry => pick entry.1).map Prod.snd)

section Lemmas

variable {entries : List (K × V)} {key : K} {value : V}

@[simp] theorem get?_insert_self : get? (insert entries key value).1 key = some value := by
  have gone : List.find? (fun entry : K × V =>
      decide ((entry.1 != key) = true ∧ (entry.1 == key) = true)) entries = none := by
    simp
  simp only [get?, insert, List.find?_append, List.find?_filter, gone, Option.none_or]
  simp

theorem get?_insert_of_ne {other : K} (differs : other ≠ key) :
    get? (insert entries key value).1 other = get? entries other := by
  have kept : (fun entry : K × V => decide ((entry.1 != key) = true ∧ (entry.1 == other) = true)) =
      (fun entry => entry.1 == other) := by
    funext entry
    by_cases same : entry.1 = other
    · simp [same, differs]
    · simp [same]
  have skipped : List.find? (fun entry : K × V => entry.1 == other) [(key, value)] = none := by
    simp [Ne.symm differs]
  simp only [get?, insert, List.find?_append, List.find?_filter, kept, skipped, Option.or_none]

theorem get?_remove {other : K} :
    get? (remove entries key).1 other = if key = other then none else get? entries other := by
  by_cases same : key = other
  · subst same
    rw [if_pos rfl, get?, remove, List.find?_filter, List.find?_eq_none.mpr]
    · rfl
    · intro entry _
      simp only [bne_iff_ne, ne_eq, beq_iff_eq, decide_eq_true_eq, not_and]
      exact fun differs same => absurd same differs
  · rw [if_neg same, get?, get?, remove, List.find?_filter]
    have kept : (fun entry : K × V => decide ((entry.1 != key) = true ∧ (entry.1 == other) = true)) =
        (fun entry => entry.1 == other) := by
      funext entry
      by_cases atOther : entry.1 = other
      · simp [atOther, Ne.symm same]
      · simp [atOther]
    rw [kept]

theorem get?_remove_of_none {other : K} (absent : get? entries other = none) :
    get? (remove entries key).1 other = none := by
  rw [get?_remove]
  split
  · rfl
  · exact absent

theorem isSome_get? : (get? entries key).isSome = contains entries key := by
  rw [get?, Option.isSome_map, Bool.eq_iff_iff, List.find?_isSome, contains, List.any_eq_true]

theorem get?_eq_none_of_contains_eq_false (absent : contains entries key = false) :
    get? entries key = none := by
  rw [get?, List.find?_eq_none.mpr (List.any_eq_false.mp absent), Option.map_none]

theorem insert_of_contains_eq_false (fresh : contains entries key = false) :
    (insert entries key value).1 = entries ++ [(key, value)] := by
  rw [insert, List.filter_eq_self.mpr]
  intro entry member
  have differs := (List.any_eq_false.mp fresh) entry member
  simpa using differs

theorem get?_foldl_insert_of_not_mem {keys : List K} (absent : key ∉ keys) :
    ∀ entries : List (K × V),
      get? (keys.foldl (fun entries other => (insert entries other value).1) entries) key =
        get? entries key := by
  induction keys with
  | nil => exact fun _ => rfl
  | cons first rest induction =>
      intro entries
      rw [List.mem_cons, not_or] at absent
      rw [List.foldl_cons, induction absent.2, get?_insert_of_ne absent.1]

theorem get?_foldl_insert {keys : List K} (member : key ∈ keys) :
    ∀ entries : List (K × V),
      get? (keys.foldl (fun entries other => (insert entries other value).1) entries) key =
        some value := by
  induction keys with
  | nil => cases member
  | cons first rest induction =>
      intro entries
      rw [List.foldl_cons]
      by_cases later : key ∈ rest
      · exact induction later _
      · -- the key is this one, and no later insertion touches it
        have same : key = first := by
          rcases List.mem_cons.mp member with same | inRest
          · exact same
          · exact absurd inRest later
        rw [get?_foldl_insert_of_not_mem later, same, get?_insert_self]

theorem get?_cons (entry : K × V) (rest : List (K × V)) (other : K) :
    get? (entry :: rest) other = if entry.1 = other then some entry.2 else get? rest other := by
  by_cases atOther : entry.1 = other
  · simp [get?, atOther]
  · simp [get?, atOther]

theorem get?_modify {change : V → V} {other : K} :
    get? (modify entries key change) other =
      if other = key then (get? entries key).map change else get? entries other := by
  induction entries with
  | nil => split <;> rfl
  | cons entry rest induction =>
      obtain ⟨entryKey, entryValue⟩ := entry
      simp only [modify, List.map_cons] at induction ⊢
      by_cases atKey : entryKey = key
      · subst atKey
        by_cases atOther : other = entryKey
        · subst atOther
          simp [get?_cons]
        · simp [get?_cons, atOther, Ne.symm atOther, induction]
      · by_cases atOther : other = key
        · subst atOther
          simp [get?_cons, atKey, induction]
        · simp [get?_cons, atKey, atOther, induction]

theorem keys_modify (change : V → V) :
    (modify entries key change).map Prod.fst = entries.map Prod.fst := by
  induction entries with
  | nil => rfl
  | cons entry rest induction =>
      simp only [modify, List.map_cons] at induction ⊢
      split <;> simp [induction]

theorem keys_insert_nodup (nodup : (entries.map Prod.fst).Nodup) :
    ((insert entries key value).1.map Prod.fst).Nodup := by
  rw [insert, List.map_append, List.nodup_append]
  refine ⟨nodup.sublist (List.Sublist.map Prod.fst List.filter_sublist), by simp, ?_⟩
  intro kept keptMember inserted insertedMember
  simp only [List.map_cons, List.map_nil, List.mem_singleton] at insertedMember
  obtain ⟨entry, member, rfl⟩ := List.mem_map.mp keptMember
  have differs := (List.mem_filter.mp member).2
  simp only [bne_iff_ne, ne_eq] at differs
  rw [insertedMember]
  exact differs

theorem keys_remove_nodup (nodup : (entries.map Prod.fst).Nodup) :
    ((remove entries key).1.map Prod.fst).Nodup :=
  nodup.sublist (List.Sublist.map Prod.fst List.filter_sublist)

omit [DecidableEq K] in
theorem keys_filter_nodup {keep : K × V → Bool} (nodup : (entries.map Prod.fst).Nodup) :
    ((entries.filter keep).map Prod.fst).Nodup :=
  nodup.sublist (List.Sublist.map Prod.fst List.filter_sublist)

theorem mem_iff_get?_of_nodup (nodup : (entries.map Prod.fst).Nodup) :
    (key, value) ∈ entries ↔ get? entries key = some value := by
  induction entries with
  | nil => simp [get?]
  | cons entry rest induction =>
      obtain ⟨entryKey, entryValue⟩ := entry
      rw [List.map_cons, List.nodup_cons] at nodup
      rw [get?_cons, List.mem_cons, induction nodup.2]
      by_cases atKey : entryKey = key
      · subst atKey
        have absent : get? rest entryKey = none := by
          rw [get?, Option.map_eq_none_iff, List.find?_eq_none]
          intro other member same
          exact nodup.1 (List.mem_map.mpr ⟨other, member, by simpa using same⟩)
        rw [if_pos rfl, absent]
        simp [eq_comm]
      · rw [if_neg atKey]
        constructor
        · rintro (same | later)
          · exact absurd (congrArg Prod.fst same).symm atKey
          · exact later
        · exact Or.inr

theorem get?_filter_of_nodup {keep : V → Bool} (nodup : (entries.map Prod.fst).Nodup) :
    get? (entries.filter fun entry => keep entry.2) key = (get? entries key).filter keep := by
  induction entries with
  | nil => rfl
  | cons entry rest induction =>
      rw [List.map_cons, List.nodup_cons] at nodup
      rw [List.filter_cons, get?_cons]
      by_cases atKey : entry.1 = key
      · subst atKey
        have absent : get? rest entry.1 = none := by
          rw [get?, Option.map_eq_none_iff, List.find?_eq_none]
          intro other member same
          exact nodup.1 (List.mem_map.mpr ⟨other, member, by simpa using same⟩)
        by_cases kept : keep entry.2 = true
        · simp [kept, get?_cons, Option.filter]
        · simp only [kept, Bool.false_eq_true, if_false, induction nodup.2, absent, if_true,
            Option.filter_none]
          simp [Option.filter, kept]
      · rw [if_neg atKey, ← induction nodup.2]
        split <;> simp [get?_cons, atKey]

theorem mem_of_get?_eq_some (found : get? entries key = some value) : (key, value) ∈ entries := by
  rw [get?, Option.map_eq_some_iff] at found
  obtain ⟨entry, first, rfl⟩ := found
  have atKey : entry.1 = key := by simpa using List.find?_some first
  rw [← atKey]
  exact List.mem_of_find?_eq_some first

theorem mem_modify {change : V → V} {entry : K × V} :
    entry ∈ modify entries key change ↔
      ∃ old ∈ entries, (if old.1 = key then (old.1, change old.2) else old) = entry := by
  rw [modify, List.mem_map]

theorem modify_of_get?_eq_none {change : V → V} (absent : get? entries key = none) :
    modify entries key change = entries := by
  induction entries with
  | nil => rfl
  | cons entry rest induction =>
      rw [get?_cons] at absent
      split at absent
      · cases absent
      · rename_i differs
        simp only [modify, List.map_cons, if_neg differs] at induction ⊢
        rw [induction absent]

theorem remove_of_get?_eq_none (absent : get? entries key = none) :
    (remove entries key).1 = entries := by
  apply List.filter_eq_self.mpr
  intro entry member
  have differs : entry.1 ≠ key := by
    intro same
    rw [get?, Option.map_eq_none_iff, List.find?_eq_none] at absent
    exact absent entry member (by simpa using same)
  simpa using differs

theorem countP_modify_of_keeps (pass : K × V → Bool) {change : V → V}
    (keeps : ∀ entry : K × V, pass (entry.1, change entry.2) = pass entry) :
    (modify entries key change).countP pass = entries.countP pass := by
  rw [modify, List.countP_map]
  congr 1
  funext entry
  rw [Function.comp_apply]
  split
  · exact keeps entry
  · rfl

theorem forall_modify {P : K × V → Prop} {change : V → V} (all : ∀ entry ∈ entries, P entry)
    (changed : ∀ value, (key, value) ∈ entries → P (key, change value)) :
    ∀ entry ∈ modify entries key change, P entry := by
  intro entry member
  obtain ⟨old, listed, rfl⟩ := mem_modify.mp member
  split
  · rename_i atKey
    rw [atKey]
    apply changed
    rw [← atKey]
    exact listed
  · exact all old listed

theorem forall_insert {P : K × V → Prop} (all : ∀ entry ∈ entries, P entry) (holds : P (key, value)) :
    ∀ entry ∈ (insert entries key value).1, P entry := by
  intro entry member
  rcases List.mem_append.mp member with kept | added
  · exact all entry (List.mem_filter.mp kept).1
  · rw [List.mem_singleton.mp added]
    exact holds

theorem forall_insertLru {P : K × V → Prop} {capacity : Nat} (all : ∀ entry ∈ entries, P entry)
    (holds : P (key, value)) : ∀ entry ∈ (insertLru capacity entries key value).1, P entry := by
  intro entry member
  have inserted := forall_insert all holds
  simp only [insertLru] at member
  split at member
  · exact inserted entry (List.mem_of_mem_drop member)
  · exact inserted entry member

theorem forall_remove {P : K × V → Prop} (all : ∀ entry ∈ entries, P entry) :
    ∀ entry ∈ (remove entries key).1, P entry :=
  fun entry member => all entry (List.mem_filter.mp member).1

theorem countP_modify (pass : K × V → Bool) (change : V → V) (nodup : (entries.map Prod.fst).Nodup)
    (found : get? entries key = some value) :
    (modify entries key change).countP pass + (if pass (key, value) then 1 else 0) =
      entries.countP pass + (if pass (key, change value) then 1 else 0) := by
  induction entries with
  | nil => cases found
  | cons entry rest induction =>
      obtain ⟨other, held⟩ := entry
      rw [List.map_cons, List.nodup_cons] at nodup
      rw [get?_cons] at found
      by_cases atKey : other = key
      · -- the key's entry is this one, and the rest holds no other
        subst atKey
        rw [if_pos rfl, Option.some.injEq] at found
        subst found
        have absent : get? rest other = none := by
          rw [get?, Option.map_eq_none_iff, List.find?_eq_none]
          intro entry member same
          exact nodup.1 (List.mem_map.mpr ⟨entry, member, by simpa using same⟩)
        have untouched : modify rest other change = rest := modify_of_get?_eq_none absent
        simp only [modify, List.map_cons, if_true] at untouched ⊢
        rw [untouched, List.countP_cons, List.countP_cons]
        omega
      · rw [if_neg atKey] at found
        have later := induction nodup.2 found
        simp only [modify, List.map_cons, if_neg atKey] at later ⊢
        rw [List.countP_cons, List.countP_cons]
        omega

theorem countP_remove (pass : K × V → Bool) (nodup : (entries.map Prod.fst).Nodup)
    (found : get? entries key = some value) :
    (remove entries key).1.countP pass + (if pass (key, value) then 1 else 0) =
      entries.countP pass := by
  induction entries with
  | nil => cases found
  | cons entry rest induction =>
      obtain ⟨other, held⟩ := entry
      rw [List.map_cons, List.nodup_cons] at nodup
      rw [get?_cons] at found
      by_cases atKey : other = key
      · subst atKey
        rw [if_pos rfl, Option.some.injEq] at found
        subst found
        have kept : rest.filter (fun entry => entry.1 != other) = rest := by
          apply List.filter_eq_self.mpr
          intro entry member
          have differs : entry.1 ≠ other := fun same =>
            nodup.1 (List.mem_map.mpr ⟨entry, member, same⟩)
          simpa using differs
        simp only [remove, List.filter_cons, bne_self_eq_false, Bool.false_eq_true, if_false, kept,
          List.countP_cons]
      · rw [if_neg atKey] at found
        have later := induction nodup.2 found
        have differs : (other != key) = true := by simpa using atKey
        simp only [remove, List.filter_cons, differs, if_true, List.countP_cons] at later ⊢
        omega

theorem countP_insert_of_contains_eq_false {pass : K × V → Bool}
    (fresh : contains entries key = false) :
    (insert entries key value).1.countP pass =
      entries.countP pass + (if pass (key, value) then 1 else 0) := by
  rw [insert_of_contains_eq_false fresh, List.countP_append, List.countP_singleton]

end Lemmas

end LinkedMap

namespace LinkedSet

variable {K : Type} [DecidableEq K]

/-- `LinkedHashSet::insert`: a key it holds moves to the back. -/
def insert (keys : List K) (key : K) : List K :=
  keys.filter (fun other => other != key) ++ [key]

/-- `extend`: the keys inserted one after another. -/
def extend (keys : List K) (added : List K) : List K :=
  added.foldl insert keys

@[simp] theorem mem_insert {keys : List K} {key other : K} :
    other ∈ insert keys key ↔ other ∈ keys ∨ other = key := by
  by_cases same : other = key
  · simp [insert, same]
  · simp [insert, same]

theorem nodup_insert {keys : List K} (nodup : keys.Nodup) (key : K) : (insert keys key).Nodup := by
  rw [insert, List.nodup_append]
  refine ⟨nodup.filter _, by simp, ?_⟩
  intro kept keptMember inserted insertedMember
  rw [List.mem_singleton] at insertedMember
  have differs := (List.mem_filter.mp keptMember).2
  simp only [bne_iff_ne, ne_eq] at differs
  rw [insertedMember]
  exact differs

theorem length_insert_le (keys : List K) (key : K) : (insert keys key).length ≤ keys.length + 1 := by
  rw [insert, List.length_append, List.length_singleton]
  have shorter := List.length_filter_le (fun other => other != key) keys
  omega

theorem length_insert_of_mem {keys : List K} {key : K} (held : key ∈ keys) :
    (insert keys key).length ≤ keys.length := by
  rw [insert, List.length_append, List.length_singleton]
  have shorter : (keys.filter fun other => other != key).length < keys.length :=
    List.length_filter_lt_length_iff_exists.mpr ⟨key, held, by simp⟩
  omega

end LinkedSet
