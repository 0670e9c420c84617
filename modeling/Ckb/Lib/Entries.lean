import Mathlib
import Ckb.Lib.LinkedMap

/-!
# Maps kept as lists of entries

A hash map that is iterated is modelled by its list of entries in the order
the keys were first inserted.  `upsert` is `map.entry(key).or_insert_with(||
default)` followed by a change of the entry in place.

Two facts carry every proof about a loop of upserts: a property of entries
that the default and the change keep holds of every entry (`forall_mem_upsert`),
and an entry is never lost, only changed (`exists_mem_upsert_of_mem`).
-/

namespace Entries

variable {K V : Type} [DecidableEq K]

def upsert (key : K) (default : V) (change : V → V) : List (K × V) → List (K × V)
  | [] => [(key, change default)]
  | (other, value) :: rest =>
    if other = key then (other, change value) :: rest
    else (other, value) :: upsert key default change rest

/-- A property of entries that holds of the changed default, and that the
change keeps for the key, holds of every entry after the upsert. -/
theorem forall_mem_upsert {P : K × V → Prop} {key : K} {default : V} {change : V → V}
    (fresh : P (key, change default)) (changed : ∀ value, P (key, value) → P (key, change value)) :
    ∀ {entries : List (K × V)}, (∀ entry ∈ entries, P entry) →
      ∀ entry ∈ upsert key default change entries, P entry
  | [], _ => by
      intro entry member
      rw [upsert, List.mem_singleton] at member
      rw [member]
      exact fresh
  | (other, value) :: rest, kept => by
      have head : P (other, value) := kept _ List.mem_cons_self
      have tail : ∀ entry ∈ rest, P entry := fun entry member => kept entry (List.mem_cons_of_mem _ member)
      rw [upsert]
      by_cases same : other = key
      · rw [if_pos same]
        subst same
        intro entry member
        rcases List.mem_cons.mp member with rfl | later
        · exact changed value head
        · exact tail entry later
      · rw [if_neg same]
        intro entry member
        rcases List.mem_cons.mp member with rfl | later
        · exact head
        · exact forall_mem_upsert fresh changed tail entry later

/-- After the upsert, the key holds the change of some value: the default or
the value it had. -/
theorem exists_mem_upsert (key : K) (default : V) (change : V → V) :
    ∀ entries : List (K × V), ∃ value, (key, change value) ∈ upsert key default change entries
  | [] => ⟨default, by simp [upsert]⟩
  | (other, value) :: rest => by
      rw [upsert]
      by_cases same : other = key
      · rw [if_pos same]
        subst same
        exact ⟨value, List.mem_cons_self⟩
      · rw [if_neg same]
        obtain ⟨found, member⟩ := exists_mem_upsert key default change rest
        exact ⟨found, List.mem_cons_of_mem _ member⟩

/-- No entry is lost: each one stays, or is replaced by its change. -/
theorem exists_mem_upsert_of_mem {key : K} {default : V} {change : V → V} :
    ∀ {entries : List (K × V)} {entry : K × V}, entry ∈ entries →
      entry ∈ upsert key default change entries ∨
        (entry.1, change entry.2) ∈ upsert key default change entries
  | (other, value) :: rest, entry, member => by
      rw [upsert]
      by_cases same : other = key
      · rw [if_pos same]
        rcases List.mem_cons.mp member with rfl | later
        · exact .inr List.mem_cons_self
        · exact .inl (List.mem_cons_of_mem _ later)
      · rw [if_neg same]
        rcases List.mem_cons.mp member with rfl | later
        · exact .inl List.mem_cons_self
        · rcases exists_mem_upsert_of_mem later with kept | changed
          · exact .inl (List.mem_cons_of_mem _ kept)
          · exact .inr (List.mem_cons_of_mem _ changed)

theorem mem_keys_upsert {key other : K} {default : V} {change : V → V} :
    ∀ entries : List (K × V),
      other ∈ (upsert key default change entries).map Prod.fst ↔
        other ∈ entries.map Prod.fst ∨ other = key
  | [] => by simp [upsert]
  | (entryKey, value) :: rest => by
      rw [upsert]
      by_cases same : entryKey = key
      · rw [if_pos same]
        subst same
        simp only [List.map_cons, List.mem_cons]
        tauto
      · rw [if_neg same, List.map_cons, List.mem_cons, mem_keys_upsert rest, List.map_cons,
          List.mem_cons]
        tauto

/-- An upsert keeps one entry per key. -/
theorem keys_upsert_nodup {key : K} {default : V} {change : V → V} :
    ∀ {entries : List (K × V)}, (entries.map Prod.fst).Nodup →
      ((upsert key default change entries).map Prod.fst).Nodup
  | [], _ => by simp [upsert]
  | (entryKey, value) :: rest, nodup => by
      rw [List.map_cons, List.nodup_cons] at nodup
      rw [upsert]
      by_cases same : entryKey = key
      · rw [if_pos same, List.map_cons, List.nodup_cons]
        exact nodup
      · rw [if_neg same, List.map_cons, List.nodup_cons, mem_keys_upsert rest]
        refine ⟨?_, keys_upsert_nodup nodup.2⟩
        rintro (held | atKey)
        · exact nodup.1 held
        · exact same atKey

/-- Looked up by key, the upsert changes the key's value, or the default if it
had none, and nothing else. -/
theorem get?_upsert {key other : K} {default : V} {change : V → V} :
    ∀ entries : List (K × V), LinkedMap.get? (upsert key default change entries) other =
      if other = key then some (change ((LinkedMap.get? entries key).getD default))
      else LinkedMap.get? entries other
  | [] => by
      by_cases same : other = key
      · subst same
        simp [upsert, LinkedMap.get?]
      · simp [upsert, LinkedMap.get?, same, Ne.symm same]
  | (entryKey, value) :: rest => by
      rw [upsert]
      by_cases atKey : entryKey = key
      · rw [if_pos atKey]
        subst atKey
        by_cases same : other = entryKey
        · subst same
          simp [LinkedMap.get?_cons]
        · simp [LinkedMap.get?_cons, same, Ne.symm same]
      · rw [if_neg atKey]
        by_cases same : other = key
        · subst same
          simp [LinkedMap.get?_cons, atKey, get?_upsert rest]
        · simp [LinkedMap.get?_cons, same, get?_upsert rest]

end Entries
