import Mathlib.Data.List.Forall2

/-!
# Pointwise relations between lists

A loop that turns a list into another, one result for each element, is read
back as a `List.Forall₂` between the two.  An element of either list has a
partner in the other, and two loops over one list, their results zipped and
mapped, are read back against that list.
-/

namespace List.Forall₂

variable {α β γ : Type} {R : α → β → Prop} {S : β → γ → Prop}

theorem exists_of_mem_left {xs : List α} {ys : List β} (related : Forall₂ R xs ys) {x : α}
    (member : x ∈ xs) : ∃ y ∈ ys, R x y := by
  induction related with
  | nil => cases member
  | cons first rest induction =>
      rcases List.mem_cons.mp member with rfl | later
      · exact ⟨_, List.mem_cons_self, first⟩
      · obtain ⟨y, found, relatedLater⟩ := induction later
        exact ⟨y, List.mem_cons_of_mem _ found, relatedLater⟩

theorem exists_of_mem_right {xs : List α} {ys : List β} (related : Forall₂ R xs ys) {y : β}
    (member : y ∈ ys) : ∃ x ∈ xs, R x y := by
  have flipped : Forall₂ (fun y x => R x y) ys xs := Forall₂.flip related
  exact flipped.exists_of_mem_left member

theorem zip_map {δ : Type} {xs : List α} {ys : List β} {zs : List γ} (left : Forall₂ R xs ys)
    (right : Forall₂ S ys zs) (f : α × γ → δ) :
    Forall₂ (fun w y => ∃ x z, R x y ∧ S y z ∧ w = f (x, z)) ((xs.zip zs).map f) ys := by
  induction left generalizing zs with
  | nil =>
      cases right
      exact .nil
  | cons head _ induction =>
      cases right with
      | cons next rest => exact .cons ⟨_, _, head, next, rfl⟩ (induction rest)

theorem map_eq {xs : List α} {ys : List β} (related : Forall₂ R xs ys) {f : α → γ} {g : β → γ}
    (agree : ∀ x y, R x y → f x = g y) : xs.map f = ys.map g := by
  induction related with
  | nil => rfl
  | cons first _ induction => rw [List.map_cons, List.map_cons, agree _ _ first, induction]

theorem countP_eq {xs : List α} {ys : List β} (related : Forall₂ R xs ys) {p : α → Bool}
    {q : β → Bool} (agree : ∀ x y, R x y → p x = q y) : xs.countP p = ys.countP q := by
  induction related with
  | nil => rfl
  | cons first _ induction => rw [List.countP_cons, List.countP_cons, agree _ _ first, induction]

theorem countP_le {xs : List α} {ys : List β} (related : Forall₂ R xs ys) {p : α → Bool}
    {q : β → Bool} (implies : ∀ x y, R x y → q y = true → p x = true) :
    ys.countP q ≤ xs.countP p := by
  induction related with
  | nil => exact Nat.le_refl 0
  | @cons x y _ _ first _ induction =>
      rw [List.countP_cons, List.countP_cons]
      have marks : (if q y = true then 1 else 0) ≤ if p x = true then 1 else 0 := by
        by_cases holds : q y = true
        · simp [holds, implies x y first holds]
        · simp [holds]
      omega

end List.Forall₂
