import Mathlib.Logic.Basic
import Mathlib.Order.Basic
import Mathlib.Data.List.Basic

/-!
# Inverting successful `Except` programs

Fallible code is modelled as `do` blocks in `Except`: a `?` is a bind, an
`ok_or(error)?` is `getDM (.error error)` on an option, a `map_err` is
`mapError`, and an early `return Err(error)` is `if condition then .error
error`.  Each lemma here reads one of these constructs back from a run that
succeeded, so that a proof about a whole program names the facts of its steps
in the order the program takes them.
-/

namespace Except

variable {ε ε' α β : Type}

@[simp] theorem error_bind (error : ε) (next : α → Except ε β) :
    (Except.error error >>= next) = .error error := rfl

@[simp] theorem ok_bind (value : α) (next : α → Except ε β) :
    (Except.ok value >>= next) = next value := rfl

@[simp] theorem pure_eq_ok {value result : α} :
    (pure value : Except ε α) = .ok result ↔ value = result := by
  constructor
  · intro same
    cases same
    rfl
  · rintro rfl
    rfl

theorem bind_eq_ok {first : Except ε α} {next : α → Except ε β} {result : β} :
    first >>= next = .ok result ↔ ∃ value, first = .ok value ∧ next value = .ok result := by
  cases first with
  | error error => simp
  | ok value => simp

theorem bind_eq_error {first : Except ε α} {next : α → Except ε β} {error : ε} :
    first >>= next = .error error ↔
      first = .error error ∨ ∃ value, first = .ok value ∧ next value = .error error := by
  cases first with
  | error error => simp
  | ok value => simp

theorem exists_eq_ok_of_isSome {program : Except ε α} (succeeds : program.toOption.isSome = true) :
    ∃ result, program = .ok result := by
  cases program with
  | error error => cases succeeds
  | ok result => exact ⟨result, rfl⟩

theorem ite_error_eq_ok {condition : Prop} [Decidable condition] {error : ε}
    {rest : Except ε α} {result : α} :
    (if condition then .error error else rest) = .ok result ↔ ¬condition ∧ rest = .ok result := by
  by_cases holds : condition
  · simp [holds]
  · simp [holds]

theorem getDM_error_eq_ok {value : Option α} {error : ε} {result : α} :
    value.getDM (Except.error error) = .ok result ↔ value = some result := by
  cases value with
  | none => simp [Option.getDM]
  | some value =>
      simp only [Option.getDM, Option.some.injEq]
      exact pure_eq_ok

@[simp] theorem mapError_ok (value : α) (change : ε → ε') :
    (Except.ok value : Except ε α).mapError change = .ok value := rfl

@[simp] theorem mapError_error (error : ε) (change : ε → ε') :
    (Except.error error : Except ε α).mapError change = .error (change error) := rfl

theorem map_eq_ok {change : α → β} {first : Except ε α} {result : β} :
    change <$> first = .ok result ↔ ∃ value, first = .ok value ∧ change value = result := by
  cases first with
  | error error => simp [Functor.map, Except.map]
  | ok value => simp [Functor.map, Except.map]

theorem mapError_eq_ok {first : Except ε α} {change : ε → ε'} {result : α} :
    first.mapError change = .ok result ↔ first = .ok result := by
  cases first with
  | error error => simp [Except.mapError]
  | ok value => simp [Except.mapError]

theorem forM_eq_ok {items : List α} {check : α → Except ε Unit} :
    items.forM check = .ok () ↔ ∀ item ∈ items, check item = .ok () := by
  induction items with
  | nil => simp [List.forM]
  | cons item rest induction =>
      simp only [List.forM, bind_eq_ok, List.mem_cons, forall_eq_or_imp, ← induction]
      constructor
      · rintro ⟨⟨⟩, first, later⟩
        exact ⟨first, later⟩
      · rintro ⟨first, later⟩
        exact ⟨⟨⟩, first, later⟩

/-- A fallible loop over items keeps an invariant of the items done so far and
the state, if every step that succeeds keeps it. -/
theorem foldlM_invariant {σ : Type} {step : σ → α → Except ε σ} {inv : List α → σ → Prop}
    (preserved : ∀ done item state next, inv done state → step state item = .ok next →
      inv (done ++ [item]) next) :
    ∀ {items done : List α} {state final : σ}, inv done state →
      items.foldlM step state = .ok final → inv (done ++ items) final
  | [], done, state, final, holds, ran => by
      rw [List.foldlM_nil, pure_eq_ok] at ran
      subst ran
      rw [List.append_nil]
      exact holds
  | item :: items, done, state, final, holds, ran => by
      rw [List.foldlM_cons, bind_eq_ok] at ran
      obtain ⟨next, stepped, rest⟩ := ran
      have later := foldlM_invariant preserved (preserved done item state next holds stepped) rest
      rw [List.append_assoc, List.singleton_append] at later
      exact later

/-- A fallible loop fails only with an error one of its steps can raise. -/
theorem foldlM_error_of_steps {σ : Type} {step : σ → α → Except ε σ} {error : ε}
    (only : ∀ state item error', step state item = .error error' → error' = error) :
    ∀ {items : List α} {state : σ} {error' : ε}, items.foldlM step state = .error error' →
      error' = error
  | [], state, error', ran => by
      rw [List.foldlM_nil] at ran
      cases ran
  | item :: items, state, error', ran => by
      rw [List.foldlM_cons] at ran
      cases stepped : step state item with
      | error first =>
          rw [stepped, error_bind, Except.error.injEq] at ran
          rw [← ran]
          exact only state item first stepped
      | ok next =>
          rw [stepped, ok_bind] at ran
          exact foldlM_error_of_steps only ran

/-- A fallible loop whose steps keep an invariant fails at an item whose step
fails from every state of the invariant, if it has not failed before, and
with the one error its steps can raise. -/
theorem foldlM_eq_error_of_mem {σ : Type} {step : σ → α → Except ε σ} {inv : σ → Prop}
    {error : ε} {target : α}
    (keeps : ∀ state item next, inv state → step state item = .ok next → inv next)
    (fails : ∀ state, inv state → step state target = .error error)
    (only : ∀ state item error', step state item = .error error' → error' = error) :
    ∀ {items : List α} {state : σ}, target ∈ items → inv state →
      items.foldlM step state = .error error
  | [], _, member, _ => absurd member List.not_mem_nil
  | item :: items, state, member, holds => by
      rw [List.foldlM_cons]
      cases stepped : step state item with
      | error first =>
          rw [error_bind, only state item first stepped]
      | ok next =>
          rw [ok_bind]
          rcases List.mem_cons.mp member with atItem | later
          · rw [← atItem, fails state holds] at stepped
            cases stepped
          · exact foldlM_eq_error_of_mem keeps fails only later (keeps state item next holds stepped)

end Except

namespace List

theorem mapM_eq_pure_map {m : Type → Type} [Monad m] [LawfulMonad m] {α β : Type}
    {step : α → m β} {result : α → β} {items : List α}
    (succeeds : ∀ item ∈ items, step item = pure (result item)) :
    items.mapM step = pure (items.map result) := by
  induction items with
  | nil => rfl
  | cons item rest induction =>
      rw [List.forall_mem_cons] at succeeds
      rw [List.mapM_cons, succeeds.1, pure_bind, induction succeeds.2, pure_bind, List.map_cons]

end List

namespace Option

end Option
