import Mathlib

/-!
# Checked arithmetic on bounded naturals

Fixed-width unsigned arithmetic with overflow detection, as Rust's
`checked_add`, `checked_sub` and `checked_mul` give it: a machine word of
width `w` is a natural number below `bound = 2 ^ w`, and an operation whose
exact result leaves `[0, bound)` yields `none`.

The fold `sum` is `iter().try_fold(start, checked_add)`.  Its one fact is that
it never truncates: it succeeds exactly when the exact total stays below the
bound, and then it returns that total.
-/

namespace Checked

/-- `checked_add` for words below `bound`. -/
def add (bound left right : Nat) : Option Nat :=
  if left + right < bound then some (left + right) else none

def sub (left right : Nat) : Option Nat :=
  if right ≤ left then some (left - right) else none

/-- `checked_mul` for words below `bound`. -/
def mul (bound left right : Nat) : Option Nat :=
  if left * right < bound then some (left * right) else none

def sum (bound start : Nat) (values : List Nat) : Option Nat :=
  values.foldlM (add bound) start

@[simp] theorem add_eq_some_iff {bound left right total : Nat} :
    add bound left right = some total ↔ total = left + right ∧ left + right < bound := by
  unfold add
  split <;> simp_all [eq_comm]

@[simp] theorem mul_eq_some_iff {bound left right product : Nat} :
    mul bound left right = some product ↔
      product = left * right ∧ left * right < bound := by
  unfold mul
  split <;> simp_all [eq_comm]

@[simp] theorem sum_nil (bound start : Nat) : sum bound start [] = some start := rfl

theorem sum_cons (bound start value : Nat) (values : List Nat) :
    sum bound start (value :: values) =
      (add bound start value).bind fun next => sum bound next values := by
  simp [sum, List.foldlM_cons, Option.bind_eq_bind]

theorem sum_eq_some_iff {bound start total : Nat} {values : List Nat}
    (startBelow : start < bound) :
    sum bound start values = some total ↔
      total = start + values.sum ∧ start + values.sum < bound := by
  induction values generalizing start with
  | nil =>
      simp [eq_comm, startBelow]
  | cons value values induction =>
      rw [sum_cons]
      constructor
      · intro success
        obtain ⟨next, nextEq, rest⟩ := Option.bind_eq_some_iff.mp success
        obtain ⟨rfl, nextBelow⟩ := add_eq_some_iff.mp nextEq
        obtain ⟨rfl, below⟩ := (induction nextBelow).mp rest
        constructor <;> simp only [List.sum_cons] <;> omega
      · rintro ⟨rfl, below⟩
        have headBelow : start + value < bound := by
          simp only [List.sum_cons] at below
          omega
        refine Option.bind_eq_some_iff.mpr ⟨start + value, ?_, ?_⟩
        · exact add_eq_some_iff.mpr ⟨rfl, headBelow⟩
        · refine (induction headBelow).mpr ⟨?_, ?_⟩ <;>
            simp only [List.sum_cons] at below ⊢ <;> omega

/-! ## Words under `overflow-checks`

In a build with `overflow-checks` an arithmetic overflow is a panic with the
message the three functions below carry. -/

def addOrPanic (bound left right : Nat) : Except String Nat :=
  (add bound left right).getDM (.error "attempt to add with overflow")

def subOrPanic (left right : Nat) : Except String Nat :=
  (sub left right).getDM (.error "attempt to subtract with overflow")

def mulOrPanic (bound left right : Nat) : Except String Nat :=
  (mul bound left right).getDM (.error "attempt to multiply with overflow")

@[simp] theorem addOrPanic_eq_ok_iff {bound left right total : Nat} :
    addOrPanic bound left right = .ok total ↔ total = left + right ∧ left + right < bound := by
  unfold addOrPanic add
  split <;> simp_all [Option.getDM, pure, Except.pure, eq_comm]

@[simp] theorem subOrPanic_eq_ok_iff {left right difference : Nat} :
    subOrPanic left right = .ok difference ↔ difference = left - right ∧ right ≤ left := by
  unfold subOrPanic sub
  split <;> simp_all [Option.getDM, pure, Except.pure, eq_comm]

theorem subOrPanic_error {left right : Nat} {message : String}
    (failed : subOrPanic left right = .error message) :
    message = "attempt to subtract with overflow" := by
  unfold subOrPanic at failed
  cases result : sub left right with
  | none =>
      rw [result] at failed
      exact (Except.error.inj failed).symm
  | some difference =>
      rw [result] at failed
      cases failed

theorem subOrPanic_of_lt {left right : Nat} (below : left < right) :
    subOrPanic left right = .error "attempt to subtract with overflow" := by
  simp [subOrPanic, sub, Nat.not_le_of_lt below, Option.getDM]

end Checked
