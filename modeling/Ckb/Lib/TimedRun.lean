import Mathlib.Data.List.Pairwise
import Ckb.Lib.Except

/-!
# Runs of a machine over timed events

A machine takes events, each at the time it happens; a step may fail, and
otherwise gives the next state and what it did.  A run logs those outputs with
the time of their event.  An invariant of the states is carried through a run
by one step lemma; one that also reads the log and the clock needs the events
in the order of their times.
-/

namespace TimedRun

variable {σ ε α E : Type} (step : σ → Nat → ε → Except E (σ × List α))

def run : σ → List (Nat × ε) → Except E (σ × List (Nat × α))
  | state, [] => pure (state, [])
  | state, (now, event) :: rest => do
    let (state, outputs) ← step state now event
    let (state, later) ← run state rest
    pure (state, outputs.map (now, ·) ++ later)

variable {step}

theorem run_cons_eq_ok {state final : σ} {now : Nat} {event : ε} {rest : List (Nat × ε)}
    {log : List (Nat × α)} :
    run step state ((now, event) :: rest) = .ok (final, log) ↔
      ∃ next outputs later, step state now event = .ok (next, outputs) ∧
        run step next rest = .ok (final, later) ∧ log = outputs.map (now, ·) ++ later := by
  simp only [run, Except.bind_eq_ok, Except.pure_eq_ok, Prod.exists, Prod.mk.injEq]
  constructor
  · rintro ⟨next, outputs, stepped, final', later, ran, rfl, rfl⟩
    exact ⟨next, outputs, later, stepped, ran, rfl⟩
  · rintro ⟨next, outputs, later, stepped, ran, rfl⟩
    exact ⟨next, outputs, stepped, final, later, ran, rfl, rfl⟩

theorem run_invariant {inv : σ → Prop} {events : List (Nat × ε)}
    (preserved : ∀ state now event next outputs, (now, event) ∈ events → inv state →
      step state now event = .ok (next, outputs) → inv next) :
    ∀ {state final : σ} {log : List (Nat × α)}, inv state →
      run step state events = .ok (final, log) → inv final := by
  induction events with
  | nil =>
      intro state final log holds ran
      cases ran
      exact holds
  | cons head rest induction =>
      obtain ⟨now, event⟩ := head
      intro state final log holds ran
      obtain ⟨next, outputs, later, stepped, ranRest, -⟩ := run_cons_eq_ok.mp ran
      have first := preserved state now event next outputs List.mem_cons_self holds stepped
      exact induction (fun state now event next outputs member =>
        preserved state now event next outputs (List.mem_cons_of_mem _ member)) first ranRest

/-- A run fails only as one of its steps fails from a state the invariant
holds of. -/
theorem run_error {inv : σ → Prop} {fails : E → Prop} {events : List (Nat × ε)}
    (preserved : ∀ state now event next outputs, inv state →
      step state now event = .ok (next, outputs) → inv next)
    (failing : ∀ state now event error, inv state → step state now event = .error error →
      fails error) :
    ∀ {state : σ} {error : E}, inv state → run step state events = .error error → fails error := by
  induction events with
  | nil =>
      intro state error _ ran
      cases ran
  | cons head rest induction =>
      obtain ⟨now, event⟩ := head
      intro state error holds ran
      simp only [run] at ran
      cases stepped : step state now event with
      | error _ =>
          rw [stepped, Except.error_bind] at ran
          cases ran
          exact failing state now event error holds stepped
      | ok result =>
          obtain ⟨next, outputs⟩ := result
          rw [stepped, Except.ok_bind] at ran
          cases ranRest : run step next rest with
          | error restError =>
              rw [ranRest, Except.error_bind] at ran
              cases ran
              exact induction (preserved state now event next outputs holds stepped) ranRest
          | ok final =>
              rw [ranRest, Except.ok_bind] at ran
              cases ran

/-- What every step from a state of the invariant outputs is allowed, so every
output a run logs is. -/
theorem run_safe {inv : σ → Prop} {allowed : α → Prop}
    (preserved : ∀ state now event next outputs, inv state →
      step state now event = .ok (next, outputs) → inv next)
    (emits : ∀ state now event next outputs, inv state →
      step state now event = .ok (next, outputs) → ∀ output ∈ outputs, allowed output) :
    ∀ {events : List (Nat × ε)} {state final : σ} {log : List (Nat × α)}, inv state →
      run step state events = .ok (final, log) → inv final ∧ ∀ entry ∈ log, allowed entry.2 := by
  intro events
  induction events with
  | nil =>
      intro state final log holds ran
      cases ran
      exact ⟨holds, fun _ member => nomatch member⟩
  | cons head rest induction =>
      obtain ⟨now, event⟩ := head
      intro state final log holds ran
      obtain ⟨next, outputs, later, stepped, ranRest, rfl⟩ := run_cons_eq_ok.mp ran
      obtain ⟨last, laterAllowed⟩ := induction (preserved state now event next outputs holds stepped) ranRest
      refine ⟨last, ?_⟩
      intro entry member
      rcases List.mem_append.mp member with current | later
      · obtain ⟨output, emitted, rfl⟩ := List.mem_map.mp current
        exact emits state now event next outputs holds stepped output emitted
      · exact laterAllowed entry later

/-- An invariant that each counted event may loosen by one holds at the end of
a run, loosened by the number of its counted events. -/
theorem run_countP_invariant {inv : Nat → σ → Prop} {counted : ε → Bool}
    (preserved : ∀ budget state now event next outputs, inv budget state →
      step state now event = .ok (next, outputs) → inv (budget + if counted event then 1 else 0) next) :
    ∀ {events : List (Nat × ε)} {budget : Nat} {state final : σ} {log : List (Nat × α)},
      inv budget state → run step state events = .ok (final, log) →
      inv (budget + events.countP fun entry => counted entry.2) final := by
  intro events
  induction events with
  | nil =>
      intro budget state final log holds ran
      cases ran
      exact holds
  | cons head rest induction =>
      obtain ⟨now, event⟩ := head
      intro budget state final log holds ran
      obtain ⟨next, outputs, later, stepped, ranRest, -⟩ := run_cons_eq_ok.mp ran
      rw [List.countP_cons, Nat.add_comm (List.countP _ rest), ← Nat.add_assoc]
      exact induction (preserved budget state now event next outputs holds stepped) ranRest

/-- An invariant of the state, of the time of the last event and of the log
of outputs, kept by every step at a time no earlier than the last, holds at
the end of a run whose events come in the order of their times. -/
theorem run_log_invariant {inv : σ → Nat → List (Nat × α) → Prop}
    (preserved : ∀ state clock log now event next outputs, inv state clock log → clock ≤ now →
      step state now event = .ok (next, outputs) → inv next now (log ++ outputs.map (now, ·))) :
    ∀ {events : List (Nat × ε)} {state final : σ} {clock : Nat} {log later : List (Nat × α)},
      (events.map Prod.fst).Pairwise (· ≤ ·) → (∀ event ∈ events, clock ≤ event.1) →
      inv state clock log → run step state events = .ok (final, later) →
      ∃ clock', inv final clock' (log ++ later) := by
  intro events
  induction events with
  | nil =>
      intro state final clock log later _ _ holds ran
      cases ran
      exact ⟨clock, by rwa [List.append_nil]⟩
  | cons head rest induction =>
      obtain ⟨now, event⟩ := head
      intro state final clock log later ordered after holds ran
      obtain ⟨next, outputs, restLog, stepped, ranRest, rfl⟩ := run_cons_eq_ok.mp ran
      rw [List.map_cons, List.pairwise_cons] at ordered
      have first := preserved state clock log now event next outputs holds
        (after (now, event) List.mem_cons_self) stepped
      have later : ∀ other ∈ rest, now ≤ other.1 := fun other member =>
        ordered.1 other.1 (List.mem_map_of_mem member)
      rw [← List.append_assoc]
      exact induction ordered.2 later first ranRest

end TimedRun
