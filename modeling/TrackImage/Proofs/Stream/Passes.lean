import TrackImage.Failure

/-!
# Passes over an input

A pass makes steps that go on until one fails or finds nothing left, and then
finishes. Its loop is bounded by the number of steps left, and the bound never
shows: a run is its first step followed by the run from there.
-/

namespace TrackImage

variable {π ρ : Type}

/-- So many steps that go on lead from one state of a pass to another. -/
inductive Goes (step : π → Except Failure Bool × π) : Nat → π → π → Prop where
  | refl (pass : π) : Goes step 0 pass pass
  | next {count : Nat} {pass middle last : π} (first : step pass = (.ok true, middle))
      (rest : Goes step count middle last) : Goes step (count + 1) pass last

namespace Goes

variable {step : π → Except Failure Bool × π}

/-- What holds after every step if it held before holds at the end. -/
theorem preserves {Holds : π → Prop}
    (kept : ∀ {pass next}, Holds pass → step pass = (.ok true, next) → Holds next)
    {count : Nat} {pass last : π} (goes : Goes step count pass last) (held : Holds pass) :
    Holds last := by
  induction goes with
  | refl => exact held
  | next first _ ih => exact ih (kept held first)

/-- What no step changes is the same at the end. -/
theorem unchanged {α : Type} (value : π → α)
    (kept : ∀ {pass next}, step pass = (.ok true, next) → value next = value pass)
    {count : Nat} {pass last : π} (goes : Goes step count pass last) :
    value last = value pass := by
  induction goes with
  | refl => rfl
  | next first _ ih => exact ih.trans (kept first)

/-- What one step keeps, and counts, is kept by any number of them. -/
theorem keeps {Holds : Nat → π → Prop}
    (kept : ∀ {count pass next}, Holds count pass → step pass = (.ok true, next) →
      Holds (count + 1) next)
    {count further : Nat} {pass last : π} (goes : Goes step further pass last)
    (held : Holds count pass) : Holds (count + further) last := by
  induction goes generalizing count with
  | refl => exact held
  | next first _ ih =>
      have after := ih (kept held first)
      rwa [Nat.add_right_comm] at after

/-- Steps that can be made are made, up to a goal. -/
theorem exists_goes {Holds : Nat → π → Prop} {goal : Nat}
    (kept : ∀ {count pass next}, Holds count pass → step pass = (.ok true, next) →
      Holds (count + 1) next)
    (more : ∀ {count pass}, Holds count pass → count < goal → ∃ next, step pass = (.ok true, next))
    {count : Nat} {pass : π} (held : Holds count pass) (behind : count ≤ goal) :
    ∃ last, Goes step (goal - count) pass last ∧ Holds goal last := by
  induction distance : goal - count generalizing count pass with
  | zero =>
      obtain rfl : count = goal := by omega
      exact ⟨pass, .refl pass, held⟩
  | succ distance ih =>
      obtain ⟨next, first⟩ := more held (by omega)
      obtain ⟨last, goes, reached⟩ := ih (kept held first) (by omega) (by omega)
      exact ⟨last, .next first goes, reached⟩

end Goes

/-- How a pass deals with the outcome of its next step. -/
structure Unrolls (step : π → Except Failure Bool × π) (finish run : π → Except Failure ρ × π)
    (left : π → Nat) : Prop where
  run_eq : ∀ pass, run pass = match step pass with
    | (.error failure, stopped) => (.error failure, stopped)
    | (.ok false, done) => finish done
    | (.ok true, next) => run next
  left_eq : ∀ {pass next}, step pass = (.ok true, next) → left pass = left next + 1

namespace Unrolls

variable {step : π → Except Failure Bool × π} {finish run : π → Except Failure ρ × π}
  {left : π → Nat}

/-- A loop with as many rounds as there are steps left is unrolled step by step. -/
theorem of_many (many : Nat → π → Except Failure Unit × π)
    (many_zero : ∀ pass, many 0 pass = (.ok (), pass))
    (many_succ : ∀ count pass, many (count + 1) pass = match step pass with
      | (.error failure, stopped) => (.error failure, stopped)
      | (.ok false, done) => (.ok (), done)
      | (.ok true, next) => many count next)
    (run_many : ∀ pass, run pass = match many (left pass) pass with
      | (.error failure, stopped) => (.error failure, stopped)
      | (.ok (), done) => finish done)
    (step_last : ∀ pass, left pass = 0 → step pass = (.ok false, pass))
    (left_eq : ∀ {pass next}, step pass = (.ok true, next) → left pass = left next + 1) :
    Unrolls step finish run left := by
  refine ⟨fun pass => ?_, left_eq⟩
  rw [run_many]
  cases remaining : left pass with
  | zero => rw [many_zero, step_last pass remaining]
  | succ count =>
      rw [many_succ]
      cases first : step pass with
      | mk answer next =>
          cases answer with
          | error failure => rfl
          | ok more =>
              cases more with
              | false => rfl
              | true =>
                  have same := left_eq first
                  rw [remaining, Nat.add_right_cancel_iff] at same
                  simp only [run_many next, same]

theorem run_of_goes (unrolls : Unrolls step finish run left) {count : Nat} {pass last : π}
    (goes : Goes step count pass last) : run pass = run last := by
  induction goes with
  | refl => rfl
  | next first _ ih =>
      rw [unrolls.run_eq, first]
      exact ih

/-- Every pass makes some steps, and the one after them does not go on. -/
theorem exists_last (unrolls : Unrolls step finish run left) (pass : π) :
    ∃ count last, Goes step count pass last ∧ run pass = run last ∧
      ∀ next, step last ≠ (.ok true, next) := by
  induction remaining : left pass generalizing pass with
  | zero =>
      refine ⟨0, pass, .refl pass, rfl, ?_⟩
      intro next first
      have counted := unrolls.left_eq first
      omega
  | succ count ih =>
      by_cases more : ∃ next, step pass = (.ok true, next)
      · obtain ⟨middle, first⟩ := more
        have counted := unrolls.left_eq first
        obtain ⟨further, last, goes, -, ends⟩ := ih middle (by omega)
        have whole := Goes.next first goes
        exact ⟨further + 1, last, whole, unrolls.run_of_goes whole, ends⟩
      · exact ⟨0, pass, .refl pass, rfl, fun next first => more ⟨next, first⟩⟩

/-- A change of state that no step notices is not noticed by a run. -/
theorem run_map (unrolls : Unrolls step finish run left) (Holds : π → Prop) {change : π → π}
    (kept : ∀ {pass next}, Holds pass → step pass = (.ok true, next) → Holds next)
    (step_map : ∀ {pass}, Holds pass → step (change pass) = ((step pass).1, change (step pass).2))
    (finish_map : ∀ pass, finish (change pass) = ((finish pass).1, change (finish pass).2))
    {pass : π} (held : Holds pass) : run (change pass) = ((run pass).1, change (run pass).2) := by
  induction remaining : left pass using Nat.strongRecOn generalizing pass with
  | ind count ih =>
      rw [unrolls.run_eq, unrolls.run_eq pass, step_map held]
      rcases first : step pass with ⟨failure | more, next⟩
      · rfl
      · cases more with
        | false => exact finish_map next
        | true =>
            have counted := unrolls.left_eq first
            exact ih (left next) (by omega) (kept held first) rfl

end Unrolls

end TrackImage
