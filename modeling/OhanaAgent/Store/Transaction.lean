import Mathlib.Logic.Basic

/-!
# Transactions that roll back on failure

The body of a transaction maps a state to an answer and a new state, or fails.
Committing a body keeps the old state when the body fails.  The inversion
lemmas peel a body apart one `bind` at a time.
-/

namespace OhanaAgent.Store

universe u v w

variable {σ : Type u} {ε : Type v} {α β : Type u}

/-- A sequence succeeds when both of its parts do. -/
theorem bind_eq_ok {first : Except ε α} {next : α → Except ε β} {result : β} :
    (first >>= next) = .ok result ↔ ∃ value, first = .ok value ∧ next value = .ok result := by
  cases first with
  | error failure =>
      constructor
      · intro equal
        contradiction
      · rintro ⟨_, equal, _⟩
        contradiction
  | ok value =>
      constructor
      · intro equal
        exact ⟨value, rfl, equal⟩
      · rintro ⟨_, equal, rest⟩
        cases equal
        exact rest

@[simp]
theorem pure_eq_ok {value result : α} :
    (pure value : Except ε α) = .ok result ↔ value = result := by
  constructor
  · intro equal
    cases equal
    rfl
  · rintro rfl
    rfl

@[simp]
theorem throw_eq_ok {failure : ε} {result : α} :
    (throw failure : Except ε α) = .ok result ↔ False := by
  constructor
  · intro equal
    contradiction
  · exact False.elim

/-- Run a body: its failure leaves the state as it was. -/
def commit (body : σ → Except ε (α × σ)) (state : σ) : Except ε α × σ :=
  match body state with
  | .ok (answer, next) => (.ok answer, next)
  | .error failure => (.error failure, state)

theorem commit_of_ok {body : σ → Except ε (α × σ)} {state next : σ} {answer : α}
    (found : body state = .ok (answer, next)) : commit body state = (.ok answer, next) := by
  simp [commit, found]

theorem commit_of_error {body : σ → Except ε (α × σ)} {state : σ} {failure : ε}
    (found : body state = .error failure) : commit body state = (.error failure, state) := by
  simp [commit, found]

/-- A committed body answers and moves, or fails and stays. -/
theorem commit_cases (body : σ → Except ε (α × σ)) (state : σ) :
    (∃ answer next, body state = .ok (answer, next) ∧ commit body state = (.ok answer, next)) ∨
      ∃ failure, body state = .error failure ∧ commit body state = (.error failure, state) := by
  cases found : body state with
  | ok pair => exact Or.inl ⟨pair.1, pair.2, rfl, commit_of_ok found⟩
  | error failure => exact Or.inr ⟨failure, rfl, commit_of_error found⟩

/-- A committed state satisfies what both the old state and every successful
outcome satisfy. -/
theorem commit_induction {body : σ → Except ε (α × σ)} {state : σ} {motive : σ → Prop}
    (stays : motive state)
    (moves : ∀ answer next, body state = .ok (answer, next) → motive next) :
    motive (commit body state).2 := by
  rcases commit_cases body state with ⟨answer, next, found, equal⟩ | ⟨_, _, equal⟩
  · rw [equal]
    exact moves answer next found
  · rw [equal]
    exact stays

end OhanaAgent.Store
