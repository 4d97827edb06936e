import OhanaAgent.Store.Transaction

/-!
# Statements in the scope of a connection

The statements of a transaction write one after the other, and an exception
leaves what they have written so far on the working copy.  The scope of a
connection commits the working copy, and rolls it back on an exception: what was
written before the exception does not survive it.
-/

namespace OhanaAgent.Store

universe u

variable {σ ε α β : Type u}

/-- Statements that write a state and may raise. -/
abbrev Statements (σ ε : Type u) : Type u → Type u :=
  ExceptT ε (StateM σ)

/-- What statements leave to commit. -/
def outcome (body : Statements σ ε α) (state : σ) : Except ε (α × σ) :=
  match body.run state with
  | (.ok answer, working) => .ok (answer, working)
  | (.error failure, _) => .error failure

/-- `with connection:` around statements. -/
def scope (body : Statements σ ε α) (state : σ) : Except ε α × σ :=
  commit (outcome body) state

/-- A scope that raises leaves the state as it was, whatever its statements have
written. -/
theorem scope_rolls_back {body : Statements σ ε α} {state : σ} {failure : ε}
    (raises : (scope body state).1 = .error failure) : (scope body state).2 = state := by
  unfold scope at *
  rcases commit_cases (outcome body) state with ⟨answer, next, _, equal⟩ | ⟨_, _, equal⟩
  · rw [equal] at raises
    contradiction
  · rw [equal]

/-! ## Sequences of results -/

@[simp]
theorem ok_bind (value : α) (next : α → Except ε β) : (.ok value >>= next) = next value := rfl

@[simp]
theorem error_bind (failure : ε) (next : α → Except ε β) :
    (.error failure >>= next) = .error failure := rfl

@[simp]
theorem ok_map (f : α → β) (value : α) : (.ok value : Except ε α).map f = .ok (f value) := rfl

@[simp]
theorem error_map (f : α → β) (failure : ε) :
    (.error failure : Except ε α).map f = .error failure := rfl

/-! ## The outcome of statements, statement by statement -/

section Outcomes

variable {state : σ}

@[simp]
theorem outcome_pure (answer : α) :
    outcome (pure answer : Statements σ ε α) state = .ok (answer, state) := rfl

@[simp]
theorem outcome_throw (failure : ε) :
    outcome (throw failure : Statements σ ε α) state = .error failure := rfl

@[simp]
theorem outcome_get : outcome (get : Statements σ ε σ) state = .ok (state, state) := rfl

@[simp]
theorem outcome_modify (f : σ → σ) :
    outcome (modify f : Statements σ ε PUnit) state = .ok (⟨⟩, f state) := rfl

@[simp]
theorem outcome_bind (body : Statements σ ε α) (next : α → Statements σ ε β) :
    outcome (body >>= next) state =
      outcome body state >>= fun answer => outcome (next answer.1) answer.2 := by
  have run : (body >>= next).run state = match body.run state with
      | (.ok answer, working) => (next answer).run working
      | (.error failure, working) => (.error failure, working) := by
    show StateT.run (ExceptT.run (body >>= next)) state = _
    rw [ExceptT.run_bind]
    simp only [bind, StateT.bind, StateT.run]
    cases body.run state with
    | mk result working =>
        cases result with
        | ok answer => rfl
        | error failure => rfl
  unfold outcome
  rw [run]
  cases body.run state with
  | mk result working =>
      cases result with
      | ok answer => rfl
      | error failure => rfl

theorem outcome_bind_of_ok {body : Statements σ ε α} {next : α → Statements σ ε β} {working : σ}
    {answer : α} (found : outcome body state = .ok (answer, working)) :
    outcome (body >>= next) state = outcome (next answer) working := by
  rw [outcome_bind, found, ok_bind]

theorem outcome_bind_of_error {body : Statements σ ε α} {next : α → Statements σ ε β}
    {failure : ε} (found : outcome body state = .error failure) :
    outcome (body >>= next) state = .error failure := by
  rw [outcome_bind, found, error_bind]

theorem outcome_ite (condition : Prop) [Decidable condition] (first second : Statements σ ε α) :
    outcome (if condition then first else second) state =
      if condition then outcome first state else outcome second state := by
  split
  · rfl
  · rfl

end Outcomes

end OhanaAgent.Store
