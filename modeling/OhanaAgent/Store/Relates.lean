import OhanaAgent.Store.Handlers

/-!
# Relations that statements keep

A reflexive and transitive relation between the states before and after holds for a
whole body when it holds for each of its statements, whether they raise or not.
-/

namespace OhanaAgent.Store

universe u

variable {σ ε α β : Type u} {R : σ → σ → Prop} {state after : σ}

/-- However a body ends, the states before and after are related. -/
def Relates (R : σ → σ → Prop) (body : Statements σ ε α) : Prop :=
  ∀ state, R state (body.run state).2

theorem relates_modify {f : σ → σ} (related : ∀ state, R state (f state)) :
    Relates R (modify f : Statements σ ε PUnit) :=
  related

/-- Statements that do not write. -/
theorem relates_of_unchanged (reflexive : ∀ state, R state state) {body : Statements σ ε α}
    (unchanged : ∀ state, (body.run state).2 = state) : Relates R body := by
  intro state
  rw [unchanged]
  exact reflexive state

theorem relates_liftExcept (reflexive : ∀ state, R state state) (result : Except ε α) :
    Relates R (liftExcept result : Statements σ ε α) := by
  apply relates_of_unchanged reflexive
  intro state
  rw [run_liftExcept]

theorem relates_get (reflexive : ∀ state, R state state) :
    Relates R (get : Statements σ ε σ) :=
  reflexive

theorem Relates.bind (transitive : ∀ first second third, R first second → R second third →
    R first third) {body : Statements σ ε α} {next : α → Statements σ ε β} (first : Relates R body)
    (rest : ∀ answer, Relates R (next answer)) : Relates R (body >>= next) := by
  intro state
  have earlier := first state
  cases ran : body.run state with
  | mk result working =>
      rw [ran] at earlier
      cases result with
      | ok answer =>
          rw [run_bind_of_ok ran]
          exact transitive _ _ _ earlier (rest answer working)
      | error failure =>
          rw [run_bind_of_error ran]
          exact earlier

theorem Relates.handle (transitive : ∀ first second third, R first second → R second third →
    R first third) {body : Statements σ ε α} {handler : ε → Statements σ ε α}
    (first : Relates R body) (rest : ∀ failure, Relates R (handler failure)) :
    Relates R (handle body handler) := by
  intro state
  have earlier := first state
  rw [run_handle]
  cases ran : body.run state with
  | mk result working =>
      rw [ran] at earlier
      cases result with
      | ok answer => exact earlier
      | error failure => exact transitive _ _ _ earlier (rest failure working)

/-- Both parts of a body that ends have ended. -/
theorem run_bind_eq_ok {body : Statements σ ε α} {next : α → Statements σ ε β} {result : β}
    (ended : (body >>= next).run state = (.ok result, after)) :
    ∃ answer working, body.run state = (.ok answer, working) ∧
      (next answer).run working = (.ok result, after) := by
  cases ran : body.run state with
  | mk found working =>
      cases found with
      | ok answer =>
          rw [run_bind_of_ok ran] at ended
          exact ⟨answer, working, rfl, ended⟩
      | error failure =>
          rw [run_bind_of_error ran] at ended
          cases ended

theorem run_liftExcept_eq_ok {computed : Except ε α} {result : α}
    (ended : (liftExcept computed : Statements σ ε α).run state = (.ok result, after)) :
    computed = .ok result ∧ after = state := by
  rw [run_liftExcept, Prod.mk.injEq] at ended
  exact ⟨ended.1, ended.2.symm⟩

/-- A body ends without its handler when the handler raises. -/
theorem run_handle_eq_ok {body : Statements σ ε α} {raised : ε → ε} {result : α}
    (ended : (handle body fun failure => throw (raised failure)).run state = (.ok result, after)) :
    body.run state = (.ok result, after) := by
  rw [run_handle] at ended
  cases ran : body.run state with
  | mk found working =>
      rw [ran] at ended
      cases found with
      | ok answer => exact ended
      | error failure => cases ended

end OhanaAgent.Store
