import Mathlib.Data.List.Basic
import OhanaAgent.Store.Scope

/-!
# Handlers and overwritten places

What statements have written before an exception stays, and a handler starts
from there.  A handler that puts old contents back restores the state exactly
when it reaches every place that was overwritten with another content.
-/

namespace OhanaAgent.Store

universe u

section Runs

variable {σ ε α β : Type u} {state : σ}

@[simp]
theorem run_pure (answer : α) :
    (pure answer : Statements σ ε α).run state = (.ok answer, state) := rfl

@[simp]
theorem run_throw (failure : ε) :
    (throw failure : Statements σ ε α).run state = (.error failure, state) := rfl

@[simp]
theorem run_modify (f : σ → σ) :
    (modify f : Statements σ ε PUnit).run state = (.ok ⟨⟩, f state) := rfl

@[simp]
theorem run_get : (get : Statements σ ε σ).run state = (.ok state, state) := rfl

/-- A result computed without the state. -/
@[simp]
theorem run_liftExcept (result : Except ε α) :
    (liftExcept result : Statements σ ε α).run state = (result, state) := by
  cases result with
  | ok answer => rfl
  | error failure => rfl

theorem run_bind_of_ok {body : Statements σ ε α} {next : α → Statements σ ε β} {answer : α}
    {working : σ} (found : body.run state = (.ok answer, working)) :
    (body >>= next).run state = (next answer).run working := by
  show StateT.run (ExceptT.run (body >>= next)) state = _
  rw [ExceptT.run_bind]
  simp only [bind, StateT.bind, StateT.run] at found ⊢
  rw [found]

theorem run_bind_of_error {body : Statements σ ε α} {next : α → Statements σ ε β} {failure : ε}
    {working : σ} (found : body.run state = (.error failure, working)) :
    (body >>= next).run state = (.error failure, working) := by
  show StateT.run (ExceptT.run (body >>= next)) state = _
  rw [ExceptT.run_bind]
  simp only [bind, StateT.bind, StateT.run] at found ⊢
  rw [found]
  rfl

/-- The handler starts from what the body has written. -/
def handle (body : Statements σ ε α) (handler : ε → Statements σ ε α) : Statements σ ε α :=
  tryCatch body handler

theorem run_handle (body : Statements σ ε α) (handler : ε → Statements σ ε α) :
    (handle body handler).run state = match body.run state with
      | (.ok answer, working) => (.ok answer, working)
      | (.error failure, working) => (handler failure).run working := by
  unfold handle ExceptT.run
  simp only [tryCatch, tryCatchThe, MonadExceptOf.tryCatch, ExceptT.tryCatch, ExceptT.mk, bind,
    StateT.bind]
  cases body state with
  | mk result working =>
      cases result with
      | ok answer => rfl
      | error failure => rfl

end Runs

/-! ## Overwritten places -/

section Places

variable {κ β : Type u} [DecidableEq κ]

/-- The contents after the given places are overwritten. -/
def overwrite (places : List κ) (content old : κ → β) : κ → β :=
  fun place => if place ∈ places then content place else old place

variable {content old : κ → β}

@[simp]
theorem overwrite_nil : overwrite [] content old = old := by
  funext place
  exact if_neg List.not_mem_nil

theorem overwrite_of_mem {places : List κ} {place : κ} (member : place ∈ places) :
    overwrite places content old place = content place :=
  if_pos member

theorem overwrite_of_not_mem {places : List κ} {place : κ} (other : place ∉ places) :
    overwrite places content old place = old place :=
  if_neg other

/-- Place after place is all of them. -/
theorem overwrite_overwrite (first rest : List κ) :
    overwrite rest content (overwrite first content old) = overwrite (first ++ rest) content old := by
  funext place
  by_cases later : place ∈ rest
  · rw [overwrite_of_mem later, overwrite_of_mem (List.mem_append_right first later)]
  · rw [overwrite_of_not_mem later]
    by_cases before : place ∈ first
    · rw [overwrite_of_mem before, overwrite_of_mem (List.mem_append_left rest before)]
    · rw [overwrite_of_not_mem before, overwrite_of_not_mem]
      exact fun member => (List.mem_append.mp member).elim before later

theorem overwrite_eq_self_iff {places : List κ} :
    overwrite places content old = old ↔ ∀ place ∈ places, content place = old place := by
  constructor
  · intro same place member
    have written : overwrite places content old place = content place := overwrite_of_mem member
    rw [← written, same]
  · intro same
    funext place
    by_cases member : place ∈ places
    · rw [overwrite_of_mem member, same place member]
    · exact overwrite_of_not_mem member

/-- Old contents that are put back at some places restore everything exactly when
the other overwritten places had that content already. -/
theorem restored_iff {restored places : List κ} :
    overwrite restored old (overwrite places content old) = old ↔
      ∀ place ∈ places, place ∉ restored → content place = old place := by
  constructor
  · intro same place member missed
    have written : overwrite places content old place = content place := overwrite_of_mem member
    rw [← written, ← congrFun same place, overwrite_of_not_mem missed]
  · intro same
    funext place
    by_cases reached : place ∈ restored
    · exact overwrite_of_mem reached
    · rw [overwrite_of_not_mem reached]
      by_cases member : place ∈ places
      · rw [overwrite_of_mem member, same place member reached]
      · exact overwrite_of_not_mem member

end Places

end OhanaAgent.Store
