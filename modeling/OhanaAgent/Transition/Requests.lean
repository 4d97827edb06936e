import OhanaAgent.Transition.Trace

/-!
# What is outstanding in a trace

Some events of a trace open a matter and others close it; the matter is
outstanding when it was opened and not closed since.  A request for an execution
at a time is the leading case: it is opened by asking, and closed by an
execution at that time or later.
-/

namespace OhanaAgent.Transition

universe u

section Outstanding

variable {ι : Type u} {opens closes : ι → Prop} {labels : List ι} {label : ι}

/-- Opened, and not closed since. -/
def Outstanding (opens closes : ι → Prop) (labels : List ι) : Prop :=
  ∃ before opening after, labels = before ++ opening :: after ∧ opens opening ∧
    ∀ label ∈ after, ¬ closes label

@[simp]
theorem not_outstanding_nil : ¬ Outstanding opens closes [] := by
  rintro ⟨before, opening, after, split, -⟩
  simp at split

/-- One more event opens a matter, or leaves an outstanding one open. -/
theorem outstanding_concat_iff : Outstanding opens closes (labels ++ [label]) ↔
    opens label ∨ (Outstanding opens closes labels ∧ ¬ closes label) := by
  constructor
  · rintro ⟨before, opening, after, split, opened, quiet⟩
    rcases concat_eq_split_iff.mp split with ⟨_, rfl, _⟩ | ⟨rest, rfl, rfl⟩
    · exact Or.inl opened
    · rw [List.forall_mem_append, List.forall_mem_singleton] at quiet
      exact Or.inr ⟨⟨before, opening, rest, rfl, opened, quiet.1⟩, quiet.2⟩
  · rintro (opened | ⟨⟨before, opening, after, rfl, opened, quiet⟩, calm⟩)
    · exact ⟨labels, label, [], rfl, opened, by simp⟩
    · refine ⟨before, opening, after ++ [label], by simp, opened, ?_⟩
      rw [List.forall_mem_append, List.forall_mem_singleton]
      exact ⟨quiet, calm⟩

end Outstanding

/-! ## Requested executions -/

/-- What happens to a service: an execution is requested, or takes place. -/
inductive Happening (τ : Type u) where
  | requested (at_ : τ)
  | executed (at_ : τ)

variable {τ : Type u}

/-- The times of the executions, oldest first. -/
def executions (history : List (Happening τ)) : List τ :=
  history.filterMap fun
    | .requested _ => none
    | .executed at_ => some at_

@[simp]
theorem executions_nil : executions ([] : List (Happening τ)) = [] := rfl

@[simp]
theorem executions_append (first second : List (Happening τ)) :
    executions (first ++ second) = executions first ++ executions second :=
  List.filterMap_append

@[simp]
theorem executions_requested (at_ : τ) : executions [Happening.requested at_] = [] := rfl

@[simp]
theorem executions_executed (at_ : τ) : executions [Happening.executed at_] = [at_] := rfl

@[simp]
theorem executions_map_requested (times : List τ) :
    executions (times.map Happening.requested) = [] := by
  simp [executions]

variable [LE τ] {history : List (Happening τ)} {at_ request : τ}

/-- A request that no execution at its time or later has served. -/
def Pending (history : List (Happening τ)) (request : τ) : Prop :=
  Outstanding (fun happening => happening = .requested request)
    (fun happening => ∃ at_, happening = .executed at_ ∧ request ≤ at_) history

@[simp]
theorem not_pending_nil : ¬ Pending ([] : List (Happening τ)) request :=
  not_outstanding_nil

/-- Another request leaves the pending ones. -/
@[simp]
theorem pending_append_requested :
    Pending (history ++ [.requested at_]) request ↔ Pending history request ∨ request = at_ := by
  unfold Pending
  rw [outstanding_concat_iff]
  simp [or_comm, eq_comm]

/-- An execution serves the requests whose time has come. -/
@[simp]
theorem pending_append_executed :
    Pending (history ++ [.executed at_]) request ↔ Pending history request ∧ ¬ request ≤ at_ := by
  unfold Pending
  rw [outstanding_concat_iff]
  simp

/-- Several requests join the pending ones. -/
theorem pending_append_map_requested {times : List τ} :
    Pending (history ++ times.map .requested) request ↔
      Pending history request ∨ request ∈ times := by
  induction times generalizing history with
  | nil => simp
  | cons time rest ih =>
      rw [List.map_cons, List.append_cons, ih, pending_append_requested, List.mem_cons, or_assoc]

end OhanaAgent.Transition
