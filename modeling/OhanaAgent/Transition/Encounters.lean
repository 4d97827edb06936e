import OhanaAgent.Transition.Program

/-!
# The states that the effects of a program meet

Between two effects an environment may do anything, so a run of a program is
known from the states that its effects meet.  `Traces` judges every effect by the
encounters before it and the end of the program by all of them.
-/

namespace OhanaAgent.Transition

/-- An effect and the state that it met. -/
structure Encounter (Op σ : Type) where
  op : Op
  state : σ

namespace Program

variable {Op : Type} {Answer : Op → Type} {ε φ α β σ : Type}

/-- Continue a failure with a program of its own. -/
def recover (handle : ε → Program Op Answer φ α) :
    Program Op Answer ε α → Program Op Answer φ α
  | done value => done value
  | fail error => handle error
  | act op next => act op fun answer => recover handle (next answer)

/-- A computation without effects. -/
def ofExcept : Except ε α → Program Op Answer ε α
  | .ok value => done value
  | .error error => fail error

section Meetings

variable (answer : (op : Op) → σ → Answer op)

/-- Answer the effects of a program by the states they meet, one after another:
the encounters and what is left of the program. -/
def meet : Program Op Answer ε α → List σ → List (Encounter Op σ) × Program Op Answer ε α
  | act op next, state :: states =>
      (⟨op, state⟩ :: (meet (next (answer op state)) states).1,
        (meet (next (answer op state)) states).2)
  | done value, _ => ([], done value)
  | fail error, _ => ([], fail error)
  | act op next, [] => ([], act op next)

/-- Whatever states they meet, the effects are allowed after the encounters
before them, and the end satisfies the postcondition. -/
def Traces (allowed : List (Encounter Op σ) → Op → Prop)
    (post : Except ε α → List (Encounter Op σ) → Prop) :
    Program Op Answer ε α → List (Encounter Op σ) → Prop
  | done value, past => post (.ok value) past
  | fail error, past => post (.error error) past
  | act op next, past => allowed past op ∧
      ∀ state, Traces allowed post (next (answer op state)) (past ++ [⟨op, state⟩])

end Meetings

variable {answer : (op : Op) → σ → Answer op} {allowed : List (Encounter Op σ) → Op → Prop}
  {past : List (Encounter Op σ)}

/-- The rule of consequence: more is allowed and less is promised. -/
theorem Traces.mono {wider : List (Encounter Op σ) → Op → Prop}
    {post weaker : Except ε α → List (Encounter Op σ) → Prop} {program : Program Op Answer ε α}
    (permits : ∀ earlier op, allowed earlier op → wider earlier op)
    (implies : ∀ outcome later, post outcome later → weaker outcome later)
    (traces : Traces answer allowed post program past) :
    Traces answer wider weaker program past := by
  induction program generalizing past with
  | done value => exact implies _ _ traces
  | fail error => exact implies _ _ traces
  | act op next inductionHypothesis =>
      constructor
      · exact permits _ _ traces.1
      · intro state
        exact inductionHypothesis _ (traces.2 state)

/-- Everything that follows comes after the encounters so far. -/
theorem Traces.extends {post : Except ε α → List (Encounter Op σ) → Prop}
    {program : Program Op Answer ε α} (traces : Traces answer allowed post program past) :
    Traces answer (fun later op => past <+: later ∧ allowed later op)
      (fun outcome later => past <+: later ∧ post outcome later) program past := by
  induction program generalizing past with
  | done value => exact ⟨List.prefix_rfl, traces⟩
  | fail error => exact ⟨List.prefix_rfl, traces⟩
  | act op next inductionHypothesis =>
      constructor
      · exact ⟨List.prefix_rfl, traces.1⟩
      · intro state
        apply (inductionHypothesis _ (traces.2 state)).mono
        · intro later op extended
          exact ⟨(List.prefix_append past _).trans extended.1, extended.2⟩
        · intro outcome later extended
          exact ⟨(List.prefix_append past _).trans extended.1, extended.2⟩

/-- The rule of sequence. -/
theorem traces_bind {rest : α → Program Op Answer ε β}
    {middle : Except ε α → List (Encounter Op σ) → Prop}
    {post : Except ε β → List (Encounter Op σ) → Prop} {first : Program Op Answer ε α}
    (traces : Traces answer allowed middle first past)
    (continues : ∀ value later, middle (.ok value) later →
      Traces answer allowed post (rest value) later)
    (fails : ∀ error later, middle (.error error) later → post (.error error) later) :
    Traces answer allowed post (first >>= rest) past := by
  induction first generalizing past with
  | done value => exact continues value past traces
  | fail error => exact fails error past traces
  | act op next inductionHypothesis =>
      constructor
      · exact traces.1
      · intro state
        exact inductionHypothesis _ (traces.2 state)

/-- The rule of recovery. -/
theorem traces_recover {handle : ε → Program Op Answer φ α}
    {middle : Except ε α → List (Encounter Op σ) → Prop}
    {post : Except φ α → List (Encounter Op σ) → Prop} {program : Program Op Answer ε α}
    (traces : Traces answer allowed middle program past)
    (ends : ∀ value later, middle (.ok value) later → post (.ok value) later)
    (handles : ∀ error later, middle (.error error) later →
      Traces answer allowed post (handle error) later) :
    Traces answer allowed post (program.recover handle) past := by
  induction program generalizing past with
  | done value => exact ends value past traces
  | fail error => exact handles error past traces
  | act op next inductionHypothesis =>
      constructor
      · exact traces.1
      · intro state
        exact inductionHypothesis _ (traces.2 state)

/-- The rule of one effect. -/
theorem traces_ask {op : Op} {post : Except ε (Answer op) → List (Encounter Op σ) → Prop}
    (granted : allowed past op)
    (holds : ∀ state, post (.ok (answer op state)) (past ++ [⟨op, state⟩])) :
    Traces answer allowed post (ask op) past :=
  ⟨granted, holds⟩

/-- The rule of a computation without effects. -/
theorem traces_ofExcept {computed : Except ε α}
    {post : Except ε α → List (Encounter Op σ) → Prop} (holds : post computed past) :
    Traces answer allowed post (ofExcept computed) past := by
  cases computed with
  | ok value => exact holds
  | error error => exact holds

/-- Every encounter of a run was allowed after those before it, and what is left
of the program traces on. -/
theorem Traces.meet {post : Except ε α → List (Encounter Op σ) → Prop}
    {program : Program Op Answer ε α} (states : List σ)
    (traces : Traces answer allowed post program past) :
    (∀ before encounter after, (program.meet answer states).1 = before ++ encounter :: after →
      allowed (past ++ before) encounter.op) ∧
    Traces answer allowed post (program.meet answer states).2
      (past ++ (program.meet answer states).1) := by
  induction program generalizing past states with
  | done value =>
      constructor
      · intro before encounter after split
        simp [Program.meet] at split
      · simpa [Program.meet] using traces
  | fail error =>
      constructor
      · intro before encounter after split
        simp [Program.meet] at split
      · simpa [Program.meet] using traces
  | act op next inductionHypothesis =>
      cases states with
      | nil =>
          constructor
          · intro before encounter after split
            simp [Program.meet] at split
          · simpa [Program.meet] using traces
      | cons state states =>
          rcases inductionHypothesis _ states (traces.2 state) with ⟨each, left⟩
          constructor
          · intro before encounter after split
            cases before with
            | nil =>
                rw [Program.meet, List.nil_append, List.cons.injEq] at split
                rw [← split.1, List.append_nil]
                exact traces.1
            | cons first before =>
                rw [Program.meet, List.cons_append, List.cons.injEq] at split
                have allowedThere := each before encounter after split.2
                rw [← split.1]
                simpa using allowedThere
          · simpa [Program.meet] using left

end Program

end OhanaAgent.Transition
