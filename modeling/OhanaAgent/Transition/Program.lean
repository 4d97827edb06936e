import Mathlib.Data.List.Basic

/-!
# Programs over atomic effects

A program ends with a value, fails, or asks for an effect and continues with
its answer.  It runs on a state that an environment changes between two effects
and it may stop after any of them, so a course of a program is any list of
moves.  `Ensures` is the weakest precondition under a relation that the changes
of the environment satisfy: every effect is allowed, and every end satisfies the
postcondition.
-/

namespace OhanaAgent.Transition

/-- A program over effects and their answers. -/
inductive Program (Op : Type) (Answer : Op → Type) (ε α : Type) where
  | done (value : α)
  | fail (error : ε)
  | act (op : Op) (next : Answer op → Program Op Answer ε α)

/-- What happens next: the program takes its effect, or the environment
changes the state. -/
inductive Move (δ : Type) where
  | step
  | disturb (change : δ)

namespace Program

variable {Op : Type} {Answer : Op → Type} {ε α β σ δ : Type}

/-- Continue with the value of a program. -/
def bind (program : Program Op Answer ε α) (rest : α → Program Op Answer ε β) :
    Program Op Answer ε β :=
  match program with
  | done value => rest value
  | fail error => fail error
  | act op next => act op fun answer => (next answer).bind rest

instance : Monad (Program Op Answer ε) where
  pure := done
  bind := bind

/-- Ask for one effect and return its answer. -/
def ask (op : Op) : Program Op Answer ε (Answer op) :=
  act op done

/-- Where a program stands: what is left of it, the state, and the effects it
has taken. -/
structure Course (Op : Type) (Answer : Op → Type) (ε α σ : Type) where
  program : Program Op Answer ε α
  state : σ
  performed : List Op

section Execution

variable (perform : (op : Op) → σ → Answer op × σ) (change : δ → σ → σ)

/-- One move of a course; a program at its end takes no effect. -/
def Course.move (course : Course Op Answer ε α σ) : Move δ → Course Op Answer ε α σ
  | .step =>
      match course.program with
      | done _ => course
      | fail _ => course
      | act op next =>
          ⟨next (perform op course.state).1, (perform op course.state).2, course.performed ++ [op]⟩
  | .disturb by' => { course with state := change by' course.state }

/-- A list of moves from the start of a program. -/
def play (program : Program Op Answer ε α) (state : σ) (moves : List (Move δ)) :
    Course Op Answer ε α σ :=
  moves.foldl (Course.move perform change) ⟨program, state, []⟩

/-! ## Weakest preconditions -/

variable (rely : σ → σ → Prop) (allowed : Op → Prop)

/-- Whatever the environment does within `rely`, the program takes allowed
effects only and ends in the postcondition. -/
def Ensures (post : Except ε α → σ → Prop) : Program Op Answer ε α → σ → Prop
  | done value, state => ∀ later, rely state later → post (.ok value) later
  | fail error, state => ∀ later, rely state later → post (.error error) later
  | act op next, state => ∀ later, rely state later →
      allowed op ∧ Ensures post (next (perform op later).1) (perform op later).2

end Execution

variable {perform : (op : Op) → σ → Answer op × σ} {change : δ → σ → σ} {rely : σ → σ → Prop}
  {allowed : Op → Prop}

/-- A precondition holds after every change that it relies on. -/
theorem Ensures.stable {post : Except ε α → σ → Prop} {program : Program Op Answer ε α}
    {state later : σ} (trans : ∀ {first second third}, rely first second → rely second third →
      rely first third)
    (ensures : Ensures perform rely allowed post program state) (changed : rely state later) :
    Ensures perform rely allowed post program later := by
  cases program with
  | done value => exact fun last further => ensures last (trans changed further)
  | fail error => exact fun last further => ensures last (trans changed further)
  | act op next => exact fun last further => ensures last (trans changed further)

/-- A weaker postcondition has a weaker precondition. -/
theorem Ensures.mono {post weaker : Except ε α → σ → Prop}
    (implies : ∀ outcome state, post outcome state → weaker outcome state)
    {program : Program Op Answer ε α} : ∀ {state : σ},
    Ensures perform rely allowed post program state →
      Ensures perform rely allowed weaker program state := by
  induction program with
  | done value => exact fun ensures later changed => implies _ _ (ensures later changed)
  | fail error => exact fun ensures later changed => implies _ _ (ensures later changed)
  | act op next ih =>
      intro state ensures later changed
      obtain ⟨granted, rest⟩ := ensures later changed
      exact ⟨granted, ih _ rest⟩

/-- The rule of sequence. -/
theorem ensures_bind {rest : α → Program Op Answer ε β} {middle : Except ε α → σ → Prop}
    {post : Except ε β → σ → Prop} (refl : ∀ state, rely state state)
    (continues : ∀ value state, middle (.ok value) state →
      Ensures perform rely allowed post (rest value) state)
    (fails : ∀ error state, middle (.error error) state → post (.error error) state)
    {first : Program Op Answer ε α} : ∀ {state : σ},
    Ensures perform rely allowed middle first state →
      Ensures perform rely allowed post (first >>= rest) state := by
  induction first with
  | done value => exact fun ensures => continues value _ (ensures _ (refl _))
  | fail error => exact fun ensures later changed => fails error later (ensures later changed)
  | act op next ih =>
      intro state ensures later changed
      obtain ⟨granted, following⟩ := ensures later changed
      exact ⟨granted, ih _ following⟩

/-- The rule of an end. -/
theorem ensures_pure {post : Except ε α → σ → Prop} {value : α} {state : σ}
    (holds : ∀ later, rely state later → post (.ok value) later) :
    Ensures perform rely allowed post (pure value) state := holds

/-- The rule of one effect. -/
theorem ensures_ask {op : Op} {post : Except ε (Answer op) → σ → Prop} {state : σ}
    (granted : allowed op)
    (holds : ∀ later, rely state later → ∀ last, rely (perform op later).2 last →
      post (.ok (perform op later).1) last) :
    Ensures perform rely allowed post (ask op) state :=
  fun later changed => ⟨granted, fun last further => holds later changed last further⟩

/-- The rule of a loop, with an invariant over the items that are left. -/
theorem ensures_forM {body : β → Program Op Answer ε Unit} (invariant : List β → σ → Prop)
    (refl : ∀ state, rely state state)
    (stable : ∀ items state later, invariant items state → rely state later →
      invariant items later)
    (pass : ∀ item items state, invariant (item :: items) state →
      Ensures perform rely allowed
        (fun outcome later => outcome = .ok () ∧ invariant items later) (body item) state)
    (items : List β) : ∀ {state : σ}, invariant items state →
      Ensures perform rely allowed (fun outcome later => outcome = .ok () ∧ invariant [] later)
        (items.forM body) state := by
  induction items with
  | nil => exact fun holds later changed => ⟨rfl, stable [] _ later holds changed⟩
  | cons item items ih =>
      intro state holds
      apply ensures_bind refl _ _ (pass item items state holds)
      · exact fun _ later left => ih left.2
      · rintro error later ⟨impossible, _⟩
        contradiction

/-! ## Courses -/

/-- A property of courses that every one of the moves keeps. -/
theorem play_induction {P : Course Op Answer ε α σ → Prop} {program : Program Op Answer ε α}
    {state : σ} (start : P ⟨program, state, []⟩) (moves : List (Move δ))
    (keeps : ∀ course, ∀ move ∈ moves, P course → P (course.move perform change move)) :
    P (program.play perform change state moves) := by
  unfold play
  revert start
  generalize (⟨program, state, []⟩ : Course Op Answer ε α σ) = course
  induction moves generalizing course with
  | nil => exact id
  | cons move moves ih =>
      intro holds
      exact ih (fun course later member => keeps course later (List.mem_cons_of_mem _ member))
        _ (keeps course move List.mem_cons_self holds)

/-- Along a course within `rely` the precondition of what is left holds, every
effect taken was allowed, and so does what allowed effects and changes keep. -/
theorem Ensures.play {post : Except ε α → σ → Prop} {program : Program Op Answer ε α} {state : σ}
    (refl : ∀ state, rely state state)
    (trans : ∀ {first second third}, rely first second → rely second third → rely first third)
    {moves : List (Move δ)}
    (within : ∀ by' state, .disturb by' ∈ moves → rely state (change by' state))
    {invariant : σ → Prop} (effects : ∀ op state, allowed op → invariant state →
      invariant (perform op state).2)
    (changes : ∀ by' state, invariant state → invariant (change by' state))
    (ensures : Ensures perform rely allowed post program state) (start : invariant state) :
    Ensures perform rely allowed post (program.play perform change state moves).program
        (program.play perform change state moves).state ∧
      (∀ op ∈ (program.play perform change state moves).performed, allowed op) ∧
      invariant (program.play perform change state moves).state := by
  apply play_induction (P := fun course =>
    Ensures perform rely allowed post course.program course.state ∧
      (∀ op ∈ course.performed, allowed op) ∧ invariant course.state)
  · exact ⟨ensures, by simp, start⟩
  · rintro ⟨program, state, performed⟩ move member ⟨kept, granted, holds⟩
    cases move with
    | disturb by' =>
        exact ⟨kept.stable trans (within by' state member), granted, changes by' state holds⟩
    | step =>
        cases program with
        | done value => exact ⟨kept, granted, holds⟩
        | fail error => exact ⟨kept, granted, holds⟩
        | act op next =>
            obtain ⟨permitted, following⟩ := kept state (refl state)
            refine ⟨following, ?_, effects op state permitted holds⟩
            intro taken member
            rcases List.mem_append.mp member with earlier | last
            · exact granted taken earlier
            · exact List.mem_singleton.mp last ▸ permitted

end Program

end OhanaAgent.Transition
