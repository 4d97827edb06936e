import OhanaAgent.Privacy.Redaction
import OhanaAgent.Tsunade.Service

/-!
# The two views of an incident

`list` and `get` build an incident from its row with the same function.  The
list asks the database for what it shows: whether any event handled the incident
and what the last diagnostic concluded.  The detail takes both from the thousand
latest events it loads, and looks for the last diagnostic that concluded
something.
-/

namespace OhanaAgent.Tsunade

open OhanaAgent.Encoding.Json
open OhanaAgent.Privacy
open OhanaAgent.Time

/-- `IncidentWorkflowState`. -/
inductive WorkflowState where
  | new
  | inProgress
  | treated
  | resolved
  deriving DecidableEq, Repr

/-- `IncidentExpertiseState`. -/
inductive ExpertiseState where
  | idle
  | investigating
  | deterministic
  | aiQueued
  | hypothesesReady
  | insufficientContext
  deriving DecidableEq, Repr

/-- The number zero, from the digits before its exponent. -/
def isZero (number : Number) : Bool :=
  (number.token.takeWhile fun c => c != 'e' && c != 'E').all fun c =>
    c == '-' || c == '0' || c == '.'

/-- The truth of a JSON value. -/
def truthy : Value → Bool
  | .atom .null => false
  | .atom .false => false
  | .atom _ => true
  | .number value => !isZero value
  | .string content => !content.isEmpty
  | .array items => items ≠ .nil
  | .object fields => fields ≠ .nil

/-- `payload.get(key)`. -/
def fieldOf (key : Text) : Value → Option Value
  | .object fields => fields.lookup key
  | _ => none

def cycleStatusKey : Text := ['c', 'y', 'c', 'l', 'e', '_', 's', 't', 'a', 't', 'u', 's']

/-- The states that the cycle statuses of a diagnostic stand for. -/
def expertiseStates : List (Text × ExpertiseState) :=
  [("deterministic".toList, .deterministic), ("deterministic_decision".toList, .deterministic),
    ("ai_queued".toList, .aiQueued), ("ai_completed".toList, .hypothesesReady),
    ("ai_failed".toList, .insufficientContext),
    ("insufficient_context".toList, .insufficientContext)]

/-- The state a cycle status stands for; `str` of a value that is not a string
is never a key of the table. -/
def expertiseOf : Value → Option ExpertiseState
  | .string content => expertiseStates.lookup content
  | _ => none

/-- The kinds of events that handle an incident. -/
def EventKind.handles : EventKind → Bool
  | .investigation | .diagnostic | .action | .result => true
  | _ => false

namespace Event

/-- The event as the detail shows it. -/
def shown (unicode : Unicode) (event : Event) : Event :=
  { event with
    summary := String.ofList (redactSensitiveText unicode event.summary.toList)
    payload := redactSensitiveValue unicode event.payload }

/-- What a diagnostic concluded, when it is truthy. -/
def cycleStatus (event : Event) : Option Value :=
  (fieldOf cycleStatusKey event.payload).filter truthy

/-- What an event concluded, when it is a diagnostic that did. -/
def conclusion (event : Event) : Option Value :=
  if event.kind = .diagnostic then event.cycleStatus else none

end Event

/-- The incident has neither ended nor got a result. -/
def IncidentRow.undecided (row : IncidentRow) : Bool :=
  row.endedAt.isNone && !(row.finalResult.any fun result => !result.isEmpty)

/-- The workflow state of a row. -/
def IncidentRow.workflowState (row : IncidentRow) (handled : Bool) : WorkflowState :=
  if row.endedAt.isSome then .resolved
  else if row.finalResult.any fun result => !result.isEmpty then .treated
  else if handled then .inProgress
  else .new

/-- The number of events a detail loads. -/
def eventWindow : Nat := 1000

namespace Store

/-- The events of an incident, in order. -/
def eventsOf (store : Store) (incidentId : Text) : List Event :=
  store.events.filter fun event => event.incidentId = incidentId

/-- The latest events of an incident, in order. -/
def latestEvents (store : Store) (incidentId : Text) : List Event :=
  ((store.eventsOf incidentId).reverse.take eventWindow).reverse

/-- The last diagnostic of an incident. -/
def lastDiagnostic (store : Store) (incidentId : Text) : Option Event :=
  (store.eventsOf incidentId).reverse.find? fun event => event.kind = .diagnostic

/-- The part of `_incident` that computes the two states. -/
def incidentStates (unicode : Unicode) (includeEvents : Bool) (row : IncidentRow) (store : Store) :
    WorkflowState × ExpertiseState :=
  let events :=
    if includeEvents then (store.latestEvents row.incidentId).map (Event.shown unicode) else []
  let handled := row.undecided &&
    if includeEvents then events.any fun event => event.kind.handles
    else (store.eventsOf row.incidentId).any fun event => event.kind.handles
  let cycleStatus :=
    if includeEvents then events.reverse.findSome? Event.conclusion
    else (store.lastDiagnostic row.incidentId).bind Event.cycleStatus
  (row.workflowState handled,
    (cycleStatus.bind expertiseOf).getD (if handled then .investigating else .idle))

end Store

/-! ## What is shown of an event -/

theorem cycleStatusKey_not_sensitive (unicode : Unicode) :
    isSensitiveKey unicode cycleStatusKey = false := by
  rw [isSensitiveKey, flatMap_casefold unicode (by decide)]
  decide +kernel

theorem truthy_redactSensitiveValue (unicode : Unicode) (value : Value) :
    truthy (redactSensitiveValue unicode value) = truthy value := by
  cases value with
  | atom literal => rw [redactSensitiveValue]
  | number number => rw [redactSensitiveValue]
  | string content =>
      rw [redactSensitiveValue, truthy, truthy, Bool.eq_iff_iff]
      simp [redactSensitiveText_eq_nil_iff]
  | array items => cases items <;> simp [redactSensitiveValue, redactSensitiveItems, truthy]
  | object fields => cases fields <;> simp [redactSensitiveValue, redactSensitiveFields, truthy]

/-- The names of the cycle statuses are plain. -/
theorem plain_expertiseStates : ∀ entry ∈ expertiseStates, Plain entry.1 := by
  unfold Plain
  decide +kernel

/-- Masking a text does not change which plain name it is. -/
theorem lookup_redactSensitiveText (unicode : Unicode) (content : Text)
    {table : List (Text × ExpertiseState)} (plain : ∀ entry ∈ table, Plain entry.1) :
    table.lookup (redactSensitiveText unicode content) = table.lookup content := by
  induction table with
  | nil => rfl
  | cons entry table ih =>
      obtain ⟨name, state⟩ := entry
      have rest := ih fun other member => plain other (List.mem_cons_of_mem _ member)
      have same : redactSensitiveText unicode content = name ↔ content = name :=
        redactSensitiveText_eq_plain_iff (plain (name, state) List.mem_cons_self)
      by_cases equal : content = name
      · rw [List.lookup_cons, List.lookup_cons, same.mpr equal, equal]
      · have different : redactSensitiveText unicode content ≠ name := fun found =>
          equal (same.mp found)
        rw [List.lookup_cons, List.lookup_cons, beq_eq_false_iff_ne.mpr equal,
          beq_eq_false_iff_ne.mpr different, rest]

theorem expertiseOf_redactSensitiveValue (unicode : Unicode) (value : Value) :
    expertiseOf (redactSensitiveValue unicode value) = expertiseOf value := by
  cases value with
  | string content =>
      rw [redactSensitiveValue]
      exact lookup_redactSensitiveText unicode content plain_expertiseStates
  | atom literal => rw [redactSensitiveValue]
  | number number => rw [redactSensitiveValue]
  | array items => rfl
  | object fields => rfl

/-- The field of a name that is not sensitive is masked like any value. -/
theorem fieldOf_redactSensitiveValue {unicode : Unicode} {key : Text}
    (named : isSensitiveKey unicode key = false) (payload : Value) :
    fieldOf key (redactSensitiveValue unicode payload) =
      (fieldOf key payload).map (redactSensitiveValue unicode) := by
  cases payload with
  | object fields =>
      rw [redactSensitiveValue, fieldOf, fieldOf, lookup_redactSensitiveFields, named]
      rfl
  | string content => rfl
  | atom literal => rfl
  | number number => rfl
  | array items => rfl

/-- A shown diagnostic concludes what the stored one does, masked. -/
theorem conclusion_shown (unicode : Unicode) (event : Event) :
    (event.shown unicode).conclusion = event.conclusion.map (redactSensitiveValue unicode) := by
  have status : (event.shown unicode).cycleStatus =
      event.cycleStatus.map (redactSensitiveValue unicode) := by
    rw [Event.cycleStatus, Event.cycleStatus]
    have field := fieldOf_redactSensitiveValue (cycleStatusKey_not_sensitive unicode) event.payload
    cases found : fieldOf cycleStatusKey event.payload with
    | none => simp [Event.shown, field, found]
    | some value =>
        have same := truthy_redactSensitiveValue unicode value
        by_cases true_ : truthy value = true
        · simp [Event.shown, field, found, Option.filter, same, true_]
        · simp [Event.shown, field, found, Option.filter, same, true_]
  rw [Event.conclusion, Event.conclusion, status]
  have kind : (event.shown unicode).kind = event.kind := rfl
  rw [kind]
  by_cases diagnostic : event.kind = .diagnostic
  · rw [if_pos diagnostic, if_pos diagnostic]
  · rw [if_neg diagnostic, if_neg diagnostic]
    rfl

/-! ## Where the last diagnostic is -/

section Latest

variable {store : Store} {incidentId : Text}

/-- The latest events are the end of all of them. -/
theorem reverse_latestEvents (store : Store) (incidentId : Text) :
    (store.latestEvents incidentId).reverse = (store.eventsOf incidentId).reverse.take eventWindow :=
  List.reverse_reverse _

theorem mem_of_mem_latestEvents {event : Event} (member : event ∈ store.latestEvents incidentId) :
    event ∈ store.eventsOf incidentId := by
  rw [← List.mem_reverse, reverse_latestEvents] at member
  exact List.mem_reverse.mp (List.mem_of_mem_take member)

/-- The first element that has a value is where the first candidate has one. -/
theorem findSome?_of_find? {α β : Type} {candidate : α → Bool} {value : α → Option β}
    (only : ∀ element, candidate element = false → value element = none) {list : List α}
    {element : α} {found : β} (first : list.find? candidate = some element)
    (valued : value element = some found) : list.findSome? value = some found := by
  induction list with
  | nil => cases first
  | cons head tail ih =>
      cases candidates : candidate head with
      | true =>
          rw [List.find?_cons_of_pos candidates] at first
          obtain rfl := Option.some.inj first
          rw [List.findSome?_cons_of_isSome (by simp [valued]), valued]
      | false =>
          rw [List.find?_cons_of_neg (by simp [candidates])] at first
          rw [List.findSome?_cons_of_isNone (by simp [only head candidates])]
          exact ih first

theorem conclusion_eq_none {event : Event} (other : decide (event.kind = .diagnostic) = false) :
    event.conclusion = none :=
  if_neg (of_decide_eq_false other)

/-- A diagnostic among the latest events: the last of all is among them. -/
theorem find?_latestEvents {event : Event} (member : event ∈ store.latestEvents incidentId)
    (diagnostic : event.kind = .diagnostic) :
    (store.latestEvents incidentId).reverse.find? (fun event => event.kind = .diagnostic) =
      store.lastDiagnostic incidentId := by
  have some_ : ((store.latestEvents incidentId).reverse.find?
      fun event => event.kind = .diagnostic).isSome = true := by
    rw [List.find?_isSome]
    exact ⟨event, List.mem_reverse.mpr member, decide_eq_true diagnostic⟩
  obtain ⟨found, first⟩ := Option.isSome_iff_exists.mp some_
  rw [first, Store.lastDiagnostic,
    ← List.take_append_drop eventWindow (store.eventsOf incidentId).reverse, List.find?_append,
    ← reverse_latestEvents, first]
  rfl

/-- Without a diagnostic among the latest events they conclude nothing. -/
theorem findSome?_latestEvents_eq_none
    (absent : ¬ ∃ event ∈ store.latestEvents incidentId, event.kind = .diagnostic) :
    (store.latestEvents incidentId).reverse.findSome? Event.conclusion = none := by
  rw [List.findSome?_eq_none_iff]
  intro event member
  apply conclusion_eq_none
  refine decide_eq_false ?_
  intro diagnostic
  exact absent ⟨event, List.mem_reverse.mp member, diagnostic⟩

end Latest

/-! ## When the views agree -/

/-- The last conclusion among the latest events. -/
def Store.latestConclusion (store : Store) (incidentId : Text) : Option Value :=
  (store.latestEvents incidentId).reverse.findSome? Event.conclusion

/-- The last conclusion is that of an event that no other conclusion follows. -/
theorem latestConclusion_eq_some_iff {store : Store} {incidentId : Text} {value : Value} :
    store.latestConclusion incidentId = some value ↔
      ∃ before event after, store.latestEvents incidentId = before ++ event :: after ∧
        event.conclusion = some value ∧ ∀ later ∈ after, later.conclusion = none := by
  rw [Store.latestConclusion, List.findSome?_eq_some_iff]
  constructor
  · rintro ⟨after, event, before, split, concluded, none⟩
    refine ⟨before.reverse, event, after.reverse, ?_, concluded, ?_⟩
    · rw [← List.reverse_inj, split]
      simp
    · exact fun later member => none later (List.mem_reverse.mp member)
  · rintro ⟨before, event, after, split, concluded, none⟩
    refine ⟨after.reverse, event, before.reverse, ?_, concluded, ?_⟩
    · rw [split]
      simp
    · exact fun later member => none later (List.mem_reverse.mp member)

/-- The views agree: an undecided incident that was ever handled was handled
among its latest events; its last diagnostic, when it concluded something known,
is not older than the latest events; and when it concluded nothing, no
diagnostic among the latest events concluded something known that nothing else
among them replaced. -/
structure ViewsAgree (store : Store) (row : IncidentRow) : Prop where
  handled : row.undecided = true →
    (∃ event ∈ store.eventsOf row.incidentId, event.kind.handles = true) →
      ∃ event ∈ store.latestEvents row.incidentId, event.kind.handles = true
  recent : ∀ event, store.lastDiagnostic row.incidentId = some event →
    (event.cycleStatus.bind expertiseOf).isSome = true →
      ∃ other ∈ store.latestEvents row.incidentId, other.kind = .diagnostic
  silent : ∀ event, store.lastDiagnostic row.incidentId = some event →
    event.cycleStatus = none → ∀ before concluded after,
      store.latestEvents row.incidentId = before ++ concluded :: after →
        (∀ later ∈ after, later.conclusion = none) →
          concluded.conclusion.bind expertiseOf = none

/-- The states of the list. -/
theorem incidentStates_false (unicode : Unicode) (row : IncidentRow) (store : Store) :
    store.incidentStates unicode false row =
      let handled := row.undecided &&
        (store.eventsOf row.incidentId).any fun event => event.kind.handles
      (row.workflowState handled,
        (((store.lastDiagnostic row.incidentId).bind Event.cycleStatus).bind expertiseOf).getD
          (if handled then .investigating else .idle)) := rfl

/-- The states of the detail, from the stored events. -/
theorem incidentStates_true (unicode : Unicode) (row : IncidentRow) (store : Store) :
    store.incidentStates unicode true row =
      let handled := row.undecided &&
        (store.latestEvents row.incidentId).any fun event => event.kind.handles
      (row.workflowState handled,
        ((store.latestConclusion row.incidentId).bind expertiseOf).getD
          (if handled then .investigating else .idle)) := by
  have shown : ((store.latestEvents row.incidentId).map (Event.shown unicode)).reverse.findSome?
      Event.conclusion =
        (store.latestConclusion row.incidentId).map (redactSensitiveValue unicode) := by
    have each : Event.conclusion ∘ Event.shown unicode =
        Option.map (redactSensitiveValue unicode) ∘ Event.conclusion :=
      funext (conclusion_shown unicode)
    rw [← List.map_reverse, List.findSome?_map, each, Store.latestConclusion,
      List.map_findSome?]
  have masked : ((store.latestConclusion row.incidentId).map (redactSensitiveValue unicode)).bind
      expertiseOf = (store.latestConclusion row.incidentId).bind expertiseOf := by
    rw [Option.bind_map]
    congr 1
    funext value
    exact expertiseOf_redactSensitiveValue unicode value
  simp only [Store.incidentStates, if_true, shown, masked, List.any_map]
  rfl

/-- The states of the table are not the two that stand for no conclusion. -/
theorem expertiseOf_ne {value : Value} {state : ExpertiseState} (known : expertiseOf value = some state)
    (handled : Bool) : state ≠ if handled then .investigating else .idle := by
  have listed : ∀ entry ∈ expertiseStates, entry.2 ≠ .investigating ∧ entry.2 ≠ .idle := by
    decide +kernel
  cases value with
  | string content =>
      obtain ⟨before, after, found, _⟩ := List.lookup_eq_some_iff.mp known
      obtain ⟨notInvestigating, notIdle⟩ := listed (content, state) (by simp [found])
      cases handled <;> assumption
  | _ => cases known

/-- The events that handled an undecided incident are among the latest. -/
theorem ViewsAgree.handled_eq {store : Store} {row : IncidentRow} (agree : ViewsAgree store row) :
    (row.undecided && (store.eventsOf row.incidentId).any fun event => event.kind.handles) =
      (row.undecided && (store.latestEvents row.incidentId).any fun event =>
        event.kind.handles) := by
  rw [Bool.eq_iff_iff]
  simp only [Bool.and_eq_true, List.any_eq_true]
  constructor
  · rintro ⟨undecided, handled⟩
    exact ⟨undecided, agree.handled undecided handled⟩
  · rintro ⟨undecided, event, member, handles⟩
    exact ⟨undecided, event, mem_of_mem_latestEvents member, handles⟩

/-- After a last diagnostic without a conclusion the detail knows none. -/
theorem ViewsAgree.latest_unknown {store : Store} {row : IncidentRow} {event : Event}
    (agree : ViewsAgree store row) (last : store.lastDiagnostic row.incidentId = some event)
    (silent : event.cycleStatus = none) :
    (store.latestConclusion row.incidentId).bind expertiseOf = none := by
  cases latest : store.latestConclusion row.incidentId with
  | none => rfl
  | some value =>
      obtain ⟨before, concluded, after, split, concluding, none⟩ :=
        latestConclusion_eq_some_iff.mp latest
      have unknown := agree.silent event last silent before concluded after split none
      rw [concluding] at unknown
      exact unknown

/-- The last diagnostic and the latest conclusion stand for the same state. -/
theorem ViewsAgree.expertise_eq {store : Store} {row : IncidentRow}
    (agree : ViewsAgree store row) :
    ((store.lastDiagnostic row.incidentId).bind Event.cycleStatus).bind expertiseOf =
      (store.latestConclusion row.incidentId).bind expertiseOf := by
  by_cases recent : ∃ event ∈ store.latestEvents row.incidentId, event.kind = .diagnostic
  · obtain ⟨event, member, diagnostic⟩ := recent
    have same := find?_latestEvents member diagnostic
    cases last : store.lastDiagnostic row.incidentId with
    | none =>
        rw [last, List.find?_eq_none] at same
        exact absurd (decide_eq_true diagnostic) (same event (List.mem_reverse.mpr member))
    | some found =>
        rw [last] at same
        have foundDiagnostic : found.kind = .diagnostic := by
          have kind := List.find?_some same
          exact of_decide_eq_true kind
        cases status : found.cycleStatus with
        | none =>
            rw [agree.latest_unknown last status, Option.bind_some, status]
            rfl
        | some value =>
            have concluded : found.conclusion = some value := (if_pos foundDiagnostic).trans status
            have latest := findSome?_of_find? (fun _ => conclusion_eq_none) same concluded
            rw [Store.latestConclusion, latest, Option.bind_some, status]
  · rw [Store.latestConclusion, findSome?_latestEvents_eq_none recent, Option.bind_none]
    cases last : store.lastDiagnostic row.incidentId with
    | none => rfl
    | some found =>
        rw [Option.bind_some, ← Option.not_isSome_iff_eq_none]
        intro known
        exact recent (agree.recent found last known)

/-- The workflow state of an undecided row tells whether it was handled. -/
theorem IncidentRow.workflowState_inj {row : IncidentRow} {first second : Bool}
    (equal : row.workflowState (row.undecided && first) =
      row.workflowState (row.undecided && second)) :
    (row.undecided && first) = (row.undecided && second) := by
  cases undecided : row.undecided with
  | false => rfl
  | true =>
      obtain ⟨notEnded, noResult⟩ := Bool.and_eq_true_iff.mp undecided
      have open_ : row.endedAt.isSome = false := by
        rw [Option.isNone_iff_eq_none.mp notEnded]
        rfl
      have untreated : (row.finalResult.any fun result => !result.isEmpty) = false := by
        simpa only [Bool.not_eq_true'] using noResult
      cases first <;> cases second <;>
        simp [undecided, IncidentRow.workflowState, open_, untreated] at equal ⊢

/-- A known state is not the default. -/
theorem getD_injective {first second : Option Value} {handled : Bool}
    (equal : (first.bind expertiseOf).getD (if handled then .investigating else .idle) =
      (second.bind expertiseOf).getD (if handled then .investigating else .idle)) :
    first.bind expertiseOf = second.bind expertiseOf := by
  have known (status : Option Value) (state : ExpertiseState)
      (found : status.bind expertiseOf = some state) :
      state ≠ if handled then .investigating else .idle := by
    obtain ⟨value, _, stated⟩ := Option.bind_eq_some_iff.mp found
    exact expertiseOf_ne stated handled
  cases left : first.bind expertiseOf with
  | none =>
      cases right : second.bind expertiseOf with
      | none => rfl
      | some state =>
          rw [left, right] at equal
          exact absurd equal.symm (known second state right)
  | some state =>
      cases right : second.bind expertiseOf with
      | none =>
          rw [left, right] at equal
          exact absurd equal (known first state left)
      | some other =>
          rw [left, right] at equal
          exact congrArg some equal

/-- The list and the detail of an incident show the same states exactly when the
views agree, whatever the history of the incident. -/
theorem incidentStates_eq_iff (unicode : Unicode) (store : Store) (row : IncidentRow) :
    store.incidentStates unicode false row = store.incidentStates unicode true row ↔
      ViewsAgree store row := by
  rw [incidentStates_false, incidentStates_true]
  constructor
  · intro equal
    obtain ⟨workflow, expertise⟩ := Prod.mk.inj equal
    have handled := IncidentRow.workflowState_inj workflow
    rw [handled] at expertise
    have concluded := getD_injective expertise
    refine ⟨?_, ?_, ?_⟩
    · intro undecided some_
      rw [undecided, Bool.true_and, Bool.true_and] at handled
      exact List.any_eq_true.mp (handled ▸ List.any_eq_true.mpr some_)
    · intro event last known
      by_contra absent
      rw [last, Option.bind_some, Store.latestConclusion,
        findSome?_latestEvents_eq_none absent, Option.bind_none] at concluded
      rw [concluded] at known
      cases known
    · intro event last silent before concluding after split none
      rw [last, Option.bind_some, silent, Option.bind_none] at concluded
      cases found : concluding.conclusion with
      | none => rfl
      | some value =>
          have latest := latestConclusion_eq_some_iff.mpr
            ⟨before, concluding, after, split, found, none⟩
          rw [latest] at concluded
          exact concluded.symm
  · intro agree
    simp only [agree.handled_eq, agree.expertise_eq]

/-! ## A diagnostic without a conclusion -/

/-- Letters, digits and case of ASCII. -/
def asciiUnicode : Unicode :=
  Privacy.asciiUnicode

/-- An open DHCP incident with a diagnostic that queued an analysis, and one
that only notes something. -/
def notedDiagnosis : Store :=
  (((Store.empty.process summerEnvironment summerMorning
    (dhcpObservation ['a'] .unhealthy summerMorning)).2.appendRecord summerEnvironment
      (summerMorning + minute) (summerEnvironment.uuid 0) .diagnostic "Analyse"
      (.object (.ofList [(cycleStatusKey, .string "ai_queued".toList)]))).appendRecord
        summerEnvironment (summerMorning + 2 * minute) (summerEnvironment.uuid 0) .diagnostic
        "Note" (.object (.ofList [])))

/-- The list shows an investigation where the detail shows a queued analysis. -/
theorem notedDiagnosis_views_differ :
    notedDiagnosis.incidents.rows.map (notedDiagnosis.incidentStates asciiUnicode false) =
        [(.inProgress, .investigating)] ∧
      notedDiagnosis.incidents.rows.map (notedDiagnosis.incidentStates asciiUnicode true) =
        [(.inProgress, .aiQueued)] := by
  decide +kernel

end OhanaAgent.Tsunade
