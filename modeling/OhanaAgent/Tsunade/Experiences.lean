import OhanaAgent.Tsunade.Authority
import OhanaAgent.Tsunade.Views

/-!
# Learning from confirmed incidents

A user confirms the experience of a resolved incident.  The call reads the
incident, then what the database already learned from it, and only then writes
in a transaction: a new experience, or one more occurrence of the experience
with the same signature.  The experiences of an earlier version are migrated
when the database is opened.
-/

namespace OhanaAgent.Tsunade

open OhanaAgent.Encoding.Json
open OhanaAgent.Privacy
open OhanaAgent.Store
open OhanaAgent.Time

/-! ## What a confirmation writes -/

inductive ExperienceState where
  | active
  | disabled
  | obsolete
  deriving DecidableEq, Repr

/-- The action of an experience. -/
inductive LearnedAction where
  | repair (operation target : Text)
  | manual (description : String)
  deriving DecidableEq

namespace LearnedAction

/-- `json_extract(action_json,'$.operation')`. -/
def operation : LearnedAction → Option Text
  | .repair operation _ => some operation
  | .manual _ => none

/-- `json_extract(action_json,'$.target')`. -/
def target : LearnedAction → Option Text
  | .repair _ target => some target
  | .manual _ => none

end LearnedAction

/-- An observation that an experience keeps. -/
structure LearnedObservation where
  observationId : Text
  status : Option ObservationStatus
  observedAt : Int
  summary : String

/-- The columns of `tsunade_experiences` beside those that a repair counts.  The
signature is unique. -/
structure Lesson where
  experienceId : Text
  signature : Text
  symptoms : List String
  observations : List LearnedObservation
  validatedDiagnostic : String
  action : LearnedAction
  result : String
  occurrenceCount : Nat
  confirmedBy : Text
  confirmationSource : ValidationSource
  incidentId : Text
  state : ExperienceState
  stateChangedAt : Option Int
  stateReason : Option String

/-- `TsunadeExperienceConfirmationRequest`. -/
structure ConfirmationRequest where
  source : ValidationSource
  confirmedBy : Text

/-! ## The incident that is confirmed -/

/-- An event as the incident shows it. -/
def Event.viewed (env : Environment) (event : Event) : Event :=
  { event with
    summary := env.redactText event.summary
    payload := env.redactValue event.payload }

/-- A text of the database, when it is there and not empty. -/
def shownText (env : Environment) (content : Option String) : Option String :=
  (content.filter fun text => !text.isEmpty).map env.redactText

/-- What a confirmation uses of the incident it read. -/
structure IncidentView where
  row : IncidentRow
  events : List Event
  repairs : List RepairRow
  manualActions : List ManualRow

namespace Store

/-- `_manual_actions_locked`. -/
def shownManualActions (incidentId : Text) (store : Store) : List ManualRow :=
  ((store.manualActions.rows.filter fun row => row.incidentId = incidentId).insertionSort
    fun first second => julianday second.declaredAt ≤ julianday first.declaredAt).take 10

/-- `_incident`, with its events. -/
def view (env : Environment) (row : IncidentRow) (store : Store) : IncidentView where
  row := { row with
    message := env.redactText row.message
    finalResult := shownText env row.finalResult }
  events := (store.latestEvents row.incidentId).map (Event.viewed env)
  repairs := (Service.shownRepairs row.incidentId store).map fun repair =>
    { repair with result := shownText env repair.result }
  manualActions := (store.shownManualActions row.incidentId).map fun action =>
    { action with description := env.redactText action.description }

end Store

/-! ## The candidate -/

/-- `TsunadeExperienceCandidate`. -/
structure Candidate where
  incidentId : Text
  prompt : String
  diagnostic : String
  action : LearnedAction
  result : String
  caution : Option String

/-- What the experience would be about. -/
inductive Lead where
  | repair (repair : RepairRow)
  | manual (action : ManualRow)

def epistemicStatusKey : Text := "epistemic_status".toList

/-- The diagnostics that count as evidence. -/
def confirmedStatuses : List Text :=
  ["confirmed_by_probe".toList, "confirmed_by_supervisor".toList]

/-- The first event that is a confirmed diagnostic.  An array or an object as the
epistemic status is not hashable: the search raises an error there. -/
def confirmedDiagnostic : List Event → Option (Option String)
  | [] => some none
  | event :: rest =>
      if event.kind = .diagnostic then
        match fieldOf epistemicStatusKey event.payload with
        | some (.array _) | some (.object _) => none
        | some (.string status) =>
            if status ∈ confirmedStatuses then some (some event.summary)
            else confirmedDiagnostic rest
        | _ => confirmedDiagnostic rest
      else confirmedDiagnostic rest

/-- The first text of some optional ones. -/
def firstText (contents : List (Option String)) : String :=
  (contents.findSome? fun content => content.filter fun text => !text.isEmpty).getD
    "Capacité saine"

namespace IncidentView

/-- The succeeded repair that is latest, or else the confirmed manual action. -/
def lead (view : IncidentView) : Option Lead :=
  if view.row.endedAt.isNone then none
  else
    match view.repairs.find? fun repair => repair.status = .succeeded with
    | some repair => some (.repair repair)
    | none =>
        (view.manualActions.find? fun action => action.status = .confirmed).map .manual

/-- `_experience_candidate` after its reads, for a repair. -/
def repairCandidate (view : IncidentView) (repair : RepairRow) : Option Candidate := do
  let diagnostic ← (← confirmedDiagnostic view.events.reverse)
  some {
    incidentId := view.row.incidentId
    prompt := "Cette intervention semble avoir résolu l’incident. " ++
      "Enregistrer comme réparation connue ?"
    diagnostic
    action := .repair repair.operation repair.target
    result := firstText [repair.result, view.row.finalResult]
    caution := none }

/-- `_manual_experience_candidate` after its read. -/
def manualCandidate (view : IncidentView) (action : ManualRow) : Option Candidate := do
  let diagnostic ← confirmedDiagnostic view.events.reverse
  some {
    incidentId := view.row.incidentId
    prompt := "Cette action semble avoir participé à la résolution. " ++
      "Souhaitez-vous la conserver comme piste de réparation connue ?"
    diagnostic := diagnostic.getD ("Symptôme observé : " ++ view.row.message)
    action := .manual action.description
    result := firstText [action.result, view.row.finalResult]
    caution := some ((if view.row.endedAt.any fun endedAt => endedAt < action.declaredAt then
        "Votre action a été déclarée après le retour à l’état sain constaté par Shikamaru"
      else "Shikamaru a constaté le retour à l’état sain après votre action") ++
      " ; cette proximité dans le temps ne prouve pas à elle seule qu’elle en est la cause. " ++
      "La piste restera une note : Ohana ne l’exécutera jamais.") }

/-- The candidate of a lead. -/
def candidate (view : IncidentView) : Lead → Option Candidate
  | .repair repair => view.repairCandidate repair
  | .manual action => view.manualCandidate action

end IncidentView

/-! ## The transaction -/

/-- `str.split`. -/
def words (text : Text) : List Text :=
  (text.splitOnP isWhitespace).filter fun word => word ≠ []

/-- The parts of a signature. -/
def signatureParts (key : Key) (candidate : Candidate) : List Text :=
  [key.node, key.service, key.capability, candidate.diagnostic.toList] ++
    match candidate.action with
    | .repair operation target => [operation, target]
    | .manual description => [[], [], [' '].intercalate (words description.toList)]

/-- The signature of an experience, from the digest of its parts. -/
def signatureOf (digest : Text → Text) (key : Key) (candidate : Candidate) : Text :=
  digest ([Char.ofNat 0].intercalate (signatureParts key candidate))

namespace IncidentView

/-- The symptoms that a new experience keeps. -/
def symptoms (view : IncidentView) : List String :=
  let seen := ((view.events.filter fun event => event.kind = .opened || event.kind = .observed ||
    event.kind = .escalated).map Event.summary).take 32
  if seen = [] then [view.row.message] else seen

/-- The observations that a new experience keeps. -/
def observations (view : IncidentView) : List LearnedObservation :=
  let seen := view.events.filterMap fun event => event.observationId.map fun id =>
    ⟨id, event.status, event.occurredAt, event.summary⟩
  seen.drop (seen.length - 32)

/-- The recovery that a confirmation counts. -/
def succeededAt (view : IncidentView) (now : Int) : Int :=
  view.row.endedAt.getD now

/-- The columns that repairs count, of a new experience. -/
def experience (view : IncidentView) (now : Int) (candidate : Candidate) (experienceId : Text) :
    ExperienceRow where
  experienceId := experienceId
  equipmentId := view.row.equipmentId
  capabilityId := view.row.key.capability
  operation := candidate.action.operation
  target := candidate.action.target
  active := true
  attemptCount := 1
  successCount := 1
  failureCount := 0
  lastUsedAt := now
  lastSuccessAt := some (view.succeededAt now)
  lastFailureAt := none

/-- The other columns of a new experience. -/
def lesson (view : IncidentView) (candidate : Candidate) (request : ConfirmationRequest)
    (experienceId signature : Text) : Lesson where
  experienceId := experienceId
  signature := signature
  symptoms := view.symptoms
  observations := view.observations
  validatedDiagnostic := candidate.diagnostic
  action := candidate.action
  result := candidate.result
  occurrenceCount := 1
  confirmedBy := request.confirmedBy
  confirmationSource := request.source
  incidentId := view.row.incidentId
  state := .active
  stateChangedAt := none
  stateReason := none

end IncidentView

/-- An experience that was confirmed once more. -/
def ExperienceRow.confirmed (now succeededAt : Int) (row : ExperienceRow) : ExperienceRow :=
  { row with
    attemptCount := row.attemptCount + 1
    successCount := row.successCount + 1
    lastUsedAt := now
    lastSuccessAt := some succeededAt }

/-- Its other columns: the incident is now the one confirmed last. -/
def Lesson.confirmed (request : ConfirmationRequest) (incidentId : Text) (row : Lesson) : Lesson :=
  { row with
    occurrenceCount := row.occurrenceCount + 1
    confirmedBy := request.confirmedBy
    confirmationSource := request.source
    incidentId }

/-- An experience whose state was set. -/
def ExperienceRow.activated (active : Bool) (row : ExperienceRow) : ExperienceRow :=
  { row with active }

/-- The two parts of `tsunade_experiences`, and the rest of the database. -/
structure Memory where
  store : Store
  lessons : Table Lesson Lesson.signature

namespace Memory

/-- `already_saved`: some experience names the incident. -/
def alreadySaved (incidentId : Text) (memory : Memory) : Bool :=
  memory.lessons.rows.any fun row => row.incidentId = incidentId

/-- The insertion or the update of `confirm_experience`. -/
def writeExperience (env : Environment) (now : Int) (view : IncidentView) (candidate : Candidate)
    (request : ConfirmationRequest) (signature : Text) (memory : Memory) :
    Except Failure (Text × Memory) :=
  match memory.lessons.find? signature with
  | none =>
      let experienceId := env.uuid memory.store.uuids
      match memory.store.experiences.insert? (view.experience now candidate experienceId),
        memory.lessons.insert? (view.lesson candidate request experienceId signature) with
      | some experiences, some lessons =>
          .ok (experienceId,
            ⟨{ memory.store with experiences, uuids := memory.store.uuids + 1 }, lessons⟩)
      | _, _ => .error (.integrity "UNIQUE constraint failed: tsunade_experiences")
  | some existing =>
      .ok (existing.experienceId, ⟨{ memory.store with
        experiences := memory.store.experiences.modify existing.experienceId
          (ExperienceRow.confirmed now (view.succeededAt now)) fun _ => rfl },
        memory.lessons.modify signature (Lesson.confirmed request view.row.incidentId)
          fun _ => rfl⟩)

/-- The transaction of `confirm_experience`, which answers the experience. -/
def confirmExperience (env : Environment) (digest : Text → Text) (now : Int) (view : IncidentView)
    (candidate : Candidate) (request : ConfirmationRequest) (memory : Memory) :
    Except Failure (Text × Memory) := do
  let (experienceId, written) ← memory.writeExperience env now view candidate request
    (signatureOf digest view.row.key candidate)
  return (experienceId, { written with
    store := written.store.event env view.row.incidentId .result now
      "Réparation enregistrée comme expérience connue après validation humaine."
      (object [("experience_id", .string experienceId),
        ("confirmation_source", string request.source.text),
        ("confirmed_by", .string request.confirmedBy)]) none })

/-- `set_experience_state`. -/
def setExperienceState (env : Environment) (now : Int) (experienceId : Text)
    (state : ExperienceState) (reason : Option String) (memory : Memory) :
    Except Failure (Unit × Memory) :=
  match memory.store.experiences.find? experienceId with
  | none => .error (.lookup "Réparation connue introuvable")
  | some _ => .ok ((), ⟨{ memory.store with
      experiences := memory.store.experiences.modify experienceId
        (ExperienceRow.activated (state = .active)) fun _ => rfl },
      memory.lessons.mapRows (fun row => if row.experienceId = experienceId then
          { row with state, stateChangedAt := some now, stateReason := shownText env reason }
        else row) fun row => by split <;> rfl⟩)

end Memory

/-! ## The history migration -/

/-- An experience of an earlier version. -/
structure LegacyExperience where
  lesson : Lesson
  equipmentId : Text
  capabilityId : Text
  successCount : Nat
  failureCount : Nat
  lastUsedAt : Int

/-- `_migrate_experience_history`: each count was one attempt. -/
def LegacyExperience.migrated (row : LegacyExperience) : ExperienceRow where
  experienceId := row.lesson.experienceId
  equipmentId := row.equipmentId
  capabilityId := row.capabilityId
  operation := row.lesson.action.operation
  target := row.lesson.action.target
  active := true
  attemptCount := row.successCount + row.failureCount
  successCount := row.successCount
  failureCount := row.failureCount
  lastUsedAt := row.lastUsedAt
  lastSuccessAt := if 0 < row.successCount then some row.lastUsedAt else none
  lastFailureAt := none

/-- Its other columns: the new ones have their default values. -/
def LegacyExperience.kept (row : LegacyExperience) : Lesson :=
  { row.lesson with state := .active, stateChangedAt := none, stateReason := none }

/-- A database of an earlier version: no repair refers to an experience, and no
identifier of an experience will be drawn again. -/
structure LegacyDatabase (env : Environment) where
  store : Store
  accounted : Accounted env store
  unlinked : ∀ repair ∈ store.repairs, repair.experienceId = none
  rows : List LegacyExperience
  identifiers : (rows.map fun row => row.lesson.experienceId).Nodup
  signatures : (rows.map fun row => row.lesson.signature).Nodup
  undrawn : ∀ row ∈ rows, ∀ drawn, store.uuids ≤ drawn → row.lesson.experienceId ≠ env.uuid drawn

namespace LegacyDatabase

variable {env : Environment}

/-- The experiences of the migrated database. -/
def experiences (legacy : LegacyDatabase env) : Table ExperienceRow ExperienceRow.experienceId where
  rows := legacy.rows.map LegacyExperience.migrated
  distinct := by
    rw [List.map_map]
    exact legacy.identifiers

/-- Their other columns. -/
def lessons (legacy : LegacyDatabase env) : Table Lesson Lesson.signature where
  rows := legacy.rows.map LegacyExperience.kept
  distinct := by
    rw [List.map_map]
    exact legacy.signatures

/-- A new database. -/
def fresh (env : Environment) : LegacyDatabase env where
  store := Store.empty
  accounted := (@Service.sound_start env ∅).accounted
  unlinked := by simp [Store.empty]
  rows := []
  identifiers := List.nodup_nil
  signatures := List.nodup_nil
  undrawn := by simp

end LegacyDatabase

/-! ## The service that learns -/

/-- A call of `confirm_experience` between two of its parts. -/
inductive Confirmation where
  /-- It read the incident. -/
  | viewed (view : IncidentView) (request : ConfirmationRequest)
  /-- It found what the experience would be about. -/
  | weighed (view : IncidentView) (lead : Lead) (request : ConfirmationRequest)
  /-- It knows its candidate; `read` confirmations were committed before it looked
  for an experience of its incident. -/
  | prepared (view : IncidentView) (candidate : Candidate) (request : ConfirmationRequest)
      (read : Nat)

/-- A committed confirmation, with what it added to the counters of all
experiences. -/
structure Confirmed where
  incidentId : Text
  signature : Text
  experienceId : Text
  attempts : Nat
  successes : Nat

/-- The service with its experiences and the calls that confirm one.  Nothing
reads the journal of the committed confirmations. -/
structure Knowledge where
  service : Service
  lessons : Table Lesson Lesson.signature
  calls : Nat → Option Confirmation
  started : Nat
  journal : List Confirmed

/-- One transition of the service that learns. -/
inductive Lecture where
  | serve (action : Action)
  | confirmExperience (incidentId : Text) (request : ConfirmationRequest)
  | proceed (call : Nat)
  | setExperienceState (experienceId : Text) (state : ExperienceState) (reason : Option String)

/-- The total of a counter over the experiences. -/
def Store.total (count : ExperienceRow → Nat) (store : Store) : Nat :=
  (store.experiences.rows.map count).sum

namespace Knowledge

/-- The database is opened: its experiences are migrated, once. -/
def opened {env : Environment} (legacy : LegacyDatabase env) : Knowledge where
  service := ⟨{ legacy.store with experiences := legacy.experiences }, fun _ => none, 0⟩
  lessons := legacy.lessons
  calls := fun _ => none
  started := 0
  journal := []

/-- The experiences of a state. -/
def memory (state : Knowledge) : Memory :=
  ⟨state.service.store, state.lessons⟩

/-- Write the experiences. -/
def remember (memory : Memory) (state : Knowledge) : Knowledge :=
  { state with service := { state.service with store := memory.store }, lessons := memory.lessons }

/-- Replace or end a call. -/
def advance (index : Nat) (call : Option Confirmation) (state : Knowledge) : Knowledge :=
  { state with calls := Function.update state.calls index call }

/-- `confirm_experience` reads the incident. -/
def confirmExperience (env : Environment) (now : Int) (incidentId : Text)
    (request : ConfirmationRequest) (state : Knowledge) : Knowledge :=
  let (reply, store) := state.service.store.get env now incidentId
  let read := { state with service := { state.service with store } }
  match reply with
  | .error _ => read
  | .ok row =>
      { read with
        calls := Function.update read.calls read.started (some (.viewed (store.view env row) request))
        started := read.started + 1 }

/-- The confirmation is entered in the journal. -/
def enter (before : Store) (incidentId signature experienceId : Text) (state : Knowledge) :
    Knowledge :=
  { state with
    journal := state.journal ++ [{
      incidentId
      signature
      experienceId
      attempts := state.service.store.total ExperienceRow.attemptCount -
        before.total ExperienceRow.attemptCount
      successes := state.service.store.total ExperienceRow.successCount -
        before.total ExperienceRow.successCount }] }

/-- The next part of a call: two reads, then the transaction. -/
def proceed (env : Environment) (digest : Text → Text) (now : Int) (index : Nat)
    (state : Knowledge) : Knowledge :=
  match state.calls index with
  | none => state
  | some (.viewed view request) =>
      match view.lead with
      | none => state.advance index none
      | some (.manual action) => state.advance index (some (.weighed view (.manual action) request))
      | some (.repair repair) =>
          -- the execution of the repair was counted for a known experience
          if (state.service.store.repairs.find? repair.repairId).any fun row =>
              row.experienceId.isSome then state.advance index none
          else state.advance index (some (.weighed view (.repair repair) request))
  | some (.weighed view lead request) =>
      if state.memory.alreadySaved view.row.incidentId then state.advance index none
      else state.advance index ((view.candidate lead).map fun candidate =>
        .prepared view candidate request state.journal.length)
  | some (.prepared view candidate request _) =>
      match state.memory.confirmExperience env digest now view candidate request with
      | .error _ => state.advance index none
      | .ok (experienceId, memory) =>
          ((state.remember memory).enter state.service.store view.row.incidentId
            (signatureOf digest view.row.key candidate) experienceId).advance index none

/-- One transition.  A crash drops the calls, and the migration finds nothing to
do when the database is opened again. -/
def act (env : Environment) (digest : Text → Text) (state : Knowledge) (label : Int × Lecture) :
    Knowledge :=
  match label.2 with
  | .serve .crash =>
      { state with service := state.service.act env label.1 .crash, calls := fun _ => none }
  | .serve action => { state with service := state.service.act env label.1 action }
  | .confirmExperience incidentId request =>
      state.confirmExperience env label.1 incidentId request
  | .proceed index => state.proceed env digest label.1 index
  | .setExperienceState experienceId stateOf reason =>
      state.remember (commit
        (Memory.setExperienceState env label.1 experienceId stateOf reason) state.memory).2

end Knowledge

end OhanaAgent.Tsunade
