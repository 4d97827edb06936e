import OhanaAgent.Store.Scope
import OhanaAgent.Tsunade.Service

/-!
# Rejected answers

An answer to a request of an ended incident first marks the request resolved and
then raises, inside the scope of the connection.  The methods are written here
statement by statement; in their scopes they are the transactions of the
repository, and the mark is rolled back with them.
-/

namespace OhanaAgent.Tsunade

open OhanaAgent.Encoding.Json
open OhanaAgent.Store
open OhanaAgent.Time

/-- A request whose incident is over. -/
def RequestRow.resolved (row : RequestRow) : RequestRow :=
  { row with state := .resolved }

/-- The refusal of an answer that comes after the end of its incident. -/
def incidentResolved : Failure :=
  .value "L’incident est déjà résolu"

namespace Answers

/-! ## The methods, statement by statement -/

/-- `_required_user_request`. -/
def requiredUserRequest (requestId : Text) : Statements Store Failure RequestRow := do
  match (← get).requests.find? requestId with
  | none => throw (.lookup "Demande Tsunade inconnue")
  | some row => return row

/-- Mark a request resolved, and raise. -/
def refuseResolved (requestId : Text) : Statements Store Failure RequestRow := do
  modify fun store => { store with
    requests := store.requests.modify requestId RequestRow.resolved fun _ => rfl }
  throw incidentResolved

/-- `_required_pending_user_request`. -/
def requiredPendingUserRequest (requestId : Text) : Statements Store Failure RequestRow := do
  let row ← requiredUserRequest requestId
  if row.state ≠ .pending then
    throw (.value "Cette demande Tsunade n’attend plus de réponse")
  else
    let store ← get
    match store.incidents.find? row.incidentId with
    | none => refuseResolved requestId
    | some incident =>
        if incident.endedAt.isSome then refuseResolved requestId else return row

/-- Rewrite the row of a request, record the decision and read the row back: the
end of `defer_user_request` and of `answer_user_request`. -/
def recordDecision (env : Environment) (now : Int) (row : RequestRow) (requestId : Text)
    (response : Response) (summary : String) (write : RequestRow → RequestRow)
    (keeps : ∀ row, (write row).requestId = row.requestId) :
    Statements Store Failure RequestRow := do
  modify fun store => { store with requests := store.requests.modify requestId write keeps }
  modify (·.event env row.incidentId .decision now summary
    (Store.responsePayload requestId response) none)
  requiredUserRequest requestId

/-- `defer_user_request`. -/
def deferUserRequest (env : Environment) (now : Int) (requestId : Text) (response : Response)
    (store : Store) : Except Failure RequestRow × Store :=
  if response.choice ≠ .later then
    (.error (.value "Cette réponse ne constitue pas un report"), store)
  else
    scope (do
      modify (·.expireUserRequests now)
      let row ← requiredPendingUserRequest requestId
      if response.choice ∉ row.choices then
        throw (.value "Cette réponse n’est pas proposée par Tsunade")
      else
        recordDecision env now row requestId response
          "La décision a été reportée par l’utilisateur."
          (RequestRow.deferred (min (now + hour) row.expiresAt)) fun row => Eq.refl row.requestId)
      store

/-- `answer_user_request`. -/
def answerUserRequest (env : Environment) (now : Int) (requestId : Text) (response : Response)
    (store : Store) : Except Failure RequestRow × Store :=
  if response.choice = .later then deferUserRequest env now requestId response store
  else
    scope (do
      modify (·.expireUserRequests now)
      let row ← requiredPendingUserRequest requestId
      if response.choice ∉ row.choices then
        throw (.value "Cette réponse n’est pas proposée par Tsunade")
      else
        recordDecision env now row requestId response
          ("Réponse utilisateur enregistrée : " ++ response.choice.text ++ ".")
          (RequestRow.answered now response.choice response.source.text response.answeredBy)
          fun row => Eq.refl row.requestId) store

/-- `answer_followup`; `source` is the answer source and `summary` the text of
its event. -/
def answerFollowup (env : Environment) (now : Int) (requestId : Text) (choice : Choice)
    (deviceId : Text) (planned : Bool) (source summary : String) (store : Store) :
    Except Failure Unit × Store :=
  if choice ≠ .authorize ∧ choice ≠ .refuse then
    (.error (.value "Cette réponse n’est pas valable pour l’investigation"), store)
  else
    scope (do
      modify (·.expireUserRequests now)
      let row ← requiredPendingUserRequest requestId
      if row.kind ≠ .investigationAuthorization then
        throw (.value "Cette demande ne concerne pas une investigation")
      else if choice = .authorize ∧ planned = false then
        throw (.value "Le plan d’investigation est indisponible")
      else
        let status := if choice = .authorize then FollowupStatus.authorized else .refused
        modify fun store => { store with
          followups := store.followups.modify requestId
            (FollowupRow.settled status) (FollowupRow.requestId_settled status) }
        modify fun store => { store with
          requests := store.requests.modify requestId
            (RequestRow.answered now choice source deviceId) fun row => Eq.refl row.requestId }
        modify (·.event env row.incidentId .decision now summary
          (object [("request_id", .string requestId),
            ("authorized", boolean (choice = Choice.authorize)), ("source", string source),
            ("answered_by", .string deviceId)]) none)) store

/-! ## They are the transactions of the repository -/

section Agreement

variable {env : Environment} {now : Int} {requestId : Text} {store : Store} {row : RequestRow}

@[simp]
theorem outcome_requiredUserRequest (requestId : Text) (store : Store) :
    outcome (requiredUserRequest requestId) store =
      (store.requiredUserRequest requestId).map fun row => (row, store) := by
  unfold requiredUserRequest Store.requiredUserRequest
  simp only [outcome_bind, outcome_get, ok_bind]
  cases store.requests.find? requestId with
  | none => rfl
  | some row => rfl

@[simp]
theorem outcome_refuseResolved (requestId : Text) (store : Store) :
    outcome (refuseResolved requestId) store = .error incidentResolved := rfl

/-- The mark on a refused request has no part in the outcome. -/
@[simp]
theorem outcome_requiredPendingUserRequest (requestId : Text) (store : Store) :
    outcome (requiredPendingUserRequest requestId) store =
      (store.requiredPendingUserRequest requestId).map fun row => (row, store) := by
  unfold requiredPendingUserRequest Store.requiredPendingUserRequest
  rw [outcome_bind, outcome_requiredUserRequest]
  cases store.requiredUserRequest requestId with
  | error failure => rfl
  | ok row =>
      rw [ok_map, ok_bind, ok_bind, outcome_ite]
      by_cases pending : row.state = .pending
      · rw [if_neg (not_not_intro pending), if_neg (not_not_intro pending)]
        simp only [outcome_bind, outcome_get, ok_bind]
        cases store.incidents.find? row.incidentId with
        | none => rfl
        | some incident =>
            by_cases ended : incident.endedAt.isSome = true
            · simp only [ended, if_true]
              rfl
            · simp only [ended]
              rfl
      · rw [if_pos pending, if_pos pending]
        rfl

/-- A row that the transaction requires is in the table. -/
theorem find_of_required (required : store.requiredPendingUserRequest requestId = .ok row) :
    store.requests.find? requestId = some row := by
  unfold Store.requiredPendingUserRequest Store.requiredUserRequest at required
  cases found : store.requests.find? requestId with
  | none =>
      rw [found] at required
      contradiction
  | some other =>
      rw [found] at required
      simp only [bind, Except.bind] at required
      split at required
      · contradiction
      · split at required
        · contradiction
        · split at required
          · contradiction
          · rw [Except.ok.inj required]

/-- The row is read back as it was rewritten. -/
theorem outcome_recordDecision {response : Response} {summary : String}
    {write : RequestRow → RequestRow} {keeps : ∀ row, (write row).requestId = row.requestId}
    (found : store.requests.find? requestId = some row) :
    outcome (recordDecision env now row requestId response summary write keeps) store =
      .ok (write row, { store with
        requests := store.requests.modify requestId write keeps }.event env row.incidentId
          .decision now summary (Store.responsePayload requestId response) none) := by
  unfold recordDecision
  simp only [outcome_bind, outcome_modify, ok_bind, outcome_requiredUserRequest]
  have read : (store.requests.modify requestId write keeps).find? requestId = some (write row) := by
    rw [Table.find?_modify_self, found]
    rfl
  simp only [Store.requiredUserRequest, Store.event, read]
  rfl

/-- What the three methods begin with. -/
theorem outcome_pending {α : Type} {next : RequestRow → Statements Store Failure α} :
    outcome (do
      modify (·.expireUserRequests now)
      let row ← requiredPendingUserRequest requestId
      next row) store =
    (store.expireUserRequests now).requiredPendingUserRequest requestId >>= fun row =>
      outcome (next row) (store.expireUserRequests now) := by
  rw [outcome_bind_of_ok (outcome_modify _)]
  have required := outcome_requiredPendingUserRequest requestId (store.expireUserRequests now)
  cases found : (store.expireUserRequests now).requiredPendingUserRequest requestId with
  | error failure =>
      rw [found] at required
      exact outcome_bind_of_error required
  | ok row =>
      rw [found] at required
      exact outcome_bind_of_ok required

/-- Two continuations that agree on the rows of the table. -/
theorem required_bind_congr {α : Type} {first second : RequestRow → Except Failure α}
    (agree : ∀ row, store.requests.find? requestId = some row → first row = second row) :
    store.requiredPendingUserRequest requestId >>= first =
      store.requiredPendingUserRequest requestId >>= second := by
  cases found : store.requiredPendingUserRequest requestId with
  | error failure => rfl
  | ok row => exact agree row (find_of_required found)

/-- `defer_user_request` is the committed transaction. -/
theorem deferUserRequest_eq (env : Environment) (now : Int) (requestId : Text)
    (response : Response) (store : Store) :
    deferUserRequest env now requestId response store =
      commit (Store.deferUserRequest env now requestId response) store := by
  unfold deferUserRequest
  by_cases later : response.choice ≠ .later
  · have refused : Store.deferUserRequest env now requestId response store =
        .error (.value "Cette réponse ne constitue pas un report") := by
      unfold Store.deferUserRequest
      rw [if_pos later]
      rfl
    rw [if_pos later, commit_of_error refused]
  · rw [if_neg later]
    unfold scope commit
    rw [outcome_pending]
    unfold Store.deferUserRequest
    rw [if_neg later, required_bind_congr]
    intro row found
    by_cases offered : response.choice ∉ row.choices
    · rw [if_pos offered, if_pos offered]
      rfl
    · rw [if_neg offered, if_neg offered]
      exact outcome_recordDecision found

/-- `answer_user_request` is the committed transaction. -/
theorem answerUserRequest_eq (env : Environment) (now : Int) (requestId : Text)
    (response : Response) (store : Store) :
    answerUserRequest env now requestId response store =
      commit (Store.answerUserRequest env now requestId response) store := by
  unfold answerUserRequest
  by_cases later : response.choice = .later
  · rw [if_pos later, deferUserRequest_eq]
    unfold commit Store.answerUserRequest
    simp only [later, if_true]
  · rw [if_neg later]
    unfold scope commit
    rw [outcome_pending]
    unfold Store.answerUserRequest
    simp only [later, if_false]
    rw [required_bind_congr]
    intro row found
    by_cases offered : response.choice ∉ row.choices
    · rw [if_pos offered, if_pos offered]
      rfl
    · rw [if_neg offered, if_neg offered]
      exact outcome_recordDecision found

/-- `answer_followup` is the committed transaction. -/
theorem answerFollowup_eq (env : Environment) (now : Int) (requestId : Text) (choice : Choice)
    (deviceId : Text) (planned : Bool) (source summary : String) (store : Store) :
    answerFollowup env now requestId choice deviceId planned source summary store =
      commit (Store.answerFollowup env now requestId choice deviceId planned source summary)
        store := by
  unfold answerFollowup
  by_cases other : choice ≠ .authorize ∧ choice ≠ .refuse
  · have refused : Store.answerFollowup env now requestId choice deviceId planned source summary
        store = .error (.value "Cette réponse n’est pas valable pour l’investigation") := by
      unfold Store.answerFollowup
      rw [if_pos other]
      rfl
    rw [if_pos other, commit_of_error refused]
  · rw [if_neg other]
    unfold scope commit
    rw [outcome_pending]
    unfold Store.answerFollowup
    rw [if_neg other, required_bind_congr]
    intro row _
    by_cases kind : row.kind ≠ .investigationAuthorization
    · rw [if_pos kind, if_pos kind]
      rfl
    · rw [if_neg kind, if_neg kind]
      by_cases unplanned : choice = .authorize ∧ planned = false
      · rw [if_pos unplanned, if_pos unplanned]
        rfl
      · rw [if_neg unplanned, if_neg unplanned]
        rfl

end Agreement

/-! ## A rejected answer -/

/-- A call that answers a request. -/
inductive Answer where
  | deferUserRequest (response : Response)
  | answerUserRequest (response : Response)
  | answerFollowup (choice : Choice) (deviceId : Text) (planned : Bool) (source summary : String)

/-- The result of a call, without the row it returns. -/
def Answer.call (env : Environment) (now : Int) (requestId : Text) :
    Answer → Store → Except Failure Unit × Store
  | .deferUserRequest response, store =>
      let (result, after) := Answers.deferUserRequest env now requestId response store
      (result.map fun _ => (), after)
  | .answerUserRequest response, store =>
      let (result, after) := Answers.answerUserRequest env now requestId response store
      (result.map fun _ => (), after)
  | .answerFollowup choice deviceId planned source summary, store =>
      Answers.answerFollowup env now requestId choice deviceId planned source summary store

variable {env : Environment} {now : Int} {requestId : Text} {response : Response} {store : Store}
  {failure : Failure}

theorem deferUserRequest_rolls_back
    (raises : (deferUserRequest env now requestId response store).1 = .error failure) :
    (deferUserRequest env now requestId response store).2 = store := by
  unfold deferUserRequest at *
  split
  · rfl
  · rename_i later
    rw [if_neg later] at raises
    exact scope_rolls_back raises

theorem answerUserRequest_rolls_back
    (raises : (answerUserRequest env now requestId response store).1 = .error failure) :
    (answerUserRequest env now requestId response store).2 = store := by
  unfold answerUserRequest at *
  split
  · rename_i later
    rw [if_pos later] at raises
    exact deferUserRequest_rolls_back raises
  · rename_i later
    rw [if_neg later] at raises
    exact scope_rolls_back raises

theorem answerFollowup_rolls_back {choice : Choice} {deviceId : Text} {planned : Bool}
    {source summary : String}
    (raises : (answerFollowup env now requestId choice deviceId planned source summary store).1 =
      .error failure) :
    (answerFollowup env now requestId choice deviceId planned source summary store).2 = store := by
  unfold answerFollowup at *
  split
  · rfl
  · rename_i other
    rw [if_neg other] at raises
    exact scope_rolls_back raises

/-- A call that raises changes nothing. -/
theorem Answer.rolls_back {answer : Answer}
    (raises : (answer.call env now requestId store).1 = .error failure) :
    (answer.call env now requestId store).2 = store := by
  have raised {α : Type} {result : Except Failure α}
      (equal : (result.map fun _ => ()) = .error failure) : result = .error failure := by
    cases result with
    | error other =>
        rw [error_map, Except.error.injEq] at equal
        rw [equal]
    | ok value => contradiction
  cases answer with
  | deferUserRequest response => exact deferUserRequest_rolls_back (raised raises)
  | answerUserRequest response => exact answerUserRequest_rolls_back (raised raises)
  | answerFollowup choice deviceId planned source summary =>
      exact answerFollowup_rolls_back raises

/-- The request is settled: its row says that its incident is resolved. -/
def SettledIn (requestId : Text) (store : Store) : Prop :=
  ∃ row, store.requests.find? requestId = some row ∧ row.state = .resolved

/-- An answer that is rejected because the incident is over never settles a
pending request: the row is pending after it as before. -/
theorem rejected_answer_never_settles {row : RequestRow} {answer : Answer}
    (found : store.requests.find? requestId = some row) (pending : row.state = .pending)
    (raises : (answer.call env now requestId store).1 = .error incidentResolved) :
    (answer.call env now requestId store).2.requests.find? requestId = some row ∧
      ¬ SettledIn requestId (answer.call env now requestId store).2 := by
  have unchanged := Answer.rolls_back raises
  constructor
  · rw [unchanged]
    exact found
  · rintro ⟨other, foundOther, settled⟩
    rw [unchanged, found, Option.some.injEq] at foundOther
    rw [← foundOther, pending] at settled
    contradiction

/-! ## An answer after the end of the incident -/

/-- An incident that ended an hour after its start. -/
def endedIncident : IncidentRow where
  incidentId := "incident".toList
  key := ⟨"node".toList, "service".toList, "capability".toList⟩
  equipmentId := "device".toList
  severity := .degraded
  startedAt := 0
  lastObservedAt := hour
  endedAt := some hour
  lastObservationId := "observation".toList
  message := "La capacité est revenue à un état sain."
  occurrenceCount := 1
  recurrenceCount := 0
  finalResult := none

/-- A request of that incident, open for a day. -/
def lateRequest : RequestRow where
  requestId := "request".toList
  incidentId := "incident".toList
  kind := .experienceConfirmation
  context := ""
  question := ""
  choices := [.confirm, .no, .later]
  risk := "low".toList
  state := .pending
  createdAt := 0
  expiresAt := day
  deferredUntil := none
  answeredAt := none
  answer := none
  answerSource := none
  answeredBy := none
  actionReference := none

def lateStore : Store :=
  { Store.empty with
    incidents := ⟨[endedIncident], by simp⟩
    requests := ⟨[lateRequest], by simp⟩ }

/-- The answer comes two hours after the start. -/
def lateCall : Except Failure Unit × Store :=
  (Answer.answerUserRequest ⟨.confirm, .vision, "vision".toList⟩).call summerEnvironment (2 * hour)
    "request".toList lateStore

theorem lateCall_raises : lateCall.1 = .error incidentResolved := rfl

/-- The rejected answer leaves the request pending. -/
theorem lateCall_not_settled :
    lateCall.1 = .error incidentResolved ∧ ¬ SettledIn "request".toList lateCall.2 := by
  constructor
  · exact lateCall_raises
  · rintro ⟨row, found, settled⟩
    rw [show lateCall.2 = lateStore from Answer.rolls_back lateCall_raises] at found
    rw [← Option.some.inj ((rfl : lateStore.requests.find? _ = some lateRequest).symm.trans found)]
      at settled
    contradiction

theorem lateCall_never_settles :
    lateCall.2.requests.find? "request".toList = some lateRequest ∧
      ¬ SettledIn "request".toList lateCall.2 :=
  rejected_answer_never_settles rfl rfl lateCall_raises

end Answers

end OhanaAgent.Tsunade
