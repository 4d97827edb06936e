import OhanaAgent.Encoding.JsonRoundTrip
import OhanaAgent.Store.Table
import OhanaAgent.Time.Zone
import Mathlib.Logic.Function.Basic

/-!
# The control database of Tsunade

The tables the incident repository writes, one structure for each row, and what
the repository takes from outside.  Instants are integers; the texts the
database stores for them read back as the same instants.
-/

namespace OhanaAgent.Tsunade

open OhanaAgent.Encoding.Json
open OhanaAgent.Store
open OhanaAgent.Time

/-! ## Observations -/

/-- `ObservationStatus`. -/
inductive ObservationStatus where
  | unknown
  | healthy
  | suspended
  | degraded
  | unhealthy
  deriving DecidableEq, Repr

def ObservationStatus.text : ObservationStatus → String
  | .unknown => "unknown"
  | .healthy => "healthy"
  | .suspended => "suspended"
  | .degraded => "degraded"
  | .unhealthy => "unhealthy"

/-- The severity of an incident. -/
inductive Severity where
  | degraded
  | critical
  deriving DecidableEq, Repr

def Severity.text : Severity → String
  | .degraded => "degraded"
  | .critical => "critical"

/-- `_FAULTS`. -/
def ObservationStatus.fault? : ObservationStatus → Option Severity
  | .degraded => some .degraded
  | .unhealthy => some .critical
  | _ => none

/-- The node, service and capability an observation is about. -/
structure Key where
  node : Text
  service : Text
  capability : Text
  deriving DecidableEq

/-- An observation, with the device its metadata names. -/
structure Observation where
  id : Text
  key : Key
  status : ObservationStatus
  timestamp : Int
  message : String
  deviceId : Option Text

/-! ## Rows -/

/-- A row of `tsunade_incidents`. -/
structure IncidentRow where
  incidentId : Text
  key : Key
  equipmentId : Text
  severity : Severity
  startedAt : Int
  lastObservedAt : Int
  endedAt : Option Int
  lastObservationId : Text
  message : String
  occurrenceCount : Nat
  recurrenceCount : Nat
  finalResult : Option String

/-- The kinds of incident events. -/
inductive EventKind where
  | opened
  | observed
  | escalated
  | resolved
  | monitoringRemoved
  | investigation
  | diagnostic
  | action
  | decision
  | result
  deriving DecidableEq, Repr

/-- A row of `tsunade_incident_events`; its identifier is its position. -/
structure Event where
  incidentId : Text
  kind : EventKind
  occurredAt : Int
  observationId : Option Text
  status : Option ObservationStatus
  summary : String
  payload : Value

/-- A row of `tsunade_capability_state`, without its key. -/
structure CapabilityState where
  status : ObservationStatus
  observedAt : Int
  observationId : Text

inductive RepairStatus where
  | proposed
  | authorized
  | refused
  | expired
  | verifying
  | succeeded
  | failed
  | unverified
  deriving DecidableEq, Repr

def RepairStatus.text : RepairStatus → String
  | .proposed => "proposed"
  | .authorized => "authorized"
  | .refused => "refused"
  | .expired => "expired"
  | .verifying => "verifying"
  | .succeeded => "succeeded"
  | .failed => "failed"
  | .unverified => "unverified"

/-- `ValidationSource`. -/
inductive ValidationSource where
  | vision
  | shizune
  deriving DecidableEq, Repr

def ValidationSource.text : ValidationSource → String
  | .vision => "vision"
  | .shizune => "shizune"

/-- `str.capitalize` of the source. -/
def ValidationSource.title : ValidationSource → String
  | .vision => "Vision"
  | .shizune => "Shizune"

/-- The known repair a proposal reproduces, and the sentence on its history. -/
structure KnownRepair where
  experienceId : Text
  trackRecord : String

/-- A row of `tsunade_repairs`. -/
structure RepairRow where
  repairId : Text
  incidentId : Text
  operation : Text
  target : Text
  risk : Text
  status : RepairStatus
  proposedAt : Int
  authorizedAt : Option Int
  authorizationSource : Option ValidationSource
  authorizedBy : Option Text
  executedAt : Option Int
  verificationDeadline : Option Int
  verifiedAt : Option Int
  result : Option String
  knownRepair : Option KnownRepair
  experienceId : Option Text

/-- `UserRequestState`. -/
inductive RequestState where
  | pending
  | answered
  | expired
  | cancelled
  | resolved
  deriving DecidableEq, Repr

inductive RequestKind where
  | repairAuthorization
  | investigationAuthorization
  | experienceConfirmation
  deriving DecidableEq, Repr

/-- `UserRequestChoice`. -/
inductive Choice where
  | yes
  | no
  | authorize
  | refuse
  | later
  | confirm
  deriving DecidableEq, Repr

def Choice.text : Choice → String
  | .yes => "YES"
  | .no => "NO"
  | .authorize => "AUTHORIZE"
  | .refuse => "REFUSE"
  | .later => "LATER"
  | .confirm => "CONFIRM"

/-- A row of `tsunade_user_requests`. -/
structure RequestRow where
  requestId : Text
  incidentId : Text
  kind : RequestKind
  context : String
  question : String
  choices : List Choice
  risk : Text
  state : RequestState
  createdAt : Int
  expiresAt : Int
  deferredUntil : Option Int
  answeredAt : Option Int
  answer : Option Choice
  answerSource : Option String
  answeredBy : Option Text
  actionReference : Option Text

inductive ManualStatus where
  | verifying
  | confirmed
  | unconfirmed
  deriving DecidableEq, Repr

def ManualStatus.text : ManualStatus → String
  | .verifying => "verifying"
  | .confirmed => "confirmed"
  | .unconfirmed => "unconfirmed"

/-- A row of `tsunade_manual_actions`. -/
structure ManualRow where
  actionId : Text
  incidentId : Text
  description : String
  declaredAt : Int
  declaredBy : Option Text
  source : ValidationSource
  status : ManualStatus
  verificationDeadline : Int
  verifiedAt : Option Int
  result : Option String
  observationId : Option Text

/-- The columns of `tsunade_experiences` that a repair reads and counts.  The
action of a manual experience has no operation and no target. -/
structure ExperienceRow where
  experienceId : Text
  equipmentId : Text
  capabilityId : Text
  operation : Option Text
  target : Option Text
  active : Bool
  attemptCount : Nat
  successCount : Nat
  failureCount : Nat
  lastUsedAt : Int
  lastSuccessAt : Option Int
  lastFailureAt : Option Int

inductive FollowupStatus where
  | pending
  | authorized
  | queued
  | reviewing
  | refused
  | expired
  | cancelled
  | resolved
  | answered
  | completed
  | incomplete
  | failed
  deriving DecidableEq, Repr

def FollowupStatus.text : FollowupStatus → String
  | .pending => "pending"
  | .authorized => "authorized"
  | .queued => "queued"
  | .reviewing => "reviewing"
  | .refused => "refused"
  | .expired => "expired"
  | .cancelled => "cancelled"
  | .resolved => "resolved"
  | .answered => "answered"
  | .completed => "completed"
  | .incomplete => "incomplete"
  | .failed => "failed"

/-- The columns of `tsunade_followups` that its request and its updates follow. -/
structure FollowupRow where
  requestId : Text
  incidentId : Text
  basis : Text
  originJobId : Text
  status : FollowupStatus
  createdAt : Int
  detail : Option String

/-! ## The store -/

/-- The database, the day of the last purge and the number of identifiers
drawn. -/
structure Store where
  incidents : Table IncidentRow IncidentRow.incidentId
  events : List Event
  states : Key → Option CapabilityState
  processed : Text → Option Int
  purgedOn : Option Int
  repairs : Table RepairRow RepairRow.repairId
  requests : Table RequestRow RequestRow.requestId
  manualActions : Table ManualRow ManualRow.actionId
  experiences : Table ExperienceRow ExperienceRow.experienceId
  followups : Table FollowupRow FollowupRow.requestId
  uuids : Nat

def Store.empty : Store where
  incidents := ∅
  events := []
  states := fun _ => none
  processed := fun _ => none
  purgedOn := none
  repairs := ∅
  requests := ∅
  manualActions := ∅
  experiences := ∅
  followups := ∅
  uuids := 0

/-- A catalogue entry, as far as a proposal reads it. -/
structure RepairSpec where
  key : Text
  operation : Text
  target : Text
  risk : Text
  action : String
  question : String

/-- What the repository takes from outside: the Paris time zone, the
identifiers `uuid4` draws, the privacy filters, and the search for the known
repair a proposal reproduces. -/
structure Environment where
  paris : Zone
  uuid : Nat → Text
  uuid_injective : Function.Injective uuid
  redactText : String → String
  redactValue : Value → Value
  knownRepair : List Event → List ExperienceRow → IncidentRow → RepairSpec → Option KnownRepair

/-- The exceptions an operation raises. -/
inductive Failure where
  | value (message : String)
  | lookup (message : String)
  | integrity (message : String)
  deriving DecidableEq, Repr

namespace RepairStatus

/-- The statuses of a repair that can still progress. -/
def isOpen : RepairStatus → Bool
  | .proposed | .authorized | .verifying => true
  | _ => false

end RepairStatus

end OhanaAgent.Tsunade
