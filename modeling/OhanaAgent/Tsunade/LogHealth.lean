import OhanaAgent.Tsunade.LogReviews

/-!
# Incidents of the log reviews

`record_log_health` keeps one incident for each source: it opens or updates it
for significant anomalies and for a collection that failed, and resolves it
otherwise.  The user accepts a signature or a component as known noise, which
sorts the stored anomalies of the incident again.
-/

namespace OhanaAgent.Tsunade

open OhanaAgent.Encoding.Json
open OhanaAgent.Privacy
open OhanaAgent.Store
open OhanaAgent.Time

/-! ## Triage -/

/-- `LOG_WARNING_VOLUME`: a warning repeated this often is a symptom. -/
def logWarningVolume : Nat := 100

/-- `is_significant_log_finding`. -/
def isSignificantLogFinding (finding : LogFinding) : Bool :=
  match finding.severity with
  | .error | .critical => true
  | .warning => logWarningVolume ≤ finding.occurrences

/-- `annotate_log_finding`. -/
def annotateLogFinding (env : LogEnvironment) (finding : LogFinding) : ReviewedFinding where
  finding := finding
  component := logComponent env.title env.unicode finding.signature

/-- Where a finding goes. -/
inductive Triage where
  | significant
  | background
  | accepted
  deriving DecidableEq, Repr

/-- `log_check_summary`. -/
def logCheckSummary (result : LogsHealthCheckResult) : String :=
  let findings := (result.sources.map fun source => source.findings.length).sum
  let outcome :=
    if findings ≠ 0 then toString findings ++ " anomalie(s) regroupée(s)"
    else if result.status = .ok then "aucune anomalie"
    else "résultat sans synthèse exploitable"
  let incomplete := result.sources.any LogSourceHealth.truncated
  "Contrôle des journaux par Katsuyu terminé : " ++ outcome ++
    if incomplete then ", collecte incomplète" else ""

namespace LogHealth

variable (env : LogEnvironment)

/-- A signature is accepted for a source. -/
def acceptsSignature (source signature : Text) (memory : LogHealth) : Bool :=
  memory.signatures.rows.any fun row => row.source = source && row.signature = signature

/-- A component is accepted for a source, under the id it has today. -/
def acceptsComponent (source component : Text) (memory : LogHealth) : Bool :=
  memory.components.rows.any fun row =>
    row.source = source && canonicalComponent row.component = component

/-- The body of the loop of `_split_log_findings`. -/
def triage (source : Text) (reviewed : ReviewedFinding) (memory : LogHealth) : Triage :=
  -- accepting a component never hides a critical line
  if memory.acceptsSignature source reviewed.finding.signature ||
      (memory.acceptsComponent source reviewed.component.id &&
        reviewed.finding.severity ≠ .critical) then .accepted
  else if isSignificantLogFinding reviewed.finding then .significant
  else .background

/-- `_split_log_findings`. -/
def splitLogFindings (source : Text) (findings : List LogFinding) (memory : LogHealth) :
    LogSplit :=
  let reviewed := findings.map (annotateLogFinding env)
  { findings := reviewed.filter fun finding => memory.triage source finding = .significant
    backgroundFindings := reviewed.filter fun finding =>
      memory.triage source finding = .background
    acceptedFindings := reviewed.filter fun finding => memory.triage source finding = .accepted }

end LogHealth

/-! ## The incident of a source -/

/-- The key of the log incidents of a source. -/
def logKey (source : Text) : Key where
  node := source
  service := if source = LogSourceId.infra01.text then "system-journal".toList
    else "home-assistant".toList
  capability := "logs.health".toList

/-- The key that the incidents of `infra-01` had. -/
def legacyLogKey : Key where
  node := LogSourceId.infra01.text
  service := "home-assistant".toList
  capability := "logs.health".toList

/-- The name of the field of an event that keeps its job. -/
def jobIdKey : Text := "job_id".toList

/-- The event records a job. -/
def Event.ofJob (jobId : JobId) (event : Event) : Bool :=
  fieldOf jobIdKey event.payload = some (.string jobId.text)

/-- The sentence on the significant anomalies of a source. -/
def significantMessage (source : Text) (significant : List ReviewedFinding) : String :=
  String.ofList source ++ " : " ++ toString significant.length ++
    " anomalie(s) significative(s) dans les journaux"

/-- The message of an incident after a review. -/
def LogSourceHealth.message (source : LogSourceHealth) (split : LogSplit) (failed : Bool) :
    String :=
  (if failed then
    String.ofList source.source.text ++ " : collecte des journaux sans résultat exploitable"
  else significantMessage source.source.text split.findings) ++
    if source.truncated then " (collecte incomplète)" else ""

/-- The sentence on a resolved incident. -/
def resolvedLogResult (accepted truncated : Bool) : String :=
  "Katsuyu n’a trouvé aucune anomalie significative dans la période analysée." ++
    (if accepted then " Les anomalies restantes sont acceptées comme connues." else "") ++
    if truncated then " Collecte partielle : la partie analysée est saine." else ""

/-- The source of a review as the context of an incident keeps it. -/
def LogSourceHealth.context (source : LogSourceHealth) (window : LogWindow) (split : LogSplit) :
    LogContext where
  source := source.source
  status := source.status
  fetchedBytes := source.fetchedBytes
  truncated := source.truncated
  analyzedLines := source.analyzedLines
  window := window
  split := split

/-- The collection of a source failed. -/
def LogSourceHealth.collectionFailed (source : LogSourceHealth) : Bool :=
  source.status ≠ .ok && source.findings.isEmpty

/-- The incident a review opens. -/
def LogSourceHealth.incident (source : LogSourceHealth) (now : Int) (jobId : JobId)
    (message : String) (incidentId : Text) (recurrence : Nat) : IncidentRow where
  incidentId := incidentId
  key := logKey source.source.text
  equipmentId := source.source.text
  severity := .degraded
  startedAt := now
  lastObservedAt := now
  endedAt := none
  lastObservationId := jobId.text
  message := message
  occurrenceCount := 1
  recurrenceCount := recurrence
  finalResult := none

/-- An incident that a review found again. -/
def IncidentRow.logUpdated (now : Int) (jobId : JobId) (message : String) (row : IncidentRow) :
    IncidentRow :=
  { row with
    severity := .degraded
    lastObservedAt := now
    lastObservationId := jobId.text
    message := message
    occurrenceCount := row.occurrenceCount + 1 }

/-- An incident whose service was renamed. -/
def IncidentRow.moved (key : Key) (row : IncidentRow) : IncidentRow :=
  { row with key }

theorem IncidentRow.incidentId_moved (key : Key) (row : IncidentRow) :
    (row.moved key).incidentId = row.incidentId := rfl

/-- An incident with another message. -/
def IncidentRow.restated (message : String) (row : IncidentRow) : IncidentRow :=
  { row with message }

theorem IncidentRow.incidentId_restated (message : String) (row : IncidentRow) :
    (row.restated message).incidentId = row.incidentId := rfl

/-- What one source of a review comes to. -/
inductive Review where
  /-- The job is recorded already; the incident is affected when it is active. -/
  | repeated (affected : Option Text)
  /-- Nothing is significant and no incident is active. -/
  | calm
  /-- Nothing is significant any more. -/
  | resolved
  | opened (incidentId : Text)
  | updated (incidentId : Text)
  deriving DecidableEq

/-- The incident a source adds to the answer. -/
def Review.affected : Review → Option Text
  | .repeated affected => affected
  | .calm | .resolved => none
  | .opened incidentId | .updated incidentId => some incidentId

namespace LogHealth

variable (env : LogEnvironment) (now : Int)

/-- An incident of `infra-01` moves to the service it has today. -/
def renameLegacy (source : LogSourceId) (memory : LogHealth) : LogHealth :=
  if source = .infra01 ∧ (memory.store.active (logKey source.text)).isNone then
    match memory.store.active legacyLogKey with
    | none => memory
    | some legacy =>
        { memory with
          store := { memory.store with
            incidents := memory.store.incidents.modify legacy.incidentId
              (IncidentRow.moved (logKey source.text))
              (IncidentRow.incidentId_moved (logKey source.text)) } }
  else memory

/-- The log incident of a source with an event of a job; the database may
return any of several. -/
def recordedIncident (source : LogSourceId) (jobId : JobId) (memory : LogHealth) :
    Option IncidentRow :=
  memory.store.events.findSome? fun event =>
    if event.ofJob jobId then
      (memory.store.incidents.find? event.incidentId).filter fun row =>
        row.equipmentId = source.text && row.key.capability = "logs.health".toList
    else none

/-- The payload of a review event. -/
def reviewPayload (jobId : JobId) (context : LogContext) : Value :=
  object [("job_id", .string jobId.text), ("result", context.document)]

/-- Resolve the active incident of a source. -/
def resolve (source jobId : Text) (accepted truncated : Bool) (document : Value)
    (memory : LogHealth) : LogHealth :=
  { memory with
    store := memory.store.resolveLogIncident env.base now (logKey source) jobId
      (resolvedLogResult accepted truncated) document }

/-- Open the incident of a source. -/
def openIncident (jobId : JobId) (source : LogSourceHealth) (context : LogContext)
    (message : String) (memory : LogHealth) : Except Failure (Review × LogHealth) := do
  let incidentId := env.base.uuid memory.store.uuids
  let recurrence := memory.store.incidents.rows.countP fun row =>
    row.key = logKey source.source.text
  let inserted ← { memory.store with uuids := memory.store.uuids + 1 }.insertIncident
    (source.incident now jobId message incidentId recurrence)
  return (.opened incidentId,
    { memory with
      store := inserted.event env.base incidentId .opened now message
        (reviewPayload jobId context) none
      contexts := Function.update memory.contexts incidentId (some context) })

/-- Update the active incident of a source. -/
def updateIncident (jobId : JobId) (incident : IncidentRow) (context : LogContext)
    (message : String) (memory : LogHealth) : LogHealth :=
  { memory with
    store := { memory.store with
      incidents := memory.store.incidents.modify incident.incidentId
        (IncidentRow.logUpdated now jobId message) fun _ => rfl }.event env.base
      incident.incidentId .investigation now message (reviewPayload jobId context) none
    contexts := Function.update memory.contexts incident.incidentId (some context) }

/-- What a source that is not recorded yet does to its incident. -/
def reviewNew (jobId : JobId) (window : LogWindow) (source : LogSourceHealth)
    (memory : LogHealth) : Except Failure (Review × LogHealth) :=
  let split := memory.splitLogFindings env source.source.text source.findings
  let context := source.context window split
  let failed := source.collectionFailed
  let message := source.message split failed
  let current := memory.store.active (logKey source.source.text)
  if split.findings.isEmpty && !failed then
    match current with
    | none => .ok (.calm, memory)
    | some _ =>
        .ok (.resolved, memory.resolve env now source.source.text jobId.text
          (!split.acceptedFindings.isEmpty) source.truncated context.document)
  else
    match current with
    | none => memory.openIncident env now jobId source context message
    | some incident =>
        .ok (.updated incident.incidentId,
          memory.updateIncident env now jobId incident context message)

/-- The loop body of `record_log_health` after the renaming. -/
def reviewNamed (jobId : JobId) (window : LogWindow) (source : LogSourceHealth)
    (memory : LogHealth) : Except Failure (Review × LogHealth) :=
  match memory.recordedIncident source.source jobId with
  | some incident =>
      .ok (.repeated (if incident.endedAt.isNone then some incident.incidentId else none), memory)
  | none =>
      match (memory.store.active (logKey source.source.text)).filter fun incident =>
          incident.lastObservationId = jobId.text with
      | some incident => .ok (.repeated (some incident.incidentId), memory)
      | none => memory.reviewNew env now jobId window source

/-- The loop body of `record_log_health`. -/
def review (jobId : JobId) (window : LogWindow) (source : LogSourceHealth)
    (memory : LogHealth) : Except Failure (Review × LogHealth) :=
  (memory.renameLegacy source.source).reviewNamed env now jobId window source

/-- The loop of `record_log_health`. -/
def reviewSources (jobId : JobId) (window : LogWindow) :
    List LogSourceHealth → LogHealth → Except Failure (List Text × LogHealth)
  | [], memory => .ok ([], memory)
  | source :: rest, memory => do
      let (review, next) ← memory.review env now jobId window source
      let (affected, last) ← reviewSources jobId window rest next
      return (review.affected.toList ++ affected, last)

/-- `record_log_health` without an incident. -/
def recordLogHealth (jobId : JobId) (result : LogsHealthCheckResult) (memory : LogHealth) :
    Except Failure (List Text) × LogHealth :=
  let safe := result.redacted env.unicode
  commit (reviewSources env now jobId safe.window safe.sources) memory

/-- `record_log_health` for an incident. -/
def attachLogHealth (jobId : JobId) (incidentId : Text) (result : LogsHealthCheckResult)
    (memory : LogHealth) : LogHealth :=
  let safe := result.redacted env.unicode
  match memory.store.get env.base now incidentId with
  | (.error _, store) => { memory with store }
  | (.ok incident, store) =>
      if (store.latestEvents incident.incidentId).any fun event =>
          (event.shown env.unicode).ofJob jobId then { memory with store }
      else
        -- `append_record` reads the incident again, before and after it writes
        match store.get env.base now incidentId with
        | (.error _, store) => { memory with store }
        | (.ok incident, store) =>
            { memory with
              store := (store.appendRecord env.base now incident.incidentId .investigation
                (logCheckSummary safe) (safe.payload jobId)).expireRepairs env.base now }

/-! ## Known noise -/

/-- What an incident keeps of its last review, as it is read. -/
def contextOf (incident : IncidentRow) (memory : LogHealth) : Option LogContext :=
  (memory.contexts incident.incidentId).map (LogContext.redacted env.unicode)

/-- Reading masks the document that the review stored. -/
theorem document_contextOf (incident : IncidentRow) (memory : LogHealth) :
    (memory.contextOf env incident).map LogContext.document =
      (memory.contexts incident.incidentId).map fun context =>
        redactSensitiveValue env.unicode context.document := by
  rw [contextOf, Option.map_map]
  congr 1
  funext context
  exact context.redact_document.symm

/-- The anomalies of a context. -/
def knownFindings (context : Option LogContext) : List LogFinding :=
  (context.elim [] fun context => context.split.known).map ReviewedFinding.finding

/-- Sort the anomalies of the active incident of a source again, after the user
accepted something. -/
def sortAgain (source : Text) (summary : String) (payload : Value) (memory : LogHealth) :
    LogHealth :=
  match memory.store.active (logKey source) with
  | none => memory
  | some current =>
      let context := memory.contextOf env current
      let split := memory.splitLogFindings env source (knownFindings context)
      if split.findings.isEmpty then
        memory.resolve env now source current.lastObservationId
          (!split.acceptedFindings.isEmpty) (context.any LogContext.truncated)
          (context.elim split.document fun context =>
            LogContext.document { context with split })
      else
        { memory with
          store := { memory.store with
            incidents := memory.store.incidents.modify current.incidentId
              (IncidentRow.restated (significantMessage source split.findings))
              (IncidentRow.incidentId_restated _) }.event env.base current.incidentId .investigation now summary payload
              none
          contexts := Function.update memory.contexts current.incidentId
            (context.map fun context => { context with split }) }

/-- `accept_log_signature`. -/
def acceptLogSignature (source signature : Text) (memory : LogHealth) : LogHealth :=
  let known := (memory.store.active (logKey source)).elim [] fun current =>
    knownFindings (memory.contextOf env current)
  let summary := ((known.find? fun finding => finding.signature = signature).map fun finding =>
    if finding.summary.isEmpty then signature else finding.summary).getD signature
  let row : AcceptedSignature := ⟨source, signature, summary.take 500, now⟩
  { memory with signatures := memory.signatures.replace row }.sortAgain env now source
    ("Anomalie acceptée comme connue : " ++ String.ofList (summary.take 200))
    (object [("accepted_signature", .string signature)])

/-- `accept_log_component`. -/
def acceptLogComponent (source component label : Text) (memory : LogHealth) : LogHealth :=
  let canonical := canonicalComponent component
  let row : AcceptedComponent :=
    ⟨source, canonical, (componentLabel env.title canonical label).take 120, now⟩
  { memory with components := memory.components.replace row }.sortAgain env now source
    ("Composant accepté comme connu : " ++ String.ofList (label.take 120))
    (object [("accepted_component", .string canonical)])

/-- `revoke_log_signature`. -/
def revokeLogSignature (source signature : Text) (memory : LogHealth) : LogHealth :=
  { memory with
    signatures := memory.signatures.filter fun row =>
      !(row.source = source && row.signature = signature) }

/-- `revoke_log_component`. -/
def revokeLogComponent (source component : Text) (memory : LogHealth) : LogHealth :=
  { memory with
    components := memory.components.filter fun row =>
      !(row.source = source && canonicalComponent row.component = canonicalComponent component) }

end LogHealth

/-! ## A deployment -/

/-- The summer environment with the privacy filters of ASCII. -/
def logEnvironment : LogEnvironment where
  base := { summerEnvironment with
    redactText := fun text => String.ofList (redactSensitiveText asciiUnicode text.toList)
    redactValue := redactSensitiveValue asciiUnicode }
  unicode := asciiUnicode
  title := id
  redactText_eq := fun _ => rfl
  redactValue_eq := rfl

def firstJob : JobId := ⟨['1'], by decide⟩

def secondJob : JobId := ⟨['2'], by decide⟩

/-- A review of `ha-01`. -/
def haReview (status : LogStatus) (findings : List LogFinding) : LogsHealthCheckResult where
  status := status
  window := ⟨['7', 'h'], ['6', 'h'], ['7', 'h']⟩
  sources := [⟨.ha01, status, 10, false, 3, findings⟩]
  synthesis := .nil

/-- An error of the camera integration. -/
def tapoTimeout : LogFinding where
  source := .ha01
  signature := ['[', 't', 'a', 'p', 'o', ']']
  category := .timeout
  severity := .error
  summary := ['t']
  references := []
  occurrences := 3
  referenceOccurrences := none
  firstAt := none
  lastAt := none
  trend := .new

end OhanaAgent.Tsunade
