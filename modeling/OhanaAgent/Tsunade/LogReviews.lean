import OhanaAgent.Tsunade.LogComponents
import OhanaAgent.Tsunade.Views

/-!
# The reviews of the logs and what is kept of them

A worker reviews the logs of four sources and returns the anomalies it grouped.
A result is the document that the job contract validated, so its enumerations
are inductive types; instants inside it are the texts it carries.  Masking it
masks these texts, which is what masking its JSON form does.
-/

namespace OhanaAgent.Tsunade

open OhanaAgent.Encoding.Json
open OhanaAgent.Privacy
open OhanaAgent.Store
open OhanaAgent.Time

/-! ## The result of a review -/

/-- `LogSourceId`. -/
inductive LogSourceId where
  | infra01
  | ha01
  | linky01
  | zwave01
  deriving DecidableEq, Repr

def LogSourceId.text : LogSourceId → Text
  | .infra01 => "infra-01".toList
  | .ha01 => "ha-01".toList
  | .linky01 => "linky-01".toList
  | .zwave01 => "zwave-01".toList

/-- The status of a collection. -/
inductive LogStatus where
  | ok
  | ko
  deriving DecidableEq, Repr

def LogStatus.text : LogStatus → String
  | .ok => "OK"
  | .ko => "KO"

inductive LogCategory where
  | exception
  | timeout
  | mqtt
  | network
  | restart
  | serial
  | zwave
  | automation
  | other
  deriving DecidableEq, Repr

def LogCategory.text : LogCategory → String
  | .exception => "exception"
  | .timeout => "timeout"
  | .mqtt => "mqtt"
  | .network => "network"
  | .restart => "restart"
  | .serial => "serial"
  | .zwave => "zwave"
  | .automation => "automation"
  | .other => "other"

inductive LogSeverity where
  | warning
  | error
  | critical
  deriving DecidableEq, Repr

def LogSeverity.text : LogSeverity → String
  | .warning => "warning"
  | .error => "error"
  | .critical => "critical"

inductive LogTrend where
  | new
  | known
  | stable
  | increasing
  | decreasing
  | disappeared
  deriving DecidableEq, Repr

def LogTrend.text : LogTrend → String
  | .new => "new"
  | .known => "known"
  | .stable => "stable"
  | .increasing => "increasing"
  | .decreasing => "decreasing"
  | .disappeared => "disappeared"

/-- One grouped anomaly. -/
structure LogFinding where
  source : LogSourceId
  signature : Text
  category : LogCategory
  severity : LogSeverity
  summary : Text
  references : List Text
  occurrences : Nat
  referenceOccurrences : Option Nat
  firstAt : Option Text
  lastAt : Option Text
  trend : LogTrend
  deriving DecidableEq

/-- The health of one source. -/
structure LogSourceHealth where
  source : LogSourceId
  status : LogStatus
  fetchedBytes : Nat
  truncated : Bool
  analyzedLines : Nat
  findings : List LogFinding
  deriving DecidableEq

/-- The window of a review. -/
structure LogWindow where
  analyzedAt : Text
  startedAt : Text
  endedAt : Text
  deriving DecidableEq

/-- `LogsHealthCheckResult`; the counts, correlations and recommendations are
only carried along. -/
structure LogsHealthCheckResult where
  status : LogStatus
  window : LogWindow
  sources : List LogSourceHealth
  synthesis : Fields

/-- The text of a UUID: hexadecimal digits in lower case, and hyphens. -/
def isUuidChar (c : Char) : Bool :=
  c.isDigit || ('a' ≤ c && c ≤ 'f') || c == '-'

/-- The identifier of a job. -/
structure JobId where
  text : Text
  uuid : ∀ c ∈ text, isUuidChar c = true

/-! ## What the repository keeps -/

/-- An anomaly with its component. -/
structure ReviewedFinding where
  finding : LogFinding
  component : Component
  deriving DecidableEq

/-- What justifies an incident, apart from routine and accepted noise. -/
structure LogSplit where
  findings : List ReviewedFinding
  backgroundFindings : List ReviewedFinding
  acceptedFindings : List ReviewedFinding
  deriving DecidableEq

/-- All the anomalies of a split. -/
def LogSplit.known (split : LogSplit) : List ReviewedFinding :=
  split.findings ++ split.backgroundFindings ++ split.acceptedFindings

/-- `context_json` of a log incident. -/
structure LogContext where
  source : LogSourceId
  status : LogStatus
  fetchedBytes : Nat
  truncated : Bool
  analyzedLines : Nat
  window : LogWindow
  split : LogSplit
  deriving DecidableEq

/-- A row of `tsunade_accepted_log_signatures`. -/
structure AcceptedSignature where
  source : Text
  signature : Text
  summary : Text
  acceptedAt : Int

def AcceptedSignature.key (row : AcceptedSignature) : Text × Text :=
  (row.source, row.signature)

/-- A row of `tsunade_accepted_log_components`. -/
structure AcceptedComponent where
  source : Text
  component : Text
  label : Text
  acceptedAt : Int

def AcceptedComponent.key (row : AcceptedComponent) : Text × Text :=
  (row.source, row.component)

/-- The incident database with what the log reviews add to it: the contexts of
the incidents and the two tables of accepted noise. -/
structure LogHealth where
  store : Store
  contexts : Text → Option LogContext
  signatures : Table AcceptedSignature AcceptedSignature.key
  components : Table AcceptedComponent AcceptedComponent.key

def LogHealth.empty : LogHealth where
  store := Store.empty
  contexts := fun _ => none
  signatures := ∅
  components := ∅

/-- The environment of the repository, with its privacy filters and `str.title`. -/
structure LogEnvironment where
  base : Environment
  unicode : Unicode
  title : Text → Text
  redactText_eq : ∀ text, base.redactText text =
    String.ofList (redactSensitiveText unicode text.toList)
  redactValue_eq : base.redactValue = redactSensitiveValue unicode

/-! ## Documents -/

/-- The fields of a finding in its JSON form. -/
def LogFinding.fields (finding : LogFinding) : List (String × Value) :=
  [("source", .string finding.source.text), ("signature", .string finding.signature),
    ("category", string finding.category.text), ("severity", string finding.severity.text),
    ("summary", .string finding.summary),
    ("references", .array (.ofList (finding.references.map .string))),
    ("occurrences", .number (.ofNat finding.occurrences)),
    ("reference_occurrences", (finding.referenceOccurrences.map fun n =>
      Value.number (.ofNat n)).getD (.atom .null)),
    ("first_at", (finding.firstAt.map .string).getD (.atom .null)),
    ("last_at", (finding.lastAt.map .string).getD (.atom .null)),
    ("trend", string finding.trend.text)]

def LogFinding.document (finding : LogFinding) : Value :=
  object finding.fields

def ReviewedFinding.document (reviewed : ReviewedFinding) : Value :=
  object (reviewed.finding.fields ++ [("component", .string reviewed.component.id),
    ("component_label", .string reviewed.component.label)])

/-- A list of reviewed findings in its JSON form. -/
def findingsDocument (findings : List ReviewedFinding) : Value :=
  .array (.ofList (findings.map ReviewedFinding.document))

/-- The three lists of a split in their JSON form. -/
def LogSplit.document (split : LogSplit) : Value :=
  object [("findings", findingsDocument split.findings),
    ("background_findings", findingsDocument split.backgroundFindings),
    ("accepted_findings", findingsDocument split.acceptedFindings)]

def LogContext.document (context : LogContext) : Value :=
  object [("source", .string context.source.text), ("status", string context.status.text),
    ("fetched_bytes", .number (.ofNat context.fetchedBytes)),
    ("truncated", boolean context.truncated),
    ("analyzed_lines", .number (.ofNat context.analyzedLines)),
    ("findings", findingsDocument context.split.findings),
    ("analyzed_at", .string context.window.analyzedAt),
    ("window_started_at", .string context.window.startedAt),
    ("window_ended_at", .string context.window.endedAt),
    ("background_findings", findingsDocument context.split.backgroundFindings),
    ("accepted_findings", findingsDocument context.split.acceptedFindings)]

def LogSourceHealth.document (source : LogSourceHealth) : Value :=
  object [("source", .string source.source.text), ("status", string source.status.text),
    ("fetched_bytes", .number (.ofNat source.fetchedBytes)),
    ("truncated", boolean source.truncated),
    ("analyzed_lines", .number (.ofNat source.analyzedLines)),
    ("findings", .array (.ofList (source.findings.map LogFinding.document)))]

/-- The fields of a result, with a job in the place of the field of that name. -/
def LogsHealthCheckResult.payload (result : LogsHealthCheckResult) (jobId : JobId) : Value :=
  let fields := Fields.cons "status".toList (string result.status.text)
    (.cons "analyzed_at".toList (.string result.window.analyzedAt)
      (.cons "window_started_at".toList (.string result.window.startedAt)
        (.cons "window_ended_at".toList (.string result.window.endedAt)
          (.cons "sources".toList
            (.array (.ofList (result.sources.map LogSourceHealth.document)))
            result.synthesis))))
  .object (fields.set "job_id".toList (.string jobId.text))

/-! ## Masking -/

section Masking

variable (unicode : Unicode)

/-- The texts of a finding, masked. -/
def LogFinding.redacted (finding : LogFinding) : LogFinding :=
  { finding with
    signature := redactSensitiveText unicode finding.signature
    summary := redactSensitiveText unicode finding.summary
    references := finding.references.map (redactSensitiveText unicode)
    firstAt := finding.firstAt.map (redactSensitiveText unicode)
    lastAt := finding.lastAt.map (redactSensitiveText unicode) }

def ReviewedFinding.redacted (reviewed : ReviewedFinding) : ReviewedFinding where
  finding := reviewed.finding.redacted unicode
  component := ⟨redactSensitiveText unicode reviewed.component.id,
    redactSensitiveText unicode reviewed.component.label⟩

def LogSplit.redacted (split : LogSplit) : LogSplit where
  findings := split.findings.map (ReviewedFinding.redacted unicode)
  backgroundFindings := split.backgroundFindings.map (ReviewedFinding.redacted unicode)
  acceptedFindings := split.acceptedFindings.map (ReviewedFinding.redacted unicode)

def LogWindow.redacted (window : LogWindow) : LogWindow where
  analyzedAt := redactSensitiveText unicode window.analyzedAt
  startedAt := redactSensitiveText unicode window.startedAt
  endedAt := redactSensitiveText unicode window.endedAt

def LogContext.redacted (context : LogContext) : LogContext :=
  { context with
    window := context.window.redacted unicode
    split := context.split.redacted unicode }

def LogSourceHealth.redacted (source : LogSourceHealth) : LogSourceHealth :=
  { source with findings := source.findings.map (LogFinding.redacted unicode) }

def LogsHealthCheckResult.redacted (result : LogsHealthCheckResult) : LogsHealthCheckResult where
  status := result.status
  window := result.window.redacted unicode
  sources := result.sources.map (LogSourceHealth.redacted unicode)
  synthesis := redactSensitiveFields unicode result.synthesis

/-! ### Masking the JSON form -/

variable {unicode}

theorem redactSensitiveItems_ofList (values : List Value) :
    redactSensitiveItems unicode (.ofList values) =
      .ofList (values.map (redactSensitiveValue unicode)) := by
  induction values with
  | nil => rfl
  | cons value values ih =>
      rw [Items.ofList, redactSensitiveItems, ih]
      rfl

/-- Masking an object with plain names masks its values. -/
theorem redactSensitiveValue_object {fields : List (String × Value)}
    (plain : ∀ field ∈ fields, isSensitiveKey unicode field.1.toList = false) :
    redactSensitiveValue unicode (object fields) =
      object (fields.map fun field => (field.1, redactSensitiveValue unicode field.2)) := by
  have masked : ∀ fields : List (String × Value),
      (∀ field ∈ fields, isSensitiveKey unicode field.1.toList = false) →
        redactSensitiveFields unicode (.ofList (fields.map fun field =>
          (field.1.toList, field.2))) = .ofList (fields.map fun field =>
            (field.1.toList, redactSensitiveValue unicode field.2)) := by
    intro fields
    induction fields with
    | nil => exact fun _ => rfl
    | cons field fields ih =>
        intro plain
        have head := plain field List.mem_cons_self
        have rest := ih fun other member => plain other (List.mem_cons_of_mem field member)
        simp only [List.map_cons, Fields.ofList, redactSensitiveFields, head, rest]
        rfl
  rw [object, redactSensitiveValue, masked fields plain, object, List.map_map]
  rfl

/-- The names of the fields of the documents. -/
def logFieldNames : List String :=
  ["source", "signature", "category", "severity", "summary", "references", "occurrences",
    "reference_occurrences", "first_at", "last_at", "trend", "component", "component_label",
    "status", "fetched_bytes", "truncated", "analyzed_lines", "findings", "analyzed_at",
    "window_started_at", "window_ended_at", "background_findings", "accepted_findings", "job_id",
    "result"]

theorem logFieldNames_not_sensitive {name : String} (member : name ∈ logFieldNames) :
    isSensitiveKey unicode name.toList = false := by
  have inside : name.toList ∈ logFieldNames.map String.toList := List.mem_map_of_mem member
  have lower : ∀ letters ∈ logFieldNames.map String.toList, ∀ c ∈ letters,
      c.toNat < 128 ∧ c.toLower = c := by
    simp only [logFieldNames, List.map_cons, List.map_nil]
    -- the letters of each name are read once
    repeat rw [String.toList_ofList]
    decide +kernel
  have quiet : ∀ letters ∈ logFieldNames.map String.toList,
      (sensitiveKeys.contains (stripUnderscores (normalizeKey false letters)) ||
        ["_token", "_password", "_passwd", "_secret", "_api_key"].any fun ending =>
          ending.toList.isSuffixOf (stripUnderscores (normalizeKey false letters))) = false := by
    simp only [logFieldNames, sensitiveKeys, List.map_cons, List.map_nil, List.any_cons,
      List.any_nil]
    repeat rw [String.toList_ofList]
    decide +kernel
  rw [isSensitiveKey, flatMap_casefold unicode (lower _ inside)]
  exact quiet _ inside

/-- The words of the enumerations are not masked. -/
theorem redactSensitiveValue_plain {text : Text} (plain : Plain text) :
    redactSensitiveValue unicode (.string text) = .string text := by
  rw [redactSensitiveValue, plain.redactSensitiveText]

theorem LogSourceId.plain (source : LogSourceId) : Plain source.text := by
  cases source <;>
    (unfold Plain LogSourceId.text; rw [String.toList_ofList]; decide)

theorem LogStatus.plain (status : LogStatus) : Plain status.text.toList := by
  cases status <;>
    (unfold Plain LogStatus.text; rw [String.toList_ofList]; decide)

theorem LogCategory.plain (category : LogCategory) : Plain category.text.toList := by
  cases category <;>
    (unfold Plain LogCategory.text; rw [String.toList_ofList]; decide)

theorem LogSeverity.plain (severity : LogSeverity) : Plain severity.text.toList := by
  cases severity <;>
    (unfold Plain LogSeverity.text; rw [String.toList_ofList]; decide)

theorem LogTrend.plain (trend : LogTrend) : Plain trend.text.toList := by
  cases trend <;>
    (unfold Plain LogTrend.text; rw [String.toList_ofList]; decide)

/-- The optional fields of a finding, masked. -/
theorem redactSensitiveValue_getD (value : Option Value) :
    redactSensitiveValue unicode (value.getD (.atom .null)) =
      (value.map (redactSensitiveValue unicode)).getD (.atom .null) := by
  cases value with
  | none => rw [Option.getD_none, redactSensitiveValue, Option.map_none, Option.getD_none]
  | some value => rfl

theorem redactSensitiveValue_strings (texts : List Text) :
    redactSensitiveValue unicode (.array (.ofList (texts.map .string))) =
      .array (.ofList ((texts.map (redactSensitiveText unicode)).map .string)) := by
  rw [redactSensitiveValue, redactSensitiveItems_ofList, List.map_map, List.map_map]
  rfl

theorem LogFinding.redact_fields (finding : LogFinding) :
    finding.fields.map (fun field => (field.1, redactSensitiveValue unicode field.2)) =
      (finding.redacted unicode).fields := by
  have source := @redactSensitiveValue_plain unicode _ finding.source.plain
  have category := @redactSensitiveValue_plain unicode _ finding.category.plain
  have severity := @redactSensitiveValue_plain unicode _ finding.severity.plain
  have trend := @redactSensitiveValue_plain unicode _ finding.trend.plain
  have number (n : Nat) : redactSensitiveValue unicode (.number (.ofNat n)) =
      .number (.ofNat n) := by
    rw [redactSensitiveValue]
  have text (text : Text) : redactSensitiveValue unicode (.string text) =
      .string (redactSensitiveText unicode text) := by
    rw [redactSensitiveValue]
  have texts : redactSensitiveValue unicode ∘ Value.string =
      Value.string ∘ redactSensitiveText unicode := funext text
  have numbers : (redactSensitiveValue unicode ∘ fun n => Value.number (.ofNat n)) =
      fun n => Value.number (.ofNat n) := funext number
  simp only [LogFinding.fields, LogFinding.redacted, string, List.map_cons, List.map_nil, source,
    category, severity, trend, number, text, redactSensitiveValue_strings,
    redactSensitiveValue_getD, Option.map_map, texts, numbers]

/-- Masking the document of a finding is masking its texts. -/
theorem LogFinding.redact_document (finding : LogFinding) :
    redactSensitiveValue unicode finding.document = (finding.redacted unicode).document := by
  have named : ∀ field ∈ finding.fields, field.1 ∈ logFieldNames := by
    simp [LogFinding.fields, logFieldNames]
  rw [LogFinding.document, redactSensitiveValue_object fun field member =>
    logFieldNames_not_sensitive (named field member), finding.redact_fields]
  rfl

theorem ReviewedFinding.redact_document (reviewed : ReviewedFinding) :
    redactSensitiveValue unicode reviewed.document = (reviewed.redacted unicode).document := by
  have named : ∀ field ∈ reviewed.finding.fields ++
      [("component", .string reviewed.component.id),
        ("component_label", .string reviewed.component.label)], field.1 ∈ logFieldNames := by
    simp [LogFinding.fields, logFieldNames]
  rw [ReviewedFinding.document, redactSensitiveValue_object fun field member =>
    logFieldNames_not_sensitive (named field member), List.map_append,
    reviewed.finding.redact_fields]
  simp [ReviewedFinding.document, ReviewedFinding.redacted, redactSensitiveValue]

theorem redactSensitiveValue_findingsDocument (findings : List ReviewedFinding) :
    redactSensitiveValue unicode (findingsDocument findings) =
      findingsDocument (findings.map (ReviewedFinding.redacted unicode)) := by
  rw [findingsDocument, redactSensitiveValue, redactSensitiveItems_ofList, findingsDocument,
    List.map_map, List.map_map]
  congr 2
  apply List.map_congr_left
  exact fun reviewed _ => reviewed.redact_document

/-- Masking the stored context of an incident is masking its texts. -/
theorem LogContext.redact_document (context : LogContext) :
    redactSensitiveValue unicode context.document = (context.redacted unicode).document := by
  have source := @redactSensitiveValue_plain unicode _ context.source.plain
  have status := @redactSensitiveValue_plain unicode _ context.status.plain
  have truncated : redactSensitiveValue unicode (boolean context.truncated) =
      boolean context.truncated := by
    rw [boolean, redactSensitiveValue]
  have number (n : Nat) : redactSensitiveValue unicode (.number (.ofNat n)) =
      .number (.ofNat n) := by
    rw [redactSensitiveValue]
  have text (text : Text) : redactSensitiveValue unicode (.string text) =
      .string (redactSensitiveText unicode text) := by
    rw [redactSensitiveValue]
  have named : ∀ name ∈ ["source", "status", "fetched_bytes", "truncated", "analyzed_lines",
      "findings", "analyzed_at", "window_started_at", "window_ended_at", "background_findings",
      "accepted_findings"], name ∈ logFieldNames := by
    simp [logFieldNames]
  rw [LogContext.document, redactSensitiveValue_object]
  · simp only [List.map_cons, List.map_nil, string, source, status, truncated, number, text,
      redactSensitiveValue_findingsDocument]
    rfl
  · intro field member
    exact logFieldNames_not_sensitive (named field.1 (List.mem_map_of_mem member))

end Masking

end OhanaAgent.Tsunade
