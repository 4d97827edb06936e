import OhanaAgent.Tsunade.Views
import OhanaAgent.Privacy.Redaction
import OhanaAgent.Encoding.JsonRoundTrip
import Mathlib.Data.Nat.Basic

/-!
# Decisions on log reviews

A review of the logs escalates to the AI on new correlations, on critical
anomalies and on several that grow.  What was submitted before is remembered in
markers, one for each anomaly with the occurrences that were seen, and an
anomaly counts again only when it has become materially worse.
-/

namespace OhanaAgent.Tsunade

open OhanaAgent.Encoding.Json
open OhanaAgent.Privacy

/-! ## Anomalies and their markers -/

/-- An anomaly of a review, as the decision reads it: the signature when it is a
text, the occurrences as an integer (absent ones are none), the reference when
it is one. -/
structure Anomaly where
  signature : Option Text
  severity : Value
  category : Value
  occurrences : Int
  referenceOccurrences : Option Int
  trend : Value
  lastAt : Value

/-- What the decision takes from outside: the character tables of the privacy
filter, the SHA-256 digest of the sorted JSON form of a value, and the text in
UTC of an ISO text that has an offset. -/
structure LogDigests where
  unicode : Unicode
  digest : Value → Text
  utcText : Text → Option Text

/-- The reviewed anomalies, with the occurrences that were seen. -/
abbrev Markers : Type :=
  Text → Option Int

/-- `str(value or "")`, of a value that is a text; the text of another value is
none of the words that the decision looks for. -/
def wordOf : Value → Text
  | .string content => content
  | _ => []

namespace Anomaly

variable (digests : LogDigests)

/-- `_log_signature_key`. -/
def signatureKey (anomaly : Anomaly) : Option Text :=
  match anomaly.signature with
  | none | some [] => none
  | some signature => some (digests.digest (object
      [("signature", .string (redactSensitiveText digests.unicode signature)),
        ("severity", anomaly.severity), ("category", anomaly.category)]))

/-- The last date of an anomaly, in UTC where it can be read. -/
def canonicalLastAt (anomaly : Anomaly) : Value :=
  match anomaly.lastAt with
  | .string text => .string ((digests.utcText text).getD text)
  | other => other

/-- `_log_finding_fingerprint`. -/
def fingerprint (anomaly : Anomaly) : Option Text :=
  match anomaly.signature with
  | none | some [] => none
  | some signature => some (digests.digest (object
      [("signature", .string (redactSensitiveText digests.unicode signature)),
        ("severity", anomaly.severity), ("category", anomaly.category),
        ("occurrences", .number (.ofInt anomaly.occurrences)),
        ("last_at", anomaly.canonicalLastAt digests)]))

/-- The relative change is at least so many percent; the ratio is exact. -/
def changedBy (percent : Nat) (anomaly : Anomaly) : Bool :=
  match anomaly.referenceOccurrences with
  | none => false
  | some reference =>
      if 0 < reference then percent * reference ≤ 100 * (anomaly.occurrences - reference)
      else reference = 0 && 0 < anomaly.occurrences && percent ≤ 100

def isCritical (anomaly : Anomaly) : Bool :=
  wordOf anomaly.severity = "critical".toList

/-- The trend is `new` or `increasing`. -/
def grows (anomaly : Anomaly) : Bool :=
  ["new".toList, "increasing".toList].contains (wordOf anomaly.trend)

/-- The trend is `decreasing` or `disappeared`. -/
def fades (anomaly : Anomaly) : Bool :=
  ["decreasing".toList, "disappeared".toList].contains (wordOf anomaly.trend)

end Anomaly

/-- Keep the greater count of an anomaly. -/
def Markers.raise (key : Text) (occurrences : Int) (markers : Markers) : Markers :=
  fun other => if other = key then some (max ((markers key).getD 0) occurrences) else markers other

/-- `_log_signature_markers`. -/
def logSignatureMarkers (digests : LogDigests) (anomalies : List Anomaly) : Markers :=
  (anomalies.take 64).foldl (fun markers anomaly =>
    match anomaly.signatureKey digests with
    | none => markers
    | some key => markers.raise key anomaly.occurrences) fun _ => none

/-- `reviewed_log_signatures`: the highest count of each anomaly over the
recorded markers. -/
def reviewedLogSignatures (recorded : List Markers) : Markers :=
  fun key => (recorded.filterMap fun markers => markers key).max?

/-- `_materially_worse`. -/
def materiallyWorse (occurrences reviewedOccurrences : Int) : Bool :=
  max (2 * reviewedOccurrences) (reviewedOccurrences + 5) ≤ occurrences

/-! ## The decision -/

/-- A source of a review. -/
structure ReviewedSource where
  findings : List Anomaly
  truncated : Bool

/-- The payload of a decision: the findings of one source at its top, or several
sources. -/
structure LogEvidence where
  top : Option ReviewedSource
  sources : List ReviewedSource
  newCorrelations : Option (List Value)
  correlations : List Value
  reviewedLogFindings : List Text
  reviewedLogSignatures : Markers

inductive LogDecision where
  | investigate
  | watch
  | stable
  deriving DecidableEq, Repr

/-- `TsunadeDecisionResult`, with its confidence in percent; the source is
always deterministic. -/
structure LogDecisionResult where
  decision : LogDecision
  conclusion : String
  reason : String
  confidence : Nat
  recommendedAction : String
  reevaluateAfter : Option String

namespace LogEvidence

/-- The sources that the decision reads. -/
def readSources (evidence : LogEvidence) : List ReviewedSource :=
  match evidence.top with
  | some source => [source]
  | none => evidence.sources

/-- Every bounded finding. -/
def findings (evidence : LogEvidence) : List Anomaly :=
  (evidence.readSources.take 4).flatMap fun source => source.findings.take 64

/-- The correlations to escalate: the new ones, or else the bounded ones that are
objects. -/
def escalated (evidence : LogEvidence) : List Value :=
  match evidence.newCorrelations with
  | some correlations => correlations
  | none => (evidence.correlations.take 32).filter fun
      | .object _ => true
      | _ => false

def truncated (evidence : LogEvidence) : Bool :=
  evidence.readSources.any ReviewedSource.truncated

end LogEvidence

/-- What the loop over the findings gathers. -/
structure LogTally where
  meaningfulChanges : List Anomaly
  warningChanges : List Anomaly
  criticalFindings : List Anomaly
  alreadyReviewed : Nat

namespace LogTally

def start : LogTally :=
  ⟨[], [], [], 0⟩

variable (digests : LogDigests) (evidence : LogEvidence)

/-- An anomaly was part of an earlier expertise and is not materially worse. -/
def reviewed (finding : Anomaly) : Bool :=
  (finding.fingerprint digests).any evidence.reviewedLogFindings.contains ||
    ((finding.signatureKey digests).bind evidence.reviewedLogSignatures).any fun known =>
      !materiallyWorse finding.occurrences known

/-- The body of the loop. -/
def step (tally : LogTally) (finding : Anomaly) : LogTally :=
  if reviewed digests evidence finding then
    { tally with
      alreadyReviewed := tally.alreadyReviewed +
        if finding.isCritical || finding.grows || finding.changedBy 25 then 1 else 0 }
  else
    let criticalFindings :=
      if finding.isCritical && !finding.fades then tally.criticalFindings ++ [finding]
      else tally.criticalFindings
    if finding.grows || finding.changedBy 50 then
      { tally with
        criticalFindings
        meaningfulChanges := tally.meaningfulChanges ++ [finding] }
    else if finding.changedBy 25 then
      { tally with
        criticalFindings
        warningChanges := tally.warningChanges ++ [finding] }
    else { tally with criticalFindings }

def ofFindings (findings : List Anomaly) : LogTally :=
  findings.foldl (step digests evidence) start

end LogTally

/-- The reasons of an escalation. -/
def escalationReasons (correlations : List Value) (tally : LogTally) : List String :=
  (if correlations.isEmpty then []
    else [toString correlations.length ++ " corrélation(s) temporelle(s) détectée(s)"]) ++
  (if tally.criticalFindings.isEmpty then []
    else [toString tally.criticalFindings.length ++ " anomalie(s) critique(s)"]) ++
  if tally.meaningfulChanges.length < 2 then []
    else [toString tally.meaningfulChanges.length ++
      " anomalie(s) en évolution significative"]

/-- `next_logs_health_check`. -/
def nextCheck : Option String :=
  some "next_logs_health_check"

namespace LogDecisionResult

/-- No finding can be used. -/
def withoutFinding (truncated : Bool) : LogDecisionResult where
  decision := .watch
  conclusion := "Aucune anomalie exploitable n’a été isolée dans les éléments actuellement " ++
    "disponibles."
  reason := if truncated then
      "La collecte est tronquée : l’absence de finding ne prouve pas la disparition des " ++
        "anomalies."
    else "Le contexte est trop limité pour justifier une investigation."
  confidence := 75
  recommendedAction := "Surveiller le prochain contrôle des journaux."
  reevaluateAfter := nextCheck

def significant (correlations : List Value) (tally : LogTally) : LogDecisionResult where
  decision := .investigate
  conclusion := "Les journaux contiennent plusieurs éléments suffisamment significatifs " ++
    "pour justifier une analyse approfondie."
  reason := String.intercalate " ; " (escalationReasons correlations tally)
  confidence := 90
  recommendedAction := "Corréler les anomalies et rechercher une cause commune avant " ++
    "toute action corrective."
  reevaluateAfter := none

def evolving (tally : LogTally) : LogDecisionResult where
  decision := .watch
  conclusion := "Une évolution est visible, mais elle ne démontre pas encore une " ++
    "dégradation nécessitant une intervention."
  reason := toString (tally.meaningfulChanges.length + tally.warningChanges.length) ++
    " anomalie(s) présentent une évolution à surveiller."
  confidence := 85
  recommendedAction := "Comparer avec le prochain contrôle avant d’approfondir."
  reevaluateAfter := nextCheck

def alreadyReviewed (tally : LogTally) : LogDecisionResult where
  decision := .watch
  conclusion := "Ce contrôle n’apporte pas de nouvelle preuve justifiant une expertise " ++
    "automatique supplémentaire."
  reason := toString tally.alreadyReviewed ++ " groupe(s) déjà pris en compte lors d’une " ++
    "demande d’expertise. Les limites de collecte et les hypothèses antérieures restent " ++
    "à vérifier."
  confidence := 50
  recommendedAction := "Surveiller une nouvelle preuve ou demander explicitement un " ++
    "diagnostic complémentaire."
  reevaluateAfter := nextCheck

/-- The collection is truncated. -/
def incomplete : LogDecisionResult where
  decision := .watch
  conclusion := "Les éléments reçus ne montrent pas d’aggravation, mais la collecte est " ++
    "tronquée."
  reason := "Les données omises empêchent de conclure à la stabilité de l’ensemble des " ++
    "journaux."
  confidence := 50
  recommendedAction := "Comparer une collecte complète ou une recherche ciblée autorisée."
  reevaluateAfter := nextCheck

def steady : LogDecisionResult where
  decision := .stable
  conclusion := "Les anomalies observées sont connues et ne présentent pas " ++
    "d’aggravation significative."
  reason := "Aucune anomalie nouvelle, forte augmentation, corrélation temporelle ou " ++
    "criticité supplémentaire n’a été détectée."
  confidence := 95
  recommendedAction := "Aucune investigation supplémentaire nécessaire."
  reevaluateAfter := nextCheck

end LogDecisionResult

/-- A correlation, a critical finding or two changes that matter. -/
def LogTally.escalates (correlations : List Value) (tally : LogTally) : Bool :=
  !correlations.isEmpty || !tally.criticalFindings.isEmpty ||
    2 ≤ tally.meaningfulChanges.length

/-- What is decided on the gathered findings. -/
def LogTally.decide (correlations : List Value) (truncated : Bool) (tally : LogTally) :
    LogDecisionResult :=
  if tally.escalates correlations then .significant correlations tally
  else if !tally.meaningfulChanges.isEmpty || !tally.warningChanges.isEmpty then .evolving tally
  else if tally.alreadyReviewed ≠ 0 then .alreadyReviewed tally
  else if truncated then .incomplete
  else .steady

/-- `_log_decision`. -/
def logDecision (digests : LogDigests) (evidence : LogEvidence) : LogDecisionResult :=
  if evidence.findings.isEmpty then .withoutFinding evidence.truncated
  else (LogTally.ofFindings digests evidence evidence.findings).decide evidence.escalated
    evidence.truncated

end OhanaAgent.Tsunade
