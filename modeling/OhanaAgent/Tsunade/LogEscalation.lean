import OhanaAgent.Tsunade.LogDecisions
import Mathlib.Data.List.Basic

/-!
# Escalation needs new evidence

The markers of the submitted anomalies keep a count for each of them.  A finding
below its bound is passed over, so that findings that all are escalate nothing;
a critical finding that reaches it, among those that the decision reads, does.
-/

namespace OhanaAgent.Tsunade

open OhanaAgent.Encoding.Json
open OhanaAgent.Privacy

/-! ## The recorded counts -/

namespace Anomaly

/-- Two findings of one anomaly. -/
structure Same (finding earlier : Anomaly) : Prop where
  signature : finding.signature = earlier.signature
  severity : finding.severity = earlier.severity
  category : finding.category = earlier.category

/-- The signature is a text that is not empty. -/
def Signed (anomaly : Anomaly) : Prop :=
  ∃ first rest, anomaly.signature = some (first :: rest)

variable {digests : LogDigests} {finding earlier : Anomaly}

theorem Same.signatureKey (same : Same finding earlier) :
    finding.signatureKey digests = earlier.signatureKey digests := by
  unfold Anomaly.signatureKey
  rw [same.signature, same.severity, same.category]

theorem Signed.signatureKey (signed : finding.Signed) :
    ∃ key, finding.signatureKey digests = some key := by
  rcases signed with ⟨first, rest, signature⟩
  unfold Anomaly.signatureKey
  rw [signature]
  exact ⟨_, rfl⟩

end Anomaly

theorem Markers.raise_self (key : Text) (occurrences : Int) (markers : Markers) :
    markers.raise key occurrences key = some (max ((markers key).getD 0) occurrences) :=
  if_pos rfl

theorem Markers.raise_of_ne {key other : Text} (different : other ≠ key) (occurrences : Int)
    (markers : Markers) : markers.raise key occurrences other = markers other :=
  if_neg different

/-- A raised count is recorded, and the recorded ones stay. -/
theorem Markers.isSome_raise {key other : Text} (occurrences : Int) {markers : Markers}
    (recorded : other = key ∨ (markers other).isSome) :
    (markers.raise key occurrences other).isSome := by
  by_cases same : other = key
  · rw [same, raise_self]
    rfl
  · rw [raise_of_ne same]
    exact recorded.resolve_left same

section

variable (digests : LogDigests)

/-- The body of `_log_signature_markers`. -/
def recordMarker (markers : Markers) (anomaly : Anomaly) : Markers :=
  match anomaly.signatureKey digests with
  | none => markers
  | some key => markers.raise key anomaly.occurrences

theorem logSignatureMarkers_eq (anomalies : List Anomaly) :
    logSignatureMarkers digests anomalies =
      (anomalies.take 64).foldl (recordMarker digests) fun _ => none := rfl

variable {digests}

theorem isSome_recordMarker {markers : Markers} {anomaly : Anomaly} {key : Text}
    (recorded : anomaly.signatureKey digests = some key ∨ (markers key).isSome) :
    (recordMarker digests markers anomaly key).isSome := by
  unfold recordMarker
  cases own : anomaly.signatureKey digests with
  | none =>
      rw [own] at recorded
      exact recorded.resolve_left nofun
  | some other =>
      apply Markers.isSome_raise
      rw [own, Option.some.injEq] at recorded
      exact recorded.imp Eq.symm id

theorem isSome_foldl_recordMarker {key : Text} {anomalies : List Anomaly} {markers : Markers}
    (recorded : (∃ anomaly ∈ anomalies, anomaly.signatureKey digests = some key) ∨
      (markers key).isSome) : (anomalies.foldl (recordMarker digests) markers key).isSome := by
  induction anomalies generalizing markers with
  | nil => exact recorded.resolve_left (by simp)
  | cons anomaly rest inductionHypothesis =>
      apply inductionHypothesis
      rcases recorded with ⟨other, member, own⟩ | before
      · rcases List.mem_cons.mp member with rfl | later
        · exact Or.inr (isSome_recordMarker (Or.inl own))
        · exact Or.inl ⟨other, later, own⟩
      · exact Or.inr (isSome_recordMarker (Or.inr before))

/-- Each of the first 64 submitted anomalies has a marker. -/
theorem isSome_logSignatureMarkers {anomalies : List Anomaly} (short : anomalies.length ≤ 64)
    {anomaly : Anomaly} (member : anomaly ∈ anomalies) {key : Text}
    (own : anomaly.signatureKey digests = some key) :
    (logSignatureMarkers digests anomalies key).isSome := by
  rw [logSignatureMarkers_eq, List.take_of_length_le short]
  exact isSome_foldl_recordMarker (Or.inl ⟨anomaly, member, own⟩)

/-- A marker of one record is a reviewed one. -/
theorem exists_reviewedLogSignatures {recorded : List Markers} {markers : Markers}
    (member : markers ∈ recorded) {key : Text} (known : (markers key).isSome) :
    ∃ count, reviewedLogSignatures recorded key = some count := by
  rcases Option.isSome_iff_exists.mp known with ⟨own, found⟩
  have counted : own ∈ recorded.filterMap fun markers => markers key :=
    List.mem_filterMap.mpr ⟨markers, member, found⟩
  cases highest : (recorded.filterMap fun markers => markers key).max? with
  | none =>
      rw [List.max?_eq_none_iff.mp highest] at counted
      contradiction
  | some count => exact ⟨count, highest⟩

variable (digests)

/-- What was recorded of an anomaly with the submissions. -/
def recordedCount (submissions : List (List Anomaly)) (finding : Anomaly) : Option Int :=
  (finding.signatureKey digests).bind
    (reviewedLogSignatures (submissions.map (logSignatureMarkers digests)))

/-- A finding of an anomaly that was submitted. -/
def Resubmitted (submissions : List (List Anomaly)) (finding : Anomaly) : Prop :=
  ∃ submitted ∈ submissions, ∃ earlier ∈ submitted, finding.Same earlier

/-- The submissions that the markers describe: at most 64 anomalies each, all of
them with a signature. -/
def Submitted (submissions : List (List Anomaly)) : Prop :=
  ∀ submitted ∈ submissions, submitted.length ≤ 64 ∧ ∀ anomaly ∈ submitted, anomaly.Signed

variable {digests}

/-- The count of an anomaly that was submitted is recorded. -/
theorem Resubmitted.recordedCount {submissions : List (List Anomaly)} {finding : Anomaly}
    (submitted : Submitted submissions) (again : Resubmitted submissions finding) :
    ∃ count, recordedCount digests submissions finding = some count := by
  rcases again with ⟨anomalies, member, earlier, within, same⟩
  rcases submitted anomalies member with ⟨short, signed⟩
  rcases (signed earlier within).signatureKey with ⟨key, own⟩
  unfold Tsunade.recordedCount
  rw [same.signatureKey, own]
  exact exists_reviewedLogSignatures (List.mem_map_of_mem member)
    (isSome_logSignatureMarkers short within own)

end

/-! ## The loop over the findings -/

namespace LogTally

variable {digests : LogDigests} {evidence : LogEvidence}

/-- Nothing to escalate was gathered. -/
def Quiet (tally : LogTally) : Prop :=
  tally.criticalFindings = [] ∧ tally.meaningfulChanges = []

/-- A reviewed finding is only counted. -/
theorem Quiet.step {tally : LogTally} (quiet : tally.Quiet) {finding : Anomaly}
    (known : reviewed digests evidence finding) : (step digests evidence tally finding).Quiet := by
  unfold LogTally.step
  rw [if_pos known]
  exact quiet

theorem Quiet.foldl {findings : List Anomaly} {tally : LogTally} (quiet : tally.Quiet)
    (known : ∀ finding ∈ findings, reviewed digests evidence finding) :
    (findings.foldl (LogTally.step digests evidence) tally).Quiet := by
  induction findings generalizing tally with
  | nil => exact quiet
  | cons finding rest inductionHypothesis =>
      apply inductionHypothesis (quiet.step (known finding List.mem_cons_self))
      intro other member
      exact known other (List.mem_cons_of_mem finding member)

/-- The critical findings of a step: those before, and the finding when it is new
evidence. -/
theorem criticalFindings_step (tally : LogTally) (finding : Anomaly) :
    (step digests evidence tally finding).criticalFindings =
      if reviewed digests evidence finding then tally.criticalFindings
      else if finding.isCritical && !finding.fades then tally.criticalFindings ++ [finding]
      else tally.criticalFindings := by
  unfold step
  by_cases known : reviewed digests evidence finding
  · rw [if_pos known, if_pos known]
  · rw [if_neg known, if_neg known]
    by_cases significant : finding.grows || finding.changedBy 50
    · rw [if_pos significant]
    · rw [if_neg significant]
      by_cases slight : finding.changedBy 25
      · rw [if_pos slight]
      · rw [if_neg slight]

theorem meaningfulChanges_step (tally : LogTally) (finding : Anomaly) :
    (step digests evidence tally finding).meaningfulChanges =
      if reviewed digests evidence finding then tally.meaningfulChanges
      else if finding.grows || finding.changedBy 50 then tally.meaningfulChanges ++ [finding]
      else tally.meaningfulChanges := by
  unfold step
  by_cases known : reviewed digests evidence finding
  · rw [if_pos known, if_pos known]
  · rw [if_neg known, if_neg known]
    by_cases significant : finding.grows || finding.changedBy 50
    · rw [if_pos significant, if_pos significant]
    · rw [if_neg significant, if_neg significant]
      by_cases slight : finding.changedBy 25
      · rw [if_pos slight]
      · rw [if_neg slight]

/-- A fading finding without a change that matters leaves nothing to escalate. -/
theorem Quiet.step_fading {tally : LogTally} (quiet : tally.Quiet) {finding : Anomaly}
    (fades : finding.fades) (still : ¬ (finding.grows || finding.changedBy 50)) :
    (LogTally.step digests evidence tally finding).Quiet := by
  constructor
  · rw [criticalFindings_step, if_neg (by simp [fades] : ¬ (finding.isCritical && !finding.fades)),
      ite_self, quiet.1]
  · rw [meaningfulChanges_step, if_neg still, ite_self, quiet.2]

theorem criticalFindings_sublist_step (tally : LogTally) (finding : Anomaly) :
    tally.criticalFindings.Sublist (step digests evidence tally finding).criticalFindings := by
  rw [criticalFindings_step]
  split
  · exact List.Sublist.refl _
  · split
    · exact List.sublist_append_left _ _
    · exact List.Sublist.refl _

theorem criticalFindings_sublist_foldl (findings : List Anomaly) (tally : LogTally) :
    tally.criticalFindings.Sublist
      (findings.foldl (step digests evidence) tally).criticalFindings := by
  induction findings generalizing tally with
  | nil => exact List.Sublist.refl _
  | cons finding rest inductionHypothesis =>
      exact (criticalFindings_sublist_step tally finding).trans (inductionHypothesis _)

/-- Every critical finding that brings new evidence is gathered. -/
theorem mem_criticalFindings_foldl {findings : List Anomaly} {finding : Anomaly}
    (member : finding ∈ findings) (fresh : ¬ reviewed digests evidence finding)
    (critical : finding.isCritical) (lasting : ¬ finding.fades) (tally : LogTally) :
    finding ∈ (findings.foldl (step digests evidence) tally).criticalFindings := by
  induction findings generalizing tally with
  | nil => contradiction
  | cons first rest inductionHypothesis =>
      rcases List.mem_cons.mp member with rfl | later
      · apply (criticalFindings_sublist_foldl rest _).mem
        rw [criticalFindings_step, if_neg fresh, if_pos (by simp [critical, lasting])]
        exact List.mem_append_right _ List.mem_cons_self
      · exact inductionHypothesis later _

end LogTally

/-! ## The decision -/

section

variable {digests : LogDigests} {evidence : LogEvidence}

/-- The AI is asked exactly on a tally that escalates. -/
theorem LogTally.decide_investigate_iff (correlations : List Value) (truncated : Bool)
    (tally : LogTally) :
    (tally.decide correlations truncated).decision = .investigate ↔
      tally.escalates correlations := by
  unfold LogTally.decide
  by_cases asked : tally.escalates correlations
  · rw [if_pos asked]
    exact ⟨fun _ => asked, fun _ => rfl⟩
  · rw [if_neg asked]
    constructor
    · intro decided
      repeat' split at decided
      all_goals contradiction
    · intro escalated
      exact absurd escalated asked

theorem logDecision_investigate_iff :
    (logDecision digests evidence).decision = .investigate ↔
      evidence.findings ≠ [] ∧
        (LogTally.ofFindings digests evidence evidence.findings).escalates
          evidence.escalated := by
  unfold logDecision
  by_cases none : evidence.findings = []
  · rw [none]
    exact ⟨nofun, fun some => absurd rfl some.1⟩
  · rw [if_neg (by simpa using none), LogTally.decide_investigate_iff]
    exact ⟨fun escalated => ⟨none, escalated⟩, And.right⟩

/-- A quiet tally escalates correlations only. -/
theorem LogTally.Quiet.not_escalates {tally : LogTally} (quiet : tally.Quiet) :
    ¬ tally.escalates [] := by
  unfold LogTally.escalates
  simp [quiet.1, quiet.2]

theorem LogTally.escalates_of_critical {tally : LogTally} {finding : Anomaly}
    {correlations : List Value} (critical : finding ∈ tally.criticalFindings) :
    tally.escalates correlations := by
  unfold LogTally.escalates
  simp [List.ne_nil_of_mem critical]

/-- A finding whose count is below its bound is passed over. -/
theorem reviewed_of_below {finding : Anomaly} {count : Int}
    (known : (finding.signatureKey digests).bind evidence.reviewedLogSignatures = some count)
    (below : finding.occurrences < max (2 * count) (count + 5)) :
    LogTally.reviewed digests evidence finding := by
  unfold LogTally.reviewed materiallyWorse
  rw [known]
  simpa using Or.inr (lt_max_iff.mp below)

/-- A finding that reaches its bound is passed over only as evidence that was
reviewed itself. -/
theorem not_reviewed_of_reached {finding : Anomaly} {count : Int}
    (known : (finding.signatureKey digests).bind evidence.reviewedLogSignatures = some count)
    (reached : max (2 * count) (count + 5) ≤ finding.occurrences)
    (fresh : ∀ mark, finding.fingerprint digests = some mark →
      mark ∉ evidence.reviewedLogFindings) :
    ¬ LogTally.reviewed digests evidence finding := by
  unfold LogTally.reviewed materiallyWorse
  rw [known]
  cases own : finding.fingerprint digests with
  | none => simpa using max_le_iff.mp reached
  | some mark => simpa [fresh mark own] using max_le_iff.mp reached

/-- Without a correlation to escalate, findings of submitted anomalies whose counts
are below their bounds escalate nothing; a critical one that reaches its bound,
does not fade and is not itself a reviewed finding does. -/
theorem escalates_on_new_evidence (digests : LogDigests) (evidence : LogEvidence)
    (submissions : List (List Anomaly)) (submitted : Submitted submissions)
    (markers : evidence.reviewedLogSignatures =
      reviewedLogSignatures (submissions.map (logSignatureMarkers digests)))
    (again : ∀ finding ∈ evidence.findings, Resubmitted submissions finding)
    (uncorrelated : evidence.escalated = []) :
    ((∀ finding ∈ evidence.findings, ∀ count,
        recordedCount digests submissions finding = some count →
          finding.occurrences < max (2 * count) (count + 5)) →
      (logDecision digests evidence).decision ≠ .investigate) ∧
    ∀ finding ∈ evidence.findings,
      finding.isCritical → ¬ finding.fades →
      (∀ mark, finding.fingerprint digests = some mark → mark ∉ evidence.reviewedLogFindings) →
      (∀ count, recordedCount digests submissions finding = some count →
        max (2 * count) (count + 5) ≤ finding.occurrences) →
      (logDecision digests evidence).decision = .investigate := by
  have recorded (finding : Anomaly) (member : finding ∈ evidence.findings) :
      ∃ count, recordedCount digests submissions finding = some count ∧
        (finding.signatureKey digests).bind evidence.reviewedLogSignatures = some count := by
    rcases (again finding member).recordedCount submitted with ⟨count, counted⟩
    exact ⟨count, counted, markers ▸ counted⟩
  constructor
  · intro below asked
    have quiet : (LogTally.ofFindings digests evidence evidence.findings).Quiet := by
      apply LogTally.Quiet.foldl ⟨rfl, rfl⟩
      intro finding member
      rcases recorded finding member with ⟨count, counted, known⟩
      exact reviewed_of_below known (below finding member count counted)
    apply quiet.not_escalates
    rw [← uncorrelated]
    exact (logDecision_investigate_iff.mp asked).2
  · intro finding member critical lasting fresh reached
    rcases recorded finding member with ⟨count, counted, known⟩
    have gathered := LogTally.mem_criticalFindings_foldl member
      (not_reviewed_of_reached known (reached count counted) fresh) critical lasting LogTally.start
    apply logDecision_investigate_iff.mpr
    constructor
    · exact List.ne_nil_of_mem member
    · exact LogTally.escalates_of_critical gathered

end

/-! ## An outage that comes back -/

/-- Every critical finding that is not decreasing and reaches its bound asks the AI. -/
def EscalatesReached (digests : LogDigests) (submissions : List (List Anomaly))
    (evidence : LogEvidence) : Prop :=
  ∀ finding ∈ evidence.readSources.flatMap ReviewedSource.findings,
    finding.isCritical → wordOf finding.trend ≠ "decreasing".toList →
    (∀ count, recordedCount digests submissions finding = some count →
      max (2 * count) (count + 5) ≤ finding.occurrences) →
    (logDecision digests evidence).decision = .investigate

namespace Outage

/-- The digest of a value is its text. -/
def digests : LogDigests where
  unicode := asciiUnicode
  digest := dumps
  utcText := some

def outage (occurrences : Int) (trend : String) : Anomaly where
  signature := some "storage unreachable".toList
  severity := .string "critical".toList
  category := .string "storage".toList
  occurrences := occurrences
  referenceOccurrences := none
  trend := .string trend.toList
  lastAt := .atom .null

/-- The outage was submitted when it was seen once. -/
def submissions : List (List Anomaly) :=
  [[outage 1 "new"]]

/-- A later review of one source, without a new correlation. -/
def review (findings : List Anomaly) : LogEvidence where
  top := some ⟨findings, false⟩
  sources := []
  newCorrelations := some []
  correlations := []
  reviewedLogFindings := []
  reviewedLogSignatures := reviewedLogSignatures (submissions.map (logSignatureMarkers digests))

theorem submitted_submissions : Submitted submissions := by
  intro submitted member
  rw [List.mem_singleton.mp member]
  constructor
  · decide
  · intro anomaly within
    rw [List.mem_singleton.mp within]
    exact ⟨_, _, rfl⟩

theorem resubmitted_outage (occurrences : Int) (trend : String) :
    Resubmitted submissions (outage occurrences trend) :=
  ⟨_, List.mem_singleton_self _, _, List.mem_singleton_self _, rfl, rfl, rfl⟩

theorem recordedCount_outage (occurrences : Int) (trend : String) :
    recordedCount digests submissions (outage occurrences trend) = some 1 := by
  have submittedMarker (key : Text) (own : (outage 1 "new").signatureKey digests = some key) :
      logSignatureMarkers digests [outage 1 "new"] key = some 1 := by
    rw [logSignatureMarkers_eq, List.take_of_length_le (by decide), List.foldl_cons,
      List.foldl_nil, recordMarker, own]
    exact Markers.raise_self _ _ _
  cases own : (outage 1 "new").signatureKey digests with
  | none => contradiction
  | some key =>
      have same : (outage occurrences trend).Same (outage 1 "new") := ⟨rfl, rfl, rfl⟩
      rw [recordedCount, same.signatureKey, own, Option.bind_some, reviewedLogSignatures,
        submissions, List.map_singleton, List.filterMap_cons, submittedMarker key own]
      rfl

/-- The outage is known with one occurrence to a later review. -/
theorem known_outage (occurrences : Int) (trend : String) (findings : List Anomaly) :
    ((outage occurrences trend).signatureKey digests).bind
      (review findings).reviewedLogSignatures = some 1 :=
  recordedCount_outage occurrences trend

theorem reached_outage {trend : String} (count : Int)
    (counted : recordedCount digests submissions (outage 6 trend) = some count) :
    max (2 * count) (count + 5) ≤ (outage 6 trend).occurrences := by
  rw [recordedCount_outage, Option.some.injEq] at counted
  rw [← counted]
  show max (2 * 1) (1 + 5) ≤ (6 : Int)
  decide

/-- A disappeared outage escalates nothing, and neither does one behind the first
64 findings. -/
theorem outage_not_escalated :
    ¬ EscalatesReached digests submissions (review [outage 6 "disappeared"]) ∧
      ¬ EscalatesReached digests submissions
        (review (List.replicate 64 (outage 1 "new") ++ [outage 6 "new"])) := by
  constructor
  · intro escalates
    have asked := escalates (outage 6 "disappeared") List.mem_cons_self rfl (by decide)
      reached_outage
    have quiet : (LogTally.step digests (review [outage 6 "disappeared"]) LogTally.start
        (outage 6 "disappeared")).Quiet := by
      apply LogTally.Quiet.step_fading ⟨rfl, rfl⟩
      · decide
      · decide
    exact quiet.not_escalates (logDecision_investigate_iff.mp asked).2
  · intro escalates
    have asked := escalates (outage 6 "new") (by simp [LogEvidence.readSources, review]) rfl
      (by decide) reached_outage
    have read : (review (List.replicate 64 (outage 1 "new") ++ [outage 6 "new"])).findings =
        List.replicate 64 (outage 1 "new") := by
      simp [LogEvidence.findings, LogEvidence.readSources, review]
    rw [logDecision_investigate_iff, read] at asked
    apply LogTally.Quiet.not_escalates _ asked.2
    apply LogTally.Quiet.foldl ⟨rfl, rfl⟩
    intro finding member
    rw [(List.mem_replicate.mp member).2]
    exact reviewed_of_below (known_outage 1 "new" _) (by decide)

/-- Four occurrences escalate nothing, six do. -/
theorem outage_escalated :
    (logDecision digests (review [outage 4 "new"])).decision ≠ .investigate ∧
      (logDecision digests (review [outage 6 "new"])).decision = .investigate := by
  have again (occurrences : Int) : ∀ finding ∈ (review [outage occurrences "new"]).findings,
      Resubmitted submissions finding := by
    intro finding member
    rw [List.mem_singleton.mp member]
    exact resubmitted_outage occurrences "new"
  constructor
  · apply (escalates_on_new_evidence digests (review [outage 4 "new"]) submissions
      submitted_submissions rfl (again 4) rfl).1
    intro finding member count counted
    rw [List.mem_singleton.mp member] at counted ⊢
    rw [recordedCount_outage, Option.some.injEq] at counted
    rw [← counted]
    decide
  · exact (escalates_on_new_evidence digests (review [outage 6 "new"]) submissions
      submitted_submissions rfl (again 6) rfl).2 (outage 6 "new") List.mem_cons_self rfl
      (by decide) (fun _ _ => List.not_mem_nil) reached_outage

end Outage

end OhanaAgent.Tsunade
