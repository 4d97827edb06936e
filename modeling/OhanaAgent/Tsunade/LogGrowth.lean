import OhanaAgent.Store.Dictionary
import OhanaAgent.Store.Ranking
import OhanaAgent.Tsunade.LogAcceptance
import OhanaAgent.Tsunade.Preventive

/-!
# Growing log errors

The preventive rule reads the stored reviews of the logs again, as the workers
sent them, and watches the signatures whose daily occurrences drift.  It leaves
out the accepted signatures by their stored text.  The incidents know a signature
by its masked text, and accept whole components beside it.
-/

namespace OhanaAgent.Tsunade.LogGrowth

open OhanaAgent.Encoding.Json (Text)
open OhanaAgent.Privacy
open OhanaAgent.Store
open OhanaAgent.Time
open OhanaAgent.Transition

/-! ## Drifts -/

/-- The arithmetic that rounds: the product with `SPREAD_FACTOR`, `round(value, 2)`
and `_number`. -/
structure Floats where
  spreadThreshold : ℚ → ℚ
  rounded : ℚ → ℚ
  number : ℚ → Text

def recentDays : Int := 7

def minRecentDays : Nat := 4

def minBaselineDays : Nat := 7

def maxBaselineDays : Int := 28

def seasonalBaselineDays : Nat := 21

def persistenceDays : Nat := 4

/-- A day and its value. -/
abbrev Point : Type := Int × ℚ

/-- `statistics.median`. -/
def median (values : List ℚ) : ℚ :=
  let sorted := values.insertionSort (· ≤ ·)
  let half := sorted.length / 2
  if sorted.length % 2 = 1 then sorted.getD half 0
  else (sorted.getD (half - 1) 0 + sorted.getD half 0) / 2

/-- A recent day above the threshold. -/
structure DayAbove where
  day : Int
  value : ℚ
  expected : ℚ
  deriving DecidableEq

/-- What there is to say with enough days. -/
structure Measure where
  seasonal : Bool
  baselineMedian : ℚ
  recentMedian : ℚ
  threshold : ℚ
  above : List DayAbove
  deriving DecidableEq

/-- The answer of `baseline_drift`. -/
structure Evaluation where
  recentDays : Nat
  baselineDays : Nat
  measure : Option Measure
  deriving DecidableEq

inductive DriftState where
  | insufficientData
  | ok
  | watch
  deriving DecidableEq

/-- `result["state"]`. -/
def Evaluation.state (evaluation : Evaluation) : DriftState :=
  match evaluation.measure with
  | none => .insufficientData
  | some measure => if persistenceDays ≤ measure.above.length then .watch else .ok

/-- `by_weekday`. -/
def byWeekday (baseline : List Point) : Dictionary Int (List ℚ) :=
  Dictionary.collect [] (fun values value => values ++ [value])
    (baseline.map fun point => (weekday point.1, point.2)) []

/-- `seasonal`. -/
def isSeasonal (baseline : List Point) : Bool :=
  decide (seasonalBaselineDays ≤ baseline.length) && (List.range 7).all fun day =>
    decide (2 ≤ ((Dictionary.find (day : Int) (byWeekday baseline)).getD []).length)

/-- `expected`. -/
def expectedOn (baseline : List Point) (day : Int) : ℚ :=
  if isSeasonal baseline then median ((Dictionary.find (weekday day) (byWeekday baseline)).getD [])
  else median (baseline.map Prod.snd)

/-- `baseline_drift`. -/
def baselineDrift (floats : Floats) (points : List Point) (today : Int)
    (absoluteFloor relativeFloor : ℚ) : Evaluation :=
  let ordered := points.insertionSort fun first second =>
    first.1 < second.1 ∨ (first.1 = second.1 ∧ first.2 ≤ second.2)
  let recentStart := today - (recentDays - 1)
  let baselineStart := recentStart - maxBaselineDays
  let recent := ordered.filter fun point => recentStart ≤ point.1 ∧ point.1 ≤ today
  let baseline := ordered.filter fun point => baselineStart ≤ point.1 ∧ point.1 < recentStart
  if recent.length < minRecentDays ∨ baseline.length < minBaselineDays then
    ⟨recent.length, baseline.length, none⟩
  else
    let overall := median (baseline.map Prod.snd)
    let spread := median (baseline.map fun point => |point.2 - expectedOn baseline point.1|)
    let threshold := max (max (floats.spreadThreshold spread) absoluteFloor)
      (relativeFloor * |overall|)
    let above := (recent.filter fun point =>
      threshold < point.2 - expectedOn baseline point.1).map fun point =>
        ⟨point.1, point.2, expectedOn baseline point.1⟩
    ⟨recent.length, baseline.length, some
      { seasonal := isSeasonal baseline
        baselineMedian := floats.rounded overall
        recentMedian := floats.rounded (median (recent.map Prod.snd))
        threshold := floats.rounded threshold
        above }⟩

/-! ## The rule -/

/-- A succeeded job `logs.health_check` with its result. -/
structure StoredReview where
  finishedAt : Int
  result : LogsHealthCheckResult

def historyDays : Int := recentDays + maxBaselineDays

def maxLogItems : Nat := 5

/-- What a rule says of a node. -/
structure Node where
  nodeId : Text
  state : DriftState
  summary : Text
  deriving DecidableEq

structure Evidence where
  baselineDays : Nat
  baselineMedian : ℚ
  recentMedian : ℚ
  threshold : ℚ
  seasonal : Bool
  above : List DayAbove
  signature : Text
  deriving DecidableEq

/-- A drift to watch. -/
structure Item where
  rule : Text
  nodeId : Text
  equipmentId : Text
  subject : Text
  title : Text
  detail : Text
  since : Option Text
  evidence : Evidence
  urgent : Bool
  deriving DecidableEq

/-- The answer of the rule, without its title and its description. -/
structure Check where
  id : Text
  state : DriftState
  nodes : List Node
  items : List Item
  deriving DecidableEq

/-- The name of the rule. -/
def ruleId : Text := "log_errors_growth".toList

/-- A source and a signature. -/
abbrev Key : Type := Text × Text

/-- `checked` and `counts`. -/
structure Counts where
  checked : Dictionary Text (List Int)
  counts : Dictionary Key (Dictionary Int ℚ)

/-- The local day of an instant. -/
def dayOf (zone : Zone) (instant : Int) : Int :=
  zone.wall instant / day

section Rule

variable (floats : Floats) (zone : LocalZone) (current : Int) (accepted : Key → Bool)

/-- `daily[day] = max(daily.get(day, 0.0), occurrences)`. -/
def raise (daily : Dictionary Int ℚ) (noted : Point) : Dictionary Int ℚ :=
  Dictionary.upsert noted.1 0 (fun most => max most noted.2) daily

/-- The loop over the findings of a source. -/
def countFinding (source : Text) (day : Int) (counts : Dictionary Key (Dictionary Int ℚ))
    (finding : LogFinding) : Dictionary Key (Dictionary Int ℚ) :=
  if accepted (source, finding.signature) || finding.signature.isEmpty then counts
  else Dictionary.upsert (source, finding.signature) []
    (fun daily => raise daily (day, finding.occurrences)) counts

/-- The loop over the sources of a review. -/
def countSource (day : Int) (counts : Counts) (source : LogSourceHealth) : Counts :=
  -- an incomplete collection proves no absence of an anomaly
  if source.truncated then counts
  else
    { checked := Dictionary.upsert source.source.text [] (fun days => days.insert day)
        counts.checked
      counts := source.findings.foldl (countFinding accepted source.source.text day)
        counts.counts }

/-- The loop over the stored reviews. -/
def countReview (counts : Counts) (review : StoredReview) : Counts :=
  review.result.sources.foldl (countSource accepted (dayOf zone.toZone review.finishedAt)) counts

/-- `since`; the offset of `current` is fixed, so that the days last 24 hours. -/
def since : Int :=
  current - historyDays * day

/-- The rows of the query. -/
def recentReviews (history : List StoredReview) : List StoredReview :=
  (history.filter fun review =>
    julianday (since current) ≤ julianday review.finishedAt).insertionSort
      fun first second => julianday first.finishedAt ≤ julianday second.finishedAt

/-- The points of a series; a complete check without the anomaly is a day at zero. -/
def pointsOf (days : List Int) (daily : Dictionary Int ℚ) : List Point :=
  (days.insertionSort (· ≤ ·)).map fun day => (day, (Dictionary.find day daily).getD 0)

/-- The evaluation of a signature. -/
def evaluationOf (points : List Point) : Evaluation :=
  baselineDrift floats points (dayOf zone.toZone current) 20 (1 / 2)

/-- `signature if len(signature) <= 90 else signature[:87] + "…"`. -/
def short (signature : Text) : Text :=
  if signature.length ≤ 90 then signature else signature.take 87 ++ "…".toList

/-- `_drift_item` of a signature, with the signature in its evidence. -/
def driftItem (key : Key) (baselineDays : Nat) (measure : Measure) : Item where
  rule := ruleId
  nodeId := key.1
  equipmentId := key.1
  subject := key.1 ++ ':' :: key.2
  title := key.1.map Char.toUpper ++ " : « ".toList ++ short key.2 ++ " » en hausse".toList
  detail := (toString measure.above.length).toList ++
    " des 7 derniers jours au-dessus de l'habituel (".toList ++
    floats.number measure.recentMedian ++ "/jour contre ".toList ++
    floats.number measure.baselineMedian ++ "/jour, seuil +".toList ++
    floats.number measure.threshold ++ "/jour).".toList
  since := measure.above.head?.map fun above => isoDate above.day
  evidence :=
    { baselineDays
      baselineMedian := measure.baselineMedian
      recentMedian := measure.recentMedian
      threshold := measure.threshold
      seasonal := measure.seasonal
      above := measure.above
      signature := key.2 }
  urgent := false

/-- The item of a signature that drifts. -/
def itemOf (key : Key) (points : List Point) : Option Item :=
  let evaluation := evaluationOf floats zone current points
  match evaluation.measure with
  | none => none
  | some measure =>
      if evaluation.state = .watch then
        some (driftItem floats key evaluation.baselineDays measure)
      else none

/-- The ratio that orders the items. -/
def ratio (item : Item) : ℚ :=
  item.evidence.recentMedian / max item.evidence.baselineMedian 1

/-- `log_errors_growth` over the stored reviews. -/
def logErrorsGrowth (history : List StoredReview) : Check :=
  let found := (recentReviews current history).foldl (countReview zone accepted) ⟨[], []⟩
  let items := found.counts.filterMap fun entry => itemOf floats zone current entry.1
    (pointsOf ((Dictionary.find entry.1.1 found.checked).getD []) entry.2)
  let nodes := ((found.checked.map Prod.fst).insertionSort (· ≤ ·)).map fun source =>
    { nodeId := source
      state := if items.any fun item => item.nodeId = source then .watch else .ok
      summary := source.map Char.toUpper ++ " : ".toList ++
        (toString ((Dictionary.find source found.checked).getD []).length).toList ++
        " contrôle(s) complet(s) sur ".toList ++ (toString historyDays).toList ++ " jours".toList }
  let shown := (ranked ratio items).take maxLogItems
  { id := ruleId
    state := if shown ≠ [] then .watch
      else if nodes.all fun node => node.state = .insufficientData then .insufficientData else .ok
    nodes
    items := shown }

end Rule

/-! ## The series of a signature -/

/-- A complete check of a source, with its day. -/
abbrev CompleteCheck : Type := Int × LogSourceHealth

/-- The complete checks of the reviews. -/
def completeChecks (zone : Zone) (reviews : List StoredReview) : List CompleteCheck :=
  reviews.flatMap fun review =>
    (review.result.sources.filter fun source => !source.truncated).map fun source =>
      (dayOf zone review.finishedAt, source)

/-- What the complete checks found of each signature. -/
def noted (checks : List CompleteCheck) : List (Key × Point) :=
  checks.flatMap fun check => check.2.findings.map fun finding =>
    ((check.2.source.text, finding.signature), (check.1, (finding.occurrences : ℚ)))

/-- The days on which a source was checked. -/
def checkedDays (checks : List CompleteCheck) (source : Text) : List Int :=
  (Dictionary.under source (checks.map fun check => (check.2.source.text, check.1))).dedup

/-- The most occurrences of a signature on a day. -/
def mostOn (checks : List CompleteCheck) (key : Key) (day : Int) : ℚ :=
  (Dictionary.under day (Dictionary.under key (noted checks))).foldl max 0

/-- The daily series of a signature. -/
def series (checks : List CompleteCheck) (key : Key) : List Point :=
  ((checkedDays checks key.1).insertionSort (· ≤ ·)).map fun day => (day, mostOn checks key day)

section Growth

variable (floats : Floats) (zone : LocalZone) (current : Int) (accepted : Key → Bool)
  (checks : List CompleteCheck)

/-- A signature drifts. -/
def grows (key : Key) : Bool :=
  (evaluationOf floats zone current (series checks key)).state = .watch

/-- The signatures that are counted. -/
def counted (key : Key) : Bool :=
  !(accepted key || key.2.isEmpty)

/-- The counted signatures that drift, in the order of their first appearance. -/
def growing : List Key :=
  (firsts (((noted checks).map Prod.fst).filter (counted accepted))).filter
    (grows floats zone current checks)

/-- The item of a signature. -/
def itemFor (key : Key) : Item :=
  let evaluation := evaluationOf floats zone current (series checks key)
  driftItem floats key evaluation.baselineDays (evaluation.measure.getD ⟨false, 0, 0, 0, []⟩)

/-- How much a signature drifts. -/
def steepness (key : Key) : ℚ :=
  ratio (itemFor floats zone current checks key)

/-- Enough other signatures that drift come before. -/
def Outranked (key : Key) : Prop :=
  maxLogItems ≤
    rank (steepness floats zone current checks) key (growing floats zone current accepted checks)

end Growth

/-! ## What the rule counts -/

section Counting

variable {zone : LocalZone} {accepted : Key → Bool}

/-- The loops over the reviews and their sources run over the complete checks. -/
theorem foldl_countReview (reviews : List StoredReview) (counts : Counts) :
    reviews.foldl (countReview zone accepted) counts =
      (completeChecks zone.toZone reviews).foldl
        (fun counts check => countSource accepted check.1 counts check.2) counts := by
  have inner (day : Int) (sources : List LogSourceHealth) (counts : Counts) :
      sources.foldl (countSource accepted day) counts =
        ((sources.filter fun source => !source.truncated).map fun source => (day, source)).foldl
          (fun counts check => countSource accepted check.1 counts check.2) counts := by
    induction sources generalizing counts with
    | nil => rfl
    | cons source rest inductionHypothesis =>
        rw [List.foldl_cons, inductionHypothesis]
        cases truncated : source.truncated with
        | true => simp [countSource, truncated]
        | false => simp [truncated]
  induction reviews generalizing counts with
  | nil => rfl
  | cons review rest inductionHypothesis =>
      have split : completeChecks zone.toZone (review :: rest) =
          ((review.result.sources.filter fun source => !source.truncated).map fun source =>
            (dayOf zone.toZone review.finishedAt, source)) ++ completeChecks zone.toZone rest := rfl
      rw [List.foldl_cons, inductionHypothesis, split, List.foldl_append, countReview, inner]

/-- The findings of a source are collected under their signatures. -/
theorem foldl_countFinding (source : Text) (day : Int) (findings : List LogFinding)
    (counts : Dictionary Key (Dictionary Int ℚ)) :
    findings.foldl (countFinding accepted source day) counts =
      Dictionary.collect [] raise ((findings.map fun finding =>
        ((source, finding.signature), (day, (finding.occurrences : ℚ)))).filter fun entry =>
          counted accepted entry.1) counts := by
  induction findings generalizing counts with
  | nil => rfl
  | cons finding rest inductionHypothesis =>
      rw [List.foldl_cons, inductionHypothesis, List.map_cons, countFinding]
      by_cases out : accepted (source, finding.signature) || finding.signature.isEmpty
      · rw [if_pos out, List.filter_cons_of_neg]
        rw [counted, out]
        decide
      · rw [if_neg out, List.filter_cons_of_pos, Dictionary.collect_cons]
        rw [counted, Bool.eq_false_of_not_eq_true out]
        rfl

/-- What complete checks leave in the two dictionaries. -/
theorem foldl_countSource {checks : List CompleteCheck}
    (complete : ∀ check ∈ checks, check.2.truncated = false) (counts : Counts) :
    checks.foldl (fun counts check => countSource accepted check.1 counts check.2) counts =
      ⟨Dictionary.collect [] (fun days day => days.insert day)
          (checks.map fun check => (check.2.source.text, check.1)) counts.checked,
        Dictionary.collect [] raise ((noted checks).filter fun entry => counted accepted entry.1)
          counts.counts⟩ := by
  induction checks generalizing counts with
  | nil => rfl
  | cons check rest inductionHypothesis =>
      rw [List.foldl_cons, inductionHypothesis fun other inside =>
        complete other (List.mem_cons_of_mem check inside)]
      have whole : check.2.truncated = false := complete check List.mem_cons_self
      simp only [countSource, whole, Bool.false_eq_true, if_false, noted, List.flatMap_cons,
        List.filter_append, Dictionary.collect_append, foldl_countFinding, List.map_cons,
        Dictionary.collect_cons]

theorem complete_completeChecks {reviews : List StoredReview} :
    ∀ check ∈ completeChecks zone.toZone reviews, check.2.truncated = false := by
  intro check inside
  simp only [completeChecks, List.mem_flatMap, List.mem_map, List.mem_filter] at inside
  rcases inside with ⟨_, _, source, ⟨_, whole⟩, rfl⟩
  simpa using whole

/-- The values that the entries raise a day to. -/
theorem getD_find_raise (entries : List Point) (day : Int) :
    (Dictionary.find day (entries.foldl raise [])).getD 0 = (Dictionary.under day entries).foldl max 0 :=
  Dictionary.getD_find_collect entries

/-- The days of a source are those on which it was checked. -/
theorem insertionSort_foldl_insert (days : List Int) :
    (days.foldl (fun known day => known.insert day) []).insertionSort (· ≤ ·) =
      days.dedup.insertionSort (· ≤ ·) := by
  have members (known : List Int) : ∀ day,
      day ∈ days.foldl (fun known day => known.insert day) known ↔ day ∈ days ∨ day ∈ known := by
    induction days generalizing known with
    | nil => simp
    | cons first rest inductionHypothesis =>
        intro day
        rw [List.foldl_cons, inductionHypothesis, List.mem_insert_iff, List.mem_cons]
        tauto
  have distinct (known : List Int) (start : known.Nodup) :
      (days.foldl (fun known day => known.insert day) known).Nodup := by
    clear members
    induction days generalizing known with
    | nil => exact start
    | cons first rest inductionHypothesis => exact inductionHypothesis _ start.insert
  have perm : (days.foldl (fun known day => known.insert day) []).Perm days.dedup := by
    rw [List.perm_ext_iff_of_nodup (distinct [] .nil) days.nodup_dedup]
    intro day
    rw [members [] day, List.mem_dedup]
    simp
  exact (((List.perm_insertionSort _ _).trans perm).trans
    (List.perm_insertionSort _ _).symm).eq_of_pairwise'
      (List.pairwise_insertionSort _ _) (List.pairwise_insertionSort _ _)

end Counting

/-! ## The items -/

section Items

variable {floats : Floats} {zone : LocalZone} {current : Int} {accepted : Key → Bool}
  {history : List StoredReview}

/-- A signature has an item exactly when it drifts. -/
theorem itemOf_series (checks : List CompleteCheck) (key : Key) :
    itemOf floats zone current key (series checks key) =
      if grows floats zone current checks key then some (itemFor floats zone current checks key)
      else none := by
  unfold itemOf grows itemFor
  generalize evaluationOf floats zone current (series checks key) = evaluation
  rcases evaluation with ⟨recent, baseline, _ | measure⟩
  · rfl
  · simp

/-- The points of a counted signature are its series. -/
theorem pointsOf_eq_series {checks : List CompleteCheck} {key : Key}
    (kept : counted accepted key = true) :
    pointsOf ((Dictionary.find key.1 (Dictionary.collect [] (fun days day => days.insert day)
        (checks.map fun check => (check.2.source.text, check.1)) [])).getD [])
        ((Dictionary.under key ((noted checks).filter fun entry => counted accepted entry.1)).foldl
          raise []) =
      series checks key := by
  rw [pointsOf, Dictionary.getD_find_collect, insertionSort_foldl_insert,
    Dictionary.under_filter kept, series, checkedDays]
  apply List.map_congr_left
  intro day _
  rw [getD_find_raise, mostOn]

/-- The signatures that drift, as the rule finds them. -/
theorem filterMap_itemOf (checks : List CompleteCheck) (keys : List Key) :
    (keys.filterMap fun key => itemOf floats zone current key (series checks key)) =
      (keys.filter (grows floats zone current checks)).map
        (itemFor floats zone current checks) := by
  induction keys with
  | nil => rfl
  | cons key rest inductionHypothesis =>
      rw [List.filterMap_cons, itemOf_series, inductionHypothesis]
      by_cases drifts : grows floats zone current checks key = true
      · rw [if_pos drifts, List.filter_cons_of_pos drifts]
        rfl
      · rw [if_neg drifts, List.filter_cons_of_neg drifts]

/-- The complete checks that the rule reads. -/
def checksOf (zone : LocalZone) (current : Int) (history : List StoredReview) :
    List CompleteCheck :=
  completeChecks zone.toZone (recentReviews current history)

/-- The items are those of the growing signatures that lead the ranking. -/
theorem items_eq : (logErrorsGrowth floats zone current accepted history).items =
    (ranked ratio ((growing floats zone current accepted (checksOf zone current history)).map
      (itemFor floats zone current (checksOf zone current history)))).take maxLogItems := by
  have found := @foldl_countReview zone accepted
    (recentReviews current history) ⟨[], []⟩
  rw [foldl_countSource complete_completeChecks] at found
  unfold logErrorsGrowth
  dsimp only
  rw [found]
  congr 2
  dsimp only
  have counts := @Dictionary.collect_eq _ _ _ _ [] raise
    ((noted (checksOf zone current history)).filter fun entry => counted accepted entry.1)
  have keys : (((noted (checksOf zone current history)).filter fun entry =>
      counted accepted entry.1).map Prod.fst) =
        ((noted (checksOf zone current history)).map Prod.fst).filter (counted accepted) := by
    rw [List.filter_map]
    rfl
  rw [keys] at counts
  rw [← checksOf, counts, List.filterMap_map, growing, ← filterMap_itemOf]
  apply List.filterMap_congr
  intro key inside
  rw [mem_firsts_iff, List.mem_filter] at inside
  exact congrArg (itemOf floats zone current key) (pointsOf_eq_series inside.2)

theorem mem_growing_iff {checks : List CompleteCheck} {key : Key} :
    key ∈ growing floats zone current accepted checks ↔
      key ∈ (noted checks).map Prod.fst ∧ counted accepted key = true ∧
        grows floats zone current checks key = true := by
  rw [growing, List.mem_filter, mem_firsts_iff, List.mem_filter, and_assoc]

/-- An item is that of a growing signature with few others before it. -/
theorem mem_items_iff {item : Item} :
    item ∈ (logErrorsGrowth floats zone current accepted history).items ↔
      ∃ key ∈ growing floats zone current accepted (checksOf zone current history),
        ¬ Outranked floats zone current accepted (checksOf zone current history) key ∧
          itemFor floats zone current (checksOf zone current history) key = item := by
  have injective {first second : Key}
      (same : itemFor floats zone current (checksOf zone current history) first =
        itemFor floats zone current (checksOf zone current history) second) : first = second :=
    Prod.ext (congrArg Item.nodeId same) (congrArg (fun item => item.evidence.signature) same)
  have distinct : (growing floats zone current accepted (checksOf zone current history)).Nodup :=
    (nodup_firsts _).filter _
  rw [items_eq, mem_take_ranked_iff (distinct.map fun _ _ => injective), List.mem_map]
  constructor
  · rintro ⟨⟨key, inside, rfl⟩, early⟩
    rw [rank_map fun _ _ => injective] at early
    exact ⟨key, inside, not_le.mpr early, rfl⟩
  · rintro ⟨key, inside, early, rfl⟩
    rw [rank_map fun _ _ => injective]
    exact ⟨⟨key, inside, rfl⟩, not_le.mp early⟩

end Items

/-! ## Accepted signatures -/

section Accepted

variable (env : LogEnvironment) (memory : LogHealth) (history : List StoredReview)

/-- The signatures that the user accepted, as the rule reads the table. -/
def listed (memory : LogHealth) (key : Key) : Bool :=
  memory.acceptsSignature key.1 key.2

/-- A stored finding of a source with a signature. -/
def Found (history : List StoredReview) (key : Key) (source : LogSourceHealth)
    (finding : LogFinding) : Prop :=
  (∃ review ∈ history, source ∈ review.result.sources) ∧ finding ∈ source.findings ∧
    (source.source.text, finding.signature) = key

/-- All findings of a signature are sorted as accepted when the stored results go
through `record_log_health`. -/
def AcceptedThroughout (key : Key) : Prop :=
  ∀ source finding, Found history key source finding →
    annotateLogFinding env (finding.redacted env.unicode) ∈
      (memory.splitLogFindings env source.source.text
        (source.redacted env.unicode).findings).acceptedFindings

/-- The masked text of a signature is accepted, or its component is and no finding
of it is critical. -/
def AcceptedOtherwise (key : Key) : Prop :=
  memory.acceptsSignature key.1 (redactSensitiveText env.unicode key.2) = true ∨
    (memory.acceptsComponent key.1 (logComponent env.title env.unicode
        (redactSensitiveText env.unicode key.2)).id = true ∧
      ∀ source finding, Found history key source finding → finding.severity ≠ .critical)

variable {env memory history}

/-- A reviewed finding is accepted by its signature, or by its component unless it
is critical. -/
theorem triage_eq_accepted_iff {source : Text} {reviewed : ReviewedFinding} :
    memory.triage source reviewed = .accepted ↔
      memory.acceptsSignature source reviewed.finding.signature = true ∨
        (memory.acceptsComponent source reviewed.component.id = true ∧
          reviewed.finding.severity ≠ .critical) := by
  rw [← decide_eq_true_iff (p := reviewed.finding.severity ≠ .critical), ← Bool.and_eq_true,
    ← Bool.or_eq_true]
  unfold LogHealth.triage
  split
  · rename_i taken
    exact iff_of_true rfl taken
  · rename_i left
    refine iff_of_false ?_ left
    split <;> simp

/-- One finding is sorted as accepted by its masked signature or by its component. -/
theorem mem_acceptedFindings_iff {key : Key} {source : LogSourceHealth} {finding : LogFinding}
    (found : Found history key source finding) :
    annotateLogFinding env (finding.redacted env.unicode) ∈
        (memory.splitLogFindings env source.source.text
          (source.redacted env.unicode).findings).acceptedFindings ↔
      memory.acceptsSignature key.1 (redactSensitiveText env.unicode key.2) = true ∨
        (memory.acceptsComponent key.1 (logComponent env.title env.unicode
          (redactSensitiveText env.unicode key.2)).id = true ∧ finding.severity ≠ .critical) := by
  rcases found with ⟨_, inside, rfl⟩
  have member : annotateLogFinding env (finding.redacted env.unicode) ∈
      (source.redacted env.unicode).findings.map (annotateLogFinding env) :=
    List.mem_map_of_mem (List.mem_map_of_mem inside)
  have sorted : annotateLogFinding env (finding.redacted env.unicode) ∈
      (memory.splitLogFindings env source.source.text
        (source.redacted env.unicode).findings).acceptedFindings ↔
      memory.triage source.source.text (annotateLogFinding env (finding.redacted env.unicode)) =
        .accepted := by
    simp only [LogHealth.splitLogFindings, List.mem_filter, member, true_and, decide_eq_true_eq]
  rw [sorted, triage_eq_accepted_iff]
  rfl

/-- A signature that was found is accepted throughout by its masked text, or by its
component as long as no finding of it is critical. -/
theorem acceptedThroughout_iff {key : Key} {source : LogSourceHealth} {finding : LogFinding}
    (found : Found history key source finding) :
    AcceptedThroughout env memory history key ↔ AcceptedOtherwise env memory history key := by
  constructor
  · intro throughout
    by_cases named : memory.acceptsSignature key.1 (redactSensitiveText env.unicode key.2) = true
    · exact Or.inl named
    · right
      have component {source : LogSourceHealth} {finding : LogFinding}
          (found : Found history key source finding) :=
        ((mem_acceptedFindings_iff found).mp (throughout source finding found)).resolve_left named
      exact ⟨(component found).1, fun source finding found => (component found).2⟩
  · rintro (named | ⟨component, calm⟩)
    · intro source finding found
      exact (mem_acceptedFindings_iff found).mpr (Or.inl named)
    · intro source finding found
      exact (mem_acceptedFindings_iff found).mpr (Or.inr ⟨component, calm source finding found⟩)

/-- What the rule counts was found in the history. -/
theorem found_of_noted {zone : LocalZone} {current : Int} {key : Key}
    (inside : key ∈ (noted (checksOf zone current history)).map Prod.fst) :
    ∃ source finding, Found history key source finding := by
  simp only [noted, checksOf, completeChecks, List.mem_map, List.mem_flatMap, List.mem_filter]
    at inside
  rcases inside with ⟨_, ⟨_, ⟨review, read, source, ⟨member, _⟩, rfl⟩, finding, here, rfl⟩, rfl⟩
  rw [recentReviews, List.mem_insertionSort, List.mem_filter] at read
  exact ⟨source, finding, ⟨review, read.1, member⟩, here, rfl⟩

/-- The rule reports no signature whose findings are all accepted exactly when each
signature that is accepted by its masked text or by its component is listed under its
stored text, does not drift, or has enough growing signatures before it. -/
theorem no_accepted_item_iff (env : LogEnvironment) (memory : LogHealth) (floats : Floats)
    (zone : LocalZone) (current : Int) (history : List StoredReview) :
    (∀ item ∈ (logErrorsGrowth floats zone current (listed memory) history).items,
        ¬ AcceptedThroughout env memory history (item.nodeId, item.evidence.signature)) ↔
      ∀ key ∈ (noted (checksOf zone current history)).map Prod.fst, key.2 ≠ [] →
        AcceptedOtherwise env memory history key →
          listed memory key = true ∨
            grows floats zone current (checksOf zone current history) key = false ∨
              Outranked floats zone current (listed memory) (checksOf zone current history) key := by
  constructor
  · intro spared key appears named accepted
    rcases found_of_noted appears with ⟨source, finding, found⟩
    by_contra reported
    rw [not_or, not_or, Bool.not_eq_false] at reported
    have shown : key ∈ growing floats zone current (listed memory)
        (checksOf zone current history) := by
      rw [mem_growing_iff]
      refine ⟨appears, ?_, reported.2.1⟩
      simp [counted, reported.1, named]
    exact spared _ (mem_items_iff.mpr ⟨key, shown, reported.2.2, rfl⟩)
      ((acceptedThroughout_iff found).mpr accepted)
  · intro excused item inside throughout
    rcases mem_items_iff.mp inside with ⟨key, shown, early, rfl⟩
    rw [mem_growing_iff] at shown
    rcases shown with ⟨appears, kept, drifts⟩
    rcases found_of_noted appears with ⟨source, finding, found⟩
    have unlisted : listed memory key = false ∧ key.2 ≠ [] := by
      simpa [counted] using kept
    rcases excused key appears unlisted.2 ((acceptedThroughout_iff found).mp throughout) with
      isListed | calm | outranked
    · rw [unlisted.1] at isListed
      cases isListed
    · rw [drifts] at calm
      cases calm
    · exact early outranked

end Accepted

/-! ## A component accepted as noise -/

/-- Exact products and no texts. -/
def exactFloats : Floats := ⟨fun spread => 44478 / 10000 * spread, id, fun _ => []⟩

/-- The summer time of Paris. -/
def summerZone : LocalZone where
  utcOffset := fun _ => 2 * hour
  localOffset := fun _ => 2 * hour

/-- A review of `ha-01` some days ago, which found the camera error a number of times. -/
def tapoReview (ago : Nat) (occurrences : Nat) : StoredReview :=
  ⟨summerMorning - ago * day, haReview .ko [{ tapoTimeout with occurrences }]⟩

/-- A week with few errors, then four days with many. -/
def tapoSurge : List StoredReview :=
  [13, 12, 11, 10, 9, 8, 7].map (fun ago => tapoReview ago 3) ++
    [3, 2, 1, 0].map fun ago => tapoReview ago 200

/-- The error opens an incident, and its component is accepted. -/
def acceptTapo : List (Int × LogAction) :=
  [(summerMorning, .call (.record firstJob (haReview .ko [tapoTimeout]))),
    (summerMorning + minute,
      .accept LogSourceId.ha01.text (.component "tapo_control".toList "Tapo".toList))]

/-- The component was shown, all findings of the error are sorted as accepted, and
the rule reports the error. -/
theorem accepted_component_reported :
    let opened := (reached (LogLedger.act logEnvironment) LogLedger.start
      (acceptTapo.take 1)).memory
    let memory := (reached (LogLedger.act logEnvironment) LogLedger.start acceptTapo).memory
    ((opened.store.active (logKey LogSourceId.ha01.text)).any fun incident =>
        (opened.contexts incident.incidentId).any fun context =>
          context.split.known.any fun reviewed => reviewed.component.id = "tapo_control".toList) ∧
      ∃ item ∈ (logErrorsGrowth exactFloats summerZone summerMorning (listed memory)
          tapoSurge).items,
        AcceptedThroughout logEnvironment memory tapoSurge (item.nodeId, item.evidence.signature) := by
  intro opened memory
  constructor
  · decide +kernel
  · have reported : (logErrorsGrowth exactFloats summerZone summerMorning (listed memory)
        tapoSurge).items.map (fun item => (item.nodeId, item.evidence.signature)) =
          [(LogSourceId.ha01.text, tapoTimeout.signature)] := by decide +kernel
    have only : (LogSourceId.ha01.text, tapoTimeout.signature) ∈
        (logErrorsGrowth exactFloats summerZone summerMorning (listed memory)
          tapoSurge).items.map fun item => (item.nodeId, item.evidence.signature) := by
      rw [reported]
      exact List.mem_singleton_self _
    rcases List.mem_map.mp only with ⟨item, inside, same⟩
    use item, inside
    rw [same]
    have first : Found tapoSurge (LogSourceId.ha01.text, tapoTimeout.signature)
        ⟨.ha01, .ko, 10, false, 3, [tapoTimeout]⟩ tapoTimeout :=
      ⟨⟨tapoReview 13 3, List.mem_cons_self, List.mem_cons_self⟩, List.mem_cons_self, rfl⟩
    rw [acceptedThroughout_iff first]
    right
    constructor
    · decide +kernel
    · rintro source finding ⟨⟨review, member, inReview⟩, inSource, _⟩
      have calm : ∀ review ∈ tapoSurge, ∀ source ∈ review.result.sources,
          ∀ finding ∈ source.findings, finding.severity ≠ .critical := by decide
      exact calm review member source inReview finding inSource

end OhanaAgent.Tsunade.LogGrowth
