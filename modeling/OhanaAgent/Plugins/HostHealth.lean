import Mathlib.Data.List.DropRight
import Mathlib.Data.List.Forall2
import Mathlib.Data.List.ReduceOption
import Mathlib.Data.Rat.Defs
import Mathlib.Algebra.Order.Ring.Rat
import OhanaAgent.Encoding.JsonRoundTrip

/-!
# Host health and its readers

Each collection compares one sample of the host with fixed thresholds.  A condition
that is not immediate becomes active once it was shown by enough collections in a
row, whoever asked for them: the periodic publication and the investigations share
the counts.
-/

namespace OhanaAgent.Plugins.HostHealth

open OhanaAgent.Encoding.Json (Text Fields Value Number)

/-! ## Samples -/

/-- Raw host metrics. -/
structure HostMetrics where
  hostname : Text
  operatingSystem : Text
  kernel : Text
  cpuCount : Nat
  cpuPercent : Option ℚ
  load1mPerCpu : Option ℚ
  memoryPercent : Option ℚ
  memoryTotalBytes : Option Int
  memoryAvailableBytes : Option Int
  swapPercent : Option ℚ
  swapTotalBytes : Option Int
  swapUsedBytes : Option Int
  diskPercent : Option ℚ
  diskFreeBytes : Option Int
  temperatureC : Option ℚ
  hostUptimeSeconds : Option Int
  agentUptimeSeconds : Nat
  agentRestarts : Option Int
  failedSystemdUnits : List Text
  inactiveSystemdUnits : List Text
  deriving DecidableEq

/-- What `AgentVitals.snapshot` says of a component. -/
structure ComponentVitals where
  component : Text
  label : Text
  state : Text
  lastActivityAt : Option Text
  silenceSeconds : Option Int
  maxSilenceSeconds : Int
  deriving DecidableEq

/-- What one collection reads: the host, the components, the last measure of Vision,
the sizes and the clock. -/
structure Sample where
  metrics : HostMetrics
  components : List ComponentVitals
  vision : Option Fields
  dataBytes : Option Int
  rssBytes : Option Int
  updatedAt : Text
  deriving DecidableEq

/-- `stale_components`. -/
def staleComponents (components : List ComponentVitals) : List Text :=
  (components.filter fun item => item.state = "stale".toList).map ComponentVitals.component

/-- `INGESTION_SILENCE_LIMIT_SECONDS`. -/
def ingestionSilenceLimitSeconds : Int := 300

/-- A value that is an `int`, as a number. -/
def asInt : Value → Option Int
  | .number number => number.toInt?
  | .atom .true => some 1
  | .atom .false => some 0
  | _ => none

/-- `vision_failures`. -/
def visionFailures : Option Fields → List Text
  | none => []
  | some state =>
      if state.lookup "available".toList = some (.atom .false) then
        ["vision_http_unavailable".toList]
      else
        match (state.lookup "ingestion_silence_seconds".toList).bind asInt with
        | some silence =>
            if silence > ingestionSilenceLimitSeconds then ["vision_ingestion_stale".toList] else []
        | none => []

/-! ## Conditions -/

inductive Severity where
  | degraded
  | critical
  deriving DecidableEq

def Severity.text : Severity → Text
  | .degraded => "degraded".toList
  | .critical => "critical".toList

/-- The keys of the streaks. -/
inductive ConditionKey where
  | cpu | load | memory | swap | disk | temperature
  | agentRestarts | systemdUnits | systemdInactive
  | visionHttp | visionIngestion | agentComponents
  deriving DecidableEq

/-- The keys of the metrics with thresholds, as the reasons name them. -/
def ConditionKey.text : ConditionKey → Text
  | .cpu => "cpu".toList
  | .load => "load".toList
  | .memory => "memory".toList
  | .swap => "swap".toList
  | .disk => "disk".toList
  | .temperature => "temperature".toList
  | .agentRestarts => "agent_restarts".toList
  | .systemdUnits => "systemd_units".toList
  | .systemdInactive => "systemd_inactive".toList
  | .visionHttp => "vision_http".toList
  | .visionIngestion => "vision_ingestion".toList
  | .agentComponents => "agent_components".toList

/-- A condition that a sample shows. -/
structure Condition where
  key : ConditionKey
  severity : Severity
  reason : Text
  immediate : Bool
  deriving DecidableEq

/-- The reason of a condition with two severities. -/
def graded (key : ConditionKey) (severity : Severity) (immediate : Bool) : Condition :=
  ⟨key, severity, key.text ++ '_' :: severity.text, immediate⟩

/-- `threshold`. -/
def threshold (key : ConditionKey) (value : Option ℚ) (degraded critical : ℚ)
    (immediate : Bool) : Option Condition :=
  match value with
  | none => none
  | some value =>
      if value < degraded then none
      else some (graded key (if critical ≤ value then .critical else .degraded) immediate)

/-- The restarts of the Agent. -/
def restartsCondition (agentRestarts : Option Int) : Option Condition :=
  match agentRestarts with
  | none => none
  | some restarts =>
      if 1 ≤ restarts then
        some (graded .agentRestarts (if 3 ≤ restarts then .critical else .degraded) true)
      else none

/-- The conditions of the metrics, with those that are not shown left out. -/
def metricConditions (metrics : HostMetrics) : List (Option Condition) :=
  [threshold .cpu metrics.cpuPercent 85 95 false,
   threshold .load metrics.load1mPerCpu 1 2 false,
   threshold .memory metrics.memoryPercent 85 95 false,
   threshold .swap metrics.swapPercent 50 80 false,
   threshold .disk metrics.diskPercent 85 95 true,
   threshold .temperature metrics.temperatureC 75 82 false,
   restartsCondition metrics.agentRestarts,
   if metrics.failedSystemdUnits = [] then none
   else some ⟨.systemdUnits, .degraded, "systemd_units_failed".toList, true⟩,
   if metrics.inactiveSystemdUnits = [] then none
   else some ⟨.systemdInactive, .degraded, "systemd_units_inactive".toList, true⟩]

/-- `_conditions`. -/
def conditions (metrics : HostMetrics) : List Condition :=
  (metricConditions metrics).reduceOption

namespace Sample

variable (sample : Sample)

/-- Vision does not answer. -/
def visionSilent : Bool :=
  visionFailures sample.vision |>.contains "vision_http_unavailable".toList

/-- The stale components; undelivered observations are Vision's failure. -/
def stale : List Text :=
  if sample.visionSilent then
    (staleComponents sample.components).filter (· ≠ "vision_delivery".toList)
  else staleComponents sample.components

/-- The condition of Vision. -/
def visionCondition : Option Condition :=
  if sample.visionSilent then
    some ⟨.visionHttp, .critical, "vision_http_unavailable".toList, false⟩
  else if visionFailures sample.vision ≠ [] then
    some ⟨.visionIngestion, .degraded, "vision_ingestion_stale".toList, false⟩
  else none

/-- The condition of the Agent's components. -/
def componentsCondition : Option Condition :=
  if sample.stale = [] then none
  else some ⟨.agentComponents, .degraded, "agent_components_stale".toList, true⟩

/-- All the conditions that a sample shows. -/
def conditions : List Condition :=
  HostHealth.conditions sample.metrics ++ sample.visionCondition.toList ++
    sample.componentsCondition.toList

/-- The sample shows a condition under this key. -/
def shows (key : ConditionKey) : Bool :=
  (sample.conditions.map Condition.key).contains key

end Sample

/-! ## The monitor -/

inductive HealthState where
  | healthy
  | degraded
  | critical
  deriving DecidableEq

/-- `HostHealthSnapshot`: the verdict beside what was read. -/
structure Snapshot where
  state : HealthState
  reasons : List Text
  sample : Sample
  staleAgentComponents : List Text
  deriving DecidableEq

/-- The verdict on the active conditions. -/
def overall (active : List Condition) : HealthState :=
  if active.any fun condition => condition.severity = .critical then .critical
  else if active = [] then .healthy
  else .degraded

/-- `HostHealthMonitor`: a key without a count has the count 0. -/
structure HostHealthMonitor where
  requiredSamples : Nat
  streaks : ConditionKey → Nat

namespace HostHealthMonitor

/-- `__init__`. -/
def init (requiredSamples : Int) : HostHealthMonitor :=
  ⟨(max requiredSamples 1).toNat, fun _ => 0⟩

/-- The loop over the conditions: each count grows, and a condition is active when
it is immediate or was shown often enough. -/
def count (required : Nat) : List Condition → (ConditionKey → Nat) →
    (ConditionKey → Nat) × List Condition
  | [], streaks => (streaks, [])
  | condition :: rest, streaks =>
      let streaks := Function.update streaks condition.key (streaks condition.key + 1)
      let (final, active) := count required rest streaks
      (final, if condition.immediate || required ≤ streaks condition.key then condition :: active
        else active)

/-- `collect`. -/
def collect (monitor : HostHealthMonitor) (sample : Sample) : Snapshot × HostHealthMonitor :=
  let reset := fun key => if sample.shows key then monitor.streaks key else 0
  let (streaks, active) := count monitor.requiredSamples sample.conditions reset
  (⟨overall active, active.map Condition.reason, sample, sample.stale⟩,
    { monitor with streaks })

end HostHealthMonitor

/-! ## Runs -/

/-- Who asks for a collection. -/
inductive Reader where
  | publication
  | investigation
  deriving DecidableEq

structure Call where
  reader : Reader
  sample : Sample
  deriving DecidableEq

/-- The snapshots of the periodic publications. -/
def publications (monitor : HostHealthMonitor) : List Call → List Snapshot
  | [] => []
  | call :: rest =>
      let (snapshot, next) := monitor.collect call.sample
      match call.reader with
      | .publication => snapshot :: publications next rest
      | .investigation => publications next rest

/-- What the periodic publications see. -/
def published : List Call → List Sample
  | [] => []
  | ⟨.publication, sample⟩ :: rest => sample :: published rest
  | ⟨.investigation, _⟩ :: rest => published rest

/-- The samples before each publication, and its own. -/
def histories (before : List Sample) : List Call → List (List Sample × Sample)
  | [] => []
  | ⟨.publication, sample⟩ :: rest => (before, sample) :: histories (before ++ [sample]) rest
  | ⟨.investigation, sample⟩ :: rest => histories (before ++ [sample]) rest

/-- The last samples, as many as are required, all show a condition under a key. -/
def Lasting (required : Nat) (key : ConditionKey) (samples : List Sample) : Prop :=
  required ≤ samples.length ∧ ∀ sample ∈ samples.rtake required, sample.shows key

instance (required : Nat) (key : ConditionKey) (samples : List Sample) :
    Decidable (Lasting required key samples) :=
  inferInstanceAs (Decidable (_ ∧ _))

/-! ## The keys and the reasons of a sample -/

/-- The reasons under a key. -/
def ConditionKey.reasons : ConditionKey → List Text
  | .systemdUnits => ["systemd_units_failed".toList]
  | .systemdInactive => ["systemd_units_inactive".toList]
  | .visionHttp => ["vision_http_unavailable".toList]
  | .visionIngestion => ["vision_ingestion_stale".toList]
  | .agentComponents => ["agent_components_stale".toList]
  | key => [key.text ++ "_degraded".toList, key.text ++ "_critical".toList]

/-- Every key, in the order of the conditions. -/
def ConditionKey.all : List ConditionKey :=
  [.cpu, .load, .memory, .swap, .disk, .temperature, .agentRestarts, .systemdUnits,
    .systemdInactive, .visionHttp, .visionIngestion, .agentComponents]

theorem ConditionKey.mem_all (key : ConditionKey) : key ∈ ConditionKey.all := by
  cases key <;> decide

/-- A reason names its key. -/
theorem ConditionKey.eq_of_reason {first second : ConditionKey} {reason : Text}
    (left : reason ∈ first.reasons) (right : reason ∈ second.reasons) : first = second := by
  have apart : ∀ first ∈ ConditionKey.all, ∀ second ∈ ConditionKey.all,
      ∀ reason ∈ first.reasons, reason ∈ second.reasons → first = second := by
    decide +kernel
  exact apart first first.mem_all second second.mem_all reason left right

/-- A condition that stands under a key, with one of its reasons. -/
def Condition.Under (key : ConditionKey) (condition : Condition) : Prop :=
  condition.key = key ∧ condition.reason ∈ key.reasons

/-- Optional conditions that each stand under their own key. -/
theorem keys_sublist {entries : List (Option Condition)} {keys : List ConditionKey}
    (under : List.Forall₂ (fun entry key => ∀ condition, entry = some condition →
      condition.Under key) entries keys) :
    (entries.reduceOption.map Condition.key).Sublist keys ∧
      ∀ condition ∈ entries.reduceOption, condition.reason ∈ condition.key.reasons := by
  induction under with
  | nil =>
      constructor
      · exact List.Sublist.refl _
      · intro condition inside
        cases inside
  | @cons entry key entries keys named _ inductionHypothesis =>
      rcases inductionHypothesis with ⟨sublist, reasons⟩
      cases entry with
      | none =>
          rw [List.reduceOption_cons_of_none]
          exact ⟨sublist.cons key, reasons⟩
      | some condition =>
          rcases named condition rfl with ⟨rfl, reason⟩
          rw [List.reduceOption_cons_of_some, List.map_cons]
          constructor
          · exact sublist.cons_cons _
          · intro other inside
            rcases List.mem_cons.mp inside with rfl | inside
            · exact reason
            · exact reasons other inside

theorem graded_under (key : ConditionKey) (severity : Severity) (immediate : Bool)
    (named : key.reasons = [key.text ++ "_degraded".toList, key.text ++ "_critical".toList]) :
    (graded key severity immediate).Under key := by
  constructor
  · rfl
  · rw [named]
    cases severity with
    | degraded => exact List.mem_cons_self
    | critical => exact List.mem_cons_of_mem _ List.mem_cons_self

theorem threshold_under {key : ConditionKey} {value : Option ℚ} {degraded critical : ℚ}
    {immediate : Bool} {condition : Condition}
    (named : key.reasons = [key.text ++ "_degraded".toList, key.text ++ "_critical".toList])
    (shown : threshold key value degraded critical immediate = some condition) :
    condition.Under key := by
  unfold threshold at shown
  cases value with
  | none => cases shown
  | some value =>
      simp only at shown
      split at shown
      · cases shown
      · cases shown
        exact graded_under key _ immediate named

theorem restartsCondition_under {restarts : Option Int} {condition : Condition}
    (shown : restartsCondition restarts = some condition) :
    condition.Under .agentRestarts := by
  unfold restartsCondition at shown
  cases restarts with
  | none => cases shown
  | some restarts =>
      simp only at shown
      split at shown
      · cases shown
        exact graded_under _ _ _ rfl
      · cases shown

/-- A condition that is shown unless something is absent. -/
theorem single_under {P : Prop} [Decidable P] {shown condition : Condition} {key : ConditionKey}
    (under : shown.Under key) (found : (if P then none else some shown) = some condition) :
    condition.Under key := by
  split at found
  · cases found
  · cases found
    exact under

namespace Sample

variable (sample : Sample)

/-- What Vision's answer shows, under the two keys it has. -/
theorem visionCondition_under :
    ∃ http ingestion, sample.visionCondition.toList = [http, ingestion].reduceOption ∧
      (∀ condition, http = some condition → condition.Under .visionHttp) ∧
      ∀ condition, ingestion = some condition → condition.Under .visionIngestion := by
  unfold visionCondition
  by_cases silent : sample.visionSilent
  · rw [if_pos silent]
    refine ⟨some ⟨.visionHttp, .critical, _, false⟩, none, rfl, ?_, ?_⟩
    · intro condition shown
      cases shown
      exact ⟨rfl, List.mem_cons_self⟩
    · intro condition shown
      cases shown
  · rw [if_neg silent]
    by_cases failed : visionFailures sample.vision ≠ []
    · rw [if_pos failed]
      refine ⟨none, some ⟨.visionIngestion, .degraded, _, false⟩, rfl, ?_, ?_⟩
      · intro condition shown
        cases shown
      · intro condition shown
        cases shown
        exact ⟨rfl, List.mem_cons_self⟩
    · rw [if_neg failed]
      refine ⟨none, none, rfl, ?_, ?_⟩ <;>
      · intro condition shown
        cases shown

/-- The conditions of a sample, each entry under its own key. -/
theorem entries_under :
    ∃ entries, sample.conditions = entries.reduceOption ∧
      List.Forall₂ (fun entry key => ∀ condition, entry = some condition → condition.Under key)
        entries ConditionKey.all := by
  rcases sample.visionCondition_under with ⟨http, ingestion, vision, httpUnder, ingestionUnder⟩
  use metricConditions sample.metrics ++ [http, ingestion, sample.componentsCondition]
  constructor
  · unfold conditions HostHealth.conditions
    rw [vision, List.append_assoc, List.reduceOption_append]
    congr 1
    cases http <;> cases ingestion <;> cases sample.componentsCondition <;> rfl
  · unfold metricConditions ConditionKey.all
    exact .cons (fun _ => threshold_under rfl) (.cons (fun _ => threshold_under rfl)
      (.cons (fun _ => threshold_under rfl) (.cons (fun _ => threshold_under rfl)
      (.cons (fun _ => threshold_under rfl) (.cons (fun _ => threshold_under rfl)
      (.cons (fun _ => restartsCondition_under)
      (.cons (fun _ => single_under ⟨rfl, List.mem_cons_self⟩)
      (.cons (fun _ => single_under ⟨rfl, List.mem_cons_self⟩)
      (.cons httpUnder (.cons ingestionUnder
      (.cons (fun _ => single_under ⟨rfl, List.mem_cons_self⟩) .nil)))))))))))

theorem keys_nodup : (sample.conditions.map Condition.key).Nodup := by
  rcases sample.entries_under with ⟨entries, same, under⟩
  rw [same]
  exact (keys_sublist under).1.nodup (by decide)

/-- No two conditions of a sample have the same reason. -/
theorem eq_of_reason {first second : Condition} (left : first ∈ sample.conditions)
    (right : second ∈ sample.conditions) (same : first.reason = second.reason) :
    first = second := by
  rcases sample.entries_under with ⟨entries, split, under⟩
  have reasons := (keys_sublist under).2
  rw [← split] at reasons
  have keys : first.key = second.key :=
    ConditionKey.eq_of_reason (reasons first left) (same ▸ reasons second right)
  exact List.inj_on_of_nodup_map sample.keys_nodup left right keys

theorem shows_of_mem {condition : Condition} (inside : condition ∈ sample.conditions) :
    sample.shows condition.key = true := by
  unfold shows
  rw [List.contains_iff_mem]
  exact List.mem_map_of_mem inside

end Sample

/-! ## The counts are streaks -/

/-- The count of a key after some samples. -/
def streak (samples : List Sample) (key : ConditionKey) : Nat :=
  (samples.rtakeWhile fun sample => sample.shows key).length

/-- A final run of a list is as long as its last elements have the property. -/
theorem le_length_rtakeWhile_iff {α : Type} (p : α → Bool) (items : List α) (n : Nat) :
    n ≤ (items.rtakeWhile p).length ↔ n ≤ items.length ∧ ∀ item ∈ items.rtake n, p item := by
  induction items using List.reverseRecOn generalizing n with
  | nil => simp
  | append_singleton items last inductionHypothesis =>
      cases n with
      | zero => simp
      | succ n =>
          rw [List.rtake_concat_succ, List.rtakeWhile_concat]
          by_cases holds : p last
          · rw [if_pos holds]
            simp only [List.length_append, List.length_singleton, Nat.add_le_add_iff_right,
              List.forall_mem_append, List.forall_mem_singleton, holds, and_true]
            exact inductionHypothesis n
          · rw [if_neg holds]
            simp [holds]

theorem le_streak_iff {required : Nat} {samples : List Sample} {key : ConditionKey} :
    required ≤ streak samples key ↔ Lasting required key samples :=
  le_length_rtakeWhile_iff _ samples required

theorem streak_concat (samples : List Sample) (sample : Sample) (key : ConditionKey) :
    streak (samples ++ [sample]) key = if sample.shows key then streak samples key + 1 else 0 := by
  unfold streak
  rw [List.rtakeWhile_concat]
  split <;> simp

namespace HostHealthMonitor

/-- Over conditions with distinct keys, each count is compared once it has grown. -/
theorem count_eq (required : Nat) {conditions : List Condition}
    (distinct : (conditions.map Condition.key).Nodup) (streaks : ConditionKey → Nat) :
    count required conditions streaks =
      (fun key => if key ∈ conditions.map Condition.key then streaks key + 1 else streaks key,
        conditions.filter fun condition =>
          condition.immediate || required ≤ streaks condition.key + 1) := by
  induction conditions generalizing streaks with
  | nil => simp [count]
  | cons condition rest inductionHypothesis =>
      rw [List.map_cons, List.nodup_cons] at distinct
      rw [count, inductionHypothesis distinct.2]
      have others : ∀ other ∈ rest,
          Function.update streaks condition.key (streaks condition.key + 1) other.key =
            streaks other.key := by
        intro other inside
        apply Function.update_of_ne
        intro same
        exact distinct.1 (same ▸ List.mem_map_of_mem inside)
      simp only [Function.update_self, List.filter_cons, Prod.mk.injEq]
      constructor
      · funext key
        by_cases same : key = condition.key
        · subst same
          simp [distinct.1]
        · simp [same]
      · rw [List.filter_congr (q := fun other =>
          other.immediate || decide (required ≤ streaks other.key + 1))
          fun other inside => by rw [others other inside]]

/-- The conditions that count after some samples. -/
def active (required : Nat) (before : List Sample) (sample : Sample) : List Condition :=
  sample.conditions.filter fun condition =>
    condition.immediate || required ≤ streak (before ++ [sample]) condition.key

variable {monitor : HostHealthMonitor} {before : List Sample}

/-- One collection adds its sample to the streaks. -/
theorem collect_eq (counts : monitor.streaks = streak before) (sample : Sample) :
    monitor.collect sample =
      (⟨overall (active monitor.requiredSamples before sample),
          (active monitor.requiredSamples before sample).map Condition.reason, sample,
          sample.stale⟩,
        ⟨monitor.requiredSamples, streak (before ++ [sample])⟩) := by
  unfold collect
  simp only [count_eq _ sample.keys_nodup, counts]
  have grown : ∀ condition ∈ sample.conditions,
      (if sample.shows condition.key then streak before condition.key else 0) + 1 =
        streak (before ++ [sample]) condition.key := by
    intro condition inside
    rw [streak_concat, if_pos (sample.shows_of_mem inside), if_pos (sample.shows_of_mem inside)]
  have same : sample.conditions.filter (fun condition => condition.immediate ||
      decide (monitor.requiredSamples ≤
        (if sample.shows condition.key then streak before condition.key else 0) + 1)) =
      active monitor.requiredSamples before sample := by
    apply List.filter_congr
    intro condition inside
    rw [grown condition inside]
  simp only [same, Prod.mk.injEq, mk.injEq, true_and]
  funext key
  rw [streak_concat]
  by_cases shown : sample.shows key
  · have member : key ∈ sample.conditions.map Condition.key := List.contains_iff_mem.mp shown
    rw [if_pos member, if_pos shown, if_pos shown]
  · have absent : key ∉ sample.conditions.map Condition.key :=
      fun member => shown (List.contains_iff_mem.mpr member)
    rw [if_neg absent, if_neg shown, if_neg shown]

/-- The verdict of a publication after the samples before it. -/
def verdict (required : Nat) (history : List Sample × Sample) : HealthState × List Text :=
  (overall (active required history.1 history.2),
    (active required history.1 history.2).map Condition.reason)

/-- Over a whole run, each publication judges its history. -/
theorem publications_eq (calls : List Call) (counts : monitor.streaks = streak before) :
    (publications monitor calls).map (fun snapshot => (snapshot.state, snapshot.reasons)) =
      (histories before calls).map (verdict monitor.requiredSamples) := by
  induction calls generalizing monitor before with
  | nil => rfl
  | cons call rest inductionHypothesis =>
      rcases call with ⟨reader, sample⟩
      have after := @inductionHypothesis ⟨monitor.requiredSamples, streak (before ++ [sample])⟩
        (before ++ [sample]) rfl
      cases reader with
      | publication =>
          simp only [publications, collect_eq counts, histories, List.map_cons, after]
          rfl
      | investigation =>
          simp only [publications, collect_eq counts, histories, after]

/-- A history ends with the sample of its publication. -/
theorem histories_samples (before : List Sample) (calls : List Call) :
    (histories before calls).map Prod.snd = published calls := by
  induction calls generalizing before with
  | nil => rfl
  | cons call rest inductionHypothesis =>
      rcases call with ⟨reader, sample⟩
      cases reader with
      | publication => simp only [histories, published, List.map_cons, inductionHypothesis]
      | investigation => simp only [histories, published, inductionHypothesis]

/-- Two histories of one sample agree on each condition that it shows and that
has to last. -/
def Agree (required : Nat) (first second : List Sample × Sample) : Prop :=
  ∀ condition ∈ first.2.conditions, condition.immediate = false →
    (Lasting required condition.key (first.1 ++ [first.2]) ↔
      Lasting required condition.key (second.1 ++ [second.2]))

instance (required : Nat) (first second : List Sample × Sample) :
    Decidable (Agree required first second) :=
  inferInstanceAs (Decidable (∀ condition ∈ first.2.conditions, _ → _))

theorem mem_active_iff {required : Nat} {sample : Sample} {condition : Condition} :
    condition ∈ active required before sample ↔ condition ∈ sample.conditions ∧
      (condition.immediate = false → Lasting required condition.key (before ++ [sample])) := by
  unfold active
  rw [List.mem_filter, ← le_streak_iff]
  cases condition.immediate <;> simp

/-- The same reasons are the same active conditions. -/
theorem active_eq_of_reasons {required : Nat} {sample : Sample} {other : List Sample}
    (same : (active required before sample).map Condition.reason =
      (active required other sample).map Condition.reason) {condition : Condition}
    (inside : condition ∈ active required before sample) :
    condition ∈ active required other sample := by
  have reason : condition.reason ∈ (active required other sample).map Condition.reason := by
    rw [← same]
    exact List.mem_map_of_mem inside
  rcases List.mem_map.mp reason with ⟨twin, twinInside, equal⟩
  rwa [← sample.eq_of_reason (mem_active_iff.mp twinInside).1 (mem_active_iff.mp inside).1 equal]

/-- Two publications of one sample have the same verdict exactly when their
histories agree. -/
theorem verdict_eq_iff {required : Nat} {first second : List Sample × Sample}
    (same : first.2 = second.2) :
    verdict required first = verdict required second ↔ Agree required first second := by
  rcases first with ⟨before, sample⟩
  rcases second with ⟨other, otherSample⟩
  cases same
  constructor
  · intro verdicts condition inside lasts
    have reasons := congrArg Prod.snd verdicts
    constructor
    · intro lasting
      exact (mem_active_iff.mp (active_eq_of_reasons reasons
        (mem_active_iff.mpr ⟨inside, fun _ => lasting⟩))).2 lasts
    · intro lasting
      exact (mem_active_iff.mp (active_eq_of_reasons reasons.symm
        (mem_active_iff.mpr ⟨inside, fun _ => lasting⟩))).2 lasts
  · intro agree
    have equal : active required before sample = active required other sample := by
      apply List.filter_congr
      intro condition inside
      cases immediate : condition.immediate with
      | true => rfl
      | false =>
          have lasting := agree condition inside immediate
          rw [Bool.false_or, Bool.false_or, decide_eq_decide, le_streak_iff, le_streak_iff]
          exact lasting
    unfold verdict
    rw [equal]

end HostHealthMonitor

/-! ## Two runs -/

open HostHealthMonitor

/-- Relations that agree on related pairs relate the same lists of such pairs. -/
theorem forall₂_congr_of_forall₂ {α β : Type} {R S T : α → β → Prop} {left : List α}
    {right : List β} (related : List.Forall₂ T left right)
    (agree : ∀ a b, T a b → (R a b ↔ S a b)) :
    List.Forall₂ R left right ↔ List.Forall₂ S left right := by
  induction related with
  | nil => simp
  | cons head _ inductionHypothesis =>
      rw [List.forall₂_cons, List.forall₂_cons, agree _ _ head, inductionHypothesis]

/-- Two runs with the same publications and any additional calls give the same
states and reasons exactly when, at each publication, each of its conditions that
has to last was shown by the last collections of one run if and only if it was
shown by those of the other. -/
theorem publications_agree_iff (requiredSamples : Int) (first second : List Call)
    (same : published first = published second) :
    (publications (init requiredSamples) first).map
        (fun snapshot => (snapshot.state, snapshot.reasons)) =
      (publications (init requiredSamples) second).map
        (fun snapshot => (snapshot.state, snapshot.reasons)) ↔
    List.Forall₂ (Agree (max requiredSamples 1).toNat) (histories [] first)
      (histories [] second) := by
  have fresh : (init requiredSamples).streaks = streak [] := rfl
  have samples : List.Forall₂ (fun left right : List Sample × Sample => left.2 = right.2)
      (histories [] first) (histories [] second) := by
    have equal : List.Forall₂ Eq ((histories [] first).map Prod.snd)
        ((histories [] second).map Prod.snd) := by
      rw [List.forall₂_eq_eq_eq, histories_samples, histories_samples]
      exact same
    rwa [List.forall₂_map_left_iff, List.forall₂_map_right_iff] at equal
  rw [publications_eq first fresh, publications_eq second fresh, ← List.forall₂_eq_eq_eq,
    List.forall₂_map_left_iff, List.forall₂_map_right_iff]
  exact forall₂_congr_of_forall₂ samples fun _ _ => verdict_eq_iff

/-! ## A burst of investigations -/

/-- A host with nothing to report. -/
def quietMetrics : HostMetrics where
  hostname := "INFRA-01".toList
  operatingSystem := "Linux".toList
  kernel := "6.12".toList
  cpuCount := 4
  cpuPercent := some 5
  load1mPerCpu := some (1 / 10)
  memoryPercent := some 40
  memoryTotalBytes := some 8000000000
  memoryAvailableBytes := some 4800000000
  swapPercent := some 0
  swapTotalBytes := some 0
  swapUsedBytes := some 0
  diskPercent := some 30
  diskFreeBytes := some 90000000000
  temperatureC := some 50
  hostUptimeSeconds := some 86400
  agentUptimeSeconds := 3600
  agentRestarts := some 0
  failedSystemdUnits := []
  inactiveSystemdUnits := []

/-- A sample of this host with some load of its processor. -/
def sampleAt (cpuPercent : ℚ) (updatedAt : String) : Sample :=
  ⟨{ quietMetrics with cpuPercent := some cpuPercent }, [], none, none, none, updatedAt.toList⟩

/-- A publication during a short peak, one minute after a quiet one. -/
def peak : List Call :=
  [⟨.publication, sampleAt 5 "2026-11-02T08:00:00+01:00"⟩,
    ⟨.publication, sampleAt 97 "2026-11-02T08:01:00+01:00"⟩]

/-- The same, with two investigations during the peak. -/
def investigatedPeak : List Call :=
  [⟨.publication, sampleAt 5 "2026-11-02T08:00:00+01:00"⟩,
    ⟨.investigation, sampleAt 97 "2026-11-02T08:00:50+01:00"⟩,
    ⟨.investigation, sampleAt 97 "2026-11-02T08:00:55+01:00"⟩,
    ⟨.publication, sampleAt 97 "2026-11-02T08:01:00+01:00"⟩]

/-- An investigation before the peak changes nothing. -/
theorem publications_agree_before_peak :
    published peak = published (⟨.investigation, sampleAt 5 "2026-11-02T07:59:00+01:00"⟩ :: peak) ∧
    (publications (init 3) peak).map (fun snapshot => (snapshot.state, snapshot.reasons)) =
      (publications (init 3)
        (⟨.investigation, sampleAt 5 "2026-11-02T07:59:00+01:00"⟩ :: peak)).map
          (fun snapshot => (snapshot.state, snapshot.reasons)) := by
  have same : published peak =
      published (⟨.investigation, sampleAt 5 "2026-11-02T07:59:00+01:00"⟩ :: peak) := rfl
  exact ⟨same, (publications_agree_iff 3 _ _ same).mpr (by decide +kernel)⟩

/-- Two investigations make the publication of the same sample critical. -/
theorem publications_disagree :
    published peak = published investigatedPeak ∧
    (publications (init 3) peak).map (fun snapshot => (snapshot.state, snapshot.reasons)) =
      [(.healthy, []), (.healthy, [])] ∧
    (publications (init 3) investigatedPeak).map
        (fun snapshot => (snapshot.state, snapshot.reasons)) =
      [(.healthy, []), (.critical, ["cpu_critical".toList])] := by
  decide +kernel

end OhanaAgent.Plugins.HostHealth
