import OhanaAgent.Transition.Trace
import OhanaAgent.Tsunade.LogRedelivery
import Mathlib.Data.List.Perm.Basic
import Mathlib.Logic.Function.Iterate

/-!
# Accepting noise and reviewing again

Accepting a signature or a component sorts again what the incident keeps of its
last review, after reading it back; a new review sorts the result itself.  Both
sort with the same triage, so they agree when what was kept still reads as the
review found it.  They do not when the collection had failed: a review keeps
such an incident, and an acceptance ends it.
-/

namespace OhanaAgent.Tsunade

open OhanaAgent.Encoding.Json
open OhanaAgent.Privacy
open OhanaAgent.Store
open OhanaAgent.Time
open OhanaAgent.Transition

variable {env : LogEnvironment} {now : Int} {jobId : JobId} {memory before middle after : LogHealth}

/-! ## The triage as a partition -/

/-- Two splits hold the same findings up to order. -/
structure LogSplit.Matches (first second : LogSplit) : Prop where
  findings : first.findings.Perm second.findings
  backgroundFindings : first.backgroundFindings.Perm second.backgroundFindings
  acceptedFindings : first.acceptedFindings.Perm second.acceptedFindings

/-- Sort reviewed findings. -/
def LogHealth.sort (source : Text) (reviewed : List ReviewedFinding) (memory : LogHealth) :
    LogSplit where
  findings := reviewed.filter fun finding => memory.triage source finding = .significant
  backgroundFindings := reviewed.filter fun finding =>
    memory.triage source finding = .background
  acceptedFindings := reviewed.filter fun finding => memory.triage source finding = .accepted

theorem splitLogFindings_eq_sort (source : Text) (findings : List LogFinding) :
    memory.splitLogFindings env source findings =
      memory.sort source (findings.map (annotateLogFinding env)) := rfl

/-- Sorting loses nothing. -/
theorem known_sort_perm (source : Text) (reviewed : List ReviewedFinding) :
    (memory.sort source reviewed).known.Perm reviewed := by
  induction reviewed with
  | nil => exact .nil
  | cons finding rest ih =>
      have parts : (memory.sort source (finding :: rest)).known.Perm
          (finding :: (memory.sort source rest).known) := by
        cases sorted : memory.triage source finding with
        | significant => simp [LogHealth.sort, LogSplit.known, sorted]
        | background =>
            simp only [LogHealth.sort, LogSplit.known, sorted, List.filter_cons, reduceCtorEq,
              decide_true, decide_false, if_true, if_false, Bool.false_eq_true, List.append_assoc]
            exact List.perm_middle
        | accepted =>
            simp only [LogHealth.sort, LogSplit.known, sorted, List.filter_cons, reduceCtorEq,
              decide_true, decide_false, if_true, if_false, Bool.false_eq_true]
            exact List.perm_middle
      exact parts.trans (ih.cons finding)

/-- Sorted lists match exactly when the lists do. -/
theorem sort_matches_iff (source : Text) (first second : List ReviewedFinding) :
    (memory.sort source first).Matches (memory.sort source second) ↔ first.Perm second := by
  constructor
  · intro same
    have known : (memory.sort source first).known.Perm (memory.sort source second).known :=
      (same.findings.append same.backgroundFindings).append same.acceptedFindings
    exact (known_sort_perm source first).symm.trans (known.trans (known_sort_perm source second))
  · intro same
    exact ⟨same.filter _, same.filter _, same.filter _⟩

theorem LogSplit.Matches.findings_eq_nil_iff {first second : LogSplit}
    (same : first.Matches second) : first.findings = [] ↔ second.findings = [] := by
  rw [← List.length_eq_zero_iff, ← List.length_eq_zero_iff, same.findings.length_eq]

/-- Nothing of a list is significant. -/
def LogHealth.Routine (source : Text) (reviewed : List ReviewedFinding) (memory : LogHealth) :
    Prop :=
  ∀ finding ∈ reviewed, memory.triage source finding ≠ .significant

theorem findings_sort_eq_nil_iff (source : Text) (reviewed : List ReviewedFinding) :
    (memory.sort source reviewed).findings = [] ↔ memory.Routine source reviewed := by
  simp [LogHealth.sort, LogHealth.Routine, List.filter_eq_nil_iff]

theorem Routine.perm {source : Text} {first second : List ReviewedFinding}
    (same : first.Perm second) : memory.Routine source first ↔ memory.Routine source second :=
  forall_congr' fun _ => imp_congr same.mem_iff Iff.rfl

/-! ## Reading a finding back -/

/-- A finding of an incident, read back and named again. -/
def readAgain (env : LogEnvironment) (reviewed : ReviewedFinding) : ReviewedFinding :=
  annotateLogFinding env (reviewed.finding.redacted env.unicode)

/-- What the review of a source found. -/
def LogSourceHealth.reviewed (env : LogEnvironment) (source : LogSourceHealth) :
    List ReviewedFinding :=
  (source.redacted env.unicode).findings.map (annotateLogFinding env)

/-- What it found, read back a number of times. -/
def LogSourceHealth.readBack (env : LogEnvironment) (reads : Nat) (source : LogSourceHealth) :
    List ReviewedFinding :=
  (source.reviewed env).map (readAgain env)^[reads]

@[simp]
theorem readBack_zero (source : LogSourceHealth) : source.readBack env 0 = source.reviewed env :=
  List.map_id _

theorem readBack_succ (reads : Nat) (source : LogSourceHealth) :
    source.readBack env (reads + 1) = (source.readBack env reads).map (readAgain env) := by
  rw [LogSourceHealth.readBack, LogSourceHealth.readBack, List.map_map, Function.iterate_succ']

/-- Texts that masking leaves alone read back as they were. -/
theorem readBack_of_stable (source : LogSourceHealth) (reads : Nat)
    (stable : ∀ finding ∈ (source.redacted env.unicode).findings,
      finding.redacted env.unicode = finding) : source.readBack env reads = source.reviewed env := by
  induction reads with
  | zero => exact readBack_zero source
  | succ reads ih =>
      rw [readBack_succ, ih, LogSourceHealth.reviewed, List.map_map]
      apply List.map_congr_left
      intro finding member
      rw [Function.comp_apply, readAgain, annotateLogFinding, annotateLogFinding,
        stable finding member]

/-- The findings of a context that is read, named again. -/
theorem annotate_knownFindings (context : LogContext) :
    (LogHealth.knownFindings (some (context.redacted env.unicode))).map (annotateLogFinding env) =
      context.split.known.map (readAgain env) := by
  have masked : (context.redacted env.unicode).split.known =
      context.split.known.map (ReviewedFinding.redacted env.unicode) := by
    simp [LogSplit.known, LogContext.redacted, LogSplit.redacted]
  simp only [LogHealth.knownFindings, Option.elim_some, masked, List.map_map]
  rfl

/-! ## What other operations leave of an incident -/

/-- The active incident of a key stays, with its context. -/
def Spares (key : Key) (before after : LogHealth) : Prop :=
  ∀ incident, before.store.active key = some incident →
    ∃ next, after.store.active key = some next ∧ next.incidentId = incident.incidentId ∧
      after.contexts incident.incidentId = before.contexts incident.incidentId

theorem Spares.refl (key : Key) (memory : LogHealth) : Spares key memory memory :=
  fun incident active => ⟨incident, active, rfl, rfl⟩

theorem Spares.trans {key : Key} (left : Spares key before middle)
    (right : Spares key middle after) : Spares key before after := by
  intro incident active
  obtain ⟨next, nextActive, same, context⟩ := left incident active
  obtain ⟨last, lastActive, also, further⟩ := right next nextActive
  rw [same] at further
  exact ⟨last, lastActive, also.trans same, further.trans context⟩

/-- A row and its successor are both active under a key, or neither is. -/
structure IncidentRow.Steady (key : Key) (row next : IncidentRow) : Prop where
  incidentId : next.incidentId = row.incidentId
  active : (next.key = key ∧ next.endedAt = none) ↔ (row.key = key ∧ row.endedAt = none)

/-- The first active row has a successor that is the first one. -/
theorem active_of_rewrites {key : Key} {first second : Store}
    (rewrites : Table.Rewrites (IncidentRow.Steady key) first.incidents second.incidents)
    {incident : IncidentRow} (active : first.active key = some incident) :
    ∃ next, second.active key = some next ∧ next.incidentId = incident.incidentId := by
  have rows : ∀ {first second : List IncidentRow},
      List.Forall₂ (IncidentRow.Steady key) first second →
        (first.find? fun row => row.key = key && row.endedAt.isNone) = some incident →
          ∃ next, (second.find? fun row => row.key = key && row.endedAt.isNone) = some next ∧
            next.incidentId = incident.incidentId := by
    intro first second related
    induction related with
    | nil =>
        intro found
        cases found
    | @cons row next _ _ head _ ih =>
        have same : (next.key = key && next.endedAt.isNone) =
            (row.key = key && row.endedAt.isNone) := by
          rw [Bool.eq_iff_iff]
          simpa using head.active
        intro found
        rw [List.find?_cons, same]
        rw [List.find?_cons] at found
        split at found
        · cases found
          exact ⟨next, rfl, head.incidentId⟩
        · exact ih found
  exact rows rewrites active

/-- Changes that leave the incidents aside spare every incident. -/
theorem Aside.spares {store : Store} (aside : Aside memory.store store) (key : Key) :
    Spares key memory { memory with store } := by
  intro incident active
  have rewrites := aside.incidents.mono (S := IncidentRow.Steady key) fun _ _ same => by
    rw [same]
    exact ⟨rfl, Iff.rfl⟩
  obtain ⟨next, found, same⟩ := active_of_rewrites rewrites active
  exact ⟨next, found, same, rfl⟩

/-- A write to an incident of another key spares the incident of this one. -/
theorem spares_modify {key other : Key} {incident : IncidentRow}
    (write : IncidentRow → IncidentRow) (keeps : ∀ row, (write row).incidentId = row.incidentId)
    (different : other ≠ key) (active : before.store.active other = some incident)
    (incidents : after.store.incidents =
      before.store.incidents.modify incident.incidentId write keeps)
    (moved : (write incident).key ≠ key)
    (contexts : ∀ id, id ≠ incident.incidentId → after.contexts id = before.contexts id) :
    Spares key before after := by
  obtain ⟨member, own, _⟩ := active_eq_some active
  intro target found
  obtain ⟨targetMem, targetKey, _⟩ := active_eq_some found
  have rewrites : Table.Rewrites (IncidentRow.Steady key) before.store.incidents
      after.store.incidents := by
    rw [incidents]
    refine Table.Rewrites.modify keeps (fun _ _ _ => ⟨rfl, Iff.rfl⟩) ?_
    intro row rowMem same
    obtain rfl := Table.key_injective rowMem member same
    exact ⟨keeps row, iff_of_false (fun both => moved both.1)
      fun both => different (own.symm.trans both.1)⟩
  obtain ⟨next, nextFound, same⟩ := active_of_rewrites rewrites found
  refine ⟨next, nextFound, same, contexts _ ?_⟩
  intro equal
  rw [Table.key_injective targetMem member equal, own] at targetKey
  exact different targetKey

/-- A write that touches neither the key nor the end of an incident. -/
theorem steady_modify {key : Key} (write : IncidentRow → IncidentRow)
    (keeps : ∀ row, (write row).incidentId = row.incidentId)
    (same : ∀ row : IncidentRow, (write row).key = row.key)
    (ends : ∀ row : IncidentRow, (write row).endedAt = row.endedAt) (wanted : Text)
    (table : Table IncidentRow IncidentRow.incidentId) :
    Table.Rewrites (IncidentRow.Steady key) table (table.modify wanted write keeps) := by
  refine Table.Rewrites.modify keeps (fun _ _ _ => ⟨rfl, Iff.rfl⟩) ?_
  intro row _ _
  exact ⟨keeps row, by rw [same, ends]⟩

/-- A new incident spares the others. -/
theorem spares_open {key : Key} {row : IncidentRow}
    (fresh : ∀ other ∈ before.store.incidents, other.incidentId ≠ row.incidentId)
    (rows : after.store.incidents.rows = before.store.incidents.rows ++ [row])
    (contexts : ∀ id, id ≠ row.incidentId → after.contexts id = before.contexts id) :
    Spares key before after := by
  intro target found
  refine ⟨target, ?_, rfl, contexts _ (fresh target (active_eq_some found).1)⟩
  rw [Store.active, rows, List.find?_append]
  rw [Store.active] at found
  rw [found]
  rfl

/-! ## What an incident keeps of its last review -/

/-- The active incident of a source keeps what the review of a result found,
read back a number of times. -/
structure Stored (env : LogEnvironment) (memory : LogHealth) (source : Text)
    (result : LogSourceHealth) (reads : Nat) : Prop where
  named : result.source.text = source
  kept : ∃ incident context, memory.store.active (logKey source) = some incident ∧
    memory.contexts incident.incidentId = some context ∧
      context.split.known.Perm (result.readBack env reads)

theorem Stored.spared {source : Text} {result : LogSourceHealth} {reads : Nat}
    (stored : Stored env before source result reads) (spares : Spares (logKey source) before after) :
    Stored env after source result reads := by
  obtain ⟨incident, context, active, found, same⟩ := stored.kept
  obtain ⟨next, nextActive, id, contexts⟩ := spares incident active
  exact ⟨stored.named, next, context, nextActive, by rw [id, contexts, found], same⟩

/-- What the review of a source leaves of its incident. -/
def Noted (env : LogEnvironment) (result : LogSourceHealth) (review : Review)
    (before after : LogHealth) : Prop :=
  match review with
  | .opened _ | .updated _ => Stored env after result.source.text result 0
  | .resolved => True
  | .calm | .repeated _ => Spares (logKey result.source.text) before after

theorem logKey_injective {first second : Text} (equal : logKey first = logKey second) :
    first = second :=
  congrArg Key.node equal

section Reviewing

variable {result : LogSourceHealth} {window : LogWindow} {review : Review}

/-- The context of a review keeps what it found. -/
theorem context_perm (window : LogWindow) (memory : LogHealth) :
    ((result.redacted env.unicode).context window (memory.splitLogFindings env
      result.source.text (result.redacted env.unicode).findings)).split.known.Perm
        (result.readBack env 0) := by
  rw [readBack_zero]
  exact known_sort_perm result.source.text _

/-- An opened incident is appended, with its context. -/
theorem openIncident_eq_ok {source : LogSourceHealth} {message : String} {context : LogContext}
    (done : memory.openIncident env now jobId source context message = .ok (review, after)) :
    ∃ row, review = .opened row.incidentId ∧ row.key = logKey source.source.text ∧
      row.endedAt = none ∧ (∀ other ∈ memory.store.incidents, other.incidentId ≠ row.incidentId) ∧
        after.store.incidents.rows = memory.store.incidents.rows ++ [row] ∧
          after.contexts = Function.update memory.contexts row.incidentId (some context) := by
  simp only [LogHealth.openIncident, bind_eq_ok, pure_eq_ok, Prod.mk.injEq] at done
  obtain ⟨inserted, insertion, rfl, rfl⟩ := done
  obtain ⟨incidents, found, rfl⟩ := insertIncident_eq_ok insertion
  obtain ⟨fresh, rows⟩ := Table.insert?_eq_some_iff.mp found
  exact ⟨_, rfl, rfl, rfl, fresh, rows, rfl⟩

theorem noted_open {message : String} {context : LogContext}
    (idle : memory.store.active (logKey result.source.text) = none)
    (kept : context.split.known.Perm (result.readBack env 0))
    (done : memory.openIncident env now jobId (result.redacted env.unicode) context message =
      .ok (review, after)) :
    (∀ source, source ≠ result.source.text → Spares (logKey source) memory after) ∧
      Noted env result review memory after := by
  obtain ⟨row, rfl, key, ongoing, fresh, rows, contexts⟩ := openIncident_eq_ok done
  constructor
  · intro source _
    apply spares_open fresh rows
    intro id other
    rw [contexts, Function.update_of_ne other]
  · refine ⟨rfl, row, context, ?_, by rw [contexts, Function.update_self], kept⟩
    have own : row.key = logKey result.source.text := key
    rw [Store.active] at idle
    rw [Store.active, rows, List.find?_append, idle]
    simp [own, ongoing]

theorem noted_update {incident : IncidentRow} {message : String} {context : LogContext}
    (active : memory.store.active (logKey result.source.text) = some incident)
    (kept : context.split.known.Perm (result.readBack env 0)) :
    (∀ source, source ≠ result.source.text → Spares (logKey source) memory
      (memory.updateIncident env now jobId incident context message)) ∧
      Stored env (memory.updateIncident env now jobId incident context message)
        result.source.text result 0 := by
  obtain ⟨_, key, ongoing⟩ := active_eq_some active
  constructor
  · intro source other
    have different : logKey result.source.text ≠ logKey source := fun equal =>
      other (logKey_injective equal).symm
    refine spares_modify (IncidentRow.logUpdated now jobId message) (fun _ => rfl) different active
      rfl ?_ fun id other => Function.update_of_ne other _ _
    exact fun moved => different (key.symm.trans moved)
  · have steady : Table.Rewrites (IncidentRow.Steady (logKey result.source.text))
        memory.store.incidents
        (memory.updateIncident env now jobId incident context message).store.incidents :=
      steady_modify (IncidentRow.logUpdated now jobId message) (fun _ => rfl) (fun _ => rfl)
        (fun _ => rfl) incident.incidentId memory.store.incidents
    obtain ⟨next, found, same⟩ := active_of_rewrites steady active
    refine ⟨rfl, next, context, found, ?_, kept⟩
    rw [same]
    exact Function.update_self _ _ _

theorem spares_resolve {source other jobId : Text} {accepted truncated : Bool} {document : Value}
    (different : other ≠ source) :
    Spares (logKey other) memory
      (memory.resolve env now source jobId accepted truncated document) := by
  cases active : memory.store.active (logKey source) with
  | none =>
      have same : memory.resolve env now source jobId accepted truncated document = memory := by
        simp only [LogHealth.resolve, Store.resolveLogIncident, active]
      rw [same]
      exact .refl _ memory
  | some incident =>
      obtain ⟨_, key, _⟩ := active_eq_some active
      have apart : logKey source ≠ logKey other := fun equal =>
        different (logKey_injective equal).symm
      refine spares_modify (IncidentRow.logResolved now jobId (resolvedLogResult accepted truncated))
        (fun _ => rfl) apart active ?_ (fun moved => apart (key.symm.trans moved)) fun _ _ => rfl
      simp only [LogHealth.resolve, Store.resolveLogIncident, active]
      rfl

theorem noted_reviewNew
    (done : memory.reviewNew env now jobId window (result.redacted env.unicode) =
      .ok (review, after)) :
    (∀ source, source ≠ result.source.text → Spares (logKey source) memory after) ∧
      Noted env result review memory after := by
  have kept := @context_perm env result window memory
  unfold LogHealth.reviewNew at done
  dsimp only at done
  split at done
  · split at done
    · cases done
      exact ⟨fun source _ => .refl _ memory, .refl _ memory⟩
    · cases done
      exact ⟨fun source other => spares_resolve other, trivial⟩
  · split at done
    · rename_i idle
      exact noted_open idle kept done
    · rename_i incident active
      cases done
      exact noted_update active kept

theorem noted_reviewNamed
    (done : memory.reviewNamed env now jobId window (result.redacted env.unicode) =
      .ok (review, after)) :
    (∀ source, source ≠ result.source.text → Spares (logKey source) memory after) ∧
      Noted env result review memory after := by
  unfold LogHealth.reviewNamed at done
  split at done
  · cases done
    exact ⟨fun source _ => .refl _ memory, .refl _ memory⟩
  · split at done
    · cases done
      exact ⟨fun source _ => .refl _ memory, .refl _ memory⟩
    · exact noted_reviewNew done

/-- The renaming spares every incident under its key of today. -/
theorem spares_renameLegacy (named : LogSourceId) (source : Text) (memory : LogHealth) :
    Spares (logKey source) memory (memory.renameLegacy named) := by
  rcases renameLegacy_cases named memory with ⟨same, _⟩ | ⟨legacy, isInfra, idle, active, moves⟩
  · rw [same]
    exact .refl _ memory
  · by_cases equal : source = named.text
    · intro incident found
      rw [equal, idle] at found
      cases found
    · rw [moves]
      refine spares_modify (IncidentRow.moved (logKey named.text))
        (IncidentRow.incidentId_moved (logKey named.text)) (logKey_ne_legacy source).symm active rfl
        (fun moved => equal (logKey_injective moved).symm) fun _ _ => rfl

/-- One review: the other sources are spared, and the reviewed one is noted. -/
theorem noted_review
    (done : memory.review env now jobId window (result.redacted env.unicode) =
      .ok (review, after)) :
    (∀ source, source ≠ result.source.text → Spares (logKey source) memory after) ∧
      Noted env result review memory after := by
  obtain ⟨others, noted⟩ := noted_reviewNamed done
  have renamed := spares_renameLegacy (result.redacted env.unicode).source
  refine ⟨fun source other => (renamed source memory).trans (others source other), ?_⟩
  cases review with
  | repeated affected => exact (renamed _ memory).trans noted
  | calm => exact (renamed _ memory).trans noted
  | resolved => exact trivial
  | opened incidentId => exact noted
  | updated incidentId => exact noted

end Reviewing

/-! ## Runs -/

/-- What the user accepts. -/
inductive Acceptance where
  | signature (signature : Text)
  | component (component label : Text)

/-- `accept_log_signature` and `accept_log_component`. -/
def LogHealth.accept (env : LogEnvironment) (now : Int) (source : Text) (acceptance : Acceptance)
    (memory : LogHealth) : LogHealth :=
  match acceptance with
  | .signature signature => memory.acceptLogSignature env now source signature
  | .component component label => memory.acceptLogComponent env now source component label

/-- One operation on the log incidents. -/
inductive LogAction where
  | call (call : LogCall)
  | accept (source : Text) (acceptance : Acceptance)
  | revokeSignature (source signature : Text)
  | revokeComponent (source component : Text)

/-- An incident is active. -/
def LogHealth.ongoing (incidentId : Text) (memory : LogHealth) : Bool :=
  (memory.store.incidents.find? incidentId).any fun row => row.endedAt.isNone

/-- For each source the result its active incident was last recorded from, and
how often the incident was sorted again since. -/
abbrev LastResults := Text → Option (LogSourceHealth × Nat)

/-- The memory next to the last recorded results. -/
structure LogLedger where
  memory : LogHealth
  last : LastResults

namespace LogLedger

variable (env : LogEnvironment) (now : Int)

/-- A review records a result, or ends the incident. -/
def noteReview (result : LogSourceHealth) (review : Review) (last : LastResults) : LastResults :=
  match review with
  | .opened _ | .updated _ => Function.update last result.source.text (some (result, 0))
  | .resolved => Function.update last result.source.text none
  | .calm | .repeated _ => last

/-- The results that the loop of a review records. -/
def noteSources (jobId : JobId) (window : LogWindow) :
    List LogSourceHealth → LogHealth → LastResults → LastResults
  | [], _, last => last
  | result :: rest, memory, last =>
      match memory.review env now jobId window (result.redacted env.unicode) with
      | .ok (review, next) => noteSources jobId window rest next (noteReview result review last)
      | .error _ => last

/-- An acceptance sorts the active incident again, or ends it. -/
def noteAcceptance (source : Text) (before after : LogHealth) (last : LastResults) : LastResults :=
  match before.store.active (logKey source) with
  | none => last
  | some incident =>
      Function.update last source
        (if after.ongoing incident.incidentId then
          (last source).map fun (result, reads) => (result, reads + 1)
        else none)

/-- The results recorded by a review that is not rolled back. -/
def noteRecord (jobId : JobId) (result : LogsHealthCheckResult) (ledger : LogLedger) :
    LastResults :=
  match (ledger.memory.recordLogHealth env now jobId result).1 with
  | .ok _ =>
      noteSources env now jobId (result.window.redacted env.unicode) result.sources ledger.memory
        ledger.last
  | .error _ => ledger.last

/-- One operation at a reading of the clock. -/
def act (ledger : LogLedger) (timed : Int × LogAction) : LogLedger :=
  match timed.2 with
  | .call (.record jobId result) =>
      { memory := (ledger.memory.recordLogHealth env timed.1 jobId result).2
        last := ledger.noteRecord env timed.1 jobId result }
  | .call (.attach jobId incidentId result) =>
      { ledger with memory := ledger.memory.attachLogHealth env timed.1 jobId incidentId result }
  | .accept source acceptance =>
      let after := ledger.memory.accept env timed.1 source acceptance
      { memory := after, last := noteAcceptance source ledger.memory after ledger.last }
  | .revokeSignature source signature =>
      { ledger with memory := ledger.memory.revokeLogSignature source signature }
  | .revokeComponent source component =>
      { ledger with memory := ledger.memory.revokeLogComponent source component }

/-- A ledger on a new database. -/
def start : LogLedger := ⟨LogHealth.empty, fun _ => none⟩

end LogLedger

/-- The log incidents are tracked, and keep the results last recorded. -/
structure LogLedger.Consistent (env : LogEnvironment) (ledger : LogLedger) : Prop where
  tracked : Tracked ledger.memory
  stored : ∀ source result reads, ledger.last source = some (result, reads) →
    Stored env ledger.memory source result reads

/-! ### Reviews keep a ledger consistent -/

/-- A source and its review: what is noted is stored. -/
theorem stored_noteReview {result : LogSourceHealth} {window : LogWindow} {review : Review}
    {last : LastResults}
    (stored : ∀ source found reads, last source = some (found, reads) →
      Stored env before source found reads)
    (done : before.review env now jobId window (result.redacted env.unicode) = .ok (review, after))
    {source : Text} {found : LogSourceHealth} {reads : Nat}
    (noted : LogLedger.noteReview result review last source = some (found, reads)) :
    Stored env after source found reads := by
  obtain ⟨others, own⟩ := noted_review done
  by_cases same : source = result.source.text
  · subst same
    cases review with
    | repeated affected => exact (stored _ found reads noted).spared own
    | calm => exact (stored _ found reads noted).spared own
    | resolved => simp [LogLedger.noteReview] at noted
    | opened incidentId =>
        simp only [LogLedger.noteReview, Function.update_self, Option.some.injEq,
          Prod.mk.injEq] at noted
        obtain ⟨rfl, rfl⟩ := noted
        exact own
    | updated incidentId =>
        simp only [LogLedger.noteReview, Function.update_self, Option.some.injEq,
          Prod.mk.injEq] at noted
        obtain ⟨rfl, rfl⟩ := noted
        exact own
  · have unnoted : LogLedger.noteReview result review last source = last source := by
      cases review <;> simp [LogLedger.noteReview, same]
    rw [unnoted] at noted
    exact (stored source found reads noted).spared (others source same)

theorem stored_noteSources {window : LogWindow} {results : List LogSourceHealth}
    {affected : List Text} {last : LastResults}
    (stored : ∀ source found reads, last source = some (found, reads) →
      Stored env before source found reads)
    (done : LogHealth.reviewSources env now jobId window
      (results.map (LogSourceHealth.redacted env.unicode)) before = .ok (affected, after))
    (source : Text) (found : LogSourceHealth) (reads : Nat)
    (noted : LogLedger.noteSources env now jobId window results before last source =
      some (found, reads)) : Stored env after source found reads := by
  induction results generalizing before last affected with
  | nil =>
      cases done
      exact stored source found reads noted
  | cons result results ih =>
      simp only [List.map_cons, LogHealth.reviewSources, bind_eq_ok, pure_eq_ok, Prod.exists,
        Prod.mk.injEq] at done
      obtain ⟨review, next, first, rest, final, others, _, rfl⟩ := done
      simp only [LogLedger.noteSources, first] at noted
      refine ih ?_ others noted
      intro other otherFound otherReads otherNoted
      exact stored_noteReview stored first otherNoted

theorem consistent_record {ledger : LogLedger} (consistent : ledger.Consistent env)
    (result : LogsHealthCheckResult) :
    (ledger.act env (now, .call (.record jobId result))).Consistent env := by
  constructor
  · exact (call_spec (now, .record jobId result) ledger.memory consistent.tracked).2
  · show ∀ source found reads, ledger.noteRecord env now jobId result source = some (found, reads) →
      Stored env (ledger.memory.recordLogHealth env now jobId result).2 source found reads
    unfold LogLedger.noteRecord
    rw [LogHealth.recordLogHealth]
    rcases commit_cases (LogHealth.reviewSources env now jobId
      (result.redacted env.unicode).window (result.redacted env.unicode).sources) ledger.memory with
      ⟨affected, after, ran, equal⟩ | ⟨failure, _, equal⟩
    · rw [equal]
      exact stored_noteSources consistent.stored ran
    · rw [equal]
      exact consistent.stored

theorem consistent_attach {ledger : LogLedger} (consistent : ledger.Consistent env)
    (incidentId : Text) (result : LogsHealthCheckResult) :
    (ledger.act env (now, .call (.attach jobId incidentId result))).Consistent env := by
  obtain ⟨store, aside, attached⟩ := @attach_aside env now jobId incidentId result ledger.memory
  constructor
  · exact (call_spec (now, .attach jobId incidentId result) ledger.memory consistent.tracked).2
  · intro source found reads noted
    show Stored env (ledger.memory.attachLogHealth env now jobId incidentId result) source found reads
    rw [attached]
    exact (consistent.stored source found reads noted).spared (aside.spares (logKey source))

/-! ### Acceptances keep a ledger consistent -/

/-- The memory with what another one accepts. -/
def LogHealth.accepting (memory other : LogHealth) : LogHealth :=
  { memory with signatures := other.signatures, components := other.components }

theorem noise_sortAgain (source : Text) (summary : String) (payload : Value) (memory : LogHealth) :
    (memory.sortAgain env now source summary payload).signatures = memory.signatures ∧
      (memory.sortAgain env now source summary payload).components = memory.components := by
  unfold LogHealth.sortAgain
  split
  · exact ⟨rfl, rfl⟩
  · dsimp only
    split <;> exact ⟨rfl, rfl⟩

theorem accepting_sortAgain {noise : LogHealth} (store : noise.store = memory.store)
    (contexts : noise.contexts = memory.contexts) (source : Text) (summary : String)
    (payload : Value) :
    memory.accepting (noise.sortAgain env now source summary payload) = noise := by
  obtain ⟨signatures, components⟩ := @noise_sortAgain env now source summary payload noise
  rw [LogHealth.accepting, signatures, components, ← store, ← contexts]

/-- An acceptance sorts the incident again with what is accepted then. -/
theorem accept_eq_sortAgain (source : Text) (acceptance : Acceptance) (memory : LogHealth) :
    ∃ summary payload, memory.accept env now source acceptance =
      (memory.accepting (memory.accept env now source acceptance)).sortAgain env now source summary
        payload := by
  cases acceptance with
  | signature signature =>
      exact ⟨_, _, (congrArg (LogHealth.sortAgain env now source _ _)
        (accepting_sortAgain rfl rfl source _ _)).symm⟩
  | component component label =>
      exact ⟨_, _, (congrArg (LogHealth.sortAgain env now source _ _)
        (accepting_sortAgain rfl rfl source _ _)).symm⟩

section Sorting

variable {source : Text} {summary : String} {payload : Value} {incident : IncidentRow}
  {context : LogContext}

/-- What the incident of a source keeps, sorted again. -/
def LogHealth.sortedAgain (env : LogEnvironment) (source : Text) (context : LogContext)
    (memory : LogHealth) : LogSplit :=
  memory.sort source (context.split.known.map (readAgain env))

/-- Without a significant finding the incident is resolved. -/
theorem sortAgain_resolves (active : memory.store.active (logKey source) = some incident)
    (found : memory.contexts incident.incidentId = some context)
    (routine : (memory.sortedAgain env source context).findings = []) :
    ∃ accepted truncated document, memory.sortAgain env now source summary payload =
      memory.resolve env now source incident.lastObservationId accepted truncated document := by
  unfold LogHealth.sortAgain
  simp only [active, LogHealth.contextOf, found, Option.map_some, splitLogFindings_eq_sort,
    annotate_knownFindings]
  rw [LogHealth.sortedAgain] at routine
  simp only [routine, List.isEmpty_nil, if_true]
  exact ⟨_, _, _, rfl⟩

/-- With one, it keeps what was sorted. -/
theorem sortAgain_updates (active : memory.store.active (logKey source) = some incident)
    (found : memory.contexts incident.incidentId = some context)
    (significant : (memory.sortedAgain env source context).findings ≠ []) :
    ∃ message kept, kept.split = memory.sortedAgain env source context ∧
      (memory.sortAgain env now source summary payload).contexts =
        Function.update memory.contexts incident.incidentId (some kept) ∧
      (memory.sortAgain env now source summary payload).store.incidents =
        memory.store.incidents.modify incident.incidentId (IncidentRow.restated message)
          (IncidentRow.incidentId_restated message) ∧
      ∃ event, (memory.sortAgain env now source summary payload).store.events =
        memory.store.events ++ [event] := by
  unfold LogHealth.sortAgain
  simp only [active, LogHealth.contextOf, found, Option.map_some, splitLogFindings_eq_sort,
    annotate_knownFindings]
  rw [LogHealth.sortedAgain] at significant
  simp only [List.isEmpty_iff, significant, if_false]
  exact ⟨_, _, rfl, rfl, rfl, _, rfl⟩

/-- Sorting again spares the incidents of the other sources. -/
theorem spares_sortAgain {other : Text} (different : other ≠ source) :
    Spares (logKey other) memory (memory.sortAgain env now source summary payload) := by
  unfold LogHealth.sortAgain
  split
  · exact .refl _ memory
  · rename_i current active
    dsimp only
    split
    · exact spares_resolve different
    · have apart : logKey source ≠ logKey other := fun equal =>
        different (logKey_injective equal).symm
      obtain ⟨_, key, _⟩ := active_eq_some active
      refine spares_modify (IncidentRow.restated _) (IncidentRow.incidentId_restated _) apart active
        rfl (fun moved => apart (key.symm.trans moved)) fun id other => ?_
      exact Function.update_of_ne other _ _

theorem tracked_resolve {jobId : Text} {accepted truncated : Bool} {document : Value}
    (tracked : Tracked memory) :
    Tracked (memory.resolve env now source jobId accepted truncated document) := by
  rw [LogHealth.resolve, Store.resolveLogIncident]
  split
  · exact tracked
  · refine tracked_modify (IncidentRow.logResolved now jobId (resolvedLogResult accepted truncated))
      (fun _ => rfl) tracked rfl ⟨_, rfl⟩ (fun _ => rfl) (fun _ => rfl) ?_
    intro row open_
    cases open_

theorem tracked_sortAgain (tracked : Tracked memory) :
    Tracked (memory.sortAgain env now source summary payload) := by
  unfold LogHealth.sortAgain
  split
  · exact tracked
  · dsimp only
    split
    · exact tracked_resolve tracked
    · exact tracked_modify (IncidentRow.restated _) (IncidentRow.incidentId_restated _) tracked rfl
        ⟨_, rfl⟩ (fun _ => rfl) (fun _ => rfl) fun _ open_ => ⟨open_, rfl⟩

/-- The end of an incident after a write to it. -/
theorem ongoing_modify (write : IncidentRow → IncidentRow)
    (keeps : ∀ row, (write row).incidentId = row.incidentId)
    (active : before.store.active (logKey source) = some incident)
    (incidents : after.store.incidents =
      before.store.incidents.modify incident.incidentId write keeps) :
    after.ongoing incident.incidentId = (write incident).endedAt.isNone := by
  have found : before.store.incidents.find? incident.incidentId = some incident :=
    Table.find?_eq_some_iff.mpr ⟨(active_eq_some active).1, rfl⟩
  rw [LogHealth.ongoing, incidents, Table.find?_modify_self, found]
  rfl

theorem ongoing_resolve {jobId : Text} {accepted truncated : Bool} {document : Value}
    (active : memory.store.active (logKey source) = some incident) :
    (memory.resolve env now source jobId accepted truncated document).ongoing
      incident.incidentId = false := by
  refine ongoing_modify (IncidentRow.logResolved now jobId (resolvedLogResult accepted truncated))
    (fun _ => rfl) active ?_
  simp only [LogHealth.resolve, Store.resolveLogIncident, active]
  rfl

/-- An incident that is sorted again stays active with what was sorted, or ends. -/
theorem sortAgain_spec (active : memory.store.active (logKey source) = some incident)
    (found : memory.contexts incident.incidentId = some context) :
    let after := memory.sortAgain env now source summary payload
    ((memory.sortedAgain env source context).findings = [] ∧
      after.ongoing incident.incidentId = false) ∨
    ((memory.sortedAgain env source context).findings ≠ [] ∧
      after.ongoing incident.incidentId = true ∧
      (∃ next, after.store.active (logKey source) = some next ∧
        next.incidentId = incident.incidentId) ∧
      ∃ kept, after.contexts incident.incidentId = some kept ∧
        kept.split = memory.sortedAgain env source context) := by
  intro after
  by_cases routine : (memory.sortedAgain env source context).findings = []
  · obtain ⟨accepted, truncated, document, resolves⟩ := @sortAgain_resolves env now memory source
      summary payload incident context active found routine
    refine Or.inl ⟨routine, ?_⟩
    show (memory.sortAgain env now source summary payload).ongoing incident.incidentId = false
    rw [resolves]
    exact ongoing_resolve active
  · obtain ⟨message, kept, split, contexts, incidents, _⟩ := @sortAgain_updates env now memory source
      summary payload incident context active found routine
    have ongoing := (active_eq_some active).2.2
    refine Or.inr ⟨routine, ?_, ?_, kept, ?_, split⟩
    · rw [ongoing_modify (IncidentRow.restated message) _ active incidents, IncidentRow.restated,
        ongoing]
      rfl
    · refine active_of_rewrites ?_ active
      rw [incidents]
      exact steady_modify (IncidentRow.restated message) _ (fun _ => rfl) (fun _ => rfl) _ _
    · show (memory.sortAgain env now source summary payload).contexts _ = _
      rw [contexts, Function.update_self]

/-- What is sorted again was read back once more. -/
theorem sortedAgain_perm {result : LogSourceHealth} {reads : Nat}
    (kept : context.split.known.Perm (result.readBack env reads)) :
    (context.split.known.map (readAgain env)).Perm (result.readBack env (reads + 1)) := by
  rw [readBack_succ]
  exact kept.map _

/-- An acceptance notes what the incident keeps. -/
theorem stored_noteAcceptance {last : LastResults}
    (stored : ∀ asked found reads, last asked = some (found, reads) →
      Stored env memory asked found reads) (asked : Text) (found : LogSourceHealth) (reads : Nat)
    (noted : LogLedger.noteAcceptance source memory
      (memory.sortAgain env now source summary payload) last asked = some (found, reads)) :
    Stored env (memory.sortAgain env now source summary payload) asked found reads := by
  unfold LogLedger.noteAcceptance at noted
  by_cases same : asked = source
  · subst same
    cases active : memory.store.active (logKey asked) with
    | none =>
        simp only [active] at noted
        obtain ⟨incident, context, found, _⟩ := (stored asked found reads noted).kept
        rw [active] at found
        cases found
    | some incident =>
        simp only [active, Function.update_self] at noted
        split at noted
        · rename_i ongoing
          obtain ⟨⟨result, before⟩, known, equal⟩ := Option.map_eq_some_iff.mp noted
          obtain ⟨rfl, rfl⟩ := Prod.mk.inj equal
          obtain ⟨named, current, context, isCurrent, kept, perm⟩ := stored asked result before known
          rw [active] at isCurrent
          cases isCurrent
          rcases @sortAgain_spec env now memory asked summary payload incident context active kept with
            ⟨_, ended⟩ | ⟨_, _, ⟨next, nextActive, sameId⟩, again, stores, split⟩
          · rw [ended] at ongoing
            cases ongoing
          · refine ⟨named, next, again, nextActive, sameId ▸ stores, ?_⟩
            rw [split]
            exact (known_sort_perm asked _).trans (sortedAgain_perm perm)
        · cases noted
  · have unnoted : last asked = some (found, reads) := by
      cases active : memory.store.active (logKey source) with
      | none => simpa only [active] using noted
      | some incident => simpa only [active, Function.update_of_ne same] using noted
    exact (stored asked found reads unnoted).spared (spares_sortAgain same)

end Sorting

theorem consistent_accept {ledger : LogLedger} (consistent : ledger.Consistent env)
    (source : Text) (acceptance : Acceptance) :
    (ledger.act env (now, .accept source acceptance)).Consistent env := by
  obtain ⟨summary, payload, accepted⟩ := @accept_eq_sortAgain env now source acceptance ledger.memory
  have tracked : Tracked (ledger.memory.accepting
      (ledger.memory.accept env now source acceptance)) :=
    ⟨consistent.tracked.equipment, consistent.tracked.evidence⟩
  have stored : ∀ asked found reads, ledger.last asked = some (found, reads) →
      Stored env (ledger.memory.accepting (ledger.memory.accept env now source acceptance)) asked
        found reads := fun asked found reads known =>
    (consistent.stored asked found reads known).spared fun incident active =>
      ⟨incident, active, rfl, rfl⟩
  constructor
  · show Tracked (ledger.memory.accept env now source acceptance)
    rw [accepted]
    exact tracked_sortAgain tracked
  · intro asked found reads noted
    show Stored env (ledger.memory.accept env now source acceptance) asked found reads
    have unfolded : LogLedger.noteAcceptance source
        (ledger.memory.accepting (ledger.memory.accept env now source acceptance))
        (ledger.memory.accept env now source acceptance) ledger.last asked = some (found, reads) :=
      noted
    rw [accepted]
    refine stored_noteAcceptance stored asked found reads ?_
    rw [← accepted]
    exact unfolded

/-- Every operation keeps a ledger consistent. -/
theorem consistent_act {ledger : LogLedger} (consistent : ledger.Consistent env)
    (timed : Int × LogAction) : (ledger.act env timed).Consistent env := by
  obtain ⟨now, action⟩ := timed
  have unchanged : ∀ memory : LogHealth, memory.store = ledger.memory.store →
      memory.contexts = ledger.memory.contexts → LogLedger.Consistent env ⟨memory, ledger.last⟩ := by
    rintro ⟨store, contexts, signatures, components⟩ rfl rfl
    refine ⟨⟨consistent.tracked.equipment, consistent.tracked.evidence⟩, ?_⟩
    intro asked found reads known
    exact (consistent.stored asked found reads known).spared fun incident active =>
      ⟨incident, active, rfl, rfl⟩
  cases action with
  | call call =>
      cases call with
      | record jobId result => exact consistent_record consistent result
      | attach jobId incidentId result => exact consistent_attach consistent incidentId result
  | accept source acceptance => exact consistent_accept consistent source acceptance
  | revokeSignature source signature => exact unchanged _ rfl rfl
  | revokeComponent source component => exact unchanged _ rfl rfl

/-- Every run of the log operations keeps its ledger consistent. -/
theorem consistent_run (actions : List (Int × LogAction)) :
    (reached (LogLedger.act env) LogLedger.start actions).Consistent env :=
  trace_induction (I := fun _ ledger => LogLedger.Consistent env ledger)
    ⟨tracked_empty, fun _ _ _ absent => by cases absent⟩
    (fun _ timed consistent => consistent_act consistent timed) actions

/-! ## Accepting and reviewing again -/

/-- An incident after an acceptance and after a review: active in both or in
neither, and with the same findings up to order. -/
structure Agree (incidentId : Text) (accepted reviewed : LogHealth) : Prop where
  active : accepted.ongoing incidentId = reviewed.ongoing incidentId
  findings : accepted.ongoing incidentId = true →
    ∃ one two, accepted.contexts incidentId = some one ∧
      reviewed.contexts incidentId = some two ∧ one.split.Matches two.split

/-- What an incident kept reads as it was found, or has nothing significant to
either. -/
def LogHealth.Faithful (env : LogEnvironment) (source : Text) (result : LogSourceHealth)
    (reads : Nat) (memory : LogHealth) : Prop :=
  (result.readBack env reads).Perm (result.reviewed env) ∨
    (memory.Routine source (result.readBack env reads) ∧
      memory.Routine source (result.reviewed env))

section Again

variable {incident : IncidentRow} {result : LogSourceHealth} {window : LogWindow}

/-- A new job reviews a source with an active incident. -/
theorem review_eq_reviewNew (tracked : Tracked memory)
    (active : memory.store.active (logKey result.source.text) = some incident)
    (fresh : ¬ memory.Recorded result.source jobId) :
    memory.review env now jobId window (result.redacted env.unicode) =
      memory.reviewNew env now jobId window (result.redacted env.unicode) := by
  have renamed : memory.renameLegacy result.source = memory := by
    rcases renameLegacy_cases result.source memory with ⟨same, _⟩ | ⟨_, _, idle, _⟩
    · exact same
    · rw [idle] at active
      cases active
  show (memory.renameLegacy result.source).reviewNamed env now jobId window _ = _
  rw [renamed]
  exact reviewNamed_eq_reviewNew tracked fresh

/-- It ends the incident or keeps what it found. -/
theorem reviewNew_again
    (active : memory.store.active (logKey result.source.text) = some incident) :
    ∃ review after, memory.reviewNew env now jobId window (result.redacted env.unicode) =
        .ok (review, after) ∧
      (((memory.sort result.source.text (result.reviewed env)).findings = [] ∧
          result.collectionFailed = false ∧ after.ongoing incident.incidentId = false) ∨
        (((memory.sort result.source.text (result.reviewed env)).findings ≠ [] ∨
            result.collectionFailed = true) ∧ after.ongoing incident.incidentId = true ∧
          ∃ kept, after.contexts incident.incidentId = some kept ∧
            kept.split = memory.sort result.source.text (result.reviewed env))) := by
  have failed : (result.redacted env.unicode).collectionFailed = result.collectionFailed := by
    simp only [LogSourceHealth.collectionFailed, LogSourceHealth.redacted, List.isEmpty_map]
    rfl
  have updates (message : String) (context : LogContext) :
      (memory.updateIncident env now jobId incident context message).ongoing
        incident.incidentId = true := by
    rw [ongoing_modify (IncidentRow.logUpdated now jobId message) (fun _ => rfl) active rfl,
      IncidentRow.logUpdated, (active_eq_some active).2.2]
    rfl
  unfold LogHealth.reviewNew
  dsimp only
  rw [failed]
  split
  · rename_i quiet
    simp only [Bool.and_eq_true, List.isEmpty_iff, Bool.not_eq_true'] at quiet
    have idle : memory.store.active (logKey (result.redacted env.unicode).source.text) =
        some incident := active
    rw [idle]
    exact ⟨_, _, rfl, Or.inl ⟨quiet.1, quiet.2, ongoing_resolve active⟩⟩
  · rename_i busy
    have idle : memory.store.active (logKey (result.redacted env.unicode).source.text) =
        some incident := active
    rw [idle]
    refine ⟨_, _, rfl, Or.inr ⟨?_, updates _ _, _, Function.update_self _ _ _, rfl⟩⟩
    simp only [Bool.and_eq_true, List.isEmpty_iff, Bool.not_eq_true', not_and,
      Bool.not_eq_false] at busy
    by_cases quiet : (memory.sort result.source.text (result.reviewed env)).findings = []
    · exact Or.inr (busy quiet)
    · exact Or.inl quiet

/-- The record of one source is its review. -/
theorem recordLogHealth_single {review : LogsHealthCheckResult} {outcome : Review}
    (sources : review.sources = [result])
    (done : memory.review env now jobId (review.window.redacted env.unicode)
      (result.redacted env.unicode) = .ok (outcome, after)) :
    (memory.recordLogHealth env now jobId review).2 = after := by
  have single : (review.redacted env.unicode).sources = [result.redacted env.unicode] := by
    rw [LogsHealthCheckResult.redacted, sources]
    rfl
  have reviewed : LogHealth.reviewSources env now jobId (review.redacted env.unicode).window
      (review.redacted env.unicode).sources memory = .ok (outcome.affected.toList ++ [], after) := by
    rw [single]
    simp only [LogHealth.reviewSources, bind_eq_ok, pure_eq_ok]
    exact ⟨(outcome, after), done, ([], after), rfl, rfl⟩
  rw [LogHealth.recordLogHealth, commit_of_ok reviewed]

/-- A failed collection found nothing. -/
theorem reviewed_of_collectionFailed (failed : result.collectionFailed = true) :
    result.reviewed env = [] := by
  simp only [LogSourceHealth.collectionFailed, Bool.and_eq_true, List.isEmpty_iff] at failed
  simp [LogSourceHealth.reviewed, LogSourceHealth.redacted, failed.2]

/-- What was kept and what is reviewed are significant alike when the one reads
as the other. -/
theorem faithful_iff {source : Text} {reads : Nat} {kept : List ReviewedFinding}
    (perm : kept.Perm (result.readBack env reads)) :
    memory.Faithful env source result reads ↔ kept.Perm (result.reviewed env) ∨
      ((memory.sort source kept).findings = [] ∧
        (memory.sort source (result.reviewed env)).findings = []) := by
  rw [LogHealth.Faithful, findings_sort_eq_nil_iff, findings_sort_eq_nil_iff, Routine.perm perm]
  exact or_congr ⟨perm.trans, perm.symm.trans⟩ Iff.rfl

end Again

/-- After any run of the log operations the user accepts something for a source
with an active incident.  The incident becomes what a review of the last
recorded result with the new acceptances makes of it exactly when the collection
had not failed and what was kept still reads as it was found, or has nothing
significant to either. -/
theorem accept_agrees_iff (actions : List (Int × LogAction)) {source : Text}
    {result : LogSourceHealth} {reads : Nat}
    (last : (reached (LogLedger.act env) LogLedger.start actions).last source =
      some (result, reads)) {incident : IncidentRow}
    (active : (reached (LogLedger.act env) LogLedger.start actions).memory.store.active
      (logKey source) = some incident)
    (fresh : ¬ (reached (LogLedger.act env) LogLedger.start actions).memory.Recorded result.source
      jobId) {review : LogsHealthCheckResult} (sources : review.sources = [result])
    (acceptance : Acceptance) (now again : Int) :
    let memory := (reached (LogLedger.act env) LogLedger.start actions).memory
    let accepted := memory.accept env now source acceptance
    Agree incident.incidentId accepted
        ((memory.accepting accepted).recordLogHealth env again jobId review).2 ↔
      result.collectionFailed = false ∧ accepted.Faithful env source result (reads + 1) := by
  intro memory accepted
  have consistent : LogLedger.Consistent env (reached (LogLedger.act env) LogLedger.start actions) :=
    consistent_run actions
  obtain ⟨rfl, current, context, isCurrent, found, kept⟩ :=
    consistent.stored source result reads last
  rw [active] at isCurrent
  cases isCurrent
  obtain ⟨summary, payload, sorts⟩ :=
    @accept_eq_sortAgain env now result.source.text acceptance memory
  have tracked : Tracked (memory.accepting accepted) :=
    ⟨consistent.tracked.equipment, consistent.tracked.evidence⟩
  obtain ⟨outcome, after, reviews, reviewed⟩ :=
    @reviewNew_again env again jobId (memory.accepting accepted) incident result
      (review.window.redacted env.unicode) active
  have recorded : ((memory.accepting accepted).recordLogHealth env again jobId review).2 = after :=
    recordLogHealth_single sources ((review_eq_reviewNew tracked active fresh).trans reviews)
  have sorted := @sortAgain_spec env now (memory.accepting accepted) result.source.text summary
    payload incident context active found
  have perm := @sortedAgain_perm env context result reads kept
  have faithful : accepted.Faithful env result.source.text result (reads + 1) ↔ _ :=
    @faithful_iff env (memory.accepting accepted) result result.source.text (reads + 1) _ perm
  rw [recorded, faithful]
  have same : (memory.accepting accepted).sortAgain env now result.source.text summary payload =
      accepted := sorts.symm
  simp only [same, LogHealth.sortedAgain] at sorted
  rcases reviewed with ⟨calm, collected, ended⟩ | ⟨busy, stays, one, oneKept, oneSplit⟩
  · rcases sorted with ⟨routine, cleared⟩ | ⟨significant, ongoing, _⟩
    · -- both end the incident
      refine iff_of_true ⟨cleared.trans ended.symm, ?_⟩ ⟨collected, Or.inr ⟨routine, calm⟩⟩
      intro ongoing
      rw [cleared] at ongoing
      cases ongoing
    · -- only the review ends it
      refine iff_of_false ?_ ?_
      · intro agree
        rw [agree.active, ended] at ongoing
        cases ongoing
      · rintro ⟨_, equal | ⟨routine, _⟩⟩
        · exact significant (((sort_matches_iff _ _ _).mpr equal).findings_eq_nil_iff.mpr calm)
        · exact significant routine
  · rcases sorted with ⟨routine, cleared⟩ | ⟨significant, ongoing, _, two, twoKept, twoSplit⟩
    · -- only the acceptance ends it
      refine iff_of_false ?_ ?_
      · intro agree
        rw [← agree.active, cleared] at stays
        cases stays
      · rintro ⟨collected, found⟩
        have significant := busy.resolve_right (by simp [collected])
        rcases found with equal | ⟨_, calm⟩
        · exact significant (((sort_matches_iff _ _ _).mpr equal).findings_eq_nil_iff.mp routine)
        · exact significant calm
    · -- both keep it
      have collected : result.collectionFailed = false := by
        by_contra failed
        have nothing := @reviewed_of_collectionFailed env result (Bool.not_eq_false _ ▸ failed)
        rw [LogSourceHealth.readBack, nothing, List.map_nil, List.perm_nil] at perm
        rw [perm] at significant
        exact significant rfl
      constructor
      · intro agree
        obtain ⟨first, second, firstKept, secondKept, matched⟩ := agree.findings ongoing
        rw [twoKept] at firstKept
        rw [oneKept] at secondKept
        cases firstKept
        cases secondKept
        rw [twoSplit, oneSplit] at matched
        exact ⟨collected, Or.inl ((sort_matches_iff _ _ _).mp matched)⟩
      · rintro ⟨_, equal | ⟨routine, _⟩⟩
        · refine ⟨ongoing.trans stays.symm, fun _ => ⟨two, one, twoKept, oneKept, ?_⟩⟩
          rw [twoSplit, oneSplit]
          exact (sort_matches_iff _ _ _).mpr equal
        · exact absurd routine significant

/-! ## A failed collection -/

/-- A review of `ha-01` that failed without a finding. -/
def failedCollection : List (Int × LogAction) :=
  [(summerMorning, .call (.record firstJob (haReview .ko [])))]

/-- Accepting anything ends the incident, which the same review would keep. -/
theorem failedCollection_ended :
    let memory := (reached (LogLedger.act logEnvironment) LogLedger.start failedCollection).memory
    let accepted := memory.accept logEnvironment (summerMorning + minute) LogSourceId.ha01.text
      (.signature ['x'])
    ¬ Agree (summerEnvironment.uuid 0) accepted
      ((memory.accepting accepted).recordLogHealth logEnvironment (summerMorning + 2 * minute)
        secondJob (haReview .ko [])).2 := by
  intro memory accepted agree
  exact absurd agree.active (by decide +kernel)

/-- A review of `ha-01` that found an error. -/
def foundTimeout : List (Int × LogAction) :=
  [(summerMorning, .call (.record firstJob (haReview .ko [tapoTimeout])))]

/-- Accepting a routine signature agrees with reviewing the error again. -/
theorem foundTimeout_agrees_iff :
    let memory := (reached (LogLedger.act logEnvironment) LogLedger.start foundTimeout).memory
    let accepted := memory.accept logEnvironment (summerMorning + minute) LogSourceId.ha01.text
      (.signature ['x'])
    Agree (summerEnvironment.uuid 0) accepted
        ((memory.accepting accepted).recordLogHealth logEnvironment (summerMorning + 2 * minute)
          secondJob (haReview .ko [tapoTimeout])).2 ↔
      (⟨.ha01, .ko, 10, false, 3, [tapoTimeout]⟩ : LogSourceHealth).collectionFailed = false ∧
        accepted.Faithful logEnvironment LogSourceId.ha01.text
          ⟨.ha01, .ko, 10, false, 3, [tapoTimeout]⟩ 1 := by
  have active : (reached (LogLedger.act logEnvironment) LogLedger.start
      foundTimeout).memory.store.active (logKey LogSourceId.ha01.text) =
        some (LogSourceHealth.incident ⟨.ha01, .ko, 10, false, 3, [tapoTimeout]⟩ summerMorning
          firstJob "ha-01 : 1 anomalie(s) significative(s) dans les journaux"
          (summerEnvironment.uuid 0) 0) := rfl
  refine accept_agrees_iff foundTimeout (by decide +kernel) active ?_ rfl _ _ _
  rw [← recordedIncident_isSome_iff]
  decide +kernel

end OhanaAgent.Tsunade
