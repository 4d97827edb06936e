import OhanaAgent.Tsunade.Authority
import OhanaAgent.Tsunade.LogHealth

/-!
# Redelivered log reviews

A review that was recorded already is recognised by its events.  A source that
was calm left no event, so the review is new to it when it comes again: it ends
an incident that a later review opened.  The redelivery of a review is without
effect exactly when each of its sources with an active incident left an event.
-/

namespace OhanaAgent.Tsunade

open OhanaAgent.Encoding.Json
open OhanaAgent.Privacy
open OhanaAgent.Store
open OhanaAgent.Time

variable {env : LogEnvironment} {now : Int} {jobId : JobId} {window : LogWindow}
  {source : LogSourceHealth} {memory before middle after : LogHealth}

/-! ## Recorded jobs -/

/-- An event of a log incident of the source records the job. -/
def LogHealth.Recorded (source : LogSourceId) (jobId : JobId) (memory : LogHealth) : Prop :=
  ∃ event ∈ memory.store.events, event.ofJob jobId = true ∧
    ∃ row ∈ memory.store.incidents, row.incidentId = event.incidentId ∧
      row.equipmentId = source.text ∧ row.key.capability = "logs.health".toList

theorem recordedIncident_isSome_iff {source : LogSourceId} :
    (memory.recordedIncident source jobId).isSome = true ↔ memory.Recorded source jobId := by
  rw [LogHealth.recordedIncident, List.findSome?_isSome_iff]
  constructor
  · rintro ⟨event, member, found⟩
    split at found
    · rename_i ofJob
      obtain ⟨row, kept⟩ := Option.isSome_iff_exists.mp found
      obtain ⟨rowFound, fits⟩ := Option.filter_eq_some_iff.mp kept
      obtain ⟨rowMem, same⟩ := Table.find?_eq_some_iff.mp rowFound
      simp only [Bool.and_eq_true, decide_eq_true_eq] at fits
      exact ⟨event, member, ofJob, row, rowMem, same, fits⟩
    · cases found
  · rintro ⟨event, member, ofJob, row, rowMem, same, equipment, capability⟩
    refine ⟨event, member, ?_⟩
    have found := Table.find?_eq_some_iff.mpr ⟨rowMem, same⟩
    simp [ofJob, found, equipment, capability]

/-- The active log incidents are those of their own equipment, and each has an
event of the review it was last seen by. -/
structure Tracked (memory : LogHealth) : Prop where
  equipment : ∀ row ∈ memory.store.incidents, row.endedAt = none →
    row.key.capability = "logs.health".toList → row.equipmentId = row.key.node
  evidence : ∀ row ∈ memory.store.incidents, row.endedAt = none →
    row.key.capability = "logs.health".toList → ∃ event ∈ memory.store.events,
      event.incidentId = row.incidentId ∧
        fieldOf jobIdKey event.payload = some (.string row.lastObservationId)

theorem tracked_empty : Tracked LogHealth.empty where
  equipment := fun row member => absurd member (Table.not_mem_empty row)
  evidence := fun row member => absurd member (Table.not_mem_empty row)

/-- The review an active incident was last seen by is recorded. -/
theorem Tracked.recorded {source : LogSourceId} {incident : IncidentRow} (tracked : Tracked memory)
    (active : memory.store.active (logKey source.text) = some incident)
    (last : incident.lastObservationId = jobId.text) : memory.Recorded source jobId := by
  obtain ⟨member, key, ongoing⟩ := active_eq_some active
  have capability : incident.key.capability = "logs.health".toList := by rw [key]; rfl
  obtain ⟨event, eventMem, names, job⟩ := tracked.evidence incident member ongoing capability
  refine ⟨event, eventMem, decide_eq_true (last ▸ job), incident, member, names.symm, ?_,
    capability⟩
  rw [tracked.equipment incident member ongoing capability, key]
  rfl

/-! ## What the log operations keep -/

/-- An incident after some log operations: only the former key of `infra-01`
changes. -/
structure IncidentRow.Follows (row next : IncidentRow) : Prop where
  incidentId : next.incidentId = row.incidentId
  equipmentId : next.equipmentId = row.equipmentId
  capability : next.key.capability = row.key.capability
  key : row.key ≠ legacyLogKey → next.key = row.key

theorem IncidentRow.Follows.refl (row : IncidentRow) : row.Follows row :=
  ⟨rfl, rfl, rfl, fun _ => rfl⟩

theorem IncidentRow.Follows.trans {first second third : IncidentRow} (left : first.Follows second)
    (right : second.Follows third) : first.Follows third where
  incidentId := right.incidentId.trans left.incidentId
  equipmentId := right.equipmentId.trans left.equipmentId
  capability := right.capability.trans left.capability
  key := by
    intro different
    have same := left.key different
    exact (right.key (same ▸ different)).trans same

/-- Incidents and events stay, and what is accepted does. -/
structure Onward (before after : LogHealth) : Prop where
  events : ∃ added, after.store.events = before.store.events ++ added
  incidents : ∀ row ∈ before.store.incidents, ∃ next ∈ after.store.incidents, row.Follows next
  signatures : after.signatures = before.signatures
  components : after.components = before.components

theorem Onward.refl (memory : LogHealth) : Onward memory memory :=
  ⟨⟨[], (List.append_nil _).symm⟩, fun row member => ⟨row, member, .refl row⟩, rfl, rfl⟩

theorem Onward.trans (left : Onward before middle) (right : Onward middle after) :
    Onward before after where
  events := by
    obtain ⟨one, oneEvents⟩ := left.events
    obtain ⟨two, twoEvents⟩ := right.events
    exact ⟨one ++ two, by rw [twoEvents, oneEvents, List.append_assoc]⟩
  incidents := by
    intro row member
    obtain ⟨next, nextMem, first⟩ := left.incidents row member
    obtain ⟨last, lastMem, second⟩ := right.incidents next nextMem
    exact ⟨last, lastMem, first.trans second⟩
  signatures := right.signatures.trans left.signatures
  components := right.components.trans left.components

/-- A recorded job stays recorded. -/
theorem Onward.recorded {source : LogSourceId} (onward : Onward before after)
    (recorded : before.Recorded source jobId) : after.Recorded source jobId := by
  obtain ⟨event, eventMem, ofJob, row, rowMem, names, equipment, capability⟩ := recorded
  obtain ⟨added, events⟩ := onward.events
  obtain ⟨next, nextMem, follows⟩ := onward.incidents row rowMem
  exact ⟨event, events ▸ List.mem_append_left added eventMem, ofJob, next, nextMem,
    follows.incidentId.trans names, follows.equipmentId.trans equipment,
    follows.capability.trans capability⟩

/-- Nothing of a source is significant, and its collection did not fail. -/
def LogHealth.Insignificant (env : LogEnvironment) (source : LogSourceHealth)
    (memory : LogHealth) : Prop :=
  (memory.splitLogFindings env source.source.text source.findings).findings = [] ∧
    source.collectionFailed = false

/-- The triage depends on what is accepted. -/
theorem triage_congr (signatures : after.signatures = before.signatures)
    (components : after.components = before.components) (source : Text)
    (reviewed : ReviewedFinding) : after.triage source reviewed = before.triage source reviewed := by
  have signature : after.acceptsSignature source reviewed.finding.signature =
      before.acceptsSignature source reviewed.finding.signature := by
    rw [LogHealth.acceptsSignature, signatures]
    rfl
  have component : after.acceptsComponent source reviewed.component.id =
      before.acceptsComponent source reviewed.component.id := by
    rw [LogHealth.acceptsComponent, components]
    rfl
  rw [LogHealth.triage, signature, component]
  rfl

theorem splitLogFindings_congr (signatures : after.signatures = before.signatures)
    (components : after.components = before.components) (source : Text)
    (findings : List LogFinding) :
    after.splitLogFindings env source findings = before.splitLogFindings env source findings := by
  simp only [LogHealth.splitLogFindings, triage_congr signatures components]

theorem Onward.insignificant (onward : Onward before after)
    (insignificant : before.Insignificant env source) : after.Insignificant env source := by
  rw [LogHealth.Insignificant,
    splitLogFindings_congr onward.signatures onward.components]
  exact insignificant

/-! ## What a review writes -/

theorem JobId.plain (jobId : JobId) : Plain jobId.text := by
  intro c member
  have hex := jobId.uuid c member
  simp only [isUuidChar, isPlain, Char.isAlphanum, isAlpha_eq, isLower_eq, Bool.or_eq_true,
    Bool.and_eq_true, decide_eq_true_eq, beq_iff_eq] at hex ⊢
  rcases hex with (digit | ⟨low, high⟩) | hyphen
  · exact Or.inl (Or.inl (Or.inr digit))
  · exact Or.inl (Or.inl (Or.inl (Or.inr ⟨low, Nat.le_trans high (by decide)⟩)))
  · exact Or.inr hyphen

theorem jobIdKey_not_sensitive (unicode : Unicode) : isSensitiveKey unicode jobIdKey = false :=
  @logFieldNames_not_sensitive unicode "job_id" (by simp [logFieldNames])

/-- Masking keeps the job of a payload. -/
theorem fieldOf_jobIdKey_redacted {payload : Value}
    (found : fieldOf jobIdKey payload = some (.string jobId.text)) :
    fieldOf jobIdKey (env.base.redactValue payload) = some (.string jobId.text) := by
  rw [env.redactValue_eq, fieldOf_redactSensitiveValue (jobIdKey_not_sensitive env.unicode), found,
    Option.map_some, redactSensitiveValue_plain jobId.plain]

/-- A review wrote to the incident of a source: it left an event of its job. -/
structure Wrote (jobId : JobId) (source : LogSourceId) (before after : LogHealth) : Prop where
  onward : Onward before after
  recorded : after.Recorded source jobId
  grown : before.store.events.length < after.store.events.length
  tracked : Tracked before → Tracked after

/-- A write that ends an incident, or leaves the review it was last seen by. -/
theorem tracked_modify {incidentId : Text} (write : IncidentRow → IncidentRow)
    (keeps : ∀ row, (write row).incidentId = row.incidentId) (tracked : Tracked before)
    (incidents : after.store.incidents = before.store.incidents.modify incidentId write keeps)
    (events : ∃ added, after.store.events = before.store.events ++ added)
    (key : ∀ row : IncidentRow, (write row).key = row.key)
    (equipment : ∀ row : IncidentRow, (write row).equipmentId = row.equipmentId)
    (last : ∀ row : IncidentRow, (write row).endedAt = none → row.endedAt = none ∧
      (write row).lastObservationId = row.lastObservationId) : Tracked after := by
  obtain ⟨added, grown⟩ := events
  have origin : ∀ row ∈ after.store.incidents, row.endedAt = none →
      ∃ old ∈ before.store.incidents, old.endedAt = none ∧ row.incidentId = old.incidentId ∧
        row.key = old.key ∧ row.equipmentId = old.equipmentId ∧
          row.lastObservationId = old.lastObservationId := by
    intro row member open_
    rw [incidents, Table.mem_modify] at member
    rcases member with ⟨old, oldMem, _, rfl⟩ | ⟨old, _⟩
    · obtain ⟨ongoing, same⟩ := last old open_
      exact ⟨old, oldMem, ongoing, keeps old, key old, equipment old, same⟩
    · exact ⟨row, old, open_, rfl, rfl, rfl, rfl⟩
  constructor
  · intro row member open_ logs
    obtain ⟨old, oldMem, ongoing, _, sameKey, sameEquipment, _⟩ := origin row member open_
    rw [sameKey] at logs ⊢
    rw [sameEquipment]
    exact tracked.equipment old oldMem ongoing logs
  · intro row member open_ logs
    obtain ⟨old, oldMem, ongoing, id, sameKey, _, sameLast⟩ := origin row member open_
    rw [sameKey] at logs
    obtain ⟨event, eventMem, rest⟩ := tracked.evidence old oldMem ongoing logs
    exact ⟨event, grown ▸ List.mem_append_left added eventMem, by rw [id, sameLast]; exact rest⟩

/-- A write to the active incident of a source, with its event. -/
theorem wrote_modify {source : LogSourceId} {incident : IncidentRow} {event : Event}
    {write : IncidentRow → IncidentRow} (keeps : ∀ row, (write row).incidentId = row.incidentId)
    (tracked : Tracked before)
    (active : before.store.active (logKey source.text) = some incident)
    (incidents : after.store.incidents =
      before.store.incidents.modify incident.incidentId write keeps)
    (events : after.store.events = before.store.events ++ [event])
    (names : event.incidentId = incident.incidentId)
    (job : fieldOf jobIdKey event.payload = some (.string jobId.text))
    (key : ∀ row : IncidentRow, (write row).key = row.key)
    (equipment : ∀ row : IncidentRow, (write row).equipmentId = row.equipmentId)
    (last : ∀ row : IncidentRow, (write row).lastObservationId = jobId.text)
    (signatures : after.signatures = before.signatures)
    (components : after.components = before.components) : Wrote jobId source before after := by
  obtain ⟨member, incidentKey, ongoing⟩ := active_eq_some active
  have capability : incident.key.capability = "logs.health".toList := by rw [incidentKey]; rfl
  have own : incident.equipmentId = source.text := by
    rw [tracked.equipment incident member ongoing capability, incidentKey]
    rfl
  have written : write incident ∈ after.store.incidents := by
    rw [incidents, Table.mem_modify]
    exact Or.inl ⟨incident, member, rfl, rfl⟩
  have eventMem : event ∈ after.store.events := by simp [events]
  refine ⟨⟨⟨[event], events⟩, ?_, signatures, components⟩, ?_, ?_, ?_⟩
  · intro row rowMem
    by_cases same : row.incidentId = incident.incidentId
    · refine ⟨write row, ?_, keeps row, equipment row, by rw [key row], fun _ => key row⟩
      rw [incidents, Table.mem_modify]
      exact Or.inl ⟨row, rowMem, same, rfl⟩
    · refine ⟨row, ?_, .refl row⟩
      rw [incidents, Table.mem_modify]
      exact Or.inr ⟨rowMem, same⟩
  · exact ⟨event, eventMem, decide_eq_true job, write incident, written,
      (keeps incident).trans names.symm, (equipment incident).trans own, by
        rw [key incident, capability]⟩
  · simp [events]
  · intro _
    have origin : ∀ row ∈ after.store.incidents, row = write incident ∨
        row ∈ before.store.incidents := by
      intro row rowMem
      rw [incidents, Table.mem_modify] at rowMem
      rcases rowMem with ⟨old, oldMem, same, rfl⟩ | ⟨old, _⟩
      · exact Or.inl (congrArg write (Table.key_injective oldMem member same))
      · exact Or.inr old
    constructor
    · intro row rowMem open_ logs
      rcases origin row rowMem with rfl | old
      · rw [equipment, key]
        exact tracked.equipment incident member ongoing capability
      · exact tracked.equipment row old open_ logs
    · intro row rowMem open_ logs
      rcases origin row rowMem with rfl | old
      · exact ⟨event, eventMem, names.trans (keeps incident).symm, by rw [last, job]⟩
      · obtain ⟨found, foundMem, rest⟩ := tracked.evidence row old open_ logs
        exact ⟨found, events ▸ List.mem_append_left _ foundMem, rest⟩

/-- The payload of an event of a review names its job. -/
theorem fieldOf_payload (rest : List (String × Value)) :
    fieldOf jobIdKey (env.base.redactValue (object (("job_id", .string jobId.text) :: rest))) =
      some (.string jobId.text) := by
  apply fieldOf_jobIdKey_redacted
  simp [object, fieldOf, jobIdKey, Fields.ofList, Fields.lookup]

theorem wrote_resolve {source : LogSourceId} {incident : IncidentRow} {accepted truncated : Bool}
    {document : Value} (tracked : Tracked memory)
    (active : memory.store.active (logKey source.text) = some incident) :
    Wrote jobId source memory
      (memory.resolve env now source.text jobId.text accepted truncated document) := by
  have named := @fieldOf_payload env jobId [("result", document)]
  have resolved : memory.store.resolveLogIncident env.base now (logKey source.text) jobId.text
      (resolvedLogResult accepted truncated) document =
      { memory.store with
        incidents := memory.store.incidents.modify incident.incidentId
          (IncidentRow.logResolved now jobId.text (resolvedLogResult accepted truncated))
          fun _ => rfl
        requests := memory.store.requests.mapRows (RequestRow.resolvedWith incident.incidentId)
          (RequestRow.requestId_resolvedWith incident.incidentId) }.event env.base
        incident.incidentId .resolved now (resolvedLogResult accepted truncated)
        (object [("job_id", .string jobId.text), ("result", document)]) none := by
    rw [Store.resolveLogIncident, active]
  rw [LogHealth.resolve, resolved]
  refine wrote_modify ?_ tracked active rfl rfl rfl named ?_ ?_ ?_ rfl rfl <;>
    exact fun _ => rfl

theorem wrote_update {source : LogSourceId} {incident : IncidentRow} {context : LogContext}
    {message : String} (tracked : Tracked memory)
    (active : memory.store.active (logKey source.text) = some incident) :
    Wrote jobId source memory
      (memory.updateIncident env now jobId incident context message) := by
  have named := @fieldOf_payload env jobId [("result", context.document)]
  refine wrote_modify ?_ tracked active rfl rfl rfl named ?_ ?_ ?_ rfl rfl <;>
    exact fun _ => rfl

/-- An inserted incident is appended. -/
theorem insertIncident_eq_ok {store after : Store} {row : IncidentRow}
    (inserted : store.insertIncident row = .ok after) :
    ∃ incidents, store.incidents.insert? row = some incidents ∧
      after = { store with incidents } := by
  unfold Store.insertIncident at inserted
  split at inserted
  · contradiction
  · split at inserted
    · contradiction
    · rename_i incidents found
      cases inserted
      exact ⟨incidents, found, rfl⟩

theorem wrote_open {context : LogContext} {message : String} {review : Review}
    (done : memory.openIncident env now jobId source context message = .ok (review, after)) :
    Wrote jobId source.source memory after := by
  simp only [LogHealth.openIncident, bind_eq_ok, pure_eq_ok, Prod.mk.injEq] at done
  obtain ⟨inserted, insertion, _, rfl⟩ := done
  obtain ⟨incidents, found, rfl⟩ := insertIncident_eq_ok insertion
  obtain ⟨fresh, rows⟩ := Table.insert?_eq_some_iff.mp found
  have named := @fieldOf_payload env jobId [("result", context.document)]
  have members : ∀ row, row ∈ incidents ↔ row ∈ memory.store.incidents ∨
      row = source.incident now jobId message (env.base.uuid memory.store.uuids)
        (memory.store.incidents.rows.countP fun row => row.key = logKey source.source.text) := by
    intro row
    rw [Table.mem_def, rows, List.mem_append, List.mem_singleton]
    rfl
  refine ⟨⟨⟨_, rfl⟩, ?_, rfl, rfl⟩, ?_, ?_, ?_⟩
  · intro row member
    exact ⟨row, (members row).mpr (Or.inl member), .refl row⟩
  · exact ⟨_, List.mem_append_right _ List.mem_cons_self, decide_eq_true named, _,
      (members _).mpr (Or.inr rfl), rfl, rfl, rfl⟩
  · simp [Store.event]
  · intro tracked
    constructor
    · intro row member open_ logs
      rcases (members row).mp member with old | rfl
      · exact tracked.equipment row old open_ logs
      · rfl
    · intro row member open_ logs
      rcases (members row).mp member with old | rfl
      · obtain ⟨event, eventMem, rest⟩ := tracked.evidence row old open_ logs
        exact ⟨event, List.mem_append_left _ eventMem, rest⟩
      · exact ⟨_, List.mem_append_right _ List.mem_cons_self, rfl, named⟩

/-! ## The former key of `infra-01` -/

/-- The incident of `infra-01` under its former key is the one that moves. -/
theorem renameLegacy_cases (source : LogSourceId) (memory : LogHealth) :
    (memory.renameLegacy source = memory ∧
      (source = .infra01 → memory.store.active (logKey source.text) = none →
        memory.store.active legacyLogKey = none)) ∨
      ∃ legacy, source = .infra01 ∧ memory.store.active (logKey source.text) = none ∧
        memory.store.active legacyLogKey = some legacy ∧
        memory.renameLegacy source =
          { memory with
            store := { memory.store with
              incidents := memory.store.incidents.modify legacy.incidentId
                (IncidentRow.moved (logKey source.text))
                (IncidentRow.incidentId_moved (logKey source.text)) } } := by
  unfold LogHealth.renameLegacy
  split
  · rename_i idle
    split
    · rename_i absent
      exact Or.inl ⟨rfl, fun _ _ => absent⟩
    · rename_i legacy active
      exact Or.inr ⟨legacy, idle.1, Option.isNone_iff_eq_none.mp idle.2, active, rfl⟩
  · rename_i busy
    exact Or.inl ⟨rfl, fun isInfra idle =>
      absurd ⟨isInfra, Option.isNone_iff_eq_none.mpr idle⟩ busy⟩

theorem logKey_ne_legacy (source : Text) : logKey source ≠ legacyLogKey := by
  intro equal
  obtain rfl : source = LogSourceId.infra01.text := congrArg Key.node equal
  exact absurd equal (by decide +kernel)

/-- Something happened: an event, or the move of an incident. -/
def Changed (before after : LogHealth) : Prop :=
  before.store.events.length < after.store.events.length ∨
    ∃ row ∈ before.store.incidents, row.key = legacyLogKey ∧
      ∃ next ∈ after.store.incidents, next.incidentId = row.incidentId ∧ next.key ≠ legacyLogKey

/-- What happened is not undone. -/
theorem Changed.onward (changed : Changed before middle) (onward : Onward middle after) :
    Changed before after := by
  obtain ⟨added, events⟩ := onward.events
  rcases changed with grown | ⟨row, member, legacy, next, nextMem, same, moved⟩
  · exact Or.inl (Nat.lt_of_lt_of_le grown (by simp [events]))
  · obtain ⟨last, lastMem, follows⟩ := onward.incidents next nextMem
    exact Or.inr ⟨row, member, legacy, last, lastMem, follows.incidentId.trans same,
      follows.key moved ▸ moved⟩

/-- A moved incident is still the one it was. -/
theorem moved_legacy {source : LogSourceId} {legacy : IncidentRow} (isInfra : source = .infra01)
    (active : before.store.active legacyLogKey = some legacy)
    (moves : after = { before with
      store := { before.store with
        incidents := before.store.incidents.modify legacy.incidentId
          (IncidentRow.moved (logKey source.text))
          (IncidentRow.incidentId_moved (logKey source.text)) } }) :
    Onward before after ∧ (Tracked before → Tracked after) ∧ Changed before after := by
  obtain ⟨member, key, ongoing⟩ := active_eq_some active
  have capability : (logKey source.text).capability = legacyLogKey.capability := rfl
  have node : (logKey source.text).node = legacyLogKey.node := by rw [isInfra]; rfl
  have rows : ∀ row, row ∈ after.store.incidents ↔
      row = legacy.moved (logKey source.text) ∨
        (row ∈ before.store.incidents ∧ row.incidentId ≠ legacy.incidentId) := by
    intro row
    have incidents : after.store.incidents = before.store.incidents.modify legacy.incidentId
        (IncidentRow.moved (logKey source.text))
        (IncidentRow.incidentId_moved (logKey source.text)) := by
      rw [moves]
    rw [incidents, Table.mem_modify]
    refine or_congr ⟨?_, ?_⟩ Iff.rfl
    · rintro ⟨old, oldMem, same, rfl⟩
      rw [Table.key_injective oldMem member same]
    · rintro rfl
      exact ⟨legacy, member, rfl, rfl⟩
  have events : after.store.events = before.store.events := by rw [moves]
  refine ⟨⟨⟨[], by rw [events, List.append_nil]⟩, ?_, by rw [moves], by rw [moves]⟩, ?_, ?_⟩
  · intro row rowMem
    by_cases same : row.incidentId = legacy.incidentId
    · obtain rfl := Table.key_injective rowMem member same
      exact ⟨_, (rows _).mpr (Or.inl rfl), rfl, rfl, by rw [key, IncidentRow.moved, capability],
        fun different => absurd key different⟩
    · exact ⟨row, (rows row).mpr (Or.inr ⟨rowMem, same⟩), .refl row⟩
  · intro tracked
    have logs : legacy.key.capability = "logs.health".toList := by rw [key]; rfl
    constructor
    · intro row rowMem open_ rowLogs
      rcases (rows row).mp rowMem with rfl | ⟨old, _⟩
      · have own := tracked.equipment legacy member ongoing logs
        rw [key] at own
        exact own.trans node.symm
      · exact tracked.equipment row old open_ rowLogs
    · intro row rowMem open_ rowLogs
      rw [events]
      rcases (rows row).mp rowMem with rfl | ⟨old, _⟩
      · exact tracked.evidence legacy member ongoing logs
      · exact tracked.evidence row old open_ rowLogs
  · exact Or.inr ⟨legacy, member, key, _, (rows _).mpr (Or.inl rfl), rfl,
      logKey_ne_legacy source.text⟩

/-! ## One review -/

/-- A source is known to a job: the job is recorded for it, or has nothing to
say of it. -/
def LogHealth.Known (env : LogEnvironment) (jobId : JobId) (source : LogSourceHealth)
    (memory : LogHealth) : Prop :=
  memory.Recorded source.source jobId ∨ memory.Insignificant env source

theorem Onward.known (onward : Onward before after) (known : before.Known env jobId source) :
    after.Known env jobId source :=
  known.imp onward.recorded onward.insignificant

/-- A source that is not recorded is calm, or writes. -/
theorem reviewNew_spec {review : Review} (tracked : Tracked memory)
    (done : memory.reviewNew env now jobId window source = .ok (review, after)) :
    (after = memory ∧ memory.Insignificant env source) ∨
      Wrote jobId source.source memory after := by
  unfold LogHealth.reviewNew at done
  dsimp only at done
  split at done
  · rename_i quiet
    simp only [Bool.and_eq_true, List.isEmpty_iff, Bool.not_eq_true'] at quiet
    split at done
    · cases done
      exact Or.inl ⟨rfl, quiet⟩
    · rename_i incident active
      cases done
      exact Or.inr (wrote_resolve tracked active)
  · split at done
    · exact Or.inr (wrote_open done)
    · rename_i incident active
      cases done
      exact Or.inr (wrote_update tracked active)

theorem reviewNamed_spec {review : Review} (tracked : Tracked memory)
    (done : memory.reviewNamed env now jobId window source = .ok (review, after)) :
    (after = memory ∧ memory.Known env jobId source) ∨ Wrote jobId source.source memory after := by
  unfold LogHealth.reviewNamed at done
  split at done
  · rename_i incident found
    cases done
    refine Or.inl ⟨rfl, Or.inl (recordedIncident_isSome_iff.mp ?_)⟩
    rw [found]
    rfl
  · split at done
    · rename_i incident found
      cases done
      obtain ⟨active, last⟩ := Option.filter_eq_some_iff.mp found
      exact Or.inl ⟨rfl, Or.inl (tracked.recorded active (of_decide_eq_true last))⟩
    · rcases reviewNew_spec tracked done with ⟨same, insignificant⟩ | wrote
      · exact Or.inl ⟨same, Or.inr insignificant⟩
      · exact Or.inr wrote

/-- The renaming goes on. -/
theorem onward_renameLegacy (source : LogSourceId) (memory : LogHealth) :
    Onward memory (memory.renameLegacy source) ∧
      (Tracked memory → Tracked (memory.renameLegacy source)) := by
  rcases renameLegacy_cases source memory with ⟨same, _⟩ | ⟨legacy, isInfra, _, active, moves⟩
  · rw [same]
    exact ⟨.refl memory, id⟩
  · obtain ⟨onward, tracked, _⟩ := moved_legacy isInfra active moves
    exact ⟨onward, tracked⟩

/-- A source that was reviewed is known. -/
theorem review_spec {review : Review} (tracked : Tracked memory)
    (done : memory.review env now jobId window source = .ok (review, after)) :
    Onward memory after ∧ Tracked after ∧ after.Known env jobId source := by
  obtain ⟨renamed, kept⟩ := onward_renameLegacy source.source memory
  rcases reviewNamed_spec (kept tracked) done with ⟨rfl, known⟩ | wrote
  · exact ⟨renamed, kept tracked, known⟩
  · exact ⟨renamed.trans wrote.onward, wrote.tracked (kept tracked), Or.inl wrote.recorded⟩

/-- All the sources of a review that was recorded are known. -/
theorem reviewSources_spec {sources : List LogSourceHealth} {affected : List Text}
    (tracked : Tracked memory)
    (done : LogHealth.reviewSources env now jobId window sources memory = .ok (affected, after)) :
    Onward memory after ∧ Tracked after ∧ ∀ source ∈ sources, after.Known env jobId source := by
  induction sources generalizing memory affected with
  | nil =>
      cases done
      exact ⟨.refl _, tracked, fun source member => absurd member List.not_mem_nil⟩
  | cons source sources ih =>
      simp only [LogHealth.reviewSources, bind_eq_ok, pure_eq_ok, Prod.exists,
        Prod.mk.injEq] at done
      obtain ⟨review, next, first, rest, last, others, _, rfl⟩ := done
      obtain ⟨onward, nextTracked, known⟩ := review_spec tracked first
      obtain ⟨further, lastTracked, all⟩ := ih nextTracked others
      refine ⟨onward.trans further, lastTracked, ?_⟩
      intro other member
      rcases List.mem_cons.mp member with rfl | inside
      · exact further.known known
      · exact all other inside

/-! ## A known source again -/

/-- The job left an event, if the source has an active incident. -/
def LogHealth.Heard (source : LogSourceId) (jobId : JobId) (memory : LogHealth) : Prop :=
  memory.store.active (logKey source.text) ≠ none → memory.Recorded source jobId

/-- A source has nothing to learn from a job: it heard of it, and no incident
waits under the former key. -/
structure LogHealth.Answered (source : LogSourceId) (jobId : JobId) (memory : LogHealth) :
    Prop where
  heard : memory.Heard source jobId
  renamed : source = .infra01 → memory.store.active (logKey source.text) = none →
    memory.store.active legacyLogKey = none

/-- An insignificant source ends the active incident. -/
theorem reviewNew_resolves {incident : IncidentRow} (tracked : Tracked memory)
    (insignificant : memory.Insignificant env source)
    (active : memory.store.active (logKey source.source.text) = some incident) :
    ∃ after, memory.reviewNew env now jobId window source = .ok (.resolved, after) ∧
      Wrote jobId source.source memory after := by
  unfold LogHealth.reviewNew
  simp only [insignificant.1, insignificant.2, active, List.isEmpty_nil, Bool.not_false,
    Bool.and_self, if_true]
  exact ⟨_, rfl, wrote_resolve tracked active⟩

/-- A job that is not recorded goes through the triage. -/
theorem reviewNamed_eq_reviewNew (tracked : Tracked memory)
    (unrecorded : ¬ memory.Recorded source.source jobId) :
    memory.reviewNamed env now jobId window source =
      memory.reviewNew env now jobId window source := by
  unfold LogHealth.reviewNamed
  split
  · rename_i incident found
    refine absurd (recordedIncident_isSome_iff.mp ?_) unrecorded
    rw [found]
    rfl
  · split
    · rename_i incident found
      obtain ⟨active, last⟩ := Option.filter_eq_some_iff.mp found
      exact absurd (tracked.recorded active (of_decide_eq_true last)) unrecorded
    · rfl

/-- A known source under its key: the review is without effect when the job is
recorded or no incident is active, and otherwise ends the incident. -/
theorem reviewNamed_known (tracked : Tracked memory) (known : memory.Known env jobId source) :
    ∃ review after, memory.reviewNamed env now jobId window source = .ok (review, after) ∧
      ((memory.Heard source.source jobId ∧ after = memory) ∨
        (¬ memory.Heard source.source jobId ∧ Wrote jobId source.source memory after)) := by
  by_cases recorded : memory.Recorded source.source jobId
  · obtain ⟨incident, found⟩ :=
      Option.isSome_iff_exists.mp (recordedIncident_isSome_iff.mpr recorded)
    unfold LogHealth.reviewNamed
    rw [found]
    exact ⟨_, memory, rfl, Or.inl ⟨fun _ => recorded, rfl⟩⟩
  · rw [reviewNamed_eq_reviewNew tracked recorded]
    have insignificant := known.resolve_left recorded
    cases active : memory.store.active (logKey source.source.text) with
    | none =>
        refine ⟨.calm, memory, ?_, Or.inl ⟨fun busy => absurd active busy, rfl⟩⟩
        simp [LogHealth.reviewNew, insignificant.1, insignificant.2, active]
    | some incident =>
        have unheard : ¬ memory.Heard source.source jobId := fun heard =>
          recorded (heard (by simp [active]))
        obtain ⟨after, resolves, wrote⟩ :=
          @reviewNew_resolves env now jobId window source memory incident tracked insignificant
            active
        exact ⟨.resolved, after, resolves, Or.inr ⟨unheard, wrote⟩⟩

/-- A known source: the review is without effect when the job has answered it. -/
theorem review_known (tracked : Tracked memory) (known : memory.Known env jobId source) :
    ∃ review after, memory.review env now jobId window source = .ok (review, after) ∧
      Onward memory after ∧ Tracked after ∧
        ((memory.Answered source.source jobId ∧ after = memory) ∨
          (¬ memory.Answered source.source jobId ∧ Changed memory after)) := by
  unfold LogHealth.review
  rcases renameLegacy_cases source.source memory with
    ⟨same, renamed⟩ | ⟨legacy, isInfra, idle, active, moves⟩
  · rw [same]
    obtain ⟨review, after, done, ⟨heard, rfl⟩ | ⟨unheard, wrote⟩⟩ :=
      @reviewNamed_known env now jobId window source memory tracked known
    · exact ⟨review, after, done, .refl after, tracked, Or.inl ⟨⟨heard, renamed⟩, rfl⟩⟩
    · exact ⟨review, after, done, wrote.onward, wrote.tracked tracked,
        Or.inr ⟨fun answered => unheard answered.heard, Or.inl wrote.grown⟩⟩
  · obtain ⟨onward, kept, changed⟩ := moved_legacy isInfra active moves
    have unanswered : ¬ memory.Answered source.source jobId := by
      intro answered
      have absent := answered.renamed isInfra idle
      rw [absent] at active
      cases active
    obtain ⟨review, after, done, ⟨_, rfl⟩ | ⟨_, wrote⟩⟩ :=
      @reviewNamed_known env now jobId window source _ (kept tracked) (onward.known known)
    · exact ⟨review, _, done, onward, kept tracked, Or.inr ⟨unanswered, changed⟩⟩
    · exact ⟨review, after, done, onward.trans wrote.onward, wrote.tracked (kept tracked),
        Or.inr ⟨unanswered, changed.onward wrote.onward⟩⟩

/-- Known sources again: the review is without effect when the job has answered
all of them. -/
theorem reviewSources_known {sources : List LogSourceHealth} (tracked : Tracked memory)
    (known : ∀ source ∈ sources, memory.Known env jobId source) :
    ∃ affected after,
      LogHealth.reviewSources env now jobId window sources memory = .ok (affected, after) ∧
        Onward memory after ∧
          (((∀ source ∈ sources, memory.Answered source.source jobId) ∧ after = memory) ∨
            ((¬ ∀ source ∈ sources, memory.Answered source.source jobId) ∧
              Changed memory after)) := by
  induction sources generalizing memory with
  | nil =>
      exact ⟨[], memory, rfl, .refl memory,
        Or.inl ⟨fun source member => absurd member List.not_mem_nil, rfl⟩⟩
  | cons source sources ih =>
      obtain ⟨review, next, first, onward, nextTracked, head⟩ :=
        @review_known env now jobId window source memory tracked (known source List.mem_cons_self)
      obtain ⟨affected, after, others, further, tail⟩ := ih nextTracked fun other member =>
        onward.known (known other (List.mem_cons_of_mem source member))
      refine ⟨review.affected.toList ++ affected, after, ?_, onward.trans further, ?_⟩
      · simp only [LogHealth.reviewSources, first, others, bind, Except.bind, pure, Except.pure]
      · rcases head with ⟨answered, rfl⟩ | ⟨unanswered, changed⟩
        · rcases tail with ⟨all, rfl⟩ | ⟨missing, changed⟩
          · exact Or.inl ⟨List.forall_mem_cons.mpr ⟨answered, all⟩, rfl⟩
          · exact Or.inr ⟨fun all => missing (List.forall_mem_cons.mp all).2, changed⟩
        · exact Or.inr ⟨fun all => unanswered (all source List.mem_cons_self),
            changed.onward further⟩

/-! ## Other calls in between -/

/-- A call of `record_log_health`, without or with an incident. -/
inductive LogCall where
  | record (jobId : JobId) (result : LogsHealthCheckResult)
  | attach (jobId : JobId) (incidentId : Text) (result : LogsHealthCheckResult)

/-- A call at a reading of the clock. -/
def LogHealth.call (env : LogEnvironment) (memory : LogHealth) (timed : Int × LogCall) :
    LogHealth :=
  match timed.2 with
  | .record jobId result => (memory.recordLogHealth env timed.1 jobId result).2
  | .attach jobId incidentId result => memory.attachLogHealth env timed.1 jobId incidentId result

/-- The memory after some calls. -/
def LogHealth.afterCalls (env : LogEnvironment) (calls : List (Int × LogCall))
    (memory : LogHealth) : LogHealth :=
  calls.foldl (LogHealth.call env) memory

/-- Changes that leave the incidents aside go on. -/
theorem Aside.onward {store : Store} (aside : Aside memory.store store) :
    Onward memory { memory with store } ∧ (Tracked memory → Tracked { memory with store }) := by
  refine ⟨⟨aside.events, ?_, rfl, rfl⟩, fun tracked => ⟨?_, ?_⟩⟩
  · intro row member
    obtain ⟨next, nextMem, same⟩ := aside.incidents.target member
    refine ⟨next, nextMem, ?_⟩
    rw [same]
    exact ⟨rfl, rfl, rfl, fun _ => rfl⟩
  · intro next member open_ logs
    obtain ⟨row, rowMem, same⟩ := aside.incidents.source member
    rw [same] at open_ logs ⊢
    exact tracked.equipment row rowMem open_ logs
  · intro next member open_ logs
    obtain ⟨row, rowMem, same⟩ := aside.incidents.source member
    obtain ⟨added, events⟩ := aside.events
    rw [same] at open_ logs ⊢
    obtain ⟨event, eventMem, rest⟩ := tracked.evidence row rowMem open_ logs
    exact ⟨event, events ▸ List.mem_append_left added eventMem, rest⟩

/-- Attaching a result to an incident leaves the incidents aside. -/
theorem attach_aside (incidentId : Text) (result : LogsHealthCheckResult) (memory : LogHealth) :
    ∃ store, Aside memory.store store ∧
      memory.attachLogHealth env now jobId incidentId result = { memory with store } := by
  unfold LogHealth.attachLogHealth
  dsimp only
  split
  · rename_i store read
    exact ⟨store, (quiet_get read).aside, rfl⟩
  · rename_i incident store read
    split
    · exact ⟨store, (quiet_get read).aside, rfl⟩
    · split
      · rename_i last again
        exact ⟨last, ((quiet_get read).trans (quiet_get again)).aside, rfl⟩
      · rename_i last again
        exact ⟨_, ((quiet_get read).trans ((quiet_get again).trans
          ((quiet_appendRecord _ _ _ _ _).trans (quiet_expireRepairs _)))).aside, rfl⟩

/-- A recorded result leaves its sources known. -/
theorem recordLogHealth_spec {result : LogsHealthCheckResult} {affected : List Text}
    (tracked : Tracked memory)
    (done : memory.recordLogHealth env now jobId result = (.ok affected, after)) :
    Onward memory after ∧ Tracked after ∧
      ∀ source ∈ (result.redacted env.unicode).sources, after.Known env jobId source := by
  rw [LogHealth.recordLogHealth] at done
  rcases commit_cases (LogHealth.reviewSources env now jobId (result.redacted env.unicode).window
    (result.redacted env.unicode).sources) memory with ⟨answer, next, ran, equal⟩ | ⟨_, _, equal⟩
  · rw [equal] at done
    cases done
    exact reviewSources_spec tracked ran
  · rw [equal] at done
    cases done

theorem call_spec (timed : Int × LogCall) (memory : LogHealth) (tracked : Tracked memory) :
    Onward memory (memory.call env timed) ∧ Tracked (memory.call env timed) := by
  obtain ⟨now, call⟩ := timed
  cases call with
  | record jobId result =>
      show Onward memory (memory.recordLogHealth env now jobId result).2 ∧
        Tracked (memory.recordLogHealth env now jobId result).2
      rw [LogHealth.recordLogHealth]
      refine commit_induction (motive := fun after => Onward memory after ∧ Tracked after)
        ⟨.refl memory, tracked⟩ ?_
      intro affected after ran
      obtain ⟨onward, kept, _⟩ := reviewSources_spec tracked ran
      exact ⟨onward, kept⟩
  | attach jobId incidentId result =>
      obtain ⟨store, aside, attached⟩ := @attach_aside env now jobId incidentId result memory
      show Onward memory (memory.attachLogHealth env now jobId incidentId result) ∧
        Tracked (memory.attachLogHealth env now jobId incidentId result)
      rw [attached]
      exact ⟨aside.onward.1, aside.onward.2 tracked⟩

theorem afterCalls_spec (calls : List (Int × LogCall)) (memory : LogHealth)
    (tracked : Tracked memory) :
    Onward memory (memory.afterCalls env calls) ∧ Tracked (memory.afterCalls env calls) := by
  induction calls generalizing memory with
  | nil => exact ⟨.refl memory, tracked⟩
  | cons timed calls ih =>
      obtain ⟨onward, kept⟩ := @call_spec env timed memory tracked
      obtain ⟨further, last⟩ := ih _ kept
      exact ⟨onward.trans further, last⟩

/-! ## The redelivery -/

/-- Neither an incident nor an event is new or changed. -/
structure LogHealth.Unchanged (before after : LogHealth) : Prop where
  incidents : after.store.incidents = before.store.incidents
  contexts : after.contexts = before.contexts
  events : after.store.events = before.store.events

theorem Changed.not_unchanged (changed : Changed before after) : ¬ before.Unchanged after := by
  intro unchanged
  rcases changed with grown | ⟨row, member, legacy, next, nextMem, same, moved⟩
  · rw [unchanged.events] at grown
    exact Nat.lt_irrefl _ grown
  · rw [unchanged.incidents] at nextMem
    exact moved (Table.key_injective nextMem member same ▸ legacy)

/-- A review that was recorded is delivered again after any other calls: nothing
happens exactly when the job left an event for each of its sources that has an
active incident by then. -/
theorem redelivered_iff {start first : LogHealth} (tracked : Tracked start)
    {result : LogsHealthCheckResult} {affected : List Text}
    (processed : start.recordLogHealth env now jobId result = (.ok affected, first))
    (calls : List (Int × LogCall)) (again : Int) :
    (first.afterCalls env calls).Unchanged
        ((first.afterCalls env calls).recordLogHealth env again jobId result).2 ↔
      ∀ source ∈ result.sources, (first.afterCalls env calls).Answered source.source jobId := by
  obtain ⟨_, firstTracked, known⟩ := recordLogHealth_spec tracked processed
  obtain ⟨onward, laterTracked⟩ := @afterCalls_spec env calls first firstTracked
  obtain ⟨affected, after, ran, _, outcome⟩ :=
    @reviewSources_known env again jobId (result.redacted env.unicode).window _ _ laterTracked
      fun source member => onward.known (known source member)
  have masked : (∀ source ∈ (result.redacted env.unicode).sources,
      (first.afterCalls env calls).Answered source.source jobId) ↔
        ∀ source ∈ result.sources, (first.afterCalls env calls).Answered source.source jobId :=
    List.forall_mem_map
  rw [masked] at outcome
  rw [LogHealth.recordLogHealth, commit_of_ok ran]
  rcases outcome with ⟨answered, rfl⟩ | ⟨missing, changed⟩
  · exact iff_of_true ⟨rfl, rfl, rfl⟩ answered
  · exact iff_of_false changed.not_unchanged missing

/-! ## A healthy review comes back -/

/-- The first review finds nothing on `ha-01`, the second one an error. -/
def healthyThenFaulty : LogHealth :=
  (LogHealth.empty.recordLogHealth logEnvironment summerMorning firstJob (haReview .ok [])).2.afterCalls
    logEnvironment [(summerMorning + minute, .record secondJob (haReview .ko [tapoTimeout]))]

/-- The first review is delivered again and ends the incident of the second. -/
theorem healthyReview_resolves : ¬ healthyThenFaulty.Unchanged
    (healthyThenFaulty.recordLogHealth logEnvironment (summerMorning + 2 * minute) firstJob
      (haReview .ok [])).2 := by
  intro unchanged
  have same := congrArg List.length unchanged.events
  exact absurd same (by decide +kernel)

/-- The first review came back to a source it had not answered. -/
theorem faultyReview_redelivered_iff :
    healthyThenFaulty.Unchanged
        (healthyThenFaulty.recordLogHealth logEnvironment (summerMorning + 2 * minute) firstJob
          (haReview .ok [])).2 ↔
      ∀ source ∈ (haReview .ok []).sources, healthyThenFaulty.Answered source.source firstJob := by
  have processed : LogHealth.empty.recordLogHealth logEnvironment summerMorning firstJob
      (haReview .ok []) = (.ok [], (LogHealth.empty.recordLogHealth logEnvironment summerMorning
        firstJob (haReview .ok [])).2) := rfl
  exact redelivered_iff tracked_empty processed _ _

end OhanaAgent.Tsunade
