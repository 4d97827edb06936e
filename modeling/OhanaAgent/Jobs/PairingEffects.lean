import OhanaAgent.Jobs.Effects
import OhanaAgent.Store.Rewrites

/-!
# What each operation does to the pairing requests

One specification lemma for each pairing operation and for the identity
migration, and one inversion for every call: it leaves the requests and the
credentials alone, or it is one of these operations and it succeeded.
-/

namespace OhanaAgent.Jobs

open OhanaAgent.Encoding.Json
open OhanaAgent.Store
open OhanaAgent.Time

variable {env : Environment} {config : Config} {now : Int} {db after : Database}

/-! ## The pairing operations -/

/-- What `_expire_pairings_locked` makes of a request. -/
def PairingRow.swept (env : Environment) (now : Int) (row : PairingRow) : PairingRow :=
  if row.status.live ∧ env.timestamp row.expiresAt ≤ env.timestamp now then
    { row with status := .expired }
  else row

theorem rows_expirePairings (db : Database) :
    (db.expirePairings env now).pairings.rows = db.pairings.rows.map (PairingRow.swept env now) :=
  rfl

theorem selectPairingRequired_eq_ok {pairingId : Text} {row : PairingRow} :
    db.selectPairingRequired pairingId = .ok row ↔ db.pairings.find? pairingId = some row := by
  unfold Database.selectPairingRequired
  cases db.pairings.find? pairingId <;> simp

theorem mem_updatePairing {pairingId : Text} {row : PairingRow} (f : PairingRow → PairingRow)
    (keeps : ∀ row, (f row).pairingId = row.pairingId) (member : row ∈ db.pairings)
    (sameId : row.pairingId = pairingId) : f row ∈ (db.updatePairing pairingId f keeps).pairings := by
  have written : f row ∈ db.pairings.modify pairingId f keeps :=
    Table.mem_modify.mpr (Or.inl ⟨row, member, sameId, rfl⟩)
  exact written

/-- The request that `create_pairing` inserts. -/
def Registration.pairing (env : Environment) (config : Config) (now : Int)
    (request : Registration) (pairingId pollingSecret verificationCode : Text) : PairingRow where
  pairingId := pairingId
  workerId := request.workerId
  protocolVersion := 1
  capabilities := request.capabilities
  platform := request.platform
  workerVersion := request.workerVersion
  pollingSecretSha256 := env.sha256 pollingSecret
  verificationCode := verificationCode
  status := .pending
  createdAt := now
  expiresAt := now + seconds config.pairingTtlSeconds
  approvedAt := none
  consumedAt := none

/-- A successful creation appends a request of a worker that has no live one. -/
theorem createPairing_eq_ok {request : Registration} {pairingId secret code : Text}
    {row : PairingRow}
    (done : db.createPairing env config now request pairingId secret code = .ok (row, after)) :
    (∀ other ∈ (db.expirePairings env now).pairings, other.workerId = request.workerId →
        other.status.live = false) ∧
      ((db.expirePairings env now).pairings.rows.filter fun row => row.status.live).length <
        config.maxPendingPairings ∧
      (∀ other ∈ (db.expirePairings env now).pairings, other.pairingId ≠ pairingId) ∧
      after.pairings.rows = (db.expirePairings env now).pairings.rows ++
        [request.pairing env config now pairingId secret code] ∧
      after.credentials = db.credentials := by
  unfold Database.createPairing at done
  dsimp only at done
  split at done
  · simp at done
  · rename_i free
    split at done
    · simp at done
    · rename_i room
      split at done
      · rename_i pairings inserted
        simp only [pure_eq_ok, Prod.mk.injEq] at done
        obtain ⟨rfl, rfl⟩ := done
        obtain ⟨fresh, rows⟩ := Table.insert?_eq_some_iff.mp inserted
        refine ⟨?_, Nat.lt_of_not_le room, fresh, rows, rfl⟩
        intro other member same
        cases live : other.status.live with
        | false => rfl
        | true =>
            refine absurd (List.any_eq_true.mpr ⟨other, member, ?_⟩) free
            simp [same, live]
      · simp at done

/-- A request that `approve_pairing` wrote. -/
def PairingRow.approved (now : Int) (row : PairingRow) : PairingRow :=
  { row with status := .approved, approvedAt := some now }

theorem PairingRow.pairingId_approved (now : Int) (row : PairingRow) :
    (row.approved now).pairingId = row.pairingId := rfl

/-- A request that `reject_pairing` wrote. -/
def PairingRow.rejected (row : PairingRow) : PairingRow :=
  { row with status := .rejected }

theorem PairingRow.pairingId_rejected (row : PairingRow) :
    row.rejected.pairingId = row.pairingId := rfl

/-- A request that `poll_pairing` wrote. -/
def PairingRow.consumed (now : Int) (row : PairingRow) : PairingRow :=
  { row with status := .consumed, consumedAt := some now }

theorem PairingRow.pairingId_consumed (now : Int) (row : PairingRow) :
    (row.consumed now).pairingId = row.pairingId := rfl

theorem approvePairing_eq_ok {pairingId : Text} {row : PairingRow}
    (done : db.approvePairing env now pairingId = .ok (row, after)) :
    ∃ old, (db.expirePairings env now).pairings.find? pairingId = some old ∧
      ((old.status = .approved ∧ after = db.expirePairings env now) ∨
        (old.status = .pending ∧ after = (db.expirePairings env now).updatePairing pairingId
          (PairingRow.approved now) (PairingRow.pairingId_approved now))) := by
  simp only [Database.approvePairing, bind_eq_ok, selectPairingRequired_eq_ok] at done
  obtain ⟨old, found, done⟩ := done
  split at done
  · rename_i approved
    simp only [pure_eq_ok, Prod.mk.injEq] at done
    exact ⟨old, found, Or.inl ⟨approved, done.2.symm⟩⟩
  · split at done
    · simp at done
    · rename_i pending
      simp only [bind_eq_ok, pure_eq_ok, Prod.mk.injEq] at done
      obtain ⟨_, _, _, rfl⟩ := done
      exact ⟨old, found, Or.inr ⟨not_not.mp pending, rfl⟩⟩

theorem rejectPairing_eq_ok {pairingId : Text} {row : PairingRow}
    (done : db.rejectPairing env now pairingId = .ok (row, after)) :
    ∃ old, (db.expirePairings env now).pairings.find? pairingId = some old ∧
      ((old.status = .rejected ∧ after = db.expirePairings env now) ∨
        (old.status.live = true ∧ after = (db.expirePairings env now).updatePairing pairingId
          PairingRow.rejected PairingRow.pairingId_rejected)) := by
  simp only [Database.rejectPairing, bind_eq_ok, selectPairingRequired_eq_ok] at done
  obtain ⟨old, found, done⟩ := done
  split at done
  · rename_i rejected
    simp only [pure_eq_ok, Prod.mk.injEq] at done
    exact ⟨old, found, Or.inl ⟨rejected, done.2.symm⟩⟩
  · split at done
    · simp at done
    · rename_i live
      simp only [bind_eq_ok, pure_eq_ok, Prod.mk.injEq] at done
      obtain ⟨_, _, _, rfl⟩ := done
      exact ⟨old, found, Or.inr ⟨not_not.mp live, rfl⟩⟩

/-- The credential that `poll_pairing` issues for a request. -/
def PairingRow.credential (env : Environment) (now : Int) (token : Text) (row : PairingRow) :
    CredentialRow where
  workerId := row.workerId
  tokenSha256 := env.sha256 token
  createdAt := now
  revokedAt := none

/-- The credential of the worker is the new one, the others are unchanged. -/
theorem storeCredential_eq_ok {credential : CredentialRow}
    (done : db.storeCredential credential = .ok after) :
    after.pairings = db.pairings ∧ after.credentials.find? credential.workerId = some credential ∧
      ∀ other, other ≠ credential.workerId →
        after.credentials.find? other = db.credentials.find? other := by
  unfold Database.storeCredential at done
  split at done
  · rename_i row found
    cases done
    refine ⟨rfl, ?_, fun other different => ?_⟩
    · obtain ⟨_, same⟩ := Table.find?_eq_some_iff.mp found
      rw [Table.find?_modify_self, found, Option.map_some, same]
    · rw [Table.find?_modify_of_ne different]
  · rename_i absent
    split at done
    · rename_i credentials inserted
      cases done
      obtain ⟨fresh, rows⟩ := Table.insert?_eq_some_iff.mp inserted
      refine ⟨rfl, Table.find?_eq_some_iff.mpr ⟨?_, rfl⟩, fun other different => ?_⟩
      · rw [Table.mem_def, rows]
        exact List.mem_append_right _ List.mem_cons_self
      · simp [Table.find?, rows, List.find?_append, Ne.symm different]
    · contradiction

/-- A successful poll presents the secret of a request; it issues a token when
the request is approved. -/
theorem pollPairing_eq_ok {pairingId secret token : Text} {row : PairingRow}
    {issued : Option Text}
    (done : db.pollPairing env now pairingId secret token = .ok ((row, issued), after)) :
    ∃ old, (db.expirePairings env now).pairings.find? pairingId = some old ∧
      old.pollingSecretSha256 = env.sha256 secret ∧
      ((old.status = .approved ∧ issued = some token ∧ row = old.consumed now ∧
          ∃ stored, (db.expirePairings env now).storeCredential (old.credential env now token) =
            .ok stored ∧ after = stored.updatePairing pairingId (PairingRow.consumed now)
              (PairingRow.pairingId_consumed now)) ∨
        (old.status ≠ .approved ∧ issued = none ∧ row = old ∧
          after = db.expirePairings env now)) := by
  simp only [Database.pollPairing, bind_eq_ok, selectPairingRequired_eq_ok] at done
  obtain ⟨old, found, done⟩ := done
  split at done
  · simp at done
  · rename_i secretMatches
    split at done
    · rename_i approved
      simp only [bind_eq_ok, pure_eq_ok, Prod.mk.injEq, selectPairingRequired_eq_ok] at done
      obtain ⟨stored, credential, written, read, ⟨rfl, rfl⟩, rfl⟩ := done
      have kept := (storeCredential_eq_ok credential).1
      have writtenRow : written = old.consumed now := by
        have same : (stored.pairings.modify pairingId (PairingRow.consumed now)
            (PairingRow.pairingId_consumed now)).find? pairingId = some written := read
        rw [Table.find?_modify_self, kept, found] at same
        exact (Option.some.inj same).symm
      exact ⟨old, found, not_not.mp secretMatches,
        Or.inl ⟨approved, rfl, writtenRow, stored, credential, rfl⟩⟩
    · rename_i other
      simp only [pure_eq_ok, Prod.mk.injEq] at done
      obtain ⟨⟨rfl, rfl⟩, rfl⟩ := done
      exact ⟨old, found, not_not.mp secretMatches, Or.inr ⟨other, rfl, rfl, rfl⟩⟩

/-! ## The migration of an identity -/

/-- A request whose worker was renamed. -/
def PairingRow.renamed (previous workerId : Text) (row : PairingRow) : PairingRow :=
  if row.workerId = previous then { row with workerId } else row

/-- The identity can move: the old one has a credential, the new one has
neither a credential nor a worker. -/
def Database.Renamable (db : Database) (previous workerId : Text) : Prop :=
  db.credentials.find? workerId = none ∧ (db.credentials.find? previous).isSome ∧
    db.workers.find? workerId = none

theorem migrateWorkerIdentity_eq_ok {previous workerId : Text}
    (done : db.migrateWorkerIdentity previous workerId = .ok after) :
    db.Renamable previous workerId ∧
      after.pairings.rows = db.pairings.rows.map (PairingRow.renamed previous workerId) ∧
      after.credentials.rows = db.credentials.rows.map fun row =>
        if row.workerId = previous then { row with workerId } else row := by
  unfold Database.migrateWorkerIdentity at done
  split at done
  · simp at done
  · rename_i untaken
    split at done
    · simp at done
    · rename_i paired
      split at done
      · simp at done
      · rename_i unknown
        split at done
        · rename_i credentials workers rekeyed _
          simp only [pure_eq_ok] at done
          subst done
          refine ⟨⟨by simpa using untaken, ?_, by simpa using unknown⟩, rfl, Table.rekey?_eq_some rekeyed⟩
          simpa [Option.isNone_iff_eq_none, ← Option.isSome_iff_ne_none] using paired
        · simp at done

/-- A renamable identity moves. -/
theorem exists_migrateWorkerIdentity {previous workerId : Text}
    (renamable : db.Renamable previous workerId) :
    ∃ after, db.migrateWorkerIdentity previous workerId = .ok after := by
  obtain ⟨untaken, paired, unknown⟩ := renamable
  obtain ⟨credentials, rekeyed⟩ := db.credentials.exists_rekey? previous
    (fun row => { row with workerId }) (fun _ => rfl) untaken
  obtain ⟨workers, moved⟩ := db.workers.exists_rekey? previous
    (fun row => { row with workerId }) (fun _ => rfl) unknown
  unfold Database.migrateWorkerIdentity
  rw [if_neg (by simp [untaken]), if_neg (by simpa [Option.isNone_iff_eq_none,
    ← Option.isSome_iff_ne_none] using paired), if_neg (by simp [unknown]), rekeyed, moved]
  exact ⟨_, rfl⟩

/-! ## Every call -/

theorem samePairings_transition (row : JobRow) (change : Transition) (db : Database) :
    SamePairings db (db.transition row change now) :=
  ⟨rfl, rfl⟩

theorem samePairings_recover (db : Database) : SamePairings db (db.recover env config now) := by
  have loop : ∀ (rows : List JobRow) (db : Database),
      SamePairings db (rows.foldl (Database.recoverRow config now) db) := by
    intro rows
    induction rows with
    | nil => exact fun db => .refl db
    | cons row rows ih =>
        intro db
        refine .trans ?_ (ih (db.recoverRow config now row))
        unfold Database.recoverRow
        split
        · exact samePairings_transition row _ db
        · exact .refl db
  have swept := loop (db.jobs.rows.filter fun row => row.status.recoverable) db
  exact ⟨swept.pairings, swept.credentials⟩

theorem samePairings_enqueue {job : NewJob} {answer : JobDocument}
    (done : db.enqueue env config now job = .ok (answer, after)) : SamePairings db after := by
  unfold Database.enqueue at done
  dsimp only at done
  split at done
  · split at done
    · simp at done
    · simp only [bind_eq_ok, pure_eq_ok, Prod.mk.injEq] at done
      obtain ⟨_, _, _, rfl⟩ := done
      exact samePairings_recover db
  · split at done
    · simp at done
    · split at done
      · simp at done
      · simp only [bind_eq_ok, pure_eq_ok, Prod.mk.injEq] at done
        obtain ⟨_, _, _, _, _, rfl⟩ := done
        have recovered : SamePairings db (db.recover env config now) := samePairings_recover db
        exact ⟨recovered.pairings, recovered.credentials⟩

/-- What a call does to the pairing requests and the credentials. -/
inductive PairingEffect (env : Environment) (config : Config) (call : Call) (db : Database) :
    Database → Prop
  | aside {after : Database} (same : SamePairings db after) : PairingEffect env config call db after
  | listed : PairingEffect env config call db (db.expirePairings env call.now)
  | created {payload : RegistrationPayload} {registration : Registration}
      {pairingId secret code : Text} {row : PairingRow} {after : Database}
      (asked : call.operation = .createPairing payload pairingId secret code)
      (valid : Registration.validate payload = .ok registration)
      (done : db.createPairing env config call.now registration pairingId secret code =
        .ok (row, after)) : PairingEffect env config call db after
  | approved {pairingId : Text} {row : PairingRow} {after : Database}
      (asked : call.operation = .approvePairing pairingId)
      (done : db.approvePairing env call.now pairingId = .ok (row, after)) :
      PairingEffect env config call db after
  | rejected {pairingId : Text} {row : PairingRow} {after : Database}
      (asked : call.operation = .rejectPairing pairingId)
      (done : db.rejectPairing env call.now pairingId = .ok (row, after)) :
      PairingEffect env config call db after
  | polled {pairingId secret token : Text} {row : PairingRow} {issued : Option Text}
      {after : Database} (asked : call.operation = .pollPairing pairingId secret token)
      (done : db.pollPairing env call.now pairingId secret token = .ok ((row, issued), after)) :
      PairingEffect env config call db after
  | migrated {payload : RegistrationPayload} {registration : Registration} {previous : Text}
      {migrated after : Database}
      (asked : call.operation = .registerWorker payload (some previous))
      (valid : Registration.validate payload = .ok registration)
      (different : previous ≠ [] ∧ previous ≠ registration.workerId)
      (done : db.migrateWorkerIdentity previous registration.workerId = .ok migrated)
      (same : SamePairings migrated after) : PairingEffect env config call db after

/-- A body whose success has an effect; its failure leaves everything. -/
theorem answering_pairingEffect {call : Call} {α : Type} {wrap : α → Answer}
    {body : Database → Except Failure (α × Database)}
    (effect : ∀ answer next, body db = .ok (answer, next) → PairingEffect env config call db next) :
    PairingEffect env config call db (answering wrap body db).2 :=
  answering_induction (.aside (.refl db)) effect

theorem pairingEffect_registerWorker {call : Call} {payload : RegistrationPayload}
    {registration : Registration} {previousWorkerId : Option Text} {row : WorkerRow}
    (asked : call.operation = .registerWorker payload previousWorkerId)
    (valid : Registration.validate payload = .ok registration)
    (done : db.registerWorker call.now registration previousWorkerId = .ok (row, after)) :
    PairingEffect env config call db after := by
  obtain ⟨migrated, migration, same⟩ := registerWorker_eq_ok done
  unfold Database.migrateIfRenamed at migration
  split at migration
  · cases migration
    exact .aside same.toSamePairings
  · split at migration
    · rename_i different
      exact .migrated asked valid different migration same.toSamePairings
    · cases migration
      exact .aside same.toSamePairings

theorem pairingEffect_run (call : Call) (db : Database) :
    PairingEffect env config call db (call.operation.run env config call.now db).2 := by
  obtain ⟨now, operation⟩ := call
  have kept : SamePairings db (db.recover env config now) := samePairings_recover db
  have recovered : PairingEffect env config ⟨now, operation⟩ db (db.recover env config now) :=
    .aside kept
  cases operation with
  | create payload =>
      refine answering_pairingEffect fun answer next done => ?_
      obtain ⟨job, _, enqueued⟩ := create_eq_ok done
      exact .aside (samePairings_enqueue enqueued)
  | get jobId =>
      refine answering_pairingEffect fun answer next done => ?_
      obtain ⟨_, _, _, rfl⟩ := get_eq_ok.mp done
      exact recovered
  | latest typeName =>
      simp only [Operation.run, Database.latest]
      split
      · exact .aside (.refl db)
      · dsimp only [Database.recoveredRows]
        split
        · exact recovered
        · exact recovered
  | latestForIncident typeName incidentId status =>
      simp only [Operation.run, Database.latestForIncident]
      split
      · exact .aside (.refl db)
      · dsimp only [Database.recoveredRows]
        split
        · exact recovered
        · exact recovered
  | activeForIncident typeName incidentId =>
      refine answering_pairingEffect fun answer next done => ?_
      simp only [Database.activeForIncident, bind_eq_ok, Database.recoveredRows] at done
      obtain ⟨_, _, done⟩ := done
      split at done
      · simp only [pure_eq_ok, Prod.mk.injEq] at done
        obtain ⟨_, rfl⟩ := done
        exact recovered
      · simp only [bind_eq_ok, pure_eq_ok, Prod.mk.injEq] at done
        obtain ⟨_, _, _, rfl⟩ := done
        exact recovered
  | cancel jobId =>
      refine answering_pairingEffect fun answer next done => ?_
      rcases cancel_eq_ok done with rfl | ⟨row, _, _, rfl⟩
      · exact recovered
      · exact .aside (kept.trans (samePairings_transition row _ _))
  | claim workerId supportedTypes shutdownAfterCompletion settle =>
      refine answering_pairingEffect fun answer next done => ?_
      rcases claim_eq_ok done with ⟨_, rfl | same⟩ | ⟨row, _, _, rfl, _⟩
      · exact .aside (.refl _)
      · exact .aside (kept.trans same.toSamePairings)
      · exact .aside ⟨kept.pairings, kept.credentials⟩
  | pendingCompletions failuresOnly =>
      refine answering_pairingEffect fun answer next done => ?_
      simp only [Database.pendingCompletions, bind_eq_ok, pure_eq_ok, Prod.mk.injEq] at done
      obtain ⟨_, _, _, rfl⟩ := done
      exact recovered
  | markCompletionProcessed jobId => exact .aside ⟨rfl, rfl⟩
  | authorizeJobTransfer jobId workerId attempt permitted =>
      refine answering_pairingEffect fun answer next done => ?_
      exact .aside (kept.trans (authorizeJobTransfer_eq_ok done).toSamePairings)
  | heartbeat jobId workerId attempt progress =>
      refine answering_pairingEffect fun answer next done => ?_
      obtain ⟨heartbeat, _, _, renewed⟩ := heartbeat_eq_ok done
      obtain ⟨row, _, _, _, ⟨_, rfl⟩ | ⟨_, _, rfl⟩⟩ := renew_eq_ok renewed
      · exact recovered
      · exact .aside ⟨kept.pairings, kept.credentials⟩
  | complete jobId payload =>
      refine answering_pairingEffect fun answer next done => ?_
      obtain ⟨completion, _, _, _, finished⟩ := complete_eq_ok done
      obtain ⟨row, stored, _, _, ⟨_, _, rfl⟩ | ⟨_, _, _, _, rfl⟩⟩ := finish_eq_ok finished
      · exact recovered
      · exact .aside ⟨kept.pairings, kept.credentials⟩
  | wakeReadyJobTypes batchWindowSeconds jobTypes createdAfter createdBefore =>
      refine answering_pairingEffect fun answer next done => ?_
      unfold Database.wakeReadyJobTypes at done
      split at done
      · contradiction
      · split at done
        · cases done
          exact .aside (.refl _)
        · cases done
          exact recovered
  | registerWorker payload previousWorkerId =>
      refine answering_pairingEffect fun answer next done => ?_
      obtain ⟨registration, valid, registered⟩ := bind_eq_ok.mp done
      exact pairingEffect_registerWorker rfl valid registered
  | reportWorkerRuntimes workerId runtimes host =>
      exact answering_pairingEffect fun answer next done =>
        .aside (workersOnly_reportWorkerRuntimes done).toSamePairings
  | markWorkerWaking workerId timeoutSeconds trigger =>
      exact answering_pairingEffect fun answer next done =>
        .aside (workersOnly_markWorkerWaking done).toSamePairings
  | reportWorkerPower workerId started detail =>
      exact answering_pairingEffect fun answer next done =>
        .aside (workersOnly_reportWorkerPower done).toSamePairings
  | settleUnansweredWakes maxAttempts =>
      exact .aside (workersOnly_settleUnansweredWakes maxAttempts db).toSamePairings
  | recordWakeFailure workerId error trigger =>
      exact .aside (workersOnly_powerEvent _ _ _ _ db).toSamePairings
  | createPairing payload pairingId pollingSecret verificationCode =>
      refine answering_pairingEffect fun answer next done => ?_
      obtain ⟨registration, valid, created⟩ := bind_eq_ok.mp done
      exact .created rfl valid created
  | listPairings => exact .listed
  | approvePairing pairingId =>
      exact answering_pairingEffect fun answer next done => .approved rfl done
  | rejectPairing pairingId =>
      exact answering_pairingEffect fun answer next done => .rejected rfl done
  | pollPairing pairingId pollingSecret workerToken =>
      exact answering_pairingEffect fun answer next done => .polled rfl done

/-! ## What becomes of a request -/

/-- The call is answered without an exception. -/
def Accepted (env : Environment) (config : Config) (db : Database) (call : Call) : Prop :=
  ∃ answer, (call.operation.run env config call.now db).1 = .ok answer

/-- A successful approval of a request. -/
def Approves (env : Environment) (config : Config) (pairingId : Text) (db : Database)
    (call : Call) : Prop :=
  call.operation = .approvePairing pairingId ∧ Accepted env config db call

/-- Membership in `('APPROVED', 'CONSUMED')`: the request was approved. -/
def PairingStatus.granted : PairingStatus → Bool
  | .approved | .consumed => true
  | _ => false

/-- A request that keeps its secret, does not become live again, and is granted
by an approval only. -/
structure Proceeds (approves : Text → Prop) (row next : PairingRow) : Prop where
  pairingId : next.pairingId = row.pairingId
  secret : next.pollingSecretSha256 = row.pollingSecretSha256
  live : next.status.live = true → row.status.live = true
  granted : next.status.granted = true → row.status.granted = true ∨ approves row.pairingId

/-- A request that proceeds under the same worker. -/
structure Fades (approves : Text → Prop) (row next : PairingRow) : Prop extends
    Proceeds approves row next where
  workerId : next.workerId = row.workerId

variable {approves : Text → Prop}

theorem Fades.refl (row : PairingRow) : Fades approves row row :=
  ⟨⟨rfl, rfl, id, Or.inl⟩, rfl⟩

theorem Fades.trans {first second third : PairingRow} (left : Fades approves first second)
    (right : Fades approves second third) : Fades approves first third where
  pairingId := right.pairingId.trans left.pairingId
  secret := right.secret.trans left.secret
  live := left.live ∘ right.live
  granted := fun granted => by
    rcases right.granted granted with earlier | asked
    · exact left.granted earlier
    · exact Or.inr (left.pairingId ▸ asked)
  workerId := right.workerId.trans left.workerId

theorem fades_swept (row : PairingRow) : Fades approves row (row.swept env now) := by
  unfold PairingRow.swept
  split
  · exact ⟨⟨rfl, rfl, fun live => absurd live (by simp [PairingStatus.live]),
      fun granted => absurd granted (by simp [PairingStatus.granted])⟩, rfl⟩
  · exact .refl row

theorem fades_expirePairings (approves : Text → Prop) (db : Database) :
    Table.Rewrites (Fades approves) db.pairings (db.expirePairings env now).pairings := by
  unfold Table.Rewrites
  rw [rows_expirePairings, List.forall₂_map_right_iff, List.forall₂_same]
  exact fun row _ => fades_swept row

/-- The write of a decision changes its request alone. -/
theorem fades_updatePairing {pairingId : Text} {old : PairingRow} {f : PairingRow → PairingRow}
    {keeps : ∀ row, (f row).pairingId = row.pairingId}
    (found : db.pairings.find? pairingId = some old) (fades : Fades approves old (f old)) :
    Table.Rewrites (Fades approves) db.pairings (db.updatePairing pairingId f keeps).pairings := by
  obtain ⟨member, same⟩ := Table.find?_eq_some_iff.mp found
  refine Table.Rewrites.modify keeps (fun row _ _ => .refl row) fun row rowMem rowId => ?_
  rw [db.pairings.key_injective rowMem member (rowId.trans same.symm)]
  exact fades

theorem accepted_of_ok {call : Call} {α : Type} {wrap : α → Answer}
    {body : Database → Except Failure (α × Database)} {answer : α}
    (run : call.operation.run env config call.now db = answering wrap body db)
    (done : body db = .ok (answer, after)) : Accepted env config db call := by
  refine ⟨wrap answer, ?_⟩
  rw [run, answering, commit_of_ok done]
  rfl

/-- A call lets the requests fade, or it creates one, or it renames a worker. -/
theorem fades_of_effect {call : Call} (effect : PairingEffect env config call db after) :
    Table.Rewrites (Fades fun pairingId => Approves env config pairingId db call) db.pairings
        after.pairings ∨
      (∃ payload registration pairingId secret code row,
        call.operation = .createPairing payload pairingId secret code ∧
        Registration.validate payload = .ok registration ∧
        db.createPairing env config call.now registration pairingId secret code =
          .ok (row, after)) ∨
      ∃ payload registration previous migrated,
        call.operation = .registerWorker payload (some previous) ∧
        Registration.validate payload = .ok registration ∧
        (previous ≠ [] ∧ previous ≠ registration.workerId) ∧
        db.migrateWorkerIdentity previous registration.workerId = .ok migrated ∧
        SamePairings migrated after := by
  have swept : Table.Rewrites (Fades fun pairingId => Approves env config pairingId db call)
      db.pairings (db.expirePairings env call.now).pairings := fades_expirePairings _ db
  cases effect with
  | aside same => exact Or.inl (Table.Rewrites.of_eq Fades.refl same.pairings)
  | listed => exact Or.inl swept
  | created asked valid done => exact Or.inr (Or.inl ⟨_, _, _, _, _, _, asked, valid, done⟩)
  | approved asked done =>
      have accepted : Accepted env config db call :=
        accepted_of_ok (by rw [asked]; rfl) done
      obtain ⟨old, found, ⟨_, rfl⟩ | ⟨pending, rfl⟩⟩ := approvePairing_eq_ok done
      · exact Or.inl swept
      · refine Or.inl (swept.comp (fades_updatePairing found ⟨⟨rfl, rfl, fun _ => ?_, fun _ => ?_⟩,
          rfl⟩) Fades.trans)
        · simp [pending, PairingStatus.live]
        · rw [← (Table.find?_eq_some_iff.mp found).2] at asked
          exact Or.inr ⟨asked, accepted⟩
  | rejected asked done =>
      obtain ⟨old, found, ⟨_, rfl⟩ | ⟨live, rfl⟩⟩ := rejectPairing_eq_ok done
      · exact Or.inl swept
      · refine Or.inl (swept.comp (fades_updatePairing found ⟨⟨rfl, rfl, fun _ => live,
          fun granted => ?_⟩, rfl⟩) Fades.trans)
        simp [PairingRow.rejected, PairingStatus.granted] at granted
  | polled asked done =>
      obtain ⟨old, found, _, ⟨approved, _, _, stored, credential, rfl⟩ | ⟨_, _, _, rfl⟩⟩ :=
        pollPairing_eq_ok done
      · have kept := (storeCredential_eq_ok credential).1
        rw [← kept] at found swept
        refine Or.inl (swept.comp (fades_updatePairing found ⟨⟨rfl, rfl, fun _ => ?_,
          fun _ => Or.inl ?_⟩, rfl⟩) Fades.trans)
        · simp [approved, PairingStatus.live]
        · simp [approved, PairingStatus.granted]
      · exact Or.inl swept
  | migrated asked valid different done same =>
      exact Or.inr (Or.inr ⟨_, _, _, _, asked, valid, different, done, same⟩)

end OhanaAgent.Jobs
