import OhanaAgent.Jobs.Recovery

/-!
# Worker registration, availability and the power journal

The operations of `DistributedWorkerRegistry`.  Except for an identity
migration, which renames the owner of jobs, they only read the job table.
-/

namespace OhanaAgent.Jobs

open OhanaAgent.Encoding.Json
open OhanaAgent.Store
open OhanaAgent.Time

def lateAnswerSeconds : Nat := 1800

def powerEventRetention : Nat := 200

/-- `sorted(set(values))`. -/
def sortedSet (values : List Text) : List Text :=
  values.dedup.insertionSort (· ≤ ·)

/-- The number of a JSON document. -/
def natValue (n : Nat) : Value :=
  .number (.ofNat n)

/-- `round` of a duration to whole seconds, half to even. -/
def roundSeconds (duration : Int) : Int :=
  let whole := duration / second
  let rest := duration % second
  if 2 * rest < second then whole
  else if second < 2 * rest then whole + 1
  else if whole % 2 = 0 then whole else whole + 1

def isHexDigit (c : Char) : Bool :=
  c.isDigit || ('a' ≤ c && c ≤ 'f') || ('A' ≤ c && c ≤ 'F')

/-- `MAC_ADDRESS_PATTERN`: six pairs of hexadecimal digits. -/
def isMacAddress : Nat → Text → Bool
  | 0, [a, b] => isHexDigit a && isHexDigit b
  | n + 1, a :: b :: ':' :: rest => isHexDigit a && isHexDigit b && isMacAddress n rest
  | _, _ => false

/-- `DistributedWorkerRegistration` before its model checks it. -/
structure RegistrationPayload where
  workerId : Text
  capabilities : List Text
  platform : Text
  workerVersion : Text
  wakeOnLanMacAddress : Option Text

/-- `DistributedWorkerRegistration` with its capabilities normalized. -/
structure Registration where
  workerId : Text
  capabilities : List JobType
  platform : Text
  workerVersion : Text
  wakeOnLanMacAddress : Option Text

/-- `normalize_wake_on_lan_mac_address`. -/
def normalizeMacAddress : Option Text → Except Failure (Option Text)
  | none => .ok none
  | some value =>
      let normalized := value.map fun c => (if c = '-' then ':' else c).toUpper
      if isMacAddress 5 normalized then .ok (some normalized)
      else .error (.value "wake_on_lan_mac_address must use the AA:BB:CC:DD:EE:FF format")

/-- The announced capabilities, sorted; an unknown one is refused. -/
def supportedCapabilities (announced : List Text) : Except Failure (List JobType) :=
  let capabilities := sortedSet announced
  let unsupported := capabilities.filter fun name => (JobType.ofText name).isNone
  if unsupported.isEmpty then .ok (capabilities.filterMap JobType.ofText)
  else .error (.value ("unsupported worker capabilities: " ++
    String.intercalate ", " (unsupported.map String.ofList)))

/-- The checks of the registration model and of the announced capabilities. -/
def Registration.validate (payload : RegistrationPayload) : Except Failure Registration := do
  if isWorkerId payload.workerId && 1 ≤ payload.capabilities.length &&
      payload.capabilities.length ≤ 32 && 1 ≤ payload.platform.length &&
      payload.platform.length ≤ 100 && 1 ≤ payload.workerVersion.length &&
      payload.workerVersion.length ≤ 40 then
    let address ← normalizeMacAddress payload.wakeOnLanMacAddress
    let capabilities ← supportedCapabilities payload.capabilities
    return ⟨payload.workerId, capabilities, payload.platform, payload.workerVersion, address⟩
  else
    throw (.value "worker registration is not valid")

/-- `DistributedWorkerAvailability`. -/
inductive Availability where
  | available
  | unavailable
  | waking
  deriving DecidableEq, Repr

/-- The availability `_worker_document` computes. -/
def WorkerRow.availability (config : Config) (now : Int) (row : WorkerRow) : Availability :=
  if now ≤ row.lastSeenAt + seconds config.workerAvailableSeconds then .available
  else if ∃ deadline ∈ row.wakeDeadlineAt, now ≤ deadline then .waking
  else .unavailable

namespace Database

/-- The events of one worker, oldest first. -/
def journal (db : Database) (workerId : Text) : List PowerEvent :=
  db.powerEvents.filter fun event => event.workerId = workerId

/-- The last power event of a worker. -/
def lastPowerEvent (db : Database) (workerId : Text) : Option PowerEvent :=
  (db.journal workerId).getLast?

/-- `_power_event_locked`: append, then keep the last events of the worker. -/
def powerEvent (db : Database) (workerId : Text) (kind : PowerEventKind) (now : Int)
    (detail : Value) : Database :=
  let appended := db.powerEvents ++ [
    { eventId := db.nextPowerEvent
      workerId := workerId
      occurredAt := now
      kind := kind
      detail := detail }]
  let newer (event : PowerEvent) : Nat :=
    (appended.filter fun other =>
      other.workerId = workerId && event.eventId < other.eventId).length
  { db with
    powerEvents := appended.filter fun event =>
      event.workerId ≠ workerId || newer event < powerEventRetention
    nextPowerEvent := db.nextPowerEvent + 1 }

/-- `_unanswered_wakes_locked`: the unanswered wakes since the last connection
or abandonment. -/
def unansweredWakes (db : Database) (workerId : Text) : Nat :=
  let recent := (db.journal workerId).reverse.takeWhile fun event =>
    event.kind ≠ .workerOnline && event.kind ≠ .wakeAbandoned
  (recent.filter fun event => event.kind = .wakeTimeout).length

/-- `_pending_jobs_locked`: the jobs that wait for the worker, per type. -/
def pendingJobs (db : Database) (worker : WorkerRow) : List (JobType × Nat) :=
  (JobType.all.filter fun type => type ∈ worker.capabilities).filterMap fun type =>
    let total := (db.jobs.rows.filter fun row => row.status.claimable && row.type = type).length
    if total = 0 then none else some (type, total)

/-- Counts per type as a JSON object. -/
def countsValue (counts : List (JobType × Nat)) : Value :=
  .object (.ofList (counts.map fun entry => (entry.1.text, natValue entry.2)))

/-- `_executed_since_locked`: what the worker ran since Ohana woke it. -/
def executedSince (db : Database) (worker : WorkerRow) : Value :=
  let rows : List JobRow := match worker.wakeRequestedAt with
    | none => []
    | some requested => db.jobs.rows.filter fun row =>
        row.workerId = some worker.workerId &&
          decide (∃ started ∈ row.startedAt, julianday requested ≤ julianday started)
  let executed := JobType.all.filterMap fun type =>
    let total := (rows.filter fun row => row.type = type).length
    if total = 0 then none else some (type, total)
  let failed := (rows.filter fun row => row.status = .failed || row.status = .timeout).length
  .object (.ofList [("executed".toList, countsValue executed), ("failed".toList, natValue failed)])

/-- `_touch_worker_locked`. -/
def touchWorker (db : Database) (workerId : Text) (now : Int) : Database :=
  { db with
    workers := db.workers.modify workerId (fun row => { row with lastSeenAt := now })
      fun _ => rfl }

/-- `_record_worker_online_locked`: the first registration after a wake. -/
def recordWorkerOnline (db : Database) (workerId : Text) (requestedAt now : Int)
    (expired : Bool) : Database :=
  match db.lastPowerEvent workerId with
  | none => db
  | some last =>
      if last.kind = .wakeSent ∨ last.kind = .wakeTimeout ∨ last.kind = .wakeAbandoned then
        let elapsed := (max 0 (roundSeconds (now - requestedAt))).toNat
        let detail : Value :=
          if expired || last.kind ≠ .wakeSent then
            if elapsed ≤ lateAnswerSeconds then
              .object (.ofList [("late".toList, .atom .true),
                ("after_seconds".toList, natValue elapsed)])
            else .object (.ofList [("manual".toList, .atom .true)])
          else .object (.ofList [("after_seconds".toList, natValue elapsed)])
        db.powerEvent workerId .workerOnline now detail
      else db

/-- `_migrate_worker_identity_locked`. -/
def migrateWorkerIdentity (db : Database) (previous workerId : Text) :
    Except Failure Database := do
  if (db.credentials.find? workerId).isSome then
    throw (.conflict ("worker identity already exists: " ++ String.ofList workerId))
  else if (db.credentials.find? previous).isNone then
    throw (.lookup ("distributed worker not found: " ++ String.ofList previous))
  else if (db.workers.find? workerId).isSome then
    throw (.conflict ("worker identity already exists: " ++ String.ofList workerId))
  else
    match db.credentials.rekey? previous workerId (fun row => { row with workerId := workerId })
        fun _ => rfl,
      db.workers.rekey? previous workerId (fun row => { row with workerId := workerId })
        fun _ => rfl with
    | some credentials, some workers =>
        return { db with
          credentials := credentials
          workers := workers
          pairings := db.pairings.mapRows
            (fun row => if row.workerId = previous then { row with workerId := workerId } else row)
            fun row => by split <;> rfl
          jobs := db.jobs.mapRows
            (fun row =>
              if row.workerId = some previous then { row with workerId := some workerId } else row)
            fun row => by split <;> rfl }
    | _, _ => throw (.integrity "UNIQUE constraint failed")

/-- The migration at the start of `register_worker`, when an old identity is
given. -/
def migrateIfRenamed (previousWorkerId : Option Text) (workerId : Text) (db : Database) :
    Except Failure Database :=
  match previousWorkerId with
  | none => .ok db
  | some previous =>
      if previous ≠ [] ∧ previous ≠ workerId then db.migrateWorkerIdentity previous workerId
      else .ok db

/-- The row `register_worker` writes: a registration within the wait keeps the
wake, a later one ends it. -/
def registeredRow (now : Int) (registration : Registration) (existing : Option WorkerRow) :
    WorkerRow :=
  let deadline := existing.bind fun row => row.wakeDeadlineAt
  let waking := decide (∃ instant ∈ deadline, now ≤ instant)
  let wokenByOhana := (existing.map fun row => row.wokenByOhana).getD false && waking
  { workerId := registration.workerId
    protocolVersion := 1
    capabilities := registration.capabilities
    platform := registration.platform
    workerVersion := registration.workerVersion
    registeredAt := (existing.map fun row => row.registeredAt).getD now
    lastSeenAt := now
    wokenByOhana := wokenByOhana
    wakeRequestedAt := if wokenByOhana then existing.bind fun row => row.wakeRequestedAt else none
    wakeDeadlineAt := if wokenByOhana then deadline else none
    wakeOnLanMacAddress := registration.wakeOnLanMacAddress.or
      (existing.bind fun row => row.wakeOnLanMacAddress)
    runtimesJson := existing.bind fun row => row.runtimesJson
    runtimesReportedAt := existing.bind fun row => row.runtimesReportedAt
    hostJson := existing.bind fun row => row.hostJson }

/-- `INSERT INTO distributed_workers … ON CONFLICT(worker_id) DO UPDATE`. -/
def upsertWorker (written : WorkerRow) (db : Database) : Except Failure Database :=
  match db.workers.find? written.workerId with
  | some _ => .ok { db with
      workers := db.workers.modify written.workerId
        (fun row => { written with workerId := row.workerId }) fun _ => rfl }
  | none =>
      match db.workers.insert? written with
      | some workers => .ok { db with workers := workers }
      | none => .error (.integrity "UNIQUE constraint failed")

/-- `register_worker`, after its payload was validated. -/
def registerWorker (now : Int) (registration : Registration)
    (previousWorkerId : Option Text) (db : Database) :
    Except Failure (WorkerRow × Database) := do
  let db ← db.migrateIfRenamed previousWorkerId registration.workerId
  let existing := db.workers.find? registration.workerId
  let written := registeredRow now registration existing
  let db ← db.upsertWorker written
  match existing.bind fun row => row.wakeRequestedAt with
  | none => return (written, db)
  | some requested =>
      let expired := decide (∃ row ∈ existing, ∃ instant ∈ row.wakeDeadlineAt, instant < now)
      return (written, db.recordWorkerOnline registration.workerId requested now expired)

/-- `report_worker_runtimes`: the runtimes of the announced capabilities. -/
def reportWorkerRuntimes (now : Int) (workerId : Text) (runtimes : List (Text × Value))
    (host : Option Value) (db : Database) : Except Failure (List (Text × Value) × Database) :=
  match db.workers.find? workerId with
  | none => .error (.lookup ("distributed worker not found: " ++ String.ofList workerId))
  | some row =>
      let kept := runtimes.filter fun entry =>
        match JobType.ofText entry.1 with
        | none => false
        | some type => type ∈ row.capabilities
      .ok (kept, { db with
        workers := db.workers.modify workerId
          (fun row => { row with
            runtimesJson := some (json (.object (.ofList kept)))
            runtimesReportedAt := some now
            lastSeenAt := now
            hostJson := (host.map json).or row.hostJson })
          fun _ => rfl })

/-- Why Ohana sent a wake. -/
def wakeDetail (db : Database) (row : WorkerRow) (trigger : Text) (timeoutSeconds : Nat) : Value :=
  .object (.ofList [
    ("trigger".toList, .string trigger),
    ("attempt".toList, natValue (db.unansweredWakes row.workerId + 1)),
    ("pending_jobs".toList, countsValue (db.pendingJobs row)),
    ("timeout_seconds".toList, natValue timeoutSeconds)])

/-- `mark_worker_waking`. -/
def markWorkerWaking (config : Config) (now : Int) (workerId : Text) (timeoutSeconds : Nat)
    (trigger : Text) (db : Database) : Except Failure (Option WorkerRow × Database) :=
  if timeoutSeconds < 10 ∨ 1800 < timeoutSeconds then
    .error (.value "wake timeout must be between 10 and 1800 seconds")
  else
    match db.workers.find? workerId with
    | none => .error (.lookup ("distributed worker not found: " ++ String.ofList workerId))
    | some row =>
        if row.availability config now = .available then .ok (some row, db)
        else
          let woken := { db with
            workers := db.workers.modify workerId
              (fun row => { row with
                wokenByOhana := true
                wakeRequestedAt := some now
                wakeDeadlineAt := some (now + seconds timeoutSeconds) })
              fun _ => rfl }
          let recorded := woken.powerEvent workerId .wakeSent now
            (woken.wakeDetail row trigger timeoutSeconds)
          .ok (recorded.workers.find? workerId, recorded)

/-- `report_worker_power`: started or vetoed, the cycle is over. -/
def reportWorkerPower (now : Int) (workerId : Text) (started : Bool) (detail : Value)
    (db : Database) : Except Failure (Unit × Database) :=
  match db.workers.find? workerId with
  | none => .error (.lookup ("distributed worker not found: " ++ String.ofList workerId))
  | some _ =>
      let recorded := db.powerEvent workerId
        (if started then .shutdownStarted else .shutdownVetoed) now detail
      .ok ((), { recorded with
        workers := recorded.workers.modify workerId
          (fun row => { row with
            wokenByOhana := false
            wakeRequestedAt := none
            wakeDeadlineAt := none })
          fun _ => rfl })

/-- One turn of the loop of `settle_unanswered_wakes`. -/
def settleUnansweredWake (config : Config) (now : Int) (maxAttempts : Nat) (db : Database)
    (row : WorkerRow) : Database :=
  match row.wakeDeadlineAt, db.lastPowerEvent row.workerId with
  | some deadline, some last =>
      if last.kind ≠ .wakeSent ∨ now ≤ deadline ∨ row.availability config now = .available then db
      else
        let attempt := db.unansweredWakes row.workerId + 1
        let pending := db.pendingJobs row
        let recorded := db.powerEvent row.workerId .wakeTimeout deadline
          (.object (.ofList [("attempt".toList, natValue attempt)]))
        if maxAttempts ≤ attempt ∧ pending ≠ [] then
          recorded.powerEvent row.workerId .wakeAbandoned now
            (.object (.ofList [("attempts".toList, natValue attempt),
              ("pending_jobs".toList, countsValue pending)]))
        else recorded
  | _, _ => db

/-- `settle_unanswered_wakes`. -/
def settleUnansweredWakes (config : Config) (now : Int) (maxAttempts : Nat) (db : Database) :
    Database :=
  (db.workers.rows.filter fun row => row.wakeDeadlineAt.isSome).foldl
    (settleUnansweredWake config now maxAttempts) db

/-- `record_wake_failure`. -/
def recordWakeFailure (now : Int) (workerId error trigger : Text) (db : Database) : Database :=
  db.powerEvent workerId .wakeFailed now
    (.object (.ofList [("trigger".toList, .string trigger),
      ("error".toList, .string (error.take 200))]))

/-- The credential of a worker that is not revoked. -/
def activeCredential (db : Database) (workerId : Text) : Option CredentialRow :=
  (db.credentials.find? workerId).filter fun row => row.revokedAt.isNone

/-- `authorize_worker`: the credential of the worker, or of its previous
identity, has the digest of the token. -/
def authorizeWorker (env : Environment) (workerId token : Text) (previousWorkerId : Option Text)
    (db : Database) : Bool :=
  let previous := previousWorkerId.filter fun previous => previous ≠ [] && previous ≠ workerId
  match (db.activeCredential workerId).or (previous.bind db.activeCredential) with
  | none => false
  | some row => row.tokenSha256 = env.sha256 token

/-- `_idle_shutdown_locked`. -/
def idleShutdown (workerId : Text) (now : Int) (db : Database) : Bool × Database :=
  match db.workers.find? workerId with
  | none => (false, db)
  | some row =>
      if row.wokenByOhana then
        if db.jobs.rows.any fun job =>
            (job.status.recoverable &&
              (job.type ∈ row.capabilities || job.workerId = some workerId)) ||
            !job.completionProcessed then
          (false, db)
        else
          match db.lastPowerEvent workerId with
          | some last =>
              if last.kind = .shutdownGranted then (true, db)
              else (true, db.powerEvent workerId .shutdownGranted now (db.executedSince row))
          | none => (true, db.powerEvent workerId .shutdownGranted now (db.executedSince row))
      else (false, db)

/-- `_should_shutdown_after_claim_locked`. -/
def shouldShutdownAfterClaim (workerId jobId : Text) (compatible : List JobType)
    (db : Database) : Bool :=
  match db.workers.find? workerId with
  | none => false
  | some row => row.wokenByOhana &&
      !(db.jobs.rows.any fun job =>
        job.jobId ≠ jobId && job.status.claimable && job.type ∈ compatible)

end Database

end OhanaAgent.Jobs
