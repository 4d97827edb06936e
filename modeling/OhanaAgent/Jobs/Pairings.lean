import OhanaAgent.Jobs.Workers

/-!
# Worker pairing requests

The operations of `DistributedWorkerPairings`.  The random material of a call
(identifier, polling secret, code, token) is an input of the operation.
-/

namespace OhanaAgent.Jobs

open OhanaAgent.Encoding.Json
open OhanaAgent.Store
open OhanaAgent.Time

namespace Database

/-- `_expire_pairings_locked`: live requests whose stored expiry is not after
the clock, as the texts compare. -/
def expirePairings (env : Environment) (now : Int) (db : Database) : Database :=
  { db with
    pairings := db.pairings.mapRows
      (fun row =>
        if row.status.live ∧ env.timestamp row.expiresAt ≤ env.timestamp now then
          { row with status := .expired }
        else row)
      fun row => by split <;> rfl }

/-- `_select_pairing_required_locked`. -/
def selectPairingRequired (db : Database) (pairingId : Text) : Except Failure PairingRow :=
  match db.pairings.find? pairingId with
  | some row => .ok row
  | none => .error (.lookup "worker pairing not found")

/-- Set the status of a pairing request. -/
def updatePairing (db : Database) (pairingId : Text) (f : PairingRow → PairingRow)
    (keeps : ∀ row, (f row).pairingId = row.pairingId) : Database :=
  { db with pairings := db.pairings.modify pairingId f keeps }

/-- `create_pairing`, after its payload was validated. -/
def createPairing (env : Environment) (config : Config) (now : Int) (request : Registration)
    (pairingId pollingSecret verificationCode : Text) (db : Database) :
    Except Failure (PairingRow × Database) := do
  let db := db.expirePairings env now
  if db.pairings.rows.any fun row => row.workerId = request.workerId && row.status.live then
    throw (.conflict "an active pairing already exists for this worker")
  else if config.maxPendingPairings ≤ (db.pairings.rows.filter fun row => row.status.live).length then
    throw (.value "worker pairing queue limit reached")
  else
    let row : PairingRow :=
      { pairingId := pairingId
        workerId := request.workerId
        protocolVersion := 1
        capabilities := request.capabilities
        platform := request.platform
        workerVersion := request.workerVersion
        pollingSecretSha256 := env.sha256 pollingSecret
        verificationCode := verificationCode
        status := .pending
        createdAt := now
        expiresAt := now + seconds config.pairingTtlSeconds
        approvedAt := none
        consumedAt := none }
    match db.pairings.insert? row with
    | some pairings => return (row, { db with pairings := pairings })
    | none => throw (.integrity "UNIQUE constraint failed")

/-- `list_pairings`. -/
def listPairings (env : Environment) (now : Int) (db : Database) : List PairingRow × Database :=
  let db := db.expirePairings env now
  ((db.pairings.rows.insertionSort fun first second =>
    julianday second.createdAt ≤ julianday first.createdAt).take 100, db)

/-- `approve_pairing`. -/
def approvePairing (env : Environment) (now : Int) (pairingId : Text) (db : Database) :
    Except Failure (PairingRow × Database) := do
  let db := db.expirePairings env now
  let row ← db.selectPairingRequired pairingId
  if row.status = .approved then return (row, db)
  else if row.status ≠ .pending then
    throw (.conflict ("pairing cannot be approved from " ++ row.status.text))
  else
    let db := db.updatePairing pairingId
      (fun row => { row with status := .approved, approvedAt := some now }) fun _ => rfl
    let row ← db.selectPairingRequired pairingId
    return (row, db)

/-- `reject_pairing`. -/
def rejectPairing (env : Environment) (now : Int) (pairingId : Text) (db : Database) :
    Except Failure (PairingRow × Database) := do
  let db := db.expirePairings env now
  let row ← db.selectPairingRequired pairingId
  if row.status = .rejected then return (row, db)
  else if ¬ row.status.live then
    throw (.conflict ("pairing cannot be rejected from " ++ row.status.text))
  else
    let db := db.updatePairing pairingId (fun row => { row with status := .rejected }) fun _ => rfl
    let row ← db.selectPairingRequired pairingId
    return (row, db)

/-- The credential of a worker, replaced when it exists. -/
def storeCredential (db : Database) (credential : CredentialRow) : Except Failure Database :=
  match db.credentials.find? credential.workerId with
  | some _ => .ok { db with
      credentials := db.credentials.modify credential.workerId
        (fun row => { credential with workerId := row.workerId }) fun _ => rfl }
  | none =>
      match db.credentials.insert? credential with
      | some credentials => .ok { db with credentials := credentials }
      | none => .error (.integrity "UNIQUE constraint failed")

/-- `poll_pairing`: the state of the request, and a token exactly once. -/
def pollPairing (env : Environment) (now : Int) (pairingId pollingSecret workerToken : Text)
    (db : Database) : Except Failure ((PairingRow × Option Text) × Database) := do
  let db := db.expirePairings env now
  let row ← db.selectPairingRequired pairingId
  if row.pollingSecretSha256 ≠ env.sha256 pollingSecret then
    throw (.lookup "worker pairing not found")
  else if row.status = .approved then
    let db ← db.storeCredential
      { workerId := row.workerId
        tokenSha256 := env.sha256 workerToken
        createdAt := now
        revokedAt := none }
    let db := db.updatePairing pairingId
      (fun row => { row with status := .consumed, consumedAt := some now }) fun _ => rfl
    let row ← db.selectPairingRequired pairingId
    return ((row, some workerToken), db)
  else return ((row, none), db)

end Database

end OhanaAgent.Jobs
