import OhanaAgent.Host.Dhcp
import OhanaAgent.Store.Table
import OhanaAgent.Store.Transaction
import OhanaAgent.Time.Order

/-!
# Companion identities

The repository of personal companion applications: pairing requests, hashed
bearer credentials and push addresses, in three tables.  The random material of
a call (identifier, polling secret, verification code, token) is an input of the
operation; it has no white space that a response model would strip.

Stored timestamps are instants of UTC.  Conditions of SQL statements compare
their texts, `authorize` compares the instants.
-/

namespace OhanaAgent.Companions

open Encoding (trim)
open Encoding.Json (Text)
open Host (isContractSpace isHexDigit lower)
open Store
open Time

/-! ## Rows -/

/-- An aware `datetime`, by its instant. -/
abbrev Instant := {instant : Int // Representable instant}

/-- `value.isoformat()` in UTC. -/
def isoformat (instant : Instant) : Text :=
  isoText 0 instant.val

/-- `CompanionPairingStatus`. -/
inductive PairingStatus where
  | pending
  | approved
  | consumed
  | expired
  | rejected
  deriving DecidableEq, Repr

def PairingStatus.text : PairingStatus → String
  | .pending => "PENDING"
  | .approved => "APPROVED"
  | .consumed => "CONSUMED"
  | .expired => "EXPIRED"
  | .rejected => "REJECTED"

/-- `status IN ('PENDING','APPROVED')`. -/
def PairingStatus.live : PairingStatus → Bool
  | .pending => true
  | .approved => true
  | .consumed => false
  | .expired => false
  | .rejected => false

/-- A row of `companion_pairings`. -/
structure PairingRow where
  pairingId : Text
  deviceId : Text
  deviceName : Text
  platform : Text
  appVersion : Text
  pollingSecretSha256 : Text
  verificationCode : Text
  tlsCaSha256 : Text
  status : PairingStatus
  createdAt : Instant
  expiresAt : Instant
  approvedAt : Option Instant
  consumedAt : Option Instant
  deriving DecidableEq

/-- A row of `companion_credentials`. -/
structure CredentialRow where
  deviceId : Text
  deviceName : Text
  platform : Text
  appVersion : Text
  tokenSha256 : Text
  createdAt : Instant
  expiresAt : Instant
  lastSeenAt : Option Instant
  revokedAt : Option Instant
  deriving DecidableEq

/-- A row of `companion_push_tokens`. -/
structure PushRow where
  deviceId : Text
  deviceToken : Option Text
  environment : Text
  enabled : Bool
  updatedAt : Instant
  deriving DecidableEq

structure Database where
  pairings : Table PairingRow PairingRow.pairingId
  credentials : Table CredentialRow CredentialRow.deviceId
  pushTokens : Table PushRow PushRow.deviceId

/-- The tables that `_initialize` creates. -/
def Database.empty : Database :=
  ⟨∅, ∅, ∅⟩

/-- The digest, the SHA-256 of a text in hexadecimal. -/
structure Environment where
  sha256 : Text → Text

/-- The arguments of the constructor, and the CA certificate that the service
passes to every new pairing. -/
structure Config where
  pairingTtlSeconds : Int
  credentialTtlDays : Int
  maxPendingPairings : Int
  tlsCaSha256 : Text
  tlsCaCertificatePem : Text
  sha256_valid : tlsCaSha256.length = 64 ∧
    ∀ c ∈ tlsCaSha256, isHexDigit c = true ∧ c.isUpper = false
  certificate_bounds : 64 ≤ tlsCaCertificatePem.length ∧ tlsCaCertificatePem.length ≤ 16384

/-- The exceptions an operation raises. -/
inductive Failure where
  | value (message : String)
  | conflict (message : String)
  | lookup (message : String)
  | overflow (message : String)
  | integrity (message : String)
  deriving DecidableEq, Repr

/-- `now + timedelta(…)`. -/
def plus (now : Instant) (duration : Int) : Except Failure Instant :=
  if held : Representable (now.val + duration) then .ok ⟨now.val + duration, held⟩
  else .error (.overflow "date value out of range")

/-! ## Contracts -/

/-- `str_strip_whitespace`. -/
def strip (text : Text) : Text :=
  trim isContractSpace text

/-- `^[A-Za-z0-9_.:-]+$` with a length from 8 to 80. -/
def isDeviceId (text : Text) : Bool :=
  8 ≤ text.length && text.length ≤ 80 &&
    text.all fun c => c.isAlphanum || c == '_' || c == '.' || c == ':' || c == '-'

/-- The body of a pairing request, before its model checks it. -/
structure PairingPayload where
  protocolVersion : Int
  deviceId : Text
  deviceName : Text
  platform : Text
  appVersion : Text

/-- `CompanionPairingRequest`. -/
structure PairingRequest where
  deviceId : Text
  deviceName : Text
  platform : Text
  appVersion : Text
  device_valid : isDeviceId deviceId = true
  name_bounds : 1 ≤ deviceName.length ∧ deviceName.length ≤ 80
  platform_eq : platform = "ios".toList
  version_bounds : 1 ≤ appVersion.length ∧ appVersion.length ≤ 40

/-- `CompanionPairingRequest.model_validate`. -/
def PairingRequest.validate (payload : PairingPayload) : Except Failure PairingRequest :=
  if payload.protocolVersion ≠ 1 then .error (.value "protocol_version: Input should be 1")
  else if device_valid : isDeviceId (strip payload.deviceId) = true then
    if name_bounds : 1 ≤ (strip payload.deviceName).length ∧
        (strip payload.deviceName).length ≤ 80 then
      if platform_eq : payload.platform = "ios".toList then
        if version_bounds : 1 ≤ (strip payload.appVersion).length ∧
            (strip payload.appVersion).length ≤ 40 then
          .ok
            { deviceId := strip payload.deviceId
              deviceName := strip payload.deviceName
              platform := payload.platform
              appVersion := strip payload.appVersion
              device_valid, name_bounds, platform_eq, version_bounds }
        else .error (.value "app_version: String should have between 1 and 40 characters")
      else .error (.value "platform: Input should be 'ios'")
    else .error (.value "device_name: String should have between 1 and 80 characters")
  else .error (.value "device_id: String should match pattern")

/-- The body of a poll, before its model checks it. -/
structure PollPayload where
  protocolVersion : Int
  pollingSecret : Text

/-- `CompanionPairingPoll.model_validate`: the polling secret. -/
def PollPayload.validate (payload : PollPayload) : Except Failure Text :=
  if payload.protocolVersion ≠ 1 then .error (.value "protocol_version: Input should be 1")
  else if 32 ≤ (strip payload.pollingSecret).length ∧
      (strip payload.pollingSecret).length ≤ 128 then .ok (strip payload.pollingSecret)
  else .error (.value "polling_secret: String should have between 32 and 128 characters")

/-- The body of a push registration, before its model checks it. -/
structure PushPayload where
  protocolVersion : Int
  enabled : Bool
  deviceToken : Option Text
  environment : Text

/-- `^[0-9A-Fa-f]+$` with a length from 32 to 512. -/
def isPushToken (text : Text) : Bool :=
  32 ≤ text.length && text.length ≤ 512 && text.all isHexDigit

/-- `CompanionPushRegistration`, with the check of an enabled registration that
`register_push_token` adds. -/
structure PushRegistration where
  enabled : Bool
  deviceToken : Option Text
  environment : Text
  token_valid : ∀ token ∈ deviceToken, isPushToken token = true
  environment_valid : environment = "development".toList ∨ environment = "production".toList
  enabled_token : enabled = true → deviceToken.isSome = true

/-- `CompanionPushRegistration.model_validate` and the check after it. -/
def PushRegistration.validate (payload : PushPayload) : Except Failure PushRegistration :=
  if payload.protocolVersion ≠ 1 then .error (.value "protocol_version: Input should be 1")
  else if token_valid : ∀ token ∈ payload.deviceToken.map strip, isPushToken token = true then
    if environment_valid : payload.environment = "development".toList ∨
        payload.environment = "production".toList then
      if enabled_token : payload.enabled = true → (payload.deviceToken.map strip).isSome = true then
        .ok
          { enabled := payload.enabled
            deviceToken := payload.deviceToken.map strip
            environment := payload.environment
            token_valid, environment_valid, enabled_token }
      else .error (.value "Un jeton APNs est requis pour activer les notifications")
    else .error (.value "environment: Input should be 'development' or 'production'")
  else .error (.value "device_token: String should match pattern")

/-! ## Answers -/

/-- `CompanionPairingCreated`. -/
structure PairingCreated where
  pairingId : Text
  pollingSecret : Text
  verificationCode : Text
  expiresAt : Instant
  tlsCaSha256 : Text
  tlsCaCertificatePem : Text

/-- `CompanionPairingDocument`. -/
structure PairingDocument where
  pairingId : Text
  deviceId : Text
  deviceName : Text
  platform : Text
  appVersion : Text
  verificationCode : Text
  tlsCaSha256 : Text
  status : PairingStatus
  createdAt : Instant
  expiresAt : Instant

/-- `CompanionPairingResult`. -/
structure PairingResult where
  pairingId : Text
  status : PairingStatus
  expiresAt : Instant
  companionToken : Option Text
  tokenExpiresAt : Option Instant

/-- `CompanionDeviceDocument`; its dates are shown in Paris time. -/
structure DeviceDocument where
  deviceId : Text
  deviceName : Text
  platform : Text
  appVersion : Text
  createdAt : Instant
  expiresAt : Instant
  lastSeenAt : Option Instant
  revokedAt : Option Instant

/-- The answer of `register_push_token`. -/
structure PushAnswer where
  enabled : Bool
  environment : Text
  updatedAt : Text

/-- `_pairing_document`. -/
def PairingRow.document (row : PairingRow) : PairingDocument where
  pairingId := row.pairingId
  deviceId := row.deviceId
  deviceName := row.deviceName
  platform := row.platform
  appVersion := row.appVersion
  verificationCode := row.verificationCode
  tlsCaSha256 := row.tlsCaSha256
  status := row.status
  createdAt := row.createdAt
  expiresAt := row.expiresAt

/-- `_device_document`. -/
def CredentialRow.document (row : CredentialRow) : DeviceDocument where
  deviceId := row.deviceId
  deviceName := row.deviceName
  platform := row.platform
  appVersion := row.appVersion
  createdAt := row.createdAt
  expiresAt := row.expiresAt
  lastSeenAt := row.lastSeenAt
  revokedAt := row.revokedAt

/-! ## Operations -/

/-- The pairing that `create_pairing` inserts. -/
def PairingRequest.pairing (env : Environment) (config : Config) (now expiresAt : Instant)
    (pairingId pollingSecret verificationCode : Text) (request : PairingRequest) :
    PairingRow where
  pairingId := pairingId
  deviceId := request.deviceId
  deviceName := request.deviceName
  platform := request.platform
  appVersion := request.appVersion
  pollingSecretSha256 := env.sha256 pollingSecret
  verificationCode := verificationCode
  tlsCaSha256 := config.tlsCaSha256
  status := .pending
  createdAt := now
  expiresAt := expiresAt
  approvedAt := none
  consumedAt := none

/-- What `_expire_pairings_locked` makes of a pairing. -/
def PairingRow.swept (now : Instant) (row : PairingRow) : PairingRow :=
  if row.status.live = true ∧ isoformat row.expiresAt ≤ isoformat now then
    { row with status := .expired }
  else row

def PairingRow.approved (now : Instant) (row : PairingRow) : PairingRow :=
  { row with status := .approved, approvedAt := some now }

def PairingRow.rejected (row : PairingRow) : PairingRow :=
  { row with status := .rejected }

def PairingRow.consumed (now : Instant) (row : PairingRow) : PairingRow :=
  { row with status := .consumed, consumedAt := some now }

/-- The credential that a poll issues for a pairing. -/
def PairingRow.credential (env : Environment) (now : Instant) (token : Text)
    (expiresAt : Instant) (row : PairingRow) : CredentialRow where
  deviceId := row.deviceId
  deviceName := row.deviceName
  platform := row.platform
  appVersion := row.appVersion
  tokenSha256 := env.sha256 token
  createdAt := now
  expiresAt := expiresAt
  lastSeenAt := none
  revokedAt := none

/-- The row that a push registration writes. -/
def PushRegistration.pushRow (deviceId : Text) (now : Instant) (request : PushRegistration) :
    PushRow where
  deviceId := deviceId
  deviceToken := request.deviceToken.map lower
  environment := request.environment
  enabled := request.enabled
  updatedAt := now

namespace Database

/-- `_expire_pairings_locked`. -/
def expirePairings (now : Instant) (db : Database) : Database :=
  { db with
    pairings := db.pairings.mapRows (PairingRow.swept now) fun row => by
      unfold PairingRow.swept
      split <;> rfl }

/-- `_required_pairing`. -/
def requiredPairing (db : Database) (pairingId : Text) : Except Failure PairingRow :=
  match db.pairings.find? pairingId with
  | some row => .ok row
  | none => .error (.lookup "Association Shizune inconnue")

/-- `_required_device`. -/
def requiredDevice (db : Database) (deviceId : Text) : Except Failure CredentialRow :=
  match db.credentials.find? deviceId with
  | some row => .ok row
  | none => .error (.lookup "Appareil Shizune inconnu")

/-- `UPDATE companion_pairings SET … WHERE pairing_id=?`. -/
def updatePairing (db : Database) (pairingId : Text) (f : PairingRow → PairingRow)
    (keeps : ∀ row, (f row).pairingId = row.pairingId) : Database :=
  { db with pairings := db.pairings.modify pairingId f keeps }

/-- `UPDATE companion_credentials SET … WHERE device_id=?`. -/
def updateCredential (db : Database) (deviceId : Text) (f : CredentialRow → CredentialRow)
    (keeps : ∀ row, (f row).deviceId = row.deviceId) : Database :=
  { db with credentials := db.credentials.modify deviceId f keeps }

/-- `disable_push_token`. -/
def disablePushToken (db : Database) (deviceId : Text) : Database :=
  { db with
    pushTokens := db.pushTokens.modify deviceId (fun row => { row with enabled := false })
      fun _ => rfl }

/-- The tables after a poll that delivered a token. -/
def delivered (db : Database) (now : Instant) (pairingId : Text) (credential : CredentialRow) :
    Database :=
  { db with credentials := db.credentials.upsert credential }.updatePairing pairingId
    (PairingRow.consumed now) fun _ => rfl

/-- The tables after the revocation of a session. -/
def revoked (db : Database) (now : Instant) (deviceId : Text) : Database :=
  (db.updateCredential deviceId (fun row => { row with revokedAt := some now })
    fun _ => rfl).disablePushToken deviceId

/-- `create_pairing`. -/
def createPairing (env : Environment) (config : Config) (now : Instant) (payload : PairingPayload)
    (pairingId pollingSecret verificationCode : Text) (db : Database) :
    Except Failure (PairingCreated × Database) := do
  let request ← PairingRequest.validate payload
  let expiresAt ← plus now (config.pairingTtlSeconds * second)
  let db := db.expirePairings now
  if db.pairings.rows.any fun row => row.deviceId = request.deviceId && row.status.live then
    throw (.conflict "Une demande d’association est déjà active pour cet appareil")
  else if config.maxPendingPairings ≤ (db.pairings.rows.filter fun row => row.status.live).length then
    throw (.value "La file d’association Shizune est pleine")
  else
    let row := request.pairing env config now expiresAt pairingId pollingSecret verificationCode
    match db.pairings.insert? row with
    | none => throw (.integrity "UNIQUE constraint failed: companion_pairings.pairing_id")
    | some pairings =>
        return (⟨pairingId, pollingSecret, verificationCode, expiresAt, config.tlsCaSha256,
          config.tlsCaCertificatePem⟩, { db with pairings := pairings })

/-- `list_pairings`. -/
def listPairings (now : Instant) (db : Database) : List PairingDocument × Database :=
  let db := db.expirePairings now
  (((db.pairings.rows.insertionSort fun first second =>
    isoformat second.createdAt ≤ isoformat first.createdAt).take 100).map PairingRow.document, db)

/-- `approve_pairing`. -/
def approvePairing (now : Instant) (pairingId : Text) (db : Database) :
    Except Failure (PairingDocument × Database) := do
  let db := db.expirePairings now
  let row ← db.requiredPairing pairingId
  if row.status = .approved then return (row.document, db)
  else if row.status ≠ .pending then
    throw (.conflict ("Association impossible depuis l’état " ++ row.status.text))
  else
    let db := db.updatePairing pairingId (PairingRow.approved now) fun _ => rfl
    let row ← db.requiredPairing pairingId
    return (row.document, db)

/-- `reject_pairing`. -/
def rejectPairing (now : Instant) (pairingId : Text) (db : Database) :
    Except Failure (PairingDocument × Database) := do
  let db := db.expirePairings now
  let row ← db.requiredPairing pairingId
  if row.status = .rejected then return (row.document, db)
  else if row.status.live = false then
    throw (.conflict ("Rejet impossible depuis l’état " ++ row.status.text))
  else
    let db := db.updatePairing pairingId PairingRow.rejected fun _ => rfl
    let row ← db.requiredPairing pairingId
    return (row.document, db)

/-- `poll_pairing`. -/
def pollPairing (env : Environment) (config : Config) (now : Instant) (pairingId : Text)
    (payload : PollPayload) (token : Text) (db : Database) :
    Except Failure (PairingResult × Database) := do
  let pollingSecret ← payload.validate
  let db := db.expirePairings now
  let row ← db.requiredPairing pairingId
  if row.pollingSecretSha256 ≠ env.sha256 pollingSecret then
    throw (.lookup "Association Shizune inconnue")
  else if row.status = .approved then
    let tokenExpiresAt ← plus now (config.credentialTtlDays * day)
    let db := db.delivered now pairingId (row.credential env now token tokenExpiresAt)
    let row ← db.requiredPairing pairingId
    return (⟨row.pairingId, row.status, row.expiresAt, some token, some tokenExpiresAt⟩, db)
  else return (⟨row.pairingId, row.status, row.expiresAt, none, none⟩, db)

/-- `authorize`. -/
def authorize (env : Environment) (now : Instant) (deviceId token : Text) (db : Database) :
    Bool × Database :=
  match (db.credentials.find? deviceId).filter fun row => row.revokedAt.isNone with
  | none => (false, db)
  | some row =>
      if row.expiresAt.val ≤ now.val ∨ row.tokenSha256 ≠ env.sha256 token then (false, db)
      else
        (true, db.updateCredential deviceId (fun row => { row with lastSeenAt := some now })
          fun _ => rfl)

/-- `list_devices`. -/
def listDevices (db : Database) : List DeviceDocument :=
  ((db.credentials.rows.insertionSort fun first second =>
    isoformat second.createdAt ≤ isoformat first.createdAt).take 100).map CredentialRow.document

/-- `revoke`. -/
def revoke (now : Instant) (deviceId : Text) (db : Database) :
    Except Failure (DeviceDocument × Database) := do
  let row ← db.requiredDevice deviceId
  let db := if row.revokedAt.isNone then db.revoked now deviceId else db
  let row ← db.requiredDevice deviceId
  return (row.document, db)

/-- `register_push_token`. -/
def registerPushToken (now : Instant) (deviceId : Text) (payload : PushPayload) (db : Database) :
    Except Failure (PushAnswer × Database) := do
  let request ← PushRegistration.validate payload
  let credential ← db.requiredDevice deviceId
  if credential.revokedAt.isSome then throw (.conflict "La session Shizune est révoquée")
  else
    let db : Database := { db with
      pushTokens := db.pushTokens.upsert (request.pushRow deviceId now) }
    return (⟨request.enabled, request.environment, isoformat now⟩, db)

/-- `push_targets`: the devices and their push addresses. -/
def pushTargets (now : Instant) (environment : Text) (db : Database) : List (Text × Text) :=
  db.pushTokens.rows.filterMap fun push =>
    match push.deviceToken, db.credentials.find? push.deviceId with
    | some deviceToken, some credential =>
        if push.enabled = true ∧ push.environment = environment ∧ credential.revokedAt = none ∧
            isoformat now < isoformat credential.expiresAt then
          some (push.deviceId, deviceToken)
        else none
    | _, _ => none

end Database

/-! ## Calls -/

/-- The operations of the repository. -/
inductive Operation where
  | createPairing (payload : PairingPayload) (pairingId pollingSecret verificationCode : Text)
  | listPairings
  | approvePairing (pairingId : Text)
  | rejectPairing (pairingId : Text)
  | pollPairing (pairingId : Text) (payload : PollPayload) (token : Text)
  | authorize (deviceId token : Text)
  | listDevices
  | revoke (deviceId : Text)
  | registerPushToken (deviceId : Text) (payload : PushPayload)
  | pushTargets (environment : Text)
  | disablePushToken (deviceId : Text)

/-- What an operation returns. -/
inductive Answer where
  | created (document : PairingCreated)
  | pairings (documents : List PairingDocument)
  | pairing (document : PairingDocument)
  | result (document : PairingResult)
  | authorized (granted : Bool)
  | devices (documents : List DeviceDocument)
  | device (document : DeviceDocument)
  | registered (answer : PushAnswer)
  | targets (addresses : List (Text × Text))
  | done

/-- One call, at a reading of the clock. -/
structure Call where
  now : Instant
  operation : Operation

abbrev Reply := Except Failure Answer

/-- Run a transaction that answers. -/
def answering {α : Type} (wrap : α → Answer) (body : Database → Except Failure (α × Database))
    (db : Database) : Reply × Database :=
  let outcome := commit body db
  (outcome.1.map wrap, outcome.2)

/-- Run one call. -/
def Call.run (env : Environment) (config : Config) (call : Call) (db : Database) :
    Reply × Database :=
  match call.operation with
  | .createPairing payload pairingId pollingSecret verificationCode =>
      answering .created
        (Database.createPairing env config call.now payload pairingId pollingSecret
          verificationCode) db
  | .listPairings =>
      let outcome := db.listPairings call.now
      (.ok (.pairings outcome.1), outcome.2)
  | .approvePairing pairingId =>
      answering .pairing (Database.approvePairing call.now pairingId) db
  | .rejectPairing pairingId =>
      answering .pairing (Database.rejectPairing call.now pairingId) db
  | .pollPairing pairingId payload token =>
      answering .result (Database.pollPairing env config call.now pairingId payload token) db
  | .authorize deviceId token =>
      let outcome := db.authorize env call.now deviceId token
      (.ok (.authorized outcome.1), outcome.2)
  | .listDevices => (.ok (.devices db.listDevices), db)
  | .revoke deviceId => answering .device (Database.revoke call.now deviceId) db
  | .registerPushToken deviceId payload =>
      answering .registered (Database.registerPushToken call.now deviceId payload) db
  | .pushTargets environment => (.ok (.targets (db.pushTargets call.now environment)), db)
  | .disablePushToken deviceId => (.ok .done, db.disablePushToken deviceId)

end OhanaAgent.Companions
