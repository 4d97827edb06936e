import Mathlib.Data.List.Sort
import OhanaAgent.Jobs.Repository

/-!
# Transfers of distributed backups

`receive_artifact` authorizes a call once, streams its archive into rclone, and
publishes a manifest when the archive has the announced size and digest.  The
uploads of several calls overlap; each step below ends one access to the remote.
-/

namespace OhanaAgent.Plugins.Backup

open OhanaAgent.Encoding.Json
open OhanaAgent.Jobs (Database Environment Operation Call JobDocument)
open OhanaAgent.Store

abbrev Bytes : Type := List UInt8

/-- The exceptions of a transfer. -/
inductive BackupFailure where
  | job (failure : Jobs.Failure)
  | value (message : Text)
  | lookup (key : Text)
  | execution (stage message : Text)
  | upload (message : Text)
  | interrupted
  deriving DecidableEq

/-! ## Manifests -/

/-- The archive that a manifest declares. -/
structure ArchiveEntry where
  filename : Text
  sizeBytes : Nat
  sha256 : Text
  encryption : Text
  deriving DecidableEq

structure Manifest where
  schemaVersion : Nat
  backupId : Text
  createdAt : Text
  profile : Text
  agentVersion : Text
  visionVersion : Text
  archive : ArchiveEntry
  deriving DecidableEq

def quoted (text : Text) : Text :=
  render (.string text)

def decimal (n : Nat) : Text :=
  (toString n).toList

/-- The lines of `json.dumps(payload, sort_keys=True, indent=2)`. -/
def Manifest.lines (manifest : Manifest) : List Text :=
  ["\x7b".toList,
    "  \"agent_version\": ".toList ++ quoted manifest.agentVersion ++ ",".toList,
    "  \"archive\": \x7b".toList,
    "    \"encryption\": ".toList ++ quoted manifest.archive.encryption ++ ",".toList,
    "    \"filename\": ".toList ++ quoted manifest.archive.filename ++ ",".toList,
    "    \"sha256\": ".toList ++ quoted manifest.archive.sha256 ++ ",".toList,
    "    \"size_bytes\": ".toList ++ decimal manifest.archive.sizeBytes,
    "  \x7d,".toList,
    "  \"backup_id\": ".toList ++ quoted manifest.backupId ++ ",".toList,
    "  \"created_at\": ".toList ++ quoted manifest.createdAt ++ ",".toList,
    "  \"platform_version\": null,".toList,
    "  \"profile\": ".toList ++ quoted manifest.profile ++ ",".toList,
    "  \"schema_version\": ".toList ++ decimal manifest.schemaVersion ++ ",".toList,
    "  \"vision_version\": ".toList ++ quoted manifest.visionVersion,
    "\x7d".toList]

/-- The number of bytes of a manifest. -/
def Manifest.size (manifest : Manifest) : Nat :=
  (manifest.lines.map fun line => (line.map Char.utf8Size).sum + 1).sum

def daysInMonth (year month : Nat) : Nat :=
  if month = 2 then
    if year % 4 = 0 ∧ (year % 100 ≠ 0 ∨ year % 400 = 0) then 29 else 28
  else if month ∈ [4, 6, 9, 11] then 30
  else 31

/-- The number of some decimal digits. -/
def number (digits : Text) : Nat :=
  digits.foldl (fun total digit => total * 10 + (digit.toNat - '0'.toNat)) 0

/-- `datetime.strptime(backup_id, "%Y%m%dT%H%M%SZ")`, as the ISO 8601 text of its
UTC time. -/
def createdAt? : Text → Option Text
  | [y₁, y₂, y₃, y₄, m₁, m₂, d₁, d₂, 'T', h₁, h₂, n₁, n₂, s₁, s₂, 'Z'] =>
      let year := number [y₁, y₂, y₃, y₄]
      let month := number [m₁, m₂]
      let dayOfMonth := number [d₁, d₂]
      if [y₁, y₂, y₃, y₄, m₁, m₂, d₁, d₂, h₁, h₂, n₁, n₂, s₁, s₂].all Char.isDigit ∧ 1 ≤ year ∧
          1 ≤ month ∧ month ≤ 12 ∧ 1 ≤ dayOfMonth ∧ dayOfMonth ≤ daysInMonth year month ∧
          number [h₁, h₂] < 24 ∧ number [n₁, n₂] < 60 ∧ number [s₁, s₂] < 60 then
        some [y₁, y₂, y₃, y₄, '-', m₁, m₂, '-', d₁, d₂, 'T', h₁, h₂, ':', n₁, n₂, ':', s₁, s₂, 'Z']
      else none
  | _ => none

/-! ## The remote -/

inductive Content where
  | archive (content : Bytes)
  | manifest (document : Manifest)
  deriving DecidableEq

def Content.size : Content → Nat
  | .archive content => content.length
  | .manifest document => document.size

/-- An object below `infra-01`. -/
structure RemoteObject where
  directory : Text
  name : Text
  content : Content

def RemoteObject.path (object : RemoteObject) : Text × Text :=
  (object.directory, object.name)

abbrev Remote : Type := Table RemoteObject RemoteObject.path

def archiveName (backupId : Text) : Text :=
  backupId ++ ".tar.age".toList

def manifestName : Text := "manifest.json".toList

namespace Remote

def put (remote : Remote) (directory name : Text) (content : Content) : Remote :=
  remote.upsert ⟨directory, name, content⟩

def contentOf (remote : Remote) (directory name : Text) : Option Content :=
  (remote.find? (directory, name)).map RemoteObject.content

/-- The archive of a backup. -/
def archiveOf (remote : Remote) (backupId : Text) : Option Bytes :=
  match remote.contentOf backupId (archiveName backupId) with
  | some (.archive content) => some content
  | _ => none

/-- The manifest of a backup. -/
def manifestOf (remote : Remote) (backupId : Text) : Option Manifest :=
  match remote.contentOf backupId manifestName with
  | some (.manifest document) => some document
  | _ => none

/-- `rclone lsf --dirs-only`. -/
def directories (remote : Remote) : List Text :=
  (remote.rows.map RemoteObject.directory).dedup

/-- `rclone purge`; one that fails may have deleted some of the objects. -/
def purge (remote : Remote) (directory : Text) (deletes : Text → Bool) : Remote :=
  remote.filter fun object => !(object.directory = directory && deletes object.name)

end Remote

/-! ## Uploads -/

/-- How `rclone rcat` ended: it was killed because reading or writing failed, or it
exited; an upload that exits with zero replaced the object. -/
inductive UploadEnd where
  | interrupted (stored : Bool)
  | exited (returnCode : Int) (stderr : Text) (stored : Bool)

def UploadEnd.stores : UploadEnd → Bool
  | .interrupted stored => stored
  | .exited returnCode _ stored => returnCode = 0 || stored

/-- The checks of `upload` before the size of the remote object. -/
def uploadChecks (sizeBytes transferred : Nat) : UploadEnd → Except BackupFailure Unit
  | .interrupted _ => .error .interrupted
  | .exited returnCode stderr _ =>
      if returnCode ≠ 0 then
        .error (.upload ("rclone upload failed with exit code ".toList ++
          (toString returnCode).toList ++ ": ".toList ++ stderr.take 1000))
      else if transferred ≠ sizeBytes then
        .error (.upload ("Backup stream size mismatch: expected ".toList ++ decimal sizeBytes ++
          ", got ".toList ++ decimal transferred ++ ".".toList))
      else .ok ()

theorem uploadChecks_ok {sizeBytes transferred : Nat} {result : UploadEnd} {done : Unit}
    (checked : uploadChecks sizeBytes transferred result = .ok done) :
    transferred = sizeBytes ∧ result.stores = true := by
  cases result with
  | interrupted => contradiction
  | exited returnCode stderr stored =>
      simp only [uploadChecks] at checked
      split at checked
      · contradiction
      · rename_i zero
        split at checked
        · contradiction
        · rename_i same
          constructor
          · exact not_not.mp same
          · rw [not_not] at zero
            simp [UploadEnd.stores, zero]

/-- What `rclone lsjson --stat` answered. -/
inductive StatAnswer where
  | failed (stderr : Text)
  | unreadable
  | answered

/-- `_validate_remote_size`. -/
def validateRemoteSize (stored : Option Content) (expected : Nat) :
    StatAnswer → Except BackupFailure Unit
  | .failed stderr =>
      .error (.upload ("rclone could not validate the remote object: ".toList ++ stderr.take 1000))
  | .unreadable => .error (.upload "rclone returned invalid validation JSON.".toList)
  | .answered =>
      if stored.map Content.size = some expected then .ok ()
      else .error (.upload
        "Remote object size does not match the streamed backup size.".toList)

/-! ## Retention -/

/-- The names that `[0-9]{8}T[0-9]{6}Z` matches. -/
def isBackupId (name : Text) : Bool :=
  match name.splitAt 8 with
  | (date, 'T' :: rest) =>
      date.length = 8 && date.all Char.isDigit && rest.length = 7 && rest.getLast? = some 'Z' &&
        rest.dropLast.all Char.isDigit
  | _ => false

/-- The directories that `prune_complete_backup_directories` deletes; `seen` tells
which of the stored manifests rclone answers for. -/
def staleDirectories (remote : Remote) (keepCount : Nat) (protectedDirectory : Text)
    (seen : Text → Bool) : List Text :=
  let candidates := (remote.directories.filter isBackupId).insertionSort (· ≤ ·)
  let complete := candidates.filter fun directory =>
    (remote.contentOf directory manifestName).isSome && seen directory
  let retained := protectedDirectory :: complete.drop (complete.length - keepCount)
  complete.filter fun directory => directory ∉ retained

/-! ## Calls -/

/-- The part of `BackupConfig` that transfers read. -/
structure BackupConfig where
  maxArtifactBytes : Nat
  remoteRetentionCount : Nat

/-- The digest of the platform. -/
structure Platform where
  sha256 : Bytes → Text

/-- What `receive_artifact` returns. -/
structure BackupReceipt where
  backupId : Text
  sha256 : Text
  sizeBytes : Nat
  deletedRemoteBackups : Nat
  deriving DecidableEq

/-- Where a call is: its archive is being uploaded, its size is about to be
checked, then the same for the manifest, then old backups are deleted. -/
inductive Phase where
  | archiving
  | archived (content : Bytes)
  | publishing (manifest : Manifest)
  | published (manifest : Manifest)
  | listing
  | purging (stale : List Text) (deleted : Nat)
  | ended (outcome : Except BackupFailure BackupReceipt)

/-- A call of `receive_artifact` after its authorization. -/
structure Transfer where
  id : Nat
  backupId : Text
  sizeBytes : Nat
  expectedSha256 : Text
  agentVersion : Text
  visionVersion : Text
  phase : Phase

/-- `_manifest`. -/
def Transfer.manifest (transfer : Transfer) (createdAt sha256 : Text) : Manifest where
  schemaVersion := 1
  backupId := transfer.backupId
  createdAt := createdAt
  profile := "infra-01".toList
  agentVersion := transfer.agentVersion
  visionVersion := transfer.visionVersion
  archive :=
    { filename := archiveName transfer.backupId
      sizeBytes := transfer.sizeBytes
      sha256 := sha256
      encryption := "age".toList }

/-- The manifest of an accepted archive: the digests agree, and the identifier is a
time. -/
def Transfer.accept (platform : Platform) (transfer : Transfer) (content : Bytes) :
    Except BackupFailure Manifest :=
  if platform.sha256 content ≠ transfer.expectedSha256 then
    .error (.execution "integrity".toList
      "Katsuyu artifact SHA-256 does not match the upload.".toList)
  else
    match createdAt? transfer.backupId with
    | none => .error (.value ("time data ".toList ++ transfer.backupId ++
        " does not match format '%Y%m%dT%H%M%SZ'".toList))
    | some createdAt => .ok (transfer.manifest createdAt (platform.sha256 content))

def Transfer.receipt (transfer : Transfer) (deleted : Nat) : BackupReceipt where
  backupId := transfer.backupId
  sha256 := transfer.expectedSha256
  sizeBytes := transfer.sizeBytes
  deletedRemoteBackups := deleted

/-- The phase after a part of a call. -/
def Phase.after {α : Type} (next : α → Phase) : Except BackupFailure α → Phase
  | .ok value => next value
  | .error failure => .ended (.error failure)

/-- What ends a step of a call: an upload with what the stream gave it, an answer
of rclone, or an exception that no access to the remote raised. -/
inductive Access where
  | uploadArchive (content : Bytes) (result : UploadEnd)
  | checkArchive (answer : StatAnswer)
  | uploadManifest (result : UploadEnd)
  | checkManifest (answer : StatAnswer)
  | list (stderr : Option Text) (seen : Text → Bool)
  | purge (stderr : Option Text) (deletes : Text → Bool)
  | raise (failure : BackupFailure)

/-- One step of `receive_artifact`: the remote and the phase after it. -/
def Transfer.step (platform : Platform) (config : BackupConfig) (remote : Remote)
    (transfer : Transfer) (access : Access) : Remote × Phase :=
  match transfer.phase, access with
  | .ended outcome, _ => (remote, .ended outcome)
  | .archiving, .uploadArchive content result =>
      (if result.stores then
          remote.put transfer.backupId (archiveName transfer.backupId) (.archive content)
        else remote,
        .after (fun _ => .archived content)
          (uploadChecks transfer.sizeBytes content.length result))
  | .archived content, .checkArchive answer =>
      (remote, .after .publishing do
        validateRemoteSize
          (remote.contentOf transfer.backupId (archiveName transfer.backupId))
          transfer.sizeBytes answer
        transfer.accept platform content)
  | .publishing manifest, .uploadManifest result =>
      (if result.stores then
          remote.put transfer.backupId manifestName (.manifest manifest)
        else remote,
        .after (fun _ => .published manifest) (uploadChecks manifest.size manifest.size result))
  | .published manifest, .checkManifest answer =>
      (remote, .after (fun _ => .listing)
        (validateRemoteSize (remote.contentOf transfer.backupId manifestName) manifest.size answer))
  | .listing, .list stderr seen =>
      (remote,
        if config.remoteRetentionCount = 0 then .ended (.ok (transfer.receipt 0))
        else
          match stderr with
          | some stderr => .ended (.error (.upload
              ("rclone could not list backup directories: ".toList ++ stderr.take 1000)))
          | none => .purging (staleDirectories remote config.remoteRetentionCount
              transfer.backupId seen) 0)
  | .purging [] deleted, .purge _ _ => (remote, .ended (.ok (transfer.receipt deleted)))
  | .purging (directory :: stale) deleted, .purge none _ =>
      (remote.purge directory fun _ => true, .purging stale (deleted + 1))
  | .purging (directory :: _) _, .purge (some stderr) deletes =>
      (remote.purge directory deletes, .ended (.error (.upload
        ("rclone could not delete old backup ".toList ++ directory ++ ": ".toList ++
          stderr.take 1000))))
  | _, .raise failure => (remote, .ended (.error failure))
  | phase, _ => (remote, phase)

/-- A request of `receive_artifact`, with the versions that are installed then. -/
structure ArtifactRequest where
  now : Int
  jobId : Text
  workerId : Text
  attempt : Nat
  sizeBytes : Nat
  expectedSha256 : Text
  agentVersion : Text
  visionVersion : Text

def isSha256 (text : Text) : Bool :=
  text.length = 64 && text.all fun character => character ∈ "0123456789abcdef".toList

/-- `receive_artifact` up to its upload. -/
def ArtifactRequest.transfer (config : BackupConfig) (id : Nat) (request : ArtifactRequest)
    (document : JobDocument) : Except BackupFailure Transfer :=
  if request.sizeBytes < 1 ∨ config.maxArtifactBytes < request.sizeBytes then
    .error (.value "distributed backup artifact size is invalid".toList)
  else if isSha256 request.expectedSha256 = false then
    .error (.value "distributed backup artifact SHA-256 is invalid".toList)
  else
    match document.parameters with
    | .object fields =>
        match fields.lookup "backup_id".toList with
        | some (.string backupId) => .ok
            { id := id
              backupId := backupId
              sizeBytes := request.sizeBytes
              expectedSha256 := request.expectedSha256
              agentVersion := request.agentVersion
              visionVersion := request.visionVersion
              phase := .archiving }
        | _ => .error (.lookup "backup_id".toList)
    | _ => .error (.lookup "backup_id".toList)

/-! ## The service -/

/-- The job database, the remote and the calls of `receive_artifact`. -/
structure BackupService where
  db : Database
  remote : Remote
  transfers : Table Transfer Transfer.id

/-- A call of the job repository, the start of a call of `receive_artifact`, or a
step of one. -/
inductive BackupAction where
  | call (made : Call)
  | receive (id : Nat) (request : ArtifactRequest)
  | access (id : Nat) (access : Access)

/-- The transfer of an authorized request. -/
def BackupService.authorized (env : Environment) (jobs : Jobs.Config) (config : BackupConfig)
    (service : BackupService) (id : Nat) (request : ArtifactRequest) :
    Except BackupFailure Transfer × Database :=
  let (reply, db) := commit (Database.authorizeJobTransfer env jobs request.now request.jobId
    request.workerId request.attempt ["backup.infra".toList]) service.db
  match reply with
  | .error failure => (.error (.job failure), db)
  | .ok document => (request.transfer config id document, db)

def BackupService.next (env : Environment) (jobs : Jobs.Config) (platform : Platform)
    (config : BackupConfig) (service : BackupService) : BackupAction → BackupService
  | .call made => { service with db := (made.operation.run env jobs made.now service.db).2 }
  | .receive id request =>
      match service.transfers.find? id, service.authorized env jobs config id request with
      | none, (.ok transfer, db) =>
          { service with db := db, transfers := service.transfers.upsert transfer }
      | _, (_, db) => { service with db := db }
  | .access id access =>
      match service.transfers.find? id with
      | none => service
      | some transfer =>
          let (remote, phase) := transfer.step platform config service.remote access
          { service with
            remote := remote
            transfers := service.transfers.upsert { transfer with phase := phase } }

end OhanaAgent.Plugins.Backup
