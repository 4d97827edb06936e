import OhanaAgent.Jobs.Invariant
import OhanaAgent.Plugins.BackupTransfers
import OhanaAgent.Transition.Run

/-!
# Published manifests

A stored manifest declares the size and the digest of the stored archive, as long
as no archive is replaced by another one after its manifest is stored, or while
another call is between its archive and its manifest.
-/

namespace OhanaAgent.Plugins.Backup

open OhanaAgent.Encoding.Json
open OhanaAgent.Jobs (Environment Operation Call)
open OhanaAgent.Store
open OhanaAgent.Transition

variable {platform : Platform} {config : BackupConfig} {remote : Remote} {transfer : Transfer}
  {backupId directory name : Text} {content : Bytes}

/-! ## Objects of the remote -/

theorem archiveName_ne_manifestName (backupId : Text) : archiveName backupId ≠ manifestName := by
  intro same
  have last := congrArg List.getLast? same
  have suffix : ".tar.age".toList.getLast? = some 'e' := by decide
  rw [archiveName, List.getLast?_append, suffix, Option.some_or] at last
  revert last
  decide

theorem contentOf_put_self (remote : Remote) (directory name : Text) (content : Content) :
    (remote.put directory name content).contentOf directory name = some content := by
  unfold Remote.contentOf Remote.put
  rw [show (directory, name) = RemoteObject.path ⟨directory, name, content⟩ from rfl,
    Table.find?_upsert_self]
  rfl

theorem contentOf_put_of_ne (remote : Remote) (directory : Text) {name other : Text}
    (content : Content) (different : other ≠ name) :
    (remote.put directory name content).contentOf directory other =
      remote.contentOf directory other := by
  unfold Remote.contentOf Remote.put
  rw [Table.find?_upsert_of_ne]
  intro same
  exact different (congrArg Prod.snd same)

/-- A deleted directory leaves the others. -/
theorem contentOf_purge (different : backupId ≠ directory) (deletes : Text → Bool) :
    (remote.purge directory deletes).contentOf backupId name = remote.contentOf backupId name := by
  unfold Remote.contentOf Remote.purge
  rw [Table.find?_filter]
  cases found : remote.find? (backupId, name) with
  | none => rfl
  | some object =>
      have own : object.directory = backupId :=
        congrArg Prod.fst (Table.find?_eq_some_iff.mp found).2
      rw [Option.filter_some_pos]
      simp [own, different]

/-- The directory of the call is not stale. -/
theorem not_mem_staleDirectories (remote : Remote) (keepCount : Nat) (backupId : Text)
    (seen : Text → Bool) : backupId ∉ staleDirectories remote keepCount backupId seen := by
  intro member
  simp [staleDirectories] at member

/-! ## What a step writes -/

/-- The manifest declares the size and the digest of the archive. -/
def Manifest.Describes (platform : Platform) (archive : Option Bytes) (manifest : Manifest) :
    Prop :=
  ∃ content, archive = some content ∧ manifest.archive.sizeBytes = content.length ∧
    manifest.archive.sha256 = platform.sha256 content

/-- A stored manifest describes the archive beside it. -/
def Remote.Published (platform : Platform) (backupId : Text) (remote : Remote) : Prop :=
  ∀ manifest, remote.manifestOf backupId = some manifest →
    manifest.Describes platform (remote.archiveOf backupId)

/-- What a call relies on. -/
def Transfer.Sound (platform : Platform) (remote : Remote) (transfer : Transfer) : Prop :=
  match transfer.phase with
  | .archived content =>
      remote.archiveOf transfer.backupId = some content ∧ content.length = transfer.sizeBytes
  | .publishing manifest => manifest.Describes platform (remote.archiveOf transfer.backupId)
  | .purging stale _ => transfer.backupId ∉ stale
  | _ => True

/-- The call is between its archive and its manifest. -/
def Phase.between : Phase → Bool
  | .archived _ | .publishing _ => true
  | _ => false

def Phase.isArchiving : Phase → Bool
  | .archiving => true
  | _ => false

/-- The writes of a step below the directory of its call. -/
inductive Writes (remote : Remote) (transfer : Transfer) (access : Access) (after : Remote) : Prop
  | nothing (archive : after.archiveOf transfer.backupId = remote.archiveOf transfer.backupId)
      (manifest : after.manifestOf transfer.backupId = remote.manifestOf transfer.backupId)
  | archive (content : Bytes) (result : UploadEnd)
      (uploaded : access = .uploadArchive content result) (stores : result.stores = true)
      (archiving : transfer.phase.isArchiving = true)
      (archive : after.archiveOf transfer.backupId = some content)
      (manifest : after.manifestOf transfer.backupId = remote.manifestOf transfer.backupId)
  | manifest (document : Manifest) (publishing : transfer.phase = .publishing document)
      (manifest : after.manifestOf transfer.backupId = some document)
      (archive : after.archiveOf transfer.backupId = remote.archiveOf transfer.backupId)

theorem Writes.same {access : Access} : Writes remote transfer access remote :=
  .nothing rfl rfl

theorem Writes.purge {access : Access} (different : transfer.backupId ≠ directory)
    (deletes : Text → Bool) : Writes remote transfer access (remote.purge directory deletes) := by
  apply Writes.nothing
  · unfold Remote.archiveOf
    rw [contentOf_purge different]
  · unfold Remote.manifestOf
    rw [contentOf_purge different]

theorem Transfer.step_writes (sound : transfer.Sound platform remote) (access : Access) :
    Writes remote transfer access (transfer.step platform config remote access).1 := by
  rcases transfer with ⟨id, backupId, sizeBytes, expected, agent, vision, phase⟩
  have differentNames := archiveName_ne_manifestName backupId
  cases phase with
  | archiving =>
      cases access with
      | uploadArchive content result =>
          dsimp only [Transfer.step]
          split
          · rename_i stores
            apply Writes.archive content result rfl stores rfl
            · unfold Remote.archiveOf
              rw [contentOf_put_self]
            · unfold Remote.manifestOf
              rw [contentOf_put_of_ne remote backupId _ differentNames.symm]
          · exact .same
      | _ => exact .same
  | publishing manifest =>
      cases access with
      | uploadManifest result =>
          dsimp only [Transfer.step]
          split
          · apply Writes.manifest manifest rfl
            · unfold Remote.manifestOf
              rw [contentOf_put_self]
            · unfold Remote.archiveOf
              rw [contentOf_put_of_ne remote backupId _ differentNames]
          · exact .same
      | _ => exact .same
  | purging stale deleted =>
      cases stale with
      | nil => cases access <;> exact .same
      | cons directory stale =>
          have different : backupId ≠ directory := List.ne_of_not_mem_cons sound
          cases access with
          | purge stderr deletes =>
              cases stderr <;> dsimp only [Transfer.step] <;> apply Writes.purge <;> exact different
          | _ => exact .same
  | _ => cases access <;> exact .same

/-! ## What a call relies on -/

/-- An accepted archive is described by its manifest. -/
theorem Transfer.describes_accept {manifest : Manifest}
    (accepted : transfer.accept platform content = .ok manifest)
    (size : content.length = transfer.sizeBytes) :
    manifest.Describes platform (some content) := by
  unfold Transfer.accept at accepted
  split at accepted
  · contradiction
  · split at accepted
    · contradiction
    · cases accepted
      exact ⟨content, rfl, size.symm, rfl⟩

/-- A step leaves its call with what it relies on. -/
theorem Transfer.sound_step (sound : transfer.Sound platform remote) (access : Access) :
    ({ transfer with phase := (transfer.step platform config remote access).2 } :
      Transfer).Sound platform (transfer.step platform config remote access).1 := by
  rcases transfer with ⟨id, backupId, sizeBytes, expected, agent, vision, phase⟩
  cases phase with
  | archiving =>
      cases access with
      | uploadArchive content result =>
          dsimp only [Transfer.step]
          cases checked : uploadChecks sizeBytes content.length result with
          | error failure => exact True.intro
          | ok done =>
              rcases uploadChecks_ok checked with ⟨size, stores⟩
              rw [if_pos stores]
              constructor
              · dsimp only [Remote.archiveOf]
                rw [contentOf_put_self]
              · exact size
      | _ => exact True.intro
  | archived content =>
      cases access with
      | checkArchive answer =>
          dsimp only [Transfer.step]
          generalize checked : (do
            validateRemoteSize _ _ answer
            Transfer.accept platform _ content : Except BackupFailure Manifest) = outcome
          cases outcome with
          | error failure => exact True.intro
          | ok manifest =>
              rw [bind_eq_ok] at checked
              rcases checked with ⟨_, _, accepted⟩
              have describes := Transfer.describes_accept accepted sound.2
              rw [← sound.1] at describes
              exact describes
      | raise failure => exact True.intro
      | _ => exact sound
  | publishing manifest =>
      cases access with
      | uploadManifest result =>
          dsimp only [Transfer.step]
          cases uploadChecks manifest.size manifest.size result <;> exact True.intro
      | raise failure => exact True.intro
      | _ => exact sound
  | published manifest =>
      cases access with
      | checkManifest answer =>
          dsimp only [Transfer.step]
          cases validateRemoteSize _ manifest.size answer <;> exact True.intro
      | _ => exact True.intro
  | listing =>
      cases access with
      | list stderr seen =>
          dsimp only [Transfer.step]
          split
          · exact True.intro
          · cases stderr with
            | some stderr => exact True.intro
            | none => exact not_mem_staleDirectories remote _ backupId seen
      | _ => exact True.intro
  | purging stale deleted =>
      cases stale with
      | nil =>
          cases access with
          | purge stderr deletes => exact True.intro
          | raise failure => exact True.intro
          | _ => exact sound
      | cons directory stale =>
          cases access with
          | purge stderr deletes =>
              cases stderr with
              | none => exact List.not_mem_of_not_mem_cons sound
              | some stderr => exact True.intro
          | raise failure => exact True.intro
          | _ => exact sound
  | ended outcome => exact True.intro

/-- Another call relies on the archive only. -/
theorem Transfer.Sound.of_archive {after : Remote} (sound : transfer.Sound platform remote)
    (same : after.archiveOf transfer.backupId = remote.archiveOf transfer.backupId) :
    transfer.Sound platform after := by
  unfold Transfer.Sound at sound ⊢
  rw [same]
  exact sound

theorem Transfer.Sound.of_apart {after : Remote} (sound : transfer.Sound platform remote)
    (apart : transfer.phase.between = false) : transfer.Sound platform after := by
  unfold Transfer.Sound at sound ⊢
  cases phase : transfer.phase with
  | archived content | publishing manifest =>
      rw [phase] at apart
      contradiction
  | purging stale deleted =>
      rw [phase] at sound
      exact sound
  | _ => exact True.intro

/-! ## Runs -/

/-- An archive is stored while no manifest is and no other call is between its
archive and its manifest, or it is the stored one. -/
def BackupService.Apart (backupId : Text) (service : BackupService) : BackupAction → Prop
  | .access id (.uploadArchive content result) =>
      ∀ transfer ∈ service.transfers.find? id,
        transfer.phase.isArchiving = true → result.stores = true →
          service.remote.archiveOf backupId = some content ∨
            (service.remote.manifestOf backupId = none ∧
              ∀ other ∈ service.transfers.rows, other.id ≠ id → other.phase.between = false)
  | _ => True

instance (backupId : Text) (service : BackupService) (action : BackupAction) :
    Decidable (service.Apart backupId action) := by
  unfold BackupService.Apart
  split <;> infer_instance

/-- A step of the jobs of one backup that meets the condition. -/
structure ApartStep (env : Environment) (jobs : Jobs.Config) (platform : Platform)
    (config : BackupConfig) (backupId : Text) (service : BackupService) (action : BackupAction)
    (after : BackupService) : Prop where
  apart : service.Apart backupId action
  step : service.next env jobs platform config action = after
  own : ∀ transfer ∈ after.transfers.rows, transfer.backupId = backupId

instance (env : Environment) (jobs : Jobs.Config) (platform : Platform) (config : BackupConfig)
    (backupId : Text) (service : BackupService) (action : BackupAction) :
    Decidable (ApartStep env jobs platform config backupId service action
      (service.next env jobs platform config action)) :=
  decidable_of_iff (service.Apart backupId action ∧
      ∀ transfer ∈ (service.next env jobs platform config action).transfers.rows,
        transfer.backupId = backupId)
    ⟨fun taken => ⟨taken.1, rfl, taken.2⟩, fun taken => ⟨taken.apart, taken.own⟩⟩

/-- The calls have what they rely on, and the manifest describes the archive. -/
structure BackupService.Sound (platform : Platform) (backupId : Text) (service : BackupService) :
    Prop where
  own : ∀ transfer ∈ service.transfers, transfer.backupId = backupId
  calls : ∀ transfer ∈ service.transfers, transfer.Sound platform service.remote
  published : service.remote.Published platform backupId

variable {env : Environment} {jobs : Jobs.Config} {service after : BackupService}
  {action : BackupAction}

/-- A call starts with nothing to rely on. -/
theorem phase_transfer {id : Nat} {request : ArtifactRequest} {document : Jobs.JobDocument}
    (started : request.transfer config id document = .ok transfer) :
    transfer.phase = .archiving := by
  unfold ArtifactRequest.transfer at started
  split at started
  · contradiction
  · split at started
    · contradiction
    · split at started
      · split at started
        · cases started
          rfl
        · contradiction
      · contradiction

theorem BackupService.Sound.receive (sound : service.Sound platform backupId) (id : Nat)
    (request : ArtifactRequest)
    (own : ∀ transfer ∈ (service.next env jobs platform config (.receive id request)).transfers,
      transfer.backupId = backupId) :
    (service.next env jobs platform config (.receive id request)).Sound platform backupId := by
  dsimp only [BackupService.next] at own ⊢
  split at own
  · rename_i free authorized
    constructor
    · exact own
    · intro other member
      rcases Table.mem_upsert.mp member with rfl | ⟨before, _⟩
      · have archiving : other.phase = .archiving := by
          dsimp only [BackupService.authorized] at authorized
          split at authorized
          · cases authorized
          · exact phase_transfer (congrArg Prod.fst authorized)
        unfold Transfer.Sound
        rw [archiving]
        exact True.intro
      · exact sound.calls other before
    · exact sound.published
  · exact ⟨sound.own, sound.calls, sound.published⟩

/-- A step of a call keeps what every call relies on. -/
theorem BackupService.Sound.access (sound : service.Sound platform backupId) (id : Nat)
    (access : Access) (apart : service.Apart backupId (.access id access)) :
    (service.next env jobs platform config (.access id access)).Sound platform backupId := by
  dsimp only [BackupService.next]
  cases found : service.transfers.find? id with
  | none => exact sound
  | some transfer =>
      rcases Table.find?_eq_some_iff.mp found with ⟨member, sameId⟩
      have ownId := sound.own transfer member
      have relies := sound.calls transfer member
      have writes : Writes service.remote transfer access
          (transfer.step platform config service.remote access).1 :=
        Transfer.step_writes relies access
      have kept : ({ transfer with
            phase := (transfer.step platform config service.remote access).2 } :
          Transfer).Sound platform (transfer.step platform config service.remote access).1 :=
        Transfer.sound_step relies access
      dsimp only
      generalize transfer.step platform config service.remote access = outcome at writes kept
      -- The other calls, and the manifest, by what the step wrote.
      have others : ∀ other ∈ service.transfers, other.id ≠ id →
          other.Sound platform outcome.1 := by
        intro other otherMem different
        have sameBackup : other.backupId = transfer.backupId :=
          (sound.own other otherMem).trans ownId.symm
        have before := sound.calls other otherMem
        cases writes with
        | nothing archive manifest => exact before.of_archive (sameBackup ▸ archive)
        | manifest document publishing manifest archive =>
            exact before.of_archive (sameBackup ▸ archive)
        | archive content result uploaded stores archiving archive manifest =>
            subst uploaded
            rcases apart transfer found archiving stores with same | ⟨_, free⟩
            · apply before.of_archive
              rw [sameBackup, archive, ownId, same]
            · exact before.of_apart (free other otherMem different)
      have published : outcome.1.Published platform backupId := by
        subst ownId
        intro document stored
        cases writes with
        | nothing archive manifest =>
            rw [manifest] at stored
            rw [archive]
            exact sound.published document stored
        | manifest written publishing manifest archive =>
            rw [manifest] at stored
            cases stored
            rw [archive]
            unfold Transfer.Sound at relies
            rw [publishing] at relies
            exact relies
        | archive content result uploaded stores archiving archive manifest =>
            subst uploaded
            rw [manifest] at stored
            rcases apart transfer found archiving stores with same | ⟨absent, _⟩
            · rw [archive, ← same]
              exact sound.published document stored
            · rw [absent] at stored
              contradiction
      constructor
      · intro other otherMem
        rcases Table.mem_upsert.mp otherMem with rfl | ⟨before, _⟩
        · exact ownId
        · exact sound.own other before
      · intro other otherMem
        rcases Table.mem_upsert.mp otherMem with rfl | ⟨before, different⟩
        · exact kept
        · exact others other before (by rwa [← sameId])
      · exact published

theorem ApartStep.sound (taken : ApartStep env jobs platform config backupId service action after)
    (sound : service.Sound platform backupId) : after.Sound platform backupId := by
  rcases taken with ⟨apart, rfl, own⟩
  cases action with
  | call made => exact ⟨sound.own, sound.calls, sound.published⟩
  | receive id request => exact sound.receive id request own
  | access id access => exact sound.access id access apart

/-- In every run of the calls for one backup that keep the condition, a stored
manifest describes the archive beside it. -/
theorem manifest_describes_archive (env : Environment) (jobs : Jobs.Config)
    (platform : Platform) (config : BackupConfig) {backupId : Text} {start after : BackupService}
    {actions : List BackupAction}
    (run : Run (ApartStep env jobs platform config backupId) start actions after)
    (idle : start.transfers.rows = [])
    (published : start.remote.Published platform backupId) :
    after.remote.Published platform backupId := by
  have sound : after.Sound platform backupId := by
    apply run.invariant (P := fun service => service.Sound platform backupId)
    · intro source label target before taken
      exact taken.sound before
    · constructor
      · intro transfer member
        rw [Table.mem_def, idle] at member
        contradiction
      · intro transfer member
        rw [Table.mem_def, idle] at member
        contradiction
      · exact published
  exact sound.published

/-! ## A night in January -/

def nightlyBackup : Text := "20260115T010000Z".toList

/-- SHA-256 on two archives of one byte. -/
def shortArchives : Platform where
  sha256 content :=
    if content = [1] then
      "4bf5122f344554c53bde2ebb8cd2b7e3d1600ad631c385a5d7cce23c7785459a".toList
    else if content = [2] then
      "dbc1b4c900ffe48d575b5da5c638040125f65db0fe3e24494b76ea986457d986".toList
    else []

def backupDefaults : BackupConfig where
  maxArtifactBytes := 8 * 1024 * 1024 * 1024
  remoteRetentionCount := 7

def backupRequest : Jobs.CreatePayload where
  protocolVersion := 1
  jobId := Jobs.healthJob
  type := "backup.infra".toList
  createdAt := .aware Jobs.healthTime 0
  parameters := .ofList [("backup_id".toList, .string nightlyBackup),
    ("recipient".toList, .string "age1qqqqqqqqqqqqqqqqqqqq".toList),
    ("compression_level".toList, .number ⟨"6".toList, by decide⟩)]
  timeout := 3600

/-- A claim of the backup some seconds after its creation. -/
def claimBackup (delay : Int) : BackupAction :=
  .call ⟨Jobs.healthTime + delay * Time.second,
    .claim "katsuyu".toList ["backup.infra".toList] false false⟩

def announceArchive (attempt : Nat) (delay : Int) (content : Bytes) : ArtifactRequest where
  now := Jobs.healthTime + delay * Time.second
  jobId := Jobs.healthJob
  workerId := "katsuyu".toList
  attempt := attempt
  sizeBytes := content.length
  expectedSha256 := shortArchives.sha256 content
  agentVersion := "1.0.0".toList
  visionVersion := "1.0.0".toList

def BackupService.reached (actions : List BackupAction) : BackupService :=
  actions.foldl (BackupService.next Jobs.winterEnvironment .default shortArchives backupDefaults)
    ⟨.empty, ∅, ∅⟩

/-- The first attempt starts its upload, and the lease ends before the second one
starts. -/
def twoAttempts : List BackupAction :=
  [.call ⟨Jobs.healthTime, .create backupRequest⟩, claimBackup 1,
    .receive 1 (announceArchive 1 2 [1]), claimBackup 600, .receive 2 (announceArchive 2 601 [2])]

/-- The second attempt publishes its backup, then the upload of the first one ends. -/
def lateUpload : List BackupAction :=
  twoAttempts ++ [.access 2 (.uploadArchive [2] (.exited 0 [] true)),
    .access 2 (.checkArchive .answered), .access 2 (.uploadManifest (.exited 0 [] true)),
    .access 1 (.uploadArchive [1] (.exited 0 [] true))]

/-- The manifest of the second attempt stands beside the archive of the first one. -/
theorem late_upload_replaces_archive :
    (BackupService.reached twoAttempts).transfers.rows.map Transfer.id = [1, 2] ∧
      ¬ (BackupService.reached lateUpload).remote.Published shortArchives nightlyBackup := by
  have stored : ((BackupService.reached lateUpload).remote.manifestOf nightlyBackup).map
      (fun manifest => manifest.archive.sha256) = some (shortArchives.sha256 [2]) := by
    decide +kernel
  have archive : (BackupService.reached lateUpload).remote.archiveOf nightlyBackup = some [1] := by
    decide +kernel
  constructor
  · decide +kernel
  · intro published
    rcases Option.map_eq_some_iff.mp stored with ⟨manifest, found, digest⟩
    rcases published manifest found with ⟨content, beside, _, same⟩
    rw [archive] at beside
    cases beside
    rw [digest] at same
    revert same
    decide

/-- The first attempt alone, from its creation to its manifest. -/
def firstAttempt : List BackupAction :=
  [.call ⟨Jobs.healthTime, .create backupRequest⟩, claimBackup 1,
    .receive 1 (announceArchive 1 2 [1]), .access 1 (.uploadArchive [1] (.exited 0 [] true)),
    .access 1 (.checkArchive .answered), .access 1 (.uploadManifest (.exited 0 [] true))]

theorem firstAttempt_run : Run (ApartStep Jobs.winterEnvironment .default shortArchives
    backupDefaults nightlyBackup) (BackupService.reached []) firstAttempt
    (BackupService.reached firstAttempt) := by
  apply Run.foldl
  decide +kernel

/-- Its manifest is published and describes its archive. -/
theorem firstAttempt_published :
    ((BackupService.reached firstAttempt).remote.manifestOf nightlyBackup).isSome = true ∧
      (BackupService.reached firstAttempt).remote.Published shortArchives nightlyBackup := by
  constructor
  · decide +kernel
  · apply manifest_describes_archive Jobs.winterEnvironment .default shortArchives backupDefaults
      firstAttempt_run rfl
    intro manifest absent
    contradiction

end OhanaAgent.Plugins.Backup
