import OhanaAgent.Plugins.KeptBackups
import OhanaAgent.Store.Relates

/-!
# Backups of Home Assistant

`BackupCoordinator.run` creates a backup, uploads its archive and a checksum beside
it, and then deletes the previous backups of the target and the old archives on the
remote.  A log of its effects tells what was validated before a deletion.
-/

namespace OhanaAgent.Plugins.Backup.Haos

open OhanaAgent.Encoding (trim)
open OhanaAgent.Encoding.Json (Text)
open OhanaAgent.Plugins.Backup.Retention
open OhanaAgent.Privacy (isWhitespace)
open OhanaAgent.Store

/-! ## The world -/

/-- A backup on the Home Assistant host. -/
structure LocalBackup where
  slug : Text
  name : Option Text
  deriving DecidableEq

/-- What a run has done. -/
inductive Event where
  | stored (path : Text)
  | validated (path : Text) (sizeBytes : Int)
  | deletedLocal (slug : Text)
  | deletedRemote (path : Text)

/-- The event is a deletion. -/
def Event.IsDeletion : Event → Prop
  | .deletedLocal _ => True
  | .deletedRemote _ => True
  | _ => False

/-- The backups of a target on its host and on the remote, and what was done. -/
structure World where
  locals : List LocalBackup
  tree : Tree
  log : List Event

namespace World

def record (event : Event) (world : World) : World :=
  { world with log := world.log ++ [event] }

end World

/-- A new file, with the directory directly below the root that holds it. -/
def putFile (path : Text) (tree : Tree) : Tree where
  files := tree.files.insert path
  directories :=
    if '/' ∈ path then tree.directories.insert (path.takeWhile (· ≠ '/')) else tree.directories
  distinctFiles := tree.distinctFiles.insert
  distinctDirectories := by
    split
    · exact tree.distinctDirectories.insert
    · exact tree.distinctDirectories
  names := by
    intro name inside
    split at inside
    · rcases List.mem_insert_iff.mp inside with rfl | there
      · intro slash
        simpa using List.mem_takeWhile_imp slash
      · exact tree.names name there
    · exact tree.names name inside

/-! ## Uploads -/

/-- What `rclone lsjson --stat` prints: an error, no JSON, or a size. -/
inductive StatReply where
  | failed (stderr : Text)
  | unreadable
  | size (found : Option Int)

/-- `_validate_remote_size`. -/
def validateSize (expected : Int) : StatReply → Except BackupFailure Unit
  | .failed stderr =>
      .error (.upload ("rclone could not validate the remote object: ".toList ++ stderr.take 1000))
  | .unreadable => .error (.upload "rclone returned invalid validation JSON.".toList)
  | .size found =>
      if found = some expected then .ok ()
      else .error (.upload "Remote object size does not match the streamed backup size.".toList)

/-- What happens around an upload. -/
structure UploadRun where
  temporaryDirectory : Option BackupFailure
  ended : UploadEnd
  stat : StatReply

/-- The object of an upload that stores it. -/
def storeObject (run : UploadRun) (path : Text) : Statements World BackupFailure Unit :=
  if run.ended.stores then
    modify fun world => { world with tree := putFile path world.tree }.record (.stored path)
  else pure ()

/-- `upload` of a number of bytes below the root. -/
def upload (run : UploadRun) (path : Text) (sizeBytes : Int) (transferred : Nat) :
    Statements World BackupFailure Unit := do
  if sizeBytes ≤ 0 then
    throw (.value "size_bytes must be greater than zero.".toList)
  else
    liftExcept (run.temporaryDirectory.elim (.ok ()) .error)
    storeObject run path
    liftExcept (uploadChecks sizeBytes.toNat transferred run.ended)
    liftExcept (validateSize sizeBytes run.stat)
    modify (World.record (.validated path sizeBytes))

/-! ## A run -/

structure Target where
  id : Text
  label : Text
  tokenVariable : Text
  passwordVariable : Text
  remoteRetentionCount : Int

/-- The stream of a backup: its announced size, its bytes, and their digest. -/
structure Download where
  sizeBytes : Int
  transferred : Nat
  sha256 : Text

/-- What happens around a run. -/
structure HaosCircumstances where
  token : Except BackupFailure (Option Text)
  password : Except BackupFailure (Option Text)
  client : Option BackupFailure
  timestamp : Text
  month : Text
  inventory : Option BackupFailure
  preparation : Option BackupFailure
  creation : Except BackupFailure Text
  download : Except BackupFailure Download
  archive : UploadRun
  closing : Option BackupFailure
  checksum : UploadRun
  /-- A deletion that raises may have deleted its backup. -/
  deletion : Text → Option (BackupFailure × Bool)
  commands : Commands

/-- `str(error)`. -/
def failureMessage : BackupFailure → Text
  | .job _ => "job".toList
  | .value message => message
  | .lookup key => key
  | .execution _ message => message
  | .upload message => message
  | .interrupted => "interrupted".toList

/-- `except Exception as error: raise BackupExecutionError(stage, str(error))`. -/
def staged {α : Type} (stage : Text) (body : Statements World BackupFailure α) :
    Statements World BackupFailure α :=
  handle body fun failure => throw (.execution stage (failureMessage failure))

def raising (failure : Option BackupFailure) : Except BackupFailure Unit :=
  failure.elim (.ok ()) .error

/-- `_safe_component`. -/
def safeComponent (value : Text) : Except BackupFailure Text :=
  let safe := (trim isWhitespace value).map fun c =>
    if ('A' ≤ c ∧ c ≤ 'Z') ∨ ('a' ≤ c ∧ c ≤ 'z') ∨ c.isDigit ∨ c ∈ ['.', '_', '-'] then c else '_'
  if safe = [] then .error (.execution "creation".toList "Backup slug is invalid.".toList)
  else .ok safe

/-- A secret that is configured and not empty. -/
def required (stage description source label : Text) :
    Option Text → Except BackupFailure Text
  | some (c :: rest) => .ok (c :: rest)
  | _ =>
      .error (.execution stage ("Missing ".toList ++ description ++
        (if source = [] then [] else " in ".toList ++ source) ++ " for ".toList ++ label ++
          ".".toList))

section Run

variable (rcloneRemote : Text) (target : Target) (circumstances : HaosCircumstances)

def managedPrefix : Text := "Ohana-".toList ++ target.id ++ "-".toList

def targetRoot : Text := rcloneRemote ++ '/' :: target.id

/-- The path of the archive below the root of the target. -/
def archivePath (slug : Text) : Text :=
  circumstances.month ++ '/' :: circumstances.timestamp ++ '_' :: slug ++ ".tar".toList

/-- The body of the checksum file. -/
def checksumBody (sha256 slug : Text) : Text :=
  sha256 ++ "  ".toList ++ circumstances.timestamp ++ '_' :: slug ++ ".tar\n".toList

/-- A new backup: the backups before it, its slug, and the slug in its path. -/
structure Created where
  previous : List LocalBackup
  slug : Text
  safeSlug : Text

/-- The run up to the creation of the backup. -/
def prepare : Statements World BackupFailure Created := do
  let token ← liftExcept circumstances.token
  let _token ← liftExcept (required "authentication".toList "Home Assistant token".toList
    target.tokenVariable target.label token)
  let password ← liftExcept circumstances.password
  let _password ← liftExcept (required "encryption".toList "backup encryption password".toList
    target.passwordVariable target.label password)
  liftExcept (raising circumstances.client)
  staged "inventory".toList (liftExcept (raising circumstances.inventory))
  let before ← get
  let previous := before.locals.filter fun backup =>
    backup.name.any fun name => (managedPrefix target).isPrefixOf name
  staged "preparation".toList (liftExcept (raising circumstances.preparation))
  let slug ← staged "creation".toList (liftExcept circumstances.creation)
  modify fun world => { world with
    locals := world.locals ++ [⟨slug, some (managedPrefix target ++ circumstances.timestamp)⟩] }
  let safeSlug ← liftExcept (safeComponent slug)
  pure ⟨previous, slug, safeSlug⟩

/-- The upload of the archive. -/
def uploadArchive (safeSlug : Text) : Statements World BackupFailure Download :=
  staged "upload".toList do
    let download ← liftExcept circumstances.download
    upload circumstances.archive (archivePath circumstances safeSlug) download.sizeBytes
      download.transferred
    liftExcept (raising circumstances.closing)
    pure download

/-- The upload of the checksum. -/
def uploadChecksum (safeSlug sha256 : Text) : Statements World BackupFailure Unit :=
  let body := checksumBody circumstances sha256 safeSlug
  staged "checksum".toList (upload circumstances.checksum
    (Tree.checksumPath (archivePath circumstances safeSlug)) body.length body.length)

/-- The run up to the upload of the checksum. -/
def publish : Statements World BackupFailure (Created × Download) := do
  let created ← prepare target circumstances
  let download ← uploadArchive circumstances created.safeSlug
  uploadChecksum circumstances created.safeSlug download.sha256
  pure (created, download)

/-- The host without a backup. -/
def World.withoutLocal (slug : Text) (world : World) : World :=
  { world with locals := world.locals.filter fun backup => backup.slug ≠ slug }.record
    (.deletedLocal slug)

/-- `client.delete`. -/
def deleteLocal (slug : Text) : Statements World BackupFailure Unit :=
  match circumstances.deletion slug with
  | none => modify (World.withoutLocal slug)
  | some (failure, true) => do
      modify (World.withoutLocal slug)
      throw failure
  | some (failure, false) => throw failure

/-- The loop over the previous backups. -/
def deleteLocals (slug : Text) : List LocalBackup → Nat → Statements World BackupFailure Nat
  | [], deleted => pure deleted
  | old :: rest, deleted =>
      if old.slug = slug then deleteLocals slug rest deleted
      else do
        deleteLocal circumstances old.slug
        deleteLocals slug rest (deleted + 1)

/-- The prune of the remote, with the files that it deletes. -/
def pruneRemote (safeSlug : Text) : Statements World BackupFailure Nat := do
  let world ← get
  let root := targetRoot rcloneRemote target
  let pruned := pruneCompleteArchives circumstances.commands root target.remoteRetentionCount
    (some (root ++ '/' :: archivePath circumstances safeSlug)) world.tree
  modify fun world => { world with
    tree := pruned.2
    log := world.log ++
      (world.tree.files.filter fun path => path ∉ pruned.2.files).map Event.deletedRemote }
  liftExcept pruned.1

structure HaosResult where
  targetId : Text
  backupSlug : Text
  backupName : Text
  remotePath : Text
  sizeBytes : Int
  sha256 : Text
  deletedLocalBackups : Nat
  deletedRemoteBackups : Nat

/-- The rotations. -/
def rotate (created : Created) (download : Download) :
    Statements World BackupFailure HaosResult := do
  let deleted ← staged "rotation".toList
    (deleteLocals circumstances created.slug created.previous 0)
  let deletedRemote ← staged "remote_rotation".toList
    (pruneRemote rcloneRemote target circumstances created.safeSlug)
  pure
    { targetId := target.id
      backupSlug := created.slug
      backupName := managedPrefix target ++ circumstances.timestamp
      remotePath :=
        targetRoot rcloneRemote target ++ '/' :: archivePath circumstances created.safeSlug
      sizeBytes := download.sizeBytes
      sha256 := download.sha256
      deletedLocalBackups := deleted
      deletedRemoteBackups := deletedRemote }

/-- `BackupCoordinator.run`. -/
def run : Statements World BackupFailure HaosResult := do
  let (created, download) ← publish target circumstances
  rotate rcloneRemote target circumstances created download

end Run

/-! ## What the log tells -/

/-- Nothing is deleted, and the log has no deletion. -/
def Quiet (before after : World) : Prop :=
  ∃ events, after.log = before.log ++ events ∧ (∀ event ∈ events, ¬ event.IsDeletion) ∧
    before.locals ⊆ after.locals ∧ before.tree.files ⊆ after.tree.files

theorem Quiet.refl (world : World) : Quiet world world :=
  ⟨[], (List.append_nil _).symm, by simp, List.Subset.refl _, List.Subset.refl _⟩

theorem Quiet.trans {first second third : World} (left : Quiet first second)
    (right : Quiet second third) : Quiet first third := by
  rcases left with ⟨events, log, quiet, locals, files⟩
  rcases right with ⟨later, log', quiet', locals', files'⟩
  refine ⟨events ++ later, ?_, ?_, List.Subset.trans locals locals', List.Subset.trans files files'⟩
  · rw [log', log, List.append_assoc]
  · intro event inside
    exact (List.mem_append.mp inside).elim (quiet event) (quiet' event)

/-- What is deleted is in the log. -/
def Logged (before after : World) : Prop :=
  ∃ events, after.log = before.log ++ events ∧
    (∀ backup ∈ before.locals, backup ∉ after.locals → .deletedLocal backup.slug ∈ events) ∧
      ∀ path ∈ before.tree.files, path ∉ after.tree.files → .deletedRemote path ∈ events

theorem Logged.refl (world : World) : Logged world world :=
  ⟨[], (List.append_nil _).symm, fun _ inside gone => absurd inside gone,
    fun _ inside gone => absurd inside gone⟩

theorem Logged.trans {first second third : World} (left : Logged first second)
    (right : Logged second third) : Logged first third := by
  rcases left with ⟨events, log, locals, files⟩
  rcases right with ⟨later, log', locals', files'⟩
  refine ⟨events ++ later, by rw [log', log, List.append_assoc], ?_, ?_⟩
  · intro backup inside gone
    rw [List.mem_append]
    by_cases there : backup ∈ second.locals
    · exact Or.inr (locals' backup there gone)
    · exact Or.inl (locals backup inside there)
  · intro path inside gone
    rw [List.mem_append]
    by_cases there : path ∈ second.tree.files
    · exact Or.inr (files' path there gone)
    · exact Or.inl (files path inside there)

theorem Quiet.logged {before after : World} (quiet : Quiet before after) : Logged before after := by
  rcases quiet with ⟨events, log, _, locals, files⟩
  exact ⟨events, log, fun _ inside gone => absurd (locals inside) gone,
    fun _ inside gone => absurd (files inside) gone⟩

section Log

variable {target : Target} {circumstances : HaosCircumstances} {rcloneRemote : Text}
  {R : World → World → Prop}

theorem quiet_bind {α β : Type} {body : Statements World BackupFailure α}
    {next : α → Statements World BackupFailure β} (first : Relates Quiet body)
    (rest : ∀ answer, Relates Quiet (next answer)) : Relates Quiet (body >>= next) :=
  Relates.bind (R := Quiet) (fun _ _ _ => Quiet.trans) first rest

theorem logged_bind {α β : Type} {body : Statements World BackupFailure α}
    {next : α → Statements World BackupFailure β} (first : Relates Logged body)
    (rest : ∀ answer, Relates Logged (next answer)) : Relates Logged (body >>= next) :=
  Relates.bind (R := Logged) (fun _ _ _ => Logged.trans) first rest

theorem quiet_staged {α : Type} {stage : Text} {body : Statements World BackupFailure α}
    (kept : Relates Quiet body) : Relates Quiet (staged stage body) :=
  Relates.handle (R := Quiet) (fun _ _ _ => Quiet.trans) kept
    fun _ => relates_of_unchanged Quiet.refl fun _ => rfl

theorem logged_staged {α : Type} {stage : Text} {body : Statements World BackupFailure α}
    (kept : Relates Logged body) : Relates Logged (staged stage body) :=
  Relates.handle (R := Logged) (fun _ _ _ => Logged.trans) kept
    fun _ => relates_of_unchanged Logged.refl fun _ => rfl

theorem quiet_liftExcept {α : Type} (result : Except BackupFailure α) :
    Relates Quiet (liftExcept result : Statements World BackupFailure α) :=
  relates_liftExcept Quiet.refl result

theorem quiet_pure {α : Type} (answer : α) :
    Relates Quiet (pure answer : Statements World BackupFailure α) :=
  relates_of_unchanged Quiet.refl fun _ => rfl

theorem quiet_storeObject (run : UploadRun) (path : Text) :
    Relates Quiet (storeObject run path) := by
  unfold storeObject
  split
  · apply relates_modify
    intro world
    exact ⟨[.stored path], rfl, by simp [Event.IsDeletion], List.Subset.refl _,
      fun _ inside => List.mem_insert_of_mem inside⟩
  · exact quiet_pure ()

theorem quiet_upload (run : UploadRun) (path : Text) (sizeBytes : Int) (transferred : Nat) :
    Relates Quiet (upload run path sizeBytes transferred) := by
  unfold upload
  split
  · exact relates_of_unchanged Quiet.refl fun _ => rfl
  · apply quiet_bind (quiet_liftExcept _)
    rintro ⟨⟩
    apply quiet_bind (quiet_storeObject run path)
    rintro ⟨⟩
    apply quiet_bind (quiet_liftExcept _)
    rintro ⟨⟩
    apply quiet_bind (quiet_liftExcept _)
    rintro ⟨⟩
    apply relates_modify
    intro world
    exact ⟨[.validated path sizeBytes], rfl, by simp [Event.IsDeletion], List.Subset.refl _,
      List.Subset.refl _⟩

theorem quiet_prepare : Relates Quiet (prepare target circumstances) := by
  unfold prepare
  apply quiet_bind (quiet_liftExcept _)
  intro token
  apply quiet_bind (quiet_liftExcept _)
  intro _
  apply quiet_bind (quiet_liftExcept _)
  intro password
  apply quiet_bind (quiet_liftExcept _)
  intro _
  apply quiet_bind (quiet_liftExcept _)
  intro _
  apply quiet_bind (quiet_staged (quiet_liftExcept _))
  intro _
  apply quiet_bind (relates_get Quiet.refl)
  intro before
  apply quiet_bind (quiet_staged (quiet_liftExcept _))
  intro _
  apply quiet_bind (quiet_staged (quiet_liftExcept _))
  intro slug
  apply quiet_bind
  · apply relates_modify
    intro world
    exact ⟨[], (List.append_nil _).symm, by simp, List.subset_append_left _ _,
      List.Subset.refl _⟩
  · intro _
    apply quiet_bind (quiet_liftExcept _)
    intro safeSlug
    exact quiet_pure _

theorem quiet_uploadArchive (safeSlug : Text) :
    Relates Quiet (uploadArchive circumstances safeSlug) := by
  apply quiet_staged
  apply quiet_bind (quiet_liftExcept _)
  intro download
  apply quiet_bind (quiet_upload _ _ _ _)
  intro _
  apply quiet_bind (quiet_liftExcept _)
  intro _
  exact quiet_pure download

theorem quiet_uploadChecksum (safeSlug sha256 : Text) :
    Relates Quiet (uploadChecksum circumstances safeSlug sha256) :=
  quiet_staged (quiet_upload _ _ _ _)

theorem quiet_publish : Relates Quiet (publish target circumstances) := by
  apply quiet_bind quiet_prepare
  intro created
  apply quiet_bind (quiet_uploadArchive created.safeSlug)
  intro download
  apply quiet_bind (quiet_uploadChecksum created.safeSlug download.sha256)
  intro _
  exact quiet_pure _

theorem logged_withoutLocal (slug : Text) (world : World) :
    Logged world (world.withoutLocal slug) := by
  refine ⟨[.deletedLocal slug], rfl, ?_, fun _ inside gone => absurd inside gone⟩
  intro backup inside gone
  have same : backup.slug = slug := by
    by_contra different
    exact gone (List.mem_filter.mpr ⟨inside, decide_eq_true different⟩)
  rw [same]
  exact List.mem_cons_self

theorem logged_deleteLocal (slug : Text) : Relates Logged (deleteLocal circumstances slug) := by
  unfold deleteLocal
  split
  · exact relates_modify (logged_withoutLocal slug)
  · apply logged_bind (relates_modify (logged_withoutLocal slug))
    intro _
    exact relates_of_unchanged Logged.refl fun _ => rfl
  · exact relates_of_unchanged Logged.refl fun _ => rfl

theorem logged_deleteLocals (slug : Text) (previous : List LocalBackup) (deleted : Nat) :
    Relates Logged (deleteLocals circumstances slug previous deleted) := by
  induction previous generalizing deleted with
  | nil => exact relates_of_unchanged Logged.refl fun _ => rfl
  | cons old rest inductionHypothesis =>
      unfold deleteLocals
      split
      · exact inductionHypothesis deleted
      · apply logged_bind (logged_deleteLocal old.slug)
        intro _
        exact inductionHypothesis (deleted + 1)

theorem logged_pruneRemote (safeSlug : Text) :
    Relates Logged (pruneRemote rcloneRemote target circumstances safeSlug) := by
  intro world
  unfold pruneRemote
  rw [run_bind_of_ok run_get, run_bind_of_ok (run_modify _), run_liftExcept]
  refine ⟨_, rfl, fun _ inside gone => absurd inside gone, ?_⟩
  intro path inside gone
  exact List.mem_map_of_mem (List.mem_filter.mpr ⟨inside, decide_eq_true gone⟩)

theorem logged_rotate (created : Created) (download : Download) :
    Relates Logged (rotate rcloneRemote target circumstances created download) := by
  unfold rotate
  apply logged_bind (logged_staged (logged_deleteLocals _ _ _))
  intro deleted
  apply logged_bind (logged_staged (logged_pruneRemote _))
  intro deletedRemote
  exact relates_of_unchanged Logged.refl fun _ => rfl

/-- An upload that ends has stored its object and validated its size. -/
theorem upload_eq_ok {circumstance : UploadRun} {path : Text} {sizeBytes : Int}
    {transferred : Nat} {world after : World}
    (ended : (upload circumstance path sizeBytes transferred).run world = (.ok (), after)) :
    after.log = world.log ++ [.stored path, .validated path sizeBytes] := by
  unfold upload at ended
  split at ended
  · cases ended
  · rcases run_bind_eq_ok ended with ⟨_, first, ready, stores⟩
    rcases run_bind_eq_ok stores with ⟨_, second, stored, checks⟩
    rcases run_bind_eq_ok checks with ⟨_, third, checked, validates⟩
    rcases run_bind_eq_ok validates with ⟨_, fourth, validated, records⟩
    have passed := run_liftExcept_eq_ok checked
    rw [storeObject, if_pos (uploadChecks_ok passed.1).2, run_modify, Prod.mk.injEq] at stored
    rw [run_modify, Prod.mk.injEq] at records
    rw [← records.2, (run_liftExcept_eq_ok validated).2, passed.2, ← stored.2,
      (run_liftExcept_eq_ok ready).2]
    simp [World.record]

/-- The events of an upload that ends. -/
def uploaded (path : Text) (sizeBytes : Int) : List Event :=
  [.stored path, .validated path sizeBytes]

theorem uploadArchive_eq_ok {safeSlug : Text} {download : Download} {world after : World}
    (ended : (uploadArchive circumstances safeSlug).run world = (.ok download, after)) :
    after.log = world.log ++ uploaded (archivePath circumstances safeSlug) download.sizeBytes := by
  rcases run_bind_eq_ok (run_handle_eq_ok ended) with ⟨found, first, opened, uploads⟩
  rcases run_bind_eq_ok uploads with ⟨_, second, stored, closes⟩
  rcases run_bind_eq_ok closes with ⟨_, third, closed, returns⟩
  rw [run_pure, Prod.mk.injEq, Except.ok.injEq] at returns
  rw [← returns.2, ← returns.1, (run_liftExcept_eq_ok closed).2, upload_eq_ok stored,
    (run_liftExcept_eq_ok opened).2]
  rfl

theorem uploadChecksum_eq_ok {safeSlug sha256 : Text} {world after : World}
    (ended : (uploadChecksum circumstances safeSlug sha256).run world = (.ok (), after)) :
    after.log = world.log ++ uploaded (Tree.checksumPath (archivePath circumstances safeSlug))
      (checksumBody circumstances sha256 safeSlug).length :=
  upload_eq_ok (run_handle_eq_ok ended)

/-- A run that publishes has stored the archive and then its checksum, and validated both
sizes. -/
theorem publish_eq_ok {created : Created} {download : Download} {world after : World}
    (ended : (publish target circumstances).run world = (.ok (created, download), after)) :
    ∃ events, after.log = world.log ++ (events ++
      uploaded (archivePath circumstances created.safeSlug) download.sizeBytes ++
        uploaded (Tree.checksumPath (archivePath circumstances created.safeSlug))
          (checksumBody circumstances download.sha256 created.safeSlug).length) := by
  rcases run_bind_eq_ok ended with ⟨first, prepared, prepares, uploads⟩
  rcases run_bind_eq_ok uploads with ⟨second, archived, archives, checksums⟩
  rcases run_bind_eq_ok checksums with ⟨_, checked, checks, returns⟩
  cases returns
  have quiet := @quiet_prepare target circumstances world
  rw [prepares] at quiet
  rcases quiet with ⟨events, log, _⟩
  refine ⟨events, ?_⟩
  rw [uploadChecksum_eq_ok checks, uploadArchive_eq_ok archives, log]
  simp only [List.append_assoc]

theorem logged_run : Relates Logged (run rcloneRemote target circumstances) := by
  apply logged_bind
  · exact fun world => (quiet_publish world).logged
  · rintro ⟨created, download⟩
    exact logged_rotate created download

end Log

/-- Before a deletion, the archive and its checksum were stored and validated. -/
def DeletesAfterUploads (circumstances : HaosCircumstances) (events : List Event) : Prop :=
  ∀ before event later, events = before ++ event :: later → event.IsDeletion →
    ∃ earlier slug sha256 sizeBytes after,
      before = earlier ++ uploaded (archivePath circumstances slug) sizeBytes ++
        uploaded (Tree.checksumPath (archivePath circumstances slug))
          (checksumBody circumstances sha256 slug).length ++ after

section Order

variable (rcloneRemote : Text) (target : Target) (circumstances : HaosCircumstances)

/-- A deletion comes after both uploads. -/
theorem run_deletes_after_uploads (world : World) :
    ∃ events, ((run rcloneRemote target circumstances).run world).2.log = world.log ++ events ∧
      DeletesAfterUploads circumstances events := by
  have quiet := @quiet_publish target circumstances world
  unfold run
  cases published : (publish target circumstances).run world with
  | mk result working =>
      rw [published] at quiet
      rcases quiet with ⟨events, log, calm, _⟩
      cases result with
      | error failure =>
          rw [run_bind_of_error published]
          refine ⟨events, log, ?_⟩
          rintro before event later rfl deletion
          exact absurd deletion (calm event (List.mem_append_right before List.mem_cons_self))
      | ok answer =>
          rcases answer with ⟨created, download⟩
          rw [run_bind_of_ok published]
          have rotated := @logged_rotate target circumstances rcloneRemote created download working
          rcases rotated with ⟨more, log', _⟩
          rcases publish_eq_ok published with ⟨earlier, whole⟩
          rw [log] at whole
          have same := List.append_cancel_left whole
          refine ⟨events ++ more, ?_, ?_⟩
          · rw [← List.append_assoc, ← log]
            exact log'
          · intro before event later split deletion
            have published : ∃ rest, before = events ++ rest := by
              rcases List.append_eq_append_iff.mp split with ⟨rest, whole, _⟩ | ⟨rest, whole, tail⟩
              · exact ⟨rest, whole⟩
              · cases rest with
                | nil => exact ⟨[], by rw [whole, List.append_nil, List.append_nil]⟩
                | cons first rest =>
                    cases tail
                    refine absurd deletion (calm event ?_)
                    rw [whole]
                    exact List.mem_append_right before List.mem_cons_self
            rcases published with ⟨rest, rfl⟩
            exact ⟨earlier, created.safeSlug, download.sha256, download.sizeBytes, rest,
              by rw [same]⟩

/-- What a run deletes is in its log, after both uploads. -/
def RotatesAfterUploads (world : World) : Prop :=
  ∃ events, ((run rcloneRemote target circumstances).run world).2.log = world.log ++ events ∧
    DeletesAfterUploads circumstances events ∧
      (∀ backup ∈ world.locals,
        backup ∉ ((run rcloneRemote target circumstances).run world).2.locals →
          .deletedLocal backup.slug ∈ events) ∧
        ∀ path ∈ world.tree.files,
          path ∉ ((run rcloneRemote target circumstances).run world).2.tree.files →
            .deletedRemote path ∈ events

theorem rotatesAfterUploads (world : World) :
    RotatesAfterUploads rcloneRemote target circumstances world := by
  rcases run_deletes_after_uploads rcloneRemote target circumstances world with
    ⟨events, log, ordered⟩
  rcases @logged_run target circumstances rcloneRemote world with ⟨same, log', locals, files⟩
  rw [log] at log'
  have equal := List.append_cancel_left log'
  subst equal
  exact ⟨events, log, ordered, locals, files⟩

end Order

/-! ## Retention is safe -/

def firstBackup : Text := "20260101T000000Z".toList

def secondBackup : Text := "20260102T000000Z".toList

/-- A later directory without a manifest. -/
def unfinishedBackup : Text := "20260103T000000Z".toList

def threeDirectories : Tree where
  files := [Tree.manifestPath firstBackup, Tree.manifestPath secondBackup]
  directories := [firstBackup, secondBackup, unfinishedBackup]
  distinctFiles := by decide
  distinctDirectories := by decide
  names := by decide

theorem threeDirectories_plain : threeDirectories.Plain where
  files := by decide
  directories := by decide

def calmCommands : Commands where
  listing := none
  probe _ := .answered
  delete _ := .succeeds

end OhanaAgent.Plugins.Backup.Haos
