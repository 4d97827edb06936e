import Mathlib.Data.Char
import Mathlib.Data.List.Lex
import Mathlib.Data.List.MinMax
import OhanaAgent.Encoding.Lines
import OhanaAgent.Plugins.BackupTransfers
import OhanaAgent.Privacy.SessionPaths
import OhanaAgent.Store.Retention

/-!
# Retention on the remote

Two layouts of backups are pruned: directories with a manifest, and archives with a
checksum beside them.  Both prunes list the remote, keep the newest complete backups
and the protected one, and delete the others; any of their commands may fail.
-/

namespace OhanaAgent.Plugins.Backup.Retention

open OhanaAgent.Encoding (OneLine joinLines splitLines splitLines_joinLines trim)
open OhanaAgent.Encoding.Json (Text)
open OhanaAgent.Privacy (isWhitespace)
open OhanaAgent.Store

/-! ## Trees -/

/-- What is below a remote root: the paths of the files, and the names of the
directories directly below it. -/
structure Tree where
  files : List Text
  directories : List Text
  distinctFiles : files.Nodup
  distinctDirectories : directories.Nodup
  names : ∀ name ∈ directories, '/' ∉ name

namespace Tree

/-- No name has a line break or a blank at its ends. -/
structure Plain (tree : Tree) : Prop where
  files : ∀ path ∈ tree.files, path ≠ [] ∧ OneLine path ∧ trim isWhitespace path = path
  directories : ∀ name ∈ tree.directories, OneLine name ∧ trim isWhitespace name = name

/-- Remove files and directories. -/
def remove (tree : Tree) (file directory : Text → Bool) : Tree where
  files := tree.files.filter fun path => !file path
  directories := tree.directories.filter fun name => !directory name
  distinctFiles := tree.distinctFiles.filter _
  distinctDirectories := tree.distinctDirectories.filter _
  names name inside := tree.names name (List.mem_filter.mp inside).1

/-- A path below a directory. -/
def isBelow (directory path : Text) : Bool :=
  (directory ++ ['/']).isPrefixOf path

def manifestPath (directory : Text) : Text := directory ++ '/' :: manifestName

def checksumPath (path : Text) : Text := path ++ ".sha256".toList

/-- A backup of the first layout: a directory with a time as its name and a manifest. -/
def isCompleteDirectory (tree : Tree) (directory : Text) : Bool :=
  isBackupId directory && manifestPath directory ∈ tree.files

def completeDirectories (tree : Tree) : List Text :=
  tree.directories.filter tree.isCompleteDirectory

def isArchive (path : Text) : Bool :=
  ".tar".toList.isSuffixOf path

/-- A backup of the second layout: an archive with its checksum. -/
def isCompleteArchive (tree : Tree) (path : Text) : Bool :=
  isArchive path && checksumPath path ∈ tree.files

def completeArchives (tree : Tree) : List Text :=
  tree.files.filter tree.isCompleteArchive

end Tree

/-- `path.rsplit("/", 1)[-1]`. -/
def lastName (path : Text) : Text :=
  path.rtakeWhile (· ≠ '/')

/-! ## Commands -/

/-- How a deleting command ends; one that fails may have deleted some of the files. -/
inductive Deletion where
  | succeeds
  | fails (stderr : Text) (deletes : Text → Bool)

/-- How the commands of a prune end: the listing, the probe of each directory, and the
deletion of each object. -/
structure Commands where
  listing : Option Text
  probe : Text → StatAnswer
  delete : Text → Deletion

/-- No command fails. -/
structure Commands.Succeed (commands : Commands) : Prop where
  listing : commands.listing = none
  probe : ∀ directory, commands.probe directory = .answered
  delete : ∀ path, commands.delete path = .succeeds

section Prune

variable (commands : Commands)

/-! ## Directories -/

/-- What `rclone lsf --dirs-only` prints. -/
def directoryListing (tree : Tree) : Text :=
  joinLines (tree.directories.map (· ++ ['/']) ++ [[]])

/-- The sorted times in a listing. -/
def listedDirectories (stdout : Text) : List Text :=
  sortedBy id (((splitLines stdout).map fun line =>
    (trim isWhitespace line).rdropWhile (· = '/')).filter isBackupId)

/-- `_remote_object_exists` of a manifest. -/
def manifestExists (tree : Tree) (directory : Text) : Bool :=
  match commands.probe directory with
  | .answered => Tree.manifestPath directory ∈ tree.files
  | _ => false

/-- The loop over the stale directories, which `rclone purge` deletes. -/
def purgeAll : Nat → List Text → Tree → Except BackupFailure Nat × Tree
  | deleted, [], tree => (.ok deleted, tree)
  | deleted, directory :: rest, tree =>
      match commands.delete directory with
      | .succeeds =>
          purgeAll (deleted + 1) rest (tree.remove (Tree.isBelow directory) (· = directory))
      | .fails stderr deletes =>
          (.error (.upload ("rclone could not delete old backup ".toList ++ directory ++
            ": ".toList ++ stderr.take 1000)),
            tree.remove (fun path => Tree.isBelow directory path && deletes path) fun _ => false)

/-- The complete directories that are seen. -/
def seenDirectories (tree : Tree) : List Text :=
  (listedDirectories (directoryListing tree)).filter (manifestExists commands tree)

/-- The elements that are not retained. -/
def stale (count : Nat) (kept : Option Text) (complete : List Text) : List Text :=
  complete.filter fun backup => backup ∉ lastOnes count complete ∧ kept ≠ some backup

/-- `prune_complete_backup_directories`. -/
def pruneCompleteBackupDirectories (keepCount : Int) (protectedDirectory : Option Text)
    (tree : Tree) : Except BackupFailure Nat × Tree :=
  if keepCount ≤ 0 then (.ok 0, tree)
  else
    match commands.listing with
    | some stderr =>
        (.error (.upload ("rclone could not list backup directories: ".toList ++
          stderr.take 1000)), tree)
    | none =>
        purgeAll commands 0
          (stale keepCount.toNat protectedDirectory (seenDirectories commands tree)) tree

/-! ## Archives -/

/-- What `rclone lsf -R --files-only` prints. -/
def fileListing (tree : Tree) : Text :=
  joinLines (tree.files ++ [[]])

/-- The paths in a listing. -/
def listedPaths (stdout : Text) : List Text :=
  (((splitLines stdout).map (trim isWhitespace)).filter fun line => line ≠ []).dedup

/-- The complete archives in a listing, sorted by their names. -/
def listedArchives (stdout : Text) : List Text :=
  sortedBy lastName ((listedPaths stdout).filter fun path =>
    Tree.isArchive path && Tree.checksumPath path ∈ listedPaths stdout)

/-- `protected_path.removeprefix(...)`. -/
def relativePath (remoteRoot path : Text) : Text :=
  if (remoteRoot ++ ['/']).isPrefixOf path then path.drop (remoteRoot.length + 1) else path

/-- The protected path below the root; an empty path protects nothing. -/
def protectedBelow (remoteRoot : Text) : Option Text → Option Text
  | none => none
  | some [] => none
  | some path => some (relativePath remoteRoot path)

/-- `rclone deletefile` of one file. -/
def deleteFile (path : Text) (tree : Tree) : Option Text × Tree :=
  match commands.delete path with
  | .succeeds => (none, tree.remove (· = path) fun _ => false)
  | .fails stderr deletes =>
      (some stderr, tree.remove (fun other => other = path && deletes other) fun _ => false)

/-- The loop over the stale archives: each one, then its checksum. -/
def deleteAll : Nat → List Text → Tree → Except BackupFailure Nat × Tree
  | deleted, [], tree => (.ok deleted, tree)
  | deleted, path :: rest, tree =>
      match deleteFile commands path tree with
      | (some stderr, tree) => (.error (failed path stderr), tree)
      | (none, tree) =>
          match deleteFile commands (Tree.checksumPath path) tree with
          | (some stderr, tree) => (.error (failed path stderr), tree)
          | (none, tree) => deleteAll (deleted + 1) rest tree
where
  failed (path stderr : Text) : BackupFailure :=
    .upload ("rclone could not delete old backup ".toList ++ path ++ ": ".toList ++
      stderr.take 1000)

/-- `prune_complete_archives`. -/
def pruneCompleteArchives (remoteRoot : Text) (keepCount : Int) (protectedPath : Option Text)
    (tree : Tree) : Except BackupFailure Nat × Tree :=
  if keepCount ≤ 0 then (.ok 0, tree)
  else
    match commands.listing with
    | some stderr =>
        (.error (.upload ("rclone could not list backup archives: ".toList ++
          stderr.take 1000)), tree)
    | none =>
        deleteAll commands 0
          (stale keepCount.toNat (protectedBelow remoteRoot protectedPath)
            (listedArchives (fileListing tree))) tree

end Prune

/-! ## The latest backup -/

/-- `Candidate`. -/
structure Candidate where
  target : Text
  backupRef : Text
  archivePath : Text
  expectedSize : Option Int
  expectedSha256 : Text
  mustBeAge : Bool

/-- The archive that a manifest names. -/
structure ManifestArchive where
  filename : Text
  sha256 : Text
  sizeBytes : Int

/-- What the verifier reads besides the listing: an `RcloneReadError`, the archive of a
manifest, or the digest of a checksum file. -/
structure Reads where
  listing : Option Text
  manifest : Text → Except Text ManifestArchive
  digest : Text → Except Text Text

/-- The backup of a path that is its manifest. -/
def infraBackup (path : Text) : Option Text :=
  match path.splitOn '/' with
  | [directory, name] =>
      if name = manifestName ∧ isBackupId directory then some directory else none
  | _ => none

/-- `_latest_infra`. -/
def latestInfra (reads : Reads) (target remote : Text) (files : List Text) :
    Except Text (Option Candidate) :=
  match (sortedBy id (files.filterMap infraBackup)).getLast? with
  | none => .ok none
  | some backupId => do
      let archive ← reads.manifest backupId
      pure (some ⟨target, backupId, remote ++ '/' :: backupId ++ '/' :: archive.filename,
        some archive.sizeBytes, archive.sha256, true⟩)

/-- `_latest_haos`. -/
def latestHaos (reads : Reads) (target remote : Text) (files : List Text) :
    Except Text (Option Candidate) :=
  let archives := sortedBy id (files.filter fun path =>
    Tree.isArchive path && Tree.checksumPath path ∈ files)
  match archives.argmax lastName with
  | none => .ok none
  | some path => do
      let digest ← reads.digest path
      pure (some ⟨target, (lastName path).take ((lastName path).length - 4),
        remote ++ '/' :: path, none, digest, false⟩)

def infraTarget : Text := "infra-01".toList

/-- `latest`. -/
def latest (reads : Reads) (rcloneRemote target : Text) (tree : Tree) :
    Except Text (Option Candidate) :=
  match reads.listing with
  | some stderr => .error stderr
  | none =>
      let remote := rcloneRemote ++ '/' :: target
      if target = infraTarget then latestInfra reads target remote tree.files
      else latestHaos reads target remote tree.files

end OhanaAgent.Plugins.Backup.Retention
