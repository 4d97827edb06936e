import OhanaAgent.Plugins.BackupTransfers
import OhanaAgent.Store.Dictionary

/-!
# Archives of the sources

Two flows put the sources, a snapshot of the Vision database and a descriptor into
one tar: `InfraBackupCoordinator.run` encrypts it on the spot, and the stream of
`open_source` sends it to a worker.  Both walk the sources with `archive.add`.
-/

namespace OhanaAgent.Plugins.Backup.SourceArchive

open OhanaAgent.Encoding.Json (Text)
open OhanaAgent.Store

/-! ## The file system -/

/-- The components of an absolute path. -/
abbrev Path : Type := List Text

instance : LawfulBEq Path := inferInstance

/-- A regular file: its number and device, the number of its names, and its bytes,
which can be read or not. -/
structure File where
  inode : Nat × Nat
  links : Nat
  readable : Bool
  content : Bytes

mutual

/-- What `lstat` finds at a path; a link has what is found by following it. -/
inductive Node where
  | file (file : File)
  | directory (listable : Bool) (children : Children)
  | link (target : Node)
  | dangling
  | device
  | socket

/-- The names in a directory, in the order of `sorted(os.listdir(...))`. -/
inductive Children where
  | nil
  | cons (name : Text) (node : Node) (rest : Children)

end

namespace Node

/-- What is found by following links. -/
def follow : Node → Node
  | .link target => target.follow
  | node => node

/-- `path.exists()`. -/
def isThere (node : Node) : Bool :=
  match node.follow with
  | .dangling => false
  | _ => true

/-- `path.is_file()`. -/
def isFile (node : Node) : Bool :=
  match node.follow with
  | .file _ => true
  | _ => false

/-- An entry of a directory that is found by following links. -/
def child (node : Node) (name : Text) : Option Node :=
  match node.follow with
  | .directory _ children => find children
  | _ => none
where
  find : Children → Option Node
    | .nil => none
    | .cons other node rest => if other = name then some node else find rest

end Node

/-- The names of a directory. -/
def Children.names : Children → List Text
  | .nil => []
  | .cons name _ rest => name :: rest.names

mutual

/-- The names of every directory increase. -/
def Node.Sorted : Node → Prop
  | .directory _ children => children.names.Pairwise (· < ·) ∧ children.Sorted
  | .link target => target.Sorted
  | _ => True

def Children.Sorted : Children → Prop
  | .nil => True
  | .cons _ node rest => node.Sorted ∧ rest.Sorted

end

mutual

/-- A node and what is below it, without following links. -/
def Node.entries (path : Path) : Node → List (Path × Node)
  | .directory listable children =>
      (path, .directory listable children) :: children.entries path
  | node => [(path, node)]

def Children.entries (path : Path) : Children → List (Path × Node)
  | .nil => []
  | .cons name node rest => node.entries (path ++ [name]) ++ rest.entries path

end

/-- `INFRA_SOURCES`. -/
inductive Source where
  | agent
  | vision
  | dnsmasq
  | chrony
  deriving DecidableEq

def Source.path : Source → Path
  | .agent => ["etc".toList, "ohana-agent".toList]
  | .vision => ["etc".toList, "ohana-vision".toList]
  | .dnsmasq => ["etc".toList, "dnsmasq.d".toList]
  | .chrony => ["etc".toList, "chrony".toList, "chrony.conf".toList]

def infraSources : List Source := [.agent, .vision, .dnsmasq, .chrony]

/-- The places that a backup reads. -/
structure FileSystem where
  source : Source → Option Node
  visionDatabase : Option Node
  sorted : ∀ place node, source place = some node → node.Sorted

/-! ## Members -/

def authorizationsPath : Path :=
  ["etc".toList, "ohana-agent".toList, "recovery".toList, "authorizations.json".toList]

def caKeyPath : Path :=
  ["etc".toList, "ohana-agent".toList, "tls".toList, "ca.key".toList]

def caSerialPath : Path :=
  ["etc".toList, "ohana-agent".toList, "tls".toList, "ca.srl".toList]

def visionDatabasePath : Path :=
  ["var".toList, "lib".toList, "ohana-vision".toList, "vision.db".toList]

def descriptorPath : Path := ["ohana-backup".toList, "descriptor.json".toList]

/-- `INFRA_EXCLUDED_MEMBERS`. -/
def infraExcludedMembers : List Path := [authorizationsPath, caKeyPath, caSerialPath]

/-- `INFRA_REQUIRED_MEMBERS`. -/
def infraRequiredMembers : List Path :=
  [Source.agent.path, Source.vision.path, Source.dnsmasq.path, Source.chrony.path,
    visionDatabasePath]

structure Descriptor where
  schemaVersion : Nat
  backupId : Text
  createdAt : Text
  profile : Text
  agentVersion : Text
  visionVersion : Text
  contents : List Path

/-- `_descriptor`. -/
def descriptor (backupId createdAt agentVersion visionVersion : Text) : Descriptor where
  schemaVersion := 1
  backupId := backupId
  createdAt := createdAt
  profile := "infra-01".toList
  agentVersion := agentVersion
  visionVersion := visionVersion
  contents := infraRequiredMembers

inductive Body where
  | directory
  | file (content : Bytes)
  | descriptor (document : Descriptor)

structure Member where
  name : Path
  body : Body

/-! ## The tar -/

/-- The exceptions of a backup. -/
inductive ArchiveFailure where
  | execution (stage message : Text)
  | other (message : Text)
  | interrupted (name : Text)

/-- The type of a `TarInfo`. -/
inductive Kind where
  | regular
  | hardLink
  | directory
  | symbolicLink
  | special
  deriving DecidableEq

structure TarInfo where
  name : Path
  kind : Kind

/-- A tar that is written: the inodes with the names under which they came, and the
members. -/
structure Tar where
  inodes : Dictionary (Nat × Nat) Path
  members : List Member

/-- `_regular_member`. -/
def regularMember (member : TarInfo) : Option TarInfo :=
  if member.name ∈ infraExcludedMembers then none
  else if member.kind = .regular ∨ member.kind = .directory then some member
  else none

namespace Tar

def empty : Tar := ⟨[], []⟩

/-- `addfile`. -/
def addFile (tar : Tar) (name : Path) (body : Body) : Tar :=
  { tar with members := tar.members ++ [⟨name, body⟩] }

/-- `gettarinfo`: a file with several names is a hard link when it came before. -/
def getTarInfo (tar : Tar) (name : Path) : Node → Option TarInfo × Tar
  | .file file =>
      if 1 < file.links ∧ (tar.inodes.find file.inode).any (name ≠ ·) then
        (some ⟨name, .hardLink⟩, tar)
      else
        (some ⟨name, .regular⟩,
          if file.inode.1 = 0 then tar
          else { tar with inodes := tar.inodes.upsert file.inode name fun _ => name })
  | .directory _ _ => (some ⟨name, .directory⟩, tar)
  | .link _ => (some ⟨name, .symbolicLink⟩, tar)
  | .dangling => (some ⟨name, .symbolicLink⟩, tar)
  | .device => (some ⟨name, .special⟩, tar)
  | .socket => (none, tar)

/-- `archive.add` of one path, up to the names below it. -/
def addOne (tar : Tar) (path : Path) (node : Node) : Except ArchiveFailure Tar :=
  match (tar.getTarInfo path node).1.bind regularMember with
  | none => .ok (tar.getTarInfo path node).2
  | some member =>
      match node with
      | .file file =>
          if file.readable then
            .ok ((tar.getTarInfo path node).2.addFile member.name (.file file.content))
          else .error (.other "open".toList)
      | .directory listable _ =>
          if listable then .ok ((tar.getTarInfo path node).2.addFile member.name .directory)
          else .error (.other "listdir".toList)
      | _ => .ok (tar.getTarInfo path node).2

end Tar

mutual

/-- `archive.add(..., recursive=True, filter=_regular_member)`. -/
def Node.addTo (path : Path) : Node → Tar → Except ArchiveFailure Tar
  | .directory listable children, tar => do
      let tar ← tar.addOne path (.directory listable children)
      -- nothing below an excluded directory is reached
      if path ∈ infraExcludedMembers then pure tar else children.addTo path tar
  | node, tar => tar.addOne path node

def Children.addTo (path : Path) : Children → Tar → Except ArchiveFailure Tar
  | .nil, tar => .ok tar
  | .cons name node rest, tar => do
      let tar ← node.addTo (path ++ [name]) tar
      rest.addTo path tar

end

/-- The loop over the sources; `lstat` raises when one is not there. -/
def addSources (files : FileSystem) : List Source → Tar → Except ArchiveFailure Tar
  | [], tar => .ok tar
  | source :: sources, tar =>
      match files.source source with
      | none => .error (.other "lstat".toList)
      | some node => do
          let tar ← node.addTo source.path tar
          addSources files sources tar

/-- `archive.add` of a file of the runtime directory, which has one name. -/
def Tar.addRuntimeFile (name : Path) (body : Body) (tar : Tar) : Tar :=
  if (regularMember ⟨name, .regular⟩).isSome then tar.addFile name body else tar

/-- The last members of both flows; the authorizations are not filtered. -/
def Tar.finish (authorizations snapshot : Option Bytes) (document : Descriptor) (tar : Tar) : Tar :=
  let tar := match authorizations with
    | none => tar
    | some content => tar.addFile authorizationsPath (.file content)
  let tar := match snapshot with
    | none => tar
    | some content => tar.addRuntimeFile visionDatabasePath (.file content)
  tar.addRuntimeFile descriptorPath (.descriptor document)

/-! ## What both flows call -/

/-- What a call raises, if it raises. -/
def attempt : Option ArchiveFailure → Except ArchiveFailure Unit
  | none => .ok ()
  | some raised => .error raised

def pathText (path : Path) : Text :=
  '/' :: ['/'].intercalate path

def joined (texts : List Text) : Text :=
  ", ".toList.intercalate texts

/-- The sources that `path.exists()` does not find. -/
def missing (files : FileSystem) : List Source :=
  infraSources.filter fun source => !((files.source source).any Node.isThere)

/-- The failure for missing sources. -/
def missingSources (sources : List Source) : ArchiveFailure :=
  .execution "inventory".toList ("Missing INFRA-01 backup source(s): ".toList ++
    joined (sources.map fun source => pathText source.path))

/-- `export_authorizations`, with what reading the databases gives. -/
def exportAuthorizations (files : FileSystem) (exported : Except ArchiveFailure Bytes) :
    Except ArchiveFailure (Option Bytes) :=
  match (files.source .agent).bind (Node.child · "shikamaru.yaml".toList) with
  | none => .ok none
  | some configuration => if configuration.isFile then exported.map some else .ok none

/-- `VISION_DATABASE.is_file()`. -/
def FileSystem.hasDatabase (files : FileSystem) : Bool :=
  files.visionDatabase.any Node.isFile

/-! ## The local flow -/

/-- What happens around a local run. -/
structure LocalCircumstances where
  enabled : Bool
  ageBinary : Text
  ageInstalled : Bool
  recipient : Except ArchiveFailure Text
  recoveryIdentity : Option ArchiveFailure
  temporaryRoot : Option ArchiveFailure
  backupId : Text
  createdAt : Text
  agentVersion : Except ArchiveFailure Text
  visionVersion : Except ArchiveFailure Text
  temporaryDirectory : Option ArchiveFailure
  vacuum : Except ArchiveFailure Bytes
  exported : Except ArchiveFailure Bytes
  encryption : Option ArchiveFailure
  publication : Option ArchiveFailure

/-- `_preflight_local`. -/
def preflightLocal (files : FileSystem) (circumstances : LocalCircumstances) :
    Except ArchiveFailure Text :=
  if !circumstances.enabled then
    .error (.execution "configuration".toList "INFRA-01 backup is disabled.".toList)
  else if !circumstances.ageInstalled then
    .error (.execution "encryption".toList
      ("age is not installed at ".toList ++ circumstances.ageBinary ++ ".".toList))
  else if missing files ≠ [] then .error (missingSources (missing files))
  else circumstances.recipient

/-- `_snapshot_vision` of the coordinator: `VACUUM INTO` creates the snapshot. -/
def snapshotLocal (files : FileSystem) (vacuum : Except ArchiveFailure Bytes) :
    Except ArchiveFailure (Option Bytes) :=
  if files.hasDatabase then vacuum.map some else .ok none

/-- `except Exception`: an exception without a stage gets one. -/
def staged {α : Type} : Except ArchiveFailure α → Except ArchiveFailure α
  | .error (.other message) => .error (.execution "infra-01".toList message)
  | result => result

/-- `InfraBackupCoordinator.run`, with the members of the tar that `age` reads. -/
def run (files : FileSystem) (circumstances : LocalCircumstances) :
    Except ArchiveFailure (List Member) := do
  let _recipient ← preflightLocal files circumstances
  attempt circumstances.recoveryIdentity
  attempt circumstances.temporaryRoot
  let agentVersion ← circumstances.agentVersion
  let visionVersion ← circumstances.visionVersion
  staged do
    attempt circumstances.temporaryDirectory
    let snapshot ← snapshotLocal files circumstances.vacuum
    let document :=
      descriptor circumstances.backupId circumstances.createdAt agentVersion visionVersion
    let tar ← addSources files infraSources .empty
    let authorizations ← exportAuthorizations files circumstances.exported
    attempt circumstances.encryption
    attempt circumstances.publication
    pure (tar.finish authorizations snapshot document).members

/-! ## The distributed flow -/

/-- An error of SQLite: whether its message names a lock, or a full disk. -/
structure SqliteError where
  message : Text
  locked : Bool
  full : Bool

/-- What happens around a source stream. -/
structure StreamCircumstances where
  authorization : Option ArchiveFailure
  temporaryRoot : Option ArchiveFailure
  temporaryDirectory : Option ArchiveFailure
  backupId : Text
  snapshotAttempts : Nat
  vacuum : Nat → Except SqliteError Bytes
  exported : Except ArchiveFailure Bytes
  agentVersion : Except ArchiveFailure Text
  visionVersion : Except ArchiveFailure Text
  output : Option ArchiveFailure

/-- The attempts after the first ones; a lock is waited for. -/
def snapshotAfter (vacuum : Nat → Except SqliteError Bytes) :
    (remaining attempt : Nat) → Except ArchiveFailure Bytes
  | remaining, attempt =>
      match vacuum attempt, remaining with
      | .ok content, _ => .ok content
      | .error error, 0 => .error (raised error)
      | .error error, later + 1 =>
          if error.locked then snapshotAfter vacuum later (attempt + 1) else .error (raised error)
where
  raised (error : SqliteError) : ArchiveFailure :=
    .execution (if error.full then "storage".toList else "snapshot".toList)
      ("Impossible de créer le snapshot compact de Vision : ".toList ++ error.message)

/-- `_snapshot_vision` of the transfer. -/
def snapshotStream (files : FileSystem) (circumstances : StreamCircumstances) :
    Except ArchiveFailure (Option Bytes) :=
  if files.hasDatabase then
    (snapshotAfter circumstances.vacuum (circumstances.snapshotAttempts - 1) 1).map some
  else .ok none

mutual

/-- `rglob("*")` below a directory; one that cannot be listed is passed over. -/
def Node.candidates (path : Path) : Node → List (Path × Node)
  | .directory listable children => if listable then children.candidates path else []
  | _ => []

def Children.candidates (path : Path) : Children → List (Path × Node)
  | .nil => []
  | .cons name node rest =>
      (path ++ [name], node) :: node.candidates (path ++ [name]) ++ rest.candidates path

end

/-- The candidates of a source. -/
def sourceCandidates (path : Path) (node : Node) : List (Path × Node) :=
  match node.follow with
  | .directory listable children => (Node.directory listable children).candidates path
  | _ => [(path, node)]

/-- A candidate whose bytes are needed and cannot be read. -/
def isUnreadable (candidate : Path × Node) : Bool :=
  match candidate.2 with
  | .file file => candidate.1 ∉ infraExcludedMembers && !file.readable
  | _ => false

/-- `_validate_source_inventory`. -/
def validateSourceInventory (files : FileSystem) : Except ArchiveFailure Unit :=
  if !files.hasDatabase then
    .error (.execution "inventory".toList
      ("Missing INFRA-01 backup source: ".toList ++ pathText visionDatabasePath))
  else
    let unreadable := infraSources.flatMap fun source =>
      match files.source source with
      | none => []
      | some node => ((sourceCandidates source.path node).filter isUnreadable).map Prod.fst
    if unreadable = [] then .ok ()
    else .error (.execution "inventory".toList
      ("Unreadable INFRA-01 backup source(s): ".toList ++ joined (unreadable.map pathText)))

/-- `open_source`, and the members of the tar that its stream writes. -/
def streamSource (files : FileSystem) (circumstances : StreamCircumstances) :
    Except ArchiveFailure (List Member) := do
  attempt circumstances.authorization
  attempt circumstances.temporaryRoot
  attempt circumstances.temporaryDirectory
  validateSourceInventory files
  let snapshot ← snapshotStream files circumstances
  if snapshot = none then
    throw (.execution "snapshot".toList "The Vision database snapshot was not created.".toList)
  match createdAt? circumstances.backupId with
  | none => throw (.other "strptime".toList)
  | some createdAt =>
      let authorizations ← exportAuthorizations files circumstances.exported
      let agentVersion ← circumstances.agentVersion
      let visionVersion ← circumstances.visionVersion
      let document := descriptor circumstances.backupId createdAt agentVersion visionVersion
      let tar ← addSources files infraSources .empty
      attempt circumstances.output
      pure (tar.finish authorizations snapshot document).members

end OhanaAgent.Plugins.Backup.SourceArchive
