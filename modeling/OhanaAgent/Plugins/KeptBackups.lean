import Mathlib.Data.List.Dedup
import OhanaAgent.Plugins.RemoteRetention

/-!
# What retention keeps

A prune deletes complete backups that are neither among the newest ones nor
protected, however its commands end: a probe that fails only hides a backup, and an
element that is among the newest complete backups is so among those that are seen.
-/

namespace OhanaAgent.Plugins.Backup.Retention

open OhanaAgent.Encoding (OneLine joinLines splitLines splitLines_joinLines trim)
open OhanaAgent.Encoding.Json (Text)
open OhanaAgent.Privacy (isWhitespace)
open OhanaAgent.Store

variable {tree : Tree} {commands : Commands} {count : Nat}

/-! ## Listings -/

theorem oneLine_slash : OneLine ['/'] := by
  decide

/-- A name is printed with a slash, and read without it. -/
theorem strip_directory {name : Text} (stripped : trim isWhitespace name = name)
    (single : '/' ∉ name) :
    (trim isWhitespace (name ++ ['/'])).rdropWhile (· = '/') = name := by
  have ends := Encoding.trim_eq_self_iff.mp stripped
  have printed : trim isWhitespace (name ++ ['/']) = name ++ ['/'] := by
    rw [Encoding.trim_eq_self_iff]
    constructor
    · intro c first
      cases name with
      | nil =>
          cases first
          decide
      | cons head rest => exact ends.1 c first
    · intro c last
      rw [List.getLast?_concat] at last
      cases last
      decide
  rw [printed, List.rdropWhile_concat_pos _ _ _ (by simp), List.rdropWhile_eq_self_iff]
  intro nonempty slash
  exact single (of_decide_eq_true slash ▸ List.getLast_mem nonempty)

/-- The listing gives the times among the directories. -/
theorem listedDirectories_listing (plain : tree.Plain) :
    listedDirectories (directoryListing tree) =
      sortedBy id (tree.directories.filter isBackupId) := by
  have clean : ∀ line ∈ tree.directories.map (· ++ ['/']), OneLine line := by
    intro line inside
    rcases List.mem_map.mp inside with ⟨name, listed, rfl⟩
    exact (plain.directories name listed).1.append oneLine_slash
  have names : ((tree.directories.map (· ++ ['/'])).map fun line =>
      (trim isWhitespace line).rdropWhile (· = '/')) = tree.directories := by
    rw [List.map_map]
    conv_rhs => rw [← List.map_id tree.directories]
    apply List.map_congr_left
    intro name listed
    exact strip_directory (plain.directories name listed).2 (tree.names name listed)
  rw [listedDirectories, directoryListing, splitLines_joinLines clean, names]

/-- The listing gives the files. -/
theorem listedPaths_listing (plain : tree.Plain) :
    listedPaths (fileListing tree) = tree.files := by
  have same : tree.files.map (trim isWhitespace) = tree.files := by
    conv_rhs => rw [← List.map_id tree.files]
    apply List.map_congr_left
    intro path listed
    exact (plain.files path listed).2.2
  have visible : (tree.files.filter fun line => line ≠ []) = tree.files := by
    rw [List.filter_eq_self]
    intro path listed
    exact decide_eq_true (plain.files path listed).1
  rw [listedPaths, fileListing,
    splitLines_joinLines fun path listed => (plain.files path listed).2.1, same, visible]
  exact List.dedup_eq_self.mpr tree.distinctFiles

/-! ## Stale backups -/

theorem mem_stale_iff {kept : Option Text} {complete : List Text} {backup : Text} :
    backup ∈ stale count kept complete ↔
      backup ∈ complete ∧ backup ∉ lastOnes count complete ∧ kept ≠ some backup := by
  rw [stale, List.mem_filter, decide_eq_true_iff]

/-- What is protected, or among the newest ones of all, is not stale. -/
theorem not_stale {key : Text → Text} {kept : Option Text} {complete all : List Text}
    {backup : Text} (sorted : complete.Pairwise fun one other => key one < key other)
    (fewer : complete.Subperm all) (spared : kept = some backup ∨ Newest key count all backup) :
    backup ∉ stale count kept complete := by
  rw [mem_stale_iff]
  rintro ⟨inside, old, unprotected⟩
  rcases spared with same | newest
  · exact unprotected same
  · exact old ((mem_lastOnes_iff sorted).mpr (newest.of_subperm inside fewer))

/-- When everything is seen, the others are stale. -/
theorem stale_iff {key : Text → Text} {kept : Option Text} {complete all : List Text}
    {backup : Text} (sorted : complete.Pairwise fun one other => key one < key other)
    (same : complete.Perm all) :
    backup ∈ stale count kept complete ↔
      backup ∈ all ∧ ¬ (kept = some backup ∨ Newest key count all backup) := by
  have newest : Newest key count complete backup ↔ Newest key count all backup :=
    ⟨fun newest => newest.of_perm same, fun newest => newest.of_perm same.symm⟩
  rw [mem_stale_iff, mem_lastOnes_iff sorted, newest, same.mem_iff, not_or, and_comm (b := kept ≠ _)]

/-! ## Deletions -/

theorem mem_remove_files_iff {file directory : Text → Bool} {path : Text} :
    path ∈ (tree.remove file directory).files ↔ path ∈ tree.files ∧ file path = false := by
  simp [Tree.remove]

theorem mem_remove_directories_iff {file directory : Text → Bool} {name : Text} :
    name ∈ (tree.remove file directory).directories ↔
      name ∈ tree.directories ∧ directory name = false := by
  simp [Tree.remove]

variable (commands) in
/-- A purge only deletes the given directories and what is below them. -/
theorem purgeAll_keeps (list : List Text) (deleted : Nat) (tree : Tree) :
    (∀ path ∈ tree.files, (∀ directory ∈ list, Tree.isBelow directory path = false) →
        path ∈ (purgeAll commands deleted list tree).2.files) ∧
      ∀ name ∈ tree.directories, name ∉ list →
        name ∈ (purgeAll commands deleted list tree).2.directories := by
  induction list generalizing deleted tree with
  | nil => exact ⟨fun path inside _ => inside, fun name inside _ => inside⟩
  | cons directory rest inductionHypothesis =>
      rw [purgeAll]
      cases commands.delete directory with
      | succeeds =>
          have later := inductionHypothesis (deleted + 1)
            (tree.remove (Tree.isBelow directory) (· = directory))
          constructor
          · intro path inside apart
            apply later.1 path
            · exact mem_remove_files_iff.mpr ⟨inside, apart directory List.mem_cons_self⟩
            · exact fun other listed => apart other (List.mem_cons_of_mem directory listed)
          · intro name inside apart
            rw [List.mem_cons, not_or] at apart
            apply later.2 name
            · exact mem_remove_directories_iff.mpr ⟨inside, decide_eq_false apart.1⟩
            · exact apart.2
      | fails stderr deletes =>
          constructor
          · intro path inside apart
            refine mem_remove_files_iff.mpr ⟨inside, ?_⟩
            simp [apart directory List.mem_cons_self]
          · intro name inside _
            exact mem_remove_directories_iff.mpr ⟨inside, rfl⟩

variable (commands) in
theorem purgeAll_subset (list : List Text) (deleted : Nat) (tree : Tree) :
    (purgeAll commands deleted list tree).2.files ⊆ tree.files ∧
      (purgeAll commands deleted list tree).2.directories ⊆ tree.directories := by
  induction list generalizing deleted tree with
  | nil => exact ⟨List.Subset.refl _, List.Subset.refl _⟩
  | cons directory rest inductionHypothesis =>
      rw [purgeAll]
      cases commands.delete directory with
      | succeeds =>
          have later := inductionHypothesis (deleted + 1)
            (tree.remove (Tree.isBelow directory) (· = directory))
          exact ⟨fun path inside => (mem_remove_files_iff.mp (later.1 inside)).1,
            fun name inside => (mem_remove_directories_iff.mp (later.2 inside)).1⟩
      | fails stderr deletes =>
          exact ⟨fun path inside => (mem_remove_files_iff.mp inside).1,
            fun name inside => (mem_remove_directories_iff.mp inside).1⟩

/-- A purge whose commands succeed deletes the given directories. -/
theorem purgeAll_deletes (succeed : ∀ path, commands.delete path = .succeeds) (list : List Text)
    (deleted : Nat) (tree : Tree) :
    ∀ directory ∈ list, directory ∉ (purgeAll commands deleted list tree).2.directories := by
  induction list generalizing deleted tree with
  | nil => simp
  | cons first rest inductionHypothesis =>
      intro directory listed inside
      rw [purgeAll, succeed] at inside
      rcases List.mem_cons.mp listed with rfl | later
      · have left := (purgeAll_subset _ rest (deleted + 1) _).2 inside
        simpa using (mem_remove_directories_iff.mp left).2
      · exact inductionHypothesis (deleted + 1) _ directory later inside

variable (commands) in
/-- A deletion of a file keeps the others. -/
theorem mem_deleteFile {path other : Text} (inside : other ∈ tree.files) (apart : other ≠ path) :
    other ∈ (deleteFile commands path tree).2.files := by
  unfold deleteFile
  cases commands.delete path with
  | succeeds => exact mem_remove_files_iff.mpr ⟨inside, decide_eq_false apart⟩
  | fails stderr deletes =>
      refine mem_remove_files_iff.mpr ⟨inside, ?_⟩
      simp [apart]

variable (commands) in
theorem deleteFile_subset (path : Text) (tree : Tree) :
    (deleteFile commands path tree).2.files ⊆ tree.files := by
  unfold deleteFile
  cases commands.delete path with
  | succeeds => exact fun other inside => (mem_remove_files_iff.mp inside).1
  | fails stderr deletes => exact fun other inside => (mem_remove_files_iff.mp inside).1

variable (commands) in
/-- The loop deletes archives of the list and their checksums only. -/
theorem deleteAll_keeps (list : List Text) (deleted : Nat) (tree : Tree) :
    ∀ path ∈ tree.files, (∀ archive ∈ list, path ≠ archive ∧ path ≠ Tree.checksumPath archive) →
      path ∈ (deleteAll commands deleted list tree).2.files := by
  induction list generalizing deleted tree with
  | nil => exact fun path inside _ => inside
  | cons archive rest inductionHypothesis =>
      intro path inside apart
      have here := apart archive List.mem_cons_self
      have first := mem_deleteFile commands inside here.1
      rw [deleteAll]
      cases removed : deleteFile commands archive tree with
      | mk failure next =>
          rw [removed] at first
          cases failure with
          | some stderr => exact first
          | none =>
              have second := mem_deleteFile commands first here.2
              cases checksum : deleteFile commands (Tree.checksumPath archive) next with
              | mk failure last =>
                  rw [checksum] at second
                  cases failure with
                  | some stderr => simpa only [checksum] using second
                  | none =>
                      simp only [checksum]
                      exact inductionHypothesis (deleted + 1) last path second
                        fun other listed => apart other (List.mem_cons_of_mem archive listed)

variable (commands) in
theorem deleteAll_subset (list : List Text) (deleted : Nat) (tree : Tree) :
    (deleteAll commands deleted list tree).2.files ⊆ tree.files := by
  induction list generalizing deleted tree with
  | nil => exact List.Subset.refl _
  | cons archive rest inductionHypothesis =>
      have first := deleteFile_subset commands archive tree
      rw [deleteAll]
      cases removed : deleteFile commands archive tree with
      | mk failure next =>
          rw [removed] at first
          cases failure with
          | some stderr => exact first
          | none =>
              have second := deleteFile_subset commands (Tree.checksumPath archive) next
              cases checksum : deleteFile commands (Tree.checksumPath archive) next with
              | mk failure last =>
                  rw [checksum] at second
                  cases failure with
                  | some stderr =>
                      simp only [checksum]
                      exact List.Subset.trans second first
                  | none =>
                      simp only [checksum]
                      exact List.Subset.trans (inductionHypothesis (deleted + 1) last)
                        (List.Subset.trans second first)

/-- A loop whose commands succeed deletes the given archives. -/
theorem deleteAll_deletes (succeed : ∀ path, commands.delete path = .succeeds) (list : List Text)
    (deleted : Nat) (tree : Tree) :
    ∀ archive ∈ list, archive ∉ (deleteAll commands deleted list tree).2.files := by
  have always (path : Text) (tree : Tree) :
      deleteFile commands path tree = (none, tree.remove (· = path) fun _ => false) := by
    rw [deleteFile, succeed]
  induction list generalizing deleted tree with
  | nil => simp
  | cons first rest inductionHypothesis =>
      intro archive listed inside
      rw [deleteAll, always] at inside
      simp only [always] at inside
      rcases List.mem_cons.mp listed with rfl | later
      · have left := deleteAll_subset _ rest (deleted + 1) _ inside
        have kept := (mem_remove_files_iff.mp (mem_remove_files_iff.mp left).1).2
        simp at kept
      · exact inductionHypothesis (deleted + 1) _ archive later inside

/-! ## Directories -/

/-- A directory and the files below it are still there. -/
def KeptDirectory (before after : Tree) (directory : Text) : Prop :=
  (directory ∈ before.directories → directory ∈ after.directories) ∧
    ∀ path ∈ before.files, Tree.isBelow directory path → path ∈ after.files

theorem takeWhile_of_isBelow {directory path : Text} (single : '/' ∉ directory)
    (below : Tree.isBelow directory path = true) : path.takeWhile (· ≠ '/') = directory := by
  rcases List.isPrefixOf_iff_prefix.mp below with ⟨rest, rfl⟩
  have plain : ∀ c ∈ directory, decide (c ≠ '/') = true := by
    intro c inside
    refine decide_eq_true ?_
    rintro rfl
    exact single inside
  rw [List.append_assoc, List.takeWhile_append_of_pos plain, List.singleton_append,
    List.takeWhile_cons_of_neg (by simp), List.append_nil]

/-- A directory that is not deleted is kept. -/
theorem keptDirectory_of_not_mem {list : List Text} {deleted : Nat} {directory : Text}
    (inside : list ⊆ tree.directories) (single : '/' ∉ directory) (spared : directory ∉ list) :
    KeptDirectory tree (purgeAll commands deleted list tree).2 directory := by
  have keeps := purgeAll_keeps commands list deleted tree
  constructor
  · intro there
    exact keeps.2 directory there spared
  · intro path there below
    apply keeps.1 path there
    intro other listed
    by_contra above
    have same := takeWhile_of_isBelow (tree.names other (inside listed))
      (Bool.eq_true_of_not_eq_false above)
    rw [takeWhile_of_isBelow single below] at same
    exact spared (same ▸ listed)

theorem isBackupId_of_manifestExists {directory : Text}
    (seen : manifestExists commands tree directory = true) :
    Tree.manifestPath directory ∈ tree.files := by
  unfold manifestExists at seen
  split at seen
  · exact of_decide_eq_true seen
  · cases seen

theorem pairwise_seenDirectories (plain : tree.Plain) :
    (seenDirectories commands tree).Pairwise fun one other => id one < id other := by
  rw [seenDirectories, listedDirectories_listing plain]
  apply List.Pairwise.filter
  apply pairwise_sortedBy
  rw [List.map_id]
  exact tree.distinctDirectories.filter _

/-- The seen directories are some of the complete ones. -/
theorem subperm_seenDirectories (plain : tree.Plain) :
    (seenDirectories commands tree).Subperm tree.completeDirectories := by
  rw [seenDirectories, listedDirectories_listing plain]
  refine ((perm_sortedBy id _).filter _).subperm.trans ?_
  rw [List.filter_filter]
  apply List.Sublist.subperm
  apply List.monotone_filter_right
  intro directory both
  rw [Bool.and_eq_true] at both
  rw [Tree.isCompleteDirectory, both.2, Bool.true_and]
  exact decide_eq_true (isBackupId_of_manifestExists both.1)

/-- They are all of them when every probe is answered. -/
theorem perm_seenDirectories (plain : tree.Plain)
    (answered : ∀ directory, commands.probe directory = .answered) :
    (seenDirectories commands tree).Perm tree.completeDirectories := by
  rw [seenDirectories, listedDirectories_listing plain]
  refine ((perm_sortedBy id _).filter _).trans (List.Perm.of_eq ?_)
  rw [List.filter_filter]
  apply List.filter_congr
  intro directory _
  rw [manifestExists, answered, Tree.isCompleteDirectory, Bool.and_comm]

variable {keepCount : Int} {kept : Option Text}

variable (commands) in
/-- What a prune of directories leaves. -/
theorem directories_after (keeps : 0 < keepCount) :
    (pruneCompleteBackupDirectories commands keepCount kept tree).2 = tree ∨
      (pruneCompleteBackupDirectories commands keepCount kept tree).2 =
        (purgeAll commands 0 (stale keepCount.toNat kept (seenDirectories commands tree)) tree).2 := by
  unfold pruneCompleteBackupDirectories
  rw [if_neg (not_le.mpr keeps)]
  cases commands.listing with
  | none => exact Or.inr rfl
  | some stderr => exact Or.inl rfl

theorem stale_subset (plain : tree.Plain) :
    stale count kept (seenDirectories commands tree) ⊆ tree.directories := by
  intro directory listed
  have seen := (subperm_seenDirectories plain).subset (mem_stale_iff.mp listed).1
  exact (List.mem_filter.mp seen).1

theorem keptDirectory_self {directory : Text} : KeptDirectory tree tree directory :=
  ⟨id, fun _ inside _ => inside⟩

variable (commands) in
/-- A prune keeps the directories that are incomplete, protected, or among the newest
complete ones. -/
theorem prune_keeps_directory (plain : tree.Plain) (keeps : 0 < keepCount) {directory : Text}
    (single : '/' ∉ directory)
    (spared : directory ∉ tree.completeDirectories ∨ kept = some directory ∨
      Newest id keepCount.toNat tree.completeDirectories directory) :
    KeptDirectory tree (pruneCompleteBackupDirectories commands keepCount kept tree).2
      directory := by
  rcases directories_after commands keeps with
    same | same
  · rw [same]
    exact keptDirectory_self
  · rw [same]
    apply keptDirectory_of_not_mem (stale_subset plain) single
    rcases spared with incomplete | spared
    · exact fun listed => incomplete
        ((subperm_seenDirectories plain).subset (mem_stale_iff.mp listed).1)
    · exact not_stale (pairwise_seenDirectories plain) (subperm_seenDirectories plain) spared

/-- Without a failing command, the protected directory and the newest ones are left of
the complete ones. -/
theorem prune_leaves_directories (plain : tree.Plain) (keeps : 0 < keepCount)
    (succeed : commands.Succeed) (directory : Text) :
    directory ∈ (pruneCompleteBackupDirectories commands keepCount kept
        tree).2.completeDirectories ↔
      directory ∈ tree.completeDirectories ∧ (kept = some directory ∨
        Newest id keepCount.toNat tree.completeDirectories directory) := by
  have ran : (pruneCompleteBackupDirectories commands keepCount kept tree).2 =
      (purgeAll commands 0 (stale keepCount.toNat kept (seenDirectories commands tree)) tree).2 := by
    rw [pruneCompleteBackupDirectories, if_neg (not_le.mpr keeps), succeed.listing]
  have old := @stale_iff keepCount.toNat id kept _ _ directory
    (pairwise_seenDirectories plain) (perm_seenDirectories plain succeed.probe)
  constructor
  · intro left
    rw [ran] at left
    rcases List.mem_filter.mp left with ⟨there, complete⟩
    have subset := purgeAll_subset commands
      (stale keepCount.toNat kept (seenDirectories commands tree)) 0 tree
    have before : directory ∈ tree.completeDirectories := by
      rw [Tree.isCompleteDirectory, Bool.and_eq_true] at complete
      refine List.mem_filter.mpr ⟨subset.2 there, ?_⟩
      rw [Tree.isCompleteDirectory, Bool.and_eq_true]
      exact ⟨complete.1, decide_eq_true (subset.1 (of_decide_eq_true complete.2))⟩
    have fresh : directory ∉ stale keepCount.toNat kept (seenDirectories commands tree) :=
      fun listed => purgeAll_deletes succeed.delete _ 0 tree directory listed there
    rw [old] at fresh
    exact ⟨before, by_contra fun unspared => fresh ⟨before, unspared⟩⟩
  · rintro ⟨before, spared⟩
    rcases List.mem_filter.mp before with ⟨there, complete⟩
    have whole := prune_keeps_directory commands plain keeps
      (tree.names directory there) (Or.inr spared)
    rw [Tree.isCompleteDirectory, Bool.and_eq_true] at complete
    refine List.mem_filter.mpr ⟨whole.1 there, ?_⟩
    rw [Tree.isCompleteDirectory, Bool.and_eq_true]
    refine ⟨complete.1, decide_eq_true (whole.2 _ (of_decide_eq_true complete.2) ?_)⟩
    exact List.isPrefixOf_iff_prefix.mpr ⟨manifestName, by simp [Tree.manifestPath]⟩

/-! ## Archives -/

/-- An archive and its checksum are still there. -/
def KeptArchive (before after : Tree) (path : Text) : Prop :=
  (path ∈ before.files → path ∈ after.files) ∧
    (Tree.checksumPath path ∈ before.files → Tree.checksumPath path ∈ after.files)

theorem isArchive_iff {path : Text} :
    Tree.isArchive path = true ↔ ".tar".toList <:+ path :=
  List.isSuffixOf_iff_suffix

/-- No archive is a checksum. -/
theorem ne_checksumPath {archive : Text} (path : Text) (ends : Tree.isArchive archive = true) :
    archive ≠ Tree.checksumPath path := by
  rintro rfl
  rcases isArchive_iff.mp ends with ⟨front, whole⟩
  have last := congrArg List.getLast? whole
  rw [Tree.checksumPath, List.getLast?_append, List.getLast?_append] at last
  have different : (some 'r' : Option Char) = some '6' := last
  simp at different

theorem checksumPath_injective {first second : Text}
    (same : Tree.checksumPath first = Tree.checksumPath second) : first = second :=
  List.append_cancel_right same

/-- The listed archives are the complete ones. -/
theorem listedArchives_listing (plain : tree.Plain) :
    listedArchives (fileListing tree) = sortedBy lastName tree.completeArchives := by
  rw [listedArchives, listedPaths_listing plain]
  rfl

theorem pairwise_listedArchives (plain : tree.Plain)
    (distinct : (tree.completeArchives.map lastName).Nodup) :
    (listedArchives (fileListing tree)).Pairwise fun one other =>
      lastName one < lastName other := by
  rw [listedArchives_listing plain]
  exact pairwise_sortedBy distinct

theorem perm_listedArchives (plain : tree.Plain) :
    (listedArchives (fileListing tree)).Perm tree.completeArchives := by
  rw [listedArchives_listing plain]
  exact perm_sortedBy lastName _

/-- An archive that is not deleted is kept. -/
theorem keptArchive_of_not_mem {list : List Text} {deleted : Nat} {path : Text}
    (archives : ∀ archive ∈ list, Tree.isArchive archive = true)
    (ends : Tree.isArchive path = true) (spared : path ∉ list) :
    KeptArchive tree (deleteAll commands deleted list tree).2 path := by
  constructor
  · intro there
    apply deleteAll_keeps commands list deleted tree path there
    intro archive listed
    constructor
    · rintro rfl
      exact spared listed
    · exact ne_checksumPath archive ends
  · intro there
    apply deleteAll_keeps commands list deleted tree _ there
    intro archive listed
    constructor
    · exact (ne_checksumPath path (archives archive listed)).symm
    · intro same
      rw [checksumPath_injective same] at spared
      exact spared listed

variable {remoteRoot : Text}

variable (commands remoteRoot) in
/-- What a prune of archives leaves. -/
theorem archives_after (keeps : 0 < keepCount) :
    (pruneCompleteArchives commands remoteRoot keepCount kept tree).2 = tree ∨
      (pruneCompleteArchives commands remoteRoot keepCount kept tree).2 =
        (deleteAll commands 0 (stale keepCount.toNat (protectedBelow remoteRoot kept)
          (listedArchives (fileListing tree))) tree).2 := by
  unfold pruneCompleteArchives
  rw [if_neg (not_le.mpr keeps)]
  cases commands.listing with
  | none => exact Or.inr rfl
  | some stderr => exact Or.inl rfl

theorem mem_completeArchives_of_stale (plain : tree.Plain) {path : Text}
    (listed : path ∈ stale count kept (listedArchives (fileListing tree))) :
    path ∈ tree.completeArchives :=
  (perm_listedArchives plain).mem_iff.mp (mem_stale_iff.mp listed).1

theorem isArchive_of_mem {path : Text} (inside : path ∈ tree.completeArchives) :
    Tree.isArchive path = true := by
  have complete := (List.mem_filter.mp inside).2
  rw [Tree.isCompleteArchive, Bool.and_eq_true] at complete
  exact complete.1

variable (commands remoteRoot) in
/-- A prune keeps the archives that are incomplete, protected, or among the newest
complete ones. -/
theorem prune_keeps_archive (plain : tree.Plain)
    (distinct : (tree.completeArchives.map lastName).Nodup) (keeps : 0 < keepCount) {path : Text}
    (ends : Tree.isArchive path = true)
    (spared : path ∉ tree.completeArchives ∨ protectedBelow remoteRoot kept = some path ∨
      Newest lastName keepCount.toNat tree.completeArchives path) :
    KeptArchive tree (pruneCompleteArchives commands remoteRoot keepCount kept tree).2 path := by
  rcases archives_after commands remoteRoot keeps with same | same
  · rw [same]
    exact ⟨id, id⟩
  · rw [same]
    refine keptArchive_of_not_mem (fun archive listed =>
      isArchive_of_mem (mem_completeArchives_of_stale plain listed)) ends ?_
    rcases spared with incomplete | spared
    · exact fun listed => incomplete (mem_completeArchives_of_stale plain listed)
    · exact not_stale (pairwise_listedArchives plain distinct) (perm_listedArchives plain).subperm
        spared

/-- Without a failing command, the protected archive and the newest ones are left of the
complete ones. -/
theorem prune_leaves_archives (plain : tree.Plain)
    (distinct : (tree.completeArchives.map lastName).Nodup) (keeps : 0 < keepCount)
    (succeed : commands.Succeed) (path : Text) :
    path ∈ (pruneCompleteArchives commands remoteRoot keepCount kept tree).2.completeArchives ↔
      path ∈ tree.completeArchives ∧ (protectedBelow remoteRoot kept = some path ∨
        Newest lastName keepCount.toNat tree.completeArchives path) := by
  have ran : (pruneCompleteArchives commands remoteRoot keepCount kept tree).2 =
      (deleteAll commands 0 (stale keepCount.toNat (protectedBelow remoteRoot kept)
        (listedArchives (fileListing tree))) tree).2 := by
    rw [pruneCompleteArchives, if_neg (not_le.mpr keeps), succeed.listing]
  have old := @stale_iff keepCount.toNat lastName (protectedBelow remoteRoot kept) _ _ path
    (pairwise_listedArchives plain distinct) (perm_listedArchives plain)
  constructor
  · intro left
    rw [ran] at left
    rcases List.mem_filter.mp left with ⟨there, complete⟩
    have subset := deleteAll_subset commands (stale keepCount.toNat (protectedBelow remoteRoot kept)
      (listedArchives (fileListing tree))) 0 tree
    have before : path ∈ tree.completeArchives := by
      rw [Tree.isCompleteArchive, Bool.and_eq_true] at complete
      refine List.mem_filter.mpr ⟨subset there, ?_⟩
      rw [Tree.isCompleteArchive, Bool.and_eq_true]
      exact ⟨complete.1, decide_eq_true (subset (of_decide_eq_true complete.2))⟩
    have fresh : path ∉ stale keepCount.toNat (protectedBelow remoteRoot kept)
        (listedArchives (fileListing tree)) :=
      fun listed => deleteAll_deletes succeed.delete _ 0 tree path listed there
    rw [old] at fresh
    exact ⟨before, by_contra fun unspared => fresh ⟨before, unspared⟩⟩
  · rintro ⟨before, spared⟩
    rcases List.mem_filter.mp before with ⟨there, complete⟩
    have whole := prune_keeps_archive commands remoteRoot plain distinct keeps
      (isArchive_of_mem before) (Or.inr spared)
    rw [Tree.isCompleteArchive, Bool.and_eq_true] at complete
    refine List.mem_filter.mpr ⟨whole.1 there, ?_⟩
    rw [Tree.isCompleteArchive, Bool.and_eq_true]
    exact ⟨complete.1, decide_eq_true (whole.2 (of_decide_eq_true complete.2))⟩

theorem relativePath_append (remoteRoot path : Text) :
    relativePath remoteRoot (remoteRoot ++ '/' :: path) = path := by
  have below : (remoteRoot ++ ['/']).isPrefixOf (remoteRoot ++ '/' :: path) = true :=
    List.isPrefixOf_iff_prefix.mpr ⟨path, by simp⟩
  rw [relativePath, if_pos below]
  simp

/-- A path below the root protects what is there. -/
theorem protectedBelow_append (remoteRoot path : Text) :
    protectedBelow remoteRoot (some (remoteRoot ++ '/' :: path)) = some path := by
  have some' : remoteRoot ++ '/' :: path ≠ [] := by simp
  rw [protectedBelow, relativePath_append]
  exact some'

/-! ## The latest backup -/

/-- A time has digits and two letters. -/
theorem isBackupId_single {name : Text} (valid : isBackupId name = true) : '/' ∉ name := by
  unfold isBackupId at valid
  split at valid
  · rename_i date rest split
    simp only [Bool.and_eq_true, decide_eq_true_eq, List.all_eq_true] at valid
    rcases valid with ⟨⟨⟨⟨_, front⟩, _⟩, last⟩, back⟩
    have whole : name = date ++ 'T' :: rest := by
      rw [List.splitAt_eq, Prod.mk.injEq] at split
      rw [← split.1, ← split.2, List.take_append_drop]
    have ends : rest = rest.dropLast ++ ['Z'] := (List.dropLast_append_getLast? 'Z' last).symm
    rw [whole, ends]
    intro slash
    rcases List.mem_append.mp slash with inside | inside
    · exact absurd (front '/' inside) (by decide)
    · rcases List.mem_cons.mp inside with same | inside
      · exact absurd same (by decide)
      · rcases List.mem_append.mp inside with inside | inside
        · exact absurd (back '/' inside) (by decide)
        · exact absurd (List.mem_singleton.mp inside) (by decide)
  · cases valid

/-- The paths of manifests. -/
theorem splitOn_manifestPath {directory : Text} (single : '/' ∉ directory) :
    (Tree.manifestPath directory).splitOn '/' = [directory, manifestName] := by
  have plain : ∀ c ∈ directory, (c == '/') = false := by
    intro c inside
    rw [beq_eq_false_iff_ne]
    rintro rfl
    exact single inside
  have last : ∀ c ∈ manifestName, (c == '/') = false := by
    decide
  rw [Tree.manifestPath, List.splitOn, List.splitOnP_append_cons _ _ (by simp),
    List.splitOnP_eq_singleton plain, List.splitOnP_eq_singleton last]
  rfl

theorem infraBackup_eq_some_iff {path directory : Text} :
    infraBackup path = some directory ↔
      isBackupId directory = true ∧ path = Tree.manifestPath directory := by
  constructor
  · intro found
    unfold infraBackup at found
    split at found
    · rename_i first name parts
      split at found
      · rename_i both
        cases found
        have whole := @List.intercalate_splitOn _ path _ _ '/'
        rw [parts, both.1] at whole
        exact ⟨both.2, whole.symm⟩
      · cases found
    · cases found
  · rintro ⟨valid, rfl⟩
    simp [infraBackup, splitOn_manifestPath (isBackupId_single valid), valid]

variable {reads : Reads} {rcloneRemote target : Text} {candidate : Candidate}

/-- The latest backup of the first layout is the newest one. -/
theorem latest_directory (some' : 0 < count)
    (chosen : latest reads rcloneRemote infraTarget tree = .ok (some candidate)) :
    isBackupId candidate.backupRef = true ∧
      (candidate.backupRef ∈ tree.completeDirectories →
        Newest id count tree.completeDirectories candidate.backupRef) := by
  unfold latest at chosen
  cases listing : reads.listing with
  | some stderr =>
      rw [listing] at chosen
      cases chosen
  | none =>
      rw [listing] at chosen
      simp only [if_true, latestInfra] at chosen
      split at chosen
      · cases chosen
      · rename_i backupId last
        rcases bind_eq_ok.mp chosen with ⟨archive, _, found⟩
        cases found
        rcases greatest_of_getLast? last with ⟨inside, greatest⟩
        rcases List.mem_filterMap.mp inside with ⟨path, _, named⟩
        refine ⟨(infraBackup_eq_some_iff.mp named).1, fun complete =>
          newest_of_greatest complete (fun directory complete => ?_) some'⟩
        have valid := (List.mem_filter.mp complete).2
        rw [Tree.isCompleteDirectory, Bool.and_eq_true, decide_eq_true_iff] at valid
        exact greatest directory (List.mem_filterMap.mpr
          ⟨_, valid.2, infraBackup_eq_some_iff.mpr ⟨valid.1, rfl⟩⟩)

/-- The latest backup of the second layout is the newest complete archive. -/
theorem latest_archive (some' : 0 < count) (other : target ≠ infraTarget)
    (chosen : latest reads rcloneRemote target tree = .ok (some candidate)) :
    ∃ path, candidate.archivePath = rcloneRemote ++ '/' :: target ++ '/' :: path ∧
      Newest lastName count tree.completeArchives path := by
  unfold latest at chosen
  cases listing : reads.listing with
  | some stderr =>
      rw [listing] at chosen
      cases chosen
  | none =>
      rw [listing] at chosen
      simp only [if_neg other, latestHaos] at chosen
      split at chosen
      · cases chosen
      · rename_i path greatest
        rcases bind_eq_ok.mp chosen with ⟨digest, _, found⟩
        cases found
        refine ⟨path, rfl, newest_of_greatest (mem_sortedBy_iff.mp (List.argmax_mem greatest))
          (fun archive complete => ?_) some'⟩
        exact le_of_not_gt (List.not_lt_of_mem_argmax (mem_sortedBy_iff.mpr complete) greatest)

/-- A prune keeps the latest backup of the first layout. -/
theorem prune_keeps_latest_directory (plain : tree.Plain) (keeps : 0 < keepCount)
    (chosen : latest reads rcloneRemote infraTarget tree = .ok (some candidate)) :
    KeptDirectory tree (pruneCompleteBackupDirectories commands keepCount kept tree).2
      candidate.backupRef := by
  rcases latest_directory (show 0 < keepCount.toNat by omega) chosen with ⟨valid, newest⟩
  apply prune_keeps_directory commands plain keeps (isBackupId_single valid)
  by_cases complete : candidate.backupRef ∈ tree.completeDirectories
  · exact Or.inr (Or.inr (newest complete))
  · exact Or.inl complete

/-- A prune keeps the latest backup of the second layout. -/
theorem prune_keeps_latest_archive (plain : tree.Plain)
    (distinct : (tree.completeArchives.map lastName).Nodup) (keeps : 0 < keepCount)
    (other : target ≠ infraTarget)
    (chosen : latest reads rcloneRemote target tree = .ok (some candidate)) :
    ∃ path, candidate.archivePath = rcloneRemote ++ '/' :: target ++ '/' :: path ∧
      KeptArchive tree (pruneCompleteArchives commands remoteRoot keepCount kept tree).2 path := by
  rcases latest_archive (show 0 < keepCount.toNat by omega) other chosen with
    ⟨path, same, newest⟩
  exact ⟨path, same, prune_keeps_archive commands remoteRoot plain distinct keeps
    (isArchive_of_mem newest.1) (Or.inr (Or.inr newest))⟩

/-! ## Both layouts -/

/-- What a prune of directories spares, and what it leaves. -/
structure SparesDirectories (commands : Commands) (keepCount : Int) (kept : Option Text)
    (tree : Tree) : Prop where
  spared : ∀ directory ∈ tree.directories, directory ∉ tree.completeDirectories ∨
    kept = some directory ∨ Newest id keepCount.toNat tree.completeDirectories directory →
      KeptDirectory tree (pruneCompleteBackupDirectories commands keepCount kept tree).2 directory
  left : commands.Succeed → ∀ directory,
    directory ∈ (pruneCompleteBackupDirectories commands keepCount kept
        tree).2.completeDirectories ↔
      directory ∈ tree.completeDirectories ∧ (kept = some directory ∨
        Newest id keepCount.toNat tree.completeDirectories directory)
  latest : ∀ reads rcloneRemote candidate,
    latest reads rcloneRemote infraTarget tree = .ok (some candidate) →
      KeptDirectory tree (pruneCompleteBackupDirectories commands keepCount kept tree).2
        candidate.backupRef

/-- What a prune of archives spares, and what it leaves. -/
structure SparesArchives (commands : Commands) (remoteRoot : Text) (keepCount : Int)
    (kept : Option Text) (tree : Tree) : Prop where
  spared : ∀ path ∈ tree.files, Tree.isArchive path → path ∉ tree.completeArchives ∨
    kept = some (remoteRoot ++ '/' :: path) ∨
      Newest lastName keepCount.toNat tree.completeArchives path →
        KeptArchive tree (pruneCompleteArchives commands remoteRoot keepCount kept tree).2 path
  left : commands.Succeed → ∀ path,
    path ∈ (pruneCompleteArchives commands remoteRoot keepCount kept tree).2.completeArchives ↔
      path ∈ tree.completeArchives ∧ (protectedBelow remoteRoot kept = some path ∨
        Newest lastName keepCount.toNat tree.completeArchives path)
  latest : ∀ reads rcloneRemote target candidate, target ≠ infraTarget →
    latest reads rcloneRemote target tree = .ok (some candidate) →
      ∃ path, candidate.archivePath = rcloneRemote ++ '/' :: target ++ '/' :: path ∧
        KeptArchive tree (pruneCompleteArchives commands remoteRoot keepCount kept tree).2 path

theorem sparesDirectories (commands : Commands) (kept : Option Text) (plain : tree.Plain)
    (keeps : 0 < keepCount) : SparesDirectories commands keepCount kept tree where
  spared directory there spared :=
    prune_keeps_directory commands plain keeps (tree.names directory there) spared
  left succeed directory := prune_leaves_directories plain keeps succeed directory
  latest _ _ _ chosen := prune_keeps_latest_directory plain keeps chosen

theorem sparesArchives (commands : Commands) (remoteRoot : Text) (kept : Option Text)
    (plain : tree.Plain) (distinct : (tree.completeArchives.map lastName).Nodup)
    (keeps : 0 < keepCount) : SparesArchives commands remoteRoot keepCount kept tree where
  spared path _ ends spared := by
    apply prune_keeps_archive commands remoteRoot plain distinct keeps ends
    rcases spared with incomplete | same | newest
    · exact Or.inl incomplete
    · rw [same, protectedBelow_append]
      exact Or.inr (Or.inl rfl)
    · exact Or.inr (Or.inr newest)
  left succeed path := prune_leaves_archives plain distinct keeps succeed path
  latest _ _ _ _ other chosen := prune_keeps_latest_archive plain distinct keeps other chosen

end OhanaAgent.Plugins.Backup.Retention
