import OhanaAgent.Plugins.SourceArchives
import OhanaAgent.Store.Places
import OhanaAgent.Store.Scope

/-!
# What the archives hold

`archive.add` visits the paths below the sources in order.  A path is kept unless
it is excluded, a link, or another name of a file that came before; so an archive
holds what its descriptor declares when the sources have none of these.
-/

namespace OhanaAgent.Plugins.Backup.SourceArchive

open OhanaAgent.Encoding.Json (Text)
open OhanaAgent.Store

/-! ## The paths below a node -/

mutual

theorem Node.prefix_of_mem (path : Path) :
    ∀ (node : Node), ∀ entry ∈ node.entries path, path <+: entry.1
  | .directory listable children, entry, inside => by
      rcases List.mem_cons.mp inside with rfl | deeper
      · exact List.prefix_rfl
      · rcases Children.prefix_of_mem path children entry deeper with ⟨name, _, longer⟩
        exact (List.prefix_append path [name]).trans longer
  | .file _, entry, inside => by
      exact List.mem_singleton.mp inside ▸ List.prefix_rfl
  | .link _, entry, inside => by
      exact List.mem_singleton.mp inside ▸ List.prefix_rfl
  | .dangling, entry, inside => by
      exact List.mem_singleton.mp inside ▸ List.prefix_rfl
  | .device, entry, inside => by
      exact List.mem_singleton.mp inside ▸ List.prefix_rfl
  | .socket, entry, inside => by
      exact List.mem_singleton.mp inside ▸ List.prefix_rfl

theorem Children.prefix_of_mem (path : Path) :
    ∀ (children : Children), ∀ entry ∈ children.entries path,
      ∃ name ∈ children.names, path ++ [name] <+: entry.1
  | .cons name node rest, entry, inside => by
      rcases List.mem_append.mp inside with here | later
      · exact ⟨name, List.mem_cons_self, node.prefix_of_mem (path ++ [name]) entry here⟩
      · rcases Children.prefix_of_mem path rest entry later with ⟨other, member, longer⟩
        exact ⟨other, List.mem_cons_of_mem name member, longer⟩

end

/-- Paths below two names of a directory differ. -/
theorem ne_of_prefix {path first second : Path} {one other : Text} (different : one ≠ other)
    (firstBelow : path ++ [one] <+: first) (secondBelow : path ++ [other] <+: second) :
    first ≠ second := by
  rintro rfl
  have same := List.prefix_of_prefix_length_le firstBelow secondBelow (by simp)
  exact different (by simpa using same)

mutual

/-- The paths below a node are distinct. -/
theorem Node.nodup_entries (path : Path) :
    ∀ (node : Node), node.Sorted → ((node.entries path).map Prod.fst).Nodup
  | .directory listable children, sorted => by
      rw [Node.entries, List.map_cons, List.nodup_cons]
      constructor
      · intro inside
        rcases List.mem_map.mp inside with ⟨entry, deeper, same⟩
        rcases children.prefix_of_mem path entry deeper with ⟨name, _, longer⟩
        have short := longer.length_le
        rw [same] at short
        simp at short
      · have distinct : children.names.Nodup := by
          refine sorted.1.imp ?_
          rintro name _ less rfl
          exact List.lt_irrefl name less
        exact Children.nodup_entries path children distinct sorted.2
  | .file _, _ => List.nodup_singleton path
  | .link _, _ => List.nodup_singleton path
  | .dangling, _ => List.nodup_singleton path
  | .device, _ => List.nodup_singleton path
  | .socket, _ => List.nodup_singleton path

theorem Children.nodup_entries (path : Path) :
    ∀ (children : Children), children.names.Nodup → children.Sorted →
      ((children.entries path).map Prod.fst).Nodup
  | .nil, _, _ => List.nodup_nil
  | .cons name node rest, names, sorted => by
      rw [Children.names, List.nodup_cons] at names
      rw [Children.entries, List.map_append, List.nodup_append]
      refine ⟨Node.nodup_entries (path ++ [name]) node sorted.1,
        Children.nodup_entries path rest names.2 sorted.2, ?_⟩
      intro first firstMem second secondMem
      rcases List.mem_map.mp firstMem with ⟨entry, here, rfl⟩
      rcases List.mem_map.mp secondMem with ⟨later, there, rfl⟩
      rcases rest.prefix_of_mem path later there with ⟨other, member, longer⟩
      have different : name ≠ other := by
        rintro rfl
        exact names.1 member
      exact ne_of_prefix different (node.prefix_of_mem (path ++ [name]) entry here) longer

end

/-- Only the node itself is at its path. -/
theorem Node.eq_of_mem_entries {path : Path} {node found : Node}
    (inside : (path, found) ∈ node.entries path) : found = node := by
  cases node with
  | directory listable children =>
      rcases List.mem_cons.mp inside with same | deeper
      · exact congrArg Prod.snd same
      · rcases children.prefix_of_mem path _ deeper with ⟨name, _, longer⟩
        have short := longer.length_le
        simp at short
  | file file => exact congrArg Prod.snd (List.mem_singleton.mp inside)
  | link target => exact congrArg Prod.snd (List.mem_singleton.mp inside)
  | dangling => exact congrArg Prod.snd (List.mem_singleton.mp inside)
  | device => exact congrArg Prod.snd (List.mem_singleton.mp inside)
  | socket => exact congrArg Prod.snd (List.mem_singleton.mp inside)

theorem Node.mem_entries_self (path : Path) (node : Node) : (path, node) ∈ node.entries path := by
  cases node <;> exact List.mem_cons_self

/-! ## The visits of an archive -/

/-- A path below an excluded one, which is not reached. -/
def Hidden (path : Path) : Prop :=
  ∃ excluded ∈ infraExcludedMembers, excluded <+: path ∧ excluded ≠ path

instance (path : Path) : Decidable (Hidden path) :=
  inferInstanceAs (Decidable (∃ excluded ∈ infraExcludedMembers, _ ∧ _))

/-- `archive.add` on one of the paths below a source. -/
def visit (tar : Tar) (entry : Path × Node) : Except ArchiveFailure Tar :=
  if Hidden entry.1 then .ok tar else tar.addOne entry.1 entry.2

theorem foldlM_visit_of_hidden {entries : List (Path × Node)}
    (hidden : ∀ entry ∈ entries, Hidden entry.1) (tar : Tar) :
    entries.foldlM visit tar = .ok tar := by
  induction entries with
  | nil => rfl
  | cons entry rest inductionHypothesis =>
      rw [List.foldlM_cons, visit, if_pos (hidden entry List.mem_cons_self), ok_bind]
      exact inductionHypothesis fun later inside => hidden later (List.mem_cons_of_mem entry inside)

theorem visit_singleton {path : Path} (node : Node) (visible : ¬ Hidden path) (tar : Tar) :
    [(path, node)].foldlM visit tar = tar.addOne path node := by
  rw [List.foldlM_cons, visit, if_neg visible]
  exact bind_pure _

theorem hidden_concat_iff {path : Path} {name : Text} :
    Hidden (path ++ [name]) ↔ path ∈ infraExcludedMembers ∨ Hidden path := by
  constructor
  · rintro ⟨excluded, listed, above, different⟩
    have above := (List.prefix_concat_iff.mp above).resolve_left different
    by_cases same : excluded = path
    · exact Or.inl (same ▸ listed)
    · exact Or.inr ⟨excluded, listed, above, same⟩
  · rintro (listed | ⟨excluded, listed, above, _⟩)
    · exact ⟨path, listed, List.prefix_append path [name], by simp⟩
    · refine ⟨excluded, listed, above.trans (List.prefix_append path [name]), ?_⟩
      rintro rfl
      have short := above.length_le
      simp at short

theorem Hidden.under {path longer : Path} (hidden : Hidden path) (below : path <+: longer) :
    Hidden longer := by
  rcases hidden with ⟨excluded, listed, above, different⟩
  refine ⟨excluded, listed, above.trans below, ?_⟩
  rintro rfl
  exact different (above.eq_of_length (Nat.le_antisymm above.length_le below.length_le))

mutual

/-- Adding a node visits the paths below it in order. -/
theorem Node.addTo_eq (path : Path) :
    ∀ (node : Node), ¬ Hidden path → ∀ tar,
      node.addTo path tar = (node.entries path).foldlM visit tar
  | .directory listable children, visible, tar => by
      rw [Node.addTo, Node.entries, List.foldlM_cons, visit, if_neg visible]
      cases tar.addOne path (.directory listable children) with
      | error failure => rfl
      | ok added =>
          rw [ok_bind, ok_bind]
          by_cases excluded : path ∈ infraExcludedMembers
          · rw [if_pos excluded, foldlM_visit_of_hidden]
            · rfl
            · intro entry inside
              rcases children.prefix_of_mem path entry inside with ⟨name, _, below⟩
              exact (hidden_concat_iff.mpr (Or.inl excluded)).under below
          · rw [if_neg excluded]
            exact Children.addTo_eq path children
              (fun name hidden => (hidden_concat_iff.mp hidden).elim excluded visible) added
  | .file file, visible, tar => (visit_singleton (.file file) visible tar).symm
  | .link target, visible, tar => (visit_singleton (.link target) visible tar).symm
  | .dangling, visible, tar => (visit_singleton .dangling visible tar).symm
  | .device, visible, tar => (visit_singleton .device visible tar).symm
  | .socket, visible, tar => (visit_singleton .socket visible tar).symm

theorem Children.addTo_eq (path : Path) :
    ∀ (children : Children), (∀ name, ¬ Hidden (path ++ [name])) → ∀ tar,
      children.addTo path tar = (children.entries path).foldlM visit tar
  | .nil, _, _ => rfl
  | .cons name node rest, visible, tar => by
      rw [Children.addTo, Children.entries, List.foldlM_append,
        Node.addTo_eq (path ++ [name]) node (visible name)]
      exact congrArg _ (funext fun added => Children.addTo_eq path rest visible added)

end

/-! ## What is kept -/

/-- The inode that a visit records. -/
def recordedInode (entry : Path × Node) : Option (Nat × Nat) :=
  match entry.2 with
  | .file file => if Hidden entry.1 ∨ file.inode.1 = 0 then none else some file.inode
  | _ => none

def inodesOf (before : List (Path × Node)) : List (Nat × Nat) :=
  before.filterMap recordedInode

/-- The member for a path that comes after others. -/
def kept (before : List (Path × Node)) (entry : Path × Node) : Option Member :=
  if Hidden entry.1 ∨ entry.1 ∈ infraExcludedMembers then none
  else
    match entry.2 with
    | .file file =>
        if 1 < file.links ∧ file.inode ∈ inodesOf before then none
        else some ⟨entry.1, .file file.content⟩
    | .directory _ _ => some ⟨entry.1, .directory⟩
    | _ => none

/-- Files and directories are kept, a file with several names once. -/
theorem kept_eq_some_iff {before : List (Path × Node)} {entry : Path × Node} {member : Member} :
    kept before entry = some member ↔
      ¬ Hidden entry.1 ∧ entry.1 ∉ infraExcludedMembers ∧ member.name = entry.1 ∧
        ((∃ file, entry.2 = .file file ∧ ¬ (1 < file.links ∧ file.inode ∈ inodesOf before) ∧
            member.body = .file file.content) ∨
          ∃ listable children, entry.2 = .directory listable children ∧
            member.body = .directory) := by
  rcases entry with ⟨path, node⟩
  rcases member with ⟨name, body⟩
  unfold kept
  by_cases out : Hidden path ∨ path ∈ infraExcludedMembers
  · rw [if_pos out]
    rcases out with hidden | excluded
    · simp [hidden]
    · simp [excluded]
  · rw [if_neg out]
    rw [not_or] at out
    cases node with
    | file file =>
        by_cases known : 1 < file.links ∧ file.inode ∈ inodesOf before
        · simp [known]
        · simp only [if_neg known]
          simp [out, eq_comm]
          exact fun _ _ several came => known ⟨several, came⟩
    | directory listable children => simp [out, eq_comm]
    | link target => simp
    | dangling => simp
    | device => simp
    | socket => simp

/-- A tar knows the inodes of the paths that were visited. -/
structure Recorded (before : List (Path × Node)) (tar : Tar) : Prop where
  inodes : ∀ inode, (tar.inodes.find inode).isSome ↔ inode ∈ inodesOf before
  names : ∀ inode name, tar.inodes.find inode = some name → name ∈ before.map Prod.fst

variable {before : List (Path × Node)} {entry : Path × Node} {tar after : Tar}

theorem recorded_empty : Recorded [] .empty where
  inodes inode := by simp [Tar.empty, inodesOf, Dictionary.find_nil]
  names inode name found := by simp [Tar.empty, Dictionary.find_nil] at found

theorem inodesOf_concat : inodesOf (before ++ [entry]) =
    inodesOf before ++ (recordedInode entry).toList := by
  rw [inodesOf, List.filterMap_append, inodesOf, List.filterMap_cons, List.filterMap_nil]
  cases recordedInode entry <;> rfl

/-- A visit that records nothing. -/
theorem Recorded.concat (recorded : Recorded before tar) (same : after.inodes = tar.inodes)
    (nothing : ∀ inode ∈ recordedInode entry, inode ∈ inodesOf before) :
    Recorded (before ++ [entry]) after where
  inodes inode := by
    rw [same, recorded.inodes, inodesOf_concat, List.mem_append, Option.mem_toList]
    exact ⟨Or.inl, fun either => either.elim id (nothing inode)⟩
  names inode name found := by
    rw [same] at found
    rw [List.map_append, List.mem_append]
    exact Or.inl (recorded.names inode name found)

/-- A visit that records its inode. -/
theorem Recorded.concat_upsert {inode : Nat × Nat} (recorded : Recorded before tar)
    (same : after.inodes = tar.inodes.upsert inode entry.1 fun _ => entry.1)
    (records : recordedInode entry = some inode) : Recorded (before ++ [entry]) after where
  inodes other := by
    rw [same, Dictionary.find_upsert, inodesOf_concat, records, List.mem_append,
      Option.mem_toList, ← recorded.inodes]
    by_cases here : other = inode
    · simp [here]
    · simp [here, Ne.symm here]
  names other name found := by
    rw [same, Dictionary.find_upsert] at found
    rw [List.map_append, List.mem_append]
    split at found
    · cases found
      exact Or.inr List.mem_cons_self
    · exact Or.inl (recorded.names other name found)

/-- A file is a hard link when its inode came before. -/
theorem Recorded.hardLink_iff (recorded : Recorded before tar) {path : Path}
    (fresh : path ∉ before.map Prod.fst) (inode : Nat × Nat) :
    (tar.inodes.find inode).any (path ≠ ·) = true ↔ inode ∈ inodesOf before := by
  rw [← recorded.inodes, Option.any_eq_true, Option.isSome_iff_exists]
  constructor
  · rintro ⟨name, found, _⟩
    exact ⟨name, found⟩
  · rintro ⟨name, found⟩
    refine ⟨name, found, decide_eq_true ?_⟩
    rintro same
    exact fresh (same ▸ recorded.names inode name found)

/-- `gettarinfo` records the inode of a file and adds no member. -/
theorem Recorded.getTarInfo (recorded : Recorded before tar)
    (fresh : entry.1 ∉ before.map Prod.fst) (visible : ¬ Hidden entry.1) :
    Recorded (before ++ [entry]) (tar.getTarInfo entry.1 entry.2).2 ∧
      (tar.getTarInfo entry.1 entry.2).2.members = tar.members := by
  rcases entry with ⟨path, node⟩
  cases node with
  | file file =>
      have inode : recordedInode (path, .file file) =
          if file.inode.1 = 0 then none else some file.inode := by
        simp [recordedInode, show ¬ Hidden path from visible]
      by_cases known : 1 < file.links ∧ (tar.inodes.find file.inode).any (path ≠ ·) = true
      · rw [Tar.getTarInfo, if_pos known]
        refine ⟨recorded.concat rfl ?_, rfl⟩
        intro found same
        rw [inode] at same
        split at same
        · cases same
        · cases same
          exact (recorded.hardLink_iff fresh file.inode).mp known.2
      · rw [Tar.getTarInfo, if_neg known]
        by_cases zero : file.inode.1 = 0
        · rw [if_pos zero]
          rw [if_pos zero] at inode
          exact ⟨recorded.concat rfl fun found same => by simp [inode] at same, rfl⟩
        · rw [if_neg zero]
          rw [if_neg zero] at inode
          exact ⟨recorded.concat_upsert rfl inode, rfl⟩
  | directory listable children => exact ⟨recorded.concat rfl fun _ same => (nomatch same), rfl⟩
  | link target => exact ⟨recorded.concat rfl fun _ same => (nomatch same), rfl⟩
  | dangling => exact ⟨recorded.concat rfl fun _ same => (nomatch same), rfl⟩
  | device => exact ⟨recorded.concat rfl fun _ same => (nomatch same), rfl⟩
  | socket => exact ⟨recorded.concat rfl fun _ same => (nomatch same), rfl⟩

/-- The member of a path passes the filter when it is kept. -/
theorem Recorded.regularMember (recorded : Recorded before tar)
    (fresh : entry.1 ∉ before.map Prod.fst) (visible : ¬ Hidden entry.1) :
    ((tar.getTarInfo entry.1 entry.2).1.bind regularMember).map TarInfo.name =
      (kept before entry).map Member.name := by
  rcases entry with ⟨path, node⟩
  have visible : ¬ Hidden path := visible
  by_cases excluded : path ∈ infraExcludedMembers
  · have nothing (kind : Kind) : SourceArchive.regularMember ⟨path, kind⟩ = none := by
      rw [SourceArchive.regularMember, if_pos excluded]
    rw [kept, if_pos (Or.inr excluded)]
    cases node <;> simp only [Tar.getTarInfo]
    case file => split <;> simp [nothing]
    all_goals simp [nothing]
  · have passed (kind : Kind) : SourceArchive.regularMember ⟨path, kind⟩ =
        if kind = .regular ∨ kind = .directory then some ⟨path, kind⟩ else none := by
      rw [SourceArchive.regularMember, if_neg excluded]
    rw [kept, if_neg (not_or.mpr ⟨visible, excluded⟩)]
    cases node with
    | file file =>
        have known := recorded.hardLink_iff (show path ∉ _ from fresh) file.inode
        simp only [Tar.getTarInfo, known]
        split <;> simp [passed]
    | directory listable children => simp [Tar.getTarInfo, passed]
    | link target => simp [Tar.getTarInfo, passed]
    | dangling => simp [Tar.getTarInfo, passed]
    | device => simp [Tar.getTarInfo, passed]
    | socket => simp [Tar.getTarInfo]

/-- A visit records its path, and adds the member that is kept. -/
theorem Recorded.visit (recorded : Recorded before tar) (fresh : entry.1 ∉ before.map Prod.fst)
    (visited : visit tar entry = .ok after) :
    Recorded (before ++ [entry]) after ∧
      after.members = tar.members ++ (kept before entry).toList := by
  unfold SourceArchive.visit at visited
  by_cases hidden : Hidden entry.1
  · rw [if_pos hidden] at visited
    cases visited
    have nothing : recordedInode entry = none := by
      unfold recordedInode
      split <;> simp [hidden]
    have unkept : kept before entry = none := if_pos (Or.inl hidden)
    refine ⟨recorded.concat rfl fun inode same => ?_, by simp [unkept]⟩
    rw [nothing] at same
    cases same
  · rw [if_neg hidden, Tar.addOne] at visited
    rcases recorded.getTarInfo fresh hidden with ⟨next, members⟩
    have filtered := recorded.regularMember fresh hidden
    cases found : (tar.getTarInfo entry.1 entry.2).1.bind SourceArchive.regularMember with
    | none =>
        rw [found] at visited filtered
        cases visited
        have unkept : kept before entry = none := by
          simpa using filtered.symm
        exact ⟨next, by simp [unkept, members]⟩
    | some member =>
        rw [found] at visited filtered
        have extended (body : Body) :
            Recorded (before ++ [entry]) ((tar.getTarInfo entry.1 entry.2).2.addFile member.name body) :=
          ⟨next.inodes, next.names⟩
        cases kept' : kept before entry with
        | none =>
            rw [kept'] at filtered
            cases filtered
        | some archived =>
            rw [kept'] at filtered
            have name : member.name = archived.name := Option.some.inj filtered
            rcases kept_eq_some_iff.mp kept' with ⟨_, _, _, ⟨file, here, _, body⟩ |
              ⟨listable, children, here, body⟩⟩
            · simp only [here] at visited
              split at visited
              · cases visited
                rw [← here]
                exact ⟨extended _, by simp [Tar.addFile, members, name, ← body]⟩
              · cases visited
            · simp only [here] at visited
              split at visited
              · cases visited
                rw [← here]
                exact ⟨extended _, by simp [Tar.addFile, members, name, ← body]⟩
              · cases visited

/-- The members that visits add. -/
def keptFrom : List (Path × Node) → List (Path × Node) → List Member
  | _, [] => []
  | before, entry :: rest => (kept before entry).toList ++ keptFrom (before ++ [entry]) rest

theorem mem_keptFrom_iff {before entries : List (Path × Node)} {member : Member} :
    member ∈ keptFrom before entries ↔
      ∃ earlier entry later, entries = earlier ++ entry :: later ∧
        kept (before ++ earlier) entry = some member := by
  induction entries generalizing before with
  | nil => simp [keptFrom]
  | cons entry rest inductionHypothesis =>
      rw [keptFrom, List.mem_append, Option.mem_toList, inductionHypothesis]
      constructor
      · rintro (here | ⟨earlier, found, later, rfl, kept'⟩)
        · exact ⟨[], entry, rest, rfl, by simpa using here⟩
        · exact ⟨entry :: earlier, found, later, rfl, by simpa using kept'⟩
      · rintro ⟨_ | ⟨first, earlier⟩, found, later, split, kept'⟩
        · cases split
          exact Or.inl (by simpa using kept')
        · cases split
          exact Or.inr ⟨earlier, found, later, rfl, by simpa using kept'⟩

/-- The visits of distinct paths add the members that are kept. -/
theorem Recorded.run {entries : List (Path × Node)} (recorded : Recorded before tar)
    (distinct : ((before ++ entries).map Prod.fst).Nodup)
    (ran : entries.foldlM SourceArchive.visit tar = .ok after) :
    after.members = tar.members ++ keptFrom before entries := by
  induction entries generalizing before tar with
  | nil =>
      cases ran
      rw [keptFrom, List.append_nil]
  | cons entry rest inductionHypothesis =>
      rw [List.foldlM_cons] at ran
      rcases bind_eq_ok.mp ran with ⟨next, visited, ran⟩
      have fresh : entry.1 ∉ before.map Prod.fst := by
        rw [List.map_append, List.nodup_append] at distinct
        intro inside
        exact distinct.2.2 _ inside _ (List.mem_map_of_mem List.mem_cons_self) rfl
      rcases recorded.visit fresh visited with ⟨next', members⟩
      rw [inductionHypothesis next' (by simpa using distinct) ran, members, keptFrom,
        List.append_assoc]

/-! ## The sources -/

/-- A path of a regular file. -/
def fileOf (entry : Path × Node) : Option (Path × File) :=
  match entry.2 with
  | .file file => some (entry.1, file)
  | _ => none

theorem fileOf_eq_some_iff {entry : Path × Node} {row : Path × File} :
    fileOf entry = some row ↔ entry = (row.1, .file row.2) := by
  rcases entry with ⟨path, node⟩
  rcases row with ⟨name, file⟩
  cases node <;> simp [fileOf]

namespace FileSystem

variable (files : FileSystem)

/-- The paths below some sources. -/
def entriesOf (sources : List Source) : List (Path × Node) :=
  sources.flatMap fun source => (files.source source).elim [] fun node => node.entries source.path

def entries : List (Path × Node) := files.entriesOf infraSources

/-- The regular files below the sources. -/
def regularFiles : List (Path × File) :=
  files.entries.filterMap fileOf

end FileSystem

section Sources

variable {files : FileSystem} {archived : Tar}

theorem source_visible (source : Source) : ¬ Hidden source.path := by
  cases source <;> decide

theorem source_not_excluded (source : Source) : source.path ∉ infraExcludedMembers := by
  cases source <;> decide

theorem eq_of_source_below {first second : Source} (below : first.path <+: second.path) :
    first = second := by
  revert below
  cases first <;> cases second <;> decide

/-- No path is below two sources. -/
theorem source_incompatible {first second : Source} (different : first ≠ second) {one other : Path}
    (oneBelow : first.path <+: one) (otherBelow : second.path <+: other) : one ≠ other := by
  rintro rfl
  rcases List.prefix_or_prefix_of_prefix oneBelow otherBelow with below | below
  · exact different (eq_of_source_below below)
  · exact different (eq_of_source_below below).symm

theorem mem_entriesOf_iff {sources : List Source} {entry : Path × Node} :
    entry ∈ files.entriesOf sources ↔
      ∃ source ∈ sources, ∃ node, files.source source = some node ∧
        entry ∈ node.entries source.path := by
  rw [FileSystem.entriesOf, List.mem_flatMap]
  constructor
  · rintro ⟨source, listed, inside⟩
    cases found : files.source source with
    | none => simp [found] at inside
    | some node => exact ⟨source, listed, node, found, by simpa [found] using inside⟩
  · rintro ⟨source, listed, node, found, inside⟩
    exact ⟨source, listed, by simpa [found] using inside⟩

theorem mem_entries_iff {entry : Path × Node} :
    entry ∈ files.entries ↔
      ∃ source node, files.source source = some node ∧ entry ∈ node.entries source.path := by
  rw [FileSystem.entries, mem_entriesOf_iff]
  constructor
  · rintro ⟨source, _, node, found, inside⟩
    exact ⟨source, node, found, inside⟩
  · rintro ⟨source, node, found, inside⟩
    exact ⟨source, by cases source <;> decide, node, found, inside⟩

/-- The paths below different sources are distinct. -/
theorem nodup_entriesOf {sources : List Source} (distinct : sources.Nodup) :
    ((files.entriesOf sources).map Prod.fst).Nodup := by
  induction sources with
  | nil => exact List.nodup_nil
  | cons source sources inductionHypothesis =>
      rw [List.nodup_cons] at distinct
      rw [FileSystem.entriesOf, List.flatMap_cons, List.map_append, List.nodup_append]
      refine ⟨?_, inductionHypothesis distinct.2, ?_⟩
      · cases found : files.source source with
        | none => exact List.nodup_nil
        | some node => exact node.nodup_entries source.path (files.sorted source node found)
      · intro first firstMem second secondMem
        rcases List.mem_map.mp firstMem with ⟨entry, here, rfl⟩
        rcases List.mem_map.mp secondMem with ⟨later, there, rfl⟩
        rcases mem_entriesOf_iff.mp there with ⟨other, listed, node, _, below⟩
        cases found : files.source source with
        | none => simp [found] at here
        | some own =>
            have here : entry ∈ own.entries source.path := by simpa [found] using here
            have different : source ≠ other := by
              rintro rfl
              exact distinct.1 listed
            exact source_incompatible different (own.prefix_of_mem _ entry here)
              (node.prefix_of_mem _ later below)

theorem nodup_entries : (files.entries.map Prod.fst).Nodup :=
  nodup_entriesOf (by decide)

/-- The loop over the sources visits the paths below them. -/
theorem addSources_eq_ok {sources : List Source} {tar : Tar}
    (added : addSources files sources tar = .ok archived) :
    (files.entriesOf sources).foldlM visit tar = .ok archived := by
  induction sources generalizing tar with
  | nil => exact added
  | cons source sources inductionHypothesis =>
      rw [addSources] at added
      rw [FileSystem.entriesOf, List.flatMap_cons, List.foldlM_append]
      cases found : files.source source with
      | none =>
          rw [found] at added
          cases added
      | some node =>
          rw [found] at added
          rcases bind_eq_ok.mp added with ⟨next, first, rest⟩
          rw [node.addTo_eq source.path (source_visible source)] at first
          rw [Option.elim_some, first, ok_bind]
          exact inductionHypothesis rest

/-- The members of the sources are the paths that are kept. -/
theorem members_addSources (added : addSources files infraSources .empty = .ok archived) :
    archived.members = keptFrom [] files.entries := by
  have ran : files.entries.foldlM visit .empty = .ok archived := addSources_eq_ok added
  rw [recorded_empty.run (by simpa using nodup_entries) ran]
  rfl

end Sources

/-! ## Archives that hold what they declare -/

/-- The descriptor declares members, the regular files below the sources are there,
and the secrets of the authority are not. -/
structure HoldsDeclared (files : FileSystem) (archive : List Member) : Prop where
  described : ∃ document, ⟨descriptorPath, .descriptor document⟩ ∈ archive
  declared : ∀ document, ⟨descriptorPath, .descriptor document⟩ ∈ archive →
    ∀ path ∈ document.contents, ∃ member ∈ archive, member.name = path
  regular : ∀ row ∈ files.regularFiles, row.1 ∉ infraExcludedMembers →
    ⟨row.1, .file row.2.content⟩ ∈ archive
  secrets : ∀ member ∈ archive, member.name ≠ caKeyPath ∧ member.name ≠ caSerialPath

/-- A regular file or a directory, itself and not through a link. -/
def Node.isPlain : Node → Bool
  | .file _ => true
  | .directory _ _ => true
  | _ => false

/-- What the archives can hold: sources that are files or directories, a database,
no file below an excluded path, and no second name of a file. -/
structure FileSystem.Archivable (files : FileSystem) : Prop where
  sources : ∀ source, (files.source source).any Node.isPlain
  database : files.hasDatabase
  reached : ∀ row ∈ files.regularFiles, ¬ Hidden row.1
  single : files.regularFiles.Pairwise fun earlier later =>
    later.1 ∉ infraExcludedMembers → 1 < later.2.links → later.2.inode.1 ≠ 0 →
      earlier.2.inode ≠ later.2.inode

section Holds

variable {files : FileSystem}

theorem mem_regularFiles_iff {row : Path × File} :
    row ∈ files.regularFiles ↔ (row.1, .file row.2) ∈ files.entries := by
  rw [FileSystem.regularFiles, List.mem_filterMap]
  simp only [fileOf_eq_some_iff]
  exact ⟨fun ⟨_, inside, same⟩ => same ▸ inside, fun inside => ⟨_, inside, rfl⟩⟩

/-- A path below a source is not one of the other members. -/
theorem ne_of_mem_entries {entry : Path × Node} (inside : entry ∈ files.entries) :
    entry.1 ≠ visionDatabasePath ∧ entry.1 ≠ descriptorPath := by
  rcases mem_entries_iff.mp inside with ⟨source, node, _, below⟩
  have longer := node.prefix_of_mem source.path entry below
  constructor
  · intro same
    rw [same] at longer
    revert longer
    cases source <;> decide
  · intro same
    rw [same] at longer
    revert longer
    cases source <;> decide

theorem not_hidden_of_excluded {path : Path} (excluded : path ∈ infraExcludedMembers) :
    ¬ Hidden path := by
  have all : ∀ path ∈ infraExcludedMembers, ¬ Hidden path := by decide
  exact all path excluded

/-- Where a path is kept. -/
theorem mem_keptFrom_entries_iff {earlier later : List (Path × Node)} {entry : Path × Node}
    {member : Member} (split : files.entries = earlier ++ entry :: later)
    (name : member.name = entry.1) :
    member ∈ keptFrom [] files.entries ↔ kept earlier entry = some member := by
  have distinct := @nodup_entries files
  constructor
  · intro inside
    rcases mem_keptFrom_iff.mp inside with ⟨before, found, after, again, kept'⟩
    have same : found = entry := by
      apply List.inj_on_of_nodup_map distinct
      · rw [again]
        exact List.mem_append_right before List.mem_cons_self
      · rw [split]
        exact List.mem_append_right earlier List.mem_cons_self
      · rw [← (kept_eq_some_iff.mp kept').2.2.1, name]
    subst same
    have once := List.Nodup.of_map _ distinct
    rw [split, List.nodup_middle, List.nodup_cons, List.mem_append, not_or] at once
    rw [split] at again
    rcases (List.append_cons_inj_of_notMem once.1.1 once.1.2).mp again with ⟨rfl, _, _⟩
    exact kept'
  · intro kept'
    exact mem_keptFrom_iff.mpr ⟨earlier, entry, later, split, kept'⟩

/-- The regular files are kept at every place where they are reached for the first
time. -/
theorem regular_kept_iff :
    (∀ row ∈ files.regularFiles, row.1 ∉ infraExcludedMembers →
        ⟨row.1, .file row.2.content⟩ ∈ keptFrom [] files.entries) ↔
      Everywhere (fun before entry => ∀ file, entry.2 = .file file →
        entry.1 ∉ infraExcludedMembers →
          ¬ Hidden entry.1 ∧ ¬ (1 < file.links ∧ file.inode ∈ inodesOf before)) files.entries := by
  constructor
  · rintro all before ⟨path, node⟩ after split file here visible
    cases (show node = .file file from here)
    have inside : (path, file) ∈ files.regularFiles := by
      rw [mem_regularFiles_iff, split]
      exact List.mem_append_right before List.mem_cons_self
    have kept' := (mem_keptFrom_entries_iff split rfl).mp (all _ inside visible)
    rcases kept_eq_some_iff.mp kept' with ⟨reached, _, _, ⟨_, same, first, _⟩ | ⟨_, _, same, _⟩⟩
    · cases same
      exact ⟨reached, first⟩
    · cases same
  · rintro every ⟨path, file⟩ inside visible
    rcases List.append_of_mem (mem_regularFiles_iff.mp inside) with ⟨before, after, split⟩
    rcases every before (path, .file file) after split file rfl visible with ⟨reached, first⟩
    rw [mem_keptFrom_entries_iff split rfl, kept_eq_some_iff]
    exact ⟨reached, visible, rfl, Or.inl ⟨file, rfl, first, rfl⟩⟩

/-- The inodes of paths that are all reached. -/
theorem mem_inodesOf_iff {before : List (Path × Node)}
    (reached : ∀ path file, (path, .file file) ∈ before → ¬ Hidden path) {inode : Nat × Nat} :
    inode ∈ inodesOf before ↔
      inode.1 ≠ 0 ∧ ∃ path file, (path, .file file) ∈ before ∧ file.inode = inode := by
  rw [inodesOf, List.mem_filterMap]
  constructor
  · rintro ⟨⟨path, node⟩, inside, found⟩
    cases node with
    | file file =>
        simp only [recordedInode] at found
        split at found
        · cases found
        · rename_i visible
          cases found
          exact ⟨fun zero => visible (Or.inr zero), path, file, inside, rfl⟩
    | directory listable children => cases found
    | link target => cases found
    | dangling => cases found
    | device => cases found
    | socket => cases found
  · rintro ⟨numbered, path, file, inside, rfl⟩
    refine ⟨_, inside, ?_⟩
    simp [recordedInode, reached path file inside, numbered]

theorem reached_of_split (reached : ∀ row ∈ files.regularFiles, ¬ Hidden row.1)
    {before after : List (Path × Node)} {entry : Path × Node}
    (split : files.entries = before ++ entry :: after) :
    ∀ path file, (path, .file file) ∈ before → ¬ Hidden path := by
  intro path file here
  apply reached (path, file)
  rw [mem_regularFiles_iff, split]
  exact List.mem_append_left _ here

/-- They are kept when every file is reached, and no file comes twice. -/
theorem everywhere_kept_iff :
    Everywhere (fun before entry => ∀ file, entry.2 = .file file →
        entry.1 ∉ infraExcludedMembers →
          ¬ Hidden entry.1 ∧ ¬ (1 < file.links ∧ file.inode ∈ inodesOf before)) files.entries ↔
      (∀ row ∈ files.regularFiles, ¬ Hidden row.1) ∧
        files.regularFiles.Pairwise fun earlier later =>
          later.1 ∉ infraExcludedMembers → 1 < later.2.links → later.2.inode.1 ≠ 0 →
            earlier.2.inode ≠ later.2.inode := by
  have pairs : (files.regularFiles.Pairwise fun earlier later =>
      later.1 ∉ infraExcludedMembers → 1 < later.2.links → later.2.inode.1 ≠ 0 →
        earlier.2.inode ≠ later.2.inode) ↔
      Everywhere (fun before entry => ∀ earlier ∈ before, ∀ row, fileOf earlier = some row →
        ∀ later, fileOf entry = some later → later.1 ∉ infraExcludedMembers →
          1 < later.2.links → later.2.inode.1 ≠ 0 → row.2.inode ≠ later.2.inode)
        files.entries := by
    rw [FileSystem.regularFiles, List.pairwise_filterMap, ← everywhere_iff_pairwise]
  rw [pairs]
  simp only [fileOf_eq_some_iff]
  constructor
  · intro every
    have reached : ∀ row ∈ files.regularFiles, ¬ Hidden row.1 := by
      rintro ⟨path, file⟩ inside
      by_cases excluded : path ∈ infraExcludedMembers
      · exact not_hidden_of_excluded excluded
      · rcases List.append_of_mem (mem_regularFiles_iff.mp inside) with ⟨before, after, split⟩
        exact (every before _ after split file rfl excluded).1
    constructor
    · exact reached
    · rintro before _ after split _ inside row rfl later rfl visible several numbered same
      have came : later.2.inode ∈ inodesOf before :=
        (mem_inodesOf_iff (reached_of_split reached split)).mpr
          ⟨numbered, row.1, row.2, inside, same⟩
      exact (every before _ after split later.2 rfl visible).2 ⟨several, came⟩
  · rintro ⟨reached, single⟩ before ⟨path, node⟩ after split file here visible
    cases (show node = .file file from here)
    constructor
    · apply reached (path, file)
      rw [mem_regularFiles_iff, split]
      exact List.mem_append_right before List.mem_cons_self
    · rintro ⟨several, came⟩
      rcases (mem_inodesOf_iff (reached_of_split reached split)).mp came with
        ⟨numbered, name, first, inside, same⟩
      exact single before _ after split _ inside (name, first) rfl (path, file) rfl visible several
        numbered same

/-- The last members come after those of the sources. -/
theorem mem_finish_iff {tar : Tar} {authorizations snapshot : Option Bytes}
    {document : Descriptor} {member : Member} :
    member ∈ (tar.finish authorizations snapshot document).members ↔
      member ∈ tar.members ∨
        (∃ content ∈ authorizations, member = ⟨authorizationsPath, .file content⟩) ∨
          (∃ content ∈ snapshot, member = ⟨visionDatabasePath, .file content⟩) ∨
            member = ⟨descriptorPath, .descriptor document⟩ := by
  have database : (regularMember ⟨visionDatabasePath, .regular⟩).isSome = true := by decide
  have last : (regularMember ⟨descriptorPath, .regular⟩).isSome = true := by decide
  unfold Tar.finish Tar.addRuntimeFile
  simp only [database, last, if_true]
  cases authorizations <;> cases snapshot <;> simp [Tar.addFile]

variable {tar : Tar} {authorizations snapshot : Option Bytes}
  {backupId createdAt agentVersion visionVersion : Text}

/-- A member for a source is the source itself. -/
theorem plain_of_kept {member : Member} {source : Source}
    (inside : member ∈ keptFrom [] files.entries) (name : member.name = source.path) :
    (files.source source).any Node.isPlain := by
  rcases mem_keptFrom_iff.mp inside with ⟨earlier, ⟨path, node⟩, later, split, kept'⟩
  rcases kept_eq_some_iff.mp kept' with ⟨_, _, own, body⟩
  rw [name] at own
  subst own
  have below : (source.path, node) ∈ files.entries := by
    rw [split]
    exact List.mem_append_right earlier List.mem_cons_self
  rcases mem_entries_iff.mp below with ⟨other, found, located, deeper⟩
  have same := eq_of_source_below (found.prefix_of_mem other.path _ deeper)
  subst same
  have here := Node.eq_of_mem_entries deeper
  subst here
  rw [located, Option.any_some]
  rcases body with ⟨file, rfl, _⟩ | ⟨listable, children, rfl, _⟩
  · rfl
  · rfl

/-- A source that is a file or a directory is a member. -/
theorem member_of_plain (source : Source) (plain : (files.source source).any Node.isPlain)
    (regular : ∀ row ∈ files.regularFiles, row.1 ∉ infraExcludedMembers →
      ⟨row.1, .file row.2.content⟩ ∈ keptFrom [] files.entries) :
    ∃ member ∈ keptFrom [] files.entries, member.name = source.path := by
  rw [Option.any_eq_true] at plain
  rcases plain with ⟨node, located, plain⟩
  have inside : (source.path, node) ∈ files.entries :=
    mem_entries_iff.mpr ⟨source, node, located, node.mem_entries_self source.path⟩
  cases node with
  | file file =>
      exact ⟨_, regular (source.path, file) (mem_regularFiles_iff.mpr inside)
        (source_not_excluded source), rfl⟩
  | directory listable children =>
      rcases List.append_of_mem inside with ⟨earlier, later, split⟩
      refine ⟨⟨source.path, .directory⟩, (mem_keptFrom_entries_iff split rfl).mpr ?_, rfl⟩
      rw [kept_eq_some_iff]
      exact ⟨source_visible source, source_not_excluded source, rfl,
        Or.inr ⟨listable, children, rfl, rfl⟩⟩
  | link target => cases plain
  | dangling => cases plain
  | device => cases plain
  | socket => cases plain

theorem name_of_kept {member : Member} (inside : member ∈ keptFrom [] files.entries) :
    member.name ∉ infraExcludedMembers ∧ member.name ≠ visionDatabasePath ∧
      member.name ≠ descriptorPath := by
  rcases mem_keptFrom_iff.mp inside with ⟨earlier, entry, later, split, kept'⟩
  rcases kept_eq_some_iff.mp kept' with ⟨_, visible, own, _⟩
  rw [own]
  refine ⟨visible, @ne_of_mem_entries files _ ?_⟩
  rw [split]
  exact List.mem_append_right earlier List.mem_cons_self

/-- The required members are the sources and the database. -/
theorem mem_infraRequiredMembers_iff {path : Path} :
    path ∈ infraRequiredMembers ↔ (∃ source : Source, path = source.path) ∨
      path = visionDatabasePath := by
  simp only [infraRequiredMembers, List.mem_cons, List.not_mem_nil, or_false]
  constructor
  · rintro (rfl | rfl | rfl | rfl | rfl)
    · exact Or.inl ⟨.agent, rfl⟩
    · exact Or.inl ⟨.vision, rfl⟩
    · exact Or.inl ⟨.dnsmasq, rfl⟩
    · exact Or.inl ⟨.chrony, rfl⟩
    · exact Or.inr rfl
  · rintro (⟨source, rfl⟩ | rfl)
    · cases source <;> simp
    · simp

theorem other_names : ∀ name ∈ [authorizationsPath, visionDatabasePath, descriptorPath],
    name ≠ caKeyPath ∧ name ≠ caSerialPath := by
  decide

theorem database_alone : authorizationsPath ≠ visionDatabasePath ∧
    descriptorPath ≠ visionDatabasePath ∧ authorizationsPath ≠ descriptorPath := by
  decide

/-- An archive of both flows holds what it declares when the file system can be
archived. -/
theorem holdsDeclared_finish_iff (added : addSources files infraSources .empty = .ok tar)
    (taken : snapshot.isSome = files.hasDatabase) :
    HoldsDeclared files (tar.finish authorizations snapshot
        (descriptor backupId createdAt agentVersion visionVersion)).members ↔
      files.Archivable := by
  have ofSources {member : Member} (inside : member ∈ (tar.finish authorizations snapshot
      (descriptor backupId createdAt agentVersion visionVersion)).members)
      (other : member.name ≠ authorizationsPath ∧ member.name ≠ visionDatabasePath ∧
        member.name ≠ descriptorPath) : member ∈ keptFrom [] files.entries := by
    rw [mem_finish_iff, members_addSources added] at inside
    rcases inside with inside | ⟨_, _, rfl⟩ | ⟨_, _, rfl⟩ | rfl
    · exact inside
    · exact absurd rfl other.1
    · exact absurd rfl other.2.1
    · exact absurd rfl other.2.2
  have apart (source : Source) : source.path ≠ authorizationsPath ∧
      source.path ≠ visionDatabasePath ∧ source.path ≠ descriptorPath := by
    cases source <;> decide
  have last : ⟨descriptorPath, .descriptor (descriptor backupId createdAt agentVersion
      visionVersion)⟩ ∈ (tar.finish authorizations snapshot
        (descriptor backupId createdAt agentVersion visionVersion)).members :=
    mem_finish_iff.mpr (Or.inr (Or.inr (Or.inr rfl)))
  constructor
  · intro holds
    have declared := holds.declared _ last
    have regular := everywhere_kept_iff.mp (regular_kept_iff.mp (fun row inside visible =>
      ofSources (holds.regular row inside visible) (by
        have other := ne_of_mem_entries (mem_regularFiles_iff.mp inside)
        refine ⟨fun same => visible ?_, other⟩
        rw [show row.1 = authorizationsPath from same]
        exact List.mem_cons_self)))
    refine ⟨fun source => ?_, ?_, regular.1, regular.2⟩
    · rcases declared source.path
        (mem_infraRequiredMembers_iff.mpr (Or.inl ⟨source, rfl⟩)) with ⟨member, inside, name⟩
      exact plain_of_kept (ofSources inside (name ▸ apart source)) name
    · rcases declared visionDatabasePath
        (mem_infraRequiredMembers_iff.mpr (Or.inr rfl)) with ⟨member, inside, name⟩
      rw [mem_finish_iff, members_addSources added] at inside
      rcases inside with inside | ⟨_, _, rfl⟩ | ⟨content, found, rfl⟩ | rfl
      · exact absurd name (name_of_kept inside).2.1
      · exact absurd name database_alone.1
      · rw [← taken, found]
        rfl
      · exact absurd name database_alone.2.1
  · intro archivable
    have regular := regular_kept_iff.mpr (everywhere_kept_iff.mpr
      ⟨archivable.reached, archivable.single⟩)
    have inArchive {member : Member} (inside : member ∈ keptFrom [] files.entries) :
        member ∈ (tar.finish authorizations snapshot
          (descriptor backupId createdAt agentVersion visionVersion)).members := by
      rw [mem_finish_iff, members_addSources added]
      exact Or.inl inside
    refine ⟨⟨_, last⟩, ?_, fun row inside visible => inArchive (regular row inside visible), ?_⟩
    · intro document inside path listed
      have same : document = descriptor backupId createdAt agentVersion visionVersion := by
        rw [mem_finish_iff, members_addSources added] at inside
        rcases inside with inside | ⟨_, _, other⟩ | ⟨_, _, other⟩ | own
        · exact absurd rfl (name_of_kept inside).2.2
        · cases other
        · cases other
        · cases own
          rfl
      subst same
      rcases mem_infraRequiredMembers_iff.mp listed with ⟨source, rfl⟩ | rfl
      · rcases member_of_plain source (archivable.sources source) regular with ⟨member, here, name⟩
        exact ⟨member, inArchive here, name⟩
      · have there := archivable.database
        rw [← taken, Option.isSome_iff_exists] at there
        rcases there with ⟨content, found⟩
        exact ⟨_, mem_finish_iff.mpr (Or.inr (Or.inr (Or.inl ⟨content, found, rfl⟩))), rfl⟩
    · intro member inside
      rw [mem_finish_iff, members_addSources added] at inside
      rcases inside with inside | ⟨_, _, rfl⟩ | ⟨content, found, rfl⟩ | rfl
      · have visible := (name_of_kept inside).1
        constructor
        · rintro same
          exact visible (same ▸ by decide)
        · rintro same
          exact visible (same ▸ by decide)
      · exact other_names _ (by simp)
      · exact other_names _ (by simp)
      · exact other_names _ (by simp)

end Holds

/-! ## Both flows -/

/-- An archive of one of the flows, which ends without raising. -/
inductive Ends (files : FileSystem) (archive : List Member) : Prop where
  | coordinator (circumstances : LocalCircumstances)
      (ended : run files circumstances = .ok archive)
  | transfer (circumstances : StreamCircumstances)
      (ended : streamSource files circumstances = .ok archive)

section Flows

variable {files : FileSystem} {archive : List Member}

/-- The archive of a flow that ends: the sources, and a snapshot when there is a
database. -/
def Finished (files : FileSystem) (archive : List Member) : Prop :=
  ∃ tar authorizations snapshot backupId createdAt agentVersion visionVersion,
    addSources files infraSources .empty = .ok tar ∧ snapshot.isSome = files.hasDatabase ∧
      archive = (tar.finish authorizations snapshot
        (descriptor backupId createdAt agentVersion visionVersion)).members

theorem map_some_eq_ok {ε α : Type} {result : Except ε α} {found : Option α}
    (mapped : result.map some = .ok found) : found.isSome := by
  cases result with
  | error failure => cases mapped
  | ok value =>
      cases mapped
      rfl

theorem isSome_of_snapshotLocal {vacuum : Except ArchiveFailure Bytes} {snapshot : Option Bytes}
    (taken : snapshotLocal files vacuum = .ok snapshot) : snapshot.isSome = files.hasDatabase := by
  unfold snapshotLocal at taken
  split at taken
  · rename_i there
    rw [map_some_eq_ok taken, there]
  · rename_i absent
    cases taken
    exact (Bool.eq_false_of_not_eq_true absent).symm

theorem isSome_of_snapshotStream {circumstances : StreamCircumstances} {snapshot : Option Bytes}
    (taken : snapshotStream files circumstances = .ok snapshot) :
    snapshot.isSome = files.hasDatabase := by
  unfold snapshotStream at taken
  split at taken
  · rename_i there
    rw [map_some_eq_ok taken, there]
  · rename_i absent
    cases taken
    exact (Bool.eq_false_of_not_eq_true absent).symm

theorem staged_eq_ok {α : Type} {result : Except ArchiveFailure α} {value : α}
    (ended : staged result = .ok value) : result = .ok value := by
  unfold staged at ended
  split at ended
  · cases ended
  · exact ended

theorem finished_of_run {circumstances : LocalCircumstances}
    (ended : run files circumstances = .ok archive) : Finished files archive := by
  rcases bind_eq_ok.mp ended with ⟨_, _, ended⟩
  rcases bind_eq_ok.mp ended with ⟨_, _, ended⟩
  rcases bind_eq_ok.mp ended with ⟨_, _, ended⟩
  rcases bind_eq_ok.mp ended with ⟨agentVersion, _, ended⟩
  rcases bind_eq_ok.mp ended with ⟨visionVersion, _, ended⟩
  rcases bind_eq_ok.mp (staged_eq_ok ended) with ⟨_, _, ended⟩
  rcases bind_eq_ok.mp ended with ⟨snapshot, taken, ended⟩
  rcases bind_eq_ok.mp ended with ⟨tar, added, ended⟩
  rcases bind_eq_ok.mp ended with ⟨authorizations, _, ended⟩
  rcases bind_eq_ok.mp ended with ⟨_, _, ended⟩
  rcases bind_eq_ok.mp ended with ⟨_, _, ended⟩
  cases ended
  exact ⟨tar, authorizations, snapshot, _, _, agentVersion, visionVersion, added,
    isSome_of_snapshotLocal taken, rfl⟩

theorem finished_of_streamSource {circumstances : StreamCircumstances}
    (ended : streamSource files circumstances = .ok archive) : Finished files archive := by
  rcases bind_eq_ok.mp ended with ⟨_, _, ended⟩
  rcases bind_eq_ok.mp ended with ⟨_, _, ended⟩
  rcases bind_eq_ok.mp ended with ⟨_, _, ended⟩
  rcases bind_eq_ok.mp ended with ⟨_, _, ended⟩
  rcases bind_eq_ok.mp ended with ⟨snapshot, taken, ended⟩
  by_cases empty : snapshot = none
  · simp only [if_pos empty] at ended
    cases ended
  simp only [if_neg empty] at ended
  cases parsed : createdAt? circumstances.backupId with
  | none =>
      rw [parsed] at ended
      cases ended
  | some createdAt =>
      rw [parsed] at ended
      rcases bind_eq_ok.mp ended with ⟨authorizations, _, ended⟩
      rcases bind_eq_ok.mp ended with ⟨agentVersion, _, ended⟩
      rcases bind_eq_ok.mp ended with ⟨visionVersion, _, ended⟩
      rcases bind_eq_ok.mp ended with ⟨tar, added, ended⟩
      rcases bind_eq_ok.mp ended with ⟨_, _, ended⟩
      cases ended
      exact ⟨tar, authorizations, snapshot, _, _, agentVersion, visionVersion, added,
        isSome_of_snapshotStream taken, rfl⟩

theorem Finished.holds_iff (finished : Finished files archive) :
    HoldsDeclared files archive ↔ files.Archivable := by
  rcases finished with ⟨tar, _, _, _, _, _, _, added, taken, rfl⟩
  exact holdsDeclared_finish_iff added taken

/-- An archive that a flow ends with holds what its descriptor declares if and only if
the sources are plain, the database is there, every file is reached, and no file comes
a second time. -/
theorem archive_holds_declared_iff (ends : Ends files archive) :
    HoldsDeclared files archive ↔ files.Archivable := by
  rcases ends with ⟨_, ended⟩ | ⟨_, ended⟩
  · exact (finished_of_run ended).holds_iff
  · exact (finished_of_streamSource ended).holds_iff

end Flows

/-! ## Four sources -/

/-- A file with one name. -/
def plainFile (number : Nat) : Node :=
  .file ⟨(number, 1), 1, true, [1]⟩

/-- A directory with one file. -/
def plainDirectory (number : Nat) : Node :=
  .directory true (.cons "config.yaml".toList (plainFile number) .nil)

def plainSource : Source → Node
  | .agent => plainDirectory 1
  | .vision => plainDirectory 2
  | .dnsmasq => plainDirectory 3
  | .chrony => plainFile 4

theorem sorted_plainSource (source : Source) : (plainSource source).Sorted := by
  cases source <;> simp [plainSource, plainDirectory, plainFile, Node.Sorted, Children.Sorted,
    Children.names]

def plainFiles : FileSystem where
  source place := some (plainSource place)
  visionDatabase := some (plainFile 5)
  sorted := by
    rintro place node found
    cases found
    exact sorted_plainSource place

/-- The database is not there. -/
def withoutDatabase : FileSystem :=
  { plainFiles with visionDatabase := none }

/-- The configuration of chrony is a link. -/
def linkedSource : Source → Node
  | .chrony => .link (plainFile 4)
  | place => plainSource place

def withLink : FileSystem where
  source place := some (linkedSource place)
  visionDatabase := some (plainFile 5)
  sorted := by
    rintro place node found
    cases found
    cases place with
    | agent => exact sorted_plainSource .agent
    | vision => exact sorted_plainSource .vision
    | dnsmasq => exact sorted_plainSource .dnsmasq
    | chrony => exact sorted_plainSource .chrony

/-- Nothing raises. -/
def calmRun : LocalCircumstances where
  enabled := true
  ageBinary := "/usr/bin/age".toList
  ageInstalled := true
  recipient := .ok "age1recipient".toList
  recoveryIdentity := none
  temporaryRoot := none
  backupId := "20260813T120000Z".toList
  createdAt := "2026-08-13T12:00:00Z".toList
  agentVersion := .ok "1.12.7".toList
  visionVersion := .ok "1.11.8".toList
  temporaryDirectory := none
  vacuum := .ok [2]
  exported := .ok [3]
  encryption := none
  publication := none

def calmStream : StreamCircumstances where
  authorization := none
  temporaryRoot := none
  temporaryDirectory := none
  backupId := "20260813T120000Z".toList
  snapshotAttempts := 3
  vacuum _ := .ok [2]
  exported := .ok [3]
  agentVersion := .ok "1.12.7".toList
  visionVersion := .ok "1.11.8".toList
  output := none

/-- A local archive without the database, and a streamed archive without a linked
source, still declare both. -/
theorem declared_members_missing :
    (∃ files circumstances archive, run files circumstances = .ok archive ∧
      ¬ HoldsDeclared files archive) ∧
    ∃ files circumstances archive, streamSource files circumstances = .ok archive ∧
      ¬ HoldsDeclared files archive := by
  constructor
  · refine ⟨withoutDatabase, calmRun, _, rfl, fun holds => ?_⟩
    have archivable := (@finished_of_run _ _ calmRun rfl).holds_iff.mp holds
    exact absurd archivable.database (by decide)
  · refine ⟨withLink, calmStream, _, rfl, fun holds => ?_⟩
    have archivable := (@finished_of_streamSource _ _ calmStream rfl).holds_iff.mp holds
    exact absurd (archivable.sources .chrony) (by decide)

theorem plainFiles_archivable : plainFiles.Archivable where
  sources source := by cases source <;> rfl
  database := rfl
  reached := by decide
  single := by decide

/-- The plain sources and their database are all in the archive. -/
theorem plain_archive_holds : ∃ archive, run plainFiles calmRun = .ok archive ∧
    HoldsDeclared plainFiles archive :=
  ⟨_, rfl, (archive_holds_declared_iff (Ends.coordinator calmRun rfl)).mpr plainFiles_archivable⟩

end OhanaAgent.Plugins.Backup.SourceArchive
