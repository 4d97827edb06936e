import OhanaAgent.Host.DhcpWrites
import OhanaAgent.Host.DhcpRoundTrip

/-!
# A failed write of the DHCP configuration

A write that raises leaves every file as it was exactly when it raises before
the first replacement, or is restored and had replaced decodable files only, or
had replaced files by what they held.
-/

namespace OhanaAgent.Host

open Encoding.Json
open Store

/-! ## Replacing and restoring -/

theorem putAll_nil (contents : Contents) (disk : Disk) : disk.putAll [] contents = disk := by
  simp [Disk.putAll]

theorem putAll_append (first rest : List ConfigurationFile) (contents : Contents) (disk : Disk) :
    (disk.putAll first contents).putAll rest contents = disk.putAll (first ++ rest) contents := by
  simp [Disk.putAll, overwrite_overwrite]

theorem put_eq_putAll (file : ConfigurationFile) (contents : Contents) (disk : Disk) :
    disk.put file (contents file) = disk.putAll [file] contents := by
  have same : Function.update disk.files file (contents file) =
      overwrite [file] contents disk.files := by
    funext other
    by_cases here : other = file
    · rw [here, Function.update_self, overwrite_of_mem (List.mem_singleton_self file)]
    · rw [Function.update_of_ne here, overwrite_of_not_mem fun member =>
        here (List.mem_singleton.mp member)]
  simp [Disk.put, Disk.putAll, same]

/-- The first failing replacement: the files that are replaced, and what is raised. -/
def replacementFailure (faults : ConfigurationFile → Option Fault) :
    List ConfigurationFile → Option (List ConfigurationFile × Failure)
  | [] => none
  | file :: rest =>
      match faults file with
      | some fault => some (if fault.replaced then [file] else [], fault.raised)
      | none => (replacementFailure faults rest).map fun found => (file :: found.1, found.2)

theorem replacementFailure_prefix {faults : ConfigurationFile → Option Fault}
    {files replaced : List ConfigurationFile} {failure : Failure}
    (found : replacementFailure faults files = some (replaced, failure)) : replaced <+: files := by
  induction files generalizing replaced with
  | nil => contradiction
  | cons file rest inductionHypothesis =>
      unfold replacementFailure at found
      cases raised : faults file with
      | some fault =>
          rw [raised, Option.some.injEq, Prod.mk.injEq] at found
          rw [← found.1]
          split
          · exact List.prefix_append [file] rest
          · exact List.nil_prefix
      | none =>
          rw [raised] at found
          rcases Option.map_eq_some_iff.mp found with ⟨⟨others, other⟩, later, equal⟩
          rw [Prod.mk.injEq] at equal
          rw [← equal.1]
          exact (List.prefix_cons_inj file).mpr (inductionHypothesis (equal.2 ▸ later))

/-- A file that is not there, or whose bytes can be decoded. -/
def isDecodable : Option ByteArray → Bool
  | none => true
  | some bytes => (decodeBytes bytes).isSome

theorem isDecodable_encodeText (content : Text) : isDecodable (some (encodeText content)) := by
  simp [isDecodable]

/-- The files before the first one that cannot be decoded. -/
def restorable (previous : Contents) (files : List ConfigurationFile) : List ConfigurationFile :=
  files.takeWhile fun file => isDecodable (previous file)

theorem mem_restorable_of_replaced {previous : Contents} {files replaced : List ConfigurationFile}
    (inside : replaced <+: files) (decodable : ∀ file ∈ replaced, isDecodable (previous file))
    {file : ConfigurationFile} (member : file ∈ replaced) : file ∈ restorable previous files := by
  rcases inside with ⟨others, rfl⟩
  rw [restorable, List.takeWhile_append_of_pos decodable]
  exact List.mem_append_left _ member

/-- Restoring puts the files back up to the first one that cannot be decoded. -/
theorem run_restore (previous : Contents) (files : List ConfigurationFile) (disk : Disk) :
    ((restore previous files).run disk).2 = disk.putAll (restorable previous files) previous := by
  induction files generalizing disk with
  | nil => exact (putAll_nil previous disk).symm
  | cons file rest inductionHypothesis =>
      cases content : previous file with
      | none =>
          have first : (restore previous (file :: rest)).run disk =
              (restore previous rest).run (disk.put file none) := by
            rw [restore, content]
            exact run_bind_of_ok (run_modify _)
          have kept : restorable previous (file :: rest) = file :: restorable previous rest := by
            rw [restorable, List.takeWhile_cons_of_pos (by rw [content]; rfl)]
            rfl
          rw [first, inductionHypothesis, kept, ← content, put_eq_putAll, putAll_append]
          rfl
      | some bytes =>
          cases decoded : decodeBytes bytes with
          | none =>
              have first : (restore previous (file :: rest)).run disk =
                  (.error .undecodable, disk) := by
                rw [restore, content]
                simp only [decoded]
                exact run_bind_of_error (run_throw _)
              have stopped : restorable previous (file :: rest) = [] := by
                rw [restorable, List.takeWhile_cons_of_neg (by simp [content, isDecodable, decoded])]
              rw [first, stopped, putAll_nil]
          | some text =>
              have first : (restore previous (file :: rest)).run disk =
                  (restore previous rest).run (disk.put file (some (encodeText text))) := by
                rw [restore, content]
                simp only [decoded]
                exact run_bind_of_ok (run_modify _)
              have kept : restorable previous (file :: rest) = file :: restorable previous rest := by
                rw [restorable, List.takeWhile_cons_of_pos (by simp [content, isDecodable, decoded])]
                rfl
              rw [first, inductionHypothesis, kept, encodeText_of_decodeBytes decoded, ← content,
                put_eq_putAll, putAll_append]
              rfl

/-! ## The guarded block -/

section

variable (repository : Repository) (circumstances : Circumstances) (configuration : Configuration)

theorem run_atomicWrite (file : ConfigurationFile) (disk : Disk) :
    (atomicWrite none file (repository.rendered configuration file)).run disk =
      (.ok (), disk.putAll [file] (repository.renderedBytes configuration)) := by
  rw [← put_eq_putAll]
  rfl

theorem run_atomicWrite_fault (fault : Fault) (file : ConfigurationFile) (disk : Disk) :
    (atomicWrite (some fault) file (repository.rendered configuration file)).run disk =
      (.error fault.raised, disk.putAll (if fault.replaced then [file] else [])
        (repository.renderedBytes configuration)) := by
  unfold atomicWrite
  by_cases replaced : fault.replaced
  · simp only [if_pos replaced]
    rw [← put_eq_putAll]
    exact run_bind_of_ok (run_modify _)
  · simp only [if_neg replaced]
    rw [putAll_nil]
    exact run_bind_of_ok (run_pure _)

/-- What a replacement loop leaves: the files before the failing one are replaced. -/
theorem run_replaceAll (files : List ConfigurationFile) (disk : Disk) :
    (repository.replaceAll circumstances configuration files).run disk =
      match replacementFailure circumstances.faults files with
      | none => (.ok (), disk.putAll files (repository.renderedBytes configuration))
      | some (replaced, failure) =>
          (.error failure, disk.putAll replaced (repository.renderedBytes configuration)) := by
  induction files generalizing disk with
  | nil => exact congrArg (Prod.mk _) (putAll_nil _ disk).symm
  | cons file rest inductionHypothesis =>
      rw [Repository.replaceAll, replacementFailure]
      cases raised : circumstances.faults file with
      | some fault => exact run_bind_of_error (run_atomicWrite_fault repository configuration _ _ _)
      | none =>
          rw [run_bind_of_ok (run_atomicWrite repository configuration file disk),
            inductionHypothesis]
          cases replacementFailure circumstances.faults rest with
          | none => simp [putAll_append]
          | some found => simp [putAll_append]

/-- The failing step of the guarded block: the files that are replaced when it
raises, and what it raises. -/
def blockFailure : Option (List ConfigurationFile × Failure) :=
  match replacementFailure circumstances.faults repository.files with
  | some found => some found
  | none =>
      match validateDnsmasq circumstances.validation with
      | .error failure => some (repository.files, failure)
      | .ok _ =>
          match circumstances.reload with
          | some (some fault) => some (repository.files, fault.raised)
          | _ => none

theorem blockFailure_prefix {replaced : List ConfigurationFile} {failure : Failure}
    (found : blockFailure repository circumstances = some (replaced, failure)) :
    replaced <+: repository.files := by
  unfold blockFailure at found
  cases loop : replacementFailure circumstances.faults repository.files with
  | some pair =>
      rw [loop] at found
      exact replacementFailure_prefix (loop.trans found)
  | none =>
      rw [loop] at found
      have whole : repository.files = replaced := by
        repeat' split at found
        all_goals first
          | contradiction
          | exact (Prod.mk.inj (Option.some.inj found)).1
      rw [whole]

/-- A reload request leaves the configuration files. -/
theorem run_requestReload (staleLeaseMacs : List Text) (disk : Disk) :
    ((requestReload circumstances staleLeaseMacs).run disk).2.files = disk.files ∧
      ((requestReload circumstances staleLeaseMacs).run disk).1 =
        match circumstances.reload with
        | some (some fault) => .error fault.raised
        | _ => .ok () := by
  unfold requestReload
  cases circumstances.reload with
  | none => exact ⟨rfl, rfl⟩
  | some path =>
      cases path with
      | none => exact ⟨rfl, rfl⟩
      | some fault =>
          by_cases replaced : fault.replaced
          · simp only [if_pos replaced]
            exact ⟨rfl, rfl⟩
          · simp only [if_neg replaced]
            exact ⟨rfl, rfl⟩

/-- The guarded block raises at its failing step, and has replaced the files up to
there. -/
theorem run_guarded (staleLeaseMacs : List Text) (disk : Disk) :
    ((repository.guarded circumstances configuration staleLeaseMacs).run disk).1 =
        (match blockFailure repository circumstances with
          | none => .ok ()
          | some (_, failure) => .error failure) ∧
      ((repository.guarded circumstances configuration staleLeaseMacs).run disk).2.files =
        overwrite (((blockFailure repository circumstances).map Prod.fst).getD repository.files)
          (repository.renderedBytes configuration) disk.files := by
  have loop := run_replaceAll repository circumstances configuration repository.files disk
  unfold blockFailure Repository.guarded
  cases found : replacementFailure circumstances.faults repository.files with
  | some pair =>
      rw [found] at loop
      rw [run_bind_of_error loop]
      exact ⟨rfl, rfl⟩
  | none =>
      rw [found] at loop
      rw [run_bind_of_ok loop]
      cases validated : validateDnsmasq circumstances.validation with
      | error failure =>
          rw [run_bind_of_error (run_liftExcept _)]
          exact ⟨rfl, rfl⟩
      | ok accepted =>
          rw [run_bind_of_ok (run_liftExcept _), (run_requestReload circumstances _ _).1,
            (run_requestReload circumstances _ _).2]
          cases circumstances.reload with
          | none => exact ⟨rfl, rfl⟩
          | some path =>
              cases path with
              | none => exact ⟨rfl, rfl⟩
              | some fault => exact ⟨rfl, rfl⟩

/-- The handler raises; a failure that it names has the files restored up to the
first one that cannot be decoded. -/
theorem run_recover (previous : Contents) (failure : Failure) (disk : Disk) :
    (∃ raised, ((repository.recover previous failure).run disk).1 = .error raised) ∧
      ((repository.recover previous failure).run disk).2.files =
        if failure.handled then
          overwrite (restorable previous repository.files) previous disk.files
        else disk.files := by
  unfold Repository.recover
  by_cases handled : failure.handled
  · simp only [if_pos handled]
    have restored := run_restore previous repository.files disk
    cases run : (restore previous repository.files).run disk with
    | mk result working =>
        rw [run] at restored
        cases result with
        | ok answer =>
            rw [run_bind_of_ok run]
            exact ⟨⟨failure, rfl⟩, congrArg Disk.files restored⟩
        | error other =>
            rw [run_bind_of_error run]
            exact ⟨⟨other, rfl⟩, congrArg Disk.files restored⟩
  · simp only [if_neg handled]
    exact ⟨⟨failure, rfl⟩, rfl⟩

end

/-! ## The whole call -/

section

variable (repository : Repository) (circumstances : Circumstances) (configuration : Configuration)
variable (disk : Disk)

/-- A call that raises leaves every configuration file as it was. -/
def UnchangedOnFailure : Prop :=
  ∀ failure,
    ((repository.writeFiles circumstances configuration).run disk).1 = .error failure →
      ((repository.writeFiles circumstances configuration).run disk).2.files = disk.files

/-- The call gets to the guarded block. -/
def Prepared : Prop :=
  (∃ leases, circumstances.leases.readLeases = .ok leases) ∧
    snapshot circumstances.snapshot disk.files repository.files = .ok ()

/-- The files hold what is rendered for them. -/
def Rendered (files : List ConfigurationFile) : Prop :=
  ∀ file ∈ files, disk.files file = repository.renderedBytes configuration file

/-- The written configuration and the leases are read back. -/
def ReadsBack : Prop :=
  ∃ state, repository.readState circumstances
    (overwrite repository.files (repository.renderedBytes configuration) disk.files) = .ok state

/-- When a failing call leaves the files: before the guarded block; on a failing step of
it, when the replaced files can be restored and the handler names the failure, or held the
rendered bytes; after it, when they are read back or held the rendered bytes. -/
def FilesSurvive : Prop :=
  Prepared repository circumstances disk →
    match blockFailure repository circumstances with
    | some (replaced, failure) =>
        if failure.handled then ∀ file ∈ replaced, isDecodable (disk.files file)
        else Rendered repository configuration disk replaced
    | none =>
        ReadsBack repository circumstances configuration disk ∨
          Rendered repository configuration disk repository.files

variable {repository circumstances configuration disk}

variable (configuration) in
/-- A call that does not get to the guarded block raises and changes nothing. -/
theorem writeFiles_of_unprepared (unprepared : ¬ Prepared repository circumstances disk) :
    ∃ raised, (repository.writeFiles circumstances configuration).run disk =
      (.error raised, disk) := by
  unfold Repository.writeFiles
  cases read : circumstances.leases.readLeases with
  | error failure => exact ⟨failure, run_bind_of_error (run_liftExcept _)⟩
  | ok leases =>
      rw [run_bind_of_ok (run_liftExcept _), run_bind_of_ok run_get]
      cases copied : snapshot circumstances.snapshot disk.files repository.files with
      | error failure => exact ⟨failure, run_bind_of_error (run_liftExcept _)⟩
      | ok done => exact absurd ⟨⟨leases, read⟩, copied⟩ unprepared

variable (configuration) in
/-- The rest of a call that gets to the guarded block. -/
theorem writeFiles_of_prepared (prepared : Prepared repository circumstances disk) :
    ∃ staleLeaseMacs, (repository.writeFiles circumstances configuration).run disk =
      (do
        handle (repository.guarded circumstances configuration staleLeaseMacs)
          (repository.recover disk.files)
        let after ← get
        liftExcept (repository.readState circumstances after.files) :
          Statements Disk Failure (Configuration × List Lease)).run disk := by
  rcases prepared with ⟨⟨leases, read⟩, copied⟩
  use configuration.staleLeaseMacs leases
  unfold Repository.writeFiles
  rw [read, run_bind_of_ok (run_liftExcept _), run_bind_of_ok run_get, copied,
    run_bind_of_ok (run_liftExcept _)]

variable (configuration) in
theorem writeFiles_of_blockFailure (prepared : Prepared repository circumstances disk)
    {replaced : List ConfigurationFile} {failure : Failure}
    (found : blockFailure repository circumstances = some (replaced, failure)) :
    (∃ raised, ((repository.writeFiles circumstances configuration).run disk).1 =
        .error raised) ∧
      ((repository.writeFiles circumstances configuration).run disk).2.files =
        if failure.handled then
          overwrite (restorable disk.files repository.files) disk.files
            (overwrite replaced (repository.renderedBytes configuration) disk.files)
        else overwrite replaced (repository.renderedBytes configuration) disk.files := by
  rcases writeFiles_of_prepared configuration prepared with ⟨macs, same⟩
  have block := run_guarded repository circumstances configuration macs disk
  rw [found] at block
  cases guardedRun : (repository.guarded circumstances configuration macs).run disk with
  | mk result working =>
      rw [guardedRun] at block
      have recovered := run_recover repository disk.files failure working
      have handled : (handle (repository.guarded circumstances configuration macs)
          (repository.recover disk.files)).run disk =
            (repository.recover disk.files failure).run working := by
        rw [run_handle, guardedRun, show result = .error failure from block.1]
      cases recoverRun : (repository.recover disk.files failure).run working with
      | mk answer after =>
          rw [recoverRun] at recovered
          rcases recovered with ⟨⟨raised, error⟩, files⟩
          have stopped := handled.trans (recoverRun.trans (congrArg (Prod.mk · after) error))
          have written : working.files =
              overwrite replaced (repository.renderedBytes configuration) disk.files := block.2
          rw [same, run_bind_of_error stopped, ← written]
          exact ⟨⟨raised, rfl⟩, files⟩

variable (configuration) in
theorem writeFiles_of_blockSuccess (prepared : Prepared repository circumstances disk)
    (found : blockFailure repository circumstances = none) :
    ((repository.writeFiles circumstances configuration).run disk).1 =
        repository.readState circumstances
          (overwrite repository.files (repository.renderedBytes configuration) disk.files) ∧
      ((repository.writeFiles circumstances configuration).run disk).2.files =
        overwrite repository.files (repository.renderedBytes configuration) disk.files := by
  rcases writeFiles_of_prepared configuration prepared with ⟨macs, same⟩
  have block := run_guarded repository circumstances configuration macs disk
  rw [found] at block
  cases guardedRun : (repository.guarded circumstances configuration macs).run disk with
  | mk result working =>
      rw [guardedRun] at block
      have passed : (handle (repository.guarded circumstances configuration macs)
          (repository.recover disk.files)).run disk = (.ok (), working) := by
        rw [run_handle, guardedRun, show result = .ok () from block.1]
      have written : working.files =
          overwrite repository.files (repository.renderedBytes configuration) disk.files := block.2
      rw [same, run_bind_of_ok passed, run_bind_of_ok run_get, run_liftExcept, written]
      exact ⟨rfl, rfl⟩

/-- Restoring what a handler restores leaves the files exactly when the replaced
ones can be decoded. -/
theorem restored_replaced_iff {replaced : List ConfigurationFile}
    (inside : replaced <+: repository.files) :
    overwrite (restorable disk.files repository.files) disk.files
        (overwrite replaced (repository.renderedBytes configuration) disk.files) = disk.files ↔
      ∀ file ∈ replaced, isDecodable (disk.files file) := by
  rw [restored_iff]
  constructor
  · intro same file member
    by_cases reached : file ∈ restorable disk.files repository.files
    · exact List.mem_takeWhile_imp (p := fun file => isDecodable (disk.files file)) reached
    · rw [← same file member reached]
      exact isDecodable_encodeText _
  · intro decodable file member missed
    exact absurd (mem_restorable_of_replaced inside decodable member) missed

/-- A call that raises leaves every configuration file as it was exactly when the
files survive its failing step. -/
theorem failed_dhcp_write_unchanged_iff (repository : Repository) (circumstances : Circumstances)
    (configuration : Configuration) (disk : Disk) :
    UnchangedOnFailure repository circumstances configuration disk ↔
      FilesSurvive repository circumstances configuration disk := by
  unfold UnchangedOnFailure FilesSurvive
  by_cases prepared : Prepared repository circumstances disk
  · cases found : blockFailure repository circumstances with
    | some pair =>
        rcases writeFiles_of_blockFailure configuration prepared found with ⟨⟨raised, error⟩, files⟩
        have inside := blockFailure_prefix repository circumstances found
        simp only [files]
        by_cases handled : pair.2.handled
        · simp only [if_pos handled]
          constructor
          · intro unchanged _
            exact (restored_replaced_iff inside).mp (unchanged raised error)
          · intro decodable _ _
            exact (restored_replaced_iff inside).mpr (decodable prepared)
        · simp only [if_neg handled]
          constructor
          · intro unchanged _ file member
            exact (overwrite_eq_self_iff.mp (unchanged raised error) file member).symm
          · intro rendered _ _
            exact overwrite_eq_self_iff.mpr fun file member =>
              (rendered prepared file member).symm
    | none =>
        rcases writeFiles_of_blockSuccess configuration prepared found with ⟨answer, files⟩
        simp only [files, answer]
        constructor
        · intro unchanged _
          cases read : repository.readState circumstances (overwrite repository.files
              (repository.renderedBytes configuration) disk.files) with
          | ok state => exact Or.inl ⟨state, read⟩
          | error failure =>
              exact Or.inr fun file member =>
                (overwrite_eq_self_iff.mp (unchanged failure read) file member).symm
        · intro survive failure failed
          rcases survive prepared with ⟨state, read⟩ | rendered
          · rw [read] at failed
            contradiction
          · exact overwrite_eq_self_iff.mpr fun file member => (rendered file member).symm
  · constructor
    · intro _ reached
      exact absurd reached prepared
    · intro _ failure _
      rcases writeFiles_of_unprepared configuration prepared with ⟨raised, stopped⟩
      rw [stopped]

end

/-! ## A write that returns -/

/-- The texts of the files. -/
def textsOf (contents : Contents) : Files where
  main := (contents .main).bind decodeBytes
  reservations category := (contents (.reservations category)).bind decodeBytes

theorem mem_files_reservations {repository : Repository} {category : Category} :
    ConfigurationFile.reservations category ∈ repository.files ↔
      category ∈ repository.reservationPaths := by
  simp [Repository.files]

/-- The written bytes are the written texts. -/
theorem textsOf_written (repository : Repository) (configuration : Configuration)
    (contents : Contents) :
    textsOf (overwrite repository.files (repository.renderedBytes configuration) contents) =
      repository.write configuration (textsOf contents) := by
  have main : overwrite repository.files (repository.renderedBytes configuration) contents .main =
      repository.renderedBytes configuration .main := overwrite_of_mem List.mem_cons_self
  unfold textsOf Repository.write
  congr 1
  · rw [main]
    exact decodeBytes_encodeText _
  · funext category
    by_cases configured : category ∈ repository.reservationPaths
    · rw [overwrite_of_mem (mem_files_reservations.mpr configured), if_pos configured]
      exact decodeBytes_encodeText _
    · rw [overwrite_of_not_mem fun member => configured (mem_files_reservations.mp member),
        if_neg configured]

/-- A call that returns has written the texts of the configuration. -/
theorem textsOf_writeFiles {repository : Repository} {circumstances : Circumstances}
    {configuration : Configuration} {disk : Disk} {state : Configuration × List Lease}
    (returned : ((repository.writeFiles circumstances configuration).run disk).1 = .ok state) :
    textsOf ((repository.writeFiles circumstances configuration).run disk).2.files =
      repository.write configuration (textsOf disk.files) := by
  by_cases prepared : Prepared repository circumstances disk
  · cases found : blockFailure repository circumstances with
    | some pair =>
        rcases writeFiles_of_blockFailure configuration prepared found with ⟨⟨raised, error⟩, _⟩
        rw [error] at returned
        contradiction
    | none =>
        rw [(writeFiles_of_blockSuccess configuration prepared found).2]
        exact textsOf_written repository configuration disk.files
  · rcases writeFiles_of_unprepared configuration prepared with ⟨raised, stopped⟩
    rw [stopped] at returned
    contradiction

/-- Reading back reads the lease database. -/
theorem leases_of_readState {repository : Repository} {circumstances : Circumstances}
    {contents : Contents} {state : Configuration × List Lease}
    (read : repository.readState circumstances contents = .ok state) :
    ∃ leases, circumstances.leasesAfter.readLeases = .ok leases := by
  rcases bind_eq_ok.mp read with ⟨_, _, read⟩
  rcases bind_eq_ok.mp read with ⟨_, _, read⟩
  rcases bind_eq_ok.mp read with ⟨_, _, read⟩
  rcases bind_eq_ok.mp read with ⟨_, _, read⟩
  rcases bind_eq_ok.mp read with ⟨leases, found, _⟩
  exact ⟨leases, found⟩

section ReadBack

variable {circumstances : Circumstances} {contents : Contents}
  (reads : ∀ file, circumstances.reads file = none)
  (decodable : ∀ file, isDecodable (contents file))
include reads decodable

/-- Reading a file gives its text. -/
theorem readFile_eq_ok (file : ConfigurationFile) :
    readFile circumstances contents file = .ok ((contents file).bind decodeBytes) := by
  have whole := decodable file
  unfold readFile
  cases found : contents file with
  | none => rfl
  | some bytes =>
      rw [found] at whole
      rcases Option.isSome_iff_exists.mp whole with ⟨content, decoded⟩
      simp [readText, reads, decoded, Except.map]

theorem readReservationFiles_eq_ok (categories : List Category) {reservations : List Reservation}
    (read : Repository.readAllReservations (textsOf contents) categories = .ok reservations) :
    readReservationFiles circumstances contents categories = .ok reservations := by
  induction categories generalizing reservations with
  | nil =>
      cases read
      rfl
  | cons category categories inductionHypothesis =>
      rcases bind_eq_ok.mp read with ⟨first, found, more⟩
      rcases bind_eq_ok.mp more with ⟨rest, later, together⟩
      cases together
      unfold readReservationFiles
      rw [readFile_eq_ok reads decodable]
      have found : readReservations category
          ((contents (.reservations category)).bind decodeBytes) = .ok first := found
      simp only [found, inductionHypothesis later, Except.mapError, bind, Except.bind, pure,
        Except.pure]

/-- Files whose texts give a configuration are read back. -/
theorem readState_eq_ok {repository : Repository} {configuration : Configuration}
    {leases : List Lease}
    (read : repository.readConfiguration (textsOf contents) = .ok configuration)
    (found : circumstances.leasesAfter.readLeases = .ok leases) :
    repository.readState circumstances contents = .ok (configuration, leases) := by
  rcases bind_eq_ok.mp read with ⟨settings, main, more⟩
  rcases bind_eq_ok.mp more with ⟨reservations, rows, contract⟩
  have main : Repository.readSettings ((contents .main).bind decodeBytes) = .ok settings := main
  unfold Repository.readState
  rw [readFile_eq_ok reads decodable]
  simp only [main, readReservationFiles_eq_ok reads decodable _ rows, contract, found,
    Except.mapError, bind, Except.bind, pure, Except.pure]

end ReadBack

/-! ## Failing writes of a server with one reservation -/

namespace FailedWrite

/-- Nothing fails, and there are no leases. -/
def calm : Circumstances where
  leases := ⟨none, none⟩
  snapshot := fun _ => none
  faults := fun _ => none
  validation := .notConfigured
  reload := some none
  timeNs := 0
  reads := fun _ => none
  leasesAfter := ⟨none, none⟩

/-- dnsmasq rejects the files. -/
def rejecting : Circumstances :=
  { calm with validation := .finished 1 [] "bad option".toList }

/-- dnsmasq prints what is not text. -/
def unreadable : Circumstances :=
  { calm with validation := .undecodable }

/-- The lease database gets a line of one word while the files are written. -/
def brokenLeases : Circumstances :=
  { calm with leasesAfter := ⟨some (encodeText "broken".toList), none⟩ }

/-- A main file of one Latin-1 letter, without files of reservations. -/
def latin1Disk : Disk where
  files
    | .main => some ⟨#[0xE9]⟩
    | .reservations _ => none
  reloadRequest := none

def emptyDisk : Disk where
  files := fun _ => none
  reloadRequest := none

def oneReservation : Configuration :=
  configurationOn defaultSettings.interface

theorem main_mem_files : ConfigurationFile.main ∈ fullRepository.files :=
  List.mem_cons_self

/-- A rejected configuration stays in place of a main file that is not UTF-8. -/
theorem rejecting_not_unchanged :
    ¬ UnchangedOnFailure fullRepository rejecting oneReservation latin1Disk := by
  intro unchanged
  have found : blockFailure fullRepository rejecting = some (fullRepository.files, .configuration
      "dnsmasq rejected the configuration: bad option".toList) := rfl
  rcases writeFiles_of_blockFailure oneReservation (⟨⟨[], rfl⟩, rfl⟩ : Prepared _ _ latin1Disk)
    found with ⟨⟨raised, error⟩, files⟩
  have same := files.symm.trans (unchanged raised error)
  have decodable := (restored_replaced_iff List.prefix_rfl).mp same .main main_mem_files
  exact absurd decodable (by decide)

/-- Output that is no text leaves new files where there were none. -/
theorem unreadable_not_unchanged :
    ¬ UnchangedOnFailure fullRepository unreadable oneReservation emptyDisk := by
  intro unchanged
  have found : blockFailure fullRepository unreadable =
      some (fullRepository.files, .undecodable) := rfl
  rcases writeFiles_of_blockFailure oneReservation (⟨⟨[], rfl⟩, rfl⟩ : Prepared _ _ emptyDisk)
    found with ⟨⟨raised, error⟩, files⟩
  have same := files.symm.trans (unchanged raised error)
  exact Option.some_ne_none _ (overwrite_eq_self_iff.mp same .main main_mem_files)

theorem readLeases_brokenLeases : brokenLeases.leasesAfter.readLeases =
    .error (.configuration "Invalid dnsmasq lease at line 1".toList) := by
  have content : readText none (encodeText "broken".toList) = .ok "broken".toList := by
    simp only [readText, decodeBytes_encodeText]
  have lines : readLines "broken".toList = ["broken".toList] := by
    decide
  show (readText none (encodeText "broken".toList) >>= fun content =>
    readLeaseLines 1 (readLines content)) = _
  rw [content, ok_bind, lines]
  rfl

/-- So does a lease database that the last step cannot read. -/
theorem brokenLeases_not_unchanged :
    ¬ UnchangedOnFailure fullRepository brokenLeases oneReservation emptyDisk := by
  intro unchanged
  rcases writeFiles_of_blockSuccess oneReservation (⟨⟨[], rfl⟩, rfl⟩ : Prepared _ _ emptyDisk)
    (rfl : blockFailure fullRepository brokenLeases = none) with ⟨answer, files⟩
  cases read : fullRepository.readState brokenLeases (overwrite fullRepository.files
      (fullRepository.renderedBytes oneReservation) emptyDisk.files) with
  | ok state =>
      rcases leases_of_readState read with ⟨leases, found⟩
      exact nomatch readLeases_brokenLeases.symm.trans found
  | error failure =>
      have same := files.symm.trans (unchanged failure (answer.trans read))
      exact Option.some_ne_none _ (overwrite_eq_self_iff.mp same .main main_mem_files)

/-- New files stay behind a file that cannot be decoded, after an exception that the
handler does not name, and when they are not read back. -/
theorem failed_write_not_unchanged :
    ¬ UnchangedOnFailure fullRepository rejecting oneReservation latin1Disk ∧
      ¬ UnchangedOnFailure fullRepository unreadable oneReservation emptyDisk ∧
        ¬ UnchangedOnFailure fullRepository brokenLeases oneReservation emptyDisk :=
  ⟨rejecting_not_unchanged, unreadable_not_unchanged, brokenLeases_not_unchanged⟩

end FailedWrite

end OhanaAgent.Host
